import LightTerminal.LaunchRegistry.Operations
import LightTerminal.Speculation.Actor

/-! # Managed owners at startup

When the daemon starts, the launch registry reports what it knows of the processes that were launched
for tournaments. `correlate_managed_startup` (`speculation_service.rs`) goes through the report in slot
order and names the owners in the records. A candidate is first probed and then run, and a record that
names the Probe may be changed to name the Runner, but never the other way round.

The writes of different tournaments do not meet, so the loop is taken apart by record: `correlateRecord`
is what one entry does to the record it belongs to.

* `Ordered`: the lists of entries that a record takes;
* `correlateRecord_run`: a record takes a list of entries exactly if it is ordered, and then it names
  the owners of `ownerAfter`. -/

namespace LightTerminal.Speculation.Correlate

open LightTerminal.Data.Text LightTerminal.Library LightTerminal.Library.Procedure
open LightTerminal.LaunchRegistry.Record (ManagedOwnerTag ManagedOwnerRole)
open LightTerminal.LaunchRegistry.Operations (ManagedKey ManagedReconcileEntry ReconcileOutcome)
open LightTerminal.Speculation.Phase LightTerminal.Speculation.Record
open LightTerminal.Speculation.Store LightTerminal.Speculation.Writes
open LightTerminal.Speculation.History LightTerminal.Speculation.Actor

/-- `TournamentRecoveryRecord`. -/
inductive TournamentRecoveryRecord where
  | valid (key : TournamentKey) (record : TournamentRecord)
  | corrupt (slot : Option ℕ)
  deriving DecidableEq, Repr

/-- What `scan_recovery` says of a slot. -/
def scanSlot (slot : ℕ) : SlotState → Option TournamentRecoveryRecord
  | .vacant _ => none
  | .valid record _ => some (.valid (keyFor slot record) record)
  | .corrupt => some (.corrupt (some slot))

/-- `TournamentStore::scan_recovery`. -/
def scanRecovery (store : TournamentStore) : List TournamentRecoveryRecord :=
  store.slots.zipIdx.filterMap (fun (state, slot) => scanSlot slot state) ++
    List.replicate store.unknownCorruptRecords (.corrupt none)

/-- The store and the records of the recovery, which `correlate_managed_startup` both changes. -/
structure Startup where
  store : TournamentStore
  recovery : List TournamentRecoveryRecord

/-- A step of the startup. -/
abbrev StartupOp := Proc ServiceError Startup

/-- An operation of the store, done at startup. -/
def onStartupStore {α : Type} (m : Op α) : StartupOp α := do
  let startup ← get
  let (result, store) := exec m startup.store
  set { startup with store }
  match result with
  | .ok a => return a
  | .error e => throw (mapStoreError e)

theorem onStartupStore_ok {α : Type} {m : Op α} {a : α} {startup : Startup} {store' : TournamentStore}
    (h : exec m startup.store = (.ok a, store')) :
    exec (onStartupStore m) startup = (.ok a, { startup with store := store' }) := by
  unfold onStartupStore
  rw [exec_bind_ok (exec_get startup)]
  simp only [h]
  rfl

/-- The tournaments of the records, if there is no corrupt one. -/
def tournamentUuids : List TournamentRecoveryRecord → Except ServiceError (List Uuid)
  | [] => return []
  | .valid _ record :: rest => return record.status.tournamentUuid :: (← tournamentUuids rest)
  | .corrupt _ :: _ => throw .evidenceUnavailable

/-- The candidate that an index names; `ManagedOwnerTag::validate` checked that it is 0 or 1. -/
def candidateAt (index : ℕ) : Fin 2 := if index = 0 then 0 else 1

/-- The evidence about an owner with its key. -/
def ownerEvidence (owner : ManagedOwnerTag) (key : ManagedKey) : ManagedOwnerEvidence where
  candidateIndex := owner.candidateIndex
  role :=
    match owner.role with
    | .probe => .probe
    | .runner => .runner
  slot := key.slot
  generation := key.generation

/-- The record with an owner named and the next generation. -/
def withOwner (record : TournamentRecord) (generation : ℕ) (evidence : ManagedOwnerEvidence) :
    TournamentRecord :=
  { record with
    status := { record.status with generation }
    managedOwners :=
      record.managedOwners.modify (fun _ => some evidence) (candidateAt evidence.candidateIndex) }

/-- The record of a position with an owner named, and the write of it. -/
def nameOwner (io : TournamentRecord → WriteIo) (position : ℕ) (key : TournamentKey)
    (record : TournamentRecord) (evidence : ManagedOwnerEvidence) : StartupOp Unit := do
  actorEnsure (key.generation + 1 < 2 ^ 64) .generationExhausted
  let next := withOwner record (key.generation + 1) evidence
  let stored ← onStartupStore (write (io next) key key.generation next .samePhaseEvidence)
  modify fun startup =>
    { startup with recovery := startup.recovery.set position (.valid stored.key stored.record) }

/-- What the loop does with the evidence about an owner and the record at its position. -/
def correlateOwner (io : TournamentRecord → WriteIo) (position : ℕ) (evidence : ManagedOwnerEvidence) :
    StartupOp Unit := do
  let startup ← get
  match startup.recovery[position]? with
  | some (.valid key record) =>
    match record.managedOwners.get (candidateAt evidence.candidateIndex) with
    | some existing =>
      if existing = evidence then return ()
      else do
        actorEnsure (existing.candidateIndex = evidence.candidateIndex ∧ existing.role = .probe ∧
          evidence.role = .runner) .evidenceUnavailable
        nameOwner io position key record evidence
    | none => do
      actorEnsure (record.isPositiveTerminal = false) .evidenceUnavailable
      nameOwner io position key record evidence
  | _ => throw .evidenceUnavailable

/-- The keys and the owners that the loop has seen. -/
structure Seen where
  keys : List ManagedKey
  owners : List (Uuid × ℕ × ManagedOwnerRole)

/-- The name under which the loop remembers an owner. -/
def ownerName (owner : ManagedOwnerTag) : Uuid × ℕ × ManagedOwnerRole :=
  (owner.tournamentUuid, owner.candidateIndex, owner.role)

/-- What the loop has seen after an entry. -/
def Seen.insert (seen : Seen) (entry : ManagedReconcileEntry) : Seen where
  keys := entry.key.toList ++ seen.keys
  owners := (entry.owner.map ownerName).toList ++ seen.owners

/-- The loop body of `correlate_managed_startup`. -/
def correlateEntry (io : TournamentRecord → WriteIo) (uuids : List Uuid) (seen : Seen)
    (entry : ManagedReconcileEntry) : StartupOp Seen := do
  actorEnsure (entry.outcome = .absent ∨ entry.outcome = .resolvedTombstone) .evidenceUnavailable
  actorEnsure (∀ key ∈ entry.key, key ∉ seen.keys) .evidenceUnavailable
  match entry.owner with
  | none => return seen.insert entry
  | some owner =>
    actorEnsure (owner.validate = .ok ()) .evidenceUnavailable
    let key ← actorOkOr entry.key .evidenceUnavailable
    actorEnsure (ownerName owner ∉ seen.owners) .evidenceUnavailable
    let position ← actorOkOr (uuids.idxOf? owner.tournamentUuid) .evidenceUnavailable
    correlateOwner io position (ownerEvidence owner key)
    return seen.insert entry

/-- `correlate_managed_startup`; `io` is what the system answers to a write. -/
def correlateManagedStartup (io : TournamentRecord → WriteIo) (entries : List ManagedReconcileEntry) :
    StartupOp Unit := do
  let startup ← get
  let uuids ← tournamentUuids startup.recovery
  actorEnsure uuids.Nodup .evidenceUnavailable
  let _ ← entries.foldlM (correlateEntry io uuids) ⟨[], []⟩

/-! ### One record -/

/-- The owner that a record names for the candidate of an evidence. -/
def named (record : TournamentRecord) (evidence : ManagedOwnerEvidence) : Option ManagedOwnerEvidence :=
  record.managedOwners.get (candidateAt evidence.candidateIndex)

/-- The record with the next generation may name the owner. -/
def Nameable (record : TournamentRecord) (evidence : ManagedOwnerEvidence) : Prop :=
  (match named record evidence with
    | none => record.isPositiveTerminal = false
    | some existing => existing.candidateIndex = evidence.candidateIndex ∧ existing.role = .probe ∧
        evidence.role = .runner) ∧
    record.status.generation + 1 < 2 ^ 64

instance (record : TournamentRecord) (evidence : ManagedOwnerEvidence) :
    Decidable (Nameable record evidence) := by
  unfold Nameable
  split <;> infer_instance

/-- What an entry of the report does to the record of its tournament. -/
def correlateRecord (record : TournamentRecord) (evidence : ManagedOwnerEvidence) :
    Option TournamentRecord :=
  if named record evidence = some evidence then some record
  else if Nameable record evidence then
    some (withOwner record (record.status.generation + 1) evidence)
  else none

/-- The entries of a report that are about one record: for each candidate and role there is at most
one, and it is what the record names in that role. -/
structure Reported (record : TournamentRecord) (evidences : List ManagedOwnerEvidence) : Prop where
  valid : record.Valid
  bounded : record.status.generation < 2 ^ 64
  belongs : ∀ e ∈ evidences, e.candidateIndex < 2 ∧ e.generation ≠ 0
  distinct : evidences.Pairwise fun a b => a.candidateIndex = b.candidateIndex → a.role ≠ b.role
  consistent : ∀ e ∈ evidences, ∀ owner ∈ named record e, owner.role = e.role → owner = e

/-- The entries that a record does not name yet. -/
def unnamed (record : TournamentRecord) (evidences : List ManagedOwnerEvidence) :
    List ManagedOwnerEvidence :=
  evidences.filter fun e => named record e ≠ some e

/-- The entries come in an order that the loop takes: the Probe of a candidate before its Runner, and no
Probe after the record names the Runner. -/
structure Ordered (record : TournamentRecord) (evidences : List ManagedOwnerEvidence) : Prop where
  probeFirst : evidences.Pairwise fun a b => a.candidateIndex = b.candidateIndex → a.role = .probe
  probed : ∀ e ∈ evidences, e.role = .probe → ∀ owner ∈ named record e, owner.role = .probe
  live : ∀ e ∈ evidences, named record e = none → record.isPositiveTerminal = false
  generation : record.status.generation + (unnamed record evidences).length < 2 ^ 64

/-- The owner of a candidate after a report: the Runner of the report, else the Probe, else the one
that was named before. -/
def ownerAfter (record : TournamentRecord) (evidences : List ManagedOwnerEvidence) (i : Fin 2) :
    Option ManagedOwnerEvidence :=
  ((evidences.find? fun e => candidateAt e.candidateIndex = i ∧ e.role = .runner).or
    (evidences.find? fun e => candidateAt e.candidateIndex = i ∧ e.role = .probe)).or
    (record.managedOwners.get i)

/-- The record after a report. -/
def recordAfter (record : TournamentRecord) (evidences : List ManagedOwnerEvidence) :
    TournamentRecord :=
  { record with
    status := { record.status with
      generation := record.status.generation + (unnamed record evidences).length }
    managedOwners := ⟨ownerAfter record evidences 0, ownerAfter record evidences 1⟩ }

variable {record next : TournamentRecord} {e : ManagedOwnerEvidence} {es : List ManagedOwnerEvidence}

theorem candidateAt_inj {m n : ℕ} (hm : m < 2) (hn : n < 2) : candidateAt m = candidateAt n ↔ m = n := by
  unfold candidateAt
  have hm' : m = 0 ∨ m = 1 := by omega
  have hn' : n = 0 ∨ n = 1 := by omega
  rcases hm' with rfl | rfl <;> rcases hn' with rfl | rfl <;> decide

theorem candidateAt_val {m : ℕ} (hm : m < 2) : (candidateAt m).val = m := by
  unfold candidateAt
  have hm' : m = 0 ∨ m = 1 := by omega
  rcases hm' with rfl | rfl <;> rfl

/-- What the record names after an owner was named in it. -/
theorem named_withOwner {generation : ℕ} {e' : ManagedOwnerEvidence} (he : e.candidateIndex < 2)
    (he' : e'.candidateIndex < 2) :
    named (withOwner record generation e) e' =
      if e.candidateIndex = e'.candidateIndex then some e else named record e' := by
  unfold named withOwner
  rw [Pair.get_modify]
  simp only [candidateAt_inj he' he, eq_comm]

theorem clean_withOwner {generation : ℕ} : (withOwner record generation e).Clean ↔ record.Clean :=
  TournamentRecord.clean_congr (fun _ => rfl) rfl fun _ => rfl

/-- Naming an owner does not end a tournament, and does not reopen it. -/
theorem isPositiveTerminal_withOwner {generation : ℕ} (hvalid : record.Valid)
    (hvalid' : (withOwner record generation e).Valid) :
    (withOwner record generation e).isPositiveTerminal = record.isPositiveTerminal := by
  rw [Bool.eq_iff_iff, TournamentRecord.isPositiveTerminal_iff, TournamentRecord.isPositiveTerminal_iff,
    and_iff_right hvalid.core, and_iff_right hvalid'.core]
  exact and_congr_right fun _ => clean_withOwner

theorem valid_withOwner {generation : ℕ} (hvalid : record.Valid) (he : e.candidateIndex < 2)
    (hgeneration : e.generation ≠ 0) (hne : generation ≠ 0) :
    (withOwner record generation e).Valid := by
  obtain ⟨⟨hroots, hdomain, hgroups, hnames, hstatus, howners, hprior⟩, hcompleted⟩ := hvalid
  obtain ⟨⟨h1, h2, h3, h4, h5, h6, h7⟩, hcandidates, hrollback, hselection⟩ := hstatus
  refine ⟨⟨hroots, hdomain, hgroups, hnames, ?_, ?_, hprior⟩, ?_⟩
  · exact ⟨⟨h1, h2, hne, h4, h5, h6, h7⟩, hcandidates, hrollback, hselection⟩
  · intro i owner howner
    simp only [withOwner, Pair.get_modify] at howner
    split_ifs at howner with hi
    · simp only [Option.mem_def, Option.some.injEq] at howner
      subst howner hi
      exact ⟨(candidateAt_val he).symm, hgeneration⟩
    · exact howners i owner howner
  · exact hcompleted.trans (and_congr_right fun _ => clean_withOwner.symm)

/-- An entry that is accepted: the record names the owner already, or it does from now on. -/
theorem correlateRecord_eq_some :
    correlateRecord record e = some next ↔
      named record e = some e ∧ next = record ∨
        named record e ≠ some e ∧ Nameable record e ∧
          next = withOwner record (record.status.generation + 1) e := by
  unfold correlateRecord
  split_ifs with hnamed hnameable
  · simp [hnamed, eq_comm]
  · simp [hnamed, hnameable, eq_comm]
  · simp [hnamed, hnameable]

section Step
variable (h : Reported record (e :: es)) (hnext : correlateRecord record e = some next)
include h hnext

theorem Reported.valid_next : next.Valid := by
  obtain ⟨hindex, hgeneration⟩ := h.belongs e List.mem_cons_self
  rcases correlateRecord_eq_some.mp hnext with ⟨-, rfl⟩ | ⟨-, -, rfl⟩
  · exact h.valid
  · exact valid_withOwner h.valid hindex hgeneration (by omega)

theorem Reported.isPositiveTerminal_next : next.isPositiveTerminal = record.isPositiveTerminal := by
  have hvalid := h.valid_next hnext
  rcases correlateRecord_eq_some.mp hnext with ⟨-, rfl⟩ | ⟨-, -, rfl⟩
  · rfl
  · exact isPositiveTerminal_withOwner h.valid hvalid

/-- What the record names after an entry. -/
theorem Reported.named_next {e' : ManagedOwnerEvidence} (he' : e'.candidateIndex < 2) :
    named next e' = if e.candidateIndex = e'.candidateIndex then some e else named record e' := by
  obtain ⟨hindex, -⟩ := h.belongs e List.mem_cons_self
  rcases correlateRecord_eq_some.mp hnext with ⟨hnamed, rfl⟩ | ⟨-, -, rfl⟩
  · split_ifs with heq
    · unfold named at hnamed ⊢
      rw [← heq]
      exact hnamed
    · rfl
  · exact named_withOwner hindex he'

theorem Reported.tail : Reported next es := by
  have hdistinct := List.pairwise_cons.mp h.distinct
  refine ⟨h.valid_next hnext, ?_, ?_, hdistinct.2, ?_⟩
  · rcases correlateRecord_eq_some.mp hnext with ⟨-, rfl⟩ | ⟨-, ⟨-, hbound⟩, rfl⟩
    · exact h.bounded
    · exact hbound
  · intro e' he'
    exact h.belongs e' (List.mem_cons_of_mem _ he')
  · intro e' he' owner howner hrole
    have hindex := (h.belongs e' (List.mem_cons_of_mem _ he')).1
    rw [h.named_next hnext hindex] at howner
    split_ifs at howner with heq
    · simp only [Option.mem_def, Option.some.injEq] at howner
      subst howner
      exact absurd hrole (hdistinct.1 e' he' heq)
    · exact h.consistent e' (List.mem_cons_of_mem _ he') owner howner hrole

/-- The generation goes up by one for each entry that the record does not name yet, if the Probe of a
candidate comes first. -/
theorem Reported.generation_next
    (hfirst : ∀ e' ∈ es, e.candidateIndex = e'.candidateIndex → e.role = .probe) :
    next.status.generation + (unnamed next es).length =
      record.status.generation + (unnamed record (e :: es)).length := by
  have hrest : unnamed next es = unnamed record es := by
    unfold unnamed
    refine List.filter_congr fun e' he' => ?_
    have hindex := (h.belongs e' (List.mem_cons_of_mem _ he')).1
    rw [h.named_next hnext hindex]
    split_ifs with heq
    · -- the later entry is the Runner, which neither record names
      have hrole := hfirst e' he' heq
      have hne := (List.pairwise_cons.mp h.distinct).1 e' he' heq
      have hother : e ≠ e' := fun heq' => hne (by rw [heq'])
      have hsame : named record e' = named record e := by
        unfold named
        rw [heq]
      have hunnamed : named record e' ≠ some e' := by
        rw [hsame]
        intro hnamed
        rcases correlateRecord_eq_some.mp hnext with ⟨hnamed', -⟩ | ⟨-, ⟨hnameable, -⟩, -⟩
        · rw [hnamed] at hnamed'
          simp only [Option.some.injEq] at hnamed'
          exact hother hnamed'.symm
        · rw [hnamed] at hnameable
          rw [hnameable.2.2] at hrole
          simp at hrole
      simp [hother, hunnamed]
    · rfl
  rw [hrest]
  unfold unnamed
  rw [List.filter_cons]
  rcases correlateRecord_eq_some.mp hnext with ⟨hnamed, rfl⟩ | ⟨hnamed, -, rfl⟩
  · simp [hnamed]
  · simp only [ne_eq, hnamed, not_false_eq_true, decide_true, if_true, List.length_cons]
    show record.status.generation + 1 + _ = _
    omega

end Step

theorem probe_then_runner {r r' : ManagedOwnerRoleEvidence} (hne : r ≠ r')
    (hprobed : r' = .probe → r = .probe) : r = .probe ∧ r' = .runner := by
  revert hne hprobed
  cases r <;> cases r' <;> simp

/-- The first entry of an ordered list is accepted. -/
theorem Ordered.accepted (h : Reported record (e :: es)) (hordered : Ordered record (e :: es)) :
    ∃ next, correlateRecord record e = some next := by
  by_cases hnamed : named record e = some e
  · exact ⟨record, correlateRecord_eq_some.mpr (.inl ⟨hnamed, rfl⟩)⟩
  refine ⟨_, correlateRecord_eq_some.mpr (.inr ⟨hnamed, ⟨?_, ?_⟩, rfl⟩)⟩
  · have hindex := (h.belongs e List.mem_cons_self).1
    rcases hexisting : named record e with _ | existing
    · exact hordered.live e List.mem_cons_self hexisting
    · have hbelongs := h.valid.core.owners _ existing hexisting
      rw [ManagedOwnerEvidence.Belongs, candidateAt_val hindex] at hbelongs
      have hne : existing.role ≠ e.role := by
        intro hrole
        rw [hexisting, h.consistent e List.mem_cons_self existing hexisting hrole] at hnamed
        exact hnamed rfl
      have hprobed : e.role = .probe → existing.role = .probe := fun hrole =>
        hordered.probed e List.mem_cons_self hrole existing hexisting
      exact ⟨hbelongs.1, probe_then_runner hne hprobed⟩
  · have hcount : (unnamed record (e :: es)).length = (unnamed record es).length + 1 := by
      simp [unnamed, hnamed]
    have hgeneration := hordered.generation
    omega

/-- A list of entries is ordered exactly if the first one is accepted and the rest is ordered for the
record that it leads to. -/
theorem ordered_cons (h : Reported record (e :: es)) (hnext : correlateRecord record e = some next) :
    Ordered record (e :: es) ↔ Ordered next es := by
  have hdistinct := (List.pairwise_cons.mp h.distinct).1
  have hindex : ∀ e' ∈ es, e'.candidateIndex < 2 := fun e' he' =>
    (h.belongs e' (List.mem_cons_of_mem _ he')).1
  have hterminal := h.isPositiveTerminal_next hnext
  constructor
  · rintro ⟨hfirst, hprobed, hlive, hgeneration⟩
    obtain ⟨hfirst, hrest⟩ := List.pairwise_cons.mp hfirst
    refine ⟨hrest, ?_, ?_, ?_⟩
    · intro e' he' hrole owner howner
      rw [h.named_next hnext (hindex e' he')] at howner
      split_ifs at howner with heq
      · exact absurd ((hfirst e' he' heq).trans hrole.symm) (hdistinct e' he' heq)
      · exact hprobed e' (List.mem_cons_of_mem _ he') hrole owner howner
    · intro e' he' hnone
      rw [h.named_next hnext (hindex e' he')] at hnone
      split_ifs at hnone with heq
      rw [hterminal]
      exact hlive e' (List.mem_cons_of_mem _ he') hnone
    · rw [h.generation_next hnext hfirst]
      exact hgeneration
  · rintro ⟨hrest, hprobed, hlive, hgeneration⟩
    have hfirst : ∀ e' ∈ es, e.candidateIndex = e'.candidateIndex → e.role = .probe := by
      intro e' he' heq
      rcases hrole : e'.role with _ | _
      · refine hprobed e' he' hrole e ?_
        rw [h.named_next hnext (hindex e' he'), if_pos heq]
        rfl
      · have hne := hdistinct e' he' heq
        rw [hrole] at hne
        revert hne
        rcases e.role with _ | _ <;> simp
    have hsame : ∀ e' ∈ es, e.candidateIndex = e'.candidateIndex → named record e' = named record e := by
      intro e' _ heq
      unfold named
      rw [heq]
    refine ⟨List.pairwise_cons.mpr ⟨hfirst, hrest⟩, ?_, ?_, ?_⟩
    · intro e' he' hrole owner howner
      rcases List.mem_cons.mp he' with rfl | he'
      · rcases correlateRecord_eq_some.mp hnext with ⟨hnamed, -⟩ | ⟨-, ⟨hnameable, -⟩, -⟩
        · rw [hnamed] at howner
          simp only [Option.mem_def, Option.some.injEq] at howner
          rw [← howner]
          exact hrole
        · rw [howner] at hnameable
          exact hnameable.2.1
      · by_cases heq : e.candidateIndex = e'.candidateIndex
        · exact absurd ((hfirst e' he' heq).trans hrole.symm) (hdistinct e' he' heq)
        · refine hprobed e' he' hrole owner ?_
          rw [h.named_next hnext (hindex e' he'), if_neg heq]
          exact howner
    · have hhead : named record e = none → record.isPositiveTerminal = false := by
        intro hnone
        rcases correlateRecord_eq_some.mp hnext with ⟨hnamed, -⟩ | ⟨-, ⟨hnameable, -⟩, -⟩
        · rw [hnone] at hnamed
          simp at hnamed
        · rw [hnone] at hnameable
          exact hnameable
      intro e' he' hnone
      rcases List.mem_cons.mp he' with rfl | he'
      · exact hhead hnone
      · by_cases heq : e.candidateIndex = e'.candidateIndex
        · rw [hsame e' he' heq] at hnone
          exact hhead hnone
        · rw [← hterminal]
          refine hlive e' he' ?_
          rw [h.named_next hnext (hindex e' he'), if_neg heq]
          exact hnone
    · rw [← h.generation_next hnext hfirst]
      exact hgeneration

/-- An entry leads to the same owners as if the record had named its owner before. -/
theorem ownerAfter_cons (h : Reported record (e :: es)) (hordered : Ordered record (e :: es))
    (hnext : correlateRecord record e = some next) (i : Fin 2) :
    ownerAfter record (e :: es) i = ownerAfter next es i := by
  have hdistinct := (List.pairwise_cons.mp h.distinct).1
  have hfirst := (List.pairwise_cons.mp hordered.probeFirst).1
  have hindex := (h.belongs e List.mem_cons_self).1
  have hsame : ∀ e' ∈ es, candidateAt e'.candidateIndex = candidateAt e.candidateIndex →
      e.candidateIndex = e'.candidateIndex := fun e' he' heq =>
    ((candidateAt_inj (h.belongs e' (List.mem_cons_of_mem _ he')).1 hindex).mp heq).symm
  have howner : next.managedOwners.get i =
      if candidateAt e.candidateIndex = i then some e else record.managedOwners.get i := by
    rcases correlateRecord_eq_some.mp hnext with ⟨hnamed, rfl⟩ | ⟨-, -, rfl⟩
    · split_ifs with heq
      · rw [← heq]
        exact hnamed
      · rfl
    · unfold withOwner
      rw [Pair.get_modify]
      simp only [eq_comm]
  unfold ownerAfter
  rw [howner]
  by_cases hi : candidateAt e.candidateIndex = i
  · subst hi
    -- no later entry has the role of this one
    have hrole : ∀ e' ∈ es, candidateAt e'.candidateIndex = candidateAt e.candidateIndex →
        e'.role ≠ e.role ∧ e.role = .probe := fun e' he' heq =>
      ⟨(hdistinct e' he' (hsame e' he' heq)).symm, hfirst e' he' (hsame e' he' heq)⟩
    have hnone : ∀ r, (r = .probe ∨ e.role = .runner) → es.find? (fun e' =>
        candidateAt e'.candidateIndex = candidateAt e.candidateIndex ∧ e'.role = r) = none := by
      intro r hr
      rw [List.find?_eq_none]
      intro e' he'
      simp only [decide_eq_true_eq, not_and]
      intro heq hr'
      obtain ⟨hne, hprobe⟩ := hrole e' he' heq
      rcases hr with rfl | hr
      · exact hne (hr'.trans hprobe.symm)
      · rw [hr] at hprobe
        simp at hprobe
    rcases he : e.role with _ | _
    · rw [hnone .probe (.inl rfl)]
      simp [he]
    · rw [hnone .probe (.inl rfl), hnone .runner (.inr he)]
      simp [he]
  · simp [hi]

/-- **The entries of one record.** They are all accepted exactly if they are ordered, and then they
lead to the record with the latest owners. -/
theorem correlateRecord_run (es : List ManagedOwnerEvidence) : ∀ record, Reported record es →
    (Ordered record es → es.foldlM correlateRecord record = some (recordAfter record es)) ∧
      (¬ Ordered record es → es.foldlM correlateRecord record = none) := by
  induction es with
  | nil =>
    intro record h
    refine ⟨fun _ => rfl, fun hordered => absurd ?_ hordered⟩
    refine ⟨List.Pairwise.nil, ?_, ?_, h.bounded⟩
    · intro e he
      simp at he
    · intro e he
      simp at he
  | cons e es ih =>
    intro record h
    rcases hnext : correlateRecord record e with _ | next
    · have hrefused : ¬ Ordered record (e :: es) := by
        intro hordered
        obtain ⟨next, hnext'⟩ := hordered.accepted h
        rw [hnext] at hnext'
        simp at hnext'
      refine ⟨fun hordered => absurd hordered hrefused, fun _ => ?_⟩
      rw [List.foldlM_cons, hnext]
      rfl
    · have hcons := ordered_cons h hnext
      have hrest := ih next (h.tail hnext)
      have hrun : (e :: es).foldlM correlateRecord record = es.foldlM correlateRecord next := by
        rw [List.foldlM_cons, hnext]
        rfl
      rw [hrun, hcons]
      refine ⟨fun hordered => ?_, hrest.2⟩
      rw [hrest.1 hordered]
      have hordered' := hcons.mpr hordered
      have hfirst := (List.pairwise_cons.mp hordered'.probeFirst).1
      have hgeneration := h.generation_next hnext hfirst
      unfold recordAfter
      rw [hgeneration, ← ownerAfter_cons h hordered' hnext, ← ownerAfter_cons h hordered' hnext]
      rcases correlateRecord_eq_some.mp hnext with ⟨-, rfl⟩ | ⟨-, -, rfl⟩
      · rfl
      · rfl

/-! ### The order of the entries -/

theorem find?_perm {α : Type} {p : α → Bool} {l l' : List α} (hperm : l.Perm l')
    (hunique : ∀ a ∈ l, ∀ b ∈ l, p a = true → p b = true → a = b) : l.find? p = l'.find? p := by
  rcases hl : l.find? p with _ | a
  · symm
    rw [List.find?_eq_none] at hl ⊢
    exact fun b hb => hl b (hperm.mem_iff.mpr hb)
  · have ha := List.mem_of_find?_eq_some hl
    have hpa := List.find?_some hl
    rcases hl' : l'.find? p with _ | b
    · rw [List.find?_eq_none] at hl'
      exact absurd hpa (hl' a (hperm.mem_iff.mp ha))
    · have hb := hperm.mem_iff.mpr (List.mem_of_find?_eq_some hl')
      rw [hunique a ha b hb hpa (List.find?_some hl')]

theorem Reported.unique (h : Reported record es) : ∀ a ∈ es, ∀ b ∈ es,
    a.candidateIndex = b.candidateIndex → a.role = b.role → a = b := by
  have hpairwise : es.Pairwise fun a b => a.candidateIndex = b.candidateIndex → a.role = b.role → a = b :=
    h.distinct.imp fun hdistinct hindex hrole => absurd hrole (hdistinct hindex)
  have hsymm : Std.Symm fun a b : ManagedOwnerEvidence =>
      a.candidateIndex = b.candidateIndex → a.role = b.role → a = b :=
    ⟨fun _ _ hab hindex hrole => (hab hindex.symm hrole.symm).symm⟩
  intro a ha b hb
  exact hpairwise.forall_of_forall (fun _ _ _ _ => rfl) ha hb

/-- The record after a report does not depend on the order of the entries. -/
theorem recordAfter_perm {es' : List ManagedOwnerEvidence} (h : Reported record es)
    (hperm : es.Perm es') : recordAfter record es = recordAfter record es' := by
  have howner : ∀ i, ownerAfter record es i = ownerAfter record es' i := by
    intro i
    have hfind : ∀ r, es.find? (fun e => candidateAt e.candidateIndex = i ∧ e.role = r) =
        es'.find? (fun e => candidateAt e.candidateIndex = i ∧ e.role = r) := by
      intro r
      refine find?_perm hperm fun a ha b hb hpa hpb => ?_
      simp only [decide_eq_true_eq] at hpa hpb
      have hindex := (candidateAt_inj (h.belongs a ha).1 (h.belongs b hb).1).mp
        (hpa.1.trans hpb.1.symm)
      exact h.unique a ha b hb hindex (hpa.2.trans hpb.2.symm)
    unfold ownerAfter
    rw [hfind, hfind]
  have hcount : (unnamed record es).length = (unnamed record es').length :=
    (hperm.filter _).length_eq
  unfold recordAfter
  rw [howner, howner, hcount]

end LightTerminal.Speculation.Correlate
