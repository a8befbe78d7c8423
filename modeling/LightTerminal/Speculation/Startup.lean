import LightTerminal.Speculation.Correlate

/-! # The report at startup

The loop of `correlate_managed_startup` over a whole report and all records. Each record goes through
the entries that are about it, in their order, and through no other (`correlate_loop`), so the loop
succeeds exactly if these entries are ordered for every record.

* `correlation_iff`: when the startup takes a report, and what it leaves. -/

namespace LightTerminal.Speculation.Startup

open LightTerminal.Data.Text LightTerminal.Library LightTerminal.Library.Procedure
open LightTerminal.LaunchRegistry.Record (ManagedOwnerTag ManagedOwnerRole)
open LightTerminal.LaunchRegistry.Operations (ManagedKey ManagedReconcileEntry ReconcileOutcome)
open LightTerminal.Speculation.Phase LightTerminal.Speculation.Record
open LightTerminal.Speculation.Store LightTerminal.Speculation.Writes
open LightTerminal.Speculation.History LightTerminal.Speculation.Actor
open LightTerminal.Speculation.Correlate

variable {record next : TournamentRecord} {e : ManagedOwnerEvidence} {es : List ManagedOwnerEvidence}

/-! ### The store -/

/-- What `scan_recovery` gives for records and their slots. -/
def recovered (records : List (ℕ × TournamentRecord)) : List TournamentRecoveryRecord :=
  records.map fun p => .valid (keyFor p.1 p.2) p.2

/-- The tournaments of the records. -/
def uuidsOf (records : List (ℕ × TournamentRecord)) : List Uuid :=
  records.map fun p => p.2.status.tournamentUuid

/-- The records are those of the store, and each is of another tournament. -/
structure Linked (store : TournamentStore) (records : List (ℕ × TournamentRecord)) : Prop where
  coherent : Coherent store
  slot : ∀ p ∈ records, ∃ identity, store.slots[p.1]? = some (.valid p.2 identity)
  distinct : (uuidsOf records).Nodup

variable {store : TournamentStore} {records : List (ℕ × TournamentRecord)}
  {io : TournamentRecord → WriteIo} {position slot : ℕ}

theorem Linked.durable (h : Linked store records) {p : ℕ × TournamentRecord} (hp : p ∈ records) :
    durable store p.1 = some p.2 := by
  obtain ⟨identity, hslot⟩ := h.slot p hp
  exact h.coherent.durable_of_valid hslot

theorem Linked.valid (h : Linked store records) {p : ℕ × TournamentRecord} (hp : p ∈ records) :
    p.2.Valid := h.coherent.checked _ _ (h.durable hp)

theorem tournamentUuids_recovered (records : List (ℕ × TournamentRecord)) :
    tournamentUuids (recovered records) = .ok (uuidsOf records) := by
  induction records with
  | nil => rfl
  | cons p records ih =>
    unfold recovered uuidsOf at ih ⊢
    rw [List.map_cons, tournamentUuids, ih]
    rfl

/-- A list of values of a function is the image of a list. -/
theorem exists_map_eq {α β : Type} {f : α → β} {P : α → Prop} : ∀ {l : List β},
    (∀ b ∈ l, ∃ a, b = f a ∧ P a) → ∃ l' : List α, l = l'.map f ∧ ∀ a ∈ l', P a := by
  intro l
  induction l with
  | nil =>
    intro _
    exact ⟨[], rfl, fun a ha => by simp at ha⟩
  | cons b l ih =>
    intro h
    obtain ⟨a, rfl, ha⟩ := h b List.mem_cons_self
    obtain ⟨l', rfl, hl'⟩ := ih fun b hb => h b (List.mem_cons_of_mem _ hb)
    exact ⟨a :: l', rfl, List.forall_mem_cons.mpr ⟨ha, hl'⟩⟩

/-- What the scan of a store gives, if nothing in it is corrupt and its tournaments are different: the
two conditions of `validate_recovery_records`. -/
theorem linked_scanRecovery (hstore : Coherent store)
    (hvalid : ∀ slot, TournamentRecoveryRecord.corrupt slot ∉ scanRecovery store)
    (hdistinct : ∀ uuids, tournamentUuids (scanRecovery store) = .ok uuids → uuids.Nodup) :
    ∃ records, scanRecovery store = recovered records ∧ Linked store records := by
  have hrecords : ∀ entry ∈ scanRecovery store, ∃ p : ℕ × TournamentRecord,
      entry = .valid (keyFor p.1 p.2) p.2 ∧ ∃ identity, store.slots[p.1]? = some (.valid p.2 identity) := by
    intro entry hentry
    rcases List.mem_append.mp hentry with hslots | hunknown
    · obtain ⟨⟨state, slot⟩, hmem, hscan⟩ := List.mem_filterMap.mp hslots
      rcases state with _ | ⟨record, identity⟩ | _
      · simp [scanSlot] at hscan
      · simp only [scanSlot, Option.some.injEq] at hscan
        exact ⟨(slot, record), hscan.symm, identity, (List.mem_zipIdx_iff_getElem?.mp hmem)⟩
      · simp only [scanSlot, Option.some.injEq] at hscan
        rw [← hscan] at hentry
        exact absurd hentry (hvalid _)
    · rw [List.eq_of_mem_replicate hunknown] at hentry
      exact absurd hentry (hvalid _)
  obtain ⟨records, hmap, hslot⟩ := exists_map_eq hrecords
  refine ⟨records, hmap, hstore, hslot, hdistinct _ ?_⟩
  rw [hmap]
  exact tournamentUuids_recovered records

/-- The records of different positions are of different tournaments. -/
theorem Linked.uuid_ne (h : Linked store records) {i j : ℕ} {p q : ℕ × TournamentRecord}
    (hp : records[i]? = some p) (hq : records[j]? = some q) (hne : i ≠ j) :
    p.2.status.tournamentUuid ≠ q.2.status.tournamentUuid := by
  intro heq
  have hp' : (uuidsOf records)[i]? = some p.2.status.tournamentUuid := by
    simp [uuidsOf, hp]
  have hq' : (uuidsOf records)[j]? = some p.2.status.tournamentUuid := by
    simp [uuidsOf, hq, heq]
  obtain ⟨hi, hi'⟩ := List.getElem?_eq_some_iff.mp hp'
  obtain ⟨hj, hj'⟩ := List.getElem?_eq_some_iff.mp hq'
  exact hne ((List.Nodup.getElem_inj_iff h.distinct).mp (hi'.trans hj'.symm))

/-- Records at different positions are in different slots. -/
theorem Linked.slot_ne (h : Linked store records) {i j : ℕ} {p q : ℕ × TournamentRecord}
    (hp : records[i]? = some p) (hq : records[j]? = some q) (hne : i ≠ j) : p.1 ≠ q.1 := by
  intro heq
  obtain ⟨identity, hslot⟩ := h.slot p (List.mem_of_getElem? hp)
  obtain ⟨identity', hslot'⟩ := h.slot q (List.mem_of_getElem? hq)
  rw [heq, hslot'] at hslot
  simp only [Option.some.injEq, SlotState.valid.injEq] at hslot
  exact h.uuid_ne hp hq hne (by rw [hslot.1])

theorem uuidsOf_set {next : TournamentRecord} (hp : records[position]? = some (slot, record))
    (huuid : next.status.tournamentUuid = record.status.tournamentUuid) :
    uuidsOf (records.set position (slot, next)) = uuidsOf records := by
  unfold uuidsOf
  rw [List.map_set, huuid]
  refine List.ext_getElem? fun i => ?_
  rw [List.getElem?_set]
  split_ifs with hi hlt
  · subst hi
    simp [hp]
  · subst hi
    simp only [List.length_map, not_lt] at hlt
    simp [List.getElem?_eq_none hlt]
  · rfl

/-- The store takes the record with the owner. -/
theorem accepts_withOwner (h : Nameable record e) :
    Accepts .samePhaseEvidence record (withOwner record (record.status.generation + 1) e) := by
  have howner : ∀ i, managedOwnerProgressesTo (record.managedOwners.get i)
      ((withOwner record (record.status.generation + 1) e).managedOwners.get i) := by
    intro i
    unfold withOwner
    rw [Pair.get_modify]
    split_ifs with hi
    · subst hi
      obtain ⟨hnameable, -⟩ := h
      unfold named at hnameable
      rcases hexisting : record.managedOwners.get (candidateAt e.candidateIndex) with _ | existing
      · trivial
      · rw [hexisting] at hnameable
        exact .inr hnameable
    · exact managedOwnerProgressesTo_refl _
  refine ⟨⟨rfl, rfl, rfl, immutableIdentityProgressesTo_refl _, rfl, rfl, rfl, rfl⟩, ⟨rfl, rfl⟩,
    ⟨le_rfl, fun _ => optionIsRetained_refl _, .inr (optionIsRetained_refl _), List.prefix_rfl,
      ⟨candidateProgressesTo_refl _, candidateProgressesTo_refl _⟩, ⟨howner 0, howner 1⟩⟩, ?_⟩
  intro _
  exact ⟨isLegalTransition_domain_self _, isLegalTransition_group_self _,
    isLegalTransition_group_self _⟩

/-- The records after a write to one of their slots. -/
theorem Linked.installed (h : Linked store records) {next : TournamentRecord} (identity : FileIdentity)
    (hp : records[position]? = some (slot, record)) (hvalid : next.Valid)
    (huuid : next.status.tournamentUuid = record.status.tournamentUuid) :
    Linked ((store.install slot identity next).setSlot slot (.valid next identity))
      (records.set position (slot, next)) := by
  obtain ⟨identity', hslot⟩ := h.slot _ (List.mem_of_getElem? hp)
  have hlt := h.coherent.lt_of_slot hslot
  refine ⟨h.coherent.installed hlt hvalid (.inr rfl), ?_, ?_⟩
  · intro q hq
    obtain ⟨i, hi⟩ := List.getElem?_of_mem hq
    show ∃ identity'', (store.slots.set slot (.valid next identity))[q.1]? = _
    rw [List.getElem?_set] at hi
    split_ifs at hi with hposition hlen
    · simp only [Option.some.injEq] at hi
      subst hi
      refine ⟨identity, ?_⟩
      rw [List.getElem?_set_self (List.getElem?_eq_some_iff.mp hslot).1]
    · rw [List.getElem?_set_ne (h.slot_ne hp hi hposition)]
      exact h.slot q (List.mem_of_getElem? hi)
  · rw [uuidsOf_set hp huuid]
    exact h.distinct

theorem recovered_getElem? (hp : records[position]? = some (slot, record)) :
    (recovered records)[position]? = some (.valid (keyFor slot record) record) := by
  unfold recovered
  rw [List.getElem?_map, hp]
  rfl

theorem keyFor_generation (slot : ℕ) (record : TournamentRecord) :
    (keyFor slot record).generation = record.status.generation := rfl

theorem nameOwner_exec (h : Linked store records)
    (hio : ∀ next, ∃ identity, io next = .done identity)
    (hp : records[position]? = some (slot, record)) (hnameable : Nameable record e)
    (hindex : e.candidateIndex < 2) (hgeneration : e.generation ≠ 0) :
    ∃ store', exec (nameOwner io position (keyFor slot record) record e) ⟨store, recovered records⟩ =
        (.ok (), ⟨store', recovered (records.set position
          (slot, withOwner record (record.status.generation + 1) e))⟩) ∧
      Linked store' (records.set position
        (slot, withOwner record (record.status.generation + 1) e)) ∧
      ∀ slot', slot' ≠ slot → durable store' slot' = durable store slot' := by
  obtain ⟨identity', hio⟩ := hio (withOwner record (record.status.generation + 1) e)
  obtain ⟨identity, hslot⟩ := h.slot _ (List.mem_of_getElem? hp)
  have hvalid := h.valid (List.mem_of_getElem? hp)
  have hnext : (withOwner record (record.status.generation + 1) e).Valid :=
    valid_withOwner hvalid hindex hgeneration (by omega)
  have hkey : keyMatches (keyFor slot record) record.status.generation record
      (withOwner record (record.status.generation + 1) e) :=
    ⟨rfl, rfl, rfl, hnameable.2, rfl⟩
  have hwrite := @exec_write store identity' (keyFor slot record) _ _ _ _ _ hslot
    (h.coherent.valid _ _ _ hslot) hnext hkey (accepts_withOwner hnameable)
  have hstored := @onStartupStore_ok _ _ _ ⟨store, recovered records⟩ _ hwrite
  rw [← hio] at hstored
  refine ⟨_, ?_, h.installed identity' hp hnext rfl, ?_⟩
  · unfold nameOwner
    refine (exec_lift_bind (require_eq_ok (u := ()).mpr hnameable.2)).trans ?_
    refine (exec_bind_ok hstored).trans ?_
    refine congrArg (Prod.mk _) (congrArg (Startup.mk _) ?_)
    unfold recovered
    rw [List.map_set]
    rfl
  · intro slot' hne
    show History.durable (store.install slot identity' _) slot' = _
    rw [durable_install (h.coherent.lt_of_slot hslot), if_neg hne.symm]

theorem nameOwner_refused (h : ¬ record.status.generation + 1 < 2 ^ 64) (startup : Startup) :
    ∃ error startup', exec (nameOwner io position (keyFor slot record) record e) startup =
      (.error error, startup') := by
  unfold nameOwner
  rw [exec_bind]
  simp only [exec_lift, require, keyFor_generation, h, if_false]
  exact ⟨_, _, rfl⟩

/-- The rest of `correlateOwner`, once the record and the owner that it names are known. -/
def correlateNamed (io : TournamentRecord → WriteIo) (position : ℕ) (key : TournamentKey)
    (record : TournamentRecord) (e : ManagedOwnerEvidence) : Option ManagedOwnerEvidence → StartupOp Unit
  | some existing =>
    if existing = e then return ()
    else do
      actorEnsure (existing.candidateIndex = e.candidateIndex ∧ existing.role = .probe ∧
        e.role = .runner) .evidenceUnavailable
      nameOwner io position key record e
  | none => do
    actorEnsure (record.isPositiveTerminal = false) .evidenceUnavailable
    nameOwner io position key record e

/-- What an owner of the report does at the position of its tournament. -/
theorem correlateOwner_exec (h : Linked store records)
    (hio : ∀ next, ∃ identity, io next = .done identity)
    (hp : records[position]? = some (slot, record))
    (hindex : e.candidateIndex < 2) (hgeneration : e.generation ≠ 0) :
    (correlateRecord record e = none ∧ ∃ error startup,
        exec (correlateOwner io position e) ⟨store, recovered records⟩ = (.error error, startup)) ∨
      ∃ next store', correlateRecord record e = some next ∧
        exec (correlateOwner io position e) ⟨store, recovered records⟩ =
          (.ok (), ⟨store', recovered (records.set position (slot, next))⟩) ∧
        Linked store' (records.set position (slot, next)) ∧
        ∀ slot', slot' ≠ slot → durable store' slot' = durable store slot' := by
  have hposition := recovered_getElem? hp
  have hexec : exec (correlateOwner io position e) ⟨store, recovered records⟩ =
      exec (correlateNamed io position (keyFor slot record) record e (named record e))
        ⟨store, recovered records⟩ := by
    unfold correlateOwner
    rw [exec_bind_ok (exec_get _)]
    simp only [hposition]
    rfl
  rw [hexec]
  by_cases hnamed : named record e = some e
  · right
    have hsame : records.set position (slot, record) = records := by
      obtain ⟨hlt, heq⟩ := List.getElem?_eq_some_iff.mp hp
      rw [← heq]
      exact List.set_getElem_self hlt
    refine ⟨record, store, correlateRecord_eq_some.mpr (.inl ⟨hnamed, rfl⟩), ?_, ?_, fun _ _ => rfl⟩
    · rw [hsame, hnamed]
      simp only [correlateNamed, if_true]
      rfl
    · rw [hsame]
      exact h
  by_cases hnameable : Nameable record e
  · right
    obtain ⟨store', hname, hlinked, hframe⟩ := nameOwner_exec h hio hp hnameable hindex hgeneration
    refine ⟨_, store', correlateRecord_eq_some.mpr (.inr ⟨hnamed, hnameable, rfl⟩), ?_, hlinked, hframe⟩
    rw [← hname]
    obtain ⟨hexisting, -⟩ := hnameable
    rcases hget : named record e with _ | existing
    · rw [hget] at hexisting
      exact exec_lift_bind (require_eq_ok (u := ()).mpr hexisting)
    · rw [hget] at hexisting hnamed
      simp only [correlateNamed]
      rw [if_neg fun heq => hnamed (congrArg some heq)]
      exact exec_lift_bind (require_eq_ok (u := ()).mpr hexisting)
  · left
    refine ⟨?_, ?_⟩
    · unfold correlateRecord
      rw [if_neg hnamed, if_neg hnameable]
    · unfold Nameable at hnameable
      rcases hget : named record e with _ | existing
      · rw [hget] at hnameable
        simp only [correlateNamed]
        by_cases hlive : record.isPositiveTerminal = false
        · rw [exec_lift_bind (require_eq_ok (u := ()).mpr hlive)]
          exact nameOwner_refused (fun hbound => hnameable ⟨hlive, hbound⟩) _
        · rw [exec_bind]
          simp only [exec_lift, require, hlive]
          exact ⟨_, _, rfl⟩
      · rw [hget] at hnameable hnamed
        simp only [correlateNamed]
        rw [if_neg fun heq => hnamed (congrArg some heq)]
        by_cases hrole : existing.candidateIndex = e.candidateIndex ∧ existing.role = .probe ∧
            e.role = .runner
        · rw [exec_lift_bind (require_eq_ok (u := ()).mpr hrole)]
          exact nameOwner_refused (fun hbound => hnameable ⟨hrole, hbound⟩) _
        · rw [exec_bind]
          simp only [exec_lift, require, hrole, if_false]
          exact ⟨_, _, rfl⟩

/-! ### The loop -/

/-- A report that the loop reads to its end if no owner is refused. -/
structure Readable (uuids : List Uuid) (seen : Seen) (entries : List ManagedReconcileEntry) : Prop where
  resolved : ∀ entry ∈ entries, entry.outcome = .absent ∨ entry.outcome = .resolvedTombstone
  keys : (entries.filterMap ManagedReconcileEntry.key ++ seen.keys).Nodup
  owners : (entries.filterMap (fun entry => entry.owner.map ownerName) ++ seen.owners).Nodup
  owned : ∀ entry ∈ entries, ∀ owner ∈ entry.owner, owner.validate = .ok () ∧
    owner.tournamentUuid ∈ uuids ∧ ∃ key ∈ entry.key, key.generation ≠ 0

/-- The entries that are about one tournament. -/
def evidenceFor (uuid : Uuid) (entries : List ManagedReconcileEntry) : List ManagedOwnerEvidence :=
  entries.filterMap fun entry =>
    match entry.owner, entry.key with
    | some owner, some key =>
      if owner.tournamentUuid = uuid then some (ownerEvidence owner key) else none
    | _, _ => none

variable {entry : ManagedReconcileEntry} {entries : List ManagedReconcileEntry} {seen : Seen}

/-- A name that comes first is none of the later ones, and it may be remembered instead. -/
theorem nodup_filterMap_cons {α β : Type} {f : α → Option β} {a : α} {l : List α} {l' : List β}
    (h : ((a :: l).filterMap f ++ l').Nodup) :
    (∀ b ∈ f a, b ∉ l') ∧ (l.filterMap f ++ ((f a).toList ++ l')).Nodup := by
  rcases hf : f a with _ | b
  · rw [List.filterMap_cons_none hf] at h
    exact ⟨fun b hb => by simp at hb, h⟩
  · rw [List.filterMap_cons_some hf, List.cons_append, List.nodup_cons] at h
    have hperm : (l.filterMap f ++ ([b] ++ l')).Perm (b :: (l.filterMap f ++ l')) :=
      List.perm_middle
    refine ⟨?_, hperm.nodup_iff.mpr (List.nodup_cons.mpr h)⟩
    intro b' hb' hmem
    simp only [Option.mem_def, Option.some.injEq] at hb'
    subst hb'
    exact h.1 (List.mem_append_right _ hmem)

theorem Readable.tail {uuids : List Uuid} (h : Readable uuids seen (entry :: entries)) :
    Readable uuids (seen.insert entry) entries where
  resolved e he := h.resolved e (List.mem_cons_of_mem _ he)
  keys := (nodup_filterMap_cons h.keys).2
  owners := (nodup_filterMap_cons h.owners).2
  owned e he := h.owned e (List.mem_cons_of_mem _ he)

theorem idxOf?_of_mem {α : Type} [BEq α] [LawfulBEq α] {a : α} {l : List α} (h : a ∈ l) :
    ∃ i, l.idxOf? a = some i ∧ l[i]? = some a := by
  rcases hi : l.idxOf? a with _ | i
  · rw [List.idxOf?_eq_none_iff] at hi
    exact absurd h hi
  · refine ⟨i, rfl, ?_⟩
    obtain ⟨hlt, heq, -⟩ := List.findIdx?_eq_some_iff_getElem.mp hi
    rw [List.getElem?_eq_getElem hlt, eq_of_beq heq]

theorem candidateIndex_lt {owner : ManagedOwnerTag} (h : owner.validate = .ok ()) :
    owner.candidateIndex < 2 := by
  simp only [ManagedOwnerTag.validate, bind_eq_ok, exists_unit, require_eq_ok] at h
  exact h.2.2

/-- An entry of a report that is read: it is nobody's, or all that is left of it is the owner. -/
theorem correlateEntry_exec (h : Readable (uuidsOf records) seen (entry :: entries)) (startup : Startup) :
    (entry.owner = none ∧ exec (correlateEntry io (uuidsOf records) seen entry) startup =
        (.ok (seen.insert entry), startup)) ∨
      ∃ owner key position slot record, entry.owner = some owner ∧ entry.key = some key ∧
        owner.candidateIndex < 2 ∧ key.generation ≠ 0 ∧
        records[position]? = some (slot, record) ∧
        record.status.tournamentUuid = owner.tournamentUuid ∧
        exec (correlateEntry io (uuidsOf records) seen entry) startup =
          exec (do
            correlateOwner io position (ownerEvidence owner key)
            return seen.insert entry : StartupOp Seen) startup := by
  have hresolved := h.resolved entry List.mem_cons_self
  have hkeys := (nodup_filterMap_cons h.keys).1
  unfold correlateEntry
  rw [exec_lift_bind (require_eq_ok (u := ()).mpr hresolved),
    exec_lift_bind (require_eq_ok (u := ()).mpr hkeys)]
  rcases howner : entry.owner with _ | owner
  · left
    exact ⟨rfl, rfl⟩
  · right
    obtain ⟨hvalid, huuid, key, hkey, hgeneration⟩ := h.owned entry List.mem_cons_self owner howner
    have hfresh : ownerName owner ∉ seen.owners := by
      refine (nodup_filterMap_cons h.owners).1 _ ?_
      rw [howner]
      rfl
    obtain ⟨position, hposition, hget⟩ := idxOf?_of_mem huuid
    have hrecord : ∃ p, records[position]? = some p ∧
        p.2.status.tournamentUuid = owner.tournamentUuid := by
      unfold uuidsOf at hget
      rw [List.getElem?_map, Option.map_eq_some_iff] at hget
      exact hget
    obtain ⟨⟨slot, record⟩, hp, hp'⟩ := hrecord
    refine ⟨owner, key, position, slot, record, rfl, hkey, candidateIndex_lt hvalid, hgeneration, hp, hp', ?_⟩
    simp only
    rw [exec_lift_bind (require_eq_ok (u := ()).mpr hvalid), exec_lift_bind (expect_eq_ok.mpr hkey),
      exec_lift_bind (require_eq_ok (u := ()).mpr hfresh), exec_lift_bind (expect_eq_ok.mpr hposition)]

/-- The store and the records after a report: each record went through the entries that are about
it. -/
structure Settled (entries : List ManagedReconcileEntry) (store : TournamentStore)
    (records : List (ℕ × TournamentRecord)) (store' : TournamentStore)
    (records' : List (ℕ × TournamentRecord)) : Prop where
  linked : Linked store' records'
  length : records'.length = records.length
  others : ∀ slot, (∀ p ∈ records, p.1 ≠ slot) → durable store' slot = durable store slot
  settled : ∀ (position slot : ℕ) (record : TournamentRecord),
    records[position]? = some (slot, record) → ∃ next,
    (evidenceFor record.status.tournamentUuid entries).foldlM correlateRecord record = some next ∧
      records'[position]? = some (slot, next)

/-- A record that does not pass the entries that are about it. -/
def Stuck (entries : List ManagedReconcileEntry) (records : List (ℕ × TournamentRecord)) : Prop :=
  ∃ p ∈ records,
    (evidenceFor p.2.status.tournamentUuid entries).foldlM correlateRecord p.2 = none

theorem evidenceFor_cons_none (howner : entry.owner = none) (uuid : Uuid) :
    evidenceFor uuid (entry :: entries) = evidenceFor uuid entries := by
  unfold evidenceFor
  rw [List.filterMap_cons_none (by rw [howner])]

theorem evidenceFor_cons_some {owner : ManagedOwnerTag} {key : ManagedKey}
    (howner : entry.owner = some owner) (hkey : entry.key = some key) (uuid : Uuid) :
    evidenceFor uuid (entry :: entries) =
      if owner.tournamentUuid = uuid then ownerEvidence owner key :: evidenceFor uuid entries
      else evidenceFor uuid entries := by
  unfold evidenceFor
  split_ifs with huuid
  · rw [List.filterMap_cons_some]
    simp [howner, hkey, huuid]
  · rw [List.filterMap_cons_none]
    simp [howner, hkey, huuid]

theorem uuid_of_correlateRecord (hnext : correlateRecord record e = some next) :
    next.status.tournamentUuid = record.status.tournamentUuid := by
  rcases correlateRecord_eq_some.mp hnext with ⟨-, rfl⟩ | ⟨-, -, rfl⟩
  · rfl
  · rfl

section Owner
variable (entries) {owner : ManagedOwnerTag} {key : ManagedKey} (howner : entry.owner = some owner)
  (hkey : entry.key = some key) (h : Linked store records)
  (hp : records[position]? = some (slot, record))
  (huuid : record.status.tournamentUuid = owner.tournamentUuid)
include howner hkey h hp huuid

/-- The entry goes to the record of its position and to no other. -/
theorem foldlM_cons_owner (hnext : correlateRecord record (ownerEvidence owner key) = some next)
    {i slot' : ℕ} {r : TournamentRecord} (hi : records[i]? = some (slot', r)) :
    ∃ r', (records.set position (slot, next))[i]? = some (slot', r') ∧
      (evidenceFor r.status.tournamentUuid (entry :: entries)).foldlM correlateRecord r =
        (evidenceFor r'.status.tournamentUuid entries).foldlM correlateRecord r' := by
  by_cases hposition : position = i
  · subst hposition
    rw [hp] at hi
    simp only [Option.some.injEq, Prod.mk.injEq] at hi
    obtain ⟨rfl, rfl⟩ := hi
    refine ⟨next, List.getElem?_set_self (List.getElem?_eq_some_iff.mp hp).1, ?_⟩
    rw [evidenceFor_cons_some howner hkey, if_pos huuid.symm, List.foldlM_cons, hnext,
      uuid_of_correlateRecord hnext]
    rfl
  · refine ⟨r, (List.getElem?_set_ne hposition).trans hi, ?_⟩
    have hne := h.uuid_ne hp hi hposition
    rw [evidenceFor_cons_some howner hkey, if_neg fun heq => hne (huuid.trans heq)]

/-- The record of a position that was changed comes from the one before. -/
theorem foldlM_of_set (hnext : correlateRecord record (ownerEvidence owner key) = some next)
    {p : ℕ × TournamentRecord} (hmem : p ∈ records.set position (slot, next)) :
    ∃ r, (p.1, r) ∈ records ∧
      (evidenceFor r.status.tournamentUuid (entry :: entries)).foldlM correlateRecord r =
        (evidenceFor p.2.status.tournamentUuid entries).foldlM correlateRecord p.2 := by
  obtain ⟨i, hi⟩ := List.getElem?_of_mem hmem
  have hlt : i < records.length := by
    have hlt := (List.getElem?_eq_some_iff.mp hi).1
    rwa [List.length_set] at hlt
  obtain ⟨r', hr', hfold⟩ := foldlM_cons_owner entries howner hkey h hp huuid hnext
    (List.getElem?_eq_getElem hlt)
  rw [hi] at hr'
  simp only [Option.some.injEq] at hr'
  rw [hr']
  exact ⟨_, List.getElem_mem hlt, hfold⟩

end Owner

/-- **The loop.** It reads a report to its end and settles every record, or it ends with an error and
one of the records is stuck. -/
theorem correlate_loop (hio : ∀ next, ∃ identity, io next = .done identity)
    (entries : List ManagedReconcileEntry) : ∀ seen store records, Linked store records →
    Readable (uuidsOf records) seen entries →
    (∃ seen' store' records', Settled entries store records store' records' ∧
        exec (entries.foldlM (correlateEntry io (uuidsOf records)) seen) ⟨store, recovered records⟩ =
          (.ok seen', ⟨store', recovered records'⟩)) ∨
      Stuck entries records ∧ ∃ error startup,
        exec (entries.foldlM (correlateEntry io (uuidsOf records)) seen) ⟨store, recovered records⟩ =
          (.error error, startup) := by
  induction entries with
  | nil =>
    intro seen store records h _
    refine .inl ⟨seen, store, records, ⟨h, rfl, fun _ _ => rfl, ?_⟩, rfl⟩
    intro position slot record hp
    exact ⟨record, rfl, hp⟩
  | cons entry entries ih =>
    intro seen store records h hread
    rw [List.foldlM_cons, exec_bind]
    rcases @correlateEntry_exec records io entry entries seen hread ⟨store, recovered records⟩ with
      ⟨howner, hexec⟩ | ⟨owner, key, position, slot, record, howner, hkey, hindex, hgeneration, hp, huuid, hexec⟩
    · rw [hexec]
      rcases ih (seen.insert entry) store records h hread.tail with
        ⟨seen', store', records', ⟨hlinked, hlength, hothers, hsettled⟩, hrest⟩ | ⟨⟨p, hp, hstuck⟩, hrest⟩
      · refine .inl ⟨seen', store', records', ⟨hlinked, hlength, hothers, ?_⟩, hrest⟩
        simp only [evidenceFor_cons_none howner]
        exact hsettled
      · refine .inr ⟨⟨p, hp, ?_⟩, hrest⟩
        rw [evidenceFor_cons_none howner]
        exact hstuck
    · rcases correlateOwner_exec (e := ownerEvidence owner key) h hio hp hindex hgeneration with
        ⟨hnone, error, startup, hfailed⟩ | ⟨next, store', hnext, hdone, hlinked, hframe⟩
      · right
        refine ⟨⟨(slot, record), List.mem_of_getElem? hp, ?_⟩, error, startup, ?_⟩
        · rw [evidenceFor_cons_some howner hkey, if_pos huuid.symm, List.foldlM_cons, hnone]
          rfl
        · rw [hexec, exec_bind, hfailed]
      · have hstep : exec (correlateEntry io (uuidsOf records) seen entry) ⟨store, recovered records⟩ =
            (.ok (seen.insert entry), ⟨store', recovered (records.set position (slot, next))⟩) := by
          rw [hexec, exec_bind, hdone]
          rfl
        have huuids := uuidsOf_set hp (uuid_of_correlateRecord hnext)
        have hread' := hread.tail
        rw [← huuids] at hread'
        rw [hstep]
        simp only
        rw [← huuids]
        rcases ih (seen.insert entry) store' _ hlinked hread' with
          ⟨seen', store'', records'', ⟨hlinked', hlength, hothers, hsettled⟩, hrest⟩ | ⟨⟨p, hp', hstuck⟩, hrest⟩
        · refine .inl ⟨seen', store'', records'', ⟨hlinked', ?_, ?_, ?_⟩, hrest⟩
          · rw [hlength, List.length_set]
          · intro slot' hslot'
            rw [hothers, hframe]
            · exact (hslot' _ (List.mem_of_getElem? hp)).symm
            · intro p hp'
              obtain ⟨r, hr, -⟩ := foldlM_of_set entries howner hkey h hp huuid hnext hp'
              exact hslot' (p.1, r) hr
          · intro position' slot' record' hp'
            obtain ⟨r', hr', hfold⟩ := foldlM_cons_owner entries howner hkey h hp huuid hnext hp'
            rw [hfold]
            exact hsettled position' slot' r' hr'
        · right
          refine ⟨?_, hrest⟩
          obtain ⟨r, hr, hfold⟩ := foldlM_of_set entries howner hkey h hp huuid hnext hp'
          exact ⟨(p.1, r), hr, hfold.trans hstuck⟩

/-! ### Reports -/

/-- A report of what the launch registry keeps of the tournaments of the records. -/
structure Report (store : TournamentStore) (records : List (ℕ × TournamentRecord))
    (entries : List ManagedReconcileEntry) : Prop where
  linked : Linked store records
  readable : Readable (uuidsOf records) ⟨[], []⟩ entries
  consistent : ∀ p ∈ records, ∀ e ∈ evidenceFor p.2.status.tournamentUuid entries,
    ∀ owner ∈ named p.2 e, owner.role = e.role → owner = e
  bounded : ∀ p ∈ records, p.2.status.generation < 2 ^ 64

theorem mem_evidenceFor {uuid : Uuid} (he : e ∈ evidenceFor uuid entries) :
    ∃ entry ∈ entries, ∃ owner key, entry.owner = some owner ∧ entry.key = some key ∧
      owner.tournamentUuid = uuid ∧ e = ownerEvidence owner key := by
  unfold evidenceFor at he
  obtain ⟨entry, hentry, heq⟩ := List.mem_filterMap.mp he
  rcases howner : entry.owner with _ | owner <;> rcases hkey : entry.key with _ | key <;>
    simp only [howner, hkey, reduceCtorEq] at heq
  split_ifs at heq with huuid
  simp only [Option.some.injEq] at heq
  exact ⟨entry, hentry, owner, key, howner, hkey, huuid, heq.symm⟩

theorem role_ownerEvidence {owner owner' : ManagedOwnerTag} {key key' : ManagedKey}
    (h : (ownerEvidence owner key).role = (ownerEvidence owner' key').role) :
    owner.role = owner'.role := by
  unfold ownerEvidence at h
  revert h
  rcases owner.role with _ | _ <;> rcases owner'.role with _ | _ <;> simp

/-- The entries about a tournament have different candidates or roles. -/
theorem Readable.distinct {uuids : List Uuid} (uuid : Uuid) : ∀ {entries : List ManagedReconcileEntry}
    {seen : Seen}, Readable uuids seen entries → (evidenceFor uuid entries).Pairwise
      fun a b => a.candidateIndex = b.candidateIndex → a.role ≠ b.role := by
  intro entries
  induction entries with
  | nil =>
    intro seen _
    exact List.Pairwise.nil
  | cons entry entries ih =>
    intro seen h
    have hrest := ih h.tail
    rcases howner : entry.owner with _ | owner
    · rw [evidenceFor_cons_none howner]
      exact hrest
    obtain ⟨-, -, key, hkey, -⟩ := h.owned entry List.mem_cons_self owner howner
    rw [evidenceFor_cons_some howner hkey]
    split_ifs with huuid
    · refine List.pairwise_cons.mpr ⟨?_, hrest⟩
      intro e he hindex hrole
      obtain ⟨entry', hentry', owner', key', howner', -, huuid', rfl⟩ := mem_evidenceFor he
      have hname : ownerName owner = ownerName owner' := by
        unfold ownerName
        rw [huuid, huuid', role_ownerEvidence hrole]
        exact congrArg (fun i => (uuid, i, owner'.role)) hindex
      have hnodup := h.owners
      rw [List.filterMap_cons_some (b := ownerName owner) (by rw [howner]; rfl), List.cons_append,
        List.nodup_cons] at hnodup
      refine hnodup.1 (List.mem_append_left _ ?_)
      rw [hname]
      refine List.mem_filterMap.mpr ⟨entry', hentry', ?_⟩
      rw [howner']
      rfl
    · exact hrest

theorem Report.reported (h : Report store records entries) {p : ℕ × TournamentRecord}
    (hp : p ∈ records) : Reported p.2 (evidenceFor p.2.status.tournamentUuid entries) := by
  refine ⟨h.linked.valid hp, h.bounded p hp, ?_, h.readable.distinct _, h.consistent p hp⟩
  intro e he
  obtain ⟨entry, hentry, owner, key, howner, hkey, -, rfl⟩ := mem_evidenceFor he
  obtain ⟨hvalid, -, key', hkey', hgeneration⟩ := h.readable.owned entry hentry owner howner
  rw [hkey] at hkey'
  simp only [Option.mem_def, Option.some.injEq] at hkey'
  subst hkey'
  exact ⟨candidateIndex_lt hvalid, hgeneration⟩

theorem Report.perm {entries' : List ManagedReconcileEntry} (h : Report store records entries)
    (hperm : entries.Perm entries') : Report store records entries' := by
  refine ⟨h.linked, ⟨?_, ?_, ?_, ?_⟩, ?_, h.bounded⟩
  · exact fun entry hentry => h.readable.resolved entry (hperm.mem_iff.mpr hentry)
  · exact ((hperm.filterMap _).append_right _).nodup_iff.mp h.readable.keys
  · exact ((hperm.filterMap _).append_right _).nodup_iff.mp h.readable.owners
  · exact fun entry hentry => h.readable.owned entry (hperm.mem_iff.mpr hentry)
  · intro p hp e he
    exact h.consistent p hp e ((hperm.filterMap _).mem_iff.mpr he)

/-! ### The whole startup -/

/-- The records after a report. -/
def recordsAfter (entries : List ManagedReconcileEntry) (records : List (ℕ × TournamentRecord)) :
    List (ℕ × TournamentRecord) :=
  records.map fun p => (p.1, recordAfter p.2 (evidenceFor p.2.status.tournamentUuid entries))

/-- The entries about every record come in an order that the loop takes. -/
def OrderedReport (records : List (ℕ × TournamentRecord)) (entries : List ManagedReconcileEntry) : Prop :=
  ∀ p ∈ records, Ordered p.2 (evidenceFor p.2.status.tournamentUuid entries)

/-- The startup takes a report in this order of the entries: it names the Runner of every candidate, or
else the Probe, and changes nothing else but the generations. In no other order of the entries does it
end with other records. -/
def Correlates (io : TournamentRecord → WriteIo) (store : TournamentStore)
    (records : List (ℕ × TournamentRecord)) (entries : List ManagedReconcileEntry) : Prop :=
  ∃ store', exec (correlateManagedStartup io entries) ⟨store, recovered records⟩ =
      (.ok (), ⟨store', recovered (recordsAfter entries records)⟩) ∧
    (∀ p ∈ recordsAfter entries records, durable store' p.1 = some p.2) ∧
    (∀ slot, (∀ p ∈ records, p.1 ≠ slot) → durable store' slot = durable store slot) ∧
    ∀ entries' startup', entries.Perm entries' →
      exec (correlateManagedStartup io entries') ⟨store, recovered records⟩ = (.ok (), startup') →
        startup'.recovery = recovered (recordsAfter entries records)

/-- The startup goes through the loop. -/
theorem correlateManagedStartup_exec (h : Linked store records) :
    exec (correlateManagedStartup io entries) ⟨store, recovered records⟩ =
      exec (do
        let _ ← entries.foldlM (correlateEntry io (uuidsOf records)) ⟨[], []⟩ : StartupOp Unit)
        ⟨store, recovered records⟩ := by
  unfold correlateManagedStartup
  rw [exec_bind_ok (exec_get _)]
  simp only [tournamentUuids_recovered]
  rw [exec_lift_bind rfl, exec_lift_bind (require_eq_ok (u := ()).mpr h.distinct)]

/-- A report is taken exactly if it is ordered, and the records that are left do not depend on the
order then. -/
theorem correlate_report (hio : ∀ next, ∃ identity, io next = .done identity)
    (h : Report store records entries) :
    (OrderedReport records entries →
        ∃ store', Linked store' (recordsAfter entries records) ∧
          (∀ slot, (∀ p ∈ records, p.1 ≠ slot) → durable store' slot = durable store slot) ∧
          exec (correlateManagedStartup io entries) ⟨store, recovered records⟩ =
            (.ok (), ⟨store', recovered (recordsAfter entries records)⟩)) ∧
      (¬ OrderedReport records entries →
        ∃ error startup, exec (correlateManagedStartup io entries) ⟨store, recovered records⟩ =
          (.error error, startup)) := by
  rw [correlateManagedStartup_exec h.linked]
  rcases correlate_loop hio entries ⟨[], []⟩ store records h.linked h.readable with
    ⟨seen', store', records', ⟨hlinked, hlength, hothers, hsettled⟩, hexec⟩ |
    ⟨⟨p, hp, hstuck⟩, error, startup, hexec⟩
  · have hordered : OrderedReport records entries := by
      intro p hp
      obtain ⟨i, hi⟩ := List.getElem?_of_mem hp
      obtain ⟨next, hfold, -⟩ := hsettled i p.1 p.2 hi
      by_contra hordered
      rw [(correlateRecord_run _ p.2 (h.reported hp)).2 hordered] at hfold
      simp at hfold
    have hrecords : records' = recordsAfter entries records := by
      refine List.ext_getElem? fun i => ?_
      unfold recordsAfter
      rw [List.getElem?_map]
      rcases hi : records[i]? with _ | ⟨slot, record⟩
      · rw [List.getElem?_eq_none_iff] at hi
        rw [List.getElem?_eq_none (by omega)]
        rfl
      · obtain ⟨next, hfold, hnext⟩ := hsettled i slot record hi
        have hmem := List.mem_of_getElem? hi
        rw [(correlateRecord_run _ record (h.reported hmem)).1 (hordered _ hmem)] at hfold
        simp only [Option.some.injEq] at hfold
        rw [hnext, ← hfold]
        rfl
    subst hrecords
    refine ⟨fun _ => ⟨store', hlinked, hothers, ?_⟩, fun hne => absurd hordered hne⟩
    rw [exec_bind_ok hexec]
    rfl
  · refine ⟨fun hordered => ?_, fun _ => ⟨error, startup, ?_⟩⟩
    · rw [(correlateRecord_run _ p.2 (h.reported hp)).1 (hordered p hp)] at hstuck
      simp at hstuck
    · rw [exec_bind, hexec]

/-- **The correlation at startup.** For every report about the tournaments of the records, the startup
names the right owners and nothing depends on the order, exactly if the entries are ordered: the Probe
of a candidate comes before its Runner, the record does not name the Runner of a Probe that is
reported, it is not over if it does not name an owner that is reported, and the generations do not run
out. -/
theorem correlation_iff (hio : ∀ next, ∃ identity, io next = .done identity)
    (h : Report store records entries) :
    Correlates io store records entries ↔ OrderedReport records entries := by
  constructor
  · rintro ⟨store', hexec, -⟩
    by_contra hordered
    obtain ⟨error, startup, hfailed⟩ := (correlate_report hio h).2 hordered
    rw [hfailed] at hexec
    simp at hexec
  · intro hordered
    obtain ⟨store', hlinked, hothers, hexec⟩ := (correlate_report hio h).1 hordered
    refine ⟨store', hexec, fun p hp => hlinked.durable hp, hothers, ?_⟩
    intro entries' startup' hperm hexec'
    have h' := h.perm hperm
    have hordered' : OrderedReport records entries' := by
      by_contra hordered'
      obtain ⟨error, startup, hfailed⟩ := (correlate_report hio h').2 hordered'
      rw [hfailed] at hexec'
      simp at hexec'
    obtain ⟨store'', -, -, hexec''⟩ := (correlate_report hio h').1 hordered'
    rw [hexec''] at hexec'
    simp only [Prod.mk.injEq, true_and] at hexec'
    rw [← hexec']
    have hsame : recordsAfter entries' records = recordsAfter entries records := by
      unfold recordsAfter
      refine List.map_congr_left fun p hp => ?_
      rw [recordAfter_perm (h.reported hp) (hperm.filterMap _)]
      rfl
    exact congrArg recovered hsame

/-- The entry of an owner of the sample tournament's first candidate. -/
def sampleEntry (role : ManagedOwnerRole) (slot : ℕ) : ManagedReconcileEntry where
  key := some ⟨slot, 1⟩
  owner := some ⟨.speculation, 2, 0, role⟩
  artifactBinding := none
  outcome := .resolvedTombstone

/-- The sample tournament once its first candidate was probed and is run. -/
def sampleLaunched : ActorTransitionState :=
  let named (role : ManagedOwnerRole) (slot : ℕ) (record : TournamentRecord) : TournamentRecord :=
    withOwner record record.status.generation (ownerEvidence ⟨.speculation, 2, 0, role⟩ ⟨slot, 1⟩)
  actorRun sampleActor
    [.claim ⟨1, .armed, none, 1000, ⟨1, 3⟩⟩, .evidence ⟨1, 4⟩ (named .probe 0),
      .claim ⟨3, .starting, none, 1000, ⟨1, 5⟩⟩, .evidence ⟨1, 6⟩ (named .runner 1)]

theorem synced_sampleActor : Synced sampleActor :=
  synced_fromPrepare Durable.fresh.coherent sampleAllocation_eq

theorem linked_of_synced {actor : ActorTransitionState} (h : Synced actor) :
    Linked actor.store [(actor.key.slot, actor.record)] := by
  refine ⟨h.coherent, ?_, List.nodup_singleton _⟩
  intro p hp
  rw [List.mem_singleton.mp hp]
  exact h.slot

/-- The report about a single record of the sample tournament with the entries of both roles. -/
theorem report_sampleEntries {actor : ActorTransitionState} (h : Synced actor)
    (huuid : actor.record.status.tournamentUuid = 2) (hbound : actor.record.status.generation < 2 ^ 64)
    (hconsistent : ∀ e ∈ evidenceFor 2 [sampleEntry .probe 0, sampleEntry .runner 1],
      ∀ owner ∈ named actor.record e, owner.role = e.role → owner = e) :
    Report actor.store [(actor.key.slot, actor.record)]
      [sampleEntry .probe 0, sampleEntry .runner 1] := by
  refine ⟨linked_of_synced h, ⟨?_, by decide, by decide, ?_⟩, ?_, ?_⟩
  · intro entry hentry
    right
    simp only [List.mem_cons, List.not_mem_nil, or_false] at hentry
    rcases hentry with rfl | rfl <;> rfl
  · intro entry hentry owner howner
    simp only [List.mem_cons, List.not_mem_nil, or_false] at hentry
    have hmem : (2 : Uuid) ∈ uuidsOf [(actor.key.slot, actor.record)] := by
      simp [uuidsOf, huuid]
    rcases hentry with rfl | rfl
    · simp only [sampleEntry, Option.mem_def, Option.some.injEq] at howner
      subst howner
      exact ⟨rfl, hmem, ⟨0, 1⟩, rfl, by decide⟩
    · simp only [sampleEntry, Option.mem_def, Option.some.injEq] at howner
      subst howner
      exact ⟨rfl, hmem, ⟨1, 1⟩, rfl, by decide⟩
  · intro p hp
    rw [List.mem_singleton.mp hp, huuid]
    exact hconsistent
  · intro p hp
    rw [List.mem_singleton.mp hp]
    exact hbound

theorem correlation_iff_probe_runner :
    OrderedReport [(0, sampleRecord)] [sampleEntry .probe 0, sampleEntry .runner 1] ∧
      Correlates (fun _ => .done ⟨1, 7⟩) sampleActor.store [(0, sampleRecord)]
        [sampleEntry .probe 0, sampleEntry .runner 1] := by
  have hordered : OrderedReport [(0, sampleRecord)] [sampleEntry .probe 0, sampleEntry .runner 1] := by
    intro p hp
    rw [List.mem_singleton.mp hp]
    exact ⟨by decide, by decide, by decide, by decide⟩
  have hreport : Report sampleActor.store [(0, sampleRecord)]
      [sampleEntry .probe 0, sampleEntry .runner 1] :=
    report_sampleEntries synced_sampleActor rfl (by decide) (by decide)
  exact ⟨hordered, (correlation_iff (fun _ => ⟨_, rfl⟩) hreport).mpr hordered⟩

/-- Once the Runner is launched, the record names it, and the tombstone of the Probe is still reported:
the startup refuses the report, in either order of the two entries. -/
theorem correlation_refused_launched :
    sampleLaunched.record.managedOwners.zero = some ⟨0, .runner, 1, 1⟩ ∧
      Report sampleLaunched.store [(0, sampleLaunched.record)]
        [sampleEntry .probe 0, sampleEntry .runner 1] ∧
      (exec (correlateManagedStartup (fun _ => .done ⟨1, 7⟩)
        [sampleEntry .probe 0, sampleEntry .runner 1])
        ⟨sampleLaunched.store, recovered [(0, sampleLaunched.record)]⟩).1 =
          .error .evidenceUnavailable ∧
      (exec (correlateManagedStartup (fun _ => .done ⟨1, 7⟩)
        [sampleEntry .runner 1, sampleEntry .probe 0])
        ⟨sampleLaunched.store, recovered [(0, sampleLaunched.record)]⟩).1 =
          .error .evidenceUnavailable := by
  have hsynced : Synced sampleLaunched := synced_sampleActor.run _
  have hslot : sampleLaunched.key.slot = 0 := by decide +kernel
  have hreport := report_sampleEntries hsynced (by decide +kernel) (by decide +kernel)
    (by decide +kernel)
  rw [hslot] at hreport
  exact ⟨by decide +kernel, hreport, by decide +kernel, by decide +kernel⟩

end LightTerminal.Speculation.Startup
