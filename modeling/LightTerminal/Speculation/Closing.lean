import LightTerminal.Speculation.Startup
import LightTerminal.Speculation.Recovery

/-! # How a recovery ends

The writes of a recovery change the control groups, the cleanup facts and the phase of a record, and
nothing else. The store takes each of them (`accepts_touched`, `accepts_inPhase`), so a recovery ends
if its effects do.

`Effective env J` says that the effects of the environment succeed as long as `J` relates the record to
the world, and that the recovery keeps `J`.

* `closeSameBoot_finishes`, `closeDifferentBoot_finishes`: a recovery takes a bounded number of steps and
  ends with a positive terminal. -/

namespace LightTerminal.Speculation.Closing

open LightTerminal.Data.Text LightTerminal.Library.Procedure LightTerminal.Library.Crash
open LightTerminal.Speculation.Phase LightTerminal.Speculation.Record
open LightTerminal.Speculation.Store LightTerminal.Speculation.Writes
open LightTerminal.Speculation.History LightTerminal.Speculation.Actor
open LightTerminal.Speculation.Recovery

/-! ### The evidence about control groups -/

theorem validate_group_eq_ok {evidence : CandidateCgroupEvidence} {index : ℕ} {boot : Uuid} :
    evidence.validate index boot = .ok () ↔
      (evidence.candidateIndex = index ∧ Uuid.isNil evidence.deterministicNameUuid = false ∧
        evidence.IdentitiesValid boot) ∧
      ∃ floor, evidence.presentFloor = .ok floor ∧
        floor = evidence.lifecycle.expectedPresentFloor floor := by
  simp only [CandidateCgroupEvidence.validate, bind_eq_ok, exists_unit, require_eq_ok]

/-- A lifecycle state that expects the same components. -/
theorem validate_lifecycle {evidence : CandidateCgroupEvidence} {index : ℕ} {boot : Uuid}
    {lifecycle : CgroupLifecycleState} (h : evidence.validate index boot = .ok ())
    (hfloor : ∀ floor, lifecycle.expectedPresentFloor floor =
      evidence.lifecycle.expectedPresentFloor floor) :
    ({ evidence with lifecycle } : CandidateCgroupEvidence).validate index boot = .ok () := by
  rw [validate_group_eq_ok] at h ⊢
  obtain ⟨hheader, floor, hpresent, hexpected⟩ := h
  exact ⟨hheader, floor, hpresent, hexpected.trans (hfloor floor).symm⟩

/-- What a candidate has on record: the parent before the control group, and that before the payload
group. -/
theorem presentFloor_eq_ok {evidence : CandidateCgroupEvidence} {floor : ℕ} :
    evidence.presentFloor = .ok floor ↔
      (evidence.parent.isSome = true ↔ 1 ≤ floor) ∧ (evidence.control.isSome = true ↔ 2 ≤ floor) ∧
        (evidence.payload.isSome = true ↔ 3 ≤ floor) ∧ floor ≤ 3 := by
  unfold CandidateCgroupEvidence.presentFloor
  rcases evidence.parent.isSome <;> rcases evidence.control.isSome <;>
    rcases evidence.payload.isSome <;>
    simp only [Except.ok.injEq, reduceCtorEq, false_iff, true_iff, Bool.false_eq_true] <;> omega

/-- How many components there are once a component is created. -/
def componentFloor : CgroupComponent → ℕ
  | .parent => 1
  | .control => 2
  | .payload => 3

theorem presentFloor_drop {evidence : CandidateCgroupEvidence} {component : CgroupComponent}
    {floor : ℕ} (h : evidence.presentFloor = .ok floor) (hle : floor ≤ componentFloor component) :
    (CandidateCgroupEvidence.record evidence component none).presentFloor =
      .ok (min floor (componentFloor component - 1)) := by
  rw [presentFloor_eq_ok] at h ⊢
  obtain ⟨hparent, hcontrol, hpayload, hfloor⟩ := h
  rcases component with _ | _ | _ <;>
    simp only [CandidateCgroupEvidence.record, componentFloor, Option.isSome_none, Bool.false_eq_true,
      false_iff, hparent, hcontrol, hpayload] at hle ⊢ <;> omega

theorem presentFloor_create {evidence : CandidateCgroupEvidence} {component : CgroupComponent}
    {floor : ℕ} (identity : DurableDirectoryIdentity) (h : evidence.presentFloor = .ok floor)
    (hfloor : floor + 1 = componentFloor component) :
    (CandidateCgroupEvidence.record evidence component (some identity)).presentFloor =
      .ok (componentFloor component) := by
  rw [presentFloor_eq_ok] at h ⊢
  obtain ⟨hparent, hcontrol, hpayload, -⟩ := h
  rcases component with _ | _ | _ <;>
    simp only [CandidateCgroupEvidence.record, componentFloor, Option.isSome_some, true_iff, hparent,
      hcontrol, hpayload] at hfloor ⊢ <;> omega

/-- A component is dropped from the record. -/
theorem validate_drop {evidence : CandidateCgroupEvidence} {index : ℕ} {boot : Uuid}
    {component : CgroupComponent} {lifecycle : CgroupLifecycleState}
    (h : evidence.validate index boot = .ok ())
    (hle : ∀ floor, floor = evidence.lifecycle.expectedPresentFloor floor →
      floor ≤ componentFloor component ∧
        lifecycle.expectedPresentFloor (min floor (componentFloor component - 1)) =
          min floor (componentFloor component - 1)) :
    ({ CandidateCgroupEvidence.record evidence component none with lifecycle } :
      CandidateCgroupEvidence).validate index boot = .ok () := by
  rw [validate_group_eq_ok] at h ⊢
  obtain ⟨⟨hindex, hname, hparent, hcontrol, hpayload⟩, floor, hpresent, hexpected⟩ := h
  obtain ⟨hle, hlifecycle⟩ := hle floor hexpected
  refine ⟨?_, _, presentFloor_drop hpresent hle, hlifecycle.symm⟩
  rcases component with _ | _ | _
  · exact ⟨hindex, hname, by simp [CandidateCgroupEvidence.record], hcontrol, hpayload⟩
  · exact ⟨hindex, hname, hparent, by simp [CandidateCgroupEvidence.record], hpayload⟩
  · exact ⟨hindex, hname, hparent, hcontrol, by simp [CandidateCgroupEvidence.record]⟩

/-- A component that was about to be created is recorded. -/
theorem validate_create {evidence : CandidateCgroupEvidence} {index : ℕ} {boot : Uuid}
    {component : CgroupComponent} {identity : DurableDirectoryIdentity}
    (h : evidence.validate index boot = .ok ())
    (hlifecycle : evidence.lifecycle = .forward component.createPending)
    (hidentity : identity.bootUuid = boot ∧ validDirectoryIdentity identity) :
    ({ CandidateCgroupEvidence.record evidence component (some identity) with
      lifecycle := .forward component.created } : CandidateCgroupEvidence).validate index boot =
        .ok () := by
  rw [validate_group_eq_ok] at h ⊢
  obtain ⟨⟨hindex, hname, hparent, hcontrol, hpayload⟩, floor, hpresent, hexpected⟩ := h
  have hfloor : floor + 1 = componentFloor component := by
    rw [hexpected, hlifecycle]
    cases component <;> rfl
  refine ⟨?_, _, presentFloor_create identity hpresent hfloor, by cases component <;> rfl⟩
  rcases component with _ | _ | _
  · refine ⟨hindex, hname, ?_, hcontrol, hpayload⟩
    simpa [CandidateCgroupEvidence.record] using hidentity
  · refine ⟨hindex, hname, hparent, ?_, hpayload⟩
    simpa [CandidateCgroupEvidence.record] using hidentity
  · refine ⟨hindex, hname, hparent, hcontrol, ?_⟩
    simpa [CandidateCgroupEvidence.record] using hidentity

/-! ### The writes -/

/-- What a recovery writes in one phase: other control groups, another domain and other cleanup facts. -/
def touched (record : TournamentRecord) (groups : Pair CandidateCgroupEvidence)
    (domain : TournamentCgroupEvidence) (candidates : Pair SpeculationCandidateStatus) :
    TournamentRecord :=
  { record with
    cgroups := groups
    tournamentCgroup := domain
    status := { record.status with generation := record.status.generation + 1, candidates } }

variable {record next : TournamentRecord}

/-- The candidates of a status with other cleanup facts, which only grow. -/
def Cleaned (before after : Pair SpeculationCandidateStatus) : Prop :=
  ∀ i, ∃ cleanup, after.get i = { before.get i with cleanup } ∧
    cleanupProgressesTo (before.get i).cleanup cleanup

theorem Cleaned.refl (candidates : Pair SpeculationCandidateStatus) : Cleaned candidates candidates :=
  fun i => ⟨(candidates.get i).cleanup, rfl, id, id, id, id, id⟩

theorem valid_touched {groups : Pair CandidateCgroupEvidence} {domain : TournamentCgroupEvidence}
    {candidates : Pair SpeculationCandidateStatus} (h : record.Valid)
    (hphase : record.status.phase = .rollbackPending)
    (hgroups : ∀ i, (groups.get i).validate i.val record.bootUuid = .ok () ∧
      (groups.get i).deterministicNameUuid = (record.cgroups.get i).deterministicNameUuid)
    (hdomain : domain.validate record.status.tournamentUuid record.bootUuid = .ok ())
    (hcandidates : Cleaned record.status.candidates candidates) :
    (touched record groups domain candidates).Valid := by
  obtain ⟨⟨hroots, -, -, hnames, hstatus, howners, hprior⟩, hcompleted⟩ := h
  obtain ⟨⟨h1, h2, h3, h4, h5, h6, h7⟩, hvalid, hrollback, hselection⟩ := hstatus
  have huuid : ∀ i, (candidates.get i).candidateUuid =
      (record.status.candidates.get i).candidateUuid := by
    intro i
    obtain ⟨cleanup, heq, -⟩ := hcandidates i
    rw [heq]
  refine ⟨⟨hroots, hdomain, fun i => (hgroups i).1, fun i => ?_, ?_, howners, hprior⟩, ?_⟩
  · exact (hgroups i).2.trans ((hnames i).trans (huuid i).symm)
  · refine ⟨⟨h1, h2, Nat.succ_ne_zero _, h4, fun i => ?_, fun i => ?_, ?_⟩, fun i => ?_, hrollback, ?_⟩
    · obtain ⟨cleanup, heq, -⟩ := hcandidates i
      show (candidates.get i).index = _
      rw [heq]
      exact h5 i
    · show Uuid.isNil (candidates.get i).candidateUuid = false
      rw [huuid i]
      exact h6 i
    · show (candidates.get 0).candidateUuid ≠ (candidates.get 1).candidateUuid
      rw [huuid 0, huuid 1]
      exact h7
    · obtain ⟨cleanup, heq, -⟩ := hcandidates i
      show validateCandidateStatus (candidates.get i) = .ok ()
      rw [heq]
      exact hvalid i
    · simp only [SpeculationStatus.SelectionValid, touched, hphase] at hselection ⊢
      exact hselection
  · have hterminal : record.status.phase.isTerminal = false := by
      rw [hphase]
      rfl
    have hnone : ¬ record.terminalCompletedUnixMs.isSome = true := by
      rw [hcompleted, hterminal]
      simp
    refine iff_of_false hnone ?_
    show ¬ (record.status.phase.isTerminal = true ∧ _)
    rw [hterminal]
    simp

theorem accepts_touched {groups : Pair CandidateCgroupEvidence} {domain : TournamentCgroupEvidence}
    {candidates : Pair SpeculationCandidateStatus}
    (hgroups : ∀ i, (record.cgroups.get i).lifecycle.isLegalTransition (groups.get i).lifecycle = true)
    (hidentity : record.tournamentCgroup.immutableIdentityProgressesTo domain)
    (hdomain : record.tournamentCgroup.lifecycle.isLegalTransition domain.lifecycle = true)
    (hcandidates : Cleaned record.status.candidates candidates) :
    Accepts .samePhaseEvidence record (touched record groups domain candidates) := by
  have hprogress : ∀ i, candidateProgressesTo (record.status.candidates.get i) (candidates.get i) := by
    intro i
    obtain ⟨cleanup, heq, hcleanup⟩ := hcandidates i
    rw [heq]
    obtain ⟨h1, h2, h3, h4, h5, h6, h7, h8, h9, h10, h11, h12, -⟩ :=
      candidateProgressesTo_refl (record.status.candidates.get i)
    exact ⟨h1, h2, h3, h4, h5, h6, h7, h8, h9, h10, h11, h12, hcleanup⟩
  refine ⟨⟨rfl, rfl, rfl, hidentity, rfl, rfl, (hprogress 0).1, (hprogress 1).1⟩, ⟨rfl, rfl⟩,
    ⟨le_rfl, fun _ => optionIsRetained_refl _, .inr (optionIsRetained_refl _), List.prefix_rfl,
      ⟨hprogress 0, hprogress 1⟩,
      ⟨managedOwnerProgressesTo_refl _, managedOwnerProgressesTo_refl _⟩⟩, ?_⟩
  intro _
  exact ⟨hdomain, hgroups 0, hgroups 1⟩

/-- A record in a rollback phase is valid in another one, if the phase before a restart allows it. -/
theorem valid_inPhase {phase : SpeculationPhase} (h : record.Valid)
    (hrollback : phase = .rollbackRequired ∨ phase = .rollbackPending)
    (hterminal : record.status.phase.isTerminal = false) :
    (inPhase (withGeneration record (record.status.generation + 1)) phase).Valid := by
  obtain ⟨⟨hroots, hdomain, hgroups, hnames, hstatus, howners, hprior⟩, hcompleted⟩ := h
  obtain ⟨⟨h1, h2, h3, h4, h5, h6, h7⟩, hvalid, -, -⟩ := hstatus
  refine ⟨⟨hroots, hdomain, hgroups, hnames, ?_, howners, ?_⟩, ?_⟩
  · refine ⟨⟨h1, h2, Nat.succ_ne_zero _, h4, h5, h6, h7⟩, hvalid, rfl, ?_⟩
    rcases hrollback with rfl | rfl <;> simp [SpeculationStatus.SelectionValid, inPhase,
      SpeculationPhase.isRollback, SpeculationPhase.isRollbackOnly]
  · intro prior hmem
    obtain ⟨hp1, hp2, -⟩ := hprior prior hmem
    refine ⟨hp1, hp2, ?_⟩
    rcases hrollback with rfl | rfl
    · exact .inl rfl
    · exact .inr (.inl rfl)
  · refine iff_of_false ?_ ?_
    · show ¬ record.terminalCompletedUnixMs.isSome = true
      rw [hcompleted, hterminal]
      simp
    · show ¬ (phase.isTerminal = true ∧ _)
      rcases hrollback with rfl | rfl <;> simp [SpeculationPhase.isTerminal]

theorem accepts_rollbackPending (hphase : record.status.phase = .rollbackRequired) :
    Accepts .livePhaseTransition record
      (inPhase (withGeneration record (record.status.generation + 1)) .rollbackPending) := by
  refine ⟨⟨rfl, rfl, rfl, immutableIdentityProgressesTo_refl _, rfl, rfl, rfl, rfl⟩, ⟨rfl, ?_⟩,
    ⟨le_rfl, ?_, .inl ?_, List.prefix_rfl,
      ⟨candidateProgressesTo_refl _, candidateProgressesTo_refl _⟩,
      ⟨managedOwnerProgressesTo_refl _, managedOwnerProgressesTo_refl _⟩⟩, ?_⟩
  · rw [hphase]
    rfl
  · intro hretain
    simp at hretain
  · simp [inPhase, SpeculationPhase.isRollbackOnly]
  · intro _
    exact ⟨isLegalTransition_domain_self _, isLegalTransition_group_self _,
      isLegalTransition_group_self _⟩

/-- The last record of a recovery. -/
def finished (record : TournamentRecord) (now : ℕ) : TournamentRecord :=
  { inPhase (withGeneration record (record.status.generation + 1)) .rolledBack with
    terminalCompletedUnixMs := some now }

theorem clean_finished {now : ℕ} : (finished record now).Clean ↔ record.Clean :=
  TournamentRecord.clean_congr (fun _ => rfl) rfl fun _ => rfl

theorem valid_finished {now : ℕ} (h : record.Valid) (hclean : record.Clean) :
    (finished record now).Valid := by
  obtain ⟨⟨hroots, hdomain, hgroups, hnames, hstatus, howners, hprior⟩, -⟩ := h
  obtain ⟨⟨h1, h2, h3, h4, h5, h6, h7⟩, hvalid, -, -⟩ := hstatus
  refine ⟨⟨hroots, hdomain, hgroups, hnames, ?_, howners, ?_⟩, ?_⟩
  · exact ⟨⟨h1, h2, Nat.succ_ne_zero _, h4, h5, h6, h7⟩, hvalid, rfl, rfl⟩
  · intro prior hmem
    obtain ⟨hp1, hp2, -⟩ := hprior prior hmem
    exact ⟨hp1, hp2, .inr (.inr rfl)⟩
  · exact iff_of_true rfl ⟨rfl, clean_finished.mpr hclean⟩

theorem accepts_finished {now : ℕ} (h : record.Valid)
    (hphase : record.status.phase = .rollbackPending) :
    Accepts .livePhaseTransition record (finished record now) := by
  have hselected : record.status.selectedIndex = none := by
    have hselection := h.core.status.selection
    simpa [SpeculationStatus.SelectionValid, hphase, SpeculationPhase.isRollback,
      SpeculationPhase.isRollbackOnly] using hselection
  refine ⟨⟨rfl, rfl, rfl, immutableIdentityProgressesTo_refl _, rfl, rfl, rfl, rfl⟩, ⟨rfl, ?_⟩,
    ⟨le_rfl, ?_, .inr ?_, List.prefix_rfl,
      ⟨candidateProgressesTo_refl _, candidateProgressesTo_refl _⟩,
      ⟨managedOwnerProgressesTo_refl _, managedOwnerProgressesTo_refl _⟩⟩, ?_⟩
  · rw [hphase]
    rfl
  · intro hretain
    simp at hretain
  · rw [hselected]
    intro value hvalue
    simp at hvalue
  · intro _
    exact ⟨isLegalTransition_domain_self _, isLegalTransition_group_self _,
      isLegalTransition_group_self _⟩

/-! ### The store of a recovery -/

variable {W : Type} {env : Environment W} {slot : ℕ} {machine : Machine W}

/-- The store has a record in a slot. -/
structure At (slot : ℕ) (record : TournamentRecord) (machine : Machine W) : Prop where
  coherent : Coherent machine.store
  slot : ∃ identity, machine.store.slots[slot]? = some (.valid record identity)

theorem At.durable (h : At slot record machine) : durable machine.store slot = some record := by
  obtain ⟨identity, hslot⟩ := h.slot
  exact h.coherent.durable_of_valid hslot

theorem At.valid (h : At slot record machine) : record.Valid :=
  h.coherent.checked _ _ h.durable

/-- The record of a slot, with its key. -/
def stored (slot : ℕ) (record : TournamentRecord) : StoredTournamentUpdate :=
  ⟨keyFor slot record, record⟩

/-- The machine after a write. -/
def installed (machine : Machine W) (slot : ℕ) (identity : FileIdentity) (next : TournamentRecord) :
    Machine W :=
  { machine with
    store := (machine.store.install slot identity next).setSlot slot (.valid next identity) }

theorem At.installed (h : At slot record machine) (hvalid : next.Valid) (identity : FileIdentity) :
    At slot next (installed machine slot identity next) := by
  obtain ⟨identity', hslot⟩ := h.slot
  refine ⟨h.coherent.installed (h.coherent.lt_of_slot hslot) hvalid (.inr rfl), identity, ?_⟩
  show (machine.store.slots.set slot (.valid next identity))[slot]? = _
  rw [List.getElem?_set_self (List.getElem?_eq_some_iff.mp hslot).1]

/-- An operation of the store that succeeds, as a step. -/
theorem onStore_finishes {α : Type} {m : Op α} {a : α} {store' : TournamentStore}
    {Q : α → Machine W → Prop} (hexec : exec m machine.store = (.ok a, store'))
    (hQ : Q a { machine with store := store' }) : Finishes 1 (Recovery.onStore m) machine Q := by
  have hzoom : exec (zoom Machine.store (fun store machine => { machine with store }) mapStoreError m)
      machine = (.ok a, { machine with store := store' }) := by
    rw [exec_zoom, hexec]
    rfl
  exact Finishes.atomically hzoom hQ

/-- A write that the store takes. -/
theorem persist_finishes {kind : TournamentWriteKind} (h : At slot record machine)
    (hbound : record.status.generation + 1 < 2 ^ 64)
    (hgeneration : next.status.generation = record.status.generation + 1)
    (hvalid : next.Valid) (haccepts : Accepts kind record next) :
    Finishes 1 (persist env (stored slot record) next kind) machine fun update machine' =>
      update = stored slot next ∧ At slot next machine' ∧ machine'.world = machine.world := by
  obtain ⟨identity, hslot⟩ := h.slot
  have hkey : keyMatches (keyFor slot record) record.status.generation record next :=
    ⟨rfl, rfl, rfl, hbound, hgeneration⟩
  have hwrite : exec (write (.done (env.identity next)) (stored slot record).key
      (stored slot record).key.generation next kind) machine.store = _ :=
    exec_write (env.identity next) hslot (h.coherent.valid _ _ _ hslot) hvalid hkey haccepts
  unfold persist
  exact onStore_finishes hwrite ⟨rfl, h.installed hvalid (env.identity next), rfl⟩

theorem increment_eq_ok {generation : ℕ} (h : generation + 1 < 2 ^ 64) :
    increment generation = .ok (generation + 1) := by
  simp only [increment, bind_eq_ok, exists_unit, require_eq_ok, pure_eq_ok]
  exact ⟨h, trivial⟩

theorem mutateSame_finishes {mutate : TournamentRecord → TournamentRecord}
    (h : At slot record machine) (hbound : record.status.generation + 1 < 2 ^ 64)
    (hgeneration : (mutate (withGeneration record (record.status.generation + 1))).status.generation =
      record.status.generation + 1)
    (hvalid : (mutate (withGeneration record (record.status.generation + 1))).Valid)
    (haccepts : Accepts .samePhaseEvidence record
      (mutate (withGeneration record (record.status.generation + 1)))) :
    Finishes 1 (mutateSame env (stored slot record) mutate) machine fun update machine' =>
      update = stored slot (mutate (withGeneration record (record.status.generation + 1))) ∧
        At slot (mutate (withGeneration record (record.status.generation + 1))) machine' ∧
        machine'.world = machine.world := by
  unfold mutateSame
  refine Finishes.check_bind (increment_eq_ok hbound) ?_
  exact persist_finishes h hbound hgeneration hvalid haccepts

/-! ### One candidate -/

/-- The groups of a candidate changed, and those of the other one not. -/
def Regrouped (i : Fin 2) (evidence : CandidateCgroupEvidence) (before after : Pair CandidateCgroupEvidence) :
    Prop :=
  ∀ j, after.get j = if j = i then evidence else before.get j

theorem regrouped_setLifecycle (i : Fin 2) (lifecycle : CgroupLifecycleState)
    (record : TournamentRecord) :
    Regrouped i { record.cgroups.get i with lifecycle } record.cgroups
      (setLifecycle i lifecycle record).cgroups := by
  intro j
  simp only [setLifecycle, Pair.get_modify]
  split_ifs with hj
  · rw [hj]
  · rfl

theorem regrouped_setComponent (i : Fin 2) (component : CgroupComponent)
    (identity : Option DurableDirectoryIdentity) (lifecycle : CgroupLifecycleState)
    (record : TournamentRecord) :
    Regrouped i { CandidateCgroupEvidence.record (record.cgroups.get i) component identity with
      lifecycle } record.cgroups (setComponent i component identity lifecycle record).cgroups := by
  intro j
  simp only [setComponent, setLifecycle, Pair.get_modify]
  split_ifs with hj
  · rw [hj]
  · rfl

/-- How many rounds the loop of `close_same_boot` needs for a candidate. -/
def closeRank : CgroupLifecycleState → ℕ
  | .forward .planned => 1
  | .forward .parentCreatePending => 10
  | .forward .controlCreatePending => 10
  | .forward .payloadCreatePending => 10
  | .forward _ => 9
  | .cleanupPending _ => 8
  | .parentKillPending _ => 7
  | .parentEmpty _ => 6
  | .payloadRemovePending _ => 5
  | .payloadRemoved _ => 4
  | .controlRemovePending _ => 3
  | .controlRemoved _ => 2
  | .parentRemovePending _ => 1
  | .removed => 0
  | .rollbackRequired => 0

/-- A record one round further: the lifecycle of a candidate moved on, and nothing else but the
generation. -/
structure Advanced (i : Fin 2) (record next : TournamentRecord) : Prop where
  phase : next.status.phase = .rollbackPending
  generation : next.status.generation = record.status.generation + 1
  rank : closeRank (next.cgroups.get i).lifecycle + 1 = closeRank (record.cgroups.get i).lifecycle
  sound : (next.cgroups.get i).lifecycle ≠ .rollbackRequired
  other : ∀ j, j ≠ i → next.cgroups.get j = record.cgroups.get j
  domain : next.tournamentCgroup = record.tournamentCgroup
  candidates : next.status.candidates = record.status.candidates

/-- One write of a round. -/
theorem regroup_finishes {i : Fin 2} {evidence : CandidateCgroupEvidence}
    {mutate : TournamentRecord → TournamentRecord} {groups : Pair CandidateCgroupEvidence}
    (h : At slot record machine) (hphase : record.status.phase = .rollbackPending)
    (hbound : record.status.generation + 1 < 2 ^ 64)
    (hmutate : mutate (withGeneration record (record.status.generation + 1)) =
      touched record groups record.tournamentCgroup record.status.candidates)
    (hgroups : Regrouped i evidence record.cgroups groups)
    (hvalid : evidence.validate i.val record.bootUuid = .ok ())
    (hname : evidence.deterministicNameUuid = (record.cgroups.get i).deterministicNameUuid)
    (hlegal : (record.cgroups.get i).lifecycle.isLegalTransition evidence.lifecycle = true)
    (hsound : evidence.lifecycle ≠ .rollbackRequired)
    (hrank : closeRank evidence.lifecycle + 1 = closeRank (record.cgroups.get i).lifecycle) :
    Finishes 1 (mutateSame env (stored slot record) mutate) machine fun update machine' =>
      update = stored slot (mutate (withGeneration record (record.status.generation + 1))) ∧
        At slot (mutate (withGeneration record (record.status.generation + 1))) machine' ∧
        machine'.world = machine.world ∧
        Advanced i record (mutate (withGeneration record (record.status.generation + 1))) := by
  have hrecord := h.valid
  have hvalid' : (touched record groups record.tournamentCgroup record.status.candidates).Valid := by
    refine valid_touched hrecord hphase ?_ hrecord.core.domain (Cleaned.refl _)
    intro j
    rw [hgroups j]
    split_ifs with hj
    · rw [hj]
      exact ⟨hvalid, hname⟩
    · exact ⟨hrecord.core.groups j, rfl⟩
  have haccepts : Accepts .samePhaseEvidence record
      (touched record groups record.tournamentCgroup record.status.candidates) := by
    refine accepts_touched ?_ (immutableIdentityProgressesTo_refl _) (isLegalTransition_domain_self _)
      (Cleaned.refl _)
    intro j
    rw [hgroups j]
    split_ifs with hj
    · rw [hj]
      exact hlegal
    · exact isLegalTransition_group_self _
  have hadvanced : Advanced i record
      (touched record groups record.tournamentCgroup record.status.candidates) := by
    have hi : groups.get i = evidence := by
      rw [hgroups i, if_pos rfl]
    refine ⟨hphase, rfl, ?_, ?_, ?_, rfl, rfl⟩
    · show closeRank (groups.get i).lifecycle + 1 = _
      rw [hi]
      exact hrank
    · show (groups.get i).lifecycle ≠ _
      rw [hi]
      exact hsound
    · intro j hj
      show groups.get j = _
      rw [hgroups j, if_neg hj]
  have hwrite := @mutateSame_finishes _ _ env _ _ mutate h hbound (by rw [hmutate]; rfl)
    (by rw [hmutate]; exact hvalid') (by rw [hmutate]; exact haccepts)
  refine hwrite.imp le_rfl fun update machine' hQ => ⟨hQ.1, hQ.2.1, hQ.2.2, ?_⟩
  rw [hmutate]
  exact hadvanced

/-! ### Effects -/

/-- An effect that is completed. -/
def Completes (env : Environment W) (record : TournamentRecord) (action : RecoveryAction)
    (world world' : W) : Prop :=
  ∃ evidence, env.reconcile record action world = (.ok evidence, world') ∧
    requireRecoveryComplete evidence = .ok ()

/-- The next lifecycle state of a candidate for which nothing has to be done. -/
def plainNext : CgroupLifecycleState → Option CgroupLifecycleState
  | .forward .planned => some .removed
  | .forward .parentCreatePending => none
  | .forward .controlCreatePending => none
  | .forward .payloadCreatePending => none
  | .forward origin => some (.cleanupPending origin)
  | .cleanupPending origin => some (.parentKillPending origin)
  | .parentEmpty origin => some (.payloadRemovePending origin)
  | .payloadRemoved origin => some (.controlRemovePending origin)
  | .controlRemoved origin => some (.parentRemovePending origin)
  | _ => none

/-- The effects of a recovery succeed as long as `J` holds of the record and the world, and every step
of the recovery keeps it. -/
structure Effective (env : Environment W) (J : TournamentRecord → W → Prop) : Prop where
  congr : ∀ {r r' : TournamentRecord} {w : W}, r'.bootUuid = r.bootUuid →
    r'.status.tournamentUuid = r.status.tournamentUuid → r'.managedOwners = r.managedOwners →
    r'.cgroups = r.cgroups → r'.tournamentCgroup = r.tournamentCgroup → J r w → J r' w
  owner : ∀ {r : TournamentRecord} {w : W} {i : Fin 2} {owner : ManagedOwnerEvidence}, r.Valid →
    J r w → r.managedOwners.get i = some owner →
    ∃ w', Completes env r (.reconcileManagedOwner i owner.role) w w' ∧ J r w'
  plain : ∀ {r : TournamentRecord} {w : W} {i : Fin 2} {lifecycle : CgroupLifecycleState}, r.Valid →
    J r w → plainNext (r.cgroups.get i).lifecycle = some lifecycle → J (setLifecycle i lifecycle r) w
  create : ∀ {r : TournamentRecord} {w : W} {i : Fin 2} {component : CgroupComponent}, r.Valid →
    J r w → (∀ j, j < i → (r.cgroups.get j).lifecycle = .removed) →
    (r.cgroups.get i).lifecycle = .forward component.createPending →
    ∃ identity adopted w', env.reconcile r (.reconcileCandidateCreate i component) w =
        (.ok (.candidateCreateReconciled i component identity adopted), w') ∧
      (identity.bootUuid = r.bootUuid ∧ validDirectoryIdentity identity) ∧
      J (setComponent i component (some identity) (.forward component.created) r) w'
  kill : ∀ {r : TournamentRecord} {w : W} {i : Fin 2} {origin : CgroupForwardState}, r.Valid →
    J r w → (r.cgroups.get i).lifecycle = .parentKillPending origin →
    ∃ w' w'', Completes env r (.killParent i) w w' ∧ Completes env r (.proveParentEmpty i) w' w'' ∧
      J (setLifecycle i (.parentEmpty origin) r) w''
  removePayload : ∀ {r : TournamentRecord} {w : W} {i : Fin 2} {origin : CgroupForwardState}, r.Valid →
    J r w → (r.cgroups.get i).lifecycle = .payloadRemovePending origin →
    ∃ w', Completes env r (.removePayload i) w w' ∧
      J (setComponent i .payload none (.payloadRemoved origin) r) w'
  removeControl : ∀ {r : TournamentRecord} {w : W} {i : Fin 2} {origin : CgroupForwardState}, r.Valid →
    J r w → (r.cgroups.get i).lifecycle = .controlRemovePending origin →
    ∃ w', Completes env r (.removeControl i) w w' ∧
      J (setComponent i .control none (.controlRemoved origin) r) w'
  removeParent : ∀ {r : TournamentRecord} {w : W} {i : Fin 2} {origin : CgroupForwardState}, r.Valid →
    J r w → (r.cgroups.get i).lifecycle = .parentRemovePending origin →
    ∃ w', Completes env r (.removeParent i) w w' ∧ J (setComponent i .parent none .removed r) w'
  createDomain : ∀ {r : TournamentRecord} {w : W}, r.Valid → J r w →
    (∀ i, (r.cgroups.get i).lifecycle = .removed) → r.tournamentCgroup.lifecycle = .createPending →
    ∃ identity adopted w', env.reconcile r .reconcileTournamentCreate w =
        (.ok (.tournamentCreateReconciled identity adopted), w') ∧
      (identity.bootUuid = r.bootUuid ∧ validDirectoryIdentity identity) ∧
      J (setDomain .created (some identity) r) w'
  planDomain : ∀ {r : TournamentRecord} {w : W}, r.Valid → J r w →
    (∀ i, (r.cgroups.get i).lifecycle = .removed) →
    (r.tournamentCgroup.lifecycle = .planned → J (setDomain .removed r.tournamentCgroup.domain r) w) ∧
      (r.tournamentCgroup.lifecycle = .created →
        J (setDomain .removePending r.tournamentCgroup.domain r) w)
  removeDomain : ∀ {r : TournamentRecord} {w : W}, r.Valid → J r w →
    (∀ i, (r.cgroups.get i).lifecycle = .removed) → r.tournamentCgroup.lifecycle = .removePending →
    ∃ w' w'', Completes env r .proveTournamentEmpty w w' ∧
      Completes env r .removeTournamentDomain w' w'' ∧ J (setDomain .removed none r) w''

variable {J : TournamentRecord → W → Prop}

theorem reconcile_finishes {action : RecoveryAction} {evidence : RecoveryEvidence} {world' : W}
    (h : At slot record machine)
    (hreconcile : env.reconcile record action machine.world = (.ok evidence, world')) :
    Finishes 1 (reconcileFromRecord env record action) machine fun evidence' machine' =>
      evidence' = evidence ∧ At slot record machine' ∧ machine'.world = world' := by
  unfold reconcileFromRecord
  refine Finishes.atomically (?_ : exec _ machine = (.ok evidence, { machine with world := world' }))
    ⟨rfl, ⟨h.coherent, h.slot⟩, rfl⟩
  rw [exec_bind_ok (exec_get machine)]
  simp only [hreconcile]
  rfl

theorem complete_finishes {action : RecoveryAction} {world world' : W} (h : At slot record machine)
    (hworld : machine.world = world) (hcompletes : Completes env record action world world') :
    Finishes 1 (complete env record action) machine fun _ machine' =>
      At slot record machine' ∧ machine'.world = world' := by
  obtain ⟨evidence, hreconcile, hevidence⟩ := hcompletes
  rw [← hworld] at hreconcile
  unfold complete
  refine ((reconcile_finishes h hreconcile).bind (k := 0) ?_).imp (by omega) fun _ _ hQ => hQ
  rintro evidence' machine' ⟨rfl, hat, hworld'⟩
  exact Finishes.check hevidence ⟨hat, hworld'⟩

/-! ### One round -/

/-- The result of a round: the candidate is one lifecycle state further, in the store as well. -/
def Stepped (J : TournamentRecord → W → Prop) (slot : ℕ) (i : Fin 2) (record : TournamentRecord)
    (update : Option StoredTournamentUpdate) (machine : Machine W) : Prop :=
  ∃ next, update = some (stored slot next) ∧ At slot next machine ∧ J next machine.world ∧
    Advanced i record next

variable {i : Fin 2}

theorem setLifecycle_finishes {lifecycle : CgroupLifecycleState} (henv : Effective env J)
    (h : At slot record machine) (hphase : record.status.phase = .rollbackPending)
    (hbound : record.status.generation + 1 < 2 ^ 64)
    (hj : J (setLifecycle i lifecycle record) machine.world)
    (hfloor : ∀ floor, lifecycle.expectedPresentFloor floor =
      (record.cgroups.get i).lifecycle.expectedPresentFloor floor)
    (hlegal : (record.cgroups.get i).lifecycle.isLegalTransition lifecycle = true)
    (hsound : lifecycle ≠ .rollbackRequired)
    (hrank : closeRank lifecycle + 1 = closeRank (record.cgroups.get i).lifecycle) :
    Finishes 1 (some <$> mutateSame env (stored slot record) (setLifecycle i lifecycle)) machine
      (Stepped J slot i record) := by
  have hvalid := validate_lifecycle (h.valid.core.groups i) hfloor
  have hwrite := @regroup_finishes _ _ env _ _ i _ (setLifecycle i lifecycle) _ h hphase hbound rfl
    (regrouped_setLifecycle i lifecycle record) hvalid rfl hlegal hsound hrank
  refine hwrite.map fun update machine' hQ => ?_
  obtain ⟨rfl, hat, hworld, hadvanced⟩ := hQ
  refine ⟨_, rfl, hat, ?_, hadvanced⟩
  rw [hworld]
  exact henv.congr (r := setLifecycle i lifecycle record) rfl rfl rfl rfl rfl hj

theorem setComponent_finishes {component : CgroupComponent}
    {identity : Option DurableDirectoryIdentity} {lifecycle : CgroupLifecycleState}
    (henv : Effective env J) (h : At slot record machine)
    (hphase : record.status.phase = .rollbackPending)
    (hbound : record.status.generation + 1 < 2 ^ 64)
    (hj : J (setComponent i component identity lifecycle record) machine.world)
    (hvalid : ({ CandidateCgroupEvidence.record (record.cgroups.get i) component identity with
      lifecycle } : CandidateCgroupEvidence).validate i.val record.bootUuid = .ok ())
    (hlegal : (record.cgroups.get i).lifecycle.isLegalTransition lifecycle = true)
    (hsound : lifecycle ≠ .rollbackRequired)
    (hrank : closeRank lifecycle + 1 = closeRank (record.cgroups.get i).lifecycle) :
    Finishes 1 (mutateSame env (stored slot record) (setComponent i component identity lifecycle))
      machine fun update machine' => Stepped J slot i record (some update) machine' := by
  have hname : (CandidateCgroupEvidence.record (record.cgroups.get i) component
      identity).deterministicNameUuid = (record.cgroups.get i).deterministicNameUuid := by
    cases component <;> rfl
  have hwrite := @regroup_finishes _ _ env _ _ i _ (setComponent i component identity lifecycle) _ h
    hphase hbound rfl (regrouped_setComponent i component identity lifecycle record) hvalid hname hlegal
    hsound hrank
  refine hwrite.imp le_rfl fun update machine' hQ => ?_
  obtain ⟨rfl, hat, hworld, hadvanced⟩ := hQ
  refine ⟨_, rfl, hat, ?_, hadvanced⟩
  rw [hworld]
  exact henv.congr (r := setComponent i component identity lifecycle record) rfl rfl rfl rfl rfl hj

/-- A component that was about to be created. -/
theorem createComponent_finishes {component : CgroupComponent} (henv : Effective env J)
    (h : At slot record machine) (hphase : record.status.phase = .rollbackPending)
    (hbound : record.status.generation + 1 < 2 ^ 64) (hj : J record machine.world)
    (hdone : ∀ j, j < i → (record.cgroups.get j).lifecycle = .removed)
    (hlifecycle : (record.cgroups.get i).lifecycle = .forward component.createPending) :
    Finishes 2 (some <$> createComponent env i (stored slot record) component) machine
      (Stepped J slot i record) := by
  obtain ⟨identity, adopted, world', hreconcile, hidentity, hj'⟩ := henv.create h.valid hj hdone hlifecycle
  have hvalid := validate_create (h.valid.core.groups i) hlifecycle hidentity
  refine Finishes.map ?_ fun update machine' hQ => hQ
  unfold createComponent
  refine (reconcile_finishes h hreconcile).bind (k := 1) ?_
  rintro _ machine' ⟨rfl, hat, rfl⟩
  refine setComponent_finishes henv hat hphase hbound hj' hvalid ?_ (by simp) ?_
  · rw [hlifecycle]
    cases component <;> rfl
  · rw [hlifecycle]
    cases component <;> rfl

theorem floor_le_three (origin : CgroupForwardState) : origin.floor ≤ 3 := by
  cases origin <;> decide

/-- A component that was about to be removed. -/
theorem removeComponent_finishes {component : CgroupComponent} {action : RecoveryAction} {world' : W}
    {lifecycle : CgroupLifecycleState} {origin : CgroupForwardState} (henv : Effective env J)
    (h : At slot record machine)
    (hphase : record.status.phase = .rollbackPending)
    (hbound : record.status.generation + 1 < 2 ^ 64)
    (hcompletes : Completes env record action machine.world world')
    (hj : J (setComponent i component none lifecycle record) world')
    (hfloor : ∀ floor, (record.cgroups.get i).lifecycle.expectedPresentFloor floor =
      min origin.floor (componentFloor component))
    (hdropped : ∀ floor, lifecycle.expectedPresentFloor floor =
      min origin.floor (componentFloor component - 1))
    (hlegal : (record.cgroups.get i).lifecycle.isLegalTransition lifecycle = true)
    (hsound : lifecycle ≠ .rollbackRequired)
    (hrank : closeRank lifecycle + 1 = closeRank (record.cgroups.get i).lifecycle) :
    Finishes 2 (do
      complete env record action
      some <$> mutateSame env (stored slot record) (setComponent i component none lifecycle)) machine
      (Stepped J slot i record) := by
  have hvalid := @validate_drop _ _ _ component lifecycle (h.valid.core.groups i) (by
    intro floor hexpected
    rw [hfloor floor] at hexpected
    rw [hdropped]
    omega)
  refine (complete_finishes h rfl hcompletes).bind (k := 1) ?_
  rintro _ machine' ⟨hat, rfl⟩
  exact (setComponent_finishes henv hat hphase hbound hj hvalid hlegal hsound hrank).map
    fun update machine' hQ => hQ

theorem plainNext_spec {state next : CgroupLifecycleState} (h : plainNext state = some next) :
    (∀ floor, next.expectedPresentFloor floor = state.expectedPresentFloor floor) ∧
      state.isLegalTransition next = true ∧ next ≠ .rollbackRequired ∧
      closeRank next + 1 = closeRank state := by
  rcases state with origin | origin | origin | origin | origin | origin | origin | origin | origin | _ | _
  all_goals try (rcases origin)
  all_goals
    simp only [plainNext, Option.some.injEq, reduceCtorEq] at h
  all_goals
    subst h
    exact ⟨fun _ => rfl, rfl, by simp, rfl⟩

theorem closeStep_plain {update : StoredTournamentUpdate} {next : CgroupLifecycleState}
    (h : plainNext (update.record.cgroups.get i).lifecycle = some next) :
    closeStep env i update = some <$> mutateSame env update (setLifecycle i next) := by
  unfold closeStep
  revert h
  rcases (update.record.cgroups.get i).lifecycle with
    origin | origin | origin | origin | origin | origin | origin | origin | origin | _ | _
  all_goals try (rcases origin)
  all_goals
    intro h
    simp only [plainNext, Option.some.injEq, reduceCtorEq] at h
  all_goals
    subst h
    rfl

/-- One round of the loop of `close_same_boot`. -/
theorem closeStep_finishes (henv : Effective env J) (h : At slot record machine)
    (hphase : record.status.phase = .rollbackPending)
    (hbound : record.status.generation + 1 < 2 ^ 64) (hj : J record machine.world)
    (hdone : ∀ j, j < i → (record.cgroups.get j).lifecycle = .removed)
    (hrank : 0 < closeRank (record.cgroups.get i).lifecycle) :
    Finishes 3 (closeStep env i (stored slot record)) machine (Stepped J slot i record) := by
  have hplain : ∀ next, plainNext (record.cgroups.get i).lifecycle = some next →
      Finishes 3 (closeStep env i (stored slot record)) machine (Stepped J slot i record) := by
    intro next hnext
    obtain ⟨hfloor, hlegal, hsound, hrank'⟩ := plainNext_spec hnext
    rw [closeStep_plain hnext]
    have hwrite := setLifecycle_finishes henv h hphase hbound (henv.plain h.valid hj hnext) hfloor hlegal
      hsound hrank'
    exact hwrite.imp (by omega) fun _ _ hQ => hQ
  have hcreate : ∀ component : CgroupComponent,
      (record.cgroups.get i).lifecycle = .forward component.createPending →
      Finishes 3 (some <$> createComponent env i (stored slot record) component) machine
        (Stepped J slot i record) := by
    intro component hlifecycle
    exact (createComponent_finishes henv h hphase hbound hj hdone hlifecycle).imp (by omega)
      fun _ _ hQ => hQ
  rcases hlifecycle : (record.cgroups.get i).lifecycle with
    origin | origin | origin | origin | origin | origin | origin | origin | origin | _ | _
  · rcases hnext : plainNext (.forward origin) with _ | next
    · -- only a component that is about to be created takes more than a write
      unfold closeStep
      rcases origin <;> simp only [plainNext, reduceCtorEq] at hnext
      · simp only [stored, hlifecycle]
        exact hcreate .parent hlifecycle
      · simp only [stored, hlifecycle]
        exact hcreate .control hlifecycle
      · simp only [stored, hlifecycle]
        exact hcreate .payload hlifecycle
    · exact hplain next (hlifecycle ▸ hnext)
  · exact hplain (.parentKillPending origin) (by rw [hlifecycle]; rfl)
  · obtain ⟨world', world'', hkill, hempty, hj'⟩ := henv.kill h.valid hj hlifecycle
    unfold closeStep
    simp only [stored, hlifecycle]
    refine (complete_finishes h rfl hkill).bind (k := 2) ?_
    rintro _ machine' ⟨hat, rfl⟩
    refine (complete_finishes hat rfl hempty).bind (k := 1) ?_
    rintro _ machine'' ⟨hat, rfl⟩
    refine setLifecycle_finishes henv hat hphase hbound hj' ?_ ?_ (by simp) ?_ <;> rw [hlifecycle]
    · intro floor
      rfl
    · simp [CgroupLifecycleState.isLegalTransition]
    · rfl
  · exact hplain (.payloadRemovePending origin) (by rw [hlifecycle]; rfl)
  · obtain ⟨world', hcompletes, hj'⟩ := henv.removePayload h.valid hj hlifecycle
    unfold closeStep
    simp only [stored, hlifecycle]
    have hfinishes := @removeComponent_finishes _ _ _ _ _ _ i .payload _ _ _ origin henv h hphase hbound
      hcompletes hj' (by rw [hlifecycle]; exact fun _ => (min_eq_left (floor_le_three origin)).symm) (fun _ => rfl)
      (by rw [hlifecycle]; simp [CgroupLifecycleState.isLegalTransition]) (by simp)
      (by rw [hlifecycle]; rfl)
    exact hfinishes.imp (by omega) fun _ _ hQ => hQ
  · exact hplain (.controlRemovePending origin) (by rw [hlifecycle]; rfl)
  · obtain ⟨world', hcompletes, hj'⟩ := henv.removeControl h.valid hj hlifecycle
    unfold closeStep
    simp only [stored, hlifecycle]
    have hfinishes := @removeComponent_finishes _ _ _ _ _ _ i .control _ _ _ origin henv h hphase hbound
      hcompletes hj' (by rw [hlifecycle]; exact fun _ => rfl) (fun _ => rfl)
      (by rw [hlifecycle]; simp [CgroupLifecycleState.isLegalTransition]) (by simp)
      (by rw [hlifecycle]; rfl)
    exact hfinishes.imp (by omega) fun _ _ hQ => hQ
  · exact hplain (.parentRemovePending origin) (by rw [hlifecycle]; rfl)
  · obtain ⟨world', hcompletes, hj'⟩ := henv.removeParent h.valid hj hlifecycle
    unfold closeStep
    simp only [stored, hlifecycle]
    have hfinishes := @removeComponent_finishes _ _ _ _ _ _ i .parent _ _ _ origin henv h hphase hbound
      hcompletes hj' (by rw [hlifecycle]; exact fun _ => rfl) (fun _ => (Nat.min_zero _).symm)
      (by rw [hlifecycle]; simp [CgroupLifecycleState.isLegalTransition]) (by simp)
      (by rw [hlifecycle]; rfl)
    exact hfinishes.imp (by omega) fun _ _ hQ => hQ
  · rw [hlifecycle] at hrank
    exact absurd hrank (lt_irrefl 0)
  · rw [hlifecycle] at hrank
    exact absurd hrank (lt_irrefl 0)

/-! ### All the rounds -/

theorem closeRank_le (state : CgroupLifecycleState) : closeRank state ≤ 10 := by
  rcases state with origin | origin | origin | origin | origin | origin | origin | origin | origin | _ | _
  all_goals try (rcases origin)
  all_goals decide

theorem eq_removed_of_closeRank {state : CgroupLifecycleState} (h : closeRank state = 0)
    (hsound : state ≠ .rollbackRequired) : state = .removed := by
  rcases state with origin | origin | origin | origin | origin | origin | origin | origin | origin | _ | _
  all_goals try (rcases origin)
  all_goals simp_all [closeRank]

/-- What the rounds of a candidate change: its control groups are gone, and `rounds` writes were made. -/
structure Looped (i : Fin 2) (rounds : ℕ) (record next : TournamentRecord) : Prop where
  phase : next.status.phase = .rollbackPending
  generation : next.status.generation = record.status.generation + rounds
  removed : (next.cgroups.get i).lifecycle = .removed
  other : ∀ j, j ≠ i → next.cgroups.get j = record.cgroups.get j
  domain : next.tournamentCgroup = record.tournamentCgroup
  candidates : next.status.candidates = record.status.candidates

theorem Advanced.looped {rounds : ℕ} {last : TournamentRecord} (h : Advanced i record next)
    (h' : Looped i rounds next last) : Looped i (rounds + 1) record last where
  phase := h'.phase
  generation := by
    have hnext := h.generation
    have hlast := h'.generation
    omega
  removed := h'.removed
  other j hj := (h'.other j hj).trans (h.other j hj)
  domain := h'.domain.trans h.domain
  candidates := h'.candidates.trans h.candidates

/-- The loop of `close_same_boot`, by induction on the rounds that it may take: each of them lowers the
rank of the lifecycle state. -/
theorem closeLoop_finishes (henv : Effective env J) (fuel : ℕ) : ∀ (record : TournamentRecord)
    (machine : Machine W), At slot record machine → record.status.phase = .rollbackPending →
    J record machine.world → (∀ j, j < i → (record.cgroups.get j).lifecycle = .removed) →
    (record.cgroups.get i).lifecycle ≠ .rollbackRequired →
    closeRank (record.cgroups.get i).lifecycle < fuel →
    record.status.generation + closeRank (record.cgroups.get i).lifecycle < 2 ^ 64 →
    Finishes (3 * closeRank (record.cgroups.get i).lifecycle) (closeLoop env i fuel (stored slot record))
      machine fun update machine' => ∃ last, update = stored slot last ∧ At slot last machine' ∧
        J last machine'.world ∧ Looped i (closeRank (record.cgroups.get i).lifecycle) record last := by
  induction fuel with
  | zero => exact fun record machine _ _ _ _ _ hfuel => absurd hfuel (Nat.not_lt_zero _)
  | succ fuel ih =>
    intro record machine h hphase hj hdone hsound hfuel hbound
    rcases Nat.eq_zero_or_pos (closeRank (record.cgroups.get i).lifecycle) with hrank | hrank
    · -- nothing is left to be done
      have hremoved := eq_removed_of_closeRank hrank hsound
      have hstep : closeStep env i (stored slot record) = pure none := by
        unfold closeStep
        simp only [stored, hremoved]
      rw [hrank]
      show Finishes 0 (closeStep env i (stored slot record) >>= _) machine _
      rw [hstep, pure_bind]
      exact Finishes.pure ⟨record, rfl, h, hj, hphase, rfl, hremoved, fun _ _ => rfl, rfl, rfl⟩
    · have hstep := closeStep_finishes henv h hphase (by omega) hj hdone hrank
      refine Finishes.imp (hstep.bind (k := 3 * (closeRank (record.cgroups.get i).lifecycle - 1)) ?_)
        (by omega) fun _ _ hQ => hQ
      rintro _ machine' ⟨next, rfl, hat, hj', hadvanced⟩
      have hrank' := hadvanced.rank
      have hgeneration := hadvanced.generation
      have hdone' : ∀ j, j < i → (next.cgroups.get j).lifecycle = .removed := by
        intro j hlt
        rw [hadvanced.other j (ne_of_lt hlt)]
        exact hdone j hlt
      have hloop := ih next machine' hat hadvanced.phase hj' hdone' hadvanced.sound (by omega) (by omega)
      refine hloop.imp (by omega) ?_
      rintro _ machine'' ⟨last, rfl, hat', hj'', hlooped⟩
      refine ⟨last, rfl, hat', hj'', ?_⟩
      rw [← hrank']
      exact hadvanced.looped hlooped

/-! ### A whole candidate -/

/-- What `close_same_boot` does to a record for one candidate. -/
structure CandidateClosed (i : Fin 2) (record next : TournamentRecord) : Prop where
  phase : next.status.phase = .rollbackPending
  generation : next.status.generation ≤ record.status.generation + 11
  removed : (next.cgroups.get i).lifecycle = .removed
  cleanup : (next.status.candidates.get i).cleanup = fullyClosedCleanup
  other : ∀ j, j ≠ i → next.cgroups.get j = record.cgroups.get j
  otherStatus : ∀ j, j ≠ i → next.status.candidates.get j = record.status.candidates.get j
  domain : next.tournamentCgroup = record.tournamentCgroup

theorem cleaned_setClosed (i : Fin 2) (record : TournamentRecord) :
    Cleaned record.status.candidates (setClosed i record).status.candidates := by
  intro j
  simp only [setClosed, Pair.get_modify]
  split_ifs with hj
  · exact ⟨fullyClosedCleanup, rfl, fun _ => rfl, fun _ => rfl, fun _ => rfl, fun _ => rfl, fun _ => rfl⟩
  · exact Cleaned.refl record.status.candidates j

theorem setClosed_finishes (henv : Effective env J) (h : At slot record machine)
    (hphase : record.status.phase = .rollbackPending)
    (hbound : record.status.generation + 1 < 2 ^ 64) (hj : J record machine.world) :
    Finishes 1 (mutateSame env (stored slot record) (setClosed i)) machine fun update machine' =>
      ∃ next, update = stored slot next ∧ At slot next machine' ∧ J next machine'.world ∧
        next = setClosed i (withGeneration record (record.status.generation + 1)) := by
  have hvalid : (setClosed i (withGeneration record (record.status.generation + 1))).Valid :=
    valid_touched h.valid hphase (fun j => ⟨h.valid.core.groups j, rfl⟩) h.valid.core.domain
      (cleaned_setClosed i record)
  have haccepts : Accepts .samePhaseEvidence record
      (setClosed i (withGeneration record (record.status.generation + 1))) :=
    accepts_touched (fun _ => isLegalTransition_group_self _) (immutableIdentityProgressesTo_refl _)
      (isLegalTransition_domain_self _) (cleaned_setClosed i record)
  refine (mutateSame_finishes h hbound rfl hvalid haccepts).imp le_rfl ?_
  rintro _ machine' ⟨rfl, hat, hworld⟩
  refine ⟨_, rfl, hat, ?_, rfl⟩
  rw [hworld]
  exact henv.congr (r := record) rfl rfl rfl rfl rfl hj

theorem closeOwner_finishes (henv : Effective env J) (h : At slot record machine)
    (hj : J record machine.world) :
    Finishes 1 (closeOwner env record i) machine fun _ machine' =>
      At slot record machine' ∧ J record machine'.world := by
  unfold closeOwner
  rcases howner : record.managedOwners.get i with _ | owner
  · exact Finishes.imp (Finishes.pure ⟨h, hj⟩) (by omega) fun _ _ hQ => hQ
  · obtain ⟨world', hcompletes, hj'⟩ := henv.owner h.valid hj howner
    refine (complete_finishes h rfl hcompletes).imp le_rfl ?_
    rintro _ machine' ⟨hat, rfl⟩
    exact ⟨hat, hj'⟩

theorem closeCandidate_finishes (henv : Effective env J) (h : At slot record machine)
    (hphase : record.status.phase = .rollbackPending)
    (hbound : record.status.generation + 11 < 2 ^ 64) (hj : J record machine.world)
    (hdone : ∀ j, j < i → (record.cgroups.get j).lifecycle = .removed)
    (hsound : (record.cgroups.get i).lifecycle ≠ .rollbackRequired) :
    Finishes 32 (closeCandidate env (stored slot record) i) machine fun update machine' =>
      ∃ next, update = stored slot next ∧ At slot next machine' ∧ J next machine'.world ∧
        CandidateClosed i record next := by
  have hrank := closeRank_le (record.cgroups.get i).lifecycle
  unfold closeCandidate
  refine (closeOwner_finishes henv h hj).bind (k := 31) ?_
  rintro _ machine₁ ⟨hat₁, hj₁⟩
  have hloop := closeLoop_finishes (i := i) henv closeFuel record machine₁ hat₁ hphase hj₁ hdone hsound
    (by unfold closeFuel; omega) (by omega)
  refine Finishes.imp (hloop.bind (k := 1) ?_) (by omega) fun _ _ hQ => hQ
  rintro _ machine₂ ⟨last, rfl, hat₂, hj₂, hlooped⟩
  have hgeneration := hlooped.generation
  refine (setClosed_finishes henv hat₂ hlooped.phase (by omega) hj₂).imp le_rfl ?_
  rintro _ machine₃ ⟨next, rfl, hat₃, hj₃, rfl⟩
  refine ⟨_, rfl, hat₃, hj₃, hlooped.phase, ?_, hlooped.removed, ?_, hlooped.other, ?_, hlooped.domain⟩
  · show last.status.generation + 1 ≤ record.status.generation + 11
    omega
  · simp only [setClosed, withGeneration, Pair.get_modify, if_true]
  · intro j hj
    simp only [setClosed, withGeneration, Pair.get_modify, if_neg hj, hlooped.candidates]

/-! ### The domain -/

theorem validate_domain_eq_ok {evidence : TournamentCgroupEvidence} {tournament boot : Uuid} :
    evidence.validate tournament boot = .ok () ↔
      (evidence.deterministicNameUuid = tournament ∧
        ∀ identity ∈ evidence.domain, identity.bootUuid = boot ∧ validDirectoryIdentity identity) ∧
      (evidence.domain.isSome = true ↔
        evidence.lifecycle = .created ∨ evidence.lifecycle = .removePending) := by
  simp only [TournamentCgroupEvidence.validate, bind_eq_ok, exists_unit, require_eq_ok]

/-- What a step for the domain leaves of a record. -/
structure DomainStep (record next : TournamentRecord) : Prop where
  phase : next.status.phase = .rollbackPending
  generation : next.status.generation ≤ record.status.generation + 1
  cgroups : next.cgroups = record.cgroups
  candidates : next.status.candidates = record.status.candidates

/-- The result of a step for the domain. -/
def DomainStepped (J : TournamentRecord → W → Prop) (slot : ℕ) (record : TournamentRecord)
    (P : TournamentCgroupLifecycleState → Prop) (update : StoredTournamentUpdate)
    (machine : Machine W) : Prop :=
  ∃ next, update = stored slot next ∧ At slot next machine ∧ J next machine.world ∧
    DomainStep record next ∧ P next.tournamentCgroup.lifecycle

variable {P : TournamentCgroupLifecycleState → Prop}

theorem domainStepped_self (h : At slot record machine) (hphase : record.status.phase = .rollbackPending)
    (hj : J record machine.world) (hP : P record.tournamentCgroup.lifecycle) :
    DomainStepped J slot record P (stored slot record) machine :=
  ⟨record, rfl, h, hj, ⟨hphase, Nat.le_succ _, rfl, rfl⟩, hP⟩

theorem setDomain_finishes {lifecycle : TournamentCgroupLifecycleState}
    {domain : Option DurableDirectoryIdentity} (henv : Effective env J) (h : At slot record machine)
    (hphase : record.status.phase = .rollbackPending)
    (hbound : record.status.generation + 1 < 2 ^ 64)
    (hj : J (setDomain lifecycle domain record) machine.world)
    (hidentities : ∀ identity ∈ domain,
      identity.bootUuid = record.bootUuid ∧ validDirectoryIdentity identity)
    (hdomain : domain.isSome = true ↔ lifecycle = .created ∨ lifecycle = .removePending)
    (hprogress : record.tournamentCgroup.immutableIdentityProgressesTo
      { record.tournamentCgroup with lifecycle, domain })
    (hlegal : record.tournamentCgroup.lifecycle.isLegalTransition lifecycle = true) (hP : P lifecycle) :
    Finishes 1 (mutateSame env (stored slot record) (setDomain lifecycle domain)) machine
      (DomainStepped J slot record P) := by
  have hname := (validate_domain_eq_ok.mp h.valid.core.domain).1.1
  have hvalid : (setDomain lifecycle domain
      (withGeneration record (record.status.generation + 1))).Valid :=
    valid_touched h.valid hphase (fun j => ⟨h.valid.core.groups j, rfl⟩)
      (validate_domain_eq_ok.mpr ⟨⟨hname, hidentities⟩, hdomain⟩) (Cleaned.refl _)
  have haccepts : Accepts .samePhaseEvidence record
      (setDomain lifecycle domain (withGeneration record (record.status.generation + 1))) :=
    accepts_touched (fun _ => isLegalTransition_group_self _) hprogress hlegal (Cleaned.refl _)
  refine (mutateSame_finishes h hbound rfl hvalid haccepts).imp le_rfl ?_
  rintro _ machine' ⟨rfl, hat, hworld⟩
  refine ⟨_, rfl, hat, ?_, ⟨hphase, le_rfl, rfl, rfl⟩, hP⟩
  rw [hworld]
  exact henv.congr (r := setDomain lifecycle domain record) rfl rfl rfl rfl rfl hj

section Domain
variable (henv : Effective env J) (h : At slot record machine)
  (hphase : record.status.phase = .rollbackPending) (hbound : record.status.generation + 1 < 2 ^ 64)
  (hj : J record machine.world) (hremoved : ∀ i, (record.cgroups.get i).lifecycle = .removed)
include henv h hphase hbound hj hremoved

theorem closeDomainCreate_finishes (hsound : record.tournamentCgroup.lifecycle ≠ .rollbackRequired) :
    Finishes 2 (closeDomainCreate env (stored slot record)) machine
      (DomainStepped J slot record fun lifecycle =>
        lifecycle = .created ∨ lifecycle = .removePending ∨ lifecycle = .removed) := by
  obtain ⟨⟨hname, hidentities⟩, hdomain⟩ := validate_domain_eq_ok.mp h.valid.core.domain
  have hself : ∀ hP : record.tournamentCgroup.lifecycle = .created ∨
      record.tournamentCgroup.lifecycle = .removePending ∨ record.tournamentCgroup.lifecycle = .removed,
      Finishes 2 (pure (stored slot record) : RecoveryOp W StoredTournamentUpdate) machine
        (DomainStepped J slot record fun lifecycle =>
          lifecycle = .created ∨ lifecycle = .removePending ∨ lifecycle = .removed) := by
    intro hP
    exact Finishes.imp (Finishes.pure (domainStepped_self h hphase hj hP)) (by omega) fun _ _ hQ => hQ
  unfold closeDomainCreate
  rcases hlifecycle : record.tournamentCgroup.lifecycle with _ | _ | _ | _ | _ | _
  · have hnone : record.tournamentCgroup.domain.isSome = true ↔
        TournamentCgroupLifecycleState.removed = .created ∨
          TournamentCgroupLifecycleState.removed = .removePending := by
      rw [hdomain, hlifecycle]
      decide
    simp only [stored, hlifecycle]
    refine Finishes.imp (setDomain_finishes henv h hphase hbound
      ((henv.planDomain h.valid hj hremoved).1 hlifecycle) hidentities hnone ?_ ?_ (.inr (.inr rfl)))
      (by omega) fun _ _ hQ => hQ
    · exact ⟨rfl, fun identity hmem => .inl hmem⟩
    · rw [hlifecycle]
      rfl
  · obtain ⟨identity, adopted, world', hreconcile, hidentity, hj'⟩ :=
      henv.createDomain h.valid hj hremoved hlifecycle
    simp only [stored, hlifecycle]
    refine (reconcile_finishes h hreconcile).bind (k := 1) ?_
    rintro _ machine' ⟨rfl, hat, rfl⟩
    refine setDomain_finishes henv hat hphase hbound hj' ?_ (by simp) ?_ ?_ (.inl rfl)
    · rintro _ ⟨⟩
      exact hidentity
    · refine ⟨rfl, fun identity hmem => ?_⟩
      have hsome : record.tournamentCgroup.domain.isSome = true := by
        rw [hmem]
        rfl
      rw [hdomain, hlifecycle] at hsome
      simp at hsome
    · rw [hlifecycle]
      rfl
  · simp only [stored, hlifecycle]
    exact hself (.inl hlifecycle)
  · simp only [stored, hlifecycle]
    exact hself (.inr (.inl hlifecycle))
  · simp only [stored, hlifecycle]
    exact hself (.inr (.inr hlifecycle))
  · exact absurd hlifecycle hsound

omit hremoved in
theorem closeDomainPending_finishes
    (hlifecycle : record.tournamentCgroup.lifecycle = .created ∨
      record.tournamentCgroup.lifecycle = .removePending ∨
      record.tournamentCgroup.lifecycle = .removed)
    (hplan : record.tournamentCgroup.lifecycle = .created →
      J (setDomain .removePending record.tournamentCgroup.domain record) machine.world) :
    Finishes 1 (closeDomainPending env (stored slot record)) machine
      (DomainStepped J slot record fun lifecycle =>
        lifecycle = .removePending ∨ lifecycle = .removed) := by
  obtain ⟨⟨-, hidentities⟩, hdomain⟩ := validate_domain_eq_ok.mp h.valid.core.domain
  unfold closeDomainPending
  rcases hlifecycle with hlifecycle | hlifecycle
  · have hsome : record.tournamentCgroup.domain.isSome = true :=
      hdomain.mpr (.inl hlifecycle)
    simp only [stored, hlifecycle, if_true]
    refine setDomain_finishes henv h hphase hbound (hplan hlifecycle) hidentities (by simp [hsome]) ?_ ?_
      (.inl rfl)
    · exact ⟨rfl, fun identity hmem => .inl hmem⟩
    · rw [hlifecycle]
      rfl
  · have hne : record.tournamentCgroup.lifecycle ≠ .created := by
      rcases hlifecycle with hlifecycle | hlifecycle <;> simp [hlifecycle]
    rw [if_neg (show ¬ (stored slot record).record.tournamentCgroup.lifecycle = .created from hne)]
    exact Finishes.imp (Finishes.pure (domainStepped_self h hphase hj hlifecycle)) (by omega)
      fun _ _ hQ => hQ

theorem closeDomainRemove_finishes
    (hlifecycle : record.tournamentCgroup.lifecycle = .removePending ∨
      record.tournamentCgroup.lifecycle = .removed) :
    Finishes 3 (closeDomainRemove env (stored slot record)) machine
      (DomainStepped J slot record fun lifecycle => lifecycle = .removed) := by
  unfold closeDomainRemove
  rcases hlifecycle with hlifecycle | hlifecycle
  · obtain ⟨world', world'', hempty, hremove, hj'⟩ := henv.removeDomain h.valid hj hremoved hlifecycle
    simp only [stored, hlifecycle, if_true]
    refine (complete_finishes h rfl hempty).bind (k := 2) ?_
    rintro _ machine' ⟨hat, rfl⟩
    refine (complete_finishes hat rfl hremove).bind (k := 1) ?_
    rintro _ machine'' ⟨hat, rfl⟩
    refine setDomain_finishes henv hat hphase hbound hj' (by simp) (by simp) ?_ ?_ rfl
    · exact ⟨rfl, fun identity hmem => .inr ⟨rfl, rfl⟩⟩
    · rw [hlifecycle]
      rfl
  · have hne : record.tournamentCgroup.lifecycle ≠ .removePending := by
      simp [hlifecycle]
    rw [if_neg (show ¬ (stored slot record).record.tournamentCgroup.lifecycle = .removePending from hne)]
    exact Finishes.imp (Finishes.pure (domainStepped_self h hphase hj hlifecycle)) (by omega)
      fun _ _ hQ => hQ

end Domain

/-! ### The whole recovery -/

/-- The result of a recovery: the tournament is rolled back for good. -/
def RolledBack (J : TournamentRecord → W → Prop) (slot : ℕ) (update : StoredTournamentUpdate)
    (machine : Machine W) : Prop :=
  ∃ last, update = stored slot last ∧ At slot last machine ∧ J last machine.world ∧
    last.status.phase = .rolledBack ∧ last.isPositiveTerminal = true

theorem transitionRecoveryPhase_finishes (h : At slot record machine)
    (hphase : record.status.phase = .rollbackRequired)
    (hbound : record.status.generation + 1 < 2 ^ 64) :
    Finishes 1 (transitionRecoveryPhase env (stored slot record) .rollbackPending) machine
      fun update machine' =>
        update = stored slot
          (inPhase (withGeneration record (record.status.generation + 1)) .rollbackPending) ∧
        At slot (inPhase (withGeneration record (record.status.generation + 1)) .rollbackPending)
          machine' ∧ machine'.world = machine.world := by
  have hvalid := valid_inPhase h.valid (.inr rfl) (by rw [hphase]; rfl)
  have hne : ¬ (stored slot record).record.status.phase = .rollbackPending := by
    show ¬ record.status.phase = _
    simp [hphase]
  unfold transitionRecoveryPhase
  rw [if_neg hne]
  refine Finishes.check_bind (increment_eq_ok hbound) ?_
  exact persist_finishes h hbound rfl hvalid (accepts_rollbackPending hphase)

theorem finishRecovery_finishes (h : At slot record machine)
    (hphase : record.status.phase = .rollbackPending)
    (hbound : record.status.generation + 1 < 2 ^ 64) (hclean : record.Clean) :
    Finishes 1 (finishRecovery env (stored slot record)) machine fun update machine' =>
      update = stored slot (finished record env.now) ∧ At slot (finished record env.now) machine' ∧
        machine'.world = machine.world ∧ (finished record env.now).isPositiveTerminal = true := by
  have hvalid := @valid_finished _ env.now h.valid hclean
  have hterminal : (finished record env.now).isPositiveTerminal = true :=
    TournamentRecord.isPositiveTerminal_iff.mpr ⟨hvalid.core, rfl, clean_finished.mpr hclean⟩
  unfold finishRecovery
  refine Finishes.check_bind (increment_eq_ok hbound) ?_
  refine (persist_finishes h hbound rfl hvalid (accepts_finished h.valid hphase)).imp le_rfl ?_
  rintro _ machine' ⟨rfl, hat, hworld⟩
  exact ⟨rfl, hat, hworld, hterminal⟩

/-- No control group is in a state that a recovery gives up on. -/
structure Sound (record : TournamentRecord) : Prop where
  groups : ∀ i, (record.cgroups.get i).lifecycle ≠ .rollbackRequired
  domain : record.tournamentCgroup.lifecycle ≠ .rollbackRequired

/-- `close_same_boot` ends after at most 72 writes and effects, and with them it has closed the
tournament. -/
theorem closeSameBoot_finishes (henv : Effective env J) (h : At slot record machine)
    (hphase : record.status.phase = .rollbackRequired)
    (hbound : record.status.generation + 27 < 2 ^ 64) (hj : J record machine.world)
    (hsound : Sound record) :
    Finishes 72 (closeSameBoot env (stored slot record)) machine (RolledBack J slot) := by
  unfold closeSameBoot
  refine (transitionRecoveryPhase_finishes h hphase (by omega)).bind (k := 71) ?_
  rintro _ machine₀ ⟨rfl, hat₀, hworld₀⟩
  have hj₀ : J (inPhase (withGeneration record (record.status.generation + 1)) .rollbackPending)
      machine₀.world := by
    rw [hworld₀]
    exact henv.congr (r := record) rfl rfl rfl rfl rfl hj
  -- the candidates, one after the other
  refine (closeCandidate_finishes (i := 0) henv hat₀ rfl ?_ hj₀ (fun j hj => absurd hj (Fin.not_lt_zero j))
    (hsound.groups 0)).bind (k := 39) ?_
  · show record.status.generation + 1 + 11 < 2 ^ 64
    omega
  rintro _ machine₁ ⟨r₁, rfl, hat₁, hj₁, hclosed₁⟩
  have hgeneration₁ : r₁.status.generation ≤ record.status.generation + 1 + 11 := hclosed₁.generation
  have hsound₁ : (r₁.cgroups.get 1).lifecycle ≠ .rollbackRequired := by
    rw [hclosed₁.other 1 (by decide)]
    exact hsound.groups 1
  have hdone₁ : ∀ j : Fin 2, j < 1 → (r₁.cgroups.get j).lifecycle = .removed := by
    intro j hj
    obtain rfl : j = 0 := by omega
    exact hclosed₁.removed
  refine (closeCandidate_finishes (i := 1) henv hat₁ hclosed₁.phase (by omega) hj₁ hdone₁ hsound₁).bind
    (k := 7) ?_
  rintro _ machine₂ ⟨r₂, rfl, hat₂, hj₂, hclosed₂⟩
  have hgeneration₂ := hclosed₂.generation
  have hremoved₂ : ∀ i, (r₂.cgroups.get i).lifecycle = .removed := by
    refine Fin.forall_fin_two.mpr ⟨?_, hclosed₂.removed⟩
    rw [hclosed₂.other 0 (by decide)]
    exact hclosed₁.removed
  have hcleanup₂ : ∀ i, (r₂.status.candidates.get i).cleanup = fullyClosedCleanup := by
    refine Fin.forall_fin_two.mpr ⟨?_, hclosed₂.cleanup⟩
    rw [hclosed₂.otherStatus 0 (by decide)]
    exact hclosed₁.cleanup
  have hsound₂ : r₂.tournamentCgroup.lifecycle ≠ .rollbackRequired := by
    rw [hclosed₂.domain, hclosed₁.domain]
    exact hsound.domain
  -- the domain
  refine (closeDomainCreate_finishes henv hat₂ hclosed₂.phase (by omega) hj₂ hremoved₂ hsound₂).bind
    (k := 5) ?_
  rintro _ machine₃ ⟨r₃, rfl, hat₃, hj₃, hstep₃, hdomain₃⟩
  have hgeneration₃ := hstep₃.generation
  have hremoved₃ : ∀ i, (r₃.cgroups.get i).lifecycle = .removed := by
    rw [hstep₃.cgroups]
    exact hremoved₂
  refine (closeDomainPending_finishes henv hat₃ hstep₃.phase (by omega) hj₃ hdomain₃
    (henv.planDomain hat₃.valid hj₃ hremoved₃).2).bind (k := 4) ?_
  rintro _ machine₄ ⟨r₄, rfl, hat₄, hj₄, hstep₄, hdomain₄⟩
  have hgeneration₄ := hstep₄.generation
  have hremoved₄ : ∀ i, (r₄.cgroups.get i).lifecycle = .removed := by
    rw [hstep₄.cgroups]
    exact hremoved₃
  refine (closeDomainRemove_finishes henv hat₄ hstep₄.phase (by omega) hj₄ hremoved₄ hdomain₄).bind
    (k := 1) ?_
  rintro _ machine₅ ⟨r₅, rfl, hat₅, hj₅, hstep₅, hdomain₅⟩
  have hgeneration₅ := hstep₅.generation
  have hclean : r₅.Clean := by
    refine ⟨?_, hdomain₅, ?_⟩
    · rw [hstep₅.cgroups]
      exact hremoved₄
    · intro i
      rw [hstep₅.candidates, hstep₄.candidates, hstep₃.candidates, hcleanup₂ i]
      exact ⟨rfl, rfl, rfl, rfl, rfl⟩
  refine Finishes.check_bind (require_eq_ok (u := ()).mpr hdomain₅) ?_
  refine (finishRecovery_finishes hat₅ hstep₅.phase (by omega) hclean).imp le_rfl ?_
  rintro _ machine₆ ⟨rfl, hat₆, hworld₆, hterminal⟩
  refine ⟨_, rfl, hat₆, ?_, rfl, hterminal⟩
  rw [hworld₆]
  exact henv.congr (r := r₅) rfl rfl rfl rfl rfl hj₅

/-! ### After a reboot -/

theorem clean_allAbsent (record : TournamentRecord) : (allAbsent record).Clean := by
  refine ⟨fun i => ?_, rfl, fun i => ?_⟩
  · simp only [allAbsent, Pair.get_map]
  · simp only [allAbsent, Pair.get_map]
    exact ⟨rfl, rfl, rfl, rfl, rfl⟩

theorem valid_allAbsent (h : record.Valid) (hphase : record.status.phase = .rollbackPending) :
    (allAbsent (withGeneration record (record.status.generation + 1))).Valid := by
  refine valid_touched h hphase (fun i => ⟨?_, ?_⟩) ?_ fun i => ?_
  · obtain ⟨⟨hindex, hname, -⟩, -⟩ := validate_group_eq_ok.mp (h.core.groups i)
    simp only [Pair.get_map]
    refine validate_group_eq_ok.mpr ⟨⟨hindex, hname, ?_⟩, 0, rfl, rfl⟩
    simp [CandidateCgroupEvidence.IdentitiesValid]
  · simp only [withGeneration, Pair.get_map]
  · obtain ⟨⟨hname, -⟩, -⟩ := validate_domain_eq_ok.mp h.core.domain
    exact validate_domain_eq_ok.mpr ⟨⟨hname, by simp⟩, by simp⟩
  · refine ⟨fullyClosedCleanup, ?_, fun _ => rfl, fun _ => rfl, fun _ => rfl, fun _ => rfl, fun _ => rfl⟩
    simp only [withGeneration, Pair.get_map]

theorem accepts_allAbsent {boot : Uuid} (hphase : record.status.phase = .rollbackPending)
    (hnil : Uuid.isNil boot = false) (hboot : record.bootUuid ≠ boot) :
    Accepts (.oldBootAbsence boot) record
      (allAbsent (withGeneration record (record.status.generation + 1))) := by
  have hclean := clean_allAbsent (withGeneration record (record.status.generation + 1))
  have hprogress : ∀ candidate : SpeculationCandidateStatus,
      candidateProgressesTo candidate { candidate with cleanup := fullyClosedCleanup } := by
    intro candidate
    obtain ⟨h1, h2, h3, h4, h5, h6, h7, h8, h9, h10, h11, h12, -⟩ := candidateProgressesTo_refl candidate
    exact ⟨h1, h2, h3, h4, h5, h6, h7, h8, h9, h10, h11, h12, fun _ => rfl, fun _ => rfl, fun _ => rfl,
      fun _ => rfl, fun _ => rfl⟩
  refine ⟨⟨rfl, rfl, rfl, ⟨rfl, fun _ _ => .inr ⟨rfl, rfl⟩⟩, rfl, rfl, rfl, rfl⟩,
    ⟨hnil, hboot, hphase, hphase, rfl, rfl, ?_, rfl, ?_⟩,
    ⟨le_rfl, ?_, .inr (optionIsRetained_refl _), List.prefix_rfl, ⟨hprogress _, hprogress _⟩,
      ⟨managedOwnerProgressesTo_refl _, managedOwnerProgressesTo_refl _⟩⟩, ?_⟩
  · exact Pair.all_iff.mpr hclean.groups
  · exact Pair.all_iff.mpr hclean.cleanup
  · intro hretain
    simp at hretain
  · intro hkind
    simp [TournamentWriteKind.isOldBootAbsence] at hkind

/-- The evidence that nothing is left of what an action is about. -/
def absentEvidence : OldBootRecoveryAction → OldBootRecoveryEvidence
  | .managedOwner candidate => .managedOwnerAbsent candidate
  | .candidateComponents candidate => .candidateComponentsAbsent candidate
  | .tournamentDomain => .tournamentDomainAbsent

/-- `close_different_boot` asks nothing of the system, and always ends. -/
theorem closeDifferentBoot_finishes {currentPrivateRoot : DurableDirectoryIdentity}
    (h : At slot record machine) (hphase : record.status.phase = .rollbackRequired)
    (hbound : record.status.generation + 3 < 2 ^ 64)
    (hnil : Uuid.isNil currentPrivateRoot.bootUuid = false)
    (hboot : record.bootUuid ≠ currentPrivateRoot.bootUuid) :
    Finishes 3 (closeDifferentBoot env currentPrivateRoot (stored slot record)) machine
      (RolledBack (fun _ _ => True) slot) := by
  unfold closeDifferentBoot
  refine (transitionRecoveryPhase_finishes h hphase (by omega)).bind (k := 2) ?_
  rintro _ machine₁ ⟨rfl, hat₁, -⟩
  generalize hpending : inPhase (withGeneration record (record.status.generation + 1)) .rollbackPending =
    pending at hat₁
  have hphase₁ : pending.status.phase = .rollbackPending := by
    rw [← hpending]
    rfl
  have hgeneration₁ : pending.status.generation = record.status.generation + 1 := by
    rw [← hpending]
    rfl
  have hboot₁ : pending.bootUuid ≠ currentPrivateRoot.bootUuid := by
    rw [← hpending]
    exact hboot
  have habsent : ∀ action, reconcileDifferentBoot pending currentPrivateRoot action =
      absentEvidence action := by
    intro action
    unfold reconcileDifferentBoot
    exact if_pos ⟨TournamentRecord.validate_eq_ok.mpr hat₁.valid, hnil, hboot₁.symm⟩
  have hcandidates : ∀ i, candidateAbsent pending currentPrivateRoot i := fun i =>
    ⟨habsent _, habsent _⟩
  have hbound₁ : pending.status.generation + 1 < 2 ^ 64 := by omega
  refine Finishes.check_bind (require_eq_ok (u := ()).mpr ⟨hcandidates 0, hcandidates 1⟩) ?_
  refine Finishes.check_bind (require_eq_ok (u := ()).mpr (habsent .tournamentDomain)) ?_
  refine Finishes.check_bind (increment_eq_ok hbound₁) ?_
  refine (persist_finishes hat₁ hbound₁ rfl (valid_allAbsent hat₁.valid hphase₁)
    (accepts_allAbsent hphase₁ hnil hboot₁)).bind (k := 1) ?_
  rintro _ machine₂ ⟨rfl, hat₂, -⟩
  refine (finishRecovery_finishes hat₂ hphase₁ ?_ (clean_allAbsent _)).imp le_rfl ?_
  · show pending.status.generation + 1 + 1 < 2 ^ 64
    omega
  rintro _ machine₃ ⟨rfl, hat₃, -, hterminal⟩
  exact ⟨_, rfl, hat₃, trivial, rfl, hterminal⟩

end LightTerminal.Speculation.Closing
