import LightTerminal.Speculation.Recovery
import LightTerminal.Speculation.Writes

/-! # The identities of the control groups

A record names the directories of its control groups by their identities: the domain of the tournament,
and parent, control and payload of each candidate. `immutable_identity_matches` compares the domain of
the record that is replaced with that of the next one; nothing compares the directories of the
candidates (`identities_kept_iff`). -/

namespace LightTerminal.Speculation.Identities

open LightTerminal.Library LightTerminal.Library.Procedure LightTerminal.Data.Text
open LightTerminal.Speculation.Record LightTerminal.Speculation.Recovery
open LightTerminal.Speculation.Store LightTerminal.Speculation.Writes

/-! ### The components of a candidate -/

/-- The recorded identity of a component. -/
def identity (evidence : CandidateCgroupEvidence) :
    CgroupComponent → Option DurableDirectoryIdentity
  | .parent => evidence.parent
  | .control => evidence.control
  | .payload => evidence.payload

/-- How many components are created before a component. -/
def depth : CgroupComponent → ℕ
  | .parent => 0
  | .control => 1
  | .payload => 2

/-- The lifecycle states that say that a component was removed. -/
def statesRemoval : CgroupLifecycleState → CgroupComponent → Bool
  | .payloadRemoved _, component => component = .payload
  | .controlRemovePending _, component => component = .payload
  | .controlRemoved _, component => component ≠ .parent
  | .parentRemovePending _, component => component ≠ .parent
  | .removed, _ => true
  | _, _ => false

/-- A component is recorded if it is among the first of them, as many as the lifecycle asks for. -/
theorem isSome_identity {evidence : CandidateCgroupEvidence} {index : ℕ} {bootUuid : Uuid}
    (h : evidence.validate index bootUuid = .ok ()) (hrollback : evidence.lifecycle ≠ .rollbackRequired)
    (component : CgroupComponent) :
    (identity evidence component).isSome = true ↔
      depth component < evidence.lifecycle.expectedPresentFloor 0 := by
  simp only [CandidateCgroupEvidence.validate, bind_eq_ok, exists_unit, require_eq_ok] at h
  obtain ⟨-, floor, hfloor, hexpected⟩ := h
  have hsame : evidence.lifecycle.expectedPresentFloor floor =
      evidence.lifecycle.expectedPresentFloor 0 := by
    cases hlifecycle : evidence.lifecycle with
    | rollbackRequired => exact absurd hlifecycle hrollback
    | _ => rfl
  rw [← hsame, ← hexpected]
  unfold CandidateCgroupEvidence.presentFloor at hfloor
  cases hparent : evidence.parent.isSome <;> cases hcontrol : evidence.control.isSome <;>
    cases hpayload : evidence.payload.isSome <;> rw [hparent, hcontrol, hpayload] at hfloor <;>
    cases hfloor <;> cases component <;> simp only [identity, depth, hparent, hcontrol, hpayload] <;>
    decide

theorem floor_le_next {state next : CgroupForwardState} (h : state.next = some next) :
    state.floor ≤ next.floor := by
  cases state <;> cases h <;> decide

/-- What a legal transition leaves of the components. -/
theorem expected_of_legal {state next : CgroupLifecycleState}
    (h : state.isLegalTransition next = true) (hnext : next ≠ .rollbackRequired)
    (component : CgroupComponent) (hcomponent : depth component < state.expectedPresentFloor 0) :
    depth component < next.expectedPresentFloor 0 ∨ statesRemoval next component = true := by
  simp only [CgroupLifecycleState.isLegalTransition, Bool.or_eq_true, decide_eq_true_eq] at h
  rcases h with rfl | h
  · exact Or.inl hcomponent
  split at h
  case h_13 => exact absurd rfl hnext
  case h_14 => cases h
  case h_3 origin next _ =>
    have hle := floor_le_next (of_decide_eq_true h)
    simp only [CgroupLifecycleState.expectedPresentFloor,
      CgroupLifecycleState.creationFloor] at hcomponent ⊢
    omega
  all_goals try cases of_decide_eq_true h
  all_goals cases component <;>
    simp only [CgroupLifecycleState.expectedPresentFloor, CgroupLifecycleState.creationFloor, depth,
      statesRemoval] at hcomponent ⊢ <;> simp <;> omega

/-! ### Records -/

/-- Every identity that is recorded is recorded again, or the lifecycle says that its directory was
removed. -/
structure Kept (current next : TournamentRecord) : Prop where
  domain : ∀ x ∈ current.tournamentCgroup.domain, next.tournamentCgroup.domain = some x ∨
    next.tournamentCgroup.domain = none ∧ next.tournamentCgroup.lifecycle = .removed
  component : ∀ i component, ∀ x ∈ identity (current.cgroups.get i) component,
    identity (next.cgroups.get i) component = some x ∨
      identity (next.cgroups.get i) component = none ∧
        statesRemoval (next.cgroups.get i).lifecycle component = true

/-- No component of a candidate that is recorded in both has two identities, and a candidate that is given
up (`RollbackRequired`) still has all its components. -/
structure Unreplaced (current next : TournamentRecord) : Prop where
  same : ∀ i component, ∀ x ∈ identity (current.cgroups.get i) component,
    ∀ y ∈ identity (next.cgroups.get i) component, y = x
  rollback : ∀ i, (next.cgroups.get i).lifecycle = .rollbackRequired → ∀ component,
    (identity (current.cgroups.get i) component).isSome = true →
      (identity (next.cgroups.get i) component).isSome = true

/-- When a write keeps the identities. -/
theorem kept_iff {kind : TournamentWriteKind} {current next : TournamentRecord}
    (hcurrent : current.Valid) (hnext : next.Valid) (hkind : kind.isOldBootAbsence = false)
    (h : Accepts kind current next) : Kept current next ↔ Unreplaced current next := by
  obtain ⟨⟨-, -, -, hdomain, -⟩, -, -, hlegal⟩ := h
  constructor
  · intro hkept
    refine ⟨fun i component x hx y hy => ?_, fun i hlifecycle component hsome => ?_⟩
    · rcases hkept.component i component x hx with heq | ⟨hnone, -⟩
      · rw [Option.mem_def, heq] at hy
        exact (Option.some.inj hy).symm
      · rw [Option.mem_def, hnone] at hy
        cases hy
    · obtain ⟨x, hx⟩ := Option.isSome_iff_exists.mp hsome
      rcases hkept.component i component x hx with heq | ⟨-, hremoval⟩
      · rw [heq]
        rfl
      · rw [hlifecycle] at hremoval
        cases hremoval
  · intro hsame
    refine ⟨fun x hx => (hdomain.2 x hx).imp_right And.symm, fun i component x hx => ?_⟩
    rcases hidentity : identity (next.cgroups.get i) component with _ | y
    · refine Or.inr ⟨rfl, ?_⟩
      have hrollback : (next.cgroups.get i).lifecycle ≠ .rollbackRequired := by
        intro hlifecycle
        have hsome := hsame.rollback i hlifecycle component (Option.isSome_iff_exists.mpr ⟨x, hx⟩)
        rw [hidentity] at hsome
        cases hsome
      have hstep := Pair.all₂_iff.mp (hlegal hkind).2 i
      have hbefore : (current.cgroups.get i).lifecycle ≠ .rollbackRequired := by
        intro hlifecycle
        rw [hlifecycle] at hstep
        revert hstep hrollback
        cases (next.cgroups.get i).lifecycle <;> simp [CgroupLifecycleState.isLegalTransition]
      have hpresent := (isSome_identity (hcurrent.core.groups i) hbefore component).mp
        (Option.isSome_iff_exists.mpr ⟨x, hx⟩)
      refine (expected_of_legal hstep hrollback component hpresent).resolve_left fun hexpected => ?_
      have hsome := (isSome_identity (hnext.core.groups i) hrollback component).mpr hexpected
      rw [hidentity] at hsome
      cases hsome
    · rw [hsame.same i component x hx y hidentity]
      exact Or.inl rfl

/-- A record that is normalized after a restart keeps all identities. -/
theorem kept_normalized (current : TournamentRecord) (generation : ℕ) :
    Kept current (normalized current generation) :=
  ⟨fun _ hx => Or.inl hx, fun _ _ _ hx => Or.inl hx⟩

/-! ### The store -/

/-- The records in memory were checked. -/
def Checked (store : TournamentStore) : Prop :=
  ∀ (slot : ℕ) (record : TournamentRecord) (file : FileIdentity),
    store.slots[slot]? = some (.valid record file) → record.Valid

theorem checked_fresh : Checked Store.fresh := by
  intro slot record file hslot
  simp only [Store.fresh, List.getElem?_replicate] at hslot
  split_ifs at hslot
  cases hslot

theorem checked_reopen (io : OpenIo) (store : TournamentStore) : Checked (reopen io store) := by
  intro slot record file hslot
  rw [reopen_slots, openSlots, List.getElem?_map] at hslot
  obtain ⟨slot', -, hstate⟩ := Option.map_eq_some_iff.mp hslot
  unfold openSlot at hstate
  split at hstate
  · split_ifs at hstate
  · next entry _ =>
    split_ifs at hstate with hvalid
    split at hstate
    · next record' hrecord =>
      cases hstate
      have hentry := hvalid.2
      unfold StoredSlot.validate at hentry
      rw [hrecord] at hentry
      simp only [bind_eq_ok, exists_unit] at hentry
      exact TournamentRecord.validate_eq_ok.mp hentry.2
    · cases hstate

theorem Checked.setSlot {store : TournamentStore} (h : Checked store) (slot : ℕ) {state : SlotState}
    (hstate : ∀ record file, state = .valid record file → record.Valid) :
    Checked (store.setSlot slot state) := by
  intro slot' record file hslot
  simp only [TournamentStore.setSlot, List.getElem?_set] at hslot
  split_ifs at hslot with heq hlt
  · exact hstate record file (Option.some.inj hslot)
  · exact h slot' record file hslot

theorem checked_step {store : TournamentStore} (h : Checked store) (op : Operation) :
    Checked (Store.step store op) := by
  rcases step_change store op with ⟨io, -, hstep⟩ | hchange
  · rw [hstep]
    exact checked_reopen io store
  · generalize Store.step store op = store' at hchange ⊢
    rcases hchange with _ | slot | @⟨slot, record, file, state, materialized, hw, hstate⟩
    · exact h
    · exact h.setSlot slot fun _ _ heq => (nomatch heq)
    · have hvalid : record.Valid := by
        rcases hw with ⟨-, -, -, hadvance⟩ | ⟨-, hvalid, -, -, -⟩
        · exact hadvance.valid
        · exact hvalid
      have hset : Checked (store.setSlot slot state) := h.setSlot slot fun record' file' heq => by
        rcases hstate with hcorrupt | hwritten
        · rw [hcorrupt] at heq
          cases heq
        · rw [hwritten] at heq
          cases heq
          exact hvalid
      exact hset

theorem checked_run (ops : List Operation) : Checked (Store.run Store.fresh ops) := by
  have hstep : ∀ store op, Checked store → Checked (Store.step store op) :=
    fun _ op h => checked_step h op
  exact Run.run_invariant hstep ops Store.fresh checked_fresh

/-- A record that restart normalization writes. -/
def Normalizes (store : TournamentStore) (slot : ℕ) (record : TournamentRecord) : Prop :=
  ∃ current file, store.slots[slot]? = some (.valid current file) ∧
    record = normalized current (current.status.generation + 1)

/-- What restart normalization leaves in memory. -/
theorem kept_of_change {store store' : TournamentStore} {slot : ℕ} {current next : TournamentRecord}
    {file file' : FileIdentity} (h : Change (Normalizes store) store store')
    (hbefore : store.slots[slot]? = some (.valid current file))
    (hafter : store'.slots[slot]? = some (.valid next file')) : Kept current next := by
  have hsame : Kept current current := ⟨fun _ hx => Or.inl hx, fun _ _ _ hx => Or.inl hx⟩
  rcases h with _ | changed | @⟨changed, record, written, state, materialized, hw, hstate⟩
  · rw [hbefore] at hafter
    cases hafter
    exact hsame
  · simp only [TournamentStore.setSlot, List.getElem?_set] at hafter
    split_ifs at hafter
    · cases hafter
    · rw [hbefore] at hafter
      cases hafter
      exact hsame
  · have hset : (store.setSlot changed state).slots[slot]? = some (.valid next file') := hafter
    simp only [TournamentStore.setSlot, List.getElem?_set] at hset
    split_ifs at hset with heq hlt
    · subst heq
      obtain ⟨before, file'', hslot, rfl⟩ := hw
      rw [hbefore] at hslot
      cases hslot
      rcases hstate with rfl | rfl
      · cases hset
      · cases hset
        exact kept_normalized current _
    · rw [hbefore] at hset
      cases hset
      exact hsame

/-- **What a write may do to the recorded identities**, in every state that the store can reach. A write for
a phase or for evidence that is accepted keeps them if and only if it gives no component of a candidate
another identity, and a candidate that is given up keeps its components. Restart normalization keeps all
identities. -/
theorem identities_kept_iff (ops : List Operation) :
    (∀ io key expectedGeneration next kind update,
      TournamentWriteKind.isOldBootAbsence kind = false →
      (exec (write io key expectedGeneration next kind) (Store.run Store.fresh ops)).1 = .ok update →
        ∃ current file, (Store.run Store.fresh ops).slots[key.slot]? = some (.valid current file) ∧
          update.record = next ∧ (Kept current next ↔ Unreplaced current next)) ∧
    ∀ readable io key expectedGeneration daemon (slot : ℕ) current file next file',
      (Store.run Store.fresh ops).slots[slot]? = some (.valid current file) →
      (exec (normalizeAfterDaemonRestart readable io key expectedGeneration daemon)
        (Store.run Store.fresh ops)).2.slots[slot]? = some (.valid next file') → Kept current next := by
  refine ⟨fun io key expectedGeneration next kind update hkind hok => ?_,
    fun readable io key expectedGeneration daemon slot current file next file' hbefore hafter => ?_⟩
  · obtain ⟨current, file, file', hslot, -, hvalid, -, haccepts, hexec⟩ := write_eq_ok hok
    rw [hexec, Except.ok.injEq] at hok
    exact ⟨current, file, hslot, by rw [← hok],
      kept_iff (checked_run ops _ _ _ hslot) hvalid hkind haccepts⟩
  · have hchange : Change (Normalizes (Store.run Store.fresh ops)) (Store.run Store.fresh ops)
        (exec (normalizeAfterDaemonRestart readable io key expectedGeneration daemon)
          (Store.run Store.fresh ops)).2 :=
      normalize_change fun current file hslot _ _ _ => ⟨current, file, hslot, rfl⟩
    exact kept_of_change hchange hbefore hafter

/-! ### A component that is replaced -/

/-- The record of a tournament whose first candidate has this parent. -/
def withParent (generation : ℕ) (lifecycle : CgroupForwardState)
    (parent : Option DurableDirectoryIdentity) : TournamentRecord :=
  { sampleRecord with
    cgroups := { sampleRecord.cgroups with
      zero := { sampleRecord.cgroups.zero with lifecycle := .forward lifecycle, parent := parent } }
    status := { sampleRecord.status with generation := generation } }

/-- The parent of the first candidate is created. -/
def parentCreated : List Operation :=
  [.allocatePrepared (.done ⟨1, 1⟩) (.done ⟨1, 2⟩) sampleRecord 0,
    .write (.done ⟨1, 3⟩) ⟨0, 1, 2⟩ 1 (withParent 2 .parentCreatePending none) .samePhaseEvidence,
    .write (.done ⟨1, 4⟩) ⟨0, 2, 2⟩ 2 (withParent 3 .parentCreated (some ⟨1, 8, 8, 8⟩))
      .samePhaseEvidence]

/-- A write that gives the parent another identity is accepted. -/
theorem replaced_parent :
    ¬∀ ops io key expectedGeneration next kind update current file,
      TournamentWriteKind.isOldBootAbsence kind = false →
      (exec (write io key expectedGeneration next kind) (Store.run Store.fresh ops)).1 = .ok update →
        (Store.run Store.fresh ops).slots[key.slot]? = some (.valid current file) →
          Kept current next := by
  intro h
  have hkept := h parentCreated (.done ⟨1, 5⟩) ⟨0, 3, 2⟩ 3
    (withParent 4 .parentCreated (some ⟨1, 9, 9, 9⟩)) .samePhaseEvidence
    ⟨⟨0, 4, 2⟩, withParent 4 .parentCreated (some ⟨1, 9, 9, 9⟩)⟩
    (withParent 3 .parentCreated (some ⟨1, 8, 8, 8⟩)) ⟨1, 4⟩ rfl (by decide +kernel)
    (by decide +kernel)
  have hparent := hkept.component 0 .parent ⟨1, 8, 8, 8⟩ rfl
  revert hparent
  decide

end LightTerminal.Speculation.Identities
