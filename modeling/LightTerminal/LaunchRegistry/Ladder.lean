import LightTerminal.LaunchRegistry.Protocol

/-! # The order of an artifact cleanup

The cleanup of a binding goes up a ladder: a quarantine, then for the ownership file, the socket and
the runner an intent to unlink it and its receipt, then the intent to remove the directory, and last
the completion. `rung` is how far a binding is.

* `Grows`: what no write takes back;
* `Climbs`: a write of an operation leaves the rung, or climbs to the next one by its milestone, or
  completes the cleanup;
* `step_climbs`: every write of an operation, in a registry all of whose bindings are of this boot. -/

namespace LightTerminal.LaunchRegistry.Ladder

open LightTerminal.Data.Text LightTerminal.Library.Procedure
open LightTerminal.LaunchRegistry.Record LightTerminal.LaunchRegistry.Transition
open LightTerminal.LaunchRegistry.Store LightTerminal.LaunchRegistry.Artifacts
open LightTerminal.LaunchRegistry.Operations LightTerminal.LaunchRegistry.Validity
open LightTerminal.LaunchRegistry.Writes LightTerminal.LaunchRegistry.Protocol

/-- The number of artifacts whose removal has a receipt. -/
def receipts (binding : ManagedArtifactBinding) : ℕ :=
  binding.cleanupOwnershipRemoved.toNat + binding.cleanupSocketRemoved.toNat +
    binding.cleanupRunnerRemoved.toNat

/-- How far the cleanup of a binding is, from 0 for none to 9 for a completed one. -/
def rung (binding : ManagedArtifactBinding) : ℕ :=
  if binding.cleanupCompleted then 9
  else if binding.cleanupQuarantine.isSome then
    1 + 2 * receipts binding + binding.cleanupUnlinkPending.isSome.toNat
  else 0

/-- What a write of the cleanup makes durable. -/
inductive Milestone where
  | quarantine
  | intent (step : ManagedArtifactCleanupStep)
  | receipt (step : ManagedArtifactCleanupStep)
  deriving DecidableEq, Repr

/-- What has to be durable before the completion, in this order. -/
def milestones : List Milestone :=
  [.quarantine, .intent .ownership, .receipt .ownership, .intent .socket, .receipt .socket,
    .intent .runner, .receipt .runner, .intent .directory]

/-- A binding that has not reached the milestone is replaced by one that has. -/
def Reaches (before after : ManagedArtifactBinding) : Milestone → Prop
  | .quarantine => before.cleanupQuarantine = none ∧ after.cleanupQuarantine.isSome
  | .intent step => before.cleanupUnlinkPending = none ∧ after.cleanupUnlinkPending = some step
  | .receipt step =>
    before.cleanupUnlinkPending = some step ∧ after.cleanupUnlinkPending = none ∧
      before.cleanupStepCompleted step = false ∧ after.cleanupStepCompleted step = true

/-- What stays: the names and the recorded identities of the artifacts, the quarantine, and every flag
that is set. -/
structure Grows (before after : ManagedArtifactBinding) : Prop where
  nonce : after.nonce = before.nonce
  controlRoot : after.controlRoot = before.controlRoot
  privateLeaf : after.privateLeaf = before.privateLeaf
  privateDirectory : ∀ d, before.privateDirectory = some d → after.privateDirectory = some d
  runner : ∀ i, before.runner = some i → after.runner = some i
  socket : ∀ i, before.socket = some i → after.socket = some i
  owner : ∀ i, before.owner = some i → after.owner = some i
  quarantine : ∀ q, before.cleanupQuarantine = some q → after.cleanupQuarantine = some q
  socketRetired : before.socketRetired = true → after.socketRetired = true
  ownershipRemoved : before.cleanupOwnershipRemoved = true → after.cleanupOwnershipRemoved = true
  socketRemoved : before.cleanupSocketRemoved = true → after.cleanupSocketRemoved = true
  runnerRemoved : before.cleanupRunnerRemoved = true → after.cleanupRunnerRemoved = true
  completed : before.cleanupCompleted = true → after.cleanupCompleted = true

theorem Grows.refl (binding : ManagedArtifactBinding) : Grows binding binding :=
  ⟨rfl, rfl, rfl, fun _ => id, fun _ => id, fun _ => id, fun _ => id, fun _ => id, id, id, id, id, id⟩

theorem Grows.trans {a b c : ManagedArtifactBinding} (h : Grows a b) (h' : Grows b c) :
    Grows a c where
  nonce := h'.nonce.trans h.nonce
  controlRoot := h'.controlRoot.trans h.controlRoot
  privateLeaf := h'.privateLeaf.trans h.privateLeaf
  privateDirectory d hd := h'.privateDirectory d (h.privateDirectory d hd)
  runner i hi := h'.runner i (h.runner i hi)
  socket i hi := h'.socket i (h.socket i hi)
  owner i hi := h'.owner i (h.owner i hi)
  quarantine q hq := h'.quarantine q (h.quarantine q hq)
  socketRetired hr := h'.socketRetired (h.socketRetired hr)
  ownershipRemoved hr := h'.ownershipRemoved (h.ownershipRemoved hr)
  socketRemoved hr := h'.socketRemoved (h.socketRemoved hr)
  runnerRemoved hr := h'.runnerRemoved (h.runnerRemoved hr)
  completed hc := h'.completed (h.completed hc)

/-- What a write of an operation does to the rung. -/
inductive Climbs (operation : Operation) (before after : ManagedArtifactBinding) : Prop where
  | stays (h : rung after = rung before)
  | climbs {milestone : Milestone} (hnext : milestones[rung before]? = some milestone)
      (hreaches : Reaches before after milestone) (h : rung after = rung before + 1)
  | completes {io : UpdateIo} {key : ManagedKey} {caller : ManagedArtifactBinding}
      (hoperation : operation = .updateArtifact io key (.finishArtifactCleanup caller))
      (hbefore : rung before = 8) (h : rung after = 9)
  | absent {io : UpdateIo} {key : ManagedKey} {caller : ManagedArtifactBinding}
      {evidence : Evidence Uuid}
      (hoperation : operation =
        .updateArtifact io key (.finishArtifactCreatePendingAbsence caller evidence))
      (hphase : before.creationPhase = some .reserved)
      (hquarantine : before.cleanupQuarantine.isSome) (h : rung after = 9)

/-- The operation is one of the boot `boot`: a binding it makes is for a control root of that boot, and
what it reads of the boot UUID is this one, if anything. -/
def InBoot (boot : Uuid) : Operation → Prop
  | .beginArtifactCreation _ _ controlRoot _ => controlRoot.bootUuid = boot
  | .updateArtifact _ _ (.finishArtifactLogicalAbsence _ evidence) =>
    ∀ found, evidence = .present found → found = boot
  | .updateArtifact _ _ (.finishArtifactCreatePendingAbsence _ evidence) =>
    ∀ found, evidence = .present found → found = boot
  | _ => True

/-- What holds of the bindings in the files: besides the checks, no artifact is removed before there is
a quarantine. -/
structure Ordered (boot : Uuid) (binding : ManagedArtifactBinding) : Prop where
  valid : binding.Valid
  quarantined : binding.cleanupOwnershipRemoved = true → binding.cleanupQuarantine.isSome
  boot : binding.controlRoot.bootUuid = boot

/-! ### Steps of the cleanup -/

section Steps
variable {boot : Uuid} {operation : Operation} {current : SlotRecord}
  {caller before after : ManagedArtifactBinding}

/-- What one step does to a binding that is in order. -/
structure Moves (operation : Operation) (before after : ManagedArtifactBinding) : Prop where
  grows : Grows before after
  climbs : Climbs operation before after
  quarantined : after.cleanupOwnershipRemoved = true → after.cleanupQuarantine.isSome

/-- A cleanup that is not begun. -/
structure Fresh (binding : ManagedArtifactBinding) : Prop where
  pending : binding.cleanupUnlinkPending = none
  ownership : binding.cleanupOwnershipRemoved = false
  socket : binding.cleanupSocketRemoved = false
  runner : binding.cleanupRunnerRemoved = false
  completed : binding.cleanupCompleted = false

theorem Ordered.fresh (h : Ordered boot before) (hnone : before.cleanupQuarantine = none) :
    Fresh before := by
  have hvalid := h.valid
  have hquarantine : ¬before.cleanupQuarantine.isSome := by simp [hnone]
  have hownership : before.cleanupOwnershipRemoved = false :=
    Bool.eq_false_iff.mpr fun hremoved => hquarantine (h.quarantined hremoved)
  have hsocket : before.cleanupSocketRemoved = false := by
    refine Bool.eq_false_iff.mpr fun hremoved => ?_
    have hbefore := hvalid.socketRemoved hremoved
    simp [hownership] at hbefore
  have hrunner : before.cleanupRunnerRemoved = false := by
    refine Bool.eq_false_iff.mpr fun hremoved => ?_
    have hbefore := hvalid.runnerRemoved hremoved
    simp [hsocket] at hbefore
  refine ⟨?_, hownership, hsocket, hrunner, ?_⟩
  · refine Option.eq_none_iff_forall_ne_some.mpr fun step hstep => ?_
    exact hquarantine (hvalid.unlink step hstep).1
  · exact Bool.eq_false_iff.mpr fun hcompleted => hquarantine (hvalid.completed hcompleted).1

theorem beginArtifactCleanup_moves (hordered : Ordered boot before)
    (hfound : current.artifactBinding = some before)
    (h : beginArtifactCleanup caller current = .ok (.write after)) :
    Moves operation before after := by
  simp only [beginArtifactCleanup, bind_eq_ok, exists_unit, require_eq_ok, expect_eq_ok, hfound] at h
  obtain ⟨-, _, hsome, -, -, -, h⟩ := h
  cases hsome
  split at h
  · cases h
  next hnone =>
  rw [Option.not_isSome_iff_eq_none] at hnone
  simp only [bind_eq_ok, exists_unit, pure_eq_ok] at h
  obtain ⟨-, heq⟩ := h
  cases heq
  have hfresh := hordered.fresh hnone
  have hrung : rung before = 0 := by simp [rung, hnone, hfresh.completed]
  have hnext : milestones[rung before]? = some .quarantine := by rw [hrung]; rfl
  refine ⟨{ Grows.refl before with quarantine := ?_, completed := ?_ }, ?_, fun _ => rfl⟩
  · simp [hnone]
  · simp [hfresh.completed]
  · refine .climbs hnext ⟨hnone, rfl⟩ ?_
    rw [hrung]
    simp [rung, receipts, hfresh.pending, hfresh.ownership, hfresh.socket, hfresh.runner]

theorem beginArtifactSocketRetirement_moves (hordered : Ordered boot before)
    (hfound : current.artifactBinding = some before)
    (h : beginArtifactSocketRetirement caller current = .ok (.write after)) :
    Moves operation before after := by
  simp only [beginArtifactSocketRetirement, bind_eq_ok, exists_unit, require_eq_ok, expect_eq_ok,
    hfound] at h
  obtain ⟨-, _, hsome, -, -, h⟩ := h
  cases hsome
  split at h
  · cases h
  cases h
  exact ⟨{ Grows.refl before with }, .stays rfl, hordered.quarantined⟩

theorem finishArtifactSocketRetirement_moves (hordered : Ordered boot before)
    (hfound : current.artifactBinding = some before)
    (h : finishArtifactSocketRetirement caller current = .ok (.write after)) :
    Moves operation before after := by
  simp only [finishArtifactSocketRetirement, bind_eq_ok, exists_unit, require_eq_ok, expect_eq_ok,
    hfound] at h
  obtain ⟨_, hsome, -, h⟩ := h
  cases hsome
  split at h
  · cases h
  simp only [bind_eq_ok, exists_unit, require_eq_ok, pure_eq_ok] at h
  obtain ⟨-, heq⟩ := h
  cases heq
  exact ⟨{ Grows.refl before with socketRetired := fun _ => rfl }, .stays rfl, hordered.quarantined⟩

theorem finishArtifactCleanup_moves {io : UpdateIo} {key : ManagedKey}
    (hfound : current.artifactBinding = some before)
    (h : finishArtifactCleanup caller current = .ok (.write after)) :
    Moves (.updateArtifact io key (.finishArtifactCleanup caller)) before after := by
  simp only [finishArtifactCleanup, bind_eq_ok, exists_unit, require_eq_ok, expect_eq_ok, hfound] at h
  obtain ⟨-, _, hsome, -, h⟩ := h
  cases hsome
  split at h
  · cases h
  next hopen =>
  simp only [bind_eq_ok, exists_unit, require_eq_ok, pure_eq_ok] at h
  obtain ⟨⟨hquarantine, hownership, hsocket, hrunner, hpending⟩, heq⟩ := h
  cases heq
  have hrung : rung before = 8 := by
    simp [rung, receipts, hopen, hquarantine, hownership, hsocket, hrunner, hpending]
  exact ⟨{ Grows.refl before with completed := fun _ => rfl }, .completes rfl hrung rfl,
    fun _ => hquarantine⟩

theorem beginArtifactUnlink_moves {step : ManagedArtifactCleanupStep}
    (hfound : current.artifactBinding = some before)
    (h : beginArtifactUnlink caller step current = .ok (.write after)) :
    Moves operation before after := by
  simp only [beginArtifactUnlink, bind_eq_ok, exists_unit, require_eq_ok, expect_eq_ok, hfound] at h
  obtain ⟨-, _, hsome, -, ⟨hquarantine, hopen⟩, h⟩ := h
  cases hsome
  split at h
  · cases h
  split at h
  · simp only [bind_eq_ok, exists_unit, require_eq_ok, pure_eq_ok] at h
    cases h.2
  next hpending =>
  simp only [bind_eq_ok, exists_unit, pure_eq_ok] at h
  obtain ⟨hvalidate, heq⟩ := h
  cases heq
  -- the check of what is written asks for the steps before this one
  have horder := ((ManagedArtifactBinding.validate_eq_ok.mp hvalidate).unlink step rfl).2.2
  refine ⟨{ Grows.refl before with }, ?_, fun _ => hquarantine⟩
  have hreaches : Reaches before { before with cleanupUnlinkPending := some step } (.intent step) :=
    ⟨hpending, rfl⟩
  cases step <;> simp only [ManagedArtifactBinding.unlinkInOrder, Bool.and_eq_true,
    Bool.not_eq_true'] at horder
  all_goals
    refine .climbs ?_ hreaches ?_ <;>
      simp [rung, receipts, milestones, hopen, hquarantine, hpending, horder]

theorem finishArtifactUnlink_moves {step : ManagedArtifactCleanupStep} (hordered : Ordered boot before)
    (hfound : current.artifactBinding = some before)
    (h : finishArtifactUnlink caller step current = .ok (.write after)) :
    Moves operation before after := by
  simp only [finishArtifactUnlink, bind_eq_ok, exists_unit, require_eq_ok, expect_eq_ok, hfound] at h
  obtain ⟨-, _, hsome, -, ⟨hquarantine, hopen⟩, h⟩ := h
  cases hsome
  split at h
  · cases h
  next hstep =>
  simp only [bind_eq_ok, exists_unit, require_eq_ok, pure_eq_ok] at h
  obtain ⟨hpending, advanced, hreceipt, heq⟩ := h
  cases heq
  have horder := (hordered.valid.unlink step hpending).2.2
  cases step with
  | ownership =>
    simp only [unlinkReceipt, bind_eq_ok, exists_unit, require_eq_ok, pure_eq_ok] at hreceipt
    obtain ⟨-, rfl⟩ := hreceipt
    simp only [ManagedArtifactBinding.unlinkInOrder, Bool.and_eq_true, Bool.not_eq_true'] at horder
    have hnext : milestones[rung before]? = some (.receipt .ownership) := by
      simp [rung, receipts, milestones, hopen, hquarantine, hpending, horder]
    refine ⟨{ Grows.refl before with ownershipRemoved := fun _ => rfl }, ?_, fun _ => hquarantine⟩
    refine .climbs hnext ⟨hpending, rfl, horder.1.1, rfl⟩ ?_
    simp [rung, receipts, hopen, hquarantine, hpending, horder]
  | socket =>
    simp only [unlinkReceipt, bind_eq_ok, exists_unit, require_eq_ok, pure_eq_ok] at hreceipt
    obtain ⟨-, rfl⟩ := hreceipt
    simp only [ManagedArtifactBinding.unlinkInOrder, Bool.and_eq_true, Bool.not_eq_true'] at horder
    have hnext : milestones[rung before]? = some (.receipt .socket) := by
      simp [rung, receipts, milestones, hopen, hquarantine, hpending, horder]
    refine ⟨{ Grows.refl before with socketRemoved := fun _ => rfl }, ?_, fun _ => hquarantine⟩
    refine .climbs hnext ⟨hpending, rfl, horder.1.2, rfl⟩ ?_
    simp [rung, receipts, hopen, hquarantine, hpending, horder]
  | runner =>
    simp only [unlinkReceipt, bind_eq_ok, exists_unit, require_eq_ok, pure_eq_ok] at hreceipt
    obtain ⟨-, rfl⟩ := hreceipt
    simp only [ManagedArtifactBinding.unlinkInOrder, Bool.and_eq_true, Bool.not_eq_true'] at horder
    have hnext : milestones[rung before]? = some (.receipt .runner) := by
      simp [rung, receipts, milestones, hopen, hquarantine, hpending, horder]
    refine ⟨{ Grows.refl before with runnerRemoved := fun _ => rfl }, ?_, fun _ => hquarantine⟩
    refine .climbs hnext ⟨hpending, rfl, horder.2, rfl⟩ ?_
    simp [rung, receipts, hopen, hquarantine, hpending, horder]
  | directory => cases hreceipt

/-- What is read of the boot UUID is that of the boot. -/
theorem currentBoot_eq {evidence : Evidence Uuid} {found : Uuid}
    (hboot : ∀ found, evidence = .present found → found = boot)
    (h : currentBoot evidence = .ok found) : found = boot := by
  unfold currentBoot at h
  split at h
  · next present =>
    cases h
    exact hboot _ rfl
  · cases h

theorem finishArtifactLogicalAbsence_refused {evidence : Evidence Uuid} (hordered : Ordered boot before)
    (hboot : ∀ found, evidence = .present found → found = boot)
    (hfound : current.artifactBinding = some before) :
    finishArtifactLogicalAbsence caller evidence current ≠ .ok (.write after) := by
  intro h
  simp only [finishArtifactLogicalAbsence, bind_eq_ok, exists_unit, require_eq_ok, expect_eq_ok,
    hfound] at h
  obtain ⟨-, _, hsome, -, -, found, hread, hold, -⟩ := h
  cases hsome
  rw [currentBoot_eq hboot hread, hordered.boot] at hold
  exact hold rfl

theorem finishArtifactCreatePendingAbsence_moves {io : UpdateIo} {key : ManagedKey}
    {evidence : Evidence Uuid} (hordered : Ordered boot before)
    (hfound : current.artifactBinding = some before)
    (h : finishArtifactCreatePendingAbsence caller evidence current = .ok (.write after)) :
    Moves (.updateArtifact io key (.finishArtifactCreatePendingAbsence caller evidence)) before
      after := by
  simp only [finishArtifactCreatePendingAbsence, bind_eq_ok, exists_unit, require_eq_ok, expect_eq_ok,
    hfound, Option.isNone_iff_eq_none] at h
  obtain ⟨-, _, hsome, ⟨-, hdirectory, -, -, hquarantine, -, -, -⟩, found, -, -, h⟩ := h
  cases hsome
  split at h
  · cases h
  cases h
  have hphase : before.creationPhase = some .reserved := by
    have hsome := hordered.valid.phase
    unfold ManagedArtifactBinding.creationPhase at hsome ⊢
    rw [hdirectory] at hsome ⊢
    split at hsome <;> simp_all
  refine ⟨{ Grows.refl before with
    ownershipRemoved := fun _ => rfl, socketRemoved := fun _ => rfl
    runnerRemoved := fun _ => rfl, completed := fun _ => rfl }, ?_, fun _ => hquarantine⟩
  exact .absent rfl hphase hquarantine rfl

/-- **Every step of the cleanup climbs.** -/
theorem CleanupOperation.decide_moves {io : UpdateIo} {key : ManagedKey} {cleanup : CleanupOperation}
    (hordered : Ordered boot before) (hboot : InBoot boot (.updateArtifact io key cleanup))
    (hfound : current.artifactBinding = some before)
    (h : cleanup.decide current = .ok (.write after)) :
    Moves (.updateArtifact io key cleanup) before after := by
  cases cleanup with
  | beginArtifactCleanup _ => exact beginArtifactCleanup_moves hordered hfound h
  | beginArtifactSocketRetirement _ => exact beginArtifactSocketRetirement_moves hordered hfound h
  | finishArtifactSocketRetirement _ => exact finishArtifactSocketRetirement_moves hordered hfound h
  | finishArtifactCleanup _ => exact finishArtifactCleanup_moves hfound h
  | beginArtifactUnlink _ _ => exact beginArtifactUnlink_moves hfound h
  | finishArtifactUnlink _ _ => exact finishArtifactUnlink_moves hordered hfound h
  | finishArtifactLogicalAbsence _ _ =>
    exact absurd h (finishArtifactLogicalAbsence_refused hordered hboot hfound)
  | finishArtifactCreatePendingAbsence _ _ =>
    exact finishArtifactCreatePendingAbsence_moves hordered hfound h

/-- What a step records is missing in its phase. -/
theorem missing_of_phase (binding : ManagedArtifactBinding) :
    (binding.creationPhase = some .reserved → binding.privateDirectory = none) ∧
      (binding.creationPhase = some .runnerCreatePending → binding.runner = none) ∧
      (binding.creationPhase = some .socketCreatePending → binding.socket = none) ∧
      (binding.creationPhase = some .ownerCreatePending → binding.owner = none) := by
  unfold ManagedArtifactBinding.creationPhase
  split <;> simp_all

/-- The steps of the creation leave the cleanup and add to what is recorded. -/
theorem CreationStep.next_moves {step : CreationStep} (hordered : Ordered boot before)
    (hfound : current.artifactBinding = some before) (h : step.next current = .ok after) :
    Moves operation before after := by
  obtain ⟨hdirectory, hrunner, hsocket, howner⟩ := missing_of_phase before
  cases step
  all_goals
    obtain ⟨_, hcreated, hphase, -, rfl⟩ := creationStep_ok h
    rw [hfound] at hcreated
    cases hcreated
    refine ⟨?_, .stays rfl, hordered.quarantined⟩
  case finishArtifactCreation =>
    exact { Grows.refl before with privateDirectory := by simp [hdirectory hphase] }
  case finishArtifactRunner => exact { Grows.refl before with runner := by simp [hrunner hphase] }
  case finishArtifactSocket => exact { Grows.refl before with socket := by simp [hsocket hphase] }
  case finishArtifactOwner => exact { Grows.refl before with owner := by simp [howner hphase] }
  all_goals exact { Grows.refl before with }

end Steps

/-! ### Writes -/

section Records
variable {boot : Uuid} {operation : Operation} {clock : Option ℕ} {exempt : Prop}
  {reg reg' : Registry} {before after : SlotRecord}

/-- What holds of a record on file that has a binding. A record that fails the check of slot records is
that of an intent without an owner. -/
structure Bound (boot : Uuid) (record : SlotRecord) (binding : ManagedArtifactBinding) : Prop where
  ordered : Ordered boot binding
  valid : record.Valid ∨ record.state.isIntent = true

/-- What a write does to the binding of its record. -/
inductive Rewrites (operation : Operation) (before after : SlotRecord) : Prop where
  | unbound (hbefore : before.artifactBinding = none) (hafter : after.artifactBinding = none)
  | binds {binding : ManagedArtifactBinding} (hbefore : before.artifactBinding = none)
      (hstate : before.state.isIntent = true) (hafter : after.artifactBinding = some binding)
      (hrung : rung binding = 0)
  | moves {binding binding' : ManagedArtifactBinding}
      (hbefore : before.artifactBinding = some binding)
      (hafter : after.artifactBinding = some binding')
      (hgeneration : after.generation = before.generation) (hgrows : Grows binding binding')
      (hclimbs : Climbs operation binding binding')
  | drops {binding : ManagedArtifactBinding} (hbefore : before.artifactBinding = some binding)
      (hafter : after.artifactBinding = none) (hstate : before.state.isTombstone = true)
      (hcompleted : binding.cleanupCompleted = true)

/-- The next state of a launch leaves a bound record as it has to be. -/
theorem valid_of_move (hmove : Move clock before after) (hvalid : before.Valid)
    (hkept : after.artifactBinding = before.artifactBinding) {binding : ManagedArtifactBinding}
    (hbound : before.artifactBinding = some binding) :
    after.generation = before.generation ∧ (after.Valid ∨ after.state.isIntent = true) := by
  cases hmove with
  | launch hstate =>
    rw [(hvalid.vacant hstate).2] at hbound
    cases hbound
  | identify hstate | cleanup hstate =>
    refine ⟨rfl, .inl (valid_advance hvalid ?_ ?_)⟩
    · rw [hstate]
      rfl
    · simp [hstate, SlotState.isTombstone]
  | resolve hstate | abandon hstate =>
    refine ⟨rfl, .inl (valid_advance hvalid ?_ fun _ => rfl)⟩
    rw [hstate]
    rfl
  | reclaim hstate hnone =>
    rw [hnone] at hbound
    cases hbound
  | rebind hstate =>
    cases hkept
    exact ⟨rfl, .inl hvalid⟩

theorem bind_rewrites {controlRoot : ManagedDirectoryIdentity} {privateLeaf : Str}
    {binding : ManagedArtifactBinding} (hboot : controlRoot.bootUuid = boot)
    (h : bindArtifact controlRoot privateLeaf before = .ok binding) :
    Rewrites operation before { before with artifactBinding := some binding } ∧
      Ordered boot binding := by
  obtain ⟨hnone, hintent, hvalid, -, hquarantine, -⟩ := bindArtifact_ok h
  simp only [bindArtifact, bind_eq_ok, exists_unit, require_eq_ok] at h
  obtain ⟨-, h⟩ := h
  split at h
  · simp only [bind_eq_ok, exists_unit, pure_eq_ok] at h
    obtain ⟨-, rfl⟩ := h
    exact ⟨.binds hnone hintent rfl rfl, hvalid, fun hremoved => (by cases hremoved), hboot⟩
  · cases h

theorem Moves.rewrites {binding binding' : ManagedArtifactBinding} (hvalid : before.Valid)
    (hkeeps : Keeps before binding binding') (hordered : Ordered boot binding)
    (h : Moves operation binding binding') :
    Rewrites operation before { before with artifactBinding := some binding' } ∧
      Bound boot { before with artifactBinding := some binding' } binding' := by
  refine ⟨.moves hkeeps.found rfl rfl h.grows h.climbs, ⟨hkeeps.valid, h.quarantined, ?_⟩, ?_⟩
  · rw [h.grows.controlRoot, hordered.boot]
  · exact .inl (hkeeps.valid_record hvalid).2

/-- **One write.** -/
theorem Written.rewrites (hboot : InBoot boot operation) (hvalid : before.Valid)
    (hbound : ∀ binding, before.artifactBinding = some binding → Bound boot before binding)
    (h : Written clock exempt (Rebinds operation) reg before after) :
    Rewrites operation before after ∧
      ∀ binding, after.artifactBinding = some binding → Bound boot after binding := by
  rcases h.binding with hkept | hrebinds
  · constructor
    · cases hbinding : before.artifactBinding with
      | none => exact .unbound hbinding (hkept.trans hbinding)
      | some binding =>
        have hgeneration := (valid_of_move h.move hvalid hkept hbinding).1
        exact .moves hbinding (hkept.trans hbinding) hgeneration (.refl binding) (.stays rfl)
    · intro binding hbinding
      have hbefore := hkept.symm.trans hbinding
      exact ⟨(hbound binding hbefore).ordered, (valid_of_move h.move hvalid hkept hbefore).2⟩
  cases hrebinds with
  | create hbind =>
    obtain ⟨hrewrites, hordered⟩ := bind_rewrites hboot hbind
    refine ⟨hrewrites, fun binding hbinding => ?_⟩
    cases hbinding
    exact ⟨hordered, .inr (bindArtifact_ok hbind).2.1⟩
  | advance hargument hnext =>
    obtain ⟨created, hkeeps⟩ := CreationStep.next_keeps hargument hvalid hnext
    have hordered := (hbound created hkeeps.found).ordered
    obtain ⟨hrewrites, hafter⟩ :=
      (CreationStep.next_moves hordered hkeeps.found hnext).rewrites hvalid hkeeps hordered
    refine ⟨hrewrites, fun binding hbinding => ?_⟩
    cases hbinding
    exact hafter
  | update hdecide =>
    obtain ⟨authoritative, hkeeps⟩ := CleanupOperation.decide_keeps hvalid hdecide
    have hordered := (hbound authoritative hkeeps.found).ordered
    obtain ⟨hrewrites, hafter⟩ :=
      (CleanupOperation.decide_moves hordered hboot hkeeps.found hdecide).rewrites hvalid hkeeps
        hordered
    refine ⟨hrewrites, fun binding hbinding => ?_⟩
    cases hbinding
    exact hafter
  | acknowledge hstate hfound hcompleted =>
    refine ⟨.drops hfound rfl hstate hcompleted, fun binding hbinding => ?_⟩
    cases hbinding

/-! ### Runs -/

/-- A replacement that reaches a milestone. -/
def Makes (w : Replacement) (milestone : Milestone) : Prop :=
  ∃ binding binding', w.before.artifactBinding = some binding ∧
    w.after.artifactBinding = some binding' ∧ Reaches binding binding' milestone

/-- Among the replacements `replaced`, the latest first, there are those that reached the milestones
`reached`, in their order, in the slot and the generation of the record. -/
def Achieved (replaced : List Replacement) (record : SlotRecord) (reached : List Milestone) : Prop :=
  ∃ made : List Replacement, made.Sublist replaced.reverse ∧
    (∀ w ∈ made, w.before.slot = record.slot ∧ w.before.generation = record.generation) ∧
    List.Forall₂ Makes made reached

theorem Achieved.cons {replaced : List Replacement} {record : SlotRecord} {reached : List Milestone}
    (h : Achieved replaced record reached) (w : Replacement) :
    Achieved (w :: replaced) record reached := by
  obtain ⟨made, hsub, hsame, hmakes⟩ := h
  refine ⟨made, ?_, hsame, hmakes⟩
  rw [List.reverse_cons]
  exact hsub.trans (List.sublist_append_left ..)

theorem Achieved.snoc {replaced : List Replacement} {w : Replacement} {reached : List Milestone}
    {milestone : Milestone} (h : Achieved replaced w.before reached) (hmakes : Makes w milestone) :
    Achieved (w :: replaced) w.before (reached ++ [milestone]) := by
  obtain ⟨made, hsub, hsame, hmade⟩ := h
  refine ⟨made ++ [w], ?_, ?_, List.rel_append hmade (.cons hmakes .nil)⟩
  · rw [List.reverse_cons]
    exact hsub.append (List.Sublist.refl _)
  · intro w' hw'
    rcases List.mem_append.mp hw' with hw' | hw'
    · exact hsame w' hw'
    · rw [List.mem_singleton.mp hw']
      exact ⟨rfl, rfl⟩

/-- What holds in every registry of the boot: bindings are in order, and the milestones below the rung
of a cleanup are among the replacements. -/
def Laddered (boot : Uuid) (reg : Registry) : Prop :=
  ∀ slot record binding, reg.file slot = .record record → record.artifactBinding = some binding →
    Bound boot record binding ∧ record.slot = slot ∧
      (rung binding < 9 → Achieved reg.replaced record (milestones.take (rung binding)))

/-- What a write of an operation does, after the replacements `earlier`. -/
structure Ascends (operation : Operation) (earlier : List Replacement) (w : Replacement) : Prop where
  rewrites : Rewrites operation w.before w.after
  completes : ∀ binding binding', w.before.artifactBinding = some binding →
    w.after.artifactBinding = some binding' → binding.cleanupCompleted = false →
    binding'.cleanupCompleted = true →
    (∃ io key caller, operation = .updateArtifact io key (.finishArtifactCleanup caller) ∧
        Achieved earlier w.before milestones) ∨
      ∃ io key caller evidence,
        operation = .updateArtifact io key (.finishArtifactCreatePendingAbsence caller evidence) ∧
          binding.creationPhase = some .reserved ∧ binding.cleanupQuarantine.isSome

theorem rung_lt_nine {binding : ManagedArtifactBinding} :
    rung binding < 9 ↔ binding.cleanupCompleted = false := by
  have hreceipts : receipts binding ≤ 3 := by
    have h1 := Bool.toNat_le binding.cleanupOwnershipRemoved
    have h2 := Bool.toNat_le binding.cleanupSocketRemoved
    have h3 := Bool.toNat_le binding.cleanupRunnerRemoved
    unfold receipts
    omega
  have hpending := Bool.toNat_le binding.cleanupUnlinkPending.isSome
  unfold rung
  split_ifs with hcompleted
  · simp [hcompleted]
  · simp only [hcompleted, iff_true]
    omega
  · simp [hcompleted]

theorem Climbs.completes_of_rung {binding binding' : ManagedArtifactBinding} {earlier : List Replacement}
    (hclimbs : Climbs operation binding binding') (hopen : rung binding < 9)
    (hcompleted : ¬rung binding' < 9)
    (hachieved : Achieved earlier before (milestones.take (rung binding))) :
    (∃ io key caller, operation = .updateArtifact io key (.finishArtifactCleanup caller) ∧
        Achieved earlier before milestones) ∨
      ∃ io key caller evidence,
        operation = .updateArtifact io key (.finishArtifactCreatePendingAbsence caller evidence) ∧
          binding.creationPhase = some .reserved ∧ binding.cleanupQuarantine.isSome := by
  cases hclimbs with
  | stays h => omega
  | climbs hnext hreaches h =>
    -- there is no milestone after the directory's intent
    have hlt : rung binding < milestones.length := (List.getElem?_eq_some_iff.mp hnext).1
    have hlength : milestones.length = 8 := rfl
    omega
  | completes hoperation hbefore h =>
    rw [hbefore] at hachieved
    exact .inl ⟨_, _, _, hoperation, hachieved⟩
  | absent hoperation hphase hquarantine h =>
    exact .inr ⟨_, _, _, _, hoperation, hphase, hquarantine⟩

theorem Climbs.achieved {w : Replacement} {binding binding' : ManagedArtifactBinding}
    {earlier : List Replacement} (hbefore : w.before.artifactBinding = some binding)
    (hafter : w.after.artifactBinding = some binding')
    (hclimbs : Climbs operation binding binding') (hopen : rung binding' < 9)
    (hachieved : rung binding < 9 → Achieved earlier w.before (milestones.take (rung binding))) :
    Achieved (w :: earlier) w.before (milestones.take (rung binding')) := by
  cases hclimbs with
  | stays h =>
    rw [h] at hopen ⊢
    exact (hachieved hopen).cons w
  | @climbs milestone hnext hreaches h =>
    rw [h, List.take_add_one, hnext]
    exact (hachieved (by omega)).snoc ⟨binding, binding', hbefore, hafter, hreaches⟩
  | completes hoperation hrung h => omega
  | absent hoperation hphase hquarantine h => omega

/-- **One write**, in a registry where the bindings are in order. -/
theorem Laddered.install (hladdered : Laddered boot reg) (hboot : InBoot boot operation)
    (hfile : reg.file before.slot = .record before) (hvalid : before.Valid)
    (hslot : after.slot = before.slot)
    (hw : Written clock exempt (Rebinds operation) reg before after) :
    Ascends operation reg.replaced ⟨before, after⟩ ∧ Laddered boot (reg.install before after) := by
  have hbound : ∀ binding, before.artifactBinding = some binding → Bound boot before binding :=
    fun binding hbinding => (hladdered _ _ _ hfile hbinding).1
  obtain ⟨hrewrites, hafter⟩ := Written.rewrites hboot hvalid hbound hw
  refine ⟨⟨hrewrites, fun binding binding' hb hb' hopen hcompleted => ?_⟩, ?_⟩
  · have hachieved := (hladdered _ _ _ hfile hb).2.2
    have hlt := rung_lt_nine.mpr hopen
    have hdone : ¬rung binding' < 9 := by simp [rung_lt_nine, hcompleted]
    cases hrewrites with
    | unbound h _ | binds h => simp [h] at hb
    | drops _ h => simp [h] at hb'
    | moves h h' _ _ hclimbs =>
      cases h.symm.trans hb
      cases h'.symm.trans hb'
      exact hclimbs.completes_of_rung hlt hdone (hachieved hlt)
  · intro slot record binding hrecord hbinding
    by_cases hs : slot = before.slot
    · subst hs
      rw [file_install_self hfile] at hrecord
      cases hrecord
      refine ⟨hafter binding hbinding, hslot, fun hlt => ?_⟩
      cases hrewrites with
      | unbound _ h | drops _ h => simp [h] at hbinding
      | binds _ _ h hrung =>
        cases h.symm.trans hbinding
        rw [hrung]
        exact ⟨[], List.nil_sublist _, by simp, .nil⟩
      | moves h h' hgeneration _ hclimbs =>
        cases h'.symm.trans hbinding
        have hachieved := (hladdered _ _ _ hfile h).2.2
        obtain ⟨made, hsub, hsame, hmade⟩ := hclimbs.achieved (w := ⟨before, after⟩) h h' hlt hachieved
        refine ⟨made, hsub, fun w hw => ?_, hmade⟩
        rw [hslot, hgeneration]
        exact hsame w hw
    · rw [file_install_of_ne hs] at hrecord
      obtain ⟨hb, hslot', hachieved⟩ := hladdered _ _ _ hrecord hbinding
      exact ⟨hb, hslot', fun hlt => (hachieved hlt).cons _⟩

/-- **One operation.** -/
theorem Effects.ascends (hboot : InBoot boot operation) (hladdered : Laddered boot reg)
    (h : Effects (Written clock exempt (Rebinds operation)) reg reg') :
    Laddered boot reg' ∧ ∃ made, reg'.replaced = made ++ reg.replaced ∧
      ∀ later w earlier, made = later ++ w :: earlier →
        Ascends operation (earlier ++ reg.replaced) w := by
  induction h with
  | refl => exact ⟨hladdered, [], rfl, fun later w earlier heq => by simp at heq⟩
  | registered _ _ _ ih => exact ih
  | @replaced reg₁ _ before after hfile hvalid hslot hw ih =>
    obtain ⟨hladdered₁, made, hmade, hascends⟩ := ih
    obtain ⟨hwrite, hinstalled⟩ := hladdered₁.install hboot hfile hvalid hslot hw
    refine ⟨hinstalled, ⟨before, after⟩ :: made, ?_, fun later w earlier heq => ?_⟩
    · show ⟨before, after⟩ :: reg₁.replaced = _
      rw [hmade]
      rfl
    · rcases later with _ | ⟨w', later⟩
      · cases heq
        rw [← hmade]
        exact hwrite
      · cases heq
        exact hascends later w earlier rfl

/-- What a record of a slot and a later one of the same generation have to do with each other: the
binding grows or is dropped, and one that was dropped does not come back. -/
structure Retains (r r' : SlotRecord) : Prop where
  follows : Follows r r'
  binding : r'.generation = r.generation → ∀ binding, r.artifactBinding = some binding →
    (∃ binding', r'.artifactBinding = some binding' ∧ Grows binding binding') ∨
      (r'.artifactBinding = none ∧ 3 ≤ stage r'.state)
  dropped : r'.generation = r.generation → r.artifactBinding = none → 3 ≤ stage r.state →
    r'.artifactBinding = none

theorem Retains.refl (r : SlotRecord) : Retains r r :=
  ⟨.refl r, fun _ binding hb => .inl ⟨binding, hb, .refl binding⟩, fun _ h _ => h⟩

theorem Retains.trans {a b c : SlotRecord} (h : Retains a b) (h' : Retains b c) : Retains a c := by
  have hsame : c.generation = a.generation → b.generation = a.generation ∧
      c.generation = b.generation := by
    intro heq
    have hab := h.follows.generation
    have hbc := h'.follows.generation
    omega
  refine ⟨h.follows.trans h'.follows, fun heq binding hbinding => ?_, fun heq hnone hstage => ?_⟩
  all_goals obtain ⟨hab, hbc⟩ := hsame heq
  · rcases h.binding hab binding hbinding with ⟨binding', hbinding', hgrows⟩ | ⟨hnone, hstage⟩
    · refine (h'.binding hbc binding' hbinding').imp_left ?_
      rintro ⟨binding'', hbinding'', hgrows'⟩
      exact ⟨binding'', hbinding'', hgrows.trans hgrows'⟩
    · exact .inr ⟨h'.dropped hbc hnone hstage, hstage.trans (h'.follows.stage hbc)⟩
  · exact h'.dropped hbc (h.dropped hab hnone hstage) (hstage.trans (h.follows.stage hab))

theorem Rewrites.retains (h : Rewrites operation before after) (hfollows : Follows before after) :
    Retains before after := by
  refine ⟨hfollows, fun hgeneration binding hbinding => ?_, fun _ hnone hstage => ?_⟩
  · cases h with
    | unbound hbefore | binds hbefore => simp [hbefore] at hbinding
    | moves hbefore hafter _ hgrows _ =>
      cases hbefore.symm.trans hbinding
      exact .inl ⟨_, hafter, hgrows⟩
    | drops _ hafter hstate _ =>
      refine .inr ⟨hafter, le_trans ?_ (hfollows.stage hgeneration)⟩
      cases hbefore : before.state <;> simp_all [SlotState.isTombstone, stage]
  · cases h with
    | unbound _ hafter | drops _ hafter => exact hafter
    | binds _ hstate =>
      cases hbefore : before.state <;> simp_all [SlotState.isIntent, stage]
    | moves hbefore => simp [hbefore] at hnone

theorem Effects.retains (hboot : InBoot boot operation) (hladdered : Laddered boot reg)
    (h : Effects (Written clock exempt (Rebinds operation)) reg reg') {slot : ℕ} {r : SlotRecord}
    (hr : reg.file slot = .record r) : ∃ r', reg'.file slot = .record r' ∧ Retains r r' := by
  induction h with
  | refl => exact ⟨r, hr, .refl r⟩
  | registered _ _ _ ih => exact ih
  | @replaced reg₁ heffects before after hfile hvalid hslot hw ih =>
    obtain ⟨r₁, hr₁, hretains⟩ := ih
    by_cases hs : slot = before.slot
    · subst hs
      rw [hfile] at hr₁
      cases hr₁
      have hladdered₁ := (Effects.ascends hboot hladdered heffects).1
      have hwrite := (hladdered₁.install hboot hfile hvalid hslot hw).1
      have hfollows : Follows before after := Move.follows hw.move
      exact ⟨after, file_install_self hfile, hretains.trans (hwrite.rewrites.retains hfollows)⟩
    · exact ⟨r₁, (file_install_of_ne hs).trans hr₁, hretains⟩

end Records

section Runs
variable {boot : Uuid} {reg : Registry}

theorem run_laddered : ∀ (operations : List Operation) (reg : Registry),
    (∀ operation ∈ operations, InBoot boot operation) → Laddered boot reg →
      Laddered boot (run reg operations)
  | [], _, _, h => h
  | operation :: rest, reg, hboot, h => by
    rw [List.forall_mem_cons] at hboot
    exact run_laddered rest _ hboot.2 (Effects.ascends hboot.1 h (step_written reg operation)).1

/-- The record of a slot after a run retains what it was before. -/
theorem run_retains {slot : ℕ} {r : SlotRecord} : ∀ (operations : List Operation) (reg : Registry),
    (∀ operation ∈ operations, InBoot boot operation) → Laddered boot reg →
      reg.file slot = .record r →
      ∃ r', (run reg operations).file slot = .record r' ∧ Retains r r'
  | [], _, _, _, hr => ⟨r, hr, .refl r⟩
  | operation :: rest, reg, hboot, h, hr => by
    rw [List.forall_mem_cons] at hboot
    have hwritten := step_written reg operation
    obtain ⟨r₁, hr₁, hretains⟩ := Effects.retains hboot.1 h hwritten hr
    have hladdered := (Effects.ascends hboot.1 h hwritten).1
    obtain ⟨r', hr', hretains'⟩ := run_retains rest _ hboot.2 hladdered hr₁
    exact ⟨r', hr', hretains.trans hretains'⟩

/-- No slot has a binding. -/
def Unbound (reg : Registry) : Prop :=
  ∀ slot record, reg.file slot = .record record → record.artifactBinding = none

theorem Unbound.laddered (h : Unbound reg) : Laddered boot reg := by
  intro slot record binding hrecord hbinding
  rw [h slot record hrecord] at hbinding
  cases hbinding

theorem unbound_genesis (slotsPath : String) (slotCount : ℕ) :
    Unbound (genesis slotsPath slotCount) := by
  intro slot record hrecord
  rw [file_eq_record] at hrecord
  simp only [genesis, List.getElem?_map, Option.map_eq_some_iff] at hrecord
  obtain ⟨_, -, hrecord⟩ := hrecord
  cases hrecord
  rfl

end Runs

end LightTerminal.LaunchRegistry.Ladder
