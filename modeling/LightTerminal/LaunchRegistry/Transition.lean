import LightTerminal.LaunchRegistry.Record

/-! # Transitions of a slot record

`validate_transition`, the check `replace_slot` makes before it renames the next record over the
current one. The ways in which a binding may change are named as the source names them; `current` is
the record, `before` and `after` are the bindings. -/

namespace LightTerminal.LaunchRegistry.Transition

open LightTerminal.Data.Text LightTerminal.Library.Procedure LightTerminal.LaunchRegistry.Record

section Binding
variable (current : SlotRecord) (before after : ManagedArtifactBinding)

/-- `same_artifact_identity`. -/
def sameArtifactIdentity : Bool :=
  before.nonce == after.nonce && before.controlRoot == after.controlRoot &&
    before.privateLeaf == after.privateLeaf

/-- `creation_progress`. -/
def creationProgress : Bool :=
  current.state.isIntent && before.cleanupQuarantine.isNone && after.cleanupQuarantine.isNone &&
    before.cleanupUnlinkPending.isNone && after.cleanupUnlinkPending.isNone &&
    !before.cleanupOwnershipRemoved && !after.cleanupOwnershipRemoved &&
    !before.cleanupSocketRemoved && !after.cleanupSocketRemoved && !before.cleanupRunnerRemoved &&
    !after.cleanupRunnerRemoved && !before.cleanupCompleted && !after.cleanupCompleted &&
    !before.socketRetirePending && !after.socketRetirePending && !before.socketRetired &&
    !after.socketRetired && before.creationProgressesTo after

/-- The cleanup is where it was: common to the two steps of a socket's retirement. -/
def cleanupUnchanged : Bool :=
  before.cleanupUnlinkPending == after.cleanupUnlinkPending &&
    before.cleanupOwnershipRemoved == after.cleanupOwnershipRemoved &&
    before.cleanupSocketRemoved == after.cleanupSocketRemoved &&
    before.cleanupRunnerRemoved == after.cleanupRunnerRemoved &&
    before.cleanupCompleted == after.cleanupCompleted

/-- `socket_retire_intent`. -/
def socketRetireIntent : Bool :=
  before.sameArtifact after && before.cleanupQuarantine.isNone && after.cleanupQuarantine.isNone &&
    !before.socketRetirePending && after.socketRetirePending && !before.socketRetired &&
    !after.socketRetired && cleanupUnchanged before after

/-- `socket_retire_receipt`. -/
def socketRetireReceipt : Bool :=
  before.sameArtifact after && before.cleanupQuarantine.isNone && after.cleanupQuarantine.isNone &&
    before.socketRetirePending && !after.socketRetirePending && !before.socketRetired &&
    after.socketRetired && cleanupUnchanged before after

/-- `socket_retirement_unchanged`. -/
def socketRetirementUnchanged : Bool :=
  before.socketRetirePending == after.socketRetirePending &&
    before.socketRetired == after.socketRetired

/-- `cleanup_progress`. -/
def cleanupProgress : Bool :=
  current.state.isTombstone && before.privateDirectory == after.privateDirectory &&
    before.runner == after.runner && before.socket == after.socket && before.owner == after.owner &&
    before.runnerCreatePending == after.runnerCreatePending &&
    before.socketCreatePending == after.socketCreatePending &&
    before.ownerCreatePending == after.ownerCreatePending && before.cleanupQuarantine.isNone &&
    after.cleanupQuarantine.isSome && before.cleanupUnlinkPending.isNone &&
    after.cleanupUnlinkPending.isNone && !before.cleanupOwnershipRemoved &&
    !after.cleanupOwnershipRemoved && !before.cleanupSocketRemoved && !after.cleanupSocketRemoved &&
    !before.cleanupRunnerRemoved && !after.cleanupRunnerRemoved && !before.cleanupCompleted &&
    !after.cleanupCompleted

/-- Common to the steps of the cleanup in a quarantine. -/
def inQuarantine : Bool :=
  current.state.isTombstone && before.sameArtifact after &&
    before.cleanupQuarantine == after.cleanupQuarantine && before.cleanupQuarantine.isSome

/-- `cleanup_step_intent`. -/
def cleanupStepIntent : Bool :=
  inQuarantine current before after && !before.cleanupCompleted && !after.cleanupCompleted &&
    before.cleanupUnlinkPending.isNone && after.cleanupUnlinkPending.isSome &&
    before.cleanupOwnershipRemoved == after.cleanupOwnershipRemoved &&
    before.cleanupSocketRemoved == after.cleanupSocketRemoved &&
    before.cleanupRunnerRemoved == after.cleanupRunnerRemoved

/-- The `matches!` of `cleanup_step_receipt`. -/
def receiptInOrder : Bool :=
  match before.cleanupUnlinkPending, before.cleanupOwnershipRemoved, before.cleanupSocketRemoved,
      before.cleanupRunnerRemoved, after.cleanupOwnershipRemoved, after.cleanupSocketRemoved,
      after.cleanupRunnerRemoved with
  | some .ownership, false, false, false, true, false, false => true
  | some .socket, true, false, false, true, true, false => true
  | some .runner, true, true, false, true, true, true => true
  | _, _, _, _, _, _, _ => false

/-- `cleanup_step_receipt`. -/
def cleanupStepReceipt : Bool :=
  inQuarantine current before after && !before.cleanupCompleted && !after.cleanupCompleted &&
    before.cleanupUnlinkPending.isSome && after.cleanupUnlinkPending.isNone &&
    receiptInOrder before after

/-- `cleanup_completion`. -/
def cleanupCompletion : Bool :=
  inQuarantine current before after && before.cleanupOwnershipRemoved &&
    before.cleanupSocketRemoved && before.cleanupRunnerRemoved && after.cleanupOwnershipRemoved &&
    after.cleanupSocketRemoved && after.cleanupRunnerRemoved &&
    before.cleanupUnlinkPending == some .directory && after.cleanupUnlinkPending.isNone &&
    !before.cleanupCompleted && after.cleanupCompleted

/-- `logical_absence_completion`. -/
def logicalAbsenceCompletion : Bool :=
  inQuarantine current before after && before.cleanupUnlinkPending.isNone &&
    !before.cleanupOwnershipRemoved && !before.cleanupSocketRemoved && !before.cleanupRunnerRemoved &&
    !before.cleanupCompleted && after.cleanupUnlinkPending.isNone && after.cleanupOwnershipRemoved &&
    after.cleanupSocketRemoved && after.cleanupRunnerRemoved && after.cleanupCompleted

/-- `old_boot_logical_absence_completion`. -/
def oldBootLogicalAbsenceCompletion : Bool :=
  current.state.isTombstone && before.sameArtifact after && after.cleanupQuarantine.isSome &&
    after.cleanupUnlinkPending.isNone && !after.socketRetirePending &&
    after.socketRetired == (before.socketRetired || before.socket.isSome) &&
    after.cleanupOwnershipRemoved && after.cleanupSocketRemoved && after.cleanupRunnerRemoved &&
    !before.cleanupCompleted && after.cleanupCompleted

end Binding

/-- The `match` of `binding_update`. -/
def bindingMoves (current next : SlotRecord) : Bool :=
  match current.artifactBinding, next.artifactBinding with
  | none, some _ => current.state.isIntent
  | some before, some after =>
    sameArtifactIdentity before after &&
      (creationProgress current before after || socketRetireIntent before after ||
        socketRetireReceipt before after || oldBootLogicalAbsenceCompletion current before after ||
        (socketRetirementUnchanged before after &&
          (cleanupProgress current before after || cleanupStepIntent current before after ||
            cleanupStepReceipt current before after || cleanupCompletion current before after ||
            logicalAbsenceCompletion current before after)))
  | some before, none =>
    current.state.isTombstone && before.cleanupQuarantine.isSome && before.cleanupCompleted
  | none, none => false

/-- `binding_update`: nothing but the binding changes. -/
def bindingUpdate (current next : SlotRecord) : Bool :=
  { current with artifactBinding := next.artifactBinding } == next && bindingMoves current next

/-- `u64::checked_add` of one. -/
def checkedSucc (n : ℕ) : Option ℕ := if n + 1 < 2 ^ 64 then some (n + 1) else none

/-- The `match` of `legal`. -/
def stateMoves (current next : SlotRecord) : Bool :=
  match current.state, next.state with
  | .vacant, .intentDurable _ _ => checkedSucc current.generation == some next.generation
  | .intentDurable a _, .identityDurable b _ _ => current.generation == next.generation && a == b
  | .identityDurable a _ _, .cleanupPending b _ _ => current.generation == next.generation && a == b
  | .cleanupPending a _ _, .resolvedTombstone b _ _ =>
    current.generation == next.generation && a == b
  | .intentDurable a _, .resolvedTombstone b _ _ => current.generation == next.generation && a == b
  | .resolvedTombstone _ _ _, .vacant =>
    current.generation == next.generation && current.artifactBinding.isNone && next.owner.isNone &&
      next.artifactBinding.isNone
  | _, _ => current == next

/-- `owner_stable`, with the check of a new owner. -/
def ownerStable (current next : SlotRecord) : Result Bool :=
  match current.state, next.state with
  | .vacant, .intentDurable _ _ => do
    optional ManagedOwnerTag.validate next.owner
    return true
  | .resolvedTombstone _ _ _, .vacant => .ok next.owner.isNone
  | _, _ => .ok (current.owner == next.owner)

/-- `validate_transition`. -/
def validateTransition (current next : SlotRecord) : Result Unit := do
  ensure (current.schemaVersion = slotSchemaVersion)
    "Condition failed: `current.schema_version == SLOT_SCHEMA_VERSION`"
  ensure (next.schemaVersion = slotSchemaVersion)
    "Condition failed: `next.schema_version == SLOT_SCHEMA_VERSION`"
  ensure (current.slot = next.slot) "Condition failed: `current.slot == next.slot`"
  let stable ← ownerStable current next
  ensure stable "managed owner changed across slot transition"
  ensure (bindingUpdate current next ∨ current.artifactBinding = next.artifactBinding)
    "managed artifact binding changed across slot transition"
  ensure (bindingUpdate current next ∨ stateMoves current next)
    "illegal managed registry state transition"

/-- An accepted transition stays in its slot. -/
theorem slot_eq_of_validateTransition {current next : SlotRecord}
    (h : validateTransition current next = .ok ()) : next.slot = current.slot := by
  simp only [validateTransition, bind_eq_ok, exists_unit, require_eq_ok] at h
  exact h.2.2.1.symm

/-- The first binding of an intent is accepted, whoever owns the slot. -/
theorem validateTransition_bind {record : SlotRecord} {binding : ManagedArtifactBinding}
    (hschema : record.schemaVersion = slotSchemaVersion) (hintent : record.state.isIntent = true)
    (hunbound : record.artifactBinding = none) :
    validateTransition record { record with artifactBinding := some binding } = .ok () := by
  have hupdate : bindingUpdate record { record with artifactBinding := some binding } = true := by
    simp [bindingUpdate, bindingMoves, hunbound, hintent]
  have hstable : ownerStable record { record with artifactBinding := some binding } = .ok true := by
    cases hstate : record.state <;> simp_all [ownerStable, SlotState.isIntent]
  simp only [validateTransition, bind_eq_ok, exists_unit, require_eq_ok]
  exact ⟨hschema, hschema, trivial, true, hstable, rfl, .inl hupdate, .inl hupdate⟩

end LightTerminal.LaunchRegistry.Transition
