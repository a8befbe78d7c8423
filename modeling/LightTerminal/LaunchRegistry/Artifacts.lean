import LightTerminal.LaunchRegistry.Record

/-! # The steps of an artifact binding

What each step makes of the binding of a slot, as a function of the record it finds. The creation
steps are those of `ManagedLaunchReservation`, on the record the reservation holds; the cleanup steps
are those of `Registry`, on the record in the slot file. -/

namespace LightTerminal.LaunchRegistry.Artifacts

open LightTerminal.Data.Text LightTerminal.Library.Procedure LightTerminal.LaunchRegistry.Record

/-- `Evidence`. -/
inductive Evidence (α : Type) where
  | present (value : α)
  | absent
  | unavailable (reason : String)
  deriving DecidableEq, Repr

/-! ### Creation -/

/-- The binding of `begin_artifact_creation`: reserved, nothing created. -/
def reservedBinding (nonce : Uuid) (controlRoot : ManagedDirectoryIdentity) (privateLeaf : Str) :
    ManagedArtifactBinding :=
  { nonce, controlRoot, privateLeaf, privateDirectory := none, runner := none, socket := none,
    owner := none, runnerCreatePending := false, socketCreatePending := false,
    ownerCreatePending := false, cleanupQuarantine := none, cleanupUnlinkPending := none,
    socketRetirePending := false, socketRetired := false, cleanupOwnershipRemoved := false,
    cleanupSocketRemoved := false, cleanupRunnerRemoved := false, cleanupCompleted := false }

/-- What `begin_artifact_creation` makes of the record of an intent. -/
def bindArtifact (controlRoot : ManagedDirectoryIdentity) (privateLeaf : Str) (record : SlotRecord) :
    Result ManagedArtifactBinding := do
  ensure record.artifactBinding.isNone "managed launch reservation already has an artifact binding"
  match record.state with
  | .intentDurable nonce _ =>
    let binding := reservedBinding nonce controlRoot privateLeaf
    binding.validate
    return binding
  | _ => throw (.error "managed artifact binding requires an intent reservation")

/-- A step of the creation: in its phase the binding is changed by `update`; some of the steps also
check the binding they write. -/
def creationStep (phase : ManagedArtifactCreationPhase) (outOfOrder : String) (checked : Bool)
    (update : ManagedArtifactBinding → ManagedArtifactBinding) (record : SlotRecord) :
    Result ManagedArtifactBinding := do
  let created ← context record.artifactBinding "managed artifact creation was not begun"
  ensure (created.creationPhase = some phase) outOfOrder
  if checked then (update created).validate
  return update created

/-- `finish_artifact_creation`, on the record of the reservation, as the steps after it. -/
def finishArtifactCreation (privateDirectory : ManagedDirectoryIdentity) :
    SlotRecord → Result ManagedArtifactBinding :=
  creationStep .reserved "managed artifact directory creation is out of order" false
    fun pending => { pending with privateDirectory := some privateDirectory }

/-- `begin_artifact_runner_creation`. -/
def beginArtifactRunnerCreation : SlotRecord → Result ManagedArtifactBinding :=
  creationStep .directoryCreated "managed runner creation is out of order" true
    fun created => { created with runnerCreatePending := true }

/-- `finish_artifact_runner`. -/
def finishArtifactRunner (runner : ManagedArtifactIdentity) :
    SlotRecord → Result ManagedArtifactBinding :=
  creationStep .runnerCreatePending "managed runner creation was not durably begun" false
    fun created => { created with runner := some runner, runnerCreatePending := false }

/-- `begin_artifact_socket_creation`. -/
def beginArtifactSocketCreation : SlotRecord → Result ManagedArtifactBinding :=
  creationStep .runnerCreated "managed socket creation is out of order" true
    fun created => { created with socketCreatePending := true }

/-- `finish_artifact_socket`. -/
def finishArtifactSocket (socket : ManagedArtifactIdentity) :
    SlotRecord → Result ManagedArtifactBinding :=
  creationStep .socketCreatePending "managed socket creation was not durably begun" false
    fun created => { created with socket := some socket, socketCreatePending := false }

/-- `begin_artifact_owner_creation`. -/
def beginArtifactOwnerCreation : SlotRecord → Result ManagedArtifactBinding :=
  creationStep .socketCreated "managed owner creation is out of order" true
    fun created => { created with ownerCreatePending := true }

/-- `finish_artifact_owner`. -/
def finishArtifactOwner (owner : ManagedArtifactIdentity) :
    SlotRecord → Result ManagedArtifactBinding :=
  creationStep .ownerCreatePending "managed owner creation was not durably begun" true
    fun created => { created with owner := some owner, ownerCreatePending := false }

/-- The steps after `begin_artifact_creation`. -/
inductive CreationStep where
  | finishArtifactCreation (privateDirectory : ManagedDirectoryIdentity)
  | beginArtifactRunnerCreation
  | finishArtifactRunner (runner : ManagedArtifactIdentity)
  | beginArtifactSocketCreation
  | finishArtifactSocket (socket : ManagedArtifactIdentity)
  | beginArtifactOwnerCreation
  | finishArtifactOwner (owner : ManagedArtifactIdentity)

/-- The check of its argument that a step makes first. -/
def CreationStep.validate : CreationStep → Result Unit
  | .finishArtifactCreation privateDirectory => privateDirectory.validate
  | .finishArtifactRunner runner => runner.validate
  | .finishArtifactSocket socket => socket.validate
  | .finishArtifactOwner owner => owner.validate
  | _ => .ok ()

/-- What a step makes of the record. -/
def CreationStep.next : CreationStep → SlotRecord → Result ManagedArtifactBinding
  | .finishArtifactCreation privateDirectory => Artifacts.finishArtifactCreation privateDirectory
  | .beginArtifactRunnerCreation => Artifacts.beginArtifactRunnerCreation
  | .finishArtifactRunner runner => Artifacts.finishArtifactRunner runner
  | .beginArtifactSocketCreation => Artifacts.beginArtifactSocketCreation
  | .finishArtifactSocket socket => Artifacts.finishArtifactSocket socket
  | .beginArtifactOwnerCreation => Artifacts.beginArtifactOwnerCreation
  | .finishArtifactOwner owner => Artifacts.finishArtifactOwner owner

/-! ### Retirement and cleanup -/

/-- What a step of the cleanup decides: the binding is as it should be already, or is replaced. -/
inductive Decision where
  | keep (binding : ManagedArtifactBinding)
  | write (binding : ManagedArtifactBinding)

/-- The name of the quarantine directory. -/
def cleanupQuarantineName (binding : ManagedArtifactBinding) : Str :=
  '.' :: binding.privateLeaf ++ ".cleanup-".toList ++ Uuid.simple binding.nonce

/-- `begin_artifact_cleanup`. -/
def beginArtifactCleanup (binding : ManagedArtifactBinding) (current : SlotRecord) : Result Decision := do
  ensure current.state.isTombstone "managed artifact cleanup requires a resolved process tombstone"
  let authoritative ← context current.artifactBinding "managed artifact cleanup binding is absent"
  ensure (authoritative.socketRetirePending = false) "managed socket retirement is unresolved"
  ensure (authoritative.creationPending = false) "managed artifact creation is unresolved"
  ensure (authoritative.sameArtifact binding) "managed artifact cleanup binding mismatch"
  if authoritative.cleanupQuarantine.isSome then return .keep authoritative
  let quarantine := cleanupQuarantineName authoritative
  validateManagedArtifactLeaf quarantine
  return .write { authoritative with cleanupQuarantine := some quarantine, cleanupCompleted := false }

/-- `begin_artifact_socket_retirement`. -/
def beginArtifactSocketRetirement (binding : ManagedArtifactBinding) (current : SlotRecord) :
    Result Decision := do
  ensure current.state.isIdentity "managed socket retirement requires a live identity"
  let authoritative ← context current.artifactBinding "managed socket binding is absent"
  ensure (authoritative.creationPending = false ∧ authoritative.owner.isSome)
    "managed artifact creation is unresolved"
  ensure (authoritative.sameArtifact binding ∧ authoritative.cleanupQuarantine.isNone ∧
    authoritative.socket.isSome) "managed socket retirement binding mismatch"
  if authoritative.socketRetired || authoritative.socketRetirePending then
    return .keep authoritative
  return .write { authoritative with socketRetirePending := true }

/-- `finish_artifact_socket_retirement`. -/
def finishArtifactSocketRetirement (binding : ManagedArtifactBinding) (current : SlotRecord) :
    Result Decision := do
  let authoritative ← context current.artifactBinding "managed socket binding is absent"
  ensure (authoritative.sameArtifact binding ∧ authoritative.cleanupQuarantine.isNone)
    "managed socket retirement receipt mismatch"
  if authoritative.socketRetired then return .keep authoritative
  ensure authoritative.socketRetirePending "managed socket retirement receipt lacks durable intent"
  return .write { authoritative with socketRetirePending := false, socketRetired := true }

/-- `finish_artifact_cleanup`. -/
def finishArtifactCleanup (binding : ManagedArtifactBinding) (current : SlotRecord) : Result Decision := do
  ensure current.state.isTombstone
    "managed artifact completion requires a resolved process tombstone"
  let authoritative ← context current.artifactBinding
    "managed artifact completion binding is absent"
  ensure (authoritative.sameArtifact binding) "managed artifact completion binding mismatch"
  if authoritative.cleanupCompleted then return .keep authoritative
  ensure (authoritative.cleanupQuarantine.isSome ∧ authoritative.cleanupOwnershipRemoved ∧
      authoritative.cleanupSocketRemoved ∧ authoritative.cleanupRunnerRemoved ∧
      authoritative.cleanupUnlinkPending = some .directory)
    "managed artifact completion lacks quarantine phase"
  return .write { authoritative with cleanupUnlinkPending := none, cleanupCompleted := true }

/-- `begin_artifact_unlink`. -/
def beginArtifactUnlink (binding : ManagedArtifactBinding) (step : ManagedArtifactCleanupStep)
    (current : SlotRecord) : Result Decision := do
  ensure current.state.isTombstone
    "managed artifact unlink intent requires a resolved process tombstone"
  let authoritative ← context current.artifactBinding "managed artifact cleanup binding is absent"
  ensure (authoritative.sameArtifact binding) "managed artifact unlink intent binding mismatch"
  ensure (authoritative.cleanupQuarantine.isSome ∧ authoritative.cleanupCompleted = false)
    "managed artifact unlink intent is outside cleanup phase"
  if authoritative.cleanupStepCompleted step then return .keep authoritative
  match authoritative.cleanupUnlinkPending with
  | some pending =>
    ensure (pending = step) "another managed artifact unlink is uncertain"
    return .keep authoritative
  | none =>
    let pending := { authoritative with cleanupUnlinkPending := some step }
    pending.validate
    return .write pending

/-- The receipt of one unlinked artifact, after those before it. -/
def unlinkReceipt (advanced : ManagedArtifactBinding) :
    ManagedArtifactCleanupStep → Result ManagedArtifactBinding
  | .ownership => do
    ensure (advanced.cleanupSocketRemoved = false ∧ advanced.cleanupRunnerRemoved = false)
      "managed ownership cleanup step is out of order"
    return { advanced with cleanupOwnershipRemoved := true }
  | .socket => do
    ensure (advanced.cleanupOwnershipRemoved ∧ advanced.cleanupRunnerRemoved = false)
      "managed socket cleanup step is out of order"
    return { advanced with cleanupSocketRemoved := true }
  | .runner => do
    ensure (advanced.cleanupOwnershipRemoved ∧ advanced.cleanupSocketRemoved)
      "managed runner cleanup step is out of order"
    return { advanced with cleanupRunnerRemoved := true }
  | .directory => throw (.error "managed directory unlink uses the completion receipt")

/-- `finish_artifact_unlink`. -/
def finishArtifactUnlink (binding : ManagedArtifactBinding) (step : ManagedArtifactCleanupStep)
    (current : SlotRecord) : Result Decision := do
  ensure current.state.isTombstone
    "managed artifact cleanup step requires a resolved process tombstone"
  let authoritative ← context current.artifactBinding "managed artifact cleanup binding is absent"
  ensure (authoritative.sameArtifact binding) "managed artifact cleanup step binding mismatch"
  ensure (authoritative.cleanupQuarantine.isSome ∧ authoritative.cleanupCompleted = false)
    "managed artifact cleanup step is outside cleanup phase"
  if authoritative.cleanupStepCompleted step then return .keep authoritative
  ensure (authoritative.cleanupUnlinkPending = some step)
    "managed artifact unlink receipt lacks durable intent"
  let advanced ← unlinkReceipt { authoritative with cleanupUnlinkPending := none } step
  return .write advanced

/-- The boot UUID of the running system. -/
def currentBoot : Evidence Uuid → Result Uuid
  | .present bootUuid => .ok bootUuid
  | _ => throw (.error "current boot identity is unavailable")

/-- `finish_artifact_logical_absence`. -/
def finishArtifactLogicalAbsence (binding : ManagedArtifactBinding) (boot : Evidence Uuid)
    (current : SlotRecord) : Result Decision := do
  ensure current.state.isTombstone
    "managed logical artifact absence requires a resolved process tombstone"
  let authoritative ← context current.artifactBinding "managed artifact cleanup binding is absent"
  ensure (authoritative.sameArtifact binding) "managed logical artifact absence binding mismatch"
  ensure (authoritative.creationPending = false) "managed artifact creation is unresolved"
  let bootUuid ← currentBoot boot
  ensure (authoritative.controlRoot.bootUuid ≠ bootUuid)
    "managed logical artifact absence requires an old-boot binding"
  if authoritative.cleanupCompleted then return .keep authoritative
  let quarantine := authoritative.cleanupQuarantine.getD (cleanupQuarantineName authoritative)
  validateManagedArtifactLeaf quarantine
  return .write { authoritative with
    cleanupQuarantine := some quarantine, cleanupUnlinkPending := none
    socketRetirePending := false
    socketRetired := authoritative.socketRetired || authoritative.socket.isSome
    cleanupOwnershipRemoved := true, cleanupSocketRemoved := true, cleanupRunnerRemoved := true
    cleanupCompleted := true }

/-- `finish_artifact_create_pending_absence`. -/
def finishArtifactCreatePendingAbsence (binding : ManagedArtifactBinding) (boot : Evidence Uuid)
    (current : SlotRecord) : Result Decision := do
  ensure current.state.isTombstone
    "managed create-pending absence requires a resolved process tombstone"
  let authoritative ← context current.artifactBinding "managed artifact cleanup binding is absent"
  ensure (authoritative.sameArtifact binding ∧ authoritative.privateDirectory.isNone ∧
      authoritative.runner.isNone ∧ authoritative.socket.isNone ∧
      authoritative.cleanupQuarantine.isSome ∧ authoritative.cleanupUnlinkPending.isNone ∧
      authoritative.socketRetirePending = false ∧ authoritative.socketRetired = false)
    "managed create-pending absence binding mismatch"
  let bootUuid ← currentBoot boot
  ensure (authoritative.controlRoot.bootUuid = bootUuid)
    "managed create-pending absence requires the current boot"
  if authoritative.cleanupCompleted then return .keep authoritative
  return .write { authoritative with
    cleanupOwnershipRemoved := true, cleanupSocketRemoved := true, cleanupRunnerRemoved := true
    cleanupCompleted := true }

/-- The steps of a binding after its creation, with the binding the caller has. -/
inductive CleanupOperation where
  | beginArtifactCleanup (binding : ManagedArtifactBinding)
  | beginArtifactSocketRetirement (binding : ManagedArtifactBinding)
  | finishArtifactSocketRetirement (binding : ManagedArtifactBinding)
  | finishArtifactCleanup (binding : ManagedArtifactBinding)
  | beginArtifactUnlink (binding : ManagedArtifactBinding) (step : ManagedArtifactCleanupStep)
  | finishArtifactUnlink (binding : ManagedArtifactBinding) (step : ManagedArtifactCleanupStep)
  | finishArtifactLogicalAbsence (binding : ManagedArtifactBinding) (boot : Evidence Uuid)
  | finishArtifactCreatePendingAbsence (binding : ManagedArtifactBinding) (boot : Evidence Uuid)

/-- What a step decides about the record in the slot file. -/
def CleanupOperation.decide : CleanupOperation → SlotRecord → Result Decision
  | .beginArtifactCleanup binding => Artifacts.beginArtifactCleanup binding
  | .beginArtifactSocketRetirement binding => Artifacts.beginArtifactSocketRetirement binding
  | .finishArtifactSocketRetirement binding => Artifacts.finishArtifactSocketRetirement binding
  | .finishArtifactCleanup binding => Artifacts.finishArtifactCleanup binding
  | .beginArtifactUnlink binding step => Artifacts.beginArtifactUnlink binding step
  | .finishArtifactUnlink binding step => Artifacts.finishArtifactUnlink binding step
  | .finishArtifactLogicalAbsence binding boot => Artifacts.finishArtifactLogicalAbsence binding boot
  | .finishArtifactCreatePendingAbsence binding boot => Artifacts.finishArtifactCreatePendingAbsence binding boot

end LightTerminal.LaunchRegistry.Artifacts
