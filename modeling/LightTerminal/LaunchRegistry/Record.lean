import LightTerminal.Data.Text
import LightTerminal.Library.Procedure

/-! # Slot records

The durable record of a slot of the launch registry and the checks it has to pass,
`validate_slot_record` and `ManagedArtifactBinding::validate`. An error is the outermost text of the
`anyhow` error; that of an `ensure!` without a text is the condition, without the values.

* `ManagedArtifactBinding.Valid`, `SlotRecord.Valid`: what the checks ask for, one field each. -/

namespace LightTerminal.LaunchRegistry.Record

open LightTerminal.Data.Text LightTerminal.Library.Procedure

/-- How an operation ends without a result: with an error, or because the process dies. -/
inductive Failure where
  | error (message : String)
  | crash
  deriving DecidableEq, Repr

/-- The text of a failure. -/
def Failure.message : Failure → String
  | .error message => message
  | .crash => ""

/-- `anyhow::Result`. -/
abbrev Result (α : Type) := Except Failure α

/-- `ensure!`. -/
abbrev ensure (c : Prop) [Decidable c] (message : String) : Result Unit := require c (.error message)

/-- `Option::context`. -/
abbrev context {α : Type} (x : Option α) (message : String) : Result α := expect x (.error message)

/-- `SLOT_SCHEMA_VERSION`. -/
def slotSchemaVersion : ℕ := 2

/-- `ProcessIdentity` of `launch_registry.rs`. -/
structure ProcessIdentity where
  bootUuid : Uuid
  pidNamespaceInode : ℕ
  pid : ℕ
  startTicks : ℕ
  deriving DecidableEq, Repr

/-- `ManagedOwnerKind`. -/
inductive ManagedOwnerKind where
  | speculation
  deriving DecidableEq, Repr

/-- `ManagedOwnerRole`. -/
inductive ManagedOwnerRole where
  | probe
  | runner
  deriving DecidableEq, Repr

/-- `ManagedOwnerTag`. -/
structure ManagedOwnerTag where
  kind : ManagedOwnerKind
  tournamentUuid : Uuid
  candidateIndex : ℕ
  role : ManagedOwnerRole
  deriving DecidableEq, Repr

/-- `ManagedOwnerTag::validate`. -/
def ManagedOwnerTag.validate (owner : ManagedOwnerTag) : Result Unit := do
  ensure (owner.kind = .speculation) "unsupported managed owner kind"
  ensure (Uuid.isNil owner.tournamentUuid = false) "managed owner tournament UUID must not be nil"
  ensure (owner.candidateIndex < 2) "managed owner candidate index must be 0 or 1"

/-- `SlotState`. -/
inductive SlotState where
  | vacant
  | intentDurable (nonce : Uuid) (createdUnixSecs : ℕ)
  | identityDurable (nonce : Uuid) (identity : ProcessIdentity) (releaseMayHaveOccurred : Bool)
  | cleanupPending (nonce : Uuid) (identity : ProcessIdentity) (releaseMayHaveOccurred : Bool)
  | resolvedTombstone (nonce : Uuid) (identity : Option ProcessIdentity) (resolvedUnixSecs : ℕ)
  deriving DecidableEq, Repr

/-- The nonce of a state, which all but `Vacant` have. -/
def SlotState.nonce : SlotState → Option Uuid
  | .vacant => none
  | .intentDurable nonce _ => some nonce
  | .identityDurable nonce _ _ => some nonce
  | .cleanupPending nonce _ _ => some nonce
  | .resolvedTombstone nonce _ _ => some nonce

/-- The process identity that a state has recorded. -/
def SlotState.identity : SlotState → Option ProcessIdentity
  | .identityDurable _ identity _ => some identity
  | .cleanupPending _ identity _ => some identity
  | .resolvedTombstone _ identity _ => identity
  | _ => none

/-- The state is `IntentDurable`. -/
def SlotState.isIntent : SlotState → Bool
  | .intentDurable .. => true
  | _ => false

/-- The state is `IdentityDurable`. -/
def SlotState.isIdentity : SlotState → Bool
  | .identityDurable .. => true
  | _ => false

/-- The state is `ResolvedTombstone`. -/
def SlotState.isTombstone : SlotState → Bool
  | .resolvedTombstone .. => true
  | _ => false

/-! ### Artifact bindings -/

/-- `ManagedDirectoryIdentity`. -/
structure ManagedDirectoryIdentity where
  bootUuid : Uuid
  dev : ℕ
  ino : ℕ
  statxMntIdUnique : ℕ
  deriving DecidableEq, Repr

/-- `ManagedArtifactIdentity`. -/
structure ManagedArtifactIdentity where
  dev : ℕ
  ino : ℕ
  deriving DecidableEq, Repr

/-- `ManagedArtifactIdentity::validate`. -/
def ManagedArtifactIdentity.validate (identity : ManagedArtifactIdentity) : Result Unit :=
  ensure (identity.dev ≠ 0 ∧ identity.ino ≠ 0) "managed artifact identity is zero"

/-- `ManagedDirectoryIdentity::validate`. -/
def ManagedDirectoryIdentity.validate (identity : ManagedDirectoryIdentity) : Result Unit := do
  ensure (Uuid.isNil identity.bootUuid = false) "managed directory boot UUID is nil"
  ensure (identity.dev ≠ 0 ∧ identity.ino ≠ 0) "managed directory identity is zero"
  ensure (identity.statxMntIdUnique ≠ 0) "managed directory mount identity is zero"

/-- `validate_managed_artifact_leaf`. -/
def validateManagedArtifactLeaf (leaf : Str) : Result Unit :=
  ensure (leaf ≠ [] ∧ byteLen leaf ≤ 255 ∧ leaf ≠ ['.'] ∧ leaf ≠ ['.', '.'] ∧ '/' ∉ leaf ∧
    Char.ofNat 0 ∉ leaf) "managed artifact leaf is invalid"

/-- `ManagedArtifactCleanupStep`. -/
inductive ManagedArtifactCleanupStep where
  | ownership
  | socket
  | runner
  | directory
  deriving DecidableEq, Repr

/-- `ManagedArtifactCreationPhase`. -/
inductive ManagedArtifactCreationPhase where
  | reserved
  | directoryCreated
  | runnerCreatePending
  | runnerCreated
  | socketCreatePending
  | socketCreated
  | ownerCreatePending
  | ownerCreated
  deriving DecidableEq, Repr

/-- `ManagedArtifactBinding`. -/
structure ManagedArtifactBinding where
  nonce : Uuid
  controlRoot : ManagedDirectoryIdentity
  privateLeaf : Str
  privateDirectory : Option ManagedDirectoryIdentity
  runner : Option ManagedArtifactIdentity
  socket : Option ManagedArtifactIdentity
  owner : Option ManagedArtifactIdentity
  runnerCreatePending : Bool
  socketCreatePending : Bool
  ownerCreatePending : Bool
  cleanupQuarantine : Option Str
  cleanupUnlinkPending : Option ManagedArtifactCleanupStep
  socketRetirePending : Bool
  socketRetired : Bool
  cleanupOwnershipRemoved : Bool
  cleanupSocketRemoved : Bool
  cleanupRunnerRemoved : Bool
  cleanupCompleted : Bool
  deriving DecidableEq, Repr

namespace ManagedArtifactBinding

/-- `creation_pending`. -/
def creationPending (binding : ManagedArtifactBinding) : Bool :=
  binding.runnerCreatePending || binding.socketCreatePending || binding.ownerCreatePending

/-- `cleanup_step_completed`. -/
def cleanupStepCompleted (binding : ManagedArtifactBinding) : ManagedArtifactCleanupStep → Bool
  | .ownership => binding.cleanupOwnershipRemoved
  | .socket => binding.cleanupSocketRemoved
  | .runner => binding.cleanupRunnerRemoved
  | .directory => binding.cleanupCompleted

/-- `same_artifact`. -/
def sameArtifact (binding other : ManagedArtifactBinding) : Bool :=
  binding.nonce == other.nonce && binding.controlRoot == other.controlRoot &&
    binding.privateLeaf == other.privateLeaf &&
    binding.privateDirectory == other.privateDirectory && binding.runner == other.runner &&
    binding.socket == other.socket && binding.owner == other.owner &&
    binding.runnerCreatePending == other.runnerCreatePending &&
    binding.socketCreatePending == other.socketCreatePending &&
    binding.ownerCreatePending == other.ownerCreatePending

/-- `creation_phase`: directory, runner, socket, owner, then the three pending creations. -/
def creationPhase (binding : ManagedArtifactBinding) : Option ManagedArtifactCreationPhase :=
  match binding.privateDirectory.isSome, binding.runner.isSome, binding.socket.isSome,
      binding.owner.isSome, binding.runnerCreatePending, binding.socketCreatePending,
      binding.ownerCreatePending with
  | false, false, false, false, false, false, false => some .reserved
  | true, false, false, false, false, false, false => some .directoryCreated
  | true, false, false, false, true, false, false => some .runnerCreatePending
  | true, true, false, false, false, false, false => some .runnerCreated
  | true, true, false, false, false, true, false => some .socketCreatePending
  | true, true, true, false, false, false, false => some .socketCreated
  | true, true, true, false, false, false, true => some .ownerCreatePending
  | true, true, true, true, false, false, false => some .ownerCreated
  | _, _, _, _, _, _, _ => none

/-- `creation_progresses_to`. -/
def creationProgressesTo (binding next : ManagedArtifactBinding) : Bool :=
  match binding.creationPhase, next.creationPhase with
  | some .reserved, some .directoryCreated => true
  | some .directoryCreated, some .runnerCreatePending =>
    binding.privateDirectory == next.privateDirectory
  | some .runnerCreatePending, some .runnerCreated =>
    binding.privateDirectory == next.privateDirectory
  | some .runnerCreated, some .socketCreatePending =>
    binding.privateDirectory == next.privateDirectory && binding.runner == next.runner
  | some .socketCreatePending, some .socketCreated =>
    binding.privateDirectory == next.privateDirectory && binding.runner == next.runner
  | some .socketCreated, some .ownerCreatePending =>
    binding.privateDirectory == next.privateDirectory && binding.runner == next.runner &&
      binding.socket == next.socket
  | some .ownerCreatePending, some .ownerCreated =>
    binding.privateDirectory == next.privateDirectory && binding.runner == next.runner &&
      binding.socket == next.socket
  | _, _ => false

/-- The steps before one are done, those after it are not: the last check of `validate`. -/
def unlinkInOrder (binding : ManagedArtifactBinding) : ManagedArtifactCleanupStep → Bool
  | .ownership =>
    !binding.cleanupOwnershipRemoved && !binding.cleanupSocketRemoved &&
      !binding.cleanupRunnerRemoved
  | .socket =>
    binding.cleanupOwnershipRemoved && !binding.cleanupSocketRemoved &&
      !binding.cleanupRunnerRemoved
  | .runner =>
    binding.cleanupOwnershipRemoved && binding.cleanupSocketRemoved &&
      !binding.cleanupRunnerRemoved
  | .directory =>
    binding.cleanupOwnershipRemoved && binding.cleanupSocketRemoved &&
      binding.cleanupRunnerRemoved && !binding.cleanupCompleted

/-- `validate`. -/
def validate (binding : ManagedArtifactBinding) : Result Unit := do
  ensure (Uuid.isNil binding.nonce = false) "managed artifact nonce is nil"
  binding.controlRoot.validate
  validateManagedArtifactLeaf binding.privateLeaf
  optional ManagedDirectoryIdentity.validate binding.privateDirectory
  ensure (binding.socket.isNone ∨ binding.runner.isSome)
    "managed socket identity exists before its runner"
  ensure (binding.runner.isNone ∨ binding.privateDirectory.isSome)
    "managed artifacts exist before their directory"
  optional ManagedArtifactIdentity.validate binding.runner
  optional ManagedArtifactIdentity.validate binding.socket
  optional (fun identity => do
      identity.validate
      ensure binding.socket.isSome "managed owner identity exists before its socket")
    binding.owner
  ensure binding.creationPhase.isSome "managed artifact creation phase is invalid"
  optional (fun quarantine => do
      validateManagedArtifactLeaf quarantine
      ensure (quarantine ≠ binding.privateLeaf) "managed artifact quarantine aliases its live leaf")
    binding.cleanupQuarantine
  ensure (binding.cleanupCompleted = false ∨ binding.cleanupQuarantine.isSome)
    "managed artifact cleanup completion lacks quarantine phase"
  ensure (binding.socketRetirePending = false ∨
      (binding.socket.isSome ∧ binding.socketRetired = false))
    "managed socket retirement intent is invalid"
  ensure (binding.socketRetired = false ∨
      (binding.socket.isSome ∧ binding.socketRetirePending = false))
    "managed socket retirement receipt is invalid"
  ensure (binding.cleanupSocketRemoved = false ∨ binding.cleanupOwnershipRemoved)
    "managed socket cleanup precedes ownership cleanup"
  ensure (binding.cleanupRunnerRemoved = false ∨ binding.cleanupSocketRemoved)
    "managed runner cleanup precedes socket cleanup"
  ensure (binding.cleanupCompleted = false ∨ binding.cleanupRunnerRemoved)
    "managed directory cleanup precedes runner cleanup"
  optional (fun step => do
      ensure (binding.cleanupQuarantine.isSome ∧ binding.cleanupStepCompleted step = false)
        "managed artifact unlink intent is outside its cleanup step"
      ensure (binding.unlinkInOrder step) "managed artifact unlink intent is out of order")
    binding.cleanupUnlinkPending

/-- What `validate` asks for. -/
structure Valid (binding : ManagedArtifactBinding) : Prop where
  nonce : Uuid.isNil binding.nonce = false
  controlRoot : binding.controlRoot.validate = .ok ()
  privateLeaf : validateManagedArtifactLeaf binding.privateLeaf = .ok ()
  privateDirectory : ∀ d, binding.privateDirectory = some d → d.validate = .ok ()
  runner : ∀ i, binding.runner = some i → i.validate = .ok ()
  socket : ∀ i, binding.socket = some i → i.validate = .ok ()
  owner : ∀ i, binding.owner = some i → i.validate = .ok ()
  phase : binding.creationPhase.isSome
  quarantine : ∀ q, binding.cleanupQuarantine = some q →
    validateManagedArtifactLeaf q = .ok () ∧ q ≠ binding.privateLeaf
  completed : binding.cleanupCompleted = true →
    binding.cleanupQuarantine.isSome ∧ binding.cleanupRunnerRemoved = true
  retirePending : binding.socketRetirePending = true →
    binding.socket.isSome ∧ binding.socketRetired = false
  retired : binding.socketRetired = true →
    binding.socket.isSome ∧ binding.socketRetirePending = false
  socketRemoved : binding.cleanupSocketRemoved = true → binding.cleanupOwnershipRemoved = true
  runnerRemoved : binding.cleanupRunnerRemoved = true → binding.cleanupSocketRemoved = true
  unlink : ∀ step, binding.cleanupUnlinkPending = some step →
    binding.cleanupQuarantine.isSome ∧ binding.cleanupStepCompleted step = false ∧
      binding.unlinkInOrder step = true

/-- In a phase of the creation no artifact comes before those it needs. -/
theorem order_of_phase {binding : ManagedArtifactBinding} (h : binding.creationPhase.isSome) :
    (binding.socket.isSome → binding.runner.isSome) ∧
      (binding.runner.isSome → binding.privateDirectory.isSome) ∧
      (binding.owner.isSome → binding.socket.isSome) := by
  unfold creationPhase at h
  split at h <;> simp_all

theorem validate_eq_ok {binding : ManagedArtifactBinding} :
    binding.validate = .ok () ↔ binding.Valid := by
  simp only [validate, bind_eq_ok, exists_unit, require_eq_ok, optional_eq_ok,
    ← Bool.not_eq_true, ← imp_iff_not_or, Option.isNone_iff_eq_none, ← Option.not_isSome_iff_eq_none]
  constructor
  · rintro ⟨h1, h2, h3, h4, -, -, h5, h6, h7, h8, h9, h10, h11, h12, h13, h14, h15, h16⟩
    exact ⟨by simpa using h1, h2, h3, h4, h5, h6, fun i hi => (h7 i hi).1, h8, h9,
      fun hc => ⟨h10 hc, h15 hc⟩, by simpa using h11, by simpa using h12, h13, h14,
      fun step hstep => (by simpa [and_assoc] using h16 step hstep)⟩
  · intro h
    obtain ⟨hsocket, hrunner, howner⟩ := order_of_phase h.phase
    refine ⟨by simpa using h.nonce, h.controlRoot, h.privateLeaf, h.privateDirectory, hsocket,
      hrunner, h.runner, h.socket, fun i hi => ⟨h.owner i hi, howner (by rw [hi]; rfl)⟩, h.phase,
      h.quarantine, fun hc => (h.completed hc).1, by simpa using h.retirePending,
      by simpa using h.retired, h.socketRemoved, h.runnerRemoved, fun hc => (h.completed hc).2,
      fun step hstep => (by simpa [and_assoc] using h.unlink step hstep)⟩

end ManagedArtifactBinding

/-! ### Slot records -/

/-- `SlotRecord`. -/
structure SlotRecord where
  schemaVersion : ℕ
  slot : ℕ
  generation : ℕ
  owner : Option ManagedOwnerTag
  artifactBinding : Option ManagedArtifactBinding
  state : SlotState
  deriving DecidableEq, Repr

/-- The part of `validate_slot_record` about the binding. -/
def validateBoundRecord (record : SlotRecord) (binding : ManagedArtifactBinding) : Result Unit := do
  binding.validate
  ensure record.owner.isSome "managed artifact binding has no owner"
  let stateNonce ← context record.state.nonce "vacant slot retained an artifact binding"
  ensure (binding.nonce = stateNonce) "managed artifact nonce mismatch"
  ensure (binding.cleanupQuarantine.isNone ∨ record.state.isTombstone)
    "managed artifact cleanup phase exists before process tombstone"

/-- `validate_slot_record`. -/
def validateSlotRecord (record : SlotRecord) (expectedSlot : ℕ) : Result Unit := do
  ensure (record.schemaVersion = slotSchemaVersion)
    "Condition failed: `record.schema_version == SLOT_SCHEMA_VERSION`"
  ensure (record.slot = expectedSlot) "Condition failed: `record.slot == expected_slot`"
  optional ManagedOwnerTag.validate record.owner
  optional (validateBoundRecord record) record.artifactBinding
  match record.state.nonce with
  | none =>
    ensure (record.owner = none ∧ record.artifactBinding = none)
      "vacant slot retained an owner or artifact binding"
  | some nonce => ensure (Uuid.isNil nonce = false) "Condition failed: `!nonce.is_nil()`"

/-- What `validate_slot_record` asks for. -/
structure SlotRecord.Valid (record : SlotRecord) : Prop where
  schemaVersion : record.schemaVersion = slotSchemaVersion
  owner : ∀ owner, record.owner = some owner → owner.validate = .ok ()
  binding : ∀ binding, record.artifactBinding = some binding →
    binding.Valid ∧ record.owner.isSome ∧ record.state.nonce = some binding.nonce ∧
      (binding.cleanupQuarantine.isSome → record.state.isTombstone = true)
  vacant : record.state = .vacant → record.owner = none ∧ record.artifactBinding = none
  nonce : ∀ nonce, record.state.nonce = some nonce → Uuid.isNil nonce = false

theorem validateBoundRecord_eq_ok {record : SlotRecord} {binding : ManagedArtifactBinding} :
    validateBoundRecord record binding = .ok () ↔
      binding.Valid ∧ record.owner.isSome ∧ record.state.nonce = some binding.nonce ∧
        (binding.cleanupQuarantine.isSome → record.state.isTombstone = true) := by
  simp only [validateBoundRecord, bind_eq_ok, exists_unit, require_eq_ok, expect_eq_ok,
    ManagedArtifactBinding.validate_eq_ok, Option.isNone_iff_eq_none,
    ← Option.not_isSome_iff_eq_none, ← imp_iff_not_or]
  constructor
  · rintro ⟨hvalid, howner, nonce, hnonce, heq, hquarantine⟩
    exact ⟨hvalid, howner, heq ▸ hnonce, hquarantine⟩
  · rintro ⟨hvalid, howner, hnonce, hquarantine⟩
    exact ⟨hvalid, howner, _, hnonce, rfl, hquarantine⟩

theorem SlotState.nonce_eq_none {state : SlotState} : state.nonce = none ↔ state = .vacant := by
  cases state <;> simp [SlotState.nonce]

theorem validateSlotRecord_eq_ok {record : SlotRecord} {slot : ℕ} :
    validateSlotRecord record slot = .ok () ↔ record.Valid ∧ record.slot = slot := by
  simp only [validateSlotRecord, bind_eq_ok, exists_unit, require_eq_ok, optional_eq_ok,
    validateBoundRecord_eq_ok]
  constructor
  · rintro ⟨hschema, hslot, howner, hbinding, hstate⟩
    refine ⟨⟨hschema, howner, hbinding, fun hvacant => ?_, fun nonce hnonce => ?_⟩, hslot⟩
    · rw [hvacant] at hstate
      simpa [SlotState.nonce] using hstate
    · rw [hnonce] at hstate
      simpa using hstate
  · rintro ⟨h, hslot⟩
    refine ⟨h.schemaVersion, hslot, h.owner, h.binding, ?_⟩
    cases hnonce : record.state.nonce with
    | none => simpa using h.vacant (SlotState.nonce_eq_none.mp hnonce)
    | some nonce => simpa using h.nonce nonce hnonce

end LightTerminal.LaunchRegistry.Record
