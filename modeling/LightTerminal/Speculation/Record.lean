import LightTerminal.Data.Text
import LightTerminal.Speculation.Phase

/-! # Tournament records

The durable record of a tournament and the checks it has to pass: the public status
(`protocol.rs`) and the private evidence about its control groups and managed owners
(`speculation_registry.rs`).

* `TournamentRecord.Core`, `TournamentRecord.Valid`: what `validate_core` and `validate` ask for, one
  field for each part of the record. -/

namespace LightTerminal.Speculation.Record

open LightTerminal.Data.Text LightTerminal.Library.Procedure LightTerminal.Speculation.Phase

/-- `EvidenceError`. -/
inductive EvidenceError where
  | unsupported
  | invalidDirectory
  | invalidIdentity
  | overlap
  | invalidLeaf
  | alreadyExists
  | missing
  | tooLarge
  | corrupt
  | stale
  | io
  | capacity
  | generationMismatch
  | poisoned
  deriving DecidableEq, Repr

/-- `EvidenceResult`. -/
abbrev EvidenceResult (α : Type) := Except EvidenceError α

/-- A condition for an operation to go on. -/
abbrev ensure (c : Prop) [Decidable c] (error : EvidenceError) : EvidenceResult Unit :=
  require c error

/-- `Option::ok_or`. -/
abbrev okOr {α : Type} (x : Option α) (error : EvidenceError) : EvidenceResult α := expect x error

/-- `ServiceError`. -/
inductive ServiceError where
  | unsupported
  | unavailable
  | capacity
  | invalidRequest
  | invalidTransition
  | staleGeneration
  | generationExhausted
  | containmentUnavailable
  | rollbackRequired
  | decisionUncertain
  | evidenceUnavailable
  deriving DecidableEq, Repr

/-- `map_store_error`. -/
def mapStoreError : EvidenceError → ServiceError
  | .capacity => .capacity
  | .generationMismatch => .staleGeneration
  | .poisoned | .corrupt | .stale => .evidenceUnavailable
  | _ => .invalidRequest

instance neZeroTwo : NeZero (2 : ℕ) := ⟨by decide⟩

/-- `[T; 2]`, the arrays with an element for each candidate. -/
structure Pair (α : Type) where
  zero : α
  one : α
  deriving DecidableEq, Repr

namespace Pair

variable {α β : Type}

/-- The element of a candidate. -/
def get (p : Pair α) : Fin 2 → α
  | 0 => p.zero
  | 1 => p.one

/-- The element of a candidate changed. -/
def modify (p : Pair α) (f : α → α) : Fin 2 → Pair α
  | 0 => { p with zero := f p.zero }
  | 1 => { p with one := f p.one }

/-- Both elements changed. -/
def map (f : α → β) (p : Pair α) : Pair β := ⟨f p.zero, f p.one⟩

/-- `iter().all(..)`. -/
def All (P : α → Prop) (p : Pair α) : Prop := P p.zero ∧ P p.one

/-- `iter().zip(..).all(..)`. -/
def All₂ (P : α → β → Prop) (p : Pair α) (q : Pair β) : Prop := P p.zero q.zero ∧ P p.one q.one

instance (P : α → Prop) [DecidablePred P] (p : Pair α) : Decidable (p.All P) :=
  inferInstanceAs (Decidable (_ ∧ _))

instance (P : α → β → Prop) [DecidableRel P] (p : Pair α) (q : Pair β) : Decidable (p.All₂ P q) :=
  inferInstanceAs (Decidable (_ ∧ _))

theorem all_iff {P : α → Prop} {p : Pair α} : p.All P ↔ ∀ i, P (p.get i) := by
  rw [Fin.forall_fin_two]
  rfl

theorem all₂_iff {P : α → β → Prop} {p : Pair α} {q : Pair β} :
    p.All₂ P q ↔ ∀ i, P (p.get i) (q.get i) := by
  rw [Fin.forall_fin_two]
  rfl

@[simp] theorem get_map (f : α → β) (p : Pair α) (i : Fin 2) : (p.map f).get i = f (p.get i) := by
  fin_cases i <;> rfl

@[simp] theorem get_modify_self (p : Pair α) (f : α → α) (i : Fin 2) :
    (p.modify f i).get i = f (p.get i) := by
  fin_cases i <;> rfl

theorem get_modify_of_ne (p : Pair α) (f : α → α) {i j : Fin 2} (h : j ≠ i) :
    (p.modify f i).get j = p.get j := by
  revert h
  fin_cases i <;> fin_cases j <;> simp [get, modify]

theorem get_modify (p : Pair α) (f : α → α) (i j : Fin 2) :
    (p.modify f i).get j = if j = i then f (p.get j) else p.get j := by
  split_ifs with h
  · subst h
    exact get_modify_self p f j
  · exact get_modify_of_ne p f h

@[ext] theorem ext_get {p q : Pair α} (h : ∀ i, p.get i = q.get i) : p = q := by
  cases p
  cases q
  exact congr (congrArg Pair.mk (h 0)) (h 1)

end Pair

/-! ### The public status -/

/-- `SpeculationReasonCode`. -/
inductive SpeculationReasonCode where
  | preparedLease
  | readyLease
  | runningLease
  | pendingFinalizeLease
  | controlAckTimeout
  | explicitRollback
  | daemonShutdown
  | bothCandidatesIneligible
  | decisionUncertainAfterRestart
  | containmentEvidenceUnavailable
  deriving DecidableEq, Repr

/-- `SpeculationErrorCode`. -/
inductive SpeculationErrorCode where
  | unsupported
  | protocolMismatch
  | capacityExhausted
  | invalidRequest
  | invalidTransition
  | staleGeneration
  | generationExhausted
  | containmentUnavailable
  | outputLimitExceeded
  | rollbackRequired
  | decisionUncertain
  | evidenceUnavailable
  deriving DecidableEq, Repr

/-- `MAX_SPECULATION_ERROR_CODES`. -/
def maxSpeculationErrorCodes : ℕ := 16

/-- `SpeculationErrorCodes`: the length is bounded for every value there is. -/
structure SpeculationErrorCodes where
  codes : List SpeculationErrorCode
  bounded : codes.length ≤ maxSpeculationErrorCodes
  deriving DecidableEq, Repr

/-- `SpeculationErrorCodes::new`. -/
def SpeculationErrorCodes.new : SpeculationErrorCodes := ⟨[], Nat.zero_le _⟩

/-- `SpeculationErrorCodes::push`, which keeps the codes as they are when it fails. -/
def SpeculationErrorCodes.push (errors : SpeculationErrorCodes) (code : SpeculationErrorCode) :
    SpeculationErrorCodes :=
  if h : errors.codes.length < maxSpeculationErrorCodes then
    ⟨errors.codes ++ [code], by simpa using h⟩
  else errors

/-- `SpeculationExitCategory`. -/
inductive SpeculationExitCategory where
  | exitedZero
  | exitedNonzero
  | signaled
  | spawnFailed
  | outputLimitExceeded
  | evidenceIncomplete
  deriving DecidableEq, Repr

/-- The categories that no eligible candidate has. -/
def SpeculationExitCategory.excluded : SpeculationExitCategory → Bool
  | .spawnFailed | .outputLimitExceeded | .evidenceIncomplete => true
  | _ => false

/-- `SpeculationScoreField`. -/
inductive SpeculationScoreField where
  | eligibilityDescending
  | exitSuccessDescending
  | elapsedNsAscending
  | outputBytesAscending
  | inputIndexAscending
  deriving DecidableEq, Repr

/-- `SPECULATION_SCORE_ORDER`. -/
def speculationScoreOrder : List SpeculationScoreField :=
  [.eligibilityDescending, .exitSuccessDescending, .elapsedNsAscending, .outputBytesAscending,
    .inputIndexAscending]

/-- `SpeculationCleanupStatus`. -/
structure SpeculationCleanupStatus where
  runnerAck : Bool
  bwrapReaped : Bool
  syncEof : Bool
  cgroupEmpty : Bool
  managedTombstone : Bool
  deriving DecidableEq, Repr

/-- All facts about the cleanup are there. -/
def SpeculationCleanupStatus.Complete (cleanup : SpeculationCleanupStatus) : Prop :=
  cleanup.runnerAck = true ∧ cleanup.bwrapReaped = true ∧ cleanup.syncEof = true ∧
    cleanup.cgroupEmpty = true ∧ cleanup.managedTombstone = true
  deriving Decidable

/-- `SpeculationCandidateStatus`. -/
structure SpeculationCandidateStatus where
  candidateUuid : Uuid
  index : ℕ
  ready : Bool
  readyElapsedNs : Option ℕ
  goReceived : Bool
  goReceivedElapsedNs : Option ℕ
  resultAccepted : Bool
  exitSuccess : Option Bool
  exitCategory : Option SpeculationExitCategory
  elapsedNs : Option ℕ
  outputBytes : Option ℕ
  eligible : Bool
  cleanup : SpeculationCleanupStatus
  deriving DecidableEq, Repr

/-- `SpeculationSchemaVersion`. -/
inductive SpeculationSchemaVersion where
  | v1
  deriving DecidableEq, Repr

/-- `SpeculationStatus`. -/
structure SpeculationStatus where
  schemaVersion : SpeculationSchemaVersion
  tournamentUuid : Uuid
  daemonInstanceUuid : Uuid
  phase : SpeculationPhase
  generation : ℕ
  leaseDeadlineUnixMs : ℕ
  reasonCode : Option SpeculationReasonCode
  candidates : Pair SpeculationCandidateStatus
  fixedScoreOrder : List SpeculationScoreField
  selectedIndex : Option ℕ
  rollbackRequired : Bool
  errorCodes : SpeculationErrorCodes
  deriving DecidableEq, Repr

/-! ### Control groups -/

/-- `DurableDirectoryIdentity`. -/
structure DurableDirectoryIdentity where
  bootUuid : Uuid
  dev : ℕ
  ino : ℕ
  statxMntIdUnique : ℕ
  deriving DecidableEq, Repr

/-- `valid_directory_identity`. -/
def validDirectoryIdentity (identity : DurableDirectoryIdentity) : Prop :=
  Uuid.isNil identity.bootUuid = false ∧ identity.dev ≠ 0 ∧ identity.ino ≠ 0 ∧
    identity.statxMntIdUnique ≠ 0
  deriving Decidable

/-- `PrivateRootIdentities`. -/
structure PrivateRootIdentities where
  source : DurableDirectoryIdentity
  candidates : Pair DurableDirectoryIdentity
  ledgerRoot : DurableDirectoryIdentity
  cgroupRoot : DurableDirectoryIdentity
  deriving DecidableEq, Repr

/-- `MAX_SPECULATION_PATH_BYTES`. -/
def maxSpeculationPathBytes : ℕ := 4096

/-- `SpeculationUnixPath`. -/
structure SpeculationUnixPath where
  bytes : List UInt8
  nonempty : bytes ≠ []
  bounded : bytes.length ≤ maxSpeculationPathBytes
  noNul : 0 ∉ bytes
  deriving DecidableEq, Repr

/-- `PrivateCgroupRootLocator`. -/
structure PrivateCgroupRootLocator where
  canonicalPath : SpeculationUnixPath
  identity : DurableDirectoryIdentity
  deriving DecidableEq, Repr

/-- `TournamentCgroupLifecycleState`. -/
inductive TournamentCgroupLifecycleState where
  | planned
  | createPending
  | created
  | removePending
  | removed
  | rollbackRequired
  deriving DecidableEq, Repr

/-- `TournamentCgroupLifecycleState::is_legal_transition`. -/
def TournamentCgroupLifecycleState.isLegalTransition :
    TournamentCgroupLifecycleState → TournamentCgroupLifecycleState → Bool
  | .planned, next =>
    next = .planned ∨ next = .createPending ∨ next = .removed ∨ next = .rollbackRequired
  | .createPending, next => next = .createPending ∨ next = .created ∨ next = .rollbackRequired
  | .created, next => next = .created ∨ next = .removePending ∨ next = .rollbackRequired
  | .removePending, next => next = .removePending ∨ next = .removed ∨ next = .rollbackRequired
  | .removed, next => next = .removed ∨ next = .rollbackRequired
  | .rollbackRequired, next => next = .rollbackRequired

/-- `TournamentCgroupEvidence`. -/
structure TournamentCgroupEvidence where
  deterministicNameUuid : Uuid
  lifecycle : TournamentCgroupLifecycleState
  domain : Option DurableDirectoryIdentity
  deriving DecidableEq, Repr

/-- `TournamentCgroupEvidence::validate`. -/
def TournamentCgroupEvidence.validate (evidence : TournamentCgroupEvidence)
    (tournamentUuid bootUuid : Uuid) : EvidenceResult Unit := do
  require (evidence.deterministicNameUuid = tournamentUuid ∧
    ∀ identity ∈ evidence.domain, identity.bootUuid = bootUuid ∧ validDirectoryIdentity identity)
    .corrupt
  require (evidence.domain.isSome ↔
    evidence.lifecycle = .created ∨ evidence.lifecycle = .removePending) .corrupt

/-- `TournamentCgroupEvidence::immutable_identity_progresses_to`. -/
def TournamentCgroupEvidence.immutableIdentityProgressesTo (current next : TournamentCgroupEvidence) :
    Prop :=
  current.deterministicNameUuid = next.deterministicNameUuid ∧
    ∀ identity ∈ current.domain,
      next.domain = some identity ∨ next.lifecycle = .removed ∧ next.domain = none
  deriving Decidable

/-- `ManagedOwnerRoleEvidence`. -/
inductive ManagedOwnerRoleEvidence where
  | probe
  | runner
  deriving DecidableEq, Repr

/-- `ManagedOwnerEvidence`. -/
structure ManagedOwnerEvidence where
  candidateIndex : ℕ
  role : ManagedOwnerRoleEvidence
  slot : ℕ
  generation : ℕ
  deriving DecidableEq, Repr

/-- `CgroupForwardState`. -/
inductive CgroupForwardState where
  | planned
  | parentCreatePending
  | parentCreated
  | controlCreatePending
  | controlCreated
  | payloadCreatePending
  | payloadCreated
  | probePending
  | probeEmpty
  | controlAttachPending
  | controlAttached
  | payloadFdTransferPending
  | payloadArmed
  | payloadExecPending
  | payloadAttached
  | payloadKillPending
  | payloadEmpty
  deriving DecidableEq, Repr

/-- The forward state after a state. -/
def CgroupForwardState.next : CgroupForwardState → Option CgroupForwardState
  | .planned => some .parentCreatePending
  | .parentCreatePending => some .parentCreated
  | .parentCreated => some .controlCreatePending
  | .controlCreatePending => some .controlCreated
  | .controlCreated => some .payloadCreatePending
  | .payloadCreatePending => some .payloadCreated
  | .payloadCreated => some .probePending
  | .probePending => some .probeEmpty
  | .probeEmpty => some .controlAttachPending
  | .controlAttachPending => some .controlAttached
  | .controlAttached => some .payloadFdTransferPending
  | .payloadFdTransferPending => some .payloadArmed
  | .payloadArmed => some .payloadExecPending
  | .payloadExecPending => some .payloadAttached
  | .payloadAttached => some .payloadKillPending
  | .payloadKillPending => some .payloadEmpty
  | .payloadEmpty => none

/-- `CgroupLifecycleState`. -/
inductive CgroupLifecycleState where
  | forward (state : CgroupForwardState)
  | cleanupPending (origin : CgroupForwardState)
  | parentKillPending (origin : CgroupForwardState)
  | parentEmpty (origin : CgroupForwardState)
  | payloadRemovePending (origin : CgroupForwardState)
  | payloadRemoved (origin : CgroupForwardState)
  | controlRemovePending (origin : CgroupForwardState)
  | controlRemoved (origin : CgroupForwardState)
  | parentRemovePending (origin : CgroupForwardState)
  | removed
  | rollbackRequired
  deriving DecidableEq, Repr

/-- `CgroupLifecycleState::is_legal_transition`. -/
def CgroupLifecycleState.isLegalTransition (state next : CgroupLifecycleState) : Bool :=
  state = next ||
    match state, next with
    | .forward origin, .cleanupPending retained => origin = retained
    | .forward .planned, .removed => true
    | .forward origin, .forward next => origin.next = some next
    | .cleanupPending origin, .parentKillPending next => origin = next
    | .cleanupPending origin, .parentEmpty next => origin = next
    | .parentKillPending origin, .parentEmpty next => origin = next
    | .parentEmpty origin, .payloadRemovePending next => origin = next
    | .payloadRemovePending origin, .payloadRemoved next => origin = next
    | .payloadRemoved origin, .controlRemovePending next => origin = next
    | .controlRemovePending origin, .controlRemoved next => origin = next
    | .controlRemoved origin, .parentRemovePending next => origin = next
    | .parentRemovePending _, .removed => true
    | _, .rollbackRequired => true
    | _, _ => false

/-- `CandidateCgroupEvidence`. -/
structure CandidateCgroupEvidence where
  candidateIndex : ℕ
  deterministicNameUuid : Uuid
  lifecycle : CgroupLifecycleState
  parent : Option DurableDirectoryIdentity
  control : Option DurableDirectoryIdentity
  payload : Option DurableDirectoryIdentity
  deriving DecidableEq, Repr

/-- How many of parent, control and payload had been created in a forward state. -/
def CgroupForwardState.floor : CgroupForwardState → ℕ
  | .planned | .parentCreatePending => 0
  | .parentCreated | .controlCreatePending => 1
  | .controlCreated | .payloadCreatePending => 2
  | _ => 3

/-- `creation_floor` of `CandidateCgroupEvidence::validate`. -/
def CgroupLifecycleState.creationFloor : CgroupLifecycleState → ℕ
  | .forward origin => origin.floor
  | .cleanupPending origin => origin.floor
  | .parentKillPending origin => origin.floor
  | .parentEmpty origin => origin.floor
  | .payloadRemovePending origin => origin.floor
  | .payloadRemoved origin => origin.floor
  | .controlRemovePending origin => origin.floor
  | .controlRemoved origin => origin.floor
  | .parentRemovePending origin => origin.floor
  | .removed => 0
  | .rollbackRequired => 0

/-- `present_floor` of `CandidateCgroupEvidence::validate`. -/
def CandidateCgroupEvidence.presentFloor (evidence : CandidateCgroupEvidence) : EvidenceResult ℕ :=
  match evidence.parent.isSome, evidence.control.isSome, evidence.payload.isSome with
  | false, false, false => .ok 0
  | true, false, false => .ok 1
  | true, true, false => .ok 2
  | true, true, true => .ok 3
  | _, _, _ => .error .corrupt

/-- `expected_present_floor` of `CandidateCgroupEvidence::validate`. -/
def CgroupLifecycleState.expectedPresentFloor (state : CgroupLifecycleState) (presentFloor : ℕ) : ℕ :=
  match state with
  | .payloadRemoved _ | .controlRemovePending _ => min state.creationFloor 2
  | .controlRemoved _ | .parentRemovePending _ => min state.creationFloor 1
  | .removed => 0
  | .rollbackRequired => presentFloor
  | _ => state.creationFloor

/-- The recorded identities are of this boot and well formed. -/
def CandidateCgroupEvidence.IdentitiesValid (evidence : CandidateCgroupEvidence) (bootUuid : Uuid) :
    Prop :=
  (∀ identity ∈ evidence.parent, identity.bootUuid = bootUuid ∧ validDirectoryIdentity identity) ∧
    (∀ identity ∈ evidence.control,
      identity.bootUuid = bootUuid ∧ validDirectoryIdentity identity) ∧
    ∀ identity ∈ evidence.payload, identity.bootUuid = bootUuid ∧ validDirectoryIdentity identity
  deriving Decidable

/-- `CandidateCgroupEvidence::validate`. -/
def CandidateCgroupEvidence.validate (evidence : CandidateCgroupEvidence) (expectedIndex : ℕ)
    (bootUuid : Uuid) : EvidenceResult Unit := do
  require (evidence.candidateIndex = expectedIndex ∧
    Uuid.isNil evidence.deterministicNameUuid = false ∧ evidence.IdentitiesValid bootUuid) .corrupt
  let presentFloor ← evidence.presentFloor
  require (presentFloor = evidence.lifecycle.expectedPresentFloor presentFloor) .corrupt

/-! ### Checks of the status -/

/-- `MAX_CANDIDATE_OUTPUT_BYTES`. -/
def maxCandidateOutputBytes : ℕ := 64 * 1024 * 1024

/-- `complete_result` of `validate_candidate_status`. -/
def SpeculationCandidateStatus.CompleteResult (candidate : SpeculationCandidateStatus) : Prop :=
  candidate.exitSuccess.isSome ∧ candidate.exitCategory.isSome ∧ candidate.elapsedNs.isSome ∧
    candidate.outputBytes.isSome
  deriving Decidable

/-- `empty_result` of `validate_candidate_status`. -/
def SpeculationCandidateStatus.EmptyResult (candidate : SpeculationCandidateStatus) : Prop :=
  candidate.exitSuccess = none ∧ candidate.exitCategory = none ∧ candidate.elapsedNs = none ∧
    candidate.outputBytes = none
  deriving Decidable

/-- `validate_candidate_status`. -/
def validateCandidateStatus (candidate : SpeculationCandidateStatus) : EvidenceResult Unit := do
  require (candidate.ready = candidate.readyElapsedNs.isSome ∧
    candidate.goReceived = candidate.goReceivedElapsedNs.isSome ∧
    (candidate.goReceived = true → candidate.ready = true) ∧
    (candidate.resultAccepted = true → candidate.goReceived = true) ∧
    (candidate.eligible = true → candidate.resultAccepted = true ∧ candidate.goReceived = true))
    .corrupt
  require (if candidate.resultAccepted then candidate.CompleteResult
    else candidate.EmptyResult ∧ candidate.eligible = false) .corrupt
  match candidate.exitSuccess, candidate.exitCategory with
  | some success, some category => do
    require (success = decide (category = .exitedZero)) .corrupt
    require (candidate.eligible = true → category.excluded = false ∧
      ∃ bytes ∈ candidate.outputBytes, bytes ≤ maxCandidateOutputBytes) .corrupt
  | _, _ => .ok ()

/-- The comparison of the tuples `score` of `score_selected_index`; `Reverse` turns it around. -/
def compareScore (left right : SpeculationCandidateStatus) : Ordering :=
  (compare left.eligible right.eligible).then <|
    (compare left.exitSuccess right.exitSuccess).then <|
      (compare right.elapsedNs left.elapsedNs).then <|
        (compare right.outputBytes left.outputBytes).then <| compare right.index left.index

/-- `score_selected_index`. -/
def scoreSelectedIndex (candidates : Pair SpeculationCandidateStatus) : Option ℕ :=
  if candidates.zero.eligible = false ∧ candidates.one.eligible = false then none
  else if compareScore candidates.zero candidates.one ≠ .lt then some candidates.zero.index
  else some candidates.one.index

/-- What `validate_status_semantics` asks of the selected index in each phase. -/
def SpeculationStatus.SelectionValid (status : SpeculationStatus) : Prop :=
  if status.phase = .selected then
    ∃ selected ∈ status.selectedIndex, selected ≤ 1 ∧
      status.candidates.All (fun candidate =>
        candidate.ready = true ∧ candidate.goReceived = true ∧ candidate.resultAccepted = true) ∧
      (if selected = 0 then status.candidates.zero else status.candidates.one).eligible = true ∧
      scoreSelectedIndex status.candidates = some selected
  else if status.phase.isRollback then status.selectedIndex = none
  else ∀ selected ∈ status.selectedIndex,
    selected ≤ 1 ∧ scoreSelectedIndex status.candidates = some selected
  deriving Decidable

/-- `validate_status_semantics`. -/
def validateStatusSemantics (status : SpeculationStatus) : EvidenceResult Unit := do
  require (status.schemaVersion = .v1 ∧
    Uuid.isNil status.tournamentUuid = false ∧
    Uuid.isNil status.daemonInstanceUuid = false ∧
    status.generation ≠ 0 ∧
    status.fixedScoreOrder = speculationScoreOrder ∧
    status.candidates.zero.index = 0 ∧
    status.candidates.one.index = 1 ∧
    Uuid.isNil status.candidates.zero.candidateUuid = false ∧
    Uuid.isNil status.candidates.one.candidateUuid = false ∧
    status.candidates.zero.candidateUuid ≠ status.candidates.one.candidateUuid ∧
    status.errorCodes.codes.length ≤ maxSpeculationErrorCodes ∧
    status.candidates.All fun candidate => validateCandidateStatus candidate = .ok ()) .corrupt
  require (status.rollbackRequired = status.phase.isRollbackOnly) .corrupt
  require status.SelectionValid .corrupt

/-! ### The record -/

/-- `TournamentRecordSchema`. -/
inductive TournamentRecordSchema where
  | v1
  deriving DecidableEq, Repr

/-- `TournamentRecord`. -/
structure TournamentRecord where
  schemaVersion : TournamentRecordSchema
  bootUuid : Uuid
  roots : PrivateRootIdentities
  cgroupRootLocator : PrivateCgroupRootLocator
  tournamentCgroup : TournamentCgroupEvidence
  cgroups : Pair CandidateCgroupEvidence
  managedOwners : Pair (Option ManagedOwnerEvidence)
  restartPriorPhase : Option SpeculationPhase
  terminalCompletedUnixMs : Option ℕ
  status : SpeculationStatus
  deriving DecidableEq, Repr

/-- The directories that a tournament was prepared with are of its boot and well formed. -/
def TournamentRecord.RootsValid (record : TournamentRecord) : Prop :=
  record.schemaVersion = .v1 ∧ Uuid.isNil record.bootUuid = false ∧
    validDirectoryIdentity record.roots.source ∧
    validDirectoryIdentity record.roots.ledgerRoot ∧
    validDirectoryIdentity record.roots.cgroupRoot ∧
    record.roots.candidates.All validDirectoryIdentity ∧
    record.bootUuid = record.roots.source.bootUuid ∧
    record.bootUuid = record.roots.ledgerRoot.bootUuid ∧
    record.bootUuid = record.roots.cgroupRoot.bootUuid ∧
    record.roots.candidates.All (fun identity => identity.bootUuid = record.bootUuid) ∧
    record.cgroupRootLocator.identity = record.roots.cgroupRoot
  deriving Decidable

/-- The evidence about a managed owner belongs to a candidate. -/
def ManagedOwnerEvidence.Belongs (index : ℕ) (owner : ManagedOwnerEvidence) : Prop :=
  owner.candidateIndex = index ∧ owner.generation ≠ 0
  deriving Decidable

/-- The phase before a restart goes with the phase after it. -/
def TournamentRecord.PriorPhaseValid (record : TournamentRecord) : Prop :=
  ∀ prior ∈ record.restartPriorPhase, prior.isTerminal = false ∧ prior ≠ .rollbackRequired ∧
    (record.status.phase = .rollbackRequired ∨ record.status.phase = .rollbackPending ∨
      record.status.phase = .rolledBack)
  deriving Decidable

/-- `TournamentRecord::validate_core`. -/
def TournamentRecord.validateCore (record : TournamentRecord) : EvidenceResult Unit :=
  require (record.RootsValid ∧
    record.tournamentCgroup.validate record.status.tournamentUuid record.bootUuid = .ok () ∧
    record.cgroups.zero.validate 0 record.bootUuid = .ok () ∧
    record.cgroups.one.validate 1 record.bootUuid = .ok () ∧
    record.cgroups.zero.deterministicNameUuid = record.status.candidates.zero.candidateUuid ∧
    record.cgroups.one.deterministicNameUuid = record.status.candidates.one.candidateUuid ∧
    validateStatusSemantics record.status = .ok () ∧
    (∀ owner ∈ record.managedOwners.zero, owner.Belongs 0) ∧
    (∀ owner ∈ record.managedOwners.one, owner.Belongs 1) ∧
    record.PriorPhaseValid) .corrupt

/-- `TournamentRecord::is_positive_terminal`. -/
def TournamentRecord.isPositiveTerminal (record : TournamentRecord) : Bool :=
  decide (record.validateCore = .ok ()) && record.status.phase.isTerminal &&
    !record.status.rollbackRequired &&
    decide (record.cgroups.All fun candidate => candidate.lifecycle = .removed) &&
    decide (record.tournamentCgroup.lifecycle = .removed) &&
    decide (record.status.candidates.All fun candidate => candidate.cleanup.Complete)

/-- `TournamentRecord::validate`. -/
def TournamentRecord.validate (record : TournamentRecord) : EvidenceResult Unit := do
  record.validateCore
  require (record.terminalCompletedUnixMs.isSome = record.isPositiveTerminal) .corrupt

/-! ### What the checks ask for -/

/-- What of a status no operation changes but the generation, which grows. -/
structure SpeculationStatus.Header (status : SpeculationStatus) : Prop where
  tournament : Uuid.isNil status.tournamentUuid = false
  daemon : Uuid.isNil status.daemonInstanceUuid = false
  generation : status.generation ≠ 0
  order : status.fixedScoreOrder = speculationScoreOrder
  index : ∀ i, (status.candidates.get i).index = i.val
  uuid : ∀ i, Uuid.isNil (status.candidates.get i).candidateUuid = false
  distinct : status.candidates.zero.candidateUuid ≠ status.candidates.one.candidateUuid

/-- What `validate_status_semantics` asks for. -/
structure SpeculationStatus.Valid (status : SpeculationStatus) : Prop where
  header : status.Header
  candidates : ∀ i, validateCandidateStatus (status.candidates.get i) = .ok ()
  rollback : status.rollbackRequired = status.phase.isRollbackOnly
  selection : status.SelectionValid

theorem validateStatusSemantics_eq_ok {status : SpeculationStatus} :
    validateStatusSemantics status = .ok () ↔ status.Valid := by
  simp only [validateStatusSemantics, bind_eq_ok, exists_unit, require_eq_ok, Pair.all_iff]
  constructor
  · rintro ⟨⟨-, h2, h3, h4, h5, h6, h7, h8, h9, h10, -, hcandidates⟩, hrollback, hselection⟩
    refine ⟨⟨h2, h3, h4, h5, ?_, ?_, h10⟩, hcandidates, hrollback, hselection⟩
    · exact Fin.forall_fin_two.mpr ⟨h6, h7⟩
    · exact Fin.forall_fin_two.mpr ⟨h8, h9⟩
  · rintro ⟨⟨h2, h3, h4, h5, hindex, huuid, h10⟩, hcandidates, hrollback, hselection⟩
    exact ⟨⟨trivial, h2, h3, h4, h5, hindex 0, hindex 1, huuid 0, huuid 1, h10, status.errorCodes.bounded,
      hcandidates⟩, hrollback, hselection⟩

/-- What `validate_core` asks for. -/
structure TournamentRecord.Core (record : TournamentRecord) : Prop where
  roots : record.RootsValid
  domain : record.tournamentCgroup.validate record.status.tournamentUuid record.bootUuid = .ok ()
  groups : ∀ i, (record.cgroups.get i).validate i.val record.bootUuid = .ok ()
  names : ∀ i, (record.cgroups.get i).deterministicNameUuid =
    (record.status.candidates.get i).candidateUuid
  status : record.status.Valid
  owners : ∀ i, ∀ owner ∈ record.managedOwners.get i, owner.Belongs i.val
  prior : record.PriorPhaseValid

theorem TournamentRecord.validateCore_eq_ok {record : TournamentRecord} :
    record.validateCore = .ok () ↔ record.Core := by
  simp only [validateCore, require_eq_ok, validateStatusSemantics_eq_ok]
  constructor
  · rintro ⟨hroots, hdomain, hg0, hg1, hn0, hn1, hstatus, ho0, ho1, hprior⟩
    refine ⟨hroots, hdomain, ?_, ?_, hstatus, ?_, hprior⟩
    · exact Fin.forall_fin_two.mpr ⟨hg0, hg1⟩
    · exact Fin.forall_fin_two.mpr ⟨hn0, hn1⟩
    · exact Fin.forall_fin_two.mpr ⟨ho0, ho1⟩
  · rintro ⟨hroots, hdomain, hgroups, hnames, hstatus, howners, hprior⟩
    exact ⟨hroots, hdomain, hgroups 0, hgroups 1, hnames 0, hnames 1, hstatus, howners 0, howners 1,
      hprior⟩

/-- Everything a tournament leaves behind is gone. -/
structure TournamentRecord.Clean (record : TournamentRecord) : Prop where
  groups : ∀ i, (record.cgroups.get i).lifecycle = .removed
  domain : record.tournamentCgroup.lifecycle = .removed
  cleanup : ∀ i, (record.status.candidates.get i).cleanup.Complete

theorem TournamentRecord.clean_congr {record next : TournamentRecord}
    (hgroups : ∀ i, (next.cgroups.get i).lifecycle = (record.cgroups.get i).lifecycle)
    (hdomain : next.tournamentCgroup.lifecycle = record.tournamentCgroup.lifecycle)
    (hcleanup : ∀ i, (next.status.candidates.get i).cleanup =
      (record.status.candidates.get i).cleanup) : next.Clean ↔ record.Clean := by
  constructor
  · rintro ⟨h1, h2, h3⟩
    exact ⟨fun i => hgroups i ▸ h1 i, hdomain ▸ h2, fun i => hcleanup i ▸ h3 i⟩
  · rintro ⟨h1, h2, h3⟩
    exact ⟨fun i => (hgroups i).trans (h1 i), hdomain.trans h2, fun i => (hcleanup i).symm ▸ h3 i⟩

theorem TournamentRecord.isPositiveTerminal_iff {record : TournamentRecord} :
    record.isPositiveTerminal = true ↔
      record.Core ∧ record.status.phase.isTerminal = true ∧ record.Clean := by
  simp only [isPositiveTerminal, Bool.and_eq_true, decide_eq_true_eq, Bool.not_eq_true',
    validateCore_eq_ok, Pair.all_iff]
  constructor
  · rintro ⟨⟨⟨⟨⟨hcore, hterminal⟩, -⟩, hgroups⟩, hdomain⟩, hcleanup⟩
    exact ⟨hcore, hterminal, hgroups, hdomain, hcleanup⟩
  · rintro ⟨hcore, hterminal, hgroups, hdomain, hcleanup⟩
    have hflag : record.status.rollbackRequired = false := by
      rw [hcore.status.rollback]
      revert hterminal
      cases record.status.phase <;> decide
    exact ⟨⟨⟨⟨⟨hcore, hterminal⟩, hflag⟩, hgroups⟩, hdomain⟩, hcleanup⟩

/-- What `validate` asks for: a completion time is recorded for a positive terminal only. -/
structure TournamentRecord.Valid (record : TournamentRecord) : Prop where
  core : record.Core
  completed : record.terminalCompletedUnixMs.isSome = true ↔
    record.status.phase.isTerminal = true ∧ record.Clean

theorem TournamentRecord.validate_eq_ok {record : TournamentRecord} :
    record.validate = .ok () ↔ record.Valid := by
  simp only [validate, bind_eq_ok, exists_unit, require_eq_ok, validateCore_eq_ok]
  constructor
  · rintro ⟨hcore, hcompleted⟩
    refine ⟨hcore, ?_⟩
    rw [hcompleted, isPositiveTerminal_iff]
    exact and_iff_right hcore
  · rintro ⟨hcore, hcompleted⟩
    refine ⟨hcore, ?_⟩
    rw [Bool.eq_iff_iff, hcompleted, isPositiveTerminal_iff]
    exact (and_iff_right hcore).symm

/-! ### The first record -/

/-- `prepared_status`. -/
def preparedStatus (tournamentUuid daemonInstanceUuid : Uuid) (candidateUuids : Pair Uuid)
    (generation leaseDeadlineUnixMs : ℕ) : SpeculationStatus where
  schemaVersion := .v1
  tournamentUuid
  daemonInstanceUuid
  phase := .prepared
  generation
  leaseDeadlineUnixMs
  reasonCode := some .preparedLease
  candidates :=
    let candidate (index : ℕ) (candidateUuid : Uuid) : SpeculationCandidateStatus :=
      { candidateUuid, index, ready := false, readyElapsedNs := none, goReceived := false,
        goReceivedElapsedNs := none, resultAccepted := false, exitSuccess := none,
        exitCategory := none, elapsedNs := none, outputBytes := none, eligible := false,
        cleanup := ⟨false, false, false, false, false⟩ }
    ⟨candidate 0 candidateUuids.zero, candidate 1 candidateUuids.one⟩
  fixedScoreOrder := speculationScoreOrder
  selectedIndex := none
  rollbackRequired := false
  errorCodes := .new

/-- The record that `SpeculationService::prepare` allocates. -/
def preparedRecord (roots : PrivateRootIdentities) (cgroupRootLocator : PrivateCgroupRootLocator)
    (tournamentUuid daemonInstanceUuid : Uuid) (candidateUuids : Pair Uuid)
    (leaseDeadlineUnixMs : ℕ) : TournamentRecord where
  schemaVersion := .v1
  bootUuid := roots.source.bootUuid
  roots
  cgroupRootLocator
  tournamentCgroup := ⟨tournamentUuid, .planned, none⟩
  cgroups :=
    ⟨⟨0, candidateUuids.zero, .forward .planned, none, none, none⟩,
      ⟨1, candidateUuids.one, .forward .planned, none, none, none⟩⟩
  managedOwners := ⟨none, none⟩
  restartPriorPhase := none
  terminalCompletedUnixMs := none
  status := preparedStatus tournamentUuid daemonInstanceUuid candidateUuids 1 leaseDeadlineUnixMs

/-- A prepared tournament to try things on: boot 1, tournament 2, daemon 3, candidates 4 and 5. -/
def sampleRecord : TournamentRecord :=
  let root : DurableDirectoryIdentity := ⟨1, 1, 1, 1⟩
  preparedRecord ⟨root, ⟨root, root⟩, root, root⟩
    ⟨⟨[47], by decide, by decide, by decide⟩, root⟩ 2 3 ⟨4, 5⟩ 30000

theorem sampleRecord_valid : sampleRecord.Valid :=
  TournamentRecord.validate_eq_ok.mp (by decide)

end LightTerminal.Speculation.Record
