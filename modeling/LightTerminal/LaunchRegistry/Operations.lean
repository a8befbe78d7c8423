import LightTerminal.Library.Run
import LightTerminal.LaunchRegistry.Artifacts
import LightTerminal.LaunchRegistry.Store

/-! # The operations of the registry

The functions of `Registry` and `ManagedLaunchReservation` that write slot records. The answers of the
system are parameters: the locks, the reads and replacements of files, the evidence about processes,
the clock and the random bits.

An `Operation` is one call with its arguments and these answers. Its arguments are arbitrary, so that
a reservation or a binding may be stale. `run` performs one operation after another; an operation that
ends with a crash leaves the files as they were then, and the next one is that of another process. -/

namespace LightTerminal.LaunchRegistry.Operations

open LightTerminal.Data.Text LightTerminal.Library LightTerminal.Library.Procedure
open LightTerminal.LaunchRegistry.Record LightTerminal.LaunchRegistry.Transition
open LightTerminal.LaunchRegistry.Store LightTerminal.LaunchRegistry.Artifacts

/-- `ManagedKey`. -/
structure ManagedKey where
  slot : ℕ
  generation : ℕ
  deriving DecidableEq, Repr

/-- `OfdLock::try_acquire`; `free` is whether the lock is. -/
abbrev acquire (free : Bool) (message : String) : Op Unit := liftM (ensure free message)

/-- A call of the system that may fail. -/
abbrev system (io : Option String) : Op Unit :=
  liftM (optional (fun message => throw (Failure.error message)) io : Result Unit)

/-! ### Allocation -/

/-- `TOMBSTONE_RETENTION` in seconds. -/
def tombstoneRetention : ℕ := 24 * 60 * 60

/-- The age of a tombstone is at least the retention; a clock before the tombstone has no age. -/
def expired (nowUnixSecs resolvedUnixSecs : ℕ) : Bool :=
  resolvedUnixSecs ≤ nowUnixSecs && tombstoneRetention ≤ nowUnixSecs - resolvedUnixSecs

/-- What the loop of `allocate_intent` has found. -/
structure Scan where
  selected : Option SlotRecord
  unknown : ℕ
  unreadable : ℕ

/-- What the system answers for one slot of the loop. -/
structure ScanIo where
  read : Option String
  replace : ReplaceIo

/-- One turn of the loop of `allocate_intent`. -/
def scanSlot (io : ScanIo) (nowUnixSecs : ℕ) (owner : Option ManagedOwnerTag) (slot : ℕ)
    (scan : Scan) : Op Scan := do
  match ← readSlot io.read slot with
  | .unknown _ =>
    return { scan with unknown := scan.unknown + 1, unreadable := scan.unreadable + 1 }
  | .valid record =>
    ensure (owner.isNone ∨ record.owner ≠ owner)
      "managed owner already has a durable registry record"
    match record.state with
    | .vacant => return { scan with selected := scan.selected.or (some record) }
    | .resolvedTombstone _ _ resolvedUnixSecs =>
      if expired nowUnixSecs resolvedUnixSecs ∧ record.artifactBinding.isNone then
        let vacant := { record with owner := none, state := .vacant }
        replaceSlot io.replace record vacant
        return { scan with selected := scan.selected.or (some vacant) }
      else return { scan with unknown := scan.unknown + 1 }
    | _ => return { scan with unknown := scan.unknown + 1 }

/-- The loop of `allocate_intent`. -/
def scanSlots (io : ℕ → ScanIo) (nowUnixSecs : ℕ) (owner : Option ManagedOwnerTag) :
    List ℕ → Scan → Op Scan
  | [], scan => return scan
  | slot :: rest, scan => do
    let scan ← scanSlot (io slot) nowUnixSecs owner slot scan
    scanSlots io nowUnixSecs owner rest scan

/-- What the system answers to `allocate_intent`; `random` are the bits of the nonce. -/
structure AllocateIo where
  lock : Bool
  scan : ℕ → ScanIo
  random : BitVec 128
  registration : ReplaceIo
  replace : ReplaceIo
  guard : Bool

/-- The record of a new intent. -/
def intentRecord (vacant : SlotRecord) (generation : ℕ) (owner : Option ManagedOwnerTag)
    (nonce : Uuid) (nowUnixSecs : ℕ) : SlotRecord :=
  { schemaVersion := slotSchemaVersion, slot := vacant.slot, generation, owner,
    artifactBinding := none, state := .intentDurable nonce nowUnixSecs }

/-- `allocate_intent`; the result is the record of the `LaunchIntent`. -/
def allocateIntent (io : AllocateIo) (nowUnixSecs : ℕ) (owner : Option ManagedOwnerTag) :
    Op SlotRecord := do
  optional ManagedOwnerTag.validate owner
  acquire io.lock "managed launch registry is busy"
  let slotCount := (← get).slots.length
  let scan ← scanSlots io.scan nowUnixSecs owner (List.range slotCount) ⟨none, 0, 0⟩
  ensure (owner.isNone ∨ scan.unreadable = 0)
    ("unknown_orphan_risk: managed owner uniqueness is uncertain (" ++ toString scan.unreadable ++
      "/" ++ toString slotCount ++ " unreadable)")
  let vacant ← context scan.selected
    ("unknown_orphan_risk: managed registry capacity exhausted (" ++ toString scan.unknown ++ "/" ++
      toString slotCount ++ " unresolved)")
  let generation ← context (checkedSucc vacant.generation)
    "slot generation exhausted; generation must never wrap"
  let nonce := Uuid.newV4 io.random
  replaceRegistration io.registration vacant.slot
    { schemaVersion := gateSchemaVersion, slot := vacant.slot, generation, registration := none }
  let intent := intentRecord vacant generation owner nonce nowUnixSecs
  replaceSlot io.replace vacant intent
  acquire io.guard "unknown_orphan_risk: intent durable but slot guard is busy"
  return intent

/-! ### Artifacts -/

/-- `ManagedLaunchReservation`: the record of its intent, until it is consumed. -/
structure ManagedLaunchReservation where
  intent : Option SlotRecord

/-- The common part of the creation steps: the binding is written, and the reservation follows. -/
def bindReservation (io : ReplaceIo) (reservation : ManagedLaunchReservation)
    (next : SlotRecord → Result ManagedArtifactBinding) :
    Op (ManagedArtifactBinding × ManagedLaunchReservation) := do
  let record ← context reservation.intent "managed launch reservation was already consumed"
  let binding ← next record
  replaceSlot io record { record with artifactBinding := some binding }
  return (binding, ⟨some { record with artifactBinding := some binding }⟩)

/-- `begin_artifact_creation`. -/
def beginArtifactCreation (io : ReplaceIo) (reservation : ManagedLaunchReservation)
    (controlRoot : ManagedDirectoryIdentity) (privateLeaf : Str) :
    Op (ManagedArtifactBinding × ManagedLaunchReservation) := do
  controlRoot.validate
  bindReservation io reservation (bindArtifact controlRoot privateLeaf)

/-- The other creation steps. -/
def continueArtifactCreation (io : ReplaceIo) (reservation : ManagedLaunchReservation)
    (step : CreationStep) : Op (ManagedArtifactBinding × ManagedLaunchReservation) := do
  step.validate
  bindReservation io reservation step.next

/-- What the system answers to an operation on one slot. -/
structure UpdateIo where
  lock : Bool
  read : Option String
  replace : ReplaceIo

/-- The common part of the operations on a binding: the slot of the key is read under the registry
lock, and its binding kept or replaced. -/
def updateArtifact (io : UpdateIo) (key : ManagedKey) (operation : CleanupOperation) :
    Op ManagedArtifactBinding := do
  acquire io.lock "managed launch registry is busy"
  let current ← readValidSlot io.read key.slot
  ensure (current.generation = key.generation) "generation conflict"
  match ← operation.decide current with
  | .keep binding => return binding
  | .write binding =>
    replaceSlot io.replace current { current with artifactBinding := some binding }
    return binding

/-- `acknowledge_artifact_cleanup`. -/
def acknowledgeArtifactCleanup (io : UpdateIo) (key : ManagedKey)
    (binding : ManagedArtifactBinding) : Op Unit := do
  acquire io.lock "managed launch registry is busy"
  let current ← readValidSlot io.read key.slot
  ensure (current.generation = key.generation) "generation conflict"
  if current.artifactBinding.isNone ∧ current.state.isTombstone then return ()
  let authoritative ← context current.artifactBinding
    "managed artifact cleanup was already acknowledged"
  ensure (authoritative.sameArtifact binding) "managed artifact cleanup acknowledgement mismatch"
  ensure (authoritative.creationPending = false) "managed artifact creation is unresolved"
  ensure (current.state.isTombstone ∧ authoritative.cleanupQuarantine.isSome ∧
      authoritative.cleanupCompleted)
    "managed artifact cleanup acknowledgement lacks durable completion proof"
  replaceSlot io.replace current { current with artifactBinding := none }

/-! ### Processes -/

/-- What the system answers to `record_identity`. -/
structure IdentityIo where
  registration : Option String
  replace : ReplaceIo

/-- `record_identity`. -/
def recordIdentity (io : IdentityIo) (intent : SlotRecord) (registration : GateRegistration) :
    Op SlotRecord := do
  match intent.state with
  | .intentDurable nonce _ =>
    ensure (registration.slot = intent.slot) "Condition failed: `registration.slot == intent.slot`"
    ensure (registration.generation = intent.generation)
      "Condition failed: `registration.generation == intent.generation`"
    ensure (registration.nonce = nonce) "Condition failed: `registration.nonce == nonce`"
    let durableRegistration ← readRegistration io.registration intent.slot
    ensure (durableRegistration.registration = some registration)
      "gate registration durable readback mismatch"
    let identity :=
      { intent with
        schemaVersion := slotSchemaVersion
        state := .identityDurable nonce registration.identity true }
    replaceSlot io.replace intent identity
    return identity
  | _ => throw (.error "slot is not IntentDurable")

/-- The part of the gate that registers its identity, between its start and its hello. -/
def registerGate (read : Option String) (io : ReplaceIo) (slot generation : ℕ) (nonce : Uuid)
    (identity : ProcessIdentity) : Op Unit := do
  let intent ← readValidSlot read slot
  ensure (intent.generation = generation) "Condition failed: `intent.generation == generation`"
  ensure (intent.state.isIntent ∧ intent.state.nonce = some nonce) "Condition failed: `matches!(..)`"
  replaceRegistration io slot
    { schemaVersion := gateSchemaVersion, slot, generation
      registration := some
        { schemaVersion := gateSchemaVersion, slot, generation, nonce, identity } }

/-- `ManagedReconcileCode`. -/
inductive ManagedReconcileCode where
  | invalidIntentState
  | busyGuardIdentityAbsent
  | registrationUnavailable
  | processStillLive
  | processEvidenceUnavailable
  | reconciliationFailed
  | unknownSlot
  | duplicateOwner
  deriving DecidableEq, Repr

/-- `ReconcileOutcome`. -/
inductive ReconcileOutcome where
  | absent
  | live
  | unknownOrphanRisk (code : ManagedReconcileCode)
  | resolvedTombstone
  deriving DecidableEq, Repr

/-- What the system answers to `cleanup`: the locks, the files, `open_verified_pidfd`, the signal and
the wait, `verify_exact_process`, and the clock, which is missing before the Unix epoch. -/
structure CleanupIo where
  lock : Bool
  read : Option String
  guard : Bool
  registration : Option String
  pending : ReplaceIo
  openVerifiedPidfd : ProcessIdentity → Evidence Unit
  signal : Option String
  wait : Option String
  verifyExactProcess : ProcessIdentity → Evidence ProcessIdentity
  clock : Option ℕ
  tombstone : ReplaceIo

/-- The registration of a sidecar, if it is that of the intent. -/
def registrationOf (record : SlotRecord) (nonce : Uuid) (sidecar : RegistrationRecord) :
    Option GateRegistration :=
  if sidecar.generation = record.generation then
    sidecar.registration.filter fun registration =>
      registration.nonce = nonce ∧ registration.slot = record.slot ∧
        registration.generation = record.generation
  else none

/-- `reconcile_intent`. -/
def reconcileIntent (io : CleanupIo) (record : SlotRecord) : Op ReconcileOutcome := do
  match record.state with
  | .intentDurable nonce _ =>
    if io.guard then return .absent
    let sidecar ← tryCatch (some <$> readRegistration io.registration record.slot) fun _ => pure none
    match sidecar.bind (registrationOf record nonce) with
    | some registration =>
      match io.verifyExactProcess registration.identity with
      | .present _ => return .live
      | .absent => return .unknownOrphanRisk .busyGuardIdentityAbsent
      | .unavailable _ => return .unknownOrphanRisk .processEvidenceUnavailable
    | none => return .unknownOrphanRisk .registrationUnavailable
  | _ => return .unknownOrphanRisk .invalidIntentState

/-- `persist_tombstone`. -/
def persistTombstone (io : CleanupIo) (current : SlotRecord) (nonce : Uuid)
    (identity : Option ProcessIdentity) : Op ReconcileOutcome := do
  let resolvedUnixSecs ← context io.clock "system clock is before Unix epoch"
  replaceSlot io.tombstone current
    { current with state := .resolvedTombstone nonce identity resolvedUnixSecs }
  return .resolvedTombstone

/-- The end of `cleanup`: the process is killed, unless it is gone, and a tombstone written once its
absence is proved. -/
def resolveProcess (io : CleanupIo) (pending : SlotRecord) (nonce : Uuid)
    (identity : ProcessIdentity) : Op ReconcileOutcome := do
  match io.openVerifiedPidfd identity with
  | .present _ =>
    system io.signal
    system io.wait
    match io.verifyExactProcess identity with
    | .absent => persistTombstone io pending nonce (some identity)
    | .present _ => return .unknownOrphanRisk .processStillLive
    | .unavailable _ => return .unknownOrphanRisk .processEvidenceUnavailable
  | .absent => persistTombstone io pending nonce (some identity)
  | .unavailable _ => return .unknownOrphanRisk .processEvidenceUnavailable

/-- The second half of `cleanup`, for a slot with a recorded process. -/
def cleanupProcess (io : CleanupIo) (current : SlotRecord) (nonce : Uuid)
    (identity : ProcessIdentity) (releaseMayHaveOccurred : Bool) : Op ReconcileOutcome := do
  let pending := { current with state := .cleanupPending nonce identity releaseMayHaveOccurred }
  if current ≠ pending then replaceSlot io.pending current pending
  resolveProcess io pending nonce identity

/-- `cleanup`. -/
def cleanup (io : CleanupIo) (slot generation : ℕ) : Op ReconcileOutcome := do
  acquire io.lock "managed launch registry is busy"
  let current ← readValidSlot io.read slot
  ensure (current.generation = generation) "generation conflict"
  match current.state with
  | .identityDurable nonce identity release => cleanupProcess io current nonce identity release
  | .cleanupPending nonce identity release => cleanupProcess io current nonce identity release
  | .resolvedTombstone _ _ _ => return .resolvedTombstone
  | .intentDurable nonce _ =>
    match ← reconcileIntent io current with
    | .absent => persistTombstone io current nonce none
    | outcome => return outcome
  | .vacant => return .absent

/-- `Result::unwrap_or`: an error is replaced, a crash is not. -/
def unwrapOr {α : Type} (op : Op α) (default : α) : Op α :=
  tryCatch op fun
    | .error _ => pure default
    | .crash => throw .crash

/-- `ManagedReconcileEntry`. -/
structure ManagedReconcileEntry where
  key : Option ManagedKey
  owner : Option ManagedOwnerTag
  artifactBinding : Option ManagedArtifactBinding
  outcome : ReconcileOutcome

/-- The entry of a slot in `reconcile_all`, for the read and the cleanup of it. -/
def reconcileSlot (read : Option String) (io : CleanupIo) (slot : ℕ) :
    Op (Option ManagedReconcileEntry) := do
  match ← readSlot read slot with
  | .unknown _ => return some ⟨none, none, none, .unknownOrphanRisk .unknownSlot⟩
  | .valid record =>
    let entry (outcome : ReconcileOutcome) : Option ManagedReconcileEntry :=
      some ⟨some ⟨slot, record.generation⟩, record.owner, record.artifactBinding, outcome⟩
    match record.state with
    | .vacant => return none
    | .resolvedTombstone _ _ _ => return entry .resolvedTombstone
    | _ =>
      return entry (← unwrapOr (cleanup io slot record.generation)
        (.unknownOrphanRisk .reconciliationFailed))

/-- The slots of `reconcile_all` in their order. -/
def reconcileSlots (read : ℕ → Option String) (io : ℕ → CleanupIo) :
    List ℕ → Op (List ManagedReconcileEntry)
  | [] => return []
  | slot :: rest => do
    let entry ← reconcileSlot (read slot) (io slot) slot
    let entries ← reconcileSlots read io rest
    return entry.toList ++ entries

/-- `reconcile_all`. -/
def reconcileAll (read : ℕ → Option String) (io : ℕ → CleanupIo) : Op (List ManagedReconcileEntry) := do
  reconcileSlots read io (List.range (← get).slots.length)

/-- `ManagedOwnerOutcome`. -/
inductive ManagedOwnerOutcome where
  | absent
  | resolvedTombstone (key : ManagedKey)
  | unknownOrphanRisk (code : ManagedReconcileCode)
  deriving DecidableEq, Repr

/-- The loop of `reconcile_owner`: the record of the owner, or the code it returns early. -/
def matchOwner (read : ℕ → Option String) (owner : ManagedOwnerTag) :
    List ℕ → Option SlotRecord → Op (Except ManagedReconcileCode (Option SlotRecord))
  | [], matched => return .ok matched
  | slot :: rest, matched => do
    match ← readSlot (read slot) slot with
    | .unknown _ => return .error .unknownSlot
    | .valid record =>
      if record.owner = some owner then
        if matched.isSome then return .error .duplicateOwner
        else matchOwner read owner rest (some record)
      else matchOwner read owner rest matched

/-- `reconcile_owner`. -/
def reconcileOwner (read : ℕ → Option String) (io : CleanupIo) (owner : ManagedOwnerTag) :
    Op ManagedOwnerOutcome := do
  owner.validate
  match ← matchOwner read owner (List.range (← get).slots.length) none with
  | .error code => return .unknownOrphanRisk code
  | .ok none => return .absent
  | .ok (some record) =>
    match record.state with
    | .resolvedTombstone _ _ _ => return .resolvedTombstone ⟨record.slot, record.generation⟩
    | .vacant => return .absent
    | _ =>
      match ← unwrapOr (some <$> cleanup io record.slot record.generation) none with
      | none => return .unknownOrphanRisk .reconciliationFailed
      | some .resolvedTombstone => return .resolvedTombstone ⟨record.slot, record.generation⟩
      | some .absent => return .absent
      | some .live => return .unknownOrphanRisk .processStillLive
      | some (.unknownOrphanRisk code) => return .unknownOrphanRisk code

/-! ### Runs -/

/-- One call of an operation, with the answers of the system. -/
inductive Operation where
  | allocateIntent (io : AllocateIo) (nowUnixSecs : ℕ) (owner : Option ManagedOwnerTag)
  | beginArtifactCreation (io : ReplaceIo) (reservation : ManagedLaunchReservation)
      (controlRoot : ManagedDirectoryIdentity) (privateLeaf : Str)
  | continueArtifactCreation (io : ReplaceIo) (reservation : ManagedLaunchReservation)
      (step : CreationStep)
  | recordIdentity (io : IdentityIo) (intent : SlotRecord) (registration : GateRegistration)
  | registerGate (read : Option String) (io : ReplaceIo) (slot generation : ℕ) (nonce : Uuid)
      (identity : ProcessIdentity)
  | cleanup (io : CleanupIo) (slot generation : ℕ)
  | reconcileAll (read : ℕ → Option String) (io : ℕ → CleanupIo)
  | reconcileOwner (read : ℕ → Option String) (io : CleanupIo) (owner : ManagedOwnerTag)
  | updateArtifact (io : UpdateIo) (key : ManagedKey) (operation : CleanupOperation)
  | acknowledgeArtifactCleanup (io : UpdateIo) (key : ManagedKey) (binding : ManagedArtifactBinding)

/-- The time at which an operation may reclaim tombstones. -/
def Operation.reclaimClock : Operation → Option ℕ
  | .allocateIntent _ nowUnixSecs _ => some nowUnixSecs
  | _ => none

/-- An operation as a procedure, without its result. -/
def Operation.perform : Operation → Op Unit
  | .allocateIntent io nowUnixSecs owner => discard (Operations.allocateIntent io nowUnixSecs owner)
  | .beginArtifactCreation io reservation controlRoot privateLeaf =>
    discard (Operations.beginArtifactCreation io reservation controlRoot privateLeaf)
  | .continueArtifactCreation io reservation step =>
    discard (Operations.continueArtifactCreation io reservation step)
  | .recordIdentity io intent registration =>
    discard (Operations.recordIdentity io intent registration)
  | .registerGate read io slot generation nonce identity =>
    Operations.registerGate read io slot generation nonce identity
  | .cleanup io slot generation => discard (Operations.cleanup io slot generation)
  | .reconcileAll read io => discard (Operations.reconcileAll read io)
  | .reconcileOwner read io owner => discard (Operations.reconcileOwner read io owner)
  | .updateArtifact io key operation => discard (Operations.updateArtifact io key operation)
  | .acknowledgeArtifactCleanup io key binding =>
    Operations.acknowledgeArtifactCleanup io key binding

/-- The files after an operation, however it ended. -/
def step (reg : Registry) (operation : Operation) : Registry := (exec operation.perform reg).2

/-- The files after a list of operations. -/
def run (reg : Registry) (operations : List Operation) : Registry := Run.run step reg operations

end LightTerminal.LaunchRegistry.Operations
