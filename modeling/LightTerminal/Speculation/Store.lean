import LightTerminal.Library.Run
import LightTerminal.Speculation.Record

/-! # The tournament store

`TournamentStore` keeps one file for each slot of a directory, and what it read of them in memory
(`speculation_registry.rs`). A file is replaced completely or not at all; what the system answers is
a parameter, `WriteIo`. After a write that failed the slot is `Corrupt` in memory, and what its file
holds is known again only when the store is opened the next time.

* `Accepts`: what `TournamentStore::write` asks of a next record, for each kind of write;
* `TournamentStore.write`, `normalizeAfterDaemonRestart`, `allocatePrepared`, `reopen`: the operations. -/

namespace LightTerminal.Speculation.Store

open LightTerminal.Data.Text LightTerminal.Library.Procedure LightTerminal.Library
open LightTerminal.Speculation.Phase LightTerminal.Speculation.Record

/-- `MAX_TOURNAMENT_RECORDS`. -/
def maxTournamentRecords : ℕ := 1024

/-- `MAX_LIVE_TOURNAMENTS`. -/
def maxLiveTournaments : ℕ := 8

/-- `TERMINAL_RETENTION_MILLIS`. -/
def terminalRetentionMillis : ℕ := 7 * 24 * 60 * 60 * 1000

/-! ### What a write may change -/

/-- `option_is_retained`. -/
def optionIsRetained {α : Type} (current next : Option α) : Prop :=
  ∀ value ∈ current, next = some value

instance {α : Type} [DecidableEq α] (current next : Option α) :
    Decidable (optionIsRetained current next) :=
  inferInstanceAs (Decidable (∀ value ∈ current, next = some value))

/-- `cleanup_progresses_to`. -/
def cleanupProgressesTo (current next : SpeculationCleanupStatus) : Prop :=
  (current.runnerAck = true → next.runnerAck = true) ∧
    (current.bwrapReaped = true → next.bwrapReaped = true) ∧
    (current.syncEof = true → next.syncEof = true) ∧
    (current.cgroupEmpty = true → next.cgroupEmpty = true) ∧
    (current.managedTombstone = true → next.managedTombstone = true)
  deriving Decidable

/-- `candidate_progresses_to`. -/
def candidateProgressesTo (current next : SpeculationCandidateStatus) : Prop :=
  current.candidateUuid = next.candidateUuid ∧ current.index = next.index ∧
    (current.ready = true → next.ready = true) ∧
    optionIsRetained current.readyElapsedNs next.readyElapsedNs ∧
    (current.goReceived = true → next.goReceived = true) ∧
    optionIsRetained current.goReceivedElapsedNs next.goReceivedElapsedNs ∧
    (current.resultAccepted = true → next.resultAccepted = true) ∧
    optionIsRetained current.exitSuccess next.exitSuccess ∧
    optionIsRetained current.exitCategory next.exitCategory ∧
    optionIsRetained current.elapsedNs next.elapsedNs ∧
    optionIsRetained current.outputBytes next.outputBytes ∧
    (current.eligible = true → next.eligible = true) ∧
    cleanupProgressesTo current.cleanup next.cleanup
  deriving Decidable

/-- `managed_owner_progresses_to`. -/
def managedOwnerProgressesTo : Option ManagedOwnerEvidence → Option ManagedOwnerEvidence → Prop
  | none, _ => True
  | some _, none => False
  | some current, some next =>
    current = next ∨ current.candidateIndex = next.candidateIndex ∧ current.role = .probe ∧
      next.role = .runner

instance : DecidableRel managedOwnerProgressesTo
  | none, _ => inferInstanceAs (Decidable True)
  | some _, none => inferInstanceAs (Decidable False)
  | some _, some _ => inferInstanceAs (Decidable (_ ∨ _))

/-- `TournamentRecord::immutable_identity_matches`. -/
def immutableIdentityMatches (current next : TournamentRecord) : Prop :=
  current.bootUuid = next.bootUuid ∧ current.roots = next.roots ∧
    current.cgroupRootLocator = next.cgroupRootLocator ∧
    current.tournamentCgroup.immutableIdentityProgressesTo next.tournamentCgroup ∧
    current.status.tournamentUuid = next.status.tournamentUuid ∧
    current.status.daemonInstanceUuid = next.status.daemonInstanceUuid ∧
    current.status.candidates.zero.candidateUuid = next.status.candidates.zero.candidateUuid ∧
    current.status.candidates.one.candidateUuid = next.status.candidates.one.candidateUuid
  deriving Decidable

/-- `TournamentRecord::public_evidence_progresses_to`. -/
def publicEvidenceProgressesTo (current next : TournamentRecord) (retainReason : Bool)
    (allowRollbackSelectionClear : Bool) : Prop :=
  current.status.leaseDeadlineUnixMs ≤ next.status.leaseDeadlineUnixMs ∧
    (retainReason = true → optionIsRetained current.status.reasonCode next.status.reasonCode) ∧
    (allowRollbackSelectionClear = true ∨
      optionIsRetained current.status.selectedIndex next.status.selectedIndex) ∧
    current.status.errorCodes.codes <+: next.status.errorCodes.codes ∧
    current.status.candidates.All₂ candidateProgressesTo next.status.candidates ∧
    current.managedOwners.All₂ managedOwnerProgressesTo next.managedOwners
  deriving Decidable

/-- `TournamentWriteKind`. -/
inductive TournamentWriteKind where
  | livePhaseTransition
  | samePhaseEvidence
  | oldBootAbsence (currentBootUuid : Uuid)
  deriving DecidableEq, Repr

/-- What a kind of write asks of the phases and, for the absence after a reboot, of the evidence. -/
def TournamentWriteKind.Allows (kind : TournamentWriteKind) (current next : TournamentRecord) :
    Prop :=
  match kind with
  | .livePhaseTransition =>
    current.restartPriorPhase = next.restartPriorPhase ∧
      isLegalTransition current.status.phase next.status.phase = true
  | .samePhaseEvidence =>
    current.status.phase = next.status.phase ∧ current.restartPriorPhase = next.restartPriorPhase
  | .oldBootAbsence currentBootUuid =>
    Uuid.isNil currentBootUuid = false ∧ current.bootUuid ≠ currentBootUuid ∧
      current.status.phase = .rollbackPending ∧ next.status.phase = .rollbackPending ∧
      current.restartPriorPhase = next.restartPriorPhase ∧
      current.managedOwners = next.managedOwners ∧
      next.cgroups.All (fun candidate => candidate.lifecycle = .removed) ∧
      next.tournamentCgroup.lifecycle = .removed ∧
      next.status.candidates.All fun candidate => candidate.cleanup.Complete

instance (kind : TournamentWriteKind) (current next : TournamentRecord) :
    Decidable (kind.Allows current next) :=
  match kind with
  | .livePhaseTransition => inferInstanceAs (Decidable (_ ∧ _))
  | .samePhaseEvidence => inferInstanceAs (Decidable (_ ∧ _))
  | .oldBootAbsence _ => inferInstanceAs (Decidable (_ ∧ _))

/-- The write is `OldBootAbsence`. -/
def TournamentWriteKind.isOldBootAbsence : TournamentWriteKind → Bool
  | .oldBootAbsence _ => true
  | _ => false

/-- The checks of `write` on the next record. -/
def Accepts (kind : TournamentWriteKind) (current next : TournamentRecord) : Prop :=
  immutableIdentityMatches current next ∧ kind.Allows current next ∧
    publicEvidenceProgressesTo current next (kind = .samePhaseEvidence)
      (kind = .livePhaseTransition ∧ next.status.phase.isRollbackOnly = true) ∧
    (kind.isOldBootAbsence = false →
      current.tournamentCgroup.lifecycle.isLegalTransition next.tournamentCgroup.lifecycle = true ∧
        current.cgroups.All₂ (fun a b => a.lifecycle.isLegalTransition b.lifecycle = true)
          next.cgroups)
  deriving Decidable

/-! ### The store -/

/-- `FileIdentity`. -/
structure FileIdentity where
  dev : ℕ
  ino : ℕ
  deriving DecidableEq, Repr

/-- A slot file, `StoredJson<TournamentSlotRecord>`. -/
structure StoredSlot where
  identity : FileIdentity
  slot : ℕ
  record : Option TournamentRecord
  deriving DecidableEq, Repr

/-- `TournamentSlotRecord::validate`. -/
def StoredSlot.validate (entry : StoredSlot) (expectedSlot : ℕ) : EvidenceResult Unit := do
  require (entry.slot = expectedSlot) .corrupt
  optional TournamentRecord.validate entry.record

/-- `SlotState`. -/
inductive SlotState where
  | vacant (identity : Option FileIdentity)
  | valid (record : TournamentRecord) (identity : FileIdentity)
  | corrupt
  deriving DecidableEq, Repr

/-- A record that was written to a slot, in the place of another one or of none. -/
structure Install where
  slot : ℕ
  before : Option TournamentRecord
  after : TournamentRecord
  deriving DecidableEq, Repr

/-- `TournamentStore`, with the files of its directory: the slot files and the manifest of the slots
that were written once. `installed` are the writes so far, the latest first, for the statements about
runs; no operation reads it. -/
structure TournamentStore where
  files : List (Option StoredSlot)
  materialized : List Bool
  slots : List SlotState
  unknownCorruptRecords : ℕ
  installed : List Install
  deriving DecidableEq, Repr

/-- A store that was just created. -/
def fresh : TournamentStore where
  files := List.replicate maxTournamentRecords none
  materialized := List.replicate maxTournamentRecords false
  slots := List.replicate maxTournamentRecords (.vacant none)
  unknownCorruptRecords := 0
  installed := []

/-- `TournamentKey`. -/
structure TournamentKey where
  slot : ℕ
  generation : ℕ
  tournamentUuid : Uuid
  deriving DecidableEq, Repr

/-- `key_for`. -/
def keyFor (slot : ℕ) (record : TournamentRecord) : TournamentKey :=
  ⟨slot, record.status.generation, record.status.tournamentUuid⟩

/-- `StoredTournamentUpdate`. -/
structure StoredTournamentUpdate where
  key : TournamentKey
  record : TournamentRecord
  deriving DecidableEq, Repr

/-- An operation on the store. -/
abbrev Op := Proc EvidenceError TournamentStore

/-- How the write of a file goes: `renamed` fails after the file is written. -/
inductive WriteIo where
  | done (identity : FileIdentity)
  | failed (error : EvidenceError)
  | renamed (identity : FileIdentity) (error : EvidenceError)
  deriving DecidableEq, Repr

namespace TournamentStore

/-- The file of a slot. -/
def file (store : TournamentStore) (slot : ℕ) : Option StoredSlot := store.files[slot]?.join

/-- A slot in memory changed. -/
def setSlot (store : TournamentStore) (slot : ℕ) (state : SlotState) : TournamentStore :=
  { store with slots := store.slots.set slot state }

/-- A slot file written. -/
def install (store : TournamentStore) (slot : ℕ) (identity : FileIdentity)
    (record : TournamentRecord) : TournamentStore :=
  { store with
    files := store.files.set slot (some ⟨identity, slot, some record⟩)
    installed := ⟨slot, (store.file slot).bind StoredSlot.record, record⟩ :: store.installed }

end TournamentStore

/-- The write of a slot file, once nothing stands against it. -/
def publish (io : WriteIo) (slot : ℕ) (record : TournamentRecord) : Op StoredSlot :=
  match io with
  | .done identity => do
    modify fun store => store.install slot identity record
    return ⟨identity, slot, some record⟩
  | .failed error => throw error
  | .renamed identity error => do
    modify fun store => store.install slot identity record
    throw error

/-- `atomic_create_json`. -/
def atomicCreateJson (io : WriteIo) (slot : ℕ) (record : TournamentRecord) : Op StoredSlot := do
  let store ← get
  ensure (store.file slot = none) .alreadyExists
  publish io slot record

/-- `atomic_replace_json`. -/
def atomicReplaceJson (io : WriteIo) (slot : ℕ) (expected : FileIdentity)
    (record : TournamentRecord) : Op StoredSlot := do
  let store ← get
  let entry ← okOr (store.file slot) .missing
  ensure (entry.identity = expected) .stale
  publish io slot record

/-- The slot is `Corrupt` in memory after an error. -/
def orCorrupt {α : Type} (slot : ℕ) (m : Op α) : Op α :=
  tryCatch m fun error => do
    modify fun store => store.setSlot slot .corrupt
    throw error

/-- The record of a slot file that was just written, with what `write` and `allocate_prepared` check
of it. -/
def storedRecord (slot : ℕ) (write : Op StoredSlot) : Op (StoredSlot × TournamentRecord) := do
  let entry ← write
  liftM (entry.validate slot)
  let record ← okOr entry.record .corrupt
  return (entry, record)

/-- The record in memory of a slot, for `write`. -/
def TournamentStore.validSlot (store : TournamentStore) (slot : ℕ) :
    Option (TournamentRecord × FileIdentity) :=
  match store.slots[slot]? with
  | some (.valid record identity) => some (record, identity)
  | _ => none

/-- A key that names a record with a generation, and the generation of a next record. -/
def keyMatches (key : TournamentKey) (expectedGeneration : ℕ) (current next : TournamentRecord) :
    Prop :=
  key.tournamentUuid = current.status.tournamentUuid ∧ key.generation = expectedGeneration ∧
    current.status.generation = expectedGeneration ∧ expectedGeneration + 1 < 2 ^ 64 ∧
    next.status.generation = expectedGeneration + 1
  deriving Decidable

/-- The record in the place of the current one, and the slot in memory as well. -/
def replaceRecord (io : WriteIo) (slot : ℕ) (identity : FileIdentity) (next : TournamentRecord) :
    Op StoredTournamentUpdate := do
  let (entry, stored) ← orCorrupt slot (storedRecord slot (atomicReplaceJson io slot identity next))
  modify fun store => store.setSlot slot (.valid stored entry.identity)
  return ⟨keyFor slot stored, stored⟩

/-- `TournamentStore::write`. -/
def write (io : WriteIo) (key : TournamentKey) (expectedGeneration : ℕ) (next : TournamentRecord)
    (kind : TournamentWriteKind) : Op StoredTournamentUpdate := do
  liftM next.validate
  let store ← get
  let (current, identity) ← okOr (store.validSlot key.slot) .generationMismatch
  ensure (keyMatches key expectedGeneration current next ∧ Accepts kind current next)
    .generationMismatch
  replaceRecord io key.slot identity next

/-! ### Restarts -/

/-- The slot holds the record of a tournament. -/
def SlotState.holds (id : Uuid) : SlotState → Bool
  | .valid record _ => record.status.tournamentUuid = id
  | _ => false

/-- `load_by_uuid`; `readable` is false if the file cannot be read. -/
def loadByUuid (readable : Bool) (id : Uuid) : Op (Option TournamentRecord) := do
  let store ← get
  match store.slots.findIdx? (SlotState.holds id) with
  | none => return none
  | some slot =>
    let (record, identity) ← okOr (store.validSlot slot) .corrupt
    orCorrupt slot (ensure (readable = true ∧ store.file slot = some ⟨identity, slot, some record⟩ ∧
      record.validate = .ok ()) .corrupt)
    return some record

/-- The record that `normalize_after_daemon_restart` writes. -/
def normalized (current : TournamentRecord) (generation : ℕ) : TournamentRecord :=
  { current with
    restartPriorPhase := some current.status.phase
    status :=
      { current.status with
        generation
        phase := .rollbackRequired
        rollbackRequired := true
        selectedIndex := none
        reasonCode := some
          (if current.status.phase = .decisionUncertain then .decisionUncertainAfterRestart
           else .containmentEvidenceUnavailable) } }

/-- `write_restart_normalization`. -/
def writeRestartNormalization (io : WriteIo) (key : TournamentKey) (expectedGeneration : ℕ)
    (currentSnapshot next : TournamentRecord) : Op StoredTournamentUpdate := do
  liftM next.validate
  let store ← get
  let (current, identity) ← okOr (store.validSlot key.slot) .generationMismatch
  ensure (current = currentSnapshot ∧ keyMatches key expectedGeneration current next ∧
    immutableIdentityMatches current next ∧
    next.restartPriorPhase = some current.status.phase ∧ next.status.phase = .rollbackRequired ∧
    next.status.rollbackRequired = true ∧ next.status.selectedIndex = none ∧
    current.terminalCompletedUnixMs = none) .generationMismatch
  replaceRecord io key.slot identity next

/-- `TournamentStore::normalize_after_daemon_restart`. -/
def normalizeAfterDaemonRestart (readable : Bool) (io : WriteIo) (key : TournamentKey)
    (expectedGeneration : ℕ) (currentDaemonInstanceUuid : Uuid) : Op StoredTournamentUpdate := do
  ensure (Uuid.isNil currentDaemonInstanceUuid = false) .corrupt
  let loaded ← loadByUuid readable key.tournamentUuid
  let current ← okOr loaded .generationMismatch
  ensure (key.generation = expectedGeneration ∧ current.status.generation = expectedGeneration ∧
    current.status.daemonInstanceUuid ≠ currentDaemonInstanceUuid) .generationMismatch
  if current.status.phase.isTerminal = true ∨ current.status.phase = .rollbackRequired then
    return ⟨keyFor key.slot current, current⟩
  ensure (current.restartPriorPhase = none) .corrupt
  ensure (expectedGeneration + 1 < 2 ^ 64) .generationMismatch
  writeRestartNormalization io key expectedGeneration current
    (normalized current (expectedGeneration + 1))

/-! ### Allocation -/

/-- The slots that `occupied_live_count` counts. -/
def SlotState.isLive : SlotState → Bool
  | .vacant _ => false
  | .corrupt => true
  | .valid record _ => !record.isPositiveTerminal

/-- `occupied_live_count`. -/
def occupiedLiveCount (store : TournamentStore) : ℕ :=
  store.unknownCorruptRecords + store.slots.countP SlotState.isLive

/-- `u64::saturating_add`. -/
def saturatingAdd (a b : ℕ) : ℕ := min (a + b) (2 ^ 64 - 1)

/-- A slot that `select_allocation_slot` gives to a new tournament for a finished one. -/
def SlotState.isExpired (now : ℕ) : SlotState → Bool
  | .valid record _ => record.isPositiveTerminal && record.terminalCompletedUnixMs.any fun completed =>
      saturatingAdd completed terminalRetentionMillis ≤ now
  | _ => false

/-- The slot is vacant. -/
def SlotState.isVacant : SlotState → Bool
  | .vacant _ => true
  | _ => false

/-- `select_allocation_slot`. -/
def selectAllocationSlot (store : TournamentStore) (now : ℕ) : Option ℕ :=
  (store.slots.findIdx? SlotState.isVacant).or (store.slots.findIdx? (SlotState.isExpired now))

/-- `persist_materialized_slots` for one slot. -/
def persistMaterializedSlot (io : WriteIo) (slot : ℕ) : Op Unit :=
  let mark (store : TournamentStore) : TournamentStore :=
    { store with materialized := store.materialized.set slot true }
  match io with
  | .done _ => modify mark
  | .failed error => throw error
  | .renamed _ error => do
    modify mark
    throw error

/-- `TournamentStore::allocate_prepared`. -/
def allocatePrepared (io manifestIo : WriteIo) (record : TournamentRecord) (now : ℕ) :
    Op TournamentKey := do
  liftM record.validate
  ensure (record.status.phase = .prepared ∧ record.terminalCompletedUnixMs = none) .corrupt
  let store ← get
  ensure (store.slots.all fun state => !state.holds record.status.tournamentUuid) .alreadyExists
  ensure (occupiedLiveCount store < maxLiveTournaments) .capacity
  let slot ← okOr (selectAllocationSlot store now) .capacity
  let (entry, stored) ← orCorrupt slot (storedRecord slot
    (match store.slots[slot]? with
    | some (.vacant (some identity)) => atomicReplaceJson io slot identity record
    | some (.vacant none) => atomicCreateJson io slot record
    | some (.valid _ identity) => atomicReplaceJson io slot identity record
    | _ => throw .capacity))
  if store.slots[slot]? = some (.vacant none) then
    orCorrupt slot (persistMaterializedSlot manifestIo slot)
  modify fun store => store.setSlot slot (.valid stored entry.identity)
  return keyFor slot record

/-! ### Opening -/

/-- What the system answers when the store is opened: which slot files can be read, and how many
files there are that belong to no slot. -/
structure OpenIo where
  readable : ℕ → Bool
  unknown : ℕ

/-- The state of a slot when the store is opened. -/
def openSlot (io : OpenIo) (store : TournamentStore) (slot : ℕ) : SlotState :=
  match store.file slot with
  | none => if store.materialized[slot]?.getD false then .corrupt else .vacant none
  | some entry =>
    if io.readable slot ∧ entry.validate slot = .ok () then
      match entry.record with
      | some record => .valid record entry.identity
      | none => .vacant (some entry.identity)
    else .corrupt

/-- The first `count` slots when the store is opened. -/
def openSlots (io : OpenIo) (store : TournamentStore) (count : ℕ) : List SlotState :=
  (List.range count).map (openSlot io store)

/-- The manifest with the slots that there are files of. -/
def mergeMaterialized (store : TournamentStore) (count : ℕ) : List Bool :=
  (List.range count).map fun slot =>
    store.materialized[slot]?.getD false || (store.file slot).isSome

/-- `TournamentStore::open`, on the directory of a store. -/
def reopen (io : OpenIo) (store : TournamentStore) : TournamentStore :=
  { store with
    materialized := mergeMaterialized store maxTournamentRecords
    slots := openSlots io store maxTournamentRecords
    unknownCorruptRecords := io.unknown }

@[simp] theorem reopen_file (io : OpenIo) (store : TournamentStore) (slot : ℕ) :
    (reopen io store).file slot = store.file slot := by
  simp only [TournamentStore.file, reopen]

@[simp] theorem reopen_files (io : OpenIo) (store : TournamentStore) :
    (reopen io store).files = store.files := by
  simp only [reopen]

@[simp] theorem reopen_slots (io : OpenIo) (store : TournamentStore) :
    (reopen io store).slots = openSlots io store maxTournamentRecords := by
  simp only [reopen]

@[simp] theorem reopen_installed (io : OpenIo) (store : TournamentStore) :
    (reopen io store).installed = store.installed := by
  simp only [reopen]

/-! ### Runs -/

/-- The operations on the store, with what the system answers. -/
inductive Operation where
  | allocatePrepared (io manifestIo : WriteIo) (record : TournamentRecord) (now : ℕ)
  | write (io : WriteIo) (key : TournamentKey) (expectedGeneration : ℕ) (next : TournamentRecord)
      (kind : TournamentWriteKind)
  | normalizeAfterDaemonRestart (readable : Bool) (io : WriteIo) (key : TournamentKey)
      (expectedGeneration : ℕ) (currentDaemonInstanceUuid : Uuid)
  | loadByUuid (readable : Bool) (id : Uuid)
  | reopen (io : OpenIo)

/-- An operation performed. -/
def perform : Operation → Op Unit
  | .allocatePrepared io manifestIo record now =>
    Functor.discard (allocatePrepared io manifestIo record now)
  | .write io key expectedGeneration next kind =>
    Functor.discard (write io key expectedGeneration next kind)
  | .normalizeAfterDaemonRestart readable io key expectedGeneration currentDaemonInstanceUuid =>
    Functor.discard
      (normalizeAfterDaemonRestart readable io key expectedGeneration currentDaemonInstanceUuid)
  | .loadByUuid readable id => Functor.discard (loadByUuid readable id)
  | .reopen io => modify (reopen io)

/-- The store after an operation, however it ends. -/
def step (store : TournamentStore) (op : Operation) : TournamentStore := (exec (perform op) store).2

/-- The store after a list of operations. -/
def run (store : TournamentStore) (ops : List Operation) : TournamentStore := Run.run step store ops

end LightTerminal.Speculation.Store
