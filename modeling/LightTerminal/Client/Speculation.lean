import LightTerminal.Library.Interleave
import LightTerminal.Speculation.Ledger

/-! # The clients of a tournament

`speculate_run`, `speculate_status`, `speculate_finalize` and `speculate_rollback` of `client.rs`, as
programs on the ledger directory. A client process is one call of them. Each request to the daemon is
one action, whose response comes from outside, so that a request or its response may be lost and the
daemon may answer anything. A read of the ledger is one action, and so is a write.

The mutations of the ledger are those of `speculation_ledger.rs`, on a directory that exchanges a file
only for the one that was presented, with its content (`Call.exactly`).

`log` records the requests and the files that were exchanged, the latest first. No client reads it. -/

namespace LightTerminal.Client.Speculation

open LightTerminal.Data.Text LightTerminal.Library LightTerminal.Library.Procedure
open LightTerminal.Library.Interleave LightTerminal.Speculation.Phase
open LightTerminal.Speculation.Record LightTerminal.Speculation.Ledger

/-! ### Errors -/

/-- `SpeculationClientError`. -/
inductive SpeculationClientError where
  | unsupported
  | unavailable
  | capacityExhausted
  | invalidRequest
  | invalidTransition
  | staleGeneration
  | generationExhausted
  | containmentUnavailable
  | rollbackRequired
  | decisionUncertain
  | evidenceUnavailable
  | protocolMismatch
  | transport
  | transportProtocol
  | responseInvalid
  | daemonRejected
  deriving DecidableEq, Repr

/-- `SpeculationClientError::is_ambiguous_mutation_loss`. -/
def SpeculationClientError.isAmbiguousMutationLoss : SpeculationClientError → Bool
  | .transport | .transportProtocol | .responseInvalid => true
  | _ => false

/-- `map_speculation_evidence`. -/
def mapSpeculationEvidence : EvidenceError → SpeculationClientError
  | .unsupported => .unsupported
  | .invalidDirectory | .invalidIdentity | .overlap | .invalidLeaf => .invalidRequest
  | .capacity => .capacityExhausted
  | .generationMismatch => .staleGeneration
  | .alreadyExists | .missing | .tooLarge | .corrupt | .stale | .io | .poisoned =>
    .evidenceUnavailable

/-- `SpeculationClientResult`. -/
abbrev SpeculationClientResult (α : Type) := Except SpeculationClientError α

/-- A condition for a client to go on. -/
abbrev demand (c : Prop) [Decidable c] (error : SpeculationClientError) :
    SpeculationClientResult Unit :=
  require c error

/-! ### The checks of a status -/

/-- The phases that have a selected candidate, in `validate_speculation_status`. -/
def selectionRequired : SpeculationPhase → Bool
  | .pendingFinalize | .finalizingLoser | .winnerSelectionPending | .finalizingWinner
  | .selected => true
  | _ => false

/-- `validate_speculation_status`. -/
def validateSpeculationStatus (status : SpeculationStatus)
    (tournamentUuid daemonInstanceUuid : Uuid) (minimumGeneration : ℕ) :
    SpeculationClientResult Unit := do
  demand (¬(Uuid.isNil tournamentUuid = true ∨ Uuid.isNil daemonInstanceUuid = true ∨
    minimumGeneration = 0 ∨ status.tournamentUuid ≠ tournamentUuid ∨
    status.daemonInstanceUuid ≠ daemonInstanceUuid ∨ status.generation < minimumGeneration ∨
    status.candidates.zero.index ≠ 0 ∨ status.candidates.one.index ≠ 1 ∨
    Uuid.isNil status.candidates.zero.candidateUuid = true ∨
    Uuid.isNil status.candidates.one.candidateUuid = true ∨
    status.candidates.zero.candidateUuid = status.candidates.one.candidateUuid ∨
    status.fixedScoreOrder ≠ speculationScoreOrder ∨
    status.selectedIndex.any (1 < ·) = true ∨ status.leaseDeadlineUnixMs = 0 ∨
    status.rollbackRequired ≠ status.phase.isRollbackOnly)) .responseInvalid
  demand (selectionRequired status.phase = status.selectedIndex.isSome) .responseInvalid
  demand (¬(status.phase.isTerminal = true ∧
    ¬status.candidates.All fun candidate => candidate.cleanup.Complete)) .responseInvalid
  match status.phase with
  | .selected =>
    demand (¬(status.selectedIndex = none ∨ status.rollbackRequired = true)) .responseInvalid
  | .rolledBack =>
    demand (¬(status.selectedIndex.isSome = true ∨ status.rollbackRequired = true))
      .responseInvalid
  | phase =>
    demand (¬(phase.isRollbackOnly = true ∧ status.selectedIndex.isSome = true)) .responseInvalid

/-- `validate_prepare_status`. -/
def validatePrepareStatus (status : SpeculationStatus) : SpeculationClientResult Unit := do
  validateSpeculationStatus status status.tournamentUuid status.daemonInstanceUuid
    status.generation
  demand (¬(status.phase ≠ .prepared ∨ status.selectedIndex.isSome = true ∨
    status.rollbackRequired = true)) .responseInvalid

/-- `validate_observed_status_against_journal`. -/
def validateObservedStatusAgainstJournal (current : ClientLedgerEntry)
    (status : SpeculationStatus) : SpeculationClientResult Unit := do
  validateSpeculationStatus status current.value.tournamentUuid current.value.daemonInstanceUuid
    current.value.generation
  demand (¬(status.generation = current.value.generation ∧ status ≠ current.value.status))
    .responseInvalid

/-! ### The world of the clients -/

/-- The tournament, the daemon and the generation of a request. -/
structure RequestAuthority where
  tournamentUuid : Uuid
  daemonInstanceUuid : Uuid
  generation : ℕ
  deriving DecidableEq, Repr

/-- A request that changes a tournament. -/
inductive Mutation where
  | arm
  | finalize
  | rollback
  deriving DecidableEq, Repr

/-- The action of the ledger that announces the request. -/
def Mutation.requested : Mutation → LedgerAction
  | .arm => .armRequested
  | .finalize => .finalizeRequested
  | .rollback => .rollbackRequested

/-- `Request`, as far as these clients send it. -/
inductive Request where
  | daemonStatus
  | prepare
  | status (authority : RequestAuthority)
  | mutation (mutation : Mutation) (authority : RequestAuthority)
  deriving DecidableEq, Repr

/-- A file of the ledger directory exchanged: the file before and the file after, and whether the call
returned without an error. -/
structure Exchange where
  old : Option ClientLedgerEntry
  new : ClientLedgerEntry
  returned : Bool

/-- What a client did. A request is recorded when the client starts it, also if it never gets out. -/
inductive Logged where
  | sent (client : ℕ) (request : Request)
  | exchanged (client : ℕ) (exchange : Exchange)

/-- The client that did it. -/
def Logged.client : Logged → ℕ
  | .sent client _ => client
  | .exchanged client _ => client

/-- What the clients share. -/
structure World where
  files : Files
  log : List Logged

/-- What comes from outside with an action: the response of the daemon, with its protocol version for
`Request::Status`; the part of the system in a mutation of the directory; why a read fails, if it
does. -/
structure Input where
  response : SpeculationClientResult SpeculationStatus
  protocolVersion : SpeculationClientResult ℕ
  system : System
  unread : Option EvidenceError

/-- A part of a client. -/
abbrev ClientM := Fallible SpeculationClientError World Input

/-! ### The ledger -/

/-- A call on a directory that exchanges a file only for exactly the entry that was presented. -/
def callExactly (call : Call) (root : DurableDirectoryIdentity) (system : System)
    (files : Files) : EvidenceResult ClientLedgerEntry × Files :=
  let done := exec (call.perform root system) files
  match call.presented with
  | none => done
  | some entry =>
    if files call.leaf = some entry then done
    else
      match done.1 with
      | .error error => (.error error, files)
      | .ok _ => (.error .stale, files)

/-- What a call did, for the log. -/
def exchanges (client : ℕ) (call : Call) (result : EvidenceResult ClientLedgerEntry)
    (files files' : Files) : List Logged :=
  match files' call.leaf with
  | none => []
  | some new =>
    if files call.leaf = some new then []
    else [.exchanged client { old := files call.leaf, new, returned := result.toBool }]

/-- A call of the ledger by a client. -/
def ledgerCall (client : ℕ) (root : DurableDirectoryIdentity) (call : Call) :
    ClientM ClientLedgerEntry :=
  ExceptT.mk <| .atomically fun input s =>
    let (result, files) := callExactly call root input.system s.files
    (result.mapError mapSpeculationEvidence,
      { files, log := exchanges client call result s.files files ++ s.log })

/-- `read_json`: the file of a tournament, opened and read. -/
def readJson (tournamentUuid : Uuid) : ClientM ClientLedgerEntry :=
  ExceptT.mk <| .atomically fun input s =>
    let result : EvidenceResult ClientLedgerEntry :=
      match input.unread with
      | some error => .error error
      | none => expect (s.files tournamentUuid) EvidenceError.missing
    (result.mapError mapSpeculationEvidence, s)

/-- `ClientLedger::read_verified`. -/
def ledgerReadVerified (root : DurableDirectoryIdentity) (tournamentUuid daemonInstanceUuid : Uuid) :
    ClientM ClientLedgerEntry := do
  let entry ← readJson tournamentUuid
  liftM ((readVerified root tournamentUuid daemonInstanceUuid entry).mapError mapSpeculationEvidence)

/-- `ClientLedger::read_tournament`. -/
def ledgerReadTournament (root : DurableDirectoryIdentity) (tournamentUuid : Uuid) :
    ClientM TournamentLedgerEntry := do
  demand (Uuid.isNil tournamentUuid = false) (mapSpeculationEvidence .invalidIdentity)
  let entry ← readJson tournamentUuid
  liftM ((readTournament root tournamentUuid entry).mapError mapSpeculationEvidence)

/-- `readback_ledger`. -/
def readbackLedger (root : DurableDirectoryIdentity) (candidate : ClientLedgerEntry) :
    ClientM ClientLedgerEntry := do
  let exact ← ledgerReadVerified root candidate.value.tournamentUuid
    candidate.value.daemonInstanceUuid
  demand (¬(exact.identity ≠ candidate.identity ∨ exact.value ≠ candidate.value))
    .evidenceUnavailable
  return exact

/-- `write_requested_action`. -/
def writeRequestedAction (client : ℕ) (root : DurableDirectoryIdentity)
    (current : ClientLedgerEntry) (action : LedgerAction) : ClientM ClientLedgerEntry := do
  let next := { current.value with action }
  let stored ← ledgerCall client root
    (.writeBeforeAction current next action current.value.generation)
  readbackLedger root stored

/-- `observe_and_mirror_newer_status`. -/
def observeAndMirrorNewerStatus (client : ℕ) (root : DurableDirectoryIdentity)
    (current : ClientLedgerEntry) (status : SpeculationStatus) : ClientM ClientLedgerEntry := do
  validateObservedStatusAgainstJournal current status
  if status.generation = current.value.generation then return current
  let stored ← ledgerCall client root (.mirrorStatus current status)
  readbackLedger root stored

/-! ### Requests -/

/-- A request whose response is a status. -/
def strictRpcAt (client : ℕ) (request : Request) : ClientM SpeculationStatus :=
  ExceptT.mk <| .atomically fun input s =>
    (input.response, { s with log := .sent client request :: s.log })

/-- `SPECULATION_PROTOCOL_VERSION`. -/
def speculationProtocolVersion : ℕ := 9

/-- `require_speculation_protocol_at`. -/
def requireSpeculationProtocolAt (client : ℕ) : ClientM Unit := do
  let version ← (ExceptT.mk <| .atomically fun input s =>
    (input.protocolVersion, { s with log := .sent client .daemonStatus :: s.log }) : ClientM ℕ)
  demand (¬version < speculationProtocolVersion) .protocolMismatch

/-- The authority of a ledger entry. -/
def RequestAuthority.of (current : ClientLedgerEntry) : RequestAuthority where
  tournamentUuid := current.value.tournamentUuid
  daemonInstanceUuid := current.value.daemonInstanceUuid
  generation := current.value.generation

/-- `status_rpc`. -/
def statusRpc (client : ℕ) (authority : RequestAuthority) : ClientM SpeculationStatus := do
  let status ← strictRpcAt client (.status authority)
  validateSpeculationStatus status authority.tournamentUuid authority.daemonInstanceUuid
    authority.generation
  return status

/-- `poll_journaled_status_until`; `rounds` is how often a test of the deadline finds time left. -/
def pollJournaledStatusUntil (client : ℕ) (root : DurableDirectoryIdentity)
    (stop : SpeculationStatus → Bool) : ℕ → ClientLedgerEntry → ClientM SpeculationStatus
  | 0, current => do
    let status ← statusRpc client (.of current)
    let _ ← observeAndMirrorNewerStatus client root current status
    if stop status then return status
    throw .transport
  | rounds + 1, current => do
    match ← attempt (statusRpc client (.of current)) with
    | .error error =>
      if error.isAmbiguousMutationLoss then
        pollJournaledStatusUntil client root stop rounds current
      else throw error
    | .ok status =>
      let current ← observeAndMirrorNewerStatus client root current status
      if stop status then return status
      pollJournaledStatusUntil client root stop rounds current

/-! ### Plans -/

/-- `RunObservation`. -/
inductive RunObservation where
  | continue
  | stop
  deriving DecidableEq, Repr

/-- `classify_run_phase`. -/
def classifyRunPhase : SpeculationPhase → RunObservation
  | .prepared | .armed | .starting | .ready | .goPending | .running | .resultPending
  | .finalizingLoser | .winnerSelectionPending | .finalizingWinner => .continue
  | .pendingFinalize | .rollbackRequired | .decisionUncertain | .rollbackPending | .selected
  | .rolledBack => .stop

/-- `FinalizePhaseAction`; `RollbackPhaseAction` has no `Reject`. -/
inductive PhaseAction where
  | start
  | poll
  | return
  | reject
  deriving DecidableEq, Repr

/-- `classify_finalize_phase`. -/
def classifyFinalizePhase : SpeculationPhase → PhaseAction
  | .pendingFinalize => .start
  | .finalizingLoser | .winnerSelectionPending | .finalizingWinner | .rollbackPending => .poll
  | .rollbackRequired | .decisionUncertain | .selected | .rolledBack => .return
  | .prepared | .armed | .starting | .ready | .goPending | .running | .resultPending => .reject

/-- `classify_rollback_phase`. -/
def classifyRollbackPhase : SpeculationPhase → PhaseAction
  | .selected | .rolledBack => .return
  | .finalizingLoser | .winnerSelectionPending | .finalizingWinner | .rollbackPending => .poll
  | .prepared | .armed | .starting | .ready | .goPending | .running | .resultPending
  | .pendingFinalize | .rollbackRequired | .decisionUncertain => .start

/-- `RequestedActionPlan`. -/
inductive RequestedActionPlan where
  | start
  | recoverStatusOnly
  | reject
  deriving DecidableEq, Repr

/-- `requested_action_plan`. -/
def requestedActionPlan (current desired : LedgerAction) : RequestedActionPlan :=
  if !current.isRequested then .start
  else if current = desired then .recoverStatusOnly
  else .reject

/-- `cleanup_only_observable`. -/
def cleanupOnlyObservable (phase : SpeculationPhase) : Bool :=
  phase.isRollbackOnly || phase.isTerminal

/-! ### The calls -/

/-- The request for which `current` was written, and what a client does with its response. -/
def requestMutation (client : ℕ) (root : DurableDirectoryIdentity) (mutation : Mutation)
    (current : ClientLedgerEntry) : ClientM ClientLedgerEntry := do
  match ← attempt (strictRpcAt client (.mutation mutation (.of current))) with
  | .ok status =>
    -- only `speculate_run` checks the response before the generation is compared
    if mutation = .arm then
      validateSpeculationStatus status current.value.tournamentUuid
        current.value.daemonInstanceUuid current.value.generation
    demand (¬status.generation = current.value.generation) .responseInvalid
    observeAndMirrorNewerStatus client root current status
  | .error error =>
    if error.isAmbiguousMutationLoss ∨ error = .staleGeneration then return current
    throw error

/-- `speculate_run_with_socket`, from the socket on. -/
def speculateRun (client : ℕ) (root : DurableDirectoryIdentity) (roots : ClientRootIdentities)
    (rounds : ℕ) : ClientM SpeculationStatus := do
  requireSpeculationProtocolAt client
  let prepared ← strictRpcAt client .prepare
  validatePrepareStatus prepared
  let created ← ledgerCall client root (.createPrepared {
    tournamentUuid := prepared.tournamentUuid
    daemonInstanceUuid := prepared.daemonInstanceUuid
    generation := prepared.generation
    action := .prepared
    roots
    status := prepared })
  let preparedEntry ← readbackLedger root created
  let armEntry ← writeRequestedAction client root preparedEntry .armRequested
  let current ← requestMutation client root .arm armEntry
  pollJournaledStatusUntil client root (classifyRunPhase ·.phase = .stop) rounds current

/-- `speculate_status`. -/
def speculateStatus (client : ℕ) (root : DurableDirectoryIdentity) (tournamentUuid : Uuid) :
    ClientM SpeculationStatus := do
  let tournament ← ledgerReadTournament root tournamentUuid
  requireSpeculationProtocolAt client
  let status ← statusRpc client (.of tournament.entry)
  validateObservedStatusAgainstJournal tournament.entry status
  demand (¬(tournament.authority = .cleanupOnlyAfterBoot ∧
    cleanupOnlyObservable status.phase = false)) .evidenceUnavailable
  return status

/-- The end of `speculate_finalize_at` and `speculate_rollback_at`, by what the phase asks for. -/
def actOnPhase (client : ℕ) (root : DurableDirectoryIdentity) (mutation : Mutation)
    (stop : SpeculationStatus → Bool) (rounds : ℕ) (action : PhaseAction)
    (observed : SpeculationStatus) (current : ClientLedgerEntry) : ClientM SpeculationStatus := do
  match action with
  | .reject => throw .invalidTransition
  | .return => return observed
  | .poll => pollJournaledStatusUntil client root stop rounds current
  | .start =>
    match requestedActionPlan current.value.action mutation.requested with
    | .recoverStatusOnly => pollJournaledStatusUntil client root stop rounds current
    | .reject => throw .evidenceUnavailable
    | .start =>
      let current ← writeRequestedAction client root current mutation.requested
      let current ← requestMutation client root mutation current
      pollJournaledStatusUntil client root stop rounds current

/-- `speculate_finalize`, with `speculate_finalize_at`. -/
def speculateFinalize (client : ℕ) (root : DurableDirectoryIdentity) (tournamentUuid : Uuid)
    (rounds : ℕ) : ClientM SpeculationStatus := do
  let tournament ← ledgerReadTournament root tournamentUuid
  demand (¬tournament.authority ≠ .currentBoot) .evidenceUnavailable
  requireSpeculationProtocolAt client
  let observed ← statusRpc client (.of tournament.entry)
  let current ← observeAndMirrorNewerStatus client root tournament.entry observed
  actOnPhase client root .finalize (fun status => status.phase.isTerminal || status.phase.isRollbackOnly)
    rounds (classifyFinalizePhase observed.phase) observed current

/-- `speculate_rollback`, with `speculate_rollback_at`. -/
def speculateRollback (client : ℕ) (root : DurableDirectoryIdentity) (tournamentUuid : Uuid)
    (rounds : ℕ) : ClientM SpeculationStatus := do
  let tournament ← ledgerReadTournament root tournamentUuid
  requireSpeculationProtocolAt client
  let observed ← statusRpc client (.of tournament.entry)
  validateObservedStatusAgainstJournal tournament.entry observed
  if tournament.authority = .cleanupOnlyAfterBoot then
    demand (cleanupOnlyObservable observed.phase = true) .evidenceUnavailable
    return observed
  let current ← observeAndMirrorNewerStatus client root tournament.entry observed
  actOnPhase client root .rollback (·.phase.isTerminal) rounds (classifyRollbackPhase observed.phase)
    observed current

/-- What a client process is started for, with the identity of the ledger directory that it opens. -/
inductive Invocation where
  | run (root : DurableDirectoryIdentity) (roots : ClientRootIdentities) (rounds : ℕ)
  | status (root : DurableDirectoryIdentity) (tournamentUuid : Uuid)
  | finalize (root : DurableDirectoryIdentity) (tournamentUuid : Uuid) (rounds : ℕ)
  | rollback (root : DurableDirectoryIdentity) (tournamentUuid : Uuid) (rounds : ℕ)

/-- The program of a client. -/
def program (client : ℕ) : Invocation → Prog World Input (SpeculationClientResult SpeculationStatus)
  | .run root roots rounds => (speculateRun client root roots rounds).run
  | .status root tournamentUuid => (speculateStatus client root tournamentUuid).run
  | .finalize root tournamentUuid rounds =>
    (speculateFinalize client root tournamentUuid rounds).run
  | .rollback root tournamentUuid rounds =>
    (speculateRollback client root tournamentUuid rounds).run

/-- The clients, on a ledger directory with some files in it. -/
abbrev clients (files : Files) (events : List (Event Invocation Input)) :
    Pool World Input (SpeculationClientResult SpeculationStatus) :=
  run program { files, log := [] } events

end LightTerminal.Client.Speculation
