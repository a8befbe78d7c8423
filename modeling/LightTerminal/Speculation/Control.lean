import LightTerminal.Data.Text
import LightTerminal.Library.Procedure
import LightTerminal.Library.Utf8

/-! # The control protocol of the runner

The daemon and the runner of a candidate exchange control frames, and either side has a
`SequenceValidator` that says which message may come next. This is the first part of
`speculation_runner.rs`. A `String` that is data of a frame is given by its bytes. -/

namespace LightTerminal.Speculation.Control

open LightTerminal.Data.Text LightTerminal.Library.Procedure

/-- The bytes of a literal of the source. -/
def bytesOf (text : String) : List UInt8 := Library.Utf8.encode text.toList

def maxControlFrameBytes : ℕ := 8 * 1024

/-- `CONTROL_PROTOCOL`. -/
def controlProtocol : List UInt8 := bytesOf "lterm-speculation-control-v1"

/-- `RunnerProtocolError`. -/
inductive RunnerProtocolError where
  | invalidIdentity
  | staleGeneration
  | invalidSequence
  | invalidFrame
  | oversizedFrame
  | invalidArgv
  | descriptorViolation
  | unsupported
  | io
  deriving DecidableEq, Repr

/-- `RunnerResult`. -/
abbrev RunnerResult := Except RunnerProtocolError

/-- `RunnerIdentity`. -/
structure RunnerIdentity where
  tournamentUuid : Uuid
  candidateIndex : UInt8
  generation : UInt64
  deriving DecidableEq, Repr

/-- `RunnerIdentity::validate`. -/
def RunnerIdentity.validate (identity : RunnerIdentity) : RunnerResult Unit :=
  require (¬(Uuid.isNil identity.tournamentUuid = true ∨ identity.candidateIndex ≥ 2 ∨
    identity.generation = 0)) .invalidIdentity

/-- `DecisionKind`. -/
inductive DecisionKind where
  | select
  | abort
  deriving DecidableEq, Repr

/-- `RunnerExitCategory`. -/
inductive RunnerExitCategory where
  | exitedZero
  | exitedNonzero
  | signaled
  | spawnFailed
  | outputLimitExceeded
  | evidenceIncomplete
  deriving DecidableEq, Repr

/-- `PlacementDescriptorKind`. -/
inductive PlacementDescriptorKind where
  | payloadCgroupProcs
  | other
  deriving DecidableEq, Repr

/-- `PlacementDescriptorEvidence`. -/
structure PlacementDescriptorEvidence where
  kind : PlacementDescriptorKind
  fileDev : UInt64
  fileIno : UInt64
  fileStatxMntIdUnique : UInt64
  payloadDev : UInt64
  payloadIno : UInt64
  payloadStatxMntIdUnique : UInt64
  candidateIndex : UInt8
  generation : UInt64
  deriving DecidableEq, Repr

/-- `PlacementDescriptorEvidence::validate`. -/
def PlacementDescriptorEvidence.validate (placement : PlacementDescriptorEvidence)
    (identity : RunnerIdentity) : RunnerResult Unit :=
  require (¬(placement.kind ≠ .payloadCgroupProcs ∨ placement.fileDev = 0 ∨ placement.fileIno = 0 ∨
    placement.fileStatxMntIdUnique = 0 ∨ placement.payloadDev = 0 ∨ placement.payloadIno = 0 ∨
    placement.payloadStatxMntIdUnique = 0 ∨
    placement.fileStatxMntIdUnique ≠ placement.payloadStatxMntIdUnique ∨
    placement.candidateIndex ≠ identity.candidateIndex ∨
    placement.generation ≠ identity.generation)) .descriptorViolation

/-- `ControlMessage`. -/
inductive ControlMessage where
  | hello
  | helloAck
  | argvBegin (argumentCount : UInt16) (totalBytes : UInt32)
  | argvChunk (argumentIndex : UInt16) (offset total : UInt32) (data : List UInt8)
  | argvEnd
  | ready
  | readyAck (placement : PlacementDescriptorEvidence)
  | payloadFdAck
  | go
  | goReceived (monotonicNs : UInt64)
  | payloadPlaced
  | payloadRelease
  | outputLimitExceeded (bytes : UInt64)
  | outputCleanupClaimed
  | leaderExited (category : RunnerExitCategory) (elapsedNs : UInt64)
  | outputDrained (bytes : UInt64)
  | resultAccepted
  | decision (decision : DecisionKind)
  | ack (decision : DecisionKind)
  deriving DecidableEq, Repr

/-- `ControlFrame`. -/
structure ControlFrame where
  protocol : List UInt8
  identity : RunnerIdentity
  sequence : UInt32
  message : ControlMessage
  deriving DecidableEq, Repr

/-- `ControlFrame::new`. -/
def ControlFrame.new (identity : RunnerIdentity) (sequence : UInt32) (message : ControlMessage) :
    ControlFrame :=
  { protocol := controlProtocol, identity, sequence, message }

/-- `SequenceState`. -/
inductive SequenceState where
  | hello
  | helloAck
  | argvBegin
  | argvChunkOrEnd
  | ready
  | readyAck
  | payloadFdAck
  | go
  | goReceived
  | payloadPlaced
  | payloadRelease
  | executionEvent
  | outputCleanupClaim
  | leaderExited
  | outputDrained
  | resultAccepted
  | decision
  | ack
  | complete
  deriving DecidableEq, Repr

/-- `SequenceValidator`. -/
structure SequenceValidator where
  identity : RunnerIdentity
  nextSequence : UInt32
  state : SequenceState
  deriving DecidableEq, Repr

/-- `SequenceValidator::new`. -/
def SequenceValidator.new (identity : RunnerIdentity) : RunnerResult SequenceValidator := do
  identity.validate
  return { identity, nextSequence := 0, state := .hello }

/-- `u32::checked_add` of one. -/
def checkedSucc (sequence : UInt32) : Option UInt32 :=
  if sequence.toNat + 1 < 2 ^ 32 then some (sequence + 1) else none

theorem checkedSucc_eq_some {n : ℕ} (h : n + 1 < 2 ^ 32) :
    checkedSucc (UInt32.ofNat n) = some (UInt32.ofNat (n + 1)) := by
  have hn : (UInt32.ofNat n).toNat = n := by
    rw [UInt32.toNat_ofNat']
    exact Nat.mod_eq_of_lt (by omega)
  unfold checkedSucc
  rw [if_pos (by omega)]
  simp

/-- The table of `SequenceValidator::accept`. -/
def SequenceState.next (identity : RunnerIdentity) :
    SequenceState → ControlMessage → RunnerResult SequenceState
  | .hello, .hello => return .helloAck
  | .helloAck, .helloAck => return .argvBegin
  | .argvBegin, .argvBegin _ _ => return .argvChunkOrEnd
  | .argvChunkOrEnd, .argvChunk _ _ _ _ => return .argvChunkOrEnd
  | .argvChunkOrEnd, .argvEnd => return .ready
  | .ready, .ready => return .readyAck
  | .readyAck, .readyAck placement => do
    placement.validate identity
    return .payloadFdAck
  | .payloadFdAck, .payloadFdAck => return .go
  | .go, .go => return .goReceived
  | .goReceived, .goReceived _ => return .payloadPlaced
  | .payloadPlaced, .payloadPlaced => return .payloadRelease
  | .payloadRelease, .payloadRelease => return .executionEvent
  | .executionEvent, .outputLimitExceeded _ => return .outputCleanupClaim
  | .outputCleanupClaim, .outputCleanupClaimed => return .leaderExited
  | .executionEvent, .leaderExited _ _ => return .outputDrained
  | .leaderExited, .leaderExited _ _ => return .outputDrained
  | .outputDrained, .outputDrained _ => return .resultAccepted
  | .resultAccepted, .resultAccepted => return .decision
  | .decision, .decision _ => return .ack
  | .ack, .ack _ => return .complete
  | _, _ => throw .invalidSequence

/-- `SequenceValidator::accept`. -/
def SequenceValidator.accept (validator : SequenceValidator) (frame : ControlFrame) :
    RunnerResult SequenceValidator := do
  require (¬(frame.protocol ≠ controlProtocol ∨
    frame.identity.tournamentUuid ≠ validator.identity.tournamentUuid)) .invalidIdentity
  require (¬(frame.identity.candidateIndex ≠ validator.identity.candidateIndex ∨
    frame.identity.generation ≠ validator.identity.generation)) .staleGeneration
  require (frame.sequence = validator.nextSequence) .invalidSequence
  let next ← validator.state.next validator.identity frame.message
  let nextSequence ← expect (checkedSucc validator.nextSequence) .invalidSequence
  return { validator with nextSequence, state := next }

/-- A validator takes a frame of its own identity with the sequence number that it expects, if its
table has the message and there is a number after this one. -/
theorem SequenceValidator.accept_new {identity : RunnerIdentity} {n : ℕ} (h : n + 1 < 2 ^ 32)
    {state next : SequenceState} {message : ControlMessage}
    (hnext : state.next identity message = .ok next) :
    SequenceValidator.accept { identity, nextSequence := UInt32.ofNat n, state }
        (.new identity (UInt32.ofNat n) message) =
      .ok { identity, nextSequence := UInt32.ofNat (n + 1), state := next } := by
  unfold SequenceValidator.accept
  simp [ControlFrame.new, hnext, checkedSucc_eq_some h, expect, pure, Except.pure]

end LightTerminal.Speculation.Control
