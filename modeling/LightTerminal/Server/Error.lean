import LightTerminal.Data.Text

/-! # The errors of the session operations

One constructor for each `bail!`, `context` and `anyhow!` that the operations on sessions of
`server.rs` end with, and its text. `panicked` stands for an index out of bounds. -/

namespace LightTerminal.Server.Error

open LightTerminal.Data.Text

/-- `MetadataStepDirection`. -/
inductive MetadataStepDirection where
  | undo
  | redo
  deriving DecidableEq, Repr

/-- `sanitized_preview`. -/
def sanitizedPreview (value : Str) : Str :=
  let preview := (value.take 256).map fun ch =>
    if ch = '\t' ∨ ch = '\n' ∨ ch = '\r' then ' ' else if isControl ch then '\uFFFD' else ch
  if 256 < value.length then preview ++ ['…'] else preview

/-- What the session operations fail with. The texts in it have passed `sanitized_preview` where
the source passes them through it. -/
inductive ServerError where
  | nameEmpty
  | nameTooLong
  | nameLooksLikePane (shown : Str)
  | nameStartsWithDash (shown : Str)
  | nameLooksLikeBarePane (shown : Str)
  | nameLooksLikeUuid (shown : Str)
  | nameCharacters
  | tooManySessions
  | nameExists (shown : Str)
  | noAvailablePane
  | reservationMissing
  | idCollision
  | parentUnavailable (paneId : Str)
  | selectedParentUnavailable
  | selectedParentChanged
  | noSuchSession (shown : Str) (startHint : Bool)
  | sessionEnding
  | nameIndexInconsistent (shown : Str)
  | redoEntries
  | historyFull
  | nothingToUndo
  | nothingToRedo
  | currentMismatch (direction : MetadataStepDirection)
  | purgeNotIrreversible
  | purgeNotCanonical
  | purgeWrongSession
  | nothingToPurge
  | purgeGenerationOverflow
  | purgeCounterOverflow
  | budgetOutOfRange
  | sessionNotAlive (shown : Str)
  | tooManyCapabilities
  | tooManyCapabilitiesForSession
  | inputRejected
  | inputWriteFailed
  | panicked
  deriving DecidableEq, Repr

/-- The error reports a broken invariant of the daemon, not a fault of the request. -/
def ServerError.internal : ServerError → Bool
  | reservationMissing => true
  | idCollision => true
  | nameIndexInconsistent _ => true
  | currentMismatch _ => true
  | panicked => true
  | _ => false

/-- The text of an error. -/
def ServerError.message : ServerError → Str
  | nameEmpty => "session name cannot be empty".toList
  | nameTooLong => "session name cannot exceed 128 bytes".toList
  | nameLooksLikePane shown => "session name cannot look like a pane id: ".toList ++ shown
  | nameStartsWithDash shown => "session name cannot start with '-': ".toList ++ shown
  | nameLooksLikeBarePane shown => "session name cannot look like a bare pane id: ".toList ++ shown
  | nameLooksLikeUuid shown => "session name cannot look like a UUID: ".toList ++ shown
  | nameCharacters =>
    "session name may only contain ASCII letters, numbers, '.', '_' and '-'".toList
  | tooManySessions => "too many lterm sessions; limit is 256".toList
  | nameExists shown => "session name already exists: ".toList ++ shown
  | noAvailablePane => "no available lterm pane id".toList
  | reservationMissing => "internal session reservation missing".toList
  | idCollision => "internal session id collision".toList
  | parentUnavailable paneId => "parent session no longer available: ".toList ++ paneId
  | selectedParentUnavailable => "selected parent session no longer available".toList
  | selectedParentChanged => "selected parent session identity changed before commit".toList
  | noSuchSession shown startHint =>
    "no such lterm session or pane: ".toList ++ shown ++
      if startHint then
        (". Run `lterm list` to see active sessions or `lterm start <NAME>` to create " ++
          "one.").toList
      else ". Run `lterm list` to see active sessions.".toList
  | sessionEnding => "session is ending; identity metadata cannot be changed".toList
  | nameIndexInconsistent shown => "internal session name index inconsistent for: ".toList ++ shown
  | redoEntries =>
    ("metadata history has redo entries; run `lterm metadata redo` until the tip or explicitly " ++
      "purge history before changing metadata").toList
  | historyFull =>
    ("metadata history is full (1024 entries); explicitly purge history before changing " ++
      "metadata").toList
  | nothingToUndo => "metadata history has nothing to undo".toList
  | nothingToRedo => "metadata history has nothing to redo".toList
  | currentMismatch direction =>
    "metadata current state does not match the journal entry; refusing ".toList ++
      (match direction with | .undo => "undo" | .redo => "redo").toList ++
      " without mutation".toList
  | purgeNotIrreversible => "metadata history purge requires --irreversible".toList
  | purgeNotCanonical => "metadata history purge requires a canonical session UUID".toList
  | purgeWrongSession =>
    "metadata history purge session id does not match the live target".toList
  | nothingToPurge => "metadata history is empty; nothing to purge".toList
  | purgeGenerationOverflow => "metadata purge generation overflow".toList
  | purgeCounterOverflow => "metadata purged entry counter overflow".toList
  | budgetOutOfRange => "input capability byte budget must be between 1 and 1048576".toList
  | sessionNotAlive shown => "session is not alive: ".toList ++ shown
  | tooManyCapabilities => "too many outstanding input capabilities".toList
  | tooManyCapabilitiesForSession => "too many outstanding input capabilities for session".toList
  | inputRejected => "capability input rejected".toList
  | inputWriteFailed => "capability input write failed".toList
  | panicked => "index out of bounds".toList

end LightTerminal.Server.Error
