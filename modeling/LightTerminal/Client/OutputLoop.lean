import LightTerminal.Client.OutputTracker
import LightTerminal.Client.StatusPresence
import LightTerminal.Library.Procedure

/-! # The output loop of an attached client

The loop of `attach_with_presence_and_cue` (`client.rs`) forwards the output of the pane and draws the
status row in between: after polls for a nested agent, on new metadata or a new line of the status command,
when the terminal is resized, on a heartbeat and when the output is idle. It reads once a turn whether the
program is on the alternate screen, and most draws wait while it is. What the loop meets in a turn, the
answers to its requests, the sizes of the terminal, the clock and how each write ends, is its input, `Turn`.

What is written is kept in `output`, with the attempts that fail. `beforeRead` is the part of a turn in
which the row is drawn, `readOutput` the part that forwards a chunk; `finish` is the refresh after the loop. -/

namespace LightTerminal.Client.OutputLoop

open LightTerminal.Data.Text LightTerminal.Library LightTerminal.Library.Procedure
open LightTerminal.Sanitize.Truncate
open LightTerminal.Client.OutputTracker LightTerminal.Client.StatusRow LightTerminal.Client.StatusPresence

/-! ### The detector of nested agents -/

/-- `NestedAgentTransition`. -/
inductive NestedAgentTransition where
  | suspend
  | resume
  deriving DecidableEq, Repr

/-- `NestedAgentDetector`. -/
structure NestedAgentDetector where
  positivePolls : ℕ := 0
  negativePolls : ℕ := 0
  suppressed : Bool := false
  deriving DecidableEq, Repr

/-- `NESTED_AGENT_STABLE_POLLS`. -/
def nestedAgentStablePolls : ℕ := 2

/-- `saturating_add(1)` of a byte. -/
def saturatingSucc (polls : ℕ) : ℕ := min (polls + 1) 255

namespace NestedAgentDetector

/-- The end of the branches of `apply_presence_poll` that count a poll without an agent. -/
def resumeIfStable (detector : NestedAgentDetector) : NestedAgentDetector × Option NestedAgentTransition :=
  if detector.suppressed = true ∧ detector.negativePolls ≥ nestedAgentStablePolls then
    ({ detector with suppressed := false }, some .resume)
  else (detector, none)

/-- `apply_presence_poll`; a poll that failed is `none`. -/
def applyPresencePoll (detector : NestedAgentDetector) :
    Option Bool → NestedAgentDetector × Option NestedAgentTransition
  | none =>
    let detector := { detector with positivePolls := 0 }
    if detector.suppressed then
      resumeIfStable { detector with negativePolls := saturatingSucc detector.negativePolls }
    else (detector, none)
  | some true =>
    let detector :=
      { detector with positivePolls := saturatingSucc detector.positivePolls, negativePolls := 0 }
    if detector.suppressed = false ∧ detector.positivePolls ≥ nestedAgentStablePolls then
      ({ detector with suppressed := true }, some .suspend)
    else (detector, none)
  | some false =>
    resumeIfStable
      { detector with negativePolls := saturatingSucc detector.negativePolls, positivePolls := 0 }

/-- `retry_transition`. -/
def retryTransition (detector : NestedAgentDetector) : NestedAgentTransition → NestedAgentDetector
  | .suspend => { detector with suppressed := false }
  | .resume => { detector with suppressed := true }

end NestedAgentDetector

/-! ### What the loop meets -/

/-- `StatusPresencePolicy`. -/
inductive StatusPresencePolicy where
  | rowAuto
  | rowOff
  | forceRow
  deriving DecidableEq, Repr

/-- What is fixed for an attach: `in_grid`, `sink_enabled`, and whether there is a `cmux_status_sink`, a
`title_cue_runtime` and a name of an agent in the info of the session. -/
structure Config where
  policy : StatusPresencePolicy
  inGrid : Bool
  sinkEnabled : Bool
  cmuxStatusSink : Bool
  titleCue : Bool
  agentNamed : Bool
  deriving DecidableEq, Repr

namespace Config

/-- `content_active`. -/
def contentActive (config : Config) : Bool := config.inGrid || config.sinkEnabled

/-- `idle_wakeup_enabled`. -/
def idleWakeupEnabled (config : Config) : Bool := config.contentActive || config.titleCue

/-- `nested_monitor_enabled`. -/
def nestedMonitorEnabled (config : Config) : Bool :=
  config.inGrid && decide (config.policy = .rowAuto) && !config.agentNamed

/-- `!alt_screen_active || draw_status_during_alt_screen`. -/
def DrawsAt (config : Config) (altScreenActive : Bool) : Prop :=
  altScreenActive = false ∨ config.policy = .forceRow

instance (config : Config) (altScreenActive : Bool) : Decidable (config.DrawsAt altScreenActive) :=
  inferInstanceAs (Decidable (_ ∨ _))

end Config

/-- How a write to the terminal, or a flush, ends. -/
inductive WriteOutcome where
  | written
  | brokenPipe
  | failed
  deriving DecidableEq, Repr

/-- What a refresh of the status row meets. -/
structure Draw where
  cols : ℕ
  rows : ℕ
  write : WriteOutcome
  flush : WriteOutcome
  now : ℕ
  deriving DecidableEq, Repr

/-- A poll for a nested agent, and what a transition meets: the terminal and the write of a restoration,
the answers of the daemon, the refresh of a resumption and the title of a suspension. -/
structure Poll where
  present : Option Bool
  restoreRows : ℕ
  restoreWrite : WriteOutcome
  info : Option SessionInfo
  rows : ℕ
  outcome : ResizeTickOutcome
  draw : Draw
  titleWrite : WriteOutcome
  titleFlush : WriteOutcome
  now : ℕ
  deriving DecidableEq, Repr

/-- How a read of the output ends. An idle read may find a title due. -/
inductive Read where
  | closed
  | interrupted
  | idle (draw : Draw) (titleDue : Bool) (titleWrite : WriteOutcome)
  | failed
  | chunk (bytes : List UInt8) (write flush : WriteOutcome)
  deriving DecidableEq, Repr

/-- What one turn of the loop meets. A notification of the resize thread comes with the rows of the
terminal. -/
structure Turn where
  running : Bool
  polls : List Poll
  metadata : List SessionInfo
  metadataDraw : Draw
  command : Option Str
  commandDraw : Draw
  edgeDraw : Draw
  resizes : List (ℕ × Draw)
  forcedElapsed : ℕ
  forcedNow : ℕ
  heartbeatNow : ℕ
  heartbeatDraw : Draw
  read : Read
  deriving DecidableEq, Repr

/-- What is written to the terminal. -/
inductive Output where
  | status (ops : List Op)
  | title
  | chunk (bytes : List UInt8)
  deriving DecidableEq, Repr

/-- Bytes of the status row. -/
def Output.isStatus : Output → Bool
  | .status _ => true
  | _ => false

/-- A chunk of the pane's output. -/
def Output.isChunk : Output → Bool
  | .chunk _ => true
  | _ => false

/-- Why the loop ends: a `break`, or an error. -/
inductive Exit where
  | leave
  | fail
  deriving DecidableEq, Repr

/-- The variables of the loop; times are in milliseconds. -/
structure Loop where
  presence : StatusPresenceState
  bar : StatusBar
  tracker : TerminalOutputTracker
  metadataEnabled : Bool
  statusDirty : Bool
  damagePending : Bool
  lastStatusRefresh : ℕ
  lastForcedRedraw : ℕ
  prevAltScreenActive : Bool
  detector : NestedAgentDetector
  output : List Output
  deriving DecidableEq, Repr

/-- A part of the loop. -/
abbrev LoopOp := Proc Exit Loop

/-- A write to the terminal is attempted. -/
def emit (output : Output) : LoopOp Unit := modify fun s => { s with output := s.output ++ [output] }

/-- A broken pipe ends the loop, as in `refresh_status_or_detached`. -/
def settle : WriteOutcome → Except Exit Unit
  | .written => .ok ()
  | .brokenPipe => .error .leave
  | .failed => .error .fail

/-- Any failure of a write is an error. -/
def demand (outcome : WriteOutcome) : Except Exit Unit := require (outcome = .written) .fail

/-- `status_scroll_bottom_for_terminal_rows`. -/
def statusScrollBottomForTerminalRows (rows : ℕ) (showStatus : Bool) : Option ℕ :=
  if showStatus = true ∧ 1 < rows then some (rows - 1) else none

/-! ### The parts of a turn -/

section
variable (u : Unicode) (env : StatusEnv) (config : Config)

/-- What a refresh would write in a state. -/
def Loop.refreshOps (s : Loop) (draw : Draw) : StatusBar × List Op :=
  s.bar.refresh u s.tracker.altScreen.cursorVisible draw.cols draw.rows

/-- `refresh_status`. -/
def refreshStatus (draw : Draw) : LoopOp Unit := do
  let s ← get
  let drawn := s.refreshOps u draw
  whenever (drawn.2 ≠ []) do
    emit (.status drawn.2)
    liftM (settle draw.write)
    modify fun s => { s with bar := drawn.1 }
    liftM (settle draw.flush)
  modify fun s => { s with statusDirty := false, lastStatusRefresh := draw.now }

/-- `StatusBar::restore`. -/
def restoreRow (poll : Poll) : LoopOp WriteOutcome := do
  let s ← get
  let ops := s.bar.restore poll.restoreRows
  if ops = [] then
    return .written
  else do
    emit (.status ops)
    return poll.restoreWrite

/-- `suspend_status_row`, after the restoration. -/
def concludeSuspension (poll : Poll) : WriteOutcome → LoopOp StatusTransitionResult
  | .brokenPipe => do
    modify fun s => { s with presence := .active, metadataEnabled := true }
    return .detached
  | .failed => do
    modify fun s => { s with presence := .active, metadataEnabled := true }
    throw .fail
  | .written =>
    match poll.outcome with
    | .advance => do
      modify fun s =>
        { s with
          bar := { s.bar with style := none }
          tracker := { s.tracker with statusScrollBottom := none }
          presence := .suspended
          statusDirty := false
          lastStatusRefresh := poll.now }
      emit .title
      liftM (demand poll.titleWrite)
      liftM (demand poll.titleFlush)
      return .applied
    | .retry => do
      modify fun s => { s with presence := .active, metadataEnabled := true, statusDirty := true }
      return .ignored
    | .staleSubscriberId => do
      modify fun s => { s with presence := .disabled }
      return .detached

/-- `suspend_status_row`. -/
def suspendStatusRow (poll : Poll) : LoopOp StatusTransitionResult := do
  let s ← get
  if s.presence ≠ .active then
    return .ignored
  else do
    modify fun s => { s with presence := .transitioning, metadataEnabled := false }
    let restored ← restoreRow poll
    concludeSuspension poll restored

/-- The refresh in `resume_status_row`, and what follows it. -/
def drawResumed (draw : Draw) : LoopOp StatusTransitionResult :=
  tryCatch
    (do
      refreshStatus u draw
      modify fun s => { s with metadataEnabled := true, presence := .active }
      return .applied)
    fun exit =>
      match exit with
      | .leave => do
        modify fun s => { s with presence := .disabled }
        return .detached
      | .fail => do
        modify fun s => { s with presence := .suspended, metadataEnabled := false }
        throw .fail

/-- `resume_status_row`. -/
def resumeStatusRow (poll : Poll) : LoopOp StatusTransitionResult := do
  let s ← get
  if s.presence ≠ .suspended then
    return .ignored
  else do
    modify fun s => { s with presence := .transitioning }
    match poll.info, poll.outcome with
    | none, _ => do
      modify fun s => { s with presence := .suspended, metadataEnabled := false }
      return .ignored
    | some info, .advance => do
      modify fun s =>
        { s with
          tracker := { s.tracker with
            statusScrollBottom := statusScrollBottomForTerminalRows poll.rows true }
          bar := { (s.bar.updateInfo info).1 with
            style := some (resolveStatusStyle env info.statusTheme), forceRedraw := true } }
      drawResumed u poll.draw
    | some _, .retry => do
      modify fun s => { s with presence := .suspended, metadataEnabled := false }
      return .ignored
    | some _, .staleSubscriberId => do
      modify fun s => { s with presence := .disabled }
      return .detached

/-- The transition that the detector asks for. -/
def performTransition (poll : Poll) : NestedAgentTransition → LoopOp StatusTransitionResult
  | .suspend => suspendStatusRow poll
  | .resume => resumeStatusRow u env poll

/-- What the loop makes of the result of a transition. -/
def concludeTransition (transition : NestedAgentTransition) : StatusTransitionResult → LoopOp Unit
  | .applied => pure ()
  | .ignored => modify fun s => { s with detector := s.detector.retryTransition transition }
  | .detached => throw .leave

/-- One poll for a nested agent. -/
def applyPoll (poll : Poll) : LoopOp Unit := do
  let s ← get
  let polled := s.detector.applyPresencePoll poll.present
  modify fun s => { s with detector := polled.1 }
  match polled.2 with
  | none => pure ()
  | some transition => do
    let result ← performTransition u env poll transition
    concludeTransition transition result

/-- The polls that have come in. -/
def applyPolls : List Poll → LoopOp Unit
  | [] => pure ()
  | poll :: polls => do
    applyPoll u env poll
    applyPolls polls

/-- `apply_pending_status_metadata`: the bar after it, and whether it changed. -/
def applyPendingStatusMetadata (bar : StatusBar) (infos : List SessionInfo) : StatusBar × Bool :=
  infos.foldl (fun state info => ((state.1.updateInfo info).1, state.2 || (state.1.updateInfo info).2))
    (bar, false)

/-- The row has something new to show. -/
def markDirty (altScreenActive : Bool) (draw : Draw) : LoopOp Unit := do
  modify fun s => { s with statusDirty := true }
  whenever (config.DrawsAt altScreenActive) (refreshStatus u draw)

/-- The metadata of the session. -/
def applyMetadata (altScreenActive : Bool) (infos : List SessionInfo) (draw : Draw) : LoopOp Unit := do
  let s ← get
  let applied := applyPendingStatusMetadata s.bar infos
  modify fun s => { s with bar := applied.1 }
  whenever (applied.2 = true ∧ s.presence = .active) (markDirty u config altScreenActive draw)

/-- A line of the status command, which goes to the sink if there is one. -/
def applyCommand (altScreenActive : Bool) (latest : Str) (draw : Draw) : LoopOp Unit := do
  let s ← get
  whenever (config.cmuxStatusSink = false ∧ s.bar.commandLine ≠ some latest) do
    modify fun s => { s with bar := { s.bar with commandLine := some latest } }
    whenever (s.presence = .active) (markDirty u config altScreenActive draw)

/-- The status command's channel: its last line. -/
def applyPendingCommand (altScreenActive : Bool) (command : Option Str) (draw : Draw) : LoopOp Unit :=
  match command with
  | some latest => applyCommand u config altScreenActive latest draw
  | none => pure ()

/-- The redraw when the alternate screen is left. -/
def leaveAltScreen (altScreenActive : Bool) (draw : Draw) : LoopOp Unit := do
  let s ← get
  whenever (s.presence = .active ∧ s.prevAltScreenActive = true ∧ altScreenActive = false) do
    modify fun s => { s with bar := { s.bar with forceRedraw := true } }
    refreshStatus u draw

/-- One notification of the resize thread. -/
def applyResize (altScreenActive : Bool) (currentRows : ℕ) (draw : Draw) : LoopOp Unit := do
  modify fun s =>
    { s with
      tracker := { s.tracker with
        statusScrollBottom := statusScrollBottomForTerminalRows currentRows (s.presence = .active) }
      bar := { s.bar with forceRedraw := true } }
  let s ← get
  whenever (s.presence = .active ∧ config.DrawsAt altScreenActive) (refreshStatus u draw)

/-- The notifications of the resize thread. -/
def applyResizes (altScreenActive : Bool) : List (ℕ × Draw) → LoopOp Unit
  | [] => pure ()
  | resize :: resizes => do
    applyResize u config altScreenActive resize.1 resize.2
    applyResizes altScreenActive resizes

/-- `STATUS_HEARTBEAT`. -/
def statusHeartbeat : ℕ := 250

/-- `STATUS_HEARTBEAT_FORCED`. -/
def statusHeartbeatForced : ℕ := 2000

/-- `STATUS_DAMAGE_HEARTBEAT`. -/
def statusDamageHeartbeat : ℕ := 50

/-- `heartbeat_due`. -/
def heartbeatDue (elapsed : ℕ) (statusDirty damagePending : Bool) : Prop :=
  (statusDirty = false ∧ statusHeartbeat ≤ elapsed) ∨ (damagePending = true ∧ statusDamageHeartbeat ≤ elapsed) ∨
    statusHeartbeatForced ≤ elapsed
  deriving Decidable

/-- The timer that forces the content to be drawn again. -/
def forceContent (elapsedAt now : ℕ) : LoopOp Unit := do
  let s ← get
  whenever (statusHeartbeatForced ≤ elapsedAt - s.lastForcedRedraw) do
    modify fun s => { s with bar := { s.bar with forceContentRedraw := true }, lastForcedRedraw := now }

/-- The heartbeat. -/
def heartbeat (altScreenActive : Bool) (now : ℕ) (draw : Draw) : LoopOp Unit := do
  let s ← get
  whenever (s.presence = .active ∧ config.DrawsAt altScreenActive ∧
      heartbeatDue (now - s.lastStatusRefresh) s.statusDirty s.damagePending) do
    modify fun s => { s with damagePending := false }
    refreshStatus u draw

/-- An idle read. -/
def idleRead (altScreenActive : Bool) (draw : Draw) (titleDue : Bool) (titleWrite : WriteOutcome) :
    LoopOp Unit := do
  let s ← get
  whenever (s.statusDirty = true ∧ s.presence = .active ∧ config.DrawsAt altScreenActive)
    (refreshStatus u draw)
  whenever (config.titleCue = true ∧ titleDue = true) do
    emit .title
    liftM (settle titleWrite)

/-- A chunk of output: `observe`, then `forward_pty_output_frame_or_detached`. -/
def forwardChunk (bytes : List UInt8) (write flush : WriteOutcome) : LoopOp Unit := do
  let s ← get
  let observed := s.tracker.observe bytes
  modify fun s => { s with tracker := observed.1 }
  whenever (observed.2 = true) do
    modify fun s => { s with damagePending := true, bar := { s.bar with forceRedraw := true } }
  emit (.chunk bytes)
  liftM (settle write)
  whenever (s.presence = .active) do
    modify fun s => { s with statusDirty := true }
  liftM (settle flush)

/-- The read of the output. -/
def readOutput (altScreenActive : Bool) : Read → LoopOp Unit
  | .closed => throw .leave
  | .interrupted => pure ()
  | .idle draw titleDue titleWrite =>
    if config.idleWakeupEnabled then idleRead u config altScreenActive draw titleDue titleWrite
    else throw .fail
  | .failed => throw .fail
  | .chunk bytes write flush => forwardChunk bytes write flush

/-- The top of the loop: `damage_pending` does not outlive `status_dirty`. -/
def Loop.settled (s : Loop) : Loop := if s.statusDirty then s else { s with damagePending := false }

/-- The draws of a turn, after the polls. -/
def drawPending (altScreenActive : Bool) (input : Turn) : LoopOp Unit := do
  applyMetadata u config altScreenActive input.metadata input.metadataDraw
  applyPendingCommand u config altScreenActive input.command input.commandDraw
  leaveAltScreen u altScreenActive input.edgeDraw
  modify fun s => { s with prevAltScreenActive := altScreenActive }
  applyResizes u config altScreenActive input.resizes
  forceContent input.forcedElapsed input.forcedNow
  heartbeat u config altScreenActive input.heartbeatNow input.heartbeatDraw

/-- One turn of the loop up to its read: whether the alternate screen was active at its top. -/
def beforeRead (input : Turn) : LoopOp Bool := do
  whenever (input.running = false) (throw .leave)
  let s ← get
  let altScreenActive := s.tracker.altScreen.active
  modify Loop.settled
  whenever (config.nestedMonitorEnabled = true) (applyPolls u env input.polls)
  drawPending u config altScreenActive input
  return altScreenActive

/-- One turn of the loop. -/
def turn (input : Turn) : LoopOp Unit := do
  let altScreenActive ← beforeRead u env config input
  readOutput u config altScreenActive input.read

/-- The loop, as far as the inputs go. -/
def outputLoop : List Turn → LoopOp Unit
  | [] => pure ()
  | input :: inputs => do
    turn u env config input
    outputLoop inputs

/-- The last refresh, after the loop was left. -/
def finish (draw : Draw) : LoopOp Unit := do
  let s ← get
  whenever (s.statusDirty = true ∧ s.presence = .active ∧ config.DrawsAt s.prevAltScreenActive)
    (refreshStatus u draw)

/-- What is read before the loop begins. -/
structure Opening where
  info : Option SessionInfo
  commandAllowColor : Bool
  cols : ℕ
  rows : ℕ
  trackerRows : ℕ
  refreshNow : ℕ
  forcedNow : ℕ
  deriving DecidableEq, Repr

/-- The state in which the loop begins. -/
def Opening.start (opening : Opening) : Loop :=
  let style :=
    if config.inGrid then some (resolveStatusStyle env (opening.info.bind SessionInfo.statusTheme)) else none
  let entered := StatusBar.enter u env opening.info style AltScreenState.default.cursorVisible opening.cols
    opening.rows
  { presence := if config.inGrid then .active else .disabled
    bar := { entered.1 with commandAllowColor := opening.commandAllowColor }
    tracker := .new (statusScrollBottomForTerminalRows opening.trackerRows config.inGrid)
    metadataEnabled := config.contentActive
    statusDirty := false
    damagePending := false
    lastStatusRefresh := opening.refreshNow
    lastForcedRedraw := opening.forcedNow
    prevAltScreenActive := false
    detector := {}
    output := [] }

end

end LightTerminal.Client.OutputLoop
