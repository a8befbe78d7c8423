import LightTerminal.Library.Interleave
import LightTerminal.Library.Procedure
import LightTerminal.Output.NormalScreen
import LightTerminal.Output.Ring

/-! # Attached clients

The output of a session goes to the clients that are attached to it, each of which has a channel, and
the pseudo terminal has the size of the smallest of them (`append_output`,
`subscribe_with_snapshot_and_apply_clamp`, `unsubscribe` and the `Resize` request of `server.rs`).

A session is used by any number of threads at once, each of which runs one of these functions
(`Job`, `program`). Its locks are `geometry_apply`, `output_state` and `broadcast_order`; a thread
waits until the lock it needs is free. The lock `subscribers` is only held for one access, and so is
no part of the state: each access to the list is one action. What a holder of `output_state` writes
to the ring and to the terminal, which nobody else writes, is one action too.

The emulator `vt100` may panic in any call, and the ioctl that sizes the pseudo terminal may fail; an
input says whether they do. The input of the deadline of `broadcast_chunk` is the number of rounds
for which it waits.

`Record` and the fields `owing`, `evictions` and `hooks` of a session are not in the source. They say
what happened. -/

namespace LightTerminal.Server.Attach

open LightTerminal.Library.Interleave LightTerminal.Library.Procedure
open LightTerminal.Output.Ring LightTerminal.Output.NormalScreen

/-- `MAX_SUBSCRIBERS_PER_SESSION`. -/
def maxSubscribersPerSession : ℕ := 32

/-- `SUBSCRIBER_QUEUE_LIMIT`. -/
def subscriberQueueLimit : ℕ := 256

/-- `MAX_TERMINAL_ROWS`. -/
def maxTerminalRows : ℕ := 1000

/-- `MAX_TERMINAL_COLS`. -/
def maxTerminalCols : ℕ := 1000

/-- `MAX_TERMINAL_CELLS`. -/
def maxTerminalCells : ℕ := 200000

/-- `OutputChunk`. -/
abbrev OutputChunk := List UInt8

/-! ### Geometries -/

/-- Rows and columns. -/
structure Geometry where
  rows : ℕ
  cols : ℕ
  deriving DecidableEq

/-- `Subscriber`; its `tx` is the channel of its id, and its `on_evict` the hook of its id. -/
structure Subscriber where
  id : ℕ
  geometry : Geometry
  deriving DecidableEq

/-- Why a geometry is refused. -/
inductive GeometryError where
  | zero
  | tooLarge (geometry : Geometry)
  | tooManyCells (cells : ℕ)
  deriving DecidableEq

/-- `validate_terminal_geometry`. -/
def validateTerminalGeometry (geometry : Geometry) : Except GeometryError Unit := do
  require (geometry.rows ≠ 0 ∧ geometry.cols ≠ 0) .zero
  require (geometry.rows ≤ maxTerminalRows ∧ geometry.cols ≤ maxTerminalCols) (.tooLarge geometry)
  require (geometry.rows * geometry.cols ≤ maxTerminalCells)
    (.tooManyCells (geometry.rows * geometry.cols))

/-- The smaller number of rows and the smaller number of columns. -/
def Geometry.smaller (geometry other : Geometry) : Geometry :=
  ⟨min geometry.rows other.rows, min geometry.cols other.cols⟩

/-- `clamp_to_smallest_with_candidate`. -/
def clampToSmallestWithCandidate (subscribers : List Subscriber) (candidate : Geometry) : Geometry :=
  subscribers.foldl (fun geometry sub => geometry.smaller sub.geometry) candidate

/-- `clamp_to_smallest`. -/
def clampToSmallest : List Subscriber → Option Geometry
  | [] => none
  | first :: rest => some (clampToSmallestWithCandidate rest first.geometry)

/-! ### Channels -/

/-- An `mpsc::sync_channel` of `SUBSCRIBER_QUEUE_LIMIT`: all that was sent, how much of it was
received, and whether the receiver is still there. -/
structure Channel where
  sent : List OutputChunk := []
  received : ℕ := 0
  connected : Bool := true
  deriving DecidableEq

/-- The result of `try_send`. -/
inductive TrySend where
  | ok
  | full
  | disconnected
  deriving DecidableEq

/-- `try_send`. -/
def Channel.trySend (channel : Channel) (chunk : OutputChunk) : TrySend × Channel :=
  if channel.connected = false then (.disconnected, channel)
  else if subscriberQueueLimit ≤ channel.sent.length - channel.received then (.full, channel)
  else (.ok, { channel with sent := channel.sent ++ [chunk] })

/-- `recv`, of a thread that waits for the next chunk. -/
def Channel.recv (channel : Channel) : Channel :=
  if channel.received < channel.sent.length then { channel with received := channel.received + 1 }
  else channel

/-! ### Sessions -/

/-- The emulator, with the size of its screen and `state_formatted` of a screen at a size. -/
structure Emulator (Parser Screen : Type) where
  vt : Vt Parser Screen
  setSize : Parser → ℕ → ℕ → Parser
  size : Parser → ℕ × ℕ
  format : Screen → ℕ → ℕ → List UInt8

/-- The locks of a session. -/
inductive Lock where
  | geometryApply
  | outputState
  | broadcastOrder
  deriving DecidableEq

/-- What the terminal went through. -/
inductive TerminalEvent where
  | output (chunk : OutputChunk)
  | resize (geometry : Geometry)
  deriving DecidableEq

/-- Where a subscriber joined: the thread that attached it, what the terminal had gone through and
whether its parser was degraded, and the snapshot with the geometry at which it was formatted. -/
structure Cut where
  thread : ℕ
  history : List TerminalEvent
  degraded : Bool
  formatted : Geometry
  snapshot : Option OutputChunk
  deriving DecidableEq

/-- For whom a size is applied. `forced` is a request without a subscriber. -/
inductive Source where
  | attach (id : ℕ)
  | detach (id : ℕ)
  | resize (id : ℕ)
  | forced
  deriving DecidableEq

/-- What happened to the subscribers and the sizes. -/
inductive Record where
  | subscribed (id : ℕ)
  | updated (id : ℕ)
  | removed (id : ℕ)
  | evicted (id : ℕ)
  | sized (thread : ℕ) (geometry : Geometry)
  | applied (source : Source)
  | failed (source : Source)
  deriving DecidableEq

/-- What the locks `geometry_apply` and `output_state` protect. `master` is the size of the pseudo
terminal. The history is in the order of time, the latest record is the first of the trail. -/
structure Core (Parser Screen : Type) where
  ring : List UInt8
  terminal : SnapshotState Parser Screen
  terminalParserDegraded : Bool
  styledScreenRevision : ℕ
  rows : ℕ
  cols : ℕ
  master : Geometry
  subscribers : List Subscriber
  nextSubscriberId : ℕ
  history : List TerminalEvent
  cuts : ℕ → Option Cut
  trail : List Record

/-- `Session`, as far as its output and its geometry go: who holds the locks, the channels of the
subscribers, the subscribers that have not been sent the latest chunk, and the evictions and the calls
of `on_evict`, each with its thread. -/
structure Session (Parser Screen : Type) extends Core Parser Screen where
  locks : Lock → Option ℕ
  channels : ℕ → Channel
  owing : List ℕ
  evictions : List (ℕ × ℕ)
  hooks : List (ℕ × ℕ)

/-- What happens outside: whether a call fails, and for how many rounds a broadcast waits. -/
structure Input where
  fails : Bool
  rounds : ℕ

section Programs

variable {Parser Screen : Type} (emulator : Emulator Parser Screen)

/-- A new session. -/
def newSession (geometry : Geometry) : Session Parser Screen where
  ring := []
  terminal := Output.NormalScreen.newSession emulator.vt
  terminalParserDegraded := false
  styledScreenRevision := 0
  rows := geometry.rows
  cols := geometry.cols
  master := geometry
  subscribers := []
  nextSubscriberId := 1
  history := []
  cuts := fun _ => none
  trail := []
  locks := fun _ => none
  channels := fun _ => {}
  owing := []
  evictions := []
  hooks := []

/-- `mark_terminal_parser_degraded` and `clear_terminal_pending_prefix`. -/
def Core.degrade (core : Core Parser Screen) : Core Parser Screen :=
  { core with
    terminalParserDegraded := true
    terminal := { core.terminal with terminalPending := .default } }

/-- `advance_styled_screen_revision`. -/
def Core.advanceStyledScreenRevision (core : Core Parser Screen) : Core Parser Screen :=
  if core.styledScreenRevision + 1 < 2 ^ 64 then
    { core with styledScreenRevision := core.styledScreenRevision + 1 }
  else core.degrade

/-- `update_terminal_snapshot_state`. -/
def Core.updateTerminalSnapshotState (panics : Bool) (bytes : OutputChunk)
    (core : Core Parser Screen) : Core Parser Screen :=
  if core.terminalParserDegraded then core
  else if panics then core.degrade
  else
    { core with
      terminal := Output.NormalScreen.updateTerminalSnapshotState emulator.vt core.terminal bytes }

/-- What `append_output` writes in its first critical section. -/
def Core.appendOutput (panics : Bool) (bytes : OutputChunk) (core : Core Parser Screen) :
    Core Parser Screen :=
  let core := { core with
    ring := appendRingBytes core.ring bytes
    history := core.history ++ [TerminalEvent.output bytes] }
  let core := core.updateTerminalSnapshotState emulator panics bytes
  if bytes ≠ [] ∧ core.terminalParserDegraded = false then core.advanceStyledScreenRevision else core

/-- `resize_terminal_screen`. -/
def Core.resizeTerminalScreen (panics : Bool) (geometry : Geometry) (core : Core Parser Screen) :
    Core Parser Screen :=
  if core.terminalParserDegraded then core
  else if panics then core.degrade
  else
    Core.advanceStyledScreenRevision { core with
      terminal := { core.terminal with
        terminalScreen :=
          emulator.setSize core.terminal.terminalScreen geometry.rows geometry.cols }
      history := core.history ++ [.resize geometry] }

/-- `initial_screen_state_snapshot`. -/
def Core.initialScreenStateSnapshot (panics : Bool) (geometry : Geometry)
    (core : Core Parser Screen) : Option OutputChunk × Core Parser Screen :=
  if core.terminalParserDegraded then (none, core)
  else if panics then (none, core.degrade)
  else
    (screenStateSnapshot emulator.vt emulator.format core.terminal geometry.rows geometry.cols, core)

/-! ### Actions -/

/-- The actions of a session. -/
abbrev Action (Parser Screen : Type) := Prog (Session Parser Screen) Input

/-- `lock`. -/
def acquire (lock : Lock) (thread : ℕ) : Action Parser Screen Unit :=
  .await (fun s => (s.locks lock).isNone) fun _ s =>
    ((), { s with locks := Function.update s.locks lock (some thread) })

/-- The end of a guard. -/
def release (lock : Lock) : Action Parser Screen Unit :=
  .atomically fun _ s => ((), { s with locks := Function.update s.locks lock none })

/-- A look at the session. -/
def look {α : Type} (f : Session Parser Screen → α) : Action Parser Screen α :=
  .atomically fun _ s => (f s, s)

/-- An action on what the locks protect. -/
def onCore {α : Type} (f : Input → Core Parser Screen → α × Core Parser Screen) :
    Action Parser Screen α :=
  .atomically fun input s =>
    ((f input s.toCore).1, { s with toCore := (f input s.toCore).2 })

/-! ### Output -/

/-- The ring, the terminal and the screen revision in `append_output`. All subscribers are owed the
chunk. -/
def recordOutput (bytes : OutputChunk) : Action Parser Screen Unit :=
  .atomically fun input s =>
    ((), { s with
      toCore := s.toCore.appendOutput emulator input.fails bytes
      owing := s.subscribers.map Subscriber.id })

/-- `sub.tx.try_send`. -/
def trySend (id : ℕ) (chunk : OutputChunk) : Action Parser Screen TrySend :=
  .atomically fun _ s =>
    let sent := (s.channels id).trySend chunk
    (sent.1, { s with
      channels := Function.update s.channels id sent.2
      owing := if sent.1 = .ok then s.owing.erase id else s.owing })

/-- A pass of `broadcast_chunk` over some subscribers, with those found disconnected so far: the ids that
are disconnected, and the subscribers whose queues are full. -/
def sendPass (chunk : OutputChunk) : List Subscriber → (disconnected : List ℕ) →
    (pending : List Subscriber) → Action Parser Screen (List ℕ × List Subscriber)
  | [], disconnected, pending => pure (disconnected, pending)
  | sub :: subscribers, disconnected, pending => do
    match ← trySend sub.id chunk with
    | .ok => sendPass chunk subscribers disconnected pending
    | .full => sendPass chunk subscribers disconnected (pending ++ [sub])
    | .disconnected => sendPass chunk subscribers (disconnected ++ [sub.id]) pending

/-- The second pass of `broadcast_chunk`: rounds until the deadline. -/
def retryRounds (chunk : OutputChunk) : ℕ → (disconnected : List ℕ) → (pending : List Subscriber) →
    Action Parser Screen (List ℕ × List Subscriber)
  | 0, disconnected, pending => pure (disconnected, pending)
  | rounds + 1, disconnected, pending =>
    if pending.isEmpty then pure (disconnected, pending)
    else do
      let passed ← sendPass chunk pending disconnected []
      retryRounds chunk rounds passed.1 passed.2

/-- `broadcast_chunk`. -/
def broadcastChunk (subscribers : List Subscriber) (chunk : OutputChunk) :
    Action Parser Screen (List ℕ) := do
  let first ← sendPass chunk subscribers [] []
  let rounds ← Prog.atomically fun (input : Input) s => (input.rounds, s)
  let second ← retryRounds chunk rounds first.1 first.2
  return second.1 ++ second.2.map Subscriber.id

/-- `evict_disconnected_subscribers`: the ids whose hooks are to be called. Nobody is owed the chunk any
more. -/
def evictDisconnectedSubscribers (thread : ℕ) (disconnected : List ℕ) :
    Action Parser Screen (List ℕ) :=
  .atomically fun _ s =>
    let shutdowns := (s.subscribers.map Subscriber.id).filter (· ∈ disconnected)
    (shutdowns, { s with
      subscribers := s.subscribers.filter (·.id ∉ disconnected)
      trail := shutdowns.map .evicted ++ s.trail
      owing := []
      evictions := shutdowns.map (thread, ·) ++ s.evictions })

/-- The calls of `on_evict`. -/
def callShutdowns (thread : ℕ) : List ℕ → Action Parser Screen Unit
  | [] => pure ()
  | id :: shutdowns => do
    Prog.atomically fun _ s => ((), { s with hooks := (thread, id) :: s.hooks })
    callShutdowns thread shutdowns

/-- The second critical section of `append_output`. -/
def evict (thread : ℕ) (disconnected : List ℕ) : Action Parser Screen (List ℕ) :=
  if disconnected.isEmpty then pure []
  else do
    acquire .outputState thread
    let shutdowns ← evictDisconnectedSubscribers thread disconnected
    release .outputState
    return shutdowns

/-- `append_output`. -/
def appendOutput (thread : ℕ) (bytes : OutputChunk) : Action Parser Screen Unit := do
  acquire .broadcastOrder thread
  acquire .outputState thread
  recordOutput emulator bytes
  let subscribers ← look fun s => s.subscribers
  if subscribers.isEmpty then
    release .outputState
    release .broadcastOrder
  else do
    release .outputState
    let disconnected ← broadcastChunk subscribers bytes
    let shutdowns ← evict thread disconnected
    release .broadcastOrder
    callShutdowns thread shutdowns

/-! ### Sizes -/

/-- Why a size is not applied. -/
inductive ResizeError where
  | geometry (error : GeometryError)
  | notAttached (id : ℕ)
  | ioctl
  deriving DecidableEq

/-- `apply_pty_size_under_output_guard`. -/
def applyPtySizeUnderOutputGuard (thread : ℕ) (source : Source) (geometry : Geometry) :
    Action Parser Screen (Except ResizeError Unit) := do
  let resized ← onCore fun input core =>
    if input.fails then (false, { core with trail := .failed source :: core.trail })
    else
      (true, { core with master := geometry, trail := .sized thread geometry :: core.trail })
  if resized then do
    onCore fun _ core => ((), { core with rows := geometry.rows })
    onCore fun _ core => ((), { core with cols := geometry.cols })
    onCore fun input core =>
      let core := core.resizeTerminalScreen emulator input.fails geometry
      ((), { core with trail := .applied source :: core.trail })
    return .ok ()
  else return .error .ioctl

/-- `apply_clamped_pty_size_under_output_guard`. -/
def applyClampedPtySizeUnderOutputGuard (thread : ℕ) (source : Source) :
    Action Parser Screen (Except ResizeError Unit) := do
  let target ← onCore fun _ core =>
    match clampToSmallest core.subscribers with
    | none => (none, { core with trail := .applied source :: core.trail })
    | some geometry => (some geometry, core)
  match target with
  | none => return .ok ()
  | some geometry => do
    let current ← onCore fun _ core =>
      if core.rows = geometry.rows ∧ core.cols = geometry.cols then
        (true, { core with trail := .applied source :: core.trail })
      else (false, core)
    if current then return .ok ()
    else applyPtySizeUnderOutputGuard emulator thread source geometry

/-- `apply_clamped_pty_size`. -/
def applyClampedPtySize (thread : ℕ) (source : Source) :
    Action Parser Screen (Except ResizeError Unit) := do
  acquire .outputState thread
  let result ← applyClampedPtySizeUnderOutputGuard emulator thread source
  release .outputState
  return result

/-- `apply_pty_size`, of a request without a subscriber. -/
def applyPtySize (thread : ℕ) (geometry : Geometry) :
    Action Parser Screen (Except ResizeError Unit) := do
  acquire .outputState thread
  let result ← applyPtySizeUnderOutputGuard emulator thread .forced geometry
  release .outputState
  return result

/-! ### Attaching -/

/-- Why a client is not attached. -/
inductive AttachError where
  | notSupplied
  | geometry (error : GeometryError)
  | tooMany
  | snapshotPush (id : ℕ)
  | resize (error : ResizeError)
  deriving DecidableEq

/-- `subscribe_locked`. -/
def subscribeLocked (thread : ℕ) (geometry formatted : Geometry)
    (initialChunk : Option OutputChunk) : Action Parser Screen (Except AttachError ℕ) :=
  .atomically fun _ s =>
    let id := s.nextSubscriberId
    let s := { s with nextSubscriberId := id + 1 }
    if maxSubscribersPerSession ≤ s.subscribers.length then (.error .tooMany, s)
    else
      let pushed (channel : Channel) :=
        { s with
          subscribers := s.subscribers ++ [⟨id, geometry⟩]
          channels := Function.update s.channels id channel
          cuts := Function.update s.cuts id
            (some ⟨thread, s.history, s.terminalParserDegraded, formatted, initialChunk⟩)
          trail := .subscribed id :: s.trail }
      match initialChunk with
      | none => (.ok id, pushed {})
      | some chunk =>
        match Channel.trySend {} chunk with
        | (.ok, channel) => (.ok id, pushed channel)
        | _ => (.error (.snapshotPush id), s)

/-- `lock(&self.subscribers).retain(|sub| sub.id != subscriber_id)`. -/
def removeSubscriber (id : ℕ) : Action Parser Screen Unit :=
  onCore fun _ core =>
    ((), { core with
      subscribers := core.subscribers.filter (·.id ≠ id)
      trail := .removed id :: core.trail })

/-- The snapshot in `subscribe_with_snapshot_and_apply_clamp`, and the geometry for it. -/
def initialChunk (geometry : Geometry) : Action Parser Screen (Geometry × Option OutputChunk) := do
  let hasOutput ← look fun s => !s.ring.isEmpty
  let formatted ← look fun s => clampToSmallestWithCandidate s.subscribers geometry
  if hasOutput then do
    let snapshot ← onCore fun input core =>
      core.initialScreenStateSnapshot emulator input.fails formatted
    return (formatted, snapshot)
  else return (formatted, none)

/-- The part of `subscribe_with_snapshot_and_apply_clamp` under both guards. -/
def subscribeAndApplyClamp (thread : ℕ) (geometry : Geometry) :
    Action Parser Screen (Except AttachError ℕ) := do
  let chunk ← initialChunk emulator geometry
  match ← subscribeLocked thread geometry chunk.1 chunk.2 with
  | .error e => return .error e
  | .ok id => do
    match ← applyClampedPtySizeUnderOutputGuard emulator thread (.attach id) with
    | .ok () => return .ok id
    | .error e => do
      removeSubscriber id
      return .error (.resize e)

/-- The checks of `subscribe_with_snapshot_and_apply_clamp`. -/
def validateAttach (geometry : Geometry) : Except AttachError Unit := do
  require (geometry.rows ≠ 0 ∧ geometry.cols ≠ 0) .notSupplied
  (validateTerminalGeometry geometry).mapError .geometry

/-- `subscribe_with_snapshot_and_apply_clamp`. -/
def subscribeWithSnapshotAndApplyClamp (thread : ℕ) (geometry : Geometry) :
    Action Parser Screen (Except AttachError ℕ) :=
  match validateAttach geometry with
  | .error e => pure (.error e)
  | .ok () => do
    acquire .geometryApply thread
    acquire .outputState thread
    let result ← subscribeAndApplyClamp emulator thread geometry
    release .outputState
    release .geometryApply
    return result

/-- `unsubscribe`. -/
def unsubscribe (thread : ℕ) (id : ℕ) : Action Parser Screen Unit := do
  acquire .geometryApply thread
  acquire .outputState thread
  removeSubscriber id
  release .outputState
  let _ ← applyClampedPtySize emulator thread (.detach id)
  release .geometryApply

/-- `close_subscribers`. -/
def closeSubscribers (thread : ℕ) : Action Parser Screen Unit := do
  acquire .outputState thread
  onCore fun _ core =>
    ((), { core with
      subscribers := []
      trail := core.subscribers.map (fun sub => .removed sub.id) ++ core.trail })
  release .outputState

/-- The new geometry of a subscriber in `Request::Resize`. -/
def updateGeometry (id : ℕ) (geometry : Geometry) : Action Parser Screen Bool :=
  onCore fun _ core =>
    if core.subscribers.any (·.id = id) then
      (true, { core with
        subscribers := core.subscribers.map fun sub =>
          if sub.id = id then { sub with geometry := geometry } else sub
        trail := .updated id :: core.trail })
    else (false, core)

/-- `Request::Resize`. -/
def resize (thread : ℕ) (subscriberId : Option ℕ) (geometry : Geometry) :
    Action Parser Screen (Except ResizeError Unit) :=
  match validateTerminalGeometry geometry with
  | .error e => pure (.error (.geometry e))
  | .ok () => do
    acquire .geometryApply thread
    let result ←
      match subscriberId with
      | some id => do
        let found ← updateGeometry id geometry
        if found then applyClampedPtySize emulator thread (.resize id)
        else pure (.error (.notAttached id))
      | none => applyPtySize emulator thread geometry
    release .geometryApply
    return result

/-! ### Threads -/

/-- What a thread is started for. -/
inductive Job where
  | appendOutput (bytes : OutputChunk)
  | attach (geometry : Geometry)
  | unsubscribe (id : ℕ)
  | resize (subscriberId : Option ℕ) (geometry : Geometry)
  | closeSubscribers
  | recv (id : ℕ)
  | dropReceiver (id : ℕ)

/-- What a thread returns. -/
inductive Outcome where
  | appended (thread : ℕ)
  | attached (thread : ℕ) (result : Except AttachError ℕ)
  | resized (result : Except ResizeError Unit)
  | done

/-- The program of a thread. -/
def program (thread : ℕ) : Job → Action Parser Screen Outcome
  | .appendOutput bytes => do
    appendOutput emulator thread bytes
    return .appended thread
  | .attach geometry => do
    let result ← subscribeWithSnapshotAndApplyClamp emulator thread geometry
    return .attached thread result
  | .unsubscribe id => do
    unsubscribe emulator thread id
    return .done
  | .resize subscriberId geometry => do
    let result ← resize emulator thread subscriberId geometry
    return .resized result
  | .closeSubscribers => do
    closeSubscribers thread
    return .done
  | .recv id => do
    Prog.atomically fun _ s =>
      ((), { s with channels := Function.update s.channels id (s.channels id).recv })
    return .done
  | .dropReceiver id => do
    Prog.atomically fun _ s =>
      ((), { s with
        channels := Function.update s.channels id { s.channels id with connected := false } })
    return .done

/-- Any number of threads on a new session. -/
def threads (geometry : Geometry) (events : List (Event Job Input)) :
    Pool (Session Parser Screen) Input Outcome :=
  run (program emulator) (newSession emulator geometry) events

end Programs

end LightTerminal.Server.Attach
