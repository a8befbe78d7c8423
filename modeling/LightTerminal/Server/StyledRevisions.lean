import LightTerminal.Server.Delivery
import LightTerminal.Server.StyledScreen

/-! # Styled screens of running sessions

A client asks for the screen of a session and may name the revision that it has
(`styled_screen_capture` of `server.rs`). The answer is a snapshot, or that the screen has not been
modified since. Each snapshot reserves memory of the daemon until its response is written
(`reserve_styled_screen_bytes` and the `Drop` of `StyledScreenReservation`).

The captures run beside all threads of all sessions. A capture reads the session under `output_state`, one
field after the other, and the reservation is a loop of compare-and-exchange.

The fields `reservations` and `answers` are not in the source. They say who holds a reservation, and what
was answered at which screen. -/

namespace LightTerminal.Server.StyledRevisions

open LightTerminal.Data.Text LightTerminal.Library.Interleave LightTerminal.Library.Procedure
open LightTerminal.Server.Attach LightTerminal.Server.StyledScreen

/-- `STYLED_SCREEN_MAX_RESERVATION_BYTES`. -/
@[irreducible] def styledScreenMaxReservationBytes : ℕ := 16 * 1024 * 1024

/-- `STYLED_SCREEN_DAEMON_BUDGET_BYTES`. -/
@[irreducible] def styledScreenDaemonBudgetBytes : ℕ := 32 * 1024 * 1024

/-- `StyledScreenPrecondition`. -/
structure StyledScreenPrecondition where
  sessionId : Str
  screenRevision : Str

/-- `StyledScreenNotModified`. -/
structure StyledScreenNotModified where
  schemaVersion : Str
  variant : Str
  sessionId : Str
  screenRevision : Str

/-- `StyledScreenResult`. -/
inductive StyledScreenResult where
  | snapshot (snapshot : StyledScreenSnapshot)
  | notModified (notModified : StyledScreenNotModified)

/-- `StyledScreenCapture`; the reservation is the number of its bytes. -/
structure StyledScreenCapture where
  result : StyledScreenResult
  reservation : Option ℕ

/-- An answer, with the precondition of its request and the screen of the session at which it was
made. -/
structure Answer (Screen : Type) where
  precondition : Option StyledScreenPrecondition
  result : StyledScreenResult
  screen : Screen

/-- The daemon: its sessions by their ids, and the counter of the reserved bytes. -/
structure Daemon (Parser Screen : Type) where
  sessions : Str → Session Parser Screen
  styledScreenReservedBytes : ℕ
  reservations : List (ℕ × ℕ)
  answers : List (Answer Screen)

/-- `is_canonical_styled_revision`. -/
def isCanonicalStyledRevision (value : Str) : Bool :=
  value = ['0'] ||
    (value.head?.any (fun ch => isAsciiDigit ch && ch ≠ '0') && value.all isAsciiDigit)

/-- `str::parse::<u64>`. -/
def parseU64 (text : Str) : Option ℕ :=
  let digits := if text.head? = some '+' then text.tail else text
  let value := digits.foldl (fun n ch => 10 * n + (ch.toNat - '0'.toNat)) 0
  if digits ≠ [] ∧ digits.all isAsciiDigit ∧ value < 2 ^ 64 then some value else none

/-- The checks of a precondition: whether the revision is the one that the client has. -/
def checkPrecondition (sessionId : Str) (revision : ℕ) :
    Option StyledScreenPrecondition → Except StyledScreenError Bool
  | none => .ok false
  | some precondition => do
    require (precondition.sessionId = sessionId) .stale
    let requested ← expect (parseU64 precondition.screenRevision) .stale
    require (requested ≤ revision) .stale
    return requested = revision

section Programs

variable {Parser Screen : Type} (emulator : Emulator Parser Screen) (grid : Screen → VtScreen)

/-- The actions of the daemon. -/
abbrev Act (Parser Screen : Type) := Prog (Daemon Parser Screen) Input

/-- A session of the daemon is changed. -/
def Daemon.setSession (id : Str) (s : Session Parser Screen) (daemon : Daemon Parser Screen) :
    Daemon Parser Screen :=
  { daemon with sessions := Function.update daemon.sessions id s }

/-- A program on a session. -/
def onSession {α : Type} (id : Str) (program : Action Parser Screen α) : Act Parser Screen α :=
  program.within (·.sessions id) (Daemon.setSession id)

/-- The screen of a session. -/
def sessionScreen (s : Session Parser Screen) : Screen :=
  emulator.vt.screen s.terminal.terminalScreen

/-! ### Reservations -/

/-- `compare_exchange` of the counter: the value that is there if it is another one. -/
def compareExchange (thread current next : ℕ) : Act Parser Screen (Option ℕ) :=
  .atomically fun _ daemon =>
    if daemon.styledScreenReservedBytes = current then
      (none, { daemon with
        styledScreenReservedBytes := next
        reservations := (thread, next - current) :: daemon.reservations })
    else (some daemon.styledScreenReservedBytes, daemon)

/-- The loop of `reserve_styled_screen_bytes`. A thread that has used up its rounds is stuck. -/
def reserveLoop (thread : ℕ) : (rounds current : ℕ) →
    Act Parser Screen (Except StyledScreenError ℕ)
  | 0, _ => .await (fun _ => false) fun _ daemon => (.error .tooLarge, daemon)
  | rounds + 1, current =>
    let next := current + styledScreenMaxReservationBytes
    if 2 ^ 64 ≤ next then pure (.error .tooLarge)
    else if styledScreenDaemonBudgetBytes < next then pure (.error .tooLarge)
    else do
      match ← compareExchange thread current next with
      | none => pure (.ok styledScreenMaxReservationBytes)
      | some nextCurrent => reserveLoop thread rounds nextCurrent

/-- `reserve_styled_screen_bytes`. -/
def reserveStyledScreenBytes (thread rows cols : ℕ) :
    Act Parser Screen (Except StyledScreenError ℕ) :=
  match validateStyledScreenGeometry rows cols with
  | .error e => pure (.error e)
  | .ok () => do
    let rounds ← Prog.atomically fun (input : Input) daemon => (input.rounds, daemon)
    let current ← Prog.atomically fun _ daemon => (daemon.styledScreenReservedBytes, daemon)
    reserveLoop thread rounds current

/-- `fetch_sub` of a `usize`, which wraps around. -/
@[irreducible] def fetchSub (value bytes : ℕ) : ℕ := (value + 2 ^ 64 - bytes) % 2 ^ 64

/-- `Drop` of a `StyledScreenReservation`. -/
def dropReservation (thread : ℕ) : Option ℕ → Act Parser Screen Unit
  | none => pure ()
  | some bytes =>
    .atomically fun _ daemon => ((), { daemon with
      styledScreenReservedBytes := fetchSub daemon.styledScreenReservedBytes bytes
      reservations := daemon.reservations.eraseP fun reservation => reservation.1 = thread })

/-! ### Captures -/

/-- An answer is recorded. -/
def answer (precondition : Option StyledScreenPrecondition) (result : StyledScreenResult)
    (screen : Daemon Parser Screen → Screen) : Act Parser Screen Unit :=
  .atomically fun _ daemon => ((), { daemon with
    answers := ⟨precondition, result, screen daemon⟩ :: daemon.answers })

/-- The result of a request whose revision is that of the session. -/
def notModified (id : Str) (revision : ℕ) : StyledScreenResult :=
  .notModified {
    schemaVersion := styledScreenSchemaV1
    variant := "not_modified".toList
    sessionId := id
    screenRevision := decimal revision }

/-- What a capture has when it gives the guard back. -/
inductive Captured (Screen : Type) where
  | notModified (revision : ℕ)
  | screen (screen : Screen) (revision reservation : ℕ)

/-- The part of `styled_screen_capture` under the guard. -/
def captureUnderGuard (thread : ℕ) (id : Str) (precondition : Option StyledScreenPrecondition) :
    Act Parser Screen (Except StyledScreenError (Captured Screen)) := do
  let degraded ← onSession id (look fun s => s.terminalParserDegraded)
  if degraded then pure (.error .degraded)
  else do
    let revision ← onSession id (look fun s => s.styledScreenRevision)
    match checkPrecondition id revision precondition with
    | .error e => pure (.error e)
    | .ok true => do
      answer precondition (notModified id revision) fun daemon =>
        sessionScreen emulator (daemon.sessions id)
      pure (.ok (.notModified revision))
    | .ok false => do
      let size ← onSession id (look fun s =>
        ((grid (sessionScreen emulator s)).rows,
          (grid (sessionScreen emulator s)).cols))
      match validateStyledScreenGeometry size.1 size.2 with
      | .error e => pure (.error e)
      | .ok () => do
        match ← reserveStyledScreenBytes thread size.1 size.2 with
        | .error e => pure (.error e)
        | .ok reservation => do
          let screen ← onSession id (look (sessionScreen emulator))
          pure (.ok (.screen screen revision reservation))

/-- `styled_screen_capture`, of a target that `resolve_session` finds or not. -/
def styledScreenCapture (thread : ℕ) (resolved : Option Str) (schemaVersion : Str)
    (precondition : Option StyledScreenPrecondition) :
    Act Parser Screen (Except StyledScreenError StyledScreenCapture) :=
  if schemaVersion ≠ styledScreenSchemaV1 then pure (.error .unsupportedSchema)
  else if precondition.any (fun value => !isCanonicalStyledRevision value.screenRevision) then
    pure (.error .stale)
  else
    match resolved with
    | none => pure (.error .targetNotFound)
    | some id => do
      onSession id (acquire .outputState thread)
      let captured ← captureUnderGuard emulator grid thread id precondition
      onSession id (release .outputState)
      match captured with
      | .error e => pure (.error e)
      | .ok (.notModified revision) => pure (.ok ⟨notModified id revision, none⟩)
      | .ok (.screen screen revision reservation) =>
        match styledSnapshotFromScreen id revision (grid screen) with
        | .error e => do
          dropReservation thread (some reservation)
          pure (.error e)
        | .ok snapshot => do
          answer precondition (.snapshot snapshot) fun _ => screen
          pure (.ok ⟨.snapshot snapshot, some reservation⟩)

/-! ### Threads -/

/-- What a thread of the daemon is started for. -/
inductive Job where
  | session (id : Str) (job : Attach.Job)
  | styledScreen (resolved : Option Str) (schemaVersion : Str)
      (precondition : Option StyledScreenPrecondition)

/-- What a thread returns. -/
inductive Outcome where
  | session (outcome : Attach.Outcome)
  | styledScreen (result : Except StyledScreenError StyledScreenResult)

/-- The program of a thread. A capture is dropped when its response has been written. -/
def program (thread : ℕ) : Job → Act Parser Screen Outcome
  | .session id job => do
    let outcome ← onSession id (Attach.program emulator thread job)
    return .session outcome
  | .styledScreen resolved schemaVersion precondition => do
    match ← styledScreenCapture emulator grid thread resolved schemaVersion precondition with
    | .error e => return .styledScreen (.error e)
    | .ok capture => do
      dropReservation thread capture.reservation
      return .styledScreen (.ok capture.result)

/-- A daemon whose sessions are new. -/
def newDaemon (geometry : Str → Geometry) : Daemon Parser Screen where
  sessions id := newSession emulator (geometry id)
  styledScreenReservedBytes := 0
  reservations := []
  answers := []

/-- Any number of threads on a daemon. -/
def threads (geometry : Str → Geometry) (events : List (Event Job Input)) :
    Pool (Daemon Parser Screen) Input Outcome :=
  run (program emulator grid) (newDaemon emulator geometry) events

end Programs

end LightTerminal.Server.StyledRevisions
