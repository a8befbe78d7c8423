import LightTerminal.Library.Interleave

/-! # Signals to a process group

The daemon ends a session by signalling the process group of its leader. A process number names the
leader only until the leader is reaped; after that the kernel may give it to any other process
(`wait_for_leader_exit_without_reaping`, `wait_for_child_and_publish_reaped` and
`terminate_process_group_for_request` of `server.rs`, and what they call).

A session has a thread that waits for its leader, and any number of threads that terminate it (`Job`,
`program`). The kernel is a thread too: the leader may exit at any time, and once it is reaped its
number may be reused at any time. An input is what a system call answers. A signal is recorded when
it is sent, with what the number of the leader names then (`Sent`); whether the kernel delivered it is
an input.

* `signals_reach_leader`: in every run each signal is sent while the number names the leader.
* `residual_ladder_once`: the ladder for what an exited leader left behind is sent at most once. -/

namespace LightTerminal.Server.Signals

open LightTerminal.Library.Interleave

/-! ### Sessions -/

/-- What the process number of the leader names: the leader, running or exited and not reaped, nobody,
or another process. -/
inductive Number where
  | running
  | exited
  | free
  | reused
  deriving DecidableEq

/-- The order in which a number goes through these. -/
def Number.rank : Number → ℕ
  | .running => 0
  | .exited => 1
  | .free => 2
  | .reused => 3

/-- The signals of the ladders. -/
inductive Signal where
  | sighup
  | sigterm
  | sigkill
  deriving DecidableEq

/-- What a signal is sent to; `killer` is the `ChildKiller` of the session. -/
inductive Target where
  | group (pgid : ℤ)
  | process (pid : ℤ)
  | killer
  deriving DecidableEq

/-- A signal that was sent, whether `signal_unreaped_process_group` sent it, and what the number of the
leader named. -/
structure Sent where
  target : Target
  signal : Signal
  residual : Bool
  number : Number
  deriving DecidableEq

/-- `process_id` and `process_group_id` of a session. -/
structure Identity where
  processId : Option ℕ
  processGroupId : Option ℤ

/-- `Session`, as far as its end goes: who holds the lock `child`, and what was sent. -/
structure Session where
  number : Number
  child : Option ℕ
  leaderExitObserved : Bool
  leaderReaped : Bool
  unreapedCleanupStarted : Bool
  sent : List Sent
  deriving DecidableEq

/-- A new session. -/
def newSession : Session where
  number := .running
  child := none
  leaderExitObserved := false
  leaderReaped := false
  unreapedCleanupStarted := false
  sent := []

/-- The result of `kill`. -/
inductive Kill where
  | ok
  | esrch
  | failed
  deriving DecidableEq

/-- What system calls answer: the answer of `getpgid`, the result of `kill`, whether a wait fails, and
how many rounds a wait with a timeout has. -/
structure Input where
  pgid : ℤ
  kill : Kill
  fails : Bool
  rounds : ℕ

/-! ### Actions -/

/-- The actions on a session. -/
abbrev Action := Prog Session Input

/-- `lock(&session.child)`. -/
def acquire (thread : ℕ) : Action Unit :=
  .await (fun s => s.child.isNone) fun _ s => ((), { s with child := some thread })

/-- The end of the guard. -/
def release : Action Unit := .atomically fun _ s => ((), { s with child := none })

/-- A look at the session. -/
def look {α : Type} (f : Session → α) : Action α := .atomically fun _ s => (f s, s)

/-- The answer of a system call that changes nothing. -/
def ask {α : Type} (f : Input → α) : Action α := .atomically fun input s => (f input, s)

/-- `libc::kill`, or the call of the killer. -/
def send (target : Target) (signal : Signal) (residual : Bool) : Action Kill :=
  .atomically fun input s =>
    (input.kill, { s with sent := s.sent ++ [⟨target, signal, residual, s.number⟩] })

section Programs

variable (identity : Identity)

/-- `process_id` as a `pid_t`. -/
def Identity.pid : Option ℤ :=
  (identity.processId.filter (· < 2 ^ 31)).map Int.ofNat

/-- `process_group_id`, if it is greater than 1. -/
def Identity.pgid : Option ℤ := identity.processGroupId.filter (1 < ·)

/-- `process_group_still_owns_child`. -/
def processGroupStillOwnsChild (pgid : ℤ) : Action Bool :=
  match identity.pid with
  | none => pure false
  | some _ => ask fun input => decide (input.pgid = pgid)

/-- `verified_session_process_group_id`. -/
def verifiedSessionProcessGroupId : Action (Option ℤ) :=
  match identity.pgid with
  | none => pure none
  | some pgid => do
    if ← processGroupStillOwnsChild identity pgid then return some pgid else return none

/-- The part of `signal_process_group` that signals the group: whether it is done. -/
def signalGroup (signal : Signal) : Action Bool := do
  match ← verifiedSessionProcessGroupId identity with
  | none => return false
  | some pgid => do
    let rc ← send (.group pgid) signal false
    return decide (rc = .ok)

/-- The part of `signal_process_group` that signals the leader alone. -/
def signalLeader (signal : Signal) : Action Unit :=
  if signal = .sigkill then do
    let _ ← send .killer signal false
  else
    match identity.pid with
    | none => pure ()
    | some pid => do
      let _ ← send (.process pid) signal false

/-- `signal_process_group`. -/
def signalProcessGroup (signal : Signal) : Action Unit := do
  if ← signalGroup identity signal then return ()
  else signalLeader identity signal

/-- `signal_unreaped_process_group`. -/
def signalUnreapedProcessGroup (signal : Signal) : Action Unit :=
  match identity.pgid with
  | none => pure ()
  | some pgid => do
    let _ ← send (.group pgid) signal true

/-- `ProcessGroupWait`. -/
inductive ProcessGroupWait where
  | exited
  | leaderObserved
  | timedOut
  deriving DecidableEq

/-- The last look of `wait_for_process_group_exit_or_leader_observed`. -/
def leaderObservedOrTimedOut : Action ProcessGroupWait :=
  look fun s => if s.leaderExitObserved then .leaderObserved else .timedOut

/-- The rounds of `wait_for_process_group_exit_or_leader_observed` until its deadline. -/
def groupWaitRounds : ℕ → Action ProcessGroupWait
  | 0 => leaderObservedOrTimedOut
  | rounds + 1 => do
    if ← look fun s => s.leaderExitObserved then return .leaderObserved
    else if ← ask fun input => decide (input.kill = .esrch) then return .exited
    else groupWaitRounds rounds

/-- `wait_for_process_group_exit_or_leader_observed`. -/
def waitForProcessGroupExitOrLeaderObserved : Action ProcessGroupWait := do
  if ← look fun s => s.leaderExitObserved then return .leaderObserved
  else
    match ← verifiedSessionProcessGroupId identity with
    | none => leaderObservedOrTimedOut
    | some _ => do
      let rounds ← ask Input.rounds
      groupWaitRounds rounds

/-- The rounds of `wait_for_leader_exit_observed`. -/
def observedRounds : ℕ → Action Bool
  | 0 => look fun s => s.leaderExitObserved
  | rounds + 1 => do
    if ← look fun s => s.leaderExitObserved then return true
    else observedRounds rounds

/-- `wait_for_leader_exit_observed`. -/
def waitForLeaderExitObserved : Action Bool := do
  let rounds ← ask Input.rounds
  observedRounds rounds

/-! ### The two ladders -/

/-- `unreaped_cleanup_started.swap(true, _)`. -/
def startUnreapedCleanup : Action Bool :=
  .atomically fun _ s => (s.unreapedCleanupStarted, { s with unreapedCleanupStarted := true })

/-- `terminate_unreaped_process_group`. -/
def terminateUnreapedProcessGroup : Action Unit := do
  if ← look fun s => s.leaderReaped then return ()
  else if ← startUnreapedCleanup then return ()
  else
    signalUnreapedProcessGroup identity .sighup
    signalUnreapedProcessGroup identity .sigterm
    signalUnreapedProcessGroup identity .sigkill

/-- A signal of `terminate_verified_process_group_for_request` and the wait after it, and then the rest
of the ladder. -/
def rung (signal : Signal) (rest : Action Unit) : Action Unit := do
  signalProcessGroup identity signal
  match ← waitForProcessGroupExitOrLeaderObserved identity with
  | .leaderObserved => terminateUnreapedProcessGroup identity
  | .exited => return ()
  | .timedOut => rest

/-- `terminate_verified_process_group_for_request`. -/
def terminateVerifiedProcessGroupForRequest : Action Unit :=
  rung identity .sighup (rung identity .sigterm (rung identity .sigkill (pure ())))

/-- `maybe_terminate_observed_unreaped_process_group`. -/
def maybeTerminateObservedUnreapedProcessGroup : Action Unit := do
  if ← waitForLeaderExitObserved then
    if ← look fun s => s.leaderReaped then return ()
    else terminateUnreapedProcessGroup identity
  else return ()

/-- `terminate_process_group_for_request`, under the guard. -/
def terminateUnderGuard : Action Unit := do
  if ← look fun s => s.leaderReaped then return ()
  else if ← look fun s => s.leaderExitObserved then terminateUnreapedProcessGroup identity
  else
    terminateVerifiedProcessGroupForRequest identity
    maybeTerminateObservedUnreapedProcessGroup identity

/-- `terminate_process_group_for_request`. -/
def terminateProcessGroupForRequest (thread : ℕ) : Action Unit := do
  acquire thread
  terminateUnderGuard identity
  release

/-! ### The waiter -/

/-- `waitid` with `WNOWAIT`, and the store after it. An interrupted call is made again. -/
def waitForLeaderExitWithoutReaping : Action Bool :=
  match identity.pid with
  | none => pure false
  | some _ => do
    if ← ask Input.fails then return false
    else
      if ← Prog.await (fun s => decide (s.number ≠ .running))
          fun _ s => (decide (s.number = .exited), s) then
        Prog.atomically fun _ s => (true, { s with leaderExitObserved := true })
      else return false

/-- The result of `try_wait`. -/
inductive TryWait where
  | running
  | reaped
  | failed
  deriving DecidableEq

/-- `child.try_wait()`: an exited leader is reaped, and the status of a reaped one is kept. -/
def tryWait : Action TryWait :=
  .atomically fun input s =>
    if input.fails then (.failed, s)
    else
      match s.number with
      | .running => (.running, s)
      | .exited => (.reaped, { s with number := .free })
      | _ => (.reaped, s)

/-- `leader_reaped.store(true, _)`. -/
def publishReaped : Action Unit := .atomically fun _ s => ((), { s with leaderReaped := true })

/-- The residual ladder in the first turn of `wait_for_child_and_publish_reaped`. -/
def cleanUpUnreapedGroup (cleanupUnreapedGroup : Bool) : Action Unit :=
  if cleanupUnreapedGroup then terminateUnreapedProcessGroup identity else pure ()

/-- One turn of `wait_for_child_and_publish_reaped`, under the guard. -/
def reapUnderGuard (cleanupUnreapedGroup : Bool) : Action TryWait := do
  cleanUpUnreapedGroup identity cleanupUnreapedGroup
  match ← tryWait with
  | .reaped => do
    publishReaped
    return .reaped
  | .running => return .running
  | .failed => return .failed

/-- `wait_for_child_and_publish_reaped`, for a number of turns. -/
def waitForChildAndPublishReaped (thread : ℕ) : (turns : ℕ) → (cleanupUnreapedGroup : Bool) →
    Action Unit
  | 0, _ => pure ()
  | turns + 1, cleanupUnreapedGroup => do
    acquire thread
    let result ← reapUnderGuard identity cleanupUnreapedGroup
    release
    if result = .running then waitForChildAndPublishReaped thread turns false else return ()

/-- The thread that waits for the leader. -/
def waiter (thread turns : ℕ) : Action Unit := do
  let leaderExitObserved ← waitForLeaderExitWithoutReaping identity
  waitForChildAndPublishReaped identity thread turns leaderExitObserved

/-! ### Threads -/

/-- The leader exits. -/
def exits : Action Unit :=
  .await (fun s => decide (s.number = .running)) fun _ s => ((), { s with number := .exited })

/-- The kernel gives the number of a reaped leader to another process. -/
def reuses : Action Unit :=
  .await (fun s => decide (s.number = .free)) fun _ s => ((), { s with number := .reused })

/-- What a thread is started for. -/
inductive Job where
  | terminate
  | wait (turns : ℕ)
  | exit
  | reuse

/-- The program of a thread. -/
def program (thread : ℕ) : Job → Action Unit
  | .terminate => terminateProcessGroupForRequest identity thread
  | .wait turns => waiter identity thread turns
  | .exit => exits
  | .reuse => reuses

end Programs

/-! ### The discipline -/

/-- What the residual ladder has sent. -/
def Session.residuals (s : Session) : List Signal :=
  (s.sent.filter Sent.residual).map Sent.signal

/-- The residual ladder. -/
def residualLadder : List Signal := [.sighup, .sigterm, .sigkill]

/-- The targets that a session has. -/
def Target.Own (identity : Identity) : Target → Prop
  | .group pgid => identity.processGroupId = some pgid ∧ 1 < pgid
  | .process pid => identity.pid = some pid
  | .killer => True

/-- A signal was sent to a target of the session while the number named the leader, and only to an
exited one by the residual ladder. -/
structure Sent.Safe (identity : Identity) (m : Sent) : Prop where
  own : m.target.Own identity
  leader : m.number.rank ≤ 1
  residual : m.residual = true → m.number = .exited

/-- The invariant. -/
structure Inv (identity : Identity) (s : Session) : Prop where
  observed : s.leaderExitObserved = true → 1 ≤ s.number.rank
  reaped : s.leaderReaped = true → 2 ≤ s.number.rank
  published : s.child = none → 2 ≤ s.number.rank → s.leaderReaped = true
  sent : ∀ m ∈ s.sent, m.Safe identity
  ladder : s.residuals <+: residualLadder
  idle : s.unreapedCleanupStarted = false → s.residuals = []

/-- What others do to a session: its number goes on, and while thread `i` holds the lock they neither
reap the leader nor send a residual signal. -/
structure Rely (i : ℕ) (s s' : Session) : Prop where
  number : s.number.rank ≤ s'.number.rank
  observed : s.leaderExitObserved = true → s'.leaderExitObserved = true
  child : s.child = some i → s'.child = some i
  anchored : s.child = some i → s.number.rank ≤ 1 → s'.number.rank ≤ 1
  reaped : s.child = some i → s'.leaderReaped = s.leaderReaped
  started : s.child = some i → s'.unreapedCleanupStarted = s.unreapedCleanupStarted
  residuals : s.child = some i → s'.residuals = s.residuals

/-- The discipline of the threads of a session. -/
def discipline (identity : Identity) : Discipline Session where
  Inv := Inv identity
  Rely := Rely
  refl _ _ := ⟨le_rfl, id, id, fun _ h => h, fun _ => rfl, fun _ => rfl, fun _ => rfl⟩
  trans i a b c h h' := by
    refine ⟨h.number.trans h'.number, fun ho => h'.observed (h.observed ho),
      fun hc => h'.child (h.child hc), fun hc hn => h'.anchored (h.child hc) (h.anchored hc hn),
      fun hc => ?_, fun hc => ?_, fun hc => ?_⟩
    · exact (h'.reaped (h.child hc)).trans (h.reaped hc)
    · exact (h'.started (h.child hc)).trans (h.started hc)
    · exact (h'.residuals (h.child hc)).trans (h.residuals hc)

variable {identity : Identity} {thread : ℕ} {s s' : Session}

/-! ### What a thread knows -/

/-- The thread holds the lock `child`; if the leader is reaped, that is published. -/
structure Held (thread : ℕ) (s : Session) : Prop where
  child : s.child = some thread
  published : 2 ≤ s.number.rank → s.leaderReaped = true

/-- The thread holds the lock, and the number names the leader. -/
structure Anchored (thread : ℕ) (s : Session) : Prop where
  child : s.child = some thread
  leader : s.number.rank ≤ 1

/-- The thread holds the lock of an exited leader. -/
structure Orphaned (thread : ℕ) (s : Session) : Prop where
  child : s.child = some thread
  leader : s.number = .exited

/-- The thread holds the lock of an exited leader, and has started the residual ladder: this is what it
has sent. -/
structure Cleaning (thread : ℕ) (sent : List Signal) (s : Session) : Prop where
  orphaned : Orphaned thread s
  started : s.unreapedCleanupStarted = true
  residuals : s.residuals = sent

/-- The exit of the leader was seen. -/
def Seen (s : Session) : Prop := 1 ≤ s.number.rank

theorem Number.eq_exited {number : Number} (h : 1 ≤ number.rank) (h' : number.rank ≤ 1) :
    number = .exited := by
  cases number <;> simp [Number.rank] at h h' ⊢

theorem Held.stable : Stable (discipline identity) thread (Held thread) := by
  intro s s' h hrely
  refine ⟨hrely.child h.child, fun hrank => (hrely.reaped h.child).trans (h.published ?_)⟩
  by_contra hlt
  have := hrely.anchored h.child (by omega)
  omega

theorem Anchored.stable : Stable (discipline identity) thread (Anchored thread) :=
  fun _ _ h hrely => ⟨hrely.child h.child, hrely.anchored h.child h.leader⟩

theorem Orphaned.anchored (h : Orphaned thread s) : Anchored thread s :=
  ⟨h.child, by rw [h.leader]; exact le_rfl⟩

theorem Orphaned.stable : Stable (discipline identity) thread (Orphaned thread) := by
  intro s s' h hrely
  have hanchored := hrely.anchored h.child h.anchored.leader
  have hnumber := hrely.number
  rw [h.leader] at hnumber
  exact ⟨hrely.child h.child, Number.eq_exited hnumber hanchored⟩

theorem Cleaning.stable (sent : List Signal) :
    Stable (discipline identity) thread (Cleaning thread sent) := by
  intro s s' h hrely
  refine ⟨Orphaned.stable s s' h.orphaned hrely, ?_, ?_⟩
  · exact (hrely.started h.orphaned.child).trans h.started
  · exact (hrely.residuals h.orphaned.child).trans h.residuals

theorem Seen.stable : Stable (discipline identity) thread Seen :=
  fun _ _ h hrely => le_trans h hrely.number

theorem Anchored.held (h : Anchored thread s) : Held thread s := by
  refine ⟨h.child, fun hrank => ?_⟩
  have := h.leader
  omega

theorem stable_true : Stable (discipline identity) thread fun _ => True := fun _ _ _ _ => trivial

/-- A look under the lock tells whether the number still names the leader. -/
theorem Held.anchored (h : Held thread s) (hreaped : s.leaderReaped = false) :
    Anchored thread s := by
  refine ⟨h.child, ?_⟩
  by_contra hrank
  rw [h.published (by omega)] at hreaped
  cases hreaped

/-! ### What an action keeps -/

/-- What the holder of the lock does is in the rely of the others, as far as the number and the observed
exit only go on. -/
theorem rely_of_child (hchild : s.child = some thread) (hnumber : s.number.rank ≤ s'.number.rank)
    (hobserved : s.leaderExitObserved = true → s'.leaderExitObserved = true) {other : ℕ}
    (hother : other ≠ thread) : Rely other s s' := by
  have hne : s.child ≠ some other := fun h => hother (Option.some.inj (h.symm.trans hchild))
  exact ⟨hnumber, hobserved, fun h => absurd h hne, fun h => absurd h hne, fun h => absurd h hne,
    fun h => absurd h hne, fun h => absurd h hne⟩

section Rules

variable {α : Type} {P : Session → Prop} {Q : α → Session → Prop}

/-- An action under the lock. -/
theorem triple_held {f : Input → Session → α × Session}
    (hp : Stable (discipline identity) thread P)
    (hq : ∀ a, Stable (discipline identity) thread (Q a))
    (hheld : ∀ s, P s → s.child = some thread)
    (h : ∀ s input, Inv identity s → P s → Inv identity (f input s).2 ∧
      (s.number.rank ≤ (f input s).2.number.rank ∧
        (s.leaderExitObserved = true → (f input s).2.leaderExitObserved = true)) ∧
      Q (f input s).1 (f input s).2) :
    Triple (discipline identity) thread P (.atomically f) Q := by
  refine triple_atomically hp hq fun s input hinv hs => ?_
  obtain ⟨hinv', ⟨hnumber, hobserved⟩, hpost⟩ := h s input hinv hs
  exact ⟨hinv', fun other hother => rely_of_child (hheld s hs) hnumber hobserved hother, hpost⟩

/-- A look that changes nothing. -/
theorem triple_look {f : Session → α} (hp : Stable (discipline identity) thread P)
    (hq : ∀ a, Stable (discipline identity) thread (Q a))
    (h : ∀ s, Inv identity s → P s → Q (f s) s) :
    Triple (discipline identity) thread P (look f) Q :=
  triple_atomically hp hq fun s _ hinv hs =>
    ⟨hinv, fun _ _ => (discipline identity).refl _ _, h s hinv hs⟩

/-- A question that changes nothing. -/
theorem triple_ask {f : Input → α} (hp : Stable (discipline identity) thread P) :
    Triple (discipline identity) thread P (ask f) fun _ => P :=
  triple_atomically hp (fun _ => hp) fun _ _ hinv hs =>
    ⟨hinv, fun _ _ => (discipline identity).refl _ _, hs⟩

/-- A look after which nothing more is known. -/
theorem triple_glance {f : Session → α} (hp : Stable (discipline identity) thread P) :
    Triple (discipline identity) thread P (look f) fun _ => P :=
  triple_look hp (fun _ => hp) fun _ _ hs => hs

end Rules

theorem triple_done {P : Session → Prop} {α : Type} {a : α}
    (hp : Stable (discipline identity) thread P) :
    Triple (discipline identity) thread P (pure a : Action α) fun _ => P :=
  triple_ret hp fun _ _ hs => hs

theorem triple_acquire {P : Session → Prop} (hp : Stable (discipline identity) thread P)
    (hlock : ∀ s : Session, P s → P { s with child := some thread }) :
    Triple (discipline identity) thread P (acquire thread) fun _ s => Held thread s ∧ P s := by
  refine triple_await hp (fun _ => Held.stable.and hp) fun s input hinv hs hfree => ?_
  have hfree : s.child = none := Option.isNone_iff_eq_none.mp hfree
  refine ⟨⟨hinv.observed, hinv.reaped, fun h => absurd h (Option.some_ne_none _), hinv.sent,
    hinv.ladder, hinv.idle⟩, fun other hother => ?_, ⟨rfl, hinv.published hfree⟩, hlock s hs⟩
  have hne : s.child ≠ some other := by rw [hfree]; exact (Option.some_ne_none _).symm
  exact ⟨le_rfl, id, fun h => absurd h hne, fun h => absurd h hne, fun h => absurd h hne,
    fun h => absurd h hne, fun h => absurd h hne⟩

theorem triple_release : Triple (discipline identity) thread (Held thread) release
    fun _ _ => True := by
  refine triple_held Held.stable (fun _ => stable_true) (fun s h => h.child)
    fun s input hinv hs => ?_
  exact ⟨⟨hinv.observed, hinv.reaped, fun _ => hs.published, hinv.sent, hinv.ladder, hinv.idle⟩,
    ⟨le_rfl, id⟩, trivial⟩

/-! ### Signals -/

theorem residuals_append (s : Session) (m : Sent) :
    Session.residuals { s with sent := s.sent ++ [m] } =
      s.residuals ++ if m.residual then [m.signal] else [] := by
  simp only [Session.residuals, List.filter_append, List.map_append]
  cases hresidual : m.residual <;> simp [hresidual]

/-- A safe signal keeps the invariant, if what the residual ladder has sent stays a part of it. -/
theorem Inv.send (h : Inv identity s) {m : Sent} (hm : m.Safe identity)
    (hladder : Session.residuals { s with sent := s.sent ++ [m] } <+: residualLadder)
    (hstarted : m.residual = true → s.unreapedCleanupStarted = true) :
    Inv identity { s with sent := s.sent ++ [m] } where
  observed := h.observed
  reaped := h.reaped
  published := h.published
  sent m' hmem := by
    rcases List.mem_append.mp hmem with hmem | hmem
    · exact h.sent m' hmem
    · rwa [List.mem_singleton.mp hmem]
  ladder := hladder
  idle hidle := by
    cases hresidual : m.residual with
    | true =>
      rw [hstarted hresidual] at hidle
      cases hidle
    | false =>
      rw [residuals_append, hresidual, h.idle hidle]
      rfl

theorem triple_send (target : Target) (hown : target.Own identity) (signal : Signal) :
    Triple (discipline identity) thread (Anchored thread) (send target signal false)
      fun _ => Anchored thread := by
  refine triple_held Anchored.stable (fun _ => Anchored.stable) (fun s h => h.child)
    fun s input hinv hs => ?_
  have hnot : ¬false = true := Bool.false_ne_true
  refine ⟨hinv.send ⟨hown, hs.leader, fun h => absurd h hnot⟩ ?_ fun h => absurd h hnot,
    ⟨le_rfl, id⟩, ⟨hs.child, hs.leader⟩⟩
  rw [residuals_append]
  simpa using hinv.ladder

theorem triple_sendResidual (target : Target) (hown : target.Own identity) {signal : Signal}
    {sent : List Signal} (hladder : sent ++ [signal] <+: residualLadder) :
    Triple (discipline identity) thread (Cleaning thread sent) (send target signal true)
      fun _ => Cleaning thread (sent ++ [signal]) := by
  refine triple_held (Cleaning.stable sent) (fun _ => Cleaning.stable _)
    (fun s h => h.orphaned.child) fun s input hinv hs => ?_
  have hresiduals :
      Session.residuals { s with sent := s.sent ++ [⟨target, signal, true, s.number⟩] } =
        sent ++ [signal] := by
    rw [residuals_append, hs.residuals]
    rfl
  refine ⟨hinv.send ⟨hown, hs.orphaned.anchored.leader, fun _ => hs.orphaned.leader⟩ ?_
    fun _ => hs.started, ⟨le_rfl, id⟩, ⟨hs.orphaned.child, hs.orphaned.leader⟩, hs.started,
    hresiduals⟩
  rw [hresiduals]
  exact hladder

theorem pgid_own {pgid : ℤ} (h : identity.pgid = some pgid) :
    (Target.group pgid).Own identity := by
  unfold Identity.pgid at h
  obtain ⟨hsome, hlt⟩ := Option.filter_eq_some_iff.mp h
  exact ⟨hsome, of_decide_eq_true hlt⟩

theorem triple_verifiedSessionProcessGroupId {P : Session → Prop}
    (hp : Stable (discipline identity) thread P) :
    Triple (discipline identity) thread P (verifiedSessionProcessGroupId identity)
      fun result s => (∀ pgid, result = some pgid → identity.pgid = some pgid) ∧ P s := by
  have hnone {pgid : ℤ} : some pgid ≠ none := Option.some_ne_none pgid
  unfold verifiedSessionProcessGroupId
  cases hpgid : identity.pgid with
  | none => exact triple_ret (stable_pure hp) fun s _ hs => ⟨fun _ h => absurd h.symm hnone, hs⟩
  | some pgid =>
    refine triple_bind (R := fun _ => P) ?_ fun owns => ?_
    · unfold processGroupStillOwnsChild
      cases identity.pid with
      | none => exact triple_done hp
      | some pid => exact triple_ask hp
    · cases owns with
      | true => exact triple_ret (stable_pure hp) fun s _ hs => ⟨fun _ h => h, hs⟩
      | false =>
        exact triple_ret (stable_pure hp) fun s _ hs => ⟨fun _ h => absurd h.symm hnone, hs⟩

theorem triple_signalProcessGroup (signal : Signal) :
    Triple (discipline identity) thread (Anchored thread) (signalProcessGroup identity signal)
      fun _ => Anchored thread := by
  refine triple_bind (R := fun _ => Anchored thread) ?_ fun done => ?_
  · refine triple_bind (triple_verifiedSessionProcessGroupId Anchored.stable) fun result => ?_
    cases result with
    | none => exact triple_pure fun _ => triple_done Anchored.stable
    | some pgid =>
      refine triple_pure fun hpgid => ?_
      exact triple_bind (triple_send (.group pgid) (pgid_own (hpgid pgid rfl)) signal) fun rc =>
        triple_done Anchored.stable
  · cases done with
    | true => exact triple_done Anchored.stable
    | false =>
      change Triple _ _ _ (signalLeader identity signal) _
      unfold signalLeader
      split_ifs with hsignal
      · exact triple_bind (triple_send .killer trivial signal) fun _ => triple_done Anchored.stable
      · cases hpid : identity.pid with
        | none => exact triple_done Anchored.stable
        | some pid =>
          exact triple_bind (triple_send (.process pid) hpid signal) fun _ => triple_done Anchored.stable

/-! ### Waits -/

section Waits

variable {P : Session → Prop}

theorem stable_seen {c : Prop} (hp : Stable (discipline identity) thread P) :
    Stable (discipline identity) thread fun s => (c → Seen s) ∧ P s :=
  Stable.and (fun s s' h hrely hc => Seen.stable s s' (h hc) hrely) hp

/-- A look at `leader_exit_observed`. -/
theorem triple_lookObserved (hp : Stable (discipline identity) thread P) :
    Triple (discipline identity) thread P (look fun s => s.leaderExitObserved)
      fun observed s => (observed = true → Seen s) ∧ P s :=
  triple_look hp (fun _ => stable_seen hp) fun _ hinv hs => ⟨hinv.observed, hs⟩

theorem triple_leaderObservedOrTimedOut (hp : Stable (discipline identity) thread P) :
    Triple (discipline identity) thread P leaderObservedOrTimedOut
      fun result s => (result = .leaderObserved → Seen s) ∧ P s := by
  refine triple_look hp (fun _ => stable_seen hp) fun s hinv hs => ⟨fun hresult => ?_, hs⟩
  apply hinv.observed
  by_contra hnot
  rw [if_neg hnot] at hresult
  cases hresult

theorem triple_groupWaitRounds (hp : Stable (discipline identity) thread P) (rounds : ℕ) :
    Triple (discipline identity) thread P (groupWaitRounds rounds)
      fun result s => (result = .leaderObserved → Seen s) ∧ P s := by
  induction rounds with
  | zero => exact triple_leaderObservedOrTimedOut hp
  | succ rounds ih =>
    refine triple_bind (triple_lookObserved hp) fun observed => ?_
    cases observed with
    | true => exact triple_ret (stable_seen hp) fun s _ hs => ⟨fun _ => hs.1 rfl, hs.2⟩
    | false =>
      refine triple_bind ((triple_ask hp).weaken fun _ hs => hs.2) fun gone => ?_
      cases gone with
      | true =>
        refine triple_ret (stable_seen hp) fun s _ hs => ⟨fun h => ?_, hs⟩
        cases h
      | false => exact ih

theorem triple_waitForProcessGroupExitOrLeaderObserved
    (hp : Stable (discipline identity) thread P) :
    Triple (discipline identity) thread P (waitForProcessGroupExitOrLeaderObserved identity)
      fun result s => (result = .leaderObserved → Seen s) ∧ P s := by
  refine triple_bind (triple_lookObserved hp) fun observed => ?_
  cases observed with
  | true => exact triple_ret (stable_seen hp) fun s _ hs => ⟨fun _ => hs.1 rfl, hs.2⟩
  | false =>
    refine triple_bind ((triple_verifiedSessionProcessGroupId hp).weaken fun _ hs => hs.2)
      fun result => ?_
    cases result with
    | none => exact triple_pure fun _ => triple_leaderObservedOrTimedOut hp
    | some pgid =>
      refine triple_pure fun _ => ?_
      exact triple_bind (triple_ask hp) fun rounds => triple_groupWaitRounds hp rounds

theorem triple_observedRounds (hp : Stable (discipline identity) thread P) (rounds : ℕ) :
    Triple (discipline identity) thread P (observedRounds rounds)
      fun observed s => (observed = true → Seen s) ∧ P s := by
  induction rounds with
  | zero => exact triple_lookObserved hp
  | succ rounds ih =>
    refine triple_bind (triple_lookObserved hp) fun observed => ?_
    cases observed with
    | true => exact triple_ret (stable_seen hp) fun s _ hs => ⟨fun _ => hs.1 rfl, hs.2⟩
    | false => exact ih.weaken fun _ hs => hs.2

theorem triple_waitForLeaderExitObserved (hp : Stable (discipline identity) thread P) :
    Triple (discipline identity) thread P waitForLeaderExitObserved
      fun observed s => (observed = true → Seen s) ∧ P s :=
  triple_bind (triple_ask hp) fun rounds => triple_observedRounds hp rounds

end Waits

/-! ### Ladders -/

theorem triple_residualLadder :
    Triple (discipline identity) thread (Cleaning thread [])
      (do signalUnreapedProcessGroup identity .sighup
          signalUnreapedProcessGroup identity .sigterm
          signalUnreapedProcessGroup identity .sigkill)
      fun _ => Anchored thread := by
  unfold signalUnreapedProcessGroup
  cases hpgid : identity.pgid with
  | none =>
    have hnext : Triple (discipline identity) thread (Cleaning thread []) (pure () : Action Unit)
        fun _ => Cleaning thread [] := triple_done (Cleaning.stable [])
    exact triple_bind hnext fun _ => triple_bind hnext fun _ =>
      hnext.mono fun _ _ hs => hs.orphaned.anchored
  | some pgid =>
    have hsend (signal : Signal) (sent : List Signal) (hladder : sent ++ [signal] <+: residualLadder) :
        Triple (discipline identity) thread (Cleaning thread sent)
          (do let _ ← send (.group pgid) signal true) fun _ => Cleaning thread (sent ++ [signal]) :=
      triple_bind (triple_sendResidual (.group pgid) (pgid_own hpgid) hladder) fun _ =>
        triple_done (Cleaning.stable _)
    refine triple_bind (hsend .sighup [] (by decide)) fun _ => ?_
    refine triple_bind (hsend .sigterm [.sighup] (by decide)) fun _ => ?_
    exact (hsend .sigkill [.sighup, .sigterm] (by decide)).mono fun _ _ hs => hs.orphaned.anchored

/-- The swap of `unreaped_cleanup_started` starts the residual ladder for one thread. -/
theorem triple_startUnreapedCleanup :
    Triple (discipline identity) thread (Orphaned thread) startUnreapedCleanup
      fun started s => Orphaned thread s ∧ (started = false → Cleaning thread [] s) := by
  have hstable (started : Bool) : Stable (discipline identity) thread fun s =>
      Orphaned thread s ∧ (started = false → Cleaning thread [] s) :=
    Orphaned.stable.and fun s s' h hrely hstarted => Cleaning.stable [] s s' (h hstarted) hrely
  refine triple_held Orphaned.stable hstable (fun s h => h.child) fun s input hinv hs => ?_
  have horphaned : Orphaned thread { s with unreapedCleanupStarted := true } := ⟨hs.child, hs.leader⟩
  refine ⟨⟨hinv.observed, hinv.reaped, hinv.published, hinv.sent, hinv.ladder, fun h => ?_⟩,
    ⟨le_rfl, id⟩, horphaned, fun h => ⟨horphaned, rfl, hinv.idle h⟩⟩
  cases h

/-- The residual ladder is only started for an exited leader, and does not give up the number. -/
theorem triple_terminateUnreapedProcessGroup :
    Triple (discipline identity) thread (fun s => Seen s ∧ Held thread s)
      (terminateUnreapedProcessGroup identity) fun _ => Held thread := by
  have hstable (reaped : Bool) : Stable (discipline identity) thread fun s =>
      Held thread s ∧ (reaped = false → Orphaned thread s) :=
    Held.stable.and fun s s' h hrely hreaped => Orphaned.stable s s' (h hreaped) hrely
  refine triple_bind (triple_look (Seen.stable.and Held.stable) hstable fun s _ hs =>
    ⟨hs.2, fun hreaped => ⟨hs.2.child, ?_⟩⟩) fun reaped => ?_
  · exact Number.eq_exited hs.1 (hs.2.anchored hreaped).leader
  · cases reaped with
    | true => exact (triple_done Held.stable).weaken fun _ hs => hs.1
    | false =>
      refine triple_bind (triple_startUnreapedCleanup.weaken fun _ hs => hs.2 rfl) fun started => ?_
      cases started with
      | true => exact (triple_done Held.stable).weaken fun _ hs => hs.1.anchored.held
      | false =>
        exact (triple_residualLadder.weaken fun _ hs => hs.2 rfl).mono fun _ _ hs => hs.held

theorem triple_rung (signal : Signal) {rest : Action Unit}
    (hrest : Triple (discipline identity) thread (Anchored thread) rest fun _ => Held thread) :
    Triple (discipline identity) thread (Anchored thread) (rung identity signal rest)
      fun _ => Held thread := by
  refine triple_bind (triple_signalProcessGroup signal) fun _ => ?_
  refine triple_bind (triple_waitForProcessGroupExitOrLeaderObserved Anchored.stable)
    fun result => ?_
  cases result with
  | exited => exact (triple_done Held.stable).weaken fun _ hs => hs.2.held
  | leaderObserved =>
    exact triple_terminateUnreapedProcessGroup.weaken fun _ hs => ⟨hs.1 rfl, hs.2.held⟩
  | timedOut => exact hrest.weaken fun _ hs => hs.2

theorem triple_terminateVerifiedProcessGroupForRequest :
    Triple (discipline identity) thread (Anchored thread)
      (terminateVerifiedProcessGroupForRequest identity) fun _ => Held thread :=
  triple_rung .sighup <| triple_rung .sigterm <| triple_rung .sigkill <|
    (triple_done Held.stable).weaken fun _ hs => hs.held

theorem triple_maybeTerminateObservedUnreapedProcessGroup :
    Triple (discipline identity) thread (Held thread)
      (maybeTerminateObservedUnreapedProcessGroup identity) fun _ => Held thread := by
  refine triple_bind (triple_waitForLeaderExitObserved Held.stable) fun observed => ?_
  cases observed with
  | false => exact (triple_done Held.stable).weaken fun _ hs => hs.2
  | true =>
    refine triple_bind (triple_glance (stable_seen Held.stable)) fun reaped => ?_
    cases reaped with
    | true => exact (triple_done Held.stable).weaken fun _ hs => hs.2
    | false => exact triple_terminateUnreapedProcessGroup.weaken fun _ hs => ⟨hs.1 rfl, hs.2⟩

theorem triple_terminateUnderGuard :
    Triple (discipline identity) thread (Held thread) (terminateUnderGuard identity)
      fun _ => Held thread := by
  have hstable (reaped : Bool) : Stable (discipline identity) thread fun s =>
      Held thread s ∧ (reaped = false → Anchored thread s) :=
    Held.stable.and fun s s' h hrely hreaped => Anchored.stable s s' (h hreaped) hrely
  refine triple_bind (triple_look Held.stable hstable fun s _ hs => ⟨hs, hs.anchored⟩)
    fun reaped => ?_
  cases reaped with
  | true => exact (triple_done Held.stable).weaken fun _ hs => hs.1
  | false =>
    refine triple_bind ((triple_lookObserved Anchored.stable).weaken fun _ hs => hs.2 rfl)
      fun observed => ?_
    cases observed with
    | true => exact triple_terminateUnreapedProcessGroup.weaken fun _ hs => ⟨hs.1 rfl, hs.2.held⟩
    | false =>
      refine triple_bind (triple_terminateVerifiedProcessGroupForRequest.weaken fun _ hs => hs.2)
        fun _ => ?_
      exact triple_maybeTerminateObservedUnreapedProcessGroup

theorem triple_terminateProcessGroupForRequest :
    Triple (discipline identity) thread (fun _ => True)
      (terminateProcessGroupForRequest identity thread) fun _ _ => True := by
  refine triple_bind (triple_acquire stable_true fun _ _ => trivial) fun _ => ?_
  refine triple_bind (triple_terminateUnderGuard.weaken fun _ hs => hs.1) fun _ => ?_
  exact triple_release

/-! ### The waiter -/

theorem triple_waitForLeaderExitWithoutReaping :
    Triple (discipline identity) thread (fun _ => True) (waitForLeaderExitWithoutReaping identity)
      fun observed s => observed = true → Seen s := by
  have hseen (c : Prop) : Stable (discipline identity) thread fun s => c → Seen s :=
    fun s s' h hrely hc => Seen.stable s s' (h hc) hrely
  unfold waitForLeaderExitWithoutReaping
  cases identity.pid with
  | none =>
    refine triple_ret (hseen _) fun _ _ _ h => ?_
    cases h
  | some pid =>
    refine triple_bind (triple_ask stable_true) fun fails => ?_
    cases fails with
    | true =>
      refine triple_ret (hseen _) fun _ _ _ h => ?_
      cases h
    | false =>
      refine triple_bind (R := fun exited s => exited = true → Seen s) ?_ fun exited => ?_
      · refine triple_await stable_true (fun _ => hseen _) fun s input hinv _ henabled => ?_
        refine ⟨hinv, fun other _ => (discipline identity).refl other s, fun hexited => ?_⟩
        have hnumber : s.number = .exited := of_decide_eq_true hexited
        rw [Seen, hnumber]
        exact le_rfl
      · cases exited with
        | false =>
          refine triple_ret (hseen _) fun _ _ _ h => ?_
          cases h
        | true =>
          refine triple_atomically (hseen _) (fun _ => hseen _) fun s input hinv hs => ?_
          refine ⟨⟨fun _ => hs rfl, hinv.reaped, hinv.published, hinv.sent, hinv.ladder,
            hinv.idle⟩, fun other _ => ?_, fun _ => hs rfl⟩
          exact ⟨le_rfl, fun _ => rfl, id, fun _ h => h, fun _ => rfl, fun _ => rfl, fun _ => rfl⟩

/-- After `try_wait`, under the lock: a leader that is said to be reaped is. -/
structure Waited (thread : ℕ) (result : TryWait) (s : Session) : Prop where
  child : s.child = some thread
  reaped : result = .reaped → 2 ≤ s.number.rank
  kept : result ≠ .reaped → Held thread s

theorem Waited.stable (result : TryWait) :
    Stable (discipline identity) thread (Waited thread result) := by
  intro s s' h hrely
  exact ⟨hrely.child h.child, fun hr => (h.reaped hr).trans hrely.number,
    fun hr => Held.stable s s' (h.kept hr) hrely⟩

theorem triple_tryWait :
    Triple (discipline identity) thread (Held thread) tryWait (Waited thread) := by
  refine triple_held Held.stable Waited.stable (fun s h => h.child) fun s input hinv hs => ?_
  have hkeep (result : TryWait) (hresult : result = .reaped → 2 ≤ s.number.rank) :
      Inv identity s ∧ (s.number.rank ≤ s.number.rank ∧
        (s.leaderExitObserved = true → s.leaderExitObserved = true)) ∧ Waited thread result s :=
    ⟨hinv, ⟨le_rfl, id⟩, hs.child, hresult, fun _ => hs⟩
  split_ifs with hfails
  · exact hkeep .failed fun h => absurd h (by decide)
  · split
    · exact hkeep .running fun h => absurd h (by decide)
    · next hnumber =>
      have hrank : s.number.rank = 1 := by rw [hnumber]; rfl
      have hreaped : s.leaderReaped ≠ true := fun h => by
        have := hinv.reaped h
        omega
      refine ⟨⟨fun _ => Nat.le_succ 1, fun h => absurd h hreaped, fun hfree => ?_, hinv.sent,
        hinv.ladder, hinv.idle⟩, ⟨?_, id⟩, hs.child, fun _ => le_rfl, fun h => absurd rfl h⟩
      · exact absurd (hs.child.symm.trans hfree) (Option.some_ne_none _)
      · rw [hrank]
        exact Nat.le_succ 1
    · next hrunning hexited =>
      refine hkeep .reaped fun _ => ?_
      by_contra hrank
      cases hnumber : s.number with
      | running => exact hrunning hnumber
      | exited => exact hexited hnumber
      | free => exact hrank (by rw [hnumber]; exact le_rfl)
      | reused => exact hrank (by rw [hnumber]; exact Nat.le_succ 2)

theorem triple_publishReaped :
    Triple (discipline identity) thread (Waited thread .reaped) publishReaped
      fun _ => Held thread := by
  refine triple_held (Waited.stable _) (fun _ => Held.stable) (fun s h => h.child)
    fun s input hinv hs => ?_
  exact ⟨⟨hinv.observed, fun _ => hs.reaped rfl, fun _ _ => rfl, hinv.sent, hinv.ladder,
    hinv.idle⟩, ⟨le_rfl, id⟩, hs.child, fun _ => rfl⟩

theorem triple_reapUnderGuard (cleanupUnreapedGroup : Bool) :
    Triple (discipline identity) thread
      (fun s => Held thread s ∧ (cleanupUnreapedGroup = true → Seen s))
      (reapUnderGuard identity cleanupUnreapedGroup) fun _ => Held thread := by
  have hclean : Triple (discipline identity) thread
      (fun s => Held thread s ∧ (cleanupUnreapedGroup = true → Seen s))
      (cleanUpUnreapedGroup identity cleanupUnreapedGroup) fun _ => Held thread := by
    unfold cleanUpUnreapedGroup
    split_ifs with hcleanup
    · exact triple_terminateUnreapedProcessGroup.weaken fun _ hs => ⟨hs.2 hcleanup, hs.1⟩
    · exact (triple_done Held.stable).weaken fun _ hs => hs.1
  refine triple_bind hclean fun _ => triple_bind triple_tryWait fun result => ?_
  cases result with
  | reaped => exact triple_bind triple_publishReaped fun _ => triple_done Held.stable
  | running => exact (triple_done Held.stable).weaken fun _ hs => hs.kept (by decide)
  | failed => exact (triple_done Held.stable).weaken fun _ hs => hs.kept (by decide)

theorem triple_waitForChildAndPublishReaped (turns : ℕ) (cleanupUnreapedGroup : Bool) :
    Triple (discipline identity) thread (fun s => cleanupUnreapedGroup = true → Seen s)
      (waitForChildAndPublishReaped identity thread turns cleanupUnreapedGroup)
      fun _ _ => True := by
  induction turns generalizing cleanupUnreapedGroup with
  | zero => exact triple_ret stable_true fun _ _ _ => trivial
  | succ turns ih =>
    have hstable : Stable (discipline identity) thread fun s =>
        cleanupUnreapedGroup = true → Seen s :=
      fun s s' h hrely hc => Seen.stable s s' (h hc) hrely
    refine triple_bind (triple_acquire hstable fun s hs => hs) fun _ => ?_
    refine triple_bind (triple_reapUnderGuard cleanupUnreapedGroup) fun result => ?_
    refine triple_bind triple_release fun _ => ?_
    split_ifs with hresult
    · exact (ih false).weaken fun _ _ h => absurd h Bool.false_ne_true
    · exact triple_done stable_true

theorem triple_waiter (turns : ℕ) :
    Triple (discipline identity) thread (fun _ => True) (waiter identity thread turns)
      fun _ _ => True :=
  triple_bind triple_waitForLeaderExitWithoutReaping fun observed =>
    triple_waitForChildAndPublishReaped turns observed

/-! ### The kernel -/

/-- A step of the kernel leaves everything but the number, and it does not reap. -/
theorem triple_kernel {enabled : Session → Bool} {number : Number}
    (h : ∀ s : Session, enabled s = true → s.number.rank ≤ number.rank ∧
      (2 ≤ number.rank ↔ 2 ≤ s.number.rank)) :
    Triple (discipline identity) thread (fun _ => True)
      (.await enabled fun _ s => ((), { s with number := number }) : Action Unit)
      fun _ _ => True := by
  refine triple_await stable_true (fun _ => stable_true) fun s input hinv _ henabled => ?_
  obtain ⟨hrank, hreaped⟩ := h s henabled
  refine ⟨⟨fun ho => (hinv.observed ho).trans hrank, fun hr => hreaped.mpr (hinv.reaped hr),
    fun hchild hr => hinv.published hchild (hreaped.mp hr), hinv.sent, hinv.ladder, hinv.idle⟩,
    fun other _ => ⟨hrank, id, id, fun _ hs => ?_, fun _ => rfl, fun _ => rfl, fun _ => rfl⟩,
    trivial⟩
  by_contra hnot
  have := hreaped.mp (Nat.lt_of_not_le hnot)
  omega

theorem triple_program (thread : ℕ) (job : Job) :
    Triple (discipline identity) thread (fun _ => True) (program identity thread job)
      fun _ _ => True := by
  cases job with
  | terminate => exact triple_terminateProcessGroupForRequest
  | wait turns => exact triple_waiter turns
  | exit =>
    refine triple_kernel fun s henabled => ?_
    rw [of_decide_eq_true henabled]
    decide
  | reuse =>
    refine triple_kernel fun s henabled => ?_
    rw [of_decide_eq_true henabled]
    decide

theorem inv_newSession : Inv identity newSession where
  observed h := absurd h Bool.false_ne_true
  reaped h := absurd h Bool.false_ne_true
  published _ h := absurd h (by decide)
  sent m hmem := absurd hmem List.not_mem_nil
  ladder := List.nil_prefix
  idle _ := rfl

/-- The session after any events. -/
abbrev after (identity : Identity) (events : List (Event Job Input)) : Session :=
  (run (program identity) newSession events).state

theorem run_keeps (identity : Identity) (events : List (Event Job Input)) :
    Inv identity (after identity events) := by
  have hidle (thread : ℕ) : Stable (discipline identity) thread fun _ => True := stable_true
  exact run_inv hidle triple_program inv_newSession (fun _ => trivial) events

/-- **Every signal reaches the leader's own group.** However the threads interleave, a signal goes to
the process group of the session, which is greater than 1, to its leader or through its killer, and is
sent before the leader is reaped. Whenever nobody holds the lock `child`, a reaped leader is published
as such. -/
theorem signals_reach_leader (identity : Identity) (events : List (Event Job Input)) :
    (∀ m ∈ (after identity events).sent, m.target.Own identity ∧
      (m.number = .running ∨ m.number = .exited)) ∧
    ((after identity events).child = none → ((after identity events).leaderReaped = true ↔
      (after identity events).number = .free ∨ (after identity events).number = .reused)) := by
  have hinv := run_keeps identity events
  have hrank (number : Number) : 2 ≤ number.rank ↔ number = .free ∨ number = .reused := by
    cases number <;> simp [Number.rank]
  refine ⟨fun m hmem => ⟨(hinv.sent m hmem).own, ?_⟩, fun hchild => ?_⟩
  · have hleader := (hinv.sent m hmem).leader
    cases hnumber : m.number <;> simp [hnumber, Number.rank] at hleader ⊢
  · rw [← hrank]
    exact ⟨hinv.reaped, hinv.published hchild⟩

/-- **The residual ladder is sent at most once**, in its order, and only to the group of a leader that
has exited. -/
theorem residual_ladder_once (identity : Identity) (events : List (Event Job Input)) :
    (after identity events).residuals <+: [.sighup, .sigterm, .sigkill] ∧
    ∀ m ∈ (after identity events).sent, m.residual = true → m.number = .exited :=
  ⟨(run_keeps identity events).ladder,
    fun m hmem => ((run_keeps identity events).sent m hmem).residual⟩

end LightTerminal.Server.Signals
