import LightTerminal.Server.StyledRevisions
import LightTerminal.Server.Targets

/-! # Revisions and reservations

The revision of a session counts the events of its terminal that may have changed the screen, as long as
the parser is not degraded (`Revised`), so that one revision is one screen (`screen_eq_of_revision`). What
was answered stays true of the session's history (`Witnessed`), and the reserved bytes are those of the
threads that hold a reservation. -/

namespace LightTerminal.Server.StyledAnswers

open LightTerminal.Data.Text LightTerminal.Library.Interleave LightTerminal.Library.Procedure
open LightTerminal.Output.NormalScreen
open LightTerminal.Server.Attach LightTerminal.Server.StyledScreen
open LightTerminal.Server.StyledRevisions

variable {Parser Screen : Type} {emulator : Emulator Parser Screen}

/-! ### Revisions -/

/-- The event may have changed the screen. -/
def modifies : TerminalEvent → Bool
  | .output chunk => !chunk.isEmpty
  | .resize _ => true

/-- The events that may have changed the screen. -/
def modifications (history : List TerminalEvent) : ℕ := history.countP modifies

/-- The revision counts the modifications. -/
def Revised (core : Core Parser Screen) : Prop :=
  core.terminalParserDegraded = false →
    core.styledScreenRevision = modifications core.history ∧ core.styledScreenRevision < 2 ^ 64

/-- An event that does not modify the screen. -/
theorem terminalScreen_of_not_modifies {event : TerminalEvent} (h : modifies event = false)
    (terminal : SnapshotState Parser Screen) :
    (terminalStep emulator terminal event).terminalScreen = terminal.terminalScreen := by
  cases event with
  | resize geometry => cases h
  | output chunk =>
    have hempty : chunk = [] := by simpa [modifies] using h
    subst hempty
    show (processTerminalScreen emulator.vt terminal.terminalScreen []
      terminal.terminalPending.pending).1 = terminal.terminalScreen
    unfold processTerminalScreen
    dsimp only
    split_ifs <;> rfl

/-- **One revision is one screen.** -/
theorem screen_eq_of_revision {history history' : List TerminalEvent} (h : history <+: history')
    (hcount : modifications history = modifications history') :
    (terminalAfter emulator history').terminalScreen =
      (terminalAfter emulator history).terminalScreen := by
  obtain ⟨more, rfl⟩ := h
  have hnone : ∀ event ∈ more, modifies event = false := by
    have hzero : more.countP modifies = 0 := by
      unfold modifications at hcount
      rw [List.countP_append] at hcount
      omega
    simpa using List.countP_eq_zero.mp hzero
  clear hcount
  induction more using List.reverseRecOn with
  | nil => rw [List.append_nil]
  | append_singleton more event ih =>
    have hlast : modifies event = false := hnone event (by simp)
    have hrest := ih fun event' hmem => hnone event' (List.mem_append_left _ hmem)
    rw [← List.append_assoc, terminalAfter_concat, terminalScreen_of_not_modifies hlast, hrest]

/-- What a step does to the history and the revision. -/
structure Grows (core core' : Core Parser Screen) : Prop where
  history : core.history <+: core'.history
  revised : Revised core → Revised core'

theorem grows_of_eq {core core' : Core Parser Screen} (hhistory : core'.history = core.history)
    (hrevision : core'.styledScreenRevision = core.styledScreenRevision)
    (hdegraded : core'.terminalParserDegraded = core.terminalParserDegraded) :
    Grows core core' := by
  refine ⟨by rw [hhistory], fun h hnot => ?_⟩
  rw [hdegraded] at hnot
  rw [hrevision, hhistory]
  exact h hnot

theorem grows_degrade (core : Core Parser Screen) : Grows core core.degrade :=
  ⟨List.prefix_rfl, fun _ hnot => (nomatch hnot)⟩

/-- The revision goes up with the modification of the screen, or the parser is degraded. -/
theorem revised_advance {core before : Core Parser Screen} (h : Revised before)
    (hdegraded : core.terminalParserDegraded = false → before.terminalParserDegraded = false)
    (hrevision : core.styledScreenRevision = before.styledScreenRevision)
    (hhistory : modifications core.history = modifications before.history + 1) :
    Revised core.advanceStyledScreenRevision := by
  unfold Core.advanceStyledScreenRevision
  split_ifs with hlt
  · intro hnot
    obtain ⟨hcount, -⟩ := h (hdegraded hnot)
    refine ⟨?_, hlt⟩
    show core.styledScreenRevision + 1 = modifications core.history
    omega
  · intro hnot
    cases hnot

theorem history_advance (core : Core Parser Screen) :
    core.advanceStyledScreenRevision.history = core.history :=
  (Core.follows_advance core).2.2.1

theorem grows_appendOutput (core : Core Parser Screen) (panics : Bool) (bytes : OutputChunk) :
    Grows core (core.appendOutput emulator panics bytes) := by
  have hhistory := (@Core.follows_appendOutput _ _ emulator core panics bytes).2.2.1
  refine ⟨by rw [hhistory]; exact List.prefix_append _ _, fun h => ?_⟩
  have hupdate := @Core.follows_update _ _ emulator { core with
    ring := Output.Ring.appendRingBytes core.ring bytes
    history := core.history ++ [.output bytes] } panics bytes
  have hrevision : (Core.updateTerminalSnapshotState emulator panics bytes { core with
      ring := Output.Ring.appendRingBytes core.ring bytes
      history := core.history ++ [.output bytes] }).styledScreenRevision =
        core.styledScreenRevision := by
    unfold Core.updateTerminalSnapshotState
    split_ifs
    · rfl
    · rfl
    · rfl
  obtain ⟨-, -, hsame, hterminal⟩ := hupdate
  unfold Core.appendOutput
  dsimp only
  split_ifs with hnew
  · refine revised_advance h (fun hnot => (hterminal hnot).1) hrevision ?_
    rw [hsame]
    simp [modifications, List.countP_append, modifies, hnew.1]
  · intro hnot
    have hempty : bytes = [] := by
      by_contra hbytes
      exact hnew ⟨hbytes, hnot⟩
    rw [hrevision, hsame]
    obtain ⟨hcount, hlt⟩ := h (hterminal hnot).1
    refine ⟨?_, hlt⟩
    simpa [modifications, List.countP_append, modifies, hempty] using hcount

theorem grows_resizeTerminalScreen (core : Core Parser Screen) (panics : Bool)
    (geometry : Geometry) : Grows core (core.resizeTerminalScreen emulator panics geometry) := by
  unfold Core.resizeTerminalScreen
  split_ifs with hdegraded hpanics
  · exact grows_of_eq rfl rfl rfl
  · exact grows_degrade core
  · refine ⟨?_, fun h => revised_advance h (fun hnot => hnot) rfl ?_⟩
    · rw [history_advance]
      exact List.prefix_append _ _
    · simp [modifications, List.countP_append, modifies]

theorem grows_initialScreenStateSnapshot (core : Core Parser Screen) (panics : Bool)
    (geometry : Geometry) :
    Grows core (core.initialScreenStateSnapshot emulator panics geometry).2 := by
  unfold Core.initialScreenStateSnapshot
  split_ifs
  · exact grows_of_eq rfl rfl rfl
  · exact grows_degrade core
  · exact grows_of_eq rfl rfl rfl

/-! ### Every action of a session -/

section Steps

variable {α : Type}

/-- All actions of a program let the history grow. -/
def Growing (p : Action Parser Screen α) : Prop :=
  Prog.Steps (fun s s' => Grows s.toCore s'.toCore) p

theorem growing_pure (a : α) : Growing (pure a : Action Parser Screen α) := trivial

theorem growing_bind {β : Type} {p : Action Parser Screen α} {f : α → Action Parser Screen β}
    (hp : Growing p) (hf : ∀ a, Growing (f a)) : Growing (p >>= f) :=
  steps_bind hf p hp

/-- An action that leaves the history, the revision and the parser. -/
theorem growing_of_eq {f : Input → Session Parser Screen → α × Session Parser Screen}
    (h : ∀ input s, (f input s).2.history = s.history ∧
      (f input s).2.styledScreenRevision = s.styledScreenRevision ∧
      (f input s).2.terminalParserDegraded = s.terminalParserDegraded) :
    Growing (Prog.atomically f) :=
  steps_atomically fun input s => grows_of_eq (h input s).1 (h input s).2.1 (h input s).2.2

theorem growing_acquire (lock : Lock) (thread : ℕ) :
    Growing (acquire lock thread : Action Parser Screen Unit) :=
  steps_await fun _ _ _ => grows_of_eq rfl rfl rfl

theorem growing_release (lock : Lock) : Growing (release lock : Action Parser Screen Unit) :=
  growing_of_eq fun _ _ => ⟨rfl, rfl, rfl⟩

theorem growing_look (f : Session Parser Screen → α) : Growing (look f) :=
  growing_of_eq fun _ _ => ⟨rfl, rfl, rfl⟩

theorem growing_onCore {f : Input → Core Parser Screen → α × Core Parser Screen}
    (h : ∀ input core, Grows core (f input core).2) : Growing (onCore f) :=
  steps_atomically fun input s => h input s.toCore

theorem growing_trySend (id : ℕ) (chunk : OutputChunk) :
    Growing (trySend id chunk : Action Parser Screen TrySend) :=
  growing_of_eq fun _ _ => ⟨rfl, rfl, rfl⟩

theorem growing_sendPass (chunk : OutputChunk) : ∀ (subscribers : List Subscriber)
    (disconnected : List ℕ) (pending : List Subscriber),
    Growing (sendPass chunk subscribers disconnected pending :
      Action Parser Screen (List ℕ × List Subscriber))
  | [], _, _ => growing_pure _
  | sub :: subscribers, disconnected, pending => growing_bind (growing_trySend sub.id chunk)
      fun result => by
        cases result with
        | ok => exact growing_sendPass chunk subscribers _ _
        | full => exact growing_sendPass chunk subscribers _ _
        | disconnected => exact growing_sendPass chunk subscribers _ _

theorem growing_retryRounds (chunk : OutputChunk) : ∀ (rounds : ℕ) (disconnected : List ℕ)
    (pending : List Subscriber), Growing (retryRounds chunk rounds disconnected pending :
      Action Parser Screen (List ℕ × List Subscriber))
  | 0, _, _ => growing_pure _
  | rounds + 1, disconnected, pending => by
    unfold retryRounds
    split_ifs
    · exact growing_pure _
    · exact growing_bind (growing_sendPass chunk _ _ _) fun _ => growing_retryRounds chunk rounds _ _

theorem growing_broadcastChunk (subscribers : List Subscriber) (chunk : OutputChunk) :
    Growing (broadcastChunk subscribers chunk : Action Parser Screen (List ℕ)) := by
  refine growing_bind (growing_sendPass chunk _ _ _) fun _ => ?_
  refine growing_bind (growing_of_eq fun _ _ => ⟨rfl, rfl, rfl⟩) fun _ => ?_
  exact growing_bind (growing_retryRounds chunk _ _ _) fun _ => growing_pure _

theorem growing_callShutdowns (thread : ℕ) : ∀ shutdowns : List ℕ,
    Growing (callShutdowns thread shutdowns : Action Parser Screen Unit)
  | [] => growing_pure _
  | _ :: shutdowns => growing_bind (growing_of_eq fun _ _ => ⟨rfl, rfl, rfl⟩)
      fun _ => growing_callShutdowns thread shutdowns

theorem growing_evict (thread : ℕ) (disconnected : List ℕ) :
    Growing (evict thread disconnected : Action Parser Screen (List ℕ)) := by
  unfold evict
  split_ifs
  · exact growing_pure _
  · refine growing_bind (growing_acquire _ _) fun _ => ?_
    refine growing_bind (growing_of_eq fun _ _ => ⟨rfl, rfl, rfl⟩) fun _ => ?_
    exact growing_bind (growing_release _) fun _ => growing_pure _

theorem growing_appendOutput (thread : ℕ) (bytes : OutputChunk) :
    Growing (appendOutput emulator thread bytes) := by
  refine growing_bind (growing_acquire _ _) fun _ => growing_bind (growing_acquire _ _) fun _ => ?_
  refine growing_bind (steps_atomically fun input s => grows_appendOutput s.toCore _ bytes)
    fun _ => ?_
  refine growing_bind (growing_look _) fun subscribers => ?_
  split_ifs
  · exact growing_bind (growing_release _) fun _ => growing_release _
  · refine growing_bind (growing_release _) fun _ => ?_
    refine growing_bind (growing_broadcastChunk _ _) fun _ => ?_
    refine growing_bind (growing_evict _ _) fun _ => ?_
    exact growing_bind (growing_release _) fun _ => growing_callShutdowns _ _

theorem growing_applyPtySizeUnderOutputGuard (thread : ℕ) (source : Source) (geometry : Geometry) :
    Growing (applyPtySizeUnderOutputGuard emulator thread source geometry) := by
  refine growing_bind (growing_onCore fun input core => ?_) fun resized => ?_
  · split_ifs
    · exact grows_of_eq rfl rfl rfl
    · exact grows_of_eq rfl rfl rfl
  · split_ifs
    · refine growing_bind (growing_onCore fun _ _ => grows_of_eq rfl rfl rfl) fun _ => ?_
      refine growing_bind (growing_onCore fun _ _ => grows_of_eq rfl rfl rfl) fun _ => ?_
      refine growing_bind (growing_onCore fun input core => ?_) fun _ => growing_pure _
      have hgrows := @grows_resizeTerminalScreen _ _ emulator core input.fails geometry
      exact ⟨hgrows.history, hgrows.revised⟩
    · exact growing_pure _

theorem growing_applyClampedPtySizeUnderOutputGuard (thread : ℕ) (source : Source) :
    Growing (applyClampedPtySizeUnderOutputGuard emulator thread source) := by
  refine growing_bind (growing_onCore fun input core => ?_) fun target => ?_
  · split
    · exact grows_of_eq rfl rfl rfl
    · exact grows_of_eq rfl rfl rfl
  · cases target with
    | none => exact growing_pure _
    | some geometry =>
      refine growing_bind (growing_onCore fun input core => ?_) fun current => ?_
      · split_ifs
        · exact grows_of_eq rfl rfl rfl
        · exact grows_of_eq rfl rfl rfl
      · split_ifs
        · exact growing_pure _
        · exact growing_applyPtySizeUnderOutputGuard thread source geometry

theorem growing_applyClampedPtySize (thread : ℕ) (source : Source) :
    Growing (applyClampedPtySize emulator thread source) := by
  refine growing_bind (growing_acquire _ _) fun _ => ?_
  refine growing_bind (growing_applyClampedPtySizeUnderOutputGuard thread source) fun _ => ?_
  exact growing_bind (growing_release _) fun _ => growing_pure _

theorem growing_applyPtySize (thread : ℕ) (geometry : Geometry) :
    Growing (applyPtySize emulator thread geometry) := by
  refine growing_bind (growing_acquire _ _) fun _ => ?_
  refine growing_bind (growing_applyPtySizeUnderOutputGuard thread _ geometry) fun _ => ?_
  exact growing_bind (growing_release _) fun _ => growing_pure _

theorem growing_removeSubscriber (id : ℕ) :
    Growing (removeSubscriber id : Action Parser Screen Unit) :=
  growing_onCore fun _ _ => grows_of_eq rfl rfl rfl

theorem growing_initialChunk (geometry : Geometry) : Growing (initialChunk emulator geometry) := by
  refine growing_bind (growing_look _) fun hasOutput => growing_bind (growing_look _) fun _ => ?_
  split_ifs
  · refine growing_bind (growing_onCore fun input core => ?_) fun _ => growing_pure _
    exact grows_initialScreenStateSnapshot core input.fails _
  · exact growing_pure _

theorem growing_subscribeLocked (thread : ℕ) (geometry formatted : Geometry)
    (chunk : Option OutputChunk) :
    Growing (subscribeLocked thread geometry formatted chunk :
      Action Parser Screen (Except AttachError ℕ)) := by
  refine growing_of_eq fun input s => ?_
  dsimp only
  split_ifs
  · exact ⟨rfl, rfl, rfl⟩
  · split
    · exact ⟨rfl, rfl, rfl⟩
    · split
      · exact ⟨rfl, rfl, rfl⟩
      · exact ⟨rfl, rfl, rfl⟩

theorem growing_subscribe (thread : ℕ) (geometry : Geometry) :
    Growing (subscribeWithSnapshotAndApplyClamp emulator thread geometry) := by
  unfold subscribeWithSnapshotAndApplyClamp
  split
  · exact growing_pure _
  · refine growing_bind (growing_acquire _ _) fun _ =>
      growing_bind (growing_acquire _ _) fun _ => ?_
    refine growing_bind ?_ fun _ => growing_bind (growing_release _) fun _ =>
      growing_bind (growing_release _) fun _ => growing_pure _
    refine growing_bind (growing_initialChunk geometry) fun _ => ?_
    refine growing_bind (growing_subscribeLocked _ _ _ _) fun joined => ?_
    cases joined with
    | error e => exact growing_pure _
    | ok id =>
      refine growing_bind (growing_applyClampedPtySizeUnderOutputGuard _ _) fun result => ?_
      cases result with
      | ok _ => exact growing_pure _
      | error e => exact growing_bind (growing_removeSubscriber id) fun _ => growing_pure _

theorem growing_unsubscribe (thread id : ℕ) : Growing (unsubscribe emulator thread id) := by
  refine growing_bind (growing_acquire _ _) fun _ => growing_bind (growing_acquire _ _) fun _ => ?_
  refine growing_bind (growing_removeSubscriber id) fun _ => ?_
  refine growing_bind (growing_release _) fun _ => ?_
  exact growing_bind (growing_applyClampedPtySize _ _) fun _ => growing_release _

theorem growing_resize (thread : ℕ) (subscriberId : Option ℕ) (geometry : Geometry) :
    Growing (resize emulator thread subscriberId geometry) := by
  unfold resize
  split
  · exact growing_pure _
  · have hend (result : Except ResizeError Unit) : Growing (do
        release .geometryApply
        return result : Action Parser Screen (Except ResizeError Unit)) :=
      growing_bind (growing_release _) fun _ => growing_pure _
    refine growing_bind (growing_acquire _ _) fun _ => ?_
    cases subscriberId with
    | none => exact growing_bind (growing_applyPtySize thread geometry) hend
    | some id =>
      refine growing_bind (growing_onCore fun input core => ?_) fun found => ?_
      · split_ifs
        · exact grows_of_eq rfl rfl rfl
        · exact grows_of_eq rfl rfl rfl
      · cases found with
        | true => exact growing_bind (growing_applyClampedPtySize _ _) hend
        | false => exact growing_bind (growing_pure _) hend

/-- **The history only grows, and the revision goes with it**, whatever a thread of a session does. -/
theorem growing_program (thread : ℕ) (job : Attach.Job) :
    Growing (Attach.program emulator thread job) := by
  cases job with
  | appendOutput bytes =>
    exact growing_bind (growing_appendOutput thread bytes) fun _ => growing_pure _
  | attach geometry =>
    exact growing_bind (growing_subscribe thread geometry) fun _ => growing_pure _
  | unsubscribe id => exact growing_bind (growing_unsubscribe thread id) fun _ => growing_pure _
  | resize subscriberId geometry =>
    exact growing_bind (growing_resize thread subscriberId geometry) fun _ => growing_pure _
  | closeSubscribers =>
    refine growing_bind (growing_bind (growing_acquire _ _) fun _ => ?_) fun _ => growing_pure _
    exact growing_bind (growing_onCore fun _ _ => grows_of_eq rfl rfl rfl) fun _ =>
      growing_release _
  | recv id => exact growing_bind (growing_of_eq fun _ _ => ⟨rfl, rfl, rfl⟩) fun _ => growing_pure _
  | dropReceiver id =>
    exact growing_bind (growing_of_eq fun _ _ => ⟨rfl, rfl, rfl⟩) fun _ => growing_pure _

end Steps

/-! ### The invariant of the daemon -/

/-- The reservations of a thread. -/
def held (thread : ℕ) (daemon : Daemon Parser Screen) : List (ℕ × ℕ) :=
  daemon.reservations.filter fun reservation => reservation.1 = thread

/-- The screen that the session had at a revision. -/
def Seen (emulator : Emulator Parser Screen) (daemon : Daemon Parser Screen) (id : Str)
    (revision : ℕ) (screen : Screen) : Prop :=
  ∃ history, history <+: (daemon.sessions id).history ∧ modifications history = revision ∧
    emulator.vt.screen (terminalAfter emulator history).terminalScreen = screen

/-- What is true of an answer. -/
def Witnessed (emulator : Emulator Parser Screen) (grid : Screen → VtScreen)
    (daemon : Daemon Parser Screen) (a : Answer Screen) : Prop :=
  match a.result with
  | .snapshot snapshot => Lossless (grid a.screen) snapshot ∧ ∃ revision, revision < 2 ^ 64 ∧
      snapshot.screenRevision = decimal revision ∧
      Seen emulator daemon snapshot.sessionId revision a.screen
  | .notModified answered => ∃ precondition revision, a.precondition = some precondition ∧
      precondition.sessionId = answered.sessionId ∧
      parseU64 precondition.screenRevision = some revision ∧
      answered.screenRevision = decimal revision ∧
      Seen emulator daemon answered.sessionId revision a.screen

/-- The invariant. -/
structure Capturing (emulator : Emulator Parser Screen) (grid : Screen → VtScreen)
    (initial : Str → Geometry) (daemon : Daemon Parser Screen) : Prop where
  sessions : ∀ id, Attach.Inv emulator (initial id) (daemon.sessions id)
  revised : ∀ id, Revised (daemon.sessions id).toCore
  bytes : daemon.styledScreenReservedBytes = (daemon.reservations.map Prod.snd).sum
  budget : daemon.styledScreenReservedBytes ≤ styledScreenDaemonBudgetBytes
  answers : ∀ a ∈ daemon.answers, Witnessed emulator grid daemon a

/-- What a thread lets the others do. -/
structure Lets (initial : Str → Geometry) (thread : ℕ) (daemon daemon' : Daemon Parser Screen) :
    Prop where
  sessions : ∀ id, Attach.Rely (initial id) thread (daemon.sessions id) (daemon'.sessions id)
  history : ∀ id, (daemon.sessions id).history <+: (daemon'.sessions id).history
  held : held thread daemon' = held thread daemon

/-- The discipline of the threads of the daemon. -/
def daemonDiscipline (emulator : Emulator Parser Screen) (grid : Screen → VtScreen)
    (initial : Str → Geometry) : Discipline (Daemon Parser Screen) where
  Inv := Capturing emulator grid initial
  Rely := Lets initial
  refl _ _ := ⟨fun _ => .refl, fun _ => List.prefix_rfl, rfl⟩
  trans _ _ _ _ h h' := ⟨fun id => (h.sessions id).trans (h'.sessions id),
    fun id => (h.history id).trans (h'.history id), h'.held.trans h.held⟩

variable {grid : Screen → VtScreen} {initial : Str → Geometry} {thread : ℕ}
  {daemon daemon' : Daemon Parser Screen} {id : Str}

theorem Seen.mono {revision : ℕ} {screen : Screen} (h : Seen emulator daemon id revision screen)
    (hgrows : (daemon.sessions id).history <+: (daemon'.sessions id).history) :
    Seen emulator daemon' id revision screen := by
  obtain ⟨history, hprefix, hcount, hscreen⟩ := h
  exact ⟨history, hprefix.trans hgrows, hcount, hscreen⟩

/-- What was seen at one revision is one screen. -/
theorem Seen.unique {revision : ℕ} {screen screen' : Screen}
    (h : Seen emulator daemon id revision screen) (h' : Seen emulator daemon id revision screen') :
    screen = screen' := by
  obtain ⟨history, hprefix, hcount, rfl⟩ := h
  obtain ⟨history', hprefix', hcount', rfl⟩ := h'
  rcases List.prefix_or_prefix_of_prefix hprefix hprefix' with hle | hle
  · rw [screen_eq_of_revision hle (hcount.trans hcount'.symm)]
  · rw [screen_eq_of_revision hle (hcount'.trans hcount.symm)]

/-- An answer stays true. -/
theorem Witnessed.mono {a : Answer Screen} (h : Witnessed emulator grid daemon a)
    (hgrows : ∀ id, (daemon.sessions id).history <+: (daemon'.sessions id).history) :
    Witnessed emulator grid daemon' a := by
  unfold Witnessed at h ⊢
  cases hresult : a.result with
  | snapshot snapshot =>
    simp only [hresult] at h ⊢
    obtain ⟨hlossless, revision, hlt, htext, hseen⟩ := h
    exact ⟨hlossless, revision, hlt, htext, hseen.mono (hgrows _)⟩
  | notModified answered =>
    simp only [hresult] at h ⊢
    obtain ⟨precondition, revision, hsome, hid, hparse, htext, hseen⟩ := h
    exact ⟨precondition, revision, hsome, hid, hparse, htext, hseen.mono (hgrows _)⟩

/-- A step that leaves the sessions. -/
theorem lets_of_sessions_eq (hsessions : daemon'.sessions = daemon.sessions)
    (hheld : held thread daemon' = held thread daemon) : Lets initial thread daemon daemon' :=
  ⟨fun id => by rw [hsessions]; exact .refl, fun id => by rw [hsessions], hheld⟩

/-- A step of a session. -/
theorem Capturing.setSession (h : Capturing emulator grid initial daemon)
    {s : Session Parser Screen} (hgrows : Grows (daemon.sessions id).toCore s.toCore)
    (hs : Attach.Inv emulator (initial id) s) :
    Capturing emulator grid initial (daemon.setSession id s) ∧
      ∀ other, (daemon.sessions other).history <+:
        ((daemon.setSession id s).sessions other).history := by
  have hhistory (other : Str) : (daemon.sessions other).history <+:
      ((daemon.setSession id s).sessions other).history := by
    by_cases heq : other = id
    · subst heq
      simp only [Daemon.setSession, Function.update_self]
      exact hgrows.history
    · simp only [Daemon.setSession, Function.update_of_ne heq]
      exact List.prefix_rfl
  refine ⟨⟨fun other => ?_, fun other => ?_, h.bytes, h.budget,
    fun a ha => (h.answers a ha).mono hhistory⟩, hhistory⟩
  · by_cases heq : other = id
    · subst heq
      simp only [Daemon.setSession, Function.update_self]
      exact hs
    · simp only [Daemon.setSession, Function.update_of_ne heq]
      exact h.sessions other
  · by_cases heq : other = id
    · subst heq
      simp only [Daemon.setSession, Function.update_self]
      exact hgrows.revised (h.revised other)
    · simp only [Daemon.setSession, Function.update_of_ne heq]
      exact h.revised other

/-- What a program on a session keeps of the daemon. -/
structure Kept (initial : Str → Geometry) (thread : ℕ) (id : Str) (F : Daemon Parser Screen → Prop) :
    Prop where
  others : ∀ daemon daemon', F daemon → Lets initial thread daemon daemon' → F daemon'
  own : ∀ daemon s, F daemon → (daemon.sessions id).history <+: s.history →
    F (daemon.setSession id s)

/-- **A program on a session** does on the daemon what it does on the session. -/
theorem triple_onSession {α : Type} {P : Session Parser Screen → Prop}
    {Q : α → Session Parser Screen → Prop} {F : Daemon Parser Screen → Prop}
    {p : Action Parser Screen α}
    (h : Triple (Attach.discipline emulator (initial id)) thread P p Q) (hgrowing : Growing p)
    (hF : Kept initial thread id F) :
    Triple (daemonDiscipline emulator grid initial) thread
      (fun daemon => P (daemon.sessions id) ∧ F daemon) (onSession id p)
      fun a daemon => Q a (daemon.sessions id) ∧ F daemon := by
  intro daemon hinv hs
  have hpart : ∀ daemon, (daemonDiscipline emulator grid initial).Inv daemon →
      (Attach.discipline emulator (initial id)).Inv (daemon.sessions id) :=
    fun _ h => h.sessions id
  have hrely : ∀ daemon daemon', (daemonDiscipline emulator grid initial).Rely thread daemon
      daemon' → (Attach.discipline emulator (initial id)).Rely thread (daemon.sessions id)
        (daemon'.sessions id) :=
    fun _ _ h => h.sessions id
  refine Safe.within
    (R := fun s s' : Session Parser Screen => Grows s.toCore s'.toCore)
    (fun s daemon => Function.update_self ..) hpart hrely hF.others ?_ p daemon hgrowing hs.2
    (h _ (hpart daemon hinv) hs.1)
  intro daemon s hinv hf hgrows hs hothers
  obtain ⟨hnext, hhistory⟩ := Capturing.setSession hinv hgrows hs
  refine ⟨hnext, fun other hne => ⟨fun id' => ?_, hhistory, rfl⟩,
    hF.own daemon s hf hgrows.history⟩
  by_cases heq : id' = id
  · subst heq
    simp only [Daemon.setSession, Function.update_self]
    exact hothers other hne
  · simp only [Daemon.setSession, Function.update_of_ne heq]
    exact .refl

/-! ### Reservations -/

/-- Under the guard of a session a thread knows what the guard protects. -/
structure Under (emulator : Emulator Parser Screen) (initial : Geometry) (thread : ℕ)
    (core : Core Parser Screen) (s : Session Parser Screen) : Prop where
  guard : OutputHeld emulator initial thread s
  history : s.history = core.history
  terminal : s.terminal = core.terminal
  revision : s.styledScreenRevision = core.styledScreenRevision
  degraded : s.terminalParserDegraded = core.terminalParserDegraded

theorem stable_under {initial : Geometry} (core : Core Parser Screen) :
    Stable (Attach.discipline emulator initial) thread (Under emulator initial thread core) :=
  stable_of_change fun _ _ _ hother hchange hs => by
    obtain ⟨subscribers, trail, hcore, -, -⟩ := hchange.output (hs.guard.output.ne hother)
    refine ⟨⟨hchange.holds hother hs.guard.output,
      hchange.agree hother hs.guard.output hs.guard.agree⟩, ?_, ?_, ?_, ?_⟩
    · rw [hcore]
      exact hs.history
    · rw [hcore]
      exact hs.terminal
    · rw [hcore]
      exact hs.revision
    · rw [hcore]
      exact hs.degraded

/-- Under the guard, with these reservations. -/
structure At (emulator : Emulator Parser Screen) (initial : Str → Geometry) (thread : ℕ) (id : Str)
    (core : Core Parser Screen) (reservations : List (ℕ × ℕ)) (daemon : Daemon Parser Screen) :
    Prop where
  under : Under emulator (initial id) thread core (daemon.sessions id)
  held : held thread daemon = reservations

variable {core : Core Parser Screen} {reservations : List (ℕ × ℕ)}

theorem stable_at : Stable (daemonDiscipline emulator grid initial) thread
    (At emulator initial thread id core reservations) :=
  fun _ _ h hlets => ⟨stable_under core _ _ h.under (hlets.sessions id), hlets.held.trans h.held⟩

theorem kept_held : Kept initial thread id fun daemon : Daemon Parser Screen =>
    held thread daemon = reservations :=
  ⟨fun _ _ h hlets => hlets.held.trans h, fun _ _ h _ => h⟩

/-- An action that leaves the sessions, and the reservations of the others. -/
theorem triple_daemon {α : Type} {P : Daemon Parser Screen → Prop}
    {Q : α → Daemon Parser Screen → Prop}
    {f : Input → Daemon Parser Screen → α × Daemon Parser Screen}
    (hp : Stable (daemonDiscipline emulator grid initial) thread P)
    (hq : ∀ a, Stable (daemonDiscipline emulator grid initial) thread (Q a))
    (h : ∀ daemon input, Capturing emulator grid initial daemon → P daemon →
      Capturing emulator grid initial (f input daemon).2 ∧
        (f input daemon).2.sessions = daemon.sessions ∧
        (∀ other, other ≠ thread → held other (f input daemon).2 = held other daemon) ∧
        Q (f input daemon).1 (f input daemon).2) :
    Triple (daemonDiscipline emulator grid initial) thread P (.atomically f) Q := by
  refine triple_atomically hp hq fun daemon input hinv hs => ?_
  obtain ⟨hnext, hsessions, hheld, hpost⟩ := h daemon input hinv hs
  exact ⟨hnext, fun other hne => lets_of_sessions_eq hsessions (hheld other hne), hpost⟩

/-- The invariant when the reservations change. -/
theorem Capturing.reserve (h : Capturing emulator grid initial daemon) {bytes : ℕ}
    {reservations : List (ℕ × ℕ)} (hbytes : bytes = (reservations.map Prod.snd).sum)
    (hbudget : bytes ≤ styledScreenDaemonBudgetBytes) :
    Capturing emulator grid initial { daemon with
      styledScreenReservedBytes := bytes
      reservations := reservations } where
  sessions := h.sessions
  revised := h.revised
  bytes := hbytes
  budget := hbudget
  answers a ha := (h.answers a ha).mono fun _ => List.prefix_rfl

/-- What a thread holds after an attempt to reserve. -/
def reserved (thread : ℕ) : Except StyledScreenError ℕ → List (ℕ × ℕ)
  | .ok bytes => [(thread, bytes)]
  | .error _ => []

theorem triple_compareExchange {current : ℕ}
    (hbudget : current + styledScreenMaxReservationBytes ≤ styledScreenDaemonBudgetBytes) :
    Triple (daemonDiscipline emulator grid initial) thread (At emulator initial thread id core [])
      (compareExchange thread current (current + styledScreenMaxReservationBytes))
      fun seen => At emulator initial thread id core
        (if seen = none then [(thread, styledScreenMaxReservationBytes)] else []) := by
  refine triple_daemon stable_at (fun _ => stable_at) fun daemon input hinv hs => ?_
  by_cases hcurrent : daemon.styledScreenReservedBytes = current
  · rw [if_pos hcurrent]
    have hsum : daemon.styledScreenReservedBytes = (daemon.reservations.map Prod.snd).sum :=
      hinv.bytes
    refine ⟨hinv.reserve ?_ hbudget, rfl, fun other hne => ?_, hs.under, ?_⟩
    · simp only [List.map_cons, List.sum_cons]
      omega
    · have hnot : ¬ thread = other := fun heq => hne heq.symm
      simp only [held, List.filter_cons, hnot, decide_false, Bool.false_eq_true, if_false]
    · have hnone : daemon.reservations.filter (fun reservation => reservation.1 = thread) = [] :=
        hs.held
      simp only [held, List.filter_cons, decide_true, if_true, hnone, Nat.add_sub_cancel_left]
  · rw [if_neg hcurrent]
    exact ⟨hinv, rfl, fun _ _ => rfl, hs⟩

theorem triple_reserveLoop (rounds current : ℕ) :
    Triple (daemonDiscipline emulator grid initial) thread (At emulator initial thread id core [])
      (reserveLoop thread rounds current)
      fun result => At emulator initial thread id core (reserved thread result) := by
  induction rounds generalizing current with
  | zero =>
    refine triple_await stable_at (fun _ => stable_at) fun _ _ _ _ hfalse => ?_
    cases hfalse
  | succ rounds ih =>
    rw [reserveLoop]
    split_ifs with hoverflow hbudget
    · exact triple_ret stable_at fun _ _ hs => hs
    · exact triple_ret stable_at fun _ _ hs => hs
    · refine triple_bind (triple_compareExchange (by omega)) fun seen => ?_
      cases seen with
      | none => exact triple_ret stable_at fun _ _ hs => hs
      | some nextCurrent => exact ih nextCurrent

theorem triple_reserveStyledScreenBytes (rows cols : ℕ) :
    Triple (daemonDiscipline emulator grid initial) thread (At emulator initial thread id core [])
      (reserveStyledScreenBytes thread rows cols)
      fun result => At emulator initial thread id core (reserved thread result) := by
  unfold reserveStyledScreenBytes
  split
  · exact triple_ret stable_at fun _ _ hs => hs
  · refine triple_bind (triple_daemon stable_at (fun _ => stable_at)
      fun daemon input hinv hs => ⟨hinv, rfl, fun _ _ => rfl, hs⟩) fun rounds => ?_
    exact triple_bind (triple_daemon stable_at (fun _ => stable_at)
      fun daemon input hinv hs => ⟨hinv, rfl, fun _ _ => rfl, hs⟩) fun current =>
        triple_reserveLoop rounds current

theorem fetchSub_eq {value bytes : ℕ} (hle : bytes ≤ value) (hlt : value < 2 ^ 64) :
    fetchSub value bytes = value - bytes := by
  unfold fetchSub
  omega

theorem triple_dropReservation (bytes : ℕ) :
    Triple (daemonDiscipline emulator grid initial) thread
      (fun daemon => held thread daemon = [(thread, bytes)])
      (dropReservation thread (some bytes)) fun _ daemon => held thread daemon = [] := by
  refine triple_daemon (fun _ _ h hlets => hlets.held.trans h)
    (fun _ _ _ h hlets => hlets.held.trans h) fun daemon input hinv hs => ?_
  have hin : (thread, bytes) ∈ held thread daemon := by
    rw [hs]
    exact List.mem_singleton_self _
  obtain ⟨own, front, back, hfront, hown, hsplit, herase⟩ :=
    List.exists_of_eraseP (p := fun reservation : ℕ × ℕ => decide (reservation.1 = thread))
      (List.mem_filter.mp hin).1 (List.mem_filter.mp hin).2
  have hnone : front.filter (fun reservation => reservation.1 = thread) = [] :=
    List.filter_eq_nil_iff.mpr hfront
  have hrest : own = (thread, bytes) ∧
      back.filter (fun reservation => reservation.1 = thread) = [] := by
    rw [held, hsplit, List.filter_append, hnone, List.filter_cons, if_pos hown] at hs
    exact List.cons.inj hs
  obtain ⟨rfl, hback⟩ := hrest
  have htotal := hinv.bytes
  have hbudget := hinv.budget
  have hsum : (daemon.reservations.map Prod.snd).sum =
      ((front ++ back).map Prod.snd).sum + bytes := by
    rw [hsplit]
    simp only [List.map_append, List.map_cons, List.sum_append, List.sum_cons]
    omega
  have hwrap : fetchSub daemon.styledScreenReservedBytes bytes =
      daemon.styledScreenReservedBytes - bytes := by
    refine fetchSub_eq (by omega) ?_
    unfold styledScreenDaemonBudgetBytes at hbudget
    omega
  rw [hwrap, herase]
  refine ⟨hinv.reserve (by omega) (by omega), rfl, fun other hne => ?_, ?_⟩
  · have hnot : ¬ decide (thread = other) = true := by simpa using hne.symm
    show (front ++ back).filter (fun reservation => reservation.1 = other) =
      daemon.reservations.filter fun reservation => reservation.1 = other
    rw [hsplit, List.filter_append, List.filter_append, List.filter_cons, if_neg hnot]
  · show (front ++ back).filter (fun reservation => reservation.1 = thread) = []
    rw [List.filter_append, hnone, hback, List.append_nil]

/-! ### Captures -/

/-- What the guard protects is settled: the screen is that of the history, at its revision. -/
structure Settled (emulator : Emulator Parser Screen) (core : Core Parser Screen) : Prop where
  terminal : core.terminalParserDegraded = false →
    core.terminal = terminalAfter emulator core.history
  revised : Revised core

/-- The screen under the guard is seen at the revision. -/
theorem At.seen (h : At emulator initial thread id core reservations daemon)
    (hsettled : Settled emulator core) (hdegraded : core.terminalParserDegraded = false) :
    Seen emulator daemon id core.styledScreenRevision
      (sessionScreen emulator (daemon.sessions id)) := by
  refine ⟨core.history, ?_, (hsettled.revised hdegraded).1.symm, ?_⟩
  · rw [h.under.history]
  · unfold sessionScreen
    rw [h.under.terminal, hsettled.terminal hdegraded]

/-- A look under the guard. -/
theorem triple_lookAt {α : Type} {f : Session Parser Screen → α} {a : α}
    (hf : ∀ s, Under emulator (initial id) thread core s → f s = a) :
    Triple (daemonDiscipline emulator grid initial) thread
      (At emulator initial thread id core reservations) (onSession id (look f))
      fun b daemon => b = a ∧ At emulator initial thread id core reservations daemon := by
  have hlook : Triple (Attach.discipline emulator (initial id)) thread
      (Under emulator (initial id) thread core) (look f)
      fun b s => b = a ∧ Under emulator (initial id) thread core s :=
    triple_look (stable_under core) (fun _ => stable_pure (stable_under core))
      fun s _ hs => ⟨hf s hs, hs⟩
  refine Triple.mono (Triple.weaken (triple_onSession hlook (growing_look f)
    kept_held) fun _ hs => ⟨hs.under, hs.held⟩) ?_
  exact fun b daemon hs => ⟨hs.1.1, hs.1.2, hs.2⟩

/-- An answer that is true. -/
theorem triple_answer {P : Daemon Parser Screen → Prop}
    {precondition : Option StyledScreenPrecondition} {result : StyledScreenResult}
    {screen : Daemon Parser Screen → Screen}
    (hp : Stable (daemonDiscipline emulator grid initial) thread P)
    (hkeeps : ∀ daemon answers, P daemon → P { daemon with answers := answers })
    (h : ∀ daemon, P daemon →
      Witnessed emulator grid daemon ⟨precondition, result, screen daemon⟩) :
    Triple (daemonDiscipline emulator grid initial) thread P (answer precondition result screen)
      fun _ => P := by
  refine triple_daemon hp (fun _ => hp) fun daemon input hinv hs => ?_
  refine ⟨⟨hinv.sessions, hinv.revised, hinv.bytes, hinv.budget, fun a ha => ?_⟩, rfl,
    fun _ _ => rfl, hkeeps daemon _ hs⟩
  rcases List.mem_cons.mp ha with rfl | ha
  · exact (h daemon hs).mono fun _ => List.prefix_rfl
  · exact (hinv.answers a ha).mono fun _ => List.prefix_rfl

/-- What a capture has after it was under the guard. -/
def Got (emulator : Emulator Parser Screen) (thread : ℕ) (id : Str) :
    Except StyledScreenError (Captured Screen) → Daemon Parser Screen → Prop
  | .ok (.screen screen revision reservation), daemon =>
    held thread daemon = [(thread, reservation)] ∧ revision < 2 ^ 64 ∧
      Seen emulator daemon id revision screen
  | _, daemon => held thread daemon = []

theorem kept_got (result : Except StyledScreenError (Captured Screen)) :
    Kept initial thread id (Got emulator thread id result) := by
  rcases result with e | captured
  · exact kept_held
  · cases captured with
    | notModified revision => exact kept_held
    | screen screen revision reservation =>
      refine ⟨fun daemon daemon' h hlets => ?_, fun daemon s h hgrows => ?_⟩
      · exact ⟨hlets.held.trans h.1, h.2.1, h.2.2.mono (hlets.history id)⟩
      · refine ⟨h.1, h.2.1, h.2.2.mono ?_⟩
        simp only [Daemon.setSession, Function.update_self]
        exact hgrows

/-- The part under the guard. -/
theorem triple_captureUnderGuard (hsettled : Settled emulator core)
    (precondition : Option StyledScreenPrecondition) :
    Triple (daemonDiscipline emulator grid initial) thread (At emulator initial thread id core [])
      (captureUnderGuard emulator grid thread id precondition) fun result daemon =>
        Under emulator (initial id) thread core (daemon.sessions id) ∧
          Got emulator thread id result daemon := by
  have hstable (result : Except StyledScreenError (Captured Screen)) :
      Stable (daemonDiscipline emulator grid initial) thread fun daemon =>
        Under emulator (initial id) thread core (daemon.sessions id) ∧
          Got emulator thread id result daemon :=
    fun daemon daemon' h hlets => ⟨stable_under core _ _ h.1 (hlets.sessions id),
      (kept_got result).others daemon daemon' h.2 hlets⟩
  have herror (e : StyledScreenError) : Triple (daemonDiscipline emulator grid initial) thread
      (At emulator initial thread id core [])
      (pure (.error e) : Act Parser Screen (Except StyledScreenError (Captured Screen)))
      fun result daemon => Under emulator (initial id) thread core (daemon.sessions id) ∧
        Got emulator thread id result daemon :=
    triple_ret (hstable _) fun _ _ hs => ⟨hs.under, hs.held⟩
  refine triple_bind (triple_lookAt fun s hs => hs.degraded) fun degraded =>
    triple_pure fun hdegraded => ?_
  subst hdegraded
  by_cases hdegraded : core.terminalParserDegraded = true
  · rw [if_pos hdegraded]
    exact herror _
  rw [if_neg hdegraded]
  have hhealthy : core.terminalParserDegraded = false := by simpa using hdegraded
  refine triple_bind (triple_lookAt fun s hs => hs.revision) fun revision =>
    triple_pure fun hrevision => ?_
  subst hrevision
  cases hcheck : checkPrecondition id core.styledScreenRevision precondition with
  | error e => exact herror e
  | ok same =>
    cases same with
    | true =>
      refine triple_bind (triple_answer stable_at (fun _ _ hs => ⟨hs.under, hs.held⟩)
        fun daemon hs => ?_) fun _ => triple_ret (hstable _) fun _ _ hs => ⟨hs.under, hs.held⟩
      -- the request names this session and this revision
      cases precondition with
      | none => cases hcheck
      | some precondition =>
        simp only [checkPrecondition, bind_eq_ok, require_eq_ok, expect_eq_ok, exists_unit,
          pure_eq_ok, decide_eq_true_eq] at hcheck
        obtain ⟨hid, requested, hparse, -, rfl⟩ := hcheck
        exact ⟨precondition, _, rfl, hid, hparse, rfl, hs.seen hsettled hhealthy⟩
    | false =>
      refine triple_bind (triple_lookAt (f := fun s =>
        ((grid (sessionScreen emulator s)).rows, (grid (sessionScreen emulator s)).cols))
        (a := ((grid (emulator.vt.screen core.terminal.terminalScreen)).rows,
          (grid (emulator.vt.screen core.terminal.terminalScreen)).cols)) fun s hs => ?_)
        fun size => triple_pure fun _ => ?_
      · unfold sessionScreen
        rw [hs.terminal]
      cases validateStyledScreenGeometry size.1 size.2 with
      | error e => exact herror e
      | ok _ =>
        refine triple_bind (triple_reserveStyledScreenBytes size.1 size.2) fun result => ?_
        cases result with
        | error e => exact herror e
        | ok reservation =>
          refine triple_bind (triple_lookAt (a := emulator.vt.screen core.terminal.terminalScreen)
            fun s hs => ?_) fun screen => triple_pure fun hscreen => triple_ret (hstable _)
              fun daemon _ hs => ⟨hs.under, hs.held, (hsettled.revised hhealthy).2, ?_⟩
          · unfold sessionScreen
            rw [hs.terminal]
          · have hseen := hs.seen hsettled hhealthy
            unfold sessionScreen at hseen
            rw [hs.under.terminal] at hseen
            rw [hscreen]
            exact hseen

/-- What a capture holds. -/
def holding (thread : ℕ) : Except StyledScreenError StyledScreenCapture → List (ℕ × ℕ)
  | .ok ⟨_, some bytes⟩ => [(thread, bytes)]
  | _ => []

theorem stable_held : Stable (daemonDiscipline emulator grid initial) thread fun daemon =>
    held thread daemon = reservations :=
  fun _ _ h hlets => hlets.held.trans h

theorem triple_styledScreenCapture (resolved : Option Str) (schemaVersion : Str)
    (precondition : Option StyledScreenPrecondition) :
    Triple (daemonDiscipline emulator grid initial) thread
      (fun daemon => held thread daemon = [])
      (styledScreenCapture emulator grid thread resolved schemaVersion precondition)
      fun result daemon => held thread daemon = holding thread result := by
  have hend (result : Except StyledScreenError StyledScreenCapture)
      {P : Daemon Parser Screen → Prop}
      (h : ∀ daemon, P daemon → held thread daemon = holding thread result) :
      Triple (daemonDiscipline emulator grid initial) thread P
        (pure result : Act Parser Screen (Except StyledScreenError StyledScreenCapture))
        fun result daemon => held thread daemon = holding thread result :=
    triple_ret stable_held fun daemon _ hs => h daemon hs
  unfold styledScreenCapture
  split_ifs
  · exact hend (.error .unsupportedSchema) fun _ hs => hs
  · exact hend (.error .stale) fun _ hs => hs
  cases resolved with
  | none => exact hend (.error .targetNotFound) fun _ hs => hs
  | some id =>
    have hacquire : Triple (Attach.discipline emulator (initial id)) thread (fun _ => True)
        (acquire .outputState thread) fun _ => OutputHeld emulator (initial id) thread :=
      triple_acquire .outputState stable_true stable_outputHeld fun s hinv _ hfree =>
        ⟨holds_acquired _, hinv.sizes.agree hfree⟩
    have hguard : Triple (daemonDiscipline emulator grid initial) thread
        (fun daemon => True ∧ held thread daemon = []) (onSession id (acquire .outputState thread))
        fun _ daemon => ∃ core, Settled emulator core ∧
          At emulator initial thread id core [] daemon :=
      (triple_onSession hacquire (growing_acquire _ _) kept_held).strengthen
        fun _ daemon hinv hs => ⟨(daemon.sessions id).toCore,
          ⟨(hinv.sessions id).screens.terminal, hinv.revised id⟩,
          ⟨hs.1, rfl, rfl, rfl, rfl⟩, hs.2⟩
    refine triple_bind (hguard.weaken fun _ hs => ⟨trivial, hs⟩) fun _ =>
      triple_exists fun core => triple_pure fun hsettled => ?_
    refine triple_bind (triple_captureUnderGuard hsettled precondition) fun captured => ?_
    have hrelease : Triple (Attach.discipline emulator (initial id)) thread
        (Under emulator (initial id) thread core) (release .outputState) fun _ _ => True :=
      triple_release .outputState (stable_under core) stable_true fun _ _ hs =>
        ⟨hs.guard.output, (nomatch ·), fun _ => hs.guard.agree, (nomatch ·), trivial⟩
    refine triple_bind ((triple_onSession hrelease (growing_release _)
      (kept_got captured)).mono fun _ _ hs => hs.2) fun _ => ?_
    rcases captured with e | captured
    · exact hend (.error e) fun _ hs => hs
    · cases captured with
      | notModified revision => exact hend (.ok ⟨notModified id revision, none⟩) fun _ hs => hs
      | screen screen revision reservation =>
        cases hsnapshot : styledSnapshotFromScreen id revision (grid screen) with
        | error e =>
          simp only [hsnapshot]
          have hdrop : Triple (daemonDiscipline emulator grid initial) thread
              (Got emulator thread id (.ok (.screen screen revision reservation)))
              (dropReservation thread (some reservation)) fun _ daemon => held thread daemon = [] :=
            (triple_dropReservation reservation).weaken fun _ hs => hs.1
          exact triple_bind hdrop fun _ => hend (.error e) fun _ hs => hs
        | ok snapshot =>
          simp only [hsnapshot]
          have hgot : Kept initial thread id
              (Got emulator thread id (.ok (.screen screen revision reservation))) := kept_got _
          refine triple_bind (triple_answer hgot.others (fun _ _ hs => hs) fun daemon hs => ?_)
            fun _ => hend (.ok ⟨.snapshot snapshot, some reservation⟩) fun _ hs => hs.1
          obtain ⟨_, -, -, hid, htext⟩ := styledSnapshotFromScreen_eq hsnapshot
          refine ⟨snapshot_lossless hsnapshot, revision, hs.2.1, htext, ?_⟩
          rw [hid]
          exact hs.2.2

/-- **Every thread of the daemon keeps to the discipline**, and gives back what it reserved. -/
theorem triple_program (job : StyledRevisions.Job) :
    Triple (daemonDiscipline emulator grid initial) thread
      (fun daemon => (∀ id, Attach.Idle thread (daemon.sessions id)) ∧ held thread daemon = [])
      (StyledRevisions.program emulator grid thread job)
      fun _ daemon => held thread daemon = [] := by
  have hend (outcome : StyledRevisions.Outcome) {P : Daemon Parser Screen → Prop}
      (h : ∀ daemon, P daemon → held thread daemon = []) :
      Triple (daemonDiscipline emulator grid initial) thread P
        (pure outcome : Act Parser Screen StyledRevisions.Outcome)
        fun _ daemon => held thread daemon = [] :=
    triple_ret stable_held fun daemon _ hs => h daemon hs
  cases job with
  | session id job =>
    have hjob : Triple (daemonDiscipline emulator grid initial) thread
        (fun daemon => Attach.Idle thread (daemon.sessions id) ∧ held thread daemon = [])
        (onSession id (Attach.program emulator thread job)) fun outcome daemon =>
          Attach.Returned outcome (daemon.sessions id) ∧ held thread daemon = [] :=
      triple_onSession (Attach.triple_program job) (growing_program thread job) kept_held
    exact triple_bind (hjob.weaken fun _ hs => ⟨hs.1 id, hs.2⟩) fun outcome =>
      hend (.session outcome) fun _ hs => hs.2
  | styledScreen resolved schemaVersion precondition =>
    refine triple_bind ((triple_styledScreenCapture resolved schemaVersion precondition).weaken
      fun _ hs => hs.2) fun result => ?_
    rcases result with e | ⟨result, reservation⟩
    · exact hend (.styledScreen (.error e)) fun _ hs => hs
    · cases reservation with
      | none => exact hend (.styledScreen (.ok result)) fun _ hs => hs
      | some bytes =>
        exact triple_bind (triple_dropReservation bytes) fun _ =>
          hend (.styledScreen (.ok result)) fun _ hs => hs

/-! ### Runs -/

theorem stable_idleDaemon : Stable (daemonDiscipline emulator grid initial) thread fun daemon =>
    (∀ id, Attach.Idle thread (daemon.sessions id)) ∧ held thread daemon = [] :=
  fun daemon daemon' h hlets => by
    refine ⟨fun id => ?_, hlets.held.trans h.2⟩
    have hidle : Stable (Attach.discipline emulator (initial id)) thread (Attach.Idle thread) :=
      stable_idle
    exact hidle _ _ (h.1 id) (hlets.sessions id)

theorem capturing_newDaemon (emulator : Emulator Parser Screen) (grid : Screen → VtScreen)
    (initial : Str → Geometry) : Capturing emulator grid initial (newDaemon emulator initial) where
  sessions id := inv_newSession emulator (initial id)
  revised _ _ := ⟨rfl, Nat.two_pow_pos 64⟩
  bytes := rfl
  budget := Nat.zero_le _
  answers _ ha := (nomatch ha)

/-- Every run keeps to the discipline. -/
theorem threads_good (emulator : Emulator Parser Screen) (grid : Screen → VtScreen)
    (initial : Str → Geometry) (events : List (Event StyledRevisions.Job Input)) :
    (StyledRevisions.threads emulator grid initial events).Good
      (daemonDiscipline emulator grid initial)
      (fun thread daemon => (∀ id, Attach.Idle thread (daemon.sessions id)) ∧
        held thread daemon = []) fun thread _ daemon => held thread daemon = [] :=
  run_good (fun _ => stable_idleDaemon) (fun _ => triple_program)
    (capturing_newDaemon emulator grid initial)
    (fun thread => ⟨fun id => idle_newSession emulator (initial id) thread, rfl⟩) events

/-- A revision that is written is read. -/
theorem parseU64_decimal {revision : ℕ} (h : revision < 2 ^ 64) :
    parseU64 (decimal revision) = some revision := by
  have hdigits : ∀ ch ∈ decimal revision, isAsciiDigit ch = true :=
    fun ch hch => mem_decimal hch
  have hplus : (decimal revision).head? ≠ some '+' := by
    intro hhead
    have hmem : '+' ∈ decimal revision := List.mem_of_mem_head? hhead
    exact absurd (hdigits '+' hmem) (by decide)
  have hvalue : (decimal revision).foldl (fun n ch => 10 * n + (ch.toNat - '0'.toNat)) 0 =
      revision := by
    have hcore := Nat.ofDigitChars_ten_toDigits (n := revision)
    rwa [Nat.ofDigitChars_eq_foldl] at hcore
  unfold parseU64
  rw [if_neg hplus]
  dsimp only
  rw [hvalue, if_pos ⟨Nat.toDigits_ne_nil, List.all_eq_true.mpr hdigits, h⟩]

/-- **Snapshots are lossless, and revisions are sound.** The expansion of a snapshot gives back every
cell of the screen, and the encoding is canonical. In every run of threads that output, attach, detach,
resize and capture, on any number of sessions:

* a request with a precondition is answered that the screen is not modified only if the screen is the one
  of each snapshot of that session and revision;
* the reserved bytes are those of the captures that have not been dropped, and within the budget, and
  nothing is reserved when all threads have returned. -/
theorem styled_screens_sound (emulator : Emulator Parser Screen) (grid : Screen → VtScreen)
    (initial : Str → Geometry) :
    (∀ sessionId revision screen snapshot,
      styledSnapshotFromScreen sessionId revision screen = .ok snapshot →
        Lossless screen snapshot) ∧
    ∀ events : List (Event StyledRevisions.Job Input),
      let pool := StyledRevisions.threads emulator grid initial events
      (∀ a ∈ pool.state.answers, ∀ answered, a.result = .notModified answered →
        ∃ precondition, a.precondition = some precondition ∧
          precondition.sessionId = answered.sessionId ∧
          ∀ b ∈ pool.state.answers, ∀ snapshot, b.result = .snapshot snapshot →
            snapshot.sessionId = precondition.sessionId →
            snapshot.screenRevision = precondition.screenRevision → a.screen = b.screen) ∧
      (∀ b ∈ pool.state.answers, ∀ snapshot, b.result = .snapshot snapshot →
        Lossless (grid b.screen) snapshot) ∧
      pool.state.styledScreenReservedBytes = (pool.state.reservations.map Prod.snd).sum ∧
      pool.state.styledScreenReservedBytes ≤ styledScreenDaemonBudgetBytes ∧
      (∀ reservation ∈ pool.state.reservations, ∀ outcome,
        pool.threads[reservation.1]? ≠ some (some (.ret outcome))) ∧
      ((∀ thread ∈ pool.threads, ∃ outcome, thread = some (.ret outcome)) →
        pool.state.styledScreenReservedBytes = 0) := by
  refine ⟨fun sessionId revision screen snapshot h => snapshot_lossless h, fun events => ?_⟩
  intro pool
  have hgood := threads_good emulator grid initial events
  have hinv : Capturing emulator grid initial pool.state := hgood.inv
  have hmem {reservation : ℕ × ℕ} (hin : reservation ∈ pool.state.reservations) :
      reservation ∈ held reservation.1 pool.state := by
    simp only [held, List.mem_filter, decide_true, and_true]
    exact hin
  have hreturned : ∀ reservation ∈ pool.state.reservations, ∀ outcome,
      pool.threads[reservation.1]? ≠ some (some (.ret outcome)) := by
    intro reservation hin outcome hthread
    have hnone : held reservation.1 pool.state = [] :=
      hgood.safe reservation.1 _ hthread _
        ((daemonDiscipline emulator grid initial).refl _ _) hgood.inv
    have hheld := hmem hin
    rw [hnone] at hheld
    cases hheld
  refine ⟨fun a ha answered hanswered => ?_, fun b hb snapshot hsnapshot => ?_, hinv.bytes,
    hinv.budget, hreturned, fun hall => ?_⟩
  · have hwitnessed := hinv.answers a ha
    simp only [Witnessed, hanswered] at hwitnessed
    obtain ⟨precondition, revision, hsome, hid, hparse, -, hseen⟩ := hwitnessed
    refine ⟨precondition, hsome, hid, fun b hb snapshot hsnapshot hsession hrevision => ?_⟩
    have hwitnessed' := hinv.answers b hb
    simp only [Witnessed, hsnapshot] at hwitnessed'
    obtain ⟨-, revision', hlt, htext, hseen'⟩ := hwitnessed'
    -- the texts of the revisions are the same, and so are the revisions
    have hsame : revision' = revision := by
      rw [← hrevision, htext, parseU64_decimal hlt, Option.some.injEq] at hparse
      exact hparse
    rw [hsame, hsession, hid] at hseen'
    exact hseen.unique hseen'
  · have hwitnessed := hinv.answers b hb
    simp only [Witnessed, hsnapshot] at hwitnessed
    exact hwitnessed.1
  · have hempty : pool.state.reservations = [] := by
      rw [List.eq_nil_iff_forall_not_mem]
      intro reservation hin
      rcases lt_or_ge reservation.1 pool.threads.length with hlt | hge
      · obtain ⟨outcome, hret⟩ := hall _ (List.getElem_mem hlt)
        exact hreturned reservation hin outcome (by rw [List.getElem?_eq_getElem hlt, hret])
      · have hheld := hmem hin
        rw [(hgood.idle reservation.1 hge).2] at hheld
        cases hheld
    rw [hinv.bytes, hempty]
    rfl

end LightTerminal.Server.StyledAnswers
