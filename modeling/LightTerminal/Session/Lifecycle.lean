import LightTerminal.Data.Text

/-! # The lifecycle publication of a session

`LifecyclePublication` of `session_lifecycle.rs` decides who ends a session and why. It goes from
`Unclaimed` to `Claimed`, when the first finalizer claims it, and on to `Resolved`, when the exit
journal acknowledges the event, the write fails, or a waiter runs into the deadline.

Every method runs under the mutex of the state, so each is a function of the state here. What
differs is `wait_for_resolution`, which gives the mutex up while it sleeps: `waitTurn` is one turn
of its loop. Instants are milliseconds. -/

namespace LightTerminal.Session.Lifecycle

open LightTerminal.Data.Text

/-- `FinalizeTrigger`. -/
inductive FinalizeTrigger where
  | leaderExited
  | closeRequested
  | daemonShutdown
  | parentCascade (parentSessionId : Str)
  deriving DecidableEq, Repr

/-- `SessionPresentation`. -/
inductive SessionPresentation where
  | healthy
  | monitorFailed
  | ending (trigger : FinalizeTrigger)
  deriving DecidableEq, Repr

/-- `WriteOutcome`. -/
inductive WriteOutcome where
  | persisted
  | queueFull
  | timeout
  | ioFailed
  | writerUnavailable
  deriving DecidableEq, Repr

/-- `ClaimAttempt`. -/
structure ClaimAttempt where
  eventId : Uuid
  authoritativeTrigger : FinalizeTrigger
  claimant : Bool
  deriving DecidableEq, Repr

/-- `PublicationResolution`. -/
structure PublicationResolution where
  eventId : Uuid
  trigger : FinalizeTrigger
  outcome : WriteOutcome
  deriving DecidableEq, Repr

/-- `PublicationState`. -/
inductive PublicationState where
  | unclaimed (presentation : SessionPresentation)
  | claimed (eventId : Uuid) (trigger : FinalizeTrigger) (deadline : ℕ)
  | resolved (resolution : PublicationResolution)
  deriving DecidableEq, Repr

/-- `PUBLICATION_TIMEOUT`. -/
def publicationTimeout : ℕ := 100

namespace PublicationState

/-- `LifecyclePublication::default`. -/
def default : PublicationState := .unclaimed .healthy

/-- The test of `identity_commit_guard`: the guard is granted. -/
def identityCommitGuard : PublicationState → Bool
  | .unclaimed _ => true
  | _ => false

/-- `claim`, with the event id it draws and the clock it reads, on the state and `alive`. -/
def claim (requested : FinalizeTrigger) (eventId : Uuid) (now : ℕ) :
    PublicationState → Bool → ClaimAttempt × PublicationState × Bool
  | .unclaimed _, _ =>
    (⟨eventId, requested, true⟩, .claimed eventId requested (now + publicationTimeout), false)
  | .claimed id trigger deadline, alive => (⟨id, trigger, false⟩, .claimed id trigger deadline, alive)
  | .resolved resolution, alive =>
    (⟨resolution.eventId, resolution.trigger, false⟩, .resolved resolution, alive)

/-- `mark_monitor_failed`; `none` is its `unreachable!`. -/
def markMonitorFailed : PublicationState → Option Bool × PublicationState
  | .unclaimed .healthy => (some true, .unclaimed .monitorFailed)
  | .unclaimed (.ending trigger) => (none, .unclaimed (.ending trigger))
  | state => (some false, state)

/-- `presentation`. -/
def presentation : PublicationState → SessionPresentation
  | .unclaimed presentation => presentation
  | .claimed _ trigger _ => .ending trigger
  | .resolved resolution => .ending resolution.trigger

/-- `authoritative_trigger`. -/
def authoritativeTrigger : PublicationState → Option FinalizeTrigger
  | .unclaimed _ => none
  | .claimed _ trigger _ => some trigger
  | .resolved resolution => some resolution.trigger

/-- `resolve`. -/
def resolve (eventId : Uuid) (outcome : WriteOutcome) : PublicationState → Bool × PublicationState
  | .claimed currentId trigger deadline =>
    if currentId = eventId then (true, .resolved ⟨eventId, trigger, outcome⟩)
    else (false, .claimed currentId trigger deadline)
  | state => (false, state)

/-- What a turn of `wait_for_resolution` ends with: it returns, goes to sleep, or panics because
nothing was claimed. -/
inductive Wait where
  | returned (resolution : PublicationResolution)
  | asleep
  | panicked
  deriving DecidableEq, Repr

/-- One turn of the loop of `wait_for_resolution` at the time `now`. -/
def waitTurn (now : ℕ) : PublicationState → Wait × PublicationState
  | .unclaimed presentation => (.panicked, .unclaimed presentation)
  | .resolved resolution => (.returned resolution, .resolved resolution)
  | .claimed eventId trigger deadline =>
    if deadline ≤ now then
      (.returned ⟨eventId, trigger, .timeout⟩, .resolved ⟨eventId, trigger, .timeout⟩)
    else (.asleep, .claimed eventId trigger deadline)

/-- `ClaimResolutionGuard::drop`. -/
def dropClaimResolutionGuard (eventId : Uuid) (armed : Bool) (state : PublicationState) :
    PublicationState :=
  if armed then (state.resolve eventId .ioFailed).2 else state

/-! ### The authority of a claimed state -/

/-- The event id and trigger a claimed state is committed to. -/
def authority : PublicationState → Option (Uuid × FinalizeTrigger)
  | .unclaimed _ => none
  | .claimed eventId trigger _ => some (eventId, trigger)
  | .resolved resolution => some (resolution.eventId, resolution.trigger)

/-- `state'` keeps the authority of `state`, and its resolution. -/
structure Keeps (state state' : PublicationState) : Prop where
  authority : ∀ a, state.authority = some a → state'.authority = some a
  resolution : ∀ r, state = .resolved r → state' = .resolved r

theorem Keeps.refl (state : PublicationState) : Keeps state state := ⟨fun _ h => h, fun _ h => h⟩

theorem Keeps.trans {a b c : PublicationState} (h : Keeps a b) (h' : Keeps b c) : Keeps a c :=
  ⟨fun x hx => h'.authority x (h.authority x hx), fun r hr => h'.resolution r (h.resolution r hr)⟩

theorem Keeps.of_authority_eq_none {state state' : PublicationState}
    (h : state.authority = none) : Keeps state state' := by
  refine ⟨fun a ha => ?_, fun r hr => ?_⟩
  · rw [h] at ha; cases ha
  · subst hr; cases h

theorem identityCommitGuard_eq (state : PublicationState) :
    state.identityCommitGuard = state.authority.isNone := by
  cases state <;> rfl

theorem keeps_claim (requested : FinalizeTrigger) (eventId : Uuid) (now : ℕ)
    (state : PublicationState) (alive : Bool) :
    Keeps state (state.claim requested eventId now alive).2.1 := by
  cases state with
  | unclaimed p => exact Keeps.of_authority_eq_none rfl
  | claimed id trigger deadline => exact Keeps.refl _
  | resolved r => exact Keeps.refl _

/-- A claim returns the authority of the state it leaves, and is the claimant's exactly if the
state before had none. -/
theorem claim_spec (requested : FinalizeTrigger) (eventId : Uuid) (now : ℕ)
    (state : PublicationState) (alive : Bool) :
    let result := state.claim requested eventId now alive
    result.2.1.authority = some (result.1.eventId, result.1.authoritativeTrigger) ∧
      result.1.claimant = state.authority.isNone ∧
      (result.1.claimant = true →
        result.1.eventId = eventId ∧ result.1.authoritativeTrigger = requested) ∧
      result.2.2 = (!state.authority.isNone && alive) := by
  cases state <;> simp [claim, authority]

theorem keeps_resolve (eventId : Uuid) (outcome : WriteOutcome) (state : PublicationState) :
    Keeps state (state.resolve eventId outcome).2 := by
  cases state with
  | unclaimed p => exact Keeps.refl _
  | claimed id trigger deadline =>
    simp only [resolve]
    split_ifs with h
    · subst h
      exact ⟨fun a ha => ha, fun r hr => by cases hr⟩
    · exact Keeps.refl _
  | resolved r => exact Keeps.refl _

/-- A late or stale `resolve` returns false and changes nothing. -/
theorem resolve_stale {eventId : Uuid} {outcome : WriteOutcome} {state : PublicationState}
    (h : ∀ trigger deadline, state ≠ .claimed eventId trigger deadline) :
    state.resolve eventId outcome = (false, state) := by
  cases state with
  | unclaimed p => rfl
  | claimed id trigger deadline =>
    have hne : id ≠ eventId := by
      rintro rfl
      exact h trigger deadline rfl
    simp only [resolve, if_neg hne]
  | resolved r => rfl

theorem keeps_markMonitorFailed (state : PublicationState) :
    Keeps state state.markMonitorFailed.2 := by
  cases state with
  | unclaimed p => exact Keeps.of_authority_eq_none rfl
  | claimed id trigger deadline => exact Keeps.refl _
  | resolved r => exact Keeps.refl _

theorem markMonitorFailed_of_authority {state : PublicationState} {a : Uuid × FinalizeTrigger}
    (h : state.authority = some a) : state.markMonitorFailed = (some false, state) := by
  cases state with
  | unclaimed p => cases h
  | claimed id trigger deadline => rfl
  | resolved r => rfl

theorem keeps_waitTurn (now : ℕ) (state : PublicationState) : Keeps state (state.waitTurn now).2 := by
  cases state with
  | unclaimed p => exact Keeps.refl _
  | claimed id trigger deadline =>
    simp only [waitTurn]
    split_ifs
    · exact ⟨fun a ha => ha, fun r hr => by cases hr⟩
    · exact Keeps.refl _
  | resolved r => exact Keeps.refl _

/-- A turn that returns leaves the state resolved to what it returns. -/
theorem waitTurn_returned {now : ℕ} {state : PublicationState} {r : PublicationResolution}
    (h : (state.waitTurn now).1 = .returned r) : (state.waitTurn now).2 = .resolved r := by
  cases state with
  | unclaimed p => cases h
  | claimed id trigger deadline =>
    simp only [waitTurn] at h ⊢
    split_ifs at h ⊢
    cases h; rfl
  | resolved r' => cases h; rfl

theorem keeps_dropClaimResolutionGuard (eventId : Uuid) (armed : Bool) (state : PublicationState) :
    Keeps state (state.dropClaimResolutionGuard eventId armed) := by
  unfold dropClaimResolutionGuard
  split_ifs
  · exact keeps_resolve eventId .ioFailed state
  · exact Keeps.refl _

end PublicationState

end LightTerminal.Session.Lifecycle
