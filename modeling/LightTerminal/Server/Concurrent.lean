import LightTerminal.Library.Run
import LightTerminal.Server.Model

/-! # What runs beside the holder of the session maps

An operation on the session maps keeps the lock `State.sessions` for its whole time, but other
threads go on with what does not need it: the lifecycle publication of any session, the calls of
`finalize_session` up to their next use of the maps, and `apply_capability_input` and
`revoke_input_capability`, which take only the lock of the grants.

`FreeAction` are the actions that need neither lock, `UnlockedAction` those that do not need the
maps. `interleave` runs a list of them at a point inside another operation. Whatever they do, they
leave the maps, the reservations and the metadata alone, and a session only evolves (`Evolves`): the
authority of its lifecycle stays, and what is dead, started, complete or dropped stays so
(`interleave_unlocked`). -/

namespace LightTerminal.Server.Concurrent

open LightTerminal.Data.Text LightTerminal.Library LightTerminal.Library.FiniteMap
open LightTerminal.Session.Lifecycle LightTerminal.Server.Error LightTerminal.Server.Model

/-- The next step of the innermost `finalize_session` of thread `i`, as far as it needs no lock. The
event id and the time are those a claim or a waiter reads. -/
def finalizeStep (i : ℕ) (eventId : Uuid) (now : ℕ) (s : State) : State :=
  match s.threads i with
  | [] => s
  | ⟨id, phase⟩ :: below =>
    let goto (phase : Phase) (s : State) : State := s.setThread i (⟨id, phase⟩ :: below)
    let return_ (s : State) : State :=
      { s.setThread i below with
        history := { s.history with finalized := id :: s.history.finalized } }
    match phase with
    | .claiming trigger =>
      let (attempt, lifecycle, alive) :=
        (s.heap id).lifecycle.claim trigger eventId now (s.heap id).alive
      goto (.publishing attempt) (s.modify id fun x => { x with lifecycle, alive })
    | .publishing attempt =>
      -- with a journal the event is enqueued, and the writer resolves it later
      if attempt.claimant ∧ s.lifecycleJournal = false then
        goto .waiting (s.modify id fun x =>
          { x with lifecycle := (x.lifecycle.resolve attempt.eventId .writerUnavailable).2 })
      else goto .waiting s
    | .waiting =>
      let (wait, lifecycle) := (s.heap id).lifecycle.waitTurn now
      let s := s.modify id fun x => { x with lifecycle }
      match wait with
      | .returned _ => goto .swapping s
      | _ => s
    | .swapping =>
      if (s.heap id).cleanupStarted then goto .awaiting s
      else goto .cleaning (s.modify id fun x => { x with cleanupStarted := true })
    | .awaiting => if (s.heap id).cleanupComplete then return_ s else s
    | .children (child :: rest) =>
      s.setThread i (⟨child, .claiming (.parentCascade id)⟩ :: ⟨id, .children rest⟩ :: below)
    | .children [] => goto .removing s
    | .completing => return_ (s.modify id fun x => { x with cleanupComplete := true })
    | .cleaning => s
    | .removing => s

/-- A step that needs no lock. `dropArc` is the release of the last `Arc` of a session. -/
inductive FreeAction where
  | claim (id : Str) (requested : FinalizeTrigger) (eventId : Uuid) (now : ℕ)
  | resolve (id : Str) (eventId : Uuid) (outcome : WriteOutcome)
  | wait (id : Str) (now : ℕ)
  | dropClaimResolutionGuard (id : Str) (eventId : Uuid) (armed : Bool)
  | markMonitorFailed (id : Str)
  | dropArc (id : Str)
  | finalize (thread : ℕ) (eventId : Uuid) (now : ℕ)

/-- A free action performed. -/
def FreeAction.step (s : State) : FreeAction → State
  | .claim id requested eventId now =>
    s.modify id fun x =>
      let (_, lifecycle, alive) := x.lifecycle.claim requested eventId now x.alive
      { x with lifecycle, alive }
  | .resolve id eventId outcome =>
    s.modify id fun x => { x with lifecycle := (x.lifecycle.resolve eventId outcome).2 }
  | .wait id now => s.modify id fun x => { x with lifecycle := (x.lifecycle.waitTurn now).2 }
  | .dropClaimResolutionGuard id eventId armed =>
    s.modify id fun x => { x with lifecycle := x.lifecycle.dropClaimResolutionGuard eventId armed }
  | .markMonitorFailed id =>
    s.modify id fun x => { x with lifecycle := x.lifecycle.markMonitorFailed.2 }
  | .dropArc id => s.modify id fun x => { x with dropped := true }
  | .finalize thread eventId now => finalizeStep thread eventId now s

/-- `MAX_CAPABILITY_INPUT_BYTES`. -/
def maxCapabilityInputBytes : ℕ := 64 * 1024

/-- The charge of `apply_capability_input`: the grant is reduced, or removed when it is used up. -/
def charge (token : Str) (grant : InputCapabilityGrant) (length : ℕ) (s : State) : State :=
  let remaining := grant.remainingAttemptBytes - length
  let grants :=
    if remaining = 0 then s.grants.erase token
    else s.grants.insert token { grant with remainingAttemptBytes := remaining }
  let accepted := ⟨token, grant.sessionId, length⟩ :: s.history.accepted
  { s with grants, history := { s.history with accepted } }

/-- `apply_capability_input`; `written` is whether the final write succeeds. -/
def applyCapabilityInput (token : Str) (data : List UInt8) (written : Bool) (s : State) :
    Except ServerError Unit × State :=
  if data.isEmpty ∨ maxCapabilityInputBytes < data.length then (.error .inputRejected, s)
  else
    match s.grants.lookup token with
    | none => (.error .inputRejected, s)
    | some grant =>
      if (s.heap grant.sessionId).dropped then
        (.error .inputRejected, { s with grants := s.grants.erase token })
      else if (s.heap grant.sessionId).alive = false then
        (.error .inputRejected, { s with grants := s.grants.erase token })
      else if grant.remainingAttemptBytes < data.length then (.error .inputRejected, s)
      else (if written then .ok () else .error .inputWriteFailed, charge token grant data.length s)

/-- `revoke_input_capability`. -/
def revokeInputCapability (token : Str) (s : State) : State :=
  { s with grants := s.grants.erase token }

/-- A step that does not need the session maps. -/
inductive UnlockedAction where
  | free (action : FreeAction)
  | apply (token : Str) (data : List UInt8) (written : Bool)
  | revoke (token : Str)

/-- An unlocked action performed. -/
def UnlockedAction.step (s : State) : UnlockedAction → State
  | .free action => action.step s
  | .apply token data written => (applyCapabilityInput token data written s).2
  | .revoke token => revokeInputCapability token s

/-- What other threads do at a point inside an operation that holds the maps. -/
def interleave (hook : List UnlockedAction) (s : State) : State := Run.run UnlockedAction.step s hook

/-- What other threads do while both locks are held. -/
def interleaveFree (hook : List FreeAction) (s : State) : State := Run.run FreeAction.step s hook

/-! ### What the maps' holder can rely on -/

/-- What never changes of a session once it is committed, and what only goes forward. -/
structure Persists (x y : Session) : Prop where
  paneId : y.paneId = x.paneId
  parentPaneId : y.parentPaneId = x.parentPaneId
  parentSessionId : y.parentSessionId = x.parentSessionId
  lifecycle : PublicationState.Keeps x.lifecycle y.lifecycle
  dead : x.alive = false → y.alive = false
  started : x.cleanupStarted = true → y.cleanupStarted = true
  complete : x.cleanupComplete = true → y.cleanupComplete = true
  dropped : x.dropped = true → y.dropped = true

theorem Persists.refl (x : Session) : Persists x x :=
  ⟨rfl, rfl, rfl, .refl _, fun h => h, fun h => h, fun h => h, fun h => h⟩

theorem Persists.trans {x y z : Session} (h : Persists x y) (h' : Persists y z) : Persists x z :=
  ⟨h'.paneId.trans h.paneId, h'.parentPaneId.trans h.parentPaneId,
    h'.parentSessionId.trans h.parentSessionId, h.lifecycle.trans h'.lifecycle,
    fun hx => h'.dead (h.dead hx), fun hx => h'.started (h.started hx),
    fun hx => h'.complete (h.complete hx), fun hx => h'.dropped (h.dropped hx)⟩

/-- How a session changes without the lock of the maps: its metadata is fixed too. -/
structure Evolves (x y : Session) : Prop extends Persists x y where
  metadata : y.metadata = x.metadata

theorem Evolves.refl (x : Session) : Evolves x x := ⟨.refl x, rfl⟩

theorem Evolves.trans {x y z : Session} (h : Evolves x y) (h' : Evolves y z) : Evolves x z :=
  ⟨h.toPersists.trans h'.toPersists, h'.metadata.trans h.metadata⟩

theorem Evolves.of_lifecycle {x : Session} {lifecycle : PublicationState}
    (h : PublicationState.Keeps x.lifecycle lifecycle) : Evolves x { x with lifecycle } :=
  ⟨⟨rfl, rfl, rfl, h, fun h => h, fun h => h, fun h => h, fun h => h⟩, rfl⟩

theorem Evolves.of_claim (x : Session) (requested : FinalizeTrigger) (eventId : Uuid) (now : ℕ) :
    Evolves x { x with
      lifecycle := (x.lifecycle.claim requested eventId now x.alive).2.1
      alive := (x.lifecycle.claim requested eventId now x.alive).2.2 } := by
  refine ⟨⟨rfl, rfl, rfl, PublicationState.keeps_claim .., fun hdead => ?_, fun h => h, fun h => h,
    fun h => h⟩, rfl⟩
  have halive := (PublicationState.claim_spec requested eventId now x.lifecycle x.alive).2.2.2
  rw [hdead, Bool.and_false] at halive
  rwa [hdead]

/-- What a step that does not need the maps leaves alone. -/
structure Unlocked (s s' : State) : Prop where
  sessions : s'.sessions = s.sessions
  reservations : s'.reservations = s.reservations
  journal : s'.lifecycleJournal = s.lifecycleJournal
  heap : ∀ id, Evolves (s.heap id) (s'.heap id)
  created : s'.history.created = s.history.created
  committed : s'.history.committed = s.history.committed

theorem Unlocked.refl (s : State) : Unlocked s s :=
  ⟨rfl, rfl, rfl, fun _ => .refl _, rfl, rfl⟩

theorem Unlocked.trans {a b c : State} (h : Unlocked a b) (h' : Unlocked b c) : Unlocked a c :=
  ⟨h'.sessions.trans h.sessions, h'.reservations.trans h.reservations, h'.journal.trans h.journal,
    fun id => (h.heap id).trans (h'.heap id), h'.created.trans h.created,
    h'.committed.trans h.committed⟩

theorem Unlocked.setThread {s s' : State} (h : Unlocked s s') (i : ℕ) (stack : List Frame) :
    Unlocked s (s'.setThread i stack) :=
  ⟨h.sessions, h.reservations, h.journal, h.heap, h.created, h.committed⟩

theorem Unlocked.authority_eq_none {s s₁ : State} (h : Unlocked s s₁) {id : Str}
    (hnone : (s₁.heap id).lifecycle.authority = none) : (s.heap id).lifecycle.authority = none := by
  by_contra hne
  obtain ⟨a, ha⟩ := Option.ne_none_iff_exists'.mp hne
  rw [(h.heap id).lifecycle.authority a ha] at hnone
  cases hnone

/-- A step that needs no lock leaves the grants alone too. -/
structure Free (s s' : State) : Prop extends Unlocked s s' where
  grants : s'.grants = s.grants
  issued : s'.history.issued = s.history.issued
  accepted : s'.history.accepted = s.history.accepted

theorem Free.refl (s : State) : Free s s := ⟨.refl s, rfl, rfl, rfl⟩

theorem Free.trans {a b c : State} (h : Free a b) (h' : Free b c) : Free a c :=
  ⟨h.toUnlocked.trans h'.toUnlocked, h'.grants.trans h.grants, h'.issued.trans h.issued,
    h'.accepted.trans h.accepted⟩

theorem free_modify (s : State) (id : Str) {f : Session → Session}
    (h : Evolves (s.heap id) (f (s.heap id))) : Free s (s.modify id f) := by
  refine ⟨⟨rfl, rfl, rfl, fun id' => ?_, rfl, rfl⟩, rfl, rfl, rfl⟩
  by_cases hid : id' = id
  · subst hid
    rw [State.modify_heap_self]
    exact h
  · rw [State.modify_heap_of_ne s id f hid]
    exact .refl _

theorem Free.setThread {s s' : State} (h : Free s s') (i : ℕ) (stack : List Frame) :
    Free s (s'.setThread i stack) := ⟨⟨h.sessions, h.reservations, h.journal, h.heap, h.created,
      h.committed⟩, h.grants, h.issued, h.accepted⟩

theorem Free.finalized {s s' : State} (h : Free s s') (finalized : List Str) :
    Free s { s' with history := { s'.history with finalized } } := ⟨⟨h.sessions, h.reservations,
      h.journal, h.heap, h.created, h.committed⟩, h.grants, h.issued, h.accepted⟩

theorem finalizeStep_free (i : ℕ) (eventId : Uuid) (now : ℕ) (s : State) :
    Free s (finalizeStep i eventId now s) := by
  unfold finalizeStep
  split
  · exact .refl s
  · next id phase below _ =>
    rcases phase with trigger | attempt | _ | _ | _ | _ | ⟨_ | ⟨child, rest⟩⟩ | _ | _ <;> dsimp only
    · exact (free_modify s id (.of_claim _ trigger eventId now)).setThread i _
    · split_ifs
      · exact (free_modify s id (.of_lifecycle (PublicationState.keeps_resolve ..))).setThread i _
      · exact (Free.refl s).setThread i _
    · have hturn := free_modify s id
        (f := fun x => { x with lifecycle := ((s.heap id).lifecycle.waitTurn now).2 })
        (.of_lifecycle (PublicationState.keeps_waitTurn now _))
      split
      · exact hturn.setThread i _
      · exact hturn
    · split_ifs
      · exact (Free.refl s).setThread i _
      · refine (free_modify s id ?_).setThread i _
        exact ⟨⟨rfl, rfl, rfl, .refl _, fun h => h, fun _ => rfl, fun h => h, fun h => h⟩, rfl⟩
    · split_ifs
      · exact ((Free.refl s).setThread i _).finalized _
      · exact .refl s
    · exact .refl s
    · exact (Free.refl s).setThread i _
    · exact (Free.refl s).setThread i _
    · exact .refl s
    · refine ((free_modify s id ?_).setThread i _).finalized _
      exact ⟨⟨rfl, rfl, rfl, .refl _, fun h => h, fun h => h, fun _ => rfl, fun h => h⟩, rfl⟩

theorem FreeAction.step_free (s : State) (a : FreeAction) : Free s (a.step s) := by
  cases a with
  | claim id requested eventId now =>
    rw [FreeAction.step]
    refine free_modify s id ?_
    exact .of_claim _ requested eventId now
  | resolve id eventId outcome =>
    rw [FreeAction.step]
    refine free_modify s id ?_
    exact .of_lifecycle (PublicationState.keeps_resolve eventId outcome _)
  | wait id now =>
    rw [FreeAction.step]
    refine free_modify s id ?_
    exact .of_lifecycle (PublicationState.keeps_waitTurn now _)
  | dropClaimResolutionGuard id eventId armed =>
    rw [FreeAction.step]
    refine free_modify s id ?_
    exact .of_lifecycle (PublicationState.keeps_dropClaimResolutionGuard eventId armed _)
  | markMonitorFailed id =>
    rw [FreeAction.step]
    refine free_modify s id ?_
    exact .of_lifecycle (PublicationState.keeps_markMonitorFailed _)
  | dropArc id =>
    rw [FreeAction.step]
    refine free_modify s id ?_
    exact ⟨⟨rfl, rfl, rfl, .refl _, fun h => h, fun h => h, fun h => h, fun _ => rfl⟩, rfl⟩
  | finalize thread eventId now => exact finalizeStep_free thread eventId now s

theorem applyCapabilityInput_unlocked (token : Str) (data : List UInt8) (written : Bool)
    (s : State) : Unlocked s (applyCapabilityInput token data written s).2 := by
  unfold applyCapabilityInput
  by_cases hdata : data.isEmpty ∨ maxCapabilityInputBytes < data.length
  · rw [if_pos hdata]
    exact .refl s
  · rw [if_neg hdata]
    split
    · exact .refl s
    · split_ifs <;> exact ⟨rfl, rfl, rfl, fun _ => .refl _, rfl, rfl⟩

theorem UnlockedAction.step_unlocked (s : State) (a : UnlockedAction) : Unlocked s (a.step s) := by
  cases a with
  | free action => exact (FreeAction.step_free s action).toUnlocked
  | apply token data written => exact applyCapabilityInput_unlocked token data written s
  | revoke token => exact ⟨rfl, rfl, rfl, fun _ => .refl _, rfl, rfl⟩

theorem interleave_unlocked (hook : List UnlockedAction) (s : State) :
    Unlocked s (interleave hook s) :=
  Run.run_related Unlocked.refl (fun _ _ _ => .trans) UnlockedAction.step_unlocked hook s

theorem interleaveFree_free (hook : List FreeAction) (s : State) :
    Free s (interleaveFree hook s) :=
  Run.run_related Free.refl (fun _ _ _ => .trans) FreeAction.step_free hook s

end LightTerminal.Server.Concurrent
