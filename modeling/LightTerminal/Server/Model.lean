import LightTerminal.Library.FiniteMap
import LightTerminal.Session.Lifecycle
import LightTerminal.Server.Metadata

/-! # The state of the daemon

`State` holds what the operations on sessions read and write: the `SessionMaps` behind
`State.sessions`, the sessions, the grants behind `State.input_capabilities`, the reservations that
`new_session` calls hold, and the calls of `finalize_session` that are under way.

An `Arc<Session>` is the id of the session, under which `heap` has it; ids are fresh UUIDs, and the
source compares sessions by id. `dropped` says that the last `Arc` of a session is gone, so that a
`Weak` of it no longer upgrades. `history` records what happened, for the statements about runs. No
operation reads it, but for the freshness of drawn ids and tokens. -/

namespace LightTerminal.Server.Model

open LightTerminal.Data.Text LightTerminal.Library.FiniteMap
open LightTerminal.Session.Lifecycle LightTerminal.Server.Error LightTerminal.Server.Metadata

/-- `ProcessIdentity` of `process_identity.rs`. -/
structure ProcessIdentity where
  pid : ℕ
  startMarker : Str
  deriving DecidableEq, Repr

/-- `Session`: the fields that decide how it is found, changed and ended. -/
structure Session where
  metadata : SessionMetadata
  paneId : Str
  parentPaneId : Option Str
  parentSessionId : Option Str
  parentToken : Str
  leaderIdentity : Option ProcessIdentity
  alive : Bool
  lifecycle : PublicationState
  cleanupStarted : Bool
  cleanupComplete : Bool
  dropped : Bool

/-- `Session::name`. -/
def Session.name (session : Session) : Str := session.metadata.current.name

/-- `SessionMaps`. -/
structure SessionMaps where
  byName : Map Str Str
  byPane : Map Str Str
  byId : Map Str Str
  reservedNames : Finset Str
  reservedPanes : Finset Str

/-- `SessionReservation`. -/
structure SessionReservation where
  name : Str
  paneId : Str
  deriving DecidableEq

/-- `InputCapabilityGrant`; the `Weak<Session>` is that of `sessionId`. -/
structure InputCapabilityGrant where
  sessionId : Str
  remainingAttemptBytes : ℕ
  deriving DecidableEq

/-- Where a call of `finalize_session` is. -/
inductive Phase where
  /-- about to call `publish_lifecycle_trigger` -/
  | claiming (trigger : FinalizeTrigger)
  /-- the claim is made, its event not yet handed to the journal -/
  | publishing (attempt : ClaimAttempt)
  /-- in `wait_for_resolution` -/
  | waiting
  /-- about to swap `cleanup_started` -/
  | swapping
  /-- in `wait_for_cleanup_complete` -/
  | awaiting
  /-- the cleaner, before `terminate_child_sessions` -/
  | cleaning
  /-- in the loop of `terminate_child_sessions` -/
  | children (rest : List Str)
  /-- about to call `remove_session` -/
  | removing
  /-- about to call `mark_cleanup_complete` -/
  | completing
  deriving DecidableEq

/-- A call of `finalize_session`. -/
structure Frame where
  session : Str
  phase : Phase
  deriving DecidableEq

/-- A token handed out by `issue_input_capability`. -/
structure Issued where
  token : Str
  sessionId : Str
  byteBudget : ℕ

/-- Input that `apply_capability_input` charged to a token and wrote to a session. -/
structure Accepted where
  token : Str
  sessionId : Str
  length : ℕ

/-- What happened so far, the latest first: the ids drawn, the sessions committed, the tokens
issued, the input accepted, and the sessions for which a call of `finalize_session` returned. -/
structure History where
  created : List Str
  committed : List Str
  issued : List Issued
  accepted : List Accepted
  finalized : List Str

/-- The daemon. `threads` are the call stacks of the threads inside `finalize_session`, innermost
first. -/
structure State where
  sessions : SessionMaps
  heap : Str → Session
  grants : Map Str InputCapabilityGrant
  reservations : List SessionReservation
  threads : ℕ → List Frame
  lifecycleJournal : Bool
  history : History

/-- The session a place of memory has before it is allocated. -/
def Session.unallocated : Session :=
  { metadata := .new [] none, paneId := [], parentPaneId := none, parentSessionId := none,
    parentToken := [], leaderIdentity := none, alive := false, lifecycle := .default,
    cleanupStarted := false, cleanupComplete := false, dropped := true }

/-- `State::new`: a daemon without sessions, with or without a lifecycle journal. -/
def State.new (lifecycleJournal : Bool) : State :=
  { sessions := ⟨∅, ∅, ∅, ∅, ∅⟩, heap := fun _ => .unallocated, grants := ∅, reservations := [],
    threads := fun _ => [], lifecycleJournal, history := ⟨[], [], [], [], []⟩ }

/-- A session changed in place. -/
def State.modify (s : State) (id : Str) (f : Session → Session) : State :=
  { s with heap := Function.update s.heap id (f (s.heap id)) }

/-- The stack of a thread replaced. -/
def State.setThread (s : State) (i : ℕ) (stack : List Frame) : State :=
  { s with threads := Function.update s.threads i stack }

/-! ### Names and targets -/

/-- `session_name_looks_like_bare_pane_id`. -/
def sessionNameLooksLikeBarePaneId (name : Str) : Bool := !name.isEmpty && name.all isAsciiDigit

/-- `validate_session_name_syntax`. -/
def validateSessionNameSyntax (name : Str) : Except ServerError Unit :=
  if (trim name).isEmpty then .error .nameEmpty
  else if 128 < byteLen name then .error .nameTooLong
  else if name.head? = some '%' then .error (.nameLooksLikePane (sanitizedPreview name))
  else if name.head? = some '-' then .error (.nameStartsWithDash (sanitizedPreview name))
  else if sessionNameLooksLikeBarePaneId name then
    .error (.nameLooksLikeBarePane (sanitizedPreview name))
  else if (Uuid.parseStr name).isSome then .error (.nameLooksLikeUuid (sanitizedPreview name))
  else if !name.all fun ch => isAsciiAlphanumeric ch || ch == '.' || ch == '_' || ch == '-' then
    .error .nameCharacters
  else .ok ()

/-- `normalize_target`. -/
def normalizeTarget (target : Str) : Str :=
  if (trim target).isEmpty then "main".toList else trim target

/-- `resolve_session_locked`: a pane id, a name, a session id, then a bare pane number. -/
def SessionMaps.resolveSessionLocked (sessions : SessionMaps) (target : Str) : Option Str :=
  (if target.head? = some '%' then sessions.byPane.lookup target else none) <|>
    sessions.byName.lookup target <|> sessions.byId.lookup target <|>
    if target.head? = some '%' then none else sessions.byPane.lookup ('%' :: target)

/-- The entry of `by_name` for `name` is the session `id`. -/
def SessionMaps.namesSession (sessions : SessionMaps) (name id : Str) : Bool :=
  sessions.byName.lookup name = some id

/-- `name` is reserved, or the name of another session than `id`. -/
def SessionMaps.nameTaken (sessions : SessionMaps) (name id : Str) : Bool :=
  name ∈ sessions.reservedNames || (sessions.byName.lookup name).any (· ≠ id)

/-! ### Changing a session in place -/

namespace State

variable (s : State) (id : Str) (f : Session → Session)

@[simp] theorem modify_heap_self : (s.modify id f).heap id = f (s.heap id) :=
  Function.update_self ..

theorem modify_heap_of_ne {id' : Str} (h : id' ≠ id) : (s.modify id f).heap id' = s.heap id' :=
  Function.update_of_ne h ..

/-- What the change keeps of the session it is made to, it keeps of every session. -/
theorem modify_heap_proj {α : Type} {p : Session → α} (h : p (f (s.heap id)) = p (s.heap id))
    (id' : Str) : p ((s.modify id f).heap id') = p (s.heap id') := by
  by_cases hid : id' = id
  · subst hid
    rw [modify_heap_self]
    exact h
  · rw [modify_heap_of_ne s id f hid]

end State

end LightTerminal.Server.Model
