import LightTerminal.Server.Concurrent

/-! # The operations on the session maps

Each function is one function of `server.rs` that takes the lock `State.sessions`. It returns its
result with the state it leaves, also when it fails. A `hook` is what other threads do at a point
inside the operation where it has read a lifecycle flag and not yet acted on it; in `rename_session`
and `metadata_step` it stands where the source has its test hook. -/

namespace LightTerminal.Server.Operations

open LightTerminal.Data.Text LightTerminal.Library.FiniteMap LightTerminal.Session.Lifecycle
open LightTerminal.Server.Error LightTerminal.Server.Metadata LightTerminal.Server.Model
open LightTerminal.Server.Concurrent

/-- `MAX_SESSIONS`. -/
def maxSessions : ℕ := 256

/-! ### Creation -/

/-- The loop of `reserve_session_identity`: the first free pane, with the name that goes with it. -/
def selectIdentity (sessions : SessionMaps) (requestedName : Option Str) :
    Option SessionReservation :=
  (List.range maxSessions).findSome? fun paneNum =>
    let paneId := '%' :: decimal paneNum
    let name := requestedName.getD ("lterm-".toList ++ decimal paneNum)
    if paneId ∈ sessions.byPane ∨ paneId ∈ sessions.reservedPanes then none
    else if requestedName.isNone ∧ (name ∈ sessions.byName ∨ name ∈ sessions.reservedNames) then none
    else some ⟨name, paneId⟩

/-- A reservation entered in the maps. -/
def reserve (reservation : SessionReservation) (s : State) : State :=
  let sessions :=
    { s.sessions with
      reservedPanes := insert reservation.paneId s.sessions.reservedPanes
      reservedNames := insert reservation.name s.sessions.reservedNames }
  { s with sessions, reservations := reservation :: s.reservations }

/-- `reserve_session_identity`. -/
def reserveSessionIdentity (requestedName : Option Str) (s : State) :
    Except ServerError SessionReservation × State :=
  match requestedName.map validateSessionNameSyntax with
  | some (.error e) => (.error e, s)
  | _ =>
    if maxSessions ≤ size s.sessions.byPane + s.sessions.reservedPanes.card then
      (.error .tooManySessions, s)
    else if ∃ name ∈ requestedName, name ∈ s.sessions.byName ∨ name ∈ s.sessions.reservedNames then
      (.error (.nameExists (requestedName.getD [])), s)
    else
      match selectIdentity s.sessions requestedName with
      | none => (.error .noAvailablePane, s)
      | some reservation => (.ok reservation, reserve reservation s)

/-- `SessionReservation::drop` of a reservation that was not committed. -/
def dropReservation (reservation : SessionReservation) (s : State) : State :=
  let sessions :=
    { s.sessions with
      reservedNames := s.sessions.reservedNames.erase reservation.name
      reservedPanes := s.sessions.reservedPanes.erase reservation.paneId }
  { s with sessions, reservations := s.reservations.erase reservation }

/-- `ParentSession`. -/
structure ParentSession where
  id : Str
  paneId : Str
  deriving DecidableEq

/-- `ParentRequest`. -/
inductive ParentRequest where
  | capability (paneId token : Str)
  | tmuxTarget (paneId : Str)

/-- `ParentRequest::pane_id`. -/
def ParentRequest.paneId : ParentRequest → Str
  | .capability paneId _ => paneId
  | .tmuxTarget paneId => paneId

/-- `ImplicitParentProof`. -/
structure ImplicitParentProof where
  parent : ParentSession
  leaderIdentity : ProcessIdentity

/-- `ParentSelection`. -/
inductive ParentSelection where
  | explicit (request : ParentRequest)
  | implicit (proof : ImplicitParentProof)

/-- `resolve_parent_session_locked`. -/
def resolveParentSessionLocked (s : State) (request : ParentRequest) : Option ParentSession :=
  match s.sessions.byPane.lookup request.paneId with
  | none => none
  | some id =>
    if (s.heap id).alive = false then none
    else
      match request with
      | .capability _ token =>
        if (s.heap id).parentToken ≠ token then none else some ⟨id, (s.heap id).paneId⟩
      | .tmuxTarget _ => some ⟨id, (s.heap id).paneId⟩

/-- `resolve_implicit_parent_locked`. -/
def resolveImplicitParentLocked (s : State) (proof : ImplicitParentProof) :
    Except ServerError ParentSession :=
  match s.sessions.byId.lookup proof.parent.id with
  | none => .error .selectedParentUnavailable
  | some id =>
    if (s.heap id).alive = false ∨ (s.heap id).paneId ≠ proof.parent.paneId ∨
        (s.heap id).leaderIdentity ≠ some proof.leaderIdentity then
      .error .selectedParentChanged
    else .ok proof.parent

/-- The parent `commit` records. -/
def resolveSelection (s : State) : Option ParentSelection → Except ServerError (Option ParentSession)
  | none => .ok none
  | some (.explicit request) =>
    match resolveParentSessionLocked s request with
    | none => .error (.parentUnavailable request.paneId)
    | some parent => .ok (some parent)
  | some (.implicit proof) => (resolveImplicitParentLocked s proof).map some

/-- The parent recorded in a session. -/
def recordParent (parent : Option ParentSession) (session : Session) : Session :=
  { session with
    parentPaneId := parent.map (·.paneId), parentSessionId := parent.map (·.id) }

/-- The second half of `SessionReservation::commit`: the parent recorded, the reservation turned into
the entries of the session. -/
def install (reservation : SessionReservation) (id : Str) (parent : Option ParentSession)
    (s : State) : State :=
  let s := s.modify id (recordParent parent)
  let sessions :=
    { byName := s.sessions.byName.insert reservation.name id
      byPane := s.sessions.byPane.insert (s.heap id).paneId id
      byId := s.sessions.byId.insert id id
      reservedNames := s.sessions.reservedNames.erase reservation.name
      reservedPanes := s.sessions.reservedPanes.erase reservation.paneId }
  { s with
    sessions, reservations := s.reservations.erase reservation
    history := { s.history with committed := id :: s.history.committed } }

/-- `SessionReservation::commit` of the session `id`. A reservation that fails to commit is dropped
only after the lock is released, by `dropReservation`. -/
def commit (reservation : SessionReservation) (id : Str) (selection : Option ParentSelection)
    (hook : List UnlockedAction) (s : State) : Except ServerError Unit × State :=
  if reservation.name ∉ s.sessions.reservedNames ∨
      reservation.paneId ∉ s.sessions.reservedPanes then
    (.error .reservationMissing, s)
  else if reservation.name ∈ s.sessions.byName ∨ (s.heap id).paneId ∈ s.sessions.byPane ∨
      id ∈ s.sessions.byId then
    (.error .idCollision, s)
  else
    match resolveSelection s selection with
    | .error e => (.error e, s)
    | .ok parent => (.ok (), install reservation id parent (interleave hook s))

/-- The `Session` that `new_session` builds around a reservation. -/
def newSession (reservation : SessionReservation) (statusTheme : Option StatusTheme)
    (parentToken : Str) (leaderIdentity : Option ProcessIdentity) : Session :=
  { metadata := .new reservation.name statusTheme, paneId := reservation.paneId,
    parentPaneId := none, parentSessionId := none, parentToken, leaderIdentity, alive := true,
    lifecycle := .default, cleanupStarted := false, cleanupComplete := false, dropped := false }

/-- A session allocated under the id drawn for it. -/
def allocate (id : Str) (session : Session) (s : State) : State :=
  { s with
    heap := Function.update s.heap id session
    history := { s.history with created := id :: s.history.created } }

/-! ### Metadata -/

/-- `reject_identity_mutation_while_ending`. -/
def rejectIdentityMutationWhileEnding (session : Session) : Except ServerError Unit :=
  match session.lifecycle.presentation with
  | .ending _ => .error .sessionEnding
  | _ => .ok ()

/-- `identity_commit_guard`. -/
def identityCommitGuard (session : Session) : Except ServerError Unit :=
  if session.lifecycle.identityCommitGuard then .ok () else .error .sessionEnding

/-- A session's metadata replaced. -/
def setMetadata (id : Str) (metadata : SessionMetadata) (s : State) : State :=
  s.modify id fun x => { x with metadata }

/-- `set_status_theme`. The result is the session whose `info` is returned. -/
def setStatusTheme (target : Str) (statusTheme : Option StatusTheme) (s : State) :
    Except ServerError Str × State :=
  let target := normalizeTarget target
  match s.sessions.resolveSessionLocked target with
  | none => (.error (.noSuchSession (sanitizedPreview target) true), s)
  | some id =>
    let metadata := (s.heap id).metadata
    if metadata.current.statusTheme ≠ statusTheme then
      match metadata.validateMetadataAppend with
      | .error e => (.error e, s)
      | .ok () =>
        let before := metadata.current
        let after := { name := before.name, statusTheme }
        (.ok id, setMetadata id (metadata.append ⟨.statusTheme, before, after⟩) s)
    else (.ok id, s)

/-- `rename_session`. -/
def renameSession (target newName : Str) (hook : List UnlockedAction) (s : State) :
    Except ServerError Str × State :=
  match validateSessionNameSyntax newName with
  | .error e => (.error e, s)
  | .ok () =>
    let target := normalizeTarget target
    match s.sessions.resolveSessionLocked target with
    | none => (.error (.noSuchSession (sanitizedPreview target) true), s)
    | some id =>
      let metadata := (s.heap id).metadata
      match rejectIdentityMutationWhileEnding (s.heap id) with
      | .error e => (.error e, s)
      | .ok () =>
        if metadata.current.name = newName then
          if s.sessions.namesSession newName id then (.ok id, s)
          else (.error (.nameIndexInconsistent (sanitizedPreview newName)), s)
        else if s.sessions.nameTaken newName id then
          (.error (.nameExists (sanitizedPreview newName)), s)
        else
          match metadata.validateMetadataAppend with
          | .error e => (.error e, s)
          | .ok () =>
            let oldName := metadata.current.name
            if !s.sessions.namesSession oldName id then
              (.error (.nameIndexInconsistent (sanitizedPreview oldName)), s)
            else
              let before := metadata.current
              let after := { name := newName, statusTheme := before.statusTheme }
              let s := interleave hook s
              match identityCommitGuard (s.heap id) with
              | .error e => (.error e, s)
              | .ok () =>
                let byName := (s.sessions.byName.erase oldName).insert newName id
                (.ok id, setMetadata id (metadata.append ⟨.rename, before, after⟩)
                  { s with sessions := { s.sessions with byName } })

/-- `validate_metadata_name_transition`. -/
def validateMetadataNameTransition (sessions : SessionMaps) (id currentName nextName : Str) :
    Except ServerError Unit :=
  if !sessions.namesSession currentName id then
    .error (.nameIndexInconsistent (sanitizedPreview currentName))
  else if currentName ≠ nextName then
    match validateSessionNameSyntax nextName with
    | .error e => .error e
    | .ok () =>
      if sessions.nameTaken nextName id then .error (.nameExists (sanitizedPreview nextName))
      else .ok ()
  else .ok ()

/-- `apply_metadata_name_transition`. -/
def applyMetadataNameTransition (sessions : SessionMaps) (id currentName nextName : Str) :
    SessionMaps :=
  if currentName = nextName then sessions
  else { sessions with byName := (sessions.byName.erase currentName).insert nextName id }

/-- `MetadataStepResult`. -/
structure MetadataStepResult where
  sessionId : Str
  paneId : Str
  direction : MetadataStepDirection
  applied : MetadataJournalEntry
  current : MetadataValue
  cursor : ℕ
  entryCount : ℕ

/-- `metadata_step`. -/
def metadataStep (target : Str) (direction : MetadataStepDirection) (hook : List UnlockedAction)
    (s : State) : Except ServerError MetadataStepResult × State :=
  let target := normalizeTarget target
  match s.sessions.resolveSessionLocked target with
  | none => (.error (.noSuchSession (sanitizedPreview target) false), s)
  | some id =>
    let metadata := (s.heap id).metadata
    match rejectIdentityMutationWhileEnding (s.heap id) with
    | .error e => (.error e, s)
    | .ok () =>
      match metadata.chooseMove direction with
      | .error e => (.error e, s)
      | .ok move =>
        if metadata.current ≠ move.expected then (.error (.currentMismatch direction), s)
        else
          match validateMetadataNameTransition s.sessions id metadata.current.name move.next.name with
          | .error e => (.error e, s)
          | .ok () =>
            let result :=
              { sessionId := id, paneId := (s.heap id).paneId, direction, applied := move.entry,
                current := move.next, cursor := move.nextCursor,
                entryCount := metadata.entries.length }
            let s := interleave hook s
            match identityCommitGuard (s.heap id) with
            | .error e => (.error e, s)
            | .ok () =>
              let sessions := applyMetadataNameTransition s.sessions id metadata.current.name
                move.next.name
              (.ok result, setMetadata id (metadata.moveTo move) { s with sessions })

/-- `MetadataPurgeResult`. -/
structure MetadataPurgeResult where
  sessionId : Str
  paneId : Str
  current : MetadataValue
  purgedEntries : ℕ
  cursor : ℕ
  entryCount : ℕ
  purge : MetadataPurgeAggregate

/-- `metadata_purge_history` at the time `nowUnixMs`. -/
def metadataPurgeHistory (target : Str) (irreversible : Bool) (claimedSessionId : Str)
    (nowUnixMs : ℕ) (s : State) : Except ServerError MetadataPurgeResult × State :=
  if !irreversible then (.error .purgeNotIrreversible, s)
  else
    match Uuid.parseStr claimedSessionId with
    | none => (.error .purgeNotCanonical, s)
    | some parsed =>
      if Uuid.hyphenated parsed ≠ claimedSessionId then (.error .purgeNotCanonical, s)
      else
        let target := normalizeTarget target
        match s.sessions.resolveSessionLocked target with
        | none => (.error (.noSuchSession (sanitizedPreview target) false), s)
        | some id =>
          if id ≠ claimedSessionId then (.error .purgeWrongSession, s)
          else
            let metadata := (s.heap id).metadata
            if metadata.entries.isEmpty then (.error .nothingToPurge, s)
            else
              match metadata.nextPurge nowUnixMs with
              | .error e => (.error e, s)
              | .ok purge =>
                let result :=
                  { sessionId := id, paneId := (s.heap id).paneId, current := metadata.current,
                    purgedEntries := metadata.entries.length, cursor := 0, entryCount := 0, purge }
                (.ok result, setMetadata id (metadata.purgeWith purge) s)

/-! ### Removal -/

/-- The part of `remove_session` on the session maps. -/
def removeFromMaps (id : Str) (session : Session) (sessions : SessionMaps) : SessionMaps :=
  { sessions with
    byName :=
      if sessions.byName.lookup session.name = some id then sessions.byName.erase session.name
      else sessions.byName
    byPane :=
      if sessions.byPane.lookup session.paneId = some id then sessions.byPane.erase session.paneId
      else sessions.byPane
    byId := if sessions.byId.lookup id = some id then sessions.byId.erase id else sessions.byId }

/-- `remove_session`; the hook is between the maps and the grants. -/
def removeSession (id : Str) (hook : List UnlockedAction) (s : State) : State :=
  let s := { s with sessions := removeFromMaps id (s.heap id) s.sessions }
  let s := interleave hook s
  { s with grants := retain (fun _ grant => grant.sessionId ≠ id) s.grants }

/-- The snapshot of `terminate_child_sessions`, as a multiset: a `HashMap` has no order. -/
def childrenOf (s : State) (id : Str) : Multiset Str :=
  (s.sessions.byPane.entries.map (·.2)).filter fun child =>
    (s.heap child).parentSessionId = some id

/-! ### Input capabilities -/

/-- `MAX_INPUT_CAPABILITIES`. -/
def maxInputCapabilities : ℕ := 1024

/-- `MAX_INPUT_CAPABILITIES_PER_SESSION`. -/
def maxInputCapabilitiesPerSession : ℕ := 64

/-- `MAX_INPUT_CAPABILITY_BUDGET`. -/
def maxInputCapabilityBudget : ℕ := 1024 * 1024

/-- The test of the `retain` in `issue_input_capability`. -/
def grantLives (s : State) (grant : InputCapabilityGrant) : Bool :=
  !(s.heap grant.sessionId).dropped && (s.heap grant.sessionId).alive

/-- The `retain` of `issue_input_capability` over the grants in the order it visits them, with what
other threads do before each visit. -/
def retainLiveInOrder : List (Str × List FreeAction) → State → State
  | [], s => s
  | (token, hook) :: order, s =>
    let s := interleaveFree hook s
    match s.grants.lookup token with
    | some grant =>
      if grantLives s grant then retainLiveInOrder order s
      else retainLiveInOrder order { s with grants := s.grants.erase token }
    | none => retainLiveInOrder order s

/-- The whole `retain`: the grants that `order` leaves out come last. -/
def retainLive (order : List (Str × List FreeAction)) (s : State) : State :=
  let s := retainLiveInOrder order s
  { s with
    grants := retain (fun token grant => (order.any (·.1 = token)) || grantLives s grant) s.grants }

/-- `issue_input_capability` with the token it draws. The first hook is between the check of `alive`
and the lock of the grants. -/
def issueInputCapability (target : Str) (byteBudget : ℕ) (token : Str) (hook : List UnlockedAction)
    (order : List (Str × List FreeAction)) (s : State) : Except ServerError Str × State :=
  if ¬(1 ≤ byteBudget ∧ byteBudget ≤ maxInputCapabilityBudget) then (.error .budgetOutOfRange, s)
  else
    let target := normalizeTarget target
    match s.sessions.resolveSessionLocked target with
    | none => (.error (.noSuchSession (sanitizedPreview target) true), s)
    | some id =>
      if (s.heap id).alive = false then (.error (.sessionNotAlive (sanitizedPreview target)), s)
      else
        let s := retainLive order (interleave hook s)
        if maxInputCapabilities ≤ size s.grants then (.error .tooManyCapabilities, s)
        else if maxInputCapabilitiesPerSession ≤ countValues (·.sessionId = id) s.grants then
          (.error .tooManyCapabilitiesForSession, s)
        else
          let issued := ⟨token, id, byteBudget⟩ :: s.history.issued
          (.ok token, { s with
            grants := s.grants.insert token ⟨id, byteBudget⟩
            history := { s.history with issued } })

end LightTerminal.Server.Operations
