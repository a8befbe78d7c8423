import LightTerminal.Server.Operations

/-! # Runs of the daemon

An `Action` is one atomic step of some thread: an operation on the session maps from the lock to its
release, a step that needs no lock of the maps, or the next use of the maps by a call of
`finalize_session`. `run` performs a list of them, so that results about all lists are results about
every interleaving of any number of threads.

An action that is not possible in a state leaves it as it is: a commit without a reservation, an id
or a token drawn twice, a snapshot that is not that of the maps.

* `Outcome`: what the four metadata operations can do. Either they fail, and then only what needs
  no lock has changed; or nothing had to be changed; or the metadata of one session is `Written`. -/

namespace LightTerminal.Server.Daemon

open LightTerminal.Data.Text LightTerminal.Library LightTerminal.Library.FiniteMap
open LightTerminal.Session.Lifecycle LightTerminal.Server.Error LightTerminal.Server.Metadata
open LightTerminal.Server.Model LightTerminal.Server.Concurrent LightTerminal.Server.Operations

/-- What a thread does next. -/
inductive Action where
  | reserve (requestedName : Option Str)
  /-- `new_session` from the draw of the id to the end of `commit` -/
  | commit (reservation : SessionReservation) (id : Str) (statusTheme : Option StatusTheme)
      (parentToken : Str) (leaderIdentity : Option ProcessIdentity)
      (selection : Option ParentSelection) (hook : List UnlockedAction)
  | dropReservation (reservation : SessionReservation)
  | setStatusTheme (target : Str) (statusTheme : Option StatusTheme)
  | rename (target newName : Str) (hook : List UnlockedAction)
  | metadataStep (target : Str) (direction : MetadataStepDirection) (hook : List UnlockedAction)
  | purgeHistory (target : Str) (irreversible : Bool) (claimedSessionId : Str) (nowUnixMs : ℕ)
  | removeSession (id : Str) (hook : List UnlockedAction)
  | issue (target : Str) (byteBudget : ℕ) (token : Str) (hook : List UnlockedAction)
      (order : List (Str × List FreeAction))
  | unlocked (action : UnlockedAction)
  /-- a call of `finalize_session` on a thread that has none -/
  | finalize (thread : ℕ) (id : Str) (trigger : FinalizeTrigger)
  /-- the snapshot of `terminate_child_sessions`, in the order of the map -/
  | snapshotChildren (thread : ℕ) (order : List Str)
  /-- `remove_session` of a call of `finalize_session` -/
  | finalizeRemove (thread : ℕ) (hook : List UnlockedAction)

/-- An action performed. -/
def step (s : State) : Action → State
  | .reserve requestedName => (reserveSessionIdentity requestedName s).2
  | .commit reservation id statusTheme parentToken leaderIdentity selection hook =>
    if reservation ∈ s.reservations ∧ id ∉ s.history.created then
      (commit reservation id selection hook
        (allocate id (newSession reservation statusTheme parentToken leaderIdentity) s)).2
    else s
  | .dropReservation reservation =>
    if reservation ∈ s.reservations then dropReservation reservation s else s
  | .setStatusTheme target statusTheme => (setStatusTheme target statusTheme s).2
  | .rename target newName hook => (renameSession target newName hook s).2
  | .metadataStep target direction hook => (metadataStep target direction hook s).2
  | .purgeHistory target irreversible claimedSessionId nowUnixMs =>
    (metadataPurgeHistory target irreversible claimedSessionId nowUnixMs s).2
  | .removeSession id hook => removeSession id hook s
  | .issue target byteBudget token hook order =>
    if token ∉ s.history.issued.map (·.token) then
      (issueInputCapability target byteBudget token hook order s).2
    else s
  | .unlocked action => action.step s
  | .finalize thread id trigger =>
    if s.threads thread = [] ∧ id ∈ s.history.committed then
      s.setThread thread [⟨id, .claiming trigger⟩]
    else s
  | .snapshotChildren thread order =>
    match s.threads thread with
    | ⟨id, .cleaning⟩ :: below =>
      if (order : Multiset Str) = childrenOf s id then
        s.setThread thread (⟨id, .children order⟩ :: below)
      else s
    | _ => s
  | .finalizeRemove thread hook =>
    match s.threads thread with
    | ⟨id, .removing⟩ :: below =>
      (removeSession id hook s).setThread thread (⟨id, .completing⟩ :: below)
    | _ => s

/-- The state after a list of actions. -/
def run (s : State) (actions : List Action) : State := Run.run step s actions

/-! ### The metadata operations -/

/-- A new entry at the tip of the journal. -/
def Appends (m m' : SessionMetadata) : Prop :=
  ∃ entry, m.validateMetadataAppend = .ok () ∧ entry.before = m.current ∧ m' = m.append entry

/-- A move of the cursor over an entry that fits the current value. -/
def Moves (direction : MetadataStepDirection) (m m' : SessionMetadata) : Prop :=
  ∃ move, m.chooseMove direction = .ok move ∧ m.current = move.expected ∧ m' = m.moveTo move

/-- The journal emptied. -/
def Purges (m m' : SessionMetadata) : Prop := ∃ purge, m' = m.purgeWith purge

/-- A change of the metadata of one session. -/
inductive Change (m m' : SessionMetadata) : Prop where
  | append (h : Appends m m')
  | move (direction : MetadataStepDirection) (h : Moves direction m m')
  | purge (h : Purges m m')

/-- The metadata of the session `id` in the maps becomes `m`, after what other threads do. A new
name was free, and is the name of the session in the maps afterwards; only an unclaimed session gets
one. -/
structure Written (s s' : State) (id : Str) (m : SessionMetadata) : Prop where
  target : ∃ target, s.sessions.resolveSessionLocked target = some id
  change : Change (s.heap id).metadata m
  state : ∃ hook, s' = setMetadata id m { interleave hook s with
    sessions := applyMetadataNameTransition s.sessions id (s.heap id).name m.current.name }
  free : m.current.name ≠ (s.heap id).name → s.sessions.nameTaken m.current.name id = false
  named : m.current.name ≠ (s.heap id).name → s.sessions.namesSession (s.heap id).name id = true
  unclaimed : m.current.name ≠ (s.heap id).name → (s.heap id).lifecycle.authority = none

/-- A change that keeps the name leaves the maps alone. -/
theorem Written.of_name_eq {s : State} {target id : Str} {m : SessionMetadata}
    (htarget : s.sessions.resolveSessionLocked target = some id)
    (hchange : Change (s.heap id).metadata m) (hname : m.current.name = (s.heap id).name) :
    Written s (setMetadata id m s) id m := by
  refine ⟨⟨target, htarget⟩, hchange, ⟨[], ?_⟩, fun h => absurd hname h,
    fun h => absurd hname h, fun h => absurd hname h⟩
  rw [applyMetadataNameTransition, if_pos hname.symm]
  rfl

/-- What other threads do meanwhile, without its details. -/
theorem Written.unlocked {s s' : State} {id : Str} {m : SessionMetadata} (h : Written s s' id m) :
    ∃ s₁, Unlocked s s₁ ∧ s' = setMetadata id m { s₁ with
      sessions := applyMetadataNameTransition s.sessions id (s.heap id).name m.current.name } := by
  obtain ⟨hook, hs'⟩ := h.state
  exact ⟨interleave hook s, interleave_unlocked hook s, hs'⟩

/-- What a metadata operation can end with: `owner` is the session that its result names, `idle`
says whether it may find nothing to change, and `change` is what it does to the metadata. -/
inductive Outcome {α : Type} (owner : α → Str) (idle : Prop)
    (change : SessionMetadata → SessionMetadata → Prop) (s : State) :
    Except ServerError α × State → Prop where
  | failed (e : ServerError) (hook : List UnlockedAction) :
      Outcome owner idle change s (.error e, interleave hook s)
  | kept (v : α) (h : idle) : Outcome owner idle change s (.ok v, s)
  | written (v : α) (s' : State) (m : SessionMetadata) (h : Written s s' (owner v) m)
      (hchange : change (s.heap (owner v)).metadata m) : Outcome owner idle change s (.ok v, s')

section Outcome
variable {α : Type} {owner : α → Str} {idle : Prop}
  {change : SessionMetadata → SessionMetadata → Prop}

theorem Outcome.refused (s : State) (e : ServerError) :
    Outcome owner idle change s (.error e, s) := .failed e []

end Outcome

theorem identityCommitGuard_ok {x : Session} (h : identityCommitGuard x = .ok ()) :
    x.lifecycle.authority = none := by
  unfold identityCommitGuard at h
  split_ifs at h with hg
  rw [PublicationState.identityCommitGuard_eq] at hg
  exact Option.isNone_iff_eq_none.mp hg

theorem setStatusTheme_outcome (target : Str) (statusTheme : Option StatusTheme) (s : State) :
    Outcome id True Appends s (setStatusTheme target statusTheme s) := by
  unfold setStatusTheme
  dsimp only
  split
  · exact .refused s _
  · next id hid =>
    by_cases htheme : (s.heap id).metadata.current.statusTheme = statusTheme
    · rw [if_neg (not_not.mpr htheme)]
      exact .kept id trivial
    · rw [if_pos htheme]
      split
      · exact .refused s _
      · next hv =>
        have hchange : Appends (s.heap id).metadata ((s.heap id).metadata.append ⟨.statusTheme,
            (s.heap id).metadata.current, (s.heap id).metadata.current.name, statusTheme⟩) :=
          ⟨_, hv, rfl, rfl⟩
        exact .written id _ _ (.of_name_eq hid (.append hchange) rfl) hchange

theorem renameSession_outcome (target newName : Str) (hook : List UnlockedAction) (s : State) :
    Outcome id True Appends s (renameSession target newName hook s) := by
  unfold renameSession
  split
  · exact .refused s _
  dsimp only
  split
  · exact .refused s _
  next id hid =>
  split
  · exact .refused s _
  by_cases hsame : (s.heap id).metadata.current.name = newName
  · rw [if_pos hsame]
    split_ifs
    · exact .kept id trivial
    · exact .refused s _
  rw [if_neg hsame]
  by_cases htaken : s.sessions.nameTaken newName id = true
  · rw [if_pos htaken]
    exact .refused s _
  rw [if_neg htaken]
  split
  · exact .refused s _
  next hv =>
  by_cases hnamed : s.sessions.namesSession (s.heap id).metadata.current.name id = true
  case neg =>
    rw [if_pos (by simpa using hnamed)]
    exact .refused s _
  rw [if_neg (by simpa using hnamed)]
  have hook_unlocked := interleave_unlocked hook s
  split
  · exact .failed _ hook
  next hguard =>
  have hchange : Appends (s.heap id).metadata ((s.heap id).metadata.append ⟨.rename,
      (s.heap id).metadata.current, newName, (s.heap id).metadata.current.statusTheme⟩) :=
    ⟨_, hv, rfl, rfl⟩
  refine .written id _ _ ⟨⟨_, hid⟩, .append hchange, ⟨hook, ?_⟩, ?_, ?_, ?_⟩ hchange
  · have htransition : applyMetadataNameTransition s.sessions id (s.heap id).name newName =
        { s.sessions with byName := (s.sessions.byName.erase (s.heap id).name).insert newName id } :=
      if_neg hsame
    rw [hook_unlocked.sessions]
    exact congrArg (fun sessions => setMetadata id _ { interleave hook s with sessions })
      htransition.symm
  · intro _
    exact Bool.eq_false_of_not_eq_true htaken
  · intro _
    exact hnamed
  · intro _
    exact hook_unlocked.authority_eq_none (identityCommitGuard_ok hguard)

theorem validateMetadataNameTransition_ok {sessions : SessionMaps} {id currentName nextName : Str}
    (h : validateMetadataNameTransition sessions id currentName nextName = .ok ()) :
    sessions.namesSession currentName id = true ∧
      (nextName ≠ currentName → sessions.nameTaken nextName id = false) := by
  unfold validateMetadataNameTransition at h
  split_ifs at h with h1 h2 h3
  · split at h <;> cases h
  · exact ⟨by simpa using h1, fun _ => by simpa using h3⟩
  · exact ⟨by simpa using h1, fun hne => absurd (not_not.mp h2).symm hne⟩

theorem metadataStep_outcome (target : Str) (direction : MetadataStepDirection)
    (hook : List UnlockedAction) (s : State) :
    Outcome (·.sessionId) False (Moves direction) s
      (metadataStep target direction hook s) := by
  unfold metadataStep
  dsimp only
  split
  · exact .refused s _
  next id hid =>
  split
  · exact .refused s _
  split
  · exact .refused s _
  next move hmove =>
  by_cases hexpected : (s.heap id).metadata.current = move.expected
  case neg =>
    rw [if_pos hexpected]
    exact .refused s _
  rw [if_neg (not_not.mpr hexpected)]
  split
  · exact .refused s _
  next hname =>
  obtain ⟨hnamed, hfree⟩ := validateMetadataNameTransition_ok hname
  have hook_unlocked := interleave_unlocked hook s
  split
  · exact .failed _ hook
  next hguard =>
  have hchange : Moves direction (s.heap id).metadata ((s.heap id).metadata.moveTo move) :=
    ⟨move, hmove, hexpected, rfl⟩
  refine .written _ _ _ ⟨⟨_, hid⟩, .move direction hchange, ⟨hook, ?_⟩, hfree, fun _ => hnamed,
    fun _ => ?_⟩ hchange
  · rw [hook_unlocked.sessions]
    rfl
  · exact hook_unlocked.authority_eq_none (identityCommitGuard_ok hguard)

theorem metadataPurgeHistory_outcome (target : Str) (irreversible : Bool) (claimedSessionId : Str)
    (nowUnixMs : ℕ) (s : State) :
    Outcome (·.sessionId) False Purges s
      (metadataPurgeHistory target irreversible claimedSessionId nowUnixMs s) := by
  unfold metadataPurgeHistory
  split_ifs
  · exact .refused s _
  split
  · exact .refused s _
  split_ifs
  · exact .refused s _
  dsimp only
  split
  · exact .refused s _
  next id hid =>
  split_ifs
  · exact .refused s _
  · exact .refused s _
  split
  · exact .refused s _
  next purge _ =>
  have hchange : Purges (s.heap id).metadata ((s.heap id).metadata.purgeWith purge) := ⟨purge, rfl⟩
  exact .written _ _ _ (.of_name_eq hid (.purge hchange) rfl) hchange

/-! ### Every action -/

/-- The identity of a reservation is free, and there is room for it. -/
structure Available (sessions : SessionMaps) (r : SessionReservation) : Prop where
  name : r.name ∉ sessions.byName ∧ r.name ∉ sessions.reservedNames
  pane : r.paneId ∉ sessions.byPane ∧ r.paneId ∉ sessions.reservedPanes
  room : size sessions.byPane + sessions.reservedPanes.card < maxSessions

/-- What one action can do to the maps, the sessions and the reservations; `writes` says whether it
may write metadata. -/
inductive Effect (writes : Prop) (s : State) : State → Prop where
  | beside {s' : State} (h : Unlocked s s') : Effect writes s s'
  | reserved {r : SessionReservation} (h : Available s.sessions r) : Effect writes s (reserve r s)
  | released {r : SessionReservation} (h : r ∈ s.reservations) :
      Effect writes s (dropReservation r s)
  | allocated {r : SessionReservation} {id : Str} {theme : Option StatusTheme} {token : Str}
      {leader : Option ProcessIdentity} (fresh : id ∉ s.history.created) :
      Effect writes s (allocate id (newSession r theme token leader) s)
  | committed {r : SessionReservation} {id : Str} {theme : Option StatusTheme} {token : Str}
      {leader : Option ProcessIdentity} {selection : Option ParentSelection}
      {parent : Option ParentSession} {s₁ : State} (hr : r ∈ s.reservations)
      (fresh : id ∉ s.history.created)
      (resolved : resolveSelection (allocate id (newSession r theme token leader) s) selection =
        .ok parent)
      (h : Unlocked (allocate id (newSession r theme token leader) s) s₁) :
      Effect writes s (install r id parent s₁)
  | written {s' : State} {id : Str} {m : SessionMetadata} (hw : writes) (h : Written s s' id m) :
      Effect writes s s'
  | removed {s' : State} {id : Str}
      (h : Unlocked { s with sessions := removeFromMaps id (s.heap id) s.sessions } s') :
      Effect writes s s'

theorem Outcome.effect {α : Type} {owner : α → Str} {idle : Prop}
    {change : SessionMetadata → SessionMetadata → Prop} {s : State}
    {r : Except ServerError α × State} (h : Outcome owner idle change s r) : Effect True s r.2 := by
  cases h with
  | failed e hook => exact .beside (interleave_unlocked hook s)
  | kept v => exact .beside (.refl s)
  | written v s' m h hchange => exact .written trivial h

theorem selectIdentity_some {sessions : SessionMaps} {requestedName : Option Str}
    {r : SessionReservation} (h : selectIdentity sessions requestedName = some r) :
    r.paneId ∉ sessions.byPane ∧ r.paneId ∉ sessions.reservedPanes ∧
      (requestedName = none → r.name ∉ sessions.byName ∧ r.name ∉ sessions.reservedNames) ∧
      ∀ name, requestedName = some name → r.name = name := by
  unfold selectIdentity at h
  obtain ⟨n, -, hn⟩ := List.exists_of_findSome?_eq_some h
  dsimp only at hn
  split_ifs at hn with hpane hname
  cases hn
  rw [not_or] at hpane
  refine ⟨hpane.1, hpane.2, ?_, ?_⟩
  · rintro rfl
    simpa [not_or] using hname
  · rintro name rfl
    rfl

theorem reserveSessionIdentity_effect (requestedName : Option Str) (s : State) :
    Effect False s (reserveSessionIdentity requestedName s).2 := by
  unfold reserveSessionIdentity
  split
  · exact .beside (.refl s)
  by_cases hroom : maxSessions ≤ size s.sessions.byPane + s.sessions.reservedPanes.card
  · rw [if_pos hroom]
    exact .beside (.refl s)
  rw [if_neg hroom]
  by_cases hexists : ∃ name ∈ requestedName,
      name ∈ s.sessions.byName ∨ name ∈ s.sessions.reservedNames
  · rw [if_pos hexists]
    exact .beside (.refl s)
  rw [if_neg hexists]
  split
  · exact .beside (.refl s)
  next r hr =>
  obtain ⟨hpane, hpane', hauto, hrequested⟩ := selectIdentity_some hr
  refine .reserved ⟨?_, ⟨hpane, hpane'⟩, Nat.lt_of_not_le hroom⟩
  cases hname : requestedName with
  | none => exact hauto hname
  | some name =>
    rw [hrequested name hname]
    rw [← not_or]
    exact fun h => hexists ⟨name, hname, h⟩

theorem commit_effect {r : SessionReservation} {id : Str} {s : State} (hr : r ∈ s.reservations)
    (fresh : id ∉ s.history.created) (theme : Option StatusTheme) (token : Str)
    (leader : Option ProcessIdentity) (selection : Option ParentSelection)
    (hook : List UnlockedAction) :
    Effect False s
      (commit r id selection hook (allocate id (newSession r theme token leader) s)).2 := by
  unfold commit
  split_ifs
  · exact .allocated fresh
  · exact .allocated fresh
  · split
    · exact .allocated fresh
    · next hresolved => exact .committed hr fresh hresolved (interleave_unlocked hook _)

theorem removeSession_unlocked (id : Str) (hook : List UnlockedAction) (s : State) :
    Unlocked { s with sessions := removeFromMaps id (s.heap id) s.sessions }
      (removeSession id hook s) := by
  have h := interleave_unlocked hook { s with sessions := removeFromMaps id (s.heap id) s.sessions }
  exact ⟨h.sessions, h.reservations, h.journal, h.heap, h.created, h.committed⟩

theorem retainLiveInOrder_unlocked : ∀ (order : List (Str × List FreeAction)) (s : State),
    Unlocked s (retainLiveInOrder order s)
  | [], s => .refl s
  | (token, hook) :: order, s => by
    have h := (interleaveFree_free hook s).toUnlocked
    unfold retainLiveInOrder
    dsimp only
    split
    · split_ifs
      · exact h.trans (retainLiveInOrder_unlocked order _)
      · refine h.trans (.trans ?_ (retainLiveInOrder_unlocked order _))
        exact ⟨rfl, rfl, rfl, fun _ => .refl _, rfl, rfl⟩
    · exact h.trans (retainLiveInOrder_unlocked order _)

theorem retainLive_unlocked (order : List (Str × List FreeAction)) (s : State) :
    Unlocked s (retainLive order s) := by
  have h := retainLiveInOrder_unlocked order s
  exact ⟨h.sessions, h.reservations, h.journal, h.heap, h.created, h.committed⟩

theorem issueInputCapability_unlocked (target : Str) (byteBudget : ℕ) (token : Str)
    (hook : List UnlockedAction) (order : List (Str × List FreeAction)) (s : State) :
    Unlocked s (issueInputCapability target byteBudget token hook order s).2 := by
  have h := (interleave_unlocked hook s).trans (retainLive_unlocked order _)
  unfold issueInputCapability
  by_cases hbudget : 1 ≤ byteBudget ∧ byteBudget ≤ maxInputCapabilityBudget
  case neg =>
    rw [if_pos hbudget]
    exact .refl s
  rw [if_neg (not_not.mpr hbudget)]
  dsimp only
  split
  · exact .refl s
  split_ifs
  · exact .refl s
  · exact h
  · exact h
  · exact ⟨h.sessions, h.reservations, h.journal, h.heap, h.created, h.committed⟩

/-- The action is one of the four metadata operations. -/
def Action.WritesMetadata : Action → Prop
  | .setStatusTheme .. => True
  | .rename .. => True
  | .metadataStep .. => True
  | .purgeHistory .. => True
  | _ => False

/-- **Every action has one of the effects.** -/
theorem step_effect (s : State) (a : Action) : Effect a.WritesMetadata s (step s a) := by
  cases a with
  | reserve requestedName => exact reserveSessionIdentity_effect requestedName s
  | commit r id theme token leader selection hook =>
    rw [step]
    split_ifs with h
    · exact commit_effect h.1 h.2 theme token leader selection hook
    · exact .beside (.refl s)
  | dropReservation r =>
    rw [step]
    split_ifs with h
    · exact .released h
    · exact .beside (.refl s)
  | setStatusTheme target theme => exact (setStatusTheme_outcome target theme s).effect
  | rename target newName hook => exact (renameSession_outcome target newName hook s).effect
  | metadataStep target direction hook =>
    exact (metadataStep_outcome target direction hook s).effect
  | purgeHistory target irreversible claimed now =>
    exact (metadataPurgeHistory_outcome target irreversible claimed now s).effect
  | removeSession id hook => exact .removed (removeSession_unlocked id hook s)
  | issue target byteBudget token hook order =>
    rw [step]
    split_ifs
    · exact .beside (.refl s)
    · exact .beside (issueInputCapability_unlocked target byteBudget token hook order s)
  | unlocked action => exact .beside (UnlockedAction.step_unlocked s action)
  | finalize thread id trigger =>
    rw [step]
    split_ifs
    · exact .beside ((Unlocked.refl s).setThread thread _)
    · exact .beside (.refl s)
  | snapshotChildren thread order =>
    rw [step]
    split
    · split_ifs
      · exact .beside ((Unlocked.refl s).setThread thread _)
      · exact .beside (.refl s)
    · exact .beside (.refl s)
  | finalizeRemove thread hook =>
    rw [step]
    split
    · next id below _ => exact .removed ((removeSession_unlocked id hook s).setThread thread _)
    · exact .beside (.refl s)

end LightTerminal.Server.Daemon
