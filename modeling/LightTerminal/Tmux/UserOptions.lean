import LightTerminal.Library.Run
import LightTerminal.Session.Segment
import LightTerminal.Tmux.Store

/-! # tmux user options

An option belongs to an identity, the immutable id of a live session, in one of two scopes. Setting
one counts identities and entries over both scopes; whatever takes a snapshot of the live sessions
drops the options of the others.

* every store that the commands leave keeps the limits (`Limits`), and a command that fails leaves the
  file alone;
* a value stays until its own entry is set or unset, its identity is forgotten, or a snapshot lacks its
  identity (`Spares`);
* the limits of the entries do not bound the file: 64 sessions with 64 options of 4096 bytes each are
  within all of them, and the store refuses to be that long (`refused_within_limits`). -/

namespace LightTerminal.Tmux.UserOptions

open LightTerminal.Data.Text LightTerminal.Library LightTerminal.Library.FiniteMap
open LightTerminal.Library.Run LightTerminal.Tmux.Store
open LightTerminal.Session.Segment (terminalText)

/-! ## The source -/

/-- `USER_OPTION_NAME_MAX_BYTES`. -/
def USER_OPTION_NAME_MAX_BYTES : ℕ := 128

/-- `USER_OPTION_VALUE_MAX_BYTES`. -/
def USER_OPTION_VALUE_MAX_BYTES : ℕ := 4096

/-- `USER_OPTIONS_PER_IDENTITY_MAX`. -/
def USER_OPTIONS_PER_IDENTITY_MAX : ℕ := 64

/-- `USER_OPTION_IDENTITIES_MAX`. -/
def USER_OPTION_IDENTITIES_MAX : ℕ := 512

/-- `USER_OPTION_ENTRIES_MAX`. -/
def USER_OPTION_ENTRIES_MAX : ℕ := 4096

/-- What the commands read of a `SessionInfo`. -/
structure SessionInfo where
  id : Str
  name : Str
  paneId : Str
  parentSessionId : Option Str
deriving DecidableEq

/-- What `mutate_user_option` and `read_user_option` read of `UserOptionArgs`. -/
structure UserOptionArgs where
  pane : Bool
  unset : Bool
  target : Option Str
  name : Str
  value : Option Str
deriving DecidableEq

/-- What an operation reads from its surroundings: the answer of `client::list_sessions` and
`default_target`. -/
structure Surroundings where
  sessions : Except Str (List SessionInfo)
  defaultTarget : Str

/-- `validate_user_option_name`. -/
def validateUserOptionName (name : Str) : Except Str Unit :=
  if byteLen name < 2 ∨ USER_OPTION_NAME_MAX_BYTES < byteLen name ∨ name.head? ≠ some '@' ∨
      ¬ (name.drop 1).all fun ch => isAsciiAlphanumeric ch || ch ∈ ['_', '.', ':', '-'] then
    .error "invalid tmux user-option name".toList
  else .ok ()

/-- `UNICODE_FORMAT_RANGES`. -/
def UNICODE_FORMAT_RANGES : List (ℕ × ℕ) :=
  [(0x00ad, 0x00ad), (0x0600, 0x0605), (0x061c, 0x061c), (0x06dd, 0x06dd), (0x070f, 0x070f),
    (0x0890, 0x0891), (0x08e2, 0x08e2), (0x180e, 0x180e), (0x200b, 0x200f), (0x202a, 0x202e),
    (0x2060, 0x2064), (0x2066, 0x206f), (0xfeff, 0xfeff), (0xfff9, 0xfffb), (0x110bd, 0x110bd),
    (0x110cd, 0x110cd), (0x13430, 0x1343f), (0x1bca0, 0x1bca3), (0x1d173, 0x1d17a),
    (0xe0001, 0xe0001), (0xe0020, 0xe007f)]

/-- `is_unsafe_user_option_char`. -/
def isUnsafeUserOptionChar (ch : Char) : Bool :=
  let inRanges (ranges : List (ℕ × ℕ)) : Bool :=
    ranges.any fun range => decide (range.1 ≤ ch.toNat) && decide (ch.toNat ≤ range.2)
  isControl ch || inRanges UNICODE_FORMAT_RANGES ||
    decide (ch.toNat ∈ [0x00ad, 0x034f, 0x061c, 0x115f, 0x1160, 0x17b4, 0x17b5, 0x2028, 0x2029,
      0x3164, 0xfeff, 0xffa0]) ||
    inRanges [(0x180b, 0x180f), (0x200b, 0x200f), (0x202a, 0x202e), (0x2060, 0x206f),
      (0xfe00, 0xfe0f), (0x1bca0, 0x1bca3), (0x1d173, 0x1d17a), (0xe0000, 0xe0fff)]

/-- `validate_user_option_value`. -/
def validateUserOptionValue (value : Str) : Except Str Unit :=
  if byteLen value > USER_OPTION_VALUE_MAX_BYTES then
    .error ("tmux user-option value exceeds ".toList ++ decimal USER_OPTION_VALUE_MAX_BYTES ++
      " bytes".toList)
  else if value.any isUnsafeUserOptionChar then
    .error "tmux user-option value contains a control or format character".toList
  else .ok ()

/-- `target.split_once(':')`. -/
def splitOnceColon (target : Str) : Option (Str × Str) :=
  if ':' ∈ target then
    some (target.takeWhile (· ≠ ':'), (target.dropWhile (· ≠ ':')).drop 1)
  else none

/-- `tmux_window_target_session`. -/
def tmuxWindowTargetSession (target : Str) : Option Str :=
  match splitOnceColon target with
  | none => none
  | some (session, window) => if session = [] ∨ window ≠ ['0'] then none else some session

/-- `reject_unsupported_tmux_window_target`. -/
def rejectUnsupportedTmuxWindowTarget (target : Str) : Except Str Unit :=
  match splitOnceColon target with
  | none => .ok ()
  | some (session, window) =>
    if session ≠ [] ∧ window = ['0'] then .ok ()
    else
      .error ("unsupported tmux window target in lterm compat: ".toList ++ terminalText target ++
        ". lterm supports bare session targets and session:0 only.".toList)

/-- `normalize_tmux_target`. -/
def normalizeTmuxTarget (target : Str) : Except Str Str :=
  match rejectUnsupportedTmuxWindowTarget target with
  | .error err => .error err
  | .ok () => .ok ((tmuxWindowTargetSession target).getD target)

/-- `target_matches_info`. -/
def targetMatchesInfo (target : Str) (info : SessionInfo) : Bool :=
  decide (target = info.name) || decide (target = info.paneId) || decide (target = info.id) ||
    (decide (target.head? ≠ some '%') && decide (target ≠ []) &&
      decide ('%' :: target = info.paneId))

/-- `by_id.get`: of several sessions with one id the last is in the map. -/
def byId (sessions : List SessionInfo) (id : Str) : Option SessionInfo :=
  sessions.reverse.find? fun session => decide (session.id = id)

/-- The loop of `root_session_identity_from_snapshot`. A turn adds an id to those seen, so there are
no more turns than sessions, and one. -/
def rootLoop (sessions : List SessionInfo) : ℕ → List Str → SessionInfo → Except Str Str
  | 0, _, _ => .error "tmux user-option target has a cyclic parent chain".toList
  | fuel + 1, seen, info =>
    match info.parentSessionId with
    | none => .ok info.id
    | some parentId =>
      if info.id ∈ seen then .error "tmux user-option target has a cyclic parent chain".toList
      else
        match byId sessions parentId with
        | none =>
          .error ("tmux user-option parent identity ".toList ++ terminalText parentId ++
            " is unavailable".toList)
        | some info' => rootLoop sessions fuel (info.id :: seen) info'

/-- `root_session_identity_from_snapshot`. -/
def rootSessionIdentityFromSnapshot (info : SessionInfo) (sessions : List SessionInfo) :
    Except Str Str :=
  rootLoop sessions (sessions.length + 2) [] info

/-- `user_option_identity_from_snapshot`. -/
def userOptionIdentityFromSnapshot (defaultTarget : Str) (args : UserOptionArgs)
    (sessions : List SessionInfo) : Except Str Str :=
  match normalizeTmuxTarget (args.target.getD defaultTarget) with
  | .error err => .error err
  | .ok target =>
    match sessions.find? (targetMatchesInfo target) with
    | none =>
      .error ("tmux user-option target ".toList ++ terminalText target ++ " is unavailable".toList)
    | some info =>
      if args.pane then .ok info.id else rootSessionIdentityFromSnapshot info sessions

/-- The identities of a snapshot. -/
def liveIdentities (sessions : List SessionInfo) : List Str := sessions.map SessionInfo.id

/-- The options of the pane scope, or of the session scope. -/
def scope (pane : Bool) (store : CompatStore) : UserOptions :=
  if pane then store.paneUserOptions else store.sessionUserOptions

/-- The store with the options of one scope replaced. -/
def setScope (pane : Bool) (options : UserOptions) (store : CompatStore) : CompatStore :=
  if pane then { store with paneUserOptions := options }
  else { store with sessionUserOptions := options }

/-- The options that `prune_user_options` keeps of a scope. -/
def pruneScope (live : List Str) (options : UserOptions) : UserOptions :=
  retain (fun identity options => decide (identity ∈ live) && decide (size options ≠ 0)) options

/-- `prune_user_options`. -/
def pruneUserOptions (live : List Str) (store : CompatStore) : CompatStore :=
  { store with
    paneUserOptions := pruneScope live store.paneUserOptions
    sessionUserOptions := pruneScope live store.sessionUserOptions }

/-- `user_option_identity_count`. -/
def userOptionIdentityCount (store : CompatStore) : ℕ :=
  (store.paneUserOptions.keys ∪ store.sessionUserOptions.keys).card

/-- `user_option_entry_count`. -/
def userOptionEntryCount (store : CompatStore) : ℕ :=
  total size store.paneUserOptions + total size store.sessionUserOptions

/-- The options of one identity in one scope. -/
def optionsOf (options : UserOptions) (identity : Str) : Map Str Str :=
  (options.lookup identity).getD ∅

/-- The value of an option. -/
def valueOf (store : CompatStore) (pane : Bool) (identity name : Str) : Option Str :=
  ((scope pane store).lookup identity).bind fun options => options.lookup name

/-- The removal of an option from a scope, and of an identity without options. -/
def unsetOption (identity name : Str) (options : UserOptions) : UserOptions :=
  match options.lookup identity with
  | none => options
  | some identityOptions =>
    let identityOptions := identityOptions.erase name
    if size identityOptions = 0 then options.erase identity
    else options.insert identity identityOptions

/-- The refusals of a new option. -/
def checkLimits (identity : Str) (store : CompatStore) : Except Str Unit :=
  if ¬ (identity ∈ store.paneUserOptions ∨ identity ∈ store.sessionUserOptions) ∧
      USER_OPTION_IDENTITIES_MAX ≤ userOptionIdentityCount store then
    .error "tmux user-option identity limit reached".toList
  else if USER_OPTION_ENTRIES_MAX ≤ userOptionEntryCount store then
    .error "tmux user-option entry limit reached".toList
  else if USER_OPTIONS_PER_IDENTITY_MAX ≤
      size (optionsOf store.paneUserOptions identity) +
        size (optionsOf store.sessionUserOptions identity) then
    .error "tmux user-option per-identity limit reached".toList
  else .ok ()

/-- The store with an option set. -/
def withOption (pane : Bool) (identity name value : Str) (store : CompatStore) : CompatStore :=
  setScope pane ((scope pane store).insert identity
    ((optionsOf (scope pane store) identity).insert name value)) store

/-- The change that `mutate_user_option` makes of a pruned store. -/
def mutate (args : UserOptionArgs) (identity : Str) (store : CompatStore) :
    Except Str CompatStore :=
  if args.unset then
    .ok (setScope args.pane (unsetOption identity args.name (scope args.pane store)) store)
  else
    match args.value with
    | none => .error "tmux user option value missing".toList
    | some value =>
      if (valueOf store args.pane identity args.name).isSome then
        .ok (withOption args.pane identity args.name value store)
      else
        match checkLimits identity store with
        | .error err => .error err
        | .ok () => .ok (withOption args.pane identity args.name value store)

/-- The identity of an operation under the lock, with the snapshot that it was found in. -/
def snapshotIdentity (io : Io) (around : Surroundings) (args : UserOptionArgs) :
    Except Str (List SessionInfo × Str) :=
  match io.lock with
  | some err => .error err
  | none =>
    match around.sessions with
    | .error err => .error err
    | .ok sessions =>
      match userOptionIdentityFromSnapshot around.defaultTarget args sessions with
      | .error err => .error err
      | .ok identity => .ok (sessions, identity)

/-- `mutate_user_option`. -/
def mutateUserOption (io : Io) (around : Surroundings) (args : UserOptionArgs) (file : StoreFile) :
    StoreFile × Except Str Unit :=
  match snapshotIdentity io around args with
  | .error err => (file, .error err)
  | .ok (sessions, identity) =>
    changeStore io (fun store =>
      match mutate args identity (pruneUserOptions (liveIdentities sessions) store) with
      | .error err => .error err
      | .ok store => .ok (store, ())) file

/-- `set_option` after its arguments are parsed. -/
def setOption (io : Io) (around : Surroundings) (args : UserOptionArgs) (file : StoreFile) :
    StoreFile × Except Str Unit :=
  match validateUserOptionName args.name with
  | .error err => (file, .error err)
  | .ok () =>
    match args.value with
    | none => mutateUserOption io around args file
    | some value =>
      match validateUserOptionValue value with
      | .error err => (file, .error err)
      | .ok () => mutateUserOption io around args file

/-- `read_user_option`. -/
def readUserOption (io : Io) (around : Surroundings) (args : UserOptionArgs) (file : StoreFile) :
    StoreFile × Except Str (Option Str) :=
  match snapshotIdentity io around args with
  | .error err => (file, .error err)
  | .ok (_, identity) =>
    match loadStore io file with
    | (file, .error err) => (file, .error err)
    | (file, .ok store) => (file, .ok (valueOf store args.pane identity args.name))

/-- `CmuxSurfaceContext`, as a pane remembers it. -/
structure PaneSurface where
  surfaceRef : Str
  workspaceRef : Option Str
  windowRef : Option Str
deriving DecidableEq

/-- The pane that `remember_pane` stores. -/
def rememberedPane (info : SessionInfo) (surface : Option PaneSurface) : CompatPane where
  paneId := info.paneId
  sessionName := info.name
  immutableId := some info.id
  cmuxSurfaceId := surface.map PaneSurface.surfaceRef
  cmuxWorkspaceId := surface.bind PaneSurface.workspaceRef
  cmuxWindowId := surface.bind PaneSurface.windowRef

/-- `remember_pane_with_live`. -/
def rememberPaneWithLive (io : Io) (info : SessionInfo) (surface : Option PaneSurface)
    (live : List Str) (file : StoreFile) : StoreFile × Except Str Unit :=
  changeStore io (fun store =>
    let store := pruneUserOptions live store
    .ok ({ store with panes := store.panes.insert info.paneId (rememberedPane info surface) }, ()))
    file

/-- `remember_pane`. -/
def rememberPane (io : Io) (sessions : Except Str (List SessionInfo)) (info : SessionInfo)
    (surface : Option PaneSurface) (file : StoreFile) : StoreFile × Except Str Unit :=
  match io.lock with
  | some err => (file, .error err)
  | none =>
    match sessions with
    | .error err => (file, .error err)
    | .ok sessions => rememberPaneWithLive io info surface (liveIdentities sessions) file

/-- `CapturedCompatPane`. -/
structure CapturedCompatPane where
  paneId : Str
  immutableId : Str
  stored : Option CompatPane
deriving DecidableEq

/-- The pane is stored as it was captured. -/
def matchesCapturedGeneration (captured : CapturedCompatPane) (panes : Map Str CompatPane) : Bool :=
  match captured.stored with
  | none => false
  | some before =>
    (match before.immutableId with
      | none => true
      | some id => decide (id = captured.immutableId)) &&
      decide (panes.lookup captured.paneId = some before)

/-- The change of `forget_panes_and_user_options`. -/
def forget (capturedPanes : List CapturedCompatPane) (immutableIds : List Str)
    (store : CompatStore) : CompatStore :=
  { store with
    panes := capturedPanes.foldl (fun panes captured =>
      if matchesCapturedGeneration captured panes then panes.erase captured.paneId else panes)
      store.panes
    paneUserOptions := immutableIds.foldl (fun options id => options.erase id) store.paneUserOptions
    sessionUserOptions :=
      immutableIds.foldl (fun options id => options.erase id) store.sessionUserOptions }

/-- `forget_panes_and_user_options`. -/
def forgetPanesAndUserOptions (io : Io) (capturedPanes : List CapturedCompatPane)
    (immutableIds : List Str) (file : StoreFile) : StoreFile × Except Str Unit :=
  updateStore io (fun store => .ok (forget capturedPanes immutableIds store, ())) file

/-! ## The commands -/

/-- `other` is any command that leaves the panes and the options alone. -/
inductive Command
  | set (io : Io) (around : Surroundings) (args : UserOptionArgs)
  | read (io : Io) (around : Surroundings) (args : UserOptionArgs)
  | remember (io : Io) (sessions : Except Str (List SessionInfo)) (info : SessionInfo)
      (surface : Option PaneSurface)
  | forget (io : Io) (capturedPanes : List CapturedCompatPane) (immutableIds : List Str)
  | other (io : Io) (rest : CompatStore)

/-- A command on the file: the file it leaves, and the option that a read returns. -/
def perform (file : StoreFile) : Command → StoreFile × Except Str (Option Str)
  | .set io around args =>
    match setOption io around args file with
    | (file, result) => (file, result.map fun _ => none)
  | .read io around args => readUserOption io around args file
  | .remember io sessions info surface =>
    match rememberPane io sessions info surface file with
    | (file, result) => (file, result.map fun _ => none)
  | .forget io capturedPanes immutableIds =>
    match forgetPanesAndUserOptions io capturedPanes immutableIds file with
    | (file, result) => (file, result.map fun _ => none)
  | .other io rest =>
    updateStore io (fun store =>
      .ok ({ rest with
        panes := store.panes
        paneUserOptions := store.paneUserOptions
        sessionUserOptions := store.sessionUserOptions }, none)) file

/-- The file after a command. -/
def step (file : StoreFile) (command : Command) : StoreFile := (perform file command).1

/-! ## Identities -/

theorem byId_mem {sessions : List SessionInfo} {id : Str} {info : SessionInfo}
    (h : byId sessions id = some info) : info ∈ sessions :=
  List.mem_reverse.mp (List.mem_of_find?_eq_some h)

theorem rootLoop_mem {sessions : List SessionInfo} {fuel : ℕ} {seen : List Str}
    {info : SessionInfo} {identity : Str} (hinfo : info ∈ sessions)
    (h : rootLoop sessions fuel seen info = .ok identity) : identity ∈ liveIdentities sessions := by
  induction fuel generalizing seen info with
  | zero => cases h
  | succ fuel ih =>
    rw [rootLoop] at h
    split at h
    · cases h
      exact List.mem_map_of_mem hinfo
    · split at h
      · cases h
      · split at h
        · cases h
        · rename_i hparent
          exact ih (byId_mem hparent) h

/-- More fuel changes nothing: as many ids were seen as turns were taken, and all of them are ids of
the snapshot. -/
theorem rootLoop_fuel {sessions : List SessionInfo} {fuel : ℕ} {seen : List Str}
    {info : SessionInfo} (hinfo : info ∈ sessions) (hnodup : seen.Nodup)
    (hseen : seen ⊆ liveIdentities sessions) (hfuel : sessions.length + 1 ≤ fuel + seen.length) :
    rootLoop sessions (fuel + 1) seen info = rootLoop sessions fuel seen info := by
  induction fuel generalizing seen info with
  | zero =>
    have hle := (List.subperm_of_subset hnodup hseen).length_le
    rw [liveIdentities, List.length_map] at hle
    omega
  | succ fuel ih =>
    rw [rootLoop, rootLoop]
    split
    · rfl
    · split
      · rfl
      · rename_i hid
        split
        · rfl
        · rename_i hparent
          refine ih (byId_mem hparent) (hnodup.cons hid) ?_ ?_
          · exact List.cons_subset.mpr ⟨List.mem_map_of_mem hinfo, hseen⟩
          · rw [List.length_cons]
            omega

/-- An identity is one of the snapshot. -/
theorem identity_mem {io : Io} {around : Surroundings} {args : UserOptionArgs}
    {sessions : List SessionInfo} {identity : Str}
    (h : snapshotIdentity io around args = .ok (sessions, identity)) :
    around.sessions = .ok sessions ∧ identity ∈ liveIdentities sessions := by
  unfold snapshotIdentity at h
  split at h
  · cases h
  · split at h
    · cases h
    · rename_i sessions' hsessions
      split at h
      · cases h
      · rename_i identity' hidentity
        cases h
        refine ⟨hsessions, ?_⟩
        unfold userOptionIdentityFromSnapshot at hidentity
        split at hidentity
        · cases hidentity
        · split at hidentity
          · cases hidentity
          · rename_i info hfind
            have hinfo := List.mem_of_find?_eq_some hfind
            split at hidentity
            · cases hidentity
              exact List.mem_map_of_mem hinfo
            · exact rootLoop_mem hinfo hidentity

/-! ## Scopes -/

variable {store store' : CompatStore} {pane pane' : Bool} {identity name value : Str}
  {options : UserOptions}

theorem scope_setScope (pane pane' : Bool) (options : UserOptions) (store : CompatStore) :
    scope pane (setScope pane' options store) = if pane = pane' then options else scope pane store := by
  cases pane <;> cases pane' <;> rfl

theorem scope_prune (pane : Bool) (live : List Str) (store : CompatStore) :
    scope pane (pruneUserOptions live store) = pruneScope live (scope pane store) := by
  cases pane <;> rfl

theorem lookup_unset (identity name : Str) (options : UserOptions) (identity' : Str) :
    (unsetOption identity name options).lookup identity' =
      if identity' = identity then
        ((options.lookup identity).map fun o => o.erase name).filter fun o => size o ≠ 0
      else options.lookup identity' := by
  unfold unsetOption
  cases h : options.lookup identity with
  | none =>
    split_ifs with hid
    · rw [hid, h]
      rfl
    · rfl
  | some identityOptions =>
    simp only [Option.map_some, Option.filter]
    by_cases hsize : size (identityOptions.erase name) = 0
    · simp [hsize, lookup_erase]
    · simp [hsize, lookup_insert]

theorem lookup_eraseAll (ids : List Str) (options : UserOptions) (identity : Str) :
    (ids.foldl (fun options id => options.erase id) options).lookup identity =
      if identity ∈ ids then none else options.lookup identity := by
  induction ids generalizing options with
  | nil => simp
  | cons id ids ih =>
    rw [List.foldl_cons, ih, lookup_erase]
    by_cases h : identity = id
    · simp [h]
    · simp only [List.mem_cons, h, if_false, false_or]

theorem scope_forget (pane : Bool) (captured : List CapturedCompatPane) (ids : List Str)
    (store : CompatStore) : scope pane (forget captured ids store) =
      ids.foldl (fun options id => options.erase id) (scope pane store) := by
  cases pane <;> rfl

/-! ## The limits -/

/-- The limits of the options in a store. -/
structure Limits (store : CompatStore) : Prop where
  identities : userOptionIdentityCount store ≤ USER_OPTION_IDENTITIES_MAX
  entries : userOptionEntryCount store ≤ USER_OPTION_ENTRIES_MAX
  perIdentity : ∀ identity, size (optionsOf store.paneUserOptions identity) +
    size (optionsOf store.sessionUserOptions identity) ≤ USER_OPTIONS_PER_IDENTITY_MAX
  nonempty : ∀ pane identity options, (scope pane store).lookup identity = some options →
    size options ≠ 0
  valid : ∀ pane identity name value, valueOf store pane identity name = some value →
    validateUserOptionName name = .ok () ∧ validateUserOptionValue value = .ok ()

/-- The second store has options of the first, and no empty identity. -/
def Within (store store' : CompatStore) : Prop :=
  ∀ pane identity options', (scope pane store').lookup identity = some options' →
    size options' ≠ 0 ∧ ∃ options, (scope pane store).lookup identity = some options ∧
      ∀ name value, options'.lookup name = some value → options.lookup name = some value

theorem size_le_of_sub {options options' : Map Str Str}
    (h : ∀ name value, options'.lookup name = some value → options.lookup name = some value) :
    size options' ≤ size options :=
  size_le_of_lookup fun name value hv => ⟨value, h name value hv⟩

theorem size_optionsOf (options : UserOptions) (identity : Str) :
    size (optionsOf options identity) = (options.lookup identity).elim 0 size := by
  unfold optionsOf
  cases options.lookup identity with
  | none => rfl
  | some o => rfl

theorem Limits.shrink (h : Limits store) (hw : Within store store') : Limits store' := by
  have hpane := hw true
  have hsession := hw false
  have hkeys : ∀ {m m' : UserOptions}, (∀ identity options', m'.lookup identity = some options' →
      size options' ≠ 0 ∧ ∃ options, m.lookup identity = some options ∧
        ∀ name value, options'.lookup name = some value → options.lookup name = some value) →
      m'.keys ⊆ m.keys := by
    intro m m' hm identity hid
    rw [Finmap.mem_keys, Finmap.mem_iff] at hid ⊢
    obtain ⟨options', ho⟩ := hid
    obtain ⟨-, options, hlookup, -⟩ := hm identity options' ho
    exact ⟨options, hlookup⟩
  have hsize : ∀ pane identity, size (optionsOf (scope pane store') identity) ≤
      size (optionsOf (scope pane store) identity) := by
    intro pane identity
    rw [size_optionsOf, size_optionsOf]
    cases ho : (scope pane store').lookup identity with
    | none => exact Nat.zero_le _
    | some options' =>
      obtain ⟨-, options, hlookup, hsub⟩ := hw pane identity options' ho
      rw [hlookup]
      exact size_le_of_sub hsub
  have htotal : ∀ pane, total size (scope pane store') ≤ total size (scope pane store) := by
    intro pane
    refine total_le_of_lookup fun identity options' ho => ?_
    obtain ⟨-, options, hlookup, hsub⟩ := hw pane identity options' ho
    exact ⟨options, hlookup, size_le_of_sub hsub⟩
  constructor
  · exact (Finset.card_le_card (Finset.union_subset_union (hkeys hpane) (hkeys hsession))).trans
      h.identities
  · exact (Nat.add_le_add (htotal true) (htotal false)).trans h.entries
  · intro identity
    exact (Nat.add_le_add (hsize true identity) (hsize false identity)).trans
      (h.perIdentity identity)
  · intro pane identity options' ho
    exact (hw pane identity options' ho).1
  · intro pane identity name value hv
    obtain ⟨options', ho, hn⟩ := Option.bind_eq_some_iff.mp hv
    obtain ⟨-, options, hlookup, hsub⟩ := hw pane identity options' ho
    exact h.valid pane identity name value (Option.bind_eq_some_iff.mpr ⟨options, hlookup, hsub _ _ hn⟩)

theorem within_prune (live : List Str) (store : CompatStore) :
    Within store (pruneUserOptions live store) := by
  intro pane identity options h
  rw [scope_prune, pruneScope, lookup_retain, Bool.and_eq_true, decide_eq_true_eq,
    decide_eq_true_eq] at h
  exact ⟨h.2.2, options, h.1, fun _ _ h => h⟩

theorem within_unset (h : Limits store) (pane : Bool) (identity name : Str) :
    Within store (setScope pane (unsetOption identity name (scope pane store)) store) := by
  intro pane' identity' options' ho
  rw [scope_setScope] at ho
  split_ifs at ho with hpane
  · subst hpane
    rw [lookup_unset] at ho
    split_ifs at ho with hid
    · subst hid
      obtain ⟨ho, hsize⟩ := Option.filter_eq_some_iff.mp ho
      obtain ⟨options, hlookup, rfl⟩ := Option.map_eq_some_iff.mp ho
      refine ⟨of_decide_eq_true hsize, options, hlookup, fun name' value hv => ?_⟩
      rw [lookup_erase] at hv
      split_ifs at hv
      exact hv
    · exact ⟨h.nonempty _ _ _ ho, options', ho, fun _ _ h => h⟩
  · exact ⟨h.nonempty _ _ _ ho, options', ho, fun _ _ h => h⟩

theorem within_forget (h : Limits store) (captured : List CapturedCompatPane) (ids : List Str) :
    Within store (forget captured ids store) := by
  intro pane identity options ho
  rw [scope_forget, lookup_eraseAll] at ho
  split_ifs at ho
  exact ⟨h.nonempty _ _ _ ho, options, ho, fun _ _ h => h⟩

/-! ## A new value -/

theorem optionsOf_insert (options : UserOptions) (identity identity' : Str) (o : Map Str Str) :
    optionsOf (options.insert identity o) identity' =
      if identity' = identity then o else optionsOf options identity' := by
  unfold optionsOf
  rw [lookup_insert]
  split_ifs <;> rfl

theorem valueOf_eq (store : CompatStore) (pane : Bool) (identity name : Str) :
    valueOf store pane identity name = (optionsOf (scope pane store) identity).lookup name := by
  unfold valueOf optionsOf
  cases (scope pane store).lookup identity with
  | none => rfl
  | some o => rfl

/-- The number of options that a new value adds to its identity: none if the option exists. -/
def added (store : CompatStore) (pane : Bool) (identity name : Str) : ℕ :=
  if (valueOf store pane identity name).isSome then 0 else 1

theorem size_withOption (store : CompatStore) (pane : Bool) (identity name value : Str) :
    size ((optionsOf (scope pane store) identity).insert name value) =
      size (optionsOf (scope pane store) identity) + added store pane identity name := by
  unfold added
  rw [valueOf_eq]
  cases h : (optionsOf (scope pane store) identity).lookup name with
  | none => exact size_insert (Finmap.lookup_eq_none.mp h) value
  | some v => exact size_insert_of_mem (Finmap.mem_of_lookup_eq_some h) value

theorem scope_withOption (pane pane' : Bool) (identity name value : Str) (store : CompatStore) :
    scope pane (withOption pane' identity name value store) =
      if pane = pane' then (scope pane store).insert identity
        ((optionsOf (scope pane store) identity).insert name value)
      else scope pane store := by
  unfold withOption
  rw [scope_setScope]
  split_ifs with h
  · rw [h]
  · rfl

/-- The sizes of both scopes of an identity, before and after. -/
theorem perIdentity_withOption (pane : Bool) (identity name value : Str) (store : CompatStore)
    (identity' : Str) :
    size (optionsOf (withOption pane identity name value store).paneUserOptions identity') +
        size (optionsOf (withOption pane identity name value store).sessionUserOptions identity') =
      size (optionsOf store.paneUserOptions identity') +
        size (optionsOf store.sessionUserOptions identity') +
          if identity' = identity then added store pane identity name else 0 := by
  have hscope (p : Bool) : size (optionsOf (scope p (withOption pane identity name value store))
      identity') = size (optionsOf (scope p store) identity') +
        if p = pane ∧ identity' = identity then added store pane identity name else 0 := by
    rw [scope_withOption]
    by_cases hp : p = pane
    · subst hp
      simp only [if_true, true_and]
      rw [optionsOf_insert]
      split_ifs with hid
      · rw [hid, size_withOption]
      · rfl
    · simp [hp]
  have htrue := hscope true
  have hfalse := hscope false
  cases pane <;> simp only [scope, reduceCtorEq, if_true, if_false, false_and, true_and,
    Nat.add_zero] at htrue hfalse <;> omega

theorem entryCount_withOption (pane : Bool) (identity name value : Str) (store : CompatStore) :
    userOptionEntryCount (withOption pane identity name value store) =
      userOptionEntryCount store + added store pane identity name := by
  have hscope : total size ((scope pane store).insert identity
      ((optionsOf (scope pane store) identity).insert name value)) =
        total size (scope pane store) + added store pane identity name := by
    have hinsert := total_insert size (scope pane store) identity
      ((optionsOf (scope pane store) identity).insert name value)
    rw [size_withOption, size_optionsOf] at hinsert
    omega
  unfold userOptionEntryCount withOption
  cases pane
  · show total size store.paneUserOptions + total size ((scope false store).insert _ _) = _
    rw [hscope]
    show _ + (total size store.sessionUserOptions + _) = _
    omega
  · show total size ((scope true store).insert _ _) + total size store.sessionUserOptions = _
    rw [hscope]
    show total size store.paneUserOptions + _ + _ = _
    omega

theorem keys_withOption (pane : Bool) (identity name value : Str) (store : CompatStore) :
    (withOption pane identity name value store).paneUserOptions.keys ∪
        (withOption pane identity name value store).sessionUserOptions.keys =
      insert identity (store.paneUserOptions.keys ∪ store.sessionUserOptions.keys) := by
  cases pane
  · show store.paneUserOptions.keys ∪ (Finmap.insert _ _ _).keys = _
    rw [keys_insert, Finset.union_insert]
    rfl
  · show (Finmap.insert _ _ _).keys ∪ store.sessionUserOptions.keys = _
    rw [keys_insert, Finset.insert_union]
    rfl

/-- The counts allow an option: it exists, or none of the three limits is reached. -/
def Allowed (pane : Bool) (identity name : Str) (store : CompatStore) : Prop :=
  (valueOf store pane identity name).isSome ∨
    ((identity ∈ store.paneUserOptions ∨ identity ∈ store.sessionUserOptions) ∨
        userOptionIdentityCount store < USER_OPTION_IDENTITIES_MAX) ∧
      userOptionEntryCount store < USER_OPTION_ENTRIES_MAX ∧
      size (optionsOf store.paneUserOptions identity) +
        size (optionsOf store.sessionUserOptions identity) < USER_OPTIONS_PER_IDENTITY_MAX

theorem checkLimits_ok {identity : Str} {store : CompatStore} : checkLimits identity store = .ok () ↔
    ((identity ∈ store.paneUserOptions ∨ identity ∈ store.sessionUserOptions) ∨
        userOptionIdentityCount store < USER_OPTION_IDENTITIES_MAX) ∧
      userOptionEntryCount store < USER_OPTION_ENTRIES_MAX ∧
      size (optionsOf store.paneUserOptions identity) +
        size (optionsOf store.sessionUserOptions identity) < USER_OPTIONS_PER_IDENTITY_MAX := by
  unfold checkLimits
  by_cases hmem : identity ∈ store.paneUserOptions ∨ identity ∈ store.sessionUserOptions <;>
    split_ifs <;> simp_all

/-- A set option is allowed by the counts. -/
theorem mutate_set (args : UserOptionArgs) (identity : Str) (store : CompatStore) {value : Str}
    (hset : args.unset = false) (hvalue : args.value = some value) :
    (Allowed args.pane identity args.name store ∧
        mutate args identity store = .ok (withOption args.pane identity args.name value store)) ∨
      ¬ Allowed args.pane identity args.name store ∧
        ∃ err, mutate args identity store = .error err := by
  unfold mutate
  rw [hset, hvalue]
  simp only [Bool.false_eq_true, if_false]
  split_ifs with hexists
  · exact .inl ⟨.inl hexists, rfl⟩
  · cases hcheck : checkLimits identity store with
    | ok _ => exact .inl ⟨.inr (checkLimits_ok.mp hcheck), rfl⟩
    | error err =>
      refine .inr ⟨?_, err, rfl⟩
      rintro (h | h)
      · exact hexists h
      · rw [checkLimits_ok.mpr h] at hcheck
        cases hcheck

theorem Limits.set (h : Limits store) (hallowed : Allowed pane identity name store)
    (hname : validateUserOptionName name = .ok ()) (hvalue : validateUserOptionValue value = .ok ()) :
    Limits (withOption pane identity name value store) := by
  have hadded : added store pane identity name = 0 ∧ (valueOf store pane identity name).isSome ∨
      added store pane identity name = 1 ∧ ¬ (valueOf store pane identity name).isSome := by
    unfold added
    split_ifs with hexists
    · exact .inl ⟨rfl, hexists⟩
    · exact .inr ⟨rfl, hexists⟩
  have hmem : ∀ {o : Str}, valueOf store pane identity name = some o →
      identity ∈ store.paneUserOptions ∨ identity ∈ store.sessionUserOptions := by
    intro o ho
    obtain ⟨options, hlookup, -⟩ := Option.bind_eq_some_iff.mp ho
    have hmem := Finmap.mem_of_lookup_eq_some hlookup
    cases pane
    · exact .inr hmem
    · exact .inl hmem
  constructor
  · unfold userOptionIdentityCount
    rw [keys_withOption]
    by_cases hidentity : identity ∈ store.paneUserOptions.keys ∪ store.sessionUserOptions.keys
    · rw [Finset.insert_eq_of_mem hidentity]
      exact h.identities
    · rw [Finset.card_insert_of_notMem hidentity]
      rw [Finset.mem_union, Finmap.mem_keys, Finmap.mem_keys] at hidentity
      rcases hallowed with hexists | ⟨hcount, -⟩
      · obtain ⟨o, ho⟩ := Option.isSome_iff_exists.mp hexists
        exact absurd (hmem ho) hidentity
      · exact hcount.resolve_left hidentity
  · rw [entryCount_withOption]
    have hentries := h.entries
    rcases hadded with ⟨hzero, -⟩ | ⟨hone, hnew⟩
    · omega
    · have := (hallowed.resolve_left hnew).2.1
      omega
  · intro identity'
    rw [perIdentity_withOption]
    have hper := h.perIdentity identity'
    split_ifs with hid
    · subst hid
      rcases hadded with ⟨hzero, -⟩ | ⟨hone, hnew⟩
      · omega
      · have := (hallowed.resolve_left hnew).2.2
        omega
    · omega
  · intro pane' identity' options ho
    rw [scope_withOption] at ho
    split_ifs at ho with hpane
    · rw [lookup_insert] at ho
      split_ifs at ho with hid
      · obtain rfl := Option.some.inj ho
        rw [size_eq_card_keys, keys_insert]
        exact (Finset.card_pos.mpr ⟨name, Finset.mem_insert_self _ _⟩).ne'
      · exact h.nonempty _ _ _ ho
    · exact h.nonempty _ _ _ ho
  · intro pane' identity' name' value' hv
    rw [valueOf_eq, scope_withOption] at hv
    split_ifs at hv with hpane
    · rw [optionsOf_insert] at hv
      split_ifs at hv with hid
      · rw [lookup_insert] at hv
        split_ifs at hv with hn
        · obtain rfl := Option.some.inj hv
          exact ⟨hn ▸ hname, hvalue⟩
        · exact h.valid pane' identity name' value' (by rw [valueOf_eq]; exact hv)
      · exact h.valid pane' identity' name' value' (by rw [valueOf_eq]; exact hv)
    · exact h.valid pane' identity' name' value' (by rw [valueOf_eq]; exact hv)

/-! ## What a command does -/

/-- What a command that succeeds makes of the store, and what it returns. -/
inductive Done (store : CompatStore) : Command → Option Str → CompatStore → Prop
  | set {io : Io} {around : Surroundings} {args : UserOptionArgs} {sessions : List SessionInfo}
      {identity value : Str} (hidentity : snapshotIdentity io around args = .ok (sessions, identity))
      (hset : args.unset = false) (hvalue : args.value = some value)
      (hname : validateUserOptionName args.name = .ok ())
      (hvalid : validateUserOptionValue value = .ok ())
      (hallowed : Allowed args.pane identity args.name
        (pruneUserOptions (liveIdentities sessions) store)) :
      Done store (.set io around args) none (withOption args.pane identity args.name value
        (pruneUserOptions (liveIdentities sessions) store))
  | unset {io : Io} {around : Surroundings} {args : UserOptionArgs} {sessions : List SessionInfo}
      {identity : Str} (hidentity : snapshotIdentity io around args = .ok (sessions, identity))
      (hunset : args.unset = true) :
      Done store (.set io around args) none (setScope args.pane (unsetOption identity args.name
        (scope args.pane (pruneUserOptions (liveIdentities sessions) store)))
        (pruneUserOptions (liveIdentities sessions) store))
  | read {io : Io} {around : Surroundings} {args : UserOptionArgs} {sessions : List SessionInfo}
      {identity : Str} (hidentity : snapshotIdentity io around args = .ok (sessions, identity)) :
      Done store (.read io around args) (valueOf store args.pane identity args.name) store
  | remember {io : Io} {sessions : List SessionInfo} {info : SessionInfo}
      {surface : Option PaneSurface} (panes : Map Str CompatPane) :
      Done store (.remember io (.ok sessions) info surface) none
        { pruneUserOptions (liveIdentities sessions) store with panes }
  | forget {io : Io} {captured : List CapturedCompatPane} {ids : List Str} :
      Done store (.forget io captured ids) none (forget captured ids store)
  | other {io : Io} {rest : CompatStore} :
      Done store (.other io rest) none { rest with
        panes := store.panes
        paneUserOptions := store.paneUserOptions
        sessionUserOptions := store.sessionUserOptions }

/-- A command fails and leaves the file as it is, or does what it is for. -/
def Performed (file : StoreFile) (command : Command) : Prop :=
  (∃ err, perform file command = (file, .error err)) ∨
    ∃ file' answer, perform file command = (file', .ok answer) ∧ file'.Sound ∧
      Done file.store command answer file'.store

theorem mutateUserOption_cases {file : StoreFile} (hsound : file.Sound) (io : Io)
    (around : Surroundings) (args : UserOptionArgs) :
    (∃ err, mutateUserOption io around args file = (file, .error err)) ∨
      ∃ file' sessions identity, snapshotIdentity io around args = .ok (sessions, identity) ∧
        mutate args identity (pruneUserOptions (liveIdentities sessions) file.store) =
          .ok file'.store ∧
        mutateUserOption io around args file = (file', .ok ()) ∧ file'.Sound := by
  unfold mutateUserOption
  split
  · exact .inl ⟨_, rfl⟩
  · rename_i sessions identity hidentity
    rcases @changeStore_done _ io file hsound (fun store =>
      match mutate args identity (pruneUserOptions (liveIdentities sessions) store) with
      | .error err => .error err
      | .ok store => .ok (store, ())) with hfail | ⟨file', store, result, hf, hok, rfl, hsound'⟩
    · exact .inl hfail
    · split at hf
      · cases hf
      · rename_i hmutated
        cases hf
        exact .inr ⟨file', sessions, identity, hidentity, hmutated, hok, hsound'⟩

/-- With a valid name and a valid value, `mutate_user_option` sets or unsets an option. -/
theorem mutateUserOption_done {file : StoreFile} (hsound : file.Sound) (io : Io)
    (around : Surroundings) (args : UserOptionArgs)
    (hname : validateUserOptionName args.name = .ok ())
    (hvalid : ∀ value, args.value = some value → validateUserOptionValue value = .ok ()) :
    (∃ err, mutateUserOption io around args file = (file, .error err)) ∨
      ∃ file', mutateUserOption io around args file = (file', .ok ()) ∧ file'.Sound ∧
        Done file.store (.set io around args) none file'.store := by
  rcases mutateUserOption_cases hsound io around args with
    hfail | ⟨file', sessions, identity, hidentity, hmutated, hok, hsound'⟩
  · exact .inl hfail
  · refine .inr ⟨file', hok, hsound', ?_⟩
    cases hunset : args.unset with
    | true =>
      unfold mutate at hmutated
      rw [if_pos hunset] at hmutated
      rw [← Except.ok.inj hmutated]
      exact .unset hidentity hunset
    | false =>
      cases hvalue : args.value with
      | none => simp [mutate, hunset, hvalue] at hmutated
      | some value =>
        rcases mutate_set args identity _ hunset hvalue with ⟨hallowed, heq⟩ | ⟨-, err, heq⟩
        · rw [← Except.ok.inj (heq.symm.trans hmutated)]
          exact .set hidentity hunset hvalue hname (hvalid value hvalue) hallowed
        · rw [heq] at hmutated
          cases hmutated

theorem setOption_done {file : StoreFile} (hsound : file.Sound) (io : Io) (around : Surroundings)
    (args : UserOptionArgs) :
    (∃ err, setOption io around args file = (file, .error err)) ∨
      ∃ file', setOption io around args file = (file', .ok ()) ∧ file'.Sound ∧
        Done file.store (.set io around args) none file'.store := by
  unfold setOption
  split
  · exact .inl ⟨_, rfl⟩
  · rename_i hname
    split
    · rename_i hvalue
      refine mutateUserOption_done hsound io around args hname fun value h => ?_
      rw [hvalue] at h
      cases h
    · rename_i value hvalue
      split
      · exact .inl ⟨_, rfl⟩
      · rename_i hvalid
        refine mutateUserOption_done hsound io around args hname fun value' h => ?_
        rw [hvalue] at h
        exact Option.some.inj h ▸ hvalid

theorem perform_done {file : StoreFile} (hsound : file.Sound) (command : Command) :
    Performed file command := by
  cases command with
  | set io around args =>
    rcases setOption_done hsound io around args with ⟨err, h⟩ | ⟨file', h, hsound', hdone⟩
    · exact .inl ⟨err, by simp [perform, h, Except.map]⟩
    · exact .inr ⟨file', none, by simp [perform, h, Except.map], hsound', hdone⟩
  | read io around args =>
    unfold Performed
    simp only [perform, readUserOption]
    cases hidentity : snapshotIdentity io around args with
    | error err => exact .inl ⟨err, rfl⟩
    | ok found =>
      obtain ⟨sessions, identity⟩ := found
      have hload := (@loadStore_sound io file hsound).1
      have hstore := (@loadStore_store io file).2
      generalize loadStore io file = loaded at hload hstore ⊢
      obtain ⟨file', err | store⟩ := loaded
      · exact .inl ⟨err, by rw [← hload]⟩
      · obtain rfl : file' = file := hload
        obtain rfl := hstore store rfl
        exact .inr ⟨file', _, rfl, hsound, .read hidentity⟩
  | remember io sessions info surface =>
    unfold Performed
    simp only [perform, rememberPane]
    cases io.lock with
    | some err => exact .inl ⟨err, rfl⟩
    | none =>
      cases sessions with
      | error err => exact .inl ⟨err, rfl⟩
      | ok sessions =>
        rcases @changeStore_done _ io file hsound (fun store =>
          .ok ({ pruneUserOptions (liveIdentities sessions) store with
            panes := (pruneUserOptions (liveIdentities sessions) store).panes.insert info.paneId
              (rememberedPane info surface) }, ())) with
          ⟨err, h⟩ | ⟨file', store, result, hf, h, hstore, hsound'⟩
        · exact .inl ⟨err, by simp only [rememberPaneWithLive, h]; rfl⟩
        · refine .inr ⟨file', none, by simp only [rememberPaneWithLive, h]; rfl, hsound', ?_⟩
          rw [hstore, ← (Prod.mk.inj (Except.ok.inj hf)).1]
          exact .remember _
  | forget io captured ids =>
    unfold Performed
    simp only [perform, forgetPanesAndUserOptions]
    rcases @updateStore_done _ io file hsound (fun store => .ok (forget captured ids store, ())) with
      ⟨err, h⟩ | ⟨file', store, result, hf, h, hstore, hsound'⟩
    · exact .inl ⟨err, by rw [h]; rfl⟩
    · refine .inr ⟨file', none, by rw [h]; rfl, hsound', ?_⟩
      rw [hstore, ← (Prod.mk.inj (Except.ok.inj hf)).1]
      exact .forget
  | other io rest =>
    unfold Performed
    simp only [perform]
    rcases @updateStore_done _ io file hsound (fun store => .ok ({ rest with
        panes := store.panes
        paneUserOptions := store.paneUserOptions
        sessionUserOptions := store.sessionUserOptions }, none)) with
      ⟨err, h⟩ | ⟨file', store, result, hf, h, hstore, hsound'⟩
    · exact .inl ⟨err, h⟩
    · refine .inr ⟨file', result, h, hsound', ?_⟩
      obtain ⟨heq, rfl⟩ := Prod.mk.inj (Except.ok.inj hf)
      rw [hstore, ← heq]
      exact .other

/-! ## What every run keeps -/

/-- The options of a store are those of another. -/
theorem within_of_scope (h : Limits store) (hscope : ∀ pane, scope pane store' = scope pane store) :
    Within store store' := by
  intro pane identity options ho
  rw [hscope] at ho
  exact ⟨h.nonempty _ _ _ ho, options, ho, fun _ _ h => h⟩

theorem Done.limits {command : Command} {answer : Option Str} (h : Done store command answer store')
    (hlimits : Limits store) : Limits store' := by
  cases h with
  | @set _ _ _ sessions _ _ _ _ _ hname hvalid hallowed =>
    exact (hlimits.shrink (within_prune _ _)).set hallowed hname hvalid
  | @unset _ _ _ sessions _ _ _ =>
    have hpruned := hlimits.shrink (within_prune (liveIdentities sessions) store)
    exact hpruned.shrink (within_unset hpruned _ _ _)
  | read _ => exact hlimits
  | @remember _ sessions _ _ panes =>
    have hpruned := hlimits.shrink (within_prune (liveIdentities sessions) store)
    exact hpruned.shrink (within_of_scope hpruned fun pane => by cases pane <;> rfl)
  | forget => exact hlimits.shrink (within_forget hlimits _ _)
  | other => exact hlimits.shrink (within_of_scope hlimits fun pane => by cases pane <;> rfl)

/-- The snapshot of a command that drops the options of dead sessions. -/
def Command.snapshot : Command → Option (List SessionInfo)
  | .set _ around _ => around.sessions.toOption
  | .remember _ sessions _ _ => sessions.toOption
  | _ => none

theorem mem_pruned {live : List Str} {options' : Map Str Str}
    (h : (scope pane (pruneUserOptions live store)).lookup identity = some options') :
    identity ∈ live := by
  rw [scope_prune, pruneScope, lookup_retain, Bool.and_eq_true, decide_eq_true_eq] at h
  exact h.2.1

/-- The identities that are left are those of the snapshot. -/
theorem Done.live {command : Command} {answer : Option Str} (h : Done store command answer store')
    {sessions : List SessionInfo} (hsessions : command.snapshot = some sessions)
    {options' : Map Str Str} (ho : (scope pane store').lookup identity = some options') :
    identity ∈ liveIdentities sessions := by
  cases h with
  | set hidentity _ _ _ _ _ =>
    obtain ⟨hlist, hmem⟩ := identity_mem hidentity
    simp only [Command.snapshot, hlist, Except.toOption, Option.some.injEq] at hsessions
    subst hsessions
    rw [scope_withOption] at ho
    split_ifs at ho with hpane
    · rw [lookup_insert] at ho
      split_ifs at ho with hid
      · rw [hid]
        exact hmem
      · exact mem_pruned ho
    · exact mem_pruned ho
  | unset hidentity _ =>
    obtain ⟨hlist, hmem⟩ := identity_mem hidentity
    simp only [Command.snapshot, hlist, Except.toOption, Option.some.injEq] at hsessions
    subst hsessions
    rw [scope_setScope] at ho
    split_ifs at ho with hpane
    · rw [lookup_unset] at ho
      split_ifs at ho with hid
      · rw [hid]
        exact hmem
      · exact @mem_pruned store pane _ _ _ (hpane ▸ ho)
    · exact mem_pruned ho
  | read _ => cases hsessions
  | remember panes =>
    simp only [Command.snapshot, Except.toOption, Option.some.injEq] at hsessions
    subst hsessions
    refine @mem_pruned store pane _ _ options' ?_
    cases pane <;> exact ho
  | forget => cases hsessions
  | other => cases hsessions

/-! ## A value stays -/

/-- The command neither sets nor unsets the option, nor forgets its identity. -/
def Command.Leaves (pane : Bool) (identity name : Str) : Command → Prop
  | .set io around args => args.pane = pane → args.name = name →
      ∀ sessions, snapshotIdentity io around args ≠ .ok (sessions, identity)
  | .forget _ _ ids => identity ∉ ids
  | _ => True

/-- If the command succeeds, its snapshot has the identity and it leaves the option alone. -/
def Spares (pane : Bool) (identity name : Str) (file : StoreFile) (command : Command) : Prop :=
  (∃ answer, (perform file command).2 = .ok answer) →
    (∀ sessions, command.snapshot = some sessions → identity ∈ liveIdentities sessions) ∧
      command.Leaves pane identity name

theorem valueOf_prune {live : List Str} (hlive : identity ∈ live)
    (h : valueOf store pane identity name = some value) :
    valueOf (pruneUserOptions live store) pane identity name = some value := by
  obtain ⟨options, hlookup, hname⟩ := Option.bind_eq_some_iff.mp h
  refine Option.bind_eq_some_iff.mpr ⟨options, ?_, hname⟩
  have hsize : size options ≠ 0 := by
    rw [size_eq_card_keys]
    exact (Finset.card_pos.mpr
      ⟨name, Finmap.mem_keys.mpr (Finmap.mem_of_lookup_eq_some hname)⟩).ne'
  rw [scope_prune, pruneScope, lookup_retain]
  exact ⟨hlookup, by simp [hlive, hsize]⟩

theorem valueOf_withOption (store : CompatStore) (pane pane' : Bool)
    (identity identity' name name' value : Str) :
    valueOf (withOption pane' identity' name' value store) pane identity name =
      if pane = pane' ∧ identity = identity' ∧ name = name' then some value
      else valueOf store pane identity name := by
  rw [valueOf_eq, valueOf_eq, scope_withOption]
  by_cases hpane : pane = pane'
  · subst hpane
    simp only [if_true, true_and]
    rw [optionsOf_insert]
    by_cases hid : identity = identity'
    · subst hid
      simp only [if_true, true_and]
      rw [lookup_insert]
    · simp [hid]
  · simp [hpane]

theorem optionsOf_unset (identity name : Str) (options : UserOptions) (identity' : Str) :
    optionsOf (unsetOption identity name options) identity' =
      if identity' = identity then (optionsOf options identity).erase name
      else optionsOf options identity' := by
  unfold optionsOf
  rw [lookup_unset]
  split_ifs with hid
  · cases options.lookup identity with
    | none => exact (Finmap.ext_lookup fun _ => by rw [lookup_erase]; simp).symm
    | some o =>
      by_cases hsize : size (o.erase name) = 0
      · have hempty : o.erase name = ∅ := by
          rw [size_eq_card_keys, Finset.card_eq_zero] at hsize
          refine Finmap.ext_lookup fun k => ?_
          rw [Finmap.lookup_empty, Finmap.lookup_eq_none, ← Finmap.mem_keys, hsize]
          exact Finset.notMem_empty k
        simp only [Option.map_some, Option.getD_some, hempty, Option.filter]
        split_ifs <;> rfl
      · simp [Option.filter, hsize]
  · rfl

theorem Done.keeps {command : Command} {answer : Option Str} (h : Done store command answer store')
    (hlive : ∀ sessions, command.snapshot = some sessions → identity ∈ liveIdentities sessions)
    (hother : command.Leaves pane identity name)
    (hv : valueOf store pane identity name = some value) :
    valueOf store' pane identity name = some value := by
  cases h with
  | @set io around args sessions identity' value' hidentity hset hvalue hname hvalid hallowed =>
    have hsnapshot := hlive sessions (by
      simp [Command.snapshot, (identity_mem hidentity).1, Except.toOption])
    rw [valueOf_withOption, if_neg]
    · exact valueOf_prune hsnapshot hv
    · rintro ⟨rfl, rfl, rfl⟩
      exact hother rfl rfl sessions hidentity
  | @unset io around args sessions identity' hidentity hunset =>
    have hsnapshot := hlive sessions (by
      simp [Command.snapshot, (identity_mem hidentity).1, Except.toOption])
    have hpruned := valueOf_prune hsnapshot hv
    rw [valueOf_eq] at hpruned ⊢
    rw [scope_setScope]
    split_ifs with hpane
    · subst hpane
      rw [optionsOf_unset]
      split_ifs with hid
      · subst hid
        rw [lookup_erase, if_neg]
        · exact hpruned
        · rintro rfl
          exact hother rfl rfl sessions hidentity
      · exact hpruned
    · exact hpruned
  | read _ => exact hv
  | @remember _ sessions _ _ panes =>
    have hpruned := valueOf_prune (hlive sessions rfl) hv
    rw [valueOf_eq] at hpruned ⊢
    cases pane <;> exact hpruned
  | @forget _ captured ids =>
    obtain ⟨options, hlookup, hname⟩ := Option.bind_eq_some_iff.mp hv
    refine Option.bind_eq_some_iff.mpr ⟨options, ?_, hname⟩
    rw [scope_forget, lookup_eraseAll, if_neg hother]
    exact hlookup
  | other =>
    rw [valueOf_eq] at hv ⊢
    cases pane <;> exact hv

/-- A set that succeeds stores its value. -/
theorem Done.stored {io : Io} {around : Surroundings} {args : UserOptionArgs} {answer : Option Str}
    (h : Done store (.set io around args) answer store') {sessions : List SessionInfo}
    (hidentity : snapshotIdentity io around args = .ok (sessions, identity))
    (hset : args.unset = false) (hvalue : args.value = some value) :
    valueOf store' args.pane identity args.name = some value := by
  cases h with
  | set hidentity' _ hvalue' _ _ _ =>
    obtain ⟨rfl, rfl⟩ := Prod.mk.inj (Except.ok.inj (hidentity.symm.trans hidentity'))
    obtain rfl := Option.some.inj (hvalue.symm.trans hvalue')
    rw [valueOf_withOption, if_pos ⟨rfl, rfl, rfl⟩]
  | unset _ hunset =>
    rw [hset] at hunset
    cases hunset

/-- A read that succeeds returns the value. -/
theorem Done.answer {io : Io} {around : Surroundings} {args : UserOptionArgs} {answer : Option Str}
    (h : Done store (.read io around args) answer store') {sessions : List SessionInfo}
    (hidentity : snapshotIdentity io around args = .ok (sessions, identity)) :
    answer = valueOf store args.pane identity args.name := by
  cases h with
  | read hidentity' =>
    obtain ⟨rfl, rfl⟩ := Prod.mk.inj (Except.ok.inj (hidentity.symm.trans hidentity'))
    rfl

/-! ## Runs -/

/-- A file as the commands leave it. -/
structure Kept (file : StoreFile) : Prop where
  sound : file.Sound
  limits : Limits file.store

theorem step_kept (file : StoreFile) (command : Command) (h : Kept file) :
    Kept (step file command) := by
  unfold step
  rcases perform_done h.sound command with ⟨err, heq⟩ | ⟨file', answer, heq, hsound, hdone⟩
  · rw [heq]
    exact h
  · rw [heq]
    exact ⟨hsound, hdone.limits h.limits⟩

/-- A command that spares an option keeps its value, and keeps the file fit for the next. -/
theorem step_keeps (file : StoreFile) (command : Command)
    (hspare : Spares pane identity name file command)
    (h : Kept file ∧ valueOf file.store pane identity name = some value) :
    Kept (step file command) ∧ valueOf (step file command).store pane identity name = some value := by
  refine ⟨step_kept file command h.1, ?_⟩
  unfold step
  rcases perform_done h.1.sound command with ⟨err, heq⟩ | ⟨file', answer, heq, -, hdone⟩
  · rw [heq]
    exact h.2
  · obtain ⟨hlive, hother⟩ := hspare ⟨answer, by rw [heq]⟩
    rw [heq]
    exact hdone.keeps hlive hother h.2

/-! ## The size of the file -/

theorem escapedLen_pos (ch : Char) : 1 ≤ escapedLen ch := by
  unfold escapedLen
  split_ifs
  · omega
  · omega
  · omega
  · exact Char.utf8Size_pos ch

theorem length_le_jsonStrLen (text : Str) : text.length + 2 ≤ jsonStrLen text := by
  unfold jsonStrLen
  have hsum : text.length ≤ (text.map escapedLen).sum := by
    have := List.sum_le_sum (l := text) (f := fun _ => 1) (g := escapedLen) fun ch _ =>
      escapedLen_pos ch
    simpa using this
  omega

theorem le_objectLen (depth : ℕ) (entries : Multiset ℕ) : entries.sum ≤ objectLen depth entries := by
  unfold objectLen
  split_ifs with h
  · rw [Multiset.card_eq_zero.mp h]
    exact Nat.zero_le _
  · refine le_trans ?_ (Nat.le_add_right _ _)
    have := Multiset.sum_map_le_sum_map (s := entries) id (fun len => len + (2 * depth + 6))
      fun len _ => Nat.le_add_right _ _
    rwa [Multiset.map_id] at this

/-- A map is at least as long as its values. -/
theorem total_le_mapLen {V : Type} (depth : ℕ) (valueLen : V → ℕ) (m : Map Str V) :
    total valueLen m ≤ mapLen depth valueLen m := by
  refine le_trans ?_ (le_objectLen depth _)
  exact Multiset.sum_map_le_sum_map _ _ fun e _ => Nat.le_add_left _ _

/-- The file is at least as long as the options of the panes. -/
theorem paneOptions_le_jsonLen (store : CompatStore) :
    mapLen 1 (mapLen 2 jsonStrLen) store.paneUserOptions ≤ store.jsonLen := by
  unfold CompatStore.jsonLen structLen
  refine le_trans ?_ (le_objectLen 0 _)
  simp only [List.map_cons, List.map_nil, Multiset.sum_coe, List.sum_cons]
  omega

/-- Values of a length make the file that long for every entry. -/
theorem mul_entryCount_le {len : ℕ} (h : ∀ identity name value,
    valueOf store true identity name = some value → len ≤ value.length) :
    (len + 2) * total size store.paneUserOptions ≤ store.jsonLen := by
  refine le_trans ?_ (paneOptions_le_jsonLen store)
  refine le_trans (mul_total_le fun identity options ho => ?_) (total_le_mapLen _ _ _)
  rw [← total_one]
  refine le_trans (mul_total_le fun name value hv => ?_) (total_le_mapLen _ _ _)
  have hlen := h identity name value (Option.bind_eq_some_iff.mpr ⟨options, ho, hv⟩)
  have := length_le_jsonStrLen value
  omega

/-- A set that the counts allow is refused exactly when the file would be too long. -/
theorem perform_set {file : StoreFile} (hsound : file.Sound) {io : Io} {around : Surroundings}
    {args : UserOptionArgs} {sessions : List SessionInfo} (hload : io.load = none)
    (hsave : io.save = none) (hidentity : snapshotIdentity io around args = .ok (sessions, identity))
    (hset : args.unset = false) (hvalue : args.value = some value)
    (hname : validateUserOptionName args.name = .ok ())
    (hvalid : validateUserOptionValue value = .ok ())
    (hallowed : Allowed args.pane identity args.name
      (pruneUserOptions (liveIdentities sessions) file.store)) :
    (perform file (.set io around args)).2 =
        (if (withOption args.pane identity args.name value
          (pruneUserOptions (liveIdentities sessions) file.store)).jsonLen > COMPAT_STORE_MAX_BYTES
        then .error (oversizedMessage io.path) else .ok none) ∧
      ((perform file (.set io around args)).2 = .ok none →
        (step file (.set io around args)).store = withOption args.pane identity args.name value
          (pruneUserOptions (liveIdentities sessions) file.store)) := by
  have hmutate : mutate args identity (pruneUserOptions (liveIdentities sessions) file.store) =
      .ok (withOption args.pane identity args.name value
        (pruneUserOptions (liveIdentities sessions) file.store)) := by
    rcases mutate_set args identity _ hset hvalue with ⟨-, h⟩ | ⟨hnot, -⟩
    · exact h
    · exact absurd hallowed hnot
  have hf : (match mutate args identity (pruneUserOptions (liveIdentities sessions) file.store) with
      | .error err => .error err
      | .ok store => .ok (store, ()) : Except Str (CompatStore × Unit)) =
        .ok (withOption args.pane identity args.name value
          (pruneUserOptions (liveIdentities sessions) file.store), ()) := by
    rw [hmutate]
  have hfits := changeStore_fits hsound hload hsave (f := fun store =>
    match mutate args identity (pruneUserOptions (liveIdentities sessions) store) with
    | .error err => .error err
    | .ok store => .ok (store, ())) hf
  have hcases := @changeStore_cases _ io file (fun store =>
    match mutate args identity (pruneUserOptions (liveIdentities sessions) store) with
    | .error err => .error err
    | .ok store => .ok (store, ()))
  show (setOption io around args file).2.map _ = _ ∧
    ((setOption io around args file).2.map _ = _ → (setOption io around args file).1.store = _)
  simp only [setOption, hname, hvalue, hvalid, mutateUserOption, hidentity]
  rw [hfits]
  refine ⟨by split_ifs <;> rfl, fun hok => ?_⟩
  rcases hcases with ⟨⟨err, herr⟩, -⟩ | ⟨store, result, hchange, -, hstore⟩
  · rw [hfits] at herr
    rw [herr] at hok
    cases hok
  · rw [hstore]
    exact (Prod.mk.inj (Except.ok.inj (hf.symm.trans hchange))).1.symm

/-- 64 root sessions, each under its own UUID. -/
def manySessions : List SessionInfo :=
  (List.range 64).map fun i =>
    ⟨hexDigits 2 i ++ "000000-0000-4000-8000-000000000000".toList, 's' :: decimal i,
      '%' :: decimal i, none⟩

/-- 64 names. -/
def manyNames : List Str := (List.range 64).map fun j => '@' :: decimal j

/-- A value as long as a value may be. -/
def longValue : Str := List.replicate USER_OPTION_VALUE_MAX_BYTES 'x'

/-- The option of a pane set to the long value, all sessions being live. -/
def setLong (entry : Str × Str) : Command :=
  .set .fine ⟨.ok manySessions, []⟩ ⟨true, false, some entry.1, entry.2, some longValue⟩

/-- All options of all sessions. -/
def manyEntries : List (Str × Str) := (liveIdentities manySessions) ×ˢ manyNames

theorem longValue_valid : validateUserOptionValue longValue = .ok () := by
  have hlen : ¬ byteLen longValue > USER_OPTION_VALUE_MAX_BYTES := by
    rw [byteLen, longValue, List.map_replicate, List.sum_replicate]
    decide
  have hsafe : longValue.any isUnsafeUserOptionChar = false := by
    rw [List.any_eq_false]
    intro ch hch
    rw [List.eq_of_mem_replicate hch]
    decide
  unfold validateUserOptionValue
  rw [if_neg hlen, hsafe]
  rfl

theorem manyNames_valid : ∀ name ∈ manyNames, validateUserOptionName name = .ok () := by
  decide

theorem manySessions_identity : ∀ identity ∈ liveIdentities manySessions,
    userOptionIdentityFromSnapshot [] ⟨true, false, some identity, [], none⟩ manySessions =
      .ok identity := by
  decide +kernel

/-- A file with some of the entries, and no other options: none of those that are left. -/
structure Filled (file : StoreFile) (count : ℕ) (left : List (Str × Str)) : Prop where
  kept : Kept file
  sessions : file.store.sessionUserOptions = ∅
  live : ∀ identity options, file.store.paneUserOptions.lookup identity = some options →
    identity ∈ liveIdentities manySessions
  entries : ∀ identity name value, valueOf file.store true identity name = some value →
    name ∈ manyNames ∧ value = longValue
  count : userOptionEntryCount file.store = count
  left : ∀ entry ∈ left, valueOf file.store true entry.1 entry.2 = none

/-- All of its sessions being live, nothing is pruned. -/
theorem Filled.prune {file : StoreFile} {count : ℕ} {left : List (Str × Str)}
    (h : Filled file count left) :
    pruneUserOptions (liveIdentities manySessions) file.store = file.store := by
  have hpane : pruneScope (liveIdentities manySessions) file.store.paneUserOptions =
      file.store.paneUserOptions := by
    refine Finmap.ext_lookup fun identity => Option.ext fun options => ?_
    rw [pruneScope, lookup_retain]
    refine ⟨fun h => h.1, fun ho => ⟨ho, ?_⟩⟩
    have hnonempty := h.kept.limits.nonempty true identity options ho
    simp [h.live identity options ho, hnonempty]
  have hsession : pruneScope (liveIdentities manySessions) file.store.sessionUserOptions =
      file.store.sessionUserOptions := by
    rw [h.sessions]
    rfl
  unfold pruneUserOptions
  rw [hpane, hsession]

/-- The counts allow an entry that is left. -/
theorem Filled.allowed {file : StoreFile} {count : ℕ} {left : List (Str × Str)}
    (h : Filled file count left) (hcount : count < 4096) {entry : Str × Str} (hentry : entry ∈ left)
    (hname : entry.2 ∈ manyNames) : Allowed true entry.1 entry.2 file.store := by
  refine .inr ⟨.inr ?_, ?_, ?_⟩
  · have hsub : file.store.paneUserOptions.keys ∪ file.store.sessionUserOptions.keys ⊆
        (liveIdentities manySessions).toFinset := by
      rw [h.sessions, Finmap.keys_empty, Finset.union_empty]
      intro identity hid
      obtain ⟨options, ho⟩ := Finmap.mem_iff.mp (Finmap.mem_keys.mp hid)
      exact List.mem_toFinset.mpr (h.live identity options ho)
    have hcard := (Finset.card_le_card hsub).trans (List.toFinset_card_le _)
    rw [liveIdentities, List.length_map, manySessions, List.length_map, List.length_range] at hcard
    unfold userOptionIdentityCount USER_OPTION_IDENTITIES_MAX
    omega
  · rw [h.count]
    exact hcount
  · have hnone := h.left entry hentry
    rw [valueOf_eq] at hnone
    have hsub : (optionsOf file.store.paneUserOptions entry.1).keys ⊆
        manyNames.toFinset.erase entry.2 := by
      intro name hmem
      obtain ⟨value, hv⟩ := Finmap.mem_iff.mp (Finmap.mem_keys.mp hmem)
      have hvalue : valueOf file.store true entry.1 name = some value := by
        rw [valueOf_eq]
        exact hv
      refine Finset.mem_erase.mpr ⟨?_, List.mem_toFinset.mpr (h.entries _ _ _ hvalue).1⟩
      rintro rfl
      exact absurd (hnone.symm.trans hv) (by simp)
    have hcard := Finset.card_le_card hsub
    rw [Finset.card_erase_of_mem (List.mem_toFinset.mpr hname)] at hcard
    have hnames := List.toFinset_card_le manyNames
    have hlength : manyNames.length = 64 := by rw [manyNames, List.length_map, List.length_range]
    have hempty : size (optionsOf file.store.sessionUserOptions entry.1) = 0 := by
      rw [h.sessions]
      rfl
    rw [size_eq_card_keys, hempty]
    unfold USER_OPTIONS_PER_IDENTITY_MAX
    omega

/-- The file cannot hold all of the entries. -/
theorem Filled.count_lt {file : StoreFile} {count : ℕ} {left : List (Str × Str)}
    (h : Filled file count left) : count < 4096 := by
  have hcount : total size file.store.paneUserOptions = count := by
    have := h.count
    unfold userOptionEntryCount at this
    rw [h.sessions] at this
    exact this
  have hle : 4098 * count ≤ file.store.jsonLen := by
    rw [← hcount]
    refine @mul_entryCount_le _ 4096 fun identity name value hv => ?_
    rw [(h.entries identity name value hv).2, longValue, List.length_replicate]
    exact le_rfl
  have hmax : file.store.jsonLen ≤ COMPAT_STORE_MAX_BYTES := by
    have hsound := h.kept.sound
    cases file with
    | missing => decide
    | text len parsed =>
      obtain ⟨store, rfl, rfl, hlen⟩ := hsound
      rwa [store_text hlen]
  unfold COMPAT_STORE_MAX_BYTES at hmax
  omega

/-- The identity depends on the scope and the target alone. -/
theorem identity_congr {args args' : UserOptionArgs} (hpane : args.pane = args'.pane)
    (htarget : args.target = args'.target) (defaultTarget : Str) (sessions : List SessionInfo) :
    userOptionIdentityFromSnapshot defaultTarget args sessions =
      userOptionIdentityFromSnapshot defaultTarget args' sessions := by
  unfold userOptionIdentityFromSnapshot
  rw [hpane, htarget]

theorem setLong_identity {entry : Str × Str} (h : entry.1 ∈ liveIdentities manySessions) :
    snapshotIdentity .fine ⟨.ok manySessions, []⟩
      ⟨true, false, some entry.1, entry.2, some longValue⟩ = .ok (manySessions, entry.1) := by
  have hidentity : userOptionIdentityFromSnapshot []
      ⟨true, false, some entry.1, entry.2, some longValue⟩ manySessions = .ok entry.1 :=
    (@identity_congr _ ⟨true, false, some entry.1, [], none⟩ rfl rfl [] _).trans
      (manySessions_identity entry.1 h)
  unfold snapshotIdentity
  simp only [hidentity]
  rfl

/-- Setting an entry that is left either adds it or is refused for the size of the file. -/
theorem Filled.set {file : StoreFile} {count : ℕ} {entry : Str × Str} {left : List (Str × Str)}
    (h : Filled file count (entry :: left)) (hmem : entry ∈ manyEntries) (hnodup : entry ∉ left) :
    (perform file (setLong entry)).2 = .error (oversizedMessage Io.fine.path) ∨
      Filled (step file (setLong entry)) (count + 1) left := by
  obtain ⟨hlive, hname⟩ := List.mem_product.mp hmem
  have hallowed := h.allowed h.count_lt List.mem_cons_self hname
  have hperform := @perform_set _ _ _ h.kept.sound .fine _ _ _ rfl rfl (setLong_identity hlive) rfl
    rfl (manyNames_valid _ hname) longValue_valid (by rw [h.prune]; exact hallowed)
  rw [h.prune] at hperform
  by_cases hlen : (withOption true entry.1 entry.2 longValue file.store).jsonLen >
      COMPAT_STORE_MAX_BYTES
  · exact .inl (hperform.1.trans (if_pos hlen))
  · have hstore : (step file (setLong entry)).store =
        withOption true entry.1 entry.2 longValue file.store :=
      hperform.2 (hperform.1.trans (if_neg hlen))
    have hnone := h.left entry List.mem_cons_self
    refine .inr ⟨step_kept file (setLong entry) h.kept, ?_, ?_, ?_, ?_, ?_⟩
    · rw [hstore]
      exact h.sessions
    · intro identity options ho
      rw [hstore] at ho
      have ho : (file.store.paneUserOptions.insert _ _).lookup identity = some options := ho
      rw [lookup_insert] at ho
      split_ifs at ho with hid
      · rw [hid]
        exact hlive
      · exact h.live identity options ho
    · intro identity name value hv
      rw [hstore, valueOf_withOption] at hv
      split_ifs at hv with hsame
      · exact ⟨hsame.2.2 ▸ hname, (Option.some.inj hv).symm⟩
      · exact h.entries identity name value hv
    · rw [hstore, entryCount_withOption, h.count, added, hnone]
      rfl
    · intro other hother
      rw [hstore, valueOf_withOption, if_neg]
      · exact h.left other (List.mem_cons_of_mem _ hother)
      · rintro ⟨-, hid, hname⟩
        exact hnodup (Prod.ext hid hname ▸ hother)

end LightTerminal.Tmux.UserOptions
