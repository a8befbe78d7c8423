import LightTerminal.Library.Cursor
import LightTerminal.Tmux.ShortFlags
import LightTerminal.Tmux.UserOptions

/-! # Which user options a command is about

`set-option` and `show-options` walk their arguments twice. The routing scan looks for a name that
starts with `@` and decides whether the command is about a user option at all; the strict parser then
reads the same arguments again. The two have different rules for clusters, for unknown flags and for
what follows a flag.

* as long as the strict parser finds nothing to refuse, both stand at the same argument, and the first
  argument that is no option is the name for both (`turn_agree`);
* so on arguments that the strict parser accepts, the routing scan returns the name exactly if it
  starts with `@` (`routed`), and neither command leaves such a name unserved. -/

namespace LightTerminal.Tmux.OptionRouting

open LightTerminal.Data.Text LightTerminal.Library.Cursor
open LightTerminal.Tmux.ShortFlags LightTerminal.Tmux.Store
open LightTerminal.Tmux.UserOptions (Surroundings validateUserOptionName readUserOption)

/-! ## The source -/

/-- `UserOptionArgs`. -/
structure UserOptionArgs extends UserOptions.UserOptionArgs where
  quiet : Bool
  valueOnly : Bool
deriving DecidableEq

/-- `UserOptionCommand`. -/
inductive UserOptionCommand
  | set
  | show
deriving DecidableEq

/-- `user_option_flag_supported`. -/
def userOptionFlagSupported (command : UserOptionCommand) (flag : Char) : Bool :=
  decide (flag ∈ ['q', 'p']) || decide (command = .set ∧ flag = 'u') ||
    decide (command = .show ∧ flag = 'v')

/-- The flags at which the routing scan stops in a cluster. -/
def stopsRouting (command : UserOptionCommand) (flag : Char) : Bool :=
  flag == 't' || (!userOptionFlagSupported command flag && isValueTakingShortFlag flag)

/-- The answer of the routing scan about an argument that is no option. -/
def userOptionName (arg : Str) : Option Str := if arg.head? = some '@' then some arg else none

/-- A turn of the loop of `actual_user_option_name`, whose state is `options`. -/
def routingTurn (command : UserOptionCommand) (arg : Str) (rest : List Str) (options : Bool) :
    Turn Bool (Option Str) :=
  if options ∧ arg = ['-', '-'] then .next 1 false
  else if options ∧ arg = ['-', 't'] then .next 2 options
  else if options ∧ ['-', 't'] <+: arg ∧ 2 < byteLen arg then .next 1 options
  else if options ∧ arg.head? = some '-' ∧ arg ≠ ['-'] then
    match shortCluster arg with
    | none => .next 1 options
    | some cluster =>
      match cluster.dropWhile fun flag => !stopsRouting command flag with
      | [] => .next 1 options
      | valueFlag :: attachedValue =>
        if valueFlag = 't' then
          .next ((if attachedValue = [] ∧ rest.head?.isSome then 1 else 0) + 1) options
        else if attachedValue = [] then
          match rest.head? with
          | none => .done none
          | some value => if value.head? = some '@' then .done (some value) else .next 2 options
        else .next 1 options
  else .done (userOptionName arg)

/-- `actual_user_option_name`. -/
def actualUserOptionName (args : List Str) (command : UserOptionCommand) : Option Str :=
  walk (routingTurn command) (fun _ => none) 0 args true

/-- The state of the loop of `parse_user_option_args`. -/
structure ParseState where
  parsed : UserOptionArgs
  positional : List Str
  options : Bool

/-- The loop over a cluster. -/
def readFlags (isSet : Bool) : Str → UserOptionArgs → Except Str UserOptionArgs
  | [], parsed => .ok parsed
  | flag :: flags, parsed =>
    if flag = 'q' then readFlags isSet flags { parsed with quiet := true }
    else if flag = 'p' then readFlags isSet flags { parsed with pane := true }
    else if flag = 'u' ∧ isSet then readFlags isSet flags { parsed with unset := true }
    else if flag = 'v' ∧ !isSet then readFlags isSet flags { parsed with valueOnly := true }
    else .error ("unsupported tmux user-option flag: -".toList ++ [flag])

/-- A turn of the loop of `parse_user_option_args`. -/
def parseTurn (isSet : Bool) (arg : Str) (rest : List Str) (st : ParseState) :
    Turn ParseState (Except Str UserOptionArgs) :=
  if st.options ∧ arg = ['-', '-'] then .next 1 { st with options := false }
  else if st.options ∧ arg = ['-', 't'] then
    match valueForOption rest.head? ['-', 't'] with
    | .error err => .done (.error err)
    | .ok target => .next 2 { st with parsed := { st.parsed with target := some target } }
  else if st.options ∧ ['-', 't'] <+: arg ∧ 2 < byteLen arg then
    match valueForOption (some (arg.drop 2)) ['-', 't'] with
    | .error err => .done (.error err)
    | .ok target => .next 1 { st with parsed := { st.parsed with target := some target } }
  else if st.options ∧ arg.head? = some '-' ∧ arg ≠ ['-'] then
    match shortCluster arg with
    | none => .done (.error ("unsupported tmux user-option flag: ".toList ++ arg))
    | some cluster =>
      if 't' ∈ cluster then
        .done (.error "tmux user-option target flag -t may not be clustered".toList)
      else
        match readFlags isSet cluster st.parsed with
        | .error err => .done (.error err)
        | .ok parsed => .next 1 { st with parsed := parsed }
  else .next 1 { st with options := false, positional := st.positional ++ [arg] }

/-- The end of `parse_user_option_args`, with as many arguments as the command has. -/
def finishParse (isSet : Bool) (st : ParseState) : Except Str UserOptionArgs :=
  let expected := if isSet ∧ !st.parsed.unset then 2 else 1
  let refused : Str := "tmux user-option command requires exactly ".toList ++ decimal expected ++
    " positional argument".toList ++ if expected = 1 then [] else ['s']
  if st.positional.length ≠ expected then .error refused
  else
    match st.positional with
    | [] => .error refused
    | name :: positional => .ok { st.parsed with name := name, value := positional.getLast? }

/-- `parse_user_option_args`. -/
def parseUserOptionArgs (args : List Str) (isSet : Bool) : Except Str UserOptionArgs :=
  walk (parseTurn isSet) (finishParse isSet) 0 args
    { parsed :=
        { pane := false, unset := false, target := none, name := [], value := none, quiet := false,
          valueOnly := false }
      positional := []
      options := true }

/-- `set_option`. -/
def setOption (io : Io) (around : Surroundings) (args : List Str) (file : StoreFile) :
    StoreFile × Except Str Unit :=
  match actualUserOptionName args .set with
  | none => (file, .ok ())
  | some _ =>
    match parseUserOptionArgs args true with
    | .error err => (file, .error err)
    | .ok parsed => UserOptions.setOption io around parsed.toUserOptionArgs file

/-- What `show_option` prints: what `legacy_show_option` does, a line, or nothing. -/
inductive Shown
  | legacy
  | line (text : Str)
  | nothing
deriving DecidableEq

/-- `show_option` after its arguments are parsed. -/
def showParsed (io : Io) (around : Surroundings) (parsed : UserOptionArgs) (file : StoreFile) :
    StoreFile × Except Str Shown :=
  match validateUserOptionName parsed.name with
  | .error err => (file, .error err)
  | .ok () =>
    match readUserOption io around parsed.toUserOptionArgs file with
    | (file, .error err) => (file, .error err)
    | (file, .ok (some value)) =>
      (file, .ok (.line (if parsed.valueOnly then value else parsed.name ++ ' ' :: value)))
    | (file, .ok none) =>
      if parsed.quiet then (file, .ok .nothing)
      else
        (file, .error ("unknown tmux user option: ".toList ++
          Session.Segment.terminalText parsed.name))

/-- `show_option`. -/
def showOption (io : Io) (around : Surroundings) (args : List Str) (file : StoreFile) :
    StoreFile × Except Str Shown :=
  match actualUserOptionName args .show with
  | none => (file, .ok .legacy)
  | some _ =>
    match parseUserOptionArgs args false with
    | .error err => (file, .error err)
    | .ok parsed => showParsed io around parsed file

/-! ## One turn of both scans -/

variable {command : UserOptionCommand}

/-- A cluster that the strict parser accepts has no flags but those of its command. -/
theorem readFlags_supported {cluster : Str} : ∀ {parsed parsed' : UserOptionArgs},
    readFlags (decide (command = .set)) cluster parsed = .ok parsed' →
      ∀ flag ∈ cluster, userOptionFlagSupported command flag = true := by
  induction cluster with
  | nil => intro _ _ _ flag hflag; exact absurd hflag (by simp)
  | cons first flags ih =>
    intro parsed parsed' h flag hflag
    have hhead : ∀ {next : UserOptionArgs}, userOptionFlagSupported command first = true →
        readFlags (decide (command = .set)) flags next = .ok parsed' →
        userOptionFlagSupported command flag = true := by
      intro next hfirst hrest
      rcases List.mem_cons.mp hflag with rfl | hmem
      · exact hfirst
      · exact ih hrest flag hmem
    unfold readFlags at h
    split_ifs at h with hq hp hu hv
    · exact hhead (by simp [userOptionFlagSupported, hq]) h
    · exact hhead (by simp [userOptionFlagSupported, hp]) h
    · have hset : command = .set := of_decide_eq_true hu.2
      exact hhead (by simp [userOptionFlagSupported, hu.1, hset]) h
    · have hshow : command = .show := by
        cases command with
        | set => exact absurd hv.2 (by decide)
        | «show» => rfl
      exact hhead (by simp [userOptionFlagSupported, hv.1, hshow]) h

theorem not_stopsRouting {flag : Char} (ht : flag ≠ 't')
    (hs : userOptionFlagSupported command flag = true) : stopsRouting command flag = false := by
  simp [stopsRouting, ht, hs]

/-- **One turn of both scans**, before the first argument that is no option: the strict parser refuses
the argument, or both scans go on in step, or both are past the options, or the argument is the first
that is no option. -/
theorem turn_agree (command : UserOptionCommand) (arg : Str) (rest : List Str) {st : ParseState} (ho : st.options = true) :
    (∃ err, parseTurn (decide (command = .set)) arg rest st = .done (.error err)) ∨
    (∃ width parsed, parseTurn (decide (command = .set)) arg rest st =
        .next width { st with parsed := parsed } ∧
      routingTurn command arg rest true = .next width true) ∨
    (parseTurn (decide (command = .set)) arg rest st = .next 1 { st with options := false } ∧
      routingTurn command arg rest true = .next 1 false) ∨
    (parseTurn (decide (command = .set)) arg rest st =
        .next 1 { st with options := false, positional := st.positional ++ [arg] } ∧
      routingTurn command arg rest true = .done (userOptionName arg)) := by
  unfold parseTurn routingTurn
  simp only [ho, true_and]
  by_cases hend : arg = ['-', '-']
  · rw [if_pos hend, if_pos hend]
    exact .inr (.inr (.inl ⟨rfl, rfl⟩))
  rw [if_neg hend, if_neg hend]
  by_cases ht : arg = ['-', 't']
  · rw [if_pos ht, if_pos ht]
    rcases rest with - | ⟨target, rest⟩
    · exact .inl ⟨_, rfl⟩
    · exact .inr (.inl ⟨2, _, rfl, rfl⟩)
  rw [if_neg ht, if_neg ht]
  by_cases hattached : ['-', 't'] <+: arg ∧ 2 < byteLen arg
  · rw [if_pos hattached, if_pos hattached]
    exact .inr (.inl ⟨1, _, rfl, rfl⟩)
  rw [if_neg hattached, if_neg hattached]
  by_cases hflag : arg.head? = some '-' ∧ arg ≠ ['-']
  · rw [if_pos hflag, if_pos hflag]
    rcases hcluster : shortCluster arg with - | cluster
    · exact .inl ⟨_, rfl⟩
    by_cases hclustered : 't' ∈ cluster
    · simp only [if_pos hclustered]
      exact .inl ⟨_, rfl⟩
    simp only [if_neg hclustered]
    rcases hread : readFlags (decide (command = .set)) cluster st.parsed with err | parsed
    · exact .inl ⟨err, rfl⟩
    · -- no flag of the cluster is one at which the routing scan stops
      have hnone : cluster.dropWhile (fun flag => !stopsRouting command flag) = [] := by
        rw [List.dropWhile_eq_nil_iff]
        intro flag hmem
        have hne : flag ≠ 't' := fun he => hclustered (he ▸ hmem)
        rw [not_stopsRouting hne (readFlags_supported hread flag hmem)]
        rfl
      rw [hnone]
      exact .inr (.inl ⟨1, parsed, rfl, rfl⟩)
  · rw [if_neg hflag, if_neg hflag]
    exact .inr (.inr (.inr ⟨rfl, rfl⟩))

/-! ## Whole runs -/

/-- Past the options the strict parser takes every argument as it is. -/
theorem parse_positional {isSet : Bool} : ∀ (args : List Str) {st : ParseState}, st.options = false →
    walk (parseTurn isSet) (finishParse isSet) 0 args st =
      finishParse isSet { st with positional := st.positional ++ args } := by
  intro args
  induction args with
  | nil => intro st _; rw [walk_nil, List.append_nil]
  | cons arg rest ih =>
    intro st ho
    have hturn : parseTurn isSet arg rest st =
        .next 1 { st with options := false, positional := st.positional ++ [arg] } := by
      simp [parseTurn, ho]
    rw [walk_next hturn, Nat.sub_self, ih rfl]
    show finishParse isSet { st with
      options := false, positional := st.positional ++ [arg] ++ rest } = _
    rw [List.append_assoc, List.singleton_append, ho]

/-- The name that the strict parser accepts is the first argument that is no option. -/
theorem finishParse_name {isSet : Bool} {st : ParseState} {parsed : UserOptionArgs}
    (h : finishParse isSet st = .ok parsed) : st.positional.head? = some parsed.name := by
  unfold finishParse at h
  simp only at h
  by_cases hl : st.positional.length ≠ if isSet ∧ !st.parsed.unset then 2 else 1
  · rw [if_pos hl] at h
    exact absurd h (by simp)
  · rw [if_neg hl] at h
    rcases hpos : st.positional with - | ⟨name, positional⟩
    · rw [hpos] at h
      exact absurd h (by simp)
    · rw [hpos] at h
      have he := Except.ok.inj h
      rw [← he]
      rfl

/-- **Both scans over the same arguments**, from a cursor before the first argument that is no option. -/
theorem walk_agree : ∀ (args : List Str) (skip : ℕ) {st : ParseState} {parsed : UserOptionArgs},
    st.options = true → st.positional = [] →
    walk (parseTurn (decide (command = .set))) (finishParse (decide (command = .set))) skip args st =
      .ok parsed →
    walk (routingTurn command) (fun _ => none) skip args true = userOptionName parsed.name := by
  intro args
  induction args with
  | nil =>
    intro skip st parsed _ hp h
    rw [walk_nil] at h
    have hname := finishParse_name h
    rw [hp] at hname
    exact absurd hname (by simp)
  | cons arg rest ih =>
    intro skip st parsed ho hp h
    rcases skip with - | skip
    · rcases turn_agree command arg rest ho with
        ⟨err, hparse⟩ | ⟨width, next, hparse, hroute⟩ | ⟨hparse, hroute⟩ | ⟨hparse, hroute⟩
      · rw [walk_done hparse] at h
        exact absurd h (by simp)
      · rw [walk_next hparse] at h
        rw [walk_next hroute]
        exact ih _ (by exact ho) (by exact hp) h
      · -- after `--` the next argument is the first positional one
        rw [walk_next hparse, Nat.sub_self, parse_positional rest rfl] at h
        rw [walk_next hroute, Nat.sub_self]
        have hname := finishParse_name h
        rcases rest with - | ⟨name, rest⟩
        · exact absurd hname (by simp [hp])
        · have he : name = parsed.name := by simpa [hp] using hname
          rw [← he]
          exact walk_done (by simp [routingTurn])
      · rw [walk_next hparse, Nat.sub_self, parse_positional rest rfl] at h
        rw [walk_done hroute]
        have hname := finishParse_name h
        have he : arg = parsed.name := by simpa [hp] using hname
        rw [he]
    · exact ih skip ho hp h

/-- On arguments that the strict parser accepts, the routing scan returns the name exactly if it starts
with `@`. -/
theorem routed (command : UserOptionCommand) {args : List Str} {parsed : UserOptionArgs}
    (h : parseUserOptionArgs args (decide (command = .set)) = .ok parsed) :
    actualUserOptionName args command = userOptionName parsed.name :=
  walk_agree args 0 rfl rfl h

/-- What `set_option` does with arguments that the strict parser accepts and whose name starts with `@`:
it fails and leaves the file as it is, or the store has the option. -/
theorem setOption_accepted {args : List Str} {parsed : UserOptionArgs}
    (h : parseUserOptionArgs args true = .ok parsed) (hname : parsed.name.head? = some '@') (io : Io)
    (around : Surroundings) {file : StoreFile} (hsound : file.Sound) :
    (∃ err, setOption io around args file = (file, .error err)) ∨
      ∃ file', setOption io around args file = (file', .ok ()) ∧
        UserOptions.Done file.store (.set io around parsed.toUserOptionArgs) none file'.store := by
  have hroute : actualUserOptionName args .set = some parsed.name := by
    rw [routed .set h, userOptionName, if_pos hname]
  have he : setOption io around args file =
      UserOptions.setOption io around parsed.toUserOptionArgs file := by
    unfold setOption
    rw [hroute, h]
  rw [he]
  rcases UserOptions.setOption_done hsound io around parsed.toUserOptionArgs with
    herr | ⟨file', hok, -, hdone⟩
  · exact .inl herr
  · exact .inr ⟨file', hok, hdone⟩

/-- What `show_option` does with arguments that the strict parser accepts and whose name starts with
`@`. -/
theorem showOption_accepted {args : List Str} {parsed : UserOptionArgs}
    (h : parseUserOptionArgs args false = .ok parsed) (hname : parsed.name.head? = some '@') (io : Io)
    (around : Surroundings) (file : StoreFile) :
    showOption io around args file = showParsed io around parsed file := by
  have hroute : actualUserOptionName args .show = some parsed.name := by
    rw [routed .show h, userOptionName, if_pos hname]
  unfold showOption
  rw [hroute, h]

/-- A parsed option is never shown the legacy way. -/
theorem showParsed_ne_legacy (io : Io) (around : Surroundings) (parsed : UserOptionArgs)
    (file : StoreFile) : (showParsed io around parsed file).2 ≠ .ok .legacy := by
  unfold showParsed
  split
  · simp
  · split
    · simp
    · simp
    · split_ifs <;> simp

/-- **No user option is dropped.** On arguments that the strict parser accepts, the routing scan finds
the name if it starts with `@`, and no other name. So `set_option` succeeds on such a name only by
storing or removing the option, and `show_option` does not fall back to the legacy path. -/
theorem accepted_served (args : List Str) (command : UserOptionCommand) (parsed : UserOptionArgs)
    (h : parseUserOptionArgs args (decide (command = .set)) = .ok parsed) :
    (parsed.name.head? = some '@' → actualUserOptionName args command = some parsed.name) ∧
    (∀ name, actualUserOptionName args command = some name → name = parsed.name) ∧
    (parsed.name.head? = some '@' → command = .set →
      ∀ (io : Io) (around : Surroundings) (file : StoreFile), file.Sound →
        (∃ err, setOption io around args file = (file, .error err)) ∨
          ∃ file', setOption io around args file = (file', .ok ()) ∧
            UserOptions.Done file.store (.set io around parsed.toUserOptionArgs) none file'.store) ∧
    (parsed.name.head? = some '@' → command = .show →
      ∀ (io : Io) (around : Surroundings) (file : StoreFile),
        showOption io around args file = showParsed io around parsed file ∧
          (showOption io around args file).2 ≠ .ok .legacy) := by
  have hroute := routed command h
  refine ⟨fun hname => ?_, fun name hfound => ?_, fun hname hset io around file hsound => ?_,
    fun hname hshow io around file => ?_⟩
  · rw [hroute, userOptionName, if_pos hname]
  · rw [hroute, userOptionName] at hfound
    split_ifs at hfound
    exact (Option.some.inj hfound).symm
  · rw [hset] at h
    exact setOption_accepted h hname io around hsound
  · rw [hshow] at h
    have he := showOption_accepted h hname io around file
    rw [he]
    exact ⟨rfl, showParsed_ne_legacy io around parsed file⟩

/-- `set-option -qp -t %1 -- @theme dark`. -/
theorem accepted_served_theme :
    actualUserOptionName
      ["-qp".toList, "-t".toList, "%1".toList, "--".toList, "@theme".toList, "dark".toList] .set =
        some "@theme".toList :=
  (accepted_served _ .set
    { pane := true, unset := false, target := some "%1".toList, name := "@theme".toList,
      value := some "dark".toList, quiet := true, valueOnly := false } (by decide)).1 (by decide)

end LightTerminal.Tmux.OptionRouting
