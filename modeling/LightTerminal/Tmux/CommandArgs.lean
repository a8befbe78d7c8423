import LightTerminal.Library.FiniteMap
import LightTerminal.Server.StyledRevisions
import LightTerminal.Tmux.ShortFlags

/-! # The argument loops of the tmux commands

`send-keys`, `capture-pane`, `split-window`, `new-session` and `display-message` each have a loop of
their own over their arguments: an arm for every flag that stands alone, one for `--`, one for every
other argument that starts with a dash, and one for what does not. A turn of such a loop is a function
of the argument, the arguments after it and what is parsed so far.

What the loops conform to is in `CommandGrammars`. -/

namespace LightTerminal.Tmux.CommandArgs

open LightTerminal.Data.Text LightTerminal.Library LightTerminal.Library.Cursor
open LightTerminal.Library.FiniteMap LightTerminal.Library.ShortOptions LightTerminal.Tmux.ShortFlags
open LightTerminal.Server.StyledRevisions (parseU64)

/-! ## send-keys -/

/-- The value flags of `send_keys` that the generic parser does not know. -/
def sendKeysValueFlags : List Char := ['N']

/-- `parse_send_keys_repeat`, with a `usize` of 64 bits. -/
def parseSendKeysRepeat (value : Option Str) : Except Str ℕ :=
  match value with
  | none => .error "send-keys -N requires a repeat count".toList
  | some value =>
    match parseU64 value with
    | none => .error ("invalid send-keys -N repeat count: ".toList ++ value)
    | some 0 => .error "send-keys -N repeat count must be greater than zero".toList
    | some count => .ok count

/-- A turn of the loop of `parse_target_with_value_flags`, whose state is the target. -/
def targetTurn (extraValueFlags : List Char) (arg : Str) (rest : List Str) (target : Option Str) :
    Turn (Option Str) (Except Str (Option Str)) :=
  if arg = ['-', '-'] then .done (.ok target)
  else if arg = ['-', 't'] then .ofExcept 2 (targetValue rest.head? ['-', 't'])
  else if ['-', 't', '='] <+: arg then .ofExcept 1 (targetValue (some (arg.drop 3)) ['-', 't'])
  else if ['-', 't'] <+: arg ∧ 2 < byteLen arg then
    .ofExcept 1 (targetValue (some (arg.drop 2)) ['-', 't'])
  else
    match shortClusterFlagValueWithExtra arg 't' rest extraValueFlags with
    | some (_, some value) =>
      .ofExcept (flagArgWidthWithExtra arg rest extraValueFlags)
        (targetValue (some value) ['-', 't'])
    | some (_, none) =>
      .ofExcept (flagArgWidthWithExtra arg rest extraValueFlags) (targetValue rest.head? ['-', 't'])
    | none =>
      if arg.head? = some '-' then .next (flagArgWidthWithExtra arg rest extraValueFlags) target
      else .done (.ok target)

/-- `parse_target_with_value_flags`. -/
def parseTargetWithValueFlags (args : List Str) (extraValueFlags : List Char) :
    Except Str (Option Str) :=
  walk (targetTurn extraValueFlags) .ok 0 args none

/-- What the loop of `send_keys` fills in. -/
structure SendKeysArgs where
  literal : Bool
  repeatCount : ℕ
  keys : List Str
deriving DecidableEq

/-- A turn of the loop of `send_keys`. -/
def sendKeysTurn (arg : Str) (rest : List Str) (parsed : SendKeysArgs) :
    Turn SendKeysArgs (Except Str SendKeysArgs) :=
  if arg = ['-', 't'] then .next 2 parsed
  else if arg = ['-', 'l'] then .next 1 { parsed with literal := true }
  else if arg = ['-', 'N'] then
    .ofExcept 2 ((parseSendKeysRepeat rest.head?).map fun repeatCount => { parsed with repeatCount })
  else if arg = ['-', '-'] then .done (.ok { parsed with keys := parsed.keys ++ rest })
  else if arg.head? = some '-' then
    match shortClusterFlagValueWithExtra arg 'N' rest sendKeysValueFlags with
    | some (_, value) =>
      .ofExcept (flagArgWidthWithExtra arg rest sendKeysValueFlags)
        ((parseSendKeysRepeat (value.or rest.head?)).map fun repeatCount =>
          { parsed with repeatCount })
    | none => .next (flagArgWidthWithExtra arg rest sendKeysValueFlags) parsed
  else .done (.ok { parsed with keys := parsed.keys ++ arg :: rest })

/-- What `send_keys` parses: the target, and the rest. -/
def parseSendKeys (args : List Str) : Except Str (Option Str × SendKeysArgs) :=
  match parseTargetWithValueFlags args sendKeysValueFlags with
  | .error err => .error err
  | .ok target =>
    (walk sendKeysTurn .ok 0 args { literal := false, repeatCount := 1, keys := [] }).map
      fun parsed => (target, parsed)

/-! ## capture-pane -/

/-- The value flags of `parse_capture_pane_args`. -/
def capturePaneValueFlags : List Char := ['S', 'E', 'b', 't']

/-- `CapturePaneArgs`. -/
structure CapturePaneArgs where
  target : Option Str
  print : Bool
  start : Option ℤ
  «end» : Option ℤ
deriving DecidableEq

/-- `str::parse::<i32>`. -/
def parseI32 (text : Str) : Option ℤ :=
  let digits := if text.head? = some '+' ∨ text.head? = some '-' then text.tail else text
  let value := digits.foldl (fun n ch => 10 * n + (ch.toNat - '0'.toNat)) 0
  if digits = [] ∨ ¬ digits.all isAsciiDigit then none
  else if text.head? = some '-' then if value ≤ 2 ^ 31 then some (-(value : ℤ)) else none
  else if value < 2 ^ 31 then some value else none

/-- `parse_capture_line_value`. -/
def parseCaptureLineValue (flag : Char) (value : Option Str) : Except Str (Option ℤ) :=
  match value with
  | none => .error ("capture-pane -".toList ++ flag :: " requires a line value".toList)
  | some value =>
    if value = ['-'] then .ok none
    else if flag = 'S' ∧ value.map Char.toLower = "top".toList then .ok (some 0)
    else
      match parseI32 value with
      | some line => .ok (some line)
      | none =>
        .error ("invalid capture-pane -".toList ++ flag :: " line value: ".toList ++ value)

/-- What a target flag does in the arm of `parse_capture_pane_args` for flags. -/
def captureTarget (flag : Str) (rest : List Str) (parsed : CapturePaneArgs) :
    Except Str CapturePaneArgs :=
  if ['-', 't', '='] <+: flag then
    (targetValue (some (flag.drop 3)) ['-', 't']).map fun target => { parsed with target }
  else if ['-', 't'] <+: flag ∧ 2 < byteLen flag then
    (targetValue (some (flag.drop 2)) ['-', 't']).map fun target => { parsed with target }
  else
    match shortClusterFlagValueWithExtra flag 't' rest capturePaneValueFlags with
    | some (_, some value) =>
      (targetValue (some value) ['-', 't']).map fun target => { parsed with target }
    | some (_, none) =>
      (targetValue rest.head? ['-', 't']).map fun target => { parsed with target }
    | none => .ok parsed

/-- The arm of `parse_capture_pane_args` for flags. -/
def captureFlag (flag : Str) (rest : List Str) (parsed : CapturePaneArgs) :
    Except Str CapturePaneArgs :=
  match captureTarget flag rest parsed with
  | .error err => .error err
  | .ok parsed =>
    let parsed :=
      if hasFlagInArgWithValueFlags flag 'p' capturePaneValueFlags then { parsed with print := true }
      else parsed
    let started :=
      match shortClusterFlagValueWithExtra flag 'S' rest capturePaneValueFlags with
      | some (_, value) =>
        (parseCaptureLineValue 'S' value).map fun start => { parsed with start }
      | none => .ok parsed
    match started with
    | .error err => .error err
    | .ok parsed =>
      match shortClusterFlagValueWithExtra flag 'E' rest capturePaneValueFlags with
      | some (_, value) =>
        (parseCaptureLineValue 'E' value).map fun line => { parsed with «end» := line }
      | none => .ok parsed

/-- A turn of the loop of `parse_capture_pane_args`. -/
def capturePaneTurn (arg : Str) (rest : List Str) (parsed : CapturePaneArgs) :
    Turn CapturePaneArgs (Except Str CapturePaneArgs) :=
  if arg = ['-', '-'] then .done (.ok parsed)
  else if arg = ['-', 'p'] then .next 1 { parsed with print := true }
  else if arg = ['-', 't'] then
    .ofExcept 2 ((targetValue rest.head? ['-', 't']).map fun target => { parsed with target })
  else if arg = ['-', 'S'] then
    .ofExcept 2 ((parseCaptureLineValue 'S' rest.head?).map fun start => { parsed with start })
  else if arg = ['-', 'E'] then
    .ofExcept 2 ((parseCaptureLineValue 'E' rest.head?).map fun line =>
      { parsed with «end» := line })
  else if arg = ['-', 'b'] then .next 2 parsed
  else if arg = ['-', 'e'] ∨ arg = ['-', 'J'] then .next 1 parsed
  else if arg.head? = some '-' then
    .ofExcept (flagArgWidthWithExtra arg rest capturePaneValueFlags) (captureFlag arg rest parsed)
  else .next 1 parsed

/-- `parse_capture_pane_args`. -/
def parseCapturePaneArgs (args : List Str) : Except Str CapturePaneArgs :=
  walk capturePaneTurn .ok 0 args { target := none, print := false, start := none, «end» := none }

/-! ## split-window -/

/-- `VALUE_FLAGS` of `split_window`. -/
def splitWindowValueFlags : List Char := ['e', 'l', 'p']

/-- `BOOLEAN_VALUE_OVERRIDES` of `split_window`. -/
def splitWindowBooleanOverrides : List Char := ['f']

/-- `assignment.split_once('=')`. -/
def splitOnceEquals (assignment : Str) : Option (Str × Str) :=
  if '=' ∈ assignment then
    some (assignment.takeWhile (· ≠ '='), (assignment.dropWhile (· ≠ '=')).drop 1)
  else none

/-- `parse_split_window_env_assignment`: the entry that it inserts. -/
def parseSplitWindowEnvAssignment (assignment : Str) : Except Str (Str × Str) :=
  match splitOnceEquals assignment with
  | none => .error "tmux split-window -e requires NAME=value".toList
  | some (key, value) =>
    if key = [] then .error "tmux split-window -e requires a non-empty variable name".toList
    else .ok (key, value)

/-- What the loop of `split_window` fills in. -/
structure SplitWindowArgs where
  horizontal : Bool
  backward : Bool
  print : Bool
  format : Str
  target : Option Str
  cwd : Option Str
  detached : Bool
  command : List Str
  paneEnv : Map Str Str
deriving DecidableEq

/-- The state after `-e` with an assignment. -/
def splitWindowEnv (value : Option Str) (parsed : SplitWindowArgs) : Except Str SplitWindowArgs :=
  match valueForOption value ['-', 'e'] with
  | .error err => .error err
  | .ok assignment =>
    (parseSplitWindowEnvAssignment assignment).map fun entry =>
      { parsed with paneEnv := parsed.paneEnv.insert entry.1 entry.2 }

/-- `has_flag_in_arg…` with the tables of `split_window`. -/
def splitWindowHasFlag (flag : Str) (needle : Char) : Bool :=
  hasFlagInArgWithValueFlagsAndBooleanOverrides flag needle splitWindowValueFlags
    splitWindowBooleanOverrides

/-- `short_cluster_flag_value…` with the tables of `split_window`. -/
def splitWindowFlagValue (flag : Str) (needle : Char) (rest : List Str) :
    Option (ℕ × Option Str) :=
  shortClusterFlagValueWithExtraAndBooleanOverrides flag needle rest splitWindowValueFlags
    splitWindowBooleanOverrides

/-- The flags without values in the arm of `split_window` for flags, of which `has` says which there
are. -/
def splitWindowBooleans (has : Char → Bool) (parsed : SplitWindowArgs) : SplitWindowArgs :=
  let parsed := if has 'h' then { parsed with horizontal := true } else parsed
  let parsed := if has 'v' then { parsed with horizontal := false } else parsed
  let parsed := if has 'b' then { parsed with backward := true } else parsed
  let parsed := if has 'd' then { parsed with detached := true } else parsed
  if has 'P' then { parsed with print := true } else parsed

/-- The arm of `split_window` for flags. -/
def splitWindowFlag (flag : Str) (rest : List Str) (parsed : SplitWindowArgs) :
    Except Str SplitWindowArgs := do
  let parsed := splitWindowBooleans (splitWindowHasFlag flag) parsed
  let parsed ←
    match splitWindowFlagValue flag 'F' rest with
    | some (_, value) =>
      (valueForOption (value.or rest.head?) ['-', 'F']).map fun format => { parsed with format }
    | none => .ok parsed
  let parsed ←
    match splitWindowFlagValue flag 't' rest with
    | some (_, value) =>
      (targetValue (value.or rest.head?) ['-', 't']).map fun target => { parsed with target }
    | none => .ok parsed
  let parsed ←
    match splitWindowFlagValue flag 'c' rest with
    | some (_, value) =>
      (valueForOption (value.or rest.head?) ['-', 'c']).map fun cwd => { parsed with cwd := some cwd }
    | none => .ok parsed
  match splitWindowFlagValue flag 'e' rest with
  | some (_, value) => splitWindowEnv (value.or rest.head?) parsed
  | none => .ok parsed

/-- A turn of the loop of `split_window`. -/
def splitWindowTurn (arg : Str) (rest : List Str) (parsed : SplitWindowArgs) :
    Turn SplitWindowArgs (Except Str SplitWindowArgs) :=
  if arg = ['-', 'h'] then .next 1 { parsed with horizontal := true }
  else if arg = ['-', 'v'] then .next 1 { parsed with horizontal := false }
  else if arg = ['-', 'b'] then .next 1 { parsed with backward := true }
  else if arg = ['-', 'd'] then .next 1 { parsed with detached := true }
  else if arg = ['-', 'P'] then .next 1 { parsed with print := true }
  else if arg = ['-', 'F'] then
    .ofExcept 2 ((valueForOption rest.head? ['-', 'F']).map fun format => { parsed with format })
  else if arg = ['-', 't'] then
    .ofExcept 2 ((targetValue rest.head? ['-', 't']).map fun target => { parsed with target })
  else if arg = ['-', 'c'] then
    .ofExcept 2 ((valueForOption rest.head? ['-', 'c']).map fun cwd =>
      { parsed with cwd := some cwd })
  else if arg = ['-', 'e'] then .ofExcept 2 (splitWindowEnv rest.head? parsed)
  else if arg = ['-', '-'] then .done (.ok { parsed with command := parsed.command ++ rest })
  else if arg.head? = some '-' then
    .ofExcept (flagArgWidthWithExtraAndBooleanOverrides arg rest splitWindowValueFlags
      splitWindowBooleanOverrides) (splitWindowFlag arg rest parsed)
  else .done (.ok { parsed with command := parsed.command ++ arg :: rest })

/-- The loop of `split_window`. -/
def parseSplitWindow (args : List Str) : Except Str SplitWindowArgs :=
  walk splitWindowTurn .ok 0 args
    { horizontal := true, backward := false, print := false
      format := "#\x7bpane_id\x7d".toList
      target := none, cwd := none, detached := false, command := [], paneEnv := ∅ }

/-! ## new-session -/

/-- `NewSessionArgs`, with the command. -/
structure NewSessionArgs where
  detached : Bool
  print : Bool
  format : Str
  name : Option Str
  cwd : Option Str
  command : List Str
deriving DecidableEq

/-- What a flag with a value does in `parse_new_session_short_flags`. -/
def newSessionValue (shortFlag : Char) (value : Option Str) (parsed : NewSessionArgs) :
    Except Str NewSessionArgs :=
  if shortFlag = 'F' then
    (valueForOption value ['-', 'F']).map fun format => { parsed with format }
  else if shortFlag = 's' then
    (valueForOption value ['-', 's']).map fun name => { parsed with name := some name }
  else (valueForOption value ['-', 'c']).map fun cwd => { parsed with cwd := some cwd }

/-- The loop of `parse_new_session_short_flags`: what is parsed, and whether the next argument is
consumed. -/
def newSessionShortFlags (rest : List Str) :
    Str → NewSessionArgs → Except Str (NewSessionArgs × Bool)
  | [], parsed => .ok (parsed, false)
  | shortFlag :: tail, parsed =>
    if shortFlag = 'd' then newSessionShortFlags rest tail { parsed with detached := true }
    else if shortFlag = 'P' then newSessionShortFlags rest tail { parsed with print := true }
    else if shortFlag ∈ ['F', 's', 'c'] then
      if tail = [] then
        (newSessionValue shortFlag rest.head? parsed).map fun parsed => (parsed, true)
      else
        (newSessionValue shortFlag (some (stripEquals tail)) parsed).map fun parsed =>
          (parsed, false)
    else if isValueTakingShortFlag shortFlag then
      .ok (parsed, decide (tail = []) && rest.head?.isSome)
    else newSessionShortFlags rest tail parsed

/-- `parse_new_session_short_flags`. -/
def parseNewSessionShortFlags (flag : Str) (rest : List Str) (parsed : NewSessionArgs) :
    Except Str (NewSessionArgs × Bool) :=
  match shortCluster flag with
  | none => .ok (parsed, false)
  | some cluster => newSessionShortFlags rest cluster parsed

/-- A turn of the loop of `parse_new_session_args`. -/
def newSessionTurn (arg : Str) (rest : List Str) (parsed : NewSessionArgs) :
    Turn NewSessionArgs (Except Str NewSessionArgs) :=
  if arg = ['-', 'd'] then .next 1 { parsed with detached := true }
  else if arg = ['-', 'P'] then .next 1 { parsed with print := true }
  else if arg = ['-', 'F'] then
    .ofExcept 2 ((valueForOption rest.head? ['-', 'F']).map fun format => { parsed with format })
  else if arg = ['-', 's'] then
    .ofExcept 2 ((valueForOption rest.head? ['-', 's']).map fun name =>
      { parsed with name := some name })
  else if arg = ['-', 'c'] then
    .ofExcept 2 ((valueForOption rest.head? ['-', 'c']).map fun cwd =>
      { parsed with cwd := some cwd })
  else if arg = ['-', '-'] then .done (.ok { parsed with command := parsed.command ++ rest })
  else if arg.head? = some '-' then
    match parseNewSessionShortFlags arg rest parsed with
    | .error err => .done (.error err)
    | .ok (parsed, consumedNext) => .next (if consumedNext then 2 else 1) parsed
  else .done (.ok { parsed with command := parsed.command ++ arg :: rest })

/-- `parse_new_session_args`. -/
def parseNewSessionArgs (args : List Str) : Except Str NewSessionArgs :=
  walk newSessionTurn .ok 0 args
    { detached := false, print := false, format := "#\x7bpane_id\x7d".toList, name := none,
      cwd := none, command := [] }

/-! ## display-message -/

/-- What the loop of `display_message` fills in. -/
structure DisplayMessageArgs where
  print : Bool
  target : Option Str
  explicitTarget : Bool
  message : Option Str
deriving DecidableEq

/-- `args.join(" ")`. -/
def joinArgs (args : List Str) : Str := [' '].intercalate args

/-- The arm of `display_message` for flags. -/
def displayMessageFlag (flag : Str) (rest : List Str) (parsed : DisplayMessageArgs) :
    Except Str DisplayMessageArgs := do
  let parsed := if hasFlagInArg flag 'p' then { parsed with print := true } else parsed
  let parsed ←
    match shortClusterFlagValue flag 't' rest with
    | some (_, value) =>
      (targetValue (value.or rest.head?) ['-', 't']).map fun target =>
        { parsed with target, explicitTarget := true }
    | none => .ok parsed
  match shortClusterFlagValue flag 'F' rest with
  | some (_, value) =>
    (valueForOption (value.or rest.head?) ['-', 'F']).map fun message =>
      { parsed with message := some message }
  | none => .ok parsed

/-- A turn of the loop of `display_message`. -/
def displayMessageTurn (arg : Str) (rest : List Str) (parsed : DisplayMessageArgs) :
    Turn DisplayMessageArgs (Except Str DisplayMessageArgs) :=
  if arg = ['-', 'p'] then .next 1 { parsed with print := true }
  else if arg = ['-', 't'] then
    .ofExcept 2 ((targetValue rest.head? ['-', 't']).map fun target =>
      { parsed with target, explicitTarget := true })
  else if arg = ['-', 'F'] then
    .ofExcept 2 ((valueForOption rest.head? ['-', 'F']).map fun message =>
      { parsed with message := some message })
  else if arg = ['-', '-'] then .done (.ok { parsed with message := some (joinArgs rest) })
  else if arg.head? = some '-' then
    .ofExcept (flagArgWidth arg rest) (displayMessageFlag arg rest parsed)
  else .done (.ok { parsed with message := some (joinArgs (arg :: rest)) })

/-- The loop of `display_message`. -/
def parseDisplayMessage (args : List Str) : Except Str DisplayMessageArgs :=
  walk displayMessageTurn .ok 0 args
    { print := false, target := none, explicitTarget := false, message := none }

end LightTerminal.Tmux.CommandArgs
