import LightTerminal.Data.Text
import LightTerminal.Library.Lines
import LightTerminal.Library.OrderedMap
import Mathlib.Data.Char

/-! # The status pills in cmux

A sink turns each line of the status program into pills, compares them with those it believes to be shown,
and sends cmux a command for every difference. It believes what succeeded: a command that fails, or is not
answered in time, changes nothing in `applied`, and the third failure in a row stops the sink. When it is
dropped it clears what it believes to be shown; pills that an earlier sink of the pane left behind are
cleared at the next attach.

* a command that cmux carries out and does not confirm in time makes the belief wrong, and a pill that was
  set so stays for good (`pill_left`);
* without such commands the belief is right, every line that is carried out is what is shown, and nothing
  is left behind (`pills_converge`). -/

namespace LightTerminal.Tmux.CmuxStatus

open LightTerminal.Data.Text LightTerminal.Library

/-! ## The source -/

/-- `CMUX_STATUS_FAILURE_LIMIT`. -/
def CMUX_STATUS_FAILURE_LIMIT : ℕ := 3

/-- `CMUX_STATUS_SCHEMA`. -/
def CMUX_STATUS_SCHEMA : Str := "cmux-status".toList

/-- `CMUX_STATUS_FIELD_MAX_CHARS`. -/
def CMUX_STATUS_FIELD_MAX_CHARS : ℕ := 256

/-- `CMUX_STATUS_KEY_MAX_CHARS`. -/
def CMUX_STATUS_KEY_MAX_CHARS : ℕ := 64

/-- `PillIn`. -/
structure PillIn where
  key : Str
  label : Option Str
  value : Str
  color : Option Str
  icon : Option Str
  priority : ℕ
deriving DecidableEq

/-- What is read of `CmuxStatusInput`. -/
structure CmuxStatusInput where
  schema : Str
  pills : List PillIn
deriving DecidableEq

/-- `PillState`. -/
structure PillState where
  value : Str
  color : Option Str
  icon : Option Str
  priority : ℕ
  label : Option Str
deriving DecidableEq

/-- `CmuxCommand`. -/
inductive CmuxCommand where
  | setStatus (key value : Str) (color icon : Option Str) (priority : ℕ) (label : Option Str)
  | clearStatus (key : Str)
deriving DecidableEq

/-- `plan_commands`. -/
def planCommands (applied desired : OrderedMap Str PillState) : List CmuxCommand :=
  (desired.entries.filter fun pill => decide (applied.get pill.1 ≠ some pill.2)).map
      (fun pill => .setStatus pill.1 pill.2.value pill.2.color pill.2.icon pill.2.priority pill.2.label) ++
    (applied.keys.filter fun key => (desired.get key).isNone).map .clearStatus

/-- `is_valid_cmux_ref_segment`. -/
def isValidCmuxRefSegment (value : Str) : Bool :=
  decide (value ≠ []) && value.all fun ch => isAsciiAlphanumeric ch || ch == '-' || ch == '_'

/-- `is_valid_pill_key`. -/
def isValidPillKey (key : Str) : Bool :=
  decide (key.length ≤ CMUX_STATUS_KEY_MAX_CHARS) && isValidCmuxRefSegment key

/-- `cap_field`. -/
def capField (value : Str) : Str := value.take CMUX_STATUS_FIELD_MAX_CHARS

/-- `sanitize_pill_color`. -/
def sanitizePillColor (color : Option Str) : Option Str :=
  color.filter fun color => decide (byteLen color = 7) && decide (color.head? = some '#') &&
    (color.drop 1).all fun ch => (hexValue ch).isSome

/-- `sanitize_pill_icon`. -/
def sanitizePillIcon (icon : Option Str) : Option Str :=
  (icon.map capField).filter isValidCmuxRefSegment

/-- `sanitize_cmux_pane_segment`. -/
def sanitizeCmuxPaneSegment (paneId : Str) : Str :=
  let sanitized := paneId.map fun ch =>
    if isAsciiAlphanumeric ch || ch == '-' || ch == '_' then ch else '_'
  if sanitized = [] then ['_'] else sanitized

/-- `CmuxStatusSink`. -/
structure CmuxStatusSink where
  keyPrefix : Str
  applied : OrderedMap Str PillState
  cmuxAvailable : Bool
  consecutiveFailures : ℕ
  healthy : Bool

/-- `CmuxStatusSink::new`. -/
def CmuxStatusSink.new (cmuxAvailable : Bool) (paneId : Str) : CmuxStatusSink where
  keyPrefix := "lterm.".toList ++ sanitizeCmuxPaneSegment paneId ++ ['.']
  applied := .empty
  cmuxAvailable
  consecutiveFailures := 0
  healthy := true

/-- The body of the loop of `build_desired_pills`. -/
def desirePill (keyPrefix : Str) (desired : OrderedMap Str PillState) (pill : PillIn) :
    OrderedMap Str PillState :=
  if isValidPillKey pill.key then
    desired.insert (keyPrefix ++ pill.key)
      { value := capField pill.value
        color := sanitizePillColor pill.color
        icon := sanitizePillIcon pill.icon
        priority := pill.priority
        label := pill.label.map capField }
  else desired

/-- `build_desired_pills`. -/
def buildDesiredPills (keyPrefix : Str) (input : CmuxStatusInput) : OrderedMap Str PillState :=
  input.pills.foldl (desirePill keyPrefix) .empty

/-- `commit_applied`. -/
def commitApplied (command : CmuxCommand) (desired applied : OrderedMap Str PillState) :
    OrderedMap Str PillState :=
  match command with
  | .setStatus key .. =>
    match desired.get key with
    | some state => applied.insert key state
    | none => applied
  | .clearStatus key => applied.remove key

/-- `record_failure`. -/
def recordFailure (sink : CmuxStatusSink) : CmuxStatusSink :=
  let consecutiveFailures := min (sink.consecutiveFailures + 1) (2 ^ 32 - 1)
  { sink with
    consecutiveFailures
    healthy := sink.healthy && decide (consecutiveFailures < CMUX_STATUS_FAILURE_LIMIT) }

/-- `str::lines`: without the line feed and a carriage return in front of it. -/
def strLines (text : Str) : List Str :=
  (Lines.splitInclusive '\n' text).map fun line =>
    if line.getLast? = some '\n' then
      let line := line.dropLast
      if line.getLast? = some '\r' then line.dropLast else line
    else line

/-- `text.split_whitespace().next()`. -/
def firstToken (text : Str) : Option Str :=
  let token := (text.dropWhile isWhitespace).takeWhile fun ch => !isWhitespace ch
  if token = [] then none else some token

/-- `token.split_once('=')`. -/
def splitOnceEquals (token : Str) : Option (Str × Str) :=
  if '=' ∈ token then
    some (token.takeWhile (· ≠ '='), (token.dropWhile (· ≠ '=')).drop 1)
  else none

/-- `is_valid_cmux_status_key`. -/
def isValidCmuxStatusKey (key : Str) : Bool :=
  decide (key ≠ []) && (key.splitOn '.').all isValidCmuxRefSegment

/-- The body of the loop of `parse_cmux_list_status_keys`. -/
def lineKey (line : Str) : Option Str :=
  let trimmed := trim line
  if trimmed = [] then none
  else do
    let token ← firstToken trimmed
    let (key, _) ← splitOnceEquals token
    if isValidCmuxStatusKey key then some key else none

/-- `parse_cmux_list_status_keys`. -/
def parseCmuxListStatusKeys (output : Str) : List Str := (strLines output).filterMap lineKey

/-- `orphan_keys_to_clear`. -/
def orphanKeysToClear (listStatusKeys : List Str) (keyPrefix : Str) : List Str :=
  listStatusKeys.filter fun key => keyPrefix.isPrefixOf key

/-! ## cmux -/

/-- The key of a command, -/
def CmuxCommand.key : CmuxCommand → Str
  | .setStatus key .. => key
  | .clearStatus key => key

/-- and the pill that it puts there. -/
def CmuxCommand.pill : CmuxCommand → Option PillState
  | .setStatus _ value color icon priority label => some ⟨value, color, icon, priority, label⟩
  | .clearStatus _ => none

/-- What becomes of a command. To the sink the last two are the same. -/
inductive Outcome where
  | succeeds
  | fails
  | timesOut
deriving DecidableEq

/-- The sink, the pills that cmux shows, and the commands that it was sent. -/
structure World where
  sink : CmuxStatusSink
  cmux : Str → Option PillState
  issued : List (CmuxCommand × Outcome)

namespace World

variable (outcomes : ℕ → Outcome)

/-- `CmuxCommandRunner::run`; `outcomes` are those of all commands, in the order in which they are sent. -/
def run (command : CmuxCommand) (world : World) : Bool × World :=
  let outcome := outcomes world.issued.length
  (decide (outcome = .succeeds),
    { world with
      cmux := if outcome = .fails then world.cmux else Function.update world.cmux command.key command.pill
      issued := world.issued ++ [(command, outcome)] })

/-- The loop of `run_commands`. -/
def runCommands (desired : OrderedMap Str PillState) : List CmuxCommand → World → World
  | [], world => world
  | command :: commands, world =>
    let (ok, world) := world.run outcomes command
    if ok then
      runCommands desired commands
        { world with
          sink := { world.sink with
            consecutiveFailures := 0
            applied := commitApplied command desired world.sink.applied } }
    else
      let world := { world with sink := recordFailure world.sink }
      if world.sink.healthy then runCommands desired commands world else world

variable (fromStr : Str → Option CmuxStatusInput)

/-- The pills of a line, if it is one of this schema. -/
def desired (world : World) (stdoutLine : Str) : Option (OrderedMap Str PillState) :=
  ((fromStr stdoutLine).filter fun input => decide (input.schema = CMUX_STATUS_SCHEMA)).map
    (buildDesiredPills world.sink.keyPrefix)

/-- `apply_with_runner`. `fromStr` is `serde_json::from_str`. -/
def applyWithRunner (world : World) (stdoutLine : Str) : World :=
  match world.desired fromStr stdoutLine with
  | none => world
  | some desired =>
    let commands := planCommands world.sink.applied desired
    if commands = [] then world
    else if !world.sink.cmuxAvailable || !world.sink.healthy then world
    else runCommands outcomes desired commands world

/-- `clear-status` of one key after the other, whatever becomes of it. -/
def clearAll : List Str → World → World
  | [], world => world
  | key :: keys, world => clearAll keys (world.run outcomes (.clearStatus key)).2

/-- `cleanup_with_runner`. -/
def cleanupWithRunner (world : World) : World :=
  let cleared := world.clearAll outcomes world.sink.applied.keys
  { cleared with sink := { cleared.sink with applied := .empty } }

/-- `reconcile_orphans_with_runner`, with the keys that `list_status` returns. -/
def reconcileOrphansWithRunner (listStatus : Option (List Str)) (world : World) : World :=
  match listStatus with
  | none => world
  | some keys => world.clearAll outcomes (orphanKeysToClear keys world.sink.keyPrefix)

/-- `reconcile_orphans`, with what `cmux list-status` writes if it succeeds. -/
def reconcileOrphans (listing : Option Str) (world : World) : World :=
  if !world.sink.cmuxAvailable || !world.sink.healthy then world
  else world.reconcileOrphansWithRunner outcomes (listing.map parseCmuxListStatusKeys)

/-- A new sink of a pane, in front of the pills that cmux shows. -/
def start (cmuxAvailable : Bool) (paneId : Str) (cmux : Str → Option PillState) : World :=
  ⟨.new cmuxAvailable paneId, cmux, []⟩

/-- The lines of the status program, one after the other. -/
def applyAll (lines : List Str) (world : World) : World :=
  lines.foldl (applyWithRunner outcomes fromStr) world

end World

/-! ## The plan -/

variable {applied desired : OrderedMap Str PillState} {command : CmuxCommand} {key : Str}

theorem pill_of_mem_planCommands (h : command ∈ planCommands applied desired) :
    command.pill = desired.get command.key := by
  rcases List.mem_append.mp h with h | h
  · obtain ⟨⟨key, state⟩, hmem, rfl⟩ := List.mem_map.mp h
    exact (desired.mem_entries.mp (List.mem_of_mem_filter hmem)).symm
  · obtain ⟨key, hmem, rfl⟩ := List.mem_map.mp h
    have hnone : (desired.get key).isNone = true := (List.mem_filter.mp hmem).2
    exact (Option.isNone_iff_eq_none.mp hnone).symm

theorem key_of_mem_planCommands (h : command ∈ planCommands applied desired) :
    (desired.get command.key).isSome = true ∨ (applied.get command.key).isSome = true := by
  rcases List.mem_append.mp h with h | h
  · obtain ⟨⟨key, state⟩, hmem, rfl⟩ := List.mem_map.mp h
    have hget := desired.mem_entries.mp (List.mem_of_mem_filter hmem)
    exact .inl (by rw [CmuxCommand.key, hget]; rfl)
  · obtain ⟨key, hmem, rfl⟩ := List.mem_map.mp h
    exact .inr (applied.mem_keys.mp (List.mem_of_mem_filter hmem))

/-- There is a command for each difference, -/
theorem exists_mem_planCommands (h : applied.get key ≠ desired.get key) :
    ∃ command ∈ planCommands applied desired, command.key = key := by
  rcases hdesired : desired.get key with _ | state
  · have happlied : (applied.get key).isSome = true := by
      rw [hdesired] at h
      exact Option.isSome_iff_ne_none.mpr h
    refine ⟨.clearStatus key, List.mem_append_right _ (List.mem_map.mpr ⟨key, ?_, rfl⟩), rfl⟩
    exact List.mem_filter.mpr ⟨applied.mem_keys.mpr happlied, by rw [hdesired]; rfl⟩
  · refine ⟨_, List.mem_append_left _ (List.mem_map.mpr ⟨(key, state), ?_, rfl⟩), rfl⟩
    rw [hdesired] at h
    exact List.mem_filter.mpr ⟨desired.mem_entries.mpr hdesired, decide_eq_true h⟩

/-- and for nothing else. -/
theorem planCommands_eq_nil (h : ∀ key, applied.get key = desired.get key) :
    planCommands applied desired = [] := by
  have hsets : (desired.entries.filter fun pill => decide (applied.get pill.1 ≠ some pill.2)) = [] := by
    refine List.filter_eq_nil_iff.mpr fun pill hmem => ?_
    have hget : applied.get pill.1 = some pill.2 := (h pill.1).trans (desired.mem_entries.mp hmem)
    rw [decide_eq_true_eq, not_not]
    exact hget
  have hclears : (applied.keys.filter fun key => (desired.get key).isNone) = [] := by
    refine List.filter_eq_nil_iff.mpr fun key hmem => ?_
    have hsome := applied.mem_keys.mp hmem
    rw [h key] at hsome
    rw [Option.isNone_iff_eq_none]
    exact Option.isSome_iff_ne_none.mp hsome
  rw [planCommands, hsets, hclears]
  rfl

theorem get_commitApplied (h : command.pill = desired.get command.key) (key : Str) :
    (commitApplied command desired applied).get key =
      if key = command.key then desired.get key else applied.get key := by
  cases command with
  | setStatus setKey value color icon priority label =>
    have hget : desired.get setKey = some ⟨value, color, icon, priority, label⟩ := h.symm
    rw [commitApplied, hget]
    show (applied.insert setKey _).get key = if key = setKey then _ else _
    rw [OrderedMap.get_insert]
    by_cases hkey : key = setKey
    · rw [if_pos hkey, if_pos hkey, hkey, hget]
    · rw [if_neg hkey, if_neg hkey]
  | clearStatus clearKey =>
    have hget : desired.get clearKey = none := h.symm
    show (applied.remove clearKey).get key = if key = clearKey then _ else _
    rw [OrderedMap.get_remove]
    by_cases hkey : key = clearKey
    · rw [if_pos hkey, if_pos hkey, hkey, hget]
    · rw [if_neg hkey, if_neg hkey]

/-- A key that is desired is that of a pill, with the prefix of the pane. -/
theorem key_of_buildDesiredPills {keyPrefix : Str} {input : CmuxStatusInput}
    (h : ((buildDesiredPills keyPrefix input).get key).isSome = true) :
    ∃ pill, isValidPillKey pill = true ∧ key = keyPrefix ++ pill := by
  have hfold : ∀ (pills : List PillIn) (desired : OrderedMap Str PillState),
      ((pills.foldl (desirePill keyPrefix) desired).get key).isSome = true →
        (desired.get key).isSome = true ∨ ∃ pill, isValidPillKey pill = true ∧ key = keyPrefix ++ pill := by
    intro pills
    induction pills with
    | nil => exact fun desired hsome => .inl hsome
    | cons pill pills ih =>
      intro desired hsome
      rcases ih _ hsome with hsome | hpill
      · unfold desirePill at hsome
        split_ifs at hsome with hvalid
        · rw [OrderedMap.get_insert] at hsome
          split_ifs at hsome with hkey
          · exact .inr ⟨pill.key, hvalid, hkey⟩
          · exact .inl hsome
        · exact .inl hsome
      · exact .inr hpill
  rcases hfold input.pills .empty h with hnone | hpill
  · cases hnone
  · exact hpill

namespace World

variable {outcomes : ℕ → Outcome} {fromStr : Str → Option CmuxStatusInput} {world : World}
  {commands : List CmuxCommand}

/-- One command, and what the sink makes of its outcome. -/
def turn (outcomes : ℕ → Outcome) (desired : OrderedMap Str PillState) (command : CmuxCommand)
    (world : World) : World :=
  let (ok, world) := world.run outcomes command
  { world with
    sink :=
      if ok then
        { world.sink with
          consecutiveFailures := 0
          applied := commitApplied command desired world.sink.applied }
      else recordFailure world.sink }

theorem runCommands_cons (command : CmuxCommand) (commands : List CmuxCommand) (world : World) :
    runCommands outcomes desired (command :: commands) world =
      if outcomes world.issued.length = .succeeds ∨ (world.turn outcomes desired command).sink.healthy then
        runCommands outcomes desired commands (world.turn outcomes desired command)
      else world.turn outcomes desired command := by
  by_cases hok : outcomes world.issued.length = .succeeds
  · simp [runCommands, turn, run, hok]
  · simp [runCommands, turn, run, hok]

/-- What a turn keeps that is made in a healthy sink, the loop keeps. -/
theorem runCommands_invariant {Inv : World → Prop}
    (hturn : ∀ command ∈ commands, ∀ world, world.sink.healthy = true → Inv world →
      Inv (world.turn outcomes desired command))
    (hhealthy : world.sink.healthy = true) (hinv : Inv world) :
    Inv (runCommands outcomes desired commands world) := by
  induction commands generalizing world with
  | nil => exact hinv
  | cons command commands ih =>
    have hnext := hturn command List.mem_cons_self world hhealthy hinv
    rw [runCommands_cons]
    split_ifs with hgo
    · refine ih (fun command hmem => hturn command (List.mem_cons_of_mem _ hmem)) ?_ hnext
      rcases hgo with hok | hgo
      · simpa [turn, run, hok] using hhealthy
      · exact hgo
    · exact hnext

theorem applyWithRunner_cases (outcomes : ℕ → Outcome) (fromStr : Str → Option CmuxStatusInput)
    (world : World) (line : Str) :
    world.applyWithRunner outcomes fromStr line = world ∨
      ∃ desired, world.desired fromStr line = some desired ∧ world.sink.cmuxAvailable = true ∧
        world.sink.healthy = true ∧ world.applyWithRunner outcomes fromStr line =
          runCommands outcomes desired (planCommands world.sink.applied desired) world := by
  unfold applyWithRunner
  rcases world.desired fromStr line with _ | desired
  · exact .inl rfl
  · simp only
    split_ifs with hnil hstopped
    · exact .inl rfl
    · exact .inl rfl
    · simp only [Bool.or_eq_true, Bool.not_eq_true', not_or, Bool.not_eq_false] at hstopped
      exact .inr ⟨desired, rfl, hstopped.1, hstopped.2, rfl⟩

/-- A command that may stand in the plan for pills of a pane. -/
structure Planned (keyPrefix : Str) (desired : OrderedMap Str PillState) (command : CmuxCommand) :
    Prop where
  pill : command.pill = desired.get command.key
  own : keyPrefix <+: command.key

/-- The sink keeps to the keys of its pane. -/
structure Own (keyPrefix : Str) (world : World) : Prop where
  keyPrefix_eq : world.sink.keyPrefix = keyPrefix
  applied : ∀ key, (world.sink.applied.get key).isSome = true → keyPrefix <+: key
  issued : ∀ entry ∈ world.issued, keyPrefix <+: entry.1.key

variable {keyPrefix : Str}

/-- The pills after a turn are those before it, or have the key of the command as it is desired. -/
theorem get_turn (hpill : command.pill = desired.get command.key) (world : World) (key : Str) :
    (world.turn outcomes desired command).sink.applied.get key =
      if outcomes world.issued.length = .succeeds ∧ key = command.key then desired.get key
      else world.sink.applied.get key := by
  by_cases hok : outcomes world.issued.length = .succeeds
  · have happlied : (world.turn outcomes desired command).sink.applied =
        commitApplied command desired world.sink.applied := by simp [turn, run, hok]
    rw [happlied, get_commitApplied hpill]
    simp [hok]
  · have happlied : (world.turn outcomes desired command).sink.applied = world.sink.applied := by
      simp [turn, run, hok, recordFailure]
    rw [happlied, if_neg (fun h => hok h.1)]

@[simp] theorem issued_turn (world : World) : (world.turn outcomes desired command).issued =
    world.issued ++ [(command, outcomes world.issued.length)] := rfl

@[simp] theorem keyPrefix_turn (world : World) :
    (world.turn outcomes desired command).sink.keyPrefix = world.sink.keyPrefix := by
  by_cases hok : outcomes world.issued.length = .succeeds
  · simp [turn, run, hok]
  · simp [turn, run, hok, recordFailure]

theorem Own.turn (h : Own keyPrefix world) (hplanned : Planned keyPrefix desired command) :
    Own keyPrefix (world.turn outcomes desired command) where
  keyPrefix_eq := by rw [keyPrefix_turn, h.keyPrefix_eq]
  applied key hsome := by
    rw [get_turn hplanned.pill] at hsome
    split_ifs at hsome with hkey
    · rw [hkey.2]
      exact hplanned.own
    · exact h.applied key hsome
  issued entry hmem := by
    rw [issued_turn, List.mem_append, List.mem_singleton] at hmem
    rcases hmem with hmem | rfl
    · exact h.issued entry hmem
    · exact hplanned.own

theorem Own.planned (h : Own keyPrefix world) {line : Str} (hdesired : world.desired fromStr line = some desired)
    (hmem : command ∈ planCommands world.sink.applied desired) : Planned keyPrefix desired command where
  pill := pill_of_mem_planCommands hmem
  own := by
    rcases key_of_mem_planCommands hmem with hsome | hsome
    · obtain ⟨input, -, rfl⟩ := Option.map_eq_some_iff.mp hdesired
      obtain ⟨pill, -, hkey⟩ := key_of_buildDesiredPills hsome
      rw [hkey, h.keyPrefix_eq]
      exact List.prefix_append _ _
    · exact h.applied _ hsome

/-- What turns keep on commands for the pane, all lines keep. -/
theorem applyAll_invariant (Inv : World → Prop)
    (hturn : ∀ desired command, ∀ world : World, Planned keyPrefix desired command →
      world.sink.healthy = true → Inv world → Inv (world.turn outcomes desired command))
    (lines : List Str) (hown : Own keyPrefix world) (hinv : Inv world) :
    Own keyPrefix (world.applyAll outcomes fromStr lines) ∧ Inv (world.applyAll outcomes fromStr lines) := by
  induction lines generalizing world with
  | nil => exact ⟨hown, hinv⟩
  | cons line lines ih =>
    have hnext : Own keyPrefix (world.applyWithRunner outcomes fromStr line) ∧
        Inv (world.applyWithRunner outcomes fromStr line) := by
      rcases applyWithRunner_cases outcomes fromStr world line with hsame | ⟨desired, hdesired, -, hhealthy, hrun⟩
      · rw [hsame]
        exact ⟨hown, hinv⟩
      · rw [hrun]
        have hboth : ∀ command ∈ planCommands world.sink.applied desired, ∀ world' : World,
            world'.sink.healthy = true → Own keyPrefix world' ∧ Inv world' →
            Own keyPrefix (world'.turn outcomes desired command) ∧
              Inv (world'.turn outcomes desired command) := by
          intro command hmem world' hhealthy' hboth
          have hplanned := hown.planned hdesired hmem
          exact ⟨hboth.1.turn hplanned, hturn desired command world' hplanned hhealthy' hboth.2⟩
        exact runCommands_invariant hboth hhealthy ⟨hown, hinv⟩
    exact ih hnext.1 hnext.2

/-! ### What is believed is what is shown -/

/-- No command took effect without the sink being told. -/
def Sound (world : World) : Prop := ∀ entry ∈ world.issued, entry.2 ≠ .timesOut

/-- Of the pane, cmux shows the pills that the sink believes it to show. -/
def Believed (keyPrefix : Str) (world : World) : Prop :=
  ∀ key, keyPrefix <+: key → world.cmux key = world.sink.applied.get key

theorem cmux_turn (world : World) (key : Str) : (world.turn outcomes desired command).cmux key =
    if outcomes world.issued.length ≠ .fails ∧ key = command.key then command.pill else world.cmux key := by
  by_cases hfails : outcomes world.issued.length = .fails
  · simp [turn, run, hfails]
  · simp [turn, run, hfails, Function.update_apply]

theorem believed_turn (hplanned : Planned keyPrefix desired command)
    (h : Sound world → Believed keyPrefix world) (hsound : Sound (world.turn outcomes desired command)) :
    Believed keyPrefix (world.turn outcomes desired command) := by
  have hbefore : Sound world := fun entry hmem => hsound entry (by simp [hmem])
  have hlast : outcomes world.issued.length ≠ .timesOut := by
    refine hsound (command, outcomes world.issued.length) ?_
    simp
  intro key hown
  rw [cmux_turn, get_turn hplanned.pill, h hbefore key hown]
  rcases houtcome : outcomes world.issued.length with _ | _ | _
  · by_cases hkey : key = command.key
    · simp [hkey, hplanned.pill]
    · simp [hkey]
  · simp
  · exact absurd houtcome hlast

/-! ### The breaker -/

/-- How many of the last commands failed. -/
def failures (issued : List (CmuxCommand × Outcome)) : ℕ :=
  (issued.reverse.takeWhile fun entry => decide (entry.2 ≠ .succeeds)).length

theorem failures_concat (issued : List (CmuxCommand × Outcome)) (entry : CmuxCommand × Outcome) :
    failures (issued ++ [entry]) = if entry.2 = .succeeds then 0 else failures issued + 1 := by
  unfold failures
  rw [List.reverse_concat, List.takeWhile_cons]
  by_cases hok : entry.2 = .succeeds
  · simp [hok]
  · simp [hok]

theorem failures_append {block : List (CmuxCommand × Outcome)} (h : ∀ entry ∈ block, entry.2 ≠ .succeeds)
    (issued : List (CmuxCommand × Outcome)) : failures (issued ++ block) = failures issued + block.length := by
  unfold failures
  rw [List.reverse_append, List.takeWhile_append_of_pos, List.length_append, List.length_reverse, Nat.add_comm]
  intro entry hmem
  exact decide_eq_true (h entry (List.mem_reverse.mp hmem))

/-- The sink counts the commands that failed last, and stops with the third. -/
structure Counted (world : World) : Prop where
  count : world.sink.consecutiveFailures = failures world.issued
  healthy : world.sink.healthy = decide (failures world.issued < CMUX_STATUS_FAILURE_LIMIT)
  bound : failures world.issued ≤ CMUX_STATUS_FAILURE_LIMIT
  earlier : ∀ earlier later, world.issued = earlier ++ later → later ≠ [] →
    failures earlier < CMUX_STATUS_FAILURE_LIMIT

theorem Counted.turn (h : Counted world) (hhealthy : world.sink.healthy = true) :
    Counted (world.turn outcomes desired command) := by
  have hfew : failures world.issued < CMUX_STATUS_FAILURE_LIMIT := by
    rw [h.healthy] at hhealthy
    exact of_decide_eq_true hhealthy
  have hlimit : CMUX_STATUS_FAILURE_LIMIT = 3 := rfl
  have hearlier : ∀ earlier later, (world.turn outcomes desired command).issued = earlier ++ later →
      later ≠ [] → failures earlier < CMUX_STATUS_FAILURE_LIMIT := by
    intro earlier later hissued hne
    obtain ⟨init, last, rfl⟩ := List.eq_nil_or_concat later |>.resolve_left hne
    rw [issued_turn, List.concat_eq_append, ← List.append_assoc] at hissued
    have hinit : world.issued = earlier ++ init := (List.append_inj' hissued rfl).1
    by_cases hnil : init = []
    · rw [hnil, List.append_nil] at hinit
      rw [← hinit]
      exact hfew
    · exact h.earlier earlier init hinit hnil
  by_cases hok : outcomes world.issued.length = .succeeds
  · have hzero : failures (world.turn outcomes desired command).issued = 0 := by
      rw [issued_turn, failures_concat, if_pos hok]
    refine ⟨?_, ?_, by omega, hearlier⟩
    · rw [hzero]
      simp [World.turn, run, hok]
    · rw [hzero]
      simp [World.turn, run, hok, hhealthy, hlimit]
  · have hmore : failures (world.turn outcomes desired command).issued = failures world.issued + 1 := by
      rw [issued_turn, failures_concat, if_neg hok]
    have hcount : (world.turn outcomes desired command).sink.consecutiveFailures =
        failures world.issued + 1 := by
      have hmin : min (failures world.issued + 1) (2 ^ 32 - 1) = failures world.issued + 1 :=
        min_eq_left (by omega)
      simp only [World.turn, run, hok, recordFailure, h.count, hmin, decide_false, Bool.false_eq_true, if_false]
    refine ⟨by rw [hcount, hmore], ?_, by omega, hearlier⟩
    have hrecorded : (world.turn outcomes desired command).sink.healthy =
        decide ((world.turn outcomes desired command).sink.consecutiveFailures < CMUX_STATUS_FAILURE_LIMIT) := by
      simp only [World.turn, run, hok, recordFailure, hhealthy, decide_false, Bool.false_eq_true, if_false,
        Bool.true_and]
    rw [hrecorded, hcount, hmore]

/-- There are never more than three failures in a row, and nothing behind the third. -/
theorem Counted.block (h : Counted world) {before block after : List (CmuxCommand × Outcome)}
    (hissued : world.issued = before ++ block ++ after) (hblock : ∀ entry ∈ block, entry.2 ≠ .succeeds) :
    block.length ≤ CMUX_STATUS_FAILURE_LIMIT ∧ (block.length = CMUX_STATUS_FAILURE_LIMIT → after = []) := by
  have hfailures := failures_append hblock before
  by_cases hnil : after = []
  · have hbound := h.bound
    rw [hissued, hnil, List.append_nil, hfailures] at hbound
    exact ⟨by omega, fun _ => hnil⟩
  · have hless := h.earlier (before ++ block) after hissued hnil
    rw [hfailures] at hless
    exact ⟨by omega, fun heq => by omega⟩

/-! ### A line whose commands all succeed -/

theorem exists_issued_runCommands (outcomes : ℕ → Outcome) (desired : OrderedMap Str PillState)
    (commands : List CmuxCommand) (world : World) :
    ∃ entries, (runCommands outcomes desired commands world).issued = world.issued ++ entries := by
  induction commands generalizing world with
  | nil => exact ⟨[], (List.append_nil _).symm⟩
  | cons command commands ih =>
    rw [runCommands_cons]
    split_ifs
    · obtain ⟨entries, hentries⟩ := ih (world.turn outcomes desired command)
      rw [hentries, issued_turn, List.append_assoc]
      exact ⟨_, rfl⟩
    · exact ⟨_, issued_turn world⟩

theorem get_runCommands (hpill : ∀ command ∈ commands, command.pill = desired.get command.key)
    (hall : (runCommands outcomes desired commands world).issued =
      world.issued ++ commands.map fun command => (command, .succeeds)) (key : Str) :
    (runCommands outcomes desired commands world).sink.applied.get key =
      if ∃ command ∈ commands, command.key = key then desired.get key else world.sink.applied.get key := by
  induction commands generalizing world with
  | nil => simp [runCommands]
  | cons command commands ih =>
    have hok : outcomes world.issued.length = .succeeds := by
      have hfirst : ∃ entries, (runCommands outcomes desired (command :: commands) world).issued =
          world.issued ++ (command, outcomes world.issued.length) :: entries := by
        rw [runCommands_cons]
        split_ifs
        · obtain ⟨entries, hentries⟩ :=
            exists_issued_runCommands outcomes desired commands (world.turn outcomes desired command)
          rw [hentries, issued_turn, List.append_assoc]
          exact ⟨entries, rfl⟩
        · exact ⟨[], issued_turn world⟩
      obtain ⟨entries, hentries⟩ := hfirst
      rw [hall, List.map_cons] at hentries
      have hcons := List.append_cancel_left hentries
      rw [List.cons.injEq, Prod.mk.injEq] at hcons
      exact hcons.1.2.symm
    rw [runCommands_cons, if_pos (.inl hok)] at hall ⊢
    have hrest := ih (fun command hmem => hpill command (List.mem_cons_of_mem _ hmem))
      (by rw [hall, issued_turn, hok, List.map_cons, List.append_assoc]; rfl)
    rw [hrest, get_turn (hpill command List.mem_cons_self)]
    by_cases hlater : ∃ command ∈ commands, command.key = key
    · have hsome : ∃ c ∈ command :: commands, c.key = key := by
        obtain ⟨later, hmem, hkey⟩ := hlater
        exact ⟨later, List.mem_cons_of_mem _ hmem, hkey⟩
      rw [if_pos hlater, if_pos hsome]
    · rw [if_neg hlater]
      by_cases hkey : key = command.key
      · rw [if_pos ⟨hok, hkey⟩, if_pos ⟨command, List.mem_cons_self, hkey.symm⟩]
      · have hnone : ¬ ∃ c ∈ command :: commands, c.key = key := by
          rintro ⟨c, hmem, hc⟩
          rcases List.mem_cons.mp hmem with rfl | hmem
          · exact hkey hc.symm
          · exact hlater ⟨c, hmem, hc⟩
        rw [if_neg fun h => hkey h.2, if_neg hnone]

/-- The commands of a line all succeeded. -/
def Succeeded (outcomes : ℕ → Outcome) (fromStr : Str → Option CmuxStatusInput) (world : World)
    (line : Str) (desired : OrderedMap Str PillState) : Prop :=
  (world.applyWithRunner outcomes fromStr line).issued =
    world.issued ++ (planCommands world.sink.applied desired).map fun command => (command, .succeeds)

/-- Then the sink believes in the pills of the line, -/
theorem get_applyWithRunner {line : Str} (hdesired : world.desired fromStr line = some desired)
    (hall : Succeeded outcomes fromStr world line desired) (key : Str) :
    (world.applyWithRunner outcomes fromStr line).sink.applied.get key = desired.get key := by
  have hsame : ¬ (∃ command ∈ planCommands world.sink.applied desired, command.key = key) →
      world.sink.applied.get key = desired.get key := by
    intro hnone
    by_contra hne
    exact hnone (exists_mem_planCommands hne)
  rcases applyWithRunner_cases outcomes fromStr world line with
    heq | ⟨desired', hdesired', -, -, hrun⟩
  · have hnil : planCommands world.sink.applied desired = [] := by
      unfold Succeeded at hall
      rw [heq] at hall
      exact List.map_eq_nil_iff.mp (List.self_eq_append_right.mp hall)
    rw [heq]
    refine hsame ?_
    rw [hnil]
    rintro ⟨command, hmem, -⟩
    cases hmem
  · obtain rfl : desired' = desired := by
      rw [hdesired'] at hdesired
      exact Option.some.inj hdesired
    unfold Succeeded at hall
    rw [hrun] at hall ⊢
    rw [get_runCommands (fun command hmem => pill_of_mem_planCommands hmem) hall]
    split_ifs with hkey
    · rfl
    · exact hsame hkey

/-- and issues nothing for the same line. -/
theorem applyWithRunner_again {line : Str} (hkeyPrefix :
      (world.applyWithRunner outcomes fromStr line).sink.keyPrefix = world.sink.keyPrefix)
    (hdesired : world.desired fromStr line = some desired)
    (hall : Succeeded outcomes fromStr world line desired) :
    (world.applyWithRunner outcomes fromStr line).applyWithRunner outcomes fromStr line =
      world.applyWithRunner outcomes fromStr line := by
  have hget := get_applyWithRunner hdesired hall
  generalize hnext : world.applyWithRunner outcomes fromStr line = next at hget hkeyPrefix ⊢
  have hdesired' : next.desired fromStr line = some desired := by
    rw [← hdesired]
    unfold World.desired
    rw [hkeyPrefix]
  unfold applyWithRunner
  rw [hdesired']
  simp only
  rw [if_pos (planCommands_eq_nil hget)]

/-! ### Keys that are cleared -/

theorem clearAll_spec (outcomes : ℕ → Outcome) (keys : List Str) (world : World) :
    ∃ entries, (world.clearAll outcomes keys).issued = world.issued ++ entries ∧
      entries.map (·.1) = keys.map .clearStatus ∧
      (world.clearAll outcomes keys).sink = world.sink ∧
      (∀ key ∉ keys, (world.clearAll outcomes keys).cmux key = world.cmux key) ∧
      ((∀ entry ∈ entries, entry.2 = .succeeds) →
        ∀ key ∈ keys, (world.clearAll outcomes keys).cmux key = none) := by
  induction keys generalizing world with
  | nil => exact ⟨[], (List.append_nil _).symm, rfl, rfl, fun _ _ => rfl, fun _ _ hmem => nomatch hmem⟩
  | cons cleared keys ih =>
    obtain ⟨entries, hissued, hmap, hsink, hother, hcleared⟩ :=
      ih (world.run outcomes (.clearStatus cleared)).2
    refine ⟨(.clearStatus cleared, outcomes world.issued.length) :: entries, ?_, ?_, hsink, ?_, ?_⟩
    · show (clearAll outcomes keys _).issued = _
      rw [hissued]
      exact List.append_assoc _ _ _
    · rw [List.map_cons, hmap, List.map_cons]
    · intro key hkey
      obtain ⟨hne, hkey⟩ := List.ne_and_not_mem_of_not_mem_cons hkey
      have hupdate : (world.run outcomes (.clearStatus cleared)).2.cmux key = world.cmux key := by
        show (if _ then world.cmux else Function.update world.cmux cleared _) key = _
        split_ifs
        · rfl
        · exact Function.update_of_ne hne _ _
      exact (hother key hkey).trans hupdate
    · intro hall key hkey
      rw [List.forall_mem_cons] at hall
      by_cases hlater : key ∈ keys
      · exact hcleared hall.2 key hlater
      · have heq : key = cleared := (List.mem_cons.mp hkey).resolve_right hlater
        have hok : outcomes world.issued.length = .succeeds := hall.1
        refine (hother key hlater).trans ?_
        simp [run, hok, heq, CmuxCommand.key, CmuxCommand.pill]

end World

/-! ## The keys of a pane -/

theorem isPrefixOf_iff {keyPrefix key : Str} : keyPrefix.isPrefixOf key = true ↔ keyPrefix <+: key :=
  List.isPrefixOf_iff_prefix

theorem keyPrefix_new (cmuxAvailable : Bool) (paneId : Str) :
    (CmuxStatusSink.new cmuxAvailable paneId).keyPrefix =
      "lterm.".toList ++ sanitizeCmuxPaneSegment paneId ++ ['.'] := rfl

/-- The prefix of the keys of the pane `%n`. -/
theorem keyPrefix_pane (cmuxAvailable : Bool) (n : ℕ) :
    (CmuxStatusSink.new cmuxAvailable ('%' :: decimal n)).keyPrefix =
      "lterm._".toList ++ decimal n ++ ['.'] := by
  have hdigits : (decimal n).map (fun ch =>
      if isAsciiAlphanumeric ch || ch == '-' || ch == '_' then ch else '_') = decimal n := by
    refine (List.map_congr_left fun ch hmem => ?_).trans (List.map_id _)
    have halnum : isAsciiAlphanumeric ch = true := by simp [isAsciiAlphanumeric, mem_decimal hmem]
    simp [halnum]
  have hpane : sanitizeCmuxPaneSegment ('%' :: decimal n) = '_' :: decimal n := by
    unfold sanitizeCmuxPaneSegment
    rw [List.map_cons, hdigits]
    rfl
  rw [keyPrefix_new, hpane]
  rfl

/-- No key is one of two panes. -/
theorem pane_unique {m n : ℕ} {key : Str} (hm : "lterm._".toList ++ decimal m ++ ['.'] <+: key)
    (hn : "lterm._".toList ++ decimal n ++ ['.'] <+: key) : m = n := by
  have hdot : ∀ k, '.' ∉ decimal k := fun k hmem => absurd (mem_decimal hmem) (by decide)
  obtain ⟨rest, rfl⟩ := hm
  obtain ⟨rest', hrest⟩ := hn
  simp only [List.append_assoc, List.singleton_append] at hrest
  exact decimal_injective (Lines.line_unique (List.append_cancel_left hrest).symm (hdot m) (hdot n)).1

/-- A character of a segment of a key. -/
theorem segment_bounds {value : Str} (h : isValidCmuxRefSegment value = true) {ch : Char} (hmem : ch ∈ value) :
    isWhitespace ch = false ∧ ch ≠ '=' ∧ ch ≠ '.' := by
  simp only [isValidCmuxRefSegment, Bool.and_eq_true, List.all_eq_true, Bool.or_eq_true, beq_iff_eq] at h
  rcases h.2 ch hmem with (halnum | rfl) | rfl
  · have hbounds := isAsciiAlphanumeric_bounds halnum
    refine ⟨isWhitespace_eq_false (by omega), ?_, ?_⟩
    · rintro rfl
      cases halnum
    · rintro rfl
      cases halnum
  · decide
  · decide

theorem isValidCmuxRefSegment_pane (paneId : Str) :
    isValidCmuxRefSegment (sanitizeCmuxPaneSegment paneId) = true := by
  unfold sanitizeCmuxPaneSegment
  simp only
  split_ifs with hnil
  · decide
  · simp only [isValidCmuxRefSegment, Bool.and_eq_true, decide_eq_true_eq, List.all_eq_true]
    refine ⟨hnil, fun ch hmem => ?_⟩
    obtain ⟨old, -, rfl⟩ := List.mem_map.mp hmem
    split_ifs with hvalid
    · exact hvalid
    · decide

/-- Trimming takes away what stands behind a text without blanks. -/
theorem trim_of_solid {text rest : Str} {ch : Char} (hne : text ≠ [])
    (htext : ∀ ch ∈ text, isWhitespace ch = false) (hch : isWhitespace ch = false) :
    ∃ rest', trim (text ++ ch :: rest) = text ++ ch :: rest' := by
  have hfront : (text ++ ch :: rest).dropWhile isWhitespace = text ++ ch :: rest := by
    obtain ⟨first, text, rfl⟩ := List.exists_cons_of_ne_nil hne
    exact List.dropWhile_cons_of_neg (by simp [htext first])
  have hback : List.rdropWhile isWhitespace (text ++ ch :: rest) =
      text ++ ch :: List.rdropWhile isWhitespace rest := by
    have hstop : (ch :: text.reverse).dropWhile isWhitespace = ch :: text.reverse :=
      List.dropWhile_cons_of_neg (by simp [hch])
    simp only [List.rdropWhile, List.reverse_append, List.reverse_cons, List.append_assoc,
      List.singleton_append]
    rw [List.dropWhile_append, hstop]
    split_ifs with hempty
    · rw [List.isEmpty_iff] at hempty
      simp [hempty]
    · simp
  rw [trim, hfront, hback]
  exact ⟨_, rfl⟩

/-- A line that lists a key. -/
theorem lineKey_of_valid {key : Str} (hchars : ∀ ch ∈ key, isWhitespace ch = false ∧ ch ≠ '=')
    (hvalid : isValidCmuxStatusKey key = true) (rest : Str) : lineKey (key ++ '=' :: rest) = some key := by
  have hne : key ≠ [] := of_decide_eq_true (Bool.and_eq_true_iff.mp hvalid).1
  obtain ⟨rest', htrim⟩ : ∃ rest', trim (key ++ '=' :: rest) = key ++ '=' :: rest' :=
    trim_of_solid hne (fun ch hmem => (hchars ch hmem).1) (by decide)
  have htoken : firstToken (key ++ '=' :: rest') =
      some (key ++ '=' :: rest'.takeWhile fun ch => !isWhitespace ch) := by
    have hdrop : (key ++ '=' :: rest').dropWhile isWhitespace = key ++ '=' :: rest' := by
      obtain ⟨first, more, rfl⟩ := List.exists_cons_of_ne_nil hne
      exact List.dropWhile_cons_of_neg (by simp [(hchars first List.mem_cons_self).1])
    unfold firstToken
    rw [hdrop, List.takeWhile_append_of_pos fun ch hmem => by simp [(hchars ch hmem).1],
      List.takeWhile_cons_of_pos (by decide)]
    simp
  have honce : ∀ more, splitOnceEquals (key ++ '=' :: more) = some (key, more) := by
    intro more
    have hpos : ∀ ch ∈ key, decide (ch ≠ '=') = true := fun ch hmem => decide_eq_true (hchars ch hmem).2
    rw [splitOnceEquals, if_pos (by simp), List.takeWhile_append_of_pos hpos,
      List.dropWhile_append_of_pos hpos]
    simp
  unfold lineKey
  simp only
  rw [htrim, if_neg (by simp), htoken]
  simp only [Option.bind_eq_bind, Option.bind_some, honce, hvalid, if_true]

/-- A line that lists a pill that a sink of the pane may have set. -/
theorem lineKey_pill (cmuxAvailable : Bool) (paneId : Str) {pill : Str} (hpill : isValidPillKey pill = true)
    (rest : Str) :
    let key := (CmuxStatusSink.new cmuxAvailable paneId).keyPrefix ++ pill
    lineKey (key ++ '=' :: rest) = some key := by
  intro key
  have hsegments : key = ['.'].intercalate ["lterm".toList, sanitizeCmuxPaneSegment paneId, pill] := by
    simp [key, keyPrefix_new, List.intercalate]
  have hvalid : ∀ segment ∈ ["lterm".toList, sanitizeCmuxPaneSegment paneId, pill],
      isValidCmuxRefSegment segment = true := by
    simp only [List.mem_cons, List.not_mem_nil, or_false, forall_eq_or_imp, forall_eq]
    exact ⟨by decide, isValidCmuxRefSegment_pane paneId, (Bool.and_eq_true_iff.mp hpill).2⟩
  have hchars : ∀ ch ∈ key, isWhitespace ch = false ∧ ch ≠ '=' := by
    have hseg : ∀ segment ∈ ["lterm".toList, sanitizeCmuxPaneSegment paneId, pill], ∀ ch ∈ segment,
        isWhitespace ch = false ∧ ch ≠ '=' := fun segment hmem ch hch =>
      ⟨(segment_bounds (hvalid segment hmem) hch).1, (segment_bounds (hvalid segment hmem) hch).2.1⟩
    have hdot : isWhitespace '.' = false ∧ '.' ≠ '=' := by decide
    intro ch hmem
    have hcases : ch ∈ "lterm".toList ∨ ch = '.' ∨ ch ∈ sanitizeCmuxPaneSegment paneId ∨ ch ∈ pill := by
      have hkey : key = "lterm".toList ++ ['.'] ++ sanitizeCmuxPaneSegment paneId ++ ['.'] ++ pill := rfl
      rw [hkey] at hmem
      simp only [List.mem_append, List.mem_singleton] at hmem
      tauto
    rcases hcases with hmem | rfl | hmem | hmem
    · exact hseg _ (by simp) ch hmem
    · exact hdot
    · exact hseg _ (by simp) ch hmem
    · exact hseg _ (by simp) ch hmem
  have hsplit : key.splitOn '.' = ["lterm".toList, sanitizeCmuxPaneSegment paneId, pill] := by
    rw [hsegments]
    refine List.splitOn_intercalate _ (fun segment hmem hdot => ?_) (List.cons_ne_nil _ _)
    exact (segment_bounds (hvalid segment hmem) hdot).2.2 rfl
  have hstatus : isValidCmuxStatusKey key = true := by
    rw [isValidCmuxStatusKey, hsplit, Bool.and_eq_true, List.all_eq_true, decide_eq_true_eq]
    refine ⟨?_, hvalid⟩
    rw [hsegments]
    simp [List.intercalate]
  exact lineKey_of_valid hchars hstatus rest

/-! ## The runs of a sink -/

section Runs

variable {outcomes : ℕ → Outcome} {fromStr : Str → Option CmuxStatusInput} {cmuxAvailable : Bool}
  {paneId : Str} {cmux : Str → Option PillState}

theorem own_start : (World.start cmuxAvailable paneId cmux).Own
    (CmuxStatusSink.new cmuxAvailable paneId).keyPrefix where
  keyPrefix_eq := rfl
  applied _ hsome := nomatch hsome
  issued _ hmem := nomatch hmem

theorem counted_start : (World.start cmuxAvailable paneId cmux).Counted where
  count := rfl
  healthy := rfl
  bound := Nat.zero_le _
  earlier earlier later hissued hne := by
    have hnil : [] = earlier ++ later := hissued
    exact absurd (List.append_eq_nil_iff.mp hnil.symm).2 hne

/-- What is shown of the pane is what is believed, if nothing of it was shown before the run and no command
took effect unnoticed. -/
theorem believed_applyAll
    (hclean : ∀ key, (CmuxStatusSink.new cmuxAvailable paneId).keyPrefix <+: key → cmux key = none)
    (lines : List Str)
    (hsound : ((World.start cmuxAvailable paneId cmux).applyAll outcomes fromStr lines).Sound) :
    ((World.start cmuxAvailable paneId cmux).applyAll outcomes fromStr lines).Believed
      (CmuxStatusSink.new cmuxAvailable paneId).keyPrefix :=
  (World.applyAll_invariant
    (fun world => world.Sound → world.Believed (CmuxStatusSink.new cmuxAvailable paneId).keyPrefix)
    (fun _ _ _ hplanned _ hinv => World.believed_turn hplanned hinv) lines own_start
    (fun _ key hown => hclean key hown)).2 hsound

theorem counted_applyAll (lines : List Str) :
    ((World.start cmuxAvailable paneId cmux).applyAll outcomes fromStr lines).Counted :=
  (World.applyAll_invariant World.Counted (fun _ _ _ _ hhealthy hcounted => hcounted.turn hhealthy) lines
    own_start counted_start).2

theorem own_applyAll (lines : List Str) :
    ((World.start cmuxAvailable paneId cmux).applyAll outcomes fromStr lines).Own
      (CmuxStatusSink.new cmuxAvailable paneId).keyPrefix :=
  (World.applyAll_invariant (fun _ => True) (fun _ _ _ _ _ _ => trivial) lines own_start trivial).1

/-- A cleanup whose commands succeed leaves nothing of the pane. -/
theorem cleanup_none {keyPrefix : Str} {world : World} (hbelieved : world.Believed keyPrefix)
    {clearing : ℕ → Outcome}
    (hall : ∀ entry ∈ (world.cleanupWithRunner clearing).issued.drop world.issued.length,
      entry.2 = .succeeds)
    {key : Str} (hown : keyPrefix <+: key) : (world.cleanupWithRunner clearing).cmux key = none := by
  obtain ⟨entries, hissued, -, -, hother, hcleared⟩ :=
    World.clearAll_spec clearing world.sink.applied.keys world
  have hentries : ∀ entry ∈ entries, entry.2 = .succeeds := by
    intro entry hmem
    refine hall entry ?_
    show entry ∈ (world.clearAll clearing world.sink.applied.keys).issued.drop _
    rw [hissued, List.drop_left]
    exact hmem
  show (world.clearAll clearing world.sink.applied.keys).cmux key = none
  by_cases hmem : key ∈ world.sink.applied.keys
  · exact hcleared hentries key hmem
  · rw [hother key hmem, hbelieved key hown]
    rw [OrderedMap.mem_keys] at hmem
    exact Option.not_isSome_iff_eq_none.mp hmem

/-- A reconciliation sends a command for each key of its pane that is listed, and no other. -/
theorem reconcileOrphans_spec {world : World} (havailable : world.sink.cmuxAvailable = true)
    (hhealthy : world.sink.healthy = true) (clearing : ℕ → Outcome) (output : Str) :
    let Orphan key := (∃ line ∈ strLines output, lineKey line = some key) ∧ world.sink.keyPrefix <+: key
    let reconciled := world.reconcileOrphans clearing (some output)
    ∃ entries, reconciled.issued = world.issued ++ entries ∧
      entries.map (·.1) =
        (orphanKeysToClear (parseCmuxListStatusKeys output) world.sink.keyPrefix).map .clearStatus ∧
      (∀ key, CmuxCommand.clearStatus key ∈ entries.map (·.1) ↔ Orphan key) ∧
      (∀ key, ¬ Orphan key → reconciled.cmux key = world.cmux key) ∧
      ((∀ entry ∈ entries, entry.2 = .succeeds) → ∀ key, Orphan key → reconciled.cmux key = none) := by
  intro Orphan reconciled
  have hmem : ∀ key, key ∈ orphanKeysToClear (parseCmuxListStatusKeys output) world.sink.keyPrefix ↔
      Orphan key := by
    intro key
    rw [orphanKeysToClear, List.mem_filter, isPrefixOf_iff, parseCmuxListStatusKeys, List.mem_filterMap]
  have hreconciled : reconciled = world.clearAll clearing
      (orphanKeysToClear (parseCmuxListStatusKeys output) world.sink.keyPrefix) := by
    show world.reconcileOrphans clearing (some output) = _
    unfold World.reconcileOrphans
    rw [havailable, hhealthy]
    rfl
  obtain ⟨entries, hissued, hmap, -, hother, hcleared⟩ := World.clearAll_spec clearing
    (orphanKeysToClear (parseCmuxListStatusKeys output) world.sink.keyPrefix) world
  rw [hreconciled]
  refine ⟨entries, hissued, hmap, fun key => ?_, fun key hnot => ?_, fun hall key horphan => ?_⟩
  · rw [hmap, ← hmem key]
    constructor
    · intro hin
      obtain ⟨key', hkey', heq⟩ := List.mem_map.mp hin
      exact CmuxCommand.clearStatus.inj heq ▸ hkey'
    · exact fun hin => List.mem_map.mpr ⟨key, hin, rfl⟩
  · exact hother key fun hin => hnot ((hmem key).mp hin)
  · exact hcleared hall key ((hmem key).mpr horphan)

end Runs

/-- In every run of a new sink. If cmux shows nothing of the pane at first, and no command takes effect
without succeeding: what the sink tried to set is gone after a cleanup whose commands succeed, and after a
line whose commands succeed the pills of the pane are those of the line, which issues nothing when it comes
again. In any case, no more than three commands fail in a row and nothing follows the third; and a
reconciliation clears the listed keys of its pane, which are none of another pane; a line that lists a pill
of a sink lists its key. -/
theorem pills_converge (fromStr : Str → Option CmuxStatusInput) (outcomes : ℕ → Outcome)
    (cmuxAvailable : Bool) (paneId : Str) (cmux : Str → Option PillState) (lines : List Str) :
    let keyPrefix := (CmuxStatusSink.new cmuxAvailable paneId).keyPrefix
    let world := (World.start cmuxAvailable paneId cmux).applyAll outcomes fromStr lines
    ((∀ key, keyPrefix <+: key → cmux key = none) → (∀ entry ∈ world.issued, entry.2 ≠ .timesOut) →
      (∀ clearing, (∀ entry ∈ (world.cleanupWithRunner clearing).issued.drop world.issued.length,
          entry.2 = .succeeds) →
        ∀ entry ∈ world.issued, (world.cleanupWithRunner clearing).cmux entry.1.key = none) ∧
      ∀ line desired, world.desired fromStr line = some desired →
        let next := world.applyWithRunner outcomes fromStr line
        next.issued = world.issued ++
            (planCommands world.sink.applied desired).map (fun command => (command, .succeeds)) →
          (∀ key, keyPrefix <+: key → next.cmux key = desired.get key) ∧
          (next.applyWithRunner outcomes fromStr line).issued = next.issued) ∧
    (∀ before block after, world.issued = before ++ block ++ after →
      (∀ entry ∈ block, entry.2 ≠ .succeeds) →
        block.length ≤ CMUX_STATUS_FAILURE_LIMIT ∧
          (block.length = CMUX_STATUS_FAILURE_LIMIT → after = [])) ∧
    (∀ clearing output, world.sink.cmuxAvailable = true → world.sink.healthy = true →
      let Orphan key := (∃ line ∈ strLines output, lineKey line = some key) ∧ keyPrefix <+: key
      let reconciled := world.reconcileOrphans clearing (some output)
      ∃ entries, reconciled.issued = world.issued ++ entries ∧
        (∀ key, CmuxCommand.clearStatus key ∈ entries.map (·.1) ↔ Orphan key) ∧
        (∀ key, ¬ Orphan key → reconciled.cmux key = world.cmux key) ∧
        ((∀ entry ∈ entries, entry.2 = .succeeds) → ∀ key, Orphan key → reconciled.cmux key = none)) ∧
    (∀ m n, paneId = '%' :: decimal n → m ≠ n → ∀ key,
      (CmuxStatusSink.new cmuxAvailable ('%' :: decimal m)).keyPrefix <+: key → ¬ keyPrefix <+: key) ∧
    ∀ pill rest, isValidPillKey pill = true →
      lineKey (keyPrefix ++ pill ++ '=' :: rest) = some (keyPrefix ++ pill) := by
  intro keyPrefix world
  have hown : world.Own keyPrefix := own_applyAll lines
  refine ⟨fun hclean hsound => ?_, ?_, ?_, ?_, fun _ rest hpill => lineKey_pill cmuxAvailable paneId hpill rest⟩
  · have hbelieved : world.Believed keyPrefix := believed_applyAll hclean lines hsound
    refine ⟨fun clearing hall entry hmem => cleanup_none hbelieved hall (hown.issued entry hmem), ?_⟩
    intro line desired hdesired next hall
    have hnext : next = (World.start cmuxAvailable paneId cmux).applyAll outcomes fromStr (lines ++ [line]) := by
      show world.applyWithRunner outcomes fromStr line = _
      rw [World.applyAll, List.foldl_append]
      rfl
    have hsound' : next.Sound := by
      intro entry hmem
      rw [hall] at hmem
      rcases List.mem_append.mp hmem with hmem | hmem
      · exact hsound entry hmem
      · obtain ⟨command, -, rfl⟩ := List.mem_map.mp hmem
        exact nofun
    have hbelieved' : next.Believed keyPrefix := by
      rw [hnext] at hsound' ⊢
      exact believed_applyAll hclean _ hsound'
    have hown' : next.Own keyPrefix := by
      rw [hnext]
      exact own_applyAll _
    refine ⟨fun key hkey => ?_, ?_⟩
    · rw [hbelieved' key hkey]
      exact World.get_applyWithRunner hdesired hall key
    · have hagain := World.applyWithRunner_again (hown'.keyPrefix_eq.trans hown.keyPrefix_eq.symm) hdesired hall
      exact congrArg World.issued hagain
  · intro before block after hissued hblock
    exact (counted_applyAll lines).block hissued hblock
  · intro clearing output havailable hhealthy Orphan reconciled
    obtain ⟨entries, hissued, -, hentries, hother, hcleared⟩ :=
      reconcileOrphans_spec havailable hhealthy clearing output
    rw [hown.keyPrefix_eq] at hentries hother hcleared
    exact ⟨entries, hissued, hentries, hother, hcleared⟩
  · rintro m n rfl hne key hm hn
    rw [keyPrefix_pane] at hm
    have hn' : "lterm._".toList ++ decimal n ++ ['.'] <+: key := by
      rw [← keyPrefix_pane cmuxAvailable n]
      exact hn
    exact hne (pane_unique hm hn')

/-- A line with one pill. -/
def cpuLine : Str :=
  "\x7b\"schema\":\"cmux-status\",\"pills\":[\x7b\"key\":\"cpu\",\"value\":\"cpu 42%\"\x7d]\x7d".toList

/-- What that line says, and nothing of any other. -/
def cpuInput (line : Str) : Option CmuxStatusInput :=
  if line = cpuLine then
    some ⟨CMUX_STATUS_SCHEMA, [⟨"cpu".toList, none, "cpu 42%".toList, none, none, 0⟩]⟩
  else none

/-- The first command fails, all others succeed. -/
def failsOnce (n : ℕ) : Outcome := if n = 0 then .fails else .succeeds

theorem pills_converge_cpu :
    let world := (World.start true "%3".toList fun _ => none).applyAll failsOnce cpuInput [cpuLine, cpuLine]
    (world.cmux "lterm._3.cpu".toList).isSome = true ∧
      ((world.cleanupWithRunner fun _ => .succeeds).cmux "lterm._3.cpu".toList) = none := by
  intro world
  have hclean : ∀ entry ∈ world.issued, (world.cleanupWithRunner fun _ => .succeeds).cmux entry.1.key = none :=
    ((pills_converge cpuInput failsOnce true "%3".toList (fun _ => none) [cpuLine, cpuLine]).1
      (fun _ _ => rfl) (by decide +kernel)).1 (fun _ => .succeeds) (by decide +kernel)
  exact ⟨by decide +kernel,
    hclean (.setStatus "lterm._3.cpu".toList "cpu 42%".toList none none 0 none, .succeeds) (by decide +kernel)⟩

/-- The command takes effect and is not answered in time: the sink does not believe in the pill, so that
the cleanup does not take it away. -/
theorem pill_left :
    let world := (World.start true "%3".toList fun _ => none).applyAll (fun _ => .timesOut) cpuInput [cpuLine]
    let cleaned := world.cleanupWithRunner fun _ => .succeeds
    world.issued.map (·.1.key) = ["lterm._3.cpu".toList] ∧ cleaned.issued = world.issued ∧
      (cleaned.cmux "lterm._3.cpu".toList).isSome = true := by
  decide +kernel

end LightTerminal.Tmux.CmuxStatus
