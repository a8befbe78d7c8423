import LightTerminal.Tmux.CommandArgs

/-! # What the argument loops of the tmux commands conform to

Each loop is written with its own arms and its own scans of a cluster. Here every one of them gets a
grammar (which flags take a value, what the flags of a cluster do, what a flag does with its value) and
conforms to it: at a cluster the turn does what the flags do and then what the value does, and goes on
past two arguments exactly if the value is the next argument.

The arms for flags that stand alone are cases of the same grammar. Where a loop does something else with
a flag in a cluster than with the flag alone, its grammar says so: `-l` of `send-keys` counts only as an
argument of its own, and `split-window` asks for `h` before `v`, in whatever order they stand. -/

namespace LightTerminal.Tmux.CommandGrammars

open LightTerminal.Data.Text LightTerminal.Library LightTerminal.Library.Cursor
open LightTerminal.Library.FiniteMap LightTerminal.Library.ShortOptions LightTerminal.Tmux.ShortFlags
open LightTerminal.Tmux.CommandArgs

/-! ## The target of a command -/

/-- The flag for the target, and no other. -/
def targetGrammar (extraValueFlags : List Char) (hdash : '-' ∉ extraValueFlags) :
    Grammar (Option Str) Str where
  takes := valueFlags extraValueFlags []
  flags := fun _ target => target
  value flag value :=
    if flag = 't' then (targetValue value ['-', 't']).map fun target _ => target else .ok id
  takes_dash := by simp [valueFlags, shortFlagTakesValue, isValueTakingShortFlag, hdash]
  flags_value := fun _ _ _ => rfl

theorem arg_ne_end (c : Cluster) : c.arg ≠ ['-', '-'] := by
  intro h
  have ht : c.text = ['-'] := (List.cons.inj h).2
  exact c.short (by rw [ht]; rfl)

theorem arg_eq_iff (c : Cluster) (flag : Char) : c.arg = ['-', flag] ↔ c.text = [flag] := by
  constructor
  · intro h
    exact (List.cons.inj h).2
  · intro h
    rw [Cluster.arg, h]

/-- What starts with a dash and is no cluster: a dash, or two dashes and more. -/
theorem plain_cases {arg : Str} (hhead : arg.head? = some '-') (hplain : ∀ c : Cluster, c.arg ≠ arg) :
    arg = ['-'] ∨ ∃ more, arg = '-' :: '-' :: more := by
  obtain ⟨tail, rfl⟩ := List.head?_eq_some_iff.mp hhead
  by_cases ht : tail = []
  · exact .inl (by rw [ht])
  · by_cases hd : tail.head? = some '-'
    · obtain ⟨more, rfl⟩ := List.head?_eq_some_iff.mp hd
      exact .inr ⟨more, rfl⟩
    · exact absurd rfl (hplain ⟨tail, ht, hd⟩)

/-- The ways in which a target is attached to its flag. -/
theorem target_attached {takes : Char → Bool} (htakes : takes 't' = true) (c : Cluster) :
    (['-', 't', '='] <+: c.arg ∧ ∃ tail, tail ≠ [] ∧ c.valueFlag takes = some ('t', tail) ∧
      c.arg.drop 3 = stripEquals tail) ∨
    (¬ ['-', 't', '='] <+: c.arg ∧ (['-', 't'] <+: c.arg ∧ 2 < byteLen c.arg) ∧
      ∃ tail, tail ≠ [] ∧ c.valueFlag takes = some ('t', tail) ∧
        c.arg.drop 2 = stripEquals tail) ∨
    (¬ ['-', 't', '='] <+: c.arg ∧ ¬ (['-', 't'] <+: c.arg ∧ 2 < byteLen c.arg)) := by
  by_cases heq : ['-', 't', '='] <+: c.arg
  · obtain ⟨tail, htail⟩ := heq
    have ht : c.text = 't' :: '=' :: tail := ((List.cons.inj htail).2).symm
    refine .inl ⟨⟨tail, htail⟩, '=' :: tail, by simp, ?_, ?_⟩
    · simp [Cluster.valueFlag, ht, htakes]
    · rw [Cluster.arg, ht]
      rfl
  by_cases hatt : ['-', 't'] <+: c.arg ∧ 2 < byteLen c.arg
  · obtain ⟨⟨tail, htail⟩, hlen⟩ := hatt
    have ht : c.text = 't' :: tail := ((List.cons.inj htail).2).symm
    refine .inr (.inl ⟨heq, ⟨⟨tail, htail⟩, hlen⟩, tail, ?_, ?_, ?_⟩)
    · intro he
      rw [Cluster.arg, ht, he] at hlen
      exact absurd hlen (by decide)
    · simp [Cluster.valueFlag, ht, htakes]
    · have hne : tail.head? ≠ some '=' := by
        intro he
        obtain ⟨more, rfl⟩ := List.head?_eq_some_iff.mp he
        exact heq ⟨more, htail⟩
      have hstrip : stripEquals tail = tail := by
        unfold stripEquals
        split
        · exact absurd rfl hne
        · rfl
      rw [hstrip, Cluster.arg, ht]
      rfl
  · exact .inr (.inr ⟨heq, hatt⟩)

theorem target_conforms {extraValueFlags : List Char} (hdash : '-' ∉ extraValueFlags) :
    Conforms (targetGrammar extraValueFlags hdash) (targetTurn extraValueFlags) where
  cluster c rest target := by
    have htakes : valueFlags extraValueFlags [] 't' = true := by
      simp [valueFlags, shortFlagTakesValue, isValueTakingShortFlag]
    unfold targetTurn
    rw [if_neg (arg_ne_end c)]
    by_cases ht : c.arg = ['-', 't']
    · rw [if_pos ht, Grammar.turn_value ((arg_eq_iff c 't').mp ht) htakes, Turn.clip_ofExcept]
      rcases hread : targetValue rest.head? ['-', 't'] with err | value <;>
        simp [targetGrammar, hread, Except.map]
    rw [if_neg ht]
    rcases target_attached htakes c with ⟨hp, tail, hne, hvalue, hdrop⟩ |
      ⟨hn, hp, tail, hne, hvalue, hdrop⟩ | ⟨hn, hn'⟩
    · rw [if_pos hp, hdrop, Grammar.turn_attached hvalue hne, Turn.clip_ofExcept]
      rcases hread : targetValue (some (stripEquals tail)) ['-', 't'] with err | value <;>
        simp [targetGrammar, hread, Except.map]
    · rw [if_neg hn, if_pos hp, hdrop, Grammar.turn_attached hvalue hne, Turn.clip_ofExcept]
      rcases hread : targetValue (some (stripEquals tail)) ['-', 't'] with err | value <;>
        simp [targetGrammar, hread, Except.map]
    -- the flag is clustered with others, or the cluster has no target
    rw [if_neg hn, if_neg hn', ← Grammar.clip_turn]
    congr 1
    unfold shortClusterFlagValueWithExtra flagArgWidthWithExtra
    rw [flagArgWidth_cluster]
    by_cases hvalue : ∃ tail, c.valueFlag (valueFlags extraValueFlags []) = some ('t', tail)
    · obtain ⟨tail, hvalue⟩ := hvalue
      obtain ⟨pos, hscan⟩ := shortClusterFlagValue_some hvalue rest
      have hor := source_text_or tail rest
      have hread : (targetGrammar extraValueFlags hdash).read c rest =
          (targetValue (source tail rest).text ['-', 't']).map fun target _ => target := by
        rw [Grammar.read_some hvalue]
        simp only [targetGrammar, if_true]
      rw [hscan, Grammar.turn, hread]
      rcases htext : (source tail rest).text with - | value
      · rw [htext, Option.none_or] at hor
        rw [hor]
        rfl
      · show Turn.ofExcept _ (targetValue (some value) ['-', 't']) = _
        rcases targetValue (some value) ['-', 't'] with err | target' <;> rfl
    · have hscan := shortClusterFlagValue_none htakes (fun tail h => hvalue ⟨tail, h⟩) rest
      have hread : (targetGrammar extraValueFlags hdash).read c rest = .ok id := by
        rcases hflag : c.valueFlag (valueFlags extraValueFlags []) with - | ⟨flag, tail⟩
        · exact Grammar.read_none hflag rest
        · rw [Grammar.read_some hflag]
          exact if_neg fun he => hvalue ⟨tail, by rw [hflag, he]⟩
      rw [hscan, Grammar.turn, hread]
      rfl
  plain arg rest target hhead hend hplain := by
    rcases plain_cases hhead hplain with rfl | ⟨more, rfl⟩
    · rfl
    · have hc : shortCluster ('-' :: '-' :: more) = none := by simp [shortCluster]
      simp [targetTurn, hend, hc, shortClusterFlagValueWithExtra, flagArgWidthWithExtra,
        shortClusterFlagValueWithExtraAndBooleanOverrides, flagArgWidthWithExtraAndBooleanOverrides]

section Scans
variable {extraValueFlags booleanValueOverrides : List Char} {c : Cluster} {flag needle : Char}
  {tail : Str}

/-- The scan for a flag in a cluster whose value belongs to another. -/
theorem scan_other
    (hvalue : c.valueFlag (valueFlags extraValueFlags booleanValueOverrides) = some (flag, tail))
    (hneedle : valueFlags extraValueFlags booleanValueOverrides needle = true) (hne : flag ≠ needle)
    (rest : List Str) :
    shortClusterFlagValueWithExtraAndBooleanOverrides c.arg needle rest extraValueFlags
      booleanValueOverrides = none := by
  refine shortClusterFlagValue_none hneedle (fun tail' h => hne ?_) rest
  rw [hvalue] at h
  exact (Prod.ext_iff.mp (Option.some.inj h)).1

/-- The scan for a flag in a cluster without a value. -/
theorem scan_none
    (hvalue : c.valueFlag (valueFlags extraValueFlags booleanValueOverrides) = none)
    (hneedle : valueFlags extraValueFlags booleanValueOverrides needle = true) (rest : List Str) :
    shortClusterFlagValueWithExtraAndBooleanOverrides c.arg needle rest extraValueFlags
      booleanValueOverrides = none :=
  shortClusterFlagValue_none hneedle (fun tail' h => by rw [hvalue] at h; simp at h) rest

end Scans

/-! ## send-keys -/

/-- The flags of `send-keys`, without the target. -/
def sendKeysGrammar : Grammar SendKeysArgs Str where
  takes := valueFlags sendKeysValueFlags []
  -- `-l` counts only as an argument of its own
  flags text parsed := if text = ['l'] then { parsed with literal := true } else parsed
  value flag value :=
    if flag = 'N' then
      (parseSendKeysRepeat value).map fun repeatCount parsed => { parsed with repeatCount }
    else .ok id
  takes_dash := by decide
  flags_value flag st h := by
    refine if_neg fun he => ?_
    rw [(List.cons.inj he).1] at h
    exact absurd h (by decide)

theorem sendKeys_conforms : Conforms sendKeysGrammar sendKeysTurn where
  cluster c rest parsed := by
    unfold sendKeysTurn
    by_cases ht : c.arg = ['-', 't']
    · rw [if_pos ht, Grammar.turn_value ((arg_eq_iff c 't').mp ht) (by decide)]
      rfl
    by_cases hl : c.arg = ['-', 'l']
    · rw [if_neg ht, if_pos hl, Grammar.turn_flag ((arg_eq_iff c 'l').mp hl) (by decide)]
      rfl
    by_cases hN : c.arg = ['-', 'N']
    · rw [if_neg ht, if_neg hl, if_pos hN, Grammar.turn_value ((arg_eq_iff c 'N').mp hN) (by decide),
        Turn.clip_ofExcept]
      rcases hread : parseSendKeysRepeat rest.head? with err | count <;>
        simp [sendKeysGrammar, hread, Except.map]
    have hhead : c.arg.head? = some '-' := rfl
    have hflags : sendKeysGrammar.flags c.text parsed = parsed :=
      if_neg fun he => hl ((arg_eq_iff c 'l').mpr he)
    rw [if_neg ht, if_neg hl, if_neg hN, if_neg (arg_ne_end c), if_pos hhead, ← Grammar.clip_turn]
    congr 1
    unfold shortClusterFlagValueWithExtra flagArgWidthWithExtra
    rw [flagArgWidth_cluster, Grammar.turn, hflags]
    rcases hvalue : c.valueFlag (valueFlags sendKeysValueFlags []) with - | ⟨flag, tail⟩
    · rw [scan_none hvalue (by decide), Grammar.read_none hvalue]
      rfl
    rw [Grammar.read_some hvalue]
    by_cases hflag : flag = 'N'
    · subst hflag
      obtain ⟨pos, hscan⟩ := shortClusterFlagValue_some hvalue rest
      rw [hscan]
      simp only [source_text_or]
      rcases hread : parseSendKeysRepeat (source tail rest).text with err | count <;>
        simp [sendKeysGrammar, hread, Except.map]
    · rw [scan_other hvalue (by decide) hflag]
      simp only [sendKeysGrammar, if_neg hflag]
      rfl
  plain arg rest parsed hhead hend hplain := by
    rcases plain_cases hhead hplain with rfl | ⟨more, rfl⟩
    · rfl
    · have hc : shortCluster ('-' :: '-' :: more) = none := by simp [shortCluster]
      have hmore : more ≠ [] := fun he => hend (by rw [he])
      simp [sendKeysTurn, hmore, hc, shortClusterFlagValueWithExtra, flagArgWidthWithExtra,
        shortClusterFlagValueWithExtraAndBooleanOverrides, flagArgWidthWithExtraAndBooleanOverrides]

/-! ## capture-pane -/

/-- The flags of `capture-pane`. -/
def capturePaneGrammar : Grammar CapturePaneArgs Str where
  takes := valueFlags capturePaneValueFlags []
  flags text parsed :=
    if 'p' ∈ text.takeWhile fun flag => !valueFlags capturePaneValueFlags [] flag then
      { parsed with print := true }
    else parsed
  value flag value :=
    if flag = 't' then (targetValue value ['-', 't']).map fun target parsed => { parsed with target }
    else if flag = 'S' then
      (parseCaptureLineValue 'S' value).map fun start parsed => { parsed with start }
    else if flag = 'E' then
      (parseCaptureLineValue 'E' value).map fun line parsed => { parsed with «end» := line }
    else .ok id
  takes_dash := by decide
  flags_value flag st h := by simp [h]

theorem captureTarget_some {c : Cluster} {tail : Str}
    (hvalue : c.valueFlag (valueFlags capturePaneValueFlags []) = some ('t', tail))
    (rest : List Str) (parsed : CapturePaneArgs) :
    captureTarget c.arg rest parsed =
      (targetValue (source tail rest).text ['-', 't']).map fun target => { parsed with target } := by
  have hsame : ∀ {tail'}, c.valueFlag (valueFlags capturePaneValueFlags []) = some ('t', tail') →
      tail' = tail := by
    intro tail' h
    rw [hvalue] at h
    exact ((Prod.ext_iff.mp (Option.some.inj h)).2).symm
  unfold captureTarget
  rcases target_attached (takes_valueFlag hvalue) c with ⟨hp, tail', hne, hvalue', hdrop⟩ |
    ⟨hn, hp, tail', hne, hvalue', hdrop⟩ | ⟨hn, hn'⟩
  · rw [if_pos hp, hdrop, ← hsame hvalue', source_attached hne]
    rfl
  · rw [if_neg hn, if_pos hp, hdrop, ← hsame hvalue', source_attached hne]
    rfl
  · obtain ⟨pos, hscan⟩ := shortClusterFlagValue_some hvalue rest
    have hor := source_text_or tail rest
    rw [if_neg hn, if_neg hn', shortClusterFlagValueWithExtra, hscan]
    rcases htext : (source tail rest).text with - | value
    · rw [htext, Option.none_or] at hor
      rw [hor]
    · rfl

theorem captureTarget_other {c : Cluster}
    (hvalue : ∀ tail, c.valueFlag (valueFlags capturePaneValueFlags []) ≠ some ('t', tail))
    (rest : List Str) (parsed : CapturePaneArgs) : captureTarget c.arg rest parsed = .ok parsed := by
  have htakes : valueFlags capturePaneValueFlags [] 't' = true := by decide
  unfold captureTarget
  rcases target_attached htakes c with ⟨-, tail, -, hvalue', -⟩ | ⟨-, -, tail, -, hvalue', -⟩ |
    ⟨hn, hn'⟩
  · exact absurd hvalue' (hvalue tail)
  · exact absurd hvalue' (hvalue tail)
  · rw [if_neg hn, if_neg hn', shortClusterFlagValueWithExtra,
      shortClusterFlagValue_none htakes hvalue]

/-- The arm of `capture-pane` for flags, at a cluster. -/
theorem captureFlag_cluster (c : Cluster) (rest : List Str) (parsed : CapturePaneArgs) :
    captureFlag c.arg rest parsed = (capturePaneGrammar.read c rest).map fun update =>
      update (capturePaneGrammar.flags c.text parsed) := by
  have hp : ∀ parsed : CapturePaneArgs,
      (if hasFlagInArgWithValueFlags c.arg 'p' capturePaneValueFlags then
        { parsed with print := true } else parsed) = capturePaneGrammar.flags c.text parsed := by
    intro parsed
    unfold hasFlagInArgWithValueFlags
    rw [hasFlagInArg_cluster c (by decide)]
    by_cases h : 'p' ∈ c.flags (valueFlags capturePaneValueFlags [])
    · rw [decide_eq_true h, if_pos rfl]
      exact (if_pos h).symm
    · rw [decide_eq_false h, if_neg (by decide)]
      exact (if_neg h).symm
  unfold captureFlag
  simp only [hp, shortClusterFlagValueWithExtra]
  rcases hvalue : c.valueFlag (valueFlags capturePaneValueFlags []) with - | ⟨flag, tail⟩
  · rw [captureTarget_other (by simp [hvalue]), Grammar.read_none hvalue]
    simp only [scan_none hvalue (show valueFlags capturePaneValueFlags [] 'S' = true by decide),
      scan_none hvalue (show valueFlags capturePaneValueFlags [] 'E' = true by decide)]
    rfl
  rw [Grammar.read_some hvalue]
  by_cases ht : flag = 't'
  · subst ht
    rw [captureTarget_some hvalue]
    simp only [scan_other hvalue (show valueFlags capturePaneValueFlags [] 'S' = true by decide)
        (by decide),
      scan_other hvalue (show valueFlags capturePaneValueFlags [] 'E' = true by decide) (by decide)]
    rcases hread : targetValue (source tail rest).text ['-', 't'] with err | target
    · simp [capturePaneGrammar, hread, Except.map]
    · simp only [capturePaneGrammar, hread, Except.map, if_true]
      split_ifs <;> rfl
  rw [captureTarget_other (by simp [hvalue, ht])]
  by_cases hS : flag = 'S'
  · subst hS
    obtain ⟨pos, hscan⟩ := shortClusterFlagValue_some hvalue rest
    simp only [hscan,
      scan_other hvalue (show valueFlags capturePaneValueFlags [] 'E' = true by decide) (by decide)]
    rcases hread : parseCaptureLineValue 'S' (source tail rest).text with err | line <;>
      simp [capturePaneGrammar, hread, Except.map]
  by_cases hE : flag = 'E'
  · subst hE
    obtain ⟨pos, hscan⟩ := shortClusterFlagValue_some hvalue rest
    simp only [hscan,
      scan_other hvalue (show valueFlags capturePaneValueFlags [] 'S' = true by decide) (by decide)]
    rcases hread : parseCaptureLineValue 'E' (source tail rest).text with err | line <;>
      simp [capturePaneGrammar, hread, Except.map]
  · simp only [scan_other hvalue (show valueFlags capturePaneValueFlags [] 'S' = true by decide) hS,
      scan_other hvalue (show valueFlags capturePaneValueFlags [] 'E' = true by decide) hE]
    simp [capturePaneGrammar, ht, hS, hE, Except.map]

theorem capturePane_conforms : Conforms capturePaneGrammar capturePaneTurn where
  cluster c rest parsed := by
    unfold capturePaneTurn
    rw [if_neg (arg_ne_end c)]
    by_cases hp : c.arg = ['-', 'p']
    · rw [if_pos hp, Grammar.turn_flag ((arg_eq_iff c 'p').mp hp) (by decide)]
      rfl
    by_cases ht : c.arg = ['-', 't']
    · rw [if_neg hp, if_pos ht, Grammar.turn_value ((arg_eq_iff c 't').mp ht) (by decide),
        Turn.clip_ofExcept]
      rcases hread : targetValue rest.head? ['-', 't'] with err | value <;>
        simp [capturePaneGrammar, hread, Except.map]
    by_cases hS : c.arg = ['-', 'S']
    · rw [if_neg hp, if_neg ht, if_pos hS, Grammar.turn_value ((arg_eq_iff c 'S').mp hS) (by decide),
        Turn.clip_ofExcept]
      rcases hread : parseCaptureLineValue 'S' rest.head? with err | line <;>
        simp [capturePaneGrammar, hread, Except.map]
    by_cases hE : c.arg = ['-', 'E']
    · rw [if_neg hp, if_neg ht, if_neg hS, if_pos hE,
        Grammar.turn_value ((arg_eq_iff c 'E').mp hE) (by decide), Turn.clip_ofExcept]
      rcases hread : parseCaptureLineValue 'E' rest.head? with err | line <;>
        simp [capturePaneGrammar, hread, Except.map]
    by_cases hb : c.arg = ['-', 'b']
    · rw [if_neg hp, if_neg ht, if_neg hS, if_neg hE, if_pos hb,
        Grammar.turn_value ((arg_eq_iff c 'b').mp hb) (by decide)]
      rfl
    rw [if_neg hp, if_neg ht, if_neg hS, if_neg hE, if_neg hb]
    by_cases he : c.arg = ['-', 'e']
    · rw [if_pos (.inl he), Grammar.turn_flag ((arg_eq_iff c 'e').mp he) (by decide)]
      rfl
    by_cases hJ : c.arg = ['-', 'J']
    · rw [if_pos (.inr hJ), Grammar.turn_flag ((arg_eq_iff c 'J').mp hJ) (by decide)]
      rfl
    have hhead : c.arg.head? = some '-' := rfl
    rw [if_neg (not_or.mpr ⟨he, hJ⟩), if_pos hhead, ← Grammar.clip_turn, captureFlag_cluster,
      flagArgWidthWithExtra, flagArgWidth_cluster]
    rfl
  plain arg rest parsed hhead hend hplain := by
    rcases plain_cases hhead hplain with rfl | ⟨more, rfl⟩
    · rfl
    · have hc : shortCluster ('-' :: '-' :: more) = none := by simp [shortCluster]
      have hmore : more ≠ [] := fun he => hend (by rw [he])
      simp [capturePaneTurn, hmore, hc, captureFlag, captureTarget, shortClusterFlagValueWithExtra,
        flagArgWidthWithExtra, shortClusterFlagValueWithExtraAndBooleanOverrides,
        flagArgWidthWithExtraAndBooleanOverrides, hasFlagInArgWithValueFlags,
        hasFlagInArgWithValueFlagsAndBooleanOverrides, Turn.ofExcept]

/-! ## display-message -/

/-- The flags of `display-message`. -/
def displayMessageGrammar : Grammar DisplayMessageArgs Str where
  takes := valueFlags [] []
  flags text parsed :=
    if 'p' ∈ text.takeWhile fun flag => !valueFlags [] [] flag then { parsed with print := true }
    else parsed
  value flag value :=
    if flag = 't' then
      (targetValue value ['-', 't']).map fun target parsed =>
        { parsed with target, explicitTarget := true }
    else if flag = 'F' then
      (valueForOption value ['-', 'F']).map fun message parsed =>
        { parsed with message := some message }
    else .ok id
  takes_dash := by decide
  flags_value flag st h := by simp [h]

/-- The arm of `display-message` for flags, at a cluster. -/
theorem displayMessageFlag_cluster (c : Cluster) (rest : List Str) (parsed : DisplayMessageArgs) :
    displayMessageFlag c.arg rest parsed = (displayMessageGrammar.read c rest).map fun update =>
      update (displayMessageGrammar.flags c.text parsed) := by
  have hp : (if hasFlagInArg c.arg 'p' then { parsed with print := true } else parsed) =
      displayMessageGrammar.flags c.text parsed := by
    unfold hasFlagInArg hasFlagInArgWithValueFlags
    rw [hasFlagInArg_cluster c (by decide)]
    by_cases h : 'p' ∈ c.flags (valueFlags [] [])
    · rw [decide_eq_true h, if_pos rfl]
      exact (if_pos h).symm
    · rw [decide_eq_false h, if_neg (by decide)]
      exact (if_neg h).symm
  unfold displayMessageFlag
  simp only [hp, shortClusterFlagValue, shortClusterFlagValueWithExtra]
  rcases hvalue : c.valueFlag (valueFlags [] []) with - | ⟨flag, tail⟩
  · rw [Grammar.read_none hvalue,
      scan_none hvalue (show valueFlags [] [] 't' = true by decide),
      scan_none hvalue (show valueFlags [] [] 'F' = true by decide)]
    rfl
  rw [Grammar.read_some hvalue]
  by_cases ht : flag = 't'
  · subst ht
    obtain ⟨pos, hscan⟩ := shortClusterFlagValue_some hvalue rest
    rw [hscan, scan_other hvalue (show valueFlags [] [] 'F' = true by decide) (by decide)]
    simp only [source_text_or]
    rcases hread : targetValue (source tail rest).text ['-', 't'] with err | target
    · simp [displayMessageGrammar, hread, Except.map, bind, Except.bind]
    · simp [displayMessageGrammar, hread, Except.map, bind, Except.bind]
  by_cases hF : flag = 'F'
  · subst hF
    obtain ⟨pos, hscan⟩ := shortClusterFlagValue_some hvalue rest
    rw [hscan, scan_other hvalue (show valueFlags [] [] 't' = true by decide) (by decide)]
    simp only [source_text_or]
    rcases hread : valueForOption (source tail rest).text ['-', 'F'] with err | message
    · simp [displayMessageGrammar, hread, Except.map, bind, Except.bind]
    · simp [displayMessageGrammar, hread, Except.map, bind, Except.bind]
  · rw [scan_other hvalue (show valueFlags [] [] 't' = true by decide) ht,
      scan_other hvalue (show valueFlags [] [] 'F' = true by decide) hF]
    simp only [displayMessageGrammar, if_neg ht, if_neg hF]
    rfl

theorem displayMessage_conforms : Conforms displayMessageGrammar displayMessageTurn where
  cluster c rest parsed := by
    unfold displayMessageTurn
    by_cases hp : c.arg = ['-', 'p']
    · rw [if_pos hp, Grammar.turn_flag ((arg_eq_iff c 'p').mp hp) (by decide)]
      rfl
    by_cases ht : c.arg = ['-', 't']
    · rw [if_neg hp, if_pos ht, Grammar.turn_value ((arg_eq_iff c 't').mp ht) (by decide),
        Turn.clip_ofExcept]
      rcases hread : targetValue rest.head? ['-', 't'] with err | value <;>
        simp [displayMessageGrammar, hread, Except.map]
    by_cases hF : c.arg = ['-', 'F']
    · rw [if_neg hp, if_neg ht, if_pos hF, Grammar.turn_value ((arg_eq_iff c 'F').mp hF) (by decide),
        Turn.clip_ofExcept]
      rcases hread : valueForOption rest.head? ['-', 'F'] with err | value <;>
        simp [displayMessageGrammar, hread, Except.map]
    have hhead : c.arg.head? = some '-' := rfl
    rw [if_neg hp, if_neg ht, if_neg hF, if_neg (arg_ne_end c), if_pos hhead, ← Grammar.clip_turn,
      displayMessageFlag_cluster, flagArgWidth, flagArgWidthWithExtra, flagArgWidth_cluster]
    rfl
  plain arg rest parsed hhead hend hplain := by
    rcases plain_cases hhead hplain with rfl | ⟨more, rfl⟩
    · rfl
    · have hc : shortCluster ('-' :: '-' :: more) = none := by simp [shortCluster]
      have hmore : more ≠ [] := fun he => hend (by rw [he])
      simp [displayMessageTurn, hmore, hc, displayMessageFlag, shortClusterFlagValue, flagArgWidth,
        shortClusterFlagValueWithExtra, flagArgWidthWithExtra, hasFlagInArg,
        shortClusterFlagValueWithExtraAndBooleanOverrides, flagArgWidthWithExtraAndBooleanOverrides,
        hasFlagInArgWithValueFlags, hasFlagInArgWithValueFlagsAndBooleanOverrides, Turn.ofExcept, bind,
        Except.bind]

/-! ## new-session -/

/-- The flags of `new-session`. -/
def newSessionGrammar : Grammar NewSessionArgs Str where
  takes flag := isValueTakingShortFlag flag || decide (flag = 's')
  flags text parsed :=
    (text.takeWhile fun flag => !(isValueTakingShortFlag flag || decide (flag = 's'))).foldl
      (fun parsed flag =>
        if flag = 'd' then { parsed with detached := true }
        else if flag = 'P' then { parsed with print := true }
        else parsed) parsed
  value flag value :=
    if flag = 'F' then
      (valueForOption value ['-', 'F']).map fun format parsed => { parsed with format }
    else if flag = 's' then
      (valueForOption value ['-', 's']).map fun name parsed => { parsed with name := some name }
    else if flag = 'c' then
      (valueForOption value ['-', 'c']).map fun cwd parsed => { parsed with cwd := some cwd }
    else .ok id
  takes_dash := by decide
  flags_value flag st h := by
    rw [List.takeWhile_cons_of_neg (by rw [h]; decide)]
    rfl

/-- What a flag with a value does in `new-session`. -/
theorem newSessionValue_eq {flag : Char} (h : flag ∈ ['F', 's', 'c']) (value : Option Str)
    (parsed : NewSessionArgs) :
    newSessionValue flag value parsed =
      (newSessionGrammar.value flag value).map fun update => update parsed := by
  unfold newSessionValue
  simp only [List.mem_cons, List.not_mem_nil, or_false] at h
  rcases h with rfl | rfl | rfl
  · rcases hread : valueForOption value ['-', 'F'] with err | format <;>
      simp [newSessionGrammar, hread, Except.map]
  · rcases hread : valueForOption value ['-', 's'] with err | name <;>
      simp [newSessionGrammar, hread, Except.map]
  · rcases hread : valueForOption value ['-', 'c'] with err | cwd <;>
      simp [newSessionGrammar, hread, Except.map]

/-- The loop over a cluster of `new-session`: the flags up to the one with a value, and that value. -/
theorem newSessionShortFlags_eq (rest : List Str) : ∀ (text : Str) (parsed : NewSessionArgs),
    newSessionShortFlags rest text parsed =
      match text.dropWhile fun flag => !newSessionGrammar.takes flag with
      | [] => .ok (newSessionGrammar.flags text parsed, false)
      | flag :: tail =>
        (newSessionGrammar.value flag (source tail rest).text).map fun update =>
          (update (newSessionGrammar.flags text parsed), decide (tail = [] ∧ rest ≠ [])) := by
  intro text
  induction text with
  | nil => intro parsed; rfl
  | cons flag tail ih =>
    intro parsed
    unfold newSessionShortFlags
    by_cases htakes : newSessionGrammar.takes flag = true
    · have hd : flag ≠ 'd' := fun he => by rw [he] at htakes; exact absurd htakes (by decide)
      have hP : flag ≠ 'P' := fun he => by rw [he] at htakes; exact absurd htakes (by decide)
      have hflags : newSessionGrammar.flags (flag :: tail) parsed = parsed := by
        show ((flag :: tail).takeWhile fun flag => !newSessionGrammar.takes flag).foldl _ parsed = _
        rw [List.takeWhile_cons_of_neg (by rw [htakes]; decide)]
        rfl
      rw [List.dropWhile_cons_of_neg (by rw [htakes]; decide), if_neg hd, if_neg hP, hflags]
      simp only
      by_cases hmem : flag ∈ ['F', 's', 'c']
      · rw [if_pos hmem]
        by_cases ht : tail = []
        · rw [if_pos ht, newSessionValue_eq hmem, ht, source_nil_text]
          rcases rest with - | ⟨value, rest⟩
          · -- the value is missing: whether it was consumed makes no difference
            have hmissing : ∃ err, newSessionGrammar.value flag none = .error err := by
              simp only [List.mem_cons, List.not_mem_nil, or_false] at hmem
              rcases hmem with rfl | rfl | rfl <;> exact ⟨_, rfl⟩
            obtain ⟨err, herr⟩ := hmissing
            rw [List.head?_nil, herr]
            rfl
          · rcases newSessionGrammar.value flag (value :: rest).head? with err | update
            · rfl
            · simp [Except.map]
        · rw [if_neg ht, newSessionValue_eq hmem, source_attached ht]
          simp only [Source.text]
          rcases newSessionGrammar.value flag (some (stripEquals tail)) with err | update
          · rfl
          · simp [Except.map, ht]
      · have hs : flag ≠ 's' := fun he => hmem (by rw [he]; decide)
        have hvalue : isValueTakingShortFlag flag = true := by
          have h := htakes
          simp only [newSessionGrammar, hs, decide_false, Bool.or_false] at h
          exact h
        have hread : ∀ value, newSessionGrammar.value flag value = .ok id := by
          intro value
          simp only [List.mem_cons, List.not_mem_nil, or_false, not_or] at hmem
          simp only [newSessionGrammar, if_neg hmem.1, if_neg hmem.2.1, if_neg hmem.2.2]
        rw [if_neg hmem, if_pos hvalue, hread]
        rcases rest with - | ⟨value, rest⟩ <;> simp [Except.map]
    · rw [Bool.not_eq_true] at htakes
      have hstep : ∀ parsed, newSessionGrammar.flags (flag :: tail) parsed =
          newSessionGrammar.flags tail
            (if flag = 'd' then { parsed with detached := true }
            else if flag = 'P' then { parsed with print := true }
            else parsed) := by
        intro parsed
        show ((flag :: tail).takeWhile fun flag => !newSessionGrammar.takes flag).foldl _ parsed = _
        rw [List.takeWhile_cons_of_pos (by rw [htakes]; decide)]
        rfl
      rw [List.dropWhile_cons_of_pos (by rw [htakes]; decide)]
      simp only [hstep]
      by_cases hd : flag = 'd'
      · rw [if_pos hd, if_pos hd]
        exact ih _
      by_cases hP : flag = 'P'
      · rw [if_neg hd, if_pos hP, if_neg hd, if_pos hP]
        exact ih _
      have hmem : flag ∉ ['F', 's', 'c'] := by
        intro hmem
        simp only [List.mem_cons, List.not_mem_nil, or_false] at hmem
        rcases hmem with rfl | rfl | rfl <;> exact absurd htakes (by decide)
      have hvalue : ¬ isValueTakingShortFlag flag = true := by
        intro h
        simp only [newSessionGrammar, h, Bool.true_or] at htakes
        exact absurd htakes (by decide)
      rw [if_neg hd, if_neg hP, if_neg hmem, if_neg hvalue, if_neg hd, if_neg hP]
      exact ih _

theorem newSession_conforms : Conforms newSessionGrammar newSessionTurn where
  cluster c rest parsed := by
    unfold newSessionTurn
    by_cases hd : c.arg = ['-', 'd']
    · rw [if_pos hd, Grammar.turn_flag ((arg_eq_iff c 'd').mp hd) (by decide)]
      rfl
    by_cases hP : c.arg = ['-', 'P']
    · rw [if_neg hd, if_pos hP, Grammar.turn_flag ((arg_eq_iff c 'P').mp hP) (by decide)]
      rfl
    by_cases hF : c.arg = ['-', 'F']
    · rw [if_neg hd, if_neg hP, if_pos hF, Grammar.turn_value ((arg_eq_iff c 'F').mp hF) (by decide),
        Turn.clip_ofExcept]
      rcases hread : valueForOption rest.head? ['-', 'F'] with err | format <;>
        simp [newSessionGrammar, hread, Except.map]
    by_cases hs : c.arg = ['-', 's']
    · rw [if_neg hd, if_neg hP, if_neg hF, if_pos hs,
        Grammar.turn_value ((arg_eq_iff c 's').mp hs) (by decide), Turn.clip_ofExcept]
      rcases hread : valueForOption rest.head? ['-', 's'] with err | name <;>
        simp [newSessionGrammar, hread, Except.map]
    by_cases hc : c.arg = ['-', 'c']
    · rw [if_neg hd, if_neg hP, if_neg hF, if_neg hs, if_pos hc,
        Grammar.turn_value ((arg_eq_iff c 'c').mp hc) (by decide), Turn.clip_ofExcept]
      rcases hread : valueForOption rest.head? ['-', 'c'] with err | cwd <;>
        simp [newSessionGrammar, hread, Except.map]
    have hhead : c.arg.head? = some '-' := rfl
    rw [if_neg hd, if_neg hP, if_neg hF, if_neg hs, if_neg hc, if_neg (arg_ne_end c), if_pos hhead,
      ← Grammar.clip_turn]
    congr 1
    rw [parseNewSessionShortFlags, shortCluster_arg]
    simp only
    rw [newSessionShortFlags_eq]
    unfold Grammar.turn Grammar.read Cluster.width Cluster.valueFlag
    rcases c.text.dropWhile fun flag => !newSessionGrammar.takes flag with - | ⟨flag, tail⟩
    · rfl
    · simp only [source_width]
      rcases newSessionGrammar.value flag (source tail rest).text with err | update
      · rfl
      · simp only [Except.map, Turn.ofExcept, decide_eq_true_eq]
  plain arg rest parsed hhead hend hplain := by
    rcases plain_cases hhead hplain with rfl | ⟨more, rfl⟩
    · rfl
    · have hc : shortCluster ('-' :: '-' :: more) = none := by simp [shortCluster]
      have hmore : more ≠ [] := fun he => hend (by rw [he])
      simp [newSessionTurn, hmore, hc, parseNewSessionShortFlags]

/-! ## split-window -/

/-- The flags of `split-window`. -/
def splitWindowGrammar : Grammar SplitWindowArgs Str where
  takes := valueFlags splitWindowValueFlags splitWindowBooleanOverrides
  flags text :=
    splitWindowBooleans fun needle => decide (needle ∈ text.takeWhile fun flag =>
      !valueFlags splitWindowValueFlags splitWindowBooleanOverrides flag)
  value flag value :=
    if flag = 'F' then
      (valueForOption value ['-', 'F']).map fun format parsed => { parsed with format }
    else if flag = 't' then
      (targetValue value ['-', 't']).map fun target parsed => { parsed with target }
    else if flag = 'c' then
      (valueForOption value ['-', 'c']).map fun cwd parsed => { parsed with cwd := some cwd }
    else if flag = 'e' then
      match valueForOption value ['-', 'e'] with
      | .error err => .error err
      | .ok assignment =>
        (parseSplitWindowEnvAssignment assignment).map fun entry parsed =>
          { parsed with paneEnv := parsed.paneEnv.insert entry.1 entry.2 }
    else .ok id
  takes_dash := by decide
  flags_value flag st h := by
    rw [List.takeWhile_cons_of_neg (by rw [h]; decide)]
    rfl

theorem splitWindowEnv_eq (value : Option Str) (parsed : SplitWindowArgs) :
    splitWindowEnv value parsed =
      (splitWindowGrammar.value 'e' value).map fun update => update parsed := by
  unfold splitWindowEnv
  rcases hvalue : valueForOption value ['-', 'e'] with err | assignment
  · simp [splitWindowGrammar, hvalue, Except.map]
  · rcases hread : parseSplitWindowEnvAssignment assignment with err | entry <;>
      simp [splitWindowGrammar, hvalue, hread, Except.map]

/-- The arm of `split-window` for flags, at a cluster. -/
theorem splitWindowFlag_cluster (c : Cluster) (rest : List Str) (parsed : SplitWindowArgs) :
    splitWindowFlag c.arg rest parsed = (splitWindowGrammar.read c rest).map fun update =>
      update (splitWindowGrammar.flags c.text parsed) := by
  have hhas : ∀ needle, valueFlags splitWindowValueFlags splitWindowBooleanOverrides needle = false →
      splitWindowHasFlag c.arg needle = decide (needle ∈ c.text.takeWhile fun flag =>
        !valueFlags splitWindowValueFlags splitWindowBooleanOverrides flag) :=
    fun needle h => hasFlagInArg_cluster c h
  have hflags : splitWindowBooleans (splitWindowHasFlag c.arg) parsed =
      splitWindowGrammar.flags c.text parsed := by
    simp only [splitWindowGrammar, splitWindowBooleans, hhas 'h' (by decide), hhas 'v' (by decide),
      hhas 'b' (by decide), hhas 'd' (by decide), hhas 'P' (by decide)]
  have hF : valueFlags splitWindowValueFlags splitWindowBooleanOverrides 'F' = true := by decide
  have ht : valueFlags splitWindowValueFlags splitWindowBooleanOverrides 't' = true := by decide
  have hc : valueFlags splitWindowValueFlags splitWindowBooleanOverrides 'c' = true := by decide
  have he : valueFlags splitWindowValueFlags splitWindowBooleanOverrides 'e' = true := by decide
  unfold splitWindowFlag
  simp only [hflags, splitWindowFlagValue]
  rcases hvalue : c.valueFlag (valueFlags splitWindowValueFlags splitWindowBooleanOverrides) with
    - | ⟨flag, tail⟩
  · rw [Grammar.read_none hvalue, scan_none hvalue hF, scan_none hvalue ht, scan_none hvalue hc,
      scan_none hvalue he]
    rfl
  rw [Grammar.read_some hvalue]
  by_cases hflagF : flag = 'F'
  · subst hflagF
    obtain ⟨pos, hscan⟩ := shortClusterFlagValue_some hvalue rest
    rw [hscan, scan_other hvalue ht (by decide), scan_other hvalue hc (by decide),
      scan_other hvalue he (by decide)]
    simp only [source_text_or]
    rcases hread : valueForOption (source tail rest).text ['-', 'F'] with err | format <;>
      simp [splitWindowGrammar, hread, Except.map, bind, Except.bind]
  by_cases hflagt : flag = 't'
  · subst hflagt
    obtain ⟨pos, hscan⟩ := shortClusterFlagValue_some hvalue rest
    rw [hscan, scan_other hvalue hF (by decide), scan_other hvalue hc (by decide),
      scan_other hvalue he (by decide)]
    simp only [source_text_or]
    rcases hread : targetValue (source tail rest).text ['-', 't'] with err | target <;>
      simp [splitWindowGrammar, hread, Except.map, bind, Except.bind]
  by_cases hflagc : flag = 'c'
  · subst hflagc
    obtain ⟨pos, hscan⟩ := shortClusterFlagValue_some hvalue rest
    rw [hscan, scan_other hvalue hF (by decide), scan_other hvalue ht (by decide),
      scan_other hvalue he (by decide)]
    simp only [source_text_or]
    rcases hread : valueForOption (source tail rest).text ['-', 'c'] with err | cwd <;>
      simp [splitWindowGrammar, hread, Except.map, bind, Except.bind]
  by_cases hflage : flag = 'e'
  · subst hflage
    obtain ⟨pos, hscan⟩ := shortClusterFlagValue_some hvalue rest
    rw [hscan, scan_other hvalue hF (by decide), scan_other hvalue ht (by decide),
      scan_other hvalue hc (by decide)]
    simp only [source_text_or, splitWindowEnv_eq]
    rfl
  · rw [scan_other hvalue hF hflagF, scan_other hvalue ht hflagt, scan_other hvalue hc hflagc,
      scan_other hvalue he hflage]
    simp only [splitWindowGrammar, if_neg hflagF, if_neg hflagt, if_neg hflagc, if_neg hflage]
    rfl

/-- What `split-window` does at a flag alone that takes no value. -/
theorem splitWindow_boolean {c : Cluster} {flag : Char} (hc : c.arg = ['-', flag])
    (htakes : splitWindowGrammar.takes flag = false) (rest : List Str) (parsed : SplitWindowArgs) :
    splitWindowGrammar.turn c rest parsed =
      .next 1 (splitWindowBooleans (fun needle => decide (needle = flag)) parsed) := by
  have htext : [flag].takeWhile (fun flag =>
      !valueFlags splitWindowValueFlags splitWindowBooleanOverrides flag) = [flag] := by
    rw [List.takeWhile_cons_of_pos]
    · rfl
    · have h : valueFlags splitWindowValueFlags splitWindowBooleanOverrides flag = false := htakes
      rw [h]
      rfl
  rw [Grammar.turn_flag ((arg_eq_iff c flag).mp hc) htakes]
  simp only [splitWindowGrammar, htext, List.mem_singleton]

theorem splitWindow_conforms : Conforms splitWindowGrammar splitWindowTurn where
  cluster c rest parsed := by
    unfold splitWindowTurn
    by_cases hh : c.arg = ['-', 'h']
    · rw [if_pos hh, splitWindow_boolean hh (by decide)]
      rfl
    by_cases hv : c.arg = ['-', 'v']
    · rw [if_neg hh, if_pos hv, splitWindow_boolean hv (by decide)]
      rfl
    by_cases hb : c.arg = ['-', 'b']
    · rw [if_neg hh, if_neg hv, if_pos hb, splitWindow_boolean hb (by decide)]
      rfl
    by_cases hd : c.arg = ['-', 'd']
    · rw [if_neg hh, if_neg hv, if_neg hb, if_pos hd, splitWindow_boolean hd (by decide)]
      rfl
    by_cases hP : c.arg = ['-', 'P']
    · rw [if_neg hh, if_neg hv, if_neg hb, if_neg hd, if_pos hP, splitWindow_boolean hP (by decide)]
      rfl
    rw [if_neg hh, if_neg hv, if_neg hb, if_neg hd, if_neg hP]
    by_cases hF : c.arg = ['-', 'F']
    · rw [if_pos hF, Grammar.turn_value ((arg_eq_iff c 'F').mp hF) (by decide), Turn.clip_ofExcept]
      rcases hread : valueForOption rest.head? ['-', 'F'] with err | format <;>
        simp [splitWindowGrammar, hread, Except.map]
    by_cases ht : c.arg = ['-', 't']
    · rw [if_neg hF, if_pos ht, Grammar.turn_value ((arg_eq_iff c 't').mp ht) (by decide),
        Turn.clip_ofExcept]
      rcases hread : targetValue rest.head? ['-', 't'] with err | target <;>
        simp [splitWindowGrammar, hread, Except.map]
    by_cases hc : c.arg = ['-', 'c']
    · rw [if_neg hF, if_neg ht, if_pos hc, Grammar.turn_value ((arg_eq_iff c 'c').mp hc) (by decide),
        Turn.clip_ofExcept]
      rcases hread : valueForOption rest.head? ['-', 'c'] with err | cwd <;>
        simp [splitWindowGrammar, hread, Except.map]
    by_cases he : c.arg = ['-', 'e']
    · rw [if_neg hF, if_neg ht, if_neg hc, if_pos he,
        Grammar.turn_value ((arg_eq_iff c 'e').mp he) (by decide), Turn.clip_ofExcept,
        splitWindowEnv_eq]
    have hhead : c.arg.head? = some '-' := rfl
    rw [if_neg hF, if_neg ht, if_neg hc, if_neg he, if_neg (arg_ne_end c), if_pos hhead,
      ← Grammar.clip_turn, splitWindowFlag_cluster, flagArgWidth_cluster]
    rfl
  plain arg rest parsed hhead hend hplain := by
    rcases plain_cases hhead hplain with rfl | ⟨more, rfl⟩
    · rfl
    · have hc : shortCluster ('-' :: '-' :: more) = none := by simp [shortCluster]
      have hmore : more ≠ [] := fun he => hend (by rw [he])
      simp [splitWindowTurn, hmore, hc, splitWindowFlag, splitWindowBooleans, splitWindowHasFlag,
        splitWindowFlagValue, shortClusterFlagValueWithExtraAndBooleanOverrides,
        flagArgWidthWithExtraAndBooleanOverrides, hasFlagInArgWithValueFlagsAndBooleanOverrides,
        Turn.ofExcept, bind, Except.bind]

end LightTerminal.Tmux.CommandGrammars
