import LightTerminal.Data.Text
import LightTerminal.Library.ShortOptions

/-! # Short flags of the tmux commands

The helpers with which the commands read an argument such as `-dF` or `-t%1`: a cluster of flags, of
which the first that takes a value takes the rest of the cluster, or the next argument when nothing is
left. An argument list from the cursor on is the argument and the list `rest` after it, so that
`args.get(i + 1)` is `rest.head?`.

Several helpers walk through the same cluster, each on its own. They agree on where it ends: at the first
flag that takes a value (`hasFlagInArg_cluster`, `shortClusterFlagValue_cluster`,
`flagArgWidth_cluster`). -/

namespace LightTerminal.Tmux.ShortFlags

open LightTerminal.Data.Text LightTerminal.Library.ShortOptions

/-! ## The source -/

/-- `short_cluster`. -/
def shortCluster : Str → Option Str
  | '-' :: cluster => if cluster = [] ∨ cluster.head? = some '-' then none else some cluster
  | _ => none

/-- `is_value_taking_short_flag`. -/
def isValueTakingShortFlag (flag : Char) : Bool :=
  decide (flag ∈ ['F', 't', 'f', 'c', 'n', 'x', 'y'])

/-- `short_flag_takes_value`. -/
def shortFlagTakesValue (flag : Char) (extraValueFlags booleanValueOverrides : List Char) : Bool :=
  (isValueTakingShortFlag flag && !decide (flag ∈ booleanValueOverrides)) ||
    decide (flag ∈ extraValueFlags)

/-- `value_for_short_flag_with_extra_and_boolean_overrides`; `tail` is what the cluster has after the
flag. -/
def valueForShortFlag (tail : Str) (flag : Char) (rest : List Str)
    (extraValueFlags booleanValueOverrides : List Char) : Option Str :=
  if !shortFlagTakesValue flag extraValueFlags booleanValueOverrides then none
  else if tail = [] then rest.head?
  else some (stripEquals tail)

/-- The loop of `short_cluster_flag_value_with_extra_and_boolean_overrides` from a position on. -/
def clusterFlagValue (needle : Char) (rest : List Str)
    (extraValueFlags booleanValueOverrides : List Char) : ℕ → Str → Option (ℕ × Option Str)
  | _, [] => none
  | pos, flag :: tail =>
    let value := valueForShortFlag tail flag rest extraValueFlags booleanValueOverrides
    if flag = needle then some (pos, value)
    else if value.isSome ∨
        (shortFlagTakesValue flag extraValueFlags booleanValueOverrides ∧ tail = []) then none
    else
      clusterFlagValue needle rest extraValueFlags booleanValueOverrides (pos + flag.utf8Size) tail

/-- `short_cluster_flag_value_with_extra_and_boolean_overrides`. -/
def shortClusterFlagValueWithExtraAndBooleanOverrides (arg : Str) (needle : Char) (rest : List Str)
    (extraValueFlags booleanValueOverrides : List Char) : Option (ℕ × Option Str) :=
  match shortCluster arg with
  | none => none
  | some cluster => clusterFlagValue needle rest extraValueFlags booleanValueOverrides 0 cluster

/-- `short_cluster_flag_value_with_extra`. -/
def shortClusterFlagValueWithExtra (arg : Str) (needle : Char) (rest : List Str)
    (extraValueFlags : List Char) : Option (ℕ × Option Str) :=
  shortClusterFlagValueWithExtraAndBooleanOverrides arg needle rest extraValueFlags []

/-- `short_cluster_flag_value`. -/
def shortClusterFlagValue (arg : Str) (needle : Char) (rest : List Str) : Option (ℕ × Option Str) :=
  shortClusterFlagValueWithExtra arg needle rest []

/-- The loop of `flag_arg_width_with_extra_and_boolean_overrides`. -/
def clusterArgWidth (rest : List Str) (extraValueFlags booleanValueOverrides : List Char) : Str → ℕ
  | [] => 1
  | flag :: tail =>
    if shortFlagTakesValue flag extraValueFlags booleanValueOverrides then
      if tail = [] ∧ rest.head?.isSome then 2 else 1
    else clusterArgWidth rest extraValueFlags booleanValueOverrides tail

/-- `flag_arg_width_with_extra_and_boolean_overrides`. -/
def flagArgWidthWithExtraAndBooleanOverrides (flag : Str) (rest : List Str)
    (extraValueFlags booleanValueOverrides : List Char) : ℕ :=
  match shortCluster flag with
  | none => 1
  | some cluster => clusterArgWidth rest extraValueFlags booleanValueOverrides cluster

/-- `flag_arg_width_with_extra`. -/
def flagArgWidthWithExtra (flag : Str) (rest : List Str) (extraValueFlags : List Char) : ℕ :=
  flagArgWidthWithExtraAndBooleanOverrides flag rest extraValueFlags []

/-- `flag_arg_width`. -/
def flagArgWidth (flag : Str) (rest : List Str) : ℕ := flagArgWidthWithExtra flag rest []

/-- The loop of `has_flag_in_arg_with_value_flags_and_boolean_overrides`. It asks for the value without
the arguments that follow. -/
def clusterHasFlag (needle : Char) (extraValueFlags booleanValueOverrides : List Char) : Str → Bool
  | [] => false
  | flag :: tail =>
    if flag = needle then true
    else if (valueForShortFlag tail flag [] extraValueFlags booleanValueOverrides).isSome ∨
        (shortFlagTakesValue flag extraValueFlags booleanValueOverrides ∧ tail = []) then false
    else clusterHasFlag needle extraValueFlags booleanValueOverrides tail

/-- `has_flag_in_arg_with_value_flags_and_boolean_overrides`. -/
def hasFlagInArgWithValueFlagsAndBooleanOverrides (arg : Str) (needle : Char)
    (extraValueFlags booleanValueOverrides : List Char) : Bool :=
  match shortCluster arg with
  | none => false
  | some cluster => clusterHasFlag needle extraValueFlags booleanValueOverrides cluster

/-- `has_flag_in_arg_with_value_flags`. -/
def hasFlagInArgWithValueFlags (arg : Str) (needle : Char) (extraValueFlags : List Char) : Bool :=
  hasFlagInArgWithValueFlagsAndBooleanOverrides arg needle extraValueFlags []

/-- `has_flag_in_arg`. -/
def hasFlagInArg (arg : Str) (needle : Char) : Bool := hasFlagInArgWithValueFlags arg needle []

/-- `value_for_option`. -/
def valueForOption (value : Option Str) (flag : Str) : Except Str Str :=
  match value with
  | some value => .ok value
  | none => .error ("tmux option ".toList ++ flag ++ " requires a value".toList)

/-- `target_value`. -/
def targetValue (value : Option Str) (flag : Str) : Except Str (Option Str) :=
  match value with
  | some (ch :: value) => .ok (some (ch :: value))
  | _ => .error ("tmux target flag ".toList ++ flag ++ " requires a value".toList)

/-! ## Clusters -/

theorem shortCluster_cons {arg cluster : Str} (h : shortCluster arg = some cluster) :
    arg = '-' :: cluster ∧ cluster ≠ [] ∧ cluster.head? ≠ some '-' := by
  unfold shortCluster at h
  split at h
  · rename_i cluster'
    by_cases hc : cluster' = [] ∨ cluster'.head? = some '-'
    · rw [if_pos hc] at h
      exact absurd h (by simp)
    · rw [if_neg hc] at h
      have he : cluster' = cluster := Option.some.inj h
      rw [he] at hc
      exact ⟨by rw [he], fun h => hc (.inl h), fun h => hc (.inr h)⟩
  · exact absurd h (by simp)

@[simp] theorem shortCluster_arg (c : Cluster) : shortCluster c.arg = some c.text := by
  have hc : ¬ (c.text = [] ∨ c.text.head? = some '-') := by
    rintro (h | h)
    · exact c.nonempty h
    · exact c.short h
  exact if_neg hc

theorem shortCluster_none {arg : Str} (h : ∀ c : Cluster, c.arg ≠ arg) : shortCluster arg = none := by
  rcases hs : shortCluster arg with - | cluster
  · rfl
  · obtain ⟨harg, hne, hshort⟩ := shortCluster_cons hs
    exact absurd harg.symm (h ⟨cluster, hne, hshort⟩)

section Helpers
variable {extraValueFlags booleanValueOverrides : List Char}

/-- The flags that take a value for some command. -/
def valueFlags (extraValueFlags booleanValueOverrides : List Char) (flag : Char) : Bool :=
  shortFlagTakesValue flag extraValueFlags booleanValueOverrides

theorem valueForShortFlag_takes {flag : Char}
    (h : valueFlags extraValueFlags booleanValueOverrides flag = true) (tail : Str)
    (rest : List Str) :
    valueForShortFlag tail flag rest extraValueFlags booleanValueOverrides =
      (source tail rest).text := by
  have htakes : shortFlagTakesValue flag extraValueFlags booleanValueOverrides = true := h
  unfold valueForShortFlag
  rw [htakes, if_neg (by decide)]
  by_cases ht : tail = []
  · rcases rest with - | ⟨value, rest⟩ <;> simp [ht, source, Source.text]
  · rw [if_neg ht, source_attached ht]
    rfl

theorem valueForShortFlag_boolean {flag : Char}
    (h : valueFlags extraValueFlags booleanValueOverrides flag = false) (tail : Str)
    (rest : List Str) :
    valueForShortFlag tail flag rest extraValueFlags booleanValueOverrides = none := by
  have htakes : shortFlagTakesValue flag extraValueFlags booleanValueOverrides = false := h
  unfold valueForShortFlag
  rw [htakes]
  rfl

/-- A flag that takes a value ends every scan of its cluster. -/
theorem scan_ends {flag : Char} (h : valueFlags extraValueFlags booleanValueOverrides flag = true)
    (tail : Str) (rest : List Str) :
    (valueForShortFlag tail flag rest extraValueFlags booleanValueOverrides).isSome ∨
      (shortFlagTakesValue flag extraValueFlags booleanValueOverrides ∧ tail = []) := by
  by_cases ht : tail = []
  · exact .inr ⟨h, ht⟩
  · left
    rw [valueForShortFlag_takes h, source_attached ht]
    rfl

theorem scan_goes_on {flag : Char}
    (h : valueFlags extraValueFlags booleanValueOverrides flag = false) (tail : Str)
    (rest : List Str) :
    ¬ ((valueForShortFlag tail flag rest extraValueFlags booleanValueOverrides).isSome ∨
      (shortFlagTakesValue flag extraValueFlags booleanValueOverrides ∧ tail = [])) := by
  have htakes : shortFlagTakesValue flag extraValueFlags booleanValueOverrides = false := h
  rw [valueForShortFlag_boolean h, htakes]
  simp

theorem clusterFlagValue_eq {needle : Char}
    (hneedle : valueFlags extraValueFlags booleanValueOverrides needle = true) (rest : List Str) :
    ∀ (text : Str) (pos : ℕ),
      (clusterFlagValue needle rest extraValueFlags booleanValueOverrides pos text).map Prod.snd =
        match text.dropWhile fun flag => !valueFlags extraValueFlags booleanValueOverrides flag with
        | [] => none
        | flag :: tail => if flag = needle then some (source tail rest).text else none := by
  intro text
  induction text with
  | nil => intro pos; rfl
  | cons flag tail ih =>
    intro pos
    unfold clusterFlagValue
    by_cases htakes : valueFlags extraValueFlags booleanValueOverrides flag = true
    · rw [List.dropWhile_cons_of_neg (by simp [htakes])]
      by_cases he : flag = needle
      · simp only [if_pos he, Option.map_some, valueForShortFlag_takes htakes]
      · simp only [if_neg he, if_pos (scan_ends htakes tail rest), Option.map_none]
    · rw [Bool.not_eq_true] at htakes
      have he : flag ≠ needle := by
        intro he
        rw [he, hneedle] at htakes
        exact absurd htakes (by decide)
      rw [List.dropWhile_cons_of_pos (by simp [htakes])]
      simp only [if_neg he, if_neg (scan_goes_on htakes tail rest)]
      exact ih _

theorem clusterArgWidth_eq (rest : List Str) : ∀ text : Str,
    clusterArgWidth rest extraValueFlags booleanValueOverrides text =
      match text.dropWhile fun flag => !valueFlags extraValueFlags booleanValueOverrides flag with
      | [] => 1
      | _ :: tail => (source tail rest).width := by
  intro text
  induction text with
  | nil => rfl
  | cons flag tail ih =>
    unfold clusterArgWidth
    by_cases htakes : valueFlags extraValueFlags booleanValueOverrides flag = true
    · rw [List.dropWhile_cons_of_neg (by simp [htakes])]
      have ht : shortFlagTakesValue flag extraValueFlags booleanValueOverrides = true := htakes
      simp only [ht, source_width, if_true]
      rcases rest with - | ⟨value, rest⟩ <;> simp
    · rw [Bool.not_eq_true] at htakes
      have ht : shortFlagTakesValue flag extraValueFlags booleanValueOverrides = false := htakes
      rw [List.dropWhile_cons_of_pos (by simp [htakes]), ht, if_neg (by decide)]
      exact ih

theorem clusterHasFlag_eq {needle : Char}
    (hneedle : valueFlags extraValueFlags booleanValueOverrides needle = false) : ∀ text : Str,
    clusterHasFlag needle extraValueFlags booleanValueOverrides text =
      decide (needle ∈
        text.takeWhile fun flag => !valueFlags extraValueFlags booleanValueOverrides flag) := by
  intro text
  induction text with
  | nil => rfl
  | cons flag tail ih =>
    unfold clusterHasFlag
    by_cases htakes : valueFlags extraValueFlags booleanValueOverrides flag = true
    · have he : flag ≠ needle := by
        intro he
        rw [he, hneedle] at htakes
        exact absurd htakes (by decide)
      rw [List.takeWhile_cons_of_neg (by simp [htakes]), if_neg he,
        if_pos (scan_ends htakes tail [])]
      rfl
    · rw [Bool.not_eq_true] at htakes
      rw [List.takeWhile_cons_of_pos (by simp [htakes])]
      by_cases he : flag = needle
      · rw [if_pos he, he]
        simp
      · rw [if_neg he, if_neg (scan_goes_on htakes tail []), ih]
        simp [Ne.symm he]

/-! ### The helpers at a cluster -/

/-- The value that is read for a flag is that of the cluster, if the flag is the one that has it. -/
theorem shortClusterFlagValue_cluster (c : Cluster) {needle : Char}
    (hneedle : valueFlags extraValueFlags booleanValueOverrides needle = true) (rest : List Str) :
    (shortClusterFlagValueWithExtraAndBooleanOverrides c.arg needle rest extraValueFlags
        booleanValueOverrides).map Prod.snd =
      match c.valueFlag (valueFlags extraValueFlags booleanValueOverrides) with
      | none => none
      | some (flag, tail) => if flag = needle then some (source tail rest).text else none := by
  unfold shortClusterFlagValueWithExtraAndBooleanOverrides Cluster.valueFlag
  rw [shortCluster_arg]
  simp only
  rw [clusterFlagValue_eq hneedle]
  rcases c.text.dropWhile fun flag => !valueFlags extraValueFlags booleanValueOverrides flag with
    - | ⟨flag, tail⟩
  · rfl
  · rfl

theorem shortClusterFlagValue_some {c : Cluster} {needle : Char} {tail : Str}
    (hvalue : c.valueFlag (valueFlags extraValueFlags booleanValueOverrides) = some (needle, tail))
    (rest : List Str) :
    ∃ pos, shortClusterFlagValueWithExtraAndBooleanOverrides c.arg needle rest extraValueFlags
      booleanValueOverrides = some (pos, (source tail rest).text) := by
  have h := shortClusterFlagValue_cluster c (takes_valueFlag hvalue) rest
  rw [hvalue] at h
  simp only [if_true] at h
  obtain ⟨⟨pos, value⟩, he, hv⟩ := Option.map_eq_some_iff.mp h
  exact ⟨pos, by rw [he, ← hv]⟩

theorem shortClusterFlagValue_none {c : Cluster} {needle : Char}
    (hneedle : valueFlags extraValueFlags booleanValueOverrides needle = true)
    (hvalue : ∀ tail,
      c.valueFlag (valueFlags extraValueFlags booleanValueOverrides) ≠ some (needle, tail))
    (rest : List Str) :
    shortClusterFlagValueWithExtraAndBooleanOverrides c.arg needle rest extraValueFlags
      booleanValueOverrides = none := by
  have h := shortClusterFlagValue_cluster c hneedle rest
  rcases hc : c.valueFlag (valueFlags extraValueFlags booleanValueOverrides) with - | ⟨flag, tail⟩
  · rw [hc] at h
    exact Option.map_eq_none_iff.mp h
  · have hne : flag ≠ needle := fun he => hvalue tail (by rw [hc, he])
    rw [hc] at h
    simp only [if_neg hne] at h
    exact Option.map_eq_none_iff.mp h

/-- The width of a cluster, by the first of its flags that takes a value. -/
theorem flagArgWidth_cluster (c : Cluster) (rest : List Str) :
    flagArgWidthWithExtraAndBooleanOverrides c.arg rest extraValueFlags booleanValueOverrides =
      c.width (valueFlags extraValueFlags booleanValueOverrides) rest := by
  unfold flagArgWidthWithExtraAndBooleanOverrides Cluster.width Cluster.valueFlag
  rw [shortCluster_arg]
  simp only
  rw [clusterArgWidth_eq]
  rcases c.text.dropWhile fun flag => !valueFlags extraValueFlags booleanValueOverrides flag with
    - | ⟨flag, tail⟩
  · rfl
  · rfl

/-- A flag without a value is found exactly before the flag that takes one. -/
theorem hasFlagInArg_cluster (c : Cluster) {needle : Char}
    (hneedle : valueFlags extraValueFlags booleanValueOverrides needle = false) :
    hasFlagInArgWithValueFlagsAndBooleanOverrides c.arg needle extraValueFlags
        booleanValueOverrides =
      decide (needle ∈ c.flags (valueFlags extraValueFlags booleanValueOverrides)) := by
  unfold hasFlagInArgWithValueFlagsAndBooleanOverrides Cluster.flags
  rw [shortCluster_arg]
  exact clusterHasFlag_eq hneedle c.text

end Helpers

end LightTerminal.Tmux.ShortFlags
