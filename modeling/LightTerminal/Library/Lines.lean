import Mathlib.Tactic

/-! # Lines

A stream of symbols in which a separator ends a line. `lines` are the finished lines of a stream that
starts in the middle of one, `unfinished` is what stands behind the last separator. A writer that is
cut off in the middle of a line only adds to `unfinished`: what it wrote before stays as it was, but
what is written behind it belongs to the same line. -/

namespace LightTerminal.Library.Lines

variable {α : Type} [DecidableEq α] (sep : α)

/-- The finished lines, without their separators; `pending` is the beginning of the first. -/
def lines (pending : List α) : List α → List (List α)
  | [] => []
  | a :: rest => if a = sep then pending :: lines [] rest else lines (pending ++ [a]) rest

/-- The line that is not finished. -/
def unfinished (pending : List α) : List α → List α
  | [] => pending
  | a :: rest => if a = sep then unfinished [] rest else unfinished (pending ++ [a]) rest

variable {sep}

theorem lines_append (pending stream more : List α) :
    lines sep pending (stream ++ more) =
      lines sep pending stream ++ lines sep (unfinished sep pending stream) more := by
  induction stream generalizing pending with
  | nil => rfl
  | cons a rest ih =>
    simp only [List.cons_append, lines, unfinished]
    split_ifs with h
    · rw [ih, List.cons_append]
    · exact ih _

theorem lines_of_notMem {text : List α} (h : sep ∉ text) (pending : List α) :
    lines sep pending text = [] := by
  induction text generalizing pending with
  | nil => rfl
  | cons a rest ih =>
    obtain ⟨hne, hrest⟩ := List.ne_and_not_mem_of_not_mem_cons h
    rw [lines, if_neg (Ne.symm hne)]
    exact ih hrest _

theorem unfinished_of_notMem {text : List α} (h : sep ∉ text) (pending : List α) :
    unfinished sep pending text = pending ++ text := by
  induction text generalizing pending with
  | nil => simp [unfinished]
  | cons a rest ih =>
    obtain ⟨hne, hrest⟩ := List.ne_and_not_mem_of_not_mem_cons h
    rw [unfinished, if_neg (Ne.symm hne), ih hrest]
    simp

theorem lines_line {text : List α} (h : sep ∉ text) (pending rest : List α) :
    lines sep pending (text ++ sep :: rest) = (pending ++ text) :: lines sep [] rest := by
  rw [lines_append, lines_of_notMem h, unfinished_of_notMem h, lines, if_pos rfl, List.nil_append]

/-- A stream has a separator, and so a first line, or is one unfinished line. -/
theorem exists_line {stream : List α} (h : sep ∈ stream) :
    ∃ text rest, stream = text ++ sep :: rest ∧ sep ∉ text := by
  induction stream with
  | nil => cases h
  | cons a stream ih =>
    by_cases ha : a = sep
    · exact ⟨[], stream, by rw [ha, List.nil_append], by simp⟩
    · obtain ⟨text, rest, rfl, htext⟩ := ih ((List.mem_cons.mp h).resolve_left (Ne.symm ha))
      exact ⟨a :: text, rest, rfl, List.not_mem_cons_of_ne_of_not_mem (Ne.symm ha) htext⟩

theorem findIdx?_of_notMem {stream : List α} (h : sep ∉ stream) :
    stream.findIdx? (· = sep) = none :=
  List.findIdx?_eq_none_iff.mpr fun _ ha => decide_eq_false fun heq => h (heq ▸ ha)

/-- The first separator stands behind the first line. -/
theorem findIdx?_line {text : List α} (h : sep ∉ text) (rest : List α) :
    (text ++ sep :: rest).findIdx? (· = sep) = some text.length := by
  rw [List.findIdx?_append, findIdx?_of_notMem h, List.findIdx?_cons, decide_eq_true rfl]
  simp

/-- A stream has one first line. -/
theorem line_unique {text text' rest rest' : List α} (h : text ++ sep :: rest = text' ++ sep :: rest')
    (htext : sep ∉ text) (htext' : sep ∉ text') : text = text' ∧ rest = rest' := by
  have hlines := lines_line htext [] rest
  rw [h, lines_line htext' [] rest', List.cons.injEq, List.nil_append, List.nil_append] at hlines
  obtain rfl := hlines.1
  have hrest := List.append_cancel_left h
  rw [List.cons.injEq] at hrest
  exact ⟨rfl, hrest.2⟩

/-! ### Lines with their separators -/

/-- The lines of a stream, each with its separator; the last may have none. -/
def splitInclusive (sep : α) : List α → List (List α)
  | [] => []
  | a :: rest =>
    if a = sep then [a] :: splitInclusive sep rest
    else
      match splitInclusive sep rest with
      | [] => [[a]]
      | line :: more => (a :: line) :: more

/-- Lines with their separators, the last with or without. -/
inductive Inclusive (sep : α) : List (List α) → Prop
  | none : Inclusive sep []
  | last {text : List α} (hne : text ≠ []) (h : sep ∉ text) : Inclusive sep [text]
  | line {text : List α} {rest : List (List α)} (h : sep ∉ text) (hrest : Inclusive sep rest) :
      Inclusive sep ((text ++ [sep]) :: rest)

theorem flatten_splitInclusive (stream : List α) : (splitInclusive sep stream).flatten = stream := by
  induction stream with
  | nil => rfl
  | cons a rest ih =>
    rw [splitInclusive]
    split_ifs with h
    · rw [List.flatten_cons, ih, List.singleton_append]
    · cases hsplit : splitInclusive sep rest with
      | nil =>
        rw [hsplit, List.flatten_nil] at ih
        rw [← ih]
        rfl
      | cons line more =>
        rw [hsplit, List.flatten_cons] at ih
        simp only [List.flatten_cons, List.cons_append, ih]

/-- Behind a separator the lines begin anew. -/
theorem splitInclusive_append {stream : List α} (h : stream.getLast? = some sep) (more : List α) :
    splitInclusive sep (stream ++ more) = splitInclusive sep stream ++ splitInclusive sep more := by
  induction stream with
  | nil => cases h
  | cons a rest ih =>
    rcases List.eq_nil_or_concat rest with rfl | ⟨init, last, hrest⟩
    · have ha : a = sep := Option.some.inj h
      rw [List.cons_append, List.nil_append, splitInclusive, if_pos ha, splitInclusive, if_pos ha]
      rfl
    · have hne : rest ≠ [] := by simp [hrest]
      rw [List.getLast?_cons_of_ne_nil hne] at h
      rw [List.cons_append, splitInclusive, splitInclusive, ih h]
      split_ifs with ha
      · rfl
      · have hlines : splitInclusive sep rest ≠ [] := fun hnil => hne (by
          have hflat : (splitInclusive sep rest).flatten = rest := flatten_splitInclusive rest
          rw [hnil] at hflat
          exact hflat.symm)
        obtain ⟨line, lines, hsplit⟩ := List.exists_cons_of_ne_nil hlines
        rw [hsplit]
        rfl

theorem inclusive_splitInclusive (stream : List α) : Inclusive sep (splitInclusive sep stream) := by
  induction stream with
  | nil => exact .none
  | cons a rest ih =>
    rw [splitInclusive]
    split_ifs with h
    · subst h
      exact Inclusive.line (List.not_mem_nil (a := a)) ih
    · have hne : sep ≠ a := Ne.symm h
      cases hsplit : splitInclusive sep rest with
      | nil => exact .last (List.cons_ne_nil _ _) (by simpa using hne)
      | cons line more =>
        rw [hsplit] at ih
        cases ih with
        | last _ hline => exact .last (List.cons_ne_nil _ _) (List.not_mem_cons_of_ne_of_not_mem hne hline)
        | line hline hrest =>
          exact .line (List.not_mem_cons_of_ne_of_not_mem hne hline) hrest

omit [DecidableEq α] in
theorem Inclusive.ne_nil {lines : List (List α)} (h : Inclusive sep lines) : [] ∉ lines := by
  induction h with
  | none => exact List.not_mem_nil
  | last hne _ => simpa using Ne.symm hne
  | line _ _ ih => simp [ih]

omit [DecidableEq α] in
/-- Lines without symbols are no lines. -/
theorem Inclusive.flatten_eq_nil {lines : List (List α)} (h : Inclusive sep lines) :
    lines.flatten = [] ↔ lines = [] := by
  constructor
  · intro hnil
    by_contra hne
    obtain ⟨line, more, rfl⟩ := List.exists_cons_of_ne_nil hne
    have hline : line = [] := List.flatten_eq_nil_iff.mp hnil line List.mem_cons_self
    exact h.ne_nil (hline ▸ List.mem_cons_self)
  · rintro rfl
    rfl

end LightTerminal.Library.Lines
