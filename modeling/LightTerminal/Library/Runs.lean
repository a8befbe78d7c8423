import Mathlib.Data.List.Chain
import Mathlib.Tactic

/-! # Runs

Pieces are collected into runs from left to right: a piece extends the last run if it belongs to it,
and starts a run of its own if not (`push`). The runs hold the pieces in their order (`expand_push`), and
no piece could have been in the run before its own (`Apart`).

`Interned` is a table of distinct values with the map from a value to its place. -/

namespace LightTerminal.Library.Runs

variable {Piece Run : Type}

/-- A way to collect pieces into runs. -/
structure Merging (Piece Run : Type) where
  start : Piece → Run
  extend : Run → Piece → Option Run
  pieces : Run → List Piece
  pieces_start : ∀ piece, pieces (start piece) = [piece]
  pieces_extend : ∀ run piece run', extend run piece = some run' →
    pieces run' = pieces run ++ [piece]

namespace Merging

variable (M : Merging Piece Run)

/-- One more piece. -/
def push (runs : List Run) (piece : Piece) : List Run :=
  match runs.getLast? with
  | some run =>
    match M.extend run piece with
    | some run' => runs.dropLast ++ [run']
    | none => runs ++ [M.start piece]
  | none => runs ++ [M.start piece]

/-- The pieces of runs. -/
def expand (runs : List Run) : List Piece := runs.flatMap M.pieces

/-- The second run does not go on where the first one ends. -/
def Apart (run next : Run) : Prop :=
  ∃ piece, (M.pieces next).head? = some piece ∧ M.extend run piece = none

variable {M} {runs : List Run} {piece : Piece}

/-- What a push does: it extends the last run, or adds a run that the last one does not take. -/
theorem push_cases (M : Merging Piece Run) (runs : List Run) (piece : Piece) :
    (∃ init run run', runs = init ++ [run] ∧ M.extend run piece = some run' ∧
      M.push runs piece = init ++ [run']) ∨
    ((∀ run, runs.getLast? = some run → M.extend run piece = none) ∧
      M.push runs piece = runs ++ [M.start piece]) := by
  unfold push
  cases hlast : runs.getLast? with
  | none =>
    exact Or.inr ⟨fun _ hrun => (nomatch hrun), rfl⟩
  | some run =>
    have hsplit : runs = runs.dropLast ++ [run] :=
      (List.dropLast_append_getLast? run hlast).symm
    cases hextend : M.extend run piece with
    | none =>
      refine Or.inr ⟨fun run' hrun' => ?_, by simp only [hextend]⟩
      rwa [← Option.some.inj hrun']
    | some run' => exact Or.inl ⟨_, run, run', hsplit, hextend, by simp only [hextend]⟩

theorem expand_append (runs more : List Run) :
    M.expand (runs ++ more) = M.expand runs ++ M.expand more := List.flatMap_append

theorem expand_singleton (run : Run) : M.expand [run] = M.pieces run := List.flatMap_singleton ..

/-- **No piece is lost**, and none changes its place. -/
theorem expand_push : M.expand (M.push runs piece) = M.expand runs ++ [piece] := by
  rcases push_cases M runs piece with ⟨init, run, run', rfl, hextend, hpush⟩ | ⟨-, hpush⟩
  · have hpieces := M.pieces_extend run piece run' hextend
    rw [hpush, expand_append, expand_append, expand_singleton, expand_singleton, hpieces,
      List.append_assoc]
  · rw [hpush, expand_append, expand_singleton, M.pieces_start]

/-- **The runs are as long as they can be.** -/
theorem isChain_push (h : runs.IsChain M.Apart) : (M.push runs piece).IsChain M.Apart := by
  rcases push_cases M runs piece with ⟨init, run, run', rfl, hextend, hpush⟩ | ⟨hlast, hpush⟩
  · rw [hpush]
    rw [List.isChain_append] at h ⊢
    obtain ⟨hinit, -, hjoin⟩ := h
    refine ⟨hinit, List.isChain_singleton _, fun before hbefore next hnext => ?_⟩
    obtain rfl : run' = next := by simpa using hnext
    obtain ⟨first, hfirst, hnone⟩ := hjoin before hbefore run (by simp)
    have hpieces := M.pieces_extend run piece run' hextend
    have hhead : (M.pieces run').head? = some first := by
      rw [hpieces, List.head?_append, hfirst]
      rfl
    exact ⟨first, hhead, hnone⟩
  · rw [hpush, List.isChain_append]
    refine ⟨h, List.isChain_singleton _, fun before hbefore next hnext => ?_⟩
    obtain rfl : M.start piece = next := by simpa using hnext
    have hhead : (M.pieces (M.start piece)).head? = some piece := by
      rw [M.pieces_start]
      rfl
    exact ⟨piece, hhead, hlast before hbefore⟩

/-- A run of the result is extended or new. -/
theorem forall_push {P : Run → Prop} (h : ∀ run ∈ runs, P run) (hstart : P (M.start piece))
    (hextend : ∀ run ∈ runs, ∀ run', M.extend run piece = some run' → P run') :
    ∀ run ∈ M.push runs piece, P run := by
  intro run hrun
  rcases push_cases M runs piece with ⟨init, last, last', rfl, hlast, hpush⟩ | ⟨-, hpush⟩
  · rw [hpush, List.mem_append, List.mem_singleton] at hrun
    rcases hrun with hrun | rfl
    · exact h run (List.mem_append_left _ hrun)
    · exact hextend last (by simp) run hlast
  · rw [hpush, List.mem_append, List.mem_singleton] at hrun
    rcases hrun with hrun | rfl
    · exact h run hrun
    · exact hstart

end Merging

/-! ### Interning -/

section Interning

variable {α : Type}

/-- The map gives each value of the table its place, and nothing else. -/
def Interned (values : List α) (ids : α → Option ℕ) : Prop :=
  ∀ a i, ids a = some i ↔ values[i]? = some a

theorem interned_nil : Interned ([] : List α) fun _ => none := by
  intro a i
  simp

/-- No value is in the table twice. -/
theorem Interned.nodup {values : List α} {ids : α → Option ℕ} (h : Interned values ids) :
    values.Nodup := by
  rw [List.nodup_iff_injective_get]
  intro i j hij
  have hi : ids (values.get i) = some i.1 := (h _ _).mpr (by simp)
  have hj : ids (values.get j) = some j.1 := (h _ _).mpr (by simp)
  rw [hij, hj] at hi
  exact Fin.ext (Option.some.inj hi).symm

/-- A value that is not there yet gets the next place. -/
theorem Interned.insert [DecidableEq α] {values : List α} {ids : α → Option ℕ}
    (h : Interned values ids) {a : α} (hnew : ids a = none) :
    Interned (values ++ [a]) (Function.update ids a (some values.length)) := by
  intro b i
  have hnot : ∀ j : ℕ, values[j]? ≠ some a := by
    intro j hj
    rw [(h a j).mpr hj] at hnew
    cases hnew
  by_cases hb : b = a
  · subst hb
    rw [Function.update_self, Option.some.injEq]
    constructor
    · rintro rfl
      exact List.getElem?_concat_length
    · intro hi
      rcases lt_trichotomy i values.length with hlt | heq | hgt
      · rw [List.getElem?_append_left hlt] at hi
        exact absurd hi (hnot i)
      · exact heq.symm
      · rw [List.getElem?_eq_none (by simp; omega)] at hi
        cases hi
  · rw [Function.update_of_ne hb, h b i]
    rcases lt_trichotomy i values.length with hlt | heq | hgt
    · rw [List.getElem?_append_left hlt]
    · rw [heq, List.getElem?_concat_length, List.getElem?_eq_none le_rfl, Option.some.injEq]
      exact ⟨fun hnone => (nomatch hnone), fun heq' => absurd heq'.symm hb⟩
    · rw [List.getElem?_eq_none (by omega), List.getElem?_eq_none (by simp; omega)]

end Interning

end LightTerminal.Library.Runs
