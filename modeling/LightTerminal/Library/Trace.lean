import Mathlib.Data.List.Chain
import Mathlib.Tactic

/-! # Traces

A trace is the list of the states a system went through, the oldest first, each one step from the
next (`List.IsChain`). What a step keeps holds later once it holds (`pairwise_of_step`), and what can
be said of a state and the states before it is proved along the trace (`chain_invariant`). -/

namespace LightTerminal.Library.Trace

variable {α : Type} {R : α → α → Prop}

/-- A trace grows at its end by a step from its last state. -/
theorem isChain_concat {trace : List α} {a b : α} (h : trace.IsChain R)
    (hlast : trace.getLast? = some a) (hstep : R a b) : (trace ++ [b]).IsChain R := by
  refine List.isChain_append.mpr ⟨h, List.isChain_singleton b, ?_⟩
  intro x hx y hy
  simp only [List.head?_cons, Option.mem_def, Option.some.injEq] at hy
  subst hy
  rw [hlast] at hx
  simp only [Option.mem_def, Option.some.injEq] at hx
  subst hx
  exact hstep

/-- A relation that every step is in, and that is transitive, holds between all states of a trace. -/
theorem pairwise_of_step {S : α → α → Prop} (htrans : ∀ a b c, S a b → S b c → S a c)
    (hstep : ∀ a b, R a b → S a b) {trace : List α} (h : trace.IsChain R) : trace.Pairwise S := by
  have : IsTrans α S := ⟨htrans⟩
  exact List.isChain_iff_pairwise.mp (h.imp hstep)

/-- What holds of the first state, and of the next state whenever it holds of the one before, holds of
every state of a trace, together with the states before it. -/
theorem chain_invariant {Inv : List α → α → Prop}
    (hstep : ∀ before a b, R a b → Inv before a → Inv (before ++ [a]) b) :
    ∀ (later : List α) (before : List α) (a : α), (a :: later).IsChain R → Inv before a →
      ∀ earlier r rest, a :: later = earlier ++ r :: rest → Inv (before ++ earlier) r := by
  intro later
  induction later with
  | nil =>
    intro before a _ hinv earlier r rest heq
    rcases earlier with _ | ⟨x, earlier⟩
    · simp only [List.nil_append, List.cons.injEq] at heq
      obtain ⟨rfl, -⟩ := heq
      simpa using hinv
    · simp at heq
  | cons b later ih =>
    intro before a hchain hinv earlier r rest heq
    obtain ⟨hab, hchain⟩ := List.isChain_cons_cons.mp hchain
    rcases earlier with _ | ⟨x, earlier⟩
    · simp only [List.nil_append, List.cons.injEq] at heq
      obtain ⟨rfl, -⟩ := heq
      simpa using hinv
    · simp only [List.cons_append, List.cons.injEq] at heq
      obtain ⟨rfl, heq⟩ := heq
      have hnext := ih (before ++ [a]) b hchain (hstep before a b hab hinv) earlier r rest heq
      simpa using hnext

end LightTerminal.Library.Trace
