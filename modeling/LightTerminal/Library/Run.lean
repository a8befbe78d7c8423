import Mathlib.Logic.Relation
import Mathlib.Tactic

/-! # Runs of a state machine

A machine is its step function; a run performs a list of actions one after the other. An invariant
of the steps is one of the runs, and a preorder every step stays in is one of the runs too. -/

namespace LightTerminal.Library.Run

variable {S A : Type}

/-- The state after a list of actions. -/
def run (step : S → A → S) (s : S) (actions : List A) : S := actions.foldl step s

@[simp] theorem run_nil (step : S → A → S) (s : S) : run step s [] = s := rfl

@[simp] theorem run_cons (step : S → A → S) (s : S) (a : A) (actions : List A) :
    run step s (a :: actions) = run step (step s a) actions := rfl

theorem run_append (step : S → A → S) (s : S) (actions actions' : List A) :
    run step s (actions ++ actions') = run step (run step s actions) actions' :=
  List.foldl_append

/-- What every step keeps, a run keeps. -/
theorem run_invariant {step : S → A → S} {Inv : S → Prop}
    (hstep : ∀ s a, Inv s → Inv (step s a)) :
    ∀ (actions : List A) (s : S), Inv s → Inv (run step s actions)
  | [], _, h => h
  | a :: actions, s, h => run_invariant hstep actions (step s a) (hstep s a h)

/-- A preorder that every step respects holds between the ends of a run. -/
theorem run_related {step : S → A → S} {R : S → S → Prop} (hrefl : ∀ s, R s s)
    (htrans : ∀ a b c, R a b → R b c → R a c) (hstep : ∀ s a, R s (step s a)) :
    ∀ (actions : List A) (s : S), R s (run step s actions)
  | [], s => hrefl s
  | a :: actions, s =>
    htrans _ _ _ (hstep s a) (run_related hrefl htrans hstep actions (step s a))

/-- Each action of a run meets a condition on it and on the state that it is performed in. -/
def Along (step : S → A → S) (P : S → A → Prop) : S → List A → Prop
  | _, [] => True
  | s, a :: actions => P s a ∧ Along step P (step s a) actions

instance Along.decidable {step : S → A → S} {P : S → A → Prop} [∀ s a, Decidable (P s a)] :
    ∀ (s : S) (actions : List A), Decidable (Along step P s actions)
  | _, [] => inferInstanceAs (Decidable True)
  | s, a :: actions =>
    have : Decidable (Along step P (step s a) actions) := Along.decidable (step s a) actions
    inferInstanceAs (Decidable (P s a ∧ Along step P (step s a) actions))

theorem Along.append_left {step : S → A → S} {P : S → A → Prop} {s : S} {actions actions' : List A}
    (h : Along step P s (actions ++ actions')) : Along step P s actions := by
  induction actions generalizing s with
  | nil => trivial
  | cons a actions ih => exact ⟨h.1, ih h.2⟩

theorem Along.append_right {step : S → A → S} {P : S → A → Prop} {s : S} {actions actions' : List A}
    (h : Along step P s (actions ++ actions')) : Along step P (run step s actions) actions' := by
  induction actions generalizing s with
  | nil => exact h
  | cons a actions ih => exact ih h.2

theorem Along.and {step : S → A → S} {P Q : S → A → Prop} {s : S} {actions : List A}
    (h : Along step P s actions) (h' : Along step Q s actions) :
    Along step (fun s a => P s a ∧ Q s a) s actions := by
  induction actions generalizing s with
  | nil => trivial
  | cons a actions ih => exact ⟨⟨h.1, h'.1⟩, ih h.2 h'.2⟩

/-- What every step that meets the condition keeps, a run keeps if all its steps do. -/
theorem Along.invariant {step : S → A → S} {P : S → A → Prop} {Inv : S → Prop}
    (hstep : ∀ s a, P s a → Inv s → Inv (step s a)) {s : S} {actions : List A}
    (h : Along step P s actions) (hinv : Inv s) : Inv (run step s actions) := by
  induction actions generalizing s with
  | nil => exact hinv
  | cons a actions ih => exact ih h.2 (hstep s a h.1 hinv)

end LightTerminal.Library.Run
