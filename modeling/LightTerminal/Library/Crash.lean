import LightTerminal.Library.Procedure

/-! # Procedures that are cut off

A procedure of atomic steps, each of which is done completely or not at all, and that may be cut off
after any of them. The state has a budget of steps: the procedure is cut off after the step for which
nothing is left. What holds for every budget holds wherever the procedure is cut off.

* `Keeps I m s Q`: wherever `m` is cut off or ends, `I` holds, and if it returns, `Q`;
* `Finishes n m s Q`: `m` does not fail and takes at most `n` steps, after which `Q` holds;
* `Returns m s a s'`: with enough steps `m` returns `a` and leaves `s'`. -/

namespace LightTerminal.Library.Crash

open LightTerminal.Library.Procedure

variable {E S α β : Type}

/-- Why a procedure stops before its end. -/
inductive Stop (E : Type) where
  | failed (error : E)
  | cutOff
  deriving DecidableEq, Repr

/-- A state, with the number of steps after which the next one is the last. -/
structure Budgeted (S : Type) where
  state : S
  budget : ℕ

/-- A procedure that may be cut off. -/
abbrev CutProc (E S : Type) := Proc (Stop E) (Budgeted S)

/-- A result that stops the procedure if it is an error. -/
def check (x : Except E α) : CutProc E S α :=
  match x with
  | .ok a => pure a
  | .error e => throw (.failed e)

/-- The state, without the budget. -/
def current : CutProc E S S := do return (← get).state

/-- An atomic step. -/
def atomically (m : Proc E S α) : CutProc E S α := do
  let s ← get
  let (result, state) := exec m s.state
  set (⟨state, s.budget - 1⟩ : Budgeted S)
  if s.budget = 0 then throw .cutOff
  check result

/-- The result of a procedure with a budget, and the state it leaves. -/
def outcome (m : CutProc E S α) (s : S) (budget : ℕ) : Except (Stop E) α × Budgeted S :=
  exec m ⟨s, budget⟩

theorem outcome_bind (m : CutProc E S α) (f : α → CutProc E S β) (s : S) (budget : ℕ) :
    outcome (m >>= f) s budget =
      match outcome m s budget with
      | (.ok a, s') => outcome (f a) s'.state s'.budget
      | (.error e, s') => (.error e, s') := by
  unfold outcome
  rw [exec_bind]
  rcases exec m ⟨s, budget⟩ with ⟨_ | _, _⟩ <;> rfl

theorem outcome_atomically (m : Proc E S α) (s : S) (budget : ℕ) :
    outcome (atomically m) s budget =
      match budget, exec m s with
      | 0, (_, s') => (.error .cutOff, ⟨s', 0⟩)
      | budget + 1, (.ok a, s') => (.ok a, ⟨s', budget⟩)
      | budget + 1, (.error e, s') => (.error (.failed e), ⟨s', budget⟩) := by
  rcases budget with _ | budget
  · rcases h : exec m s with ⟨_ | _, s'⟩ <;>
      simp [outcome, atomically, exec_bind, h] <;> rfl
  · rcases h : exec m s with ⟨_ | _, s'⟩ <;>
      simp [outcome, atomically, exec_bind, h, check] <;> rfl

/-! ### What holds wherever a procedure is cut off -/

/-- Run in a state with `I`, the procedure leaves a state with `I` wherever it is cut off or fails, and
if it returns, then with `Q`. -/
def Keeps (I : S → Prop) (m : CutProc E S α) (s : S) (Q : α → S → Prop) : Prop :=
  ∀ budget, I (outcome m s budget).2.state ∧
    ∀ a, (outcome m s budget).1 = .ok a → Q a (outcome m s budget).2.state

section Keeps
variable {I : S → Prop} {m : CutProc E S α} {f : α → CutProc E S β} {s : S}
  {P Q : α → S → Prop} {Q' : β → S → Prop}

theorem Keeps.pure {a : α} (hI : I s) (h : Q a s) : Keeps I (Pure.pure a : CutProc E S α) s Q := by
  intro budget
  refine ⟨hI, fun b hb => ?_⟩
  simp only [outcome, exec_pure, Except.ok.injEq] at hb
  rw [← hb]
  exact h

theorem Keeps.throw (e : Stop E) (hI : I s) :
    Keeps I (MonadExcept.throw e : CutProc E S α) s Q := by
  intro budget
  refine ⟨hI, fun b hb => ?_⟩
  have hb' : (Except.error e : Except (Stop E) α) = .ok b := hb
  simp at hb'

theorem Keeps.check {x : Except E α} (hI : I s) (h : ∀ a, x = .ok a → Q a s) :
    Keeps I (Crash.check x : CutProc E S α) s Q := by
  rcases x with e | a
  · exact Keeps.throw (.failed e) hI
  · exact Keeps.pure hI (h a rfl)

theorem Keeps.bind (h : Keeps I m s P) (h' : ∀ a s', I s' → P a s' → Keeps I (f a) s' Q') :
    Keeps I (m >>= f) s Q' := by
  intro budget
  obtain ⟨hI, hreturns⟩ := h budget
  rw [outcome_bind]
  rcases hm : outcome m s budget with ⟨e | a, s'⟩
  · rw [hm] at hI
    exact ⟨hI, fun b hb => by simp at hb⟩
  · rw [hm] at hI hreturns
    exact h' a s'.state hI (hreturns a rfl) s'.budget

theorem Keeps.imp (h : Keeps I m s P) (himp : ∀ a s', I s' → P a s' → Q a s') : Keeps I m s Q :=
  fun budget => ⟨(h budget).1, fun a ha => himp a _ (h budget).1 ((h budget).2 a ha)⟩

theorem Keeps.map {g : α → β} (h : Keeps I m s P) (h' : ∀ a s', I s' → P a s' → Q' (g a) s') :
    Keeps I (g <$> m) s Q' := by
  rw [map_eq_pure_bind]
  exact h.bind fun a s' hI hP => Keeps.pure hI (h' a s' hI hP)

theorem Keeps.atomically {m : Proc E S α} (hI : I (exec m s).2)
    (h : ∀ a, (exec m s).1 = .ok a → Q a (exec m s).2) : Keeps I (Crash.atomically m) s Q := by
  intro budget
  rw [outcome_atomically]
  rcases hm : exec m s with ⟨e | a, s'⟩ <;> rw [hm] at hI h <;> rcases budget with _ | budget
  · exact ⟨hI, fun b hb => by simp at hb⟩
  · exact ⟨hI, fun b hb => by simp at hb⟩
  · exact ⟨hI, fun b hb => by simp at hb⟩
  · refine ⟨hI, fun b hb => ?_⟩
    simp only [Except.ok.injEq] at hb
    rw [← hb]
    exact h a rfl

theorem Keeps.current {Q : S → S → Prop} (hI : I s) (h : Q s s) :
    Keeps I (Crash.current : CutProc E S S) s Q := by
  intro budget
  refine ⟨hI, fun b hb => ?_⟩
  have hb' : (Except.ok s : Except (Stop E) S) = .ok b := hb
  simp only [Except.ok.injEq] at hb'
  rw [← hb']
  exact h

end Keeps

/-! ### Procedures that finish -/

/-- Run in `s`, the procedure does not fail and takes at most `n` steps: with a budget of `n` or more it
returns, and `Q` holds. -/
def Finishes (n : ℕ) (m : CutProc E S α) (s : S) (Q : α → S → Prop) : Prop :=
  ∀ budget,
    match outcome m s budget with
    | (.ok a, s') => budget ≤ s'.budget + n ∧ Q a s'.state
    | (.error .cutOff, _) => budget < n
    | (.error (.failed _), _) => False

section Finishes
variable {n k : ℕ} {m : CutProc E S α} {f : α → CutProc E S β} {s : S}
  {P Q : α → S → Prop} {Q' : β → S → Prop}

theorem Finishes.pure {a : α} (h : Q a s) : Finishes 0 (Pure.pure a : CutProc E S α) s Q :=
  fun _ => ⟨le_rfl, h⟩

theorem Finishes.check {x : Except E α} {a : α} (hx : x = .ok a) (h : Q a s) :
    Finishes 0 (Crash.check x : CutProc E S α) s Q := by
  rw [hx]
  exact Finishes.pure h

theorem Finishes.current {Q : S → S → Prop} (h : Q s s) :
    Finishes 0 (Crash.current : CutProc E S S) s Q :=
  fun _ => ⟨le_rfl, h⟩

theorem Finishes.bind (h : Finishes n m s P) (h' : ∀ a s', P a s' → Finishes k (f a) s' Q') :
    Finishes (n + k) (m >>= f) s Q' := by
  intro budget
  have hm := h budget
  rw [outcome_bind]
  rcases houtcome : outcome m s budget with ⟨(e | _) | a, s'⟩
  · rw [houtcome] at hm
    exact hm
  · rw [houtcome] at hm
    show budget < n + k
    have hm' : budget < n := hm
    omega
  · rw [houtcome] at hm
    obtain ⟨hbudget, hP⟩ := hm
    have hf := h' a s'.state hP s'.budget
    simp only
    rcases hrest : outcome (f a) s'.state s'.budget with ⟨(e | _) | b, s''⟩
    · rw [hrest] at hf
      exact hf
    · rw [hrest] at hf
      show budget < n + k
      have hf' : s'.budget < k := hf
      omega
    · rw [hrest] at hf
      refine ⟨?_, hf.2⟩
      have hf' := hf.1
      omega

/-- A check that passes takes no step. -/
theorem Finishes.check_bind {x : Except E α} {a : α} (hx : x = .ok a) (h : Finishes n (f a) s Q') :
    Finishes n (Crash.check x >>= f) s Q' := by
  rw [hx]
  exact h

theorem Finishes.map {g : α → β} (h : Finishes n m s P) (h' : ∀ a s', P a s' → Q' (g a) s') :
    Finishes n (g <$> m) s Q' := by
  rw [map_eq_pure_bind]
  exact h.bind fun a s' hP => Finishes.pure (h' a s' hP)

theorem Finishes.imp (h : Finishes n m s P) (hle : n ≤ k) (himp : ∀ a s', P a s' → Q a s') :
    Finishes k m s Q := by
  intro budget
  have hm := h budget
  rcases houtcome : outcome m s budget with ⟨(e | _) | a, s'⟩ <;> rw [houtcome] at hm
  · exact hm
  · show budget < k
    have hm' : budget < n := hm
    omega
  · exact ⟨by have hm' := hm.1; omega, himp a _ hm.2⟩

theorem Finishes.atomically {m : Proc E S α} {a : α} {s' : S} (hm : exec m s = (.ok a, s'))
    (h : Q a s') : Finishes 1 (Crash.atomically m) s Q := by
  intro budget
  rw [outcome_atomically, hm]
  rcases budget with _ | budget
  · exact Nat.zero_lt_one
  · exact ⟨le_rfl, h⟩

/-- With enough of a budget, a procedure that finishes returns. -/
theorem Finishes.returns (h : Finishes n m s Q) {budget : ℕ} (hbudget : n ≤ budget) :
    ∃ a s', outcome m s budget = (.ok a, s') ∧ Q a s'.state := by
  have hm := h budget
  rcases houtcome : outcome m s budget with ⟨(e | _) | a, s'⟩ <;> rw [houtcome] at hm
  · exact hm.elim
  · have hm' : budget < n := hm
    omega
  · exact ⟨a, s', rfl, hm.2⟩

end Finishes

/-! ### Procedures that return -/

/-- Run in `s`, the procedure does not fail, and with enough of a budget it returns `a` and leaves
`s'`. -/
def Returns (m : CutProc E S α) (s : S) (a : α) (s' : S) : Prop :=
  ∃ n, Finishes n m s fun b t => b = a ∧ t = s'

section Returns
variable {m : CutProc E S α} {f : α → CutProc E S β} {s s' s'' : S} {a : α} {b : β}

theorem Returns.pure : Returns (Pure.pure a : CutProc E S α) s a s :=
  ⟨0, Finishes.pure ⟨rfl, rfl⟩⟩

theorem Returns.check {x : Except E α} (hx : x = .ok a) :
    Returns (Crash.check x : CutProc E S α) s a s :=
  ⟨0, Finishes.check hx ⟨rfl, rfl⟩⟩

theorem Returns.current : Returns (Crash.current : CutProc E S S) s s s :=
  ⟨0, Finishes.current ⟨rfl, rfl⟩⟩

theorem Returns.atomically {m : Proc E S α} (hm : exec m s = (.ok a, s')) :
    Returns (Crash.atomically m) s a s' :=
  ⟨1, Finishes.atomically hm ⟨rfl, rfl⟩⟩

theorem Returns.bind (h : Returns m s a s') (h' : Returns (f a) s' b s'') :
    Returns (m >>= f) s b s'' := by
  obtain ⟨n, hn⟩ := h
  obtain ⟨k, hk⟩ := h'
  refine ⟨n + k, hn.bind fun c t hct => ?_⟩
  rw [hct.1, hct.2]
  exact hk

/-- What a budget that is large enough leads to. -/
theorem Returns.outcome (h : Returns m s a s') :
    ∃ n, ∀ budget, n ≤ budget →
      (Crash.outcome m s budget).1 = .ok a ∧ (Crash.outcome m s budget).2.state = s' := by
  obtain ⟨n, hn⟩ := h
  refine ⟨n, fun budget hbudget => ?_⟩
  obtain ⟨b, t, houtcome, rfl, hstate⟩ := hn.returns hbudget
  rw [houtcome]
  exact ⟨rfl, hstate⟩

end Returns

end LightTerminal.Library.Crash
