import Mathlib.Order.Defs.Unbundled
import Mathlib.Tactic

/-! # Procedures

A procedure changes a state and may fail on the way. What it did before it failed stays done, so that
a statement about the state has to hold however the procedure ends.

* `require`, `expect`, `optional`: checks that fail with an error;
* `Does R m s Q`: run in the state `s`, the procedure `m` moves the state within the preorder `R`,
  and if it returns, its result and the state it leaves satisfy `Q`. There is a rule for each way to
  build a procedure. -/

namespace LightTerminal.Library.Procedure

variable {E S α β : Type}

/-! ### Checks -/

/-- A condition that has to hold. -/
def require (c : Prop) [Decidable c] (e : E) : Except E Unit := if c then .ok () else .error e

/-- A value that has to be there. -/
def expect (x : Option α) (e : E) : Except E α :=
  match x with
  | some a => .ok a
  | none => .error e

/-- A check of a value that may be missing. -/
def optional (check : α → Except E Unit) : Option α → Except E Unit
  | some a => check a
  | none => .ok ()

@[simp] theorem require_eq_ok {c : Prop} [Decidable c] {e : E} {u : Unit} :
    require c e = .ok u ↔ c := by
  unfold require
  split_ifs with h <;> simp [h]

@[simp] theorem expect_eq_ok {x : Option α} {e : E} {a : α} : expect x e = .ok a ↔ x = some a := by
  cases x <;> simp [expect]

@[simp] theorem optional_eq_ok {check : α → Except E Unit} {x : Option α} {u : Unit} :
    optional check x = .ok u ↔ ∀ a, x = some a → check a = .ok () := by
  cases x <;> simp [optional]

@[simp] theorem bind_eq_ok {x : Except E α} {f : α → Except E β} {b : β} :
    (x >>= f) = .ok b ↔ ∃ a, x = .ok a ∧ f a = .ok b := by
  cases x <;> simp [bind, Except.bind]

theorem map_eq_ok {x : Except E α} {f : α → β} {b : β} :
    (f <$> x) = .ok b ↔ ∃ a, x = .ok a ∧ f a = b := by
  cases x <;> simp [Functor.map, Except.map]

/-- The result of a check that passes is known. -/
@[simp] theorem exists_unit {p : Unit → Prop} : (∃ u, p u) ↔ p () :=
  ⟨fun ⟨_, h⟩ => h, fun h => ⟨(), h⟩⟩

@[simp] theorem pure_eq_ok {a b : α} : (pure a : Except E α) = .ok b ↔ a = b := by
  simp [pure, Except.pure]

/-- A check that does not pass fails. -/
theorem exists_error {x : Except E α} (h : ∀ a, x ≠ .ok a) : ∃ e, x = .error e := by
  cases x with
  | ok a => exact absurd rfl (h a)
  | error e => exact ⟨e, rfl⟩

/-! ### Procedures -/

/-- A procedure on the states `S`, with the errors `E`. -/
abbrev Proc (E S : Type) := ExceptT E (StateM S)

/-- The result of a procedure, and the state it leaves. -/
def exec (m : Proc E S α) (s : S) : Except E α × S := m.run.run s

@[simp] theorem exec_pure (a : α) (s : S) : exec (pure a : Proc E S α) s = (.ok a, s) := rfl

@[simp] theorem exec_lift (x : Except E α) (s : S) :
    exec (liftM x : Proc E S α) s = (x, s) := rfl

@[simp] theorem exec_get (s : S) : exec (get : Proc E S S) s = (.ok s, s) := rfl

theorem exec_bind (m : Proc E S α) (f : α → Proc E S β) (s : S) :
    exec (m >>= f) s =
      match exec m s with
      | (.ok a, s') => exec (f a) s'
      | (.error e, s') => (.error e, s') := by
  show (ExceptT.bindCont f) _ _ = _
  unfold exec ExceptT.run StateT.run
  rcases m s with ⟨_ | _, _⟩ <;> rfl

theorem exec_bind_ok {m : Proc E S α} {f : α → Proc E S β} {s s' : S} {a : α}
    (h : exec m s = (.ok a, s')) : exec (m >>= f) s = exec (f a) s' := by
  rw [exec_bind, h]

theorem exec_lift_bind {x : Except E α} {f : α → Proc E S β} {s : S} {a : α} (h : x = .ok a) :
    exec ((liftM x : Proc E S α) >>= f) s = exec (f a) s := by
  rw [h, exec_bind_ok (exec_lift _ _)]

/-- The state is left by the first part if the rest only reads it. -/
theorem exec_bind_reads {m : Proc E S α} {f : α → Proc E S β} {s : S}
    (h : ∀ a s', (exec (f a) s').2 = s') : (exec (m >>= f) s).2 = (exec m s).2 := by
  rw [exec_bind]
  rcases exec m s with ⟨e | a, s'⟩
  · rfl
  · exact h a s'

theorem exec_map (f : α → β) (m : Proc E S α) (s : S) :
    exec (f <$> m) s = ((exec m s).1.map f, (exec m s).2) := by
  show (f <$> m : Proc E S β) s = _
  unfold exec ExceptT.run StateT.run
  simp only [Functor.map, ExceptT.map, ExceptT.mk, bind, StateT.bind]
  rcases m s with ⟨_ | _, _⟩ <;> rfl

theorem exec_discard (m : Proc E S α) (s : S) :
    (exec (Functor.discard m) s).2 = (exec m s).2 := by
  show (exec (_ <$> m) s).2 = _
  rw [exec_map]

theorem exec_tryCatch (m : Proc E S α) (handle : E → Proc E S α) (s : S) :
    exec (tryCatch m handle) s =
      match exec m s with
      | (.ok a, s') => (.ok a, s')
      | (.error e, s') => exec (handle e) s' := by
  show (tryCatch m handle : Proc E S α) s = _
  unfold exec ExceptT.run StateT.run
  simp only [tryCatch, tryCatchThe, MonadExceptOf.tryCatch, ExceptT.tryCatch, ExceptT.mk, bind,
    StateT.bind]
  rcases m s with ⟨_ | _, _⟩ <;> rfl

/-- A procedure on a part of a larger state. -/
def zoom {F T : Type} (view : T → S) (update : S → T → T) (f : E → F) (m : Proc E S α) :
    Proc F T α := do
  let t ← get
  let (result, s) := exec m (view t)
  set (update s t)
  match result with
  | .ok a => return a
  | .error e => throw (f e)

theorem exec_zoom {F T : Type} {view : T → S} {update : S → T → T} {f : E → F} (m : Proc E S α)
    (t : T) :
    exec (zoom view update f m) t = ((exec m (view t)).1.mapError f, update (exec m (view t)).2 t) := by
  unfold zoom
  rw [exec_bind_ok (exec_get t)]
  rcases exec m (view t) with ⟨_ | _, _⟩ <;> rfl

/-- A step that is only taken under a condition. -/
def whenever (c : Prop) [Decidable c] (m : Proc E S Unit) : Proc E S Unit := if c then m else pure ()

/-- What a procedure does, run in `s`. -/
structure Does (R : S → S → Prop) (m : Proc E S α) (s : S) (Q : α → S → Prop) : Prop where
  moves : R s (exec m s).2
  returns : ∀ a, (exec m s).1 = .ok a → Q a (exec m s).2

theorem Does.imp {R : S → S → Prop} {m : Proc E S α} {s : S} {P Q : α → S → Prop}
    (h : Does R m s P) (himp : ∀ a s', R s s' → P a s' → Q a s') : Does R m s Q :=
  ⟨h.moves, fun a ha => himp a _ h.moves (h.returns a ha)⟩

theorem Does.mono {R R' : S → S → Prop} {m : Proc E S α} {s : S} {Q : α → S → Prop} (h : Does R m s Q)
    (hR : ∀ s', R s s' → R' s s') : Does R' m s Q :=
  ⟨hR _ h.moves, h.returns⟩

/-- Within a wider preorder, the narrower one is a result. -/
theorem Does.widen {R R' : S → S → Prop} {m : Proc E S α} {s : S} {Q : α → S → Prop} (h : Does R m s Q)
    (hR : ∀ s', R s s' → R' s s') : Does R' m s fun a s' => R s s' ∧ Q a s' :=
  ⟨hR _ h.moves, fun a ha => ⟨h.moves, h.returns a ha⟩⟩

/-- A procedure that was seen to return. -/
theorem Does.returned {R : S → S → Prop} {m : Proc E S α} {s s' : S} {a : α} {Q : α → S → Prop}
    (h : Does R m s Q) (hexec : exec m s = (.ok a, s')) : R s s' ∧ Q a s' := by
  obtain ⟨hmoves, hreturns⟩ := h
  rw [hexec] at hmoves hreturns
  exact ⟨hmoves, hreturns a rfl⟩

theorem Does.map {R : S → S → Prop} {m : Proc E S α} {s : S} {g : α → β} {Q : β → S → Prop}
    (h : Does R m s fun a s' => Q (g a) s') : Does R (g <$> m) s Q := by
  have hexec := exec_map g m s
  refine ⟨by rw [hexec]; exact h.moves, fun b hb => ?_⟩
  rw [hexec] at hb ⊢
  cases hm : (exec m s).1 with
  | error e =>
    rw [hm] at hb
    cases hb
  | ok a =>
    rw [hm] at hb
    cases hb
    exact h.returns a hm

theorem Does.discard {R : S → S → Prop} {m : Proc E S α} {s : S} {Q : α → S → Prop}
    (h : Does R m s Q) : Does R (Functor.discard m) s fun _ _ => True :=
  Does.map (h.imp fun _ _ _ _ => trivial)

/-- The rest of a procedure that reads the state. -/
theorem Does.get_bind {R : S → S → Prop} {f : S → Proc E S β} {s : S} {Q : β → S → Prop}
    (h : Does R (f s) s Q) : Does R (MonadState.get >>= f) s Q := by
  have hexec : exec (MonadState.get >>= f) s = exec (f s) s := exec_bind_ok (exec_get s)
  exact ⟨by rw [hexec]; exact h.moves, fun a ha => by rw [hexec] at ha ⊢; exact h.returns a ha⟩

theorem Does.modify {R : S → S → Prop} {g : S → S} {s : S} {Q : PUnit → S → Prop} (hR : R s (g s))
    (h : Q ⟨⟩ (g s)) : Does R (modify g : Proc E S PUnit) s Q :=
  ⟨hR, fun _ _ => h⟩

section Rules
variable {R : S → S → Prop} [IsPreorder S R] {m : Proc E S α} {f : α → Proc E S β} {s : S}
  {P Q : α → S → Prop} {Q' : β → S → Prop}

theorem Does.pure {a : α} (h : Q a s) : Does R (Pure.pure a : Proc E S α) s Q :=
  ⟨refl s, fun b hb => by cases hb; exact h⟩

theorem Does.throw (e : E) : Does R (MonadExcept.throw e : Proc E S α) s Q :=
  ⟨refl s, fun b hb => by cases hb⟩

theorem Does.lift {x : Except E α} (h : ∀ a, x = .ok a → Q a s) :
    Does R (liftM x : Proc E S α) s Q :=
  ⟨refl s, h⟩

theorem Does.get {Q : S → S → Prop} (h : Q s s) : Does R (MonadState.get : Proc E S S) s Q :=
  ⟨refl s, fun b hb => by cases hb; exact h⟩

theorem Does.bind (h : Does R m s P) (h' : ∀ a s', R s s' → P a s' → Does R (f a) s' Q') :
    Does R (m >>= f) s Q' := by
  obtain ⟨hmoves, hreturns⟩ := h
  have hexec := exec_bind m f s
  rcases hm : exec m s with ⟨e | a, s'⟩
  · rw [hm] at hexec hmoves
    refine ⟨by rw [hexec]; exact hmoves, fun b hb => ?_⟩
    rw [hexec] at hb
    cases hb
  · rw [hm] at hexec hmoves hreturns
    have hnext := h' a s' hmoves (hreturns a rfl)
    refine ⟨by rw [hexec]; exact IsTrans.trans _ _ _ hmoves hnext.moves, fun b hb => ?_⟩
    rw [hexec] at hb ⊢
    exact hnext.returns b hb

theorem Does.whenever {c : Prop} [Decidable c] {m : Proc E S Unit} {Q : Unit → S → Prop}
    (h : c → Does R m s Q) (hnot : ¬ c → Q () s) : Does R (whenever c m) s Q := by
  unfold Procedure.whenever
  by_cases hc : c
  · rw [if_pos hc]
    exact h hc
  · rw [if_neg hc]
    exact Does.pure (hnot hc)

/-- What follows a part moves on from where it ended. -/
theorem bind_moves (h : ∀ a s', R s' (exec (f a) s').2) : R (exec m s).2 (exec (m >>= f) s).2 := by
  rw [exec_bind]
  rcases exec m s with ⟨e | a, s'⟩
  · exact refl s'
  · exact h a s'

/-- The handling of an error moves on from where the error came up. -/
theorem tryCatch_moves {handle : E → Proc E S α} (h : ∀ e s', R s' (exec (handle e) s').2) :
    R (exec m s).2 (exec (MonadExcept.tryCatch m handle) s).2 := by
  rw [exec_tryCatch]
  rcases exec m s with ⟨e | a, s'⟩
  · exact h e s'
  · exact refl s'

/-- A check on the way. -/
theorem Does.lift_bind {x : Except E α} (h : ∀ a, x = .ok a → Does R (f a) s Q') :
    Does R ((liftM x : Proc E S α) >>= f) s Q' := by
  cases x with
  | ok a => exact h a rfl
  | error e => exact Does.throw e

theorem Does.tryCatch {handle : E → Proc E S α} (h : Does R m s Q)
    (hhandle : ∀ e s', R s s' → Does R (handle e) s' Q) :
    Does R (MonadExcept.tryCatch m handle) s Q := by
  obtain ⟨hmoves, hreturns⟩ := h
  have hexec := exec_tryCatch m handle s
  rcases hm : exec m s with ⟨e | a, s'⟩
  · rw [hm] at hexec hmoves
    have hnext := hhandle e s' hmoves
    refine ⟨by rw [hexec]; exact IsTrans.trans _ _ _ hmoves hnext.moves, fun b hb => ?_⟩
    rw [hexec] at hb ⊢
    exact hnext.returns b hb
  · rw [hm] at hexec hmoves hreturns
    refine ⟨by rw [hexec]; exact hmoves, fun b hb => ?_⟩
    rw [hexec] at hb ⊢
    exact hreturns b hb

end Rules

end LightTerminal.Library.Procedure
