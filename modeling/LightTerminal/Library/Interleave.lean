import LightTerminal.Library.Run

/-! # Interleaved programs

A program is a sequence of atomic actions on a shared state. An action may be enabled only in some
states, it gets an input from outside, and what the program does next depends on the input and the
state. A pool runs any number of programs: they start at any time, their actions interleave in any
order, and a program may crash between any two of them.

Programs are verified one by one. `Discipline.Rely i` is what thread `i` lets the others do, so that
every action of a thread is in the rely of all others, and `Inv` is kept by all.

* `Triple`: started with `P`, a program keeps to the discipline, and ends with `Q`. There is a rule
  for each way to build a program.
* `Safe.within`: a program on a part of a larger state, whose discipline asks for more.
* `run_inv`: if every program that is started has a triple, the invariant holds in every run. -/

namespace LightTerminal.Library.Interleave

variable {S I E α β : Type}

/-- A program over the states `S` that gets inputs `I`. -/
inductive Prog (S I α : Type) where
  | ret (a : α)
  | act (enabled : S → Bool) (next : I → S → S) (rest : I → S → Prog S I α)

namespace Prog

/-- One program after another. -/
def bind : Prog S I α → (α → Prog S I β) → Prog S I β
  | .ret a, f => f a
  | .act enabled next rest, f => .act enabled next fun input s => (rest input s).bind f

instance : Monad (Prog S I) where
  pure := .ret
  bind := .bind

/-- An action that waits until it is enabled, and then is done at once. -/
def await (enabled : S → Bool) (f : I → S → α × S) : Prog S I α :=
  .act enabled (fun input s => (f input s).2) fun input s => .ret (f input s).1

/-- An action that is always enabled. -/
def atomically (f : I → S → α × S) : Prog S I α := .await (fun _ => true) f

end Prog

/-! ### Pools -/

/-- Programs on a common state. A program that crashed is gone. -/
structure Pool (S I α : Type) where
  state : S
  threads : List (Option (Prog S I α))

/-- What happens to a pool. `J` are the jobs that threads are started for. -/
inductive Event (J I : Type) where
  | start (job : J)
  | advance (thread : ℕ) (input : I)
  | crash (thread : ℕ)

variable {J : Type}

/-- An event. A thread that has ended, is gone or is not enabled does not advance. -/
def step (program : ℕ → J → Prog S I α) (pool : Pool S I α) : Event J I → Pool S I α
  | .start job =>
    { pool with threads := pool.threads ++ [some (program pool.threads.length job)] }
  | .advance thread input =>
    match pool.threads[thread]? with
    | some (some (.act enabled next rest)) =>
      if enabled pool.state then
        { state := next input pool.state
          threads := pool.threads.set thread (some (rest input pool.state)) }
      else pool
    | _ => pool
  | .crash thread => { pool with threads := pool.threads.set thread none }

/-- A pool without threads. -/
def Pool.initial (s : S) : Pool S I α := { state := s, threads := [] }

/-- The pool after a list of events. -/
def run (program : ℕ → J → Prog S I α) (s : S) (events : List (Event J I)) : Pool S I α :=
  Run.run (step program) (.initial s) events

/-! ### Programs that keep to a discipline -/

/-- What all threads keep, and what a thread relies on: a preorder for each thread. -/
structure Discipline (S : Type) where
  Inv : S → Prop
  Rely : ℕ → S → S → Prop
  refl : ∀ i s, Rely i s s
  trans : ∀ i a b c, Rely i a b → Rely i b c → Rely i a c

variable {D : Discipline S} {i : ℕ} {s s' : S}

/-- From `s` on, whatever the others do, thread `i` keeps the invariant and does what the others
allow, and ends with `Q`. -/
def Safe (D : Discipline S) (i : ℕ) (Q : α → S → Prop) : Prog S I α → S → Prop
  | .ret a, s => ∀ s', D.Rely i s s' → D.Inv s' → Q a s'
  | .act enabled next rest, s => ∀ s', D.Rely i s s' → D.Inv s' → enabled s' = true → ∀ input,
      D.Inv (next input s') ∧ (∀ j, j ≠ i → D.Rely j s' (next input s')) ∧
        Safe D i Q (rest input s') (next input s')

theorem Safe.rely {Q : α → S → Prop} {p : Prog S I α} (h : Safe D i Q p s)
    (hrely : D.Rely i s s') : Safe D i Q p s' := by
  cases p with
  | ret a => exact fun s'' h' => h s'' (D.trans i _ _ _ hrely h')
  | act enabled next rest => exact fun s'' h' => h s'' (D.trans i _ _ _ hrely h')

theorem Safe.bind {Q : α → S → Prop} {Q' : β → S → Prop} {f : α → Prog S I β}
    (hf : ∀ a s, D.Inv s → Q a s → Safe D i Q' (f a) s) :
    ∀ (p : Prog S I α) (s : S), D.Inv s → Safe D i Q p s → Safe D i Q' (p.bind f) s
  | .ret a, s, hinv, h => hf a s hinv (h s (D.refl i s) hinv)
  | .act enabled next rest, s, hinv, h => fun s' hrely hinv' henabled input => by
    obtain ⟨hnext, hothers, hrest⟩ := h s' hrely hinv' henabled input
    exact ⟨hnext, hothers, Safe.bind hf (rest input s') _ hnext hrest⟩

/-- What follows from the invariant holds at the end. -/
theorem Safe.strengthen {Q Q' : α → S → Prop} (hq : ∀ a s, D.Inv s → Q a s → Q' a s) :
    ∀ (p : Prog S I α) (s : S), Safe D i Q p s → Safe D i Q' p s
  | .ret a, _, h => fun s' hrely hinv => hq a s' hinv (h s' hrely hinv)
  | .act _ _ rest, _, h => fun s' hrely hinv henabled input => by
    obtain ⟨hnext, hothers, hrest⟩ := h s' hrely hinv henabled input
    exact ⟨hnext, hothers, Safe.strengthen hq (rest input s') _ hrest⟩

/-- What the others cannot make false. -/
def Stable (D : Discipline S) (i : ℕ) (P : S → Prop) : Prop :=
  ∀ s s', P s → D.Rely i s s' → P s'

theorem Stable.and {P P' : S → Prop} (h : Stable D i P) (h' : Stable D i P') :
    Stable D i fun s => P s ∧ P' s :=
  fun s s' hp hrely => ⟨h s s' hp.1 hrely, h' s s' hp.2 hrely⟩

/-- Started with `P`, the program keeps to the discipline, and ends with `Q`. -/
def Triple (D : Discipline S) (i : ℕ) (P : S → Prop) (p : Prog S I α) (Q : α → S → Prop) : Prop :=
  ∀ s, D.Inv s → P s → Safe D i Q p s

section Rules

variable {P P' : S → Prop} {Q : α → S → Prop}

theorem triple_ret {a : α} (hstable : Stable D i (Q a)) (h : ∀ s, D.Inv s → P s → Q a s) :
    Triple D i P (pure a : Prog S I α) Q :=
  fun s hinv hp s' hrely _ => hstable s s' (h s hinv hp) hrely

theorem triple_bind {R : β → S → Prop} {p : Prog S I β} {f : β → Prog S I α}
    (hp : Triple D i P p R) (hf : ∀ b, Triple D i (R b) (f b) Q) : Triple D i P (p >>= f) Q :=
  fun s hinv h => Safe.bind (fun b s' hinv' hb => hf b s' hinv' hb) p s hinv (hp s hinv h)

theorem Triple.weaken {p : Prog S I α} (h : Triple D i P p Q) (hpre : ∀ s, P' s → P s) :
    Triple D i P' p Q :=
  fun s hinv hp => h s hinv (hpre s hp)

theorem Triple.strengthen {Q' : α → S → Prop} {p : Prog S I α} (h : Triple D i P p Q)
    (hq : ∀ a s, D.Inv s → Q a s → Q' a s) : Triple D i P p Q' :=
  fun s hinv hp => Safe.strengthen hq p s (h s hinv hp)

theorem Triple.mono {Q' : α → S → Prop} {p : Prog S I α} (h : Triple D i P p Q)
    (hq : ∀ a s, Q a s → Q' a s) : Triple D i P p Q' :=
  h.strengthen fun a s _ => hq a s

/-- What is known of the start of a program without the state. -/
theorem triple_pure {c : Prop} {p : Prog S I α} (h : c → Triple D i P p Q) :
    Triple D i (fun s => c ∧ P s) p Q :=
  fun s hinv hs => h hs.1 s hinv hs.2

theorem triple_exists {γ : Type} {P : γ → S → Prop} {p : Prog S I α}
    (h : ∀ c, Triple D i (P c) p Q) : Triple D i (fun s => ∃ c, P c s) p Q :=
  fun s hinv ⟨c, hs⟩ => h c s hinv hs

theorem stable_exists {γ : Type} {P : γ → S → Prop} (h : ∀ c, Stable D i (P c)) :
    Stable D i fun s => ∃ c, P c s :=
  fun s s' ⟨c, hs⟩ hrely => ⟨c, h c s s' hs hrely⟩

theorem stable_pure {c : Prop} (h : Stable D i P) : Stable D i fun s => c ∧ P s :=
  fun s s' hs hrely => ⟨hs.1, h s s' hs.2 hrely⟩

theorem triple_await {enabled : S → Bool} {f : I → S → α × S} (hp : Stable D i P)
    (hq : ∀ a, Stable D i (Q a))
    (h : ∀ s input, D.Inv s → P s → enabled s = true → D.Inv (f input s).2 ∧
      (∀ j, j ≠ i → D.Rely j s (f input s).2) ∧ Q (f input s).1 (f input s).2) :
    Triple D i P (.await enabled f) Q := by
  intro s _ hs s' hrely hinv henabled input
  obtain ⟨hnext, hothers, hpost⟩ := h s' input hinv (hp s s' hs hrely) henabled
  exact ⟨hnext, hothers, fun s'' hrely' _ => hq _ _ _ hpost hrely'⟩

theorem triple_atomically {f : I → S → α × S} (hp : Stable D i P) (hq : ∀ a, Stable D i (Q a))
    (h : ∀ s input, D.Inv s → P s → D.Inv (f input s).2 ∧
      (∀ j, j ≠ i → D.Rely j s (f input s).2) ∧ Q (f input s).1 (f input s).2) :
    Triple D i P (.atomically f) Q :=
  triple_await hp hq fun s input hinv hs _ => h s input hinv hs

end Rules

/-! ### Programs that may fail -/

/-- A program that may fail. -/
abbrev Fallible (E S I : Type) := ExceptT E (Prog S I)

/-- The result of a program, whether it fails or not. -/
def attempt (p : Fallible E S I α) : Fallible E S I (Except E α) := ExceptT.mk do
  let result ← p.run
  return .ok result

/-- Started with `P`, the program keeps to the discipline, and ends with `Q` if it does not fail. -/
def FallibleTriple (D : Discipline S) (i : ℕ) (P : S → Prop) (p : Fallible E S I α)
    (Q : α → S → Prop) : Prop :=
  Triple D i P p.run fun result s => ∀ a, result = .ok a → Q a s

section FallibleRules

variable {P P' : S → Prop} {Q : α → S → Prop}

theorem stable_result (hq : ∀ a, Stable D i (Q a)) (result : Except E α) :
    Stable D i fun s => ∀ a, result = .ok a → Q a s :=
  fun s s' h hrely a ha => hq a s s' (h a ha) hrely

theorem FallibleTriple.weaken {p : Fallible E S I α} (h : FallibleTriple D i P p Q)
    (hpre : ∀ s, P' s → P s) : FallibleTriple D i P' p Q :=
  Triple.weaken h hpre

theorem fallible_pure {a : α} (hstable : Stable D i (Q a)) (h : ∀ s, D.Inv s → P s → Q a s) :
    FallibleTriple D i P (pure a : Fallible E S I α) Q := by
  refine triple_ret (fun s s' hs hrely b hb => ?_) fun s hinv hp b hb => ?_
  · cases hb
    exact hstable s s' (hs a rfl) hrely
  · cases hb
    exact h s hinv hp

theorem fallible_throw {e : E} : FallibleTriple D i P (throw e : Fallible E S I α) Q :=
  fun _ _ _ _ _ _ _ ha => nomatch ha

theorem fallible_bind {R : β → S → Prop} {p : Fallible E S I β} {f : β → Fallible E S I α}
    (hp : FallibleTriple D i P p R) (hf : ∀ b, FallibleTriple D i (R b) (f b) Q) :
    FallibleTriple D i P (p >>= f) Q := by
  refine triple_bind hp fun result => ?_
  cases result with
  | ok b => exact (hf b).weaken fun s hs => hs b rfl
  | error e => exact fallible_throw

/-- A check, or any result that is known, before the rest. -/
theorem fallible_known {x : Except E β} {f : β → Fallible E S I α}
    (h : ∀ b, x = .ok b → FallibleTriple D i P (f b) Q) :
    FallibleTriple D i P ((liftM x : Fallible E S I β) >>= f) Q := by
  cases x with
  | ok b => exact h b rfl
  | error e => exact fallible_throw

theorem fallible_attempt {p : Fallible E S I α} {R : Except E α → S → Prop}
    (hstable : ∀ result, Stable D i (R result)) (h : Triple D i P p.run R) :
    FallibleTriple D i P (attempt p) R := by
  refine triple_bind h fun result => triple_ret (stable_result hstable _) ?_
  intro s _ hs a ha
  cases ha
  exact hs

/-- A program keeps `P`, whether it fails or not. -/
def Preserves (D : Discipline S) (i : ℕ) (P : S → Prop) (p : Fallible E S I α) : Prop :=
  Triple D i P p.run fun _ => P

theorem Preserves.triple {p : Fallible E S I α} (h : Preserves D i P p) :
    FallibleTriple D i P p fun _ => P :=
  Triple.mono h fun _ _ hs _ _ => hs

theorem preserves_lift {x : Except E α} (hp : Stable D i P) :
    Preserves D i P (liftM x : Fallible E S I α) :=
  triple_ret hp fun _ _ hs => hs

theorem preserves_bind {p : Fallible E S I β} {f : β → Fallible E S I α} (hstable : Stable D i P)
    (hp : Preserves D i P p) (hf : ∀ b, Preserves D i P (f b)) : Preserves D i P (p >>= f) := by
  refine triple_bind hp fun result => ?_
  cases result with
  | ok b => exact hf b
  | error e => exact triple_ret hstable fun _ _ hs => hs

end FallibleRules

/-! ### Programs on a part of the state -/

section Within

variable {T : Type}

/-- Every action of the program is a step of `R`. -/
def Prog.Steps (R : S → S → Prop) : Prog S I α → Prop
  | .ret _ => True
  | .act enabled next rest => ∀ input s, enabled s = true →
      R s (next input s) ∧ (rest input s).Steps R

theorem steps_bind {R : S → S → Prop} {f : α → Prog S I β} (hf : ∀ a, (f a).Steps R) :
    ∀ p : Prog S I α, p.Steps R → (p >>= f).Steps R
  | .ret a, _ => hf a
  | .act _ _ rest, h => fun input s henabled =>
    ⟨(h input s henabled).1, steps_bind hf (rest input s) (h input s henabled).2⟩

theorem steps_await {R : S → S → Prop} {enabled : S → Bool} {f : I → S → α × S}
    (h : ∀ input s, enabled s = true → R s (f input s).2) :
    (Prog.await enabled f : Prog S I α).Steps R :=
  fun input s henabled => ⟨h input s henabled, trivial⟩

theorem steps_atomically {R : S → S → Prop} {f : I → S → α × S}
    (h : ∀ input s, R s (f input s).2) : (Prog.atomically f : Prog S I α).Steps R :=
  steps_await fun input s _ => h input s

variable (view : T → S) (update : S → T → T)

/-- A program on a part of a larger state. -/
def Prog.within : Prog S I α → Prog T I α
  | .ret a => .ret a
  | .act enabled next rest =>
    .act (fun t => enabled (view t)) (fun input t => update (next input (view t)) t)
      fun input t => (rest input (view t)).within

variable {view update} {D' : Discipline T} {Q : α → S → Prop}

/-- A program keeps to the discipline of the whole as it does to that of its part, if its steps do. What
its steps and the others keep of the rest of the state is kept. -/
theorem Safe.within {R : S → S → Prop} {F : T → Prop} (hview : ∀ s t, view (update s t) = s)
    (hinv : ∀ t, D'.Inv t → D.Inv (view t))
    (hrely : ∀ t t', D'.Rely i t t' → D.Rely i (view t) (view t')) (hF : Stable D' i F)
    (hstep : ∀ t s, D'.Inv t → F t → R (view t) s → D.Inv s →
      (∀ j, j ≠ i → D.Rely j (view t) s) →
        D'.Inv (update s t) ∧ (∀ j, j ≠ i → D'.Rely j t (update s t)) ∧ F (update s t)) :
    ∀ (p : Prog S I α) (t : T), p.Steps R → F t → Safe D i Q p (view t) →
      Safe D' i (fun a t => Q a (view t) ∧ F t) (p.within view update) t
  | .ret a, t, _, hf, h => fun t' hrely' hinv' =>
    ⟨h (view t') (hrely t t' hrely') (hinv t' hinv'), hF t t' hf hrely'⟩
  | .act enabled next rest, t, hsteps, hf, h => fun t' hrely' hinv' henabled input => by
    obtain ⟨hnext, hothers, hrest⟩ :=
      h (view t') (hrely t t' hrely') (hinv t' hinv') henabled input
    obtain ⟨hR, hsteps'⟩ := hsteps input (view t') henabled
    obtain ⟨hnext', hothers', hf'⟩ :=
      hstep t' _ hinv' (hF t t' hf hrely') hR hnext hothers
    refine ⟨hnext', hothers', ?_⟩
    refine Safe.within hview hinv hrely hF hstep (rest input (view t')) _ hsteps' hf' ?_
    rw [hview]
    exact hrest

end Within

/-! ### Runs -/

variable {program : ℕ → J → Prog S I α} {Q : ℕ → α → S → Prop}

/-- What holds of a pool: the invariant, every thread keeps to the discipline, and the threads that
are not there yet have done nothing. -/
structure Pool.Good (D : Discipline S) (Idle : ℕ → S → Prop) (Q : ℕ → α → S → Prop)
    (pool : Pool S I α) : Prop where
  inv : D.Inv pool.state
  safe : ∀ i p, pool.threads[i]? = some (some p) → Safe D i (Q i) p pool.state
  idle : ∀ i, pool.threads.length ≤ i → Idle i pool.state

theorem Pool.Good.step {Idle : ℕ → S → Prop} (hidle : ∀ i, Stable D i (Idle i))
    (hstart : ∀ i job, Triple D i (Idle i) (program i job) (Q i)) {pool : Pool S I α}
    (h : pool.Good D Idle Q) (event : Event J I) :
    (Interleave.step program pool event).Good D Idle Q := by
  cases event with
  | start job =>
    refine ⟨h.inv, fun i p hp => ?_, fun i hi => ?_⟩
    · have hlength : i ≤ pool.threads.length := by
        have hlt := (List.getElem?_eq_some_iff.mp hp).1
        simp only [Interleave.step, List.length_append, List.length_singleton] at hlt
        omega
      rcases hlength.lt_or_eq with hlt | heq
      · simp only [Interleave.step, List.getElem?_append_left hlt] at hp
        exact h.safe i p hp
      · subst heq
        simp only [Interleave.step, List.getElem?_concat_length, Option.some.injEq] at hp
        subst hp
        exact hstart _ job _ h.inv (h.idle _ le_rfl)
    · simp only [Interleave.step, List.length_append, List.length_singleton] at hi
      exact h.idle i (by omega)
  | advance thread input =>
    simp only [Interleave.step]
    split
    · next enabled next rest hthread =>
      split_ifs with henabled
      · obtain ⟨hnext, hothers, hrest⟩ :=
          h.safe thread _ hthread _ (D.refl _ _) h.inv henabled input
        refine ⟨hnext, fun i p hp => ?_, fun i hi => ?_⟩
        · by_cases hi : i = thread
          · subst hi
            have hlt := (List.getElem?_eq_some_iff.mp hthread).1
            rw [List.getElem?_set_self hlt, Option.some.injEq, Option.some.injEq] at hp
            subst hp
            exact hrest
          · rw [List.getElem?_set_ne (Ne.symm hi)] at hp
            exact (h.safe i p hp).rely (hothers i hi)
        · rw [List.length_set] at hi
          have hne : i ≠ thread := by
            have hlt := (List.getElem?_eq_some_iff.mp hthread).1
            omega
          exact hidle i _ _ (h.idle i hi) (hothers i hne)
      · exact h
    · exact h
  | crash thread =>
    refine ⟨h.inv, fun i p hp => ?_, fun i hi => ?_⟩
    · by_cases hi : i = thread
      · subst hi
        simp only [Interleave.step, List.getElem?_set_self'] at hp
        cases hthread : pool.threads[i]? <;> simp [hthread] at hp
      · simp only [Interleave.step, List.getElem?_set_ne (Ne.symm hi)] at hp
        exact h.safe i p hp
    · simp only [Interleave.step, List.length_set] at hi
      exact h.idle i hi

/-- **Every run keeps to the discipline** if every program does that a thread is started with. -/
theorem run_good {Idle : ℕ → S → Prop} (hidle : ∀ i, Stable D i (Idle i))
    (hstart : ∀ i job, Triple D i (Idle i) (program i job) (Q i)) {s : S} (hinv : D.Inv s)
    (hs : ∀ i, Idle i s) (events : List (Event J I)) : (run program s events).Good D Idle Q := by
  have hinitial : (Pool.initial s : Pool S I α).Good D Idle Q := by
    refine ⟨hinv, fun i p hp => ?_, fun i _ => hs i⟩
    cases hp
  exact Run.run_invariant (fun pool event h => h.step hidle hstart event) events _ hinitial

/-- The invariant holds in every run. -/
theorem run_inv {Idle : ℕ → S → Prop} (hidle : ∀ i, Stable D i (Idle i))
    (hstart : ∀ i job, Triple D i (Idle i) (program i job) (Q i)) {s : S} (hinv : D.Inv s)
    (hs : ∀ i, Idle i s) (events : List (Event J I)) : D.Inv (run program s events).state :=
  (run_good hidle hstart hinv hs events).inv

end LightTerminal.Library.Interleave
