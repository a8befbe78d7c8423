import Mathlib.Data.List.Infix
import Mathlib.Tactic

/-! # Short occurrences in a stream

What is looked for in a stream begins somewhere and ends fewer than `window` elements later; `read`
tells what begins at the head of a list. Occurrences that begin later end later (`Reader.apart`).

A stream comes in chunks. An occurrence that begins in one part of the stream and ends in a later one
lies in the last `window` elements of the first part and the first `window` elements of the second
(`values_append_tail`), so that a reader that remembers so many elements finds every occurrence once, in
order. -/

namespace LightTerminal.Library.Occurrences

variable {α β : Type}

/-- What begins at the head of a list: how far behind the head its last element is, and its value. -/
structure Reader (α β : Type) where
  read : List α → Option (ℕ × β)
  window : ℕ
  within : ∀ {l k b}, read l = some (k, b) → k < l.length ∧ k < window
  extend : ∀ {l m x}, read l = some x → read (l ++ m) = some x
  restrict : ∀ {l m k b}, read (l ++ m) = some (k, b) → k < l.length → read l = some (k, b)
  apart : ∀ {l k b i k' b'}, read l = some (k, b) → 0 < i → read (l.drop i) = some (k', b') → k < i + k'

/-- The value of an occurrence that ends more than `n` elements behind its beginning. -/
def late (n : ℕ) : Option (ℕ × β) → List β
  | none => []
  | some (k, b) => if n < k then [b] else []

namespace Reader

variable (r : Reader α β)

/-- The values of all occurrences in a list, in the order in which they begin. -/
def values : List α → List β
  | [] => []
  | a :: l => ((r.read (a :: l)).map Prod.snd).toList ++ values l

/-- The values of the occurrences that begin in the first list and end in the second one. -/
def crossing : List α → List α → List β
  | [], _ => []
  | a :: l, m => late l.length (r.read (a :: l ++ m)) ++ crossing l m

@[simp] theorem values_nil : r.values [] = [] := rfl

@[simp] theorem crossing_nil (m : List α) : r.crossing [] m = [] := rfl

variable {r}

/-- Nothing ends in a list if something that began before it ends behind it. -/
theorem values_eq_nil {a : α} {l m : List α} {k : ℕ} {b : β} (h : r.read (a :: l ++ m) = some (k, b))
    (hk : l.length < k) : r.values l = [] := by
  have hnone : ∀ pre l', l = pre ++ l' → r.values l' = [] := by
    intro pre l'
    induction l' generalizing pre with
    | nil => exact fun _ => rfl
    | cons a' l' ih =>
      intro hl
      have hrest := ih (pre ++ [a']) (by simp [hl])
      rcases hread : r.read (a' :: l') with _ | ⟨k', b'⟩
      · simp [values, hread, hrest]
      · exfalso
        have hdrop : (a :: l ++ m).drop (pre.length + 1) = a' :: l' ++ m := by
          simp [hl]
        have hlater : r.read ((a :: l ++ m).drop (pre.length + 1)) = some (k', b') := by
          rw [hdrop]
          exact r.extend hread
        have hend := r.apart h (Nat.succ_pos _) hlater
        have hlt := (r.within hread).1
        have hlength := congrArg List.length hl
        simp only [List.length_append, List.length_cons] at hlength hlt
        omega
  exact hnone [] l rfl

/-- The occurrences of a list that is put together of two. -/
theorem values_append (l m : List α) : r.values (l ++ m) = r.values l ++ r.crossing l m ++ r.values m := by
  induction l with
  | nil => simp
  | cons a l ih =>
    rw [List.cons_append, values, values, crossing, ih, ← List.cons_append]
    rcases hread : r.read (a :: l ++ m) with _ | ⟨k, b⟩
    · have hfirst : r.read (a :: l) = none := by
        by_contra hsome
        obtain ⟨x, hx⟩ := Option.ne_none_iff_exists'.mp hsome
        rw [r.extend hx] at hread
        cases hread
      simp [hfirst, late]
    · by_cases hk : l.length < k
      · have hfirst : r.read (a :: l) = none := by
          by_contra hsome
          obtain ⟨⟨k', b'⟩, hx⟩ := Option.ne_none_iff_exists'.mp hsome
          have hlt := (r.within hx).1
          rw [r.extend hx, Option.some.injEq, Prod.mk.injEq] at hread
          rw [List.length_cons] at hlt
          omega
        simp [hfirst, late, hk, values_eq_nil hread hk]
      · have hfirst : r.read (a :: l) = some (k, b) :=
          r.restrict hread (by rw [List.length_cons]; omega)
        simp [hfirst, late, hk]

/-- What crosses from one list to another lies in the end of the one and the beginning of the other. -/
theorem crossing_take (l m : List α) : r.crossing l (m.take r.window) = r.crossing l m := by
  induction l with
  | nil => rfl
  | cons a l ih =>
    rw [crossing, crossing, ih]
    congr 2
    have hsplit : a :: l ++ m = (a :: l ++ m.take r.window) ++ m.drop r.window := by simp
    rcases hread : r.read (a :: l ++ m) with _ | ⟨k, b⟩
    · have hfirst : r.read (a :: l ++ m.take r.window) = none := by
        by_contra hsome
        obtain ⟨x, hx⟩ := Option.ne_none_iff_exists'.mp hsome
        rw [hsplit, r.extend hx] at hread
        cases hread
      rw [hfirst]
    · have hlt := r.within hread
      rw [hsplit] at hread
      rw [r.restrict hread ?_]
      simp only [List.cons_append, List.length_cons, List.length_append, List.length_take] at hlt ⊢
      omega

theorem crossing_drop (l m : List α) : r.crossing (l.drop (l.length - r.window)) m = r.crossing l m := by
  induction l with
  | nil => simp
  | cons a l ih =>
    by_cases hlen : l.length < r.window
    · have hzero : (a :: l).length - r.window = 0 := by rw [List.length_cons]; omega
      rw [hzero, List.drop_zero]
    · have hsucc : (a :: l).length - r.window = l.length - r.window + 1 := by
        rw [List.length_cons]; omega
      rw [hsucc, List.drop_succ_cons, ih, crossing]
      rcases hread : r.read (a :: l ++ m) with _ | ⟨k, b⟩
      · rfl
      · have hlt := (r.within hread).2
        have hk : ¬ l.length < k := by omega
        simp [late, hk]

/-- The occurrences of a stream that goes on are those before, those that cross from the remembered
end of it into the beginning of what is new, and those in what is new. -/
theorem values_append_tail (l m : List α) :
    r.values (l ++ m) =
      r.values l ++ r.crossing (l.drop (l.length - r.window)) (m.take r.window) ++ r.values m := by
  rw [values_append, crossing_take, crossing_drop]

/-! ### Scans -/

section Scan
variable (r) {σ : Type} (f : σ → β → σ)

/-- The loop of a scan, at the position `i`: what ends before `limit` is left out, and if `limit` is not
zero, the loop ends there. -/
def scan (limit : ℕ) : ℕ → List α → σ → σ
  | _, [], state => state
  | i, a :: l, state =>
    if 0 < limit ∧ limit ≤ i then state
    else
      scan limit (i + 1) l
        (match r.read (a :: l) with
        | some (k, b) => if limit ≤ i + k then f state b else state
        | none => state)

/-- The scans of a chunk: over the remembered bytes and the beginning of the chunk, if there is both, and
then over the chunk. -/
def scanChunk (tail chunk : List α) (state : σ) : σ :=
  r.scan f 0 0 chunk
    (if tail ≠ [] ∧ chunk ≠ [] then
      r.scan f tail.length 0 (tail ++ chunk.take (min chunk.length r.window)) state
    else state)

variable {r} {f}

theorem scan_zero (l : List α) : ∀ i state, r.scan f 0 i l state = (r.values l).foldl f state := by
  induction l with
  | nil => intro i state; rfl
  | cons a l ih =>
    intro i state
    rw [scan, if_neg (by omega), ih, values, List.foldl_append]
    congr 1
    rcases r.read (a :: l) with _ | ⟨k, b⟩
    · rfl
    · simp

/-- A scan changes nothing where nothing occurs. -/
theorem scan_of_values_eq_nil {limit : ℕ} {l : List α} (h : r.values l = []) :
    ∀ i state, r.scan f limit i l state = state := by
  induction l with
  | nil => intro i state; rfl
  | cons a l ih =>
    intro i state
    obtain ⟨hfirst, hrest⟩ := List.append_eq_nil_iff.mp h
    have hread : r.read (a :: l) = none := by
      rcases hsome : r.read (a :: l) with _ | x
      · rfl
      · rw [hsome] at hfirst
        cases hfirst
    rw [scan, hread, ih hrest]
    exact ite_self _

/-- The scan of the boundary finds what begins in the remembered elements and ends in the new ones. -/
theorem scan_crossing (l m : List α) : ∀ i state, 0 < i + l.length →
    r.scan f (i + l.length) i (l ++ m) state = (r.crossing l m).foldl f state := by
  induction l with
  | nil =>
    intro i state hpos
    rw [List.length_nil, Nat.add_zero] at hpos
    rcases m with _ | ⟨a, m⟩
    · rfl
    · simp [scan, hpos]
  | cons a l ih =>
    intro i state hpos
    have hlength : i + (a :: l).length = i + 1 + l.length := by rw [List.length_cons]; omega
    rw [List.cons_append, scan, if_neg (by rw [hlength]; omega), hlength, ih (i + 1) _ (by omega), crossing,
      List.foldl_append]
    congr 1
    show _ = List.foldl f state (late l.length (r.read (a :: (l ++ m))))
    rcases r.read (a :: (l ++ m)) with _ | ⟨k, b⟩
    · rfl
    · have hlate : i + 1 + l.length ≤ i + k ↔ l.length < k := by omega
      by_cases hk : l.length < k
      · simp [late, hk, hlate.mpr hk]
      · simp [late, hk, mt hlate.mp hk]

/-- **A chunk after some output.** With the end of the output remembered, the scans of a chunk find
what the longer output has more. -/
theorem scanChunk_eq (output chunk : List α) (state : σ) :
    r.scanChunk f (output.drop (output.length - r.window)) chunk ((r.values output).foldl f state) =
      (r.values (output ++ chunk)).foldl f state := by
  rw [values_append_tail, List.foldl_append, List.foldl_append, scanChunk, scan_zero]
  congr 1
  rw [List.take_eq_take_iff.mpr (show min (min chunk.length r.window) chunk.length =
    min r.window chunk.length by omega)]
  split_ifs with hsome
  · have hpos : 0 < 0 + (output.drop (output.length - r.window)).length := by
      have := List.length_pos_iff.mpr hsome.1
      omega
    have hscan := scan_crossing (r := r) (f := f) (output.drop (output.length - r.window)) (chunk.take r.window) 0
      ((r.values output).foldl f state) hpos
    rw [Nat.zero_add] at hscan
    exact hscan
  · rw [not_and_or, not_not, not_not] at hsome
    rcases hsome with htail | hchunk
    · rw [htail]
      rfl
    · have hvalues := r.values_append (output.drop (output.length - r.window)) []
      rw [List.append_nil, values_nil, List.append_nil, List.self_eq_append_right] at hvalues
      rw [hchunk, List.take_nil, hvalues]
      rfl

end Scan

end Reader

end LightTerminal.Library.Occurrences
