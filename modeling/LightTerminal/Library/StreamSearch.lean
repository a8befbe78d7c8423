import Mathlib.Tactic

/-! # Searching a growing text with a bounded memory

A pattern is looked for in a text that grows at its end. If the pattern does not occur in the text
so far, then to find it in `text ++ more` it is enough to remember a suffix of `text`: the longest
one of weight below that of the pattern (`isInfix_append_iff`). The elements have positive weights
(`w`), such as the encoded lengths of the characters of a string, and the suffix is cut between
elements.

The remembered suffix can itself be kept up to date from what is remembered
(`tailWithin_append`). -/

namespace LightTerminal.Library.StreamSearch

variable {α : Type*} (w : α → ℕ)

/-- The total weight of a list. -/
def weight (l : List α) : ℕ := (l.map w).sum

/-- The longest suffix of weight at most `max`. -/
def tailWithin (max : ℕ) : List α → List α
  | [] => []
  | a :: l => if weight w (a :: l) ≤ max then a :: l else tailWithin max l

variable {w}

@[simp] theorem weight_nil : weight w [] = 0 := rfl

@[simp] theorem weight_cons (a : α) (l : List α) : weight w (a :: l) = w a + weight w l := by
  simp [weight]

@[simp] theorem weight_append (l m : List α) : weight w (l ++ m) = weight w l + weight w m := by
  simp [weight]

theorem weight_pos (hw : ∀ a, 0 < w a) {l : List α} (h : l ≠ []) : 0 < weight w l := by
  obtain ⟨a, l, rfl⟩ := List.exists_cons_of_ne_nil h
  have := hw a
  rw [weight_cons]; omega

/-- A list within the bound is its own tail. -/
theorem tailWithin_of_le {max : ℕ} : ∀ {l : List α}, weight w l ≤ max → tailWithin w max l = l
  | [], _ => rfl
  | _ :: _, h => by rw [tailWithin, if_pos h]

theorem tailWithin_cons_of_lt {max : ℕ} {a : α} {l : List α} (h : max < weight w (a :: l)) :
    tailWithin w max (a :: l) = tailWithin w max l := by
  rw [tailWithin, if_neg (by omega)]

theorem tailWithin_suffix (max : ℕ) : ∀ l : List α, tailWithin w max l <:+ l
  | [] => List.suffix_rfl
  | a :: l => by
    unfold tailWithin
    split_ifs
    · exact List.suffix_rfl
    · exact (tailWithin_suffix max l).trans (List.suffix_cons a l)

theorem weight_tailWithin_le (max : ℕ) : ∀ l : List α, weight w (tailWithin w max l) ≤ max
  | [] => Nat.zero_le max
  | a :: l => by
    unfold tailWithin
    split_ifs with h
    · exact h
    · exact weight_tailWithin_le max l

/-- The tail is the longest: it ends with every suffix within the bound. -/
theorem suffix_tailWithin {max : ℕ} {s : List α} (hs : weight w s ≤ max) :
    ∀ {l : List α}, s <:+ l → s <:+ tailWithin w max l
  | [], h => h
  | a :: l, h => by
    unfold tailWithin
    split_ifs with hle
    · exact h
    · rcases List.suffix_cons_iff.mp h with rfl | h'
      · exact absurd hs hle
      · exact suffix_tailWithin hs h'

/-- The tail of an extended list only depends on the tail of the list. -/
theorem tailWithin_append (max : ℕ) (more : List α) : ∀ l : List α,
    tailWithin w max (tailWithin w max l ++ more) = tailWithin w max (l ++ more)
  | [] => rfl
  | a :: l => by
    by_cases hle : weight w (a :: l) ≤ max
    · rw [tailWithin_of_le hle]
    · have hlt : max < weight w (a :: (l ++ more)) := by
        rw [← List.cons_append, weight_append]; omega
      rw [tailWithin_cons_of_lt (by omega), List.cons_append, tailWithin_cons_of_lt hlt]
      exact tailWithin_append max more l

/-- **The remembered suffix is enough.** A pattern that does not occur in `text` occurs in
`text ++ more` if and only if it occurs in the tail of `text` followed by `more`. -/
theorem isInfix_append_iff (hw : ∀ a, 0 < w a) {pattern text : List α} (more : List α)
    (h : ¬ pattern <:+: text) :
    pattern <:+: text ++ more ↔ pattern <:+: tailWithin w (weight w pattern - 1) text ++ more := by
  obtain ⟨pre, hpre⟩ := tailWithin_suffix (w := w) (weight w pattern - 1) text
  constructor
  · rintro ⟨p, s, hps⟩
    rw [List.append_assoc] at hps
    have hle : pre.length ≤ p.length := by
      by_contra hlt
      -- the occurrence starts inside `text`, so a part of the pattern is a suffix of `text`
      rcases List.append_eq_append_iff.mp hps with ⟨m, hm, hrest⟩ | ⟨m, hm, -⟩
      · rcases List.append_eq_append_iff.mp hrest with ⟨k, hk, -⟩ | ⟨k, hk, -⟩
        · exact h ⟨p, k, by rw [hm, hk, List.append_assoc]⟩
        · rcases eq_or_ne k [] with rfl | hne
          · exact h ⟨p, [], by rw [hm, hk]; simp⟩
          have hkpos := weight_pos hw hne
          have hmle : weight w m ≤ weight w pattern - 1 := by rw [hk, weight_append]; omega
          obtain ⟨q, hq⟩ := suffix_tailWithin hmle (l := text) ⟨p, hm.symm⟩
          have hlen := congrArg List.length hm
          rw [← hpre, ← hq] at hlen
          simp only [List.length_append] at hlen
          omega
      · have hlen := congrArg List.length hm
        rw [← hpre] at hlen
        simp only [List.length_append] at hlen
        omega
    obtain ⟨p', rfl⟩ : pre <+: p := by
      refine List.prefix_of_prefix_length_le ?_ (List.prefix_append p (pattern ++ s)) hle
      rw [hps, ← hpre, List.append_assoc]
      exact List.prefix_append pre _
    refine ⟨p', s, ?_⟩
    rw [← hpre, List.append_assoc, List.append_assoc] at hps
    rw [List.append_assoc]
    exact List.append_cancel_left hps
  · intro hin
    refine hin.trans ?_
    have : tailWithin w (weight w pattern - 1) text ++ more <:+ text ++ more :=
      ⟨pre, by rw [← List.append_assoc, hpre]⟩
    exact this.isInfix

end LightTerminal.Library.StreamSearch
