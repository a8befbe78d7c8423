import Mathlib.Tactic

/-! # Undo journals

A journal records the changes of one value as entries with a value `before` and a value `after`. It
starts at a `base` value, and a cursor says how many of the entries are applied: undo moves it one
entry back, redo one entry forward.

`Linked` says that each entry begins with the value the one before it ends with, `valueAt` is the
value after the first `n` entries. A journal is well formed (`WellFormed`) if its current value is
the value at its cursor; every operation keeps that, with the same base. -/

namespace LightTerminal.Library.Journal

variable {E V : Type} (before after : E → V)

/-- The entries lead from `base` on, one to the next. -/
def Linked : V → List E → Prop
  | _, [] => True
  | base, e :: entries => before e = base ∧ Linked (after e) entries

/-- The value after the first `n` entries. -/
def valueAt : V → List E → ℕ → V
  | base, _, 0 => base
  | base, [], _ + 1 => base
  | _, e :: entries, n + 1 => valueAt (after e) entries n

@[simp] theorem valueAt_zero (base : V) (entries : List E) : valueAt after base entries 0 = base := by
  cases entries <;> rfl

variable {before after}

theorem valueAt_append : ∀ (base : V) (entries rest : List E) {n : ℕ}, n ≤ entries.length →
    valueAt after base (entries ++ rest) n = valueAt after base entries n
  | base, entries, rest, 0, _ => by simp
  | base, [], rest, n + 1, h => absurd h (by simp)
  | base, e :: entries, rest, n + 1, h =>
    valueAt_append (after e) entries rest (Nat.le_of_succ_le_succ h)

theorem valueAt_concat : ∀ (base : V) (entries : List E) (e : E),
    valueAt after base (entries ++ [e]) (entries.length + 1) = after e
  | _, [], e => valueAt_zero after (after e) []
  | _, e' :: entries, e => valueAt_concat (after e') entries e

/-- The entry at `n` leads from the value at `n` to the value at `n + 1`. -/
theorem valueAt_get : ∀ {base : V} {entries : List E} {n : ℕ} {e : E},
    Linked before after base entries → entries[n]? = some e →
      before e = valueAt after base entries n ∧ after e = valueAt after base entries (n + 1)
  | _, [], n, e, _, h => by simp at h
  | base, e' :: entries, 0, e, hl, h => by
    simp only [List.getElem?_cons_zero, Option.some.injEq] at h
    subst h
    exact ⟨hl.1, (valueAt_zero after (after e') entries).symm⟩
  | base, e' :: entries, n + 1, e, hl, h => by
    rw [List.getElem?_cons_succ] at h
    have ih := valueAt_get hl.2 h
    exact ih

theorem linked_concat : ∀ {base : V} {entries : List E} {e : E},
    Linked before after base entries → before e = valueAt after base entries entries.length →
      Linked before after base (entries ++ [e])
  | _, [], _, _, h => ⟨h, trivial⟩
  | _, _ :: _, _, hl, h => ⟨hl.1, linked_concat hl.2 h⟩

/-- Neighbours agree. -/
theorem Linked.adjacent {base : V} {entries : List E} (hl : Linked before after base entries)
    {i : ℕ} {e e' : E} (h : entries[i]? = some e) (h' : entries[i + 1]? = some e') :
    after e = before e' := by
  rw [(valueAt_get hl h).2, (valueAt_get hl h').1]

variable (before after) in
/-- The current value is the value at the cursor. -/
structure WellFormed (base current : V) (entries : List E) (cursor : ℕ) : Prop where
  linked : Linked before after base entries
  cursor_le : cursor ≤ entries.length
  current_eq : current = valueAt after base entries cursor

namespace WellFormed

variable {base current : V} {entries : List E} {cursor : ℕ}

theorem empty (v : V) : WellFormed before after v v [] 0 := ⟨trivial, le_rfl, rfl⟩

/-- A new entry at the tip. -/
theorem append (h : WellFormed before after base current entries cursor)
    (htip : cursor = entries.length) {e : E} (he : before e = current) :
    WellFormed before after base (after e) (entries ++ [e]) (cursor + 1) := by
  subst htip
  refine ⟨linked_concat h.linked (he.trans h.current_eq), by simp, ?_⟩
  exact (valueAt_concat base entries e).symm

/-- The entry before the cursor ends in the current value, and undoing it is well formed. -/
theorem undo (h : WellFormed before after base current entries (cursor + 1)) {e : E}
    (he : entries[cursor]? = some e) :
    after e = current ∧ WellFormed before after base (before e) entries cursor := by
  obtain ⟨hb, ha⟩ := valueAt_get h.linked he
  exact ⟨ha.trans h.current_eq.symm, h.linked, (Nat.le_succ _).trans h.cursor_le, hb⟩

/-- The entry at the cursor begins with the current value, and redoing it is well formed. -/
theorem redo (h : WellFormed before after base current entries cursor) {e : E}
    (he : entries[cursor]? = some e) :
    before e = current ∧ WellFormed before after base (after e) entries (cursor + 1) := by
  obtain ⟨hb, ha⟩ := valueAt_get h.linked he
  have hlt : cursor < entries.length := (List.getElem?_eq_some_iff.mp he).1
  exact ⟨hb.trans h.current_eq.symm, h.linked, hlt, ha⟩

/-- The current value, read off the entry on either side of the cursor. -/
theorem current_of_get (h : WellFormed before after base current entries cursor) :
    (∀ n e, cursor = n + 1 → entries[n]? = some e → current = after e) ∧
      ∀ e, cursor = 0 → entries[0]? = some e → current = before e := by
  refine ⟨?_, ?_⟩
  · rintro n e rfl he
    exact (h.undo he).1.symm
  · rintro e rfl he
    exact (h.redo he).1.symm

end WellFormed

end LightTerminal.Library.Journal
