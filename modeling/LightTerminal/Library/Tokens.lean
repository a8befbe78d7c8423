import Mathlib.Logic.Function.Basic
import Mathlib.Tactic

/-! # Cells with tokens

A cell of a store holds an entry, and an entry has a token. Entries are handed out, and whoever
presents one may replace the entry of its cell if the tokens agree. Nothing else is compared, so it
depends on the tokens whether an entry that was replaced can still be presented.

* `Related`: every entry that was handed out is in a relation to the one that its cell has now.
* `Related.issue`, `Related.install`: what this asks when an entry is handed out, and when one is
  replaced. With `TokenTells` as the relation, the token of a new entry must not be one that was handed
  out for the cell; then the token decides, `TokenTells` and equal tokens being the entry itself. -/

namespace LightTerminal.Library.Tokens

variable {K E τ : Type} {R : E → E → Prop} {cells : K → Option E} {issued issued' : K → E → Prop}

/-- An entry that was handed out for a cell is related to the entry that the cell has. -/
def Related (R : E → E → Prop) (cells : K → Option E) (issued : K → E → Prop) : Prop :=
  ∀ k e, issued k e → ∃ current, cells k = some current ∧ R current e

/-- An entry with the token of another is that entry. -/
def TokenTells (token : E → τ) (current e : E) : Prop := token current = token e → current = e

theorem Related.current {k : K} {e current : E} (h : Related R cells issued) (he : issued k e)
    (hcell : cells k = some current) : R current e := by
  obtain ⟨current', hcell', hrel⟩ := h k e he
  rw [hcell, Option.some.injEq] at hcell'
  exact hcell' ▸ hrel

/-- No entry was handed out for a cell that has none. -/
theorem Related.not_issued {k : K} (h : Related R cells issued) (hcell : cells k = none) (e : E) :
    ¬issued k e := by
  intro he
  obtain ⟨current, hcurrent, -⟩ := h k e he
  rw [hcell] at hcurrent
  cases hcurrent

/-- The entry of a cell may be handed out. -/
theorem Related.issue (h : Related R cells issued) (hrefl : ∀ e, R e e)
    (hissued : ∀ k e, issued' k e → issued k e ∨ cells k = some e) : Related R cells issued' := by
  intro k e he
  rcases hissued k e he with he | hcell
  · exact h k e he
  · exact ⟨e, hcell, hrefl e⟩

/-- A cell may get a new entry that is related to all that were handed out for it. -/
theorem Related.install [DecidableEq K] {k : K} {new : E} (h : Related R cells issued)
    (hrefl : ∀ e, R e e) (hnew : ∀ e, issued k e → R new e)
    (hissued : ∀ k' e, issued' k' e → issued k' e ∨ k' = k ∧ e = new) :
    Related R (Function.update cells k (some new)) issued' := by
  intro k' e he
  by_cases hk : k' = k
  · subst hk
    refine ⟨new, Function.update_self .., ?_⟩
    rcases hissued k' e he with he | ⟨-, rfl⟩
    · exact hnew e he
    · exact hrefl e
  · rw [Function.update_of_ne hk]
    rcases hissued k' e he with he | ⟨rfl, -⟩
    · exact h k' e he
    · exact absurd rfl hk

end LightTerminal.Library.Tokens
