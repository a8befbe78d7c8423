import Mathlib.Data.List.Basic
import Mathlib.Data.List.Chain
import Mathlib.Tactic

/-! # Ancestry

Each thing that is born has at most one parent, and a parent is born before its children. Then the
relation of child and parent is well founded, no thing is its own ancestor, and a chain of
descendants is no longer than the list of the born. -/

namespace LightTerminal.Library.Ancestry

variable {α : Type}

/-- In a list of the born, the latest first, parents come later than their children. -/
def Ordered (parent : α → Option α) : List α → Prop
  | [] => True
  | a :: earlier => (∀ p, parent a = some p → p ∈ earlier) ∧ a ∉ earlier ∧ Ordered parent earlier

/-- `child` was born, and `p` is its parent. -/
def ChildOf (parent : α → Option α) (born : List α) (child p : α) : Prop :=
  child ∈ born ∧ parent child = some p

variable {parent parent' : α → Option α}

theorem Ordered.congr : ∀ {born : List α}, (∀ a ∈ born, parent' a = parent a) →
    Ordered parent born → Ordered parent' born
  | [], _, _ => trivial
  | a :: earlier, hparent, ⟨hfirst, hnew, hrest⟩ => by
    refine ⟨fun p hp => ?_, hnew, hrest.congr fun b hb => hparent b (List.mem_cons_of_mem _ hb)⟩
    rw [hparent a List.mem_cons_self] at hp
    exact hfirst p hp

section
variable [DecidableEq α]

/-- A parent is in the list, after its child. -/
theorem Ordered.idxOf_lt {child p : α} : ∀ {born : List α}, Ordered parent born →
    ChildOf parent born child p → p ∈ born ∧ born.idxOf child < born.idxOf p
  | [], _, ⟨hchild, _⟩ => by cases hchild
  | a :: earlier, ⟨hfirst, hnew, hrest⟩, ⟨hchild, hparent⟩ => by
    rcases List.mem_cons.mp hchild with rfl | hchild
    · have hp := hfirst p hparent
      have hne : child ≠ p := fun heq => hnew (heq ▸ hp)
      rw [List.idxOf_cons_self, List.idxOf_cons_ne _ hne]
      exact ⟨List.mem_cons_of_mem _ hp, Nat.succ_pos _⟩
    · obtain ⟨hp, hlt⟩ := hrest.idxOf_lt ⟨hchild, hparent⟩
      have hne : a ≠ child := fun heq => hnew (heq ▸ hchild)
      have hne' : a ≠ p := fun heq => hnew (heq ▸ hp)
      rw [List.idxOf_cons_ne _ hne, List.idxOf_cons_ne _ hne']
      exact ⟨List.mem_cons_of_mem _ hp, Nat.succ_lt_succ hlt⟩

/-- There is no infinite line of descent. -/
theorem Ordered.wellFounded {born : List α} (h : Ordered parent born) :
    WellFounded (ChildOf parent born) :=
  Subrelation.wf (fun hchild => (h.idxOf_lt hchild).2) (InvImage.wf born.idxOf Nat.lt_wfRel.wf)

/-- Nothing is its own ancestor. -/
theorem Ordered.acyclic {born : List α} (h : Ordered parent born) (a : α) :
    ¬Relation.TransGen (ChildOf parent born) a a :=
  h.wellFounded.transGen.irrefl.irrefl a

/-- A line of descent is no longer than the list of the born. -/
theorem Ordered.length_le {born line : List α} (h : Ordered parent born)
    (hborn : ∀ a ∈ line, a ∈ born) (hline : line.IsChain (ChildOf parent born)) :
    line.length ≤ born.length := by
  have hchain : line.IsChain fun a b => born.idxOf a < born.idxOf b :=
    hline.imp fun a b hab => (h.idxOf_lt hab).2
  have htrans : IsTrans α fun a b => born.idxOf a < born.idxOf b := ⟨fun _ _ _ => Nat.lt_trans⟩
  have hnodup : line.Nodup := hchain.pairwise.imp fun hab heq => by
    rw [heq] at hab
    exact Nat.lt_irrefl _ hab
  exact (hnodup.subperm hborn).length_le

end

/-! ### A relation with one parent each -/

section Relation
open Relation
variable {R : α → α → Prop} {a b root : α}

/-- Below something without a parent there is no cycle. -/
theorem not_transGen_self (hunique : ∀ a b c, R a b → R a c → b = c) (h : ReflTransGen R a root)
    (hroot : ∀ b, ¬ R root b) : ¬ TransGen R a a := by
  induction h using ReflTransGen.head_induction_on with
  | refl =>
    intro hcycle
    obtain ⟨b, hab, -⟩ := TransGen.head'_iff.mp hcycle
    exact hroot b hab
  | head hab _ ih =>
    intro hcycle
    obtain ⟨c, hac, hca⟩ := TransGen.head'_iff.mp hcycle
    obtain rfl := hunique _ _ _ hab hac
    exact ih (TransGen.tail' hca hab)

/-- The way up is one: what is above `a` is between `a` and the root. -/
theorem reflTransGen_root (hunique : ∀ a b c, R a b → R a c → b = c) (h : ReflTransGen R a root)
    (hroot : ∀ b, ¬ R root b) (hab : ReflTransGen R a b) : ReflTransGen R b root := by
  have hright : Relator.RightUnique R := fun a b c => hunique a b c
  rcases ReflTransGen.total_of_right_unique hright h hab with hrb | hbr
  · rcases ReflTransGen.cases_head hrb with rfl | ⟨c, hc, -⟩
    · exact .refl
    · exact absurd hc (hroot c)
  · exact hbr

end Relation

end LightTerminal.Library.Ancestry
