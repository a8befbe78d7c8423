import Mathlib.Data.Finset.Card
import Mathlib.Logic.Relation
import Mathlib.Tactic

/-! # Depth-first traversal

A node is visited once: it is noted as seen, then its successors are visited from left to right, one level
deeper. The visits that follow one call are a `Forest` in preorder, whose edges are links of the graph
(`visit_visits`); its nodes are those that links reach past the nodes seen before (`Visits.mem_iff_reach`).

The recursion is cut off by `fuel`. Fuel for each node that is not yet seen is enough (`exists_visit`), and
more does not change the result (`visit_mono`). -/

namespace LightTerminal.Library.Traversal

variable {α : Type}

/-- A tree with its root and the forest below it, and the trees after it. -/
inductive Forest (α : Type) where
  | nil
  | cons (root : α) (below after : Forest α)

namespace Forest

/-- The nodes with their depths, each root before the trees below it. -/
def preorder : Forest α → ℕ → List (α × ℕ)
  | nil, _ => []
  | cons root below after, depth => (root, depth) :: (below.preorder (depth + 1) ++ after.preorder depth)

/-- The nodes in preorder. -/
def nodes : Forest α → List α
  | nil => []
  | cons root below after => root :: (below.nodes ++ after.nodes)

/-- The trees of one forest before those of another. -/
def append : Forest α → Forest α → Forest α
  | nil, forest => forest
  | cons root below after, forest => cons root below (after.append forest)

/-- The roots are allowed, and each node below another one is linked to it. -/
def Grows (link : α → α → Prop) : Forest α → (α → Prop) → Prop
  | nil, _ => True
  | cons root below after, start => start root ∧ below.Grows link (link root) ∧ after.Grows link start

@[simp] theorem preorder_append : ∀ (forest forest' : Forest α) (depth : ℕ),
    (forest.append forest').preorder depth = forest.preorder depth ++ forest'.preorder depth
  | nil, _, _ => rfl
  | cons root below after, forest', depth => by
    rw [append, preorder, preorder, preorder_append after forest' depth, List.cons_append,
      List.append_assoc]

@[simp] theorem nodes_append : ∀ forest forest' : Forest α,
    (forest.append forest').nodes = forest.nodes ++ forest'.nodes
  | nil, _ => rfl
  | cons root below after, forest' => by
    rw [append, nodes, nodes, nodes_append after forest', List.cons_append, List.append_assoc]

theorem map_fst_preorder : ∀ (forest : Forest α) (depth : ℕ),
    (forest.preorder depth).map Prod.fst = forest.nodes
  | nil, _ => rfl
  | cons root below after, depth => by
    rw [preorder, nodes, List.map_cons, List.map_append, map_fst_preorder below,
      map_fst_preorder after]

variable {link : α → α → Prop} {start start' : α → Prop}

theorem Grows.append : ∀ {forest forest' : Forest α}, forest.Grows link start →
    forest'.Grows link start → (forest.append forest').Grows link start
  | nil, _, _, h' => h'
  | cons _ _ _, _, ⟨hroot, hbelow, hafter⟩, h' => ⟨hroot, hbelow, hafter.append h'⟩

theorem Grows.mono (hstart : ∀ a, start a → start' a) : ∀ {forest : Forest α},
    forest.Grows link start → forest.Grows link start'
  | nil, _ => trivial
  | cons root _ _, ⟨hroot, hbelow, hafter⟩ => ⟨hstart root hroot, hbelow, hafter.mono hstart⟩

/-- Links lead from an allowed root to each node, over nodes of the forest alone. -/
theorem Grows.reach {P : α → Prop} : ∀ {forest : Forest α} {start : α → Prop},
    forest.Grows link start → (∀ x ∈ forest.nodes, P x) → ∀ {x : α}, x ∈ forest.nodes →
    ∃ root, start root ∧ P root ∧ Relation.ReflTransGen (fun p q => link p q ∧ P q) root x
  | nil, _, _, _, _, hx => absurd hx List.not_mem_nil
  | cons root below after, start, ⟨hroot, hbelow, hafter⟩, hP, x, hx => by
    have hself : P root := hP root List.mem_cons_self
    have hP_below : ∀ y ∈ below.nodes, P y := fun y hy =>
      hP y (List.mem_cons_of_mem _ (List.mem_append_left _ hy))
    have hP_after : ∀ y ∈ after.nodes, P y := fun y hy =>
      hP y (List.mem_cons_of_mem _ (List.mem_append_right _ hy))
    rcases List.mem_cons.mp hx with heq | hx
    · exact ⟨root, hroot, hself, heq ▸ .refl⟩
    rcases List.mem_append.mp hx with hx | hx
    · obtain ⟨child, hlink, hchild, hpath⟩ := hbelow.reach hP_below hx
      exact ⟨root, hroot, hself, .head ⟨hlink, hchild⟩ hpath⟩
    · exact hafter.reach hP_after hx

end Forest

/-! ### Visits -/

variable {next : α → List α}

/-- The nodes seen, and those visited so far with their depths. -/
abbrev State (α : Type) := Finset α × List (α × ℕ)

/-- The visits from one state to another are those of a forest. -/
structure Visits (next : α → List α) (start : α → Prop) (depth : ℕ) (before after : State α)
    (forest : Forest α) : Prop where
  order : after.2 = before.2 ++ forest.preorder depth
  seen : ∀ x, x ∈ after.1 ↔ x ∈ before.1 ∨ x ∈ forest.nodes
  fresh : ∀ x ∈ forest.nodes, x ∉ before.1
  nodup : forest.nodes.Nodup
  grows : forest.Grows (fun p q => q ∈ next p) start
  closed : ∀ x ∈ forest.nodes, ∀ y ∈ next x, y ∈ after.1

variable {start start' : α → Prop} {depth : ℕ} {before middle after : State α} {forest forest' : Forest α}

theorem visits_nil (next : α → List α) (start : α → Prop) (depth : ℕ) (state : State α) :
    Visits next start depth state state .nil where
  order := (List.append_nil _).symm
  seen _ := ⟨.inl, fun h => h.resolve_right List.not_mem_nil⟩
  fresh _ hx := absurd hx List.not_mem_nil
  nodup := List.nodup_nil
  grows := trivial
  closed _ hx := absurd hx List.not_mem_nil

/-- Visits one after the other. -/
theorem Visits.append (h : Visits next start depth before middle forest)
    (h' : Visits next start depth middle after forest') :
    Visits next start depth before after (forest.append forest') where
  order := by rw [h'.order, h.order, Forest.preorder_append, List.append_assoc]
  seen x := by rw [h'.seen, h.seen, Forest.nodes_append, List.mem_append, or_assoc]
  fresh x hx := by
    rw [Forest.nodes_append] at hx
    rcases List.mem_append.mp hx with hx | hx
    · exact h.fresh x hx
    · exact fun hseen => h'.fresh x hx ((h.seen x).mpr (.inl hseen))
  nodup := by
    rw [Forest.nodes_append]
    refine List.nodup_append.mpr ⟨h.nodup, h'.nodup, ?_⟩
    rintro x hx y hy rfl
    exact h'.fresh x hy ((h.seen x).mpr (.inr hx))
  grows := h.grows.append h'.grows
  closed x hx y hy := by
    rw [Forest.nodes_append] at hx
    rcases List.mem_append.mp hx with hx | hx
    · exact (h'.seen y).mpr (.inl (h.closed x hx y hy))
    · exact h'.closed x hx y hy

theorem Visits.widen (h : Visits next start depth before after forest)
    (hstart : ∀ a, start a → start' a) : Visits next start' depth before after forest :=
  { h with grows := h.grows.mono hstart }

/-- The forest below a node that was not seen: what links reach from it past the nodes seen before. -/
theorem Visits.mem_iff_reach {a : α} (h : Visits next (· = a) depth before after forest)
    (ha : a ∈ after.1) (hfresh : a ∉ before.1) (x : α) :
    x ∈ forest.nodes ↔ Relation.ReflTransGen (fun p q => q ∈ next p ∧ q ∉ before.1) a x := by
  constructor
  · intro hx
    obtain ⟨root, rfl, -, hpath⟩ := h.grows.reach h.fresh hx
    exact hpath
  · intro hpath
    induction hpath with
    | refl => exact ((h.seen a).mp ha).resolve_left hfresh
    | tail _ hlink ih =>
      obtain ⟨hnext, hnew⟩ := hlink
      exact ((h.seen _).mp (h.closed _ ih _ hnext)).resolve_left hnew

/-! ### The traversal -/

variable [DecidableEq α]

/-- Visit a node and what it leads to; `none` if `fuel` calls within each other are too few. -/
def visit (next : α → List α) : ℕ → α → ℕ → State α → Option (State α)
  | 0, _, _, _ => none
  | fuel + 1, a, depth, (seen, order) =>
    if a ∈ seen then some (seen, order)
    else (next a).foldlM (fun state b => visit next fuel b (depth + 1) state)
      (insert a seen, order ++ [(a, depth)])

/-- A node that was not seen, and the visits to its successors. -/
theorem Visits.root {a : α} {order : List (α × ℕ)} {seen : Finset α} (ha : a ∉ seen)
    (h : Visits next (· ∈ next a) (depth + 1) (insert a seen, order ++ [(a, depth)]) after forest)
    (hnext : ∀ b ∈ next a, b ∈ after.1) :
    Visits next (· = a) depth (seen, order) after (.cons a forest .nil) where
  order := by rw [h.order, Forest.preorder, Forest.preorder, List.append_nil, List.append_assoc,
    List.singleton_append]
  seen x := by
    rw [h.seen, Forest.nodes, Forest.nodes, List.append_nil, List.mem_cons, Finset.mem_insert]
    tauto
  fresh x hx := by
    rw [Forest.nodes, Forest.nodes, List.append_nil] at hx
    rcases List.mem_cons.mp hx with heq | hx
    · rw [heq]
      exact ha
    · exact fun hseen => h.fresh x hx (Finset.mem_insert_of_mem hseen)
  nodup := by
    rw [Forest.nodes, Forest.nodes, List.append_nil, List.nodup_cons]
    exact ⟨fun hmem => h.fresh a hmem (Finset.mem_insert_self a seen), h.nodup⟩
  grows := ⟨rfl, h.grows, trivial⟩
  closed x hx y hy := by
    rw [Forest.nodes, Forest.nodes, List.append_nil] at hx
    rcases List.mem_cons.mp hx with heq | hx
    · exact hnext y (heq ▸ hy)
    · exact h.closed x hx y hy

section
variable {fuel : ℕ}

/-- What a fold of visits does, if each visit does it. -/
theorem foldlM_visits
    (hvisit : ∀ (a : α) (depth : ℕ) (before after : State α), visit next fuel a depth before = some after →
      ∃ forest, Visits next (· = a) depth before after forest ∧ a ∈ after.1) :
    ∀ {bs : List α} {depth : ℕ} {before after : State α},
      bs.foldlM (fun state b => visit next fuel b depth state) before = some after →
      ∃ forest, Visits next (· ∈ bs) depth before after forest ∧ ∀ b ∈ bs, b ∈ after.1
  | [], depth, before, after, h => by
    have heq : before = after := Option.some.inj h
    rw [← heq]
    exact ⟨.nil, visits_nil next _ depth before, fun b hb => absurd hb List.not_mem_nil⟩
  | b :: bs, depth, before, after, h => by
    rw [List.foldlM_cons] at h
    obtain ⟨middle, hfirst, hrest⟩ := Option.bind_eq_some_iff.mp h
    obtain ⟨forest, hforest, hb⟩ := hvisit b depth before middle hfirst
    obtain ⟨forest', hforest', hbs⟩ := foldlM_visits hvisit hrest
    refine ⟨forest.append forest', ?_, fun c hc => ?_⟩
    · exact (hforest.widen fun c hc => hc ▸ List.mem_cons_self).append
        (hforest'.widen fun c hc => List.mem_cons_of_mem _ hc)
    · rcases List.mem_cons.mp hc with heq | hc
      · rw [heq]
        exact (hforest'.seen b).mpr (.inl hb)
      · exact hbs c hc

/-- A visit is that of a forest, and its node is seen afterwards. -/
theorem visit_visits : ∀ {fuel : ℕ} {a : α} {depth : ℕ} {before after : State α},
    visit next fuel a depth before = some after →
    ∃ forest, Visits next (· = a) depth before after forest ∧ a ∈ after.1 := by
  intro fuel
  induction fuel with
  | zero =>
    intro a depth before after h
    cases h
  | succ fuel ih =>
    rintro a depth ⟨seen, order⟩ after h
    rw [visit] at h
    by_cases ha : a ∈ seen
    · rw [if_pos ha] at h
      have heq : (seen, order) = after := Option.some.inj h
      rw [← heq]
      exact ⟨.nil, visits_nil next _ depth _, ha⟩
    · rw [if_neg ha] at h
      obtain ⟨forest, hforest, hnext⟩ := foldlM_visits (fun _ _ _ _ => ih) h
      refine ⟨.cons a forest .nil, hforest.root ha hnext, (hforest.seen a).mpr (.inl ?_)⟩
      exact Finset.mem_insert_self a seen

/-! ### Fuel -/

/-- A fold succeeds if each visit does; what is seen only grows. -/
theorem exists_foldlM {area : Finset α}
    (hvisit : ∀ (a : α) (depth : ℕ) (before : State α), a ∈ area →
      (area \ before.1).card < fuel → ∃ after, visit next fuel a depth before = some after) :
    ∀ {bs : List α} {depth : ℕ} {before : State α}, (∀ b ∈ bs, b ∈ area) →
      (area \ before.1).card < fuel →
      ∃ after, bs.foldlM (fun state b => visit next fuel b depth state) before = some after
  | [], _, before, _, _ => ⟨before, rfl⟩
  | b :: bs, depth, before, hbs, hfuel => by
    obtain ⟨middle, hfirst⟩ := hvisit b depth before (hbs b List.mem_cons_self) hfuel
    obtain ⟨forest, hforest, -⟩ := visit_visits hfirst
    have hsub : area \ middle.1 ⊆ area \ before.1 :=
      Finset.sdiff_subset_sdiff le_rfl fun x hx => (hforest.seen x).mpr (.inl hx)
    have hle := Finset.card_le_card hsub
    have hrest : ∃ after, bs.foldlM (fun state b => visit next fuel b depth state) middle = some after :=
      exists_foldlM hvisit (fun c hc => hbs c (List.mem_cons_of_mem _ hc)) (lt_of_le_of_lt hle hfuel)
    obtain ⟨after, hafter⟩ := hrest
    refine ⟨after, ?_⟩
    rw [List.foldlM_cons]
    exact Option.bind_eq_some_iff.mpr ⟨middle, hfirst, hafter⟩

end

/-- Fuel for each node that is not seen yet is enough. -/
theorem exists_visit {area : Finset α} (hclosed : ∀ x ∈ area, ∀ y ∈ next x, y ∈ area) :
    ∀ {fuel : ℕ} {a : α} {depth : ℕ} {before : State α}, a ∈ area →
      (area \ before.1).card < fuel → ∃ after, visit next fuel a depth before = some after := by
  intro fuel
  induction fuel with
  | zero =>
    intro a depth before _ hfuel
    exact absurd hfuel (Nat.not_lt_zero _)
  | succ fuel ih =>
    rintro a depth ⟨seen, order⟩ ha hfuel
    rw [visit]
    by_cases hseen : a ∈ seen
    · rw [if_pos hseen]
      exact ⟨_, rfl⟩
    · rw [if_neg hseen]
      have hlt : (area \ insert a seen).card < (area \ seen).card := by
        refine Finset.card_lt_card (Finset.ssubset_iff_subset_ne.mpr ⟨?_, fun heq => ?_⟩)
        · exact Finset.sdiff_subset_sdiff le_rfl (Finset.subset_insert a seen)
        · have hmem : a ∈ area \ insert a seen := heq ▸ Finset.mem_sdiff.mpr ⟨ha, hseen⟩
          exact (Finset.mem_sdiff.mp hmem).2 (Finset.mem_insert_self a seen)
      have hfuel' : (area \ seen).card < fuel + 1 := hfuel
      refine exists_foldlM (fun _ _ _ => ih) (hclosed a ha) ?_
      show (area \ insert a seen).card < fuel
      omega

/-- More fuel gives the same result. -/
theorem visit_succ : ∀ {fuel : ℕ} {a : α} {depth : ℕ} {before after : State α},
    visit next fuel a depth before = some after → visit next (fuel + 1) a depth before = some after := by
  intro fuel
  induction fuel with
  | zero =>
    intro a depth before after h
    cases h
  | succ fuel ih =>
    rintro a depth ⟨seen, order⟩ after h
    rw [visit] at h ⊢
    by_cases ha : a ∈ seen
    · rw [if_pos ha] at h ⊢
      exact h
    · rw [if_neg ha] at h ⊢
      have hfold : ∀ (bs : List α) (state : State α),
          bs.foldlM (fun state b => visit next fuel b (depth + 1) state) state = some after →
          bs.foldlM (fun state b => visit next (fuel + 1) b (depth + 1) state) state = some after := by
        intro bs
        induction bs with
        | nil => exact fun _ hnil => hnil
        | cons b bs ihbs =>
          intro state hcons
          rw [List.foldlM_cons] at hcons ⊢
          obtain ⟨middle, hfirst, hrest⟩ := Option.bind_eq_some_iff.mp hcons
          exact Option.bind_eq_some_iff.mpr ⟨middle, ih hfirst, ihbs middle hrest⟩
      exact hfold _ _ h

theorem visit_mono {fuel fuel' : ℕ} (hle : fuel ≤ fuel') {a : α} {before after : State α}
    (h : visit next fuel a depth before = some after) : visit next fuel' a depth before = some after := by
  induction fuel', hle using Nat.le_induction with
  | base => exact h
  | succ fuel' _ ih => exact visit_succ ih

end LightTerminal.Library.Traversal
