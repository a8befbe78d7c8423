import Mathlib.Algebra.BigOperators.Group.Finset.Basic
import Mathlib.Algebra.Order.BigOperators.Group.Finset
import Mathlib.Data.Finmap
import Mathlib.Tactic

/-! # Finite maps

What `Finmap` lacks here: lookups after an update as one case distinction, the number of entries,
`retain`, which keeps the entries that pass a test, `mapValues`, and `total`, the sum of a size over
the values. -/

namespace LightTerminal.Library.FiniteMap

/-- A finite map whose values have one type. -/
abbrev Map (K V : Type) := Finmap fun _ : K => V

variable {K V : Type} [DecidableEq K]

theorem lookup_insert (m : Map K V) (k k' : K) (v : V) :
    (m.insert k v).lookup k' = if k' = k then some v else m.lookup k' := by
  split_ifs with h
  · subst h
    exact Finmap.lookup_insert m
  · exact Finmap.lookup_insert_of_ne m h

theorem lookup_erase (m : Map K V) (k k' : K) :
    (m.erase k).lookup k' = if k' = k then none else m.lookup k' := by
  split_ifs with h
  · subst h
    exact Finmap.lookup_erase k' m
  · exact Finmap.lookup_erase_ne h

/-- The number of entries. -/
def size (m : Map K V) : ℕ := Multiset.card m.entries

omit [DecidableEq K] in
theorem size_eq_card_keys (m : Map K V) : size m = m.keys.card := by
  unfold size Finmap.keys
  rw [Finset.card_mk, Multiset.keys, Multiset.card_map]

theorem keys_insert (m : Map K V) (k : K) (v : V) :
    (m.insert k v).keys = insert k m.keys := by
  ext k'
  simp only [Finmap.mem_keys, Finmap.mem_insert, Finset.mem_insert]

theorem size_insert {m : Map K V} {k : K} (h : k ∉ m) (v : V) :
    size (m.insert k v) = size m + 1 := by
  rw [size_eq_card_keys, size_eq_card_keys, keys_insert, Finset.card_insert_of_notMem]
  rwa [Finmap.mem_keys]

theorem size_insert_of_mem {m : Map K V} {k : K} (h : k ∈ m) (v : V) :
    size (m.insert k v) = size m := by
  rw [size_eq_card_keys, size_eq_card_keys, keys_insert, Finset.insert_eq_of_mem]
  rwa [Finmap.mem_keys]

theorem size_insert_le (m : Map K V) (k : K) (v : V) : size (m.insert k v) ≤ size m + 1 := by
  rw [size_eq_card_keys, size_eq_card_keys, keys_insert]
  exact Finset.card_insert_le k m.keys

theorem size_erase_le (m : Map K V) (k : K) : size (m.erase k) ≤ size m := by
  rw [size_eq_card_keys, size_eq_card_keys, Finmap.keys_erase]
  exact Finset.card_erase_le

theorem size_erase_of_mem {m : Map K V} {k : K} (h : k ∈ m) : size (m.erase k) + 1 = size m := by
  rw [size_eq_card_keys, size_eq_card_keys, Finmap.keys_erase]
  exact Finset.card_erase_add_one (Finmap.mem_keys.mpr h)

/-- The map without an entry that may not be named. -/
def eraseSome (m : Map K V) : Option K → Map K V
  | none => m
  | some k => m.erase k

theorem lookup_of_eraseSome {m : Map K V} {gone : Option K} {k : K} {v : V}
    (h : (eraseSome m gone).lookup k = some v) : m.lookup k = some v := by
  rcases gone with _ | k₀
  · exact h
  · have herase : (m.erase k₀).lookup k = some v := h
    rw [lookup_erase] at herase
    split_ifs at herase
    exact herase

theorem mem_of_eraseSome {m : Map K V} {gone : Option K} {k : K} (h : k ∈ eraseSome m gone) : k ∈ m := by
  obtain ⟨v, hv⟩ := Finmap.mem_iff.mp h
  exact Finmap.mem_iff.mpr ⟨v, lookup_of_eraseSome hv⟩

theorem size_eraseSome_le (m : Map K V) : ∀ gone, size (eraseSome m gone) ≤ size m
  | none => le_rfl
  | some k => size_erase_le m k

/-- `HashMap::retain`. -/
def retain (keep : K → V → Bool) (m : Map K V) : Map K V :=
  ⟨m.entries.filter fun e => keep e.1 e.2, by
    have hle : Multiset.keys (m.entries.filter fun e => keep e.1 e.2) ≤ m.entries.keys :=
      Multiset.map_le_map (Multiset.filter_le _ _)
    exact Multiset.nodup_keys.mp (Multiset.nodup_of_le hle (Multiset.nodup_keys.mpr m.nodupKeys))⟩

omit [DecidableEq K] in
theorem mem_entries_retain {keep : K → V → Bool} {m : Map K V} {e : Sigma fun _ : K => V} :
    e ∈ (retain keep m).entries ↔ e ∈ m.entries ∧ keep e.1 e.2 = true :=
  Multiset.mem_filter

theorem lookup_retain {keep : K → V → Bool} {m : Map K V} {k : K} {v : V} :
    (retain keep m).lookup k = some v ↔ m.lookup k = some v ∧ keep k v = true := by
  rw [Finmap.lookup_eq_some_iff, Finmap.lookup_eq_some_iff, mem_entries_retain]

/-- The map with every value replaced by its image. -/
def mapValues {W : Type} (f : V → W) (m : Map K V) : Map K W :=
  ⟨m.entries.map fun e => ⟨e.1, f e.2⟩, by
    have hkeys : Multiset.keys (m.entries.map fun e => (⟨e.1, f e.2⟩ : Sigma fun _ : K => W)) =
        m.entries.keys := Multiset.map_map _ _ _
    exact Multiset.nodup_keys.mp (hkeys ▸ Multiset.nodup_keys.mpr m.nodupKeys)⟩

theorem lookup_mapValues {W : Type} (f : V → W) (m : Map K V) (k : K) :
    (mapValues f m).lookup k = (m.lookup k).map f := by
  ext w
  rw [Option.map_eq_some_iff, Finmap.lookup_eq_some_iff]
  show (⟨k, w⟩ : Sigma fun _ : K => W) ∈ m.entries.map (fun e => ⟨e.1, f e.2⟩) ↔ _
  rw [Multiset.mem_map]
  constructor
  · rintro ⟨⟨k', v⟩, hmem, heq⟩
    cases heq
    exact ⟨v, Finmap.lookup_eq_some_iff.mpr hmem, rfl⟩
  · rintro ⟨v, hv, rfl⟩
    exact ⟨⟨k, v⟩, Finmap.lookup_eq_some_iff.mp hv, rfl⟩

/-- `map.values().map(f).sum()`. -/
def total (f : V → ℕ) (m : Map K V) : ℕ := (m.entries.map fun e => f e.2).sum

/-- A bound on every value is one on the total. -/
theorem mul_total_le {f g : V → ℕ} {m : Map K V} {c : ℕ}
    (h : ∀ k v, m.lookup k = some v → c * g v ≤ f v) : c * total g m ≤ total f m := by
  unfold total
  rw [← Multiset.sum_map_mul_left]
  exact Multiset.sum_map_le_sum_map _ _ fun e he => h e.1 e.2 (Finmap.lookup_eq_some_iff.mpr he)

omit [DecidableEq K] in
theorem total_one (m : Map K V) : total (fun _ => 1) m = size m := by
  simp [total, size]

/-- The total, key by key. -/
theorem total_eq_sum (f : V → ℕ) (m : Map K V) :
    total f m = ∑ k ∈ m.keys, (m.lookup k).elim 0 f := by
  unfold total Finset.sum Finmap.keys Multiset.keys
  rw [Multiset.map_map]
  refine congrArg Multiset.sum (Multiset.map_congr rfl fun e he => ?_)
  rw [Function.comp_apply, Finmap.lookup_eq_some_iff.mpr he, Option.elim_some]

/-- An update adds the new value and takes the old one away. -/
theorem total_insert (f : V → ℕ) (m : Map K V) (k : K) (v : V) :
    total f (m.insert k v) + (m.lookup k).elim 0 f = total f m + f v := by
  have hrest : ∑ k' ∈ m.keys.erase k, ((m.insert k v).lookup k').elim 0 f =
      ∑ k' ∈ m.keys.erase k, (m.lookup k').elim 0 f := by
    refine Finset.sum_congr rfl fun k' hk' => ?_
    rw [lookup_insert, if_neg (Finset.ne_of_mem_erase hk')]
  have hnew : total f (m.insert k v) =
      f v + ∑ k' ∈ m.keys.erase k, (m.lookup k').elim 0 f := by
    rw [total_eq_sum, keys_insert, ← Finset.add_sum_erase _ _ (Finset.mem_insert_self k m.keys),
      Finset.erase_insert_eq_erase, hrest, lookup_insert, if_pos rfl, Option.elim_some]
  have hold : total f m = (m.lookup k).elim 0 f +
      ∑ k' ∈ m.keys.erase k, (m.lookup k').elim 0 f := by
    rw [total_eq_sum]
    by_cases hk : k ∈ m.keys
    · exact (Finset.add_sum_erase _ _ hk).symm
    · have hnone : m.lookup k = none := Finmap.lookup_eq_none.mpr (by rwa [← Finmap.mem_keys])
      rw [Finset.erase_eq_of_notMem hk, hnone, Option.elim_none, Nat.zero_add]
  omega

theorem total_le_of_lookup {f : V → ℕ} {m m' : Map K V}
    (h : ∀ k v, m.lookup k = some v → ∃ v', m'.lookup k = some v' ∧ f v ≤ f v') :
    total f m ≤ total f m' := by
  rw [total_eq_sum, total_eq_sum]
  have hkeys : m.keys ⊆ m'.keys := by
    intro k hk
    rw [Finmap.mem_keys, Finmap.mem_iff] at hk ⊢
    obtain ⟨v, hv⟩ := hk
    obtain ⟨v', hv', -⟩ := h k v hv
    exact ⟨v', hv'⟩
  refine le_trans (Finset.sum_le_sum fun k hk => ?_)
    (Finset.sum_le_sum_of_subset hkeys)
  rw [Finmap.mem_keys, Finmap.mem_iff] at hk
  obtain ⟨v, hv⟩ := hk
  obtain ⟨v', hv', hle⟩ := h k v hv
  rw [hv, hv', Option.elim_some, Option.elim_some]
  exact hle

/-- `map.values().filter(test).count()`. -/
def countValues (test : V → Bool) (m : Map K V) : ℕ := size (retain (fun _ v => test v) m)

theorem size_le_of_lookup {m m' : Map K V}
    (h : ∀ k v, m.lookup k = some v → ∃ v', m'.lookup k = some v') : size m ≤ size m' := by
  rw [size_eq_card_keys, size_eq_card_keys]
  refine Finset.card_le_card fun k hk => ?_
  rw [Finmap.mem_keys, Finmap.mem_iff] at hk ⊢
  obtain ⟨v, hv⟩ := hk
  exact h k v hv

theorem countValues_le_of_lookup {test : V → Bool} {m m' : Map K V}
    (h : ∀ k v, m.lookup k = some v → test v = true →
      ∃ v', m'.lookup k = some v' ∧ test v' = true) :
    countValues test m ≤ countValues test m' := by
  refine size_le_of_lookup fun k v hv => ?_
  obtain ⟨hv, htest⟩ := lookup_retain.mp hv
  obtain ⟨v', hv', htest'⟩ := h k v hv htest
  exact ⟨v', lookup_retain.mpr ⟨hv', htest'⟩⟩

theorem countValues_insert_le (test : V → Bool) (m : Map K V) (k : K) (v : V) :
    countValues test (m.insert k v) ≤ countValues test m + if test v then 1 else 0 := by
  split_ifs with hv
  · refine le_trans (size_le_of_lookup fun k' v' h => ?_) (size_insert_le _ k v)
    rw [lookup_retain, lookup_insert] at h
    rw [lookup_insert]
    split_ifs at h ⊢ with hk
    · exact ⟨v, rfl⟩
    · exact ⟨v', lookup_retain.mpr h⟩
  · refine countValues_le_of_lookup fun k' v' h htest => ?_
    rw [lookup_insert] at h
    split_ifs at h with hk
    · cases h
      exact absurd htest hv
    · exact ⟨v', h, htest⟩

end LightTerminal.Library.FiniteMap
