import Mathlib.Data.List.Sort
import Mathlib.Tactic

/-! # Maps in the order of their keys

A `BTreeMap` is the list of its entries with the keys strictly increasing. `entry` is the update that
groups values by key: it changes the value under a key, which starts as a default if the key is new.
Two strictly sorted lists with the same members are one list, so what is read off in key order depends
on the lookups alone. -/

namespace LightTerminal.Library.OrderedMap

variable {K V : Type} [LinearOrder K]

/-- The first value under `key`. -/
def lookup (key : K) : List (K × V) → Option V
  | [] => none
  | (k, v) :: rest => if key = k then some v else lookup key rest

/-- The entries with the value under `key` updated, or added in its place. -/
def update (key : K) (initial : V) (f : V → V) : List (K × V) → List (K × V)
  | [] => [(key, f initial)]
  | (k, v) :: rest =>
    if key < k then (key, f initial) :: (k, v) :: rest
    else if key = k then (k, f v) :: rest
    else (k, v) :: update key initial f rest

/-- The keys are strictly increasing. -/
def Sorted (entries : List (K × V)) : Prop := entries.Pairwise fun a b => a.1 < b.1

variable {entries : List (K × V)} {key k : K} {initial v : V} {f : V → V}

theorem lookup_eq_none (h : ∀ e ∈ entries, key < e.1) : lookup key entries = none := by
  induction entries with
  | nil => rfl
  | cons e rest ih =>
    have he : key ≠ e.1 := ne_of_lt (h e List.mem_cons_self)
    rw [lookup, if_neg he]
    exact ih fun e' he' => h e' (List.mem_cons_of_mem _ he')

theorem mem_iff_lookup (h : Sorted entries) : (k, v) ∈ entries ↔ lookup k entries = some v := by
  induction entries with
  | nil => simp [lookup]
  | cons e rest ih =>
    obtain ⟨hlt, hrest⟩ := List.pairwise_cons.mp h
    obtain ⟨k', v'⟩ := e
    rw [List.mem_cons, lookup, Prod.mk.injEq]
    split_ifs with hk
    · subst hk
      have hnot : (k, v) ∉ rest := fun hmem => lt_irrefl k (hlt (k, v) hmem)
      simp [hnot, eq_comm]
    · simp [hk, ih hrest]

/-- The keys after an update: those before, and `key`. -/
theorem mem_update_key {e : K × V} (he : e ∈ update key initial f entries) :
    e.1 = key ∨ ∃ e' ∈ entries, e'.1 = e.1 := by
  induction entries with
  | nil =>
    rw [update, List.mem_singleton] at he
    exact .inl (by rw [he])
  | cons e' rest ih =>
    obtain ⟨k', v'⟩ := e'
    rw [update] at he
    split_ifs at he with hlt heq
    · rcases List.mem_cons.mp he with rfl | he
      · exact .inl rfl
      · exact .inr ⟨e, he, rfl⟩
    · rcases List.mem_cons.mp he with rfl | he
      · exact .inl heq.symm
      · exact .inr ⟨e, List.mem_cons_of_mem _ he, rfl⟩
    · rcases List.mem_cons.mp he with rfl | he
      · exact .inr ⟨_, List.mem_cons_self, rfl⟩
      · rcases ih he with h | ⟨e'', he'', h⟩
        · exact .inl h
        · exact .inr ⟨e'', List.mem_cons_of_mem _ he'', h⟩

theorem Sorted.update (h : Sorted entries) :
    Sorted (OrderedMap.update key initial f entries) := by
  induction entries with
  | nil => simp [OrderedMap.update, Sorted]
  | cons e rest ih =>
    obtain ⟨hlt, hrest⟩ := List.pairwise_cons.mp h
    obtain ⟨k', v'⟩ := e
    rw [OrderedMap.update]
    split_ifs with hk heq
    · refine List.pairwise_cons.mpr ⟨fun e he => ?_, h⟩
      rcases List.mem_cons.mp he with rfl | he
      · exact hk
      · exact hk.trans (hlt e he)
    · exact List.pairwise_cons.mpr ⟨hlt, hrest⟩
    · refine List.pairwise_cons.mpr ⟨fun e he => ?_, ih hrest⟩
      rcases mem_update_key he with hkey | ⟨e', he', hkey⟩
      · rw [hkey]
        exact lt_of_le_of_ne (not_lt.mp hk) (Ne.symm heq)
      · rw [← hkey]
        exact hlt e' he'

theorem lookup_update (h : Sorted entries) :
    lookup k (update key initial f entries) =
      if k = key then some (f ((lookup key entries).getD initial)) else lookup k entries := by
  induction entries with
  | nil => simp [update, lookup]
  | cons e rest ih =>
    obtain ⟨hlt, hrest⟩ := List.pairwise_cons.mp h
    obtain ⟨k', v'⟩ := e
    rw [update]
    by_cases hkey : k = key <;> split_ifs with hk heq
    · have hnone : lookup key ((k', v') :: rest) = none := by
        refine lookup_eq_none fun e he => ?_
        rcases List.mem_cons.mp he with rfl | he
        · exact hk
        · exact hk.trans (hlt e he)
      rw [lookup, if_pos hkey, hnone, Option.getD_none]
    · rw [lookup, if_pos (hkey.trans heq), lookup, if_pos heq, Option.getD_some]
    · subst hkey
      rw [lookup, if_neg heq, ih hrest, if_pos rfl, lookup, if_neg heq]
    · rw [lookup, if_neg hkey]
    · rw [lookup, lookup, if_neg (heq ▸ hkey), if_neg (heq ▸ hkey)]
    · rw [lookup, lookup, ih hrest, if_neg hkey]

theorem Sorted.filter (h : Sorted entries) (p : K × V → Bool) : Sorted (entries.filter p) :=
  List.Pairwise.sublist List.filter_sublist h

theorem lookup_filter_key (keep : K → Bool) :
    lookup k (entries.filter fun e => keep e.1) = if keep k then lookup k entries else none := by
  induction entries with
  | nil => simp [lookup]
  | cons e rest ih =>
    obtain ⟨k', v'⟩ := e
    rw [List.filter_cons, lookup]
    by_cases hk : k = k'
    · subst hk
      by_cases hkeep : keep k = true
      · rw [if_pos hkeep, if_pos hkeep, lookup, if_pos rfl, if_pos rfl]
      · rw [if_neg hkeep, ih, if_neg hkeep, if_neg hkeep]
    · rw [if_neg hk]
      by_cases hkeep : keep k' = true
      · rw [if_pos hkeep, lookup, if_neg hk, ih]
      · rw [if_neg hkeep, ih]

end LightTerminal.Library.OrderedMap

namespace LightTerminal.Library

/-- A map that is iterated in the order of its keys. -/
structure OrderedMap (K V : Type) [LinearOrder K] where
  entries : List (K × V)
  sorted : OrderedMap.Sorted entries

namespace OrderedMap

variable {K V : Type} [LinearOrder K]

/-- `BTreeMap::new`. -/
def empty : OrderedMap K V := ⟨[], List.Pairwise.nil⟩

/-- `BTreeMap::get`. -/
def get (m : OrderedMap K V) (key : K) : Option V := lookup key m.entries

/-- `*map.entry(key).or_insert(initial)`, changed by `f`. -/
def entry (m : OrderedMap K V) (key : K) (initial : V) (f : V → V) : OrderedMap K V :=
  ⟨update key initial f m.entries, m.sorted.update⟩

/-- `BTreeMap::insert`. -/
def insert (m : OrderedMap K V) (key : K) (v : V) : OrderedMap K V := m.entry key v fun _ => v

/-- `BTreeMap::remove`. -/
def remove (m : OrderedMap K V) (key : K) : OrderedMap K V :=
  ⟨m.entries.filter fun e => decide (e.1 ≠ key), m.sorted.filter _⟩

/-- `BTreeMap::keys`. -/
def keys (m : OrderedMap K V) : List K := m.entries.map (·.1)

@[simp] theorem get_empty (key : K) : (empty : OrderedMap K V).get key = none := rfl

theorem get_entry (m : OrderedMap K V) (key k : K) (initial : V) (f : V → V) :
    (m.entry key initial f).get k =
      if k = key then some (f ((m.get key).getD initial)) else m.get k :=
  lookup_update m.sorted

theorem mem_entries (m : OrderedMap K V) {key : K} {v : V} :
    (key, v) ∈ m.entries ↔ m.get key = some v :=
  mem_iff_lookup m.sorted

theorem get_insert (m : OrderedMap K V) (key k : K) (v : V) :
    (m.insert key v).get k = if k = key then some v else m.get k := get_entry m key k v _

theorem get_remove (m : OrderedMap K V) (key k : K) :
    (m.remove key).get k = if k = key then none else m.get k := by
  have hlookup : (m.remove key).get k = if decide (k ≠ key) = true then m.get k else none :=
    lookup_filter_key fun k => decide (k ≠ key)
  rw [hlookup]
  by_cases hk : k = key
  · simp [hk]
  · simp [hk]

theorem mem_keys (m : OrderedMap K V) {key : K} : key ∈ m.keys ↔ (m.get key).isSome = true := by
  rw [Option.isSome_iff_exists]
  constructor
  · intro hmem
    obtain ⟨⟨k, v⟩, he, rfl⟩ := List.mem_map.mp hmem
    exact ⟨v, m.mem_entries.mp he⟩
  · rintro ⟨v, hget⟩
    exact List.mem_map.mpr ⟨(key, v), m.mem_entries.mpr hget, rfl⟩

end OrderedMap

end LightTerminal.Library
