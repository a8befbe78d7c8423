import LightTerminal.Library.FiniteMap

/-! # Indexes

A map indexes a set of items by a key if it maps each key to the one item of the set that has it, and
has no other entries. Items come, go and change their key; each operation below keeps its map an
index. -/

namespace LightTerminal.Library.Index

open LightTerminal.Library.FiniteMap

variable {K I : Type} [DecidableEq K]

/-- `m` has, for each item of the set `live`, an entry under its key, and no other entry. -/
def Indexes (m : Map K I) (live : I → Prop) (key : I → K) : Prop :=
  ∀ k i, m.lookup k = some i ↔ live i ∧ key i = k

variable {m : Map K I} {live live' : I → Prop} {key key' : I → K}

/-- The keys of the items are distinct. -/
theorem Indexes.injOn (h : Indexes m live key) {i j : I} (hi : live i) (hj : live j)
    (hkey : key i = key j) : i = j := by
  have hmi := (h (key j) i).mpr ⟨hi, hkey⟩
  have hmj := (h (key j) j).mpr ⟨hj, rfl⟩
  exact Option.some.inj (hmi.symm.trans hmj)

theorem Indexes.mem_iff (h : Indexes m live key) {k : K} : k ∈ m ↔ ∃ i, live i ∧ key i = k := by
  rw [Finmap.mem_iff]
  exact exists_congr fun i => h k i

theorem Indexes.congr (h : Indexes m live key) (hlive : ∀ i, live' i ↔ live i)
    (hkey : ∀ i, live i → key' i = key i) : Indexes m live' key' := by
  intro k i
  rw [h k i, hlive]
  constructor
  · rintro ⟨hi, hk⟩
    exact ⟨hi, (hkey i hi).trans hk⟩
  · rintro ⟨hi, hk⟩
    exact ⟨hi, (hkey i hi).symm.trans hk⟩

/-- A new item under a free key. -/
theorem Indexes.insert (h : Indexes m live key) {k : K} {i : I} (hk : k ∉ m)
    (hlive : ∀ j, live' j ↔ j = i ∨ live j) (hself : key' i = k)
    (hkey : ∀ j, live j → key' j = key j) : Indexes (m.insert k i) live' key' := by
  have hfree : ∀ j, live j → key j ≠ k := fun j hj hjk => hk (h.mem_iff.mpr ⟨j, hj, hjk⟩)
  intro k' j
  rw [lookup_insert, hlive]
  split_ifs with hk'
  · subst hk'
    constructor
    · intro hj
      cases hj
      exact ⟨.inl rfl, hself⟩
    · rintro ⟨rfl | hj, hjk⟩
      · rfl
      · exact absurd ((hkey j hj).symm.trans hjk) (hfree j hj)
  · rw [h k' j]
    constructor
    · rintro ⟨hj, hjk⟩
      exact ⟨.inr hj, (hkey j hj).trans hjk⟩
    · rintro ⟨rfl | hj, hjk⟩
      · exact absurd (hjk.symm.trans hself) hk'
      · exact ⟨hj, (hkey j hj).symm.trans hjk⟩

/-- An item removed. -/
theorem Indexes.erase (h : Indexes m live key) {i : I} (hi : live i)
    (hlive : ∀ j, live' j ↔ j ≠ i ∧ live j) : Indexes (m.erase (key i)) live' key := by
  intro k j
  rw [lookup_erase, hlive]
  split_ifs with hk
  · subst hk
    constructor
    · intro hj
      cases hj
    · rintro ⟨⟨hne, hj⟩, hjk⟩
      exact absurd (h.injOn hj hi hjk) hne
  · rw [h k j]
    constructor
    · rintro ⟨hj, hjk⟩
      refine ⟨⟨?_, hj⟩, hjk⟩
      rintro rfl
      exact hk hjk.symm
    · rintro ⟨⟨-, hj⟩, hjk⟩
      exact ⟨hj, hjk⟩

/-- An item moved to a key that no other item has. -/
theorem Indexes.rekey (h : Indexes m live key) {k : K} {i : I} (hi : live i)
    (hk : ∀ j, m.lookup k = some j → j = i) (hlive : ∀ j, live' j ↔ live j) (hself : key' i = k)
    (hkey : ∀ j, j ≠ i → key' j = key j) :
    Indexes ((m.erase (key i)).insert k i) live' key' := by
  have hrest : Indexes (m.erase (key i)) (fun j => j ≠ i ∧ live j) key := h.erase hi fun _ => Iff.rfl
  refine hrest.insert ?_ (fun j => ?_) hself fun j hj => hkey j hj.1
  · rintro hmem
    obtain ⟨j, ⟨hne, hj⟩, hjk⟩ := hrest.mem_iff.mp hmem
    exact hne (hk j ((h k j).mpr ⟨hj, hjk⟩))
  · rw [hlive]
    by_cases hji : j = i
    · subst hji
      exact ⟨fun _ => .inl rfl, fun _ => hi⟩
    · exact ⟨fun hj => .inr ⟨hji, hj⟩, fun hj => (hj.resolve_left hji).2⟩

end LightTerminal.Library.Index
