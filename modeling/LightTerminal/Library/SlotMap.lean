import LightTerminal.Library.FiniteMap

/-! # Maps with slots

The values of a map have a slot each, and a second map leads from a slot back to the key. `Inverse` says
that the second map leads to exactly the keys of the first: then no two keys share a slot (`Inverse.injOn`).

Two operations keep it: a slot is vacated with the key that it leads to (`Inverse.evict`), and a key is put
in a vacant slot and leaves the slot it had (`Inverse.put`). -/

namespace LightTerminal.Library.SlotMap

open LightTerminal.Library.FiniteMap

variable {K V S : Type} [DecidableEq K] [DecidableEq S]

/-- `keys` leads from the slot of each entry of `entries` to its key, and from no other slot. -/
def Inverse (slot : V → S) (entries : Map K V) (keys : Map S K) : Prop :=
  ∀ s k, keys.lookup s = some k ↔ ∃ v, entries.lookup k = some v ∧ slot v = s

variable {slot : V → S} {entries : Map K V} {keys : Map S K}

theorem inverse_empty (slot : V → S) : Inverse slot (∅ : Map K V) ∅ := by
  intro s k
  simp

theorem Inverse.injOn (h : Inverse slot entries keys) {k k' : K} {v v' : V}
    (hv : entries.lookup k = some v) (hv' : entries.lookup k' = some v') (hslot : slot v = slot v') :
    k = k' := by
  have hk : keys.lookup (slot v) = some k := (h _ _).mpr ⟨v, hv, rfl⟩
  have hk' : keys.lookup (slot v) = some k' := (h _ _).mpr ⟨v', hv', hslot.symm⟩
  exact Option.some.inj (hk.symm.trans hk')

theorem Inverse.mem (h : Inverse slot entries keys) {s : S} {k : K} (hk : keys.lookup s = some k) :
    k ∈ entries := by
  obtain ⟨v, hv, -⟩ := (h s k).mp hk
  exact Finmap.mem_iff.mpr ⟨v, hv⟩

/-- A slot is vacated, with its key. -/
theorem Inverse.evict (h : Inverse slot entries keys) (s : S) :
    Inverse slot (eraseSome entries (keys.lookup s)) (keys.erase s) := by
  intro s' k
  rw [lookup_erase]
  rcases hs : keys.lookup s with _ | k₀
  · show _ ↔ ∃ v, entries.lookup k = some v ∧ slot v = s'
    rw [← h s' k]
    by_cases heq : s' = s
    · rw [if_pos heq, heq, hs]
    · rw [if_neg heq]
  · obtain ⟨v₀, hv₀, hslot₀⟩ := (h s k₀).mp hs
    show _ ↔ ∃ v, (entries.erase k₀).lookup k = some v ∧ slot v = s'
    rw [lookup_erase]
    by_cases hk : k = k₀
    · -- the slot of the key that goes is `s`
      rw [if_pos hk]
      constructor
      · intro hlook
        split_ifs at hlook with heq
        obtain ⟨v, hv, hslot⟩ := (h s' k).mp hlook
        have hsame : v = v₀ := Option.some.inj (hv.symm.trans (hk ▸ hv₀))
        exact absurd (hslot.symm.trans (hsame ▸ hslot₀)) heq
      · rintro ⟨v, hv, -⟩
        cases hv
    · rw [if_neg hk, ← h s' k]
      split_ifs with heq
      · constructor
        · intro hlook
          cases hlook
        · intro hlook
          rw [heq, hs] at hlook
          exact absurd (Option.some.inj hlook).symm hk
      · rfl

/-- A key is put in a vacant slot. -/
theorem Inverse.put (h : Inverse slot entries keys) {s : S} {k : K} {v : V} (hs : keys.lookup s = none)
    (hv : slot v = s) :
    Inverse slot (entries.insert k v)
      ((eraseSome keys ((entries.lookup k).map slot)).insert s k) := by
  intro s' k'
  rw [FiniteMap.lookup_insert, FiniteMap.lookup_insert]
  -- what the vacated slot led to is `k` alone
  have hleft : (eraseSome keys ((entries.lookup k).map slot)).lookup s' = some k' ↔
      k' ≠ k ∧ keys.lookup s' = some k' := by
    rcases hk : entries.lookup k with _ | v₀
    · show keys.lookup s' = some k' ↔ _
      constructor
      · intro hlook
        refine ⟨?_, hlook⟩
        rintro rfl
        obtain ⟨w, hw, -⟩ := (h s' k').mp hlook
        rw [hk] at hw
        cases hw
      · exact fun hlook => hlook.2
    · show (keys.erase (slot v₀)).lookup s' = some k' ↔ _
      rw [lookup_erase]
      have hold : keys.lookup (slot v₀) = some k := (h _ _).mpr ⟨v₀, hk, rfl⟩
      split_ifs with heq
      · constructor
        · intro hlook
          cases hlook
        · rintro ⟨hne, hlook⟩
          rw [heq, hold] at hlook
          exact absurd (Option.some.inj hlook).symm hne
      · constructor
        · intro hlook
          refine ⟨?_, hlook⟩
          rintro rfl
          obtain ⟨w, hw, hslot⟩ := (h s' k').mp hlook
          have hsame : w = v₀ := Option.some.inj (hw.symm.trans hk)
          exact heq (hsame ▸ hslot.symm)
        · exact fun hlook => hlook.2
  by_cases heq : s' = s
  · rw [if_pos heq]
    split_ifs with hk
    · rw [hk]
      exact ⟨fun _ => ⟨v, rfl, hv.trans heq.symm⟩, fun _ => rfl⟩
    · constructor
      · intro hlook
        exact absurd (Option.some.inj hlook).symm hk
      · rintro ⟨w, hw, hslot⟩
        have hlook : keys.lookup s' = some k' := (h s' k').mpr ⟨w, hw, hslot⟩
        rw [heq, hs] at hlook
        cases hlook
  · rw [if_neg heq, hleft]
    split_ifs with hk
    · constructor
      · exact fun hlook => absurd hk hlook.1
      · rintro ⟨w, hw, hslot⟩
        cases hw
        exact absurd (hslot.symm.trans hv) heq
    · rw [← h s' k']
      exact ⟨fun hlook => hlook.2, fun hlook => ⟨hk, hlook⟩⟩

/-- Slots below a bound bound the number of entries. -/
theorem Inverse.size_le {slot : V → ℕ} {entries : Map K V} {keys : Map ℕ K}
    (h : Inverse slot entries keys) {n : ℕ} (hslot : ∀ k v, entries.lookup k = some v → slot v < n) :
    size entries ≤ n := by
  have hmem : ∀ k ∈ entries.keys, ∃ v, entries.lookup k = some v := fun k hk =>
    Finmap.mem_iff.mp (Finmap.mem_keys.mp hk)
  have hcard : entries.keys.card ≤ (Finset.range n).card := by
    refine Finset.card_le_card_of_injOn (fun k => (entries.lookup k).elim 0 slot) ?_ ?_
    · intro k hk
      obtain ⟨v, hv⟩ := hmem k hk
      show (entries.lookup k).elim 0 slot ∈ (Finset.range n : Set ℕ)
      rw [hv, Option.elim_some, Finset.mem_coe, Finset.mem_range]
      exact hslot k v hv
    · intro k hk k' hk' heq
      obtain ⟨v, hv⟩ := hmem k hk
      obtain ⟨v', hv'⟩ := hmem k' hk'
      have heq' : slot v = slot v' := by
        simpa only [hv, hv', Option.elim_some] using heq
      exact h.injOn hv hv' heq'
  rw [size_eq_card_keys]
  rwa [Finset.card_range] at hcard

end LightTerminal.Library.SlotMap
