import LightTerminal.LaunchRegistry.Writes

/-! # The protocol of a slot, over whole runs

`Follows` is what holds between two records of a slot, however many operations, failures and crashes
lie between them: generations do not decrease, and within one generation the stages of a launch follow
one another, with one nonce, one owner and at most one process identity.

* `Move.follows`: one write;
* `Effects.follows`: one operation;
* `slot_protocol`: every run, and the writes of each operation in it;
* `owners_unique`: no owner is recorded in two slots. -/

namespace LightTerminal.LaunchRegistry.Protocol

open LightTerminal.Data.Text LightTerminal.Library
open LightTerminal.LaunchRegistry.Record LightTerminal.LaunchRegistry.Store
open LightTerminal.LaunchRegistry.Operations LightTerminal.LaunchRegistry.Writes

/-- The stages of one generation, from the intent to the vacant slot that is left of it. -/
def stage : SlotState → ℕ
  | .intentDurable _ _ => 0
  | .identityDurable _ _ _ => 1
  | .cleanupPending _ _ _ => 2
  | .resolvedTombstone _ _ _ => 3
  | .vacant => 4

/-- What holds between a record of a slot and a later one. -/
structure Follows (r r' : SlotRecord) : Prop where
  generation : r.generation ≤ r'.generation
  stage : r'.generation = r.generation → stage r.state ≤ stage r'.state
  nonce : r'.generation = r.generation → r'.state ≠ .vacant → r'.state.nonce = r.state.nonce
  owner : r'.generation = r.generation → r'.state ≠ .vacant → r'.owner = r.owner
  identity : r'.generation = r.generation → r'.state ≠ .vacant →
    ∀ identity, r.state.identity = some identity → r'.state.identity = some identity
  tombstone : r'.generation = r.generation → r'.state ≠ .vacant → r.state.isTombstone = true →
    r'.state = r.state

theorem Follows.refl (r : SlotRecord) : Follows r r :=
  ⟨Nat.le_refl _, fun _ => Nat.le_refl _, fun _ _ => rfl, fun _ _ => rfl, fun _ _ _ h => h,
    fun _ _ _ => rfl⟩

theorem stage_vacant {state : SlotState} (h : 4 ≤ stage state) : state = .vacant := by
  cases state with
  | vacant => rfl
  | _ =>
    simp only [stage] at h
    omega

theorem Follows.trans {a b c : SlotRecord} (h : Follows a b) (h' : Follows b c) : Follows a c := by
  have hsame : c.generation = a.generation → b.generation = a.generation ∧
      c.generation = b.generation := by
    intro heq
    have hab := h.generation
    have hbc := h'.generation
    omega
  -- a slot that is vacant stays so for the rest of the generation
  have hoccupied : c.generation = b.generation → c.state ≠ .vacant → b.state ≠ .vacant := by
    intro heq hc hb
    have hstage := h'.stage heq
    rw [hb] at hstage
    exact hc (stage_vacant hstage)
  refine ⟨h.generation.trans h'.generation, fun heq => ?_, fun heq hc => ?_, fun heq hc => ?_,
    fun heq hc i hi => ?_, fun heq hc ht => ?_⟩
  all_goals obtain ⟨hab, hbc⟩ := hsame heq
  · exact (h.stage hab).trans (h'.stage hbc)
  · exact (h'.nonce hbc hc).trans (h.nonce hab (hoccupied hbc hc))
  · exact (h'.owner hbc hc).trans (h.owner hab (hoccupied hbc hc))
  · exact h'.identity hbc hc i (h.identity hab (hoccupied hbc hc) i hi)
  · have hb := h.tombstone hab (hoccupied hbc hc) ht
    exact (h'.tombstone hbc hc (by rw [hb]; exact ht)).trans hb

/-! ### One write -/

/-- The next state of a launch. -/
theorem follows_advance {before : SlotRecord} {state : SlotState}
    (hstage : stage before.state < stage state) (hnonce : state.nonce = before.state.nonce)
    (hidentity : ∀ identity, before.state.identity = some identity →
      state.identity = some identity)
    (htombstone : before.state.isTombstone = false) : Follows before { before with state } where
  generation := Nat.le_refl _
  stage _ := hstage.le
  nonce _ _ := hnonce
  owner _ _ := rfl
  identity _ _ := hidentity
  tombstone _ _ ht := by
    rw [htombstone] at ht
    cases ht

theorem Move.follows {clock : Option ℕ} {before after : SlotRecord} (h : Move clock before after) :
    Follows before after := by
  cases h with
  | launch hstate hbound =>
    have hne : before.generation + 1 ≠ before.generation := by omega
    exact ⟨Nat.le_succ _, fun heq => absurd heq hne, fun heq => absurd heq hne,
      fun heq => absurd heq hne, fun heq => absurd heq hne, fun heq => absurd heq hne⟩
  | identify hstate | cleanup hstate | resolve hstate | abandon hstate =>
    apply follows_advance
    · simp [stage, hstate]
    · simp [SlotState.nonce, hstate]
    · simp [SlotState.identity, hstate]
    · simp [SlotState.isTombstone, hstate]
  | reclaim hstate hbinding hclock hage =>
    have hstage : stage before.state ≤ stage .vacant := by simp [stage, hstate]
    exact ⟨Nat.le_refl _, fun _ => hstage, fun _ hv => absurd rfl hv,
      fun _ hv => absurd rfl hv, fun _ hv => absurd rfl hv, fun _ hv => absurd rfl hv⟩
  | rebind hstate => exact ⟨Nat.le_refl _, fun _ => Nat.le_refl _, fun _ _ => rfl, fun _ _ => rfl,
      fun _ _ _ h => h, fun _ _ _ => rfl⟩

/-! ### One operation -/

variable {clock : Option ℕ} {exempt : Prop} {reg reg' : Registry}

/-- A record on file is followed by the record on file after the operation. -/
theorem Effects.follows (h : Effects (Write clock exempt) reg reg') {slot : ℕ} {r : SlotRecord}
    (hr : reg.file slot = .record r) : ∃ r', reg'.file slot = .record r' ∧ Follows r r' := by
  induction h with
  | refl => exact ⟨r, hr, .refl r⟩
  | registered _ _ _ ih => exact ih
  | @replaced reg₁ _ before after hfile hvalid hslot hw ih =>
    obtain ⟨r₁, hr₁, hfollows⟩ := ih
    by_cases hs : slot = before.slot
    · subst hs
      rw [hfile] at hr₁
      cases hr₁
      exact ⟨after, file_install_self hfile, hfollows.trans (Move.follows hw.move)⟩
    · exact ⟨r₁, (file_install_of_ne hs).trans hr₁, hfollows⟩

/-- The slot files after a list of replacements, the latest first. -/
def replay (made : List Replacement) (slots : List SlotFile) : List SlotFile :=
  made.foldr (fun w slots => slots.set w.before.slot (.record w.after)) slots

/-- A replacement of an operation at `clock`, among the slot files `slots`: it replaces the record on
file by one that a move leads to, in the same slot. An owner that it brings was in no slot. -/
structure Replaces (clock : Option ℕ) (slots : List SlotFile) (w : Replacement) : Prop where
  file : slots[w.before.slot]? = some (.record w.before)
  slot : w.after.slot = w.before.slot
  move : Move clock w.before w.after
  owner : ∀ owner, w.after.owner = some owner → w.before.owner = some owner ∨
    ∀ record, .record record ∈ slots → record.owner ≠ some owner

theorem file_eq_record {slot : ℕ} {r : SlotRecord} :
    reg.file slot = .record r ↔ reg.slots[slot]? = some (.record r) := by
  unfold Registry.file
  cases reg.slots[slot]? <;> simp

/-- The replacements that an operation makes. -/
theorem Effects.replaces (h : Effects (Write clock exempt) reg reg') :
    ∃ made, reg'.replaced = made ++ reg.replaced ∧ reg'.slots = replay made reg.slots ∧
      ∀ later w earlier, made = later ++ w :: earlier →
        Replaces clock (replay earlier reg.slots) w := by
  induction h with
  | refl => exact ⟨[], rfl, rfl, fun later w earlier heq => by simp at heq⟩
  | registered _ _ _ ih => exact ih
  | @replaced reg₁ _ before after hfile hvalid hslot hw ih =>
    obtain ⟨made, hmade, hslots, hreplaces⟩ := ih
    refine ⟨⟨before, after⟩ :: made, ?_, ?_, fun later w earlier heq => ?_⟩
    · show ⟨before, after⟩ :: reg₁.replaced = _
      rw [hmade]
      rfl
    · show reg₁.slots.set before.slot (.record after) = _
      rw [hslots]
      rfl
    · rcases later with _ | ⟨w', later⟩
      · cases heq
        rw [← hslots]
        refine ⟨file_eq_record.mp hfile, hslot, hw.move, fun owner ho => ?_⟩
        refine (hw.owner owner ho).imp_right fun hnone record hmem => ?_
        obtain ⟨slot, hlookup⟩ := List.mem_iff_getElem?.mp hmem
        exact hnone slot record (file_eq_record.mpr hlookup)
      · cases heq
        exact hreplaces later w earlier rfl

/-- No owner has two slots. -/
def UniqueOwners (reg : Registry) : Prop :=
  ∀ slot slot' r r' owner, reg.file slot = .record r → reg.file slot' = .record r' →
    r.owner = some owner → r'.owner = some owner → slot = slot'

theorem Effects.uniqueOwners (h : Effects (Write clock exempt) reg reg') (hu : UniqueOwners reg) :
    UniqueOwners reg' := by
  induction h with
  | refl => exact hu
  | registered _ _ _ ih => exact ih
  | @replaced reg₁ _ before after hfile hvalid hslot hw ih =>
    -- the other slot had the owner before, so the owner is not a new one
    have hother : ∀ slot r owner, slot ≠ before.slot → reg₁.file slot = .record r →
        r.owner = some owner → after.owner ≠ some owner := by
      intro slot r owner hne hr ho hafter
      rcases hw.owner owner hafter with hbefore | hnone
      · exact hne (ih slot before.slot r before owner hr hfile ho hbefore)
      · exact hnone slot r hr ho
    intro slot slot' r r' owner hr hr' ho ho'
    by_cases hs : slot = before.slot <;> by_cases hs' : slot' = before.slot
    · rw [hs, hs']
    · subst hs
      rw [file_install_self hfile] at hr
      cases hr
      rw [file_install_of_ne hs'] at hr'
      exact absurd ho (hother slot' r' owner hs' hr' ho')
    · subst hs'
      rw [file_install_self hfile] at hr'
      cases hr'
      rw [file_install_of_ne hs] at hr
      exact absurd ho' (hother slot r owner hs hr ho)
    · rw [file_install_of_ne hs] at hr
      rw [file_install_of_ne hs'] at hr'
      exact ih slot slot' r r' owner hr hr' ho ho'

/-! ### Runs -/

theorem run_follows (reg : Registry) (operations : List Operation) {slot : ℕ} {r : SlotRecord}
    (hr : reg.file slot = .record r) :
    ∃ r', (run reg operations).file slot = .record r' ∧ Follows r r' := by
  have hkept : ∀ reg operation, (∃ r', reg.file slot = .record r' ∧ Follows r r') →
      ∃ r', (step reg operation).file slot = .record r' ∧ Follows r r' := by
    rintro reg operation ⟨r', hr', hfollows⟩
    obtain ⟨r'', hr'', hfollows'⟩ := Effects.follows (step_effects reg operation) hr'
    exact ⟨r'', hr'', hfollows.trans hfollows'⟩
  exact Run.run_invariant hkept operations reg ⟨r, hr, .refl r⟩

theorem run_uniqueOwners (reg : Registry) (operations : List Operation) (h : UniqueOwners reg) :
    UniqueOwners (run reg operations) :=
  Run.run_invariant (fun reg operation => Effects.uniqueOwners (step_effects reg operation))
    operations reg h

/-- **The slots follow their protocol.** In every run from any registry, with failures and crashes at
any point, an operation changes the slot files by replacements each of which is one move of the
protocol at the operation's clock; a record on file is followed by those on file later; and no owner
comes to have two slots. -/
theorem slot_protocol (reg : Registry) (operations : List Operation) :
    (∀ operation, let reached := run reg operations
      ∃ made, (step reached operation).replaced = made ++ reached.replaced ∧
        (step reached operation).slots = replay made reached.slots ∧
        ∀ later w earlier, made = later ++ w :: earlier →
          Replaces operation.reclaimClock (replay earlier reached.slots) w) ∧
      (∀ slot r, reg.file slot = .record r →
        ∃ r', (run reg operations).file slot = .record r' ∧ Follows r r') ∧
      (UniqueOwners reg → UniqueOwners (run reg operations)) := by
  refine ⟨fun operation => ?_, fun slot r hr => run_follows reg operations hr,
    run_uniqueOwners reg operations⟩
  exact Effects.replaces (step_effects (run reg operations) operation)

/-- A launch, its gate, its process, and a cleanup that dies after the tombstone is written; a day
later the slot is reclaimed and used again. -/
example :
    let io : ReplaceIo := ⟨none, .done, none⟩
    let allocate := Operation.allocateIntent ⟨true, fun _ => ⟨none, io⟩, 0, io, io, true⟩
    let process : ProcessIdentity := ⟨1, 1, 1, 1⟩
    let nonce := Uuid.newV4 0
    let reached := run (genesis "slots" 1)
      [allocate 1 none, .registerGate none io 0 1 nonce process,
        .recordIdentity ⟨none, io⟩ ⟨2, 0, 1, none, none, .intentDurable nonce 1⟩
          ⟨1, 0, 1, nonce, process⟩,
        .cleanup ⟨true, none, true, none, io, fun _ => .absent, none, none, fun _ => .absent, some 5,
          ⟨none, .crashedAfter, none⟩⟩ 0 1,
        allocate 86405 none]
    reached.replaced.map (fun w => (w.after.generation, stage w.after.state)) =
      [(2, 0), (1, 4), (1, 3), (1, 2), (1, 1), (1, 0)] := by
  decide

theorem uniqueOwners_genesis (slotsPath : String) (slotCount : ℕ) :
    UniqueOwners (genesis slotsPath slotCount) := by
  intro slot slot' r r' owner hr hr' ho ho'
  rw [file_eq_record] at hr
  simp only [genesis, List.getElem?_map, Option.map_eq_some_iff] at hr
  obtain ⟨_, -, hr⟩ := hr
  cases hr
  cases ho

/-- **No owner is recorded in two slots**, in any run of a new registry. -/
theorem owners_unique (slotsPath : String) (slotCount : ℕ) (operations : List Operation) :
    UniqueOwners (run (genesis slotsPath slotCount) operations) :=
  run_uniqueOwners _ operations (uniqueOwners_genesis slotsPath slotCount)

end LightTerminal.LaunchRegistry.Protocol
