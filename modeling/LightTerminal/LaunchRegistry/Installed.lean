import LightTerminal.LaunchRegistry.Writes

/-! # The slot records on disk

A registry is opened only if every slot record passes `validate_slot_record`
(`currentSchemaReady_eq_ok`). `replace_slot` checks the transition before it writes a record, and the
record itself only when it reads it back.

* `installs_valid_iff`: all records stay valid after an operation, however it ends, unless the
  operation binds an artifact to an intent without an owner;
* `binds_unowned_intent`: which makes the registry one that cannot be opened. -/

namespace LightTerminal.LaunchRegistry.Installed

open LightTerminal.Data.Text LightTerminal.Library.Procedure
open LightTerminal.LaunchRegistry.Record LightTerminal.LaunchRegistry.Transition
open LightTerminal.LaunchRegistry.Store LightTerminal.LaunchRegistry.Artifacts
open LightTerminal.LaunchRegistry.Operations LightTerminal.LaunchRegistry.Validity
open LightTerminal.LaunchRegistry.Writes

/-- The file of a slot holds a record that passes `validate_slot_record`. -/
def SlotValid (reg : Registry) (slot : ℕ) : Prop :=
  ∃ record, reg.file slot = .record record ∧ validateSlotRecord record slot = .ok ()

/-- Every slot does. -/
def AllValid (reg : Registry) : Prop := ∀ slot < reg.slots.length, SlotValid reg slot

/-! ### Opening a registry -/

/-- The loop over the slots of `current_schema_ready_without_migration`. -/
def slotsReady (reg : Registry) : List ℕ → Result Unit
  | [] => .ok ()
  | slot :: rest =>
    match reg.file slot with
    | .unreadable reason => throw (.error reason)
    | .record record => do
      ensure (record.schemaVersion = slotSchemaVersion)
        "managed schema marker published over a non-v2 slot"
      validateSlotRecord record slot
      slotsReady reg rest

/-- `current_schema_ready_without_migration`, when there is no migration. -/
def currentSchemaReady (reg : Registry) : Result Unit :=
  slotsReady reg (List.range reg.slots.length)

theorem slotsReady_eq_ok {reg : Registry} {slots : List ℕ} :
    slotsReady reg slots = .ok () ↔ ∀ slot ∈ slots, SlotValid reg slot := by
  induction slots with
  | nil => simp [slotsReady]
  | cons slot rest ih =>
    unfold slotsReady
    rw [List.forall_mem_cons]
    split
    · next reason hfile =>
      constructor
      · intro h
        cases h
      · rintro ⟨⟨record, hrecord, -⟩, -⟩
        rw [hfile] at hrecord
        cases hrecord
    · next record hfile =>
      simp only [bind_eq_ok, exists_unit, require_eq_ok, ih]
      constructor
      · rintro ⟨-, hcheck, hrest⟩
        exact ⟨⟨record, hfile, hcheck⟩, hrest⟩
      · rintro ⟨⟨record', hrecord, hcheck⟩, hrest⟩
        rw [hfile] at hrecord
        cases hrecord
        have hvalid := (validateSlotRecord_eq_ok.mp hcheck).1
        exact ⟨hvalid.schemaVersion, hcheck, hrest⟩

/-- The registry can be opened exactly when all slot records are valid. -/
theorem currentSchemaReady_eq_ok {reg : Registry} : currentSchemaReady reg = .ok () ↔ AllValid reg := by
  unfold currentSchemaReady AllValid
  simp only [slotsReady_eq_ok, List.mem_range]

theorem allValid_genesis (slotsPath : String) (slotCount : ℕ) :
    AllValid (genesis slotsPath slotCount) := by
  intro slot hslot
  have hlt : slot < slotCount := by simpa [genesis] using hslot
  refine ⟨_, by simp [Registry.file, genesis, hlt]; rfl, ?_⟩
  simp [validateSlotRecord, SlotState.nonce]

/-! ### Writes -/

variable {clock : Option ℕ} {exempt : Prop} {reg reg' : Registry}

theorem slotValid_install_of_ne {before after : SlotRecord} {slot : ℕ} (h : slot ≠ before.slot) :
    SlotValid (reg.install before after) slot ↔ SlotValid reg slot := by
  unfold SlotValid
  rw [file_install_of_ne h]

theorem slotValid_install_self {before after : SlotRecord}
    (hfile : reg.file before.slot = .record before) (hslot : after.slot = before.slot) :
    SlotValid (reg.install before after) before.slot ↔ after.Valid := by
  unfold SlotValid
  simp only [file_install_self hfile, validateSlotRecord_eq_ok]
  constructor
  · rintro ⟨record, hrecord, hvalid, -⟩
    cases hrecord
    exact hvalid
  · intro hvalid
    exact ⟨after, rfl, hvalid, hslot⟩

/-- Writes of valid records keep all records valid. -/
theorem Effects.allValid (h : Effects (Write clock exempt) reg reg') (hexempt : ¬exempt)
    (hall : AllValid reg) : AllValid reg' := by
  induction h with
  | refl => exact hall
  | registered _ _ _ ih => exact ih
  | @replaced reg₁ heffects before after hfile hvalid hslot hw ih =>
    intro slot hlt
    have hafter : after.Valid := hw.valid.resolve_right hexempt
    by_cases hs : slot = before.slot
    · rw [hs]
      exact (slotValid_install_self hfile hslot).mpr hafter
    · refine (slotValid_install_of_ne hs).mpr (ih slot ?_)
      have hlength : (reg₁.install before after).slots.length = reg₁.slots.length :=
        List.length_set
      omega

/-- What `begin_artifact_creation` leaves when it binds an artifact to an intent without an owner. -/
theorem step_of_bindsUnowned {operation : Operation} (h : BindsUnowned reg operation) :
    ∃ record binding, reg.file record.slot = .record record ∧ record.owner = none ∧
      step reg operation = reg.install record { record with artifactBinding := some binding } := by
  cases operation with
  | beginArtifactCreation io reservation controlRoot privateLeaf =>
    obtain ⟨hroot, hleaf, record, hreservation, howner, hnone, hintent, hreached⟩ := h
    obtain ⟨binding, hbinding⟩ :=
      bindArtifact_of_valid hreached.valid hnone hintent hroot hleaf
    have htransition :
        validateTransition record { record with artifactBinding := some binding } = .ok () :=
      validateTransition_bind hreached.valid.schemaVersion hintent hnone
    refine ⟨record, binding, hreached.file, howner, ?_⟩
    unfold step Operation.perform beginArtifactCreation bindReservation
    rw [exec_discard, exec_lift_bind hroot, exec_lift_bind (expect_eq_ok.mpr hreservation),
      exec_lift_bind hbinding, exec_bind_reads fun _ _ => rfl]
    exact replaceSlot_installs hreached htransition
  | _ => exact h.elim

/-- **No operation installs an invalid record, but the one that binds an artifact to an intent without
an owner.** From a registry whose records are all valid, they are all valid after an operation,
however it ends, exactly when it does not do that. -/
theorem installs_valid_iff (reg : Registry) (hall : AllValid reg) (operation : Operation) :
    AllValid (step reg operation) ↔ ¬BindsUnowned reg operation := by
  constructor
  · intro hafter hbinds
    obtain ⟨record, binding, hfile, howner, hstep⟩ := step_of_bindsUnowned hbinds
    rw [hstep] at hafter
    have hlt : record.slot < reg.slots.length := file_lt_length hfile
    have hslot := hafter record.slot (by simpa [Registry.install] using hlt)
    have hvalid : SlotRecord.Valid { record with artifactBinding := some binding } := by
      refine (slotValid_install_self hfile ?_).mp hslot
      rfl
    have hsome := (hvalid.binding binding rfl).2.1
    simp [howner] at hsome
  · intro hbinds
    exact Effects.allValid (step_effects reg operation) hbinds hall

/-- A launch with an owner, from the files of a new registry. -/
theorem installs_valid_allocateIntent :
    let io : ReplaceIo := ⟨none, .done, none⟩
    let owner : ManagedOwnerTag := ⟨.speculation, Uuid.newV4 1, 0, .runner⟩
    let allocate := Operation.allocateIntent ⟨true, fun _ => ⟨none, io⟩, 0, io, io, true⟩ 1 (some owner)
    AllValid (step (genesis "slots" 1) allocate) := by
  intro io owner allocate
  exact (installs_valid_iff (genesis "slots" 1) (allValid_genesis "slots" 1) allocate).mpr id

/-- An artifact bound to a launch without an owner, in a new registry: the files cannot be opened any
more. -/
theorem binds_unowned_intent :
    let io : ReplaceIo := ⟨none, .done, none⟩
    let allocate := Operation.allocateIntent ⟨true, fun _ => ⟨none, io⟩, 0, io, io, true⟩ 1 none
    let intent : SlotRecord := ⟨2, 0, 1, none, none, .intentDurable (Uuid.newV4 0) 1⟩
    let bind := Operation.beginArtifactCreation io ⟨some intent⟩ ⟨Uuid.newV4 1, 1, 1, 1⟩ ['a']
    AllValid (run (genesis "slots" 1) [allocate]) ∧
      ¬AllValid (run (genesis "slots" 1) [allocate, bind]) := by
  simp only [← currentSchemaReady_eq_ok]
  decide

end LightTerminal.LaunchRegistry.Installed
