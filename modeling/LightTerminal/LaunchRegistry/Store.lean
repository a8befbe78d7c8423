import LightTerminal.LaunchRegistry.Transition

/-! # The files of the registry

The slot files and the registration files, and how they are read and replaced. The replacement of a
file is atomic: it is either made completely or not at all, and the process may fail or die before it
or after it. What the system answers is a parameter, `ReplaceIo` for `replace_slot`.

* `Effects W`: the slot files change only by replacements of valid records that `W` allows;
* `replaceSlot_does`: what `replace_slot` does, however it ends;
* `replaceSlot_installs`: when it gets to its write. -/

namespace LightTerminal.LaunchRegistry.Store

open LightTerminal.Data.Text LightTerminal.Library.Procedure LightTerminal.LaunchRegistry.Record
open LightTerminal.LaunchRegistry.Transition

/-- `GATE_SCHEMA_VERSION`. -/
def gateSchemaVersion : ℕ := 1

/-- `GateRegistration`. -/
structure GateRegistration where
  schemaVersion : ℕ
  slot : ℕ
  generation : ℕ
  nonce : Uuid
  identity : ProcessIdentity
  deriving DecidableEq, Repr

/-- `RegistrationRecord`. -/
structure RegistrationRecord where
  schemaVersion : ℕ
  slot : ℕ
  generation : ℕ
  registration : Option GateRegistration
  deriving DecidableEq, Repr

/-- What a slot file holds: a slot record, valid or not, or something else. -/
inductive SlotFile where
  | record (record : SlotRecord)
  | unreadable (reason : String)
  deriving DecidableEq, Repr

/-- A slot record that replaced another. -/
structure Replacement where
  before : SlotRecord
  after : SlotRecord
  deriving DecidableEq, Repr

/-- `Registry`, with the files under its root. `replaced` are the replacements of slot records so far,
the latest first, for the statements about runs; no operation reads it. -/
structure Registry where
  slotsPath : String
  slots : List SlotFile
  registrations : List (Option RegistrationRecord)
  replaced : List Replacement

/-- The files that `ensure_genesis` makes. -/
def genesis (slotsPath : String) (slotCount : ℕ) : Registry where
  slotsPath
  slots := (List.range slotCount).map fun slot => .record
    { schemaVersion := slotSchemaVersion, slot, generation := 0, owner := none,
      artifactBinding := none, state := .vacant }
  registrations := (List.range slotCount).map fun slot => some
    { schemaVersion := gateSchemaVersion, slot, generation := 0, registration := none }
  replaced := []

/-- An operation on the registry. -/
abbrev Op := Proc Failure Registry

/-- How the replacement of a file goes: `renamed` fails after the file is replaced. -/
inductive WriteIo where
  | done
  | failed (error : String)
  | renamed (error : String)
  | crashedBefore
  | crashedAfter
  deriving DecidableEq, Repr

/-- The file is replaced. -/
def WriteIo.installs : WriteIo → Bool
  | .done => true
  | .renamed _ => true
  | .crashedAfter => true
  | _ => false

/-- What the system answers to a replacement: errors of the two reads, and the write between. -/
structure ReplaceIo where
  read : Option String
  write : WriteIo
  readback : Option String
  deriving DecidableEq, Repr

/-! ### Slot files -/

/-- `slot_name`. -/
def slotName (slot : ℕ) : String :=
  "slot-" ++ String.ofList ((decimal slot).leftpad 4 '0') ++ ".json"

/-- `SlotRead`. -/
inductive SlotRead where
  | valid (record : SlotRecord)
  | unknown (reason : String)

/-- The file of a slot. -/
def Registry.file (reg : Registry) (slot : ℕ) : SlotFile :=
  reg.slots[slot]?.getD (.unreadable "No such file or directory")

/-- `read_slot`; `io` is an error of the system. -/
def Registry.readSlot (reg : Registry) (io : Option String) (slot : ℕ) : SlotRead :=
  let unknown (reason : String) : SlotRead :=
    .unknown (reg.slotsPath ++ "/" ++ slotName slot ++ ": " ++ reason)
  match io with
  | some error => unknown error
  | none =>
    match reg.file slot with
    | .unreadable reason => unknown reason
    | .record record =>
      match validateSlotRecord record slot with
      | .ok () => .valid record
      | .error e => unknown e.message

/-- `read_slot` as an operation. -/
def readSlot (io : Option String) (slot : ℕ) : Op SlotRead := do
  let reg ← get
  return reg.readSlot io slot

/-- `read_valid_slot`. -/
def readValidSlot (io : Option String) (slot : ℕ) : Op SlotRecord := do
  match ← readSlot io slot with
  | .valid record => return record
  | .unknown reason => throw (.error ("unknown_orphan_risk: " ++ reason))

/-- The slot file of `before` replaced. -/
def Registry.install (reg : Registry) (before after : SlotRecord) : Registry :=
  { reg with
    slots := reg.slots.set before.slot (.record after)
    replaced := ⟨before, after⟩ :: reg.replaced }

/-- `atomic_replace_json`; `install` is the replacement of the file. -/
def atomicReplaceJson (io : WriteIo) (install : Registry → Registry) : Op Unit :=
  match io with
  | .done => modify install
  | .failed error => throw (.error error)
  | .renamed error => do
    modify install
    throw (.error error)
  | .crashedBefore => throw .crash
  | .crashedAfter => do
    modify install
    throw .crash

/-- `replace_slot`. -/
def replaceSlot (io : ReplaceIo) (expected next : SlotRecord) : Op Unit := do
  validateTransition expected next
  let current ← readValidSlot io.read expected.slot
  ensure (current = expected)
    ("generation/state conflict replacing slot " ++ toString expected.slot)
  atomicReplaceJson io.write fun reg => reg.install expected next
  let readback ← readValidSlot io.readback expected.slot
  ensure (readback = next) "slot durable readback mismatch"

/-! ### Registration files -/

/-- `read_registration`. -/
def readRegistration (io : Option String) (slot : ℕ) : Op RegistrationRecord := do
  let reg ← get
  match io with
  | some error => throw (.error error)
  | none =>
    let record ← context reg.registrations[slot]?.join "parse durable JSON record"
    ensure (record.schemaVersion = gateSchemaVersion)
      "Condition failed: `record.schema_version == GATE_SCHEMA_VERSION`"
    ensure (record.slot = slot) "Condition failed: `record.slot == slot`"
    return record

/-- A registration file replaced. -/
def Registry.register (reg : Registry) (slot : ℕ) (next : RegistrationRecord) : Registry :=
  { reg with registrations := reg.registrations.set slot (some next) }

/-- `replace_registration`. -/
def replaceRegistration (io : ReplaceIo) (slot : ℕ) (next : RegistrationRecord) : Op Unit := do
  ensure (next.schemaVersion = gateSchemaVersion ∧ next.slot = slot)
    "Condition failed: `next.schema_version == GATE_SCHEMA_VERSION && next.slot == slot`"
  optional (fun registration => do
      ensure (registration.schemaVersion = gateSchemaVersion)
        "Condition failed: `registration.schema_version == GATE_SCHEMA_VERSION`"
      ensure (registration.slot = slot) "Condition failed: `registration.slot == slot`"
      ensure (registration.generation = next.generation)
        "Condition failed: `registration.generation == next.generation`")
    next.registration
  atomicReplaceJson io.write fun reg => reg.register slot next
  let readback ← readRegistration io.readback slot
  ensure (readback = next) "Condition failed: `self.read_registration(slot)? == *next`"

/-! ### What operations do to the files -/

/-- The slot files change by replacements that `W` allows; registration files change in any way. -/
inductive Effects (W : Registry → SlotRecord → SlotRecord → Prop) (reg : Registry) : Registry → Prop where
  | refl : Effects W reg reg
  | registered {reg' : Registry} (h : Effects W reg reg') (slot : ℕ) (next : RegistrationRecord) :
      Effects W reg (reg'.register slot next)
  | replaced {reg' : Registry} (h : Effects W reg reg') {before after : SlotRecord}
      (hfile : reg'.file before.slot = .record before) (hvalid : before.Valid)
      (hslot : after.slot = before.slot) (hw : W reg' before after) :
      Effects W reg (reg'.install before after)

variable {W : Registry → SlotRecord → SlotRecord → Prop} {reg reg' reg'' : Registry}

theorem Effects.trans (h : Effects W reg reg') (h' : Effects W reg' reg'') : Effects W reg reg'' := by
  induction h' with
  | refl => exact h
  | registered _ slot next ih => exact ih.registered slot next
  | replaced _ hfile hvalid hslot hw ih => exact ih.replaced hfile hvalid hslot hw

theorem Effects.mono {W' : Registry → SlotRecord → SlotRecord → Prop}
    (hw : ∀ reg before after, W reg before after → W' reg before after) (h : Effects W reg reg') :
    Effects W' reg reg' := by
  induction h with
  | refl => exact .refl
  | registered _ slot next ih => exact ih.registered slot next
  | replaced _ hfile hvalid hslot hwrite ih =>
    exact ih.replaced hfile hvalid hslot (hw _ _ _ hwrite)

instance : IsPreorder Registry (Effects W) where
  refl _ := .refl
  trans _ _ _ := .trans

theorem Registry.readSlot_valid {io : Option String} {slot : ℕ} {record : SlotRecord} :
    reg.readSlot io slot = .valid record ↔
      io = none ∧ reg.file slot = .record record ∧ record.Valid ∧ record.slot = slot := by
  unfold Registry.readSlot
  dsimp only
  constructor
  · intro h
    split at h
    · cases h
    split at h
    · cases h
    next hfile =>
    split at h
    · next hcheck =>
      cases h
      exact ⟨rfl, hfile, validateSlotRecord_eq_ok.mp hcheck⟩
    · cases h
  · rintro ⟨rfl, hfile, hvalid⟩
    have hcheck := validateSlotRecord_eq_ok.mpr hvalid
    simp only [hfile, hcheck]

theorem readSlot_does (io : Option String) (slot : ℕ) :
    Does (Effects W) (readSlot io slot) reg fun read reg' =>
      read = reg.readSlot io slot ∧ reg' = reg :=
  ⟨.refl, fun read hread => by cases hread; exact ⟨rfl, rfl⟩⟩

theorem readValidSlot_does (io : Option String) (slot : ℕ) :
    Does (Effects W) (readValidSlot io slot) reg fun record reg' =>
      reg' = reg ∧ io = none ∧ reg.file slot = .record record ∧ record.Valid ∧
        record.slot = slot := by
  refine (readSlot_does io slot).bind ?_
  rintro read reg' - ⟨hread, rfl⟩
  split
  · exact Does.pure ⟨rfl, Registry.readSlot_valid.mp hread.symm⟩
  · exact Does.throw _

theorem exec_readValidSlot (io : Option String) (slot : ℕ) (reg : Registry) :
    (exec (readValidSlot io slot) reg).2 = reg := by
  simp only [readValidSlot, readSlot, exec_bind, exec_get, exec_pure]
  split <;> rfl

theorem atomicReplaceJson_does {io : WriteIo} {install : Registry → Registry}
    (h : io.installs = true → Effects W reg (install reg)) :
    Does (Effects W) (atomicReplaceJson io install) reg fun _ reg' => reg' = install reg := by
  cases io with
  | done => exact ⟨h rfl, fun _ _ => rfl⟩
  | failed error => exact Does.throw _
  | renamed error => exact ⟨h rfl, fun _ hr => by cases hr⟩
  | crashedBefore => exact Does.throw _
  | crashedAfter => exact ⟨h rfl, fun _ hr => by cases hr⟩

theorem atomicReplaceJson_installs {io : WriteIo} (h : io.installs = true)
    (install : Registry → Registry) : (exec (atomicReplaceJson io install) reg).2 = install reg := by
  cases io <;> first | rfl | cases h

/-- `replace_slot` gets to its write: the record it expects is on file, and the system lets it read
that and replace it. -/
structure Reached (reg : Registry) (io : ReplaceIo) (expected : SlotRecord) : Prop where
  file : reg.file expected.slot = .record expected
  valid : expected.Valid
  read : io.read = none
  write : io.write.installs = true

/-- `replace_slot` replaces a record that is on file by one that the transition check accepts, or does
nothing. -/
theorem replaceSlot_does {io : ReplaceIo} {expected next : SlotRecord}
    (hw : Reached reg io expected → validateTransition expected next = .ok () →
      W reg expected next) :
    Does (Effects W) (replaceSlot io expected next) reg fun _ reg' =>
      reg' = reg.install expected next ∧ reg.file expected.slot = .record expected := by
  refine Does.lift_bind fun _ htransition => ?_
  refine (readValidSlot_does io.read expected.slot).bind ?_
  rintro current reg' - ⟨rfl, hread, hfile, hvalid, -⟩
  refine Does.lift_bind fun _ hcurrent => ?_
  rw [require_eq_ok] at hcurrent
  subst hcurrent
  have hslot := slot_eq_of_validateTransition htransition
  refine Does.bind (atomicReplaceJson_does fun hwrite => ?_) ?_
  · exact .replaced .refl hfile hvalid hslot (hw ⟨hfile, hvalid, hread, hwrite⟩ htransition)
  rintro _ reg'' - rfl
  refine (readValidSlot_does io.readback current.slot).bind ?_
  rintro readback reg''' - ⟨rfl, -⟩
  exact Does.lift fun _ _ => ⟨rfl, hfile⟩

/-- Once it gets there, an accepted transition is written, also if an error is returned. -/
theorem replaceSlot_installs {io : ReplaceIo} {expected next : SlotRecord}
    (h : Reached reg io expected) (htransition : validateTransition expected next = .ok ()) :
    (exec (replaceSlot io expected next) reg).2 = reg.install expected next := by
  have hread : reg.readSlot io.read expected.slot = .valid expected :=
    Registry.readSlot_valid.mpr ⟨h.read, h.file, h.valid, rfl⟩
  have hcurrent : exec (readValidSlot io.read expected.slot) reg = (.ok expected, reg) := by
    simp only [readValidSlot, readSlot, exec_bind, exec_get, exec_pure, hread]
  -- the readback does not change the files
  have hreadback : ∀ (_ : Unit) reg', (exec (do
      let readback ← readValidSlot io.readback expected.slot
      liftM (ensure (readback = next) "slot durable readback mismatch") : Op Unit) reg').2 = reg' := by
    intro _ reg'
    rw [exec_bind_reads fun _ _ => rfl, exec_readValidSlot]
  unfold replaceSlot
  rw [exec_lift_bind htransition, exec_bind_ok hcurrent,
    exec_lift_bind (require_eq_ok (u := ()).mpr rfl), exec_bind_reads hreadback]
  exact atomicReplaceJson_installs h.write _

theorem readRegistration_does (io : Option String) (slot : ℕ) :
    Does (Effects W) (readRegistration io slot) reg fun _ reg' => reg' = reg := by
  refine (Does.get (Q := fun got reg' => got = reg ∧ reg' = reg) ⟨rfl, rfl⟩).bind ?_
  rintro _ reg' - ⟨rfl, rfl⟩
  split
  · exact Does.throw _
  · refine Does.lift_bind fun record _ => Does.lift_bind fun _ _ => Does.lift_bind fun _ _ => ?_
    exact Does.pure rfl

theorem replaceRegistration_does (io : ReplaceIo) (slot : ℕ) (next : RegistrationRecord) :
    Does (Effects W) (replaceRegistration io slot next) reg fun _ reg' =>
      reg' = reg.register slot next := by
  refine Does.lift_bind fun _ _ => Does.lift_bind fun _ _ => ?_
  refine (atomicReplaceJson_does fun _ => .registered .refl slot next).bind ?_
  rintro _ reg' - rfl
  refine (readRegistration_does io.readback slot).bind ?_
  rintro readback reg'' - rfl
  exact Does.lift fun _ _ => rfl

end LightTerminal.LaunchRegistry.Store
