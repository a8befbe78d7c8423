import LightTerminal.LaunchRegistry.Migration

/-! # The phases of the migration

Whatever the openings that are cut off leave behind, the root is in one of three phases: the slots are
of version 1 (`Legacy`); they are of version 2 and the old directory is staged (`Published`); or the
marker is there (`Marked`). In all of them the slots hold what was written last.

The invariant is `Inv`. For each procedure that changes the root there is a lemma on what holds wherever
it is cut off (`keeps_`), and one on what it leads to if it is not (`returns_`). -/

namespace LightTerminal.LaunchRegistry.Migration

open LightTerminal.Data.Text LightTerminal.Library LightTerminal.Library.Procedure
open LightTerminal.Library.Crash
open LightTerminal.LaunchRegistry.Record LightTerminal.LaunchRegistry.Store

variable {n : ℕ} {s s' : Root} {records : List SlotRecord}

/-! ### The phases -/

/-- A valid record for each slot. -/
structure Records (n : ℕ) (records : List SlotRecord) : Prop where
  length : records.length = n
  valid : ∀ (i : ℕ) (record : SlotRecord), records[i]? = some record →
    record.Valid ∧ record.slot = i

/-- No record has a binding. -/
def Unbound (records : List SlotRecord) : Prop := ∀ record ∈ records, record.artifactBinding = none

/-- The slots are of version 1; a staged directory is of version 2. -/
structure Legacy (n : ℕ) (s : Root) : Prop where
  marker : s.marker = none
  slots : s.slots.files = legacyFiles s.records
  unbound : Unbound s.records
  staging : s.staging = [] ∨
    ∃ name records, s.staging = [(name, ⟨currentFiles records, 0⟩)] ∧ Records n records
  guards : ∀ slot, s.guards slot = true → slot < n

/-- The slots are of version 2, and the old directory is staged. -/
structure Published (s : Root) : Prop where
  marker : s.marker = none
  slots : s.slots.files = currentFiles s.records
  unbound : Unbound s.records
  staging : ∃ name strays, s.staging = [(name, ⟨legacyFiles s.records, strays⟩)]
  guards : ∀ slot, s.guards slot = false

/-- The slots are of version 2, and marked so; the old directory may still be staged. -/
structure Marked (s : Root) : Prop where
  marker : s.marker = some "2\n"
  slots : s.slots.files = currentFiles s.records
  staging : s.staging = [] ∨
    Unbound s.records ∧ ∃ name, s.staging = [(name, ⟨legacyFiles s.records, 0⟩)]
  guards : ∀ slot, s.guards slot = false

/-- A directory that can be removed. -/
structure Disposable (n : ℕ) (dir : Dir) : Prop where
  strays : dir.strays = 0
  nodup : (dir.files.map Prod.fst).Nodup
  slots : ∀ entry ∈ dir.files, entry.1 < n

/-- What is being built or removed is at most one directory. -/
structure Tidy (n : ℕ) (building garbage : Trees) : Prop where
  count : building.length + garbage.length ≤ 1
  disposable : ∀ tree ∈ building ++ garbage, Disposable n tree.2

/-- What holds of a root at all times. -/
structure Sound (n : ℕ) (s : Root) : Prop where
  records : Records n s.records
  phase : Legacy n s ∨ Published s ∨ Marked s
  tidy : Tidy n s.building s.garbage

/-- A writer of the old version left a temporary file behind, and the old directory is still there. -/
def Stranded (s : Root) : Prop :=
  s.marker = none ∧ ∃ dir ∈ s.slots :: s.staging.map Prod.snd,
    dir.files = legacyFiles s.records ∧ 0 < dir.strays

instance decidableStranded (s : Root) : Decidable (Stranded s) :=
  inferInstanceAs (Decidable (s.marker = none ∧ ∃ dir ∈ s.slots :: s.staging.map Prod.snd,
    dir.files = legacyFiles s.records ∧ 0 < dir.strays))

/-- The invariant, with what else is known of the root. -/
def Inv (n : ℕ) (P : Root → Prop) (s : Root) : Prop := Sound n s ∧ P s

/-- What an opening keeps: it depends on what is stranded, on the guards and on the records. -/
def Same (P : Root → Prop) : Prop :=
  ∀ s s', (Stranded s' ↔ Stranded s) → s'.guards = s.guards → s'.records = s.records → P s → P s'

/-! ### Reading -/

theorem lookup_map {f : SlotRecord → SlotFile} : ∀ (records : List SlotRecord) (offset slot : ℕ),
    (∀ (i : ℕ) (record : SlotRecord), records[i]? = some record → record.slot = offset + i) →
      offset ≤ slot →
      (records.map fun record => (record.slot, f record)).lookup slot =
        records[slot - offset]?.map f
  | [], _, _, _, _ => rfl
  | record :: records, offset, slot, hslots, hle => by
    have hslot : record.slot = offset := hslots 0 record rfl
    rw [List.map_cons, List.lookup_cons, hslot]
    by_cases heq : slot = offset
    · rw [heq, beq_self_eq_true, Nat.sub_self]
      rfl
    · have hnext := lookup_map (f := f) records (offset + 1) slot
        (fun i r hr => by rw [hslots (i + 1) r hr]; omega) (by omega)
      rw [beq_eq_false_iff_ne.mpr heq, hnext, show slot - offset = slot - (offset + 1) + 1 by omega]
      rfl

/-- The file of a slot, in a directory with one for each. -/
theorem Records.lookup (h : Records n records) (f : SlotRecord → SlotFile) (slot : ℕ) :
    (records.map fun record => (record.slot, f record)).lookup slot = records[slot]?.map f :=
  lookup_map records 0 slot (fun i record hr => by rw [(h.valid i record hr).2]; omega) (Nat.zero_le _)

/-- A loop over the slots that goes well for each record. -/
theorem mapM_slots {α : Type} {f : ℕ → Result α} {g : SlotRecord → α} : ∀ records : List SlotRecord,
    (∀ (i : ℕ) (record : SlotRecord), records[i]? = some record → f i = .ok (g record)) →
      (List.range records.length).mapM f = .ok (records.map g) := by
  intro records
  induction records using List.reverseRecOn with
  | nil => intro _; rfl
  | append_singleton records record ih =>
    intro h
    have hinit := ih fun i r hr => by
      have hlt := (List.getElem?_eq_some_iff.mp hr).1
      exact h i r (by rw [List.getElem?_append_left hlt, hr])
    have hlast := h records.length record (by simp)
    rw [List.length_append, List.length_singleton, List.range_succ, List.mapM_append, hinit]
    simp [hlast, bind, Except.bind, pure, Except.pure]

/-- The record of version 1 with the content of a record. -/
def legacyOfRecord (record : SlotRecord) : SlotRecordV1 := toV1 { record with schemaVersion := 1 }

theorem migrated_legacyOfRecord {record : SlotRecord} (h : record.Valid)
    (hbinding : record.artifactBinding = none) : migrated (legacyOfRecord record) = record := by
  cases record
  simp only [migrated, legacyOfRecord, toV1, SlotRecord.mk.injEq, true_and]
  exact ⟨h.schemaVersion.symm, hbinding.symm, trivial⟩

theorem validateV1SlotRecord_eq_ok {record : SlotRecordV1} {slot : ℕ} :
    validateV1SlotRecord record slot = .ok () ↔
      record.schemaVersion = 1 ∧ record.slot = slot ∧ (migrated record).Valid := by
  simp only [validateV1SlotRecord, bind_eq_ok, exists_unit, require_eq_ok, optional_eq_ok]
  refine and_congr_right fun _ => and_congr_right fun _ => ?_
  constructor
  · rintro ⟨howner, hstate⟩
    have hnone (binding : ManagedArtifactBinding) : none ≠ some binding :=
      (Option.some_ne_none binding).symm
    refine ⟨rfl, howner, fun binding hb => absurd hb (hnone binding), fun hvacant => ⟨?_, rfl⟩,
      fun nonce hnonce => ?_⟩
    · change record.state = .vacant at hvacant
      rw [hvacant] at hstate
      simpa [SlotState.nonce, migrated] using hstate
    · change record.state.nonce = some nonce at hnonce
      rw [hnonce] at hstate
      simpa using hstate
  · intro h
    refine ⟨h.owner, ?_⟩
    cases hnonce : record.state.nonce with
    | none => simpa [migrated] using (h.vacant (SlotState.nonce_eq_none.mp hnonce)).1
    | some nonce => simpa using h.nonce nonce hnonce

section Read

variable {dir : Dir} {legacy : Result Unit} {unsupported : ℕ → String}

theorem readBoundedJson_files (h : Records n records) {f : SlotRecord → SlotRecord}
    (hfiles : dir.files = records.map fun record => (record.slot, .record (f record))) {i : ℕ}
    {record : SlotRecord} (hrecord : records[i]? = some record) :
    readBoundedJson dir i = .ok (f record) := by
  unfold readBoundedJson
  rw [hfiles, h.lookup (fun record => .record (f record)), hrecord]
  rfl

/-- A record of version 1 passes the checks of version 1. -/
theorem checks_legacy {record : SlotRecord} {i : ℕ} (h : record.Valid ∧ record.slot = i)
    (hbinding : record.artifactBinding = none) :
    validateV1SlotJson { record with schemaVersion := 1 } = .ok () ∧
      validateV1SlotRecord (legacyOfRecord record) i = .ok () := by
  refine ⟨require_eq_ok.mpr hbinding, validateV1SlotRecord_eq_ok.mpr ⟨rfl, h.2, ?_⟩⟩
  rw [migrated_legacyOfRecord h.1 hbinding]
  exact h.1

theorem readSlots_current (h : Records n records) (hfiles : dir.files = currentFiles records) :
    readSlots n dir legacy unsupported = .ok (records.map .inr) := by
  unfold readSlots
  rw [← h.length]
  refine mapM_slots records fun i record hrecord => ?_
  obtain ⟨hvalid, hslot⟩ := h.valid i record hrecord
  have hread : readBoundedJson dir i = .ok record :=
    readBoundedJson_files h (f := fun record => record) hfiles hrecord
  simp only [readSlot, hread, bind, Except.bind, hvalid.schemaVersion, if_true,
    validateSlotRecord_eq_ok.mpr ⟨hvalid, hslot⟩]
  rfl

theorem readSlots_legacy (h : Records n records) (hunbound : Unbound records)
    (hfiles : dir.files = legacyFiles records) (hlegacy : legacy = .ok ()) :
    readSlots n dir legacy unsupported = .ok (records.map fun record => .inl (legacyOfRecord record)) := by
  unfold readSlots
  rw [← h.length]
  refine mapM_slots records fun i record hrecord => ?_
  have hchecks := checks_legacy (h.valid i record hrecord)
    (hunbound record (List.mem_of_getElem? hrecord))
  have hread : readBoundedJson dir i = .ok { record with schemaVersion := 1 } :=
    readBoundedJson_files h hfiles hrecord
  have hversion : (1 : ℕ) ≠ slotSchemaVersion := by decide
  simp only [readSlot, hread, bind, Except.bind, if_neg hversion, if_true, hlegacy, hchecks.1]
  change (validateV1SlotRecord (legacyOfRecord record) i >>= _) = _
  rw [hchecks.2]
  rfl

theorem rereadSlots (h : Records n records) (hunbound : Unbound records)
    (hfiles : dir.files = legacyFiles records) :
    (List.range n).mapM (rereadSlot dir) = .ok (records.map legacyOfRecord) := by
  rw [← h.length]
  refine mapM_slots records fun i record hrecord => ?_
  have hchecks := checks_legacy (h.valid i record hrecord)
    (hunbound record (List.mem_of_getElem? hrecord))
  have hread : readBoundedJson dir i = .ok { record with schemaVersion := 1 } :=
    readBoundedJson_files h hfiles hrecord
  have hensure : ensure ((1 : ℕ) = 1) "managed v1 slot generation changed during migration" = .ok () :=
    require_eq_ok.mpr rfl
  simp only [rereadSlot, hread, bind, Except.bind, hensure, hchecks.1]
  change (validateV1SlotRecord (legacyOfRecord record) i >>= _) = _
  rw [hchecks.2]
  rfl

theorem currentOf_current (records : List SlotRecord) :
    currentOf (records.map .inr) = records ∧ legacyOf (records.map .inr) = [] := by
  constructor <;> induction records <;> simp_all [currentOf, legacyOf]

theorem legacyOf_legacy (records : List SlotRecord) :
    legacyOf (records.map fun record => .inl (legacyOfRecord record)) =
      records.map legacyOfRecord ∧
    currentOf (records.map fun record => .inl (legacyOfRecord record)) = [] := by
  constructor <;> induction records <;> simp_all [currentOf, legacyOf]

end Read

theorem files_ne (hn : 0 < n) {records' : List SlotRecord} (h : Records n records)
    (h' : Records n records') : currentFiles records ≠ legacyFiles records' := by
  intro heq
  obtain ⟨record, rest, rfl⟩ := List.exists_cons_of_length_pos (h.length ▸ hn)
  obtain ⟨record', rest', rfl⟩ := List.exists_cons_of_length_pos (h'.length ▸ hn)
  have hhead := (List.cons.inj heq).1
  have hversion : record.schemaVersion = 1 :=
    congrArg SlotRecord.schemaVersion (SlotFile.record.inj (Prod.mk.inj hhead).2)
  have hvalid := (h.valid 0 record rfl).1.schemaVersion
  rw [hversion] at hvalid
  exact absurd hvalid (by decide)

theorem map_ne_nil (hn : 0 < n) (h : Records n records) {α : Type} (f : SlotRecord → α) :
    records.map f ≠ [] := by
  intro heq
  have hlength := congrArg List.length heq
  rw [List.length_map, h.length] at hlength
  exact absurd hlength (by simpa using hn.ne')

/-! ### The staged directories -/

theorem scan_nil (hstaging : s.staging = []) : scanStagedSlotGenerations n s = .ok [] := by
  unfold scanStagedSlotGenerations
  rw [hstaging]
  rfl

theorem scan_one {name : Uuid} {dir : Dir} (hstaging : s.staging = [(name, dir)]) :
    scanStagedSlotGenerations n s =
      (scanStagedSlotGeneration n (name, dir)).map fun staged => [staged] := by
  unfold scanStagedSlotGenerations
  rw [hstaging]
  simp only [List.take, List.mapM_cons, List.mapM_nil]
  cases scanStagedSlotGeneration n (name, dir) <;> rfl

theorem entries_files {f : SlotRecord → ℕ × SlotFile} (h : Records n records) (strays : ℕ) :
    Dir.entries ⟨records.map f, strays⟩ = n + strays := by
  rw [Dir.entries, List.length_map, h.length]

theorem scan_current {name : Uuid} (h : Records n records) :
    scanStagedSlotGeneration n (name, ⟨currentFiles records, 0⟩) = .ok (.current name records) := by
  have hentries : Dir.entries ⟨currentFiles records, 0⟩ = n := entries_files h 0
  obtain ⟨hcurrent, hlegacy⟩ := currentOf_current records
  have hread (unsupported : ℕ → String) :
      readSlots n ⟨currentFiles records, 0⟩ (.ok ()) unsupported = .ok (records.map .inr) :=
    readSlots_current h rfl
  refine bind_eq_ok.mpr ⟨(), require_eq_ok.mpr hentries, bind_eq_ok.mpr ⟨_, hread _, ?_⟩⟩
  rw [hlegacy, hcurrent]
  exact bind_eq_ok.mpr ⟨(), require_eq_ok.mpr (Or.inl rfl), rfl⟩

theorem scan_legacy (hn : 0 < n) {name : Uuid} (h : Records n records) (hunbound : Unbound records) :
    scanStagedSlotGeneration n (name, ⟨legacyFiles records, 0⟩) =
      .ok (.legacy name (records.map legacyOfRecord)) := by
  have hentries : Dir.entries ⟨legacyFiles records, 0⟩ = n := entries_files h 0
  obtain ⟨hlegacy, hcurrent⟩ := legacyOf_legacy records
  have hread (unsupported : ℕ → String) :
      readSlots n ⟨legacyFiles records, 0⟩ (.ok ()) unsupported =
        .ok (records.map fun record => .inl (legacyOfRecord record)) :=
    readSlots_legacy h hunbound rfl rfl
  refine bind_eq_ok.mpr ⟨(), require_eq_ok.mpr hentries, bind_eq_ok.mpr ⟨_, hread _, ?_⟩⟩
  rw [hlegacy, hcurrent, if_neg (map_ne_nil hn h legacyOfRecord)]
  exact bind_eq_ok.mpr ⟨(), require_eq_ok.mpr (Or.inr rfl), rfl⟩

/-- A temporary file in a staged directory is an unexpected entry. -/
theorem scan_strays {name : Uuid} {strays : ℕ} (h : Records n records) (hstrays : 0 < strays) :
    scanStagedSlotGeneration n (name, ⟨legacyFiles records, strays⟩) =
      .error (.error "managed slot migration generation has unexpected entries") := by
  have hentries : Dir.entries ⟨legacyFiles records, strays⟩ = n + strays := entries_files h strays
  have hne : ¬Dir.entries ⟨legacyFiles records, strays⟩ = n := by omega
  unfold scanStagedSlotGeneration ensure require
  rw [if_neg hne]
  rfl

theorem matches_legacy (h : Records n records) (hunbound : Unbound records) :
    legacyGenerationMatchesCurrent n (records.map legacyOfRecord) records = .ok () := by
  have hpairs : ∀ pair ∈ (records.map legacyOfRecord).zip records, pair.2 = migrated pair.1 := by
    rintro ⟨legacy, current⟩ hpair
    obtain ⟨i, hi⟩ := List.mem_iff_getElem?.mp hpair
    rw [List.getElem?_zip_eq_some, List.getElem?_map, Option.map_eq_some_iff] at hi
    obtain ⟨⟨record, hrecord, rfl⟩, hcurrent⟩ := hi
    obtain rfl : record = current := Option.some.inj (hrecord.symm.trans hcurrent)
    exact (migrated_legacyOfRecord (h.valid i record hrecord).1
      (hunbound record (List.mem_of_getElem? hrecord))).symm
  simp only [legacyGenerationMatchesCurrent, bind_eq_ok, exists_unit, require_eq_ok, List.length_map]
  exact ⟨⟨h.length, h.length⟩, hpairs⟩

/-! ### What an opening finds -/

theorem markerReady_none (h : s.marker = none) : slotSchemaMarkerReady s = .ok false := by
  unfold slotSchemaMarkerReady
  rw [h]

theorem markerReady_some (h : s.marker = some "2\n") : slotSchemaMarkerReady s = .ok true := by
  unfold slotSchemaMarkerReady
  rw [h]
  rfl

theorem find_current {ready : Bool} {found : Found} (h : Records n s.records)
    (hfiles : s.slots.files = currentFiles s.records) (hready : slotSchemaMarkerReady s = .ok ready) :
    find n s = .ok found ↔ ∃ staged, scanStagedSlotGenerations n s = .ok staged ∧
      found = ⟨ready, [], s.records, staged⟩ := by
  obtain ⟨hcurrent, hlegacy⟩ := currentOf_current s.records
  simp only [find, bind_eq_ok, hready, Except.ok.injEq, exists_eq_left', readSlots_current h hfiles,
    hcurrent, hlegacy, require_eq_ok, true_or, exists_const, true_and, pure_eq_ok]
  exact exists_congr fun staged => and_congr_right fun _ => eq_comm

theorem find_legacy {found : Found} (h : Records n s.records) (hl : Legacy n s) :
    find n s = .ok found ↔ ∃ staged, scanStagedSlotGenerations n s = .ok staged ∧
      found = ⟨false, s.records.map legacyOfRecord, [], staged⟩ := by
  obtain ⟨hlegacy, hcurrent⟩ := legacyOf_legacy s.records
  simp only [find, bind_eq_ok, markerReady_none hl.marker, Except.ok.injEq, exists_eq_left']
  rw [readSlots_legacy h hl.unbound hl.slots (require_eq_ok.mpr trivial)]
  simp only [Except.ok.injEq, exists_eq_left', hcurrent, hlegacy, require_eq_ok, or_true, exists_const,
    true_and, pure_eq_ok]
  exact exists_congr fun staged => and_congr_right fun _ => eq_comm

/-! ### Single changes -/

variable {P I : Root → Prop} {io : Io LegacyAction}

theorem exec_change (check : Root → Result Unit) (f : Root → Root) (s : Root) :
    exec (do
      let root ← get
      liftM (check root)
      set (f root) : Proc Failure Root Unit) s =
      match check s with
      | .ok () => (.ok (), f s)
      | .error e => (.error e, s) := by
  rw [exec_bind_ok (exec_get s), exec_bind, exec_lift]
  cases check s <;> rfl

theorem keeps_change {check : Root → Result Unit} {f : Root → Root} (hI : I s)
    (hf : check s = .ok () → I (f s)) :
    Keeps I (change check f) s fun _ s' => check s = .ok () ∧ s' = f s := by
  have hexec := exec_change check f s
  cases hcheck : check s with
  | ok u =>
    rw [hcheck] at hexec
    refine Keeps.atomically ?_ fun a ha => ?_
    · rw [hexec]
      exact hf hcheck
    · rw [hexec]
      exact ⟨rfl, rfl⟩
  | error e =>
    rw [hcheck] at hexec
    refine Keeps.atomically ?_ fun a ha => ?_
    · rw [hexec]
      exact hI
    · rw [hexec] at ha
      cases ha

theorem returns_change {check : Root → Result Unit} {f : Root → Root} (h : check s = .ok ()) :
    Returns (change check f) s () (f s) := by
  refine Returns.atomically ?_
  rw [exec_change, h]

theorem keeps_current (hI : I s) :
    Keeps I (current : Step Root) s fun root s' => root = s ∧ s' = s :=
  Keeps.current hI ⟨rfl, rfl⟩

theorem keeps_check {α : Type} {x : Result α} (hI : I s) :
    Keeps I (check x : Step α) s fun a s' => x = .ok a ∧ s' = s :=
  Keeps.check hI fun _ ha => ⟨ha, rfl⟩

theorem returns_ensure {p : Prop} [Decidable p] {message : String} (h : p) :
    Returns (check (ensure p message) : Step Unit) s () s :=
  Returns.check (require_eq_ok.mpr h)

theorem not_taken_nil (name : Uuid) : taken [] name = false := rfl

/-- What is built and removed, and the temporary file of the marker, do not matter otherwise. -/
theorem Inv.work (hP : Same P) (h : Inv n P s) {building garbage : Trees} (markerTemp : Option String)
    (htidy : Tidy n building garbage) : Inv n P { s with building, garbage, markerTemp } := by
  refine ⟨⟨h.1.records, ?_, htidy⟩, hP s _ Iff.rfl rfl rfl h.2⟩
  rcases h.1.phase with hl | hp | hm
  · exact Or.inl ⟨hl.marker, hl.slots, hl.unbound, hl.staging, hl.guards⟩
  · exact Or.inr (Or.inl ⟨hp.marker, hp.slots, hp.unbound, hp.staging, hp.guards⟩)
  · exact Or.inr (Or.inr ⟨hm.marker, hm.slots, hm.staging, hm.guards⟩)

/-! ### Removing directories -/

theorem Disposable.filter {dir : Dir} (h : Disposable n dir) (p : ℕ × SlotFile → Bool) :
    Disposable n { dir with files := dir.files.filter p } :=
  ⟨h.strays, (List.filter_sublist.map _).nodup h.nodup, fun entry hentry =>
    h.slots entry (List.mem_of_mem_filter hentry)⟩

theorem Disposable.entries_le {dir : Dir} (h : Disposable n dir) : dir.entries ≤ n := by
  have hsubset : dir.files.map Prod.fst ⊆ List.range n := by
    intro slot hslot
    obtain ⟨entry, hentry, rfl⟩ := List.mem_map.mp hslot
    exact List.mem_range.mpr (h.slots entry hentry)
  have hlength := (h.nodup.subperm hsubset).length_le
  rw [List.length_map, List.length_range] at hlength
  rw [Dir.entries, h.strays]
  exact hlength

theorem Records.disposable (h : Records n records) (f : SlotRecord → SlotFile) :
    Disposable n ⟨records.map fun record => (record.slot, f record), 0⟩ := by
  have hkeys : (records.map fun record => (record.slot, f record)).map Prod.fst = List.range n := by
    refine List.ext_getElem? fun i => ?_
    rw [List.getElem?_map, List.getElem?_map]
    by_cases hi : i < n
    · obtain ⟨record, hrecord⟩ : ∃ record, records[i]? = some record :=
        ⟨_, List.getElem?_eq_getElem (h.length ▸ hi)⟩
      simp [hrecord, (h.valid i record hrecord).2, hi]
    · rw [List.getElem?_eq_none (by have := h.length; omega)]
      simp [hi]
  refine ⟨rfl, hkeys ▸ List.nodup_range, fun entry hentry => ?_⟩
  have hmem : entry.1 ∈ List.range n := hkeys ▸ List.mem_map_of_mem hentry
  exact List.mem_range.mp hmem

theorem Tidy.without {building garbage : Trees} (h : Tidy n building garbage) (name : Uuid) :
    Tidy n building (garbage.without name) := by
  refine ⟨?_, fun tree htree => h.disposable tree ?_⟩
  · have := h.count
    have hle := List.length_filter_le (fun tree => decide (tree.1 ≠ name)) garbage
    unfold Trees.without
    omega
  · rcases List.mem_append.mp htree with hb | hg
    · exact List.mem_append_left _ hb
    · exact List.mem_append_right _ (List.mem_of_mem_filter hg)

theorem Tidy.update {building garbage : Trees} (h : Tidy n building garbage) (name : Uuid)
    (p : ℕ × SlotFile → Bool) :
    Tidy n building (garbage.update name fun dir => { dir with files := dir.files.filter p }) := by
  refine ⟨by rw [Trees.update, List.length_map]; exact h.count, fun tree htree => ?_⟩
  rcases List.mem_append.mp htree with hb | hg
  · exact h.disposable tree (List.mem_append_left _ hb)
  · obtain ⟨old, hold, rfl⟩ := List.mem_map.mp hg
    have hdisposable := h.disposable old (List.mem_append_right _ hold)
    split_ifs
    · exact hdisposable.filter p
    · exact hdisposable

theorem without_update (trees : Trees) (name : Uuid) (f : Dir → Dir) :
    (trees.update name f).without name = trees.without name := by
  induction trees with
  | nil => rfl
  | cons tree trees ih =>
    simp only [Trees.update, Trees.without, List.map_cons, List.filter_cons] at ih ⊢
    by_cases heq : tree.1 = name
    · simpa [heq] using ih
    · simpa [heq] using ih

/-- What removing the files of a directory leaves of the root: the others are as they were. -/
def Emptied (n : ℕ) (gc : Uuid) (s s' : Root) : Prop :=
  ∃ garbage, s' = { s with garbage } ∧ Tidy n s.building garbage ∧
    garbage.without gc = s.garbage.without gc

theorem Tidy.slotFile {gc : Uuid} (h : Tidy n s.building s.garbage) (slot : ℕ) {s' : Root}
    (hs' : Emptied n gc { s with garbage := s.garbage.update gc fun dir =>
      { dir with files := dir.files.filter (·.1 ≠ slot) } } s') : Emptied n gc s s' := by
  obtain ⟨garbage, heq, htidy, hwithout⟩ := hs'
  have hupdate := without_update s.garbage gc fun dir =>
    { dir with files := dir.files.filter (·.1 ≠ slot) }
  exact ⟨garbage, heq, htidy, hwithout.trans hupdate⟩

theorem keeps_removeSlotFiles (gc : Uuid) (slots : List ℕ) (htidy : Tidy n s.building s.garbage)
    (hI : ∀ garbage, Tidy n s.building garbage → I { s with garbage }) :
    Keeps I (removeSlotFiles n gc slots) s fun _ => Emptied n gc s := by
  induction slots generalizing s with
  | nil => exact Keeps.pure (hI _ htidy) ⟨s.garbage, rfl, htidy, rfl⟩
  | cons slot slots ih =>
    have hnext := htidy.update gc fun entry => decide (entry.1 ≠ slot)
    refine (keeps_change (hI _ htidy) fun _ => hI _ hnext).bind fun _ s' _ hs' => ?_
    rw [hs'.2]
    have hrest := ih (s := { s with garbage := s.garbage.update gc fun dir =>
      { dir with files := dir.files.filter (·.1 ≠ slot) } }) hnext hI
    exact hrest.imp fun _ s'' _ hs'' => htidy.slotFile slot hs''

theorem returns_removeSlotFiles (gc : Uuid) (slots : List ℕ) (htidy : Tidy n s.building s.garbage)
    (hslots : ∀ slot ∈ slots, slot < n) :
    ∃ s', Returns (removeSlotFiles n gc slots) s () s' ∧ Emptied n gc s s' := by
  induction slots generalizing s with
  | nil => exact ⟨s, Returns.pure, s.garbage, rfl, htidy, rfl⟩
  | cons slot slots ih =>
    have hnext := htidy.update gc fun entry => decide (entry.1 ≠ slot)
    have hslot := hslots slot List.mem_cons_self
    obtain ⟨s', hreturns, hs'⟩ := ih (s := { s with garbage := s.garbage.update gc fun dir =>
      { dir with files := dir.files.filter (·.1 ≠ slot) } }) hnext
        fun other hother => hslots other (List.mem_cons_of_mem _ hother)
    exact ⟨s', (returns_change (require_eq_ok.mpr hslot)).bind hreturns, htidy.slotFile slot hs'⟩

/-- The root without a directory that was to be removed. -/
def removed (gc : Uuid) (s : Root) : Root := { s with garbage := s.garbage.without gc }

theorem Emptied.removed {gc : Uuid} {s' : Root} (h : Emptied n gc s s') :
    { s' with garbage := s'.garbage.without gc } = removed gc s := by
  obtain ⟨garbage, rfl, -, hwithout⟩ := h
  unfold Migration.removed
  rw [← hwithout]

theorem keeps_removeMigrationGcTree (gc : Uuid) (htidy : Tidy n s.building s.garbage)
    (hI : ∀ garbage, Tidy n s.building garbage → I { s with garbage }) :
    Keeps I (removeMigrationGcTree n gc) s fun _ s' => s' = removed gc s := by
  have hs : I s := hI _ htidy
  refine (keeps_current hs).bind fun root s₁ _ h₁ => ?_
  rw [h₁.1, h₁.2]
  refine (keeps_check hs).bind fun _ s₂ _ h₂ => ?_
  rw [h₂.2]
  refine (keeps_removeSlotFiles gc _ htidy hI).bind fun _ s₃ hs₃ h₃ => ?_
  refine (keeps_check hs₃).bind fun _ s₄ _ h₄ => ?_
  rw [h₄.2]
  refine (keeps_change hs₃ fun _ => ?_).imp fun _ s' _ hs' => hs'.2.trans h₃.removed
  rw [h₃.removed]
  exact hI _ (htidy.without gc)

theorem returns_removeMigrationGcTree (gc : Uuid) (htidy : Tidy n s.building s.garbage) :
    Returns (removeMigrationGcTree n gc) s () (removed gc s) := by
  have hdir : Disposable n ((s.garbage.lookup gc).getD ⟨[], 0⟩) := by
    cases hlookup : s.garbage.lookup gc with
    | none => exact ⟨rfl, List.nodup_nil, fun _ hentry => absurd hentry List.not_mem_nil⟩
    | some dir =>
      obtain ⟨before, after, heq, -⟩ := List.lookup_eq_some_iff.mp hlookup
      refine htidy.disposable (gc, dir) (List.mem_append_right _ ?_)
      rw [heq]
      exact List.mem_append_right _ List.mem_cons_self
  have hslots : ∀ slot ∈ ((s.garbage.lookup gc).getD ⟨[], 0⟩).files.map Prod.fst, slot < n := by
    intro slot hslot
    obtain ⟨entry, hentry, rfl⟩ := List.mem_map.mp hslot
    exact hdir.slots entry hentry
  obtain ⟨s', hreturns, hs'⟩ := returns_removeSlotFiles gc _ htidy hslots
  have hlast : Returns (change (fun _ => .ok ()) fun root =>
      { root with garbage := root.garbage.without gc }) s' () (removed gc s) := by
    rw [← hs'.removed]
    exact returns_change rfl
  refine Returns.current.bind ((returns_ensure hdir.entries_le).bind ?_)
  exact hreturns.bind ((returns_ensure hdir.strays).bind hlast)

/-! ### Reclaiming -/

/-- The root without what was being built or removed. -/
def reclaimed (s : Root) : Root := { s with building := [], garbage := [] }

theorem tidy_nil : Tidy n [] [] :=
  ⟨Nat.zero_le _, fun _ htree => absurd htree List.not_mem_nil⟩

theorem tidy_one {name : Uuid} {dir : Dir} (h : Disposable n dir) : Tidy n [] [(name, dir)] :=
  ⟨le_rfl, fun tree htree => by rw [List.mem_singleton.mp htree]; exact h⟩

theorem Tidy.cases {building garbage : Trees} (h : Tidy n building garbage) :
    (building = [] ∧ garbage = []) ∨
      (∃ name dir, building = [] ∧ garbage = [(name, dir)]) ∨
      ∃ name dir, building = [(name, dir)] ∧ garbage = [] ∧ Disposable n dir := by
  have hcount := h.count
  rcases building with _ | ⟨⟨name, dir⟩, _ | ⟨tree, building⟩⟩
  · rcases garbage with _ | ⟨⟨name, dir⟩, _ | ⟨tree, garbage⟩⟩
    · exact Or.inl ⟨rfl, rfl⟩
    · exact Or.inr (Or.inl ⟨name, dir, rfl, rfl⟩)
    · simp only [List.length_cons] at hcount
      omega
  · rcases garbage with _ | ⟨tree, garbage⟩
    · exact Or.inr (Or.inr ⟨name, dir, rfl, rfl, h.disposable (name, dir) List.mem_cons_self⟩)
    · simp only [List.length_cons] at hcount
      omega
  · simp only [List.length_cons] at hcount
    omega

theorem removed_one (name : Uuid) (dir : Dir) (hbuilding : s.building = [])
    (hgarbage : s.garbage = [(name, dir)]) : removed name s = reclaimed s := by
  unfold removed reclaimed Trees.without
  rw [hgarbage, hbuilding]
  simp

/-- The root after a building directory is renamed. -/
theorem quarantined {name gc : Uuid} {dir : Dir} (hbuilding : s.building = [(name, dir)])
    (hgarbage : s.garbage = []) :
    { s with
      building := s.building.without name
      garbage := s.garbage ++ (s.building.filter (·.1 = name)).map fun tree => (gc, tree.2) } =
      { s with building := [], garbage := [(gc, dir)] } := by
  rw [hbuilding, hgarbage]
  simp [Trees.without]

theorem reclaimed_self (hbuilding : s.building = []) (hgarbage : s.garbage = []) :
    reclaimed s = s := by
  unfold reclaimed
  rw [← hbuilding]
  nth_rewrite 2 [hbuilding]
  rw [← hgarbage]

/-- The root with a building directory that is to be removed. -/
def condemned (gc : Uuid) (dir : Dir) (s : Root) : Root :=
  { s with building := [], garbage := [(gc, dir)] }

theorem keeps_reclaimBuild {name : Uuid} (gc : Uuid) {dir : Dir} (hdir : Disposable n dir)
    (hbuilding : s.building = [(name, dir)]) (hgarbage : s.garbage = []) (hs : I s)
    (hI : ∀ garbage, Tidy n [] garbage → I { s with building := [], garbage }) :
    Keeps I (do quarantineBuild name gc; removeMigrationGcTree n gc) s fun _ s' =>
      s' = reclaimed s := by
  have hcondemned : { s with
      building := s.building.without name
      garbage := s.garbage ++ (s.building.filter (·.1 = name)).map fun tree => (gc, tree.2) } =
        condemned gc dir s := quarantined hbuilding hgarbage
  refine (keeps_change hs fun _ => ?_).bind fun _ s₁ _ h₁ => ?_
  · rw [hcondemned]
    exact hI _ (tidy_one hdir)
  · rw [h₁.2, hcondemned]
    refine (keeps_removeMigrationGcTree gc (s := condemned gc dir s) (tidy_one hdir) hI).imp
      fun _ s₂ _ h₂ => ?_
    rw [h₂, removed_one gc dir rfl rfl]
    rfl

theorem keeps_done {s'' : Root} (hI : I s) (h : s = s'') :
    Keeps I (pure () : Step Unit) s fun _ s' => s' = s'' :=
  Keeps.pure hI h

theorem keeps_reclaim (htidy : Tidy n s.building s.garbage)
    (hI : ∀ building garbage, Tidy n building garbage → I { s with building, garbage }) :
    Keeps I (reclaimMigrationWorkDirectories n io) s fun _ s' => s' = reclaimed s := by
  have hs : I s := hI _ _ htidy
  refine (keeps_current hs).bind fun root s₁ _ h₁ => ?_
  rw [h₁.1, h₁.2]
  refine (keeps_check hs).bind fun _ s₂ _ h₂ => ?_
  rw [h₂.2]
  rcases htidy.cases with ⟨hb, hg⟩ | ⟨name, dir, hb, hg⟩ | ⟨name, dir, hb, hg, hdir⟩
  · rw [hb, hg]
    exact Keeps.pure hs (reclaimed_self hb hg).symm
  · have htree := keeps_removeMigrationGcTree name htidy fun garbage => hI s.building garbage
    rw [removed_one name dir hb hg] at htree
    rw [hb, hg]
    exact (htree.bind fun _ s₃ hs₃ h₃ => keeps_done hs₃ h₃).bind fun _ s₃ hs₃ h₃ =>
      keeps_done hs₃ h₃
  · have htree := keeps_reclaimBuild (io.reclaim 0) hdir hb hg hs fun garbage => hI [] garbage
    have hrest := htree.bind fun _ s₃ hs₃ h₃ => keeps_done hs₃ h₃
    rw [bind_assoc] at hrest
    rw [hb, hg]
    exact hrest

theorem returns_reclaim (htidy : Tidy n s.building s.garbage) :
    Returns (reclaimMigrationWorkDirectories n io) s () (reclaimed s) := by
  have hcount : s.building.length + s.garbage.length ≤ 16 := htidy.count.trans (by decide)
  refine Returns.current.bind ((returns_ensure hcount).bind ?_)
  rcases htidy.cases with ⟨hb, hg⟩ | ⟨name, dir, hb, hg⟩ | ⟨name, dir, hb, hg, hdir⟩
  · rw [hb, hg, reclaimed_self hb hg]
    exact Returns.pure
  · have htree := returns_removeMigrationGcTree name htidy
    rw [removed_one name dir hb hg] at htree
    rw [hb, hg]
    exact (htree.bind Returns.pure).bind Returns.pure
  · have hcondemned : { s with
        building := s.building.without name
        garbage := s.garbage ++
          (s.building.filter (·.1 = name)).map fun tree => (io.reclaim 0, tree.2) } =
          condemned (io.reclaim 0) dir s := quarantined hb hg
    have hquarantine : Returns (quarantineBuild name (io.reclaim 0)) s ()
        (condemned (io.reclaim 0) dir s) := by
      rw [← hcondemned]
      refine returns_change (require_eq_ok.mpr ?_)
      rw [hg]
      rfl
    have htree := returns_removeMigrationGcTree (io.reclaim 0)
      (s := condemned (io.reclaim 0) dir s) (tidy_one hdir)
    rw [removed_one (io.reclaim 0) dir rfl rfl] at htree
    rw [hb, hg]
    exact Returns.pure.bind (hquarantine.bind (htree.bind Returns.pure))

/-! ### Retiring a staged directory, and the marker -/

/-- The root without its staged directory. -/
def unstaged (s : Root) : Root := { s with staging := [] }

/-- The root with its staged directory about to be removed. -/
def retiring (gc : Uuid) (dir : Dir) (s : Root) : Root := { s with staging := [], garbage := [(gc, dir)] }

theorem retired {path : Uuid} (gc : Uuid) {dir : Dir} (hstaging : s.staging = [(path, dir)])
    (hgarbage : s.garbage = []) :
    { s with
      staging := s.staging.without path
      garbage := s.garbage ++ (s.staging.filter (·.1 = path)).map fun tree => (gc, tree.2) } =
      retiring gc dir s := by
  unfold retiring
  rw [hstaging, hgarbage]
  simp [Trees.without]

theorem removed_retiring (gc : Uuid) (dir : Dir) (hgarbage : s.garbage = []) :
    removed gc (retiring gc dir s) = unstaged s := by
  unfold removed retiring unstaged Trees.without
  rw [hgarbage]
  simp

theorem keeps_removeStaged {path : Uuid} (gc : Uuid) {dir : Dir} (hdir : Disposable n dir)
    (hbuilding : s.building = []) (hgarbage : s.garbage = []) (hstaging : s.staging = [(path, dir)])
    (hs : I s) (hI : ∀ garbage, Tidy n [] garbage → I { s with staging := [], garbage }) :
    Keeps I (removeStagedSlotGeneration n path gc) s fun _ s' => s' = unstaged s := by
  have hretired := retired gc hstaging hgarbage
  refine (keeps_change hs fun _ => ?_).bind fun _ s₁ _ h₁ => ?_
  · rw [hretired]
    exact hI _ (tidy_one hdir)
  · have htidy : Tidy n (retiring gc dir s).building (retiring gc dir s).garbage := by
      change Tidy n s.building [(gc, dir)]
      rw [hbuilding]
      exact tidy_one hdir
    rw [h₁.2, hretired]
    refine (keeps_removeMigrationGcTree gc htidy fun garbage hgarbage => hI garbage ?_).imp
      fun _ s₂ _ h₂ => h₂.trans (removed_retiring gc dir hgarbage)
    change Tidy n s.building garbage at hgarbage
    rwa [hbuilding] at hgarbage

theorem returns_removeStaged {path : Uuid} (gc : Uuid) {dir : Dir} (hdir : Disposable n dir)
    (hbuilding : s.building = []) (hgarbage : s.garbage = [])
    (hstaging : s.staging = [(path, dir)]) :
    Returns (removeStagedSlotGeneration n path gc) s () (unstaged s) := by
  have hretired := retired gc hstaging hgarbage
  have htidy : Tidy n (retiring gc dir s).building (retiring gc dir s).garbage := by
    change Tidy n s.building [(gc, dir)]
    rw [hbuilding]
    exact tidy_one hdir
  have hquarantine : Returns (quarantineStaged path gc) s () (retiring gc dir s) := by
    rw [← hretired]
    refine returns_change (require_eq_ok.mpr ?_)
    rw [hgarbage]
    rfl
  have htree := returns_removeMigrationGcTree gc htidy
  rw [removed_retiring gc dir hgarbage] at htree
  exact hquarantine.bind htree

/-- The root with its marker. -/
def marked (s : Root) : Root := { s with marker := some "2\n", markerTemp := none }

theorem keeps_publishSlotSchemaMarker (hI : ∀ markerTemp, I { s with markerTemp })
    (hmarked : I (marked s)) :
    Keeps I publishSlotSchemaMarker s fun _ s' => s' = marked s := by
  refine (keeps_current (hI _)).bind fun root s₁ _ h₁ => ?_
  rw [h₁.1, h₁.2]
  have hfirst : Keeps I (removeMarkerTemp s.markerTemp.isSome) s fun _ s' =>
      ∃ markerTemp, s' = { s with markerTemp } := by
    unfold removeMarkerTemp
    split_ifs
    · exact (keeps_change (hI _) fun _ => hI none).imp fun _ s' _ hs' => ⟨none, hs'.2⟩
    · exact Keeps.pure (hI _) ⟨s.markerTemp, rfl⟩
  refine hfirst.bind fun _ s₂ hs₂ h₂ => ?_
  obtain ⟨markerTemp, rfl⟩ := h₂
  refine (keeps_change hs₂ fun _ => hI (some "")).bind fun _ s₃ hs₃ h₃ => ?_
  rw [h₃.2] at hs₃ ⊢
  refine (keeps_change hs₃ fun _ => hI (some "2\n")).bind fun _ s₄ hs₄ h₄ => ?_
  rw [h₄.2] at hs₄ ⊢
  exact (keeps_change hs₄ fun _ => hmarked).imp fun _ s₅ _ h₅ => h₅.2

theorem returns_publishSlotSchemaMarker (hmarker : s.marker = none) :
    Returns publishSlotSchemaMarker s () (marked s) := by
  have hfirst : Returns (removeMarkerTemp s.markerTemp.isSome) s () { s with markerTemp := none } := by
    unfold removeMarkerTemp
    split_ifs with htemp
    · exact returns_change rfl
    · have hnone : s.markerTemp = none := by simpa using htemp
      rw [← hnone]
      exact Returns.pure
  have hlast : (ensure s.marker.isNone "File exists" : Result Unit) = .ok () := by
    rw [hmarker]
    exact require_eq_ok.mpr rfl
  refine Returns.current.bind (hfirst.bind ?_)
  refine (returns_change (require_eq_ok.mpr rfl)).bind ((returns_change rfl).bind ?_)
  exact returns_change hlast

/-! ### The phases under the changes -/

theorem Sound.marked (h : Sound n s) (hp : Published s) {name : Uuid}
    (hstaging : s.staging = [(name, ⟨legacyFiles s.records, 0⟩)]) : Sound n (marked s) :=
  ⟨h.records, Or.inr (Or.inr ⟨rfl, hp.slots, Or.inr ⟨hp.unbound, name, hstaging⟩, hp.guards⟩), h.tidy⟩

theorem Marked.unstaged (h : Marked s) (hrecords : Records n s.records) {building garbage : Trees}
    (htidy : Tidy n building garbage) : Sound n { s with staging := [], building, garbage } :=
  ⟨hrecords, Or.inr (Or.inr ⟨h.marker, h.slots, Or.inl rfl, h.guards⟩), htidy⟩

theorem Legacy.unstaged (h : Legacy n s) (hrecords : Records n s.records) {building garbage : Trees}
    (htidy : Tidy n building garbage) : Sound n { s with staging := [], building, garbage } :=
  ⟨hrecords, Or.inl ⟨h.marker, h.slots, h.unbound, Or.inl rfl, h.guards⟩, htidy⟩

/-- A stranded root of version 1 is stranded in its slots. -/
theorem Legacy.stranded_iff (hn : 0 < n) (hrecords : Records n s.records) (h : Legacy n s) :
    Stranded s ↔ 0 < s.slots.strays := by
  constructor
  · rintro ⟨-, dir, hdir, hfiles, hstrays⟩
    rcases List.mem_cons.mp hdir with rfl | hstaged
    · exact hstrays
    · rcases h.staging with hnil | ⟨name, records, hone, hrecords'⟩
      · rw [hnil] at hstaged
        exact absurd hstaged List.not_mem_nil
      · rw [hone, List.map_singleton, List.mem_singleton] at hstaged
        rw [hstaged] at hfiles
        exact absurd hfiles (files_ne hn hrecords' hrecords)
  · intro hstrays
    exact ⟨h.marker, s.slots, List.mem_cons_self, h.slots, hstrays⟩

theorem Published.stranded_iff (hn : 0 < n) (hrecords : Records n s.records) (h : Published s)
    {name : Uuid} {strays : ℕ} (hstaging : s.staging = [(name, ⟨legacyFiles s.records, strays⟩)]) :
    Stranded s ↔ 0 < strays := by
  constructor
  · rintro ⟨-, dir, hdir, hfiles, hstrays⟩
    rcases List.mem_cons.mp hdir with rfl | hstaged
    · rw [h.slots] at hfiles
      exact absurd hfiles (files_ne hn hrecords hrecords)
    · rw [hstaging, List.map_singleton, List.mem_singleton] at hstaged
      rwa [hstaged] at hstrays
  · intro hstrays
    refine ⟨h.marker, ⟨legacyFiles s.records, strays⟩, List.mem_cons_of_mem _ ?_, rfl, hstrays⟩
    rw [hstaging]
    exact List.mem_singleton.mpr rfl

theorem Marked.not_stranded (h : Marked s) : ¬Stranded s := by
  rintro ⟨hmarker, -⟩
  rw [h.marker] at hmarker
  cases hmarker

theorem Marked.unstaged_not_stranded (h : Marked s) {building garbage : Trees} :
    ¬Stranded { s with staging := [], building, garbage } := by
  rintro ⟨hmarker, -⟩
  change s.marker = none at hmarker
  rw [h.marker] at hmarker
  cases hmarker

/-! ### Writes -/

theorem replace_files (hrecords : Records n records) (f : SlotRecord → SlotFile) {record : SlotRecord}
    (strays : ℕ) :
    Dir.replace ⟨records.map fun record => (record.slot, f record), strays⟩ record.slot (f record) =
      ⟨(records.set record.slot record).map fun record => (record.slot, f record), strays⟩ := by
  unfold Dir.replace
  rw [Dir.mk.injEq]
  refine ⟨List.ext_getElem? fun i => ?_, rfl⟩
  rw [List.getElem?_map, List.getElem?_map, List.getElem?_map, List.getElem?_set]
  cases hold : records[i]? with
  | none =>
    have hlength : ¬i < records.length := by
      rw [List.getElem?_eq_none_iff] at hold
      omega
    by_cases hi : record.slot = i
    · simp [hi, hlength]
    · simp [hi]
  | some old =>
    have hslot := (hrecords.valid i old hold).2
    have hlength := (List.getElem?_eq_some_iff.mp hold).1
    by_cases hi : record.slot = i
    · simp [hi, hslot, hlength]
    · have hne : ¬old.slot = record.slot := by omega
      simp [hi, hne]

theorem Records.set (h : Records n records) {record : SlotRecord} (hvalid : record.Valid) :
    Records n (records.set record.slot record) := by
  refine ⟨by rw [List.length_set]; exact h.length, fun i other hother => ?_⟩
  rw [List.getElem?_set] at hother
  split_ifs at hother with hi
  · obtain rfl := Option.some.inj hother
    exact ⟨hvalid, hi⟩
  · exact h.valid i other hother

theorem Unbound.set (h : Unbound records) (record : SlotRecord) (slot : ℕ)
    (hbinding : record.artifactBinding = none) : Unbound (records.set slot record) := by
  intro other hother
  rcases List.mem_or_eq_of_mem_set hother with hmem | rfl
  · exact h other hmem
  · exact hbinding

theorem Dir.eta (dir : Dir) {files : List (ℕ × SlotFile)} (h : dir.files = files) :
    dir = ⟨files, dir.strays⟩ := by
  rw [← h]

/-- What an action of a launch of the old version does not touch. -/
structure SameRest (s s' : Root) : Prop where
  building : s'.building = s.building
  staging : s'.staging = s.staging
  garbage : s'.garbage = s.garbage
  guards : ∀ slot, s'.guards slot = true → s.guards slot = true

theorem release_guards (slot other : ℕ) (h : (s.release slot).guards other = true) :
    s.guards other = true := by
  change Function.update s.guards slot false other = true at h
  by_cases heq : other = slot
  · rw [heq, Function.update_self] at h
    cases h
  · rwa [Function.update_of_ne heq] at h

theorem LegacyAction.sameRest (action : LegacyAction) : SameRest s (action.step s) := by
  cases action with
  | write record =>
    change SameRest s (s.legacyWrite record)
    unfold Root.legacyWrite
    split_ifs
    · exact ⟨rfl, rfl, rfl, fun _ h => h⟩
    · exact ⟨rfl, rfl, rfl, fun _ h => h⟩
  | finish slot => exact ⟨rfl, rfl, rfl, release_guards slot⟩
  | die slot =>
    change SameRest s (s.die slot)
    unfold Root.die
    split_ifs
    · exact ⟨rfl, rfl, rfl, release_guards slot⟩
    · exact ⟨rfl, rfl, rfl, fun _ h => h⟩

/-- If no guard is held, a launch of the old version does nothing. -/
theorem LegacyAction.step_idle (hguards : ∀ slot, s.guards slot = false) (action : LegacyAction) :
    action.step s = s := by
  have hrelease (slot : ℕ) : s.release slot = s := by
    unfold Root.release
    rw [Function.update_eq_self_iff.mpr (hguards slot).symm]
  cases action with
  | write record =>
    change s.legacyWrite record = s
    unfold Root.legacyWrite
    rw [if_neg]
    rintro ⟨hguard, -⟩
    rw [hguards] at hguard
    cases hguard
  | finish slot => exact hrelease slot
  | die slot =>
    change s.die slot = s
    unfold Root.die
    rw [if_neg]
    rw [hguards]
    exact Bool.false_ne_true

theorem LegacyAction.step_legacy (hrecords : Records n s.records) (hl : Legacy n s)
    (action : LegacyAction) :
    Records n (action.step s).records ∧ Legacy n (action.step s) ∧
      s.slots.strays ≤ (action.step s).slots.strays := by
  cases action with
  | write record =>
    change Records n (s.legacyWrite record).records ∧ Legacy n (s.legacyWrite record) ∧
      s.slots.strays ≤ (s.legacyWrite record).slots.strays
    unfold Root.legacyWrite
    split_ifs with hwrite
    · obtain ⟨hversion, -, hvalid⟩ := validateV1SlotRecord_eq_ok.mp hwrite.2
      have hfile : record.file = .record { migrated record with schemaVersion := 1 } := by
        unfold SlotRecordV1.file
        rw [hversion]
      have hslots : s.slots.replace (migrated record).slot record.file =
          ⟨legacyFiles (s.records.set (migrated record).slot (migrated record)), s.slots.strays⟩ := by
        rw [hfile, Dir.eta s.slots hl.slots]
        exact replace_files hrecords (fun record => .record { record with schemaVersion := 1 }) _
      have hunbound := hl.unbound.set (migrated record) (migrated record).slot rfl
      refine ⟨hrecords.set hvalid, ⟨hl.marker, ?_, hunbound, hl.staging, hl.guards⟩, le_rfl⟩
      exact congrArg Dir.files hslots
    · exact ⟨hrecords, hl, le_rfl⟩
  | finish slot =>
    exact ⟨hrecords, ⟨hl.marker, hl.slots, hl.unbound, hl.staging, fun other h =>
      hl.guards other (release_guards slot other h)⟩, le_rfl⟩
  | die slot =>
    change Records n (s.die slot).records ∧ Legacy n (s.die slot) ∧
      s.slots.strays ≤ (s.die slot).slots.strays
    unfold Root.die
    split_ifs
    · exact ⟨hrecords, ⟨hl.marker, hl.slots, hl.unbound, hl.staging, fun other h =>
        hl.guards other (release_guards slot other h)⟩, Nat.le_succ _⟩
    · exact ⟨hrecords, hl, le_rfl⟩

/-- An action of a launch of the old version keeps what is known. -/
def LegacyAction.Survives (n : ℕ) (P : Root → Prop) (action : LegacyAction) : Prop :=
  ∀ s, Records n s.records → Legacy n s → P s → P (action.step s)

theorem LegacyAction.step_inv (action : LegacyAction) (haction : action.Survives n P)
    (h : Inv n P s) : Inv n P (action.step s) := by
  have hrest := action.sameRest (s := s)
  rcases h.1.phase with hl | hp | hm
  · obtain ⟨hrecords, hlegacy, -⟩ := action.step_legacy h.1.records hl
    refine ⟨⟨hrecords, Or.inl hlegacy, ?_⟩, haction s h.1.records hl h.2⟩
    rw [hrest.building, hrest.garbage]
    exact h.1.tidy
  · rwa [action.step_idle hp.guards]
  · rwa [action.step_idle hm.guards]

/-! ### Quiescence -/

/-- A root of version 1 without other directories. -/
structure Preparing (n : ℕ) (P : Root → Prop) (s : Root) : Prop where
  inv : Inv n P s
  legacy : Legacy n s
  building : s.building = []
  staging : s.staging = []
  garbage : s.garbage = []

theorem Preparing.acts (h : Preparing n P s) (actions : List LegacyAction)
    (hactions : ∀ action ∈ actions, action.Survives n P) :
    Preparing n P (legacyActs s actions) ∧ SameRest s (legacyActs s actions) := by
  induction actions generalizing s with
  | nil => exact ⟨h, rfl, rfl, rfl, fun _ h => h⟩
  | cons action actions ih =>
    have hrest := action.sameRest (s := s)
    have hnext : Preparing n P (action.step s) :=
      ⟨action.step_inv (hactions action List.mem_cons_self) h.inv,
        (action.step_legacy h.inv.1.records h.legacy).2.1,
        hrest.building.trans h.building, hrest.staging.trans h.staging,
        hrest.garbage.trans h.garbage⟩
    obtain ⟨hlast, hlastRest⟩ := ih hnext fun other hother =>
      hactions other (List.mem_cons_of_mem _ hother)
    exact ⟨hlast, hlastRest.building.trans hrest.building, hlastRest.staging.trans hrest.staging,
      hlastRest.garbage.trans hrest.garbage, fun slot hslot =>
        hrest.guards slot (hlastRest.guards slot hslot)⟩

theorem exec_probeGuard (io : Io LegacyAction) (slot : ℕ) (s : Root) (message : String) :
    exec (do
      let root ← get
      set (legacyActs root (io.meanwhile slot))
      liftM (ensure ((legacyActs root (io.meanwhile slot)).guards slot = false) message) :
        Proc Failure Root Unit) s =
      (ensure ((legacyActs s (io.meanwhile slot)).guards slot = false) message,
        legacyActs s (io.meanwhile slot)) := by
  rw [exec_bind_ok (exec_get s)]
  rfl

theorem keeps_probeGuards (hio : ∀ slot, ∀ action ∈ io.meanwhile slot, action.Survives n P)
    (slots : List ℕ) (h : Preparing n P s) :
    Keeps (Inv n P) (probeGuards io slots) s fun _ s' =>
      Preparing n P s' ∧ SameRest s s' ∧ ∀ slot ∈ slots, s'.guards slot = false := by
  induction slots generalizing s with
  | nil =>
    exact Keeps.pure h.inv ⟨h, ⟨rfl, rfl, rfl, fun _ h => h⟩, fun _ hslot =>
      absurd hslot List.not_mem_nil⟩
  | cons slot slots ih =>
    obtain ⟨hacts, hrest⟩ := h.acts (io.meanwhile slot) (hio slot)
    have hprobe : Keeps (Inv n P) (probeGuard io slot) s fun _ s' =>
        s' = legacyActs s (io.meanwhile slot) ∧ s'.guards slot = false := by
      refine Keeps.atomically ?_ fun a ha => ?_
      · rw [exec_probeGuard]
        exact hacts.inv
      · rw [exec_probeGuard] at ha ⊢
        exact ⟨rfl, require_eq_ok.mp ha⟩
    refine hprobe.bind fun _ s₁ _ h₁ => ?_
    obtain ⟨h₁, hfree₁⟩ := h₁
    rw [h₁] at hfree₁ ⊢
    refine (ih hacts).imp fun _ s₂ _ h₂ => ?_
    obtain ⟨hpreparing, hsame, hfree⟩ := h₂
    refine ⟨hpreparing, ⟨hsame.building.trans hrest.building, hsame.staging.trans hrest.staging,
      hsame.garbage.trans hrest.garbage, fun other hother =>
        hrest.guards other (hsame.guards other hother)⟩, fun other hother => ?_⟩
    rcases List.mem_cons.mp hother with rfl | hmem
    · rw [Bool.eq_false_iff]
      intro hheld
      rw [hsame.guards other hheld] at hfree₁
      cases hfree₁
    · exact hfree other hmem

theorem returns_probeGuards (hguards : ∀ slot, s.guards slot = false) (slots : List ℕ) :
    Returns (probeGuards io slots) s () s := by
  induction slots with
  | nil => exact Returns.pure
  | cons slot slots ih =>
    have hidle : ∀ actions : List LegacyAction, legacyActs s actions = s := by
      intro actions
      induction actions with
      | nil => rfl
      | cons action actions ih =>
        unfold legacyActs at ih ⊢
        rw [List.foldl_cons, action.step_idle hguards, ih]
    have hprobe : Returns (probeGuard io slot) s () s := by
      refine Returns.atomically ?_
      rw [exec_probeGuard, hidle]
      exact Prod.ext (require_eq_ok.mpr (hguards slot)) rfl
    exact hprobe.bind ih

/-! ### Building and exchanging -/

/-- The root with what is being built. -/
def building (name : Uuid) (files : List (ℕ × SlotFile)) (s : Root) : Root :=
  { s with building := [(name, ⟨files, 0⟩)] }

/-- A file put into the building directory, which may have one for its slot at the end. -/
theorem put_eq (name : Uuid) {files : List (ℕ × SlotFile)} {slot : ℕ} (file : SlotFile)
    (hslot : ∀ entry ∈ files, entry.1 ≠ slot) (old : List SlotFile) :
    Trees.update [(name, ⟨files ++ old.map fun file => (slot, file), 0⟩)] name (fun dir =>
      { dir with files := dir.files.filter (·.1 ≠ slot) ++ [(slot, file)] }) =
      [(name, ⟨files ++ [(slot, file)], 0⟩)] := by
  have hfiles : files.filter (fun entry => decide (entry.1 ≠ slot)) = files :=
    List.filter_eq_self.mpr fun entry hentry => decide_eq_true (hslot entry hentry)
  have hold : (old.map fun file => (slot, file)).filter (fun entry => decide (entry.1 ≠ slot)) = [] := by
    refine List.filter_eq_nil_iff.mpr fun entry hentry => ?_
    obtain ⟨file, -, rfl⟩ := List.mem_map.mp hentry
    simp
  simp only [Trees.update, List.map_cons, List.map_nil, if_true, List.filter_append, hfiles, hold,
    List.append_nil]

/-- The records of the slots, as far as they are written, and those to come. -/
structure Part (n : ℕ) (done todo : List SlotRecord) : Prop where
  records : Records n (done ++ todo)
  unbound : Unbound (done ++ todo)

theorem Part.slot_ne {record : SlotRecord} {done todo : List SlotRecord}
    (h : Part n done (record :: todo)) :
    ∀ entry ∈ currentFiles done, entry.1 ≠ record.slot := by
  have hrecord := h.records.valid done.length record (by simp)
  intro entry hentry
  obtain ⟨other, hother, rfl⟩ := List.mem_map.mp hentry
  obtain ⟨i, hi⟩ := List.mem_iff_getElem?.mp hother
  have hlt := (List.getElem?_eq_some_iff.mp hi).1
  have hslot := (h.records.valid i other (by rw [List.getElem?_append_left hlt, hi])).2
  change other.slot ≠ record.slot
  rw [hslot, hrecord.2]
  omega

theorem Part.next {record : SlotRecord} {done todo : List SlotRecord}
    (h : Part n done (record :: todo)) : Part n (done ++ [record]) todo := by
  have heq : done ++ record :: todo = done ++ [record] ++ todo := by simp
  exact ⟨heq ▸ h.records, heq ▸ h.unbound⟩

theorem Part.tidy {record : SlotRecord} {done todo : List SlotRecord} (name : Uuid)
    (h : Part n done (record :: todo)) (file : SlotFile) :
    Tidy n [(name, ⟨currentFiles done ++ [(record.slot, file)], 0⟩)] [] := by
  have hall := h.next.records.disposable fun record => .record record
  have hkeys : (currentFiles done ++ [(record.slot, file)]).map Prod.fst =
      (currentFiles (done ++ [record])).map Prod.fst := by
    simp [currentFiles]
  have hsublist : ((currentFiles (done ++ [record])).map Prod.fst).Sublist
      ((currentFiles (done ++ [record] ++ todo)).map Prod.fst) :=
    ((List.sublist_append_left _ _).map _).map _
  refine ⟨le_rfl, fun tree htree => ?_⟩
  rw [List.append_nil, List.mem_singleton] at htree
  rw [htree]
  refine ⟨rfl, hkeys ▸ hsublist.nodup hall.nodup, fun entry hentry => ?_⟩
  have hmem : entry.1 ∈ (currentFiles (done ++ [record] ++ todo)).map Prod.fst :=
    hsublist.subset (hkeys ▸ List.mem_map_of_mem hentry)
  obtain ⟨other, hother, heq⟩ := List.mem_map.mp hmem
  rw [← heq]
  exact hall.slots other hother

/-- What is to be checked before the file of a record is created. -/
theorem Part.validate {record : SlotRecord} {done todo : List SlotRecord}
    (h : Part n done (record :: todo)) :
    migrated (legacyOfRecord record) = record ∧
      validateSlotRecord (migrated (legacyOfRecord record)) (legacyOfRecord record).slot = .ok () := by
  have hrecord := h.records.valid done.length record (by simp)
  have hmigrated := migrated_legacyOfRecord hrecord.1 (h.unbound record (by simp))
  refine ⟨hmigrated, ?_⟩
  rw [hmigrated]
  exact validateSlotRecord_eq_ok.mpr ⟨hrecord.1, rfl⟩

section Put

variable (name : Uuid) {files : List (ℕ × SlotFile)} {slot : ℕ} (file : SlotFile)

/-- `putBuilt`, where the slot has the files `old` so far. -/
theorem put_building (hslot : ∀ entry ∈ files, entry.1 ≠ slot) (old : List SlotFile) :
    { building name (files ++ old.map fun file => (slot, file)) s with
      building := Trees.update [(name, ⟨files ++ old.map fun file => (slot, file), 0⟩)] name fun dir =>
        { dir with files := dir.files.filter (·.1 ≠ slot) ++ [(slot, file)] } } =
      building name (files ++ [(slot, file)]) s :=
  congrArg (fun building : Trees => { s with building }) (put_eq name file hslot old)

theorem keeps_putBuilt (hslot : ∀ entry ∈ files, entry.1 ≠ slot) (old : List SlotFile)
    (hs : I (building name (files ++ old.map fun file => (slot, file)) s))
    (hI : I (building name (files ++ [(slot, file)]) s)) :
    Keeps I (putBuilt name slot file) (building name (files ++ old.map fun file => (slot, file)) s)
      fun _ s' => s' = building name (files ++ [(slot, file)]) s := by
  have hput := put_building (s := s) name file hslot old
  refine (keeps_change hs fun _ => ?_).imp fun _ s' _ hs' => hs'.2.trans hput
  exact hput ▸ hI

theorem returns_putBuilt (hslot : ∀ entry ∈ files, entry.1 ≠ slot) (old : List SlotFile) :
    Returns (putBuilt name slot file) (building name (files ++ old.map fun file => (slot, file)) s) ()
      (building name (files ++ [(slot, file)]) s) := by
  rw [← put_building (s := s) name file hslot old]
  exact returns_change rfl

end Put

theorem keeps_buildSlots {name : Uuid} (hI : ∀ building, Tidy n building [] → I { s with building }) :
    ∀ (todo done : List SlotRecord), Part n done todo → I (building name (currentFiles done) s) →
      Keeps I (buildSlots name (todo.map legacyOfRecord)) (building name (currentFiles done) s)
        fun _ s' => s' = building name (currentFiles (done ++ todo)) s
  | [], done, _, hs => Keeps.pure hs (by rw [List.append_nil])
  | record :: todo, done, hpart, hs => by
    obtain ⟨hmigrated, hvalidate⟩ := hpart.validate
    have hpartial := hI _ (hpart.tidy name (.unreadable "parse durable JSON record"))
    have hwhole := hI _ (hpart.tidy name (.record record))
    have hcreated := keeps_putBuilt (s := s) name (.unreadable "parse durable JSON record")
      hpart.slot_ne [] (by rwa [List.map_nil, List.append_nil]) hpartial
    rw [List.map_nil, List.append_nil] at hcreated
    have hwritten := keeps_putBuilt (s := s) name (.record record) hpart.slot_ne
      [.unreadable "parse durable JSON record"] hpartial hwhole
    have hrest := keeps_buildSlots hI todo (done ++ [record]) hpart.next
      (by rw [currentFiles, List.map_append]; exact hwhole)
    rw [currentFiles, List.map_append, List.append_assoc] at hrest
    refine (keeps_check hs).bind fun _ s₁ _ h₁ => ?_
    rw [h₁.2, hmigrated]
    refine hcreated.bind fun _ s₂ _ h₂ => ?_
    rw [h₂]
    refine hwritten.bind fun _ s₃ _ h₃ => ?_
    rw [h₃]
    exact hrest

theorem returns_buildSlots (name : Uuid) : ∀ (todo done : List SlotRecord), Part n done todo →
      Returns (buildSlots name (todo.map legacyOfRecord)) (building name (currentFiles done) s) ()
        (building name (currentFiles (done ++ todo)) s)
  | [], done, _ => by
    rw [List.append_nil]
    exact Returns.pure
  | record :: todo, done, hpart => by
    obtain ⟨hmigrated, hvalidate⟩ := hpart.validate
    have hcreated := returns_putBuilt (s := s) name
      (.unreadable "parse durable JSON record") hpart.slot_ne []
    rw [List.map_nil, List.append_nil] at hcreated
    have hwritten := returns_putBuilt (s := s) name (.record record) hpart.slot_ne
      [.unreadable "parse durable JSON record"]
    have hrest := returns_buildSlots name todo (done ++ [record]) hpart.next
    rw [currentFiles, List.map_append, List.append_assoc] at hrest
    refine (Returns.check hvalidate).bind ?_
    rw [hmigrated]
    exact hcreated.bind (hwritten.bind hrest)

/-- The root with a staged directory. -/
def staged (name : Uuid) (dir : Dir) (s : Root) : Root := { s with building := [], staging := [(name, dir)] }

theorem published_staging {name : Uuid} {files : List (ℕ × SlotFile)} (hstaging : s.staging = []) :
    { building name files s with
      building := (building name files s).building.without name
      staging := (building name files s).staging ++
        (building name files s).building.filter (·.1 = name) } = staged name ⟨files, 0⟩ s := by
  simp [building, staged, Trees.without, hstaging]

/-- The root after the exchange. -/
def exchanged (name : Uuid) (dir : Dir) (s : Root) : Root :=
  { s with building := [], slots := dir, staging := [(name, s.slots)] }

theorem exchange_staged (name : Uuid) (dir : Dir) :
    { staged name dir s with
      slots := ((staged name dir s).staging.lookup name).getD (staged name dir s).slots
      staging := (staged name dir s).staging.update name fun _ => (staged name dir s).slots } =
      exchanged name dir s := by
  simp [staged, exchanged, Trees.update]

end LightTerminal.LaunchRegistry.Migration
