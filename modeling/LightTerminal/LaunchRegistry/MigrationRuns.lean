import LightTerminal.LaunchRegistry.MigrationPhases

/-! # Runs of the migration

* `migration_sound`: every run stays in the three phases.
* `open_returns_iff`: when an opening that is not cut off succeeds: exactly if no writer of the old
  version left a temporary file behind in the old directory. Then the registry is ready.
* `stranded_forever`: such a file keeps the registry from ever being ready. Nothing else does:
  `stranded_needs_death`.
* `quiescent_recovers`: if no launch of the old version runs, the slots are migrated as they were,
  after any openings that were cut off. -/

namespace LightTerminal.LaunchRegistry.Migration

open LightTerminal.Data.Text LightTerminal.Library LightTerminal.Library.Procedure
open LightTerminal.Library.Crash
open LightTerminal.LaunchRegistry.Record LightTerminal.LaunchRegistry.Store

variable {n : ℕ} {s s' : Root} {records : List SlotRecord} {P : Root → Prop} (io : Io LegacyAction)

/-! ### The migration -/

/-- What `migrate_v1_slots` has done after the exchange, once the marker is there. -/
def finished (s : Root) : Root := unstaged (marked s)

/-- The marker and the removal of the old directory. -/
theorem keeps_finish (hP : Same P) (hn : 0 < n) (h : Inv n P s) (hp : Published s) {name : Uuid} (gc : Uuid)
    (hstaging : s.staging = [(name, ⟨legacyFiles s.records, 0⟩)]) (hbuilding : s.building = [])
    (hgarbage : s.garbage = []) :
    Keeps (Inv n P) (do publishSlotSchemaMarker; removeStagedSlotGeneration n name gc) s
      fun _ s' => s' = finished s := by
  have hnot : ¬Stranded s := fun hstranded =>
    absurd ((hp.stranded_iff hn h.1.records hstaging).mp hstranded) (Nat.lt_irrefl 0)
  have hmarked : Sound n (marked s) := h.1.marked hp hstaging
  have hphase : Marked (marked s) :=
    ⟨rfl, hp.slots, Or.inr ⟨hp.unbound, name, hstaging⟩, hp.guards⟩
  have hdir : Disposable n ⟨legacyFiles s.records, 0⟩ := h.1.records.disposable _
  refine (keeps_publishSlotSchemaMarker (fun markerTemp => h.work hP markerTemp h.1.tidy)
    ⟨hmarked, hP s _ (iff_of_false hphase.not_stranded hnot) rfl rfl h.2⟩).bind fun _ s₁ hs₁ h₁ => ?_
  rw [h₁] at hs₁ ⊢
  refine keeps_removeStaged gc hdir hbuilding hgarbage hstaging hs₁ fun garbage htidy => ?_
  refine ⟨hphase.unstaged (s := marked s) h.1.records ?_, hP s _ (iff_of_false ?_ hnot) rfl rfl h.2⟩
  · rw [show (marked s).building = [] from hbuilding]
    exact htidy
  · exact hphase.unstaged_not_stranded

theorem returns_finish (hp : Published s) (hrecords : Records n s.records) {name : Uuid} (gc : Uuid)
    (hstaging : s.staging = [(name, ⟨legacyFiles s.records, 0⟩)]) (hbuilding : s.building = [])
    (hgarbage : s.garbage = []) :
    Returns (do publishSlotSchemaMarker; removeStagedSlotGeneration n name gc) s () (finished s) :=
  (returns_publishSlotSchemaMarker hp.marker).bind
    (returns_removeStaged gc (hrecords.disposable _) hbuilding hgarbage hstaging)

/-! #### From the exchange on -/

theorem exchanged_published (hl : Legacy n s) (hguards : ∀ slot, s.guards slot = false) (name : Uuid) :
    Published (exchanged name ⟨currentFiles s.records, 0⟩ s) := by
  refine ⟨hl.marker, rfl, hl.unbound, ⟨name, s.slots.strays, ?_⟩, hguards⟩
  change [(name, s.slots)] = _
  rw [Dir.eta s.slots hl.slots]
  rfl

theorem readBack_eq_ok (hn : 0 < n) (hrecords : Records n s.records) (hp : Published s) {name : Uuid}
    {strays : ℕ} (hstaging : s.staging = [(name, ⟨legacyFiles s.records, strays⟩)]) (path : Uuid) :
    readBack n s = .ok path ↔ strays = 0 ∧ path = name := by
  have hread : (List.range n).mapM (fun slot => do
      let value ← readBoundedJson s.slots slot
      validateSlotRecord value slot
      return value : ℕ → Result SlotRecord) = .ok s.records := by
    rw [← hrecords.length]
    refine (mapM_slots s.records (g := fun record => record) fun i record hrecord => ?_).trans
      (by rw [List.map_id'])
    have hvalid := validateSlotRecord_eq_ok.mpr (hrecords.valid i record hrecord)
    have hfile : readBoundedJson s.slots i = .ok record :=
      readBoundedJson_files hrecords (f := fun record => record) hp.slots hrecord
    exact bind_eq_ok.mpr ⟨record, hfile, bind_eq_ok.mpr ⟨(), hvalid, rfl⟩⟩
  unfold readBack
  rw [hread, bind_eq_ok]
  constructor
  · rintro ⟨records, hsome, h⟩
    obtain rfl := Except.ok.inj hsome
    rw [scan_one hstaging, bind_eq_ok] at h
    obtain ⟨scanned, hscanned, h⟩ := h
    rcases Nat.eq_zero_or_pos strays with rfl | hstrays
    · rw [scan_legacy hn hrecords hp.unbound] at hscanned
      obtain rfl := Except.ok.inj hscanned
      obtain ⟨-, -, hpath⟩ := bind_eq_ok.mp h
      exact ⟨rfl, (Except.ok.inj hpath).symm⟩
    · rw [scan_strays hrecords hstrays] at hscanned
      cases hscanned
  · rintro ⟨rfl, rfl⟩
    refine ⟨s.records, rfl, ?_⟩
    rw [scan_one hstaging, scan_legacy hn hrecords hp.unbound]
    refine bind_eq_ok.mpr ⟨_, rfl, ?_⟩
    exact bind_eq_ok.mpr ⟨(), matches_legacy hrecords hp.unbound, rfl⟩

/-- The last part of `startMigration`, from the exchange on. -/
def afterExchange (n : ℕ) (io : Io LegacyAction) : Step Unit := do
  let root ← current
  let path ← check (readBack n root)
  publishSlotSchemaMarker
  removeStagedSlotGeneration n path (io.retire 1)

/-- The part of `startMigration` from the building on. -/
def fromBuilding (n : ℕ) (io : Io LegacyAction) (records : List SlotRecordV1) : Step Unit := do
  createBuilding io.generation
  buildSlots io.generation records
  publishStaging io.generation
  exchangeSlots io.generation
  afterExchange n io

theorem keeps_afterExchange (hP : Same P) (hn : 0 < n) (h : Inv n P s) (hp : Published s) {name : Uuid}
    {strays : ℕ} (hstaging : s.staging = [(name, ⟨legacyFiles s.records, strays⟩)])
    (hbuilding : s.building = []) (hgarbage : s.garbage = []) :
    Keeps (Inv n P) (afterExchange n io) s fun _ s' => s' = finished s := by
  refine (keeps_current h).bind fun root s₁ _ h₁ => ?_
  rw [h₁.1, h₁.2]
  refine (keeps_check h).bind fun path s₂ _ h₂ => ?_
  obtain ⟨hread, rfl⟩ := h₂
  obtain ⟨rfl, rfl⟩ := (readBack_eq_ok hn h.1.records hp hstaging path).mp hread
  exact keeps_finish hP hn h hp (io.retire 1) hstaging hbuilding hgarbage

/-- An exchange keeps the invariant: a stranded root stays stranded. -/
theorem Preparing.exchanged (hP : Same P) (hn : 0 < n) (h : Preparing n P s)
    (hguards : ∀ slot, s.guards slot = false) (name : Uuid) :
    Inv n P (exchanged name ⟨currentFiles s.records, 0⟩ s) := by
  have hp := exchanged_published h.legacy hguards name
  have hstaging : (Migration.exchanged name ⟨currentFiles s.records, 0⟩ s).staging =
      [(name, ⟨legacyFiles s.records, s.slots.strays⟩)] := by
    change [(name, s.slots)] = _
    rw [Dir.eta s.slots h.legacy.slots]
  refine ⟨⟨h.inv.1.records, Or.inr (Or.inl hp), ?_⟩, hP s _ ?_ rfl rfl h.inv.2⟩
  · change Tidy n [] s.garbage
    rw [h.garbage]
    exact tidy_nil
  · have hrecords : Records n (Migration.exchanged name ⟨currentFiles s.records, 0⟩ s).records :=
      h.inv.1.records
    exact (hp.stranded_iff hn hrecords hstaging).trans (h.legacy.stranded_iff hn h.inv.1.records).symm

theorem Preparing.part (h : Preparing n P s) : Part n [] s.records :=
  ⟨h.inv.1.records, h.legacy.unbound⟩

/-- A staged directory of version 2 keeps the invariant. -/
theorem Preparing.staged (hP : Same P) (hn : 0 < n) (h : Preparing n P s) (name : Uuid) :
    Inv n P (staged name ⟨currentFiles s.records, 0⟩ s) := by
  have hl : Legacy n (Migration.staged name ⟨currentFiles s.records, 0⟩ s) :=
    ⟨h.legacy.marker, h.legacy.slots, h.legacy.unbound,
      Or.inr ⟨name, s.records, rfl, h.inv.1.records⟩, h.legacy.guards⟩
  refine ⟨⟨h.inv.1.records, Or.inl hl, ?_⟩, hP s _ ?_ rfl rfl h.inv.2⟩
  · change Tidy n [] s.garbage
    rw [h.garbage]
    exact tidy_nil
  · have hrecords : Records n (Migration.staged name ⟨currentFiles s.records, 0⟩ s).records :=
      h.inv.1.records
    exact (hl.stranded_iff hn hrecords).trans (h.legacy.stranded_iff hn h.inv.1.records).symm

theorem Inv.building (hP : Same P) (h : Inv n P s) (hgarbage : s.garbage = []) {trees : Trees}
    (htidy : Tidy n trees []) : Inv n P { s with building := trees } := by
  have hwork := h.work hP s.markerTemp htidy
  rwa [← hgarbage] at hwork

theorem tidy_created (name : Uuid) : Tidy n [(name, ⟨[], 0⟩)] [] := by
  refine ⟨le_rfl, fun tree htree => ?_⟩
  rw [List.append_nil, List.mem_singleton] at htree
  rw [htree]
  exact ⟨rfl, List.nodup_nil, fun _ hentry => absurd hentry List.not_mem_nil⟩

theorem created_building (name : Uuid) (hbuilding : s.building = []) :
    { s with building := s.building ++ [(name, ⟨[], 0⟩)] } = building name (currentFiles []) s := by
  rw [hbuilding]
  rfl

theorem keeps_fromBuilding (hP : Same P) (hn : 0 < n) (h : Preparing n P s)
    (hguards : ∀ slot, s.guards slot = false) :
    Keeps (Inv n P) (fromBuilding n io (s.records.map legacyOfRecord)) s fun _ s' =>
      s' = finished (exchanged io.generation ⟨currentFiles s.records, 0⟩ s) := by
  have hcreated : Inv n P (building io.generation (currentFiles []) s) :=
    h.inv.building hP h.garbage (tidy_created io.generation)
  have hstaging : (exchanged io.generation ⟨currentFiles s.records, 0⟩ s).staging =
      [(io.generation, ⟨legacyFiles s.records, s.slots.strays⟩)] := by
    change [(io.generation, s.slots)] = _
    rw [Dir.eta s.slots h.legacy.slots]
  refine (keeps_change h.inv fun _ => ?_).bind fun _ s₁ _ h₁ => ?_
  · rw [created_building _ h.building]
    exact hcreated
  · rw [h₁.2, created_building _ h.building]
    refine (keeps_buildSlots (fun trees htidy => h.inv.building hP h.garbage htidy) s.records [] h.part
      hcreated).bind fun _ s₂ hs₂ h₂ => ?_
    rw [h₂] at hs₂ ⊢
    refine (keeps_change hs₂ fun _ => ?_).bind fun _ s₃ hs₃ h₃ => ?_
    · rw [published_staging h.staging]
      exact h.staged hP hn _
    · rw [h₃.2, published_staging h.staging] at hs₃ ⊢
      refine (keeps_change hs₃ fun _ => ?_).bind fun _ s₄ hs₄ h₄ => ?_
      · rw [exchange_staged]
        exact h.exchanged hP hn hguards _
      · rw [h₄.2, exchange_staged] at hs₄ ⊢
        exact keeps_afterExchange io hP hn hs₄ (exchanged_published h.legacy hguards _) hstaging rfl h.garbage

theorem returns_afterExchange (hn : 0 < n) (hrecords : Records n s.records) (hp : Published s)
    {name : Uuid} (hstaging : s.staging = [(name, ⟨legacyFiles s.records, 0⟩)])
    (hbuilding : s.building = []) (hgarbage : s.garbage = []) :
    Returns (afterExchange n io) s () (finished s) := by
  have hread : readBack n s = .ok name :=
    (readBack_eq_ok hn hrecords hp hstaging name).mpr ⟨rfl, rfl⟩
  refine Returns.current.bind ((Returns.check hread).bind ?_)
  exact returns_finish hp hrecords (io.retire 1) hstaging hbuilding hgarbage

theorem returns_fromBuilding (hn : 0 < n) (h : Preparing n P s)
    (hguards : ∀ slot, s.guards slot = false) (hstrays : s.slots.strays = 0) :
    Returns (fromBuilding n io (s.records.map legacyOfRecord)) s ()
      (finished (exchanged io.generation ⟨currentFiles s.records, 0⟩ s)) := by
  have hcreate : Returns (createBuilding io.generation) s ()
      (building io.generation (currentFiles []) s) := by
    rw [← created_building io.generation h.building]
    refine returns_change (require_eq_ok.mpr ?_)
    rw [h.building, not_taken_nil]
  have hpublish : Returns (publishStaging io.generation)
      (building io.generation (currentFiles s.records) s) ()
      (staged io.generation ⟨currentFiles s.records, 0⟩ s) := by
    rw [← published_staging h.staging]
    refine returns_change (require_eq_ok.mpr ?_)
    change taken s.staging io.generation = false
    rw [h.staging, not_taken_nil]
  have hexchange : Returns (exchangeSlots io.generation)
      (staged io.generation ⟨currentFiles s.records, 0⟩ s) ()
      (exchanged io.generation ⟨currentFiles s.records, 0⟩ s) := by
    rw [← exchange_staged]
    exact returns_change rfl
  have hstaging : (exchanged io.generation ⟨currentFiles s.records, 0⟩ s).staging =
      [(io.generation, ⟨legacyFiles s.records, 0⟩)] := by
    change [(io.generation, s.slots)] = _
    rw [Dir.eta s.slots h.legacy.slots, hstrays]
  have hrecords : Records n (exchanged io.generation ⟨currentFiles s.records, 0⟩ s).records :=
    h.inv.1.records
  have hrest := returns_afterExchange io hn hrecords
    (exchanged_published h.legacy hguards io.generation) hstaging rfl h.garbage
  exact hcreate.bind ((returns_buildSlots io.generation s.records [] h.part).bind
    (hpublish.bind (hexchange.bind hrest)))

/-! #### The whole migration -/

/-- The root of a registry that is open. -/
structure Settled (s : Root) : Prop where
  marked : Marked s
  staging : s.staging = []
  building : s.building = []
  garbage : s.garbage = []

theorem Preparing.settled (h : Preparing n P s) (hguards : ∀ slot, s.guards slot = false)
    (name : Uuid) : Settled (finished (Migration.exchanged name ⟨currentFiles s.records, 0⟩ s)) :=
  ⟨⟨rfl, rfl, Or.inl rfl, hguards⟩, rfl, rfl, h.garbage⟩

/-- What a scan makes of the staged directory of a root of version 1. -/
theorem Legacy.scan (hl : Legacy n s) :
    (s.staging = [] ∧ scanStagedSlotGenerations n s = .ok []) ∨
      ∃ name records, s.staging = [(name, ⟨currentFiles records, 0⟩)] ∧ Records n records ∧
        scanStagedSlotGenerations n s = .ok [.current name records] := by
  rcases hl.staging with hnil | ⟨name, records, hone, hrecords⟩
  · exact Or.inl ⟨hnil, scan_nil hnil⟩
  · refine Or.inr ⟨name, records, hone, hrecords, ?_⟩
    rw [scan_one hone, scan_current hrecords]
    rfl

/-- Without its staged directory a root of version 1 is as stranded as it was. -/
theorem Legacy.preparing (hP : Same P) (hn : 0 < n) (h : Inv n P s) (hl : Legacy n s) (hbuilding : s.building = [])
    (hgarbage : s.garbage = []) : Preparing n P (Migration.unstaged s) := by
  have hl' : Legacy n (Migration.unstaged s) :=
    ⟨hl.marker, hl.slots, hl.unbound, Or.inl rfl, hl.guards⟩
  have hrecords : Records n (Migration.unstaged s).records := h.1.records
  refine ⟨⟨⟨hrecords, Or.inl hl', h.1.tidy⟩, hP s _ ?_ rfl rfl h.2⟩, hl', hbuilding, rfl, hgarbage⟩
  exact (hl'.stranded_iff hn hrecords).trans (hl.stranded_iff hn h.1.records).symm

theorem keeps_removeStale (hP : Same P) (hn : 0 < n) (h : Inv n P s) (hl : Legacy n s) (hbuilding : s.building = [])
    (hgarbage : s.garbage = []) {staged : List StagedSlotGeneration}
    (hstaged : scanStagedSlotGenerations n s = .ok staged) :
    Keeps (Inv n P) (removeStale n io 0 staged) s fun _ s' => s' = unstaged s := by
  have hpreparing := hl.preparing hP hn h hbuilding hgarbage
  rcases hl.scan with ⟨hnil, hscan⟩ | ⟨name, records, hone, hrecords, hscan⟩
  · obtain rfl := Except.ok.inj (hscan.symm.trans hstaged)
    refine Keeps.pure h ?_
    unfold unstaged
    rw [← hnil]
  · obtain rfl := Except.ok.inj (hscan.symm.trans hstaged)
    have hremove := keeps_removeStaged (io.retire 0) (hrecords.disposable _) hbuilding hgarbage
      hone h fun garbage htidy => by
        have hwork := hpreparing.inv.work hP s.markerTemp htidy
        rw [← hbuilding] at hwork
        exact hwork
    exact hremove.bind fun _ s₁ hs₁ h₁ => keeps_done hs₁ h₁

theorem returns_removeStale (hl : Legacy n s) (hbuilding : s.building = [])
    (hgarbage : s.garbage = []) :
    ∃ staged, scanStagedSlotGenerations n s = .ok staged ∧ staged.length ≤ 1 ∧
      Returns (removeStale n io 0 staged) s () (unstaged s) := by
  rcases hl.scan with ⟨hnil, hscan⟩ | ⟨name, records, hone, hrecords, hscan⟩
  · refine ⟨[], hscan, Nat.zero_le _, ?_⟩
    unfold unstaged
    rw [← hnil]
    exact Returns.pure
  · refine ⟨_, hscan, le_rfl, ?_⟩
    exact (returns_removeStaged (io.retire 0) (hrecords.disposable _) hbuilding hgarbage hone).bind Returns.pure

/-- The slots are read again once no launch of the old version is left. -/
theorem Preparing.reread (h : Preparing n P s) :
    (List.range n).mapM (rereadSlot s.slots) = .ok (s.records.map legacyOfRecord) :=
  rereadSlots h.inv.1.records h.legacy.unbound h.legacy.slots

theorem keeps_startMigration (hP : Same P)
    (hio : ∀ slot, ∀ action ∈ io.meanwhile slot, action.Survives n P) (hn : 0 < n) (h : Inv n P s) (hl : Legacy n s)
    (hbuilding : s.building = []) (hgarbage : s.garbage = []) {staged : List StagedSlotGeneration}
    (hstaged : scanStagedSlotGenerations n s = .ok staged) :
    Keeps (Inv n P) (startMigration n io (s.records.map legacyOfRecord) staged) s
      fun _ => Settled := by
  refine (keeps_check h).bind fun _ s₁ _ h₁ => ?_
  rw [h₁.2]
  refine (keeps_check h).bind fun _ s₂ _ h₂ => ?_
  rw [h₂.2]
  refine (keeps_removeStale io hP hn h hl hbuilding hgarbage hstaged).bind fun _ s₃ _ h₃ => ?_
  rw [h₃]
  have hpreparing := hl.preparing hP hn h hbuilding hgarbage
  refine (keeps_probeGuards hio (List.range n) hpreparing).bind fun _ s₄ hs₄ h₄ => ?_
  obtain ⟨hpreparing, -, hfree⟩ := h₄
  have hguards : ∀ slot, s₄.guards slot = false := by
    intro slot
    rw [Bool.eq_false_iff]
    intro hheld
    have hslot := hpreparing.legacy.guards slot hheld
    rw [hfree slot (List.mem_range.mpr hslot)] at hheld
    cases hheld
  refine (keeps_current hs₄).bind fun root s₅ _ h₅ => ?_
  rw [h₅.1, h₅.2]
  refine (keeps_check hs₄).bind fun records s₆ _ h₆ => ?_
  obtain ⟨hrecords, rfl⟩ := h₆
  obtain rfl := Except.ok.inj (hpreparing.reread.symm.trans hrecords)
  refine (keeps_fromBuilding io hP hn hpreparing hguards).imp fun _ s₇ _ h₇ => ?_
  rw [h₇]
  exact hpreparing.settled hguards io.generation

theorem returns_startMigration (hn : 0 < n) (h : Sound n s) (hl : Legacy n s)
    (hbuilding : s.building = []) (hgarbage : s.garbage = [])
    (hguards : ∀ slot, s.guards slot = false) (hstrays : s.slots.strays = 0) :
    ∃ staged, scanStagedSlotGenerations n s = .ok staged ∧
      ∃ s', Returns (startMigration n io (s.records.map legacyOfRecord) staged) s () s' ∧
        Settled s' ∧ s'.records = s.records := by
  obtain ⟨staged, hscan, hlength, hstale⟩ := returns_removeStale io hl hbuilding hgarbage
  have hpreparing : Preparing n (fun _ => True) (unstaged s) :=
    hl.preparing (fun _ _ _ _ _ _ => trivial) hn ⟨h, trivial⟩ hbuilding hgarbage
  have hcount : (s.records.map legacyOfRecord).length = n := by
    rw [List.length_map, h.records.length]
  refine ⟨staged, hscan, _, ?_, hpreparing.settled hguards io.generation, rfl⟩
  refine (returns_ensure hcount).bind ((returns_ensure hlength).bind (hstale.bind ?_))
  refine (returns_probeGuards (s := unstaged s) hguards (List.range n)).bind ?_
  refine Returns.current.bind ((Returns.check hpreparing.reread).bind ?_)
  exact returns_fromBuilding io hn hpreparing hguards hstrays

/-- What a scan makes of an old directory. -/
theorem scan_old (hn : 0 < n) (hrecords : Records n s.records) (hunbound : Unbound s.records)
    {name : Uuid} {strays : ℕ} (hstaging : s.staging = [(name, ⟨legacyFiles s.records, strays⟩)])
    {staged : List StagedSlotGeneration} :
    scanStagedSlotGenerations n s = .ok staged ↔
      strays = 0 ∧ staged = [.legacy name (s.records.map legacyOfRecord)] := by
  rw [scan_one hstaging]
  rcases Nat.eq_zero_or_pos strays with rfl | hstrays
  · rw [scan_legacy hn hrecords hunbound]
    constructor
    · intro h
      exact ⟨rfl, (Except.ok.inj h).symm⟩
    · rintro ⟨-, rfl⟩
      rfl
  · rw [scan_strays hrecords hstrays]
    constructor
    · intro h
      cases h
    · rintro ⟨rfl, -⟩
      exact absurd hstrays (Nat.lt_irrefl 0)

theorem Published.settled (hp : Published s) (hbuilding : s.building = []) (hgarbage : s.garbage = []) :
    Settled (finished s) :=
  ⟨⟨rfl, hp.slots, Or.inl rfl, hp.guards⟩, rfl, hbuilding, hgarbage⟩

theorem keeps_completePublished (hP : Same P) (hn : 0 < n) (h : Inv n P s) (hp : Published s)
    (hbuilding : s.building = []) (hgarbage : s.garbage = []) {staged : List StagedSlotGeneration}
    (hstaged : scanStagedSlotGenerations n s = .ok staged) :
    Keeps (Inv n P) (completeMigration n io false s.records staged) s fun _ => Settled := by
  obtain ⟨name, strays, hstaging⟩ := hp.staging
  obtain ⟨rfl, rfl⟩ := (scan_old hn h.1.records hp.unbound hstaging).mp hstaged
  refine (keeps_check h).bind fun _ s₁ _ h₁ => ?_
  rw [h₁.2]
  have hfinish := (keeps_finish hP hn h hp (io.retire 0) hstaging hbuilding hgarbage).bind
    fun _ s₂ hs₂ h₂ => keeps_done hs₂ h₂
  rw [bind_assoc] at hfinish
  refine hfinish.imp fun _ s₂ _ h₂ => ?_
  rw [h₂]
  exact hp.settled hbuilding hgarbage

theorem returns_completePublished (hn : 0 < n) (hrecords : Records n s.records) (hp : Published s)
    (hbuilding : s.building = []) (hgarbage : s.garbage = []) {name : Uuid}
    (hstaging : s.staging = [(name, ⟨legacyFiles s.records, 0⟩)]) :
    ∃ staged, scanStagedSlotGenerations n s = .ok staged ∧
      Returns (completeMigration n io false s.records staged) s () (finished s) := by
  refine ⟨_, (scan_old hn hrecords hp.unbound hstaging).mpr ⟨rfl, rfl⟩, ?_⟩
  have hcheck : checkCurrent n false s.records [.legacy name (s.records.map legacyOfRecord)] = .ok () :=
    bind_eq_ok.mpr ⟨(), require_eq_ok.mpr hrecords.length,
      bind_eq_ok.mpr ⟨(), require_eq_ok.mpr le_rfl, matches_legacy hrecords hp.unbound⟩⟩
  have hfinish := (returns_finish hp hrecords (io.retire 0) hstaging hbuilding hgarbage).bind
    Returns.pure
  rw [bind_assoc] at hfinish
  exact (Returns.check hcheck).bind hfinish

theorem Marked.settled (hm : Marked s) (hbuilding : s.building = []) (hgarbage : s.garbage = []) :
    Settled (Migration.unstaged s) :=
  ⟨⟨hm.marker, hm.slots, Or.inl rfl, hm.guards⟩, rfl, hbuilding, hgarbage⟩

theorem unstaged_self (hstaging : s.staging = []) : unstaged s = s := by
  unfold unstaged
  rw [← hstaging]

theorem keeps_completeMarked (hP : Same P) (hn : 0 < n) (h : Inv n P s) (hm : Marked s)
    (hbuilding : s.building = []) (hgarbage : s.garbage = []) {staged : List StagedSlotGeneration}
    (hstaged : scanStagedSlotGenerations n s = .ok staged) :
    Keeps (Inv n P) (completeMigration n io true s.records staged) s fun _ => Settled := by
  have hsettled := hm.settled hbuilding hgarbage
  refine (keeps_check h).bind fun _ s₁ _ h₁ => ?_
  rw [h₁.2]
  refine (keeps_done h rfl).bind fun _ s₂ _ h₂ => ?_
  rw [h₂]
  rcases hm.staging with hnil | ⟨hunbound, name, hstaging⟩
  · obtain rfl := Except.ok.inj ((scan_nil hnil).symm.trans hstaged)
    rw [unstaged_self hnil] at hsettled
    exact Keeps.pure h hsettled
  · obtain ⟨-, rfl⟩ := (scan_old hn h.1.records hunbound hstaging).mp hstaged
    have hremove := keeps_removeStaged (io.retire 0) (h.1.records.disposable _) hbuilding
      hgarbage hstaging h fun garbage htidy =>
        ⟨hm.unstaged h.1.records (by rwa [hbuilding]), hP s _
          (iff_of_false hm.unstaged_not_stranded hm.not_stranded) rfl rfl h.2⟩
    refine hremove.bind fun _ s₃ hs₃ h₃ => ?_
    rw [h₃] at hs₃ ⊢
    exact Keeps.pure hs₃ hsettled

theorem returns_completeMarked (hn : 0 < n) (hrecords : Records n s.records) (hm : Marked s)
    (hbuilding : s.building = []) (hgarbage : s.garbage = []) :
    ∃ staged, scanStagedSlotGenerations n s = .ok staged ∧
      Returns (completeMigration n io true s.records staged) s () (unstaged s) := by
  have hlength : ensure (s.records.length = n) "managed v2 slot generation is incomplete" = .ok () :=
    require_eq_ok.mpr hrecords.length
  rcases hm.staging with hnil | ⟨hunbound, name, hstaging⟩
  · refine ⟨[], scan_nil hnil, ?_⟩
    have hcheck : checkCurrent n true s.records [] = .ok () :=
      bind_eq_ok.mpr ⟨(), hlength, bind_eq_ok.mpr ⟨(), require_eq_ok.mpr (Nat.zero_le _), rfl⟩⟩
    rw [unstaged_self hnil]
    exact (Returns.check hcheck).bind (Returns.pure.bind Returns.pure)
  · refine ⟨_, (scan_old hn hrecords hunbound hstaging).mpr ⟨rfl, rfl⟩, ?_⟩
    have hcheck :
        checkCurrent n true s.records [.legacy name (s.records.map legacyOfRecord)] = .ok () :=
      bind_eq_ok.mpr ⟨(), hlength,
        bind_eq_ok.mpr ⟨(), require_eq_ok.mpr le_rfl, matches_legacy hrecords hunbound⟩⟩
    have hremove := returns_removeStaged (io.retire 0) (hrecords.disposable _) hbuilding hgarbage
      hstaging
    exact (Returns.check hcheck).bind (Returns.pure.bind (hremove.bind Returns.pure))

/-! ### Openings -/

theorem Settled.ready (h : Settled s) (hrecords : Records n s.records) :
    currentSchemaReadyWithoutMigration n s = .ok true := by
  have hread : (List.range n).mapM (fun slot => do
      let value ← readBoundedJson s.slots slot
      ensure (value.schemaVersion = slotSchemaVersion)
        "managed schema marker published over a non-v2 slot"
      validateSlotRecord value slot : ℕ → Result Unit) = .ok (s.records.map fun _ => ()) := by
    rw [← hrecords.length]
    refine mapM_slots s.records fun i record hrecord => ?_
    have hvalid := hrecords.valid i record hrecord
    have hfile : readBoundedJson s.slots i = .ok record :=
      readBoundedJson_files hrecords (f := fun record => record) h.marked.slots hrecord
    exact bind_eq_ok.mpr ⟨record, hfile, bind_eq_ok.mpr ⟨(),
      require_eq_ok.mpr hvalid.1.schemaVersion, validateSlotRecord_eq_ok.mpr hvalid⟩⟩
  have hempty : ¬(s.staging ≠ [] ∨ s.building ≠ [] ∨ s.garbage ≠ []) := by
    simp [h.staging, h.building, h.garbage]
  refine bind_eq_ok.mpr ⟨true, markerReady_some h.marked.marker, ?_⟩
  rw [if_neg Bool.true_eq_false_eq_False, if_neg hempty, hread]
  rfl

theorem ready_eq (h : Sound n s) :
    (Settled s ∧ currentSchemaReadyWithoutMigration n s = .ok true) ∨
      (¬Settled s ∧ currentSchemaReadyWithoutMigration n s = .ok false) := by
  by_cases hsettled : Settled s
  · exact Or.inl ⟨hsettled, hsettled.ready h.records⟩
  · refine Or.inr ⟨hsettled, ?_⟩
    have hunmarked (hmarker : s.marker = none) :
        currentSchemaReadyWithoutMigration n s = .ok false :=
      bind_eq_ok.mpr ⟨false, markerReady_none hmarker, rfl⟩
    rcases h.phase with hl | hp | hm
    · exact hunmarked hl.marker
    · exact hunmarked hp.marker
    · have hrest : s.staging ≠ [] ∨ s.building ≠ [] ∨ s.garbage ≠ [] := by
        by_contra hnone
        push Not at hnone
        exact hsettled ⟨hm, hnone.1, hnone.2.1, hnone.2.2⟩
      refine bind_eq_ok.mpr ⟨true, markerReady_some hm.marker, ?_⟩
      rw [if_neg Bool.true_eq_false_eq_False, if_pos hrest]
      rfl

theorem ready_iff (h : Sound n s) : s.ready n = true ↔ Settled s := by
  unfold Root.ready
  rcases ready_eq h with ⟨hsettled, hready⟩ | ⟨hsettled, hready⟩
  · rw [hready]
    exact iff_of_true rfl hsettled
  · rw [hready]
    exact iff_of_false Bool.false_ne_true hsettled

theorem keeps_migrate (hP : Same P)
    (hio : ∀ slot, ∀ action ∈ io.meanwhile slot, action.Survives n P) (hn : 0 < n) (h : Inv n P s) :
    Keeps (Inv n P) (migrateV1Slots n io) s fun _ => Settled := by
  refine (keeps_check h).bind fun _ s₁ _ h₁ => ?_
  rw [h₁.2]
  refine (keeps_reclaim h.1.tidy fun building garbage htidy =>
    h.work hP s.markerTemp htidy).bind fun _ s₂ hs₂ h₂ => ?_
  have hbuilding : s₂.building = [] := congrArg Root.building h₂
  have hgarbage : s₂.garbage = [] := congrArg Root.garbage h₂
  refine (keeps_current hs₂).bind fun root s₃ _ h₃ => ?_
  rw [h₃.1, h₃.2]
  refine (keeps_check hs₂).bind fun found s₄ _ h₄ => ?_
  obtain ⟨hfound, rfl⟩ := h₄
  rcases hs₂.1.phase with hl | hp | hm
  · obtain ⟨staged, hstaged, rfl⟩ := (find_legacy hs₂.1.records hl).mp hfound
    rw [if_neg (map_ne_nil hn hs₂.1.records legacyOfRecord)]
    exact keeps_startMigration io hP hio hn hs₂ hl hbuilding hgarbage hstaged
  · obtain ⟨staged, hstaged, rfl⟩ :=
      (find_current hs₂.1.records hp.slots (markerReady_none hp.marker)).mp hfound
    rw [if_pos rfl]
    exact keeps_completePublished io hP hn hs₂ hp hbuilding hgarbage hstaged
  · obtain ⟨staged, hstaged, rfl⟩ :=
      (find_current hs₂.1.records hm.slots (markerReady_some hm.marker)).mp hfound
    rw [if_pos rfl]
    exact keeps_completeMarked io hP hn hs₂ hm hbuilding hgarbage hstaged

/-- Wherever an opening is cut off, the invariant holds; if it returns, the registry is open. -/
theorem keeps_openAt (hP : Same P)
    (hio : ∀ slot, ∀ action ∈ io.meanwhile slot, action.Survives n P) (hn : 0 < n) (h : Inv n P s) :
    Keeps (Inv n P) (openAt n io) s fun _ => Settled := by
  refine (keeps_current h).bind fun root s₁ _ h₁ => ?_
  rw [h₁.1, h₁.2]
  rcases ready_eq h.1 with ⟨hsettled, hready⟩ | ⟨-, hready⟩
  · rw [hready]
    exact Keeps.pure h hsettled
  · rw [hready]
    exact keeps_migrate io hP hio hn h

theorem returns_migrate (hn : 0 < n) (h : Sound n s) (hbusy : io.registryBusy = false)
    (hguards : ∀ slot, s.guards slot = false) (hstranded : ¬Stranded s) :
    ∃ s', Returns (migrateV1Slots n io) s () s' ∧ Settled s' ∧ s'.records = s.records := by
  have hreclaimed : Sound n (reclaimed s) :=
    (Inv.work (P := fun _ => True) (fun _ _ _ _ _ _ => trivial) ⟨h, trivial⟩ s.markerTemp tidy_nil).1
  have hprefix {found : Found} {s' : Root} (hfound : find n (reclaimed s) = .ok found)
      (hrest : Returns (if found.legacy = [] then
        completeMigration n io found.markerReady found.current found.staged
        else startMigration n io found.legacy found.staged) (reclaimed s) () s') :
      Returns (migrateV1Slots n io) s () s' :=
    (returns_ensure hbusy).bind ((returns_reclaim h.tidy).bind
      (Returns.current.bind ((Returns.check hfound).bind hrest)))
  rcases hreclaimed.phase with hl | hp | hm
  · have hstrays : (reclaimed s).slots.strays = 0 :=
      Nat.eq_zero_of_not_pos fun hpos =>
        hstranded ((hl.stranded_iff hn hreclaimed.records).mpr hpos)
    obtain ⟨staged, hstaged, s', hstart, hsettled, hrecords⟩ :=
      returns_startMigration io hn hreclaimed hl rfl rfl hguards hstrays
    refine ⟨s', hprefix ((find_legacy hreclaimed.records hl).mpr ⟨staged, hstaged, rfl⟩) ?_, hsettled,
      hrecords⟩
    rw [if_neg (map_ne_nil hn hreclaimed.records legacyOfRecord)]
    exact hstart
  · obtain ⟨name, strays, hstaging⟩ := hp.staging
    obtain rfl : strays = 0 := Nat.eq_zero_of_not_pos fun hpos =>
      hstranded ((hp.stranded_iff hn hreclaimed.records hstaging).mpr hpos)
    obtain ⟨staged, hstaged, hcomplete⟩ :=
      returns_completePublished io hn hreclaimed.records hp rfl rfl hstaging
    refine ⟨_, hprefix ((find_current hreclaimed.records hp.slots (markerReady_none hp.marker)).mpr
      ⟨staged, hstaged, rfl⟩) ?_, hp.settled rfl rfl, rfl⟩
    rw [if_pos rfl]
    exact hcomplete
  · obtain ⟨staged, hstaged, hcomplete⟩ :=
      returns_completeMarked io hn hreclaimed.records hm rfl rfl
    refine ⟨_, hprefix ((find_current hreclaimed.records hm.slots (markerReady_some hm.marker)).mpr
      ⟨staged, hstaged, rfl⟩) ?_, hm.settled rfl rfl, rfl⟩
    rw [if_pos rfl]
    exact hcomplete

theorem returns_openAt (hn : 0 < n) (h : Sound n s) (hbusy : io.registryBusy = false)
    (hguards : ∀ slot, s.guards slot = false) (hstranded : ¬Stranded s) :
    ∃ s', Returns (openAt n io) s () s' ∧ Settled s' ∧ s'.records = s.records := by
  rcases ready_eq h with ⟨hsettled, hready⟩ | ⟨-, hready⟩
  · exact ⟨s, Returns.current.bind ((Returns.check hready).bind Returns.pure), hsettled, rfl⟩
  · obtain ⟨s', hreturns, hsettled, hrecords⟩ := returns_migrate io hn h hbusy hguards hstranded
    exact ⟨s', Returns.current.bind ((Returns.check hready).bind hreturns), hsettled, hrecords⟩

/-! ### Runs -/

theorem isLegacy_false (hrecords : Records n s.records) (hfiles : s.slots.files = currentFiles s.records)
    (slot : ℕ) : s.isLegacy slot = false := by
  unfold Root.isLegacy
  rw [hfiles, currentFiles, hrecords.lookup fun record => .record record]
  cases hrecord : s.records[slot]? with
  | none => rfl
  | some record =>
    have hversion := (hrecords.valid slot record hrecord).1.schemaVersion
    change decide (record.schemaVersion = 1) = false
    rw [hversion]
    rfl

theorem Legacy.isLegacy_lt (hl : Legacy n s) (hrecords : Records n s.records) {slot : ℕ}
    (h : s.isLegacy slot = true) : slot < n := by
  by_contra hle
  have hnone : s.records[slot]? = none := List.getElem?_eq_none (by rw [hrecords.length]; omega)
  unfold Root.isLegacy at h
  rw [hl.slots, legacyFiles,
    hrecords.lookup fun record => .record { record with schemaVersion := 1 }, hnone] at h
  exact Bool.false_ne_true h

/-- A launch of the old version can take its guard only while the slots are of version 1. -/
theorem Sound.guard (h : Sound n s) {slot : ℕ} (hlegacy : s.isLegacy slot = true) :
    Sound n { s with guards := Function.update s.guards slot true } := by
  refine ⟨h.records, ?_, h.tidy⟩
  rcases h.phase with hl | hp | hm
  · refine Or.inl ⟨hl.marker, hl.slots, hl.unbound, hl.staging, fun other hother => ?_⟩
    change Function.update s.guards slot true other = true at hother
    by_cases heq : other = slot
    · rw [heq]
      exact hl.isLegacy_lt h.records hlegacy
    · rw [Function.update_of_ne heq] at hother
      exact hl.guards other hother
  · rw [isLegacy_false h.records hp.slots] at hlegacy
    exact absurd hlegacy Bool.false_ne_true
  · rw [isLegacy_false h.records hm.slots] at hlegacy
    exact absurd hlegacy Bool.false_ne_true

theorem Tidy.dropTree {building garbage : Trees} (h : Tidy n building garbage) (name : Uuid)
    (kept : Option (List ℕ)) : Tidy n (dropTree building name kept) garbage := by
  have hcount := h.count
  cases kept with
  | none =>
    have hle := List.length_filter_le (fun tree : Uuid × Dir => decide (tree.1 ≠ name)) building
    refine ⟨?_, fun tree htree => h.disposable tree ?_⟩
    · change (building.filter fun tree => decide (tree.1 ≠ name)).length + garbage.length ≤ 1
      omega
    · rcases List.mem_append.mp htree with hb | hg
      · exact List.mem_append_left _ (List.mem_of_mem_filter hb)
      · exact List.mem_append_right _ hg
  | some kept =>
    refine ⟨?_, fun tree htree => ?_⟩
    · unfold Migration.dropTree Trees.update
      rwa [List.length_map]
    · rcases List.mem_append.mp htree with hb | hg
      · obtain ⟨old, hold, rfl⟩ := List.mem_map.mp hb
        have hdisposable := h.disposable old (List.mem_append_left _ hold)
        split_ifs
        · exact hdisposable.filter _
        · exact hdisposable
      · exact h.disposable tree (List.mem_append_right _ hg)

/-- A write through an open registry. -/
theorem Settled.write (h : Settled s) (hrecords : Records n s.records) {record : SlotRecord}
    (hvalid : record.Valid) : Sound n (s.write record (.record record)) := by
  have hslots : s.slots.replace record.slot (.record record) =
      ⟨currentFiles (s.records.set record.slot record), s.slots.strays⟩ := by
    rw [Dir.eta s.slots h.marked.slots]
    exact replace_files hrecords (fun record => .record record) _
  refine ⟨hrecords.set hvalid, Or.inr (Or.inr ⟨h.marked.marker, congrArg Dir.files hslots,
    Or.inl h.staging, h.marked.guards⟩), ?_⟩
  change Tidy n s.building s.garbage
  rw [h.building, h.garbage]
  exact tidy_nil

/-- Nothing else. -/
theorem same_true : Same fun _ => True := fun _ _ _ _ _ _ => trivial

theorem step_sound (hn : 0 < n) (h : Sound n s) (event : Event) : Sound n (step n s event) := by
  have hinv : Inv n (fun _ => True) s := ⟨h, trivial⟩
  cases event with
  | «open» io budget =>
    exact (keeps_openAt io same_true (fun _ _ _ _ _ _ _ => trivial) hn hinv budget).1.1
  | dropTempTree name kept => exact (hinv.work same_true s.markerTemp (h.tidy.dropTree name kept)).1
  | guard slot =>
    change Sound n (if _ then _ else _)
    split_ifs with hlegacy
    · exact h.guard hlegacy
    · exact h
  | legacy action => exact (action.step_inv (fun _ _ _ _ => trivial) hinv).1
  | write record =>
    change Sound n (if _ then _ else _)
    split_ifs with hwrite
    · exact ((ready_iff h).mp hwrite.1).write h.records (validateSlotRecord_eq_ok.mp hwrite.2).1
    · exact h
  | strand =>
    change Sound n (if _ then _ else _)
    split_ifs with hready
    · have hm := ((ready_iff h).mp hready).marked
      exact ⟨h.records, Or.inr (Or.inr ⟨hm.marker, hm.slots, hm.staging, hm.guards⟩), h.tidy⟩
    · exact h

/-- An event keeps what is known. -/
def Event.Survives (n : ℕ) (P : Root → Prop) : Event → Prop
  | .open io _ => ∀ slot, ∀ action ∈ io.meanwhile slot, action.Survives n P
  | event => ∀ s, Sound n s → P s → P (step n s event)

theorem step_inv (hP : Same P) (hn : 0 < n) (h : Inv n P s) (event : Event)
    (hevent : event.Survives n P) : Inv n P (step n s event) := by
  cases event with
  | «open» io budget => exact (keeps_openAt io hP hevent hn h budget).1
  | _ => exact ⟨step_sound hn h.1 _, hevent s h.1 h.2⟩

theorem run_inv (hP : Same P) (hn : 0 < n) (h : Inv n P s) (events : List Event)
    (hevents : ∀ event ∈ events, event.Survives n P) : Inv n P (run n s events) := by
  induction events generalizing s with
  | nil => exact h
  | cons event events ih =>
    have hnext := step_inv hP hn h event (hevents event List.mem_cons_self)
    exact ih hnext fun other hother => hevents other (List.mem_cons_of_mem _ hother)

theorem same_stranded : Same Stranded := fun _ _ hiff _ _ hstranded => hiff.mpr hstranded

/-- A stranded root stays stranded. -/
theorem survives_stranded (hn : 0 < n) (event : Event) : event.Survives n Stranded := by
  have hlegacy (action : LegacyAction) : action.Survives n Stranded := by
    intro s hrecords hl hstranded
    obtain ⟨hrecords', hl', hstrays⟩ := action.step_legacy hrecords hl
    have hpos := (hl.stranded_iff hn hrecords).mp hstranded
    exact (hl'.stranded_iff hn hrecords').mpr (hpos.trans_le hstrays)
  have hready {s s' : Root} (hs : Sound n s) (hstranded : Stranded s) (hready : s.ready n = true) :
      Stranded s' := absurd hstranded ((ready_iff hs).mp hready).marked.not_stranded
  cases event with
  | «open» io budget => exact fun slot action _ => hlegacy action
  | dropTempTree name kept => exact fun s _ hstranded => hstranded
  | guard slot =>
    intro s _ hstranded
    change Stranded (if _ then _ else _)
    split_ifs
    · exact hstranded
    · exact hstranded
  | legacy action =>
    intro s hs hstranded
    exact (action.step_inv (hlegacy action) ⟨hs, hstranded⟩).2
  | write record =>
    intro s hs hstranded
    change Stranded (if _ then _ else _)
    split_ifs with hwrite
    · exact hready hs hstranded hwrite.1
    · exact hstranded
  | strand =>
    intro s hs hstranded
    change Stranded (if _ then _ else _)
    split_ifs with hopen
    · exact hready hs hstranded hopen
    · exact hstranded

/-- A launch of the old version dies while it replaces its slot file. -/
def Event.Kills : Event → Prop
  | .open io _ => ∃ slot dying, LegacyAction.die dying ∈ io.meanwhile slot
  | .legacy (.die _) => True
  | _ => False

/-- Without such a death no root becomes stranded. -/
theorem survives_not_stranded (hn : 0 < n) (event : Event) (hevent : ¬event.Kills) :
    event.Survives n fun s => ¬Stranded s := by
  have hlegacy (action : LegacyAction) (halive : ∀ slot, action ≠ .die slot) :
      action.Survives n fun s => ¬Stranded s := by
    intro s hrecords hl hnot hstranded
    obtain ⟨hrecords', hl', -⟩ := action.step_legacy hrecords hl
    have hpos := (hl'.stranded_iff hn hrecords').mp hstranded
    have hstrays : (action.step s).slots.strays = s.slots.strays := by
      cases action with
      | write record =>
        change (s.legacyWrite record).slots.strays = s.slots.strays
        unfold Root.legacyWrite
        split_ifs <;> rfl
      | finish slot => rfl
      | die slot => exact absurd rfl (halive slot)
    rw [hstrays] at hpos
    exact hnot ((hl.stranded_iff hn hrecords).mpr hpos)
  have hready {s s' : Root} (hs : Sound n s) (hopen : s.ready n = true) (hmarker : s'.marker = s.marker) :
      ¬Stranded s' := by
    rintro ⟨hnone, -⟩
    rw [hmarker, ((ready_iff hs).mp hopen).marked.marker] at hnone
    cases hnone
  cases event with
  | «open» io budget =>
    intro slot action hmem
    exact hlegacy action fun dying heq => hevent ⟨slot, dying, heq ▸ hmem⟩
  | dropTempTree name kept => exact fun s _ hnot => hnot
  | guard slot =>
    intro s _ hnot
    change ¬Stranded (if _ then _ else _)
    split_ifs
    · exact hnot
    · exact hnot
  | legacy action =>
    intro s hs hnot
    have halive : ∀ slot, action ≠ .die slot := by
      rintro slot rfl
      exact hevent trivial
    exact (action.step_inv (hlegacy action halive) ⟨hs, hnot⟩).2
  | write record =>
    intro s hs hnot
    change ¬Stranded (if _ then _ else _)
    split_ifs with hwrite
    · exact hready hs hwrite.1 rfl
    · exact hnot
  | strand =>
    intro s hs hnot
    change ¬Stranded (if _ then _ else _)
    split_ifs with hopen
    · exact hready hs hopen rfl
    · exact hnot

theorem same_not_stranded : Same fun s => ¬Stranded s :=
  fun _ _ hiff _ _ hnot hstranded => hnot (hiff.mp hstranded)

/-- No launch of the old version runs, nothing was written, and nothing is stranded. -/
structure Quiescent (records : List SlotRecord) (s : Root) : Prop where
  guards : ∀ slot, s.guards slot = false
  records : s.records = records
  stranded : ¬Stranded s

theorem same_quiescent : Same (Quiescent records) := by
  intro s s' hiff hguards hrecords h
  refine ⟨fun slot => ?_, hrecords.trans h.records, fun hstranded => h.stranded (hiff.mp hstranded)⟩
  rw [hguards]
  exact h.guards slot

/-- An opening, or what is removed after one that failed. -/
def Event.Recovers : Event → Prop
  | .open _ _ => True
  | .dropTempTree _ _ => True
  | _ => False

theorem survives_quiescent (event : Event) (hevent : event.Recovers) :
    event.Survives n (Quiescent records) := by
  cases event with
  | «open» io budget =>
    intro slot action _ s _ _ h
    rw [action.step_idle h.guards]
    exact h
  | dropTempTree name kept => exact fun s _ h => ⟨h.guards, h.records, h.stranded⟩
  | _ => exact hevent.elim

/-- A registry of the old version, or a new one. -/
inductive Initial (n : ℕ) : Root → Prop where
  | legacy (records : List SlotRecord) (hrecords : Records n records) (hunbound : Unbound records) :
    Initial n (legacyRoot records)
  | genesis : Initial n (genesisRoot n)

/-- The roots that there may be. -/
def Reachable (n : ℕ) (s : Root) : Prop := ∃ s₀ events, Initial n s₀ ∧ s = run n s₀ events

theorem genesis_records (n : ℕ) : Records n (genesisRoot n).records := by
  refine ⟨by simp [genesisRoot, legacyRoot], fun i record hrecord => ?_⟩
  change ((List.range n).map _)[i]? = some record at hrecord
  rw [List.getElem?_map, Option.map_eq_some_iff] at hrecord
  obtain ⟨slot, hslot, rfl⟩ := hrecord
  rw [List.getElem?_eq_some_iff] at hslot
  obtain ⟨hlt, hslot⟩ := hslot
  rw [List.getElem_range] at hslot
  have hnone {α : Type} (a : α) : none ≠ some a := (Option.some_ne_none a).symm
  exact ⟨⟨rfl, fun owner ho => absurd ho (hnone owner), fun binding hb => absurd hb (hnone binding),
    fun _ => ⟨rfl, rfl⟩, fun nonce hnonce => absurd hnonce (hnone nonce)⟩, hslot.symm⟩

theorem genesis_unbound (n : ℕ) : Unbound (genesisRoot n).records := by
  intro record hrecord
  obtain ⟨slot, -, rfl⟩ := List.mem_map.mp hrecord
  rfl

theorem Initial.inv (hn : 0 < n) (h : Initial n s) : Inv n (fun s => ¬Stranded s) s := by
  cases h with
  | legacy records hrecords hunbound =>
    have hl : Legacy n (legacyRoot records) :=
      ⟨rfl, rfl, hunbound, Or.inl rfl, fun _ hheld => absurd hheld Bool.false_ne_true⟩
    refine ⟨⟨hrecords, Or.inl hl, tidy_nil⟩, fun hstranded => ?_⟩
    exact absurd ((hl.stranded_iff hn hrecords).mp hstranded) (Nat.lt_irrefl 0)
  | genesis =>
    have hm : Marked (genesisRoot n) := ⟨rfl, rfl, Or.inl rfl, fun _ => rfl⟩
    exact ⟨⟨genesis_records n, Or.inr (Or.inr hm), tidy_nil⟩, hm.not_stranded⟩

theorem Reachable.sound (hn : 0 < n) (h : Reachable n s) : Sound n s := by
  obtain ⟨s₀, events, hinitial, rfl⟩ := h
  have hstart : Inv n (fun _ => True) s₀ := ⟨(hinitial.inv hn).1, trivial⟩
  have hevents (event : Event) : event.Survives n fun _ => True := by
    cases event with
    | «open» io budget => exact fun _ _ _ _ _ _ _ => trivial
    | _ => exact fun _ _ _ => trivial
  exact (run_inv same_true hn hstart events fun event _ => hevents event).1

/-- A registry of one vacant slot, of the old version. -/
def vacantRoot : Root := legacyRoot (genesisRoot 1).records

theorem vacantRoot_reachable (events : List Event) : Reachable 1 (run 1 vacantRoot events) :=
  ⟨vacantRoot, events, .legacy _ (genesis_records 1) (genesis_unbound 1), rfl⟩

/-- An opening, with its uuids. -/
def sampleIo : Io LegacyAction := ⟨false, 1, fun i => 2 + i, fun i => 4 + i, fun _ => []⟩

/-- Whatever was cut off, the slots are there as a whole and hold what was written last, the marker is
only over version 2, and without it the directory of version 1 is kept. -/
theorem migration_sound (hn : 0 < n) (h : Reachable n s) :
    Records n s.records ∧
      (s.slots.files = legacyFiles s.records ∧ s.marker = none ∨
        s.slots.files = currentFiles s.records ∧
          (s.marker = some "2\n" ∨ s.marker = none ∧
            ∃ name strays, s.staging = [(name, ⟨legacyFiles s.records, strays⟩)])) ∧
      s.staging.length ≤ 1 ∧ s.building.length + s.garbage.length ≤ 1 := by
  obtain ⟨hrecords, hphase, htidy⟩ := h.sound hn
  refine ⟨hrecords, ?_, ?_, htidy.count⟩
  · rcases hphase with hl | hp | hm
    · exact Or.inl ⟨hl.slots, hl.marker⟩
    · exact Or.inr ⟨hp.slots, Or.inr ⟨hp.marker, hp.staging⟩⟩
    · exact Or.inr ⟨hm.slots, Or.inl hm.marker⟩
  · rcases hphase with hl | hp | hm
    · rcases hl.staging with hnil | ⟨name, records, hone, -⟩
      · rw [hnil]
        exact Nat.zero_le _
      · rw [hone]
        exact le_rfl
    · obtain ⟨name, strays, hone⟩ := hp.staging
      rw [hone]
      exact le_rfl
    · rcases hm.staging with hnil | ⟨-, name, hone⟩
      · rw [hnil]
        exact Nat.zero_le _
      · rw [hone]
        exact le_rfl

/-- An opening is cut off after the exchange. -/
theorem migration_sound_exchanged :
    (run 1 vacantRoot [.open sampleIo 5]).slots.files = currentFiles (genesisRoot 1).records ∧
      (run 1 vacantRoot [.open sampleIo 5]).staging.length ≤ 1 :=
  ⟨by decide, (migration_sound Nat.one_pos (vacantRoot_reachable [.open sampleIo 5])).2.2.1⟩

/-- An opening that nobody disturbs and that is not cut off too early succeeds exactly if the root is not
stranded. It then leaves a registry that is ready, with the records as they were. -/
theorem open_returns_iff (hn : 0 < n) (h : Reachable n s) (io : Io LegacyAction)
    (hbusy : io.registryBusy = false) (hguards : ∀ slot, s.guards slot = false) :
    ((∃ budget, (outcome (openAt n io) s budget).1 = .ok ()) ↔ ¬Stranded s) ∧
      (¬Stranded s → ∃ least, ∀ budget, least ≤ budget →
        (outcome (openAt n io) s budget).1 = .ok () ∧
          (outcome (openAt n io) s budget).2.state.ready n = true ∧
          (outcome (openAt n io) s budget).2.state.records = s.records) := by
  have hsound : Sound n s := h.sound hn
  have hmeanwhile : ∀ slot, ∀ action ∈ io.meanwhile slot, action.Survives n Stranded :=
    survives_stranded hn (.open io 0)
  have hreturns (hstranded : ¬Stranded s) : ∃ least, ∀ budget, least ≤ budget →
      (outcome (openAt n io) s budget).1 = .ok () ∧
        (outcome (openAt n io) s budget).2.state.ready n = true ∧
        (outcome (openAt n io) s budget).2.state.records = s.records := by
    obtain ⟨s', hreturns, hsettled, hrecords⟩ := returns_openAt io hn hsound hbusy hguards hstranded
    obtain ⟨least, hleast⟩ := hreturns.outcome
    refine ⟨least, fun budget hbudget => ?_⟩
    obtain ⟨hok, hstate⟩ := hleast budget hbudget
    have hsound' := step_sound hn hsound (.open io budget)
    change Sound n (outcome (openAt n io) s budget).2.state at hsound'
    rw [hstate] at hsound' ⊢
    exact ⟨hok, (ready_iff hsound').mpr hsettled, hrecords⟩
  refine ⟨⟨?_, fun hstranded => ?_⟩, hreturns⟩
  · rintro ⟨budget, hok⟩ hstranded
    obtain ⟨hinv, hsettled⟩ := keeps_openAt io same_stranded hmeanwhile hn ⟨hsound, hstranded⟩ budget
    exact (hsettled () hok).marked.not_stranded hinv.2
  · obtain ⟨least, hleast⟩ := hreturns hstranded
    exact ⟨least, (hleast least le_rfl).1⟩

theorem open_returns_exchanged :
    ∃ budget, (outcome (openAt 1 sampleIo) (run 1 vacantRoot [.open sampleIo 5]) budget).1 = .ok () :=
  (open_returns_iff Nat.one_pos (vacantRoot_reachable [.open sampleIo 5]) sampleIo rfl
    (fun _ => rfl)).1.mpr (by decide)

/-- A stranded root stays so: no opening succeeds any more, and the registry is never ready. -/
theorem stranded_forever (hn : 0 < n) (h : Reachable n s) (hstranded : Stranded s)
    (events : List Event) :
    Stranded (run n s events) ∧ (run n s events).ready n = false ∧
      ∀ (io : Io LegacyAction) (budget : ℕ),
        (outcome (openAt n io) (run n s events) budget).1 ≠ .ok () := by
  have hinv : Inv n Stranded (run n s events) :=
    run_inv same_stranded hn ⟨h.sound hn, hstranded⟩ events fun event _ => survives_stranded hn event
  refine ⟨hinv.2, ?_, fun io budget hok => ?_⟩
  · rw [Bool.eq_false_iff]
    intro hready
    exact ((ready_iff hinv.1).mp hready).marked.not_stranded hinv.2
  · have hmeanwhile : ∀ slot, ∀ action ∈ io.meanwhile slot, action.Survives n Stranded :=
      survives_stranded hn (.open io 0)
    obtain ⟨hkept, hsettled⟩ := keeps_openAt io same_stranded hmeanwhile hn hinv budget
    exact (hsettled () hok).marked.not_stranded hkept.2

/-- A launch of the old version dies while it replaces its slot file. -/
theorem stranded_died (events : List Event) :
    (run 1 (run 1 vacantRoot [.guard 0, .legacy (.die 0)]) events).ready 1 = false :=
  (stranded_forever Nat.one_pos (vacantRoot_reachable [.guard 0, .legacy (.die 0)])
    ⟨rfl, _, List.mem_cons_self, rfl, Nat.one_pos⟩ events).2.1

/-- Nothing but such a death makes a root stranded. -/
theorem stranded_needs_death {s₀ : Root} (hn : 0 < n) (hinitial : Initial n s₀) (events : List Event)
    (hstranded : Stranded (run n s₀ events)) : ∃ event ∈ events, event.Kills := by
  by_contra hnone
  have hevents : ∀ event ∈ events, event.Survives n fun s => ¬Stranded s := fun event hmem =>
    survives_not_stranded hn event fun hkills => hnone ⟨event, hmem, hkills⟩
  have hinv := run_inv same_not_stranded hn (hinitial.inv hn) events hevents
  exact hinv.2 hstranded

theorem stranded_needs_death_died :
    ∃ event ∈ [Event.guard 0, Event.legacy (.die 0)], event.Kills :=
  stranded_needs_death Nat.one_pos (.legacy _ (genesis_records 1) (genesis_unbound 1)) _
    ⟨rfl, _, List.mem_cons_self, rfl, Nat.one_pos⟩

/-- From slots of version 1 that no launch uses: the slots hold the records at all times, and however
many openings were cut off, wherever, the next one that is not cut off migrates all of them. -/
theorem quiescent_recovers (hn : 0 < n) (hrecords : Records n records) (hunbound : Unbound records)
    (events : List Event) (hevents : ∀ event ∈ events, event.Recovers) (io : Io LegacyAction)
    (hbusy : io.registryBusy = false) :
    ((run n (legacyRoot records) events).slots.files = legacyFiles records ∨
        (run n (legacyRoot records) events).slots.files = currentFiles records) ∧
      ∃ least, ∀ budget, least ≤ budget →
        (outcome (openAt n io) (run n (legacyRoot records) events) budget).1 = .ok () ∧
          (outcome (openAt n io) (run n (legacyRoot records) events) budget).2.state.slots.files =
            currentFiles records ∧
          Settled (outcome (openAt n io) (run n (legacyRoot records) events) budget).2.state := by
  have hinitial := (Initial.legacy records hrecords hunbound).inv hn
  have hstart : Inv n (Quiescent records) (legacyRoot records) :=
    ⟨hinitial.1, fun _ => rfl, rfl, hinitial.2⟩
  obtain ⟨hsound, hguards, hkept, hstranded⟩ := run_inv same_quiescent hn hstart events
    fun event hmem => survives_quiescent event (hevents event hmem)
  constructor
  · rcases hsound.phase with hl | hp | hm
    · exact Or.inl (hl.slots.trans (congrArg legacyFiles hkept))
    · exact Or.inr (hp.slots.trans (congrArg currentFiles hkept))
    · exact Or.inr (hm.slots.trans (congrArg currentFiles hkept))
  · obtain ⟨s', hreturns, hsettled, hsame⟩ := returns_openAt io hn hsound hbusy hguards hstranded
    obtain ⟨least, hleast⟩ := hreturns.outcome
    refine ⟨least, fun budget hbudget => ?_⟩
    obtain ⟨hok, hstate⟩ := hleast budget hbudget
    rw [hstate]
    exact ⟨hok, by rw [hsettled.marked.slots, hsame, hkept], hsettled⟩

/-- Two openings are cut off, one before the exchange and one after it. -/
theorem quiescent_recovers_twice :
    ∃ budget, (outcome (openAt 1 sampleIo)
      (run 1 vacantRoot [.open sampleIo 2, .dropTempTree 1 (some []), .open sampleIo 7]) budget).1 =
        .ok () := by
  have hevents : ∀ event ∈ [Event.open sampleIo 2, .dropTempTree 1 (some []), .open sampleIo 7],
      event.Recovers := by
    intro event hmem
    fin_cases hmem <;> trivial
  obtain ⟨-, least, hleast⟩ := quiescent_recovers Nat.one_pos (genesis_records 1) (genesis_unbound 1)
    _ hevents sampleIo rfl
  exact ⟨least, (hleast least le_rfl).1⟩

end LightTerminal.LaunchRegistry.Migration
