import LightTerminal.LaunchRegistry.Operations
import LightTerminal.LaunchRegistry.Validity

/-! # What the operations write

Each slot record that an operation installs is one move of the slot's protocol (`Move`) from the
record it replaces. It is valid, but for the first binding of a slot without an owner; and an owner is
recorded only when no slot has it (`Write`).

* `step_effects`: the files change by such writes only, whatever operation is performed and however
  it ends. -/

namespace LightTerminal.LaunchRegistry.Writes

open LightTerminal.Data.Text LightTerminal.Library.Procedure
open LightTerminal.LaunchRegistry.Record LightTerminal.LaunchRegistry.Transition
open LightTerminal.LaunchRegistry.Store LightTerminal.LaunchRegistry.Artifacts
open LightTerminal.LaunchRegistry.Operations LightTerminal.LaunchRegistry.Validity

/-- The protocol of a slot. A launch takes a vacant slot to the next generation; the states follow one
another with the same nonce, and with the same process identity once there is one; a tombstone is
reclaimed by an operation at the time `clock`, when its age is the retention and it has no binding.
The artifact binding of a launch may change in any of its states. -/
inductive Move (clock : Option ℕ) (before : SlotRecord) : SlotRecord → Prop where
  | launch {owner : Option ManagedOwnerTag} {nonce : Uuid} {createdUnixSecs : ℕ}
      (hstate : before.state = .vacant) (hbound : before.generation + 1 < 2 ^ 64) :
      Move clock before { before with
        generation := before.generation + 1, owner, artifactBinding := none
        state := .intentDurable nonce createdUnixSecs }
  | identify {nonce : Uuid} {createdUnixSecs : ℕ} {identity : ProcessIdentity}
      (hstate : before.state = .intentDurable nonce createdUnixSecs) :
      Move clock before { before with state := .identityDurable nonce identity true }
  | cleanup {nonce : Uuid} {identity : ProcessIdentity} {release : Bool}
      (hstate : before.state = .identityDurable nonce identity release) :
      Move clock before { before with state := .cleanupPending nonce identity release }
  | resolve {nonce : Uuid} {identity : ProcessIdentity} {release : Bool} {resolvedUnixSecs : ℕ}
      (hstate : before.state = .cleanupPending nonce identity release) :
      Move clock before { before with
        state := .resolvedTombstone nonce (some identity) resolvedUnixSecs }
  | abandon {nonce : Uuid} {createdUnixSecs resolvedUnixSecs : ℕ}
      (hstate : before.state = .intentDurable nonce createdUnixSecs) :
      Move clock before { before with state := .resolvedTombstone nonce none resolvedUnixSecs }
  | reclaim {nonce : Uuid} {identity : Option ProcessIdentity} {resolvedUnixSecs now : ℕ}
      (hstate : before.state = .resolvedTombstone nonce identity resolvedUnixSecs)
      (hbinding : before.artifactBinding = none) (hclock : clock = some now)
      (hage : resolvedUnixSecs + tombstoneRetention ≤ now) :
      Move clock before { before with owner := none, state := .vacant }
  | rebind {binding : Option ManagedArtifactBinding} (hstate : before.state ≠ .vacant) :
      Move clock before { before with artifactBinding := binding }

/-- The operation is a `begin_artifact_creation` that gets to its write, on a reservation without an
owner: the control root and the leaf pass their checks, the reservation is an intent without a binding
and is the record on file, and the system lets the file be read and replaced. -/
def BindsUnowned (reg : Registry) : Operation → Prop
  | .beginArtifactCreation io reservation controlRoot privateLeaf =>
    controlRoot.validate = .ok () ∧ validateManagedArtifactLeaf privateLeaf = .ok () ∧
      ∃ record, reservation.intent = some record ∧ record.owner = none ∧
        record.artifactBinding = none ∧ record.state.isIntent = true ∧ Reached reg io record
  | _ => False

/-- A write of an operation; `exempt` is the one case in which it may be invalid. -/
structure Write (clock : Option ℕ) (exempt : Prop) (reg : Registry) (before after : SlotRecord) :
    Prop where
  move : Move clock before after
  valid : after.Valid ∨ exempt
  owner : ∀ owner, after.owner = some owner → before.owner = some owner ∨
    ∀ slot record, reg.file slot = .record record → record.owner ≠ some owner

/-- How an operation changes the binding of a record: as its step decides on the record it finds. -/
inductive Rebinds : Operation → SlotRecord → SlotRecord → Prop where
  | create {io : ReplaceIo} {reservation : ManagedLaunchReservation}
      {controlRoot : ManagedDirectoryIdentity} {privateLeaf : Str} {record : SlotRecord}
      {binding : ManagedArtifactBinding}
      (h : bindArtifact controlRoot privateLeaf record = .ok binding) :
      Rebinds (.beginArtifactCreation io reservation controlRoot privateLeaf) record
        { record with artifactBinding := some binding }
  | advance {io : ReplaceIo} {reservation : ManagedLaunchReservation} {step : CreationStep}
      {record : SlotRecord} {binding : ManagedArtifactBinding} (hargument : step.validate = .ok ())
      (h : step.next record = .ok binding) :
      Rebinds (.continueArtifactCreation io reservation step) record
        { record with artifactBinding := some binding }
  | update {io : UpdateIo} {key : ManagedKey} {operation : CleanupOperation} {record : SlotRecord}
      {binding : ManagedArtifactBinding} (h : operation.decide record = .ok (.write binding)) :
      Rebinds (.updateArtifact io key operation) record
        { record with artifactBinding := some binding }
  | acknowledge {io : UpdateIo} {key : ManagedKey} {caller authoritative : ManagedArtifactBinding}
      {record : SlotRecord} (hstate : record.state.isTombstone = true)
      (hfound : record.artifactBinding = some authoritative)
      (hcompleted : authoritative.cleanupCompleted = true) :
      Rebinds (.acknowledgeArtifactCleanup io key caller) record
        { record with artifactBinding := none }

/-- A write with its transition and with what it does to the binding. -/
structure Written (clock : Option ℕ) (exempt : Prop) (rebinds : SlotRecord → SlotRecord → Prop)
    (reg : Registry) (before after : SlotRecord) : Prop
    extends Write clock exempt reg before after where
  transition : validateTransition before after = .ok ()
  binding : after.artifactBinding = before.artifactBinding ∨ rebinds before after

variable {clock : Option ℕ} {exempt : Prop} {rebinds : SlotRecord → SlotRecord → Prop}
  {reg reg' : Registry}

/-- A write that leaves the owner. -/
theorem Write.of_owner_eq {before after : SlotRecord} (hmove : Move clock before after)
    (hvalid : after.Valid) (howner : after.owner = before.owner) :
    Write clock exempt reg before after :=
  ⟨hmove, .inl hvalid, fun _ h => .inl (howner ▸ h)⟩

/-! ### Files -/

theorem file_lt_length {slot : ℕ} {record : SlotRecord} (h : reg.file slot = .record record) :
    slot < reg.slots.length := by
  by_contra hlt
  unfold Registry.file at h
  rw [List.getElem?_eq_none (Nat.le_of_not_lt hlt)] at h
  cases h

theorem file_install_self {before after : SlotRecord}
    (h : reg.file before.slot = .record before) :
    (reg.install before after).file before.slot = .record after := by
  have hlt := file_lt_length h
  simp [Registry.file, Registry.install, hlt]

theorem file_install_of_ne {before after : SlotRecord} {slot : ℕ} (h : slot ≠ before.slot) :
    (reg.install before after).file slot = reg.file slot := by
  simp [Registry.file, Registry.install, List.getElem?_set_ne (Ne.symm h)]

theorem Effects.length_eq {W : Registry → SlotRecord → SlotRecord → Prop} (h : Effects W reg reg') :
    reg'.slots.length = reg.slots.length := by
  induction h with
  | refl => rfl
  | registered _ slot next ih => exact ih
  | replaced _ hfile hvalid hslot hw ih =>
    rw [← ih]
    exact List.length_set

/-! ### Allocation -/

/-- What the loop of `allocate_intent` knows: the slot it selected is vacant, and if all slots could
be read, none of those `done` has the owner. -/
structure Scanned (owner : Option ManagedOwnerTag) (done : ℕ → Prop) (scan : Scan) (reg : Registry) :
    Prop where
  vacant : ∀ record, scan.selected = some record → record.state = .vacant
  unowned : ∀ tag, owner = some tag → scan.unreadable = 0 → ∀ slot, done slot → ∀ record,
    reg.file slot = .record record → record.owner ≠ some tag

theorem or_some_cases {α : Type} {x : Option α} {a b : α} (h : x.or (some a) = some b) :
    x = some b ∨ a = b := by
  cases x with
  | none => exact .inr (by simpa using h)
  | some c => exact .inl (by simpa using h)

theorem expired_iff {now resolved : ℕ} :
    expired now resolved = true ↔ resolved + tombstoneRetention ≤ now := by
  simp only [expired, Bool.and_eq_true, decide_eq_true_eq]
  omega

theorem scanSlot_does {io : ScanIo} {now slot : ℕ} {owner : Option ManagedOwnerTag} {scan : Scan}
    {done : ℕ → Prop} (h : Scanned owner done scan reg) :
    Does (Effects (Written (some now) exempt rebinds)) (scanSlot io now owner slot scan) reg
      (Scanned owner fun k => done k ∨ k = slot) := by
  refine (readSlot_does io.read slot).bind ?_
  rintro read reg' - ⟨hread, rfl⟩
  split
  · refine Does.pure ⟨h.vacant, fun tag _ hreadable => ?_⟩
    cases hreadable
  next record =>
  obtain ⟨-, hfile, hvalid, -⟩ := Registry.readSlot_valid.mp hread.symm
  refine Does.lift_bind fun _ howner => ?_
  rw [require_eq_ok] at howner
  -- the slot does not have the owner, and the slots before it do not
  have hunowned : ∀ tag, owner = some tag → scan.unreadable = 0 → ∀ k, (done k ∨ k = slot) →
      ∀ r, reg'.file k = .record r → r.owner ≠ some tag := by
    rintro tag rfl hreadable k (hk | rfl) r hr
    · exact h.unowned tag rfl hreadable k hk r hr
    · rw [hfile] at hr
      cases hr
      simpa using howner
  split
  · next hstate =>
    refine Does.pure ⟨fun r hr => ?_, hunowned⟩
    rcases or_some_cases hr with hr | rfl
    · exact h.vacant r hr
    · exact hstate
  · next nonce identity resolved hstate =>
    split
    · next hreclaim =>
      obtain ⟨hexpired, hbinding⟩ := hreclaim
      rw [Option.isNone_iff_eq_none] at hbinding
      have hvacant : SlotRecord.Valid { record with owner := none, state := .vacant } := by
        refine ⟨hvalid.schemaVersion, fun _ ho => ?_, fun b hb => ?_, fun _ => ⟨rfl, hbinding⟩,
          fun _ hn => ?_⟩
        · cases ho
        · rw [hbinding] at hb
          cases hb
        · cases hn
      refine Does.bind (replaceSlot_does fun _ htransition => ?_) ?_
      · exact ⟨⟨.reclaim hstate hbinding rfl (expired_iff.mp hexpired), .inl hvacant,
          fun _ ho => (by cases ho)⟩, htransition, .inl rfl⟩
      · rintro _ reg'' - ⟨rfl, hfile'⟩
        refine Does.pure ⟨fun r hr => ?_, fun tag htag hreadable k hk r hr => ?_⟩
        · rcases or_some_cases hr with hr | rfl
          · exact h.vacant r hr
          · rfl
        · by_cases hkslot : k = record.slot
          · subst hkslot
            rw [file_install_self hfile'] at hr
            cases hr
            simp
          · rw [file_install_of_ne hkslot] at hr
            exact hunowned tag htag hreadable k hk r hr
    · exact Does.pure ⟨h.vacant, hunowned⟩
  · exact Does.pure ⟨h.vacant, hunowned⟩

theorem scanSlots_does {io : ℕ → ScanIo} {now : ℕ} {owner : Option ManagedOwnerTag} :
    ∀ {rest : List ℕ} {scan : Scan} {done : ℕ → Prop} {reg : Registry},
      Scanned owner done scan reg →
        Does (Effects (Written (some now) exempt rebinds)) (scanSlots io now owner rest scan) reg
          (Scanned owner fun k => done k ∨ k ∈ rest)
  | [], scan, done, reg, h => by
    refine Does.pure ⟨h.vacant, fun tag htag hreadable k hk => ?_⟩
    rcases hk with hk | hk
    · exact h.unowned tag htag hreadable k hk
    · cases hk
  | slot :: rest, scan, done, reg, h => by
    refine (scanSlot_does h).bind fun scan' reg' _ h' => ?_
    refine (scanSlots_does h').imp fun scan'' reg'' _ h'' => ⟨h''.vacant, ?_⟩
    intro tag htag hreadable k hk
    refine h''.unowned tag htag hreadable k ?_
    rcases hk with hk | hk
    · exact .inl (.inl hk)
    · rcases List.mem_cons.mp hk with rfl | hk
      · exact .inl (.inr rfl)
      · exact .inr hk

theorem intentRecord_valid {vacant : SlotRecord} {generation now : ℕ}
    {owner : Option ManagedOwnerTag} {nonce : Uuid} (hnonce : Uuid.isNil nonce = false)
    (howner : optional ManagedOwnerTag.validate owner = .ok ()) :
    (intentRecord vacant generation owner nonce now).Valid := by
  rw [optional_eq_ok] at howner
  refine ⟨rfl, howner, fun b hb => ?_, fun hvacant => ?_, fun n hn => ?_⟩
  · cases hb
  · cases hvacant
  · cases hn
    exact hnonce

theorem checkedSucc_eq_some {n m : ℕ} (h : checkedSucc n = some m) : n + 1 < 2 ^ 64 ∧ m = n + 1 := by
  unfold checkedSucc at h
  split_ifs at h with hlt
  cases h
  exact ⟨hlt, rfl⟩

theorem allocateIntent_does (io : AllocateIo) (now : ℕ) (owner : Option ManagedOwnerTag) :
    Does (Effects (Written (some now) exempt rebinds)) (allocateIntent io now owner) reg
      fun _ _ => True := by
  refine Does.lift_bind fun _ hvalidate => Does.lift_bind fun _ _ => ?_
  refine (Does.get (Q := fun got reg' => got = reg ∧ reg' = reg) ⟨rfl, rfl⟩).bind ?_
  rintro _ reg' - ⟨rfl, rfl⟩
  have hstart : Scanned owner (fun _ => False) ⟨none, 0, 0⟩ reg' :=
    ⟨fun r hr => (by cases hr), fun _ _ _ k hk => hk.elim⟩
  refine (scanSlots_does hstart).bind fun scan reg₁ heffects hscan => ?_
  refine Does.lift_bind fun _ hreadable => Does.lift_bind fun vacant hselected => ?_
  refine Does.lift_bind fun generation hgeneration => ?_
  rw [require_eq_ok] at hreadable
  rw [expect_eq_ok] at hselected hgeneration
  obtain ⟨hbound, rfl⟩ := checkedSucc_eq_some hgeneration
  have hvacant := hscan.vacant vacant hselected
  have hlength := Effects.length_eq heffects
  refine (replaceRegistration_does io.registration vacant.slot _).bind ?_
  rintro _ reg₂ - rfl
  refine Does.bind (replaceSlot_does fun hreached htransition => ?_) fun _ _ _ _ => ?_
  · have hunbound : vacant.artifactBinding = none := (hreached.valid.vacant hvacant).2
    have hrecord : intentRecord vacant (vacant.generation + 1) owner (Uuid.newV4 io.random) now =
        { vacant with
          generation := vacant.generation + 1, owner, artifactBinding := none
          state := .intentDurable (Uuid.newV4 io.random) now } := by
      rw [intentRecord, hreached.valid.schemaVersion]
    refine ⟨⟨?_, .inl (intentRecord_valid (Uuid.isNil_newV4 _) hvalidate), fun tag htag => .inr ?_⟩,
      htransition, .inl hunbound.symm⟩
    · rw [hrecord]
      exact .launch hvacant hbound
    · intro slot record hfile
      have hlt := file_lt_length hfile
      have hzero : scan.unreadable = 0 := by
        rcases hreadable with hnone | hzero
        · have howner : owner = some tag := htag
          rw [howner] at hnone
          cases hnone
        · exact hzero
      refine hscan.unowned tag htag hzero slot (.inr (List.mem_range.mpr ?_)) record hfile
      rw [← hlength]
      exact hlt
  · exact Does.lift_bind fun _ _ => Does.pure trivial

/-! ### Artifacts -/

/-- A valid record with its binding changed by a step. -/
theorem write_binding {record : SlotRecord} {before binding : ManagedArtifactBinding}
    (hvalid : record.Valid) (h : Keeps record before binding) :
    Write clock exempt reg record { record with artifactBinding := some binding } := by
  obtain ⟨hstate, hbound⟩ := h.valid_record hvalid
  exact .of_owner_eq (.rebind hstate) hbound rfl

theorem bindReservation_does {io : ReplaceIo} {reservation : ManagedLaunchReservation}
    {next : SlotRecord → Result ManagedArtifactBinding}
    (hw : ∀ record binding, reservation.intent = some record → next record = .ok binding →
      Reached reg io record →
        Write clock exempt reg record { record with artifactBinding := some binding })
    (hrebinds : ∀ record binding, next record = .ok binding →
      rebinds record { record with artifactBinding := some binding }) :
    Does (Effects (Written clock exempt rebinds)) (bindReservation io reservation next) reg
      fun _ _ => True := by
  refine Does.lift_bind fun record hintent => Does.lift_bind fun binding hnext => ?_
  rw [expect_eq_ok] at hintent
  refine Does.bind (replaceSlot_does fun hreached htransition => ?_) fun _ _ _ _ => Does.pure trivial
  exact ⟨hw record binding hintent hnext hreached, htransition, .inr (hrebinds record binding hnext)⟩

theorem beginArtifactCreation_does (io : ReplaceIo) (reservation : ManagedLaunchReservation)
    (controlRoot : ManagedDirectoryIdentity) (privateLeaf : Str) :
    let operation : Operation := .beginArtifactCreation io reservation controlRoot privateLeaf
    Does (Effects (Written clock (BindsUnowned reg operation) (Rebinds operation)))
      (beginArtifactCreation io reservation controlRoot privateLeaf) reg fun _ _ => True := by
  intro operation
  refine Does.lift_bind fun _ hroot => ?_
  refine bindReservation_does (fun record binding hreservation hnext hreached => ?_)
    fun record binding hnext => .create hnext
  obtain ⟨hnone, hintent, hbinding, hnonce, hquarantine, hleaf⟩ := bindArtifact_ok hnext
  have hstate : record.state ≠ .vacant := by
    intro hvacant
    rw [hvacant] at hintent
    cases hintent
  refine ⟨.rebind hstate, ?_, fun _ ho => .inl ho⟩
  by_cases howner : record.owner = none
  · exact .inr ⟨hroot, hleaf, record, hreservation, howner, hnone, hintent, hreached⟩
  · have hsome : record.owner.isSome := Option.isSome_iff_ne_none.mpr howner
    refine .inl (valid_bind hreached.valid hsome hbinding hnonce fun hq => ?_)
    rw [hquarantine] at hq
    cases hq

theorem continueArtifactCreation_does (io : ReplaceIo) (reservation : ManagedLaunchReservation)
    (step : CreationStep) :
    Does (Effects (Written clock exempt (Rebinds (.continueArtifactCreation io reservation step))))
      (continueArtifactCreation io reservation step) reg fun _ _ => True := by
  refine Does.lift_bind fun _ hargument => ?_
  refine bindReservation_does (fun record binding _ hnext hreached => ?_)
    fun record binding hnext => .advance hargument hnext
  obtain ⟨created, hkeeps⟩ := CreationStep.next_keeps hargument hreached.valid hnext
  exact write_binding hreached.valid hkeeps

theorem updateArtifact_does (io : UpdateIo) (key : ManagedKey) (operation : CleanupOperation) :
    Does (Effects (Written clock exempt (Rebinds (.updateArtifact io key operation))))
      (updateArtifact io key operation) reg fun _ _ => True := by
  refine Does.lift_bind fun _ _ => (readValidSlot_does io.read key.slot).bind ?_
  rintro current reg' - ⟨rfl, -⟩
  refine Does.lift_bind fun _ _ => Does.lift_bind fun decision hdecide => ?_
  split
  · exact Does.pure trivial
  · refine Does.bind (replaceSlot_does fun hreached htransition => ?_) fun _ _ _ _ => Does.pure trivial
    obtain ⟨authoritative, hkeeps⟩ := CleanupOperation.decide_keeps hreached.valid hdecide
    exact ⟨write_binding hreached.valid hkeeps, htransition, .inr (.update hdecide)⟩

theorem acknowledgeArtifactCleanup_does (io : UpdateIo) (key : ManagedKey)
    (binding : ManagedArtifactBinding) :
    Does (Effects (Written clock exempt (Rebinds (.acknowledgeArtifactCleanup io key binding))))
      (acknowledgeArtifactCleanup io key binding) reg fun _ _ => True := by
  refine Does.lift_bind fun _ _ => (readValidSlot_does io.read key.slot).bind ?_
  rintro current reg' - ⟨rfl, -⟩
  refine Does.lift_bind fun _ _ => ?_
  split
  · exact Does.pure trivial
  refine Does.lift_bind fun authoritative hfound => Does.lift_bind fun _ _ => ?_
  refine Does.lift_bind fun _ _ => Does.lift_bind fun _ hproof => ?_
  rw [require_eq_ok] at hproof
  rw [expect_eq_ok] at hfound
  refine (replaceSlot_does fun hreached htransition => ?_).imp fun _ _ _ _ => trivial
  have hstate : current.state ≠ .vacant := by
    intro hvacant
    rw [hvacant] at hproof
    cases hproof.1
  have hvalid := hreached.valid
  refine ⟨.of_owner_eq (.rebind hstate) ?_ rfl, htransition,
    .inr (.acknowledge hproof.1 hfound hproof.2.2)⟩
  exact ⟨hvalid.schemaVersion, hvalid.owner, fun b hb => (by cases hb),
    fun hvacant => absurd hvacant hstate, hvalid.nonce⟩

/-! ### Processes -/

theorem recordIdentity_does (io : IdentityIo) (intent : SlotRecord) (registration : GateRegistration) :
    Does (Effects (Written clock exempt rebinds)) (recordIdentity io intent registration) reg
      fun _ _ => True := by
  unfold recordIdentity
  split
  · next nonce created hstate =>
    refine Does.lift_bind fun _ _ => Does.lift_bind fun _ _ => Does.lift_bind fun _ _ => ?_
    refine (readRegistration_does io.registration intent.slot).bind ?_
    rintro durable reg' - rfl
    refine Does.lift_bind fun _ _ => ?_
    refine Does.bind (replaceSlot_does fun hreached htransition => ?_) fun _ _ _ _ => Does.pure trivial
    refine ⟨?_, htransition, .inl rfl⟩
    rw [← hreached.valid.schemaVersion]
    refine .of_owner_eq (.identify hstate) (valid_advance hreached.valid ?_ fun htombstone => ?_) rfl
    · rw [hstate]
      rfl
    · rw [hstate] at htombstone
      cases htombstone
  · exact Does.throw _

theorem registerGate_does (read : Option String) (io : ReplaceIo) (slot generation : ℕ)
    (nonce : Uuid) (identity : ProcessIdentity) :
    Does (Effects (Written clock exempt rebinds))
      (registerGate read io slot generation nonce identity) reg fun _ _ => True := by
  refine (readValidSlot_does read slot).bind ?_
  rintro intent reg' - ⟨rfl, -⟩
  refine Does.lift_bind fun _ _ => Does.lift_bind fun _ _ => ?_
  exact (replaceRegistration_does io slot _).imp fun _ _ _ _ => trivial

theorem reconcileIntent_does (io : CleanupIo) (record : SlotRecord) :
    Does (Effects (Written clock exempt rebinds)) (reconcileIntent io record) reg
      fun _ _ => True := by
  unfold reconcileIntent
  split
  · split
    · exact Does.pure trivial
    refine Does.bind (P := fun _ _ => True) ?_ fun sidecar reg' _ _ => ?_
    · refine Does.tryCatch (Does.map ?_) fun _ _ _ => Does.pure trivial
      exact (readRegistration_does io.registration record.slot).imp fun _ _ _ _ => trivial
    · split
      · split <;> exact Does.pure trivial
      · exact Does.pure trivial
  · exact Does.pure trivial

/-- A tombstone after the cleanup of a process, or of an intent that never had one. -/
theorem persistTombstone_does {io : CleanupIo} {current : SlotRecord} {nonce : Uuid}
    {identity : Option ProcessIdentity}
    (hstate : (∃ process release, current.state = .cleanupPending nonce process release ∧
        identity = some process) ∨
      ∃ created, current.state = .intentDurable nonce created ∧ identity = none) :
    Does (Effects (Written clock exempt rebinds)) (persistTombstone io current nonce identity) reg
      fun _ _ => True := by
  refine Does.lift_bind fun resolved _ => ?_
  refine Does.bind (replaceSlot_does fun hreached htransition => ?_) fun _ _ _ _ => Does.pure trivial
  have hadvance : SlotRecord.Valid
      { current with state := .resolvedTombstone nonce identity resolved } := by
    refine valid_advance hreached.valid ?_ fun _ => rfl
    rcases hstate with ⟨process, release, hstate, -⟩ | ⟨created, hstate, -⟩ <;> rw [hstate] <;> rfl
  refine ⟨.of_owner_eq ?_ hadvance rfl, htransition, .inl rfl⟩
  rcases hstate with ⟨process, release, hstate, rfl⟩ | ⟨created, hstate, rfl⟩
  · exact .resolve hstate
  · exact .abandon hstate

theorem resolveProcess_does {io : CleanupIo} {pending : SlotRecord} {nonce : Uuid}
    {identity : ProcessIdentity} {release : Bool}
    (hstate : pending.state = .cleanupPending nonce identity release) :
    Does (Effects (Written clock exempt rebinds)) (resolveProcess io pending nonce identity) reg
      fun _ _ => True := by
  have hpersist : Does (Effects (Written clock exempt rebinds))
      (persistTombstone io pending nonce (some identity)) reg fun _ _ => True :=
    persistTombstone_does (.inl ⟨identity, release, hstate, rfl⟩)
  unfold resolveProcess
  split
  · refine Does.lift_bind fun _ _ => Does.lift_bind fun _ _ => ?_
    split
    · exact hpersist
    · exact Does.pure trivial
    · exact Does.pure trivial
  · exact hpersist
  · exact Does.pure trivial

theorem cleanupProcess_does {io : CleanupIo} {current : SlotRecord} {nonce : Uuid}
    {identity : ProcessIdentity} {release : Bool}
    (hstate : current.state = .identityDurable nonce identity release ∨
      current.state = .cleanupPending nonce identity release) :
    Does (Effects (Written clock exempt rebinds))
      (cleanupProcess io current nonce identity release) reg fun _ _ => True := by
  unfold cleanupProcess
  dsimp only
  split
  · next hne =>
    refine Does.bind (replaceSlot_does fun hreached htransition => ?_) fun _ reg' _ _ =>
      resolveProcess_does rfl
    refine ⟨?_, htransition, .inl rfl⟩
    rcases hstate with hstate | hstate
    · refine .of_owner_eq (.cleanup hstate) ?_ rfl
      refine valid_advance hreached.valid ?_ fun htombstone => ?_
      · rw [hstate]
        rfl
      · rw [hstate] at htombstone
        cases htombstone
    · refine absurd ?_ hne
      rw [← hstate]
  · exact resolveProcess_does rfl

theorem cleanup_does (io : CleanupIo) (slot generation : ℕ) :
    Does (Effects (Written clock exempt rebinds)) (cleanup io slot generation) reg
      fun _ _ => True := by
  refine Does.lift_bind fun _ _ => (readValidSlot_does io.read slot).bind ?_
  rintro current reg' - ⟨rfl, -⟩
  refine Does.lift_bind fun _ _ => ?_
  split
  · next hstate => exact cleanupProcess_does (.inl hstate)
  · next hstate => exact cleanupProcess_does (.inr hstate)
  · exact Does.pure trivial
  · next nonce created hstate =>
    refine (reconcileIntent_does io current).bind fun outcome reg₁ _ _ => ?_
    split
    · exact persistTombstone_does (.inr ⟨created, hstate, rfl⟩)
    · exact Does.pure trivial
  · exact Does.pure trivial

theorem unwrapOr_does {α : Type} {op : Op α} {default : α}
    (h : Does (Effects (Written clock exempt rebinds)) op reg fun _ _ => True) :
    Does (Effects (Written clock exempt rebinds)) (unwrapOr op default) reg fun _ _ => True := by
  refine Does.tryCatch h fun e reg' _ => ?_
  split
  · exact Does.pure trivial
  · exact Does.throw _

theorem reconcileSlot_does (read : Option String) (io : CleanupIo) (slot : ℕ) :
    Does (Effects (Written clock exempt rebinds)) (reconcileSlot read io slot) reg
      fun _ _ => True := by
  refine (readSlot_does read slot).bind ?_
  rintro result reg' - ⟨-, rfl⟩
  split
  · exact Does.pure trivial
  · dsimp only
    split
    · exact Does.pure trivial
    · exact Does.pure trivial
    · exact (unwrapOr_does (cleanup_does ..)).bind fun _ _ _ _ => Does.pure trivial

theorem reconcileSlots_does (read : ℕ → Option String) (io : ℕ → CleanupIo) :
    ∀ (slots : List ℕ) (reg : Registry),
      Does (Effects (Written clock exempt rebinds)) (reconcileSlots read io slots) reg
        fun _ _ => True
  | [], reg => Does.pure trivial
  | slot :: rest, reg => by
    refine (reconcileSlot_does (read slot) (io slot) slot).bind fun _ reg' _ _ => ?_
    exact (reconcileSlots_does read io rest reg').bind fun _ _ _ _ => Does.pure trivial

theorem matchOwner_does (read : ℕ → Option String) (owner : ManagedOwnerTag) :
    ∀ (slots : List ℕ) (matched : Option SlotRecord) (reg : Registry),
      Does (Effects (Written clock exempt rebinds)) (matchOwner read owner slots matched) reg
        fun _ _ => True
  | [], matched, reg => Does.pure trivial
  | slot :: rest, matched, reg => by
    refine (readSlot_does (read slot) slot).bind ?_
    rintro result reg' - ⟨-, rfl⟩
    split
    · exact Does.pure trivial
    · split
      · split
        · exact Does.pure trivial
        · exact matchOwner_does read owner rest _ _
      · exact matchOwner_does read owner rest _ _

theorem reconcileOwner_does (read : ℕ → Option String) (io : CleanupIo) (owner : ManagedOwnerTag) :
    Does (Effects (Written clock exempt rebinds)) (reconcileOwner read io owner) reg
      fun _ _ => True := by
  refine Does.lift_bind fun _ _ => ?_
  refine (Does.get (Q := fun got reg' => got = reg ∧ reg' = reg) ⟨rfl, rfl⟩).bind ?_
  rintro _ reg' - ⟨rfl, rfl⟩
  refine (matchOwner_does read owner _ none _).bind fun matched reg₁ _ _ => ?_
  split
  · exact Does.pure trivial
  · exact Does.pure trivial
  · split
    · exact Does.pure trivial
    · exact Does.pure trivial
    · refine Does.bind (unwrapOr_does (Does.map (cleanup_does ..))) fun outcome reg₂ _ _ => ?_
      split <;> exact Does.pure trivial

/-! ### Every operation -/

theorem step_written (reg : Registry) (operation : Operation) :
    Effects (Written operation.reclaimClock (BindsUnowned reg operation) (Rebinds operation)) reg
      (step reg operation) := by
  cases operation with
  | allocateIntent io now owner => exact (allocateIntent_does io now owner).discard.moves
  | beginArtifactCreation io reservation controlRoot privateLeaf =>
    exact (beginArtifactCreation_does io reservation controlRoot privateLeaf).discard.moves
  | continueArtifactCreation io reservation creation =>
    exact (continueArtifactCreation_does io reservation creation).discard.moves
  | recordIdentity io intent registration =>
    exact (recordIdentity_does io intent registration).discard.moves
  | registerGate read io slot generation nonce identity =>
    exact (registerGate_does read io slot generation nonce identity).moves
  | cleanup io slot generation => exact (cleanup_does io slot generation).discard.moves
  | reconcileAll read io =>
    refine Does.moves (Does.discard (Q := fun _ _ => True) ?_)
    refine (Does.get (Q := fun got reg' => got = reg ∧ reg' = reg) ⟨rfl, rfl⟩).bind ?_
    rintro _ reg' - ⟨rfl, rfl⟩
    exact reconcileSlots_does read io _ _
  | reconcileOwner read io owner => exact (reconcileOwner_does read io owner).discard.moves
  | updateArtifact io key cleanup => exact (updateArtifact_does io key cleanup).discard.moves
  | acknowledgeArtifactCleanup io key binding =>
    exact (acknowledgeArtifactCleanup_does io key binding).moves

/-- **Every operation changes the slot files by writes of the protocol**, however it ends. -/
theorem step_effects (reg : Registry) (operation : Operation) :
    Effects (Write operation.reclaimClock (BindsUnowned reg operation)) reg (step reg operation) :=
  (step_written reg operation).mono fun _ _ _ h => h.toWrite

end LightTerminal.LaunchRegistry.Writes
