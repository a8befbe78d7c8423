import LightTerminal.LaunchRegistry.Artifacts

/-! # The steps of a binding keep it valid

Some steps check the binding they write with `validate`, others rely on what they found. Either way,
the binding written over a valid record is valid.

* `CreationStep.next_keeps`, `CleanupOperation.decide_keeps`: for every step;
* `Keeps.valid_record`: so is the record with it. -/

namespace LightTerminal.LaunchRegistry.Validity

open LightTerminal.Data.Text LightTerminal.Library.Procedure
open LightTerminal.LaunchRegistry.Record LightTerminal.LaunchRegistry.Artifacts

/-- What a step that writes a binding has to keep. -/
structure Keeps (record : SlotRecord) (before binding : ManagedArtifactBinding) : Prop where
  found : record.artifactBinding = some before
  valid : binding.Valid
  nonce : binding.nonce = before.nonce
  quarantine : binding.cleanupQuarantine.isSome → record.state.isTombstone = true

/-- A record with another binding. -/
theorem valid_bind {record : SlotRecord} (h : record.Valid) {binding : ManagedArtifactBinding}
    (howner : record.owner.isSome) (hbinding : binding.Valid)
    (hnonce : record.state.nonce = some binding.nonce)
    (hquarantine : binding.cleanupQuarantine.isSome → record.state.isTombstone = true) :
    SlotRecord.Valid { record with artifactBinding := some binding } := by
  refine ⟨h.schemaVersion, h.owner, fun b hb => ?_, fun hvacant => ?_, h.nonce⟩
  · cases hb
    exact ⟨hbinding, howner, hnonce, hquarantine⟩
  · have hnone : record.state.nonce = none := SlotState.nonce_eq_none.mpr hvacant
    rw [hnone] at hnonce
    cases hnonce

/-- A record in another state of the same launch. -/
theorem valid_advance {record : SlotRecord} (h : record.Valid) {state : SlotState}
    (hnonce : state.nonce = record.state.nonce)
    (htombstone : record.state.isTombstone = true → state.isTombstone = true) :
    SlotRecord.Valid { record with state } := by
  refine ⟨h.schemaVersion, h.owner, fun b hb => ?_, fun hvacant => ?_, fun nonce hn => ?_⟩
  · obtain ⟨hvalid, howner, hstate, hquarantine⟩ := h.binding b hb
    exact ⟨hvalid, howner, hnonce.trans hstate, fun hq => htombstone (hquarantine hq)⟩
  · have hnone : state.nonce = none := SlotState.nonce_eq_none.mpr hvacant
    exact h.vacant (SlotState.nonce_eq_none.mp (hnonce.symm.trans hnone))
  · exact h.nonce nonce (hnonce.symm.trans hn)

/-- A record after a step of its binding. -/
theorem Keeps.valid_record {record : SlotRecord} {before binding : ManagedArtifactBinding}
    (h : record.Valid) (hkeeps : Keeps record before binding) :
    record.state ≠ .vacant ∧ SlotRecord.Valid { record with artifactBinding := some binding } := by
  obtain ⟨-, howner, hnonce, -⟩ := h.binding before hkeeps.found
  refine ⟨fun hvacant => ?_, valid_bind h howner hkeeps.valid ?_ hkeeps.quarantine⟩
  · rw [hvacant] at hnonce
    cases hnonce
  · rw [hnonce, hkeeps.nonce]

/-! ### Creation -/

/-- What `begin_artifact_creation` writes is valid, but for the owner of the record. -/
theorem bindArtifact_ok {controlRoot : ManagedDirectoryIdentity} {privateLeaf : Str}
    {record : SlotRecord} {binding : ManagedArtifactBinding}
    (h : bindArtifact controlRoot privateLeaf record = .ok binding) :
    record.artifactBinding = none ∧ record.state.isIntent = true ∧ binding.Valid ∧
      record.state.nonce = some binding.nonce ∧ binding.cleanupQuarantine = none ∧
      validateManagedArtifactLeaf privateLeaf = .ok () := by
  simp only [bindArtifact, bind_eq_ok, exists_unit, require_eq_ok, Option.isNone_iff_eq_none] at h
  obtain ⟨hnone, h⟩ := h
  split at h
  · next nonce created hstate =>
    simp only [bind_eq_ok, exists_unit, pure_eq_ok] at h
    obtain ⟨hvalidate, rfl⟩ := h
    have hvalid := ManagedArtifactBinding.validate_eq_ok.mp hvalidate
    rw [hstate]
    exact ⟨hnone, rfl, hvalid, rfl, rfl, hvalid.privateLeaf⟩
  · cases h

/-- A first binding, of an intent without one, passes every check if its place does. -/
theorem bindArtifact_of_valid {controlRoot : ManagedDirectoryIdentity} {privateLeaf : Str}
    {record : SlotRecord} (hvalid : record.Valid) (hnone : record.artifactBinding = none)
    (hintent : record.state.isIntent = true) (hroot : controlRoot.validate = .ok ())
    (hleaf : validateManagedArtifactLeaf privateLeaf = .ok ()) :
    ∃ binding, bindArtifact controlRoot privateLeaf record = .ok binding := by
  cases hstate : record.state with
  | intentDurable nonce created =>
    have hnonce : Uuid.isNil nonce = false := hvalid.nonce nonce (by rw [hstate]; rfl)
    have hbinding : (reservedBinding nonce controlRoot privateLeaf).Valid := by
      constructor
      case nonce => exact hnonce
      case controlRoot => exact hroot
      case privateLeaf => exact hleaf
      all_goals simp [reservedBinding, ManagedArtifactBinding.creationPhase]
    refine ⟨reservedBinding nonce controlRoot privateLeaf, ?_⟩
    simp only [bindArtifact, hnone, hstate, bind_eq_ok, exists_unit, require_eq_ok, pure_eq_ok]
    exact ⟨rfl, ManagedArtifactBinding.validate_eq_ok.mpr hbinding, trivial⟩
  | _ =>
    rw [hstate] at hintent
    cases hintent

section Phases
variable {binding : ManagedArtifactBinding}

/-- The files and pending creations of each phase in which an unchecked step is made. -/
theorem phase_reserved (h : binding.creationPhase = some .reserved) :
    binding.runner = none ∧ binding.socket = none ∧ binding.owner = none ∧
      binding.runnerCreatePending = false ∧ binding.socketCreatePending = false ∧
      binding.ownerCreatePending = false := by
  unfold ManagedArtifactBinding.creationPhase at h
  split at h <;> simp_all

theorem phase_runnerCreatePending (h : binding.creationPhase = some .runnerCreatePending) :
    binding.privateDirectory.isSome ∧ binding.socket = none ∧ binding.owner = none ∧
      binding.socketCreatePending = false ∧ binding.ownerCreatePending = false := by
  unfold ManagedArtifactBinding.creationPhase at h
  split at h <;> simp_all

theorem phase_socketCreatePending (h : binding.creationPhase = some .socketCreatePending) :
    binding.privateDirectory.isSome ∧ binding.runner.isSome ∧ binding.owner = none ∧
      binding.runnerCreatePending = false ∧ binding.ownerCreatePending = false := by
  unfold ManagedArtifactBinding.creationPhase at h
  split at h <;> simp_all

end Phases

theorem creationStep_ok {phase : ManagedArtifactCreationPhase} {outOfOrder : String} {checked : Bool}
    {update : ManagedArtifactBinding → ManagedArtifactBinding} {record : SlotRecord}
    {binding : ManagedArtifactBinding}
    (h : creationStep phase outOfOrder checked update record = .ok binding) :
    ∃ created, record.artifactBinding = some created ∧ created.creationPhase = some phase ∧
      (checked = true → (update created).Valid) ∧ binding = update created := by
  simp only [creationStep, bind_eq_ok, exists_unit, require_eq_ok, expect_eq_ok] at h
  obtain ⟨created, hcreated, hphase, h⟩ := h
  refine ⟨created, hcreated, hphase, ?_⟩
  split at h
  · next hchecked =>
    simp only [bind_eq_ok, exists_unit, pure_eq_ok] at h
    exact ⟨fun _ => ManagedArtifactBinding.validate_eq_ok.mp h.1, h.2.symm⟩
  · next hunchecked =>
    rw [pure_eq_ok] at h
    exact ⟨fun hchecked => absurd hchecked hunchecked, h.symm⟩

/-- **Every creation step keeps the binding valid.** -/
theorem CreationStep.next_keeps {step : CreationStep} {record : SlotRecord}
    {binding : ManagedArtifactBinding} (hargument : step.validate = .ok ())
    (hrecord : record.Valid) (h : step.next record = .ok binding) :
    ∃ created, Keeps record created binding := by
  have hkept : ∀ created, record.artifactBinding = some created →
      created.cleanupQuarantine.isSome → record.state.isTombstone = true := fun created hcreated =>
    (hrecord.binding created hcreated).2.2.2
  cases step with
  | finishArtifactCreation privateDirectory =>
    obtain ⟨created, hcreated, hphase, -, rfl⟩ := creationStep_ok h
    obtain ⟨hvalid, -⟩ := hrecord.binding created hcreated
    obtain ⟨h1, h2, h3, h4, h5, h6⟩ := phase_reserved hphase
    refine ⟨created, hcreated, ?_, rfl, hkept created hcreated⟩
    refine { hvalid with privateDirectory := fun d hd => ?_, phase := ?_ }
    · cases hd
      exact hargument
    · simp [ManagedArtifactBinding.creationPhase, h1, h2, h3, h4, h5, h6]
  | beginArtifactRunnerCreation =>
    obtain ⟨created, hcreated, -, hchecked, rfl⟩ := creationStep_ok h
    exact ⟨created, hcreated, hchecked rfl, rfl, hkept created hcreated⟩
  | finishArtifactRunner runner =>
    obtain ⟨created, hcreated, hphase, -, rfl⟩ := creationStep_ok h
    obtain ⟨hvalid, -⟩ := hrecord.binding created hcreated
    obtain ⟨h1, h2, h3, h4, h5⟩ := phase_runnerCreatePending hphase
    refine ⟨created, hcreated, ?_, rfl, hkept created hcreated⟩
    refine { hvalid with runner := fun i hi => ?_, phase := ?_ }
    · cases hi
      exact hargument
    · simp [ManagedArtifactBinding.creationPhase, h1, h2, h3, h4, h5]
  | beginArtifactSocketCreation =>
    obtain ⟨created, hcreated, -, hchecked, rfl⟩ := creationStep_ok h
    exact ⟨created, hcreated, hchecked rfl, rfl, hkept created hcreated⟩
  | finishArtifactSocket socket =>
    obtain ⟨created, hcreated, hphase, -, rfl⟩ := creationStep_ok h
    obtain ⟨hvalid, -⟩ := hrecord.binding created hcreated
    obtain ⟨h1, h2, h3, h4, h5⟩ := phase_socketCreatePending hphase
    refine ⟨created, hcreated, ?_, rfl, hkept created hcreated⟩
    refine { hvalid with
      socket := fun i hi => ?_, phase := ?_
      retirePending := fun hp => ?_, retired := fun hr => ?_ }
    · cases hi
      exact hargument
    · simp [ManagedArtifactBinding.creationPhase, h1, h2, h3, h4, h5]
    · exact ⟨rfl, (hvalid.retirePending hp).2⟩
    · exact ⟨rfl, (hvalid.retired hr).2⟩
  | beginArtifactOwnerCreation =>
    obtain ⟨created, hcreated, -, hchecked, rfl⟩ := creationStep_ok h
    exact ⟨created, hcreated, hchecked rfl, rfl, hkept created hcreated⟩
  | finishArtifactOwner owner =>
    obtain ⟨created, hcreated, -, hchecked, rfl⟩ := creationStep_ok h
    exact ⟨created, hcreated, hchecked rfl, rfl, hkept created hcreated⟩

/-! ### Retirement and cleanup -/

/-- A quarantine is not the live directory: its name is longer. -/
theorem cleanupQuarantineName_ne (binding : ManagedArtifactBinding) :
    cleanupQuarantineName binding ≠ binding.privateLeaf := by
  intro h
  have hlength := congrArg List.length h
  simp only [cleanupQuarantineName, List.length_cons, List.length_append] at hlength
  omega

section Decisions
variable {current : SlotRecord} {caller binding : ManagedArtifactBinding}

theorem beginArtifactCleanup_keeps (hrecord : current.Valid)
    (h : beginArtifactCleanup caller current = .ok (.write binding)) :
    ∃ authoritative, Keeps current authoritative binding := by
  simp only [beginArtifactCleanup, bind_eq_ok, exists_unit, require_eq_ok, expect_eq_ok] at h
  obtain ⟨htombstone, authoritative, hfound, -, -, -, h⟩ := h
  obtain ⟨hvalid, -⟩ := hrecord.binding authoritative hfound
  split at h
  · cases h
  next hnone =>
  simp only [bind_eq_ok, exists_unit, pure_eq_ok] at h
  obtain ⟨hleaf, heq⟩ := h
  cases heq
  refine ⟨authoritative, hfound, ?_, rfl, fun _ => htombstone⟩
  refine { hvalid with quarantine := fun q hq => ?_, completed := ?_, unlink := fun step hstep => ?_ }
  · cases hq
    exact ⟨hleaf, cleanupQuarantineName_ne authoritative⟩
  · intro hcompleted
    cases hcompleted
  · exact absurd (hvalid.unlink step hstep).1 hnone

theorem beginArtifactSocketRetirement_keeps (hrecord : current.Valid)
    (h : beginArtifactSocketRetirement caller current = .ok (.write binding)) :
    ∃ authoritative, Keeps current authoritative binding := by
  simp only [beginArtifactSocketRetirement, bind_eq_ok, exists_unit, require_eq_ok, expect_eq_ok] at h
  obtain ⟨-, authoritative, hfound, -, ⟨-, -, hsocket⟩, h⟩ := h
  obtain ⟨hvalid, -, -, hquarantine⟩ := hrecord.binding authoritative hfound
  split at h
  · cases h
  next hfresh =>
  simp only [Bool.or_eq_true, not_or, Bool.not_eq_true] at hfresh
  cases h
  refine ⟨authoritative, hfound, ?_, rfl, hquarantine⟩
  refine { hvalid with retirePending := fun _ => ?_, retired := fun hretired => ?_ }
  · exact ⟨hsocket, hfresh.1⟩
  · rw [hfresh.1] at hretired
    cases hretired

theorem finishArtifactSocketRetirement_keeps (hrecord : current.Valid)
    (h : finishArtifactSocketRetirement caller current = .ok (.write binding)) :
    ∃ authoritative, Keeps current authoritative binding := by
  simp only [finishArtifactSocketRetirement, bind_eq_ok, exists_unit, require_eq_ok, expect_eq_ok] at h
  obtain ⟨authoritative, hfound, -, h⟩ := h
  obtain ⟨hvalid, -, -, hquarantine⟩ := hrecord.binding authoritative hfound
  split at h
  · cases h
  simp only [bind_eq_ok, exists_unit, require_eq_ok, pure_eq_ok] at h
  obtain ⟨hpending, heq⟩ := h
  cases heq
  refine ⟨authoritative, hfound, ?_, rfl, hquarantine⟩
  refine { hvalid with retirePending := fun hp => ?_, retired := fun _ => ?_ }
  · cases hp
  · exact ⟨(hvalid.retirePending hpending).1, rfl⟩

theorem finishArtifactCleanup_keeps (hrecord : current.Valid)
    (h : finishArtifactCleanup caller current = .ok (.write binding)) :
    ∃ authoritative, Keeps current authoritative binding := by
  simp only [finishArtifactCleanup, bind_eq_ok, exists_unit, require_eq_ok, expect_eq_ok] at h
  obtain ⟨htombstone, authoritative, hfound, -, h⟩ := h
  obtain ⟨hvalid, -⟩ := hrecord.binding authoritative hfound
  split at h
  · cases h
  simp only [bind_eq_ok, exists_unit, require_eq_ok, pure_eq_ok] at h
  obtain ⟨⟨hquarantine, -, -, hrunner, -⟩, heq⟩ := h
  cases heq
  refine ⟨authoritative, hfound, ?_, rfl, fun _ => htombstone⟩
  refine { hvalid with completed := fun _ => ⟨hquarantine, hrunner⟩, unlink := fun step hstep => ?_ }
  cases hstep

theorem beginArtifactUnlink_keeps {step : ManagedArtifactCleanupStep}
    (h : beginArtifactUnlink caller step current = .ok (.write binding)) :
    ∃ authoritative, Keeps current authoritative binding := by
  simp only [beginArtifactUnlink, bind_eq_ok, exists_unit, require_eq_ok, expect_eq_ok] at h
  obtain ⟨htombstone, authoritative, hfound, -, -, h⟩ := h
  split at h
  · cases h
  split at h
  · simp only [bind_eq_ok, exists_unit, require_eq_ok, pure_eq_ok] at h
    cases h.2
  · simp only [bind_eq_ok, exists_unit, pure_eq_ok] at h
    obtain ⟨hvalidate, heq⟩ := h
    cases heq
    exact ⟨authoritative, hfound, ManagedArtifactBinding.validate_eq_ok.mp hvalidate, rfl,
      fun _ => htombstone⟩

/-- A receipt after the receipts before it. -/
theorem unlinkReceipt_valid {advanced : ManagedArtifactBinding} {step : ManagedArtifactCleanupStep}
    (hvalid : advanced.Valid) (hpending : advanced.cleanupUnlinkPending = none)
    (h : unlinkReceipt advanced step = .ok binding) :
    binding.Valid ∧ binding.nonce = advanced.nonce ∧
      binding.cleanupQuarantine = advanced.cleanupQuarantine := by
  have hunlink : ∀ step, advanced.cleanupUnlinkPending ≠ some step := by simp [hpending]
  cases step with
  | ownership =>
    simp only [unlinkReceipt, bind_eq_ok, exists_unit, require_eq_ok, pure_eq_ok] at h
    obtain ⟨-, rfl⟩ := h
    refine ⟨{ hvalid with socketRemoved := fun _ => rfl, unlink := ?_ }, rfl, rfl⟩
    exact fun step hstep => absurd hstep (hunlink step)
  | socket =>
    simp only [unlinkReceipt, bind_eq_ok, exists_unit, require_eq_ok, pure_eq_ok] at h
    obtain ⟨⟨howner, -⟩, rfl⟩ := h
    refine ⟨{ hvalid with
      socketRemoved := fun _ => howner, runnerRemoved := fun _ => rfl, unlink := ?_ }, rfl, rfl⟩
    exact fun step hstep => absurd hstep (hunlink step)
  | runner =>
    simp only [unlinkReceipt, bind_eq_ok, exists_unit, require_eq_ok, pure_eq_ok] at h
    obtain ⟨⟨-, hsocket⟩, rfl⟩ := h
    refine ⟨{ hvalid with
      completed := fun hc => ⟨(hvalid.completed hc).1, rfl⟩
      runnerRemoved := fun _ => hsocket, unlink := ?_ }, rfl, rfl⟩
    exact fun step hstep => absurd hstep (hunlink step)
  | directory => cases h

theorem finishArtifactUnlink_keeps {step : ManagedArtifactCleanupStep} (hrecord : current.Valid)
    (h : finishArtifactUnlink caller step current = .ok (.write binding)) :
    ∃ authoritative, Keeps current authoritative binding := by
  simp only [finishArtifactUnlink, bind_eq_ok, exists_unit, require_eq_ok, expect_eq_ok] at h
  obtain ⟨htombstone, authoritative, hfound, -, -, h⟩ := h
  obtain ⟨hvalid, -⟩ := hrecord.binding authoritative hfound
  split at h
  · cases h
  simp only [bind_eq_ok, exists_unit, require_eq_ok, pure_eq_ok] at h
  obtain ⟨-, advanced, hreceipt, heq⟩ := h
  cases heq
  have hcleared : ManagedArtifactBinding.Valid
      { authoritative with cleanupUnlinkPending := none } :=
    { hvalid with unlink := fun step hstep => (by cases hstep) }
  obtain ⟨hadvanced, hnonce, -⟩ := unlinkReceipt_valid hcleared rfl hreceipt
  exact ⟨authoritative, hfound, hadvanced, hnonce, fun _ => htombstone⟩

theorem finishArtifactLogicalAbsence_keeps {boot : Evidence Uuid} (hrecord : current.Valid)
    (h : finishArtifactLogicalAbsence caller boot current = .ok (.write binding)) :
    ∃ authoritative, Keeps current authoritative binding := by
  simp only [finishArtifactLogicalAbsence, bind_eq_ok, exists_unit, require_eq_ok, expect_eq_ok] at h
  obtain ⟨htombstone, authoritative, hfound, -, -, bootUuid, -, -, h⟩ := h
  obtain ⟨hvalid, -⟩ := hrecord.binding authoritative hfound
  split at h
  · cases h
  simp only [bind_eq_ok, exists_unit, pure_eq_ok] at h
  obtain ⟨hleaf, heq⟩ := h
  cases heq
  refine ⟨authoritative, hfound, ?_, rfl, fun _ => htombstone⟩
  refine { hvalid with
    quarantine := fun q hq => ?_, completed := fun _ => ⟨rfl, rfl⟩
    retirePending := fun hp => (by cases hp), retired := fun hretired => ?_
    socketRemoved := fun _ => rfl, runnerRemoved := fun _ => rfl
    unlink := fun step hstep => (by cases hstep) }
  · cases hq
    refine ⟨hleaf, ?_⟩
    cases hold : authoritative.cleanupQuarantine with
    | none => exact cleanupQuarantineName_ne authoritative
    | some quarantine => exact (hvalid.quarantine quarantine hold).2
  · rcases Bool.or_eq_true_iff.mp hretired with hretired | hsocket
    · exact ⟨(hvalid.retired hretired).1, rfl⟩
    · exact ⟨hsocket, rfl⟩

theorem finishArtifactCreatePendingAbsence_keeps {boot : Evidence Uuid} (hrecord : current.Valid)
    (h : finishArtifactCreatePendingAbsence caller boot current = .ok (.write binding)) :
    ∃ authoritative, Keeps current authoritative binding := by
  simp only [finishArtifactCreatePendingAbsence, bind_eq_ok, exists_unit, require_eq_ok, expect_eq_ok,
    Option.isNone_iff_eq_none] at h
  obtain ⟨htombstone, authoritative, hfound, ⟨-, -, -, -, hquarantine, hpending, -, -⟩, bootUuid, -, -,
    h⟩ := h
  obtain ⟨hvalid, -⟩ := hrecord.binding authoritative hfound
  split at h
  · cases h
  cases h
  refine ⟨authoritative, hfound, ?_, rfl, fun _ => htombstone⟩
  refine { hvalid with
    completed := fun _ => ⟨hquarantine, rfl⟩, socketRemoved := fun _ => rfl
    runnerRemoved := fun _ => rfl, unlink := fun step hstep => ?_ }
  rw [hpending] at hstep
  cases hstep

end Decisions

/-- **Every step of the cleanup keeps the binding valid.** -/
theorem CleanupOperation.decide_keeps {operation : CleanupOperation} {current : SlotRecord}
    {binding : ManagedArtifactBinding} (hrecord : current.Valid)
    (h : operation.decide current = .ok (.write binding)) :
    ∃ authoritative, Keeps current authoritative binding := by
  cases operation with
  | beginArtifactCleanup _ => exact beginArtifactCleanup_keeps hrecord h
  | beginArtifactSocketRetirement _ => exact beginArtifactSocketRetirement_keeps hrecord h
  | finishArtifactSocketRetirement _ => exact finishArtifactSocketRetirement_keeps hrecord h
  | finishArtifactCleanup _ => exact finishArtifactCleanup_keeps hrecord h
  | beginArtifactUnlink _ _ => exact beginArtifactUnlink_keeps h
  | finishArtifactUnlink _ _ => exact finishArtifactUnlink_keeps hrecord h
  | finishArtifactLogicalAbsence _ _ => exact finishArtifactLogicalAbsence_keeps hrecord h
  | finishArtifactCreatePendingAbsence _ _ => exact finishArtifactCreatePendingAbsence_keeps hrecord h

end LightTerminal.LaunchRegistry.Validity
