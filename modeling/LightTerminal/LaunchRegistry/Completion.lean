import LightTerminal.LaunchRegistry.Ladder

/-! # Artifact cleanup from its start to its end

The calls that clean up the artifacts of a resolved launch, made one after the other: the quarantine,
an intent and a receipt for each of the three files, the intent for the directory, and the completion.
Each of them goes on from where an earlier attempt was cut off (`call_climbs`).

* `artifact_cleanup_complete`: the order of a cleanup over every run, and when the calls complete it:
  unless the name of the quarantine, which is longer than that of the directory, does not fit. -/

namespace LightTerminal.LaunchRegistry.Completion

open LightTerminal.Data.Text LightTerminal.Library.Procedure
open LightTerminal.LaunchRegistry.Record LightTerminal.LaunchRegistry.Transition
open LightTerminal.LaunchRegistry.Store LightTerminal.LaunchRegistry.Artifacts
open LightTerminal.LaunchRegistry.Operations LightTerminal.LaunchRegistry.Validity
open LightTerminal.LaunchRegistry.Writes LightTerminal.LaunchRegistry.Ladder

/-- A system that lets every call through: the lock is free, files are read and replaced. -/
def ready : UpdateIo := ⟨true, none, ⟨none, .done, none⟩⟩

/-- The call that makes a milestone durable. -/
def callFor (caller : ManagedArtifactBinding) : Milestone → CleanupOperation
  | .quarantine => .beginArtifactCleanup caller
  | .intent step => .beginArtifactUnlink caller step
  | .receipt step => .finishArtifactUnlink caller step

/-- The calls of a cleanup. -/
def cleanupCalls (caller : ManagedArtifactBinding) : List CleanupOperation :=
  [.beginArtifactCleanup caller, .beginArtifactUnlink caller .ownership,
    .finishArtifactUnlink caller .ownership, .beginArtifactUnlink caller .socket,
    .finishArtifactUnlink caller .socket, .beginArtifactUnlink caller .runner,
    .finishArtifactUnlink caller .runner, .beginArtifactUnlink caller .directory,
    .finishArtifactCleanup caller]

/-- The calls one after the other, up to the first one that fails. -/
def performCalls (key : ManagedKey) : List CleanupOperation → Op Unit
  | [] => return ()
  | call :: rest => do
    discard (updateArtifact ready key call)
    performCalls key rest

/-! ### The name of the quarantine -/

theorem byteLen_cleanupQuarantineName (binding : ManagedArtifactBinding) :
    byteLen (cleanupQuarantineName binding) = byteLen binding.privateLeaf + 42 := by
  have hdigits := (hexDigits_plain 32 binding.nonce.toNat).1
  have hdot : Char.utf8Size '.' = 1 := by decide
  have hsuffix : byteLen ".cleanup-".toList = 9 := by decide
  simp only [cleanupQuarantineName, Uuid.simple, List.cons_append, byteLen_cons, byteLen_append,
    hdigits, hdot, hsuffix]
  omega

/-- The name of the quarantine is refused only for its length. -/
theorem validate_cleanupQuarantineName {binding : ManagedArtifactBinding} (h : binding.Valid) :
    validateManagedArtifactLeaf (cleanupQuarantineName binding) = .ok () ↔
      byteLen binding.privateLeaf ≤ 213 := by
  have hleaf := h.privateLeaf
  obtain ⟨-, hslash, hnul⟩ := hexDigits_plain 32 binding.nonce.toNat
  simp only [validateManagedArtifactLeaf, require_eq_ok, byteLen_cleanupQuarantineName] at hleaf ⊢
  obtain ⟨hne, -, -, -, hslash', hnul'⟩ := hleaf
  constructor
  · rintro ⟨-, hlen, -⟩
    omega
  · intro hlen
    refine ⟨by simp [cleanupQuarantineName], by omega, ?_, ?_, ?_, ?_⟩
    · simp [cleanupQuarantineName]
    · intro heq
      have hlength := congrArg List.length heq
      simp [cleanupQuarantineName] at hlength
      omega
    · simp [cleanupQuarantineName, Uuid.simple, hslash, hslash']
    · simp only [cleanupQuarantineName, Uuid.simple, List.cons_append, List.mem_cons,
        List.mem_append, not_or]
      exact ⟨by decide, ⟨hnul', by decide⟩, hnul⟩

/-! ### Positions -/

/-- The rung of the intent to unlink an artifact. -/
def intentRung : ManagedArtifactCleanupStep → ℕ
  | .ownership => 2
  | .socket => 4
  | .runner => 6
  | .directory => 8

section Positions
variable {boot : Uuid} {binding : ManagedArtifactBinding}

/-- The rung of a binding in its quarantine says everything about its cleanup. -/
theorem position_of_rung (h : Ordered boot binding) (hquarantine : binding.cleanupQuarantine.isSome)
    (step : ManagedArtifactCleanupStep) :
    (binding.cleanupStepCompleted step = true ↔ intentRung step < rung binding) ∧
      (binding.cleanupUnlinkPending = some step ↔ rung binding = intentRung step) := by
  have hvalid := h.valid
  have hsocket := hvalid.socketRemoved
  have hrunner := hvalid.runnerRemoved
  have hcompleted : binding.cleanupCompleted = true → binding.cleanupRunnerRemoved = true :=
    fun hc => (hvalid.completed hc).2
  have hunlink := hvalid.unlink
  unfold rung receipts
  cases hp : binding.cleanupUnlinkPending with
  | none =>
    cases hc : binding.cleanupCompleted <;> cases ho : binding.cleanupOwnershipRemoved <;>
      cases hs : binding.cleanupSocketRemoved <;> cases hr : binding.cleanupRunnerRemoved <;>
      simp_all <;> cases step <;>
      simp_all [ManagedArtifactBinding.cleanupStepCompleted, intentRung]
  | some pending =>
    obtain ⟨-, hopen, horder⟩ := hunlink pending hp
    cases pending <;>
      simp only [ManagedArtifactBinding.unlinkInOrder, Bool.and_eq_true, Bool.not_eq_true'] at horder <;>
      cases hc : binding.cleanupCompleted <;> cases step <;>
      simp_all [ManagedArtifactBinding.cleanupStepCompleted, intentRung]

end Positions

/-! ### One call -/

/-- A resolved launch with a binding that can be cleaned up by this caller. -/
structure Standing (boot : Uuid) (caller : ManagedArtifactBinding) (record : SlotRecord)
    (binding : ManagedArtifactBinding) : Prop where
  valid : record.Valid
  tombstone : record.state.isTombstone = true
  found : record.artifactBinding = some binding
  ordered : Ordered boot binding
  same : binding.sameArtifact caller = true
  created : binding.creationPending = false
  retired : binding.socketRetirePending = false

/-- A tombstone with another binding, when the way the binding changes is one of those allowed. -/
theorem validateTransition_rebind {record : SlotRecord} {binding : ManagedArtifactBinding}
    (hschema : record.schemaVersion = slotSchemaVersion)
    (htombstone : record.state.isTombstone = true)
    (h : bindingMoves record { record with artifactBinding := some binding } = true) :
    validateTransition record { record with artifactBinding := some binding } = .ok () := by
  have hupdate : bindingUpdate record { record with artifactBinding := some binding } = true := by
    simp [bindingUpdate, h]
  have hstable : ownerStable record { record with artifactBinding := some binding } = .ok true := by
    cases hstate : record.state <;> simp_all [ownerStable, SlotState.isTombstone]
  simp only [validateTransition, bind_eq_ok, exists_unit, require_eq_ok]
  exact ⟨hschema, hschema, trivial, true, hstable, rfl, .inl hupdate, .inl hupdate⟩

/-- What a call for the rung `n` decides: nothing is to be done, or the binding is replaced by one on
that rung, which the transition check accepts. -/
inductive Decides (n : ℕ) (call : CleanupOperation) (record : SlotRecord)
    (binding : ManagedArtifactBinding) : Prop where
  | keeps (h : call.decide record = .ok (.keep binding)) (hrung : n ≤ rung binding)
  | writes (next : ManagedArtifactBinding) (h : call.decide record = .ok (.write next))
      (hmoves : bindingMoves record { record with artifactBinding := some next } = true)
      (hrung : rung next = n)
      (hsame : next.sameArtifact binding = true)
      (hretired : next.socketRetirePending = binding.socketRetirePending)

section Calls
variable {boot : Uuid} {caller binding : ManagedArtifactBinding} {record : SlotRecord}

theorem sameArtifact_eq_true {a b : ManagedArtifactBinding} :
    a.sameArtifact b = true ↔ a.nonce = b.nonce ∧ a.controlRoot = b.controlRoot ∧
      a.privateLeaf = b.privateLeaf ∧ a.privateDirectory = b.privateDirectory ∧
      a.runner = b.runner ∧ a.socket = b.socket ∧ a.owner = b.owner ∧
      a.runnerCreatePending = b.runnerCreatePending ∧
      a.socketCreatePending = b.socketCreatePending ∧
      a.ownerCreatePending = b.ownerCreatePending := by
  simp [ManagedArtifactBinding.sameArtifact, and_assoc]

theorem one_le_rung (hquarantine : binding.cleanupQuarantine.isSome) : 1 ≤ rung binding := by
  unfold rung
  split_ifs <;> omega

theorem quarantine_of_rung (h : Ordered boot binding) (hrung : 1 ≤ rung binding) :
    binding.cleanupQuarantine.isSome := by
  unfold rung at hrung
  split_ifs at hrung with hcompleted hquarantine
  · exact (h.valid.completed hcompleted).1
  · exact hquarantine
  · omega

/-- `begin_artifact_cleanup`. -/
theorem quarantine_decides (h : Standing boot caller record binding)
    (hname : binding.cleanupQuarantine.isSome ∨ byteLen binding.privateLeaf ≤ 213) :
    Decides 1 (.beginArtifactCleanup caller) record binding := by
  cases hquarantine : binding.cleanupQuarantine with
  | some quarantine =>
    refine .keeps ?_ (one_le_rung (by simp [hquarantine]))
    simp [CleanupOperation.decide, beginArtifactCleanup, h.tombstone, h.found, h.same, h.created,
      h.retired, hquarantine]
  | none =>
    have hfresh := h.ordered.fresh hquarantine
    have hfits : byteLen binding.privateLeaf ≤ 213 := hname.resolve_left (by simp [hquarantine])
    have hleaf := (validate_cleanupQuarantineName h.ordered.valid).mpr hfits
    refine .writes { binding with
      cleanupQuarantine := some (cleanupQuarantineName binding), cleanupCompleted := false }
      ?_ ?_ ?_ ?_ rfl
    · simp [CleanupOperation.decide, beginArtifactCleanup, h.tombstone, h.found, h.same, h.created,
        h.retired, hquarantine, hleaf]
    · simp [bindingMoves, h.found, sameArtifactIdentity, socketRetirementUnchanged, cleanupProgress,
        h.tombstone, hquarantine, hfresh.pending, hfresh.ownership, hfresh.socket, hfresh.runner,
        hfresh.completed]
    · simp [rung, receipts, hfresh.pending, hfresh.ownership, hfresh.socket, hfresh.runner]
    · simp [sameArtifact_eq_true]

/-- Nothing is pending below an intent. -/
theorem pending_none (step : ManagedArtifactCleanupStep) (h : Ordered boot binding)
    (hquarantine : binding.cleanupQuarantine.isSome) (hrung : rung binding + 1 = intentRung step) :
    binding.cleanupUnlinkPending = none := by
  refine Option.eq_none_iff_forall_ne_some.mpr fun other hother => ?_
  have hposition := (position_of_rung h hquarantine other).2.mp hother
  cases step <;> cases other <;> simp only [intentRung] at hrung hposition <;> omega

/-- The steps before an intent are done, and it and those after it are not. -/
theorem unlinkInOrder_of_rung {step : ManagedArtifactCleanupStep} (h : Ordered boot binding)
    (hquarantine : binding.cleanupQuarantine.isSome) (hopen : binding.cleanupCompleted = false)
    (hlow : intentRung step ≤ rung binding + 1) (hhigh : rung binding ≤ intentRung step) :
    binding.unlinkInOrder step = true := by
  have hownership := (position_of_rung h hquarantine .ownership).1
  have hsocket := (position_of_rung h hquarantine .socket).1
  have hrunner := (position_of_rung h hquarantine .runner).1
  have hdirectory := (position_of_rung h hquarantine .directory).1
  have hlt := rung_lt_nine.mpr hopen
  simp only [ManagedArtifactBinding.cleanupStepCompleted, intentRung]
    at hownership hsocket hrunner hdirectory
  cases step
  all_goals
    simp only [intentRung] at hlow hhigh
    simp only [ManagedArtifactBinding.unlinkInOrder, Bool.and_eq_true, Bool.not_eq_true',
      ← Bool.not_eq_true, hownership, hsocket, hrunner, hdirectory]
    omega

/-- `begin_artifact_unlink`, once the steps before it are done. -/
theorem intent_decides (step : ManagedArtifactCleanupStep) (h : Standing boot caller record binding)
    (hquarantine : binding.cleanupQuarantine.isSome) (hopen : binding.cleanupCompleted = false)
    (hrung : intentRung step ≤ rung binding + 1) :
    Decides (intentRung step) (.beginArtifactUnlink caller step) record binding := by
  obtain ⟨hcompleted, hpending⟩ := position_of_rung h.ordered hquarantine step
  rcases Nat.lt_trichotomy (rung binding) (intentRung step) with hlt | heq | hgt
  · have hnot : binding.cleanupStepCompleted step = false := by
      rw [← Bool.not_eq_true, hcompleted]
      omega
    have hnone := pending_none step h.ordered hquarantine (by omega)
    have horder := unlinkInOrder_of_rung h.ordered hquarantine hopen hrung hlt.le
    have hvalid : ManagedArtifactBinding.Valid { binding with cleanupUnlinkPending := some step } := by
      refine { h.ordered.valid with unlink := fun pending hstep => ?_ }
      cases hstep
      refine ⟨hquarantine, ?_, ?_⟩
      · cases step <;> exact hnot
      · cases step <;> exact horder
    have hvalidate := ManagedArtifactBinding.validate_eq_ok.mpr hvalid
    simp only [hopen] at hvalidate
    refine .writes { binding with cleanupUnlinkPending := some step } ?_ ?_ ?_ ?_ rfl
    · simp [CleanupOperation.decide, beginArtifactUnlink, h.tombstone, h.found, h.same, hquarantine,
        hopen, hnot, hnone, hvalidate]
    · simp [bindingMoves, h.found, sameArtifactIdentity, socketRetirementUnchanged, inQuarantine,
        cleanupStepIntent, sameArtifact_eq_true, h.tombstone, hquarantine, hopen, hnone]
    · have hnext : rung { binding with cleanupUnlinkPending := some step } = rung binding + 1 := by
        simp [rung, receipts, hquarantine, hopen, hnone]
      omega
    · simp [sameArtifact_eq_true]
  · refine .keeps ?_ heq.ge
    have hnot : binding.cleanupStepCompleted step = false := by
      rw [← Bool.not_eq_true, hcompleted]
      omega
    simp [CleanupOperation.decide, beginArtifactUnlink, require, h.tombstone, h.found, h.same,
      hquarantine, hopen, hnot, hpending.mpr heq]
  · refine .keeps ?_ hgt.le
    simp [CleanupOperation.decide, beginArtifactUnlink, h.tombstone, h.found, h.same, hquarantine,
      hopen, hcompleted.mpr hgt]

/-- `finish_artifact_unlink`, once its intent is durable. -/
theorem receipt_decides (step : ManagedArtifactCleanupStep) (h : Standing boot caller record binding)
    (hquarantine : binding.cleanupQuarantine.isSome) (hopen : binding.cleanupCompleted = false)
    (hstep : step ≠ .directory) (hrung : intentRung step ≤ rung binding) :
    Decides (intentRung step + 1) (.finishArtifactUnlink caller step) record binding := by
  obtain ⟨hcompleted, hpending⟩ := position_of_rung h.ordered hquarantine step
  rcases hrung.lt_or_eq with hgt | heq
  · refine .keeps ?_ hgt
    simp [CleanupOperation.decide, finishArtifactUnlink, h.tombstone, h.found, h.same, hquarantine,
      hopen, hcompleted.mpr hgt]
  have hnot : binding.cleanupStepCompleted step = false := by
    rw [← Bool.not_eq_true, hcompleted]
    omega
  have hintent := hpending.mpr heq.symm
  have horder := (h.ordered.valid.unlink step hintent).2.2
  cases step with
  | directory => exact absurd rfl hstep
  | ownership =>
    simp only [ManagedArtifactBinding.unlinkInOrder, Bool.and_eq_true, Bool.not_eq_true'] at horder
    obtain ⟨⟨hownership, hsocket⟩, hrunner⟩ := horder
    refine .writes { binding with cleanupUnlinkPending := none, cleanupOwnershipRemoved := true }
      ?_ ?_ ?_ ?_ rfl
    · simp [CleanupOperation.decide, finishArtifactUnlink, unlinkReceipt, require, h.tombstone, h.found,
        h.same, hquarantine, hopen, hnot, hintent, hsocket, hrunner]
    · simp [bindingMoves, h.found, sameArtifactIdentity, socketRetirementUnchanged, inQuarantine,
        cleanupStepReceipt, receiptInOrder, sameArtifact_eq_true, h.tombstone, hquarantine, hopen,
        hintent, hownership, hsocket, hrunner]
    · simp [rung, receipts, intentRung, hquarantine, hopen, hsocket, hrunner]
    · simp [sameArtifact_eq_true]
  | socket =>
    simp only [ManagedArtifactBinding.unlinkInOrder, Bool.and_eq_true, Bool.not_eq_true'] at horder
    obtain ⟨⟨hownership, hsocket⟩, hrunner⟩ := horder
    refine .writes { binding with cleanupUnlinkPending := none, cleanupSocketRemoved := true }
      ?_ ?_ ?_ ?_ rfl
    · simp [CleanupOperation.decide, finishArtifactUnlink, unlinkReceipt, require, h.tombstone, h.found,
        h.same, hquarantine, hopen, hnot, hintent, hownership, hrunner]
    · simp [bindingMoves, h.found, sameArtifactIdentity, socketRetirementUnchanged, inQuarantine,
        cleanupStepReceipt, receiptInOrder, sameArtifact_eq_true, h.tombstone, hquarantine, hopen,
        hintent, hownership, hsocket, hrunner]
    · simp [rung, receipts, intentRung, hquarantine, hopen, hownership, hrunner]
    · simp [sameArtifact_eq_true]
  | runner =>
    simp only [ManagedArtifactBinding.unlinkInOrder, Bool.and_eq_true, Bool.not_eq_true'] at horder
    obtain ⟨⟨hownership, hsocket⟩, hrunner⟩ := horder
    refine .writes { binding with cleanupUnlinkPending := none, cleanupRunnerRemoved := true }
      ?_ ?_ ?_ ?_ rfl
    · simp [CleanupOperation.decide, finishArtifactUnlink, unlinkReceipt, require, h.tombstone, h.found,
        h.same, hquarantine, hopen, hnot, hintent, hownership, hsocket]
    · simp [bindingMoves, h.found, sameArtifactIdentity, socketRetirementUnchanged, inQuarantine,
        cleanupStepReceipt, receiptInOrder, sameArtifact_eq_true, h.tombstone, hquarantine, hopen,
        hintent, hownership, hsocket, hrunner]
    · simp [rung, receipts, intentRung, hquarantine, hopen, hownership, hsocket]
    · simp [sameArtifact_eq_true]

/-- `finish_artifact_cleanup`, with the intent for the directory. -/
theorem completion_decides (h : Standing boot caller record binding)
    (hquarantine : binding.cleanupQuarantine.isSome) (hrung : rung binding = 8) :
    Decides 9 (.finishArtifactCleanup caller) record binding := by
  have hopen : binding.cleanupCompleted = false := rung_lt_nine.mp (by omega)
  have hpending : binding.cleanupUnlinkPending = some .directory :=
    (position_of_rung h.ordered hquarantine .directory).2.mpr hrung
  have horder := (h.ordered.valid.unlink .directory hpending).2.2
  simp only [ManagedArtifactBinding.unlinkInOrder, Bool.and_eq_true] at horder
  obtain ⟨⟨⟨hownership, hsocket⟩, hrunner⟩, -⟩ := horder
  refine .writes { binding with cleanupUnlinkPending := none, cleanupCompleted := true } ?_ ?_ ?_ ?_ rfl
  · simp [CleanupOperation.decide, finishArtifactCleanup, require, h.tombstone, h.found, h.same,
      hquarantine, hopen, hownership, hsocket, hrunner, hpending]
  · simp [bindingMoves, h.found, sameArtifactIdentity, socketRetirementUnchanged, inQuarantine,
      cleanupCompletion, sameArtifact_eq_true, h.tombstone, hquarantine, hopen, hpending, hownership,
      hsocket, hrunner]
  · simp [rung]
  · simp [sameArtifact_eq_true]

end Calls

/-! ### The calls -/

theorem replaceSlot_done {reg : Registry} {expected next : SlotRecord}
    (hfile : reg.file expected.slot = .record expected) (hvalid : expected.Valid)
    (htransition : validateTransition expected next = .ok ()) (hnext : next.Valid) :
    exec (replaceSlot ⟨none, .done, none⟩ expected next) reg = (.ok (), reg.install expected next) := by
  have hslot := slot_eq_of_validateTransition htransition
  have hread : exec (readValidSlot none expected.slot) reg = (.ok expected, reg) := by
    have hcurrent := Registry.readSlot_valid.mpr ⟨rfl, hfile, hvalid, rfl⟩
    simp only [readValidSlot, readSlot, exec_bind, exec_get, exec_pure, hcurrent]
  have hreadback : exec (readValidSlot none expected.slot) (reg.install expected next) =
      (.ok next, reg.install expected next) := by
    have hcurrent := Registry.readSlot_valid.mpr ⟨rfl, file_install_self hfile, hnext, hslot⟩
    simp only [readValidSlot, readSlot, exec_bind, exec_get, exec_pure, hcurrent]
  have hinstall : exec (atomicReplaceJson .done fun reg => reg.install expected next) reg =
      (.ok (), reg.install expected next) := rfl
  have hsame : ensure (next = next) "slot durable readback mismatch" = .ok () :=
    require_eq_ok.mpr rfl
  unfold replaceSlot
  rw [exec_lift_bind htransition, exec_bind_ok hread,
    exec_lift_bind (require_eq_ok (u := ()).mpr rfl), exec_bind_ok hinstall, exec_bind_ok hreadback,
    hsame, exec_lift]

section Sequence
variable {boot : Uuid} {caller binding : ManagedArtifactBinding} {record : SlotRecord}
  {reg : Registry}

/-- The key of a record. -/
def keyOf (record : SlotRecord) : ManagedKey := ⟨record.slot, record.generation⟩

/-- A call reads the record in its slot. -/
theorem exec_updateArtifact (call : CleanupOperation) (hfile : reg.file record.slot = .record record)
    (hvalid : record.Valid) :
    exec (updateArtifact ready (keyOf record) call) reg =
      match call.decide record with
      | .ok (.keep binding) => (.ok binding, reg)
      | .ok (.write binding) =>
        exec (do
          replaceSlot ⟨none, .done, none⟩ record { record with artifactBinding := some binding }
          return binding) reg
      | .error e => (.error e, reg) := by
  have hread : exec (readValidSlot none record.slot) reg = (.ok record, reg) := by
    have hcurrent := Registry.readSlot_valid.mpr ⟨rfl, hfile, hvalid, rfl⟩
    simp only [readValidSlot, readSlot, exec_bind, exec_get, exec_pure, hcurrent]
  have hlock : ensure (ready.lock = true) "managed launch registry is busy" = .ok () :=
    require_eq_ok.mpr rfl
  unfold updateArtifact
  rw [exec_lift_bind hlock]
  show exec (readValidSlot none record.slot >>= _) reg = _
  have hgeneration : ensure (record.generation = (keyOf record).generation) "generation conflict" =
      .ok () := require_eq_ok.mpr rfl
  rw [exec_bind_ok hread, exec_lift_bind hgeneration, exec_bind, exec_lift]
  cases call.decide record with
  | error e => rfl
  | ok decision => cases decision <;> rfl

/-- A call that has something to decide: it leaves the files, or replaces the binding. -/
theorem Decides.exec_ok {n : ℕ} {call : CleanupOperation}
    (hboot : InBoot boot (.updateArtifact ready (keyOf record) call))
    (hfile : reg.file record.slot = .record record)
    (hstanding : Standing boot caller record binding) (h : Decides n call record binding) :
    (exec (updateArtifact ready (keyOf record) call) reg = (.ok binding, reg) ∧ n ≤ rung binding) ∨
      ∃ next, exec (updateArtifact ready (keyOf record) call) reg =
          (.ok next, reg.install record { record with artifactBinding := some next }) ∧
        Standing boot caller { record with artifactBinding := some next } next ∧ rung next = n := by
  have hexec := exec_updateArtifact call hfile hstanding.valid
  cases h with
  | keeps h hrung =>
    rw [h] at hexec
    exact .inl ⟨hexec, hrung⟩
  | writes next h hmoves hrung hsame hretired =>
    rw [h] at hexec
    obtain ⟨_, hkeeps⟩ := CleanupOperation.decide_keeps hstanding.valid h
    cases hstanding.found.symm.trans hkeeps.found
    obtain ⟨-, hvalid⟩ := hkeeps.valid_record hstanding.valid
    have htransition :=
      validateTransition_rebind hstanding.valid.schemaVersion hstanding.tombstone hmoves
    have hladder := CleanupOperation.decide_moves hstanding.ordered hboot hstanding.found h
    have hbound := (hladder.rewrites hstanding.valid hkeeps hstanding.ordered).2
    refine .inr ⟨next, ?_, ?_, hrung⟩
    · refine hexec.trans ?_
      exact exec_bind_ok (replaceSlot_done hfile hstanding.valid htransition hvalid)
    · have hcaller := sameArtifact_eq_true.mp hstanding.same
      rw [sameArtifact_eq_true] at hsame
      refine ⟨hvalid, hstanding.tombstone, rfl, hbound.ordered, ?_, ?_, ?_⟩
      · rw [sameArtifact_eq_true]
        grind
      · have hcreated := hstanding.created
        simp only [ManagedArtifactBinding.creationPending] at hcreated ⊢
        grind
      · rw [hretired]
        exact hstanding.retired

/-- The record of the slot of `key` is standing, with its cleanup on the rung `n` or above it. -/
def At (boot : Uuid) (caller : ManagedArtifactBinding) (key : ManagedKey) (n : ℕ) (reg : Registry) :
    Prop :=
  ∃ record binding, reg.file record.slot = .record record ∧ keyOf record = key ∧
    Standing boot caller record binding ∧ n ≤ rung binding ∧
    (n < 9 → binding.cleanupCompleted = false)

/-- A call for the rung `n + 1` reaches it. -/
theorem Standing.call {n : ℕ} {call : CleanupOperation} (h : Standing boot caller record binding)
    (hfile : reg.file record.slot = .record record) (hopen : binding.cleanupCompleted = false)
    (hdecides : Decides n call record binding)
    (hboot : InBoot boot (.updateArtifact ready (keyOf record) call)) :
    ∃ result reg', exec (updateArtifact ready (keyOf record) call) reg = (.ok result, reg') ∧
      At boot caller (keyOf record) n reg' := by
  rcases hdecides.exec_ok hboot hfile h with ⟨hexec, hrung⟩ | ⟨next, hexec, hnext, hrung⟩
  · exact ⟨_, _, hexec, record, binding, hfile, rfl, h, hrung, fun _ => hopen⟩
  · refine ⟨_, _, hexec, { record with artifactBinding := some next }, next,
      file_install_self hfile, rfl, hnext, hrung.ge, fun hlt => ?_⟩
    exact rung_lt_nine.mp (hrung ▸ hlt)

/-- A call for a milestone after the quarantine reaches it, from the rung below it or above. -/
theorem At.milestone {n : ℕ} {milestone : Milestone} {key : ManagedKey} (hn : 1 ≤ n)
    (hmilestone : milestones[n]? = some milestone) (h : At boot caller key n reg) :
    ∃ result reg', exec (updateArtifact ready key (callFor caller milestone)) reg = (.ok result, reg') ∧
      At boot caller key (n + 1) reg' := by
  have hlt : n < 8 := (List.getElem?_eq_some_iff.mp hmilestone).1
  have hboot : InBoot boot (.updateArtifact ready key (callFor caller milestone)) := by
    cases milestone <;> trivial
  obtain ⟨record, binding, hfile, rfl, hstanding, hrung, hopen⟩ := h
  replace hopen := hopen (by omega)
  have hquarantine := quarantine_of_rung hstanding.ordered (hn.trans hrung)
  refine hstanding.call hfile hopen ?_ hboot
  interval_cases n <;> cases hmilestone
  · exact intent_decides .ownership hstanding hquarantine hopen (Nat.succ_le_succ hrung)
  · exact receipt_decides .ownership hstanding hquarantine hopen (by simp) hrung
  · exact intent_decides .socket hstanding hquarantine hopen (Nat.succ_le_succ hrung)
  · exact receipt_decides .socket hstanding hquarantine hopen (by simp) hrung
  · exact intent_decides .runner hstanding hquarantine hopen (Nat.succ_le_succ hrung)
  · exact receipt_decides .runner hstanding hquarantine hopen (by simp) hrung
  · exact intent_decides .directory hstanding hquarantine hopen (Nat.succ_le_succ hrung)

theorem performCalls_cons {key : ManagedKey} {call : CleanupOperation} {rest : List CleanupOperation}
    {result : ManagedArtifactBinding} {reg' : Registry}
    (h : exec (updateArtifact ready key call) reg = (.ok result, reg')) :
    exec (performCalls key (call :: rest)) reg = exec (performCalls key rest) reg' := by
  show exec (discard (updateArtifact ready key call) >>= fun _ => performCalls key rest) reg = _
  refine exec_bind_ok (a := ()) ?_
  show exec (_ <$> updateArtifact ready key call) reg = _
  rw [exec_map, h]
  rfl

theorem performCalls_cons_error {key : ManagedKey} {call : CleanupOperation}
    {rest : List CleanupOperation} {e : Failure} {reg' : Registry}
    (h : exec (updateArtifact ready key call) reg = (.error e, reg')) :
    exec (performCalls key (call :: rest)) reg = (.error e, reg') := by
  unfold performCalls
  have hdiscard : exec (discard (updateArtifact ready key call)) reg = (.error e, reg') := by
    show exec (_ <$> updateArtifact ready key call) reg = _
    rw [exec_map, h]
    rfl
  rw [exec_bind, hdiscard]

/-- The calls after the quarantine, up to the intent for the directory. -/
theorem At.milestones_drop {key : ManagedKey} {rest : List CleanupOperation} :
    ∀ (m n : ℕ) (reg : Registry), n + m = 8 → 1 ≤ n → At boot caller key n reg →
      ∃ reg', At boot caller key 8 reg' ∧
        exec (performCalls key ((milestones.drop n).map (callFor caller) ++ rest)) reg =
          exec (performCalls key rest) reg'
  | 0, n, reg, hsum, _, h => by
    obtain rfl : n = 8 := by omega
    exact ⟨reg, h, rfl⟩
  | m + 1, n, reg, hsum, hn, h => by
    have hlt : n < milestones.length := by
      show n < 8
      omega
    obtain ⟨result, reg₁, hexec, h₁⟩ := h.milestone hn (List.getElem?_eq_getElem hlt)
    obtain ⟨reg', h', hrest⟩ := At.milestones_drop m (n + 1) reg₁ (by omega) (by omega) h₁
    refine ⟨reg', h', ?_⟩
    rw [List.drop_eq_getElem_cons hlt, List.map_cons, List.cons_append, performCalls_cons hexec, hrest]

/-- The slot holds a binding whose cleanup is complete. -/
def Completed (reg : Registry) (slot : ℕ) : Prop :=
  ∃ record binding, reg.file slot = .record record ∧ record.artifactBinding = some binding ∧
    binding.cleanupCompleted = true

/-- **The calls complete a cleanup** that is not complete, if the quarantine can be named. -/
theorem cleanupCalls_complete (hfile : reg.file record.slot = .record record)
    (hstanding : Standing boot caller record binding) (hopen : binding.cleanupCompleted = false)
    (hname : binding.cleanupQuarantine.isSome ∨ byteLen binding.privateLeaf ≤ 213) :
    ∃ reg', exec (performCalls (keyOf record) (cleanupCalls caller)) reg = (.ok (), reg') ∧
      Completed reg' record.slot := by
  have hcalls : cleanupCalls caller = .beginArtifactCleanup caller ::
      ((milestones.drop 1).map (callFor caller) ++ [.finishArtifactCleanup caller]) := rfl
  -- the name matters for the first call only
  obtain ⟨_, reg₁, hexec₁, h₁⟩ :=
    hstanding.call hfile hopen (quarantine_decides hstanding hname) trivial
  obtain ⟨reg₂, ⟨record', binding', hfile', hkey, hstanding', hrung, hopen'⟩, hexec₂⟩ :=
    At.milestones_drop 7 1 reg₁ rfl (Nat.le_refl 1) h₁
  replace hopen' := hopen' (by omega)
  have hquarantine := quarantine_of_rung hstanding'.ordered (by omega)
  have height : rung binding' = 8 := by
    have hlt := rung_lt_nine.mpr hopen'
    omega
  obtain ⟨_, reg₃, hexec₃, record₃, binding₃, hfile₃, hkey₃, hstanding₃, hrung₃, -⟩ :=
    hstanding'.call hfile' hopen' (completion_decides hstanding' hquarantine height) trivial
  refine ⟨reg₃, ?_, record₃, binding₃, ?_, hstanding₃.found, ?_⟩
  · rw [hcalls, performCalls_cons hexec₁, hexec₂, ← hkey, performCalls_cons hexec₃]
    rfl
  · have hslot : record₃.slot = record.slot := congrArg ManagedKey.slot (hkey₃.trans hkey)
    rw [← hslot]
    exact hfile₃
  · by_contra hnot
    have hlt := rung_lt_nine.mpr (by simpa using hnot)
    omega

/-- A quarantine whose name is too long is refused, by the first call. -/
theorem cleanupCalls_unnamed (hfile : reg.file record.slot = .record record)
    (hstanding : Standing boot caller record binding) (hnone : binding.cleanupQuarantine = none)
    (hlong : 213 < byteLen binding.privateLeaf) :
    ∃ e, exec (performCalls (keyOf record) (cleanupCalls caller)) reg = (.error e, reg) := by
  have hrefuse : ∀ decision, CleanupOperation.decide (.beginArtifactCleanup caller) record ≠
      .ok decision := by
    intro decision h
    simp only [CleanupOperation.decide, beginArtifactCleanup, bind_eq_ok, exists_unit, require_eq_ok,
      expect_eq_ok, hstanding.found] at h
    obtain ⟨-, _, hsome, -, -, -, h⟩ := h
    cases hsome
    simp only [hnone, Option.isSome_none, Bool.false_eq_true, if_false, bind_eq_ok, exists_unit] at h
    have hfits := (validate_cleanupQuarantineName hstanding.ordered.valid).mp h.1
    omega
  obtain ⟨e, he⟩ := exists_error hrefuse
  have hexec := exec_updateArtifact (.beginArtifactCleanup caller) hfile hstanding.valid
  rw [he] at hexec
  exact ⟨e, performCalls_cons_error hexec⟩

/-- A complete cleanup is left as it is; the second call refuses it. -/
theorem cleanupCalls_again (hfile : reg.file record.slot = .record record)
    (hstanding : Standing boot caller record binding) (hcompleted : binding.cleanupCompleted = true) :
    ∃ e, exec (performCalls (keyOf record) (cleanupCalls caller)) reg = (.error e, reg) := by
  have hquarantine := (hstanding.ordered.valid.completed hcompleted).1
  have hkeep : CleanupOperation.decide (.beginArtifactCleanup caller) record = .ok (.keep binding) := by
    simp [CleanupOperation.decide, beginArtifactCleanup, hstanding.tombstone, hstanding.found,
      hstanding.same, hstanding.created, hstanding.retired, hquarantine]
  have hrefuse : ∀ decision, CleanupOperation.decide (.beginArtifactUnlink caller .ownership) record ≠
      .ok decision := by
    intro decision h
    simp only [CleanupOperation.decide, beginArtifactUnlink, bind_eq_ok, exists_unit, require_eq_ok,
      expect_eq_ok, hstanding.found] at h
    obtain ⟨-, _, hsome, -, hphase, -⟩ := h
    cases hsome
    simp [hcompleted] at hphase
  obtain ⟨e, he⟩ := exists_error hrefuse
  have hexec := exec_updateArtifact (.beginArtifactCleanup caller) hfile hstanding.valid
  rw [hkeep] at hexec
  have hexec' :=
    exec_updateArtifact (.beginArtifactUnlink caller .ownership) hfile hstanding.valid
  rw [he] at hexec'
  exact ⟨e, (performCalls_cons hexec).trans (performCalls_cons_error hexec')⟩

/-- **When the calls complete a cleanup**, and when they do so without a refusal. -/
theorem cleanupCalls_iff (hfile : reg.file record.slot = .record record)
    (hstanding : Standing boot caller record binding) :
    let ended := exec (performCalls (keyOf record) (cleanupCalls caller)) reg
    (Completed ended.2 record.slot ↔
        binding.cleanupQuarantine.isSome ∨ byteLen binding.privateLeaf ≤ 213) ∧
      (ended.1 = .ok () ↔ binding.cleanupCompleted = false ∧
        (binding.cleanupQuarantine.isSome ∨ byteLen binding.privateLeaf ≤ 213)) := by
  intro ended
  cases hcompleted : binding.cleanupCompleted with
  | true =>
    obtain ⟨e, hexec⟩ := cleanupCalls_again hfile hstanding hcompleted
    have hquarantine := (hstanding.ordered.valid.completed hcompleted).1
    have hdone : Completed reg record.slot := ⟨record, binding, hfile, hstanding.found, hcompleted⟩
    simp [ended, hexec, hquarantine, hdone]
  | false =>
    by_cases hname : binding.cleanupQuarantine.isSome ∨ byteLen binding.privateLeaf ≤ 213
    · obtain ⟨reg', hexec, hdone⟩ := cleanupCalls_complete hfile hstanding hcompleted hname
      simp only [ended, hexec, hdone, hname, and_self]
    · have hnone : binding.cleanupQuarantine = none := by simpa using (not_or.mp hname).1
      have hlong : 213 < byteLen binding.privateLeaf := by simpa using (not_or.mp hname).2
      obtain ⟨e, hexec⟩ := cleanupCalls_unnamed hfile hstanding hnone hlong
      have hopen : ¬Completed reg record.slot := by
        rintro ⟨record', binding', hfile', hfound', hdone⟩
        cases hfile.symm.trans hfile'
        cases hstanding.found.symm.trans hfound'
        simp [hcompleted] at hdone
      simp [ended, hexec, hname, hopen]

end Sequence

/-! ### Runs -/

/-- **Artifact cleanup is ordered, and complete unless the quarantine cannot be named.** In every run
of one boot, from a registry without bindings, with failures and crashes at any point:

* every write of an operation climbs at most one rung, finds its milestone next, and completes the
  cleanup only as the last call, with all the milestones among the earlier writes in their order, or for
  a binding that was only reserved;
* a binding keeps what it has, and once dropped does not come back in its generation;
* the calls on a resolved launch with no unresolved creation or retirement complete its cleanup exactly
  when there is a quarantine already, or its name fits into a path component. -/
theorem artifact_cleanup_complete (reg : Registry) (boot : Uuid) (operations : List Operation)
    (hunbound : Unbound reg) (hboot : ∀ operation ∈ operations, InBoot boot operation) :
    let reached := run reg operations
    (∀ operation, InBoot boot operation → ∃ made,
        (step reached operation).replaced = made ++ reached.replaced ∧
          ∀ later w earlier, made = later ++ w :: earlier →
            Ascends operation (earlier ++ reached.replaced) w) ∧
      (∀ more, (∀ operation ∈ more, InBoot boot operation) → ∀ slot r,
        reached.file slot = .record r →
          ∃ r', (run reached more).file slot = .record r' ∧ Retains r r') ∧
      ∀ slot record binding caller, reached.file slot = .record record →
        record.state.isTombstone = true → record.artifactBinding = some binding →
        binding.sameArtifact caller = true → binding.creationPending = false →
        binding.socketRetirePending = false →
        let ended := exec (performCalls ⟨slot, record.generation⟩ (cleanupCalls caller)) reached
        (Completed ended.2 slot ↔
            binding.cleanupQuarantine.isSome ∨ byteLen binding.privateLeaf ≤ 213) ∧
          (ended.1 = .ok () ↔ binding.cleanupCompleted = false ∧
            (binding.cleanupQuarantine.isSome ∨ byteLen binding.privateLeaf ≤ 213)) := by
  intro reached
  have hladdered : Laddered boot reached := run_laddered operations reg hboot hunbound.laddered
  refine ⟨fun operation hoperation => ?_, fun more hmore slot r hr => ?_, ?_⟩
  · exact (Effects.ascends hoperation hladdered (step_written reached operation)).2
  · exact run_retains more reached hmore hladdered hr
  · intro slot record binding caller hfile htombstone hfound hsame hcreated hretired
    obtain ⟨hbound, rfl, -⟩ := hladdered slot record binding hfile hfound
    have hvalid : record.Valid := by
      refine hbound.valid.resolve_right fun hintent => ?_
      cases hstate : record.state <;> simp_all [SlotState.isTombstone, SlotState.isIntent]
    exact cleanupCalls_iff hfile
      ⟨hvalid, htombstone, hfound, hbound.ordered, hsame, hcreated, hretired⟩

/-- A launch that is abandoned after its directory was reserved under the name `leaf`. -/
def abandoned (leaf : Str) : List Operation :=
  let io : ReplaceIo := ⟨none, .done, none⟩
  let owner : ManagedOwnerTag := ⟨.speculation, Uuid.newV4 1, 0, .runner⟩
  let intent : SlotRecord := ⟨2, 0, 1, some owner, none, .intentDurable (Uuid.newV4 0) 1⟩
  [.allocateIntent ⟨true, fun _ => ⟨none, io⟩, 0, io, io, true⟩ 1 (some owner),
    .beginArtifactCreation io ⟨some intent⟩ ⟨Uuid.newV4 1, 1, 1, 1⟩ leaf,
    .cleanup ⟨true, none, true, none, io, fun _ => .absent, none, none, fun _ => .absent, some 5, io⟩ 0 1]

/-- The record that is left of it. -/
def abandonedRecord (leaf : Str) : SlotRecord :=
  ⟨2, 0, 1, some ⟨.speculation, Uuid.newV4 1, 0, .runner⟩,
    some (reservedBinding (Uuid.newV4 0) ⟨Uuid.newV4 1, 1, 1, 1⟩ leaf),
    .resolvedTombstone (Uuid.newV4 0) none 5⟩

theorem abandoned_inBoot (leaf : Str) : ∀ operation ∈ abandoned leaf, InBoot (Uuid.newV4 1) operation := by
  simp [abandoned, InBoot]

/-- A short name. -/
theorem artifact_cleanup_complete_abandoned :
    Completed (exec (performCalls ⟨0, 1⟩
      (cleanupCalls (reservedBinding (Uuid.newV4 0) ⟨Uuid.newV4 1, 1, 1, 1⟩ ['a'])))
      (run (genesis "slots" 1) (abandoned ['a']))).2 0 := by
  have hfile : (run (genesis "slots" 1) (abandoned ['a'])).file 0 = .record (abandonedRecord ['a']) := by
    decide +kernel
  obtain ⟨-, -, hcalls⟩ := artifact_cleanup_complete (genesis "slots" 1) (Uuid.newV4 1) (abandoned ['a'])
    (unbound_genesis "slots" 1) (abandoned_inBoot ['a'])
  exact (hcalls 0 _ _ _ hfile rfl rfl (by decide) rfl rfl).1.mpr (.inr (by decide))

/-- A name of 214 bytes is accepted for the directory, and then the launch cannot be cleaned up: the
first of the calls fails, and fails again whenever it is made. -/
theorem artifact_cleanup_unnamed :
    let leaf := List.replicate 214 'a'
    let reached := run (genesis "slots" 1) (abandoned leaf)
    let binding := reservedBinding (Uuid.newV4 0) ⟨Uuid.newV4 1, 1, 1, 1⟩ leaf
    (∀ operation ∈ abandoned leaf, InBoot (Uuid.newV4 1) operation) ∧
      reached.file 0 = .record (abandonedRecord leaf) ∧
      (abandonedRecord leaf).state.isTombstone = true ∧
      (abandonedRecord leaf).artifactBinding = some binding ∧ binding.creationPending = false ∧
      binding.socketRetirePending = false ∧
      (exec (performCalls ⟨0, 1⟩ (cleanupCalls binding)) reached).1 =
        .error (.error "managed artifact leaf is invalid") ∧
      ¬Completed (exec (performCalls ⟨0, 1⟩ (cleanupCalls binding)) reached).2 0 := by
  intro leaf reached binding
  have hfile : reached.file 0 = .record (abandonedRecord leaf) := by decide +kernel
  refine ⟨abandoned_inBoot leaf, hfile, rfl, rfl, rfl, rfl, by decide +kernel, ?_⟩
  rintro ⟨record, binding', hrecord, hfound, hcompleted⟩
  have hleft : (exec (performCalls ⟨0, 1⟩ (cleanupCalls binding)) reached).2.file 0 =
      .record (abandonedRecord leaf) := by decide +kernel
  cases hleft.symm.trans hrecord
  cases hfound
  cases hcompleted

end LightTerminal.LaunchRegistry.Completion
