import LightTerminal.Speculation.Closing

/-! # Restarts of the daemon

Every restart of the daemon is an attempt to recover: the store is opened again, and the record is
normalized and closed. An attempt may be cut off after any of its writes, and the next one finds what
it left.

* `attempt_keeps`: whatever the system answers and wherever an attempt is cut off, the record stays one
  that a recovery can close;
* `normalize_exec`: when `normalize_after_daemon_restart` takes a record;
* `restartable`: what the next attempt does after any number of attempts. -/

namespace LightTerminal.Speculation.Restart

open LightTerminal.Data.Text LightTerminal.Library LightTerminal.Library.Procedure
open LightTerminal.Library.Crash
open LightTerminal.Speculation.Phase LightTerminal.Speculation.Record
open LightTerminal.Speculation.Store LightTerminal.Speculation.Writes
open LightTerminal.Speculation.History LightTerminal.Speculation.Actor
open LightTerminal.Speculation.Recovery LightTerminal.Speculation.Closing

/-- A restart of the daemon: what it meets, its instance, and how many steps it gets. -/
structure Attempt (W : Type) where
  env : Environment W
  world : W
  daemon : Uuid
  currentPrivateRoot : DurableDirectoryIdentity
  budget : ℕ

variable {W : Type}

/-- The store as a daemon finds it that can read all of its files. -/
def reopened (store : TournamentStore) : TournamentStore := reopen ⟨fun _ => true, 0⟩ store

/-- What an attempt does with the record of a slot, and the store it leaves. -/
def attempt (slot : ℕ) (a : Attempt W) (store : TournamentStore) :
    Except (Stop ServiceError) Unit × TournamentStore :=
  match (reopened store).validSlot slot with
  | some (record, _) =>
    let result := outcome (recoverRecord a.env a.daemon a.currentPrivateRoot (keyFor slot record) record)
      ⟨reopened store, a.world⟩ a.budget
    (result.1, result.2.state.store)
  | none => (.ok (), reopened store)

/-- The store after attempts, one after the other. -/
def restarts (slot : ℕ) (store : TournamentStore) (attempts : List (Attempt W)) : TournamentStore :=
  Run.run (fun store a => (attempt slot a store).2) store attempts

/-- What `normalize_after_daemon_restart` answers an attempt. -/
def normalization (slot : ℕ) (a : Attempt W) (store : TournamentStore) (record : TournamentRecord) :
    EvidenceResult StoredTournamentUpdate :=
  (exec (normalizeAfterDaemonRestart true
    (.done (a.env.identity (normalized record (record.status.generation + 1)))) (keyFor slot record)
    record.status.generation a.daemon) (reopened store)).1

/-- The record is the one of its slot, and the only one of its tournament. -/
structure Found (slot : ℕ) (record : TournamentRecord) (store : TournamentStore) : Prop where
  coherent : Coherent store
  shown : ∃ identity, store.slots[slot]? = some (.valid record identity)
  alone : ∀ slot' record', durable store slot' = some record' →
    record'.status.tournamentUuid = record.status.tournamentUuid → slot' = slot

/-- A record that a recovery can close: no control group is given up, and it is over only if its cleanup
is. -/
structure Closable (record : TournamentRecord) : Prop where
  sound : Sound record
  terminal : record.status.phase.isTerminal = true → record.isPositiveTerminal = true

/-- The daemon is another one than the one that prepared the tournament, and runs in some boot. -/
structure Fresh (daemon : Uuid) (a : Attempt W) : Prop where
  nonnil : Uuid.isNil a.daemon = false
  ne : daemon ≠ a.daemon
  boot : Uuid.isNil a.currentPrivateRoot.bootUuid = false

/-- A record that an earlier attempt left on its way: the phase moved on after the normalization. -/
def Stranded (record : TournamentRecord) : Prop :=
  record.status.phase = .rollbackPending ∧ record.restartPriorPhase ≠ none
  deriving Decidable

variable {record next : TournamentRecord} {store : TournamentStore} {slot : ℕ}

/-! ### The store that a restart finds -/

theorem Found.at (h : Found slot record store) (world : W) : At slot record ⟨store, world⟩ :=
  ⟨h.coherent, h.shown⟩

theorem Found.valid (h : Found slot record store) : record.Valid := (h.at ()).valid

theorem Found.reopened (h : Found slot record store) : Found slot record (reopened store) := by
  have hdurable : ∀ slot', durable (Restart.reopened store) slot' = durable store slot' := by
    intro slot'
    unfold durable Restart.reopened
    rw [reopen_file]
  obtain ⟨identity, hslot⟩ := h.shown
  have hlt : slot < maxTournamentRecords := h.coherent.files_length ▸ h.coherent.lt_of_slot hslot
  have hfile := h.coherent.valid _ _ _ hslot
  have hopen : openSlot ⟨fun _ => true, 0⟩ store slot = .valid record identity := by
    have hentry : StoredSlot.validate ⟨identity, slot, some record⟩ slot = .ok () := by
      simp [StoredSlot.validate, TournamentRecord.validate_eq_ok.mpr h.valid]
    simp only [openSlot, hfile]
    rw [if_pos ⟨trivial, hentry⟩]
  refine ⟨h.coherent.reopen _, ⟨identity, ?_⟩, fun slot' record' hslot' => ?_⟩
  · unfold Restart.reopened
    rw [reopen_slots, openSlots, List.getElem?_map, List.getElem?_range hlt, Option.map_some, hopen]
  · rw [hdurable] at hslot'
    exact h.alone slot' record' hslot'

theorem Found.installed (h : Found slot record store) (hvalid : next.Valid)
    (huuid : next.status.tournamentUuid = record.status.tournamentUuid) (identity : FileIdentity) :
    Found slot next ((store.install slot identity next).setSlot slot (.valid next identity)) := by
  have hat := (h.at ()).installed hvalid identity
  obtain ⟨identity', hslot⟩ := h.shown
  have hlt := h.coherent.lt_of_slot hslot
  refine ⟨hat.coherent, hat.slot, fun slot' record' hslot' hsame => ?_⟩
  by_contra hne
  have hold : durable store slot' = some record' := by
    have hinstalled : durable (store.install slot identity next) slot' = some record' := hslot'
    rwa [durable_install hlt, if_neg (Ne.symm hne)] at hinstalled
  exact hne (h.alone slot' record' hold (hsame.trans huuid))

/-! ### Normalization -/

/-- The record that `normalize_after_daemon_restart` writes is valid. -/
theorem valid_normalized (h : record.Valid) (hterminal : record.status.phase.isTerminal = false)
    (hphase : record.status.phase ≠ .rollbackRequired) :
    (normalized record (record.status.generation + 1)).Valid := by
  obtain ⟨⟨hroots, hdomain, hgroups, hnames, hstatus, howners, -⟩, hcompleted⟩ := h
  obtain ⟨⟨h1, h2, h3, h4, h5, h6, h7⟩, hvalid, -, -⟩ := hstatus
  refine ⟨⟨hroots, hdomain, hgroups, hnames, ?_, howners, ?_⟩, ?_⟩
  · exact ⟨⟨h1, h2, Nat.succ_ne_zero _, h4, h5, h6, h7⟩, hvalid, rfl, rfl⟩
  · intro prior hmem
    simp only [normalized, Option.mem_def, Option.some.injEq] at hmem
    rw [← hmem]
    exact ⟨hterminal, hphase, .inl rfl⟩
  · refine iff_of_false ?_ ?_
    · show ¬ record.terminalCompletedUnixMs.isSome = true
      rw [hcompleted, hterminal]
      simp
    · simp [normalized, SpeculationPhase.isTerminal]

/-- The tournament is found by its UUID. -/
theorem Found.load (h : Found slot record store) :
    exec (loadByUuid true record.status.tournamentUuid) store = (.ok (some record), store) := by
  obtain ⟨identity, hslot⟩ := h.shown
  obtain ⟨hlt, hget⟩ := List.getElem?_eq_some_iff.mp hslot
  have hfind : store.slots.findIdx? (SlotState.holds record.status.tournamentUuid) = some slot := by
    rw [List.findIdx?_eq_some_iff_getElem]
    refine ⟨hlt, ?_, fun j hj => ?_⟩
    · rw [hget]
      simp [SlotState.holds]
    · rcases hstate : store.slots[j] with _ | ⟨record', identity'⟩ | _
      · simp [SlotState.holds]
      · have hvalid : store.slots[j]? = some (.valid record' identity') := by
          rw [List.getElem?_eq_getElem (by omega), hstate]
        have hne : record'.status.tournamentUuid ≠ record.status.tournamentUuid := by
          intro hsame
          have := h.alone j record' (h.coherent.durable_of_valid hvalid) hsame
          omega
        simp [SlotState.holds, hne]
      · simp [SlotState.holds]
  have hfile := h.coherent.valid _ _ _ hslot
  unfold loadByUuid
  rw [exec_bind_ok (exec_get store), hfind]
  have hcheck : ensure (true = true ∧ store.file slot = some ⟨identity, slot, some record⟩ ∧
      record.validate = .ok ()) EvidenceError.corrupt = .ok () :=
    require_eq_ok.mpr ⟨rfl, hfile, TournamentRecord.validate_eq_ok.mpr h.valid⟩
  refine (exec_lift_bind (expect_eq_ok.mpr (validSlot_eq_some.mpr hslot))).trans ?_
  rw [exec_bind, exec_orCorrupt, exec_lift, hcheck]
  rfl

/-- What `normalize_after_daemon_restart` does with a record: one that is over or waits for its rollback
it leaves as it is, one without an earlier phase it normalizes, and one with an earlier phase it refuses. -/
theorem normalize_exec (h : Found slot record store) (identity : FileIdentity) {daemon : Uuid}
    (hnil : Uuid.isNil daemon = false) (hdaemon : record.status.daemonInstanceUuid ≠ daemon) :
    exec (normalizeAfterDaemonRestart true (.done identity) (keyFor slot record)
        record.status.generation daemon) store =
      if record.status.phase.isTerminal = true ∨ record.status.phase = .rollbackRequired then
        (.ok (stored slot record), store)
      else if record.restartPriorPhase ≠ none then (.error .corrupt, store)
      else if record.status.generation + 1 < 2 ^ 64 then
        (.ok (stored slot (normalized record (record.status.generation + 1))),
          (store.install slot identity (normalized record (record.status.generation + 1))).setSlot slot
            (.valid (normalized record (record.status.generation + 1)) identity))
      else (.error .generationMismatch, store) := by
  unfold normalizeAfterDaemonRestart
  refine (exec_lift_bind (require_eq_ok (u := ()).mpr hnil)).trans ?_
  refine (exec_bind_ok h.load).trans ?_
  refine (exec_lift_bind (expect_eq_ok.mpr rfl)).trans ?_
  refine (exec_lift_bind (require_eq_ok (u := ()).mpr ⟨rfl, rfl, hdaemon⟩)).trans ?_
  split_ifs with hphase hprior hbound
  · rfl
  · rw [exec_bind]
    simp only [exec_lift, require, if_neg hprior]
  · rw [not_or, Bool.not_eq_true] at hphase
    obtain ⟨identity', hslot⟩ := h.shown
    have hvalid := valid_normalized h.valid hphase.1 hphase.2
    have hcompleted : record.terminalCompletedUnixMs = none := by
      rw [← Option.not_isSome_iff_eq_none, h.valid.completed, hphase.1]
      simp
    refine (exec_lift_bind (require_eq_ok (u := ()).mpr (not_not.mp hprior))).trans ?_
    refine (exec_lift_bind (require_eq_ok (u := ()).mpr hbound)).trans ?_
    unfold writeRestartNormalization
    refine (exec_lift_bind (TournamentRecord.validate_eq_ok.mpr hvalid)).trans ?_
    refine (exec_bind_ok (exec_get store)).trans ?_
    refine (exec_lift_bind (expect_eq_ok.mpr (validSlot_eq_some.mpr hslot))).trans ?_
    refine (exec_lift_bind (require_eq_ok (u := ()).mpr ⟨rfl, ⟨rfl, rfl, rfl, hbound, rfl⟩,
      ⟨rfl, rfl, rfl, immutableIdentityProgressesTo_refl _, rfl, rfl, rfl, rfl⟩, rfl, rfl, rfl, rfl,
      hcompleted⟩)).trans ?_
    exact replaceRecord_done hvalid (h.coherent.valid _ _ _ hslot)
  · refine (exec_lift_bind (require_eq_ok (u := ()).mpr (not_not.mp hprior))).trans ?_
    rw [exec_bind]
    simp only [exec_lift, require, if_neg hbound]

/-! ### What an attempt leaves

Nothing is assumed about the effects here: they may fail, and may answer anything. -/

variable {env : Environment W} {machine : Machine W} {daemon : Uuid} {i : Fin 2}

/-- The store has a record in the slot that a recovery can close. -/
def Kept (slot : ℕ) (daemon : Uuid) (machine : Machine W) : Prop :=
  ∃ record, Found slot record machine.store ∧ Closable record ∧
    record.status.daemonInstanceUuid = daemon

/-- A step of the recovery ends with a record that is being rolled back. -/
def Pending (slot : ℕ) (daemon : Uuid) (update : StoredTournamentUpdate) (machine : Machine W) : Prop :=
  ∃ record, update = stored slot record ∧ Found slot record machine.store ∧ Sound record ∧
    record.status.daemonInstanceUuid = daemon ∧ record.status.phase = .rollbackPending

theorem closable_of_pending (hsound : Sound record) (hphase : record.status.phase = .rollbackPending) :
    Closable record := by
  refine ⟨hsound, fun hterminal => ?_⟩
  rw [hphase] at hterminal
  simp [SpeculationPhase.isTerminal] at hterminal

theorem Pending.kept {update : StoredTournamentUpdate} (h : Pending slot daemon update machine) :
    Kept slot daemon machine := by
  obtain ⟨record, -, hfound, hsound, hdaemon, hphase⟩ := h
  exact ⟨record, hfound, closable_of_pending hsound hphase, hdaemon⟩

/-- An operation of the store, as a step. -/
theorem onStore_keeps {α : Type} {m : Op α} {I : Machine W → Prop} {Q : α → Machine W → Prop}
    {result : EvidenceResult α} {store' : TournamentStore} (hexec : exec m machine.store = (result, store'))
    (hI : I { machine with store := store' })
    (hQ : ∀ a, result = .ok a → Q a { machine with store := store' }) :
    Keeps I (Recovery.onStore m) machine Q := by
  unfold Recovery.onStore
  refine Keeps.atomically ?_ ?_
  · rw [exec_zoom, hexec]
    exact hI
  · intro a ha
    rw [exec_zoom, hexec] at ha ⊢
    rcases result with error | b
    · simp [Except.mapError] at ha
    · simp only [Except.mapError, Except.ok.injEq] at ha
      exact hQ a (by rw [ha])

/-- A write that leaves a record which a recovery can close, if the store takes it. -/
theorem persist_keeps {kind : TournamentWriteKind} (h : Found slot record machine.store)
    (hclosable : Closable record) (hdaemon : record.status.daemonInstanceUuid = daemon)
    (hnext : next.Valid → Accepts kind record next → Closable next) :
    Keeps (Kept slot daemon) (persist env (stored slot record) next kind) machine fun update machine' =>
      update = stored slot next ∧ Found slot next machine'.store ∧ Accepts kind record next ∧
        next.status.daemonInstanceUuid = daemon := by
  have hwrite := exec_write_done (env.identity next) (stored slot record).key
    (stored slot record).key.generation next kind h.coherent.valid
  unfold persist
  rcases hwrite with ⟨error, hexec⟩ | ⟨current, identity, hslot, hvalid, hkey, haccepts, hexec⟩
  · exact onStore_keeps hexec ⟨record, h, hclosable, hdaemon⟩ (by simp)
  · obtain ⟨identity', hshown⟩ := h.shown
    obtain rfl : current = record := by
      have hsame := hslot.symm.trans hshown
      simp only [Option.some.injEq, SlotState.valid.injEq] at hsame
      exact hsame.1
    have huuid : next.status.tournamentUuid = current.status.tournamentUuid :=
      haccepts.1.2.2.2.2.1.symm
    have hsame : next.status.daemonInstanceUuid = daemon :=
      haccepts.1.2.2.2.2.2.1.symm.trans hdaemon
    have hfound := h.installed hvalid huuid (env.identity next)
    refine onStore_keeps hexec ⟨next, hfound, hnext hvalid haccepts, hsame⟩ ?_
    rintro _ ⟨⟩
    exact ⟨rfl, hfound, haccepts, hsame⟩

/-- An effect changes nothing in the store. -/
theorem reconcile_keeps {action : RecoveryAction} (h : Kept slot daemon machine) :
    Keeps (Kept slot daemon) (reconcileFromRecord env record action) machine
      fun _ machine' => machine'.store = machine.store := by
  unfold reconcileFromRecord
  refine Keeps.atomically ?_ fun _ _ => ?_
  · obtain ⟨r, hfound, hrest⟩ := h
    rw [exec_bind_ok (exec_get machine)]
    exact ⟨r, hfound, hrest⟩
  · rw [exec_bind_ok (exec_get machine)]
    rfl

theorem complete_keeps {action : RecoveryAction} (h : Kept slot daemon machine) :
    Keeps (Kept slot daemon) (complete env record action) machine
      fun _ machine' => machine'.store = machine.store := by
  unfold complete
  refine (reconcile_keeps h).bind fun evidence machine' hkept hstore => ?_
  exact Keeps.check hkept fun _ _ => hstore

/-- Changes that a recovery makes to a record in one phase. -/
def KeepsSound (mutate : TournamentRecord → TournamentRecord) : Prop :=
  ∀ record, Sound record → Sound (mutate record)

theorem keepsSound_setLifecycle {lifecycle : CgroupLifecycleState} (h : lifecycle ≠ .rollbackRequired) :
    KeepsSound (setLifecycle i lifecycle) := by
  intro record hsound
  refine ⟨fun j => ?_, hsound.domain⟩
  rw [regrouped_setLifecycle i lifecycle record j]
  split_ifs
  · exact h
  · exact hsound.groups j

theorem keepsSound_setComponent {component : CgroupComponent}
    {identity : Option DurableDirectoryIdentity} {lifecycle : CgroupLifecycleState}
    (h : lifecycle ≠ .rollbackRequired) :
    KeepsSound (setComponent i component identity lifecycle) := by
  intro record hsound
  refine ⟨fun j => ?_, hsound.domain⟩
  rw [regrouped_setComponent i component identity lifecycle record j]
  split_ifs
  · exact h
  · exact hsound.groups j

theorem keepsSound_setClosed : KeepsSound (setClosed i) := fun _ h => ⟨h.groups, h.domain⟩

theorem keepsSound_setDomain {lifecycle : TournamentCgroupLifecycleState}
    {domain : Option DurableDirectoryIdentity} (h : lifecycle ≠ .rollbackRequired) :
    KeepsSound (setDomain lifecycle domain) := fun _ hsound => ⟨hsound.groups, h⟩

section Steps
variable {update : StoredTournamentUpdate} (h : Pending slot daemon update machine)
include h

theorem mutateSame_keeps {mutate : TournamentRecord → TournamentRecord} (hmutate : KeepsSound mutate) :
    Keeps (Kept slot daemon) (mutateSame env update mutate) machine (Pending slot daemon) := by
  obtain ⟨record, rfl, hfound, hsound, hdaemon, hphase⟩ := h
  have hclosable := closable_of_pending hsound hphase
  unfold mutateSame
  refine (Keeps.check (Q := fun _ machine' => machine' = machine) ⟨record, hfound, hclosable, hdaemon⟩
    fun _ _ => rfl).bind ?_
  rintro generation _ - rfl
  have hsound' : Sound (mutate (withGeneration record generation)) :=
    hmutate _ ⟨hsound.groups, hsound.domain⟩
  refine (persist_keeps hfound hclosable hdaemon ?_).imp ?_
  · intro _ haccepts
    exact closable_of_pending hsound' (haccepts.2.1.1.symm.trans hphase)
  · rintro _ machine' - ⟨rfl, hfound', haccepts, hdaemon'⟩
    exact ⟨_, rfl, hfound', hsound', hdaemon', haccepts.2.1.1.symm.trans hphase⟩

/-- A step that needs an effect. -/
theorem effect_keeps {action : RecoveryAction} {record : TournamentRecord} {α : Type}
    {f : Unit → RecoveryOp W α} {Q : α → Machine W → Prop}
    (hf : ∀ machine', Pending slot daemon update machine' → Keeps (Kept slot daemon) (f ()) machine' Q) :
    Keeps (Kept slot daemon) (complete env record action >>= f) machine Q := by
  refine (complete_keeps h.kept).bind fun _ machine' _ hstore => ?_
  refine hf machine' ?_
  obtain ⟨r, hr, hfound, hrest⟩ := h
  exact ⟨r, hr, by rw [hstore]; exact hfound, hrest⟩

theorem createComponent_keeps {component : CgroupComponent} :
    Keeps (Kept slot daemon) (createComponent env i update component) machine
      (Pending slot daemon) := by
  unfold createComponent
  refine (reconcile_keeps h.kept).bind fun evidence machine' hkept hstore => ?_
  have h' : Pending slot daemon update machine' := by
    obtain ⟨r, hr, hfound, hrest⟩ := h
    exact ⟨r, hr, by rw [hstore]; exact hfound, hrest⟩
  rcases evidence with _ | ⟨_, _, identity, _⟩ | _ | _ | _ | _
  case candidateCreateReconciled => exact mutateSame_keeps h' (keepsSound_setComponent (by simp))
  all_goals exact Keeps.throw _ hkept

theorem closeStep_keeps :
    Keeps (Kept slot daemon) (closeStep env i update) machine fun result machine' =>
      Pending slot daemon (result.getD update) machine' := by
  have hsome : ∀ {m : RecoveryOp W StoredTournamentUpdate} {machine' : Machine W},
      Keeps (Kept slot daemon) m machine' (Pending slot daemon) →
      Keeps (Kept slot daemon) (some <$> m) machine' fun result machine'' =>
        Pending slot daemon (result.getD update) machine'' := by
    intro m machine' hm
    exact hm.map fun update' machine'' _ hpending => hpending
  have hlifecycle : ∀ (lifecycle : CgroupLifecycleState) (machine' : Machine W),
      lifecycle ≠ .rollbackRequired → Pending slot daemon update machine' →
      Keeps (Kept slot daemon) (mutateSame env update (setLifecycle i lifecycle)) machine'
        (Pending slot daemon) :=
    fun lifecycle machine' hne h' => mutateSame_keeps h' (keepsSound_setLifecycle hne)
  have hcomponent : ∀ (component : CgroupComponent) (lifecycle : CgroupLifecycleState)
      (machine' : Machine W), lifecycle ≠ .rollbackRequired → Pending slot daemon update machine' →
      Keeps (Kept slot daemon) (mutateSame env update (setComponent i component none lifecycle)) machine'
        (Pending slot daemon) :=
    fun component lifecycle machine' hne h' => mutateSame_keeps h' (keepsSound_setComponent hne)
  unfold closeStep
  rcases hstate : (update.record.cgroups.get i).lifecycle with
    origin | origin | origin | origin | origin | origin | origin | origin | origin | _ | _
  · rcases origin
    case planned => exact hsome (hlifecycle _ machine (by simp) h)
    case parentCreatePending => exact hsome (createComponent_keeps h)
    case controlCreatePending => exact hsome (createComponent_keeps h)
    case payloadCreatePending => exact hsome (createComponent_keeps h)
    all_goals exact hsome (hlifecycle _ machine (by simp) h)
  · exact hsome (hlifecycle _ machine (by simp) h)
  · refine effect_keeps h fun machine₁ h₁ => ?_
    refine effect_keeps h₁ fun machine₂ h₂ => ?_
    exact hsome (hlifecycle _ machine₂ (by simp) h₂)
  · exact hsome (hlifecycle _ machine (by simp) h)
  · exact effect_keeps h fun machine₁ h₁ => hsome (hcomponent _ _ machine₁ (by simp) h₁)
  · exact hsome (hlifecycle _ machine (by simp) h)
  · exact effect_keeps h fun machine₁ h₁ => hsome (hcomponent _ _ machine₁ (by simp) h₁)
  · exact hsome (hlifecycle _ machine (by simp) h)
  · exact effect_keeps h fun machine₁ h₁ => hsome (hcomponent _ _ machine₁ (by simp) h₁)
  · exact Keeps.pure h.kept h
  · exact Keeps.throw _ h.kept

end Steps

theorem closeLoop_keeps (fuel : ℕ) : ∀ (update : StoredTournamentUpdate) (machine : Machine W),
    Pending slot daemon update machine →
    Keeps (Kept slot daemon) (closeLoop env i fuel update) machine (Pending slot daemon) := by
  induction fuel with
  | zero => exact fun update machine h => Keeps.throw _ h.kept
  | succ fuel ih =>
    intro update machine h
    unfold closeLoop
    refine (closeStep_keeps h).bind fun result machine' hkept h' => ?_
    rcases result with _ | update'
    · exact Keeps.pure hkept h'
    · exact ih update' machine' h'

section Close
variable {update : StoredTournamentUpdate} (h : Pending slot daemon update machine)
include h

theorem closeCandidate_keeps :
    Keeps (Kept slot daemon) (closeCandidate env update i) machine (Pending slot daemon) := by
  have howner : Keeps (Kept slot daemon) (closeOwner env update.record i) machine
      fun _ machine' => Pending slot daemon update machine' := by
    unfold closeOwner
    rcases update.record.managedOwners.get i with _ | owner
    · exact Keeps.pure h.kept h
    · refine (complete_keeps h.kept).imp fun _ machine' _ hstore => ?_
      obtain ⟨r, hr, hfound, hrest⟩ := h
      exact ⟨r, hr, by rw [hstore]; exact hfound, hrest⟩
  unfold closeCandidate
  refine howner.bind fun _ machine₁ _ h₁ => ?_
  refine (closeLoop_keeps closeFuel update machine₁ h₁).bind fun update₂ machine₂ _ h₂ => ?_
  exact mutateSame_keeps h₂ keepsSound_setClosed

theorem closeDomainCreate_keeps :
    Keeps (Kept slot daemon) (closeDomainCreate env update) machine (Pending slot daemon) := by
  unfold closeDomainCreate
  rcases update.record.tournamentCgroup.lifecycle with _ | _ | _ | _ | _ | _
  case planned => exact mutateSame_keeps h (keepsSound_setDomain (by simp))
  case createPending =>
    refine (reconcile_keeps h.kept).bind fun evidence machine' hkept hstore => ?_
    have h' : Pending slot daemon update machine' := by
      obtain ⟨r, hr, hfound, hrest⟩ := h
      exact ⟨r, hr, by rw [hstore]; exact hfound, hrest⟩
    rcases evidence with ⟨identity, _⟩ | _ | _ | _ | _ | _
    case tournamentCreateReconciled => exact mutateSame_keeps h' (keepsSound_setDomain (by simp))
    all_goals exact Keeps.throw _ hkept
  all_goals exact Keeps.pure h.kept h

theorem closeDomainPending_keeps :
    Keeps (Kept slot daemon) (closeDomainPending env update) machine (Pending slot daemon) := by
  unfold closeDomainPending
  split_ifs
  · exact mutateSame_keeps h (keepsSound_setDomain (by simp))
  · exact Keeps.pure h.kept h

theorem closeDomainRemove_keeps :
    Keeps (Kept slot daemon) (closeDomainRemove env update) machine (Pending slot daemon) := by
  unfold closeDomainRemove
  split_ifs
  · refine effect_keeps h fun machine₁ h₁ => ?_
    refine effect_keeps h₁ fun machine₂ h₂ => ?_
    exact mutateSame_keeps h₂ (keepsSound_setDomain (by simp))
  · exact Keeps.pure h.kept h

theorem finishRecovery_keeps :
    Keeps (Kept slot daemon) (finishRecovery env update) machine fun _ _ => True := by
  obtain ⟨record, rfl, hfound, hsound, hdaemon, hphase⟩ := h
  have hclosable := closable_of_pending hsound hphase
  unfold finishRecovery
  refine (Keeps.check (Q := fun _ machine' => machine' = machine) ⟨record, hfound, hclosable, hdaemon⟩
    fun _ _ => rfl).bind ?_
  rintro generation _ - rfl
  refine (persist_keeps hfound hclosable hdaemon ?_).imp fun _ _ _ _ => trivial
  intro hvalid _
  refine ⟨⟨hsound.groups, hsound.domain⟩, fun hterminal => ?_⟩
  exact TournamentRecord.isPositiveTerminal_iff.mpr
    ⟨hvalid.core, hterminal, (hvalid.completed.mp rfl).2⟩

end Close

/-- The phase of a recovery. -/
theorem transition_keeps (h : Found slot record machine.store) (hsound : Sound record)
    (hdaemon : record.status.daemonInstanceUuid = daemon)
    (hphase : record.status.phase = .rollbackRequired) :
    Keeps (Kept slot daemon) (transitionRecoveryPhase env (stored slot record) .rollbackPending) machine
      (Pending slot daemon) := by
  have hclosable : Closable record := by
    refine ⟨hsound, fun hterminal => ?_⟩
    rw [hphase] at hterminal
    simp [SpeculationPhase.isTerminal] at hterminal
  have hne : ¬ (stored slot record).record.status.phase = .rollbackPending := by
    show ¬ record.status.phase = _
    simp [hphase]
  unfold transitionRecoveryPhase
  rw [if_neg hne]
  refine (Keeps.check (Q := fun _ machine' => machine' = machine) ⟨record, h, hclosable, hdaemon⟩
    fun _ _ => rfl).bind ?_
  rintro generation _ - rfl
  have hsound' : Sound (inPhase (withGeneration record generation) .rollbackPending) :=
    ⟨hsound.groups, hsound.domain⟩
  refine (persist_keeps h hclosable hdaemon fun _ _ => closable_of_pending hsound' rfl).imp ?_
  rintro _ machine' - ⟨rfl, hfound', -, hdaemon'⟩
  exact ⟨_, rfl, hfound', hsound', hdaemon', rfl⟩

/-- Wherever `close_same_boot` is cut off, a later recovery finds a record that it can close. -/
theorem closeSameBoot_keeps (h : Found slot record machine.store) (hsound : Sound record)
    (hdaemon : record.status.daemonInstanceUuid = daemon)
    (hphase : record.status.phase = .rollbackRequired) :
    Keeps (Kept slot daemon) (closeSameBoot env (stored slot record)) machine fun _ _ => True := by
  unfold closeSameBoot
  refine (transition_keeps h hsound hdaemon hphase).bind fun update₀ machine₀ _ h₀ => ?_
  refine (closeCandidate_keeps h₀).bind fun update₁ machine₁ _ h₁ => ?_
  refine (closeCandidate_keeps h₁).bind fun update₂ machine₂ _ h₂ => ?_
  refine (closeDomainCreate_keeps h₂).bind fun update₃ machine₃ _ h₃ => ?_
  refine (closeDomainPending_keeps h₃).bind fun update₄ machine₄ _ h₄ => ?_
  refine (closeDomainRemove_keeps h₄).bind fun update₅ machine₅ _ h₅ => ?_
  refine (Keeps.check (Q := fun _ machine' => Pending slot daemon update₅ machine') h₅.kept
    fun _ _ => h₅).bind fun _ machine₆ _ h₆ => ?_
  exact finishRecovery_keeps h₆

/-- Wherever `close_different_boot` is cut off, a later recovery finds a record that it can close. -/
theorem closeDifferentBoot_keeps {currentPrivateRoot : DurableDirectoryIdentity}
    (h : Found slot record machine.store) (hsound : Sound record)
    (hdaemon : record.status.daemonInstanceUuid = daemon)
    (hphase : record.status.phase = .rollbackRequired) :
    Keeps (Kept slot daemon) (closeDifferentBoot env currentPrivateRoot (stored slot record)) machine
      fun _ _ => True := by
  unfold closeDifferentBoot
  refine (transition_keeps h hsound hdaemon hphase).bind fun update₀ machine₀ _ h₀ => ?_
  refine (Keeps.check (Q := fun _ machine' => Pending slot daemon update₀ machine') h₀.kept
    fun _ _ => h₀).bind fun _ machine₁ _ h₁ => ?_
  refine (Keeps.check (Q := fun _ machine' => Pending slot daemon update₀ machine') h₁.kept
    fun _ _ => h₁).bind fun _ machine₂ _ h₂ => ?_
  refine (Keeps.check (Q := fun _ machine' => Pending slot daemon update₀ machine') h₂.kept
    fun _ _ => h₂).bind fun generation machine₃ _ h₃ => ?_
  obtain ⟨r, rfl, hfound, hsound', hdaemon', hphase'⟩ := h₃
  have habsent : Sound (allAbsent (withGeneration r generation)) := by
    refine ⟨fun i => ?_, by simp [allAbsent]⟩
    simp [allAbsent, Pair.get_map]
  refine (persist_keeps hfound (closable_of_pending hsound' hphase') hdaemon'
    fun _ _ => closable_of_pending habsent hphase').bind ?_
  rintro _ machine₄ - ⟨rfl, hfound₄, -, hdaemon₄⟩
  exact finishRecovery_keeps ⟨_, rfl, hfound₄, habsent, hdaemon₄, hphase'⟩

theorem closable_normalized (h : Closable record) (generation : ℕ) :
    Closable (normalized record generation) := by
  refine ⟨⟨h.sound.groups, h.sound.domain⟩, fun hterminal => ?_⟩
  simp [normalized, SpeculationPhase.isTerminal] at hterminal

theorem normalize_keeps {newDaemon : Uuid} (h : Found slot record machine.store)
    (hclosable : Closable record) (hdaemon : record.status.daemonInstanceUuid = daemon)
    (hnil : Uuid.isNil newDaemon = false) (hne : daemon ≠ newDaemon) :
    Keeps (Kept slot daemon) (normalize env (keyFor slot record) record newDaemon) machine
      fun update machine' => ∃ r, update = stored slot r ∧ Found slot r machine'.store ∧ Closable r ∧
        r.status.daemonInstanceUuid = daemon := by
  have hexec := normalize_exec h (env.identity (normalized record (record.status.generation + 1))) hnil
    (hdaemon.trans_ne hne)
  unfold Recovery.normalize
  split_ifs at hexec with hphase hprior hbound
  · refine onStore_keeps hexec ⟨record, h, hclosable, hdaemon⟩ ?_
    rintro _ ⟨⟩
    exact ⟨record, rfl, h, hclosable, hdaemon⟩
  · exact onStore_keeps hexec ⟨record, h, hclosable, hdaemon⟩ (by simp)
  · rw [not_or, Bool.not_eq_true] at hphase
    have hfound := h.installed (valid_normalized h.valid hphase.1 hphase.2) rfl
      (env.identity (normalized record (record.status.generation + 1)))
    have hclosable' := closable_normalized hclosable (record.status.generation + 1)
    refine onStore_keeps hexec ⟨_, hfound, hclosable', hdaemon⟩ ?_
    rintro _ ⟨⟩
    exact ⟨_, rfl, hfound, hclosable', hdaemon⟩
  · exact onStore_keeps hexec ⟨record, h, hclosable, hdaemon⟩ (by simp)

/-- Wherever the recovery of a record is cut off, a later one finds a record that it can close. -/
theorem recoverRecord_keeps {newDaemon : Uuid} {currentPrivateRoot : DurableDirectoryIdentity}
    (h : Found slot record machine.store) (hclosable : Closable record)
    (hdaemon : record.status.daemonInstanceUuid = daemon)
    (hnil : Uuid.isNil newDaemon = false) (hne : daemon ≠ newDaemon) :
    Keeps (Kept slot daemon)
      (recoverRecord env newDaemon currentPrivateRoot (keyFor slot record) record) machine
      fun _ _ => True := by
  unfold recoverRecord
  split_ifs with hterminal
  · exact Keeps.pure ⟨record, h, hclosable, hdaemon⟩ trivial
  refine (normalize_keeps h hclosable hdaemon hnil hne).bind ?_
  rintro _ machine₁ hkept ⟨r, rfl, hfound, hclosable₁, hdaemon₁⟩
  refine (Keeps.check (Q := fun _ machine' => machine' = machine₁ ∧
    r.status.phase = .rollbackRequired) hkept fun _ hcheck => ⟨rfl, require_eq_ok.mp hcheck⟩).bind ?_
  rintro _ _ - ⟨rfl, hphase⟩
  split_ifs with hboot
  · refine (closeDifferentBoot_keeps hfound hclosable₁.sound hdaemon₁ hphase).bind ?_
    intro closed machine₂ hkept₂ _
    exact Keeps.check hkept₂ fun _ _ => trivial
  · refine (closeSameBoot_keeps hfound hclosable₁.sound hdaemon₁ hphase).bind ?_
    intro closed machine₂ hkept₂ _
    exact Keeps.check hkept₂ fun _ _ => trivial

/-- An attempt leaves a record that the next one can close. -/
theorem attempt_keeps {a : Attempt W} (h : Found slot record store) (hclosable : Closable record)
    (hfresh : Fresh record.status.daemonInstanceUuid a) :
    ∃ next, Found slot next (attempt slot a store).2 ∧ Closable next ∧
      next.status.daemonInstanceUuid = record.status.daemonInstanceUuid := by
  have hfound := h.reopened
  unfold attempt
  generalize reopened store = opened at hfound ⊢
  obtain ⟨identity, hshown⟩ := hfound.shown
  have hkeeps : Keeps (Kept slot record.status.daemonInstanceUuid)
      (recoverRecord a.env a.daemon a.currentPrivateRoot (keyFor slot record) record)
      ⟨opened, a.world⟩ fun _ _ => True :=
    recoverRecord_keeps hfound hclosable rfl hfresh.nonnil hfresh.ne
  rw [validSlot_eq_some.mpr hshown]
  exact (hkeeps a.budget).1

/-- After any number of attempts the record can still be closed. -/
theorem restarts_keep (attempts : List (Attempt W)) : ∀ (record : TournamentRecord)
    (store : TournamentStore), Found slot record store → Closable record →
    (∀ a ∈ attempts, Fresh record.status.daemonInstanceUuid a) →
    ∃ last, Found slot last (restarts slot store attempts) ∧ Closable last ∧
      last.status.daemonInstanceUuid = record.status.daemonInstanceUuid := by
  induction attempts with
  | nil => exact fun record store h hclosable _ => ⟨record, h, hclosable, rfl⟩
  | cons a attempts ih =>
    intro record store h hclosable hfresh
    obtain ⟨next, hnext, hclosable', hdaemon⟩ := attempt_keeps h hclosable (hfresh a (by simp))
    obtain ⟨last, hlast, hclosable'', hdaemon'⟩ := ih next _ hnext hclosable' fun b hb => by
      rw [hdaemon]
      exact hfresh b (List.mem_cons_of_mem a hb)
    refine ⟨last, ?_, hclosable'', hdaemon'.trans hdaemon⟩
    unfold restarts at hlast ⊢
    rw [Run.run_cons]
    exact hlast

/-! ### An attempt that is not cut off -/

theorem phase_of_not_stranded (h : record.Valid) (hstranded : ¬ Stranded record) :
    record.status.phase.isTerminal = true ∨ record.status.phase = .rollbackRequired ∨
      record.restartPriorPhase = none := by
  rcases hprior : record.restartPriorPhase with _ | prior
  · exact .inr (.inr rfl)
  · obtain ⟨-, -, hphase⟩ := h.core.prior prior hprior
    rcases hphase with hphase | hphase | hphase
    · exact .inr (.inl hphase)
    · exact absurd ⟨hphase, by simp [hprior]⟩ hstranded
    · left
      rw [hphase]
      rfl

/-- A record that is not stranded is normalized. -/
theorem normalize_finishes {newDaemon : Uuid} (h : Found slot record machine.store)
    (hstranded : ¬ Stranded record) (hterminal : record.status.phase.isTerminal = false)
    (hbound : record.status.generation + 1 < 2 ^ 64) (hnil : Uuid.isNil newDaemon = false)
    (hne : record.status.daemonInstanceUuid ≠ newDaemon) :
    Finishes 1 (Recovery.normalize env (keyFor slot record) record newDaemon) machine
      fun update machine' => ∃ r, update = stored slot r ∧ At slot r machine' ∧
        machine'.world = machine.world ∧ r.status.phase = .rollbackRequired ∧
        r.status.generation ≤ record.status.generation + 1 ∧
        (r = record ∨ r = normalized record (record.status.generation + 1)) := by
  have hexec := normalize_exec h (env.identity (normalized record (record.status.generation + 1))) hnil
    hne
  unfold Recovery.normalize
  by_cases hphase : record.status.phase = .rollbackRequired
  · rw [if_pos (.inr hphase)] at hexec
    exact onStore_finishes hexec
      ⟨record, rfl, h.at machine.world, rfl, hphase, Nat.le_succ _, .inl rfl⟩
  · have hphases : ¬ (record.status.phase.isTerminal = true ∨
        record.status.phase = .rollbackRequired) := by
      simp [hterminal, hphase]
    have hprior : record.restartPriorPhase = none := by
      rcases phase_of_not_stranded h.valid hstranded with h' | h' | h'
      · exact absurd (.inl h') hphases
      · exact absurd (.inr h') hphases
      · exact h'
    have hfound := h.installed (valid_normalized h.valid hterminal hphase) rfl
      (env.identity (normalized record (record.status.generation + 1)))
    rw [if_neg hphases, if_neg (not_not.mpr hprior), if_pos hbound] at hexec
    exact onStore_finishes hexec
      ⟨_, rfl, hfound.at machine.world, rfl, rfl, le_rfl, .inr rfl⟩

/-- An attempt that is not cut off and whose effects succeed closes a record that is not stranded. -/
theorem recoverRecord_finishes {J : TournamentRecord → W → Prop} {newDaemon : Uuid}
    {currentPrivateRoot : DurableDirectoryIdentity} (henv : Effective env J)
    (h : Found slot record machine.store) (hclosable : Closable record)
    (hstranded : ¬ Stranded record) (hbound : record.status.generation + 28 < 2 ^ 64)
    (hj : J record machine.world) (hnil : Uuid.isNil newDaemon = false)
    (hne : record.status.daemonInstanceUuid ≠ newDaemon)
    (hboot : Uuid.isNil currentPrivateRoot.bootUuid = false) :
    Finishes 73 (recoverRecord env newDaemon currentPrivateRoot (keyFor slot record) record) machine
      fun _ machine' => ∃ last, At slot last machine' ∧ last.isPositiveTerminal = true := by
  unfold recoverRecord
  split_ifs with hpositive
  · exact (Finishes.pure ⟨record, h.at machine.world, hpositive⟩).imp (by omega) fun _ _ hQ => hQ
  have hterminal : record.status.phase.isTerminal = false := by
    rw [← Bool.not_eq_true]
    exact fun hphase => hpositive (hclosable.terminal hphase)
  refine (normalize_finishes h hstranded hterminal (by omega) hnil hne).bind (k := 72) ?_
  rintro _ machine₁ ⟨r, rfl, hat, hworld, hphase, hgeneration, hr⟩
  have hsound : Sound r := by
    rcases hr with rfl | rfl
    · exact hclosable.sound
    · exact ⟨hclosable.sound.groups, hclosable.sound.domain⟩
  have hj' : J r machine₁.world := by
    rw [hworld]
    rcases hr with rfl | rfl
    · exact hj
    · exact henv.congr (r := record) rfl rfl rfl rfl rfl hj
  refine Finishes.check_bind (require_eq_ok (u := ()).mpr hphase) ?_
  have hrest : ∀ {J' : TournamentRecord → W → Prop} (update : StoredTournamentUpdate)
      (machine' : Machine W), RolledBack J' slot update machine' →
      Finishes 0 (check (require (update.record.isPositiveTerminal = true)
        ServiceError.evidenceUnavailable) : RecoveryOp W Unit) machine' fun _ machine'' =>
          ∃ last, At slot last machine'' ∧ last.isPositiveTerminal = true := by
    rintro J' _ machine' ⟨last, rfl, hat', -, -, hpositive'⟩
    exact Finishes.check (require_eq_ok (u := ()).mpr hpositive') ⟨last, hat', hpositive'⟩
  split_ifs with hboots
  · have hclose := @closeDifferentBoot_finishes _ _ env _ _ _ hat hphase (by omega) hboot hboots
    exact (hclose.bind hrest).imp (by omega) fun _ _ hQ => hQ
  · have hclose := closeSameBoot_finishes henv hat hphase (by omega) hj' hsound
    exact hclose.bind hrest

/-- What the next attempt makes of a record: it is normalized, and if the attempt is not cut off and its
effects succeed, the tournament is closed. -/
def Recovers (slot : ℕ) (a : Attempt W) (store : TournamentStore) (record : TournamentRecord) : Prop :=
  (∃ update, normalization slot a store record = .ok update ∧
    (update.record.status.phase = .rollbackRequired ∨
      update.record.status.phase.isTerminal = true)) ∧
  ∀ J : TournamentRecord → W → Prop, Effective a.env J → J record a.world → 73 ≤ a.budget →
    (attempt slot a store).1 = .ok () ∧
      ∃ closed, durable (attempt slot a store).2 slot = some closed ∧ closed.isPositiveTerminal = true

variable {a : Attempt W}

theorem normalization_stranded (h : Found slot record store)
    (hfresh : Fresh record.status.daemonInstanceUuid a) (hstranded : Stranded record) :
    normalization slot a store record = .error .corrupt := by
  have hphases : ¬ (record.status.phase.isTerminal = true ∨
      record.status.phase = .rollbackRequired) := by
    rw [hstranded.1]
    decide
  unfold normalization
  rw [normalize_exec h.reopened _ hfresh.nonnil hfresh.ne, if_neg hphases, if_pos hstranded.2]

theorem normalization_ok (h : Found slot record store)
    (hfresh : Fresh record.status.daemonInstanceUuid a) (hstranded : ¬ Stranded record)
    (hbound : record.status.generation + 1 < 2 ^ 64) :
    ∃ update, normalization slot a store record = .ok update ∧
      (update.record.status.phase = .rollbackRequired ∨
        update.record.status.phase.isTerminal = true) := by
  unfold normalization
  rw [normalize_exec h.reopened _ hfresh.nonnil hfresh.ne]
  split_ifs with hphase hprior
  · exact ⟨_, rfl, hphase.symm⟩
  · have hnone := phase_of_not_stranded h.valid hstranded
    rw [← or_assoc] at hnone
    exact absurd (hnone.resolve_left hphase) hprior
  · exact ⟨_, rfl, .inl rfl⟩

theorem attempt_closes {J : TournamentRecord → W → Prop} (h : Found slot record store)
    (hclosable : Closable record) (hfresh : Fresh record.status.daemonInstanceUuid a)
    (hstranded : ¬ Stranded record) (hbound : record.status.generation + 28 < 2 ^ 64)
    (henv : Effective a.env J) (hj : J record a.world) (hbudget : 73 ≤ a.budget) :
    (attempt slot a store).1 = .ok () ∧
      ∃ closed, durable (attempt slot a store).2 slot = some closed ∧
        closed.isPositiveTerminal = true := by
  have hfound := h.reopened
  unfold attempt
  generalize reopened store = opened at hfound ⊢
  obtain ⟨identity, hshown⟩ := hfound.shown
  have hfinishes : Finishes 73
      (recoverRecord a.env a.daemon a.currentPrivateRoot (keyFor slot record) record)
      ⟨opened, a.world⟩ fun _ machine' => ∃ last, At slot last machine' ∧ last.isPositiveTerminal = true :=
    recoverRecord_finishes henv hfound hclosable hstranded hbound hj hfresh.nonnil hfresh.ne hfresh.boot
  obtain ⟨_, machine', houtcome, last, hat, hpositive⟩ := hfinishes.returns hbudget
  rw [validSlot_eq_some.mpr hshown]
  simp only [houtcome]
  exact ⟨trivial, last, hat.durable, hpositive⟩

/-- After any number of attempts, each of them cut off anywhere: the next attempt recovers the record,
unless it is stranded; a stranded one is refused as corrupt. -/
theorem restartable (h : Found slot record store) (hclosable : Closable record)
    (attempts : List (Attempt W))
    (hfresh : ∀ a ∈ attempts, Fresh record.status.daemonInstanceUuid a) :
    ∃ last, durable (restarts slot store attempts) slot = some last ∧
      ∀ a : Attempt W, Fresh record.status.daemonInstanceUuid a →
        (¬ Stranded last → last.status.generation + 28 < 2 ^ 64 →
          Recovers slot a (restarts slot store attempts) last) ∧
        (Stranded last →
          normalization slot a (restarts slot store attempts) last = .error .corrupt) := by
  obtain ⟨last, hlast, hclosable', hdaemon⟩ := restarts_keep attempts record store h hclosable hfresh
  refine ⟨last, (hlast.at ()).durable, fun a ha => ?_⟩
  rw [← hdaemon] at ha
  refine ⟨fun hstranded hbound => ⟨?_, ?_⟩, normalization_stranded hlast ha⟩
  · exact normalization_ok hlast ha hstranded (by omega)
  · intro J henv hj hbudget
    exact attempt_closes hlast hclosable' ha hstranded hbound henv hj hbudget

/-! ### A tournament that was only prepared -/

/-- A restart in the boot of the sample tournament, where no effect succeeds. -/
def sampleAttempt (budget : ℕ) : Attempt Unit where
  env := ⟨fun _ _ world => (.ok .rollbackRequired, world), fun _ => ⟨1, 9⟩, 5000⟩
  world := ()
  daemon := 9
  currentPrivateRoot := ⟨1, 1, 1, 1⟩
  budget

/-- Nothing was launched and no control group was created: a recovery has no effect to wait for. -/
def Untouched (record : TournamentRecord) (_ : Unit) : Prop :=
  (∀ i, record.managedOwners.get i = none) ∧
    (∀ i, (record.cgroups.get i).lifecycle = .forward .planned ∨
      (record.cgroups.get i).lifecycle = .removed) ∧
    (record.tournamentCgroup.lifecycle = .planned ∨ record.tournamentCgroup.lifecycle = .removed)
  deriving Decidable

theorem effective_untouched (budget : ℕ) : Effective (sampleAttempt budget).env Untouched := by
  have hgroup : ∀ {r : TournamentRecord} {w : Unit} {i : Fin 2} {lifecycle : CgroupLifecycleState},
      Untouched r w → (r.cgroups.get i).lifecycle = lifecycle → lifecycle ≠ .forward .planned →
      lifecycle ≠ .removed → False := by
    intro r w i lifecycle hj hlifecycle hplanned hremoved
    rcases hj.2.1 i with h | h
    · exact hplanned (hlifecycle.symm.trans h)
    · exact hremoved (hlifecycle.symm.trans h)
  constructor
  case congr =>
    intro r r' w _ _ howners hgroups hdomain hj
    unfold Untouched at hj ⊢
    rw [howners, hgroups, hdomain]
    exact hj
  case owner =>
    intro r w i owner _ hj howner
    rw [hj.1 i] at howner
    cases howner
  case plain =>
    intro r w i lifecycle _ hj hnext
    refine ⟨hj.1, fun j => ?_, hj.2.2⟩
    rw [regrouped_setLifecycle i lifecycle r j]
    split_ifs
    · rcases hj.2.1 i with h | h
      · rw [h] at hnext
        cases hnext
        exact .inr rfl
      · rw [h] at hnext
        cases hnext
    · exact hj.2.1 j
  case create =>
    intro r w i component _ hj _ h
    cases component <;> exact (hgroup hj h (by decide) (by decide)).elim
  case kill => exact fun _ hj h => (hgroup hj h (by simp) (by simp)).elim
  case removePayload => exact fun _ hj h => (hgroup hj h (by simp) (by simp)).elim
  case removeControl => exact fun _ hj h => (hgroup hj h (by simp) (by simp)).elim
  case removeParent => exact fun _ hj h => (hgroup hj h (by simp) (by simp)).elim
  case createDomain =>
    intro r w _ hj _ h
    rcases hj.2.2 with h' | h' <;> cases h'.symm.trans h
  case planDomain =>
    intro r w _ hj _
    refine ⟨fun _ => ⟨hj.1, hj.2.1, .inr rfl⟩, fun h => ?_⟩
    rcases hj.2.2 with h' | h' <;> cases h'.symm.trans h
  case removeDomain =>
    intro r w _ hj _ h
    rcases hj.2.2 with h' | h' <;> cases h'.symm.trans h

theorem fresh_sampleAttempt (budget : ℕ) :
    Fresh sampleRecord.status.daemonInstanceUuid (sampleAttempt budget) :=
  ⟨rfl, show (3 : Uuid) ≠ 9 by decide, rfl⟩

theorem closable_sampleRecord : Closable sampleRecord :=
  ⟨⟨by decide, by decide⟩, by decide⟩

set_option maxRecDepth 4000 in
theorem found_sampleRecord : Found 0 sampleRecord sampleAllocation.2 := by
  have hdurable : Durable (run fresh
      [.allocatePrepared (.done ⟨1, 1⟩) (.done ⟨1, 2⟩) sampleRecord 0]) :=
    Durable.run _ fresh Durable.fresh (by decide) fun _ _ => rfl
  have hrun : run fresh [.allocatePrepared (.done ⟨1, 1⟩) (.done ⟨1, 2⟩) sampleRecord 0] =
      sampleAllocation.2 := exec_discard _ _
  rw [hrun] at hdurable
  have hslot : sampleAllocation.2.slots[0]? = some (.valid sampleRecord ⟨1, 1⟩) := by
    decide
  refine ⟨hdurable.coherent, ⟨_, hslot⟩, fun slot' record' hslot' huuid => ?_⟩
  exact hdurable.unique slot' 0 record' sampleRecord hslot'
    (hdurable.coherent.durable_of_valid hslot) huuid

/-- A restart that is cut off right after the normalization: the next one closes the tournament. -/
theorem restartable_normalized :
    ∃ last, durable (restarts 0 sampleAllocation.2 [sampleAttempt 0]) 0 = some last ∧
      last.restartPriorPhase = some .prepared ∧
      Recovers 0 (sampleAttempt 73) (restarts 0 sampleAllocation.2 [sampleAttempt 0]) last ∧
      (attempt 0 (sampleAttempt 73) (restarts 0 sampleAllocation.2 [sampleAttempt 0])).1 = .ok () := by
  obtain ⟨last, hlast, hnext⟩ := restartable found_sampleRecord closable_sampleRecord [sampleAttempt 0]
    (by
      intro a ha
      rw [List.mem_singleton.mp ha]
      exact fresh_sampleAttempt 0)
  have hfacts : ∃ record, durable (restarts 0 sampleAllocation.2 [sampleAttempt 0]) 0 = some record ∧
      record.restartPriorPhase = some .prepared ∧ ¬ Stranded record ∧
      record.status.generation + 28 < 2 ^ 64 ∧ Untouched record () := by
    have hmap : (durable (restarts 0 sampleAllocation.2 [sampleAttempt 0]) 0).map (fun record =>
        decide (record.restartPriorPhase = some .prepared ∧ ¬ Stranded record ∧
          record.status.generation + 28 < 2 ^ 64 ∧ Untouched record ())) = some true := by
      decide +kernel
    obtain ⟨record, hrecord, hfacts⟩ := Option.map_eq_some_iff.mp hmap
    exact ⟨record, hrecord, of_decide_eq_true hfacts⟩
  obtain ⟨record, hrecord, hprior, hstranded, hbound, huntouched⟩ := hfacts
  obtain rfl : last = record := Option.some_inj.mp (hlast.symm.trans hrecord)
  have hrecovers := (hnext (sampleAttempt 73) (fresh_sampleAttempt 73)).1 hstranded hbound
  exact ⟨last, hlast, hprior, hrecovers,
    (hrecovers.2 Untouched (effective_untouched 73) huntouched le_rfl).1⟩

/-- A restart that is cut off one write later, when the record is in `RollbackPending`: no later restart
takes the record any more. -/
theorem restart_refused_pending :
    Found 0 sampleRecord sampleAllocation.2 ∧ Closable sampleRecord ∧
      Fresh sampleRecord.status.daemonInstanceUuid (sampleAttempt 1) ∧
      ∃ last, durable (restarts 0 sampleAllocation.2 [sampleAttempt 1]) 0 = some last ∧
        normalization 0 (sampleAttempt 73) (restarts 0 sampleAllocation.2 [sampleAttempt 1]) last =
          .error .corrupt ∧
        (attempt 0 (sampleAttempt 73) (restarts 0 sampleAllocation.2 [sampleAttempt 1])).1 =
          .error (.failed .evidenceUnavailable) := by
  have hrefused : (durable (restarts 0 sampleAllocation.2 [sampleAttempt 1]) 0).map (fun last =>
      decide (normalization 0 (sampleAttempt 73) (restarts 0 sampleAllocation.2 [sampleAttempt 1]) last =
        .error .corrupt)) = some true := by
    decide +kernel
  have hattempt : (attempt 0 (sampleAttempt 73)
      (restarts 0 sampleAllocation.2 [sampleAttempt 1])).1 = .error (.failed .evidenceUnavailable) := by
    decide +kernel
  obtain ⟨last, hlast, hnormalization⟩ := Option.map_eq_some_iff.mp hrefused
  exact ⟨found_sampleRecord, closable_sampleRecord, fresh_sampleAttempt 1, last, hlast,
    of_decide_eq_true hnormalization, hattempt⟩

end LightTerminal.Speculation.Restart
