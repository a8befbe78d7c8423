import LightTerminal.Library.Crash
import LightTerminal.Speculation.Correlate

/-! # Recovery of a tournament

When the daemon starts, every tournament that is not over is rolled back (`speculation_service.rs`):
its record is normalized, and its control groups are removed step by step, each step written down
before and after it (`close_same_boot`), or known to be gone after a reboot (`close_different_boot`).

A recovery may be cut off after any of its writes and effects. What the system answers to an effect is a
parameter, `Environment.reconcile`; the world that the effects change is a type of its own. -/

namespace LightTerminal.Speculation.Recovery

open LightTerminal.Data.Text LightTerminal.Library.Procedure LightTerminal.Library.Crash
open LightTerminal.Speculation.Phase LightTerminal.Speculation.Record
open LightTerminal.Speculation.Store

/-- `CgroupComponent`. -/
inductive CgroupComponent where
  | parent
  | control
  | payload
  deriving DecidableEq, Repr

/-- The forward state in which a component is about to be created. -/
def CgroupComponent.createPending : CgroupComponent → CgroupForwardState
  | .parent => .parentCreatePending
  | .control => .controlCreatePending
  | .payload => .payloadCreatePending

/-- The forward state in which a component was just created. -/
def CgroupComponent.created : CgroupComponent → CgroupForwardState
  | .parent => .parentCreated
  | .control => .controlCreated
  | .payload => .payloadCreated

/-- The recorded identity of a component changed. -/
def CandidateCgroupEvidence.record (evidence : CandidateCgroupEvidence) (component : CgroupComponent)
    (identity : Option DurableDirectoryIdentity) : CandidateCgroupEvidence :=
  match component with
  | .parent => { evidence with parent := identity }
  | .control => { evidence with control := identity }
  | .payload => { evidence with payload := identity }

/-- `RecoveryAction`. -/
inductive RecoveryAction where
  | reconcileTournamentCreate
  | reconcileCandidateCreate (candidate : Fin 2) (component : CgroupComponent)
  | reconcileManagedOwner (candidate : Fin 2) (role : ManagedOwnerRoleEvidence)
  | killParent (candidate : Fin 2)
  | proveParentEmpty (candidate : Fin 2)
  | removePayload (candidate : Fin 2)
  | removeControl (candidate : Fin 2)
  | removeParent (candidate : Fin 2)
  | proveTournamentEmpty
  | removeTournamentDomain
  deriving DecidableEq, Repr

/-- `RecoveryEvidence`. -/
inductive RecoveryEvidence where
  | tournamentCreateReconciled (identity : DurableDirectoryIdentity) (adopted : Bool)
  | candidateCreateReconciled (candidate : Fin 2) (component : CgroupComponent)
      (identity : DurableDirectoryIdentity) (adopted : Bool)
  | managedOwnerReconciled (candidate : Fin 2) (role : ManagedOwnerRoleEvidence)
  | candidateActionComplete (candidate : Fin 2) (action : RecoveryAction) (alreadyAbsent : Bool)
  | tournamentActionComplete (action : RecoveryAction) (alreadyAbsent : Bool)
  | rollbackRequired
  deriving DecidableEq, Repr

/-- What a recovery meets: `reconcile_from_record` with the world that it changes, the files that are
written for the records, and the clock. -/
structure Environment (W : Type) where
  reconcile : TournamentRecord → RecoveryAction → W → Except ServiceError RecoveryEvidence × W
  identity : TournamentRecord → FileIdentity
  now : ℕ

/-- The store, and the world outside of it. -/
structure Machine (W : Type) where
  store : TournamentStore
  world : W

/-- A step of the recovery. -/
abbrev RecoveryOp (W : Type) := CutProc ServiceError (Machine W)

variable {W : Type}

/-- An operation of the store. -/
def onStore {α : Type} (m : Op α) : RecoveryOp W α :=
  atomically (zoom Machine.store (fun store machine => { machine with store }) mapStoreError m)

/-- A write of the store, with the key and the generation of the record that it replaces. -/
def persist (env : Environment W) (update : StoredTournamentUpdate) (next : TournamentRecord)
    (kind : TournamentWriteKind) : RecoveryOp W StoredTournamentUpdate :=
  onStore (write (.done (env.identity next)) update.key update.key.generation next kind)

/-- `increment`. -/
def increment (generation : ℕ) : Except ServiceError ℕ := do
  require (generation + 1 < 2 ^ 64) .generationExhausted
  return generation + 1

/-- `reconcile_from_record`. -/
def reconcileFromRecord (env : Environment W) (record : TournamentRecord) (action : RecoveryAction) :
    RecoveryOp W RecoveryEvidence :=
  atomically do
    let machine ← get
    let (result, world) := env.reconcile record action machine.world
    set { machine with world }
    liftM result

/-- `require_recovery_complete`. -/
def requireRecoveryComplete : RecoveryEvidence → Except ServiceError Unit
  | .candidateActionComplete _ _ _ => .ok ()
  | .tournamentActionComplete _ _ => .ok ()
  | .managedOwnerReconciled _ _ => .ok ()
  | _ => .error .evidenceUnavailable

/-- An effect that has to be completed. -/
def complete (env : Environment W) (record : TournamentRecord) (action : RecoveryAction) :
    RecoveryOp W Unit := do
  let evidence ← reconcileFromRecord env record action
  check (requireRecoveryComplete evidence)

/-- The record with a generation. -/
def withGeneration (record : TournamentRecord) (generation : ℕ) : TournamentRecord :=
  { record with status := { record.status with generation } }

/-- The record in a phase, with nothing selected. -/
def inPhase (record : TournamentRecord) (phase : SpeculationPhase) : TournamentRecord :=
  { record with
    status := { record.status with
      phase, rollbackRequired := phase.isRollbackOnly, selectedIndex := none } }

/-- `transition_recovery_phase`. -/
def transitionRecoveryPhase (env : Environment W) (update : StoredTournamentUpdate)
    (phase : SpeculationPhase) : RecoveryOp W StoredTournamentUpdate := do
  if update.record.status.phase = phase then
    return update
  let generation ← check (increment update.key.generation)
  persist env update (inPhase (withGeneration update.record generation) phase) .livePhaseTransition

/-- `mutate_same`. -/
def mutateSame (env : Environment W) (update : StoredTournamentUpdate)
    (mutate : TournamentRecord → TournamentRecord) : RecoveryOp W StoredTournamentUpdate := do
  let generation ← check (increment update.key.generation)
  persist env update (mutate (withGeneration update.record generation)) .samePhaseEvidence

/-- `finish_recovery`. -/
def finishRecovery (env : Environment W) (update : StoredTournamentUpdate) :
    RecoveryOp W StoredTournamentUpdate := do
  let generation ← check (increment update.key.generation)
  persist env update
    { inPhase (withGeneration update.record generation) .rolledBack with
      terminalCompletedUnixMs := some env.now } .livePhaseTransition

/-- `fully_closed_cleanup`. -/
def fullyClosedCleanup : SpeculationCleanupStatus := ⟨true, true, true, true, true⟩

/-- The control groups of a candidate in a lifecycle state. -/
def setLifecycle (i : Fin 2) (lifecycle : CgroupLifecycleState) (record : TournamentRecord) :
    TournamentRecord :=
  { record with cgroups := record.cgroups.modify (fun group => { group with lifecycle }) i }

/-- The identity of a component recorded or dropped, with the lifecycle state after it. -/
def setComponent (i : Fin 2) (component : CgroupComponent)
    (identity : Option DurableDirectoryIdentity) (lifecycle : CgroupLifecycleState)
    (record : TournamentRecord) : TournamentRecord :=
  setLifecycle i lifecycle { record with
    cgroups :=
      record.cgroups.modify (fun group => CandidateCgroupEvidence.record group component identity) i }

/-- The cleanup of a candidate on record as closed. -/
def setClosed (i : Fin 2) (record : TournamentRecord) : TournamentRecord :=
  { record with
    status := { record.status with
      candidates := record.status.candidates.modify
        (fun candidate => { candidate with cleanup := fullyClosedCleanup }) i } }

/-- The tournament's domain in a lifecycle state. -/
def setDomain (lifecycle : TournamentCgroupLifecycleState) (domain : Option DurableDirectoryIdentity)
    (record : TournamentRecord) : TournamentRecord :=
  { record with tournamentCgroup := { record.tournamentCgroup with lifecycle, domain } }

/-- A component that was about to be created: it is created now, or adopted. -/
def createComponent (env : Environment W) (i : Fin 2) (update : StoredTournamentUpdate)
    (component : CgroupComponent) : RecoveryOp W StoredTournamentUpdate := do
  match ← reconcileFromRecord env update.record (.reconcileCandidateCreate i component) with
  | .candidateCreateReconciled _ _ identity _ =>
    mutateSame env update (setComponent i component (some identity) (.forward component.created))
  | _ => throw (.failed .evidenceUnavailable)

/-- The loop body of `close_same_boot`: the next step for a candidate, or nothing if there is none. -/
def closeStep (env : Environment W) (i : Fin 2) (update : StoredTournamentUpdate) :
    RecoveryOp W (Option StoredTournamentUpdate) := do
  match (update.record.cgroups.get i).lifecycle with
  | .forward .planned => some <$> mutateSame env update (setLifecycle i .removed)
  | .forward .parentCreatePending => some <$> createComponent env i update .parent
  | .forward .controlCreatePending => some <$> createComponent env i update .control
  | .forward .payloadCreatePending => some <$> createComponent env i update .payload
  | .forward origin => some <$> mutateSame env update (setLifecycle i (.cleanupPending origin))
  | .cleanupPending origin =>
    some <$> mutateSame env update (setLifecycle i (.parentKillPending origin))
  | .parentKillPending origin =>
    complete env update.record (.killParent i)
    complete env update.record (.proveParentEmpty i)
    some <$> mutateSame env update (setLifecycle i (.parentEmpty origin))
  | .parentEmpty origin =>
    some <$> mutateSame env update (setLifecycle i (.payloadRemovePending origin))
  | .payloadRemovePending origin =>
    complete env update.record (.removePayload i)
    some <$> mutateSame env update (setComponent i .payload none (.payloadRemoved origin))
  | .payloadRemoved origin =>
    some <$> mutateSame env update (setLifecycle i (.controlRemovePending origin))
  | .controlRemovePending origin =>
    complete env update.record (.removeControl i)
    some <$> mutateSame env update (setComponent i .control none (.controlRemoved origin))
  | .controlRemoved origin =>
    some <$> mutateSame env update (setLifecycle i (.parentRemovePending origin))
  | .parentRemovePending _ =>
    complete env update.record (.removeParent i)
    some <$> mutateSame env update (setComponent i .parent none .removed)
  | .removed => return none
  | .rollbackRequired => throw (.failed .evidenceUnavailable)

/-- The loop of `close_same_boot`, for at most `fuel` rounds. Every round of it moves the lifecycle on,
so that it ends before the rounds run out. -/
def closeLoop (env : Environment W) (i : Fin 2) :
    ℕ → StoredTournamentUpdate → RecoveryOp W StoredTournamentUpdate
  | 0, _ => throw .cutOff
  | fuel + 1, update => do
    match ← closeStep env i update with
    | some update => closeLoop env i fuel update
    | none => return update

/-- The rounds that the loop of `close_same_boot` gets. -/
def closeFuel : ℕ := 12

/-- The managed owner of a candidate in `close_same_boot`. -/
def closeOwner (env : Environment W) (record : TournamentRecord) (i : Fin 2) : RecoveryOp W Unit :=
  match record.managedOwners.get i with
  | some owner => complete env record (.reconcileManagedOwner i owner.role)
  | none => return ()

/-- One candidate in `close_same_boot`. -/
def closeCandidate (env : Environment W) (update : StoredTournamentUpdate) (i : Fin 2) :
    RecoveryOp W StoredTournamentUpdate := do
  closeOwner env update.record i
  let update ← closeLoop env i closeFuel update
  mutateSame env update (setClosed i)

/-- The domain of the tournament in `close_same_boot`, up to its removal. -/
def closeDomainCreate (env : Environment W) (update : StoredTournamentUpdate) :
    RecoveryOp W StoredTournamentUpdate := do
  match update.record.tournamentCgroup.lifecycle with
  | .planned => mutateSame env update (setDomain .removed update.record.tournamentCgroup.domain)
  | .createPending =>
    match ← reconcileFromRecord env update.record .reconcileTournamentCreate with
    | .tournamentCreateReconciled identity _ =>
      mutateSame env update (setDomain .created (some identity))
    | _ => throw (.failed .evidenceUnavailable)
  | _ => return update

/-- The removal of the domain in `close_same_boot`. -/
def closeDomainRemove (env : Environment W) (update : StoredTournamentUpdate) :
    RecoveryOp W StoredTournamentUpdate := do
  if update.record.tournamentCgroup.lifecycle = .removePending then
    complete env update.record .proveTournamentEmpty
    complete env update.record .removeTournamentDomain
    mutateSame env update (setDomain .removed none)
  else return update

/-- The removal of a domain that is there on record. -/
def closeDomainPending (env : Environment W) (update : StoredTournamentUpdate) :
    RecoveryOp W StoredTournamentUpdate := do
  if update.record.tournamentCgroup.lifecycle = .created then
    mutateSame env update (setDomain .removePending update.record.tournamentCgroup.domain)
  else return update

/-- `close_same_boot`. -/
def closeSameBoot (env : Environment W) (update : StoredTournamentUpdate) :
    RecoveryOp W StoredTournamentUpdate := do
  let update ← transitionRecoveryPhase env update .rollbackPending
  let update ← closeCandidate env update 0
  let update ← closeCandidate env update 1
  let update ← closeDomainCreate env update
  let update ← closeDomainPending env update
  let update ← closeDomainRemove env update
  check (require (update.record.tournamentCgroup.lifecycle = .removed) .evidenceUnavailable)
  finishRecovery env update

/-! ### After a reboot -/

/-- `OldBootRecoveryAction`. -/
inductive OldBootRecoveryAction where
  | managedOwner (candidate : Fin 2)
  | candidateComponents (candidate : Fin 2)
  | tournamentDomain
  deriving DecidableEq, Repr

/-- `OldBootRecoveryEvidence`. -/
inductive OldBootRecoveryEvidence where
  | managedOwnerAbsent (candidate : Fin 2)
  | candidateComponentsAbsent (candidate : Fin 2)
  | tournamentDomainAbsent
  | rollbackRequired
  deriving DecidableEq, Repr

/-- `reconcile_different_boot`. -/
def reconcileDifferentBoot (record : TournamentRecord) (currentPrivateRoot : DurableDirectoryIdentity)
    (action : OldBootRecoveryAction) : OldBootRecoveryEvidence :=
  if record.validate = .ok () ∧ Uuid.isNil currentPrivateRoot.bootUuid = false ∧
      currentPrivateRoot.bootUuid ≠ record.bootUuid then
    match action with
    | .managedOwner candidate => .managedOwnerAbsent candidate
    | .candidateComponents candidate => .candidateComponentsAbsent candidate
    | .tournamentDomain => .tournamentDomainAbsent
  else .rollbackRequired

/-- The record after a reboot: nothing of the control groups is left. -/
def allAbsent (record : TournamentRecord) : TournamentRecord :=
  { record with
    cgroups := record.cgroups.map fun group =>
      { group with lifecycle := .removed, parent := none, control := none, payload := none }
    tournamentCgroup := { record.tournamentCgroup with lifecycle := .removed, domain := none }
    status := { record.status with
      candidates := record.status.candidates.map fun candidate =>
        { candidate with cleanup := fullyClosedCleanup } } }

/-- The checks of `close_different_boot` for a candidate. -/
def candidateAbsent (record : TournamentRecord) (currentPrivateRoot : DurableDirectoryIdentity)
    (i : Fin 2) : Prop :=
  reconcileDifferentBoot record currentPrivateRoot (.managedOwner i) = .managedOwnerAbsent i ∧
    reconcileDifferentBoot record currentPrivateRoot (.candidateComponents i) =
      .candidateComponentsAbsent i
  deriving Decidable

/-- `close_different_boot`. -/
def closeDifferentBoot (env : Environment W) (currentPrivateRoot : DurableDirectoryIdentity)
    (update : StoredTournamentUpdate) : RecoveryOp W StoredTournamentUpdate := do
  let update ← transitionRecoveryPhase env update .rollbackPending
  check (require (candidateAbsent update.record currentPrivateRoot 0 ∧
    candidateAbsent update.record currentPrivateRoot 1) .evidenceUnavailable)
  check (require (reconcileDifferentBoot update.record currentPrivateRoot .tournamentDomain =
    .tournamentDomainAbsent) .evidenceUnavailable)
  let generation ← check (increment update.key.generation)
  let update ← persist env update (allAbsent (withGeneration update.record generation))
    (.oldBootAbsence currentPrivateRoot.bootUuid)
  finishRecovery env update

/-! ### One record at startup -/

/-- `TournamentStore::normalize_after_daemon_restart`, which may write. -/
def normalize (env : Environment W) (key : TournamentKey) (record : TournamentRecord) (daemon : Uuid) :
    RecoveryOp W StoredTournamentUpdate :=
  onStore (normalizeAfterDaemonRestart true
    (.done (env.identity (normalized record (key.generation + 1)))) key key.generation daemon)

/-- What `reconcile_startup_inner` does with a valid record; `currentPrivateRoot` is of the boot that
the daemon runs in. -/
def recoverRecord (env : Environment W) (daemon : Uuid) (currentPrivateRoot : DurableDirectoryIdentity)
    (key : TournamentKey) (record : TournamentRecord) : RecoveryOp W Unit := do
  if record.isPositiveTerminal = true then
    return ()
  let normalized ← normalize env key record daemon
  check (require (normalized.record.status.phase = .rollbackRequired) .evidenceUnavailable)
  let closed ←
    if normalized.record.bootUuid ≠ currentPrivateRoot.bootUuid then
      closeDifferentBoot env currentPrivateRoot normalized
    else closeSameBoot env normalized
  check (require (closed.record.isPositiveTerminal = true) .evidenceUnavailable)

end LightTerminal.Speculation.Recovery
