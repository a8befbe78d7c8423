import LightTerminal.Speculation.History

/-! # Phase claims of the actor

`ActorTransitionState` keeps the key and the record of a tournament beside the store and a snapshot of
the status for readers (`speculation_service.rs`). `claim_at` moves the tournament to a phase: it
builds the next record, which in some phases has a new lease, and asks the store to write it.

The abstract machine is `TournamentState::transition`. It knows no leases, but the store refuses a
deadline that is earlier than the one on record: a claim does what the abstract machine does exactly if
the new lease does not end before the old one (`LeaseKept`).

* `accepts_claimed_iff`: the store takes the record of a legal claim exactly if the lease is kept;
* `claims_refine`: every run of claims and evidence writes. -/

namespace LightTerminal.Speculation.Actor

open LightTerminal.Data.Text LightTerminal.Library LightTerminal.Library.Procedure
open LightTerminal.Speculation.Phase LightTerminal.Speculation.Record
open LightTerminal.Speculation.Store LightTerminal.Speculation.Writes
open LightTerminal.Speculation.History

/-- `READY_LEASE`, in milliseconds. -/
def readyLease : ℕ := 30 * 1000

/-- `PENDING_FINALIZE_LEASE`, in milliseconds. -/
def pendingFinalizeLease : ℕ := 10 * 60 * 1000

/-- `MIN_SPECULATION_TIMEOUT_MS`. -/
def minSpeculationTimeoutMs : ℕ := 1000

/-- `MAX_SPECULATION_TIMEOUT_MS`. -/
def maxSpeculationTimeoutMs : ℕ := 60 * 60 * 1000

/-- The timeouts that `SpeculationPrepareRequest::new` takes. -/
def timeoutAccepted (timeoutMs : ℕ) : Prop :=
  minSpeculationTimeoutMs ≤ timeoutMs ∧ timeoutMs ≤ maxSpeculationTimeoutMs
  deriving Decidable

/-- `lease_duration_for_phase`, in milliseconds. -/
def leaseDurationForPhase (phase : SpeculationPhase) (runTimeout : ℕ) : Option ℕ :=
  match phase with
  | .ready | .goPending => some readyLease
  | .running | .resultPending => some runTimeout
  | .pendingFinalize | .finalizingLoser | .winnerSelectionPending | .finalizingWinner =>
    some pendingFinalizeLease
  | _ => none

/-- `ActorTransitionState`, with the store it shares; the timeout is in milliseconds. -/
structure ActorTransitionState where
  store : TournamentStore
  key : TournamentKey
  record : TournamentRecord
  snapshot : SpeculationStatus
  runTimeout : ℕ

/-- An operation of the actor. -/
abbrev ActorOp := Proc ServiceError ActorTransitionState

/-- A condition for an operation of the actor to go on. -/
abbrev actorEnsure (c : Prop) [Decidable c] (error : ServiceError) : Except ServiceError Unit :=
  require c error

/-- `Option::ok_or` in an operation of the actor. -/
abbrev actorOkOr {α : Type} (x : Option α) (error : ServiceError) : Except ServiceError α :=
  expect x error

/-- `validate_status_identity` with the exact generation. -/
def validateStatusIdentity (status : SpeculationStatus) (tournamentUuid daemonInstanceUuid : Uuid)
    (generation : ℕ) : Except ServiceError Unit := do
  actorEnsure (Uuid.isNil tournamentUuid = false ∧ Uuid.isNil daemonInstanceUuid = false ∧
    generation ≠ 0 ∧ status.tournamentUuid = tournamentUuid ∧
    status.daemonInstanceUuid = daemonInstanceUuid) .invalidRequest
  actorEnsure (status.generation = generation) .staleGeneration

/-- `checked_lease_deadline_unix_ms`. -/
def checkedLeaseDeadlineUnixMs (now lease : ℕ) : Except ServiceError ℕ := do
  actorEnsure (now + lease < 2 ^ 64) .generationExhausted
  return now + lease

/-- The deadline of a phase that is claimed at `now`: the one on record if the phase has no lease. -/
def claimedDeadline (record : TournamentRecord) (runTimeout : ℕ) (phase : SpeculationPhase)
    (now : ℕ) : Except ServiceError ℕ :=
  match leaseDurationForPhase phase runTimeout with
  | some lease => checkedLeaseDeadlineUnixMs now lease
  | none => .ok record.status.leaseDeadlineUnixMs

/-- The record that a claim writes, with its generation and its deadline. -/
def claimed (record : TournamentRecord) (phase : SpeculationPhase)
    (reason : Option SpeculationReasonCode) (generation deadline : ℕ) : TournamentRecord :=
  { record with
    status :=
      { record.status with
        generation
        phase
        reasonCode := reason.or record.status.reasonCode
        leaseDeadlineUnixMs := deadline
        rollbackRequired := phase.isRollbackOnly
        selectedIndex := if phase.isRollbackOnly then none else record.status.selectedIndex
        errorCodes :=
          if phase.isRollbackOnly then
            record.status.errorCodes.push
              (if phase = .decisionUncertain then .decisionUncertain else .rollbackRequired)
          else record.status.errorCodes } }

/-- An operation of the store, done by the actor. -/
def onStore {α : Type} (m : Op α) : ActorOp α := do
  let actor ← get
  let (result, store) := exec m actor.store
  set { actor with store }
  match result with
  | .ok a => return a
  | .error e => throw (mapStoreError e)

/-- `ActorTransitionState::claim_at`. -/
def claimAt (io : WriteIo) (tournamentUuid daemonInstanceUuid : Uuid) (generation : ℕ)
    (phase : SpeculationPhase) (reason : Option SpeculationReasonCode) (now : ℕ) :
    ActorOp SpeculationStatus := do
  let actor ← get
  liftM (validateStatusIdentity actor.record.status tournamentUuid daemonInstanceUuid generation)
  if actor.record.status.phase = phase ∧ phase.isTerminal = true then
    return actor.record.status
  actorEnsure (isLegalTransition actor.record.status.phase phase = true) .invalidTransition
  actorEnsure (generation + 1 < 2 ^ 64) .generationExhausted
  let deadline ← claimedDeadline actor.record actor.runTimeout phase now
  let stored ← onStore (write io actor.key generation
    (claimed actor.record phase reason (generation + 1) deadline) .livePhaseTransition)
  modify fun actor =>
    { actor with key := stored.key, record := stored.record, snapshot := stored.record.status }
  return stored.record.status

/-- `ActorState::persist_same`, with the record that the mutation leads to. -/
def persistSame (io : WriteIo) (mutate : TournamentRecord → TournamentRecord) :
    ActorOp SpeculationStatus := do
  let actor ← get
  actorEnsure (actor.key.generation + 1 < 2 ^ 64) .generationExhausted
  let next := mutate { actor.record with
    status := { actor.record.status with generation := actor.key.generation + 1 } }
  let stored ← onStore (write io actor.key actor.key.generation next .samePhaseEvidence)
  modify fun actor =>
    { actor with key := stored.key, record := stored.record, snapshot := stored.record.status }
  return stored.record.status

/-! ### The record of a claim -/

/-- The deadline of a phase that is claimed at `now`. -/
def deadlineAt (record : TournamentRecord) (runTimeout : ℕ) (phase : SpeculationPhase) (now : ℕ) : ℕ :=
  match leaseDurationForPhase phase runTimeout with
  | some lease => now + lease
  | none => record.status.leaseDeadlineUnixMs

theorem claimedDeadline_eq_ok {record : TournamentRecord} {runTimeout now : ℕ}
    {phase : SpeculationPhase}
    (h : ∀ lease ∈ leaseDurationForPhase phase runTimeout, now + lease < 2 ^ 64) :
    claimedDeadline record runTimeout phase now = .ok (deadlineAt record runTimeout phase now) := by
  unfold claimedDeadline deadlineAt
  rcases hlease : leaseDurationForPhase phase runTimeout with _ | lease
  · rfl
  · have hlt := h lease (by rw [hlease]; rfl)
    simp only [checkedLeaseDeadlineUnixMs, bind_eq_ok, exists_unit, require_eq_ok, pure_eq_ok]
    exact ⟨hlt, trivial⟩

theorem isLegalTransition_domain_self (state : TournamentCgroupLifecycleState) :
    state.isLegalTransition state = true := by
  cases state <;> rfl

theorem isLegalTransition_group_self (state : CgroupLifecycleState) :
    state.isLegalTransition state = true := by
  simp [CgroupLifecycleState.isLegalTransition]

theorem managedOwnerProgressesTo_refl (owner : Option ManagedOwnerEvidence) :
    managedOwnerProgressesTo owner owner := by
  rcases owner with _ | owner
  · trivial
  · exact .inl rfl

theorem immutableIdentityProgressesTo_refl (evidence : TournamentCgroupEvidence) :
    evidence.immutableIdentityProgressesTo evidence :=
  ⟨rfl, fun _ hidentity => .inl hidentity⟩

theorem push_prefix (errors : SpeculationErrorCodes) (code : SpeculationErrorCode) :
    errors.codes <+: (errors.push code).codes := by
  unfold SpeculationErrorCodes.push
  split_ifs
  · exact List.prefix_append _ _
  · exact List.prefix_rfl

/-- The store takes the record of a legal claim exactly if its lease does not end before the one on
record: nothing else of what a claim writes can be refused. -/
theorem accepts_claimed_iff {record : TournamentRecord} {phase : SpeculationPhase}
    {reason : Option SpeculationReasonCode} {generation deadline : ℕ}
    (hlegal : isLegalTransition record.status.phase phase = true) :
    Accepts .livePhaseTransition record (claimed record phase reason generation deadline) ↔
      record.status.leaseDeadlineUnixMs ≤ deadline := by
  constructor
  · rintro ⟨-, -, ⟨hlease, -⟩, -⟩
    exact hlease
  intro hlease
  have hselection : (decide (TournamentWriteKind.livePhaseTransition = .livePhaseTransition ∧
      phase.isRollbackOnly = true) = true ∨ optionIsRetained record.status.selectedIndex
        (claimed record phase reason generation deadline).status.selectedIndex) := by
    rcases hrollback : phase.isRollbackOnly with _ | _
    · right
      simp only [claimed, hrollback]
      exact optionIsRetained_refl _
    · left
      simp
  have herrors : record.status.errorCodes.codes <+:
      (claimed record phase reason generation deadline).status.errorCodes.codes := by
    simp only [claimed]
    split_ifs
    · exact push_prefix _ _
    · exact push_prefix _ _
    · exact List.prefix_rfl
  refine ⟨⟨rfl, rfl, rfl, immutableIdentityProgressesTo_refl _, rfl, rfl, rfl, rfl⟩, ⟨rfl, hlegal⟩,
    ⟨hlease, ?_, hselection, herrors, ?_, ?_⟩, ?_⟩
  · intro hretain
    simp at hretain
  · exact ⟨candidateProgressesTo_refl _, candidateProgressesTo_refl _⟩
  · exact ⟨managedOwnerProgressesTo_refl _, managedOwnerProgressesTo_refl _⟩
  · intro _
    exact ⟨isLegalTransition_domain_self _, isLegalTransition_group_self _,
      isLegalTransition_group_self _⟩

/-! ### One claim -/

/-- The actor, the store and the snapshot have the same record. -/
structure Synced (actor : ActorTransitionState) : Prop where
  coherent : Coherent actor.store
  slot : ∃ identity, actor.store.slots[actor.key.slot]? = some (.valid actor.record identity)
  key : actor.key = keyFor actor.key.slot actor.record
  snapshot : actor.snapshot = actor.record.status

/-- The arguments of `claim_at` for the tournament of the actor, and the identity of the file that is
written for it. -/
structure Claim where
  generation : ℕ
  phase : SpeculationPhase
  reason : Option SpeculationReasonCode
  now : ℕ
  identity : FileIdentity

/-- A claim performed. -/
def performClaim (actor : ActorTransitionState) (claim : Claim) :
    Except ServiceError SpeculationStatus × ActorTransitionState :=
  exec (claimAt (.done claim.identity) actor.record.status.tournamentUuid
    actor.record.status.daemonInstanceUuid claim.generation claim.phase claim.reason claim.now) actor

/-- The record that a claim leads to. -/
def Claim.target (claim : Claim) (actor : ActorTransitionState) : TournamentRecord :=
  claimed actor.record claim.phase claim.reason (claim.generation + 1)
    (deadlineAt actor.record actor.runTimeout claim.phase claim.now)

/-- The clock does not overflow, and the evidence on record is valid for the phase that is claimed. -/
structure Admissible (actor : ActorTransitionState) (claim : Claim) : Prop where
  clock : ∀ lease ∈ leaseDurationForPhase claim.phase actor.runTimeout, claim.now + lease < 2 ^ 64
  evidence : isLegalTransition actor.record.status.phase claim.phase = true →
    (claim.target actor).Valid

/-- The phase has no lease, or its lease does not end before the deadline on record. -/
def LeaseKept (actor : ActorTransitionState) (claim : Claim) : Prop :=
  ∀ lease ∈ leaseDurationForPhase claim.phase actor.runTimeout,
    actor.record.status.leaseDeadlineUnixMs ≤ claim.now + lease

/-- The claim moves the tournament in the abstract machine: it is not only confirmed. -/
def Moves (actor : ActorTransitionState) (claim : Claim) : Prop :=
  claim.generation = actor.record.status.generation ∧
    ¬ (actor.record.status.phase = claim.phase ∧ claim.phase.isTerminal = true) ∧
    isLegalTransition actor.record.status.phase claim.phase = true ∧
    actor.record.status.generation + 1 < 2 ^ 64

/-- The abstract state of a record. -/
def abstractState (record : TournamentRecord) : TournamentState :=
  ⟨record.status.phase, record.status.generation⟩

variable {actor : ActorTransitionState} {claim : Claim}

theorem leaseKept_iff : LeaseKept actor claim ↔ actor.record.status.leaseDeadlineUnixMs ≤
    deadlineAt actor.record actor.runTimeout claim.phase claim.now := by
  unfold LeaseKept deadlineAt
  rcases leaseDurationForPhase claim.phase actor.runTimeout with _ | lease
  · simp
  · simp

theorem Synced.durable (h : Synced actor) : durable actor.store actor.key.slot = some actor.record := by
  obtain ⟨identity, hslot⟩ := h.slot
  exact h.coherent.durable_of_valid hslot

theorem Synced.valid (h : Synced actor) : actor.record.Valid := h.coherent.checked _ _ h.durable

theorem Synced.identityChecked (h : Synced actor) {generation : ℕ}
    (hgeneration : generation = actor.record.status.generation) :
    validateStatusIdentity actor.record.status actor.record.status.tournamentUuid
      actor.record.status.daemonInstanceUuid generation = .ok () := by
  have hheader := h.valid.core.status.header
  subst hgeneration
  simp only [validateStatusIdentity, bind_eq_ok, exists_unit, require_eq_ok]
  exact ⟨⟨hheader.tournament, hheader.daemon, hheader.generation, trivial, trivial⟩, trivial⟩

theorem onStore_ok {α : Type} {m : Op α} {a : α} {store : TournamentStore}
    (h : exec m actor.store = (.ok a, store)) :
    exec (onStore m) actor = (.ok a, { actor with store }) := by
  unfold onStore
  rw [exec_bind_ok (exec_get actor)]
  simp only [h]
  rfl

theorem onStore_error {α : Type} {m : Op α} {e : EvidenceError} {store : TournamentStore}
    (h : exec m actor.store = (.error e, store)) :
    exec (onStore m) actor = (.error (mapStoreError e), { actor with store }) := by
  unfold onStore
  rw [exec_bind_ok (exec_get actor)]
  simp only [h]
  rfl

/-- The claim up to its write. -/
theorem performClaim_of_moves (h : Synced actor) (hclaim : Admissible actor claim)
    (hmoves : Moves actor claim) :
    performClaim actor claim = exec (do
      let stored ← onStore (write (.done claim.identity) actor.key claim.generation
        (claim.target actor) .livePhaseTransition)
      modify fun actor =>
        { actor with key := stored.key, record := stored.record, snapshot := stored.record.status }
      return stored.record.status : ActorOp SpeculationStatus) actor := by
  obtain ⟨hgeneration, hconfirmed, hlegal, hbound⟩ := hmoves
  rw [← hgeneration] at hbound
  unfold performClaim claimAt
  rw [exec_bind_ok (exec_get actor), exec_lift_bind (h.identityChecked hgeneration),
    if_neg hconfirmed, exec_lift_bind (require_eq_ok (u := ()).mpr hlegal),
    exec_lift_bind (require_eq_ok (u := ()).mpr hbound),
    exec_lift_bind (claimedDeadline_eq_ok hclaim.clock)]
  rfl

theorem Synced.keyMatches (h : Synced actor) (hmoves : Moves actor claim) :
    keyMatches actor.key claim.generation actor.record (claim.target actor) := by
  obtain ⟨hgeneration, -, -, hbound⟩ := hmoves
  rw [h.key]
  refine ⟨rfl, hgeneration.symm, hgeneration.symm, ?_, rfl⟩
  rw [hgeneration]
  exact hbound

/-- A claim that keeps the lease is written, and everybody has the new record. -/
theorem performClaim_kept (h : Synced actor) (hclaim : Admissible actor claim)
    (hmoves : Moves actor claim) (hlease : LeaseKept actor claim) :
    performClaim actor claim =
      (.ok (claim.target actor).status,
        { actor with
          store := (actor.store.install actor.key.slot claim.identity (claim.target actor)).setSlot
            actor.key.slot (.valid (claim.target actor) claim.identity)
          key := keyFor actor.key.slot (claim.target actor)
          record := claim.target actor
          snapshot := (claim.target actor).status }) := by
  obtain ⟨identity, hslot⟩ := h.slot
  have hlegal := hmoves.2.2.1
  have haccepts : Accepts .livePhaseTransition actor.record (claim.target actor) :=
    (accepts_claimed_iff hlegal).mpr (leaseKept_iff.mp hlease)
  have hwrite := exec_write claim.identity hslot (h.coherent.valid _ _ _ hslot)
    (hclaim.evidence hlegal) (h.keyMatches hmoves) haccepts
  rw [performClaim_of_moves h hclaim hmoves, exec_bind_ok (onStore_ok hwrite)]
  rfl

/-- A claim that does not keep the lease is refused by the store, and changes nothing. -/
theorem performClaim_refused (h : Synced actor) (hclaim : Admissible actor claim)
    (hmoves : Moves actor claim) (hlease : ¬ LeaseKept actor claim) :
    performClaim actor claim = (.error .staleGeneration, actor) := by
  obtain ⟨identity, hslot⟩ := h.slot
  have hlegal := hmoves.2.2.1
  have hrefused : ¬ (Store.keyMatches actor.key claim.generation actor.record (claim.target actor) ∧
      Accepts .livePhaseTransition actor.record (claim.target actor)) := by
    rintro ⟨-, haccepts⟩
    exact hlease (leaseKept_iff.mpr ((accepts_claimed_iff hlegal).mp haccepts))
  have hwrite : exec (write (.done claim.identity) actor.key claim.generation (claim.target actor)
      .livePhaseTransition) actor.store = (.error .generationMismatch, actor.store) := by
    unfold write
    rw [exec_lift_bind (TournamentRecord.validate_eq_ok.mpr (hclaim.evidence hlegal)),
      exec_bind_ok (exec_get actor.store), validSlot_eq_some.mpr hslot,
      exec_lift_bind (expect_eq_ok.mpr rfl), exec_bind]
    simp only [exec_lift, require, hrefused, if_false]
  rw [performClaim_of_moves h hclaim hmoves, exec_bind, onStore_error hwrite]
  rfl

/-- The claim confirms the terminal phase that the tournament is in. -/
def Confirms (actor : ActorTransitionState) (claim : Claim) : Prop :=
  claim.generation = actor.record.status.generation ∧
    actor.record.status.phase = claim.phase ∧ claim.phase.isTerminal = true

theorem performClaim_confirms (h : Synced actor) (hconfirms : Confirms actor claim) :
    performClaim actor claim = (.ok actor.record.status, actor) := by
  obtain ⟨hgeneration, hconfirmed⟩ := hconfirms
  unfold performClaim claimAt
  rw [exec_bind_ok (exec_get actor), exec_lift_bind (h.identityChecked hgeneration),
    if_pos hconfirmed]
  rfl

/-- Every other claim fails and changes nothing. -/
theorem performClaim_fails (h : Synced actor) (hconfirms : ¬ Confirms actor claim)
    (hmoves : ¬ Moves actor claim) : ∃ e, performClaim actor claim = (.error e, actor) := by
  unfold performClaim claimAt
  rw [exec_bind_ok (exec_get actor)]
  by_cases hgeneration : claim.generation = actor.record.status.generation
  · have hconfirmed : ¬ (actor.record.status.phase = claim.phase ∧ claim.phase.isTerminal = true) :=
      fun hconfirmed => hconfirms ⟨hgeneration, hconfirmed⟩
    rw [exec_lift_bind (h.identityChecked hgeneration), if_neg hconfirmed]
    by_cases hlegal : isLegalTransition actor.record.status.phase claim.phase = true
    · have hbound : ¬ claim.generation + 1 < 2 ^ 64 := by
        intro hbound
        rw [hgeneration] at hbound
        exact hmoves ⟨hgeneration, hconfirmed, hlegal, hbound⟩
      rw [exec_lift_bind (require_eq_ok (u := ()).mpr hlegal)]
      refine ⟨.generationExhausted, ?_⟩
      rw [exec_bind]
      simp only [exec_lift, require, if_neg hbound]
    · refine ⟨.invalidTransition, ?_⟩
      rw [exec_bind]
      simp only [exec_lift, require, if_neg hlegal]
  · rcases hcheck : validateStatusIdentity actor.record.status actor.record.status.tournamentUuid
      actor.record.status.daemonInstanceUuid claim.generation with e | _
    · exact ⟨e, rfl⟩
    · simp only [validateStatusIdentity, bind_eq_ok, exists_unit, require_eq_ok] at hcheck
      exact absurd hcheck.2.symm hgeneration

/-- The store, the record of the actor and the snapshot show the phase and generation of an abstract
state. -/
structure Shows (actor : ActorTransitionState) (state : TournamentState) : Prop where
  stored : ∃ record, durable actor.store actor.key.slot = some record ∧ abstractState record = state
  record : abstractState actor.record = state
  snapshot : (⟨actor.snapshot.phase, actor.snapshot.generation⟩ : TournamentState) = state

/-- A claim does what the abstract machine does: it succeeds exactly if the transition does, and the
new phase and generation are everywhere; if it fails, nothing changes. -/
structure Refines (actor : ActorTransitionState) (claim : Claim) : Prop where
  succeeds : (∃ status, (performClaim actor claim).1 = .ok status) ↔
    ∃ state, (abstractState actor.record).transition claim.generation claim.phase = .ok state
  moved : ∀ state, (abstractState actor.record).transition claim.generation claim.phase = .ok state →
    Shows (performClaim actor claim).2 state
  fails : ∀ e, (performClaim actor claim).1 = .error e → (performClaim actor claim).2 = actor

theorem Synced.shows (h : Synced actor) : Shows actor (abstractState actor.record) :=
  ⟨⟨actor.record, h.durable, rfl⟩, rfl, by rw [h.snapshot]; rfl⟩

/-- The transition of the abstract machine that a claim stands for. -/
theorem transition_claim {state : TournamentState} :
    (abstractState actor.record).transition claim.generation claim.phase = .ok state ↔
      Confirms actor claim ∧ state = abstractState actor.record ∨
        Moves actor claim ∧ state = ⟨claim.phase, actor.record.status.generation + 1⟩ := by
  rw [TournamentState.transition_eq_ok]
  unfold Confirms Moves abstractState
  dsimp only
  have hterminal : actor.record.status.phase = claim.phase →
      actor.record.status.phase.isTerminal = claim.phase.isTerminal := fun h => by rw [h]
  split_ifs with hconfirmed
  · obtain ⟨hphase, hend⟩ := hconfirmed
    rw [hterminal hphase] at hend
    simp [hphase, hend]
  · have hconfirmed' : ¬ (actor.record.status.phase = claim.phase ∧ claim.phase.isTerminal = true) := by
      rintro ⟨hphase, hend⟩
      rw [← hterminal hphase] at hend
      exact hconfirmed ⟨hphase, hend⟩
    tauto

/-- A record that was written through the key of the actor, shown by everybody. -/
theorem Synced.stored (h : Synced actor) {next : TournamentRecord} {identity : FileIdentity}
    (hvalid : next.Valid) :
    Synced { actor with
      store := (actor.store.install actor.key.slot identity next).setSlot actor.key.slot
        (.valid next identity)
      key := keyFor actor.key.slot next
      record := next
      snapshot := next.status } := by
  obtain ⟨identity', hslot⟩ := h.slot
  have hlt := h.coherent.lt_of_slot hslot
  have hcoherent := @Coherent.installed actor.store h.coherent actor.key.slot next identity
    (.valid next identity) actor.store.materialized hlt hvalid (.inr rfl)
  refine ⟨hcoherent, ⟨identity, ?_⟩, rfl, rfl⟩
  have hlt' := (List.getElem?_eq_some_iff.mp hslot).1
  show (actor.store.slots.set actor.key.slot (.valid next identity))[actor.key.slot]? = _
  rw [List.getElem?_set_self hlt']

/-- What an actor does after its write, whatever the store answers. -/
theorem Synced.onWrite (h : Synced actor) (identity : FileIdentity) (generation : ℕ)
    (next : TournamentRecord) (kind : TournamentWriteKind) :
    Synced (exec (do
      let stored ← onStore (write (.done identity) actor.key generation next kind)
      modify fun actor =>
        { actor with key := stored.key, record := stored.record, snapshot := stored.record.status }
      return stored.record.status : ActorOp SpeculationStatus) actor).2 := by
  rcases exec_write_done identity actor.key generation next kind h.coherent.valid with
    ⟨e, hwrite⟩ | ⟨current, identity', -, hvalid, -, -, hwrite⟩
  · rw [exec_bind, onStore_error hwrite]
    exact h
  · rw [exec_bind_ok (onStore_ok hwrite)]
    exact h.stored hvalid

/-- An operation that goes on only if a check passes keeps the actor in step. -/
theorem synced_lift_bind {α β : Type} {x : Except ServiceError α} {f : α → ActorOp β} (h : Synced actor)
    (hf : ∀ a, x = .ok a → Synced (exec (f a) actor).2) :
    Synced (exec ((liftM x : ActorOp α) >>= f) actor).2 := by
  rcases x with e | a
  · exact h
  · exact hf a rfl

theorem Synced.performClaim (h : Synced actor) (claim : Claim) :
    Synced (Actor.performClaim actor claim).2 := by
  unfold Actor.performClaim claimAt
  rw [exec_bind_ok (exec_get actor)]
  refine synced_lift_bind h fun _ _ => ?_
  split_ifs
  · exact h
  · refine synced_lift_bind h fun _ _ => synced_lift_bind h fun _ _ => ?_
    exact synced_lift_bind h fun deadline _ => h.onWrite _ _ _ _

theorem Synced.persistSame (h : Synced actor) (identity : FileIdentity)
    (mutate : TournamentRecord → TournamentRecord) :
    Synced (exec (persistSame (.done identity) mutate) actor).2 := by
  unfold Actor.persistSame
  rw [exec_bind_ok (exec_get actor)]
  exact synced_lift_bind h fun _ _ => h.onWrite _ _ _ _

/-- One claim does what the abstract machine does exactly if it keeps the lease when it moves. -/
theorem refines_iff (h : Synced actor) (hclaim : Admissible actor claim) :
    Refines actor claim ↔ (Moves actor claim → LeaseKept actor claim) := by
  by_cases hconfirms : Confirms actor claim
  · have hmoves : ¬ Moves actor claim := fun hmoves => hmoves.2.1 hconfirms.2
    refine iff_of_true ?_ fun hm => absurd hm hmoves
    have hperform := performClaim_confirms h hconfirms
    refine ⟨?_, fun state hstate => ?_, fun e he => ?_⟩
    · rw [hperform]
      exact iff_of_true ⟨_, rfl⟩ ⟨_, transition_claim.mpr (.inl ⟨hconfirms, rfl⟩)⟩
    · rw [hperform]
      rcases transition_claim.mp hstate with ⟨-, rfl⟩ | ⟨hm, -⟩
      · exact h.shows
      · exact absurd hm hmoves
    · rw [hperform]
  by_cases hmoves : Moves actor claim
  · rw [imp_iff_right hmoves]
    constructor
    · intro hrefines
      by_contra hlease
      obtain ⟨status, hstatus⟩ := hrefines.succeeds.mpr ⟨_, transition_claim.mpr (.inr ⟨hmoves, rfl⟩)⟩
      rw [performClaim_refused h hclaim hmoves hlease] at hstatus
      simp at hstatus
    · intro hlease
      have hperform := performClaim_kept h hclaim hmoves hlease
      refine ⟨?_, fun state hstate => ?_, fun e he => ?_⟩
      · rw [hperform]
        exact iff_of_true ⟨_, rfl⟩ ⟨_, transition_claim.mpr (.inr ⟨hmoves, rfl⟩)⟩
      · rcases transition_claim.mp hstate with ⟨hc, -⟩ | ⟨-, rfl⟩
        · exact absurd hc hconfirms
        · have hshows := (h.performClaim claim).shows
          rw [hperform] at hshows ⊢
          have hstate : abstractState (claim.target actor) =
              ⟨claim.phase, actor.record.status.generation + 1⟩ := by
            rw [← hmoves.1]
            rfl
          rw [← hstate]
          exact hshows
      · rw [hperform] at he
        simp at he
  · refine iff_of_true ?_ fun hm => absurd hm hmoves
    obtain ⟨e, hperform⟩ := performClaim_fails h hconfirms hmoves
    have hfails : ¬ ∃ state,
        (abstractState actor.record).transition claim.generation claim.phase = .ok state := by
      rintro ⟨state, hstate⟩
      rcases transition_claim.mp hstate with ⟨hc, -⟩ | ⟨hm, -⟩
      · exact hconfirms hc
      · exact hmoves hm
    refine ⟨?_, fun state hstate => absurd ⟨state, hstate⟩ hfails, fun e he => ?_⟩
    · rw [hperform]
      refine iff_of_false ?_ hfails
      simp
    · rw [hperform]

/-! ### Runs -/

/-- What an actor does in a run: it claims a phase, or it writes evidence. -/
inductive ActorStep where
  | claim (claim : Claim)
  | evidence (identity : FileIdentity) (mutate : TournamentRecord → TournamentRecord)

/-- The actor after a step. -/
def actorStep (actor : ActorTransitionState) : ActorStep → ActorTransitionState
  | .claim claim => (performClaim actor claim).2
  | .evidence identity mutate => (exec (persistSame (.done identity) mutate) actor).2

/-- The actor after a list of steps. -/
def actorRun (actor : ActorTransitionState) (steps : List ActorStep) : ActorTransitionState :=
  Run.run actorStep actor steps

/-- `ActorTransitionState::from_prepare`. -/
def fromPrepare (store : TournamentStore) (key : TournamentKey) (record : TournamentRecord)
    (timeoutMs : ℕ) : ActorTransitionState :=
  ⟨store, key, record, record.status, timeoutMs⟩

/-- The abstract machine over a list of claims; one that fails leaves the state. -/
def abstractRun (state : TournamentState) (claims : List Claim) : TournamentState :=
  claims.foldl (fun state claim =>
    match state.transition claim.generation claim.phase with
    | .ok next => next
    | .error _ => state) state

/-- An actor that was just started for an allocated record. -/
theorem synced_fromPrepare {store store' : TournamentStore} {record : TournamentRecord}
    {key : TournamentKey} {now timeoutMs : ℕ} {io manifestIo : WriteIo} (hstore : Coherent store)
    (halloc : exec (allocatePrepared io manifestIo record now) store = (.ok key, store')) :
    Synced (fromPrepare store' key record timeoutMs) := by
  obtain ⟨hvalid, -, slot, state, identity, materialized, hslot, rfl, rfl⟩ := allocatePrepared_eq_ok halloc
  have hlt := hstore.lt_of_slot hslot
  refine ⟨hstore.installed hlt hvalid (.inr rfl), ⟨identity, ?_⟩, rfl, rfl⟩
  show (store.slots.set slot (.valid record identity))[slot]? = _
  rw [List.getElem?_set_self (List.getElem?_eq_some_iff.mp hslot).1]
  rfl

theorem Synced.run (h : Synced actor) (steps : List ActorStep) : Synced (actorRun actor steps) := by
  refine Run.run_invariant ?_ steps actor h
  rintro actor (claim | ⟨identity, mutate⟩) h
  · exact h.performClaim claim
  · exact h.persistSame identity mutate

/-- A run of claims that all keep the lease follows the abstract machine. -/
theorem shows_abstractRun (claims : List Claim) : ∀ actor, Synced actor →
    (∀ earlier claim later, claims = earlier ++ claim :: later →
      Admissible (actorRun actor (earlier.map .claim)) claim ∧
        LeaseKept (actorRun actor (earlier.map .claim)) claim) →
    Shows (actorRun actor (claims.map .claim)) (abstractRun (abstractState actor.record) claims) := by
  induction claims with
  | nil =>
    intro actor h _
    exact h.shows
  | cons claim claims ih =>
    intro actor h hkept
    obtain ⟨hclaim, hlease⟩ := hkept [] claim claims rfl
    have hrefines := (refines_iff h hclaim).mpr fun _ => hlease
    have hnext := h.performClaim claim
    have hstate : abstractState (performClaim actor claim).2.record =
        match (abstractState actor.record).transition claim.generation claim.phase with
        | .ok next => next
        | .error _ => abstractState actor.record := by
      rcases htransition : (abstractState actor.record).transition claim.generation claim.phase with
        e | next
      · rcases hresult : (performClaim actor claim).1 with e' | status
        · rw [hrefines.fails e' hresult]
        · obtain ⟨state, hstate⟩ := hrefines.succeeds.mp ⟨status, hresult⟩
          rw [htransition] at hstate
          simp at hstate
      · exact (hrefines.moved next htransition).record
    have hrest := ih (performClaim actor claim).2 hnext fun earlier claim' later heq =>
      hkept (claim :: earlier) claim' later (by rw [heq]; rfl)
    rw [hstate] at hrest
    exact hrest

/-- **Claims refine the abstract machine.** In a run of claims and evidence writes that starts with a
freshly allocated record, a claim does what the abstract machine does exactly if it keeps the lease
when it moves; a run of claims that all keep the lease leaves the phase and generation of the abstract
machine in the store, in the record of the actor and in the snapshot. -/
theorem claims_refine {store store' : TournamentStore} {record : TournamentRecord}
    {key : TournamentKey} {now : ℕ} {io manifestIo : WriteIo} (timeoutMs : ℕ) (hstore : Coherent store)
    (halloc : exec (allocatePrepared io manifestIo record now) store = (.ok key, store')) :
    (∀ earlier claim, Admissible (actorRun (fromPrepare store' key record timeoutMs) earlier) claim →
      (Refines (actorRun (fromPrepare store' key record timeoutMs) earlier) claim ↔
        (Moves (actorRun (fromPrepare store' key record timeoutMs) earlier) claim →
          LeaseKept (actorRun (fromPrepare store' key record timeoutMs) earlier) claim))) ∧
      ∀ claims,
        (∀ earlier claim later, claims = earlier ++ claim :: later →
          Admissible (actorRun (fromPrepare store' key record timeoutMs) (earlier.map .claim)) claim ∧
            LeaseKept (actorRun (fromPrepare store' key record timeoutMs) (earlier.map .claim)) claim) →
        Shows (actorRun (fromPrepare store' key record timeoutMs) (claims.map .claim))
          (abstractRun (abstractState record) claims) := by
  have hsynced : Synced (fromPrepare store' key record timeoutMs) := synced_fromPrepare hstore halloc
  constructor
  · intro earlier claim hclaim
    exact refines_iff (hsynced.run earlier) hclaim
  · intro claims hkept
    exact shows_abstractRun claims _ hsynced hkept

/-- The allocation of the sample tournament in an empty store. -/
def sampleAllocation : EvidenceResult TournamentKey × TournamentStore :=
  exec (allocatePrepared (.done ⟨1, 1⟩) (.done ⟨1, 2⟩) sampleRecord 0) fresh

set_option maxRecDepth 4000 in
theorem sampleAllocation_eq : sampleAllocation = (.ok ⟨0, 1, 2⟩, sampleAllocation.2) := by
  have hkey : sampleAllocation.1 = .ok ⟨0, 1, 2⟩ := by decide
  revert hkey
  generalize sampleAllocation = result
  intro hkey
  rw [← hkey]

/-- The actor of the sample tournament, with the shortest timeout that there is. -/
def sampleActor : ActorTransitionState :=
  fromPrepare sampleAllocation.2 ⟨0, 1, 2⟩ sampleRecord minSpeculationTimeoutMs

theorem claims_refine_armed :
    Admissible sampleActor ⟨1, .armed, none, 1000, ⟨1, 3⟩⟩ ∧
      Refines sampleActor ⟨1, .armed, none, 1000, ⟨1, 3⟩⟩ := by
  have hclaim : Admissible sampleActor ⟨1, .armed, none, 1000, ⟨1, 3⟩⟩ := by
    constructor
    · intro lease hlease
      simp [leaseDurationForPhase] at hlease
    · intro _
      exact TournamentRecord.validate_eq_ok.mp (by decide)
  refine ⟨hclaim, ?_⟩
  have hrefines := (claims_refine minSpeculationTimeoutMs Durable.fresh.coherent
    sampleAllocation_eq).1 [] _ hclaim
  refine hrefines.mpr fun _ lease hlease => ?_
  simp [leaseDurationForPhase] at hlease

/-- The claims of the sample tournament up to `GoPending`, one second after it was prepared. -/
def sampleClaims : List Claim :=
  [⟨1, .armed, none, 1000, ⟨1, 3⟩⟩, ⟨2, .starting, none, 1000, ⟨1, 4⟩⟩,
    ⟨3, .ready, some .readyLease, 1000, ⟨1, 5⟩⟩, ⟨4, .goPending, none, 1000, ⟨1, 6⟩⟩]

/-- With a timeout of one second, the claim of `Running` one second after `GoPending` is legal and its
evidence is valid, but the store refuses it: the lease of `GoPending` ends later. -/
theorem running_refused_short_timeout :
    timeoutAccepted minSpeculationTimeoutMs ∧
      (abstractState (actorRun sampleActor (sampleClaims.map .claim)).record).transition 5 .running =
        .ok ⟨.running, 6⟩ ∧
      ((⟨5, .running, some .runningLease, 2000, ⟨1, 7⟩⟩ : Claim).target
        (actorRun sampleActor (sampleClaims.map .claim))).validate = .ok () ∧
      (performClaim (actorRun sampleActor (sampleClaims.map .claim))
        ⟨5, .running, some .runningLease, 2000, ⟨1, 7⟩⟩).1 = .error .staleGeneration := by
  refine ⟨by decide, ?_, ?_, ?_⟩
  all_goals decide +kernel

end LightTerminal.Speculation.Actor
