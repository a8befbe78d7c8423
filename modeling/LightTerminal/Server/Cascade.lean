import LightTerminal.Library.Ancestry
import LightTerminal.Server.Coherence
import LightTerminal.Server.Refusal

/-! # The cascade from a parent to its children

`finalize_session` claims the session, which makes it dead, then takes a snapshot of its children
under the lock of the maps, finalizes each of them, and removes the session. A child is committed
only under a parent that is alive at that moment, under the same lock.

`StackOk` is what the call stack of a thread keeps true: a call that is past its snapshot has, of the
children still in the maps, each one ahead of it in its loop or in the call above it. `Orderly` adds
that a session whose cleanup is complete has no child in the maps, and that parents are committed
before their children. The steps without the lock of the maps keep it (`interleave_orderly`), and do
not take a snapshot (`interleave_unseen`). -/

namespace LightTerminal.Server.Cascade

open LightTerminal.Data.Text LightTerminal.Library LightTerminal.Library.Ancestry
open LightTerminal.Library.FiniteMap
open LightTerminal.Session.Lifecycle LightTerminal.Server.Error LightTerminal.Server.Metadata
open LightTerminal.Server.Model LightTerminal.Server.Concurrent LightTerminal.Server.Operations
open LightTerminal.Server.Daemon LightTerminal.Server.Coherence LightTerminal.Server.Refusal

/-- The parent of a session. -/
def parentOf (s : State) (id : Str) : Option Str := (s.heap id).parentSessionId

/-- The claim is made. -/
def claimMade : Phase → Bool
  | .claiming _ => false
  | _ => true

/-- The snapshot of the children is taken. -/
def pastSnapshot : Phase → Bool
  | .children _ => true
  | .removing => true
  | .completing => true
  | _ => false

/-- What a call keeps true on its own. -/
structure FrameOk (s : State) (f : Frame) : Prop where
  committed : f.session ∈ s.history.committed
  rest : ∀ rest, f.phase = .children rest → ∀ c ∈ rest,
    c ∈ s.history.committed ∧ parentOf s c = some f.session
  dead : claimMade f.phase = true → (s.heap f.session).alive = false
  removed : f.phase = .completing → ¬Live s f.session

/-- The children still in the maps are ahead in the loop, or are the one being finalized. -/
def Covers (s : State) (inner : Option Str) (f : Frame) : Prop :=
  match f.phase with
  | .children rest =>
    ∀ c, Live s c → parentOf s c = some f.session → c ∈ rest ∨ inner = some c
  | .removing => ∀ c, Live s c → parentOf s c ≠ some f.session
  | .completing => ∀ c, Live s c → parentOf s c ≠ some f.session
  | _ => True

/-- What the call stack of a thread keeps true, below the call on the session `inner`. -/
def StackOk (s : State) : Option Str → List Frame → Prop
  | _, [] => True
  | inner, f :: below =>
    FrameOk s f ∧ Covers s inner f ∧ (∀ c, inner = some c → parentOf s c = some f.session) ∧
      StackOk s (some f.session) below

/-- A session is over: it is dead and has left the maps, with all its children. -/
structure Over (s : State) (id : Str) : Prop where
  committed : id ∈ s.history.committed
  dead : (s.heap id).alive = false
  removed : ¬Live s id
  childless : ∀ c, Live s c → parentOf s c ≠ some id

/-- The invariant of the cascade. -/
structure Orderly (s : State) : Prop where
  threads : ∀ i, StackOk s none (s.threads i)
  complete : ∀ id, (s.heap id).cleanupComplete = true → Over s id
  claimed : ∀ id, (s.heap id).lifecycle.authority ≠ none → (s.heap id).alive = false
  finalized : ∀ id ∈ s.history.finalized, (s.heap id).cleanupComplete = true
  ordered : Ordered (parentOf s) s.history.committed
  live : ∀ id, Live s id → id ∈ s.history.committed
  created : ∀ id ∈ s.history.committed, id ∈ s.history.created

/-- A change that no stack notices: sessions may die or leave the maps, and the cleanup of those that
are over may complete. -/
structure Quiet (s s' : State) : Prop where
  live : ∀ id, Live s' id → Live s id
  dead : ∀ id, (s.heap id).alive = false → (s'.heap id).alive = false
  complete : ∀ id, (s.heap id).cleanupComplete = true → (s'.heap id).cleanupComplete = true
  newlyComplete : ∀ id, (s'.heap id).cleanupComplete = true →
    (s.heap id).cleanupComplete = true ∨ Over s id
  parent : ∀ id, parentOf s' id = parentOf s id
  claimed : ∀ id, (s'.heap id).lifecycle.authority ≠ none →
    (s.heap id).lifecycle.authority ≠ none ∨ (s'.heap id).alive = false
  created : s'.history.created = s.history.created
  committed : s'.history.committed = s.history.committed
  finalized : ∀ id ∈ s'.history.finalized,
    id ∈ s.history.finalized ∨ (s'.heap id).cleanupComplete = true

variable {s s' : State}

theorem Quiet.refl (s : State) : Quiet s s :=
  ⟨fun _ h => h, fun _ h => h, fun _ h => h, fun _ h => .inl h, fun _ => rfl, fun _ h => .inl h, rfl,
    rfl, fun _ h => .inl h⟩

/-! ### Quiet changes -/

theorem Over.quiet {id : Str} (hq : Quiet s s') (h : Over s id) : Over s' id := by
  refine ⟨hq.committed ▸ h.committed, hq.dead id h.dead, fun hl => h.removed (hq.live id hl),
    fun c hc => ?_⟩
  rw [hq.parent]
  exact h.childless c (hq.live c hc)

theorem FrameOk.quiet {f : Frame} (hq : Quiet s s') (h : FrameOk s f) : FrameOk s' f := by
  refine ⟨hq.committed ▸ h.committed, fun rest hrest c hc => ?_, fun hf => hq.dead _ (h.dead hf),
    fun hf hlive => h.removed hf (hq.live _ hlive)⟩
  obtain ⟨hcommitted, hparent⟩ := h.rest rest hrest c hc
  rw [hq.committed, hq.parent]
  exact ⟨hcommitted, hparent⟩

theorem Covers.quiet {inner : Option Str} {f : Frame} (hq : Quiet s s') (h : Covers s inner f) :
    Covers s' inner f := by
  unfold Covers at h ⊢
  split at h
  · intro c hc hparent
    rw [hq.parent] at hparent
    exact h c (hq.live c hc) hparent
  · intro c hc
    rw [hq.parent]
    exact h c (hq.live c hc)
  · intro c hc
    rw [hq.parent]
    exact h c (hq.live c hc)
  · trivial

theorem StackOk.quiet (hq : Quiet s s') : ∀ {inner : Option Str} {stack : List Frame},
    StackOk s inner stack → StackOk s' inner stack
  | _, [], _ => trivial
  | _, _ :: _, ⟨hf, hcovers, hinner, hbelow⟩ =>
    ⟨hf.quiet hq, hcovers.quiet hq, fun c hc => (hq.parent c).trans (hinner c hc), hbelow.quiet hq⟩

/-- A quiet change that leaves the stacks alone. -/
theorem Orderly.quiet (h : Orderly s) (hq : Quiet s s') (hthreads : s'.threads = s.threads) :
    Orderly s' := by
  refine ⟨fun i => ?_, fun id hid => ?_, fun id hid => ?_, fun id hid => ?_, ?_, fun id hid => ?_,
    fun id hid => ?_⟩
  · rw [hthreads]
    exact (h.threads i).quiet hq
  · rcases hq.newlyComplete id hid with hold | hover
    · exact (h.complete id hold).quiet hq
    · exact hover.quiet hq
  · rcases hq.claimed id hid with hold | hdead
    · exact hq.dead id (h.claimed id hold)
    · exact hdead
  · rcases hq.finalized id hid with hold | hcomplete
    · exact hq.complete id (h.finalized id hold)
    · exact hcomplete
  · rw [hq.committed]
    exact h.ordered.congr fun id _ => hq.parent id
  · rw [hq.committed]
    exact h.live id (hq.live id hid)
  · rw [hq.committed] at hid
    rw [hq.created]
    exact h.created id hid

/-- The stack of one thread replaced by another that is as it should be. -/
theorem Orderly.setThread (h : Orderly s) (i : ℕ) {stack : List Frame}
    (hstack : StackOk s none stack) : Orderly (s.setThread i stack) := by
  have hq : Quiet s (s.setThread i stack) :=
    ⟨fun _ hl => hl, fun _ hd => hd, fun _ hc => hc, fun _ hc => .inl hc, fun _ => rfl,
      fun _ ha => .inl ha, rfl, rfl, fun _ hf => .inl hf⟩
  refine ⟨fun j => ?_, fun id hid => (h.complete id hid).quiet hq, h.claimed, h.finalized, h.ordered,
    h.live, h.created⟩
  by_cases hj : j = i
  · subst hj
    simp only [State.setThread, Function.update_self]
    exact hstack.quiet hq
  · simp only [State.setThread, Function.update_of_ne hj]
    exact (h.threads j).quiet hq

theorem quiet_modify (s : State) (id : Str) {f : Session → Session}
    (hdead : (s.heap id).alive = false → (f (s.heap id)).alive = false)
    (hcomplete : (s.heap id).cleanupComplete = true → (f (s.heap id)).cleanupComplete = true)
    (hover : (f (s.heap id)).cleanupComplete = true →
      (s.heap id).cleanupComplete = true ∨ Over s id)
    (hparent : (f (s.heap id)).parentSessionId = (s.heap id).parentSessionId)
    (hclaimed : (f (s.heap id)).lifecycle.authority ≠ none →
      (s.heap id).lifecycle.authority ≠ none ∨ (f (s.heap id)).alive = false) :
    Quiet s (s.modify id f) := by
  have hself := State.modify_heap_self s id f
  have hother : ∀ id', id' ≠ id → (s.modify id f).heap id' = s.heap id' := fun _ hne =>
    State.modify_heap_of_ne s id f hne
  refine ⟨fun _ hl => hl, fun id' => ?_, fun id' => ?_, fun id' => ?_,
    State.modify_heap_proj s id f hparent, fun id' => ?_, rfl, rfl, fun _ hf => .inl hf⟩
  all_goals
    by_cases hid : id' = id
    · subst hid
      rw [hself]
      assumption
    · rw [hother id' hid]
      first
        | exact fun h => h
        | exact fun h => .inl h

/-- A change of the lifecycle that gives no authority. -/
theorem quiet_lifecycle (s : State) (id : Str) (f : PublicationState → PublicationState)
    (h : ∀ p, p.authority = none → (f p).authority = none) :
    Quiet s (s.modify id fun x => { x with lifecycle := f x.lifecycle }) := by
  refine quiet_modify s id (fun hd => hd) (fun hc => hc) .inl rfl fun hne => .inl fun hnone => ?_
  exact hne (h _ hnone)

theorem resolve_authority {eventId : Uuid} {outcome : WriteOutcome} (p : PublicationState)
    (h : p.authority = none) : (p.resolve eventId outcome).2.authority = none := by
  rcases p with p | _ | _
  · rfl
  · cases h
  · cases h

theorem waitTurn_authority (now : ℕ) (p : PublicationState) (h : p.authority = none) :
    (p.waitTurn now).2.authority = none := by
  rcases p with p | _ | _
  · rfl
  · cases h
  · cases h

theorem markMonitorFailed_authority (p : PublicationState) (h : p.authority = none) :
    p.markMonitorFailed.2.authority = none := by
  rcases p with p | _ | _
  · cases p <;> rfl
  · cases h
  · cases h

/-- After a claim the session is dead. -/
theorem claim_dead (h : Orderly s) (id : Str) (requested : FinalizeTrigger) (eventId : Uuid)
    (now : ℕ) : ((s.heap id).lifecycle.claim requested eventId now (s.heap id).alive).2.2 = false := by
  rw [(PublicationState.claim_spec requested eventId now (s.heap id).lifecycle
    (s.heap id).alive).2.2.2]
  cases ha : (s.heap id).lifecycle.authority with
  | none => rfl
  | some a => simpa using h.claimed id (by rw [ha]; simp)

theorem quiet_claim (h : Orderly s) (id : Str) (requested : FinalizeTrigger) (eventId : Uuid)
    (now : ℕ) :
    Quiet s (s.modify id fun x => { x with
      lifecycle := ((s.heap id).lifecycle.claim requested eventId now (s.heap id).alive).2.1
      alive := ((s.heap id).lifecycle.claim requested eventId now (s.heap id).alive).2.2 }) := by
  have hdead := claim_dead h id requested eventId now
  exact quiet_modify s id (fun _ => hdead) (fun hc => hc) .inl rfl fun _ => .inr hdead

/-! ### Steps of `finalize_session` without the maps -/

theorem stackOk_cons {inner : Option Str} {f : Frame} {below : List Frame}
    (h : StackOk s inner (f :: below)) {f' : Frame} (hsession : f'.session = f.session)
    (hok : FrameOk s f') (hcovers : Covers s inner f') : StackOk s inner (f' :: below) := by
  obtain ⟨-, -, hinner, hbelow⟩ := h
  refine ⟨hok, hcovers, fun c hc => ?_, ?_⟩
  · rw [hsession]
    exact hinner c hc
  · rw [hsession]
    exact hbelow

/-- A call goes on to a phase before its snapshot. -/
theorem stackOk_goto {id : Str} {phase phase' : Phase} {below : List Frame}
    (h : StackOk s none (⟨id, phase⟩ :: below)) (hphase : pastSnapshot phase' = false)
    (hdead : claimMade phase' = true → (s.heap id).alive = false) :
    StackOk s none (⟨id, phase'⟩ :: below) := by
  refine stackOk_cons h rfl ⟨h.1.committed, ?_, hdead, ?_⟩ ?_
  · rintro rest rfl
    cases hphase
  · rintro rfl
    cases hphase
  · cases phase' <;> trivial

/-- When a call returns, its session has left the maps, and the call below it goes on. -/
theorem stackOk_return {id : Str} {phase : Phase} {below : List Frame}
    (h : StackOk s none (⟨id, phase⟩ :: below)) (hlive : ¬Live s id) : StackOk s none below := by
  obtain ⟨-, -, -, hbelow⟩ := h
  cases below with
  | nil => trivial
  | cons f below =>
    obtain ⟨hf, hcovers, -, hrest⟩ := hbelow
    refine ⟨hf, ?_, fun c hc => (by cases hc), hrest⟩
    unfold Covers at hcovers ⊢
    split at hcovers
    · intro c hc hparent
      rcases hcovers c hc hparent with hmem | heq
      · exact .inl hmem
      · cases heq
        exact absurd hc hlive
    · exact hcovers
    · exact hcovers
    · trivial

/-- The call on `id` returns, its cleanup complete. -/
theorem Orderly.return_ (h : Orderly s) {i : ℕ} {id : Str} {phase : Phase} {below : List Frame}
    (hthread : s.threads i = ⟨id, phase⟩ :: below) (hcomplete : (s.heap id).cleanupComplete = true) :
    Orderly { s.setThread i below with
      history := { s.history with finalized := id :: s.history.finalized } } := by
  have hstack := h.threads i
  rw [hthread] at hstack
  have hreturn := stackOk_return hstack (h.complete id hcomplete).removed
  refine (h.setThread i hreturn).quiet ?_ rfl
  refine ⟨fun _ hl => hl, fun _ hd => hd, fun _ hc => hc, fun _ hc => .inl hc, fun _ => rfl,
    fun _ ha => .inl ha, rfl, rfl, fun id' hid' => ?_⟩
  rcases List.mem_cons.mp hid' with rfl | hid'
  · exact .inr hcomplete
  · exact .inl hid'

/-- A call goes on to a phase before its snapshot, after a quiet change. -/
theorem Orderly.goto (h : Orderly s) {i : ℕ} {id : Str} {phase phase' : Phase} {below : List Frame}
    (hthread : s.threads i = ⟨id, phase⟩ :: below) (hq : Quiet s s') (hthreads : s'.threads = s.threads)
    (hphase : pastSnapshot phase' = false)
    (hdead : claimMade phase' = true → (s'.heap id).alive = false) :
    Orderly (s'.setThread i (⟨id, phase'⟩ :: below)) := by
  have hstack := h.threads i
  rw [hthread] at hstack
  exact (h.quiet hq hthreads).setThread i (stackOk_goto (hstack.quiet hq) hphase hdead)

/-- A call that has not started to claim. -/
theorem frameOk_claiming {id : Str} (h : id ∈ s.history.committed) (trigger : FinalizeTrigger) :
    FrameOk s ⟨id, .claiming trigger⟩ := by
  refine ⟨h, ?_, ?_, ?_⟩
  · intro rest hrest
    cases hrest
  · intro hclaim
    cases hclaim
  · intro hphase
    cases hphase

/-- The loop over the children is done. -/
theorem stackOk_childless {id : Str} {below : List Frame}
    (h : StackOk s none (⟨id, .children []⟩ :: below)) :
    StackOk s none (⟨id, .removing⟩ :: below) := by
  have hframe := h.1
  have hcovers := h.2.1
  refine stackOk_cons h rfl ⟨hframe.committed, ?_, hframe.dead, ?_⟩ ?_
  · rintro rest hrest
    cases hrest
  · intro hphase
    cases hphase
  · intro c hc hparent
    rcases hcovers c hc hparent with hmem | heq
    · cases hmem
    · cases heq

/-- The loop over the children calls `finalize_session` on the next one. -/
theorem stackOk_call {id child : Str} {rest : List Str} {below : List Frame}
    (h : StackOk s none (⟨id, .children (child :: rest)⟩ :: below)) (trigger : FinalizeTrigger) :
    StackOk s none (⟨child, .claiming trigger⟩ :: ⟨id, .children rest⟩ :: below) := by
  obtain ⟨hframe, hcovers, -, hbelow⟩ := h
  obtain ⟨hcommitted, hparent⟩ := hframe.rest _ rfl child List.mem_cons_self
  refine ⟨frameOk_claiming hcommitted trigger, trivial, fun c hc => (by cases hc), ?_⟩
  refine ⟨⟨hframe.committed, ?_, hframe.dead, ?_⟩, ?_, ?_, hbelow⟩
  · rintro rest' hrest c hc
    cases hrest
    exact hframe.rest _ rfl c (List.mem_cons_of_mem _ hc)
  · intro hphase
    cases hphase
  · intro c hc hc'
    rcases hcovers c hc hc' with hmem | heq
    · rcases List.mem_cons.mp hmem with rfl | hmem
      · exact .inr rfl
      · exact .inl hmem
    · cases heq
  · rintro c hc
    cases hc
    exact hparent

theorem finalizeStep_orderly (i : ℕ) (eventId : Uuid) (now : ℕ) (h : Orderly s) :
    Orderly (finalizeStep i eventId now s) := by
  unfold finalizeStep
  split
  · exact h
  next id phase below hthread =>
  have hstack := h.threads i
  rw [hthread] at hstack
  have hframe := hstack.1
  rcases phase with trigger | attempt | _ | _ | _ | _ | ⟨_ | ⟨child, rest⟩⟩ | _ | _ <;> dsimp only
  case claiming =>
    refine h.goto hthread (quiet_claim h id trigger eventId now) rfl rfl fun _ => ?_
    rw [State.modify_heap_self]
    exact claim_dead h id trigger eventId now
  case publishing =>
    have hdead := hframe.dead rfl
    split_ifs
    · have hq := quiet_lifecycle s id (fun p => (p.resolve attempt.eventId .writerUnavailable).2)
        resolve_authority
      exact h.goto hthread hq rfl rfl fun _ => hq.dead id hdead
    · exact h.goto hthread (.refl s) rfl rfl fun _ => hdead
  case waiting =>
    have hdead := hframe.dead rfl
    have hq : Quiet s (s.modify id fun x =>
        { x with lifecycle := ((s.heap id).lifecycle.waitTurn now).2 }) :=
      quiet_modify s id (fun hd => hd) (fun hc => hc) .inl rfl fun hne => .inl fun hnone =>
        hne (waitTurn_authority now _ hnone)
    split
    · exact h.goto hthread hq rfl rfl fun _ => hq.dead id hdead
    · exact h.quiet hq rfl
  case swapping =>
    have hdead := hframe.dead rfl
    split_ifs
    · exact h.goto hthread (.refl s) rfl rfl fun _ => hdead
    · have hq := quiet_modify s id (f := fun x => { x with cleanupStarted := true })
        (fun hd => hd) (fun hc => hc) .inl rfl .inl
      exact h.goto hthread hq rfl rfl fun _ => hq.dead id hdead
  case awaiting =>
    split_ifs with hcomplete
    · exact h.return_ hthread hcomplete
    · exact h
  case cleaning => exact h
  case children.nil => exact h.setThread i (stackOk_childless hstack)
  case children.cons => exact h.setThread i (stackOk_call hstack _)
  case removing => exact h
  case completing =>
    have hover : Over s id := ⟨hframe.committed, hframe.dead rfl, hframe.removed rfl, hstack.2.1⟩
    have hq := quiet_modify s id (f := fun x => { x with cleanupComplete := true })
      (fun hd => hd) (fun _ => rfl) (fun _ => .inr hover) rfl .inl
    refine (h.quiet hq rfl).return_ hthread ?_
    rw [State.modify_heap_self]

/-! ### Steps without the maps -/

theorem FreeAction.step_orderly (s : State) (a : FreeAction) (h : Orderly s) :
    Orderly (a.step s) := by
  cases a with
  | claim id requested eventId now =>
    rw [FreeAction.step]
    refine h.quiet ?_ rfl
    have hdead := claim_dead h id requested eventId now
    exact quiet_modify s id (fun _ => hdead) (fun hc => hc) .inl rfl fun _ => .inr hdead
  | resolve id eventId outcome =>
    refine h.quiet ?_ rfl
    exact quiet_lifecycle s id (fun p => (p.resolve eventId outcome).2) resolve_authority
  | wait id now =>
    refine h.quiet ?_ rfl
    exact quiet_lifecycle s id (fun p => (p.waitTurn now).2) (waitTurn_authority now)
  | dropClaimResolutionGuard id eventId armed =>
    refine h.quiet ?_ rfl
    refine quiet_lifecycle s id (fun p => p.dropClaimResolutionGuard eventId armed) fun p hp => ?_
    unfold PublicationState.dropClaimResolutionGuard
    split_ifs
    · exact resolve_authority p hp
    · exact hp
  | markMonitorFailed id =>
    refine h.quiet ?_ rfl
    exact quiet_lifecycle s id (fun p => p.markMonitorFailed.2) markMonitorFailed_authority
  | dropArc id =>
    rw [FreeAction.step]
    refine h.quiet ?_ rfl
    exact quiet_modify s id (fun hd => hd) (fun hc => hc) .inl rfl .inl
  | finalize thread eventId now => exact finalizeStep_orderly thread eventId now h

/-- A change of the grants only. -/
theorem orderly_of_same (h : Orderly s) (hsessions : s'.sessions.byId = s.sessions.byId)
    (hheap : s'.heap = s.heap) (hthreads : s'.threads = s.threads)
    (hcreated : s'.history.created = s.history.created)
    (hcommitted : s'.history.committed = s.history.committed)
    (hfinalized : s'.history.finalized = s.history.finalized) : Orderly s' := by
  refine h.quiet ⟨fun id hl => ?_, ?_, ?_, ?_, ?_, ?_, hcreated, hcommitted, ?_⟩ hthreads
  · unfold Live at hl ⊢
    rwa [hsessions] at hl
  · rw [hheap]
    exact fun _ hd => hd
  · rw [hheap]
    exact fun _ hc => hc
  · rw [hheap]
    exact fun _ hc => .inl hc
  · unfold parentOf
    rw [hheap]
    exact fun _ => rfl
  · rw [hheap]
    exact fun _ ha => .inl ha
  · rw [hfinalized]
    exact fun _ hf => .inl hf

theorem apply_fields (token : Str) (data : List UInt8) (written : Bool) (s : State) :
    let s' := (applyCapabilityInput token data written s).2
    s'.heap = s.heap ∧ s'.threads = s.threads ∧ s'.history.finalized = s.history.finalized := by
  dsimp only
  unfold applyCapabilityInput
  by_cases hdata : data.isEmpty ∨ maxCapabilityInputBytes < data.length
  · rw [if_pos hdata]
    exact ⟨rfl, rfl, rfl⟩
  · rw [if_neg hdata]
    split
    · exact ⟨rfl, rfl, rfl⟩
    · split_ifs <;> exact ⟨rfl, rfl, rfl⟩

theorem UnlockedAction.step_orderly (s : State) (a : UnlockedAction) (h : Orderly s) :
    Orderly (a.step s) := by
  cases a with
  | free action => exact FreeAction.step_orderly s action h
  | apply token data written =>
    obtain ⟨hheap, hthreads, hfinalized⟩ := apply_fields token data written s
    have hu := applyCapabilityInput_unlocked token data written s
    exact orderly_of_same h (congrArg _ hu.sessions) hheap hthreads hu.created hu.committed hfinalized
  | revoke token => exact orderly_of_same h rfl rfl rfl rfl rfl rfl

theorem interleave_orderly (hook : List UnlockedAction) (h : Orderly s) :
    Orderly (interleave hook s) :=
  Run.run_invariant UnlockedAction.step_orderly hook s h

theorem interleaveFree_orderly (hook : List FreeAction) (h : Orderly s) :
    Orderly (interleaveFree hook s) :=
  Run.run_invariant FreeAction.step_orderly hook s h

/-! ### No snapshot without the maps -/

/-- No call has taken a snapshot of the children of `p`, and its cleanup is not complete. -/
structure Unseen (p : Str) (s : State) : Prop where
  frames : ∀ i, ∀ f ∈ s.threads i, f.session = p → pastSnapshot f.phase = false
  incomplete : (s.heap p).cleanupComplete = false

theorem StackOk.frameOk : ∀ {inner : Option Str} {stack : List Frame}, StackOk s inner stack →
    ∀ f ∈ stack, FrameOk s f
  | _, [], _, f, hf => by cases hf
  | _, f :: below, ⟨hok, _, _, hbelow⟩, f', hf' => by
    rcases List.mem_cons.mp hf' with rfl | hf'
    · exact hok
    · exact hbelow.frameOk f' hf'

theorem claimMade_of_pastSnapshot {phase : Phase} (h : pastSnapshot phase = true) :
    claimMade phase = true := by
  cases phase <;> first | rfl | cases h

/-- A session that is alive is unseen. -/
theorem Orderly.unseen (h : Orderly s) {p : Str} (halive : (s.heap p).alive = true) :
    Unseen p s := by
  refine ⟨fun i f hf hsession => ?_, ?_⟩
  · by_contra hpast
    have hclaim := claimMade_of_pastSnapshot (Bool.eq_true_of_not_eq_false hpast)
    have hdead := ((h.threads i).frameOk f hf).dead hclaim
    rw [hsession, halive] at hdead
    cases hdead
  · by_contra hcomplete
    have hdead := (h.complete p (Bool.eq_true_of_not_eq_false hcomplete)).dead
    rw [halive] at hdead
    cases hdead

/-- A change that brings no call past its snapshot. -/
theorem Unseen.congr {p : Str} (h : Unseen p s) (hthreads : s'.threads = s.threads)
    (hcomplete : (s'.heap p).cleanupComplete = (s.heap p).cleanupComplete) : Unseen p s' := by
  refine ⟨fun i f hf => ?_, hcomplete.trans h.incomplete⟩
  rw [hthreads] at hf
  exact h.frames i f hf

theorem Unseen.setThread {p : Str} (h : Unseen p s) (i : ℕ) {stack : List Frame}
    (hstack : ∀ f ∈ stack, f.session = p → pastSnapshot f.phase = false) :
    Unseen p (s.setThread i stack) := by
  refine ⟨fun j f hf => ?_, h.incomplete⟩
  by_cases hj : j = i
  · subst hj
    simp only [State.setThread, Function.update_self] at hf
    exact hstack f hf
  · simp only [State.setThread, Function.update_of_ne hj] at hf
    exact h.frames j f hf

theorem Unseen.modify {p : Str} (h : Unseen p s) (id : Str) {f : Session → Session}
    (hf : (f (s.heap id)).cleanupComplete = (s.heap id).cleanupComplete) :
    Unseen p (s.modify id f) :=
  h.congr rfl (State.modify_heap_proj s id f hf p)

theorem finalizeStep_unseen {p : Str} (i : ℕ) (eventId : Uuid) (now : ℕ) (h : Unseen p s) :
    Unseen p (finalizeStep i eventId now s) := by
  unfold finalizeStep
  split
  · exact h
  next id phase below hthread =>
  have hframes := h.frames i
  rw [hthread] at hframes
  have hbelow : ∀ f ∈ below, f.session = p → pastSnapshot f.phase = false := fun f hf =>
    hframes f (List.mem_cons_of_mem _ hf)
  have hgoto : ∀ phase', (id = p → pastSnapshot phase' = false) →
      ∀ f ∈ (⟨id, phase'⟩ : Frame) :: below, f.session = p → pastSnapshot f.phase = false := by
    intro phase' hphase f hf hsession
    rcases List.mem_cons.mp hf with rfl | hf
    · exact hphase hsession
    · exact hbelow f hf hsession
  have hself : id = p → pastSnapshot phase = false := fun hid =>
    hframes ⟨id, phase⟩ List.mem_cons_self hid
  rcases phase with trigger | attempt | _ | _ | _ | _ | ⟨_ | ⟨child, rest⟩⟩ | _ | _ <;> dsimp only
  case claiming => exact (h.modify id rfl).setThread i (hgoto _ fun _ => rfl)
  case publishing =>
    split_ifs
    · exact (h.modify id rfl).setThread i (hgoto _ fun _ => rfl)
    · exact h.setThread i (hgoto _ fun _ => rfl)
  case waiting =>
    split
    · exact (h.modify id rfl).setThread i (hgoto _ fun _ => rfl)
    · exact h.modify id rfl
  case swapping =>
    split_ifs
    · exact h.setThread i (hgoto _ fun _ => rfl)
    · exact (h.modify id rfl).setThread i (hgoto _ fun _ => rfl)
  case awaiting =>
    split_ifs
    · exact (h.setThread i hbelow).congr rfl rfl
    · exact h
  case cleaning => exact h
  case children.nil => exact h.setThread i (hgoto _ fun hid => (by cases hself hid))
  case children.cons =>
    refine h.setThread i fun f hf hsession => ?_
    rcases List.mem_cons.mp hf with rfl | hf
    · rfl
    · exact hgoto (.children rest) (fun hid => (by cases hself hid)) f hf hsession
  case removing => exact h
  case completing =>
    have hne : id ≠ p := fun hid => by cases hself hid
    have hmodified : Unseen p (s.modify id fun x => { x with cleanupComplete := true }) := by
      refine h.congr rfl ?_
      rw [State.modify_heap_of_ne _ _ _ hne.symm]
    exact (hmodified.setThread i hbelow).congr rfl rfl

theorem finalizeStep_threads_of_ne (s : State) {i j : ℕ} (eventId : Uuid) (now : ℕ) (hne : i ≠ j) :
    (finalizeStep i eventId now s).threads j = s.threads j := by
  have hset : ∀ (t : State) (stack : List Frame), (t.setThread i stack).threads j = t.threads j :=
    fun t stack => Function.update_of_ne hne.symm ..
  unfold finalizeStep
  split
  · rfl
  next id phase below _ =>
  rcases phase with trigger | attempt | _ | _ | _ | _ | ⟨_ | ⟨child, rest⟩⟩ | _ | _ <;> dsimp only
  case publishing => split_ifs <;> exact hset ..
  case waiting =>
    split
    · exact hset ..
    · rfl
  case swapping => split_ifs <;> exact hset ..
  case awaiting =>
    split_ifs
    · exact hset ..
    · rfl
  all_goals first | rfl | exact hset ..

theorem step_unseen {p : Str} (s : State) (a : UnlockedAction) (h : Unseen p s) :
    Unseen p (a.step s) := by
  cases a with
  | free action =>
    cases action with
    | finalize thread eventId now => exact finalizeStep_unseen thread eventId now h
    | _ =>
      rw [UnlockedAction.step, FreeAction.step]
      exact h.modify _ rfl
  | apply token data written =>
    obtain ⟨hheap, hthreads, -⟩ := apply_fields token data written s
    exact h.congr hthreads (by rw [UnlockedAction.step, hheap])
  | revoke token => exact h.congr rfl rfl

theorem interleave_unseen {p : Str} (hook : List UnlockedAction) (h : Unseen p s) :
    Unseen p (interleave hook s) :=
  Run.run_invariant step_unseen hook s h

/-- A call that is about to use the maps stays where it is. -/
theorem interleave_removing {i : ℕ} {id : Str} {below : List Frame} (hook : List UnlockedAction)
    (h : s.threads i = ⟨id, .removing⟩ :: below) :
    (interleave hook s).threads i = ⟨id, .removing⟩ :: below := by
  have hkept : ∀ (s : State) (a : UnlockedAction), s.threads i = ⟨id, .removing⟩ :: below →
      (UnlockedAction.step s a).threads i = ⟨id, .removing⟩ :: below := by
    intro s a h
    cases a with
    | free action =>
      cases action with
      | finalize thread eventId now =>
        by_cases hthread : thread = i
        · subst hthread
          simp only [UnlockedAction.step, FreeAction.step, finalizeStep, h]
        · exact (finalizeStep_threads_of_ne s eventId now hthread).trans h
      | _ => exact h
    | apply token data written => exact (congrFun (apply_fields token data written s).2.1 i).trans h
    | revoke token => exact h
  exact Run.run_invariant hkept hook s h

end LightTerminal.Server.Cascade
