import LightTerminal.Session.Lifecycle

/-! # Runs of the lifecycle publication

Any number of threads call the methods of one `LifecyclePublication`, in any order: an `Event` is
one critical section of such a call, together with what the call draws from outside (the fresh
event id, the clock) or is given. An identity commit keeps the mutex from `identity_commit_guard`
until its guard is dropped; while it does (`committing`), every other call blocks.

`run` collects what each event answered. The results are about arbitrary lists of events, that is
about every interleaving:

* `step_keeps`, `run_keeps`: the authority and the resolution of the state, once there, stay;
* `outcomes_agree`: every claim and every wait answers with the authority and the resolution of the
  state at the end of the run;
* `claimants_eq`: the number of claims that are told to be the claimant. -/

namespace LightTerminal.Session.Publication

open LightTerminal.Data.Text LightTerminal.Session.Lifecycle
open LightTerminal.Session.Lifecycle.PublicationState

/-- The shared state: the publication, the session's `alive` flag, and whether an identity commit
holds the mutex. -/
structure Shared where
  state : PublicationState
  alive : Bool
  committing : Bool

/-- A new session. -/
def Shared.init : Shared := ⟨.default, true, false⟩

/-- A critical section of a thread. `wait` is one turn of `wait_for_resolution`. -/
inductive Event where
  | claim (requested : FinalizeTrigger) (eventId : Uuid) (now : ℕ)
  | resolve (eventId : Uuid) (outcome : WriteOutcome)
  | wait (now : ℕ)
  | dropClaimResolutionGuard (eventId : Uuid) (armed : Bool)
  | markMonitorFailed
  | identityCommitGuard
  | dropIdentityCommitGuard
  deriving DecidableEq

/-- What the section answers. -/
inductive Outcome where
  | blocked
  | claimed (attempt : ClaimAttempt)
  | resolved (done : Bool)
  | waited (wait : Wait)
  | dropped
  | marked (done : Option Bool)
  | guard (granted : Bool)
  deriving DecidableEq

/-- One event while an identity commit holds the mutex. -/
def blockedStep (s : Shared) : Event → Shared × Outcome
  | .dropIdentityCommitGuard => ({ s with committing := false }, .dropped)
  | _ => (s, .blocked)

/-- One event that finds the mutex free. -/
def freeStep (s : Shared) : Event → Shared × Outcome
  | .claim requested eventId now =>
    let (attempt, state, alive) := s.state.claim requested eventId now s.alive
    ({ s with state, alive }, .claimed attempt)
  | .resolve eventId outcome =>
    let (done, state) := s.state.resolve eventId outcome
    ({ s with state }, .resolved done)
  | .wait now =>
    let (wait, state) := s.state.waitTurn now
    ({ s with state }, .waited wait)
  | .dropClaimResolutionGuard eventId armed =>
    ({ s with state := s.state.dropClaimResolutionGuard eventId armed }, .dropped)
  | .markMonitorFailed =>
    let (done, state) := s.state.markMonitorFailed
    ({ s with state }, .marked done)
  | .identityCommitGuard =>
    let granted := s.state.identityCommitGuard
    ({ s with committing := granted }, .guard granted)
  | .dropIdentityCommitGuard => (s, .dropped)

/-- One event on the shared state. -/
def step (s : Shared) (e : Event) : Shared × Outcome :=
  if s.committing then blockedStep s e else freeStep s e

/-- A run: the state after the events, and what they answered. -/
def run : Shared → List Event → Shared × List Outcome
  | s, [] => (s, [])
  | s, e :: es =>
    let (s', o) := step s e
    let (s'', os) := run s' es
    (s'', o :: os)

/-- The answers of the claims of a run. -/
def claims (os : List Outcome) : List ClaimAttempt :=
  os.filterMap fun | .claimed attempt => some attempt | _ => none

/-- The resolutions with which waits returned. -/
def resolutions (os : List Outcome) : List PublicationResolution :=
  os.filterMap fun | .waited (.returned resolution) => some resolution | _ => none

/-! ### One event -/

/-- The session is alive only as long as it is unclaimed, and an identity commit holds the mutex
of an unclaimed state. -/
structure Coherent (s : Shared) : Prop where
  dead : s.state.authority ≠ none → s.alive = false
  commit : s.committing = true → s.state.authority = none

theorem step_committing {s : Shared} (hs : s.committing = true) (e : Event) :
    step s e = blockedStep s e := if_pos hs

theorem step_free {s : Shared} (hs : s.committing = false) (e : Event) :
    step s e = freeStep s e := by
  unfold step
  rw [hs]
  exact if_neg Bool.false_ne_true

theorem blockedStep_state (s : Shared) (e : Event) :
    (blockedStep s e).1.state = s.state ∧ (blockedStep s e).1.alive = s.alive := by
  cases e <;> exact ⟨rfl, rfl⟩

theorem blockedStep_outcome (s : Shared) (e : Event) :
    (blockedStep s e).2 = .blocked ∨ (blockedStep s e).2 = .dropped := by
  cases e <;> simp [blockedStep]

theorem coherent_init : Coherent Shared.init := ⟨fun h => absurd rfl h, fun h => by cases h⟩

/-- What one event does, whatever it is: it keeps authority and resolution, and it keeps the
session dead. -/
structure Step (s s' : Shared) : Prop where
  keeps : Keeps s.state s'.state
  dead : s.alive = false → s'.alive = false

theorem step_keeps (s : Shared) (e : Event) : Step s (step s e).1 := by
  unfold step
  split_ifs
  · obtain ⟨hstate, halive⟩ := blockedStep_state s e
    refine ⟨?_, fun h => halive.trans h⟩
    rw [hstate]
    exact Keeps.refl _
  · cases e with
    | claim requested eventId now =>
      refine ⟨keeps_claim requested eventId now s.state s.alive, fun h => ?_⟩
      have halive := (claim_spec requested eventId now s.state s.alive).2.2.2
      rw [h, Bool.and_false] at halive
      simpa only [freeStep, h] using halive
    | resolve eventId outcome => exact ⟨keeps_resolve eventId outcome s.state, fun h => h⟩
    | wait now => exact ⟨keeps_waitTurn now s.state, fun h => h⟩
    | dropClaimResolutionGuard eventId armed =>
      exact ⟨keeps_dropClaimResolutionGuard eventId armed s.state, fun h => h⟩
    | markMonitorFailed => exact ⟨keeps_markMonitorFailed s.state, fun h => h⟩
    | identityCommitGuard => exact ⟨Keeps.refl _, fun h => h⟩
    | dropIdentityCommitGuard => exact ⟨Keeps.refl _, fun h => h⟩

/-- Only a claim gives an unclaimed state an authority. -/
theorem authority_of_not_claim {s : Shared} {e : Event}
    (he : ∀ requested eventId now, e ≠ .claim requested eventId now)
    (h : s.state.authority = none) : (step s e).1.state.authority = none := by
  rcases hs : s.state with p | ⟨id, trigger, deadline⟩ | r
  case claimed => rw [hs] at h; cases h
  case resolved => rw [hs] at h; cases h
  unfold step
  split_ifs
  · rw [(blockedStep_state s e).1]
    exact h
  · cases e with
    | claim requested eventId now => exact absurd rfl (he requested eventId now)
    | resolve eventId outcome => simp only [freeStep, hs]; rfl
    | wait now => simp only [freeStep, hs]; rfl
    | dropClaimResolutionGuard eventId armed =>
      simp only [freeStep, hs, dropClaimResolutionGuard]
      split_ifs <;> rfl
    | markMonitorFailed =>
      simp only [freeStep, hs]
      cases p <;> rfl
    | identityCommitGuard => exact h
    | dropIdentityCommitGuard => exact h

/-- The answer to a claim that was not blocked. -/
theorem step_claim {s : Shared} (hs : s.committing = false) (requested : FinalizeTrigger)
    (eventId : Uuid) (now : ℕ) :
    ∃ attempt, (step s (.claim requested eventId now)).2 = .claimed attempt ∧
      (step s (.claim requested eventId now)).1.state.authority =
        some (attempt.eventId, attempt.authoritativeTrigger) ∧
      attempt.claimant = s.state.authority.isNone ∧
      (attempt.claimant = true →
        attempt.eventId = eventId ∧ attempt.authoritativeTrigger = requested) ∧
      (step s (.claim requested eventId now)).1.alive = (!s.state.authority.isNone && s.alive) ∧
      (step s (.claim requested eventId now)).1.committing = false := by
  obtain ⟨h1, h2, h3, h4⟩ := claim_spec requested eventId now s.state s.alive
  refine ⟨(s.state.claim requested eventId now s.alive).1, ?_⟩
  rw [step_free hs]
  exact ⟨rfl, h1, h2, h3, h4, hs⟩

/-- A claim answers only a call of `claim`, which found the mutex free. -/
theorem claimed_iff {s : Shared} {e : Event} :
    (∃ attempt, (step s e).2 = .claimed attempt) ↔
      s.committing = false ∧ ∃ requested eventId now, e = .claim requested eventId now := by
  constructor
  · rintro ⟨attempt, ho⟩
    by_cases hc : s.committing = true
    · rw [step_committing hc] at ho
      rcases blockedStep_outcome s e with h | h <;> rw [h] at ho <;> cases ho
    · rw [Bool.not_eq_true] at hc
      rw [step_free hc] at ho
      refine ⟨hc, ?_⟩
      cases e with
      | claim requested eventId now => exact ⟨requested, eventId, now, rfl⟩
      | _ => simp [freeStep] at ho
  · rintro ⟨hc, requested, eventId, now, rfl⟩
    obtain ⟨attempt, ho, -⟩ := step_claim hc requested eventId now
    exact ⟨attempt, ho⟩

theorem step_coherent {s : Shared} (h : Coherent s) (e : Event) : Coherent (step s e).1 := by
  by_cases hc : s.committing = true
  · -- nothing happens but the release of the mutex
    rw [step_committing hc]
    obtain ⟨hstate, halive⟩ := blockedStep_state s e
    refine ⟨fun hne => ?_, fun _ => ?_⟩
    · rw [halive]
      rw [hstate] at hne
      exact h.dead hne
    · rw [hstate]
      exact h.commit hc
  · rw [Bool.not_eq_true] at hc
    cases e with
    | claim requested eventId now =>
      obtain ⟨attempt, -, -, -, -, halive, hcommit⟩ := step_claim hc requested eventId now
      refine ⟨fun _ => ?_, fun hf => by rw [hcommit] at hf; cases hf⟩
      rw [halive]
      cases ha : s.state.authority with
      | none => rfl
      | some a => simpa using h.dead (by rw [ha]; simp)
    | identityCommitGuard =>
      rw [step_free hc]
      refine ⟨h.dead, fun hg => ?_⟩
      have hnone : s.state.authority.isNone = true := by
        rw [← identityCommitGuard_eq]
        exact hg
      exact Option.isNone_iff_eq_none.mp hnone
    | _ =>
      refine ⟨fun hne => ?_, fun hf => ?_⟩
      · have hbefore : s.state.authority ≠ none := fun hnone =>
          hne (authority_of_not_claim (by simp) hnone)
        exact (step_keeps s _).dead (h.dead hbefore)
      · rw [step_free hc] at hf
        simp [freeStep, hc] at hf

/-- The answers of one event agree with the state it leaves. -/
theorem step_outcome (s : Shared) (e : Event) :
    (∀ attempt, (step s e).2 = .claimed attempt → (step s e).1.state.authority =
        some (attempt.eventId, attempt.authoritativeTrigger)) ∧
      ∀ r, (step s e).2 = .waited (.returned r) → (step s e).1.state = .resolved r := by
  by_cases hc : s.committing = true
  · rw [step_committing hc]
    rcases blockedStep_outcome s e with h | h <;> simp [h]
  · rw [Bool.not_eq_true] at hc
    cases e with
    | claim requested eventId now =>
      obtain ⟨attempt, ho, ha, -⟩ := step_claim hc requested eventId now
      refine ⟨fun attempt' h => ?_, fun r h => ?_⟩
      · rw [ho] at h
        cases h
        exact ha
      · rw [ho] at h; cases h
    | wait now =>
      rw [step_free hc]
      refine ⟨fun attempt h => (by cases h), fun r h => ?_⟩
      exact waitTurn_returned (Outcome.waited.inj h)
    | _ => rw [step_free hc]; simp [freeStep]

/-! ### Runs -/

theorem run_cons (s : Shared) (e : Event) (es : List Event) :
    run s (e :: es) = ((run (step s e).1 es).1, (step s e).2 :: (run (step s e).1 es).2) := rfl

theorem run_append : ∀ (s : Shared) (es es' : List Event),
    (run s (es ++ es')).1 = (run (run s es).1 es').1
  | _, [], _ => rfl
  | s, e :: es, es' => run_append (step s e).1 es es'

theorem run_keeps : ∀ (s : Shared) (es : List Event), Step s (run s es).1
  | s, [] => ⟨Keeps.refl _, fun h => h⟩
  | s, e :: es => by
    have h1 := step_keeps s e
    have h2 := run_keeps (step s e).1 es
    exact ⟨h1.keeps.trans h2.keeps, fun h => h2.dead (h1.dead h)⟩

theorem run_coherent : ∀ (s : Shared) (es : List Event), Coherent s → Coherent (run s es).1
  | _, [], h => h
  | s, e :: es, h => run_coherent (step s e).1 es (step_coherent h e)

/-- **All answers agree** with the state at the end of the run. -/
theorem outcomes_agree : ∀ (s : Shared) (es : List Event),
    (∀ attempt ∈ claims (run s es).2, (run s es).1.state.authority =
        some (attempt.eventId, attempt.authoritativeTrigger)) ∧
      ∀ r ∈ resolutions (run s es).2, (run s es).1.state = .resolved r
  | s, [] => by simp [run, claims, resolutions]
  | s, e :: es => by
    obtain ⟨ih1, ih2⟩ := outcomes_agree (step s e).1 es
    obtain ⟨ho1, ho2⟩ := step_outcome s e
    have hk := (run_keeps (step s e).1 es).keeps
    rw [run_cons]
    refine ⟨fun attempt ha => ?_, fun r hr => ?_⟩
    · simp only [claims, List.mem_filterMap, List.mem_cons] at ha ih1
      obtain ⟨o, ho | ho, hoa⟩ := ha
      · subst ho
        split at hoa
        · next heq => cases hoa; exact hk.authority _ (ho1 attempt heq)
        · cases hoa
      · exact ih1 attempt ⟨o, ho, hoa⟩
    · simp only [resolutions, List.mem_filterMap, List.mem_cons] at hr ih2
      obtain ⟨o, ho | ho, hor⟩ := hr
      · subst ho
        split at hor
        · next heq => cases hor; exact hk.resolution _ (ho2 r heq)
        · cases hor
      · exact ih2 r ⟨o, ho, hor⟩

/-- The number of claims of a run that are told to be the claimant: none if the state was claimed
already or nothing is claimed, else one. -/
theorem claimants_eq : ∀ (s : Shared) (es : List Event),
    ((claims (run s es).2).filter (·.claimant)).length =
      if s.state.authority = none ∧ claims (run s es).2 ≠ [] then 1 else 0
  | s, [] => by simp [run, claims]
  | s, e :: es => by
    have ih := claimants_eq (step s e).1 es
    rw [run_cons]
    by_cases hclaim : ∃ attempt, (step s e).2 = .claimed attempt
    · obtain ⟨hc, requested, eventId, now, rfl⟩ := claimed_iff.mp hclaim
      obtain ⟨attempt, ho, hauth, hclaimant, -⟩ := step_claim hc requested eventId now
      have hcons : claims ((step s (.claim requested eventId now)).2 ::
          (run (step s (.claim requested eventId now)).1 es).2) =
          attempt :: claims (run (step s (.claim requested eventId now)).1 es).2 := by
        rw [ho]; rfl
      rw [if_neg (by rw [hauth]; simp)] at ih
      rw [hcons]
      cases ha : s.state.authority with
      | none =>
        rw [ha] at hclaimant
        simp [hclaimant, ih]
      | some a =>
        rw [ha] at hclaimant
        simp [hclaimant, ih]
    · have hskip : claims ((step s e).2 :: (run (step s e).1 es).2) =
          claims (run (step s e).1 es).2 := by
        unfold claims
        rw [List.filterMap_cons_none]
        split
        · next attempt heq => exact absurd ⟨attempt, heq⟩ hclaim
        · rfl
      rw [hskip, ih]
      have hiff : (step s e).1.state.authority = none ↔ s.state.authority = none := by
        constructor
        · intro h
          by_contra hne
          obtain ⟨a, ha⟩ := Option.ne_none_iff_exists'.mp hne
          rw [(step_keeps s e).keeps.authority a ha] at h
          cases h
        · intro h
          by_cases hc : s.committing = true
          · rw [step_committing hc, (blockedStep_state s e).1]
            exact h
          · rw [Bool.not_eq_true] at hc
            refine authority_of_not_claim (fun requested eventId now he => ?_) h
            exact hclaim (claimed_iff.mpr ⟨hc, requested, eventId, now, he⟩)
      simp only [hiff]

/-- What an event does to a claimed state: event id, trigger and resolution stay, the session stays
dead, the guard is refused, a failed monitor or a stale `resolve` changes nothing, and a waiter
sleeps only before the deadline. -/
structure AfterClaim (s : Shared) (e : Event) : Prop where
  authority : (step s e).1.state.authority = s.state.authority
  dead : s.alive = false ∧ (step s e).1.alive = false
  refused : e = .identityCommitGuard → step s e = (s, .guard false)
  monitor : e = .markMonitorFailed → step s e = (s, .marked (some false))
  resolution : ∀ r, s.state = .resolved r → (step s e).1.state = .resolved r
  stale : ∀ eventId outcome, e = .resolve eventId outcome →
    (∀ trigger deadline, s.state ≠ .claimed eventId trigger deadline) →
      step s e = (s, .resolved false)
  waits : ∀ now, e = .wait now →
    (∃ r, (step s e).2 = .waited (.returned r)) ∨
      (step s e).2 = .waited .asleep ∧
        ∃ eventId trigger deadline, s.state = .claimed eventId trigger deadline ∧ now < deadline

theorem step_afterClaim {s : Shared} (h : Coherent s) {a : Uuid × FinalizeTrigger}
    (ha : s.state.authority = some a) (e : Event) : AfterClaim s e := by
  have hne : s.state.authority ≠ none := by rw [ha]; simp
  have hc : s.committing = false := by
    by_contra hc
    exact hne (h.commit (Bool.eq_true_of_not_eq_false hc))
  have hdead := h.dead hne
  have hkeeps := step_keeps s e
  refine ⟨?_, ⟨hdead, hkeeps.dead hdead⟩, ?_, ?_, hkeeps.keeps.resolution, ?_, ?_⟩
  · rw [hkeeps.keeps.authority a ha, ha]
  · rintro rfl
    have hguard : s.state.identityCommitGuard = false := by
      rw [identityCommitGuard_eq, ha]; rfl
    rw [step_free hc]
    simp only [freeStep, hguard]
    rw [← hc]
  · rintro rfl
    rw [step_free hc]
    simp only [freeStep, markMonitorFailed_of_authority ha]
  · rintro eventId outcome rfl hstale
    rw [step_free hc]
    simp only [freeStep, resolve_stale hstale]
  · rintro now rfl
    rw [step_free hc]
    rcases hs : s.state with p | ⟨id, trigger, deadline⟩ | r
    · rw [hs] at ha; cases ha
    · by_cases hnow : deadline ≤ now
      · exact .inl ⟨⟨id, trigger, .timeout⟩, by simp [freeStep, hs, waitTurn, hnow]⟩
      · exact .inr ⟨by simp [freeStep, hs, waitTurn, hnow],
          id, trigger, deadline, rfl, Nat.lt_of_not_le hnow⟩
    · exact .inl ⟨r, by simp [freeStep, hs, waitTurn]⟩

/-- **Single authoritative finalization.** In every run from a new session: at most one claim is
the claimant's, and exactly one if anything is claimed; its event id and trigger are those it asked
for, and every claim and every wait answers with them; all waits return one resolution; and after
the first claim every further event leaves it at that. -/
theorem single_authoritative_finalization (es : List Event) :
    ((claims (run .init es).2).filter (·.claimant)).length =
        (if claims (run .init es).2 = [] then 0 else 1) ∧
      (∀ c ∈ claims (run .init es).2, ∀ c' ∈ claims (run .init es).2,
        c'.eventId = c.eventId ∧ c'.authoritativeTrigger = c.authoritativeTrigger) ∧
      (∀ r ∈ resolutions (run .init es).2, ∀ r' ∈ resolutions (run .init es).2, r' = r) ∧
      (∀ c ∈ claims (run .init es).2, ∀ r ∈ resolutions (run .init es).2,
        r.eventId = c.eventId ∧ r.trigger = c.authoritativeTrigger) ∧
      (∀ before requested eventId now attempt,
        before ++ [.claim requested eventId now] <+: es →
        (step (run .init before).1 (.claim requested eventId now)).2 = .claimed attempt →
        attempt.claimant = true →
          attempt.eventId = eventId ∧ attempt.authoritativeTrigger = requested) ∧
      ∀ before e, before ++ [e] <+: es → claims (run .init before).2 ≠ [] →
        AfterClaim (run .init before).1 e := by
  obtain ⟨hclaims, hresolutions⟩ := outcomes_agree .init es
  refine ⟨?_, fun c hmem c' hmem' => ?_, fun r hr r' hr' => ?_, fun c hmem r hr => ?_, ?_, ?_⟩
  · rw [claimants_eq]
    have hnone : Shared.init.state.authority = none := rfl
    by_cases hnil : claims (run .init es).2 = []
    · rw [if_pos hnil, if_neg (fun h => h.2 hnil)]
    · rw [if_neg hnil, if_pos ⟨hnone, hnil⟩]
  · have heq := (hclaims c' hmem').symm.trans (hclaims c hmem)
    simpa using heq
  · have heq := (hresolutions r' hr').symm.trans (hresolutions r hr)
    exact PublicationState.resolved.inj heq
  · have heq := hclaims c hmem
    rw [hresolutions r hr] at heq
    simpa [authority] using heq
  · rintro before requested eventId now attempt - ho hclaimant
    have hc := (claimed_iff.mp ⟨attempt, ho⟩).1
    obtain ⟨attempt', ho', -, -, hown, -⟩ := step_claim hc requested eventId now
    rw [ho] at ho'
    cases ho'
    exact hown hclaimant
  · rintro before e - hne
    obtain ⟨c, hmem⟩ := List.exists_mem_of_ne_nil _ hne
    have ha := (outcomes_agree .init before).1 c hmem
    exact step_afterClaim (run_coherent .init before coherent_init) ha e

end LightTerminal.Session.Publication
