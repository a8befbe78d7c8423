import LightTerminal.LaunchRegistry.Transition

/-! # Phases of a tournament

The phases, which of them may follow which, and the abstract state of a tournament: a phase with the
generation that every change of it increments (`speculation.rs`, `protocol.rs`).

A tournament is over when it is `Selected` or `RolledBack`. The rollback-only phases and `RolledBack`
are closed under transitions (`rollback_closed`), and `Selected` has a single way in
(`selected_predecessor`, `finalizingWinner_predecessor`, ...), which is all the later modules use of
the transition table. -/

namespace LightTerminal.Speculation.Phase

open LightTerminal.Library.Procedure
open LightTerminal.LaunchRegistry.Transition (checkedSucc)

/-- `SpeculationPhase`. -/
inductive SpeculationPhase where
  | prepared
  | armed
  | starting
  | ready
  | goPending
  | running
  | resultPending
  | pendingFinalize
  | finalizingLoser
  | winnerSelectionPending
  | finalizingWinner
  | rollbackRequired
  | decisionUncertain
  | rollbackPending
  | selected
  | rolledBack
  deriving DecidableEq, Repr

/-- `SpeculationPhase::is_terminal`. -/
def SpeculationPhase.isTerminal : SpeculationPhase → Bool
  | .selected | .rolledBack => true
  | _ => false

/-- `SpeculationPhase::is_rollback_only`. -/
def SpeculationPhase.isRollbackOnly : SpeculationPhase → Bool
  | .rollbackRequired | .decisionUncertain | .rollbackPending => true
  | _ => false

/-- `is_legal_transition`. -/
def isLegalTransition : SpeculationPhase → SpeculationPhase → Bool
  | .prepared, next => next = .armed ∨ next = .rollbackPending
  | .armed, next => next = .starting ∨ next = .rollbackPending ∨ next = .rollbackRequired
  | .starting, next => next = .ready ∨ next = .rollbackPending ∨ next = .rollbackRequired
  | .ready, next => next = .goPending ∨ next = .rollbackPending
  | .goPending, next => next = .running ∨ next = .rollbackPending ∨ next = .decisionUncertain
  | .running, next => next = .resultPending ∨ next = .rollbackPending ∨ next = .rollbackRequired
  | .resultPending, next => next = .pendingFinalize ∨ next = .rollbackPending ∨ next = .rollbackRequired
  | .pendingFinalize, next => next = .finalizingLoser ∨ next = .rollbackPending ∨ next = .rollbackRequired
  | .finalizingLoser, next =>
    next = .winnerSelectionPending ∨ next = .rollbackRequired ∨ next = .decisionUncertain
  | .winnerSelectionPending, next =>
    next = .finalizingWinner ∨ next = .rollbackRequired ∨ next = .decisionUncertain
  | .finalizingWinner, next => next = .selected ∨ next = .rollbackRequired ∨ next = .decisionUncertain
  | .rollbackRequired, next => next = .rollbackPending ∨ next = .rollbackRequired
  | .decisionUncertain, next => next = .rollbackPending ∨ next = .decisionUncertain
  | .rollbackPending, next => next = .rolledBack ∨ next = .rollbackRequired
  | .selected, next => next = .selected
  | .rolledBack, next => next = .rolledBack

theorem checkedSucc_eq_some {n m : ℕ} : checkedSucc n = some m ↔ n + 1 < 2 ^ 64 ∧ n + 1 = m := by
  unfold checkedSucc
  split_ifs with h
  · rw [Option.some_inj, and_iff_right h]
  · simp only [false_iff, not_and]
    exact fun h' => absurd h' h

/-- `TransitionError`. -/
inductive TransitionError where
  | staleGeneration
  | illegalTransition
  | generationExhausted
  deriving DecidableEq, Repr

/-- `TransitionError::code`. -/
def TransitionError.code : TransitionError → String
  | .staleGeneration => "stale_generation"
  | .illegalTransition => "illegal_transition"
  | .generationExhausted => "generation_exhausted"

/-- `TournamentState`. -/
structure TournamentState where
  phase : SpeculationPhase
  generation : ℕ
  deriving DecidableEq, Repr

/-- `TournamentState::transition`. -/
def TournamentState.transition (state : TournamentState) (expectedGeneration : ℕ)
    (next : SpeculationPhase) : Except TransitionError TournamentState := do
  require (expectedGeneration = state.generation) .staleGeneration
  if state.phase = next ∧ state.phase.isTerminal then
    return state
  require (isLegalTransition state.phase next) .illegalTransition
  let generation ← expect (checkedSucc state.generation) .generationExhausted
  return { phase := next, generation }

/-- When a transition succeeds: a terminal phase is confirmed, or the phase moves on. -/
theorem TournamentState.transition_eq_ok {state state' : TournamentState} {generation : ℕ}
    {next : SpeculationPhase} :
    state.transition generation next = .ok state' ↔
      generation = state.generation ∧
        if state.phase = next ∧ state.phase.isTerminal = true then state' = state
        else isLegalTransition state.phase next = true ∧ state.generation + 1 < 2 ^ 64 ∧
          state' = ⟨next, state.generation + 1⟩ := by
  unfold TournamentState.transition
  rw [bind_eq_ok, exists_unit, require_eq_ok]
  refine and_congr_right fun _ => ?_
  split_ifs with hconfirmed
  · rw [pure_eq_ok]
    exact eq_comm
  · simp only [bind_eq_ok, exists_unit, require_eq_ok, expect_eq_ok, checkedSucc_eq_some, pure_eq_ok]
    refine and_congr_right fun _ => ?_
    constructor
    · rintro ⟨_, ⟨hbound, rfl⟩, rfl⟩
      exact ⟨hbound, rfl⟩
    · rintro ⟨hbound, rfl⟩
      exact ⟨_, ⟨hbound, rfl⟩, rfl⟩

/-! ### The transition table -/

variable {p q : SpeculationPhase}

/-- A tournament that is being rolled back, or is. -/
def SpeculationPhase.isRollback (p : SpeculationPhase) : Bool :=
  p.isRollbackOnly || p = .rolledBack

/-- There is no way out of a rollback. -/
theorem rollback_closed (h : isLegalTransition p q = true) (hp : p.isRollback = true) :
    q.isRollback = true := by
  revert h hp
  cases p <;> cases q <;> decide

theorem selected_predecessor (h : isLegalTransition p .selected = true) (hp : p ≠ .selected) :
    p = .finalizingWinner := by
  revert h hp
  cases p <;> decide

theorem finalizingWinner_predecessor (h : isLegalTransition p .finalizingWinner = true) :
    p = .winnerSelectionPending := by
  revert h
  cases p <;> decide

theorem winnerSelectionPending_predecessor
    (h : isLegalTransition p .winnerSelectionPending = true) : p = .finalizingLoser := by
  revert h
  cases p <;> decide

theorem selected_not_rollback : SpeculationPhase.isRollback .selected = false := rfl

end LightTerminal.Speculation.Phase
