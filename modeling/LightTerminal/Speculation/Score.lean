import LightTerminal.Speculation.Record

/-! # The winner of a tournament

The winner is computed twice. `score_candidates` (`speculation.rs`) decides, from raw results, which
index the actor asks the store to record; `score_selected_index` (`speculation_registry.rs`) decides,
from the flag `eligible` of the stored candidates, whether the store takes it.

The flag excludes three exit categories that the raw results do not. A candidate with such a category
whose output is within the limit is `Disguised`: only `score_candidates` takes it for eligible.

* `compareCandidates_swap`, `scoreCandidates_swap`: the order of the candidates does not matter;
* `winners_agree_iff`: the two computations agree exactly if every disguised candidate is outscored by
  an eligible one. -/

namespace LightTerminal.Speculation.Score

open LightTerminal.Library.Procedure LightTerminal.Speculation.Phase
open LightTerminal.Speculation.Record

/-- `CANDIDATE_COUNT`. -/
def candidateCount : ℕ := 2

/-- `CandidateResult`. -/
structure CandidateResult where
  inputIndex : ℕ
  exitSuccess : Option Bool
  elapsedNs : Option ℕ
  outputBytes : Option ℕ
  quiescent : Bool
  outputOverflowed : Bool
  deriving DecidableEq, Repr

/-- `CandidateResult::is_eligible`. -/
def CandidateResult.isEligible (result : CandidateResult) : Bool :=
  decide (result.inputIndex < candidateCount) && result.exitSuccess.isSome &&
    result.elapsedNs.isSome &&
    (result.outputBytes.any fun bytes => bytes ≤ maxCandidateOutputBytes) && result.quiescent &&
    !result.outputOverflowed

/-- `ScoreDecision`. -/
inductive ScoreDecision where
  | selected (index : ℕ)
  | rollback
  deriving DecidableEq, Repr

/-- `compare_candidates`. -/
def compareCandidates (left right : CandidateResult) : Option Ordering :=
  match left.isEligible, right.isEligible with
  | false, false => none
  | true, false => some .gt
  | false, true => some .lt
  | true, true =>
    some <| (compare left.exitSuccess right.exitSuccess).then <|
      (compare right.elapsedNs left.elapsedNs).then <|
        (compare right.outputBytes left.outputBytes).then <|
          compare right.inputIndex left.inputIndex

/-- `score_candidates`. -/
def scoreCandidates (candidates : Pair CandidateResult) : ScoreDecision :=
  if candidates.zero.inputIndex = candidates.one.inputIndex ∨
      ¬ candidates.All fun candidate => candidate.inputIndex < candidateCount then .rollback
  else
    match compareCandidates candidates.zero candidates.one with
    | none => .rollback
    | some .gt | some .eq => .selected candidates.zero.inputIndex
    | some .lt => .selected candidates.one.inputIndex

/-! ### What the actor persists and scores -/

/-- `ContainmentEvent`, as far as `collect_candidate_result` reads it. -/
inductive ContainmentEvent where
  | leaderExited (candidate : ℕ) (category : SpeculationExitCategory) (elapsedNs : ℕ)
  | outputLimitExceeded (candidate bytes : ℕ)
  | outputDrained (candidate bytes : ℕ)
  | other
  deriving DecidableEq, Repr

/-- The result that `collect_candidate_result` persists; an overflow has the category of one. -/
structure CollectedResult where
  category : SpeculationExitCategory
  elapsedNs : ℕ
  outputOverflowed : Bool
  outputBytes : ℕ
  overflow_category : outputOverflowed = true → category = .outputLimitExceeded
  deriving DecidableEq, Repr

/-- What `collect_candidate_result` waits for: the first event of the execution, the second one after
an overflow, and the end of the output. -/
structure ObservedEvents where
  first : ContainmentEvent
  afterOverflow : ContainmentEvent
  drained : ContainmentEvent
  deriving DecidableEq, Repr

/-- The drained output of a candidate. -/
def drainedBytes (candidate : ℕ) : ContainmentEvent → Except ServiceError ℕ
  | .outputDrained observed bytes =>
    if observed = candidate then .ok bytes else .error .evidenceUnavailable
  | _ => .error .evidenceUnavailable

/-- The result of `collect_candidate_result` from the events it observes. -/
def collectCandidateResult (candidate : ℕ) (events : ObservedEvents) :
    Except ServiceError CollectedResult :=
  match events.first with
  | .leaderExited observed category elapsedNs =>
    if observed = candidate then do
      let outputBytes ← drainedBytes candidate events.drained
      return { category, elapsedNs, outputOverflowed := false, outputBytes,
               overflow_category := fun h => by cases h }
    else .error .evidenceUnavailable
  | .outputLimitExceeded observed bytes =>
    if observed = candidate ∧ bytes = maxCandidateOutputBytes + 1 then
      match events.afterOverflow with
      | .leaderExited observed category elapsedNs =>
        if h : observed = candidate ∧ category = .outputLimitExceeded then do
          let outputBytes ← drainedBytes candidate events.drained
          return { category, elapsedNs, outputOverflowed := true, outputBytes,
                   overflow_category := fun _ => h.2 }
        else .error .evidenceUnavailable
      | _ => .error .evidenceUnavailable
    else .error .evidenceUnavailable
  | _ => .error .evidenceUnavailable

/-- `eligible` of `collect_candidate_result`. -/
def CollectedResult.eligible (result : CollectedResult) : Bool :=
  !result.outputOverflowed && decide (result.outputBytes ≤ maxCandidateOutputBytes) &&
    !result.category.excluded

/-- The status of a candidate with its result, as `collect_candidate_result` writes it. -/
def CollectedResult.persist (result : CollectedResult) (status : SpeculationCandidateStatus) :
    SpeculationCandidateStatus :=
  { status with
    resultAccepted := true
    exitSuccess := some (result.category = .exitedZero)
    exitCategory := some result.category
    elapsedNs := some result.elapsedNs
    outputBytes := some result.outputBytes
    eligible := result.eligible }

/-- The `CandidateResult` that `run_to_pending_finalize` makes of a candidate. -/
def candidateResult (record : TournamentRecord) (i : Fin 2) : CandidateResult :=
  let candidate := record.status.candidates.get i
  { inputIndex := i.val
    exitSuccess := candidate.exitSuccess
    elapsedNs := candidate.elapsedNs
    outputBytes := candidate.outputBytes
    quiescent := (record.cgroups.get i).lifecycle = .forward .payloadEmpty
    outputOverflowed := candidate.outputBytes.any fun bytes => maxCandidateOutputBytes < bytes }

/-- The decision of `run_to_pending_finalize`. -/
def decision (record : TournamentRecord) : ScoreDecision :=
  scoreCandidates ⟨candidateResult record 0, candidateResult record 1⟩

/-- The record that `run_to_pending_finalize` writes for a selected candidate. -/
def withSelected (record : TournamentRecord) (selected : ℕ) : TournamentRecord :=
  { record with status :=
    { record.status with generation := record.status.generation + 1, selectedIndex := some selected } }

/-! ### The order of the candidates -/

theorem compareCandidates_swap (left right : CandidateResult) :
    compareCandidates right left = (compareCandidates left right).map Ordering.swap := by
  unfold compareCandidates
  cases left.isEligible <;> cases right.isEligible
  · rfl
  · rfl
  · rfl
  · simp only [Option.map_some, Ordering.swap_then, ← Std.OrientedOrd.eq_swap]

/-- Candidates with different indices never score the same. -/
theorem compareCandidates_ne_eq {left right : CandidateResult}
    (h : left.inputIndex ≠ right.inputIndex) : compareCandidates left right ≠ some .eq := by
  unfold compareCandidates
  cases left.isEligible <;> cases right.isEligible
  · simp
  · simp
  · simp
  · simp only [ne_eq, Option.some.injEq, Ordering.then_eq_eq, Std.LawfulEqOrd.compare_eq_iff_eq]
    exact fun hall => h hall.2.2.2.symm

/-- `score_candidates` gives the same index for the candidates in the other order. -/
theorem scoreCandidates_swap (a b : CandidateResult) :
    scoreCandidates ⟨b, a⟩ = scoreCandidates ⟨a, b⟩ := by
  unfold scoreCandidates Pair.All
  by_cases hindex : a.inputIndex = b.inputIndex
  · rw [if_pos (Or.inl hindex.symm), if_pos (Or.inl hindex)]
  by_cases hlt : a.inputIndex < candidateCount ∧ b.inputIndex < candidateCount
  · have hlt' : b.inputIndex < candidateCount ∧ a.inputIndex < candidateCount := ⟨hlt.2, hlt.1⟩
    have hne := compareCandidates_ne_eq hindex
    rw [if_neg (by rintro (h | h); exacts [hindex h.symm, h hlt']),
      if_neg (by rintro (h | h); exacts [hindex h, h hlt])]
    rw [compareCandidates_swap a b]
    rcases hcompare : compareCandidates a b with _ | (_ | _ | _)
    · rfl
    · rfl
    · exact absurd hcompare hne
    · rfl
  · have hlt' : ¬ (b.inputIndex < candidateCount ∧ a.inputIndex < candidateCount) := by
      rintro ⟨hb, ha⟩
      exact hlt ⟨ha, hb⟩
    rw [if_pos (Or.inr hlt'), if_pos (Or.inr hlt)]

/-! ### The two computations -/

variable {record : TournamentRecord} {results : Pair CollectedResult}

/-- A record in which both results are collected, at the point where they are scored. -/
structure Collected (record : TournamentRecord) (results : Pair CollectedResult) : Prop where
  valid : record.Valid
  phase : record.status.phase = .resultPending
  quiescent : ∀ i, (record.cgroups.get i).lifecycle = .forward .payloadEmpty
  persisted : ∀ i, ∃ status, record.status.candidates.get i = (results.get i).persist status

/-- The drained output is within the limit. -/
def CollectedResult.within (result : CollectedResult) : Bool :=
  result.outputBytes ≤ maxCandidateOutputBytes

/-- A result that only `score_candidates` takes for eligible. -/
def CollectedResult.Disguised (result : CollectedResult) : Prop :=
  result.category.excluded = true ∧ result.within = true

/-- The result of the candidate `i` scores higher than the result of the other one. -/
def Outscores (i : Fin 2) (result other : CollectedResult) : Prop :=
  (other.category ≠ .exitedZero ∧ result.category = .exitedZero) ∨
    ((result.category = .exitedZero ↔ other.category = .exitedZero) ∧
      (result.elapsedNs < other.elapsedNs ∨ result.elapsedNs = other.elapsedNs ∧
        (result.outputBytes < other.outputBytes ∨
          result.outputBytes = other.outputBytes ∧ i = 0)))

/-- Every disguised candidate is outscored by the other one, which is not disguised. -/
def DisguisedOutscored (results : Pair CollectedResult) : Prop :=
  ∀ i, (results.get i).Disguised → (results.get (1 - i)).category.excluded = false ∧
    (results.get (1 - i)).within = true ∧ Outscores (1 - i) (results.get (1 - i)) (results.get i)

/-- The comparison of two results that are both eligible. -/
def compareResults (left right : CollectedResult) : Ordering :=
  (compare (decide (left.category = .exitedZero)) (decide (right.category = .exitedZero))).then <|
    (compare right.elapsedNs left.elapsedNs).then <|
      (compare right.outputBytes left.outputBytes).then .gt

theorem eligible_eq (result : CollectedResult) :
    result.eligible = (result.within && !result.category.excluded) := by
  unfold CollectedResult.eligible CollectedResult.within
  rcases hover : result.outputOverflowed with _ | _
  · simp
  · simp [result.overflow_category hover, SpeculationExitCategory.excluded]

theorem compare_bool_eq_gt {p q : Prop} [Decidable p] [Decidable q] :
    compare (decide p) (decide q) = .gt ↔ p ∧ ¬ q := by
  by_cases hp : p <;> by_cases hq : q
  · simp [hp, hq]
  · simp only [hp, hq]
    decide
  · simp only [hp, hq]
    decide
  · simp [hp, hq]

theorem compare_bool_eq_eq {p q : Prop} [Decidable p] [Decidable q] :
    compare (decide p) (decide q) = .eq ↔ (p ↔ q) := by
  by_cases hp : p <;> by_cases hq : q <;> simp [hp, hq]

theorem compareResults_eq_gt {left right : CollectedResult} :
    compareResults left right = .gt ↔ Outscores 0 left right := by
  unfold compareResults Outscores
  simp only [Ordering.then_eq_gt, compare_bool_eq_gt, compare_bool_eq_eq, Nat.compare_eq_gt,
    Nat.compare_eq_eq, and_true, ne_eq]
  rw [and_comm (a := left.category = _), @eq_comm ℕ right.elapsedNs, @eq_comm ℕ right.outputBytes]

theorem compareResults_ne_eq (left right : CollectedResult) : compareResults left right ≠ .eq := by
  simp [compareResults, Ordering.then_eq_eq]

theorem compareResults_eq_lt {left right : CollectedResult} :
    compareResults left right = .lt ↔ Outscores 1 right left := by
  have hgt := @compareResults_eq_gt left right
  have hne := compareResults_ne_eq left right
  have hlt : compareResults left right = .lt ↔ ¬ Outscores 0 left right := by
    rw [← hgt]
    revert hne
    cases compareResults left right <;> decide
  rw [hlt]
  unfold Outscores
  by_cases hl : left.category = .exitedZero <;> by_cases hr : right.category = .exitedZero
  all_goals
    simp only [hl, hr, not_true_eq_false, not_false_eq_true, ne_eq, and_true, and_false, false_and,
      true_and, false_or, or_false, iff_true, iff_false, one_ne_zero, or_self]
    try omega

theorem isEligible_candidateResult (h : Collected record results) (i : Fin 2) :
    (candidateResult record i).isEligible = (results.get i).within := by
  obtain ⟨status, hstatus⟩ := h.persisted i
  have hindex : i.val < candidateCount := i.isLt
  simp [candidateResult, CandidateResult.isEligible, CollectedResult.within, hstatus,
    CollectedResult.persist, h.quiescent i, hindex]

/-- The comparison of two eligible candidates is that of their results. -/
theorem compareCandidates_eq (h : Collected record results) :
    compareCandidates (candidateResult record 0) (candidateResult record 1) =
      match results.zero.within, results.one.within with
      | false, false => none
      | true, false => some .gt
      | false, true => some .lt
      | true, true => some (compareResults results.zero results.one) := by
  obtain ⟨status0, hstatus0⟩ := h.persisted 0
  obtain ⟨status1, hstatus1⟩ := h.persisted 1
  have hscore : (compare (candidateResult record 0).exitSuccess
      (candidateResult record 1).exitSuccess).then
      ((compare (candidateResult record 1).elapsedNs (candidateResult record 0).elapsedNs).then
        ((compare (candidateResult record 1).outputBytes (candidateResult record 0).outputBytes).then
          (compare (candidateResult record 1).inputIndex (candidateResult record 0).inputIndex))) =
      compareResults results.zero results.one := by
    simp only [candidateResult, hstatus0, hstatus1, CollectedResult.persist]
    rfl
  unfold compareCandidates
  rw [isEligible_candidateResult h 0, isEligible_candidateResult h 1, hscore]
  rfl

theorem decision_eq (h : Collected record results) :
    decision record =
      match results.zero.within, results.one.within with
      | false, false => .rollback
      | true, false => .selected 0
      | false, true => .selected 1
      | true, true =>
        if compareResults results.zero results.one = .gt then .selected 0 else .selected 1 := by
  have hne := compareResults_ne_eq results.zero results.one
  unfold decision scoreCandidates
  rw [if_neg (by simp [candidateResult, Pair.All, candidateCount]), compareCandidates_eq h]
  cases results.zero.within <;> cases results.one.within
  · rfl
  · rfl
  · rfl
  · revert hne
    cases compareResults results.zero results.one <;> simp [candidateResult]

theorem eligible_of_collected (h : Collected record results) (i : Fin 2) :
    (record.status.candidates.get i).eligible =
      ((results.get i).within && !(results.get i).category.excluded) := by
  obtain ⟨status, hstatus⟩ := h.persisted i
  rw [hstatus, ← eligible_eq]
  rfl

/-- The comparison of the stored candidates, eligible before ineligible. -/
theorem compareScore_eq (h : Collected record results) :
    compareScore record.status.candidates.zero record.status.candidates.one =
      (compare record.status.candidates.zero.eligible
        record.status.candidates.one.eligible).then (compareResults results.zero results.one) := by
  obtain ⟨status0, hstatus0⟩ := h.persisted 0
  obtain ⟨status1, hstatus1⟩ := h.persisted 1
  have hi0 := h.valid.core.status.header.index 0
  have hi1 := h.valid.core.status.header.index 1
  simp only [Pair.get] at hstatus0 hstatus1 hi0 hi1
  unfold compareScore
  rw [hi0, hi1]
  simp only [hstatus0, hstatus1, CollectedResult.persist]
  rfl

theorem scoreSelectedIndex_eq (h : Collected record results) :
    scoreSelectedIndex record.status.candidates =
      match record.status.candidates.zero.eligible, record.status.candidates.one.eligible with
      | false, false => none
      | true, false => some 0
      | false, true => some 1
      | true, true => if compareResults results.zero results.one = .gt then some 0 else some 1 := by
  have hne := compareResults_ne_eq results.zero results.one
  have hi0 : record.status.candidates.zero.index = 0 := h.valid.core.status.header.index 0
  have hi1 : record.status.candidates.one.index = 1 := h.valid.core.status.header.index 1
  unfold scoreSelectedIndex
  rw [compareScore_eq h, hi0, hi1]
  cases record.status.candidates.zero.eligible <;> cases record.status.candidates.one.eligible
  · rfl
  · rfl
  · rfl
  · revert hne
    cases compareResults results.zero results.one <;> simp

/-- The index that a decision selects. -/
def ScoreDecision.index : ScoreDecision → Option ℕ
  | .selected i => some i
  | .rollback => none

/-- The two computations name the same index exactly if no disguised candidate wins. -/
theorem decision_index_iff (h : Collected record results) :
    (decision record).index = scoreSelectedIndex record.status.candidates ↔
      DisguisedOutscored results := by
  have he0 : record.status.candidates.zero.eligible = _ := eligible_of_collected h 0
  have he1 : record.status.candidates.one.eligible = _ := eligible_of_collected h 1
  have hne := compareResults_ne_eq results.zero results.one
  have hcondition : DisguisedOutscored results ↔
      (results.zero.category.excluded = true ∧ results.zero.within = true →
        results.one.category.excluded = false ∧ results.one.within = true ∧
          compareResults results.zero results.one = .lt) ∧
      (results.one.category.excluded = true ∧ results.one.within = true →
        results.zero.category.excluded = false ∧ results.zero.within = true ∧
          compareResults results.zero results.one = .gt) := by
    unfold DisguisedOutscored
    rw [Fin.forall_fin_two, compareResults_eq_lt, compareResults_eq_gt]
    rfl
  rw [decision_eq h, scoreSelectedIndex_eq h, hcondition, he0, he1]
  simp only [Pair.get]
  -- what is left is a table over the two flags of each candidate and the comparison
  revert hne
  generalize compareResults results.zero results.one = o
  generalize results.zero.within = w0, results.one.within = w1,
    results.zero.category.excluded = x0, results.one.category.excluded = x1
  rcases w0 with _ | _ <;> rcases w1 with _ | _ <;> rcases x0 with _ | _ <;> rcases x1 with _ | _ <;>
    rcases o with _ | _ | _ <;> simp [ScoreDecision.index]

/-- The winner can be recorded if the store computes the same one. -/
theorem withSelected_valid (h : Collected record results) {i : ℕ}
    (hi : scoreSelectedIndex record.status.candidates = some i) : (withSelected record i).Valid := by
  have hcore := h.valid.core
  have hphase := h.phase
  have hle : i ≤ 1 := by
    have hindex0 : record.status.candidates.zero.index = 0 := hcore.status.header.index 0
    have hindex1 : record.status.candidates.one.index = 1 := hcore.status.header.index 1
    unfold scoreSelectedIndex at hi
    split_ifs at hi
    all_goals
      simp only [Option.some.injEq] at hi
      omega
  have hselection : (withSelected record i).status.SelectionValid := by
    have hphase' : (withSelected record i).status.phase = .resultPending := hphase
    unfold SpeculationStatus.SelectionValid
    rw [hphase', if_neg (by decide), if_neg (by decide)]
    rintro selected ⟨⟩
    exact ⟨hle, hi⟩
  have hheader : (withSelected record i).status.Header :=
    { hcore.status.header with generation := Nat.succ_ne_zero _ }
  exact
    { core :=
        { hcore with
          status :=
            { header := hheader
              candidates := hcore.status.candidates
              rollback := hcore.status.rollback
              selection := hselection } }
      completed := by
        have hclean : (withSelected record i).Clean ↔ record.Clean :=
          TournamentRecord.clean_congr (fun _ => rfl) rfl fun _ => rfl
        rw [hclean]
        exact h.valid.completed }

/-- The two computations of the winner agree, so that the winner is recorded. -/
structure WinnersAgree (record : TournamentRecord) : Prop where
  selected : ∀ i, decision record = .selected i ↔
    scoreSelectedIndex record.status.candidates = some i
  rollback : decision record = .rollback ↔ scoreSelectedIndex record.status.candidates = none
  accepted : ∀ i, decision record = .selected i → (withSelected record i).validate = .ok ()
  eligible : ∀ i : Fin 2, decision record = .selected i.val →
    (record.status.candidates.get i).eligible = true

/-- The candidate that the store selects is eligible. -/
theorem eligible_of_scoreSelectedIndex (h : Collected record results) {i : Fin 2}
    (hi : scoreSelectedIndex record.status.candidates = some i.val) :
    (record.status.candidates.get i).eligible = true := by
  rw [scoreSelectedIndex_eq h] at hi
  revert hi
  fin_cases i
  all_goals
    simp only [Pair.get]
    cases record.status.candidates.zero.eligible <;> cases record.status.candidates.one.eligible <;>
      simp

theorem winnersAgree_iff_index (h : Collected record results) :
    WinnersAgree record ↔ (decision record).index = scoreSelectedIndex record.status.candidates := by
  constructor
  · intro hagree
    rcases hdecision : decision record with i | _
    · exact ((hagree.selected i).mp hdecision).symm
    · exact (hagree.rollback.mp hdecision).symm
  · intro hindex
    have hselected : ∀ i, decision record = .selected i ↔
        scoreSelectedIndex record.status.candidates = some i := by
      intro i
      rw [← hindex]
      cases decision record <;> simp [ScoreDecision.index]
    refine ⟨hselected, ?_, ?_, ?_⟩
    · rw [← hindex]
      cases decision record <;> simp [ScoreDecision.index]
    · intro i hi
      exact TournamentRecord.validate_eq_ok.mpr (withSelected_valid h ((hselected i).mp hi))
    · intro i hi
      exact eligible_of_scoreSelectedIndex h ((hselected i.val).mp hi)

/-- The two computations of the winner agree exactly if every disguised candidate is outscored by the
other one, and `score_candidates` does not depend on the order of the candidates. -/
theorem winners_agree_iff (h : Collected record results) :
    (WinnersAgree record ↔ DisguisedOutscored results) ∧
      ∀ a b, scoreCandidates ⟨b, a⟩ = scoreCandidates ⟨a, b⟩ :=
  ⟨(winnersAgree_iff_index h).trans (decision_index_iff h), scoreCandidates_swap⟩

/-- The sample tournament when both candidates have run, with their results. -/
def sampleScored (results : Pair CollectedResult) : TournamentRecord :=
  let identity : DurableDirectoryIdentity := ⟨1, 2, 3, 4⟩
  let ran (candidate : SpeculationCandidateStatus) : SpeculationCandidateStatus :=
    { candidate with ready := true, readyElapsedNs := some 1, goReceived := true,
                     goReceivedElapsedNs := some 2 }
  let candidates := sampleRecord.status.candidates
  { sampleRecord with
    tournamentCgroup := { sampleRecord.tournamentCgroup with lifecycle := .created, domain := some identity }
    cgroups := sampleRecord.cgroups.map fun evidence =>
      { evidence with lifecycle := .forward .payloadEmpty, parent := some identity,
                      control := some identity, payload := some identity }
    status :=
      { sampleRecord.status with
        phase := .resultPending
        candidates := ⟨results.zero.persist (ran candidates.zero), results.one.persist (ran candidates.one)⟩ } }

/-- The result that `collect_candidate_result` makes of an exit that the runner cannot classify. -/
def incompleteResult : CollectedResult where
  category := .evidenceIncomplete
  elapsedNs := 100
  outputOverflowed := false
  outputBytes := 10
  overflow_category h := by cases h

/-- A candidate that exits with zero. -/
def zeroResult : CollectedResult where
  category := .exitedZero
  elapsedNs := 200
  outputOverflowed := false
  outputBytes := 20
  overflow_category h := by cases h

theorem sampleScored_collected {results : Pair CollectedResult}
    (h : (sampleScored results).validate = .ok ()) : Collected (sampleScored results) results where
  valid := TournamentRecord.validate_eq_ok.mp h
  phase := rfl
  quiescent i := by fin_cases i <;> rfl
  persisted := Fin.forall_fin_two.mpr ⟨⟨_, rfl⟩, ⟨_, rfl⟩⟩

/-- A disguised candidate that an eligible one outscores does no harm. -/
theorem winners_agree_outscored :
    Collected (sampleScored ⟨incompleteResult, zeroResult⟩) ⟨incompleteResult, zeroResult⟩ ∧
      WinnersAgree (sampleScored ⟨incompleteResult, zeroResult⟩) := by
  have hcollected := @sampleScored_collected ⟨incompleteResult, zeroResult⟩ (by decide)
  refine ⟨hcollected, (winners_agree_iff hcollected).1.mpr ?_⟩
  unfold DisguisedOutscored
  rw [Fin.forall_fin_two]
  refine ⟨fun _ => ⟨rfl, rfl, .inl ⟨by decide, rfl⟩⟩, fun h => ?_⟩
  exact absurd h.1 (by decide)

/-- Two candidates whose exits the runner cannot classify: the actor selects the first, the store none,
and the record with the selected index does not validate. -/
theorem winners_disagree_incomplete :
    (∀ candidate, collectCandidateResult candidate
      ⟨.leaderExited candidate .evidenceIncomplete 100, .other, .outputDrained candidate 10⟩ =
        .ok incompleteResult) ∧
      Collected (sampleScored ⟨incompleteResult, incompleteResult⟩)
        ⟨incompleteResult, incompleteResult⟩ ∧
      decision (sampleScored ⟨incompleteResult, incompleteResult⟩) = .selected 0 ∧
      scoreSelectedIndex (sampleScored ⟨incompleteResult, incompleteResult⟩).status.candidates = none ∧
      (withSelected (sampleScored ⟨incompleteResult, incompleteResult⟩) 0).validate =
        .error .corrupt := by
  refine ⟨fun candidate => ?_, sampleScored_collected (by decide), by decide, by decide, by decide⟩
  simp only [collectCandidateResult, drainedBytes, if_true]
  rfl

end LightTerminal.Speculation.Score
