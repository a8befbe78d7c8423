import LightTerminal.Server.Coherence
import LightTerminal.Server.Refusal

/-! # The budget of an input capability

A token is issued for one session with a byte budget, and every accepted input is charged to it.
`Conserved` says that what was charged and what remains add up to the budget, for every grant there
is, and that the numbers of grants are within their limits. Every step that does not need the maps
keeps it (`interleave_conserved`). A token is `Spent` once it has no grant or its session is dead;
from then on nothing is charged to it (`interleave_spentAt`). -/

namespace LightTerminal.Server.Budget

open LightTerminal.Data.Text LightTerminal.Library LightTerminal.Library.FiniteMap
open LightTerminal.Server.Error LightTerminal.Server.Model LightTerminal.Server.Concurrent
open LightTerminal.Server.Operations LightTerminal.Server.Daemon LightTerminal.Server.Coherence
open LightTerminal.Server.Refusal

/-- The input accepted for a token so far. -/
def acceptedFor (token : Str) (s : State) : List Accepted :=
  s.history.accepted.filter (·.token = token)

/-- The bytes charged to a token so far. -/
def acceptedBytes (token : Str) (s : State) : ℕ := ((acceptedFor token s).map (·.length)).sum

/-- Charges, grants and limits agree. -/
structure Conserved (s : State) : Prop where
  distinct : (s.history.issued.map (·.token)).Nodup
  granted : ∀ token g, s.grants.lookup token = some g → 0 < g.remainingAttemptBytes ∧
    ∃ i ∈ s.history.issued, i.token = token ∧ i.sessionId = g.sessionId ∧
      acceptedBytes token s + g.remainingAttemptBytes = i.byteBudget
  charged : ∀ i ∈ s.history.issued, acceptedBytes i.token s ≤ i.byteBudget
  owned : ∀ a ∈ s.history.accepted, ∃ i ∈ s.history.issued,
    i.token = a.token ∧ i.sessionId = a.sessionId
  total : size s.grants ≤ maxInputCapabilities
  perSession : ∀ id, countValues (·.sessionId = id) s.grants ≤ maxInputCapabilitiesPerSession

/-- Grants are only removed, and nothing is charged or issued. -/
structure Shrinks (s s' : State) : Prop where
  grants : ∀ token g, s'.grants.lookup token = some g → s.grants.lookup token = some g
  issued : s'.history.issued = s.history.issued
  accepted : s'.history.accepted = s.history.accepted

variable {s s' s₀ : State}

theorem Shrinks.refl (s : State) : Shrinks s s := ⟨fun _ _ h => h, rfl, rfl⟩

theorem Shrinks.trans {a b c : State} (h : Shrinks a b) (h' : Shrinks b c) : Shrinks a c :=
  ⟨fun token g hg => h.grants token g (h'.grants token g hg), h'.issued.trans h.issued,
    h'.accepted.trans h.accepted⟩

theorem shrinks_of_free (h : Free s s') : Shrinks s s' :=
  ⟨fun token g hg => by rwa [h.grants] at hg, h.issued, h.accepted⟩

theorem shrinks_erase (s : State) (token : Str) :
    Shrinks s { s with grants := s.grants.erase token } := by
  refine ⟨fun token' g hg => ?_, rfl, rfl⟩
  dsimp only at hg
  rw [lookup_erase] at hg
  split_ifs at hg
  exact hg

theorem shrinks_retain (s : State) (keep : Str → InputCapabilityGrant → Bool) :
    Shrinks s { s with grants := retain keep s.grants } :=
  ⟨fun _ _ hg => (lookup_retain.mp hg).1, rfl, rfl⟩

theorem acceptedFor_congr (h : s'.history.accepted = s.history.accepted) (token : Str) :
    acceptedFor token s' = acceptedFor token s := by
  unfold acceptedFor
  rw [h]

theorem acceptedBytes_congr (h : s'.history.accepted = s.history.accepted) (token : Str) :
    acceptedBytes token s' = acceptedBytes token s := by
  unfold acceptedBytes
  rw [acceptedFor_congr h]

theorem Conserved.shrinks (h : Conserved s) (hs : Shrinks s s') : Conserved s' := by
  have hbytes := acceptedBytes_congr hs.accepted
  refine ⟨?_, ?_, ?_, ?_, ?_, ?_⟩
  · rw [hs.issued]
    exact h.distinct
  · intro token g hg
    rw [hs.issued, hbytes]
    exact h.granted token g (hs.grants token g hg)
  · intro i hi
    rw [hs.issued] at hi
    rw [hbytes]
    exact h.charged i hi
  · rw [hs.accepted, hs.issued]
    exact h.owned
  · exact le_trans (size_le_of_lookup fun token g hg => ⟨g, hs.grants token g hg⟩) h.total
  · intro id
    refine le_trans (countValues_le_of_lookup fun token g hg htest => ?_) (h.perSession id)
    exact ⟨g, hs.grants token g hg, htest⟩

/-- A token was issued once. -/
theorem Conserved.issued_unique (h : Conserved s) {i j : Issued} (hi : i ∈ s.history.issued)
    (hj : j ∈ s.history.issued) (htoken : i.token = j.token) : i = j :=
  List.inj_on_of_nodup_map h.distinct hi hj htoken

/-! ### Charging -/

section Charge
variable {token : Str} {g : InputCapabilityGrant} {length : ℕ}

theorem acceptedFor_charge (token' : Str) :
    acceptedFor token' (charge token g length s) =
      if token' = token then ⟨token, g.sessionId, length⟩ :: acceptedFor token' s
      else acceptedFor token' s := by
  unfold acceptedFor charge
  rw [List.filter_cons]
  by_cases htoken : token' = token
  · rw [if_pos htoken, if_pos (decide_eq_true htoken.symm)]
  · rw [if_neg htoken, if_neg fun h => htoken (of_decide_eq_true h).symm]

theorem acceptedBytes_charge (token' : Str) :
    acceptedBytes token' (charge token g length s) =
      acceptedBytes token' s + if token' = token then length else 0 := by
  unfold acceptedBytes
  rw [acceptedFor_charge]
  split_ifs
  · rw [List.map_cons, List.sum_cons, Nat.add_comm]
  · rfl

/-- The grants after a charge. -/
theorem lookup_charge {token' : Str} {g' : InputCapabilityGrant}
    (h : (charge token g length s).grants.lookup token' = some g') :
    token' ≠ token ∧ s.grants.lookup token' = some g' ∨
      token' = token ∧ length < g.remainingAttemptBytes ∧
        g' = { g with remainingAttemptBytes := g.remainingAttemptBytes - length } := by
  unfold charge at h
  dsimp only at h
  split_ifs at h with hzero
  · rw [lookup_erase] at h
    split_ifs at h with htoken
    exact .inl ⟨htoken, h⟩
  · rw [lookup_insert] at h
    split_ifs at h with htoken
    · cases h
      exact .inr ⟨htoken, by omega, rfl⟩
    · exact .inl ⟨htoken, h⟩

theorem conserved_charge (h : Conserved s) (hg : s.grants.lookup token = some g)
    (hle : length ≤ g.remainingAttemptBytes) : Conserved (charge token g length s) := by
  obtain ⟨-, i₀, hi₀, htoken₀, hsession₀, hsum₀⟩ := h.granted token g hg
  have hkeep : ∀ token' g', (charge token g length s).grants.lookup token' = some g' →
      ∃ g₁, s.grants.lookup token' = some g₁ ∧ g₁.sessionId = g'.sessionId := by
    intro token' g' hg'
    rcases lookup_charge hg' with ⟨-, hold⟩ | ⟨rfl, -, rfl⟩
    · exact ⟨g', hold, rfl⟩
    · exact ⟨g, hg, rfl⟩
  refine ⟨h.distinct, ?_, ?_, ?_, ?_, ?_⟩
  · intro token' g' hg'
    rw [acceptedBytes_charge]
    rcases lookup_charge hg' with ⟨hne, hold⟩ | ⟨rfl, hlt, rfl⟩
    · rw [if_neg hne]
      exact h.granted token' g' hold
    · rw [if_pos rfl]
      refine ⟨by dsimp only; omega, i₀, hi₀, htoken₀, hsession₀, ?_⟩
      dsimp only
      omega
  · intro i hi
    rw [acceptedBytes_charge]
    split_ifs with htoken
    · have heq := h.issued_unique hi hi₀ (htoken.trans htoken₀.symm)
      subst heq
      rw [htoken]
      omega
    · exact h.charged i hi
  · intro a ha
    rcases List.mem_cons.mp ha with rfl | ha
    · exact ⟨i₀, hi₀, htoken₀, hsession₀⟩
    · exact h.owned a ha
  · refine le_trans (size_le_of_lookup fun token' g' hg' => ?_) h.total
    obtain ⟨g₁, hold, -⟩ := hkeep token' g' hg'
    exact ⟨g₁, hold⟩
  · intro id
    refine le_trans (countValues_le_of_lookup fun token' g' hg' htest => ?_) (h.perSession id)
    obtain ⟨g₁, hold, hsession⟩ := hkeep token' g' hg'
    exact ⟨g₁, hold, by rw [hsession]; exact htest⟩

end Charge

/-- What `apply_capability_input` can do: it rejects the input, and then at most removes the grant of
a session that is gone; or it charges it to the grant of a session that is alive. -/
theorem applyCapabilityInput_cases (token : Str) (data : List UInt8) (written : Bool) (s : State) :
    ((applyCapabilityInput token data written s).1 = .error .inputRejected ∧
        ((applyCapabilityInput token data written s).2 = s ∨
          (∃ g, s.grants.lookup token = some g ∧
            ((s.heap g.sessionId).dropped = true ∨ (s.heap g.sessionId).alive = false)) ∧
          (applyCapabilityInput token data written s).2 =
            { s with grants := s.grants.erase token })) ∨
      (applyCapabilityInput token data written s).1 ≠ .error .inputRejected ∧
        ∃ g, s.grants.lookup token = some g ∧ (s.heap g.sessionId).alive = true ∧
          data.length ≤ g.remainingAttemptBytes ∧
          (applyCapabilityInput token data written s).2 = charge token g data.length s := by
  unfold applyCapabilityInput
  by_cases hdata : data.isEmpty ∨ maxCapabilityInputBytes < data.length
  · rw [if_pos hdata]
    exact .inl ⟨rfl, .inl rfl⟩
  rw [if_neg hdata]
  cases hg : s.grants.lookup token with
  | none => exact .inl ⟨rfl, .inl rfl⟩
  | some g =>
    dsimp only
    by_cases hdropped : (s.heap g.sessionId).dropped = true
    · rw [if_pos hdropped]
      exact .inl ⟨rfl, .inr ⟨⟨g, rfl, .inl hdropped⟩, rfl⟩⟩
    rw [if_neg hdropped]
    by_cases halive : (s.heap g.sessionId).alive = false
    · rw [if_pos halive]
      exact .inl ⟨rfl, .inr ⟨⟨g, rfl, .inr halive⟩, rfl⟩⟩
    rw [if_neg halive]
    by_cases hlt : g.remainingAttemptBytes < data.length
    · rw [if_pos hlt]
      exact .inl ⟨rfl, .inl rfl⟩
    rw [if_neg hlt]
    refine .inr ⟨?_, g, rfl, Bool.eq_true_of_not_eq_false halive, Nat.le_of_not_lt hlt, rfl⟩
    dsimp only
    split_ifs <;> simp

/-! ### Steps without the maps -/

theorem conserved_apply (h : Conserved s) (token : Str) (data : List UInt8) (written : Bool) :
    Conserved (applyCapabilityInput token data written s).2 := by
  rcases applyCapabilityInput_cases token data written s with
    ⟨-, heq | ⟨-, heq⟩⟩ | ⟨-, g, hg, -, hle, heq⟩
  · rw [heq]
    exact h
  · rw [heq]
    exact h.shrinks (shrinks_erase s token)
  · rw [heq]
    exact conserved_charge h hg hle

theorem step_conserved (s : State) (a : UnlockedAction) (h : Conserved s) : Conserved (a.step s) := by
  cases a with
  | free action => exact h.shrinks (shrinks_of_free (FreeAction.step_free s action))
  | apply token data written => exact conserved_apply h token data written
  | revoke token => exact h.shrinks (shrinks_erase s token)

theorem interleave_conserved (hook : List UnlockedAction) (h : Conserved s) :
    Conserved (interleave hook s) :=
  Run.run_invariant step_conserved hook s h

theorem retainLiveInOrder_shrinks : ∀ (order : List (Str × List FreeAction)) (s : State),
    Shrinks s (retainLiveInOrder order s)
  | [], s => .refl s
  | (token, hook) :: order, s => by
    have hfree := shrinks_of_free (interleaveFree_free hook s)
    unfold retainLiveInOrder
    dsimp only
    split
    · split_ifs
      · exact hfree.trans (retainLiveInOrder_shrinks order _)
      · exact hfree.trans ((shrinks_erase _ token).trans (retainLiveInOrder_shrinks order _))
    · exact hfree.trans (retainLiveInOrder_shrinks order _)

theorem retainLive_shrinks (order : List (Str × List FreeAction)) (s : State) :
    Shrinks s (retainLive order s) :=
  (retainLiveInOrder_shrinks order s).trans (shrinks_retain _ _)

/-- Every grant was one before, of the same session. -/
def Fewer (s s' : State) : Prop :=
  ∀ token g', s'.grants.lookup token = some g' →
    ∃ g, s.grants.lookup token = some g ∧ g.sessionId = g'.sessionId

theorem Shrinks.fewer (h : Shrinks s s') : Fewer s s' :=
  fun token g hg => ⟨g, h.grants token g hg, rfl⟩

theorem Fewer.trans {a b c : State} (h : Fewer a b) (h' : Fewer b c) : Fewer a c := by
  intro token g hg
  obtain ⟨g₁, hg₁, h₁⟩ := h' token g hg
  obtain ⟨g₀, hg₀, h₀⟩ := h token g₁ hg₁
  exact ⟨g₀, hg₀, h₀.trans h₁⟩

theorem step_fewer (s : State) (a : UnlockedAction) : Fewer s (a.step s) := by
  cases a with
  | free action => exact (shrinks_of_free (FreeAction.step_free s action)).fewer
  | apply token data written =>
    rcases applyCapabilityInput_cases token data written s with
      ⟨-, heq | ⟨-, heq⟩⟩ | ⟨-, g, hg, -, -, heq⟩
    · rw [UnlockedAction.step, heq]
      exact (Shrinks.refl s).fewer
    · rw [UnlockedAction.step, heq]
      exact (shrinks_erase s token).fewer
    · rw [UnlockedAction.step, heq]
      intro token' g' hg'
      rcases lookup_charge hg' with ⟨-, hold⟩ | ⟨rfl, -, rfl⟩
      · exact ⟨g', hold, rfl⟩
      · exact ⟨g, hg, rfl⟩
  | revoke token => exact (shrinks_erase s token).fewer

theorem interleave_fewer (hook : List UnlockedAction) (s : State) : Fewer s (interleave hook s) :=
  Run.run_related (fun s => (Shrinks.refl s).fewer) (fun _ _ _ => .trans) step_fewer hook s

theorem interleave_issued (hook : List UnlockedAction) (s : State) :
    (interleave hook s).history.issued = s.history.issued := by
  refine Run.run_related (R := fun s s' : State => s'.history.issued = s.history.issued)
    (fun _ => rfl) (fun _ _ _ h h' => h'.trans h) (fun s a => ?_) hook s
  cases a with
  | free action => exact (FreeAction.step_free s action).issued
  | apply token data written =>
    rcases applyCapabilityInput_cases token data written s with
      ⟨-, heq | ⟨-, heq⟩⟩ | ⟨-, g, hg, -, -, heq⟩
    · rw [UnlockedAction.step, heq]
    · rw [UnlockedAction.step, heq]
    · rw [UnlockedAction.step, heq]
      rfl
  | revoke token => rfl

/-! ### A token that is spent -/

/-- The token has no grant, or its session is dead. -/
def Spent (i : Issued) (s : State) : Prop :=
  i.token ∉ s.grants ∨ (s.heap i.sessionId).alive = false

/-- A spent token, and the input accepted for it. -/
structure SpentAt (i : Issued) (l : List Accepted) (s : State) : Prop where
  conserved : Conserved s
  issued : i ∈ s.history.issued
  spent : Spent i s
  accepted : acceptedFor i.token s = l

variable {i : Issued} {l : List Accepted}

theorem SpentAt.shrinks (h : SpentAt i l s) (hs : Shrinks s s')
    (hdead : (s.heap i.sessionId).alive = false → (s'.heap i.sessionId).alive = false) :
    SpentAt i l s' := by
  refine ⟨h.conserved.shrinks hs, hs.issued ▸ h.issued, ?_,
    (acceptedFor_congr hs.accepted _).trans h.accepted⟩
  rcases h.spent with hnone | halive
  · refine .inl fun hmem => hnone ?_
    obtain ⟨g, hg⟩ := Finmap.mem_iff.mp hmem
    exact Finmap.mem_of_lookup_eq_some (hs.grants _ g hg)
  · exact .inr (hdead halive)

/-- A charge is never to a spent token. -/
theorem SpentAt.charge (h : SpentAt i l s) {token : Str} {g : InputCapabilityGrant} {length : ℕ}
    (hg : s.grants.lookup token = some g) (halive : (s.heap g.sessionId).alive = true)
    (hle : length ≤ g.remainingAttemptBytes) : SpentAt i l (charge token g length s) := by
  have hne : i.token ≠ token := by
    rintro rfl
    obtain ⟨-, j, hj, htoken, hsession, -⟩ := h.conserved.granted i.token g hg
    have hji := h.conserved.issued_unique hj h.issued htoken
    subst hji
    rcases h.spent with hnone | hdead
    · exact hnone (Finmap.mem_of_lookup_eq_some hg)
    · rw [hsession, halive] at hdead
      cases hdead
  refine ⟨conserved_charge h.conserved hg hle, h.issued, ?_, ?_⟩
  · rcases h.spent with hnone | hdead
    · refine .inl fun hmem => hnone ?_
      obtain ⟨g', hg'⟩ := Finmap.mem_iff.mp hmem
      rcases lookup_charge hg' with ⟨-, hold⟩ | ⟨heq, -⟩
      · exact Finmap.mem_of_lookup_eq_some hold
      · exact absurd heq hne
    · exact .inr hdead
  · rw [acceptedFor_charge, if_neg hne]
    exact h.accepted

theorem step_spentAt (s : State) (a : UnlockedAction) (h : SpentAt i l s) :
    SpentAt i l (a.step s) := by
  cases a with
  | free action =>
    have hfree := FreeAction.step_free s action
    exact h.shrinks (shrinks_of_free hfree) (hfree.heap i.sessionId).dead
  | apply token data written =>
    rcases applyCapabilityInput_cases token data written s with
      ⟨-, heq | ⟨-, heq⟩⟩ | ⟨-, g, hg, halive, hle, heq⟩
    · rw [UnlockedAction.step, heq]
      exact h
    · rw [UnlockedAction.step, heq]
      exact h.shrinks (shrinks_erase s token) fun hdead => hdead
    · rw [UnlockedAction.step, heq]
      exact h.charge hg halive hle
  | revoke token => exact h.shrinks (shrinks_erase s token) fun hdead => hdead

theorem interleave_spentAt (hook : List UnlockedAction) (h : SpentAt i l s) :
    SpentAt i l (interleave hook s) :=
  Run.run_invariant step_spentAt hook s h

end LightTerminal.Server.Budget
