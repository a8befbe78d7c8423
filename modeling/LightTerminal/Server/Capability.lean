import LightTerminal.Server.Budget

/-! # Input capabilities over whole runs

`GrantEffect` says what an action does to the grants: it lets other threads spend them, removes those
of one session, purges the dead ones, or issues a new one. From it follow the invariant of the
grants (`Grants`) and that a spent token stays spent (`GrantEffect.spentAt`), over whole runs. -/

namespace LightTerminal.Server.Capability

open LightTerminal.Data.Text LightTerminal.Library LightTerminal.Library.FiniteMap
open LightTerminal.Server.Error LightTerminal.Server.Metadata LightTerminal.Server.Model
open LightTerminal.Server.Concurrent LightTerminal.Server.Operations LightTerminal.Server.Daemon
open LightTerminal.Server.Coherence LightTerminal.Server.Refusal LightTerminal.Server.Budget

/-- The grants, and what was issued and charged, are the same. -/
structure SameGrants (s s' : State) : Prop where
  grants : s'.grants = s.grants
  issued : s'.history.issued = s.history.issued
  accepted : s'.history.accepted = s.history.accepted

variable {s s' s₀ : State}

theorem SameGrants.refl (s : State) : SameGrants s s := ⟨rfl, rfl, rfl⟩

theorem SameGrants.shrinks (h : SameGrants s s') : Shrinks s s' :=
  ⟨fun token g hg => by rwa [h.grants] at hg, h.issued, h.accepted⟩

/-- The state in which the hook of an action runs: the grants and the sessions that exist are those
before the action. -/
structure Before (s s₀ : State) : Prop extends SameGrants s s₀ where
  heap : ∀ id ∈ s.history.created, s₀.heap id = s.heap id

theorem Before.refl (s : State) : Before s s := ⟨.refl s, fun _ _ => rfl⟩

/-- What one action can do to the grants. -/
inductive GrantEffect (s : State) : State → Prop where
  | spends {s₀ s' : State} (hook : List UnlockedAction) (h₀ : Before s s₀)
      (h : SameGrants (interleave hook s₀) s') (live : ∀ id, Live s id → Live s' id) :
      GrantEffect s s'
  | removes {s₀ s' : State} (id : Str) (hook : List UnlockedAction) (h₀ : Before s s₀)
      (h : SameGrants { interleave hook s₀ with
        grants := retain (fun _ g => g.sessionId ≠ id) (interleave hook s₀).grants } s')
      (live : ∀ id', id' ≠ id → Live s id' → Live s' id') : GrantEffect s s'
  | purges {s' : State} (hook : List UnlockedAction) (order : List (Str × List FreeAction))
      (h : SameGrants (retainLive order (interleave hook s)) s') (live : ∀ id, Live s id → Live s' id) :
      GrantEffect s s'
  | issues {s' : State} (hook : List UnlockedAction) (order : List (Str × List FreeAction))
      {target id token : Str} {byteBudget : ℕ} (fresh : token ∉ s.history.issued.map (·.token))
      (resolved : s.sessions.resolveSessionLocked target = some id) (positive : 1 ≤ byteBudget)
      (total : size (retainLive order (interleave hook s)).grants < maxInputCapabilities)
      (perSession : countValues (·.sessionId = id) (retainLive order (interleave hook s)).grants <
        maxInputCapabilitiesPerSession)
      (h : SameGrants { retainLive order (interleave hook s) with
        grants := (retainLive order (interleave hook s)).grants.insert token ⟨id, byteBudget⟩
        history := { (retainLive order (interleave hook s)).history with
          issued := ⟨token, id, byteBudget⟩ ::
            (retainLive order (interleave hook s)).history.issued } } s')
      (live : ∀ id, Live s id → Live s' id) : GrantEffect s s'

/-! ### Every action -/

/-- An action that leaves the grants and the ids alone. -/
theorem grantEffect_of_same (h : SameGrants s s') (hids : s'.sessions.byId = s.sessions.byId) :
    GrantEffect s s' := by
  refine .spends [] (.refl s) h fun id hid => ?_
  unfold Live
  rw [hids]
  exact hid

theorem live_of_unlocked (h : Unlocked s s') {id : Str} (hid : Live s id) : Live s' id := by
  unfold Live
  rw [h.sessions]
  exact hid

theorem outcome_grantEffect {α : Type} {owner : α → Str} {idle : Prop}
    {change : SessionMetadata → SessionMetadata → Prop} {result : Except ServerError α × State}
    (h : Outcome owner idle change s result) : GrantEffect s result.2 := by
  cases h with
  | failed e hook =>
    exact .spends hook (.refl s) (.refl _) fun id => live_of_unlocked (interleave_unlocked hook s)
  | kept v => exact grantEffect_of_same (.refl s) rfl
  | written v s' m hw =>
    obtain ⟨hook, rfl⟩ := hw.state
    refine .spends hook (.refl s) ⟨rfl, rfl, rfl⟩ fun id hid => ?_
    show id ∈ (applyMetadataNameTransition _ _ _ _).byId
    unfold applyMetadataNameTransition
    split_ifs <;> exact hid

theorem reserve_grantEffect (requestedName : Option Str) (s : State) :
    GrantEffect s (reserveSessionIdentity requestedName s).2 := by
  unfold reserveSessionIdentity
  split
  · exact grantEffect_of_same (.refl s) rfl
  · split_ifs
    · exact grantEffect_of_same (.refl s) rfl
    · exact grantEffect_of_same (.refl s) rfl
    · split
      · exact grantEffect_of_same (.refl s) rfl
      · exact grantEffect_of_same ⟨rfl, rfl, rfl⟩ rfl

theorem commit_grantEffect (r : SessionReservation) {id : Str} (fresh : id ∉ s.history.created)
    (x : Session) (selection : Option ParentSelection) (hook : List UnlockedAction) :
    GrantEffect s (commit r id selection hook (allocate id x s)).2 := by
  have hbefore : Before s (allocate id x s) := by
    refine ⟨⟨rfl, rfl, rfl⟩, fun id' hid' => allocate_heap_of_ne ?_ x⟩
    rintro rfl
    exact fresh hid'
  unfold commit
  split_ifs
  · exact grantEffect_of_same ⟨rfl, rfl, rfl⟩ rfl
  · exact grantEffect_of_same ⟨rfl, rfl, rfl⟩ rfl
  · split
    · exact grantEffect_of_same ⟨rfl, rfl, rfl⟩ rfl
    · refine .spends hook hbefore ⟨rfl, rfl, rfl⟩ fun id' hid' => ?_
      have hlive : Live (interleave hook (allocate id x s)) id' :=
        live_of_unlocked (interleave_unlocked hook (allocate id x s)) hid'
      exact Finmap.mem_insert.mpr (.inr hlive)

theorem live_removeSession (id : Str) (hook : List UnlockedAction) {id' : Str}
    (hne : id' ≠ id) (hid' : Live s id') : Live (removeSession id hook s) id' := by
  refine live_of_unlocked (removeSession_unlocked id hook s) ?_
  show id' ∈ (removeFromMaps id (s.heap id) s.sessions).byId
  unfold removeFromMaps
  dsimp only
  split_ifs
  · exact Finmap.mem_erase.mpr ⟨hne, hid'⟩
  · exact hid'

theorem remove_grantEffect (s : State) (id : Str) (hook : List UnlockedAction) (i : ℕ)
    (stack : List Frame) : GrantEffect s (removeSession id hook s) ∧
      GrantEffect s ((removeSession id hook s).setThread i stack) := by
  have hbefore : Before s { s with sessions := removeFromMaps id (s.heap id) s.sessions } :=
    ⟨⟨rfl, rfl, rfl⟩, fun _ _ => rfl⟩
  refine ⟨?_, ?_⟩
  · exact .removes id hook hbefore ⟨rfl, rfl, rfl⟩ fun id' hne hid' =>
      live_removeSession id hook hne hid'
  · exact .removes id hook hbefore ⟨rfl, rfl, rfl⟩ fun id' hne hid' =>
      live_removeSession id hook hne hid'

theorem issue_grantEffect (target : Str) (byteBudget : ℕ) {token : Str}
    (fresh : token ∉ s.history.issued.map (·.token)) (hook : List UnlockedAction)
    (order : List (Str × List FreeAction)) :
    GrantEffect s (issueInputCapability target byteBudget token hook order s).2 := by
  have hu := (interleave_unlocked hook s).trans (retainLive_unlocked order _)
  unfold issueInputCapability
  by_cases hbudget : 1 ≤ byteBudget ∧ byteBudget ≤ maxInputCapabilityBudget
  case neg =>
    rw [if_pos hbudget]
    exact grantEffect_of_same (.refl s) rfl
  rw [if_neg (not_not.mpr hbudget)]
  dsimp only
  split
  · exact grantEffect_of_same (.refl s) rfl
  next id hid =>
  split_ifs with halive htotal hper
  · exact grantEffect_of_same (.refl s) rfl
  · exact .purges hook order (.refl _) fun _ => live_of_unlocked hu
  · exact .purges hook order (.refl _) fun _ => live_of_unlocked hu
  · exact .issues hook order fresh hid hbudget.1 (Nat.lt_of_not_le htotal) (Nat.lt_of_not_le hper)
      ⟨rfl, rfl, rfl⟩ fun _ => live_of_unlocked hu

theorem step_grantEffect (s : State) (a : Action) : GrantEffect s (step s a) := by
  cases a with
  | reserve requestedName => exact reserve_grantEffect requestedName s
  | commit r id theme token leader selection hook =>
    rw [step]
    split_ifs with h
    · exact commit_grantEffect r h.2 _ selection hook
    · exact grantEffect_of_same (.refl s) rfl
  | dropReservation r =>
    rw [step]
    split_ifs
    · exact grantEffect_of_same ⟨rfl, rfl, rfl⟩ rfl
    · exact grantEffect_of_same (.refl s) rfl
  | setStatusTheme target theme => exact outcome_grantEffect (setStatusTheme_outcome target theme s)
  | rename target newName hook => exact outcome_grantEffect (renameSession_outcome target newName hook s)
  | metadataStep target direction hook =>
    exact outcome_grantEffect (metadataStep_outcome target direction hook s)
  | purgeHistory target irreversible claimed now =>
    exact outcome_grantEffect (metadataPurgeHistory_outcome target irreversible claimed now s)
  | removeSession id hook => exact (remove_grantEffect s id hook 0 []).1
  | issue target byteBudget token hook order =>
    rw [step]
    by_cases fresh : token ∈ s.history.issued.map (·.token)
    · rw [if_neg (not_not.mpr fresh)]
      exact grantEffect_of_same (.refl s) rfl
    · rw [if_pos fresh]
      exact issue_grantEffect target byteBudget fresh hook order
  | unlocked action =>
    exact .spends [action] (.refl s) (.refl _) fun id =>
      live_of_unlocked (UnlockedAction.step_unlocked s action)
  | finalize thread id trigger =>
    rw [step]
    split_ifs
    · exact grantEffect_of_same ⟨rfl, rfl, rfl⟩ rfl
    · exact grantEffect_of_same (.refl s) rfl
  | snapshotChildren thread order =>
    rw [step]
    split
    · split_ifs
      · exact grantEffect_of_same ⟨rfl, rfl, rfl⟩ rfl
      · exact grantEffect_of_same (.refl s) rfl
    · exact grantEffect_of_same (.refl s) rfl
  | finalizeRemove thread hook =>
    rw [step]
    split
    · next id below _ => exact (remove_grantEffect s id hook thread _).2
    · exact grantEffect_of_same (.refl s) rfl

/-! ### The invariant of the grants -/

theorem Before.conserved (h : Before s s₀) (hs : Conserved s) : Conserved s₀ :=
  hs.shrinks h.toSameGrants.shrinks

theorem issue_conserved {token id : Str} {byteBudget : ℕ} (h : Conserved s)
    (fresh : token ∉ s.history.issued.map (·.token)) (positive : 1 ≤ byteBudget)
    (total : size s.grants < maxInputCapabilities)
    (perSession : countValues (·.sessionId = id) s.grants < maxInputCapabilitiesPerSession) :
    Conserved { s with
      grants := s.grants.insert token ⟨id, byteBudget⟩
      history := { s.history with issued := ⟨token, id, byteBudget⟩ :: s.history.issued } } := by
  have hbytes : acceptedBytes token s = 0 := by
    unfold acceptedBytes acceptedFor
    rw [List.filter_eq_nil_iff.mpr]
    · rfl
    · intro a ha htoken
      obtain ⟨i, hi, hi', -⟩ := h.owned a ha
      exact fresh (List.mem_map.mpr ⟨i, hi, hi'.trans (of_decide_eq_true htoken)⟩)
  refine ⟨List.nodup_cons.mpr ⟨fresh, h.distinct⟩, ?_, ?_, ?_, ?_, ?_⟩
  · intro token' g hg
    dsimp only at hg
    rw [lookup_insert] at hg
    split_ifs at hg with htoken
    · cases hg
      refine ⟨positive, _, List.mem_cons_self, htoken.symm, rfl, ?_⟩
      subst htoken
      show acceptedBytes token' s + byteBudget = byteBudget
      omega
    · obtain ⟨hpos, i, hi, hrest⟩ := h.granted token' g hg
      exact ⟨hpos, i, List.mem_cons_of_mem _ hi, hrest⟩
  · intro i hi
    rcases List.mem_cons.mp hi with rfl | hi
    · show acceptedBytes token s ≤ byteBudget
      omega
    · exact h.charged i hi
  · intro a ha
    obtain ⟨i, hi, hrest⟩ := h.owned a ha
    exact ⟨i, List.mem_cons_of_mem _ hi, hrest⟩
  · have hle := size_insert_le s.grants token ⟨id, byteBudget⟩
    dsimp only
    omega
  · intro id'
    have hle := countValues_insert_le (fun g : InputCapabilityGrant => g.sessionId = id') s.grants
      token ⟨id, byteBudget⟩
    have hold := h.perSession id'
    dsimp only at hle ⊢
    by_cases hid : id = id'
    · subst hid
      simp only [decide_true, if_true] at hle
      omega
    · simp only [hid, decide_false, Bool.false_eq_true, if_false] at hle
      omega

theorem GrantEffect.conserved (h : Conserved s) (he : GrantEffect s s') : Conserved s' := by
  cases he with
  | spends hook h₀ h' => exact (interleave_conserved hook (h₀.conserved h)).shrinks h'.shrinks
  | removes id hook h₀ h' =>
    have hmiddle := interleave_conserved hook (h₀.conserved h)
    exact (hmiddle.shrinks (shrinks_retain _ _)).shrinks h'.shrinks
  | purges hook order h' =>
    have hmiddle := interleave_conserved hook h
    exact (hmiddle.shrinks (retainLive_shrinks order _)).shrinks h'.shrinks
  | issues hook order fresh resolved positive total perSession h' =>
    have hmiddle := (interleave_conserved hook h).shrinks (retainLive_shrinks order _)
    have hissued : (retainLive order (interleave hook s)).history.issued = s.history.issued :=
      (retainLive_shrinks order _).issued.trans (interleave_issued hook s)
    rw [← hissued] at fresh
    exact (issue_conserved hmiddle fresh positive total perSession).shrinks h'.shrinks

/-- Grants are conserved, and are those of sessions in the maps. -/
structure Grants (s : State) : Prop where
  conserved : Conserved s
  live : ∀ token g, s.grants.lookup token = some g → Live s g.sessionId
  created : ∀ i ∈ s.history.issued, i.sessionId ∈ s.history.created

theorem fewer_of_before (h₀ : Before s s₀) (hook : List UnlockedAction) :
    Fewer s (interleave hook s₀) :=
  h₀.toSameGrants.shrinks.fewer.trans (interleave_fewer hook s₀)

theorem GrantEffect.live (hc : Coherent s) (h : Grants s) (he : GrantEffect s s') {token : Str}
    {g : InputCapabilityGrant} (hg : s'.grants.lookup token = some g) : Live s' g.sessionId := by
  cases he with
  | spends hook h₀ h' hlive =>
    rw [h'.grants] at hg
    obtain ⟨g₀, hg₀, hsession⟩ := fewer_of_before h₀ hook token g hg
    exact hlive _ (hsession ▸ h.live token g₀ hg₀)
  | removes id hook h₀ h' hlive =>
    rw [h'.grants] at hg
    obtain ⟨hg, hne⟩ := lookup_retain.mp hg
    obtain ⟨g₀, hg₀, hsession⟩ := fewer_of_before h₀ hook token g hg
    exact hlive _ (of_decide_eq_true hne) (hsession ▸ h.live token g₀ hg₀)
  | purges hook order h' hlive =>
    rw [h'.grants] at hg
    have hg := (retainLive_shrinks order _).grants token g hg
    obtain ⟨g₀, hg₀, hsession⟩ := interleave_fewer hook s token g hg
    exact hlive _ (hsession ▸ h.live token g₀ hg₀)
  | issues hook order fresh resolved positive total perSession h' hlive =>
    rw [h'.grants] at hg
    dsimp only at hg
    rw [lookup_insert] at hg
    split_ifs at hg
    · cases hg
      exact hlive _ (hc.live_of_resolve resolved)
    · have hg := (retainLive_shrinks order _).grants token g hg
      obtain ⟨g₀, hg₀, hsession⟩ := interleave_fewer hook s token g hg
      exact hlive _ (hsession ▸ h.live token g₀ hg₀)

theorem GrantEffect.created (hc : Coherent s) (h : Grants s) (he : GrantEffect s s')
    {i : Issued} (hi : i ∈ s'.history.issued) : i.sessionId ∈ s.history.created := by
  cases he with
  | spends hook h₀ h' =>
    rw [h'.issued, interleave_issued, h₀.issued] at hi
    exact h.created i hi
  | removes id hook h₀ h' =>
    rw [h'.issued] at hi
    dsimp only at hi
    rw [interleave_issued, h₀.issued] at hi
    exact h.created i hi
  | purges hook order h' =>
    rw [h'.issued, (retainLive_shrinks order _).issued, interleave_issued] at hi
    exact h.created i hi
  | issues hook order fresh resolved positive total perSession h' =>
    rw [h'.issued] at hi
    dsimp only at hi
    rw [(retainLive_shrinks order _).issued, interleave_issued] at hi
    rcases List.mem_cons.mp hi with rfl | hi
    · exact hc.created _ (hc.live_of_resolve resolved)
    · exact h.created i hi

/-- Coherent maps and grants that are conserved: one invariant of every action. -/
structure Inv (s : State) : Prop where
  coherent : Coherent s
  grants : Grants s

theorem inv_new (journal : Bool) : Inv (State.new journal) := by
  refine ⟨coherent_new journal, ⟨⟨List.nodup_nil, ?_, ?_, ?_, Nat.zero_le _, fun id => ?_⟩, ?_, ?_⟩⟩
  · exact fun token g hg => by cases hg
  · exact fun i hi => by cases hi
  · exact fun a ha => by cases ha
  · exact Nat.zero_le _
  · exact fun token g hg => by cases hg
  · exact fun i hi => by cases hi

theorem step_inv (s : State) (a : Action) (h : Inv s) : Inv (step s a) := by
  have he := step_effect s a
  have hg := step_grantEffect s a
  refine ⟨Effect.coherent h.coherent he, hg.conserved h.grants.conserved, ?_, ?_⟩
  · exact fun token g => hg.live h.coherent h.grants
  · exact fun i hi => (effect_persists he (hg.created h.coherent h.grants hi)).2

theorem run_inv (journal : Bool) (actions : List Action) : Inv (run (State.new journal) actions) :=
  Run.run_invariant step_inv actions _ (inv_new journal)

/-! ### A spent token stays spent -/

/-- A token without a grant gets none: tokens are issued once. -/
theorem GrantEffect.notMem {i : Issued} (hi : i ∈ s.history.issued) (he : GrantEffect s s')
    (h : i.token ∉ s.grants) : i.token ∉ s'.grants := by
  have hfewer : ∀ {t : State}, Fewer s t → i.token ∉ t.grants := by
    intro t ht hmem
    obtain ⟨g, hg⟩ := Finmap.mem_iff.mp hmem
    obtain ⟨g₀, hg₀, -⟩ := ht i.token g hg
    exact h (Finmap.mem_of_lookup_eq_some hg₀)
  cases he with
  | spends hook h₀ h' =>
    rw [h'.grants]
    exact hfewer (fewer_of_before h₀ hook)
  | removes id hook h₀ h' =>
    rw [h'.grants]
    exact hfewer ((fewer_of_before h₀ hook).trans (shrinks_retain _ _).fewer)
  | purges hook order h' =>
    rw [h'.grants]
    exact hfewer ((interleave_fewer hook s).trans (retainLive_shrinks order _).fewer)
  | issues hook order fresh resolved positive total perSession h' =>
    rw [h'.grants]
    intro hmem
    rcases Finmap.mem_insert.mp hmem with heq | hmem
    · exact fresh (List.mem_map.mpr ⟨i, hi, heq⟩)
    · exact hfewer ((interleave_fewer hook s).trans (retainLive_shrinks order _).fewer) hmem

/-- Nothing is charged to a spent token. -/
theorem GrantEffect.acceptedFor {i : Issued} {l : List Accepted} (h : SpentAt i l s) (he : GrantEffect s s')
    (hcreated : i.sessionId ∈ s.history.created) :
    Budget.acceptedFor i.token s' = l := by
  have hbefore : ∀ {t : State}, Before s t → SpentAt i l t := by
    intro t ht
    refine h.shrinks ht.toSameGrants.shrinks fun hdead => ?_
    rw [ht.heap _ hcreated]
    exact hdead
  cases he with
  | spends hook h₀ h' =>
    rw [acceptedFor_congr h'.accepted]
    exact (interleave_spentAt hook (hbefore h₀)).accepted
  | removes id hook h₀ h' =>
    rw [acceptedFor_congr h'.accepted]
    exact (interleave_spentAt hook (hbefore h₀)).accepted
  | purges hook order h' =>
    rw [acceptedFor_congr h'.accepted, acceptedFor_congr (retainLive_shrinks order _).accepted]
    exact (interleave_spentAt hook h).accepted
  | issues hook order fresh resolved positive total perSession h' =>
    rw [acceptedFor_congr h'.accepted]
    refine (acceptedFor_congr (retainLive_shrinks order _).accepted _).trans ?_
    exact (interleave_spentAt hook h).accepted

theorem GrantEffect.issued {i : Issued} (hi : i ∈ s.history.issued) (he : GrantEffect s s') :
    i ∈ s'.history.issued := by
  cases he with
  | spends hook h₀ h' => rwa [h'.issued, interleave_issued, h₀.issued]
  | removes id hook h₀ h' =>
    rw [h'.issued]
    dsimp only
    rwa [interleave_issued, h₀.issued]
  | purges hook order h' => rwa [h'.issued, (retainLive_shrinks order _).issued, interleave_issued]
  | issues hook order fresh resolved positive total perSession h' =>
    rw [h'.issued]
    dsimp only
    rw [(retainLive_shrinks order _).issued, interleave_issued]
    exact List.mem_cons_of_mem _ hi

/-- **A spent token stays spent**, over whole runs. -/
theorem run_spentAt {i : Issued} {l : List Accepted} : ∀ (actions : List Action) (s : State), Inv s →
    SpentAt i l s → SpentAt i l (run s actions)
  | [], _, _, h => h
  | a :: actions, s, hinv, h => by
    have hg := step_grantEffect s a
    have hcreated := hinv.grants.created i h.issued
    have hinv' := step_inv s a hinv
    refine run_spentAt actions (step s a) hinv' ⟨hinv'.grants.conserved, hg.issued h.issued, ?_,
      hg.acceptedFor h hcreated⟩
    rcases h.spent with hnone | hdead
    · exact .inl (hg.notMem h.issued hnone)
    · exact .inr ((effect_persists (step_effect s a) hcreated).1.dead hdead)

/-- What one call of `apply_capability_input` does, in any state, also inside another operation: a
rejected one charges nothing, changes no remaining budget, and removes at most the grant of a session
that is gone; an accepted one is charged to the session of the grant, which is alive. -/
structure ApplyLaws (token : Str) (data : List UInt8) (written : Bool) (t : State) : Prop where
  rejected : (applyCapabilityInput token data written t).1 = .error .inputRejected →
    Shrinks t (applyCapabilityInput token data written t).2 ∧
      ∀ token' g, t.grants.lookup token' = some g →
        (applyCapabilityInput token data written t).2.grants.lookup token' = some g ∨
          (t.heap g.sessionId).dropped = true ∨ (t.heap g.sessionId).alive = false
  accepted : (applyCapabilityInput token data written t).1 ≠ .error .inputRejected →
    ∃ g, t.grants.lookup token = some g ∧ (t.heap g.sessionId).alive = true ∧
      (applyCapabilityInput token data written t).2 = charge token g data.length t

theorem applyLaws (token : Str) (data : List UInt8) (written : Bool) (t : State) :
    ApplyLaws token data written t := by
  rcases applyCapabilityInput_cases token data written t with
    ⟨hr, heq | ⟨⟨g, hg, hgone⟩, heq⟩⟩ | ⟨hr, g, hg, halive, -, heq⟩
  · refine ⟨fun _ => ?_, fun hne => absurd hr hne⟩
    rw [heq]
    exact ⟨.refl t, fun token' g hg => .inl hg⟩
  · refine ⟨fun _ => ?_, fun hne => absurd hr hne⟩
    rw [heq]
    refine ⟨shrinks_erase t token, fun token' g' hg' => ?_⟩
    by_cases htoken : token' = token
    · subst htoken
      rw [hg] at hg'
      cases hg'
      exact .inr hgone
    · refine .inl ?_
      dsimp only
      rw [lookup_erase, if_neg htoken]
      exact hg'
  · exact ⟨fun hrej => absurd hrej hr, fun _ => ⟨g, hg, halive, heq⟩⟩

/-- **Input capabilities.** In every state of every run: what was charged to a token is within its
budget, and together with what remains of its grant is the budget; the numbers of grants are within
their limits; and there are grants only of sessions in the maps. A token whose grant is gone, by
revocation, exhaustion or removal, or whose session is dead or removed, is never charged again. -/
theorem input_capabilities (journal : Bool) (actions : List Action) :
    let s := run (State.new journal) actions
    Conserved s ∧ (∀ token g, s.grants.lookup token = some g → Live s g.sessionId) ∧
      (∀ i ∈ s.history.issued,
        i.token ∉ s.grants ∨ (s.heap i.sessionId).alive = false ∨ ¬Live s i.sessionId →
          ∀ later, acceptedFor i.token (run s later) = acceptedFor i.token s) ∧
      (∀ i ∈ s.history.issued, acceptedBytes i.token s = i.byteBudget → i.token ∉ s.grants) ∧
      (∀ t token, token ∉ (revokeInputCapability token t).grants) ∧
      ∀ token data written t, ApplyLaws token data written t := by
  have h := run_inv journal actions
  generalize run (State.new journal) actions = s at h
  refine ⟨h.grants.conserved, h.grants.live, ?_, ?_, ?_, applyLaws⟩
  · intro i hi hgone later
    have hspent : Spent i s := by
      rcases hgone with hnone | hdead | hremoved
      · exact .inl hnone
      · exact .inr hdead
      · refine .inl fun hmem => hremoved ?_
        obtain ⟨g, hg⟩ := Finmap.mem_iff.mp hmem
        obtain ⟨-, j, hj, htoken, hsession, -⟩ := h.grants.conserved.granted i.token g hg
        have hji := h.grants.conserved.issued_unique hj hi htoken
        subst hji
        rw [hsession]
        exact h.grants.live _ g hg
    exact (run_spentAt later s h ⟨h.grants.conserved, hi, hspent, rfl⟩).accepted
  · intro i hi hexhausted hmem
    obtain ⟨g, hg⟩ := Finmap.mem_iff.mp hmem
    obtain ⟨hpos, j, hj, htoken, -, hsum⟩ := h.grants.conserved.granted i.token g hg
    have hji := h.grants.conserved.issued_unique hj hi htoken
    subst hji
    omega
  · intro t token
    exact Finmap.notMem_erase_self

end LightTerminal.Server.Capability
