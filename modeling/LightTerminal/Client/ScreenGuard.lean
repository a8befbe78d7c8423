import LightTerminal.Client.OutputLoop

/-! # The status row and the alternate screen

Most draws of the output loop wait while the program is on the alternate screen. Two do not: a poll for a
nested agent may suspend or resume the row in any turn, and the refresh after the loop goes by the flag of the
last turn, which the program may have outrun.

`Wrote`, `Kept` and `Drew` say what a part of the loop leaves alone, one lemma a part. A run is `Calm` if no
poll on the alternate screen writes to the row and the last refresh has nothing to write there.
`held_back_iff_calm`: exactly in a calm run the row is held back; after the alternate screen it always comes
back, with its scroll region, before the next read. -/

namespace LightTerminal.Client.ScreenGuard

open LightTerminal.Data.Text LightTerminal.Library LightTerminal.Library.Procedure
open LightTerminal.Sanitize LightTerminal.Sanitize.Truncate
open LightTerminal.Client.StatusRow LightTerminal.Client.StatusPresence LightTerminal.Client.OutputLoop

variable {u : Unicode} {env : StatusEnv} {config : Config}

/-! ### What a part of the loop writes -/

/-- What is written has a property. -/
def Wrote (p : Output → Prop) (s s' : Loop) : Prop :=
  ∃ new, s'.output = s.output ++ new ∧ ∀ output ∈ new, p output

/-- What is written has a property, and the flag of the last turn stays. -/
structure Kept (p : Output → Prop) (s s' : Loop) : Prop where
  wrote : Wrote p s s'
  prev : s'.prevAltScreenActive = s.prevAltScreenActive

/-- Besides, the status row is neither given up nor taken back. -/
structure Drew (p : Output → Prop) (s s' : Loop) : Prop extends Kept p s s' where
  presence : s'.presence = s.presence
  style : s'.bar.style = s.bar.style

/-- A draw: no chunk of the pane's output, and nothing of the status row where it has to be quiet. -/
def Drawing (quiet : Prop) (output : Output) : Prop :=
  output.isChunk = false ∧ (quiet → output.isStatus = false)

section Relations
variable {p q : Output → Prop} {s s' s'' : Loop}

theorem Wrote.of_eq (h : s'.output = s.output) : Wrote p s s' := ⟨[], by simpa using h, by simp⟩

theorem Wrote.trans (h : Wrote p s s') (h' : Wrote p s' s'') : Wrote p s s'' := by
  obtain ⟨new, hnew, hp⟩ := h
  obtain ⟨new', hnew', hp'⟩ := h'
  refine ⟨new ++ new', by rw [hnew', hnew, List.append_assoc], fun output ho => ?_⟩
  rcases List.mem_append.mp ho with ho | ho
  · exact hp output ho
  · exact hp' output ho

theorem Wrote.mono (h : Wrote p s s') (hpq : ∀ output, p output → q output) : Wrote q s s' := by
  obtain ⟨new, hnew, hp⟩ := h
  exact ⟨new, hnew, fun output ho => hpq output (hp output ho)⟩

theorem Kept.mono (h : Kept p s s') (hpq : ∀ output, p output → q output) : Kept q s s' :=
  ⟨h.wrote.mono hpq, h.prev⟩

instance : IsPreorder Loop (Wrote p) where
  refl _ := Wrote.of_eq rfl
  trans _ _ _ := Wrote.trans

instance : IsPreorder Loop (Kept p) where
  refl _ := ⟨Wrote.of_eq rfl, rfl⟩
  trans _ _ _ h h' := ⟨h.wrote.trans h'.wrote, h'.prev.trans h.prev⟩

instance : IsPreorder Loop (Drew p) where
  refl _ := ⟨⟨Wrote.of_eq rfl, rfl⟩, rfl, rfl⟩
  trans _ _ _ h h' :=
    ⟨⟨h.wrote.trans h'.wrote, h'.prev.trans h.prev⟩, h'.presence.trans h.presence,
      h'.style.trans h.style⟩

theorem Drawing.mono {quiet quiet' : Prop} (h : quiet' → quiet) {output : Output}
    (hdraw : Drawing quiet output) : Drawing quiet' output :=
  ⟨hdraw.1, fun hquiet => hdraw.2 (h hquiet)⟩

end Relations

/-! ### A refresh -/

section Refresh
variable {p : Output → Prop} {s : Loop} {draw : Draw}

theorem emit_does {output : Output} (h : p output) :
    Does (Drew p) (emit output) s fun _ s' => s' = { s with output := s.output ++ [output] } :=
  Does.modify ⟨⟨⟨[output], rfl, by simpa using h⟩, rfl⟩, rfl, rfl⟩ rfl

theorem style_refreshOps (u : Unicode) (s : Loop) (draw : Draw) :
    (s.refreshOps u draw).1.style = s.bar.style := by
  unfold Loop.refreshOps StatusBar.refresh
  dsimp only
  split_ifs <;> rfl

/-- What a refresh writes. -/
def refreshed (u : Unicode) (s : Loop) (draw : Draw) : List Output :=
  if (s.refreshOps u draw).2 = [] then [] else [.status (s.refreshOps u draw).2]

/-- A refresh. -/
theorem refreshStatus_does (hp : ∀ output ∈ refreshed u s draw, p output) :
    Does (Drew p) (refreshStatus u draw) s
      fun _ s' => s'.output = s.output ++ refreshed u s draw := by
  unfold refreshStatus
  refine Does.get_bind ?_
  refine Does.bind (P := fun _ s' => s'.output = s.output ++ refreshed u s draw)
    (Does.whenever (fun hops => ?_) fun hops => ?_) ?_
  · have hwrites : refreshed u s draw = [.status (s.refreshOps u draw).2] := if_neg hops
    have hstatus : p (.status (s.refreshOps u draw).2) := hp _ (by simp [hwrites])
    refine Does.bind (emit_does hstatus) ?_
    rintro - s₁ - rfl
    refine Does.lift_bind fun _ _ => ?_
    refine Does.bind (Does.modify (Q := fun _ s' => s'.output = s.output ++ refreshed u s draw)
      ⟨⟨Wrote.of_eq rfl, rfl⟩, rfl, style_refreshOps u s draw⟩ (by simp [hwrites])) ?_
    intro _ s₂ _ hs₂
    exact Does.lift fun _ _ => hs₂
  · have hops' : (s.refreshOps u draw).2 = [] := not_not.mp hops
    simp [refreshed, hops']
  · intro _ s₁ _ hs₁
    exact Does.modify ⟨⟨Wrote.of_eq rfl, rfl⟩, rfl, rfl⟩ hs₁

theorem drawing_of_mem_refreshed {quiet : Prop} (h : ¬ quiet) :
    ∀ output ∈ refreshed u s draw, Drawing quiet output := by
  intro output ho
  unfold refreshed at ho
  split_ifs at ho
  · simp at ho
  · rw [List.mem_singleton] at ho
    subst ho
    exact ⟨rfl, fun hquiet => absurd hquiet h⟩

theorem refreshStatus_drawing {quiet : Prop} (h : ¬ quiet) :
    Does (Drew (Drawing quiet)) (refreshStatus u draw) s fun _ _ => True :=
  (refreshStatus_does (drawing_of_mem_refreshed h)).imp fun _ _ _ _ => trivial

end Refresh

/-! ### The draws that look at the alternate screen -/

section Guarded
variable {s : Loop} {altScreenActive : Bool}

theorem drew_of_eq {p : Output → Prop} {s s' : Loop} (houtput : s'.output = s.output)
    (hprev : s'.prevAltScreenActive = s.prevAltScreenActive) (hpresence : s'.presence = s.presence)
    (hstyle : s'.bar.style = s.bar.style) : Drew p s s' :=
  ⟨⟨Wrote.of_eq houtput, hprev⟩, hpresence, hstyle⟩

theorem style_updateInfo (bar : StatusBar) (info : SessionInfo) : (bar.updateInfo info).1.style = bar.style := by
  unfold StatusBar.updateInfo
  dsimp only
  split_ifs <;> rfl

theorem style_applyPendingStatusMetadata (bar : StatusBar) (infos : List SessionInfo) :
    (applyPendingStatusMetadata bar infos).1.style = bar.style := by
  unfold applyPendingStatusMetadata
  generalize false = changed
  induction infos generalizing bar changed with
  | nil => rfl
  | cons info infos ih =>
    rw [List.foldl_cons, ih]
    exact style_updateInfo bar info

theorem markDirty_does (draw : Draw) :
    Does (Drew (Drawing (¬ config.DrawsAt altScreenActive))) (markDirty u config altScreenActive draw) s
      fun _ _ => True := by
  unfold markDirty
  refine Does.bind (Does.modify (Q := fun _ _ => True) (drew_of_eq rfl rfl rfl rfl) trivial) ?_
  intro _ s₁ _ _
  exact Does.whenever (fun hdraws => refreshStatus_drawing (not_not.mpr hdraws)) fun _ => trivial

theorem applyMetadata_does (infos : List SessionInfo) (draw : Draw) :
    Does (Drew (Drawing (¬ config.DrawsAt altScreenActive)))
      (applyMetadata u config altScreenActive infos draw) s fun _ _ => True := by
  unfold applyMetadata
  refine Does.get_bind ?_
  refine Does.bind (Does.modify (Q := fun _ _ => True)
    (drew_of_eq rfl rfl rfl (style_applyPendingStatusMetadata s.bar infos)) trivial) ?_
  intro _ s₁ _ _
  exact Does.whenever (fun _ => markDirty_does draw) fun _ => trivial

theorem applyPendingCommand_does (command : Option Str) (draw : Draw) :
    Does (Drew (Drawing (¬ config.DrawsAt altScreenActive)))
      (applyPendingCommand u config altScreenActive command draw) s fun _ _ => True := by
  unfold applyPendingCommand
  rcases command with _ | latest
  · exact Does.pure trivial
  · dsimp only
    unfold applyCommand
    refine Does.get_bind ?_
    refine Does.whenever (fun _ => ?_) fun _ => trivial
    refine Does.bind (Does.modify (Q := fun _ _ => True) (drew_of_eq rfl rfl rfl rfl) trivial) ?_
    intro _ s₁ _ _
    exact Does.whenever (fun _ => markDirty_does draw) fun _ => trivial

theorem applyResizes_does (resizes : List (ℕ × Draw)) :
    Does (Drew (Drawing (¬ config.DrawsAt altScreenActive))) (applyResizes u config altScreenActive resizes) s
      fun _ _ => True := by
  induction resizes generalizing s with
  | nil => exact Does.pure trivial
  | cons resize resizes ih =>
    unfold applyResizes
    refine Does.bind (P := fun _ _ => True) ?_ fun _ s₁ _ _ => ih
    unfold applyResize
    refine Does.bind (Does.modify (Q := fun _ _ => True) (drew_of_eq rfl rfl rfl rfl) trivial) ?_
    intro _ s₁ _ _
    refine Does.get_bind ?_
    exact Does.whenever (fun hdraws => refreshStatus_drawing (not_not.mpr hdraws.2)) fun _ => trivial

theorem forceContent_does {p : Output → Prop} (elapsedAt now : ℕ) :
    Does (Drew p) (forceContent elapsedAt now) s fun _ _ => True := by
  unfold forceContent
  refine Does.get_bind ?_
  exact Does.whenever (fun _ => Does.modify (drew_of_eq rfl rfl rfl rfl) trivial) fun _ => trivial

theorem heartbeat_does (now : ℕ) (draw : Draw) :
    Does (Drew (Drawing (¬ config.DrawsAt altScreenActive))) (heartbeat u config altScreenActive now draw) s
      fun _ _ => True := by
  unfold heartbeat
  refine Does.get_bind ?_
  refine Does.whenever (fun hdue => ?_) fun _ => trivial
  refine Does.bind (Does.modify (Q := fun _ _ => True) (drew_of_eq rfl rfl rfl rfl) trivial) ?_
  intro _ s₁ _ _
  exact refreshStatus_drawing (not_not.mpr hdue.2.1)

/-- The read, which may forward a chunk. -/
theorem readOutput_does (read : Read) :
    Does (Drew fun output => ¬ config.DrawsAt altScreenActive → output.isStatus = false)
      (readOutput u config altScreenActive read) s fun _ _ => True := by
  unfold readOutput
  rcases read with _ | _ | ⟨draw, titleDue, titleWrite⟩ | _ | ⟨bytes, write, flush⟩
  · exact Does.throw _
  · exact Does.pure trivial
  · dsimp only
    split_ifs
    · unfold idleRead
      refine Does.get_bind ?_
      refine Does.bind (P := fun _ _ => True) (Does.whenever (fun hdraws => ?_) fun _ => trivial) ?_
      · have hdrawn : Does (Drew (Drawing (¬ config.DrawsAt altScreenActive))) (refreshStatus u draw) s
            fun _ _ => True := refreshStatus_drawing (not_not.mpr hdraws.2.2)
        exact hdrawn.mono fun s' h => ⟨h.toKept.mono fun output ho => ho.2, h.presence, h.style⟩
      intro _ s₁ _ _
      refine Does.whenever (fun _ => ?_) fun _ => trivial
      refine Does.bind (emit_does fun _ => rfl) ?_
      intro _ s₂ _ _
      exact Does.lift fun _ _ => trivial
    · exact Does.throw _
  · exact Does.throw _
  · dsimp only
    unfold forwardChunk
    refine Does.get_bind ?_
    refine Does.bind (Does.modify (Q := fun _ _ => True) (drew_of_eq rfl rfl rfl rfl) trivial) ?_
    intro _ s₁ _ _
    refine Does.bind (P := fun _ _ => True) (Does.whenever (fun _ =>
      Does.modify (drew_of_eq rfl rfl rfl rfl) trivial) fun _ => trivial) ?_
    intro _ s₂ _ _
    refine Does.bind (emit_does fun _ => rfl) ?_
    intro _ s₃ _ _
    refine Does.lift_bind fun _ _ => ?_
    refine Does.bind (P := fun _ _ => True) (Does.whenever (fun _ =>
      Does.modify (drew_of_eq rfl rfl rfl rfl) trivial) fun _ => trivial) ?_
    intro _ s₄ _ _
    exact Does.lift fun _ _ => trivial

end Guarded

/-! ### The polls -/

/-- A transition that writes to the row. -/
def RowChange (s : Loop) (poll : Poll) : Option NestedAgentTransition → Prop
  | none => False
  | some .suspend => s.presence = .active
  | some .resume =>
    s.presence = .suspended ∧ poll.info.isSome ∧ poll.outcome = .advance ∧ 1 < poll.draw.rows ∧
      1 < poll.draw.cols

instance (s : Loop) (poll : Poll) : (transition : Option NestedAgentTransition) →
    Decidable (RowChange s poll transition)
  | none => inferInstanceAs (Decidable False)
  | some .suspend => inferInstanceAs (Decidable (_ = _))
  | some .resume => inferInstanceAs (Decidable (_ ∧ _))

/-- A poll that writes to the row. -/
def ChangesRow (s : Loop) (poll : Poll) : Prop :=
  RowChange s poll (s.detector.applyPresencePoll poll.present).2

instance (s : Loop) (poll : Poll) : Decidable (ChangesRow s poll) :=
  inferInstanceAs (Decidable (RowChange _ _ _))

/-- What comes after a part of the loop: where it returns, and where the loop is left. -/
def AfterRun (next left : Loop → Prop) : Except Exit Unit × Loop → Prop
  | (.ok _, s) => next s
  | (.error .leave, s) => left s
  | (.error .fail, _) => True

instance (next left : Loop → Prop) [DecidablePred next] [DecidablePred left] :
    (result : Except Exit Unit × Loop) → Decidable (AfterRun next left result)
  | (.ok _, s) => inferInstanceAs (Decidable (next s))
  | (.error .leave, s) => inferInstanceAs (Decidable (left s))
  | (.error .fail, _) => inferInstanceAs (Decidable True)

/-- None of the polls of a turn writes to the row. -/
def PollsCalm (u : Unicode) (env : StatusEnv) (s : Loop) : List Poll → Prop
  | [] => True
  | poll :: polls =>
    ¬ ChangesRow s poll ∧
      AfterRun (fun s' => PollsCalm u env s' polls) (fun _ => True) (exec (applyPoll u env poll) s)

instance PollsCalm.decidable (u : Unicode) (env : StatusEnv) : (s : Loop) → (polls : List Poll) →
    Decidable (PollsCalm u env s polls)
  | _, [] => inferInstanceAs (Decidable True)
  | _, _ :: polls =>
    have : DecidablePred fun s' => PollsCalm u env s' polls := fun s' => PollsCalm.decidable u env s' polls
    inferInstanceAs (Decidable (_ ∧ _))

/-- A row that is shown has a style. -/
def Styled (s : Loop) : Prop := s.presence = .active → s.bar.style ≠ none

section Polls
variable {s : Loop}

theorem Styled.of_drew {p : Output → Prop} {s' : Loop} (h : Styled s) (hdrew : Drew p s s') : Styled s' := by
  intro hactive
  rw [hdrew.style]
  exact h (hdrew.presence ▸ hactive)

theorem Styled.of_inactive (h : s.presence ≠ .active) : Styled s := fun h' => absurd h' h

theorem refreshed_eq_nil_of_small {draw : Draw} (h : draw.rows ≤ 1 ∨ draw.cols ≤ 1) :
    refreshed u s draw = [] := by
  have hbody : s.bar.buildDrawBody u draw.cols draw.rows = [] := if_pos h
  have hops : (s.refreshOps u draw).2 = [] := by
    unfold Loop.refreshOps StatusBar.refresh
    rw [if_pos hbody]
  exact if_pos hops

/-- What the restoration of the row writes. -/
def restored (s : Loop) (poll : Poll) : List Output :=
  if s.bar.restore poll.restoreRows = [] then [] else [.status (s.bar.restore poll.restoreRows)]

theorem restoreRow_does (poll : Poll) :
    Does (Drew (Drawing False)) (restoreRow poll) s
      fun _ s' => s' = { s with output := s.output ++ restored s poll } := by
  unfold restoreRow
  refine Does.get_bind ?_
  dsimp only
  split_ifs with hops
  · refine Does.pure ?_
    simp [restored, hops]
  · have hstatus : Drawing False (.status (s.bar.restore poll.restoreRows)) := ⟨rfl, fun h => h.elim⟩
    refine Does.bind (emit_does hstatus) ?_
    rintro - s₁ - rfl
    refine Does.pure ?_
    simp [restored, hops]

theorem concludeSuspension_does {quiet : Prop} (poll : Poll) (outcome : WriteOutcome) :
    Does (Kept (Drawing quiet)) (concludeSuspension poll outcome) s
      fun _ s' => s.bar.style ≠ none → Styled s' := by
  rcases outcome with _ | _ | _
  · rw [concludeSuspension]
    rcases poll.outcome with _ | _ | _
    · refine Does.bind (Does.modify (Q := fun _ s' => s'.presence = .suspended) ⟨Wrote.of_eq rfl, rfl⟩ rfl) ?_
      intro _ s₁ _ hsuspended
      refine Does.bind ((emit_does ⟨rfl, fun _ => rfl⟩).mono fun s' h => h.toKept) ?_
      rintro - s₂ - rfl
      refine Does.lift_bind fun _ _ => ?_
      refine Does.lift_bind fun _ _ => ?_
      refine Does.pure fun _ => Styled.of_inactive ?_
      show s₁.presence ≠ .active
      rw [hsuspended]
      decide
    · refine Does.bind (Does.modify (Q := fun _ s' => s.bar.style ≠ none → Styled s')
        ⟨Wrote.of_eq rfl, rfl⟩ fun hstyle _ => hstyle) ?_
      exact fun _ s₁ _ hs₁ => Does.pure hs₁
    · refine Does.bind (Does.modify (Q := fun _ s' => Styled s') ⟨Wrote.of_eq rfl, rfl⟩ ?_) ?_
      · exact Styled.of_inactive (by simp)
      · exact fun _ s₁ _ hs₁ => Does.pure fun _ => hs₁
  · refine Does.bind (Does.modify (Q := fun _ s' => s.bar.style ≠ none → Styled s')
      ⟨Wrote.of_eq rfl, rfl⟩ fun hstyle _ => hstyle) ?_
    exact fun _ s₁ _ hs₁ => Does.pure hs₁
  · refine Does.bind (Does.modify (Q := fun _ _ => True) ⟨Wrote.of_eq rfl, rfl⟩ trivial) ?_
    exact fun _ s₁ _ _ => Does.throw _

theorem suspendStatusRow_does (poll : Poll) :
    Does (Kept (Drawing (s.presence ≠ .active))) (suspendStatusRow poll) s
      fun _ s' => Styled s → Styled s' := by
  unfold suspendStatusRow
  refine Does.get_bind ?_
  by_cases hactive : s.presence = .active
  · rw [if_neg (not_not.mpr hactive)]
    refine Does.bind (Does.modify (Q := fun _ s' =>
      s' = { s with presence := .transitioning, metadataEnabled := false }) ⟨Wrote.of_eq rfl, rfl⟩ rfl) ?_
    rintro - s₁ - rfl
    have hquiet : ∀ output, Drawing False output → Drawing (s.presence ≠ .active) output :=
      fun output => Drawing.mono fun h => h hactive
    refine Does.bind ((restoreRow_does poll).mono fun s' h => h.toKept.mono hquiet) ?_
    rintro outcome s₂ - rfl
    exact (concludeSuspension_does poll outcome).imp fun _ _ _ hs' hstyled => hs' (hstyled hactive)
  · rw [if_pos hactive]
    exact Does.pure id

theorem drawResumed_does {quiet : Prop} {draw : Draw} (hstyle : s.bar.style ≠ none)
    (hdraw : quiet → draw.rows ≤ 1 ∨ draw.cols ≤ 1) :
    Does (Kept (Drawing quiet)) (drawResumed u draw) s fun _ s' => Styled s' := by
  unfold drawResumed
  have hdrawn : ∀ output ∈ refreshed u s draw, Drawing quiet output := by
    by_cases hquiet : quiet
    · rw [refreshed_eq_nil_of_small (hdraw hquiet)]
      simp
    · exact drawing_of_mem_refreshed hquiet
  refine Does.tryCatch ?_ ?_
  · have hrefresh : Does (Kept (Drawing quiet)) (refreshStatus u draw) s
        fun _ s' => s'.bar.style = s.bar.style :=
      ⟨(refreshStatus_does hdrawn).moves.toKept, fun _ _ => (refreshStatus_does hdrawn).moves.style⟩
    refine Does.bind hrefresh ?_
    intro _ s₁ _ hs₁
    refine Does.bind (Does.modify (Q := fun _ s' => Styled s') ⟨Wrote.of_eq rfl, rfl⟩ ?_) ?_
    · intro _
      show s₁.bar.style ≠ none
      rw [hs₁]
      exact hstyle
    · exact fun _ s₂ _ hs₂ => Does.pure hs₂
  · intro exit s₁ _
    rcases exit with _ | _
    · refine Does.bind (Does.modify (Q := fun _ s' => Styled s') ⟨Wrote.of_eq rfl, rfl⟩ ?_) ?_
      · exact Styled.of_inactive (by simp)
      · exact fun _ s₂ _ hs₂ => Does.pure hs₂
    · refine Does.bind (Does.modify (Q := fun _ _ => True) ⟨Wrote.of_eq rfl, rfl⟩ trivial) ?_
      exact fun _ s₂ _ _ => Does.throw _

theorem resumeStatusRow_does (poll : Poll) :
    Does (Kept (Drawing (¬ RowChange s poll (some .resume)))) (resumeStatusRow u env poll) s
      fun _ s' => Styled s → Styled s' := by
  unfold resumeStatusRow
  refine Does.get_bind ?_
  by_cases hsuspended : s.presence = .suspended
  · rw [if_neg (not_not.mpr hsuspended)]
    refine Does.bind (Does.modify (Q := fun _ s' => s' = { s with presence := .transitioning })
      ⟨Wrote.of_eq rfl, rfl⟩ rfl) ?_
    rintro - s₁ - rfl
    rcases hinfo : poll.info with _ | info
    · refine Does.bind (Does.modify (Q := fun _ s' => Styled s') ⟨Wrote.of_eq rfl, rfl⟩ ?_) ?_
      · exact Styled.of_inactive (by simp)
      · exact fun _ s₂ _ hs₂ => Does.pure fun _ => hs₂
    · rcases houtcome : poll.outcome with _ | _ | _
      · refine Does.bind (Does.modify (Q := fun _ s' => s'.bar.style ≠ none) ⟨Wrote.of_eq rfl, rfl⟩ ?_) ?_
        · simp
        · intro _ s₂ _ hs₂
          refine (drawResumed_does hs₂ fun hquiet => ?_).imp fun _ _ _ hs' _ => hs'
          by_contra hlarge
          rw [not_or, not_le, not_le] at hlarge
          exact hquiet ⟨hsuspended, by simp [hinfo], houtcome, hlarge.1, hlarge.2⟩
      · refine Does.bind (Does.modify (Q := fun _ s' => Styled s') ⟨Wrote.of_eq rfl, rfl⟩ ?_) ?_
        · exact Styled.of_inactive (by simp)
        · exact fun _ s₂ _ hs₂ => Does.pure fun _ => hs₂
      · refine Does.bind (Does.modify (Q := fun _ s' => Styled s') ⟨Wrote.of_eq rfl, rfl⟩ ?_) ?_
        · exact Styled.of_inactive (by simp)
        · exact fun _ s₂ _ hs₂ => Does.pure fun _ => hs₂
  · rw [if_pos hsuspended]
    exact Does.pure id

theorem performTransition_does (poll : Poll) (transition : NestedAgentTransition) :
    Does (Kept (Drawing (¬ RowChange s poll (some transition)))) (performTransition u env poll transition) s
      fun _ s' => Styled s → Styled s' := by
  cases transition with
  | suspend => exact suspendStatusRow_does poll
  | resume => exact resumeStatusRow_does poll

theorem applyPoll_does (poll : Poll) :
    Does (Kept (Drawing (¬ ChangesRow s poll))) (applyPoll u env poll) s fun _ s' => Styled s → Styled s' := by
  unfold applyPoll ChangesRow
  refine Does.get_bind ?_
  refine Does.bind (Does.modify (Q := fun _ s' => s' =
    { s with detector := (s.detector.applyPresencePoll poll.present).1 }) ⟨Wrote.of_eq rfl, rfl⟩ rfl) ?_
  intro _ s₁ _ hs₁
  rcases (s.detector.applyPresencePoll poll.present).2 with _ | transition
  · refine Does.pure ?_
    rw [hs₁]
    exact id
  · have hperform : Does _ (performTransition u env poll transition) s₁ _ := performTransition_does poll transition
    have hchange : RowChange s₁ poll (some transition) = RowChange s poll (some transition) := by
      rw [hs₁]
      cases transition <;> rfl
    have hstyled : Styled s₁ = Styled s := by rw [hs₁]; rfl
    rw [hchange, hstyled] at hperform
    refine Does.bind hperform ?_
    intro result s₂ _ hs₂
    rcases result with _ | _ | _
    · exact Does.pure hs₂
    · exact Does.modify ⟨Wrote.of_eq rfl, rfl⟩ hs₂
    · exact Does.throw _

theorem applyPolls_does (polls : List Poll) :
    Does (Kept (Drawing (PollsCalm u env s polls))) (applyPolls u env polls) s
      fun _ s' => Styled s → Styled s' := by
  induction polls generalizing s with
  | nil => exact Does.pure id
  | cons poll polls ih =>
    unfold applyPolls
    have hpoll : Does _ (applyPoll u env poll) s _ := applyPoll_does poll
    refine Does.bind (P := fun a s' => exec (applyPoll u env poll) s = (.ok a, s') ∧ (Styled s → Styled s'))
      ⟨?_, ?_⟩ ?_
    · exact hpoll.moves.mono fun output => Drawing.mono fun h => h.1
    · exact fun a ha => ⟨Prod.ext ha rfl, hpoll.returns a ha⟩
    · rintro _ s₁ - ⟨hexec, hs₁⟩
      have hnext : PollsCalm u env s (poll :: polls) → PollsCalm u env s₁ polls := by
        intro hcalm
        have hrest := hcalm.2
        rw [hexec] at hrest
        exact hrest
      refine ((ih (s := s₁)).mono fun s' h => h.mono fun output => Drawing.mono hnext).imp ?_
      exact fun _ _ _ hs' hstyled => hs' (hs₁ hstyled)

end Polls

/-! ### A turn -/

/-- A redraw with the scroll region is written, and no chunk. -/
def Redrawn (rows : ℕ) (s s' : Loop) : Prop :=
  ∃ earlier ops later, s'.output = s.output ++ (earlier ++ .status ops :: later) ∧
    .scrollRegion (rows - 1) ∈ ops ∧ ∀ output ∈ earlier ++ later, output.isChunk = false

section Turns
variable {s s' s'' : Loop} {rows : ℕ}

theorem Redrawn.after (h : Redrawn rows s' s'') (hwrote : Wrote (fun output => output.isChunk = false) s s') :
    Redrawn rows s s'' := by
  obtain ⟨earlier, ops, later, houtput, hops, hchunk⟩ := h
  obtain ⟨new, hnew, hnot⟩ := hwrote
  refine ⟨new ++ earlier, ops, later, by simp [houtput, hnew], hops, fun output ho => ?_⟩
  rw [List.append_assoc] at ho
  rcases List.mem_append.mp ho with ho | ho
  · exact hnot output ho
  · exact hchunk output ho

theorem Redrawn.before (h : Redrawn rows s s') (hwrote : Wrote (fun output => output.isChunk = false) s' s'') :
    Redrawn rows s s'' := by
  obtain ⟨earlier, ops, later, houtput, hops, hchunk⟩ := h
  obtain ⟨new, hnew, hnot⟩ := hwrote
  refine ⟨earlier, ops, later ++ new, by simp [houtput, hnew], hops, fun output ho => ?_⟩
  rw [← List.append_assoc] at ho
  rcases List.mem_append.mp ho with ho | ho
  · exact hchunk output ho
  · exact hnot output ho

/-- A forced refresh writes the scroll region. -/
theorem refreshed_reserves {draw : Draw} (hstyle : s.bar.style ≠ none) (hforce : s.bar.forceRedraw = true)
    (hrows : 1 < draw.rows) (hcols : 1 < draw.cols) :
    ∃ ops, refreshed u s draw = [.status ops] ∧ .scrollRegion (draw.rows - 1) ∈ ops := by
  obtain ⟨style, hsome⟩ := Option.ne_none_iff_exists'.mp hstyle
  have hsize : ¬ (draw.rows ≤ 1 ∨ draw.cols ≤ 1) := by omega
  have hbody : s.bar.buildDrawBody u draw.cols draw.rows ≠ [] := by
    rw [StatusBar.buildDrawBody, if_neg hsize, hsome]
    simp
  have hreserve : s.bar.buildReserveBody draw.rows =
      [.saveCursor, .scrollRegion (draw.rows - 1), .restoreCursor] := by
    refine if_neg ?_
    rintro (hnone | hsmall)
    · exact hstyle hnone
    · omega
  have hops : .scrollRegion (draw.rows - 1) ∈ (s.refreshOps u draw).2 := by
    unfold Loop.refreshOps StatusBar.refresh
    simp only [if_neg hbody, hforce, hreserve, Bool.true_or, Bool.not_true, Bool.false_and, Bool.false_eq_true,
      if_false, if_true]
    simp
  exact ⟨(s.refreshOps u draw).2, if_neg (List.ne_nil_of_mem hops), hops⟩

theorem leaveAltScreen_does {altScreenActive : Bool} (draw : Draw) :
    Does (Drew (Drawing (altScreenActive = true))) (leaveAltScreen u altScreenActive draw) s
      fun _ s' => Styled s → s.prevAltScreenActive = true → altScreenActive = false → s.presence = .active →
        1 < draw.rows → 1 < draw.cols → Redrawn draw.rows s s' := by
  unfold leaveAltScreen
  refine Does.get_bind ?_
  refine Does.whenever (fun hleft => ?_) fun hnot _ hprev hflag hactive _ _ =>
    absurd ⟨hactive, hprev, hflag⟩ hnot
  refine Does.bind (Does.modify (Q := fun _ s' => s' = { s with bar := { s.bar with forceRedraw := true } })
    (drew_of_eq rfl rfl rfl rfl) rfl) ?_
  intro _ s₁ _ hs₁
  refine (refreshStatus_does (drawing_of_mem_refreshed (by simp [hleft.2.2]))).imp ?_
  intro _ s₂ _ houtput hstyled _ _ hactive hrows hcols
  have hstyle : s₁.bar.style ≠ none := by
    rw [hs₁]
    exact hstyled hactive
  have hforce : s₁.bar.forceRedraw = true := by rw [hs₁]
  obtain ⟨ops, hrefreshed, hops⟩ := refreshed_reserves hstyle hforce hrows hcols
  rw [hrefreshed, hs₁] at houtput
  exact ⟨[], ops, [], houtput, hops, by simp⟩

/-- What holds after the draws of a turn. -/
structure Caught (altScreenActive : Bool) (input : Turn) (s s' : Loop) : Prop where
  prev : s'.prevAltScreenActive = altScreenActive
  styled : Styled s → Styled s'
  redrawn : Styled s → s.prevAltScreenActive = true → altScreenActive = false → s'.presence = .active →
    1 < input.edgeDraw.rows → 1 < input.edgeDraw.cols → Redrawn input.edgeDraw.rows s s'

theorem Kept.noChunk {quiet : Prop} (h : Kept (Drawing quiet) s s') :
    Wrote (fun output => output.isChunk = false) s s' := h.wrote.mono fun _ ho => ho.1

theorem drawPending_does {altScreenActive : Bool} {input : Turn} :
    Does (Wrote (Drawing (¬ config.DrawsAt altScreenActive))) (drawPending u config altScreenActive input) s
      fun _ => Caught altScreenActive input s := by
  unfold drawPending
  refine Does.bind ((applyMetadata_does _ _).widen fun s' h => h.wrote) ?_
  rintro - s₁ - ⟨hmetadata, -⟩
  refine Does.bind ((applyPendingCommand_does _ _).widen fun s' h => h.wrote) ?_
  rintro - s₂ - ⟨hcommand, -⟩
  have hstyled₂ : Styled s → Styled s₂ := fun hstyled => (hstyled.of_drew hmetadata).of_drew hcommand
  have hleaving : ∀ output, Drawing (altScreenActive = true) output →
      Drawing (¬ config.DrawsAt altScreenActive) output :=
    fun output => Drawing.mono fun hquiet => by
      by_contra hnot
      exact hquiet (.inl (by simpa using hnot))
  refine Does.bind ((leaveAltScreen_does _).widen fun s' h => h.wrote.mono hleaving) ?_
  rintro - s₃ - ⟨hleft, hredrawn⟩
  refine Does.bind (Does.modify (Q := fun _ s' => s' = { s₃ with prevAltScreenActive := altScreenActive })
    (Wrote.of_eq rfl) rfl) ?_
  rintro - s₄ - rfl
  refine Does.bind ((applyResizes_does _).widen fun s' h => h.wrote) ?_
  rintro - s₅ - ⟨hresized, -⟩
  refine Does.bind ((forceContent_does _ _).widen fun s' h => h.wrote) ?_
  rintro - s₆ - ⟨hforced, -⟩
  refine (heartbeat_does _ _).widen (fun s' h => h.wrote) |>.imp ?_
  rintro - s₇ - ⟨hbeat, -⟩
  refine ⟨hbeat.prev.trans (hforced.prev.trans hresized.prev), fun hstyled => ?_, ?_⟩
  · have hstyled₃ : Styled s₃ := (hstyled₂ hstyled).of_drew hleft
    have hstyled₄ : Styled { s₃ with prevAltScreenActive := altScreenActive } := hstyled₃
    have hstyled₅ : Styled s₅ := hstyled₄.of_drew hresized
    exact (hstyled₅.of_drew hforced).of_drew hbeat
  · intro hstyled hwas hflag hactive hrows hcols
    have hprev : s₂.prevAltScreenActive = true := (hcommand.prev.trans hmetadata.prev).trans hwas
    have hpresence : s₇.presence = s₂.presence :=
      hbeat.presence.trans (hforced.presence.trans (hresized.presence.trans hleft.presence))
    have hback : Redrawn input.edgeDraw.rows s₂ s₃ :=
      hredrawn (hstyled₂ hstyled) hprev hflag (hpresence.symm.trans hactive) hrows hcols
    have hearlier : Wrote (fun output => output.isChunk = false) s s₂ :=
      hmetadata.noChunk.trans hcommand.noChunk
    have hlater : Wrote (fun output => output.isChunk = false) s₃ s₇ :=
      hresized.noChunk.trans (hforced.noChunk.trans hbeat.noChunk)
    exact (hback.after hearlier).before hlater

theorem settled_drew {p : Output → Prop} : Drew p s s.settled := by
  unfold Loop.settled
  split_ifs
  · exact drew_of_eq rfl rfl rfl rfl
  · exact drew_of_eq rfl rfl rfl rfl

/-- No poll that writes to the row comes in. -/
def TurnCalm (u : Unicode) (env : StatusEnv) (config : Config) (s : Loop) (input : Turn) : Prop :=
  input.running = true → config.nestedMonitorEnabled = true → PollsCalm u env s.settled input.polls

instance (u : Unicode) (env : StatusEnv) (config : Config) (s : Loop) (input : Turn) :
    Decidable (TurnCalm u env config s input) := inferInstanceAs (Decidable (_ → _ → _))

theorem monitor_does {polls : List Poll} {quiet : Prop}
    (hquiet : quiet → config.nestedMonitorEnabled = true → PollsCalm u env s polls) :
    Does (Kept (Drawing quiet)) (whenever (config.nestedMonitorEnabled = true) (applyPolls u env polls)) s
      fun _ s' => Styled s → Styled s' := by
  refine Does.whenever (fun hmonitor => ?_) fun _ => id
  exact (applyPolls_does polls).mono fun s' h =>
    h.mono fun output => Drawing.mono fun hq => hquiet hq hmonitor

theorem beforeRead_does {quiet : Prop} {input : Turn} (hguard : quiet → ¬ config.DrawsAt s.tracker.altScreen.active)
    (hpolls : quiet → TurnCalm u env config s input) :
    Does (Wrote (Drawing quiet)) (beforeRead u env config input) s fun altScreenActive s' =>
      altScreenActive = s.tracker.altScreen.active ∧ Caught altScreenActive input s s' := by
  unfold beforeRead
  refine Does.bind (P := fun _ s' => s' = s ∧ input.running = true)
    (Does.whenever (fun _ => Does.throw _) fun hrunning => ⟨rfl, by simpa using hrunning⟩) ?_
  rintro - s₀ - ⟨rfl, hrunning⟩
  refine Does.get_bind ?_
  have hsettled : Drew (Drawing quiet) s₀ s₀.settled := settled_drew
  refine Does.bind (Does.modify (Q := fun _ s' => s' = s₀.settled) hsettled.wrote rfl) ?_
  rintro - s₁ - rfl
  have hmonitor : quiet → config.nestedMonitorEnabled = true → PollsCalm u env s₀.settled input.polls :=
    fun hquiet => hpolls hquiet hrunning
  refine Does.bind ((monitor_does hmonitor).widen fun s' h => h.wrote) ?_
  rintro - s₂ - ⟨hkept, hstyled⟩
  refine Does.bind (drawPending_does.mono fun s' h => h.mono fun output => Drawing.mono hguard) ?_
  rintro - s₃ - hcaught
  have hstyled₂ : Styled s₀ → Styled s₂ := fun h => hstyled (h.of_drew hsettled)
  have hprev : s₂.prevAltScreenActive = s₀.prevAltScreenActive := hkept.prev.trans hsettled.prev
  refine Does.pure ⟨rfl, hcaught.prev, fun h => hcaught.styled (hstyled₂ h), ?_⟩
  intro h hwas hflag hactive hrows hcols
  have hback := hcaught.redrawn (hstyled₂ h) (hprev.trans hwas) hflag hactive hrows hcols
  exact hback.after (hsettled.toKept.noChunk.trans hkept.noChunk)

end Turns

/-! ### The writes of the row -/

/-- Nothing of the status row is written. -/
def Undisturbed (s s' : Loop) : Prop := Wrote (fun output => output.isStatus = false) s s'

/-- How often the row was written to. -/
def statusWrites (s : Loop) : ℕ := s.output.countP Output.isStatus

section Disturbed
variable {p : Output → Prop} {s s' : Loop}

theorem Wrote.statusWrites_le (h : Wrote p s s') : statusWrites s ≤ statusWrites s' := by
  obtain ⟨new, hnew, -⟩ := h
  unfold statusWrites
  rw [hnew, List.countP_append]
  omega

theorem Undisturbed.statusWrites_eq (h : Undisturbed s s') : statusWrites s' = statusWrites s := by
  obtain ⟨new, hnew, hquiet⟩ := h
  have hzero : new.countP Output.isStatus = 0 :=
    List.countP_eq_zero.mpr fun output ho => by simp [hquiet output ho]
  unfold statusWrites
  rw [hnew, List.countP_append]
  omega

theorem not_undisturbed (h : statusWrites s < statusWrites s') : ¬ Undisturbed s s' := by
  intro hun
  have heq := hun.statusWrites_eq
  omega

theorem statusWrites_of_status {ops : List Op} (h : s'.output = s.output ++ [.status ops]) :
    statusWrites s < statusWrites s' := by
  unfold statusWrites
  rw [h, List.countP_append]
  simp [Output.isStatus]

theorem output_restoreRow (poll : Poll) : (exec (restoreRow poll) s).2.output = s.output ++ restored s poll := by
  unfold restoreRow restored
  rw [exec_bind_ok (exec_get s)]
  dsimp only
  by_cases hops : s.bar.restore poll.restoreRows = []
  · rw [if_pos hops, if_pos hops, List.append_nil]
    rfl
  · rw [if_neg hops, if_neg hops]
    rfl

theorem restored_of_styled {poll : Poll} (h : s.bar.style ≠ none) :
    restored s poll = [.status (s.bar.restore poll.restoreRows)] := by
  refine if_neg ?_
  rw [StatusBar.restore, if_neg h]
  simp

theorem output_refreshStatus (u : Unicode) (s : Loop) (draw : Draw) :
    (exec (refreshStatus u draw) s).2.output = s.output ++ refreshed u s draw := by
  unfold refreshStatus refreshed
  rw [exec_bind_ok (exec_get s)]
  dsimp only
  unfold whenever
  by_cases hops : (s.refreshOps u draw).2 = []
  · rw [if_neg (not_not.mpr hops), if_pos hops, List.append_nil]
    rfl
  · rw [if_pos hops, if_neg hops]
    cases draw.write <;> cases draw.flush <;> rfl

/-- A refresh that writes. -/
theorem statusWrites_refreshStatus {draw : Draw} (h : refreshed u s draw ≠ []) :
    statusWrites s < statusWrites (exec (refreshStatus u draw) s).2 := by
  have houtput := output_refreshStatus u s draw
  have hrefreshed : refreshed u s draw = [.status (s.refreshOps u draw).2] :=
    if_neg fun hops => h (if_pos hops)
  rw [hrefreshed] at houtput
  exact statusWrites_of_status houtput

theorem statusWrites_suspendStatusRow {poll : Poll} (hactive : s.presence = .active) (hstyled : Styled s) :
    statusWrites s < statusWrites (exec (suspendStatusRow poll) s).2 := by
  let s₁ : Loop := { s with presence := .transitioning, metadataEnabled := false }
  have hexec : exec (suspendStatusRow poll) s = exec (restoreRow poll >>= concludeSuspension poll) s₁ := by
    unfold suspendStatusRow
    rw [exec_bind_ok (exec_get s), if_neg (not_not.mpr hactive)]
    rfl
  have houtput := output_restoreRow (s := s₁) poll
  rw [restored_of_styled (s := s₁) (hstyled hactive)] at houtput
  have hwrites : statusWrites s < statusWrites (exec (restoreRow poll) s₁).2 :=
    statusWrites_of_status (s := s) houtput
  have hrest : Wrote (Drawing False) (exec (restoreRow poll) s₁).2
      (exec (restoreRow poll >>= concludeSuspension poll) s₁).2 :=
    bind_moves fun outcome s' => (concludeSuspension_does poll outcome).moves.wrote
  rw [hexec]
  exact hwrites.trans_le hrest.statusWrites_le

theorem statusWrites_resumeStatusRow {poll : Poll} (h : RowChange s poll (some .resume)) :
    statusWrites s < statusWrites (exec (resumeStatusRow u env poll) s).2 := by
  obtain ⟨hsuspended, hinfo, houtcome, hrows, hcols⟩ := h
  obtain ⟨info, hinfo⟩ := Option.isSome_iff_exists.mp hinfo
  have hexec : ∃ s₁ : Loop, s₁.output = s.output ∧ s₁.bar.style ≠ none ∧ s₁.bar.forceRedraw = true ∧
      exec (resumeStatusRow u env poll) s = exec (drawResumed u poll.draw) s₁ := by
    unfold resumeStatusRow
    rw [exec_bind_ok (exec_get s), if_neg (not_not.mpr hsuspended), hinfo, houtcome]
    exact ⟨{ s with
        presence := .transitioning
        tracker := { s.tracker with
          statusScrollBottom := statusScrollBottomForTerminalRows poll.rows true }
        bar := { (s.bar.updateInfo info).1 with
          style := some (resolveStatusStyle env info.statusTheme), forceRedraw := true } },
      rfl, by simp, rfl, rfl⟩
  obtain ⟨s₁, houtput, hstyle, hforce, hexec⟩ := hexec
  obtain ⟨ops, hrefreshed, -⟩ := refreshed_reserves (u := u) hstyle hforce hrows hcols
  have hwrites : statusWrites s₁ < statusWrites (exec (refreshStatus u poll.draw) s₁).2 :=
    statusWrites_refreshStatus (by simp [hrefreshed])
  have hsame : statusWrites s₁ = statusWrites s := by
    unfold statusWrites
    rw [houtput]
  have hrest : Wrote (fun _ => True) (exec (refreshStatus u poll.draw) s₁).2
      (exec (drawResumed u poll.draw) s₁).2 := by
    unfold drawResumed
    refine Wrote.trans (bind_moves (f := fun _ => _) fun _ s' => ?_) (tryCatch_moves fun exit s' => ?_)
    · exact Wrote.of_eq rfl
    · rcases exit with _ | _
      · exact Wrote.of_eq rfl
      · exact Wrote.of_eq rfl
  have hle := hrest.statusWrites_le
  rw [hexec]
  omega

theorem statusWrites_applyPoll {poll : Poll} (hstyled : Styled s) (h : ChangesRow s poll) :
    statusWrites s < statusWrites (exec (applyPoll u env poll) s).2 := by
  unfold ChangesRow at h
  rcases htransition : (s.detector.applyPresencePoll poll.present).2 with _ | transition
  · rw [htransition] at h
    exact h.elim
  rw [htransition] at h
  let s₁ : Loop := { s with detector := (s.detector.applyPresencePoll poll.present).1 }
  have hexec : exec (applyPoll u env poll) s =
      exec (performTransition u env poll transition >>= concludeTransition transition) s₁ := by
    unfold applyPoll
    rw [exec_bind_ok (exec_get s)]
    dsimp only
    rw [htransition]
    rfl
  have hwrites : statusWrites s < statusWrites (exec (performTransition u env poll transition) s₁).2 := by
    cases transition with
    | suspend => exact statusWrites_suspendStatusRow (s := s₁) h hstyled
    | resume => exact statusWrites_resumeStatusRow (s := s₁) h
  have hrest : Wrote (fun _ => True) (exec (performTransition u env poll transition) s₁).2
      (exec (performTransition u env poll transition >>= concludeTransition transition) s₁).2 := by
    refine bind_moves fun result s' => ?_
    cases result <;> exact Wrote.of_eq rfl
  rw [hexec]
  exact hwrites.trans_le hrest.statusWrites_le

theorem statusWrites_applyPolls {polls : List Poll} (hstyled : Styled s) (h : ¬ PollsCalm u env s polls) :
    statusWrites s < statusWrites (exec (applyPolls u env polls) s).2 := by
  induction polls generalizing s with
  | nil => exact absurd trivial h
  | cons poll polls ih =>
    by_cases hchange : ChangesRow s poll
    · have hrest : Wrote (Drawing False) (exec (applyPoll u env poll) s).2
          (exec (applyPolls u env (poll :: polls)) s).2 := by
        refine bind_moves fun _ s' => ?_
        exact (applyPolls_does polls).moves.wrote.mono fun output => Drawing.mono False.elim
      exact (statusWrites_applyPoll hstyled hchange).trans_le hrest.statusWrites_le
    · have hlater : ¬ AfterRun (fun s' => PollsCalm u env s' polls) (fun _ => True)
          (exec (applyPoll u env poll) s) := fun hcalm => h ⟨hchange, hcalm⟩
      rcases hrun : exec (applyPoll u env poll) s with ⟨(_ | _) | _, s₁⟩
      · rw [hrun] at hlater
        exact absurd trivial hlater
      · rw [hrun] at hlater
        exact absurd trivial hlater
      · rw [hrun] at hlater
        obtain ⟨hkept, hstyled₁⟩ := (applyPoll_does poll).returned hrun
        have hle := hkept.wrote.statusWrites_le
        have hnext := ih (hstyled₁ hstyled) hlater
        have hexec : exec (applyPolls u env (poll :: polls)) s = exec (applyPolls u env polls) s₁ :=
          exec_bind_ok hrun
        rw [hexec]
        omega

theorem statusWrites_turn {input : Turn} (hstyled : Styled s) (h : ¬ TurnCalm u env config s input) :
    statusWrites s < statusWrites (exec (turn u env config input) s).2 := by
  unfold TurnCalm at h
  push Not at h
  obtain ⟨hrunning, hmonitor, hchange⟩ := h
  let rest : LoopOp Bool := do
    drawPending u config s.tracker.altScreen.active input
    return s.tracker.altScreen.active
  have hbefore : exec (beforeRead u env config input) s =
      exec (applyPolls u env input.polls >>= fun _ => rest) s.settled := by
    unfold beforeRead whenever
    rw [if_neg (by simp [hrunning]), if_pos hmonitor]
    rfl
  have hsettled : Drew (Drawing False) s s.settled := settled_drew
  have hwrites : statusWrites s.settled < statusWrites (exec (applyPolls u env input.polls) s.settled).2 :=
    statusWrites_applyPolls (hstyled.of_drew hsettled) hchange
  have hdrawn : Wrote (fun _ => True) (exec (applyPolls u env input.polls) s.settled).2
      (exec (applyPolls u env input.polls >>= fun _ => rest) s.settled).2 := by
    refine bind_moves fun _ s' => ?_
    have hrest : Does (Wrote fun _ => True) rest s' fun _ _ => True := by
      refine Does.bind (drawPending_does.mono fun s'' h => h.mono fun _ _ => trivial) ?_
      exact fun _ _ _ _ => Does.pure trivial
    exact hrest.moves
  have hread : Wrote (fun _ => True) (exec (beforeRead u env config input) s).2
      (exec (turn u env config input) s).2 := by
    refine bind_moves fun altScreenActive s' => ?_
    exact (readOutput_does input.read).moves.wrote.mono fun _ _ => trivial
  have hle₀ := hsettled.wrote.statusWrites_le
  have hle₁ := hdrawn.statusWrites_le
  have hle₂ := hread.statusWrites_le
  rw [hbefore] at hle₂
  omega

theorem turn_does {quiet : Prop} {input : Turn} (hguard : quiet → ¬ config.DrawsAt s.tracker.altScreen.active)
    (hpolls : quiet → TurnCalm u env config s input) :
    Does (Wrote fun output => quiet → output.isStatus = false) (turn u env config input) s
      fun _ s' => s'.prevAltScreenActive = s.tracker.altScreen.active ∧ (Styled s → Styled s') := by
  unfold turn
  refine Does.bind ((beforeRead_does hguard hpolls).mono fun s' h => h.mono fun _ ho => ho.2) ?_
  rintro _ s₁ - ⟨rfl, hcaught⟩
  refine ((readOutput_does input.read).widen fun s' h => h.wrote.mono fun output ho hquiet => ?_).imp ?_
  · exact ho (hguard hquiet)
  · rintro _ s₂ - ⟨hread, -⟩
    exact ⟨hread.prev.trans hcaught.prev, fun hstyled => (hcaught.styled hstyled).of_drew hread⟩

/-- What a turn leaves that returns. -/
theorem turn_returned {input : Turn} (h : exec (turn u env config input) s = (.ok (), s')) :
    s'.prevAltScreenActive = s.tracker.altScreen.active ∧ (Styled s → Styled s') := by
  have hturn : Does (Wrote fun output => False → output.isStatus = false) (turn u env config input) s _ :=
    turn_does False.elim False.elim
  exact (hturn.returned h).2

/-- A turn on the alternate screen leaves the row alone, unless a poll writes to it. -/
theorem turn_undisturbed_iff {input : Turn} (hpolicy : config.policy ≠ .forceRow)
    (halt : s.tracker.altScreen.active = true) (hstyled : Styled s) :
    Undisturbed s (exec (turn u env config input) s).2 ↔ TurnCalm u env config s input := by
  constructor
  · intro hun
    by_contra hchange
    exact not_undisturbed (statusWrites_turn hstyled hchange) hun
  · intro hcalm
    have hguard : ¬ config.DrawsAt s.tracker.altScreen.active := by
      rintro (hflag | hforce)
      · simp [halt] at hflag
      · exact hpolicy hforce
    exact (turn_does (fun _ => hguard) fun _ => hcalm).moves.mono fun _ ho => ho trivial

/-- A refresh has something to write. -/
def Redraws (u : Unicode) (s : Loop) (draw : Draw) : Prop :=
  s.bar.style ≠ none ∧ 1 < draw.rows ∧ 1 < draw.cols ∧
    (s.bar.forceRedraw = true ∨ s.bar.forceContentRedraw = true ∨
      s.bar.lastBody ≠ some (render (s.bar.buildDrawBody u draw.cols draw.rows)))

/-- The last refresh has something to write, and the last turn saw no alternate screen. -/
def EndsWithRedraw (u : Unicode) (config : Config) (s : Loop) (draw : Draw) : Prop :=
  s.statusDirty = true ∧ s.presence = .active ∧ config.DrawsAt s.prevAltScreenActive ∧ Redraws u s draw

instance (u : Unicode) (s : Loop) (draw : Draw) : Decidable (Redraws u s draw) :=
  inferInstanceAs (Decidable (_ ∧ _))

instance (u : Unicode) (config : Config) (s : Loop) (draw : Draw) :
    Decidable (EndsWithRedraw u config s draw) := inferInstanceAs (Decidable (_ ∧ _))

theorem refreshed_ne_nil_iff {draw : Draw} : refreshed u s draw ≠ [] ↔ Redraws u s draw := by
  have hrefreshed : refreshed u s draw ≠ [] ↔ (s.refreshOps u draw).2 ≠ [] := by
    unfold refreshed
    by_cases hops : (s.refreshOps u draw).2 = []
    · rw [if_pos hops]
      simp [hops]
    · rw [if_neg hops]
      simp [hops]
  rw [hrefreshed]
  unfold Loop.refreshOps StatusBar.refresh Redraws
  dsimp only
  rcases hstyle : s.bar.style with _ | style
  · have hbody : s.bar.buildDrawBody u draw.cols draw.rows = [] := by
      unfold StatusBar.buildDrawBody
      rw [hstyle]
      simp
    simp [hbody]
  · by_cases hsize : draw.rows ≤ 1 ∨ draw.cols ≤ 1
    · have hbody : s.bar.buildDrawBody u draw.cols draw.rows = [] := if_pos hsize
      have hnot : ¬ (1 < draw.rows ∧ 1 < draw.cols) := by omega
      rw [if_pos hbody]
      simp only [ne_eq, not_true_eq_false, false_iff]
      rintro ⟨-, hrows, hcols, -⟩
      exact hnot ⟨hrows, hcols⟩
    · have hbody : s.bar.buildDrawBody u draw.cols draw.rows ≠ [] := by
        rw [StatusBar.buildDrawBody, if_neg hsize, hstyle]
        simp
      have hlarge : 1 < draw.rows ∧ 1 < draw.cols := by omega
      have hskip : (!(s.bar.forceRedraw ||
            decide (s.bar.lastBody ≠ some (render (s.bar.buildDrawBody u draw.cols draw.rows)))) &&
          !s.bar.forceContentRedraw) = true ↔
          ¬ (s.bar.forceRedraw = true ∨ s.bar.forceContentRedraw = true ∨
            s.bar.lastBody ≠ some (render (s.bar.buildDrawBody u draw.cols draw.rows))) := by
        simp only [Bool.and_eq_true, Bool.not_eq_true', Bool.or_eq_false_iff, decide_eq_false_iff_not, not_or,
          Bool.not_eq_true]
        tauto
      rw [if_neg hbody]
      by_cases hforced : s.bar.forceRedraw = true ∨ s.bar.forceContentRedraw = true ∨
          s.bar.lastBody ≠ some (render (s.bar.buildDrawBody u draw.cols draw.rows))
      · rw [if_neg (fun hskips => hskip.mp hskips hforced)]
        exact iff_of_true (by simp) ⟨by simp, hlarge.1, hlarge.2, hforced⟩
      · rw [if_pos (hskip.mpr hforced)]
        exact iff_of_false (by simp) fun h => hforced h.2.2.2

/-- The last refresh leaves the row alone unless it has something to write. -/
theorem finish_undisturbed_iff {draw : Draw} :
    Undisturbed s (exec (finish u config draw) s).2 ↔ ¬ EndsWithRedraw u config s draw := by
  unfold finish
  rw [exec_bind_ok (exec_get s)]
  unfold whenever EndsWithRedraw
  by_cases hdue : s.statusDirty = true ∧ s.presence = .active ∧ config.DrawsAt s.prevAltScreenActive
  · rw [if_pos hdue]
    have hends : ¬ (s.statusDirty = true ∧ s.presence = .active ∧ config.DrawsAt s.prevAltScreenActive ∧
        Redraws u s draw) ↔ refreshed u s draw = [] := by
      rw [← not_iff_not, not_not, ← ne_eq, refreshed_ne_nil_iff]
      exact ⟨fun h => h.2.2.2, fun h => ⟨hdue.1, hdue.2.1, hdue.2.2, h⟩⟩
    rw [hends]
    constructor
    · intro hun
      by_contra hwrites
      exact not_undisturbed (statusWrites_refreshStatus hwrites) hun
    · intro hnone
      have hquiet : ∀ output ∈ refreshed u s draw, output.isStatus = false := by simp [hnone]
      exact (refreshStatus_does hquiet).moves.wrote
  · rw [if_neg hdue]
    exact iff_of_true (Wrote.of_eq rfl) fun h => hdue ⟨h.1, h.2.1, h.2.2.1⟩

end Disturbed

/-! ### Runs -/

section Runs
variable (u : Unicode) (env : StatusEnv) (config : Config) (final : Draw) (start : Loop)

/-- The state at the top of the turn after these. -/
def Reaches (inputs : List Turn) (s : Loop) : Prop := exec (outputLoop u env config inputs) start = (.ok (), s)

/-- While the program is on the alternate screen, neither a turn nor the refresh after the loop writes to the
row. -/
structure HeldBack (inputs : List Turn) : Prop where
  turns : ∀ before input after s, inputs = before ++ input :: after →
    Reaches u env config start before s → s.tracker.altScreen.active = true →
      Undisturbed s (exec (turn u env config input) s).2
  ending : ∀ s, exec (outputLoop u env config inputs) start = (.error .leave, s) →
    s.tracker.altScreen.active = true → Undisturbed s (exec (finish u config final) s).2

/-- The first turn after the alternate screen draws the row before it reads, if the row is shown. -/
def BroughtBack (inputs : List Turn) : Prop :=
  ∀ before earlier input after s₀ s altScreenActive s', inputs = before ++ earlier :: input :: after →
    Reaches u env config start before s₀ → s₀.tracker.altScreen.active = true →
      exec (turn u env config earlier) s₀ = (.ok (), s) → s.tracker.altScreen.active = false →
        exec (beforeRead u env config input) s = (.ok altScreenActive, s') → s'.presence = .active →
          1 < input.edgeDraw.rows → 1 < input.edgeDraw.cols → Redrawn input.edgeDraw.rows s s'

/-- On the alternate screen no poll writes to the row, and the loop is not left in the turn after the one in
which the program came there with something to draw. -/
def Calm (s : Loop) : List Turn → Prop
  | [] => True
  | input :: inputs =>
    (s.tracker.altScreen.active = true → TurnCalm u env config s input) ∧
      AfterRun (fun s' => Calm s' inputs)
        (fun s' => s'.tracker.altScreen.active = true → ¬ EndsWithRedraw u config s' final)
        (exec (turn u env config input) s)

instance Calm.decidable : (s : Loop) → (inputs : List Turn) → Decidable (Calm u env config final s inputs)
  | _, [] => inferInstanceAs (Decidable True)
  | _, _ :: inputs =>
    have : DecidablePred fun s' => Calm u env config final s' inputs := fun s' => Calm.decidable s' inputs
    inferInstanceAs (Decidable (_ ∧ _))

end Runs

section RunLemmas
variable {final : Draw} {start : Loop}

theorem style_enter (u : Unicode) (env : StatusEnv) (info : Option SessionInfo) (style : Option StatusStyle)
    (cursorVisible : Bool) (cols rows : ℕ) :
    (StatusBar.enter u env info style cursorVisible cols rows).1.style = style := by
  unfold StatusBar.enter StatusBar.drawAtSize
  dsimp only
  split_ifs <;> rfl

theorem styled_start (u : Unicode) (env : StatusEnv) (config : Config) (opening : Opening) :
    Styled (opening.start u env config) := by
  intro hactive
  unfold Opening.start at hactive ⊢
  dsimp only at hactive ⊢
  rw [style_enter]
  split_ifs at hactive ⊢ with hgrid
  exact Option.some_ne_none _

theorem reaches_cons {input : Turn} {inputs : List Turn} {s : Loop} :
    Reaches u env config start (input :: inputs) s ↔
      ∃ s₁, exec (turn u env config input) start = (.ok (), s₁) ∧ Reaches u env config s₁ inputs s := by
  have hloop := exec_bind (turn u env config input) (fun _ => outputLoop u env config inputs) start
  show exec (turn u env config input >>= fun _ => outputLoop u env config inputs) start = _ ↔ _
  rw [hloop]
  rcases exec (turn u env config input) start with ⟨exit | _, s₁⟩
  · simp
  · simp [Reaches]

theorem Reaches.styled {inputs : List Turn} {s : Loop} (h : Reaches u env config start inputs s)
    (hstart : Styled start) : Styled s := by
  induction inputs generalizing start with
  | nil =>
    cases h
    exact hstart
  | cons input inputs ih =>
    obtain ⟨s₁, hturn, hrest⟩ := reaches_cons.mp h
    exact ih hrest ((turn_returned hturn).2 hstart)

/-- A run is held back if its first turn is, and what follows it. -/
theorem heldBack_cons {input : Turn} {inputs : List Turn} :
    HeldBack u env config final start (input :: inputs) ↔
      (start.tracker.altScreen.active = true → Undisturbed start (exec (turn u env config input) start).2) ∧
      AfterRun (fun s => HeldBack u env config final s inputs)
        (fun s => s.tracker.altScreen.active = true → Undisturbed s (exec (finish u config final) s).2)
        (exec (turn u env config input) start) := by
  have hloop := exec_bind (turn u env config input) (fun _ => outputLoop u env config inputs) start
  constructor
  · rintro ⟨hturns, hending⟩
    refine ⟨hturns [] input inputs start rfl rfl, ?_⟩
    rcases hturn : exec (turn u env config input) start with ⟨(_ | _) | _, s₁⟩
    · rw [hturn] at hloop
      exact hending s₁ hloop
    · trivial
    · rw [hturn] at hloop
      refine ⟨fun before next after s hinputs hreach => ?_, fun s hexec => hending s (hloop.trans hexec)⟩
      exact hturns (input :: before) next after s (by rw [hinputs, List.cons_append])
        (reaches_cons.mpr ⟨s₁, hturn, hreach⟩)
  · rintro ⟨hfirst, hrest⟩
    refine ⟨fun before next after s hinputs hreach => ?_, fun s hexec => ?_⟩
    · rcases before with _ | ⟨earlier, before⟩
      · cases hreach
        obtain ⟨rfl, -⟩ := List.cons.inj hinputs
        exact hfirst
      · obtain ⟨rfl, hinputs'⟩ := List.cons.inj hinputs
        obtain ⟨s₁, hturn, hreach'⟩ := reaches_cons.mp hreach
        rw [hturn] at hrest
        exact hrest.turns before next after s hinputs' hreach'
    · have hexec' := hloop.symm.trans hexec
      rcases hturn : exec (turn u env config input) start with ⟨(_ | _) | _, s₁⟩
      · rw [hturn] at hrest hexec'
        cases hexec'
        exact hrest
      · rw [hturn] at hexec'
        cases hexec'
      · rw [hturn] at hrest hexec'
        exact hrest.ending s hexec'

theorem heldBack_iff_calm {inputs : List Turn} (hpolicy : config.policy ≠ .forceRow) (hstart : Styled start) :
    HeldBack u env config final start inputs ↔ Calm u env config final start inputs := by
  induction inputs generalizing start with
  | nil =>
    refine iff_of_true ⟨fun before input after s hinputs => ?_, fun s hexec => ?_⟩ trivial
    · simp at hinputs
    · cases hexec
  | cons input inputs ih =>
    rw [heldBack_cons, Calm]
    refine and_congr (forall_congr' fun halt => turn_undisturbed_iff hpolicy halt hstart) ?_
    rcases hturn : exec (turn u env config input) start with ⟨(_ | _) | _, s₁⟩
    · exact forall_congr' fun _ => finish_undisturbed_iff
    · exact Iff.rfl
    · exact ih ((turn_returned hturn).2 hstart)

theorem broughtBack (inputs : List Turn) (hstart : Styled start) : BroughtBack u env config start inputs := by
  intro before earlier input after s₀ s altScreenActive s' _ hreach halt hturn hflag hready hactive hrows hcols
  obtain ⟨hprev, hstyled⟩ := turn_returned hturn
  have hdraws : Does (Wrote (Drawing False)) (beforeRead u env config input) s _ :=
    beforeRead_does False.elim False.elim
  obtain ⟨-, rfl, hcaught⟩ := hdraws.returned hready
  exact hcaught.redrawn (hstyled (hreach.styled hstart)) (hprev.trans halt) hflag hactive hrows hcols

end RunLemmas

/-- Under a policy that does not force the row, a run of the loop holds the row back on the alternate screen,
and brings it back after it, exactly if the run is calm. -/
theorem held_back_iff_calm (u : Unicode) (env : StatusEnv) (config : Config) (opening : Opening)
    (inputs : List Turn) (final : Draw) (hpolicy : config.policy ≠ .forceRow) :
    (HeldBack u env config final (opening.start u env config) inputs ∧
        BroughtBack u env config (opening.start u env config) inputs) ↔
      Calm u env config final (opening.start u env config) inputs := by
  have hstyled := styled_start u env config opening
  constructor
  · exact fun h => (heldBack_iff_calm hpolicy hstyled).mp h.1
  · exact fun hcalm => ⟨(heldBack_iff_calm hpolicy hstyled).mpr hcalm, broughtBack inputs hstyled⟩

/-! ### Two runs that are not calm -/

/-- A grid with a row, and a monitor for nested agents. -/
def gridConfig : Config := ⟨.rowAuto, true, false, false, false, false⟩

/-- An attach to a terminal of 20 columns and 24 rows. -/
def gridOpening : Opening := ⟨none, false, 20, 24, 24, 0, 0⟩

/-- A refresh at that size. -/
def gridDraw (now : ℕ) : Draw := ⟨20, 24, .written, .written, now⟩

/-- A turn in which nothing has come in. -/
def gridTurn (now : ℕ) (read : Read) : Turn :=
  { running := true, polls := [], metadata := [], metadataDraw := gridDraw now, command := none
    commandDraw := gridDraw now, edgeDraw := gridDraw now, resizes := [], forcedElapsed := now
    forcedNow := now, heartbeatNow := now, heartbeatDraw := gridDraw now, read }

/-- The program switches to the alternate screen. -/
def enterScreen : Read := .chunk [27, 91, 63, 49, 48, 52, 57, 104] .written .written

/-- The program switches back. -/
def leaveScreen : Read := .chunk [27, 91, 63, 49, 48, 52, 57, 108] .written .written

/-- A poll that finds an agent, and a request that has to be made again. -/
def agentPoll : Poll :=
  ⟨some true, 24, .written, none, 24, .retry, gridDraw 20, .written, .written, 20⟩

/-- Two polls find an agent while the program is on the alternate screen: the restoration is written there. In
the second run the loop is left right after the program came there: the last refresh is written. -/
theorem not_held_back :
    ¬ HeldBack Row.narrow plainEnv gridConfig (gridDraw 30) (gridOpening.start Row.narrow plainEnv gridConfig)
      [gridTurn 10 enterScreen, { gridTurn 20 .interrupted with polls := [agentPoll, agentPoll] }] ∧
    ¬ HeldBack Row.narrow plainEnv gridConfig (gridDraw 30) (gridOpening.start Row.narrow plainEnv gridConfig)
      [gridTurn 10 enterScreen, { gridTurn 20 .interrupted with running := false }] := by
  have hpolicy : gridConfig.policy ≠ .forceRow := by decide
  have hstyled := styled_start Row.narrow plainEnv gridConfig gridOpening
  rw [heldBack_iff_calm hpolicy hstyled, heldBack_iff_calm hpolicy hstyled]
  decide +kernel

/-- A program comes to the alternate screen and leaves it, with heartbeats and a new size in between. -/
theorem held_back_heartbeats :
    HeldBack Row.narrow plainEnv gridConfig (gridDraw 6000) (gridOpening.start Row.narrow plainEnv gridConfig)
        [gridTurn 10 enterScreen, { gridTurn 3000 leaveScreen with resizes := [(30, gridDraw 3000)] },
          gridTurn 5000 .closed] ∧
      BroughtBack Row.narrow plainEnv gridConfig (gridOpening.start Row.narrow plainEnv gridConfig)
        [gridTurn 10 enterScreen, { gridTurn 3000 leaveScreen with resizes := [(30, gridDraw 3000)] },
          gridTurn 5000 .closed] :=
  (held_back_iff_calm Row.narrow plainEnv gridConfig gridOpening _ (gridDraw 6000) (by decide)).mpr
    (by decide +kernel)

end LightTerminal.Client.ScreenGuard
