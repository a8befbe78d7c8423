import LightTerminal.Client.StatusRow
import LightTerminal.Library.Run

/-! # Presence of the status row

While an agent runs nested in the pane, the client gives the status row up: `suspend_status_row`
restores the host and asks the daemon for the whole height, `resume_status_row` takes the row back.
Between them `refresh_status` draws the row, and skips what `last_body` says is drawn already.

A step of the attached client is an `Event`: one of these three, something that changes what the row
says, or a change of the terminal's size, to which the host may react in any way. `Watched` adds what
the client does not keep: whether a suspension that failed has taken the row off the host and nothing
has put it back.

`refresh_drawn_iff`: the row is drawn after a refresh, unless it was lost in this way, the redraw is not
forced and the body is the last one. -/

namespace LightTerminal.Client.StatusPresence

open LightTerminal.Data.Text LightTerminal.Library LightTerminal.Sanitize LightTerminal.Sanitize.Truncate
open LightTerminal.Client.StatusRow

/-! ### The client -/

/-- `StatusPresenceState`. -/
inductive StatusPresenceState where
  | disabled
  | active
  | suspended
  | transitioning
  deriving DecidableEq, Repr

/-- `ResizeTickOutcome`. -/
inductive ResizeTickOutcome where
  | advance
  | retry
  | staleSubscriberId
  deriving DecidableEq, Repr

/-- `StatusTransitionResult`. -/
inductive StatusTransitionResult where
  | applied
  | ignored
  | detached
  deriving DecidableEq, Repr

/-- An attached client: the presence of its status row, its bar, what it shares with the threads that
poll for the row, and the terminal it runs in. -/
structure Attach where
  presence : StatusPresenceState
  bar : StatusBar
  metadataEnabled : Bool
  statusDirty : Bool
  host : Host
  deriving DecidableEq, Repr

namespace Attach

variable (u : Unicode) (env : StatusEnv) (client : Attach)

/-- The start of an attach: `StatusPresenceRuntimeHandle::new`, `StatusBar::enter` and the colour of
the status command. -/
def start (inGrid commandAllowColor cursorVisible : Bool) (info : Option SessionInfo) (host : Host) :
    Attach :=
  let style := if inGrid then some (resolveStatusStyle env (info.bind SessionInfo.statusTheme)) else none
  let entered := StatusBar.enter u env info style cursorVisible host.size.cols host.size.rows
  { presence := if inGrid then .active else .disabled
    bar := { entered.1 with commandAllowColor }
    metadataEnabled := inGrid
    statusDirty := false
    host := host.performAll entered.2 }

/-- `refresh_status`. -/
def refreshStatus (cursorVisible : Bool) : Attach :=
  let refreshed := client.bar.refresh u cursorVisible client.host.size.cols client.host.size.rows
  { client with
    bar := refreshed.1
    host := client.host.performAll refreshed.2
    statusDirty := false }

/-- `suspend_status_row`, with the outcome of the request for the new size. -/
def suspendStatusRow (outcome : ResizeTickOutcome) : Attach × StatusTransitionResult :=
  if client.presence ≠ .active then (client, .ignored)
  else
    let restored := client.host.performAll (client.bar.restore client.host.size.rows)
    match outcome with
    | .advance =>
      ({ client with
          bar := { client.bar with style := none }, presence := .suspended, host := restored,
          metadataEnabled := false, statusDirty := false },
        .applied)
    | .retry =>
      ({ client with
          presence := .active, host := restored, metadataEnabled := true, statusDirty := true },
        .ignored)
    | .staleSubscriberId =>
      ({ client with presence := .disabled, host := restored, metadataEnabled := false }, .detached)

/-- What `resume_status_row` makes of the bar before it draws. -/
def restyled (info : SessionInfo) : Attach :=
  { client with
    bar :=
      { (client.bar.updateInfo info).1 with
        style := some (resolveStatusStyle env info.statusTheme), forceRedraw := true } }

/-- `resume_status_row`, with the answer to `info` and the outcome of the request for the new size. -/
def resumeStatusRow (info : Option SessionInfo) (outcome : ResizeTickOutcome) (cursorVisible : Bool) :
    Attach × StatusTransitionResult :=
  if client.presence ≠ .suspended then (client, .ignored)
  else
    match info, outcome with
    | none, _ => ({ client with presence := .suspended, metadataEnabled := false }, .ignored)
    | some info, .advance =>
      let refreshed := (client.restyled env info).refreshStatus u cursorVisible
      ({ refreshed with presence := .active, metadataEnabled := true }, .applied)
    | some _, .retry => ({ client with presence := .suspended, metadataEnabled := false }, .ignored)
    | some _, .staleSubscriberId => ({ client with presence := .disabled }, .detached)

/-- The row is drawn: the scroll region ends above the last row, which shows the line. -/
def Drawn : Prop :=
  client.host.scrollBottom = client.host.size.rows - 1 ∧
    ∃ style, client.bar.style = some style ∧
      client.host.statusRow = .line (client.bar.statusText u style client.host.size.cols ++ sgrReset)

/-- The body is the one written last. -/
def SameBody : Prop :=
  client.bar.lastBody =
    some (render (client.bar.buildDrawBody u client.host.size.cols client.host.size.rows))

instance : Decidable (client.SameBody u) := inferInstanceAs (Decidable (_ = _))

/-- A refresh writes the scroll region. -/
def Reserves : Prop :=
  client.bar.style ≠ none ∧ (client.bar.forceRedraw = true ∨ ¬ client.SameBody u)

instance : Decidable (client.Reserves u) := inferInstanceAs (Decidable (_ ∧ _))

end Attach

/-! ### Runs -/

/-- What happens to an attached client. A change of size comes with the redraw it forces. -/
inductive Event where
  | refresh (cursorVisible : Bool)
  | suspend (outcome : ResizeTickOutcome)
  | resume (info : Option SessionInfo) (outcome : ResizeTickOutcome) (cursorVisible : Bool)
  | metadata (info : SessionInfo)
  | command (latest : Str)
  | forceRedraw
  | forceContentRedraw
  | resized (host : Host)

/-- A client, and whether a failed suspension has taken the row off the host since a scroll region was
last written. -/
structure Watched where
  client : Attach
  lost : Bool

section Runs

variable (u : Unicode) (env : StatusEnv)

/-- What an event does to the client. -/
def Attach.step (client : Attach) : Event → Attach
  | .refresh cursorVisible => client.refreshStatus u cursorVisible
  | .suspend outcome => (client.suspendStatusRow outcome).1
  | .resume info outcome cursorVisible => (client.resumeStatusRow u env info outcome cursorVisible).1
  | .metadata info => { client with bar := (client.bar.updateInfo info).1 }
  | .command latest => { client with bar := { client.bar with commandLine := some latest } }
  | .forceRedraw => { client with bar := { client.bar with forceRedraw := true } }
  | .forceContentRedraw => { client with bar := { client.bar with forceContentRedraw := true } }
  | .resized host => { client with host, bar := { client.bar with forceRedraw := true } }

/-- Whether the row is lost after an event. -/
def Watched.lostAfter (w : Watched) : Event → Bool
  | .suspend .retry => w.lost || decide (w.client.presence = .active)
  | .refresh _ => w.lost && decide (¬ w.client.Reserves u)
  | .resume (some _) .advance _ => w.lost && decide (w.client.presence ≠ .suspended)
  | _ => w.lost

/-- A step of the client that is watched. -/
def Watched.step (w : Watched) (event : Event) : Watched :=
  ⟨w.client.step u env event, w.lostAfter u event⟩

/-- A run from an attach on. -/
def runFrom (client : Attach) (events : List Event) : Watched :=
  Run.run (Watched.step u env) ⟨client, false⟩ events

end Runs

/-! ### A refresh -/

namespace Attach

variable {u : Unicode} {client : Attach} {style : StatusStyle}

/-- The bar after its body was written. -/
def written (u : Unicode) (client : Attach) : StatusBar :=
  { client.bar.rememberStatusRow client.host.size.rows
      (client.bar.visiblePreviousStatusRows client.host.size.rows) with
    lastBody :=
      some (render (client.bar.buildDrawBody u client.host.size.cols client.host.size.rows))
    forceRedraw := false
    forceContentRedraw := false }

/-- The host with the line on its last row. -/
def lined (u : Unicode) (client : Attach) (style : StatusStyle) : Host :=
  { client.host with
    statusRow := .line (client.bar.statusText u style client.host.size.cols ++ sgrReset)
    written := none }

theorem buildDrawBody_ne_nil (hstyle : client.bar.style = some style) :
    client.bar.buildDrawBody u client.host.size.cols client.host.size.rows ≠ [] := by
  have hrows := client.host.size.one_lt_rows
  have hcols := client.host.size.one_lt_cols
  have hsize : ¬ (client.host.size.rows ≤ 1 ∨ client.host.size.cols ≤ 1) := by omega
  rw [StatusBar.buildDrawBody, if_neg hsize, hstyle]
  simp

theorem suspendStatusRow_ignored (h : client.presence ≠ .active) (outcome : ResizeTickOutcome) :
    client.suspendStatusRow outcome = (client, .ignored) := if_pos h

theorem resumeStatusRow_ignored {env : StatusEnv} (h : client.presence ≠ .suspended)
    (info : Option SessionInfo) (outcome : ResizeTickOutcome) (cursorVisible : Bool) :
    client.resumeStatusRow u env info outcome cursorVisible = (client, .ignored) := if_pos h

/-- A resumption either draws the row of an active client, or there is none. -/
theorem resumeStatusRow_cases (u : Unicode) (env : StatusEnv) (h : client.presence = .suspended)
    (info : Option SessionInfo) (outcome : ResizeTickOutcome) (cursorVisible : Bool) :
    (∃ answer, info = some answer ∧ outcome = .advance ∧
      (client.resumeStatusRow u env info outcome cursorVisible).1 =
        { (client.restyled env answer).refreshStatus u cursorVisible with
          presence := .active, metadataEnabled := true }) ∨
    (client.resumeStatusRow u env info outcome cursorVisible).1.presence ≠ .active := by
  have hnot : ¬ client.presence ≠ .suspended := not_not.mpr h
  unfold resumeStatusRow
  rw [if_neg hnot]
  rcases info with _ | info
  · exact .inr (by simp)
  · rcases outcome with _ | _ | _
    · exact .inl ⟨info, rfl, rfl, rfl⟩
    · exact .inr (by simp)
    · exact .inr (by simp)

theorem style_refreshStatus (cursorVisible : Bool) :
    (client.refreshStatus u cursorVisible).bar.style = client.bar.style := by
  unfold refreshStatus StatusBar.refresh
  dsimp only
  split_ifs <;> rfl

/-- A redraw that is forced, or of a new body. -/
theorem refreshStatus_reserves (hstyle : client.bar.style = some style)
    (h : client.bar.forceRedraw = true ∨ ¬ client.SameBody u) (cursorVisible : Bool) :
    client.refreshStatus u cursorVisible =
      { client with
        bar := client.written u
        host := { client.lined u style with scrollBottom := client.host.size.rows - 1 }
        statusDirty := false } := by
  have hbody := buildDrawBody_ne_nil (u := u) hstyle
  have hwrite : (client.bar.forceRedraw || decide (client.bar.lastBody ≠
      some (render (client.bar.buildDrawBody u client.host.size.cols client.host.size.rows)))) =
      true := by
    simpa [SameBody] using h
  have hreserve := StatusBar.performAll_buildReserveBody client.bar client.host hstyle
  have hdraw := StatusBar.performAll_buildDrawBody u client.bar
    { client.host with scrollBottom := client.host.size.rows - 1, written := none } hstyle
  have hhide : client.host.performAll [.hideCursor] = client.host := rfl
  unfold refreshStatus StatusBar.refresh
  simp only [if_neg hbody, hwrite, Bool.not_true, Bool.false_and, Bool.false_eq_true, if_false,
    if_true, Host.performAll_append, hhide, hreserve, hdraw]
  simp only [Host.performAll_cons, Host.performAll_nil, StatusBar.performAll_cursorRestoreSuffix]
  rfl

/-- A redraw of the content only. -/
theorem refreshStatus_content (hstyle : client.bar.style = some style)
    (hforce : client.bar.forceRedraw = false) (hsame : client.SameBody u)
    (hcontent : client.bar.forceContentRedraw = true) (cursorVisible : Bool) :
    client.refreshStatus u cursorVisible =
      { client with bar := client.written u, host := client.lined u style, statusDirty := false } := by
  have hbody := buildDrawBody_ne_nil (u := u) hstyle
  have hdraw := StatusBar.performAll_buildDrawBody u client.bar client.host hstyle
  have hhide : client.host.performAll [.hideCursor] = client.host := rfl
  have hwrite : decide (client.bar.lastBody ≠
      some (render (client.bar.buildDrawBody u client.host.size.cols client.host.size.rows))) =
      false := by
    simpa [SameBody] using hsame
  unfold refreshStatus StatusBar.refresh
  simp only [if_neg hbody, hforce, hwrite, hcontent, Bool.or_false, Bool.not_true, Bool.and_false,
    Bool.false_eq_true, if_false, Host.performAll_append, hhide, Host.performAll_nil, hdraw]
  simp only [Host.performAll_cons, Host.performAll_nil, StatusBar.performAll_cursorRestoreSuffix]
  rfl

/-- A redraw that is skipped. -/
theorem refreshStatus_skip (hstyle : client.bar.style = some style)
    (hforce : client.bar.forceRedraw = false) (hsame : client.SameBody u)
    (hcontent : client.bar.forceContentRedraw = false) (cursorVisible : Bool) :
    client.refreshStatus u cursorVisible = { client with statusDirty := false } := by
  have hbody := buildDrawBody_ne_nil (u := u) hstyle
  have hwrite : decide (client.bar.lastBody ≠
      some (render (client.bar.buildDrawBody u client.host.size.cols client.host.size.rows))) =
      false := by
    simpa [SameBody] using hsame
  unfold refreshStatus StatusBar.refresh
  simp only [if_neg hbody, hforce, hwrite, hcontent, Bool.or_false, Bool.not_false, Bool.and_true,
    if_true]
  rfl

/-! ### What is remembered of the host -/

/-- The text of the last body is that of a line which is drawn, below the scroll region. -/
def Remembered (u : Unicode) (client : Attach) : Prop :=
  ∀ text, client.bar.lastBody = some text →
    ∃ (drawn : StatusBar) (style : StatusStyle) (cols : ℕ),
      drawn.style = some style ∧ drawn.preserveSgrStack = client.bar.preserveSgrStack ∧ 1 < cols ∧
      text = render (drawn.buildDrawBody u cols client.host.size.rows) ∧
      client.host.scrollBottom = client.host.size.rows - 1 ∧
      client.host.statusRow = .line (drawn.statusText u style cols ++ sgrReset)

/-- A remembered body that is also the body now: its line is drawn. -/
theorem Remembered.drawn (h : client.Remembered u) (hstyle : client.bar.style = some style)
    (hsame : client.SameBody u) : client.Drawn u := by
  obtain ⟨bar, style', cols, hstyle', hpreserve, hcols, htext, hscroll, hrow⟩ := h _ hsame
  have hline := StatusBar.statusText_of_render_eq u hstyle hstyle' hpreserve.symm
    client.host.size.one_lt_cols hcols client.host.size.one_lt_rows htext
  refine ⟨hscroll, style, hstyle, ?_⟩
  rw [hrow, hline]

/-- A line that was just drawn below the scroll region is remembered. -/
theorem remembered_written (hstyle : client.bar.style = some style) {after : Attach}
    (hbar : after.bar = client.written u) (hsize : after.host.size = client.host.size)
    (hscroll : after.host.scrollBottom = client.host.size.rows - 1)
    (hrow : after.host.statusRow = (client.lined u style).statusRow) : after.Remembered u := by
  intro text htext
  rw [hbar] at htext
  have hbody := (Option.some.inj htext).symm
  refine ⟨client.bar, style, client.host.size.cols, hstyle, ?_, client.host.size.one_lt_cols, ?_, ?_,
    hrow⟩
  · rw [hbar]
    rfl
  · rw [hsize]
    exact hbody
  · rw [hscroll, hsize]

end Attach

/-- What holds of an active client in every run: it has a style; unless a redraw is forced, the last
body is drawn, or the row is lost and the scroll region is the whole screen. -/
structure Holds (u : Unicode) (w : Watched) : Prop where
  styled : w.client.presence = .active → ∃ style, w.client.bar.style = some style
  remembered : w.client.presence = .active → w.lost = false → w.client.bar.forceRedraw = false →
    w.client.Remembered u
  taken : w.client.presence = .active → w.lost = true → w.client.bar.forceRedraw = false →
    w.client.host.scrollBottom = w.client.host.size.rows

namespace Holds

variable {u : Unicode} {env : StatusEnv} {w : Watched}

/-- A client that is not active. -/
theorem of_inactive (h : w.client.presence ≠ .active) : Holds u w :=
  ⟨fun h' => absurd h' h, fun h' => absurd h' h, fun h' => absurd h' h⟩

/-- A client whose next redraw is forced. -/
theorem of_forced (hstyle : w.client.presence = .active → ∃ style, w.client.bar.style = some style)
    (hforce : w.client.bar.forceRedraw = true) : Holds u w :=
  ⟨hstyle, fun _ _ h => by simp [hforce] at h, fun _ _ h => by simp [hforce] at h⟩

theorem refresh (h : Holds u w) (cursorVisible : Bool) :
    Holds u (w.step u env (.refresh cursorVisible)) := by
  by_cases hactive : w.client.presence = .active
  · obtain ⟨style, hstyle⟩ := h.styled hactive
    have hnone : w.client.bar.style ≠ none := by simp [hstyle]
    have hstyle' : (w.client.refreshStatus u cursorVisible).bar.style = some style :=
      (Attach.style_refreshStatus cursorVisible).trans hstyle
    by_cases hreserves : w.client.bar.forceRedraw = true ∨ ¬ w.client.SameBody u
    · have hafter := Attach.refreshStatus_reserves hstyle hreserves cursorVisible
      have hlost : w.lostAfter u (.refresh cursorVisible) = false := by
        have : w.client.Reserves u := ⟨hnone, hreserves⟩
        simp [Watched.lostAfter, this]
      refine ⟨fun _ => ⟨style, hstyle'⟩, fun _ _ _ => ?_, fun _ h' _ => ?_⟩
      · show (w.client.refreshStatus u cursorVisible).Remembered u
        rw [hafter]
        exact Attach.remembered_written hstyle rfl rfl rfl rfl
      · have hlost' : w.lostAfter u (.refresh cursorVisible) = true := h'
        rw [hlost] at hlost'
        cases hlost'
    · have hforce : w.client.bar.forceRedraw = false := by
        rw [not_or, Bool.not_eq_true] at hreserves
        exact hreserves.1
      have hsame : w.client.SameBody u := by
        rw [not_or, not_not] at hreserves
        exact hreserves.2
      have hlost : w.lostAfter u (.refresh cursorVisible) = w.lost := by
        have : ¬ w.client.Reserves u := fun hr => hreserves hr.2
        simp [Watched.lostAfter, this]
      cases hcontent : w.client.bar.forceContentRedraw with
      | true =>
        have hafter := Attach.refreshStatus_content hstyle hforce hsame hcontent cursorVisible
        refine ⟨fun _ => ⟨style, hstyle'⟩, fun _ h' _ => ?_, fun _ h' _ => ?_⟩
        · show (w.client.refreshStatus u cursorVisible).Remembered u
          have hnot : w.lost = false := hlost ▸ h'
          obtain ⟨hscroll, -⟩ := (h.remembered hactive hnot hforce).drawn hstyle hsame
          rw [hafter]
          exact Attach.remembered_written hstyle rfl rfl hscroll rfl
        · show (w.client.refreshStatus u cursorVisible).host.scrollBottom =
            (w.client.refreshStatus u cursorVisible).host.size.rows
          have hwas : w.lost = true := hlost ▸ h'
          rw [hafter]
          exact h.taken hactive hwas hforce
      | false =>
        have hafter := Attach.refreshStatus_skip hstyle hforce hsame hcontent cursorVisible
        refine ⟨fun _ => ⟨style, hstyle'⟩, fun _ h' _ => ?_, fun _ h' _ => ?_⟩
        · show (w.client.refreshStatus u cursorVisible).Remembered u
          have hnot : w.lost = false := hlost ▸ h'
          rw [hafter]
          exact h.remembered hactive hnot hforce
        · show (w.client.refreshStatus u cursorVisible).host.scrollBottom =
            (w.client.refreshStatus u cursorVisible).host.size.rows
          have hwas : w.lost = true := hlost ▸ h'
          rw [hafter]
          exact h.taken hactive hwas hforce
  · exact of_inactive hactive

theorem suspend (h : Holds u w) (outcome : ResizeTickOutcome) :
    Holds u (w.step u env (.suspend outcome)) := by
  by_cases hactive : w.client.presence = .active
  · obtain ⟨style, hstyle⟩ := h.styled hactive
    have hnot : ¬ w.client.presence ≠ .active := not_not.mpr hactive
    have hrestore := StatusBar.performAll_restore w.client.bar w.client.host hstyle
    have hstep : (w.step u env (.suspend outcome)).client =
        (w.client.suspendStatusRow outcome).1 := rfl
    cases outcome with
    | advance =>
      apply of_inactive
      rw [hstep, Attach.suspendStatusRow, if_neg hnot]
      simp
    | staleSubscriberId =>
      apply of_inactive
      rw [hstep, Attach.suspendStatusRow, if_neg hnot]
      simp
    | retry =>
      have hlost : (w.step u env (.suspend .retry)).lost = true := by
        simp [Watched.step, Watched.lostAfter, hactive]
      refine ⟨fun _ => ⟨style, ?_⟩, fun _ h' _ => by simp [hlost] at h', fun _ _ _ => ?_⟩
      · rw [hstep, Attach.suspendStatusRow, if_neg hnot]
        exact hstyle
      · rw [hstep, Attach.suspendStatusRow, if_neg hnot]
        dsimp only
        rw [hrestore]
  · have hstep : (w.step u env (.suspend outcome)).client = w.client :=
      congrArg Prod.fst (Attach.suspendStatusRow_ignored hactive outcome)
    exact of_inactive (by rw [hstep]; exact hactive)

theorem resume (h : Holds u w) (info : Option SessionInfo) (outcome : ResizeTickOutcome)
    (cursorVisible : Bool) : Holds u (w.step u env (.resume info outcome cursorVisible)) := by
  have hstep : (w.step u env (.resume info outcome cursorVisible)).client =
      (w.client.resumeStatusRow u env info outcome cursorVisible).1 := rfl
  by_cases hsuspended : w.client.presence = .suspended
  · rcases Attach.resumeStatusRow_cases u env hsuspended info outcome cursorVisible with
      ⟨answer, rfl, rfl, hdrawn⟩ | hinactive
    · have hstyle : (w.client.restyled env answer).bar.style =
          some (resolveStatusStyle env answer.statusTheme) := rfl
      have hafter := Attach.refreshStatus_reserves (u := u) hstyle (.inl rfl) cursorVisible
      have hlost : (w.step u env (.resume (some answer) .advance cursorVisible)).lost = false := by
        simp [Watched.step, Watched.lostAfter, hsuspended]
      rw [hafter] at hdrawn
      refine ⟨fun _ => ⟨resolveStatusStyle env answer.statusTheme, ?_⟩, fun _ _ _ => ?_,
        fun _ h' _ => by simp [hlost] at h'⟩
      · rw [hstep, hdrawn]
        exact hstyle
      · rw [hstep, hdrawn]
        exact Attach.remembered_written hstyle rfl rfl rfl rfl
    · exact of_inactive (by rw [hstep]; exact hinactive)
  · have hsame : (w.step u env (.resume info outcome cursorVisible)).client = w.client :=
      congrArg Prod.fst (Attach.resumeStatusRow_ignored hsuspended info outcome cursorVisible)
    have hlost : (w.step u env (.resume info outcome cursorVisible)).lost = w.lost := by
      show w.lostAfter u (.resume info outcome cursorVisible) = w.lost
      cases info <;> cases outcome <;> simp [Watched.lostAfter, hsuspended]
    have hw : w.step u env (.resume info outcome cursorVisible) = w := by
      have hpair : w.step u env (.resume info outcome cursorVisible) =
          ⟨(w.step u env (.resume info outcome cursorVisible)).client,
            (w.step u env (.resume info outcome cursorVisible)).lost⟩ := rfl
      rw [hpair, hsame, hlost]
    rw [hw]
    exact h

/-- An event that leaves alone what the bar remembers and whether a redraw is forced. -/
theorem of_same (h : Holds u w) {w' : Watched} (hpresence : w'.client.presence = w.client.presence)
    (hhost : w'.client.host = w.client.host) (hlost : w'.lost = w.lost)
    (hstyle : w'.client.bar.style = w.client.bar.style)
    (hpreserve : w'.client.bar.preserveSgrStack = w.client.bar.preserveSgrStack)
    (hbody : w'.client.bar.lastBody = w.client.bar.lastBody)
    (hforce : w'.client.bar.forceRedraw = w.client.bar.forceRedraw) : Holds u w' := by
  constructor
  · rw [hpresence, hstyle]
    exact h.styled
  · rw [hpresence, hlost, hforce]
    intro hactive hnot hunforced
    have hremembered := h.remembered hactive hnot hunforced
    unfold Attach.Remembered at hremembered ⊢
    rwa [hhost, hpreserve, hbody]
  · rw [hpresence, hlost, hforce, hhost]
    exact h.taken

theorem step (h : Holds u w) (event : Event) : Holds u (w.step u env event) := by
  cases event with
  | refresh cursorVisible => exact h.refresh cursorVisible
  | suspend outcome => exact h.suspend outcome
  | resume info outcome cursorVisible => exact h.resume info outcome cursorVisible
  | metadata info =>
    have hbar : ∃ sessionName paneId, (w.client.bar.updateInfo info).1 =
        { w.client.bar with sessionName, paneId } := by
      unfold StatusBar.updateInfo
      dsimp only
      split
      · exact ⟨w.client.bar.sessionName, w.client.bar.paneId, rfl⟩
      · exact ⟨_, _, rfl⟩
    obtain ⟨sessionName, paneId, hbar⟩ := hbar
    have hclient : (w.step u env (.metadata info)).client.bar =
        { w.client.bar with sessionName, paneId } := hbar
    exact h.of_same rfl rfl rfl (by rw [hclient]) (by rw [hclient]) (by rw [hclient])
      (by rw [hclient])
  | command latest => exact h.of_same rfl rfl rfl rfl rfl rfl rfl
  | forceRedraw => exact of_forced h.styled rfl
  | forceContentRedraw => exact h.of_same rfl rfl rfl rfl rfl rfl rfl
  | resized host => exact of_forced h.styled rfl

/-- An attach starts with a redraw forced. -/
theorem start (u : Unicode) (env : StatusEnv) (inGrid commandAllowColor cursorVisible : Bool)
    (info : Option SessionInfo) (host : Host) :
    Holds u ⟨Attach.start u env inGrid commandAllowColor cursorVisible info host, false⟩ := by
  have hdrawn : ∀ (bar : StatusBar) (cols rows : ℕ),
      (bar.drawAtSize u cursorVisible cols rows).1.style = bar.style ∧
        (bar.drawAtSize u cursorVisible cols rows).1.forceRedraw = bar.forceRedraw := by
    intro bar cols rows
    unfold StatusBar.drawAtSize
    dsimp only
    split <;> exact ⟨rfl, rfl⟩
  refine of_forced (fun hactive => ?_) (hdrawn _ _ _).2
  cases inGrid with
  | true => exact ⟨_, (hdrawn _ _ _).1⟩
  | false => cases hactive

end Holds

/-- Every state of a run. -/
theorem holds_runFrom (u : Unicode) (env : StatusEnv)
    (inGrid commandAllowColor cursorVisible : Bool) (info : Option SessionInfo) (host : Host)
    (events : List Event) :
    Holds u (runFrom u env (Attach.start u env inGrid commandAllowColor cursorVisible info host)
      events) :=
  Run.run_invariant (fun _ event h => h.step event) events _
    (Holds.start u env inGrid commandAllowColor cursorVisible info host)

/-! ### What a refresh leaves -/

/-- **When a refresh leaves the row drawn.** In every run of an attached client, with every outcome of
the requests, a refresh of an active client leaves the scroll region above the last row and the line on
it, unless a suspension that failed has taken the row, the redraw is not forced and the body is the one
that was written last. -/
theorem refresh_drawn_iff (u : Unicode) (env : StatusEnv)
    (inGrid commandAllowColor enterVisible : Bool) (info : Option SessionInfo) (host : Host)
    (events : List Event) (cursorVisible : Bool)
    (hactive : (runFrom u env
      (Attach.start u env inGrid commandAllowColor enterVisible info host) events).client.presence =
        .active) :
    let w := runFrom u env (Attach.start u env inGrid commandAllowColor enterVisible info host) events
    (w.client.refreshStatus u cursorVisible).Drawn u ↔
      ¬ (w.lost = true ∧ w.client.bar.forceRedraw = false ∧ w.client.SameBody u) := by
  intro w
  have hw : Holds u w := holds_runFrom u env inGrid commandAllowColor enterVisible info host events
  obtain ⟨style, hstyle⟩ := hw.styled hactive
  by_cases hreserves : w.client.bar.forceRedraw = true ∨ ¬ w.client.SameBody u
  · have hnot : ¬ (w.lost = true ∧ w.client.bar.forceRedraw = false ∧ w.client.SameBody u) := by
      rintro ⟨-, hforce, hsame⟩
      rcases hreserves with hforced | hnew
      · simp [hforce] at hforced
      · exact hnew hsame
    rw [Attach.refreshStatus_reserves hstyle hreserves]
    exact ⟨fun _ => hnot, fun _ => ⟨rfl, style, hstyle, rfl⟩⟩
  · rw [not_or, Bool.not_eq_true, not_not] at hreserves
    obtain ⟨hforce, hsame⟩ := hreserves
    have hrows := w.client.host.size.one_lt_rows
    -- Nothing or only the content is written: the scroll region is what it was.
    cases hlost : w.lost with
    | true =>
      have hscroll := hw.taken hactive hlost hforce
      have hafter : (w.client.refreshStatus u cursorVisible).host.scrollBottom =
            w.client.host.size.rows ∧
          (w.client.refreshStatus u cursorVisible).host.size = w.client.host.size := by
        cases hcontent : w.client.bar.forceContentRedraw with
        | true =>
          rw [Attach.refreshStatus_content hstyle hforce hsame hcontent]
          exact ⟨hscroll, rfl⟩
        | false =>
          rw [Attach.refreshStatus_skip hstyle hforce hsame hcontent]
          exact ⟨hscroll, rfl⟩
      refine iff_of_false (fun hdrawn => ?_) (not_not.mpr ⟨rfl, hforce, hsame⟩)
      have hregion := hdrawn.1
      rw [hafter.1, hafter.2] at hregion
      omega
    | false =>
      have hdrawn := (hw.remembered hactive hlost hforce).drawn hstyle hsame
      refine iff_of_true ?_ (by simp)
      cases hcontent : w.client.bar.forceContentRedraw with
      | true =>
        rw [Attach.refreshStatus_content hstyle hforce hsame hcontent]
        exact ⟨hdrawn.1, style, hstyle, rfl⟩
      | false =>
        rw [Attach.refreshStatus_skip hstyle hforce hsame hcontent]
        exact hdrawn

/-- A host of 20 columns and 24 rows. -/
def smallHost : Host := ⟨⟨20, 24, by decide, by decide⟩, 24, .line [], none⟩

/-- An environment without settings. -/
def plainEnv : StatusEnv := ⟨none, none, false, false, false⟩

/-- An attach with a status row. -/
def plainStart : Attach := Attach.start Row.narrow plainEnv true false true none smallHost

/-- After a draw and a suspension that failed, the next redraw is skipped: the scroll region is still
the whole screen. -/
theorem refresh_after_retry_not_drawn :
    ¬ ∀ (events : List Event) (cursorVisible : Bool),
      (runFrom Row.narrow plainEnv plainStart events).client.presence = .active →
        ((runFrom Row.narrow plainEnv plainStart events).client.refreshStatus Row.narrow
          cursorVisible).Drawn Row.narrow := by
  intro h
  have hactive : (runFrom Row.narrow plainEnv plainStart
      [.refresh true, .suspend .retry]).client.presence = .active := by decide +kernel
  have hregion : ((runFrom Row.narrow plainEnv plainStart
      [.refresh true, .suspend .retry]).client.refreshStatus Row.narrow true).host.scrollBottom ≠
        ((runFrom Row.narrow plainEnv plainStart
          [.refresh true, .suspend .retry]).client.refreshStatus Row.narrow true).host.size.rows - 1 := by
    decide +kernel
  exact hregion (h _ true hactive).1

/-- The first refresh of an attach draws the row. -/
theorem refresh_drawn_plainStart :
    (plainStart.refreshStatus Row.narrow true).Drawn Row.narrow :=
  (refresh_drawn_iff Row.narrow plainEnv true false true none smallHost [] true rfl).mpr
    (by decide +kernel)

end LightTerminal.Client.StatusPresence
