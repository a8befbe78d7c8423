import LightTerminal.Client.StatusPresence

/-! # Old status rows

When the height of the terminal changes, the status bar moves to another row and leaves its old one
behind. `drawn_status_rows` remembers the rows it was on, those out of sight too, and a draw or a
restoration clears the ones above the last row.

The rows of the host keep what they show while they are out of sight. `held` are those that show a
status line; a program in the pane takes them away by writing on them, which it may do on all rows that
are its own. `spoiled` are the rows that a restoration cleared, or the program wrote on, since a status
line was drawn there: the bar goes on to remember these.

`status_rows_cleared`: every row that holds a status line is remembered, a draw leaves one of them in
sight, and what is erased held a status line exactly if no row in sight is remembered but spoiled. -/

namespace LightTerminal.Client.StatusRows

open LightTerminal.Data.Text LightTerminal.Library LightTerminal.Sanitize LightTerminal.Sanitize.Truncate
open LightTerminal.Client.StatusRow LightTerminal.Client.StatusPresence

/-! ### The rows of the host -/

/-- The cursor, where it is followed, the rows that hold a status line, and the rows erased so far. -/
structure Marks where
  cursor : Option ℕ
  held : Finset ℕ
  erased : Finset ℕ
  deriving DecidableEq

namespace Marks

/-- What an operation does to the rows of a host of a height. A row beyond the last one is the last. -/
def perform (height : ℕ) (marks : Marks) : Op → Marks
  | .moveTo row => { marks with cursor := some (min row height) }
  | .restoreCursor => { marks with cursor := none }
  | .scrollRegion _ | .resetScrollRegion => { marks with cursor := some 1 }
  | .print _ =>
    match marks.cursor with
    | some row => { marks with held := insert row marks.held }
    | none => marks
  | .eraseLine =>
    match marks.cursor with
    | some row => { marks with held := marks.held.erase row, erased := insert row marks.erased }
    | none => marks
  | .saveCursor | .hideCursor | .showCursor | .pushSgr | .popSgr | .eraseToEnd => marks

/-- What a list of operations does. -/
def performAll (height : ℕ) (marks : Marks) (ops : List Op) : Marks :=
  ops.foldl (perform height) marks

end Marks

/-! ### Runs -/

/-- An attached client at a size of its terminal, with the rows of the host. -/
structure Attached where
  presence : StatusPresenceState
  bar : StatusBar
  cols : ℕ
  rows : ℕ
  held : Finset ℕ
  spoiled : Finset ℕ
  deriving DecidableEq

/-- What happens to an attached client. The program writes on `rows`, of which only its own count. -/
inductive Event where
  | draw (cursorVisible : Bool)
  | refresh (cursorVisible : Bool)
  | suspend (outcome : ResizeTickOutcome)
  | resume (info : Option SessionInfo) (outcome : ResizeTickOutcome) (cursorVisible : Bool)
  | restore
  | metadata (info : SessionInfo)
  | command (latest : Str)
  | forceRedraw
  | forceContentRedraw
  | resized (cols rows : ℕ)
  | output (rows : Finset ℕ)
  deriving DecidableEq

/-- The event is a draw of the bar. -/
def Event.Draws : Event → Prop
  | .draw _ | .refresh _ | .resume .. => True
  | _ => False

/-- The event is a restoration of the host. -/
def Event.Restores : Event → Prop
  | .suspend _ | .restore => True
  | _ => False

namespace Attached

variable (u : Unicode) (env : StatusEnv) (s : Attached)

/-- The bar that `resume_status_row` draws, if it comes to that. -/
def resumed (info : Option SessionInfo) (outcome : ResizeTickOutcome) : Option StatusBar :=
  match s.presence, info, outcome with
  | .suspended, some info, .advance =>
    some { (s.bar.updateInfo info).1 with
      style := some (resolveStatusStyle env info.statusTheme), forceRedraw := true }
  | _, _, _ => none

/-- The bar after an event and what is written. -/
def turn : Event → StatusBar × List Op
  | .draw cursorVisible => s.bar.drawAtSize u cursorVisible s.cols s.rows
  | .refresh cursorVisible => s.bar.refresh u cursorVisible s.cols s.rows
  | .suspend outcome =>
    if s.presence = .active then
      (if outcome = .advance then { s.bar with style := none } else s.bar, s.bar.restore s.rows)
    else (s.bar, [])
  | .resume info outcome cursorVisible =>
    match s.resumed env info outcome with
    | some bar => bar.refresh u cursorVisible s.cols s.rows
    | none => (s.bar, [])
  | .restore => (s.bar, s.bar.restore s.rows)
  | .metadata info => ((s.bar.updateInfo info).1, [])
  | .command latest => ({ s.bar with commandLine := some latest }, [])
  | .forceRedraw => ({ s.bar with forceRedraw := true }, [])
  | .forceContentRedraw => ({ s.bar with forceContentRedraw := true }, [])
  | .resized .. | .output _ => (s.bar, [])

/-- The presence after an event. -/
def presenceAfter : Event → StatusPresenceState
  | .suspend outcome =>
    if s.presence = .active then
      match outcome with
      | .advance => .suspended
      | .retry => .active
      | .staleSubscriberId => .disabled
    else s.presence
  | .resume info outcome _ =>
    if s.presence = .suspended then
      match info, outcome with
      | none, _ => .suspended
      | some _, .advance => .active
      | some _, .retry => .suspended
      | some _, .staleSubscriberId => .disabled
    else s.presence
  | _ => s.presence

/-- The rows of the host after what an event writes. -/
def marksAfter (event : Event) : Marks := Marks.performAll s.rows ⟨none, s.held, ∅⟩ (s.turn u env event).2

/-- The rows that an event erases. -/
def erased (event : Event) : Finset ℕ := (s.marksAfter u env event).erased

/-- The rows that belong to the program in the pane. -/
def owned (row : ℕ) : Bool := if s.presence = .active then row < s.rows else row ≤ s.rows

/-- The rows that hold a status line after an event. -/
def heldAfter : Event → Finset ℕ
  | .output rows => s.held \ rows.filter (s.owned ·)
  | event => (s.marksAfter u env event).held

/-- The rows that are spoiled after an event: a restoration and the program spoil rows, and a draw makes
the last row good. -/
def spoiledAfter (event : Event) : Finset ℕ :=
  match event with
  | .output rows => s.spoiled ∪ rows.filter (s.owned ·)
  | .suspend _ | .restore => s.spoiled ∪ s.erased u env event
  | _ => if (s.turn u env event).2 = [] then s.spoiled else s.spoiled.erase s.rows

/-- The size of the terminal after an event. -/
def sizeAfter : Event → ℕ × ℕ
  | .resized cols rows => (cols, rows)
  | _ => (s.cols, s.rows)

/-- A step of the client. -/
def step (event : Event) : Attached where
  presence := s.presenceAfter event
  bar := (s.turn u env event).1
  cols := (s.sizeAfter event).1
  rows := (s.sizeAfter event).2
  held := s.heldAfter u env event
  spoiled := s.spoiledAfter u env event

/-- The start of an attach, on a host without a status line. -/
def start (inGrid commandAllowColor cursorVisible : Bool) (info : Option SessionInfo) (cols rows : ℕ) :
    Attached :=
  let style := if inGrid then some (resolveStatusStyle env (info.bind SessionInfo.statusTheme)) else none
  let entered := StatusBar.enter u env info style cursorVisible cols rows
  { presence := if inGrid then .active else .disabled
    bar := { entered.1 with commandAllowColor }
    cols, rows
    held := (Marks.performAll rows ⟨none, ∅, ∅⟩ entered.2).held
    spoiled := ∅ }

/-- A run from an attach on. -/
def runFrom (inGrid commandAllowColor cursorVisible : Bool) (info : Option SessionInfo)
    (cols rows : ℕ) (events : List Event) : Attached :=
  Run.run (step u env) (start u env inGrid commandAllowColor cursorVisible info cols rows) events

end Attached

/-! ### What a write does to the rows -/

namespace Marks

variable (height : ℕ) (marks : Marks)

@[simp] theorem performAll_nil : marks.performAll height [] = marks := rfl

@[simp] theorem performAll_cons (op : Op) (ops : List Op) :
    marks.performAll height (op :: ops) = (marks.perform height op).performAll height ops := rfl

@[simp] theorem performAll_append (ops ops' : List Op) :
    marks.performAll height (ops ++ ops') = (marks.performAll height ops).performAll height ops' :=
  List.foldl_append

@[simp] theorem perform_cursorRestoreSuffix (cursorVisible : Bool) :
    marks.perform height (StatusBar.cursorRestoreSuffix cursorVisible) = marks := by
  cases cursorVisible <;> rfl

@[simp] theorem performAll_sgrPush (bar : StatusBar) : marks.performAll height bar.sgrPush = marks := by
  unfold StatusBar.sgrPush
  split <;> rfl

@[simp] theorem performAll_sgrPop (bar : StatusBar) : marks.performAll height bar.sgrPop = marks := by
  unfold StatusBar.sgrPop
  split <;> rfl

/-- The rows that are cleared are erased, and hold nothing afterwards. -/
theorem performAll_clearRows {rows : List ℕ} (h : ∀ row ∈ rows, row < height) :
    ∃ cursor, marks.performAll height (StatusBar.clearRows rows) =
      ⟨cursor, marks.held \ rows.toFinset, marks.erased ∪ rows.toFinset⟩ := by
  induction rows generalizing marks with
  | nil => exact ⟨marks.cursor, by simp [StatusBar.clearRows]⟩
  | cons row rows ih =>
    have hrow : min row height = row := by have := h row (by simp); omega
    have hstep : marks.performAll height [.moveTo row, .print sgrReset, .eraseLine] =
        ⟨some row, marks.held.erase row, insert row marks.erased⟩ := by
      simp only [performAll_cons, performAll_nil, perform, hrow, Finset.erase_insert_eq_erase]
    obtain ⟨cursor, hrest⟩ := ih ⟨some row, marks.held.erase row, insert row marks.erased⟩
      fun row' hmem => h row' (by simp [hmem])
    refine ⟨cursor, ?_⟩
    rw [StatusBar.clearRows, List.flatMap_cons, performAll_append, hstep]
    refine hrest.trans ?_
    congr 1
    · ext row'
      simp only [Finset.mem_sdiff, Finset.mem_erase, List.mem_toFinset, List.mem_cons]
      tauto
    · ext row'
      simp only [Finset.mem_union, Finset.mem_insert, List.mem_toFinset, List.mem_cons]
      tauto

/-- An operation list that changes no row. -/
def Neutral (ops : List Op) : Prop := ∀ marks : Marks,
  (marks.performAll height ops).held = marks.held ∧
    (marks.performAll height ops).erased = marks.erased

end Marks

section Writes

variable (u : Unicode) (bar : StatusBar) (marks : Marks) {cols rows : ℕ}

/-- The rows that a draw clears before it draws. -/
def cleared (bar : StatusBar) (rows : ℕ) : Finset ℕ := (bar.visiblePreviousStatusRows rows).toFinset

theorem mem_cleared {row : ℕ} :
    row ∈ cleared bar rows ↔ row ∈ bar.drawnStatusRows ∧ row < rows := by
  rw [cleared, List.mem_toFinset, StatusBar.mem_visiblePreviousStatusRows]

/-- Drawing the body clears the old rows and puts a status line on the last one. -/
theorem performAll_body {style : StatusStyle} (hstyle : bar.style = some style) (hrows : 1 < rows)
    (hcols : 1 < cols) :
    marks.performAll rows (bar.buildDrawBody u cols rows) =
      ⟨none, insert rows (marks.held \ cleared bar rows),
        marks.erased ∪ cleared bar rows ∪ if rows ∈ bar.drawnStatusRows then ∅ else {rows}⟩ := by
  have hsize : ¬ (rows ≤ 1 ∨ cols ≤ 1) := by omega
  have hclear : ∀ row ∈ bar.visiblePreviousStatusRows rows, row < rows :=
    fun row hrow => ((bar.mem_visiblePreviousStatusRows).mp hrow).2
  obtain ⟨cursor, hmarks⟩ := Marks.performAll_clearRows rows marks hclear
  rw [StatusBar.buildDrawBody, if_neg hsize, hstyle]
  have hsave : marks.perform rows .saveCursor = marks := rfl
  simp only [List.cons_append, List.append_assoc, Marks.performAll_append, Marks.performAll_cons,
    Marks.performAll_nil, hsave, Marks.performAll_sgrPush, hmarks]
  unfold StatusBar.currentRowClear
  have hlast : min rows rows = rows := min_self rows
  split_ifs
  · simp only [Marks.performAll_nil, Marks.perform, hlast, Finset.insert_idem,
      Marks.performAll_sgrPop, Finset.union_empty]
    rfl
  · simp only [Marks.performAll_cons, Marks.performAll_nil, Marks.perform, hlast, Finset.insert_idem,
      Marks.performAll_sgrPop]
    congr 1
    · ext row
      simp only [Finset.mem_insert, Finset.mem_erase]
      tauto
    · rw [Finset.union_comm _ {rows}]
      rfl

/-- A restoration clears the old rows and the last one. -/
theorem performAll_restore (hstyle : bar.style ≠ none) :
    marks.performAll rows (bar.restore rows) =
      ⟨none, (marks.held \ cleared bar rows).erase rows,
        insert rows (marks.erased ∪ cleared bar rows)⟩ := by
  have hclear : ∀ row ∈ bar.visiblePreviousStatusRows rows, row < rows :=
    fun row hrow => ((bar.mem_visiblePreviousStatusRows).mp hrow).2
  obtain ⟨cursor, hmarks⟩ := Marks.performAll_clearRows rows { marks with cursor := some 1 } hclear
  rw [StatusBar.restore, if_neg hstyle]
  have hsave : marks.perform rows .saveCursor = marks := rfl
  have hreset : marks.perform rows .resetScrollRegion = { marks with cursor := some 1 } := rfl
  simp only [List.cons_append, List.append_assoc, Marks.performAll_append, Marks.performAll_cons,
    Marks.performAll_nil, hsave, Marks.performAll_sgrPush, hreset, hmarks]
  have hlast : min rows rows = rows := min_self rows
  simp only [Marks.perform, hlast, Finset.erase_insert_eq_erase]
  simp only [Marks.performAll_sgrPop]
  rfl

/-- The rows that are remembered after a draw. -/
theorem drawn_rememberStatusRow :
    (bar.rememberStatusRow rows (bar.visiblePreviousStatusRows rows)).drawnStatusRows.toFinset =
      insert rows (bar.drawnStatusRows.toFinset \ cleared bar rows) := by
  ext row
  rw [Finset.mem_insert, Finset.mem_sdiff, List.mem_toFinset, List.mem_toFinset, mem_cleared]
  have hkept : row ∈ bar.drawnStatusRows.filter (fun row =>
      decide (rows ≤ row) || decide (row ∉ bar.visiblePreviousStatusRows rows)) ↔
        row ∈ bar.drawnStatusRows ∧ ¬ row < rows := by
    rw [List.mem_filter, Bool.or_eq_true, decide_eq_true_eq, decide_eq_true_eq,
      StatusBar.mem_visiblePreviousStatusRows]
    constructor
    · rintro ⟨hmem, hge | hnot⟩
      · exact ⟨hmem, by omega⟩
      · exact ⟨hmem, fun hlt => hnot ⟨hmem, hlt⟩⟩
    · rintro ⟨hmem, hge⟩
      exact ⟨hmem, .inl (by omega)⟩
  unfold StatusBar.rememberStatusRow
  dsimp only
  split_ifs with hlast
  · rw [hkept]
    constructor
    · rintro ⟨hmem, hge⟩
      exact .inr ⟨hmem, fun h => hge h.2⟩
    · rintro (rfl | ⟨hmem, hge⟩)
      · exact hkept.mp hlast
      · exact ⟨hmem, fun hlt => hge ⟨hmem, hlt⟩⟩
  · rw [List.mem_append, hkept, List.mem_singleton]
    constructor
    · rintro (⟨hmem, hge⟩ | rfl)
      · exact .inr ⟨hmem, fun h => hge h.2⟩
      · exact .inl rfl
    · rintro (rfl | ⟨hmem, hge⟩)
      · exact .inr rfl
      · exact .inl ⟨hmem, fun hlt => hge ⟨hmem, hlt⟩⟩

end Writes

/-! ### Turns -/

namespace Attached

/-- The event writes to the host: a draw of a bar with a style at a size that has room, which for a
refresh is forced or changes the body, or the restoration of a bar with a style. -/
def Writes (u : Unicode) (s : Attached) : Event → Prop
  | .draw _ => s.bar.style ≠ none ∧ 1 < s.rows ∧ 1 < s.cols
  | .refresh _ => s.bar.style ≠ none ∧ 1 < s.rows ∧ 1 < s.cols ∧
      (s.bar.forceRedraw = true ∨ s.bar.forceContentRedraw = true ∨
        s.bar.lastBody ≠ some (render (s.bar.buildDrawBody u s.cols s.rows)))
  | .resume info outcome _ =>
    s.presence = .suspended ∧ info ≠ none ∧ outcome = .advance ∧ 1 < s.rows ∧ 1 < s.cols
  | .suspend _ => s.presence = .active ∧ s.bar.style ≠ none
  | .restore => s.bar.style ≠ none
  | _ => False

/-- A turn that draws: the old rows in sight are erased and forgotten, and the last row holds a line. -/
structure Redraws (s : Attached) (turn : StatusBar × List Op) : Prop where
  held : (Marks.performAll s.rows ⟨none, s.held, ∅⟩ turn.2).held =
    insert s.rows (s.held \ cleared s.bar s.rows)
  erased : ∀ row ≠ s.rows, row ∈ (Marks.performAll s.rows ⟨none, s.held, ∅⟩ turn.2).erased ↔
    row ∈ cleared s.bar s.rows
  drawn : turn.1.drawnStatusRows.toFinset =
    insert s.rows (s.bar.drawnStatusRows.toFinset \ cleared s.bar s.rows)
  writes : turn.2 ≠ []

/-- A turn that neither writes nor changes what is remembered. -/
structure Rests (s : Attached) (turn : StatusBar × List Op) : Prop where
  drawn : turn.1.drawnStatusRows = s.bar.drawnStatusRows
  nothing : turn.2 = []

variable {u : Unicode} {env : StatusEnv} {s : Attached}

/-- A body that is written, with or without the scroll region before it. -/
theorem redraws_body {bar : StatusBar} (after : StatusBar)
    (hrows : bar.drawnStatusRows = s.bar.drawnStatusRows)
    {style : StatusStyle} (hstyle : bar.style = some style) (hheight : 1 < s.rows) (hcols : 1 < s.cols)
    {reserve : List Op} (hreserve : Marks.Neutral s.rows reserve) (cursorVisible : Bool)
    (hafter : after.drawnStatusRows = (bar.rememberStatusRow s.rows
      (bar.visiblePreviousStatusRows s.rows)).drawnStatusRows) :
    Redraws s (after, [.hideCursor] ++ reserve ++ bar.buildDrawBody u s.cols s.rows ++
      [StatusBar.cursorRestoreSuffix cursorVisible]) := by
  have hcleared : cleared bar s.rows = cleared s.bar s.rows := by
    rw [cleared, cleared, StatusBar.visiblePreviousStatusRows, StatusBar.visiblePreviousStatusRows,
      hrows]
  have hmarks : Marks.performAll s.rows ⟨none, s.held, ∅⟩ ([.hideCursor] ++ reserve ++
      bar.buildDrawBody u s.cols s.rows ++ [StatusBar.cursorRestoreSuffix cursorVisible]) =
      ⟨none, insert s.rows (s.held \ cleared s.bar s.rows),
        ∅ ∪ cleared s.bar s.rows ∪ if s.rows ∈ bar.drawnStatusRows then ∅ else {s.rows}⟩ := by
    have hhide : Marks.performAll s.rows ⟨none, s.held, ∅⟩ [.hideCursor] = ⟨none, s.held, ∅⟩ := rfl
    obtain ⟨hheld, herased⟩ := hreserve ⟨none, s.held, ∅⟩
    rw [Marks.performAll_append, Marks.performAll_append, Marks.performAll_append, hhide,
      performAll_body u bar _ hstyle hheight hcols, hheld, herased, hcleared, Marks.performAll_cons,
      Marks.perform_cursorRestoreSuffix, Marks.performAll_nil]
  refine ⟨?_, fun row hrow => ?_, ?_, ?_⟩
  · rw [hmarks]
  · rw [hmarks]
    dsimp only
    split_ifs <;> simp [hrow]
  · rw [hafter, drawn_rememberStatusRow, hrows, hcleared]
  · simp

theorem neutral_nil (height : ℕ) : Marks.Neutral height [] := fun _ => ⟨rfl, rfl⟩

theorem neutral_buildReserveBody (bar : StatusBar) (height rows : ℕ) :
    Marks.Neutral height (bar.buildReserveBody rows) := by
  intro marks
  unfold StatusBar.buildReserveBody
  split_ifs <;> exact ⟨rfl, rfl⟩

theorem buildDrawBody_eq_nil_iff {bar : StatusBar} {cols rows : ℕ} :
    bar.buildDrawBody u cols rows = [] ↔ ¬ (bar.style ≠ none ∧ 1 < rows ∧ 1 < cols) := by
  unfold StatusBar.buildDrawBody
  by_cases hsize : rows ≤ 1 ∨ cols ≤ 1
  · rw [if_pos hsize]
    have hnot : ¬ (bar.style ≠ none ∧ 1 < rows ∧ 1 < cols) := by omega
    simp [hnot]
  · rw [if_neg hsize]
    have hrows : 1 < rows := by omega
    have hcols : 1 < cols := by omega
    cases hstyle : bar.style with
    | none => simp
    | some style => simp [hrows, hcols]

/-- A refresh of a bar that remembers what the client's bar does. -/
theorem refresh_cases {bar : StatusBar} (hrows : bar.drawnStatusRows = s.bar.drawnStatusRows)
    (cursorVisible : Bool) :
    if bar.style ≠ none ∧ 1 < s.rows ∧ 1 < s.cols ∧
        (bar.forceRedraw = true ∨ bar.forceContentRedraw = true ∨
          bar.lastBody ≠ some (render (bar.buildDrawBody u s.cols s.rows))) then
      Redraws s (bar.refresh u cursorVisible s.cols s.rows)
    else Rests s (bar.refresh u cursorVisible s.cols s.rows) := by
  by_cases hbody : bar.buildDrawBody u s.cols s.rows = []
  · have hno := buildDrawBody_eq_nil_iff.mp hbody
    rw [if_neg fun h => hno ⟨h.1, h.2.1, h.2.2.1⟩]
    unfold StatusBar.refresh
    simp only [if_pos hbody]
    exact ⟨hrows, rfl⟩
  · have hroom : bar.style ≠ none ∧ 1 < s.rows ∧ 1 < s.cols :=
      not_not.mp fun h => hbody (buildDrawBody_eq_nil_iff.mpr h)
    obtain ⟨style, hstyle⟩ := Option.ne_none_iff_exists'.mp hroom.1
    by_cases hwrite : bar.forceRedraw = true ∨ bar.forceContentRedraw = true ∨
        bar.lastBody ≠ some (render (bar.buildDrawBody u s.cols s.rows))
    · rw [if_pos ⟨hroom.1, hroom.2.1, hroom.2.2, hwrite⟩]
      have hwrite' : ¬ (!(bar.forceRedraw || decide (bar.lastBody ≠
          some (render (bar.buildDrawBody u s.cols s.rows)))) && !bar.forceContentRedraw) = true := by
        rcases hwrite with h | h | h <;> simp [h]
      unfold StatusBar.refresh
      simp only [if_neg hbody, if_neg hwrite']
      refine redraws_body _ hrows hstyle hroom.2.1 hroom.2.2 ?_ cursorVisible rfl
      split_ifs
      · exact neutral_buildReserveBody bar s.rows s.rows
      · exact neutral_nil s.rows
    · rw [if_neg fun h => hwrite h.2.2.2]
      rw [not_or, not_or, not_not] at hwrite
      obtain ⟨hforce, hcontent, hsame⟩ := hwrite
      have hskip : (!(bar.forceRedraw || decide (bar.lastBody ≠
          some (render (bar.buildDrawBody u s.cols s.rows)))) && !bar.forceContentRedraw) = true := by
        simp [hforce, hcontent, hsame]
      unfold StatusBar.refresh
      simp only [if_neg hbody, if_pos hskip]
      exact ⟨hrows, rfl⟩

theorem drawAtSize_cases (s : Attached) (cursorVisible : Bool) :
    if s.bar.style ≠ none ∧ 1 < s.rows ∧ 1 < s.cols then
      Redraws s (s.bar.drawAtSize u cursorVisible s.cols s.rows)
    else Rests s (s.bar.drawAtSize u cursorVisible s.cols s.rows) := by
  by_cases hbody : s.bar.buildDrawBody u s.cols s.rows = []
  · rw [if_neg (buildDrawBody_eq_nil_iff.mp hbody)]
    unfold StatusBar.drawAtSize
    simp only [if_pos hbody]
    exact ⟨rfl, rfl⟩
  · have hroom : s.bar.style ≠ none ∧ 1 < s.rows ∧ 1 < s.cols :=
      not_not.mp fun h => hbody (buildDrawBody_eq_nil_iff.mpr h)
    obtain ⟨style, hstyle⟩ := Option.ne_none_iff_exists'.mp hroom.1
    rw [if_pos hroom]
    unfold StatusBar.drawAtSize
    simp only [if_neg hbody]
    have hdraw := redraws_body (u := u) (s := s)
      (s.bar.rememberStatusRow s.rows (s.bar.visiblePreviousStatusRows s.rows)) rfl hstyle
      hroom.2.1 hroom.2.2 (neutral_nil s.rows) cursorVisible rfl
    rwa [List.append_nil] at hdraw

/-- A turn that restores. -/
structure Restores (s : Attached) (turn : StatusBar × List Op) : Prop where
  drawn : turn.1.drawnStatusRows = s.bar.drawnStatusRows
  held : (Marks.performAll s.rows ⟨none, s.held, ∅⟩ turn.2).held =
    (s.held \ cleared s.bar s.rows).erase s.rows
  erased : (Marks.performAll s.rows ⟨none, s.held, ∅⟩ turn.2).erased =
    insert s.rows (cleared s.bar s.rows)

theorem restores_of_style (hstyle : s.bar.style ≠ none) {after : StatusBar}
    (hafter : after.drawnStatusRows = s.bar.drawnStatusRows) :
    Restores s (after, s.bar.restore s.rows) := by
  refine ⟨hafter, ?_, ?_⟩
  · rw [performAll_restore s.bar _ hstyle]
  · rw [performAll_restore s.bar _ hstyle, Finset.empty_union]

theorem restore_of_no_style (hstyle : s.bar.style = none) : s.bar.restore s.rows = [] := by
  rw [StatusBar.restore, if_pos hstyle]

theorem drawn_updateInfo (bar : StatusBar) (info : SessionInfo) :
    (bar.updateInfo info).1.drawnStatusRows = bar.drawnStatusRows := by
  unfold StatusBar.updateInfo
  dsimp only
  split_ifs <;> rfl

/-- What an event does: a draw, a restoration, or neither. -/
theorem turn_cases (u : Unicode) (env : StatusEnv) (s : Attached) (event : Event) :
    (event.Draws ∧ s.Writes u event ∧ Redraws s (s.turn u env event)) ∨
    (event.Restores ∧ s.Writes u event ∧ Restores s (s.turn u env event)) ∨
    (¬ s.Writes u event ∧ Rests s (s.turn u env event)) := by
  cases event with
  | draw cursorVisible =>
    have hcases := drawAtSize_cases (u := u) s cursorVisible
    split_ifs at hcases with hwrites
    · exact .inl ⟨trivial, hwrites, hcases⟩
    · exact .inr (.inr ⟨hwrites, hcases⟩)
  | refresh cursorVisible =>
    have hcases := refresh_cases (u := u) (s := s) rfl cursorVisible
    split_ifs at hcases with hwrites
    · exact .inl ⟨trivial, hwrites, hcases⟩
    · exact .inr (.inr ⟨hwrites, hcases⟩)
  | suspend outcome =>
    by_cases hactive : s.presence = .active
    · have hturn : s.turn u env (.suspend outcome) =
          (if outcome = .advance then { s.bar with style := none } else s.bar,
            s.bar.restore s.rows) := if_pos hactive
      have hdrawn : (if outcome = .advance then { s.bar with style := none } else s.bar).drawnStatusRows =
          s.bar.drawnStatusRows := by
        split_ifs <;> rfl
      by_cases hstyle : s.bar.style = none
      · refine .inr (.inr ⟨fun h => h.2 hstyle, ?_⟩)
        rw [hturn, restore_of_no_style hstyle]
        exact ⟨hdrawn, rfl⟩
      · refine .inr (.inl ⟨trivial, ⟨hactive, hstyle⟩, ?_⟩)
        rw [hturn]
        exact restores_of_style hstyle hdrawn
    · have hturn : s.turn u env (.suspend outcome) = (s.bar, []) := if_neg hactive
      refine .inr (.inr ⟨fun h => hactive h.1, ?_⟩)
      rw [hturn]
      exact ⟨rfl, rfl⟩
  | resume info outcome cursorVisible =>
    by_cases hresumes : s.presence = .suspended ∧ info ≠ none ∧ outcome = .advance
    · obtain ⟨hsuspended, hinfo, rfl⟩ := hresumes
      obtain ⟨info, rfl⟩ := Option.ne_none_iff_exists'.mp hinfo
      have hturn : s.turn u env (.resume (some info) .advance cursorVisible) =
          ({ (s.bar.updateInfo info).1 with
            style := some (resolveStatusStyle env info.statusTheme), forceRedraw := true } :
            StatusBar).refresh u cursorVisible s.cols s.rows := by
        simp only [turn, resumed, hsuspended]
      have hcases := refresh_cases (u := u) (s := s)
        (show ({ (s.bar.updateInfo info).1 with
          style := some (resolveStatusStyle env info.statusTheme), forceRedraw := true } :
            StatusBar).drawnStatusRows = s.bar.drawnStatusRows from drawn_updateInfo s.bar info)
        cursorVisible
      rw [← hturn] at hcases
      by_cases hroom : 1 < s.rows ∧ 1 < s.cols
      · rw [if_pos ⟨by simp, hroom.1, hroom.2, .inl rfl⟩] at hcases
        exact .inl ⟨trivial, ⟨hsuspended, hinfo, rfl, hroom.1, hroom.2⟩, hcases⟩
      · rw [if_neg fun h => hroom ⟨h.2.1, h.2.2.1⟩] at hcases
        exact .inr (.inr ⟨fun h => hroom h.2.2.2, hcases⟩)
    · have hnone : s.resumed env info outcome = none := by
        unfold resumed
        cases hp : s.presence <;> rcases info with _ | info <;> cases outcome <;>
          first
          | rfl
          | exact absurd ⟨hp, by simp, rfl⟩ hresumes
      have hturn : s.turn u env (.resume info outcome cursorVisible) = (s.bar, []) := by
        simp only [turn, hnone]
      refine .inr (.inr ⟨fun h => hresumes ⟨h.1, h.2.1, h.2.2.1⟩, ?_⟩)
      rw [hturn]
      exact ⟨rfl, rfl⟩
  | restore =>
    by_cases hstyle : s.bar.style = none
    · refine .inr (.inr ⟨fun h => h hstyle, rfl, restore_of_no_style hstyle⟩)
    · exact .inr (.inl ⟨trivial, hstyle, restores_of_style hstyle rfl⟩)
  | metadata info => exact .inr (.inr ⟨id, drawn_updateInfo s.bar info, rfl⟩)
  | command latest => exact .inr (.inr ⟨id, rfl, rfl⟩)
  | forceRedraw => exact .inr (.inr ⟨id, rfl, rfl⟩)
  | forceContentRedraw => exact .inr (.inr ⟨id, rfl, rfl⟩)
  | resized cols rows => exact .inr (.inr ⟨id, rfl, rfl⟩)
  | output rows => exact .inr (.inr ⟨id, rfl, rfl⟩)

/-! ### What is remembered -/

/-- The remembered rows that are not spoiled are those that hold a status line. -/
def Remembers (s : Attached) : Prop := s.held = s.bar.drawnStatusRows.toFinset \ s.spoiled

theorem remembers_output (h : s.Remembers) (rows : Finset ℕ) :
    (s.step u env (.output rows)).Remembers := by
  have hstep : s.step u env (.output rows) =
      { s with
        held := s.held \ rows.filter (s.owned ·), spoiled := s.spoiled ∪ rows.filter (s.owned ·) } :=
    rfl
  rw [hstep]
  unfold Remembers at h ⊢
  rw [h, sdiff_sdiff_left]
  rfl

theorem step_of_draws (event : Event) (hdraws : event.Draws) (hwrites : (s.turn u env event).2 ≠ []) :
    (s.step u env event).held = (s.marksAfter u env event).held ∧
      (s.step u env event).spoiled = s.spoiled.erase s.rows := by
  cases event <;> first
    | exact hdraws.elim
    | exact ⟨rfl, if_neg hwrites⟩

theorem step_of_restores (event : Event) (hrestores : event.Restores) :
    (s.step u env event).held = (s.marksAfter u env event).held ∧
      (s.step u env event).spoiled = s.spoiled ∪ s.erased u env event := by
  cases event <;> first
    | exact hrestores.elim
    | exact ⟨rfl, rfl⟩

theorem step_of_rests (event : Event) (hrests : Rests s (s.turn u env event)) :
    (∃ rows, event = .output rows) ∨
      (s.step u env event).held = s.held ∧ (s.step u env event).spoiled = s.spoiled := by
  have hmarks : s.marksAfter u env event = ⟨none, s.held, ∅⟩ := by
    rw [marksAfter, hrests.nothing]
    rfl
  have hheld : (s.marksAfter u env event).held = s.held := by rw [hmarks]
  have herased : s.spoiled ∪ s.erased u env event = s.spoiled := by
    rw [erased, hmarks]
    exact Finset.union_empty _
  cases event <;> first
    | exact .inl ⟨_, rfl⟩
    | exact .inr ⟨hheld, if_pos hrests.nothing⟩
    | exact .inr ⟨hheld, herased⟩
    | exact .inr ⟨hheld, rfl⟩

theorem remembers_step (h : s.Remembers) (event : Event) : (s.step u env event).Remembers := by
  have hbar : (s.step u env event).bar = (s.turn u env event).1 := rfl
  rcases turn_cases u env s event with ⟨hdraws, -, hturn⟩ | ⟨hrestores, -, hturn⟩ | ⟨-, hturn⟩
  · obtain ⟨hheld, hspoiled⟩ := step_of_draws event hdraws hturn.writes
    unfold Remembers at h ⊢
    rw [hheld, hspoiled, hbar, hturn.drawn, marksAfter, hturn.held, h]
    ext row
    simp only [Finset.mem_insert, Finset.mem_sdiff, Finset.mem_erase]
    tauto
  · obtain ⟨hheld, hspoiled⟩ := step_of_restores event hrestores
    unfold Remembers at h ⊢
    rw [hheld, hspoiled, hbar, hturn.drawn, marksAfter, hturn.held, erased, marksAfter, hturn.erased, h]
    ext row
    simp only [Finset.mem_insert, Finset.mem_sdiff, Finset.mem_erase, Finset.mem_union]
    tauto
  · rcases step_of_rests event hturn with ⟨rows, rfl⟩ | ⟨hheld, hspoiled⟩
    · exact remembers_output h rows
    · unfold Remembers at h ⊢
      rw [hheld, hspoiled, hbar, hturn.drawn]
      exact h

theorem remembers_start (u : Unicode) (env : StatusEnv)
    (inGrid commandAllowColor cursorVisible : Bool) (info : Option SessionInfo) (cols rows : ℕ) :
    (start u env inGrid commandAllowColor cursorVisible info cols rows).Remembers := by
  -- The bar is drawn at once, on a host without status lines.
  have hentered : ∀ (names : Str × Str) (style : Option StatusStyle),
      let status : StatusBar :=
        { sessionName := names.1, paneId := names.2, style, drawnStatusRows := [],
          preserveSgrStack := env.statusSgrStackSupported, commandLine := none,
          commandAllowColor := false, lastBody := none, forceRedraw := true,
          forceContentRedraw := false }
      let clamp := if style.isSome then (StatusBar.cursorClampIntoScrollRegion rows).toList else []
      (Marks.performAll rows ⟨none, ∅, ∅⟩ (status.reserveTerminalArea cursorVisible rows ++ clamp ++
        (status.drawAtSize u cursorVisible cols rows).2)).held =
          (status.drawAtSize u cursorVisible cols rows).1.drawnStatusRows.toFinset := by
    intro names style status clamp
    have hreserve : Marks.Neutral rows (status.reserveTerminalArea cursorVisible rows) := by
      intro marks
      unfold StatusBar.reserveTerminalArea StatusBar.buildReserveBody
      cases cursorVisible <;> dsimp only <;> split_ifs <;> exact ⟨rfl, rfl⟩
    have hclamp : Marks.Neutral rows clamp := by
      intro marks
      simp only [clamp]
      unfold StatusBar.cursorClampIntoScrollRegion
      split_ifs <;> exact ⟨rfl, rfl⟩
    have hheld : ∀ (marks : Marks), marks.held = ∅ →
        (marks.performAll rows (status.drawAtSize u cursorVisible cols rows).2).held =
          (status.drawAtSize u cursorVisible cols rows).1.drawnStatusRows.toFinset := by
      intro marks hmarks
      unfold StatusBar.drawAtSize
      dsimp only
      split_ifs with hbody
      · exact hmarks
      · have hroom : status.style ≠ none ∧ 1 < rows ∧ 1 < cols :=
          not_not.mp fun h => hbody (buildDrawBody_eq_nil_iff.mpr h)
        obtain ⟨style', hstyle⟩ := Option.ne_none_iff_exists'.mp hroom.1
        have hhide : marks.performAll rows [.hideCursor] = marks := rfl
        rw [Marks.performAll_append, Marks.performAll_append, hhide,
          performAll_body u status _ hstyle hroom.2.1 hroom.2.2, Marks.performAll_cons,
          Marks.perform_cursorRestoreSuffix, Marks.performAll_nil, drawn_rememberStatusRow, hmarks]
        rfl
    rw [Marks.performAll_append, Marks.performAll_append]
    refine hheld _ ?_
    rw [(hclamp _).1, (hreserve _).1]
  unfold Remembers start
  dsimp only
  rw [Finset.sdiff_empty]
  exact hentered _ _

/-- Every state of a run. -/
theorem remembers_runFrom (u : Unicode) (env : StatusEnv)
    (inGrid commandAllowColor cursorVisible : Bool) (info : Option SessionInfo) (cols rows : ℕ)
    (events : List Event) :
    (runFrom u env inGrid commandAllowColor cursorVisible info cols rows events).Remembers :=
  @Run.run_invariant _ _ (step u env) Remembers (fun _ event h => remembers_step h event) events _
    (remembers_start u env inGrid commandAllowColor cursorVisible info cols rows)

end Attached

open Attached

/-- **Old status rows.** In every run of an attached client and at every event after it: the rows that
hold a status line are remembered; after a draw that writes, the last row is the only one in sight that
holds one; and the rows above or below the last one that the event erases all hold a status line, if and
only if the event writes nothing or no remembered row above the last one is spoiled. -/
theorem status_rows_cleared (u : Unicode) (env : StatusEnv)
    (inGrid commandAllowColor cursorVisible : Bool) (info : Option SessionInfo) (cols rows : ℕ)
    (events : List Event) (event : Event) :
    let s := runFrom u env inGrid commandAllowColor cursorVisible info cols rows events
    s.held ⊆ s.bar.drawnStatusRows.toFinset ∧
    (event.Draws → (s.turn u env event).2 ≠ [] →
      (s.step u env event).held.filter (· ≤ s.rows) = {s.rows}) ∧
    ((∀ row ∈ s.erased u env event, row ≠ s.rows → row ∈ s.held) ↔
      (s.Writes u event → ∀ row ∈ s.bar.visiblePreviousStatusRows s.rows, row ∉ s.spoiled)) := by
  intro s
  have hs : s.Remembers :=
    remembers_runFrom u env inGrid commandAllowColor cursorVisible info cols rows events
  have hsub : s.held ⊆ s.bar.drawnStatusRows.toFinset := by
    rw [hs]
    exact Finset.sdiff_subset
  have hheld : ∀ row ∈ s.bar.drawnStatusRows, row ∈ s.held ↔ row ∉ s.spoiled := by
    intro row hrow
    rw [hs, Finset.mem_sdiff, List.mem_toFinset]
    exact ⟨fun h => h.2, fun h => ⟨hrow, h⟩⟩
  -- Whatever an event that writes erases beside the last row is what was remembered above it.
  have hexact : s.Writes u event →
      (∀ row ≠ s.rows, row ∈ s.erased u env event ↔ row ∈ cleared s.bar s.rows) →
      ((∀ row ∈ s.erased u env event, row ≠ s.rows → row ∈ s.held) ↔
        (s.Writes u event → ∀ row ∈ s.bar.visiblePreviousStatusRows s.rows, row ∉ s.spoiled)) := by
    intro hwrites herased
    constructor
    · intro h _ row hrow
      obtain ⟨hdrawn, hlt⟩ := (s.bar.mem_visiblePreviousStatusRows).mp hrow
      have hne : row ≠ s.rows := by omega
      have hmem := (herased row hne).mpr ((mem_cleared s.bar).mpr ⟨hdrawn, hlt⟩)
      exact (hheld row hdrawn).mp (h row hmem hne)
    · intro h row hmem hne
      obtain ⟨hdrawn, hlt⟩ := (mem_cleared s.bar).mp ((herased row hne).mp hmem)
      exact (hheld row hdrawn).mpr
        (h hwrites row ((s.bar.mem_visiblePreviousStatusRows).mpr ⟨hdrawn, hlt⟩))
  refine ⟨hsub, fun hdraws hnonempty => ?_, ?_⟩
  · rcases turn_cases u env s event with ⟨-, -, hturn⟩ | ⟨hrestores, -, -⟩ | ⟨-, hturn⟩
    · rw [(step_of_draws event hdraws hnonempty).1, marksAfter, hturn.held]
      ext row
      rw [Finset.mem_filter, Finset.mem_insert, Finset.mem_sdiff, mem_cleared, Finset.mem_singleton]
      constructor
      · rintro ⟨rfl | ⟨hmem, hnot⟩, hle⟩
        · rfl
        · have hdrawn := List.mem_toFinset.mp (hsub hmem)
          by_contra hne
          exact hnot ⟨hdrawn, by omega⟩
      · rintro rfl
        exact ⟨.inl rfl, le_refl _⟩
    · cases event <;> first
        | exact hdraws.elim
        | exact hrestores.elim
    · exact absurd hturn.nothing hnonempty
  · rcases turn_cases u env s event with ⟨-, hwrites, hturn⟩ | ⟨-, hwrites, hturn⟩ | ⟨hnot, hturn⟩
    · exact hexact hwrites hturn.erased
    · refine hexact hwrites fun row hne => ?_
      rw [erased, marksAfter, hturn.erased, Finset.mem_insert]
      exact ⟨fun h => h.resolve_left hne, .inr⟩
    · have hnone : s.erased u env event = ∅ := by
        rw [erased, marksAfter, hturn.nothing]
        rfl
      refine iff_of_true (fun row hrow => ?_) fun h => absurd h hnot
      rw [hnone] at hrow
      exact absurd hrow (Finset.notMem_empty row)

/-- A suspension at 24 rows restores the host; the program writes on the last row, which is now its own;
the terminal grows to 30 rows. -/
def grownRun : List Event := [.suspend .advance, .output {24}, .resized 20 30]

/-- The resumption erases what the program wrote. -/
theorem grownRun_erases :
    let s := runFrom Row.narrow plainEnv true false true none 20 24 grownRun
    let event := Event.resume (some ⟨[], [], none⟩) .advance true
    24 ∈ s.erased Row.narrow plainEnv event ∧ 24 ≠ s.rows ∧ 24 ∉ s.held := by
  decide +kernel

end LightTerminal.Client.StatusRows
