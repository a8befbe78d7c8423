import LightTerminal.Sanitize.Row
import LightTerminal.Session.Segment

/-! # The status bar of an attached client

`StatusBar` (`client.rs`) keeps the last row of the host terminal for a line of its own: it holds the
scroll region above the row, draws the line there and remembers in `last_body` what it wrote, so that
it need not draw the same line again.

What the bar writes is a list of operations of the host, `Op`. The source formats them into one string,
`render`, and compares these strings; `Host.perform` is what the host does with an operation, as far as
the scroll region and the last row go. The cursor of the program in the pane, to which a restored cursor
goes back, is taken to be above the last row.

* `performAll_buildDrawBody`: what drawing the body leaves on the host;
* `statusText_of_render_eq`: bodies with the same text draw the same line. -/

namespace LightTerminal.Client.StatusRow

open LightTerminal.Data.Text LightTerminal.Sanitize LightTerminal.Sanitize.Truncate
open LightTerminal.Session.Segment

/-! ### The host -/

/-- What the bar writes. -/
inductive Op where
  | saveCursor
  | restoreCursor
  | hideCursor
  | showCursor
  | pushSgr
  | popSgr
  | scrollRegion (bottom : ℕ)
  | resetScrollRegion
  | moveTo (row : ℕ)
  | eraseLine
  | eraseToEnd
  | print (text : Str)
  deriving DecidableEq, Repr

/-- The escape character. -/
def esc : Char := '\u001b'

/-- An operation as it is written. -/
def Op.render : Op → Str
  | .saveCursor => [esc, '7']
  | .restoreCursor => [esc, '8']
  | .hideCursor => esc :: "[?25l".toList
  | .showCursor => esc :: "[?25h".toList
  | .pushSgr => esc :: "[#\x7b".toList
  | .popSgr => esc :: "[#\x7d".toList
  | .scrollRegion bottom => esc :: "[1;".toList ++ decimal bottom ++ "r".toList
  | .resetScrollRegion => esc :: "[r".toList
  | .moveTo row => esc :: '[' :: decimal row ++ ';' :: "1H".toList
  | .eraseLine => [esc, '[', '2', 'K']
  | .eraseToEnd => [esc, '[', 'K']
  | .print text => text

/-- The string of a list of operations. -/
def render (ops : List Op) : Str := ops.flatMap Op.render

/-- The sizes at which there is a row for the bar. -/
structure Size where
  cols : ℕ
  rows : ℕ
  one_lt_cols : 1 < cols
  one_lt_rows : 1 < rows
  deriving DecidableEq, Repr

/-- What the last row shows: a text and nothing after it, or a text over what the row showed before. -/
inductive Shown where
  | line (text : Str)
  | over (text : Str)
  deriving DecidableEq, Repr

/-- The host terminal. The scroll region goes from row 1 to `scrollBottom`; `written` is there while
the cursor is on the last row and holds what was written on it since the cursor went to its begin. -/
structure Host where
  size : Size
  scrollBottom : ℕ
  statusRow : Shown
  written : Option Str
  deriving DecidableEq, Repr

namespace Host

/-- What an operation does. A row beyond the last one is the last one. -/
def perform (host : Host) : Op → Host
  | .restoreCursor => { host with written := none }
  | .scrollRegion bottom => { host with scrollBottom := bottom, written := none }
  | .resetScrollRegion => { host with scrollBottom := host.size.rows, written := none }
  | .moveTo row => { host with written := if host.size.rows ≤ row then some [] else none }
  | .eraseLine => if host.written.isSome then { host with statusRow := .line [] } else host
  | .eraseToEnd =>
    match host.written with
    | some before => { host with statusRow := .line before }
    | none => host
  | .print text =>
    match host.written with
    | some before =>
      { host with statusRow := .over (before ++ text), written := some (before ++ text) }
    | none => host
  | .saveCursor | .hideCursor | .showCursor | .pushSgr | .popSgr => host

/-- What a list of operations does. -/
def performAll (host : Host) (ops : List Op) : Host := ops.foldl perform host

end Host

/-! ### The bar -/

/-- `StatusTheme`. -/
inductive StatusTheme where
  | blue
  | green
  | magenta
  | cyan
  | amber
  | red
  | gray
  | plain
  deriving DecidableEq, Repr

/-- `StatusStyle`. -/
inductive StatusStyle where
  | full (theme : StatusTheme)
  | minimal
  deriving DecidableEq, Repr

/-- The reset of the rendition, `ESC [ 0 m`. -/
def sgrReset : Str := esc :: '[' :: '0' :: "m".toList

/-- `StatusStyle::sgr`. -/
def StatusStyle.sgr : StatusStyle → Str
  | .full .blue => esc :: '[' :: '0' :: ";30;104m".toList
  | .full .green => esc :: '[' :: '0' :: ";30;102m".toList
  | .full .magenta => esc :: '[' :: '0' :: ";30;105m".toList
  | .full .cyan => esc :: '[' :: '0' :: ";30;106m".toList
  | .full .amber => esc :: '[' :: '0' :: ";30;103m".toList
  | .full .red => esc :: '[' :: '0' :: ";97;41m".toList
  | .full .gray => esc :: '[' :: '0' :: ";97;100m".toList
  | .full .plain | .minimal => sgrReset

/-- What the bar takes from the environment: `LTERM_STATUS_STYLE` and `LTERM_STATUS_THEME` as far as
they parse, `no_color_requested`, `prefers_minimal_status_style` and `status_sgr_stack_supported`. -/
structure StatusEnv where
  statusStyle : Option StatusStyle
  statusTheme : Option StatusTheme
  noColorRequested : Bool
  prefersMinimalStatusStyle : Bool
  statusSgrStackSupported : Bool
  deriving DecidableEq, Repr

/-- `resolve_status_theme`. -/
def resolveStatusTheme (env : StatusEnv) (sessionTheme : Option StatusTheme) : StatusTheme × Bool :=
  match sessionTheme, env.statusTheme with
  | some theme, _ => (theme, true)
  | none, some theme => (theme, true)
  | none, none => (.blue, false)

/-- `resolve_status_style`. -/
def resolveStatusStyle (env : StatusEnv) (sessionTheme : Option StatusTheme) : StatusStyle :=
  let (theme, themeExplicit) := resolveStatusTheme env sessionTheme
  match env.statusStyle with
  | some (.full _) => .full theme
  | some .minimal => .minimal
  | none =>
    if env.noColorRequested then .minimal
    else if themeExplicit || !env.prefersMinimalStatusStyle then .full theme
    else .minimal

/-- What the bar reads of a `SessionInfo`. -/
structure SessionInfo where
  name : Str
  paneId : Str
  statusTheme : Option StatusTheme
  deriving DecidableEq, Repr

/-- `StatusBar`, without the shared state of the terminal: whether the cursor is visible, which is what
the bar reads of it, is an input of the operations. -/
structure StatusBar where
  sessionName : Str
  paneId : Str
  style : Option StatusStyle
  drawnStatusRows : List ℕ
  preserveSgrStack : Bool
  commandLine : Option Str
  commandAllowColor : Bool
  lastBody : Option Str
  forceRedraw : Bool
  forceContentRedraw : Bool
  deriving DecidableEq, Repr

/-- `format_status_line`. -/
def formatStatusLine (u : Unicode) (sessionName paneId : Str) (cols : ℕ) : Str :=
  if cols = 0 then []
  else
    let line := " lterm  ".toList ++ sessionName ++ "  ".toList ++ paneId ++ " ".toList
    let truncated :=
      if cols < u.width line then
        let ellipsisMargin := if 2 ≤ cols then 1 else 0
        let buf := (clusterLoop u (cols - ellipsisMargin) 0 (u.graphemes line)).1
        if 0 < ellipsisMargin then buf ++ ['…'] else buf
      else line
    truncated ++ List.replicate (cols - u.width truncated) ' '

namespace StatusBar

variable (u : Unicode) (bar : StatusBar)

/-- `visible_previous_status_rows`. -/
def visiblePreviousStatusRows (rows : ℕ) : List ℕ := bar.drawnStatusRows.filter (· < rows)

/-- `remember_status_row`. -/
def rememberStatusRow (rows : ℕ) (rowsToClear : List ℕ) : StatusBar :=
  let kept := bar.drawnStatusRows.filter fun row => decide (rows ≤ row) || decide (row ∉ rowsToClear)
  { bar with drawnStatusRows := if rows ∈ kept then kept else kept ++ [rows] }

/-- `cursor_restore_suffix`. -/
def cursorRestoreSuffix (cursorVisible : Bool) : Op := if cursorVisible then .showCursor else .hideCursor

/-- `build_reserve_body`. -/
def buildReserveBody (rows : ℕ) : List Op :=
  if bar.style = none ∨ rows ≤ 1 then []
  else [.saveCursor, .scrollRegion (rows - 1), .restoreCursor]

/-- `reserve_terminal_area`. -/
def reserveTerminalArea (cursorVisible : Bool) (rows : ℕ) : List Op :=
  let body := bar.buildReserveBody rows
  if body = [] then [] else [.hideCursor] ++ body ++ [cursorRestoreSuffix cursorVisible]

/-- The line in `build_draw_body` and whether it gets the background of the theme. No slice of
`truncate_status_line_ansi` fails (`statusLine_truncated`). -/
def statusLine (cols : ℕ) : Str × Bool :=
  let safeWidth := max (cols - 1) 1
  let fallback := (formatStatusLine u bar.sessionName bar.paneId safeWidth, true)
  match bar.commandLine with
  | some cmd =>
    if cmd ≠ [] then ((truncateStatusLineAnsi u cmd safeWidth).getD [], !bar.commandAllowColor)
    else fallback
  | none => fallback

/-- `{sgr}{line}` in `build_draw_body`. -/
def statusText (style : StatusStyle) (cols : ℕ) : Str :=
  let (line, useThemeBg) := bar.statusLine u cols
  (if useThemeBg then style.sgr else sgrReset) ++ line

/-- `sgr_push`. -/
def sgrPush : List Op := if bar.preserveSgrStack then [.pushSgr] else []

/-- `sgr_pop`. -/
def sgrPop : List Op := if bar.preserveSgrStack then [.popSgr] else []

/-- The clearing of the rows on which the bar was before. -/
def clearRows (rowsToClear : List ℕ) : List Op :=
  rowsToClear.flatMap fun previousRow => [.moveTo previousRow, .print sgrReset, .eraseLine]

/-- `current_row_clear`. -/
def currentRowClear (rows : ℕ) : List Op := if rows ∈ bar.drawnStatusRows then [] else [.eraseLine]

/-- `build_draw_body`. -/
def buildDrawBody (cols rows : ℕ) : List Op :=
  if rows ≤ 1 ∨ cols ≤ 1 then []
  else
    match bar.style with
    | none => []
    | some style =>
      .saveCursor :: bar.sgrPush ++ clearRows (bar.visiblePreviousStatusRows rows) ++
        .moveTo rows :: bar.currentRowClear rows ++
        [.print (bar.statusText u style cols), .print sgrReset, .eraseToEnd] ++
        bar.sgrPop ++ [.restoreCursor]

/-- `draw_at_size`: the bar after it and what was written. -/
def drawAtSize (cursorVisible : Bool) (cols rows : ℕ) : StatusBar × List Op :=
  let body := bar.buildDrawBody u cols rows
  if body = [] then (bar, [])
  else
    (bar.rememberStatusRow rows (bar.visiblePreviousStatusRows rows),
      [.hideCursor] ++ body ++ [cursorRestoreSuffix cursorVisible])

/-- `refresh`: the bar after it and what was written, which is nothing where it returns `false`. -/
def refresh (cursorVisible : Bool) (cols rows : ℕ) : StatusBar × List Op :=
  let drawBody := bar.buildDrawBody u cols rows
  if drawBody = [] then (bar, [])
  else
    let changed := decide (bar.lastBody ≠ some (render drawBody))
    let writeWithReserve := bar.forceRedraw || changed
    let writeContentOnly := bar.forceContentRedraw
    if !writeWithReserve && !writeContentOnly then (bar, [])
    else
      let reserve := if writeWithReserve then bar.buildReserveBody rows else []
      ({ bar.rememberStatusRow rows (bar.visiblePreviousStatusRows rows) with
          lastBody := some (render drawBody), forceRedraw := false, forceContentRedraw := false },
        [.hideCursor] ++ reserve ++ drawBody ++ [cursorRestoreSuffix cursorVisible])

/-- `restore`: what is written. -/
def restore (rows : ℕ) : List Op :=
  if bar.style = none then []
  else
    .saveCursor :: bar.sgrPush ++ [.resetScrollRegion] ++
      clearRows (bar.visiblePreviousStatusRows rows) ++
      [.moveTo rows, .print sgrReset, .eraseLine] ++ bar.sgrPop ++ [.restoreCursor]

/-- `update_info`: the bar after it and whether it changed. -/
def updateInfo (info : SessionInfo) : StatusBar × Bool :=
  let sessionName := terminalText info.name
  let paneId := terminalText info.paneId
  if bar.sessionName = sessionName ∧ bar.paneId = paneId then (bar, false)
  else ({ bar with sessionName, paneId }, true)

/-- `cursor_clamp_into_scroll_region`. -/
def cursorClampIntoScrollRegion (rows : ℕ) : Option Op :=
  if rows ≤ 1 then none else some (.moveTo (rows - 1))

/-- `enter`: the bar and what was written. -/
def enter (env : StatusEnv) (info : Option SessionInfo) (style : Option StatusStyle)
    (cursorVisible : Bool) (cols rows : ℕ) : StatusBar × List Op :=
  let names := match info with
    | some info => (terminalText info.name, terminalText info.paneId)
    | none => ("unknown".toList, "?".toList)
  let status : StatusBar :=
    { sessionName := names.1, paneId := names.2, style, drawnStatusRows := [],
      preserveSgrStack := env.statusSgrStackSupported, commandLine := none,
      commandAllowColor := false, lastBody := none, forceRedraw := true,
      forceContentRedraw := false }
  let clamp := if style.isSome then (cursorClampIntoScrollRegion rows).toList else []
  let drawn := status.drawAtSize u cursorVisible cols rows
  (drawn.1, status.reserveTerminalArea cursorVisible rows ++ clamp ++ drawn.2)

end StatusBar

/-- What `build_draw_body` takes from `truncate_status_line_ansi` is never the default. -/
theorem statusLine_truncated (u : Unicode) (cmd : Str) (cols : ℕ) :
    (truncateStatusLineAnsi u cmd (max (cols - 1) 1)).isSome := by
  have hwidth : max (cols - 1) 1 ≠ 0 := by omega
  rw [Row.truncate_eq u cmd hwidth]
  rfl

/-! ### What a write leaves on the host -/

namespace Host

@[simp] theorem performAll_nil (host : Host) : host.performAll [] = host := rfl

@[simp] theorem performAll_cons (host : Host) (op : Op) (ops : List Op) :
    host.performAll (op :: ops) = (host.perform op).performAll ops := rfl

@[simp] theorem performAll_append (host : Host) (ops ops' : List Op) :
    host.performAll (ops ++ ops') = (host.performAll ops).performAll ops' := List.foldl_append

end Host

namespace StatusBar

variable (u : Unicode) (bar : StatusBar) (host : Host)

theorem mem_visiblePreviousStatusRows {rows row : ℕ} :
    row ∈ bar.visiblePreviousStatusRows rows ↔ row ∈ bar.drawnStatusRows ∧ row < rows := by
  simp [visiblePreviousStatusRows]

@[simp] theorem performAll_cursorRestoreSuffix (cursorVisible : Bool) :
    host.perform (cursorRestoreSuffix cursorVisible) = host := by
  cases cursorVisible <;> rfl

@[simp] theorem performAll_sgrPush : host.performAll bar.sgrPush = host := by
  unfold sgrPush
  split <;> rfl

@[simp] theorem performAll_sgrPop : host.performAll bar.sgrPop = host := by
  unfold sgrPop
  split <;> rfl

/-- Rows above the last one are cleared without a change of the last one. -/
theorem perform_moveTo_clearRows {rows : List ℕ} (h : ∀ row ∈ rows, row < host.size.rows)
    (row' : ℕ) : (host.performAll (clearRows rows)).perform (.moveTo row') =
      host.perform (.moveTo row') := by
  induction rows generalizing host with
  | nil => rfl
  | cons row rows ih =>
    have hrow : ¬ host.size.rows ≤ row := by have := h row (by simp); omega
    have hstep : host.performAll [.moveTo row, .print sgrReset, .eraseLine] =
        { host with written := none } := by
      simp only [Host.performAll_cons, Host.perform, if_neg hrow, Host.performAll_nil,
        Option.isSome_none]
      rfl
    rw [clearRows, List.flatMap_cons, Host.performAll_append, hstep]
    exact ih _ fun row hmem => h row (by simp [hmem])

/-- A line is drawn on the last row over whatever it showed. -/
theorem performAll_draw (rows : ℕ) (text : Str) :
    (host.perform (.moveTo host.size.rows)).performAll
      (bar.currentRowClear rows ++ [.print text, .print sgrReset, .eraseToEnd]) =
      { host with statusRow := .line (text ++ sgrReset), written := some (text ++ sgrReset) } := by
  have hmove : host.perform (.moveTo host.size.rows) = { host with written := some [] } := by
    simp [Host.perform]
  rw [hmove]
  unfold currentRowClear
  split <;> simp [Host.perform]

/-- What drawing the body leaves on the host. -/
theorem performAll_buildDrawBody {style : StatusStyle} (hstyle : bar.style = some style) :
    host.performAll (bar.buildDrawBody u host.size.cols host.size.rows) =
      { host with
        statusRow := .line (bar.statusText u style host.size.cols ++ sgrReset), written := none } := by
  have hsize : ¬ (host.size.rows ≤ 1 ∨ host.size.cols ≤ 1) := by
    have := host.size.one_lt_rows
    have := host.size.one_lt_cols
    omega
  have hclear : ∀ row ∈ bar.visiblePreviousStatusRows host.size.rows, row < host.size.rows :=
    fun row hrow => ((bar.mem_visiblePreviousStatusRows).mp hrow).2
  have hsave : host.performAll [.saveCursor] = host := rfl
  have hdraw := performAll_draw bar host host.size.rows (bar.statusText u style host.size.cols)
  rw [buildDrawBody, if_neg hsize, hstyle]
  simp only [List.cons_append, List.append_assoc, Host.performAll_append, Host.performAll_cons,
    Host.performAll_nil, performAll_sgrPush, performAll_sgrPop] at hsave hdraw ⊢
  rw [hsave, perform_moveTo_clearRows host hclear, hdraw]
  rfl

/-- What holding the scroll region leaves. -/
theorem performAll_buildReserveBody {style : StatusStyle} (hstyle : bar.style = some style) :
    host.performAll (bar.buildReserveBody host.size.rows) =
      { host with scrollBottom := host.size.rows - 1, written := none } := by
  have hrows := host.size.one_lt_rows
  have hsome : ¬ (bar.style = none ∨ host.size.rows ≤ 1) := by
    rw [hstyle]
    simp only [reduceCtorEq, false_or]
    omega
  rw [buildReserveBody, if_neg hsome]
  rfl

/-- What a restored host shows. -/
theorem performAll_restore {style : StatusStyle} (hstyle : bar.style = some style) :
    host.performAll (bar.restore host.size.rows) =
      { host with
        scrollBottom := host.size.rows, statusRow := .line [], written := none } := by
  have hclear : ∀ row ∈ bar.visiblePreviousStatusRows host.size.rows, row < host.size.rows :=
    fun row hrow => ((bar.mem_visiblePreviousStatusRows).mp hrow).2
  have hsome : ¬ bar.style = none := by simp [hstyle]
  rw [restore, if_neg hsome]
  simp only [List.cons_append, List.append_assoc, Host.performAll_append, Host.performAll_cons,
    Host.performAll_nil]
  have hsave : host.perform .saveCursor = host := rfl
  rw [hsave, performAll_sgrPush,
    perform_moveTo_clearRows (host.perform .resetScrollRegion) hclear]
  simp [Host.perform]

/-! ### Bodies with the same text -/

end StatusBar

theorem render_append (ops ops' : List Op) : render (ops ++ ops') = render ops ++ render ops' :=
  List.flatMap_append

theorem render_cons (op : Op) (ops : List Op) : render (op :: ops) = op.render ++ render ops := rfl

/-- The row of a movement can be read off the text. -/
theorem moveTo_unique {row row' : ℕ} {rest rest' : Str}
    (h : (Op.moveTo row).render ++ rest = (Op.moveTo row').render ++ rest') :
    row = row' ∧ rest = rest' := by
  have hdigits : ∀ n, ';' ∉ decimal n := fun n hmem =>
    absurd (Nat.isDigit_of_mem_toDigits (by decide) (by decide) hmem) (by decide)
  have htail : decimal row ++ ';' :: ("1H".toList ++ rest) =
      decimal row' ++ ';' :: ("1H".toList ++ rest') := by
    simpa [Op.render] using h
  obtain ⟨hrow, hrest⟩ := Library.Lines.line_unique htail (hdigits row) (hdigits row')
  have hvalue := congrArg (Nat.ofDigitChars 10 · 0) hrow
  simp only [decimal, Nat.ofDigitChars_ten_toDigits] at hvalue
  exact ⟨hvalue, List.append_cancel_left hrest⟩

namespace StatusBar

variable (u : Unicode)

/-- The rows cleared before the last one are those of the text, so the rest of the text is the same. -/
theorem clearRows_unique {last : ℕ} {rows rows' : List ℕ} {rest rest' : Str}
    (hrows : ∀ row ∈ rows, row < last) (hrows' : ∀ row ∈ rows', row < last)
    (h : render (clearRows rows) ++ ((Op.moveTo last).render ++ rest) =
      render (clearRows rows') ++ ((Op.moveTo last).render ++ rest')) : rest = rest' := by
  have hcons : ∀ (row : ℕ) (rows : List ℕ) (more : Str),
      render (clearRows (row :: rows)) ++ more = (Op.moveTo row).render ++
        (render [.print sgrReset, .eraseLine] ++ (render (clearRows rows) ++ more)) := by
    intro row rows more
    simp [clearRows, render, List.append_assoc]
  induction rows generalizing rows' with
  | nil =>
    cases rows' with
    | nil => exact (moveTo_unique h).2
    | cons row' rows' =>
      rw [hcons] at h
      have hrow := hrows' row' (by simp)
      have heq := (moveTo_unique h).1
      omega
  | cons row rows ih =>
    cases rows' with
    | nil =>
      rw [hcons] at h
      have hrow := hrows row (by simp)
      have heq := (moveTo_unique h).1
      omega
    | cons row' rows' =>
      rw [hcons, hcons] at h
      have hmore := List.append_cancel_left (moveTo_unique h).2
      exact ih (fun row hmem => hrows row (by simp [hmem]))
        (fun row hmem => hrows' row (by simp [hmem])) hmore

theorem statusText_begins (bar : StatusBar) (style : StatusStyle) (cols : ℕ) :
    ∃ rest, bar.statusText u style cols = esc :: '[' :: '0' :: rest := by
  have hsgr : ∀ style : StatusStyle, ∃ rest, style.sgr = esc :: '[' :: '0' :: rest := by
    rintro ((_ | _ | _ | _ | _ | _ | _ | _) | _) <;> exact ⟨_, rfl⟩
  have hreset : ∃ rest, sgrReset = esc :: '[' :: '0' :: rest := ⟨_, rfl⟩
  unfold statusText
  obtain ⟨rest, hrest⟩ : ∃ rest,
      (if (bar.statusLine u cols).2 then style.sgr else sgrReset) = esc :: '[' :: '0' :: rest := by
    split
    · exact hsgr style
    · exact hreset
  exact ⟨rest ++ (bar.statusLine u cols).1, by simp only [hrest, List.cons_append]⟩

/-- Bodies with the same text for the same row draw the same line. -/
theorem statusText_of_render_eq {bar bar' : StatusBar} {style style' : StatusStyle}
    {cols cols' rows : ℕ} (hstyle : bar.style = some style) (hstyle' : bar'.style = some style')
    (hpreserve : bar.preserveSgrStack = bar'.preserveSgrStack) (hcols : 1 < cols) (hcols' : 1 < cols')
    (hrows : 1 < rows)
    (h : render (bar.buildDrawBody u cols rows) = render (bar'.buildDrawBody u cols' rows)) :
    bar.statusText u style cols = bar'.statusText u style' cols' := by
  have hsize : ¬ (rows ≤ 1 ∨ cols ≤ 1) := by omega
  have hsize' : ¬ (rows ≤ 1 ∨ cols' ≤ 1) := by omega
  have hpush : bar'.sgrPush = bar.sgrPush := by rw [sgrPush, sgrPush, hpreserve]
  have hpop : bar'.sgrPop = bar.sgrPop := by rw [sgrPop, sgrPop, hpreserve]
  rw [buildDrawBody, buildDrawBody, if_neg hsize, if_neg hsize', hstyle, hstyle', hpush, hpop] at h
  simp only [List.cons_append, List.append_assoc, render_cons, render_append] at h
  have hrest := clearRows_unique
    (fun row hrow => ((bar.mem_visiblePreviousStatusRows).mp hrow).2)
    (fun row hrow => ((bar'.mem_visiblePreviousStatusRows).mp hrow).2)
    (List.append_cancel_left (List.append_cancel_left h))
  -- What follows the last row's movement: the clearing of the row, or at once the rendition.
  obtain ⟨text, htext⟩ := bar.statusText_begins u style cols
  obtain ⟨text', htext'⟩ := bar'.statusText_begins u style' cols'
  by_cases hdrawn : rows ∈ bar.drawnStatusRows
  · by_cases hdrawn' : rows ∈ bar'.drawnStatusRows
    · rw [currentRowClear, currentRowClear, if_pos hdrawn, if_pos hdrawn'] at hrest
      exact List.append_cancel_right (List.append_cancel_left hrest)
    · rw [currentRowClear, currentRowClear, if_pos hdrawn, if_neg hdrawn', htext] at hrest
      simp [render, Op.render] at hrest
  · by_cases hdrawn' : rows ∈ bar'.drawnStatusRows
    · rw [currentRowClear, currentRowClear, if_neg hdrawn, if_pos hdrawn', htext'] at hrest
      simp [render, Op.render] at hrest
    · rw [currentRowClear, currentRowClear, if_neg hdrawn, if_neg hdrawn'] at hrest
      exact List.append_cancel_right (List.append_cancel_left hrest)

end StatusBar

end LightTerminal.Client.StatusRow
