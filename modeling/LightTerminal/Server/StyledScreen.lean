import LightTerminal.Data.Text
import LightTerminal.Library.Procedure
import LightTerminal.Library.Runs

/-! # Styled screens

The screen of the emulator as a client gets it (`styled_snapshot_from_screen` of `server.rs`): each row
is a list of runs of blank columns or of cells, and a run names its style by its place in a table.

The screen `vt100::Screen` is an abstract grid of cells (`VtScreen`). The expansion of the runs gives
back every cell with its style (`Lossless`), and there is no shorter way to write the runs. -/

namespace LightTerminal.Server.StyledScreen

open LightTerminal.Data.Text LightTerminal.Library.Procedure LightTerminal.Library.Runs

/-! ### The screen of the emulator -/

/-- `vt100::Color`. -/
inductive VtColor where
  | default
  | idx (index : UInt8)
  | rgb (red green blue : UInt8)
  deriving DecidableEq

/-- `vt100::Cell`. -/
structure VtCell where
  contents : Str
  isWide : Bool
  isWideContinuation : Bool
  fgcolor : VtColor
  bgcolor : VtColor
  bold : Bool
  dim : Bool
  italic : Bool
  underline : Bool
  inverse : Bool

/-- `has_contents`. -/
def VtCell.hasContents (cell : VtCell) : Bool := !cell.contents.isEmpty

/-- `vt100::Screen`, as far as a snapshot reads it. -/
structure VtScreen where
  rows : ℕ
  cols : ℕ
  cell : (row column : ℕ) → Option VtCell
  rowWrapped : ℕ → Bool
  cursorRow : ℕ
  cursorColumn : ℕ
  alternateScreen : Bool
  hideCursor : Bool

/-! ### Snapshots -/

/-- `STYLED_SCREEN_SCHEMA_V1`. -/
def styledScreenSchemaV1 : Str := "lterm.styled-screen.v1".toList

/-- `STYLED_SCREEN_MAX_ROWS`. -/
def styledScreenMaxRows : ℕ := 128

/-- `STYLED_SCREEN_MAX_COLS`. -/
def styledScreenMaxCols : ℕ := 192

/-- `STYLED_SCREEN_MAX_CELLS`. -/
def styledScreenMaxCells : ℕ := 24576

/-- `STYLED_SCREEN_MAX_STYLES`. -/
def styledScreenMaxStyles : ℕ := 2048

/-- `StyledScreenColor`. -/
inductive StyledScreenColor where
  | default
  | indexed (index : UInt8)
  | rgb (red green blue : UInt8)
  deriving DecidableEq

/-- `StyledScreenStyle`. -/
structure StyledScreenStyle where
  foreground : StyledScreenColor
  background : StyledScreenColor
  bold : Bool
  dim : Bool
  italic : Bool
  underline : Bool
  inverse : Bool
  deriving DecidableEq

/-- `StyledScreenCell`. -/
inductive StyledScreenCell where
  | text (text : Str) (width : ℕ)
  | continuation
  deriving DecidableEq

/-- `StyledScreenRun`. -/
inductive StyledScreenRun where
  | blank (styleId columns : ℕ)
  | cells (styleId : ℕ) (cells : List StyledScreenCell)
  deriving DecidableEq

/-- `StyledScreenRow`. -/
structure StyledScreenRow where
  wrapped : Bool
  runs : List StyledScreenRun

/-- `StyledScreenCursor`. -/
structure StyledScreenCursor where
  visible : Bool
  row : ℕ
  column : ℕ

/-- `StyledScreenSnapshot`. -/
structure StyledScreenSnapshot where
  schemaVersion : Str
  variant : Str
  sessionId : Str
  screenRevision : Str
  rows : ℕ
  cols : ℕ
  activeScreen : Str
  styles : List StyledScreenStyle
  screenRows : List StyledScreenRow
  cursor : StyledScreenCursor

/-- Why there is no snapshot. -/
inductive StyledScreenError where
  | unsupportedSchema
  | stale
  | targetNotFound
  | degraded
  | tooLarge
  | invalidState
  | responseTooLarge
  deriving DecidableEq

/-- The text of an error. -/
def StyledScreenError.text : StyledScreenError → Str
  | unsupportedSchema => "styled_screen_unsupported_schema".toList
  | stale => "styled_screen_stale".toList
  | targetNotFound => "styled_screen_target_not_found".toList
  | degraded => "styled_screen_degraded".toList
  | tooLarge => "styled_screen_too_large".toList
  | invalidState => "styled_screen_invalid_state".toList
  | responseTooLarge => "styled_screen_response_too_large".toList

/-- Each error has a text of its own. -/
theorem StyledScreenError.text_injective : Function.Injective StyledScreenError.text := by
  have hall : ∀ e e' : StyledScreenError, e.text = e'.text → e = e' := by
    intro e e'
    cases e <;> cases e' <;> decide
  exact fun e e' => hall e e'

/-- `validate_styled_screen_geometry`. -/
def validateStyledScreenGeometry (rows cols : ℕ) : Except StyledScreenError Unit := do
  require (rows * cols < 2 ^ 64) .tooLarge
  require (rows ≠ 0 ∧ cols ≠ 0 ∧ rows ≤ styledScreenMaxRows ∧ cols ≤ styledScreenMaxCols ∧
    rows * cols ≤ styledScreenMaxCells) .tooLarge

/-! ### Styles -/

/-- `styled_color`. -/
def styledColor : VtColor → StyledScreenColor
  | .default => .default
  | .idx index => .indexed index
  | .rgb red green blue => .rgb red green blue

/-- The style of a cell. -/
def VtCell.style (cell : VtCell) : StyledScreenStyle where
  foreground := styledColor cell.fgcolor
  background := styledColor cell.bgcolor
  bold := cell.bold
  dim := cell.dim
  italic := cell.italic
  underline := cell.underline
  inverse := cell.inverse

theorem styledColor_injective : Function.Injective styledColor := by
  intro color color' h
  cases color <;> cases color' <;> simp_all [styledColor]

/-- A style says all that a cell has besides its contents. -/
theorem VtCell.style_eq_iff {cell cell' : VtCell} : cell.style = cell'.style ↔
    cell.fgcolor = cell'.fgcolor ∧ cell.bgcolor = cell'.bgcolor ∧ cell.bold = cell'.bold ∧
      cell.dim = cell'.dim ∧ cell.italic = cell'.italic ∧ cell.underline = cell'.underline ∧
      cell.inverse = cell'.inverse := by
  simp only [VtCell.style, StyledScreenStyle.mk.injEq, styledColor_injective.eq_iff]

/-- The styles so far, and the map from a style to its place. -/
structure StyleTable where
  styles : List StyledScreenStyle
  styleIds : StyledScreenStyle → Option ℕ

/-- The table before the first cell. -/
def StyleTable.empty : StyleTable := ⟨[], fun _ => none⟩

/-- `styled_style_id`. -/
def styledStyleId (cell : VtCell) (table : StyleTable) :
    Except StyledScreenError (ℕ × StyleTable) :=
  match table.styleIds cell.style with
  | some styleId => .ok (styleId, table)
  | none => do
    require (table.styles.length < styledScreenMaxStyles) .responseTooLarge
    require (table.styles.length < 2 ^ 16) .responseTooLarge
    return (table.styles.length,
      ⟨table.styles ++ [cell.style],
        Function.update table.styleIds cell.style (some table.styles.length)⟩)

/-! ### Rows -/

/-- The cell of a snapshot for a cell that is not blank. -/
def VtCell.styledCell (cell : VtCell) : StyledScreenCell :=
  if cell.isWideContinuation then .continuation
  else .text cell.contents (if cell.isWide then 2 else 1)

/-- The next column of a row. -/
def pushColumn (runs : List StyledScreenRun) (cell : VtCell) (styleId : ℕ) :
    Except StyledScreenError (List StyledScreenRun) :=
  if !cell.hasContents && !cell.isWideContinuation then
    match runs.getLast? with
    | some (.blank previousStyle columns) =>
      if previousStyle = styleId then do
        require (columns + 1 < 2 ^ 16) .invalidState
        return runs.dropLast ++ [.blank previousStyle (columns + 1)]
      else .ok (runs ++ [.blank styleId 1])
    | _ => .ok (runs ++ [.blank styleId 1])
  else
    match runs.getLast? with
    | some (.cells previousStyle cells) =>
      if previousStyle = styleId then
        .ok (runs.dropLast ++ [.cells previousStyle (cells ++ [cell.styledCell])])
      else .ok (runs ++ [.cells styleId [cell.styledCell]])
    | _ => .ok (runs ++ [.cells styleId [cell.styledCell]])

/-- The loop over the columns of a row. -/
def styledColumns (screen : VtScreen) (row : ℕ) :
    List ℕ → StyleTable → List StyledScreenRun →
      Except StyledScreenError (StyleTable × List StyledScreenRun)
  | [], table, runs => .ok (table, runs)
  | column :: columns, table, runs => do
    let cell ← expect (screen.cell row column) .invalidState
    let (styleId, table) ← styledStyleId cell table
    let runs ← pushColumn runs cell styleId
    styledColumns screen row columns table runs

/-- The loop over the rows. -/
def styledRows (screen : VtScreen) : List ℕ → StyleTable → List StyledScreenRow →
    Except StyledScreenError (StyleTable × List StyledScreenRow)
  | [], table, screenRows => .ok (table, screenRows)
  | row :: rows, table, screenRows => do
    let (table, runs) ← styledColumns screen row (List.range screen.cols) table []
    styledRows screen rows table (screenRows ++ [⟨screen.rowWrapped row, runs⟩])

/-- `styled_snapshot_from_screen`. -/
def styledSnapshotFromScreen (sessionId : Str) (revision : ℕ) (screen : VtScreen) :
    Except StyledScreenError StyledScreenSnapshot := do
  validateStyledScreenGeometry screen.rows screen.cols
  require (screen.cursorRow < screen.rows ∧ screen.cursorColumn ≤ screen.cols) .invalidState
  let (table, screenRows) ← styledRows screen (List.range screen.rows) .empty []
  return {
    schemaVersion := styledScreenSchemaV1
    variant := "snapshot".toList
    sessionId := sessionId
    screenRevision := decimal revision
    rows := screen.rows
    cols := screen.cols
    activeScreen := if screen.alternateScreen then "alternate".toList else "normal".toList
    styles := table.styles
    screenRows := screenRows
    cursor := {
      visible := !screen.hideCursor
      row := screen.cursorRow
      column := screen.cursorColumn } }

/-! ### Expansion -/

/-- What a column shows. -/
inductive Column where
  | blank
  | text (text : Str) (width : ℕ)
  | continuation
  deriving DecidableEq

/-- What a column of the screen shows. -/
def VtCell.column (cell : VtCell) : Column :=
  if cell.isWideContinuation then .continuation
  else if cell.hasContents then .text cell.contents (if cell.isWide then 2 else 1)
  else .blank

/-- What a cell of a snapshot shows. -/
def StyledScreenCell.column : StyledScreenCell → Column
  | .text content width => .text content width
  | .continuation => .continuation

/-- The style of a run. -/
def StyledScreenRun.styleId : StyledScreenRun → ℕ
  | .blank styleId _ => styleId
  | .cells styleId _ => styleId

/-- A run of blank columns, in contrast to a run of cells. -/
def StyledScreenRun.isBlank : StyledScreenRun → Bool
  | .blank _ _ => true
  | .cells _ _ => false

/-- The columns of a run, with their styles. -/
def StyledScreenRun.columns : StyledScreenRun → List (Column × ℕ)
  | .blank styleId columns => List.replicate columns (.blank, styleId)
  | .cells styleId run => run.map fun cell => (cell.column, styleId)

/-- The columns of a row. -/
def StyledScreenRow.columns (row : StyledScreenRow) : List (Column × ℕ) :=
  row.runs.flatMap StyledScreenRun.columns

/-- The snapshot has all that the screen has, written in one way only. -/
structure Lossless (screen : VtScreen) (snapshot : StyledScreenSnapshot) : Prop where
  rows : snapshot.screenRows.length = screen.rows
  wrapped : ∀ row screenRow, snapshot.screenRows[row]? = some screenRow →
    screenRow.wrapped = screen.rowWrapped row
  cols : ∀ screenRow ∈ snapshot.screenRows, screenRow.columns.length = screen.cols
  cells : ∀ row screenRow, snapshot.screenRows[row]? = some screenRow → ∀ column < screen.cols,
    ∃ cell styleId, screen.cell row column = some cell ∧
      screenRow.columns[column]? = some (cell.column, styleId) ∧
      snapshot.styles[styleId]? = some cell.style
  styles : snapshot.styles.Nodup
  ids : ∀ screenRow ∈ snapshot.screenRows, ∀ run ∈ screenRow.runs,
    run.styleId < snapshot.styles.length
  canonical : ∀ screenRow ∈ snapshot.screenRows, screenRow.runs.IsChain fun run next =>
    run.isBlank = next.isBlank → run.styleId ≠ next.styleId

/-! ### The loops -/

/-- The runs of a row as a way to collect columns. -/
def merging : Merging (Column × ℕ) StyledScreenRun where
  start piece :=
    match piece with
    | (.blank, styleId) => .blank styleId 1
    | (.text text width, styleId) => .cells styleId [.text text width]
    | (.continuation, styleId) => .cells styleId [.continuation]
  extend run piece :=
    match run, piece with
    | .blank previous columns, (.blank, styleId) =>
      if previous = styleId then some (.blank previous (columns + 1)) else none
    | .cells previous cells, (.text text width, styleId) =>
      if previous = styleId then some (.cells previous (cells ++ [.text text width])) else none
    | .cells previous cells, (.continuation, styleId) =>
      if previous = styleId then some (.cells previous (cells ++ [.continuation])) else none
    | _, _ => none
  pieces := StyledScreenRun.columns
  pieces_start := by
    rintro ⟨column, styleId⟩
    cases column <;> rfl
  pieces_extend := by
    intro run ⟨column, styleId⟩ run' h
    cases run <;> cases column <;> simp only [Option.ite_none_right_eq_some, reduceCtorEq,
      Option.some.injEq] at h
    all_goals obtain ⟨rfl, rfl⟩ := h
    · exact List.replicate_succ'
    · simp [StyledScreenRun.columns, StyledScreenCell.column]
    · simp [StyledScreenRun.columns, StyledScreenCell.column]

/-- A piece keeps the style of the run that it extends. -/
theorem styleId_extend {run run' : StyledScreenRun} {piece : Column × ℕ}
    (h : merging.extend run piece = some run') : run'.styleId = run.styleId := by
  obtain ⟨column, styleId⟩ := piece
  cases run <;> cases column <;> simp only [merging, Option.ite_none_right_eq_some, reduceCtorEq,
    Option.some.injEq] at h
  all_goals
    obtain ⟨-, rfl⟩ := h
    rfl

theorem styleId_start (piece : Column × ℕ) : (merging.start piece).styleId = piece.2 := by
  obtain ⟨column, styleId⟩ := piece
  cases column <;> rfl

/-- Runs that a piece keeps apart are of different kinds or of different styles. -/
theorem Apart.ne {run next : StyledScreenRun} (h : merging.Apart run next)
    (hkind : run.isBlank = next.isBlank) : run.styleId ≠ next.styleId := by
  obtain ⟨⟨column, styleId⟩, hhead, hnone⟩ := h
  intro heq
  cases next with
  | blank next columns =>
    cases run with
    | cells previous cells => cases hkind
    | blank previous count =>
      obtain rfl : previous = next := heq
      cases columns with
      | zero => cases hhead
      | succ columns =>
        obtain ⟨rfl, rfl⟩ := Prod.mk.inj (Option.some.inj hhead)
        simp [merging] at hnone
  | cells next cells =>
    cases run with
    | blank previous count => cases hkind
    | cells previous count =>
      obtain rfl : previous = next := heq
      cases cells with
      | nil => cases hhead
      | cons cell cells =>
        obtain ⟨rfl, rfl⟩ := Prod.mk.inj (Option.some.inj hhead)
        cases cell <;> simp [merging, StyledScreenCell.column] at hnone

/-- The source's push is that of the runs. -/
theorem pushColumn_eq {runs runs' : List StyledScreenRun} {cell : VtCell} {styleId : ℕ}
    (h : pushColumn runs cell styleId = .ok runs') :
    runs' = merging.push runs (cell.column, styleId) := by
  unfold pushColumn at h
  unfold Merging.push
  by_cases hblank : (!cell.hasContents && !cell.isWideContinuation) = true
  · have hcolumn : cell.column = .blank := by
      simp only [Bool.and_eq_true, Bool.not_eq_true'] at hblank
      simp [VtCell.column, hblank]
    rw [if_pos hblank] at h
    rw [hcolumn]
    rcases hlast : runs.getLast? with _ | ⟨previous, columns⟩ | ⟨previous, cells⟩
    · simp only [hlast] at h
      exact (Except.ok.inj h).symm
    · simp only [hlast] at h
      by_cases hstyle : previous = styleId
      · simp only [if_pos hstyle, bind_eq_ok, require_eq_ok, exists_unit, pure_eq_ok] at h
        simp only [merging, if_pos hstyle]
        exact h.2.symm
      · simp only [if_neg hstyle] at h
        simp only [merging, if_neg hstyle]
        exact (Except.ok.inj h).symm
    · simp only [hlast] at h
      exact (Except.ok.inj h).symm
  · rw [if_neg hblank] at h
    have hstyled : cell.column = cell.styledCell.column ∧ cell.column ≠ .blank := by
      unfold VtCell.column VtCell.styledCell
      by_cases hcontinuation : cell.isWideContinuation = true
      · simp [hcontinuation, StyledScreenCell.column]
      · have hcontents : cell.hasContents = true := by
          simpa [hcontinuation] using hblank
        simp [hcontinuation, hcontents, StyledScreenCell.column]
    rw [hstyled.1]
    have hstart : merging.start (cell.styledCell.column, styleId) =
        .cells styleId [cell.styledCell] := by
      cases cell.styledCell <;> rfl
    rcases hlast : runs.getLast? with _ | ⟨previous, columns⟩ | ⟨previous, cells⟩
    · simp only [hlast] at h
      rw [hstart]
      exact (Except.ok.inj h).symm
    · simp only [hlast] at h
      have hnone : merging.extend (.blank previous columns) (cell.styledCell.column, styleId) =
          none := by
        cases cell.styledCell <;> rfl
      simp only [hnone, hstart]
      exact (Except.ok.inj h).symm
    · simp only [hlast] at h
      have hextend : merging.extend (.cells previous cells) (cell.styledCell.column, styleId) =
          if previous = styleId then some (.cells previous (cells ++ [cell.styledCell]))
          else none := by
        cases cell.styledCell <;> rfl
      by_cases hstyle : previous = styleId
      · simp only [if_pos hstyle] at h
        simp only [hextend, if_pos hstyle]
        exact (Except.ok.inj h).symm
      · simp only [if_neg hstyle] at h
        simp only [hextend, if_neg hstyle, hstart]
        exact (Except.ok.inj h).symm

/-- The table of styles is one of interned values. -/
def StyleTable.Good (table : StyleTable) : Prop := Interned table.styles table.styleIds

/-- What `styled_style_id` returns. -/
theorem styledStyleId_spec {cell : VtCell} {table table' : StyleTable} {styleId : ℕ}
    (h : styledStyleId cell table = .ok (styleId, table')) (hgood : table.Good) :
    table'.Good ∧ table.styles <+: table'.styles ∧ table'.styles[styleId]? = some cell.style := by
  unfold styledStyleId at h
  cases hfound : table.styleIds cell.style with
  | some found =>
    simp only [hfound, Except.ok.injEq, Prod.mk.injEq] at h
    obtain ⟨rfl, rfl⟩ := h
    exact ⟨hgood, List.prefix_rfl, (hgood cell.style found).mp hfound⟩
  | none =>
    simp only [hfound, bind_eq_ok, require_eq_ok, exists_unit, pure_eq_ok, Prod.mk.injEq] at h
    obtain ⟨-, -, rfl, rfl⟩ := h
    exact ⟨hgood.insert hfound, List.prefix_append _ _, List.getElem?_concat_length⟩

/-- A style keeps its place as the table grows. -/
theorem getElem?_of_prefix {α : Type} {l l' : List α} (h : l <+: l') {i : ℕ} {a : α}
    (hi : l[i]? = some a) : l'[i]? = some a := by
  obtain ⟨more, rfl⟩ := h
  have hlt : i < l.length := (List.getElem?_eq_some_iff.mp hi).1
  rw [List.getElem?_append_left hlt]
  exact hi

/-- The runs show these columns of the screen, with the styles of a table. -/
structure Shows (screen : VtScreen) (row : ℕ) (styles : List StyledScreenStyle)
    (columns : List ℕ) (runs : List StyledScreenRun) : Prop where
  length : (merging.expand runs).length = columns.length
  cells : ∀ (i column : ℕ), columns[i]? = some column → ∃ cell styleId,
    screen.cell row column = some cell ∧
      (merging.expand runs)[i]? = some (cell.column, styleId) ∧
      styles[styleId]? = some cell.style
  ids : ∀ run ∈ runs, run.styleId < styles.length
  apart : runs.IsChain merging.Apart

theorem Shows.mono {screen : VtScreen} {row : ℕ} {styles styles' : List StyledScreenStyle}
    {columns : List ℕ} {runs : List StyledScreenRun} (h : Shows screen row styles columns runs)
    (hstyles : styles <+: styles') : Shows screen row styles' columns runs := by
  refine ⟨h.length, fun i column hi => ?_, fun run hrun => ?_, h.apart⟩
  · obtain ⟨cell, styleId, hcell, hexpand, hstyle⟩ := h.cells i column hi
    exact ⟨cell, styleId, hcell, hexpand, getElem?_of_prefix hstyles hstyle⟩
  · have hlt := h.ids run hrun
    have hle := hstyles.length_le
    omega

/-- One column more. -/
theorem Shows.push {screen : VtScreen} {row column styleId : ℕ} {styles : List StyledScreenStyle}
    {columns : List ℕ} {runs : List StyledScreenRun} {cell : VtCell}
    (h : Shows screen row styles columns runs) (hcell : screen.cell row column = some cell)
    (hstyle : styles[styleId]? = some cell.style) :
    Shows screen row styles (columns ++ [column])
      (merging.push runs (cell.column, styleId)) := by
  have hlt : styleId < styles.length := (List.getElem?_eq_some_iff.mp hstyle).1
  refine ⟨?_, fun i column' hi => ?_, ?_, Merging.isChain_push h.apart⟩
  · have hlength := h.length
    rw [Merging.expand_push, List.length_append, List.length_append, List.length_singleton,
      List.length_singleton]
    omega
  · rw [Merging.expand_push]
    rcases lt_trichotomy i columns.length with hi' | hi' | hi'
    · rw [List.getElem?_append_left hi'] at hi
      obtain ⟨cell', styleId', hcell', hexpand, hstyle'⟩ := h.cells i column' hi
      refine ⟨cell', styleId', hcell', ?_, hstyle'⟩
      have hlength := h.length
      rw [List.getElem?_append_left (by omega)]
      exact hexpand
    · subst hi'
      rw [List.getElem?_concat_length, Option.some.injEq] at hi
      subst hi
      refine ⟨cell, styleId, hcell, ?_, hstyle⟩
      rw [← h.length]
      exact List.getElem?_concat_length
    · rw [List.getElem?_eq_none (by simp; omega)] at hi
      cases hi
  · refine Merging.forall_push h.ids ?_ fun run hrun run' hextend => ?_
    · rw [styleId_start]
      exact hlt
    · rw [styleId_extend hextend]
      exact h.ids run hrun

/-- The loop over the columns. -/
theorem styledColumns_spec {screen : VtScreen} {row : ℕ} :
    ∀ {columns before : List ℕ} {table table' : StyleTable} {runs runs' : List StyledScreenRun},
      styledColumns screen row columns table runs = .ok (table', runs') → table.Good →
      Shows screen row table.styles before runs →
      table'.Good ∧ table.styles <+: table'.styles ∧
        Shows screen row table'.styles (before ++ columns) runs'
  | [], before, table, table', runs, runs', h, hgood, hshows => by
    obtain ⟨rfl, rfl⟩ := Prod.mk.inj (Except.ok.inj h)
    rw [List.append_nil]
    exact ⟨hgood, List.prefix_rfl, hshows⟩
  | column :: columns, before, table, table', runs, runs', h, hgood, hshows => by
    simp only [styledColumns, bind_eq_ok, expect_eq_ok] at h
    obtain ⟨cell, hcell, ⟨styleId, next⟩, hid, pushed, hpush, hrest⟩ := h
    obtain ⟨hgood', hstyles, hstyle⟩ := styledStyleId_spec hid hgood
    have hpushed := pushColumn_eq hpush
    subst hpushed
    have hnext := (hshows.mono hstyles).push hcell hstyle
    obtain ⟨hgood'', hstyles', hshows'⟩ := styledColumns_spec hrest hgood' hnext
    rw [List.append_assoc] at hshows'
    exact ⟨hgood'', hstyles.trans hstyles', hshows'⟩

/-- The rows show these rows of the screen. -/
def ShowsRows (screen : VtScreen) (styles : List StyledScreenStyle) (rows : List ℕ)
    (screenRows : List StyledScreenRow) : Prop :=
  List.Forall₂ (fun row screenRow => screenRow.wrapped = screen.rowWrapped row ∧
    Shows screen row styles (List.range screen.cols) screenRow.runs) rows screenRows

/-- The loop over the rows. -/
theorem styledRows_spec {screen : VtScreen} :
    ∀ {rows before : List ℕ} {table table' : StyleTable}
      {screenRows screenRows' : List StyledScreenRow},
      styledRows screen rows table screenRows = .ok (table', screenRows') → table.Good →
      ShowsRows screen table.styles before screenRows →
      table'.Good ∧ ShowsRows screen table'.styles (before ++ rows) screenRows'
  | [], before, table, table', screenRows, screenRows', h, hgood, hshows => by
    obtain ⟨rfl, rfl⟩ := Prod.mk.inj (Except.ok.inj h)
    rw [List.append_nil]
    exact ⟨hgood, hshows⟩
  | row :: rows, before, table, table', screenRows, screenRows', h, hgood, hshows => by
    simp only [styledRows, bind_eq_ok] at h
    obtain ⟨⟨next, runs⟩, hcolumns, hrest⟩ := h
    have hempty : Shows screen row table.styles [] [] :=
      ⟨rfl, fun i column hi => absurd hi (by simp), fun run hrun => absurd hrun List.not_mem_nil,
        List.isChain_nil⟩
    obtain ⟨hgood', hstyles, hrow⟩ := styledColumns_spec hcolumns hgood hempty
    have hbefore : ShowsRows screen next.styles before screenRows :=
      List.Forall₂.imp (fun _ _ hs => ⟨hs.1, hs.2.mono hstyles⟩) hshows
    have hnext : ShowsRows screen next.styles (before ++ [row])
        (screenRows ++ [⟨screen.rowWrapped row, runs⟩]) :=
      List.rel_append hbefore (List.Forall₂.cons ⟨rfl, hrow⟩ List.Forall₂.nil)
    have hfinal := styledRows_spec hrest hgood' hnext
    rwa [List.append_assoc] at hfinal

/-- What a snapshot is: the fields of the screen, and the rows of the loops. -/
theorem styledSnapshotFromScreen_eq {sessionId : Str} {revision : ℕ} {screen : VtScreen}
    {snapshot : StyledScreenSnapshot}
    (h : styledSnapshotFromScreen sessionId revision screen = .ok snapshot) :
    ∃ table, styledRows screen (List.range screen.rows) .empty [] =
        .ok (table, snapshot.screenRows) ∧
      snapshot.styles = table.styles ∧ snapshot.sessionId = sessionId ∧
        snapshot.screenRevision = decimal revision := by
  simp only [styledSnapshotFromScreen, bind_eq_ok, require_eq_ok, exists_unit, pure_eq_ok] at h
  obtain ⟨-, -, ⟨table, screenRows⟩, hrows, rfl⟩ := h
  exact ⟨table, hrows, rfl, rfl, rfl⟩

/-- **A snapshot is lossless**, and written in one way only. -/
theorem snapshot_lossless {sessionId : Str} {revision : ℕ} {screen : VtScreen}
    {snapshot : StyledScreenSnapshot}
    (h : styledSnapshotFromScreen sessionId revision screen = .ok snapshot) :
    Lossless screen snapshot := by
  obtain ⟨table, hrows, hstyles, -, -⟩ := styledSnapshotFromScreen_eq h
  have hgood : StyleTable.empty.Good := interned_nil
  have hnone : ShowsRows screen StyleTable.empty.styles [] [] := List.Forall₂.nil
  obtain ⟨htable, hshows⟩ := styledRows_spec hrows hgood hnone
  rw [List.nil_append] at hshows
  have hlength : snapshot.screenRows.length = screen.rows := by
    have heq := hshows.length_eq
    rw [List.length_range] at heq
    exact heq.symm
  -- each row of the snapshot is one of the screen
  have hrow (row : ℕ) (screenRow : StyledScreenRow)
      (hget : snapshot.screenRows[row]? = some screenRow) :
      screenRow.wrapped = screen.rowWrapped row ∧
        Shows screen row table.styles (List.range screen.cols) screenRow.runs := by
    obtain ⟨hlt, hat⟩ := List.getElem?_eq_some_iff.mp hget
    have hpair := hshows.get (by simpa [hlength] using hlt) hlt
    simpa [hat] using hpair
  have hmem (screenRow : StyledScreenRow) (hin : screenRow ∈ snapshot.screenRows) :
      ∃ row, Shows screen row table.styles (List.range screen.cols) screenRow.runs := by
    obtain ⟨row, hget⟩ := List.getElem?_of_mem hin
    exact ⟨row, (hrow row screenRow hget).2⟩
  refine ⟨hlength, fun row screenRow hget => (hrow row screenRow hget).1, fun screenRow hin => ?_,
    fun row screenRow hget column hcolumn => ?_, ?_, fun screenRow hin run hrun => ?_,
    fun screenRow hin => ?_⟩
  · obtain ⟨row, hs⟩ := hmem screenRow hin
    have hcount := hs.length
    rw [List.length_range] at hcount
    exact hcount
  · have hat : (List.range screen.cols)[column]? = some column := by simp [hcolumn]
    obtain ⟨cell, styleId, hcell, hexpand, hstyle⟩ := (hrow row screenRow hget).2.cells _ _ hat
    exact ⟨cell, styleId, hcell, hexpand, by rw [hstyles]; exact hstyle⟩
  · rw [hstyles]
    exact Interned.nodup htable
  · obtain ⟨row, hs⟩ := hmem screenRow hin
    rw [hstyles]
    exact hs.ids run hrun
  · obtain ⟨row, hs⟩ := hmem screenRow hin
    exact hs.apart.imp fun _ _ hapart => Apart.ne hapart

end LightTerminal.Server.StyledScreen
