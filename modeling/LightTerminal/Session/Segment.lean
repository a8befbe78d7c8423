import Mathlib.Data.Bool.AllAny
import LightTerminal.Library.Lines
import LightTerminal.Sanitize.Losses
import LightTerminal.Session.History

/-! # Segments of the exit journal

A segment is a file of JSON lines. `load_segment` of `session_lifecycle.rs` reads it through a buffer,
line by line and each line only up to a bound, and takes from each line the event it holds, if it
passes the checks for what may come from a file; of all other lines it only notes that there are some.

How an event is written as JSON and read back is that of `serde_json` and a parameter here, `Json`. -/

namespace LightTerminal.Session.Segment

open LightTerminal.Data.Text LightTerminal.Library LightTerminal.Library.Utf8
open LightTerminal.Library.Lines LightTerminal.Sanitize LightTerminal.Sanitize.Capture
open LightTerminal.Session.History

/-- `MAX_EVENT_LINE_BYTES`. -/
def maxEventLineBytes : ℕ := 16 * 1024

/-- `MAX_SEGMENT_BYTES`. -/
def maxSegmentBytes : ℕ := 1024 * 1024

/-- `MAX_NAME_BYTES`. -/
def maxNameBytes : ℕ := 128

/-- `MAX_PANE_BYTES`. -/
def maxPaneBytes : ℕ := 64

/-- `MAX_AGENT_BYTES`. -/
def maxAgentBytes : ℕ := 64

/-- `MAX_SIGNAL_BYTES`. -/
def maxSignalBytes : ℕ := 64

/-- The byte that ends a line. -/
def newline : UInt8 := 10

/-! ### Fields -/

/-- `strip_controls`. -/
def stripControls (value : Str) : Str := value.filter fun ch => !isC0OrC1 ch

/-- `terminal_text`. -/
def terminalText (value : Str) : Str := stripControls (terminalCapture (encode value))

/-- The characters that fit into so many bytes: the text up to the last boundary there. -/
def fitting : ℕ → Str → Str
  | _, [] => []
  | maxBytes, ch :: rest =>
    if ch.utf8Size ≤ maxBytes then ch :: fitting (maxBytes - ch.utf8Size) rest else []

/-- `sanitized_field`. -/
def sanitizedField (value : Str) (maxBytes : ℕ) : Str :=
  let sanitized := terminalText value
  if byteLen sanitized ≤ maxBytes then sanitized else fitting maxBytes sanitized

/-- `StoredIdentity::sanitize_loaded`: the identity after it, and whether it changed. -/
def sanitizeLoaded (identity : StoredIdentity) : StoredIdentity × Bool :=
  let after := { identity with
    sessionId := sanitizedField identity.sessionId maxPaneBytes
    name := sanitizedField identity.name maxNameBytes
    paneId := sanitizedField identity.paneId maxPaneBytes
    parentSessionId := identity.parentSessionId.map (sanitizedField · maxPaneBytes)
    parentPaneId := identity.parentPaneId.map (sanitizedField · maxPaneBytes)
    agentName := identity.agentName.map (sanitizedField · maxAgentBytes) }
  (after, after ≠ identity)

/-- `StoredIdentity::has_valid_shape`. -/
def hasValidShape (identity : StoredIdentity) : Bool :=
  (Uuid.parseStr identity.sessionId).isSome && identity.name ≠ [] &&
    identity.paneId.head? = some '%' &&
    identity.parentSessionId.all (fun id => (Uuid.parseStr id).isSome) &&
    identity.parentPaneId.all (fun pane => pane.head? = some '%') &&
    identity.agentName.all fun name => name ≠ []

/-- `sanitize_loaded_trigger`: the trigger after it, and whether it changed. -/
def sanitizeLoadedTrigger : SessionExitTrigger → Option (SessionExitTrigger × Bool)
  | .leaderExited => some (.leaderExited, false)
  | .closeRequested => some (.closeRequested, false)
  | .daemonShutdown => some (.daemonShutdown, false)
  | .parentCascade parentSessionId =>
    let sanitized := sanitizedField parentSessionId maxPaneBytes
    (Uuid.parseStr sanitized).map fun _ =>
      (.parentCascade sanitized, parentSessionId ≠ sanitized)
  | .unknown => none

/-- `LifecycleEvent::validate_and_sanitize_loaded`. -/
def validateAndSanitizeLoaded : LifecycleEvent → Option (LifecycleEvent × Bool)
  | .triggerClaimed schemaVersion eventId eventSeq identity claimedAt trigger => do
    guard (schemaVersion = journalSchemaVersion ∧ eventSeq = 1)
    let (identity, changed) := sanitizeLoaded identity
    let (trigger, changedTrigger) ← sanitizeLoadedTrigger trigger
    guard (hasValidShape identity)
    some (.triggerClaimed schemaVersion eventId eventSeq identity claimedAt trigger,
      changed || changedTrigger)
  | .leaderReaped schemaVersion eventId eventSeq identity claimedAt reapedAt trigger exitCode
      signal => do
    guard (schemaVersion = journalSchemaVersion ∧ eventSeq = 2)
    let (identity, changed) := sanitizeLoaded identity
    let (trigger, changedTrigger) ← sanitizeLoadedTrigger trigger
    let sanitized := signal.map (sanitizedField · maxSignalBytes)
    guard (hasValidShape identity)
    some (.leaderReaped schemaVersion eventId eventSeq identity claimedAt reapedAt trigger exitCode
      sanitized, changed || changedTrigger || decide (signal ≠ sanitized))

/-! ### Lines -/

/-- `serde_json::to_vec` and `serde_json::from_slice` on events. -/
structure Json where
  toVec : LifecycleEvent → List UInt8
  fromSlice : List UInt8 → Option LifecycleEvent

variable (json : Json)

/-- `LifecycleEvent::to_json_line`. -/
def toJsonLine (event : LifecycleEvent) : Option (List UInt8) :=
  let line := json.toVec event
  if maxEventLineBytes < line.length + 1 then none else some (line ++ [newline])

/-- `BoundedLine`. -/
inductive BoundedLine where
  | eof
  | complete (line : List UInt8)
  | invalid
  deriving DecidableEq, Repr

/-- What is left in the buffer, in front of what `fill_buf` will bring. -/
def putBack (rest : List UInt8) (reader : List (List UInt8)) : List (List UInt8) :=
  if rest = [] then reader else rest :: reader

/-- The loop of `read_bounded_line`. The reader is the list of the chunks that `fill_buf` returns; the
end of the file is an empty one. -/
def readLoop (line : List UInt8) (oversized : Bool) :
    List (List UInt8) → BoundedLine × List (List UInt8)
  | [] => (if line = [] ∧ oversized = false then .eof else .invalid, [])
  | available :: reader =>
    let text := available.takeWhile (· ≠ newline)
    if text.length < available.length then
      (if oversized = false ∧ line.length + text.length + 1 ≤ maxEventLineBytes then
        .complete (line ++ text) else .invalid,
        putBack (available.drop (text.length + 1)) reader)
    else if oversized = false ∧ line.length + available.length + 1 ≤ maxEventLineBytes then
      readLoop (line ++ available) false reader
    else readLoop line true reader

/-- `read_bounded_line`. -/
def readBoundedLine (reader : List (List UInt8)) : BoundedLine × List (List UInt8) :=
  readLoop [] false reader

/-- `LoadedEvents`. -/
structure LoadedEvents where
  events : List LifecycleEvent
  degraded : Bool

/-- The body of the loop of `load_segment` on a complete line. -/
def loadLine (line : List UInt8) (loaded : LoadedEvents) : LoadedEvents :=
  match (json.fromSlice line).bind validateAndSanitizeLoaded with
  | some (event, changed) => ⟨loaded.events ++ [event], loaded.degraded || changed⟩
  | none => { loaded with degraded := true }

/-- The loop of `load_segment`, with the number of its turns. -/
def loadLoop : ℕ → List (List UInt8) → LoadedEvents → LoadedEvents
  | 0, _, loaded => loaded
  | turns + 1, reader, loaded =>
    match readBoundedLine reader with
    | (.eof, _) => loaded
    | (.invalid, reader) => loadLoop turns reader { loaded with degraded := true }
    | (.complete line, reader) => loadLoop turns reader (loadLine json line loaded)

/-- The buffer of a `BufReader` in bytes. -/
def bufferBytes : ℕ := 8 * 1024

/-- At most so many chunks of the size of the buffer. -/
def chunks : ℕ → List UInt8 → List (List UInt8)
  | 0, _ => []
  | count + 1, bytes =>
    if bytes = [] then [] else bytes.take bufferBytes :: chunks count (bytes.drop bufferBytes)

/-- The chunks in which a file is read. -/
def buffered (bytes : List UInt8) : List (List UInt8) := chunks bytes.length bytes

/-- `load_segment`. Each turn but the last takes a byte from the reader. -/
def loadSegment (bytes : List UInt8) (loaded : LoadedEvents) : LoadedEvents :=
  let loaded := if maxSegmentBytes < bytes.length then { loaded with degraded := true } else loaded
  let bytes := bytes.take maxSegmentBytes
  loadLoop json (bytes.length + 1) (buffered bytes) loaded

/-! ### What a segment holds -/

/-- The event of a complete line: it is not too long, is an event, and passes the checks. -/
def lineEvent (line : List UInt8) : Option LifecycleEvent :=
  if line.length + 1 ≤ maxEventLineBytes then
    ((json.fromSlice line).bind validateAndSanitizeLoaded).map (·.1)
  else none

/-- The events of the lines of a segment. -/
def segmentEvents (bytes : List UInt8) : List LifecycleEvent :=
  (lines newline [] bytes).filterMap (lineEvent json)

/-- The state of `read_bounded_line` behind the bytes `text` of a line. -/
def Reading (line : List UInt8) (oversized : Bool) (text : List UInt8) : Prop :=
  if oversized then maxEventLineBytes < text.length + 1 else line = text

/-- A chunk without the end of the line. -/
theorem Reading.step {line text available : List UInt8} {oversized : Bool}
    (h : Reading line oversized text) :
    if oversized = false ∧ line.length + available.length + 1 ≤ maxEventLineBytes then
      Reading (line ++ available) false (text ++ available)
    else Reading line true (text ++ available) := by
  cases oversized with
  | true =>
    have hlong : maxEventLineBytes < text.length + 1 := h
    simp only [Bool.true_eq_false, false_and, if_false, Reading, if_true, List.length_append]
    omega
  | false =>
    have hline : line = text := h
    subst hline
    split_ifs with hfits
    · rfl
    · simp only [true_and, not_le] at hfits
      simp only [Reading, if_true, List.length_append]
      omega

/-- The chunk in which the line ends. -/
theorem Reading.finish {line text more : List UInt8} {oversized : Bool}
    (h : Reading line oversized text) :
    (if oversized = false ∧ line.length + more.length + 1 ≤ maxEventLineBytes then
      BoundedLine.complete (line ++ more) else .invalid) =
    if (text ++ more).length + 1 ≤ maxEventLineBytes then .complete (text ++ more) else .invalid := by
  cases oversized with
  | true =>
    have hlong : maxEventLineBytes < text.length + 1 := h
    have hnot : ¬ (text ++ more).length + 1 ≤ maxEventLineBytes := by
      rw [List.length_append]
      omega
    rw [if_neg hnot, if_neg (by simp)]
  | false =>
    have hline : line = text := h
    subst hline
    simp

/-- No chunk is empty: an empty one is the end of the file. -/
def Filled (reader : List (List UInt8)) : Prop := ∀ chunk ∈ reader, chunk ≠ []

theorem flatten_putBack (rest : List UInt8) (reader : List (List UInt8)) :
    (putBack rest reader).flatten = rest ++ reader.flatten := by
  unfold putBack
  split_ifs with h
  · simp [h]
  · rfl

theorem Filled.putBack {reader : List (List UInt8)} (h : Filled reader) (rest : List UInt8) :
    Filled (Segment.putBack rest reader) := by
  unfold Segment.putBack
  split_ifs with hrest
  · exact h
  · intro chunk hmem
    rcases List.mem_cons.mp hmem with rfl | hmem
    · exact hrest
    · exact h chunk hmem

/-- The text in front of the first newline of a chunk. -/
theorem takeWhile_newline {available : List UInt8} :
    (newline ∉ available ∧ available.takeWhile (· ≠ newline) = available) ∨
      ∃ text rest, available = text ++ newline :: rest ∧ newline ∉ text ∧
        available.takeWhile (· ≠ newline) = text := by
  by_cases h : newline ∈ available
  · obtain ⟨text, rest, rfl, htext⟩ := exists_line h
    refine .inr ⟨text, rest, rfl, htext, ?_⟩
    rw [List.takeWhile_append_of_pos]
    · simp
    · intro byte hbyte
      simp only [ne_eq, decide_not, Bool.not_eq_true', decide_eq_false_iff_not]
      rintro rfl
      exact htext hbyte
  · refine .inl ⟨h, List.takeWhile_eq_self_iff.mpr fun byte hbyte => ?_⟩
    simp only [ne_eq, decide_not, Bool.not_eq_true', decide_eq_false_iff_not]
    rintro rfl
    exact h hbyte

/-- However the file is cut into chunks: the line up to the next newline, if it is short enough. -/
theorem readLoop_line {reader : List (List UInt8)} {line text more rest : List UInt8}
    {oversized : Bool} (hfilled : Filled reader) (h : Reading line oversized text)
    (hreader : reader.flatten = more ++ newline :: rest) (hmore : newline ∉ more) :
    ∃ reader', readLoop line oversized reader =
        (if (text ++ more).length + 1 ≤ maxEventLineBytes then .complete (text ++ more)
          else .invalid, reader') ∧
      reader'.flatten = rest ∧ Filled reader' := by
  induction reader generalizing line oversized text more with
  | nil => simp at hreader
  | cons available reader ih =>
    have hrest : Filled reader := fun chunk hmem => hfilled chunk (List.mem_cons_of_mem _ hmem)
    rw [List.flatten_cons] at hreader
    rcases @takeWhile_newline available with ⟨hno, htake⟩ | ⟨front, back, rfl, hfront, htake⟩
    · -- the line goes on behind the chunk
      obtain ⟨more', rfl, hflat⟩ : ∃ more', more = available ++ more' ∧
          reader.flatten = more' ++ newline :: rest := by
        rcases List.append_eq_append_iff.mp hreader with ⟨mid, rfl, hmid⟩ | ⟨mid, rfl, hmid⟩
        · exact ⟨mid, rfl, hmid⟩
        · cases mid with
          | nil => exact ⟨[], by simp, by simpa using hmid.symm⟩
          | cons byte mid =>
            simp only [List.cons_append, List.cons.injEq] at hmid
            exact absurd (by simp [hmid.1]) hno
      have hmore' : newline ∉ more' := fun hmem => hmore (List.mem_append_right _ hmem)
      rw [readLoop, htake, if_neg (lt_irrefl _)]
      have hstep := @Reading.step _ _ available _ h
      rw [← List.append_assoc]
      by_cases hfits : oversized = false ∧ line.length + available.length + 1 ≤ maxEventLineBytes
      · rw [if_pos hfits] at hstep ⊢
        exact ih hrest hstep hflat hmore'
      · rw [if_neg hfits] at hstep ⊢
        exact ih hrest hstep hflat hmore'
    · -- the line ends in the chunk
      rw [List.append_assoc, List.cons_append] at hreader
      obtain ⟨rfl, rfl⟩ := line_unique hreader hfront hmore
      rw [readLoop, htake, if_pos (by simp)]
      refine ⟨_, Prod.ext h.finish rfl, ?_, hrest.putBack _⟩
      rw [flatten_putBack]
      simp

/-- Behind the last newline there is no line, or one that is not finished. -/
theorem readLoop_end {reader : List (List UInt8)} {line text : List UInt8} {oversized : Bool}
    (h : Reading line oversized text) (hreader : newline ∉ reader.flatten) :
    readLoop line oversized reader =
      (if text ++ reader.flatten = [] then .eof else .invalid, []) := by
  induction reader generalizing line oversized text with
  | nil =>
    have hiff : line = [] ∧ oversized = false ↔ text ++ [].flatten = [] := by
      cases oversized with
      | true =>
        have hlong : maxEventLineBytes < text.length + 1 := h
        simp only [Bool.true_eq_false, and_false, List.flatten_nil, List.append_nil, false_iff]
        rintro rfl
        simp [maxEventLineBytes] at hlong
      | false =>
        have hline : line = text := h
        simp [hline]
    rw [readLoop]
    exact Prod.ext (if_congr hiff rfl rfl) rfl
  | cons available reader ih =>
    rw [List.flatten_cons, List.mem_append, not_or] at hreader
    obtain ⟨hno, hreader⟩ := hreader
    rcases @takeWhile_newline available with ⟨-, htake⟩ | ⟨front, back, rfl, -, -⟩
    · have hstep := @Reading.step _ _ available _ h
      rw [readLoop, htake, if_neg (lt_irrefl _), List.flatten_cons, ← List.append_assoc]
      by_cases hfits : oversized = false ∧ line.length + available.length + 1 ≤ maxEventLineBytes
      · rw [if_pos hfits] at hstep ⊢
        exact ih hstep hreader
      · rw [if_neg hfits] at hstep ⊢
        exact ih hstep hreader
    · exact absurd (by simp) hno

theorem readBoundedLine_line {reader : List (List UInt8)} {text rest : List UInt8}
    (hfilled : Filled reader) (hreader : reader.flatten = text ++ newline :: rest)
    (htext : newline ∉ text) :
    ∃ reader', readBoundedLine reader =
        (if text.length + 1 ≤ maxEventLineBytes then .complete text else .invalid, reader') ∧
      reader'.flatten = rest ∧ Filled reader' := by
  have hstart : Reading [] false [] := rfl
  exact readLoop_line hfilled hstart hreader htext

theorem readBoundedLine_end {reader : List (List UInt8)} (hreader : newline ∉ reader.flatten) :
    readBoundedLine reader = (if reader.flatten = [] then .eof else .invalid, []) := by
  have hstart : Reading [] false [] := rfl
  exact readLoop_end hstart hreader

theorem loadLine_events (line : List UInt8) (loaded : LoadedEvents) :
    (loadLine json line loaded).events = loaded.events ++
      (((json.fromSlice line).bind validateAndSanitizeLoaded).map (·.1)).toList := by
  unfold loadLine
  cases (json.fromSlice line).bind validateAndSanitizeLoaded with
  | none => simp
  | some pair => simp

/-- The loop reads the events of all lines, if it may take a turn for each byte and one more. -/
theorem loadLoop_events (turns : ℕ) {reader : List (List UInt8)} (loaded : LoadedEvents)
    (hfilled : Filled reader) (hturns : reader.flatten.length < turns) :
    (loadLoop json turns reader loaded).events =
      loaded.events ++ segmentEvents json reader.flatten := by
  induction turns generalizing reader loaded with
  | zero => simp at hturns
  | succ turns ih =>
    rw [loadLoop]
    by_cases hline : newline ∈ reader.flatten
    · obtain ⟨text, rest, hreader, htext⟩ := exists_line hline
      obtain ⟨reader', hread, hrest, hfilled'⟩ := readBoundedLine_line hfilled hreader htext
      have hlt : reader'.flatten.length < turns := by
        have hlen := congrArg List.length hreader
        simp only [List.length_append, List.length_cons] at hlen
        rw [hrest]
        omega
      have hevents : segmentEvents json reader.flatten =
          (lineEvent json text).toList ++ segmentEvents json rest := by
        unfold segmentEvents
        rw [hreader, lines_line htext, List.nil_append, List.filterMap_cons]
        cases lineEvent json text <;> rfl
      rw [hread, hevents, lineEvent]
      split_ifs with hfits
      · simp only
        rw [ih _ hfilled' hlt, loadLine_events, hrest, List.append_assoc]
      · simp only
        rw [ih _ hfilled' hlt, hrest]
        simp
    · have hnone : segmentEvents json reader.flatten = [] := by
        unfold segmentEvents
        rw [lines_of_notMem hline, List.filterMap_nil]
      rw [readBoundedLine_end hline, hnone, List.append_nil]
      split_ifs with hempty
      · rfl
      · -- an unfinished line takes the last bytes, the next turn finds the end of the file
        simp only
        cases turns with
        | zero => rfl
        | succ turns => rfl

theorem flatten_chunks {count : ℕ} {bytes : List UInt8} (h : bytes.length ≤ count) :
    (chunks count bytes).flatten = bytes := by
  induction count generalizing bytes with
  | zero =>
    have hnil : bytes = [] := List.length_eq_zero_iff.mp (by omega)
    rw [hnil, chunks, List.flatten_nil]
  | succ count ih =>
    rw [chunks]
    split_ifs with hempty
    · rw [hempty, List.flatten_nil]
    · have hpos := List.length_pos_of_ne_nil hempty
      rw [List.flatten_cons, ih, List.take_append_drop]
      rw [List.length_drop, bufferBytes]
      omega

theorem filled_chunks (count : ℕ) (bytes : List UInt8) : Filled (chunks count bytes) := by
  induction count generalizing bytes with
  | zero => simp [chunks, Filled]
  | succ count ih =>
    rw [chunks]
    split_ifs with hempty
    · simp [Filled]
    · intro chunk hmem
      rcases List.mem_cons.mp hmem with rfl | hmem
      · simp [bufferBytes, hempty]
      · exact ih _ chunk hmem

/-- A segment that is not too long is read as the events of its lines. -/
theorem loadSegment_events {bytes : List UInt8} (h : bytes.length ≤ maxSegmentBytes)
    (loaded : LoadedEvents) :
    (loadSegment json bytes loaded).events = loaded.events ++ segmentEvents json bytes := by
  unfold loadSegment
  have htake : bytes.take maxSegmentBytes = bytes := List.take_of_length_le h
  have hflat : (buffered bytes).flatten = bytes := flatten_chunks le_rfl
  have hfilled : Filled (buffered bytes) := filled_chunks _ _
  simp only [if_neg (not_lt.mpr h), htake]
  rw [loadLoop_events json _ _ hfilled (by rw [hflat]; omega), hflat]

/-! ### What a write does to it -/

variable {json}

/-- The segment ends with a line. -/
def Aligned (bytes : List UInt8) : Prop := unfinished newline [] bytes = []

instance (bytes : List UInt8) : Decidable (Aligned bytes) :=
  inferInstanceAs (Decidable (unfinished newline [] bytes = []))

/-- A part of a line adds no event. -/
theorem segmentEvents_part {bytes part : List UInt8} (h : newline ∉ part) :
    segmentEvents json (bytes ++ part) = segmentEvents json bytes := by
  unfold segmentEvents
  rw [lines_append, lines_of_notMem h, List.append_nil]

/-- A line behind a line adds its event. -/
theorem segmentEvents_line {bytes line : List UInt8} (haligned : Aligned bytes)
    (hline : newline ∉ line) :
    segmentEvents json (bytes ++ (line ++ [newline])) =
      segmentEvents json bytes ++ (lineEvent json line).toList := by
  unfold segmentEvents
  have hlines := lines_line hline [] []
  rw [lines_append, haligned, hlines, List.filterMap_append, List.nil_append, lines]
  cases hevent : lineEvent json line <;> simp [hevent]

/-! ### The events of the server -/

/-- `LifecycleIdentity`. -/
structure LifecycleIdentity where
  sessionId : Str
  name : Str
  paneId : Str
  parentSessionId : Option Str
  parentPaneId : Option Str
  agentName : Option Str
  createdUnixMs : ℕ
  processId : Option ℕ
  processGroupId : Option ℤ
  attachedClients : ℕ

/-- `u64::try_from(ms).unwrap_or(u64::MAX)`. -/
def toU64 (ms : ℕ) : ℕ := min ms (2 ^ 64 - 1)

/-- `StoredIdentity::from`, with `LifecycleIdentity::sanitized`. -/
def LifecycleIdentity.stored (identity : LifecycleIdentity) : StoredIdentity where
  sessionId := sanitizedField identity.sessionId maxPaneBytes
  name := sanitizedField identity.name maxNameBytes
  paneId := sanitizedField identity.paneId maxPaneBytes
  parentSessionId := identity.parentSessionId.map (sanitizedField · maxPaneBytes)
  parentPaneId := identity.parentPaneId.map (sanitizedField · maxPaneBytes)
  agentName := identity.agentName.map (sanitizedField · maxAgentBytes)
  createdUnixMs := toU64 identity.createdUnixMs
  processId := identity.processId
  processGroupId := identity.processGroupId
  attachedClients := identity.attachedClients

/-- `LifecycleEvent::trigger_claimed`. -/
def triggerClaimed (eventId : Uuid) (identity : LifecycleIdentity) (claimedAt : ℕ)
    (trigger : SessionExitTrigger) : LifecycleEvent :=
  .triggerClaimed journalSchemaVersion eventId 1 identity.stored (toU64 claimedAt) trigger

/-- `LifecycleEvent::leader_reaped`. -/
def leaderReaped (eventId : Uuid) (identity : LifecycleIdentity) (claimedAt reapedAt : ℕ)
    (trigger : SessionExitTrigger) (exitCode : ℤ) (signal : Option Str) : LifecycleEvent :=
  .leaderReaped journalSchemaVersion eventId 2 identity.stored (toU64 claimedAt) (toU64 reapedAt)
    trigger exitCode (signal.map (sanitizedField · maxSignalBytes))

/-- A text without controls that fits into so many bytes. -/
structure Plain (text : Str) (maxBytes : ℕ) : Prop where
  noControls : ∀ ch ∈ text, isC0OrC1 ch = false
  fits : byteLen text ≤ maxBytes

/-- The text of a UUID. -/
def IsId (text : Str) : Prop := Plain text maxPaneBytes ∧ (Uuid.parseStr text).isSome = true

/-- A pane id: a percent sign and a number. -/
def IsPane (text : Str) : Prop := Plain text maxPaneBytes ∧ text.head? = some '%'

/-- The identity of a session of the server: ids are UUIDs and pane numbers, a name passes
`validate_session_name_syntax`, and the name of an agent is `terminal_text` and not blank. -/
structure FromSession (identity : LifecycleIdentity) : Prop where
  sessionId : IsId identity.sessionId
  name : Plain identity.name maxNameBytes ∧ identity.name ≠ []
  paneId : IsPane identity.paneId
  parentSessionId : ∀ id, identity.parentSessionId = some id → IsId id
  parentPaneId : ∀ pane, identity.parentPaneId = some pane → IsPane pane
  agentName : ∀ name, identity.agentName = some name → name ≠ [] ∧ ∃ value, name = terminalText value

/-- `public_trigger` of a trigger of the server, whose parents are sessions. -/
def FromServer : SessionExitTrigger → Prop
  | .parentCascade parentSessionId => IsId parentSessionId
  | .unknown => False
  | _ => True

/-- An event that the server gives to the journal. -/
inductive Journaled : LifecycleEvent → Prop
  | claimed (eventId : Uuid) {identity : LifecycleIdentity} (claimedAt : ℕ)
      {trigger : SessionExitTrigger} (session : FromSession identity) (server : FromServer trigger) :
      Journaled (triggerClaimed eventId identity claimedAt trigger)
  | reaped (eventId : Uuid) {identity : LifecycleIdentity} (claimedAt reapedAt : ℕ)
      {trigger : SessionExitTrigger} (exitCode : ℤ) (signal : Option Str)
      (session : FromSession identity) (server : FromServer trigger) :
      Journaled (leaderReaped eventId identity claimedAt reapedAt trigger exitCode signal)

theorem terminalText_of_noControls {text : Str} (h : ∀ ch ∈ text, isC0OrC1 ch = false) :
    terminalText text = text := by
  rw [terminalText, Losses.terminalCapture_visible fun ch hch => .inl (h ch hch), stripControls,
    List.filter_eq_self]
  exact fun ch hch => by simp [h ch hch]

theorem plain_fitting {text : Str} (h : ∀ ch ∈ text, isC0OrC1 ch = false) (maxBytes : ℕ) :
    Plain (fitting maxBytes text) maxBytes := by
  induction text generalizing maxBytes with
  | nil => exact ⟨by simp [fitting], by simp [fitting, byteLen]⟩
  | cons ch text ih =>
    obtain ⟨hno, hfits⟩ := ih (fun c hc => h c (List.mem_cons_of_mem _ hc)) (maxBytes - ch.utf8Size)
    rw [fitting]
    split_ifs with hsize
    · refine ⟨fun c hc => ?_, ?_⟩
      · rcases List.mem_cons.mp hc with rfl | hc
        · exact h c List.mem_cons_self
        · exact hno c hc
      · rw [byteLen_cons]
        omega
    · exact ⟨by simp, by simp [byteLen]⟩

/-- A field that was sanitized is plain, -/
theorem plain_sanitizedField (value : Str) (maxBytes : ℕ) :
    Plain (sanitizedField value maxBytes) maxBytes := by
  have hno : ∀ ch ∈ terminalText value, isC0OrC1 ch = false := by
    intro ch hch
    simpa using (List.mem_filter.mp hch).2
  unfold sanitizedField
  simp only
  split_ifs with hfits
  · exact ⟨hno, hfits⟩
  · exact plain_fitting hno maxBytes

/-- and one that is plain stays as it is. -/
theorem sanitizedField_of_plain {text : Str} {maxBytes : ℕ} (h : Plain text maxBytes) :
    sanitizedField text maxBytes = text := by
  unfold sanitizedField
  simp only
  rw [terminalText_of_noControls h.noControls, if_pos h.fits]

theorem sanitizedField_idem (value : Str) (maxBytes : ℕ) :
    sanitizedField (sanitizedField value maxBytes) maxBytes = sanitizedField value maxBytes :=
  sanitizedField_of_plain (plain_sanitizedField value maxBytes)

/-- The name of an agent does not become empty: its first character fits. -/
theorem sanitizedField_ne_nil {value : Str} (h : terminalText value ≠ []) :
    sanitizedField (terminalText value) maxAgentBytes ≠ [] := by
  have hno : ∀ ch ∈ terminalText value, isC0OrC1 ch = false := by
    intro ch hch
    simpa using (List.mem_filter.mp hch).2
  unfold sanitizedField
  simp only
  rw [terminalText_of_noControls hno]
  split_ifs with hfits
  · exact h
  · obtain ⟨ch, rest, htext⟩ := List.exists_cons_of_ne_nil h
    have hsize : ch.utf8Size ≤ maxAgentBytes := le_trans (Char.utf8Size_le_four ch) (by decide)
    rw [htext, fitting, if_pos hsize]
    simp

theorem sanitizeLoaded_stored (identity : LifecycleIdentity) :
    sanitizeLoaded identity.stored = (identity.stored, false) := by
  simp only [sanitizeLoaded, LifecycleIdentity.stored, sanitizedField_idem, Option.map_map,
    Function.comp_def]
  simp

theorem hasValidShape_stored {identity : LifecycleIdentity} (h : FromSession identity) :
    hasValidShape identity.stored = true := by
  have hid : identity.stored.sessionId = identity.sessionId := sanitizedField_of_plain h.sessionId.1
  have hname : identity.stored.name = identity.name := sanitizedField_of_plain h.name.1
  have hpane : identity.stored.paneId = identity.paneId := sanitizedField_of_plain h.paneId.1
  unfold hasValidShape
  simp only [Bool.and_eq_true]
  refine ⟨⟨⟨⟨⟨?_, ?_⟩, ?_⟩, ?_⟩, ?_⟩, ?_⟩
  · rw [hid]
    exact h.sessionId.2
  · rw [decide_eq_true_eq, hname]
    exact h.name.2
  · rw [decide_eq_true_eq, hpane]
    exact h.paneId.2
  · unfold LifecycleIdentity.stored
    cases hparent : identity.parentSessionId with
    | none => rfl
    | some id =>
      obtain ⟨hplain, hparse⟩ := h.parentSessionId id hparent
      simpa [sanitizedField_of_plain hplain] using hparse
  · unfold LifecycleIdentity.stored
    cases hpane : identity.parentPaneId with
    | none => rfl
    | some pane =>
      obtain ⟨hplain, hhead⟩ := h.parentPaneId pane hpane
      simpa [sanitizedField_of_plain hplain] using hhead
  · unfold LifecycleIdentity.stored
    cases hagent : identity.agentName with
    | none => rfl
    | some name =>
      obtain ⟨hne, value, rfl⟩ := h.agentName name hagent
      simpa using sanitizedField_ne_nil hne

theorem sanitizeLoadedTrigger_server {trigger : SessionExitTrigger} (h : FromServer trigger) :
    sanitizeLoadedTrigger trigger = some (trigger, false) := by
  cases trigger with
  | leaderExited => rfl
  | closeRequested => rfl
  | daemonShutdown => rfl
  | parentCascade parentSessionId =>
    obtain ⟨hplain, hparse⟩ : IsId parentSessionId := h
    obtain ⟨uuid, huuid⟩ := Option.isSome_iff_exists.mp hparse
    simp only [sanitizeLoadedTrigger, sanitizedField_of_plain hplain, huuid, Option.map_some]
    simp
  | unknown => exact absurd h id

/-- What is read back passes the checks and needs no change. -/
def Loadable (event : LifecycleEvent) : Prop := validateAndSanitizeLoaded event = some (event, false)

instance (event : LifecycleEvent) : Decidable (Loadable event) :=
  inferInstanceAs (Decidable (_ = _))

section Built
variable {identity : LifecycleIdentity} {trigger : SessionExitTrigger}
  (hshape : hasValidShape identity.stored = true)
  (htrigger : sanitizeLoadedTrigger trigger = some (trigger, false))
include hshape htrigger

theorem loadable_triggerClaimed (eventId : Uuid) (claimedAt : ℕ) :
    Loadable (triggerClaimed eventId identity claimedAt trigger) := by
  simp only [Loadable, triggerClaimed, validateAndSanitizeLoaded, sanitizeLoaded_stored, htrigger, hshape]
  rfl

theorem loadable_leaderReaped (eventId : Uuid) (claimedAt reapedAt : ℕ) (exitCode : ℤ)
    (signal : Option Str) :
    Loadable (leaderReaped eventId identity claimedAt reapedAt trigger exitCode signal) := by
  simp only [Loadable, leaderReaped, validateAndSanitizeLoaded, sanitizeLoaded_stored, htrigger, hshape,
    Option.map_map, Function.comp_def, sanitizedField_idem]
  simp

end Built

/-- The checks for what comes from a file let every event of the server pass as it is. -/
theorem Journaled.loadable {event : LifecycleEvent} (h : Journaled event) : Loadable event := by
  cases h with
  | claimed eventId claimedAt session server =>
    exact loadable_triggerClaimed (hasValidShape_stored session) (sanitizeLoadedTrigger_server server) _ _
  | reaped eventId claimedAt reapedAt exitCode signal session server =>
    exact loadable_leaderReaped (hasValidShape_stored session) (sanitizeLoadedTrigger_server server) _ _ _ _ _

end LightTerminal.Session.Segment
