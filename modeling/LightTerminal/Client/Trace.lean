import LightTerminal.Data.Text
import LightTerminal.Library.Json
import LightTerminal.Library.Procedure

/-! # Traces

`lterm trace` records the output of a session in a file of JSON lines, `lterm trace-replay` and
`lterm trace-info` read it (`trace_output`, `validate_trace_replay`, `trace_file_summary` of
`client.rs`). The recorder writes one start event, an output event for each read from the socket, and
one end event. The readers take the file from a `BufRead`, whose buffers are the list of the parts in
which it delivers the bytes.

`serde_json::from_str` is the parameter `parse`. What `serde_json` writes is `writeObject`. -/

namespace LightTerminal.Client.Trace

open LightTerminal.Data.Text LightTerminal.Library LightTerminal.Library.Json
open LightTerminal.Library.Procedure

/-- `DEFAULT_TRACE_MAX_BYTES`. -/
def defaultTraceMaxBytes : ℕ := 16 * 1024 * 1024

/-- `MAX_TRACE_JSONL_LINE_BYTES`. -/
def maxTraceJsonlLineBytes : ℕ := 1024 * 1024

/-- `MAX_TRACE_REPLAY_CHUNK_BYTES`. -/
def maxTraceReplayChunkBytes : ℕ := 1024 * 1024

/-- `MAX_TRACE_REPLAY_TOTAL_BYTES`. -/
def maxTraceReplayTotalBytes : ℕ := defaultTraceMaxBytes

/-- `MAX_TRACE_REPLAY_CHUNKS`. -/
def maxTraceReplayChunks : ℕ := 16 * 1024

/-- `MAX_TRACE_REPLAY_DELAY_MS`. -/
def maxTraceReplayDelayMs : ℕ := 60 * 1000

/-- The length of `buf` in `trace_output`. -/
def traceReadBytes : ℕ := 8192

/-- `TRACE_SCHEMA_VERSION`. -/
def traceSchemaVersion : Str := "1.0".toList

/-- `TRACE_FORMAT`. -/
def traceFormat : Str := "lterm-trace-jsonl".toList

/-- `PROTOCOL_VERSION`. -/
def protocolVersion : ℕ := 10

/-- `CARGO_PKG_VERSION`. -/
def clientVersion : Str := "1.0.33".toList

/-- `duration_millis_u64` of a duration of so many milliseconds. -/
def durationMillisU64 (ms : ℕ) : ℕ := min ms (2 ^ 64 - 1)

/-- `u64::saturating_add`. -/
def saturatingAdd (a b : ℕ) : ℕ := min (a + b) (2 ^ 64 - 1)

/-! ### Hexadecimal digits -/

/-- `hex_encode`. -/
def hexEncode (bytes : List UInt8) : Str :=
  bytes.flatMap fun byte => [Nat.digitChar (byte.toNat / 16), Nat.digitChar (byte.toNat % 16)]

/-- Why a reader gives up. The line is that of the file; the file's path is left out. -/
inductive TraceError where
  | lineTooLong (line : ℕ)
  | notUtf8 (line : ℕ)
  | notJson (line : ℕ)
  | missingString (field : Str) (line : ℕ)
  | missingU64 (field : Str) (line : ℕ)
  | notU64 (field : Str) (line : ℕ)
  | notString (field : Str) (line : ℕ)
  | schemaVersion (found : Str) (line : ℕ)
  | format (found : Str) (line : ℕ)
  | duplicateStart (line : ℕ)
  | startAfterOutputOrEnd (line : ℕ)
  | outputBeforeStart (line : ℕ)
  | outputAfterEnd (line : ℕ)
  | direction (found : Str) (line : ℕ)
  | chunkIndex (found expected line : ℕ)
  | tooManyChunks
  | nonMonotonic (elapsedMs previousElapsedMs line : ℕ)
  | hexOddLength
  | hexNonHexDigit
  | hexTooLong (decoded : ℕ)
  | chunkTooLong (decoded line : ℕ)
  | lengthMismatch (expected decoded line : ℕ)
  | tooManyBytes
  | delayTooLong (delayMs line : ℕ)
  | endBeforeStart (line : ℕ)
  | duplicateEnd (line : ℕ)
  | chunksMismatch (recorded seen line : ℕ)
  | bytesMismatch (recorded seen line : ℕ)
  | eventType (found : Str) (line : ℕ)
  | missingStart
  | missingEnd
  deriving DecidableEq

/-- A condition for a reader to go on. -/
abbrev demand (c : Prop) [Decidable c] (error : TraceError) : Except TraceError Unit := require c error

/-- `hex_nibble`. -/
def hexNibble (byte : UInt8) : Option ℕ := hexValue (Char.ofNat byte.toNat)

/-- `hex_encoded_len`. -/
def hexEncodedLen (value : Str) : Except TraceError ℕ := do
  let bytes := Utf8.encode value
  demand (bytes.length % 2 = 0) .hexOddLength
  demand ((bytes.all fun byte => (hexNibble byte).isSome) = true) .hexNonHexDigit
  return bytes.length / 2

/-- The loop of `hex_decode`. -/
def hexDecodePairs : List UInt8 → Except TraceError (List UInt8)
  | high :: low :: rest => do
    let high ← expect (hexNibble high) .hexNonHexDigit
    let low ← expect (hexNibble low) .hexNonHexDigit
    let bytes ← hexDecodePairs rest
    return UInt8.ofNat (16 * high + low) :: bytes
  | _ => .ok []

/-- `hex_decode`. -/
def hexDecode (value : Str) : Except TraceError (List UInt8) := do
  let bytes := Utf8.encode value
  demand (bytes.length % 2 = 0) .hexOddLength
  demand (bytes.length / 2 ≤ maxTraceReplayChunkBytes) (.hexTooLong (bytes.length / 2))
  hexDecodePairs bytes

/-! ### The recorder -/

/-- `TraceEvent::Start`. -/
structure StartEvent where
  traceId : Str
  target : Str
  createdAtUnixMs : Option UInt64
  durationMs : UInt64
  maxBytes : ℕ
  rows : UInt16
  cols : UInt16

/-- `TraceEvent::Output`; its direction is `stdout`. -/
structure OutputEvent where
  chunkIndex : ℕ
  elapsedMs : ℕ
  len : ℕ
  bytesHex : Str
  deriving DecidableEq

/-- The reasons for which a recording ends. -/
inductive EndReason where
  | duration
  | eof
  | maxBytes
  deriving DecidableEq

/-- The text of a reason. -/
def EndReason.text : EndReason → Str
  | .duration => "duration".toList
  | .eof => "eof".toList
  | .maxBytes => "max_bytes".toList

/-- `TraceEvent::End`. -/
structure EndEvent where
  elapsedMs : ℕ
  reason : EndReason
  bytesRecorded : ℕ
  chunksRecorded : ℕ
  deriving DecidableEq

/-- `TraceEvent`. -/
inductive TraceEvent where
  | start (event : StartEvent)
  | output (event : OutputEvent)
  | finish (event : EndEvent)

/-- The members of the JSON object of an event. -/
def TraceEvent.members : TraceEvent → List (Str × Scalar)
  | .start event =>
    [("type".toList, .string "start".toList),
      ("schema_version".toList, .string traceSchemaVersion),
      ("format".toList, .string traceFormat),
      ("trace_id".toList, .string event.traceId),
      ("producer".toList, .string "lterm".toList),
      ("client_version".toList, .string clientVersion),
      ("client_protocol_version".toList, .u64 protocolVersion),
      ("target".toList, .string event.target),
      ("created_at_unix_ms".toList, match event.createdAtUnixMs with
        | some ms => .u64 ms.toNat
        | none => .null),
      ("duration_ms".toList, .u64 event.durationMs.toNat),
      ("max_bytes".toList, .u64 event.maxBytes),
      ("rows".toList, .u64 event.rows.toNat),
      ("cols".toList, .u64 event.cols.toNat),
      ("raw_stream_policy".toList, .string "raw-transparent".toList)]
  | .output event =>
    [("type".toList, .string "output".toList),
      ("chunk_index".toList, .u64 event.chunkIndex),
      ("elapsed_ms".toList, .u64 event.elapsedMs),
      ("direction".toList, .string "stdout".toList),
      ("len".toList, .u64 event.len),
      ("bytes_hex".toList, .string event.bytesHex)]
  | .finish event =>
    [("type".toList, .string "end".toList),
      ("elapsed_ms".toList, .u64 event.elapsedMs),
      ("reason".toList, .string event.reason.text),
      ("bytes_recorded".toList, .u64 event.bytesRecorded),
      ("chunks_recorded".toList, .u64 event.chunksRecorded)]

/-- The JSON text of an event. -/
def TraceEvent.json (event : TraceEvent) : Str := writeObject event.members

/-- The JSON value of an event. -/
def TraceEvent.value (event : TraceEvent) : Value := .ofMembers event.members

/-- `write_trace_event`. -/
def writeTraceEvent (event : TraceEvent) : List UInt8 := Utf8.encode event.json ++ [0x0a]

/-- A turn of the loop of `trace_output`, before its deadline: a read that has to be tried again, the
end of the stream, or some bytes, with the milliseconds since the start. -/
inductive Turn where
  | retry
  | eof
  | data (bytes : List UInt8) (elapsed : ℕ)
  deriving DecidableEq

/-- What the loop records. -/
structure Recorded where
  outputs : List OutputEvent
  reason : EndReason
  rawBytesRecorded : ℕ
  chunksRecorded : ℕ
  deriving DecidableEq

/-- The loop of `trace_output`. -/
def recordLoop (maxBytes : ℕ) : List Turn → (rawBytesRecorded chunksRecorded : ℕ) → Recorded
  -- the deadline has passed
  | [], rawBytesRecorded, chunksRecorded => ⟨[], .duration, rawBytesRecorded, chunksRecorded⟩
  | .retry :: turns, rawBytesRecorded, chunksRecorded =>
    recordLoop maxBytes turns rawBytesRecorded chunksRecorded
  | .eof :: _, rawBytesRecorded, chunksRecorded => ⟨[], .eof, rawBytesRecorded, chunksRecorded⟩
  | .data bytes elapsed :: turns, rawBytesRecorded, chunksRecorded =>
    let remainingBytes := maxBytes - rawBytesRecorded
    if remainingBytes = 0 then ⟨[], .maxBytes, rawBytesRecorded, chunksRecorded⟩
    else
      let toWrite := min bytes.length remainingBytes
      let output :=
        { chunkIndex := chunksRecorded, elapsedMs := durationMillisU64 elapsed, len := toWrite
          bytesHex := hexEncode (bytes.take toWrite) }
      let rawBytesRecorded := rawBytesRecorded + toWrite
      let chunksRecorded := saturatingAdd chunksRecorded 1
      if toWrite < bytes.length ∨ maxBytes ≤ rawBytesRecorded then
        ⟨[output], .maxBytes, rawBytesRecorded, chunksRecorded⟩
      else
        let rest := recordLoop maxBytes turns rawBytesRecorded chunksRecorded
        { rest with outputs := output :: rest.outputs }

/-- What `trace_output` is called with and finds: the fields of its start event, the turns of its loop,
and the milliseconds at its end. -/
structure Recording where
  start : StartEvent
  turns : List Turn
  elapsed : ℕ

/-- What the loop records. -/
def Recording.recorded (r : Recording) : Recorded := recordLoop r.start.maxBytes r.turns 0 0

/-- The end event. -/
def Recording.finish (r : Recording) : EndEvent where
  elapsedMs := durationMillisU64 r.elapsed
  reason := r.recorded.reason
  bytesRecorded := r.recorded.rawBytesRecorded
  chunksRecorded := r.recorded.chunksRecorded

/-- The events that are written. -/
def Recording.events (r : Recording) : List TraceEvent :=
  .start r.start :: r.recorded.outputs.map .output ++ [.finish r.finish]

/-- `trace_output`: the file that it writes. -/
def traceOutput (r : Recording) : List UInt8 := r.events.flatMap writeTraceEvent

/-! ### Lines -/

/-- The end of `read_trace_jsonl_line`: the line without its line end. -/
def finishLine (line : List UInt8) (lineNumber : ℕ) : Except TraceError Str :=
  let line := if line.getLast? = some 0x0a then line.dropLast else line
  let line := if line.getLast? = some 0x0d then line.dropLast else line
  expect (Utf8.fromUtf8 line) (.notUtf8 lineNumber)

/-- What `consume` leaves of the buffers. -/
def consume (take : ℕ) : List (List UInt8) → List (List UInt8)
  | [] => []
  | available :: rest =>
    if (available.drop take).isEmpty then rest else available.drop take :: rest

/-- `read_trace_jsonl_line`, of the line `lineNumber`, with what it has of the line so far. -/
def readTraceJsonlLine (lineNumber : ℕ) :
    List (List UInt8) → List UInt8 → Except TraceError (Option (Str × List (List UInt8)))
  | [], line =>
    if line.isEmpty then .ok none
    else (finishLine line lineNumber).map fun text => some (text, [])
  | available :: rest, line =>
    if available.isEmpty then
      if line.isEmpty then .ok none
      else (finishLine line lineNumber).map fun text => some (text, available :: rest)
    else
      match available.findIdx? (· = 0x0a) with
      | some pos =>
        let take := pos + 1
        if maxTraceJsonlLineBytes < line.length + take then .error (.lineTooLong lineNumber)
        else
          (finishLine (line ++ available.take take) lineNumber).map fun text =>
            some (text, consume take (available :: rest))
      | none =>
        if maxTraceJsonlLineBytes < line.length + available.length then
          .error (.lineTooLong lineNumber)
        else readTraceJsonlLine lineNumber rest (line ++ available)

/-- The bytes that are still to be read. -/
def unread (reader : List (List UInt8)) : ℕ := reader.flatten.length

theorem unread_consume {take : ℕ} {available : List UInt8} (rest : List (List UInt8))
    (htake : 0 < take) (h : available ≠ []) :
    unread (consume take (available :: rest)) < unread (available :: rest) := by
  have hpos := List.length_pos_of_ne_nil h
  simp only [unread, consume]
  split_ifs with hdrop
  · simp only [List.flatten_cons, List.length_append]
    omega
  · simp only [List.flatten_cons, List.length_append, List.length_drop]
    omega

/-- A line that is read takes bytes off the reader. -/
theorem unread_readTraceJsonlLine {lineNumber : ℕ} {reader rest : List (List UInt8)}
    {line : List UInt8} {text : Str}
    (h : readTraceJsonlLine lineNumber reader line = .ok (some (text, rest))) :
    unread rest < unread reader + line.length := by
  have hmap {x : Except TraceError Str} {r : List (List UInt8)}
      (hx : (x.map fun text => some (text, r)) = .ok (some (text, rest))) : rest = r := by
    cases x with
    | error e => simp [Except.map] at hx
    | ok a =>
      simp only [Except.map, Except.ok.injEq, Option.some.injEq, Prod.mk.injEq] at hx
      exact hx.2.symm
  induction reader generalizing line with
  | nil =>
    unfold readTraceJsonlLine at h
    split_ifs at h with hline
    · cases h
    · rw [hmap h]
      have hpos := List.length_pos_of_ne_nil (mt List.isEmpty_iff.mpr hline)
      simpa [unread] using hpos
  | cons available buffers ih =>
    rw [readTraceJsonlLine] at h
    by_cases havailable : available = []
    · rw [if_pos (List.isEmpty_iff.mpr havailable)] at h
      split_ifs at h with hline
      · cases h
      · rw [hmap h]
        have hpos := List.length_pos_of_ne_nil (mt List.isEmpty_iff.mpr hline)
        omega
    · rw [if_neg (mt List.isEmpty_iff.mp havailable)] at h
      split at h
      · rename_i pos _
        simp only at h
        split_ifs at h
        rw [hmap h]
        have hlt := unread_consume buffers (Nat.zero_lt_succ pos) havailable
        exact Nat.lt_add_right _ hlt
      · split_ifs at h
        have hlt := ih h
        simp only [unread, List.flatten_cons, List.length_append] at hlt ⊢
        omega

/-- The loops over the lines of a file: `step` is called with the number of each line and its text. -/
def forEachLine {σ : Type} (step : ℕ → Str → σ → Except TraceError σ) (reader : List (List UInt8))
    (lineNumber : ℕ) (s : σ) : Except TraceError σ :=
  match _h : readTraceJsonlLine (lineNumber + 1) reader [] with
  | .error e => .error e
  | .ok none => .ok s
  | .ok (some (line, rest)) =>
    match step (lineNumber + 1) line s with
    | .error e => .error e
    | .ok s => forEachLine step rest (lineNumber + 1) s
termination_by unread reader
decreasing_by simpa using unread_readTraceJsonlLine _h

/-! ### Fields -/

/-- `required_trace_str`. -/
def requiredTraceStr (event : Value) (field : Str) (lineNumber : ℕ) : Except TraceError Str :=
  expect ((event.get field).bind Value.asStr) (.missingString field lineNumber)

/-- `required_trace_u64`. -/
def requiredTraceU64 (event : Value) (field : Str) (lineNumber : ℕ) : Except TraceError ℕ :=
  match event.get field with
  | some value => expect value.asU64 (.notU64 field lineNumber)
  | none => .error (.missingU64 field lineNumber)

/-- `optional_trace_string`. -/
def optionalTraceString (event : Value) (field : Str) : Option Str :=
  (event.get field).bind Value.asStr

/-- `optional_trace_u64`. -/
def optionalTraceU64 (event : Value) (field : Str) : Option ℕ := (event.get field).bind Value.asU64

/-- A field that need not be there, but if it is there is a number that passes a check. -/
def checkTraceU64 (event : Value) (field : Str) (lineNumber : ℕ)
    (check : ℕ → Except TraceError Unit) : Except TraceError Unit :=
  match optionalTraceU64 event field with
  | some n => check n
  | none => demand ((event.get field).isNone = true) (.notU64 field lineNumber)

/-! ### Replaying -/

/-- `TraceReplayChunk`. -/
structure TraceReplayChunk where
  lineNumber : ℕ
  elapsedMs : ℕ
  bytes : List UInt8
  deriving DecidableEq

/-- `TraceReplayPlan`. -/
structure TraceReplayPlan where
  chunks : List TraceReplayChunk := []
  totalBytes : ℕ := 0
  deriving DecidableEq

/-- The variables of `validate_trace_replay`. -/
structure ReplayState where
  startSeen : Bool := false
  endSeen : Bool := false
  previousElapsedMs : ℕ := 0
  expectedChunkIndex : ℕ := 0
  replayedBytes : ℕ := 0
  plan : TraceReplayPlan := {}

/-- `validate_trace_start_event`. -/
def validateTraceStartEvent (event : Value) (lineNumber : ℕ) : Except TraceError Unit := do
  let schemaVersion ← requiredTraceStr event "schema_version".toList lineNumber
  demand (schemaVersion = traceSchemaVersion) (.schemaVersion schemaVersion lineNumber)
  match optionalTraceString event "format".toList with
  | some format => demand (format = traceFormat) (.format format lineNumber)
  | none =>
    demand ((event.get "format".toList).isNone = true) (.notString "format".toList lineNumber)

/-- The start event in `validate_trace_replay`. -/
def replayStart (lineNumber : ℕ) (event : Value) (s : ReplayState) :
    Except TraceError ReplayState := do
  demand (s.startSeen = false) (.duplicateStart lineNumber)
  demand (s.endSeen = false ∧ s.expectedChunkIndex = 0) (.startAfterOutputOrEnd lineNumber)
  validateTraceStartEvent event lineNumber
  let _ ← requiredTraceU64 event "duration_ms".toList lineNumber
  return { s with startSeen := true }

/-- An output event in `validate_trace_replay`. -/
def replayOutput (timing : Bool) (lineNumber : ℕ) (event : Value) (s : ReplayState) :
    Except TraceError ReplayState := do
  demand (s.startSeen = true) (.outputBeforeStart lineNumber)
  demand (s.endSeen = false) (.outputAfterEnd lineNumber)
  let direction ← requiredTraceStr event "direction".toList lineNumber
  demand (direction = "stdout".toList) (.direction direction lineNumber)
  checkTraceU64 event "chunk_index".toList lineNumber fun chunkIndex =>
    demand (chunkIndex = s.expectedChunkIndex)
      (.chunkIndex chunkIndex s.expectedChunkIndex lineNumber)
  demand (s.expectedChunkIndex < maxTraceReplayChunks) .tooManyChunks
  let elapsedMs ← requiredTraceU64 event "elapsed_ms".toList lineNumber
  demand (s.previousElapsedMs ≤ elapsedMs)
    (.nonMonotonic elapsedMs s.previousElapsedMs lineNumber)
  let bytesHex ← requiredTraceStr event "bytes_hex".toList lineNumber
  let encodedLen ← hexEncodedLen bytesHex
  demand (encodedLen ≤ maxTraceReplayChunkBytes) (.chunkTooLong encodedLen lineNumber)
  let expectedLen ← requiredTraceU64 event "len".toList lineNumber
  demand (expectedLen = encodedLen) (.lengthMismatch expectedLen encodedLen lineNumber)
  demand (saturatingAdd s.plan.totalBytes expectedLen ≤ maxTraceReplayTotalBytes) .tooManyBytes
  let bytes ← hexDecode bytesHex
  demand (timing = true → elapsedMs - s.previousElapsedMs ≤ maxTraceReplayDelayMs)
    (.delayTooLong (elapsedMs - s.previousElapsedMs) lineNumber)
  return { s with
    previousElapsedMs := elapsedMs
    replayedBytes := saturatingAdd s.replayedBytes expectedLen
    expectedChunkIndex := saturatingAdd s.expectedChunkIndex 1
    plan.totalBytes := saturatingAdd s.plan.totalBytes expectedLen
    plan.chunks := s.plan.chunks ++ [⟨lineNumber, elapsedMs, bytes⟩] }

/-- The end event in `validate_trace_replay`. -/
def replayEnd (lineNumber : ℕ) (event : Value) (s : ReplayState) :
    Except TraceError ReplayState := do
  demand (s.startSeen = true) (.endBeforeStart lineNumber)
  demand (s.endSeen = false) (.duplicateEnd lineNumber)
  checkTraceU64 event "chunks_recorded".toList lineNumber fun chunksRecorded =>
    demand (chunksRecorded = s.expectedChunkIndex)
      (.chunksMismatch chunksRecorded s.expectedChunkIndex lineNumber)
  checkTraceU64 event "bytes_recorded".toList lineNumber fun bytesRecorded => do
    demand (bytesRecorded ≤ maxTraceReplayTotalBytes) .tooManyBytes
    demand (bytesRecorded = s.replayedBytes)
      (.bytesMismatch bytesRecorded s.replayedBytes lineNumber)
  return { s with endSeen := true }

/-- A line in `validate_trace_replay`. -/
def replayLine (parse : Str → Option Value) (timing : Bool) (lineNumber : ℕ) (line : Str)
    (s : ReplayState) : Except TraceError ReplayState :=
  if (trim line).isEmpty then .ok s
  else do
    let event ← expect (parse line) (.notJson lineNumber)
    let eventType ← requiredTraceStr event "type".toList lineNumber
    if eventType = "start".toList then replayStart lineNumber event s
    else if eventType = "output".toList then replayOutput timing lineNumber event s
    else if eventType = "end".toList then replayEnd lineNumber event s
    else .error (.eventType eventType lineNumber)

/-- `validate_trace_replay`. -/
def validateTraceReplay (parse : Str → Option Value) (timing : Bool)
    (reader : List (List UInt8)) : Except TraceError TraceReplayPlan := do
  let s ← forEachLine (replayLine parse timing) reader 0 {}
  demand (s.startSeen = true) .missingStart
  demand (s.endSeen = true) .missingEnd
  return s.plan

/-! ### The summary -/

/-- `TraceFileSummary`, without the path. -/
structure TraceFileSummary where
  schemaVersion : Option Str := none
  format : Option Str := none
  traceId : Option Str := none
  producer : Option Str := none
  clientVersion : Option Str := none
  clientProtocolVersion : Option ℕ := none
  target : Option Str := none
  createdAtUnixMs : Option ℕ := none
  durationMs : Option ℕ := none
  maxBytes : Option ℕ := none
  rows : Option ℕ := none
  cols : Option ℕ := none
  rawStreamPolicy : Option Str := none
  eventCount : ℕ := 0
  outputChunks : ℕ := 0
  outputBytes : ℕ := 0
  firstOutputElapsedMs : Option ℕ := none
  lastOutputElapsedMs : Option ℕ := none
  endElapsedMs : Option ℕ := none
  endReason : Option Str := none
  endBytesRecorded : Option ℕ := none
  endChunksRecorded : Option ℕ := none
  unknownEvents : ℕ := 0
  deriving DecidableEq

/-- The variables of `trace_file_summary`. -/
structure SummaryState where
  summary : TraceFileSummary := {}
  startSeen : Bool := false
  endSeen : Bool := false

/-- `trace_output_event_len`. -/
def traceOutputEventLen (event : Value) (lineNumber : ℕ) : Except TraceError ℕ := do
  let bytesHex ← requiredTraceStr event "bytes_hex".toList lineNumber
  let encodedLen ← hexEncodedLen bytesHex
  match event.get "len".toList with
  | some value =>
    let len ← expect value.asU64 (.notU64 "len".toList lineNumber)
    demand (len = encodedLen) (.lengthMismatch len encodedLen lineNumber)
    return len
  | none => return encodedLen

/-- An event that the summary does not know. -/
def SummaryState.unknown (s : SummaryState) : SummaryState :=
  { s with summary.unknownEvents := saturatingAdd s.summary.unknownEvents 1 }

/-- The start event in `trace_file_summary`. -/
def summarizeStart (event : Value) (s : SummaryState) : SummaryState :=
  if s.startSeen then s.unknown
  else
    { s with
      startSeen := true
      summary := { s.summary with
        schemaVersion := optionalTraceString event "schema_version".toList
        format := optionalTraceString event "format".toList
        traceId := optionalTraceString event "trace_id".toList
        producer := optionalTraceString event "producer".toList
        clientVersion := optionalTraceString event "client_version".toList
        clientProtocolVersion := optionalTraceU64 event "client_protocol_version".toList
        target := optionalTraceString event "target".toList
        createdAtUnixMs := optionalTraceU64 event "created_at_unix_ms".toList
        durationMs := optionalTraceU64 event "duration_ms".toList
        maxBytes := optionalTraceU64 event "max_bytes".toList
        rows := optionalTraceU64 event "rows".toList
        cols := optionalTraceU64 event "cols".toList
        rawStreamPolicy := optionalTraceString event "raw_stream_policy".toList } }

/-- An output event in `trace_file_summary`. -/
def summarizeOutput (lineNumber : ℕ) (event : Value) (s : SummaryState) : SummaryState :=
  match traceOutputEventLen event lineNumber with
  | .error _ => s.unknown
  | .ok len =>
    let summary := { s.summary with
      outputChunks := saturatingAdd s.summary.outputChunks 1
      outputBytes := saturatingAdd s.summary.outputBytes len }
    match optionalTraceU64 event "elapsed_ms".toList with
    | none => { s with summary }
    | some elapsedMs =>
      { s with
        summary := { summary with
          firstOutputElapsedMs := summary.firstOutputElapsedMs.or (some elapsedMs)
          lastOutputElapsedMs := some elapsedMs } }

/-- The end event in `trace_file_summary`. -/
def summarizeEnd (event : Value) (s : SummaryState) : SummaryState :=
  if s.endSeen then s.unknown
  else
    { s with
      endSeen := true
      summary := { s.summary with
        endElapsedMs := optionalTraceU64 event "elapsed_ms".toList
        endReason := optionalTraceString event "reason".toList
        endBytesRecorded := optionalTraceU64 event "bytes_recorded".toList
        endChunksRecorded := optionalTraceU64 event "chunks_recorded".toList } }

/-- A line in `trace_file_summary`. -/
def summarizeLine (parse : Str → Option Value) (lineNumber : ℕ) (line : Str) (s : SummaryState) :
    Except TraceError SummaryState :=
  if (trim line).isEmpty then .ok s
  else
    let s := { s with summary.eventCount := saturatingAdd s.summary.eventCount 1 }
    match parse line with
    | none => .ok s.unknown
    | some event =>
      .ok <|
        match optionalTraceString event "type".toList with
        | none => s.unknown
        | some eventType =>
          if eventType = "start".toList then summarizeStart event s
          else if eventType = "output".toList then summarizeOutput lineNumber event s
          else if eventType = "end".toList then summarizeEnd event s
          else s.unknown

/-- `trace_file_summary`. -/
def traceFileSummary (parse : Str → Option Value) (reader : List (List UInt8)) :
    Except TraceError TraceFileSummary := do
  let s ← forEachLine (summarizeLine parse) reader 0 {}
  return s.summary

end LightTerminal.Client.Trace
