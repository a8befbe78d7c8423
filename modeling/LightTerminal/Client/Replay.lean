import LightTerminal.Client.Trace

/-! # Recorded traces and their replay

A reader takes the file line by line, however the bytes are delivered (`forEachLine_file`). The recorder
writes the events of the *pieces* of the stream (`recordLoop_eq`); replaying them passes all checks
but two: the start event has to fit on a line, and there may not be too many pieces
(`stepLines_pieces`). -/

namespace LightTerminal.Client.Trace

open LightTerminal.Data.Text LightTerminal.Library LightTerminal.Library.Json
open LightTerminal.Library.Procedure

/-! ## Lines -/

/-- A `BufRead` that delivers some bytes: its buffers are not empty before the end. -/
structure Delivers (reader : List (List UInt8)) (bytes : List UInt8) : Prop where
  bytes : reader.flatten = bytes
  parts : [] ∉ reader

/-- A line without control characters is read as it was written. -/
theorem finishLine_encode {text : Str} (h : Printable text) (lineNumber : ℕ) :
    finishLine (Utf8.encode text ++ [0x0a]) lineNumber = .ok text := by
  have hlast : (Utf8.encode text).getLast? ≠ some 0x0d := by
    intro hlast
    have hge := h.bytes 0x0d (List.mem_of_getLast? hlast)
    exact absurd hge (by decide)
  simp only [finishLine, List.getLast?_append, List.getLast?_singleton, Option.some_or, if_true,
    List.dropLast_concat, if_neg hlast, Utf8.fromUtf8_encode]
  rfl

theorem delivers_consume {available read more : List UInt8} {rest : List (List UInt8)}
    (hparts : [] ∉ available :: rest) (h : available = read ++ more) :
    Delivers (consume read.length (available :: rest)) (more ++ rest.flatten) := by
  obtain ⟨-, hrest⟩ := List.ne_and_not_mem_of_not_mem_cons hparts
  rw [consume, h, List.drop_left]
  split_ifs with hmore
  · rw [List.isEmpty_iff.mp hmore]
    exact ⟨rfl, hrest⟩
  · refine ⟨rfl, fun hmem => ?_⟩
    rcases List.mem_cons.mp hmem with heq | hmem
    · exact hmore (List.isEmpty_iff.mpr heq.symm)
    · exact hrest hmem

theorem first_line_unique {text text' more more' : List UInt8} (h : 0x0a ∉ text)
    (h' : 0x0a ∉ text') (heq : text ++ 0x0a :: more = text' ++ 0x0a :: more') :
    text = text' ∧ more = more' := by
  have hlines (text more : List UInt8) (h : 0x0a ∉ text) :
      (text ++ 0x0a :: more).takeWhile (· ≠ 0x0a) = text := by
    rw [List.takeWhile_append_of_pos fun byte hbyte => ?_]
    · simp
    · simpa using fun heq : byte = 0x0a => h (heq ▸ hbyte)
  have htext : text = text' := by
    rw [← hlines text more h, heq, hlines text' more' h']
  subst htext
  exact ⟨rfl, List.cons_inj_right _ |>.mp (List.append_cancel_left heq)⟩

/-- What `read_trace_jsonl_line` makes of the next line, of which it has a part. -/
theorem readTraceJsonlLine_eq (lineNumber : ℕ) {reader : List (List UInt8)} {line text more : List UInt8}
    (hparts : [] ∉ reader) (htext : 0x0a ∉ text) (hline : line.length ≤ text.length)
    (h : line ++ reader.flatten = text ++ 0x0a :: more) :
    if text.length + 1 ≤ maxTraceJsonlLineBytes then
      ∃ rest, Delivers rest more ∧ readTraceJsonlLine lineNumber reader line =
        (finishLine (text ++ [0x0a]) lineNumber).map fun text => some (text, rest)
    else readTraceJsonlLine lineNumber reader line = .error (.lineTooLong lineNumber) := by
  induction reader generalizing line with
  | nil =>
    have hlen := congrArg List.length h
    simp only [List.flatten_nil, List.append_nil, List.length_append, List.length_cons] at hlen
    omega
  | cons available rest ih =>
    obtain ⟨havailable, hrest⟩ := List.ne_and_not_mem_of_not_mem_cons hparts
    have hempty : ¬ available.isEmpty = true := fun h => havailable (List.isEmpty_iff.mp h).symm
    obtain ⟨tail, rfl⟩ : line <+: text := by
      refine List.prefix_of_prefix_length_le ?_ (List.prefix_append text (0x0a :: more)) hline
      exact h ▸ List.prefix_append line _
    have htail : 0x0a ∉ tail := fun hmem => htext (List.mem_append_right _ hmem)
    rw [List.flatten_cons, List.append_assoc, List.append_cancel_left_eq] at h
    rw [readTraceJsonlLine, if_neg hempty]
    by_cases hmem : 0x0a ∈ available
    · -- the line ends in this buffer
      obtain ⟨read, after, rfl, hread⟩ := List.eq_append_cons_of_mem hmem
      rw [List.append_assoc, List.cons_append] at h
      obtain ⟨rfl, rfl⟩ := first_line_unique hread htail h
      have hpos : (read ++ 0x0a :: after).findIdx? (· = 0x0a) = some read.length := by
        rw [List.findIdx?_append, List.findIdx?_eq_none_iff.mpr fun byte hbyte => ?_]
        · simp [List.findIdx?_cons]
        · simpa using fun heq : byte = 0x0a => hread (heq ▸ hbyte)
      have htake : (read ++ 0x0a :: after).take (read.length + 1) = read ++ [0x0a] := by
        simp [List.take_append]
      rw [hpos]
      simp only [htake, List.length_append]
      by_cases hfits : line.length + read.length + 1 ≤ maxTraceJsonlLineBytes
      · rw [if_pos hfits, if_neg (by omega), ← List.append_assoc]
        refine ⟨_, ?_, rfl⟩
        have hconsume := @delivers_consume _ (read ++ [0x0a]) after _ hparts (by simp)
        rwa [List.length_append] at hconsume
      · rw [if_neg hfits, if_pos (by omega)]
    · -- it goes on
      have hnone : available.findIdx? (· = 0x0a) = none := by
        rw [List.findIdx?_eq_none_iff]
        intro byte hbyte
        simpa using fun heq : byte = 0x0a => hmem (heq ▸ hbyte)
      obtain ⟨later, rfl⟩ : available <+: tail := by
        rcases List.append_eq_append_iff.mp h with ⟨later, rfl, -⟩ | ⟨later, rfl, hlater⟩
        · exact List.prefix_append _ _
        · cases later with
          | nil => exact ⟨[], by simp⟩
          | cons byte later =>
            rw [List.cons_append, List.cons.injEq] at hlater
            exact absurd (List.mem_append_right _ (hlater.1 ▸ List.mem_cons_self)) hmem
      rw [hnone]
      rw [List.append_assoc] at h
      have hih := @ih (line ++ available) hrest (by simp only [List.length_append]; omega)
        (by rw [List.append_assoc, List.append_cancel_left h, ← List.append_assoc, ← List.append_assoc,
          ← List.append_assoc])
      simp only [List.length_append] at hih ⊢
      by_cases hlong : maxTraceJsonlLineBytes < line.length + available.length
      · rw [if_neg (by omega), if_pos hlong]
      · rwa [if_neg hlong]

/-- The file with these lines. -/
def fileOf (lines : List Str) : List UInt8 := lines.flatMap fun line => Utf8.encode line ++ [0x0a]

/-- A line that a reader takes. -/
structure Readable (line : Str) : Prop where
  printable : Printable line
  fits : (Utf8.encode line).length + 1 ≤ maxTraceJsonlLineBytes

theorem notMem_encode {text : Str} (h : Printable text) : 0x0a ∉ Utf8.encode text := by
  intro hmem
  exact absurd (h.bytes 0x0a hmem) (by decide)

/-- The step on each of the lines, the first of which comes after the line `lineNumber`. -/
def stepLines {σ : Type} (step : ℕ → Str → σ → Except TraceError σ) :
    List Str → ℕ → σ → Except TraceError σ
  | [], _, s => .ok s
  | line :: lines, lineNumber, s => do
    let s ← step (lineNumber + 1) line s
    stepLines step lines (lineNumber + 1) s

variable {σ : Type} {step : ℕ → Str → σ → Except TraceError σ}

theorem stepLines_append (lines more : List Str) (lineNumber : ℕ) (s : σ) :
    stepLines step (lines ++ more) lineNumber s =
      (stepLines step lines lineNumber s).bind (stepLines step more (lineNumber + lines.length)) := by
  induction lines generalizing lineNumber s with
  | nil => rfl
  | cons line lines ih =>
    simp only [List.cons_append, stepLines, List.length_cons]
    cases step (lineNumber + 1) line s with
    | error e => rfl
    | ok s =>
      show stepLines step (lines ++ more) _ _ = _
      rw [ih, show lineNumber + 1 + lines.length = lineNumber + (lines.length + 1) by omega]
      rfl

/-- The loop takes the lines of the file one after the other, however its bytes are delivered. -/
theorem forEachLine_file {lines : List Str} (hlines : ∀ line ∈ lines, Readable line)
    {reader : List (List UInt8)} (h : Delivers reader (fileOf lines)) (lineNumber : ℕ) (s : σ) :
    forEachLine step reader lineNumber s = stepLines step lines lineNumber s := by
  induction lines generalizing reader lineNumber s with
  | nil =>
    have hreader : reader = [] := by
      cases reader with
      | nil => rfl
      | cons buffer reader =>
        have hbytes := h.bytes
        simp only [List.flatten_cons, fileOf, List.flatMap_nil, List.append_eq_nil_iff] at hbytes
        exact absurd (hbytes.1 ▸ List.mem_cons_self) h.parts
    rw [hreader, forEachLine]
    rfl
  | cons line lines ih =>
    obtain ⟨hline, hlines⟩ := List.forall_mem_cons.mp hlines
    have hread := @readTraceJsonlLine_eq (lineNumber + 1) _ [] (Utf8.encode line)
      (fileOf lines) h.parts (notMem_encode hline.printable) (Nat.zero_le _)
      (by rw [h.bytes]; simp [fileOf])
    rw [if_pos hline.fits, finishLine_encode hline.printable] at hread
    obtain ⟨rest, hrest, hread⟩ := hread
    rw [forEachLine, stepLines]
    split
    · rename_i e heq
      rw [hread] at heq
      cases heq
    · rename_i heq
      rw [hread] at heq
      cases heq
    · rename_i text rest' heq
      rw [hread] at heq
      cases heq
      cases step (lineNumber + 1) line s with
      | error e => rfl
      | ok s => exact ih hlines hrest _ _

/-- A first line that is too long is refused. -/
theorem forEachLine_tooLong {line : Str} {lines : List Str} (hline : Printable line)
    (hlong : maxTraceJsonlLineBytes < (Utf8.encode line).length + 1) {reader : List (List UInt8)}
    (h : Delivers reader (fileOf (line :: lines))) (lineNumber : ℕ) (s : σ) :
    forEachLine step reader lineNumber s = .error (.lineTooLong (lineNumber + 1)) := by
  have hread := @readTraceJsonlLine_eq (lineNumber + 1) _ [] (Utf8.encode line)
    (fileOf lines) h.parts (notMem_encode hline) (Nat.zero_le _)
    (by rw [h.bytes]; simp [fileOf])
  rw [if_neg (by omega)] at hread
  rw [forEachLine]
  split
  · rename_i e heq
    rw [hread] at heq
    cases heq
    rfl
  · rename_i heq
    rw [hread] at heq
    cases heq
  · rename_i heq
    rw [hread] at heq
    cases heq

/-- What each step keeps, the loop keeps. -/
theorem forEachLine_keeps {P : σ → Prop}
    (hstep : ∀ lineNumber line s s', P s → step lineNumber line s = .ok s' → P s')
    {reader : List (List UInt8)} {lineNumber : ℕ} {s s' : σ} (hs : P s)
    (h : forEachLine step reader lineNumber s = .ok s') : P s' := by
  fun_induction forEachLine step reader lineNumber s with
  | case1 => cases h
  | case2 => cases h; exact hs
  | case3 => cases h
  | case4 reader lineNumber s line rest _ s'' hs'' ih => exact ih (hstep _ _ _ _ hs hs'') h

/-! ## Hexadecimal digits -/

theorem encode_hexEncode (bytes : List UInt8) :
    Utf8.encode (hexEncode bytes) = bytes.flatMap fun byte =>
      [UInt8.ofNat (Nat.digitChar (byte.toNat / 16)).toNat,
        UInt8.ofNat (Nat.digitChar (byte.toNat % 16)).toNat] := by
  have hascii : ∀ d < 16, (Nat.digitChar d).toNat ≤ 0x7f := by decide
  induction bytes with
  | nil => rfl
  | cons byte bytes ih =>
    have hbyte := byte.toNat_lt
    have hhigh := hascii (byte.toNat / 16) (by omega)
    have hlow := hascii (byte.toNat % 16) (by omega)
    show Utf8.encode (_ :: _ :: hexEncode bytes) = _
    rw [Utf8.encode_cons, Utf8.encode_cons, Utf8.encodeChar_ascii hhigh, Utf8.encodeChar_ascii hlow,
      ih]
    rfl

theorem hexNibble_digitChar :
    ∀ d < 16, hexNibble (UInt8.ofNat (Nat.digitChar d).toNat) = some d := by decide

theorem length_encode_hexEncode (bytes : List UInt8) :
    (Utf8.encode (hexEncode bytes)).length = 2 * bytes.length := by
  rw [encode_hexEncode]
  induction bytes with
  | nil => rfl
  | cons byte bytes ih =>
    simp only [List.flatMap_cons, List.length_append, List.length_cons, List.length_nil, ih]
    omega

theorem hexDecodePairs_hexEncode (bytes : List UInt8) :
    hexDecodePairs (Utf8.encode (hexEncode bytes)) = .ok bytes := by
  rw [encode_hexEncode]
  induction bytes with
  | nil => rfl
  | cons byte bytes ih =>
    have hbyte := byte.toNat_lt
    have hhigh := hexNibble_digitChar (byte.toNat / 16) (by omega)
    have hlow := hexNibble_digitChar (byte.toNat % 16) (by omega)
    have hvalue : 16 * (byte.toNat / 16) + byte.toNat % 16 = byte.toNat := by omega
    simp only [List.flatMap_cons, List.cons_append, List.nil_append, hexDecodePairs, hhigh, hlow, ih,
      bind_eq_ok, expect_eq_ok, Option.some.injEq, pure_eq_ok]
    exact ⟨_, rfl, _, rfl, bytes, rfl, by rw [hvalue, UInt8.ofNat_toNat]⟩

theorem hexEncodedLen_hexEncode (bytes : List UInt8) :
    hexEncodedLen (hexEncode bytes) = .ok bytes.length := by
  have hall : ((Utf8.encode (hexEncode bytes)).all fun byte => (hexNibble byte).isSome) = true := by
    rw [encode_hexEncode, List.all_flatMap, List.all_eq_true]
    intro byte _
    have hbyte := byte.toNat_lt
    simp [hexNibble_digitChar (byte.toNat / 16) (by omega),
      hexNibble_digitChar (byte.toNat % 16) (by omega)]
  have hlen := length_encode_hexEncode bytes
  simp only [hexEncodedLen, bind_eq_ok, demand, require_eq_ok, exists_unit, pure_eq_ok, hlen]
  exact ⟨by omega, hall, by omega⟩

theorem hexDecode_hexEncode {bytes : List UInt8} (h : bytes.length ≤ maxTraceReplayChunkBytes) :
    hexDecode (hexEncode bytes) = .ok bytes := by
  have hlen := length_encode_hexEncode bytes
  simp only [hexDecode, bind_eq_ok, demand, require_eq_ok, exists_unit, hlen]
  exact ⟨by omega, by omega, hexDecodePairs_hexEncode bytes⟩

theorem length_hexDecodePairs {text bytes : List UInt8} (h : hexDecodePairs text = .ok bytes) :
    bytes.length = text.length / 2 := by
  fun_induction hexDecodePairs text generalizing bytes with
  | case1 high low rest ih =>
    simp only [bind_eq_ok, expect_eq_ok, pure_eq_ok] at h
    obtain ⟨_, -, _, -, decoded, hdecoded, rfl⟩ := h
    rw [List.length_cons, ih hdecoded]
    simp only [List.length_cons]
    omega
  | case2 text hshort =>
    cases h
    rcases text with _ | ⟨high, _ | ⟨low, rest⟩⟩
    · rfl
    · simp
    · exact absurd rfl (hshort high low rest)

/-! ## The pieces of a stream -/

/-- The bytes that are read before the stream ends. -/
def bytesRead : List Turn → List UInt8
  | [] => []
  | .retry :: turns => bytesRead turns
  | .eof :: _ => []
  | .data bytes _ :: turns => bytes ++ bytesRead turns

/-- What is recorded with `room` bytes left: the bytes of each event, and when they were read. -/
def pieces (room : ℕ) : List Turn → List (List UInt8 × ℕ)
  | [] => []
  | .retry :: turns => pieces room turns
  | .eof :: _ => []
  | .data bytes elapsed :: turns =>
    if room = 0 then []
    else (bytes.take room, durationMillisU64 elapsed) :: pieces (room - bytes.length) turns

/-- The times of the reads. -/
def readTimes : List Turn → List ℕ
  | [] => []
  | .data _ elapsed :: turns => elapsed :: readTimes turns
  | _ :: turns => readTimes turns

/-- The bytes of the pieces. -/
def pieceBytes (ps : List (List UInt8 × ℕ)) : List UInt8 := (ps.map Prod.fst).flatten

theorem pieces_zero (turns : List Turn) : pieces 0 turns = [] := by
  induction turns with
  | nil => rfl
  | cons turn turns ih =>
    cases turn with
    | retry => exact ih
    | eof => rfl
    | data bytes elapsed => exact if_pos rfl

/-- The pieces are the bytes that are read, as far as there is room. -/
theorem pieceBytes_pieces (room : ℕ) (turns : List Turn) :
    pieceBytes (pieces room turns) = (bytesRead turns).take room := by
  induction turns generalizing room with
  | nil => simp [pieces, bytesRead, pieceBytes]
  | cons turn turns ih =>
    cases turn with
    | retry => exact ih room
    | eof => simp [pieces, bytesRead, pieceBytes]
    | data bytes elapsed =>
      simp only [pieces, bytesRead]
      split_ifs with hroom
      · simp [hroom, pieceBytes]
      · rw [List.take_append, ← ih]
        rfl

/-- The reads of a trace: none is empty or longer than the buffer, and time does not go back. -/
structure Reads (turns : List Turn) : Prop where
  sizes : ∀ bytes elapsed, .data bytes elapsed ∈ turns →
    bytes ≠ [] ∧ bytes.length ≤ traceReadBytes
  times : (readTimes turns).Pairwise (· ≤ ·)

theorem Reads.tail {turn : Turn} {turns : List Turn} (h : Reads (turn :: turns)) : Reads turns := by
  refine ⟨fun bytes elapsed hmem => h.sizes bytes elapsed (List.mem_cons_of_mem _ hmem), ?_⟩
  have htimes := h.times
  cases turn with
  | retry => exact htimes
  | eof => exact htimes
  | data bytes elapsed => exact (List.pairwise_cons.mp htimes).2

/-- Each piece has some bytes, and at most a buffer of them. -/
theorem mem_pieces {turns : List Turn} (h : Reads turns) {room : ℕ} {p : List UInt8 × ℕ}
    (hp : p ∈ pieces room turns) :
    p.1 ≠ [] ∧ p.1.length ≤ traceReadBytes ∧ ∃ elapsed ∈ readTimes turns,
      p.2 = durationMillisU64 elapsed := by
  induction turns generalizing room with
  | nil => cases hp
  | cons turn turns ih =>
    cases turn with
    | retry => exact ih h.tail hp
    | eof => cases hp
    | data bytes elapsed =>
      simp only [pieces] at hp
      split_ifs at hp with hroom
      · cases hp
      · rcases List.mem_cons.mp hp with rfl | hp
        · have hbytes := h.sizes bytes elapsed List.mem_cons_self
          refine ⟨?_, ?_, elapsed, List.mem_cons_self, rfl⟩
          · have hpos := List.length_pos_of_ne_nil hbytes.1
            intro hnil
            have hlen := congrArg List.length hnil
            simp only [List.length_take, List.length_nil] at hlen
            omega
          · have hle := List.length_take_le room bytes
            have hmax := hbytes.2
            simp only [List.length_take]
            omega
        · obtain ⟨hne, hle, time, htime, heq⟩ := ih h.tail hp
          exact ⟨hne, hle, time, List.mem_cons_of_mem _ htime, heq⟩

/-- The times of the pieces do not go back. -/
theorem times_pieces {turns : List Turn} (h : Reads turns) (room : ℕ) :
    ((pieces room turns).map Prod.snd).Pairwise (· ≤ ·) := by
  induction turns generalizing room with
  | nil => exact List.Pairwise.nil
  | cons turn turns ih =>
    cases turn with
    | retry => exact ih h.tail room
    | eof => exact List.Pairwise.nil
    | data bytes elapsed =>
      simp only [pieces]
      split_ifs with hroom
      · exact List.Pairwise.nil
      · rw [List.map_cons, List.pairwise_cons]
        refine ⟨fun time htime => ?_, ih h.tail _⟩
        obtain ⟨p, hp, rfl⟩ := List.mem_map.mp htime
        obtain ⟨-, -, later, hlater, heq⟩ := mem_pieces h.tail hp
        have hle := (List.pairwise_cons.mp h.times).1 later hlater
        rw [heq]
        simp only [durationMillisU64]
        omega

theorem length_le_pieceBytes {ps : List (List UInt8 × ℕ)} (h : ∀ p ∈ ps, p.1 ≠ []) :
    ps.length ≤ (pieceBytes ps).length := by
  induction ps with
  | nil => exact Nat.le_refl _
  | cons p ps ih =>
    obtain ⟨hp, hps⟩ := List.forall_mem_cons.mp h
    have hpos := List.length_pos_of_ne_nil hp
    have hrest := ih hps
    simp only [pieceBytes, List.map_cons, List.flatten_cons, List.length_append,
      List.length_cons] at hrest ⊢
    omega

/-- The output events of the pieces. -/
def outputsFrom : ℕ → List (List UInt8 × ℕ) → List OutputEvent
  | _, [] => []
  | index, (bytes, elapsed) :: ps =>
    { chunkIndex := index, elapsedMs := elapsed, len := bytes.length, bytesHex := hexEncode bytes } ::
      outputsFrom (index + 1) ps

/-- The recorder writes the events of the pieces, and counts them. -/
theorem recordLoop_eq {maxBytes raw chunks : ℕ} (turns : List Turn) (hraw : raw ≤ maxBytes)
    (hchunks : chunks + (pieces (maxBytes - raw) turns).length < 2 ^ 64) :
    ∃ reason, recordLoop maxBytes turns raw chunks =
      { outputs := outputsFrom chunks (pieces (maxBytes - raw) turns)
        reason := reason
        rawBytesRecorded := raw + (pieceBytes (pieces (maxBytes - raw) turns)).length
        chunksRecorded := chunks + (pieces (maxBytes - raw) turns).length } := by
  induction turns generalizing raw chunks with
  | nil => exact ⟨.duration, rfl⟩
  | cons turn turns ih =>
    cases turn with
    | retry => exact ih hraw hchunks
    | eof => exact ⟨.eof, rfl⟩
    | data bytes elapsed =>
      simp only [recordLoop, pieces] at hchunks ⊢
      by_cases hroom : maxBytes - raw = 0
      · rw [if_pos hroom, if_pos hroom]
        exact ⟨.maxBytes, rfl⟩
      · rw [if_neg hroom, List.length_cons] at hchunks
        rw [if_neg hroom, if_neg hroom]
        have hnext : saturatingAdd chunks 1 = chunks + 1 := by
          unfold saturatingAdd
          omega
        have hlen : (bytes.take (maxBytes - raw)).length = min bytes.length (maxBytes - raw) := by
          rw [List.length_take, Nat.min_comm]
        have htake : bytes.take (min bytes.length (maxBytes - raw)) = bytes.take (maxBytes - raw) := by
          rw [Nat.min_comm, ← List.take_take, List.take_length]
        rw [hnext, htake]
        split_ifs with hfull
        · have hrest : maxBytes - raw - bytes.length = 0 := by omega
          refine ⟨.maxBytes, ?_⟩
          rw [hrest, pieces_zero]
          simp only [outputsFrom, pieceBytes, List.map_cons, List.map_nil, List.flatten_cons,
            List.flatten_nil, List.append_nil, hlen, List.length_cons, List.length_nil]
        · have hle : bytes.length ≤ maxBytes - raw := by omega
          have hroom' : maxBytes - (raw + bytes.length) = maxBytes - raw - bytes.length := by omega
          rw [Nat.min_eq_left hle]
          obtain ⟨reason, hreason⟩ := @ih (raw + bytes.length) (chunks + 1) (by omega)
            (by rw [hroom']; omega)
          refine ⟨reason, ?_⟩
          rw [hreason, hroom']
          simp only [outputsFrom, pieceBytes, List.map_cons, List.flatten_cons, List.length_append, hlen,
            Nat.min_eq_left hle, List.length_cons, Recorded.mk.injEq, true_and]
          omega

/-! ## Events -/

theorem printable_json (event : TraceEvent) : Printable event.json := printable_writeObject _

/-- The text of an object is not blank. -/
theorem trim_writeObject (members : List (Str × Scalar)) :
    (trim (writeObject members)).isEmpty = false := by
  have hopen : isWhitespace '\x7b' = false := by decide
  have hclose : isWhitespace '\x7d' = false := by decide
  rw [trim, writeObject, List.cons_append, List.dropWhile_cons_of_neg (by simp [hopen]),
    ← List.cons_append, List.rdropWhile_concat_neg _ _ _ (by simp [hclose])]
  rfl

theorem trim_json (event : TraceEvent) : ¬ (trim event.json).isEmpty = true := by
  rw [TraceEvent.json, trim_writeObject]
  exact Bool.false_ne_true

/-- A bound for the bytes of a line, from the keys and the values. -/
theorem length_json_le {event : TraceEvent} {bound : ℕ}
    (h : (event.members.map fun member => 6 * member.1.length + 4 + member.2.write.length).sum ≤
      bound) : (Utf8.encode event.json).length ≤ 4 * (bound + 2) := by
  refine (length_encode_le _).trans (Nat.mul_le_mul_left 4 ?_)
  have hmembers := (length_writeMembers event.members).trans h
  simp only [TraceEvent.json, writeObject, List.length_append, List.length_cons, List.length_nil]
  omega

theorem length_u64 {n : ℕ} (h : n < 2 ^ 64) : (Scalar.u64 n).write.length ≤ 20 :=
  length_write ⟨by omega, by decide⟩

theorem length_hexEncode (bytes : List UInt8) : (hexEncode bytes).length = 2 * bytes.length := by
  induction bytes with
  | nil => rfl
  | cons byte bytes ih =>
    have hcons : hexEncode (byte :: bytes) =
      Nat.digitChar (byte.toNat / 16) :: Nat.digitChar (byte.toNat % 16) :: hexEncode bytes := rfl
    rw [hcons, List.length_cons, List.length_cons, List.length_cons, ih]
    omega

/-- The line of a piece fits. -/
theorem readable_output {event : OutputEvent} {bytes : List UInt8}
    (hbytes : bytes.length ≤ traceReadBytes) (hhex : event.bytesHex = hexEncode bytes)
    (hlen : event.len = bytes.length) (hindex : event.chunkIndex < 2 ^ 64)
    (helapsed : event.elapsedMs < 2 ^ 64) : Readable (TraceEvent.output event).json := by
  have hread : traceReadBytes = 8192 := rfl
  have hhexlen : (Scalar.string event.bytesHex).write.length ≤ 6 * (2 * bytes.length) + 2 := by
    rw [hhex, ← length_hexEncode]
    exact length_writeString _
  have hindexlen := length_u64 hindex
  have helapsedlen := length_u64 helapsed
  have hlenlen := length_u64 (n := event.len) (by omega)
  have htype : (Scalar.string ("output".toList)).write.length = 8 := rfl
  have hdirection : (Scalar.string ("stdout".toList)).write.length = 8 := rfl
  have hfits := @length_json_le (.output event) 110000 (by
    simp [TraceEvent.members] at htype hdirection ⊢
    omega)
  have hmax : maxTraceJsonlLineBytes = 1048576 := rfl
  exact ⟨printable_json _, by omega⟩

/-- The line of the end event fits. -/
theorem readable_finish {event : EndEvent} (helapsed : event.elapsedMs < 2 ^ 64)
    (hbytes : event.bytesRecorded < 2 ^ 64) (hchunks : event.chunksRecorded < 2 ^ 64) :
    Readable (TraceEvent.finish event).json := by
  have helapsedlen := length_u64 helapsed
  have hbyteslen := length_u64 hbytes
  have hchunkslen := length_u64 hchunks
  have htype : (Scalar.string ("end".toList)).write.length = 5 := rfl
  have hreason : (Scalar.string event.reason.text).write.length ≤ 11 := by
    cases event.reason <;> decide
  have hfits := @length_json_le (.finish event) 1000 (by
    simp [TraceEvent.members] at htype ⊢
    omega)
  have hmax : maxTraceJsonlLineBytes = 1048576 := rfl
  exact ⟨printable_json _, by omega⟩

/-! ## Replaying the events -/

/-- Between the start event and the end event. -/
structure ReplayState.Open (s : ReplayState) : Prop where
  startSeen : s.startSeen = true
  endSeen : s.endSeen = false
  bytes : s.replayedBytes = s.plan.totalBytes

/-- The bytes of a plan. -/
def TraceReplayPlan.bytes (plan : TraceReplayPlan) : List UInt8 :=
  (plan.chunks.map TraceReplayChunk.bytes).flatten

/-- The state after a piece. -/
def ReplayState.push (s : ReplayState) (lineNumber : ℕ) (p : List UInt8 × ℕ) : ReplayState :=
  { s with
    previousElapsedMs := p.2
    replayedBytes := s.replayedBytes + p.1.length
    expectedChunkIndex := s.expectedChunkIndex + 1
    plan :=
      { totalBytes := s.plan.totalBytes + p.1.length
        chunks := s.plan.chunks ++ [⟨lineNumber, p.2, p.1⟩] } }

variable {parse : Str → Option Value}

/-- Parsing gives back the event. -/
abbrev Parses (parse : Str → Option Value) (event : TraceEvent) : Prop :=
  parse event.json = some event.value

theorem ok_bind {E α β : Type} (a : α) (f : α → Except E β) : (Except.ok a >>= f) = f a := rfl

theorem require_pos {E : Type} {c : Prop} [Decidable c] {e : E} (h : c) : require c e = .ok () :=
  if_pos h

theorem require_neg {E : Type} {c : Prop} [Decidable c] {e : E} (h : ¬ c) :
    require c e = .error e := if_neg h

theorem saturatingAdd_eq {a b : ℕ} (h : a + b < 2 ^ 64) : saturatingAdd a b = a + b := by
  unfold saturatingAdd
  omega

/-- What is written of an event is taken by its kind. -/
theorem replayLine_json {timing : Bool} (lineNumber : ℕ) (s : ReplayState) {event : TraceEvent}
    (hparse : Parses parse event) :
    replayLine parse timing lineNumber event.json s =
      match event with
      | .start _ => replayStart lineNumber event.value s
      | .output _ => replayOutput timing lineNumber event.value s
      | .finish _ => replayEnd lineNumber event.value s := by
  rw [replayLine, if_neg (trim_json event), hparse]
  cases event with
  | start event => rfl
  | output event => rfl
  | finish event => rfl

/-- The event of a piece is taken, unless there are too many. -/
theorem replayOutput_piece {s : ReplayState} (hs : s.Open) {bytes : List UInt8} {elapsed : ℕ}
    (lineNumber : ℕ) (htime : s.previousElapsedMs ≤ elapsed)
    (hbytes : bytes.length ≤ traceReadBytes)
    (htotal : s.plan.totalBytes + bytes.length ≤ maxTraceReplayTotalBytes) :
    replayOutput false lineNumber
        (TraceEvent.output ⟨s.expectedChunkIndex, elapsed, bytes.length, hexEncode bytes⟩).value s =
      if s.expectedChunkIndex < maxTraceReplayChunks then .ok (s.push lineNumber (bytes, elapsed))
      else .error .tooManyChunks := by
  obtain ⟨event, hevent⟩ : ∃ event, event =
      (TraceEvent.output ⟨s.expectedChunkIndex, elapsed, bytes.length, hexEncode bytes⟩).value :=
    ⟨_, rfl⟩
  have hdirection : requiredTraceStr event "direction".toList lineNumber = .ok "stdout".toList := by
    rw [hevent]; rfl
  have hindex (check : ℕ → Except TraceError Unit) :
      checkTraceU64 event "chunk_index".toList lineNumber check = check s.expectedChunkIndex := by
    rw [hevent]; rfl
  have helapsed : requiredTraceU64 event "elapsed_ms".toList lineNumber = .ok elapsed := by
    rw [hevent]; rfl
  have hhex : requiredTraceStr event "bytes_hex".toList lineNumber = .ok (hexEncode bytes) := by
    rw [hevent]; rfl
  have hlen : requiredTraceU64 event "len".toList lineNumber = .ok bytes.length := by
    rw [hevent]; rfl
  have hchunk : bytes.length ≤ maxTraceReplayChunkBytes :=
    hbytes.trans (by decide)
  have hcap : maxTraceReplayTotalBytes = 16777216 := rfl
  have hcount : maxTraceReplayChunks = 16384 := rfl
  rw [← hevent, replayOutput, demand, require_pos hs.startSeen, ok_bind, demand,
    require_pos hs.endSeen, ok_bind, hdirection, ok_bind, demand, require_pos rfl, ok_bind, hindex,
    demand, require_pos rfl, ok_bind, demand]
  split_ifs with hroom
  · have hsum := saturatingAdd_eq (a := s.plan.totalBytes) (b := bytes.length) (by omega)
    have hnext := saturatingAdd_eq (a := s.expectedChunkIndex) (b := 1) (by omega)
    rw [require_pos hroom, ok_bind, helapsed, ok_bind, demand, require_pos htime, ok_bind, hhex,
      ok_bind, hexEncodedLen_hexEncode, ok_bind, demand, require_pos hchunk, ok_bind, hlen, ok_bind,
      demand, require_pos rfl, ok_bind, demand, hsum, require_pos htotal, ok_bind,
      hexDecode_hexEncode hchunk, ok_bind, demand, require_pos (by simp), ok_bind, hs.bytes, hsum, hnext,
      ReplayState.push, hs.bytes]
    rfl
  · rw [require_neg hroom]
    rfl

theorem ReplayState.Open.push {s : ReplayState} (hs : s.Open) (lineNumber : ℕ)
    (p : List UInt8 × ℕ) : (s.push lineNumber p).Open :=
  ⟨hs.startSeen, hs.endSeen, congrArg (· + p.1.length) hs.bytes⟩

theorem ReplayState.bytes_push (s : ReplayState) (lineNumber : ℕ) (p : List UInt8 × ℕ) :
    (s.push lineNumber p).plan.bytes = s.plan.bytes ++ p.1 := by
  simp [ReplayState.push, TraceReplayPlan.bytes]

/-- What replaying the pieces leaves. -/
structure Replayed (s : ReplayState) (ps : List (List UInt8 × ℕ)) (s' : ReplayState) : Prop where
  openState : s'.Open
  index : s'.expectedChunkIndex = s.expectedChunkIndex + ps.length
  count : s'.plan.chunks.length = s.plan.chunks.length + ps.length
  total : s'.plan.totalBytes = s.plan.totalBytes + (pieceBytes ps).length
  bytes : s'.plan.bytes = s.plan.bytes ++ pieceBytes ps

/-- The lines of the output events. -/
def outputLines (index : ℕ) (ps : List (List UInt8 × ℕ)) : List Str :=
  (outputsFrom index ps).map fun event => (TraceEvent.output event).json

/-- The pieces are replayed unless there are too many of them. -/
theorem stepLines_pieces {ps : List (List UInt8 × ℕ)} {s : ReplayState} (hs : s.Open)
    (lineNumber : ℕ)
    (hparse : ∀ event ∈ outputsFrom s.expectedChunkIndex ps, Parses parse (.output event))
    (hsizes : ∀ p ∈ ps, p.1.length ≤ traceReadBytes)
    (htimes : (s.previousElapsedMs :: ps.map Prod.snd).Pairwise (· ≤ ·))
    (htotal : s.plan.totalBytes + (pieceBytes ps).length ≤ maxTraceReplayTotalBytes)
    (hindex : s.expectedChunkIndex ≤ maxTraceReplayChunks) :
    if s.expectedChunkIndex + ps.length ≤ maxTraceReplayChunks then
      ∃ s', stepLines (replayLine parse false) (outputLines s.expectedChunkIndex ps) lineNumber s =
        .ok s' ∧ Replayed s ps s'
    else
      stepLines (replayLine parse false) (outputLines s.expectedChunkIndex ps) lineNumber s =
        .error .tooManyChunks := by
  induction ps generalizing s lineNumber with
  | nil =>
    rw [if_pos (by simpa using hindex)]
    exact ⟨s, rfl, hs, rfl, rfl, rfl, by simp [pieceBytes]⟩
  | cons p ps ih =>
    obtain ⟨bytes, elapsed⟩ := p
    obtain ⟨hsize, hsizes⟩ := List.forall_mem_cons.mp hsizes
    have hsize : bytes.length ≤ traceReadBytes := hsize
    obtain ⟨hparse, hparses⟩ := List.forall_mem_cons.mp hparse
    rw [List.map_cons, List.pairwise_cons] at htimes
    obtain ⟨htime, htimes⟩ := htimes
    have hlen : (pieceBytes ((bytes, elapsed) :: ps)).length =
        bytes.length + (pieceBytes ps).length := by
      simp [pieceBytes]
    rw [hlen] at htotal
    have hstep := replayOutput_piece hs (lineNumber + 1) (htime _ List.mem_cons_self) hsize
      (by omega)
    have hline := @replayLine_json _ false (lineNumber + 1) s _ hparse
    simp only at hline
    rw [hstep] at hline
    simp only [outputLines, outputsFrom, List.map_cons, stepLines, hline, List.length_cons]
    by_cases hroom : s.expectedChunkIndex < maxTraceReplayChunks
    · rw [if_pos hroom, ok_bind]
      have hnext := ih (s := s.push (lineNumber + 1) (bytes, elapsed)) (hs.push _ _) (lineNumber + 1)
        hparses hsizes htimes (by simp only [ReplayState.push]; omega) hroom
      have hcount : (s.push (lineNumber + 1) (bytes, elapsed)).expectedChunkIndex + ps.length =
          s.expectedChunkIndex + (ps.length + 1) := by
        simp only [ReplayState.push]
        omega
      rw [hcount] at hnext
      split_ifs at hnext ⊢ with hfits
      · obtain ⟨s', hs', hreplayed⟩ := hnext
        refine ⟨s', hs', hreplayed.openState, hreplayed.index.trans hcount, ?_, ?_, ?_⟩
        · rw [hreplayed.count]
          simp only [ReplayState.push, List.length_append, List.length_cons, List.length_nil]
          omega
        · rw [hreplayed.total, hlen]
          simp only [ReplayState.push]
          omega
        · rw [hreplayed.bytes, ReplayState.bytes_push, List.append_assoc]
          rfl
      · exact hnext
    · rw [if_neg hroom, if_neg (by omega)]
      rfl

/-! ## Replaying a recording -/

/-- The start event is on a line that a reader takes. -/
def Recording.StartFits (r : Recording) : Prop :=
  (writeTraceEvent (.start r.start)).length ≤ maxTraceJsonlLineBytes

instance (r : Recording) : Decidable r.StartFits := by unfold Recording.StartFits; infer_instance

/-- What a recording is made of: `trace_output` refuses a limit of zero bytes. -/
structure Recording.Valid (r : Recording) : Prop where
  positive : 0 < r.start.maxBytes
  limit : r.start.maxBytes ≤ defaultTraceMaxBytes
  reads : Reads r.turns

/-- The pieces that are recorded. -/
def Recording.pieces (r : Recording) : List (List UInt8 × ℕ) :=
  Trace.pieces r.start.maxBytes r.turns

theorem Recording.pieces_within {r : Recording} (hr : r.Valid) :
    (pieceBytes r.pieces).length ≤ defaultTraceMaxBytes ∧
      r.pieces.length ≤ defaultTraceMaxBytes := by
  have hbytes : (pieceBytes r.pieces).length ≤ r.start.maxBytes := by
    rw [Recording.pieces, pieceBytes_pieces, List.length_take]
    omega
  have hcount := length_le_pieceBytes fun p hp => (@mem_pieces _ hr.reads r.start.maxBytes _ hp).1
  exact ⟨hbytes.trans hr.limit, hcount.trans (hbytes.trans hr.limit)⟩

theorem Recording.recorded_eq {r : Recording} (hr : r.Valid) :
    r.recorded.outputs = outputsFrom 0 r.pieces ∧
      r.recorded.rawBytesRecorded = (pieceBytes r.pieces).length ∧
      r.recorded.chunksRecorded = r.pieces.length := by
  have hcount := (r.pieces_within hr).2
  have hlimit : defaultTraceMaxBytes = 16777216 := rfl
  obtain ⟨reason, hreason⟩ := @recordLoop_eq _ _ 0 r.turns (Nat.zero_le r.start.maxBytes)
    (by
      rw [Nat.sub_zero]
      unfold Recording.pieces at hcount
      omega)
  rw [Recording.recorded, hreason]
  exact ⟨rfl, Nat.zero_add _, Nat.zero_add _⟩

/-- The lines of the file. -/
def Recording.lines (r : Recording) : List Str := r.events.map TraceEvent.json

theorem Recording.traceOutput_eq (r : Recording) : traceOutput r = fileOf r.lines := by
  rw [Recording.lines, fileOf, List.flatMap_map]
  rfl

theorem Recording.lines_eq {r : Recording} (hr : r.Valid) :
    r.lines = (TraceEvent.start r.start).json ::
      (outputLines 0 r.pieces ++ [(TraceEvent.finish r.finish).json]) := by
  rw [Recording.lines, Recording.events, (r.recorded_eq hr).1, List.cons_append, List.map_cons,
    List.map_append, List.map_map]
  rfl

theorem mem_outputsFrom {index : ℕ} {ps : List (List UInt8 × ℕ)} {event : OutputEvent}
    (h : event ∈ outputsFrom index ps) :
    index ≤ event.chunkIndex ∧ event.chunkIndex < index + ps.length ∧ ∃ p ∈ ps,
      event.elapsedMs = p.2 ∧ event.len = p.1.length ∧ event.bytesHex = hexEncode p.1 := by
  induction ps generalizing index with
  | nil => cases h
  | cons p ps ih =>
    simp only [List.length_cons]
    rcases List.mem_cons.mp h with rfl | h
    · exact ⟨Nat.le_refl _, Nat.lt_add_of_pos_right (Nat.succ_pos _), p, List.mem_cons_self, rfl, rfl,
        rfl⟩
    · obtain ⟨hge, hlt, p', hp', hevent⟩ := ih h
      exact ⟨by omega, by omega, p', List.mem_cons_of_mem _ hp', hevent⟩

/-- Only the start event may be too long for a line. -/
theorem Recording.readable {r : Recording} (hr : r.Valid) :
    ∀ line ∈ outputLines 0 r.pieces ++ [(TraceEvent.finish r.finish).json], Readable line := by
  obtain ⟨hbytes, hcount⟩ := r.pieces_within hr
  obtain ⟨-, hraw, hchunks⟩ := r.recorded_eq hr
  have hlimit : defaultTraceMaxBytes = 16777216 := rfl
  have htime (ms : ℕ) : durationMillisU64 ms < 2 ^ 64 := by
    unfold durationMillisU64
    omega
  intro line hline
  rcases List.mem_append.mp hline with hline | hline
  · obtain ⟨event, hevent, rfl⟩ := List.mem_map.mp hline
    obtain ⟨-, hindex, p, hp, helapsed, hlen, hhex⟩ := mem_outputsFrom hevent
    obtain ⟨-, hsize, time, -, htimes⟩ := mem_pieces hr.reads hp
    refine readable_output hsize hhex hlen (by omega) ?_
    rw [helapsed, htimes]
    exact htime time
  · rw [List.mem_singleton.mp hline]
    refine readable_finish (htime r.elapsed) ?_ ?_
    · show r.recorded.rawBytesRecorded < _
      omega
    · show r.recorded.chunksRecorded < _
      omega

theorem Recording.startFits_iff (r : Recording) :
    r.StartFits ↔ (Utf8.encode (TraceEvent.start r.start).json).length + 1 ≤
      maxTraceJsonlLineBytes := by
  unfold Recording.StartFits writeTraceEvent
  rw [List.length_append]
  rfl

/-- The loop over the lines of a recording, by the start event. -/
theorem Recording.forEachLine_eq {r : Recording} (hr : r.Valid) {reader : List (List UInt8)}
    (h : Delivers reader (traceOutput r)) (s : σ) :
    forEachLine step reader 0 s =
      if r.StartFits then stepLines step r.lines 0 s else .error (.lineTooLong 1) := by
  rw [r.traceOutput_eq, r.lines_eq hr] at h
  rw [r.lines_eq hr]
  split_ifs with hfits <;> rw [r.startFits_iff] at hfits
  · refine forEachLine_file (fun line hline => ?_) h 0 s
    rcases List.mem_cons.mp hline with rfl | hline
    · exact ⟨printable_json _, hfits⟩
    · exact r.readable hr line hline
  · exact forEachLine_tooLong (printable_json _) (by omega) h 0 s

/-- The state after the start event. -/
def replayStarted : ReplayState := { startSeen := true }

theorem replayStart_start (lineNumber : ℕ) (event : StartEvent) :
    replayStart lineNumber (TraceEvent.start event).value {} = .ok replayStarted := by
  obtain ⟨value, hvalue⟩ : ∃ value, value = (TraceEvent.start event).value := ⟨_, rfl⟩
  have hversion : requiredTraceStr value "schema_version".toList lineNumber = .ok traceSchemaVersion := by
    rw [hvalue]; rfl
  have hformat : optionalTraceString value "format".toList = some traceFormat := by rw [hvalue]; rfl
  have hduration : requiredTraceU64 value "duration_ms".toList lineNumber =
      .ok event.durationMs.toNat := by rw [hvalue]; rfl
  rw [← hvalue, replayStart, demand, require_pos rfl, ok_bind, demand, require_pos ⟨rfl, rfl⟩, ok_bind,
    validateTraceStartEvent, hversion, ok_bind, demand, require_pos rfl, ok_bind, hformat, hduration]
  simp only [demand, require_pos]
  rfl

theorem replayEnd_finish (lineNumber : ℕ) (event : EndEvent) {s : ReplayState} (hs : s.Open)
    (hchunks : event.chunksRecorded = s.expectedChunkIndex)
    (hbytes : event.bytesRecorded = s.plan.totalBytes)
    (hlimit : event.bytesRecorded ≤ maxTraceReplayTotalBytes) :
    replayEnd lineNumber (TraceEvent.finish event).value s = .ok { s with endSeen := true } := by
  obtain ⟨value, hvalue⟩ : ∃ value, value = (TraceEvent.finish event).value := ⟨_, rfl⟩
  have hchunksRecorded (check : ℕ → Except TraceError Unit) :
      checkTraceU64 value "chunks_recorded".toList lineNumber check = check event.chunksRecorded := by
    rw [hvalue]; rfl
  have hbytesRecorded (check : ℕ → Except TraceError Unit) :
      checkTraceU64 value "bytes_recorded".toList lineNumber check = check event.bytesRecorded := by
    rw [hvalue]; rfl
  rw [← hvalue, replayEnd, demand, require_pos hs.startSeen, ok_bind, demand, require_pos hs.endSeen,
    ok_bind, hchunksRecorded, demand, require_pos hchunks, ok_bind, hbytesRecorded, demand,
    require_pos hlimit, ok_bind, demand, require_pos (hbytes.trans hs.bytes.symm), ok_bind]
  rfl

/-- What replaying a recording comes to. -/
theorem Recording.validateTraceReplay_eq {r : Recording} (hr : r.Valid)
    (hparse : ∀ event ∈ r.events, Parses parse event) {reader : List (List UInt8)}
    (h : Delivers reader (traceOutput r)) :
    if r.StartFits then
      if r.pieces.length ≤ maxTraceReplayChunks then
        ∃ plan, validateTraceReplay parse false reader = .ok plan ∧
          plan.chunks.length = r.pieces.length ∧ plan.totalBytes = (pieceBytes r.pieces).length ∧
          plan.bytes = pieceBytes r.pieces
      else validateTraceReplay parse false reader = .error .tooManyChunks
    else validateTraceReplay parse false reader = .error (.lineTooLong 1) := by
  have hloop := @Recording.forEachLine_eq _ (replayLine parse false) r hr _ h {}
  obtain ⟨hbytes, -⟩ := r.pieces_within hr
  obtain ⟨houtputs, hraw, hchunks⟩ := r.recorded_eq hr
  have hstart : replayLine parse false 1 (TraceEvent.start r.start).json {} = .ok replayStarted := by
    rw [replayLine_json 1 {} (hparse _ List.mem_cons_self)]
    exact replayStart_start 1 r.start
  have hpieces := @stepLines_pieces parse r.pieces replayStarted
    ⟨rfl, rfl, rfl⟩ 1
    (fun event hevent => hparse _ (by
      simp only [Recording.events, houtputs, List.cons_append, List.mem_cons, List.mem_append,
        List.mem_map]
      exact Or.inr (Or.inl ⟨event, hevent, rfl⟩)))
    (fun p hp => (mem_pieces hr.reads hp).2.1)
    (List.pairwise_cons.mpr ⟨fun _ _ => Nat.zero_le _, times_pieces hr.reads _⟩)
    (by
      show 0 + _ ≤ _
      rw [Nat.zero_add]
      exact hbytes)
    (Nat.zero_le _)
  have hzero : replayStarted.expectedChunkIndex = 0 := rfl
  rw [hzero, Nat.zero_add] at hpieces
  by_cases hfits : r.StartFits
  swap
  · rw [if_neg hfits] at hloop ⊢
    rw [validateTraceReplay, hloop]
    rfl
  rw [if_pos hfits] at hloop ⊢
  split_ifs at hpieces ⊢ with hroom
  · obtain ⟨s, hs, hreplayed⟩ := hpieces
    have hend := replayEnd_finish (1 + (outputLines 0 r.pieces).length + 1) r.finish
      hreplayed.openState (by rw [hreplayed.index, hzero, Nat.zero_add]; exact hchunks)
      (by rw [hreplayed.total]; exact hraw.trans (Nat.zero_add _).symm)
      (by
        rw [Recording.finish, hraw]
        exact hbytes)
    have hfinish := @replayLine_json parse false
      (1 + (outputLines 0 r.pieces).length + 1) s (.finish r.finish)
      (hparse _ (List.mem_append_right _ (List.mem_singleton_self _)))
    simp only at hfinish
    rw [hend] at hfinish
    refine ⟨s.plan, ?_, ?_, ?_, ?_⟩
    · rw [validateTraceReplay, hloop, r.lines_eq hr, stepLines, hstart, ok_bind, stepLines_append, hs]
      show (Except.bind (Except.bind (replayLine parse false _ _ s) _) _) = _
      rw [hfinish]
      show demand (s.startSeen = true) _ >>= _ = _
      rw [demand, require_pos hreplayed.openState.startSeen, ok_bind, demand, require_pos rfl, ok_bind]
      rfl
    · rw [hreplayed.count]
      exact Nat.zero_add _
    · rw [hreplayed.total]
      exact Nat.zero_add _
    · rw [hreplayed.bytes]
      rfl
  · rw [validateTraceReplay, hloop, r.lines_eq hr, stepLines, hstart, ok_bind, stepLines_append,
      hpieces]
    rfl

/-! ## Summarizing a recording -/

/-- A line of the file, for the summary. -/
theorem summarizeLine_json (lineNumber : ℕ) (s : SummaryState) {event : TraceEvent}
    (hparse : Parses parse event) :
    summarizeLine parse lineNumber event.json s =
      let s := { s with summary.eventCount := saturatingAdd s.summary.eventCount 1 }
      match event with
      | .start _ => .ok (summarizeStart event.value s)
      | .output _ => .ok (summarizeOutput lineNumber event.value s)
      | .finish _ => .ok (summarizeEnd event.value s) := by
  rw [summarizeLine, if_neg (trim_json event), hparse]
  cases event with
  | start event => rfl
  | output event => rfl
  | finish event => rfl

/-- The counts of a summary. -/
structure Counts (s : SummaryState) (chunks bytes : ℕ) (startSeen endSeen : Bool) : Prop where
  chunks : s.summary.outputChunks = chunks
  bytes : s.summary.outputBytes = bytes
  unknown : s.summary.unknownEvents = 0
  startSeen : s.startSeen = startSeen
  endSeen : s.endSeen = endSeen

theorem summarizeOutput_piece {s : SummaryState} {chunks total : ℕ} (lineNumber : ℕ)
    (hs : Counts s chunks total true false) (event : OutputEvent) {bytes : List UInt8}
    (hhex : event.bytesHex = hexEncode bytes) (hlen : event.len = bytes.length)
    (hchunks : chunks + 1 < 2 ^ 64) (htotal : total + bytes.length < 2 ^ 64) :
    Counts (summarizeOutput lineNumber (TraceEvent.output event).value s) (chunks + 1)
      (total + bytes.length) true false := by
  obtain ⟨value, hvalue⟩ : ∃ value, value = (TraceEvent.output event).value := ⟨_, rfl⟩
  have hbytesHex : requiredTraceStr value "bytes_hex".toList lineNumber = .ok event.bytesHex := by
    rw [hvalue]; rfl
  have hlenField : value.get "len".toList = some (.scalar (.u64 event.len)) := by rw [hvalue]; rfl
  have helapsed : optionalTraceU64 value "elapsed_ms".toList = some event.elapsedMs := by
    rw [hvalue]; rfl
  have hevent : traceOutputEventLen value lineNumber = .ok event.len := by
    rw [traceOutputEventLen, hbytesHex, ok_bind, hhex, hexEncodedLen_hexEncode, ok_bind, hlenField]
    simp only [Value.asU64, bind_eq_ok, expect_eq_ok, demand, require_eq_ok, exists_unit, pure_eq_ok]
    exact ⟨event.len, rfl, hlen, rfl⟩
  rw [← hvalue, summarizeOutput, hevent]
  simp only [helapsed]
  refine ⟨?_, ?_, hs.unknown, hs.startSeen, hs.endSeen⟩
  · rw [hs.chunks, saturatingAdd_eq hchunks]
  · rw [hs.bytes, hlen, saturatingAdd_eq htotal]

/-- The pieces are counted. -/
theorem summarize_pieces {ps : List (List UInt8 × ℕ)} {s : SummaryState} {index total : ℕ}
    (hs : Counts s index total true false) (lineNumber : ℕ)
    (hparse : ∀ event ∈ outputsFrom index ps, Parses parse (.output event))
    (hchunks : index + ps.length < 2 ^ 64) (htotal : total + (pieceBytes ps).length < 2 ^ 64) :
    ∃ s', stepLines (summarizeLine parse) (outputLines index ps) lineNumber s = .ok s' ∧
      Counts s' (index + ps.length) (total + (pieceBytes ps).length) true false := by
  induction ps generalizing s index total lineNumber with
  | nil => exact ⟨s, rfl, hs⟩
  | cons p ps ih =>
    obtain ⟨bytes, elapsed⟩ := p
    obtain ⟨hparse, hparses⟩ := List.forall_mem_cons.mp hparse
    have hlen : (pieceBytes ((bytes, elapsed) :: ps)).length =
        bytes.length + (pieceBytes ps).length := by
      simp [pieceBytes]
    rw [hlen] at htotal
    rw [List.length_cons] at hchunks
    have hcounted : Counts
        { s with summary.eventCount := saturatingAdd s.summary.eventCount 1 } index total true false :=
      ⟨hs.chunks, hs.bytes, hs.unknown, hs.startSeen, hs.endSeen⟩
    have hpiece := summarizeOutput_piece (lineNumber + 1) hcounted
      ⟨index, elapsed, bytes.length, hexEncode bytes⟩ rfl rfl (by omega) (by omega)
    obtain ⟨s', hs', hcounts⟩ := ih hpiece (lineNumber + 1) hparses (by omega) (by omega)
    refine ⟨s', ?_, ?_⟩
    · rw [outputLines, outputsFrom, List.map_cons, stepLines, summarizeLine_json _ _ hparse]
      exact hs'
    · rw [List.length_cons, hlen]
      have hindex : index + 1 + ps.length = index + (ps.length + 1) := by omega
      rwa [hindex, Nat.add_assoc] at hcounts

/-- What the summary of a recording counts. -/
theorem Recording.traceFileSummary_eq {r : Recording} (hr : r.Valid)
    (hparse : ∀ event ∈ r.events, Parses parse event) {reader : List (List UInt8)}
    (h : Delivers reader (traceOutput r)) (hfits : r.StartFits) :
    ∃ summary, traceFileSummary parse reader = .ok summary ∧
      summary.outputChunks = r.pieces.length ∧
      summary.outputBytes = (pieceBytes r.pieces).length ∧ summary.unknownEvents = 0 := by
  have hloop := @Recording.forEachLine_eq _ (summarizeLine parse) r hr _ h {}
  obtain ⟨hbytes, hcount⟩ := r.pieces_within hr
  have hlimit : defaultTraceMaxBytes = 16777216 := rfl
  obtain ⟨started, hstarted, hcounts⟩ : ∃ started,
      summarizeLine parse 1 (TraceEvent.start r.start).json {} = .ok started ∧
        Counts started 0 0 true false := by
    rw [summarizeLine_json 1 {} (hparse (.start r.start) List.mem_cons_self)]
    exact ⟨_, rfl, rfl, rfl, rfl, rfl, rfl⟩
  obtain ⟨s, hs, hpieces⟩ := @summarize_pieces parse r.pieces _ _ _ hcounts 1
    (fun event hevent => hparse _ (by
      simp only [Recording.events, (r.recorded_eq hr).1, List.cons_append, List.mem_cons,
        List.mem_append, List.mem_map]
      exact Or.inr (Or.inl ⟨event, hevent, rfl⟩)))
    (by omega) (by omega)
  rw [Nat.zero_add, Nat.zero_add] at hpieces
  obtain ⟨s', hs', hfinished⟩ : ∃ s', summarizeLine parse (1 + (outputLines 0 r.pieces).length + 1)
      (TraceEvent.finish r.finish).json s = .ok s' ∧
        Counts s' r.pieces.length (pieceBytes r.pieces).length true true := by
    have hmem : TraceEvent.finish r.finish ∈ r.events :=
      List.mem_append_right _ (List.mem_singleton_self _)
    rw [summarizeLine_json _ s (hparse _ hmem)]
    simp only [summarizeEnd, hpieces.endSeen]
    exact ⟨_, rfl, hpieces.chunks, hpieces.bytes, hpieces.unknown, hpieces.startSeen, rfl⟩
  refine ⟨s'.summary, ?_, hfinished.chunks, hfinished.bytes, hfinished.unknown⟩
  rw [traceFileSummary, hloop, if_pos hfits, r.lines_eq hr, stepLines, hstarted, ok_bind,
    stepLines_append, hs]
  show (Except.bind (Except.bind (summarizeLine parse _ _ s) _) _) = _
  rw [hs']
  rfl

/-! ## What is accepted -/

/-- What holds of the state of `validate_trace_replay` after each line. -/
structure ReplayState.Within (s : ReplayState) : Prop where
  index : s.plan.chunks.length = s.expectedChunkIndex
  count : s.expectedChunkIndex ≤ maxTraceReplayChunks
  bytes : s.plan.bytes.length = s.plan.totalBytes
  total : s.plan.totalBytes ≤ maxTraceReplayTotalBytes
  times : (s.plan.chunks.map TraceReplayChunk.elapsedMs).Pairwise (· ≤ ·)
  previous : ∀ chunk ∈ s.plan.chunks, chunk.elapsedMs ≤ s.previousElapsedMs

theorem length_hexDecode {value : Str} {len : ℕ} {bytes : List UInt8}
    (hlen : hexEncodedLen value = .ok len) (hbytes : hexDecode value = .ok bytes) :
    bytes.length = len := by
  simp only [hexEncodedLen, hexDecode, demand, bind_eq_ok, require_eq_ok, exists_unit,
    pure_eq_ok] at hlen hbytes
  exact (length_hexDecodePairs hbytes.2.2).trans hlen.2.2

theorem ReplayState.Within.output {s s' : ReplayState} (hs : s.Within) {timing : Bool}
    {lineNumber : ℕ} {event : Value} (h : replayOutput timing lineNumber event s = .ok s') :
    s'.Within := by
  simp only [replayOutput, demand, bind_eq_ok, require_eq_ok, exists_unit, pure_eq_ok] at h
  obtain ⟨-, -, _, -, -, -, hroom, elapsed, -, htime, hex, -, len, hlen, -, expected, -, heq, hcap,
    bytes, hbytes, -, rfl⟩ := h
  have hdecoded := (length_hexDecode hlen hbytes).trans heq.symm
  have hmax : maxTraceReplayTotalBytes = 16777216 := rfl
  have hchunks : maxTraceReplayChunks = 16384 := rfl
  have hnext := saturatingAdd_eq (a := s.expectedChunkIndex) (b := 1) (by omega)
  have hsum : saturatingAdd s.plan.totalBytes expected = s.plan.totalBytes + expected := by
    unfold saturatingAdd at hcap ⊢
    omega
  rw [hsum] at hcap
  refine ⟨?_, ?_, ?_, ?_, ?_, ?_⟩
  · simp only [List.length_append, List.length_singleton, hs.index, hnext]
  · simp only [hnext]
    omega
  · have htotal := hs.bytes
    simp only [TraceReplayPlan.bytes] at htotal
    simp only [TraceReplayPlan.bytes, List.map_append, List.map_cons, List.map_nil,
      List.flatten_append, List.length_append, List.flatten_cons, List.flatten_nil, List.append_nil,
      htotal, hsum, hdecoded]
  · simp only [hsum]
    exact hcap
  · simp only [List.map_append, List.map_cons, List.map_nil, List.pairwise_append,
      List.mem_singleton, forall_eq, List.mem_map, forall_exists_index, and_imp,
      forall_apply_eq_imp_iff₂]
    exact ⟨hs.times, List.pairwise_singleton _ _, fun chunk hchunk =>
      (hs.previous chunk hchunk).trans htime⟩
  · intro chunk hchunk
    rcases List.mem_append.mp hchunk with hchunk | hchunk
    · exact (hs.previous chunk hchunk).trans htime
    · rw [List.mem_singleton.mp hchunk]

theorem ReplayState.Within.line {timing : Bool} {lineNumber : ℕ} {line : Str} {s s' : ReplayState}
    (hs : s.Within) (h : replayLine parse timing lineNumber line s = .ok s') : s'.Within := by
  unfold replayLine at h
  split_ifs at h with hblank
  · cases h
    exact hs
  · simp only [bind_eq_ok, expect_eq_ok] at h
    obtain ⟨event, -, eventType, -, h⟩ := h
    split_ifs at h
    · simp only [replayStart, demand, bind_eq_ok, require_eq_ok, exists_unit, pure_eq_ok] at h
      obtain ⟨-, -, -, _, -, rfl⟩ := h
      exact ⟨hs.index, hs.count, hs.bytes, hs.total, hs.times, hs.previous⟩
    · exact hs.output h
    · simp only [replayEnd, demand, bind_eq_ok, require_eq_ok, exists_unit, pure_eq_ok] at h
      obtain ⟨-, -, -, -, rfl⟩ := h
      exact ⟨hs.index, hs.count, hs.bytes, hs.total, hs.times, hs.previous⟩

/-- The plan of any file that is accepted is within the limits, and its times do not go back. -/
theorem within_validateTraceReplay {timing : Bool} {reader : List (List UInt8)}
    {plan : TraceReplayPlan} (h : validateTraceReplay parse timing reader = .ok plan) :
    plan.chunks.length ≤ maxTraceReplayChunks ∧ plan.bytes.length ≤ maxTraceReplayTotalBytes ∧
      (plan.chunks.map TraceReplayChunk.elapsedMs).Pairwise (· ≤ ·) := by
  simp only [validateTraceReplay, demand, bind_eq_ok, require_eq_ok, exists_unit, pure_eq_ok] at h
  obtain ⟨s, hs, -, -, rfl⟩ := h
  have hinit : ReplayState.Within {} :=
    ⟨rfl, Nat.zero_le _, rfl, Nat.zero_le _, List.Pairwise.nil, fun _ hchunk => absurd hchunk List.not_mem_nil⟩
  have hwithin := forEachLine_keeps (P := ReplayState.Within) (fun _ _ _ _ hs h => hs.line h) hinit hs
  exact ⟨hwithin.index.le.trans hwithin.count, hwithin.bytes.le.trans hwithin.total, hwithin.times⟩

/-! ## Recorded traces replay -/

/-- A recording is replayed exactly if its start event fits on a line and it has no more output events
than a replay may have. What is replayed then is what was read, as far as the limit of the recording
goes, in the numbers of the end event. The summary only needs the start event to fit. Whatever file is
replayed, its plan is within the limits. -/
theorem recorded_trace_replays {parse : Str → Option Value} {r : Recording} (hr : r.Valid)
    (hparse : ∀ event ∈ r.events, Parses parse event) {reader : List (List UInt8)}
    (h : Delivers reader (traceOutput r)) :
    ((∃ plan, validateTraceReplay parse false reader = .ok plan) ↔
      r.StartFits ∧ r.finish.chunksRecorded ≤ maxTraceReplayChunks) ∧
    (∀ plan, validateTraceReplay parse false reader = .ok plan →
      plan.bytes = (bytesRead r.turns).take (min (bytesRead r.turns).length r.start.maxBytes) ∧
        plan.totalBytes = r.finish.bytesRecorded ∧
        plan.chunks.length = r.finish.chunksRecorded) ∧
    (r.StartFits → ∃ summary, traceFileSummary parse reader = .ok summary ∧
      summary.outputChunks = r.finish.chunksRecorded ∧
      summary.outputBytes = r.finish.bytesRecorded ∧ summary.unknownEvents = 0) ∧
    (∀ bytes : List UInt8, bytes.length ≤ maxTraceReplayChunkBytes →
      hexDecode (hexEncode bytes) = .ok bytes) ∧
    (∀ parse timing reader plan, validateTraceReplay parse timing reader = .ok plan →
      plan.chunks.length ≤ maxTraceReplayChunks ∧ plan.bytes.length ≤ maxTraceReplayTotalBytes ∧
        (plan.chunks.map TraceReplayChunk.elapsedMs).Pairwise (· ≤ ·)) := by
  obtain ⟨-, hraw, hchunks⟩ := r.recorded_eq hr
  have hbytes : r.finish.bytesRecorded = (pieceBytes r.pieces).length := hraw
  have hcount : r.finish.chunksRecorded = r.pieces.length := hchunks
  have htaken : pieceBytes r.pieces =
      (bytesRead r.turns).take (min (bytesRead r.turns).length r.start.maxBytes) := by
    rw [Recording.pieces, pieceBytes_pieces, Nat.min_comm, ← List.take_take, List.take_length]
  have hreplay := r.validateTraceReplay_eq hr hparse h
  rw [hbytes, hcount]
  refine ⟨?_, ?_, fun hfits => r.traceFileSummary_eq hr hparse h hfits,
    fun bytes hlen => hexDecode_hexEncode hlen, fun _ _ _ _ => within_validateTraceReplay⟩
  · constructor
    · rintro ⟨plan, hplan⟩
      split_ifs at hreplay with hfits hroom
      · exact ⟨hfits, hroom⟩
      · rw [hplan] at hreplay
        cases hreplay
      · rw [hplan] at hreplay
        cases hreplay
    · rintro ⟨hfits, hroom⟩
      rw [if_pos hfits, if_pos hroom] at hreplay
      obtain ⟨plan, hplan, -⟩ := hreplay
      exact ⟨plan, hplan⟩
  · intro plan hplan
    split_ifs at hreplay with hfits hroom
    · obtain ⟨plan', hplan', hlength, htotal, hreplayed⟩ := hreplay
      rw [hplan, Except.ok.injEq] at hplan'
      rw [hplan']
      exact ⟨hreplayed.trans htaken, htotal, hlength⟩
    · rw [hplan] at hreplay
      cases hreplay
    · rw [hplan] at hreplay
      cases hreplay

/-! ### A parser of what was recorded -/

/-- The parser that knows the texts of these events. -/
def tableParse (events : List TraceEvent) (text : Str) : Option Value :=
  (events.find? fun event => event.json = text).map TraceEvent.value

theorem parses_tableParse {events : List TraceEvent}
    (h : events.Pairwise fun event event' => event.json ≠ event'.json) :
    ∀ event ∈ events, Parses (tableParse events) event := by
  induction events with
  | nil => exact fun event hevent => nomatch hevent
  | cons first events ih =>
    obtain ⟨hfirst, hevents⟩ := List.pairwise_cons.mp h
    intro event hevent
    rcases List.mem_cons.mp hevent with rfl | hevent
    · simp [Parses, tableParse]
    · have hne := hfirst event hevent
      have hfound := ih hevents event hevent
      simp only [Parses, tableParse] at hfound ⊢
      rw [List.find?_cons_of_neg (by simpa using hne)]
      exact hfound

theorem output_json (event : OutputEvent) : ∃ rest, (TraceEvent.output event).json =
    "\x7b\"type\":\"output\",\"chunk_index\":".toList ++
      (Nat.toDigits 10 event.chunkIndex ++ ',' :: rest) := by
  refine ⟨writeMembers ((TraceEvent.output event).members.drop 2) ++ ['\x7d'], ?_⟩
  show ("\x7b\"type\":\"output\",\"chunk_index\":".toList ++ Nat.toDigits 10 event.chunkIndex ++
    ',' :: writeMembers ((TraceEvent.output event).members.drop 2)) ++ ['\x7d'] = _
  rw [List.append_assoc, List.append_assoc]
  rfl

/-- The text of an output event tells its index. -/
theorem chunkIndex_eq_of_json {event event' : OutputEvent}
    (h : (TraceEvent.output event).json = (TraceEvent.output event').json) :
    event.chunkIndex = event'.chunkIndex := by
  have hdigits (n : ℕ) (rest : List Char) :
      (Nat.toDigits 10 n ++ ',' :: rest).takeWhile Char.isDigit = Nat.toDigits 10 n := by
    rw [List.takeWhile_append_of_pos fun ch hch =>
      Nat.isDigit_of_mem_toDigits (by decide) (by decide) hch]
    simp [Char.isDigit]
  obtain ⟨rest, hjson⟩ := output_json event
  obtain ⟨rest', hjson'⟩ := output_json event'
  rw [hjson, hjson', List.append_cancel_left_eq] at h
  have hsame := congrArg (List.takeWhile Char.isDigit) h
  rw [hdigits, hdigits] at hsame
  rw [← Nat.ofDigitChars_ten_toDigits (n := event.chunkIndex), hsame, Nat.ofDigitChars_ten_toDigits]

/-- Texts of events of different kinds differ in their tenth character. -/
theorem json_kind (event : TraceEvent) : event.json[9]? =
    match event with
    | .start _ => some 's'
    | .output _ => some 'o'
    | .finish _ => some 'e' := by
  cases event with
  | start event => rfl
  | output event => rfl
  | finish event => rfl

/-- Each event of a recording has its own text. -/
theorem Recording.tableParse_parses {r : Recording} (hr : r.Valid) :
    ∀ event ∈ r.events, Parses (tableParse r.events) event := by
  have hkinds {event event' : TraceEvent} (h : event.json[9]? ≠ event'.json[9]?) :
      event.json ≠ event'.json := fun heq => h (by rw [heq])
  refine parses_tableParse ?_
  rw [Recording.events, (r.recorded_eq hr).1, List.cons_append, List.pairwise_cons,
    List.pairwise_append]
  refine ⟨fun event hevent => hkinds ?_, ?_, List.pairwise_singleton _ _, ?_⟩
  · rw [json_kind, json_kind]
    rcases List.mem_append.mp hevent with hevent | hevent
    · obtain ⟨output, -, rfl⟩ := List.mem_map.mp hevent
      simp
    · rw [List.mem_singleton.mp hevent]
      simp
  · rw [List.pairwise_map]
    have hsorted (index : ℕ) (ps : List (List UInt8 × ℕ)) :
        (outputsFrom index ps).Pairwise fun event event' => event.chunkIndex < event'.chunkIndex := by
      induction ps generalizing index with
      | nil => exact List.Pairwise.nil
      | cons p ps ih =>
        exact List.pairwise_cons.mpr
          ⟨fun event hevent => (mem_outputsFrom hevent).1, ih (index + 1)⟩
    exact (hsorted 0 r.pieces).imp fun hlt heq => absurd (chunkIndex_eq_of_json heq) (by omega)
  · intro event hevent event' hevent'
    obtain ⟨output, -, rfl⟩ := List.mem_map.mp hevent
    rw [List.mem_singleton.mp hevent']
    refine hkinds ?_
    rw [json_kind, json_kind]
    simp

theorem delivers_traceOutput (r : Recording) : Delivers [traceOutput r] (traceOutput r) := by
  refine ⟨List.flatten_singleton, fun hmem => ?_⟩
  have hnil := List.mem_singleton.mp hmem
  rw [r.traceOutput_eq, Recording.lines, Recording.events, fileOf, List.cons_append, List.map_cons,
    List.flatMap_cons] at hnil
  simp at hnil

/-- A start event. -/
def sampleStart (target : Str) (maxBytes : ℕ) : StartEvent where
  traceId := "67e55044-10b1-426f-9247-bb680e5fe0c8".toList
  target := target
  createdAtUnixMs := some 1700000000000
  durationMs := 30000
  maxBytes := maxBytes
  rows := 24
  cols := 80

/-- Two reads, the second of which is cut off by the limit. -/
def sampleRecording : Recording where
  start := sampleStart "work".toList 4
  turns := [.retry, .data [0x68, 0x69, 0x0a] 3, .data [0x6f, 0x6b] 5]
  elapsed := 5

theorem sampleRecording_replays :
    (∃ plan, validateTraceReplay (tableParse sampleRecording.events) false
      [traceOutput sampleRecording] = .ok plan ∧ plan.bytes = [0x68, 0x69, 0x0a, 0x6f]) ∧
    hexDecode (hexEncode [0x1b, 0x5b]) = .ok [0x1b, 0x5b] := by
  have hvalid : sampleRecording.Valid :=
    ⟨by decide, by decide, ⟨by rintro bytes elapsed (_ | ⟨_, _ | ⟨_, _ | ⟨_, ⟨⟩⟩⟩⟩) <;> decide, by decide⟩⟩
  obtain ⟨haccepted, hplan, -, hhex, -⟩ := recorded_trace_replays hvalid
    (Recording.tableParse_parses hvalid) (delivers_traceOutput sampleRecording)
  obtain ⟨plan, hreplayed⟩ := haccepted.mpr ⟨by decide +kernel, by decide +kernel⟩
  exact ⟨⟨plan, hreplayed, (hplan plan hreplayed).1⟩, hhex _ (by decide)⟩

/-! ### Recordings that are not replayed -/

/-- So many reads of one byte. -/
def manyReads (reads : ℕ) : Recording where
  start := sampleStart "work".toList defaultTraceMaxBytes
  turns := List.replicate reads (.data [0] 0)
  elapsed := 0

/-- The name of a session and so many blanks, which are trimmed, as the target. -/
def longTarget (blanks : ℕ) : Recording where
  start := sampleStart ("work".toList ++ List.replicate blanks ' ') defaultTraceMaxBytes
  turns := [.eof]
  elapsed := 0

set_option maxRecDepth 4000 in
theorem startFits_manyReads (reads : ℕ) : (manyReads reads).StartFits := by
  show (writeTraceEvent (.start (sampleStart "work".toList defaultTraceMaxBytes))).length ≤ _
  decide

theorem pieces_replicate {n room : ℕ} (h : n ≤ room) :
    (pieces room (List.replicate n (.data [0] 0))).length = n := by
  induction n generalizing room with
  | zero => rfl
  | succ n ih =>
    have hroom : room ≠ 0 := by omega
    simp only [List.replicate_succ, pieces, if_neg hroom, List.length_cons, List.length_nil]
    rw [ih (by omega)]

theorem readTimes_replicate (n : ℕ) :
    readTimes (List.replicate n (.data [0] 0)) = List.replicate n 0 := by
  induction n with
  | zero => rfl
  | succ n ih => rw [List.replicate_succ, readTimes, ih, List.replicate_succ]

theorem valid_manyReads (reads : ℕ) : (manyReads reads).Valid := by
  refine ⟨Nat.zero_lt_succ 16777215, Nat.le_refl defaultTraceMaxBytes,
    ⟨fun bytes elapsed hmem => ?_, ?_⟩⟩
  · obtain ⟨-, heq⟩ := List.mem_replicate.mp hmem
    cases heq
    decide
  · rw [manyReads, readTimes_replicate]
    exact List.pairwise_replicate.mpr (Or.inr (Nat.le_refl 0))

theorem valid_longTarget (blanks : ℕ) : (longTarget blanks).Valid := by
  refine ⟨Nat.zero_lt_succ 16777215, Nat.le_refl defaultTraceMaxBytes,
    ⟨fun bytes elapsed hmem => ?_, List.Pairwise.nil⟩⟩
  cases List.mem_singleton.mp hmem

/-- A start event takes more than the target. -/
theorem length_start_ge (event : StartEvent) :
    event.target.length + 146 ≤ (Utf8.encode (TraceEvent.start event).json).length := by
  have hwritten := length_le_writeString event.target
  have hmembers := le_length_writeMembers (TraceEvent.start event).members
  have hbytes := length_le_encode (TraceEvent.start event).json
  have hjson : (TraceEvent.start event).json.length =
      (writeMembers (TraceEvent.start event).members).length + 2 := by
    simp only [TraceEvent.json, writeObject, List.length_append, List.length_cons, List.length_nil]
  have htext : (Scalar.string event.target).write = writeString event.target := rfl
  generalize (writeMembers (TraceEvent.start event).members).length = total at hmembers hjson
  simp [TraceEvent.members, htext] at hmembers
  omega

theorem not_startFits_longTarget {blanks : ℕ} (h : maxTraceJsonlLineBytes ≤ blanks + 150) :
    ¬ (longTarget blanks).StartFits := by
  have htarget : (longTarget blanks).start.target.length = 4 + blanks := by
    show ("work".toList ++ List.replicate blanks ' ').length = 4 + blanks
    rw [List.length_append, List.length_replicate]
    rfl
  have hlong := length_start_ge (longTarget blanks).start
  rw [Recording.startFits_iff]
  omega

/-- The two recordings of a valid one that the replay rejects. -/
theorem Recording.validateTraceReplay_rejects {r : Recording} (hr : r.Valid)
    (hparse : ∀ event ∈ r.events, Parses parse event) {reader : List (List UInt8)}
    (h : Delivers reader (traceOutput r)) :
    (r.StartFits → maxTraceReplayChunks < r.pieces.length →
      validateTraceReplay parse false reader = .error .tooManyChunks) ∧
    (¬ r.StartFits → validateTraceReplay parse false reader = .error (.lineTooLong 1)) := by
  have hreplay := r.validateTraceReplay_eq hr hparse h
  refine ⟨fun hfits hcount => ?_, fun hfits => ?_⟩
  · rwa [if_pos hfits, if_neg (by omega)] at hreplay
  · rwa [if_neg hfits] at hreplay

theorem manyReads_rejected {reads : ℕ} (h : maxTraceReplayChunks < reads)
    (hlimit : reads ≤ defaultTraceMaxBytes) :
    validateTraceReplay (tableParse (manyReads reads).events) false [traceOutput (manyReads reads)] =
      .error .tooManyChunks := by
  have hcount : (manyReads reads).pieces.length = reads := pieces_replicate hlimit
  have hrejects := Recording.validateTraceReplay_rejects (valid_manyReads reads)
    (Recording.tableParse_parses (valid_manyReads reads)) (delivers_traceOutput (manyReads reads))
  exact hrejects.1 (startFits_manyReads reads) (by omega)

theorem longTarget_rejected {blanks : ℕ} (h : maxTraceJsonlLineBytes ≤ blanks + 150) :
    validateTraceReplay (tableParse (longTarget blanks).events) false
      [traceOutput (longTarget blanks)] = .error (.lineTooLong 1) := by
  have hrejects := Recording.validateTraceReplay_rejects (valid_longTarget blanks)
    (Recording.tableParse_parses (valid_longTarget blanks))
    (delivers_traceOutput (longTarget blanks))
  exact hrejects.2 (not_startFits_longTarget h)

/-- Two recordings that are not replayed, though the parser gives back each of their events: one of
16385 output events, and one whose target fits in the request for the session but, with the rest of the
start event, not on a line. -/
theorem recordings_not_replayed :
    ((manyReads 16385).Valid ∧
      (∀ event ∈ (manyReads 16385).events, Parses (tableParse (manyReads 16385).events) event) ∧
      Delivers [traceOutput (manyReads 16385)] (traceOutput (manyReads 16385)) ∧
      validateTraceReplay (tableParse (manyReads 16385).events) false
        [traceOutput (manyReads 16385)] = .error .tooManyChunks) ∧
    ((longTarget 1048440).Valid ∧
      (∀ event ∈ (longTarget 1048440).events,
        Parses (tableParse (longTarget 1048440).events) event) ∧
      Delivers [traceOutput (longTarget 1048440)] (traceOutput (longTarget 1048440)) ∧
      validateTraceReplay (tableParse (longTarget 1048440).events) false
        [traceOutput (longTarget 1048440)] = .error (.lineTooLong 1)) := by
  have hchunks : maxTraceReplayChunks = 16384 := rfl
  have hlimit : defaultTraceMaxBytes = 16777216 := rfl
  have hline : maxTraceJsonlLineBytes = 1048576 := rfl
  exact ⟨⟨valid_manyReads _, Recording.tableParse_parses (valid_manyReads _), delivers_traceOutput _,
      manyReads_rejected (by omega) (by omega)⟩,
    valid_longTarget _, Recording.tableParse_parses (valid_longTarget _), delivers_traceOutput _,
    longTarget_rejected (by omega)⟩

end LightTerminal.Client.Trace
