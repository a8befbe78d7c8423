import LightTerminal.Library.StreamSearch
import LightTerminal.Output.Ring
import LightTerminal.Sanitize.Chunks

/-! # Waiting for a text in the output

`wait_for_session_contains` polls a `WaitContainsScanner`, which looks for a needle in the
sanitized output. A poll either scans the selected part of the ring from scratch, or only the bytes
that came since the last poll: it keeps the sanitizer's state and the end of the text scanned so
far, up to one byte less than the needle, cut at a character boundary.

Seen from the whole output stream, the ring is its end, and the bytes selected by `start` are
`stream.drop startTotal`. The invariant of the scanner (`Tracks`) says what it remembers in terms of
the stream: the text of the bytes from `lastStartTotal` to `lastTotalBytes` does not contain the
needle, the saved state is the sanitizer's after that text, and the saved tail is the longest
suffix of it that is shorter than the needle. A poll that may scan incrementally continues that
text (`incremental_eq`), so every poll answers as a full rescan would (`polls_eq_rescan`). -/

namespace LightTerminal.Output.Scanner

open LightTerminal.Library.StreamSearch LightTerminal.Output.Ring
open LightTerminal.Sanitize.Capture LightTerminal.Sanitize.Chunks

/-! ### Strings and their bytes -/

/-- `str::len`, in bytes. -/
def strLen (text : List Char) : ℕ := weight Char.utf8Size text

/-- `str::contains`. -/
def strContains (text needle : List Char) : Bool := decide (needle <:+: text)

/-- `str::is_char_boundary`. -/
def isCharBoundary : List Char → ℕ → Bool
  | _, 0 => true
  | [], _ + 1 => false
  | ch :: text, index => ch.utf8Size ≤ index && isCharBoundary text (index - ch.utf8Size)

/-- `&text[start..]`, for `start` at a character boundary. -/
def sliceFrom : List Char → ℕ → List Char
  | text, 0 => text
  | [], _ + 1 => []
  | ch :: text, start => sliceFrom text (start - ch.utf8Size)

/-- The loop `while !text.is_char_boundary(start) { start += 1 }`. It stops at the end of the text
at the latest, `fuel` bytes on. -/
def nextCharBoundary (text : List Char) : ℕ → ℕ → ℕ
  | 0, start => start
  | fuel + 1, start =>
    if isCharBoundary text start then start else nextCharBoundary text fuel (start + 1)

/-- `sanitized_tail_for_needle`. -/
def sanitizedTailForNeedle (text needle : List Char) : List Char :=
  let maxBytes := strLen needle - 1
  if maxBytes = 0 then []
  else if strLen text ≤ maxBytes then text
  else sliceFrom text (nextCharBoundary text maxBytes (strLen text - maxBytes))

/-! ### The scanner -/

/-- `WaitContainsScanner`, without its test counters. -/
structure WaitContainsScanner where
  initialized : Bool := false
  lastTotalBytes : ℕ := 0
  lastStart : Option ℤ := none
  lastStartTotal : ℕ := 0
  sanitizedTail : List Char := []
  sanitizerState : TerminalCaptureState := .default

/-- Whether a poll must scan from scratch. -/
def WaitContainsScanner.needsFullScan (self : WaitContainsScanner) (ring : List UInt8)
    (totalBytes : ℕ) (start : Option ℤ) (startTotal : ℕ) : Bool :=
  !self.initialized || self.lastStart ≠ start || self.lastStartTotal ≠ startTotal ||
    self.lastTotalBytes < totalBytes - ring.length || self.lastTotalBytes < startTotal ||
    totalBytes < self.lastTotalBytes

/-- What a poll finds: whether it matched, the sanitizer's next state, and the text it searched. -/
def WaitContainsScanner.scan (self : WaitContainsScanner) (ring : List UInt8) (totalBytes : ℕ)
    (start : Option ℤ) (startTotal : ℕ) (needle : List Char) :
    Bool × TerminalCaptureState × List Char :=
  if self.needsFullScan ring totalBytes start startTotal then
    let bytes := copyRingBytesFromTotal ring totalBytes startTotal
    let (sanitized, state) := terminalCaptureFromState bytes .default
    (strContains sanitized needle, state, sanitized)
  else
    let newStart := self.lastTotalBytes - (totalBytes - ring.length)
    let bytes := ring.drop newStart
    let (sanitizedDelta, state) := terminalCaptureFromState bytes self.sanitizerState
    let searchable := self.sanitizedTail ++ sanitizedDelta
    (strContains searchable needle, state, searchable)

/-- `contains_from_start`. -/
def WaitContainsScanner.containsFromStart (self : WaitContainsScanner) (ring : List UInt8)
    (totalBytes : ℕ) (start : Option ℤ) (startTotal : ℕ) (needle : List Char) :
    Bool × WaitContainsScanner :=
  let (matched, nextState, searchableTail) := self.scan ring totalBytes start startTotal needle
  if matched then (matched, self)
  else
    (matched,
      { initialized := true
        lastTotalBytes := totalBytes
        lastStart := start
        lastStartTotal := startTotal
        sanitizerState := nextState
        sanitizedTail := sanitizedTailForNeedle searchableTail needle })

/-- `contains`. -/
def WaitContainsScanner.contains (self : WaitContainsScanner) (ring : List UInt8)
    (totalBytes : ℕ) (start : Option ℤ) (needle : List Char) : Bool × WaitContainsScanner :=
  self.containsFromStart ring totalBytes start (captureStartTotalFromRing ring totalBytes start)
    needle

/-! ### The kept tail is the longest one shorter than the needle -/

/-- At a boundary past the first character, the boundary is one of the rest. -/
theorem isCharBoundary_cons {ch : Char} {text : List Char} {index : ℕ} (h : 0 < index) :
    isCharBoundary (ch :: text) index =
      (decide (ch.utf8Size ≤ index) && isCharBoundary text (index - ch.utf8Size)) := by
  obtain ⟨n, rfl⟩ : ∃ n, index = n + 1 := ⟨index - 1, by omega⟩
  rfl

theorem sliceFrom_cons {ch : Char} {text : List Char} {start : ℕ} (h : 0 < start) :
    sliceFrom (ch :: text) start = sliceFrom text (start - ch.utf8Size) := by
  obtain ⟨n, rfl⟩ : ∃ n, start = n + 1 := ⟨start - 1, by omega⟩
  rfl

/-- Inside the first character there is no boundary: the search goes on to its end. -/
theorem nextCharBoundary_inside {ch : Char} {text : List Char} :
    ∀ (fuel start : ℕ), 0 < start → start ≤ ch.utf8Size →
      ch.utf8Size ≤ start + fuel →
        nextCharBoundary (ch :: text) fuel start =
          nextCharBoundary (ch :: text) (fuel - (ch.utf8Size - start)) ch.utf8Size
  | 0, start, _, hle, hfuel => by
    rw [show start = ch.utf8Size by omega]; simp
  | fuel + 1, start, hpos, hle, hfuel => by
    rcases Nat.eq_or_lt_of_le hle with rfl | hlt
    · simp
    · rw [nextCharBoundary, isCharBoundary_cons hpos,
        decide_eq_false (by omega : ¬ ch.utf8Size ≤ start), Bool.false_and, if_neg (by simp),
        nextCharBoundary_inside fuel (start + 1) (by omega) (by omega) (by omega)]
      congr 1
      omega

/-- Past the first character the search is the one in the rest. -/
theorem nextCharBoundary_past {ch : Char} {text : List Char} :
    ∀ (fuel start : ℕ), ch.utf8Size ≤ start →
      nextCharBoundary (ch :: text) fuel start =
        nextCharBoundary text fuel (start - ch.utf8Size) + ch.utf8Size
  | 0, start, h => by simp only [nextCharBoundary]; omega
  | fuel + 1, start, h => by
    have hpos : 0 < start := lt_of_lt_of_le (Char.utf8Size_pos ch) h
    rw [nextCharBoundary, nextCharBoundary, isCharBoundary_cons hpos, decide_eq_true h,
      Bool.true_and]
    split_ifs
    · omega
    · rw [nextCharBoundary_past fuel (start + 1) (by omega),
        show start + 1 - ch.utf8Size = start - ch.utf8Size + 1 by omega]

/-- Cutting `maxBytes` before the end, at the next boundary, leaves the longest suffix of at most
`maxBytes` bytes. -/
theorem sliceFrom_nextCharBoundary (maxBytes : ℕ) : ∀ text : List Char, maxBytes ≤ strLen text →
    sliceFrom text (nextCharBoundary text maxBytes (strLen text - maxBytes)) =
      tailWithin Char.utf8Size maxBytes text
  | [], h => by
    obtain rfl : maxBytes = 0 := by simpa [strLen] using h
    rfl
  | ch :: text, h => by
    have hpos := Char.utf8Size_pos ch
    have hlen : strLen (ch :: text) = ch.utf8Size + strLen text := weight_cons ch text
    rcases Nat.eq_or_lt_of_le h with heq | hlt
    · -- the whole text fits, and its beginning is a boundary
      have hzero : nextCharBoundary (ch :: text) maxBytes 0 = 0 := by
        cases maxBytes <;> simp [nextCharBoundary, isCharBoundary]
      rw [heq, Nat.sub_self, ← heq, hzero, tailWithin_of_le (by exact heq.ge)]
      rfl
    · rw [tailWithin_cons_of_lt hlt]
      by_cases hin : maxBytes ≤ strLen text
      · -- the cut lies past the first character
        rw [nextCharBoundary_past _ _ (by omega), sliceFrom_cons (by omega), Nat.add_sub_cancel,
          show strLen (ch :: text) - maxBytes - ch.utf8Size = strLen text - maxBytes by omega]
        exact sliceFrom_nextCharBoundary maxBytes text hin
      · -- the cut lies inside the first character, and moves to its end
        have hzero : ∀ fuel, nextCharBoundary text fuel 0 = 0 := by
          intro fuel; cases fuel <;> simp [nextCharBoundary, isCharBoundary]
        rw [nextCharBoundary_inside _ _ (by omega) (by omega) (by omega),
          nextCharBoundary_past _ _ le_rfl, Nat.sub_self, hzero, Nat.zero_add,
          sliceFrom_cons hpos, Nat.sub_self, tailWithin_of_le (by unfold strLen at hin; omega)]
        cases text <;> rfl

/-- **The kept tail**: the longest suffix of the text with fewer bytes than the needle. -/
theorem sanitizedTailForNeedle_eq (text needle : List Char) :
    sanitizedTailForNeedle text needle = tailWithin Char.utf8Size (strLen needle - 1) text := by
  unfold sanitizedTailForNeedle
  simp only
  split_ifs with h0 hle
  · rw [h0]
    by_contra hne
    have hpos := weight_pos (w := Char.utf8Size) Char.utf8Size_pos (Ne.symm hne)
    have hle := weight_tailWithin_le (w := Char.utf8Size) 0 text
    omega
  · exact (tailWithin_of_le hle).symm
  · exact sliceFrom_nextCharBoundary _ text (by omega)

/-! ### The invariant -/

/-- The text of the stream's bytes from position `a` to position `b`, sanitized from scratch, and
the state the sanitizer is in after it. -/
def textBetween (stream : List UInt8) (a b : ℕ) : List Char × TerminalCaptureState :=
  terminalCaptureFromState ((stream.take b).drop a) .default

/-- What an initialized scanner remembers of the stream. -/
structure Remembers (needle : List Char) (stream : List UInt8) (scanner : WaitContainsScanner) :
    Prop where
  start_le : scanner.lastStartTotal ≤ scanner.lastTotalBytes
  total_le : scanner.lastTotalBytes ≤ stream.length
  absent : ¬ needle <:+: (textBetween stream scanner.lastStartTotal scanner.lastTotalBytes).1
  state : scanner.sanitizerState =
    (textBetween stream scanner.lastStartTotal scanner.lastTotalBytes).2
  tail : scanner.sanitizedTail = tailWithin Char.utf8Size (strLen needle - 1)
    (textBetween stream scanner.lastStartTotal scanner.lastTotalBytes).1

/-- **The invariant**: an initialized scanner remembers the stream up to its last poll. -/
def Tracks (needle : List Char) (stream : List UInt8) (scanner : WaitContainsScanner) : Prop :=
  scanner.initialized = true → Remembers needle stream scanner

theorem textBetween_append {stream : List UInt8} {a b : ℕ} (hb : b ≤ stream.length)
    (more : List UInt8) : textBetween (stream ++ more) a b = textBetween stream a b := by
  unfold textBetween
  rw [List.take_append_of_le_length hb]

/-- More output does not change what the scanner remembers. -/
theorem Tracks.append {needle : List Char} {stream : List UInt8} {scanner : WaitContainsScanner}
    (h : Tracks needle stream scanner) (more : List UInt8) :
    Tracks needle (stream ++ more) scanner := by
  intro hinit
  have hr := h hinit
  have heq := textBetween_append (a := scanner.lastStartTotal) hr.total_le more
  exact ⟨hr.start_le, by rw [List.length_append]; have := hr.total_le; omega,
    by rw [heq]; exact hr.absent, by rw [heq]; exact hr.state, by rw [heq]; exact hr.tail⟩

/-- The text up to the end of the stream continues the text up to `b`. -/
theorem textBetween_continue {stream : List UInt8} {a b : ℕ} (hab : a ≤ b)
    (hb : b ≤ stream.length) :
    textBetween stream a stream.length =
      ((textBetween stream a b).1 ++
          (terminalCaptureFromState (stream.drop b) (textBetween stream a b).2).1,
        (terminalCaptureFromState (stream.drop b) (textBetween stream a b).2).2) := by
  have hsplit : (stream.take stream.length).drop a = (stream.take b).drop a ++ stream.drop b := by
    rw [List.take_length]
    conv_lhs => rw [← List.take_append_drop b stream]
    rw [List.drop_append_of_le_length (by rw [List.length_take]; omega)]
  unfold textBetween
  rw [hsplit, terminalCapture_append]

section Poll
variable {needle : List Char} {stream : List UInt8} {scanner : WaitContainsScanner}

/-- A full scan reads the stream from the start position on. -/
theorem copyRingBytesFromTotal_retained {startTotal : ℕ}
    (h : stream.length - (retained stream).length ≤ startTotal) :
    copyRingBytesFromTotal (retained stream) stream.length startTotal =
      (stream.take stream.length).drop startTotal := by
  have hlen := length_retained stream
  unfold copyRingBytesFromTotal
  rw [List.take_length, ← drop_retained h]
  rcases Nat.lt_or_ge (startTotal - (stream.length - (retained stream).length))
    (retained stream).length with hlt | hge
  · rw [min_eq_left hlt.le]
  · rw [min_eq_right hge, List.drop_eq_nil_of_le le_rfl, List.drop_eq_nil_of_le hge]

/-- An incremental scan continues the remembered text: it finds the needle exactly if the text up
to now contains it. -/
theorem incremental_eq (hr : Remembers needle stream scanner) :
    let delta := terminalCaptureFromState (stream.drop scanner.lastTotalBytes)
      scanner.sanitizerState
    let text := textBetween stream scanner.lastStartTotal stream.length
    strContains (scanner.sanitizedTail ++ delta.1) needle = strContains text.1 needle ∧
      delta.2 = text.2 ∧
      sanitizedTailForNeedle (scanner.sanitizedTail ++ delta.1) needle =
        tailWithin Char.utf8Size (strLen needle - 1) text.1 := by
  intro delta text
  have htext : text = _ := textBetween_continue hr.start_le hr.total_le
  rw [← hr.state] at htext
  refine ⟨?_, by rw [htext], ?_⟩
  · unfold strContains
    rw [htext, hr.tail]
    exact decide_eq_decide.mpr
      (isInfix_append_iff Char.utf8Size_pos delta.1 hr.absent).symm
  · rw [sanitizedTailForNeedle_eq, htext, hr.tail]
    exact tailWithin_append _ _ _

/-- **One scan**, full or incremental, finds what the text from the start position holds. -/
theorem scan_eq (h : Tracks needle stream scanner) (start : Option ℤ) {startTotal : ℕ}
    (hstart : stream.length - (retained stream).length ≤ startTotal)
    {matched : Bool} {state : TerminalCaptureState} {searched : List Char}
    (hs : scanner.scan (retained stream) stream.length start startTotal needle =
      (matched, state, searched)) :
    matched = strContains (textBetween stream startTotal stream.length).1 needle ∧
      state = (textBetween stream startTotal stream.length).2 ∧
      sanitizedTailForNeedle searched needle =
        tailWithin Char.utf8Size (strLen needle - 1)
          (textBetween stream startTotal stream.length).1 := by
  unfold WaitContainsScanner.scan at hs
  split_ifs at hs with hfull
  · rw [copyRingBytesFromTotal_retained hstart] at hs
    simp only [Prod.mk.injEq] at hs
    obtain ⟨rfl, rfl, rfl⟩ := hs
    exact ⟨rfl, rfl, sanitizedTailForNeedle_eq _ _⟩
  · simp only [WaitContainsScanner.needsFullScan, Bool.or_eq_true, Bool.not_eq_true',
      decide_eq_true_eq, not_or, not_not, not_lt, Bool.not_eq_false] at hfull
    obtain ⟨⟨⟨⟨⟨hinit, -⟩, hst⟩, hring⟩, -⟩, -⟩ := hfull
    have hr := h hinit
    simp only [drop_retained hring] at hs
    simp only [Prod.mk.injEq] at hs
    obtain ⟨rfl, rfl, rfl⟩ := hs
    rw [← hst]
    exact incremental_eq hr

/-- **One poll** answers as a full rescan, and keeps the invariant. -/
theorem contains_eq (h : Tracks needle stream scanner) (start : Option ℤ) :
    (scanner.contains (retained stream) stream.length start needle).1 =
        strContains (terminalCaptureFromState
          (captureBytesFromRing (retained stream) start none) .default).1 needle ∧
      Tracks needle stream
        (scanner.contains (retained stream) stream.length start needle).2 := by
  have hlen : (retained stream).length ≤ stream.length := by rw [length_retained]; omega
  obtain ⟨hlo, hhi⟩ := captureStartTotalFromRing_bounds hlen start
  have hbytes := copyRingBytesFromTotal_start hlen start
  rw [copyRingBytesFromTotal_retained hlo] at hbytes
  unfold WaitContainsScanner.contains WaitContainsScanner.containsFromStart
  rcases hs : scanner.scan (retained stream) stream.length start
    (captureStartTotalFromRing (retained stream) stream.length start) needle with
    ⟨matched, state, searched⟩
  obtain ⟨hm, hstate, htail⟩ := scan_eq h start hlo hs
  rw [← hbytes]
  simp only
  split_ifs with hfound
  · exact ⟨hm, h⟩
  · refine ⟨hm, fun _ => ⟨hhi, le_rfl, ?_, hstate, htail⟩⟩
    rw [hm] at hfound
    simpa [strContains] using hfound

end Poll

/-! ### Whole runs -/

/-- What happens while a client waits: the session appends a chunk of output, or the scanner is
polled. -/
inductive Event where
  | append (chunk : List UInt8)
  | poll (start : Option ℤ)

/-- A poll of a run: the ring at that moment, where the capture starts, and the answer. -/
structure Poll where
  ring : List UInt8
  start : Option ℤ
  matched : Bool
  deriving DecidableEq

/-- The polls of a run from the given ring, byte count and scanner. -/
def polls (needle : List Char) : List UInt8 → ℕ → WaitContainsScanner → List Event → List Poll
  | _, _, _, [] => []
  | ring, totalBytes, scanner, .append chunk :: events =>
    polls needle (appendRingBytes ring chunk) (totalBytes + chunk.length) scanner events
  | ring, totalBytes, scanner, .poll start :: events =>
    let (matched, scanner) := scanner.contains ring totalBytes start needle
    ⟨ring, start, matched⟩ :: polls needle ring totalBytes scanner events

theorem polls_of_tracks (needle : List Char) : ∀ (events : List Event) (stream : List UInt8)
    (scanner : WaitContainsScanner), Tracks needle stream scanner →
      ∀ p ∈ polls needle (retained stream) stream.length scanner events,
        p.matched = strContains (terminalCaptureFromState
          (captureBytesFromRing p.ring p.start none) .default).1 needle
  | [], _, _, _, p, hp => by simp [polls] at hp
  | .append chunk :: events, stream, scanner, h, p, hp => by
    rw [polls, appendRingBytes_retained, ← List.length_append] at hp
    exact polls_of_tracks needle events (stream ++ chunk) scanner (h.append chunk) p hp
  | .poll start :: events, stream, scanner, h, p, hp => by
    obtain ⟨hm, ht⟩ := contains_eq h start
    rw [polls] at hp
    rcases List.mem_cons.mp hp with rfl | hp
    · exact hm
    · exact polls_of_tracks needle events stream _ ht p hp

/-- **Incremental scanning equals a full rescan.** In every run of appended chunks and polls, each
poll, wherever its capture starts and also after a poll that matched, answers whether the text
sanitized from scratch from the captured part of the ring contains the needle. Without a start the
captured part is the whole ring. -/
theorem polls_eq_rescan (needle : List Char) (events : List Event) :
    ∀ p ∈ polls needle [] 0 {} events,
      p.matched = strContains (terminalCaptureFromState
        (captureBytesFromRing p.ring p.start none) .default).1 needle ∧
      (p.start = none → captureBytesFromRing p.ring p.start none = p.ring) := by
  intro p hp
  have hfresh : Tracks needle [] {} := fun h => by cases h
  refine ⟨polls_of_tracks needle events [] {} hfresh p ?_, fun hnone => ?_⟩
  · rw [retained_nil]; exact hp
  · rw [hnone]
    exact captureBytesFromRing_none p.ring

/-- A needle cut by a poll is found by the next one. -/
theorem polls_eq_rescan_split :
    let events : List Event := [.append [97, 98], .poll none, .append [99], .poll none]
    ∃ p ∈ polls ['b', 'c'] [] 0 {} events, p.matched = true ∧
      strContains (terminalCaptureFromState p.ring .default).1 ['b', 'c'] = true := by
  intro events
  have hpoll : ⟨[97, 98, 99], none, true⟩ ∈ polls ['b', 'c'] [] 0 {} events := by
    decide +kernel
  obtain ⟨hmatched, hring⟩ := polls_eq_rescan ['b', 'c'] events _ hpoll
  rw [hring rfl] at hmatched
  exact ⟨_, hpoll, rfl, hmatched.symm⟩

end LightTerminal.Output.Scanner
