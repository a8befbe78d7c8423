import LightTerminal.Library.Lines
import LightTerminal.Library.Procedure
import LightTerminal.Library.Utf8

/-! # Request frames

A request is one line of the socket's stream (`read_request_frame_with_limit`). The stream comes in chunks
of at most 8192 bytes; what a chunk holds behind the line is kept for the PTY, for it is input of an
attached client. -/

namespace LightTerminal.Server.Framing

open LightTerminal.Library LightTerminal.Library.Procedure

/-- Why there is no frame. -/
inductive FrameError where
  | timedOut
  | timeoutUnset
  | unreadable
  | exceeded (maxRequestBytes : UInt64)
  | missingNewline
  | notUtf8
  deriving DecidableEq, Repr

/-- The texts of the errors. -/
def FrameError.text : FrameError → String
  | .timedOut => "request timed out before newline"
  | .timeoutUnset => "set request read timeout"
  | .unreadable => "read request line"
  | .exceeded maxRequestBytes => s!"request exceeded {maxRequestBytes.toNat} bytes"
  | .missingNewline => "request missing newline before EOF"
  | .notUtf8 => "request is not valid UTF-8"

/-- `RequestFrame`. -/
structure RequestFrame where
  line : List Char
  buffered : List UInt8
  deriving DecidableEq, Repr

/-- What one `read` puts into the buffer. -/
structure Chunk where
  bytes : List UInt8
  nonempty : bytes ≠ []
  fits : bytes.length ≤ 8192

/-- What a turn of the loop comes upon. -/
inductive Turn where
  | expired
  | timeoutUnset
  | interrupted
  | wouldBlock
  | failed
  | data (chunk : Chunk)

/-- `ensure_request_capacity`. -/
def ensureRequestCapacity (currentLen additionalLen : ℕ) (maxRequestBytes : UInt64) :
    Except FrameError Unit := do
  let nextLen ← expect (if currentLen + additionalLen < 2 ^ 64 then
    some (currentLen + additionalLen) else none) (.exceeded maxRequestBytes)
  require (nextLen ≤ maxRequestBytes.toNat) (.exceeded maxRequestBytes)

/-- `request_frame_from_chunk`: the frame, or the bytes of the line so far. -/
def requestFrameFromChunk (bytes chunk : List UInt8) (maxRequestBytes : UInt64) :
    Except FrameError (RequestFrame ⊕ List UInt8) :=
  match chunk.findIdx? (· = 0x0a) with
  | some pos => do
    let lineLen := pos + 1
    ensureRequestCapacity bytes.length lineLen maxRequestBytes
    let line ← expect (Utf8.fromUtf8 (bytes ++ chunk.take lineLen)) .notUtf8
    pure (.inl ⟨line, chunk.drop lineLen⟩)
  | none => do
    ensureRequestCapacity bytes.length chunk.length maxRequestBytes
    pure (.inr (bytes ++ chunk))

/-- The loop of `read_request_frame_with_limit`, over the turns up to the end of the stream, and the turns
that are left. -/
def readLoop (maxRequestBytes : UInt64) (bytes : List UInt8) :
    List Turn → Except FrameError RequestFrame × List Turn
  | [] =>
    if bytes ≠ [] then (.error .missingNewline, [])
    else ((expect (Utf8.fromUtf8 bytes) .notUtf8).map fun line => ⟨line, []⟩, [])
  | .expired :: rest => (.error .timedOut, rest)
  | .timeoutUnset :: rest => (.error .timeoutUnset, rest)
  | .interrupted :: rest => readLoop maxRequestBytes bytes rest
  | .wouldBlock :: rest => readLoop maxRequestBytes bytes rest
  | .failed :: rest => (.error .unreadable, rest)
  | .data chunk :: rest =>
    match requestFrameFromChunk bytes chunk.bytes maxRequestBytes with
    | .error e => (.error e, rest)
    | .ok (.inl frame) => (.ok frame, rest)
    | .ok (.inr bytes) => readLoop maxRequestBytes bytes rest

/-- `read_request_frame_with_limit`. -/
def readRequestFrameWithLimit (maxRequestBytes : UInt64) (turns : List Turn) :
    Except FrameError RequestFrame × List Turn := readLoop maxRequestBytes [] turns

/-! ### Cuttings of a stream -/

/-- The bytes that a turn brings. -/
def Turn.bytes : Turn → List UInt8
  | .data chunk => chunk.bytes
  | _ => []

/-- The bytes that turns bring. -/
def delivered (turns : List Turn) : List UInt8 := turns.flatMap Turn.bytes

/-- The loop goes on after the turn unless its bytes end it: no deadline passes, and nothing fails. -/
def Turn.Continues : Turn → Prop
  | .expired | .timeoutUnset | .failed => False
  | .interrupted | .wouldBlock | .data _ => True

/-- A way in which the socket delivers a stream. -/
structure Cutting (stream : List UInt8) where
  turns : List Turn
  continues : ∀ turn ∈ turns, turn.Continues
  delivered : delivered turns = stream

/-- The cutting is answered with a frame. -/
def Cutting.Accepted {stream : List UInt8} (cutting : Cutting stream) (limit : UInt64) : Prop :=
  ∃ frame, (readRequestFrameWithLimit limit cutting.turns).1 = .ok frame

/-! ### One chunk -/

variable {limit : UInt64} {bytes : List UInt8}

theorem ensureRequestCapacity_eq_ok {currentLen additionalLen : ℕ} :
    ensureRequestCapacity currentLen additionalLen limit = .ok () ↔
      currentLen + additionalLen ≤ limit.toNat := by
  have hlimit := limit.toNat_lt
  unfold ensureRequestCapacity
  by_cases hfits : currentLen + additionalLen < 2 ^ 64
  · rw [if_pos hfits]
    simp
  · rw [if_neg hfits]
    simp
    omega

theorem ensureRequestCapacity_error {currentLen additionalLen : ℕ}
    (h : limit.toNat < currentLen + additionalLen) :
    ensureRequestCapacity currentLen additionalLen limit = .error (.exceeded limit) := by
  unfold ensureRequestCapacity
  by_cases hfits : currentLen + additionalLen < 2 ^ 64
  · rw [if_pos hfits, expect]
    exact if_neg (not_le.mpr h)
  · rw [if_neg hfits]
    rfl

theorem requestFrameFromChunk_more {chunk : List UInt8} (h : 0x0a ∉ chunk)
    (hfits : bytes.length + chunk.length ≤ limit.toNat) :
    requestFrameFromChunk bytes chunk limit = .ok (.inr (bytes ++ chunk)) := by
  rw [requestFrameFromChunk, Lines.findIdx?_of_notMem h]
  simp only [ensureRequestCapacity_eq_ok.mpr hfits]
  rfl

theorem requestFrameFromChunk_more_error {chunk : List UInt8} (h : 0x0a ∉ chunk)
    (hexceeds : limit.toNat < bytes.length + chunk.length) :
    requestFrameFromChunk bytes chunk limit = .error (.exceeded limit) := by
  rw [requestFrameFromChunk, Lines.findIdx?_of_notMem h]
  simp only [ensureRequestCapacity_error hexceeds]
  rfl

theorem requestFrameFromChunk_line {front : List UInt8} (back : List UInt8) (h : 0x0a ∉ front)
    (hfits : bytes.length + front.length + 1 ≤ limit.toNat) :
    requestFrameFromChunk bytes (front ++ 0x0a :: back) limit =
      (expect (Utf8.fromUtf8 (bytes ++ front ++ [0x0a])) .notUtf8).map
        fun line => .inl ⟨line, back⟩ := by
  have htake : (front ++ 0x0a :: back).take (front.length + 1) = front ++ [0x0a] := by
    simp [List.take_append]
  have hdrop : (front ++ 0x0a :: back).drop (front.length + 1) = back := by
    simp [List.drop_append]
  rw [requestFrameFromChunk, Lines.findIdx?_line h]
  simp only [ensureRequestCapacity_eq_ok.mpr (add_assoc bytes.length _ 1 ▸ hfits), htake, hdrop,
    ← List.append_assoc]
  cases Utf8.fromUtf8 (bytes ++ front ++ [0x0a]) <;> rfl

theorem requestFrameFromChunk_line_error {front : List UInt8} (back : List UInt8) (h : 0x0a ∉ front)
    (hexceeds : limit.toNat < bytes.length + front.length + 1) :
    requestFrameFromChunk bytes (front ++ 0x0a :: back) limit = .error (.exceeded limit) := by
  rw [requestFrameFromChunk, Lines.findIdx?_line h]
  simp only [ensureRequestCapacity_error (add_assoc bytes.length _ 1 ▸ hexceeds)]
  rfl

/-! ### A whole stream -/

/-- A turn that brings nothing is passed over; a chunk is a turn that brings something. -/
theorem turn_cases {turn : Turn} (h : turn.Continues) :
    (∀ rest, delivered (turn :: rest) = delivered rest ∧
        ∀ bytes, readLoop limit bytes (turn :: rest) = readLoop limit bytes rest) ∨
      ∃ chunk, turn = .data chunk := by
  cases turn with
  | interrupted => exact .inl fun _ => ⟨rfl, fun _ => rfl⟩
  | wouldBlock => exact .inl fun _ => ⟨rfl, fun _ => rfl⟩
  | data chunk => exact .inr ⟨chunk, rfl⟩
  | expired => exact h.elim
  | timeoutUnset => exact h.elim
  | failed => exact h.elim

theorem delivered_data (chunk : Chunk) (rest : List Turn) :
    delivered (.data chunk :: rest) = chunk.bytes ++ delivered rest := List.flatMap_cons

theorem readLoop_nothing {turns : List Turn} (h : ∀ turn ∈ turns, turn.Continues)
    (hnothing : delivered turns = []) :
    readLoop limit [] turns = (.ok ⟨[], []⟩, []) := by
  induction turns with
  | nil => rfl
  | cons turn rest ih =>
    obtain ⟨hturn, hrest⟩ := List.forall_mem_cons.mp h
    rcases @turn_cases limit _ hturn with hpass | ⟨chunk, rfl⟩
    · obtain ⟨hsame, hloop⟩ := hpass rest
      rw [hloop]
      exact ih hrest (hsame ▸ hnothing)
    · rw [delivered_data] at hnothing
      exact absurd (List.append_eq_nil_iff.mp hnothing).1 chunk.nonempty

/-- A stream that ends without a newline is an error. -/
theorem readLoop_unfinished {turns : List Turn} (h : ∀ turn ∈ turns, turn.Continues)
    (hnewline : 0x0a ∉ delivered turns) (hsome : bytes ++ delivered turns ≠ []) :
    ∃ e, (readLoop limit bytes turns).1 = .error e := by
  induction turns generalizing bytes with
  | nil =>
    have hbytes : bytes ≠ [] := by simpa [delivered] using hsome
    rw [readLoop, if_pos hbytes]
    exact ⟨_, rfl⟩
  | cons turn rest ih =>
    obtain ⟨hturn, hrest⟩ := List.forall_mem_cons.mp h
    rcases @turn_cases limit _ hturn with hpass | ⟨chunk, rfl⟩
    · obtain ⟨hsame, hloop⟩ := hpass rest
      rw [hloop]
      rw [hsame] at hnewline hsome
      exact ih hrest hnewline hsome
    · rw [delivered_data] at hnewline hsome
      have hchunk : 0x0a ∉ chunk.bytes := fun hmem => hnewline (List.mem_append_left _ hmem)
      have hmore : 0x0a ∉ delivered rest := fun hmem => hnewline (List.mem_append_right _ hmem)
      by_cases hfits : bytes.length + chunk.bytes.length ≤ limit.toNat
      · rw [readLoop, requestFrameFromChunk_more hchunk hfits]
        exact ih hrest hmore (by rwa [← List.append_assoc] at hsome)
      · rw [readLoop, requestFrameFromChunk_more_error hchunk (by omega)]
        exact ⟨_, rfl⟩

/-- Where the first newline of a chunk and the rest of the stream is. -/
theorem newline_cases {chunk more front back : List UInt8} (h : chunk ++ more = front ++ 0x0a :: back)
    (hfront : 0x0a ∉ front) :
    (∃ tail, chunk = front ++ 0x0a :: tail ∧ tail ++ more = back) ∨
      0x0a ∉ chunk ∧ ∃ tail, front = chunk ++ tail ∧ more = tail ++ 0x0a :: back := by
  by_cases hchunk : 0x0a ∈ chunk
  · obtain ⟨text, tail, rfl, htext⟩ := Lines.exists_line hchunk
    rw [List.append_assoc, List.cons_append] at h
    obtain ⟨rfl, hrest⟩ := Lines.line_unique h htext hfront
    exact .inl ⟨tail, rfl, hrest⟩
  · right
    refine ⟨hchunk, ?_⟩
    have hmore : 0x0a ∈ more := by
      have hmem : (0x0a : UInt8) ∈ chunk ++ more := by rw [h]; simp
      exact (List.mem_append.mp hmem).resolve_left hchunk
    obtain ⟨text, tail, rfl, htext⟩ := Lines.exists_line hmore
    rw [← List.append_assoc] at h
    obtain ⟨rfl, rfl⟩ := Lines.line_unique h (List.not_mem_append hchunk htext) hfront
    exact ⟨text, rfl, rfl⟩

/-- A line within the limit is read to its end, and nothing behind it is lost. -/
theorem readLoop_line {turns : List Turn} {front back : List UInt8}
    (h : ∀ turn ∈ turns, turn.Continues) (hstream : delivered turns = front ++ 0x0a :: back)
    (hfront : 0x0a ∉ front) (hfits : bytes.length + front.length + 1 ≤ limit.toNat) :
    ∃ buffered left, readLoop limit bytes turns =
        ((expect (Utf8.fromUtf8 (bytes ++ front ++ [0x0a])) .notUtf8).map fun line => ⟨line, buffered⟩,
          left) ∧
      buffered ++ delivered left = back := by
  induction turns generalizing bytes front with
  | nil => exact absurd hstream.symm (by simp [delivered])
  | cons turn rest ih =>
    obtain ⟨hturn, hrest⟩ := List.forall_mem_cons.mp h
    rcases @turn_cases limit _ hturn with hpass | ⟨chunk, rfl⟩
    · obtain ⟨hsame, hloop⟩ := hpass rest
      rw [hloop]
      exact ih hrest (hsame ▸ hstream) hfront hfits
    · rw [delivered_data] at hstream
      rw [readLoop]
      rcases newline_cases hstream hfront with ⟨tail, hchunk, hback⟩ | ⟨hchunk, tail, rfl, hmore⟩
      · rw [hchunk, requestFrameFromChunk_line tail hfront hfits]
        refine ⟨tail, rest, ?_, hback⟩
        cases Utf8.fromUtf8 (bytes ++ front ++ [0x0a]) <;> rfl
      · have htail : 0x0a ∉ tail := fun hmem => hfront (List.mem_append_right _ hmem)
        rw [List.length_append] at hfits
        rw [requestFrameFromChunk_more hchunk (by omega), ← List.append_assoc bytes]
        exact ih hrest hmore htail (by rw [List.length_append]; omega)

/-- A line beyond the limit is an error. -/
theorem readLoop_long {turns : List Turn} {front back : List UInt8}
    (h : ∀ turn ∈ turns, turn.Continues) (hstream : delivered turns = front ++ 0x0a :: back)
    (hfront : 0x0a ∉ front) (hexceeds : limit.toNat < bytes.length + front.length + 1) :
    (readLoop limit bytes turns).1 = .error (.exceeded limit) := by
  induction turns generalizing bytes front with
  | nil => exact absurd hstream.symm (by simp [delivered])
  | cons turn rest ih =>
    obtain ⟨hturn, hrest⟩ := List.forall_mem_cons.mp h
    rcases @turn_cases limit _ hturn with hpass | ⟨chunk, rfl⟩
    · obtain ⟨hsame, hloop⟩ := hpass rest
      rw [hloop]
      exact ih hrest (hsame ▸ hstream) hfront hexceeds
    · rw [delivered_data] at hstream
      rw [readLoop]
      rcases newline_cases hstream hfront with ⟨tail, hchunk, -⟩ | ⟨hchunk, tail, rfl, hmore⟩
      · rw [hchunk, requestFrameFromChunk_line_error tail hfront hexceeds]
      · have htail : 0x0a ∉ tail := fun hmem => hfront (List.mem_append_right _ hmem)
        rw [List.length_append] at hexceeds
        by_cases hfits : bytes.length + chunk.bytes.length ≤ limit.toNat
        · rw [requestFrameFromChunk_more hchunk hfits]
          exact ih hrest hmore htail (by rw [List.length_append]; omega)
        · rw [requestFrameFromChunk_more_error hchunk (by omega)]

/-! ### Cuttings -/

section Cuttings

variable {stream : List UInt8} (cutting : Cutting stream)

theorem error_of_unfinished (h : 0x0a ∉ stream) (hsome : stream ≠ []) :
    ∃ e, (readRequestFrameWithLimit limit cutting.turns).1 = .error e :=
  readLoop_unfinished cutting.continues (cutting.delivered.symm ▸ h)
    (by rwa [List.nil_append, cutting.delivered])

theorem frame_of_line {front back : List UInt8} (hstream : stream = front ++ 0x0a :: back)
    (hfront : 0x0a ∉ front) (hfits : front.length + 1 ≤ limit.toNat) :
    ∃ buffered left, readRequestFrameWithLimit limit cutting.turns =
        ((expect (Utf8.fromUtf8 (front ++ [0x0a])) .notUtf8).map fun line => ⟨line, buffered⟩, left) ∧
      buffered ++ delivered left = back :=
  readLoop_line cutting.continues (cutting.delivered.trans hstream) hfront
    (by rw [List.length_nil]; omega)

theorem error_of_long {front back : List UInt8} (hstream : stream = front ++ 0x0a :: back)
    (hfront : 0x0a ∉ front) (hexceeds : limit.toNat < front.length + 1) :
    (readRequestFrameWithLimit limit cutting.turns).1 = .error (.exceeded limit) :=
  readLoop_long cutting.continues (cutting.delivered.trans hstream) hfront
    (by rw [List.length_nil]; omega)

/-- What is accepted is seen on the stream alone. -/
theorem accepted_iff : cutting.Accepted limit ↔ stream = [] ∨
    ∃ front back, stream = front ++ 0x0a :: back ∧ 0x0a ∉ front ∧ front.length + 1 ≤ limit.toNat ∧
      (Utf8.fromUtf8 (front ++ [0x0a])).isSome := by
  by_cases hnil : stream = []
  · have hread := @readLoop_nothing limit _ cutting.continues (cutting.delivered.trans hnil)
    exact ⟨fun _ => .inl hnil, fun _ => ⟨_, congrArg Prod.fst hread⟩⟩
  by_cases hnewline : 0x0a ∈ stream
  · obtain ⟨front, back, hstream, hfront⟩ := Lines.exists_line hnewline
    by_cases hfits : front.length + 1 ≤ limit.toNat
    · obtain ⟨buffered, left, hread, -⟩ := frame_of_line cutting hstream hfront hfits
      unfold Cutting.Accepted
      rw [hread]
      constructor
      · rintro ⟨frame, hframe⟩
        refine .inr ⟨front, back, hstream, hfront, hfits, ?_⟩
        cases htext : Utf8.fromUtf8 (front ++ [0x0a]) with
        | some line => rfl
        | none =>
          rw [htext] at hframe
          cases hframe
      · rintro (h | ⟨front', back', hstream', hfront', -, htext⟩)
        · exact absurd h hnil
        · obtain ⟨rfl, -⟩ := Lines.line_unique (hstream.symm.trans hstream') hfront hfront'
          obtain ⟨line, hline⟩ := Option.isSome_iff_exists.mp htext
          rw [hline]
          exact ⟨_, rfl⟩
    · have hread := error_of_long cutting hstream hfront (not_le.mp hfits)
      unfold Cutting.Accepted
      rw [hread]
      constructor
      · rintro ⟨frame, hframe⟩
        cases hframe
      · rintro (h | ⟨front', back', hstream', hfront', hfits', -⟩)
        · exact absurd h hnil
        · obtain ⟨rfl, -⟩ := Lines.line_unique (hstream.symm.trans hstream') hfront hfront'
          exact absurd hfits' hfits
  · obtain ⟨e, hread⟩ := @error_of_unfinished limit _ cutting hnewline hnil
    unfold Cutting.Accepted
    rw [hread]
    constructor
    · rintro ⟨frame, hframe⟩
      cases hframe
    · rintro (h | ⟨front, back, hstream, -⟩)
      · exact absurd h hnil
      · exact absurd (by rw [hstream]; simp) hnewline

end Cuttings

/-- **Framing does not depend on how the socket delivers the bytes.** A first line within the limit that is
valid UTF-8 is returned, and line, buffered bytes and bytes not yet read are the whole stream. A first line
beyond the limit is an error, as are `limit + 1` bytes without a newline and a stream that ends without
one. Whether there is a frame is the same for all cuttings. -/
theorem framing_independent (limit : UInt64) (stream : List UInt8) :
    (∀ i, stream.findIdx? (· = 0x0a) = some i → i + 1 ≤ limit.toNat →
      (Utf8.fromUtf8 (stream.take (i + 1))).isSome → ∀ cutting : Cutting stream, ∃ frame left,
        readRequestFrameWithLimit limit cutting.turns = (.ok frame, left) ∧
        Utf8.encode frame.line = stream.take (i + 1) ∧
        Utf8.encode frame.line ++ frame.buffered ++ delivered left = stream) ∧
    (∀ i, stream.findIdx? (· = 0x0a) = some i → limit.toNat < i + 1 → ∀ cutting : Cutting stream,
      ∃ e, (readRequestFrameWithLimit limit cutting.turns).1 = .error e) ∧
    (limit.toNat + 1 ≤ stream.length → 0x0a ∉ stream.take (limit.toNat + 1) →
      ∀ cutting : Cutting stream, ∃ e, (readRequestFrameWithLimit limit cutting.turns).1 = .error e) ∧
    (stream ≠ [] → 0x0a ∉ stream → ∀ cutting : Cutting stream,
      ∃ e, (readRequestFrameWithLimit limit cutting.turns).1 = .error e) ∧
    ∀ cutting cutting' : Cutting stream, cutting.Accepted limit ↔ cutting'.Accepted limit := by
  have hline (i : ℕ) (hi : stream.findIdx? (· = 0x0a) = some i) : ∃ front back,
      stream = front ++ 0x0a :: back ∧ 0x0a ∉ front ∧ front.length = i ∧
        stream.take (i + 1) = front ++ [0x0a] := by
    have hmem : (0x0a : UInt8) ∈ stream := by
      by_contra hnot
      rw [Lines.findIdx?_of_notMem hnot] at hi
      cases hi
    obtain ⟨front, back, rfl, hfront⟩ := Lines.exists_line hmem
    rw [Lines.findIdx?_line hfront, Option.some.injEq] at hi
    subst hi
    exact ⟨front, back, rfl, hfront, rfl, by simp [List.take_append]⟩
  refine ⟨fun i hi hfits htext cutting => ?_, fun i hi hexceeds cutting => ?_,
    fun hlength htake cutting => ?_, fun hsome hnewline cutting =>
      error_of_unfinished cutting hnewline hsome,
    fun cutting cutting' => (accepted_iff cutting).trans (accepted_iff cutting').symm⟩
  · obtain ⟨front, back, hstream, hfront, rfl, htake⟩ := hline i hi
    obtain ⟨buffered, left, hread, hleft⟩ := frame_of_line cutting hstream hfront hfits
    obtain ⟨line, hline⟩ := Option.isSome_iff_exists.mp (htake ▸ htext)
    have hencode := Utf8.encode_of_fromUtf8 hline
    rw [hline] at hread
    refine ⟨⟨line, buffered⟩, left, hread, hencode.trans htake.symm, ?_⟩
    rw [hencode, List.append_assoc, List.append_assoc, hleft, hstream]
    rfl
  · obtain ⟨front, back, hstream, hfront, rfl, -⟩ := hline i hi
    exact ⟨_, error_of_long cutting hstream hfront hexceeds⟩
  · by_cases hnewline : 0x0a ∈ stream
    · obtain ⟨front, back, hstream, hfront⟩ := Lines.exists_line hnewline
      refine ⟨_, error_of_long cutting hstream hfront ?_⟩
      by_contra hfits
      refine htake ?_
      rw [hstream, List.take_append, List.mem_append]
      right
      rw [show limit.toNat + 1 - front.length = (limit.toNat - front.length) + 1 by omega,
        List.take_succ_cons]
      exact List.mem_cons_self
    · refine error_of_unfinished cutting hnewline ?_
      rintro rfl
      exact absurd hlength (by simp)

end LightTerminal.Server.Framing
