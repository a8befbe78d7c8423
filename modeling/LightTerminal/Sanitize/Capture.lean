import Mathlib.Tactic

/-! # The terminal sanitizer

`terminal_capture_from_state` of `sanitize.rs` turns raw PTY bytes into visible text: escape
sequences, C0 and C1 controls are dropped, well-formed UTF-8 is decoded, malformed bytes become
`U+FFFD`. It carries an escape state and the bytes of a scalar that the end of the previous chunk
cut off (`TerminalCaptureState`), so that a stream can be sanitized chunk by chunk.

The loop over `index` is `captureLoop`. One turn of it is `captureStep`, a function of the escape
state and of the bytes from `index` on: it either goes on (`Turn.next`, with the new escape state,
the text pushed and the number of bytes passed over) or breaks out of the loop because the bytes
are the beginning of a scalar (`Turn.stop`). `captureLoop` recurses on the bytes; its first
argument counts the bytes of the scalar just decoded that are still to be passed over.

A Rust `String` is the list of its scalar values, and `pending_utf8` is the occupied part of the
source's four-byte buffer. -/

namespace LightTerminal.Sanitize.Capture

/-! ### UTF-8 -/

/-- `is_c0_or_c1`. -/
def isC0OrC1 (ch : Char) : Bool := ch.toNat ≤ 0x1f || (0x7f ≤ ch.toNat && ch.toNat ≤ 0x9f)

/-- `utf8_char_width`: the length a first byte announces. -/
def utf8CharWidth (byte : UInt8) : Option ℕ :=
  if byte ≤ 0x7f then some 1
  else if 0xc2 ≤ byte ∧ byte ≤ 0xdf then some 2
  else if 0xe0 ≤ byte ∧ byte ≤ 0xef then some 3
  else if 0xf0 ≤ byte ∧ byte ≤ 0xf4 then some 4
  else none

/-- `decode_utf8_char`. `str::from_utf8` on the announced bytes, all of which belong to the first
scalar, is the decoder of Lean's own strings. -/
def decodeUtf8Char (bytes : List UInt8) : Option (Char × ℕ) := do
  let first ← bytes.head?
  let width ← utf8CharWidth first
  if bytes.length < width then none
  else
    let ch ← (bytes.take width).toByteArray.utf8DecodeChar? 0
    some (ch, width)

/-- The test of `store_incomplete_utf8`: the first byte announces more bytes than there are. -/
def isIncompleteUtf8 (bytes : List UInt8) : Bool :=
  match bytes.head?.bind utf8CharWidth with
  | some width => bytes.length < width
  | none => false

/-! ### The state -/

/-- `EscapeState`. -/
inductive EscapeState where
  | ground
  | esc
  | csi
  | string
  | stringEsc
  | charset
  deriving DecidableEq, Repr

/-- `TerminalCaptureState`. -/
structure TerminalCaptureState where
  escape : EscapeState
  pendingUtf8 : List UInt8
  deriving DecidableEq, Repr

/-- `TerminalCaptureState::default`. -/
def TerminalCaptureState.default : TerminalCaptureState := ⟨.ground, []⟩

/-! ### One turn of the loop -/

/-- The outcome of one turn: go on in `escape` after `len` bytes with `out` pushed, or break. -/
inductive Turn where
  | next (escape : EscapeState) (out : List Char) (len : ℕ)
  | stop
  deriving DecidableEq, Repr

/-- The treatment of a byte that may begin a scalar: decode it (`scalar` says what the scalar
does), or break if it is cut off, or take the byte alone as malformed. -/
def decodeTurn (bytes : List UInt8) (scalar : Char → EscapeState × List Char)
    (malformed : EscapeState × List Char) : Turn :=
  match decodeUtf8Char bytes with
  | some (ch, len) => .next (scalar ch).1 (scalar ch).2 len
  | none => if isIncompleteUtf8 bytes then .stop else .next malformed.1 malformed.2 1

/-- The scalars `U+0090`, `U+0098`, `U+009D`, `U+009E`, `U+009F`, which open a control string. -/
def opensString (ch : Char) : Bool :=
  ch.toNat = 0x90 || ch.toNat = 0x98 || ch.toNat = 0x9d || ch.toNat = 0x9e || ch.toNat = 0x9f

/-- The same five as raw bytes. -/
def byteOpensString (byte : UInt8) : Bool :=
  byte = 0x90 || byte = 0x98 || byte = 0x9d || byte = 0x9e || byte = 0x9f

/-- What a decoded scalar does in the ground state. -/
def groundScalar (ch : Char) : EscapeState × List Char :=
  if ch.toNat = 0x9b then (.csi, [])
  else if opensString ch then (.string, [])
  else if isC0OrC1 ch then (.ground, [])
  else (.ground, [ch])

/-- `EscapeState::Ground`. -/
def groundTurn (byte : UInt8) (bytes : List UInt8) : Turn :=
  if byte = 0x1b then .next .esc [] 1
  else if byte = 0x9b then .next .csi [] 1
  else if byteOpensString byte then .next .string [] 1
  else if 0x80 ≤ byte ∧ byte ≤ 0x9f then .next .ground [] 1
  else if byte = 0x09 ∨ byte = 0x0a ∨ byte = 0x0d then .next .ground [Char.ofNat byte.toNat] 1
  else if byte ≤ 0x1f ∨ byte = 0x7f then .next .ground [] 1
  else if byte ≤ 0x7f then .next .ground [Char.ofNat byte.toNat] 1
  else decodeTurn bytes groundScalar (.ground, ['\uFFFD'])

/-- `EscapeState::Esc`. Bytes from `0x80` on are taken one by one here. -/
def escTurn (byte : UInt8) : Turn :=
  if byte = 0x18 ∨ byte = 0x1a then .next .ground [] 1
  else if byte = 0x1b then .next .esc [] 1
  else if byte = 0x5b then .next .csi [] 1
  else if byte = 0x5d ∨ byte = 0x50 ∨ byte = 0x5f ∨ byte = 0x5e ∨ byte = 0x58 then
    .next .string [] 1
  else if byte = 0x28 ∨ byte = 0x29 ∨ byte = 0x2a ∨ byte = 0x2b ∨ byte = 0x2d ∨ byte = 0x2e
      ∨ byte = 0x2f then
    .next .charset [] 1
  else if byte = 0x9b then .next .csi [] 1
  else if byteOpensString byte then .next .string [] 1
  else if 0x20 ≤ byte ∧ byte ≤ 0x2f then .next .esc [] 1
  else .next .ground [] 1

/-- The escape state after a scalar inside a sequence: the string terminator `U+009C` ends it. -/
def terminates (rest : EscapeState) (ch : Char) : EscapeState × List Char :=
  (if ch.toNat = 0x9c then .ground else rest, [])

/-- The escape state after a malformed byte inside a sequence. -/
def byteTerminates (rest : EscapeState) (byte : UInt8) : EscapeState × List Char :=
  (if byte = 0x9c then .ground else rest, [])

/-- `EscapeState::Csi`. -/
def csiTurn (byte : UInt8) (bytes : List UInt8) : Turn :=
  if 0x80 ≤ byte then decodeTurn bytes (terminates .csi) (byteTerminates .csi byte)
  else if byte = 0x18 ∨ byte = 0x1a then .next .ground [] 1
  else if byte = 0x1b then .next .esc [] 1
  else if 0x40 ≤ byte ∧ byte ≤ 0x7e then .next .ground [] 1
  else .next .csi [] 1

/-- `EscapeState::String`. -/
def stringTurn (byte : UInt8) (bytes : List UInt8) : Turn :=
  if 0x80 ≤ byte then decodeTurn bytes (terminates .string) (byteTerminates .string byte)
  else if byte = 0x18 ∨ byte = 0x1a then .next .ground [] 1
  else if byte = 0x07 then .next .ground [] 1
  else if byte = 0x1b then .next .stringEsc [] 1
  else .next .string [] 1

/-- `EscapeState::StringEsc`. -/
def stringEscTurn (byte : UInt8) (bytes : List UInt8) : Turn :=
  if 0x80 ≤ byte then decodeTurn bytes (terminates .string) (byteTerminates .string byte)
  else .next (if byte = 0x5c then .ground else .string) [] 1

/-- One turn of the loop at the bytes `byte :: rest`. -/
def captureStep (escape : EscapeState) (byte : UInt8) (rest : List UInt8) : Turn :=
  match escape with
  | .ground => groundTurn byte (byte :: rest)
  | .esc => escTurn byte
  | .csi => csiTurn byte (byte :: rest)
  | .string => stringTurn byte (byte :: rest)
  | .stringEsc => stringEscTurn byte (byte :: rest)
  | .charset => .next .ground [] 1

/-- The loop: `skip` bytes of the last scalar are still to be passed over. -/
def captureLoop : ℕ → EscapeState → List UInt8 → List Char × TerminalCaptureState
  | _, escape, [] => ([], ⟨escape, []⟩)
  | skip + 1, escape, _ :: rest => captureLoop skip escape rest
  | 0, escape, byte :: rest =>
    match captureStep escape byte rest with
    | .stop => ([], ⟨escape, (byte :: rest).take 4⟩)
    | .next escape' out len =>
      let (more, state) := captureLoop (len - 1) escape' rest
      (out ++ more, state)

/-- `terminal_capture_from_state`: the pending bytes go in front of the chunk. -/
def terminalCaptureFromState (bytes : List UInt8) (state : TerminalCaptureState) :
    List Char × TerminalCaptureState :=
  captureLoop 0 state.escape (state.pendingUtf8 ++ bytes)

/-- `flush_pending_utf8_at_capture_end`: what a scalar cut off by the end of the input leaves. -/
def flushPendingUtf8AtCaptureEnd (state : TerminalCaptureState) : List Char :=
  if state.pendingUtf8.length ≠ 0 ∧ state.escape = .ground then ['\uFFFD'] else []

/-- `terminal_capture`. -/
def terminalCapture (bytes : List UInt8) : List Char :=
  let (out, state) := terminalCaptureFromState bytes .default
  out ++ flushPendingUtf8AtCaptureEnd state

end LightTerminal.Sanitize.Capture
