import LightTerminal.Library.Occurrences
import Mathlib.Data.List.TakeWhile

/-! # The keyboard protocol of the host terminal

While a client is attached, the programs of the pane switch the keyboard protocol of the host terminal
with `CSI > f u`, `CSI < n u` and `CSI = f ; m u`. `TerminalOutputTracker` (`client.rs`) observes the
output chunk by chunk and keeps a counter and a word of flags, and `keyboard_protocol_restore_bytes`
computes from them what gives the keyboard back.

* `observeAll_restoreState`: what is observed does not depend on the chunks;
* `given_back_iff`: when the keyboard is given back. The counter goes below zero when more entries are
  popped than the host holds, and is too small from then on. -/

namespace LightTerminal.Client.Keyboard

open LightTerminal.Library.Occurrences

/-! ### The observer -/

/-- `MAX_KEYBOARD_PROTOCOL_RESTORE_POPS`. -/
def maxKeyboardProtocolRestorePops : ℤ := 16

/-- `KeyboardProtocolRestoreState`: an `i32` and a `u32`. -/
structure KeyboardProtocolRestoreState where
  kittyPushDepth : ℤ
  kittyDirectFlags : ℕ
  deriving DecidableEq, Repr

/-- `KeyboardProtocolRestoreState::default`. -/
def KeyboardProtocolRestoreState.default : KeyboardProtocolRestoreState := ⟨0, 0⟩

/-- `KeyboardProtocolDirectChange`. -/
structure KeyboardProtocolDirectChange where
  flags : ℕ
  mode : ℕ
  deriving DecidableEq, Repr

/-- `u8::is_ascii_digit`. -/
def isAsciiDigit (byte : UInt8) : Bool := 0x30 ≤ byte && byte ≤ 0x39

/-- The value of decimal digits. -/
def numeral (digits : List UInt8) : ℕ :=
  digits.foldl (fun value digit => value * 10 + (digit.toNat - 0x30)) 0

/-- `keyboard_protocol_pop_count`; a count beyond `i32` does not parse. -/
def keyboardProtocolPopCount (params : List UInt8) : Option ℤ :=
  if params = [] then some 1
  else if ¬ params.all isAsciiDigit then none
  else if numeral params < 2 ^ 31 then some (min (numeral params : ℤ) maxKeyboardProtocolRestorePops)
  else none

/-- `parse_csi_u_number`; a number beyond `u32` does not parse. -/
def parseCsiUNumber (params : List UInt8) : Option ℕ :=
  if params = [] ∨ ¬ params.all isAsciiDigit then none
  else if numeral params < 2 ^ 32 then some (numeral params)
  else none

/-- The byte is not `b';'`. -/
def notSemicolon (byte : UInt8) : Bool := byte != 0x3b

/-- The first part of `params.split(|byte| *byte == b';')`. -/
def firstPart (params : List UInt8) : List UInt8 := params.takeWhile notSemicolon

/-- The second part of `params.split(|byte| *byte == b';')`, if there is one. -/
def secondPart (params : List UInt8) : Option (List UInt8) :=
  match params.dropWhile notSemicolon with
  | [] => none
  | _ :: rest => some (rest.takeWhile notSemicolon)

/-- The mode of `keyboard_protocol_direct_change`. -/
def directMode (params : List UInt8) : Option ℕ :=
  match secondPart params with
  | some part => parseCsiUNumber part
  | none => some 1

/-- `keyboard_protocol_direct_change`. -/
def keyboardProtocolDirectChange (params : List UInt8) : Option KeyboardProtocolDirectChange := do
  let flags ← parseCsiUNumber (firstPart params)
  let mode ← directMode params
  if 1 ≤ mode ∧ mode ≤ 3 then some ⟨flags, mode⟩ else none

/-- The flags after a direct change: replaced, set, or cleared. -/
def directFlags (current flags mode : ℕ) : ℕ :=
  match mode with
  | 1 => flags
  | 2 => current ||| flags
  | 3 => Nat.ldiff current flags
  | _ => current

/-- `observe_kitty_push`. -/
def observeKittyPush (state : KeyboardProtocolRestoreState) : KeyboardProtocolRestoreState :=
  { state with kittyPushDepth := min (state.kittyPushDepth + 1) maxKeyboardProtocolRestorePops }

/-- `observe_kitty_pop`; `saturating_sub` stops at the least `i32`. -/
def observeKittyPop (state : KeyboardProtocolRestoreState) (count : ℤ) : KeyboardProtocolRestoreState :=
  if count ≤ 0 then state
  else { state with kittyPushDepth := max (state.kittyPushDepth - count) (-2 ^ 31) }

/-- `observe_kitty_direct`. -/
def observeKittyDirect (state : KeyboardProtocolRestoreState) (change : KeyboardProtocolDirectChange) :
    KeyboardProtocolRestoreState :=
  if 0 < state.kittyPushDepth then state
  else { state with kittyDirectFlags := directFlags state.kittyDirectFlags change.flags change.mode }

/-- The byte of `CSI > f u`. -/
def pushKind : UInt8 := 0x3e

/-- The byte of `CSI < n u`. -/
def popKind : UInt8 := 0x3c

/-- The byte of `CSI = f ; m u`. -/
def directKind : UInt8 := 0x3d

/-- A sequence of the protocol: the byte after `CSI`, and the bytes between it and the final `u`. -/
abbrev Sequence := UInt8 × List UInt8

/-- The `match kind` of `observe_keyboard_protocol_sequences_after`. -/
def observeSequence (state : KeyboardProtocolRestoreState) (sequence : Sequence) :
    KeyboardProtocolRestoreState :=
  if sequence.1 = pushKind then observeKittyPush state
  else if sequence.1 = popKind then
    match keyboardProtocolPopCount sequence.2 with
    | some count => observeKittyPop state count
    | none => state
  else if sequence.1 = directKind then
    match keyboardProtocolDirectChange sequence.2 with
    | some change => observeKittyDirect state change
    | none => state
  else state

/-- `(0x40..=0x7e).contains(&byte)`. -/
def isFinal (byte : UInt8) : Bool := 0x40 ≤ byte && byte ≤ 0x7e

/-- The inner loop: the first final byte, and its position. -/
def findFinal : List UInt8 → Option (ℕ × UInt8)
  | [] => none
  | byte :: rest => if isFinal byte then some (0, byte) else (findFinal rest).map fun x => (x.1 + 1, x.2)

/-- The three kinds that the scan looks at. -/
def isKind (byte : UInt8) : Bool := byte == pushKind || byte == popKind || byte == directKind

/-- The scan at one position: how far its final `u` is, and the sequence. The scan ends 64 bytes behind
the position. -/
def sequenceAt : List UInt8 → Option (ℕ × Sequence)
  | escape :: bracket :: kind :: rest =>
    if escape = 0x1b ∧ bracket = 0x5b ∧ isKind kind then
      match findFinal (rest.take 61) with
      | some (k, byte) => if byte = 0x75 then some (k + 3, kind, rest.take k) else none
      | none => none
    else none
  | _ => none

/-- The loop of `observe_keyboard_protocol_sequences_after`, at the position `i`. -/
def observeLoop (minFinalIndex : ℕ) :
    ℕ → List UInt8 → KeyboardProtocolRestoreState → KeyboardProtocolRestoreState
  | _, [], state => state
  | i, byte :: rest, state =>
    if rest.length < 3 then state
    else if 0 < minFinalIndex ∧ minFinalIndex ≤ i then state
    else
      observeLoop minFinalIndex (i + 1) rest
        (match sequenceAt (byte :: rest) with
        | some (k, sequence) => if minFinalIndex ≤ i + k then observeSequence state sequence else state
        | none => state)

/-- `observe_keyboard_protocol_sequences_after`. -/
def observeKeyboardProtocolSequencesAfter (bytes : List UInt8) (minFinalIndex : ℕ)
    (state : KeyboardProtocolRestoreState) : KeyboardProtocolRestoreState :=
  observeLoop minFinalIndex 0 bytes state

/-- `TAIL_LIMIT`. -/
def tailLimit : ℕ := 64

/-- `TerminalOutputTracker`, as far as the keyboard protocol goes. -/
structure TerminalOutputTracker where
  restoreState : KeyboardProtocolRestoreState
  tail : List UInt8
  deriving DecidableEq, Repr

/-- `TerminalOutputTracker::new`. -/
def TerminalOutputTracker.new : TerminalOutputTracker := ⟨.default, []⟩

/-- What `observe` keeps for the next chunk. -/
def nextTail (oldTail bytes : List UInt8) : List UInt8 :=
  if tailLimit ≤ bytes.length then bytes.drop (bytes.length - tailLimit)
  else oldTail.drop (oldTail.length - min oldTail.length (tailLimit - bytes.length)) ++ bytes

/-- `TerminalOutputTracker::observe`. -/
def TerminalOutputTracker.observe (tracker : TerminalOutputTracker) (bytes : List UInt8) :
    TerminalOutputTracker :=
  let boundary :=
    if tracker.tail ≠ [] ∧ bytes ≠ [] then
      observeKeyboardProtocolSequencesAfter (tracker.tail ++ bytes.take (min bytes.length tailLimit))
        tracker.tail.length tracker.restoreState
    else tracker.restoreState
  { restoreState := observeKeyboardProtocolSequencesAfter bytes 0 boundary
    tail := nextTail tracker.tail bytes }

/-- The tracker after the chunks of output. -/
def observeAll (chunks : List (List UInt8)) : TerminalOutputTracker :=
  chunks.foldl TerminalOutputTracker.observe .new

/-- `CSI < u`. -/
def popBytes : List UInt8 := [0x1b, 0x5b, 0x3c, 0x75]

/-- `CSI = 0 u`. -/
def resetBytes : List UInt8 := [0x1b, 0x5b, 0x3d, 0x30, 0x75]

/-- `keyboard_protocol_restore_bytes`. -/
def keyboardProtocolRestoreBytes (state : KeyboardProtocolRestoreState) : List UInt8 :=
  let pushDepth := (max 0 (min state.kittyPushDepth maxKeyboardProtocolRestorePops)).toNat
  (List.replicate pushDepth popBytes).flatten ++
    if state.kittyDirectFlags ≠ 0 then resetBytes else []

/-! ### Any chunks -/

theorem findFinal_append {l : List UInt8} {x : ℕ × UInt8} (h : findFinal l = some x)
    (m : List UInt8) : findFinal (l ++ m) = some x := by
  induction l generalizing x with
  | nil => simp [findFinal] at h
  | cons byte l ih =>
    rw [List.cons_append]
    unfold findFinal at h ⊢
    split_ifs at h ⊢
    · exact h
    · obtain ⟨y, hy, rfl⟩ := Option.map_eq_some_iff.mp h
      rw [ih hy]
      rfl

theorem findFinal_lt {l : List UInt8} {k : ℕ} {byte : UInt8} (h : findFinal l = some (k, byte)) :
    k < l.length := by
  induction l generalizing k with
  | nil => simp [findFinal] at h
  | cons b l ih =>
    unfold findFinal at h
    split_ifs at h
    · simp only [Option.some.injEq, Prod.mk.injEq] at h
      simp [← h.1]
    · obtain ⟨⟨k', b'⟩, hy, heq⟩ := Option.map_eq_some_iff.mp h
      simp only [Prod.mk.injEq] at heq
      have := ih (k := k') (by rw [hy, heq.2])
      rw [List.length_cons]
      omega

theorem findFinal_restrict {l m : List UInt8} {k : ℕ} {byte : UInt8}
    (h : findFinal (l ++ m) = some (k, byte)) (hk : k < l.length) : findFinal l = some (k, byte) := by
  induction l generalizing k with
  | nil => simp at hk
  | cons b l ih =>
    rw [List.cons_append] at h
    unfold findFinal at h ⊢
    split_ifs at h ⊢
    · exact h
    · obtain ⟨⟨k', b'⟩, hy, heq⟩ := Option.map_eq_some_iff.mp h
      simp only [Prod.mk.injEq] at heq
      obtain ⟨hindex, rfl⟩ := heq
      rw [List.length_cons] at hk
      rw [ih hy (by omega)]
      simp [hindex]

/-- Nothing before the first final byte is one. -/
theorem not_isFinal_of_findFinal {l : List UInt8} {k : ℕ} {byte : UInt8}
    (h : findFinal l = some (k, byte)) {j : ℕ} {b : UInt8} (hj : j < k) (hb : l[j]? = some b) :
    isFinal b = false := by
  induction l generalizing k j with
  | nil => simp at hb
  | cons a l ih =>
    unfold findFinal at h
    split_ifs at h with ha
    · simp only [Option.some.injEq, Prod.mk.injEq] at h
      omega
    · obtain ⟨⟨k', b'⟩, hy, heq⟩ := Option.map_eq_some_iff.mp h
      simp only [Prod.mk.injEq] at heq
      rcases j with _ | j
      · simp only [List.getElem?_cons_zero, Option.some.injEq] at hb
        subst hb
        simpa using ha
      · rw [List.getElem?_cons_succ] at hb
        exact ih (k := k') (by rw [hy, heq.2]) (by omega) hb

/-- When a sequence begins at the head of a list. -/
theorem sequenceAt_eq_some {l : List UInt8} {k : ℕ} {sequence : Sequence} :
    sequenceAt l = some (k, sequence) ↔
      ∃ kind rest j, l = 0x1b :: 0x5b :: kind :: rest ∧ isKind kind = true ∧
        findFinal (rest.take 61) = some (j, 0x75) ∧ k = j + 3 ∧ sequence = (kind, rest.take j) := by
  constructor
  · intro h
    unfold sequenceAt at h
    split at h
    · next escape bracket kind rest =>
      split_ifs at h with hhead
      obtain ⟨rfl, rfl, hkind⟩ := hhead
      split at h
      · next j byte hfind =>
        split_ifs at h with hbyte
        subst hbyte
        simp only [Option.some.injEq, Prod.mk.injEq] at h
        exact ⟨kind, rest, j, rfl, hkind, hfind, h.1.symm, by rw [← h.2]⟩
      · cases h
    · cases h
  · rintro ⟨kind, rest, j, rfl, hkind, hfind, rfl, rfl⟩
    simp [sequenceAt, hkind, hfind]

/-- The sequences in the output, read with the window of the scan. -/
def reader : Reader UInt8 Sequence where
  read := sequenceAt
  window := tailLimit
  within := by
    rintro l k sequence h
    obtain ⟨kind, rest, j, rfl, -, hfind, rfl, -⟩ := sequenceAt_eq_some.mp h
    have hlt := findFinal_lt hfind
    simp only [List.length_take, List.length_cons, tailLimit] at hlt ⊢
    omega
  extend := by
    rintro l m ⟨k, sequence⟩ h
    obtain ⟨kind, rest, j, rfl, hkind, hfind, rfl, rfl⟩ := sequenceAt_eq_some.mp h
    have hlt := findFinal_lt hfind
    rw [List.length_take] at hlt
    refine sequenceAt_eq_some.mpr ⟨kind, rest ++ m, j, rfl, hkind, ?_, rfl, ?_⟩
    · rw [List.take_append]
      exact findFinal_append hfind _
    · rw [List.take_append_of_le_length (by omega)]
  restrict := by
    rintro l m k sequence h hk
    obtain ⟨kind, rest, j, hl, hkind, hfind, rfl, rfl⟩ := sequenceAt_eq_some.mp h
    obtain _ | ⟨a, _ | ⟨b, _ | ⟨c, rest'⟩⟩⟩ := l
    · simp at hk
    · simp at hk
    · simp at hk
    simp only [List.cons_append, List.cons.injEq] at hl
    obtain ⟨rfl, rfl, rfl, rfl⟩ := hl
    simp only [List.length_cons] at hk
    have hlt := findFinal_lt hfind
    rw [List.length_take] at hlt
    refine sequenceAt_eq_some.mpr ⟨c, rest', j, rfl, hkind, ?_, rfl, ?_⟩
    · rw [List.take_append] at hfind
      exact findFinal_restrict hfind (by rw [List.length_take]; omega)
    · rw [List.take_append_of_le_length (by omega)]
  apart := by
    rintro l k sequence i k' sequence' h hi h'
    obtain ⟨kind, rest, j, rfl, hkind, hfind, rfl, -⟩ := sequenceAt_eq_some.mp h
    obtain ⟨kind', rest', j', hdrop, -, -, rfl, -⟩ := sequenceAt_eq_some.mp h'
    by_contra hlt
    have hget : ∀ n, (0x1b :: 0x5b :: kind :: rest)[i + n]? = (0x1b :: 0x5b :: kind' :: rest')[n]? := by
      intro n
      rw [← hdrop, List.getElem?_drop]
    have hescape := hget 0
    have hbracket := hget 1
    obtain _ | _ | _ | i := i
    · omega
    · simp at hescape
    · simp only [List.getElem?_cons_succ, List.getElem?_cons_zero, Option.some.injEq] at hescape
      rw [hescape] at hkind
      exact absurd hkind (by decide)
    · -- the bracket of the later sequence would be the final byte of the earlier one
      have hb : rest[i + 1]? = some 0x5b := by
        have hindex : i + 1 + 1 + 1 + 1 = (i + 1) + 1 + 1 + 1 := rfl
        rw [hindex] at hbracket
        simpa using hbracket
      have htake : (rest.take 61)[i + 1]? = some 0x5b := by
        have hj := findFinal_lt hfind
        rw [List.length_take] at hj
        rw [List.getElem?_take_of_lt (by omega)]
        exact hb
      have hfinal := not_isFinal_of_findFinal hfind (by omega) htake
      exact absurd hfinal (by decide)

theorem sequenceAt_of_ne {byte : UInt8} (h : byte ≠ 0x1b) (l : List UInt8) :
    sequenceAt (byte :: l) = none := by
  by_contra hsome
  obtain ⟨⟨k, sequence⟩, hread⟩ := Option.ne_none_iff_exists'.mp hsome
  obtain ⟨kind, rest, j, hl, -⟩ := sequenceAt_eq_some.mp hread
  simp only [List.cons.injEq] at hl
  exact h hl.1

/-- Nothing is as short as the loop leaves out. -/
theorem values_of_length_lt {l : List UInt8} (h : l.length < 4) : reader.values l = [] := by
  induction l with
  | nil => rfl
  | cons byte l ih =>
    rw [List.length_cons] at h
    have hread : reader.read (byte :: l) = none := by
      by_contra hsome
      obtain ⟨⟨k, sequence⟩, hread⟩ := Option.ne_none_iff_exists'.mp hsome
      obtain ⟨kind, rest, j, hl, -, hfind, -, -⟩ := sequenceAt_eq_some.mp hread
      have hlt := findFinal_lt hfind
      have hlength := congrArg List.length hl
      simp only [List.length_cons, List.length_take] at hlength hlt
      omega
    rw [Reader.values, hread, ih (by omega)]
    rfl

/-- The loop is a scan: what it leaves out at the end is too short for a sequence. -/
theorem observeLoop_eq_scan (minFinalIndex : ℕ) (l : List UInt8) : ∀ i state,
    observeLoop minFinalIndex i l state = reader.scan observeSequence minFinalIndex i l state := by
  induction l with
  | nil => intro i state; rfl
  | cons byte l ih =>
    intro i state
    unfold observeLoop
    split_ifs with hshort hmin
    · rw [Reader.scan_of_values_eq_nil (values_of_length_lt (by rw [List.length_cons]; omega))]
    · rw [Reader.scan, if_pos hmin]
    · have hread : reader.read (byte :: l) = sequenceAt (byte :: l) := rfl
      rw [Reader.scan, if_neg hmin, ih, hread]
      rcases sequenceAt (byte :: l) with _ | ⟨k, sequence⟩ <;> rfl

/-- The remembered bytes are the end of the output. -/
theorem nextTail_eq (output bytes : List UInt8) :
    nextTail (output.drop (output.length - tailLimit)) bytes =
      (output ++ bytes).drop ((output ++ bytes).length - tailLimit) := by
  unfold nextTail
  rw [List.length_append, List.drop_append, List.length_drop]
  split_ifs with hlong
  · have hold : output.length ≤ output.length + bytes.length - tailLimit := by omega
    rw [List.drop_eq_nil_of_le hold, List.nil_append]
    congr 1
    omega
  · rw [List.drop_drop]
    congr 1
    · congr 1
      omega
    · have hzero : output.length + bytes.length - tailLimit - output.length = 0 := by omega
      rw [hzero, List.drop_zero]

/-- What the tracker has observed: every sequence of the output, once and in order. -/
structure Tracks (tracker : TerminalOutputTracker) (output : List UInt8) : Prop where
  state : tracker.restoreState = (reader.values output).foldl observeSequence .default
  tail : tracker.tail = output.drop (output.length - tailLimit)

theorem Tracks.observe {tracker : TerminalOutputTracker} {output : List UInt8}
    (h : Tracks tracker output) (bytes : List UInt8) :
    Tracks (tracker.observe bytes) (output ++ bytes) := by
  constructor
  · have hscan : (tracker.observe bytes).restoreState =
        reader.scanChunk observeSequence tracker.tail bytes tracker.restoreState := by
      simp only [TerminalOutputTracker.observe, observeKeyboardProtocolSequencesAfter,
        observeLoop_eq_scan]
      rfl
    rw [hscan, h.state, h.tail]
    exact reader.scanChunk_eq output bytes _
  · show nextTail tracker.tail bytes = _
    rw [h.tail, nextTail_eq]

/-- **What is observed does not depend on the chunks.** -/
theorem observeAll_restoreState (chunks : List (List UInt8)) :
    (observeAll chunks).restoreState =
      (reader.values chunks.flatten).foldl observeSequence .default := by
  have htracks : ∀ (chunks : List (List UInt8)) tracker output, Tracks tracker output →
      Tracks (chunks.foldl TerminalOutputTracker.observe tracker) (output ++ chunks.flatten) := by
    intro chunks
    induction chunks with
    | nil =>
      intro tracker output h
      simpa using h
    | cons bytes chunks ih =>
      intro tracker output h
      have hrest := ih _ _ (h.observe bytes)
      rw [List.append_assoc] at hrest
      simpa using hrest
  have hstart : Tracks .new [] := ⟨rfl, rfl⟩
  simpa [observeAll] using (htracks chunks .new [] hstart).state

/-! ### The host terminal -/

/-- The keyboard state of the host: the saved flags, the latest first, and the current flags. -/
structure Host where
  stack : List ℕ
  flags : ℕ
  deriving DecidableEq, Repr

/-- The host before the client attaches. -/
def Host.initial : Host := ⟨[], 0⟩

/-- What a sequence means to the host. -/
inductive Change where
  | push (flags : ℕ)
  | pop (count : ℕ)
  | direct (flags mode : ℕ)
  deriving DecidableEq, Repr

/-- The host after a sequence. A pop restores the last entry that it takes, and clears the flags if
there is none. -/
def Host.apply (host : Host) : Change → Host
  | .push flags => ⟨host.flags :: host.stack, flags⟩
  | .pop count => ⟨host.stack.drop count, ((host.stack.take count).getLast?).getD 0⟩
  | .direct flags mode => { host with flags := directFlags host.flags flags mode }

/-- The meaning of a sequence, with the defaults of its numbers. -/
def change (sequence : Sequence) : Change :=
  if sequence.1 = pushKind then .push (numeral sequence.2)
  else if sequence.1 = popKind then .pop (if sequence.2 = [] then 1 else numeral sequence.2)
  else .direct (numeral (firstPart sequence.2)) ((secondPart sequence.2).elim 1 numeral)

/-- A digit or a semicolon. -/
def isParam (byte : UInt8) : Bool := isAsciiDigit byte || byte == 0x3b

/-- The sequence that the host reads at the head of its input. -/
def hostSequenceAt : List UInt8 → Option Sequence
  | escape :: bracket :: kind :: rest =>
    if escape = 0x1b ∧ bracket = 0x5b ∧ isKind kind ∧ (rest.dropWhile isParam).head? = some 0x75 then
      some (kind, rest.takeWhile isParam)
    else none
  | _ => none

/-- The sequences that the host reads. -/
def hostSequences : List UInt8 → List Sequence
  | [] => []
  | byte :: rest => (hostSequenceAt (byte :: rest)).toList ++ hostSequences rest

/-- The host after some output. -/
def Host.process (host : Host) (bytes : List UInt8) : Host :=
  (hostSequences bytes).foldl (fun host sequence => host.apply (change sequence)) host

/-- The keyboard is as it was before the client attached. -/
def Host.GivenBack (host : Host) : Prop := host.stack = [] ∧ host.flags = 0
  deriving Decidable

/-! ### The output -/

/-- A part of the output: text, or a sequence with the digits of its numbers. -/
inductive Piece where
  | text (bytes : List UInt8)
  | push (flags : List UInt8)
  | pop (count : List UInt8)
  | direct (flags : List UInt8) (mode : Option (List UInt8))
  deriving DecidableEq, Repr

namespace Piece

/-- The sequence of a part. -/
def sequence : Piece → Option Sequence
  | text _ => none
  | push flags => some (pushKind, flags)
  | pop count => some (popKind, count)
  | direct flags none => some (directKind, flags)
  | direct flags (some mode) => some (directKind, flags ++ 0x3b :: mode)

/-- The bytes of a part. -/
def bytes (piece : Piece) : List UInt8 :=
  match piece, piece.sequence with
  | text bytes, _ => bytes
  | _, some (kind, params) => 0x1b :: 0x5b :: kind :: params ++ [0x75]
  | _, none => []

/-- What a part means to the host. -/
def change (piece : Piece) : Option Change := piece.sequence.map Keyboard.change

/-- Text has no escape character, a sequence is well formed and shorter than 64 bytes. -/
def WellFormed (piece : Piece) : Prop :=
  match piece with
  | text bytes => 0x1b ∉ bytes
  | push flags => flags.all isAsciiDigit = true ∧ piece.bytes.length < 64
  | pop count =>
    count.all isAsciiDigit = true ∧ (count = [] ∨ 1 ≤ numeral count) ∧ piece.bytes.length < 64
  | direct flags none =>
    flags ≠ [] ∧ flags.all isAsciiDigit = true ∧ piece.bytes.length < 64
  | direct flags (some mode) =>
    flags ≠ [] ∧ flags.all isAsciiDigit = true ∧ mode ≠ [] ∧ mode.all isAsciiDigit = true ∧
      (1 ≤ numeral mode ∧ numeral mode ≤ 3) ∧ piece.bytes.length < 64

instance : DecidablePred WellFormed := fun piece =>
  match piece with
  | text _ => inferInstanceAs (Decidable (_ ∉ _))
  | push _ => inferInstanceAs (Decidable (_ ∧ _))
  | pop _ => inferInstanceAs (Decidable (_ ∧ _))
  | direct _ none => inferInstanceAs (Decidable (_ ∧ _))
  | direct _ (some _) => inferInstanceAs (Decidable (_ ∧ _))

end Piece

/-- The bytes of the output. -/
def bytesOf (pieces : List Piece) : List UInt8 := pieces.flatMap Piece.bytes

/-! ### When the keyboard is given back -/

/-- How far the counter is above the entries that the host holds, and the flags that are taken for the
ones below all entries. -/
structure Tally where
  excess : ℤ
  flags : ℕ
  deriving DecidableEq, Repr

/-- The tally after a sequence, with the host before it. A pop that asks for more entries than there
are, or at most sixteen, lowers the excess by what is missing; a pop whose count does not fit an `i32`
raises it by what it takes; it is never above what sixteen counted pushes leave. Direct changes count
while the host holds no more entries than are missing. -/
def Tally.next (host : Host) (tally : Tally) : Change → Tally
  | .push _ => { tally with excess := min tally.excess (16 - (host.stack.length + 1)) }
  | .pop count =>
    if count < 2 ^ 31 then
      { tally with excess := max (tally.excess - (min count 16 - host.stack.length : ℕ)) (-2 ^ 31) }
    else { tally with excess := tally.excess + host.stack.length }
  | .direct flags mode =>
    if flags < 2 ^ 32 ∧ host.stack.length + tally.excess ≤ 0 then
      { tally with flags := directFlags tally.flags flags mode }
    else tally

/-- The host and the tally after a sequence. -/
def advance (state : Host × Tally) (change : Change) : Host × Tally :=
  (state.1.apply change, state.2.next state.1 change)

/-- The host and the tally after some sequences. -/
def tallied (changes : List Change) : Host × Tally := changes.foldl advance (.initial, ⟨0, 0⟩)

/-- The flags of the host once all its entries are popped one by one. -/
def Host.bottom (host : Host) : ℕ := (host.stack.getLast?).getD host.flags

/-- When the restore works: more pops are sent than the host holds entries, or as many (none if it
holds none), and then the flags below the entries are zero, or taken for nonzero and so reset. -/
def Restorable (changes : List Change) : Prop :=
  let (host, tally) := tallied changes
  0 < tally.excess ∨
    (tally.excess = 0 ∨ host.stack = []) ∧ (tally.flags ≠ 0 ∨ host.bottom = 0)
  deriving Decidable

/-! ### Reading the output -/

theorem isAsciiDigit_iff {byte : UInt8} :
    isAsciiDigit byte = true ↔ 0x30 ≤ byte.toNat ∧ byte.toNat ≤ 0x39 := by
  simp [isAsciiDigit, UInt8.le_iff_toNat_le]

/-- What a digit or a semicolon is not. -/
theorem isParam_facts {byte : UInt8} (h : isParam byte = true) :
    byte ≠ 0x1b ∧ byte ≠ 0x75 ∧ isFinal byte = false := by
  have hrange : 0x30 ≤ byte.toNat ∧ byte.toNat ≤ 0x3b := by
    rcases Bool.or_eq_true _ _ ▸ h with hdigit | hsemicolon
    · have := isAsciiDigit_iff.mp hdigit
      omega
    · rw [eq_of_beq hsemicolon]
      decide
  refine ⟨?_, ?_, ?_⟩
  · rintro rfl
    simp at hrange
  · rintro rfl
    simp at hrange
  · have hlt : ¬ (0x40 : UInt8) ≤ byte := by
      rw [UInt8.le_iff_toNat_le]
      simp only [UInt8.reduceToNat]
      omega
    simp [isFinal, hlt]

theorem isParam_of_digit {byte : UInt8} (h : isAsciiDigit byte = true) : isParam byte = true := by
  simp [isParam, h]

/-- The parameters of a well formed part are digits and semicolons. -/
theorem Piece.WellFormed.params {piece : Piece} (h : piece.WellFormed) {kind : UInt8}
    {params : List UInt8} (hsequence : piece.sequence = some (kind, params)) :
    isKind kind = true ∧ (∀ byte ∈ params, isParam byte = true) ∧ params.length < 60 ∧
      piece.bytes = 0x1b :: 0x5b :: kind :: params ++ [0x75] := by
  have hdigits : ∀ digits : List UInt8, digits.all isAsciiDigit = true →
      ∀ byte ∈ digits, isParam byte = true := by
    intro digits hall byte hbyte
    exact isParam_of_digit (List.all_eq_true.mp hall byte hbyte)
  have hbytes : piece.bytes = 0x1b :: 0x5b :: kind :: params ++ [0x75] := by
    rcases piece with _ | flags | count | ⟨flags, _ | mode⟩
    all_goals
      simp only [Piece.sequence, Option.some.injEq, Prod.mk.injEq, reduceCtorEq] at hsequence
    all_goals
      obtain ⟨rfl, rfl⟩ := hsequence
      rfl
  have hlength : piece.bytes.length < 64 → params.length < 60 := by
    rw [hbytes]
    simp only [List.cons_append, List.length_cons, List.length_append, List.length_nil]
    omega
  rcases piece with _ | flags | count | ⟨flags, _ | mode⟩
  · simp [Piece.sequence] at hsequence
  · obtain ⟨hall, hshort⟩ := h
    obtain ⟨rfl, rfl⟩ := Prod.mk.inj (Option.some.inj hsequence)
    exact ⟨rfl, hdigits _ hall, hlength hshort, hbytes⟩
  · obtain ⟨hall, -, hshort⟩ := h
    obtain ⟨rfl, rfl⟩ := Prod.mk.inj (Option.some.inj hsequence)
    exact ⟨rfl, hdigits _ hall, hlength hshort, hbytes⟩
  · obtain ⟨-, hall, hshort⟩ := h
    obtain ⟨rfl, rfl⟩ := Prod.mk.inj (Option.some.inj hsequence)
    exact ⟨rfl, hdigits _ hall, hlength hshort, hbytes⟩
  · obtain ⟨-, hall, -, hall', -, hshort⟩ := h
    obtain ⟨rfl, rfl⟩ := Prod.mk.inj (Option.some.inj hsequence)
    refine ⟨rfl, fun byte hbyte => ?_, hlength hshort, hbytes⟩
    rcases List.mem_append.mp hbyte with hflags | hrest
    · exact hdigits _ hall byte hflags
    · rcases List.mem_cons.mp hrest with rfl | hmode
      · rfl
      · exact hdigits _ hall' byte hmode

/-- Bytes that do not begin a sequence are passed over, by the observer and by the host. -/
theorem values_skip {l : List UInt8} (h : 0x1b ∉ l) (m : List UInt8) :
    reader.values (l ++ m) = reader.values m ∧ hostSequences (l ++ m) = hostSequences m := by
  induction l with
  | nil => exact ⟨rfl, rfl⟩
  | cons byte l ih =>
    rw [List.mem_cons, not_or] at h
    have hne : byte ≠ 0x1b := fun heq => h.1 heq.symm
    have hhost : hostSequenceAt (byte :: (l ++ m)) = none := by
      unfold hostSequenceAt
      split
      · next escape bracket kind rest hl =>
        simp only [List.cons.injEq] at hl
        rw [if_neg]
        rintro ⟨rfl, -⟩
        exact hne hl.1
      · rfl
    obtain ⟨hvalues, hsequences⟩ := ih h.2
    constructor
    · rw [List.cons_append, Reader.values, hvalues]
      show ((sequenceAt _).map Prod.snd).toList ++ _ = _
      rw [sequenceAt_of_ne hne]
      rfl
    · rw [List.cons_append, hostSequences, hsequences, hhost]
      rfl

theorem findFinal_params {params : List UInt8} (h : ∀ byte ∈ params, isParam byte = true)
    (m : List UInt8) : findFinal (params ++ 0x75 :: m) = some (params.length, 0x75) := by
  induction params with
  | nil => rfl
  | cons byte params ih =>
    rw [List.forall_mem_cons] at h
    rw [List.cons_append, findFinal, (isParam_facts h.1).2.2, ih h.2]
    rfl

/-- A sequence is read whatever comes after it. -/
theorem values_sequence {kind : UInt8} {params : List UInt8} (hkind : isKind kind = true)
    (hparams : ∀ byte ∈ params, isParam byte = true) (hlength : params.length < 60) (m : List UInt8) :
    reader.values (0x1b :: 0x5b :: kind :: params ++ [0x75] ++ m) = (kind, params) :: reader.values m ∧
      hostSequences (0x1b :: 0x5b :: kind :: params ++ [0x75] ++ m) =
        (kind, params) :: hostSequences m := by
  have hinner : 0x1b ∉ 0x5b :: kind :: (params ++ [0x75]) := by
    simp only [List.mem_cons, List.mem_append, List.not_mem_nil, not_or]
    refine ⟨by decide, ?_, fun hmem => (isParam_facts (hparams _ hmem)).1 rfl, by decide, not_false⟩
    rintro rfl
    exact absurd hkind (by decide)
  have hshape : 0x1b :: 0x5b :: kind :: params ++ [0x75] ++ m =
      0x1b :: ((0x5b :: kind :: (params ++ [0x75])) ++ m) := by simp
  obtain ⟨hvalues, hsequences⟩ := values_skip hinner m
  have hread : sequenceAt (0x1b :: 0x5b :: kind :: (params ++ 0x75 :: m)) =
      some (params.length + 3, kind, params) := by
    refine sequenceAt_eq_some.mpr ⟨kind, _, params.length, rfl, hkind, ?_, rfl, by simp⟩
    have htake : (params ++ 0x75 :: m).take 61 = params ++ 0x75 :: m.take (60 - params.length) := by
      rw [List.take_append, List.take_of_length_le (by omega)]
      have hsucc : 61 - params.length = 60 - params.length + 1 := by omega
      rw [hsucc, List.take_succ_cons]
    rw [htake]
    exact findFinal_params hparams _
  have hhost : hostSequenceAt (0x1b :: 0x5b :: kind :: (params ++ 0x75 :: m)) = some (kind, params) := by
    have hstop : isParam 0x75 = false := by decide
    simp [hostSequenceAt, hkind, List.dropWhile_append_of_pos hparams,
      List.takeWhile_append_of_pos hparams, hstop]
  constructor
  · rw [hshape, Reader.values, hvalues]
    have hcons : (0x1b : UInt8) :: ((0x5b :: kind :: (params ++ [0x75])) ++ m) =
        0x1b :: 0x5b :: kind :: (params ++ 0x75 :: m) := by simp
    have hreader : reader.read (0x1b :: 0x5b :: kind :: (params ++ 0x75 :: m)) =
        some (params.length + 3, kind, params) := hread
    rw [hcons, hreader]
    rfl
  · rw [hshape, hostSequences, hsequences]
    have hcons : (0x1b : UInt8) :: ((0x5b :: kind :: (params ++ [0x75])) ++ m) =
        0x1b :: 0x5b :: kind :: (params ++ 0x75 :: m) := by simp
    rw [hcons, hhost]
    rfl

/-- The observer and the host read the sequences of the output. -/
theorem values_bytesOf {pieces : List Piece} (h : ∀ piece ∈ pieces, piece.WellFormed) :
    reader.values (bytesOf pieces) = pieces.filterMap Piece.sequence ∧
      hostSequences (bytesOf pieces) = pieces.filterMap Piece.sequence := by
  induction pieces with
  | nil => exact ⟨rfl, rfl⟩
  | cons piece pieces ih =>
    rw [List.forall_mem_cons] at h
    obtain ⟨hvalues, hsequences⟩ := ih h.2
    have hcons : bytesOf (piece :: pieces) = piece.bytes ++ bytesOf pieces := rfl
    rw [hcons]
    rcases hsequence : piece.sequence with _ | ⟨kind, params⟩
    · have htext : ∃ bytes, piece = .text bytes := by
        rcases piece with bytes | _ | _ | ⟨_, _ | _⟩
        · exact ⟨bytes, rfl⟩
        all_goals simp [Piece.sequence] at hsequence
      obtain ⟨bytes, rfl⟩ := htext
      have hskip := values_skip (l := bytes) h.1 (bytesOf pieces)
      rw [List.filterMap_cons_none hsequence]
      exact ⟨hskip.1.trans hvalues, hskip.2.trans hsequences⟩
    · obtain ⟨hkind, hparams, hlength, hbytes⟩ := h.1.params hsequence
      have hread := values_sequence hkind hparams hlength (bytesOf pieces)
      rw [List.filterMap_cons_some hsequence, hbytes]
      rw [hvalues, hsequences] at hread
      exact hread

/-! ### The counter and the host -/

theorem notSemicolon_of_digit {digits : List UInt8} (h : digits.all isAsciiDigit = true) :
    ∀ byte ∈ digits, notSemicolon byte = true := by
  intro byte hbyte
  have hrange := isAsciiDigit_iff.mp (List.all_eq_true.mp h byte hbyte)
  have hne : byte ≠ 0x3b := by
    rintro rfl
    simp at hrange
  simpa [notSemicolon] using hne

theorem parts_flags {flags : List UInt8} (h : flags.all isAsciiDigit = true) :
    firstPart flags = flags ∧ secondPart flags = none := by
  have hall := notSemicolon_of_digit h
  refine ⟨List.takeWhile_eq_self_iff.mpr hall, ?_⟩
  unfold secondPart
  rw [List.dropWhile_eq_nil_iff.mpr hall]

theorem parts_mode {flags mode : List UInt8} (h : flags.all isAsciiDigit = true)
    (h' : mode.all isAsciiDigit = true) :
    firstPart (flags ++ 0x3b :: mode) = flags ∧ secondPart (flags ++ 0x3b :: mode) = some mode := by
  have hall := notSemicolon_of_digit h
  have hstop : notSemicolon 0x3b = false := rfl
  constructor
  · rw [firstPart, List.takeWhile_append_of_pos hall, List.takeWhile_cons, hstop]
    simp
  · unfold secondPart
    rw [List.dropWhile_append_of_pos hall, List.dropWhile_cons, hstop]
    simp only [Bool.false_eq_true, if_false, Option.some.injEq]
    exact List.takeWhile_eq_self_iff.mpr (notSemicolon_of_digit h')

theorem parseCsiUNumber_digits {digits : List UInt8} (hne : digits ≠ [])
    (h : digits.all isAsciiDigit = true) :
    parseCsiUNumber digits = if numeral digits < 2 ^ 32 then some (numeral digits) else none := by
  simp [parseCsiUNumber, hne, h]

/-- What a change does to what is observed. -/
def observeChange (state : KeyboardProtocolRestoreState) : Change → KeyboardProtocolRestoreState
  | .push _ => observeKittyPush state
  | .pop count => if count < 2 ^ 31 then observeKittyPop state (min count 16) else state
  | .direct flags mode => if flags < 2 ^ 32 then observeKittyDirect state ⟨flags, mode⟩ else state

theorem keyboardProtocolPopCount_digits {digits : List UInt8} (hne : digits ≠ [])
    (h : digits.all isAsciiDigit = true) :
    keyboardProtocolPopCount digits =
      if numeral digits < 2 ^ 31 then some (min (numeral digits : ℤ) 16) else none := by
  unfold keyboardProtocolPopCount maxKeyboardProtocolRestorePops
  rw [if_neg hne, if_neg (not_not.mpr h)]

theorem keyboardProtocolDirectChange_digits {params flags : List UInt8} {mode : ℕ} (hne : flags ≠ [])
    (h : flags.all isAsciiDigit = true) (hfirst : firstPart params = flags)
    (hsecond : directMode params = some mode) (hmode : 1 ≤ mode ∧ mode ≤ 3) :
    keyboardProtocolDirectChange params =
      if numeral flags < 2 ^ 32 then some ⟨numeral flags, mode⟩ else none := by
  unfold keyboardProtocolDirectChange
  rw [hfirst, parseCsiUNumber_digits hne h]
  by_cases hfits : numeral flags < 2 ^ 32
  · rw [if_pos hfits, if_pos hfits, Option.bind_eq_bind, Option.bind_some, hsecond, Option.bind_some,
      if_pos hmode]
  · rw [if_neg hfits, if_neg hfits]
    rfl

/-- The observer reads the numbers of a well formed sequence, except the ones that are too large. -/
theorem observeSequence_eq {piece : Piece} (h : piece.WellFormed) {sequence : Sequence}
    (hsequence : piece.sequence = some sequence) (state : KeyboardProtocolRestoreState) :
    observeSequence state sequence = observeChange state (change sequence) := by
  have hpop : popKind ≠ pushKind := by decide
  have hdirect : directKind ≠ pushKind ∧ directKind ≠ popKind := by decide
  have hchange : ∀ params flags mode, keyboardProtocolDirectChange params =
      (if numeral flags < 2 ^ 32 then some ⟨numeral flags, mode⟩ else none) →
      change (directKind, params) = .direct (numeral flags) mode →
      observeSequence state (directKind, params) =
        observeChange state (change (directKind, params)) := by
    intro params flags mode hparse hmeaning
    rw [hmeaning]
    unfold observeSequence
    rw [if_neg hdirect.1, if_neg hdirect.2, if_pos rfl, hparse]
    show _ = if _ then _ else _
    split_ifs
    · rfl
    · rfl
  rcases piece with _ | flags | count | ⟨flags, _ | mode⟩
  · simp [Piece.sequence] at hsequence
  · obtain rfl := Option.some.inj hsequence
    simp [observeSequence, change, observeChange]
  · obtain rfl := Option.some.inj hsequence
    obtain ⟨hall, -, -⟩ := h
    unfold observeSequence change
    rw [if_neg hpop, if_pos rfl, if_neg hpop, if_pos rfl]
    by_cases hempty : count = []
    · subst hempty
      rfl
    · rw [keyboardProtocolPopCount_digits hempty hall, if_neg hempty]
      show _ = if _ then _ else _
      split_ifs
      · rfl
      · rfl
  · obtain rfl := Option.some.inj hsequence
    obtain ⟨hne, hall, -⟩ := h
    obtain ⟨hfirst, hsecond⟩ := parts_flags hall
    have hmode : directMode flags = some 1 := by
      unfold directMode
      rw [hsecond]
    refine hchange flags flags 1 ?_ ?_
    · exact keyboardProtocolDirectChange_digits hne hall hfirst hmode (by decide)
    · simp [change, hdirect, hfirst, hsecond]
  · obtain rfl := Option.some.inj hsequence
    obtain ⟨hne, hall, hne', hall', hmode, -⟩ := h
    obtain ⟨hfirst, hsecond⟩ := parts_mode hall hall'
    refine hchange _ flags (numeral mode) ?_ ?_
    · refine keyboardProtocolDirectChange_digits hne hall hfirst ?_ hmode
      unfold directMode
      rw [hsecond]
      show parseCsiUNumber mode = _
      rw [parseCsiUNumber_digits hne' hall', if_pos (by omega)]
    · simp [change, hdirect, hfirst, hsecond]

/-- The counter and the flags are what the host and the tally say. -/
structure Follows (state : KeyboardProtocolRestoreState) (host : Host) (tally : Tally) : Prop where
  depth : state.kittyPushDepth = host.stack.length + tally.excess
  flags : state.kittyDirectFlags = tally.flags
  least : -2 ^ 31 ≤ tally.excess
  most : state.kittyPushDepth ≤ 16
  bounded : host.stack.length ≤ 16

/-- One sequence keeps them in step, as long as the host does not hold too much. -/
theorem Follows.step {state : KeyboardProtocolRestoreState} {host : Host} {tally : Tally}
    (h : Follows state host tally) (c : Change) (hbound : (host.apply c).stack.length ≤ 16) :
    Follows (observeChange state c) (host.apply c) (tally.next host c) := by
  obtain ⟨hdepth, hflags, hleast, hmost, hbounded⟩ := h
  cases c with
  | push flags =>
    simp only [Host.apply, List.length_cons] at hbound
    refine ⟨?_, hflags, ?_, ?_, hbound⟩
    all_goals
      simp only [observeChange, observeKittyPush, maxKeyboardProtocolRestorePops, Host.apply, Tally.next,
        List.length_cons, Nat.cast_add, Nat.cast_one]
      omega
  | pop count =>
    simp only [Host.apply, List.length_drop] at hbound
    simp only [observeChange, observeKittyPop, Host.apply, Tally.next]
    split_ifs with hfits hcount
    · refine ⟨?_, hflags, ?_, hmost, by rw [List.length_drop]; omega⟩
      all_goals
        simp only [List.length_drop]
        omega
    · refine ⟨?_, hflags, ?_, ?_, by rw [List.length_drop]; omega⟩
      all_goals
        simp only [List.length_drop]
        omega
    · refine ⟨?_, hflags, ?_, hmost, by rw [List.length_drop]; omega⟩
      all_goals
        simp only [List.length_drop]
        omega
  | direct flags mode =>
    simp only [observeChange, observeKittyDirect, Tally.next]
    by_cases hfits : flags < 2 ^ 32
    · by_cases hbelow : (host.stack.length : ℤ) + tally.excess ≤ 0
      · rw [if_pos hfits, if_neg (by omega), if_pos ⟨hfits, hbelow⟩]
        exact ⟨hdepth, by rw [hflags], hleast, hmost, hbounded⟩
      · rw [if_pos hfits, if_pos (by omega), if_neg (fun hboth => hbelow hboth.2)]
        exact ⟨hdepth, hflags, hleast, hmost, hbounded⟩
    · rw [if_neg hfits, if_neg (fun hboth => hfits hboth.1)]
      exact ⟨hdepth, hflags, hleast, hmost, hbounded⟩

/-- The changes of the output. -/
def changesOf (pieces : List Piece) : List Change := pieces.filterMap Piece.change

theorem changesOf_eq (pieces : List Piece) :
    changesOf pieces = (pieces.filterMap Piece.sequence).map change := by
  rw [List.map_filterMap]
  rfl

theorem process_bytesOf {pieces : List Piece} (h : ∀ piece ∈ pieces, piece.WellFormed) (host : Host) :
    host.process (bytesOf pieces) = (changesOf pieces).foldl Host.apply host := by
  rw [Host.process, (values_bytesOf h).2, changesOf_eq, List.foldl_map]

theorem fst_foldl_advance (changes : List Change) : ∀ state : Host × Tally,
    (changes.foldl advance state).1 = changes.foldl Host.apply state.1 := by
  induction changes with
  | nil => intro state; rfl
  | cons c changes ih => intro state; exact ih _

/-- The counter follows the host over the whole output. -/
theorem follows_foldl : ∀ {pieces : List Piece} {state : KeyboardProtocolRestoreState} {host : Host}
    {tally : Tally}, (∀ piece ∈ pieces, piece.WellFormed) → Follows state host tally →
      (∀ n ≤ pieces.length, ((changesOf (pieces.take n)).foldl Host.apply host).stack.length ≤ 16) →
      Follows ((pieces.filterMap Piece.sequence).foldl observeSequence state)
        ((changesOf pieces).foldl advance (host, tally)).1
        ((changesOf pieces).foldl advance (host, tally)).2 := by
  intro pieces
  induction pieces with
  | nil => exact fun _ h _ => h
  | cons piece pieces ih =>
    intro state host tally hpieces h hbound
    rw [List.forall_mem_cons] at hpieces
    rcases hsequence : piece.sequence with _ | sequence
    · have hchange : piece.change = none := by rw [Piece.change, hsequence]; rfl
      have hskip : ∀ rest, changesOf (piece :: rest) = changesOf rest := fun rest =>
        List.filterMap_cons_none hchange
      rw [List.filterMap_cons_none hsequence, hskip]
      refine ih hpieces.2 h fun n hn => ?_
      have hnext := hbound (n + 1) (by rw [List.length_cons]; omega)
      rw [List.take_succ_cons, hskip] at hnext
      exact hnext
    · have hchange : piece.change = some (change sequence) := by rw [Piece.change, hsequence]; rfl
      have hcons : ∀ rest, changesOf (piece :: rest) = change sequence :: changesOf rest := fun rest =>
        List.filterMap_cons_some hchange
      have hfirst := hbound 1 (by rw [List.length_cons]; omega)
      rw [List.take_succ_cons, List.take_zero, hcons] at hfirst
      have hstep := h.step (change sequence) hfirst
      rw [← observeSequence_eq hpieces.1 hsequence] at hstep
      rw [List.filterMap_cons_some hsequence, hcons]
      refine ih hpieces.2 hstep fun n hn => ?_
      have hnext := hbound (n + 1) (by rw [List.length_cons]; omega)
      rw [List.take_succ_cons, hcons] at hnext
      exact hnext

/-! ### The restore -/

/-- The parts of the restore bytes. -/
def restorePieces (pops : ℕ) (reset : Bool) : List Piece :=
  List.replicate pops (.pop []) ++ if reset = true then [.direct [0x30] none] else []

theorem bytesOf_restorePieces (pops : ℕ) (reset : Bool) :
    bytesOf (restorePieces pops reset) =
      (List.replicate pops popBytes).flatten ++ if reset = true then resetBytes else [] := by
  rw [restorePieces, bytesOf, List.flatMap_append]
  congr 1
  · rw [List.flatMap_replicate]
    rfl
  · cases reset <;> rfl

theorem keyboardProtocolRestoreBytes_eq (state : KeyboardProtocolRestoreState) :
    keyboardProtocolRestoreBytes state =
      bytesOf (restorePieces (max 0 (min state.kittyPushDepth 16)).toNat
        (decide (state.kittyDirectFlags ≠ 0))) := by
  rw [bytesOf_restorePieces, keyboardProtocolRestoreBytes]
  simp only [maxKeyboardProtocolRestorePops, decide_eq_true_eq]

theorem wellFormed_restorePieces (pops : ℕ) (reset : Bool) :
    ∀ piece ∈ restorePieces pops reset, piece.WellFormed := by
  intro piece hpiece
  rcases List.mem_append.mp hpiece with hpop | hreset
  · rw [List.eq_of_mem_replicate hpop]
    decide
  · cases reset
    · simp at hreset
    · rw [if_pos rfl, List.mem_singleton] at hreset
      rw [hreset]
      decide

/-- The host after single pops: they restore the entries one by one, and then clear the flags. -/
theorem foldl_pop (pops : ℕ) : ∀ host : Host,
    (List.replicate pops (Change.pop 1)).foldl Host.apply host =
      if pops < host.stack.length then
        ⟨host.stack.drop pops, ((host.stack.take pops).getLast?).getD host.flags⟩
      else if pops = host.stack.length then ⟨[], host.bottom⟩ else ⟨[], 0⟩ := by
  induction pops with
  | zero =>
    rintro ⟨stack, flags⟩
    rcases stack with _ | ⟨a, stack⟩
    · rfl
    · simp
  | succ pops ih =>
    rintro ⟨stack, flags⟩
    rw [List.replicate_succ, List.foldl_cons, ih]
    rcases stack with _ | ⟨a, stack⟩
    · simp [Host.apply, Host.bottom]
    · have happly : Host.apply ⟨a :: stack, flags⟩ (.pop 1) = ⟨stack, a⟩ := by simp [Host.apply]
      rw [happly]
      simp only [List.length_cons, Nat.succ_lt_succ_iff, Nat.add_right_cancel_iff, List.drop_succ_cons,
        List.take_succ_cons, Host.bottom, List.getLast?_cons]
      simp

theorem changesOf_restorePieces (pops : ℕ) (reset : Bool) :
    changesOf (restorePieces pops reset) =
      List.replicate pops (Change.pop 1) ++ if reset = true then [Change.direct 0 1] else [] := by
  rw [restorePieces, changesOf, List.filterMap_append]
  congr 1
  · rw [List.filterMap_replicate_of_some (b := Change.pop 1) (by decide)]
  · cases reset
    · rfl
    · decide

/-- The host after the restore is as it was before, exactly if the condition holds. -/
theorem givenBack_iff_of_follows {state : KeyboardProtocolRestoreState} {host : Host} {tally : Tally}
    (h : Follows state host tally) :
    (host.process (keyboardProtocolRestoreBytes state)).GivenBack ↔
      0 < tally.excess ∨
        (tally.excess = 0 ∨ host.stack = []) ∧ (tally.flags ≠ 0 ∨ host.bottom = 0) := by
  obtain ⟨hdepth, hflags, hleast, hmost, hbounded⟩ := h
  rw [keyboardProtocolRestoreBytes_eq, min_eq_left hmost, hflags, process_bytesOf (wellFormed_restorePieces _ _), changesOf_restorePieces,
    List.foldl_append, foldl_pop]
  have hempty : host.stack = [] ↔ host.stack.length = 0 := List.length_eq_zero_iff.symm
  rcases lt_trichotomy (max 0 state.kittyPushDepth).toNat host.stack.length with hlt | heq | hgt
  · have hne : host.stack.drop (max 0 state.kittyPushDepth).toNat ≠ [] := by
      rw [← List.length_pos_iff, List.length_drop]
      omega
    rw [if_pos hlt]
    refine iff_of_false ?_ ?_
    · rintro ⟨hstack, -⟩
      cases hreset : decide (tally.flags ≠ 0) <;> rw [hreset] at hstack <;> exact hne hstack
    · rw [hempty]
      rintro (hpos | ⟨hzero | hzero, -⟩) <;> omega
  · rw [if_neg (by omega), if_pos heq]
    have hcount : ¬ 0 < tally.excess ∧ (tally.excess = 0 ∨ host.stack = []) := by
      rw [hempty]
      omega
    rw [or_iff_right hcount.1, and_iff_right hcount.2]
    by_cases hzero : tally.flags = 0
    · simp [hzero, Host.GivenBack]
    · simp [hzero, Host.GivenBack, Host.apply, directFlags]
  · rw [if_neg (by omega), if_neg (by omega)]
    refine iff_of_true ?_ (.inl (by omega))
    by_cases hzero : tally.flags = 0
    · simp [hzero, Host.GivenBack]
    · simp [hzero, Host.GivenBack, Host.apply, directFlags]

/-- **When the keyboard is given back.** The output is text and well formed sequences, and the host
never holds more than sixteen entries: for every way to cut the output into chunks, the restore bytes
leave the host as it was before exactly if the condition on the sequences holds. -/
theorem given_back_iff {pieces : List Piece} {chunks : List (List UInt8)}
    (hpieces : ∀ piece ∈ pieces, piece.WellFormed) (hchunks : chunks.flatten = bytesOf pieces)
    (hbound : ∀ n ≤ pieces.length, (Host.initial.process (bytesOf (pieces.take n))).stack.length ≤ 16) :
    (Host.initial.process (bytesOf pieces ++
      keyboardProtocolRestoreBytes (observeAll chunks).restoreState)).GivenBack ↔
      Restorable (changesOf pieces) := by
  have htake : ∀ n, ∀ piece ∈ pieces.take n, piece.WellFormed := fun n piece hpiece =>
    hpieces piece (List.mem_of_mem_take hpiece)
  have hstart : Follows .default .initial ⟨0, 0⟩ := ⟨rfl, rfl, by decide, by decide, by decide⟩
  have hfollows := follows_foldl hpieces hstart fun n hn => by
    rw [← process_bytesOf (htake n)]
    exact hbound n hn
  rw [← (values_bytesOf hpieces).1, ← hchunks, ← observeAll_restoreState] at hfollows
  have hsplit : Host.initial.process (bytesOf pieces ++
      keyboardProtocolRestoreBytes (observeAll chunks).restoreState) =
      (Host.initial.process (bytesOf pieces)).process
        (keyboardProtocolRestoreBytes (observeAll chunks).restoreState) := by
    rw [keyboardProtocolRestoreBytes_eq]
    generalize (max 0 (min (observeAll chunks).restoreState.kittyPushDepth 16)).toNat = pops
    generalize decide ((observeAll chunks).restoreState.kittyDirectFlags ≠ 0) = reset
    have hall : ∀ piece ∈ pieces ++ restorePieces pops reset, piece.WellFormed := fun piece hpiece =>
      (List.mem_append.mp hpiece).elim (hpieces piece) (wellFormed_restorePieces _ _ piece)
    have hbytes : bytesOf pieces ++ bytesOf (restorePieces pops reset) =
        bytesOf (pieces ++ restorePieces pops reset) := List.flatMap_append.symm
    rw [hbytes, process_bytesOf hall, process_bytesOf hpieces,
      process_bytesOf (wellFormed_restorePieces _ _), changesOf, List.filterMap_append, List.foldl_append]
    rfl
  rw [hsplit, process_bytesOf hpieces, ← fst_foldl_advance (changesOf pieces) (Host.initial, ⟨0, 0⟩)]
  exact givenBack_iff_of_follows hfollows

/-- A push and its pop, cut in the middle of both sequences. -/
theorem given_back_iff_push_pop :
    (Host.initial.process (bytesOf [.push [0x31], .pop []] ++ keyboardProtocolRestoreBytes
      (observeAll [[0x1b, 0x5b], [0x3e, 0x31, 0x75, 0x1b], [0x5b, 0x3c, 0x75]]).restoreState)).GivenBack ↔
      Restorable (changesOf [.push [0x31], .pop []]) :=
  given_back_iff (by decide) (by decide) (by decide)

/-- A pop for a push made before the client attached, and a push after it: the counter is back at zero,
and the entry of the push stays with the host. -/
theorem push_after_early_pop_left :
    (∀ piece ∈ [Piece.pop [], .push [0x31]], piece.WellFormed) ∧
      (∀ n ≤ 2, (Host.initial.process (bytesOf ([Piece.pop [], .push [0x31]].take n))).stack.length ≤ 16) ∧
      ¬ (Host.initial.process (bytesOf [Piece.pop [], .push [0x31]] ++ keyboardProtocolRestoreBytes
        (observeAll [bytesOf [Piece.pop [], .push [0x31]]]).restoreState)).GivenBack := by
  decide

/-- No push finds sixteen entries, no pop asks for more entries than the host holds, and the flags can
be read. -/
def Balanced : List Change → Host → Prop
  | [], _ => True
  | c :: changes, host =>
    (match c with
      | .push _ => host.stack.length < 16
      | .pop count => 1 ≤ count ∧ count ≤ host.stack.length
      | .direct flags _ => flags < 2 ^ 32) ∧ Balanced changes (host.apply c)

/-- Pops that take what is there leave the flags below all entries. -/
theorem bottom_pop {host : Host} {count : ℕ} (hpos : 1 ≤ count) (hle : count ≤ host.stack.length) :
    (host.apply (.pop count)).bottom = host.bottom := by
  have hsplit := List.take_append_drop count host.stack
  have htop : host.stack.take count ≠ [] := by
    rw [← List.length_pos_iff, List.length_take]
    omega
  have hlast : host.stack.getLast? =
      ((host.stack.drop count).getLast?).or (host.stack.take count).getLast? := by
    conv_lhs => rw [← hsplit]
    rw [List.getLast?_append]
  obtain ⟨saved, hsaved⟩ : ∃ saved, (host.stack.take count).getLast? = some saved :=
    ⟨_, List.getLast?_eq_some_getLast htop⟩
  simp only [Host.apply, Host.bottom, hlast, hsaved]
  rcases (host.stack.drop count).getLast? with _ | _
  · rfl
  · rfl

theorem bottom_push (host : Host) (flags : ℕ) : (host.apply (.push flags)).bottom = host.bottom := by
  obtain ⟨_ | ⟨a, stack⟩, current⟩ := host
  · rfl
  · simp [Host.apply, Host.bottom, List.getLast?_cons]

/-- A sequence of a balanced output leaves no excess, and the flags below all entries are known. -/
theorem next_balanced {host : Host} {c : Change} {changes : List Change}
    (h : Balanced (c :: changes) host) (hbound : host.stack.length ≤ 16) :
    Tally.next host ⟨0, host.bottom⟩ c = ⟨0, (host.apply c).bottom⟩ ∧
      (host.apply c).stack.length ≤ 16 := by
  cases c with
  | push flags =>
    have hroom : host.stack.length < 16 := h.1
    rw [bottom_push]
    refine ⟨?_, by simp only [Host.apply, List.length_cons]; omega⟩
    simp only [Tally.next, Tally.mk.injEq, and_true]
    omega
  | pop count =>
    obtain ⟨hpos, hle⟩ : 1 ≤ count ∧ count ≤ host.stack.length := h.1
    rw [bottom_pop hpos hle]
    refine ⟨?_, by simp only [Host.apply, List.length_drop]; omega⟩
    show (if _ then _ else _) = _
    rw [if_pos (by omega)]
    simp only [Tally.mk.injEq, and_true]
    omega
  | direct flags mode =>
    have hfits : flags < 2 ^ 32 := h.1
    refine ⟨?_, hbound⟩
    show (if _ then _ else _) = _
    obtain ⟨_ | ⟨a, stack⟩, current⟩ := host
    · rw [if_pos ⟨hfits, by simp⟩]
      rfl
    · rw [if_neg (by simp)]
      simp [Host.apply, Host.bottom, List.getLast?_cons]

/-- The keyboard is given back if the output takes back only what it pushed. -/
theorem restorable_of_balanced {changes : List Change} (h : Balanced changes .initial) :
    Restorable changes := by
  have hinv : ∀ (changes : List Change) (host : Host), Balanced changes host →
      host.stack.length ≤ 16 → ∃ host', changes.foldl advance (host, ⟨0, host.bottom⟩) =
        (host', ⟨0, host'.bottom⟩) := by
    intro changes
    induction changes with
    | nil => exact fun host _ _ => ⟨host, rfl⟩
    | cons c changes ih =>
      intro host h hbound
      obtain ⟨hnext, hbound'⟩ := next_balanced h hbound
      rw [List.foldl_cons, advance, hnext]
      exact ih _ h.2 hbound'
  obtain ⟨host, hfinal⟩ := hinv changes .initial h (by decide)
  have hstart : tallied changes = (host, ⟨0, host.bottom⟩) := hfinal
  unfold Restorable
  rw [hstart]
  exact .inr ⟨.inl rfl, or_iff_not_imp_right.mpr id⟩

end LightTerminal.Client.Keyboard
