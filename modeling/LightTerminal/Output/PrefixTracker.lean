import LightTerminal.Sanitize.Scalars

/-! # The unfinished sequence at the end of the output

`TerminalPrefixTracker` of `server.rs` keeps the bytes of the escape sequence that the output has
begun and not finished, so that a client that attaches can be sent them before the live bytes. It
is a third copy of the escape grammar, with a counter of the continuation bytes still owed instead
of a decoder, and a limit on the length.

What it is for is said with the repository's decoder: from the pending bytes a fresh decoder comes
into the state of the decoder that has read everything. The tracker follows the decoder
(`Tracks`) as long as no byte is read differently by the two (`admits`). The bytes at which they
differ are listed there; besides, at three places the tracker has nothing pending by its grammar
while the decoder is not at rest: inside a scalar of plain text, after a charset designator, and
after an intermediate byte (`AtRest`). -/

namespace LightTerminal.Output.PrefixTracker

open LightTerminal.Library.Utf8
open LightTerminal.Sanitize.Capture LightTerminal.Sanitize.Chunks LightTerminal.Sanitize.Scalars

/-! ### The tracker -/

/-- `MAX_PENDING_ESCAPE_BYTES`. -/
def maxPendingEscapeBytes : ℕ := 8192

/-- `TerminalPrefixState`. -/
inductive TerminalPrefixState where
  | ground
  | escape
  | csi
  | string
  | stringEscape
  deriving DecidableEq, Repr

/-- `TerminalPrefixTracker`. -/
structure TerminalPrefixTracker where
  state : TerminalPrefixState
  pending : List UInt8
  utf8Remaining : ℕ
  deriving DecidableEq, Repr

/-- `TerminalPrefixTracker::default`. -/
def TerminalPrefixTracker.default : TerminalPrefixTracker := ⟨.ground, [], 0⟩

/-- The bytes `0x80..=0xbf`. -/
def isContinuation (byte : UInt8) : Bool := 0x80 ≤ byte && byte ≤ 0xbf

/-- `is_utf8_continuation`. -/
def isUtf8Continuation (remaining : ℕ) (byte : UInt8) : Bool :=
  0 < remaining && isContinuation byte

/-- `update_utf8_state`. -/
def updateUtf8State (remaining : ℕ) (byte : UInt8) : ℕ :=
  if 0 < remaining ∧ isContinuation byte then remaining - 1
  else if 0xc2 ≤ byte ∧ byte ≤ 0xdf then 1
  else if 0xe0 ≤ byte ∧ byte ≤ 0xef then 2
  else if 0xf0 ≤ byte ∧ byte ≤ 0xf4 then 3
  else 0

/-- The state and the pending bytes, which the `process_*` functions update. -/
abbrev Progress := TerminalPrefixState × List UInt8

/-- `process_ground`. -/
def processGround (byte : UInt8) (rawC1 : Bool) : Progress :=
  if byte = 0x1b then (.escape, [byte])
  else if byteOpensString byte ∧ rawC1 then (.string, [byte])
  else if byte = 0x9b ∧ rawC1 then (.csi, [byte])
  else (.ground, [])

/-- `process_escape`. -/
def processEscape (pending : List UInt8) (byte : UInt8) : Progress :=
  if byte = 0x5b then (.csi, pending ++ [byte])
  else if byte = 0x5d ∨ byte = 0x50 ∨ byte = 0x58 ∨ byte = 0x5e ∨ byte = 0x5f then
    (.string, pending ++ [byte])
  else if byte = 0x1b then (.escape, [byte])
  else (.ground, [])

/-- `process_csi`. -/
def processCsi (pending : List UInt8) (byte : UInt8) (rawC1 : Bool) : Progress :=
  if byte = 0x18 ∨ byte = 0x1a then (.ground, [])
  else if byte = 0x9c ∧ rawC1 then (.ground, [])
  else if byte = 0x1b then (.escape, [byte])
  else if 0x40 ≤ byte ∧ byte ≤ 0x7e then (.ground, [])
  else (.csi, pending ++ [byte])

/-- `process_string`. -/
def processString (pending : List UInt8) (byte : UInt8) (rawC1 : Bool) : Progress :=
  if byte = 0x07 ∨ byte = 0x18 ∨ byte = 0x1a then (.ground, [])
  else if byte = 0x9c ∧ rawC1 then (.ground, [])
  else if byte = 0x1b then (.stringEscape, pending ++ [byte])
  else (.string, pending ++ [byte])

/-- `process_string_escape`. -/
def processStringEscape (pending : List UInt8) (byte : UInt8) (rawC1 : Bool) : Progress :=
  if byte = 0x5c ∨ byte = 0x18 ∨ byte = 0x1a then (.ground, [])
  else if byte = 0x9c ∧ rawC1 then (.ground, [])
  else if byte = 0x1b then (.stringEscape, pending ++ [byte])
  else (.string, pending ++ [byte])

/-- The `match` of `process_byte`. -/
def advance (state : TerminalPrefixState) (pending : List UInt8) (byte : UInt8) (rawC1 : Bool) :
    Progress :=
  match state with
  | .ground => processGround byte rawC1
  | .escape => processEscape pending byte
  | .csi => processCsi pending byte rawC1
  | .string => processString pending byte rawC1
  | .stringEscape => processStringEscape pending byte rawC1

/-- `process_byte`: beyond the limit the sequence is forgotten. -/
def processByte (tracker : TerminalPrefixTracker) (byte : UInt8) : TerminalPrefixTracker :=
  let rawC1 := !isUtf8Continuation tracker.utf8Remaining byte
  let next := advance tracker.state tracker.pending byte rawC1
  let utf8Remaining := updateUtf8State tracker.utf8Remaining byte
  if next.2.length > maxPendingEscapeBytes then ⟨.ground, [], utf8Remaining⟩
  else ⟨next.1, next.2, utf8Remaining⟩

/-- `process`. -/
def process (tracker : TerminalPrefixTracker) (bytes : List UInt8) : TerminalPrefixTracker :=
  bytes.foldl processByte tracker

/-- The tracker after the chunks of output. -/
def processChunks (tracker : TerminalPrefixTracker) (chunks : List (List UInt8)) :
    TerminalPrefixTracker :=
  chunks.foldl process tracker

theorem processChunks_eq (chunks : List (List UInt8)) : ∀ tracker,
    processChunks tracker chunks = process tracker chunks.flatten := by
  induction chunks with
  | nil => intro tracker; rfl
  | cons chunk chunks ih =>
    intro tracker
    have h := ih (process tracker chunk)
    unfold processChunks process at h ⊢
    rw [List.foldl_cons, h, List.flatten_cons, List.foldl_append]

/-! ### What a byte does to the pending bytes -/

/-- A byte ends the sequence, begins one, or belongs to it. -/
inductive Keep where
  | clear
  | restart
  | push
  deriving DecidableEq, Repr

/-- The pending bytes after a byte. -/
def Keep.apply (keep : Keep) (pending : List UInt8) (byte : UInt8) : List UInt8 :=
  match keep with
  | .clear => []
  | .restart => [byte]
  | .push => pending ++ [byte]

/-- What a byte does in a state, read off a run on two pending bytes. -/
def act (state : TerminalPrefixState) (byte : UInt8) (rawC1 : Bool) :
    TerminalPrefixState × Keep :=
  let next := advance state [byte, byte] byte rawC1
  (next.1, if next.2.length = 0 then .clear else if next.2.length = 1 then .restart else .push)

theorem advance_act (state : TerminalPrefixState) (pending : List UInt8) (byte : UInt8)
    (rawC1 : Bool) :
    advance state pending byte rawC1 =
      ((act state byte rawC1).1, (act state byte rawC1).2.apply pending byte) := by
  unfold act
  cases state with
  | ground =>
    simp only [advance, processGround]
    split_ifs <;> simp_all [Keep.apply]
  | escape =>
    simp only [advance, processEscape]
    split_ifs <;> simp_all [Keep.apply]
  | csi =>
    simp only [advance, processCsi]
    split_ifs <;> simp_all [Keep.apply]
  | string =>
    simp only [advance, processString]
    split_ifs <;> simp_all [Keep.apply]
  | stringEscape =>
    simp only [advance, processStringEscape]
    split_ifs <;> simp_all [Keep.apply]

/-- How an update keeps the pending bytes. -/
def keepOf (next : Progress) : TerminalPrefixState × Keep :=
  (next.1, if next.2.length = 0 then .clear else if next.2.length = 1 then .restart else .push)

/-- What an update of two pending bytes may be, whatever the byte is. -/
structure Facts (state : TerminalPrefixState) (byte : UInt8) (rawC1 : Bool) (next : Progress) :
    Prop where
  clear : (keepOf next).2 = .clear → (keepOf next).1 = .ground
  push : (keepOf next).2 = .push → state ≠ .ground
  restart : (keepOf next).2 = .restart → act .ground byte true = keepOf next ∧
    (byte = 0x1b ∨ (rawC1 = true ∧ isContinuation byte = true))
  escape : (keepOf next).1 = .escape → byte = 0x1b
  ground : (keepOf next).1 = .ground → byte ≠ 0x1b

section Facts
variable {state : TerminalPrefixState} {byte : UInt8} {rawC1 : Bool}

theorem Facts.ite {c : Prop} [Decidable c] {next next' : Progress}
    (h : c → Facts state byte rawC1 next) (h' : ¬ c → Facts state byte rawC1 next') :
    Facts state byte rawC1 (if c then next else next') := by
  by_cases hc : c
  · rw [if_pos hc]
    exact h hc
  · rw [if_neg hc]
    exact h' hc

theorem Facts.cleared (h : byte ≠ 0x1b) : Facts state byte rawC1 (.ground, []) where
  clear _ := rfl
  push hpush := by cases hpush
  restart hrestart := by cases hrestart
  escape hescape := by cases hescape
  ground _ := h

theorem Facts.pushed {next : TerminalPrefixState} (hstate : state ≠ .ground) (hground : next ≠ .ground)
    (hescape : next ≠ .escape) : Facts state byte rawC1 (next, [byte, byte] ++ [byte]) where
  clear hclear := by cases hclear
  push _ := hstate
  restart hrestart := by cases hrestart
  escape hnext := absurd hnext hescape
  ground hnext := absurd hnext hground

/-- A sequence begun by `ESC`. -/
theorem Facts.escaped (h : byte = 0x1b) : Facts state byte rawC1 (.escape, [byte]) where
  clear hclear := by cases hclear
  push hpush := by cases hpush
  restart _ := by
    subst h
    exact ⟨rfl, Or.inl rfl⟩
  escape _ := h
  ground hground := by cases hground

/-- A sequence begun by a raw C1 byte. -/
theorem Facts.opened {next : TerminalPrefixState} (hact : act .ground byte true = (next, .restart))
    (hraw : rawC1 = true) (hbyte : isContinuation byte = true) (hground : next ≠ .ground)
    (hescape : next ≠ .escape) : Facts state byte rawC1 (next, [byte]) where
  clear hclear := by cases hclear
  push hpush := by cases hpush
  restart _ := ⟨hact, Or.inr ⟨hraw, hbyte⟩⟩
  escape hnext := absurd hnext hescape
  ground hnext := absurd hnext hground

theorem opensString_bytes (h : byteOpensString byte = true) :
    byte = 0x90 ∨ byte = 0x98 ∨ byte = 0x9d ∨ byte = 0x9e ∨ byte = 0x9f := by
  simpa [byteOpensString, or_assoc] using h

theorem facts_ground (byte : UInt8) (rawC1 : Bool) :
    Facts .ground byte rawC1 (processGround byte rawC1) := by
  unfold processGround
  refine .ite .escaped fun hesc => .ite (fun hstring => ?_) fun _ => .ite (fun hcsi => ?_) fun _ => ?_
  · rcases opensString_bytes hstring.1 with rfl | rfl | rfl | rfl | rfl <;>
      exact .opened (by decide) hstring.2 (by decide) (by decide) (by decide)
  · obtain ⟨rfl, hraw⟩ := hcsi
    exact .opened (by decide) hraw (by decide) (by decide) (by decide)
  · exact .cleared hesc

theorem facts_escape (byte : UInt8) (rawC1 : Bool) :
    Facts .escape byte rawC1 (processEscape [byte, byte] byte) := by
  unfold processEscape
  refine .ite (fun _ => ?_) fun _ => .ite (fun _ => ?_) fun _ => .ite .escaped .cleared
  · exact .pushed (by decide) (by decide) (by decide)
  · exact .pushed (by decide) (by decide) (by decide)

theorem facts_csi (byte : UInt8) (rawC1 : Bool) :
    Facts .csi byte rawC1 (processCsi [byte, byte] byte rawC1) := by
  unfold processCsi
  refine .ite (fun hend => .cleared ?_) fun _ => .ite (fun hst => .cleared ?_) fun _ => ?_
  · rcases hend with rfl | rfl <;> decide
  · rw [hst.1]
    decide
  refine .ite .escaped fun hesc => .ite (fun _ => .cleared hesc) fun _ => ?_
  exact .pushed (by decide) (by decide) (by decide)

theorem facts_string (byte : UInt8) (rawC1 : Bool) :
    Facts .string byte rawC1 (processString [byte, byte] byte rawC1) := by
  unfold processString
  refine .ite (fun hend => .cleared ?_) fun _ => .ite (fun hst => .cleared ?_) fun _ => ?_
  · rcases hend with rfl | rfl | rfl <;> decide
  · rw [hst.1]
    decide
  refine .ite (fun _ => ?_) fun _ => ?_
  · exact .pushed (by decide) (by decide) (by decide)
  · exact .pushed (by decide) (by decide) (by decide)

theorem facts_stringEscape (byte : UInt8) (rawC1 : Bool) :
    Facts .stringEscape byte rawC1 (processStringEscape [byte, byte] byte rawC1) := by
  unfold processStringEscape
  refine .ite (fun hend => .cleared ?_) fun _ => .ite (fun hst => .cleared ?_) fun _ => ?_
  · rcases hend with rfl | rfl | rfl <;> decide
  · rw [hst.1]
    decide
  refine .ite (fun _ => ?_) fun _ => ?_
  · exact .pushed (by decide) (by decide) (by decide)
  · exact .pushed (by decide) (by decide) (by decide)

end Facts

/-- The facts about `act` that hold of every byte: what is cleared is in the ground state, what is
pushed is not, and a sequence is begun by `ESC` or by a raw C1 byte in the ground state. -/
theorem act_facts (state : TerminalPrefixState) (byte : UInt8) (rawC1 : Bool) :
    ((act state byte rawC1).2 = .clear → (act state byte rawC1).1 = .ground) ∧
    ((act state byte rawC1).2 = .push → state ≠ .ground) ∧
    ((act state byte rawC1).2 = .restart → act .ground byte true = act state byte rawC1 ∧
      (byte = 0x1b ∨ (rawC1 = true ∧ isContinuation byte = true))) ∧
    ((act state byte rawC1).1 = .escape → byte = 0x1b) ∧
    ((act state byte rawC1).1 = .ground → byte ≠ 0x1b) := by
  have hfacts : Facts state byte rawC1 (advance state [byte, byte] byte rawC1) := by
    cases state with
    | ground => exact facts_ground byte rawC1
    | escape => exact facts_escape byte rawC1
    | csi => exact facts_csi byte rawC1
    | string => exact facts_string byte rawC1
    | stringEscape => exact facts_stringEscape byte rawC1
  exact ⟨hfacts.clear, hfacts.push, hfacts.restart, hfacts.escape, hfacts.ground⟩

/-! ### The limit, and replaying the pending bytes -/

/-- What the next byte does. -/
def outcome (tracker : TerminalPrefixTracker) (byte : UInt8) : TerminalPrefixState × Keep :=
  act tracker.state byte (!isUtf8Continuation tracker.utf8Remaining byte)

/-- The pending bytes before the limit is applied. -/
def extended (tracker : TerminalPrefixTracker) (byte : UInt8) : List UInt8 :=
  (outcome tracker byte).2.apply tracker.pending byte

theorem processByte_within {tracker : TerminalPrefixTracker} {byte : UInt8}
    (h : (extended tracker byte).length ≤ maxPendingEscapeBytes) :
    processByte tracker byte = ⟨(outcome tracker byte).1, extended tracker byte,
      updateUtf8State tracker.utf8Remaining byte⟩ := by
  simp only [processByte, advance_act]
  exact if_neg (not_lt.mpr h)

theorem processByte_over {tracker : TerminalPrefixTracker} {byte : UInt8}
    (h : ¬ (extended tracker byte).length ≤ maxPendingEscapeBytes) :
    processByte tracker byte = ⟨.ground, [], updateUtf8State tracker.utf8Remaining byte⟩ := by
  simp only [processByte, advance_act]
  exact if_pos (not_le.mp h)

theorem process_append (tracker : TerminalPrefixTracker) (bytes more : List UInt8) :
    process tracker (bytes ++ more) = process (process tracker bytes) more :=
  List.foldl_append ..

theorem processByte_limit (tracker : TerminalPrefixTracker) (byte : UInt8) :
    (processByte tracker byte).pending.length ≤ maxPendingEscapeBytes := by
  by_cases h : (extended tracker byte).length ≤ maxPendingEscapeBytes
  · rw [processByte_within h]; exact h
  · rw [processByte_over h]; simp

theorem process_limit (bytes : List UInt8) :
    (process .default bytes).pending.length ≤ maxPendingEscapeBytes := by
  rcases List.eq_nil_or_concat bytes with rfl | ⟨bytes, byte, rfl⟩
  · simp [process, TerminalPrefixTracker.default]
  · rw [List.concat_eq_append, process_append]
    exact processByte_limit _ byte

/-- A fresh tracker comes from the pending bytes to the same tracker, or there are none and the
tracker is in the ground state. -/
def Replays (tracker : TerminalPrefixTracker) : Prop :=
  (tracker.pending = [] ∧ tracker.state = .ground) ∨
    (tracker.pending ≠ [] ∧ process .default tracker.pending = tracker)

theorem updateUtf8State_start {remaining : ℕ} {byte : UInt8}
    (h : byte = 0x1b ∨ ((!isUtf8Continuation remaining byte) = true ∧ isContinuation byte = true)) :
    updateUtf8State remaining byte = updateUtf8State 0 byte ∧
      (!isUtf8Continuation 0 byte) = true := by
  refine ⟨?_, by simp [isUtf8Continuation]⟩
  unfold updateUtf8State
  rcases h with rfl | ⟨hraw, hcont⟩
  · simp [isContinuation]
  · have hzero : ¬ 0 < remaining := fun hpos => by simp [isUtf8Continuation, hcont, hpos] at hraw
    simp [hzero]

theorem replays_step {tracker : TerminalPrefixTracker} (h : Replays tracker) (byte : UInt8) :
    Replays (processByte tracker byte) := by
  obtain ⟨hclear, hpush, hrestart, -, -⟩ := act_facts tracker.state byte
    (!isUtf8Continuation tracker.utf8Remaining byte)
  by_cases hlimit : (extended tracker byte).length ≤ maxPendingEscapeBytes
  · have hstep := processByte_within hlimit
    rcases hk : (outcome tracker byte).2 with _ | _ | _
    · rw [hstep]
      exact Or.inl ⟨by rw [extended, hk]; rfl, hclear hk⟩
    · -- a sequence begins: the counter is zero here as in a fresh tracker
      obtain ⟨hsame, hstart⟩ := hrestart hk
      obtain ⟨hrem, hraw⟩ := updateUtf8State_start hstart
      have hext : extended tracker byte = [byte] := by rw [extended, hk]; rfl
      have hout : outcome .default byte = outcome tracker byte := by
        rw [outcome, outcome, ← hsame]
        simp only [TerminalPrefixTracker.default, hraw]
      have hfresh : extended .default byte = [byte] := by rw [extended, hout, hk]; rfl
      refine Or.inr ⟨by rw [hstep]; simp [hext], ?_⟩
      rw [hstep, hext]
      show processByte .default byte = _
      rw [processByte_within (by rw [hfresh]; simp [maxPendingEscapeBytes]), hout, hfresh, hrem]
      rfl
    · rcases h with ⟨-, hground⟩ | ⟨hne, hreplay⟩
      · exact absurd hground (hpush hk)
      · have hext : extended tracker byte = tracker.pending ++ [byte] := by rw [extended, hk]; rfl
        refine Or.inr ⟨by rw [hstep]; simp [hext], ?_⟩
        have hpend : (processByte tracker byte).pending = tracker.pending ++ [byte] := by
          rw [hstep, ← hext]
        rw [hpend, process_append, hreplay]
        rfl
  · rw [processByte_over hlimit]
    exact Or.inl ⟨rfl, rfl⟩

theorem replays_process (bytes : List UInt8) : ∀ tracker, Replays tracker →
    Replays (process tracker bytes) := by
  induction bytes with
  | nil => intro tracker h; exact h
  | cons byte bytes ih =>
    intro tracker h
    exact ih _ (replays_step h byte)

/-! ### Where the tracker follows the decoder -/

/-- The lead bytes of a multi-byte scalar. -/
def isLead (byte : UInt8) : Bool := 0xc2 ≤ byte && byte ≤ 0xf4

/-- A byte outside a scalar that the decoder (in `escape`) and the tracker (in `state`) do not read
differently. They differ on a raw C1 byte or a multi-byte scalar after `ESC` or a designator, on
what follows an intermediate byte, and on `CAN`, `SUB` and a second `ESC` after `ESC` in a string. -/
def admitsByte (escape : EscapeState) (state : TerminalPrefixState) (byte : UInt8) : Bool :=
  match escape, state with
  | .esc, .escape => !(byte = 0x9b || byteOpensString byte || isLead byte)
  | .esc, _ => !(byte = 0x5b || byte = 0x5d || byte = 0x50 || byte = 0x5f || byte = 0x5e ||
      byte = 0x58 || isLead byte)
  | .charset, _ => !(byte = 0x1b || byte = 0x9b || byteOpensString byte || isLead byte)
  | .string, .stringEscape => !(byte = 0x5c || byte = 0x07)
  | .stringEsc, _ => !(byte = 0x18 || byte = 0x1a)
  | _, _ => true

/-- A scalar the decoder does not act on: the tracker knows no encoded C1 control. -/
def inert (escape : EscapeState) (ch : Char) : Bool :=
  match escape with
  | .ground => !(ch.toNat = 0x9b || opensString ch)
  | _ => ch.toNat ≠ 0x9c

/-- The bytes of a scalar so far: more are to come, or they are those of a scalar without effect. -/
def admitsScalar (escape : EscapeState) (bytes : List UInt8) : Bool :=
  isIncompleteUtf8 bytes ||
    match decodeUtf8Char bytes with
    | some (ch, _) => inert escape ch
    | none => false

/-- The next byte is read alike by the decoder and the tracker, and does not exceed the limit. -/
def admits (capture : TerminalCaptureState) (tracker : TerminalPrefixTracker) (byte : UInt8) :
    Bool :=
  (extended tracker byte).length ≤ maxPendingEscapeBytes &&
    if capture.pendingUtf8 = [] then admitsByte capture.escape tracker.state byte
    else isContinuation byte && admitsScalar capture.escape (capture.pendingUtf8 ++ [byte])

/-- Every byte of the stream is admitted. -/
def admitsAll : TerminalCaptureState → TerminalPrefixTracker → List UInt8 → Bool
  | _, _, [] => true
  | capture, tracker, byte :: bytes =>
    admits capture tracker byte &&
      admitsAll (terminalCaptureFromState [byte] capture).2 (processByte tracker byte) bytes

/-- The states of the decoder and the tracker that go together; `whole` says that no scalar is cut
off. -/
def paired (escape : EscapeState) (state : TerminalPrefixState) (whole : Bool) : Bool :=
  match escape, state with
  | .ground, .ground => true
  | .charset, .ground => whole
  | .esc, .escape => whole
  | .esc, .ground => whole
  | .csi, .csi => true
  | .string, .string => true
  | .string, .stringEscape => whole
  | .stringEsc, .stringEscape => whole
  | .stringEsc, .string => !whole
  | _, _ => false

/-- The bytes of a cut-off scalar and the number of bytes still owed. -/
def Owed (bytes : List UInt8) (remaining : ℕ) : Prop :=
  (bytes = [] ∧ remaining = 0) ∨
    ∃ lead tail, bytes = lead :: tail ∧ 0 < remaining ∧
      utf8CharWidth lead = some (bytes.length + remaining)

/-- The tracker follows the decoder: outside the ground state a fresh decoder comes from the pending
bytes to where the decoder is. -/
structure Tracks (capture : TerminalCaptureState) (tracker : TerminalPrefixTracker) : Prop where
  paired : paired capture.escape tracker.state capture.pendingUtf8.isEmpty = true
  owed : Owed capture.pendingUtf8 tracker.utf8Remaining
  none : tracker.state = .ground → tracker.pending = []
  some : tracker.state ≠ .ground →
    terminalCaptureFromState tracker.pending .default = ([], capture)

theorem tracks_default : Tracks .default .default :=
  ⟨rfl, Or.inl ⟨rfl, rfl⟩, fun _ => rfl, fun h => absurd rfl h⟩

/-! ### A byte outside a scalar -/

/-- What the decoder does with a byte outside a scalar. -/
theorem capture_byte (escape : EscapeState) (byte : UInt8) :
    terminalCaptureFromState [byte] ⟨escape, []⟩ =
      match captureStep escape byte [] with
      | .next escape' out _ => (out, ⟨escape', []⟩)
      | .stop => ([], ⟨escape, [byte]⟩) := by
  show captureLoop 0 escape [byte] = _
  cases h : captureStep escape byte [] with
  | stop => rw [captureLoop_stop h]
  | next escape' out len =>
    have hlen := (captureStep_next h).1
    obtain rfl : len = 1 := by
      simp only [List.length_nil] at hlen
      omega
    rw [captureLoop_next h]
    simp [captureLoop]

/-- What the two do with one byte goes together: checked on every byte. -/
def agreesByte (escape : EscapeState) (state : TerminalPrefixState) (byte : UInt8) : Bool :=
  let done := act state byte true
  match captureStep escape byte [] with
  | .next escape' out _ =>
    paired escape' done.1 true && updateUtf8State 0 byte = 0 &&
      (done.2 ≠ .clear || done.1 = .ground) && (done.2 = .clear || done.1 ≠ .ground) &&
      (done.2 ≠ .push || (out = [] && state ≠ .ground)) &&
      (done.2 ≠ .restart || terminalCaptureFromState [byte] .default = ([], ⟨escape', []⟩))
  | .stop =>
    paired escape done.1 false && utf8CharWidth byte = some (1 + updateUtf8State 0 byte) &&
      0 < updateUtf8State 0 byte && (done.2 ≠ .clear || done.1 = .ground) &&
      (done.2 = .clear || done.1 ≠ .ground) && (done.2 ≠ .push || state ≠ .ground) &&
      done.2 ≠ .restart

set_option maxRecDepth 4000 in
theorem agreesByte_of_admits (escape : EscapeState) (state : TerminalPrefixState) (byte : UInt8) :
    paired escape state true = true → admitsByte escape state byte = true →
      agreesByte escape state byte = true := by
  revert byte
  cases escape <;> cases state
  all_goals
    refine of_each_byte ?_
    decide

section Step
variable {capture : TerminalCaptureState} {tracker : TerminalPrefixTracker} {byte : UInt8}

theorem isUtf8Continuation_zero (byte : UInt8) : isUtf8Continuation 0 byte = false := by
  simp [isUtf8Continuation]

/-- A pushed byte in the decoder: it goes on from the pending bytes as from where it is. -/
theorem capture_pending_append {out : List Char} {capture' : TerminalCaptureState}
    (hp : terminalCaptureFromState tracker.pending .default = ([], capture))
    (hb : terminalCaptureFromState [byte] capture = (out, capture')) :
    terminalCaptureFromState (tracker.pending ++ [byte]) .default = (out, capture') := by
  rw [terminalCapture_append, hp, hb, List.nil_append]

/-- The pending bytes after a byte that both read alike. -/
theorem tracks_pending (h : Tracks capture tracker) {out : List Char}
    {capture' : TerminalCaptureState} {remaining : ℕ}
    (hb : terminalCaptureFromState [byte] capture = (out, capture'))
    (hpaired : paired capture'.escape (outcome tracker byte).1 capture'.pendingUtf8.isEmpty = true)
    (howed : Owed capture'.pendingUtf8 remaining)
    (hclear : (outcome tracker byte).2 = .clear ↔ (outcome tracker byte).1 = .ground)
    (hpush : (outcome tracker byte).2 = .push → out = [] ∧ tracker.state ≠ .ground)
    (hrestart : (outcome tracker byte).2 = .restart →
      terminalCaptureFromState [byte] .default = ([], capture')) :
    Tracks capture' ⟨(outcome tracker byte).1, extended tracker byte, remaining⟩ := by
  refine ⟨hpaired, howed, fun hg => ?_, fun hg => ?_⟩
  · show extended tracker byte = []
    rw [extended, hclear.mpr hg]
    rfl
  · show terminalCaptureFromState (extended tracker byte) .default = ([], capture')
    rcases hk : (outcome tracker byte).2 with _ | _ | _
    · exact absurd (hclear.mp hk) hg
    · rw [extended, hk]
      exact hrestart hk
    · obtain ⟨rfl, hne⟩ := hpush hk
      rw [extended, hk]
      exact capture_pending_append (h.some hne) hb

/-- **A byte outside a scalar.** -/
theorem tracks_byte (h : Tracks capture tracker) (hu : capture.pendingUtf8 = [])
    (hlimit : (extended tracker byte).length ≤ maxPendingEscapeBytes)
    (ha : admitsByte capture.escape tracker.state byte = true) :
    Tracks (terminalCaptureFromState [byte] capture).2 (processByte tracker byte) := by
  have hzero : tracker.utf8Remaining = 0 := by
    rcases h.owed with ⟨-, hz⟩ | ⟨lead, tail, hl, -⟩
    · exact hz
    · rw [hu] at hl; cases hl
  obtain ⟨escape, pending⟩ := capture
  obtain rfl : pending = [] := hu
  have hagrees := agreesByte_of_admits escape tracker.state byte h.paired ha
  have hout : outcome tracker byte = act tracker.state byte true := by
    rw [outcome, hzero, isUtf8Continuation_zero]; rfl
  have hbyte := capture_byte escape byte
  rw [processByte_within hlimit, hzero]
  unfold agreesByte at hagrees
  rw [← hout] at hagrees
  cases hstep : captureStep escape byte [] with
  | next escape' out len =>
    rw [hstep] at hagrees hbyte
    simp only [Bool.and_eq_true, Bool.or_eq_true, decide_eq_true_eq] at hagrees
    obtain ⟨⟨⟨⟨⟨hpaired, hrem⟩, hc1⟩, hc2⟩, hpush⟩, hrestart⟩ := hagrees
    rw [hbyte]
    refine tracks_pending h hbyte hpaired (Or.inl ⟨rfl, hrem⟩) ⟨fun hk => ?_, fun hg => ?_⟩
      (fun hk => ?_) (fun hk => ?_)
    · exact hc1.resolve_left fun hne => hne hk
    · exact hc2.resolve_right fun hne => hne hg
    · exact hpush.resolve_left fun hne => hne hk
    · exact hrestart.resolve_left fun hne => hne hk
  | stop =>
    rw [hstep] at hagrees hbyte
    simp only [Bool.and_eq_true, Bool.or_eq_true, decide_eq_true_eq] at hagrees
    obtain ⟨⟨⟨⟨⟨⟨hpaired, hwidth⟩, hpos⟩, hc1⟩, hc2⟩, hpush⟩, hrestart⟩ := hagrees
    rw [hbyte]
    refine tracks_pending h hbyte hpaired (Or.inr ⟨byte, [], rfl, hpos, hwidth⟩)
      ⟨fun hk => ?_, fun hg => ?_⟩ (fun hk => ⟨rfl, ?_⟩) (fun hk => ?_)
    · exact hc1.resolve_left fun hne => hne hk
    · exact hc2.resolve_right fun hne => hne hg
    · exact hpush.resolve_left fun hne => hne hk
    · exact absurd hk hrestart

/-! ### A byte inside a scalar -/

/-- What a decoded scalar does in the states that decode. -/
def scalarIn (escape : EscapeState) (ch : Char) : EscapeState × List Char :=
  match escape with
  | .ground => groundScalar ch
  | .csi => terminates .csi ch
  | _ => terminates .string ch

theorem lead_of_width {lead : UInt8} {width : ℕ} (h : utf8CharWidth lead = some width)
    (h2 : 2 ≤ width) : Lead width lead := by
  unfold utf8CharWidth at h
  simp only [UInt8.le_iff_toNat_le] at h
  unfold Lead
  split_ifs at h with h1 h2' h3 h4
  all_goals
    simp only [Option.some.injEq] at h
    simp at *
    omega

/-- The four states that decode do so from a lead byte on. -/
theorem captureStep_lead (escape : EscapeState) {lead : UInt8} {width : ℕ} (hl : Lead width lead)
    (hesc : escape ≠ .esc) (hch : escape ≠ .charset) (rest : List UInt8) :
    ∃ malformed : EscapeState × List Char, (escape ≠ .ground ∨ malformed = (.ground, ['\uFFFD'])) ∧
      captureStep escape lead rest =
        decodeTurn (lead :: rest) (scalarIn escape) malformed := by
  have h80 : (0x80 : UInt8) ≤ lead := by
    rw [UInt8.le_iff_toNat_le]
    have := (Lead.bounds hl).1
    simp only [UInt8.toNat_ofNat]
    omega
  cases escape with
  | ground => exact ⟨_, Or.inr rfl, groundTurn_lead hl _⟩
  | csi => exact ⟨_, Or.inl (by simp), by rw [captureStep, csiTurn, if_pos h80]; rfl⟩
  | string => exact ⟨_, Or.inl (by simp), by rw [captureStep, stringTurn, if_pos h80]; rfl⟩
  | stringEsc => exact ⟨_, Or.inl (by simp), by rw [captureStep, stringEscTurn, if_pos h80]; rfl⟩
  | esc => exact absurd rfl hesc
  | charset => exact absurd rfl hch

set_option maxRecDepth 4000 in
/-- A continuation byte is kept in a sequence and ignored outside. -/
theorem act_continuation (byte : UInt8) : isContinuation byte = true →
    act .ground byte false = (.ground, .clear) ∧ act .csi byte false = (.csi, .push) ∧
      act .string byte false = (.string, .push) := by
  revert byte
  refine of_each_byte ?_
  decide

/-- The states of the tracker inside a scalar. -/
theorem act_inside {escape : EscapeState} {state : TerminalPrefixState}
    (h : paired escape state false = true) (hb : isContinuation byte = true) :
    (escape ≠ .esc ∧ escape ≠ .charset) ∧ (act state byte false).1 = state ∧
      ((act state byte false).2 = .clear ↔ state = .ground) ∧
      ((act state byte false).2 = .push ↔ state ≠ .ground) := by
  obtain ⟨h1, h2, h3⟩ := act_continuation byte hb
  cases escape <;> cases state <;> first | exact absurd h (by decide) | simp_all

/-- A scalar without effect leaves the tracker where it is. -/
theorem paired_inert {escape : EscapeState} {state : TerminalPrefixState} {ch : Char}
    (h : paired escape state false = true) (hi : inert escape ch = true) :
    paired (scalarIn escape ch).1 state true = true ∧
      (state ≠ .ground → (scalarIn escape ch).2 = []) := by
  cases escape <;> cases state <;> first | exact absurd h (by decide) | skip
  · simp only [inert, Bool.not_eq_true', Bool.or_eq_false_iff, decide_eq_false_iff_not] at hi
    refine ⟨?_, fun hne => absurd rfl hne⟩
    simp only [scalarIn, groundScalar, if_neg hi.1, hi.2]
    split_ifs <;> first | rfl | contradiction
  all_goals
    simp only [inert, decide_not, Bool.not_eq_true', decide_eq_false_iff_not] at hi
    simp [scalarIn, terminates, hi, paired]

/-- **A byte inside a scalar.** -/
theorem tracks_scalar (h : Tracks capture tracker) (hu : capture.pendingUtf8 ≠ [])
    (hlimit : (extended tracker byte).length ≤ maxPendingEscapeBytes)
    (hb : isContinuation byte = true)
    (ha : admitsScalar capture.escape (capture.pendingUtf8 ++ [byte]) = true) :
    Tracks (terminalCaptureFromState [byte] capture).2 (processByte tracker byte) := by
  obtain ⟨lead, tail, hpend, hpos, hwidth⟩ := h.owed.resolve_left fun hz => hu hz.1
  obtain ⟨escape, pending⟩ := capture
  obtain rfl : pending = lead :: tail := hpend
  have hpaired : paired escape tracker.state false = true := h.paired
  obtain ⟨⟨hesc, hch⟩, hstate, hclear, hpush⟩ := act_inside hpaired hb
  have hout : outcome tracker byte = act tracker.state byte false := by
    rw [outcome, isUtf8Continuation, hb]
    simp [hpos]
  have hrem : updateUtf8State tracker.utf8Remaining byte = tracker.utf8Remaining - 1 := by
    rw [updateUtf8State, if_pos ⟨hpos, hb⟩]
  rw [← hout] at hstate hclear hpush
  have hlead : Lead ((lead :: tail).length + tracker.utf8Remaining) lead := by
    refine lead_of_width hwidth ?_
    simp only [List.length_cons]
    omega
  obtain ⟨malformed, -, hstep⟩ := captureStep_lead escape hlead hesc hch (tail ++ [byte])
  have hloop : terminalCaptureFromState [byte] ⟨escape, lead :: tail⟩ =
      captureLoop 0 escape (lead :: (tail ++ [byte])) := rfl
  have hkeep : (outcome tracker byte).2 ≠ .restart := by
    intro hr
    by_cases hg : tracker.state = .ground
    · rw [hclear.mpr hg] at hr; cases hr
    · rw [hpush.mpr hg] at hr; cases hr
  rw [processByte_within hlimit, hrem]
  by_cases hinc : isIncompleteUtf8 (lead :: (tail ++ [byte])) = true
  · -- more bytes are owed
    obtain ⟨width, hw, hlt⟩ := (isIncompleteUtf8_cons _ _).mp hinc
    rw [hwidth, Option.some.injEq] at hw
    simp only [List.length_cons, List.length_append, List.length_nil] at hw hlt
    have hdec : decodeUtf8Char (lead :: (tail ++ [byte])) = none := by
      rw [decodeUtf8Char_cons, hwidth, Option.bind_some, if_pos]
      simp only [List.length_cons, List.length_append, List.length_nil]
      omega
    have hstop : captureStep escape lead (tail ++ [byte]) = .stop := by
      rw [hstep, decodeTurn, hdec]
      simp only [hinc, if_true]
    have hbyte : terminalCaptureFromState [byte] ⟨escape, lead :: tail⟩ =
        ([], ⟨escape, lead :: (tail ++ [byte])⟩) := by
      rw [hloop, captureLoop_stop hstop]
    rw [hbyte]
    refine tracks_pending h hbyte (by rw [hstate]; exact hpaired) (Or.inr ⟨lead, tail ++ [byte],
      rfl, by omega, ?_⟩) (by rw [hstate]; exact hclear) (fun hk => ⟨rfl, hpush.mp hk⟩)
      (fun hk => absurd hk hkeep)
    rw [hwidth, Option.some.injEq]
    simp only [List.length_cons, List.length_append, List.length_nil]
    omega
  · -- the scalar is complete
    rw [admitsScalar, List.cons_append, Bool.or_eq_true] at ha
    have ha := ha.resolve_left hinc
    rcases hdec : decodeUtf8Char (lead :: (tail ++ [byte])) with _ | ⟨ch, len⟩
    · rw [hdec] at ha; cases ha
    · rw [hdec] at ha
      obtain ⟨hpaired', hsilent⟩ := paired_inert hpaired ha
      have hnext : captureStep escape lead (tail ++ [byte]) =
          .next (scalarIn escape ch).1 (scalarIn escape ch).2 len := by
        rw [hstep, decodeTurn, hdec]
      have hlen : len = tail.length + 2 ∧ tracker.utf8Remaining = 1 := by
        have hle := (decodeUtf8Char_len hdec).2
        rw [decodeUtf8Char_cons, hwidth, Option.bind_some] at hdec
        split_ifs at hdec
        simp only [Option.map_eq_some_iff, Prod.mk.injEq] at hdec
        obtain ⟨-, -, -, rfl⟩ := hdec
        simp only [List.length_cons, List.length_append, List.length_nil] at hle ⊢
        omega
      have hbyte : terminalCaptureFromState [byte] ⟨escape, lead :: tail⟩ =
          ((scalarIn escape ch).2, ⟨(scalarIn escape ch).1, []⟩) := by
        rw [hloop, captureLoop_next hnext, hlen.1,
          List.drop_of_length_le (by simp), captureLoop, List.append_nil]
      rw [hbyte]
      refine tracks_pending h hbyte (by rw [hstate]; exact hpaired')
        (Or.inl ⟨rfl, by omega⟩) (by rw [hstate]; exact hclear)
        (fun hk => ⟨hsilent (hpush.mp hk), hpush.mp hk⟩) (fun hk => absurd hk hkeep)

/-- **One byte** that both read alike. -/
theorem tracks_step (h : Tracks capture tracker) (ha : admits capture tracker byte = true) :
    Tracks (terminalCaptureFromState [byte] capture).2 (processByte tracker byte) := by
  rw [admits, Bool.and_eq_true, decide_eq_true_eq] at ha
  by_cases hu : capture.pendingUtf8 = []
  · rw [if_pos hu] at ha
    exact tracks_byte h hu ha.1 ha.2
  · rw [if_neg hu, Bool.and_eq_true] at ha
    exact tracks_scalar h hu ha.1 ha.2.1 ha.2.2

end Step

/-! ### Whole streams -/

/-- The decoder after a stream. -/
def captureAfter (bytes : List UInt8) : TerminalCaptureState :=
  (terminalCaptureFromState bytes .default).2

theorem captureAfter_append (bytes more : List UInt8) :
    captureAfter (bytes ++ more) = (terminalCaptureFromState more (captureAfter bytes)).2 := by
  rw [captureAfter, terminalCapture_append, captureAfter]

theorem tracks_process : ∀ (bytes before : List UInt8) (tracker : TerminalPrefixTracker),
    Tracks (captureAfter before) tracker → admitsAll (captureAfter before) tracker bytes = true →
      Tracks (captureAfter (before ++ bytes)) (process tracker bytes)
  | [], before, tracker, h, _ => by rw [List.append_nil]; exact h
  | byte :: bytes, before, tracker, h, ha => by
    rw [admitsAll, Bool.and_eq_true] at ha
    have hstep := tracks_step h ha.1
    rw [← captureAfter_append] at ha hstep
    have ih := tracks_process bytes (before ++ [byte]) _ hstep ha.2
    rw [List.append_assoc, List.singleton_append] at ih
    exact ih

/-- The tracker is in the escape state right after `ESC` only, and never in the ground state. -/
theorem process_last : ∀ (bytes before : List UInt8) (tracker : TerminalPrefixTracker) (byte : UInt8),
    admitsAll (captureAfter before) tracker (bytes ++ [byte]) = true →
      ((process tracker (bytes ++ [byte])).state = .escape → byte = 0x1b) ∧
      ((process tracker (bytes ++ [byte])).state = .ground → byte ≠ 0x1b)
  | [], before, tracker, byte, ha => by
    rw [List.nil_append, admitsAll, Bool.and_eq_true, admits, Bool.and_eq_true,
      decide_eq_true_eq] at ha
    obtain ⟨-, -, -, hescape, hground⟩ := act_facts tracker.state byte
      (!isUtf8Continuation tracker.utf8Remaining byte)
    have hone : process tracker ([] ++ [byte]) = processByte tracker byte := rfl
    rw [hone, processByte_within ha.1.1]
    exact ⟨hescape, hground⟩
  | b :: bytes, before, tracker, byte, ha => by
    rw [List.cons_append, admitsAll, Bool.and_eq_true, ← captureAfter_append] at ha
    exact process_last bytes (before ++ [b]) _ byte ha.2

/-- The places where the tracker has nothing pending and the decoder is at rest: not inside a
scalar of plain text, not after a charset designator, not after an intermediate byte. -/
structure AtRest (bytes : List UInt8) : Prop where
  scalar : (captureAfter bytes).escape = .ground → (captureAfter bytes).pendingUtf8 = []
  charset : (captureAfter bytes).escape ≠ .charset
  intermediate : (captureAfter bytes).escape = .esc → bytes.getLast? = some 0x1b

/-- A letter after a cut-off scalar: the scalar is malformed. -/
theorem capture_cut_off {lead : UInt8} {tail : List UInt8} {remaining : ℕ} (hpos : 0 < remaining)
    (hwidth : utf8CharWidth lead = some ((lead :: tail).length + remaining)) :
    ∃ more, (terminalCaptureFromState [0x41, 0x41, 0x41] ⟨.ground, lead :: tail⟩).1 =
      '\uFFFD' :: more := by
  have hbounds := (utf8CharWidth_bounds hwidth).2
  have hlead : Lead ((lead :: tail).length + remaining) lead := by
    refine lead_of_width hwidth ?_
    simp only [List.length_cons]
    omega
  simp only [List.length_cons] at hbounds
  have hdec : decodeUtf8Char (lead :: (tail ++ [0x41, 0x41, 0x41])) = none := by
    rcases hd : decodeUtf8Char (lead :: (tail ++ [0x41, 0x41, 0x41])) with _ | ⟨ch, len⟩
    · rfl
    · exfalso
      have htake := decodeUtf8Char_take hd
      have hlen : len = tail.length + 1 + remaining := by
        rw [decodeUtf8Char_cons, hwidth, Option.bind_some] at hd
        split_ifs at hd
        simp only [Option.map_eq_some_iff, Prod.mk.injEq, List.length_cons] at hd
        obtain ⟨-, -, -, rfl⟩ := hd
        rfl
      -- the letter is among the bytes of the scalar, whose bytes are not ASCII
      obtain ⟨n, rfl⟩ : ∃ n, remaining = n + 1 := ⟨remaining - 1, by omega⟩
      have hmem : (0x41 : UInt8) ∈ String.utf8EncodeChar ch := by
        rw [← htake, hlen, show tail.length + 1 + (n + 1) = tail.length + (n + 1) + 1 by omega,
          List.take_succ_cons, List.take_length_add_append, List.take_succ_cons]
        simp
      by_cases hascii : ch.toNat ≤ 0x7f
      · have hone := congrArg List.length htake
        rw [encodeChar_ascii hascii, List.length_take, hlen] at hone
        simp only [List.length_cons, List.length_append, List.length_nil] at hone
        omega
      · exact absurd (encodeChar_wide_bytes (not_le.mp hascii) _ hmem) (by decide)
  have hinc : isIncompleteUtf8 (lead :: (tail ++ [0x41, 0x41, 0x41])) = false := by
    rw [Bool.eq_false_iff]
    intro hi
    obtain ⟨width, hw, hlt⟩ := (isIncompleteUtf8_cons _ _).mp hi
    rw [hwidth, Option.some.injEq] at hw
    simp only [List.length_cons, List.length_append, List.length_nil] at hw hlt
    omega
  obtain ⟨malformed, hmal, hstep⟩ := captureStep_lead .ground hlead (by simp) (by simp)
    (tail ++ [0x41, 0x41, 0x41])
  have hmal := hmal.resolve_left fun hne => hne rfl
  have hnext : captureStep .ground lead (tail ++ [0x41, 0x41, 0x41]) =
      .next .ground ['\uFFFD'] 1 := by
    rw [hstep, decodeTurn, hdec, hmal]
    simp only [hinc, Bool.false_eq_true, if_false]
  have hloop : terminalCaptureFromState [0x41, 0x41, 0x41] ⟨.ground, lead :: tail⟩ =
      captureLoop 0 .ground (lead :: (tail ++ [0x41, 0x41, 0x41])) := rfl
  rw [hloop, captureLoop_next hnext]
  exact ⟨_, rfl⟩

/-- Outside the ground state of the tracker the decoder is inside a sequence, or right after
`ESC`. -/
theorem paired_away {escape : EscapeState} {state : TerminalPrefixState} {whole : Bool}
    (h : paired escape state whole = true) (hne : state ≠ .ground) :
    escape ≠ .ground ∧ escape ≠ .charset ∧ (escape = .esc → state = .escape) := by
  cases escape <;> cases state <;> simp_all [paired]

/-- In the ground state of the tracker the decoder is in plain text, or after `ESC` with something
behind it. -/
theorem paired_ground {escape : EscapeState} {whole : Bool}
    (h : paired escape .ground whole = true) :
    escape = .ground ∨ (whole = true ∧ (escape = .charset ∨ escape = .esc)) := by
  cases escape <;> simp_all [paired]

/-- With nothing pending the two decoders agree on three letters only if the decoder is at rest. -/
theorem rest_of_letters {capture : TerminalCaptureState} {remaining : ℕ}
    (howed : Owed capture.pendingUtf8 remaining)
    (hpair : paired capture.escape .ground capture.pendingUtf8.isEmpty = true)
    (h : (terminalCaptureFromState [0x41, 0x41, 0x41] capture).1 = ['A', 'A', 'A']) :
    capture = .default := by
  obtain ⟨escape, pending⟩ := capture
  rcases paired_ground hpair with hesc | ⟨hwhole, hesc⟩
  · obtain rfl : escape = .ground := hesc
    rcases howed with ⟨hnil, -⟩ | ⟨lead, tail, hcut, hpos, hwidth⟩
    · obtain rfl : pending = [] := hnil
      rfl
    · obtain rfl : pending = lead :: tail := hcut
      obtain ⟨more, hmore⟩ := capture_cut_off hpos hwidth
      rw [hmore] at h
      exact absurd (List.cons.inj h).1 (by decide)
  · obtain rfl : pending = [] := List.isEmpty_iff.mp hwhole
    rcases hesc with hesc | hesc
    · obtain rfl : escape = .charset := hesc
      exact absurd h (by decide)
    · obtain rfl : escape = .esc := hesc
      exact absurd h (by decide)

/-- In an admitted stream the decoder is at rest exactly if the tracker has a sequence pending, or
the decoder is where it started. -/
theorem atRest_iff {bytes : List UInt8}
    (ha : admitsAll .default .default bytes = true) :
    AtRest bytes ↔ ((process .default bytes).state ≠ .ground ∨ captureAfter bytes = .default) := by
  have htracks := tracks_process bytes [] .default tracks_default ha
  rw [List.nil_append] at htracks
  have hlast : (captureAfter bytes).escape = .esc →
      ((process .default bytes).state = .escape → bytes.getLast? = some 0x1b) ∧
      ((process .default bytes).state = .ground → bytes.getLast? ≠ some 0x1b) := by
    intro hesc
    rcases List.eq_nil_or_concat bytes with rfl | ⟨front, byte, rfl⟩
    · cases hesc
    · rw [List.concat_eq_append] at ha ⊢
      obtain ⟨h1, h2⟩ := process_last front [] .default byte ha
      rw [List.getLast?_concat]
      exact ⟨fun h => by rw [h1 h], fun h he => h2 h (Option.some.inj he)⟩
  constructor
  · intro hrest
    by_cases hground : (process .default bytes).state = .ground
    · right
      have hpair := htracks.paired
      rw [hground] at hpair
      rcases paired_ground hpair with hesc | ⟨-, hesc | hesc⟩
      · rw [TerminalCaptureState.default, ← hrest.scalar hesc, ← hesc]
      · exact absurd hesc hrest.charset
      · exact absurd (hrest.intermediate hesc) ((hlast hesc).2 hground)
    · exact Or.inl hground
  · rintro (hne | hdefault)
    · obtain ⟨h1, h2, h3⟩ := paired_away htracks.paired hne
      exact ⟨fun hesc => absurd hesc h1, h2, fun hesc => (hlast hesc).1 (h3 hesc)⟩
    · refine ⟨fun _ => ?_, ?_, fun hesc => ?_⟩
      · rw [hdefault]; rfl
      · rw [hdefault]; simp [TerminalCaptureState.default]
      · rw [hdefault] at hesc; cases hesc

/-- **The attach boundary.** The pending bytes stay within the limit and a fresh tracker comes from
them to the same state and the same pending bytes. In every stream whose bytes decoder and tracker
read alike, a fresh decoder shows the pending bytes and whatever follows as the running decoder
shows what follows, exactly where the stream is at rest. -/
theorem tracker_transparent (chunks : List (List UInt8)) :
    (processChunks .default chunks).pending.length ≤ maxPendingEscapeBytes ∧
    (process .default (processChunks .default chunks).pending).state =
      (processChunks .default chunks).state ∧
    (process .default (processChunks .default chunks).pending).pending =
      (processChunks .default chunks).pending ∧
    (admitsAll .default .default chunks.flatten = true →
      ((∀ t, (terminalCaptureFromState ((processChunks .default chunks).pending ++ t) .default).1 =
          (terminalCaptureFromState t (captureAfter chunks.flatten)).1) ↔
        AtRest chunks.flatten)) := by
  rw [processChunks_eq]
  generalize chunks.flatten = bytes
  refine ⟨process_limit bytes, ?_, ?_, fun ha => ?_⟩
  · rcases replays_process bytes .default (Or.inl ⟨rfl, rfl⟩) with ⟨hp, hs⟩ | ⟨-, hr⟩
    · rw [hp, hs]; rfl
    · rw [hr]
  · rcases replays_process bytes .default (Or.inl ⟨rfl, rfl⟩) with ⟨hp, -⟩ | ⟨-, hr⟩
    · rw [hp]; rfl
    · rw [hr]
  have htracks := tracks_process bytes [] .default tracks_default ha
  rw [List.nil_append] at htracks
  rw [atRest_iff ha]
  by_cases hground : (process .default bytes).state = .ground
  · rw [htracks.none hground]
    constructor
    · intro hall
      have hpair := htracks.paired
      rw [hground] at hpair
      have hfresh : (terminalCaptureFromState ([] ++ [0x41, 0x41, 0x41]) .default).1 =
          ['A', 'A', 'A'] := by decide +kernel
      exact Or.inr (rest_of_letters htracks.owed hpair (by rw [← hall, hfresh]))
    · rintro (hne | hdefault) t
      · exact absurd hground hne
      · rw [hdefault, List.nil_append]
  · refine ⟨fun _ => Or.inl hground, fun _ t => ?_⟩
    rw [terminalCapture_append, htracks.some hground, List.nil_append]

/-- A client that attaches between a charset designator and its final byte, or inside a scalar,
sees text that the attached clients do not. -/
theorem tracker_not_transparent :
    (terminalCaptureFromState ((processChunks .default [[0x1b, 0x28]]).pending ++ [0x42]) .default).1 =
        ['B'] ∧
      (terminalCaptureFromState [0x42] (captureAfter [0x1b, 0x28])).1 = [] ∧
      (terminalCaptureFromState ((processChunks .default [[0xe2, 0x9c]]).pending ++ [0x85]) .default).1 =
        [] ∧
      (terminalCaptureFromState [0x85] (captureAfter [0xe2, 0x9c])).1 = ['✅'] := by
  decide +kernel

end LightTerminal.Output.PrefixTracker
