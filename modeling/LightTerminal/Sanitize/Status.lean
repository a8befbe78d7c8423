import LightTerminal.Sanitize.Scalars

/-! # The status row sanitizer

`sanitize_status_command_line` of `sanitize.rs` makes one safe row out of the output of an external
command. It is a second copy of the machine of `terminal_capture` with its own treatment of control
sequences: their parameters are collected (`csi_params`, with a count of the semicolons), and a
complete `ESC [ params m` within the limits is written out again if colour is allowed. It stops at
the first line feed or carriage return in any state, and it carries nothing over from one call to
the next, so a scalar cut off by the end of the input is malformed here.

As in `captureLoop`, the first argument of the loop counts the bytes of the scalar just decoded
that are still to be passed over. -/

namespace LightTerminal.Sanitize.Status

open LightTerminal.Library.Utf8
open LightTerminal.Sanitize.Capture LightTerminal.Sanitize.Chunks

/-- `MAX_CSI_PARAM_BYTES`. -/
def maxCsiParamBytes : ℕ := 64

/-- `MAX_CSI_PARAM_COUNT`. -/
def maxCsiParamCount : ℕ := 16

/-- The local variables of the loop. -/
structure StatusState where
  escape : EscapeState
  csiParams : List UInt8
  csiParamSemicolons : ℕ
  csiValid : Bool
  emittedSgr : Bool
  deriving DecidableEq, Repr

namespace StatusState

/-- The variables before the first turn. -/
def initial : StatusState := ⟨.ground, [], 0, true, false⟩

def goto (st : StatusState) (escape : EscapeState) : StatusState := { st with escape }

/-- The beginning of a control sequence. -/
def openCsi (st : StatusState) : StatusState :=
  { st with csiParams := [], csiParamSemicolons := 0, csiValid := true, escape := .csi }

def invalidate (st : StatusState) : StatusState := { st with csiValid := false }

end StatusState

/-! ### One turn of the loop -/

/-- The outcome of one turn: the variables, the text pushed and the bytes passed over. -/
structure StatusTurn where
  state : StatusState
  out : List Char
  len : ℕ
  deriving DecidableEq, Repr

/-- A byte that pushes nothing. -/
def silent (st : StatusState) : StatusTurn := ⟨st, [], 1⟩

/-- Decode a scalar, or take the byte alone as malformed. -/
def statusDecode (bytes : List UInt8) (scalar : Char → StatusState × List Char)
    (malformed : StatusState × List Char) : StatusTurn :=
  match decodeUtf8Char bytes with
  | some (ch, len) => ⟨(scalar ch).1, (scalar ch).2, len⟩
  | none => ⟨malformed.1, malformed.2, 1⟩

/-- What a decoded scalar does in the ground state. -/
def statusGroundScalar (st : StatusState) (ch : Char) : StatusState × List Char :=
  if ch.toNat = 0x9b then (st.openCsi, [])
  else if opensString ch then (st.goto .string, [])
  else if isC0OrC1 ch then (st, [])
  else (st, [ch])

/-- `EscapeState::Ground`. -/
def statusGround (st : StatusState) (byte : UInt8) (bytes : List UInt8) : StatusTurn :=
  if byte = 0x1b then silent (st.goto .esc)
  else if byte = 0x9b then silent st.openCsi
  else if byteOpensString byte then silent (st.goto .string)
  else if 0x80 ≤ byte ∧ byte ≤ 0x9f then silent st
  else if byte = 0x09 then silent st
  else if byte ≤ 0x1f ∨ byte = 0x7f then silent st
  else if byte ≤ 0x7f then ⟨st, [Char.ofNat byte.toNat], 1⟩
  else statusDecode bytes (statusGroundScalar st) (st, ['\uFFFD'])

/-- `EscapeState::Esc`. -/
def statusEsc (st : StatusState) (byte : UInt8) : StatusTurn :=
  if byte = 0x18 ∨ byte = 0x1a then silent (st.goto .ground)
  else if byte = 0x1b then silent (st.goto .esc)
  else if byte = 0x5b then silent st.openCsi
  else if byte = 0x5d ∨ byte = 0x50 ∨ byte = 0x5f ∨ byte = 0x5e ∨ byte = 0x58 then
    silent (st.goto .string)
  else if byte = 0x28 ∨ byte = 0x29 ∨ byte = 0x2a ∨ byte = 0x2b ∨ byte = 0x2d ∨ byte = 0x2e
      ∨ byte = 0x2f then
    silent (st.goto .charset)
  else if byte = 0x9b then silent st.openCsi
  else if byteOpensString byte then silent (st.goto .string)
  else if 0x20 ≤ byte ∧ byte ≤ 0x2f then silent st
  else silent (st.goto .ground)

/-- The parameter bytes `[0-9;:]`. -/
def isParamByte (byte : UInt8) : Bool := (0x30 ≤ byte && byte ≤ 0x39) || byte = 0x3b || byte = 0x3a

/-- `ESC [ params m`, as it is written out. -/
def sgrText (params : List UInt8) : List Char :=
  '\u001b' :: '[' :: (params.map fun byte => Char.ofNat byte.toNat) ++ ['m']

/-- `within_limits`. -/
def withinLimits (st : StatusState) : Bool :=
  st.csiParams.length ≤ maxCsiParamBytes && st.csiParamSemicolons < maxCsiParamCount

/-- The final byte of a control sequence. -/
def finalByte (allowColor : Bool) (st : StatusState) (byte : UInt8) : StatusTurn :=
  if allowColor && byte = 0x6d && st.csiValid && withinLimits st then
    ⟨{ st with emittedSgr := true, escape := .ground }, sgrText st.csiParams, 1⟩
  else silent (st.goto .ground)

/-- A parameter byte of a control sequence: beyond the limits it invalidates the sequence. -/
def paramByte (st : StatusState) (byte : UInt8) : StatusState :=
  if st.csiValid then
    if maxCsiParamBytes ≤ st.csiParams.length ∨
        (byte = 0x3b ∧ maxCsiParamCount - 1 ≤ st.csiParamSemicolons) then
      st.invalidate
    else
      { st with
        csiParamSemicolons :=
          if byte = 0x3b then st.csiParamSemicolons + 1 else st.csiParamSemicolons
        csiParams := st.csiParams ++ [byte] }
  else st

/-- `EscapeState::Csi`. -/
def statusCsi (allowColor : Bool) (st : StatusState) (byte : UInt8) (bytes : List UInt8) :
    StatusTurn :=
  if 0x80 ≤ byte then
    statusDecode bytes
      (fun ch => (if ch.toNat = 0x9c then st.goto .ground else st.invalidate, []))
      (if byte = 0x9c then st.goto .ground else st.invalidate, [])
  else if byte = 0x18 ∨ byte = 0x1a then silent (st.goto .ground)
  else if byte = 0x1b then silent (st.goto .esc)
  else if 0x40 ≤ byte ∧ byte ≤ 0x7e then finalByte allowColor st byte
  else if isParamByte byte then silent (paramByte st byte)
  else silent st.invalidate

/-- `EscapeState::String`. -/
def statusString (st : StatusState) (byte : UInt8) (bytes : List UInt8) : StatusTurn :=
  if 0x80 ≤ byte then
    statusDecode bytes
      (fun ch => (if ch.toNat = 0x9c then st.goto .ground else st, []))
      (if byte = 0x9c then st.goto .ground else st, [])
  else if byte = 0x18 ∨ byte = 0x1a then silent (st.goto .ground)
  else if byte = 0x07 then silent (st.goto .ground)
  else if byte = 0x1b then silent (st.goto .stringEsc)
  else silent st

/-- `EscapeState::StringEsc`. -/
def statusStringEsc (st : StatusState) (byte : UInt8) (bytes : List UInt8) : StatusTurn :=
  if 0x80 ≤ byte then
    statusDecode bytes
      (fun ch => (st.goto (if ch.toNat = 0x9c then .ground else .string), []))
      (st.goto (if byte = 0x9c then .ground else .string), [])
  else silent (st.goto (if byte = 0x5c then .ground else .string))

/-- One turn of the loop at the bytes `byte :: rest`. -/
def statusStep (allowColor : Bool) (st : StatusState) (byte : UInt8) (rest : List UInt8) :
    StatusTurn :=
  match st.escape with
  | .ground => statusGround st byte (byte :: rest)
  | .esc => statusEsc st byte
  | .csi => statusCsi allowColor st byte (byte :: rest)
  | .string => statusString st byte (byte :: rest)
  | .stringEsc => statusStringEsc st byte (byte :: rest)
  | .charset => silent (st.goto .ground)

/-- The bytes that end the row. -/
def isLineEnd (byte : UInt8) : Bool := byte = 0x0a || byte = 0x0d

/-- The loop: `skip` bytes of the last scalar are still to be passed over. -/
def statusLoop (allowColor : Bool) : ℕ → StatusState → List UInt8 → List Char × StatusState
  | _, st, [] => ([], st)
  | skip + 1, st, _ :: rest => statusLoop allowColor skip st rest
  | 0, st, byte :: rest =>
    if isLineEnd byte then ([], st)
    else
      let turn := statusStep allowColor st byte rest
      let (more, last) := statusLoop allowColor (turn.len - 1) turn.state rest
      (turn.out ++ more, last)

/-- `ESC [ 0 m`. -/
def sgrReset : List Char := ['\u001b', '[', '0', 'm']

/-- `sanitize_status_command_line`. -/
def sanitizeStatusCommandLine (bytes : List UInt8) (allowColor : Bool) : List Char :=
  let (out, st) := statusLoop allowColor 0 .initial bytes
  if st.emittedSgr then out ++ sgrReset else out

/-! ### The loop -/

section Decode
variable {byte : UInt8} {rest : List UInt8} {scalar : Char → StatusState × List Char}
  {malformed : StatusState × List Char}

theorem statusDecode_cases (bytes : List UInt8) (scalar : Char → StatusState × List Char)
    (malformed : StatusState × List Char) :
    (∃ ch len, decodeUtf8Char bytes = some (ch, len) ∧
      statusDecode bytes scalar malformed = ⟨(scalar ch).1, (scalar ch).2, len⟩) ∨
    (decodeUtf8Char bytes = none ∧
      statusDecode bytes scalar malformed = ⟨malformed.1, malformed.2, 1⟩) := by
  unfold statusDecode
  rcases h : decodeUtf8Char bytes with _ | ⟨ch, len⟩
  · exact Or.inr ⟨rfl, rfl⟩
  · exact Or.inl ⟨ch, len, rfl, rfl⟩

theorem statusDecode_len :
    1 ≤ (statusDecode (byte :: rest) scalar malformed).len ∧
      (statusDecode (byte :: rest) scalar malformed).len ≤ rest.length + 1 := by
  rcases statusDecode_cases (byte :: rest) scalar malformed with ⟨ch, len, hd, h⟩ | ⟨-, h⟩
  · rw [h]; exact decodeUtf8Char_len hd
  · rw [h]; exact ⟨le_rfl, by simp⟩

end Decode

theorem finalByte_len (allowColor : Bool) (st : StatusState) (byte : UInt8) :
    (finalByte allowColor st byte).len = 1 := by
  unfold finalByte
  split_ifs <;> rfl

/-- A turn that branches has what its branches have. -/
theorem turn_ite {p : StatusTurn → Prop} {c : Prop} [Decidable c] {turn turn' : StatusTurn}
    (h : c → p turn) (h' : ¬ c → p turn') : p (if c then turn else turn') := by
  by_cases hc : c
  · rw [if_pos hc]
    exact h hc
  · rw [if_neg hc]
    exact h' hc

/-- A turn that passes over at least one and at most all of the bytes. -/
def Passes (rest : List UInt8) (turn : StatusTurn) : Prop :=
  1 ≤ turn.len ∧ turn.len ≤ rest.length + 1

theorem Passes.one (rest : List UInt8) {turn : StatusTurn} (h : turn.len = 1) : Passes rest turn := by
  unfold Passes
  omega

/-- A turn passes over at least one and at most all of the bytes. -/
theorem statusStep_len (allowColor : Bool) (st : StatusState) (byte : UInt8) (rest : List UInt8) :
    1 ≤ (statusStep allowColor st byte rest).len ∧
      (statusStep allowColor st byte rest).len ≤ rest.length + 1 := by
  have one (st : StatusState) (out : List Char) : Passes rest ⟨st, out, 1⟩ := .one rest rfl
  change Passes rest _
  unfold statusStep
  cases st.escape with
  | ground =>
    refine turn_ite (fun _ => one _ _) fun _ => turn_ite (fun _ => one _ _) fun _ => ?_
    refine turn_ite (fun _ => one _ _) fun _ => turn_ite (fun _ => one _ _) fun _ => ?_
    refine turn_ite (fun _ => one _ _) fun _ => turn_ite (fun _ => one _ _) fun _ => ?_
    exact turn_ite (fun _ => one _ _) fun _ => statusDecode_len
  | esc =>
    refine turn_ite (fun _ => one _ _) fun _ => turn_ite (fun _ => one _ _) fun _ => ?_
    refine turn_ite (fun _ => one _ _) fun _ => turn_ite (fun _ => one _ _) fun _ => ?_
    refine turn_ite (fun _ => one _ _) fun _ => turn_ite (fun _ => one _ _) fun _ => ?_
    exact turn_ite (fun _ => one _ _) fun _ => turn_ite (fun _ => one _ _) fun _ => one _ _
  | csi =>
    refine turn_ite (fun _ => statusDecode_len) fun _ => turn_ite (fun _ => one _ _) fun _ => ?_
    refine turn_ite (fun _ => one _ _) fun _ => ?_
    refine turn_ite (fun _ => .one rest (finalByte_len ..)) fun _ => ?_
    exact turn_ite (fun _ => one _ _) fun _ => one _ _
  | string =>
    refine turn_ite (fun _ => statusDecode_len) fun _ => turn_ite (fun _ => one _ _) fun _ => ?_
    exact turn_ite (fun _ => one _ _) fun _ => turn_ite (fun _ => one _ _) fun _ => one _ _
  | stringEsc => exact turn_ite (fun _ => statusDecode_len) fun _ => one _ _
  | charset => exact one _ _

theorem statusLoop_skip (allowColor : Bool) : ∀ (skip : ℕ) (st : StatusState)
    (bytes : List UInt8),
    statusLoop allowColor skip st bytes = statusLoop allowColor 0 st (bytes.drop skip)
  | 0, _, _ => rfl
  | skip + 1, st, [] => by simp [statusLoop]
  | skip + 1, st, _ :: rest => by
    rw [statusLoop, statusLoop_skip allowColor skip st rest, List.drop_succ_cons]

theorem statusLoop_end {byte : UInt8} (allowColor : Bool) (st : StatusState) (rest : List UInt8)
    (h : isLineEnd byte = true) : statusLoop allowColor 0 st (byte :: rest) = ([], st) := by
  rw [statusLoop, if_pos h]

theorem statusLoop_next {allowColor : Bool} {st : StatusState} {byte : UInt8} {rest : List UInt8}
    {turn : StatusTurn} (hline : isLineEnd byte = false)
    (h : statusStep allowColor st byte rest = turn) :
    statusLoop allowColor 0 st (byte :: rest) =
      (turn.out ++ (statusLoop allowColor 0 turn.state ((byte :: rest).drop turn.len)).1,
        (statusLoop allowColor 0 turn.state ((byte :: rest).drop turn.len)).2) := by
  subst h
  have hpos := (statusStep_len allowColor st byte rest).1
  generalize hlen : (statusStep allowColor st byte rest).len = len at hpos
  obtain ⟨len, rfl⟩ : ∃ n, len = n + 1 := ⟨len - 1, by omega⟩
  rw [statusLoop, if_neg (by rw [hline]; simp)]
  simp only [hlen, Nat.add_sub_cancel, List.drop_succ_cons]
  rw [statusLoop_skip allowColor len _ rest]

/-- The induction behind the results on the loop: the bytes are used up, or the row ends, or the
turn goes on with strictly fewer bytes. -/
theorem statusLoop_induction (allowColor : Bool) {motive : StatusState → List UInt8 → Prop}
    (done : ∀ st, motive st [])
    (stop : ∀ st byte rest, isLineEnd byte = true → motive st (byte :: rest))
    (next : ∀ st byte rest, isLineEnd byte = false →
      motive (statusStep allowColor st byte rest).state
        ((byte :: rest).drop (statusStep allowColor st byte rest).len) →
      motive st (byte :: rest)) :
    ∀ (st : StatusState) (bytes : List UInt8), motive st bytes
  | st, [] => done st
  | st, byte :: rest => by
    cases hline : isLineEnd byte with
    | true => exact stop st byte rest hline
    | false =>
      have hpos := (statusStep_len allowColor st byte rest).1
      exact next st byte rest hline (statusLoop_induction allowColor done stop next _ _)
  termination_by _ bytes => bytes.length
  decreasing_by simp only [List.length_drop, List.length_cons]; omega

/-! ### What is written out

The row is a sequence of pieces, one for each visible scalar and one for each control sequence
that is written out again. -/

/-- A piece of the row. -/
inductive Piece where
  | text (ch : Char)
  | sgr (params : List UInt8)
  deriving DecidableEq, Repr

namespace Piece

def render : Piece → List Char
  | text ch => [ch]
  | sgr params => sgrText params

def isSgr : Piece → Bool
  | text _ => false
  | sgr _ => true

/-- The visible part. -/
def plain : Piece → List Char
  | text ch => [ch]
  | sgr _ => []

/-- A scalar that is no control, or a sequence within the limits. -/
def Ok : Piece → Prop
  | text ch => isC0OrC1 ch = false
  | sgr params => (∀ byte ∈ params, isParamByte byte = true) ∧ params.length ≤ 64 ∧
      params.count 0x3b ≤ 15

end Piece

/-- The parameters collected so far are parameter bytes within the limits, and the semicolons are
counted right. -/
structure Limited (st : StatusState) : Prop where
  params : ∀ byte ∈ st.csiParams, isParamByte byte = true
  length : st.csiParams.length ≤ 64
  semicolons : st.csiParams.count 0x3b = st.csiParamSemicolons
  count : st.csiParamSemicolons ≤ 15

theorem limited_initial : Limited .initial := ⟨by simp [StatusState.initial], by decide, rfl, by decide⟩

theorem Limited.of_eq {st st' : StatusState} (h : Limited st) (hp : st'.csiParams = st.csiParams)
    (hs : st'.csiParamSemicolons = st.csiParamSemicolons) : Limited st' :=
  ⟨by rw [hp]; exact h.params, by rw [hp]; exact h.length, by rw [hp, hs]; exact h.semicolons,
    by rw [hs]; exact h.count⟩

theorem limited_openCsi (st : StatusState) : Limited st.openCsi :=
  ⟨by simp [StatusState.openCsi], by simp [StatusState.openCsi], rfl, by simp [StatusState.openCsi]⟩

theorem limited_paramByte {st : StatusState} (h : Limited st) {byte : UInt8}
    (hb : isParamByte byte = true) : Limited (paramByte st byte) := by
  unfold paramByte
  by_cases hv : st.csiValid = true
  · rw [if_pos hv]
    by_cases hlim : maxCsiParamBytes ≤ st.csiParams.length ∨
        (byte = 0x3b ∧ maxCsiParamCount - 1 ≤ st.csiParamSemicolons)
    · rw [if_pos hlim]; exact h.of_eq rfl rfl
    · rw [if_neg hlim]
      simp only [maxCsiParamBytes, maxCsiParamCount, not_or, not_le, not_and] at hlim
      have hcount := h.count
      refine ⟨?_, ?_, ?_, ?_⟩
      · intro b hmem
        rcases List.mem_append.mp hmem with hmem | hmem
        · exact h.params b hmem
        · rw [List.mem_singleton.mp hmem]; exact hb
      · simp only [List.length_append, List.length_singleton]
        omega
      · by_cases hsemi : byte = 0x3b <;> simp [hsemi, h.semicolons]
      · by_cases hsemi : byte = 0x3b
        · have := hlim.2 hsemi
          simp only [hsemi, if_true]
          omega
        · simp only [hsemi, if_false]
          omega
  · rw [if_neg hv]; exact h

theorem finalByte_false (st : StatusState) (byte : UInt8) :
    finalByte false st byte = silent (st.goto .ground) := by simp [finalByte]

theorem finalByte_cases (allowColor : Bool) (st : StatusState) (byte : UInt8) :
    finalByte allowColor st byte = silent (st.goto .ground) ∨
    (allowColor = true ∧ finalByte allowColor st byte =
      ⟨{ st with emittedSgr := true, escape := .ground }, sgrText st.csiParams, 1⟩) := by
  unfold finalByte
  split_ifs with hc
  · simp only [Bool.and_eq_true] at hc
    exact Or.inr ⟨hc.1.1.1, rfl⟩
  · exact Or.inl rfl

/-- Colour makes a difference in one turn only: the final byte of a sequence to be written out. -/
theorem statusStep_color (allowColor : Bool) (st : StatusState) (byte : UInt8)
    (rest : List UInt8) :
    statusStep allowColor st byte rest = statusStep false st byte rest ∨
    (allowColor = true ∧
      statusStep allowColor st byte rest =
        ⟨{ st with emittedSgr := true, escape := .ground }, sgrText st.csiParams, 1⟩ ∧
      statusStep false st byte rest = silent (st.goto .ground)) := by
  unfold statusStep
  cases hesc : st.escape with
  | csi =>
    simp only [statusCsi, finalByte_false]
    split_ifs
    all_goals first
      | exact Or.inl rfl
      | exact (finalByte_cases allowColor st byte).imp id fun h => ⟨h.1, h.2, rfl⟩
  | ground => exact Or.inl rfl
  | esc => exact Or.inl rfl
  | string => exact Or.inl rfl
  | stringEsc => exact Or.inl rfl
  | charset => exact Or.inl rfl

/-- What a turn without colour does: the parameters stay within the limits, nothing is recorded as
emitted, and at most one visible scalar is pushed. -/
structure Plain (st : StatusState) (turn : StatusTurn) : Prop where
  limited : Limited turn.state
  emitted : turn.state.emittedSgr = st.emittedSgr
  out : turn.out = [] ∨ ∃ ch, turn.out = [ch] ∧ isC0OrC1 ch = false

theorem Plain.silent {st st' : StatusState} (hl : Limited st')
    (he : st'.emittedSgr = st.emittedSgr) : Plain st (silent st') := ⟨hl, he, Or.inl rfl⟩

set_option maxRecDepth 4000 in
theorem isC0OrC1_printable {byte : UInt8} (h1 : ¬ (byte ≤ 0x1f ∨ byte = 0x7f))
    (h2 : byte ≤ 0x7f) : isC0OrC1 (Char.ofNat byte.toNat) = false := by
  revert h1 h2
  exact of_each_byte (p := fun byte => ¬ (byte ≤ 0x1f ∨ byte = 0x7f) → byte ≤ 0x7f →
    isC0OrC1 (Char.ofNat byte.toNat) = false) (by decide) byte

theorem plain_decode {st : StatusState} {bytes : List UInt8}
    {scalar : Char → StatusState × List Char} {malformed : StatusState × List Char}
    (hs : ∀ ch len, Plain st ⟨(scalar ch).1, (scalar ch).2, len⟩)
    (hm : Plain st ⟨malformed.1, malformed.2, 1⟩) :
    Plain st (statusDecode bytes scalar malformed) := by
  rcases statusDecode_cases bytes scalar malformed with ⟨ch, len, -, h⟩ | ⟨-, h⟩
  · rw [h]; exact hs ch len
  · rw [h]; exact hm

theorem plain_groundScalar {st : StatusState} (h : Limited st) (ch : Char) (len : ℕ) :
    Plain st ⟨(statusGroundScalar st ch).1, (statusGroundScalar st ch).2, len⟩ := by
  unfold statusGroundScalar
  split_ifs with h1 h2 h3
  · exact ⟨limited_openCsi st, rfl, Or.inl rfl⟩
  · exact ⟨h.of_eq rfl rfl, rfl, Or.inl rfl⟩
  · exact ⟨h, rfl, Or.inl rfl⟩
  · exact ⟨h, rfl, Or.inr ⟨ch, rfl, by simpa using h3⟩⟩

theorem statusStep_plain {st : StatusState} (h : Limited st) (byte : UInt8)
    (rest : List UInt8) : Plain st (statusStep false st byte rest) := by
  have same : ∀ escape, Plain st (silent (st.goto escape)) := fun escape =>
    Plain.silent (h.of_eq rfl rfl) rfl
  have stay : Plain st (silent st) := Plain.silent h rfl
  have opened : Plain st (silent st.openCsi) := Plain.silent (limited_openCsi st) rfl
  have hushed : ∀ escape len, Plain st ⟨st.goto escape, [], len⟩ := fun escape len =>
    ⟨h.of_eq rfl rfl, rfl, Or.inl rfl⟩
  have invalid : ∀ len, Plain st ⟨st.invalidate, [], len⟩ := fun len =>
    ⟨h.of_eq rfl rfl, rfl, Or.inl rfl⟩
  unfold statusStep
  cases st.escape with
  | ground =>
    refine turn_ite (fun _ => same _) fun _ => turn_ite (fun _ => opened) fun _ => ?_
    refine turn_ite (fun _ => same _) fun _ => turn_ite (fun _ => stay) fun _ => ?_
    refine turn_ite (fun _ => stay) fun _ => turn_ite (fun _ => stay) fun hprintable => ?_
    refine turn_ite (fun hascii => ?_) fun _ => ?_
    · exact ⟨h, rfl, Or.inr ⟨_, rfl, isC0OrC1_printable hprintable hascii⟩⟩
    · exact plain_decode (plain_groundScalar h) ⟨h, rfl, Or.inr ⟨_, rfl, by decide⟩⟩
  | esc =>
    refine turn_ite (fun _ => same _) fun _ => turn_ite (fun _ => same _) fun _ => ?_
    refine turn_ite (fun _ => opened) fun _ => turn_ite (fun _ => same _) fun _ => ?_
    refine turn_ite (fun _ => same _) fun _ => turn_ite (fun _ => opened) fun _ => ?_
    exact turn_ite (fun _ => same _) fun _ => turn_ite (fun _ => stay) fun _ => same _
  | csi =>
    refine turn_ite (fun _ => ?_) fun _ => turn_ite (fun _ => same _) fun _ => ?_
    · refine plain_decode (fun ch len => ?_) ?_ <;> split_ifs
      exacts [hushed _ _, invalid _, hushed _ _, invalid _]
    refine turn_ite (fun _ => same _) fun _ => turn_ite (fun _ => ?_) fun _ => ?_
    · rw [finalByte_false]
      exact same _
    · refine turn_ite (fun hparam => ?_) fun _ => invalid _
      exact Plain.silent (limited_paramByte h hparam) (by unfold paramByte; split_ifs <;> rfl)
  | string =>
    refine turn_ite (fun _ => ?_) fun _ => turn_ite (fun _ => same _) fun _ => ?_
    · refine plain_decode (fun ch len => ?_) ?_ <;> split_ifs
      exacts [hushed _ _, ⟨h, rfl, Or.inl rfl⟩, hushed _ _, stay]
    exact turn_ite (fun _ => same _) fun _ => turn_ite (fun _ => same _) fun _ => stay
  | stringEsc =>
    refine turn_ite (fun _ => ?_) fun _ => same _
    exact plain_decode (fun ch len => hushed _ _) (hushed _ _)
  | charset => exact same _

/-! ### Whole rows -/

/-- The variables without the flag, which no turn reads. -/
def forget (st : StatusState) : StatusState := { st with emittedSgr := false }

theorem forget_paramByte (st : StatusState) (byte : UInt8) :
    paramByte (forget st) byte = forget (paramByte st byte) := by
  unfold paramByte forget StatusState.invalidate
  simp only
  split_ifs <;> rfl

theorem forget_groundScalar (st : StatusState) (ch : Char) :
    statusGroundScalar (forget st) ch =
      (forget (statusGroundScalar st ch).1, (statusGroundScalar st ch).2) := by
  unfold statusGroundScalar
  split_ifs <;> rfl

theorem forget_decode (bytes : List UInt8) {scalar scalar' : Char → StatusState × List Char}
    {malformed malformed' : StatusState × List Char}
    (hs : ∀ ch, scalar' ch = (forget (scalar ch).1, (scalar ch).2))
    (hm : malformed' = (forget malformed.1, malformed.2)) :
    statusDecode bytes scalar' malformed' =
      { statusDecode bytes scalar malformed with
        state := forget (statusDecode bytes scalar malformed).state } := by
  unfold statusDecode
  rcases decodeUtf8Char bytes with _ | ⟨ch, len⟩
  · simp only [hm]
  · simp only [hs]

/-- A turn with its flag forgotten. -/
def StatusTurn.forget (turn : StatusTurn) : StatusTurn := { turn with state := Status.forget turn.state }

theorem forget_ite {c : Prop} [Decidable c] {a b a' b' : StatusTurn} (h : a' = a.forget)
    (h' : b' = b.forget) : (if c then a' else b') = (if c then a else b).forget := by
  rw [h, h', apply_ite StatusTurn.forget]

theorem statusStep_forget (st : StatusState) (byte : UInt8) (rest : List UInt8) :
    statusStep false (forget st) byte rest =
      { statusStep false st byte rest with
        state := forget (statusStep false st byte rest).state } := by
  change _ = (statusStep false st byte rest).forget
  unfold statusStep
  rw [show (forget st).escape = st.escape from rfl]
  cases st.escape with
  | ground =>
    refine forget_ite rfl (forget_ite rfl (forget_ite rfl (forget_ite rfl (forget_ite rfl ?_))))
    exact forget_ite rfl (forget_ite rfl (forget_decode _ (forget_groundScalar st) rfl))
  | esc =>
    refine forget_ite rfl (forget_ite rfl (forget_ite rfl (forget_ite rfl (forget_ite rfl ?_))))
    exact forget_ite rfl (forget_ite rfl (forget_ite rfl rfl))
  | csi =>
    refine forget_ite ?_ (forget_ite rfl (forget_ite rfl (forget_ite ?_ (forget_ite ?_ rfl))))
    · exact forget_decode _ (fun ch => by split_ifs <;> rfl) (by split_ifs <;> rfl)
    · rw [finalByte_false, finalByte_false]
      rfl
    · rw [forget_paramByte]
      rfl
  | string =>
    refine forget_ite ?_ (forget_ite rfl (forget_ite rfl (forget_ite rfl rfl)))
    exact forget_decode _ (fun ch => by split_ifs <;> rfl) (by split_ifs <;> rfl)
  | stringEsc =>
    refine forget_ite ?_ rfl
    exact forget_decode _ (fun ch => by split_ifs <;> rfl) (by split_ifs <;> rfl)
  | charset => rfl

/-- What a run of the loop writes out, and what it writes out without colour. -/
structure Written (allowColor : Bool) (st : StatusState) (bytes : List UInt8)
    (pieces : List Piece) : Prop where
  ok : ∀ piece ∈ pieces, piece.Ok
  out : (statusLoop allowColor 0 st bytes).1 = pieces.flatMap Piece.render
  emitted : (statusLoop allowColor 0 st bytes).2.emittedSgr =
    (st.emittedSgr || pieces.any Piece.isSgr)
  plain : (statusLoop false 0 (forget st) bytes).1 = pieces.flatMap Piece.plain
  colourless : allowColor = false → pieces.any Piece.isSgr = false

/-- A turn in front of a run. -/
theorem Written.cons {allowColor : Bool} {st : StatusState} {byte : UInt8} {rest : List UInt8}
    {turn turn' : StatusTurn} {before pieces : List Piece} (hline : isLineEnd byte = false)
    (hstep : statusStep allowColor st byte rest = turn)
    (hplain : statusStep false (forget st) byte rest = turn')
    (hstate : turn'.state = forget turn.state) (hlen : turn'.len = turn.len)
    (hok : ∀ piece ∈ before, piece.Ok) (hout : turn.out = before.flatMap Piece.render)
    (hout' : turn'.out = before.flatMap Piece.plain)
    (hem : turn.state.emittedSgr = (st.emittedSgr || before.any Piece.isSgr))
    (hcol : allowColor = false → before.any Piece.isSgr = false)
    (h : Written allowColor turn.state ((byte :: rest).drop turn.len) pieces) :
    Written allowColor st (byte :: rest) (before ++ pieces) := by
  refine ⟨?_, ?_, ?_, ?_, ?_⟩
  · intro piece hmem
    rcases List.mem_append.mp hmem with hmem | hmem
    · exact hok piece hmem
    · exact h.ok piece hmem
  · rw [statusLoop_next hline hstep, h.out, hout, List.flatMap_append]
  · rw [statusLoop_next hline hstep, h.emitted, hem, List.any_append, Bool.or_assoc]
  · rw [statusLoop_next hline hplain, hstate, hlen, h.plain, hout', List.flatMap_append]
  · intro hc
    rw [List.any_append, hcol hc, h.colourless hc, Bool.or_self]

/-- **One run of the loop**: it writes out pieces within the limits, and without colour the same
pieces less the control sequences. -/
theorem statusLoop_written (allowColor : Bool) (st : StatusState) (bytes : List UInt8) :
    Limited st → ∃ pieces, Written allowColor st bytes pieces := by
  refine statusLoop_induction allowColor
    (motive := fun st bytes => Limited st → ∃ pieces, Written allowColor st bytes pieces)
    ?_ ?_ ?_ st bytes
  · intro st _
    exact ⟨[], by simp, rfl, by simp [statusLoop], rfl, fun _ => rfl⟩
  · intro st byte rest hline _
    refine ⟨[], by simp, ?_, ?_, ?_, fun _ => rfl⟩
    all_goals simp [statusLoop_end _ _ _ hline]
  · intro st byte rest hline ih hl
    have hplain := statusStep_plain hl byte rest
    rcases statusStep_color allowColor st byte rest with hsame | ⟨hcol, hcolor, hfalse⟩
    · rw [hsame] at ih
      obtain ⟨pieces, hw⟩ := ih hplain.limited
      rcases hplain.out with hout | ⟨ch, hout, hch⟩
      · refine ⟨[] ++ pieces, Written.cons hline hsame (statusStep_forget st byte rest) rfl rfl
          (by simp) hout hout ?_ (fun _ => rfl) hw⟩
        simp [hplain.emitted]
      · refine ⟨[Piece.text ch] ++ pieces, Written.cons hline hsame
          (statusStep_forget st byte rest) rfl rfl ?_ ?_ ?_ ?_ (fun _ => rfl) hw⟩
        · intro piece hmem
          rw [List.mem_singleton.mp hmem]; exact hch
        · simpa [Piece.render] using hout
        · simpa [Piece.plain] using hout
        · simp [hplain.emitted, Piece.isSgr]
    · rw [hcolor] at ih
      obtain ⟨pieces, hw⟩ := ih (hl.of_eq rfl rfl)
      refine ⟨[.sgr st.csiParams] ++ pieces, Written.cons hline hcolor (statusStep_forget st byte rest)
        ?_ ?_ ?_ ?_ ?_ ?_ ?_ hw⟩
      · rw [hfalse]; rfl
      · rw [hfalse]; rfl
      · intro piece hmem
        rw [List.mem_singleton.mp hmem]
        exact ⟨hl.params, hl.length, by rw [hl.semicolons]; exact hl.count⟩
      · simp [Piece.render]
      · rw [hfalse]; rfl
      · simp [Piece.isSgr]
      · intro hc
        rw [hcol] at hc; cases hc

end LightTerminal.Sanitize.Status
