import LightTerminal.Library.Utf8
import LightTerminal.Sanitize.Chunks

/-! # The sanitizer on valid UTF-8

The reference machine `scalarStep` follows the rules of the sanitizer over scalars instead of
bytes: `U+0080..=U+009F` act as the C1 controls, every other scalar beyond ASCII is one unit.

In the ground state and inside control sequences and strings the sanitizer decodes, and one turn
takes one scalar as the reference does (`takes_of_decodes`). After `ESC` and after a charset
designator it does not: there the lead byte alone returns to the ground state, and the
continuation bytes are then read as raw bytes (`loop_wide_raw`). What they do is `quiet`: nothing,
as long as they are C1 bytes that open no sequence, or close within the scalar what they opened.
So the sanitizer follows the reference exactly on the texts in which every scalar met in these two
states is quiet (`clean`). -/

namespace LightTerminal.Sanitize.Scalars

open LightTerminal.Library.Utf8
open LightTerminal.Sanitize.Capture LightTerminal.Sanitize.Chunks

/-! ### The reference -/

/-- The escape state after a scalar in the state after `ESC`. -/
def escRule (ch : Char) : EscapeState :=
  if ch.toNat = 0x1b then .esc
  else if ch = '[' ∨ ch.toNat = 0x9b then .csi
  else if ch = ']' ∨ ch = 'P' ∨ ch = '_' ∨ ch = '^' ∨ ch = 'X' ∨ opensString ch then .string
  else if ch = '(' ∨ ch = ')' ∨ ch = '*' ∨ ch = '+' ∨ ch = '-' ∨ ch = '.' ∨ ch = '/' then .charset
  else if 0x20 ≤ ch.toNat ∧ ch.toNat ≤ 0x2f then .esc
  else .ground

/-- The escape state after a scalar in a control sequence. -/
def csiRule (ch : Char) : EscapeState :=
  if ch.toNat = 0x18 ∨ ch.toNat = 0x1a ∨ ch.toNat = 0x9c then .ground
  else if ch.toNat = 0x1b then .esc
  else if 0x40 ≤ ch.toNat ∧ ch.toNat ≤ 0x7e then .ground
  else .csi

/-- The escape state after a scalar in a control string. -/
def stringRule (ch : Char) : EscapeState :=
  if ch.toNat = 0x18 ∨ ch.toNat = 0x1a ∨ ch.toNat = 0x07 ∨ ch.toNat = 0x9c then .ground
  else if ch.toNat = 0x1b then .stringEsc
  else .string

/-- One scalar: the new escape state and the text pushed. -/
def scalarStep (escape : EscapeState) (ch : Char) : EscapeState × List Char :=
  match escape with
  | .ground =>
    if ch.toNat = 0x1b then (.esc, [])
    else if ch.toNat = 0x9b then (.csi, [])
    else if opensString ch then (.string, [])
    else if ch = '\t' ∨ ch = '\n' ∨ ch = '\r' then (.ground, [ch])
    else if isC0OrC1 ch then (.ground, [])
    else (.ground, [ch])
  | .esc => (escRule ch, [])
  | .csi => (csiRule ch, [])
  | .string => (stringRule ch, [])
  | .stringEsc => (if ch = '\\' ∨ ch.toNat = 0x9c then .ground else .string, [])
  | .charset => (.ground, [])

/-- The reference over a text. -/
def scalarLoop : EscapeState → List Char → List Char × EscapeState
  | escape, [] => ([], escape)
  | escape, ch :: text =>
    let (escape, out) := scalarStep escape ch
    let (more, escape) := scalarLoop escape text
    (out ++ more, escape)

/-- The reference for `terminal_capture`. -/
def scalarCapture (text : List Char) : List Char := (scalarLoop .ground text).1

/-! ### The condition -/

/-- Continuation bytes read as raw bytes do nothing: outside a sequence (`hidden` false) they are
C1 bytes, and a sequence they open is terminated by one of them. -/
def quiet : Bool → List UInt8 → Bool
  | hidden, [] => !hidden
  | true, byte :: rest => quiet (byte != 0x9c) rest
  | false, byte :: rest => byte < 0xa0 && quiet (byte == 0x9b || byteOpensString byte) rest

/-- The scalar does nothing but what the reference says: only in the two states that do not decode
can it be otherwise, and after `ESC` not for the C1 scalars, whose second byte is the control. -/
def harmless (escape : EscapeState) (ch : Char) : Bool :=
  match escape with
  | .esc => ch.toNat ≤ 0x9f || quiet false (String.utf8EncodeChar ch).tail
  | .charset => quiet false (String.utf8EncodeChar ch).tail
  | _ => true

/-- Every scalar is harmless in the state the reference meets it in. -/
def clean : EscapeState → List Char → Bool
  | _, [] => true
  | escape, ch :: text => harmless escape ch && clean (scalarStep escape ch).1 text

/-! ### One scalar in a state that decodes -/

/-- From `escape` the sanitizer takes the bytes of `ch` as the reference takes `ch`. -/
def Takes (escape : EscapeState) (ch : Char) : Prop :=
  ∀ rest, captureLoop 0 escape (String.utf8EncodeChar ch ++ rest) =
    ((scalarStep escape ch).2 ++ (captureLoop 0 (scalarStep escape ch).1 rest).1,
      (captureLoop 0 (scalarStep escape ch).1 rest).2)

theorem captureStep_ascii (escape : EscapeState) {ch : Char} (h : ch.toNat ≤ 0x7f) :
    captureStep escape (UInt8.ofNat ch.toNat) [] =
      .next (scalarStep escape ch).1 (scalarStep escape ch).2 1 := by
  revert escape
  refine of_each_ascii (p := fun ch => ∀ escape, captureStep escape (UInt8.ofNat ch.toNat) [] =
    .next (scalarStep escape ch).1 (scalarStep escape ch).2 1) ?_ h
  intro n hn escape
  cases escape
  all_goals
    revert n
    decide

theorem takes_ascii (escape : EscapeState) {ch : Char} (h : ch.toNat ≤ 0x7f) :
    Takes escape ch := by
  intro rest
  have hstep := captureStep_ascii escape h
  have hmore : captureStep escape (UInt8.ofNat ch.toNat) rest =
      .next (scalarStep escape ch).1 (scalarStep escape ch).2 1 := by
    rw [← List.nil_append rest, captureStep_append rest (by rw [hstep]; simp), hstep]
  rw [encodeChar_ascii h, List.singleton_append, captureLoop_next hmore, List.drop_one,
    List.tail_cons]

theorem utf8CharWidth_lead {len : ℕ} {byte : UInt8} (h : Lead len byte) :
    utf8CharWidth byte = some len := by
  unfold utf8CharWidth
  simp only [UInt8.le_iff_toNat_le]
  rcases h with ⟨rfl, h⟩ | ⟨rfl, h⟩ | ⟨rfl, h⟩
  · rw [if_neg, if_pos] <;> simp <;> omega
  · rw [if_neg, if_neg, if_pos] <;> simp <;> omega
  · rw [if_neg, if_neg, if_neg, if_pos] <;> simp <;> omega

/-- The bytes that `decode_utf8_char` takes are the encoding of the scalar. -/
theorem decodeUtf8Char_take {byte : UInt8} {rest : List UInt8} {ch : Char} {len : ℕ}
    (h : decodeUtf8Char (byte :: rest) = some (ch, len)) :
    (byte :: rest).take len = String.utf8EncodeChar ch := by
  rw [decodeUtf8Char_cons] at h
  rcases hw : utf8CharWidth byte with _ | width
  · simp [hw] at h
  · rw [hw, Option.bind_some] at h
    split_ifs at h with hlt
    simp only [Option.map_eq_some_iff, Prod.mk.injEq] at h
    obtain ⟨ch', hdec, rfl, rfl⟩ := h
    have henc := String.toByteArray_utf8EncodeChar_of_utf8DecodeChar?_eq_some hdec
    have hlist : String.utf8EncodeChar ch' = ((byte :: rest).take width).take ch'.utf8Size := by
      have := congrArg (fun b : ByteArray => b.data.toList) henc
      simpa [ByteArray.data_extract, List.extract] using this
    have hpos := (utf8CharWidth_bounds hw).1
    obtain ⟨tail, htail⟩ : ∃ tail, String.utf8EncodeChar ch' = byte :: tail := by
      obtain ⟨n, rfl⟩ : ∃ n, width = n + 1 := ⟨width - 1, by omega⟩
      obtain ⟨m, hm⟩ : ∃ m, ch'.utf8Size = m + 1 := ⟨ch'.utf8Size - 1, by
        have := ch'.utf8Size_pos
        omega⟩
      rw [hm, List.take_succ_cons, List.take_succ_cons] at hlist
      exact ⟨_, hlist⟩
    -- the lead byte announces the length of the scalar
    have hsize : ch'.utf8Size = width := by
      have hlen := congrArg List.length htail
      rw [String.length_utf8EncodeChar] at hlen
      by_cases hascii : ch'.toNat ≤ 0x7f
      · rw [encodeChar_ascii hascii] at htail
        obtain ⟨rfl, rfl⟩ := List.cons.inj htail
        have hle : UInt8.ofNat ch'.toNat ≤ 0x7f := by
          rw [UInt8.le_iff_toNat_le, toNat_ofNat (by omega)]
          exact hascii
        rw [utf8CharWidth, if_pos hle, Option.some.injEq] at hw
        simpa [hw] using hlen
      · obtain ⟨lead, tail', he, hl, -⟩ := encodeChar_wide (not_le.mp hascii)
        rw [he] at htail
        obtain ⟨rfl, rfl⟩ := List.cons.inj htail
        rw [utf8CharWidth_lead hl, Option.some.injEq] at hw
        rw [hlen, List.length_cons, hw]
    rw [hlist, hsize, List.take_take, Nat.min_self]

section Wide
variable {ch : Char} {lead : UInt8} {tail : List UInt8}

theorem decodeUtf8Char_encode (he : String.utf8EncodeChar ch = lead :: tail)
    (hl : Lead (tail.length + 1) lead) (rest : List UInt8) :
    decodeUtf8Char (lead :: (tail ++ rest)) = some (ch, tail.length + 1) := by
  have htake : (lead :: (tail ++ rest)).take (tail.length + 1) = String.utf8EncodeChar ch := by
    rw [he, List.take_succ_cons, List.take_left]
  have hdec : (String.utf8EncodeChar ch).toByteArray.utf8DecodeChar? 0 = some ch := by
    have := ByteArray.utf8DecodeChar?_utf8EncodeChar_append (b := ByteArray.empty) (c := ch)
    rwa [ByteArray.append_empty] at this
  rw [decodeUtf8Char_cons, utf8CharWidth_lead hl, Option.bind_some,
    if_neg (by simp), htake, hdec, Option.map_some]

theorem decodeTurn_encode (he : String.utf8EncodeChar ch = lead :: tail)
    (hl : Lead (tail.length + 1) lead) (rest : List UInt8)
    (scalar : Char → EscapeState × List Char) (malformed : EscapeState × List Char) :
    decodeTurn (lead :: (tail ++ rest)) scalar malformed =
      .next (scalar ch).1 (scalar ch).2 (tail.length + 1) := by
  rw [decodeTurn, decodeUtf8Char_encode he hl]

theorem Lead.bounds {len : ℕ} (hl : Lead len lead) : 0xc2 ≤ lead.toNat ∧ lead.toNat ≤ 0xf4 := by
  rcases hl with h | h | h <;> omega

/-- A lead byte is none of the bytes that the ground state singles out. -/
theorem groundTurn_lead {len : ℕ} (hl : Lead len lead) (bytes : List UInt8) :
    groundTurn lead bytes = decodeTurn bytes groundScalar (.ground, ['\uFFFD']) := by
  have hb := Lead.bounds hl
  have hne : ∀ n : UInt8, n.toNat < 0xc2 → lead ≠ n := by
    rintro n hn rfl
    omega
  have hle : ∀ n : UInt8, n.toNat < 0xc2 → ¬ lead ≤ n := fun n hn h =>
    absurd (UInt8.le_iff_toNat_le.mp h) (by omega)
  unfold groundTurn byteOpensString
  simp only [hne 0x1b (by decide), hne 0x9b (by decide), hne 0x90 (by decide),
    hne 0x98 (by decide), hne 0x9d (by decide), hne 0x9e (by decide), hne 0x9f (by decide),
    hne 0x09 (by decide), hne 0x0a (by decide), hne 0x0d (by decide), hne 0x7f (by decide),
    hle 0x9f (by decide), hle 0x1f (by decide), hle 0x7f (by decide), if_false, and_false,
    or_self, decide_false, Bool.or_self, Bool.false_eq_true]

theorem groundScalar_wide (h : 0x7f < ch.toNat) : groundScalar ch = scalarStep .ground ch := by
  have hw : ¬ (ch = '\t' ∨ ch = '\n' ∨ ch = '\r') := by
    rintro (rfl | rfl | rfl) <;> exact absurd h (by decide)
  simp only [groundScalar, scalarStep, if_neg hw]
  rw [if_neg (show ¬ ch.toNat = 0x1b by omega)]

theorem terminates_wide (h : 0x7f < ch.toNat) :
    terminates .csi ch = scalarStep .csi ch ∧ terminates .string ch = scalarStep .string ch ∧
      terminates .string ch = scalarStep .stringEsc ch := by
  have hb : ch ≠ '\\' := by
    rintro rfl
    exact absurd h (by decide)
  have h18 : ch.toNat ≠ 0x18 := by omega
  have h1a : ch.toNat ≠ 0x1a := by omega
  have h1b : ch.toNat ≠ 0x1b := by omega
  have h07 : ch.toNat ≠ 0x07 := by omega
  have hf : ¬ (0x40 ≤ ch.toNat ∧ ch.toNat ≤ 0x7e) := by omega
  simp only [terminates, scalarStep, csiRule, stringRule, h18, h1a, h1b, h07, hf, hb, false_or,
    if_false, and_self]

/-- The four states that decode take a scalar beyond ASCII in one turn. -/
theorem takes_wide {escape : EscapeState} (h : 0x7f < ch.toNat) (hesc : escape ≠ .esc)
    (hch : escape ≠ .charset) : Takes escape ch := by
  intro rest
  obtain ⟨lead, tail, he, hl, -⟩ := encodeChar_wide h
  have h80 : (0x80 : UInt8) ≤ lead := by
    rw [UInt8.le_iff_toNat_le]
    have := (Lead.bounds hl).1
    simp only [UInt8.toNat_ofNat]
    omega
  obtain ⟨hcsi, hstr, hst⟩ := terminates_wide h
  have hstep : captureStep escape lead (tail ++ rest) =
      .next (scalarStep escape ch).1 (scalarStep escape ch).2 (tail.length + 1) := by
    cases escape with
    | ground =>
      rw [captureStep, groundTurn_lead hl, decodeTurn_encode he hl, groundScalar_wide h]
    | csi => rw [captureStep, csiTurn, if_pos h80, decodeTurn_encode he hl, hcsi]
    | string => rw [captureStep, stringTurn, if_pos h80, decodeTurn_encode he hl, hstr]
    | stringEsc => rw [captureStep, stringEscTurn, if_pos h80, decodeTurn_encode he hl, hst]
    | esc => exact absurd rfl hesc
    | charset => exact absurd rfl hch
  rw [he, List.cons_append, captureLoop_next hstep, List.drop_succ_cons, List.drop_left]

end Wide

/-! ### Continuation bytes read as raw bytes -/

/-- The states a raw continuation byte leads to from the ground state. -/
def Raw (escape : EscapeState) : Prop := escape = .ground ∨ escape = .csi ∨ escape = .string

/-- One raw continuation byte. -/
def strayStep (escape : EscapeState) (byte : UInt8) : EscapeState × List Char :=
  match escape with
  | .ground =>
    if byte = 0x9b then (.csi, [])
    else if byteOpensString byte then (.string, [])
    else if byte < 0xa0 then (.ground, [])
    else (.ground, ['\uFFFD'])
  | escape => (if byte = 0x9c then .ground else escape, [])

/-- The raw continuation bytes of one scalar. -/
def strayLoop : EscapeState → List UInt8 → List Char × EscapeState
  | escape, [] => ([], escape)
  | escape, byte :: rest =>
    ((strayStep escape byte).2 ++ (strayLoop (strayStep escape byte).1 rest).1,
      (strayLoop (strayStep escape byte).1 rest).2)

set_option maxRecDepth 4000 in
theorem captureStep_stray {escape : EscapeState} (hr : Raw escape) (byte : UInt8)
    (hb : Continuation byte) :
    captureStep escape byte [] = .next (strayStep escape byte).1 (strayStep escape byte).2 1 := by
  revert hb
  rcases hr with rfl | rfl | rfl
  all_goals
    revert byte
    refine of_each_byte ?_
    decide

theorem strayStep_raw {escape : EscapeState} (hr : Raw escape) (byte : UInt8) :
    Raw (strayStep escape byte).1 := by
  unfold Raw at hr ⊢
  rcases hr with rfl | rfl | rfl
  · simp only [strayStep]
    split_ifs <;> simp
  · simp only [strayStep]
    split_ifs <;> simp
  · simp only [strayStep]
    split_ifs <;> simp

theorem strayLoop_raw : ∀ {escape : EscapeState} (tail : List UInt8), Raw escape →
    Raw (strayLoop escape tail).2
  | _, [], hr => hr
  | _, byte :: rest, hr => strayLoop_raw rest (strayStep_raw hr byte)

theorem captureLoop_stray (rest : List UInt8) : ∀ {escape : EscapeState} (tail : List UInt8),
    Raw escape → (∀ byte ∈ tail, Continuation byte) →
      captureLoop 0 escape (tail ++ rest) =
        ((strayLoop escape tail).1 ++ (captureLoop 0 (strayLoop escape tail).2 rest).1,
          (captureLoop 0 (strayLoop escape tail).2 rest).2)
  | _, [], _, _ => rfl
  | escape, byte :: tail, hr, hb => by
    have hstep := captureStep_stray hr byte (hb byte (List.mem_cons_self ..))
    have hmore : captureStep escape byte (tail ++ rest) =
        .next (strayStep escape byte).1 (strayStep escape byte).2 1 := by
      rw [← List.nil_append (tail ++ rest), captureStep_append _ (by rw [hstep]; simp), hstep]
    have ih := captureLoop_stray rest tail (strayStep_raw hr byte)
      fun b hmem => hb b (List.mem_cons_of_mem _ hmem)
    rw [List.cons_append, captureLoop_next hmore, List.drop_one, List.tail_cons, ih, strayLoop,
      List.append_assoc]

/-- The continuation bytes push nothing and end in the ground state exactly if they are quiet. -/
theorem quiet_iff : ∀ {escape : EscapeState} (tail : List UInt8), Raw escape →
    (quiet (escape != .ground) tail = true ↔ strayLoop escape tail = ([], .ground))
  | escape, [], _ => by simp [quiet, strayLoop]
  | escape, byte :: tail, hr => by
    have ih := quiet_iff tail (strayStep_raw hr byte)
    rcases hr with rfl | rfl | rfl
    · by_cases hlt : byte < 0xa0
      · have hstep : (strayStep .ground byte).2 = [] ∧
            ((strayStep .ground byte).1 != .ground) = (byte == 0x9b || byteOpensString byte) := by
          simp only [strayStep, if_pos hlt]
          by_cases h9b : byte = 0x9b
          · simp [h9b]
          · by_cases ho : byteOpensString byte = true <;> simp [h9b, ho]
        rw [hstep.2] at ih
        simp only [quiet, bne_self_eq_false, hlt, decide_true, Bool.true_and, ih, strayLoop,
          hstep.1, List.nil_append, Prod.ext_iff]
      · have hstep : strayStep .ground byte = (.ground, ['\uFFFD']) := by
          have hne : ∀ n : UInt8, n < 0xa0 → byte ≠ n := by
            rintro n hn rfl
            exact hlt hn
          simp only [strayStep, byteOpensString, if_neg hlt, hne 0x9b (by decide),
            hne 0x90 (by decide), hne 0x98 (by decide), hne 0x9d (by decide),
            hne 0x9e (by decide), hne 0x9f (by decide), decide_false, Bool.or_self, if_false,
            Bool.false_eq_true]
        simp [quiet, hlt, strayLoop, hstep]
    · have hcsi : (EscapeState.csi != .ground) = true := rfl
      by_cases h9c : byte = 0x9c
      · simpa [quiet, strayLoop, strayStep, hcsi, h9c] using ih
      · have hne : (byte != 0x9c) = true := by simpa using h9c
        simpa [quiet, strayLoop, strayStep, hcsi, h9c, hne] using ih
    · have hstr : (EscapeState.string != .ground) = true := rfl
      by_cases h9c : byte = 0x9c
      · simpa [quiet, strayLoop, strayStep, hstr, h9c] using ih
      · have hne : (byte != 0x9c) = true := by simpa using h9c
        simpa [quiet, strayLoop, strayStep, hstr, h9c, hne] using ih

/-! ### One scalar in the two states that do not decode -/

set_option maxRecDepth 4000 in
theorem escTurn_wide (byte : UInt8) : 0xc2 ≤ byte.toNat → escTurn byte = .next .ground [] 1 := by
  revert byte
  refine of_each_byte ?_
  decide

/-- The lead byte returns to the ground state, the continuation bytes follow raw. -/
theorem captureLoop_undecoded {escape : EscapeState} (hs : escape = .esc ∨ escape = .charset)
    {ch : Char} (h : 0x7f < ch.toNat) (rest : List UInt8) :
    captureLoop 0 escape (String.utf8EncodeChar ch ++ rest) =
      ((strayLoop .ground (String.utf8EncodeChar ch).tail).1 ++
          (captureLoop 0 (strayLoop .ground (String.utf8EncodeChar ch).tail).2 rest).1,
        (captureLoop 0 (strayLoop .ground (String.utf8EncodeChar ch).tail).2 rest).2) := by
  obtain ⟨lead, tail, he, hl, hcont⟩ := encodeChar_wide h
  have hstep : captureStep escape lead (tail ++ rest) = .next .ground [] 1 := by
    rcases hs with rfl | rfl
    · exact escTurn_wide lead (Lead.bounds hl).1
    · rfl
  rw [he, List.cons_append, captureLoop_next hstep, List.drop_one, List.tail_cons,
    List.nil_append, captureLoop_stray rest tail (Or.inl rfl) hcont, List.tail_cons]

set_option maxRecDepth 4000 in
/-- A C1 scalar after `ESC`: its second byte is the control, met in the ground state. -/
theorem strayLoop_c1 {ch : Char} (h : 0x7f < ch.toNat) (h' : ch.toNat ≤ 0x9f) :
    strayLoop .ground (String.utf8EncodeChar ch).tail = ([], escRule ch) := by
  have hall : ∀ n < 0xa0, 0x7f < n → strayLoop .ground (String.utf8EncodeChar (Char.ofNat n)).tail =
      ([], escRule (Char.ofNat n)) := by decide
  have := hall ch.toNat (by omega) h
  rwa [Char.ofNat_toNat] at this

theorem escRule_wide {ch : Char} (h : 0x9f < ch.toNat) : escRule ch = .ground := by
  have hne : ∀ c : Char, c.toNat ≤ 0x9f → ch ≠ c := by
    rintro c hc rfl
    omega
  have ho : opensString ch = false := by
    simp only [opensString, Bool.or_eq_false_iff, decide_eq_false_iff_not]
    omega
  have h1b : ch.toNat ≠ 0x1b := by omega
  have h9b : ch.toNat ≠ 0x9b := by omega
  have h2f : ¬ (0x20 ≤ ch.toNat ∧ ch.toNat ≤ 0x2f) := by omega
  simp only [escRule, h1b, h9b, h2f, ho, hne '[' (by decide), hne ']' (by decide),
    hne 'P' (by decide), hne '_' (by decide), hne '^' (by decide), hne 'X' (by decide),
    hne '(' (by decide), hne ')' (by decide), hne '*' (by decide), hne '+' (by decide),
    hne '-' (by decide), hne '.' (by decide), hne '/' (by decide), or_self, if_false,
    Bool.false_eq_true]

/-- What a harmful scalar is: met after `ESC` or a charset designator, where the reference passes
over it, with continuation bytes that push text or leave the ground state. -/
theorem of_not_harmless {escape : EscapeState} {ch : Char} (h : harmless escape ch = false) :
    (escape = .esc ∨ escape = .charset) ∧ 0x7f < ch.toNat ∧
      scalarStep escape ch = (.ground, []) ∧
      strayLoop .ground (String.utf8EncodeChar ch).tail ≠ ([], .ground) := by
  have hquiet : quiet false (String.utf8EncodeChar ch).tail = false →
      0x7f < ch.toNat ∧ strayLoop .ground (String.utf8EncodeChar ch).tail ≠ ([], .ground) := by
    intro hq
    refine ⟨?_, fun hs => ?_⟩
    · by_contra hle
      rw [encodeChar_ascii (by omega)] at hq
      cases hq
    · rw [show false = (EscapeState.ground != .ground) from rfl,
        (quiet_iff _ (Or.inl rfl)).mpr hs] at hq
      cases hq
  cases escape with
  | esc =>
    simp only [harmless, Bool.or_eq_false_iff, decide_eq_false_iff_not, not_le] at h
    obtain ⟨hwide, hstray⟩ := hquiet h.2
    exact ⟨Or.inl rfl, hwide, by rw [scalarStep, escRule_wide h.1], hstray⟩
  | charset =>
    obtain ⟨hwide, hstray⟩ := hquiet h
    exact ⟨Or.inr rfl, hwide, rfl, hstray⟩
  | ground => cases h
  | csi => cases h
  | string => cases h
  | stringEsc => cases h

/-- **One scalar**: a harmless one is taken as the reference takes it. -/
theorem takes_of_harmless {escape : EscapeState} {ch : Char} (h : harmless escape ch = true) :
    Takes escape ch := by
  by_cases hwide : 0x7f < ch.toNat
  · have hquiet : quiet false (String.utf8EncodeChar ch).tail = true →
        strayLoop .ground (String.utf8EncodeChar ch).tail = ([], .ground) := fun hq =>
      (quiet_iff _ (Or.inl rfl)).mp hq
    intro rest
    cases escape with
    | esc =>
      have hstray : strayLoop .ground (String.utf8EncodeChar ch).tail = ([], escRule ch) := by
        by_cases hc1 : ch.toNat ≤ 0x9f
        · exact strayLoop_c1 hwide hc1
        · simp only [harmless, hc1, decide_false, Bool.false_or] at h
          rw [hquiet h, escRule_wide (by omega)]
      rw [captureLoop_undecoded (Or.inl rfl) hwide, hstray]
      rfl
    | charset =>
      rw [captureLoop_undecoded (Or.inr rfl) hwide, hquiet h]
      rfl
    | ground => exact takes_wide hwide (by simp) (by simp) rest
    | csi => exact takes_wide hwide (by simp) (by simp) rest
    | string => exact takes_wide hwide (by simp) (by simp) rest
    | stringEsc => exact takes_wide hwide (by simp) (by simp) rest
  · exact takes_ascii escape (by omega)

/-! ### Whole texts -/

theorem scalarLoop_cons (escape : EscapeState) (ch : Char) (text : List Char) :
    scalarLoop escape (ch :: text) =
      ((scalarStep escape ch).2 ++ (scalarLoop (scalarStep escape ch).1 text).1,
        (scalarLoop (scalarStep escape ch).1 text).2) := rfl

theorem scalarLoop_append (more : List Char) : ∀ (escape : EscapeState) (text : List Char),
    scalarLoop escape (text ++ more) =
      ((scalarLoop escape text).1 ++ (scalarLoop (scalarLoop escape text).2 more).1,
        (scalarLoop (scalarLoop escape text).2 more).2)
  | _, [] => rfl
  | escape, ch :: text => by
    rw [List.cons_append, scalarLoop_cons, scalarLoop_cons, scalarLoop_append more _ text,
      List.append_assoc]

theorem clean_append (more : List Char) : ∀ (escape : EscapeState) (text : List Char),
    clean escape (text ++ more) = (clean escape text && clean (scalarLoop escape text).2 more)
  | _, [] => rfl
  | escape, ch :: text => by
    rw [List.cons_append, clean, clean, clean_append more _ text, scalarLoop_cons,
      Bool.and_assoc]

theorem harmless_ascii (escape : EscapeState) {ch : Char} (h : ch.toNat ≤ 0x7f) :
    harmless escape ch = true := by
  by_contra hne
  obtain ⟨-, hwide, -⟩ := of_not_harmless (Bool.eq_false_iff.mpr hne)
  omega

theorem clean_ascii : ∀ (escape : EscapeState) (text : List Char),
    (∀ ch ∈ text, ch.toNat ≤ 0x7f) → clean escape text = true
  | _, [], _ => rfl
  | escape, ch :: text, h => by
    rw [clean, harmless_ascii escape (h ch (List.mem_cons_self ..)), Bool.true_and]
    exact clean_ascii _ text fun c hc => h c (List.mem_cons_of_mem _ hc)

/-- A text that is not clean has a first harmful scalar. -/
theorem exists_harmful : ∀ (escape : EscapeState) (text : List Char),
    clean escape text = false → ∃ p ch q, text = p ++ ch :: q ∧ clean escape p = true ∧
      harmless (scalarLoop escape p).2 ch = false
  | _, [], h => by cases h
  | escape, ch :: text, h => by
    by_cases hh : harmless escape ch = true
    · rw [clean, hh, Bool.true_and] at h
      obtain ⟨p, c, q, rfl, hp, hc⟩ := exists_harmful _ text h
      refine ⟨ch :: p, c, q, rfl, ?_, hc⟩
      rw [clean, hh, hp, Bool.and_self]
    · exact ⟨[], ch, text, rfl, rfl, Bool.eq_false_iff.mpr hh⟩

/-- **A clean text** is taken scalar by scalar, whatever bytes come after it. -/
theorem captureLoop_clean (rest : List UInt8) : ∀ (escape : EscapeState) (text : List Char),
    clean escape text = true →
      captureLoop 0 escape (encode text ++ rest) =
        ((scalarLoop escape text).1 ++ (captureLoop 0 (scalarLoop escape text).2 rest).1,
          (captureLoop 0 (scalarLoop escape text).2 rest).2)
  | _, [], _ => rfl
  | escape, ch :: text, h => by
    rw [clean, Bool.and_eq_true] at h
    rw [encode_cons, List.append_assoc, takes_of_harmless h.1,
      captureLoop_clean rest _ text h.2, scalarLoop_cons, List.append_assoc]

/-- Nothing is pending where no bytes are left over. -/
theorem terminalCapture_of_loop {bytes : List UInt8} {out : List Char} {escape : EscapeState}
    (h : captureLoop 0 .ground bytes = (out, ⟨escape, []⟩)) : terminalCapture bytes = out := by
  have h' : terminalCaptureFromState bytes .default = (out, ⟨escape, []⟩) := h
  rw [terminalCapture, h']
  simp [flushPendingUtf8AtCaptureEnd]

theorem terminalCapture_clean {text : List Char} (h : clean .ground text = true) :
    terminalCapture (encode text) = scalarCapture text := by
  have hloop := captureLoop_clean [] .ground text h
  rw [List.append_nil] at hloop
  rw [terminalCapture_of_loop (by rw [hloop, captureLoop]), List.append_nil, scalarCapture]

/-- The text a harmful scalar is followed by to make the difference visible: none if it has
pushed a replacement character, a letter if it has opened a sequence that swallows the letter. -/
theorem exists_difference {p : List Char} {ch : Char} (hp : clean .ground p = true)
    (hch : harmless (scalarLoop .ground p).2 ch = false) :
    ∃ t, (∀ c ∈ t, c.toNat ≤ 0x7f) ∧
      terminalCapture (encode (p ++ [ch] ++ t)) ≠ scalarCapture (p ++ [ch] ++ t) := by
  obtain ⟨hs, hwide, hstep, hstray⟩ := of_not_harmless hch
  generalize htail : (String.utf8EncodeChar ch).tail = tail at hstray
  have hraw := strayLoop_raw tail (Or.inl rfl)
  generalize hloop : strayLoop .ground tail = stray at hstray hraw
  obtain ⟨out, escape⟩ := stray
  -- the bytes of `p ++ [ch] ++ t`, and the reference on it
  have hbytes : ∀ t, captureLoop 0 .ground (encode (p ++ [ch] ++ t)) =
      ((scalarLoop .ground p).1 ++ (out ++ (captureLoop 0 escape (encode t)).1),
        (captureLoop 0 escape (encode t)).2) := by
    intro t
    rw [encode_append, encode_append, List.append_assoc, captureLoop_clean _ _ p hp,
      encode_cons, encode_nil, List.append_nil, captureLoop_undecoded hs hwide, htail, hloop]
  have href : ∀ t, scalarCapture (p ++ [ch] ++ t) =
      (scalarLoop .ground p).1 ++ (scalarLoop .ground t).1 := by
    intro t
    rw [scalarCapture, List.append_assoc, List.singleton_append, scalarLoop_append,
      scalarLoop_cons, hstep, List.nil_append]
  by_cases hout : out = []
  · subst hout
    have hesc : escape = .csi ∨ escape = .string := by
      rcases hraw with h | h
      · exact (hstray (Prod.ext rfl h)).elim
      · exact h
    have hA : ∃ last, captureLoop 0 escape (encode ['A']) = ([], ⟨last, []⟩) := by
      rcases hesc with rfl | rfl
      · exact ⟨.ground, by decide⟩
      · exact ⟨.string, by decide⟩
    obtain ⟨last, hA⟩ := hA
    refine ⟨['A'], by simp, ?_⟩
    rw [terminalCapture_of_loop (by rw [hbytes, hA]), href,
      show (scalarLoop .ground ['A']).1 = ['A'] by decide]
    simp
  · refine ⟨[], by simp, ?_⟩
    rw [terminalCapture_of_loop (by rw [hbytes, encode_nil, captureLoop]), href]
    simpa [scalarLoop] using hout

/-- **Whole scalars.** On the bytes of a clean text the sanitizer gives the reference's output;
and a text is clean exactly if the two agree on each of its beginnings, whatever ASCII text
follows there. -/
theorem terminalCapture_scalars (text : List Char) :
    (clean .ground text = true → terminalCapture (encode text) = scalarCapture text) ∧
      (clean .ground text = true ↔ ∀ p t, p <+: text → (∀ ch ∈ t, ch.toNat ≤ 0x7f) →
        terminalCapture (encode (p ++ t)) = scalarCapture (p ++ t)) := by
  refine ⟨terminalCapture_clean, fun h p t hp ht => ?_, fun h => ?_⟩
  · obtain ⟨q, rfl⟩ := hp
    rw [clean_append, Bool.and_eq_true] at h
    exact terminalCapture_clean (by rw [clean_append, h.1, clean_ascii _ t ht, Bool.and_self])
  · by_contra hne
    obtain ⟨p, ch, q, rfl, hp, hch⟩ := exists_harmful _ _ (Bool.eq_false_iff.mpr hne)
    obtain ⟨t, ht, hdiff⟩ := exists_difference hp hch
    exact hdiff (h (p ++ [ch]) t ⟨q, by simp⟩ ht)

/-- After `ESC` the second byte of `Û` opens a control sequence that swallows the next letter; a
charset designator followed by `é` leaves a replacement character. -/
theorem terminalCapture_undecoded :
    terminalCapture (encode ['A', '\u001b', 'Û', 's', 'e', 'c']) ≠
        scalarCapture ['A', '\u001b', 'Û', 's', 'e', 'c'] ∧
      terminalCapture (encode ['A', '\u001b', 'Û', 's', 'e', 'c']) = ['A', 'e', 'c'] ∧
      scalarCapture ['A', '\u001b', 'Û', 's', 'e', 'c'] = ['A', 's', 'e', 'c'] ∧
      terminalCapture (encode ['\u001b', '(', 'é', 'B']) = ['\uFFFD', 'B'] ∧
      scalarCapture ['\u001b', '(', 'é', 'B'] = ['B'] := by
  decide +kernel

end LightTerminal.Sanitize.Scalars
