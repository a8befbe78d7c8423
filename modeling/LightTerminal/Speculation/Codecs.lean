import LightTerminal.Speculation.Base64

/-! # The base64 codecs, with what can panic

The two codecs of `Base64` again, now with every operation of the source that can panic: indexing, slicing a
string, and subtraction and addition of machine integers. None of them ever does, so that the codecs do
what `Base64` says (`wireDecodeBase64_eq`, `runnerDecodeCanonicalBase64_eq`), and the decoders accept
nothing but encodings. -/

namespace LightTerminal.Speculation.Codecs

open LightTerminal.Data.Text LightTerminal.Library LightTerminal.Library.Procedure
open LightTerminal.Speculation.Control LightTerminal.Speculation.Base64

/-! ### Operations that can panic -/

/-- How a function stops without a result. -/
inductive Stop (E : Type) where
  | panicked
  | failed (error : E)
  deriving DecidableEq, Repr

/-- The result of a function that can panic. -/
abbrev Checked (E α : Type) := Except (Stop E) α

variable {E F α β : Type}

/-- What cannot panic. -/
def lift (x : Except E α) : Checked E α := x.mapError .failed

/-- `bytes[index]`. -/
def byteAt (bytes : List UInt8) (index : ℕ) : Checked E UInt8 := expect bytes[index]? .panicked

/-- `bytes[index] = byte`. -/
def setAt (bytes : List UInt8) (index : ℕ) (byte : UInt8) : Checked E (List UInt8) := do
  require (index < bytes.length) .panicked
  return bytes.set index byte

/-- The difference of two lengths. -/
def minus (a b : ℕ) : Checked E ℕ := do
  require (b ≤ a) .panicked
  return a - b

/-- The difference of two bytes. -/
def minusByte (a b : UInt8) : Checked E UInt8 := do
  require (b ≤ a) .panicked
  return a - b

/-- The sum of two bytes. -/
def plusByte (a b : UInt8) : Checked E UInt8 := do
  require (a.toNat + b.toNat < 256) .panicked
  return a + b

/-- `str::is_char_boundary`. -/
def isCharBoundary (value : List UInt8) (index : ℕ) : Bool :=
  index = value.length || value[index]?.any fun byte => byte < 0x80 || 0xc0 ≤ byte

/-- `&value[..stop]`. -/
def sliceTo (value : List UInt8) (stop : ℕ) : Checked E (List UInt8) := do
  require (isCharBoundary value stop = true) .panicked
  return value.take stop

/-! ### The encoders -/

/-- `data.chunks(3)`. -/
def chunks : List UInt8 → List (List UInt8)
  | [] => []
  | [first] => [[first]]
  | [first, second] => [[first, second]]
  | first :: second :: third :: rest => [first, second, third] :: chunks rest

/-- The four digits of a chunk. -/
def encodeChunk (table chunk : List UInt8) : Checked E (List UInt8) := do
  let b0 ← byteAt chunk 0
  let b1 := chunk.getD 1 0
  let b2 := chunk.getD 2 0
  let d0 ← byteAt table (sextet0 b0).toNat
  let d1 ← byteAt table (sextet1 b0 b1).toNat
  let d2 ← if chunk.length > 1 then byteAt table (sextet2 b1 b2).toNat else pure padByte
  let d3 ← if chunk.length > 2 then byteAt table (sextet3 b2).toNat else pure padByte
  return [d0, d1, d2, d3]

/-- The body of the two encoders. -/
def encodeWith (table data : List UInt8) : Checked E (List UInt8) :=
  return ((← (chunks data).mapM (encodeChunk table)).flatten)

/-- `BASE64` of `send_data_serde`. -/
def wireTable : List UInt8 := bytesOf "ABCDEFGHIJKLMNOPQRSTUVWXYZabcdefghijklmnopqrstuvwxyz0123456789+/"

/-- `TABLE` of the runner. -/
def runnerTable : List UInt8 := bytesOf "ABCDEFGHIJKLMNOPQRSTUVWXYZabcdefghijklmnopqrstuvwxyz0123456789+/"

/-- `encode_base64` of `send_data_serde`. -/
def wireEncodeBase64 (data : List UInt8) : Checked E (List UInt8) := encodeWith wireTable data

/-- `encode_base64` of the runner. -/
def runnerEncodeBase64 (data : List UInt8) : Checked E (List UInt8) := encodeWith runnerTable data

/-! ### The decoder of the wire -/

/-- The values of digits, of `decode_char` and `decode_base64_digit`. -/
def charValue (error : E) (byte : UInt8) : Checked E UInt8 :=
  if 0x41 ≤ byte ∧ byte ≤ 0x5a then minusByte byte 0x41
  else if 0x61 ≤ byte ∧ byte ≤ 0x7a then do plusByte (← minusByte byte 0x61) 26
  else if 0x30 ≤ byte ∧ byte ≤ 0x39 then do plusByte (← minusByte byte 0x30) 52
  else if byte = 0x2b then return 62
  else if byte = 0x2f then return 63
  else throw (.failed error)

/-- `decode_char`. -/
def wireDecodeChar (byte : UInt8) : Checked Str UInt8 :=
  charValue ("invalid base64 character 0x".toList ++ hexDigits 2 byte.toNat) byte

/-- `out`, `quartet` and `quartet_len`. -/
structure Buffer where
  out : List UInt8
  quartet : List UInt8
  quartetLen : ℕ
  deriving DecidableEq, Repr

/-- `push_decoded_quartet`. -/
def wirePushDecodedQuartet (out quartet : List UInt8) (bytes : ℕ) : Checked Str (List UInt8) := do
  require (out.length + bytes ≤ maxSendDataBytes) (.failed sendDataExceeds)
  let first := octet0 (← byteAt quartet 0) (← byteAt quartet 1)
  let second ← if bytes > 1 then pure [octet1 (← byteAt quartet 1) (← byteAt quartet 2)] else pure []
  let third ← if bytes > 2 then pure [octet2 (← byteAt quartet 2) (← byteAt quartet 3)] else pure []
  return out ++ [first] ++ second ++ third

/-- One byte of the loop of `decode_base64`. -/
def wireTake (buffer : Buffer) (byte : UInt8) : Checked Str Buffer := do
  let quartet ← setAt buffer.quartet buffer.quartetLen (← wireDecodeChar byte)
  let quartetLen := buffer.quartetLen + 1
  if quartetLen = 4 then
    return ⟨← wirePushDecodedQuartet buffer.out quartet 3, quartet, 0⟩
  else return ⟨buffer.out, quartet, quartetLen⟩

/-- The end of `decode_base64`. -/
def wireFinish (buffer : Buffer) : Checked Str (List UInt8) := do
  match buffer.quartetLen with
  | 0 => return buffer.out
  | 2 =>
    require ((← byteAt buffer.quartet 1) &&& 0x0f = 0) (.failed "non-canonical base64 tail bits".toList)
    wirePushDecodedQuartet buffer.out buffer.quartet 1
  | 3 =>
    require ((← byteAt buffer.quartet 2) &&& 0x03 = 0) (.failed "non-canonical base64 tail bits".toList)
    wirePushDecodedQuartet buffer.out buffer.quartet 2
  | _ => throw (.failed "invalid base64 length".toList)

/-- `decode_base64`. -/
def wireDecodeBase64 (value : List UInt8) : Checked Str (List UInt8) := do
  require (isAscii value = true) (.failed "base64 data must be ASCII".toList)
  let trimmed := value.rdropWhile (· = padByte)
  let padding ← minus value.length trimmed.length
  let front ← sliceTo value trimmed.length
  require (padByte ∉ front) (.failed "base64 padding may only appear at the end".toList)
  require (¬(padding > 2 ∨ (padding > 0 ∧ value.length % 4 ≠ 0) ∨ trimmed.length % 4 = 1))
    (.failed "invalid base64 length".toList)
  let maxDecoded ← lift (maxDecoded trimmed.length)
  require (maxDecoded ≤ maxSendDataBytes) (.failed sendDataExceeds)
  let buffer ← trimmed.foldlM wireTake ⟨[], [0, 0, 0, 0], 0⟩
  wireFinish buffer

/-- `decode_canonical_speculation_base64`. -/
def wireDecodeCanonicalSpeculationBase64 (value : List UInt8) (maxBytes : ℕ) :
    Checked Unit (List UInt8) := do
  require (¬(isAscii value = false ∨ value.length % 4 ≠ 0 ∨
    value.length > (maxBytes + 2) / 3 * 4)) (.failed ())
  let decoded ← (wireDecodeBase64 value).mapError fun
    | .panicked => .panicked
    | .failed _ => .failed ()
  let encoded ← wireEncodeBase64 decoded
  require (¬(decoded.length > maxBytes ∨ encoded ≠ value)) (.failed ())
  return decoded

/-! ### The decoder of the runner -/

/-- `decode_base64_digit`. -/
def runnerDecodeBase64Digit (byte : UInt8) : Checked RunnerProtocolError UInt8 := charValue .invalidArgv byte

/-- `bytes.chunks_exact(4)`. -/
def chunksExact : List UInt8 → List (List UInt8)
  | w :: x :: y :: z :: rest => [w, x, y, z] :: chunksExact rest
  | _ => []

/-- The third or the fourth digit of a chunk. -/
def runnerPadded (byte : UInt8) : Checked RunnerProtocolError (Option UInt8) :=
  if byte = padByte then return none else some <$> runnerDecodeBase64Digit byte

/-- The loop of `decode_canonical_base64`, from a chunk index on. -/
def runnerLoop (count : ℕ) : ℕ → List (List UInt8) → Checked RunnerProtocolError (List UInt8)
  | _, [] => return []
  | chunkIndex, chunk :: rest => do
    let last := chunkIndex + 1 = count
    let a ← runnerDecodeBase64Digit (← byteAt chunk 0)
    let b ← runnerDecodeBase64Digit (← byteAt chunk 1)
    let c ← runnerPadded (← byteAt chunk 2)
    let d ← runnerPadded (← byteAt chunk 3)
    require (¬((¬last ∧ (c = none ∨ d = none)) ∨ (c = none ∧ d ≠ none))) (.failed .invalidArgv)
    let group ← match c with
      | some c => do
        require (¬(d = none ∧ c &&& 0x03 ≠ 0)) (.failed .invalidArgv)
        pure (octet0 a b :: octet1 b c :: (d.map (octet2 c)).toList)
      | none => do
        require (b &&& 0x0f = 0) (.failed .invalidArgv)
        pure [octet0 a b]
    return group ++ (← runnerLoop count (chunkIndex + 1) rest)

/-- `decode_canonical_base64`. -/
def runnerDecodeCanonicalBase64 (value : List UInt8) : Checked RunnerProtocolError (List UInt8) := do
  require (¬(isAscii value = false ∨ value = [] ∨ value.length % 4 ≠ 0)) (.failed .invalidArgv)
  let decoded ← runnerLoop (value.length / 4) 0 (chunksExact value)
  let encoded ← runnerEncodeBase64 decoded
  require (encoded = value) (.failed .invalidArgv)
  return decoded

/-! ### Nothing panics -/

theorem lift_bind (x : Except E α) (f : α → Except E β) : lift (x >>= f) = lift x >>= fun a => lift (f a) := by
  cases x <;> rfl

theorem lift_pure (a : α) : lift (pure a : Except E α) = pure a := rfl

theorem lift_require (c : Prop) [Decidable c] (e : E) : lift (require c e) = require c (.failed e) := by
  unfold require
  split_ifs <;> rfl

theorem lift_eq_ok {x : Except E α} {a : α} : lift x = .ok a ↔ x = .ok a := by
  cases x <;> simp [lift, Except.mapError]

theorem lift_ne_panicked (x : Except E α) : lift x ≠ .error .panicked := by
  cases x <;> simp [lift, Except.mapError]

theorem byteAt_eq {bytes : List UInt8} {index : ℕ} (h : index < bytes.length) :
    byteAt bytes index = (.ok (bytes.getD index 0) : Checked E UInt8) := by
  rw [byteAt, List.getD, List.getElem?_eq_getElem h]
  rfl

theorem minus_eq {a b : ℕ} (h : b ≤ a) : minus a b = (.ok (a - b) : Checked E ℕ) := by
  rw [minus, require, if_pos h]
  rfl

theorem sliceTo_eq {value : List UInt8} (hascii : isAscii value = true) {stop : ℕ}
    (h : stop ≤ value.length) : sliceTo value stop = (.ok (value.take stop) : Checked E (List UInt8)) := by
  have hboundary : isCharBoundary value stop = true := by
    rw [isCharBoundary, Bool.or_eq_true, decide_eq_true_eq]
    rcases Nat.eq_or_lt_of_le h with heq | hlt
    · exact .inl heq
    · right
      have hbyte := List.all_eq_true.mp hascii _ (List.getElem_mem hlt)
      have hlow : value[stop] < 0x80 := of_decide_eq_true hbyte
      rw [List.getElem?_eq_getElem hlt]
      simp [hlow]
  rw [sliceTo, require, if_pos hboundary]
  rfl

theorem tables_eq : wireTable = table ∧ runnerTable = table := by
  decide

theorem length_table : table.length = 64 := by
  decide

theorem byteAt_table {index : UInt8} (h : index < 64) :
    byteAt table index.toNat = (.ok (digit index) : Checked E UInt8) := by
  have hlt : index.toNat < table.length := by
    rw [length_table]
    exact UInt8.lt_iff_toNat_lt.mp h
  exact byteAt_eq hlt

theorem ok_bind (a : α) (f : α → Checked E β) : ((.ok a : Checked E α) >>= f) = f a := rfl

theorem encodeChunk_one (first : UInt8) : encodeChunk table [first] =
    (.ok [digit (sextet0 first), digit (sextet1 first 0), padByte, padByte] : Checked E (List UInt8)) := by
  have hbyte : byteAt [first] 0 = (.ok first : Checked E UInt8) := rfl
  have hsecond : [first].getD 1 0 = 0 := rfl
  have hthird : [first].getD 2 0 = 0 := rfl
  simp only [encodeChunk, hbyte, hsecond, ok_bind, byteAt_table (sextet0_lt _), byteAt_table (sextet1_lt _ _)]
  rfl

theorem encodeChunk_two (first second : UInt8) : encodeChunk table [first, second] =
    (.ok [digit (sextet0 first), digit (sextet1 first second), digit (sextet2 second 0), padByte] :
      Checked E (List UInt8)) := by
  have hbyte : byteAt [first, second] 0 = (.ok first : Checked E UInt8) := rfl
  have hsecond : [first, second].getD 1 0 = second := rfl
  have hthird : [first, second].getD 2 0 = 0 := rfl
  have hlength : [first, second].length > 1 := Nat.one_lt_two
  simp only [encodeChunk, hbyte, hsecond, hthird, ok_bind, byteAt_table (sextet0_lt _),
    byteAt_table (sextet1_lt _ _), byteAt_table (sextet2_lt _ _), if_pos hlength]
  rfl

theorem encodeChunk_three (first second third : UInt8) : encodeChunk table [first, second, third] =
    (.ok [digit (sextet0 first), digit (sextet1 first second), digit (sextet2 second third),
      digit (sextet3 third)] : Checked E (List UInt8)) := by
  have hbyte : byteAt [first, second, third] 0 = (.ok first : Checked E UInt8) := rfl
  have hsecond : [first, second, third].getD 1 0 = second := rfl
  have hthird : [first, second, third].getD 2 0 = third := rfl
  have hone : [first, second, third].length > 1 := by simp
  have htwo : [first, second, third].length > 2 := by simp
  simp only [encodeChunk, hbyte, hsecond, hthird, ok_bind, byteAt_table (sextet0_lt _),
    byteAt_table (sextet1_lt _ _), byteAt_table (sextet2_lt _ _), byteAt_table (sextet3_lt _), if_pos hone,
    if_pos htwo]
  rfl

/-- The encoders encode. -/
theorem encodeWith_eq (data : List UInt8) :
    encodeWith table data = (.ok (encodeBase64 data) : Checked E (List UInt8)) := by
  have hchunks : ∃ parts, (chunks data).mapM (encodeChunk table) = (.ok parts : Checked E _) ∧
      parts.flatten = encodeBase64 data := by
    induction data using encodeBase64.induct with
    | case1 => exact ⟨[], rfl, rfl⟩
    | case2 first =>
      refine ⟨_, ?_, List.flatten_singleton⟩
      rw [chunks, List.mapM_cons, encodeChunk_one]
      rfl
    | case3 first second =>
      refine ⟨_, ?_, List.flatten_singleton⟩
      rw [chunks, List.mapM_cons, encodeChunk_two]
      rfl
    | case4 first second third rest ih =>
      obtain ⟨parts, hparts, hflat⟩ := ih
      refine ⟨[digit (sextet0 first), digit (sextet1 first second), digit (sextet2 second third),
        digit (sextet3 third)] :: parts, ?_, ?_⟩
      · rw [chunks, List.mapM_cons, encodeChunk_three, ok_bind, hparts]
        rfl
      · rw [List.flatten_cons, hflat]
        rfl
  obtain ⟨parts, hparts, hflat⟩ := hchunks
  rw [encodeWith, hparts, ok_bind, hflat]
  rfl

theorem wireEncodeBase64_eq (data : List UInt8) :
    wireEncodeBase64 data = (.ok (encodeBase64 data) : Checked E (List UInt8)) := by
  rw [wireEncodeBase64, tables_eq.1, encodeWith_eq]

theorem runnerEncodeBase64_eq (data : List UInt8) :
    runnerEncodeBase64 data = (.ok (encodeBase64 data) : Checked E (List UInt8)) := by
  rw [runnerEncodeBase64, tables_eq.2, encodeWith_eq]

/-! ### The decoders do what they did -/

theorem minusByte_eq {a b : UInt8} (h : b ≤ a) : minusByte a b = (.ok (a - b) : Checked E UInt8) := by
  rw [minusByte, require, if_pos h]
  rfl

theorem plusByte_eq {a b : UInt8} (h : a.toNat + b.toNat < 256) :
    plusByte a b = (.ok (a + b) : Checked E UInt8) := by
  rw [plusByte, require, if_pos h]
  rfl

theorem charValue_eq (error : E) (byte : UInt8) :
    charValue error byte = lift (expect (digitValue byte) error) := by
  unfold charValue digitValue
  split_ifs with hupper hlower hdigit hplus hslash
  · rw [minusByte_eq hupper.1]
    rfl
  · have hbounds := UInt8.le_iff_toNat_le.mp hlower.1
    have hsub := UInt8.toNat_sub_of_le _ _ hlower.1
    rw [minusByte_eq hlower.1, ok_bind, plusByte_eq (by rw [hsub]; have := byte.toNat_lt; simp; omega)]
    rfl
  · have hbounds := UInt8.le_iff_toNat_le.mp hdigit.2
    have hsub := UInt8.toNat_sub_of_le _ _ hdigit.1
    rw [minusByte_eq hdigit.1, ok_bind, plusByte_eq (by rw [hsub]; simp at hbounds ⊢; omega)]
    rfl
  · rfl
  · rfl
  · rfl

theorem wireDecodeChar_eq (byte : UInt8) : wireDecodeChar byte = lift (decodeChar byte) := charValue_eq _ byte

/-- A buffer holds the quartets: the digits that were taken stand at the front of the array. -/
structure Represents (buffer : Buffer) (state : Quartets) : Prop where
  out : buffer.out = state.out
  length : buffer.quartet.length = 4
  taken : buffer.quartetLen < 4
  front : buffer.quartet.take buffer.quartetLen = state.quartet

theorem wirePushDecodedQuartet_eq {out quartet : List UInt8} {bytes : ℕ} (h : quartet.length = 4) :
    wirePushDecodedQuartet out quartet bytes = lift (pushDecodedQuartet out quartet bytes) := by
  have hbyte (i : ℕ) (hi : i < 4) : byteAt quartet i = (.ok (quartet.getD i 0) : Checked Str UInt8) :=
    byteAt_eq (by omega)
  simp only [wirePushDecodedQuartet, pushDecodedQuartet, hbyte 0 (by omega), hbyte 1 (by omega),
    hbyte 2 (by omega), hbyte 3 (by omega), ok_bind, lift_bind, lift_require]
  congr 1
  funext _
  by_cases hone : bytes > 1
  · by_cases htwo : bytes > 2
    · simp only [if_pos hone, if_pos htwo]
      rfl
    · simp only [if_pos hone, if_neg htwo]
      rfl
  · have htwo : ¬bytes > 2 := by omega
    simp only [if_neg hone, if_neg htwo]
    rfl

/-- One digit: both stop with the same error, or go on alike. -/
theorem wireTake_eq {buffer : Buffer} {state : Quartets} (h : Represents buffer state) (byte : UInt8) :
    (∃ error, wireTake buffer byte = .error (.failed error) ∧ takeDigit state byte = .error error) ∨
      ∃ buffer' state', wireTake buffer byte = .ok buffer' ∧ takeDigit state byte = .ok state' ∧
        Represents buffer' state' := by
  unfold wireTake takeDigit
  rw [wireDecodeChar_eq]
  cases hvalue : decodeChar byte with
  | error error => exact .inl ⟨error, rfl, rfl⟩
  | ok value =>
    have htaken := h.taken
    have hin : buffer.quartetLen < buffer.quartet.length := by rw [h.length]; exact htaken
    have hset : setAt buffer.quartet buffer.quartetLen value =
        (.ok (buffer.quartet.set buffer.quartetLen value) : Checked Str (List UInt8)) := by
      rw [setAt, require, if_pos hin]
      rfl
    have hfront : (buffer.quartet.set buffer.quartetLen value).take (buffer.quartetLen + 1) =
        state.quartet ++ [value] := by
      rw [List.take_add_one, List.take_set_of_le (le_refl _), h.front, List.getElem?_set_self hin]
      rfl
    have hlength : (buffer.quartet.set buffer.quartetLen value).length = 4 := by
      rw [List.length_set, h.length]
    have hcount : (state.quartet ++ [value]).length = buffer.quartetLen + 1 := by
      rw [← hfront, List.length_take, hlength]
      omega
    have hlift : lift (.ok value : Except Str UInt8) = .ok value := rfl
    simp only [hlift, ok_bind, hset]
    by_cases hfull : buffer.quartetLen + 1 = 4
    · have hwhole : buffer.quartet.set buffer.quartetLen value = state.quartet ++ [value] := by
        rw [hfull] at hfront
        rw [← hfront, List.take_of_length_le (by rw [hlength])]
      have hfull' : (state.quartet ++ [value]).length = 4 := hcount.trans hfull
      have hlength' : (state.quartet ++ [value]).length = 4 := hfull'
      rw [if_pos hfull, wirePushDecodedQuartet_eq hlength, hwhole, h.out]
      cases hpush : pushDecodedQuartet state.out (state.quartet ++ [value]) 3 with
      | error error =>
        refine .inl ⟨error, rfl, ?_⟩
        change (if (state.quartet ++ [value]).length = 4 then _ else _) = _
        rw [if_pos hfull', hpush]
        rfl
      | ok out =>
        refine .inr ⟨_, { out, quartet := [] }, rfl, ?_, ⟨rfl, hlength', Nat.zero_lt_succ 3, rfl⟩⟩
        change (if (state.quartet ++ [value]).length = 4 then _ else _) = _
        rw [if_pos hfull', hpush]
        rfl
    · have hfull' : ¬(state.quartet ++ [value]).length = 4 := by
        rw [hcount]
        exact hfull
      have hmore : buffer.quartetLen + 1 < 4 := by omega
      rw [if_neg hfull]
      refine .inr ⟨_, { state with quartet := state.quartet ++ [value] }, rfl, ?_,
        ⟨h.out, hlength, hmore, hfront⟩⟩
      change (if (state.quartet ++ [value]).length = 4 then _ else _) = _
      rw [if_neg hfull']
      rfl

/-- The loop of the decoder, over all digits. -/
theorem foldlM_wireTake {buffer : Buffer} {state : Quartets} (h : Represents buffer state)
    (digits : List UInt8) :
    (∃ error, digits.foldlM wireTake buffer = .error (.failed error) ∧
        digits.foldlM takeDigit state = .error error) ∨
      ∃ buffer' state', digits.foldlM wireTake buffer = .ok buffer' ∧
        digits.foldlM takeDigit state = .ok state' ∧ Represents buffer' state' := by
  induction digits generalizing buffer state with
  | nil => exact .inr ⟨buffer, state, rfl, rfl, h⟩
  | cons byte digits ih =>
    rw [List.foldlM_cons, List.foldlM_cons]
    rcases wireTake_eq h byte with ⟨error, hwire, htake⟩ | ⟨buffer', state', hwire, htake, h'⟩
    · rw [hwire, htake]
      exact .inl ⟨error, rfl, rfl⟩
    · rw [hwire, htake]
      exact ih h'

theorem wireFinish_eq {buffer : Buffer} {state : Quartets} (h : Represents buffer state) :
    wireFinish buffer = lift (finishQuartets state) := by
  obtain ⟨out, quartet, quartetLen⟩ := buffer
  obtain ⟨out', front⟩ := state
  obtain ⟨rfl, hlength, htaken, hfront⟩ := h
  obtain ⟨a, b, c, d, rfl⟩ : ∃ a b c d, quartet = [a, b, c, d] := by
    match quartet, hlength with
    | [a, b, c, d], _ => exact ⟨a, b, c, d, rfl⟩
  have hpush (bytes : ℕ) := @wirePushDecodedQuartet_eq out _ bytes hlength
  have hsecond : byteAt [a, b, c, d] 1 = (.ok b : Checked Str UInt8) := rfl
  have hthird : byteAt [a, b, c, d] 2 = (.ok c : Checked Str UInt8) := rfl
  obtain rfl | rfl | rfl | rfl : quartetLen = 0 ∨ quartetLen = 1 ∨ quartetLen = 2 ∨ quartetLen = 3 := by
    have hlt : quartetLen < 4 := htaken
    omega
  · obtain rfl : [] = front := hfront
    rfl
  · obtain rfl : [a] = front := hfront
    rfl
  · obtain rfl : [a, b] = front := hfront
    simp only [wireFinish, finishQuartets, hsecond, ok_bind, lift_bind, lift_require, hpush]
    rfl
  · obtain rfl : [a, b, c] = front := hfront
    simp only [wireFinish, finishQuartets, hthird, ok_bind, lift_bind, lift_require, hpush]
    rfl

/-- `decode_base64` does what it did, and does not panic. -/
theorem wireDecodeBase64_eq (value : List UInt8) : wireDecodeBase64 value = lift (decodeBase64 value) := by
  unfold wireDecodeBase64 decodeBase64
  by_cases hascii : isAscii value = true
  · have hle : (value.rdropWhile (· = padByte)).length ≤ value.length :=
      (List.rdropWhile_prefix _ value).length_le
    have hstart : Represents ⟨[], [0, 0, 0, 0], 0⟩ { out := [], quartet := [] } :=
      ⟨rfl, rfl, Nat.zero_lt_succ 3, rfl⟩
    have hloop : ((value.rdropWhile (· = padByte)).foldlM wireTake ⟨[], [0, 0, 0, 0], 0⟩ >>= wireFinish) =
        lift ((value.rdropWhile (· = padByte)).foldlM takeDigit { out := [], quartet := [] } >>=
          finishQuartets) := by
      rcases foldlM_wireTake hstart (value.rdropWhile (· = padByte)) with
        ⟨error, hwire, htake⟩ | ⟨buffer, state, hwire, htake, h⟩
      · rw [hwire, htake]
        rfl
      · rw [hwire, htake, ok_bind, wireFinish_eq h]
        rfl
    simp only [minus_eq hle, sliceTo_eq hascii hle, ok_bind, lift_bind, lift_require] at hloop ⊢
    rw [hloop]
  · simp only [require, if_neg hascii]
    rfl

theorem wireDecodeCanonicalSpeculationBase64_eq (value : List UInt8) (maxBytes : ℕ) :
    wireDecodeCanonicalSpeculationBase64 value maxBytes =
      lift (decodeCanonicalSpeculationBase64 value maxBytes) := by
  have hforget (x : Except Str (List UInt8)) : ((lift x).mapError fun
      | .panicked => .panicked
      | .failed _ => .failed () : Checked Unit (List UInt8)) = lift (x.mapError fun _ => ()) := by
    cases x <;> rfl
  simp only [wireDecodeCanonicalSpeculationBase64, decodeCanonicalSpeculationBase64, wireDecodeBase64_eq,
    hforget, wireEncodeBase64_eq, ok_bind, lift_bind, lift_require, lift_pure]

theorem runnerDecodeBase64Digit_eq (byte : UInt8) :
    runnerDecodeBase64Digit byte = lift (decodeBase64Digit byte) := charValue_eq _ byte

theorem runnerPadded_eq (byte : UInt8) : runnerPadded byte = lift (decodePadded byte) := by
  unfold runnerPadded decodePadded
  rw [runnerDecodeBase64Digit_eq]
  split_ifs
  · rfl
  · cases decodeBase64Digit byte <;> rfl

theorem runnerLoop_eq (count : ℕ) (value : List UInt8) (chunkIndex : ℕ)
    (h : chunkIndex + value.length / 4 = count) :
    runnerLoop count chunkIndex (chunksExact value) = lift (decodeGroups value) := by
  induction value using decodeGroups.induct generalizing chunkIndex with
  | case1 w x y z rest ih =>
    have hlength : (w :: x :: y :: z :: rest).length = rest.length + 4 := rfl
    have hlast : (chunkIndex + 1 = count) = (rest.length < 4) := by
      rw [hlength] at h
      refine propext ⟨fun heq => ?_, fun hlt => ?_⟩
      · omega
      · omega
    have hnext : chunkIndex + 1 + rest.length / 4 = count := by omega
    have hw : byteAt [w, x, y, z] 0 = (.ok w : Checked RunnerProtocolError UInt8) := rfl
    have hx : byteAt [w, x, y, z] 1 = (.ok x : Checked RunnerProtocolError UInt8) := rfl
    have hy : byteAt [w, x, y, z] 2 = (.ok y : Checked RunnerProtocolError UInt8) := rfl
    have hz : byteAt [w, x, y, z] 3 = (.ok z : Checked RunnerProtocolError UInt8) := rfl
    simp only [chunksExact, runnerLoop, decodeGroups, hw, hx, hy, hz, ok_bind, runnerDecodeBase64Digit_eq,
      runnerPadded_eq, lift_bind, lift_require, ih _ hnext, hlast]
    refine bind_congr fun a => bind_congr fun b => bind_congr fun c => bind_congr fun d =>
      bind_congr fun _ => ?_
    cases c with
    | none => simp only [lift_bind, lift_require, lift_pure]
    | some c => simp only [lift_bind, lift_require, lift_pure]
  | case2 value hshort =>
    have hchunks : chunksExact value = [] := by
      unfold chunksExact
      split
      · next w x y z rest => exact (hshort w x y z rest rfl).elim
      · rfl
    have hgroups : decodeGroups value = .ok [] := by
      unfold decodeGroups
      split
      · next w x y z rest => exact (hshort w x y z rest rfl).elim
      · rfl
    rw [hchunks, hgroups, runnerLoop]
    rfl

theorem runnerDecodeCanonicalBase64_eq (value : List UInt8) :
    runnerDecodeCanonicalBase64 value = lift (decodeCanonicalBase64 value) := by
  have hloop := runnerLoop_eq (value.length / 4) value 0 (Nat.zero_add _)
  simp only [runnerDecodeCanonicalBase64, decodeCanonicalBase64, hloop, runnerEncodeBase64_eq, ok_bind,
    lift_bind, lift_require, lift_pure]

/-! ### The decoder of the wire accepts encodings only -/

set_option maxRecDepth 4000 in
theorem digit_of_value {byte value : UInt8} (h : digitValue byte = some value) :
    value < 64 ∧ byte = digit value := by
  have hall : ∀ byte : UInt8,
      (digitValue byte).all (fun value => decide (value < 64 ∧ byte = digit value)) = true :=
    Utf8.of_each_byte (by decide)
  have hvalue := (Option.all_eq_true _ _).mp (hall byte) value h
  exact of_decide_eq_true hvalue

theorem digit_of_char {byte value : UInt8} (h : decodeChar byte = .ok value) :
    value < 64 ∧ byte = digit value := digit_of_value (expect_eq_ok.mp h)

set_option maxRecDepth 4000 in
/-- The two high bits of an index are clear. -/
theorem high_bits {x : UInt8} (h : x < 64) : x.toBitVec[6] = false ∧ x.toBitVec[7] = false := by
  have hall : ∀ x : UInt8, x < 64 → x.toBitVec[6] = false ∧ x.toBitVec[7] = false :=
    Utf8.of_each_byte (by decide)
  exact hall x h

theorem sextet0_octets {a b : UInt8} (ha : a < 64) (hb : b < 64) : sextet0 (octet0 a b) = a := by
  obtain ⟨ha6, ha7⟩ := high_bits ha
  obtain ⟨hb6, hb7⟩ := high_bits hb
  refine eq_of_bits fun i hi => ?_
  interval_cases i <;> simp [octet0, sextet0, ha6, ha7, hb6, hb7]

theorem sextet1_octets {a b c : UInt8} (hb : b < 64) (hc : c < 64) :
    sextet1 (octet0 a b) (octet1 b c) = b := by
  obtain ⟨hb6, hb7⟩ := high_bits hb
  obtain ⟨hc6, hc7⟩ := high_bits hc
  refine eq_of_bits fun i hi => ?_
  interval_cases i <;> simp [octet0, octet1, sextet1, hb6, hb7, hc6, hc7]

theorem sextet2_octets {b c d : UInt8} (hc : c < 64) (hd : d < 64) :
    sextet2 (octet1 b c) (octet2 c d) = c := by
  obtain ⟨hc6, hc7⟩ := high_bits hc
  obtain ⟨hd6, hd7⟩ := high_bits hd
  refine eq_of_bits fun i hi => ?_
  interval_cases i <;> simp [octet1, octet2, sextet2, hc6, hc7, hd6, hd7]

theorem sextet3_octets {c d : UInt8} (hd : d < 64) : sextet3 (octet2 c d) = d := by
  obtain ⟨hd6, hd7⟩ := high_bits hd
  refine eq_of_bits fun i hi => ?_
  interval_cases i <;> simp [octet2, sextet3, hd6, hd7]

set_option maxRecDepth 4000 in
/-- A digit whose tail bits are clear is the last one of a byte. -/
theorem sextet1_octet_tail {a b : UInt8} (hb : b < 64) (htail : b &&& 0x0f = 0) :
    sextet1 (octet0 a b) 0 = b := by
  have hall : ∀ b : UInt8, b &&& 0x0f = 0 → b.toBitVec[0] = false ∧ b.toBitVec[1] = false ∧
      b.toBitVec[2] = false ∧ b.toBitVec[3] = false := Utf8.of_each_byte (by decide)
  obtain ⟨hb0, hb1, hb2, hb3⟩ := hall b htail
  obtain ⟨hb6, hb7⟩ := high_bits hb
  refine eq_of_bits fun i hi => ?_
  interval_cases i <;> simp [octet0, sextet1, hb0, hb1, hb2, hb3, hb6, hb7]

set_option maxRecDepth 4000 in
theorem sextet2_octet_tail {b c : UInt8} (hc : c < 64) (htail : c &&& 0x03 = 0) :
    sextet2 (octet1 b c) 0 = c := by
  have hall : ∀ c : UInt8, c &&& 0x03 = 0 → c.toBitVec[0] = false ∧ c.toBitVec[1] = false :=
    Utf8.of_each_byte (by decide)
  obtain ⟨hc0, hc1⟩ := hall c htail
  obtain ⟨hc6, hc7⟩ := high_bits hc
  refine eq_of_bits fun i hi => ?_
  interval_cases i <;> simp [octet1, sextet2, hc0, hc1, hc6, hc7]

theorem takeDigit_eq_ok {out quartet : List UInt8} {byte : UInt8} {state : Quartets}
    (h : takeDigit { out, quartet } byte = .ok state) :
    ∃ value, value < 64 ∧ byte = digit value ∧
      ((quartet.length + 1 ≠ 4 ∧ state = { out, quartet := quartet ++ [value] }) ∨
        quartet.length + 1 = 4 ∧ ∃ more, pushDecodedQuartet out (quartet ++ [value]) 3 = .ok more ∧
          state = { out := more, quartet := [] }) := by
  unfold takeDigit at h
  obtain ⟨value, hvalue, h⟩ := bind_eq_ok.mp h
  obtain ⟨hlt, hdigit⟩ := digit_of_char hvalue
  refine ⟨value, hlt, hdigit, ?_⟩
  have hlength : (quartet ++ [value]).length = quartet.length + 1 := List.length_append
  simp only [hlength] at h
  by_cases hfull : quartet.length + 1 = 4
  · rw [if_pos hfull] at h
    obtain ⟨more, hmore, h⟩ := bind_eq_ok.mp h
    exact .inr ⟨hfull, more, hmore, (pure_eq_ok.mp h).symm⟩
  · rw [if_neg hfull] at h
    exact .inl ⟨hfull, (pure_eq_ok.mp h).symm⟩

theorem pushDecodedQuartet_eq_ok {out quartet more : List UInt8} {bytes : ℕ}
    (h : pushDecodedQuartet out quartet bytes = .ok more) :
    more = out ++ [octet0 (quartet.getD 0 0) (quartet.getD 1 0)] ++
      (if bytes > 1 then [octet1 (quartet.getD 1 0) (quartet.getD 2 0)] else []) ++
        if bytes > 2 then [octet2 (quartet.getD 2 0) (quartet.getD 3 0)] else [] := by
  unfold pushDecodedQuartet at h
  obtain ⟨-, -, h⟩ := bind_eq_ok.mp h
  exact (pure_eq_ok.mp h).symm

/-- A digit that is not the last of its quartet. -/
theorem fold_digit {out quartet decoded rest : List UInt8} {byte : UInt8} (hfew : quartet.length < 3)
    (h : ((byte :: rest).foldlM takeDigit { out, quartet } >>= finishQuartets) = .ok decoded) :
    ∃ value, value < 64 ∧ byte = digit value ∧
      (rest.foldlM takeDigit { out, quartet := quartet ++ [value] } >>= finishQuartets) = .ok decoded := by
  rw [List.foldlM_cons, bind_assoc] at h
  obtain ⟨state, hstate, h⟩ := bind_eq_ok.mp h
  obtain ⟨value, hlt, hdigit, ⟨-, rfl⟩ | ⟨hfull, -⟩⟩ := takeDigit_eq_ok hstate
  · exact ⟨value, hlt, hdigit, h⟩
  · omega

/-- The last digit of a quartet. -/
theorem fold_quartet {out quartet decoded rest : List UInt8} {byte : UInt8} (hfull : quartet.length = 3)
    (h : ((byte :: rest).foldlM takeDigit { out, quartet } >>= finishQuartets) = .ok decoded) :
    ∃ value more, value < 64 ∧ byte = digit value ∧
      pushDecodedQuartet out (quartet ++ [value]) 3 = .ok more ∧
      (rest.foldlM takeDigit { out := more, quartet := [] } >>= finishQuartets) = .ok decoded := by
  rw [List.foldlM_cons, bind_assoc] at h
  obtain ⟨state, hstate, h⟩ := bind_eq_ok.mp h
  obtain ⟨value, hlt, hdigit, ⟨hfew, -⟩ | ⟨-, more, hmore, rfl⟩⟩ := takeDigit_eq_ok hstate
  · omega
  · exact ⟨value, more, hlt, hdigit, hmore, h⟩

/-- The digits that the loop and its end accept are the digits of the bytes that come out. -/
theorem decodeQuartets_sound (out : List UInt8) {value decoded : List UInt8}
    (h : (value.foldlM takeDigit { out, quartet := [] } >>= finishQuartets) = .ok decoded) :
    ∃ data, decoded = out ++ data ∧ value = digits data := by
  match value with
  | [] =>
    refine ⟨[], ?_, rfl⟩
    rw [List.append_nil]
    exact (pure_eq_ok.mp h).symm
  | [w] =>
    obtain ⟨a, -, -, hx⟩ := fold_digit (by decide) h
    cases hx
  | [w, x] =>
    obtain ⟨a, ha, rfl, hx⟩ := fold_digit (by decide) h
    obtain ⟨b, hb, rfl, hy⟩ := fold_digit (by simp) hx
    have hfinish : finishQuartets { out, quartet := [a, b] } = .ok decoded := hy
    obtain ⟨_, htail, hend⟩ := bind_eq_ok.mp hfinish
    have hdecoded := pushDecodedQuartet_eq_ok hend
    refine ⟨[octet0 a b], by simpa using hdecoded, ?_⟩
    rw [digits, sextet0_octets ha hb, sextet1_octet_tail hb (require_eq_ok.mp htail)]
  | [w, x, y] =>
    obtain ⟨a, ha, rfl, hx⟩ := fold_digit (by decide) h
    obtain ⟨b, hb, rfl, hy⟩ := fold_digit (by simp) hx
    obtain ⟨c, hc, rfl, hz⟩ := fold_digit (by simp) hy
    have hfinish : finishQuartets { out, quartet := [a, b, c] } = .ok decoded := hz
    obtain ⟨_, htail, hend⟩ := bind_eq_ok.mp hfinish
    have hdecoded := pushDecodedQuartet_eq_ok hend
    refine ⟨[octet0 a b, octet1 b c], by simpa using hdecoded, ?_⟩
    rw [digits, sextet0_octets ha hb, sextet1_octets hb hc, sextet2_octet_tail hc (require_eq_ok.mp htail)]
  | w :: x :: y :: z :: rest =>
    obtain ⟨a, ha, rfl, hx⟩ := fold_digit (by decide) h
    obtain ⟨b, hb, rfl, hy⟩ := fold_digit (by simp) hx
    obtain ⟨c, hc, rfl, hz⟩ := fold_digit (by simp) hy
    obtain ⟨d, more, hd, rfl, hmore, hrest⟩ := fold_quartet rfl hz
    obtain ⟨data, rfl, rfl⟩ := decodeQuartets_sound more hrest
    have hpushed := pushDecodedQuartet_eq_ok hmore
    refine ⟨octet0 a b :: octet1 b c :: octet2 c d :: data, by simp [hpushed], ?_⟩
    rw [digits, sextet0_octets ha hb, sextet1_octets hb hc, sextet2_octets hc hd, sextet3_octets hd]

/-- A text is its digits and its padding. -/
theorem exists_padding (value : List UInt8) :
    ∃ n, value = value.rdropWhile (· = padByte) ++ List.replicate n padByte := by
  induction value using List.reverseRecOn with
  | nil => exact ⟨0, rfl⟩
  | append_singleton value byte ih =>
    by_cases hpad : byte = padByte
    · obtain ⟨n, hn⟩ := ih
      refine ⟨n + 1, ?_⟩
      rw [List.rdropWhile_concat_pos _ _ _ (by simpa using hpad), List.replicate_succ', ← List.append_assoc,
        ← hn, hpad]
    · refine ⟨0, ?_⟩
      rw [List.rdropWhile_concat_neg _ _ _ (by simpa using hpad)]
      simp

/-- What the wire decodes is an encoding, with all of its padding or without. -/
theorem decodeBase64_sound {value data : List UInt8} (h : decodeBase64 value = .ok data) :
    value = encodeBase64 data ∨ value = (encodeBase64 data).rdropWhile (· = padByte) := by
  simp only [decodeBase64, bind_eq_ok, require_eq_ok, exists_unit] at h
  obtain ⟨-, -, hshape, -, -, -, hrun⟩ := h
  obtain ⟨decoded, hdecoded, hdigits⟩ := decodeQuartets_sound [] (bind_eq_ok.mpr hrun)
  rw [List.nil_append] at hdecoded
  subst hdecoded
  obtain ⟨n, hn⟩ := exists_padding value
  rw [hdigits] at hn hshape
  rw [trimmed_encode, encodeBase64_eq_digits]
  have hlength := length_digits data
  have htotal : value.length = (digits data).length + n := by
    rw [hn, List.length_append, List.length_replicate]
  by_cases hnone : n = 0
  · subst hnone
    right
    rw [hn]
    exact List.append_nil _
  · left
    have hfull : n = (3 - data.length % 3) % 3 := by
      obtain hmod | hmod | hmod : data.length % 3 = 0 ∨ data.length % 3 = 1 ∨ data.length % 3 = 2 := by omega
      all_goals omega
    rw [hn, hfull]

/-! ### Both codecs -/

/-- **The codecs are inverse and strict.** Both encoders write the same text. The wire decodes what was
encoded, if it is not too long, and what it decodes is an encoding with all of its padding or without; its
canonical decoder and that of the runner accept the encodings, of not too many bytes the one, of some the
other, and nothing else. None of them panics. -/
theorem codecs_inverse :
    (∀ data, wireEncodeBase64 data = (.ok (encodeBase64 data) : Checked Str (List UInt8)) ∧
      runnerEncodeBase64 data = (.ok (encodeBase64 data) : Checked RunnerProtocolError (List UInt8))) ∧
    (∀ data, data.length ≤ maxSendDataBytes → wireDecodeBase64 (encodeBase64 data) = .ok data) ∧
    (∀ value data, wireDecodeBase64 value = .ok data →
      value = encodeBase64 data ∨ value = (encodeBase64 data).rdropWhile (· = padByte)) ∧
    (∀ value data maxBytes, maxBytes ≤ maxSendDataBytes →
      (wireDecodeCanonicalSpeculationBase64 value maxBytes = .ok data ↔
        value = encodeBase64 data ∧ data.length ≤ maxBytes)) ∧
    (∀ value data, runnerDecodeCanonicalBase64 value = .ok data ↔ data ≠ [] ∧ value = encodeBase64 data) ∧
    ∀ value maxBytes, wireDecodeBase64 value ≠ .error .panicked ∧
      wireDecodeCanonicalSpeculationBase64 value maxBytes ≠ .error .panicked ∧
      runnerDecodeCanonicalBase64 value ≠ .error .panicked := by
  simp only [wireDecodeBase64_eq, wireDecodeCanonicalSpeculationBase64_eq, runnerDecodeCanonicalBase64_eq,
    lift_eq_ok]
  refine ⟨fun data => ⟨wireEncodeBase64_eq data, runnerEncodeBase64_eq data⟩,
    fun data h => decodeBase64_encode h, fun value data h => decodeBase64_sound h,
    fun value data maxBytes h => decodeCanonicalSpeculationBase64_eq_ok h, fun value data => ⟨fun h => ?_, ?_⟩,
    fun value maxBytes => ⟨lift_ne_panicked _, lift_ne_panicked _, lift_ne_panicked _⟩⟩
  · simp only [decodeCanonicalBase64, bind_eq_ok, require_eq_ok, exists_unit, pure_eq_ok] at h
    obtain ⟨hshape, decoded, -, hencoded, rfl⟩ := h
    refine ⟨?_, hencoded.symm⟩
    rintro rfl
    exact hshape (.inr (.inl hencoded.symm))
  · rintro ⟨hsome, rfl⟩
    exact decodeCanonicalBase64_encode hsome

end LightTerminal.Speculation.Codecs
