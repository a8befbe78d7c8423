import LightTerminal.Speculation.Control
import Mathlib.Data.List.DropRight

/-! # The two base64 codecs

The wire (`send_data_serde` of `protocol.rs`) and the runner (`speculation_runner.rs`) have a base64
codec each. The two encoders do the same; the decoders do not: that of the runner goes by groups of
four digits, that of the wire cuts the padding off and collects digits in a quartet.

* `decodeCanonicalBase64_encode`: the runner reads back what was encoded, if that was not empty.
* `decodeCanonicalSpeculationBase64_eq_ok`: the canonical decoder of the wire accepts the encodings
  of at most `maxBytes` bytes, and nothing else. -/

namespace LightTerminal.Speculation.Base64

open LightTerminal.Data.Text LightTerminal.Library LightTerminal.Library.Procedure
open LightTerminal.Speculation.Control

/-! ### Digits -/

/-- `TABLE` and `BASE64`. -/
def table : List UInt8 :=
  bytesOf "ABCDEFGHIJKLMNOPQRSTUVWXYZ" ++ bytesOf "abcdefghijklmnopqrstuvwxyz" ++
    bytesOf "0123456789+/"

/-- The entry of the table at an index. -/
def digit (index : UInt8) : UInt8 := table.getD index.toNat 0

/-- The byte of `'='`. -/
def padByte : UInt8 := 0x3d

/-- `decode_base64_digit` and `decode_char`, which differ in their errors. -/
def digitValue (byte : UInt8) : Option UInt8 :=
  if 0x41 ≤ byte ∧ byte ≤ 0x5a then some (byte - 0x41)
  else if 0x61 ≤ byte ∧ byte ≤ 0x7a then some (byte - 0x61 + 26)
  else if 0x30 ≤ byte ∧ byte ≤ 0x39 then some (byte - 0x30 + 52)
  else if byte = 0x2b then some 62
  else if byte = 0x2f then some 63
  else none

/-- `decode_base64_digit`. -/
def decodeBase64Digit (byte : UInt8) : RunnerResult UInt8 := expect (digitValue byte) .invalidArgv

set_option maxRecDepth 4000 in
/-- What a digit of the table is: not a padding byte, in ASCII, and read back by the decoders. -/
theorem digit_facts {index : UInt8} (h : index < 64) :
    digitValue (digit index) = some index ∧ digit index ≠ padByte ∧ digit index < 128 := by
  have hall : ∀ n < 256, UInt8.ofNat n < 64 → digitValue (digit (UInt8.ofNat n)) =
      some (UInt8.ofNat n) ∧ digit (UInt8.ofNat n) ≠ padByte ∧ digit (UInt8.ofNat n) < 128 := by
    decide
  exact Utf8.of_each_byte (p := fun index => index < 64 → digitValue (digit index) = some index ∧
    digit index ≠ padByte ∧ digit index < 128) hall index h

theorem digitValue_digit {index : UInt8} (h : index < 64) : digitValue (digit index) = some index :=
  (digit_facts h).1

theorem digit_ne_pad {index : UInt8} (h : index < 64) : digit index ≠ padByte := (digit_facts h).2.1

/-! ### Three bytes as four digits -/

/-- The four six-bit indices of three bytes. -/
def sextet0 (first : UInt8) : UInt8 := first >>> 2

def sextet1 (first second : UInt8) : UInt8 := (first &&& 0x03) <<< 4 ||| second >>> 4

def sextet2 (second third : UInt8) : UInt8 := (second &&& 0x0f) <<< 2 ||| third >>> 6

def sextet3 (third : UInt8) : UInt8 := third &&& 0x3f

/-- The three bytes of four indices. -/
def octet0 (a b : UInt8) : UInt8 := a <<< 2 ||| b >>> 4

def octet1 (b c : UInt8) : UInt8 := b <<< 4 ||| c >>> 2

def octet2 (c d : UInt8) : UInt8 := c <<< 6 ||| d

/-- Bytes with the same bits are equal. -/
theorem eq_of_bits {x y : UInt8} (h : ∀ i < 8, x.toBitVec.getLsbD i = y.toBitVec.getLsbD i) :
    x = y :=
  UInt8.toBitVec_inj.mp (BitVec.eq_of_getLsbD_eq fun i hi => h i hi)

set_option maxRecDepth 4000 in
/-- A byte without its two high bits is an index of the table. -/
theorem lt_of_masked {x : UInt8} (h : x &&& 0x3f = x) : x < 64 := by
  have hall : ∀ n < 256, UInt8.ofNat n &&& 0x3f < 64 := by decide
  rw [← h]
  exact Utf8.of_each_byte (p := fun x => x &&& 0x3f < 64) hall x

theorem sextet0_lt (first : UInt8) : sextet0 first < 64 := by
  refine lt_of_masked (eq_of_bits fun i hi => ?_)
  interval_cases i <;> simp [sextet0]

theorem sextet1_lt (first second : UInt8) : sextet1 first second < 64 := by
  refine lt_of_masked (eq_of_bits fun i hi => ?_)
  interval_cases i <;> simp [sextet1]

theorem sextet2_lt (second third : UInt8) : sextet2 second third < 64 := by
  refine lt_of_masked (eq_of_bits fun i hi => ?_)
  interval_cases i <;> simp [sextet2]

theorem sextet3_lt (third : UInt8) : sextet3 third < 64 := by
  refine lt_of_masked (eq_of_bits fun i hi => ?_)
  interval_cases i <;> simp [sextet3]

theorem octet0_sextets (first second : UInt8) :
    octet0 (sextet0 first) (sextet1 first second) = first := by
  refine eq_of_bits fun i hi => ?_
  interval_cases i <;> simp [octet0, sextet0, sextet1]

theorem octet1_sextets (first second third : UInt8) :
    octet1 (sextet1 first second) (sextet2 second third) = second := by
  refine eq_of_bits fun i hi => ?_
  interval_cases i <;> simp [octet1, sextet1, sextet2]

theorem octet2_sextets (second third : UInt8) :
    octet2 (sextet2 second third) (sextet3 third) = third := by
  refine eq_of_bits fun i hi => ?_
  interval_cases i <;> simp [octet2, sextet2, sextet3]

theorem sextet1_tail (first : UInt8) : sextet1 first 0 &&& 0x0f = 0 := by
  refine eq_of_bits fun i hi => ?_
  interval_cases i <;> simp [sextet1]

theorem sextet2_tail (second : UInt8) : sextet2 second 0 &&& 0x03 = 0 := by
  refine eq_of_bits fun i hi => ?_
  interval_cases i <;> simp [sextet2]

/-! ### The encoder -/

/-- `encode_base64`, of the runner and of `send_data_serde`. -/
def encodeBase64 : List UInt8 → List UInt8
  | [] => []
  | [first] => [digit (sextet0 first), digit (sextet1 first 0), padByte, padByte]
  | [first, second] =>
    [digit (sextet0 first), digit (sextet1 first second), digit (sextet2 second 0), padByte]
  | first :: second :: third :: rest =>
    digit (sextet0 first) :: digit (sextet1 first second) :: digit (sextet2 second third) ::
      digit (sextet3 third) :: encodeBase64 rest

/-- The length of an encoding: four digits for each three bytes, the last group of which may not be
full. -/
theorem length_encodeBase64 (data : List UInt8) :
    (encodeBase64 data).length = (data.length + 2) / 3 * 4 := by
  induction data using encodeBase64.induct with
  | case1 => rfl
  | case2 first => simp [encodeBase64]
  | case3 first second => simp [encodeBase64]
  | case4 first second third rest ih =>
    simp only [encodeBase64, List.length_cons, ih]
    omega

/-- The text of an encoding is ASCII. -/
theorem encodeBase64_ascii (data : List UInt8) : ∀ byte ∈ encodeBase64 data, byte < 128 := by
  have hd {index : UInt8} (h : index < 64) : digit index < 128 := (digit_facts h).2.2
  have hpad : padByte < 128 := by decide
  induction data using encodeBase64.induct with
  | case1 => simp [encodeBase64]
  | case2 first => simp [encodeBase64, hd, sextet0_lt, sextet1_lt, hpad]
  | case3 first second => simp [encodeBase64, hd, sextet0_lt, sextet1_lt, sextet2_lt, hpad]
  | case4 first second third rest ih =>
    simp [encodeBase64, hd, sextet0_lt, sextet1_lt, sextet2_lt, sextet3_lt]
    exact ih

/-! ### The decoder of the runner -/

/-- `str::is_ascii`. -/
def isAscii (value : List UInt8) : Bool := value.all (· < 128)

theorem isAscii_encode (data : List UInt8) : isAscii (encodeBase64 data) = true := by
  simpa [isAscii] using encodeBase64_ascii data

/-- The third or the fourth digit of a group, which may be padding. -/
def decodePadded (byte : UInt8) : RunnerResult (Option UInt8) :=
  if byte = padByte then return none else some <$> decodeBase64Digit byte

/-- The loop of `decode_canonical_base64`. -/
def decodeGroups : List UInt8 → RunnerResult (List UInt8)
  | w :: x :: y :: z :: rest => do
    let last := rest.length < 4
    let a ← decodeBase64Digit w
    let b ← decodeBase64Digit x
    let c ← decodePadded y
    let d ← decodePadded z
    require (¬((¬last ∧ (c = none ∨ d = none)) ∨ (c = none ∧ d ≠ none))) .invalidArgv
    let group ← match c with
      | some c => do
        require (¬(d = none ∧ c &&& 0x03 ≠ 0)) .invalidArgv
        pure (octet0 a b :: octet1 b c :: (d.map (octet2 c)).toList)
      | none => do
        require (b &&& 0x0f = 0) .invalidArgv
        pure [octet0 a b]
    return group ++ (← decodeGroups rest)
  | _ => return []

/-- `decode_canonical_base64`. -/
def decodeCanonicalBase64 (value : List UInt8) : RunnerResult (List UInt8) := do
  require (¬(isAscii value = false ∨ value = [] ∨ value.length % 4 ≠ 0)) .invalidArgv
  let decoded ← decodeGroups value
  require (encodeBase64 decoded = value) .invalidArgv
  return decoded

theorem decodeBase64Digit_digit {index : UInt8} (h : index < 64) :
    decodeBase64Digit (digit index) = .ok index := by
  simp [decodeBase64Digit, digitValue_digit h]

theorem decodePadded_digit {index : UInt8} (h : index < 64) :
    decodePadded (digit index) = .ok (some index) := by
  simp [decodePadded, digit_ne_pad h, decodeBase64Digit_digit h]

theorem decodePadded_pad : decodePadded padByte = .ok none := by
  simp [decodePadded, pure, Except.pure]

theorem decodeGroups_encode (data : List UInt8) :
    decodeGroups (encodeBase64 data) = .ok data := by
  induction data using encodeBase64.induct with
  | case1 => rfl
  | case2 first =>
    simp [encodeBase64, decodeGroups, decodeBase64Digit_digit, decodePadded_pad, sextet0_lt,
      sextet1_lt, sextet1_tail, octet0_sextets, map_eq_ok]
  | case3 first second =>
    simp [encodeBase64, decodeGroups, decodeBase64Digit_digit, decodePadded_digit,
      decodePadded_pad, sextet0_lt, sextet1_lt, sextet2_lt, sextet2_tail, octet0_sextets,
      octet1_sextets, map_eq_ok]
  | case4 first second third rest ih =>
    simp [encodeBase64, decodeGroups, decodeBase64Digit_digit, decodePadded_digit, sextet0_lt,
      sextet1_lt, sextet2_lt, sextet3_lt, octet0_sextets, octet1_sextets, octet2_sextets, ih]

/-- **The runner reads back what was encoded**, unless it is empty. -/
theorem decodeCanonicalBase64_encode {data : List UInt8} (h : data ≠ []) :
    decodeCanonicalBase64 (encodeBase64 data) = .ok data := by
  have hlen := length_encodeBase64 data
  have hpos : 0 < data.length := List.length_pos_iff.mpr h
  have hne : encodeBase64 data ≠ [] := by
    rw [← List.length_pos_iff]
    omega
  have hmod : (encodeBase64 data).length % 4 = 0 := by omega
  simp [decodeCanonicalBase64, isAscii_encode, hne, hmod, decodeGroups_encode, map_eq_ok]

/-! ### The decoder of the wire -/

/-- `MAX_SEND_DATA_BYTES`. -/
def maxSendDataBytes : ℕ := 700 * 1024

/-- The text of the errors about a text that is too long. -/
def sendDataExceeds : Str := "send data exceeds 716800 bytes".toList

/-- `decode_char`. -/
def decodeChar (byte : UInt8) : Except Str UInt8 :=
  expect (digitValue byte) ("invalid base64 character 0x".toList ++ hexDigits 2 byte.toNat)

/-- `out` and the digits in `quartet`, of which there are `quartet_len`. -/
structure Quartets where
  out : List UInt8
  quartet : List UInt8
  deriving DecidableEq, Repr

/-- `push_decoded_quartet`. -/
def pushDecodedQuartet (out quartet : List UInt8) (bytes : ℕ) : Except Str (List UInt8) := do
  require (out.length + bytes ≤ maxSendDataBytes) sendDataExceeds
  let q (i : ℕ) : UInt8 := quartet.getD i 0
  return out ++ [octet0 (q 0) (q 1)] ++ (if bytes > 1 then [octet1 (q 1) (q 2)] else []) ++
    (if bytes > 2 then [octet2 (q 2) (q 3)] else [])

/-- One byte of the loop of `decode_base64`. -/
def takeDigit (state : Quartets) (byte : UInt8) : Except Str Quartets := do
  let value ← decodeChar byte
  let quartet := state.quartet ++ [value]
  if quartet.length = 4 then
    return { out := ← pushDecodedQuartet state.out quartet 3, quartet := [] }
  else
    return { state with quartet }

/-- The end of `decode_base64`. -/
def finishQuartets (state : Quartets) : Except Str (List UInt8) := do
  match state.quartet with
  | [] => return state.out
  | [_, b] =>
    require (b &&& 0x0f = 0) "non-canonical base64 tail bits".toList
    pushDecodedQuartet state.out state.quartet 1
  | [_, _, c] =>
    require (c &&& 0x03 = 0) "non-canonical base64 tail bits".toList
    pushDecodedQuartet state.out state.quartet 2
  | _ => throw "invalid base64 length".toList

/-- `max_decoded` of `decode_base64`. -/
def maxDecoded (length : ℕ) : Except Str ℕ :=
  match length % 4 with
  | 0 => return length / 4 * 3
  | 2 => return length / 4 * 3 + 1
  | 3 => return length / 4 * 3 + 2
  | _ => throw "invalid base64 length".toList

/-- `decode_base64`. -/
def decodeBase64 (value : List UInt8) : Except Str (List UInt8) := do
  require (isAscii value = true) "base64 data must be ASCII".toList
  let trimmed := value.rdropWhile (· = padByte)
  let padding := value.length - trimmed.length
  require (padByte ∉ value.take trimmed.length) "base64 padding may only appear at the end".toList
  require (¬(padding > 2 ∨ (padding > 0 ∧ value.length % 4 ≠ 0) ∨ trimmed.length % 4 = 1))
    "invalid base64 length".toList
  let maxDecoded ← maxDecoded trimmed.length
  require (maxDecoded ≤ maxSendDataBytes) sendDataExceeds
  let state ← trimmed.foldlM takeDigit { out := [], quartet := [] }
  finishQuartets state

/-- `decode_canonical_speculation_base64`. -/
def decodeCanonicalSpeculationBase64 (value : List UInt8) (maxBytes : ℕ) :
    Except Unit (List UInt8) := do
  require (¬(isAscii value = false ∨ value.length % 4 ≠ 0 ∨
    value.length > (maxBytes + 2) / 3 * 4)) ()
  let decoded ← (decodeBase64 value).mapError fun _ => ()
  require (¬(decoded.length > maxBytes ∨ encodeBase64 decoded ≠ value)) ()
  return decoded

/-- An encoding without its padding. -/
def digits : List UInt8 → List UInt8
  | [] => []
  | [first] => [digit (sextet0 first), digit (sextet1 first 0)]
  | [first, second] =>
    [digit (sextet0 first), digit (sextet1 first second), digit (sextet2 second 0)]
  | first :: second :: third :: rest =>
    digit (sextet0 first) :: digit (sextet1 first second) :: digit (sextet2 second third) ::
      digit (sextet3 third) :: digits rest

theorem encodeBase64_eq_digits (data : List UInt8) :
    encodeBase64 data = digits data ++ List.replicate ((3 - data.length % 3) % 3) padByte := by
  induction data using encodeBase64.induct with
  | case1 => simp [encodeBase64, digits]
  | case2 first => simp [encodeBase64, digits]
  | case3 first second => simp [encodeBase64, digits]
  | case4 first second third rest ih =>
    have hmod : (rest.length + 1 + 1 + 1) % 3 = rest.length % 3 := by omega
    simp [encodeBase64, digits, ih, hmod]

theorem length_digits (data : List UInt8) :
    (digits data).length = (data.length * 4 + 2) / 3 := by
  induction data using encodeBase64.induct with
  | case1 => rfl
  | case2 first => simp [digits]
  | case3 first second => simp [digits]
  | case4 first second third rest ih =>
    simp only [digits, List.length_cons, ih]
    omega

theorem pad_notMem_digits (data : List UInt8) : padByte ∉ digits data := by
  have hd {index : UInt8} (h : index < 64) : padByte ≠ digit index := (digit_ne_pad h).symm
  induction data using encodeBase64.induct with
  | case1 => simp [digits]
  | case2 first => simp [digits, hd, sextet0_lt, sextet1_lt]
  | case3 first second => simp [digits, hd, sextet0_lt, sextet1_lt, sextet2_lt]
  | case4 first second third rest ih =>
    simp [digits, hd, sextet0_lt, sextet1_lt, sextet2_lt, sextet3_lt, ih]

theorem trimmed_encode (data : List UInt8) :
    (encodeBase64 data).rdropWhile (· = padByte) = digits data := by
  have hself : (digits data).rdropWhile (fun byte => decide (byte = padByte)) = digits data := by
    rw [List.rdropWhile_eq_self_iff]
    intro hne hlast
    have hlast : (digits data).getLast hne = padByte := by simpa using hlast
    exact pad_notMem_digits data (hlast ▸ List.getLast_mem hne)
  rw [encodeBase64_eq_digits]
  generalize (3 - data.length % 3) % 3 = n
  induction n with
  | zero => simpa using hself
  | succ n ih =>
    rw [List.replicate_succ', ← List.append_assoc, List.rdropWhile_concat_pos _ _ _ (by simp)]
    exact ih

theorem maxDecoded_digits (data : List UInt8) :
    maxDecoded (digits data).length = .ok data.length := by
  rw [length_digits]
  obtain h | h | h : data.length % 3 = 0 ∨ data.length % 3 = 1 ∨ data.length % 3 = 2 := by omega
  · have hmod : (data.length * 4 + 2) / 3 % 4 = 0 := by omega
    simp only [maxDecoded, hmod, pure_eq_ok]
    omega
  · have hmod : (data.length * 4 + 2) / 3 % 4 = 2 := by omega
    simp only [maxDecoded, hmod, pure_eq_ok]
    omega
  · have hmod : (data.length * 4 + 2) / 3 % 4 = 3 := by omega
    simp only [maxDecoded, hmod, pure_eq_ok]
    omega

theorem decodeChar_digit {index : UInt8} (h : index < 64) : decodeChar (digit index) = .ok index := by
  simp [decodeChar, digitValue_digit h]

/-- A digit that does not complete its quartet. -/
theorem takeDigit_digit {index : UInt8} (h : index < 64) (out : List UInt8) {quartet : List UInt8}
    (hlen : quartet.length < 3) :
    takeDigit { out, quartet } (digit index) = .ok { out, quartet := quartet ++ [index] } := by
  have hne : (quartet ++ [index]).length ≠ 4 := by
    rw [List.length_append, List.length_singleton]
    omega
  unfold takeDigit
  rw [decodeChar_digit h]
  exact if_neg hne

/-- The digit that completes a quartet. -/
theorem takeDigit_last {index : UInt8} (h : index < 64) (out : List UInt8) {quartet decoded : List UInt8}
    (hlen : quartet.length = 3)
    (hdecoded : pushDecodedQuartet out (quartet ++ [index]) 3 = .ok decoded) :
    takeDigit { out, quartet } (digit index) = .ok { out := decoded, quartet := [] } := by
  have heq : (quartet ++ [index]).length = 4 := by
    rw [List.length_append, List.length_singleton, hlen]
  unfold takeDigit
  rw [decodeChar_digit h]
  refine (if_pos heq).trans ?_
  rw [hdecoded]
  rfl

theorem foldlM_ok {rest : List UInt8} {byte : UInt8} {state next : Quartets}
    (h : takeDigit state byte = .ok next) :
    (byte :: rest).foldlM takeDigit state = rest.foldlM takeDigit next := by
  rw [List.foldlM_cons, h]
  rfl

/-- Three bytes of data are one quartet. -/
theorem foldlM_group (out : List UInt8) (first second third : UInt8) (rest : List UInt8)
    (hlen : out.length + 3 ≤ maxSendDataBytes) :
    (digits (first :: second :: third :: rest)).foldlM takeDigit { out, quartet := [] } =
      (digits rest).foldlM takeDigit { out := out ++ [first, second, third], quartet := [] } := by
  have hpush : pushDecodedQuartet out
      ([] ++ [sextet0 first] ++ [sextet1 first second] ++ [sextet2 second third] ++ [sextet3 third]) 3 =
      .ok (out ++ [first, second, third]) := by
    simp [pushDecodedQuartet, octet0_sextets, octet1_sextets, octet2_sextets, hlen, map_eq_ok]
  rw [digits, foldlM_ok (takeDigit_digit (sextet0_lt first) out (by simp)),
    foldlM_ok (takeDigit_digit (sextet1_lt first second) out (by simp)),
    foldlM_ok (takeDigit_digit (sextet2_lt second third) out (by simp)),
    foldlM_ok (takeDigit_last (sextet3_lt third) out (by simp) hpush)]

/-- The quartets put the bytes back together. -/
theorem decodeQuartets_digits (out : List UInt8) {data : List UInt8}
    (h : out.length + data.length ≤ maxSendDataBytes) :
    ((digits data).foldlM takeDigit { out, quartet := [] } >>= finishQuartets) =
      .ok (out ++ data) := by
  induction data using encodeBase64.induct generalizing out with
  | case1 => simp [digits, finishQuartets]
  | case2 first =>
    have hlen : out.length < maxSendDataBytes := by simpa using h
    rw [digits, foldlM_ok (takeDigit_digit (sextet0_lt first) out (by simp)),
      foldlM_ok (takeDigit_digit (sextet1_lt first 0) out (by simp))]
    simp [finishQuartets, pushDecodedQuartet, sextet1_tail, octet0_sextets, hlen, map_eq_ok]
  | case3 first second =>
    have hlen : out.length + 2 ≤ maxSendDataBytes := by simpa using h
    rw [digits, foldlM_ok (takeDigit_digit (sextet0_lt first) out (by simp)),
      foldlM_ok (takeDigit_digit (sextet1_lt first second) out (by simp)),
      foldlM_ok (takeDigit_digit (sextet2_lt second 0) out (by simp))]
    simp [finishQuartets, pushDecodedQuartet, sextet2_tail, octet0_sextets, octet1_sextets, hlen,
      map_eq_ok]
  | case4 first second third rest ih =>
    have hlen : out.length + 3 ≤ maxSendDataBytes := by
      simp only [List.length_cons] at h
      omega
    have hrest := ih (out ++ [first, second, third]) (by
      simp only [List.length_cons, List.length_append, List.length_nil] at h ⊢
      omega)
    rw [foldlM_group out first second third rest hlen, hrest, List.append_assoc]
    rfl

/-- The wire reads back what was encoded, if it is not too long. -/
theorem decodeBase64_encode {data : List UInt8} (h : data.length ≤ maxSendDataBytes) :
    decodeBase64 (encodeBase64 data) = .ok data := by
  have hlen := length_encodeBase64 data
  have hdigits := length_digits data
  have htake : (encodeBase64 data).take (digits data).length = digits data := by
    rw [encodeBase64_eq_digits, List.take_left]
  have hshape : ¬((encodeBase64 data).length - (digits data).length > 2 ∨
      ((encodeBase64 data).length - (digits data).length > 0 ∧ (encodeBase64 data).length % 4 ≠ 0) ∨
      (digits data).length % 4 = 1) := by omega
  have hrun : ((digits data).foldlM takeDigit { out := [], quartet := [] } >>= finishQuartets) =
      .ok data := by
    simpa using decodeQuartets_digits [] (by simpa using h)
  unfold decodeBase64
  simp only [trimmed_encode, htake, bind_eq_ok, require_eq_ok, exists_unit, isAscii_encode,
    maxDecoded_digits]
  exact ⟨trivial, pad_notMem_digits data, hshape, data.length, rfl, h, bind_eq_ok.mp hrun⟩

/-- **What the canonical decoder of the wire accepts**: the encodings of not too many bytes. -/
theorem decodeCanonicalSpeculationBase64_eq_ok {value data : List UInt8} {maxBytes : ℕ}
    (hmax : maxBytes ≤ maxSendDataBytes) :
    decodeCanonicalSpeculationBase64 value maxBytes = .ok data ↔
      value = encodeBase64 data ∧ data.length ≤ maxBytes := by
  constructor
  · intro h
    simp only [decodeCanonicalSpeculationBase64, bind_eq_ok, require_eq_ok, exists_unit,
      pure_eq_ok] at h
    obtain ⟨-, decoded, -, hcanonical, rfl⟩ := h
    push Not at hcanonical
    exact ⟨hcanonical.2.symm, hcanonical.1⟩
  · rintro ⟨rfl, hlen⟩
    have henc := length_encodeBase64 data
    have hdiv : (data.length + 2) / 3 ≤ (maxBytes + 2) / 3 :=
      Nat.div_le_div_right (Nat.add_le_add_right hlen 2)
    simp only [decodeCanonicalSpeculationBase64, bind_eq_ok, require_eq_ok, exists_unit, pure_eq_ok,
      isAscii_encode, decodeBase64_encode (hlen.trans hmax), Except.mapError]
    refine ⟨by simp; omega, data, rfl, by simp; omega, rfl⟩

end LightTerminal.Speculation.Base64
