import Mathlib.Data.List.DropRight
import Mathlib.Tactic

/-! # Strings and UUIDs

A Rust `String` is the list of its scalar values (`Str`), a `Uuid` is its 128-bit value. `simple`
and `hyphenated` are the two texts of a UUID that the program writes; `trim` is that of the standard
library, and so goes by the Unicode property `White_Space`. -/

namespace LightTerminal.Data.Text

/-- A Rust string. -/
abbrev Str := List Char

instance : LawfulBEq Str := inferInstanceAs (LawfulBEq (List Char))

/-- `str::len`: the length in bytes. -/
def byteLen (text : Str) : ℕ := (text.map Char.utf8Size).sum

/-- `char::is_whitespace`. -/
def isWhitespace (ch : Char) : Bool :=
  let n := ch.toNat
  (9 ≤ n && n ≤ 13) || n == 0x20 || n == 0x85 || n == 0xA0 || n == 0x1680 ||
    (0x2000 ≤ n && n ≤ 0x200A) || n == 0x2028 || n == 0x2029 || n == 0x202F || n == 0x205F ||
    n == 0x3000

/-- `str::trim`. -/
def trim (text : Str) : Str := (text.dropWhile isWhitespace).rdropWhile isWhitespace

/-- `char::is_control`. -/
def isControl (ch : Char) : Bool := ch.toNat < 32 || (127 ≤ ch.toNat && ch.toNat < 160)

/-- `char::is_ascii_digit`. -/
def isAsciiDigit (ch : Char) : Bool := '0' ≤ ch && ch ≤ '9'

/-- `char::is_ascii_alphanumeric`. -/
def isAsciiAlphanumeric (ch : Char) : Bool :=
  isAsciiDigit ch || ('a' ≤ ch && ch ≤ 'z') || ('A' ≤ ch && ch ≤ 'Z')

/-- A number as `format!` writes it. -/
def decimal (n : ℕ) : Str := Nat.toDigits 10 n

theorem mem_decimal {n : ℕ} {ch : Char} (h : ch ∈ decimal n) : isAsciiDigit ch = true := by
  have hdigit := Nat.isDigit_of_mem_toDigits (by decide) (by decide) h
  simpa [isAsciiDigit, Char.isDigit, Char.le_def] using hdigit

theorem decimal_injective {m n : ℕ} (h : decimal m = decimal n) : m = n := by
  have hdigits : Nat.toDigits 10 m = Nat.toDigits 10 n := h
  rw [← Nat.ofDigitChars_ten_toDigits (n := m), hdigits, Nat.ofDigitChars_ten_toDigits]

/-- The characters between `-` and `z` are no blanks. -/
theorem isWhitespace_eq_false {ch : Char} (h : 37 ≤ ch.toNat ∧ ch.toNat ≤ 122) :
    isWhitespace ch = false := by
  simp only [isWhitespace, Bool.or_eq_false_iff, Bool.and_eq_false_iff, decide_eq_false_iff_not,
    beq_eq_false_iff_ne]
  omega

theorem isAsciiAlphanumeric_bounds {ch : Char} (h : isAsciiAlphanumeric ch = true) :
    48 ≤ ch.toNat ∧ ch.toNat ≤ 122 := by
  simp only [isAsciiAlphanumeric, isAsciiDigit, Char.le_def, UInt32.le_iff_toNat_le,
    Bool.or_eq_true, Bool.and_eq_true, decide_eq_true_eq] at h
  change ((48 ≤ ch.toNat ∧ ch.toNat ≤ 57) ∨ (97 ≤ ch.toNat ∧ ch.toNat ≤ 122)) ∨
    (65 ≤ ch.toNat ∧ ch.toNat ≤ 90) at h
  omega

/-- `uuid::Uuid`. -/
abbrev Uuid := BitVec 128

/-- `Uuid::is_nil`. -/
def Uuid.isNil (uuid : Uuid) : Bool := uuid = 0

/-- `Uuid::new_v4` from 128 random bits: the version is in bits 76 to 79, the variant in 62 and 63. -/
def Uuid.newV4 (random : BitVec 128) : Uuid :=
  (random &&& ~~~(0xF#128 <<< 76 ||| 0x3#128 <<< 62)) ||| (0x4#128 <<< 76 ||| 0x2#128 <<< 62)

/-- A drawn UUID is not nil: it has its version. -/
theorem Uuid.isNil_newV4 (random : BitVec 128) : Uuid.isNil (Uuid.newV4 random) = false := by
  unfold Uuid.isNil
  rw [decide_eq_false_iff_not]
  intro h
  have hbit := congrArg (fun uuid => BitVec.getLsbD uuid 78) h
  simp [Uuid.newV4] at hbit

/-- The `n` last hexadecimal digits of a number, in lower case. -/
def hexDigits : ℕ → ℕ → Str
  | 0, _ => []
  | n + 1, value => hexDigits n (value / 16) ++ [Nat.digitChar (value % 16)]

/-- `Uuid::simple`: 32 digits. -/
def Uuid.simple (uuid : Uuid) : Str := hexDigits 32 uuid.toNat

@[simp] theorem byteLen_cons (ch : Char) (text : Str) :
    byteLen (ch :: text) = ch.utf8Size + byteLen text := by
  simp [byteLen]

@[simp] theorem byteLen_append (text text' : Str) :
    byteLen (text ++ text') = byteLen text + byteLen text' := by
  simp [byteLen]

/-- A hexadecimal digit is one byte, and no character that a path gives a meaning. -/
theorem digitChar_plain : ∀ d < 16, (Nat.digitChar d).utf8Size = 1 ∧ Nat.digitChar d ≠ '/' ∧
    Nat.digitChar d ≠ Char.ofNat 0 := by
  decide

theorem hexDigits_plain (n value : ℕ) :
    byteLen (hexDigits n value) = n ∧ '/' ∉ hexDigits n value ∧ Char.ofNat 0 ∉ hexDigits n value := by
  induction n generalizing value with
  | zero => simp [hexDigits, byteLen]
  | succ n ih =>
    obtain ⟨hlen, hslash, hnul⟩ := ih (value / 16)
    obtain ⟨hsize, hslash', hnul'⟩ := digitChar_plain (value % 16) (Nat.mod_lt _ (by decide))
    have hdigit : byteLen [Nat.digitChar (value % 16)] = 1 := by simp [byteLen, hsize]
    refine ⟨?_, ?_, ?_⟩
    · simp only [hexDigits, byteLen_append]
      omega
    · simp only [hexDigits, List.mem_append, List.mem_singleton, not_or]
      exact ⟨hslash, hslash'.symm⟩
    · simp only [hexDigits, List.mem_append, List.mem_singleton, not_or]
      exact ⟨hnul, hnul'.symm⟩

/-- `Uuid::hyphenated`: the digits in groups of 8, 4, 4, 4 and 12. -/
def Uuid.hyphenated (uuid : Uuid) : Str :=
  let digits := Uuid.simple uuid
  digits.take 8 ++ '-' :: (digits.drop 8).take 4 ++ '-' :: (digits.drop 12).take 4 ++
    '-' :: (digits.drop 16).take 4 ++ '-' :: digits.drop 20

/-- The value of a hexadecimal digit, of either case. -/
def hexValue (ch : Char) : Option ℕ :=
  if '0' ≤ ch ∧ ch ≤ '9' then some (ch.toNat - 48)
  else if 'a' ≤ ch ∧ ch ≤ 'f' then some (ch.toNat - 87)
  else if 'A' ≤ ch ∧ ch ≤ 'F' then some (ch.toNat - 55)
  else none

/-- Exactly 32 hexadecimal digits as a UUID. -/
def parseSimple (text : Str) : Option Uuid :=
  if text.length = 32 then
    (text.mapM hexValue).map fun digits => BitVec.ofNat 128 (digits.foldl (16 * · + ·) 0)
  else none

/-- 32 digits with hyphens after the 8th, 12th, 16th and 20th. -/
def parseHyphenated (text : Str) : Option Uuid :=
  if text[8]? = some '-' ∧ text[13]? = some '-' ∧ text[18]? = some '-' ∧ text[23]? = some '-' then
    parseSimple (text.take 8 ++ (text.drop 9).take 4 ++ (text.drop 14).take 4 ++
      (text.drop 19).take 4 ++ text.drop 24)
  else none

/-- `Uuid::parse_str`: the simple and hyphenated forms, the latter also in braces or as a URN. -/
def Uuid.parseStr (text : Str) : Option Uuid :=
  if text.length = 32 then parseSimple text
  else if text.length = 36 then parseHyphenated text
  else if text.length = 38 ∧ text.head? = some '{' ∧ text.getLast? = some '}' then
    parseHyphenated ((text.drop 1).take 36)
  else if text.length = 45 ∧ text.take 9 = "urn:uuid:".toList then parseHyphenated (text.drop 9)
  else none

end LightTerminal.Data.Text
