import Mathlib.Data.Bool.AllAny
import LightTerminal.Library.Utf8

/-! # JSON objects on a line

`Value` is what a JSON parser returns, as far as a reader asks for members of an object that are strings
or unsigned numbers. `writeObject` is the compact text of an object whose members are scalars, as
`serde_json` writes it: no blanks, and in strings only quotes, backslashes and control characters
are escaped. So the text has no control characters and fits on one line (`printable_writeObject`). -/

namespace LightTerminal.Library.Json

/-- A value without parts. -/
inductive Scalar where
  | null
  | u64 (n : ℕ)
  | string (text : List Char)
  deriving DecidableEq

/-- A JSON value; `number` is a number that is no `u64`. -/
inductive Value where
  | scalar (value : Scalar)
  | bool (value : Bool)
  | number (text : List Char)
  | array (items : List Value)
  | object (members : List (List Char × Value))

namespace Value

/-- `Value::get` with a string. -/
def get (value : Value) (field : List Char) : Option Value :=
  match value with
  | .object members => (members.find? (·.1 = field)).map (·.2)
  | _ => none

/-- `Value::as_str`. -/
def asStr : Value → Option (List Char)
  | .scalar (.string text) => some text
  | _ => none

/-- `Value::as_u64`. -/
def asU64 : Value → Option ℕ
  | .scalar (.u64 n) => some n
  | _ => none

/-- An object of scalars. -/
def ofMembers (members : List (List Char × Scalar)) : Value :=
  .object (members.map fun (key, value) => (key, .scalar value))

end Value

/-! ### Writing -/

/-- A character in a string. -/
def escapeChar (ch : Char) : List Char :=
  if ch = '"' then ['\\', '"']
  else if ch = '\\' then ['\\', '\\']
  else if ch.toNat = 8 then ['\\', 'b']
  else if ch.toNat = 12 then ['\\', 'f']
  else if ch = '\n' then ['\\', 'n']
  else if ch = '\r' then ['\\', 'r']
  else if ch = '\t' then ['\\', 't']
  else if ch.toNat < 32 then
    ['\\', 'u', '0', '0', Nat.digitChar (ch.toNat / 16), Nat.digitChar (ch.toNat % 16)]
  else [ch]

/-- A string. -/
def writeString (text : List Char) : List Char := '"' :: text.flatMap escapeChar ++ ['"']

/-- A scalar. -/
def Scalar.write : Scalar → List Char
  | .null => ['n', 'u', 'l', 'l']
  | .u64 n => Nat.toDigits 10 n
  | .string text => writeString text

/-- A member of an object. -/
def writeMember (member : List Char × Scalar) : List Char :=
  writeString member.1 ++ ':' :: member.2.write

/-- Members, with commas between them. -/
def writeMembers : List (List Char × Scalar) → List Char
  | [] => []
  | [member] => writeMember member
  | member :: members => writeMember member ++ ',' :: writeMembers members

/-- An object. -/
def writeObject (members : List (List Char × Scalar)) : List Char :=
  '\x7b' :: writeMembers members ++ ['\x7d']

/-- A text without control characters. -/
def Printable (text : List Char) : Prop := ∀ ch ∈ text, 32 ≤ ch.toNat

theorem Printable.append {text more : List Char} (h : Printable text) (h' : Printable more) :
    Printable (text ++ more) := by
  intro ch hch
  rcases List.mem_append.mp hch with hch | hch
  · exact h ch hch
  · exact h' ch hch

theorem Printable.cons {ch : Char} {text : List Char} (hch : 32 ≤ ch.toNat) (h : Printable text) :
    Printable (ch :: text) :=
  List.forall_mem_cons.mpr ⟨hch, h⟩

theorem printable_nil : Printable [] := fun _ hch => nomatch hch

theorem printable_digitChar : ∀ d < 16, 32 ≤ (Nat.digitChar d).toNat := by decide

theorem printable_escapeChar (ch : Char) : Printable (escapeChar ch) := by
  have hplain (a b : Char) (ha : 32 ≤ a.toNat) (hb : 32 ≤ b.toNat) : Printable [a, b] :=
    .cons ha (.cons hb printable_nil)
  unfold escapeChar
  split_ifs with h1 h2 h3 h4 h5 h6 h7 h8
  · exact hplain _ _ (by decide) (by decide)
  · exact hplain _ _ (by decide) (by decide)
  · exact hplain _ _ (by decide) (by decide)
  · exact hplain _ _ (by decide) (by decide)
  · exact hplain _ _ (by decide) (by decide)
  · exact hplain _ _ (by decide) (by decide)
  · exact hplain _ _ (by decide) (by decide)
  · have hhigh := printable_digitChar (ch.toNat / 16) (by omega)
    have hlow := printable_digitChar (ch.toNat % 16) (by omega)
    exact .cons (by decide) (.cons (by decide) (.cons (by decide) (.cons (by decide)
      (.cons hhigh (.cons hlow printable_nil)))))
  · exact .cons (by omega) printable_nil

theorem printable_writeString (text : List Char) : Printable (writeString text) := by
  refine Printable.append (.cons (by decide) fun ch hch => ?_) (.cons (by decide) printable_nil)
  obtain ⟨original, -, hch⟩ := List.mem_flatMap.mp hch
  exact printable_escapeChar original ch hch

theorem printable_write (value : Scalar) : Printable value.write := by
  cases value with
  | null => exact List.all_iff_forall_prop.mp (by decide)
  | u64 n =>
    intro ch hch
    have hdigit := Nat.isDigit_of_mem_toDigits (by decide) (by decide) hch
    simp only [Char.isDigit, Bool.and_eq_true, decide_eq_true_eq] at hdigit
    have hle : 48 ≤ ch.toNat := hdigit.1
    omega
  | string text => exact printable_writeString text

theorem printable_writeMember (member : List Char × Scalar) : Printable (writeMember member) :=
  (printable_writeString _).append (.cons (by decide) (printable_write _))

theorem printable_writeMembers (members : List (List Char × Scalar)) :
    Printable (writeMembers members) := by
  induction members with
  | nil => exact printable_nil
  | cons member members ih =>
    rcases members with _ | ⟨member', members⟩
    · exact printable_writeMember member
    · exact (printable_writeMember member).append (.cons (by decide) ih)

/-- The text of an object is on one line. -/
theorem printable_writeObject (members : List (List Char × Scalar)) :
    Printable (writeObject members) :=
  (Printable.cons (by decide) (printable_writeMembers members)).append
    (.cons (by decide) printable_nil)

/-! ### Lengths -/

theorem length_escapeChar (ch : Char) : (escapeChar ch).length ≤ 6 := by
  unfold escapeChar
  split_ifs <;> simp

theorem length_writeString (text : List Char) : (writeString text).length ≤ 6 * text.length + 2 := by
  have hbody : (text.flatMap escapeChar).length ≤ 6 * text.length := by
    induction text with
    | nil => simp
    | cons ch text ih =>
      have hch := length_escapeChar ch
      simp only [List.flatMap_cons, List.length_append, List.length_cons]
      omega
  simp only [writeString, List.length_append, List.length_cons, List.length_nil]
  omega

/-- A bound for the length of a scalar. -/
def Scalar.Within (bound : ℕ) : Scalar → Prop
  | .null => 4 ≤ bound
  | .u64 n => n < 10 ^ bound ∧ 0 < bound
  | .string text => 6 * text.length + 2 ≤ bound

theorem length_write {value : Scalar} {bound : ℕ} (h : value.Within bound) :
    value.write.length ≤ bound := by
  cases value with
  | null => exact h
  | u64 n => exact (Nat.length_toDigits_le_iff (by decide) h.2).mpr h.1
  | string text => exact (length_writeString text).trans h

theorem length_writeMembers (members : List (List Char × Scalar)) :
    (writeMembers members).length ≤
      (members.map fun member => 6 * member.1.length + 4 + member.2.write.length).sum := by
  have hmember (member : List Char × Scalar) :
      (writeMember member).length ≤ 6 * member.1.length + 3 + member.2.write.length := by
    have hkey := length_writeString member.1
    simp only [writeMember, List.length_append, List.length_cons]
    omega
  induction members with
  | nil => simp [writeMembers]
  | cons member members ih =>
    have hfirst := hmember member
    rcases members with _ | ⟨member', members⟩
    · simp only [writeMembers, List.map_cons, List.map_nil, List.sum_cons, List.sum_nil]
      omega
    · simp only [writeMembers, List.length_append, List.length_cons, List.map_cons,
        List.sum_cons] at ih ⊢
      omega

theorem length_le_writeString (text : List Char) : text.length ≤ (writeString text).length := by
  have hescaped (ch : Char) : 1 ≤ (escapeChar ch).length := by
    unfold escapeChar
    split_ifs <;> simp
  have hbody : text.length ≤ (text.flatMap escapeChar).length := by
    induction text with
    | nil => simp
    | cons ch text ih =>
      have hch := hescaped ch
      simp only [List.flatMap_cons, List.length_append, List.length_cons]
      omega
  simp only [writeString, List.length_append, List.length_cons, List.length_nil]
  omega

theorem le_length_writeMembers (members : List (List Char × Scalar)) :
    (members.map fun member => member.1.length + member.2.write.length).sum ≤
      (writeMembers members).length := by
  have hmember (member : List Char × Scalar) :
      member.1.length + member.2.write.length ≤ (writeMember member).length := by
    have hkey := length_le_writeString member.1
    simp only [writeMember, List.length_append, List.length_cons]
    omega
  induction members with
  | nil => exact Nat.zero_le _
  | cons member members ih =>
    have hfirst := hmember member
    rcases members with _ | ⟨member', members⟩
    · simp only [writeMembers, List.map_cons, List.map_nil, List.sum_cons, List.sum_nil]
      omega
    · simp only [writeMembers, List.length_append, List.length_cons, List.map_cons,
        List.sum_cons] at ih ⊢
      omega

/-! ### The bytes of a line -/

theorem length_le_encode (text : List Char) : text.length ≤ (Utf8.encode text).length := by
  induction text with
  | nil => simp
  | cons ch text ih =>
    have hsize := Char.utf8Size_pos ch
    simp only [Utf8.encode_cons, List.length_append, String.length_utf8EncodeChar, List.length_cons]
    omega

theorem length_encode_le (text : List Char) : (Utf8.encode text).length ≤ 4 * text.length := by
  induction text with
  | nil => simp
  | cons ch text ih =>
    have hsize := Char.utf8Size_le_four ch
    simp only [Utf8.encode_cons, List.length_append, String.length_utf8EncodeChar, List.length_cons]
    omega

/-- Without control characters there are no control bytes. -/
theorem Printable.bytes {text : List Char} (h : Printable text) :
    ∀ byte ∈ Utf8.encode text, 32 ≤ byte.toNat := by
  intro byte hbyte
  obtain ⟨ch, hch, hbyte⟩ := List.mem_flatMap.mp hbyte
  have hprintable := h ch hch
  by_cases hascii : ch.toNat ≤ 0x7f
  · rw [Utf8.encodeChar_ascii hascii, List.mem_singleton] at hbyte
    rw [hbyte, Utf8.toNat_ofNat (by omega)]
    exact hprintable
  · have hwide := Utf8.encodeChar_wide_bytes (by omega) byte hbyte
    omega

end LightTerminal.Library.Json
