import Mathlib.Tactic

/-! # The bytes of a scalar

What the encoding of one scalar looks like: an ASCII scalar is its own byte, any other scalar is
a lead byte that announces the length, followed by continuation bytes. -/

namespace LightTerminal.Library.Utf8

/-- The bytes of a text. -/
def encode (text : List Char) : List UInt8 := text.flatMap String.utf8EncodeChar

@[simp] theorem encode_nil : encode [] = [] := rfl

@[simp] theorem encode_cons (ch : Char) (text : List Char) :
    encode (ch :: text) = String.utf8EncodeChar ch ++ encode text := List.flatMap_cons

@[simp] theorem encode_append (text more : List Char) :
    encode (text ++ more) = encode text ++ encode more := List.flatMap_append

/-- `String::from_utf8`. -/
def fromUtf8 (bytes : List UInt8) : Option (List Char) :=
  bytes.toByteArray.utf8Decode?.map Array.toList

theorem fromUtf8_encode (text : List Char) : fromUtf8 (encode text) = some text := by
  have h : (encode text).toByteArray = text.utf8Encode := rfl
  rw [fromUtf8, h, List.utf8Decode?_utf8Encode]
  rfl

/-- What is read as a text is its encoding. -/
theorem encode_of_fromUtf8 {bytes : List UInt8} {text : List Char} (h : fromUtf8 bytes = some text) :
    encode text = bytes := by
  have hvalid : bytes.toByteArray.IsValidUTF8 := by
    rw [← ByteArray.isSome_utf8Decode?_iff]
    obtain ⟨decoded, hdecoded, -⟩ := Option.map_eq_some_iff.mp h
    rw [hdecoded]
    rfl
  obtain ⟨other, hother⟩ := hvalid
  have hbytes : bytes = encode other := by
    have hlist : bytes.toByteArray.data.toList = other.utf8Encode.data.toList := by rw [hother]
    simpa [List.utf8Encode, encode] using hlist
  rw [hbytes, fromUtf8_encode] at h
  rw [hbytes, Option.some.inj h]

/-- A byte `0x80..=0xbf`. -/
def Continuation (byte : UInt8) : Prop := 0x80 ≤ byte.toNat ∧ byte.toNat ≤ 0xbf

instance (byte : UInt8) : Decidable (Continuation byte) := by unfold Continuation; infer_instance

/-- The lead bytes of an encoding of `len` bytes. -/
def Lead (len : ℕ) (byte : UInt8) : Prop :=
  (len = 2 ∧ 0xc2 ≤ byte.toNat ∧ byte.toNat ≤ 0xdf) ∨
  (len = 3 ∧ 0xe0 ≤ byte.toNat ∧ byte.toNat ≤ 0xef) ∨
  (len = 4 ∧ 0xf0 ≤ byte.toNat ∧ byte.toNat ≤ 0xf4)

theorem toNat_ofNat {n : ℕ} (h : n < 256) : (UInt8.ofNat n).toNat = n := by
  simp [Nat.mod_eq_of_lt h]

theorem continuation_ofNat {n : ℕ} (h : 0x80 ≤ n ∧ n ≤ 0xbf) : Continuation (UInt8.ofNat n) := by
  unfold Continuation
  rw [toNat_ofNat (by omega)]
  exact h

theorem toNat_le_max (ch : Char) : ch.toNat ≤ 0x10ffff := by
  have h := ch.valid
  unfold UInt32.isValidChar Nat.isValidChar at h
  unfold Char.toNat
  omega

theorem encodeChar_ascii {ch : Char} (h : ch.toNat ≤ 0x7f) :
    String.utf8EncodeChar ch = [UInt8.ofNat ch.toNat] := by
  unfold Char.toNat at h ⊢
  simp only [String.utf8EncodeChar, if_pos h]

/-- The two bytes of a scalar `U+0080..=U+07FF`. -/
theorem encodeChar_two {ch : Char} (h : 0x7f < ch.toNat) (h' : ch.toNat ≤ 0x7ff) :
    String.utf8EncodeChar ch =
      [UInt8.ofNat (ch.toNat / 64 % 32 + 0xc0), UInt8.ofNat (ch.toNat % 64 + 0x80)] := by
  unfold Char.toNat at h h' ⊢
  simp only [String.utf8EncodeChar, if_neg (not_le.mpr h), if_pos h']

theorem encodeChar_three {ch : Char} (h : 0x7ff < ch.toNat) (h' : ch.toNat ≤ 0xffff) :
    String.utf8EncodeChar ch =
      [UInt8.ofNat (ch.toNat / 4096 % 16 + 0xe0), UInt8.ofNat (ch.toNat / 64 % 64 + 0x80),
        UInt8.ofNat (ch.toNat % 64 + 0x80)] := by
  have h7 : ¬ ch.toNat ≤ 0x7f := by omega
  unfold Char.toNat at h h' h7 ⊢
  simp only [String.utf8EncodeChar, if_neg h7, if_neg (not_le.mpr h), if_pos h']

theorem encodeChar_four {ch : Char} (h : 0xffff < ch.toNat) :
    String.utf8EncodeChar ch =
      [UInt8.ofNat (ch.toNat / 262144 % 8 + 0xf0), UInt8.ofNat (ch.toNat / 4096 % 64 + 0x80),
        UInt8.ofNat (ch.toNat / 64 % 64 + 0x80), UInt8.ofNat (ch.toNat % 64 + 0x80)] := by
  have h7 : ¬ ch.toNat ≤ 0x7f := by omega
  have h11 : ¬ ch.toNat ≤ 0x7ff := by omega
  unfold Char.toNat at h h7 h11 ⊢
  simp only [String.utf8EncodeChar, if_neg h7, if_neg h11, if_neg (not_le.mpr h)]

/-- A scalar beyond ASCII is a lead byte that announces the length and continuation bytes. -/
theorem encodeChar_wide {ch : Char} (h : 0x7f < ch.toNat) :
    ∃ lead tail, String.utf8EncodeChar ch = lead :: tail ∧ Lead (tail.length + 1) lead ∧
      ∀ byte ∈ tail, Continuation byte := by
  have hmax := toNat_le_max ch
  by_cases h2 : ch.toNat ≤ 0x7ff
  · refine ⟨_, _, encodeChar_two h h2, Or.inl ⟨rfl, ?_⟩, ?_⟩
    · rw [toNat_ofNat (by omega)]; omega
    · simp only [List.mem_singleton, forall_eq]
      exact continuation_ofNat (by omega)
  · by_cases h3 : ch.toNat ≤ 0xffff
    · refine ⟨_, _, encodeChar_three (by omega) h3, Or.inr (Or.inl ⟨rfl, ?_⟩), ?_⟩
      · rw [toNat_ofNat (by omega)]; omega
      · simp only [List.mem_cons, List.not_mem_nil, or_false, forall_eq_or_imp, forall_eq]
        exact ⟨continuation_ofNat (by omega), continuation_ofNat (by omega)⟩
    · refine ⟨_, _, encodeChar_four (by omega), Or.inr (Or.inr ⟨rfl, ?_⟩), ?_⟩
      · rw [toNat_ofNat (by omega)]; omega
      · simp only [List.mem_cons, List.not_mem_nil, or_false, forall_eq_or_imp, forall_eq]
        exact ⟨continuation_ofNat (by omega), continuation_ofNat (by omega),
          continuation_ofNat (by omega)⟩

theorem encodeChar_wide_bytes {ch : Char} (h : 0x7f < ch.toNat) :
    ∀ byte ∈ String.utf8EncodeChar ch, 0x80 ≤ byte.toNat := by
  obtain ⟨lead, tail, he, hl, htail⟩ := encodeChar_wide h
  intro byte hmem
  rw [he] at hmem
  rcases List.mem_cons.mp hmem with rfl | hmem
  · rcases hl with hl | hl | hl <;> omega
  · exact (htail byte hmem).1

/-- What is checked on each of the 128 ASCII scalars holds of every one. -/
theorem of_each_ascii {p : Char → Prop} (h : ∀ n < 128, p (Char.ofNat n)) {ch : Char}
    (hch : ch.toNat ≤ 0x7f) : p ch :=
  Char.ofNat_toNat ch ▸ h ch.toNat (by omega)

/-- What is checked on each of the 256 bytes holds of every one. -/
theorem of_each_byte {p : UInt8 → Prop} (h : ∀ n < 256, p (UInt8.ofNat n)) (byte : UInt8) :
    p byte :=
  UInt8.ofNat_toNat (x := byte) ▸ h byte.toNat byte.toNat_lt

end LightTerminal.Library.Utf8
