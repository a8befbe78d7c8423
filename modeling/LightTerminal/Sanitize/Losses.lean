import Mathlib.Data.Bool.AllAny
import LightTerminal.Sanitize.Scalars

/-! # What the sanitizer keeps of a text

A byte string holds encoded scalars and stray bytes, which belong to none (`items`). Of a byte string
without controls the sanitizer should keep every scalar and put `U+FFFD` in the place of stray bytes. It
loses scalars in two ways. A stray byte that is a C1 control hides what follows up to the next stray string
terminator, and a lead byte that announces more bytes than there are takes all the bytes behind it along
into the buffer of pending bytes, which the end of the capture replaces by one `U+FFFD`. -/

namespace LightTerminal.Sanitize.Losses

open LightTerminal.Library.Utf8
open LightTerminal.Sanitize.Capture LightTerminal.Sanitize.Chunks LightTerminal.Sanitize.Scalars

/-- What a byte string holds at one place. -/
inductive Item where
  | scalar (ch : Char)
  | stray (byte : UInt8)
  deriving DecidableEq, Repr

/-- A byte string holds the items: each scalar is a complete encoding, and at a stray byte no complete
encoding begins. -/
inductive Holds : List UInt8 → List Item → Prop
  | nil : Holds [] []
  | scalar {bytes : List UInt8} {items : List Item} (ch : Char) (h : Holds bytes items) :
      Holds (String.utf8EncodeChar ch ++ bytes) (.scalar ch :: items)
  | stray {bytes : List UInt8} {items : List Item} (byte : UInt8)
      (hnone : ∀ ch, ¬String.utf8EncodeChar ch <+: byte :: bytes) (h : Holds bytes items) :
      Holds (byte :: bytes) (.stray byte :: items)

/-- The items of a byte string, behind the `skip` bytes of the last scalar. -/
def itemsFrom : ℕ → List UInt8 → List Item
  | _, [] => []
  | skip + 1, _ :: rest => itemsFrom skip rest
  | 0, byte :: rest =>
    match decodeUtf8Char (byte :: rest) with
    | some (ch, len) => .scalar ch :: itemsFrom (len - 1) rest
    | none => .stray byte :: itemsFrom 0 rest

/-- The items of a byte string. -/
def items (bytes : List UInt8) : List Item := itemsFrom 0 bytes

/-- The scalar of an item. -/
def Item.scalar? : Item → Option Char
  | .scalar ch => some ch
  | .stray _ => none

/-- The number of bytes of an item. -/
def Item.size : Item → ℕ
  | .scalar ch => ch.utf8Size
  | .stray _ => 1

/-- The text of items: their scalars. -/
def text (items : List Item) : List Char := items.filterMap Item.scalar?

/-- The number of bytes of items. -/
def size (items : List Item) : ℕ := (items.map Item.size).sum

/-- A text without `U+FFFD`. -/
def shown (out : List Char) : List Char := out.filter (· ≠ '\uFFFD')

/-- Whether the bytes behind a stray byte are hidden. -/
def hides (hidden : Bool) (byte : UInt8) : Bool :=
  if hidden then byte ≠ 0x9c else byte = 0x9b || byteOpensString byte

/-- All scalars but `U+FFFD` are kept: none is hidden, and none stands behind a lead byte that announces
more bytes than are left. -/
def keeps : Bool → List Item → Bool
  | _, [] => true
  | hidden, .scalar ch :: rest => (!hidden || ch = '\uFFFD') && keeps hidden rest
  | hidden, .stray byte :: rest =>
    if (utf8CharWidth byte).any (size (.stray byte :: rest) < ·) then shown (text rest) = []
    else keeps (hides hidden byte) rest

/-! ### Items -/

variable {escape : EscapeState}

/-- The text of the loop and of the end of the capture, without `U+FFFD`. -/
def captured (escape : EscapeState) (bytes : List UInt8) : List Char :=
  shown ((captureLoop 0 escape bytes).1 ++ flushPendingUtf8AtCaptureEnd (captureLoop 0 escape bytes).2)

theorem not_control {ch : Char} (h : Visible ch) : ch.toNat ≠ 0x1b ∧ ch.toNat ≠ 0x9b ∧
    opensString ch = false ∧ (isC0OrC1 ch = true → ch = '\t' ∨ ch = '\n' ∨ ch = '\r') := by
  rcases h with h | rfl | rfl | rfl
  · have hbounds := h
    simp only [isC0OrC1, Bool.or_eq_false_iff, Bool.and_eq_false_iff, decide_eq_false_iff_not] at hbounds
    refine ⟨by omega, by omega, ?_, fun hcontrol => absurd hcontrol (by rw [h]; exact Bool.false_ne_true)⟩
    simp only [opensString, Bool.or_eq_false_iff, decide_eq_false_iff_not]
    omega
  all_goals decide

theorem scalarStep_ground {ch : Char} (h : Visible ch) : scalarStep .ground ch = (.ground, [ch]) := by
  obtain ⟨hesc, hcsi, hstring, hcontrol⟩ := not_control h
  simp only [scalarStep, if_neg hesc, if_neg hcsi, hstring, Bool.false_eq_true, if_false]
  split_ifs with hspace hc
  · rfl
  · exact absurd (hcontrol hc) hspace
  · rfl

/-- Text that is visible is left as it is. -/
theorem terminalCapture_visible {text : List Char} (h : ∀ ch ∈ text, Visible ch) :
    terminalCapture (encode text) = text := by
  have hclean : clean .ground text = true ∧ scalarLoop .ground text = (text, .ground) := by
    induction text with
    | nil => exact ⟨rfl, rfl⟩
    | cons ch text ih =>
      rw [List.forall_mem_cons] at h
      have hstep := scalarStep_ground h.1
      obtain ⟨hc, hl⟩ := ih h.2
      constructor
      · rw [clean, hstep, hc]
        rfl
      · rw [scalarLoop_cons, hstep, hl]
        rfl
  rw [terminalCapture_clean hclean.1, scalarCapture, hclean.2]

end LightTerminal.Sanitize.Losses
