import LightTerminal.Data.Text
import LightTerminal.Sanitize.Truncate

/-! # Slices of a string

A slice `&text[start..stop]` is cut at byte offsets, and panics inside a character (`slice`, which is `none`
then). The offsets between two characters are the lengths of the beginnings of the text. -/

namespace LightTerminal.Data.Slices

open LightTerminal.Data.Text LightTerminal.Library.Utf8 LightTerminal.Sanitize.Truncate

theorem byteLen_eq (text : Str) : byteLen text = (encode text).length := by
  induction text with
  | nil => rfl
  | cons ch text ih =>
    rw [encode_cons_length, ← ih]
    simp [byteLen]

theorem slice_to (before after : Str) : slice (before ++ after) 0 (byteLen before) = some before := by
  have hslice := slice_append [] before after
  rw [byteLen_eq]
  simpa [encode] using hslice

theorem slice_from (before after : Str) :
    slice (before ++ after) (byteLen before) (byteLen (before ++ after)) = some after := by
  have hslice := slice_append before after []
  have hlength : byteLen (before ++ after) = (encode before).length + (encode after).length := by
    rw [byteLen_eq, encode_append, List.length_append]
  rw [hlength, byteLen_eq]
  simpa using hslice

theorem slice_mid (before text after : Str) :
    slice (before ++ (text ++ after)) (byteLen before) (byteLen before + byteLen text) = some text := by
  rw [byteLen_eq, byteLen_eq]
  exact slice_append before text after

theorem length_le_byteLen (text : Str) : text.length ≤ byteLen text := by
  induction text with
  | nil => exact le_rfl
  | cons ch text ih =>
    have hpos := ch.utf8Size_pos
    rw [byteLen_cons, List.length_cons]
    omega

theorem byteLen_ascii {text : Str} (h : ∀ ch ∈ text, ch.toNat < 128) : byteLen text = text.length := by
  induction text with
  | nil => rfl
  | cons ch text ih =>
    rw [List.forall_mem_cons] at h
    have hsize : ch.utf8Size = 1 := utf8Size_ascii (by omega)
    rw [byteLen_cons, ih h.2, hsize, List.length_cons]
    omega

end LightTerminal.Data.Slices
