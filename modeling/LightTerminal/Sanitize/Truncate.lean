import LightTerminal.Sanitize.Agreement

/-! # Cutting the status row to its width

`truncate_status_line_ansi` of `sanitize.rs` takes the line apart into control sequences and visible
text (`split_sgr_and_text`), which works on the bytes of the line and slices it by byte offsets,
and keeps as much of it as fits. A slice that does not fall on the boundaries of scalars is a panic
in the source and `none` here.

`scan` is the same splitting over scalars, without offsets. All bytes that the splitter singles out
are ASCII, so its offsets are boundaries and it finds the segments of `scan` (`splitSgrAndText_eq`).
Its segments are texts without `ESC` and complete sequences taken from the line (`scan_from`).

Grapheme clusters and widths come from the crates `unicode-segmentation` and `unicode-width`
(`Unicode`). -/

namespace LightTerminal.Sanitize.Truncate

open LightTerminal.Library.Utf8
open LightTerminal.Sanitize.Capture LightTerminal.Sanitize.Chunks LightTerminal.Sanitize.Scalars
open LightTerminal.Sanitize.Status LightTerminal.Sanitize.Agreement

/-! ### Splitting the line -/

/-- A line cut in two at a byte offset, which has to be the boundary of a scalar. -/
def splitAtByte : List Char → ℕ → Option (List Char × List Char)
  | text, 0 => some ([], text)
  | [], _ + 1 => none
  | ch :: text, n + 1 =>
    if ch.utf8Size ≤ n + 1 then
      (splitAtByte text (n + 1 - ch.utf8Size)).map fun (before, after) => (ch :: before, after)
    else none

/-- `&line[start..stop]`. -/
def slice (line : List Char) (start stop : ℕ) : Option (List Char) :=
  if start ≤ stop then do
    let (_, rest) ← splitAtByte line start
    let (text, _) ← splitAtByte rest (stop - start)
    some text
  else none

/-- `StatusSegment`. -/
inductive StatusSegment where
  | sgr (seq : List Char)
  | text (text : List Char)
  deriving DecidableEq, Repr

/-- The inner loop from `stop` on: where the control sequence ends, and whether it is kept. -/
def csiLoop : List UInt8 → ℕ → Bool → ℕ × Bool
  | [], stop, _ => (stop, false)
  | byte :: rest, stop, sgrValid =>
    if isParamByte byte then csiLoop rest (stop + 1) sgrValid
    else if byte = 0x6d then (stop + 1, sgrValid)
    else if 0x40 ≤ byte ∧ byte ≤ 0x7e then (stop + 1, false)
    else if byte = 0x1b then (stop, false)
    else csiLoop rest (stop + 1) false

/-- `if text_start < index { segments.push(Text(&line[text_start..index])) }`. -/
def textSegment (line : List Char) (textStart index : ℕ) : Option (List StatusSegment) :=
  if textStart < index then (slice line textStart index).map ([.text ·]) else some []

/-- The control sequence from `index` to `stop`, if it is kept. -/
def sgrSegment (line : List Char) (index : ℕ) (scanned : ℕ × Bool) :
    Option (List StatusSegment) :=
  if scanned.2 then (slice line index scanned.1).map ([.sgr ·]) else some []

/-- The outer loop at `index`: the first argument counts the bytes of the control sequence just
scanned that are still to be passed over. -/
def splitLoop (line : List Char) : ℕ → ℕ → ℕ → List UInt8 → Option (List StatusSegment)
  | _, index, textStart, [] => textSegment line textStart index
  | skip + 1, index, textStart, _ :: rest => splitLoop line skip (index + 1) textStart rest
  | 0, index, textStart, byte :: rest =>
    if byte = 0x1b then do
      let before ← textSegment line textStart index
      if rest.head? = some 0x5b then
        let scanned := csiLoop rest.tail (index + 2) true
        let sequence ← sgrSegment line index scanned
        let segments ← splitLoop line (scanned.1 - index - 1) (index + 1) scanned.1 rest
        some (before ++ sequence ++ segments)
      else
        let segments ← splitLoop line 0 (index + 1) (index + 1) rest
        some (before ++ segments)
    else splitLoop line 0 (index + 1) textStart rest

/-- `split_sgr_and_text`. -/
def splitSgrAndText (line : List Char) : Option (List StatusSegment) :=
  splitLoop line 0 0 0 (encode line)

/-! ### Cutting -/

/-- What the program takes from the Unicode crates: `graphemes(true)` and `width` of a string. -/
structure Unicode where
  graphemes : List Char → List (List Char)
  width : List Char → ℕ

/-- The line put together again, and whether a sequence was pushed. -/
def reassemble : List StatusSegment → List Char × Bool
  | [] => ([], false)
  | .sgr seq :: rest => (seq ++ (reassemble rest).1, true)
  | .text text :: rest => (text ++ (reassemble rest).1, (reassemble rest).2)

/-- The loop over the clusters of one text: what is pushed, the width used, and whether it
stopped at a cluster that does not fit. -/
def clusterLoop (u : Unicode) (target : ℕ) : ℕ → List (List Char) → List Char × ℕ × Bool
  | acc, [] => ([], acc, false)
  | acc, cluster :: rest =>
    if acc + u.width cluster > target then ([], acc, true)
    else
      let (out, acc, truncated) := clusterLoop u target (acc + u.width cluster) rest
      (cluster ++ out, acc, truncated)

/-- The loop over the segments: what is pushed, and whether a sequence was. -/
def segmentLoop (u : Unicode) (target : ℕ) : ℕ → List StatusSegment → List Char × Bool
  | _, [] => ([], false)
  | acc, .sgr seq :: rest =>
    if acc < target then (seq ++ (segmentLoop u target acc rest).1, true) else ([], false)
  | acc, .text text :: rest =>
    let (out, acc, truncated) := clusterLoop u target acc (u.graphemes text)
    if truncated then (out, false)
    else (out ++ (segmentLoop u target acc rest).1, (segmentLoop u target acc rest).2)

/-- `total_visible_width`. -/
def totalVisibleWidth (u : Unicode) (segments : List StatusSegment) : ℕ :=
  (segments.map fun
    | .text text => u.width text
    | .sgr _ => 0).sum

/-- The reset that closes a line in which a sequence was pushed. -/
def close (emittedSgr : Bool) (buf : List Char) : List Char :=
  if emittedSgr then buf ++ sgrReset else buf

/-- The body of `truncate_status_line_ansi` after the splitting, for a positive width. -/
def truncateSegments (u : Unicode) (width : ℕ) (segments : List StatusSegment) : List Char :=
  if totalVisibleWidth u segments ≤ width then
    close (reassemble segments).2 (reassemble segments).1
  else
    let ellipsisMargin := if 2 ≤ width then 1 else 0
    let pushed := segmentLoop u (width - ellipsisMargin) 0 segments
    close pushed.2 (if 0 < ellipsisMargin then pushed.1 ++ ['…'] else pushed.1)

/-- `truncate_status_line_ansi`. -/
def truncateStatusLineAnsi (u : Unicode) (line : List Char) (maxWidth : ℕ) : Option (List Char) :=
  if maxWidth = 0 then some [] else (splitSgrAndText line).map (truncateSegments u maxWidth)

/-! ### Splitting over scalars -/

/-- A segment with the parameters of its sequence. -/
inductive Segment where
  | text (text : List Char)
  | sgr (params : List UInt8)
  deriving DecidableEq, Repr

namespace Segment

def status : Segment → StatusSegment
  | .text shown => .text shown
  | .sgr params => .sgr (sgrText params)

def pieces : Segment → List Piece
  | .text shown => shown.map .text
  | .sgr params => [.sgr params]

end Segment

/-- Where the splitting stands: in a text, after `ESC`, or in a control sequence. -/
inductive Mode where
  | text (acc : List Char)
  | esc
  | csi (params : List UInt8) (valid : Bool)

/-- A text segment, if there is any text. -/
def flush (acc : List Char) : List Segment := if acc = [] then [] else [.text acc]

/-- The segments of a line. -/
def scan : Mode → List Char → List Segment
  | .text acc, [] => flush acc
  | .esc, [] => []
  | .csi _ _, [] => []
  | .text acc, ch :: rest =>
    if ch = '\u001b' then flush acc ++ scan .esc rest else scan (.text (acc ++ [ch])) rest
  | .esc, ch :: rest =>
    if ch = '[' then scan (.csi [] true) rest
    else if ch = '\u001b' then scan .esc rest
    else scan (.text [ch]) rest
  | .csi params valid, ch :: rest =>
    if isParamChar ch then scan (.csi (params ++ [UInt8.ofNat ch.toNat]) valid) rest
    else if ch = 'm' then (if valid then [.sgr params] else []) ++ scan (.text []) rest
    else if 0x40 ≤ ch.toNat ∧ ch.toNat ≤ 0x7e then scan (.text []) rest
    else if ch = '\u001b' then scan .esc rest
    else scan (.csi params false) rest

theorem scan_esc_eq {rest : List Char} (h : rest.head? ≠ some '[') :
    scan .esc rest = scan (.text []) rest := by
  cases rest with
  | nil => rfl
  | cons ch rest =>
    have hch : ch ≠ '[' := fun he => h (by rw [he]; rfl)
    simp only [scan, if_neg hch, flush, if_true, List.nil_append]

/-! ### Offsets -/

theorem length_encode_singleton (ch : Char) : (encode [ch]).length = ch.utf8Size := by
  simp [encode]

theorem splitAtByte_append (before after : List Char) :
    splitAtByte (before ++ after) (encode before).length = some (before, after) := by
  induction before with
  | nil =>
    cases after <;> rfl
  | cons ch before ih =>
    have hpos := ch.utf8Size_pos
    obtain ⟨n, hn⟩ : ∃ n, (encode (ch :: before)).length = n + 1 := by
      refine ⟨(encode (ch :: before)).length - 1, ?_⟩
      simp only [encode_cons, List.length_append, String.length_utf8EncodeChar]
      omega
    have hsub : n + 1 - ch.utf8Size = (encode before).length := by
      rw [← hn, encode_cons, List.length_append, String.length_utf8EncodeChar]
      omega
    have hle : ch.utf8Size ≤ n + 1 := by
      rw [← hn, encode_cons, List.length_append, String.length_utf8EncodeChar]
      omega
    rw [hn, List.cons_append, splitAtByte, if_pos hle, hsub, ih]
    rfl

theorem slice_append (before text after : List Char) :
    slice (before ++ (text ++ after)) (encode before).length
        ((encode before).length + (encode text).length) = some text := by
  have hsub : (encode before).length + (encode text).length - (encode before).length =
      (encode text).length := by omega
  unfold slice
  rw [if_pos (by omega), splitAtByte_append, hsub]
  simp only [Option.bind_eq_bind, Option.bind_some, splitAtByte_append]

theorem textSegment_append (before acc after : List Char) :
    textSegment (before ++ (acc ++ after)) (encode before).length
        ((encode before).length + (encode acc).length) =
      some ((flush acc).map Segment.status) := by
  unfold textSegment flush
  cases acc with
  | nil => simp
  | cons ch acc =>
    have hpos := ch.utf8Size_pos
    have hlt : (encode before).length <
        (encode before).length + (encode (ch :: acc)).length := by
      simp only [encode_cons, List.length_append, String.length_utf8EncodeChar]
      omega
    rw [if_pos hlt, slice_append, if_neg (by simp)]
    rfl

/-! ### The splitter passes over bytes -/

theorem splitLoop_skip (line : List Char) (textStart : ℕ) (more : List UInt8) :
    ∀ (bytes : List UInt8) (index : ℕ),
      splitLoop line bytes.length index textStart (bytes ++ more) =
        splitLoop line 0 (index + bytes.length) textStart more
  | [], _ => rfl
  | _ :: bytes, index => by
    rw [List.length_cons, List.cons_append, splitLoop, splitLoop_skip line textStart more bytes,
      Nat.add_assoc, Nat.add_comm 1]

theorem splitLoop_text (line : List Char) (textStart : ℕ) (more : List UInt8) :
    ∀ (bytes : List UInt8) (index : ℕ), (∀ byte ∈ bytes, byte ≠ 0x1b) →
      splitLoop line 0 index textStart (bytes ++ more) =
        splitLoop line 0 (index + bytes.length) textStart more
  | [], _, _ => rfl
  | byte :: bytes, index, h => by
    rw [List.cons_append, splitLoop, if_neg (h byte (List.mem_cons_self ..)),
      splitLoop_text line textStart more bytes _
        fun b hmem => h b (List.mem_cons_of_mem _ hmem), List.length_cons, Nat.add_assoc,
      Nat.add_comm 1]

theorem encodeChar_ne_esc {ch : Char} (h : ch ≠ '\u001b') :
    ∀ byte ∈ String.utf8EncodeChar ch, byte ≠ 0x1b := by
  intro byte hmem
  by_cases hwide : 0x7f < ch.toNat
  · have := encodeChar_wide_bytes hwide byte hmem
    rintro rfl
    exact absurd this (by decide)
  · rw [encodeChar_ascii (by omega)] at hmem
    rw [List.mem_singleton.mp hmem]
    exact of_each_ascii (p := fun ch => ch ≠ '\u001b' → UInt8.ofNat ch.toNat ≠ 0x1b)
      (by decide) (by omega) h

/-- The bytes of a scalar beyond ASCII invalidate the control sequence. -/
theorem csiLoop_wide (more : List UInt8) : ∀ (bytes : List UInt8) (stop : ℕ) (valid : Bool),
    (∀ byte ∈ bytes, 0x80 ≤ byte.toNat) → bytes ≠ [] →
      csiLoop (bytes ++ more) stop valid = csiLoop more (stop + bytes.length) false
  | [], _, _, _, hne => absurd rfl hne
  | byte :: bytes, stop, valid, h, _ => by
    have hb := h byte (List.mem_cons_self ..)
    have hne : ∀ n : UInt8, n.toNat < 0x80 → byte ≠ n := by
      rintro n hn rfl
      omega
    have hp : isParamByte byte = false := by
      simp only [isParamByte, UInt8.le_iff_toNat_le, hne 0x3b (by decide), hne 0x3a (by decide)]
      simp
      omega
    have hf : ¬ ((0x40 : UInt8) ≤ byte ∧ byte ≤ 0x7e) := by
      simp only [UInt8.le_iff_toNat_le]
      simp
      omega
    rw [List.cons_append, csiLoop, if_neg (by rw [hp]; simp), if_neg (hne 0x6d (by decide)),
      if_neg hf, if_neg (hne 0x1b (by decide)), List.length_cons]
    cases bytes with
    | nil => rfl
    | cons b bytes =>
      rw [csiLoop_wide more (b :: bytes) _ _ (fun b' hmem => h b' (List.mem_cons_of_mem _ hmem))
        (by simp), Nat.add_assoc, Nat.add_comm 1]

/-- What the inner loop finds from `stop` on: the scalars it passes over, and the parameters of a
sequence that is kept. -/
structure Scanned (line : List Char) (stop : ℕ) (valid : Bool) (consumed rest : List Char)
    (kept : Option (List UInt8)) : Prop where
  split : line = consumed ++ rest
  loop : csiLoop (encode line) stop valid = (stop + (encode consumed).length, kept.isSome)
  segments : ∀ params, scan (.csi params valid) line =
    (kept.elim [] fun more => [.sgr (params ++ more)]) ++ scan (.text []) rest
  params : ∀ params, kept = some params → (∀ byte ∈ params, isParamByte byte = true) ∧
    consumed = (params.map fun byte => Char.ofNat byte.toNat) ++ ['m']
  invalid : valid = false → kept = none

/-- How the two loops go on from one scalar: they agree on what it is. -/
theorem csiLoop_ascii {ch : Char} (h : ch.toNat ≤ 0x7f) (more : List UInt8) (stop : ℕ)
    (valid : Bool) :
    csiLoop (encode [ch] ++ more) stop valid =
      if isParamChar ch then csiLoop more (stop + 1) valid
      else if ch = 'm' then (stop + 1, valid)
      else if 0x40 ≤ ch.toNat ∧ ch.toNat ≤ 0x7e then (stop + 1, false)
      else if ch = '\u001b' then (stop, false)
      else csiLoop more (stop + 1) false := by
  have hall : (isParamByte (UInt8.ofNat ch.toNat) = isParamChar ch) ∧
      (UInt8.ofNat ch.toNat = 0x6d ↔ ch = 'm') ∧
      ((0x40 ≤ UInt8.ofNat ch.toNat ∧ UInt8.ofNat ch.toNat ≤ 0x7e) ↔
        (0x40 ≤ ch.toNat ∧ ch.toNat ≤ 0x7e)) ∧
      (UInt8.ofNat ch.toNat = 0x1b ↔ ch = '\u001b') :=
    of_each_ascii (p := fun ch => (isParamByte (UInt8.ofNat ch.toNat) = isParamChar ch) ∧
      (UInt8.ofNat ch.toNat = 0x6d ↔ ch = 'm') ∧
      ((0x40 ≤ UInt8.ofNat ch.toNat ∧ UInt8.ofNat ch.toNat ≤ 0x7e) ↔
        (0x40 ≤ ch.toNat ∧ ch.toNat ≤ 0x7e)) ∧
      (UInt8.ofNat ch.toNat = 0x1b ↔ ch = '\u001b')) (by decide) h
  obtain ⟨h1, h2, h3, h4⟩ := hall
  rw [encode_cons, encodeChar_ascii h, encode_nil, List.append_nil, List.singleton_append, csiLoop]
  simp only [h1, h2, h3, h4]

theorem isParamChar_ascii {ch : Char} (h : isParamChar ch = true) :
    ch.toNat ≤ 0x7f ∧ isParamByte (UInt8.ofNat ch.toNat) = true ∧
      Char.ofNat (UInt8.ofNat ch.toNat).toNat = ch := by
  have hle : ch.toNat ≤ 0x7f := by
    simp only [isParamChar, Bool.or_eq_true, Bool.and_eq_true, decide_eq_true_eq] at h
    rcases h with (⟨-, h⟩ | rfl) | rfl
    · have h9 : ch.toNat ≤ '9'.toNat := h
      exact h9.trans (by decide)
    · decide
    · decide
  refine ⟨hle, ?_⟩
  exact of_each_ascii (p := fun ch => isParamChar ch = true →
    isParamByte (UInt8.ofNat ch.toNat) = true ∧ Char.ofNat (UInt8.ofNat ch.toNat).toNat = ch)
    (by decide) hle h

theorem encode_cons_length (ch : Char) (text : List Char) :
    (encode (ch :: text)).length = ch.utf8Size + (encode text).length := by
  rw [encode_cons, List.length_append, String.length_utf8EncodeChar]

theorem utf8Size_ascii {ch : Char} (h : ch.toNat ≤ 0x7f) : ch.utf8Size = 1 := by
  rw [← String.length_utf8EncodeChar, encodeChar_ascii h, List.length_singleton]

/-- A scalar that invalidates the sequence. -/
theorem Scanned.invalidate {ch : Char} {line consumed rest : List Char} {stop : ℕ} {valid : Bool}
    {kept : Option (List UInt8)} (hs : Scanned line (stop + ch.utf8Size) false consumed rest kept)
    (hloop : csiLoop (encode (ch :: line)) stop valid =
      csiLoop (encode line) (stop + ch.utf8Size) false)
    (hscan : ∀ params, scan (.csi params valid) (ch :: line) = scan (.csi params false) line) :
    Scanned (ch :: line) stop valid (ch :: consumed) rest none := by
  have hnone := hs.invalid rfl
  subst hnone
  refine ⟨?_, ?_, fun params => ?_, by simp, fun _ => rfl⟩
  · rw [List.cons_append, ← hs.split]
  · rw [hloop, hs.loop, encode_cons_length, Nat.add_assoc]
  · rw [hscan, hs.segments]

theorem scan_csi_wide {ch : Char} (h : ¬ ch.toNat ≤ 0x7f) (params : List UInt8) (valid : Bool)
    (line : List Char) : scan (.csi params valid) (ch :: line) = scan (.csi params false) line := by
  have hp : ¬ isParamChar ch = true := fun hp => h (isParamChar_ascii hp).1
  have hm : ch ≠ 'm' := by
    rintro rfl
    exact h (by decide)
  have hf : ¬ (0x40 ≤ ch.toNat ∧ ch.toNat ≤ 0x7e) := by omega
  have hesc : ch ≠ '\u001b' := by
    rintro rfl
    exact h (by decide)
  rw [scan, if_neg hp, if_neg hm, if_neg hf, if_neg hesc]

/-- **The inner loop** over scalars. -/
theorem exists_scanned : ∀ (line : List Char) (stop : ℕ) (valid : Bool),
    ∃ consumed rest kept, Scanned line stop valid consumed rest kept
  | [], stop, valid =>
    ⟨[], [], none, rfl, rfl, fun _ => by simp [scan, flush], by simp, fun _ => rfl⟩
  | ch :: line, stop, valid => by
    by_cases hascii : ch.toNat ≤ 0x7f
    · have hsize := utf8Size_ascii hascii
      have hloop := csiLoop_ascii hascii (encode line) stop valid
      rw [← encode_append, List.singleton_append] at hloop
      by_cases hp : isParamChar ch = true
      · -- a parameter: one more byte of the sequence
        obtain ⟨consumed, rest, kept, hs⟩ := exists_scanned line (stop + 1) valid
        refine ⟨ch :: consumed, rest, kept.map (UInt8.ofNat ch.toNat :: ·), ?_, ?_, ?_, ?_, ?_⟩
        · rw [List.cons_append, ← hs.split]
        · rw [hloop, if_pos hp, hs.loop, encode_cons_length, hsize, Option.isSome_map,
            Nat.add_assoc]
        · intro params
          rw [scan, if_pos hp, hs.segments]
          cases kept <;> simp
        · intro params hk
          rw [Option.map_eq_some_iff] at hk
          obtain ⟨more, hk, rfl⟩ := hk
          obtain ⟨hall, hc⟩ := hs.params more hk
          obtain ⟨-, hbyte, hchar⟩ := isParamChar_ascii hp
          refine ⟨?_, by rw [List.map_cons, hchar, hc, List.cons_append]⟩
          intro byte hmem
          rcases List.mem_cons.mp hmem with rfl | hmem
          · exact hbyte
          · exact hall byte hmem
        · intro hv
          rw [hs.invalid hv, Option.map_none]
      by_cases hm : ch = 'm'
      · -- the final byte of a kept sequence, unless it was invalid
        refine ⟨[ch], line, if valid then some [] else none, rfl, ?_, ?_, ?_, ?_⟩
        · rw [hloop, if_neg hp, if_pos hm, length_encode_singleton, hsize]
          cases valid <;> rfl
        · intro params
          rw [scan, if_neg hp, if_pos hm]
          cases valid <;> simp
        · intro params hk
          cases valid with
          | false => cases hk
          | true =>
            obtain rfl := Option.some.inj hk
            exact ⟨by simp, by rw [hm]; rfl⟩
        · intro hv
          rw [hv]; rfl
      by_cases hf : 0x40 ≤ ch.toNat ∧ ch.toNat ≤ 0x7e
      · refine ⟨[ch], line, none, rfl, ?_, ?_, by simp, fun _ => rfl⟩
        · rw [hloop, if_neg hp, if_neg hm, if_pos hf, length_encode_singleton, hsize]
          rfl
        · intro params
          rw [scan, if_neg hp, if_neg hm, if_pos hf]
          rfl
      by_cases hesc : ch = '\u001b'
      · -- the next `ESC` is not part of the sequence
        refine ⟨[], ch :: line, none, rfl, ?_, ?_, by simp, fun _ => rfl⟩
        · rw [hloop, if_neg hp, if_neg hm, if_neg hf, if_pos hesc]
          rfl
        · intro params
          have hcsi : scan (.csi params valid) (ch :: line) = scan .esc line := by
            rw [scan, if_neg hp, if_neg hm, if_neg hf, if_pos hesc]
          have htext : scan (.text []) (ch :: line) = scan .esc line := by
            rw [scan, if_pos hesc]
            simp [flush]
          rw [hcsi, htext]
          rfl
      · obtain ⟨consumed, rest, kept, hs⟩ := exists_scanned line (stop + ch.utf8Size) false
        refine ⟨ch :: consumed, rest, none, hs.invalidate ?_ fun params => ?_⟩
        · rw [hloop, if_neg hp, if_neg hm, if_neg hf, if_neg hesc, hsize]
        · rw [scan, if_neg hp, if_neg hm, if_neg hf, if_neg hesc]
    · obtain ⟨consumed, rest, kept, hs⟩ := exists_scanned line (stop + ch.utf8Size) false
      refine ⟨ch :: consumed, rest, none, hs.invalidate ?_ fun params => scan_csi_wide hascii ..⟩
      rw [encode_cons, csiLoop_wide _ _ _ _ (encodeChar_wide_bytes (by omega))
        String.utf8EncodeChar_ne_nil, String.length_utf8EncodeChar]

/-- The byte `[` is the scalar `[`. -/
theorem encode_head_bracket {rest : List Char} (h : rest.head? ≠ some '[') :
    (encode rest).head? ≠ some 0x5b := by
  cases rest with
  | nil => simp
  | cons ch rest =>
    have hch : ch ≠ '[' := fun he => h (by rw [he]; rfl)
    rw [encode_cons]
    by_cases hascii : ch.toNat ≤ 0x7f
    · have hne := of_each_ascii (p := fun ch => ch ≠ '[' → UInt8.ofNat ch.toNat ≠ 0x5b)
        (by decide) hascii hch
      rw [encodeChar_ascii hascii]
      simpa using hne
    · obtain ⟨lead, tail, he, hl, -⟩ := encodeChar_wide (not_le.mp hascii)
      have hb := encodeChar_wide_bytes (not_le.mp hascii) lead (by rw [he]; simp)
      rw [he, List.cons_append, List.head?_cons, ne_eq, Option.some.injEq]
      rintro rfl
      exact absurd hb (by decide)

theorem sgrSegment_scanned {line consumed rest : List Char} {stop : ℕ} {valid : Bool}
    {kept : Option (List UInt8)} (hs : Scanned line stop valid consumed rest kept)
    (before : List Char) :
    sgrSegment (before ++ ('\u001b' :: '[' :: line)) (encode before).length
        ((encode before).length + (2 + (encode consumed).length), kept.isSome) =
      some ((kept.elim [] fun params => [Segment.sgr params]).map Segment.status) := by
  unfold sgrSegment
  cases hk : kept with
  | none => rfl
  | some params =>
    have hseq : '\u001b' :: '[' :: consumed = sgrText params := by
      rw [(hs.params params hk).2]; rfl
    have hlen : (encode ('\u001b' :: '[' :: consumed)).length = 2 + (encode consumed).length := by
      rw [encode_cons_length, encode_cons_length, utf8Size_ascii (by decide),
        utf8Size_ascii (by decide), ← Nat.add_assoc]
    have hline : before ++ ('\u001b' :: '[' :: line) =
        before ++ (('\u001b' :: '[' :: consumed) ++ rest) := by
      rw [hs.split]; rfl
    rw [hline, ← hlen]
    simp only [Option.isSome_some, if_true, slice_append, hseq]
    rfl

/-- **The outer loop** over scalars: at a boundary with the text `acc` not yet flushed. -/
theorem splitLoop_scan : ∀ (rest before acc : List Char),
    splitLoop (before ++ (acc ++ rest)) 0 ((encode before).length + (encode acc).length)
        (encode before).length (encode rest) =
      some ((scan (.text acc) rest).map Segment.status)
  | [], before, acc => by
    rw [encode_nil, splitLoop, textSegment_append]
    rfl
  | ch :: rest, before, acc => by
    by_cases hesc : ch = '\u001b'
    · subst hesc
      have hbyte : encode ('\u001b' :: rest) = 0x1b :: encode rest := by
        rw [encode_cons, encodeChar_ascii (by decide)]
        rfl
      have hone : '\u001b'.utf8Size = 1 := utf8Size_ascii (by decide)
      rw [hbyte, splitLoop, if_pos rfl, textSegment_append]
      simp only [Option.bind_eq_bind, Option.bind_some]
      by_cases hbr : rest.head? = some '['
      · -- a control sequence: the inner loop, then on from its end
        obtain ⟨more, rfl⟩ : ∃ more, rest = '[' :: more := by
          cases rest with
          | nil => cases hbr
          | cons c more => exact ⟨more, by rw [Option.some.inj hbr]⟩
        have hopen : encode ('[' :: more) = 0x5b :: encode more := by
          rw [encode_cons, encodeChar_ascii (by decide)]
          rfl
        have hbone : '['.utf8Size = 1 := utf8Size_ascii (by decide)
        obtain ⟨consumed, rest, kept, hs⟩ :=
          exists_scanned more ((encode before).length + (encode acc).length + 2) true
        have hscanned := sgrSegment_scanned hs (before ++ acc)
        have ih := splitLoop_scan rest (before ++ acc ++ '\u001b' :: '[' :: consumed) []
        have hlen : (encode (before ++ acc)).length =
            (encode before).length + (encode acc).length := by
          rw [encode_append, List.length_append]
        have hend : (encode (before ++ acc ++ '\u001b' :: '[' :: consumed)).length =
            (encode before).length + (encode acc).length + 2 + (encode consumed).length := by
          rw [encode_append, List.length_append, hlen, encode_cons_length, encode_cons_length, hone,
            hbone]
          omega
        have hskip := splitLoop_skip (before ++ (acc ++ '\u001b' :: '[' :: more))
          ((encode before).length + (encode acc).length + 2 + (encode consumed).length)
          (encode rest) (encode ('[' :: consumed))
          ((encode before).length + (encode acc).length + 1)
        have hcount : (encode ('[' :: consumed)).length = 1 + (encode consumed).length := by
          rw [encode_cons_length, hbone]
        have hrest : encode ('[' :: consumed) ++ encode rest = encode ('[' :: more) := by
          rw [hs.split, ← encode_append, List.cons_append]
        have hdist : (encode before).length + (encode acc).length + 2 + (encode consumed).length -
            ((encode before).length + (encode acc).length) - 1 = 1 + (encode consumed).length := by
          omega
        rw [hlen, List.append_assoc, ← Nat.add_assoc] at hscanned
        rw [hrest, hcount] at hskip
        have hsum : (encode before).length + (encode acc).length + 1 +
            (1 + (encode consumed).length) =
              (encode before).length + (encode acc).length + 2 + (encode consumed).length := by
          omega
        have hline : before ++ acc ++ '\u001b' :: '[' :: consumed ++ ([] ++ rest) =
            before ++ (acc ++ '\u001b' :: '[' :: more) := by
          rw [hs.split]; simp
        rw [hsum] at hskip
        rw [hend, hline, encode_nil, List.length_nil, Nat.add_zero] at ih
        rw [hopen, List.head?_cons, if_pos rfl, List.tail_cons, hs.loop]
        simp only [hscanned, hdist, Option.bind_some]
        rw [← hopen, hskip, ih]
        rw [scan, if_pos rfl, scan, if_pos rfl, hs.segments]
        simp
      · -- the `ESC` alone is dropped
        have ih := splitLoop_scan rest (before ++ acc ++ ['\u001b']) []
        have hend : (encode (before ++ acc ++ ['\u001b'])).length =
            (encode before).length + (encode acc).length + 1 := by
          rw [encode_append, encode_append, List.length_append, List.length_append,
            length_encode_singleton, hone]
        have hline : before ++ acc ++ ['\u001b'] ++ ([] ++ rest) =
            before ++ (acc ++ '\u001b' :: rest) := by simp
        rw [hend, hline, encode_nil, List.length_nil, Nat.add_zero] at ih
        rw [if_neg (encode_head_bracket hbr), ih, scan, if_pos rfl, scan_esc_eq hbr]
        simp
    · have hstep := splitLoop_text (before ++ (acc ++ ch :: rest)) (encode before).length
        (encode rest) (String.utf8EncodeChar ch) ((encode before).length + (encode acc).length)
        (encodeChar_ne_esc hesc)
      have ih := splitLoop_scan rest before (acc ++ [ch])
      have hlen : (encode (acc ++ [ch])).length = (encode acc).length + ch.utf8Size := by
        rw [encode_append, List.length_append, length_encode_singleton]
      rw [hlen, ← Nat.add_assoc, List.append_assoc acc, List.singleton_append] at ih
      rw [encode_cons, hstep, String.length_utf8EncodeChar, ih, scan, if_neg hesc]
  termination_by rest => rest.length
  decreasing_by
    · have := congrArg List.length hs.split
      simp_all
      omega
    · simp
    · simp

/-- **The splitter**: every slice falls on the boundaries of scalars, and the segments are those
of `scan`. -/
theorem splitSgrAndText_eq (line : List Char) :
    splitSgrAndText line = some ((scan (.text []) line).map Segment.status) :=
  splitLoop_scan line [] []

/-! ### What the segments of any line are -/

/-- A text without `ESC`, or a complete sequence taken from the line. -/
def Segment.From (line : List Char) : Segment → Prop
  | .text shown => '\u001b' ∉ shown
  | .sgr params => (∀ byte ∈ params, isParamByte byte = true) ∧ sgrText params <:+: line

/-- What the splitting has behind it. -/
def Mode.After (before : List Char) : Mode → Prop
  | .text acc => '\u001b' ∉ acc
  | .esc => ['\u001b'] <:+ before
  | .csi params valid => valid = true → (∀ byte ∈ params, isParamByte byte = true) ∧
      '\u001b' :: '[' :: (params.map fun byte => Char.ofNat byte.toNat) <:+ before

theorem suffix_concat {α : Type*} {a b : List α} (x : α) (h : a <:+ b) :
    a ++ [x] <:+ b ++ [x] := by
  obtain ⟨c, rfl⟩ := h
  exact ⟨c, by simp⟩

theorem flush_from {acc line : List Char} (h : '\u001b' ∉ acc) :
    ∀ segment ∈ flush acc, segment.From line := by
  unfold flush
  split_ifs
  · simp
  · simpa [Segment.From] using h

theorem scan_from : ∀ (rest before : List Char) (mode : Mode), mode.After before →
    ∀ segment ∈ scan mode rest, segment.From (before ++ rest)
  | [], before, mode, h => by
    cases mode with
    | text acc => exact flush_from h
    | esc => simp [scan]
    | csi params valid => simp [scan]
  | ch :: rest, before, mode, h => by
    have ih := scan_from rest (before ++ [ch])
    simp only [List.append_assoc, List.singleton_append] at ih
    have hfresh : (Mode.text []).After (before ++ [ch]) := by simp [Mode.After]
    cases mode with
    | text acc =>
      have hacc : '\u001b' ∉ acc := h
      rw [scan]
      split_ifs with hesc
      · intro segment hmem
        rcases List.mem_append.mp hmem with hmem | hmem
        · exact flush_from hacc segment hmem
        · exact ih .esc ⟨before, by rw [hesc]⟩ segment hmem
      · refine ih _ ?_
        simp only [Mode.After, List.mem_append, List.mem_singleton, not_or]
        exact ⟨hacc, fun he => hesc he.symm⟩
    | esc =>
      have hbefore : ['\u001b'] <:+ before := h
      rw [scan]
      split_ifs with hbr hesc
      · refine ih _ fun _ => ⟨by simp, ?_⟩
        rw [hbr]
        exact suffix_concat '[' hbefore
      · exact ih .esc ⟨before, by rw [hesc]⟩
      · refine ih _ ?_
        simp only [Mode.After, List.mem_singleton]
        exact fun he => hesc he.symm
    | csi params valid =>
      have hseq : valid = true → _ := h
      rw [scan]
      split_ifs with hp hm hv hf hesc
      · refine ih _ fun hval => ?_
        obtain ⟨hall, hsuf⟩ := hseq hval
        obtain ⟨-, hbyte, hchar⟩ := isParamChar_ascii hp
        refine ⟨?_, ?_⟩
        · intro byte hmem
          rcases List.mem_append.mp hmem with hmem | hmem
          · exact hall byte hmem
          · rw [List.mem_singleton.mp hmem]; exact hbyte
        · rw [List.map_append, List.map_singleton, hchar]
          exact suffix_concat ch hsuf
      · intro segment hmem
        rcases List.mem_append.mp hmem with hmem | hmem
        · rw [List.mem_singleton.mp hmem]
          obtain ⟨hall, hsuf⟩ := hseq hv
          have hsuf := suffix_concat ch hsuf
          rw [hm] at hsuf
          obtain ⟨front, hfront⟩ := hsuf
          refine ⟨hall, front, rest, ?_⟩
          have hline := congrArg (· ++ rest) hfront
          simpa [sgrText, hm] using hline
        · exact ih _ hfresh segment hmem
      · exact ih _ hfresh
      · exact ih _ hfresh
      · exact ih .esc ⟨before, by rw [hesc]⟩
      · exact ih _ (by simp [Mode.After])

end LightTerminal.Sanitize.Truncate
