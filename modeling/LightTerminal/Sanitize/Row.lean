import LightTerminal.Sanitize.Truncate

/-! # The status row stays in its row

What `truncate_status_line_ansi` keeps of a line is a beginning of its pieces (`shown_begins`), with
an ellipsis and a closing reset behind it. On a row that `sanitize_status_command_line` has written
the segments are the runs of text between the sequences (`scan_render`), so that the width of what
is kept, measured again, is the width the loop has counted (`textWidth_shown`).

Of the output of the command only the first line matters: decoding never looks past a line end
(`decodeUtf8Char_firstLine`). -/

namespace LightTerminal.Sanitize.Row

open LightTerminal.Library.Utf8
open LightTerminal.Sanitize.Capture LightTerminal.Sanitize.Chunks LightTerminal.Sanitize.Scalars
open LightTerminal.Sanitize.Status LightTerminal.Sanitize.Agreement
open LightTerminal.Sanitize.Truncate

/-! ### What is kept of the segments -/

/-- What the program relies on in the Unicode crates: the clusters make up the text, cutting a text
between two clusters leaves the clusters before the cut as they are, the width of a text is the sum
of the widths of its clusters, and the ellipsis adds one column. -/
structure Lawful (u : Unicode) : Prop where
  flatten : ∀ text, (u.graphemes text).flatten = text
  stable : ∀ text clusters, clusters <+: u.graphemes text →
    u.graphemes clusters.flatten = clusters
  width_sum : ∀ text, u.width text = ((u.graphemes text).map u.width).sum
  ellipsis : u.width ['…'] = 1
  width_ellipsis : ∀ text, u.width (text ++ ['…']) = u.width text + u.width ['…']

theorem Lawful.width_clusters {u : Unicode} (hu : Lawful u) {text : List Char}
    {clusters : List (List Char)} (h : clusters <+: u.graphemes text) :
    u.width clusters.flatten = (clusters.map u.width).sum := by
  rw [hu.width_sum, hu.stable text clusters h]

theorem Lawful.width_nil {u : Unicode} (hu : Lawful u) : u.width [] = 0 :=
  hu.width_clusters (List.nil_prefix (l := u.graphemes []))

/-- The loop over the clusters pushes the first of them, as many as fit. -/
theorem clusterLoop_spec (u : Unicode) (target : ℕ) : ∀ (clusters : List (List Char)) (acc : ℕ),
    ∃ shown, shown <+: clusters ∧ (clusterLoop u target acc clusters).1 = shown.flatten ∧
      (clusterLoop u target acc clusters).2.1 = acc + (shown.map u.width).sum ∧
      (acc ≤ target → (clusterLoop u target acc clusters).2.1 ≤ target) ∧
      ((clusterLoop u target acc clusters).2.2 = false → shown = clusters)
  | [], acc => ⟨[], List.nil_prefix, rfl, rfl, fun h => h, fun _ => rfl⟩
  | cluster :: rest, acc => by
    by_cases hfit : acc + u.width cluster > target
    · refine ⟨[], List.nil_prefix, ?_, ?_, ?_, ?_⟩
      all_goals simp [clusterLoop, hfit]
    · obtain ⟨shown, hpre, hout, hacc, hle, hall⟩ := clusterLoop_spec u target rest
        (acc + u.width cluster)
      have hloop : clusterLoop u target acc (cluster :: rest) =
          (cluster ++ (clusterLoop u target (acc + u.width cluster) rest).1,
            (clusterLoop u target (acc + u.width cluster) rest).2.1,
            (clusterLoop u target (acc + u.width cluster) rest).2.2) := by
        rw [clusterLoop, if_neg hfit]
      refine ⟨cluster :: shown, (List.prefix_cons_inj cluster).mpr hpre, ?_, ?_, ?_, ?_⟩
      · rw [hloop, hout, List.flatten_cons]
      · rw [hloop]
        simp only [hacc, List.map_cons, List.sum_cons]
        omega
      · intro _
        rw [hloop]
        exact hle (by omega)
      · intro htr
        rw [hloop] at htr
        rw [hall htr]

/-- The pieces that the loop over the segments pushes. -/
def shown (u : Unicode) (target : ℕ) : ℕ → List Segment → List Piece
  | _, [] => []
  | acc, .sgr params :: rest => if acc < target then .sgr params :: shown u target acc rest else []
  | acc, .text text :: rest =>
    let loop := clusterLoop u target acc (u.graphemes text)
    loop.1.map .text ++ if loop.2.2 then [] else shown u target loop.2.1 rest

theorem render_text (text : List Char) : (text.map Piece.text).flatMap Piece.render = text := by
  induction text with
  | nil => rfl
  | cons ch text ih => rw [List.map_cons, List.flatMap_cons, ih]; rfl

theorem isSgr_text (text : List Char) : (text.map Piece.text).any Piece.isSgr = false := by
  simp [Piece.isSgr]

theorem segmentLoop_shown (u : Unicode) (target : ℕ) : ∀ (segments : List Segment) (acc : ℕ),
    segmentLoop u target acc (segments.map Segment.status) =
      ((shown u target acc segments).flatMap Piece.render,
        (shown u target acc segments).any Piece.isSgr)
  | [], _ => rfl
  | .sgr params :: rest, acc => by
    rw [List.map_cons, Segment.status, segmentLoop, shown, segmentLoop_shown u target rest acc]
    split_ifs
    · simp [Piece.render, Piece.isSgr]
    · rfl
  | .text text :: rest, acc => by
    rw [List.map_cons, Segment.status, segmentLoop, shown]
    simp only [segmentLoop_shown u target rest]
    split_ifs
    · simp only [List.append_nil, render_text, isSgr_text]
    · simp only [List.flatMap_append, List.any_append, render_text, isSgr_text, Bool.false_or]

theorem reassemble_pieces : ∀ segments : List Segment,
    reassemble (segments.map Segment.status) =
      ((segments.flatMap Segment.pieces).flatMap Piece.render,
        (segments.flatMap Segment.pieces).any Piece.isSgr)
  | [] => rfl
  | .sgr params :: rest => by
    rw [List.map_cons, Segment.status, reassemble, reassemble_pieces rest, List.flatMap_cons,
      Segment.pieces, List.flatMap_append, List.any_append]
    simp [Piece.render, Piece.isSgr]
  | .text text :: rest => by
    rw [List.map_cons, Segment.status, reassemble, reassemble_pieces rest, List.flatMap_cons,
      Segment.pieces, List.flatMap_append, List.any_append, render_text, isSgr_text,
      Bool.false_or]

/-- What is pushed is the beginning of the line. -/
theorem shown_begins {u : Unicode} (hu : Lawful u) (target : ℕ) :
    ∀ (segments : List Segment) (acc : ℕ),
      shown u target acc segments <+: segments.flatMap Segment.pieces
  | [], _ => List.nil_prefix
  | .sgr params :: rest, acc => by
    rw [shown, List.flatMap_cons, Segment.pieces, List.singleton_append]
    split_ifs
    · exact (List.prefix_cons_inj _).mpr (shown_begins hu target rest acc)
    · exact List.nil_prefix
  | .text text :: rest, acc => by
    obtain ⟨clusters, hpre, hout, -, -, hall⟩ := clusterLoop_spec u target (u.graphemes text) acc
    rw [shown, List.flatMap_cons, Segment.pieces]
    split_ifs with htr
    · obtain ⟨others, hothers⟩ := hpre
      rw [hout, List.append_nil]
      refine List.IsPrefix.trans ?_ (List.prefix_append _ _)
      refine ⟨others.flatten.map .text, ?_⟩
      rw [← List.map_append, ← List.flatten_append, hothers, hu.flatten]
    · rw [hout, hall (by simpa using htr), hu.flatten]
      exact (List.prefix_append_right_inj _).mpr (shown_begins hu target rest _)

/-! ### The segments of a row -/

/-- The segments of a row: the runs of text between the sequences. -/
def group : List Char → List Piece → List Segment
  | acc, [] => flush acc
  | acc, .text ch :: pieces => group (acc ++ [ch]) pieces
  | acc, .sgr params :: pieces => flush acc ++ .sgr params :: group [] pieces

set_option maxRecDepth 4000 in
theorem scan_params (rest : List Char) : ∀ (params done : List UInt8),
    (∀ byte ∈ params, isParamByte byte = true) →
      scan (.csi done true) ((params.map fun byte => Char.ofNat byte.toNat) ++ 'm' :: rest) =
        .sgr (done ++ params) :: scan (.text []) rest
  | [], done, _ => by
    rw [List.map_nil, List.nil_append, scan, if_neg (by decide), if_pos rfl]
    simp
  | byte :: params, done, h => by
    have hb := h byte (List.mem_cons_self ..)
    have hback : UInt8.ofNat (Char.ofNat byte.toNat).toNat = byte :=
      of_each_byte (p := fun byte => isParamByte byte = true →
        UInt8.ofNat (Char.ofNat byte.toNat).toNat = byte) (by decide) byte hb
    rw [List.map_cons, List.cons_append, scan, if_pos (isParamChar_byte byte hb), hback,
      scan_params rest params _ fun b hmem => h b (List.mem_cons_of_mem _ hmem)]
    simp

theorem scan_render : ∀ (pieces : List Piece) (acc : List Char), (∀ piece ∈ pieces, piece.Ok) →
    scan (.text acc) (pieces.flatMap Piece.render) = group acc pieces
  | [], acc, _ => by
    rw [List.flatMap_nil, scan, group]
  | .text ch :: pieces, acc, h => by
    have hne : ch ≠ '\u001b' := by
      rintro rfl
      exact absurd (h _ (List.mem_cons_self ..)) (by simp [Piece.Ok, isC0OrC1])
    rw [List.flatMap_cons, Piece.render, List.singleton_append, scan, if_neg hne, group,
      scan_render pieces _ fun piece hmem => h piece (List.mem_cons_of_mem _ hmem)]
  | .sgr params :: pieces, acc, h => by
    have hp : (Piece.sgr params).Ok := h _ (List.mem_cons_self ..)
    have hrest : (Piece.sgr params :: pieces).flatMap Piece.render =
        '\u001b' :: '[' :: ((params.map fun byte => Char.ofNat byte.toNat) ++
          'm' :: pieces.flatMap Piece.render) := by
      rw [List.flatMap_cons, Piece.render, sgrText]
      simp
    rw [hrest, scan, if_pos rfl, scan, if_pos rfl, scan_params _ params [] hp.1, group,
      scan_render pieces [] fun piece hmem => h piece (List.mem_cons_of_mem _ hmem)]
    rfl

theorem flush_pieces (acc : List Char) : (flush acc).flatMap Segment.pieces = acc.map .text := by
  unfold flush
  split_ifs with h
  · rw [h]; rfl
  · simp [Segment.pieces]

theorem group_pieces : ∀ (pieces : List Piece) (acc : List Char),
    (group acc pieces).flatMap Segment.pieces = acc.map .text ++ pieces
  | [], acc => by rw [group, flush_pieces, List.append_nil]
  | .text ch :: pieces, acc => by
    rw [group, group_pieces pieces]
    simp
  | .sgr params :: pieces, acc => by
    rw [group, List.flatMap_append, flush_pieces, List.flatMap_cons, group_pieces pieces []]
    simp [Segment.pieces]

/-- No two texts stand side by side. -/
def Apart (segments : List Segment) : Prop :=
  segments.IsChain fun a b => ¬ ((∃ x, a = .text x) ∧ ∃ y, b = .text y)

theorem group_apart : ∀ (pieces : List Piece) (acc : List Char), Apart (group acc pieces)
  | [], acc => by
    unfold group flush Apart
    split_ifs
    · exact List.IsChain.nil
    · exact List.IsChain.singleton _
  | .text ch :: pieces, acc => group_apart pieces (acc ++ [ch])
  | .sgr params :: pieces, acc => by
    have ih := group_apart pieces []
    have hsgr : Apart (.sgr params :: group [] pieces) := by
      unfold Apart at ih ⊢
      refine List.isChain_cons.mpr ⟨?_, ih⟩
      rintro b - ⟨⟨x, hx⟩, -⟩
      cases hx
    unfold group flush
    split_ifs
    · exact hsgr
    · refine List.isChain_cons_cons.mpr ⟨?_, hsgr⟩
      rintro ⟨-, y, hy⟩
      cases hy

theorem group_text (text : List Char) (pieces : List Piece) : ∀ acc : List Char,
    group acc (text.map .text ++ pieces) = group (acc ++ text) pieces := by
  induction text with
  | nil => simp
  | cons ch text ih =>
    intro acc
    rw [List.map_cons, List.cons_append, group, ih]
    simp

theorem group_sgr_last (params : List UInt8) : ∀ (pieces : List Piece) (acc : List Char),
    group acc (pieces ++ [.sgr params]) = group acc pieces ++ [.sgr params]
  | [], acc => by simp [group, flush]
  | .text ch :: pieces, acc => by
    rw [List.cons_append, group, group, group_sgr_last params pieces]
  | .sgr params' :: pieces, acc => by
    rw [List.cons_append, group, group, group_sgr_last params pieces]
    simp

/-! ### The width of what is kept -/

/-- The width of the texts among the segments. -/
def textWidth (u : Unicode) (segments : List Segment) : ℕ :=
  totalVisibleWidth u (segments.map Segment.status)

section Width
variable {u : Unicode}

theorem textWidth_append (a b : List Segment) :
    textWidth u (a ++ b) = textWidth u a + textWidth u b := by
  simp [textWidth, totalVisibleWidth]

theorem textWidth_sgr (params : List UInt8) (segments : List Segment) :
    textWidth u (.sgr params :: segments) = textWidth u segments := by
  simp [textWidth, totalVisibleWidth, Segment.status]

theorem textWidth_flush (hu : Lawful u) (text : List Char) :
    textWidth u (flush text) = u.width text := by
  unfold flush
  split_ifs with h
  · rw [h, hu.width_nil]; rfl
  · simp [textWidth, totalVisibleWidth, Segment.status]

/-- **The width of what is pushed**, with `final` (the ellipsis, or nothing) put behind it: what
was left of the target, and the columns of `final`. -/
theorem textWidth_shown (hu : Lawful u) (target : ℕ) (final : List Char) (margin : ℕ)
    (hfinal : ∀ text, u.width (text ++ final) ≤ u.width text + margin) :
    ∀ (segments : List Segment) (acc : ℕ), Apart segments → acc ≤ target →
      textWidth u (group [] (shown u target acc segments ++ final.map .text)) + acc ≤
        target + margin
  | [], acc, _, hacc => by
    have h := hfinal []
    rw [hu.width_nil, List.nil_append] at h
    have hg := group_text final [] []
    rw [List.append_nil, List.nil_append] at hg
    rw [shown, List.nil_append, hg, group, textWidth_flush hu]
    omega
  | .sgr params :: rest, acc, hap, hacc => by
    have hrest : Apart rest := (List.isChain_cons.mp hap).2
    rw [shown]
    split_ifs with hlt
    · rw [List.cons_append, group, show flush [] = [] from rfl, List.nil_append, textWidth_sgr]
      exact textWidth_shown hu target final margin hfinal rest acc hrest hacc
    · have h := hfinal []
      rw [hu.width_nil, List.nil_append] at h
      have hg := group_text final [] []
      rw [List.append_nil, List.nil_append] at hg
      rw [List.nil_append, hg, group, textWidth_flush hu]
      omega
  | .text text :: rest, acc, hap, hacc => by
    obtain ⟨clusters, hpre, hout, hused, hle, hall⟩ :=
      clusterLoop_spec u target (u.graphemes text) acc
    have hwidth := hu.width_clusters hpre
    have hle := hle hacc
    -- the text pushed with `final` right behind it
    have hlast : textWidth u (group [] (clusters.flatten.map .text ++ final.map .text)) + acc ≤
        target + margin := by
      have hg := group_text final [] clusters.flatten
      rw [List.append_nil] at hg
      rw [group_text, List.nil_append, hg, group, textWidth_flush hu]
      have := hfinal clusters.flatten
      omega
    rw [shown, hout]
    split_ifs with htr
    · rw [List.append_nil]; exact hlast
    · cases rest with
      | nil => rw [shown, List.append_nil]; exact hlast
      | cons next rest =>
        cases next with
        | text other =>
          exact absurd ⟨⟨text, rfl⟩, other, rfl⟩ (List.isChain_cons_cons.mp hap).1
        | sgr params =>
          have hap' : Apart rest := (List.isChain_cons.mp (List.isChain_cons.mp hap).2).2
          rw [shown]
          split_ifs with hlt
          · have ih := textWidth_shown hu target final margin hfinal rest _ hap' hle
            rw [List.append_assoc, group_text, List.nil_append, List.cons_append, group,
              textWidth_append, textWidth_flush hu, textWidth_sgr, hwidth]
            omega
          · rw [List.append_nil]; exact hlast

end Width

/-! ### The first line -/

/-- The first line of the input. -/
def firstLine (bytes : List UInt8) : List UInt8 := bytes.takeWhile fun byte => !isLineEnd byte

theorem isLineEnd_wide {byte : UInt8} (h : 0x80 ≤ byte.toNat) : isLineEnd byte = false := by
  have hne : ∀ n : UInt8, n.toNat < 0x80 → byte ≠ n := by
    rintro n hn rfl
    omega
  simp [isLineEnd, hne 0x0a (by decide), hne 0x0d (by decide)]

theorem take_takeWhile {α : Type*} (p : α → Bool) : ∀ (n : ℕ) (l : List α),
    (∀ x ∈ l.take n, p x = true) → (l.takeWhile p).take n = l.take n
  | 0, _, _ => rfl
  | _ + 1, [], _ => rfl
  | n + 1, x :: l, h => by
    have hx : p x = true := h x (by simp)
    rw [List.takeWhile_cons, if_pos hx, List.take_succ_cons, List.take_succ_cons,
      take_takeWhile p n l fun y hy => h y (by simp [hy])]

theorem drop_takeWhile {α : Type*} (p : α → Bool) : ∀ (n : ℕ) (l : List α),
    n ≤ (l.takeWhile p).length → (l.drop n).takeWhile p = (l.takeWhile p).drop n
  | 0, _, _ => rfl
  | _ + 1, [], _ => rfl
  | n + 1, x :: l, h => by
    rw [List.takeWhile_cons] at h ⊢
    split_ifs at h ⊢ with hx
    · rw [List.drop_succ_cons, List.drop_succ_cons]
      exact drop_takeWhile p n l (by simpa using h)
    · simp at h

/-- A line end is no part of a scalar, so decoding does not look past it. -/
theorem decodeUtf8Char_firstLine (byte : UInt8) (rest : List UInt8) :
    decodeUtf8Char (byte :: firstLine rest) = decodeUtf8Char (byte :: rest) := by
  have hsplit : firstLine rest ++ rest.dropWhile (fun byte => !isLineEnd byte) = rest :=
    List.takeWhile_append_dropWhile
  rcases hd : decodeUtf8Char (byte :: rest) with _ | ⟨ch, len⟩
  · -- what decodes without the rest decodes with it
    rcases hd' : decodeUtf8Char (byte :: firstLine rest) with _ | ⟨ch, len⟩
    · rfl
    · have hinc : isIncompleteUtf8 (byte :: firstLine rest) = false := by
        rw [Bool.eq_false_iff]
        intro hi
        obtain ⟨width, hw, hlt⟩ := (isIncompleteUtf8_cons _ _).mp hi
        rw [decodeUtf8Char_cons, hw, Option.bind_some, if_pos hlt] at hd'
        cases hd'
      have happ := decodeUtf8Char_append (rest.dropWhile fun byte => !isLineEnd byte) hinc
      rw [hsplit, hd, hd'] at happ
      cases happ
  · have htake := decodeUtf8Char_take hd
    have hbound := decodeUtf8Char_len hd
    obtain ⟨n, rfl⟩ : ∃ n, len = n + 1 := ⟨len - 1, by omega⟩
    rw [List.take_succ_cons] at htake
    have hends : ∀ b ∈ rest.take n, (!isLineEnd b) = true := by
      by_cases hascii : ch.toNat ≤ 0x7f
      · rw [encodeChar_ascii hascii] at htake
        rw [(List.cons.inj htake).2]
        simp
      · intro b hmem
        have hb := encodeChar_wide_bytes (not_le.mp hascii) b
          (by rw [← htake]; exact List.mem_cons_of_mem _ hmem)
        rw [isLineEnd_wide hb]
        rfl
    have hsame : (firstLine rest).take n = rest.take n := take_takeWhile _ n rest hends
    have hlen : n ≤ (firstLine rest).length := by
      have := congrArg List.length hsame
      rw [List.length_take, List.length_take] at this
      omega
    rw [decodeUtf8Char_cons] at hd ⊢
    rcases hw : utf8CharWidth byte with _ | width
    · simp [hw] at hd
    · rw [hw, Option.bind_some] at hd
      split_ifs at hd
      simp only [Option.map_eq_some_iff, Prod.mk.injEq] at hd
      obtain ⟨c, hdec, rfl, rfl⟩ := hd
      rw [Option.bind_some, if_neg (by omega), List.take_succ_cons, hsame,
        ← List.take_succ_cons, hdec]
      rfl

theorem statusStep_congr {byte : UInt8} {rest rest' : List UInt8} (allowColor : Bool)
    (st : StatusState) (h : decodeUtf8Char (byte :: rest) = decodeUtf8Char (byte :: rest')) :
    statusStep allowColor st byte rest = statusStep allowColor st byte rest' := by
  unfold statusStep statusGround statusCsi statusString statusStringEsc statusDecode
  rw [h]

/-- **Only the first line matters.** -/
theorem statusLoop_firstLine (allowColor : Bool) (st : StatusState) (bytes : List UInt8) :
    statusLoop allowColor 0 st (firstLine bytes) = statusLoop allowColor 0 st bytes := by
  refine statusLoop_induction allowColor
    (motive := fun st bytes =>
      statusLoop allowColor 0 st (firstLine bytes) = statusLoop allowColor 0 st bytes)
    ?_ ?_ ?_ st bytes
  · intro st
    rfl
  · intro st byte rest hline
    rw [statusLoop_end allowColor st rest hline, firstLine, List.takeWhile_cons,
      if_neg (by rw [hline]; simp), statusLoop]
  · intro st byte rest hline ih
    have hfirst : firstLine (byte :: rest) = byte :: firstLine rest := by
      rw [firstLine, List.takeWhile_cons, if_pos (by rw [hline]; rfl), firstLine]
    have hstep := statusStep_congr allowColor st (decodeUtf8Char_firstLine byte rest)
    have hlen := (statusStep_len allowColor st byte (firstLine rest)).2
    have hdrop : firstLine ((byte :: rest).drop (statusStep allowColor st byte rest).len) =
        (byte :: firstLine rest).drop (statusStep allowColor st byte rest).len := by
      rw [← hfirst]
      refine drop_takeWhile _ _ _ ?_
      rw [← firstLine, hfirst, List.length_cons, ← hstep]
      exact hlen
    rw [hfirst, statusLoop_next hline hstep, statusLoop_next hline rfl, ← hdrop, ih]

/-! ### The cut line -/

/-- The pieces of the line that are kept. -/
def keptPieces (u : Unicode) (width : ℕ) (segments : List Segment) : List Piece :=
  if textWidth u segments ≤ width then segments.flatMap Segment.pieces
  else shown u (width - if 2 ≤ width then 1 else 0) 0 segments

/-- The ellipsis, where the line is cut and there is room for it. -/
def finalText (u : Unicode) (width : ℕ) (segments : List Segment) : List Char :=
  if textWidth u segments ≤ width then [] else if 2 ≤ width then ['…'] else []

/-- The reset that closes a line with sequences in it. -/
def closing (pieces : List Piece) : List Piece :=
  if pieces.any Piece.isSgr then [.sgr [0x30]] else []

theorem closing_render (pieces : List Piece) :
    (closing pieces).flatMap Piece.render = if pieces.any Piece.isSgr then sgrReset else [] := by
  unfold closing
  split_ifs
  · rw [sgrReset_eq, List.flatMap_singleton, Piece.render]
  · rfl

theorem truncateSegments_eq (u : Unicode) (width : ℕ) (segments : List Segment) :
    truncateSegments u width (segments.map Segment.status) =
      (keptPieces u width segments ++ (finalText u width segments).map Piece.text ++
        closing (keptPieces u width segments)).flatMap Piece.render := by
  rw [List.flatMap_append, List.flatMap_append, closing_render, render_text]
  unfold truncateSegments keptPieces finalText close
  rw [← textWidth, reassemble_pieces]
  by_cases hfit : textWidth u segments ≤ width
  · simp only [if_pos hfit, List.append_nil]
    split_ifs <;> simp
  · simp only [if_neg hfit]
    rw [segmentLoop_shown]
    by_cases h2 : 2 ≤ width
    · simp only [if_pos h2]
      split_ifs <;> simp_all
    · simp only [if_neg h2]
      split_ifs <;> simp_all

/-- `truncate_status_line_ansi` on any line: no slice fails. -/
theorem truncate_eq (u : Unicode) (line : List Char) {maxWidth : ℕ} (h : maxWidth ≠ 0) :
    truncateStatusLineAnsi u line maxWidth =
      some ((keptPieces u maxWidth (scan (.text []) line) ++
        (finalText u maxWidth (scan (.text []) line)).map Piece.text ++
        closing (keptPieces u maxWidth (scan (.text []) line))).flatMap Piece.render) := by
  rw [truncateStatusLineAnsi, if_neg h, splitSgrAndText_eq, Option.map_some, truncateSegments_eq]

theorem keptPieces_begins {u : Unicode} (hu : Lawful u) (width : ℕ) (segments : List Segment) :
    keptPieces u width segments <+: segments.flatMap Segment.pieces := by
  unfold keptPieces
  split_ifs
  · exact List.prefix_refl _
  all_goals exact shown_begins hu _ segments 0

theorem finalText_cases (u : Unicode) (width : ℕ) (segments : List Segment) :
    finalText u width segments = [] ∨ finalText u width segments = ['…'] := by
  unfold finalText
  split_ifs <;> simp

/-- The grammar of a safe row: characters that are no controls and complete sequences within the
limits, closed by a reset exactly if there is a sequence. -/
def IsRow (line : List Char) : Prop :=
  ∃ pieces : List Piece, (∀ piece ∈ pieces, piece.Ok) ∧ line = pieces.flatMap Piece.render ∧
    (sgrReset <:+ line ↔ pieces.any Piece.isSgr = true)

theorem esc_not_mem_render {pieces : List Piece} (hok : ∀ piece ∈ pieces, piece.Ok)
    (hany : pieces.any Piece.isSgr = false) : '\u001b' ∉ pieces.flatMap Piece.render := by
  intro hmem
  obtain ⟨piece, hp, hch⟩ := List.mem_flatMap.mp hmem
  have hsgr := List.any_eq_false.mp hany piece hp
  have hpiece := hok piece hp
  cases piece with
  | text ch =>
    obtain rfl := List.mem_singleton.mp hch
    exact absurd hpiece (by simp [Piece.Ok, isC0OrC1])
  | sgr params => exact hsgr rfl

theorem isRow_of_pieces {pieces : List Piece} (hok : ∀ piece ∈ pieces, piece.Ok)
    (hclose : pieces.any Piece.isSgr = true → ∃ before, pieces = before ++ [.sgr [0x30]]) :
    IsRow (pieces.flatMap Piece.render) := by
  refine ⟨pieces, hok, rfl, fun hsuf => ?_, fun hany => ?_⟩
  · by_contra hany
    refine esc_not_mem_render hok (by simpa using hany) (hsuf.mem ?_)
    simp [sgrReset]
  · obtain ⟨before, rfl⟩ := hclose hany
    rw [List.flatMap_append, List.flatMap_singleton, Piece.render, ← sgrReset_eq]
    exact List.suffix_append _ _

/-- The kept pieces with the ellipsis and the reset, for pieces that may stand in a row. -/
theorem cut_ok {u : Unicode} {width : ℕ} {segments : List Segment}
    (hok : ∀ piece ∈ keptPieces u width segments, piece.Ok) :
    (∀ piece ∈ keptPieces u width segments ++ (finalText u width segments).map Piece.text ++
      closing (keptPieces u width segments), piece.Ok) ∧
    ((keptPieces u width segments ++ (finalText u width segments).map Piece.text ++
      closing (keptPieces u width segments)).any Piece.isSgr = true →
        ∃ before, keptPieces u width segments ++ (finalText u width segments).map Piece.text ++
          closing (keptPieces u width segments) = before ++ [.sgr [0x30]]) := by
  constructor
  · intro piece hmem
    rcases List.mem_append.mp hmem with hmem | hmem
    · rcases List.mem_append.mp hmem with hmem | hmem
      · exact hok piece hmem
      · obtain ⟨ch, hch, rfl⟩ := List.mem_map.mp hmem
        rcases finalText_cases u width segments with h | h
        · rw [h] at hch; cases hch
        · rw [h] at hch
          obtain rfl := List.mem_singleton.mp hch
          exact (by decide : isC0OrC1 '…' = false)
    · unfold closing at hmem
      split_ifs at hmem
      · rw [List.mem_singleton.mp hmem]
        exact ⟨List.all_iff_forall_prop.mp (by decide), by decide, by decide⟩
      · cases hmem
  · intro hany
    by_cases hkept : (keptPieces u width segments).any Piece.isSgr = true
    · exact ⟨_, by rw [closing, if_pos hkept]⟩
    · rw [closing, if_neg hkept, List.append_nil, List.any_append, isSgr_text, Bool.or_false]
        at hany
      exact absurd hany hkept

/-- The columns that the texts of a line take, as the program measures them. -/
def visibleWidth (u : Unicode) (line : List Char) : Option ℕ :=
  (splitSgrAndText line).map (totalVisibleWidth u)

/-- The cut row fits: the texts kept and the ellipsis take at most the width. -/
theorem textWidth_cut {u : Unicode} (hu : Lawful u) (width : ℕ)
    (pieces : List Piece) :
    textWidth u (group [] (keptPieces u width (group [] pieces) ++
      (finalText u width (group [] pieces)).map Piece.text ++
      closing (keptPieces u width (group [] pieces)))) ≤ width := by
  have hclosing : ∀ before kept, textWidth u (group [] (before ++ closing kept)) =
      textWidth u (group [] before) := by
    intro before kept
    unfold closing
    split_ifs
    · rw [group_sgr_last, textWidth_append, textWidth_sgr]
      rfl
    · rw [List.append_nil]
  rw [hclosing]
  unfold keptPieces finalText
  by_cases hfit : textWidth u (group [] pieces) ≤ width
  · simp only [if_pos hfit]
    rw [group_pieces]
    simpa using hfit
  · simp only [if_neg hfit]
    by_cases h2 : 2 ≤ width
    · simp only [if_pos h2]
      have h := textWidth_shown hu (width - 1) ['…'] 1
        (fun text => by rw [hu.width_ellipsis, hu.ellipsis]) (group [] pieces) 0
        (group_apart pieces []) (Nat.zero_le _)
      omega
    · simp only [if_neg h2]
      have h := textWidth_shown hu (width - 0) [] 0 (fun text => by simp) (group [] pieces) 0
        (group_apart pieces []) (Nat.zero_le _)
      omega

/-! ### Any line -/

/-- The text of a segment. -/
def StatusSegment.shownText : StatusSegment → List Char
  | .text text => text
  | .sgr _ => []

/-- What is left of any line: a beginning of it, with an ellipsis and a reset behind it. Every
sequence in it is complete and taken from the line, and its text is a beginning of the texts. -/
structure CutFrom (line cut : List Char) (kept : List Piece) (final : List Char) : Prop where
  out : cut = kept.flatMap Piece.render ++ final ++ if kept.any Piece.isSgr then sgrReset else []
  final : final = [] ∨ final = ['…']
  text : ∀ ch, .text ch ∈ kept → ch ≠ '\u001b'
  sgr : ∀ params, .sgr params ∈ kept →
    (∀ byte ∈ params, isParamByte byte = true) ∧ sgrText params <:+: line
  begins : ∃ segments, splitSgrAndText line = some segments ∧
    kept.flatMap Piece.plain <+: segments.flatMap StatusSegment.shownText

theorem plain_text (text : List Char) : (text.map Piece.text).flatMap Piece.plain = text := by
  induction text with
  | nil => rfl
  | cons ch text ih => rw [List.map_cons, List.flatMap_cons, ih]; rfl

theorem plain_segments : ∀ segments : List Segment,
    (segments.flatMap Segment.pieces).flatMap Piece.plain =
      (segments.map Segment.status).flatMap StatusSegment.shownText
  | [] => rfl
  | .text text :: rest => by
    rw [List.flatMap_cons, List.flatMap_append, plain_segments rest, Segment.pieces, plain_text]
    rfl
  | .sgr params :: rest => by
    rw [List.flatMap_cons, List.flatMap_append, plain_segments rest]
    rfl

theorem truncate_cutFrom {u : Unicode} (hu : Lawful u) (line : List Char) (maxWidth : ℕ) :
    ∃ cut kept final, truncateStatusLineAnsi u line maxWidth = some cut ∧
      CutFrom line cut kept final := by
  by_cases hzero : maxWidth = 0
  · refine ⟨[], [], [], by rw [truncateStatusLineAnsi, if_pos hzero], rfl, Or.inl rfl, by simp,
      by simp, _, splitSgrAndText_eq line, List.nil_prefix⟩
  · have hbegins := keptPieces_begins hu maxWidth (scan (.text []) line)
    -- every piece kept belongs to a segment of the line
    have hmem : ∀ piece ∈ keptPieces u maxWidth (scan (.text []) line),
        ∃ segment ∈ scan (.text []) line, piece ∈ segment.pieces ∧ segment.From line := by
      intro piece hp
      obtain ⟨segment, hs, hps⟩ := List.mem_flatMap.mp (hbegins.mem hp)
      exact ⟨segment, hs, hps, scan_from line [] (.text []) (by simp [Mode.After]) segment hs⟩
    refine ⟨_, keptPieces u maxWidth (scan (.text []) line),
      finalText u maxWidth (scan (.text []) line), truncate_eq u line hzero, ?_,
      finalText_cases .., fun ch hch => ?_, fun params hp => ?_, _, splitSgrAndText_eq line, ?_⟩
    · rw [List.flatMap_append, List.flatMap_append, closing_render, render_text]
    · obtain ⟨segment, -, hps, hfrom⟩ := hmem _ hch
      cases segment with
      | text text =>
        obtain ⟨c, hc, he⟩ := List.mem_map.mp hps
        cases he
        rintro rfl
        exact hfrom hc
      | sgr params => simp [Segment.pieces] at hps
    · obtain ⟨segment, -, hps, hfrom⟩ := hmem _ hp
      cases segment with
      | text text => simp [Segment.pieces] at hps
      | sgr params' =>
        obtain rfl : params = params' := by simpa [Segment.pieces] using hps
        exact hfrom
    · rw [← plain_segments]
      exact hbegins.flatMap _

/-- **The status row stays in its row.** For every output of the command and every width: the row
keeps to the grammar, has no `ESC` without colour and depends on the first line only; cut to the
width it keeps to the grammar and fits. And whatever line is cut, no slice fails and nothing but
complete sequences of the line and a beginning of its text is left. -/
theorem statusRow_contained (u : Unicode) (hu : Lawful u) (bytes : List UInt8)
    (allowColor : Bool) (maxWidth : ℕ) :
    (IsRow (sanitizeStatusCommandLine bytes allowColor) ∧
      (allowColor = false → '\u001b' ∉ sanitizeStatusCommandLine bytes allowColor) ∧
      sanitizeStatusCommandLine bytes allowColor =
        sanitizeStatusCommandLine (firstLine bytes) allowColor) ∧
    (∃ cut width, truncateStatusLineAnsi u (sanitizeStatusCommandLine bytes allowColor) maxWidth =
        some cut ∧ IsRow cut ∧ visibleWidth u cut = some width ∧ width ≤ maxWidth) ∧
    ∀ line, ∃ cut kept final, truncateStatusLineAnsi u line maxWidth = some cut ∧
      CutFrom line cut kept final := by
  obtain ⟨pieces, hok, hout, -, hclose⟩ := sanitize_pieces bytes allowColor
  refine ⟨⟨?_, fun hcol => ?_, ?_⟩, ?_, fun line => truncate_cutFrom hu line maxWidth⟩
  · rw [hout]
    exact isRow_of_pieces hok fun hany => (hclose hany).2
  · rw [hout]
    refine esc_not_mem_render hok ?_
    by_contra hany
    have := (hclose (by simpa using hany)).1
    rw [hcol] at this
    cases this
  · unfold sanitizeStatusCommandLine
    rw [statusLoop_firstLine]
  · by_cases hzero : maxWidth = 0
    · refine ⟨[], 0, by rw [truncateStatusLineAnsi, if_pos hzero], ?_, rfl, Nat.zero_le _⟩
      exact ⟨[], by simp, rfl, by simp [sgrReset]⟩
    · have hsegments : scan (.text []) (pieces.flatMap Piece.render) = group [] pieces :=
        scan_render pieces [] hok
      have hkept : ∀ piece ∈ keptPieces u maxWidth (group [] pieces), piece.Ok := by
        intro piece hmem
        have hbegins := keptPieces_begins hu maxWidth (group [] pieces)
        rw [group_pieces, List.map_nil, List.nil_append] at hbegins
        exact hok piece (hbegins.mem hmem)
      obtain ⟨hcut, hcutClose⟩ := cut_ok hkept
      have hfits := textWidth_cut hu maxWidth pieces
      rw [hout, truncate_eq u _ hzero, hsegments]
      refine ⟨_, _, rfl, isRow_of_pieces hcut hcutClose, ?_, hfits⟩
      rw [visibleWidth, splitSgrAndText_eq, scan_render _ [] hcut]
      rfl

/-- One cluster and one column for each scalar, as the crates have it for ASCII and the ellipsis. -/
def narrow : Unicode := ⟨fun text => text.map ([·]), List.length⟩

theorem lawful_narrow : Lawful narrow where
  flatten text := by
    induction text with
    | nil => rfl
    | cons ch text ih => exact congrArg (ch :: ·) ih
  stable text clusters h := by
    obtain ⟨n, rfl⟩ : ∃ n, clusters = (text.map ([·])).take n := ⟨_, List.prefix_iff_eq_take.mp h⟩
    rw [← List.map_take]
    induction text.take n with
    | nil => rfl
    | cons ch rest ih => exact congrArg ([ch] :: ·) ih
  width_sum text := by
    induction text with
    | nil => rfl
    | cons ch text ih =>
      simp only [narrow, List.map_cons, List.sum_cons, List.length_cons] at ih ⊢
      rw [← ih]
      simp [Nat.add_comm]
  ellipsis := rfl
  width_ellipsis text := by simp [narrow]

/-- A coloured row of six columns cut to four. -/
theorem statusRow_contained_cut :
    IsRow (sanitizeStatusCommandLine
      (encode ['\u001b', '[', '3', '1', 'm', 'a', 'b', 'c', 'd', 'e', 'f', '\n', 'g']) true) ∧
    truncateStatusLineAnsi narrow (sanitizeStatusCommandLine
      (encode ['\u001b', '[', '3', '1', 'm', 'a', 'b', 'c', 'd', 'e', 'f', '\n', 'g']) true) 4 =
      some ['\u001b', '[', '3', '1', 'm', 'a', 'b', 'c', '…', '\u001b', '[', '0', 'm'] :=
  ⟨(statusRow_contained narrow lawful_narrow
    (encode ['\u001b', '[', '3', '1', 'm', 'a', 'b', 'c', 'd', 'e', 'f', '\n', 'g']) true 4).1.1,
    by decide +kernel⟩

end LightTerminal.Sanitize.Row
