import Mathlib.Data.Bool.AllAny
import LightTerminal.Sanitize.Status

/-! # The two sanitizers agree

Where the machine of `terminal_capture` goes on, one turn of the machine of
`sanitize_status_command_line` without colour takes the same bytes to the same escape state and
pushes the same text less the tab (`statusStep_of_capture`). The first breaks out only on a scalar
that the end of the bytes cuts off. On valid UTF-8 there is none: the bytes left after any turn are
the continuation bytes of one scalar followed by whole scalars (`Aligned`).

With colour the output holds the same text and complete sequences in between, which `deleteSgr`
takes out again. -/

namespace LightTerminal.Sanitize.Agreement

open LightTerminal.Library.Utf8
open LightTerminal.Sanitize.Capture LightTerminal.Sanitize.Chunks LightTerminal.Sanitize.Scalars
open LightTerminal.Sanitize.Status

/-! ### Deleting the sequences -/

/-- The parameter characters `[0-9;:]`. -/
def isParamChar (ch : Char) : Bool := ('0' ≤ ch && ch ≤ '9') || ch = ';' || ch = ':'

/-- The length of the complete `ESC [ params m` a text begins with, zero if it begins with none. -/
def sgrLength : List Char → ℕ
  | '\u001b' :: '[' :: rest =>
    if (rest.dropWhile isParamChar).head? = some 'm' then
      (rest.takeWhile isParamChar).length + 3
    else 0
  | _ => 0

/-- The text without the complete sequences: the first argument counts the characters of the
sequence found that are still to be passed over. -/
def deleteSgr : ℕ → List Char → List Char
  | _, [] => []
  | skip + 1, _ :: rest => deleteSgr skip rest
  | 0, ch :: rest =>
    match sgrLength (ch :: rest) with
    | 0 => ch :: deleteSgr 0 rest
    | skip + 1 => deleteSgr skip rest

set_option maxRecDepth 4000 in
theorem isParamChar_byte (byte : UInt8) :
    isParamByte byte = true → isParamChar (Char.ofNat byte.toNat) = true := by
  revert byte
  refine of_each_byte ?_
  decide

theorem deleteSgr_skip : ∀ (skip : ℕ) (text : List Char),
    deleteSgr skip text = deleteSgr 0 (text.drop skip)
  | 0, _ => rfl
  | skip + 1, [] => by simp [deleteSgr]
  | skip + 1, _ :: rest => by rw [deleteSgr, deleteSgr_skip skip rest, List.drop_succ_cons]

theorem deleteSgr_text {ch : Char} (h : ch ≠ '\u001b') (rest : List Char) :
    deleteSgr 0 (ch :: rest) = ch :: deleteSgr 0 rest := by
  have hlen : sgrLength (ch :: rest) = 0 := by
    unfold sgrLength
    split
    · next h' => exact absurd (List.cons.inj h').1 h
    · rfl
  rw [deleteSgr, hlen]

theorem sgrLength_sgrText {params : List UInt8} (h : ∀ byte ∈ params, isParamByte byte = true)
    (rest : List Char) : sgrLength (sgrText params ++ rest) = params.length + 3 := by
  have hall : ∀ ch ∈ params.map (fun byte => Char.ofNat byte.toNat), isParamChar ch = true := by
    intro ch hch
    obtain ⟨byte, hmem, rfl⟩ := List.mem_map.mp hch
    exact isParamChar_byte byte (h byte hmem)
  have hm : isParamChar 'm' = false := by decide
  simp only [sgrText, List.cons_append, List.append_assoc, List.nil_append, sgrLength,
    List.dropWhile_append_of_pos hall, List.takeWhile_append_of_pos hall,
    List.dropWhile_cons, List.takeWhile_cons, hm]
  simp

theorem length_sgrText (params : List UInt8) : (sgrText params).length = params.length + 3 := by
  simp [sgrText]

theorem deleteSgr_sgrText {params : List UInt8} (h : ∀ byte ∈ params, isParamByte byte = true)
    (rest : List Char) : deleteSgr 0 (sgrText params ++ rest) = deleteSgr 0 rest := by
  have hlen := sgrLength_sgrText h rest
  obtain ⟨ch, text, ht⟩ : ∃ ch text, sgrText params ++ rest = ch :: text := ⟨_, _, rfl⟩
  rw [ht] at hlen ⊢
  rw [deleteSgr, hlen]
  simp only
  rw [deleteSgr_skip, ← List.drop_succ_cons (a := ch), ← ht,
    List.drop_left' (by rw [length_sgrText])]

/-- A control sequence is no visible text, and a visible scalar begins no sequence. -/
theorem deleteSgr_pieces : ∀ (pieces : List Piece), (∀ piece ∈ pieces, piece.Ok) →
    deleteSgr 0 (pieces.flatMap Piece.render) = pieces.flatMap Piece.plain
  | [], _ => rfl
  | .text ch :: pieces, h => by
    have hne : ch ≠ '\u001b' := by
      rintro rfl
      exact absurd (h _ (List.mem_cons_self ..)) (by simp [Piece.Ok, isC0OrC1])
    have ih := deleteSgr_pieces pieces fun piece hmem => h piece (List.mem_cons_of_mem _ hmem)
    rw [List.flatMap_cons, List.flatMap_cons, Piece.render, Piece.plain, List.singleton_append,
      List.singleton_append, deleteSgr_text hne, ih]
  | .sgr params :: pieces, h => by
    have hp : (Piece.sgr params).Ok := h _ (List.mem_cons_self ..)
    have ih := deleteSgr_pieces pieces fun piece hmem => h piece (List.mem_cons_of_mem _ hmem)
    rw [List.flatMap_cons, List.flatMap_cons, Piece.render, Piece.plain, List.nil_append,
      deleteSgr_sgrText hp.1, ih]

/-! ### One turn of both machines -/

/-- The text without its tabs. -/
def untabbed (text : List Char) : List Char := text.filter (· ≠ '\t')

theorem untabbed_append (text more : List Char) :
    untabbed (text ++ more) = untabbed text ++ untabbed more := List.filter_append ..

theorem untabbed_of_visible {ch : Char} (h : isC0OrC1 ch = false) : untabbed [ch] = [ch] := by
  have hne : ch ≠ '\t' := by
    rintro rfl
    exact absurd h (by decide)
  simp [untabbed, hne]

/-- The turn of the row machine that goes with a turn of the other. -/
structure Goes (turn : StatusTurn) (escape : EscapeState) (out : List Char) (len : ℕ) : Prop where
  escape : turn.state.escape = escape
  out : turn.out = untabbed out
  len : turn.len = len

theorem Goes.silent {st : StatusState} {escape : EscapeState} (h : st.escape = escape) :
    Goes (silent st) escape [] 1 := ⟨h, rfl, rfl⟩

/-- Both machines decode the same scalar or find the same byte malformed. -/
theorem goes_decode {bytes : List UInt8} {scalar : Char → EscapeState × List Char}
    {scalar' : Char → StatusState × List Char} {malformed : EscapeState × List Char}
    {malformed' : StatusState × List Char} {escape : EscapeState} {out : List Char} {len : ℕ}
    (hs : ∀ ch, (scalar' ch).1.escape = (scalar ch).1 ∧ (scalar' ch).2 = untabbed (scalar ch).2)
    (hm : malformed'.1.escape = malformed.1 ∧ malformed'.2 = untabbed malformed.2)
    (h : decodeTurn bytes scalar malformed = .next escape out len) :
    Goes (statusDecode bytes scalar' malformed') escape out len := by
  unfold decodeTurn at h
  unfold statusDecode
  rcases hd : decodeUtf8Char bytes with _ | ⟨ch, n⟩
  · rw [hd] at h
    simp only at h
    split_ifs at h
    obtain ⟨rfl, rfl, rfl⟩ := Turn.next.inj h
    exact ⟨hm.1, hm.2, rfl⟩
  · rw [hd] at h
    obtain ⟨rfl, rfl, rfl⟩ := Turn.next.inj h
    exact ⟨(hs ch).1, (hs ch).2, rfl⟩

theorem goes_groundScalar {st : StatusState} (hst : st.escape = .ground) (ch : Char) :
    (statusGroundScalar st ch).1.escape = (groundScalar ch).1 ∧
      (statusGroundScalar st ch).2 = untabbed (groundScalar ch).2 := by
  unfold statusGroundScalar groundScalar
  split_ifs with h1 h2 h3
  · exact ⟨rfl, rfl⟩
  · exact ⟨rfl, rfl⟩
  · exact ⟨hst, rfl⟩
  · exact ⟨hst, (untabbed_of_visible (by simpa using h3)).symm⟩

section Turn
variable {st : StatusState} {byte : UInt8} {rest : List UInt8} {escape : EscapeState}
  {out : List Char} {len : ℕ}

theorem goes_silent {st' : StatusState} {e : EscapeState} (he : st'.escape = e)
    (h : Turn.next e [] 1 = .next escape out len) : Goes (silent st') escape out len := by
  obtain ⟨rfl, rfl, rfl⟩ := Turn.next.inj h
  exact Goes.silent he

/-- Turns that branch alike go together if their branches do. -/
theorem goes_ite {c : Prop} [Decidable c] {turn turn' : StatusTurn} {t t' : Turn}
    (h : c → t = .next escape out len → Goes turn escape out len)
    (h' : ¬ c → t' = .next escape out len → Goes turn' escape out len) :
    (if c then t else t') = .next escape out len →
      Goes (if c then turn else turn') escape out len := by
  by_cases hc : c
  · rw [if_pos hc, if_pos hc]
    exact h hc
  · rw [if_neg hc, if_neg hc]
    exact h' hc

theorem goes_ground (hst : st.escape = .ground) (hline : isLineEnd byte = false)
    (h : groundTurn byte (byte :: rest) = .next escape out len) :
    Goes (statusGround st byte (byte :: rest)) escape out len := by
  simp only [isLineEnd, Bool.or_eq_false_iff, decide_eq_false_iff_not] at hline
  simp only [groundTurn, hline.1, hline.2, or_false] at h
  revert h
  refine goes_ite (fun _ => goes_silent rfl) fun _ => goes_ite (fun _ => goes_silent rfl) fun _ => ?_
  refine goes_ite (fun _ => goes_silent rfl) fun _ => goes_ite (fun _ => goes_silent hst) fun _ => ?_
  refine goes_ite (fun htab h => ?_) fun _ => goes_ite (fun _ => goes_silent hst) fun hprintable => ?_
  · -- the tab is text there and nothing here
    obtain ⟨rfl, rfl, rfl⟩ := Turn.next.inj h
    subst htab
    have htab : untabbed [Char.ofNat (UInt8.toNat 9)] = [] := by decide
    exact ⟨hst, htab.symm, rfl⟩
  refine goes_ite (fun hascii h => ?_) fun _ => ?_
  · obtain ⟨rfl, rfl, rfl⟩ := Turn.next.inj h
    exact ⟨hst, (untabbed_of_visible (isC0OrC1_printable hprintable hascii)).symm, rfl⟩
  · exact goes_decode (goes_groundScalar hst) ⟨hst, (untabbed_of_visible (by decide)).symm⟩

theorem goes_esc (hst : st.escape = .esc) (h : escTurn byte = .next escape out len) :
    Goes (statusEsc st byte) escape out len := by
  revert h
  refine goes_ite (fun _ => goes_silent rfl) fun _ => goes_ite (fun _ => goes_silent rfl) fun _ => ?_
  refine goes_ite (fun _ => goes_silent rfl) fun _ => goes_ite (fun _ => goes_silent rfl) fun _ => ?_
  refine goes_ite (fun _ => goes_silent rfl) fun _ => goes_ite (fun _ => goes_silent rfl) fun _ => ?_
  exact goes_ite (fun _ => goes_silent rfl) fun _ =>
    goes_ite (fun _ => goes_silent hst) fun _ => goes_silent rfl

theorem goes_csi (hst : st.escape = .csi)
    (h : csiTurn byte (byte :: rest) = .next escape out len) :
    Goes (statusCsi false st byte (byte :: rest)) escape out len := by
  have hparam : (paramByte st byte).escape = .csi := by
    unfold paramByte
    split_ifs <;> exact hst
  simp only [csiTurn] at h
  simp only [statusCsi, finalByte_false]
  split_ifs at h ⊢ with h1 h2 h3 h4 h5 h6
  · refine goes_decode (fun ch => ?_) ⟨by simp [byteTerminates, h2, StatusState.goto], rfl⟩ h
    unfold terminates
    split_ifs <;> first | exact ⟨rfl, rfl⟩ | exact ⟨hst, rfl⟩
  · refine goes_decode (fun ch => ?_) ⟨by simp [byteTerminates, h2, StatusState.invalidate, hst],
      rfl⟩ h
    unfold terminates
    split_ifs <;> first | exact ⟨rfl, rfl⟩ | exact ⟨hst, rfl⟩
  all_goals first | exact goes_silent rfl h | exact goes_silent hst h | exact goes_silent hparam h

theorem goes_string (hst : st.escape = .string)
    (h : stringTurn byte (byte :: rest) = .next escape out len) :
    Goes (statusString st byte (byte :: rest)) escape out len := by
  simp only [stringTurn] at h
  simp only [statusString]
  split_ifs at h ⊢ with h1 h2
  · refine goes_decode (fun ch => ?_) ⟨by simp [byteTerminates, h2, StatusState.goto], rfl⟩ h
    unfold terminates
    split_ifs <;> first | exact ⟨rfl, rfl⟩ | exact ⟨hst, rfl⟩
  · refine goes_decode (fun ch => ?_) ⟨by simp [byteTerminates, h2, hst], rfl⟩ h
    unfold terminates
    split_ifs <;> first | exact ⟨rfl, rfl⟩ | exact ⟨hst, rfl⟩
  all_goals first | exact goes_silent rfl h | exact goes_silent hst h

theorem goes_stringEsc (h : stringEscTurn byte (byte :: rest) = .next escape out len) :
    Goes (statusStringEsc st byte (byte :: rest)) escape out len := by
  unfold stringEscTurn at h
  unfold statusStringEsc
  by_cases h80 : (0x80 : UInt8) ≤ byte
  · rw [if_pos h80] at h ⊢
    exact goes_decode (fun ch => ⟨rfl, rfl⟩) ⟨rfl, rfl⟩ h
  · rw [if_neg h80] at h ⊢
    exact goes_silent rfl h

/-- **One turn of both machines**, at any byte that does not end the row. -/
theorem statusStep_of_capture (hline : isLineEnd byte = false)
    (h : captureStep st.escape byte rest = .next escape out len) :
    Goes (statusStep false st byte rest) escape out len := by
  unfold statusStep
  cases hst : st.escape with
  | ground => rw [hst] at h; exact goes_ground hst hline h
  | esc => rw [hst] at h; exact goes_esc hst h
  | csi => rw [hst] at h; exact goes_csi hst h
  | string => rw [hst] at h; exact goes_string hst h
  | stringEsc => rw [hst] at h; exact goes_stringEsc h
  | charset => rw [hst] at h; exact goes_silent rfl h

end Turn

/-! ### Valid UTF-8 -/

/-- What is left of valid UTF-8 after any turn: continuation bytes, then whole scalars. -/
def Aligned (bytes : List UInt8) : Prop :=
  ∃ tail text, bytes = tail ++ encode text ∧ ∀ byte ∈ tail, Continuation byte

theorem aligned_encode (text : List Char) : Aligned (encode text) := ⟨[], text, rfl, by simp⟩

theorem utf8CharWidth_continuation {byte : UInt8} (h : Continuation byte) :
    utf8CharWidth byte = none := by
  unfold Continuation at h
  unfold utf8CharWidth
  simp only [UInt8.le_iff_toNat_le]
  rw [if_neg, if_neg, if_neg, if_neg] <;> simp <;> omega

/-- An aligned byte is a continuation byte, or begins a scalar all of whose bytes are there. -/
theorem Aligned.cons {byte : UInt8} {rest : List UInt8} (h : Aligned (byte :: rest)) :
    (Continuation byte ∧ Aligned rest) ∨
    ∃ tail more, rest = tail ++ more ∧ (∀ b ∈ tail, Continuation b) ∧ Aligned more ∧
      utf8CharWidth byte = some (tail.length + 1) := by
  obtain ⟨tail, text, he, hcont⟩ := h
  rcases tail with _ | ⟨b, tail⟩
  · rcases text with _ | ⟨ch, text⟩
    · cases he
    · right
      rw [List.nil_append, encode_cons] at he
      by_cases hwide : 0x7f < ch.toNat
      · obtain ⟨lead, tail, hch, hl, htail⟩ := encodeChar_wide hwide
        rw [hch, List.cons_append] at he
        obtain ⟨rfl, rfl⟩ := List.cons.inj he
        exact ⟨tail, encode text, rfl, htail, aligned_encode text, utf8CharWidth_lead hl⟩
      · rw [encodeChar_ascii (by omega), List.singleton_append] at he
        obtain ⟨rfl, rfl⟩ := List.cons.inj he
        refine ⟨[], encode text, rfl, by simp, aligned_encode text, ?_⟩
        have hle : UInt8.ofNat ch.toNat ≤ 0x7f := by
          rw [UInt8.le_iff_toNat_le, toNat_ofNat (by omega)]
          simp only [UInt8.toNat_ofNat]
          omega
        rw [utf8CharWidth, if_pos hle, List.length_nil]
  · left
    rw [List.cons_append] at he
    obtain ⟨rfl, rfl⟩ := List.cons.inj he
    exact ⟨hcont byte (List.mem_cons_self ..), tail, text, rfl,
      fun b' hmem => hcont b' (List.mem_cons_of_mem _ hmem)⟩

theorem Aligned.not_incomplete {byte : UInt8} {rest : List UInt8} (h : Aligned (byte :: rest)) :
    isIncompleteUtf8 (byte :: rest) = false := by
  rw [Bool.eq_false_iff]
  intro hi
  obtain ⟨width, hw, hlt⟩ := (isIncompleteUtf8_cons byte rest).mp hi
  rcases h.cons with ⟨hcont, -⟩ | ⟨tail, more, rfl, -, -, hw'⟩
  · rw [utf8CharWidth_continuation hcont] at hw
    cases hw
  · rw [hw', Option.some.injEq] at hw
    rw [List.length_append] at hlt
    omega

theorem Aligned.tail {byte : UInt8} {rest : List UInt8} (h : Aligned (byte :: rest)) :
    Aligned rest := by
  rcases h.cons with ⟨-, h⟩ | ⟨tail, more, rfl, htail, ⟨tail', text, rfl, htail'⟩, -⟩
  · exact h
  · refine ⟨tail ++ tail', text, (List.append_assoc ..).symm, fun b hmem => ?_⟩
    rcases List.mem_append.mp hmem with hmem | hmem
    · exact htail b hmem
    · exact htail' b hmem

/-- The bytes after a decoded scalar are aligned. -/
theorem Aligned.decoded {byte : UInt8} {rest : List UInt8} (h : Aligned (byte :: rest))
    {ch : Char} {len : ℕ} (hd : decodeUtf8Char (byte :: rest) = some (ch, len)) :
    Aligned ((byte :: rest).drop len) := by
  rw [decodeUtf8Char_cons] at hd
  rcases h.cons with ⟨hcont, -⟩ | ⟨tail, more, rfl, -, hmore, hw⟩
  · rw [utf8CharWidth_continuation hcont] at hd
    cases hd
  · rw [hw, Option.bind_some, if_neg (by simp)] at hd
    simp only [Option.map_eq_some_iff, Prod.mk.injEq] at hd
    obtain ⟨-, -, -, rfl⟩ := hd
    rw [List.drop_succ_cons, List.drop_left]
    exact hmore

theorem Aligned.drop {escape escape' : EscapeState} {byte : UInt8} {rest : List UInt8}
    {out : List Char} {len : ℕ} (ha : Aligned (byte :: rest))
    (h : captureStep escape byte rest = .next escape' out len) :
    Aligned ((byte :: rest).drop len) := by
  rcases captureStep_len h with rfl | ⟨ch, hd⟩
  · exact ha.tail
  · exact ha.decoded hd

/-- **The run of both machines** over valid UTF-8 without line ends: no turn breaks, and the row
machine follows. -/
theorem statusLoop_of_capture : ∀ (escape : EscapeState) (bytes : List UInt8) (st : StatusState),
    st.escape = escape → Aligned bytes → (∀ byte ∈ bytes, isLineEnd byte = false) →
      (statusLoop false 0 st bytes).1 = untabbed (captureLoop 0 escape bytes).1 ∧
        (captureLoop 0 escape bytes).2.pendingUtf8 = [] := by
  refine captureLoop_induction ?_ ?_ ?_
  · intro escape st _ _ _
    exact ⟨rfl, rfl⟩
  · intro escape byte rest h st _ ha _
    have hi := captureStep_stop h
    rw [ha.not_incomplete] at hi
    cases hi
  · intro escape byte rest escape' out len h ih st hst ha hline
    subst hst
    have hb := hline byte (List.mem_cons_self ..)
    have hg := statusStep_of_capture hb h
    have hrest : ∀ b ∈ (byte :: rest).drop len, isLineEnd b = false := fun b hmem =>
      hline b (List.mem_of_mem_drop hmem)
    obtain ⟨ih1, ih2⟩ := ih _ hg.escape (ha.drop h) hrest
    rw [statusLoop_next hb rfl, captureLoop_next h, hg.len, hg.out, ih1, untabbed_append]
    exact ⟨rfl, ih2⟩

theorem sgrReset_eq : sgrReset = sgrText [0x30] := by decide

/-- The row as pieces, the closing reset included, and the row without colour. -/
theorem sanitize_pieces (bytes : List UInt8) (allowColor : Bool) :
    ∃ pieces : List Piece, (∀ piece ∈ pieces, piece.Ok) ∧
      sanitizeStatusCommandLine bytes allowColor = pieces.flatMap Piece.render ∧
      sanitizeStatusCommandLine bytes false = pieces.flatMap Piece.plain ∧
      (pieces.any Piece.isSgr = true → allowColor = true ∧
        ∃ before, pieces = before ++ [.sgr [0x30]]) := by
  obtain ⟨pieces, hw⟩ := statusLoop_written allowColor .initial bytes limited_initial
  obtain ⟨pieces', hw'⟩ := statusLoop_written false .initial bytes limited_initial
  -- without colour nothing is emitted, so the row is what the loop pushed
  have hfalse : sanitizeStatusCommandLine bytes false = pieces.flatMap Piece.plain := by
    have hem := hw'.emitted
    rw [hw'.colourless rfl] at hem
    simp only [sanitizeStatusCommandLine]
    rw [hem, if_neg (by simp [StatusState.initial])]
    exact hw.plain
  have hout : sanitizeStatusCommandLine bytes allowColor =
      if pieces.any Piece.isSgr then pieces.flatMap Piece.render ++ sgrReset
      else pieces.flatMap Piece.render := by
    have hem := hw.emitted
    simp only [sanitizeStatusCommandLine]
    rw [hem, hw.out]
    simp [StatusState.initial]
  cases hany : pieces.any Piece.isSgr with
  | false =>
    rw [hany, if_neg (by simp)] at hout
    exact ⟨pieces, hw.ok, hout, hfalse, fun h => by rw [hany] at h; cases h⟩
  | true =>
    rw [hany, if_pos rfl] at hout
    refine ⟨pieces ++ [.sgr [0x30]], ?_, ?_, ?_, fun _ => ⟨?_, pieces, rfl⟩⟩
    · intro piece hmem
      rcases List.mem_append.mp hmem with hmem | hmem
      · exact hw.ok piece hmem
      · rw [List.mem_singleton.mp hmem]
        exact ⟨List.all_iff_forall_prop.mp (by decide), by decide, by decide⟩
    · rw [hout, List.flatMap_append, sgrReset_eq, List.flatMap_singleton, Piece.render]
    · rw [hfalse, List.flatMap_append, List.flatMap_singleton, Piece.plain, List.append_nil]
    · cases allowColor with
      | true => rfl
      | false =>
        rw [hw.colourless rfl] at hany
        cases hany

/-- **The two sanitizers agree.** On valid UTF-8 without line ends the row without colour is the
capture without its tabs, and the row with either colour setting is that row with complete
sequences in between. -/
theorem sanitizeStatus_agrees (bytes : List UInt8) (hutf8 : ∃ text, encode text = bytes)
    (hline : ∀ byte ∈ bytes, byte ≠ 0x0a ∧ byte ≠ 0x0d) :
    sanitizeStatusCommandLine bytes false = untabbed (terminalCapture bytes) ∧
      ∀ allowColor, deleteSgr 0 (sanitizeStatusCommandLine bytes allowColor) =
        sanitizeStatusCommandLine bytes false := by
  obtain ⟨text, rfl⟩ := hutf8
  refine ⟨?_, fun allowColor => ?_⟩
  · have hends : ∀ byte ∈ encode text, isLineEnd byte = false := fun byte hmem => by
      simpa [isLineEnd] using hline byte hmem
    obtain ⟨hout, hpend⟩ := statusLoop_of_capture .ground (encode text) .initial rfl
      (aligned_encode text) hends
    obtain ⟨pieces, hw⟩ := statusLoop_written false .initial (encode text) limited_initial
    have hem := hw.emitted
    rw [hw.colourless rfl] at hem
    have hcap : terminalCapture (encode text) = (captureLoop 0 .ground (encode text)).1 :=
      terminalCapture_of_loop (Prod.ext rfl
        (show _ = TerminalCaptureState.mk (captureLoop 0 .ground (encode text)).2.escape [] by
          rw [← hpend]))
    simp only [sanitizeStatusCommandLine]
    rw [hem, if_neg (by simp [StatusState.initial]), hcap, hout]
  · obtain ⟨pieces, hok, hout, hplain, -⟩ := sanitize_pieces (encode text) allowColor
    rw [hout, hplain, deleteSgr_pieces pieces hok]

/-- A tab, a colour, a title string and a scalar after `ESC`, in one row. -/
theorem sanitizeStatus_agrees_row :
    deleteSgr 0 (sanitizeStatusCommandLine
        (encode ['a', '\t', '\u001b', '[', '3', '1', 'm', 'é', '\u001b', ']', 'x', '\u0007', 'b']) true) =
      ['a', 'é', 'b'] := by
  have h := (sanitizeStatus_agrees
    (encode ['a', '\t', '\u001b', '[', '3', '1', 'm', 'é', '\u001b', ']', 'x', '\u0007', 'b'])
    ⟨_, rfl⟩ (by decide +kernel)).2 true
  rw [h]
  decide +kernel

end LightTerminal.Sanitize.Agreement
