import LightTerminal.Output.Captures
import LightTerminal.Sanitize.Scalars

/-! # What ranged captures show

`Session::capture` cuts the range out of the raw ring and sanitizes it from the ground state. If the
sanitizer of the whole ring comes to the range in the ground state, too, the text of the range is a part of
the text of the ring. If it comes to it inside of a control sequence or string, what it hides of the whole
ring is shown in the range. -/

namespace LightTerminal.Output.Exposure

open LightTerminal.Library
open LightTerminal.Output.Ring LightTerminal.Output.Captures
open LightTerminal.Sanitize.Capture LightTerminal.Sanitize.Chunks LightTerminal.Sanitize.Scalars

/-- `Session::capture`. -/
def capture (ring : List UInt8) (start stop : Option ℤ) : List Char :=
  terminalCapture (captureBytesFromRing ring start stop)

/-- A text is a contiguous part of another, up to `U+FFFD` at its ends. -/
def Part (ranged full : List Char) : Prop :=
  ∃ lead mid trail, ranged = lead ++ mid ++ trail ∧ (∀ ch ∈ lead ++ trail, ch = '\uFFFD') ∧ mid <:+: full

/-- The escape state in which the loop comes to the byte behind the first `cut`, if it comes there. -/
def stateAt : (cut skip : ℕ) → EscapeState → List UInt8 → Option EscapeState
  | 0, 0, escape, _ => some escape
  | 0, _ + 1, _, _ => none
  | _ + 1, _, _, [] => none
  | cut + 1, skip + 1, escape, _ :: rest => stateAt cut skip escape rest
  | cut + 1, 0, escape, byte :: rest =>
    match captureStep escape byte rest with
    | .stop => none
    | .next escape' _ len => stateAt cut (len - 1) escape' rest

theorem captureLoop_stateAt {cut skip : ℕ} {escape escape' : EscapeState} {bytes : List UInt8}
    (h : stateAt cut skip escape bytes = some escape') :
    ∃ out, captureLoop skip escape bytes =
      (out ++ (captureLoop 0 escape' (bytes.drop cut)).1, (captureLoop 0 escape' (bytes.drop cut)).2) := by
  induction cut, skip, escape, bytes using stateAt.induct with
  | case1 escape bytes =>
    cases h
    exact ⟨[], rfl⟩
  | case2 => cases h
  | case3 => cases h
  | case4 cut skip escape byte rest ih =>
    obtain ⟨out, hout⟩ := ih h
    exact ⟨out, hout⟩
  | case5 cut escape byte rest hstep =>
    rw [stateAt, hstep] at h
    cases h
  | case6 cut escape byte rest next out len hstep ih =>
    rw [stateAt, hstep] at h
    obtain ⟨more, hmore⟩ := ih h
    refine ⟨out ++ more, ?_⟩
    rw [captureLoop, hstep, List.drop_succ_cons]
    simp only [hmore, List.append_assoc]

/-! ### Ranges of the ring -/

/-- The bytes from the start of a range on. -/
theorem drop_captureStart (ring : List UInt8) (start : Option ℤ) :
    ring.drop (captureStartTotalFromRing ring ring.length start) =
      captureBytesFromRing ring start none := by
  obtain ⟨-, hle⟩ := captureStartTotalFromRing_bounds (le_refl ring.length) start
  rw [← copyRingBytesFromTotal_start (le_refl ring.length), copyRingBytesFromTotal, Nat.sub_self,
    Nat.sub_zero, Nat.min_eq_left hle]

/-- A range is the beginning of what begins with its first line. -/
theorem range_begins (ring : List UInt8) (start stop : Option ℤ) :
    captureBytesFromRing ring start stop <+: captureBytesFromRing ring start none := by
  rw [captureBytesFromRing_eq, captureBytesFromRing_eq, selection, selection, List.extract, List.extract]
  have hle : lastLine (ringLines ring).length stop ≤ lastLine (ringLines ring).length none := by
    unfold lastLine
    simp
  obtain ⟨more, hmore⟩ := List.take_prefix_take_left (l := (ringLines ring).drop
    (firstLine (ringLines ring).length start)) (Nat.sub_le_sub_right (Nat.succ_le_succ hle) _)
  rw [← hmore, List.flatten_append]
  exact List.prefix_append _ _

/-- Where the loop over the ring comes to the range in the ground state, its text is a part. -/
theorem part_of_ground {ring behind : List UInt8} {start : Option ℤ} {out : List Char}
    (hbehind : captureBytesFromRing ring start none = behind)
    (hloop : captureLoop 0 .ground ring =
      (out ++ (captureLoop 0 .ground behind).1, (captureLoop 0 .ground behind).2)) (stop : Option ℤ) :
    Part (capture ring start stop) (terminalCapture ring) := by
  obtain ⟨after, hafter⟩ := range_begins ring start stop
  have happend := captureLoop_append after .ground (captureBytesFromRing ring start stop)
  rw [hafter, hbehind] at happend
  refine ⟨[], (captureLoop 0 .ground (captureBytesFromRing ring start stop)).1,
    flushPendingUtf8AtCaptureEnd (captureLoop 0 .ground (captureBytesFromRing ring start stop)).2,
    rfl, ?_, ?_⟩
  · intro ch hch
    unfold flushPendingUtf8AtCaptureEnd at hch
    split_ifs at hch
    · simpa using hch
    · simp at hch
  · have hfull : terminalCapture ring = (captureLoop 0 .ground ring).1 ++
        flushPendingUtf8AtCaptureEnd (captureLoop 0 .ground ring).2 := rfl
    rw [hfull, hloop, happend]
    simp only [List.append_assoc]
    exact ⟨out, _, List.append_assoc _ _ _⟩

/-! ### Whole lines before the range -/

section Before

variable {before : List UInt8} (hlast : before.getLast? = some 10)
include hlast

/-- The range that begins behind whole lines. -/
theorem captureBytesFromRing_behind (after : List UInt8) :
    captureBytesFromRing (before ++ after) (some (ringLineCount before)) none = after := by
  have hlines : ringLines (before ++ after) = ringLines before ++ ringLines after :=
    Lines.splitInclusive_append hlast after
  have hsome : 0 < (ringLines before).length := by
    refine List.length_pos_of_ne_nil (mt (ringLines_eq_nil before).mp ?_)
    rintro rfl
    cases hlast
  have hflat : (ringLines after).flatten = after := Lines.flatten_splitInclusive after
  have hfirst : firstLine (ringLines before ++ ringLines after).length
      (some (ringLines before).length) = (ringLines before).length := by
    simp [firstLine, lineOf]
  have hend : lastLine (ringLines before ++ ringLines after).length none + 1 =
      (ringLines before).length + (ringLines after).length := by
    simp only [lastLine, Option.map_none, Option.getD_none, List.length_append]
    omega
  rw [captureBytesFromRing_eq, selection, hlines, ringLineCount_eq, hfirst, hend, List.extract,
    List.drop_left, Nat.add_sub_cancel_left, List.take_length, hflat]

omit hlast in
theorem captureStep_newline (escape : EscapeState) :
    ∃ next out, captureStep escape 10 [] = .next next out 1 ∧ Raw next := by
  cases escape with
  | ground => exact ⟨_, _, rfl, .inl rfl⟩
  | esc => exact ⟨_, _, rfl, .inl rfl⟩
  | csi => exact ⟨_, _, rfl, .inr (.inl rfl)⟩
  | string => exact ⟨_, _, rfl, .inr (.inr rfl)⟩
  | stringEsc => exact ⟨_, _, rfl, .inr (.inr rfl)⟩
  | charset => exact ⟨_, _, rfl, .inl rfl⟩

/-- A turn that takes all bytes up to a newline takes the newline alone. -/
theorem newline_alone {escape escape' : EscapeState} {byte : UInt8} {rest : List UInt8} {out : List Char}
    {len : ℕ} (hbytes : before = byte :: rest) (h : captureStep escape byte rest = .next escape' out len)
    (hall : rest.length + 1 ≤ len) : byte = 10 ∧ rest = [] := by
  subst hbytes
  have hone : rest = [] → byte = 10 ∧ rest = [] := by
    rintro rfl
    exact ⟨Option.some.inj hlast, rfl⟩
  rcases captureStep_len h with rfl | ⟨ch, hdecoded⟩
  · have hlength : rest.length = 0 := by omega
    exact hone (List.eq_nil_of_length_eq_zero hlength)
  · have htake := decodeUtf8Char_take hdecoded
    have hlength : (byte :: rest).length ≤ len := hall
    rw [List.take_of_length_le hlength] at htake
    by_cases hwide : 0x7f < ch.toNat
    · have hmem : (10 : UInt8) ∈ String.utf8EncodeChar ch := htake ▸ List.mem_of_getLast? hlast
      have hhigh := Utf8.encodeChar_wide_bytes hwide 10 hmem
      exact absurd hhigh (by decide)
    · have hascii : ch.toNat ≤ 0x7f := by omega
      rw [Utf8.encodeChar_ascii hascii] at htake
      exact hone (List.cons.inj htake).2

end Before

/-- Behind a newline the loop is in the ground state, in a control sequence or in a control string, unless
the newline is among pending bytes. -/
theorem raw_behind_newline : ∀ (escape : EscapeState) (before : List UInt8), before.getLast? = some 10 →
    (captureLoop 0 escape before).2.pendingUtf8 = [] → Raw (captureLoop 0 escape before).2.escape := by
  refine captureLoop_induction ?_ ?_ ?_
  · intro escape h
    cases h
  · intro escape byte rest h _ hnone
    rw [captureLoop_stop h] at hnone
    cases hnone
  · intro escape byte rest escape' out len h ih hlast hnone
    rw [captureLoop_next h] at hnone ⊢
    have hdrop := List.getLast?_drop (l := byte :: rest) (i := len)
    by_cases hall : rest.length + 1 ≤ len
    · obtain ⟨rfl, rfl⟩ := newline_alone hlast rfl h hall
      obtain ⟨next, out', hstep, hraw⟩ := captureStep_newline escape
      rw [hstep] at h
      cases h
      exact hraw
    · rw [List.length_cons, if_neg hall, hlast] at hdrop
      exact ih hdrop hnone

/-! ### Digits behind the range's beginning -/

/-- Some digits. -/
def digits (n : ℕ) : List Char := List.replicate n '0'

theorem scalarLoop_digits (n : ℕ) : scalarLoop .ground (digits n) = (digits n, .ground) ∧
    scalarLoop .csi (digits n) = ([], .csi) ∧ scalarLoop .string (digits n) = ([], .string) := by
  induction n with
  | zero => exact ⟨rfl, rfl, rfl⟩
  | succ n ih =>
    obtain ⟨hground, hcsi, hstring⟩ := ih
    unfold digits at hground hcsi hstring ⊢
    rw [List.replicate_succ, scalarLoop_cons, scalarLoop_cons, scalarLoop_cons]
    have hstep : scalarStep .ground '0' = (.ground, ['0']) ∧ scalarStep .csi '0' = (.csi, []) ∧
        scalarStep .string '0' = (.string, []) := by decide
    obtain ⟨hg, hc, hs⟩ := hstep
    rw [hg, hc, hs, hground, hcsi, hstring]
    exact ⟨rfl, rfl, rfl⟩

theorem captureLoop_digits (escape : EscapeState) (n : ℕ) :
    captureLoop 0 escape (Utf8.encode (digits n)) =
      ((scalarLoop escape (digits n)).1, ⟨(scalarLoop escape (digits n)).2, []⟩) := by
  have hascii : ∀ ch ∈ digits n, ch.toNat ≤ 0x7f := by
    intro ch hch
    rw [List.eq_of_mem_replicate hch]
    decide
  have hloop := captureLoop_clean [] escape (digits n) (clean_ascii escape (digits n) hascii)
  rw [List.append_nil, captureLoop, List.append_nil] at hloop
  exact hloop

/-- Digits that are not in a text are no part of it. -/
theorem not_part_digits {full : List Char} {n : ℕ} (h : full.length < n) : ¬Part (digits n) full := by
  rintro ⟨lead, mid, trail, hdigits, hends, hmid⟩
  have hnone : lead ++ trail = [] := by
    by_contra hne
    obtain ⟨ch, more, hcons⟩ := List.exists_cons_of_ne_nil hne
    have hmem : ch ∈ lead ++ trail := hcons ▸ List.mem_cons_self
    have hzero : ch ∈ digits n := by
      rw [hdigits]
      rcases List.mem_append.mp hmem with hlead | htrail
      · exact List.mem_append_left _ (List.mem_append_left _ hlead)
      · exact List.mem_append_right _ htrail
    have hch := hends ch hmem
    rw [List.eq_of_mem_replicate hzero] at hch
    exact absurd hch (by decide)
  obtain ⟨rfl, rfl⟩ := List.append_eq_nil_iff.mp hnone
  rw [List.nil_append, List.append_nil] at hdigits
  have hlength := hmid.length_le
  rw [← hdigits, digits, List.length_replicate] at hlength
  omega

/-- **What ranged captures show.** Where the sanitizer of the whole ring comes to the range in the ground
state, the capture of the range is a part of the capture of the ring. Lines that end in the middle of a
control sequence or string do not keep its rest hidden: when the ring goes on behind its lines, the range
behind them is always shown as a part exactly if they end in the ground state. -/
theorem ranged_capture_part (ring : List UInt8) :
    (∀ start stop : Option ℤ,
      stateAt (captureStartTotalFromRing ring ring.length start) 0 .ground ring = some .ground →
        Part (capture ring start stop) (capture ring none none)) ∧
    (ring.getLast? = some 10 → (captureLoop 0 .ground ring).2.pendingUtf8 = [] →
      ((∀ after stop, Part (capture (ring ++ after) (some (ringLineCount ring)) stop)
          (capture (ring ++ after) none none)) ↔
        (captureLoop 0 .ground ring).2.escape = .ground)) := by
  have hwhole (ring : List UInt8) : capture ring none none = terminalCapture ring := by
    rw [capture, captureBytesFromRing_none]
  simp only [hwhole]
  refine ⟨fun start stop h => ?_, fun hlast hnone => ⟨fun h => ?_, fun hground => ?_⟩⟩
  · obtain ⟨out, hout⟩ := captureLoop_stateAt h
    rw [drop_captureStart] at hout
    exact part_of_ground rfl hout stop
  · by_contra hhidden
    have hraw := raw_behind_newline .ground ring hlast hnone
    have hfull (n : ℕ) : terminalCapture (ring ++ Utf8.encode (digits n)) =
        (captureLoop 0 .ground ring).1 := by
      have hloop := captureLoop_append (Utf8.encode (digits n)) .ground ring
      rw [terminalCaptureFromState, hnone, List.nil_append, captureLoop_digits] at hloop
      obtain ⟨-, hcsi, hstring⟩ := scalarLoop_digits n
      rcases hraw with heq | heq | heq
      · exact absurd heq hhidden
      · rw [heq, hcsi, List.append_nil] at hloop
        exact terminalCapture_of_loop hloop
      · rw [heq, hstring, List.append_nil] at hloop
        exact terminalCapture_of_loop hloop
    have hranged (n : ℕ) :
        capture (ring ++ Utf8.encode (digits n)) (some (ringLineCount ring)) none = digits n := by
      have hloop := captureLoop_digits .ground n
      rw [(scalarLoop_digits n).1] at hloop
      rw [capture, captureBytesFromRing_behind hlast]
      exact terminalCapture_of_loop hloop
    have hpart := h (Utf8.encode (digits ((captureLoop 0 .ground ring).1.length + 1))) none
    rw [hranged, hfull] at hpart
    exact not_part_digits (Nat.lt_succ_self _) hpart
  · intro after stop
    have hloop := captureLoop_append after .ground ring
    rw [terminalCaptureFromState, hnone, hground, List.nil_append] at hloop
    exact part_of_ground (captureBytesFromRing_behind hlast after) hloop stop

/-- The payload of a title that a line break cuts is shown from the second line on. -/
theorem payload_shown :
    capture [0x1b, 0x5d, 0x30, 0x3b, 0x0a, 0x30, 0x07] none none = [] ∧
      capture [0x1b, 0x5d, 0x30, 0x3b, 0x0a, 0x30, 0x07] (some 1) none = ['0'] ∧
      ¬∀ (ring : List UInt8) (start stop : Option ℤ),
        Part (capture ring start stop) (capture ring none none) := by
  have hfull : capture [0x1b, 0x5d, 0x30, 0x3b, 0x0a, 0x30, 0x07] none none = [] := by decide +kernel
  have hranged : capture [0x1b, 0x5d, 0x30, 0x3b, 0x0a, 0x30, 0x07] (some 1) none = digits 1 := by
    decide +kernel
  refine ⟨hfull, hranged, fun h => ?_⟩
  have hpart := h [0x1b, 0x5d, 0x30, 0x3b, 0x0a, 0x30, 0x07] (some 1) none
  rw [hfull, hranged] at hpart
  exact not_part_digits Nat.one_pos hpart

end LightTerminal.Output.Exposure
