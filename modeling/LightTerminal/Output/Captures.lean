import LightTerminal.Library.Lines
import LightTerminal.Output.Ring

/-! # Ranged captures

A captured range of lines is a range of the lines of the ring, each with its newline. The line numbers
count from the first line, or with a minus sign from behind the last. -/

namespace LightTerminal.Output.Captures

open LightTerminal.Library LightTerminal.Output.Ring

/-- The lines of the ring. -/
def ringLines (ring : List UInt8) : List (List UInt8) := Lines.splitInclusive 10 ring

/-- The line that a line number means among `count` lines. -/
def lineOf (count : ℕ) (line : ℤ) : ℕ := if line < 0 then ((count : ℤ) + line).toNat else line.toNat

/-- The first line of a range. -/
def firstLine (count : ℕ) (start : Option ℤ) : ℕ := (start.map (lineOf count)).getD 0

/-- The last line of a range. -/
def lastLine (count : ℕ) (stop : Option ℤ) : ℕ :=
  min ((stop.map (lineOf count)).getD (count - 1)) (count - 1)

/-- The bytes of a range of lines. -/
def selection (lines : List (List UInt8)) (start stop : Option ℤ) : List UInt8 :=
  (lines.extract (firstLine lines.length start) (lastLine lines.length stop + 1)).flatten

/-- A line number without a minus sign. -/
def rewritten (count : ℕ) (line : ℤ) : ℤ := lineOf count line

/-! ### The loops, line by line -/

/-- The line at an index is copied. -/
def Copied (first : ℕ) (last : Option ℕ) (lineIndex : ℕ) : Prop :=
  first ≤ lineIndex ∧ last.all (lineIndex ≤ ·)

instance (first : ℕ) (last : Option ℕ) (lineIndex : ℕ) : Decidable (Copied first last lineIndex) :=
  inferInstanceAs (Decidable (_ ∧ _))

section Loop

variable (first : ℕ) (last : Option ℕ) (lineIndex : ℕ)

theorem copyRingLinesLoop_cons (byte : UInt8) (rest : List UInt8) :
    copyRingLinesLoop first last lineIndex (byte :: rest) =
      (if Copied first last lineIndex then [byte] else []) ++
        if byte = 10 then
          if last.any (· < lineIndex + 1) then [] else copyRingLinesLoop first last (lineIndex + 1) rest
        else copyRingLinesLoop first last lineIndex rest := by
  rw [copyRingLinesLoop]
  by_cases hbyte : byte = 10
  · rw [if_pos hbyte, if_pos hbyte]
    by_cases hlast : last.any (· < lineIndex + 1) = true
    · rw [if_pos hlast, if_pos hlast, List.append_nil]
      rfl
    · rw [if_neg hlast, if_neg hlast]
      rfl
  · rw [if_neg hbyte, if_neg hbyte]
    rfl

theorem copyRingLinesLoop_text {text : List UInt8} (h : 10 ∉ text) (rest : List UInt8) :
    copyRingLinesLoop first last lineIndex (text ++ rest) =
      (if Copied first last lineIndex then text else []) ++
        copyRingLinesLoop first last lineIndex rest := by
  induction text with
  | nil => simp
  | cons byte text ih =>
    obtain ⟨hne, htext⟩ := List.ne_and_not_mem_of_not_mem_cons h
    rw [List.cons_append, copyRingLinesLoop_cons, if_neg (Ne.symm hne), ih htext]
    split_ifs <;> rfl

theorem copyRingLinesLoop_line {text : List UInt8} (h : 10 ∉ text) (rest : List UInt8) :
    copyRingLinesLoop first last lineIndex (text ++ [10] ++ rest) =
      (if Copied first last lineIndex then text ++ [10] else []) ++
        if last.any (· < lineIndex + 1) then []
        else copyRingLinesLoop first last (lineIndex + 1) rest := by
  rw [List.append_assoc, copyRingLinesLoop_text first last lineIndex h, List.singleton_append,
    copyRingLinesLoop_cons, if_pos rfl]
  by_cases hcopied : Copied first last lineIndex
  · simp only [if_pos hcopied, List.append_assoc]
  · simp only [if_neg hcopied, List.nil_append]

end Loop

/-- A range of lines, one line at a time. -/
theorem window_cons (line : List UInt8) (rest : List (List UInt8)) (n k : ℕ) :
    (((line :: rest).take n).drop k).flatten =
      (if k = 0 ∧ 0 < n then line else []) ++ ((rest.take (n - 1)).drop (k - 1)).flatten := by
  rcases n with _ | n
  · simp
  · rcases k with _ | k <;> simp

/-- How many lines are passed before the copying ends. -/
def ending (last : Option ℕ) (lineIndex count : ℕ) : ℕ := (last.map (· + 1 - lineIndex)).getD count

theorem copied_iff {first lineIndex count : ℕ} {last : Option ℕ} (h : 0 < count) :
    Copied first last lineIndex ↔ first - lineIndex = 0 ∧ 0 < ending last lineIndex count := by
  unfold Copied ending
  cases last with
  | none => simp; omega
  | some last => simp; omega

/-- The copied lines, by number: those from `first` to `last`. -/
theorem copyRingLinesLoop_eq {lines : List (List UInt8)} (h : Lines.Inclusive 10 lines) (first : ℕ)
    (last : Option ℕ) (lineIndex : ℕ) :
    copyRingLinesLoop first last lineIndex lines.flatten =
      ((lines.take (ending last lineIndex lines.length)).drop (first - lineIndex)).flatten := by
  induction h generalizing lineIndex with
  | none => simp [copyRingLinesLoop]
  | @last text _ htext =>
    have hloop := copyRingLinesLoop_text first last lineIndex htext []
    rw [List.append_nil, copyRingLinesLoop, List.append_nil] at hloop
    rw [List.flatten_singleton, hloop, window_cons, List.length_singleton]
    simp only [copied_iff Nat.one_pos]
    simp
  | @line text rest htext _ ih =>
    rw [List.flatten_cons, copyRingLinesLoop_line first last lineIndex htext, ih, window_cons]
    have hcount : 0 < ((text ++ [10]) :: rest).length := Nat.succ_pos _
    simp only [copied_iff hcount]
    congr 1
    have hfirst : first - lineIndex - 1 = first - (lineIndex + 1) := by omega
    have hlast : ending last lineIndex ((text ++ [10]) :: rest).length - 1 =
        ending last (lineIndex + 1) rest.length := by
      unfold ending
      cases last with
      | none => simp
      | some last => simp; omega
    rw [hfirst, hlast]
    by_cases hstop : last.any (· < lineIndex + 1) = true
    · rw [if_pos hstop]
      have hnone : ending last (lineIndex + 1) rest.length = 0 := by
        cases last with
        | none => cases hstop
        | some last =>
          have hlt : last < lineIndex + 1 := of_decide_eq_true hstop
          simp only [ending, Option.map_some, Option.getD_some]
          omega
      rw [hnone, List.take_zero, List.drop_nil, List.flatten_nil]
    · rw [if_neg hstop]

theorem copyRingLines_eq (ring : List UInt8) (first : ℕ) (last : Option ℕ) :
    copyRingLines ring first last =
      ((ringLines ring).extract first ((last.map (· + 1)).getD (ringLines ring).length)).flatten := by
  have hloop := copyRingLinesLoop_eq (Lines.inclusive_splitInclusive ring) first last 0
  rw [Lines.flatten_splitInclusive] at hloop
  unfold copyRingLines
  by_cases hempty : last.any (· < first) = true
  · rw [if_pos hempty]
    cases last with
    | none => cases hempty
    | some last =>
      have hlt : last < first := of_decide_eq_true hempty
      simp [List.extract, show last + 1 - first = 0 by omega]
  · rw [if_neg hempty, hloop]
    unfold ending ringLines
    rw [List.extract, ← List.drop_take]
    cases last with
    | none => simp
    | some last => simp

theorem ringLineCount_eq (ring : List UInt8) : ringLineCount ring = (ringLines ring).length := by
  have hcount {lines : List (List UInt8)} (h : Lines.Inclusive 10 lines) :
      ringLineCount lines.flatten = lines.length := by
    induction h with
    | none => rfl
    | @last text hne htext =>
      have hnot : ¬text.getLast? = some 10 := fun hlast => htext (List.mem_of_getLast? hlast)
      rw [List.flatten_singleton, ringLineCount, if_neg (by simpa using hne), if_neg hnot,
        List.count_eq_zero.mpr htext]
      rfl
    | @line text rest htext hrest ih =>
      have hnonempty : ¬((text ++ [10]) :: rest).flatten.isEmpty = true := by simp
      have hcounted : ((text ++ [10]) :: rest).flatten.count 10 = rest.flatten.count 10 + 1 := by
        simp [List.count_append, List.count_eq_zero.mpr htext, Nat.add_comm]
      rw [ringLineCount, if_neg hnonempty, hcounted, List.length_cons, ← ih, ringLineCount]
      cases hmore : rest.flatten with
      | nil => simp [hmore]
      | cons byte more =>
        have hlast : ((text ++ [10]) :: rest).flatten.getLast? = (byte :: more).getLast? := by
          rw [List.flatten_cons, hmore, List.getLast?_append_cons]
        rw [hlast, List.isEmpty_cons, if_neg Bool.false_ne_true]
        split_ifs <;> rfl
  have hring := hcount (Lines.inclusive_splitInclusive ring)
  rwa [Lines.flatten_splitInclusive] at hring

/-! ### Ranges -/

section Range

variable (ring : List UInt8) (start stop : Option ℤ)

theorem captureLineIndex_eq (line : ℤ) (count : ℕ) : captureLineIndex line count = lineOf count line := by
  unfold captureLineIndex lineOf
  split_ifs with hneg
  · omega
  · rfl

theorem captureEndLineIndex_eq (line : ℤ) {count : ℕ} (h : 0 < count) :
    captureEndLineIndex line count = min (lineOf count line) (count - 1) := by
  unfold captureEndLineIndex lineOf
  split_ifs with hneg
  · omega
  · rfl

theorem ringLines_eq_nil : ringLines ring = [] ↔ ring = [] := by
  unfold ringLines
  rw [← (Lines.inclusive_splitInclusive ring).flatten_eq_nil, Lines.flatten_splitInclusive]

/-- What is captured is the range of lines. -/
theorem captureBytesFromRing_eq :
    captureBytesFromRing ring start stop = selection (ringLines ring) start stop := by
  unfold captureBytesFromRing selection
  by_cases hempty : ring = []
  · rw [if_pos (List.isEmpty_iff.mpr hempty), (ringLines_eq_nil ring).mpr hempty]
    simp
  have hcount : 0 < (ringLines ring).length :=
    List.length_pos_of_ne_nil (mt (ringLines_eq_nil ring).mp hempty)
  have hextract (i n : ℕ) : (ringLines ring).extract i n =
      (ringLines ring).extract i (min n (ringLines ring).length) := by
    rw [List.extract, List.extract, ← List.drop_take, ← List.drop_take, ← List.take_take, List.take_length]
  rw [if_neg (mt List.isEmpty_iff.mp hempty)]
  by_cases hneg : (start.any (· < 0) || stop.any (· < 0)) = true
  · rw [if_pos hneg, ringLineCount_eq]
    have hfirst : captureLineIndex (start.getD 0) (ringLines ring).length =
        firstLine (ringLines ring).length start := by
      cases start with
      | none => rfl
      | some line => exact captureLineIndex_eq line _
    simp only [hfirst]
    by_cases hpast : (ringLines ring).length ≤ firstLine (ringLines ring).length start
    · rw [if_pos hpast]
      simp [List.drop_eq_nil_of_le hpast]
    · rw [if_neg hpast, copyRingLines_eq]
      cases stop with
      | none =>
        unfold lastLine
        simp [show (ringLines ring).length - 1 + 1 = (ringLines ring).length by omega]
      | some line =>
        simp [lastLine, captureEndLineIndex_eq line hcount]
  · rw [if_neg hneg, copyRingLines_eq, hextract]
    obtain ⟨hstart, hstop⟩ := not_or.mp (mt (Bool.or_eq_true _ _).mpr hneg)
    have hfirst : (start.getD 0).toNat = firstLine (ringLines ring).length start := by
      cases start with
      | none => rfl
      | some line =>
        have hline : ¬line < 0 := by simpa using hstart
        simp [firstLine, lineOf, hline]
    have hlast : min (((stop.map Int.toNat).map (· + 1)).getD (ringLines ring).length)
        (ringLines ring).length = lastLine (ringLines ring).length stop + 1 := by
      cases stop with
      | none => simp [lastLine]; omega
      | some line =>
        have hline : ¬line < 0 := by simpa using hstop
        simp [lastLine, lineOf, hline]
        omega
    rw [hfirst, hlast]

theorem captureBytesFromRing_eq_nil : captureBytesFromRing ring start stop = [] ↔
    lastLine (ringLines ring).length stop < firstLine (ringLines ring).length start ∨
      (ringLines ring).length ≤ firstLine (ringLines ring).length start := by
  have hparts : ((ringLines ring).extract (firstLine (ringLines ring).length start)
      (lastLine (ringLines ring).length stop + 1)).flatten = [] ↔
        (ringLines ring).extract (firstLine (ringLines ring).length start)
          (lastLine (ringLines ring).length stop + 1) = [] := by
    constructor
    · intro h
      by_contra hne
      obtain ⟨line, more, hlines⟩ := List.exists_cons_of_ne_nil hne
      rw [hlines] at h
      have hline : line = [] := List.flatten_eq_nil_iff.mp h line List.mem_cons_self
      have hmem : line ∈ ringLines ring := by
        have hextract : line ∈ (ringLines ring).extract (firstLine (ringLines ring).length start)
            (lastLine (ringLines ring).length stop + 1) := hlines ▸ List.mem_cons_self
        exact List.mem_of_mem_drop (List.mem_of_mem_take hextract)
      exact (Lines.inclusive_splitInclusive ring).ne_nil (hline ▸ hmem)
    · intro h
      rw [h]
      rfl
  rw [captureBytesFromRing_eq, selection, hparts, List.extract, List.take_eq_nil_iff,
    List.drop_eq_nil_iff]
  omega

theorem lineOf_rewritten (count : ℕ) (line : ℤ) : lineOf count (rewritten count line) = lineOf count line := by
  unfold rewritten
  generalize lineOf count line = n
  simp [lineOf]

theorem captureBytesFromRing_rewritten :
    captureBytesFromRing ring (start.map (rewritten (ringLines ring).length))
      (stop.map (rewritten (ringLines ring).length)) = captureBytesFromRing ring start stop := by
  rw [captureBytesFromRing_eq, captureBytesFromRing_eq]
  unfold selection firstLine lastLine
  simp only [Option.map_map, Function.comp_def, lineOf_rewritten]

end Range

/-- The captured bytes begin at the position that is computed for them. -/
theorem captureStartTotalFromRing_eq {ring : List UInt8} {totalBytes : ℕ}
    (h : ring.length ≤ totalBytes) (start : Option ℤ) :
    captureStartTotalFromRing ring totalBytes start =
      totalBytes - (captureBytesFromRing ring start none).length := by
  obtain ⟨hlow, hhigh⟩ := captureStartTotalFromRing_bounds h start
  rw [← copyRingBytesFromTotal_start h, copyRingBytesFromTotal, List.length_drop]
  omega

theorem foldl_appendRingBytes (stream : List UInt8) (chunks : List (List UInt8)) :
    chunks.foldl appendRingBytes (retained stream) = retained (stream ++ chunks.flatten) := by
  induction chunks generalizing stream with
  | nil => rw [List.foldl_nil, List.flatten_nil, List.append_nil]
  | cons chunk chunks ih =>
    have hchunk := ih (stream ++ chunk)
    rw [← appendRingBytes_retained, List.append_assoc] at hchunk
    rw [List.foldl_cons, List.flatten_cons]
    exact hchunk

/-- **A ranged capture is a range of whole lines of the retained output.** The ring holds the end of the
output. A range of it is a range of its lines, and empty only when it holds no line; it stays the same when
its numbers are written without a minus sign. The position computed for the start of a range is that of its
first byte. -/
theorem capture_selects_lines :
    (∀ chunks : List (List UInt8), chunks.foldl appendRingBytes [] =
        chunks.flatten.drop (chunks.flatten.length - ringLimit) ∧
      (chunks.foldl appendRingBytes []).length = min chunks.flatten.length ringLimit) ∧
    ∀ (ring : List UInt8) (start stop : Option ℤ),
      captureBytesFromRing ring start stop = selection (ringLines ring) start stop ∧
      (captureBytesFromRing ring start stop = [] ↔
        lastLine (ringLines ring).length stop < firstLine (ringLines ring).length start ∨
          (ringLines ring).length ≤ firstLine (ringLines ring).length start) ∧
      captureBytesFromRing ring (start.map (rewritten (ringLines ring).length))
        (stop.map (rewritten (ringLines ring).length)) = captureBytesFromRing ring start stop ∧
      ∀ totalBytes, ring.length ≤ totalBytes →
        copyRingBytesFromTotal ring totalBytes (captureStartTotalFromRing ring totalBytes start) =
          captureBytesFromRing ring start none ∧
        captureStartTotalFromRing ring totalBytes start =
          totalBytes - (captureBytesFromRing ring start none).length := by
  refine ⟨fun chunks => ?_, fun ring start stop => ⟨captureBytesFromRing_eq ring start stop,
    captureBytesFromRing_eq_nil ring start stop, captureBytesFromRing_rewritten ring start stop,
    fun totalBytes h => ⟨copyRingBytesFromTotal_start h start, captureStartTotalFromRing_eq h start⟩⟩⟩
  have hring := foldl_appendRingBytes [] chunks
  rw [retained_nil, List.nil_append] at hring
  have hlength := length_retained chunks.flatten
  rw [← hring] at hlength
  rw [hring] at hlength ⊢
  exact ⟨rfl, hlength⟩

example : captureBytesFromRing [97, 10, 98, 10, 99] (some (-2)) (some 1) = [98, 10] := by decide

end LightTerminal.Output.Captures
