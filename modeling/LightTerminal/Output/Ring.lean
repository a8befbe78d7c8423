import Mathlib.Tactic

/-! # The output ring and its lines

A session keeps the last `RING_LIMIT` bytes of its PTY output in `ring`, and counts in
`total_bytes` all the bytes it ever got. This module models `append_ring_bytes` and the functions
of `server.rs` that select bytes of the ring by line number. The ring is the list of its bytes,
oldest first; `total_bytes` is a natural number (the source's `u64` counter would saturate after
2^64 bytes of output); line numbers are integers.

Two computations find the first byte of a line. `copyRingLines` walks the ring and copies, and
`ringByteIndexForLine` walks the ring and returns an offset, to which the number of bytes dropped
so far is added (`captureStartTotalFromRing`). They agree (`copyRingBytesFromTotal_start`). -/

namespace LightTerminal.Output.Ring

/-- `RING_LIMIT`. -/
@[irreducible] def ringLimit : ℕ := 2 * 1024 * 1024

/-- `append_ring_bytes`. -/
def appendRingBytes (ring bytes : List UInt8) : List UInt8 :=
  if ringLimit ≤ bytes.length then bytes.drop (bytes.length - ringLimit)
  else
    let overflow := ring.length + bytes.length - ringLimit
    (if 0 < overflow then ring.drop overflow else ring) ++ bytes

/-! ### Lines -/

/-- `ring_line_count`. -/
def ringLineCount (ring : List UInt8) : ℕ :=
  if ring.isEmpty then 0
  else if ring.getLast? = some 10 then ring.count 10
  else ring.count 10 + 1

/-- `capture_line_index`. -/
def captureLineIndex (line : ℤ) (lineCount : ℕ) : ℕ :=
  if line < 0 then lineCount - line.natAbs else line.toNat

/-- `capture_end_line_index`. -/
def captureEndLineIndex (line : ℤ) (lineCount : ℕ) : ℕ :=
  if line < 0 then lineCount - line.natAbs else min line.toNat (lineCount - 1)

/-- The loop of `copy_ring_lines`. -/
def copyRingLinesLoop (first : ℕ) (last : Option ℕ) : ℕ → List UInt8 → List UInt8
  | _, [] => []
  | lineIndex, byte :: rest =>
    let copied := if first ≤ lineIndex ∧ last.all (lineIndex ≤ ·) then [byte] else []
    if byte = 10 then
      if last.any (· < lineIndex + 1) then copied
      else copied ++ copyRingLinesLoop first last (lineIndex + 1) rest
    else copied ++ copyRingLinesLoop first last lineIndex rest

/-- `copy_ring_lines`. -/
def copyRingLines (ring : List UInt8) (first : ℕ) (last : Option ℕ) : List UInt8 :=
  if last.any (· < first) then [] else copyRingLinesLoop first last 0 ring

/-- The loop of `ring_byte_index_for_line`: the bytes up to the end of the `missing`-th line. -/
def ringByteIndexLoop : ℕ → List UInt8 → ℕ
  | 0, _ => 0
  | _, [] => 0
  | missing + 1, byte :: rest =>
    1 + ringByteIndexLoop (if byte = 10 then missing else missing + 1) rest

/-- `ring_byte_index_for_line`. -/
def ringByteIndexForLine (ring : List UInt8) (targetLine : ℕ) : ℕ :=
  ringByteIndexLoop targetLine ring

/-- `capture_bytes_from_ring`. -/
def captureBytesFromRing (ring : List UInt8) (start stop : Option ℤ) : List UInt8 :=
  if ring.isEmpty then []
  else if start.any (· < 0) || stop.any (· < 0) then
    let lineCount := ringLineCount ring
    let first := captureLineIndex (start.getD 0) lineCount
    if lineCount ≤ first then []
    else copyRingLines ring first (stop.map (captureEndLineIndex · lineCount))
  else copyRingLines ring (start.getD 0).toNat (stop.map Int.toNat)

/-- `capture_start_total_from_ring`. -/
def captureStartTotalFromRing (ring : List UInt8) (totalBytes : ℕ) (start : Option ℤ) : ℕ :=
  if ring.isEmpty then totalBytes
  else
    let ringStartTotal := totalBytes - ring.length
    match start with
    | none => ringStartTotal
    | some start =>
      let lineCount := ringLineCount ring
      let first := captureLineIndex start lineCount
      if lineCount ≤ first then totalBytes
      else ringStartTotal + ringByteIndexForLine ring first

/-- `copy_ring_bytes_from_total`. -/
def copyRingBytesFromTotal (ring : List UInt8) (totalBytes startTotal : ℕ) : List UInt8 :=
  ring.drop (min (startTotal - (totalBytes - ring.length)) ring.length)

/-! ### What the ring holds -/

/-- The part of a stream that the ring retains. -/
def retained (stream : List UInt8) : List UInt8 := stream.drop (stream.length - ringLimit)

theorem length_retained (stream : List UInt8) :
    (retained stream).length = min stream.length ringLimit := by
  unfold retained
  rw [List.length_drop]; omega

@[simp] theorem retained_nil : retained [] = [] := by simp [retained]

/-- The retained part of a stream from its position `k` on. -/
theorem drop_retained {stream : List UInt8} {k : ℕ}
    (h : stream.length - (retained stream).length ≤ k) :
    (retained stream).drop (k - (stream.length - (retained stream).length)) = stream.drop k := by
  have hlen := length_retained stream
  have hk : stream.length - ringLimit + (k - (stream.length - (retained stream).length)) = k := by
    omega
  calc (retained stream).drop (k - (stream.length - (retained stream).length))
      = stream.drop (stream.length - ringLimit +
          (k - (stream.length - (retained stream).length))) := List.drop_drop
    _ = stream.drop k := by rw [hk]

/-- **The ring holds the end of the stream**: appending to the ring of a stream gives the ring of
the longer stream. -/
theorem appendRingBytes_retained (stream bytes : List UInt8) :
    appendRingBytes (retained stream) bytes = retained (stream ++ bytes) := by
  unfold appendRingBytes
  by_cases hbig : ringLimit ≤ bytes.length
  · rw [if_pos hbig]
    unfold retained
    rw [List.length_append, show stream.length + bytes.length - ringLimit =
      stream.length + (bytes.length - ringLimit) by omega, List.drop_append]
    simp
  · rw [if_neg hbig]
    have hlen := length_retained stream
    simp only
    have hring : (if 0 < (retained stream).length + bytes.length - ringLimit then
        (retained stream).drop ((retained stream).length + bytes.length - ringLimit)
        else retained stream) =
          stream.drop (stream.length + bytes.length - ringLimit) := by
      split_ifs with h0
      · have hsum : stream.length - ringLimit + ((retained stream).length + bytes.length -
            ringLimit) = stream.length + bytes.length - ringLimit := by omega
        rw [← hsum]
        exact List.drop_drop
      · have hnone : stream.length - ringLimit = stream.length + bytes.length - ringLimit := by
          omega
        rw [← hnone]
        rfl
    rw [hring]
    unfold retained
    rw [List.length_append, List.drop_append_of_le_length (by omega)]

/-! ### The two line computations agree -/

theorem copyRingLinesLoop_none (first : ℕ) : ∀ (ring : List UInt8) (lineIndex : ℕ),
    copyRingLinesLoop first none lineIndex ring =
      ring.drop (ringByteIndexLoop (first - lineIndex) ring)
  | [], lineIndex => by simp [copyRingLinesLoop]
  | byte :: rest, lineIndex => by
    rw [copyRingLinesLoop]
    simp only [Option.all_none, Option.any_none, and_true, Bool.false_eq_true, if_false]
    by_cases hle : first ≤ lineIndex
    · rw [if_pos hle, copyRingLinesLoop_none first rest (lineIndex + 1),
        copyRingLinesLoop_none first rest lineIndex, Nat.sub_eq_zero_of_le hle,
        Nat.sub_eq_zero_of_le (by omega : first ≤ lineIndex + 1)]
      simp [ringByteIndexLoop]
    · obtain ⟨missing, hm⟩ : ∃ m, first - lineIndex = m + 1 := ⟨first - lineIndex - 1, by omega⟩
      rw [if_neg hle, List.nil_append, List.nil_append,
        copyRingLinesLoop_none first rest (lineIndex + 1),
        copyRingLinesLoop_none first rest lineIndex, hm,
        show first - (lineIndex + 1) = missing by omega, ringByteIndexLoop, Nat.add_comm 1,
        List.drop_succ_cons]
      split_ifs <;> rfl

theorem copyRingLines_none (ring : List UInt8) (first : ℕ) :
    copyRingLines ring first none = ring.drop (ringByteIndexForLine ring first) := by
  unfold copyRingLines ringByteIndexForLine
  rw [if_neg (by simp), copyRingLinesLoop_none, Nat.sub_zero]

theorem ringByteIndexLoop_le : ∀ (missing : ℕ) (ring : List UInt8),
    ringByteIndexLoop missing ring ≤ ring.length
  | 0, _ => by simp [ringByteIndexLoop]
  | _ + 1, [] => by simp [ringByteIndexLoop]
  | missing + 1, byte :: rest => by
    have := ringByteIndexLoop_le (if byte = 10 then missing else missing + 1) rest
    rw [ringByteIndexLoop, List.length_cons]; omega

/-- A line number past the newlines leads to the end of the ring. -/
theorem ringByteIndexLoop_of_count_lt : ∀ (missing : ℕ) (ring : List UInt8),
    ring.count 10 < missing → ringByteIndexLoop missing ring = ring.length
  | 0, _, h => by omega
  | _ + 1, [], _ => by simp [ringByteIndexLoop]
  | missing + 1, byte :: rest, h => by
    rw [ringByteIndexLoop, List.length_cons, ringByteIndexLoop_of_count_lt _ rest ?_]
    · omega
    · split_ifs with hb
      · subst hb; rw [List.count_cons_self] at h; omega
      · rw [List.count_cons_of_ne (by simpa using hb)] at h; exact h

theorem ringByteIndexLoop_of_count_eq : ∀ (missing : ℕ) (ring : List UInt8),
    ring.count 10 = missing → ring.getLast? = some 10 → ringByteIndexLoop missing ring = ring.length
  | missing, [], _, hlast => by simp at hlast
  | 0, byte :: rest, h, hlast => by
    have := List.mem_of_getLast? hlast
    rw [List.count_eq_zero] at h
    exact absurd this h
  | missing + 1, byte :: rest, h, hlast => by
    rw [ringByteIndexLoop, List.length_cons, Nat.add_comm 1]
    congr 1
    rcases eq_or_ne rest [] with rfl | hne
    · cases missing <;> split_ifs <;> rfl
    · rw [List.getLast?_cons_of_ne_nil hne] at hlast
      refine ringByteIndexLoop_of_count_eq _ rest ?_ hlast
      split_ifs with hb
      · subst hb; rw [List.count_cons_self] at h; omega
      · rw [List.count_cons_of_ne (by simpa using hb)] at h; exact h

/-- A line number past the last line selects nothing. -/
theorem copyRingLines_of_lineCount_le {ring : List UInt8} {first : ℕ}
    (h : ringLineCount ring ≤ first) : copyRingLines ring first none = [] := by
  rw [copyRingLines_none, List.drop_eq_nil_iff]
  unfold ringLineCount at h
  split_ifs at h with hempty hlast
  · rw [List.isEmpty_iff.mp hempty]; simp
  · rcases Nat.eq_or_lt_of_le h with heq | hlt
    · exact (ringByteIndexLoop_of_count_eq first ring heq hlast).ge
    · exact (ringByteIndexLoop_of_count_lt first ring hlt).ge
  · exact (ringByteIndexLoop_of_count_lt first ring (by omega)).ge

theorem captureBytesFromRing_none (ring : List UInt8) :
    captureBytesFromRing ring none none = ring := by
  unfold captureBytesFromRing
  by_cases h : ring.isEmpty = true
  · rw [if_pos h, List.isEmpty_iff.mp h]
  · simp [h, copyRingLines_none, ringByteIndexForLine, ringByteIndexLoop]

theorem captureBytesFromRing_some (ring : List UInt8) (start : ℤ) :
    captureBytesFromRing ring (some start) none =
      copyRingLines ring (captureLineIndex start (ringLineCount ring)) none := by
  unfold captureBytesFromRing captureLineIndex
  by_cases hempty : ring.isEmpty = true
  · rw [if_pos hempty, List.isEmpty_iff.mp hempty]
    simp [copyRingLines, copyRingLinesLoop]
  · rw [if_neg hempty]
    by_cases hneg : start < 0
    · simp only [Option.any_some, hneg, decide_true, Bool.true_or, if_true, Option.getD_some,
        Option.map_none]
      split_ifs with hle
      · rw [copyRingLines_of_lineCount_le hle]
      · rfl
    · simp [hneg]

theorem captureStartTotalFromRing_bounds {ring : List UInt8} {totalBytes : ℕ}
    (h : ring.length ≤ totalBytes) (start : Option ℤ) :
    totalBytes - ring.length ≤ captureStartTotalFromRing ring totalBytes start ∧
      captureStartTotalFromRing ring totalBytes start ≤ totalBytes := by
  unfold captureStartTotalFromRing
  split_ifs
  · omega
  · rcases start with _ | start
    · simp only; omega
    · simp only
      split_ifs
      · omega
      · have := ringByteIndexLoop_le (captureLineIndex start (ringLineCount ring)) ring
        unfold ringByteIndexForLine
        omega

/-- **The two computations agree**: the bytes of the ring from the absolute start position are the
captured lines. -/
theorem copyRingBytesFromTotal_start {ring : List UInt8} {totalBytes : ℕ}
    (h : ring.length ≤ totalBytes) (start : Option ℤ) :
    copyRingBytesFromTotal ring totalBytes (captureStartTotalFromRing ring totalBytes start) =
      captureBytesFromRing ring start none := by
  unfold copyRingBytesFromTotal captureStartTotalFromRing
  by_cases hempty : ring.isEmpty = true
  · rw [List.isEmpty_iff.mp hempty]
    simp [captureBytesFromRing]
  · rw [if_neg hempty]
    rcases start with _ | start
    · simp [captureBytesFromRing_none]
    · rw [captureBytesFromRing_some]
      simp only
      split_ifs with hle
      · rw [copyRingLines_of_lineCount_le hle, List.drop_eq_nil_iff]
        omega
      · have hidx := ringByteIndexLoop_le (captureLineIndex start (ringLineCount ring)) ring
        rw [copyRingLines_none]
        congr 1
        unfold ringByteIndexForLine
        omega

end LightTerminal.Output.Ring
