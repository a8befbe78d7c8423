import LightTerminal.Data.Slices
import LightTerminal.Library.Lines
import LightTerminal.Sanitize.Losses

/-! # The mobile transcript

A client without a raw screen polls the last lines of a session and writes what is new
(`write_mobile_transcript_update`, `client.rs`). What is new is read off the texts: the old capture, or a
part of it that begins a line and is as long as possible, has to be a prefix of the new one.

* `transcript_written`, on any captures: no slice is cut inside a character, and what is written ends with
  the capture.
* On the last lines of an output that grows, each poll writes the last of the lines that are new, and leaves
  out those that a longer overlap takes for old. The transcript has every line exactly if, at each poll, the
  overlap is not longer than what stayed in the window. -/

namespace LightTerminal.Client.Transcript

open LightTerminal.Data.Text LightTerminal.Data.Slices LightTerminal.Library LightTerminal.Library.Utf8
open LightTerminal.Sanitize LightTerminal.Sanitize.Capture LightTerminal.Sanitize.Chunks
open LightTerminal.Sanitize.Truncate

/-! ### The update -/

/-- `str::strip_prefix`. -/
def stripPrefix (start text : Str) : Option Str :=
  if start <+: text then some (text.drop start.length) else none

/-- `str::char_indices`, from a byte offset on. -/
def charIndices (index : ℕ) : Str → List ℕ
  | [] => []
  | ch :: text => index :: charIndices (index + ch.utf8Size) text

/-- `str::is_char_boundary`. -/
def isCharBoundary (text : Str) (index : ℕ) : Bool := (splitAtByte text index).isSome

/-- `index > 0 && previous[..index].ends_with('\n')`; `none` is a slice inside a character. -/
def startsLine (previous : Str) (index : ℕ) : Option Bool :=
  if index = 0 then some false
  else (slice previous 0 index).map fun before => decide (before.getLast? = some '\n')

/-- The offsets of `starts`. -/
def lineStarts (previous : Str) : List ℕ → Option (List ℕ)
  | [] => some []
  | index :: indices => do
    let found ← startsLine previous index
    let starts ← lineStarts previous indices
    some (if found then index :: starts else starts)

/-- The loop over `starts`. -/
def overlapLoop (previous next : Str) : List ℕ → Option (Option Str)
  | [] => some none
  | start :: starts => do
    let overlap ← slice previous start (byteLen previous)
    if overlap = [] ∨ byteLen next < byteLen overlap ∨ isCharBoundary next (byteLen overlap) = false then
      overlapLoop previous next starts
    else
      match stripPrefix overlap next with
      | some suffix => some (some suffix)
      | none => overlapLoop previous next starts

/-- `mobile_transcript_incremental_suffix`. -/
def mobileTranscriptIncrementalSuffix (previous next : Str) : Option (Option Str) :=
  match stripPrefix previous next with
  | some suffix => some (some suffix)
  | none => do
    let starts ← lineStarts previous (charIndices 0 previous)
    overlapLoop previous next starts

/-- What is written: the reset of the colours, or text. -/
inductive Written where
  | sgrReset
  | text (text : Str)
  deriving DecidableEq

/-- The line before a capture that is written as a whole. -/
def refreshSeparator : Str := "\n--- lterm transcript refresh ---\n".toList

/-- `write_mobile_transcript_update`: the capture that is remembered, and what is written. -/
def writeMobileTranscriptUpdate (previous next : Str) : Option (Str × List Written) :=
  let next := terminalCapture (encode next)
  if next = previous then some (previous, [])
  else if previous = [] then some (next, [.sgrReset, .text next])
  else do
    let suffix ← mobileTranscriptIncrementalSuffix previous next
    match suffix with
    | some suffix => some (next, [.sgrReset, .text suffix])
    | none => some (next, [.sgrReset, .text refreshSeparator, .text next])

/-- The updates for captures, one after the other. -/
def follow (previous : Str) : List Str → Option (Str × List Written)
  | [] => some (previous, [])
  | next :: captures => do
    let (previous, written) ← writeMobileTranscriptUpdate previous next
    let (last, rest) ← follow previous captures
    some (last, written ++ rest)

/-- The text that is written, without the resets. -/
def textOf (written : List Written) : Str :=
  written.flatMap fun
    | .sgrReset => []
    | .text text => text

/-! ### The output of a session -/

/-- A complete sanitized line, without its line feed. -/
def Line (line : Str) : Prop := '\n' ∉ line ∧ ∀ ch ∈ line, Visible ch

instance : DecidablePred Line := fun line =>
  @instDecidableAnd _ _ inferInstance (List.decidableBAll _ line)

/-- The text of complete lines. -/
def captureOf (lines : List Str) : Str := lines.flatMap fun line => line ++ ['\n']

/-- The last lines of an output. -/
def window (tail : ℕ) (lines : List Str) : List Str := lines.drop (lines.length - tail)

/-- The captures of an output that grows by batches of lines, one after each batch. -/
def polls (tail : ℕ) (lines : List Str) : List (List Str) → List Str
  | [] => []
  | batch :: batches => captureOf (window tail (lines ++ batch)) :: polls tail (lines ++ batch) batches

/-- How many lines of the old window are not in the new one, after a batch. -/
def gone (tail : ℕ) (lines batch : List Str) : ℕ := (window tail lines).length + batch.length - tail

/-- The old window matches the new one after fewer lines than are gone: some of the new lines are taken for
old ones. -/
def Misread (tail : ℕ) (lines batch : List Str) : Prop :=
  ∃ n < gone tail lines batch, (window tail lines).drop n <+: window tail (lines ++ batch)

instance (tail : ℕ) (lines batch : List Str) : Decidable (Misread tail lines batch) := by
  unfold Misread; infer_instance

/-- No poll of an output that grows by batches takes new lines for old ones. -/
def Legible (tail : ℕ) (lines : List Str) : List (List Str) → Prop
  | [] => True
  | batch :: batches => ¬ Misread tail lines batch ∧ Legible tail (lines ++ batch) batches

/-! ### The overlap -/

/-- The proper parts of a text that begin a line, the longest first. -/
def overlaps : Str → List Str
  | [] => []
  | ch :: text => (if ch = '\n' ∧ text ≠ [] then [text] else []) ++ overlaps text

theorem stripPrefix_eq_some {start text suffix : Str} :
    stripPrefix start text = some suffix ↔ start ++ suffix = text := by
  unfold stripPrefix
  constructor
  · intro h
    split_ifs at h with hpre
    obtain ⟨rest, rfl⟩ := hpre
    rw [Option.some.injEq, List.drop_left] at h
    rw [h]
  · rintro rfl
    rw [if_pos (List.prefix_append _ _), List.drop_left]

/-- A prefix is no longer than the text and ends between two characters. -/
theorem fits_of_stripPrefix {overlap next suffix : Str} (h : stripPrefix overlap next = some suffix) :
    ¬ byteLen next < byteLen overlap ∧ isCharBoundary next (byteLen overlap) = true := by
  obtain rfl := stripPrefix_eq_some.mp h
  constructor
  · rw [byteLen_eq, byteLen_eq, encode_append, List.length_append]
    omega
  · rw [isCharBoundary, byteLen_eq, splitAtByte_append]
    rfl

theorem overlapLoop_cons {previous next overlap : Str} {start : ℕ} {starts : List ℕ}
    (hslice : slice previous start (byteLen previous) = some overlap) (hne : overlap ≠ []) :
    overlapLoop previous next (start :: starts) =
      match stripPrefix overlap next with
      | some suffix => some (some suffix)
      | none => overlapLoop previous next starts := by
  rw [overlapLoop, hslice]
  simp only [Option.bind_eq_bind, Option.bind_some, hne, false_or]
  rcases hstrip : stripPrefix overlap next with _ | suffix
  · split_ifs <;> rfl
  · obtain ⟨hlen, hboundary⟩ := fits_of_stripPrefix hstrip
    rw [if_neg (by simp [hlen, hboundary])]

theorem startsLine_eq {previous before text : Str} (h : previous = before ++ text) :
    startsLine previous (byteLen before) = some (decide (before.getLast? = some '\n')) := by
  rcases before with _ | ⟨ch, before⟩
  · rfl
  · have hpos := ch.utf8Size_pos
    have hne : byteLen (ch :: before) ≠ 0 := by
      simp only [byteLen, List.map_cons, List.sum_cons]
      omega
    rw [startsLine, if_neg hne, h, slice_to]
    rfl

/-- The offsets are those of the parts that begin a line. -/
theorem overlapLoop_eq {previous : Str} (next : Str) : ∀ (before text : Str), previous = before ++ text →
    ∃ starts, lineStarts previous (charIndices (byteLen before) text) = some starts ∧
      overlapLoop previous next starts =
        some (((if before.getLast? = some '\n' ∧ text ≠ [] then [text] else []) ++
          overlaps text).findSome? fun overlap => stripPrefix overlap next) := by
  intro before text
  induction text generalizing before with
  | nil => exact fun _ => ⟨[], rfl, by simp [overlapLoop, overlaps]⟩
  | cons ch text ih =>
    intro hprevious
    obtain ⟨starts, hstarts, hloop⟩ := ih (before ++ [ch]) (by rw [hprevious, List.append_cons])
    have hlength : byteLen (before ++ [ch]) = byteLen before + ch.utf8Size := by simp [byteLen]
    rw [hlength] at hstarts
    simp only [List.getLast?_concat, Option.some.injEq] at hloop
    have hnext : lineStarts previous (charIndices (byteLen before) (ch :: text)) =
        some (if before.getLast? = some '\n' then byteLen before :: starts else starts) := by
      rw [charIndices, lineStarts, startsLine_eq hprevious, hstarts]
      simp
    refine ⟨_, hnext, ?_⟩
    by_cases hbegins : before.getLast? = some '\n'
    · have hslice : slice previous (byteLen before) (byteLen previous) = some (ch :: text) := by
        rw [hprevious]
        exact slice_from before (ch :: text)
      rw [if_pos hbegins, overlapLoop_cons hslice (List.cons_ne_nil _ _), if_pos ⟨hbegins, List.cons_ne_nil _ _⟩,
        List.singleton_append, List.findSome?_cons, overlaps, hloop]
      rcases stripPrefix (ch :: text) next with _ | suffix <;> rfl
    · rw [if_neg hbegins, if_neg fun h => hbegins h.1, List.nil_append, overlaps]
      exact hloop

theorem mobileTranscriptIncrementalSuffix_eq (previous next : Str) :
    mobileTranscriptIncrementalSuffix previous next =
      some ((previous :: overlaps previous).findSome? fun overlap => stripPrefix overlap next) := by
  obtain ⟨starts, hstarts, hloop⟩ := @overlapLoop_eq previous next [] previous rfl
  rw [mobileTranscriptIncrementalSuffix, List.findSome?_cons]
  rcases stripPrefix previous next with _ | suffix
  · have hzero : byteLen [] = 0 := rfl
    rw [hzero] at hstarts
    show (lineStarts previous (charIndices 0 previous)).bind _ = _
    rw [hstarts, Option.bind_some, hloop]
    rfl
  · rfl

/-- The text that an update writes for a capture: nothing, or what the longest overlap leaves of it, or all
of it after a separator. -/
def newText (previous next : Str) : Str :=
  if next = previous then []
  else if previous = [] then next
  else
    ((previous :: overlaps previous).findSome? fun overlap => stripPrefix overlap next).getD
      (refreshSeparator ++ next)

/-- An update never slices inside a character. -/
theorem writeMobileTranscriptUpdate_eq (previous next : Str) : ∃ written,
    writeMobileTranscriptUpdate previous next = some (terminalCapture (encode next), written) ∧
      textOf written = newText previous (terminalCapture (encode next)) := by
  unfold writeMobileTranscriptUpdate newText
  generalize terminalCapture (encode next) = next
  simp only
  split_ifs with hsame hempty
  · exact ⟨[], by rw [hsame], rfl⟩
  · exact ⟨_, rfl, by simp [textOf]⟩
  · rw [mobileTranscriptIncrementalSuffix_eq]
    rcases (previous :: overlaps previous).findSome? fun overlap => stripPrefix overlap next with _ | suffix
    · exact ⟨_, rfl, by simp [textOf]⟩
    · exact ⟨_, rfl, by simp [textOf]⟩

/-- The parts of a text are its ends. -/
theorem isSuffix_of_mem_overlaps {overlap text : Str} (h : overlap ∈ overlaps text) : overlap <:+ text := by
  induction text with
  | nil => cases h
  | cons ch text ih =>
    rcases List.mem_append.mp h with hhead | hrest
    · split_ifs at hhead
      · rw [List.mem_singleton.mp hhead]
        exact List.suffix_cons _ _
      · cases hhead
    · exact (ih hrest).trans (List.suffix_cons _ _)

/-- What is written after a text that ends with the old capture ends with the new one. -/
theorem ends_newText {previous next written : Str} (h : previous <:+ written) :
    next <:+ written ++ newText previous next := by
  unfold newText
  split_ifs with hsame hempty
  · rw [hsame, List.append_nil]
    exact h
  · exact List.suffix_append _ _
  · rcases hfound : (previous :: overlaps previous).findSome? fun overlap => stripPrefix overlap next
      with _ | suffix
    · rw [Option.getD_none, ← List.append_assoc]
      exact List.suffix_append _ _
    · obtain ⟨overlap, hmem, hstrip⟩ := List.exists_of_findSome?_eq_some hfound
      have hend : overlap <:+ written := by
        rcases List.mem_cons.mp hmem with rfl | hrest
        · exact h
        · exact (isSuffix_of_mem_overlaps hrest).trans h
      obtain ⟨before, rfl⟩ := hend
      rw [Option.getD_some, ← stripPrefix_eq_some.mp hstrip, List.append_assoc]
      exact List.suffix_append _ _

/-- The updates of any captures: what is remembered is the last one, sanitized, and the text ends with it. -/
theorem follow_ends (captures : List Str) : ∀ {previous before : Str}, previous <:+ before →
    ∃ last written, follow previous captures = some (last, written) ∧
      last = (captures.getLast?.map fun next => terminalCapture (encode next)).getD previous ∧
      last <:+ before ++ textOf written := by
  induction captures with
  | nil =>
    intro previous before h
    exact ⟨previous, [], rfl, rfl, by simpa [textOf] using h⟩
  | cons next captures ih =>
    intro previous before h
    obtain ⟨written, hupdate, htext⟩ := writeMobileTranscriptUpdate_eq previous next
    have hends := @ends_newText previous (terminalCapture (encode next)) before h
    rw [← htext] at hends
    obtain ⟨last, rest, hfollow, hlast, hrest⟩ := ih hends
    refine ⟨last, written ++ rest, ?_, ?_, ?_⟩
    · rw [follow, hupdate]
      simp [hfollow]
    · rw [hlast, List.getLast?_cons]
      rcases captures.getLast? with _ | last <;> rfl
    · rw [textOf, List.flatMap_append, ← List.append_assoc]
      exact hrest

/-! ### Lines -/

@[simp] theorem captureOf_nil : captureOf [] = [] := rfl

theorem captureOf_cons (line : Str) (lines : List Str) :
    captureOf (line :: lines) = line ++ '\n' :: captureOf lines := by
  simp [captureOf]

theorem captureOf_append (lines more : List Str) : captureOf (lines ++ more) = captureOf lines ++ captureOf more :=
  List.flatMap_append

theorem captureOf_eq_nil {lines : List Str} : captureOf lines = [] ↔ lines = [] := by
  rcases lines with _ | ⟨line, lines⟩
  · simp
  · simp [captureOf_cons]

/-- The lines can be read off their text. -/
theorem lines_captureOf {lines : List Str} (h : ∀ line ∈ lines, Line line) :
    Lines.lines '\n' [] (captureOf lines) = lines := by
  induction lines with
  | nil => rfl
  | cons line lines ih =>
    rw [List.forall_mem_cons] at h
    rw [captureOf_cons, Lines.lines_line h.1.1, List.nil_append, ih h.2]

theorem captureOf_inj {old new : List Str} (hold : ∀ line ∈ old, Line line) (hnew : ∀ line ∈ new, Line line)
    (h : captureOf old = captureOf new) : old = new := by
  rw [← lines_captureOf hold, h, lines_captureOf hnew]

theorem captureOf_isPrefix_iff {old new : List Str} (hold : ∀ line ∈ old, Line line)
    (hnew : ∀ line ∈ new, Line line) : captureOf old <+: captureOf new ↔ old <+: new := by
  constructor
  · rintro ⟨rest, hrest⟩
    have hlines := congrArg (Lines.lines '\n' []) hrest
    rw [lines_captureOf hnew, Lines.lines_append, lines_captureOf hold] at hlines
    exact ⟨_, hlines⟩
  · rintro ⟨rest, rfl⟩
    rw [captureOf_append]
    exact List.prefix_append _ _

theorem stripPrefix_captureOf {old new : List Str} (hold : ∀ line ∈ old, Line line)
    (hnew : ∀ line ∈ new, Line line) : stripPrefix (captureOf old) (captureOf new) =
      if old <+: new then some (captureOf (new.drop old.length)) else none := by
  split_ifs with hpre
  · obtain ⟨rest, rfl⟩ := hpre
    rw [List.drop_left]
    exact stripPrefix_eq_some.mpr (captureOf_append old rest).symm
  · rw [stripPrefix, if_neg (mt (captureOf_isPrefix_iff hold hnew).mp hpre)]

theorem overlaps_line {line : Str} (h : '\n' ∉ line) (rest : Str) :
    overlaps (line ++ '\n' :: rest) = (if rest = [] then [] else [rest]) ++ overlaps rest := by
  induction line with
  | nil =>
    rw [List.nil_append, overlaps]
    by_cases hrest : rest = [] <;> simp [hrest]
  | cons ch line ih =>
    rw [List.mem_cons, not_or] at h
    rw [List.cons_append, overlaps, if_neg fun hch => h.1 hch.1.symm, List.nil_append]
    exact ih h.2

/-- After how many lines an old window matches a new one. -/
def shift : List Str → List Str → ℕ
  | [], _ => 0
  | line :: old, new => if line :: old <+: new then 0 else shift old new + 1

theorem drop_shift (old new : List Str) : old.drop (shift old new) <+: new := by
  induction old with
  | nil => simp
  | cons line old ih =>
    rw [shift]
    split_ifs with h
    · exact h
    · exact ih

theorem shift_le {old new : List Str} {n : ℕ} (h : old.drop n <+: new) : shift old new ≤ n := by
  induction old generalizing n with
  | nil => exact Nat.zero_le n
  | cons line old ih =>
    rw [shift]
    split_ifs with hpre
    · exact Nat.zero_le n
    · rcases n with _ | n
      · exact absurd h hpre
      · exact Nat.succ_le_succ (ih h)

/-- The overlap that is found. -/
theorem findSome_captureOf {old new : List Str} (hold : ∀ line ∈ old, Line line)
    (hnew : ∀ line ∈ new, Line line) (h : shift old new < old.length) :
    ((captureOf old :: overlaps (captureOf old)).findSome? fun overlap => stripPrefix overlap (captureOf new)) =
      some (captureOf (new.drop (old.length - shift old new))) := by
  induction old with
  | nil => exact absurd h (Nat.not_lt_zero _)
  | cons line old ih =>
    have hlines := List.forall_mem_cons.mp hold
    rw [List.findSome?_cons, stripPrefix_captureOf hold hnew]
    rw [shift] at h ⊢
    split_ifs at h ⊢ with hpre
    · rfl
    · rw [List.length_cons] at h ⊢
      have hne : captureOf old ≠ [] := by
        rw [Ne, captureOf_eq_nil]
        rintro rfl
        simp at h
      rw [captureOf_cons, overlaps_line hlines.1.1, if_neg hne, List.singleton_append]
      rw [Nat.add_sub_add_right]
      exact ih hlines.2 (by omega)

/-- What an update writes of two windows. -/
theorem newText_captureOf {old new : List Str} (hold : ∀ line ∈ old, Line line)
    (hnew : ∀ line ∈ new, Line line) (h : shift old new < old.length ∨ old = []) :
    newText (captureOf old) (captureOf new) = captureOf (new.drop (old.length - shift old new)) := by
  unfold newText
  split_ifs with hsame hempty
  · obtain rfl := captureOf_inj hnew hold hsame
    have hzero : shift new new = 0 := Nat.le_zero.mp (shift_le List.prefix_rfl)
    rw [hzero, Nat.sub_zero, List.drop_length]
    rfl
  · obtain rfl := captureOf_eq_nil.mp hempty
    rfl
  · have hne : old ≠ [] := mt captureOf_eq_nil.mpr hempty
    rw [findSome_captureOf hold hnew (h.resolve_right hne), Option.getD_some]

/-! ### Polls -/

section Poll
variable {tail : ℕ} {lines batch : List Str}

/-- The window after a batch: what stayed in the old one, and the batch. -/
theorem window_append (h : batch.length < tail) :
    window tail (lines ++ batch) = (window tail lines).drop (gone tail lines batch) ++ batch := by
  have hzero : lines.length + batch.length - tail - lines.length = 0 := by omega
  unfold window gone
  rw [List.length_append, List.drop_append, hzero, List.drop_zero, List.drop_drop, window, List.length_drop]
  congr 2
  omega

theorem gone_lt (h : batch.length < tail) :
    gone tail lines batch < (window tail lines).length ∨ window tail lines = [] := by
  rcases hlength : (window tail lines).length with _ | n
  · exact .inr (List.length_eq_zero_iff.mp hlength)
  · left
    have hle : (window tail lines).length ≤ tail := by
      rw [window, List.length_drop]
      omega
    rw [gone]
    omega

theorem gone_le : gone tail lines batch ≤ batch.length := by
  have hle : (window tail lines).length ≤ tail := by
    rw [window, List.length_drop]
    omega
  rw [gone]
  omega

theorem shift_le_gone (h : batch.length < tail) :
    shift (window tail lines) (window tail (lines ++ batch)) ≤ gone tail lines batch := by
  refine shift_le ?_
  rw [window_append h]
  exact List.prefix_append _ _

/-- The new lines that are taken for old ones. -/
def missed (tail : ℕ) (lines batch : List Str) : ℕ :=
  gone tail lines batch - shift (window tail lines) (window tail (lines ++ batch))

theorem missed_eq_zero_iff (h : batch.length < tail) :
    missed tail lines batch = 0 ↔ ¬ Misread tail lines batch := by
  have hle : shift (window tail lines) (window tail (lines ++ batch)) ≤ gone tail lines batch :=
    shift_le_gone h
  constructor
  · rintro hzero ⟨n, hn, hpre⟩
    have hshift := shift_le hpre
    rw [missed] at hzero
    omega
  · intro hnot
    by_contra hpos
    exact hnot ⟨_, by rw [missed] at hpos; omega, drop_shift _ _⟩

/-- A poll writes the last of the lines that are new. -/
theorem newText_poll (hlines : ∀ line ∈ lines, Line line) (hbatch : ∀ line ∈ batch, Line line)
    (h : batch.length < tail) :
    newText (captureOf (window tail lines)) (captureOf (window tail (lines ++ batch))) =
      captureOf (batch.drop (missed tail lines batch)) := by
  have hold : ∀ line ∈ window tail lines, Line line := fun line hline => hlines line (List.mem_of_mem_drop hline)
  have hnew : ∀ line ∈ window tail (lines ++ batch), Line line := fun line hline =>
    (List.mem_append.mp (List.mem_of_mem_drop hline)).elim (hlines line) (hbatch line)
  have hle : shift (window tail lines) (window tail (lines ++ batch)) ≤ gone tail lines batch :=
    shift_le_gone h
  have hgone : gone tail lines batch ≤ (window tail lines).length := by
    have hgone_lt : gone tail lines batch < (window tail lines).length ∨ window tail lines = [] :=
      gone_lt h
    rcases hgone_lt with hlt | hnil
    · exact hlt.le
    · rw [gone, hnil, List.length_nil]
      omega
  rw [newText_captureOf hold hnew ((gone_lt h).imp_left hle.trans_lt), missed, window_append h]
  have hnone : ((window tail lines).drop (gone tail lines batch)).length ≤
      (window tail lines).length - shift (window tail lines)
        ((window tail lines).drop (gone tail lines batch) ++ batch) := by
    rw [← window_append h, List.length_drop]
    omega
  rw [List.drop_append, List.drop_eq_nil_of_le hnone, List.nil_append, List.length_drop]
  rw [← window_append h] at hnone ⊢
  congr 2
  omega

end Poll

theorem terminalCapture_captureOf {lines : List Str} (h : ∀ line ∈ lines, Line line) :
    terminalCapture (encode (captureOf lines)) = captureOf lines := by
  refine Losses.terminalCapture_visible fun ch hch => ?_
  obtain ⟨line, hline, hmem⟩ := List.mem_flatMap.mp hch
  rcases List.mem_append.mp hmem with hin | hfeed
  · exact (h line hline).2 ch hin
  · rw [List.mem_singleton.mp hfeed]
    exact .inr (.inr (.inl rfl))

/-- The lines that the polls write of each batch. -/
def kept (tail : ℕ) (lines : List Str) : List (List Str) → List (List Str)
  | [] => []
  | batch :: batches => batch.drop (missed tail lines batch) :: kept tail (lines ++ batch) batches

theorem kept_suffix (tail : ℕ) (batches : List (List Str)) : ∀ lines,
    List.Forall₂ (· <:+ ·) (kept tail lines batches) batches := by
  induction batches with
  | nil => exact fun _ => .nil
  | cons batch batches ih => exact fun lines => .cons (List.drop_suffix _ _) (ih _)

theorem exists_of_suffixes {found batches : List (List Str)} (h : List.Forall₂ (· <:+ ·) found batches)
    {part : List Str} (hpart : part ∈ found) : ∃ batch ∈ batches, part <:+ batch := by
  induction h with
  | nil => cases hpart
  | cons hhead _ ih =>
    rcases List.mem_cons.mp hpart with rfl | hrest
    · exact ⟨_, List.mem_cons_self, hhead⟩
    · obtain ⟨batch, hbatch, hsuffix⟩ := ih hrest
      exact ⟨batch, List.mem_cons_of_mem _ hbatch, hsuffix⟩

theorem length_kept_le (tail : ℕ) (batches : List (List Str)) : ∀ lines,
    (kept tail lines batches).flatten.length ≤ batches.flatten.length := by
  induction batches with
  | nil => exact fun _ => le_rfl
  | cons batch batches ih =>
    intro lines
    have hrest := ih (lines ++ batch)
    rw [kept, List.flatten_cons, List.flatten_cons, List.length_append, List.length_append, List.length_drop]
    omega

/-- The polls write every line exactly if none takes new lines for old ones. -/
theorem kept_flatten_iff {tail : ℕ} {batches : List (List Str)} (h : ∀ batch ∈ batches, batch.length < tail) :
    ∀ lines, (kept tail lines batches).flatten = batches.flatten ↔ Legible tail lines batches := by
  induction batches with
  | nil => exact fun _ => iff_of_true rfl trivial
  | cons batch batches ih =>
    intro lines
    rw [List.forall_mem_cons] at h
    have hle := length_kept_le tail batches (lines ++ batch)
    rw [kept, List.flatten_cons, List.flatten_cons, Legible, ← ih h.2, ← missed_eq_zero_iff h.1]
    constructor
    · intro heq
      have hlength := congrArg List.length heq
      rw [List.length_append, List.length_append, List.length_drop] at hlength
      have hmost : missed tail lines batch ≤ batch.length := (Nat.sub_le _ _).trans gone_le
      have hzero : missed tail lines batch = 0 := by omega
      rw [hzero, List.drop_zero, List.append_right_inj] at heq
      exact ⟨hzero, heq⟩
    · rintro ⟨hzero, heq⟩
      rw [hzero, List.drop_zero, heq]

/-- The polls of an output. -/
theorem follow_polls {tail : ℕ} {batches : List (List Str)} : ∀ {lines : List Str},
    (∀ line ∈ lines ++ batches.flatten, Line line) → (∀ batch ∈ batches, batch.length < tail) →
      ∃ last written, follow (captureOf (window tail lines)) (polls tail lines batches) = some (last, written) ∧
        textOf written = captureOf (kept tail lines batches).flatten := by
  induction batches with
  | nil => exact fun _ _ => ⟨_, _, rfl, rfl⟩
  | cons batch batches ih =>
    intro lines hlines hfew
    rw [List.forall_mem_cons] at hfew
    have hall : ∀ line ∈ lines ++ batch ++ batches.flatten, Line line := by
      rw [List.append_assoc]
      exact hlines
    obtain ⟨last, rest, hfollow, htext⟩ := ih hall hfew.2
    have hnew : ∀ line ∈ window tail (lines ++ batch), Line line := fun line hline =>
      hall line (List.mem_append_left _ (List.mem_of_mem_drop hline))
    obtain ⟨written, hupdate, hwritten⟩ :=
      writeMobileTranscriptUpdate_eq (captureOf (window tail lines)) (captureOf (window tail (lines ++ batch)))
    rw [terminalCapture_captureOf hnew] at hupdate hwritten
    rw [newText_poll (fun line hline => hlines line (List.mem_append_left _ hline))
      (fun line hline => hall line (List.mem_append_left _ (List.mem_append_right _ hline))) hfew.1] at hwritten
    refine ⟨last, written ++ rest, ?_, ?_⟩
    · rw [polls, follow, hupdate]
      simp [hfollow]
    · rw [textOf, List.flatMap_append, kept, List.flatten_cons, captureOf_append]
      exact congrArg₂ _ hwritten htext

/-- **What a transcript shows.** Of an output that grows by fewer lines than the window has between two
polls, the transcript shows the first window and the last lines of each batch: every line exactly if no poll
takes new lines for old ones. On any captures the updates go through, and what is written ends with the last
capture. -/
theorem transcript_written :
    (∀ (tail : ℕ) (lines : List Str) (batches : List (List Str)),
      (∀ line ∈ lines ++ batches.flatten, Line line) → (∀ batch ∈ batches, batch.length < tail) →
        ∃ last written,
          follow [] (captureOf (window tail lines) :: polls tail lines batches) = some (last, written) ∧
          textOf written = captureOf (window tail lines ++ (kept tail lines batches).flatten) ∧
          List.Forall₂ (· <:+ ·) (kept tail lines batches) batches ∧
          (textOf written = captureOf (window tail lines ++ batches.flatten) ↔ Legible tail lines batches)) ∧
      ∀ (captures : List Str) (next : Str), ∃ written,
        follow [] (captures ++ [next]) = some (terminalCapture (encode next), written) ∧
          terminalCapture (encode next) <:+ textOf written := by
  constructor
  · intro tail lines batches hlines hfew
    have hfirst : ∀ line ∈ window tail lines, Line line := fun line hline =>
      hlines line (List.mem_append_left _ (List.mem_of_mem_drop hline))
    obtain ⟨first, hupdate, hwritten⟩ := writeMobileTranscriptUpdate_eq [] (captureOf (window tail lines))
    obtain ⟨last, rest, hfollow, htext⟩ := follow_polls hlines hfew
    rw [terminalCapture_captureOf hfirst] at hupdate hwritten
    have hnew : newText [] (captureOf (window tail lines)) = captureOf (window tail lines) := by
      by_cases hsame : captureOf (window tail lines) = []
      · rw [newText, if_pos hsame, hsame]
      · rw [newText, if_neg hsame, if_pos rfl]
    have hall : textOf (first ++ rest) = captureOf (window tail lines ++ (kept tail lines batches).flatten) := by
      rw [textOf, List.flatMap_append, captureOf_append, ← hnew]
      exact congrArg₂ _ hwritten htext
    refine ⟨last, first ++ rest, ?_, hall, kept_suffix tail batches lines, ?_⟩
    · rw [follow, hupdate]
      simp [hfollow]
    · rw [hall, ← kept_flatten_iff hfew lines]
      constructor
      · intro htexts
        rw [captureOf_append, captureOf_append, List.append_right_inj] at htexts
        refine captureOf_inj (fun line hline => ?_) (fun line hline => ?_) htexts
        · obtain ⟨found, hfound, hin⟩ := List.mem_flatten.mp hline
          obtain ⟨batch, hbatch, hsuffix⟩ := exists_of_suffixes (kept_suffix tail batches lines) hfound
          exact hlines line (List.mem_append_right _ (List.mem_flatten.mpr ⟨batch, hbatch, hsuffix.subset hin⟩))
        · exact hlines line (List.mem_append_right _ hline)
      · intro hsame
        rw [hsame]
  · intro captures next
    have hstart : ([] : Str) <:+ [] := List.suffix_rfl
    obtain ⟨last, written, hfollow, hlast, hends⟩ := follow_ends (captures ++ [next]) hstart
    rw [List.getLast?_concat, Option.map_some, Option.getD_some] at hlast
    rw [hlast] at hfollow hends
    exact ⟨written, hfollow, hends⟩

/-- Of lines that repeat one is lost: the window with a third `a` is the one before. -/
theorem transcript_repeated_line :
    (∀ line ∈ [['a'], ['a'], ['a']], Line line) ∧ (∀ batch ∈ [[['a']]], batch.length < 2) ∧
      (follow [] (captureOf (window 2 [['a'], ['a']]) :: polls 2 [['a'], ['a']] [[['a']]])).map
        (fun result => textOf result.2) = some "a\na\n".toList ∧
      "a\na\n".toList ≠ captureOf (window 2 [['a'], ['a']] ++ [['a']]) :=
  ⟨List.all_iff_forall_prop.mp (by decide +kernel), by decide +kernel, by decide +kernel, by decide +kernel⟩

end LightTerminal.Client.Transcript
