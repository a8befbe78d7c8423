import LightTerminal.Data.Slices
import LightTerminal.Session.Journal

/-! # Events are read back

The server sanitizes the fields of an event when it writes it, `load_segment` sanitizes them again and takes
every difference for damage. `roundTrip`: sanitizing twice is sanitizing once, so that a segment of lines of
events is read as these events, undamaged, in whatever chunks it is read. -/

namespace LightTerminal.Session.RoundTrip

open LightTerminal.Data.Text LightTerminal.Data.Slices LightTerminal.Library.Lines
open LightTerminal.Sanitize.Capture LightTerminal.Session.History LightTerminal.Session.Segment
open LightTerminal.Session.Journal

variable {json : Json}

/-! ### Identifiers -/

/-- A printable ASCII character. -/
def Printable (ch : Char) : Prop := 0x20 ≤ ch.toNat ∧ ch.toNat < 0x7f
  deriving Decidable

theorem printable_of_hexValue {ch : Char} (h : (hexValue ch).isSome = true) : Printable ch := by
  unfold hexValue at h
  have hrange : ∀ low high : Char, low ≤ ch ∧ ch ≤ high → low.toNat ≤ ch.toNat ∧ ch.toNat ≤ high.toNat :=
    fun _ _ h => h
  split_ifs at h with hdigit hlower hupper
  · have hnat := hrange _ _ hdigit
    simp only [Char.reduceToNat] at hnat
    exact ⟨by omega, by omega⟩
  · have hnat := hrange _ _ hlower
    simp only [Char.reduceToNat] at hnat
    exact ⟨by omega, by omega⟩
  · have hnat := hrange _ _ hupper
    simp only [Char.reduceToNat] at hnat
    exact ⟨by omega, by omega⟩
  · cases h

theorem isSome_of_mapM {α β : Type} {f : α → Option β} {l : List α} (h : (l.mapM f).isSome = true) :
    ∀ a ∈ l, (f a).isSome = true := by
  induction l with
  | nil => exact fun a ha => nomatch ha
  | cons b l ih =>
    rw [List.mapM_cons] at h
    rcases hb : f b with _ | value
    · rw [hb] at h
      cases h
    · rw [hb] at h
      rcases hrest : l.mapM f with _ | values
      · rw [hrest] at h
        cases h
      · intro a ha
        rcases List.mem_cons.mp ha with rfl | hmem
        · rw [hb]
          rfl
        · exact ih (by rw [hrest]; rfl) a hmem

theorem printable_of_parseSimple {text : Str} (h : (parseSimple text).isSome = true) :
    ∀ ch ∈ text, Printable ch := by
  unfold parseSimple at h
  split_ifs at h with hlength
  · rw [Option.isSome_map] at h
    exact fun ch hch => printable_of_hexValue (isSome_of_mapM h ch hch)
  · cases h

/-- A list from one place on, with the element at a later place. -/
theorem drop_eq {α : Type} {l : List α} {n m : ℕ} {a : α} (h : l[n + m]? = some a) :
    l.drop n = (l.drop n).take m ++ a :: l.drop (n + m + 1) := by
  obtain ⟨hlt, hget⟩ := List.getElem?_eq_some_iff.mp h
  have hsplit := (List.take_append_drop m (l.drop n)).symm
  rw [List.drop_drop, List.drop_eq_getElem_cons hlt, hget] at hsplit
  exact hsplit

theorem printable_of_parseHyphenated {text : Str} (h : (parseHyphenated text).isSome = true) :
    ∀ ch ∈ text, Printable ch := by
  unfold parseHyphenated at h
  split_ifs at h with hhyphens
  · have hall := printable_of_parseSimple h
    have hhyphen : Printable '-' := by decide
    obtain ⟨h8, h13, h18, h23⟩ := hhyphens
    have hfirst := drop_eq (n := 0) (m := 8) h8
    have hsecond := drop_eq (n := 9) (m := 4) h13
    have hthird := drop_eq (n := 14) (m := 4) h18
    have hfourth := drop_eq (n := 19) (m := 4) h23
    simp only [Nat.reduceAdd, List.drop_zero] at hfirst hsecond hthird hfourth
    intro ch hch
    rw [hfirst, hsecond, hthird, hfourth] at hch
    simp only [List.mem_append, List.mem_cons] at hch hall
    rcases hch with h | rfl | h | rfl | h | rfl | h | rfl | h
    · exact hall ch (by tauto)
    · exact hhyphen
    · exact hall ch (by tauto)
    · exact hhyphen
    · exact hall ch (by tauto)
    · exact hhyphen
    · exact hall ch (by tauto)
    · exact hhyphen
    · exact hall ch (by tauto)
  · cases h

theorem plain_of_printable {text : Str} (h : ∀ ch ∈ text, Printable ch) (hlength : text.length ≤ maxPaneBytes) :
    Plain text maxPaneBytes := by
  constructor
  · intro ch hch
    have hrange := h ch hch
    simp only [isC0OrC1, Bool.or_eq_false_iff, Bool.and_eq_false_iff, decide_eq_false_iff_not]
    unfold Printable at hrange
    omega
  · rw [byteLen_ascii fun ch hch => (h ch hch).2.trans (by decide)]
    exact hlength

/-- The text of a UUID is short and has no controls. -/
theorem plain_of_parseStr {text : Str} (h : (Uuid.parseStr text).isSome = true) : Plain text maxPaneBytes := by
  unfold Uuid.parseStr at h
  split_ifs at h with hsimple hhyphenated hbraces hurn
  · exact plain_of_printable (printable_of_parseSimple h) (by rw [hsimple]; decide)
  · exact plain_of_printable (printable_of_parseHyphenated h) (by rw [hhyphenated]; decide)
  · obtain ⟨hlength, hopen, hclose⟩ := hbraces
    have hall := printable_of_parseHyphenated h
    rw [List.getLast?_eq_getElem?, hlength] at hclose
    have hrest := drop_eq (n := 1) (m := 36) hclose
    obtain ⟨tail, rfl⟩ : ∃ tail, text = '\x7b' :: tail := List.head?_eq_some_iff.mp hopen
    rw [List.drop_one, List.tail_cons] at hrest hall
    have hnone : List.drop 38 ('\x7b' :: tail) = [] := List.drop_eq_nil_of_le hlength.le
    rw [hnone] at hrest
    refine plain_of_printable (fun ch hch => ?_) (by rw [hlength]; decide)
    rw [hrest] at hch
    rcases List.mem_cons.mp hch with rfl | hmem
    · decide
    · rcases List.mem_append.mp hmem with hin | hend
      · exact hall ch hin
      · rw [List.mem_singleton.mp hend]
        decide
  · obtain ⟨hlength, hurn⟩ := hurn
    have hall := printable_of_parseHyphenated h
    refine plain_of_printable (fun ch hch => ?_) (by rw [hlength]; decide)
    rw [← List.take_append_drop 9 text, hurn] at hch
    rcases List.mem_append.mp hch with hmem | hmem
    · exact List.all_iff_forall_prop.mp (by decide : _ = true) ch hmem
    · exact hall ch hmem
  · cases h

/-! ### Events -/

theorem terminalText_idem (value : Str) : terminalText (terminalText value) = terminalText value := by
  refine terminalText_of_noControls fun ch hch => ?_
  simpa using (List.mem_filter.mp hch).2

/-- A trigger that is known, and whose parent is a UUID. -/
def Admissible : SessionExitTrigger → Prop
  | .parentCascade parentSessionId => (Uuid.parseStr parentSessionId).isSome = true
  | .unknown => False
  | _ => True

theorem sanitizeLoadedTrigger_admissible {trigger : SessionExitTrigger} (h : Admissible trigger) :
    sanitizeLoadedTrigger trigger = some (trigger, false) := by
  refine sanitizeLoadedTrigger_server ?_
  cases trigger with
  | parentCascade parentSessionId => exact ⟨plain_of_parseStr h, h⟩
  | unknown => exact h
  | leaderExited => trivial
  | closeRequested => trivial
  | daemonShutdown => trivial

/-- An event that `trigger_claimed` or `leader_reaped` builds from an identity that is well formed when it
is sanitized. -/
inductive Built : LifecycleEvent → Prop
  | triggerClaimed (eventId : Uuid) {identity : LifecycleIdentity} (claimedAt : ℕ)
      {trigger : SessionExitTrigger} (shape : hasValidShape identity.stored = true)
      (admissible : Admissible trigger) : Built (triggerClaimed eventId identity claimedAt trigger)
  | leaderReaped (eventId : Uuid) {identity : LifecycleIdentity} (claimedAt reapedAt : ℕ)
      {trigger : SessionExitTrigger} (exitCode : ℤ) (signal : Option Str)
      (shape : hasValidShape identity.stored = true) (admissible : Admissible trigger) :
      Built (leaderReaped eventId identity claimedAt reapedAt trigger exitCode signal)

theorem Built.loadable {event : LifecycleEvent} (h : Built event) : Loadable event := by
  cases h with
  | triggerClaimed eventId claimedAt shape admissible =>
    exact loadable_triggerClaimed shape (sanitizeLoadedTrigger_admissible admissible) _ _
  | leaderReaped eventId claimedAt reapedAt exitCode signal shape admissible =>
    exact loadable_leaderReaped shape (sanitizeLoadedTrigger_admissible admissible) _ _ _ _ _

/-! ### Segments -/

/-- `load_segment` on a file of that length, the first `MAX_SEGMENT_BYTES` of which come in the chunks of
`reader`. -/
def loadChunked (json : Json) (length : ℕ) (reader : List (List UInt8)) (loaded : LoadedEvents) :
    LoadedEvents :=
  let loaded := if maxSegmentBytes < length then { loaded with degraded := true } else loaded
  loadLoop json (reader.flatten.length + 1) reader loaded

theorem flatten_buffered (bytes : List UInt8) : (buffered bytes).flatten = bytes := flatten_chunks le_rfl

theorem filled_buffered (bytes : List UInt8) : Filled (buffered bytes) := filled_chunks _ _

theorem loadSegment_eq (bytes : List UInt8) (loaded : LoadedEvents) :
    loadSegment json bytes loaded =
      loadChunked json bytes.length (buffered (bytes.take maxSegmentBytes)) loaded := by
  unfold loadSegment loadChunked
  simp only
  rw [flatten_buffered]

/-- The line of an event that passes the checks. -/
structure LineOf (json : Json) (event : LifecycleEvent) (line : List UInt8) : Prop where
  written : toJsonLine json event = some line
  readable : Readable json event
  loadable : Loadable event

/-- A turn of the loop on the line of an event. -/
theorem loadLoop_line {event : LifecycleEvent} {line rest : List UInt8} (h : LineOf json event line)
    {reader : List (List UInt8)} (hfilled : Filled reader) (hreader : reader.flatten = line ++ rest)
    (turns : ℕ) (loaded : LoadedEvents) :
    ∃ reader', loadLoop json (turns + 1) reader loaded =
        loadLoop json turns reader' ⟨loaded.events ++ [event], loaded.degraded⟩ ∧
      reader'.flatten = rest ∧ Filled reader' := by
  obtain ⟨rfl, hlength⟩ := toJsonLine_eq_some h.written
  rw [List.append_assoc] at hreader
  obtain ⟨reader', hread, hrest, hfilled'⟩ := readBoundedLine_line hfilled hreader h.readable.oneLine
  refine ⟨reader', ?_, hrest, hfilled'⟩
  rw [if_pos hlength] at hread
  have hline : loadLine json (json.toVec event) loaded = ⟨loaded.events ++ [event], loaded.degraded⟩ := by
    have hload : validateAndSanitizeLoaded event = some (event, false) := h.loadable
    unfold loadLine
    rw [h.readable.roundTrip, Option.bind_some, hload]
    simp only [Bool.or_false]
  rw [loadLoop, hread]
  simp only
  rw [hline]

theorem loadLoop_lines {events : List LifecycleEvent} {lines : List (List UInt8)}
    (h : List.Forall₂ (LineOf json) events lines) {reader : List (List UInt8)} (hfilled : Filled reader)
    (hreader : reader.flatten = lines.flatten) {turns : ℕ} (hturns : reader.flatten.length < turns)
    (loaded : LoadedEvents) :
    loadLoop json turns reader loaded = ⟨loaded.events ++ events, loaded.degraded⟩ := by
  induction h generalizing reader turns loaded with
  | nil =>
    obtain ⟨turns, rfl⟩ : ∃ n, turns = n + 1 := ⟨turns - 1, by omega⟩
    have hnil : reader.flatten = [] := hreader
    have hno : newline ∉ reader.flatten := by
      rw [hnil]
      exact List.not_mem_nil
    rw [loadLoop, readBoundedLine_end hno, if_pos hnil, List.append_nil]
  | @cons event line events lines hline hrest ih =>
    obtain ⟨turns, rfl⟩ : ∃ n, turns = n + 1 := ⟨turns - 1, by omega⟩
    rw [List.flatten_cons] at hreader
    obtain ⟨reader', hturn, hflat, hfilled'⟩ := loadLoop_line hline hfilled hreader turns loaded
    have hpos : 0 < line.length := by
      rw [(toJsonLine_eq_some hline.written).1, List.length_append, List.length_singleton]
      omega
    have hless : reader'.flatten.length < turns := by
      rw [hreader, List.length_append] at hturns
      rw [hflat]
      omega
    rw [hturn, ih hfilled' hflat hless, List.append_assoc]
    rfl

/-- Sanitizing is idempotent, and a segment of the lines of events that were built is read as these
events: in order, none missing, not degraded, in any chunks. -/
theorem roundTrip (json : Json) :
    (∀ value, terminalText (terminalText value) = terminalText value) ∧
    (∀ value maxBytes, sanitizedField (sanitizedField value maxBytes) maxBytes =
      sanitizedField value maxBytes) ∧
    ∀ events lines, List.Forall₂ (fun event line => toJsonLine json event = some line) events lines →
      (∀ event ∈ events, Built event) → (∀ event ∈ events, Readable json event) →
      lines.flatten.length ≤ maxSegmentBytes →
        loadSegment json lines.flatten ⟨[], false⟩ = ⟨events, false⟩ ∧
        ∀ reader, Filled reader → reader.flatten = lines.flatten →
          loadChunked json lines.flatten.length reader ⟨[], false⟩ = ⟨events, false⟩ := by
  refine ⟨terminalText_idem, sanitizedField_idem, fun events lines hwritten hbuilt hread hlength => ?_⟩
  have hlines : List.Forall₂ (LineOf json) events lines := by
    have hevents : ∀ event ∈ events, Readable json event ∧ Loadable event :=
      fun event hmem => ⟨hread event hmem, (hbuilt event hmem).loadable⟩
    have hboth := (List.forall₂_and_left events lines).mpr ⟨hevents, hwritten⟩
    exact hboth.imp fun event line h => ⟨h.2, h.1.1, h.1.2⟩
  have hall : ∀ reader, Filled reader → reader.flatten = lines.flatten →
      loadChunked json lines.flatten.length reader ⟨[], false⟩ = ⟨events, false⟩ := by
    intro reader hfilled hreader
    unfold loadChunked
    simp only [if_neg (not_lt.mpr hlength)]
    rw [loadLoop_lines hlines hfilled hreader (Nat.lt_succ_self _), List.nil_append]
  refine ⟨?_, hall⟩
  rw [loadSegment_eq, List.take_of_length_le hlength]
  exact hall _ (filled_buffered _) (flatten_buffered _)

theorem Built.of_journaled {event : LifecycleEvent} (h : Journaled event) : Built event := by
  have hadmissible : ∀ {trigger}, FromServer trigger → Admissible trigger := by
    intro trigger hserver
    cases trigger with
    | parentCascade parentSessionId => exact hserver.2
    | unknown => exact hserver
    | leaderExited => trivial
    | closeRequested => trivial
    | daemonShutdown => trivial
  cases h with
  | claimed eventId claimedAt session server =>
    exact .triggerClaimed eventId claimedAt (hasValidShape_stored session) (hadmissible server)
  | reaped eventId claimedAt reapedAt exitCode signal session server =>
    exact .leaderReaped eventId claimedAt reapedAt exitCode signal (hasValidShape_stored session)
      (hadmissible server)

theorem roundTrip_two :
    let lines := [claimText "1" "a" "20" ++ [newline], claimText "2" "b" "30" ++ [newline]]
    loadSegment someJson lines.flatten ⟨[], false⟩ = ⟨[firstEvent, secondEvent], false⟩ := by
  refine ((roundTrip someJson).2.2 [firstEvent, secondEvent] _ ?_ ?_ ?_ ?_).1
  · exact .cons (by decide +kernel) (.cons (by decide +kernel) .nil)
  · intro event hmem
    rcases List.mem_pair.mp hmem with rfl | rfl
    · exact .of_journaled journaled_firstEvent
    · exact .of_journaled journaled_secondEvent
  · intro event hmem
    rcases List.mem_pair.mp hmem with rfl | rfl
    · exact (twoSteps_events [] firstEvent (by simp [twoSteps])).1
    · exact (twoSteps_events [] secondEvent (by simp [twoSteps])).1
  · decide +kernel

end LightTerminal.Session.RoundTrip
