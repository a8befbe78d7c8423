import LightTerminal.Client.Keyboard

/-! # What a client observes in the output

`TerminalOutputTracker` (`client.rs`) reads the output of a pane chunk by chunk, with three scans: the
one of the keyboard protocol (`Keyboard`), the one of the alternate screen and of the cursor, and the one
of what may damage the row of the status bar. Each chunk is scanned twice, behind the remembered end of the
output and alone.

`observeAll_eq`: for every way to cut the output into chunks, every scan has seen every sequence whose
final byte is at most 63 bytes behind its introducer, once and in order. -/

namespace LightTerminal.Client.OutputTracker

open LightTerminal.Library.Occurrences LightTerminal.Client.Keyboard

/-! ### The alternate screen and the cursor -/

/-- `AltScreenState`. -/
structure AltScreenState where
  active : Bool
  cursorVisible : Bool
  deriving DecidableEq, Repr

/-- `AltScreenState::default`. -/
def AltScreenState.default : AltScreenState := ⟨false, true⟩

/-- `params.split(|byte| *byte == b';')`. -/
def splitParams (params : List UInt8) : List (List UInt8) := params.splitOn 0x3b

/-- `b"47"`, `b"1047"` and `b"1049"`. -/
def altScreenParams : List (List UInt8) := [[0x34, 0x37], [0x31, 0x30, 0x34, 0x37], [0x31, 0x30, 0x34, 0x39]]

/-- `alt_screen_param_matches`. -/
def altScreenParamMatches (params : List UInt8) : Bool :=
  (splitParams params).any fun param => altScreenParams.contains param

/-- `dectcem_param_matches`. -/
def dectcemParamMatches (params : List UInt8) : Bool :=
  (splitParams params).any fun param => param == [0x32, 0x35]

/-- The state after a mode is set, or reset. -/
def AltScreenState.store (state : AltScreenState) (set : Bool) (params : List UInt8) : AltScreenState :=
  { active := if altScreenParamMatches params then set else state.active
    cursorVisible := if dectcemParamMatches params then set else state.cursorVisible }

/-- The scan at one position: how far its final byte is, whether that is `h`, and the parameters. -/
def modeAt : List UInt8 → Option (ℕ × Bool × List UInt8)
  | escape :: bracket :: kind :: rest =>
    if escape = 0x1b ∧ bracket = 0x5b ∧ kind = 0x3f then
      match findFinal (rest.take 61) with
      | some (k, byte) => if byte = 0x68 ∨ byte = 0x6c then some (k + 3, byte == 0x68, rest.take k) else none
      | none => none
    else none
  | _ => none

/-- The loop of `observe_alt_screen_sequences_after`, at the position `i`. -/
def altScreenLoop (minFinalIndex : ℕ) : ℕ → List UInt8 → AltScreenState → AltScreenState
  | _, [], state => state
  | i, byte :: rest, state =>
    if rest.length < 3 then state
    else if 0 < minFinalIndex ∧ minFinalIndex ≤ i then state
    else
      altScreenLoop minFinalIndex (i + 1) rest
        (match modeAt (byte :: rest) with
        | some (k, set, params) => if minFinalIndex ≤ i + k then state.store set params else state
        | none => state)

/-- `observe_alt_screen_sequences_after`. -/
def observeAltScreenSequencesAfter (bytes : List UInt8) (minFinalIndex : ℕ) (state : AltScreenState) :
    AltScreenState :=
  altScreenLoop minFinalIndex 0 bytes state

/-! ### The row of the status bar -/

/-- A number that saturates at the greatest `u16`. -/
def saturate (n : ℕ) : ℕ := min n (2 ^ 16 - 1)

/-- `value.saturating_mul(10).saturating_add(digit)`. -/
def pushDigit (value : ℕ) (digit : UInt8) : ℕ := saturate (saturate (value * 10) + (digit.toNat - 0x30))

/-- The loop of `csi_first_numeric_param`. -/
def firstNumericParam (value : ℕ) (seenDigit : Bool) : List UInt8 → Option ℕ
  | [] => some (if seenDigit then value else 0)
  | byte :: rest =>
    if isAsciiDigit byte then firstNumericParam (pushDigit value byte) true rest
    else if byte = 0x3b then some (if seenDigit then value else 0)
    else none

/-- `csi_first_numeric_param`. -/
def csiFirstNumericParam (params : List UInt8) : Option ℕ :=
  if params = [] then some 0 else firstNumericParam 0 false params

/-- The loop of `csi_numeric_params`. -/
def numericParams (current : ℕ) (seenDigit : Bool) : List UInt8 → Option (List (Option ℕ))
  | [] => some [if seenDigit then some current else none]
  | byte :: rest =>
    if isAsciiDigit byte then numericParams (pushDigit current byte) true rest
    else if byte = 0x3b then
      (numericParams 0 false rest).map fun out => (if seenDigit then some current else none) :: out
    else none

/-- `csi_numeric_params`. -/
def csiNumericParams (params : List UInt8) : Option (List (Option ℕ)) := numericParams 0 false params

/-- `csi_decstbm_touches_status_area`. -/
def csiDecstbmTouchesStatusArea (params : List UInt8) (statusScrollBottom : Option ℕ) : Bool :=
  if params = [] then true
  else
    match statusScrollBottom with
    | none => true
    | some statusScrollBottom =>
      match csiNumericParams params with
      | none => true
      | some params =>
        if params = [] ∨ params.all (fun param => param.getD 0 == 0) then true
        else
          match params[1]? with
          | some (some bottom) => if bottom = 0 then true else decide (statusScrollBottom < bottom)
          | _ => true

/-- `csi_sequence_can_damage_status_area`. -/
def csiSequenceCanDamageStatusArea (finalByte : UInt8) (params : List UInt8)
    (statusScrollBottom : Option ℕ) : Bool :=
  if finalByte = 0x4a then
    match csiFirstNumericParam params with
    | none => true
    | some param => decide (param ≤ 3)
  else if finalByte = 0x72 then csiDecstbmTouchesStatusArea params statusScrollBottom
  else false

/-- The loop of `observe_status_area_damage_sequences_after`, at the position `i`. -/
def statusAreaLoop (minFinalIndex : ℕ) (statusScrollBottom : Option ℕ) : ℕ → List UInt8 → Bool
  | _, [] => false
  | _, [_] => false
  | i, byte :: next :: rest =>
    if 0 < minFinalIndex ∧ minFinalIndex ≤ i then false
    else if byte = 0x1b ∧ next = 0x63 then
      if minFinalIndex ≤ i + 1 then true
      else statusAreaLoop minFinalIndex statusScrollBottom (i + 2) rest
    else if byte = 0x1b ∧ next = 0x5b then
      match findFinal (rest.take 62) with
      | some (k, final) =>
        if minFinalIndex ≤ i + 2 + k ∧
            csiSequenceCanDamageStatusArea final (rest.take k) statusScrollBottom = true then true
        else statusAreaLoop minFinalIndex statusScrollBottom (i + 1) (next :: rest)
      | none => statusAreaLoop minFinalIndex statusScrollBottom (i + 1) (next :: rest)
    else statusAreaLoop minFinalIndex statusScrollBottom (i + 1) (next :: rest)

/-- `observe_status_area_damage_sequences_after`. -/
def observeStatusAreaDamageSequencesAfter (bytes : List UInt8) (minFinalIndex : ℕ)
    (statusScrollBottom : Option ℕ) : Bool :=
  statusAreaLoop minFinalIndex statusScrollBottom 0 bytes

/-! ### The tracker -/

/-- `TerminalOutputTracker`. -/
structure TerminalOutputTracker where
  restoreState : KeyboardProtocolRestoreState
  altScreen : AltScreenState
  statusScrollBottom : Option ℕ
  tail : List UInt8
  deriving DecidableEq, Repr

namespace TerminalOutputTracker

/-- `TerminalOutputTracker::new`, with states of its own. -/
def new (statusScrollBottom : Option ℕ) : TerminalOutputTracker :=
  ⟨.default, .default, statusScrollBottom, []⟩

/-- `TerminalOutputTracker::observe`, with `status_area_dirty`. -/
def observe (tracker : TerminalOutputTracker) (bytes : List UInt8) : TerminalOutputTracker × Bool :=
  let boundary := tracker.tail ++ bytes.take (min bytes.length tailLimit)
  let crossed : KeyboardProtocolRestoreState × AltScreenState × Bool :=
    if tracker.tail ≠ [] ∧ bytes ≠ [] then
      (observeKeyboardProtocolSequencesAfter boundary tracker.tail.length tracker.restoreState,
        observeAltScreenSequencesAfter boundary tracker.tail.length tracker.altScreen,
        tracker.statusScrollBottom.isSome &&
          observeStatusAreaDamageSequencesAfter boundary tracker.tail.length tracker.statusScrollBottom)
    else (tracker.restoreState, tracker.altScreen, false)
  ({ tracker with
      restoreState := observeKeyboardProtocolSequencesAfter bytes 0 crossed.1
      altScreen := observeAltScreenSequencesAfter bytes 0 crossed.2.1
      tail := nextTail tracker.tail bytes },
    crossed.2.2 || (tracker.statusScrollBottom.isSome &&
      observeStatusAreaDamageSequencesAfter bytes 0 tracker.statusScrollBottom))

/-- One more chunk, and whether any of the chunks damages the row of the status bar. -/
def observeNext (state : TerminalOutputTracker × Bool) (bytes : List UInt8) : TerminalOutputTracker × Bool :=
  ((state.1.observe bytes).1, state.2 || (state.1.observe bytes).2)

end TerminalOutputTracker

/-- A new tracker after the chunks of output, and whether any of them damages the row. -/
def observeAll (statusScrollBottom : Option ℕ) (chunks : List (List UInt8)) : TerminalOutputTracker × Bool :=
  chunks.foldl TerminalOutputTracker.observeNext (.new statusScrollBottom, false)

/-! ### The sequences of a stream -/

/-- A reset (`ESC c`), or `CSI` with what stands between it and its final byte. -/
inductive ControlSequence where
  | ris
  | csi (params : List UInt8) (final : UInt8)
  deriving DecidableEq, Repr

/-- The sequence that begins at the head of a list, and how far its final byte is behind the head. -/
def beginsAt : List UInt8 → Option (ℕ × ControlSequence)
  | escape :: next :: rest =>
    if escape = 0x1b ∧ next = 0x63 then some (1, .ris)
    else if escape = 0x1b ∧ next = 0x5b then
      (findFinal rest).map fun x => (x.1 + 2, .csi (rest.take x.1) x.2)
    else none
  | _ => none

/-- The sequence at the head of a list, if its final byte is at most 63 bytes behind. -/
def nearAt (bytes : List UInt8) : Option ControlSequence :=
  match beginsAt bytes with
  | some (distance, sequence) => if distance ≤ 63 then some sequence else none
  | none => none

/-- The sequences of a stream whose final byte is at most 63 bytes behind the introducer, in order. -/
def sequences : List UInt8 → List ControlSequence
  | [] => []
  | byte :: rest => (nearAt (byte :: rest)).toList ++ sequences rest

namespace ControlSequence

/-- What the keyboard protocol has of a sequence. -/
def keyboard : ControlSequence → Option Sequence
  | csi (kind :: params) final => if isKind kind = true ∧ final = 0x75 then some (kind, params) else none
  | _ => none

/-- The modes that a sequence sets (`true`), or resets. -/
def mode : ControlSequence → Option (Bool × List UInt8)
  | csi (kind :: params) final =>
    if kind = 0x3f ∧ (final = 0x68 ∨ final = 0x6c) then some (final == 0x68, params) else none
  | _ => none

/-- The sequence may damage the row of the status bar. -/
def damages (statusScrollBottom : Option ℕ) : ControlSequence → Bool
  | ris => true
  | csi params final => csiSequenceCanDamageStatusArea final params statusScrollBottom

/-- What a sequence does to the keyboard state. -/
def toKeyboard (state : KeyboardProtocolRestoreState) (sequence : ControlSequence) :
    KeyboardProtocolRestoreState :=
  match sequence.keyboard with
  | some sequence => observeSequence state sequence
  | none => state

/-- What a sequence does to the flags of the screen. -/
def toAltScreen (state : AltScreenState) (sequence : ControlSequence) : AltScreenState :=
  match sequence.mode with
  | some (set, params) => state.store set params
  | none => state

end ControlSequence

/-! ### Any chunks -/

theorem beginsAt_eq_some {bytes : List UInt8} {k : ℕ} {sequence : ControlSequence} :
    beginsAt bytes = some (k, sequence) ↔
      (∃ rest, bytes = 0x1b :: 0x63 :: rest ∧ k = 1 ∧ sequence = .ris) ∨
        ∃ rest j final, bytes = 0x1b :: 0x5b :: rest ∧ findFinal rest = some (j, final) ∧ k = j + 2 ∧
          sequence = .csi (rest.take j) final := by
  constructor
  · intro h
    unfold beginsAt at h
    split at h
    · next escape next rest =>
      split_ifs at h with hris hcsi
      · obtain ⟨rfl, rfl⟩ := hris
        simp only [Option.some.injEq, Prod.mk.injEq] at h
        exact .inl ⟨rest, rfl, h.1.symm, h.2.symm⟩
      · obtain ⟨rfl, rfl⟩ := hcsi
        obtain ⟨⟨j, final⟩, hfind, heq⟩ := Option.map_eq_some_iff.mp h
        simp only [Prod.mk.injEq] at heq
        exact .inr ⟨rest, j, final, rfl, hfind, heq.1.symm, heq.2.symm⟩
    · cases h
  · rintro (⟨rest, rfl, rfl, rfl⟩ | ⟨rest, j, final, rfl, hfind, rfl, rfl⟩)
    · simp [beginsAt]
    · simp [beginsAt, hfind]

theorem beginsAt_lt {bytes : List UInt8} {k : ℕ} {sequence : ControlSequence}
    (h : beginsAt bytes = some (k, sequence)) : k < bytes.length := by
  rcases beginsAt_eq_some.mp h with ⟨rest, rfl, rfl, -⟩ | ⟨rest, j, final, rfl, hfind, rfl, -⟩
  · simp
  · have hlt := findFinal_lt hfind
    simp only [List.length_cons]
    omega

theorem beginsAt_append {bytes : List UInt8} {x : ℕ × ControlSequence} (h : beginsAt bytes = some x)
    (more : List UInt8) : beginsAt (bytes ++ more) = some x := by
  obtain ⟨k, sequence⟩ := x
  rcases beginsAt_eq_some.mp h with ⟨rest, rfl, rfl, rfl⟩ | ⟨rest, j, final, rfl, hfind, rfl, rfl⟩
  · exact beginsAt_eq_some.mpr (.inl ⟨rest ++ more, rfl, rfl, rfl⟩)
  · have hlt := findFinal_lt hfind
    refine beginsAt_eq_some.mpr (.inr ⟨rest ++ more, j, final, rfl, findFinal_append hfind more, rfl, ?_⟩)
    rw [List.take_append_of_le_length (by omega)]

theorem beginsAt_restrict {bytes more : List UInt8} {k : ℕ} {sequence : ControlSequence}
    (h : beginsAt (bytes ++ more) = some (k, sequence)) (hk : k < bytes.length) :
    beginsAt bytes = some (k, sequence) := by
  obtain _ | ⟨a, _ | ⟨b, bytes⟩⟩ := bytes
  · simp at hk
  · rcases beginsAt_eq_some.mp h with ⟨rest, -, rfl, -⟩ | ⟨rest, j, final, -, -, rfl, -⟩ <;> simp at hk
  · simp only [List.length_cons] at hk
    rcases beginsAt_eq_some.mp h with ⟨rest, hbytes, rfl, rfl⟩ | ⟨rest, j, final, hbytes, hfind, rfl, rfl⟩
    · simp only [List.cons_append, List.cons.injEq] at hbytes
      obtain ⟨rfl, rfl, -⟩ := hbytes
      exact beginsAt_eq_some.mpr (.inl ⟨bytes, rfl, rfl, rfl⟩)
    · simp only [List.cons_append, List.cons.injEq] at hbytes
      obtain ⟨rfl, rfl, rfl⟩ := hbytes
      refine beginsAt_eq_some.mpr (.inr ⟨bytes, j, final, rfl, findFinal_restrict hfind (by omega), rfl, ?_⟩)
      rw [List.take_append_of_le_length (by omega)]

theorem getElem?_of_findFinal {bytes : List UInt8} {k : ℕ} {final : UInt8}
    (h : findFinal bytes = some (k, final)) : bytes[k]? = some final := by
  induction bytes generalizing k with
  | nil => cases h
  | cons byte bytes ih =>
    unfold findFinal at h
    split_ifs at h
    · simp only [Option.some.injEq, Prod.mk.injEq] at h
      rw [← h.1, ← h.2]
      rfl
    · obtain ⟨⟨j, byte'⟩, hfind, heq⟩ := Option.map_eq_some_iff.mp h
      simp only [Prod.mk.injEq] at heq
      obtain ⟨rfl, rfl⟩ := heq
      rw [List.getElem?_cons_succ]
      exact ih hfind

/-- A sequence that begins later ends later, or is the reset that ends an earlier `CSI`. -/
theorem beginsAt_apart {bytes : List UInt8} {k i k' : ℕ} {sequence sequence' : ControlSequence}
    (h : beginsAt bytes = some (k, sequence)) (hi : 0 < i)
    (h' : beginsAt (bytes.drop i) = some (k', sequence')) :
    k < i + k' ∨ ∃ params, sequence = .csi params 0x63 := by
  have hget : ∀ n, bytes[i + n]? = (bytes.drop i)[n]? := fun n => by rw [List.getElem?_drop]
  rcases beginsAt_eq_some.mp h with ⟨rest, rfl, rfl, -⟩ | ⟨rest, j, final, rfl, hfind, rfl, rfl⟩
  · left
    rcases beginsAt_eq_some.mp h' with ⟨-, -, rfl, -⟩ | ⟨-, j', -, -, -, rfl, -⟩ <;> omega
  · -- the second byte of the later sequence is final, so that the earlier one ends there at the latest
    obtain ⟨next, tail, hdrop, hfinal, hk'⟩ : ∃ next tail,
        (0x1b :: 0x5b :: rest).drop i = 0x1b :: next :: tail ∧ isFinal next = true ∧
          (2 ≤ k' ∨ k' = 1 ∧ next = 0x63) := by
      rcases beginsAt_eq_some.mp h' with ⟨tail, hdrop, rfl, -⟩ | ⟨tail, j', -, hdrop, -, rfl, -⟩
      · exact ⟨0x63, tail, hdrop, by decide, .inr ⟨rfl, rfl⟩⟩
      · exact ⟨0x5b, tail, hdrop, by decide, .inl (by omega)⟩
    have hescape := hget 0
    have hnext := hget 1
    rw [hdrop] at hescape hnext
    obtain _ | _ | i := i
    · omega
    · simp at hescape
    · have hat : rest[i + 1]? = some next := by simpa using hnext
      have hle : j ≤ i + 1 := by
        by_contra hlt
        have hnot := not_isFinal_of_findFinal hfind (by omega) hat
        rw [hnot] at hfinal
        cases hfinal
      rcases hk' with htwo | ⟨rfl, rfl⟩
      · left
        omega
      · rcases Nat.lt_or_ge j (i + 1) with hlt | hge
        · left
          omega
        · have hj : j = i + 1 := by omega
          rw [hj] at hfind
          have hself := getElem?_of_findFinal hfind
          rw [hat, Option.some.injEq] at hself
          exact .inr ⟨_, by rw [hself]⟩

/-- What a scan finds at the head of a list: what it selects of the sequence that begins there. -/
def near {β : Type} (select : ControlSequence → Option β) (bytes : List UInt8) : Option (ℕ × β) :=
  match beginsAt bytes with
  | some (k, sequence) => if k < tailLimit then (select sequence).map fun b => (k, b) else none
  | none => none

section Select
variable {β : Type} {select : ControlSequence → Option β}

theorem near_eq_some {bytes : List UInt8} {k : ℕ} {b : β} :
    near select bytes = some (k, b) ↔
      ∃ sequence, beginsAt bytes = some (k, sequence) ∧ k < tailLimit ∧ select sequence = some b := by
  constructor
  · intro h
    unfold near at h
    split at h
    · next k' sequence hbegins =>
      split_ifs at h with hlimit
      obtain ⟨b', hselect, heq⟩ := Option.map_eq_some_iff.mp h
      simp only [Prod.mk.injEq] at heq
      obtain ⟨rfl, rfl⟩ := heq
      exact ⟨sequence, hbegins, hlimit, hselect⟩
    · cases h
  · rintro ⟨sequence, hbegins, hlimit, hselect⟩
    simp [near, hbegins, hlimit, hselect]

/-- The reader of what a scan selects, which is not a sequence with the final byte of a reset. -/
def selectReader (select : ControlSequence → Option β)
    (hselect : ∀ params, select (.csi params 0x63) = none) : Reader UInt8 β where
  read := near select
  window := tailLimit
  within := by
    intro bytes k b h
    obtain ⟨sequence, hbegins, hlimit, -⟩ := near_eq_some.mp h
    exact ⟨beginsAt_lt hbegins, hlimit⟩
  extend := by
    rintro bytes more ⟨k, b⟩ h
    obtain ⟨sequence, hbegins, hlimit, hb⟩ := near_eq_some.mp h
    exact near_eq_some.mpr ⟨sequence, beginsAt_append hbegins more, hlimit, hb⟩
  restrict := by
    intro bytes more k b h hk
    obtain ⟨sequence, hbegins, hlimit, hb⟩ := near_eq_some.mp h
    exact near_eq_some.mpr ⟨sequence, beginsAt_restrict hbegins hk, hlimit, hb⟩
  apart := by
    intro bytes k b i k' b' h hi h'
    obtain ⟨sequence, hbegins, -, hb⟩ := near_eq_some.mp h
    obtain ⟨sequence', hbegins', -, -⟩ := near_eq_some.mp h'
    rcases beginsAt_apart hbegins hi hbegins' with hlt | ⟨params, rfl⟩
    · exact hlt
    · rw [hselect] at hb
      cases hb

theorem snd_near (bytes : List UInt8) : (near select bytes).map Prod.snd = (nearAt bytes).bind select := by
  unfold near nearAt
  rcases beginsAt bytes with _ | ⟨k, sequence⟩
  · rfl
  · simp only [tailLimit, Nat.lt_succ_iff]
    split_ifs
    · rcases hselect : select sequence with _ | b <;> simp [hselect]
    · rfl

/-- What a reader finds in a stream, if it finds at each place what is selected. -/
theorem values_eq_filterMap {r : Reader UInt8 β}
    (h : ∀ bytes, (r.read bytes).map Prod.snd = (nearAt bytes).bind select) (bytes : List UInt8) :
    r.values bytes = (sequences bytes).filterMap select := by
  induction bytes with
  | nil => rfl
  | cons byte bytes ih =>
    rw [Reader.values, sequences, List.filterMap_append, ← ih, h]
    congr 1
    rcases nearAt (byte :: bytes) with _ | sequence
    · rfl
    · rcases hselect : select sequence with _ | b <;> simp [hselect]

theorem values_selectReader {hselect : ∀ params, select (.csi params 0x63) = none} (bytes : List UInt8) :
    (selectReader select hselect).values bytes = (sequences bytes).filterMap select :=
  values_eq_filterMap snd_near bytes

end Select

theorem findFinal_take (bytes : List UInt8) (n : ℕ) :
    findFinal (bytes.take n) = (findFinal bytes).filter fun x => x.1 < n := by
  rcases hfind : findFinal bytes with _ | ⟨k, final⟩
  · rcases htake : findFinal (bytes.take n) with _ | x
    · rfl
    · have hall := findFinal_append htake (bytes.drop n)
      rw [List.take_append_drop, hfind] at hall
      cases hall
  · by_cases hk : k < n
    · have hlt := findFinal_lt hfind
      rw [← List.take_append_drop n bytes] at hfind
      rw [findFinal_restrict hfind (by rw [List.length_take]; omega)]
      simp [Option.filter, hk]
    · rcases htake : findFinal (bytes.take n) with _ | x
      · simp [Option.filter, hk]
      · have hall := findFinal_append htake (bytes.drop n)
        rw [List.take_append_drop, hfind, Option.some.injEq] at hall
        have hlt : x.1 < (bytes.take n).length :=
          findFinal_lt (show findFinal (bytes.take n) = some (x.1, x.2) from htake)
        rw [List.length_take, ← hall] at hlt
        omega

/-- What a scan finds behind `CSI` and a byte that is not final: the final byte has to be near. -/
theorem beginsAt_cons {kind : UInt8} (hkind : isFinal kind = false) (rest : List UInt8) :
    beginsAt (0x1b :: 0x5b :: kind :: rest) =
      (findFinal rest).map fun x => (x.1 + 3, .csi (kind :: rest.take x.1) x.2) := by
  have hfind : findFinal (kind :: rest) = (findFinal rest).map fun x => (x.1 + 1, x.2) := by
    rw [findFinal, if_neg (by rw [hkind]; decide)]
  show (findFinal (kind :: rest)).map _ = _
  rw [hfind, Option.map_map]
  rfl

section Marker
variable {β : Type} {select : ControlSequence → Option β} {marks : UInt8 → Prop}

/-- Where a scan that looks for a marker behind `CSI` finds something. -/
theorem marker_of_near
    (hselect : ∀ sequence b, select sequence = some b →
      ∃ kind params final, sequence = .csi (kind :: params) final ∧ marks kind)
    {bytes : List UInt8} {x : ℕ × β} (h : near select bytes = some x) :
    ∃ kind rest, bytes = 0x1b :: 0x5b :: kind :: rest ∧ marks kind := by
  obtain ⟨sequence, hbegins, -, hb⟩ := near_eq_some.mp h
  obtain ⟨kind, params, final, rfl, hmarks⟩ := hselect _ _ hb
  rcases beginsAt_eq_some.mp hbegins with ⟨_, -, -, hsequence⟩ | ⟨rest, j, _, rfl, -, -, hsequence⟩
  · cases hsequence
  · simp only [ControlSequence.csi.injEq] at hsequence
    have hrest := List.take_append_drop j rest
    rw [← hsequence.1, List.cons_append] at hrest
    exact ⟨kind, params ++ rest.drop j, by rw [hrest], hmarks⟩

/-- What a scan finds behind `CSI` and a marker. -/
theorem near_cons {kind : UInt8} (hkind : isFinal kind = false) (rest : List UInt8) :
    near select (0x1b :: 0x5b :: kind :: rest) =
      match findFinal (rest.take 61) with
      | some (k, final) => (select (.csi (kind :: rest.take k) final)).map fun b => (k + 3, b)
      | none => none := by
  rw [near, beginsAt_cons hkind, findFinal_take]
  rcases findFinal rest with _ | ⟨k, final⟩
  · rfl
  · have hlimit : k + 3 < tailLimit ↔ k < 61 := by
      rw [tailLimit]
      omega
    by_cases hk : k < 61
    · simp [Option.filter, hk, hlimit.mpr hk]
    · simp [Option.filter, hk, mt hlimit.mp hk]

end Marker

/-- The scan of the keyboard protocol looks at a part of the sequences. -/
theorem sequenceAt_eq_near (bytes : List UInt8) : sequenceAt bytes = near ControlSequence.keyboard bytes := by
  have hselect : ∀ sequence b, ControlSequence.keyboard sequence = some b →
      ∃ kind params final, sequence = .csi (kind :: params) final ∧ isKind kind = true := by
    intro sequence b h
    unfold ControlSequence.keyboard at h
    split at h
    · next kind params final =>
      split_ifs at h with hkind
      exact ⟨kind, params, final, rfl, hkind.1⟩
    · cases h
  by_cases hmarker : ∃ kind rest, bytes = 0x1b :: 0x5b :: kind :: rest ∧ isKind kind = true
  · obtain ⟨kind, rest, rfl, hkind⟩ := hmarker
    have hfinal : isFinal kind = false := by
      simp only [isKind, Bool.or_eq_true, beq_iff_eq] at hkind
      rcases hkind with (rfl | rfl) | rfl <;> decide
    rw [near_cons hfinal]
    simp only [sequenceAt, hkind, and_self, if_true, ControlSequence.keyboard, true_and]
    rcases findFinal (rest.take 61) with _ | ⟨k, final⟩
    · rfl
    · by_cases hu : final = 0x75
      · simp [hu]
      · simp [hu]
  · rcases hnear : near ControlSequence.keyboard bytes with _ | x
    · rcases hsequence : sequenceAt bytes with _ | ⟨k, sequence⟩
      · rfl
      · obtain ⟨kind, rest, j, rfl, hkind, -⟩ := sequenceAt_eq_some.mp hsequence
        exact absurd ⟨kind, rest, rfl, hkind⟩ hmarker
    · exact absurd (marker_of_near hselect hnear) hmarker

/-- The scan of the modes looks at a part of the sequences. -/
theorem modeAt_eq_near (bytes : List UInt8) : modeAt bytes = near ControlSequence.mode bytes := by
  have hselect : ∀ sequence b, ControlSequence.mode sequence = some b →
      ∃ kind params final, sequence = .csi (kind :: params) final ∧ kind = 0x3f := by
    intro sequence b h
    unfold ControlSequence.mode at h
    split at h
    · next kind params final =>
      split_ifs at h with hkind
      exact ⟨kind, params, final, rfl, hkind.1⟩
    · cases h
  by_cases hmarker : ∃ kind rest, bytes = 0x1b :: 0x5b :: kind :: rest ∧ kind = 0x3f
  · obtain ⟨kind, rest, rfl, rfl⟩ := hmarker
    rw [near_cons (by decide)]
    simp only [modeAt, and_self, if_true, ControlSequence.mode, true_and]
    rcases findFinal (rest.take 61) with _ | ⟨k, final⟩
    · rfl
    · by_cases hset : final = 0x68 ∨ final = 0x6c
      · simp [hset]
      · simp [hset]
  · rcases hnear : near ControlSequence.mode bytes with _ | x
    · rcases hmode : modeAt bytes with _ | x
      · rfl
      · unfold modeAt at hmode
        split at hmode
        · next escape bracket kind rest =>
          split_ifs at hmode with hhead
          obtain ⟨rfl, rfl, hkind⟩ := hhead
          exact absurd ⟨kind, rest, rfl, hkind⟩ hmarker
        · cases hmode
    · exact absurd (marker_of_near hselect hnear) hmarker

/-- The reader of the modes. -/
def modeReader : Reader UInt8 (Bool × List UInt8) :=
  selectReader ControlSequence.mode fun params => by
    rcases params with _ | ⟨kind, params⟩
    · rfl
    · simp [ControlSequence.mode]

/-- What a damaging sequence is read as. -/
def damage (statusScrollBottom : Option ℕ) (sequence : ControlSequence) : Option Unit :=
  if sequence.damages statusScrollBottom = true then some () else none

/-- The reader of what damages the row. -/
def damageReader (statusScrollBottom : Option ℕ) : Reader UInt8 Unit :=
  selectReader (damage statusScrollBottom) fun params => by
    simp [damage, ControlSequence.damages, csiSequenceCanDamageStatusArea]

/-- No mode is as short as the loop leaves out. -/
theorem modes_of_length_lt {bytes : List UInt8} (h : bytes.length < 4) : modeReader.values bytes = [] := by
  induction bytes with
  | nil => rfl
  | cons byte bytes ih =>
    rw [List.length_cons] at h
    have hread : modeReader.read (byte :: bytes) = none := by
      by_contra hsome
      obtain ⟨x, hread⟩ := Option.ne_none_iff_exists'.mp hsome
      have hread' : near ControlSequence.mode (byte :: bytes) = some x := hread
      rw [← modeAt_eq_near] at hread'
      unfold modeAt at hread'
      split at hread'
      · next escape bracket kind rest heq =>
        have hlength := congrArg List.length heq
        simp only [List.length_cons] at hlength
        have hrest : rest = [] := List.length_eq_zero_iff.mp (by omega)
        simp [hrest, findFinal] at hread'
      · cases hread'
    rw [Reader.values, hread, ih (by omega)]
    rfl

/-- What a mode does to the state. -/
def storeMode (state : AltScreenState) (mode : Bool × List UInt8) : AltScreenState :=
  state.store mode.1 mode.2

/-- The loop of the modes is a scan. -/
theorem altScreenLoop_eq_scan (minFinalIndex : ℕ) (bytes : List UInt8) : ∀ i state,
    altScreenLoop minFinalIndex i bytes state = modeReader.scan storeMode minFinalIndex i bytes state := by
  induction bytes with
  | nil => intro i state; rfl
  | cons byte bytes ih =>
    intro i state
    unfold altScreenLoop
    split_ifs with hshort hmin
    · rw [Reader.scan_of_values_eq_nil (modes_of_length_lt (by rw [List.length_cons]; omega))]
    · rw [Reader.scan, if_pos hmin]
    · have hread : modeReader.read (byte :: bytes) = modeAt (byte :: bytes) := (modeAt_eq_near _).symm
      rw [Reader.scan, if_neg hmin, ih, hread]
      rcases modeAt (byte :: bytes) with _ | ⟨k, set, params⟩ <;> rfl

/-- Damage is noted. -/
def noteDamage (_ : Bool) (_ : Unit) : Bool := true

theorem scan_noteDamage (r : Reader UInt8 Unit) (limit : ℕ) (bytes : List UInt8) : ∀ i dirty,
    r.scan noteDamage limit i bytes dirty = (dirty || r.scan noteDamage limit i bytes false) := by
  induction bytes with
  | nil => intro i dirty; simp [Reader.scan]
  | cons byte bytes ih =>
    intro i dirty
    simp only [Reader.scan]
    split_ifs
    · simp
    · rcases r.read (byte :: bytes) with _ | ⟨k, b⟩
      · exact ih _ _
      · by_cases hk : limit ≤ i + k
        · simp only [hk, if_true, noteDamage]
          rw [ih _ true]
          simp
        · simp only [hk, if_false]
          exact ih _ _

section Damage
variable {statusScrollBottom : Option ℕ}

theorem near_damage_ris (rest : List UInt8) :
    near (damage statusScrollBottom) (0x1b :: 0x63 :: rest) = some (1, ()) := rfl

theorem near_damage_csi (rest : List UInt8) :
    near (damage statusScrollBottom) (0x1b :: 0x5b :: rest) =
      match findFinal (rest.take 62) with
      | some (k, final) =>
        if csiSequenceCanDamageStatusArea final (rest.take k) statusScrollBottom = true then some (k + 2, ())
        else none
      | none => none := by
  have hbegins : beginsAt (0x1b :: 0x5b :: rest) =
      (findFinal rest).map fun x => (x.1 + 2, .csi (rest.take x.1) x.2) := rfl
  rw [near, hbegins, findFinal_take]
  rcases findFinal rest with _ | ⟨k, final⟩
  · rfl
  · have hlimit : k + 2 < tailLimit ↔ k < 62 := by
      rw [tailLimit]
      omega
    by_cases hk : k < 62
    · have hdamage : damage statusScrollBottom (.csi (rest.take k) final) =
          if csiSequenceCanDamageStatusArea final (rest.take k) statusScrollBottom = true then some ()
          else none := rfl
      simp only [Option.map_some, hlimit.mpr hk, if_true, Option.filter, hk, decide_true, hdamage]
      by_cases hdamages : csiSequenceCanDamageStatusArea final (rest.take k) statusScrollBottom = true
      · rw [if_pos hdamages, if_pos hdamages]
        rfl
      · rw [if_neg hdamages, if_neg hdamages]
        rfl
    · simp [Option.filter, hk, mt hlimit.mp hk]

theorem near_damage_none {byte next : UInt8} (hris : ¬ (byte = 0x1b ∧ next = 0x63))
    (hcsi : ¬ (byte = 0x1b ∧ next = 0x5b)) (rest : List UInt8) :
    near (damage statusScrollBottom) (byte :: next :: rest) = none := by
  simp [near, beginsAt, hris, hcsi]

/-- The loop of the damage is a scan. It leaves out the second byte of a reset, where nothing begins. -/
theorem statusAreaLoop_eq_scan (minFinalIndex i : ℕ) (bytes : List UInt8) :
    statusAreaLoop minFinalIndex statusScrollBottom i bytes =
      (damageReader statusScrollBottom).scan noteDamage minFinalIndex i bytes false := by
  have hread : ∀ bytes, (damageReader statusScrollBottom).read bytes =
      near (damage statusScrollBottom) bytes := fun _ => rfl
  have hnoted : ∀ i bytes, (damageReader statusScrollBottom).scan noteDamage minFinalIndex i bytes true =
      true := fun i bytes => by rw [scan_noteDamage, Bool.true_or]
  fun_induction statusAreaLoop minFinalIndex statusScrollBottom i bytes with
  | case1 => rfl
  | case2 i byte =>
    rw [Reader.scan, hread]
    have hnear : near (damage statusScrollBottom) [byte] = none := rfl
    rw [hnear]
    split_ifs <;> rfl
  | case3 i byte next rest hmin => rw [Reader.scan, if_pos hmin]
  | case4 i byte next rest hmin hris hlate =>
    obtain ⟨rfl, rfl⟩ := hris
    rw [Reader.scan, if_neg hmin, hread, near_damage_ris]
    simp only [hlate, if_true, noteDamage, hnoted]
  | case5 i byte next rest hmin hris hearly ih =>
    obtain ⟨rfl, rfl⟩ := hris
    have hsecond : near (damage statusScrollBottom) (0x63 :: rest) = none := by
      rcases rest with _ | ⟨third, rest⟩
      · rfl
      · exact near_damage_none (by simp) (by simp) rest
    rw [Reader.scan, if_neg hmin, hread, near_damage_ris, Reader.scan, if_neg (by omega), hread, hsecond]
    simp only [hearly, if_false]
    exact ih
  | case6 i byte next rest hmin hris hcsi k final hfind hdamages =>
    obtain ⟨rfl, rfl⟩ := hcsi
    rw [Reader.scan, if_neg hmin, hread, near_damage_csi, hfind]
    have hlate : minFinalIndex ≤ i + (k + 2) := by omega
    simp only [hdamages.2, if_true, hlate, noteDamage, hnoted]
  | case7 i byte next rest hmin hris hcsi k final hfind hnot ih =>
    obtain ⟨rfl, rfl⟩ := hcsi
    rw [Reader.scan, if_neg hmin, hread, near_damage_csi, hfind, ih]
    by_cases hdamages : csiSequenceCanDamageStatusArea final (rest.take k) statusScrollBottom = true
    · have hearly : ¬ minFinalIndex ≤ i + (k + 2) := fun hle => hnot ⟨by omega, hdamages⟩
      simp only [hdamages, if_true, hearly, if_false]
    · simp only [hdamages, if_false, Bool.false_eq_true]
  | case8 i byte next rest hmin hris hcsi hfind ih =>
    obtain ⟨rfl, rfl⟩ := hcsi
    rw [Reader.scan, if_neg hmin, hread, near_damage_csi, hfind, ih]
  | case9 i byte next rest hmin hris hcsi ih =>
    rw [Reader.scan, if_neg hmin, hread, near_damage_none hris hcsi, ih]

end Damage

/-- What there is to observe in an output: each state has seen every sequence, once and in order. -/
def observed (statusScrollBottom : Option ℕ) (output : List UInt8) : TerminalOutputTracker × Bool :=
  (⟨(sequences output).foldl ControlSequence.toKeyboard .default,
    (sequences output).foldl ControlSequence.toAltScreen .default, statusScrollBottom,
    output.drop (output.length - tailLimit)⟩,
    statusScrollBottom.isSome && (sequences output).any (ControlSequence.damages statusScrollBottom))

theorem toKeyboard_foldl (output : List UInt8) (state : KeyboardProtocolRestoreState) :
    (sequences output).foldl ControlSequence.toKeyboard state =
      (reader.values output).foldl observeSequence state := by
  have hread : ∀ bytes, (reader.read bytes).map Prod.snd =
      (nearAt bytes).bind ControlSequence.keyboard := fun bytes => by
    rw [← snd_near, ← sequenceAt_eq_near]
    rfl
  rw [values_eq_filterMap hread, List.foldl_filterMap]
  congr 1
  funext state sequence
  rw [ControlSequence.toKeyboard]
  rcases sequence.keyboard with _ | found <;> rfl

theorem toAltScreen_foldl (output : List UInt8) (state : AltScreenState) :
    (sequences output).foldl ControlSequence.toAltScreen state =
      (modeReader.values output).foldl storeMode state := by
  rw [modeReader, values_selectReader, List.foldl_filterMap]
  congr 1
  funext state sequence
  rw [ControlSequence.toAltScreen]
  rcases sequence.mode with _ | ⟨set, params⟩ <;> rfl

theorem any_damages (statusScrollBottom : Option ℕ) (output : List UInt8) :
    (sequences output).any (ControlSequence.damages statusScrollBottom) =
      ((damageReader statusScrollBottom).values output).foldl noteDamage false := by
  have hfold : ∀ (found : List ControlSequence) dirty,
      (found.filterMap (damage statusScrollBottom)).foldl noteDamage dirty =
        (dirty || found.any (ControlSequence.damages statusScrollBottom)) := by
    intro found
    induction found with
    | nil => simp
    | cons sequence found ih =>
      intro dirty
      by_cases hdamages : sequence.damages statusScrollBottom = true
      · have hhead : damage statusScrollBottom sequence = some () := if_pos hdamages
        rw [List.filterMap_cons_some hhead, List.foldl_cons, ih, List.any_cons, hdamages]
        simp [noteDamage]
      · have hhead : damage statusScrollBottom sequence = none := if_neg hdamages
        rw [List.filterMap_cons_none hhead, ih, List.any_cons, Bool.eq_false_iff.mpr hdamages, Bool.false_or]
  rw [damageReader, values_selectReader, hfold, Bool.false_or]

section Observe
variable {tracker : TerminalOutputTracker} {bytes : List UInt8}

theorem observe_restoreState : (tracker.observe bytes).1.restoreState =
    reader.scanChunk observeSequence tracker.tail bytes tracker.restoreState := by
  simp only [TerminalOutputTracker.observe, observeKeyboardProtocolSequencesAfter, observeLoop_eq_scan,
    Reader.scanChunk]
  split_ifs <;> rfl

theorem observe_altScreen : (tracker.observe bytes).1.altScreen =
    modeReader.scanChunk storeMode tracker.tail bytes tracker.altScreen := by
  simp only [TerminalOutputTracker.observe, observeAltScreenSequencesAfter, altScreenLoop_eq_scan,
    Reader.scanChunk]
  split_ifs <;> rfl

theorem observe_dirty (h : tracker.statusScrollBottom.isSome = true) (dirty : Bool) :
    (dirty || (tracker.observe bytes).2) =
      (damageReader tracker.statusScrollBottom).scanChunk noteDamage tracker.tail bytes dirty := by
  simp only [TerminalOutputTracker.observe, observeStatusAreaDamageSequencesAfter, statusAreaLoop_eq_scan,
    Reader.scanChunk, h, Bool.true_and]
  split_ifs
  · rw [← Bool.or_assoc, ← scan_noteDamage, ← scan_noteDamage]
    rfl
  · rw [Bool.false_or, ← scan_noteDamage]

theorem observe_clean (h : tracker.statusScrollBottom.isSome = false) : (tracker.observe bytes).2 = false := by
  simp only [TerminalOutputTracker.observe, h, Bool.false_and, Bool.or_false]
  split_ifs <;> rfl

end Observe

/-- One more chunk: the tracker has observed what there is to observe in the longer output. -/
theorem observeNext_observed (statusScrollBottom : Option ℕ) (output bytes : List UInt8) :
    TerminalOutputTracker.observeNext (observed statusScrollBottom output) bytes =
      observed statusScrollBottom (output ++ bytes) := by
  have hkeyboard := reader.scanChunk_eq (f := observeSequence) output bytes .default
  have hmodes := modeReader.scanChunk_eq (f := storeMode) output bytes .default
  have hdamage := (damageReader statusScrollBottom).scanChunk_eq (f := noteDamage) output bytes false
  rw [← toKeyboard_foldl, ← toKeyboard_foldl] at hkeyboard
  rw [← toAltScreen_foldl, ← toAltScreen_foldl] at hmodes
  rw [← any_damages, ← any_damages] at hdamage
  have hrestoreState : ((observed statusScrollBottom output).1.observe bytes).1.restoreState =
      (observed statusScrollBottom (output ++ bytes)).1.restoreState := observe_restoreState.trans hkeyboard
  have haltScreen : ((observed statusScrollBottom output).1.observe bytes).1.altScreen =
      (observed statusScrollBottom (output ++ bytes)).1.altScreen := observe_altScreen.trans hmodes
  have htail : ((observed statusScrollBottom output).1.observe bytes).1.tail =
      (observed statusScrollBottom (output ++ bytes)).1.tail := nextTail_eq output bytes
  refine Prod.ext ((TerminalOutputTracker.mk.injEq ..).mpr ⟨hrestoreState, haltScreen, rfl, htail⟩) ?_
  show ((observed statusScrollBottom output).2 || ((observed statusScrollBottom output).1.observe bytes).2) =
    (observed statusScrollBottom (output ++ bytes)).2
  rcases hsome : statusScrollBottom.isSome
  · rw [observe_clean hsome]
    simp [observed, hsome]
  · rw [observe_dirty hsome]
    simp only [observed, hsome, Bool.true_and]
    exact hdamage

/-- A new tracker after any chunks has observed what there is to observe. -/
theorem observeAll_observed (statusScrollBottom : Option ℕ) (chunks : List (List UInt8)) :
    observeAll statusScrollBottom chunks = observed statusScrollBottom chunks.flatten := by
  have hrun : ∀ (chunks : List (List UInt8)) output,
      chunks.foldl TerminalOutputTracker.observeNext (observed statusScrollBottom output) =
        observed statusScrollBottom (output ++ chunks.flatten) := by
    intro chunks
    induction chunks with
    | nil => simp
    | cons bytes chunks ih =>
      intro output
      rw [List.foldl_cons, observeNext_observed, ih, List.flatten_cons, List.append_assoc]
  have hstart : (TerminalOutputTracker.new statusScrollBottom, false) = observed statusScrollBottom [] := by
    simp [observed, sequences, TerminalOutputTracker.new]
  rw [observeAll, hstart, hrun, List.nil_append]

/-- **The output is observed once and in order, however it is cut.** -/
theorem observeAll_eq (statusScrollBottom : ℕ) (chunks : List (List UInt8)) :
    observeAll (some statusScrollBottom) chunks = observeAll (some statusScrollBottom) [chunks.flatten] ∧
      observeAll (some statusScrollBottom) chunks =
        (⟨(sequences chunks.flatten).foldl ControlSequence.toKeyboard .default,
          (sequences chunks.flatten).foldl ControlSequence.toAltScreen .default, some statusScrollBottom,
          chunks.flatten.drop (chunks.flatten.length - tailLimit)⟩,
          (sequences chunks.flatten).any (ControlSequence.damages (some statusScrollBottom))) := by
  constructor
  · rw [observeAll_observed, observeAll_observed, List.flatten_singleton]
  · rw [observeAll_observed, observed, Option.isSome_some, Bool.true_and]

end LightTerminal.Client.OutputTracker
