import LightTerminal.Client.OutputTracker
import LightTerminal.Client.StatusRow

/-! # The alternate screen and the cursor of the host

While the host is on the alternate screen, the status bar is not drawn, and after a draw the cursor is
shown again if the program has it shown. For both the client keeps a flag, which the scan of the modes
changes (`OutputTracker`).

The host changes its flags with the modes, and a reset (`ESC c`) gives both their first values. The scan of
the modes does not see a reset. `follows_iff`: the flags of the client are those of the host exactly if no
reset follows the last change of a flag, or that change gave the flag its first value. -/

namespace LightTerminal.Client.AltScreen

open LightTerminal.Client.Keyboard LightTerminal.Client.OutputTracker LightTerminal.Client.StatusRow

/-! ### Output -/

/-- A decimal number, without leading zeros. -/
def decimalBytes (n : ℕ) : List UInt8 := (Nat.toDigits 10 n).map fun digit => UInt8.ofNat digit.toNat

/-- A parameter, which may be left out. -/
def paramBytes : Option ℕ → List UInt8
  | none => []
  | some n => decimalBytes n

/-- A part of the output: printable text, byte by byte, the two controls of a line, a reset, or `CSI` with
its marker, parameters and final byte. -/
inductive Item where
  | print (byte : UInt8)
  | carriageReturn
  | lineFeed
  | ris
  | csi (marker : Option UInt8) (params : List (Option ℕ)) (final : UInt8)
  deriving DecidableEq, Repr

namespace Item

/-- What stands between `CSI` and its final byte. -/
def inner (marker : Option UInt8) (params : List (Option ℕ)) : List UInt8 :=
  marker.toList ++ [0x3b].intercalate (params.map paramBytes)

/-- The bytes of a part. -/
def bytes : Item → List UInt8
  | print byte => [byte]
  | carriageReturn => [0x0d]
  | lineFeed => [0x0a]
  | ris => [0x1b, 0x63]
  | csi marker params final => 0x1b :: 0x5b :: (inner marker params ++ [final])

/-- Text is not a control, a marker is one of the four, and a sequence is shorter than 64 bytes. -/
def WellFormed : Item → Prop
  | print byte => 0x20 ≤ byte ∧ byte ≠ 0x7f
  | csi marker params final =>
    (∀ kind ∈ marker, 0x3c ≤ kind ∧ kind ≤ 0x3f) ∧ isFinal final = true ∧
      (csi marker params final).bytes.length < 64
  | _ => True

instance : DecidablePred WellFormed := fun item =>
  match item with
  | print _ => inferInstanceAs (Decidable (_ ∧ _))
  | carriageReturn => inferInstanceAs (Decidable True)
  | lineFeed => inferInstanceAs (Decidable True)
  | ris => inferInstanceAs (Decidable True)
  | csi marker _ _ => @instDecidableAnd _ _ (Option.decidableForallMem marker) inferInstance

/-- The sequence that a part is. -/
def sequence : Item → Option ControlSequence
  | ris => some .ris
  | csi marker params final => some (.csi (inner marker params) final)
  | _ => none

/-- What `CSI ? ps h` and `CSI ? ps l` make of a flag, if one of their parameters is a mode of the flag. -/
def sets (modes : List ℕ) : Item → Option Bool
  | csi (some kind) params final =>
    if kind = 0x3f ∧ (final = 0x68 ∨ final = 0x6c) ∧ ∃ mode ∈ modes, some mode ∈ params then
      some (final == 0x68)
    else none
  | _ => none

end Item

/-- The bytes of the output. -/
def bytesOf (items : List Item) : List UInt8 := items.flatMap Item.bytes

/-! ### The host -/

/-- The modes of the alternate screen. -/
def alternateModes : List ℕ := [47, 1047, 1049]

/-- The mode of the cursor. -/
def cursorModes : List ℕ := [25]

/-- What the host shows. -/
structure Screen where
  alternate : Bool
  cursorShown : Bool
  deriving DecidableEq, Repr

/-- The host at first. -/
def Screen.initial : Screen := ⟨false, true⟩

/-- The host after a part of the output. -/
def Screen.apply (screen : Screen) (item : Item) : Screen :=
  if item = .ris then .initial
  else ⟨(item.sets alternateModes).getD screen.alternate, (item.sets cursorModes).getD screen.cursorShown⟩

/-- The host after the output. -/
def screenAfter (items : List Item) : Screen := items.foldl Screen.apply .initial

/-- The guard of a draw: `!alt_screen_active || draw_status_during_alt_screen`. -/
def drawsStatus (state : AltScreenState) (drawStatusDuringAltScreen : Bool) : Bool :=
  !state.active || drawStatusDuringAltScreen

/-- The flags are those of the host: the bar is held back exactly while the host is on the alternate screen,
and a draw leaves the cursor shown where the host shows it. -/
def Follows (state : AltScreenState) (screen : Screen) : Prop :=
  state = ⟨screen.alternate, screen.cursorShown⟩ ∧
    (drawsStatus state false = false ↔ screen.alternate = true) ∧
    (screen.cursorShown = true → StatusBar.cursorRestoreSuffix state.cursorVisible = .showCursor)
  deriving Decidable

/-! ### One flag -/

section Flag
variable (modes : List ℕ) (initial : Bool)

/-- A flag that the modes change. -/
def tracked (items : List Item) : Bool := items.foldl (fun flag item => (item.sets modes).getD flag) initial

/-- A flag that the modes change, and a reset. -/
def shown (items : List Item) : Bool :=
  items.foldl (fun flag item => if item = .ris then initial else (item.sets modes).getD flag) initial

/-- Where a reset follows the last change of a flag, that change gave the flag its first value. -/
def Kept (items : List Item) : Prop :=
  ∀ before item after value, items = before ++ item :: after → item.sets modes = some value →
    (∀ later ∈ after, later.sets modes = none) → .ris ∈ after → value = initial

variable {modes initial}

/-- A flag was never changed, or there is a last change. -/
theorem exists_last (modes : List ℕ) (items : List Item) :
    (∀ item ∈ items, item.sets modes = none) ∨
      ∃ before item after value, items = before ++ item :: after ∧ item.sets modes = some value ∧
        ∀ later ∈ after, later.sets modes = none := by
  induction items with
  | nil => exact .inl (by simp)
  | cons first items ih =>
    rcases ih with hnone | ⟨before, item, after, value, rfl, hvalue, hafter⟩
    · rcases hfirst : first.sets modes with _ | value
      · left
        rw [List.forall_mem_cons]
        exact ⟨hfirst, hnone⟩
      · exact .inr ⟨[], first, items, value, rfl, hfirst, hnone⟩
    · exact .inr ⟨first :: before, item, after, value, rfl, hvalue, hafter⟩

theorem tracked_unchanged {items : List Item} (h : ∀ item ∈ items, item.sets modes = none) (flag : Bool) :
    items.foldl (fun flag item => (item.sets modes).getD flag) flag = flag := by
  induction items with
  | nil => rfl
  | cons item items ih =>
    rw [List.forall_mem_cons] at h
    rw [List.foldl_cons, h.1, Option.getD_none]
    exact ih h.2

theorem shown_unchanged {items : List Item} (h : ∀ item ∈ items, item.sets modes = none) (flag : Bool) :
    items.foldl (fun flag item => if item = .ris then initial else (item.sets modes).getD flag) flag =
      if .ris ∈ items then initial else flag := by
  induction items generalizing flag with
  | nil => rfl
  | cons item items ih =>
    rw [List.forall_mem_cons] at h
    rw [List.foldl_cons, h.1, Option.getD_none, ih h.2]
    by_cases hris : item = .ris
    · simp [hris]
    · have hmem : Item.ris ∈ item :: items ↔ .ris ∈ items := by
        rw [List.mem_cons, or_iff_right (Ne.symm hris)]
      simp [hris, hmem]

theorem tracked_last {before after : List Item} {item : Item} {value : Bool}
    (hvalue : item.sets modes = some value) (hafter : ∀ later ∈ after, later.sets modes = none) :
    tracked modes initial (before ++ item :: after) = value := by
  rw [tracked, List.foldl_append, List.foldl_cons, hvalue, Option.getD_some]
  exact tracked_unchanged hafter value

theorem shown_last {before after : List Item} {item : Item} {value : Bool}
    (hvalue : item.sets modes = some value) (hafter : ∀ later ∈ after, later.sets modes = none) :
    shown modes initial (before ++ item :: after) = if .ris ∈ after then initial else value := by
  have hne : item ≠ .ris := by
    rintro rfl
    cases hvalue
  rw [shown, List.foldl_append, List.foldl_cons, hvalue, Option.getD_some, if_neg hne]
  exact shown_unchanged hafter value

/-- **When a flag that a reset does not change is right.** -/
theorem tracked_eq_shown_iff (items : List Item) :
    tracked modes initial items = shown modes initial items ↔ Kept modes initial items := by
  constructor
  · rintro h before item after value rfl hvalue hafter hris
    rw [tracked_last hvalue hafter, shown_last hvalue hafter, if_pos hris] at h
    exact h
  · intro h
    rcases exists_last modes items with hnone | ⟨before, item, after, value, rfl, hvalue, hafter⟩
    · rw [tracked, shown, tracked_unchanged hnone, shown_unchanged hnone, ite_self]
    · rw [tracked_last hvalue hafter, shown_last hvalue hafter]
      split_ifs with hris
      · exact h before item after value rfl hvalue hafter hris
      · rfl

end Flag

/-! ### Reading the output -/

theorem digit_range {n : ℕ} {digit : Char} (h : digit ∈ Nat.toDigits 10 n) :
    0x30 ≤ digit.toNat ∧ digit.toNat ≤ 0x39 := by
  have hrange := Nat.isDigit_of_mem_toDigits (by decide) (by decide) h
  simp only [Char.isDigit, Bool.and_eq_true, decide_eq_true_eq, ge_iff_le, UInt32.le_iff_toNat_le] at hrange
  exact hrange

/-- The characters of the bytes of a number. -/
theorem chars_decimalBytes (n : ℕ) :
    (decimalBytes n).map (fun byte => Char.ofNat byte.toNat) = Nat.toDigits 10 n := by
  rw [decimalBytes, List.map_map]
  refine (List.map_congr_left fun digit hdigit => ?_).trans (List.map_id _)
  have hrange := digit_range hdigit
  show Char.ofNat (UInt8.ofNat digit.toNat).toNat = digit
  rw [UInt8.toNat_ofNat', Nat.mod_eq_of_lt (by omega), Char.ofNat_toNat]

theorem decimalBytes_injective {m n : ℕ} (h : decimalBytes m = decimalBytes n) : m = n := by
  have hdigits : Nat.toDigits 10 m = Nat.toDigits 10 n := by
    rw [← chars_decimalBytes, ← chars_decimalBytes, h]
  rw [← Nat.ofDigitChars_ten_toDigits (n := m), hdigits, Nat.ofDigitChars_ten_toDigits]

theorem isParam_of_mem_paramBytes {param : Option ℕ} {byte : UInt8} (h : byte ∈ paramBytes param) :
    isParam byte = true ∧ byte ≠ 0x3b := by
  rcases param with _ | n
  · cases h
  · obtain ⟨digit, hmem, rfl⟩ := List.mem_map.mp h
    have hrange := digit_range hmem
    have hdigit : isAsciiDigit (UInt8.ofNat digit.toNat) = true := by
      rw [isAsciiDigit_iff, UInt8.toNat_ofNat', Nat.mod_eq_of_lt (by omega)]
      exact hrange
    refine ⟨isParam_of_digit hdigit, fun heq => ?_⟩
    rw [heq] at hdigit
    cases hdigit

theorem isParam_of_mem_intercalate {params : List (Option ℕ)} {byte : UInt8}
    (h : byte ∈ [0x3b].intercalate (params.map paramBytes)) : isParam byte = true := by
  induction params with
  | nil => cases h
  | cons param params ih =>
    rcases params with _ | ⟨param', params⟩
    · rw [List.map_cons, List.map_nil, List.intercalate_singleton] at h
      exact (isParam_of_mem_paramBytes h).1
    · rw [List.map_cons, List.map_cons, List.intercalate_cons_cons, List.mem_append, List.mem_append,
        List.mem_singleton] at h
      rcases h with (hparam | rfl) | hrest
      · exact (isParam_of_mem_paramBytes hparam).1
      · decide
      · exact ih hrest

/-- What a marker, a digit or a semicolon is not. -/
theorem inner_facts {marker : Option UInt8} {params : List (Option ℕ)} {byte : UInt8}
    (hmarker : ∀ kind ∈ marker, 0x3c ≤ kind ∧ kind ≤ 0x3f) (h : byte ∈ Item.inner marker params) :
    byte ≠ 0x1b ∧ isFinal byte = false := by
  rcases List.mem_append.mp h with hkind | hparam
  · have hrange := hmarker byte (Option.mem_toList.mp hkind)
    rw [UInt8.le_iff_toNat_le, UInt8.le_iff_toNat_le] at hrange
    constructor
    · rintro rfl
      exact absurd hrange.1 (by decide)
    · have hlt : ¬ (0x40 : UInt8) ≤ byte := by
        rw [UInt8.le_iff_toNat_le]
        have hmost := hrange.2
        simp only [UInt8.reduceToNat] at hmost ⊢
        omega
      simp [isFinal, hlt]
  · have hfacts := isParam_facts (isParam_of_mem_intercalate hparam)
    exact ⟨hfacts.1, hfacts.2.2⟩

/-- Bytes that do not begin a sequence are passed over. -/
theorem sequences_skip {bytes : List UInt8} (h : 0x1b ∉ bytes) (more : List UInt8) :
    sequences (bytes ++ more) = sequences more := by
  induction bytes with
  | nil => rfl
  | cons byte bytes ih =>
    rw [List.mem_cons, not_or] at h
    have hnear : nearAt (byte :: (bytes ++ more)) = none := by
      rcases hbegins : beginsAt (byte :: (bytes ++ more)) with _ | ⟨k, sequence⟩
      · rw [nearAt, hbegins]
      · rcases beginsAt_eq_some.mp hbegins with ⟨rest, hbytes, -⟩ | ⟨rest, j, final, hbytes, -⟩
        · exact absurd (List.cons.inj hbytes).1.symm h.1
        · exact absurd (List.cons.inj hbytes).1.symm h.1
    rw [List.cons_append, sequences, hnear, ih h.2]
    rfl

theorem findFinal_inner {inner : List UInt8} (h : ∀ byte ∈ inner, isFinal byte = false) {final : UInt8}
    (hfinal : isFinal final = true) (more : List UInt8) :
    findFinal (inner ++ final :: more) = some (inner.length, final) := by
  induction inner with
  | nil => simp [findFinal, hfinal]
  | cons byte inner ih =>
    rw [List.forall_mem_cons] at h
    rw [List.cons_append, findFinal, h.1, ih h.2]
    rfl

/-- A part of the output is read as its sequence, whatever comes after it. -/
theorem sequences_bytes {item : Item} (h : item.WellFormed) (more : List UInt8) :
    sequences (item.bytes ++ more) = item.sequence.toList ++ sequences more := by
  cases item with
  | print byte =>
    refine sequences_skip ?_ more
    intro hmem
    rw [← List.mem_singleton.mp hmem] at h
    exact absurd h.1 (by decide)
  | carriageReturn => exact sequences_skip (by decide) more
  | lineFeed => exact sequences_skip (by decide) more
  | ris =>
    have hrest : sequences ([0x63] ++ more) = sequences more := sequences_skip (by decide) more
    have hnear : nearAt (0x1b :: 0x63 :: more) = some .ris := rfl
    show (nearAt (0x1b :: 0x63 :: more)).toList ++ sequences ([0x63] ++ more) = _
    rw [hnear, hrest]
    rfl
  | csi marker params final =>
    obtain ⟨hmarker, hfinal, hlength⟩ := h
    have hinner : ∀ byte ∈ Item.inner marker params, byte ≠ 0x1b ∧ isFinal byte = false :=
      fun byte hbyte => inner_facts hmarker hbyte
    have hskip : 0x1b ∉ 0x5b :: (Item.inner marker params ++ [final]) := by
      simp only [List.mem_cons, List.mem_append, List.not_mem_nil, or_false, not_or]
      refine ⟨by decide, fun hmem => (hinner _ hmem).1 rfl, ?_⟩
      rintro rfl
      cases hfinal
    have hnear : nearAt (0x1b :: 0x5b :: (Item.inner marker params ++ final :: more)) =
        some (.csi (Item.inner marker params) final) := by
      have hfind := findFinal_inner (fun byte hbyte => (hinner byte hbyte).2) hfinal more
      have hbegins : beginsAt (0x1b :: 0x5b :: (Item.inner marker params ++ final :: more)) =
          some ((Item.inner marker params).length + 2, .csi (Item.inner marker params) final) :=
        beginsAt_eq_some.mpr (.inr ⟨_, _, _, rfl, hfind, rfl, by simp⟩)
      simp only [Item.bytes, List.length_cons, List.length_append, List.length_nil] at hlength
      rw [nearAt, hbegins]
      simp only
      rw [if_pos (by omega)]
    have hshape : Item.bytes (.csi marker params final) ++ more =
        0x1b :: ((0x5b :: (Item.inner marker params ++ [final])) ++ more) := rfl
    have hcons : (0x1b : UInt8) :: ((0x5b :: (Item.inner marker params ++ [final])) ++ more) =
        0x1b :: 0x5b :: (Item.inner marker params ++ final :: more) := by simp
    rw [hshape, sequences, sequences_skip hskip, hcons, hnear]
    rfl

theorem sequences_bytesOf {items : List Item} (h : ∀ item ∈ items, item.WellFormed) :
    sequences (bytesOf items) = items.filterMap Item.sequence := by
  induction items with
  | nil => rfl
  | cons item items ih =>
    rw [List.forall_mem_cons] at h
    rw [bytesOf, List.flatMap_cons, sequences_bytes h.1, ← bytesOf, ih h.2]
    rcases hsequence : item.sequence with _ | sequence
    · rw [List.filterMap_cons_none hsequence]
      rfl
    · rw [List.filterMap_cons_some hsequence]
      rfl

theorem decimalBytes_ne_nil (n : ℕ) : decimalBytes n ≠ [] := by
  rw [decimalBytes, Ne, List.map_eq_nil_iff]
  exact Nat.toDigits_ne_nil

theorem splitParams_intercalate {params : List (Option ℕ)} (h : params ≠ []) :
    splitParams ([0x3b].intercalate (params.map paramBytes)) = params.map paramBytes := by
  refine List.splitOn_intercalate _ (fun part hpart hmem => ?_) (by simpa using h)
  obtain ⟨param, -, rfl⟩ := List.mem_map.mp hpart
  exact (isParam_of_mem_paramBytes hmem).2 rfl

/-- A part of the parameters is a mode, or a parameter is. -/
theorem any_splitParams (modes : List ℕ) (params : List (Option ℕ)) :
    (splitParams ([0x3b].intercalate (params.map paramBytes))).any
        (fun param => (modes.map decimalBytes).contains param) = true ↔
      ∃ mode ∈ modes, some mode ∈ params := by
  rcases eq_or_ne params [] with rfl | hne
  · simp [splitParams, List.intercalate, decimalBytes_ne_nil]
  · rw [splitParams_intercalate hne]
    simp only [List.any_eq_true, List.mem_map, List.contains_iff_mem]
    constructor
    · rintro ⟨-, ⟨param, hparam, rfl⟩, mode, hmode, heq⟩
      rcases param with _ | n
      · exact absurd heq (decimalBytes_ne_nil mode)
      · rw [decimalBytes_injective heq] at hmode
        exact ⟨n, hmode, hparam⟩
    · rintro ⟨mode, hmode, hmem⟩
      exact ⟨decimalBytes mode, ⟨some mode, hmem, rfl⟩, mode, hmode, rfl⟩

theorem altScreenParamMatches_iff (params : List (Option ℕ)) :
    altScreenParamMatches ([0x3b].intercalate (params.map paramBytes)) = true ↔
      ∃ mode ∈ alternateModes, some mode ∈ params :=
  any_splitParams alternateModes params

theorem dectcemParamMatches_iff (params : List (Option ℕ)) :
    dectcemParamMatches ([0x3b].intercalate (params.map paramBytes)) = true ↔
      ∃ mode ∈ cursorModes, some mode ∈ params := by
  rw [← any_splitParams cursorModes params, dectcemParamMatches]
  have hmodes : cursorModes.map decimalBytes = [[0x32, 0x35]] := by decide
  simp [hmodes]

/-- What the scan of the modes makes of a part of the output. -/
theorem toAltScreen_sequence {item : Item} {sequence : ControlSequence} (hsequence : item.sequence = some sequence)
    (state : AltScreenState) :
    ControlSequence.toAltScreen state sequence =
      ⟨(item.sets alternateModes).getD state.active, (item.sets cursorModes).getD state.cursorVisible⟩ := by
  have hnone : sequence.mode = none → (∀ modes, item.sets modes = none) →
      ControlSequence.toAltScreen state sequence =
        ⟨(item.sets alternateModes).getD state.active, (item.sets cursorModes).getD state.cursorVisible⟩ := by
    intro hmode hsets
    rw [ControlSequence.toAltScreen, hmode, hsets, hsets]
    rfl
  cases item with
  | print byte => cases hsequence
  | carriageReturn => cases hsequence
  | lineFeed => cases hsequence
  | ris =>
    cases hsequence
    exact hnone rfl fun _ => rfl
  | csi marker params final =>
    cases hsequence
    rcases marker with _ | kind
    · refine hnone ?_ fun _ => rfl
      show ControlSequence.mode (.csi ([0x3b].intercalate (params.map paramBytes)) final) = none
      rcases hparams : [0x3b].intercalate (params.map paramBytes) with _ | ⟨byte, rest⟩
      · rfl
      · have hbyte : isParam byte = true :=
          isParam_of_mem_intercalate (by rw [hparams]; exact List.mem_cons_self)
        rw [ControlSequence.mode, if_neg]
        rintro ⟨rfl, -⟩
        cases hbyte
    · have hmode : ControlSequence.mode (.csi (Item.inner (some kind) params) final) =
          if kind = 0x3f ∧ (final = 0x68 ∨ final = 0x6c) then
            some (final == 0x68, [0x3b].intercalate (params.map paramBytes)) else none := rfl
      by_cases hset : kind = 0x3f ∧ (final = 0x68 ∨ final = 0x6c)
      · rw [if_pos hset] at hmode
        have hsets : ∀ modes, Item.sets modes (.csi (some kind) params final) =
            if ∃ mode ∈ modes, some mode ∈ params then some (final == 0x68) else none := fun modes => by
          simp only [Item.sets, hset, true_and]
        rw [ControlSequence.toAltScreen, hmode, hsets, hsets]
        simp only [AltScreenState.store, altScreenParamMatches_iff, dectcemParamMatches_iff,
          AltScreenState.mk.injEq]
        constructor
        · split_ifs <;> rfl
        · split_ifs <;> rfl
      · rw [if_neg hset] at hmode
        refine hnone hmode fun modes => if_neg fun h => hset ⟨h.1, h.2.1⟩

/-- The state of the client after the output: its flags, changed by the modes. -/
theorem observed_altScreen {items : List Item} (hitems : ∀ item ∈ items, item.WellFormed) :
    (sequences (bytesOf items)).foldl ControlSequence.toAltScreen .default =
      ⟨tracked alternateModes false items, tracked cursorModes true items⟩ := by
  rw [sequences_bytesOf hitems]
  have hrun : ∀ (items : List Item) (state : AltScreenState),
      (items.filterMap Item.sequence).foldl ControlSequence.toAltScreen state =
        ⟨items.foldl (fun flag item => (item.sets alternateModes).getD flag) state.active,
          items.foldl (fun flag item => (item.sets cursorModes).getD flag) state.cursorVisible⟩ := by
    intro items
    induction items with
    | nil => exact fun _ => rfl
    | cons item items ih =>
      intro state
      rw [List.foldl_cons, List.foldl_cons]
      rcases hsequence : item.sequence with _ | sequence
      · have hsets : ∀ modes, item.sets modes = none := fun modes => by
          cases item <;> first | rfl | cases hsequence
        rw [List.filterMap_cons_none hsequence, ih, hsets, hsets]
        rfl
      · rw [List.filterMap_cons_some hsequence, List.foldl_cons, ih, toAltScreen_sequence hsequence]
  exact hrun items .default

/-- The host after the output: its flags, changed by the modes and by a reset. -/
theorem screenAfter_eq (items : List Item) :
    screenAfter items = ⟨shown alternateModes false items, shown cursorModes true items⟩ := by
  have hrun : ∀ (items : List Item) (screen : Screen), items.foldl Screen.apply screen =
      ⟨items.foldl (fun flag item => if item = .ris then false else (item.sets alternateModes).getD flag)
          screen.alternate,
        items.foldl (fun flag item => if item = .ris then true else (item.sets cursorModes).getD flag)
          screen.cursorShown⟩ := by
    intro items
    induction items with
    | nil => exact fun _ => rfl
    | cons item items ih =>
      intro screen
      rw [List.foldl_cons, List.foldl_cons, List.foldl_cons, ih, Screen.apply]
      split_ifs <;> rfl
  exact hrun items .initial

/-- The flags are those of the host exactly if each of them is. -/
theorem follows_iff_eq (state : AltScreenState) (screen : Screen) :
    Follows state screen ↔ state.active = screen.alternate ∧ state.cursorVisible = screen.cursorShown := by
  constructor
  · rintro ⟨rfl, -⟩
    exact ⟨rfl, rfl⟩
  · obtain ⟨active, cursorVisible⟩ := state
    rintro ⟨rfl, rfl⟩
    refine ⟨rfl, ?_, fun h => by rw [StatusBar.cursorRestoreSuffix, if_pos h]⟩
    simp [drawsStatus]

/-- **When the flags of the client are those of the host.** -/
theorem follows_iff {items : List Item} {chunks : List (List UInt8)} (statusScrollBottom : Option ℕ)
    (hitems : ∀ item ∈ items, item.WellFormed) (hchunks : chunks.flatten = bytesOf items) :
    Follows (observeAll statusScrollBottom chunks).1.altScreen (screenAfter items) ↔
      Kept alternateModes false items ∧ Kept cursorModes true items := by
  rw [observeAll_observed, hchunks]
  show Follows ((sequences (bytesOf items)).foldl ControlSequence.toAltScreen .default) _ ↔ _
  rw [observed_altScreen hitems, screenAfter_eq, follows_iff_eq]
  exact and_congr (tracked_eq_shown_iff items) (tracked_eq_shown_iff items)

/-- A program that leaves the alternate screen before it resets the terminal, with its first sequence cut in
two. -/
theorem follows_iff_left :
    Follows (observeAll (some 23) [[0x1b, 0x5b], [0x3f, 0x31, 0x30, 0x34, 0x39, 0x68],
        [0x1b, 0x5b, 0x3f, 0x31, 0x30, 0x34, 0x39, 0x6c, 0x1b, 0x63]]).1.altScreen
      (screenAfter [.csi (some 0x3f) [some 1049] 0x68, .csi (some 0x3f) [some 1049] 0x6c, .ris]) ↔
      Kept alternateModes false [.csi (some 0x3f) [some 1049] 0x68, .csi (some 0x3f) [some 1049] 0x6c, .ris] ∧
        Kept cursorModes true
          [.csi (some 0x3f) [some 1049] 0x68, .csi (some 0x3f) [some 1049] 0x6c, .ris] :=
  follows_iff (some 23) (by decide) (by decide)

/-- A reset on the alternate screen, with the cursor hidden: the host shows its cursor on the first screen,
the client holds the bar back and would hide the cursor. -/
theorem reset_not_followed :
    (∀ item ∈ [Item.csi (some 0x3f) [some 1049] 0x68, .csi (some 0x3f) [some 25] 0x6c, .ris],
        item.WellFormed) ∧
      (observeAll (some 23) [bytesOf
        [.csi (some 0x3f) [some 1049] 0x68, .csi (some 0x3f) [some 25] 0x6c, .ris]]).1.altScreen =
        ⟨true, false⟩ ∧
      screenAfter [.csi (some 0x3f) [some 1049] 0x68, .csi (some 0x3f) [some 25] 0x6c, .ris] =
        ⟨false, true⟩ ∧
      ¬ Follows (observeAll (some 23) [bytesOf
        [.csi (some 0x3f) [some 1049] 0x68, .csi (some 0x3f) [some 25] 0x6c, .ris]]).1.altScreen
        (screenAfter [.csi (some 0x3f) [some 1049] 0x68, .csi (some 0x3f) [some 25] 0x6c, .ris]) := by
  decide

end LightTerminal.Client.AltScreen
