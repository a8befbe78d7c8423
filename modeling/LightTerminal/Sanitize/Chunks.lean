import LightTerminal.Sanitize.Capture

/-! # The sanitizer does not depend on how the stream is cut

A turn of the loop looks at no more than the bytes of one scalar. So a turn that goes on at the
end of a chunk would have done the same with more bytes behind it (`captureStep_append`), and a
turn that breaks leaves all the bytes from there on in the pending buffer, for the next chunk to
put in front. By induction over the bytes, sanitizing `x ++ y` is sanitizing `x` and then `y`
(`terminalCapture_append`), and from there any cutting into chunks (`captureChunks_flatten`).

The text pushed is free of control characters other than tab, line feed and carriage return
(`captureLoop_visible`). -/

namespace LightTerminal.Sanitize.Chunks

open LightTerminal.Sanitize.Capture

/-! ### Decoding looks at the announced bytes only -/

theorem utf8CharWidth_bounds {byte : UInt8} {width : ℕ} (h : utf8CharWidth byte = some width) :
    1 ≤ width ∧ width ≤ 4 := by
  unfold utf8CharWidth at h
  split_ifs at h <;> simp only [Option.some.injEq] at h <;> omega

theorem decodeUtf8Char_cons (byte : UInt8) (rest : List UInt8) :
    decodeUtf8Char (byte :: rest) =
      (utf8CharWidth byte).bind fun width =>
        if rest.length + 1 < width then none
        else (((byte :: rest).take width).toByteArray.utf8DecodeChar? 0).map (·, width) := by
  simp only [decodeUtf8Char, List.head?_cons, Option.bind_eq_bind, Option.bind_some,
    List.length_cons]
  congr 1
  funext width
  split_ifs
  · rfl
  · cases ((byte :: rest).take width).toByteArray.utf8DecodeChar? 0 <;> rfl

theorem isIncompleteUtf8_cons (byte : UInt8) (rest : List UInt8) :
    isIncompleteUtf8 (byte :: rest) = true ↔
      ∃ width, utf8CharWidth byte = some width ∧ rest.length + 1 < width := by
  unfold isIncompleteUtf8
  rcases h : utf8CharWidth byte with _ | width <;> simp [h]

/-- The length `decode_utf8_char` returns is positive and within the bytes. -/
theorem decodeUtf8Char_len {byte : UInt8} {rest : List UInt8} {ch : Char} {len : ℕ}
    (h : decodeUtf8Char (byte :: rest) = some (ch, len)) : 1 ≤ len ∧ len ≤ rest.length + 1 := by
  rw [decodeUtf8Char_cons] at h
  rcases hw : utf8CharWidth byte with _ | width
  · simp [hw] at h
  · rw [hw, Option.bind_some] at h
    split_ifs at h with hlt
    simp only [Option.map_eq_some_iff, Prod.mk.injEq] at h
    obtain ⟨-, -, -, rfl⟩ := h
    exact ⟨(utf8CharWidth_bounds hw).1, by omega⟩

/-- Bytes that are not cut off decode the same with more bytes behind them. -/
theorem decodeUtf8Char_append {byte : UInt8} {rest : List UInt8} (more : List UInt8)
    (h : isIncompleteUtf8 (byte :: rest) = false) :
    decodeUtf8Char (byte :: (rest ++ more)) = decodeUtf8Char (byte :: rest) := by
  rw [decodeUtf8Char_cons, decodeUtf8Char_cons]
  rcases hw : utf8CharWidth byte with _ | width
  · rfl
  · have hle : ¬ rest.length + 1 < width := fun hlt => by
      rw [(isIncompleteUtf8_cons byte rest).mpr ⟨width, hw, hlt⟩] at h
      cases h
    have hle' : ¬ (rest ++ more).length + 1 < width := by rw [List.length_append]; omega
    rw [Option.bind_some, Option.bind_some, if_neg hle, if_neg hle', ← List.cons_append,
      List.take_append_of_le_length (by rw [List.length_cons]; omega)]

theorem isIncompleteUtf8_append {byte : UInt8} {rest : List UInt8} (more : List UInt8)
    (h : isIncompleteUtf8 (byte :: rest) = false) :
    isIncompleteUtf8 (byte :: (rest ++ more)) = false := by
  rw [Bool.eq_false_iff] at h ⊢
  intro h'
  obtain ⟨width, hw, hlt⟩ := (isIncompleteUtf8_cons _ _).mp h'
  rw [List.length_append] at hlt
  exact h ((isIncompleteUtf8_cons _ _).mpr ⟨width, hw, by omega⟩)

theorem length_lt_of_isIncompleteUtf8 {byte : UInt8} {rest : List UInt8}
    (h : isIncompleteUtf8 (byte :: rest) = true) : (byte :: rest).length < 4 := by
  obtain ⟨width, hw, hlt⟩ := (isIncompleteUtf8_cons byte rest).mp h
  have := (utf8CharWidth_bounds hw).2
  rw [List.length_cons]; omega

/-! ### What one turn does -/

section Decode
variable {byte : UInt8} {rest : List UInt8} {scalar : Char → EscapeState × List Char}
  {malformed : EscapeState × List Char}

theorem decodeTurn_append (more : List UInt8)
    (h : decodeTurn (byte :: rest) scalar malformed ≠ .stop) :
    decodeTurn (byte :: (rest ++ more)) scalar malformed =
      decodeTurn (byte :: rest) scalar malformed := by
  unfold decodeTurn at h ⊢
  by_cases hi : isIncompleteUtf8 (byte :: rest) = true
  · -- a cut-off scalar cannot have been decoded
    exfalso
    obtain ⟨width, hw, hlt⟩ := (isIncompleteUtf8_cons byte rest).mp hi
    rw [decodeUtf8Char_cons, hw, Option.bind_some, if_pos hlt] at h
    simp [hi] at h
  · rw [Bool.not_eq_true] at hi
    rw [decodeUtf8Char_append more hi, hi, isIncompleteUtf8_append more hi]

theorem decodeTurn_stop (h : decodeTurn (byte :: rest) scalar malformed = .stop) :
    isIncompleteUtf8 (byte :: rest) = true := by
  unfold decodeTurn at h
  split at h
  · cases h
  · by_contra hi
    rw [if_neg hi] at h; cases h

theorem decodeTurn_next {escape : EscapeState} {out : List Char} {len : ℕ}
    (h : decodeTurn (byte :: rest) scalar malformed = .next escape out len) :
    (1 ≤ len ∧ len ≤ rest.length + 1) ∧ ((∃ ch, out = (scalar ch).2) ∨ out = malformed.2) := by
  unfold decodeTurn at h
  split at h
  · next ch n hd =>
    cases h
    exact ⟨decodeUtf8Char_len hd, Or.inl ⟨ch, rfl⟩⟩
  · split_ifs at h
    cases h
    exact ⟨⟨le_rfl, by omega⟩, Or.inr rfl⟩

end Decode

/-- The characters a capture may contain. -/
def Visible (ch : Char) : Prop := isC0OrC1 ch = false ∨ ch = '\t' ∨ ch = '\n' ∨ ch = '\r'

instance (ch : Char) : Decidable (Visible ch) := by unfold Visible; infer_instance

theorem groundScalar_visible (ch : Char) : ∀ c ∈ (groundScalar ch).2, Visible c := by
  unfold groundScalar
  split_ifs with h1 h2 h3
  · simp
  · simp
  · simp
  · intro c hc
    rw [List.mem_singleton.mp hc]
    exact Or.inl (by simpa using h3)

theorem visible_of_printable {byte : UInt8} (h1 : ¬ (byte ≤ 0x1f ∨ byte = 0x7f))
    (h2 : byte ≤ 0x7f) : Visible (Char.ofNat byte.toNat) := by
  have h1' : ¬ byte.toNat ≤ 31 ∧ byte.toNat ≠ 127 := by
    refine ⟨fun h => h1 (Or.inl (UInt8.le_iff_toNat_le.mpr h)), fun h => h1 (Or.inr ?_)⟩
    exact UInt8.toNat_inj.mp h
  have h2' : byte.toNat ≤ 127 := UInt8.le_iff_toNat_le.mp h2
  have hn : (Char.ofNat byte.toNat).toNat = byte.toNat := by
    have hv : byte.toNat.isValidChar := Or.inl (by omega)
    rw [Char.ofNat, dif_pos hv]; rfl
  refine Or.inl ?_
  simp only [isC0OrC1, hn, Bool.or_eq_false_iff, Bool.and_eq_false_iff, decide_eq_false_iff_not]
  omega

theorem visible_of_whitespace {byte : UInt8} (h : byte = 0x09 ∨ byte = 0x0a ∨ byte = 0x0d) :
    Visible (Char.ofNat byte.toNat) := by
  rcases h with rfl | rfl | rfl <;> decide

/-- What a turn at a byte does, whatever comes behind it: it takes the byte alone, or it decodes. -/
inductive Shape (byte : UInt8) (turn : List UInt8 → Turn) : Prop where
  | alone (escape : EscapeState) (out : List Char) (hout : ∀ ch ∈ out, Visible ch)
      (hturn : ∀ rest, turn rest = .next escape out 1)
  | decodes (scalar : Char → EscapeState × List Char) (malformed : EscapeState × List Char)
      (hscalar : ∀ ch, ∀ c ∈ (scalar ch).2, Visible c) (hmalformed : ∀ c ∈ malformed.2, Visible c)
      (hturn : ∀ rest, turn rest = decodeTurn (byte :: rest) scalar malformed)

section Shape
variable {byte : UInt8} {turn turn' : List UInt8 → Turn}

theorem Shape.ite {c : Prop} [Decidable c] (h : c → Shape byte turn) (h' : ¬ c → Shape byte turn') :
    Shape byte fun rest => if c then turn rest else turn' rest := by
  by_cases hc : c
  · simpa only [if_pos hc] using h hc
  · simpa only [if_neg hc] using h' hc

theorem Shape.silent (byte : UInt8) (escape : EscapeState) :
    Shape byte fun _ => .next escape [] 1 :=
  .alone escape [] (fun _ hmem => absurd hmem List.not_mem_nil) fun _ => rfl

/-- Inside a sequence nothing is pushed. -/
theorem Shape.terminates (byte : UInt8) (escape : EscapeState) :
    Shape byte fun rest =>
      decodeTurn (byte :: rest) (terminates escape) (byteTerminates escape byte) :=
  .decodes _ _ (fun _ _ hmem => absurd hmem List.not_mem_nil)
    (fun _ hmem => absurd hmem List.not_mem_nil) fun _ => rfl

theorem shape_ground (byte : UInt8) : Shape byte fun rest => groundTurn byte (byte :: rest) := by
  unfold groundTurn
  refine .ite (fun _ => .silent byte _) fun _ => .ite (fun _ => .silent byte _) fun _ => ?_
  refine .ite (fun _ => .silent byte _) fun _ => .ite (fun _ => .silent byte _) fun _ => ?_
  refine .ite (fun hspace => ?_) fun _ => .ite (fun _ => .silent byte _) fun hprintable => ?_
  · exact .alone _ _ (List.forall_mem_singleton.mpr (visible_of_whitespace hspace)) fun _ => rfl
  refine .ite (fun hascii => ?_) fun _ => ?_
  · have hvisible := visible_of_printable hprintable hascii
    exact .alone _ _ (List.forall_mem_singleton.mpr hvisible) fun _ => rfl
  · exact .decodes _ _ groundScalar_visible (List.forall_mem_singleton.mpr (by decide)) fun _ => rfl

theorem shape_esc (byte : UInt8) : Shape byte fun _ => escTurn byte := by
  unfold escTurn
  refine .ite (fun _ => .silent byte _) fun _ => .ite (fun _ => .silent byte _) fun _ => ?_
  refine .ite (fun _ => .silent byte _) fun _ => .ite (fun _ => .silent byte _) fun _ => ?_
  refine .ite (fun _ => .silent byte _) fun _ => .ite (fun _ => .silent byte _) fun _ => ?_
  exact .ite (fun _ => .silent byte _) fun _ => .ite (fun _ => .silent byte _) fun _ =>
    .silent byte _

/-- What one turn does. -/
theorem captureStep_shape (escape : EscapeState) (byte : UInt8) :
    Shape byte (captureStep escape byte) := by
  cases escape with
  | ground => exact shape_ground byte
  | esc => exact shape_esc byte
  | csi =>
    change Shape byte fun rest => csiTurn byte (byte :: rest)
    unfold csiTurn
    refine .ite (fun _ => .terminates byte _) fun _ => .ite (fun _ => .silent byte _) fun _ => ?_
    exact .ite (fun _ => .silent byte _) fun _ => .ite (fun _ => .silent byte _) fun _ =>
      .silent byte _
  | string =>
    change Shape byte fun rest => stringTurn byte (byte :: rest)
    unfold stringTurn
    refine .ite (fun _ => .terminates byte _) fun _ => .ite (fun _ => .silent byte _) fun _ => ?_
    exact .ite (fun _ => .silent byte _) fun _ => .ite (fun _ => .silent byte _) fun _ =>
      .silent byte _
  | stringEsc =>
    change Shape byte fun rest => stringEscTurn byte (byte :: rest)
    unfold stringEscTurn
    exact .ite (fun _ => .terminates byte _) fun _ => .silent byte _
  | charset => exact .silent byte _

end Shape

/-- **One turn**, at any byte: it passes over at least one and at most all of the bytes, and what
it pushes is visible. -/
theorem captureStep_next {escape escape' : EscapeState} {byte : UInt8} {rest : List UInt8}
    {out : List Char} {len : ℕ} (h : captureStep escape byte rest = .next escape' out len) :
    (1 ≤ len ∧ len ≤ rest.length + 1) ∧ ∀ ch ∈ out, Visible ch := by
  rcases captureStep_shape escape byte with ⟨_, _, hout, hturn⟩ | ⟨scalar, malformed, hscalar, hbad, hturn⟩
  · obtain ⟨-, rfl, rfl⟩ := Turn.next.inj ((hturn rest).symm.trans h)
    exact ⟨⟨le_rfl, by omega⟩, hout⟩
  · obtain ⟨hlen, ⟨ch, rfl⟩ | rfl⟩ := decodeTurn_next ((hturn rest).symm.trans h)
    · exact ⟨hlen, hscalar ch⟩
    · exact ⟨hlen, hbad⟩

/-- A turn passes over one byte or a decoded scalar. -/
theorem decodeTurn_len {bytes : List UInt8} {scalar : Char → EscapeState × List Char}
    {malformed : EscapeState × List Char} {escape : EscapeState} {out : List Char} {len : ℕ}
    (h : decodeTurn bytes scalar malformed = .next escape out len) :
    len = 1 ∨ ∃ ch, decodeUtf8Char bytes = some (ch, len) := by
  unfold decodeTurn at h
  split at h
  · next ch n hd =>
    obtain ⟨-, -, rfl⟩ := Turn.next.inj h
    exact Or.inr ⟨ch, hd⟩
  · split_ifs at h
    obtain ⟨-, -, rfl⟩ := Turn.next.inj h
    exact Or.inl rfl

theorem captureStep_len {escape escape' : EscapeState} {byte : UInt8} {rest : List UInt8}
    {out : List Char} {len : ℕ} (h : captureStep escape byte rest = .next escape' out len) :
    len = 1 ∨ ∃ ch, decodeUtf8Char (byte :: rest) = some (ch, len) := by
  rcases captureStep_shape escape byte with ⟨_, _, -, hturn⟩ | ⟨scalar, malformed, -, -, hturn⟩
  · exact Or.inl (Turn.next.inj ((hturn rest).symm.trans h)).2.2.symm
  · exact decodeTurn_len ((hturn rest).symm.trans h)

/-- A turn that breaks does so on a cut-off scalar. -/
theorem captureStep_stop {escape : EscapeState} {byte : UInt8} {rest : List UInt8}
    (h : captureStep escape byte rest = .stop) : isIncompleteUtf8 (byte :: rest) = true := by
  rcases captureStep_shape escape byte with ⟨_, _, -, hturn⟩ | ⟨scalar, malformed, -, -, hturn⟩
  · cases (hturn rest).symm.trans h
  · exact decodeTurn_stop ((hturn rest).symm.trans h)

/-- A turn that goes on does the same with more bytes behind. -/
theorem captureStep_append {escape : EscapeState} {byte : UInt8} {rest : List UInt8}
    (more : List UInt8) (h : captureStep escape byte rest ≠ .stop) :
    captureStep escape byte (rest ++ more) = captureStep escape byte rest := by
  rcases captureStep_shape escape byte with ⟨_, _, -, hturn⟩ | ⟨scalar, malformed, -, -, hturn⟩
  · rw [hturn, hturn]
  · rw [hturn] at h
    rw [hturn, hturn]
    exact decodeTurn_append more h

/-! ### The loop -/

theorem captureLoop_skip : ∀ (skip : ℕ) (escape : EscapeState) (bytes : List UInt8),
    captureLoop skip escape bytes = captureLoop 0 escape (bytes.drop skip)
  | 0, _, _ => rfl
  | skip + 1, escape, [] => by simp [captureLoop]
  | skip + 1, escape, _ :: rest => by
    rw [captureLoop, captureLoop_skip skip escape rest, List.drop_succ_cons]

theorem captureLoop_stop {escape : EscapeState} {byte : UInt8} {rest : List UInt8}
    (h : captureStep escape byte rest = .stop) :
    captureLoop 0 escape (byte :: rest) = ([], ⟨escape, byte :: rest⟩) := by
  rw [captureLoop, h]
  have := length_lt_of_isIncompleteUtf8 (captureStep_stop h)
  simp only
  rw [List.take_of_length_le (by omega)]

theorem captureLoop_next {escape escape' : EscapeState} {byte : UInt8} {rest : List UInt8}
    {out : List Char} {len : ℕ} (h : captureStep escape byte rest = .next escape' out len) :
    captureLoop 0 escape (byte :: rest) =
      (out ++ (captureLoop 0 escape' ((byte :: rest).drop len)).1,
        (captureLoop 0 escape' ((byte :: rest).drop len)).2) := by
  obtain ⟨⟨hpos, -⟩, -⟩ := captureStep_next h
  obtain ⟨len, rfl⟩ : ∃ n, len = n + 1 := ⟨len - 1, by omega⟩
  rw [captureLoop, h]
  simp only [Nat.add_sub_cancel, List.drop_succ_cons]
  rw [captureLoop_skip len escape' rest]

/-- The induction behind the results on the loop: either the bytes are used up, or the turn
breaks, or it goes on with strictly fewer bytes. -/
theorem captureLoop_induction {motive : EscapeState → List UInt8 → Prop}
    (done : ∀ escape, motive escape [])
    (stop : ∀ escape byte rest, captureStep escape byte rest = .stop →
      motive escape (byte :: rest))
    (next : ∀ escape byte rest escape' out len,
      captureStep escape byte rest = .next escape' out len →
        motive escape' ((byte :: rest).drop len) → motive escape (byte :: rest)) :
    ∀ (escape : EscapeState) (bytes : List UInt8), motive escape bytes
  | escape, [] => done escape
  | escape, byte :: rest => by
    cases h : captureStep escape byte rest with
    | stop => exact stop escape byte rest h
    | next escape' out len =>
      have hpos := (captureStep_next h).1.1
      exact next escape byte rest escape' out len h
        (captureLoop_induction done stop next escape' ((byte :: rest).drop len))
  termination_by _ bytes => bytes.length
  decreasing_by simp only [List.length_drop, List.length_cons]; omega

/-- **Cutting in two**, for the loop: the bytes a break leaves over go in front of the rest. -/
theorem captureLoop_append (more : List UInt8) : ∀ (escape : EscapeState) (bytes : List UInt8),
    captureLoop 0 escape (bytes ++ more) =
      ((captureLoop 0 escape bytes).1 ++
          (terminalCaptureFromState more (captureLoop 0 escape bytes).2).1,
        (terminalCaptureFromState more (captureLoop 0 escape bytes).2).2) := by
  refine captureLoop_induction ?_ ?_ ?_
  · intro escape
    simp [captureLoop, terminalCaptureFromState]
  · intro escape byte rest h
    simp [captureLoop_stop h, terminalCaptureFromState]
  · intro escape byte rest escape' out len h ih
    have happ : captureStep escape byte (rest ++ more) = .next escape' out len := by
      rw [captureStep_append more (by rw [h]; simp), h]
    have hlen := (captureStep_next h).1.2
    rw [List.cons_append, captureLoop_next happ, captureLoop_next h, ← List.cons_append,
      List.drop_append_of_le_length (by simpa using hlen), ih]
    simp

theorem captureLoop_visible : ∀ (escape : EscapeState) (bytes : List UInt8),
    ∀ ch ∈ (captureLoop 0 escape bytes).1, Visible ch := by
  refine captureLoop_induction ?_ ?_ ?_
  · intro escape; simp [captureLoop]
  · intro escape byte rest h; simp [captureLoop_stop h]
  · intro escape byte rest escape' out len h ih ch hch
    rw [captureLoop_next h, List.mem_append] at hch
    rcases hch with hch | hch
    · exact (captureStep_next h).2 ch hch
    · exact ih ch hch

/-- The pending bytes after a call are none, or the beginning of a scalar on which a turn in the
escape state reached breaks. -/
def Settled (state : TerminalCaptureState) : Prop :=
  captureLoop 0 state.escape state.pendingUtf8 = ([], state)

theorem captureLoop_settled : ∀ (escape : EscapeState) (bytes : List UInt8),
    Settled (captureLoop 0 escape bytes).2 := by
  refine captureLoop_induction ?_ ?_ ?_
  · intro escape; simp [captureLoop, Settled]
  · intro escape byte rest h; simp [Settled, captureLoop_stop h]
  · intro escape byte rest escape' out len h ih
    rw [captureLoop_next h]; exact ih

/-! ### Chunks -/

/-- The outputs of a run over chunks, in order, and the state it ends in. -/
def captureChunks : List (List UInt8) → TerminalCaptureState →
    List (List Char) × TerminalCaptureState
  | [], state => ([], state)
  | chunk :: chunks, state =>
    let (out, state) := terminalCaptureFromState chunk state
    let (outs, state) := captureChunks chunks state
    (out :: outs, state)

/-- The states the sanitizer can be in. -/
def Reachable (state : TerminalCaptureState) : Prop :=
  ∃ chunks, (captureChunks chunks .default).2 = state

/-- **Cutting in two.** -/
theorem terminalCapture_append (x y : List UInt8) (state : TerminalCaptureState) :
    terminalCaptureFromState (x ++ y) state =
      ((terminalCaptureFromState x state).1 ++
          (terminalCaptureFromState y (terminalCaptureFromState x state).2).1,
        (terminalCaptureFromState y (terminalCaptureFromState x state).2).2) := by
  unfold terminalCaptureFromState
  rw [← List.append_assoc]
  exact captureLoop_append y state.escape (state.pendingUtf8 ++ x)

theorem terminalCapture_nil {state : TerminalCaptureState} (h : Settled state) :
    terminalCaptureFromState [] state = ([], state) := by
  unfold terminalCaptureFromState
  rw [List.append_nil]; exact h

theorem captureChunks_settled : ∀ (chunks : List (List UInt8)) (state : TerminalCaptureState),
    Settled state → Settled (captureChunks chunks state).2
  | [], _, h => h
  | chunk :: chunks, state, _ =>
    captureChunks_settled chunks _ (captureLoop_settled state.escape (state.pendingUtf8 ++ chunk))

theorem captureChunks_flatten : ∀ (chunks : List (List UInt8)) (state : TerminalCaptureState),
    Settled state →
      terminalCaptureFromState chunks.flatten state =
        ((captureChunks chunks state).1.flatten, (captureChunks chunks state).2)
  | [], _, h => terminalCapture_nil h
  | chunk :: chunks, state, _ => by
    have ih := captureChunks_flatten chunks (terminalCaptureFromState chunk state).2
      (captureLoop_settled _ _)
    rw [List.flatten_cons, terminalCapture_append, ih]
    rfl

theorem Reachable.settled {state : TerminalCaptureState} (h : Reachable state) :
    Settled state := by
  obtain ⟨chunks, rfl⟩ := h
  exact captureChunks_settled chunks _ rfl

/-- **Chunk invariance.** From every reachable state, sanitizing the chunks one after the other
gives the text and the state of sanitizing their concatenation in one call, and that text holds
no control character but tab, line feed and carriage return. -/
theorem captureChunks_invariant (state : TerminalCaptureState) (h : Reachable state)
    (bytes : List UInt8) (chunks : List (List UInt8)) (hcut : chunks.flatten = bytes) :
    (captureChunks chunks state).1.flatten = (terminalCaptureFromState bytes state).1 ∧
      (captureChunks chunks state).2.escape = (terminalCaptureFromState bytes state).2.escape ∧
      (captureChunks chunks state).2.pendingUtf8 =
        (terminalCaptureFromState bytes state).2.pendingUtf8 ∧
      ∀ ch ∈ (captureChunks chunks state).1.flatten,
        isC0OrC1 ch = true → ch = '\t' ∨ ch = '\n' ∨ ch = '\r' := by
  subst hcut
  rw [captureChunks_flatten chunks state h.settled]
  refine ⟨rfl, rfl, rfl, fun ch hch hc => ?_⟩
  have hmem : ch ∈ (terminalCaptureFromState chunks.flatten state).1 := by
    rw [captureChunks_flatten chunks state h.settled]; exact hch
  rcases captureLoop_visible _ _ ch hmem with hv | hv
  · rw [hc] at hv; cases hv
  · exact hv

/-- A three-byte scalar cut after each byte, from the state a cut-off lead byte leaves. -/
theorem captureChunks_invariant_split :
    (captureChunks [[0x9c], [], [0x85, 0x41]] ⟨.ground, [0xe2]⟩).1.flatten = ['✅', 'A'] := by
  have h := (captureChunks_invariant ⟨.ground, [0xe2]⟩ ⟨[[0xe2]], by decide⟩
    [0x9c, 0x85, 0x41] [[0x9c], [], [0x85, 0x41]] rfl).1
  rw [h]; decide

end LightTerminal.Sanitize.Chunks
