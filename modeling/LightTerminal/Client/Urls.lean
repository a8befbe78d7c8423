import LightTerminal.Data.Slices

/-! # URLs in a text

`extract_urls` (`client.rs`) looks for the two schemes byte by byte, takes what follows up to a space, a
control or a quote, and trims closing punctuation. The lists it returns are capped.

* `trimUrlCandidate_eq`: trimming gives the longest beginning that does not end in punctuation or in a
  closing bracket without its opening one.
* `extractUrls_spec`: what the lists hold, in terms of the runs of the text (`Runs`). -/

namespace LightTerminal.Client.Urls

open LightTerminal.Data.Text LightTerminal.Data.Slices LightTerminal.Library.Utf8
open LightTerminal.Sanitize.Truncate

/-- `MAX_EXTRACTED_URLS`. -/
def maxExtractedUrls : ℕ := 256

/-- `MAX_EXTRACTED_URL_BYTES`. -/
def maxExtractedUrlBytes : ℕ := 4096

/-! ### Schemes -/

/-- `u8::to_ascii_lowercase`. -/
def toAsciiLowercase (byte : UInt8) : UInt8 := if 0x41 ≤ byte ∧ byte ≤ 0x5a then byte + 0x20 else byte

/-- `ascii_starts_with_ignore_case`. -/
def asciiStartsWithIgnoreCase (value : List UInt8) (offset : ℕ) (needle : List UInt8) : Bool :=
  if offset + needle.length ≤ value.length then
    ((value.drop offset).take needle.length).map toAsciiLowercase == needle.map toAsciiLowercase
  else false

/-- `b"http://"`. -/
def httpScheme : List UInt8 := [0x68, 0x74, 0x74, 0x70, 0x3a, 0x2f, 0x2f]

/-- `b"https://"`. -/
def httpsScheme : List UInt8 := [0x68, 0x74, 0x74, 0x70, 0x73, 0x3a, 0x2f, 0x2f]

/-- The loop of `find_next_url_scheme`, with the number of bytes that are left. -/
def schemeLoop (bytes : List UInt8) : ℕ → ℕ → Option ℕ
  | 0, _ => none
  | left + 1, index =>
    if asciiStartsWithIgnoreCase bytes index httpScheme || asciiStartsWithIgnoreCase bytes index httpsScheme then
      some index
    else schemeLoop bytes left (index + 1)

/-- `find_next_url_scheme`. -/
def findNextUrlScheme (text : Str) (offset : ℕ) : Option ℕ :=
  let bytes := encode text
  let index := min offset bytes.length
  schemeLoop bytes (bytes.length - index) index

/-! ### Candidates -/

/-- `is_url_terminator`. -/
def isUrlTerminator (ch : Char) : Bool :=
  isControl ch || isWhitespace ch || ['<', '>', '"', '\'', '\x60'].contains ch

/-- `DelimiterCounts`. -/
structure DelimiterCounts where
  openParens : ℕ
  closeParens : ℕ
  openBrackets : ℕ
  closeBrackets : ℕ
  openBraces : ℕ
  closeBraces : ℕ
  deriving DecidableEq

namespace DelimiterCounts

/-- `DelimiterCounts::default`. -/
def default : DelimiterCounts := ⟨0, 0, 0, 0, 0, 0⟩

/-- The `match` of `scan`. -/
def add (counts : DelimiterCounts) (ch : Char) : DelimiterCounts :=
  match ch with
  | '(' => { counts with openParens := counts.openParens + 1 }
  | ')' => { counts with closeParens := counts.closeParens + 1 }
  | '[' => { counts with openBrackets := counts.openBrackets + 1 }
  | ']' => { counts with closeBrackets := counts.closeBrackets + 1 }
  | '\x7b' => { counts with openBraces := counts.openBraces + 1 }
  | '\x7d' => { counts with closeBraces := counts.closeBraces + 1 }
  | _ => counts

/-- `DelimiterCounts::scan`. -/
def scan (value : Str) : DelimiterCounts := value.foldl add default

/-- `unmatched_closing`. -/
def unmatchedClosing (counts : DelimiterCounts) (ch : Char) : Bool :=
  match ch with
  | ')' => decide (counts.openParens < counts.closeParens)
  | ']' => decide (counts.openBrackets < counts.closeBrackets)
  | '\x7d' => decide (counts.openBraces < counts.closeBraces)
  | _ => false

/-- `remove`, with `saturating_sub`. -/
def remove (counts : DelimiterCounts) (ch : Char) : DelimiterCounts :=
  match ch with
  | '(' => { counts with openParens := counts.openParens - 1 }
  | ')' => { counts with closeParens := counts.closeParens - 1 }
  | '[' => { counts with openBrackets := counts.openBrackets - 1 }
  | ']' => { counts with closeBrackets := counts.closeBrackets - 1 }
  | '\x7b' => { counts with openBraces := counts.openBraces - 1 }
  | '\x7d' => { counts with closeBraces := counts.closeBraces - 1 }
  | _ => counts

end DelimiterCounts

/-- `'.' | ',' | ';' | ':' | '!' | '?'`. -/
def isSentencePunctuation (ch : Char) : Bool := ['.', ',', ';', ':', '!', '?'].contains ch

/-- The loop of `trim_url_candidate`, for at most so many turns; `none` is a slice inside a character, or no
turn left. -/
def trimLoop (candidate : Str) : ℕ → ℕ → DelimiterCounts → Option Str
  | 0, _, _ => none
  | turns + 1, stop, delimiters =>
    if 0 < stop then do
      let current ← slice candidate 0 stop
      match current.getLast? with
      | none => slice candidate 0 stop
      | some ch =>
        if isSentencePunctuation ch || delimiters.unmatchedClosing ch then
          trimLoop candidate turns (stop - ch.utf8Size) (delimiters.remove ch)
        else slice candidate 0 stop
    else slice candidate 0 stop

/-- `trim_url_candidate`. -/
def trimUrlCandidate (candidate : Str) : Option Str :=
  trimLoop candidate (candidate.length + 1) (byteLen candidate) (.scan candidate)

/-- `str::is_ascii`. -/
def isAscii (text : Str) : Bool := text.all fun ch => decide (ch.toNat < 128)

/-- `url_has_scheme_body`. -/
def urlHasSchemeBody (url : Str) : Bool :=
  let bytes := encode url
  if asciiStartsWithIgnoreCase bytes 0 httpScheme then decide (httpScheme.length < bytes.length)
  else if asciiStartsWithIgnoreCase bytes 0 httpsScheme then decide (httpsScheme.length < bytes.length)
  else false

/-- `url_is_extractable`. -/
def urlIsExtractable (url : Str) : Bool :=
  isAscii url && decide (byteLen url ≤ maxExtractedUrlBytes) && urlHasSchemeBody url

/-! ### Extraction -/

/-- The `for` loop of `extract_urls`: where the first terminator behind the head is. -/
def terminatorAt (relative : ℕ) : Str → Option ℕ
  | [] => none
  | ch :: text =>
    if relative ≠ 0 ∧ isUrlTerminator ch = true then some relative
    else terminatorAt (relative + ch.utf8Size) text

/-- The lists of `extract_urls`, with what was seen. -/
structure Extracted where
  urls : List Str
  seen : List Str
  last : Option Str
  deriving DecidableEq

/-- The body of the loop for a candidate that is not too long. -/
def Extracted.visit (found : Extracted) (candidate : Str) : Extracted :=
  if urlIsExtractable candidate = true then
    if found.urls.length < maxExtractedUrls ∧ candidate ∉ found.seen then
      ⟨found.urls ++ [candidate], candidate :: found.seen, some candidate⟩
    else { found with last := some candidate }
  else found

/-- The loop of `extract_urls`, for at most so many turns; `none` is a slice inside a character, or no turn
left. -/
def extractLoop (text : Str) : ℕ → ℕ → Extracted → Option Extracted
  | 0, _, _ => none
  | turns + 1, offset, found =>
    match findNextUrlScheme text offset with
    | none => some found
    | some start => do
      let rest ← slice text start (byteLen text)
      let stop :=
        match terminatorAt 0 rest with
        | some relative => start + relative
        | none => byteLen text
      let rawCandidate ← slice text start stop
      let next := if start < stop then stop else start + 1
      if maxExtractedUrlBytes < byteLen rawCandidate then extractLoop text turns next found
      else do
        let candidate ← trimUrlCandidate rawCandidate
        extractLoop text turns next (found.visit candidate)

/-- `UrlExtraction`. -/
structure UrlExtraction where
  urls : List Str
  last : Option Str
  deriving DecidableEq

/-- `extract_urls`. A turn of the loop moves on by a byte at least. -/
def extractUrls (text : Str) : Option UrlExtraction :=
  (extractLoop text (byteLen text + 1) 0 ⟨[], [], none⟩).map fun found => ⟨found.urls, found.last⟩

/-! ### Trimming -/

/-- The opening bracket of a closing one. -/
def openingOf : Char → Option Char
  | ')' => some '('
  | ']' => some '['
  | '\x7d' => some '\x7b'
  | _ => none

/-- The text does not end in punctuation, or in a closing bracket of which it has more than opening ones. -/
def Clean (text : Str) : Prop :=
  ∀ ch, text.getLast? = some ch → isSentencePunctuation ch = false ∧
    ∀ opening, openingOf ch = some opening → text.count ch ≤ text.count opening

namespace DelimiterCounts

theorem scan_concat (text : Str) (ch : Char) : scan (text ++ [ch]) = (scan text).add ch := by
  rw [scan, List.foldl_append]
  rfl

theorem remove_add (counts : DelimiterCounts) (ch : Char) : (counts.add ch).remove ch = counts := by
  unfold add remove
  split <;> simp

theorem scan_eq (text : Str) : scan text = ⟨text.count '(', text.count ')', text.count '[', text.count ']',
    text.count '\x7b', text.count '\x7d'⟩ := by
  induction text using List.reverseRecOn with
  | nil => rfl
  | append_singleton text ch ih =>
    rw [scan_concat, ih]
    unfold add
    split <;> simp_all [List.count_append]

theorem unmatchedClosing_iff (text : Str) (ch : Char) : (scan text).unmatchedClosing ch = true ↔
    ∃ opening, openingOf ch = some opening ∧ text.count opening < text.count ch := by
  rw [scan_eq]
  unfold unmatchedClosing openingOf
  split <;> simp

end DelimiterCounts

theorem clean_concat (text : Str) (ch : Char) : Clean (text ++ [ch]) ↔
    (isSentencePunctuation ch || (DelimiterCounts.scan (text ++ [ch])).unmatchedClosing ch) = false := by
  rw [Bool.or_eq_false_iff, ← Bool.not_eq_true ((DelimiterCounts.scan _).unmatchedClosing ch),
    DelimiterCounts.unmatchedClosing_iff]
  have hlast : (text ++ [ch]).getLast? = some ch := List.getLast?_concat
  constructor
  · intro h
    obtain ⟨hpunctuation, hopening⟩ := h ch hlast
    refine ⟨hpunctuation, ?_⟩
    rintro ⟨opening, hopen, hlt⟩
    have hle := hopening opening hopen
    omega
  · rintro ⟨hpunctuation, hnone⟩ other hother
    rw [hlast, Option.some.injEq] at hother
    subst hother
    exact ⟨hpunctuation, fun opening hopen => not_lt.mp fun hlt => hnone ⟨opening, hopen, hlt⟩⟩

theorem byteLen_concat (text : Str) (ch : Char) : byteLen (text ++ [ch]) = byteLen text + ch.utf8Size := by
  rw [byteLen_append]
  simp [byteLen]

/-- The loop stops at the longest clean beginning. -/
theorem trimLoop_eq (candidate : Str) (text : Str) : ∀ (rest : Str) (turns : ℕ), candidate = text ++ rest →
    text.length < turns → ∃ kept, trimLoop candidate turns (byteLen text) (.scan text) = some kept ∧
      kept <+: text ∧ Clean kept ∧ ∀ other, other <+: text → Clean other → other.length ≤ kept.length := by
  induction text using List.reverseRecOn with
  | nil =>
    intro rest turns hcandidate hturns
    obtain ⟨turns, rfl⟩ : ∃ n, turns = n + 1 := ⟨turns - 1, by rw [List.length_nil] at hturns; omega⟩
    have hclean : Clean [] := by
      intro ch hch
      cases hch
    have hnone : ∀ other : Str, other <+: [] → Clean other → other.length ≤ ([] : Str).length := fun other h _ =>
      h.length_le
    refine ⟨[], ?_, List.prefix_rfl, hclean, hnone⟩
    have hslice := slice_to [] rest
    rw [← hcandidate] at hslice
    rw [trimLoop, if_neg (by exact lt_irrefl 0)]
    exact hslice
  | append_singleton text ch ih =>
    intro rest turns hcandidate hturns
    rw [List.length_append, List.length_singleton] at hturns
    obtain ⟨turns, rfl⟩ : ∃ n, turns = n + 1 := ⟨turns - 1, by omega⟩
    have hpos := ch.utf8Size_pos
    have hslice := slice_to (text ++ [ch]) rest
    rw [← hcandidate] at hslice
    rw [trimLoop, if_pos (by rw [byteLen_concat]; omega), hslice]
    simp only [Option.bind_eq_bind, Option.bind_some, List.getLast?_concat]
    split_ifs with htrims
    · have hshort : byteLen (text ++ [ch]) - ch.utf8Size = byteLen text := by
        rw [byteLen_concat]
        omega
      rw [hshort, DelimiterCounts.scan_concat, DelimiterCounts.remove_add]
      obtain ⟨kept, hloop, hkept, hclean, hlongest⟩ :=
        ih ([ch] ++ rest) turns (by rw [hcandidate, List.append_assoc]) (by omega)
      refine ⟨kept, hloop, hkept.trans (List.prefix_append _ _), hclean, fun other hother hcleanOther => ?_⟩
      rcases List.prefix_concat_iff.mp hother with rfl | hshorter
      · rw [clean_concat, htrims] at hcleanOther
        cases hcleanOther
      · exact hlongest other hshorter hcleanOther
    · have hclean : Clean (text ++ [ch]) := (clean_concat text ch).mpr (Bool.eq_false_iff.mpr htrims)
      exact ⟨text ++ [ch], rfl, List.prefix_rfl, hclean, fun other hother _ => hother.length_le⟩

/-- **Trimming gives the longest clean beginning.** -/
theorem trimUrlCandidate_eq (candidate : Str) : ∃ kept, trimUrlCandidate candidate = some kept ∧
    kept <+: candidate ∧ Clean kept ∧
    ∀ other, other <+: candidate → Clean other → other.length ≤ kept.length :=
  trimLoop_eq candidate candidate [] _ (List.append_nil _).symm (Nat.lt_succ_self _)

/-- What is clean is not trimmed. -/
theorem trimUrlCandidate_of_clean {text : Str} (h : Clean text) : trimUrlCandidate text = some text := by
  obtain ⟨kept, hkept, hpre, -, hlongest⟩ := trimUrlCandidate_eq text
  have hle := hlongest text List.prefix_rfl h
  rw [hkept, hpre.eq_of_length_le hle]

/-! ### Finding a scheme -/

/-- `http://` and `https://`. -/
def schemes : List Str := ["http://".toList, "https://".toList]

/-- A scheme begins at the head of the text, in whatever case. -/
def StartsUrl (text : Str) : Prop :=
  ∃ scheme ∈ schemes, (text.take scheme.length).map Char.toLower = scheme

instance (text : Str) : Decidable (StartsUrl text) := by unfold StartsUrl; infer_instance

/-- The bytes begin with a needle in lower case, in whatever case. -/
def startsWith (bytes needle : List UInt8) : Bool := (bytes.take needle.length).map toAsciiLowercase == needle

theorem asciiStartsWithIgnoreCase_eq {needle : List UInt8} (h : needle.map toAsciiLowercase = needle)
    (hne : needle ≠ []) (bytes : List UInt8) (offset : ℕ) :
    asciiStartsWithIgnoreCase bytes offset needle = startsWith (bytes.drop offset) needle := by
  have hpos := List.length_pos_iff.mpr hne
  unfold asciiStartsWithIgnoreCase startsWith
  split_ifs with hfits
  · rw [h]
  · symm
    rw [beq_eq_false_iff_ne]
    intro heq
    have hlength := congrArg List.length heq
    rw [List.length_map, List.length_take, List.length_drop] at hlength
    omega

/-- ASCII letters and their bytes have the same lower case. -/
theorem toAsciiLowercase_ascii {ch : Char} (h : ch.toNat ≤ 0x7f) :
    toAsciiLowercase (UInt8.ofNat ch.toNat) = UInt8.ofNat ch.toLower.toNat ∧ ch.toLower.toNat ≤ 0x7f := by
  refine of_each_ascii (p := fun ch => toAsciiLowercase (UInt8.ofNat ch.toNat) = UInt8.ofNat ch.toLower.toNat ∧
    ch.toLower.toNat ≤ 0x7f) ?_ h
  decide

theorem toAsciiLowercase_wide {byte : UInt8} (h : 0x80 ≤ byte.toNat) : toAsciiLowercase byte = byte := by
  rw [toAsciiLowercase, if_neg]
  rintro ⟨-, hle⟩
  rw [UInt8.le_iff_toNat_le] at hle
  simp only [UInt8.reduceToNat] at hle
  omega

theorem toLower_wide {ch : Char} (h : 0x7f < ch.toNat) : ch.toLower = ch := by
  unfold Char.toLower
  rw [dif_neg]
  rintro ⟨-, hle⟩
  have hz : ch.val.toNat ≤ 90 := UInt32.le_iff_toNat_le.mp hle
  have hnat : ch.toNat = ch.val.toNat := rfl
  omega

/-- The bytes of a text begin with those of a word exactly if the text begins with the word. -/
theorem startsWith_encode {needle : Str} (hneedle : ∀ ch ∈ needle, ch.toNat ≤ 0x7f) : ∀ text : Str,
    startsWith (encode text) (encode needle) = decide ((text.take needle.length).map Char.toLower = needle) := by
  induction needle with
  | nil => exact fun _ => rfl
  | cons ch needle ih =>
    rw [List.forall_mem_cons] at hneedle
    intro text
    have hhead : encode (ch :: needle) = UInt8.ofNat ch.toNat :: encode needle := by
      rw [encode_cons, encodeChar_ascii hneedle.1]
      rfl
    rw [hhead]
    rcases text with _ | ⟨first, text⟩
    · rfl
    · by_cases hascii : first.toNat ≤ 0x7f
      · obtain ⟨hlower, hle⟩ := toAsciiLowercase_ascii hascii
        have htext : encode (first :: text) = UInt8.ofNat first.toNat :: encode text := by
          rw [encode_cons, encodeChar_ascii hascii]
          rfl
        have hrest := ih hneedle.2 text
        have hsame : UInt8.ofNat first.toLower.toNat = UInt8.ofNat ch.toNat ↔ first.toLower = ch := by
          constructor
          · intro heq
            have hnat := congrArg UInt8.toNat heq
            rw [toNat_ofNat (by omega), toNat_ofNat (by omega)] at hnat
            rw [← Char.ofNat_toNat first.toLower, hnat, Char.ofNat_toNat]
          · rintro rfl
            rfl
        rw [startsWith] at hrest ⊢
        rw [htext, List.length_cons, List.take_succ_cons, List.map_cons, hlower, List.length_cons,
          List.take_succ_cons, List.map_cons]
        rw [Bool.eq_iff_iff] at hrest ⊢
        simp only [beq_iff_eq, decide_eq_true_eq, List.cons.injEq] at hrest ⊢
        rw [hsame, hrest]
      · have hwide : 0x7f < first.toNat := by omega
        obtain ⟨lead, tail, hlead⟩ : ∃ lead tail, String.utf8EncodeChar first = lead :: tail := by
          obtain ⟨lead, tail, he, -⟩ := encodeChar_wide hwide
          exact ⟨lead, tail, he⟩
        have hbyte : 0x80 ≤ lead.toNat := encodeChar_wide_bytes hwide lead (by rw [hlead]; exact List.mem_cons_self)
        have hne : lead ≠ UInt8.ofNat ch.toNat := by
          rintro rfl
          rw [toNat_ofNat (by omega)] at hbyte
          omega
        have hchar : first ≠ ch := by
          rintro rfl
          omega
        rw [startsWith, encode_cons, hlead, List.cons_append, List.length_cons, List.take_succ_cons,
          List.map_cons, toAsciiLowercase_wide hbyte, List.length_cons, List.take_succ_cons, List.map_cons,
          toLower_wide hwide]
        simp [hne, hchar]

/-- A scheme begins at the head of the bytes. -/
def startsUrl (bytes : List UInt8) : Bool := startsWith bytes httpScheme || startsWith bytes httpsScheme

theorem startsUrl_encode (text : Str) : startsUrl (encode text) = decide (StartsUrl text) := by
  have hhttp : httpScheme = encode "http://".toList := by decide
  have hhttps : httpsScheme = encode "https://".toList := by decide
  rw [startsUrl, hhttp, hhttps, startsWith_encode (List.all_iff_forall_prop.mp (by decide)),
    startsWith_encode (List.all_iff_forall_prop.mp (by decide)), ← Bool.decide_or]
  simp [StartsUrl, schemes]

theorem startsUrl_wide {byte : UInt8} (h : 0x80 ≤ byte.toNat) (bytes : List UInt8) :
    startsUrl (byte :: bytes) = false := by
  have hne : byte ≠ 0x68 := by
    rintro rfl
    exact absurd h (by decide)
  simp [startsUrl, startsWith, httpScheme, httpsScheme, toAsciiLowercase_wide h, hne]

/-- Where the first scheme begins. -/
def firstUrl : List UInt8 → Option ℕ
  | [] => none
  | byte :: bytes => if startsUrl (byte :: bytes) = true then some 0 else (firstUrl bytes).map (· + 1)

theorem schemeLoop_eq (bytes : List UInt8) (left : ℕ) : ∀ index, index + left = bytes.length →
    schemeLoop bytes left index = (firstUrl (bytes.drop index)).map (index + ·) := by
  induction left with
  | zero =>
    intro index hindex
    rw [List.drop_eq_nil_of_le (by omega)]
    rfl
  | succ left ih =>
    intro index hindex
    have hdrop : bytes.drop index = bytes[index] :: bytes.drop (index + 1) :=
      List.drop_eq_getElem_cons (by omega)
    rw [schemeLoop, asciiStartsWithIgnoreCase_eq (by decide) (by decide),
      asciiStartsWithIgnoreCase_eq (by decide) (by decide), hdrop, firstUrl, ← hdrop, ← startsUrl]
    split_ifs with hstarts
    · rfl
    · rw [ih (index + 1) (by omega), Option.map_map]
      congr 1
      funext n
      show index + 1 + n = index + (n + 1)
      omega

/-- Bytes that are not ASCII are passed over. -/
theorem firstUrl_wide {wide : List UInt8} (h : ∀ byte ∈ wide, 0x80 ≤ byte.toNat) (bytes : List UInt8) :
    firstUrl (wide ++ bytes) = (firstUrl bytes).map (wide.length + ·) := by
  induction wide with
  | nil => simp
  | cons byte wide ih =>
    rw [List.forall_mem_cons] at h
    rw [List.cons_append, firstUrl, startsUrl_wide h.1, ih h.2, Option.map_map]
    simp only [Bool.false_eq_true, if_false, List.length_cons]
    congr 1
    funext n
    show wide.length + n + 1 = wide.length + 1 + n
    omega

/-- The search finds the first place of the text where a scheme begins. -/
theorem firstUrl_encode (text : Str) :
    (firstUrl (encode text) = none ∧ ∀ rest, rest <:+ text → ¬ StartsUrl rest) ∨
      ∃ gap rest, text = gap ++ rest ∧ firstUrl (encode text) = some (byteLen gap) ∧ StartsUrl rest ∧
        ∀ part, part <:+ gap → part ≠ [] → ¬ StartsUrl (part ++ rest) := by
  induction text with
  | nil =>
    refine .inl ⟨rfl, fun rest hrest => ?_⟩
    rw [List.suffix_nil.mp hrest]
    decide
  | cons ch text ih =>
    by_cases hstarts : StartsUrl (ch :: text)
    · refine .inr ⟨[], ch :: text, rfl, ?_, hstarts, fun part hpart hne => absurd (List.suffix_nil.mp hpart) hne⟩
      have hfound := startsUrl_encode (ch :: text)
      rw [decide_eq_true hstarts] at hfound
      rcases hbytes : encode (ch :: text) with _ | ⟨byte, bytes⟩
      · rw [hbytes] at hfound
        cases hfound
      · rw [firstUrl, ← hbytes, if_pos hfound]
        rfl
    · have hnext : firstUrl (encode (ch :: text)) = (firstUrl (encode text)).map (ch.utf8Size + ·) := by
        by_cases hascii : ch.toNat ≤ 0x7f
        · have hnot := startsUrl_encode (ch :: text)
          rw [decide_eq_false hstarts, encode_cons, encodeChar_ascii hascii, List.singleton_append] at hnot
          rw [encode_cons, encodeChar_ascii hascii, List.singleton_append, firstUrl, hnot,
            utf8Size_ascii hascii]
          simp [Nat.add_comm]
        · rw [encode_cons, firstUrl_wide (encodeChar_wide_bytes (by omega)), String.length_utf8EncodeChar]
      rcases ih with ⟨hnone, hrest⟩ | ⟨gap, rest, rfl, hfound, hrest, hgap⟩
      · refine .inl ⟨by rw [hnext, hnone]; rfl, fun rest hsuffix => ?_⟩
        rcases List.suffix_cons_iff.mp hsuffix with rfl | hlater
        · exact hstarts
        · exact hrest rest hlater
      · refine .inr ⟨ch :: gap, rest, rfl, ?_, hrest, fun part hpart hne => ?_⟩
        · rw [hnext, hfound]
          simp [byteLen]
        · rcases List.suffix_cons_iff.mp hpart with rfl | hlater
          · exact hstarts
          · exact hgap part hlater hne

/-! ### Runs -/

/-- The runs of a text from left to right: each begins at the first scheme behind the one before it, and goes on
up to a terminator. -/
inductive Runs : Str → List Str → Prop
  | done {text : Str} (h : ∀ rest, rest <:+ text → ¬ StartsUrl rest) : Runs text []
  | run {gap run rest : Str} {runs : List Str}
      (hgap : ∀ part, part <:+ gap → part ≠ [] → ¬ StartsUrl (part ++ (run ++ rest)))
      (hstarts : StartsUrl (run ++ rest)) (hrun : ∀ ch ∈ run, isUrlTerminator ch = false)
      (hend : ∀ ch, rest.head? = some ch → isUrlTerminator ch = true) (hrest : Runs rest runs) :
      Runs (gap ++ (run ++ rest)) (run :: runs)

/-- The first character of a scheme is not a terminator. -/
theorem head_of_startsUrl {text : Str} (h : StartsUrl text) :
    ∃ ch rest, text = ch :: rest ∧ isUrlTerminator ch = false := by
  obtain ⟨scheme, hscheme, hlower⟩ := h
  obtain ⟨tail, rfl⟩ : ∃ tail, scheme = 'h' :: tail := by
    simp only [schemes, List.mem_cons, List.not_mem_nil, or_false] at hscheme
    rcases hscheme with rfl | rfl
    · exact ⟨"ttp://".toList, rfl⟩
    · exact ⟨"ttps://".toList, rfl⟩
  rcases text with _ | ⟨ch, rest⟩
  · cases hlower
  · rw [List.length_cons, List.take_succ_cons, List.map_cons, List.cons.injEq] at hlower
    refine ⟨ch, rest, rfl, ?_⟩
    have hascii : ch.toNat ≤ 0x7f := by
      by_contra hwide
      rw [toLower_wide (by omega)] at hlower
      rw [hlower.1] at hwide
      exact hwide (by decide)
    have hall : ch.toLower = 'h' → isUrlTerminator ch = false :=
      of_each_ascii (p := fun ch => ch.toLower = 'h' → isUrlTerminator ch = false) (by decide) hascii
    exact hall hlower.1

/-- The end that the loop finds is that of the run. -/
theorem terminatorAt_eq (text : Str) : ∀ relative, relative ≠ 0 → ∃ run rest, text = run ++ rest ∧
    (∀ ch ∈ run, isUrlTerminator ch = false) ∧
    (∀ ch, rest.head? = some ch → isUrlTerminator ch = true) ∧
    terminatorAt relative text = if rest = [] then none else some (relative + byteLen run) := by
  induction text with
  | nil => exact fun _ _ => ⟨[], [], rfl, by simp, by simp, rfl⟩
  | cons ch text ih =>
    intro relative hrelative
    by_cases hch : isUrlTerminator ch = true
    · refine ⟨[], ch :: text, rfl, by simp, ?_, ?_⟩
      · intro first hfirst
        rw [List.head?_cons, Option.some.injEq] at hfirst
        rw [← hfirst]
        exact hch
      · rw [terminatorAt, if_pos ⟨hrelative, hch⟩]
        rfl
    · obtain ⟨run, rest, rfl, hrun, hend, hfound⟩ := ih (relative + ch.utf8Size) (by omega)
      refine ⟨ch :: run, rest, rfl, ?_, hend, ?_⟩
      · rw [List.forall_mem_cons]
        exact ⟨Bool.eq_false_iff.mpr hch, hrun⟩
      · have hlength : relative + byteLen (ch :: run) = relative + ch.utf8Size + byteLen run := by
          simp [byteLen, Nat.add_assoc]
        rw [terminatorAt, if_neg fun h => hch h.2, hfound, hlength]

theorem findNextUrlScheme_eq (before rest : Str) : findNextUrlScheme (before ++ rest) (byteLen before) =
    (firstUrl (encode rest)).map (byteLen before + ·) := by
  have hlength : byteLen before ≤ (encode (before ++ rest)).length := by
    rw [← byteLen_eq, byteLen_append]
    omega
  have hdrop : (encode (before ++ rest)).drop (byteLen before) = encode rest := by
    rw [encode_append, byteLen_eq, List.drop_left]
  rw [findNextUrlScheme, min_eq_left hlength, schemeLoop_eq _ _ _ (by omega), hdrop]

/-- What the loop does with a run. -/
def Extracted.visitRun (found : Extracted) (run : Str) : Extracted :=
  if maxExtractedUrlBytes < byteLen run then found
  else
    match trimUrlCandidate run with
    | some candidate => found.visit candidate
    | none => found

/-- **The loop visits the runs.** -/
theorem extractLoop_eq (turns : ℕ) : ∀ (before rest : Str) (found : Extracted), rest.length < turns →
    ∃ runs, Runs rest runs ∧ extractLoop (before ++ rest) turns (byteLen before) found =
      some (runs.foldl Extracted.visitRun found) := by
  induction turns with
  | zero => exact fun _ rest _ h => absurd h (Nat.not_lt_zero _)
  | succ turns ih =>
    intro before rest found hturns
    rw [extractLoop, findNextUrlScheme_eq]
    rcases firstUrl_encode rest with ⟨hnone, hall⟩ | ⟨gap, tail, rfl, hfound, hstarts, hgap⟩
    · rw [hnone]
      exact ⟨[], .done hall, rfl⟩
    · obtain ⟨ch, tail, rfl, hch⟩ := head_of_startsUrl hstarts
      obtain ⟨run, rest, rfl, hrun, hend, hterminator⟩ := terminatorAt_eq tail ch.utf8Size (by
        have := ch.utf8Size_pos
        omega)
      have htext : before ++ (gap ++ (ch :: (run ++ rest))) = before ++ gap ++ (ch :: run ++ rest) := by simp
      have hstart : byteLen before + byteLen gap = byteLen (before ++ gap) := (byteLen_append _ _).symm
      have hrest : slice (before ++ gap ++ (ch :: run ++ rest)) (byteLen (before ++ gap))
          (byteLen (before ++ gap ++ (ch :: run ++ rest))) = some (ch :: (run ++ rest)) :=
        slice_from (before ++ gap) (ch :: run ++ rest)
      have hstop : (match terminatorAt 0 (ch :: (run ++ rest)) with
          | some relative => byteLen (before ++ gap) + relative
          | none => byteLen (before ++ gap ++ (ch :: run ++ rest))) =
          byteLen (before ++ gap) + byteLen (ch :: run) := by
        rw [terminatorAt, if_neg (by simp), Nat.zero_add, hterminator]
        split_ifs with hempty
        · rw [hempty, List.append_nil]
          exact byteLen_append _ _
        · simp [byteLen]
      have hcandidate : slice (before ++ gap ++ (ch :: run ++ rest)) (byteLen (before ++ gap))
          (byteLen (before ++ gap) + byteLen (ch :: run)) = some (ch :: run) :=
        slice_mid (before ++ gap) (ch :: run) rest
      have hlater : byteLen (before ++ gap) < byteLen (before ++ gap) + byteLen (ch :: run) := by
        have hpos := ch.utf8Size_pos
        simp only [byteLen, List.map_cons, List.sum_cons]
        omega
      have hnext : byteLen (before ++ gap) + byteLen (ch :: run) = byteLen (before ++ gap ++ (ch :: run)) :=
        (byteLen_append _ _).symm
      have hshort : rest.length < turns := by
        simp only [List.length_append, List.length_cons] at hturns
        omega
      obtain ⟨runs, hruns, hloop⟩ := ih (before ++ gap ++ (ch :: run)) rest (found.visitRun (ch :: run)) hshort
      have hall : ∀ other ∈ ch :: run, isUrlTerminator other = false := List.forall_mem_cons.mpr ⟨hch, hrun⟩
      refine ⟨(ch :: run) :: runs, .run hgap hstarts hall hend hruns, ?_⟩
      rw [hfound, htext]
      simp only [Option.map_some, hstart]
      rw [hrest]
      simp only [Option.bind_eq_bind, Option.bind_some]
      rw [hstop, hcandidate]
      simp only [Option.bind_some]
      rw [if_pos hlater, hnext, List.foldl_cons, ← hloop, List.append_assoc _ (ch :: run) rest]
      rw [Extracted.visitRun]
      split_ifs with hlong
      · rfl
      · obtain ⟨candidate, htrim, -⟩ := trimUrlCandidate_eq (ch :: run)
        rw [htrim]
        rfl

/-! ### The lists -/

/-- What there is to extract from a run that is not too long. -/
def candidateOf (run : Str) : Option Str :=
  if byteLen run ≤ maxExtractedUrlBytes then (trimUrlCandidate run).filter urlIsExtractable else none

/-- The candidates of the runs, in order. -/
def candidatesOf (runs : List Str) : List Str := runs.filterMap candidateOf

/-- What the lists hold of the candidates so far: each at its first occurrence, until there are enough. -/
structure Collects (found : Extracted) (candidates : List Str) : Prop where
  order : found.urls.Pairwise fun a b => candidates.idxOf a < candidates.idxOf b
  sound : ∀ url ∈ found.urls, url ∈ candidates
  bound : found.urls.length ≤ maxExtractedUrls
  complete : found.urls.length < maxExtractedUrls → ∀ url ∈ candidates, url ∈ found.urls
  seen : ∀ url, url ∈ found.seen ↔ url ∈ found.urls
  last : found.last = candidates.getLast?

theorem Collects.visit {found : Extracted} {candidates : List Str} (h : Collects found candidates)
    {candidate : Str} (hextractable : urlIsExtractable candidate = true) :
    Collects (found.visit candidate) (candidates ++ [candidate]) := by
  have hkept : ∀ url ∈ candidates, (candidates ++ [candidate]).idxOf url = candidates.idxOf url := fun url hurl =>
    List.idxOf_append_of_mem hurl
  have horder : found.urls.Pairwise fun a b =>
      (candidates ++ [candidate]).idxOf a < (candidates ++ [candidate]).idxOf b :=
    h.order.imp_of_mem fun ha hb hlt => by
      rw [hkept _ (h.sound _ ha), hkept _ (h.sound _ hb)]
      exact hlt
  unfold Extracted.visit
  rw [if_pos hextractable]
  split_ifs with hnew
  · obtain ⟨hroom, hunseen⟩ := hnew
    have hfresh : candidate ∉ candidates := fun hmem =>
      hunseen ((h.seen candidate).mpr (h.complete hroom candidate hmem))
    have hindex : (candidates ++ [candidate]).idxOf candidate = candidates.length := by
      rw [List.idxOf_append_of_notMem hfresh]
      simp
    constructor
    · rw [List.pairwise_append]
      refine ⟨horder, List.pairwise_singleton _ _, fun url hurl other hother => ?_⟩
      rw [List.mem_singleton.mp hother, hindex, hkept url (h.sound url hurl)]
      exact List.idxOf_lt_length_of_mem (h.sound url hurl)
    · intro url hurl
      exact (List.mem_append.mp hurl).elim (fun hold => List.mem_append_left _ (h.sound url hold))
        (List.mem_append_right _)
    · rw [List.length_append, List.length_singleton]
      omega
    · intro _ url hurl
      exact (List.mem_append.mp hurl).elim (fun hold => List.mem_append_left _ (h.complete hroom url hold))
        (List.mem_append_right _)
    · intro url
      rw [List.mem_cons, h.seen, List.mem_append, List.mem_singleton, or_comm]
    · rw [List.getLast?_concat]
  · constructor
    · exact horder
    · exact fun url hurl => List.mem_append_left _ (h.sound url hurl)
    · exact h.bound
    · intro hroom url hurl
      rcases List.mem_append.mp hurl with hold | hlast
      · exact h.complete hroom url hold
      · have hseen : candidate ∈ found.seen := by
          by_contra hunseen
          exact hnew ⟨hroom, hunseen⟩
        rw [List.mem_singleton.mp hlast]
        exact (h.seen candidate).mp hseen
    · exact h.seen
    · rw [List.getLast?_concat]

theorem Collects.foldl (runs : List Str) : ∀ {found : Extracted} {candidates : List Str},
    Collects found candidates →
      Collects (runs.foldl Extracted.visitRun found) (candidates ++ candidatesOf runs) := by
  induction runs with
  | nil =>
    intro found candidates h
    rw [candidatesOf, List.filterMap_nil, List.append_nil]
    exact h
  | cons run runs ih =>
    intro found candidates h
    obtain ⟨candidate, htrim, -⟩ := trimUrlCandidate_eq run
    have hskip : candidateOf run = none → found.visitRun run = found →
        Collects ((run :: runs).foldl Extracted.visitRun found) (candidates ++ candidatesOf (run :: runs)) := by
      intro hnone hsame
      rw [List.foldl_cons, hsame, candidatesOf, List.filterMap_cons_none hnone]
      exact ih h
    by_cases hlong : maxExtractedUrlBytes < byteLen run
    · exact hskip (if_neg (by omega)) (if_pos hlong)
    · have hvisit : found.visitRun run = found.visit candidate := by
        rw [Extracted.visitRun, if_neg hlong, htrim]
      have hcandidate : candidateOf run = if urlIsExtractable candidate = true then some candidate else none := by
        rw [candidateOf, if_pos (by omega), htrim, Option.filter]
      by_cases hextractable : urlIsExtractable candidate = true
      · rw [if_pos hextractable] at hcandidate
        rw [List.foldl_cons, hvisit, candidatesOf, List.filterMap_cons_some hcandidate, List.append_cons]
        exact ih (h.visit hextractable)
      · rw [if_neg hextractable] at hcandidate
        refine hskip hcandidate ?_
        rw [hvisit, Extracted.visit, if_neg hextractable]

/-- A URL as it is reported. -/
structure IsUrl (url : Str) : Prop where
  scheme : ∃ scheme body, url = scheme ++ body ∧ scheme.map Char.toLower ∈ schemes ∧ body ≠ []
  ascii : ∀ ch ∈ url, ch.toNat < 128
  bound : byteLen url ≤ maxExtractedUrlBytes
  plain : ∀ ch ∈ url, isWhitespace ch = false ∧ isControl ch = false ∧ ch ∉ ['<', '>', '"', '\'', '\x60']

theorem candidateOf_eq_some {run url : Str} : candidateOf run = some url ↔
    byteLen run ≤ maxExtractedUrlBytes ∧ trimUrlCandidate run = some url ∧ urlIsExtractable url = true := by
  unfold candidateOf
  split_ifs with hlength
  · rw [Option.filter_eq_some_iff, and_iff_right hlength]
  · exact iff_of_false (by simp) fun h => hlength h.1

/-- A URL with a body has characters behind its scheme. -/
theorem scheme_of_urlHasSchemeBody {url : Str} (hascii : ∀ ch ∈ url, ch.toNat < 128)
    (h : urlHasSchemeBody url = true) :
    ∃ scheme body, url = scheme ++ body ∧ scheme.map Char.toLower ∈ schemes ∧ body ≠ [] := by
  have hlength : (encode url).length = url.length := by rw [← byteLen_eq, byteLen_ascii hascii]
  have hsplit : ∀ scheme : Str, (url.take scheme.length).map Char.toLower = scheme →
      scheme ∈ schemes → scheme.length < url.length →
      ∃ scheme body, url = scheme ++ body ∧ scheme.map Char.toLower ∈ schemes ∧ body ≠ [] := by
    intro scheme hlower hmem hlt
    refine ⟨url.take scheme.length, url.drop scheme.length, (List.take_append_drop _ _).symm, ?_, ?_⟩
    · rw [hlower]
      exact hmem
    · rw [Ne, List.drop_eq_nil_iff]
      omega
  have hhttp : httpScheme = encode "http://".toList := by decide
  have hhttps : httpsScheme = encode "https://".toList := by decide
  rw [urlHasSchemeBody, asciiStartsWithIgnoreCase_eq (by decide) (by decide),
    asciiStartsWithIgnoreCase_eq (by decide) (by decide), List.drop_zero, hhttp, hhttps,
    startsWith_encode (List.all_iff_forall_prop.mp (by decide)),
    startsWith_encode (List.all_iff_forall_prop.mp (by decide)), ← hhttp, ← hhttps, hlength] at h
  split_ifs at h with hstarts hstarts'
  · exact hsplit _ (of_decide_eq_true hstarts) (by decide) (of_decide_eq_true h)
  · exact hsplit _ (of_decide_eq_true hstarts') (by decide) (of_decide_eq_true h)

/-- What is extracted from a run is a URL, and a beginning of the run. -/
theorem isUrl_of_candidateOf {run url : Str} (hrun : ∀ ch ∈ run, isUrlTerminator ch = false)
    (h : candidateOf run = some url) : url <+: run ∧ IsUrl url := by
  obtain ⟨-, htrim, hextractable⟩ := candidateOf_eq_some.mp h
  obtain ⟨kept, hkept, hpre, -⟩ := trimUrlCandidate_eq run
  rw [htrim, Option.some.injEq] at hkept
  subst hkept
  rw [urlIsExtractable, Bool.and_eq_true, Bool.and_eq_true] at hextractable
  obtain ⟨⟨hall, hbound⟩, hbody⟩ := hextractable
  have hascii : ∀ ch ∈ url, ch.toNat < 128 := fun ch hch => of_decide_eq_true (List.all_eq_true.mp hall ch hch)
  refine ⟨hpre, scheme_of_urlHasSchemeBody hascii hbody, hascii, of_decide_eq_true hbound, fun ch hch => ?_⟩
  have hplain := hrun ch (hpre.subset hch)
  simp only [isUrlTerminator, Bool.or_eq_false_iff] at hplain
  refine ⟨hplain.1.2, hplain.1.1, fun hmem => ?_⟩
  rw [List.contains_iff_mem.mpr hmem] at hplain
  exact Bool.noConfusion hplain.2

/-- The runs of a text are parts of it without terminators. -/
theorem Runs.mem {text : Str} {runs : List Str} (h : Runs text runs) {run : Str} (hmem : run ∈ runs) :
    run <:+: text ∧ ∀ ch ∈ run, isUrlTerminator ch = false := by
  induction h with
  | done => cases hmem
  | @run gap found rest runs _ _ hfound _ _ ih =>
    rcases List.mem_cons.mp hmem with rfl | hlater
    · exact ⟨⟨gap, rest, by simp⟩, hfound⟩
    · obtain ⟨hpart, hall⟩ := ih hlater
      refine ⟨hpart.trans ?_, hall⟩
      rw [← List.append_assoc]
      exact (List.suffix_append _ _).isInfix

/-- **What is extracted.** -/
theorem extractUrls_spec :
    (∀ text, ∃ runs found, Runs text runs ∧ extractUrls text = some found ∧
      (∀ url ∈ found.urls, url <:+: text ∧ IsUrl url) ∧
      found.urls.Nodup ∧ found.urls.length ≤ maxExtractedUrls ∧
      (∀ url ∈ found.urls, url ∈ candidatesOf runs) ∧
      (found.urls.Pairwise fun a b => (candidatesOf runs).idxOf a < (candidatesOf runs).idxOf b) ∧
      found.last = (candidatesOf runs).getLast? ∧
      (found.urls.length < maxExtractedUrls → ∀ url, url ∈ found.urls ↔
        ∃ run ∈ runs, byteLen run ≤ maxExtractedUrlBytes ∧ trimUrlCandidate run = some url ∧
          urlIsExtractable url = true)) ∧
    ∀ candidate, ∃ kept, trimUrlCandidate candidate = some kept ∧ kept <+: candidate ∧ Clean kept ∧
      (∀ other, other <+: candidate → Clean other → other.length ≤ kept.length) ∧
      trimUrlCandidate kept = some kept := by
  constructor
  · intro text
    obtain ⟨runs, hruns, hloop⟩ := extractLoop_eq (byteLen text + 1) [] text ⟨[], [], none⟩
      (Nat.lt_succ_of_le (length_le_byteLen text))
    have hempty : Collects ⟨[], [], none⟩ [] :=
      ⟨.nil, by simp, by decide, fun _ _ h => h, by simp, rfl⟩
    obtain ⟨horder, hsound, hbound, hcomplete, -, hlast⟩ := hempty.foldl runs
    rw [List.nil_append] at horder hsound hcomplete hlast
    refine ⟨runs, ⟨_, _⟩, hruns, by rw [extractUrls]; exact congrArg _ hloop, ?_, ?_, hbound, hsound, horder, hlast, ?_⟩
    · intro url hurl
      obtain ⟨run, hmem, hcandidate⟩ := List.mem_filterMap.mp (hsound url hurl)
      obtain ⟨hpart, hplain⟩ := hruns.mem hmem
      obtain ⟨hpre, hisUrl⟩ := isUrl_of_candidateOf hplain hcandidate
      exact ⟨hpre.isInfix.trans hpart, hisUrl⟩
    · exact horder.imp fun hlt heq => by
        rw [heq] at hlt
        exact lt_irrefl _ hlt
    · intro hroom url
      have hall : url ∈ candidatesOf runs ↔ ∃ run ∈ runs, byteLen run ≤ maxExtractedUrlBytes ∧
          trimUrlCandidate run = some url ∧ urlIsExtractable url = true := by
        simp only [candidatesOf, List.mem_filterMap, candidateOf_eq_some]
      rw [← hall]
      exact ⟨hsound url, hcomplete hroom url⟩
  · intro candidate
    obtain ⟨kept, hkept, hpre, hclean, hlongest⟩ := trimUrlCandidate_eq candidate
    exact ⟨kept, hkept, hpre, hclean, hlongest, trimUrlCandidate_of_clean hclean⟩

end LightTerminal.Client.Urls
