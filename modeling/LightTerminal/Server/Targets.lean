import LightTerminal.Server.Coherence
import LightTerminal.Server.Refusal

/-! # Targets of sessions

A target names a session by pane id, by name, by id or by bare pane number (`Rule`), and the four
share one space of strings. The forms are disjoint: a pane id starts with `%`, a bare pane number
has only digits, an id is a UUID with hyphens, and `validate_session_name_syntax` refuses the names
that look like any of these. Every path that gives a session a name makes that check, so the names, panes
and ids of a run are always `Addressed`.

* `step_addressed`: every action keeps `Addressed`;
* `targets_unambiguous`: each session is found under its four targets, with blanks around them or
  not, and at most one rule finds a session for a target. -/

namespace LightTerminal.Server.Targets

open LightTerminal.Data.Text LightTerminal.Library LightTerminal.Library.FiniteMap
open LightTerminal.Library.Index LightTerminal.Server.Error LightTerminal.Server.Metadata
open LightTerminal.Server.Model LightTerminal.Server.Concurrent LightTerminal.Server.Operations
open LightTerminal.Server.Daemon LightTerminal.Server.Coherence LightTerminal.Server.Refusal

/-- `resolve_session`. -/
def resolveSession (target : Str) (s : State) : Except ServerError Str :=
  let target := normalizeTarget target
  match s.sessions.resolveSessionLocked target with
  | some id => .ok id
  | none => .error (.noSuchSession (sanitizedPreview target) true)

/-- A way in which `resolve_session_locked` looks a target up. -/
inductive Rule where
  | paneId
  | name
  | sessionId
  | paneNumber
  deriving DecidableEq

/-- The session that one rule finds. -/
def lookupBy (sessions : SessionMaps) (target : Str) : Rule → Option Str
  | .paneId => if target.head? = some '%' then sessions.byPane.lookup target else none
  | .name => sessions.byName.lookup target
  | .sessionId => sessions.byId.lookup target
  | .paneNumber => if target.head? = some '%' then none else sessions.byPane.lookup ('%' :: target)

theorem resolveSessionLocked_eq (sessions : SessionMaps) (target : Str) :
    sessions.resolveSessionLocked target =
      [.paneId, .name, .sessionId, .paneNumber].findSome? (lookupBy sessions target) := by
  unfold SessionMaps.resolveSessionLocked
  simp only [List.findSome?_cons, List.findSome?_nil, lookupBy]
  cases if target.head? = some '%' then sessions.byPane.lookup target else none with
  | some id => rfl
  | none =>
    cases sessions.byName.lookup target with
    | some id => rfl
    | none =>
      cases sessions.byId.lookup target with
      | some id => rfl
      | none => cases if target.head? = some '%' then none else _ <;> rfl

/-- The action with the id of a new session drawn by `Uuid::new_v4`. -/
def drawId (random : BitVec 128) : Action → Action
  | .commit reservation _ statusTheme parentToken leaderIdentity selection hook =>
    .commit reservation (Uuid.hyphenated (Uuid.newV4 random)) statusTheme parentToken
      leaderIdentity selection hook
  | action => action

/-- The id that an action gives a new session. -/
def drawnId : Action → Option Str
  | .commit _ id .. => some id
  | _ => none

/-! ### The texts of targets -/

theorem length_hexDigits (n value : ℕ) : (hexDigits n value).length = n := by
  induction n generalizing value with
  | zero => rfl
  | succ n ih => simp [hexDigits, ih]

theorem hexValue_digitChar : ∀ d < 16, hexValue (Nat.digitChar d) = some d := by decide

theorem mem_hexDigits {n value : ℕ} {ch : Char} (h : ch ∈ hexDigits n value) :
    ∃ d < 16, ch = Nat.digitChar d := by
  induction n generalizing value with
  | zero => cases h
  | succ n ih =>
    rcases List.mem_append.mp h with h | h
    · exact ih h
    · exact ⟨value % 16, Nat.mod_lt _ (by decide), List.mem_singleton.mp h⟩

theorem isSome_mapM {α β : Type} {f : α → Option β} {l : List α} (h : ∀ a ∈ l, (f a).isSome) :
    (l.mapM f).isSome := by
  induction l with
  | nil => rfl
  | cons a l ih =>
    obtain ⟨b, hb⟩ := Option.isSome_iff_exists.mp (h a List.mem_cons_self)
    obtain ⟨bs, hbs⟩ :=
      Option.isSome_iff_exists.mp (ih fun a' ha' => h a' (List.mem_cons_of_mem _ ha'))
    rw [List.mapM_cons, hb, hbs]
    rfl

theorem isSome_parseSimple (uuid : Uuid) : (parseSimple (Uuid.simple uuid)).isSome = true := by
  have hdigits : ((Uuid.simple uuid).mapM hexValue).isSome := by
    refine isSome_mapM fun ch hch => ?_
    obtain ⟨d, hd, rfl⟩ := mem_hexDigits hch
    rw [hexValue_digitChar d hd]
    rfl
  have hlen : (Uuid.simple uuid).length = 32 := length_hexDigits 32 _
  rw [parseSimple, if_pos hlen, Option.isSome_map]
  exact hdigits

/-- The five groups of digits put together again. -/
theorem groups_append (l : Str) :
    l.take 8 ++ ((l.drop 8).take 4 ++ ((l.drop 12).take 4 ++ ((l.drop 16).take 4 ++ l.drop 20))) =
      l := by
  have h1 := List.take_append_drop 8 l
  have h2 := List.take_append_drop 4 (l.drop 8)
  have h3 := List.take_append_drop 4 (l.drop 12)
  have h4 := List.take_append_drop 4 (l.drop 16)
  simp only [List.drop_drop, Nat.reduceAdd] at h2 h3 h4
  rw [h4, h3, h2, h1]

/-- What `Uuid::hyphenated` writes, `Uuid::parse_str` reads. -/
theorem isSome_parseStr_hyphenated (uuid : Uuid) :
    (Uuid.parseStr (Uuid.hyphenated uuid)).isSome = true := by
  have hlen : (Uuid.simple uuid).length = 32 := length_hexDigits 32 _
  have hwhole : (Uuid.hyphenated uuid).length = 36 := by simp [Uuid.hyphenated, hlen]
  have hdigits : parseHyphenated (Uuid.hyphenated uuid) = parseSimple (Uuid.simple uuid) := by
    unfold parseHyphenated
    simp [Uuid.hyphenated, hlen, List.drop_append, List.drop_take, groups_append]
  rw [Uuid.parseStr, if_neg (by omega), if_pos hwhole, hdigits]
  exact isSome_parseSimple uuid

theorem dash_mem_hyphenated (uuid : Uuid) : '-' ∈ Uuid.hyphenated uuid := by
  simp [Uuid.hyphenated]

theorem mem_hyphenated {uuid : Uuid} {ch : Char} (h : ch ∈ Uuid.hyphenated uuid) :
    (∃ d < 16, ch = Nat.digitChar d) ∨ ch = '-' := by
  have htake : ∀ n (l : Str), ch ∈ l.take n → ch ∈ l := fun n l => List.mem_of_mem_take
  have hdrop : ∀ n (l : Str), ch ∈ l.drop n → ch ∈ l := fun n l => List.mem_of_mem_drop
  have hgroup : ∀ n k, ch ∈ ((Uuid.simple uuid).drop n).take k → ∃ d < 16, ch = Nat.digitChar d :=
    fun n k hch => mem_hexDigits (hdrop n _ (htake k _ hch))
  simp only [Uuid.hyphenated, List.mem_append, List.mem_cons] at h
  obtain ((((h | h | h) | h | h) | h | h) | h | h) := h
  · exact .inl (mem_hexDigits (htake 8 _ h))
  · exact .inr h
  · exact .inl (hgroup 8 4 h)
  · exact .inr h
  · exact .inl (hgroup 12 4 h)
  · exact .inr h
  · exact .inl (hgroup 16 4 h)
  · exact .inr h
  · exact .inl (mem_hexDigits (hdrop 20 _ h))

/-- A text without blanks, and not empty: trimming it does nothing. -/
structure Solid (text : Str) : Prop where
  nonempty : text ≠ []
  solid : ∀ ch ∈ text, isWhitespace ch = false

/-- Blanks only. -/
def Blank (text : Str) : Prop := ∀ ch ∈ text, isWhitespace ch = true

theorem dropWhile_blank {before text after : Str} (hbefore : Blank before) (htext : Solid text) :
    (before ++ (text ++ after)).dropWhile isWhitespace = text ++ after := by
  rw [List.dropWhile_append_of_pos hbefore]
  cases text with
  | nil => exact absurd rfl htext.nonempty
  | cons ch text => exact List.dropWhile_cons_of_neg (by simp [htext.solid])

theorem Solid.reverse {text : Str} (h : Solid text) : Solid text.reverse :=
  ⟨by simpa using h.nonempty, by simpa using h.solid⟩

theorem Solid.trim_padded {before text after : Str} (htext : Solid text) (hbefore : Blank before)
    (hafter : Blank after) : trim (before ++ text ++ after) = text := by
  have hback : (text ++ after).reverse.dropWhile isWhitespace = text.reverse := by
    have hblank : Blank after.reverse := fun ch hch => hafter ch (List.mem_reverse.mp hch)
    simpa using @dropWhile_blank _ _ [] hblank htext.reverse
  rw [trim, List.append_assoc, dropWhile_blank hbefore htext, List.rdropWhile, hback,
    List.reverse_reverse]

theorem Solid.normalizeTarget {before text after : Str} (htext : Solid text)
    (hbefore : Blank before) (hafter : Blank after) :
    normalizeTarget (before ++ text ++ after) = text := by
  unfold Model.normalizeTarget
  rw [htext.trim_padded hbefore hafter, if_neg]
  simpa using htext.nonempty

/-! ### The four forms -/

/-- A name that `validate_session_name_syntax` accepts. -/
def ValidName (name : Str) : Prop := validateSessionNameSyntax name = .ok ()

theorem ValidName.spec {name : Str} (h : ValidName name) :
    name ≠ [] ∧ name.head? ≠ some '%' ∧ sessionNameLooksLikeBarePaneId name = false ∧
      Uuid.parseStr name = none ∧
      ∀ ch ∈ name, isAsciiAlphanumeric ch = true ∨ ch = '.' ∨ ch = '_' ∨ ch = '-' := by
  unfold ValidName validateSessionNameSyntax at h
  split_ifs at h with hempty hlong hpane hdash hbare huuid hchars
  refine ⟨?_, hpane, by simpa using hbare, by simpa using huuid, ?_⟩
  · rintro rfl
    exact hempty rfl
  · intro ch hch
    have hplain := hchars
    simp only [Bool.not_eq_true, Bool.not_eq_false', List.all_eq_true, Bool.or_eq_true,
      beq_iff_eq] at hplain
    simpa [or_assoc] using hplain ch hch

/-- The targets that a rule can find a session for. -/
def HasForm (target : Str) : Rule → Prop
  | .paneId => ∃ n, target = '%' :: decimal n
  | .name => ValidName target
  | .sessionId => ∃ uuid, target = Uuid.hyphenated uuid
  | .paneNumber => ∃ n, target = decimal n

theorem HasForm.solid {target : Str} {rule : Rule} (h : HasForm target rule) : Solid target := by
  have hdigits : ∀ n, Solid (decimal n) := fun n => by
    refine ⟨Nat.toDigits_ne_nil, fun ch hch => isWhitespace_eq_false ?_⟩
    have halnum : isAsciiAlphanumeric ch = true := by simp [isAsciiAlphanumeric, mem_decimal hch]
    have hbounds := isAsciiAlphanumeric_bounds halnum
    omega
  cases rule with
  | paneId =>
    obtain ⟨n, rfl⟩ := h
    refine ⟨List.cons_ne_nil _ _, fun ch hch => ?_⟩
    rcases List.mem_cons.mp hch with rfl | hch
    · rfl
    · exact (hdigits n).solid ch hch
  | name =>
    obtain ⟨hne, -, -, -, hchars⟩ := ValidName.spec h
    refine ⟨hne, fun ch hch => ?_⟩
    rcases hchars ch hch with halnum | rfl | rfl | rfl
    · have hbounds := isAsciiAlphanumeric_bounds halnum
      exact isWhitespace_eq_false (by omega)
    · rfl
    · rfl
    · rfl
  | sessionId =>
    obtain ⟨uuid, huuid⟩ := h
    rw [huuid]
    refine ⟨List.ne_nil_of_mem (dash_mem_hyphenated uuid), fun ch hch => ?_⟩
    rcases mem_hyphenated hch with ⟨d, hd, rfl⟩ | rfl
    · have hplain : ∀ d < 16, isWhitespace (Nat.digitChar d) = false := by decide
      exact hplain d hd
    · rfl
  | paneNumber =>
    obtain ⟨n, rfl⟩ := h
    exact hdigits n

/-- The rule whose form a target has. -/
def kind (target : Str) : Rule :=
  if target.head? = some '%' then .paneId
  else if sessionNameLooksLikeBarePaneId target then .paneNumber
  else if (Uuid.parseStr target).isSome then .sessionId
  else .name

/-- **The forms are disjoint.** -/
theorem HasForm.kind_eq {target : Str} {rule : Rule} (h : HasForm target rule) :
    kind target = rule := by
  cases rule with
  | paneId =>
    obtain ⟨n, rfl⟩ := h
    exact if_pos rfl
  | name =>
    obtain ⟨-, hpane, hbare, huuid, -⟩ := ValidName.spec h
    rw [kind, if_neg hpane, hbare, if_neg Bool.false_ne_true, huuid]
    rfl
  | sessionId =>
    obtain ⟨uuid, huuid⟩ := h
    rw [huuid]
    have hpane : (Uuid.hyphenated uuid).head? ≠ some '%' := by
      intro hhead
      rcases mem_hyphenated (List.mem_of_head? hhead) with ⟨d, hd, heq⟩ | heq
      · have hplain : ∀ d < 16, '%' ≠ Nat.digitChar d := by decide
        exact hplain d hd heq
      · cases heq
    have hbare : sessionNameLooksLikeBarePaneId (Uuid.hyphenated uuid) = false := by
      rw [sessionNameLooksLikeBarePaneId, Bool.and_eq_false_iff, List.all_eq_false]
      exact .inr ⟨'-', dash_mem_hyphenated uuid, by decide⟩
    rw [kind, if_neg hpane, hbare, if_neg Bool.false_ne_true,
      if_pos (isSome_parseStr_hyphenated uuid)]
  | paneNumber =>
    obtain ⟨n, rfl⟩ := h
    have hpane : (decimal n).head? ≠ some '%' := fun hhead => by
      have hdigit := mem_decimal (List.mem_of_head? hhead)
      exact absurd hdigit (by decide)
    have hbare : sessionNameLooksLikeBarePaneId (decimal n) = true := by
      rw [sessionNameLooksLikeBarePaneId, Bool.and_eq_true, List.all_eq_true]
      refine ⟨?_, fun ch hch => mem_decimal hch⟩
      rw [Bool.not_eq_true', List.isEmpty_eq_false_iff]
      exact Nat.toDigits_ne_nil
    rw [kind, if_neg hpane, if_pos hbare]

theorem HasForm.unique {target : Str} {rule rule' : Rule} (h : HasForm target rule)
    (h' : HasForm target rule') : rule = rule' := h.kind_eq.symm.trans h'.kind_eq

/-! ### The names, panes and ids of a run -/

/-- Names are valid, panes are pane ids and ids are UUIDs, also of what is only reserved. -/
structure Addressed (s : State) : Prop where
  reserved : ∀ r ∈ s.reservations, HasForm r.name .name ∧ HasForm r.paneId .paneId
  created : ∀ id ∈ s.history.created, HasForm (s.heap id).name .name ∧
    HasForm (s.heap id).paneId .paneId ∧ HasForm id .sessionId

theorem addressed_new (journal : Bool) : Addressed (State.new journal) := by
  refine ⟨fun r hr => ?_, fun id hid => ?_⟩
  · cases hr
  · cases hid

/-- What a step that creates nothing may do to the names: it keeps a name or gives a valid one. -/
structure Renames (s s' : State) : Prop where
  reservations : s'.reservations = s.reservations
  created : s'.history.created = s.history.created
  name : ∀ id, (s'.heap id).name = (s.heap id).name ∨ HasForm (s'.heap id).name .name
  paneId : ∀ id, (s'.heap id).paneId = (s.heap id).paneId

variable {s s' : State}

theorem Addressed.renames (h : Addressed s) (hr : Renames s s') : Addressed s' := by
  refine ⟨fun r hmem => ?_, fun id hid => ?_⟩
  · rw [hr.reservations] at hmem
    exact h.reserved r hmem
  · rw [hr.created] at hid
    obtain ⟨hname, hpane, hform⟩ := h.created id hid
    refine ⟨?_, by rwa [hr.paneId], hform⟩
    rcases hr.name id with heq | hvalid
    · rwa [heq]
    · exact hvalid

theorem Renames.trans {s'' : State} (h : Renames s s') (h' : Renames s' s'') : Renames s s'' := by
  refine ⟨h'.reservations.trans h.reservations, h'.created.trans h.created, fun id => ?_,
    fun id => (h'.paneId id).trans (h.paneId id)⟩
  rcases h'.name id with heq | hvalid
  · rw [heq]
    exact h.name id
  · exact .inr hvalid

theorem Renames.of_unlocked (h : Unlocked s s') : Renames s s' := by
  refine ⟨h.reservations, h.created, fun id => .inl ?_, fun id => (h.heap id).paneId⟩
  unfold Session.name
  rw [(h.heap id).metadata]

theorem Renames.refl (s : State) : Renames s s := .of_unlocked (.refl s)

/-- The metadata of a session is replaced, under its name or a valid one. -/
theorem renames_setMetadata {id : Str} {m : SessionMetadata} (sessions : SessionMaps)
    (hname : m.current.name = (s.heap id).name ∨ HasForm m.current.name .name) :
    Renames s (setMetadata id m { s with sessions }) := by
  refine ⟨rfl, rfl, fun id' => ?_, fun id' => ?_⟩
  · unfold setMetadata
    by_cases hid : id' = id
    · subst hid
      rw [State.modify_heap_self]
      exact hname
    · rw [State.modify_heap_of_ne _ _ _ hid]
      exact .inl rfl
  · exact State.modify_heap_proj { s with sessions } id (fun x => { x with metadata := m }) rfl id'

theorem Renames.written {id : Str} {m : SessionMetadata} (hw : Written s s' id m)
    (hname : m.current.name = (s.heap id).name ∨ HasForm m.current.name .name) : Renames s s' := by
  obtain ⟨s₁, hu, rfl⟩ := hw.unlocked
  refine (of_unlocked hu).trans (renames_setMetadata _ ?_)
  unfold Session.name
  rw [(hu.heap id).metadata]
  exact hname

theorem setStatusTheme_renames (target : Str) (statusTheme : Option StatusTheme) (s : State) :
    Renames s (setStatusTheme target statusTheme s).2 := by
  unfold setStatusTheme
  dsimp only
  split
  · exact .refl s
  split_ifs
  · split
    · exact .refl s
    · exact renames_setMetadata s.sessions (.inl rfl)
  · exact .refl s

theorem renameSession_renames (target newName : Str) (hook : List UnlockedAction) (s : State) :
    Renames s (renameSession target newName hook s).2 := by
  have hook_renames := Renames.of_unlocked (interleave_unlocked hook s)
  unfold renameSession
  split
  · exact .refl s
  next hvalid =>
  dsimp only
  split
  · exact .refl s
  split
  · exact .refl s
  split_ifs
  · exact .refl s
  · exact .refl s
  · exact .refl s
  · split <;> exact .refl s
  split
  · exact .refl s
  split
  · exact hook_renames
  · exact hook_renames.trans (renames_setMetadata _ (.inr hvalid))

/-- An undo or redo that changes the name makes the check of a rename. -/
theorem validateMetadataNameTransition_valid {sessions : SessionMaps}
    {id currentName nextName : Str}
    (h : validateMetadataNameTransition sessions id currentName nextName = .ok ()) :
    nextName = currentName ∨ HasForm nextName .name := by
  unfold validateMetadataNameTransition at h
  by_cases hsame : currentName = nextName
  · exact .inl hsame.symm
  cases hvalid : validateSessionNameSyntax nextName with
  | ok v => exact .inr hvalid
  | error e =>
    rw [if_pos hsame, hvalid] at h
    split_ifs at h

theorem metadataStep_renames (target : Str) (direction : MetadataStepDirection)
    (hook : List UnlockedAction) (s : State) :
    Renames s (metadataStep target direction hook s).2 := by
  have hook_renames := Renames.of_unlocked (interleave_unlocked hook s)
  unfold metadataStep
  dsimp only
  split
  · exact .refl s
  next id _ =>
  split
  · exact .refl s
  split
  · exact .refl s
  next move _ =>
  split_ifs
  · exact .refl s
  split
  · exact .refl s
  next hname =>
  split
  · exact hook_renames
  refine hook_renames.trans (renames_setMetadata _ ?_)
  have hkept : ((interleave hook s).heap id).name = (s.heap id).metadata.current.name := by
    unfold Session.name
    rw [((interleave_unlocked hook s).heap id).metadata]
  rw [hkept]
  exact validateMetadataNameTransition_valid hname

theorem metadataPurgeHistory_renames (target : Str) (irreversible : Bool) (claimedSessionId : Str)
    (nowUnixMs : ℕ) (s : State) :
    Renames s (metadataPurgeHistory target irreversible claimedSessionId nowUnixMs s).2 := by
  unfold metadataPurgeHistory
  split_ifs
  · exact .refl s
  split
  · exact .refl s
  split_ifs
  · exact .refl s
  dsimp only
  split
  · exact .refl s
  split_ifs
  · exact .refl s
  · exact .refl s
  split
  · exact .refl s
  · exact renames_setMetadata s.sessions (.inl rfl)

set_option maxRecDepth 4000 in
/-- A reservation has a valid name: one that was checked, or `lterm-` with the pane number. -/
theorem selectIdentity_addressed {sessions : SessionMaps} {requestedName : Option Str}
    {r : SessionReservation} (h : selectIdentity sessions requestedName = some r)
    (hname : ∀ name ∈ requestedName, HasForm name .name) :
    HasForm r.name .name ∧ HasForm r.paneId .paneId := by
  unfold selectIdentity at h
  obtain ⟨n, hn, hr⟩ := List.exists_of_findSome?_eq_some h
  dsimp only at hr
  split_ifs at hr
  cases hr
  refine ⟨?_, n, rfl⟩
  cases requestedName with
  | some name => exact hname name rfl
  | none =>
    have hauto : ∀ n < maxSessions,
        validateSessionNameSyntax ("lterm-".toList ++ decimal n) = .ok () := by decide
    exact hauto n (List.mem_range.mp hn)

theorem reserveSessionIdentity_addressed (h : Addressed s) (requestedName : Option Str) :
    Addressed (reserveSessionIdentity requestedName s).2 := by
  unfold reserveSessionIdentity
  split
  · exact h
  next hsyntactic =>
  split_ifs
  · exact h
  · exact h
  split
  · exact h
  next r hr =>
  have hname : ∀ name ∈ requestedName, HasForm name .name := by
    rintro name rfl
    cases hvalid : validateSessionNameSyntax name with
    | error e => exact absurd (congrArg some hvalid) (hsyntactic e)
    | ok v => exact hvalid
  refine ⟨fun r' hr' => ?_, h.created⟩
  rcases List.mem_cons.mp hr' with rfl | hr'
  · exact selectIdentity_addressed hr hname
  · exact h.reserved r' hr'

theorem addressed_allocate (h : Addressed s) {r : SessionReservation} {id : Str}
    (hr : r ∈ s.reservations) (fresh : id ∉ s.history.created) (hid : HasForm id .sessionId)
    (theme : Option StatusTheme) (token : Str) (leader : Option ProcessIdentity) :
    Addressed (allocate id (newSession r theme token leader) s) := by
  refine ⟨h.reserved, fun id' hid' => ?_⟩
  rcases List.mem_cons.mp hid' with rfl | hid'
  · have hself : (allocate id' (newSession r theme token leader) s).heap id' =
        newSession r theme token leader := Function.update_self ..
    rw [hself]
    exact ⟨(h.reserved r hr).1, (h.reserved r hr).2, hid⟩
  · have hne : id' ≠ id := fun heq => fresh (heq ▸ hid')
    rw [allocate_heap_of_ne hne]
    exact h.created id' hid'

theorem addressed_install (h : Addressed s) (r : SessionReservation) (id : Str)
    (parent : Option ParentSession) : Addressed (install r id parent s) := by
  have hname : ∀ j, ((install r id parent s).heap j).name = (s.heap j).name :=
    State.modify_heap_proj s id (recordParent parent) rfl
  have hpane : ∀ j, ((install r id parent s).heap j).paneId = (s.heap j).paneId :=
    State.modify_heap_proj s id (recordParent parent) rfl
  refine ⟨fun r' hr' => h.reserved r' (List.mem_of_mem_erase hr'), fun j hj => ?_⟩
  rw [hname, hpane]
  exact h.created j hj

theorem commit_addressed (h : Addressed s) (r : SessionReservation) (id : Str)
    (selection : Option ParentSelection) (hook : List UnlockedAction) :
    Addressed (commit r id selection hook s).2 := by
  unfold commit
  split_ifs
  · exact h
  · exact h
  split
  · exact h
  · exact addressed_install (h.renames (.of_unlocked (interleave_unlocked hook s))) r id _

theorem removeSession_addressed (h : Addressed s) (id : Str) (hook : List UnlockedAction) :
    Addressed (removeSession id hook s) := by
  have hmaps : Renames s { s with sessions := removeFromMaps id (s.heap id) s.sessions } :=
    ⟨rfl, rfl, fun _ => .inl rfl, fun _ => rfl⟩
  exact h.renames (hmaps.trans (.of_unlocked (removeSession_unlocked id hook s)))

/-- **Every action keeps the names, panes and ids in their forms** if the id it draws is a UUID. -/
theorem step_addressed (h : Addressed s) (a : Action)
    (hdraw : ∀ id ∈ drawnId a, HasForm id .sessionId) : Addressed (step s a) := by
  cases a with
  | reserve requestedName => exact reserveSessionIdentity_addressed h requestedName
  | commit r id theme token leader selection hook =>
    rw [step]
    split_ifs with hready
    · have hallocated := addressed_allocate h hready.1 hready.2 (hdraw id rfl) theme token leader
      exact commit_addressed hallocated r id selection hook
    · exact h
  | dropReservation r =>
    rw [step]
    split_ifs
    · exact ⟨fun r' hr' => h.reserved r' (List.mem_of_mem_erase hr'), h.created⟩
    · exact h
  | setStatusTheme target theme => exact h.renames (setStatusTheme_renames target theme s)
  | rename target newName hook => exact h.renames (renameSession_renames target newName hook s)
  | metadataStep target direction hook =>
    exact h.renames (metadataStep_renames target direction hook s)
  | purgeHistory target irreversible claimed now =>
    exact h.renames (metadataPurgeHistory_renames target irreversible claimed now s)
  | removeSession id hook => exact removeSession_addressed h id hook
  | issue target byteBudget token hook order =>
    rw [step]
    split_ifs
    · exact h
    · have hissued := issueInputCapability_unlocked target byteBudget token hook order s
      exact h.renames (.of_unlocked hissued)
  | unlocked action => exact h.renames (.of_unlocked (UnlockedAction.step_unlocked s action))
  | finalize thread id trigger =>
    rw [step]
    split_ifs
    · exact ⟨h.reserved, h.created⟩
    · exact h
  | snapshotChildren thread order =>
    rw [step]
    split
    · split_ifs
      · exact ⟨h.reserved, h.created⟩
      · exact h
    · exact h
  | finalizeRemove thread hook =>
    rw [step]
    split
    · next id below _ =>
      have hremoved := removeSession_addressed h id hook
      exact ⟨hremoved.reserved, hremoved.created⟩
    · exact h

theorem drawId_sessionId (random : BitVec 128) (a : Action) :
    ∀ id ∈ drawnId (drawId random a), HasForm id .sessionId := by
  cases a with
  | commit =>
    intro id hid
    exact ⟨Uuid.newV4 random, (Option.some.inj hid).symm⟩
  | _ => exact fun id hid => absurd hid (Option.not_mem_none id)

theorem run_addressed (journal : Bool) (actions : List (Action × BitVec 128)) :
    Addressed (run (State.new journal) (actions.map fun x => drawId x.2 x.1)) := by
  suffices ∀ (s : State), Addressed s →
      Addressed (run s (actions.map fun x => drawId x.2 x.1)) from this _ (addressed_new journal)
  induction actions with
  | nil => exact fun s h => h
  | cons x actions ih => exact fun s h => ih _ (step_addressed h _ (drawId_sessionId x.2 x.1))

/-! ### Resolution -/

/-- What a rule finds is a session in the maps that has the target, in the form of the rule. -/
theorem lookupBy_some (hc : Coherent s) (ha : Addressed s) {target id : Str} {rule : Rule}
    (h : lookupBy s.sessions target rule = some id) : HasForm target rule ∧ Live s id := by
  have hlive : ∀ id, Live s id → _ := fun id hid => ha.created id (hc.created id hid)
  cases rule with
  | paneId =>
    simp only [lookupBy] at h
    split_ifs at h
    obtain ⟨hid, heq⟩ := (hc.byPane _ _).mp h
    exact ⟨heq ▸ (hlive id hid).2.1, hid⟩
  | name =>
    obtain ⟨hid, heq⟩ := (hc.byName _ _).mp h
    exact ⟨heq ▸ (hlive id hid).1, hid⟩
  | sessionId =>
    obtain ⟨hid, heq⟩ := (hc.byId _ _).mp h
    exact ⟨heq ▸ (hlive id hid).2.2, hid⟩
  | paneNumber =>
    simp only [lookupBy] at h
    split_ifs at h
    obtain ⟨hid, heq⟩ := (hc.byPane _ _).mp h
    obtain ⟨n, hn⟩ := (hlive id hid).2.1
    exact ⟨⟨n, List.tail_eq_of_cons_eq (heq.symm.trans hn)⟩, hid⟩

theorem lookupBy_unique (hc : Coherent s) (ha : Addressed s) {target id id' : Str}
    {rule rule' : Rule} (h : lookupBy s.sessions target rule = some id)
    (h' : lookupBy s.sessions target rule' = some id') : rule = rule' ∧ id = id' := by
  have hrule := (lookupBy_some hc ha h).1.unique (lookupBy_some hc ha h').1
  subst hrule
  exact ⟨rfl, Option.some.inj (h.symm.trans h')⟩

/-- Whatever the order of the rules, the first that finds a session is the only one. -/
theorem findSome?_lookupBy (hc : Coherent s) (ha : Addressed s) {target id : Str} {rule : Rule}
    (h : lookupBy s.sessions target rule = some id) {order : List Rule} (hrule : rule ∈ order) :
    order.findSome? (lookupBy s.sessions target) = some id := by
  cases hfound : order.findSome? (lookupBy s.sessions target) with
  | none => rw [List.findSome?_eq_none_iff.mp hfound rule hrule] at h; cases h
  | some id' =>
    obtain ⟨rule', -, h'⟩ := List.exists_of_findSome?_eq_some hfound
    rw [(lookupBy_unique hc ha h h').2]

theorem resolveSession_eq (hc : Coherent s) (ha : Addressed s) {text id : Str} {rule : Rule}
    (h : lookupBy s.sessions text rule = some id) {before after : Str} (hbefore : Blank before)
    (hafter : Blank after) : resolveSession (before ++ text ++ after) s = .ok id := by
  have hresolved : s.sessions.resolveSessionLocked text = some id := by
    rw [resolveSessionLocked_eq]
    exact findSome?_lookupBy hc ha h (by cases rule <;> simp)
  unfold resolveSession
  rw [(lookupBy_some hc ha h).1.solid.normalizeTarget hbefore hafter]
  simp only [hresolved]

/-- **Targets are unambiguous** in every state of every run. A session in the maps is found under
its name, its id, its pane id and the number of its pane, with any blanks around them; at most one
rule finds a session for a target, so that the order of the rules does not matter; and no name is
the id, the pane id or the pane number of a session. -/
theorem targets_unambiguous (journal : Bool) (actions : List (Action × BitVec 128)) :
    let s := run (State.new journal) (actions.map fun x => drawId x.2 x.1)
    (∀ id, Live s id → ∃ n, (s.heap id).paneId = '%' :: decimal n ∧
      ∀ text ∈ [(s.heap id).name, id, (s.heap id).paneId, decimal n], ∀ before after,
        Blank before → Blank after → resolveSession (before ++ text ++ after) s = .ok id) ∧
      (∀ target rule rule' id id', lookupBy s.sessions target rule = some id →
        lookupBy s.sessions target rule' = some id' → rule = rule' ∧ id = id') ∧
      (∀ target (order : List Rule), (∀ rule, rule ∈ order) →
        order.findSome? (lookupBy s.sessions target) = s.sessions.resolveSessionLocked target) ∧
      ∀ id id', Live s id → Live s id' →
        (s.heap id).name ≠ id' ∧ (s.heap id).name ≠ (s.heap id').paneId ∧
          '%' :: (s.heap id).name ≠ (s.heap id').paneId := by
  intro s
  have hc : Coherent s := run_coherent journal _
  have ha : Addressed s := run_addressed journal actions
  refine ⟨?_, fun target rule rule' id id' h h' => lookupBy_unique hc ha h h', ?_, ?_⟩
  · intro id hid
    obtain ⟨hname, ⟨n, hpane⟩, huuid⟩ := ha.created id (hc.created id hid)
    have hnamed : lookupBy s.sessions (s.heap id).name .name = some id :=
      (hc.byName _ _).mpr ⟨hid, rfl⟩
    have hself : lookupBy s.sessions id .sessionId = some id := (hc.byId _ _).mpr ⟨hid, rfl⟩
    have hnumber : lookupBy s.sessions (decimal n) .paneNumber = some id := by
      have hhead : (decimal n).head? ≠ some '%' := fun hhead =>
        absurd (mem_decimal (List.mem_of_head? hhead)) (by decide)
      rw [lookupBy, if_neg hhead]
      exact (hc.byPane _ _).mpr ⟨hid, hpane⟩
    have hpercent : lookupBy s.sessions (s.heap id).paneId .paneId = some id := by
      rw [lookupBy, if_pos (by rw [hpane]; rfl)]
      exact (hc.byPane _ _).mpr ⟨hid, rfl⟩
    refine ⟨n, hpane, fun text htext before after hbefore hafter => ?_⟩
    simp only [List.mem_cons, List.not_mem_nil, or_false] at htext
    rcases htext with rfl | rfl | rfl | rfl
    · exact resolveSession_eq hc ha hnamed hbefore hafter
    · exact resolveSession_eq hc ha hself hbefore hafter
    · exact resolveSession_eq hc ha hpercent hbefore hafter
    · exact resolveSession_eq hc ha hnumber hbefore hafter
  · intro target order hall
    rw [resolveSessionLocked_eq]
    by_cases hfound : ∃ rule id, lookupBy s.sessions target rule = some id
    · obtain ⟨rule, id, hrule⟩ := hfound
      rw [findSome?_lookupBy hc ha hrule (hall rule),
        findSome?_lookupBy hc ha hrule (by cases rule <;> simp)]
    · have hnone : ∀ order : List Rule, order.findSome? (lookupBy s.sessions target) = none := by
        intro order
        rw [List.findSome?_eq_none_iff]
        intro rule _
        exact Option.eq_none_iff_forall_ne_some.mpr fun id hrule => hfound ⟨rule, id, hrule⟩
      rw [hnone, hnone]
  · intro id id' hid hid'
    obtain ⟨hname, -, -⟩ := ha.created id (hc.created id hid)
    obtain ⟨-, hpane, huuid⟩ := ha.created id' (hc.created id' hid')
    refine ⟨fun heq => ?_, fun heq => ?_, fun heq => ?_⟩
    · rw [heq] at hname
      exact nomatch hname.unique huuid
    · rw [heq] at hname
      exact nomatch hname.unique hpane
    · obtain ⟨n, hn⟩ := hpane
      have hnumber : HasForm (s.heap id).name .paneNumber :=
        ⟨n, List.tail_eq_of_cons_eq (heq.trans hn)⟩
      exact nomatch hname.unique hnumber

end LightTerminal.Server.Targets
