import LightTerminal.Tmux.CommandGrammars

/-! # Clustered and separate flags of the tmux commands

A cluster can be written as one flag for each argument, with the attached value of the last one as an
argument after it. `Alike` says that a command reads both ways alike, wherever it expects an option.

* the number of arguments that a loop takes for a cluster is two exactly if the value is the next
  argument, and that argument is then passed over (`ExactWidth`);
* `capture-pane`, `new-session` and `display-message` read a cluster and its separate flags alike unless
  a `-` is among the flags, which on its own reads `--`;
* `send-keys` does not look for `l` in a cluster, and `split-window` lets a `v` win over an `h` that
  stands after it: there the two ways differ (`clusters_alike`). -/

namespace LightTerminal.Tmux.ClusteredFlags

open LightTerminal.Data.Text LightTerminal.Library LightTerminal.Library.Cursor
open LightTerminal.Library.ShortOptions LightTerminal.Tmux.ShortFlags
open LightTerminal.Tmux.CommandArgs LightTerminal.Tmux.CommandGrammars

/-- A command reads a cluster and its separate flags alike: the result is the same, or an error both
times. -/
def Alike {ρ : Type} (takes : Char → Bool) (parse : List Str → Except Str ρ) (c : Cluster) : Prop :=
  ∀ before after, OptionPosition takes before →
    (parse (before ++ c.arg :: after)).toOption =
      (parse (before ++ c.separate takes ++ after)).toOption

/-- A loop takes two arguments for a cluster exactly if the value is the next argument; it then does the
same whatever comes after the value, and goes on there. -/
def ExactWidth {σ : Type} (takes : Char → Bool)
    (turn : Str → List Str → σ → Turn σ (Except Str σ)) (c : Cluster) : Prop :=
  (∀ rest st width st', turn c.arg rest st = .next width st' →
    (min width (rest.length + 1) = 2 ↔ c.Awaits takes ∧ rest ≠ [])) ∧
  (c.Awaits takes → ∀ value st,
    (∃ err, ∀ rest, walk turn .ok 0 (c.arg :: value :: rest) st = .error err) ∨
      ∃ st', ∀ rest, walk turn .ok 0 (c.arg :: value :: rest) st = walk turn .ok 0 rest st')

/-- An attached value that `send-keys` refuses: an empty target, or no repeat count. -/
def SendKeysRefuses (c : Cluster) : Prop :=
  ∃ flag attached, c.valueFlag sendKeysGrammar.takes = some (flag, attached) ∧ attached ≠ [] ∧
    (flag = 't' ∧ stripEquals attached = [] ∨
      flag = 'N' ∧ ∀ count, parseSendKeysRepeat (some (stripEquals attached)) ≠ .ok count)

/-- An attached value that `split-window` refuses: an empty target, or no assignment. -/
def SplitWindowRefuses (c : Cluster) : Prop :=
  ∃ flag attached, c.valueFlag splitWindowGrammar.takes = some (flag, attached) ∧ attached ≠ [] ∧
    (flag = 't' ∧ stripEquals attached = [] ∨
      flag = 'e' ∧ ∀ entry, parseSplitWindowEnvAssignment (stripEquals attached) ≠ .ok entry)

/-- The last of the flags `h` and `v`. -/
def lastDirection (flags : List Char) : Option Char :=
  (flags.filter fun flag => flag = 'h' ∨ flag = 'v').getLast?

/-! ## What conforming loops have in common -/

section Loop
variable {σ : Type} {g : Grammar σ Str} {turn : Str → List Str → σ → Turn σ (Except Str σ)}
  {c : Cluster} {st : σ}

theorem exactWidth (h : Conforms g turn) (c : Cluster) : ExactWidth g.takes turn c := by
  refine ⟨fun rest st width st' hturn => ?_, fun hawaits value st => ?_⟩
  · have hcluster := h.cluster c rest st
    rw [hturn, Turn.clip, Grammar.turn] at hcluster
    rcases hread : g.read c rest with err | update
    · rw [hread] at hcluster
      exact absurd hcluster (by simp [Except.map, Turn.ofExcept])
    · rw [hread] at hcluster
      have hwidth := (Turn.next.inj hcluster).1
      rw [hwidth]
      exact width_eq_two
  · rcases h.walk_before (OptionPosition.value hawaits .start) st with ⟨err, herr⟩ | ⟨st', hst⟩
    · exact .inl ⟨err, fun rest => herr rest⟩
    · exact .inr ⟨st', fun rest => hst rest⟩

/-- A loop reads a cluster and its separate flags alike. -/
theorem alike_of_conforms (h : Conforms g turn) (hdash : '-' ∉ c.flags g.takes)
    (hflags : (∀ st, g.flags c.text st = g.oneByOne (c.flags g.takes) st) ∨
      ∀ rest, ∃ err, g.read c rest = .error err) :
    Alike g.takes (fun args => walk turn .ok 0 args st) c := by
  intro before after hb
  exact congrArg Except.toOption (h.alike hdash hflags hb after st)

/-- A `-` among the flags is told from its separate form: after `--` no option leaves its mark. -/
theorem dash_not_alike (h : Conforms g turn) {β : Type} (view : σ → β) (mark : Str) (marked : σ → σ)
    {b : β} (hmark : ∀ rest st, turn mark rest st = .next 1 (marked st))
    (hview : ∀ st, view (marked st) = b)
    (hend : ∀ rest st, ∃ st', turn ['-', '-'] rest st = .done (.ok st') ∧ view st' = view st)
    (hflags : ∀ flags st, view (g.flags flags st) = view st) (hst : view st ≠ b)
    (halike : Alike g.takes (fun args => walk turn .ok 0 args st) c) :
    '-' ∉ c.flags g.takes := by
  intro hdash
  have heq := halike [] [mark, mark] .start
  simp only [List.nil_append] at heq
  obtain ⟨flags, tail, hseparate⟩ := h.walk_dash hdash [mark, mark] st
  obtain ⟨st', hdone, hview'⟩ := hend (tail ++ [mark, mark]) (g.oneByOne flags st)
  have hkept : ∀ (flags : List Char) (st : σ), view (g.oneByOne flags st) = view st := by
    intro flags
    induction flags with
    | nil => intro st; rfl
    | cons flag flags ih => intro st; exact (ih _).trans (hflags [flag] st)
  rw [hseparate, walk_done hdone] at heq
  rcases h.walk_marked c marked view (fun rest st => walk_next (hmark rest st)) hview st with
    ⟨err, herr⟩ | ⟨st'', hok, hb⟩
  · rw [herr] at heq
    exact absurd heq (by simp [Except.toOption])
  · rw [hok] at heq
    have he : st'' = st' := Option.some.inj heq
    rw [he, hview', hkept] at hb
    exact hst hb

/-- What a loop does at a cluster and one more argument, which the cluster takes for its value or
leaves. -/
theorem resume_kept {β : Type} (turn : Str → List Str → σ → Turn σ (Except Str σ)) (view : σ → β)
    {arg : Str}
    (hread : ∃ update, g.read c [arg] = .ok update ∧ ∀ st, view (update st) = view st)
    (harg : ∀ st, ∃ st', walk turn .ok 0 [arg] st = .ok st' ∧ view st' = view st) (st : σ) :
    ∃ st', g.resume turn c [arg] st = .ok st' ∧ view st' = view st := by
  obtain ⟨update, hread, hview⟩ := hread
  unfold Grammar.resume
  rw [hread]
  by_cases hawaits : c.Awaits g.takes
  · rw [width_eq_two.mpr ⟨hawaits, by simp⟩]
    exact ⟨update st, rfl, hview st⟩
  · rw [width_of_not_awaits hawaits]
    obtain ⟨st', hok, hview'⟩ := harg (update st)
    exact ⟨st', hok, hview'.trans (hview st)⟩

end Loop

/-! ## The flags of a cluster, one after the other -/

theorem takeWhile_single {takes : Char → Bool} {flag : Char} (h : takes flag = false) :
    [flag].takeWhile (fun flag => !takes flag) = [flag] := by
  rw [List.takeWhile_cons_of_pos (by rw [h]; decide)]
  rfl

theorem target_oneByOne {extraValueFlags : List Char} (hdash : '-' ∉ extraValueFlags)
    (flags : List Char) (target : Option Str) :
    (targetGrammar extraValueFlags hdash).oneByOne flags target = target := by
  induction flags with
  | nil => rfl
  | cons flag flags ih => exact ih

theorem sendKeys_oneByOne (flags : List Char) (parsed : SendKeysArgs) :
    sendKeysGrammar.oneByOne flags parsed =
      if 'l' ∈ flags then { parsed with literal := true } else parsed := by
  refine Grammar.oneByOne_mark 'l' (fun parsed => { parsed with literal := true })
    (fun _ => rfl) flags parsed fun flag _ st => ?_
  simp [sendKeysGrammar]

theorem capturePane_oneByOne (c : Cluster) (parsed : CapturePaneArgs) :
    capturePaneGrammar.oneByOne (c.flags capturePaneGrammar.takes) parsed =
      capturePaneGrammar.flags c.text parsed := by
  refine Grammar.oneByOne_mark 'p' (fun parsed => { parsed with print := true })
    (fun _ => rfl) _ parsed fun flag hmem st => ?_
  have htext := takeWhile_single (takes_of_mem_flags hmem)
  simp only [capturePaneGrammar] at htext ⊢
  rw [htext]
  simp [eq_comm]

theorem displayMessage_oneByOne (c : Cluster) (parsed : DisplayMessageArgs) :
    displayMessageGrammar.oneByOne (c.flags displayMessageGrammar.takes) parsed =
      displayMessageGrammar.flags c.text parsed := by
  refine Grammar.oneByOne_mark 'p' (fun parsed => { parsed with print := true })
    (fun _ => rfl) _ parsed fun flag hmem st => ?_
  have htext := takeWhile_single (takes_of_mem_flags hmem)
  simp only [displayMessageGrammar] at htext ⊢
  rw [htext]
  simp [eq_comm]

theorem newSession_oneByOne (c : Cluster) (parsed : NewSessionArgs) :
    newSessionGrammar.oneByOne (c.flags newSessionGrammar.takes) parsed =
      newSessionGrammar.flags c.text parsed := by
  refine List.foldl_ext _ _ _ fun st flag hmem => ?_
  have htext := takeWhile_single (takes_of_mem_flags hmem)
  simp only [newSessionGrammar] at htext ⊢
  rw [htext]
  rfl

/-! ### The direction of split-window -/

/-- What the flags of `split-window` do, field by field. -/
theorem splitWindowBooleans_eq (has : Char → Bool) (parsed : SplitWindowArgs) :
    splitWindowBooleans has parsed =
      { parsed with
        horizontal := if has 'v' then false else if has 'h' then true else parsed.horizontal
        backward := parsed.backward || has 'b'
        detached := parsed.detached || has 'd'
        print := parsed.print || has 'P' } := by
  unfold splitWindowBooleans
  rcases has 'h' <;> rcases has 'v' <;> rcases has 'b' <;> rcases has 'd' <;> rcases has 'P' <;> simp

/-- The direction after a flag of its own. -/
def turned (horizontal : Bool) (flag : Char) : Bool :=
  if flag = 'v' then false else if flag = 'h' then true else horizontal

theorem foldl_turned (flags : List Char) (horizontal : Bool) :
    flags.foldl turned horizontal =
      match lastDirection flags with
      | none => horizontal
      | some flag => decide (flag = 'h') := by
  induction flags using List.reverseRecOn with
  | nil => rfl
  | append_singleton flags flag ih =>
    rw [List.foldl_append, List.foldl_cons, List.foldl_nil, ih]
    unfold lastDirection turned
    rw [List.filter_append]
    by_cases hv : flag = 'v'
    · subst hv
      simp
    by_cases hh : flag = 'h'
    · subst hh
      simp
    · simp [hv, hh]

theorem splitWindow_oneByOne (flags : List Char) : ∀ parsed : SplitWindowArgs,
    (∀ flag ∈ flags, splitWindowGrammar.takes flag = false) →
    splitWindowGrammar.oneByOne flags parsed =
      { parsed with
        horizontal := flags.foldl turned parsed.horizontal
        backward := parsed.backward || decide ('b' ∈ flags)
        detached := parsed.detached || decide ('d' ∈ flags)
        print := parsed.print || decide ('P' ∈ flags) } := by
  induction flags with
  | nil => intro parsed _; simp [Grammar.oneByOne]
  | cons flag flags ih =>
    intro parsed hflags
    have htext := takeWhile_single (hflags flag List.mem_cons_self)
    have hstep : splitWindowGrammar.flags [flag] parsed =
        splitWindowBooleans (fun needle => decide (needle = flag)) parsed := by
      simp only [splitWindowGrammar] at htext ⊢
      simp only [htext, List.mem_singleton]
    show splitWindowGrammar.oneByOne flags (splitWindowGrammar.flags [flag] parsed) = _
    rw [hstep, splitWindowBooleans_eq, ih _ fun flag' hmem => hflags flag' (List.mem_cons_of_mem _ hmem)]
    simp [turned, Bool.or_assoc, eq_comm]

/-- The direction that a cluster gives is that of its flags one by one, unless an `h` stands after its
last `v`. -/
theorem direction_eq {flags : List Char} (horizontal : Bool) :
    (if 'v' ∈ flags then false else if 'h' ∈ flags then true else horizontal) =
        flags.foldl turned horizontal ↔
      ¬ ('v' ∈ flags ∧ lastDirection flags = some 'h') := by
  have hmem : ∀ flag, lastDirection flags = some flag →
      flag ∈ flags ∧ (flag = 'h' ∨ flag = 'v') := by
    intro flag h
    have hm := List.mem_of_getLast? h
    rw [List.mem_filter] at hm
    exact ⟨hm.1, by simpa using hm.2⟩
  have hnone : lastDirection flags = none → 'v' ∉ flags ∧ 'h' ∉ flags := by
    intro h
    have hm : flags.filter (fun flag => decide (flag = 'h' ∨ flag = 'v')) = [] :=
      List.getLast?_eq_none_iff.mp h
    rw [List.filter_eq_nil_iff] at hm
    exact ⟨fun h => absurd (hm 'v' h) (by decide), fun h => absurd (hm 'h' h) (by decide)⟩
  rw [foldl_turned]
  rcases hlast : lastDirection flags with - | flag
  · obtain ⟨hv, hh⟩ := hnone hlast
    simp [hv, hh]
  · obtain ⟨hin, rfl | rfl⟩ := hmem flag hlast
    · by_cases hv : 'v' ∈ flags <;> simp [hv, hin]
    · simp [hin]

/-! ## The commands -/

theorem capturePane_alike (c : Cluster) :
    Alike capturePaneGrammar.takes parseCapturePaneArgs c ↔
      '-' ∉ c.flags capturePaneGrammar.takes := by
  constructor
  · refine dash_not_alike capturePane_conforms CapturePaneArgs.target
      ['-', 't', 'm'] (fun parsed => { parsed with target := some ['m'] })
      (fun rest st => rfl) (fun st => rfl) (fun rest st => ⟨st, rfl, rfl⟩)
      (fun flags st => ?_) (by decide)
    simp only [capturePaneGrammar]
    split_ifs <;> rfl
  · intro hdash
    exact alike_of_conforms capturePane_conforms hdash
      (.inl fun st => (capturePane_oneByOne c st).symm)

theorem displayMessage_alike (c : Cluster) :
    Alike displayMessageGrammar.takes parseDisplayMessage c ↔
      '-' ∉ c.flags displayMessageGrammar.takes := by
  constructor
  · refine dash_not_alike displayMessage_conforms DisplayMessageArgs.target
      ['-', 't', 'm']
      (fun parsed => { parsed with target := some ['m'], explicitTarget := true })
      (fun rest st => rfl) (fun st => rfl) (fun rest st => ⟨_, rfl, rfl⟩)
      (fun flags st => ?_) (by decide)
    simp only [displayMessageGrammar]
    split_ifs <;> rfl
  · intro hdash
    exact alike_of_conforms displayMessage_conforms hdash
      (.inl fun st => (displayMessage_oneByOne c st).symm)

theorem newSession_alike (c : Cluster) :
    Alike newSessionGrammar.takes parseNewSessionArgs c ↔
      '-' ∉ c.flags newSessionGrammar.takes := by
  constructor
  · refine dash_not_alike newSession_conforms NewSessionArgs.name
      ['-', 's', 'm'] (fun parsed => { parsed with name := some ['m'] })
      (fun rest st => rfl) (fun st => rfl) (fun rest st => ⟨_, rfl, rfl⟩)
      (fun flags st => ?_) (by decide)
    have hkept : ∀ (flags : List Char) (st : NewSessionArgs),
        (flags.foldl (fun parsed flag =>
          if flag = 'd' then { parsed with detached := true }
          else if flag = 'P' then { parsed with print := true }
          else parsed) st).name = st.name := by
      intro flags
      induction flags with
      | nil => intro st; rfl
      | cons flag flags ih =>
        intro st
        rw [List.foldl_cons, ih]
        split_ifs <;> rfl
    exact hkept _ st
  · intro hdash
    exact alike_of_conforms newSession_conforms hdash
      (.inl fun st => (newSession_oneByOne c st).symm)

/-- A value that is not refused is read, and leaves the direction as it is. -/
theorem splitWindow_read {c : Cluster} (h : ¬ SplitWindowRefuses c) :
    ∃ update, splitWindowGrammar.read c [['a', '=', 'b']] = .ok update ∧
      ∀ st, (update st).horizontal = st.horizontal := by
  rcases hvalue : c.valueFlag splitWindowGrammar.takes with - | ⟨flag, attached⟩
  · exact ⟨id, Grammar.read_none hvalue _, fun st => rfl⟩
  rw [Grammar.read_some hvalue]
  -- the value: what is attached, or the argument
  have hvalues : ∃ value, (source attached [['a', '=', 'b']]).text = some value ∧
      (flag = 't' → value ≠ []) ∧
      (flag = 'e' → ∃ entry, parseSplitWindowEnvAssignment value = .ok entry) := by
    by_cases ha : attached = []
    · refine ⟨['a', '=', 'b'], by rw [ha]; rfl, fun _ => by simp, fun _ => ⟨(['a'], ['b']), rfl⟩⟩
    · refine ⟨stripEquals attached, by rw [source_attached ha]; rfl, fun ht he => ?_, fun he => ?_⟩
      · exact h ⟨flag, attached, hvalue, ha, .inl ⟨ht, he⟩⟩
      · by_contra hentry
        exact h ⟨flag, attached, hvalue, ha, .inr ⟨he, fun entry hok => hentry ⟨entry, hok⟩⟩⟩
  obtain ⟨value, htext, htarget, hentry⟩ := hvalues
  rw [htext]
  by_cases hF : flag = 'F'
  · rw [hF]
    exact ⟨_, rfl, fun st => rfl⟩
  by_cases ht : flag = 't'
  · obtain ⟨ch, rest, rfl⟩ := List.exists_cons_of_ne_nil (htarget ht)
    rw [ht]
    exact ⟨_, rfl, fun st => rfl⟩
  by_cases hc : flag = 'c'
  · rw [hc]
    exact ⟨_, rfl, fun st => rfl⟩
  by_cases he : flag = 'e'
  · obtain ⟨entry, hok⟩ := hentry he
    refine ⟨fun st => { st with paneEnv := st.paneEnv.insert entry.1 entry.2 }, ?_, fun st => rfl⟩
    rw [he]
    simp [splitWindowGrammar, valueForOption, hok, Except.map]
  · exact ⟨id, by simp only [splitWindowGrammar, if_neg hF, if_neg ht, if_neg hc, if_neg he],
      fun st => rfl⟩

theorem splitWindow_alike (c : Cluster) :
    Alike splitWindowGrammar.takes parseSplitWindow c ↔
      '-' ∉ c.flags splitWindowGrammar.takes ∧
        ('v' ∈ c.flags splitWindowGrammar.takes →
          lastDirection (c.flags splitWindowGrammar.takes) = some 'h' → SplitWindowRefuses c) := by
  have hflags : ∀ st : SplitWindowArgs, splitWindowGrammar.flags c.text st =
      splitWindowBooleans (fun needle => decide (needle ∈ c.flags splitWindowGrammar.takes)) st :=
    fun st => rfl
  have hone := splitWindow_oneByOne (c.flags splitWindowGrammar.takes)
  constructor
  · intro halike
    have hdash : '-' ∉ c.flags splitWindowGrammar.takes := by
      refine dash_not_alike splitWindow_conforms SplitWindowArgs.target
        ['-', 't', 'm'] (fun parsed => { parsed with target := some ['m'] })
        (fun rest st => rfl) (fun st => rfl) (fun rest st => ⟨_, rfl, rfl⟩)
        (fun flags st => ?_) ?_ halike
      · simp only [splitWindowGrammar, splitWindowBooleans_eq]
      · simp
    refine ⟨hdash, fun hv hlast => ?_⟩
    by_contra hrefuses
    -- one more argument, an assignment, is a value that no flag of the command refuses
    have hkept := resume_kept (g := splitWindowGrammar) splitWindowTurn
      SplitWindowArgs.horizontal (splitWindow_read hrefuses)
      (fun st => ⟨_, rfl, rfl⟩)
    obtain ⟨clustered, hclustered, hdirection⟩ := hkept (splitWindowGrammar.flags c.text _)
    obtain ⟨separate, hseparate, hdirection'⟩ :=
      hkept (splitWindowGrammar.oneByOne (c.flags splitWindowGrammar.takes) _)
    have heq := halike [] [['a', '=', 'b']] .start
    simp only [List.nil_append, parseSplitWindow] at heq
    rw [splitWindow_conforms.walk_cluster, splitWindow_conforms.walk_separate hdash, hclustered,
      hseparate] at heq
    have hsame : clustered = separate := Option.some.inj heq
    rw [← hsame, hdirection, hflags, splitWindowBooleans_eq,
      hone _ fun flag hmem => takes_of_mem_flags hmem, foldl_turned, hlast] at hdirection'
    simp [hv] at hdirection'
  · rintro ⟨hdash, hdirection⟩
    refine alike_of_conforms splitWindow_conforms hdash ?_
    by_cases hbad : 'v' ∈ c.flags splitWindowGrammar.takes ∧
        lastDirection (c.flags splitWindowGrammar.takes) = some 'h'
    · right
      intro rest
      obtain ⟨flag, attached, hvalue, ha, hrefused⟩ := hdirection hbad.1 hbad.2
      rw [Grammar.read_some hvalue, source_attached ha]
      rcases hrefused with ⟨rfl, hempty⟩ | ⟨rfl, hbad⟩
      · exact ⟨_, by rw [Source.text, hempty]; rfl⟩
      · rcases hread : parseSplitWindowEnvAssignment (stripEquals attached) with err | entry
        · exact ⟨err, by simp [splitWindowGrammar, Source.text, valueForOption, hread, Except.map]⟩
        · exact absurd hread (hbad entry)
    · left
      intro st
      have hdir := (direction_eq st.horizontal).mpr hbad
      rw [hflags, splitWindowBooleans_eq, hone st fun flag hmem => takes_of_mem_flags hmem, ← hdir]
      simp

/-! ### send-keys -/

theorem sendKeysValueFlags_dash : '-' ∉ sendKeysValueFlags := by decide

/-- The scan for the target of `send-keys`. -/
def sendKeysTarget : Grammar (Option Str) Str := targetGrammar sendKeysValueFlags sendKeysValueFlags_dash

theorem sendKeysTarget_conforms : Conforms sendKeysTarget (targetTurn sendKeysValueFlags) :=
  target_conforms sendKeysValueFlags_dash

/-- The scan for the target reads a cluster and its separate flags alike: its flags do nothing. -/
theorem sendKeysTarget_alike {c : Cluster} (hdash : '-' ∉ c.flags sendKeysGrammar.takes)
    {before : List Str} (hb : OptionPosition sendKeysGrammar.takes before) (after : List Str) :
    parseTargetWithValueFlags (before ++ c.arg :: after) sendKeysValueFlags =
      parseTargetWithValueFlags (before ++ c.separate sendKeysGrammar.takes ++ after)
        sendKeysValueFlags :=
  sendKeysTarget_conforms.alike hdash
    (.inl fun st => (target_oneByOne sendKeysValueFlags_dash _ st).symm) hb after none

theorem flags_of_single {c : Cluster} {flag : Char} (hc : c.text = [flag])
    (htakes : sendKeysGrammar.takes flag = false) : c.flags sendKeysGrammar.takes = [flag] := by
  rw [Cluster.flags, hc]
  exact takeWhile_single htakes

/-- A value that is not refused is read by both scans, and leaves `literal` as it is. -/
theorem sendKeys_read {c : Cluster} (h : ¬ SendKeysRefuses c) :
    (∃ update, sendKeysTarget.read c [['1']] = .ok update) ∧
      ∃ update, sendKeysGrammar.read c [['1']] = .ok update ∧
        ∀ st, (update st).literal = st.literal := by
  rcases hvalue : c.valueFlag sendKeysGrammar.takes with - | ⟨flag, attached⟩
  · exact ⟨⟨id, Grammar.read_none (g := sendKeysTarget) hvalue _⟩, id, Grammar.read_none hvalue _,
      fun st => rfl⟩
  have hreadTarget := Grammar.read_some (g := sendKeysTarget) hvalue [['1']]
  have hreadKeys := Grammar.read_some (g := sendKeysGrammar) hvalue [['1']]
  rw [hreadTarget, hreadKeys]
  have hvalues : ∃ value, (source attached [['1']]).text = some value ∧
      (flag = 't' → value ≠ []) ∧
      (flag = 'N' → ∃ count, parseSendKeysRepeat (some value) = .ok count) := by
    by_cases ha : attached = []
    · exact ⟨['1'], by rw [ha]; rfl, fun _ => by simp, fun _ => ⟨1, by decide⟩⟩
    · refine ⟨stripEquals attached, by rw [source_attached ha]; rfl, fun ht he => ?_, fun hN => ?_⟩
      · exact h ⟨flag, attached, hvalue, ha, .inl ⟨ht, he⟩⟩
      · by_contra hcount
        exact h ⟨flag, attached, hvalue, ha, .inr ⟨hN, fun count hok => hcount ⟨count, hok⟩⟩⟩
  obtain ⟨value, htext, htarget, hcount⟩ := hvalues
  rw [htext]
  constructor
  · by_cases ht : flag = 't'
    · obtain ⟨ch, rest, rfl⟩ := List.exists_cons_of_ne_nil (htarget ht)
      rw [ht]
      exact ⟨_, rfl⟩
    · exact ⟨id, if_neg ht⟩
  · by_cases hN : flag = 'N'
    · obtain ⟨count, hok⟩ := hcount hN
      refine ⟨fun st => { st with repeatCount := count }, ?_, fun st => rfl⟩
      rw [hN]
      simp [sendKeysGrammar, hok, Except.map]
    · exact ⟨id, if_neg hN, fun st => rfl⟩

/-- The target of `send-keys` is refused whatever follows, if it is attached and empty. -/
theorem sendKeysTarget_refused {c : Cluster} {attached : Str}
    (hvalue : c.valueFlag sendKeysGrammar.takes = some ('t', attached)) (ha : attached ≠ [])
    (hempty : stripEquals attached = []) (rest : List Str) :
    ∃ err, sendKeysTarget.read c rest = .error err := by
  have hread := Grammar.read_some (g := sendKeysTarget) hvalue rest
  rw [hread, source_attached ha, Source.text, hempty]
  exact ⟨_, rfl⟩

/-- A `-` among the flags of `send-keys`: after `--` the target is not looked for. -/
theorem sendKeys_dash {c : Cluster} (halike : Alike sendKeysGrammar.takes parseSendKeys c) :
    '-' ∉ c.flags sendKeysGrammar.takes := by
  intro hdash
  have heq := halike [] [['-', 't', 'm'], ['-', 't', 'm']] .start
  simp only [List.nil_append] at heq
  obtain ⟨flags, tail, htarget⟩ := sendKeysTarget_conforms.walk_dash hdash
    [['-', 't', 'm'], ['-', 't', 'm']] none
  obtain ⟨flags', tail', hkeys⟩ := sendKeys_conforms.walk_dash hdash
    [['-', 't', 'm'], ['-', 't', 'm']] { literal := false, repeatCount := 1, keys := [] }
  have hseparate : parseTargetWithValueFlags (c.separate sendKeysGrammar.takes ++
      [['-', 't', 'm'], ['-', 't', 'm']]) sendKeysValueFlags = .ok none := by
    have hnone := target_oneByOne sendKeysValueFlags_dash flags none
    refine htarget.trans ?_
    rw [show sendKeysTarget.oneByOne flags none = none from hnone]
    rfl
  have hend : ∀ rest st, sendKeysTurn ['-', '-'] rest st =
    .done (.ok { st with keys := st.keys ++ rest }) := fun rest st => rfl
  unfold parseSendKeys at heq
  rw [hseparate, hkeys, walk_done (hend _ _)] at heq
  have hmark : ∀ rest st, targetTurn sendKeysValueFlags ['-', 't', 'm'] rest st =
      .next 1 (some ['m']) := fun rest st => rfl
  rcases sendKeysTarget_conforms.walk_marked c (fun _ => some ['m']) id
    (fun rest st => walk_next (hmark rest st)) (fun _ => rfl) none with ⟨err, herr⟩ | ⟨target, hok, hm⟩
  · have herr' : parseTargetWithValueFlags (c.arg :: [['-', 't', 'm'], ['-', 't', 'm']])
      sendKeysValueFlags = .error err := herr
    rw [herr'] at heq
    exact absurd heq (by simp [Except.toOption, Except.map])
  · have hok' : parseTargetWithValueFlags (c.arg :: [['-', 't', 'm'], ['-', 't', 'm']])
      sendKeysValueFlags = .ok target := hok
    have htarget' : target = some ['m'] := hm
    rw [hok', htarget'] at heq
    rcases hwalk : walk sendKeysTurn .ok 0 (c.arg :: [['-', 't', 'm'], ['-', 't', 'm']])
      { literal := false, repeatCount := 1, keys := [] } with err | parsed
    · simp only [hwalk] at heq
      exact absurd heq (by simp [Except.toOption, Except.map])
    · simp only [hwalk] at heq
      exact absurd heq (by simp [Except.toOption, Except.map])

/-- An `l` among the flags of `send-keys`, in a cluster whose value is not refused: what follows is sent
as keys by name, and literally if the flags are separate. -/
theorem sendKeys_literal {c : Cluster} (hdash : '-' ∉ c.flags sendKeysGrammar.takes)
    (hl : 'l' ∈ c.flags sendKeysGrammar.takes) (hc : c.text ≠ ['l']) (hrefuses : ¬ SendKeysRefuses c) :
    ¬ Alike sendKeysGrammar.takes parseSendKeys c := by
  intro halike
  have heq := halike [] [['1']] .start
  simp only [List.nil_append] at heq
  obtain ⟨⟨update, hupdate⟩, hkeys⟩ := sendKeys_read hrefuses
  obtain ⟨target, htarget, -⟩ := resume_kept (g := sendKeysTarget)
    (targetTurn sendKeysValueFlags) (fun _ => ()) ⟨update, hupdate, fun _ => rfl⟩
    (fun st => ⟨_, rfl, rfl⟩) none
  have hkept := resume_kept (g := sendKeysGrammar) sendKeysTurn
    SendKeysArgs.literal hkeys (fun st => ⟨_, rfl, rfl⟩)
  obtain ⟨clustered, hclustered, hfalse⟩ :=
    hkept (sendKeysGrammar.flags c.text { literal := false, repeatCount := 1, keys := [] })
  obtain ⟨separate, hseparate, htrue⟩ :=
    hkept (sendKeysGrammar.oneByOne (c.flags sendKeysGrammar.takes)
      { literal := false, repeatCount := 1, keys := [] })
  have hparsed : parseTargetWithValueFlags (c.arg :: [['1']]) sendKeysValueFlags = .ok target :=
    (sendKeysTarget_conforms.walk_cluster c [['1']] none).trans htarget
  have hparsed' := sendKeysTarget_alike hdash .start [['1']]
  simp only [List.nil_append] at hparsed'
  unfold parseSendKeys at heq
  rw [← hparsed', hparsed, sendKeys_conforms.walk_cluster, sendKeys_conforms.walk_separate hdash,
    hclustered, hseparate] at heq
  have hsame : clustered = separate := (Prod.ext_iff.mp (Option.some.inj heq)).2
  rw [sendKeys_oneByOne, if_pos hl] at htrue
  rw [hsame, htrue, show sendKeysGrammar.flags c.text { literal := false, repeatCount := 1, keys := [] } =
    { literal := false, repeatCount := 1, keys := [] } from if_neg hc] at hfalse
  exact absurd hfalse (by decide)

theorem sendKeys_alike (c : Cluster) :
    Alike sendKeysGrammar.takes parseSendKeys c ↔
      '-' ∉ c.flags sendKeysGrammar.takes ∧
        ('l' ∈ c.flags sendKeysGrammar.takes → c.text = ['l'] ∨ SendKeysRefuses c) := by
  constructor
  · intro halike
    have hdash := sendKeys_dash halike
    refine ⟨hdash, fun hl => ?_⟩
    by_contra hneither
    obtain ⟨hc, hrefuses⟩ := not_or.mp hneither
    exact sendKeys_literal hdash hl hc hrefuses halike
  · rintro ⟨hdash, hliteral⟩ before after hb
    have htarget := sendKeysTarget_alike hdash hb after
    by_cases hl : 'l' ∈ c.flags sendKeysGrammar.takes ∧ c.text ≠ ['l']
    · obtain ⟨flag, attached, hvalue, ha, hrefused⟩ := (hliteral hl.1).resolve_left hl.2
      rcases hrefused with ⟨rfl, hempty⟩ | ⟨rfl, hcount⟩
      · -- the target is refused, before the other flags are looked at
        obtain ⟨err, herr⟩ := sendKeysTarget_conforms.walk_refused
          (sendKeysTarget_refused hvalue ha hempty) hb after none
        have herr' : parseTargetWithValueFlags (before ++ c.arg :: after) sendKeysValueFlags =
          .error err := herr
        unfold parseSendKeys
        rw [← htarget, herr']
      · have hread : ∀ rest, ∃ err, sendKeysGrammar.read c rest = .error err := by
          intro rest
          rw [Grammar.read_some hvalue, source_attached ha]
          rcases hread : parseSendKeysRepeat (some (stripEquals attached)) with err | count
          · exact ⟨err, by simp [sendKeysGrammar, Source.text, hread, Except.map]⟩
          · exact absurd hread (hcount count)
        unfold parseSendKeys
        rw [← htarget, sendKeys_conforms.alike hdash (.inr hread) hb]
    · have hflags : ∀ st, sendKeysGrammar.flags c.text st =
          sendKeysGrammar.oneByOne (c.flags sendKeysGrammar.takes) st := by
        intro st
        rw [sendKeys_oneByOne]
        by_cases hc : c.text = ['l']
        · have hmem : 'l' ∈ c.flags sendKeysGrammar.takes := by
            rw [flags_of_single hc (by decide)]
            exact List.mem_singleton_self _
          rw [if_pos hmem]
          exact if_pos hc
        · rw [if_neg fun hmem => hl ⟨hmem, hc⟩]
          exact if_neg hc
      unfold parseSendKeys
      rw [← htarget, sendKeys_conforms.alike hdash (.inl hflags) hb]

/-! ## All commands -/

/-- The width of a cluster is two exactly if the value that is read for one of its flags is the next
argument. -/
theorem flagArgWidth_eq_two (c : Cluster) (rest : List Str)
    (extraValueFlags booleanValueOverrides : List Char) :
    flagArgWidthWithExtraAndBooleanOverrides c.arg rest extraValueFlags booleanValueOverrides = 2 ↔
      ∃ flag pos value,
        c.valueFlag (valueFlags extraValueFlags booleanValueOverrides) = some (flag, []) ∧
        shortClusterFlagValueWithExtraAndBooleanOverrides c.arg flag rest extraValueFlags
          booleanValueOverrides = some (pos, some value) ∧ rest.head? = some value := by
  rw [flagArgWidth_cluster, width_eq_two]
  constructor
  · rintro ⟨⟨flag, hvalue⟩, hne⟩
    obtain ⟨value, rest, rfl⟩ := List.exists_cons_of_ne_nil hne
    obtain ⟨pos, hscan⟩ := shortClusterFlagValue_some hvalue (value :: rest)
    exact ⟨flag, pos, value, hvalue, hscan, rfl⟩
  · rintro ⟨flag, pos, value, hvalue, -, hhead⟩
    refine ⟨⟨flag, hvalue⟩, fun he => ?_⟩
    rw [he] at hhead
    exact absurd hhead (by simp)

/-- **When a cluster and its separate flags are read alike**, for each of the commands, and how many
arguments a cluster takes. A `-` among the flags would read `--` on its own. `send-keys` does not see an
`l` in a cluster of more than one flag, and `split-window` does not see that an `h` stands after its last
`v`; the two ways are alike there only if the attached value is refused, so that both are errors. -/
theorem clusters_alike (c : Cluster) :
    (Alike sendKeysGrammar.takes parseSendKeys c ↔
      '-' ∉ c.flags sendKeysGrammar.takes ∧
        ('l' ∈ c.flags sendKeysGrammar.takes → c.text = ['l'] ∨ SendKeysRefuses c)) ∧
    (Alike capturePaneGrammar.takes parseCapturePaneArgs c ↔
      '-' ∉ c.flags capturePaneGrammar.takes) ∧
    (Alike splitWindowGrammar.takes parseSplitWindow c ↔
      '-' ∉ c.flags splitWindowGrammar.takes ∧
        ('v' ∈ c.flags splitWindowGrammar.takes →
          lastDirection (c.flags splitWindowGrammar.takes) = some 'h' → SplitWindowRefuses c)) ∧
    (Alike newSessionGrammar.takes parseNewSessionArgs c ↔ '-' ∉ c.flags newSessionGrammar.takes) ∧
    (Alike displayMessageGrammar.takes parseDisplayMessage c ↔
      '-' ∉ c.flags displayMessageGrammar.takes) ∧
    (∀ rest extraValueFlags booleanValueOverrides,
      flagArgWidthWithExtraAndBooleanOverrides c.arg rest extraValueFlags booleanValueOverrides = 2 ↔
        ∃ flag pos value,
          c.valueFlag (valueFlags extraValueFlags booleanValueOverrides) = some (flag, []) ∧
          shortClusterFlagValueWithExtraAndBooleanOverrides c.arg flag rest extraValueFlags
            booleanValueOverrides = some (pos, some value) ∧ rest.head? = some value) ∧
    ExactWidth sendKeysGrammar.takes (targetTurn sendKeysValueFlags) c ∧
    ExactWidth sendKeysGrammar.takes sendKeysTurn c ∧
    ExactWidth capturePaneGrammar.takes capturePaneTurn c ∧
    ExactWidth splitWindowGrammar.takes splitWindowTurn c ∧
    ExactWidth newSessionGrammar.takes newSessionTurn c ∧
    ExactWidth displayMessageGrammar.takes displayMessageTurn c :=
  ⟨sendKeys_alike c, capturePane_alike c, splitWindow_alike c, newSession_alike c,
    displayMessage_alike c, fun rest extra overrides => flagArgWidth_eq_two c rest extra overrides,
    exactWidth sendKeysTarget_conforms c, exactWidth sendKeys_conforms c,
    exactWidth capturePane_conforms c, exactWidth splitWindow_conforms c,
    exactWidth newSession_conforms c, exactWidth displayMessage_conforms c⟩

/-- `send-keys -lN3 Enter` sends three returns, `send-keys -l -N 3 Enter` the word three times; and
`split-window -vh` splits the other way than `split-window -v -h`. -/
theorem clustered_literal :
    ¬ Alike sendKeysGrammar.takes parseSendKeys ⟨['l', 'N', '3'], by decide, by decide⟩ ∧
      ¬ Alike splitWindowGrammar.takes parseSplitWindow ⟨['v', 'h'], by decide, by decide⟩ := by
  constructor
  · intro halike
    exact absurd (congrArg (fun result => result.map fun parsed => parsed.2.literal)
      (halike [] ["Enter".toList] .start)) (by decide)
  · intro halike
    exact absurd (congrArg (fun result => result.map SplitWindowArgs.horizontal)
      (halike [] [] .start)) (by decide)

end LightTerminal.Tmux.ClusteredFlags
