import LightTerminal.Server.AttachThreads

/-! # Sizes and attaching

The functions that apply a size, and those that attach and detach a client. Under both guards a thread
knows all that they protect, and each step of it leads from one known state to the next (`Knows`). At
the end all functions are put together (`triple_program`). -/

namespace LightTerminal.Server.Attach

open LightTerminal.Library.Interleave LightTerminal.Library.Procedure
open LightTerminal.Output.Ring LightTerminal.Output.NormalScreen

variable {Parser Screen : Type} {emulator : Emulator Parser Screen} {initial : Geometry}
  {thread : ℕ} {s s' : Session Parser Screen}

/-! ### Sizes -/

/-- Something else was recorded last. -/
theorem Core.applied_of_trail {core : Core Parser Screen} {record : Record} {trail : List Record}
    (h : core.trail = record :: trail) (hrecord : ∀ source, record ≠ .applied source) :
    core.Applied emulator initial := by
  refine ⟨fun source trail' htrail => ?_, fun id trail' htrail => ?_⟩
  · rw [h] at htrail
    exact absurd (List.cons.inj htrail).1 (hrecord source)
  · rw [h] at htrail
    exact absurd (List.cons.inj htrail).1 (hrecord (.attach id))

/-- A step under both guards that leaves the subscribers, the ring and the output as they are. -/
structure Core.Quiet (emulator : Emulator Parser Screen) (thread : ℕ)
    (core core' : Core Parser Screen) : Prop where
  ring : core'.ring = core.ring
  history : ∃ more, core'.history = core.history ++ more ∧ outputs more = []
  terminal : core'.terminalParserDegraded = false → core.terminalParserDegraded = false ∧
    (core.terminal = terminalAfter emulator core.history →
      core'.terminal = terminalAfter emulator core'.history)
  subscribers : core'.subscribers = core.subscribers
  next : core'.nextSubscriberId = core.nextSubscriberId
  cuts : core'.cuts = core.cuts
  trail : ∃ records, core'.trail = records ++ core.trail ∧
    ∀ other geometry, .sized other geometry ∈ records → other = thread

theorem Core.Quiet.refl (core : Core Parser Screen) : core.Quiet emulator thread core :=
  ⟨rfl, ⟨[], (List.append_nil _).symm, rfl⟩, fun h => ⟨h, id⟩, rfl, rfl, rfl,
    ⟨[], rfl, fun _ _ h => (nomatch h)⟩⟩

/-- A record is added. -/
theorem Core.Quiet.record (core : Core Parser Screen) (record : Record)
    (h : ∀ other geometry, record = .sized other geometry → other = thread) :
    core.Quiet emulator thread { core with trail := record :: core.trail } :=
  ⟨rfl, ⟨[], (List.append_nil _).symm, rfl⟩, fun h => ⟨h, id⟩, rfl, rfl, rfl, ⟨[record], rfl,
    fun other geometry hmem => h other geometry (List.mem_singleton.mp hmem).symm⟩⟩

theorem Core.Quiet.trans {a b c : Core Parser Screen} (h : a.Quiet emulator thread b)
    (h' : b.Quiet emulator thread c) : a.Quiet emulator thread c := by
  obtain ⟨more, hmore, hsilent⟩ := h.history
  obtain ⟨more', hmore', hsilent'⟩ := h'.history
  obtain ⟨records, hrecords, hsized⟩ := h.trail
  obtain ⟨records', hrecords', hsized'⟩ := h'.trail
  refine ⟨h'.ring.trans h.ring, ⟨more ++ more', ?_, ?_⟩, fun hdegraded => ?_,
    h'.subscribers.trans h.subscribers, h'.next.trans h.next, h'.cuts.trans h.cuts,
    ⟨records' ++ records, ?_, fun other geometry hmem => ?_⟩⟩
  · rw [hmore', hmore, List.append_assoc]
  · rw [outputs_append, hsilent, hsilent', List.append_nil]
  · obtain ⟨hdegraded', hterminal'⟩ := h'.terminal hdegraded
    obtain ⟨hdegraded, hterminal⟩ := h.terminal hdegraded'
    exact ⟨hdegraded, fun hcore => hterminal' (hterminal hcore)⟩
  · rw [hrecords', hrecords, List.append_assoc]
  · rcases List.mem_append.mp hmem with hmem | hmem
    · exact hsized' other geometry hmem
    · exact hsized other geometry hmem

theorem inv_quiet (h : Inv emulator initial s) {core' : Core Parser Screen}
    (hgeometry : s.locks .geometryApply ≠ none) (houtput : s.locks .outputState ≠ none)
    (hquiet : s.toCore.Quiet emulator thread core') (happlied : core'.Applied emulator initial) :
    Inv emulator initial { s with toCore := core' } := by
  obtain ⟨more, hmore, hsilent⟩ := hquiet.history
  obtain ⟨records, hrecords, -⟩ := hquiet.trail
  have houtputs : outputs core'.history = outputs s.history := by
    rw [hmore, outputs_append, hsilent, List.append_nil]
  have hchunks {id : ℕ} {cut : Cut} (hcut : s.cuts id = some cut) :
      cut.chunks core'.history = cut.chunks s.history := by
    rw [hmore, Cut.chunks_append (h.delivery.history id cut hcut), hsilent, List.append_nil]
  refine ⟨⟨?_, fun hdegraded => ?_⟩, h.membership.frame hquiet.subscribers hquiet.cuts hquiet.next
    (fun id hid => ?_) rfl rfl, ⟨?_, ?_, ?_, ?_, ?_, h.delivery.owingOnce, h.delivery.idle⟩,
    ⟨fun hfree => absurd hfree houtput, fun hfree => absurd hfree hgeometry, happlied.applied,
      happlied.formatted⟩⟩
  · rw [hquiet.ring, houtputs]
    exact h.screens.ring
  · obtain ⟨hdegraded, hterminal⟩ := hquiet.terminal hdegraded
    exact hterminal (h.screens.terminal hdegraded)
  · rw [hrecords]
    exact List.mem_append_right _ hid
  · intro id cut hcut
    rw [hquiet.cuts] at hcut
    rw [hmore]
    exact (h.delivery.history id cut hcut).trans (List.prefix_append _ _)
  · intro id cut hcut
    rw [hquiet.cuts] at hcut
    exact h.delivery.snapshot id cut hcut
  · intro id cut hcut
    rw [hquiet.cuts] at hcut
    rw [hchunks hcut]
    exact h.delivery.sent id cut hcut
  · intro sub hsub hnot cut hcut
    rw [hquiet.subscribers] at hsub
    rw [hquiet.cuts] at hcut
    rw [hchunks hcut]
    exact h.delivery.delivered sub hsub hnot cut hcut
  · intro id hid
    obtain ⟨cut, chunk, hcut, hlatest, hall⟩ := h.delivery.owing id hid
    exact ⟨cut, chunk, by rw [hquiet.cuts]; exact hcut, by rw [houtputs]; exact hlatest,
      by rw [hchunks hcut]; exact hall⟩

/-- A quiet step: what is known afterwards. -/
theorem triple_quiet {α : Type} {f : Input → Core Parser Screen → α × Core Parser Screen}
    {core : Core Parser Screen}
    (h : ∀ input, core.Quiet emulator thread (f input core).2 ∧
      (core.Applied emulator initial → (f input core).2.Applied emulator initial)) :
    Triple (discipline emulator initial) thread (Knows thread core) (onCore f) fun a s =>
      ∃ input, a = (f input core).1 ∧ Knows thread (f input core).2 s := by
  refine triple_action (stable_knows core)
    (fun a => stable_exists fun input => stable_pure (stable_knows _)) fun s input hinv hs => ?_
  have hgeometry : s.locks .geometryApply = some thread := hs.geometry
  have houtput : s.locks .outputState = some thread := hs.output
  obtain ⟨hquiet, happlied⟩ := h input
  obtain ⟨more, hmore, hsilent⟩ := hquiet.history
  obtain ⟨records, hrecords, hsized⟩ := hquiet.trail
  have hcore := hs.core
  subst hcore
  refine ⟨inv_quiet hinv (by rw [hgeometry]; exact Option.some_ne_none _)
    (by rw [houtput]; exact Option.some_ne_none _) hquiet
    (happlied hinv.sizes.appliedCore), ?_, input, rfl, hgeometry, houtput, rfl⟩
  refine ⟨fun _ => Or.inl rfl, fun hnot => absurd hgeometry hnot, fun hnot => absurd houtput hnot,
    fun hnot => absurd hgeometry hnot, fun _ => ⟨rfl, ?_⟩, fun _ _ _ => Iff.rfl,
    fun _ _ _ => Iff.rfl, fun other hother geometry hmem => ?_, fun id cut hcut _ => ?_,
    fun id hid => Or.inl ?_⟩
  · show outputs (f input s.toCore).2.history = _
    rw [hmore, outputs_append, hsilent, List.append_nil]
  · rw [hrecords] at hmem
    rcases List.mem_append.mp hmem with hmem | hmem
    · exact absurd (hsized other geometry hmem) hother
    · exact hmem
  · rwa [hquiet.cuts] at hcut
  · rwa [hquiet.subscribers] at hid

/-- What `resize_terminal_screen` does. -/
theorem Core.follows_resize (core : Core Parser Screen) (panics : Bool) (geometry : Geometry) :
    core.Follows (core.resizeTerminalScreen emulator panics geometry) ∧
      core.Quiet emulator thread (core.resizeTerminalScreen emulator panics geometry) ∧
      ((core.resizeTerminalScreen emulator panics geometry).terminalParserDegraded = false →
        (core.resizeTerminalScreen emulator panics geometry).terminal.terminalScreen =
          emulator.setSize core.terminal.terminalScreen geometry.rows geometry.cols) := by
  have htrail : ∃ records, core.trail = records ++ core.trail ∧
      ∀ other geometry, Record.sized other geometry ∈ records → other = thread :=
    ⟨[], rfl, fun _ _ h => (nomatch h)⟩
  have hhistory : ∃ more, core.history = core.history ++ more ∧ outputs more = [] :=
    ⟨[], (List.append_nil _).symm, rfl⟩
  unfold Core.resizeTerminalScreen
  split_ifs with hdegraded hpanics
  · exact ⟨⟨rfl, rfl, rfl, rfl, rfl, rfl, rfl⟩, Core.Quiet.refl core,
      fun h => by rw [hdegraded] at h; cases h⟩
  · exact ⟨⟨rfl, rfl, rfl, rfl, rfl, rfl, rfl⟩,
      ⟨rfl, hhistory, (nomatch ·), rfl, rfl, rfl, htrail⟩, (nomatch ·)⟩
  · obtain ⟨hfollows, hring, hsame, hterminal⟩ := Core.follows_advance { core with
      terminal := { core.terminal with
        terminalScreen :=
          emulator.setSize core.terminal.terminalScreen geometry.rows geometry.cols }
      history := core.history ++ [.resize geometry] }
    refine ⟨⟨hfollows.rows, hfollows.cols, hfollows.master, hfollows.subscribers, hfollows.next,
      hfollows.cuts, hfollows.trail⟩, ⟨hring, ⟨[.resize geometry], hsame, rfl⟩, fun h => ?_,
      hfollows.subscribers, hfollows.next, hfollows.cuts, ?_⟩, fun h => ?_⟩
    · refine ⟨(hterminal h).1, fun hcore => ?_⟩
      rw [(hterminal h).2, hsame, terminalAfter_concat, ← hcore]
      rfl
    · rw [hfollows.trail]
      exact htrail
    · rw [(hterminal h).2]

/-- What applying a size comes to. -/
structure Resized (emulator : Emulator Parser Screen) (initial : Geometry) (thread : ℕ)
    (source : Source) (geometry : Geometry) (core core' : Core Parser Screen)
    (result : Except ResizeError Unit) : Prop where
  agree : core'.Agree emulator initial
  subscribers : core'.subscribers = core.subscribers
  cuts : core'.cuts = core.cuts
  ok : result = .ok () → core'.size = geometry ∧
    core'.trail = .applied source :: .sized thread geometry :: core.trail
  error : ∀ e, result = .error e → core'.size = core.size ∧
    core'.trail = .failed source :: core.trail

/-- A geometry that may be applied for a source. -/
structure Suits (initial : Geometry) (core : Core Parser Screen) (source : Source)
    (geometry : Geometry) : Prop where
  smallest : source ≠ .forced → IsSmallest core.subscribers geometry
  valid : initial.Valid → geometry.Valid
  formatted : ∀ id, source = .attach id → ∀ cut, core.cuts id = some cut →
    cut.formatted = geometry

/-- The clamp that was just applied. -/
theorem Core.applied_of_suits {core core' : Core Parser Screen} {source : Source}
    {geometry : Geometry} {trail : List Record} (hsuits : Suits initial core source geometry)
    (hsubscribers : core'.subscribers = core.subscribers) (hcuts : core'.cuts = core.cuts)
    (hsize : core'.size = geometry) (hagree : core'.Agree emulator initial)
    (htrail : core'.trail = .applied source :: trail) : core'.Applied emulator initial := by
  refine ⟨fun source' trail' htrail' hsource _ => ⟨hagree, ?_⟩, fun id trail' htrail' cut hcut => ?_⟩
  · rw [htrail, List.cons.injEq, Record.applied.injEq] at htrail'
    rw [hsubscribers, hsize]
    exact hsuits.smallest (htrail'.1 ▸ hsource)
  · rw [htrail, List.cons.injEq, Record.applied.injEq] at htrail'
    rw [hcuts] at hcut
    rw [hsize]
    exact hsuits.formatted id htrail'.1 cut hcut

/-- A session whose pseudo terminal, rows and columns have a size. -/
def Core.sizedTo (thread : ℕ) (geometry : Geometry) (core : Core Parser Screen) :
    Core Parser Screen :=
  { core with
    master := geometry
    rows := geometry.rows
    cols := geometry.cols
    trail := .sized thread geometry :: core.trail }

/-- A session to which a size was applied. -/
def Core.appliedTo (emulator : Emulator Parser Screen) (thread : ℕ) (source : Source)
    (panics : Bool) (geometry : Geometry) (core : Core Parser Screen) : Core Parser Screen :=
  let core := (core.sizedTo thread geometry).resizeTerminalScreen emulator panics geometry
  { core with trail := .applied source :: core.trail }

theorem Core.appliedTo_facts {core : Core Parser Screen} {source : Source} {geometry : Geometry}
    {panics : Bool} (hsuits : Suits initial core source geometry) :
    let core' := core.appliedTo emulator thread source panics geometry
    core'.size = geometry ∧ core'.subscribers = core.subscribers ∧ core'.cuts = core.cuts ∧
      core'.trail = .applied source :: .sized thread geometry :: core.trail ∧
      core'.Agree emulator initial := by
  obtain ⟨hfollows, -, hparser⟩ := @Core.follows_resize _ _ emulator thread
    (core.sizedTo thread geometry) panics geometry
  have hsize : (core.appliedTo emulator thread source panics geometry).size = geometry :=
    congrArg₂ Geometry.mk hfollows.rows hfollows.cols
  have htrail : (core.appliedTo emulator thread source panics geometry).trail =
      .applied source :: .sized thread geometry :: core.trail :=
    congrArg (Record.applied source :: ·) hfollows.trail
  refine ⟨hsize, hfollows.subscribers, hfollows.cuts, htrail, ?_, fun hkeeps hdegraded => ?_,
    fun hvalid => ?_, ?_⟩
  · exact hfollows.master.trans hsize.symm
  · have hscreen := congrArg emulator.size (hparser hdegraded)
    rw [hkeeps.setSize] at hscreen
    exact hscreen.trans (congrArg₂ Prod.mk hfollows.rows.symm hfollows.cols.symm)
  · rw [hsize]
    exact hsuits.valid hvalid
  · rw [htrail, hsize]
    rfl

theorem triple_applyPtySizeUnderOutputGuard {source : Source} {geometry : Geometry}
    {core : Core Parser Screen} (hagree : core.Agree emulator initial)
    (hsuits : Suits initial core source geometry) :
    Triple (discipline emulator initial) thread (Knows thread core)
      (applyPtySizeUnderOutputGuard emulator thread source geometry) fun result s =>
        ∃ core', Resized emulator initial thread source geometry core core' result ∧
          Knows thread core' s := by
  have hstable (result : Except ResizeError Unit) : Stable (discipline emulator initial) thread
      fun s => ∃ core', Resized emulator initial thread source geometry core core' result ∧
        Knows thread core' s :=
    stable_exists fun core' => stable_pure (stable_knows core')
  refine triple_bind (triple_quiet fun input => ?_) fun resized =>
    triple_exists fun input => triple_pure fun hresized => ?_
  · split_ifs
    · exact ⟨Core.Quiet.record core _ fun _ _ h => (nomatch h),
        fun _ => Core.applied_of_trail rfl fun _ h => (nomatch h)⟩
    · refine ⟨⟨rfl, ⟨[], (List.append_nil _).symm, rfl⟩, fun h => ⟨h, id⟩, rfl, rfl, rfl,
        ⟨[.sized thread geometry], rfl, fun other geometry' hmem => ?_⟩⟩,
        fun _ => Core.applied_of_trail rfl fun _ h => (nomatch h)⟩
      rw [List.mem_singleton] at hmem
      cases hmem
      rfl
  · subst hresized
    cases hfails : input.fails with
    | true =>
      refine triple_ret (hstable _) fun s _ hs =>
        ⟨{ core with trail := .failed source :: core.trail }, ⟨?_, rfl, rfl, (nomatch ·),
          fun _ _ => ⟨rfl, rfl⟩⟩, ?_⟩
      · exact ⟨hagree.master, hagree.parser, hagree.valid, hagree.sized⟩
      · simpa [hfails] using hs
    | false =>
      simp only [Bool.false_eq_true, if_false, if_true]
      -- the rows, the columns and the parser follow the pseudo terminal
      refine triple_bind (triple_quiet fun _ => ⟨?_, fun _ => Core.applied_of_trail rfl
        fun _ h => (nomatch h)⟩) fun _ => triple_exists fun _ => triple_pure fun _ => ?_
      · exact ⟨rfl, ⟨[], (List.append_nil _).symm, rfl⟩, fun h => ⟨h, id⟩, rfl, rfl, rfl,
          ⟨[], rfl, fun _ _ h => (nomatch h)⟩⟩
      refine triple_bind (triple_quiet fun _ => ⟨?_, fun _ => Core.applied_of_trail rfl
        fun _ h => (nomatch h)⟩) fun _ => triple_exists fun _ => triple_pure fun _ => ?_
      · exact ⟨rfl, ⟨[], (List.append_nil _).symm, rfl⟩, fun h => ⟨h, id⟩, rfl, rfl, rfl,
          ⟨[], rfl, fun _ _ h => (nomatch h)⟩⟩
      refine triple_bind (triple_quiet fun input => ⟨?_, fun _ => ?_⟩) fun _ =>
        triple_exists fun input => triple_pure fun _ => triple_ret (hstable _) fun s _ hs => ?_
      · obtain ⟨-, hquiet, -⟩ := @Core.follows_resize _ _ emulator thread
          (core.sizedTo thread geometry) input.fails geometry
        exact hquiet.trans (Core.Quiet.record _ _ fun _ _ h => (nomatch h))
      · obtain ⟨hsize, hsubscribers, hcuts, htrail, hagree'⟩ :=
          @Core.appliedTo_facts _ _ _ _ thread _ _ _ input.fails hsuits
        exact Core.applied_of_suits hsuits hsubscribers hcuts hsize hagree' htrail
      · obtain ⟨hsize, hsubscribers, hcuts, htrail, hagree'⟩ :=
          @Core.appliedTo_facts _ _ _ _ thread _ _ _ input.fails hsuits
        exact ⟨core.appliedTo emulator thread source input.fails geometry,
          ⟨hagree', hsubscribers, hcuts, fun _ => ⟨hsize, htrail⟩, fun _ h => (nomatch h)⟩, hs⟩

/-- What a clamp comes to. -/
structure Clamped (emulator : Emulator Parser Screen) (initial : Geometry) (source : Source)
    (core core' : Core Parser Screen) (result : Except ResizeError Unit) : Prop where
  agree : core'.Agree emulator initial
  subscribers : core'.subscribers = core.subscribers
  cuts : core'.cuts = core.cuts
  ok : result = .ok () → core'.Clean
  error : ∀ e, result = .error e → core'.size = core.size ∧
    core'.trail = .failed source :: core.trail

theorem suits_of_clamp {core : Core Parser Screen} {source : Source} {geometry : Geometry}
    (hclamp : clampToSmallest core.subscribers = some geometry)
    (hvalid : ∀ sub ∈ core.subscribers, sub.geometry.Valid)
    (hformatted : ∀ id, source = .attach id → ∀ cut, core.cuts id = some cut →
      clampToSmallest core.subscribers = some cut.formatted) :
    Suits initial core source geometry where
  smallest _ := isSmallest_clampToSmallest hclamp
  valid _ := (isSmallest_clampToSmallest hclamp).valid hvalid
  formatted id hsource cut hcut := by
    have hsame := hformatted id hsource cut hcut
    rw [hclamp, Option.some.injEq] at hsame
    exact hsame.symm

/-- A record of the trail that says nothing of the size keeps what agrees. -/
theorem Core.Agree.record {core : Core Parser Screen} (h : core.Agree emulator initial)
    {record : Record} (hrecord : lastSized initial (record :: core.trail) =
      lastSized initial core.trail) :
    ({ core with trail := record :: core.trail } : Core Parser Screen).Agree emulator initial :=
  ⟨h.master, h.parser, h.valid, hrecord.trans h.sized⟩

theorem triple_applyClampedPtySizeUnderOutputGuard {source : Source} {core : Core Parser Screen}
    (hagree : core.Agree emulator initial)
    (hvalid : ∀ sub ∈ core.subscribers, sub.geometry.Valid)
    (hformatted : ∀ id, source = .attach id → ∀ cut, core.cuts id = some cut →
      clampToSmallest core.subscribers = some cut.formatted) :
    Triple (discipline emulator initial) thread (Knows thread core)
      (applyClampedPtySizeUnderOutputGuard emulator thread source) fun result s =>
        ∃ core', Clamped emulator initial source core core' result ∧ Knows thread core' s := by
  have hstable (result : Except ResizeError Unit) : Stable (discipline emulator initial) thread
      fun s => ∃ core', Clamped emulator initial source core core' result ∧ Knows thread core' s :=
    stable_exists fun core' => stable_pure (stable_knows core')
  cases hclamp : clampToSmallest core.subscribers with
  | none =>
    have hnobody : core.subscribers = [] := by
      cases hsubscribers : core.subscribers with
      | nil => rfl
      | cons first rest =>
        rw [hsubscribers] at hclamp
        cases hclamp
    refine triple_bind (triple_quiet fun input => ?_) fun target =>
      triple_exists fun input => triple_pure fun htarget => ?_
    · simp only [hclamp]
      refine ⟨Core.Quiet.record core _ fun _ _ h => (nomatch h),
        fun _ => ⟨fun _ _ _ _ hne => absurd hnobody hne, fun id trail htrail cut hcut => ?_⟩⟩
      rw [List.cons.injEq, Record.applied.injEq] at htrail
      have hsome := hformatted id htrail.1 cut hcut
      rw [hclamp] at hsome
      cases hsome
    · simp only [hclamp] at htarget ⊢
      subst htarget
      exact triple_ret (hstable _) fun s _ hs =>
        ⟨{ core with trail := .applied source :: core.trail }, ⟨hagree.record rfl, rfl, rfl,
          fun _ => Or.inl hnobody, fun _ h => (nomatch h)⟩, hs⟩
  | some geometry =>
    have hsuits : Suits initial core source geometry := suits_of_clamp hclamp hvalid hformatted
    refine triple_bind (triple_quiet fun input => ?_) fun target =>
      triple_exists fun input => triple_pure fun htarget => ?_
    · simp only [hclamp]
      exact ⟨Core.Quiet.refl core, id⟩
    simp only [hclamp] at htarget ⊢
    subst htarget
    by_cases hcurrent : core.rows = geometry.rows ∧ core.cols = geometry.cols
    · have hsize : core.size = geometry := congrArg₂ Geometry.mk hcurrent.1 hcurrent.2
      refine triple_bind (triple_quiet fun input => ?_) fun current =>
        triple_exists fun input => triple_pure fun heq => ?_
      · simp only [if_pos hcurrent]
        exact ⟨Core.Quiet.record core _ fun _ _ h => (nomatch h),
          fun _ => Core.applied_of_suits hsuits rfl rfl hsize (hagree.record rfl) rfl⟩
      · simp only [if_pos hcurrent] at heq ⊢
        subst heq
        refine triple_ret (hstable _) fun s _ hs =>
          ⟨{ core with trail := .applied source :: core.trail }, ⟨hagree.record rfl, rfl, rfl,
            fun _ => Or.inr (Or.inl ?_), fun _ h => (nomatch h)⟩, hs⟩
        show IsSmallest core.subscribers core.size
        rw [hsize]
        exact isSmallest_clampToSmallest hclamp
    · refine triple_bind (triple_quiet fun input => ?_) fun current =>
        triple_exists fun input => triple_pure fun heq => ?_
      · simp only [if_neg hcurrent]
        exact ⟨Core.Quiet.refl core, id⟩
      · simp only [if_neg hcurrent] at heq ⊢
        subst heq
        refine (triple_applyPtySizeUnderOutputGuard hagree hsuits).mono fun result s hs => ?_
        obtain ⟨core', hresized, hknows⟩ := hs
        refine ⟨core', ⟨hresized.agree, hresized.subscribers, hresized.cuts, fun hok => ?_,
          hresized.error⟩, hknows⟩
        rw [Core.Clean, hresized.subscribers, (hresized.ok hok).1]
        exact Or.inr (Or.inl (isSmallest_clampToSmallest hclamp))

/-! ### Attaching -/

/-- The ring is empty as long as there was no output. -/
theorem Core.Screens.ring_eq_nil {core : Core Parser Screen} (h : core.Screens emulator) :
    core.ring = [] ↔ (outputs core.history).flatten = [] := by
  have hlimit : 0 < ringLimit := by
    unfold ringLimit
    decide
  have hlength := length_retained (outputs core.history).flatten
  rw [h.ring, ← List.length_eq_zero_iff, ← List.length_eq_zero_iff, hlength]
  omega

/-- What the snapshot of an attach comes to. -/
structure Snapped (emulator : Emulator Parser Screen) (initial : Geometry) (thread : ℕ)
    (geometry : Geometry) (core core' : Core Parser Screen)
    (chunk : Geometry × Option OutputChunk) : Prop where
  agree : core'.Agree emulator initial
  follows : core.Follows core'
  formatted : chunk.1 = clampToSmallestWithCandidate core.subscribers geometry
  snapshot : chunk.2 = (⟨thread, core'.history, core'.terminalParserDegraded, chunk.1,
    chunk.2⟩ : Cut).snapshotAfter emulator

theorem Core.follows_degrade (core : Core Parser Screen) : core.Follows core.degrade :=
  ⟨rfl, rfl, rfl, rfl, rfl, rfl, rfl⟩

theorem Core.quiet_degrade (core : Core Parser Screen) :
    core.Quiet emulator thread core.degrade :=
  ⟨rfl, ⟨[], (List.append_nil _).symm, rfl⟩, (nomatch ·), rfl, rfl, rfl,
    ⟨[], rfl, fun _ _ h => (nomatch h)⟩⟩

theorem Core.Follows.agree_degraded {core core' : Core Parser Screen} (h : core.Follows core')
    (hdegraded : core'.terminalParserDegraded = true) (hagree : core.Agree emulator initial) :
    core'.Agree emulator initial :=
  h.agree (fun _ hnot => by rw [hdegraded] at hnot; cases hnot) hagree

/-- What `initial_screen_state_snapshot` does after some output. -/
theorem Core.follows_snapshot {core : Core Parser Screen} (hscreens : core.Screens emulator)
    (houtput : (outputs core.history).flatten ≠ []) (panics : Bool) (formatted : Geometry) :
    let snapped := core.initialScreenStateSnapshot emulator panics formatted
    core.Follows snapped.2 ∧ core.Quiet emulator thread snapped.2 ∧
      (core.Agree emulator initial → snapped.2.Agree emulator initial) ∧
      snapped.1 = (⟨thread, snapped.2.history, snapped.2.terminalParserDegraded, formatted,
        snapped.1⟩ : Cut).snapshotAfter emulator := by
  unfold Core.initialScreenStateSnapshot Cut.snapshotAfter
  split_ifs with hdegraded hpanics
  · exact ⟨⟨rfl, rfl, rfl, rfl, rfl, rfl, rfl⟩, Core.Quiet.refl core, id,
      (if_pos (Or.inr hdegraded)).symm⟩
  · exact ⟨core.follows_degrade, core.quiet_degrade, core.follows_degrade.agree_degraded rfl,
      (if_pos (Or.inr rfl)).symm⟩
  · refine ⟨⟨rfl, rfl, rfl, rfl, rfl, rfl, rfl⟩, Core.Quiet.refl core, id, ?_⟩
    simp only [houtput, hdegraded, Bool.false_eq_true, or_self, if_false]
    rw [hscreens.terminal (Bool.eq_false_iff.mpr hdegraded)]

theorem triple_initialChunk {geometry : Geometry} {core : Core Parser Screen}
    (hagree : core.Agree emulator initial) (hscreens : core.Screens emulator) :
    Triple (discipline emulator initial) thread (Knows thread core)
      (initialChunk emulator geometry) fun chunk s =>
        ∃ core', Snapped emulator initial thread geometry core core' chunk ∧
          Knows thread core' s := by
  have hstable (chunk : Geometry × Option OutputChunk) : Stable (discipline emulator initial)
      thread fun s => ∃ core', Snapped emulator initial thread geometry core core' chunk ∧
        Knows thread core' s :=
    stable_exists fun core' => stable_pure (stable_knows core')
  refine triple_bind (triple_look (Q := fun hasOutput s =>
    hasOutput = !core.ring.isEmpty ∧ Knows thread core s) (stable_knows core)
    (fun _ => stable_pure (stable_knows core)) fun s _ hs => ⟨by rw [hs.core], hs⟩)
    fun hasOutput => triple_pure fun hhas => ?_
  refine triple_bind (triple_look (Q := fun formatted s =>
    formatted = clampToSmallestWithCandidate core.subscribers geometry ∧ Knows thread core s)
    (stable_knows core) (fun _ => stable_pure (stable_knows core))
    fun s _ hs => ⟨by rw [hs.core], hs⟩) fun formatted => triple_pure fun hformatted => ?_
  cases hasOutput with
  | false =>
    have hnothing : (outputs core.history).flatten = [] := by
      rw [← hscreens.ring_eq_nil, ← List.isEmpty_iff]
      simpa using hhas.symm
    refine triple_ret (hstable _) fun s _ hs => ⟨core, ⟨hagree, ⟨rfl, rfl, rfl, rfl, rfl, rfl, rfl⟩,
      hformatted, ?_⟩, hs⟩
    rw [Cut.snapshotAfter, if_pos (Or.inl hnothing)]
  | true =>
    have houtput : (outputs core.history).flatten ≠ [] := by
      rw [Ne, ← hscreens.ring_eq_nil, ← List.isEmpty_iff]
      simpa using hhas.symm
    have hsnapped (panics : Bool) := @Core.follows_snapshot _ _ _ initial thread _
      hscreens houtput panics formatted
    simp only [if_true]
    refine triple_bind (triple_quiet fun input => ?_) fun snapshot =>
      triple_exists fun input => triple_pure fun hsnapshot =>
        triple_ret (hstable _) fun s _ hs => ?_
    · obtain ⟨hfollows, hquiet, hkept, -⟩ := hsnapped input.fails
      exact ⟨hquiet, hfollows.applied hkept⟩
    · obtain ⟨hfollows, -, hkept, hafter⟩ := hsnapped input.fails
      rw [← hsnapshot] at hafter
      exact ⟨_, ⟨hkept hagree, hfollows, hformatted, hafter⟩, hs⟩

theorem Channel.trySend_new (chunk : OutputChunk) :
    Channel.trySend {} chunk = (.ok, { sent := [chunk] }) := by
  simp only [Channel.trySend, subscriberQueueLimit]
  rfl

/-- A session with a new subscriber. -/
def Core.subscribed (thread : ℕ) (geometry formatted : Geometry) (chunk : Option OutputChunk)
    (core : Core Parser Screen) : Core Parser Screen :=
  { core with
    nextSubscriberId := core.nextSubscriberId + 1
    subscribers := core.subscribers ++ [⟨core.nextSubscriberId, geometry⟩]
    cuts := Function.update core.cuts core.nextSubscriberId
      (some ⟨thread, core.history, core.terminalParserDegraded, formatted, chunk⟩)
    trail := .subscribed core.nextSubscriberId :: core.trail }

section Subscribed

variable (geometry formatted : Geometry) (chunk : Option OutputChunk)

/-- A session with a new subscriber and its channel. -/
def subscribedSession (thread : ℕ) (s : Session Parser Screen) : Session Parser Screen :=
  { s with
    toCore := s.toCore.subscribed thread geometry formatted chunk
    channels := Function.update s.channels s.nextSubscriberId { sent := chunk.toList } }

variable {geometry formatted chunk} {id : ℕ}

theorem Core.subscribed_cuts {core : Core Parser Screen} (hid : id ≠ core.nextSubscriberId) :
    (core.subscribed thread geometry formatted chunk).cuts id = core.cuts id :=
  Function.update_of_ne hid ..

theorem Core.subscribed_cuts_self {core : Core Parser Screen} :
    (core.subscribed thread geometry formatted chunk).cuts core.nextSubscriberId =
      some ⟨thread, core.history, core.terminalParserDegraded, formatted, chunk⟩ :=
  Function.update_self ..

theorem subscribedSession_cuts (hid : id ≠ s.nextSubscriberId) :
    (subscribedSession geometry formatted chunk thread s).cuts id = s.cuts id :=
  Core.subscribed_cuts hid

theorem subscribedSession_cuts_self :
    (subscribedSession geometry formatted chunk thread s).cuts s.nextSubscriberId =
      some ⟨thread, s.history, s.terminalParserDegraded, formatted, chunk⟩ :=
  Core.subscribed_cuts_self

theorem subscribedSession_channels (hid : id ≠ s.nextSubscriberId) :
    (subscribedSession geometry formatted chunk thread s).channels id = s.channels id :=
  Function.update_of_ne hid ..

theorem subscribedSession_channels_self :
    ((subscribedSession geometry formatted chunk thread s).channels s.nextSubscriberId).sent =
      chunk.toList := by
  have hchannel : (subscribedSession geometry formatted chunk thread s).channels
      s.nextSubscriberId = { sent := chunk.toList } := Function.update_self ..
  rw [hchannel]

theorem subscribedSession_ids :
    (subscribedSession geometry formatted chunk thread s).subscribers.map Subscriber.id =
      s.subscribers.map Subscriber.id ++ [s.nextSubscriberId] :=
  List.map_append

/-- The ids that were given away. -/
theorem Membership.id_lt (h : Membership s) (hid : id ∈ s.subscribers.map Subscriber.id) :
    id < s.nextSubscriberId := by
  obtain ⟨sub, hsub, rfl⟩ := List.mem_map.mp hid
  obtain ⟨cut, hcut⟩ := h.joined sub hsub
  exact h.fresh sub.id cut hcut

theorem Membership.subscribed (h : Membership s) (hgeometry : geometry.Valid)
    (hroom : ¬maxSubscribersPerSession ≤ s.subscribers.length) :
    Membership (subscribedSession geometry formatted chunk thread s) := by
  have hnew : s.nextSubscriberId ∉ s.subscribers.map Subscriber.id :=
    fun hmem => Nat.lt_irrefl _ (h.id_lt hmem)
  refine ⟨?_, ?_, fun sub hsub => ?_, fun id cut hcut => ?_, fun sub hsub => ?_,
    fun id cut hcut => ?_, fun id hid => ?_, h.evictedOnce, h.hooked, h.hookedOnce⟩
  · rw [subscribedSession_ids]
    exact List.nodup_append.mpr ⟨h.ids, List.nodup_singleton _, fun id hid other hother heq =>
      hnew (by rwa [heq, List.mem_singleton.mp hother] at hid)⟩
  · simp only [subscribedSession, Core.subscribed, List.length_append, List.length_singleton]
    omega
  · rcases List.mem_append.mp hsub with hsub | hsub
    · exact h.valid sub hsub
    · rw [List.mem_singleton.mp hsub]
      exact hgeometry
  · by_cases hid : id = s.nextSubscriberId
    · rw [hid]
      exact Nat.lt_succ_self _
    · rw [subscribedSession_cuts hid] at hcut
      exact (h.fresh id cut hcut).trans (Nat.lt_succ_self _)
  · rcases List.mem_append.mp hsub with hsub | hsub
    · rw [subscribedSession_cuts (h.id_lt (List.mem_map_of_mem hsub)).ne]
      exact h.joined sub hsub
    · rw [List.mem_singleton.mp hsub]
      exact ⟨_, subscribedSession_cuts_self⟩
  · rw [subscribedSession_ids, List.mem_append]
    by_cases hid : id = s.nextSubscriberId
    · exact Or.inl (Or.inr (List.mem_singleton.mpr hid))
    · rw [subscribedSession_cuts hid] at hcut
      exact (h.gone id cut hcut).imp Or.inl (Or.imp_right (List.mem_cons_of_mem _))
  · obtain ⟨⟨cut, hcut⟩, hnot⟩ := h.evicted id hid
    have hne : id ≠ s.nextSubscriberId := (h.fresh id cut hcut).ne
    rw [subscribedSession_cuts hne, subscribedSession_ids, List.mem_append, List.mem_singleton]
    exact ⟨⟨cut, hcut⟩, fun hmem => hmem.elim hnot hne⟩

theorem Delivery.subscribed (h : Delivery emulator s) (hmembership : Membership s)
    (hsnapshot : chunk = (⟨thread, s.history, s.terminalParserDegraded, formatted,
      chunk⟩ : Cut).snapshotAfter emulator) :
    Delivery emulator (subscribedSession geometry formatted chunk thread s) := by
  have hself : chunk.toList = (⟨thread, s.history, s.terminalParserDegraded, formatted,
      chunk⟩ : Cut).chunks s.history :=
    (@Cut.chunks_self ⟨thread, s.history, s.terminalParserDegraded, formatted, chunk⟩).symm
  refine ⟨fun id cut hid => ?_, fun id cut hid => ?_, fun id cut hid => ?_,
    fun sub hsub hnot cut hid => ?_, fun id howing => ?_, h.owingOnce, h.idle⟩
  · by_cases hne : id = s.nextSubscriberId
    · rw [hne, subscribedSession_cuts_self] at hid
      cases hid
      exact List.prefix_rfl
    · rw [subscribedSession_cuts hne] at hid
      exact h.history id cut hid
  · by_cases hne : id = s.nextSubscriberId
    · rw [hne, subscribedSession_cuts_self] at hid
      cases hid
      exact hsnapshot
    · rw [subscribedSession_cuts hne] at hid
      exact h.snapshot id cut hid
  · by_cases hne : id = s.nextSubscriberId
    · rw [hne, subscribedSession_cuts_self] at hid
      cases hid
      rw [hne, subscribedSession_channels_self]
      exact hself ▸ List.prefix_rfl
    · rw [subscribedSession_cuts hne] at hid
      rw [subscribedSession_channels hne]
      exact h.sent id cut hid
  · by_cases hne : sub.id = s.nextSubscriberId
    · rw [hne, subscribedSession_cuts_self] at hid
      cases hid
      rw [hne, subscribedSession_channels_self]
      exact hself
    · rw [subscribedSession_cuts hne] at hid
      rw [subscribedSession_channels hne]
      rcases List.mem_append.mp hsub with hsub | hsub
      · exact h.delivered sub hsub hnot cut hid
      · exact absurd (congrArg Subscriber.id (List.mem_singleton.mp hsub)) hne
  · obtain ⟨cut, latest, hid, hlatest, hchunks⟩ := h.owing id howing
    have hne : id ≠ s.nextSubscriberId := (hmembership.fresh id cut hid).ne
    exact ⟨cut, latest, by rw [subscribedSession_cuts hne]; exact hid, hlatest,
      by rw [subscribedSession_channels hne]; exact hchunks⟩

end Subscribed

/-- What `subscribe_locked` comes to. -/
structure Joined (thread : ℕ) (geometry formatted : Geometry) (chunk : Option OutputChunk)
    (core core' : Core Parser Screen) (result : Except AttachError ℕ) : Prop where
  error : ∀ e, result = .error e →
    core' = { core with nextSubscriberId := core.nextSubscriberId + 1 }
  ok : ∀ id, result = .ok id → id = core.nextSubscriberId ∧
    core' = core.subscribed thread geometry formatted chunk ∧
    ∀ sub ∈ core.subscribers, sub.id ≠ id

theorem triple_subscribeLocked {geometry formatted : Geometry} {chunk : Option OutputChunk}
    {core : Core Parser Screen} (hgeometry : geometry.Valid)
    (hsnapshot : chunk = (⟨thread, core.history, core.terminalParserDegraded, formatted,
      chunk⟩ : Cut).snapshotAfter emulator) :
    Triple (discipline emulator initial) thread (Knows thread core)
      (subscribeLocked thread geometry formatted chunk) fun result s =>
        ∃ core', Joined thread geometry formatted chunk core core' result ∧
          Knows thread core' s := by
  refine triple_action (stable_knows core)
    (fun a => stable_exists fun core' => stable_pure (stable_knows core')) fun s input hinv hs => ?_
  have hheld : s.locks .geometryApply = some thread := hs.geometry
  have houtput : s.locks .outputState = some thread := hs.output
  have hcore := hs.core
  subst hcore
  have hnew : ∀ sub ∈ s.subscribers, sub.id ≠ s.nextSubscriberId := fun sub hsub =>
    (hinv.membership.id_lt (List.mem_map_of_mem hsub)).ne
  by_cases hroom : maxSubscribersPerSession ≤ s.subscribers.length
  · simp only [if_pos hroom]
    refine ⟨⟨⟨hinv.screens.ring, hinv.screens.terminal⟩, ?_, ?_, ?_⟩, ?_, _,
      ⟨fun _ _ => rfl, fun _ h => (nomatch h)⟩, hheld, houtput, rfl⟩
    · exact ⟨hinv.membership.ids, hinv.membership.count, hinv.membership.valid,
        fun id cut hcut => (hinv.membership.fresh id cut hcut).trans (Nat.lt_succ_self _),
        hinv.membership.joined, hinv.membership.gone, hinv.membership.evicted,
        hinv.membership.evictedOnce, hinv.membership.hooked, hinv.membership.hookedOnce⟩
    · exact ⟨hinv.delivery.history, hinv.delivery.snapshot, hinv.delivery.sent,
        hinv.delivery.delivered, hinv.delivery.owing, hinv.delivery.owingOnce, hinv.delivery.idle⟩
    · refine ⟨fun hfree => ?_, fun hfree => ?_, fun source trail htrail hsource hne => ?_,
        hinv.sizes.formatted⟩
      · rw [houtput] at hfree
        cases hfree
      · rw [hheld] at hfree
        cases hfree
      · obtain ⟨ha, hsmallest⟩ := hinv.sizes.applied source trail htrail hsource hne
        exact ⟨⟨ha.master, ha.parser, ha.valid, ha.sized⟩, hsmallest⟩
    · exact ⟨fun _ => Or.inl rfl, fun hnot => absurd hheld hnot, fun hnot => absurd houtput hnot,
        fun hnot => absurd hheld hnot, fun _ => ⟨rfl, rfl⟩, fun _ _ _ => Iff.rfl,
        fun _ _ _ => Iff.rfl, fun _ _ _ hmem => hmem, fun _ _ hcut _ => hcut,
        fun _ hid => Or.inl hid⟩
  · have hinv' : Inv emulator initial (subscribedSession geometry formatted chunk thread s) := by
      refine ⟨⟨hinv.screens.ring, hinv.screens.terminal⟩,
        hinv.membership.subscribed hgeometry hroom,
        hinv.delivery.subscribed hinv.membership hsnapshot, ⟨fun hfree => ?_, fun hfree => ?_,
          fun source trail htrail => (nomatch htrail), fun id trail htrail => (nomatch htrail)⟩⟩
      · exact absurd (houtput.symm.trans hfree) (Option.some_ne_none _)
      · exact absurd (hheld.symm.trans hfree) (Option.some_ne_none _)
    have hchange : Change initial thread s
        (subscribedSession geometry formatted chunk thread s) := by
      refine ⟨fun _ => Or.inl rfl, fun hnot => absurd hheld hnot, fun hnot => absurd houtput hnot,
        fun hnot => absurd hheld hnot, fun _ => ⟨rfl, rfl⟩, fun _ _ _ => Iff.rfl,
        fun _ _ _ => Iff.rfl, fun other _ geometry' hmem => ?_, fun id cut hcut hthread => ?_,
        fun id hid => ?_⟩
      · rcases List.mem_cons.mp hmem with heq | hmem
        · cases heq
        · exact hmem
      · by_cases hid : id = s.nextSubscriberId
        · rw [hid, subscribedSession_cuts_self] at hcut
          cases hcut
          exact absurd rfl hthread
        · rwa [subscribedSession_cuts hid] at hcut
      · rw [subscribedSession_ids, List.mem_append, List.mem_singleton] at hid
        rcases hid with hid | hid
        · exact Or.inl hid
        · rw [hid]
          exact Or.inr ⟨_, subscribedSession_cuts_self, rfl⟩
    have hjoined : Joined thread geometry formatted chunk s.toCore
        (s.toCore.subscribed thread geometry formatted chunk) (.ok s.nextSubscriberId) := by
      refine ⟨fun _ h => (nomatch h), fun id hid => ?_⟩
      cases hid
      exact ⟨rfl, rfl, hnew⟩
    cases chunk with
    | none =>
      simp only [if_neg hroom]
      exact ⟨hinv', hchange, _, hjoined, hheld, houtput, rfl⟩
    | some chunk =>
      simp only [if_neg hroom, Channel.trySend_new]
      exact ⟨hinv', hchange, _, hjoined, hheld, houtput, rfl⟩

/-! ### Detaching -/

/-- Subscribers leave, with a record of each. -/
theorem Membership.leave (h : Membership s) {keep : Subscriber → Bool} {records : List Record}
    (hrecords : ∀ sub ∈ s.subscribers, keep sub = false → .removed sub.id ∈ records) :
    Membership { s with
      subscribers := s.subscribers.filter keep
      trail := records ++ s.trail } where
  ids := h.ids.sublist (List.filter_sublist.map _)
  count := (List.length_filter_le _ _).trans h.count
  valid sub hsub := h.valid sub (List.mem_of_mem_filter hsub)
  fresh := h.fresh
  joined sub hsub := h.joined sub (List.mem_of_mem_filter hsub)
  gone id cut hcut := by
    rcases h.gone id cut hcut with hmem | hmem | hmem
    · obtain ⟨sub, hsub, rfl⟩ := List.mem_map.mp hmem
      cases hkeep : keep sub with
      | true => exact Or.inl (List.mem_map_of_mem (List.mem_filter.mpr ⟨hsub, hkeep⟩))
      | false => exact Or.inr (Or.inr (List.mem_append_left _ (hrecords sub hsub hkeep)))
    · exact Or.inr (Or.inl hmem)
    · exact Or.inr (Or.inr (List.mem_append_right _ hmem))
  evicted id hid := by
    obtain ⟨hcut, hnot⟩ := h.evicted id hid
    exact ⟨hcut, fun hmem => hnot ((List.filter_sublist.map _).subset hmem)⟩
  evictedOnce := h.evictedOnce
  hooked := h.hooked
  hookedOnce := h.hookedOnce

theorem Inv.leave (h : Inv emulator initial s) {keep : Subscriber → Bool} {records : List Record}
    (hrecords : ∀ sub ∈ s.subscribers, keep sub = false → .removed sub.id ∈ records)
    (hsizes : Sizes emulator initial { s with
      subscribers := s.subscribers.filter keep
      trail := records ++ s.trail }) :
    Inv emulator initial { s with
      subscribers := s.subscribers.filter keep
      trail := records ++ s.trail } where
  screens := ⟨h.screens.ring, h.screens.terminal⟩
  membership := h.membership.leave hrecords
  delivery := ⟨h.delivery.history, h.delivery.snapshot, h.delivery.sent,
    fun sub hsub => h.delivery.delivered sub (List.mem_of_mem_filter hsub), h.delivery.owing,
    h.delivery.owingOnce, h.delivery.idle⟩
  sizes := hsizes

/-- A session without a subscriber. -/
def Core.removed (id : ℕ) (core : Core Parser Screen) : Core Parser Screen :=
  { core with
    subscribers := core.subscribers.filter (·.id ≠ id)
    trail := .removed id :: core.trail }

theorem triple_removeSubscriber (id : ℕ) {core : Core Parser Screen} :
    Triple (discipline emulator initial) thread (Knows thread core) (removeSubscriber id)
      fun _ => Knows thread (core.removed id) := by
  refine triple_action (stable_knows core) (fun _ => stable_knows _) fun s input hinv hs => ?_
  have hheld : s.locks .geometryApply = some thread := hs.geometry
  have houtput : s.locks .outputState = some thread := hs.output
  have hcore := hs.core
  subst hcore
  refine ⟨@Inv.leave _ _ _ _ _ hinv (·.id ≠ id) [.removed id] (fun sub _ hkeep => ?_)
    ⟨fun hfree => absurd (houtput.symm.trans hfree) (Option.some_ne_none _),
      fun hfree => absurd (hheld.symm.trans hfree) (Option.some_ne_none _),
      fun _ _ htrail => (nomatch htrail), fun _ _ htrail => (nomatch htrail)⟩,
    ⟨fun _ => Or.inl rfl, fun hnot => absurd hheld hnot, fun hnot => absurd houtput hnot,
      fun hnot => absurd hheld hnot, fun _ => ⟨rfl, rfl⟩, fun _ _ _ => Iff.rfl,
      fun _ _ _ => Iff.rfl, fun other _ geometry hmem => ?_, fun _ _ hcut _ => hcut,
      fun _ hid => Or.inl ((List.filter_sublist.map _).subset hid)⟩, hheld, houtput, rfl⟩
  · have heq : sub.id = id := by simpa using hkeep
    rw [heq]
    exact List.mem_singleton_self _
  · rcases List.mem_cons.mp hmem with heq | hmem
    · cases heq
    · exact hmem

/-- Under `output_state` the sizes agree. -/
structure OutputHeld (emulator : Emulator Parser Screen) (initial : Geometry) (thread : ℕ)
    (s : Session Parser Screen) : Prop where
  output : Holds .outputState thread s
  agree : s.Agree emulator initial

theorem stable_outputHeld :
    Stable (discipline emulator initial) thread (OutputHeld emulator initial thread) :=
  stable_of_change fun _ _ _ hother hchange hs =>
    ⟨hchange.holds hother hs.output, hchange.agree hother hs.output hs.agree⟩

theorem stable_true : Stable (discipline emulator initial) thread fun _ => True :=
  fun _ _ _ _ => trivial

theorem triple_closeSubscribers :
    Triple (discipline emulator initial) thread (fun _ => True) (closeSubscribers thread)
      fun _ _ => True := by
  refine triple_bind (triple_acquire .outputState stable_true
    (@stable_outputHeld _ _ emulator _ _) fun s hinv _ hfree =>
      ⟨holds_acquired _, hinv.sizes.agree hfree⟩) fun _ => ?_
  refine triple_bind (triple_action stable_outputHeld (fun _ => stable_outputHeld)
    fun s input hinv hs => ?_) fun _ => triple_release .outputState stable_outputHeld stable_true
      fun _ _ hs => ⟨hs.output, (nomatch ·), fun _ => hs.agree, (nomatch ·), trivial⟩
  have houtput : s.locks .outputState = some thread := hs.output
  have hnobody : s.subscribers.filter (fun _ => false) = [] := List.filter_false _
  have hsized : lastSized initial (s.subscribers.map (fun sub => .removed sub.id) ++ s.trail) =
      lastSized initial s.trail := by
    induction s.subscribers with
    | nil => rfl
    | cons sub subscribers ih => exact ih
  have hinv' := @Inv.leave _ _ _ _ _ hinv (fun _ => false)
    (s.subscribers.map fun sub => .removed sub.id)
    (fun sub hsub _ => List.mem_map_of_mem hsub)
  simp only [hnobody] at hinv'
  refine ⟨hinv' ⟨fun hfree => absurd (houtput.symm.trans hfree) (Option.some_ne_none _),
    fun _ => Or.inl rfl, fun _ _ _ _ hne => absurd rfl hne, fun id trail htrail cut hcut => ?_⟩,
    ⟨fun _ => Or.inl rfl, fun _ hnot => absurd houtput hnot, fun hnot => absurd houtput hnot,
      fun _ _ => Or.inl rfl, fun _ => ⟨rfl, rfl⟩, fun _ _ _ => Iff.rfl, fun _ _ _ => Iff.rfl,
      fun other _ geometry hmem => ?_, fun _ _ hcut _ => hcut, fun _ hid => (nomatch hid)⟩,
    houtput, ⟨hs.agree.master, hs.agree.parser, hs.agree.valid, hsized.trans hs.agree.sized⟩⟩
  · cases hsubscribers : s.subscribers with
    | nil =>
      simp only [hsubscribers, List.map_nil, List.nil_append] at htrail
      exact hinv.sizes.formatted id trail htrail cut hcut
    | cons sub subscribers =>
      simp only [hsubscribers, List.map_cons, List.cons_append] at htrail
      cases htrail
  · rcases List.mem_append.mp hmem with hmem | hmem
    · obtain ⟨sub, -, heq⟩ := List.mem_map.mp hmem
      cases heq
    · exact hmem

/-! ### Requests -/

/-- Under `geometry_apply` the sizes are those of the subscribers. -/
structure GeometryHeld (thread : ℕ) (s : Session Parser Screen) : Prop where
  geometry : Holds .geometryApply thread s
  clean : s.Clean

theorem stable_holds (lock : Lock) :
    Stable (discipline emulator initial) thread (Holds lock thread) :=
  stable_of_change fun _ _ _ hother hchange hs => hchange.holds hother hs

theorem stable_geometryHeld :
    Stable (discipline emulator initial) thread (GeometryHeld thread) :=
  stable_of_change fun _ _ _ hother hchange hs =>
    ⟨hchange.holds hother hs.geometry, hchange.clean (hs.geometry.ne hother) hs.clean⟩

/-- The first guard. -/
theorem triple_acquireGeometry {P : Session Parser Screen → Prop}
    (hp : Stable (discipline emulator initial) thread P) :
    Triple (discipline emulator initial) thread P (acquire .geometryApply thread)
      fun _ => GeometryHeld thread :=
  triple_acquire .geometryApply hp stable_geometryHeld fun _ hinv _ hfree =>
    ⟨holds_acquired _, hinv.sizes.clean hfree⟩

/-- The second guard: what it protects is known from then on. -/
theorem triple_acquireOutput {P : Session Parser Screen → Prop} {F : Core Parser Screen → Prop}
    (hp : Stable (discipline emulator initial) thread P)
    (hholds : ∀ s, P s → Holds .geometryApply thread s)
    (hfacts : ∀ s, Inv emulator initial s → P s → s.Agree emulator initial → F s.toCore) :
    Triple (discipline emulator initial) thread P (acquire .outputState thread)
      fun _ s => ∃ core, F core ∧ Knows thread core s :=
  triple_acquire .outputState hp (stable_exists fun core => stable_pure (stable_knows core))
    fun s hinv hs hfree => ⟨s.toCore, hfacts s hinv hs (hinv.sizes.agree hfree),
      holds_update (nomatch ·) (hholds s hs), holds_acquired _, rfl⟩

/-- The end of the second guard. -/
theorem triple_releaseOutput {core : Core Parser Screen} {Q : Session Parser Screen → Prop}
    (hagree : core.Agree emulator initial) (hq : Stable (discipline emulator initial) thread Q)
    (h : ∀ s, Holds .geometryApply thread s → s.toCore = core → Q s) :
    Triple (discipline emulator initial) thread (Knows thread core) (release .outputState)
      fun _ => Q :=
  triple_release .outputState (stable_knows core) hq fun _ _ hs =>
    ⟨hs.output, (nomatch ·), fun _ => hs.core ▸ hagree, (nomatch ·),
      h _ (holds_update (nomatch ·) hs.geometry) hs.core⟩

/-- The end of the first guard. -/
theorem triple_releaseGeometry {P Q : Session Parser Screen → Prop}
    (hp : Stable (discipline emulator initial) thread P)
    (hq : Stable (discipline emulator initial) thread Q)
    (hheld : ∀ s, P s → GeometryHeld thread s)
    (h : ∀ s, P s → ∀ locks, Q { s with locks := locks }) :
    Triple (discipline emulator initial) thread P (release .geometryApply) fun _ => Q :=
  triple_release .geometryApply hp hq fun s _ hs =>
    ⟨(hheld s hs).geometry, (nomatch ·), (nomatch ·), fun _ => (hheld s hs).clean, h s hs _⟩

/-- A failure of a detach or of a request of a subscriber is on record. -/
theorem Clamped.clean {source : Source} {core core' : Core Parser Screen}
    {result : Except ResizeError Unit} (h : Clamped emulator initial source core core' result)
    (hsource : ∃ id, source = .detach id ∨ source = .resize id) : core'.Clean := by
  cases result with
  | ok _ => exact h.ok rfl
  | error e =>
    refine Or.inr (Or.inr (Or.inr ?_))
    rw [(h.error e rfl).2]
    obtain ⟨id, rfl | rfl⟩ := hsource
    · rfl
    · rfl

theorem triple_applyClampedPtySize {source : Source}
    (hsource : ∃ id, source = .detach id ∨ source = .resize id) :
    Triple (discipline emulator initial) thread (Holds .geometryApply thread)
      (applyClampedPtySize emulator thread source) fun _ => GeometryHeld thread := by
  refine triple_bind (triple_acquireOutput (F := fun core => core.Agree emulator initial ∧
    ∀ sub ∈ core.subscribers, sub.geometry.Valid) (stable_holds _) (fun _ hs => hs)
    fun s hinv _ hagree => ⟨hagree, hinv.membership.valid⟩) fun _ =>
      triple_exists fun core => triple_pure fun ⟨hagree, hvalid⟩ => ?_
  refine triple_bind (triple_applyClampedPtySizeUnderOutputGuard hagree hvalid fun id heq => ?_)
    fun result => triple_exists fun core' => triple_pure fun hclamped => ?_
  · obtain ⟨_, rfl | rfl⟩ := hsource
    · cases heq
    · cases heq
  · refine triple_bind (triple_releaseOutput hclamped.agree stable_geometryHeld
      fun _ hheld hcore => ⟨hheld, ?_⟩) fun _ => triple_ret stable_geometryHeld fun _ _ hs => hs
    rw [hcore]
    exact hclamped.clean hsource

/-- The size after a request without a subscriber. -/
theorem Resized.clean {geometry : Geometry} {core core' : Core Parser Screen}
    {result : Except ResizeError Unit}
    (h : Resized emulator initial thread .forced geometry core core' result)
    (hclean : core.Clean) : core'.Clean := by
  cases result with
  | ok _ =>
    refine Or.inr (Or.inr (Or.inr ?_))
    rw [(h.ok rfl).2]
    rfl
  | error e =>
    obtain ⟨hsize, htrail⟩ := h.error e rfl
    rw [Core.Clean, h.subscribers, hsize, htrail]
    exact hclean

theorem triple_applyPtySize {geometry : Geometry} (hgeometry : geometry.Valid) :
    Triple (discipline emulator initial) thread (GeometryHeld thread)
      (applyPtySize emulator thread geometry) fun _ => GeometryHeld thread := by
  refine triple_bind (triple_acquireOutput (F := fun core => core.Agree emulator initial ∧
    core.Clean) stable_geometryHeld (fun _ hs => hs.geometry)
    fun s hinv hs hagree => ⟨hagree, hs.clean⟩) fun _ =>
      triple_exists fun core => triple_pure fun ⟨hagree, hclean⟩ => ?_
  have hsuits : Suits initial core .forced geometry :=
    ⟨fun hne => absurd rfl hne, fun _ => hgeometry, fun _ h => (nomatch h)⟩
  refine triple_bind (triple_applyPtySizeUnderOutputGuard hagree hsuits) fun result =>
    triple_exists fun core' => triple_pure fun hresized => ?_
  refine triple_bind (triple_releaseOutput hresized.agree stable_geometryHeld
    fun _ hheld hcore => ⟨hheld, ?_⟩) fun _ => triple_ret stable_geometryHeld fun _ _ hs => hs
  rw [hcore]
  exact hresized.clean hclean

theorem triple_unsubscribe (id : ℕ) :
    Triple (discipline emulator initial) thread (fun _ => True) (unsubscribe emulator thread id)
      fun _ _ => True := by
  refine triple_bind (triple_acquireGeometry stable_true) fun _ => ?_
  refine triple_bind (triple_acquireOutput (F := fun core => core.Agree emulator initial)
    stable_geometryHeld (fun _ hs => hs.geometry) fun _ _ _ hagree => hagree) fun _ =>
      triple_exists fun core => triple_pure fun hagree => ?_
  refine triple_bind (triple_removeSubscriber id) fun _ => ?_
  refine triple_bind (triple_releaseOutput ?_ (stable_holds .geometryApply)
    fun _ hheld _ => hheld) fun _ => ?_
  · exact ⟨hagree.master, hagree.parser, hagree.valid, hagree.sized⟩
  · exact triple_bind (triple_applyClampedPtySize ⟨id, Or.inl rfl⟩) fun _ =>
      triple_releaseGeometry stable_geometryHeld stable_true (fun _ hs => hs) fun _ _ _ => trivial

section Update

variable (id : ℕ) (geometry : Geometry)

/-- A subscriber with its new geometry. -/
def Subscriber.updated (sub : Subscriber) : Subscriber :=
  if sub.id = id then { sub with geometry := geometry } else sub

/-- A session in which a subscriber has a new geometry. -/
def updatedSession (s : Session Parser Screen) : Session Parser Screen :=
  { s with
    subscribers := s.subscribers.map (Subscriber.updated id geometry)
    trail := .updated id :: s.trail }

variable {id geometry}

theorem Subscriber.id_updated (sub : Subscriber) : (sub.updated id geometry).id = sub.id := by
  unfold Subscriber.updated
  split_ifs
  · rfl
  · rfl

theorem updatedSession_ids : (updatedSession id geometry s).subscribers.map Subscriber.id =
    s.subscribers.map Subscriber.id := by
  rw [updatedSession, List.map_map]
  exact List.map_congr_left fun sub _ => sub.id_updated

theorem mem_updatedSession {sub : Subscriber} (h : sub ∈ (updatedSession id geometry s).subscribers) :
    ∃ sub' ∈ s.subscribers, sub'.updated id geometry = sub := List.mem_map.mp h

theorem inv_updatedSession (h : Inv emulator initial s) (hgeometry : geometry.Valid)
    (hheld : s.locks .geometryApply ≠ none) :
    Inv emulator initial (updatedSession id geometry s) := by
  refine ⟨⟨h.screens.ring, h.screens.terminal⟩, ⟨?_, ?_, fun sub hsub => ?_, h.membership.fresh,
    fun sub hsub => ?_, fun id' cut hcut => ?_, fun id' hid => ?_, h.membership.evictedOnce,
    h.membership.hooked, h.membership.hookedOnce⟩, ⟨h.delivery.history, h.delivery.snapshot,
    h.delivery.sent, fun sub hsub hnot cut hcut => ?_, h.delivery.owing, h.delivery.owingOnce,
    h.delivery.idle⟩, ⟨fun hfree => ?_, fun hfree => absurd hfree hheld,
    fun _ _ htrail => (nomatch htrail), fun _ _ htrail => (nomatch htrail)⟩⟩
  · rw [updatedSession_ids]
    exact h.membership.ids
  · rw [updatedSession, List.length_map]
    exact h.membership.count
  · obtain ⟨sub', hsub', rfl⟩ := mem_updatedSession hsub
    unfold Subscriber.updated
    split_ifs
    · exact hgeometry
    · exact h.membership.valid sub' hsub'
  · obtain ⟨sub', hsub', rfl⟩ := mem_updatedSession hsub
    rw [Subscriber.id_updated]
    exact h.membership.joined sub' hsub'
  · rw [updatedSession_ids]
    exact (h.membership.gone id' cut hcut).imp_right (Or.imp_right (List.mem_cons_of_mem _))
  · rw [updatedSession_ids]
    exact h.membership.evicted id' hid
  · obtain ⟨sub', hsub', rfl⟩ := mem_updatedSession hsub
    rw [Subscriber.id_updated] at hnot hcut ⊢
    exact h.delivery.delivered sub' hsub' hnot cut hcut
  · have hagree := h.sizes.agree hfree
    exact ⟨hagree.master, hagree.parser, hagree.valid, hagree.sized⟩

end Update

/-- What is known after the search for the subscriber: if it is not found, nothing has changed. -/
def Found (thread : ℕ) (found : Bool) (s : Session Parser Screen) : Prop :=
  Holds .geometryApply thread s ∧ (found = false → s.Clean)

theorem stable_found (found : Bool) :
    Stable (discipline emulator initial) thread (Found thread found) :=
  stable_of_change fun _ _ _ hother hchange hs =>
    ⟨hchange.holds hother hs.1, fun hfound => hchange.clean (hs.1.ne hother) (hs.2 hfound)⟩

theorem triple_updateGeometry (id : ℕ) {geometry : Geometry} (hgeometry : geometry.Valid) :
    Triple (discipline emulator initial) thread (GeometryHeld thread)
      (updateGeometry id geometry) fun found => Found thread found := by
  refine triple_action stable_geometryHeld (fun _ => stable_found _) fun s input hinv hs => ?_
  have hheld : s.locks .geometryApply = some thread := hs.geometry
  by_cases hfound : s.subscribers.any (·.id = id) = true
  · simp only [hfound, if_true]
    show Inv emulator initial (updatedSession id geometry s) ∧
      Change initial thread s (updatedSession id geometry s) ∧
        Found thread true (updatedSession id geometry s)
    refine ⟨inv_updatedSession hinv hgeometry (by rw [hheld]; exact Option.some_ne_none _),
      ⟨fun _ => Or.inl rfl, fun hnot => absurd hheld hnot,
        fun _ => ⟨_, _, rfl, updatedSession_ids, rfl⟩, fun hnot => absurd hheld hnot,
        fun _ => ⟨rfl, rfl⟩, fun _ _ _ => Iff.rfl, fun _ _ _ => Iff.rfl,
        fun other _ geometry' hmem => ?_, fun _ _ hcut _ => hcut, fun id' hid => Or.inl ?_⟩,
      hheld, (nomatch ·)⟩
    · rcases List.mem_cons.mp hmem with heq | hmem
      · cases heq
      · exact hmem
    · rwa [updatedSession_ids] at hid
  · simp only [hfound, Bool.false_eq_true, if_false]
    exact ⟨hinv, change_of_core_eq rfl (fun _ => Or.inl rfl) (fun _ => rfl) rfl
      fun _ _ _ => Iff.rfl, hheld, fun _ => hs.clean⟩

theorem triple_resize (subscriberId : Option ℕ) (geometry : Geometry) :
    Triple (discipline emulator initial) thread (fun _ => True)
      (resize emulator thread subscriberId geometry) fun _ _ => True := by
  unfold resize
  cases hvalid : validateTerminalGeometry geometry with
  | error e => exact triple_ret stable_true fun _ _ _ => trivial
  | ok _ =>
    have hgeometry : geometry.Valid := hvalid
    refine triple_bind (triple_acquireGeometry stable_true) fun _ => ?_
    have hend (result : Except ResizeError Unit) : Triple (discipline emulator initial) thread
        (GeometryHeld thread) (do
          release .geometryApply
          return result : Action Parser Screen (Except ResizeError Unit)) fun _ _ => True :=
      triple_bind (triple_releaseGeometry stable_geometryHeld stable_true (fun _ hs => hs)
        fun _ _ _ => trivial) fun _ => triple_ret stable_true fun _ _ _ => trivial
    cases subscriberId with
    | none => exact triple_bind (triple_applyPtySize hgeometry) hend
    | some id =>
      refine triple_bind (triple_updateGeometry id hgeometry) fun found => ?_
      cases found with
      | true =>
        exact triple_bind ((triple_applyClampedPtySize ⟨id, Or.inr rfl⟩).weaken fun _ hs => hs.1)
          hend
      | false =>
        exact triple_bind (triple_ret stable_geometryHeld fun _ _ hs => ⟨hs.1, hs.2 rfl⟩) hend

/-! ### All functions -/

/-- An attach that failed: it gave the pseudo terminal no size, and it left no subscriber. -/
structure Core.NoTrace (thread : ℕ) (core : Core Parser Screen) : Prop where
  sized : ∀ geometry, .sized thread geometry ∉ core.trail
  gone : ∀ id cut, core.cuts id = some cut → cut.thread = thread →
    id ∉ core.subscribers.map Subscriber.id

theorem stable_noTrace :
    Stable (discipline emulator initial) thread fun s => s.NoTrace thread :=
  stable_of_change fun other s s' hother hchange hs => by
    refine ⟨fun geometry hmem => hs.sized geometry (hchange.sized thread hother.symm geometry hmem),
      fun id cut hcut hthread hmem => ?_⟩
    rcases hchange.joins id hmem with hmem | ⟨cut', hcut', hthread'⟩
    · refine hs.gone id cut (hchange.cuts id cut hcut ?_) hthread hmem
      rw [hthread]
      exact hother.symm
    · rw [hcut, Option.some.injEq] at hcut'
      rw [← hcut', hthread] at hthread'
      exact hother hthread'.symm

theorem Fresh.noTrace {core : Core Parser Screen} (h : Fresh thread core) : core.NoTrace thread :=
  ⟨h.sized, fun id cut hcut hthread => absurd hthread (h.cuts id cut hcut)⟩

/-- What an attach comes to. -/
structure Attached (emulator : Emulator Parser Screen) (initial : Geometry) (thread : ℕ)
    (core : Core Parser Screen) (result : Except AttachError ℕ) : Prop where
  agree : core.Agree emulator initial
  clean : core.Clean
  error : ∀ e, result = .error e → core.NoTrace thread

/-- An attach that is undone. -/
theorem attached_of_failed {geometry formatted : Geometry} {chunk : Option OutputChunk}
    {snapped clamped : Core Parser Screen} {e : ResizeError} {result : Except AttachError ℕ}
    (hclean : snapped.Clean) (hfresh : Fresh thread snapped)
    (hnew : ∀ sub ∈ snapped.subscribers, sub.id ≠ snapped.nextSubscriberId)
    (hclamped : Clamped emulator initial (.attach snapped.nextSubscriberId)
      (snapped.subscribed thread geometry formatted chunk) clamped (.error e)) :
    Attached emulator initial thread (clamped.removed snapped.nextSubscriberId) result := by
  obtain ⟨hsize, htrail⟩ := hclamped.error e rfl
  have hsame : (clamped.removed snapped.nextSubscriberId).size = snapped.size := hsize
  have hleft : (clamped.removed snapped.nextSubscriberId).subscribers = snapped.subscribers := by
    have hkept : snapped.subscribers.filter (·.id ≠ snapped.nextSubscriberId) =
        snapped.subscribers := by
      rw [List.filter_eq_self]
      intro sub hsub
      simpa using hnew sub hsub
    rw [Core.removed, hclamped.subscribers, Core.subscribed, List.filter_append, hkept]
    simp
  have hrecords : (clamped.removed snapped.nextSubscriberId).trail =
      .removed snapped.nextSubscriberId :: .failed (.attach snapped.nextSubscriberId) ::
        .subscribed snapped.nextSubscriberId :: snapped.trail :=
    congrArg (Record.removed snapped.nextSubscriberId :: ·) htrail
  refine ⟨⟨hclamped.agree.master, hclamped.agree.parser, hclamped.agree.valid,
    hclamped.agree.sized⟩, ?_, fun _ _ => ⟨fun geometry' hmem => ?_,
      fun id cut hcut hthread hmem => ?_⟩⟩
  · rw [Core.Clean, hleft, hsame, hrecords]
    exact hclean
  · rw [hrecords] at hmem
    simp only [List.mem_cons, reduceCtorEq, false_or] at hmem
    exact hfresh.sized geometry' hmem
  · rw [hleft] at hmem
    have hid : id ≠ snapped.nextSubscriberId := by
      obtain ⟨sub, hsub, rfl⟩ := List.mem_map.mp hmem
      exact hnew sub hsub
    have hcuts : clamped.cuts id = some cut := hcut
    rw [hclamped.cuts, Core.subscribed_cuts hid] at hcuts
    exact hfresh.cuts id cut hcuts hthread

theorem triple_subscribeAndApplyClamp {geometry : Geometry} {core : Core Parser Screen}
    (hgeometry : geometry.Valid) (hagree : core.Agree emulator initial) (hclean : core.Clean)
    (hscreens : core.Screens emulator) (hvalid : ∀ sub ∈ core.subscribers, sub.geometry.Valid)
    (hfresh : Fresh thread core) :
    Triple (discipline emulator initial) thread (Knows thread core)
      (subscribeAndApplyClamp emulator thread geometry) fun result s =>
        ∃ core', Attached emulator initial thread core' result ∧ Knows thread core' s := by
  have hstable (result : Except AttachError ℕ) : Stable (discipline emulator initial) thread
      fun s => ∃ core', Attached emulator initial thread core' result ∧ Knows thread core' s :=
    stable_exists fun core' => stable_pure (stable_knows core')
  refine triple_bind (triple_initialChunk hagree hscreens) fun chunk =>
    triple_exists fun snapped => triple_pure fun hsnapped => ?_
  refine triple_bind (triple_subscribeLocked hgeometry hsnapped.snapshot) fun joined =>
    triple_exists fun core' => triple_pure fun hjoined => ?_
  have hfollows := hsnapped.follows
  have hfreshSnapped : Fresh thread snapped :=
    ⟨by rw [hfollows.cuts]; exact hfresh.cuts, by rw [hfollows.trail]; exact hfresh.sized⟩
  cases joined with
  | error e =>
    refine triple_ret (hstable _) fun s _ hs => ⟨core', ?_, hs⟩
    rw [hjoined.error e rfl]
    exact ⟨⟨hsnapped.agree.master, hsnapped.agree.parser, hsnapped.agree.valid,
      hsnapped.agree.sized⟩, hfollows.clean hclean,
      fun _ _ => ⟨hfreshSnapped.noTrace.sized, hfreshSnapped.noTrace.gone⟩⟩
  | ok id =>
    obtain ⟨hid, heq, hnew⟩ := hjoined.ok id rfl
    subst hid heq
    have hagree' : (snapped.subscribed thread geometry chunk.1 chunk.2).Agree emulator initial :=
      ⟨hsnapped.agree.master, hsnapped.agree.parser, hsnapped.agree.valid, hsnapped.agree.sized⟩
    have hvalid' : ∀ sub ∈ (snapped.subscribed thread geometry chunk.1 chunk.2).subscribers,
        sub.geometry.Valid := by
      intro sub hsub
      rcases List.mem_append.mp hsub with hsub | hsub
      · rw [hfollows.subscribers] at hsub
        exact hvalid sub hsub
      · rw [List.mem_singleton.mp hsub]
        exact hgeometry
    refine triple_bind (triple_applyClampedPtySizeUnderOutputGuard hagree' hvalid'
      fun id hid cut hcut => ?_) fun result => triple_exists fun clamped =>
        triple_pure fun hclamped => ?_
    · cases hid
      rw [Core.subscribed_cuts_self] at hcut
      cases hcut
      rw [hsnapped.formatted, ← hfollows.subscribers]
      exact clampToSmallest_concat snapped.subscribers ⟨snapped.nextSubscriberId, geometry⟩
    cases result with
    | ok _ =>
      exact triple_ret (hstable _) fun s _ hs =>
        ⟨clamped, ⟨hclamped.agree, hclamped.ok rfl, fun _ h => (nomatch h)⟩, hs⟩
    | error e =>
      exact triple_bind (triple_removeSubscriber snapped.nextSubscriberId) fun _ =>
        triple_ret (hstable _) fun s _ hs => ⟨clamped.removed snapped.nextSubscriberId,
          attached_of_failed (hfollows.clean hclean) hfreshSnapped hnew hclamped, hs⟩

theorem validateAttach_valid {geometry : Geometry} (h : validateAttach geometry = .ok ()) :
    geometry.Valid := by
  unfold validateAttach at h
  simp only [bind_eq_ok, require_eq_ok] at h
  obtain ⟨_, -, hvalid⟩ := h
  unfold Geometry.Valid
  cases hresult : validateTerminalGeometry geometry with
  | ok _ => rfl
  | error e =>
    rw [hresult] at hvalid
    cases hvalid

theorem triple_subscribeWithSnapshotAndApplyClamp (geometry : Geometry) :
    Triple (discipline emulator initial) thread (Idle thread)
      (subscribeWithSnapshotAndApplyClamp emulator thread geometry)
      fun result s => ∀ e, result = .error e → s.NoTrace thread := by
  have hstable (result : Except AttachError ℕ) : Stable (discipline emulator initial) thread
      fun s => ∀ e, result = .error e → s.NoTrace thread :=
    fun s s' hs hrely e he => stable_noTrace s s' (hs e he) hrely
  unfold subscribeWithSnapshotAndApplyClamp
  cases hvalid : validateAttach geometry with
  | error e => exact triple_ret (hstable _) fun s _ hs _ _ => hs.fresh.noTrace
  | ok _ =>
    have hheld : Stable (discipline emulator initial) thread fun s =>
        GeometryHeld thread s ∧ Idle thread s := stable_geometryHeld.and stable_idle
    have hend (result : Except AttachError ℕ) : Stable (discipline emulator initial) thread
        fun s => GeometryHeld thread s ∧ ∀ e, result = .error e → s.NoTrace thread :=
      stable_geometryHeld.and (hstable result)
    refine triple_bind (triple_acquire .geometryApply stable_idle hheld fun s hinv hs hfree =>
      ⟨⟨holds_acquired _, hinv.sizes.clean hfree⟩, ⟨hs.fresh, hs.evictions, hs.hooks⟩⟩) fun _ => ?_
    refine triple_bind (triple_acquireOutput (F := fun core => core.Agree emulator initial ∧
      core.Clean ∧ core.Screens emulator ∧ (∀ sub ∈ core.subscribers, sub.geometry.Valid) ∧
        Fresh thread core) hheld (fun _ hs => hs.1.geometry) fun s hinv hs hagree =>
          ⟨hagree, hs.1.clean, hinv.screens, hinv.membership.valid, hs.2.fresh⟩) fun _ =>
            triple_exists fun core => triple_pure fun hfacts => ?_
    obtain ⟨hagree, hclean, hscreens, hsubscribers, hfresh⟩ := hfacts
    refine triple_bind (triple_subscribeAndApplyClamp (validateAttach_valid hvalid) hagree hclean
      hscreens hsubscribers hfresh) fun result =>
        triple_exists fun core' => triple_pure fun hattached => ?_
    refine triple_bind (triple_releaseOutput hattached.agree (hend result) fun s hholds hcore => ?_)
      fun _ => triple_bind (triple_releaseGeometry (hend result) (hstable result) (fun _ hs => hs.1)
        fun s hs _ => ?_) fun _ => triple_ret (hstable result) fun _ _ hs => hs
    · rw [hcore]
      exact ⟨⟨hholds, by rw [hcore]; exact hattached.clean⟩, hattached.error⟩
    · exact hs.2

/-- What holds when a thread has returned. -/
def Returned : Outcome → Session Parser Screen → Prop
  | .appended thread, s => Called thread s
  | .attached thread (.error _), s => s.NoTrace thread
  | _, _ => True

/-- The invariant when a receiver does something. -/
theorem inv_receiver (h : Inv emulator initial s) {id : ℕ} {channel : Channel}
    (hsent : channel.sent = (s.channels id).sent) :
    Inv emulator initial { s with channels := Function.update s.channels id channel } := by
  have hsame (other : ℕ) :
      (Function.update s.channels id channel other).sent = (s.channels other).sent := by
    by_cases heq : other = id
    · rw [heq, Function.update_self, hsent]
    · rw [Function.update_of_ne heq]
  refine @Inv.channels _ _ _ _ _ h _ s.owing (fun other cut hcut => ?_) (fun sub hsub hnot cut hcut => ?_)
    (fun other hother => ⟨hother, hsame other⟩) h.delivery.owingOnce
  · rw [hsame]
    exact h.delivery.sent other cut hcut
  · rw [hsame]
    exact h.delivery.delivered sub hsub hnot cut hcut

theorem triple_receiver (id : ℕ) {f : Channel → Channel}
    (hsent : ∀ channel, (f channel).sent = channel.sent) :
    Triple (discipline emulator initial) thread (Idle thread)
      (Prog.atomically fun (_ : Input) s =>
        ((), { s with channels := Function.update s.channels id (f (s.channels id)) }))
      fun _ _ => True :=
  triple_action stable_idle (fun _ => stable_true) fun s _ hinv _ =>
    ⟨inv_receiver hinv (hsent (s.channels id)),
      change_of_core_eq rfl (fun _ => Or.inl rfl) (fun _ => rfl) rfl fun _ _ _ => Iff.rfl, trivial⟩

theorem Channel.sent_recv (channel : Channel) : channel.recv.sent = channel.sent := by
  unfold Channel.recv
  split_ifs
  · rfl
  · rfl

/-- **Every thread keeps to the discipline.** -/
theorem triple_program (job : Job) :
    Triple (discipline emulator initial) thread (Idle thread) (program emulator thread job)
      Returned := by
  cases job with
  | appendOutput bytes =>
    exact triple_bind (triple_appendOutput bytes) fun _ =>
      triple_ret stable_called fun _ _ hs => hs
  | attach geometry =>
    refine triple_bind (triple_subscribeWithSnapshotAndApplyClamp geometry) fun result => ?_
    cases result with
    | ok id => exact triple_ret stable_true fun _ _ _ => trivial
    | error e => exact triple_ret stable_noTrace fun _ _ hs => hs e rfl
  | unsubscribe id =>
    exact triple_bind ((triple_unsubscribe id).weaken fun _ _ => trivial) fun _ =>
      triple_ret stable_true fun _ _ _ => trivial
  | resize subscriberId geometry =>
    exact triple_bind ((triple_resize subscriberId geometry).weaken fun _ _ => trivial) fun _ =>
      triple_ret stable_true fun _ _ _ => trivial
  | closeSubscribers =>
    exact triple_bind (triple_closeSubscribers.weaken fun _ _ => trivial) fun _ =>
      triple_ret stable_true fun _ _ _ => trivial
  | recv id =>
    exact triple_bind (triple_receiver id Channel.sent_recv) fun _ =>
      triple_ret stable_true fun _ _ _ => trivial
  | dropReceiver id =>
    exact triple_bind (triple_receiver id (f := fun channel => { channel with connected := false })
      fun _ => rfl) fun _ => triple_ret stable_true fun _ _ _ => trivial

end LightTerminal.Server.Attach
