import LightTerminal.Server.AttachInvariant

/-! # Locks and output

For each action what it keeps, and from these that a thread that runs `append_output` keeps to the
discipline. What it knows of the chunk that it broadcasts is `Broadcasting`. -/

namespace LightTerminal.Server.Attach

open LightTerminal.Library.Interleave LightTerminal.Library.Procedure
open LightTerminal.Output.Ring LightTerminal.Output.NormalScreen

variable {Parser Screen : Type} {emulator : Emulator Parser Screen} {initial : Geometry}
  {thread : ℕ} {s s' : Session Parser Screen}

/-! ## Locks -/

/-- A change that leaves what the guards protect as it is. -/
theorem change_of_core_eq (hcore : s'.toCore = s.toCore)
    (hlocks : ∀ lock, s'.locks lock = s.locks lock ∨
      s.locks lock = none ∧ s'.locks lock = some thread ∨
      s.locks lock = some thread ∧ s'.locks lock = none)
    (howing : s.locks .broadcastOrder ≠ some thread → s'.owing = s.owing)
    (hevictions : s'.evictions = s.evictions)
    (hhooks : ∀ other, other ≠ thread → ∀ id, (other, id) ∈ s'.hooks ↔ (other, id) ∈ s.hooks) :
    Change initial thread s s' where
  locks := hlocks
  core _ _ := hcore
  output _ := ⟨s.subscribers, s.trail, hcore, rfl, rfl⟩
  clean _ hclean := by rwa [hcore]
  owing horder := ⟨howing horder, by rw [hcore]⟩
  evictions other _ id := by rw [hevictions]
  hooks := hhooks
  sized other _ geometry hmem := by rwa [hcore] at hmem
  cuts id cut hcut _ := by rwa [hcore] at hcut
  joins id hid := by
    rw [hcore] at hid
    exact Or.inl hid

/-- The invariant when only the locks change. -/
theorem Inv.locks (h : Inv emulator initial s) {locks : Lock → Option ℕ}
    (horder : locks .broadcastOrder = none → s.owing = [])
    (houtput : locks .outputState = none → s.Agree emulator initial)
    (hgeometry : locks .geometryApply = none → s.Clean) :
    Inv emulator initial { s with locks := locks } where
  screens := h.screens
  membership := ⟨h.membership.ids, h.membership.count, h.membership.valid, h.membership.fresh,
    h.membership.joined, h.membership.gone, h.membership.evicted, h.membership.evictedOnce,
    h.membership.hooked, h.membership.hookedOnce⟩
  delivery := ⟨h.delivery.history, h.delivery.snapshot, h.delivery.sent, h.delivery.delivered,
    h.delivery.owing, h.delivery.owingOnce, horder⟩
  sizes := ⟨houtput, hgeometry, h.sizes.applied, h.sizes.formatted⟩

section Locks

variable {P : Session Parser Screen → Prop} {Q : Session Parser Screen → Prop}

theorem triple_acquire (lock : Lock) (hp : Stable (discipline emulator initial) thread P)
    (hq : Stable (discipline emulator initial) thread Q)
    (h : ∀ s, Inv emulator initial s → P s → s.locks lock = none →
      Q { s with locks := Function.update s.locks lock (some thread) }) :
    Triple (discipline emulator initial) thread P (acquire lock thread) fun _ => Q := by
  refine triple_await hp (fun _ => hq) fun s input hinv hs hfree => ?_
  have hfree : s.locks lock = none := Option.isNone_iff_eq_none.mp hfree
  have hother {other : Lock} (hnone : Function.update s.locks lock (some thread) other = none) :
      s.locks other = none := by
    by_cases heq : other = lock
    · rw [heq, Function.update_self] at hnone
      cases hnone
    · rwa [Function.update_of_ne heq] at hnone
  refine ⟨hinv.locks (fun hnone => hinv.delivery.idle (hother hnone))
    (fun hnone => hinv.sizes.agree (hother hnone))
    (fun hnone => hinv.sizes.clean (hother hnone)), fun other hne => ?_, h s hinv hs hfree⟩
  refine .single ⟨thread, hne.symm, change_of_core_eq rfl (fun other => ?_) (fun _ => rfl) rfl
    fun _ _ _ => Iff.rfl⟩
  by_cases heq : other = lock
  · rw [heq]
    exact Or.inr (Or.inl ⟨hfree, Function.update_self ..⟩)
  · exact Or.inl (Function.update_of_ne heq ..)

theorem triple_release (lock : Lock) (hp : Stable (discipline emulator initial) thread P)
    (hq : Stable (discipline emulator initial) thread Q)
    (h : ∀ s, Inv emulator initial s → P s → Holds lock thread s ∧
      (lock = .broadcastOrder → s.owing = []) ∧
      (lock = .outputState → s.Agree emulator initial) ∧ (lock = .geometryApply → s.Clean) ∧
      Q { s with locks := Function.update s.locks lock none }) :
    Triple (discipline emulator initial) thread P (release lock) fun _ => Q := by
  refine triple_action hp (fun _ => hq) fun s input hinv hs => ?_
  obtain ⟨hholds, horder, houtput, hgeometry, hpost⟩ := h s hinv hs
  have hother {other : Lock} (hne : other ≠ lock)
      (hnone : Function.update s.locks lock none other = none) : s.locks other = none := by
    rwa [Function.update_of_ne hne] at hnone
  refine ⟨hinv.locks (fun hnone => ?_) (fun hnone => ?_) fun hnone => ?_, ?_, hpost⟩
  · by_cases heq : lock = .broadcastOrder
    · exact horder heq
    · exact hinv.delivery.idle (hother (Ne.symm heq) hnone)
  · by_cases heq : lock = .outputState
    · exact houtput heq
    · exact hinv.sizes.agree (hother (Ne.symm heq) hnone)
  · by_cases heq : lock = .geometryApply
    · exact hgeometry heq
    · exact hinv.sizes.clean (hother (Ne.symm heq) hnone)
  · refine change_of_core_eq rfl (fun other => ?_) (fun _ => rfl) rfl fun _ _ _ => Iff.rfl
    by_cases heq : other = lock
    · rw [heq]
      exact Or.inr (Or.inr ⟨hholds, Function.update_self ..⟩)
    · exact Or.inl (Function.update_of_ne heq ..)

theorem triple_look {α : Type} {f : Session Parser Screen → α}
    {Q : α → Session Parser Screen → Prop} (hp : Stable (discipline emulator initial) thread P)
    (hq : ∀ a, Stable (discipline emulator initial) thread (Q a))
    (h : ∀ s, Inv emulator initial s → P s → Q (f s) s) :
    Triple (discipline emulator initial) thread P (look f) Q :=
  triple_action hp hq fun s _ hinv hs => ⟨hinv,
    change_of_core_eq rfl (fun _ => Or.inl rfl) (fun _ => rfl) rfl fun _ _ _ => Iff.rfl,
    h s hinv hs⟩

end Locks

theorem holds_update {lock other : Lock} {owner : Option ℕ} (hne : other ≠ lock)
    (h : Holds other thread s) :
    Holds other thread { s with locks := Function.update s.locks lock owner } :=
  (Function.update_of_ne hne ..).trans h

theorem holds_acquired (lock : Lock) :
    Holds lock thread { s with locks := Function.update s.locks lock (some thread) } :=
  Function.update_self ..

/-! ## Output -/

/-- The thread has evicted nobody and called no hook. -/
structure NoMarks (thread : ℕ) (s : Session Parser Screen) : Prop where
  evictions : ∀ id, (thread, id) ∉ s.evictions
  hooks : ∀ id, (thread, id) ∉ s.hooks

theorem Change.noMarks {other : ℕ} (h : Change initial other s s') (hother : other ≠ thread)
    (hs : NoMarks thread s) : NoMarks thread s' :=
  ⟨fun id hmem => hs.evictions id ((h.evictions thread hother.symm id).mp hmem),
    fun id hmem => hs.hooks id ((h.hooks thread hother.symm id).mp hmem)⟩

/-- The sizes agree as long as the thread holds `output_state`. -/
theorem Change.agree {other : ℕ} (h : Change initial other s s') (hother : other ≠ thread)
    (hholds : Holds .outputState thread s) (hs : s.Agree emulator initial) :
    s'.Agree emulator initial := by
  obtain ⟨subscribers, trail, hcore, -, hsized⟩ := h.output (hholds.ne hother)
  rw [hcore]
  exact ⟨hs.master, hs.parser, hs.valid, hsized.trans hs.sized⟩

/-- Before a chunk is recorded. -/
structure Starting (emulator : Emulator Parser Screen) (initial : Geometry) (thread : ℕ)
    (s : Session Parser Screen) : Prop where
  order : Holds .broadcastOrder thread s
  output : Holds .outputState thread s
  agree : s.Agree emulator initial
  owing : s.owing = []
  marks : NoMarks thread s

/-- After a chunk is recorded, under `output_state`: these subscribers are owed it. -/
structure Recorded (emulator : Emulator Parser Screen) (initial : Geometry) (thread : ℕ)
    (chunk : OutputChunk) (ids : Session Parser Screen → List ℕ) (s : Session Parser Screen) :
    Prop where
  order : Holds .broadcastOrder thread s
  output : Holds .outputState thread s
  agree : s.Agree emulator initial
  owing : s.owing = ids s
  latest : (outputs s.history).getLast? = some chunk
  marks : NoMarks thread s

/-- While a chunk is broadcast: these are the ids that are still owed it. -/
structure Broadcasting (thread : ℕ) (chunk : OutputChunk) (ids : List ℕ)
    (s : Session Parser Screen) : Prop where
  order : Holds .broadcastOrder thread s
  owing : s.owing.Perm ids
  latest : (outputs s.history).getLast? = some chunk
  marks : NoMarks thread s

/-- When the hooks are to be called: these are left. -/
structure Hooking (thread : ℕ) (shutdowns : List ℕ) (s : Session Parser Screen) : Prop where
  once : shutdowns.Nodup
  evictions : ∀ id, (thread, id) ∈ s.evictions ↔ id ∈ shutdowns ∨ (thread, id) ∈ s.hooks
  pending : ∀ id ∈ shutdowns, (thread, id) ∉ s.hooks

theorem Change.hooking {other : ℕ} (h : Change initial other s s') (hother : other ≠ thread)
    {shutdowns : List ℕ} (hs : Hooking thread shutdowns s) : Hooking thread shutdowns s' := by
  refine ⟨hs.once, fun id => ?_, fun id hid hmem => ?_⟩
  · rw [h.evictions thread hother.symm, h.hooks thread hother.symm]
    exact hs.evictions id
  · exact hs.pending id hid ((h.hooks thread hother.symm id).mp hmem)

/-- All subscribers that the thread evicted had their hooks called. -/
def Called (thread : ℕ) (s : Session Parser Screen) : Prop :=
  ∀ id, (thread, id) ∈ s.evictions → (thread, id) ∈ s.hooks

theorem stable_called : Stable (discipline emulator initial) thread (Called thread) :=
  stable_of_change fun _ _ _ hother hchange hs id hmem =>
    (hchange.hooks thread hother.symm id).mpr
      (hs id ((hchange.evictions thread hother.symm id).mp hmem))

theorem NoMarks.called (h : NoMarks thread s) : Called thread s :=
  fun id hmem => absurd hmem (h.evictions id)

theorem stable_hooking (shutdowns : List ℕ) :
    Stable (discipline emulator initial) thread (Hooking thread shutdowns) :=
  stable_of_change fun _ _ _ hother hchange hs => hchange.hooking hother hs

theorem stable_broadcasting (chunk : OutputChunk) (ids : List ℕ) :
    Stable (discipline emulator initial) thread (Broadcasting thread chunk ids) :=
  stable_of_change fun _ _ _ hother hchange hs => by
    obtain ⟨howing, houtputs⟩ := hchange.owing (hs.order.ne hother)
    exact ⟨hchange.holds hother hs.order, by rw [howing]; exact hs.owing,
      by rw [houtputs]; exact hs.latest, hchange.noMarks hother hs.marks⟩

theorem stable_starting :
    Stable (discipline emulator initial) thread (Starting emulator initial thread) :=
  stable_of_change fun _ _ _ hother hchange hs => by
    obtain ⟨howing, -⟩ := hchange.owing (hs.order.ne hother)
    exact ⟨hchange.holds hother hs.order, hchange.holds hother hs.output,
      hchange.agree hother hs.output hs.agree, howing.trans hs.owing,
      hchange.noMarks hother hs.marks⟩

theorem stable_recorded (chunk : OutputChunk) {ids : Session Parser Screen → List ℕ}
    (hids : ∀ s s' : Session Parser Screen, s'.subscribers.map Subscriber.id =
      s.subscribers.map Subscriber.id → ids s' = ids s) :
    Stable (discipline emulator initial) thread (Recorded emulator initial thread chunk ids) :=
  stable_of_change fun other s s' hother hchange hs => by
    obtain ⟨howing, houtputs⟩ := hchange.owing (hs.order.ne hother)
    have hsame : s'.subscribers.map Subscriber.id = s.subscribers.map Subscriber.id := by
      obtain ⟨subscribers, trail, hcore, hsame, -⟩ := hchange.output (hs.output.ne hother)
      rw [hcore]
      exact hsame
    exact ⟨hchange.holds hother hs.order, hchange.holds hother hs.output,
      hchange.agree hother hs.output hs.agree, by rw [howing, hs.owing, hids s s' hsame],
      by rw [houtputs]; exact hs.latest, hchange.noMarks hother hs.marks⟩

/-- What the terminal goes through without the subscribers and the sizes: the parser may be degraded on the
way. -/
structure Core.Follows (core core' : Core Parser Screen) : Prop where
  rows : core'.rows = core.rows
  cols : core'.cols = core.cols
  master : core'.master = core.master
  subscribers : core'.subscribers = core.subscribers
  next : core'.nextSubscriberId = core.nextSubscriberId
  cuts : core'.cuts = core.cuts
  trail : core'.trail = core.trail

theorem Core.Follows.trans {a b c : Core Parser Screen} (h : a.Follows b) (h' : b.Follows c) :
    a.Follows c :=
  ⟨h'.rows.trans h.rows, h'.cols.trans h.cols, h'.master.trans h.master,
    h'.subscribers.trans h.subscribers, h'.next.trans h.next, h'.cuts.trans h.cuts,
    h'.trail.trans h.trail⟩

theorem Core.follows_advance (core : Core Parser Screen) :
    core.Follows core.advanceStyledScreenRevision ∧
      core.advanceStyledScreenRevision.ring = core.ring ∧
      core.advanceStyledScreenRevision.history = core.history ∧
      (core.advanceStyledScreenRevision.terminalParserDegraded = false →
        core.terminalParserDegraded = false ∧
          core.advanceStyledScreenRevision.terminal = core.terminal) := by
  unfold Core.advanceStyledScreenRevision
  split_ifs
  · exact ⟨⟨rfl, rfl, rfl, rfl, rfl, rfl, rfl⟩, rfl, rfl, fun h => ⟨h, rfl⟩⟩
  · exact ⟨⟨rfl, rfl, rfl, rfl, rfl, rfl, rfl⟩, rfl, rfl, (nomatch ·)⟩

theorem Core.follows_update (core : Core Parser Screen) (panics : Bool) (bytes : OutputChunk) :
    core.Follows (core.updateTerminalSnapshotState emulator panics bytes) ∧
      (core.updateTerminalSnapshotState emulator panics bytes).ring = core.ring ∧
      (core.updateTerminalSnapshotState emulator panics bytes).history = core.history ∧
      ((core.updateTerminalSnapshotState emulator panics bytes).terminalParserDegraded = false →
        core.terminalParserDegraded = false ∧
          (core.updateTerminalSnapshotState emulator panics bytes).terminal =
            Output.NormalScreen.updateTerminalSnapshotState emulator.vt core.terminal bytes) := by
  unfold Core.updateTerminalSnapshotState
  split_ifs with hdegraded
  · exact ⟨⟨rfl, rfl, rfl, rfl, rfl, rfl, rfl⟩, rfl, rfl, fun h => by rw [hdegraded] at h; cases h⟩
  · exact ⟨⟨rfl, rfl, rfl, rfl, rfl, rfl, rfl⟩, rfl, rfl, (nomatch ·)⟩
  · exact ⟨⟨rfl, rfl, rfl, rfl, rfl, rfl, rfl⟩, rfl, rfl, fun h => ⟨h, rfl⟩⟩

/-- What recording a chunk does. -/
theorem Core.follows_appendOutput (core : Core Parser Screen) (panics : Bool) (bytes : OutputChunk) :
    core.Follows (core.appendOutput emulator panics bytes) ∧
      (core.appendOutput emulator panics bytes).ring = appendRingBytes core.ring bytes ∧
      (core.appendOutput emulator panics bytes).history = core.history ++ [.output bytes] ∧
      ((core.appendOutput emulator panics bytes).terminalParserDegraded = false →
        core.terminalParserDegraded = false ∧
          (core.appendOutput emulator panics bytes).terminal =
            Output.NormalScreen.updateTerminalSnapshotState emulator.vt core.terminal bytes) := by
  obtain ⟨hfollows, hring, hhistory, hterminal⟩ := @Core.follows_update _ _ emulator
    { core with
      ring := appendRingBytes core.ring bytes
      history := core.history ++ [.output bytes] } panics bytes
  have hfirst : core.Follows { core with
      ring := appendRingBytes core.ring bytes
      history := core.history ++ [.output bytes] } := ⟨rfl, rfl, rfl, rfl, rfl, rfl, rfl⟩
  unfold Core.appendOutput
  simp only
  split_ifs
  · obtain ⟨hfollows', hring', hhistory', hterminal'⟩ := Core.follows_advance
      (({ core with
        ring := appendRingBytes core.ring bytes
        history := core.history ++ [.output bytes] } : Core Parser Screen).updateTerminalSnapshotState
          emulator panics bytes)
    refine ⟨hfirst.trans (hfollows.trans hfollows'), hring'.trans hring, hhistory'.trans hhistory,
      fun h => ?_⟩
    obtain ⟨hdegraded, heq⟩ := hterminal' h
    obtain ⟨hdegraded', heq'⟩ := hterminal hdegraded
    exact ⟨hdegraded', heq.trans heq'⟩
  · exact ⟨hfirst.trans hfollows, hring, hhistory, hterminal⟩

/-- The parser after a chunk. -/
theorem size_update (hkeeps : emulator.KeepsSize initial) (terminal : SnapshotState Parser Screen)
    (bytes : OutputChunk) :
    emulator.size (Output.NormalScreen.updateTerminalSnapshotState emulator.vt terminal
      bytes).terminalScreen = emulator.size terminal.terminalScreen := by
  have hafter (bytes : OutputChunk) (parser : Parser) :
      emulator.size (emulator.vt.after parser bytes) = emulator.size parser := by
    induction bytes generalizing parser with
    | nil => rfl
    | cons byte bytes ih => exact (ih _).trans (hkeeps.process parser byte)
  rw [Output.NormalScreen.updateTerminalSnapshotState]
  simp only
  rw [processTerminalScreen_parses]
  exact hafter bytes terminal.terminalScreen

theorem Core.Follows.agree {core core' : Core Parser Screen} (h : core.Follows core')
    (hparser : emulator.KeepsSize initial → core'.terminalParserDegraded = false →
      core.terminalParserDegraded = false ∧ emulator.size core'.terminal.terminalScreen =
        emulator.size core.terminal.terminalScreen)
    (hagree : core.Agree emulator initial) : core'.Agree emulator initial := by
  have hsize : core'.size = core.size := by rw [Core.size, h.rows, h.cols]; rfl
  refine ⟨?_, fun hkeeps hdegraded => ?_, fun hvalid => ?_, ?_⟩
  · rw [h.master, hsize]
    exact hagree.master
  · obtain ⟨hdegraded, hsame⟩ := hparser hkeeps hdegraded
    rw [hsame, h.rows, h.cols]
    exact hagree.parser hkeeps hdegraded
  · rw [hsize]
    exact hagree.valid hvalid
  · rw [h.trail, hsize]
    exact hagree.sized

theorem Core.Follows.clean {core core' : Core Parser Screen} (h : core.Follows core')
    (hclean : core.Clean) : core'.Clean := by
  have hsize : core'.size = core.size := by rw [Core.size, h.rows, h.cols]; rfl
  rw [Core.Clean, h.subscribers, h.trail, hsize]
  exact hclean

theorem Membership.frame (h : Membership s) (hsubscribers : s'.subscribers = s.subscribers)
    (hcuts : s'.cuts = s.cuts) (hnext : s'.nextSubscriberId = s.nextSubscriberId)
    (htrail : ∀ id, .removed id ∈ s.trail → .removed id ∈ s'.trail)
    (hevictions : s'.evictions = s.evictions) (hhooks : s'.hooks = s.hooks) : Membership s' where
  ids := by rw [hsubscribers]; exact h.ids
  count := by rw [hsubscribers]; exact h.count
  valid := by rw [hsubscribers]; exact h.valid
  fresh := by rw [hcuts, hnext]; exact h.fresh
  joined := by rw [hsubscribers, hcuts]; exact h.joined
  gone id cut hcut := by
    rw [hcuts] at hcut
    rw [hsubscribers, hevictions]
    exact (h.gone id cut hcut).imp_right (Or.imp_right (htrail id))
  evicted := by rw [hevictions, hcuts, hsubscribers]; exact h.evicted
  evictedOnce := by rw [hevictions]; exact h.evictedOnce
  hooked := by rw [hhooks, hevictions]; exact h.hooked
  hookedOnce := by rw [hhooks]; exact h.hookedOnce

/-- What holds of the sizes when a clamp was just applied. -/
structure Core.Applied (emulator : Emulator Parser Screen) (initial : Geometry)
    (core : Core Parser Screen) : Prop where
  applied : ∀ source trail, core.trail = .applied source :: trail → source ≠ .forced →
    core.subscribers ≠ [] → core.Agree emulator initial ∧ IsSmallest core.subscribers core.size
  formatted : ∀ id trail, core.trail = .applied (.attach id) :: trail → ∀ cut,
    core.cuts id = some cut → cut.formatted = core.size

theorem Core.Follows.applied {core core' : Core Parser Screen} (h : core.Follows core')
    (hagree : core.Agree emulator initial → core'.Agree emulator initial)
    (happlied : core.Applied emulator initial) : core'.Applied emulator initial where
  applied source trail htrail hsource hsubscribers := by
    rw [h.trail] at htrail
    rw [h.subscribers] at hsubscribers ⊢
    obtain ⟨ha, hsmallest⟩ := happlied.applied source trail htrail hsource hsubscribers
    refine ⟨hagree ha, ?_⟩
    rwa [Core.size, h.rows, h.cols]
  formatted id trail htrail cut hcut := by
    rw [h.trail] at htrail
    rw [h.cuts] at hcut
    rw [Core.size, h.rows, h.cols]
    exact happlied.formatted id trail htrail cut hcut

theorem Sizes.appliedCore (h : Sizes emulator initial s) : s.Applied emulator initial :=
  ⟨h.applied, h.formatted⟩

theorem Sizes.frame (h : Sizes emulator initial s) (hlocks : s'.locks = s.locks)
    (hfollows : s.toCore.Follows s'.toCore)
    (hagree : s.Agree emulator initial → s'.Agree emulator initial) :
    Sizes emulator initial s' where
  agree hfree := hagree (h.agree (by rwa [hlocks] at hfree))
  clean hfree := hfollows.clean (h.clean (by rwa [hlocks] at hfree))
  applied := (hfollows.applied hagree h.appliedCore).applied
  formatted := (hfollows.applied hagree h.appliedCore).formatted

/-- A chunk that is recorded. -/
theorem inv_recordOutput (h : Inv emulator initial s) (howing : s.owing = [])
    (horder : s.locks .broadcastOrder ≠ none) (panics : Bool) (bytes : OutputChunk) :
    Inv emulator initial { s with
      toCore := s.toCore.appendOutput emulator panics bytes
      owing := s.subscribers.map Subscriber.id } := by
  obtain ⟨hfollows, hring, hhistory, hterminal⟩ :=
    @Core.follows_appendOutput _ _ emulator s.toCore panics bytes
  have hchunks {id : ℕ} {cut : Cut} (hcut : s.cuts id = some cut) :
      cut.chunks (s.history ++ [.output bytes]) = cut.chunks s.history ++ [bytes] :=
    Cut.chunks_append (h.delivery.history id cut hcut) [.output bytes]
  refine ⟨⟨?_, ?_⟩, h.membership.frame hfollows.subscribers hfollows.cuts hfollows.next
    (fun id hid => by rwa [hfollows.trail]) rfl rfl, ⟨?_, ?_, ?_, ?_, ?_, ?_, ?_⟩,
    h.sizes.frame rfl hfollows (hfollows.agree fun hkeeps hdegraded => ?_)⟩
  · rw [hring, hhistory, h.screens.ring, appendRingBytes_retained, outputs_append,
      List.flatten_append, outputs_output, List.flatten_singleton]
  · intro hdegraded
    obtain ⟨hdegraded, heq⟩ := hterminal hdegraded
    rw [heq, hhistory, terminalAfter_concat, ← h.screens.terminal hdegraded]
    rfl
  · intro id cut hcut
    rw [hfollows.cuts] at hcut
    rw [hhistory]
    exact (h.delivery.history id cut hcut).trans (List.prefix_append _ _)
  · intro id cut hcut
    rw [hfollows.cuts] at hcut
    exact h.delivery.snapshot id cut hcut
  · intro id cut hcut
    rw [hfollows.cuts] at hcut
    rw [hhistory, hchunks hcut]
    exact (h.delivery.sent id cut hcut).trans (List.prefix_append _ _)
  · intro sub hsub hnot
    rw [hfollows.subscribers] at hsub
    exact absurd (List.mem_map_of_mem hsub) hnot
  · intro id hid
    obtain ⟨sub, hsub, rfl⟩ := List.mem_map.mp hid
    obtain ⟨cut, hcut⟩ := h.membership.joined sub hsub
    refine ⟨cut, bytes, by rw [hfollows.cuts]; exact hcut, ?_, ?_⟩
    · rw [hhistory, outputs_append, outputs_output, List.getLast?_concat]
    · have hsent := h.delivery.delivered sub hsub (by rw [howing]; exact List.not_mem_nil) cut hcut
      rw [hhistory, hchunks hcut, hsent]
  · exact h.membership.ids
  · exact fun hfree => absurd hfree horder
  · obtain ⟨hdegraded, heq⟩ := hterminal hdegraded
    exact ⟨hdegraded, by rw [heq]; exact size_update hkeeps s.terminal bytes⟩

theorem triple_recordOutput (bytes : OutputChunk) :
    Triple (discipline emulator initial) thread (Starting emulator initial thread)
      (recordOutput emulator bytes) fun _ =>
        Recorded emulator initial thread bytes fun s => s.subscribers.map Subscriber.id := by
  refine triple_action stable_starting (fun _ => stable_recorded bytes fun s s' hsame => hsame) ?_
  intro s input hinv hs
  obtain ⟨hfollows, -, hhistory, hterminal⟩ :=
    @Core.follows_appendOutput _ _ emulator s.toCore input.fails bytes
  have horder : s.locks .broadcastOrder = some thread := hs.order
  have houtput : s.locks .outputState = some thread := hs.output
  refine ⟨inv_recordOutput hinv hs.owing (by rw [horder]; exact Option.some_ne_none _) input.fails
    bytes, ⟨fun _ => Or.inl rfl, fun _ hnot => absurd houtput hnot, fun hnot => absurd houtput hnot,
      fun _ hclean => hfollows.clean hclean, fun hnot => absurd horder hnot, fun _ _ _ => Iff.rfl,
      fun _ _ _ => Iff.rfl, fun other _ geometry hmem => ?_, fun id cut hcut _ => ?_,
      fun id hid => ?_⟩, ?_⟩
  · rwa [hfollows.trail] at hmem
  · rwa [hfollows.cuts] at hcut
  · rw [hfollows.subscribers] at hid
    exact Or.inl hid
  · refine ⟨horder, houtput, hfollows.agree (fun hkeeps hdegraded => ?_) hs.agree, ?_, ?_,
      ⟨hs.marks.evictions, hs.marks.hooks⟩⟩
    · obtain ⟨hdegraded, heq⟩ := hterminal hdegraded
      exact ⟨hdegraded, by rw [heq]; exact size_update hkeeps s.terminal bytes⟩
    · exact congrArg (List.map Subscriber.id) hfollows.subscribers.symm
    · show (outputs (s.toCore.appendOutput emulator input.fails bytes).history).getLast? = _
      rw [hhistory, outputs_append, outputs_output, List.getLast?_concat]

/-! ### Sending -/

theorem Channel.trySend_cases (channel : Channel) (chunk : OutputChunk) :
    channel.trySend chunk = (.ok, { channel with sent := channel.sent ++ [chunk] }) ∨
      (channel.trySend chunk).1 ≠ .ok ∧ (channel.trySend chunk).2 = channel := by
  unfold Channel.trySend
  split_ifs
  · exact Or.inr ⟨(nomatch ·), rfl⟩
  · exact Or.inr ⟨(nomatch ·), rfl⟩
  · exact Or.inl rfl

/-- The invariant when only what the channels hold, and who is owed the chunk, changes. -/
theorem Inv.channels (h : Inv emulator initial s) {channels : ℕ → Channel} {owing : List ℕ}
    (hsent : ∀ id cut, s.cuts id = some cut → (channels id).sent <+: cut.chunks s.history)
    (hdelivered : ∀ sub ∈ s.subscribers, sub.id ∉ owing → ∀ cut, s.cuts sub.id = some cut →
      (channels sub.id).sent = cut.chunks s.history)
    (howing : ∀ id ∈ owing, id ∈ s.owing ∧ (channels id).sent = (s.channels id).sent)
    (honce : owing.Nodup) : Inv emulator initial { s with channels := channels, owing := owing } where
  screens := h.screens
  membership := h.membership.frame rfl rfl rfl (fun _ hid => hid) rfl rfl
  delivery :=
    { history := h.delivery.history
      snapshot := h.delivery.snapshot
      sent := hsent
      delivered := hdelivered
      owing := fun id hid => by
        obtain ⟨hmem, heq⟩ := howing id hid
        obtain ⟨cut, chunk, hcut, hlatest, hchunks⟩ := h.delivery.owing id hmem
        exact ⟨cut, chunk, hcut, hlatest, by rw [heq]; exact hchunks⟩
      owingOnce := honce
      idle := fun hfree => by
        have hnil := h.delivery.idle hfree
        refine List.eq_nil_iff_forall_not_mem.mpr fun id hid => ?_
        have hmem := (howing id hid).1
        rw [hnil] at hmem
        cases hmem }
  sizes := h.sizes.frame rfl ⟨rfl, rfl, rfl, rfl, rfl, rfl, rfl⟩ fun hagree => hagree

/-- The ids that are owed the chunk after an attempt to send it to `id`. -/
def owedAfter (result : TrySend) (id : ℕ) (ids : List ℕ) : List ℕ :=
  if result = .ok then ids else id :: ids

theorem triple_trySend (id : ℕ) (chunk : OutputChunk) (ids : List ℕ) :
    Triple (discipline emulator initial) thread (Broadcasting thread chunk (id :: ids))
      (trySend id chunk) fun result => Broadcasting thread chunk (owedAfter result id ids) := by
  refine triple_action (stable_broadcasting chunk _) (fun _ => stable_broadcasting chunk _) ?_
  intro s input hinv hs
  have horder : s.locks .broadcastOrder = some thread := hs.order
  have hmem : id ∈ s.owing := hs.owing.symm.subset List.mem_cons_self
  obtain ⟨cut, latest, hcut, hlatest, hchunks⟩ := hinv.delivery.owing id hmem
  have hsame : latest = chunk := by
    rw [hs.latest, Option.some.injEq] at hlatest
    exact hlatest.symm
  subst hsame
  have hchange {channels : ℕ → Channel} {owing : List ℕ} :
      Change initial thread s { s with channels := channels, owing := owing } :=
    change_of_core_eq rfl (fun _ => Or.inl rfl) (fun hnot => absurd horder hnot) rfl
      fun _ _ _ => Iff.rfl
  rcases Channel.trySend_cases (s.channels id) latest with hok | ⟨hnot, hchannel⟩
  · simp only [hok, if_true]
    refine ⟨hinv.channels ?_ ?_ ?_ (hinv.delivery.owingOnce.erase id), hchange,
      ⟨horder, ?_, hs.latest, ⟨hs.marks.evictions, hs.marks.hooks⟩⟩⟩
    · intro other cut' hcut'
      by_cases heq : other = id
      · subst heq
        rw [hcut, Option.some.injEq] at hcut'
        rw [Function.update_self, ← hcut', hchunks]
      · rw [Function.update_of_ne heq]
        exact hinv.delivery.sent other cut' hcut'
    · intro sub hsub hnot cut' hcut'
      by_cases heq : sub.id = id
      · rw [heq, hcut, Option.some.injEq] at hcut'
        rw [heq, Function.update_self, ← hcut', hchunks]
      · rw [Function.update_of_ne heq]
        exact hinv.delivery.delivered sub hsub
          (fun howing => hnot ((List.mem_erase_of_ne heq).mpr howing)) cut' hcut'
    · intro other hother
      obtain ⟨hne, hother⟩ := (List.Nodup.mem_erase_iff hinv.delivery.owingOnce).mp hother
      exact ⟨hother, by rw [Function.update_of_ne hne]⟩
    · have herase := hs.owing.erase id
      rwa [List.erase_cons_head] at herase
  · simp only [if_neg hnot, hchannel, Function.update_eq_self, owedAfter]
    exact ⟨hinv, hchange, hs⟩

/-- The ids that are left after a pass. -/
def leftOwing (passed : List ℕ × List Subscriber) : List ℕ :=
  passed.1 ++ passed.2.map Subscriber.id

theorem Broadcasting.perm {chunk : OutputChunk} {ids ids' : List ℕ}
    (h : Broadcasting thread chunk ids s) (hperm : ids.Perm ids') :
    Broadcasting thread chunk ids' s :=
  ⟨h.order, h.owing.trans hperm, h.latest, h.marks⟩

theorem triple_sendPass (chunk : OutputChunk) (subscribers : List Subscriber)
    (disconnected : List ℕ) (pending : List Subscriber) :
    Triple (discipline emulator initial) thread
      (Broadcasting thread chunk
        (disconnected ++ (pending.map Subscriber.id ++ subscribers.map Subscriber.id)))
      (sendPass chunk subscribers disconnected pending)
      fun passed => Broadcasting thread chunk (leftOwing passed) := by
  induction subscribers generalizing disconnected pending with
  | nil =>
    refine triple_ret (stable_broadcasting chunk _) fun s _ hs => ?_
    rwa [List.map_nil, List.append_nil] at hs
  | cons sub subscribers ih =>
    have hfirst : (disconnected ++ (pending.map Subscriber.id ++ sub.id ::
        subscribers.map Subscriber.id)).Perm
        (sub.id :: (disconnected ++ (pending.map Subscriber.id ++
          subscribers.map Subscriber.id))) := by
      rw [← List.append_assoc, ← List.append_assoc]
      exact List.perm_middle
    refine triple_bind ((triple_trySend sub.id chunk (disconnected ++ (pending.map Subscriber.id ++
      subscribers.map Subscriber.id))).weaken fun s hs => hs.perm hfirst) fun result => ?_
    cases result with
    | ok => exact ih disconnected pending
    | full =>
      refine (ih disconnected (pending ++ [sub])).weaken fun s hs => hs.perm ?_
      rw [List.map_append, List.map_singleton, List.append_assoc]
      exact hfirst.symm
    | disconnected =>
      refine (ih (disconnected ++ [sub.id]) pending).weaken fun s hs => hs.perm ?_
      rw [List.append_assoc]
      exact List.perm_middle.symm

theorem triple_retryRounds (chunk : OutputChunk) (rounds : ℕ) (disconnected : List ℕ)
    (pending : List Subscriber) :
    Triple (discipline emulator initial) thread
      (Broadcasting thread chunk (leftOwing (disconnected, pending)))
      (retryRounds chunk rounds disconnected pending)
      fun passed => Broadcasting thread chunk (leftOwing passed) := by
  induction rounds generalizing disconnected pending with
  | zero => exact triple_ret (stable_broadcasting chunk _) fun s _ hs => hs
  | succ rounds ih =>
    rw [retryRounds]
    split_ifs
    · exact triple_ret (stable_broadcasting chunk _) fun s _ hs => hs
    · exact triple_bind (triple_sendPass chunk pending disconnected []) fun passed =>
        ih passed.1 passed.2

/-- The broadcast returns the ids that are still owed the chunk. -/
theorem triple_broadcastChunk (subscribers : List Subscriber) (chunk : OutputChunk) :
    Triple (discipline emulator initial) thread
      (Broadcasting thread chunk (subscribers.map Subscriber.id))
      (broadcastChunk subscribers chunk) fun ids => Broadcasting thread chunk ids := by
  refine triple_bind (triple_sendPass chunk subscribers [] []) fun first => ?_
  refine triple_bind (triple_action (stable_broadcasting chunk _)
    (Q := fun _ => Broadcasting thread chunk (leftOwing first))
    (fun _ => stable_broadcasting chunk _) fun s input hinv hs => ⟨hinv,
      change_of_core_eq rfl (fun _ => Or.inl rfl) (fun _ => rfl) rfl fun _ _ _ => Iff.rfl, hs⟩)
    fun rounds => ?_
  refine triple_bind (triple_retryRounds chunk rounds first.1 first.2) fun second => ?_
  exact triple_ret (stable_broadcasting chunk _) fun s _ hs => hs

/-! ### Evictions -/

/-- A subscriber's eviction. -/
theorem pendingDetach_evicted (ids : List ℕ) (trail : List Record) :
    pendingDetach (ids.map .evicted ++ trail) = ids ++ pendingDetach trail := by
  induction ids with
  | nil => rfl
  | cons id ids ih => rw [List.map_cons, List.cons_append, pendingDetach, ih, List.cons_append]

theorem lastSized_evicted (ids : List ℕ) (trail : List Record) :
    lastSized initial (ids.map .evicted ++ trail) = lastSized initial trail := by
  induction ids with
  | nil => rfl
  | cons id ids ih => exact ih

/-- A broadcast whose missed subscribers are to be evicted. -/
structure Evicting (emulator : Emulator Parser Screen) (initial : Geometry) (thread : ℕ)
    (chunk : OutputChunk) (ids : List ℕ) (s : Session Parser Screen) : Prop where
  broadcasting : Broadcasting thread chunk ids s
  output : Holds .outputState thread s
  agree : s.Agree emulator initial

/-- A broadcast that is over. -/
structure Evicted (thread : ℕ) (shutdowns : List ℕ) (s : Session Parser Screen) : Prop where
  order : Holds .broadcastOrder thread s
  owing : s.owing = []
  hooking : Hooking thread shutdowns s

theorem stable_evicting (chunk : OutputChunk) (ids : List ℕ) :
    Stable (discipline emulator initial) thread (Evicting emulator initial thread chunk ids) :=
  stable_of_change fun _ _ _ hother hchange hs => by
    obtain ⟨howing, houtputs⟩ := hchange.owing (hs.broadcasting.order.ne hother)
    exact ⟨⟨hchange.holds hother hs.broadcasting.order,
      by rw [howing]; exact hs.broadcasting.owing, by rw [houtputs]; exact hs.broadcasting.latest,
      hchange.noMarks hother hs.broadcasting.marks⟩, hchange.holds hother hs.output,
      hchange.agree hother hs.output hs.agree⟩

theorem stable_evicted (shutdowns : List ℕ) :
    Stable (discipline emulator initial) thread (Evicted thread shutdowns) :=
  stable_of_change fun _ _ _ hother hchange hs =>
    ⟨hchange.holds hother hs.order,
      (hchange.owing (hs.order.ne hother)).1.trans hs.owing, hchange.hooking hother hs.hooking⟩

theorem stable_evicted_agree (shutdowns : List ℕ) :
    Stable (discipline emulator initial) thread fun s => Evicted thread shutdowns s ∧
      Holds .outputState thread s ∧ s.Agree emulator initial :=
  stable_of_change fun _ _ _ hother hchange hs =>
    ⟨⟨hchange.holds hother hs.1.order, (hchange.owing (hs.1.order.ne hother)).1.trans hs.1.owing,
      hchange.hooking hother hs.1.hooking⟩, hchange.holds hother hs.2.1,
      hchange.agree hother hs.2.1 hs.2.2⟩

section Evict

variable (s : Session Parser Screen) (disconnected : List ℕ)

/-- The subscribers whose hooks are returned. -/
def shutdownsOf : List ℕ := (s.subscribers.map Subscriber.id).filter (· ∈ disconnected)

/-- The session after the eviction. -/
def evictedSession (thread : ℕ) : Session Parser Screen :=
  { s with
    subscribers := s.subscribers.filter (·.id ∉ disconnected)
    trail := (shutdownsOf s disconnected).map .evicted ++ s.trail
    owing := []
    evictions := (shutdownsOf s disconnected).map (thread, ·) ++ s.evictions }

variable {s disconnected}

theorem mem_shutdownsOf {id : ℕ} : id ∈ shutdownsOf s disconnected ↔
    id ∈ s.subscribers.map Subscriber.id ∧ id ∈ disconnected := by
  simp only [shutdownsOf, List.mem_filter, decide_eq_true_eq]

theorem mem_kept {id : ℕ} :
    id ∈ (s.subscribers.filter (·.id ∉ disconnected)).map Subscriber.id ↔
      id ∈ s.subscribers.map Subscriber.id ∧ id ∉ disconnected := by
  simp only [List.mem_map, List.mem_filter, decide_eq_true_eq]
  constructor
  · rintro ⟨sub, ⟨hsub, hnot⟩, rfl⟩
    exact ⟨⟨sub, hsub, rfl⟩, hnot⟩
  · rintro ⟨⟨sub, hsub, rfl⟩, hnot⟩
    exact ⟨sub, ⟨hsub, hnot⟩, rfl⟩

/-- An eviction of nobody. -/
theorem evictedSession_core (h : shutdownsOf s disconnected = []) :
    (evictedSession s disconnected thread).toCore = s.toCore := by
  have hkept : s.subscribers.filter (·.id ∉ disconnected) = s.subscribers := by
    rw [List.filter_eq_self]
    intro sub hsub
    have hnot : sub.id ∉ shutdownsOf s disconnected := by rw [h]; exact List.not_mem_nil
    rw [mem_shutdownsOf, not_and] at hnot
    simpa using hnot (List.mem_map_of_mem hsub)
  unfold evictedSession
  rw [h]
  show ({ s.toCore with
    subscribers := s.subscribers.filter (·.id ∉ disconnected) } : Core Parser Screen) = s.toCore
  rw [hkept]

theorem clean_evictedSession (h : s.Clean) : (evictedSession s disconnected thread).Clean := by
  by_cases hnobody : shutdownsOf s disconnected = []
  · rwa [evictedSession_core hnobody]
  · refine Or.inr (Or.inr (Or.inl ?_))
    show pendingDetach ((shutdownsOf s disconnected).map .evicted ++ s.trail) ≠ []
    rw [pendingDetach_evicted]
    exact fun hnil => hnobody (List.append_eq_nil_iff.mp hnil).1

/-- The head of the trail after an eviction. -/
theorem trail_evictedSession {source : Source} {trail : List Record}
    (h : (evictedSession s disconnected thread).trail = .applied source :: trail) :
    shutdownsOf s disconnected = [] := by
  cases hshutdowns : shutdownsOf s disconnected with
  | nil => rfl
  | cons id ids =>
    simp only [evictedSession, hshutdowns, List.map_cons, List.cons_append] at h
    cases h

theorem inv_evictedSession (h : Inv emulator initial s)
    (hdisconnected : ∀ id ∈ s.owing, id ∈ disconnected)
    (houtput : s.locks .outputState ≠ none) :
    Inv emulator initial (evictedSession s disconnected thread) := by
  have hkept : ∀ sub ∈ s.subscribers.filter (·.id ∉ disconnected),
      sub ∈ s.subscribers ∧ sub.id ∉ disconnected := by
    intro sub hsub
    simpa using List.mem_filter.mp hsub
  have hevictions : (evictedSession s disconnected thread).evictions.map Prod.snd =
      shutdownsOf s disconnected ++ s.evictions.map Prod.snd := by
    rw [evictedSession, List.map_append, List.map_map]
    simp [Function.comp_def]
  refine ⟨⟨h.screens.ring, h.screens.terminal⟩, ?_, ?_, ?_⟩
  · refine ⟨h.membership.ids.sublist (List.filter_sublist.map _),
      (List.length_filter_le _ _).trans h.membership.count,
      fun sub hsub => h.membership.valid sub (hkept sub hsub).1, h.membership.fresh,
      fun sub hsub => h.membership.joined sub (hkept sub hsub).1, fun id cut hcut => ?_,
      fun id hid => ?_, ?_, fun call hcall => ?_, h.membership.hookedOnce⟩
    · rw [hevictions, List.mem_append]
      rcases h.membership.gone id cut hcut with hmem | hmem | hmem
      · by_cases hin : id ∈ disconnected
        · exact Or.inr (Or.inl (Or.inl (mem_shutdownsOf.mpr ⟨hmem, hin⟩)))
        · exact Or.inl (mem_kept.mpr ⟨hmem, hin⟩)
      · exact Or.inr (Or.inl (Or.inr hmem))
      · exact Or.inr (Or.inr (List.mem_append_right _ hmem))
    · rw [hevictions, List.mem_append] at hid
      rcases hid with hid | hid
      · obtain ⟨hmem, hin⟩ := mem_shutdownsOf.mp hid
        obtain ⟨sub, hsub, rfl⟩ := List.mem_map.mp hmem
        exact ⟨h.membership.joined sub hsub, fun hkept => (mem_kept.mp hkept).2 hin⟩
      · obtain ⟨hcut, hnot⟩ := h.membership.evicted id hid
        exact ⟨hcut, fun hkept => hnot (mem_kept.mp hkept).1⟩
    · rw [hevictions, List.nodup_append]
      refine ⟨h.membership.ids.filter _, h.membership.evictedOnce, fun id hid other hother heq => ?_⟩
      subst heq
      exact (h.membership.evicted id hother).2 (mem_shutdownsOf.mp hid).1
    · exact List.mem_append_right _ (h.membership.hooked call hcall)
  · exact ⟨h.delivery.history, h.delivery.snapshot, h.delivery.sent,
      fun sub hsub _ => h.delivery.delivered sub (hkept sub hsub).1
        fun howing => (hkept sub hsub).2 (hdisconnected _ howing),
      fun _ hid => (nomatch hid), List.nodup_nil, fun _ => rfl⟩
  · refine ⟨fun hfree => absurd hfree houtput, fun hfree => clean_evictedSession (h.sizes.clean hfree),
      fun source trail htrail => ?_, fun id trail htrail => ?_⟩
    · have hnobody := trail_evictedSession htrail
      rw [evictedSession_core hnobody] at htrail ⊢
      exact h.sizes.applied source trail htrail
    · have hnobody := trail_evictedSession htrail
      rw [evictedSession_core hnobody] at htrail ⊢
      exact h.sizes.formatted id trail htrail

end Evict

theorem triple_evictDisconnectedSubscribers (chunk : OutputChunk) (disconnected : List ℕ) :
    Triple (discipline emulator initial) thread
      (Evicting emulator initial thread chunk disconnected)
      (evictDisconnectedSubscribers thread disconnected) fun shutdowns s =>
        Evicted thread shutdowns s ∧ Holds .outputState thread s ∧ s.Agree emulator initial := by
  refine triple_action (stable_evicting chunk _) (fun _ => stable_evicted_agree _) ?_
  intro s input hinv hs
  have horder : s.locks .broadcastOrder = some thread := hs.broadcasting.order
  have houtput : s.locks .outputState = some thread := hs.output
  have hmarks := hs.broadcasting.marks
  show Inv emulator initial (evictedSession s disconnected thread) ∧
    Change initial thread s (evictedSession s disconnected thread) ∧
      Evicted thread (shutdownsOf s disconnected) (evictedSession s disconnected thread) ∧
        Holds .outputState thread (evictedSession s disconnected thread) ∧
          (evictedSession s disconnected thread).Agree emulator initial
  have hother {other : ℕ} (hne : other ≠ thread) (id : ℕ) :
      (other, id) ∉ (shutdownsOf s disconnected).map (thread, ·) := by
    intro hmem
    obtain ⟨_, -, heq⟩ := List.mem_map.mp hmem
    exact hne (Prod.mk.inj heq).1.symm
  refine ⟨inv_evictedSession hinv (fun id hid => hs.broadcasting.owing.subset hid)
    (by rw [houtput]; exact Option.some_ne_none _), ?_, ⟨horder, rfl, ?_⟩, houtput, ?_⟩
  · refine ⟨fun _ => Or.inl rfl, fun _ hnot => absurd houtput hnot, fun hnot => absurd houtput hnot,
      fun _ => clean_evictedSession, fun hnot => absurd horder hnot, fun other hne id => ?_,
      fun _ _ _ => Iff.rfl, fun other _ geometry hmem => ?_, fun _ _ hcut _ => hcut,
      fun id hid => Or.inl (mem_kept.mp hid).1⟩
    · simp only [evictedSession, List.mem_append, hother hne id, false_or]
    · simp only [evictedSession, List.mem_append, List.mem_map] at hmem
      rcases hmem with ⟨_, -, heq⟩ | hmem
      · cases heq
      · exact hmem
  · refine ⟨hinv.membership.ids.filter _, fun id => ?_, fun id _ => hmarks.hooks id⟩
    simp only [evictedSession, List.mem_append, List.mem_map, Prod.mk.injEq, true_and,
      exists_eq_right, hmarks.evictions id, hmarks.hooks id]
  · refine ⟨hs.agree.master, hs.agree.parser, hs.agree.valid, ?_⟩
    exact (lastSized_evicted (shutdownsOf s disconnected) s.trail).trans hs.agree.sized

/-- The hooks are called. -/
theorem triple_callShutdowns (shutdowns : List ℕ) :
    Triple (discipline emulator initial) thread (Hooking thread shutdowns)
      (callShutdowns thread shutdowns) fun _ => Called thread := by
  induction shutdowns with
  | nil =>
    refine triple_ret stable_called fun s _ hs id hmem => ?_
    exact ((hs.evictions id).mp hmem).resolve_left List.not_mem_nil
  | cons id shutdowns ih =>
    refine triple_bind (triple_action (stable_hooking _) (Q := fun _ => Hooking thread shutdowns)
      (fun _ => stable_hooking _) ?_) fun _ => ih
    intro s input hinv hs
    obtain ⟨hnot, hnodup⟩ := List.nodup_cons.mp hs.once
    refine ⟨⟨⟨hinv.screens.ring, hinv.screens.terminal⟩, ?_, ⟨hinv.delivery.history,
      hinv.delivery.snapshot, hinv.delivery.sent, hinv.delivery.delivered, hinv.delivery.owing,
      hinv.delivery.owingOnce, hinv.delivery.idle⟩, hinv.sizes.frame rfl
      ⟨rfl, rfl, rfl, rfl, rfl, rfl, rfl⟩ fun hagree => hagree⟩, ?_, ?_⟩
    · refine ⟨hinv.membership.ids, hinv.membership.count, hinv.membership.valid,
        hinv.membership.fresh, hinv.membership.joined, hinv.membership.gone,
        hinv.membership.evicted, hinv.membership.evictedOnce, fun call hcall => ?_,
        List.nodup_cons.mpr ⟨hs.pending id List.mem_cons_self, hinv.membership.hookedOnce⟩⟩
      rcases List.mem_cons.mp hcall with rfl | hcall
      · exact (hs.evictions id).mpr (Or.inl List.mem_cons_self)
      · exact hinv.membership.hooked call hcall
    · refine change_of_core_eq rfl (fun _ => Or.inl rfl) (fun _ => rfl) rfl fun other hne other' => ?_
      rw [List.mem_cons, Prod.mk.injEq]
      exact ⟨fun h => h.resolve_left fun heq => hne heq.1, Or.inr⟩
    · refine ⟨hnodup, fun other => ?_, fun other hother hmem => ?_⟩
      · rw [hs.evictions other, List.mem_cons, List.mem_cons, Prod.mk.injEq]
        tauto
      · rcases List.mem_cons.mp hmem with heq | hmem
        · exact hnot ((Prod.mk.inj heq).2 ▸ hother)
        · exact hs.pending other (List.mem_cons_of_mem _ hother) hmem

theorem triple_evict (chunk : OutputChunk) (disconnected : List ℕ) :
    Triple (discipline emulator initial) thread (Broadcasting thread chunk disconnected)
      (evict thread disconnected) fun shutdowns => Evicted thread shutdowns := by
  unfold evict
  split_ifs with hempty
  · rw [List.isEmpty_iff] at hempty
    refine triple_ret (stable_evicted []) fun s _ hs => ⟨hs.order, ?_, List.nodup_nil, fun id => ?_,
      fun _ hid => (nomatch hid)⟩
    · rw [hempty] at hs
      exact hs.owing.eq_nil
    · simp only [hs.marks.evictions id, hs.marks.hooks id, List.not_mem_nil, or_self]
  · refine triple_bind (triple_acquire .outputState (stable_broadcasting chunk disconnected)
      (stable_evicting chunk disconnected) fun s hinv hs hfree => ?_) fun _ => ?_
    · exact ⟨⟨holds_update (by decide) hs.order, hs.owing, hs.latest,
        ⟨hs.marks.evictions, hs.marks.hooks⟩⟩, holds_acquired .outputState,
        hinv.sizes.agree hfree⟩
    refine triple_bind (triple_evictDisconnectedSubscribers chunk disconnected) fun shutdowns => ?_
    refine triple_bind (triple_release .outputState (stable_evicted_agree shutdowns)
      (stable_evicted shutdowns) fun s hinv hs => ?_) fun _ =>
        triple_ret (stable_evicted shutdowns) fun s _ hs => hs
    exact ⟨hs.2.1, (nomatch ·), fun _ => hs.2.2, (nomatch ·),
      holds_update (by decide) hs.1.order, hs.1.owing,
      ⟨hs.1.hooking.once, hs.1.hooking.evictions, hs.1.hooking.pending⟩⟩

/-- Before a chunk is recorded, without `output_state`. -/
structure Ordered (thread : ℕ) (s : Session Parser Screen) : Prop where
  order : Holds .broadcastOrder thread s
  owing : s.owing = []
  marks : NoMarks thread s

theorem stable_ordered : Stable (discipline emulator initial) thread (Ordered thread) :=
  stable_of_change fun _ _ _ hother hchange hs =>
    ⟨hchange.holds hother hs.order, (hchange.owing (hs.order.ne hother)).1.trans hs.owing,
      hchange.noMarks hother hs.marks⟩

theorem triple_appendOutput (bytes : OutputChunk) :
    Triple (discipline emulator initial) thread (Idle thread)
      (appendOutput emulator thread bytes) fun _ => Called thread := by
  refine triple_bind (triple_acquire .broadcastOrder stable_idle stable_ordered
    fun s hinv hs hfree => ⟨holds_acquired _, hinv.delivery.idle hfree, hs.evictions, hs.hooks⟩)
    fun _ => ?_
  refine triple_bind (triple_acquire .outputState stable_ordered stable_starting
    fun s hinv hs hfree => ⟨holds_update (by decide) hs.order, holds_acquired _,
      hinv.sizes.agree hfree, hs.owing, hs.marks.evictions, hs.marks.hooks⟩) fun _ => ?_
  refine triple_bind (triple_recordOutput bytes) fun _ => ?_
  have hstable (subscribers : List Subscriber) : Stable (discipline emulator initial) thread
      (Recorded emulator initial thread bytes fun _ => subscribers.map Subscriber.id) :=
    stable_recorded bytes fun _ _ _ => rfl
  refine triple_bind (triple_look (stable_recorded bytes fun _ _ hsame => hsame)
    (Q := fun subscribers => Recorded emulator initial thread bytes fun _ =>
      subscribers.map Subscriber.id) hstable fun s _ hs =>
      ⟨hs.order, hs.output, hs.agree, hs.owing, hs.latest, hs.marks⟩) fun subscribers => ?_
  split_ifs with hempty
  · rw [List.isEmpty_iff] at hempty
    subst hempty
    refine triple_bind (triple_release .outputState (hstable []) stable_ordered fun s hinv hs =>
      ⟨hs.output, (nomatch ·), fun _ => hs.agree, (nomatch ·),
        holds_update (by decide) hs.order, hs.owing, hs.marks.evictions, hs.marks.hooks⟩)
      fun _ => ?_
    exact triple_release .broadcastOrder stable_ordered stable_called fun s hinv hs =>
      ⟨hs.order, fun _ => hs.owing, (nomatch ·), (nomatch ·), hs.marks.called⟩
  · refine triple_bind (triple_release .outputState (hstable subscribers)
      (stable_broadcasting bytes (subscribers.map Subscriber.id)) fun s hinv hs =>
      ⟨hs.output, (nomatch ·), fun _ => hs.agree, (nomatch ·),
        holds_update (by decide) hs.order, by rw [hs.owing], hs.latest, hs.marks.evictions,
        hs.marks.hooks⟩) fun _ => ?_
    refine triple_bind (triple_broadcastChunk subscribers bytes) fun disconnected => ?_
    refine triple_bind (triple_evict bytes disconnected) fun shutdowns => ?_
    refine triple_bind (triple_release .broadcastOrder (stable_evicted shutdowns)
      (stable_hooking shutdowns) fun s hinv hs =>
      ⟨hs.order, fun _ => hs.owing, (nomatch ·), (nomatch ·),
        hs.hooking.once, hs.hooking.evictions, hs.hooking.pending⟩) fun _ => ?_
    exact triple_callShutdowns shutdowns

end LightTerminal.Server.Attach
