import LightTerminal.Server.Cascade

/-! # No child outlives the cascade

The operations on the maps keep the invariant of the cascade. A commit is the one that puts a session
under a parent: it holds the lock of the maps from the check that the parent is alive to the end, so
that no snapshot of the parent's children can be taken in between. The snapshot has all children,
and a session leaves the maps before its cleanup completes.

* `step_orderly`: every action keeps `Orderly`, over coherent maps;
* `no_orphans`: in every run, a session that was finalized has no child in the maps, and the relation
  of child and parent is well founded. -/

namespace LightTerminal.Server.Orphans

open LightTerminal.Data.Text LightTerminal.Library LightTerminal.Library.Ancestry
open LightTerminal.Library.FiniteMap
open LightTerminal.Session.Lifecycle LightTerminal.Server.Error LightTerminal.Server.Metadata
open LightTerminal.Server.Model LightTerminal.Server.Concurrent LightTerminal.Server.Operations
open LightTerminal.Server.Daemon LightTerminal.Server.Coherence LightTerminal.Server.Cascade

variable {s s' : State}

theorem orderly_new (journal : Bool) : Orderly (State.new journal) := by
  refine ⟨fun _ => trivial, fun id h => ?_, fun id h => absurd rfl h, fun id h => ?_, trivial,
    fun id h => absurd h Finmap.notMem_empty, fun id h => ?_⟩
  · cases h
  · cases h
  · cases h

/-! ### Metadata, grants and removal -/

theorem applyMetadataNameTransition_byId (sessions : SessionMaps) (id currentName nextName : Str) :
    (applyMetadataNameTransition sessions id currentName nextName).byId = sessions.byId := by
  unfold applyMetadataNameTransition
  split_ifs <;> rfl

theorem written_orderly {id : Str} {m : SessionMetadata} (h : Orderly s) (hw : Written s s' id m) :
    Orderly s' := by
  obtain ⟨hook, rfl⟩ := hw.state
  have hhook := interleave_orderly hook h
  have hsessions : (applyMetadataNameTransition s.sessions id (s.heap id).name m.current.name).byId =
      (interleave hook s).sessions.byId := by
    rw [applyMetadataNameTransition_byId, (interleave_unlocked hook s).sessions]
  have hmaps : Orderly { interleave hook s with
      sessions := applyMetadataNameTransition s.sessions id (s.heap id).name m.current.name } :=
    orderly_of_same hhook hsessions rfl rfl rfl rfl rfl
  refine hmaps.quiet ?_ rfl
  exact quiet_modify _ id (fun hd => hd) (fun hc => hc) .inl rfl .inl

theorem outcome_orderly {α : Type} {owner : α → Str} {idle : Prop}
    {change : SessionMetadata → SessionMetadata → Prop} {r : Except ServerError α × State}
    (h : Orderly s) (ho : Outcome owner idle change s r) : Orderly r.2 := by
  cases ho with
  | failed e hook => exact interleave_orderly hook h
  | kept v => exact h
  | written v s' m hw hchange => exact written_orderly h hw

theorem retainLiveInOrder_orderly : ∀ (order : List (Str × List FreeAction)) {s : State},
    Orderly s → Orderly (retainLiveInOrder order s)
  | [], _, h => h
  | (token, hook) :: order, s, h => by
    have hhook := interleaveFree_orderly hook h
    unfold retainLiveInOrder
    dsimp only
    split
    · split_ifs
      · exact retainLiveInOrder_orderly order hhook
      · exact retainLiveInOrder_orderly order (orderly_of_same hhook rfl rfl rfl rfl rfl rfl)
    · exact retainLiveInOrder_orderly order hhook

theorem issueInputCapability_orderly (target : Str) (byteBudget : ℕ) (token : Str)
    (hook : List UnlockedAction) (order : List (Str × List FreeAction)) (h : Orderly s) :
    Orderly (issueInputCapability target byteBudget token hook order s).2 := by
  have hretained : Orderly (retainLive order (interleave hook s)) := by
    have hordered := retainLiveInOrder_orderly order (interleave_orderly hook h)
    exact orderly_of_same hordered rfl rfl rfl rfl rfl rfl
  unfold issueInputCapability
  by_cases hbudget : 1 ≤ byteBudget ∧ byteBudget ≤ maxInputCapabilityBudget
  case neg =>
    rw [if_pos hbudget]
    exact h
  rw [if_neg (not_not.mpr hbudget)]
  dsimp only
  split
  · exact h
  split_ifs
  · exact h
  · exact hretained
  · exact hretained
  · exact orderly_of_same hretained rfl rfl rfl rfl rfl rfl

theorem removeSession_orderly (id : Str) (hook : List UnlockedAction) (h : Orderly s) :
    Orderly (removeSession id hook s) := by
  have hremoved : Orderly { s with sessions := removeFromMaps id (s.heap id) s.sessions } := by
    refine h.quiet ⟨fun id' hl => ?_, fun _ hd => hd, fun _ hc => hc, fun _ hc => .inl hc,
      fun _ => rfl, fun _ ha => .inl ha, rfl, rfl, fun _ hf => .inl hf⟩ rfl
    unfold Live removeFromMaps at hl
    dsimp only at hl
    split_ifs at hl
    · exact (Finmap.mem_erase.mp hl).2
    · exact hl
  exact orderly_of_same (interleave_orderly hook hremoved) rfl rfl rfl rfl rfl rfl

theorem not_live_remove (hc : Coherent s) (id : Str) :
    ¬Live { s with sessions := removeFromMaps id (s.heap id) s.sessions } id := by
  unfold Live removeFromMaps
  dsimp only
  split_ifs with hlookup
  · exact fun hmem => (Finmap.mem_erase.mp hmem).1 rfl
  · exact fun hmem => hlookup ((hc.byId id id).mpr ⟨hmem, rfl⟩)

/-! ### A session is added -/

/-- A change that adds at most one session, under a parent of which no snapshot is taken. -/
structure Adds (s s' : State) : Prop where
  heap : ∀ id ∈ s.history.committed, s'.heap id = s.heap id
  committed : ∀ id ∈ s.history.committed, id ∈ s'.history.committed
  live : ∀ id, Live s' id → Live s id ∨ ∀ p, parentOf s' id = some p → Unseen p s
  kept : ∀ id ∈ s.history.committed, Live s' id → Live s id
  threads : s'.threads = s.threads
  complete : ∀ id, (s'.heap id).cleanupComplete = true → (s.heap id).cleanupComplete = true
  finalized : s'.history.finalized = s.history.finalized

theorem Adds.parentOf_eq (ha : Adds s s') {id : Str} (hid : id ∈ s.history.committed) :
    parentOf s' id = parentOf s id := by
  unfold parentOf
  rw [ha.heap id hid]

/-- A new child of `p` is one that nobody has yet passed over. -/
theorem Adds.child (ha : Adds s s') (h : Orderly s) {c p : Str} (hc : Live s' c)
    (hparent : parentOf s' c = some p) : (Live s c ∧ parentOf s c = some p) ∨ Unseen p s := by
  rcases ha.live c hc with hold | hnew
  · rw [ha.parentOf_eq (h.live c hold)] at hparent
    exact .inl ⟨hold, hparent⟩
  · exact .inr (hnew p hparent)

theorem frameOk_adds {f : Frame} (ha : Adds s s') (hf : FrameOk s f) : FrameOk s' f := by
  have hheap := ha.heap f.session hf.committed
  refine ⟨ha.committed _ hf.committed, fun rest hrest c hc => ?_, fun hclaim => ?_,
    fun hphase hlive => hf.removed hphase (ha.kept _ hf.committed hlive)⟩
  · obtain ⟨hcommitted, hparent⟩ := hf.rest rest hrest c hc
    exact ⟨ha.committed c hcommitted, (ha.parentOf_eq hcommitted).trans hparent⟩
  · rw [hheap]
    exact hf.dead hclaim

theorem covers_adds {inner : Option Str} {i : ℕ} {f : Frame} (ha : Adds s s') (h : Orderly s)
    (hf : f ∈ s.threads i) (hcovers : Covers s inner f) : Covers s' inner f := by
  have hseen : pastSnapshot f.phase = true → ¬Unseen f.session s := by
    intro hpast hunseen
    rw [hunseen.frames i f hf rfl] at hpast
    cases hpast
  unfold Covers at hcovers ⊢
  split at hcovers
  · next rest hphase =>
    intro c hc hparent
    rcases ha.child h hc hparent with ⟨hold, hparent⟩ | hunseen
    · exact hcovers c hold hparent
    · exact absurd hunseen (hseen (by rw [hphase]; rfl))
  · next hphase =>
    intro c hc hparent
    rcases ha.child h hc hparent with ⟨hold, hparent⟩ | hunseen
    · exact hcovers c hold hparent
    · exact absurd hunseen (hseen (by rw [hphase]; rfl))
  · next hphase =>
    intro c hc hparent
    rcases ha.child h hc hparent with ⟨hold, hparent⟩ | hunseen
    · exact hcovers c hold hparent
    · exact absurd hunseen (hseen (by rw [hphase]; rfl))
  · trivial

theorem stackOk_adds {i : ℕ} (ha : Adds s s') (h : Orderly s) :
    ∀ {inner : Option Str} {stack : List Frame}, (∀ c, inner = some c → c ∈ s.history.committed) →
      (∀ f ∈ stack, f ∈ s.threads i) → StackOk s inner stack → StackOk s' inner stack
  | _, [], _, _, _ => trivial
  | inner, f :: below, hcommitted, hmem, ⟨hf, hcovers, hinner, hbelow⟩ => by
    refine ⟨frameOk_adds ha hf, covers_adds ha h (hmem f List.mem_cons_self) hcovers,
      fun c hc => ?_, stackOk_adds ha h ?_ (fun g hg => hmem g (List.mem_cons_of_mem _ hg)) hbelow⟩
    · exact (ha.parentOf_eq (hcommitted c hc)).trans (hinner c hc)
    · intro c hc
      cases hc
      exact hf.committed

theorem over_adds {id : Str} (ha : Adds s s') (h : Orderly s)
    (hcomplete : (s.heap id).cleanupComplete = true) : Over s' id := by
  have hover := h.complete id hcomplete
  refine ⟨ha.committed id hover.committed, ?_, fun hl => ?_, fun c hc hparent => ?_⟩
  · rw [ha.heap id hover.committed]
    exact hover.dead
  · exact hover.removed (ha.kept id hover.committed hl)
  · rcases ha.child h hc hparent with ⟨hold, hparent⟩ | hunseen
    · exact hover.childless c hold hparent
    · rw [hunseen.incomplete] at hcomplete
      cases hcomplete

/-- Adding a session keeps the invariant, but for what has to be known of the session itself. -/
theorem orderly_adds (h : Orderly s) (ha : Adds s s')
    (hclaimed : ∀ id, (s'.heap id).lifecycle.authority ≠ none → (s'.heap id).alive = false)
    (hordered : Ordered (parentOf s') s'.history.committed)
    (hlive : ∀ id, Live s' id → id ∈ s'.history.committed)
    (hcreated : ∀ id ∈ s'.history.committed, id ∈ s'.history.created) : Orderly s' := by
  refine ⟨fun i => ?_, fun id hid => over_adds ha h (ha.complete id hid), hclaimed, fun id hid => ?_,
    hordered, hlive, hcreated⟩
  · rw [ha.threads]
    exact stackOk_adds ha h (fun c hc => (by cases hc)) (fun f hf => hf) (h.threads i)
  · rw [ha.finalized] at hid
    have hcomplete := h.finalized id hid
    rw [ha.heap id (h.complete id hcomplete).committed]
    exact hcomplete

theorem orderly_allocate (h : Orderly s) {id : Str} (fresh : id ∉ s.history.created) {x : Session}
    (hcomplete : x.cleanupComplete = false) (hunclaimed : x.lifecycle.authority = none) :
    Orderly (allocate id x s) := by
  have hself : (allocate id x s).heap id = x := Function.update_self ..
  have hother : ∀ id', id' ≠ id → (allocate id x s).heap id' = s.heap id' := fun id' hne =>
    Function.update_of_ne hne ..
  have hne : ∀ id' ∈ s.history.committed, id' ≠ id := by
    rintro id' hid' rfl
    exact fresh (h.created id' hid')
  have hheap : ∀ id' ∈ s.history.committed, (allocate id x s).heap id' = s.heap id' :=
    fun id' hid' => hother id' (hne id' hid')
  refine orderly_adds h ⟨hheap, fun _ hid => hid, fun _ hl => .inl hl, fun _ _ hl => hl, rfl,
    fun id' hid' => ?_, rfl⟩ (fun id' hid' => ?_) ?_ h.live ?_
  · by_cases heq : id' = id
    · rw [heq, hself, hcomplete] at hid'
      cases hid'
    · rwa [hother id' heq] at hid'
  · by_cases heq : id' = id
    · rw [heq, hself] at hid'
      exact absurd hunclaimed hid'
    · rw [hother id' heq] at hid' ⊢
      exact h.claimed id' hid'
  · refine h.ordered.congr fun id' hid' => ?_
    unfold parentOf
    rw [hheap id' hid']
  · exact fun id' hid' => List.mem_cons_of_mem _ (h.created id' hid')

theorem orderly_install (h : Orderly s) (r : SessionReservation) {id : Str}
    (hcreated : id ∈ s.history.created) (hid : id ∉ s.history.committed)
    {parent : Option ParentSession}
    (hparent : ∀ p, parent.map (·.id) = some p → p ∈ s.history.committed ∧ Unseen p s) :
    Orderly (install r id parent s) := by
  have hne : ∀ id' ∈ s.history.committed, id' ≠ id := fun id' hid' heq => hid (heq ▸ hid')
  have hheap : ∀ id' ∈ s.history.committed, (install r id parent s).heap id' = s.heap id' :=
    fun id' hid' => State.modify_heap_of_ne s id (recordParent parent) (hne id' hid')
  have hnew : parentOf (install r id parent s) id = parent.map (·.id) := by
    show ((s.modify id (recordParent parent)).heap id).parentSessionId = _
    rw [State.modify_heap_self]
    rfl
  have hlive : ∀ id', Live (install r id parent s) id' ↔ id' = id ∨ Live s id' := fun id' =>
    Finmap.mem_insert
  have hcomplete : ∀ id', ((install r id parent s).heap id').cleanupComplete =
      (s.heap id').cleanupComplete := State.modify_heap_proj s id (recordParent parent) rfl
  have hauthority : ∀ id', ((install r id parent s).heap id').lifecycle.authority =
      (s.heap id').lifecycle.authority :=
    State.modify_heap_proj s id (recordParent parent) (p := fun x => x.lifecycle.authority) rfl
  have halive : ∀ id', ((install r id parent s).heap id').alive = (s.heap id').alive :=
    State.modify_heap_proj s id (recordParent parent) rfl
  refine orderly_adds h ⟨hheap, fun id' hid' => List.mem_cons_of_mem _ hid', fun id' hl => ?_,
    fun id' hid' hl => ?_, rfl, fun id' hc => ?_, rfl⟩ (fun id' hid' => ?_) ⟨?_, hid, ?_⟩ ?_ ?_
  · rcases (hlive id').mp hl with rfl | hold
    · refine .inr fun p hp => ?_
      rw [hnew] at hp
      exact (hparent p hp).2
    · exact .inl hold
  · exact ((hlive id').mp hl).resolve_left (hne id' hid')
  · rwa [hcomplete id'] at hc
  · rw [halive]
    rw [hauthority] at hid'
    exact h.claimed id' hid'
  · intro p hp
    rw [hnew] at hp
    exact (hparent p hp).1
  · refine h.ordered.congr fun id' hid' => ?_
    unfold parentOf
    rw [hheap id' hid']
  · intro id' hl
    rcases (hlive id').mp hl with rfl | hold
    · exact List.mem_cons_self
    · exact List.mem_cons_of_mem _ (h.live id' hold)
  · intro id' hid'
    rcases List.mem_cons.mp hid' with rfl | hid'
    · exact hcreated
    · exact h.created id' hid'

/-- A parent that a commit records is in the maps and alive. -/
theorem resolveSelection_ok (hc : Coherent s) {selection : Option ParentSelection}
    {parent : Option ParentSession} (h : resolveSelection s selection = .ok parent) :
    ∀ p, parent.map (·.id) = some p → Live s p ∧ (s.heap p).alive = true := by
  intro p hp
  rcases selection with _ | request | proof
  · cases h
    cases hp
  · simp only [resolveSelection, resolveParentSessionLocked] at h
    split at h
    · cases h
    next found hfound =>
    split at hfound
    · cases hfound
    next id hid =>
    have hlive := ((hc.byPane _ _).mp hid).1
    by_cases halive : (s.heap id).alive = false
    · rw [if_pos halive] at hfound
      cases hfound
    rw [if_neg halive] at hfound
    have hparent : found.id = id := by
      rcases request with ⟨paneId, token⟩ | paneId
      · dsimp only at hfound
        split_ifs at hfound
        cases hfound
        rfl
      · cases hfound
        rfl
    cases h
    cases hp
    show Live s found.id ∧ (s.heap found.id).alive = true
    rw [hparent]
    exact ⟨hlive, Bool.eq_true_of_not_eq_false halive⟩
  · simp only [resolveSelection, resolveImplicitParentLocked] at h
    split at h
    · cases h
    next id hid =>
    obtain ⟨hlive, hself⟩ := (hc.byId _ _).mp hid
    by_cases hchanged : (s.heap id).alive = false ∨ (s.heap id).paneId ≠ proof.parent.paneId ∨
        (s.heap id).leaderIdentity ≠ some proof.leaderIdentity
    · rw [if_pos hchanged] at h
      cases h
    rw [if_neg hchanged] at h
    cases h
    cases hp
    have hid : id = proof.parent.id := hself
    show Live s proof.parent.id ∧ (s.heap proof.parent.id).alive = true
    rw [← hid]
    exact ⟨hlive, Bool.eq_true_of_not_eq_false fun hdead => hchanged (.inl hdead)⟩

theorem commit_orderly (hc : Coherent s) (h : Orderly s) (r : SessionReservation) {id : Str}
    (fresh : id ∉ s.history.created) (theme : Option StatusTheme) (token : Str)
    (leader : Option ProcessIdentity) (selection : Option ParentSelection)
    (hook : List UnlockedAction) :
    Orderly (commit r id selection hook (allocate id (newSession r theme token leader) s)).2 := by
  have hallocated : Orderly (allocate id (newSession r theme token leader) s) :=
    orderly_allocate h fresh rfl rfl
  have hcoherent := coherent_allocate hc fresh (newSession r theme token leader)
  have hid : id ∉ (allocate id (newSession r theme token leader) s).history.committed := fun hmem =>
    fresh (h.created id hmem)
  have hcreated : id ∈ (allocate id (newSession r theme token leader) s).history.created :=
    List.mem_cons_self
  generalize allocate id (newSession r theme token leader) s = t at *
  unfold commit
  split_ifs
  · exact hallocated
  · exact hallocated
  split
  · exact hallocated
  next parent hresolved =>
  -- the parent may die while the commit goes on, but no snapshot of its children is taken
  have hu := interleave_unlocked hook t
  refine orderly_install (interleave_orderly hook hallocated) r ?_ ?_ fun p hp => ?_
  · rwa [hu.created]
  · rwa [hu.committed]
  · obtain ⟨hlive, halive⟩ := resolveSelection_ok hcoherent hresolved p hp
    rw [hu.committed]
    exact ⟨hallocated.live p hlive, interleave_unseen hook (hallocated.unseen halive)⟩

/-! ### Calls of `finalize_session` -/

/-- The snapshot has the children in the maps, and nothing else. -/
theorem mem_childrenOf (hc : Coherent s) (id c : Str) :
    c ∈ childrenOf s id ↔ Live s c ∧ parentOf s c = some id := by
  unfold childrenOf parentOf
  rw [Multiset.mem_filter]
  refine and_congr_left fun _ => ?_
  constructor
  · intro hmem
    obtain ⟨⟨pane, c'⟩, hentry, rfl⟩ := Multiset.mem_map.mp hmem
    exact ((hc.byPane pane c').mp (Finmap.lookup_eq_some_iff.mpr hentry)).1
  · intro hlive
    have hlookup := (hc.byPane _ c).mpr ⟨hlive, rfl⟩
    exact Multiset.mem_map.mpr ⟨⟨_, c⟩, Finmap.lookup_eq_some_iff.mp hlookup, rfl⟩

theorem snapshotChildren_orderly (hc : Coherent s) (h : Orderly s) {i : ℕ} {id : Str}
    {below : List Frame} (hthread : s.threads i = ⟨id, .cleaning⟩ :: below) {order : List Str}
    (horder : (order : Multiset Str) = childrenOf s id) :
    Orderly (s.setThread i (⟨id, .children order⟩ :: below)) := by
  have hmem : ∀ c, c ∈ order ↔ Live s c ∧ parentOf s c = some id := by
    intro c
    rw [← mem_childrenOf hc, ← horder]
    exact Multiset.mem_coe.symm
  have hstack := h.threads i
  rw [hthread] at hstack
  have hframe := hstack.1
  refine h.setThread i (stackOk_cons hstack rfl ⟨hframe.committed, ?_, ?_, ?_⟩ ?_)
  · intro rest hrest c hmemc
    cases hrest
    obtain ⟨hlive, hparent⟩ := (hmem c).mp hmemc
    exact ⟨h.live c hlive, hparent⟩
  · exact fun _ => hframe.dead rfl
  · intro hphase
    cases hphase
  · exact fun c hlive hparent => .inl ((hmem c).mpr ⟨hlive, hparent⟩)

theorem finalizeRemove_orderly (hc : Coherent s) (h : Orderly s) {i : ℕ} {id : Str}
    {below : List Frame} (hthread : s.threads i = ⟨id, .removing⟩ :: below)
    (hook : List UnlockedAction) :
    Orderly ((removeSession id hook s).setThread i (⟨id, .completing⟩ :: below)) := by
  have hremoved := removeSession_orderly id hook h
  have hgone : ¬Live (removeSession id hook s) id := by
    unfold Live
    rw [(removeSession_unlocked id hook s).sessions]
    exact not_live_remove hc id
  have hstack := hremoved.threads i
  have hsame : (removeSession id hook s).threads i = ⟨id, .removing⟩ :: below :=
    interleave_removing hook hthread
  rw [hsame] at hstack
  have hframe := hstack.1
  refine hremoved.setThread i (stackOk_cons hstack rfl ⟨hframe.committed, ?_, ?_, ?_⟩ hstack.2.1)
  · intro rest hrest
    cases hrest
  · exact fun _ => hframe.dead rfl
  · exact fun _ => hgone

/-! ### Runs -/

theorem step_orderly (hc : Coherent s) (h : Orderly s) (a : Action) : Orderly (step s a) := by
  cases a with
  | reserve requestedName =>
    rw [step]
    unfold reserveSessionIdentity
    split
    · exact h
    split_ifs
    · exact h
    · exact h
    · split
      · exact h
      · exact orderly_of_same h rfl rfl rfl rfl rfl rfl
  | commit r id theme token leader selection hook =>
    rw [step]
    split_ifs with hr
    · exact commit_orderly hc h r hr.2 theme token leader selection hook
    · exact h
  | dropReservation r =>
    rw [step]
    split_ifs
    · exact orderly_of_same h rfl rfl rfl rfl rfl rfl
    · exact h
  | setStatusTheme target theme => exact outcome_orderly h (setStatusTheme_outcome target theme s)
  | rename target newName hook => exact outcome_orderly h (renameSession_outcome target newName hook s)
  | metadataStep target direction hook =>
    exact outcome_orderly h (metadataStep_outcome target direction hook s)
  | purgeHistory target irreversible claimed now =>
    exact outcome_orderly h (metadataPurgeHistory_outcome target irreversible claimed now s)
  | removeSession id hook => exact removeSession_orderly id hook h
  | issue target byteBudget token hook order =>
    rw [step]
    split_ifs
    · exact h
    · exact issueInputCapability_orderly target byteBudget token hook order h
  | unlocked action => exact UnlockedAction.step_orderly s action h
  | finalize thread id trigger =>
    rw [step]
    split_ifs with hstart
    · refine h.setThread thread ⟨frameOk_claiming hstart.2 trigger, trivial, fun c hc => ?_, trivial⟩
      cases hc
    · exact h
  | snapshotChildren thread order =>
    rw [step]
    split
    · next id below hthread =>
      split_ifs with horder
      · exact snapshotChildren_orderly hc h hthread horder
      · exact h
    · exact h
  | finalizeRemove thread hook =>
    rw [step]
    split
    · next id below hthread => exact finalizeRemove_orderly hc h hthread hook
    · exact h

theorem run_orderly (journal : Bool) (actions : List Action) :
    Orderly (run (State.new journal) actions) := by
  have hstep : ∀ s a, Coherent s ∧ Orderly s → Coherent (step s a) ∧ Orderly (step s a) :=
    fun s a h => ⟨Effect.coherent h.1 (step_effect s a), step_orderly h.1 h.2 a⟩
  exact (Run.run_invariant hstep actions _ ⟨coherent_new journal, orderly_new journal⟩).2

/-- The sessions of a call stack, the innermost first, are a line of descent. -/
theorem StackOk.isChain : ∀ {inner : Option Str} {stack : List Frame}, StackOk s inner stack →
    (stack.map (·.session)).IsChain (ChildOf (parentOf s) s.history.committed)
  | _, [], _ => .nil
  | _, [f], _ => .singleton _
  | _, f :: g :: below, ⟨hf, _, _, hbelow⟩ => by
    refine .cons_cons ⟨hf.committed, hbelow.2.2.1 f.session rfl⟩ ?_
    exact StackOk.isChain hbelow

/-- **No child outlives the cascade.** In every run, a session for which `finalize_session` has
returned has no child in any of the maps. The relation of child and parent over all sessions that
were ever committed is well founded and has no cycle; the recursion of `finalize_session` descends it,
so that a call stack is never deeper than the number of those sessions. -/
theorem no_orphans (journal : Bool) (actions : List Action) :
    let s := run (State.new journal) actions
    let child := ChildOf (parentOf s) s.history.committed
    (∀ p ∈ s.history.finalized, ∀ key c,
      (s.sessions.byId.lookup key = some c ∨ s.sessions.byName.lookup key = some c ∨
        s.sessions.byPane.lookup key = some c) → (s.heap c).parentSessionId ≠ some p) ∧
      WellFounded child ∧ (∀ id, ¬Relation.TransGen child id id) ∧
      ∀ i, ((s.threads i).map (·.session)).IsChain child ∧
        (s.threads i).length ≤ s.history.committed.length := by
  have hc := run_coherent journal actions
  have h := run_orderly journal actions
  dsimp only
  generalize run (State.new journal) actions = s at hc h
  refine ⟨fun p hp key c hlookup => ?_, h.ordered.wellFounded, h.ordered.acyclic, fun i => ?_⟩
  · have hlive : Live s c := by
      rcases hlookup with hlookup | hlookup | hlookup
      · exact ((hc.byId key c).mp hlookup).1
      · exact ((hc.byName key c).mp hlookup).1
      · exact ((hc.byPane key c).mp hlookup).1
    exact (h.complete p (h.finalized p hp)).childless c hlive
  · have hchain := StackOk.isChain (h.threads i)
    have hcommitted : ∀ id ∈ (s.threads i).map (·.session), id ∈ s.history.committed := by
      intro id hid
      obtain ⟨f, hf, rfl⟩ := List.mem_map.mp hid
      exact ((h.threads i).frameOk f hf).committed
    have hlength := h.ordered.length_le hcommitted hchain
    rw [List.length_map] at hlength
    exact ⟨hchain, hlength⟩

-- a parent and its child: the cascade finalizes the child first
example :
    let go : Action := .unlocked (.free (.finalize 0 7 0))
    let s := run (State.new false)
      ([.reserve none, .commit ⟨"lterm-0".toList, "%0".toList⟩ ['a'] none [] none none [],
        .reserve none, .commit ⟨"lterm-1".toList, "%1".toList⟩ ['b'] none [] none
          (some (.explicit (.tmuxTarget "%0".toList))) [],
        .finalize 0 ['a'] .closeRequested, go, go, go, go, .snapshotChildren 0 [['b']], go, go, go,
        go, go, .snapshotChildren 0 [], go, .finalizeRemove 0 [], go, go, .finalizeRemove 0 [], go])
    s.history.finalized = [['a'], ['b']] := by
  decide

end LightTerminal.Server.Orphans
