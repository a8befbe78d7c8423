import LightTerminal.Library.Index
import LightTerminal.Server.Daemon

/-! # The session maps are coherent

The three maps index one set of sessions, by id, by current name and by pane; the reserved names and
panes are those of the outstanding reservations, none of them is taken, and there are never more
than `MAX_SESSIONS` panes in use or reserved.

* `Effect.coherent`: every action keeps `Coherent`;
* `sessionMaps_coherent`: it holds in every state of every run, and the internal errors of `commit`,
  `rename_session` and `metadata_step` are never returned. -/

namespace LightTerminal.Server.Coherence

open LightTerminal.Data.Text LightTerminal.Library LightTerminal.Library.FiniteMap
open LightTerminal.Library.Index LightTerminal.Server.Error LightTerminal.Server.Metadata
open LightTerminal.Server.Model LightTerminal.Server.Concurrent LightTerminal.Server.Operations
open LightTerminal.Server.Daemon

/-- The session `id` is in the maps. -/
def Live (s : State) (id : Str) : Prop := id ∈ s.sessions.byId

/-- The maps are coherent. -/
structure Coherent (s : State) : Prop where
  byId : Indexes s.sessions.byId (Live s) id
  byName : Indexes s.sessions.byName (Live s) fun id => (s.heap id).name
  byPane : Indexes s.sessions.byPane (Live s) fun id => (s.heap id).paneId
  reservedNames : ∀ name, name ∈ s.sessions.reservedNames ↔ ∃ r ∈ s.reservations, r.name = name
  reservedPanes : ∀ pane, pane ∈ s.sessions.reservedPanes ↔ ∃ r ∈ s.reservations, r.paneId = pane
  distinctNames : (s.reservations.map (·.name)).Nodup
  distinctPanes : (s.reservations.map (·.paneId)).Nodup
  namesDisjoint : ∀ name ∈ s.sessions.reservedNames, name ∉ s.sessions.byName
  panesDisjoint : ∀ pane ∈ s.sessions.reservedPanes, pane ∉ s.sessions.byPane
  capacity : size s.sessions.byPane + s.sessions.reservedPanes.card ≤ maxSessions
  created : ∀ id, Live s id → id ∈ s.history.created

theorem coherent_new (journal : Bool) : Coherent (State.new journal) := by
  have hempty : ∀ (key : Str → Str), Indexes (∅ : Map Str Str) (fun id => id ∈ (∅ : Map Str Str)) key :=
    fun key k i => by simp [Finmap.notMem_empty]
  refine ⟨hempty _, hempty _, hempty _, ?_, ?_, List.nodup_nil, List.nodup_nil, ?_, ?_, ?_, ?_⟩
  · simp [State.new]
  · simp [State.new]
  · simp [State.new]
  · simp [State.new]
  · exact Nat.zero_le _
  · exact fun id h => absurd h Finmap.notMem_empty

/-! ### Reservations -/

section Reservation
variable {α : Type} {key : SessionReservation → α} {l : List SessionReservation}
  {r : SessionReservation}

/-- The keys of the reservations without `r` are those other than its own. -/
theorem exists_erase_iff (hnodup : (l.map key).Nodup) (hr : r ∈ l) (a : α) :
    (∃ r' ∈ l.erase r, key r' = a) ↔ a ≠ key r ∧ ∃ r' ∈ l, key r' = a := by
  have hinj : ∀ r' ∈ l, key r' = key r → r' = r := fun r' hr' h =>
    List.inj_on_of_nodup_map hnodup hr' hr h
  have hl : l.Nodup := hnodup.of_map _
  constructor
  · rintro ⟨r', hr', rfl⟩
    rw [hl.mem_erase_iff] at hr'
    exact ⟨fun h => hr'.1 (hinj r' hr'.2 h), r', hr'.2, rfl⟩
  · rintro ⟨hne, r', hr', rfl⟩
    refine ⟨r', hl.mem_erase_iff.mpr ⟨?_, hr'⟩, rfl⟩
    rintro rfl
    exact hne rfl

theorem nodup_map_erase (hnodup : (l.map key).Nodup) : ((l.erase r).map key).Nodup :=
  hnodup.sublist (List.erase_sublist.map key)

end Reservation

/-! ### Each effect -/

variable {s s' : State}

theorem Coherent.unlocked (h : Coherent s) (hu : Unlocked s s') : Coherent s' := by
  obtain ⟨h1, h2, h3, h4, h5, h6, h7, h8, h9, h10, h11⟩ := h
  have hlive : ∀ id, Live s' id ↔ Live s id := fun id => by unfold Live; rw [hu.sessions]
  have hname : ∀ id, (s'.heap id).name = (s.heap id).name := fun id => by
    unfold Session.name; rw [(hu.heap id).metadata]
  refine ⟨?_, ?_, ?_, ?_, ?_, ?_, ?_, ?_, ?_, ?_, ?_⟩
  · rw [hu.sessions]
    exact h1.congr hlive fun _ _ => rfl
  · rw [hu.sessions]
    exact h2.congr hlive fun id _ => hname id
  · rw [hu.sessions]
    exact h3.congr hlive fun id _ => (hu.heap id).paneId
  · rw [hu.sessions, hu.reservations]
    exact h4
  · rw [hu.sessions, hu.reservations]
    exact h5
  · rw [hu.reservations]
    exact h6
  · rw [hu.reservations]
    exact h7
  · rw [hu.sessions]
    exact h8
  · rw [hu.sessions]
    exact h9
  · rw [hu.sessions]
    exact h10
  · intro id hid
    rw [hu.created]
    exact h11 id ((hlive id).mp hid)

theorem coherent_reserve (h : Coherent s) {r : SessionReservation}
    (ha : Available s.sessions r) : Coherent (reserve r s) := by
  obtain ⟨⟨hname, hname'⟩, ⟨hpane, hpane'⟩, hroom⟩ := ha
  refine ⟨h.byId, h.byName, h.byPane, ?_, ?_, ?_, ?_, ?_, ?_, ?_, h.created⟩
  · intro name
    refine Finset.mem_insert.trans ?_
    rw [h.reservedNames, eq_comm]
    exact (List.exists_mem_cons_iff (·.name = name) r s.reservations).symm
  · intro pane
    refine Finset.mem_insert.trans ?_
    rw [h.reservedPanes, eq_comm]
    exact (List.exists_mem_cons_iff (·.paneId = pane) r s.reservations).symm
  · refine List.nodup_cons.mpr ⟨?_, h.distinctNames⟩
    intro hmem
    obtain ⟨r', hr', heq⟩ := List.mem_map.mp hmem
    exact hname' ((h.reservedNames _).mpr ⟨r', hr', heq⟩)
  · refine List.nodup_cons.mpr ⟨?_, h.distinctPanes⟩
    intro hmem
    obtain ⟨r', hr', heq⟩ := List.mem_map.mp hmem
    exact hpane' ((h.reservedPanes _).mpr ⟨r', hr', heq⟩)
  · intro name hmem
    rcases Finset.mem_insert.mp hmem with rfl | hmem
    · exact hname
    · exact h.namesDisjoint name hmem
  · intro pane hmem
    rcases Finset.mem_insert.mp hmem with rfl | hmem
    · exact hpane
    · exact h.panesDisjoint pane hmem
  · have hcard : (insert r.paneId s.sessions.reservedPanes).card =
        s.sessions.reservedPanes.card + 1 := Finset.card_insert_of_notMem hpane'
    simp only [reserve, hcard]
    omega

/-- Once a reservation is dropped or committed, its name and pane are reserved no more. -/
theorem Coherent.reserved_erase (h : Coherent s) {r : SessionReservation} (hr : r ∈ s.reservations) :
    (∀ name, name ∈ s.sessions.reservedNames.erase r.name ↔
        ∃ r' ∈ s.reservations.erase r, r'.name = name) ∧
      ∀ pane, pane ∈ s.sessions.reservedPanes.erase r.paneId ↔
        ∃ r' ∈ s.reservations.erase r, r'.paneId = pane := by
  refine ⟨fun name => ?_, fun pane => ?_⟩
  · rw [Finset.mem_erase, h.reservedNames, exists_erase_iff h.distinctNames hr]
  · rw [Finset.mem_erase, h.reservedPanes, exists_erase_iff h.distinctPanes hr]

theorem coherent_dropReservation (h : Coherent s) {r : SessionReservation}
    (hr : r ∈ s.reservations) : Coherent (dropReservation r s) := by
  obtain ⟨hnames, hpanes⟩ := h.reserved_erase hr
  refine ⟨h.byId, h.byName, h.byPane, hnames, hpanes, nodup_map_erase h.distinctNames,
    nodup_map_erase h.distinctPanes, ?_, ?_, ?_, h.created⟩
  · exact fun name hmem => h.namesDisjoint name (Finset.mem_of_mem_erase hmem)
  · exact fun pane hmem => h.panesDisjoint pane (Finset.mem_of_mem_erase hmem)
  · have hcard := Finset.card_erase_le (s := s.sessions.reservedPanes) (a := r.paneId)
    have hcap := h.capacity
    simp only [dropReservation]
    omega

/-- A session that is not yet in the maps can be allocated. -/
theorem coherent_allocate (h : Coherent s) {id : Str} (fresh : id ∉ s.history.created)
    (x : Session) : Coherent (allocate id x s) := by
  have hheap : ∀ id', Live s id' → (allocate id x s).heap id' = s.heap id' := by
    intro id' hlive
    refine Function.update_of_ne ?_ x s.heap
    rintro rfl
    exact fresh (h.created _ hlive)
  refine ⟨h.byId, ?_, ?_, h.reservedNames, h.reservedPanes, h.distinctNames, h.distinctPanes,
    h.namesDisjoint, h.panesDisjoint, h.capacity, ?_⟩
  · exact h.byName.congr (fun _ => Iff.rfl) fun id' hlive => by rw [hheap id' hlive]
  · exact h.byPane.congr (fun _ => Iff.rfl) fun id' hlive => by rw [hheap id' hlive]
  · exact fun id' hlive => List.mem_cons_of_mem _ (h.created id' hlive)

theorem coherent_install (h : Coherent s) {r : SessionReservation} {id : Str}
    (hr : r ∈ s.reservations) (hid : ¬Live s id) (hcreated : id ∈ s.history.created)
    (hname : (s.heap id).name = r.name) (hpane : (s.heap id).paneId = r.paneId)
    (parent : Option ParentSession) : Coherent (install r id parent s) := by
  obtain ⟨hnames, hpanes⟩ := h.reserved_erase hr
  have hnamesMem : r.name ∈ s.sessions.reservedNames := (h.reservedNames _).mpr ⟨r, hr, rfl⟩
  have hpanesMem : r.paneId ∈ s.sessions.reservedPanes := (h.reservedPanes _).mpr ⟨r, hr, rfl⟩
  have hnameFree := h.namesDisjoint r.name hnamesMem
  have hpaneFree := h.panesDisjoint r.paneId hpanesMem
  have hlive : ∀ j, Live (install r id parent s) j ↔ j = id ∨ Live s j := fun j =>
    Finmap.mem_insert
  have hname' : ∀ j, ((install r id parent s).heap j).name = (s.heap j).name :=
    State.modify_heap_proj s id (recordParent parent) rfl
  have hpane' : ∀ j, ((install r id parent s).heap j).paneId = (s.heap j).paneId :=
    State.modify_heap_proj s id (recordParent parent) rfl
  have hkey : ((install r id parent s).heap id).paneId = r.paneId :=
    (hpane' id).trans hpane
  have hmap : (install r id parent s).sessions.byPane =
      s.sessions.byPane.insert r.paneId id := by
    rw [← hkey]; rfl
  refine ⟨?_, ?_, ?_, hnames, hpanes, nodup_map_erase h.distinctNames,
    nodup_map_erase h.distinctPanes, ?_, ?_, ?_, ?_⟩
  · exact h.byId.insert hid hlive rfl fun _ _ => rfl
  · exact h.byName.insert hnameFree hlive ((hname' id).trans hname) fun j _ => hname' j
  · rw [hmap]
    exact h.byPane.insert hpaneFree hlive hkey fun j _ => hpane' j
  · intro name hmem hin
    have hne := Finset.ne_of_mem_erase hmem
    rcases Finmap.mem_insert.mp hin with rfl | hin
    · exact hne rfl
    · exact h.namesDisjoint name (Finset.mem_of_mem_erase hmem) hin
  · intro pane hmem hin
    have hne := Finset.ne_of_mem_erase hmem
    rw [hmap] at hin
    rcases Finmap.mem_insert.mp hin with rfl | hin
    · exact hne rfl
    · exact h.panesDisjoint pane (Finset.mem_of_mem_erase hmem) hin
  · have hsize : size (s.sessions.byPane.insert r.paneId id) = size s.sessions.byPane + 1 :=
      size_insert hpaneFree id
    have hcard : (s.sessions.reservedPanes.erase r.paneId).card + 1 = s.sessions.reservedPanes.card :=
      Finset.card_erase_add_one hpanesMem
    have hcap := h.capacity
    rw [hmap, hsize]
    show _ + (s.sessions.reservedPanes.erase r.paneId).card ≤ _
    omega
  · intro j hj
    rcases (hlive j).mp hj with rfl | hj
    · exact hcreated
    · exact h.created j hj

theorem nameTaken_eq_false {sessions : SessionMaps} {name id : Str}
    (h : sessions.nameTaken name id = false) :
    name ∉ sessions.reservedNames ∧ ∀ j, sessions.byName.lookup name = some j → j = id := by
  unfold SessionMaps.nameTaken at h
  rw [Bool.or_eq_false_iff, decide_eq_false_iff_not] at h
  refine ⟨h.1, fun j hj => ?_⟩
  have hany := h.2
  rw [hj] at hany
  simpa using hany

/-- The metadata of a session in the maps is written, its name to one that is free. -/
theorem coherent_setMetadata (h : Coherent s) {id : Str} (hid : Live s id) {m : SessionMetadata}
    (hfree : m.current.name ≠ (s.heap id).name →
      s.sessions.nameTaken m.current.name id = false) :
    Coherent (setMetadata id m { s with
      sessions := applyMetadataNameTransition s.sessions id (s.heap id).name m.current.name }) := by
  unfold applyMetadataNameTransition
  have hself : ∀ t : State, ((setMetadata id m t).heap id).name = m.current.name :=
    fun t => by unfold Session.name setMetadata; rw [State.modify_heap_self]
  have hother : ∀ (t : State) (j : Str), j ≠ id →
      ((setMetadata id m t).heap j).name = (t.heap j).name := fun t j hj => by
    unfold setMetadata; rw [State.modify_heap_of_ne _ _ _ hj]
  have hpane : ∀ (t : State) (j : Str),
      ((setMetadata id m t).heap j).paneId = (t.heap j).paneId := fun t j =>
    State.modify_heap_proj t id (fun x => { x with metadata := m }) rfl j
  split_ifs with hname
  · have hnames : ∀ j, ((setMetadata id m s).heap j).name = (s.heap j).name := by
      intro j
      by_cases hj : j = id
      · subst hj
        rw [hself, hname]
      · exact hother s j hj
    exact ⟨h.byId, h.byName.congr (fun _ => Iff.rfl) fun j _ => hnames j,
      h.byPane.congr (fun _ => Iff.rfl) fun j _ => hpane s j, h.reservedNames, h.reservedPanes,
      h.distinctNames, h.distinctPanes, h.namesDisjoint, h.panesDisjoint, h.capacity, h.created⟩
  · obtain ⟨hreserved, hunique⟩ := nameTaken_eq_false (hfree fun heq => hname heq.symm)
    refine ⟨h.byId, ?_, h.byPane.congr (fun _ => Iff.rfl) fun j _ => hpane _ j, h.reservedNames,
      h.reservedPanes, h.distinctNames, h.distinctPanes, ?_, h.panesDisjoint, h.capacity, h.created⟩
    · exact h.byName.rekey hid hunique (fun _ => Iff.rfl) (hself _) fun j hj => hother _ j hj
    · intro name hmem hin
      rcases Finmap.mem_insert.mp hin with rfl | hin
      · exact hreserved hmem
      · exact h.namesDisjoint name hmem (Finmap.mem_erase.mp hin).2

/-- A target resolves to a session in the maps. -/
theorem Coherent.live_of_resolve (h : Coherent s) {target id : Str}
    (hr : s.sessions.resolveSessionLocked target = some id) : Live s id := by
  unfold SessionMaps.resolveSessionLocked at hr
  simp only [Option.orElse_eq_some] at hr
  rcases hr with hr | ⟨-, hr | ⟨-, hr | ⟨-, hr⟩⟩⟩
  · split_ifs at hr
    exact ((h.byPane _ _).mp hr).1
  · exact ((h.byName _ _).mp hr).1
  · exact ((h.byId _ _).mp hr).1
  · split_ifs at hr
    exact ((h.byPane _ _).mp hr).1

theorem Coherent.written (h : Coherent s) {id : Str} {m : SessionMetadata}
    (hw : Written s s' id m) : Coherent s' := by
  obtain ⟨s₁, hu, rfl⟩ := hw.unlocked
  obtain ⟨⟨target, htarget⟩, -, -, hfree, -, -⟩ := hw
  have h₁ := h.unlocked hu
  have hlive : Live s₁ id := by
    unfold Live
    rw [hu.sessions]
    exact h.live_of_resolve htarget
  have hname : (s₁.heap id).name = (s.heap id).name := by
    unfold Session.name
    rw [(hu.heap id).metadata]
  rw [← hname, ← hu.sessions] at hfree ⊢
  exact coherent_setMetadata h₁ hlive hfree

theorem Coherent.remove (h : Coherent s) (id : Str) :
    Coherent { s with sessions := removeFromMaps id (s.heap id) s.sessions } := by
  by_cases hid : Live s id
  · have hname := (h.byName (s.heap id).name id).mpr ⟨hid, rfl⟩
    have hpane := (h.byPane (s.heap id).paneId id).mpr ⟨hid, rfl⟩
    have hself := (h.byId id id).mpr ⟨hid, rfl⟩
    have hmaps : removeFromMaps id (s.heap id) s.sessions =
        { s.sessions with
          byName := s.sessions.byName.erase (s.heap id).name
          byPane := s.sessions.byPane.erase (s.heap id).paneId
          byId := s.sessions.byId.erase id } := by
      unfold removeFromMaps
      rw [if_pos hname, if_pos hpane, if_pos hself]
    rw [hmaps]
    have hlive : ∀ j, j ∈ s.sessions.byId.erase id ↔ j ≠ id ∧ Live s j := fun j => Finmap.mem_erase
    refine ⟨h.byId.erase hid hlive, h.byName.erase hid hlive, h.byPane.erase hid hlive,
      h.reservedNames, h.reservedPanes, h.distinctNames, h.distinctPanes, ?_, ?_, ?_, ?_⟩
    · exact fun name hmem hin => h.namesDisjoint name hmem (Finmap.mem_erase.mp hin).2
    · exact fun pane hmem hin => h.panesDisjoint pane hmem (Finmap.mem_erase.mp hin).2
    · have hsize := size_erase_le s.sessions.byPane (s.heap id).paneId
      have hcap := h.capacity
      exact (Nat.add_le_add_right hsize _).trans hcap
    · exact fun j hj => h.created j ((hlive j).mp hj).2
  · have hmaps : removeFromMaps id (s.heap id) s.sessions = s.sessions := by
      unfold removeFromMaps
      rw [if_neg fun hl => hid ((h.byName _ _).mp hl).1, if_neg fun hl => hid ((h.byPane _ _).mp hl).1,
        if_neg fun hl => hid ((h.byId _ _).mp hl).1]
    rw [hmaps]
    exact h

/-! ### Runs -/

/-- What a commit finds: an allocated session outside the maps, with the name and pane reserved. -/
theorem Coherent.commit_ready (h : Coherent s) {r : SessionReservation} {id : Str}
    (fresh : id ∉ s.history.created) (theme : Option StatusTheme) (token : Str)
    (leader : Option ProcessIdentity) {s₁ : State}
    (hu : Unlocked (allocate id (newSession r theme token leader) s) s₁) :
    Coherent s₁ ∧ ¬Live s₁ id ∧ id ∈ s₁.history.created ∧ (s₁.heap id).name = r.name ∧
      (s₁.heap id).paneId = r.paneId := by
  have hself : (allocate id (newSession r theme token leader) s).heap id =
      newSession r theme token leader := Function.update_self ..
  have hevolves := hu.heap id
  rw [hself] at hevolves
  refine ⟨(coherent_allocate h fresh _).unlocked hu, ?_, ?_, ?_, hevolves.paneId⟩
  · unfold Live
    rw [hu.sessions]
    exact fun hlive => fresh (h.created id hlive)
  · rw [hu.created]
    exact List.mem_cons_self
  · unfold Session.name
    rw [hevolves.metadata]
    rfl

/-- **Every effect keeps the maps coherent.** -/
theorem Effect.coherent {writes : Prop} (h : Coherent s) (he : Effect writes s s') : Coherent s' := by
  cases he with
  | beside hu => exact h.unlocked hu
  | reserved ha => exact coherent_reserve h ha
  | released hr => exact coherent_dropReservation h hr
  | allocated fresh => exact coherent_allocate h fresh _
  | @committed r id theme token leader selection parent s₁ hr fresh resolved hu =>
    obtain ⟨h₁, hlive, hcreated, hname, hpane⟩ := h.commit_ready fresh theme token leader hu
    refine coherent_install h₁ ?_ hlive hcreated hname hpane parent
    rw [hu.reservations]
    exact hr
  | written _ hw => exact h.written hw
  | @removed _ id hu => exact (h.remove id).unlocked hu

theorem run_coherent (journal : Bool) (actions : List Action) :
    Coherent (run (State.new journal) actions) :=
  Run.run_invariant (fun s a h => Effect.coherent h (step_effect s a)) actions _
    (coherent_new journal)

/-! ### The internal errors -/

theorem resolveSelection_error {selection : Option ParentSelection} {e : ServerError}
    (h : resolveSelection s selection = .error e) : e ≠ .reservationMissing ∧ e ≠ .idCollision := by
  rcases selection with _ | request | proof
  · cases h
  · simp only [resolveSelection] at h
    split at h
    · cases h
      simp
    · cases h
  · simp only [resolveSelection, resolveImplicitParentLocked] at h
    split at h
    · cases h
      simp
    · split_ifs at h <;> cases h
      simp

/-- Neither internal error of `commit` is possible. -/
theorem Coherent.commit_ne (h : Coherent s) {r : SessionReservation} {id : Str}
    (hr : r ∈ s.reservations) (fresh : id ∉ s.history.created) (theme : Option StatusTheme)
    (token : Str) (leader : Option ProcessIdentity) (selection : Option ParentSelection)
    (hook : List UnlockedAction) :
    let result := (commit r id selection hook (allocate id (newSession r theme token leader) s)).1
    result ≠ .error .reservationMissing ∧ result ≠ .error .idCollision := by
  obtain ⟨ht, hlive, -, -, hpane⟩ := h.commit_ready fresh theme token leader (.refl _)
  have hrt : r ∈ (allocate id (newSession r theme token leader) s).reservations := hr
  generalize allocate id (newSession r theme token leader) s = t at ht hlive hpane hrt ⊢
  have hnames : r.name ∈ t.sessions.reservedNames := (ht.reservedNames _).mpr ⟨r, hrt, rfl⟩
  have hpanes : r.paneId ∈ t.sessions.reservedPanes := (ht.reservedPanes _).mpr ⟨r, hrt, rfl⟩
  have hreserved : ¬(r.name ∉ t.sessions.reservedNames ∨ r.paneId ∉ t.sessions.reservedPanes) := by
    rintro (hn | hp)
    · exact hn hnames
    · exact hp hpanes
  have hfree : ¬(r.name ∈ t.sessions.byName ∨ (t.heap id).paneId ∈ t.sessions.byPane ∨
      id ∈ t.sessions.byId) := by
    rw [hpane]
    rintro (hn | hp | hi)
    · exact ht.namesDisjoint _ hnames hn
    · exact ht.panesDisjoint _ hpanes hp
    · exact hlive hi
  dsimp only
  unfold commit
  rw [if_neg hreserved, if_neg hfree]
  cases hresolved : resolveSelection t selection with
  | ok parent => simp
  | error e =>
    obtain ⟨hne, hne'⟩ := resolveSelection_error hresolved
    exact ⟨fun heq => hne (Except.error.inj heq), fun heq => hne' (Except.error.inj heq)⟩

theorem Coherent.namesSession (h : Coherent s) {id : Str} (hid : Live s id) :
    s.sessions.namesSession (s.heap id).metadata.current.name id = true :=
  decide_eq_true ((h.byName _ _).mpr ⟨hid, rfl⟩)

/-- The checks of a metadata operation return no internal error. -/
theorem check_ne {e : ServerError} (he : e.internal = true) :
    (∀ name, validateSessionNameSyntax name ≠ .error e) ∧
      (∀ x, rejectIdentityMutationWhileEnding x ≠ .error e) ∧
      (∀ m : SessionMetadata, m.validateMetadataAppend ≠ .error e) ∧
      ∀ x, identityCommitGuard x ≠ .error e := by
  refine ⟨fun name h => ?_, fun x h => ?_, fun m h => ?_, fun x h => ?_⟩
  · unfold validateSessionNameSyntax at h
    split_ifs at h <;> cases h <;> cases he
  · unfold rejectIdentityMutationWhileEnding at h
    split at h <;> cases h
    cases he
  · unfold SessionMetadata.validateMetadataAppend at h
    split_ifs at h <;> cases h <;> cases he
  · unfold identityCommitGuard at h
    split_ifs at h
    cases h
    cases he

theorem chooseMove_error {m : SessionMetadata} {direction : MetadataStepDirection} {e : ServerError}
    (he : e.internal = true) (h : m.chooseMove direction = .error e) : e = .panicked := by
  cases direction with
  | undo =>
    simp only [SessionMetadata.chooseMove] at h
    split at h
    · cases h
      cases he
    · split at h <;> cases h
      rfl
  | redo =>
    simp only [SessionMetadata.chooseMove] at h
    split at h <;> cases h
    cases he

theorem Coherent.renameSession_ne (h : Coherent s) (target newName : Str)
    (hook : List UnlockedAction) {e : ServerError} (he : e.internal = true) :
    (renameSession target newName hook s).1 ≠ .error e := by
  obtain ⟨hmalformed, hending, happend, hguard⟩ := check_ne he
  intro heq
  unfold renameSession at heq
  split at heq
  · next e' he' =>
    cases heq
    exact hmalformed _ he'
  dsimp only at heq
  split at heq
  · cases heq
    cases he
  next id hid =>
  have hnamed := h.namesSession (h.live_of_resolve hid)
  split at heq
  · next e' he' =>
    cases heq
    exact hending _ he'
  by_cases hsame : (s.heap id).metadata.current.name = newName
  · rw [if_pos hsame, if_pos (hsame ▸ hnamed)] at heq
    cases heq
  rw [if_neg hsame] at heq
  by_cases htaken : s.sessions.nameTaken newName id = true
  · rw [if_pos htaken] at heq
    cases heq
    cases he
  rw [if_neg htaken] at heq
  split at heq
  · next e' he' =>
    cases heq
    exact happend _ he'
  rw [hnamed, Bool.not_true, if_neg Bool.false_ne_true] at heq
  split at heq
  · next e' he' =>
    cases heq
    exact hguard _ he'
  · cases heq

theorem validateMetadataNameTransition_ne {sessions : SessionMaps} {id currentName nextName : Str}
    (hnamed : sessions.namesSession currentName id = true) {e : ServerError}
    (he : e.internal = true) :
    validateMetadataNameTransition sessions id currentName nextName ≠ .error e := by
  intro heq
  unfold validateMetadataNameTransition at heq
  rw [hnamed, Bool.not_true, if_neg Bool.false_ne_true] at heq
  by_cases hsame : currentName = nextName
  · rw [if_neg (not_not.mpr hsame)] at heq
    cases heq
  rw [if_pos hsame] at heq
  split at heq
  · next e' he' =>
    cases heq
    exact (check_ne he).1 _ he'
  · split_ifs at heq
    cases heq
    cases he

/-- With coherent maps, an internal error of `metadata_step` comes from the journal. -/
theorem Coherent.metadataStep_error (h : Coherent s) {target : Str}
    {direction : MetadataStepDirection} {hook : List UnlockedAction} {e : ServerError}
    (he : e.internal = true) (heq : (metadataStep target direction hook s).1 = .error e) :
    ∃ id, Live s id ∧
      ((s.heap id).metadata.chooseMove direction = .error .panicked ∧ e = .panicked ∨
        e = .currentMismatch direction ∧ ∃ move,
          (s.heap id).metadata.chooseMove direction = .ok move ∧
            (s.heap id).metadata.current ≠ move.expected) := by
  obtain ⟨-, hending, -, hguard⟩ := check_ne he
  unfold metadataStep at heq
  dsimp only at heq
  split at heq
  · cases heq
    cases he
  next id hid =>
  have hlive := h.live_of_resolve hid
  refine ⟨id, hlive, ?_⟩
  split at heq
  · next e' he' =>
    cases heq
    exact absurd he' (hending _)
  split at heq
  · next e' he' =>
    cases heq
    have hpanicked := chooseMove_error he he'
    exact .inl ⟨hpanicked ▸ he', hpanicked⟩
  next move hmove =>
  by_cases hexpected : (s.heap id).metadata.current = move.expected
  case neg =>
    rw [if_pos hexpected] at heq
    cases heq
    exact .inr ⟨rfl, move, hmove, hexpected⟩
  rw [if_neg (not_not.mpr hexpected)] at heq
  split at heq
  · next e' he' =>
    cases heq
    exact absurd he' (validateMetadataNameTransition_ne (h.namesSession hlive) he)
  split at heq
  · next e' he' =>
    cases heq
    exact absurd he' (hguard _)
  · cases heq

/-- **The session maps are coherent** in every state of every run of the daemon, and the internal
errors of the operations on them are never returned. -/
theorem sessionMaps_coherent (journal : Bool) (actions : List Action) :
    let s := run (State.new journal) actions
    Coherent s ∧
      (∀ r ∈ s.reservations, ∀ id ∉ s.history.created, ∀ theme token leader selection hook,
        let result := (commit r id selection hook
          (allocate id (newSession r theme token leader) s)).1
        result ≠ .error .reservationMissing ∧ result ≠ .error .idCollision) ∧
      (∀ target newName hook shown,
        (renameSession target newName hook s).1 ≠ .error (.nameIndexInconsistent shown)) ∧
      ∀ target direction hook shown,
        (metadataStep target direction hook s).1 ≠ .error (.nameIndexInconsistent shown) := by
  have h := run_coherent journal actions
  refine ⟨h, ?_, ?_, ?_⟩
  · intro r hr id fresh theme token leader selection hook
    exact h.commit_ne hr fresh theme token leader selection hook
  · intro target newName hook shown
    exact h.renameSession_ne target newName hook rfl
  · intro target direction hook shown heq
    obtain ⟨id, -, ⟨-, he⟩ | ⟨he, -⟩⟩ := h.metadataStep_error rfl heq
    · cases he
    · cases he

end LightTerminal.Server.Coherence
