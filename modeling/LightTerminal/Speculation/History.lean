import LightTerminal.Library.Trace
import LightTerminal.Speculation.Writes

/-! # The durable history of a tournament

The records of a tournament that were ever written to its slot, the oldest first, are its history. It
is a trace of `Advance` that starts with a `Prepared` record, through every run of the store with
failed writes and restarts (`Durable`). What the claims of the store come to is read off that:

* `Follows`: what never changes, and what only grows;
* `SelectedInOrder`: how a tournament gets to `Selected`;
* `durable_history`: all of it, for every run. -/

namespace LightTerminal.Speculation.History

open LightTerminal.Data.Text LightTerminal.Library
open LightTerminal.Speculation.Phase LightTerminal.Speculation.Record
open LightTerminal.Speculation.Store LightTerminal.Speculation.Writes

/-- The record on file in a slot. -/
def durable (store : TournamentStore) (slot : ℕ) : Option TournamentRecord :=
  (store.file slot).bind StoredSlot.record

/-- The records of a tournament that were written so far, the oldest first. -/
def history (store : TournamentStore) (id : Uuid) : List TournamentRecord :=
  ((store.installed.map Install.after).filter fun record => record.status.tournamentUuid = id).reverse

/-- The slots in memory show what is on file. -/
structure Coherent (store : TournamentStore) : Prop where
  files_length : store.files.length = maxTournamentRecords
  slots_length : store.slots.length = maxTournamentRecords
  valid : ∀ slot record identity, store.slots[slot]? = some (.valid record identity) →
    store.file slot = some ⟨identity, slot, some record⟩
  vacant : ∀ slot identity, store.slots[slot]? = some (.vacant identity) → durable store slot = none
  checked : ∀ slot record, durable store slot = some record → record.Valid

/-- A record and the next one of its tournament. -/
def Succeeds (record next : TournamentRecord) : Prop := record.Valid ∧ Advance record next

/-- The files are what the history says. -/
structure Durable (store : TournamentStore) : Prop where
  coherent : Coherent store
  chain : ∀ id, (history store id).IsChain Succeeds
  start : ∀ id record, (history store id).head? = some record → record.status.phase = .prepared
  valid : ∀ id, ∀ record ∈ history store id, record.Valid
  last : ∀ slot record, durable store slot = some record →
    (history store record.status.tournamentUuid).getLast? = some record
  unique : ∀ slot slot' record record', durable store slot = some record →
    durable store slot' = some record' →
    record.status.tournamentUuid = record'.status.tournamentUuid → slot = slot'

/-! ### Files and history after a write -/

variable {store : TournamentStore}

theorem file_install {slot slot' : ℕ} {identity : FileIdentity} {record : TournamentRecord}
    (h : slot < store.files.length) :
    (store.install slot identity record).file slot' =
      if slot = slot' then some ⟨identity, slot, some record⟩ else store.file slot' := by
  unfold TournamentStore.file TournamentStore.install
  simp only [List.getElem?_set, h, if_true]
  split_ifs <;> rfl

theorem durable_install {slot slot' : ℕ} {identity : FileIdentity} {record : TournamentRecord}
    (h : slot < store.files.length) :
    durable (store.install slot identity record) slot' =
      if slot = slot' then some record else durable store slot' := by
  unfold durable
  rw [file_install h]
  split_ifs <;> rfl

theorem history_install {slot : ℕ} {identity : FileIdentity} {record : TournamentRecord} (id : Uuid) :
    history (store.install slot identity record) id =
      if record.status.tournamentUuid = id then history store id ++ [record]
      else history store id := by
  unfold history TournamentStore.install
  simp only [List.map_cons, List.filter_cons, decide_eq_true_eq]
  split_ifs <;> simp

theorem Coherent.durable_of_valid (h : Coherent store) {slot : ℕ} {record : TournamentRecord}
    {identity : FileIdentity} (hslot : store.slots[slot]? = some (.valid record identity)) :
    durable store slot = some record := by
  unfold durable
  rw [h.valid slot record identity hslot]
  rfl

theorem Coherent.lt_of_slot (h : Coherent store) {slot : ℕ} {state : SlotState}
    (hslot : store.slots[slot]? = some state) : slot < store.files.length := by
  have hlt := (List.getElem?_eq_some_iff.mp hslot).1
  rw [h.files_length]
  rwa [h.slots_length] at hlt

/-! ### The invariant -/

/-- A slot that is marked corrupt in memory shows nothing. -/
theorem Coherent.corrupted (h : Coherent store) (slot : ℕ) :
    Coherent (store.setSlot slot .corrupt) := by
  have hslots : ∀ (i : ℕ) (state : SlotState), (store.setSlot slot .corrupt).slots[i]? = some state →
      state ≠ .corrupt → store.slots[i]? = some state := by
    intro i state hi hne
    unfold TournamentStore.setSlot at hi
    rw [List.getElem?_set] at hi
    split_ifs at hi
    · simp only [Option.some.injEq] at hi
      exact absurd hi.symm hne
    · exact hi
  refine ⟨h.files_length, ?_, ?_, ?_, h.checked⟩
  · simp [TournamentStore.setSlot, h.slots_length]
  · intro i record identity hi
    exact h.valid i record identity (hslots i _ hi (by simp))
  · intro i identity hi
    exact h.vacant i identity (hslots i _ hi (by simp))

/-- After a write the slot in memory is corrupt, or it shows the record that was written. -/
theorem Coherent.installed (h : Coherent store) {slot : ℕ} {record : TournamentRecord}
    {identity : FileIdentity} {state : SlotState} {materialized : List Bool}
    (hlt : slot < store.files.length) (hvalid : record.Valid)
    (hstate : state = .corrupt ∨ state = .valid record identity) :
    Coherent { (store.install slot identity record).setSlot slot state with materialized } := by
  have hfile : ∀ i, TournamentStore.file
      { (store.install slot identity record).setSlot slot state with materialized } i =
        if slot = i then some ⟨identity, slot, some record⟩ else store.file i :=
    fun i => file_install hlt
  have hdurable : ∀ i, durable
      { (store.install slot identity record).setSlot slot state with materialized } i =
        if slot = i then some record else durable store i :=
    fun i => durable_install hlt
  have hslots : ∀ i, (store.slots.set slot state)[i]? =
      if slot = i then some state else store.slots[i]? := by
    intro i
    have hlt' : slot < store.slots.length := by
      rw [h.slots_length, ← h.files_length]
      exact hlt
    rw [List.getElem?_set]
    simp [hlt']
  refine ⟨?_, ?_, ?_, ?_, ?_⟩
  · simp [TournamentStore.setSlot, TournamentStore.install, h.files_length]
  · simp [TournamentStore.setSlot, TournamentStore.install, h.slots_length]
  · intro i r id hi
    rw [hfile]
    replace hi := (hslots i).symm.trans hi
    split_ifs at hi ⊢ with heq
    · subst heq
      rcases hstate with rfl | rfl
      · simp at hi
      · simp only [Option.some.injEq, SlotState.valid.injEq] at hi
        obtain ⟨rfl, rfl⟩ := hi
        rfl
    · exact h.valid i r id hi
  · intro i id hi
    rw [hdurable]
    replace hi := (hslots i).symm.trans hi
    split_ifs at hi ⊢ with heq
    · rcases hstate with rfl | rfl <;> simp at hi
    · exact h.vacant i id hi
  · intro i r hi
    rw [hdurable] at hi
    split_ifs at hi with heq
    · simp only [Option.some.injEq] at hi
      subst hi
      exact hvalid
    · exact h.checked i r hi

theorem openSlots_eq_some {io : OpenIo} {count i : ℕ} {state : SlotState}
    (h : (openSlots io store count)[i]? = some state) : state = openSlot io store i := by
  unfold openSlots at h
  rw [List.getElem?_map, Option.map_eq_some_iff] at h
  obtain ⟨j, hj, rfl⟩ := h
  obtain ⟨hlt, rfl⟩ := List.getElem?_eq_some_iff.mp hj
  rw [List.getElem_range]

theorem length_openSlots (io : OpenIo) (count : ℕ) : (openSlots io store count).length = count := by
  unfold openSlots
  rw [List.length_map, List.length_range]

theorem Coherent.reopen (h : Coherent store) (io : OpenIo) : Coherent (reopen io store) := by
  constructor
  · rw [reopen_files]
    exact h.files_length
  · rw [reopen_slots]
    exact length_openSlots io maxTournamentRecords
  · intro i record identity hi
    rw [reopen_slots] at hi
    rw [reopen_file]
    have hopen := openSlots_eq_some hi
    unfold openSlot at hopen
    rcases hfile : store.file i with _ | ⟨identity', slot', record'⟩
    · rw [hfile] at hopen
      dsimp only at hopen
      split_ifs at hopen
    · rw [hfile] at hopen
      dsimp only at hopen
      split_ifs at hopen with hcheck
      rcases record' with _ | record'
      · simp at hopen
      · simp only [SlotState.valid.injEq] at hopen
        obtain ⟨rfl, rfl⟩ := hopen
        have hslot : slot' = i := by
          have hcheck := hcheck.2
          simp only [StoredSlot.validate, Procedure.bind_eq_ok, Procedure.exists_unit,
            Procedure.require_eq_ok] at hcheck
          exact hcheck.1
        rw [hslot]
  · intro i identity hi
    rw [reopen_slots] at hi
    have hopen := openSlots_eq_some hi
    unfold openSlot at hopen
    unfold durable
    rw [reopen_file]
    rcases hfile : store.file i with _ | ⟨identity', slot', record'⟩
    · rfl
    · rw [hfile] at hopen
      dsimp only at hopen
      split_ifs at hopen
      rcases record' with _ | record'
      · rfl
      · simp at hopen
  · intro i record hi
    unfold durable at hi
    rw [reopen_file] at hi
    exact h.checked i record hi

theorem Durable.fresh : Durable Store.fresh := by
  have hfile : ∀ slot, Store.fresh.file slot = none := by
    intro slot
    unfold TournamentStore.file Store.fresh
    rw [List.getElem?_replicate]
    split_ifs <;> rfl
  have hdurable : ∀ slot, durable Store.fresh slot = none := by
    intro slot
    unfold durable
    rw [hfile]
    rfl
  have hhistory : ∀ id, history Store.fresh id = [] := fun _ => rfl
  have hslots : ∀ (slot : ℕ) (state : SlotState), Store.fresh.slots[slot]? = some state →
      state = .vacant none := by
    intro slot state h
    unfold Store.fresh at h
    rw [List.getElem?_replicate] at h
    split_ifs at h
    simp only [Option.some.injEq] at h
    exact h.symm
  refine ⟨⟨List.length_replicate, List.length_replicate, ?_, ?_, ?_⟩, ?_, ?_, ?_, ?_, ?_⟩
  · intro slot record identity h
    have hstate := hslots slot _ h
    simp at hstate
  · intro slot identity _
    exact hdurable slot
  all_goals simp [hhistory, hdurable]

/-- The invariant after a write: of the next record of a tournament, or of the first one. -/
theorem Durable.installed (h : Durable store) {slot : ℕ} {record : TournamentRecord}
    {identity : FileIdentity} {state : SlotState} {materialized : List Bool}
    (hlt : slot < store.files.length) (hvalid : record.Valid)
    (hstate : state = .corrupt ∨ state = .valid record identity)
    (hrecord : (∃ current, durable store slot = some current ∧ Advance current record) ∨
      history store record.status.tournamentUuid = [] ∧ record.status.phase = .prepared) :
    Durable { (store.install slot identity record).setSlot slot state with materialized } := by
  have hcoherent := @Coherent.installed store h.coherent slot record identity state materialized hlt hvalid hstate
  generalize hstore' :
    { (store.install slot identity record).setSlot slot state with materialized } = store' at *
  have hdurable : ∀ i, durable store' i = if slot = i then some record else durable store i := by
    intro i
    rw [← hstore']
    exact durable_install hlt
  have hhistory : ∀ id, history store' id =
      if record.status.tournamentUuid = id then history store id ++ [record]
      else history store id := by
    intro id
    rw [← hstore']
    exact @history_install store slot identity record id
  -- what the record follows is the last of its tournament, in the slot that is written
  have hlast : ∀ i r, durable store i = some r →
      r.status.tournamentUuid = record.status.tournamentUuid → i = slot := by
    intro i r hi huuid
    rcases hrecord with ⟨current, hcurrent, hadvance⟩ | ⟨hnew, -⟩
    · exact h.unique i slot r current hi hcurrent (huuid.trans hadvance.uuid)
    · have hr := h.last i r hi
      rw [huuid, hnew] at hr
      simp at hr
  refine ⟨hcoherent, ?_, ?_, ?_, ?_, ?_⟩
  · intro id
    rw [hhistory]
    split_ifs with hid
    · rcases hrecord with ⟨current, hcurrent, hadvance⟩ | ⟨hnew, -⟩
      · have hchecked := h.coherent.checked slot current hcurrent
        have hcurrent := h.last slot current hcurrent
        rw [← hadvance.uuid, hid] at hcurrent
        exact Trace.isChain_concat (h.chain id) hcurrent ⟨hchecked, hadvance⟩
      · rw [← hid, hnew]
        exact List.isChain_singleton record
    · exact h.chain id
  · intro id r hr
    rw [hhistory] at hr
    split_ifs at hr with hid
    · rcases hrecord with ⟨current, hcurrent, hadvance⟩ | ⟨hnew, hphase⟩
      · have hcurrent := h.last slot current hcurrent
        rw [← hadvance.uuid, hid] at hcurrent
        refine h.start id r ?_
        rcases hlist : history store id with _ | ⟨first, rest⟩
        · rw [hlist] at hcurrent
          simp at hcurrent
        · rw [hlist] at hr
          simpa using hr
      · rw [← hid, hnew] at hr
        simp only [List.nil_append, List.head?_cons, Option.some.injEq] at hr
        rw [← hr]
        exact hphase
    · exact h.start id r hr
  · intro id r hr
    rw [hhistory] at hr
    split_ifs at hr with hid
    · rcases List.mem_append.mp hr with hr | hr
      · exact h.valid id r hr
      · rw [List.mem_singleton.mp hr]
        exact hvalid
    · exact h.valid id r hr
  · intro i r hi
    rw [hdurable] at hi
    rw [hhistory]
    split_ifs at hi with hslot
    · simp only [Option.some.injEq] at hi
      subst hi
      simp
    · rw [if_neg]
      · exact h.last i r hi
      · intro hid
        exact hslot (hlast i r hi hid.symm).symm
  · intro i j r r' hi hj huuid
    rw [hdurable] at hi hj
    split_ifs at hi hj with hslot hslot' hslot'
    · exact hslot.symm.trans hslot'
    · simp only [Option.some.injEq] at hi
      subst hi
      exact hslot.symm.trans (hlast j r' hj huuid.symm).symm
    · simp only [Option.some.injEq] at hj
      subst hj
      exact (hlast i r hi huuid).trans hslot'
    · exact h.unique i j r r' hi hj huuid

/-- The invariant after an operation, if an allocation is of a new tournament. -/
theorem Durable.step {op : Operation} (h : Durable store)
    (hnew : ∀ io manifestIo record now, op = .allocatePrepared io manifestIo record now →
      history store record.status.tournamentUuid = []) : Durable (step store op) := by
  rcases step_change store op with ⟨io, -, hstep⟩ | hchange
  · rw [hstep]
    have hdurable : ∀ slot, durable (reopen io store) slot = durable store slot := by
      intro slot
      unfold durable
      rw [reopen_file]
    have hhistory : ∀ id, history (reopen io store) id = history store id := by
      intro id
      unfold history
      rw [reopen_installed]
    refine ⟨h.coherent.reopen io, ?_, ?_, ?_, ?_, ?_⟩
    all_goals simp only [hdurable, hhistory]
    · exact h.chain
    · exact h.start
    · exact h.valid
    · exact h.last
    · exact h.unique
  · generalize Store.step store op = store' at hchange ⊢
    rcases hchange with _ | slot | ⟨identity, state, materialized, hw, hstate⟩
    · exact h
    · exact ⟨h.coherent.corrupted slot, h.chain, h.start, h.valid, h.last, h.unique⟩
    · rcases hw with ⟨-, hkeyed, hslot, hadvance⟩ | ⟨hop, hvalid, hphase, hslot, hfree⟩
      · refine h.installed (h.coherent.lt_of_slot hslot) hadvance.valid hstate (.inl ?_)
        exact ⟨_, h.coherent.durable_of_valid hslot, hadvance⟩
      · exact h.installed (h.coherent.lt_of_slot hslot) hvalid hstate
          (.inr ⟨hnew _ _ _ _ hop, hphase⟩)

/-! ### What a history tells -/

/-- What holds between a record of a tournament and a later one: what never changes, and what only
grows. -/
structure Follows (r r' : TournamentRecord) : Prop where
  boot : r'.bootUuid = r.bootUuid
  roots : r'.roots = r.roots
  locator : r'.cgroupRootLocator = r.cgroupRootLocator
  tournament : r'.status.tournamentUuid = r.status.tournamentUuid
  daemon : r'.status.daemonInstanceUuid = r.status.daemonInstanceUuid
  domainName : r'.tournamentCgroup.deterministicNameUuid = r.tournamentCgroup.deterministicNameUuid
  names : ∀ i, (r'.cgroups.get i).deterministicNameUuid = (r.cgroups.get i).deterministicNameUuid
  lease : r.status.leaseDeadlineUnixMs ≤ r'.status.leaseDeadlineUnixMs
  errors : r.status.errorCodes.codes <+: r'.status.errorCodes.codes
  candidates : ∀ i, candidateProgressesTo (r.status.candidates.get i) (r'.status.candidates.get i)

theorem optionIsRetained_refl {α : Type} (a : Option α) : optionIsRetained a a := fun _ h => h

theorem optionIsRetained_trans {α : Type} {a b c : Option α} (h : optionIsRetained a b)
    (h' : optionIsRetained b c) : optionIsRetained a c := fun value ha => h' value (h value ha)

theorem cleanupProgressesTo_refl (a : SpeculationCleanupStatus) : cleanupProgressesTo a a :=
  ⟨id, id, id, id, id⟩

theorem cleanupProgressesTo_trans {a b c : SpeculationCleanupStatus} (h : cleanupProgressesTo a b)
    (h' : cleanupProgressesTo b c) : cleanupProgressesTo a c := by
  obtain ⟨h1, h2, h3, h4, h5⟩ := h
  obtain ⟨k1, k2, k3, k4, k5⟩ := h'
  exact ⟨k1 ∘ h1, k2 ∘ h2, k3 ∘ h3, k4 ∘ h4, k5 ∘ h5⟩

theorem candidateProgressesTo_refl (a : SpeculationCandidateStatus) : candidateProgressesTo a a :=
  ⟨rfl, rfl, id, optionIsRetained_refl _, id, optionIsRetained_refl _, id, optionIsRetained_refl _,
    optionIsRetained_refl _, optionIsRetained_refl _, optionIsRetained_refl _, id,
    cleanupProgressesTo_refl _⟩

theorem candidateProgressesTo_trans {a b c : SpeculationCandidateStatus}
    (h : candidateProgressesTo a b) (h' : candidateProgressesTo b c) : candidateProgressesTo a c := by
  obtain ⟨h1, h2, h3, h4, h5, h6, h7, h8, h9, h10, h11, h12, h13⟩ := h
  obtain ⟨k1, k2, k3, k4, k5, k6, k7, k8, k9, k10, k11, k12, k13⟩ := h'
  exact ⟨h1.trans k1, h2.trans k2, k3 ∘ h3, optionIsRetained_trans h4 k4, k5 ∘ h5,
    optionIsRetained_trans h6 k6, k7 ∘ h7, optionIsRetained_trans h8 k8, optionIsRetained_trans h9 k9,
    optionIsRetained_trans h10 k10, optionIsRetained_trans h11 k11, k12 ∘ h12,
    cleanupProgressesTo_trans h13 k13⟩

theorem Follows.trans {a b c : TournamentRecord} (h : Follows a b) (h' : Follows b c) :
    Follows a c where
  boot := h'.boot.trans h.boot
  roots := h'.roots.trans h.roots
  locator := h'.locator.trans h.locator
  tournament := h'.tournament.trans h.tournament
  daemon := h'.daemon.trans h.daemon
  domainName := h'.domainName.trans h.domainName
  names i := (h'.names i).trans (h.names i)
  lease := h.lease.trans h'.lease
  errors := h.errors.trans h'.errors
  candidates i := candidateProgressesTo_trans (h.candidates i) (h'.candidates i)

theorem Succeeds.follows {record next : TournamentRecord} (h : Succeeds record next) :
    Follows record next := by
  obtain ⟨hvalid, ⟨kind, hnext, -, haccepts⟩ | ⟨-, -⟩⟩ := h
  · obtain ⟨⟨hboot, hroots, hlocator, ⟨hdomain, -⟩, htournament, hdaemon, -⟩, -,
      ⟨hlease, -, -, herrors, hcandidates, -⟩, -⟩ := haccepts
    have hcandidates := Pair.all₂_iff.mp hcandidates
    refine ⟨hboot.symm, hroots.symm, hlocator.symm, htournament.symm, hdaemon.symm, hdomain.symm, ?_,
      hlease, herrors, hcandidates⟩
    intro i
    rw [hnext.core.names i, hvalid.core.names i]
    exact (hcandidates i).1.symm
  · exact ⟨rfl, rfl, rfl, rfl, rfl, rfl, fun _ => rfl, Nat.le_refl _, List.prefix_rfl,
      fun i => candidateProgressesTo_refl _⟩

theorem Succeeds.generation {record next : TournamentRecord} (h : Succeeds record next) :
    next.status.generation = record.status.generation + 1 := by
  obtain ⟨-, ⟨-, -, hgeneration, -⟩ | _⟩ := h
  · exact hgeneration
  · rfl

/-- A phase stays, or moves on, or is given up after a restart. -/
theorem Succeeds.phase {record next : TournamentRecord} (h : Succeeds record next) :
    next.status.phase = record.status.phase ∨
      isLegalTransition record.status.phase next.status.phase = true ∨
      record.status.phase.isTerminal = false ∧ next.status.phase = .rollbackRequired := by
  obtain ⟨-, ⟨kind, -, -, -, hkind, -⟩ | ⟨hterminal, -⟩⟩ := h
  · rcases kind with _ | _ | _
    · exact .inr (.inl hkind.2)
    · exact .inl hkind.1.symm
    · obtain ⟨-, -, hcurrent, hnext, -⟩ := hkind
      exact .inl (hnext.trans hcurrent.symm)
  · exact .inr (.inr ⟨hterminal, rfl⟩)

theorem Succeeds.rollback {record next : TournamentRecord} (h : Succeeds record next)
    (hrollback : record.status.phase.isRollback = true) : next.status.phase.isRollback = true := by
  rcases h.phase with heq | hlegal | ⟨-, heq⟩
  · rw [heq]
    exact hrollback
  · exact rollback_closed hlegal hrollback
  · rw [heq]
    rfl

/-- The phases that a tournament goes through before it is in one of the last three. -/
structure InOrder (before : List TournamentRecord) (record : TournamentRecord) : Prop where
  selecting : record.status.phase = .winnerSelectionPending →
    [SpeculationPhase.finalizingLoser].Sublist (before.map (·.status.phase))
  finalizing : record.status.phase = .finalizingWinner →
    [SpeculationPhase.finalizingLoser, .winnerSelectionPending].Sublist (before.map (·.status.phase))
  selected : record.status.phase = .selected →
    [SpeculationPhase.finalizingLoser, .winnerSelectionPending, .finalizingWinner].Sublist
      (before.map (·.status.phase))

theorem Succeeds.inOrder {before : List TournamentRecord} {record next : TournamentRecord}
    (h : Succeeds record next) (hbefore : InOrder before record) : InOrder (before ++ [record]) next := by
  -- a phase that stays is in order already; one that is new comes right after the one before it
  have hkeep : ∀ {phases : List SpeculationPhase}, phases.Sublist (before.map (·.status.phase)) →
      phases.Sublist ((before ++ [record]).map (·.status.phase)) := by
    intro phases hphases
    rw [List.map_append]
    exact hphases.trans (List.sublist_append_left _ _)
  have hnew : ∀ {phases : List SpeculationPhase}, phases.Sublist (before.map (·.status.phase)) →
      (phases ++ [record.status.phase]).Sublist ((before ++ [record]).map (·.status.phase)) := by
    intro phases hphases
    rw [List.map_append]
    exact hphases.append (List.Sublist.refl _)
  rcases h.phase with heq | hlegal | ⟨-, heq⟩
  · constructor
    · intro hnext
      exact hkeep (hbefore.selecting (heq.symm.trans hnext))
    · intro hnext
      exact hkeep (hbefore.finalizing (heq.symm.trans hnext))
    · intro hnext
      exact hkeep (hbefore.selected (heq.symm.trans hnext))
  · constructor
    · intro hnext
      rw [hnext] at hlegal
      have hrecord := winnerSelectionPending_predecessor hlegal
      have := hnew (List.nil_sublist _)
      rwa [hrecord] at this
    · intro hnext
      rw [hnext] at hlegal
      have hrecord := finalizingWinner_predecessor hlegal
      have := hnew (hbefore.selecting hrecord)
      rwa [hrecord] at this
    · intro hnext
      rw [hnext] at hlegal
      by_cases hsame : record.status.phase = .selected
      · exact hkeep (hbefore.selected hsame)
      · have hrecord := selected_predecessor hlegal hsame
        have := hnew (hbefore.finalizing hrecord)
        rwa [hrecord] at this
  · constructor
    all_goals
      intro hnext
      rw [heq] at hnext
      simp at hnext

/-- A tournament that is `Selected` has the winner that its candidates score. -/
theorem winner_of_valid {record : TournamentRecord} (h : record.Valid)
    (hphase : record.status.phase = .selected) :
    ∃ i, record.status.selectedIndex = some i ∧
      scoreSelectedIndex record.status.candidates = some i := by
  have hselection := h.core.status.selection
  unfold SpeculationStatus.SelectionValid at hselection
  rw [if_pos hphase] at hselection
  obtain ⟨i, hi, -, -, -, hscore⟩ := hselection
  exact ⟨i, hi, hscore⟩

/-- The history of a tournament, as it should be. -/
structure Lawful (records : List TournamentRecord) : Prop where
  prepared : ∀ record, records.head? = some record → record.status.phase = .prepared
  generation : records.IsChain fun record next =>
    next.status.generation = record.status.generation + 1
  follows : records.Pairwise Follows
  rollback : records.Pairwise fun record later =>
    record.status.phase.isRollbackOnly = true → later.status.phase ≠ .selected
  selected : ∀ earlier record later, records = earlier ++ record :: later →
    record.status.phase = .selected →
      [SpeculationPhase.finalizingLoser, .winnerSelectionPending, .finalizingWinner].Sublist
        (earlier.map (·.status.phase))
  winner : ∀ record ∈ records, record.status.phase = .selected →
    ∃ i, record.status.selectedIndex = some i ∧ scoreSelectedIndex record.status.candidates = some i

theorem Durable.lawful (h : Durable store) (id : Uuid) : Lawful (history store id) where
  prepared := h.start id
  generation := (h.chain id).imp fun _ _ hstep => hstep.generation
  follows := Trace.pairwise_of_step (S := Follows) (fun _ _ _ => Follows.trans)
    (fun _ _ hstep => hstep.follows) (h.chain id)
  rollback := by
    have hclosed := Trace.pairwise_of_step
      (S := fun a b : TournamentRecord => a.status.phase.isRollback = true →
        b.status.phase.isRollback = true)
      (fun _ _ _ hab hbc => hbc ∘ hab) (fun _ _ hstep => hstep.rollback) (h.chain id)
    refine hclosed.imp fun {a b} hab ha hb => ?_
    have hrollback : b.status.phase.isRollback = true := by
      apply hab
      simp [SpeculationPhase.isRollback, ha]
    rw [hb, selected_not_rollback] at hrollback
    simp at hrollback
  selected := by
    intro earlier record later heq hphase
    rcases hlist : history store id with _ | ⟨first, rest⟩
    · rw [hlist] at heq
      simp at heq
    · have hstart := h.start id first (by rw [hlist]; rfl)
      have hfirst : InOrder [] first := by
        constructor
        all_goals
          intro hfirst
          rw [hstart] at hfirst
          simp at hfirst
      have hchain := h.chain id
      rw [hlist] at heq hchain
      have horder := Trace.chain_invariant (fun before a b hab hinv => Succeeds.inOrder hab hinv)
        rest [] first hchain hfirst earlier record later heq
      exact horder.selected hphase
  winner record hrecord := winner_of_valid (h.valid id record hrecord)

/-! ### Runs -/

/-- The tournaments that a list of operations allocates. -/
def allocated (ops : List Operation) : List Uuid :=
  ops.filterMap fun
    | .allocatePrepared _ _ record _ => some record.status.tournamentUuid
    | _ => none

/-- A key that names the record on file, with its generation. -/
structure Current (store : TournamentStore) (key : TournamentKey) (expectedGeneration : ℕ) : Prop where
  generation : key.generation = expectedGeneration
  record : ∃ record, durable store key.slot = some record ∧
    record.status.tournamentUuid = key.tournamentUuid ∧
    record.status.generation = expectedGeneration

/-- One operation in a run. -/
structure Orderly (store : TournamentStore) (op : Operation) : Prop where
  grows : ∀ id, history (step store op) id = history store id ∨
    ∃ record, history (step store op) id = history store id ++ [record]
  accepted : ∀ io key expectedGeneration next kind update,
    op = .write io key expectedGeneration next kind →
    (Procedure.exec (write io key expectedGeneration next kind) store).1 = .ok update →
      update.record = next ∧ durable (step store op) key.slot = some next ∧
      history (step store op) key.tournamentUuid = history store key.tournamentUuid ++ [next]
  untouched : ∀ io key expectedGeneration next kind, op = .write io key expectedGeneration next kind →
    ¬ Current store key expectedGeneration → step store op = store
  stale : ∀ k expectedGeneration, key op = some (k, expectedGeneration) →
    ¬ Current store k expectedGeneration →
      (step store op).files = store.files ∧ (step store op).installed = store.installed
  kept : ∀ slot record, durable store slot = some record →
    ∃ record', durable (step store op) slot = some record'
  recycled : ∀ slot record record', durable store slot = some record →
    durable (step store op) slot = some record' →
    record'.status.tournamentUuid ≠ record.status.tournamentUuid →
      ∃ io manifestIo now completed, op = .allocatePrepared io manifestIo record' now ∧
        record.isPositiveTerminal = true ∧ record.terminalCompletedUnixMs = some completed ∧
        saturatingAdd completed terminalRetentionMillis ≤ now

/-- What an operation leaves on file and in the histories: everything, or one record more. -/
theorem files_step (h : Coherent store) (op : Operation) :
    ((∀ slot, durable (step store op) slot = durable store slot) ∧
        (step store op).files = store.files ∧ (step store op).installed = store.installed) ∨
      ∃ slot record, Installs op store slot record ∧
        (∀ slot', durable (step store op) slot' =
          if slot = slot' then some record else durable store slot') ∧
        ∀ id, history (step store op) id =
          if record.status.tournamentUuid = id then history store id ++ [record]
          else history store id := by
  rcases step_change store op with ⟨io, -, hstep⟩ | hchange
  · left
    rw [hstep]
    refine ⟨fun slot => ?_, reopen_files io store, reopen_installed io store⟩
    unfold durable
    rw [reopen_file]
  · generalize step store op = store' at hchange ⊢
    rcases hchange with _ | slot | @⟨slot, record, identity, state, materialized, hw, hstate⟩
    · exact .inl ⟨fun _ => rfl, rfl, rfl⟩
    · exact .inl ⟨fun _ => rfl, rfl, rfl⟩
    · right
      have hlt : slot < store.files.length := by
        rcases hw with ⟨-, -, hslot, -⟩ | ⟨-, -, -, hslot, -⟩
        · exact h.lt_of_slot hslot
        · exact h.lt_of_slot hslot
      exact ⟨slot, record, hw, fun _ => durable_install hlt,
        fun id => @history_install store slot identity record id⟩

/-- A slot that a finished tournament has held for long enough. -/
theorem isExpired_valid {now : ℕ} {record : TournamentRecord} {identity : FileIdentity}
    (h : (SlotState.valid record identity).isExpired now = true) :
    record.isPositiveTerminal = true ∧ ∃ completed, record.terminalCompletedUnixMs = some completed ∧
      saturatingAdd completed terminalRetentionMillis ≤ now := by
  simp only [SlotState.isExpired, Bool.and_eq_true] at h
  obtain ⟨hterminal, hexpired⟩ := h
  rcases hcompleted : record.terminalCompletedUnixMs with _ | completed
  · rw [hcompleted] at hexpired
    simp at hexpired
  · rw [hcompleted, Option.any_some, decide_eq_true_eq] at hexpired
    exact ⟨hterminal, completed, rfl, hexpired⟩

/-- A record is written in the place of another tournament's only if that is long over. -/
theorem recycled_of_installs {op : Operation} {slot : ℕ} {record written : TournamentRecord}
    (hcoherent : Coherent store) (h : Installs op store slot written)
    (hrecord : durable store slot = some record)
    (hne : written.status.tournamentUuid ≠ record.status.tournamentUuid) :
    ∃ io manifestIo now completed, op = .allocatePrepared io manifestIo written now ∧
      record.isPositiveTerminal = true ∧ record.terminalCompletedUnixMs = some completed ∧
      saturatingAdd completed terminalRetentionMillis ≤ now := by
  have hshown : ∀ current identity, store.slots[slot]? = some (.valid current identity) →
      current = record := by
    intro current identity hslot
    have hcurrent := hcoherent.durable_of_valid hslot
    rw [hrecord] at hcurrent
    simpa using hcurrent.symm
  rcases h with ⟨-, -, hslot, hadvance⟩ | @⟨io, manifestIo, now, _, state, _, hop, -, -, hslot, hfree⟩
  · rw [hadvance.uuid, hshown _ _ hslot] at hne
    exact absurd rfl hne
  · rcases state with identity | ⟨current, identity⟩ | _
    · have hnone := hcoherent.vacant _ _ hslot
      rw [hrecord] at hnone
      simp at hnone
    · obtain ⟨hterminal, completed, hcompleted, hage⟩ :=
        isExpired_valid (hfree.resolve_left (by simp [SlotState.isVacant]))
      rw [hshown current identity hslot] at hterminal hcompleted
      exact ⟨io, manifestIo, now, completed, hop, hterminal, hcompleted, hage⟩
    · simp [SlotState.isVacant, SlotState.isExpired] at hfree

theorem current_of_keyed (h : Coherent store) {k : TournamentKey} {expectedGeneration : ℕ}
    (hkeyed : Keyed k expectedGeneration store) : Current store k expectedGeneration := by
  obtain ⟨hgeneration, current, identity, hslot, huuid, hcurrent⟩ := hkeyed
  exact ⟨hgeneration, current, h.durable_of_valid hslot, huuid, hcurrent⟩

/-- A write that succeeds is on file, and it is the next of its tournament. -/
theorem accepted_write (h : Coherent store) {io : WriteIo} {k : TournamentKey}
    {expectedGeneration : ℕ} {next : TournamentRecord} {kind : TournamentWriteKind}
    {update : StoredTournamentUpdate}
    (hok : (Procedure.exec (write io k expectedGeneration next kind) store).1 = .ok update) :
    update.record = next ∧
      durable (step store (.write io k expectedGeneration next kind)) k.slot = some next ∧
      history (step store (.write io k expectedGeneration next kind)) k.tournamentUuid =
        history store k.tournamentUuid ++ [next] := by
  obtain ⟨current, identity, identity', hslot, -, hvalid, hkey, haccepts, hexec⟩ := write_eq_ok hok
  have hlt := h.lt_of_slot hslot
  have hstep : step store (.write io k expectedGeneration next kind) =
      (store.install k.slot identity' next).setSlot k.slot (.valid next identity') := by
    unfold step perform
    rw [Procedure.exec_discard, hexec]
  have huuid : next.status.tournamentUuid = k.tournamentUuid := by
    obtain ⟨⟨-, -, -, -, huuid, -⟩, -⟩ := haccepts
    exact huuid.symm.trans hkey.1.symm
  rw [hexec] at hok
  simp only [Except.ok.injEq] at hok
  refine ⟨by rw [← hok], ?_, ?_⟩
  · rw [hstep]
    show durable (store.install k.slot identity' next) k.slot = some next
    rw [durable_install hlt, if_pos rfl]
  · rw [hstep]
    show history (store.install k.slot identity' next) k.tournamentUuid = _
    rw [history_install, if_pos huuid]

theorem orderly_step (h : Durable store) (op : Operation) : Orderly store op := by
  have hfiles := files_step h.coherent op
  constructor
  · intro id
    rcases hfiles with ⟨-, -, hinstalled⟩ | ⟨slot, record, -, -, hhistory⟩
    · left
      unfold history
      rw [hinstalled]
    · rw [hhistory]
      split_ifs
      · exact .inr ⟨record, rfl⟩
      · exact .inl rfl
  · rintro io k expectedGeneration next kind update rfl hok
    exact accepted_write h.coherent hok
  · rintro io k expectedGeneration next kind rfl hstale
    unfold step perform
    rw [Procedure.exec_discard]
    exact write_stale fun hkeyed => hstale (current_of_keyed h.coherent hkeyed)
  · intro k expectedGeneration hkey hstale
    rcases hfiles with ⟨-, hsame⟩ | ⟨slot, record, hw, -⟩
    · exact hsame
    · rcases hw with ⟨hkey', hkeyed, -⟩ | ⟨hop, -⟩
      · rw [hkey] at hkey'
        simp only [Option.some.injEq, Prod.mk.injEq] at hkey'
        obtain ⟨rfl, rfl⟩ := hkey'
        exact absurd (current_of_keyed h.coherent hkeyed) hstale
      · rw [hop] at hkey
        simp [key] at hkey
  · intro slot record hrecord
    rcases hfiles with ⟨hdurable, -⟩ | ⟨slot', record', -, hdurable, -⟩
    · exact ⟨record, (hdurable slot).trans hrecord⟩
    · rw [hdurable]
      split_ifs
      · exact ⟨record', rfl⟩
      · exact ⟨record, hrecord⟩
  · intro slot record record' hrecord hrecord' hne
    have hsame : ¬ durable store slot = some record' := by
      intro hsame
      rw [hrecord, Option.some.injEq] at hsame
      rw [hsame] at hne
      exact hne rfl
    rcases hfiles with ⟨hdurable, -⟩ | ⟨slot', written, hw, hdurable, -⟩
    · exact absurd ((hdurable slot).symm.trans hrecord') hsame
    · rw [hdurable] at hrecord'
      split_ifs at hrecord' with hslot
      · simp only [Option.some.injEq] at hrecord'
        subst hrecord' hslot
        exact recycled_of_installs h.coherent hw hrecord hne
      · exact absurd hrecord' hsame

theorem history_step_nil {op : Operation} (h : Durable store) {id : Uuid}
    (hnil : history store id = []) (hop : id ∉ allocated [op]) :
    history (step store op) id = [] := by
  rcases files_step h.coherent op with ⟨-, -, hinstalled⟩ | ⟨slot, record, hw, -, hhistory⟩
  · unfold history at hnil ⊢
    rw [hinstalled]
    exact hnil
  · rw [hhistory]
    split_ifs with huuid
    · rcases hw with ⟨-, -, hslot, hadvance⟩ | ⟨hop', -⟩
      · have hlast := h.last _ _ (h.coherent.durable_of_valid hslot)
        rw [← hadvance.uuid, huuid, hnil] at hlast
        simp at hlast
      · rw [hop'] at hop
        simp [allocated, huuid] at hop
    · exact hnil

/-- The invariant over a run in which every tournament is allocated once. -/
theorem Durable.run (ops : List Operation) : ∀ store, Durable store → (allocated ops).Nodup →
    (∀ id ∈ allocated ops, history store id = []) → Durable (run store ops) := by
  induction ops with
  | nil =>
    intro store h _ _
    exact h
  | cons op ops ih =>
    intro store h hnodup hnew
    have hsplit : allocated (op :: ops) = allocated [op] ++ allocated ops := by
      unfold allocated
      rw [← List.filterMap_append]
      rfl
    rw [hsplit] at hnodup hnew
    obtain ⟨-, hnodup, hdisjoint⟩ := List.nodup_append.mp hnodup
    have hstep : Durable (Store.step store op) := by
      refine h.step ?_
      rintro io manifestIo record now rfl
      refine hnew record.status.tournamentUuid ?_
      simp [allocated]
    refine ih (Store.step store op) hstep hnodup ?_
    intro id hid
    refine history_step_nil h (hnew id (List.mem_append_right _ hid)) ?_
    intro hop
    exact hdisjoint id hop id hid rfl

/-- **The durable history of a tournament**, over every run of the store that starts with an empty
directory, with failing writes and restarts anywhere. Every history is lawful, the files hold its last
records, and every operation on the way is orderly. -/
theorem durable_history (ops : List Operation) (hnew : (allocated ops).Nodup) :
    (∀ id, Lawful (history (run fresh ops) id)) ∧
      (∀ slot record, durable (run fresh ops) slot = some record →
        (history (run fresh ops) record.status.tournamentUuid).getLast? = some record) ∧
      ∀ earlier op later, ops = earlier ++ op :: later → Orderly (run fresh earlier) op := by
  have hdurable : ∀ ops, (allocated ops).Nodup → Durable (run fresh ops) := by
    intro ops hnew
    exact Durable.run ops fresh Durable.fresh hnew fun _ _ => rfl
  refine ⟨fun id => (hdurable ops hnew).lawful id, (hdurable ops hnew).last, ?_⟩
  rintro earlier op later rfl
  have hsplit : allocated (earlier ++ op :: later) =
      allocated earlier ++ allocated (op :: later) := by
    unfold allocated
    rw [List.filterMap_append]
  rw [hsplit] at hnew
  exact orderly_step (hdurable earlier (List.nodup_append.mp hnew).1) op

/-- A run that prepares a tournament, arms it, tries to arm it again with the old key, and reopens the
store. -/
def sampleRun : List Operation :=
  let armed : TournamentRecord :=
    { sampleRecord with status := { sampleRecord.status with phase := .armed, generation := 2 } }
  [.allocatePrepared (.done ⟨1, 1⟩) (.done ⟨1, 2⟩) sampleRecord 0,
    .write (.done ⟨1, 3⟩) ⟨0, 1, 2⟩ 1 armed .livePhaseTransition,
    .write (.done ⟨1, 4⟩) ⟨0, 1, 2⟩ 1 armed .livePhaseTransition,
    .reopen ⟨fun _ => true, 0⟩]

theorem durable_history_sampleRun :
    (allocated sampleRun).Nodup ∧
      ((history (run fresh sampleRun) 2).map fun record => record.status.phase) =
        [.prepared, .armed] ∧ Lawful (history (run fresh sampleRun) 2) :=
  ⟨by decide, by decide +kernel, (durable_history sampleRun (by decide)).1 2⟩

end LightTerminal.Speculation.History
