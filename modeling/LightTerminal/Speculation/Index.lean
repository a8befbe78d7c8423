import LightTerminal.Library.Run
import LightTerminal.Library.SlotMap
import LightTerminal.Speculation.Store

/-! # The index of the service

`ServiceIndex` keeps the actor handles of the tournaments that run and the last status of those that
ended (`speculation_service.rs`). Both are kept by uuid, and for both a second map leads from the slot
of the store to the uuid. A slot holds one tournament, of one kind: whoever takes a slot evicts the
tournament in it, and leaves the slot it had.

* `ServiceIndex.Bijective`: the invariant, which `perform_bijective` shows for one call;
* `service_index_bijective`: every run of calls. -/

namespace LightTerminal.Speculation.Index

open LightTerminal.Data.Text LightTerminal.Library LightTerminal.Library.FiniteMap
open LightTerminal.Library.SlotMap
open LightTerminal.Speculation.Record LightTerminal.Speculation.Store

/-- `ActorHandle`, without the channel to the actor. -/
structure ActorHandle where
  slot : ℕ
  snapshot : SpeculationStatus

/-- `TerminalCacheEntry`. -/
structure TerminalCacheEntry where
  slot : ℕ
  status : SpeculationStatus

/-- `ServiceIndex`. -/
structure ServiceIndex where
  live : Map Uuid ActorHandle := ∅
  liveSlots : Map ℕ Uuid := ∅
  terminal : Map Uuid TerminalCacheEntry := ∅
  terminalSlots : Map ℕ Uuid := ∅

namespace ServiceIndex

/-- `evict_slot`. -/
def evictSlot (index : ServiceIndex) (slot : ℕ) : ServiceIndex where
  live := eraseSome index.live (index.liveSlots.lookup slot)
  liveSlots := index.liveSlots.erase slot
  terminal := eraseSome index.terminal (index.terminalSlots.lookup slot)
  terminalSlots := index.terminalSlots.erase slot

/-- The last lines of `insert_live`: what `HashMap::insert` returns is the handle that was there. -/
def putLive (index : ServiceIndex) (slot : ℕ) (tournamentUuid : Uuid) (handle : ActorHandle) :
    ServiceIndex :=
  let previous := index.live.lookup tournamentUuid
  { index with
    live := index.live.insert tournamentUuid handle
    liveSlots := (eraseSome index.liveSlots (previous.map ActorHandle.slot)).insert slot tournamentUuid }

/-- `insert_live`. -/
def insertLive (index : ServiceIndex) (slot : ℕ) (tournamentUuid : Uuid) (handle : ActorHandle) :
    Except ServiceError Unit × ServiceIndex :=
  let replacingSlot := index.liveSlots.lookup slot
  if slot ≥ maxTournamentRecords then (.error .evidenceUnavailable, index)
  else if size index.live ≥ maxLiveTournaments ∧ replacingSlot = none ∧ tournamentUuid ∉ index.live then
    (.error .capacity, index)
  else (.ok (), (index.evictSlot slot).putLive slot tournamentUuid handle)

/-- The entry of `cache_terminal`. -/
def putTerminal (index : ServiceIndex) (slot : ℕ) (status : SpeculationStatus) : ServiceIndex :=
  let previous := index.terminal.lookup status.tournamentUuid
  { index with
    terminal := index.terminal.insert status.tournamentUuid ⟨slot, status⟩
    terminalSlots := (eraseSome index.terminalSlots (previous.map TerminalCacheEntry.slot)).insert slot
      status.tournamentUuid }

/-- `cache_terminal`: the last check comes after the change. -/
def cacheTerminal (index : ServiceIndex) (slot : ℕ) (status : SpeculationStatus) :
    Except ServiceError Unit × ServiceIndex :=
  if slot ≥ maxTournamentRecords then (.error .evidenceUnavailable, index)
  else
    let changed := (index.evictSlot slot).putTerminal slot status
    if size changed.terminal > maxTournamentRecords then (.error .evidenceUnavailable, changed)
    else (.ok (), changed)

/-- `publish_actor_terminal`. -/
def publishActorTerminal (index : ServiceIndex) (slot : ℕ) (tournamentUuid : Uuid)
    (status : SpeculationStatus) : Except ServiceError Unit × ServiceIndex :=
  if index.liveSlots.lookup slot ≠ some tournamentUuid ∨ tournamentUuid ∉ index.live then (.ok (), index)
  else index.cacheTerminal slot status

/-! ### The invariant -/

/-- The slots lead back to the tournaments they belong to, and no slot has one of each kind. -/
structure Bijective (index : ServiceIndex) : Prop where
  live : Inverse ActorHandle.slot index.live index.liveSlots
  terminal : Inverse TerminalCacheEntry.slot index.terminal index.terminalSlots
  apart : ∀ slot, slot ∉ index.liveSlots ∨ slot ∉ index.terminalSlots
  live_le : size index.live ≤ maxLiveTournaments
  terminal_lt : ∀ tournamentUuid entry, index.terminal.lookup tournamentUuid = some entry →
    entry.slot < maxTournamentRecords

theorem Bijective.terminal_le {index : ServiceIndex} (h : index.Bijective) :
    size index.terminal ≤ maxTournamentRecords :=
  h.terminal.size_le h.terminal_lt

theorem bijective_empty : ({} : ServiceIndex).Bijective where
  live := inverse_empty _
  terminal := inverse_empty _
  apart _ := .inl (Finmap.notMem_empty)
  live_le := Nat.zero_le _
  terminal_lt _ _ h := by
    rw [Finmap.lookup_empty] at h
    cases h

variable {index : ServiceIndex}

/-- After `evict_slot` the slot is free for a tournament of either kind. -/
theorem vacant_evictSlot (index : ServiceIndex) (slot : ℕ) :
    (index.evictSlot slot).liveSlots.lookup slot = none ∧
      (index.evictSlot slot).terminalSlots.lookup slot = none := by
  unfold evictSlot
  rw [FiniteMap.lookup_erase, FiniteMap.lookup_erase, if_pos rfl, if_pos rfl]
  exact ⟨rfl, rfl⟩

theorem Bijective.evictSlot (h : index.Bijective) (slot : ℕ) : (index.evictSlot slot).Bijective where
  live := h.live.evict slot
  terminal := h.terminal.evict slot
  apart slot' := by
    rcases h.apart slot' with hlive | hterminal
    · exact .inl fun hmem => hlive (Finmap.mem_erase.mp hmem).2
    · exact .inr fun hmem => hterminal (Finmap.mem_erase.mp hmem).2
  live_le := le_trans (size_eraseSome_le _ _) h.live_le
  terminal_lt tournamentUuid entry hentry :=
    h.terminal_lt tournamentUuid entry (lookup_of_eraseSome hentry)

theorem Bijective.putLive (h : index.Bijective) {slot : ℕ} {tournamentUuid : Uuid} {handle : ActorHandle}
    (hvacant : index.liveSlots.lookup slot = none ∧ index.terminalSlots.lookup slot = none)
    (hhandle : handle.slot = slot)
    (hroom : size (index.live.insert tournamentUuid handle) ≤ maxLiveTournaments) :
    (index.putLive slot tournamentUuid handle).Bijective where
  live := h.live.put hvacant.1 hhandle
  terminal := h.terminal
  apart slot' := by
    by_cases hslot : slot' = slot
    · rw [hslot]
      exact .inr (Finmap.lookup_eq_none.mp hvacant.2)
    · rcases h.apart slot' with hlive | hterminal
      · refine .inl fun hmem => ?_
        rcases Finmap.mem_insert.mp hmem with hsame | hmem
        · exact hslot hsame
        · exact hlive (mem_of_eraseSome hmem)
      · exact .inr hterminal
  live_le := hroom
  terminal_lt := h.terminal_lt

theorem Bijective.putTerminal (h : index.Bijective) {slot : ℕ} (status : SpeculationStatus)
    (hvacant : index.liveSlots.lookup slot = none ∧ index.terminalSlots.lookup slot = none)
    (hslot : slot < maxTournamentRecords) : (index.putTerminal slot status).Bijective where
  live := h.live
  terminal := h.terminal.put hvacant.2 rfl
  apart slot' := by
    by_cases hsame : slot' = slot
    · rw [hsame]
      exact .inl (Finmap.lookup_eq_none.mp hvacant.1)
    · rcases h.apart slot' with hlive | hterminal
      · exact .inl hlive
      · refine .inr fun hmem => ?_
        rcases Finmap.mem_insert.mp hmem with heq | hmem
        · exact hsame heq
        · exact hterminal (mem_of_eraseSome hmem)
  live_le := h.live_le
  terminal_lt tournamentUuid entry hentry := by
    have hlook : (index.terminal.insert status.tournamentUuid ⟨slot, status⟩).lookup tournamentUuid =
        some entry := hentry
    rw [FiniteMap.lookup_insert] at hlook
    split_ifs at hlook with huuid
    · cases hlook
      exact hslot
    · exact h.terminal_lt tournamentUuid entry hlook

/-- There is room for a handle that `insert_live` does not refuse: the slot was taken, and its tournament
goes, or the tournament has a handle already. -/
theorem Bijective.room (h : index.Bijective) {slot : ℕ} {tournamentUuid : Uuid} (handle : ActorHandle)
    (hroom : ¬ (size index.live ≥ maxLiveTournaments ∧ index.liveSlots.lookup slot = none ∧
      tournamentUuid ∉ index.live)) :
    size ((index.evictSlot slot).live.insert tournamentUuid handle) ≤ maxLiveTournaments := by
  have hle := h.live_le
  show size ((eraseSome index.live (index.liveSlots.lookup slot)).insert tournamentUuid handle) ≤ _
  rcases hslot : index.liveSlots.lookup slot with _ | previous
  · show size (index.live.insert tournamentUuid handle) ≤ _
    by_cases hmem : tournamentUuid ∈ index.live
    · rw [size_insert_of_mem hmem]
      exact hle
    · have hlt : size index.live < maxLiveTournaments := by
        by_contra hge
        exact hroom ⟨not_lt.mp hge, hslot, hmem⟩
      have hinsert := size_insert_le index.live tournamentUuid handle
      omega
  · have hinsert := size_insert_le (index.live.erase previous) tournamentUuid handle
    have herase := size_erase_of_mem (h.live.mem hslot)
    show size ((index.live.erase previous).insert tournamentUuid handle) ≤ _
    omega

theorem insertLive_bijective (h : index.Bijective) (slot : ℕ) (tournamentUuid : Uuid)
    {handle : ActorHandle} (hhandle : handle.slot = slot) :
    (index.insertLive slot tournamentUuid handle).2.Bijective := by
  unfold insertLive
  dsimp only
  split_ifs with hslot hroom
  · exact h
  · exact h
  · exact (h.evictSlot slot).putLive (vacant_evictSlot index slot) hhandle (h.room handle hroom)

/-- The last check of `cache_terminal` never fails. -/
theorem cacheTerminal_eq (h : index.Bijective) {slot : ℕ} (hslot : slot < maxTournamentRecords)
    (status : SpeculationStatus) : ((index.evictSlot slot).putTerminal slot status).Bijective ∧
      index.cacheTerminal slot status = (.ok (), (index.evictSlot slot).putTerminal slot status) := by
  have hput := (h.evictSlot slot).putTerminal status (vacant_evictSlot index slot) hslot
  refine ⟨hput, ?_⟩
  unfold cacheTerminal
  dsimp only
  rw [if_neg (not_le.mpr hslot), if_neg (not_lt.mpr hput.terminal_le)]

theorem cacheTerminal_refused {slot : ℕ} (hslot : ¬ slot < maxTournamentRecords)
    (status : SpeculationStatus) :
    index.cacheTerminal slot status = (.error .evidenceUnavailable, index) := by
  unfold cacheTerminal
  rw [if_pos (not_lt.mp hslot)]

theorem cacheTerminal_bijective (h : index.Bijective) (slot : ℕ) (status : SpeculationStatus) :
    (index.cacheTerminal slot status).2.Bijective := by
  by_cases hslot : slot < maxTournamentRecords
  · obtain ⟨hput, heq⟩ := cacheTerminal_eq h hslot status
    rw [heq]
    exact hput
  · rw [cacheTerminal_refused hslot]
    exact h

/-- A tournament that runs in the slot. -/
def Runs (index : ServiceIndex) (slot : ℕ) (tournamentUuid : Uuid) : Prop :=
  ∃ handle, index.live.lookup tournamentUuid = some handle ∧ handle.slot = slot

theorem publishActorTerminal_runs (h : index.Bijective) {slot : ℕ} {tournamentUuid : Uuid}
    (hruns : index.Runs slot tournamentUuid) (status : SpeculationStatus) :
    index.publishActorTerminal slot tournamentUuid status = index.cacheTerminal slot status := by
  have hlook := (h.live slot tournamentUuid).mpr hruns
  unfold publishActorTerminal
  rw [if_neg]
  rintro (hne | hmem)
  · exact hne hlook
  · exact hmem (h.live.mem hlook)

theorem publishActorTerminal_stale (h : index.Bijective) {slot : ℕ} {tournamentUuid : Uuid}
    (hstale : ¬ index.Runs slot tournamentUuid) (status : SpeculationStatus) :
    index.publishActorTerminal slot tournamentUuid status = (.ok (), index) := by
  unfold publishActorTerminal
  rw [if_pos (.inl fun hlook => hstale ((h.live slot tournamentUuid).mp hlook))]

theorem publishActorTerminal_bijective (h : index.Bijective) (slot : ℕ) (tournamentUuid : Uuid)
    (status : SpeculationStatus) :
    (index.publishActorTerminal slot tournamentUuid status).2.Bijective := by
  by_cases hruns : index.Runs slot tournamentUuid
  · rw [publishActorTerminal_runs h hruns]
    exact cacheTerminal_bijective h slot status
  · rw [publishActorTerminal_stale h hruns]
    exact h

end ServiceIndex

/-! ### Runs -/

/-- A call of the index; a handle has the slot that it is inserted under. -/
inductive Call where
  | insertLive (slot : ℕ) (tournamentUuid : Uuid) (snapshot : SpeculationStatus)
  | cacheTerminal (slot : ℕ) (status : SpeculationStatus)
  | publishActorTerminal (slot : ℕ) (tournamentUuid : Uuid) (status : SpeculationStatus)

/-- What a call does. -/
def perform (index : ServiceIndex) : Call → Except ServiceError Unit × ServiceIndex
  | .insertLive slot tournamentUuid snapshot => index.insertLive slot tournamentUuid ⟨slot, snapshot⟩
  | .cacheTerminal slot status => index.cacheTerminal slot status
  | .publishActorTerminal slot tournamentUuid status =>
    index.publishActorTerminal slot tournamentUuid status

/-- The index after calls on the empty one, of which any may have failed. -/
def indexAfter (calls : List Call) : ServiceIndex :=
  Run.run (fun index call => (perform index call).2) ({} : ServiceIndex) calls

variable {index : ServiceIndex}

theorem perform_bijective (h : index.Bijective) : ∀ call, (perform index call).2.Bijective
  | .insertLive slot tournamentUuid _ => ServiceIndex.insertLive_bijective h slot tournamentUuid rfl
  | .cacheTerminal slot status => ServiceIndex.cacheTerminal_bijective h slot status
  | .publishActorTerminal slot tournamentUuid status =>
    ServiceIndex.publishActorTerminal_bijective h slot tournamentUuid status

theorem indexAfter_bijective (calls : List Call) : (indexAfter calls).Bijective := by
  have hstep : ∀ (index : ServiceIndex) (call : Call), index.Bijective →
      (perform index call).2.Bijective := fun _ call h => perform_bijective h call
  exact Run.run_invariant hstep calls _ ServiceIndex.bijective_empty

theorem cacheTerminal_rejected (h : index.Bijective) {slot : ℕ} {status : SpeculationStatus}
    {error : ServiceError} (herror : (index.cacheTerminal slot status).1 = .error error) :
    (index.cacheTerminal slot status).2 = index := by
  by_cases hslot : slot < maxTournamentRecords
  · rw [(ServiceIndex.cacheTerminal_eq h hslot status).2] at herror
    cases herror
  · rw [ServiceIndex.cacheTerminal_refused hslot]

theorem perform_rejected (h : index.Bijective) {call : Call} {error : ServiceError}
    (herror : (perform index call).1 = .error error) : (perform index call).2 = index := by
  rcases call with ⟨slot, tournamentUuid, snapshot⟩ | ⟨slot, status⟩ | ⟨slot, tournamentUuid, status⟩
  · have hinsert : (index.insertLive slot tournamentUuid ⟨slot, snapshot⟩).1 = .error error := herror
    show (index.insertLive slot tournamentUuid ⟨slot, snapshot⟩).2 = index
    unfold ServiceIndex.insertLive at hinsert ⊢
    dsimp only at hinsert ⊢
    split_ifs at hinsert ⊢
    · rfl
    · rfl
  · exact cacheTerminal_rejected h herror
  · have hpublish : (index.publishActorTerminal slot tournamentUuid status).1 = .error error := herror
    show (index.publishActorTerminal slot tournamentUuid status).2 = index
    by_cases hruns : index.Runs slot tournamentUuid
    · rw [ServiceIndex.publishActorTerminal_runs h hruns] at hpublish ⊢
      exact cacheTerminal_rejected h hpublish
    · rw [ServiceIndex.publishActorTerminal_stale h hruns]

/-- **The maps of the index stay inverse to each other.** After any calls the slots lead back to exactly
the tournaments that have them, no slot has a tournament of each kind, and both limits hold. A call that
is refused changes nothing, `cache_terminal` refuses a slot out of range and no other, and an actor whose
tournament no longer runs in its slot changes nothing. -/
theorem service_index_bijective (calls : List Call) :
    let index := indexAfter calls
    (∀ slot tournamentUuid, index.liveSlots.lookup slot = some tournamentUuid ↔
      ∃ handle, index.live.lookup tournamentUuid = some handle ∧ handle.slot = slot) ∧
    (∀ slot tournamentUuid, index.terminalSlots.lookup slot = some tournamentUuid ↔
      ∃ entry, index.terminal.lookup tournamentUuid = some entry ∧ entry.slot = slot) ∧
    (∀ slot, ¬ (slot ∈ index.liveSlots ∧ slot ∈ index.terminalSlots)) ∧
    size index.live ≤ maxLiveTournaments ∧ size index.terminal ≤ maxTournamentRecords ∧
    (∀ slot status, (index.cacheTerminal slot status).1 =
      if slot < maxTournamentRecords then .ok () else .error .evidenceUnavailable) ∧
    (∀ call error, (perform index call).1 = .error error → (perform index call).2 = index) ∧
    ∀ slot tournamentUuid status,
      (¬ ∃ handle, index.live.lookup tournamentUuid = some handle ∧ handle.slot = slot) →
        index.publishActorTerminal slot tournamentUuid status = (.ok (), index) := by
  have h := indexAfter_bijective calls
  refine ⟨h.live, h.terminal, fun slot hboth => ?_, h.live_le, h.terminal_le, fun slot status => ?_,
    fun call error herror => perform_rejected h herror,
    fun slot tournamentUuid status hstale => ServiceIndex.publishActorTerminal_stale h hstale status⟩
  · rcases h.apart slot with hlive | hterminal
    · exact hlive hboth.1
    · exact hterminal hboth.2
  · by_cases hslot : slot < maxTournamentRecords
    · rw [(ServiceIndex.cacheTerminal_eq h hslot status).2, if_pos hslot]
    · rw [ServiceIndex.cacheTerminal_refused hslot, if_neg hslot]

end LightTerminal.Speculation.Index
