import LightTerminal.Speculation.Store

/-! # What an operation writes

Every operation on the store leaves the files as they are, or writes one record to one slot. `Advance`
is what may replace a record of the same tournament, `Installs` is what may be written to a slot at
all.

* `step_change`: the effect of an operation, however it ends;
* `exec_write`: when `write` succeeds, and what it leaves. -/

namespace LightTerminal.Speculation.Writes

open LightTerminal.Data.Text LightTerminal.Library.Procedure
open LightTerminal.Speculation.Phase LightTerminal.Speculation.Record
open LightTerminal.Speculation.Store

/-- A record that may follow another one of its tournament. -/
inductive Advance (current : TournamentRecord) : TournamentRecord → Prop where
  | write {next : TournamentRecord} (kind : TournamentWriteKind) (hvalid : next.Valid)
      (hgeneration : next.status.generation = current.status.generation + 1)
      (haccepts : Accepts kind current next) : Advance current next
  | normalize (hterminal : current.status.phase.isTerminal = false)
      (hvalid : (normalized current (current.status.generation + 1)).Valid) :
      Advance current (normalized current (current.status.generation + 1))

theorem Advance.uuid {current next : TournamentRecord} (h : Advance current next) :
    next.status.tournamentUuid = current.status.tournamentUuid := by
  rcases h with ⟨kind, -, -, ⟨-, -, -, -, huuid, -⟩, -⟩ | _
  · exact huuid.symm
  · rfl

theorem Advance.valid {current next : TournamentRecord} (h : Advance current next) : next.Valid := by
  rcases h with ⟨kind, hvalid, -, -⟩ | ⟨-, hvalid⟩
  · exact hvalid
  · exact hvalid

/-- What a write with a key needs: the key names the record in the slot of the key. -/
structure Keyed (key : TournamentKey) (expectedGeneration : ℕ) (store : TournamentStore) : Prop where
  generation : key.generation = expectedGeneration
  current : ∃ record identity, store.slots[key.slot]? = some (.valid record identity) ∧
    record.status.tournamentUuid = key.tournamentUuid ∧
    record.status.generation = expectedGeneration

/-- The key of an operation, and the generation it expects. -/
def key : Operation → Option (TournamentKey × ℕ)
  | .write _ key expectedGeneration _ _ => some (key, expectedGeneration)
  | .normalizeAfterDaemonRestart _ _ key expectedGeneration _ => some (key, expectedGeneration)
  | _ => none

/-- What an operation may write to a slot. -/
inductive Installs (op : Operation) (store : TournamentStore) : ℕ → TournamentRecord → Prop where
  | advance {k : TournamentKey} {expectedGeneration : ℕ} {current record : TournamentRecord}
      {identity : FileIdentity} (hkey : key op = some (k, expectedGeneration))
      (hkeyed : Keyed k expectedGeneration store)
      (hslot : store.slots[k.slot]? = some (.valid current identity))
      (hstep : Advance current record) : Installs op store k.slot record
  | allocate {io manifestIo : WriteIo} {now slot : ℕ} {state : SlotState}
      {record : TournamentRecord} (hop : op = .allocatePrepared io manifestIo record now)
      (hvalid : record.Valid)
      (hphase : record.status.phase = .prepared)
      (hslot : store.slots[slot]? = some state)
      (hfree : state.isVacant = true ∨ state.isExpired now = true) : Installs op store slot record

/-- The effect of an operation on the store. -/
inductive Change (W : ℕ → TournamentRecord → Prop) (store : TournamentStore) : TournamentStore → Prop where
  | same : Change W store store
  | corrupted (slot : ℕ) : Change W store (store.setSlot slot .corrupt)
  | installed {slot : ℕ} {record : TournamentRecord} (identity : FileIdentity) (state : SlotState)
      (materialized : List Bool) (hw : W slot record)
      (hstate : state = .corrupt ∨ state = .valid record identity) :
      Change W store
        { (store.install slot identity record).setSlot slot state with materialized }

variable {W : ℕ → TournamentRecord → Prop} {store : TournamentStore}

theorem Change.imp {W' : ℕ → TournamentRecord → Prop} {store' : TournamentStore}
    (h : Change W store store') (himp : ∀ slot record, W slot record → W' slot record) :
    Change W' store store' := by
  cases h with
  | same => exact .same
  | corrupted slot => exact .corrupted slot
  | installed identity state materialized hw hstate =>
    exact .installed identity state materialized (himp _ _ hw) hstate

/-! ### The write of a record -/

theorem exec_orCorrupt {α : Type} (slot : ℕ) (m : Op α) (store : TournamentStore) :
    exec (orCorrupt slot m) store =
      match exec m store with
      | (.ok a, store') => (.ok a, store')
      | (.error e, store') => (.error e, store'.setSlot slot .corrupt) := by
  unfold orCorrupt
  rw [exec_tryCatch]
  rcases exec m store with ⟨_ | _, _⟩ <;> rfl

/-- How a record is written: it is there completely or not at all. -/
inductive Published (io : WriteIo) (store : TournamentStore) (slot : ℕ) (record : TournamentRecord) :
    Except EvidenceError (StoredSlot × TournamentRecord) × TournamentStore → Prop where
  | done {identity : FileIdentity} (hio : io = .done identity) :
      Published io store slot record
        (.ok (⟨identity, slot, some record⟩, record), store.install slot identity record)
  | failed (error : EvidenceError) : Published io store slot record (.error error, store)
  | renamed (identity : FileIdentity) (error : EvidenceError) :
      Published io store slot record (.error error, store.install slot identity record)

theorem storedRecord_publish {io : WriteIo} {slot : ℕ} {record : TournamentRecord}
    (hvalid : record.Valid) :
    Published io store slot record (exec (storedRecord slot (publish io slot record)) store) := by
  have hcheck : record.validate = .ok () := TournamentRecord.validate_eq_ok.mpr hvalid
  rcases io with identity | error | ⟨identity, error⟩
  · have hentry : StoredSlot.validate ⟨identity, slot, some record⟩ slot = .ok () := by
      simp [StoredSlot.validate, hcheck]
    have hexec : exec (storedRecord slot (publish (.done identity) slot record)) store =
        (.ok (⟨identity, slot, some record⟩, record), store.install slot identity record) := by
      unfold storedRecord
      rw [exec_bind_ok (a := ⟨identity, slot, some record⟩) (by rfl), exec_lift_bind hentry]
      rfl
    rw [hexec]
    exact .done rfl
  · exact .failed error
  · exact .renamed identity error

/-- A write that is refused before it starts leaves the store as it is. -/
theorem storedRecord_published {io : WriteIo} {slot : ℕ} {record : TournamentRecord}
    {write : Op StoredSlot} (hvalid : record.Valid)
    (h : exec write store = exec (publish io slot record) store ∨
      ∃ error, exec write store = (.error error, store)) :
    Published io store slot record (exec (storedRecord slot write) store) := by
  rcases h with hpublish | ⟨error, herror⟩
  · have heq : exec (storedRecord slot write) store =
        exec (storedRecord slot (publish io slot record)) store := by
      unfold storedRecord
      rw [exec_bind, exec_bind, hpublish]
    rw [heq]
    exact storedRecord_publish hvalid
  · have heq : exec (storedRecord slot write) store = (.error error, store) := by
      unfold storedRecord
      rw [exec_bind, herror]
    rw [heq]
    exact .failed error

theorem atomicReplaceJson_exec (io : WriteIo) (slot : ℕ) (expected : FileIdentity)
    (record : TournamentRecord) (store : TournamentStore) :
    exec (atomicReplaceJson io slot expected record) store = exec (publish io slot record) store ∨
      ∃ error, exec (atomicReplaceJson io slot expected record) store = (.error error, store) := by
  unfold atomicReplaceJson
  rw [exec_bind_ok (exec_get store)]
  rcases hfile : store.file slot with _ | entry
  · exact .inr ⟨.missing, rfl⟩
  rw [exec_lift_bind (expect_eq_ok.mpr rfl)]
  by_cases hidentity : entry.identity = expected
  · rw [exec_lift_bind (require_eq_ok (u := ()).mpr hidentity)]
    exact .inl rfl
  · right
    refine ⟨.stale, ?_⟩
    rw [exec_bind]
    simp [require, hidentity]

theorem atomicCreateJson_exec (io : WriteIo) (slot : ℕ) (record : TournamentRecord)
    (store : TournamentStore) :
    exec (atomicCreateJson io slot record) store = exec (publish io slot record) store ∨
      ∃ error, exec (atomicCreateJson io slot record) store = (.error error, store) := by
  unfold atomicCreateJson
  rw [exec_bind_ok (exec_get store)]
  by_cases hfile : store.file slot = none
  · rw [exec_lift_bind (require_eq_ok (u := ()).mpr hfile)]
    exact .inl rfl
  · right
    refine ⟨.alreadyExists, ?_⟩
    rw [exec_bind]
    simp [require, hfile]

/-- The effect of a write, with what becomes of the slot in memory. -/
theorem replaceRecord_change {io : WriteIo} {slot : ℕ} {identity : FileIdentity}
    {next : TournamentRecord} (hvalid : next.Valid) (hw : W slot next) :
    Change W store (exec (replaceRecord io slot identity next) store).2 := by
  have hpublished := storedRecord_published hvalid
    (atomicReplaceJson_exec io slot identity next store)
  have horCorrupt := exec_orCorrupt slot
    (storedRecord slot (atomicReplaceJson io slot identity next)) store
  unfold replaceRecord
  rw [exec_bind, horCorrupt]
  generalize exec (storedRecord slot (atomicReplaceJson io slot identity next)) store = result at hpublished
  cases hpublished with
  | @done identity' hio =>
    exact .installed identity' (.valid next identity') store.materialized hw (.inr rfl)
  | failed error => exact .corrupted slot
  | renamed identity' error =>
    exact .installed identity' .corrupt store.materialized hw (.inl rfl)

/-- A write that succeeds: the system wrote the file, and the slot in memory shows the record. -/
theorem replaceRecord_eq_ok {io : WriteIo} {slot : ℕ} {identity : FileIdentity}
    {next : TournamentRecord} {update : StoredTournamentUpdate} (hvalid : next.Valid)
    (h : (exec (replaceRecord io slot identity next) store).1 = .ok update) :
    ∃ identity', io = .done identity' ∧
      exec (replaceRecord io slot identity next) store =
        (.ok ⟨keyFor slot next, next⟩,
          (store.install slot identity' next).setSlot slot (.valid next identity')) := by
  have hpublished := storedRecord_published hvalid
    (atomicReplaceJson_exec io slot identity next store)
  have horCorrupt := exec_orCorrupt slot
    (storedRecord slot (atomicReplaceJson io slot identity next)) store
  unfold replaceRecord at h ⊢
  rw [exec_bind, horCorrupt] at h ⊢
  generalize exec (storedRecord slot (atomicReplaceJson io slot identity next)) store = result
    at hpublished h ⊢
  rcases hpublished with ⟨hio⟩ | error | ⟨identity', error⟩
  · exact ⟨_, hio, rfl⟩
  · simp at h
  · simp at h

/-- If the file is the one that is expected and the system writes it, the write succeeds. -/
theorem replaceRecord_done {slot : ℕ} {identity identity' : FileIdentity}
    {current next : TournamentRecord} (hvalid : next.Valid)
    (hfile : store.file slot = some ⟨identity, slot, some current⟩) :
    exec (replaceRecord (.done identity') slot identity next) store =
      (.ok ⟨keyFor slot next, next⟩,
        (store.install slot identity' next).setSlot slot (.valid next identity')) := by
  have hcheck : next.validate = .ok () := TournamentRecord.validate_eq_ok.mpr hvalid
  have hentry : StoredSlot.validate ⟨identity', slot, some next⟩ slot = .ok () := by
    simp [StoredSlot.validate, hcheck]
  have hwrite : exec (atomicReplaceJson (.done identity') slot identity next) store =
      (.ok ⟨identity', slot, some next⟩, store.install slot identity' next) := by
    unfold atomicReplaceJson
    rw [exec_bind_ok (exec_get store), hfile, exec_lift_bind (expect_eq_ok.mpr rfl),
      exec_lift_bind (require_eq_ok (u := ()).mpr rfl)]
    rfl
  have hstored : exec (storedRecord slot (atomicReplaceJson (.done identity') slot identity next))
      store = (.ok (⟨identity', slot, some next⟩, next), store.install slot identity' next) := by
    unfold storedRecord
    rw [exec_bind_ok hwrite, exec_lift_bind hentry]
    rfl
  unfold replaceRecord
  rw [exec_bind, exec_orCorrupt, hstored]
  rfl

theorem validSlot_eq_some {slot : ℕ} {record : TournamentRecord} {identity : FileIdentity} :
    store.validSlot slot = some (record, identity) ↔
      store.slots[slot]? = some (.valid record identity) := by
  unfold TournamentStore.validSlot
  rcases store.slots[slot]? with _ | (_ | _ | _) <;> simp

/-! ### The operations -/

/-- An operation that goes on with a value only if it is there. -/
theorem change_okOr_bind {α β : Type} {x : Option α} {error : EvidenceError} {f : α → Op β}
    (h : ∀ a, x = some a → Change W store (exec (f a) store).2) :
    Change W store (exec ((liftM (okOr x error) : Op α) >>= f) store).2 := by
  rcases x with _ | a
  · exact .same
  · exact h a rfl

/-- An operation that goes on only if a check passes. -/
theorem change_lift_bind {α β : Type} {x : EvidenceResult α} {f : α → Op β}
    (h : ∀ a, x = .ok a → Change W store (exec (f a) store).2) :
    Change W store (exec ((liftM x : Op α) >>= f) store).2 := by
  rcases x with error | a
  · exact .same
  · exact h a rfl

theorem write_change {io : WriteIo} {key : TournamentKey} {expectedGeneration : ℕ}
    {next : TournamentRecord} {kind : TournamentWriteKind}
    (hw : ∀ current identity, store.slots[key.slot]? = some (.valid current identity) →
      Keyed key expectedGeneration store → Advance current next → W key.slot next) :
    Change W store (exec (write io key expectedGeneration next kind) store).2 := by
  unfold write
  refine change_lift_bind fun _ hvalid => ?_
  rw [TournamentRecord.validate_eq_ok] at hvalid
  rw [exec_bind_ok (exec_get store)]
  refine change_okOr_bind ?_
  rintro ⟨current, identity⟩ hslot
  rw [validSlot_eq_some] at hslot
  refine change_lift_bind fun _ hcheck => ?_
  obtain ⟨⟨huuid, hkey, hcurrent, -, hnext⟩, haccepts⟩ := require_eq_ok.mp hcheck
  refine replaceRecord_change hvalid (hw current identity hslot ?_ ?_)
  · exact ⟨hkey, current, identity, hslot, huuid.symm, hcurrent⟩
  · exact .write kind hvalid (by rw [hnext, hcurrent]) haccepts

/-- A write that succeeds. -/
theorem write_eq_ok {io : WriteIo} {key : TournamentKey} {expectedGeneration : ℕ}
    {next : TournamentRecord} {kind : TournamentWriteKind} {update : StoredTournamentUpdate}
    (h : (exec (write io key expectedGeneration next kind) store).1 = .ok update) :
    ∃ current identity identity', store.slots[key.slot]? = some (.valid current identity) ∧
      io = .done identity' ∧ next.Valid ∧ keyMatches key expectedGeneration current next ∧
      Accepts kind current next ∧
      exec (write io key expectedGeneration next kind) store =
        (.ok ⟨keyFor key.slot next, next⟩,
          (store.install key.slot identity' next).setSlot key.slot (.valid next identity')) := by
  unfold write at h ⊢
  rcases hcheck : next.validate with error | _
  · rw [hcheck] at h
    exact absurd h (by simp [exec_bind])
  have hvalid := TournamentRecord.validate_eq_ok.mp hcheck
  rw [hcheck] at h
  rw [exec_lift_bind rfl, exec_bind_ok (exec_get store)] at h ⊢
  rcases hslot : store.validSlot key.slot with _ | ⟨current, identity⟩
  · rw [hslot] at h
    exact absurd h (by simp [exec_bind, expect])
  rw [hslot] at h
  rw [exec_lift_bind (expect_eq_ok.mpr rfl)] at h ⊢
  by_cases haccepts : keyMatches key expectedGeneration current next ∧ Accepts kind current next
  · rw [exec_lift_bind (require_eq_ok (u := ()).mpr haccepts)] at h ⊢
    obtain ⟨identity', hio, hexec⟩ := replaceRecord_eq_ok hvalid h
    exact ⟨current, identity, identity', validSlot_eq_some.mp hslot, hio, hvalid, haccepts.1,
      haccepts.2, hexec⟩
  · exact absurd h (by simp [exec_bind, require, haccepts])

/-- A key that does not name the record in its slot changes nothing, neither on file nor in memory. -/
theorem write_stale {io : WriteIo} {key : TournamentKey} {expectedGeneration : ℕ}
    {next : TournamentRecord} {kind : TournamentWriteKind} (h : ¬ Keyed key expectedGeneration store) :
    (exec (write io key expectedGeneration next kind) store).2 = store := by
  unfold write
  rcases hcheck : next.validate with error | _
  · rfl
  rw [exec_lift_bind rfl, exec_bind_ok (exec_get store)]
  rcases hslot : store.validSlot key.slot with _ | ⟨current, identity⟩
  · rfl
  rw [exec_lift_bind (expect_eq_ok.mpr rfl)]
  have hrefused : ¬ (keyMatches key expectedGeneration current next ∧ Accepts kind current next) := by
    rintro ⟨⟨huuid, hkey, hcurrent, -⟩, -⟩
    exact h ⟨hkey, current, identity, validSlot_eq_some.mp hslot, huuid.symm, hcurrent⟩
  rw [exec_bind]
  simp only [exec_lift, require, hrefused, if_false]

/-- When `write` succeeds. -/
theorem exec_write (identity' : FileIdentity) {key : TournamentKey} {expectedGeneration : ℕ}
    {current next : TournamentRecord} {kind : TournamentWriteKind} {identity : FileIdentity}
    (hslot : store.slots[key.slot]? = some (.valid current identity))
    (hfile : store.file key.slot = some ⟨identity, key.slot, some current⟩)
    (hvalid : next.Valid) (hkey : keyMatches key expectedGeneration current next)
    (haccepts : Accepts kind current next) :
    exec (write (.done identity') key expectedGeneration next kind) store =
      (.ok ⟨keyFor key.slot next, next⟩,
        (store.install key.slot identity' next).setSlot key.slot (.valid next identity')) := by
  unfold write
  rw [exec_lift_bind (TournamentRecord.validate_eq_ok.mpr hvalid), exec_bind_ok (exec_get store),
    validSlot_eq_some.mpr hslot, exec_lift_bind (expect_eq_ok.mpr rfl),
    exec_lift_bind (require_eq_ok (u := ()).mpr ⟨hkey, haccepts⟩)]
  exact replaceRecord_done hvalid hfile

/-- If the system writes files and the slots in memory show them, `write` succeeds or changes nothing. -/
theorem exec_write_done (identity' : FileIdentity) (key : TournamentKey) (expectedGeneration : ℕ)
    (next : TournamentRecord) (kind : TournamentWriteKind)
    (hfiles : ∀ slot record identity, store.slots[slot]? = some (.valid record identity) →
      store.file slot = some ⟨identity, slot, some record⟩) :
    (∃ error, exec (write (.done identity') key expectedGeneration next kind) store =
        (.error error, store)) ∨
      ∃ current identity, store.slots[key.slot]? = some (.valid current identity) ∧ next.Valid ∧
        keyMatches key expectedGeneration current next ∧ Accepts kind current next ∧
        exec (write (.done identity') key expectedGeneration next kind) store =
          (.ok ⟨keyFor key.slot next, next⟩,
            (store.install key.slot identity' next).setSlot key.slot (.valid next identity')) := by
  by_cases hvalid : next.Valid
  swap
  · left
    unfold write
    rcases hcheck : next.validate with error | _
    · exact ⟨error, rfl⟩
    · exact absurd (TournamentRecord.validate_eq_ok.mp hcheck) hvalid
  rcases hslot : store.validSlot key.slot with _ | ⟨current, identity⟩
  · left
    unfold write
    rw [exec_lift_bind (TournamentRecord.validate_eq_ok.mpr hvalid), exec_bind_ok (exec_get store), hslot]
    exact ⟨.generationMismatch, rfl⟩
  have hslot' := validSlot_eq_some.mp hslot
  by_cases haccepts : keyMatches key expectedGeneration current next ∧ Accepts kind current next
  · right
    exact ⟨current, identity, hslot', hvalid, haccepts.1, haccepts.2,
      exec_write identity' hslot' (hfiles _ _ _ hslot') hvalid haccepts.1 haccepts.2⟩
  · left
    unfold write
    rw [exec_lift_bind (TournamentRecord.validate_eq_ok.mpr hvalid), exec_bind_ok (exec_get store),
      hslot, exec_lift_bind (expect_eq_ok.mpr rfl), exec_bind]
    simp only [exec_lift, require, haccepts, if_false]
    exact ⟨.generationMismatch, rfl⟩

theorem loadByUuid_exec (readable : Bool) (id : Uuid) (store : TournamentStore) :
    (∃ error slot, exec (loadByUuid readable id) store =
        (.error error, store.setSlot slot .corrupt)) ∨
      ∃ loaded, exec (loadByUuid readable id) store = (.ok loaded, store) := by
  unfold loadByUuid
  rw [exec_bind_ok (exec_get store)]
  rcases hfind : store.slots.findIdx? (SlotState.holds id) with _ | slot
  · exact .inr ⟨none, rfl⟩
  obtain ⟨state, hstate, hholds⟩ : ∃ state, store.slots[slot]? = some state ∧ state.holds id = true := by
    obtain ⟨hlt, hp, -⟩ := List.findIdx?_eq_some_iff_getElem.mp hfind
    exact ⟨_, List.getElem?_eq_getElem hlt, hp⟩
  rcases state with _ | ⟨record, identity⟩ | _
  · cases hholds
  · have hslot := validSlot_eq_some.mpr hstate
    simp only [hslot]
    rw [exec_lift_bind (expect_eq_ok.mpr rfl), exec_bind, exec_orCorrupt, exec_lift]
    rcases ensure (readable = true ∧ store.file slot = some ⟨identity, slot, some record⟩ ∧
      record.validate = .ok ()) EvidenceError.corrupt with error | _
    · exact .inl ⟨error, slot, rfl⟩
    · exact .inr ⟨some record, rfl⟩
  · cases hholds

theorem loadByUuid_change (readable : Bool) (id : Uuid) :
    Change W store (exec (loadByUuid readable id) store).2 := by
  rcases loadByUuid_exec readable id store with ⟨error, slot, h⟩ | ⟨loaded, h⟩
  · rw [h]
    exact .corrupted slot
  · rw [h]
    exact .same

theorem normalize_change {readable : Bool} {io : WriteIo} {key : TournamentKey}
    {expectedGeneration : ℕ} {daemon : Uuid}
    (hw : ∀ current identity, store.slots[key.slot]? = some (.valid current identity) →
      Keyed key expectedGeneration store → current.status.phase.isTerminal = false →
        (normalized current (current.status.generation + 1)).Valid →
          W key.slot (normalized current (current.status.generation + 1))) :
    Change W store
      (exec (normalizeAfterDaemonRestart readable io key expectedGeneration daemon) store).2 := by
  unfold normalizeAfterDaemonRestart
  refine change_lift_bind fun _ _ => ?_
  rw [exec_bind]
  rcases loadByUuid_exec readable key.tournamentUuid store with ⟨error, slot, h⟩ | ⟨loaded, h⟩
  · rw [h]
    exact .corrupted slot
  simp only [h]
  refine change_okOr_bind fun current _ => change_lift_bind fun _ hcheck => ?_
  obtain ⟨-, hgeneration, -⟩ := require_eq_ok.mp hcheck
  split_ifs with hphase
  · exact .same
  rw [not_or, Bool.not_eq_true] at hphase
  refine change_lift_bind fun _ _ => change_lift_bind fun _ _ => ?_
  unfold writeRestartNormalization
  refine change_lift_bind fun _ hvalid => ?_
  rw [TournamentRecord.validate_eq_ok] at hvalid
  rw [exec_bind_ok (exec_get store)]
  refine change_okOr_bind ?_
  rintro ⟨current', identity⟩ hslot
  rw [validSlot_eq_some] at hslot
  refine change_lift_bind fun _ hcheck => ?_
  obtain ⟨rfl, ⟨huuid, hkey, hcurrent, -, -⟩, -⟩ := require_eq_ok.mp hcheck
  rw [← hgeneration] at hvalid ⊢
  exact replaceRecord_change hvalid (hw current' identity hslot
    ⟨hkey, current', identity, hslot, huuid.symm, hcurrent⟩ hphase.1 hvalid)

theorem selectAllocationSlot_eq_some {now slot : ℕ} (h : selectAllocationSlot store now = some slot) :
    ∃ state, store.slots[slot]? = some state ∧
      (state.isVacant = true ∨ state.isExpired now = true) := by
  unfold selectAllocationSlot at h
  rw [Option.or_eq_some_iff] at h
  rcases h with h | ⟨-, h⟩
  · obtain ⟨hlt, hp, -⟩ := List.findIdx?_eq_some_iff_getElem.mp h
    exact ⟨_, List.getElem?_eq_getElem hlt, .inl hp⟩
  · obtain ⟨hlt, hp, -⟩ := List.findIdx?_eq_some_iff_getElem.mp h
    exact ⟨_, List.getElem?_eq_getElem hlt, .inr hp⟩

/-- The rest of an allocation, once the record is written: the manifest, and the slot in memory. -/
theorem allocate_rest_change {manifestIo : WriteIo} {slot : ℕ} {record : TournamentRecord}
    {identity : FileIdentity} (newly : Prop) [Decidable newly] (hw : W slot record) :
    Change W store
      (exec (do
        if newly then orCorrupt slot (persistMaterializedSlot manifestIo slot)
        modify fun store => store.setSlot slot (.valid record identity)
        return keyFor slot record : Op TournamentKey) (store.install slot identity record)).2 := by
  split_ifs with hnewly
  · rw [exec_bind, exec_orCorrupt]
    rcases manifestIo with _ | error | ⟨_, error⟩
    · exact .installed identity (.valid record identity) (store.materialized.set slot true) hw
        (.inr rfl)
    · exact .installed identity .corrupt store.materialized hw (.inl rfl)
    · exact .installed identity .corrupt (store.materialized.set slot true) hw (.inl rfl)
  · exact .installed identity (.valid record identity) store.materialized hw (.inr rfl)

/-- Whichever way an allocation writes the file, it is written completely or not at all. -/
theorem published_allocation (io : WriteIo) (store : TournamentStore) {record : TournamentRecord}
    (hvalid : record.Valid) (slot : ℕ) :
    Published io store slot record (exec (storedRecord slot
      (match store.slots[slot]? with
      | some (.vacant (some identity)) => atomicReplaceJson io slot identity record
      | some (.vacant none) => atomicCreateJson io slot record
      | some (.valid _ identity) => atomicReplaceJson io slot identity record
      | _ => throw .capacity)) store) := by
  refine storedRecord_published hvalid ?_
  split
  · exact atomicReplaceJson_exec io slot _ record store
  · exact atomicCreateJson_exec io slot record store
  · exact atomicReplaceJson_exec io slot _ record store
  · exact .inr ⟨.capacity, rfl⟩

theorem allocatePrepared_change {io manifestIo : WriteIo} {record : TournamentRecord} {now : ℕ}
    (hw : ∀ slot state, store.slots[slot]? = some state →
      (state.isVacant = true ∨ state.isExpired now = true) → record.Valid →
      record.status.phase = .prepared → W slot record) :
    Change W store (exec (allocatePrepared io manifestIo record now) store).2 := by
  unfold allocatePrepared
  refine change_lift_bind fun _ hvalid => change_lift_bind fun _ hcheck => ?_
  rw [TournamentRecord.validate_eq_ok] at hvalid
  obtain ⟨hphase, -⟩ := require_eq_ok.mp hcheck
  rw [exec_bind_ok (exec_get store)]
  refine change_lift_bind fun _ _ => change_lift_bind fun _ _ => change_okOr_bind fun slot hslot => ?_
  obtain ⟨state, hstate, hfree⟩ := selectAllocationSlot_eq_some hslot
  have hwritten := hw slot state hstate hfree hvalid hphase
  have hpublished := published_allocation io store hvalid slot
  rw [exec_bind, exec_orCorrupt]
  generalize exec (storedRecord slot _) store = result at hpublished
  cases hpublished with
  | @done identity hio => exact allocate_rest_change _ hwritten
  | failed error => exact .corrupted slot
  | renamed identity error => exact .installed identity .corrupt store.materialized hwritten (.inl rfl)

theorem eq_ok_of_lift_bind {α β : Type} {x : EvidenceResult α} {f : α → Op β} {b : β}
    {store' : TournamentStore} (h : exec ((liftM x : Op α) >>= f) store = (.ok b, store')) :
    ∃ a, x = .ok a ∧ exec (f a) store = (.ok b, store') := by
  rcases x with e | a
  · exact absurd (congrArg Prod.fst h) (by simp [exec_bind])
  · exact ⟨a, rfl, h⟩

/-- An allocation that succeeds. -/
theorem allocatePrepared_eq_ok {io manifestIo : WriteIo} {record : TournamentRecord} {now : ℕ}
    {key : TournamentKey} {store' : TournamentStore}
    (h : exec (allocatePrepared io manifestIo record now) store = (.ok key, store')) :
    record.Valid ∧ record.status.phase = .prepared ∧
      ∃ slot state identity materialized, store.slots[slot]? = some state ∧
        key = keyFor slot record ∧
        store' = { (store.install slot identity record).setSlot slot (.valid record identity) with
          materialized } := by
  unfold allocatePrepared at h
  obtain ⟨_, hvalid, h⟩ := eq_ok_of_lift_bind h
  rw [TournamentRecord.validate_eq_ok] at hvalid
  obtain ⟨_, hcheck, h⟩ := eq_ok_of_lift_bind h
  obtain ⟨hphase, -⟩ := require_eq_ok.mp hcheck
  rw [exec_bind_ok (exec_get store)] at h
  obtain ⟨_, -, h⟩ := eq_ok_of_lift_bind h
  obtain ⟨_, -, h⟩ := eq_ok_of_lift_bind h
  obtain ⟨slot, hslot, h⟩ := eq_ok_of_lift_bind h
  obtain ⟨state, hstate, -⟩ := selectAllocationSlot_eq_some (expect_eq_ok.mp hslot)
  refine ⟨hvalid, hphase, slot, state, ?_⟩
  have hpublished := published_allocation io store hvalid slot
  rw [exec_bind, exec_orCorrupt] at h
  generalize exec (storedRecord slot _) store = result at hpublished h
  rcases hpublished with ⟨hio⟩ | error | ⟨identity, error⟩
  · dsimp only at h
    split_ifs at h
    · rw [exec_bind, exec_orCorrupt] at h
      rcases manifestIo with _ | error | ⟨_, error⟩
      · obtain ⟨hkey, hstore⟩ := Prod.mk.inj h
        exact ⟨_, _, hstate, (Except.ok.inj hkey).symm, hstore.symm⟩
      · have hresult : (Except.error error : EvidenceResult TournamentKey) = .ok key :=
          congrArg Prod.fst h
        simp at hresult
      · have hresult : (Except.error error : EvidenceResult TournamentKey) = .ok key :=
          congrArg Prod.fst h
        simp at hresult
    · obtain ⟨hkey, hstore⟩ := Prod.mk.inj h
      exact ⟨_, _, hstate, (Except.ok.inj hkey).symm, hstore.symm⟩
  · simp at h
  · simp at h

/-- **The effect of an operation**, however it ends: opening the store reads the files, every other
operation writes at most one record. -/
theorem step_change (store : TournamentStore) (op : Operation) :
    (∃ io, op = .reopen io ∧ step store op = reopen io store) ∨
      Change (Installs op store) store (step store op) := by
  unfold step
  rcases op with ⟨io, manifestIo, record, now⟩ | ⟨io, k, expectedGeneration, next, kind⟩ |
    ⟨readable, io, k, expectedGeneration, daemon⟩ | ⟨readable, id⟩ | io
  · right
    simp only [perform, exec_discard]
    refine allocatePrepared_change fun slot state hstate hfree hvalid hphase => ?_
    exact .allocate rfl hvalid hphase hstate hfree
  · right
    simp only [perform, exec_discard]
    exact write_change fun current identity hslot hkeyed hstep => .advance rfl hkeyed hslot hstep
  · right
    simp only [perform, exec_discard]
    exact normalize_change fun current identity hslot hkeyed hterminal hvalid =>
      .advance rfl hkeyed hslot (.normalize hterminal hvalid)
  · right
    simp only [perform, exec_discard]
    exact loadByUuid_change readable id
  · exact .inl ⟨io, rfl, rfl⟩

end LightTerminal.Speculation.Writes
