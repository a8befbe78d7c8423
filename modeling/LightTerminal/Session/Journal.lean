import LightTerminal.Library.Procedure
import LightTerminal.Session.Segment

/-! # The exit journal

`SecureStorage` of `session_lifecycle.rs` appends events to the file `current.jsonl`. When the next
line would make that file too long, it is renamed to `previous.jsonl`, in place of an older one, and a
new file is begun. `writer_loop` appends what it receives, keeps a copy of the events in memory and
acknowledges an event as soon as `append` returned `Ok`.

Files have numbers, as inodes do: `storage.current` stays the file it was opened as when its name goes
to another. Each system call takes its outcome from a plan; a call that fails has no effect, except
that a write may have written a part. Calls in a row without an effect of their own are one here.
`retained` and `renamed` are not in the source: the first has, for each event that was appended, the
file that has it, until a rotation replaces that file, the second is whether the files have got new
names since their events were last read. -/

namespace LightTerminal.Session.Journal

open LightTerminal.Library.Procedure LightTerminal.Library.Lines
open LightTerminal.Session.History LightTerminal.Session.Segment

/-! ### Files and calls -/

/-- The directory of the journal, and the contents of the files. -/
structure Disk where
  files : ℕ → List UInt8
  previous : Option ℕ
  current : Option ℕ
  fresh : ℕ

/-- What the operating system makes of a call. -/
inductive Outcome where
  | done
  | failed (written : ℕ)
  deriving DecidableEq, Repr

/-- The directory, `SecureStorage` and the outcomes of the calls to come. -/
structure Storage where
  disk : Disk
  handle : ℕ
  currentBytes : ℕ
  plan : List Outcome
  retained : List (ℕ × LifecycleEvent)
  renamed : Bool

/-- A procedure on the journal; errors are not told apart. -/
abbrev Io := Proc Unit Storage

/-- The outcome of the next call. -/
def outcome : Io Outcome := do
  let storage ← get
  match storage.plan with
  | [] => return .done
  | next :: plan =>
    set { storage with plan }
    return next

/-- A call that has no effect if it fails. -/
def call : Io Unit := do
  match ← outcome with
  | .done => return ()
  | .failed _ => throw ()

/-- Bytes at the end of a file. -/
def Disk.append (disk : Disk) (file : ℕ) (bytes : List UInt8) : Disk :=
  { disk with files := Function.update disk.files file (disk.files file ++ bytes) }

/-- `write_all`: it fails before all is written. -/
def writeAll (file : ℕ) (bytes : List UInt8) : Io Unit := do
  match ← outcome with
  | .done => modify fun storage => { storage with disk := storage.disk.append file bytes }
  | .failed written =>
    modify fun storage => { storage with disk := storage.disk.append file (bytes.take written) }
    if written < bytes.length then throw ()

/-! ### `SecureStorage` -/

/-- `OVERSIZED_SEGMENT_SENTINEL`. -/
def oversizedSegmentSentinel : List UInt8 :=
  "oversized segment discarded\n".toList.map fun ch => ch.toNat.toUInt8

/-- `repair_oversized_segment`. -/
def repairOversizedSegment (file : ℕ) : Io Bool := do
  call
  let storage ← get
  if (storage.disk.files file).length ≤ maxSegmentBytes then return false
  else
    call
    modify fun storage =>
      { storage with disk.files := Function.update storage.disk.files file [] }
    writeAll file oversizedSegmentSentinel
    return true

/-- The previous segment, if there is one, is opened and repaired. -/
def repairPrevious : Io Bool := do
  call
  match (← get).disk.previous with
  | some file => repairOversizedSegment file
  | none => return false

/-- The length of the open segment is read. -/
def stat : Io Unit := do
  call
  modify fun storage => { storage with currentBytes := (storage.disk.files storage.handle).length }

/-- `SecureStorage::repair_oversized_segments`. -/
def repairOversizedSegments : Io Bool := do
  let repaired ← repairOversizedSegment (← get).handle
  stat
  let repairedPrevious ← repairPrevious
  return repaired || repairedPrevious

/-- `current.jsonl` becomes `previous.jsonl`. -/
def Storage.rename (storage : Storage) (file : ℕ) : Storage :=
  { storage with
    disk.previous := some file
    disk.current := none
    retained := storage.retained.filter fun entry => some entry.1 ≠ storage.disk.previous
    renamed := true }

/-- `renameat` of `rotate`. -/
def renameat : Io Unit := do
  call
  match (← get).disk.current with
  | some file => modify fun storage => storage.rename file
  | none => throw ()

/-- A new, empty `current.jsonl`. -/
def Disk.create (disk : Disk) : Disk :=
  { disk with
    files := Function.update disk.files disk.fresh []
    current := some disk.fresh
    fresh := disk.fresh + 1 }

/-- `open_regular_at` of `current.jsonl`: it may be created and the check of the file fail. -/
def openCurrent : Io ℕ := do
  call
  let storage ← get
  match storage.disk.current with
  | some file =>
    call
    return file
  | none =>
    set { storage with disk := storage.disk.create }
    call
    return storage.disk.fresh

/-- `SecureStorage::rotate`. -/
def rotate : Io Unit := do
  let _ ← repairPrevious
  let _ ← repairOversizedSegment (← get).handle
  stat
  renameat
  let file ← openCurrent
  modify fun storage => { storage with handle := file, currentBytes := 0 }

variable (json : Json)

/-- `SecureStorage::append` up to the write: the line, and whether other lines changed. -/
def prepare (event : LifecycleEvent) : Io (List UInt8 × Bool) := do
  let repaired ← repairOversizedSegments
  let line ← expect (toJsonLine json event) ()
  let storage ← get
  if 0 < storage.currentBytes ∧ maxSegmentBytes < storage.currentBytes + line.length then
    rotate
    return (line, true)
  else return (line, repaired)

/-- `SecureStorage::append`. -/
def append (event : LifecycleEvent) : Io Bool := do
  let (line, changed) ← prepare json event
  writeAll (← get).handle line
  modify fun storage =>
    { storage with
      currentBytes := storage.currentBytes + line.length
      retained := storage.retained ++ [(storage.handle, event)] }
  return changed

/-- A segment of `load_all`. -/
def loadFile (name : Disk → Option ℕ) (loaded : LoadedEvents) : Io LoadedEvents := do
  call
  let storage ← get
  match name storage.disk with
  | some file => return loadSegment json (storage.disk.files file) loaded
  | none => return loaded

/-- `SecureStorage::load_all`. -/
def loadAll : Io LoadedEvents := do
  let loaded ← loadFile json Disk.previous ⟨[], false⟩
  loadFile json Disk.current loaded

/-- `SecureStorage::open`, once the directory is open and locked. -/
def openStorage : Io Unit := do
  call
  let file ← openCurrent
  let _ ← repairOversizedSegment file
  let _ ← repairPrevious
  modify fun storage => { storage with handle := file }
  stat

/-- `LifecycleJournal::open`: the storage, and the events of the first snapshot. -/
def openJournal : Io LoadedEvents := do
  openStorage
  let loaded ← loadAll json
  call
  return loaded

/-! ### The writer -/

/-- The journal, and the snapshot while a process has it open. -/
structure World where
  storage : Storage
  snapshot : Option LoadedEvents

/-- A step: the writer takes an event, or the journal is opened again. What a process that dies has not
done is a call that failed. -/
inductive Step where
  | append (plan : List Outcome) (event : LifecycleEvent)
  | reopen (plan : List Outcome)

/-- The snapshot is what was read. -/
def Storage.reloaded (storage : Storage) : Storage := { storage with renamed := false }

namespace World

/-- What `append` makes of an event. -/
def appending (world : World) (plan : List Outcome) (event : LifecycleEvent) :
    Except Unit Bool × Storage :=
  exec (append json event) { world.storage with plan }

/-- The turn of `writer_loop` on an event. -/
def writerTurn (world : World) (snapshot : LoadedEvents) (plan : List Outcome)
    (event : LifecycleEvent) : World :=
  match world.appending json plan event with
  | (.ok true, storage) =>
    match exec (loadAll json) storage with
    | (.ok loaded, storage) =>
      ⟨storage.reloaded, some ⟨loaded.events, snapshot.degraded || loaded.degraded⟩⟩
    | (.error _, storage) => ⟨storage, some ⟨snapshot.events, true⟩⟩
  | (.ok false, storage) => ⟨storage, some ⟨snapshot.events ++ [event], snapshot.degraded⟩⟩
  | (.error _, storage) => ⟨storage, some ⟨snapshot.events, true⟩⟩

/-- One step. Without an open journal nothing takes an event. -/
def step (world : World) : Step → World
  | .append plan event =>
    match world.snapshot with
    | some snapshot => world.writerTurn json snapshot plan event
    | none => world
  | .reopen plan =>
    match exec (openJournal json) { world.storage with plan } with
    | (.ok loaded, storage) => ⟨storage.reloaded, some loaded⟩
    | (.error _, storage) => ⟨storage, none⟩

/-- The event is acknowledged as persisted. -/
def acknowledges (world : World) (plan : List Outcome) (event : LifecycleEvent) : Bool :=
  world.snapshot.isSome && (world.appending json plan event).1.toBool

/-- An empty directory. -/
def fresh : World := ⟨⟨⟨fun _ => [], none, none, 0⟩, 0, 0, [], [], false⟩, none⟩

/-- Many steps. -/
def run (steps : List Step) : World := steps.foldl (step json) fresh

end World

/-! ### What holds of the files -/

variable {json} {storage storage' : Storage}

/-- The files have two names and a bound. -/
structure Layout (storage : Storage) : Prop where
  bound : ∀ file, (storage.disk.files file).length ≤ maxSegmentBytes
  distinct : ∀ file, storage.disk.previous = some file → storage.disk.current ≠ some file
  previous : ∀ file, storage.disk.previous = some file → file < storage.disk.fresh
  current : ∀ file, storage.disk.current = some file → file < storage.disk.fresh

/-- While the journal is open: the open file is `current.jsonl` unless a rename went wrong, and then
what has that name is empty. -/
structure Open (storage : Storage) : Prop where
  handle : storage.handle < storage.disk.fresh
  spare : ∀ file, storage.disk.current = some file → file ≠ storage.handle →
    storage.disk.files file = []
  place : storage.renamed = false → storage.disk.current = some storage.handle

/-- Each file has the events that were appended to it, those of `previous.jsonl` before those of
`current.jsonl`. -/
structure Kept (json : Json) (storage : Storage) : Prop where
  named : ∀ entry ∈ storage.retained,
    storage.disk.previous = some entry.1 ∨ storage.disk.current = some entry.1
  holds : ∀ file, storage.disk.previous = some file ∨ storage.disk.current = some file →
    segmentEvents json (storage.disk.files file) =
      (storage.retained.filter fun entry => entry.1 = file).map (·.2)
  order : storage.retained.Pairwise fun entry entry' =>
    storage.disk.current = some entry.1 → storage.disk.current = some entry'.1

/-- All but the length last read and the plan. -/
def Storage.core (storage : Storage) : Disk × ℕ × List (ℕ × LifecycleEvent) × Bool :=
  (storage.disk, storage.handle, storage.retained, storage.renamed)

theorem core_eq_iff : storage'.core = storage.core ↔ storage'.disk = storage.disk ∧
    storage'.handle = storage.handle ∧ storage'.retained = storage.retained ∧
    storage'.renamed = storage.renamed := by
  simp [Storage.core]

theorem Layout.of_core (h : Layout storage) (hcore : storage'.core = storage.core) :
    Layout storage' := by
  obtain ⟨hdisk, -, -, -⟩ := core_eq_iff.mp hcore
  exact ⟨hdisk ▸ h.bound, hdisk ▸ h.distinct, hdisk ▸ h.previous, hdisk ▸ h.current⟩

theorem Open.of_core (h : Open storage) (hcore : storage'.core = storage.core) :
    Open storage' := by
  obtain ⟨hdisk, hhandle, -, hrenamed⟩ := core_eq_iff.mp hcore
  refine ⟨?_, ?_, ?_⟩
  · rw [hdisk, hhandle]
    exact h.handle
  · rw [hdisk, hhandle]
    exact h.spare
  · rw [hdisk, hhandle, hrenamed]
    exact h.place

theorem Kept.of_core (h : Kept json storage) (hcore : storage'.core = storage.core) :
    Kept json storage' := by
  obtain ⟨hdisk, -, hretained, -⟩ := core_eq_iff.mp hcore
  refine ⟨?_, ?_, ?_⟩
  · rw [hdisk, hretained]
    exact h.named
  · rw [hdisk, hretained]
    exact h.holds
  · rw [hdisk, hretained]
    exact h.order

/-- What everything but a write of a line does. -/
structure Moves (json : Json) (storage storage' : Storage) : Prop where
  layout : Layout storage → Layout storage'
  opened : Layout storage → Open storage → Open storage'
  kept : Layout storage → Kept json storage → Kept json storage'
  same : Layout storage → Open storage → storage'.renamed = false → storage'.core = storage.core

theorem Moves.of_core (h : storage'.core = storage.core) : Moves json storage storage' :=
  ⟨fun hl => hl.of_core h, fun _ ho => ho.of_core h, fun _ hk => hk.of_core h, fun _ _ _ => h⟩

instance : IsPreorder Storage (Moves json) where
  refl _ := Moves.of_core rfl
  trans _ _ _ h h' :=
    { layout := fun hl => h'.layout (h.layout hl)
      opened := fun hl ho => h'.opened (h.layout hl) (h.opened hl ho)
      kept := fun hl hk => h'.kept (h.layout hl) (h.kept hl hk)
      same := fun hl ho hrenamed => by
        have hlast := h'.same (h.layout hl) (h.opened hl ho) hrenamed
        have hmid := (core_eq_iff.mp hlast).2.2.2
        rw [hlast, h.same hl ho (hmid.symm.trans hrenamed)] }

/-! ### Calls without an effect -/

/-- Nothing but the plan changed. -/
def Quiet (storage storage' : Storage) : Prop :=
  storage'.core = storage.core ∧ storage'.currentBytes = storage.currentBytes

theorem Quiet.trans {storage'' : Storage} (h : Quiet storage storage')
    (h' : Quiet storage' storage'') : Quiet storage storage'' :=
  ⟨h'.1.trans h.1, h'.2.trans h.2⟩

theorem quiet_outcome (storage : Storage) : Quiet storage (exec outcome storage).2 := by
  unfold outcome
  rw [exec_bind_ok (exec_get storage)]
  rcases storage with ⟨disk, handle, currentBytes, _ | ⟨next, plan⟩, retained, renamed⟩
  · exact ⟨rfl, rfl⟩
  · exact ⟨rfl, rfl⟩

theorem does_outcome (storage : Storage) :
    Does (Moves json) outcome storage fun _ storage' => Quiet storage storage' :=
  ⟨Moves.of_core (quiet_outcome storage).1, fun _ _ => quiet_outcome storage⟩

theorem does_call (storage : Storage) :
    Does (Moves json) call storage fun _ storage' => Quiet storage storage' := by
  unfold call
  refine (does_outcome storage).bind fun next storage' _ hquiet => ?_
  cases next with
  | done => exact Does.pure hquiet
  | failed written => exact Does.throw ()

theorem does_repair (hlayout : Layout storage) (file : ℕ) :
    Does (Moves json) (repairOversizedSegment file) storage fun repaired storage' =>
      repaired = false ∧ Quiet storage storage' := by
  unfold repairOversizedSegment
  refine (does_call storage).bind fun _ storage' _ hquiet => Does.get_bind ?_
  rw [if_pos ((hlayout.of_core hquiet.1).bound file)]
  exact Does.pure ⟨rfl, hquiet⟩

theorem does_repairPrevious (hlayout : Layout storage) :
    Does (Moves json) repairPrevious storage fun repaired storage' =>
      repaired = false ∧ Quiet storage storage' := by
  unfold repairPrevious
  refine (does_call storage).bind fun _ storage' _ hquiet => Does.get_bind ?_
  cases storage'.disk.previous with
  | none => exact Does.pure ⟨rfl, hquiet⟩
  | some file =>
    refine (does_repair (hlayout.of_core hquiet.1) file).imp ?_
    rintro repaired storage'' - ⟨hfalse, hquiet'⟩
    exact ⟨hfalse, hquiet.trans hquiet'⟩

theorem does_stat (storage : Storage) :
    Does (Moves json) stat storage fun _ storage' =>
      storage'.core = storage.core ∧
        storage'.currentBytes = (storage.disk.files storage.handle).length := by
  unfold stat
  refine (does_call storage).bind fun _ storage' _ hquiet => ?_
  obtain ⟨hdisk, hhandle, -, -⟩ := core_eq_iff.mp hquiet.1
  refine Does.modify (Moves.of_core rfl) ⟨hquiet.1, ?_⟩
  show (storage'.disk.files storage'.handle).length = _
  rw [hdisk, hhandle]

theorem does_repairs (hlayout : Layout storage) :
    Does (Moves json) repairOversizedSegments storage fun repaired storage' =>
      repaired = false ∧ storage'.core = storage.core ∧
        storage'.currentBytes = (storage.disk.files storage.handle).length := by
  unfold repairOversizedSegments
  refine Does.get_bind ((does_repair hlayout storage.handle).bind ?_)
  rintro _ storage₁ - ⟨rfl, hquiet₁⟩
  refine (does_stat storage₁).bind ?_
  rintro _ storage₂ - ⟨hcore₂, hbytes⟩
  have hcore := hcore₂.trans hquiet₁.1
  refine (does_repairPrevious (hlayout.of_core hcore)).bind ?_
  rintro _ storage₃ - ⟨rfl, hquiet₃⟩
  obtain ⟨hdisk, hhandle, -, -⟩ := core_eq_iff.mp hquiet₁.1
  refine Does.pure ⟨rfl, hquiet₃.1.trans hcore, ?_⟩
  rw [hquiet₃.2, hbytes, hdisk, hhandle]

/-! ### Rotation -/

theorem Layout.rename {file : ℕ} (h : Layout storage) (hfile : storage.disk.current = some file) :
    Layout (storage.rename file) where
  bound := h.bound
  distinct _ _ := by simp [Storage.rename]
  previous file' hfile' := by
    have heq : some file = some file' := hfile'
    exact h.current file' (hfile.trans heq)
  current _ hfile' := by simp [Storage.rename] at hfile'

theorem Open.rename (h : Open storage) (file : ℕ) : Open (storage.rename file) where
  handle := h.handle
  spare _ hfile := by simp [Storage.rename] at hfile
  place hrenamed := by simp [Storage.rename] at hrenamed

/-- The events of the file that is replaced go, those of the other stay. -/
theorem Kept.rename {file : ℕ} (h : Kept json storage) (hlayout : Layout storage)
    (hfile : storage.disk.current = some file) : Kept json (storage.rename file) where
  named entry hentry := by
    obtain ⟨hin, hnot⟩ := List.mem_filter.mp hentry
    rcases h.named entry hin with hprevious | hcurrent
    · simp [hprevious] at hnot
    · left
      show some file = some entry.1
      exact hfile.symm.trans hcurrent
  holds file' hfile' := by
    have hsome : some file = some file' := by simpa [Storage.rename] using hfile'
    obtain rfl := Option.some.inj hsome
    have hne : storage.disk.previous ≠ some file := fun hp => hlayout.distinct file hp hfile
    have hfilter : (storage.retained.filter fun entry => some entry.1 ≠ storage.disk.previous).filter
        (fun entry => entry.1 = file) = storage.retained.filter fun entry => entry.1 = file := by
      rw [List.filter_filter]
      refine List.filter_congr fun entry _ => ?_
      by_cases heq : entry.1 = file
      · simp [heq, hne.symm]
      · simp [heq]
    show segmentEvents json (storage.disk.files file) = _
    rw [h.holds file (.inr hfile), Storage.rename, hfilter]
  order := by
    refine List.pairwise_of_forall fun _ _ hcurrent => ?_
    simp [Storage.rename] at hcurrent

theorem Moves.rename {file : ℕ} (hfile : storage.disk.current = some file) :
    Moves json storage (storage.rename file) where
  layout h := h.rename hfile
  opened _ h := h.rename file
  kept hl h := h.rename hl hfile
  same _ _ hrenamed := by simp [Storage.rename] at hrenamed

theorem does_renameat (storage : Storage) :
    Does (Moves json) renameat storage fun _ storage' =>
      storage'.renamed = true ∧ storage'.disk.current = none := by
  unfold renameat
  refine (does_call storage).bind fun _ storage' _ _ => Does.get_bind ?_
  cases hcurrent : storage'.disk.current with
  | none => exact Does.throw ()
  | some file => exact Does.modify (Moves.rename hcurrent) ⟨rfl, rfl⟩

/-- The storage after `current.jsonl` was created. -/
def Storage.create (storage : Storage) : Storage := { storage with disk := storage.disk.create }

theorem Layout.create (h : Layout storage) : Layout storage.create where
  bound file := by
    show (Function.update storage.disk.files storage.disk.fresh [] file).length ≤ _
    rw [Function.update_apply]
    split_ifs
    · exact Nat.zero_le _
    · exact h.bound file
  distinct file hfile heq := by
    have hlt := h.previous file hfile
    have heq' : some storage.disk.fresh = some file := heq
    exact absurd (Option.some.inj heq') hlt.ne'
  previous file hfile := (h.previous file hfile).trans (Nat.lt_succ_self _)
  current file hfile := by
    have heq : some storage.disk.fresh = some file := hfile
    rw [← Option.some.inj heq]
    exact Nat.lt_succ_self _

/-- The new file has no events, and none are retained for it. -/
theorem Kept.create (h : Kept json storage) (hlayout : Layout storage)
    (hcurrent : storage.disk.current = none) : Kept json storage.create := by
  have hold : ∀ entry ∈ storage.retained, storage.disk.previous = some entry.1 := by
    intro entry hentry
    rcases h.named entry hentry with hprevious | hnone
    · exact hprevious
    · rw [hcurrent] at hnone
      cases hnone
  have hlt : ∀ entry ∈ storage.retained, entry.1 ≠ storage.disk.fresh := fun entry hentry =>
    (hlayout.previous _ (hold entry hentry)).ne
  refine ⟨fun entry hentry => .inl (hold entry hentry), fun file hfile => ?_, ?_⟩
  · show segmentEvents json (Function.update storage.disk.files storage.disk.fresh [] file) = _
    rw [Function.update_apply]
    split_ifs with heq
    · have hnone : (storage.retained.filter fun entry => entry.1 = file) = [] := by
        rw [List.filter_eq_nil_iff]
        intro entry hentry
        simpa [heq] using hlt entry hentry
      show _ = (storage.retained.filter _).map _
      rw [hnone]
      rfl
    · have hprevious : storage.disk.previous = some file := by
        rcases hfile with hfile | hfile
        · exact hfile
        · have hfresh : some storage.disk.fresh = some file := hfile
          exact absurd (Option.some.inj hfresh).symm heq
      exact h.holds file (.inl hprevious)
  · refine h.order.imp_of_mem fun hentry _ _ hfresh => ?_
    have heq : some storage.disk.fresh = some _ := hfresh
    exact absurd (Option.some.inj heq).symm (hlt _ hentry)

theorem Moves.create (hcurrent : storage.disk.current = none) :
    Moves json storage storage.create where
  layout h := h.create
  kept hl h := h.create hl hcurrent
  opened hl h :=
    { handle := h.handle.trans (Nat.lt_succ_self _)
      spare := fun file hfile _ => by
        have heq : some storage.disk.fresh = some file := hfile
        rw [← Option.some.inj heq]
        exact Function.update_self _ _ _
      place := fun hrenamed => by
        have hplace := h.place hrenamed
        rw [hcurrent] at hplace
        cases hplace }
  same _ h hrenamed := by
    have hplace := h.place hrenamed
    rw [hcurrent] at hplace
    cases hplace

/-- `open_regular_at` of `current.jsonl` returns the file of that name; one that was missing is
empty. -/
theorem does_openCurrent (storage : Storage) :
    Does (Moves json) openCurrent storage fun file storage' =>
      storage'.disk.current = some file ∧ storage'.renamed = storage.renamed ∧
        (storage.disk.current = none → storage'.disk.files file = []) := by
  unfold openCurrent
  refine (does_call storage).bind fun _ storage₁ _ hquiet => Does.get_bind ?_
  obtain ⟨hdisk, -, -, hrenamed⟩ := core_eq_iff.mp hquiet.1
  cases hcurrent : storage₁.disk.current with
  | some file =>
    refine (does_call storage₁).bind fun _ storage₂ _ hquiet₂ => ?_
    obtain ⟨hdisk₂, -, -, hrenamed₂⟩ := core_eq_iff.mp hquiet₂.1
    refine Does.pure ⟨by rw [hdisk₂, hcurrent], hrenamed₂.trans hrenamed, fun hnone => ?_⟩
    rw [hdisk, hnone] at hcurrent
    cases hcurrent
  | none =>
    have hset : Does (Moves json) (set storage₁.create : Io PUnit) storage₁
        fun _ storage₂ => storage₂ = storage₁.create := ⟨Moves.create hcurrent, fun _ _ => rfl⟩
    refine hset.bind fun _ storage₂ _ hstorage₂ => ?_
    refine (does_call storage₂).bind fun _ storage₃ _ hquiet₃ => ?_
    obtain ⟨hdisk₃, -, -, hrenamed₃⟩ := core_eq_iff.mp hquiet₃.1
    rw [hstorage₂] at hdisk₃ hrenamed₃
    refine Does.pure ⟨by rw [hdisk₃]; rfl, hrenamed₃.trans hrenamed, fun _ => ?_⟩
    rw [hdisk₃]
    exact Function.update_self _ _ _

theorem open_of_current (hlayout : Layout storage)
    (h : storage.disk.current = some storage.handle) : Open storage where
  handle := hlayout.current _ h
  spare _ hfile hne := absurd (Option.some.inj (hfile.symm.trans h)) hne
  place _ := h

/-- The file opened as `current.jsonl` becomes the open segment. -/
theorem Moves.handle {file bytes : ℕ} (h : storage.disk.current = some file) :
    Moves json storage { storage with handle := file, currentBytes := bytes } where
  layout hl := ⟨hl.bound, hl.distinct, hl.previous, hl.current⟩
  kept _ hk := ⟨hk.named, hk.holds, hk.order⟩
  opened hl _ := open_of_current ⟨hl.bound, hl.distinct, hl.previous, hl.current⟩ h
  same _ ho hrenamed := by
    have hfile : storage.handle = file := Option.some.inj ((ho.place hrenamed).symm.trans h)
    rw [core_eq_iff]
    exact ⟨rfl, hfile.symm, rfl, rfl⟩

/-- After a rotation the open segment is a new file. -/
structure Rotated (storage : Storage) : Prop where
  renamed : storage.renamed = true
  current : storage.disk.current = some storage.handle
  empty : storage.disk.files storage.handle = []

theorem does_rotate (hlayout : Layout storage) :
    Does (Moves json) rotate storage fun _ storage' => Rotated storage' := by
  unfold rotate
  refine (does_repairPrevious hlayout).bind ?_
  rintro _ storage₁ - ⟨-, hquiet₁⟩
  refine Does.get_bind ((does_repair (hlayout.of_core hquiet₁.1) storage₁.handle).bind ?_)
  rintro _ storage₂ - ⟨-, hquiet₂⟩
  refine (does_stat storage₂).bind fun _ storage₃ _ _ => ?_
  refine (does_renameat storage₃).bind ?_
  rintro _ storage₄ - ⟨hrenamed, hcurrent⟩
  refine (does_openCurrent storage₄).bind ?_
  rintro _ storage₅ - ⟨hfile, hrenamed₅, hempty⟩
  exact Does.modify (Moves.handle hfile) ⟨hrenamed₅.trans hrenamed, hfile, hempty hcurrent⟩

/-! ### Appending -/

/-- The event does not fit behind what the open segment has. -/
def Storage.Rotates (json : Json) (storage : Storage) (event : LifecycleEvent) : Prop :=
  0 < (storage.disk.files storage.handle).length ∧
    maxSegmentBytes < (storage.disk.files storage.handle).length + ((json.toVec event).length + 1)

instance (event : LifecycleEvent) : Decidable (storage.Rotates json event) :=
  inferInstanceAs (Decidable (_ ∧ _))

variable {event : LifecycleEvent} {line : List UInt8}

theorem toJsonLine_eq_some (h : toJsonLine json event = some line) :
    line = json.toVec event ++ [newline] ∧ (json.toVec event).length + 1 ≤ maxEventLineBytes := by
  unfold toJsonLine at h
  simp only at h
  split_ifs at h with hlong
  exact ⟨(Option.some.inj h).symm, not_lt.mp hlong⟩

/-- What is known when the line is written. -/
structure Prepared (json : Json) (event : LifecycleEvent) (storage storage' : Storage)
    (line : List UInt8) (changed : Bool) : Prop where
  isLine : toJsonLine json event = some line
  fits : (storage'.disk.files storage'.handle).length + line.length ≤ maxSegmentBytes
  rotated : changed = true → storage.Rotates json event ∧ Rotated storage'
  same : changed = false → ¬ storage.Rotates json event ∧ storage'.core = storage.core

theorem does_prepare (hlayout : Layout storage) :
    Does (Moves json) (prepare json event) storage fun result storage' =>
      Prepared json event storage storage' result.1 result.2 := by
  unfold prepare
  refine (does_repairs hlayout).bind ?_
  rintro _ storage₁ - ⟨rfl, hcore, hbytes⟩
  refine Does.lift_bind fun line hline => ?_
  rw [expect_eq_ok] at hline
  obtain ⟨hline', hlen⟩ := toJsonLine_eq_some hline
  have hlength : line.length = (json.toVec event).length + 1 := by simp [hline']
  have hmax : maxEventLineBytes ≤ maxSegmentBytes := by decide
  refine Does.get_bind ?_
  rw [hbytes]
  split_ifs with hrotates
  · rw [hlength] at hrotates
    refine (does_rotate (hlayout.of_core hcore)).bind fun _ storage₂ _ hrotated => ?_
    refine Does.pure ⟨hline, ?_, fun _ => ⟨hrotates, hrotated⟩, fun hfalse => by cases hfalse⟩
    simp only [hrotated.empty, List.length_nil]
    omega
  · refine Does.pure ⟨hline, ?_, (fun htrue => by cases htrue), fun _ => ⟨?_, hcore⟩⟩
    · obtain ⟨hdisk, hhandle, -, -⟩ := core_eq_iff.mp hcore
      simp only [hdisk, hhandle]
      omega
    · unfold Storage.Rotates
      rw [← hlength]
      exact hrotates

/-- Bytes at the end of the open segment. -/
def Storage.write (storage : Storage) (bytes : List UInt8) : Storage :=
  { storage with disk := storage.disk.append storage.handle bytes }

theorem write_files (bytes : List UInt8) (file : ℕ) : (storage.write bytes).disk.files file =
    if file = storage.handle then storage.disk.files storage.handle ++ bytes
    else storage.disk.files file := by
  show Function.update storage.disk.files storage.handle _ file = _
  rw [Function.update_apply]

theorem Layout.write {bytes : List UInt8} (h : Layout storage)
    (hfits : (storage.disk.files storage.handle).length + bytes.length ≤ maxSegmentBytes) :
    Layout (storage.write bytes) where
  bound file := by
    rw [write_files]
    split_ifs
    · rw [List.length_append]
      exact hfits
    · exact h.bound file
  distinct := h.distinct
  previous := h.previous
  current := h.current

theorem Open.write (h : Open storage) (bytes : List UInt8) : Open (storage.write bytes) where
  handle := h.handle
  spare file hfile hne := by
    have hother : file ≠ storage.handle := hne
    rw [write_files, if_neg hother]
    exact h.spare file hfile hother
  place := h.place

/-- A part of a line changes the events of no file. -/
theorem Kept.write_part {part : List UInt8} (h : Kept json storage) (hpart : newline ∉ part) :
    Kept json (storage.write part) where
  named := h.named
  holds file hfile := by
    rw [write_files]
    split_ifs with heq
    · rw [segmentEvents_part hpart, ← heq]
      exact h.holds file hfile
    · exact h.holds file hfile
  order := h.order

/-- The event is appended. -/
def Storage.retain (storage : Storage) (event : LifecycleEvent) (bytes : ℕ) : Storage :=
  { storage with
    currentBytes := storage.currentBytes + bytes
    retained := storage.retained ++ [(storage.handle, event)] }

/-- The event can be written as a line and read back. -/
structure Readable (json : Json) (event : LifecycleEvent) : Prop where
  oneLine : newline ∉ json.toVec event
  roundTrip : json.fromSlice (json.toVec event) = some event

theorem lineEvent_toVec (hread : Readable json event) (hload : Loadable event)
    (hlen : (json.toVec event).length + 1 ≤ maxEventLineBytes) :
    lineEvent json (json.toVec event) = some event := by
  unfold lineEvent
  rw [if_pos hlen, hread.roundTrip, Option.bind_some, hload]
  rfl

/-- A line at the beginning of a line of `current.jsonl` is one more event. -/
theorem Kept.write_line {bytes : ℕ} (h : Kept json storage)
    (hplace : storage.disk.current = some storage.handle)
    (haligned : Aligned (storage.disk.files storage.handle)) (hread : Readable json event)
    (hload : Loadable event) (hline : toJsonLine json event = some line) :
    Kept json ((storage.write line).retain event bytes) := by
  obtain ⟨rfl, hlen⟩ := toJsonLine_eq_some hline
  refine ⟨fun entry hentry => ?_, fun file hfile => ?_, ?_⟩
  · rcases List.mem_append.mp hentry with hold | hnew
    · exact h.named entry hold
    · rw [List.mem_singleton.mp hnew]
      exact .inr hplace
  · show segmentEvents json ((storage.write _).disk.files file) =
      ((storage.retained ++ [(storage.handle, event)]).filter _).map _
    rw [write_files, List.filter_append, List.map_append]
    split_ifs with heq
    · subst heq
      rw [segmentEvents_line haligned hread.oneLine, lineEvent_toVec hread hload hlen,
        h.holds _ hfile]
      simp
    · have hnone : ([(storage.handle, event)] : List _).filter (fun entry => entry.1 = file) = [] := by
        simp [Ne.symm heq]
      rw [hnone, List.map_nil, List.append_nil]
      exact h.holds file hfile
  · show (storage.retained ++ [(storage.handle, event)]).Pairwise _
    rw [List.pairwise_append]
    refine ⟨h.order, List.pairwise_singleton _ _, fun entry _ entry' hentry' _ => ?_⟩
    rw [List.mem_singleton.mp hentry']
    exact hplace

/-- `write_all` writes all, or fails and has written less. -/
theorem exec_writeAll (storage : Storage) (bytes : List UInt8) : ∃ storage',
    (exec (writeAll storage.handle bytes) storage = (.ok (), storage') ∧
      storage'.core = (storage.write bytes).core) ∨
    ∃ written < bytes.length, exec (writeAll storage.handle bytes) storage = (.error (), storage') ∧
      storage'.core = (storage.write (bytes.take written)).core := by
  rcases storage with ⟨disk, handle, currentBytes, plan, retained, renamed⟩
  rcases plan with _ | ⟨_ | written, plan⟩
  · exact ⟨_, .inl ⟨rfl, rfl⟩⟩
  · exact ⟨_, .inl ⟨rfl, rfl⟩⟩
  · by_cases hpart : written < bytes.length
    · refine ⟨⟨disk.append handle (bytes.take written), handle, currentBytes, plan, retained, renamed⟩,
        .inr ⟨written, hpart, ?_, rfl⟩⟩
      unfold writeAll
      rw [exec_bind]
      show exec _ _ = _
      rw [exec_bind]
      show exec (if written < bytes.length then _ else _) _ = _
      rw [if_pos hpart]
      rfl
    · refine ⟨⟨disk.append handle bytes, handle, currentBytes, plan, retained, renamed⟩,
        .inl ⟨?_, rfl⟩⟩
      have htake : bytes.take written = bytes := List.take_of_length_le (not_lt.mp hpart)
      unfold writeAll
      rw [exec_bind]
      show exec _ _ = _
      rw [exec_bind]
      show exec (if written < bytes.length then _ else _) _ = _
      rw [if_neg hpart, htake]
      rfl

/-- How `append` ends: before the write, in the middle of it, or well. -/
inductive Appended (json : Json) (event : LifecycleEvent) (storage : Storage) :
    Except Unit Bool × Storage → Prop
  | early {e : Unit} {storage' : Storage} (moves : Moves json storage storage') :
      Appended json event storage (.error e, storage')
  | part {e : Unit} {storage₁ storage' : Storage} {line : List UInt8} {changed : Bool} {written : ℕ}
      (moves : Moves json storage storage₁)
      (prepared : Prepared json event storage storage₁ line changed) (short : written < line.length)
      (core : storage'.core = (storage₁.write (line.take written)).core) :
      Appended json event storage (.error e, storage')
  | whole {storage₁ storage' : Storage} {line : List UInt8} {changed : Bool}
      (moves : Moves json storage storage₁)
      (prepared : Prepared json event storage storage₁ line changed)
      (core : storage'.core = ((storage₁.write line).retain event line.length).core) :
      Appended json event storage (.ok changed, storage')

theorem exec_append (hlayout : Layout storage) (event : LifecycleEvent) :
    Appended json event storage (exec (append json event) storage) := by
  have hdoes : Does (Moves json) (prepare json event) storage fun result storage' =>
      Prepared json event storage storage' result.1 result.2 := does_prepare hlayout
  obtain ⟨hmoves, hprepared⟩ := hdoes
  unfold append
  rw [exec_bind]
  rcases hexec : exec (prepare json event) storage with ⟨e | ⟨line, changed⟩, storage₁⟩
  · rw [hexec] at hmoves
    exact .early hmoves
  · rw [hexec] at hmoves hprepared
    have hprepared := hprepared (line, changed) rfl
    simp only
    rw [exec_bind_ok (exec_get storage₁), exec_bind]
    obtain ⟨storage₂, ⟨hwrite, hcore⟩ | ⟨written, hshort, hwrite, hcore⟩⟩ :=
      exec_writeAll storage₁ line
    · rw [hwrite]
      refine .whole hmoves hprepared ?_
      obtain ⟨hdisk, hhandle, hretained, hrenamed⟩ := core_eq_iff.mp hcore
      rw [core_eq_iff]
      refine ⟨hdisk, hhandle, ?_, hrenamed⟩
      show storage₂.retained ++ [(storage₂.handle, event)] = _
      rw [hretained, hhandle]
      rfl
    · rw [hwrite]
      exact .part hmoves hprepared hshort hcore

/-! ### Reading -/

/-- The events of a file, if there is one of the name. -/
def Disk.eventsOf (json : Json) (disk : Disk) : Option ℕ → List LifecycleEvent
  | some file => segmentEvents json (disk.files file)
  | none => []

theorem does_loadFile (hlayout : Layout storage) (name : Disk → Option ℕ) (loaded : LoadedEvents) :
    Does (Moves json) (loadFile json name loaded) storage fun loaded' storage' =>
      loaded'.events = loaded.events ++ storage.disk.eventsOf json (name storage.disk) ∧
        Quiet storage storage' := by
  unfold loadFile
  refine (does_call storage).bind fun _ storage' _ hquiet => Does.get_bind ?_
  obtain ⟨hdisk, -, -, -⟩ := core_eq_iff.mp hquiet.1
  rw [hdisk]
  cases name storage.disk with
  | none => exact Does.pure ⟨by simp [Disk.eventsOf], hquiet⟩
  | some file => exact Does.pure ⟨loadSegment_events json (hlayout.bound file) loaded, hquiet⟩

/-- A list in which the one kind of members comes before the other is the two parts of it. -/
theorem filter_append_filter {α : Type} {p q : α → Bool} {list : List α}
    (hone : ∀ a ∈ list, p a = true ∨ q a = true) (hnot : ∀ a, p a = true → q a = false)
    (horder : list.Pairwise fun a b => q a = true → q b = true) :
    list.filter p ++ list.filter q = list := by
  induction list with
  | nil => rfl
  | cons a list ih =>
    obtain ⟨hafter, hrest⟩ := List.pairwise_cons.mp horder
    have hone' : ∀ b ∈ list, p b = true ∨ q b = true := fun b hb => hone b (List.mem_cons_of_mem _ hb)
    rcases hone a List.mem_cons_self with hp | hq
    · rw [List.filter_cons_of_pos hp, List.filter_cons_of_neg (by simp [hnot a hp]), List.cons_append,
        ih hone' hrest]
    · have hall : ∀ b ∈ list, q b = true := fun b hb => hafter b hb hq
      have hnone : ∀ b ∈ a :: list, ¬ p b = true := by
        intro b hb hp
        have hqb : q b = true := by
          rcases List.mem_cons.mp hb with rfl | hb
          · exact hq
          · exact hall b hb
        rw [hnot b hp] at hqb
        cases hqb
      rw [List.filter_eq_nil_iff.mpr hnone, List.nil_append, List.filter_eq_self]
      intro b hb
      rcases List.mem_cons.mp hb with rfl | hb
      · exact hq
      · exact hall b hb

/-- The two files have the events that are retained, in the order in which they were appended. -/
theorem Kept.events (h : Kept json storage) (hlayout : Layout storage) :
    storage.disk.eventsOf json storage.disk.previous ++
      storage.disk.eventsOf json storage.disk.current = storage.retained.map (·.2) := by
  have hfile : ∀ name : Option ℕ, name = storage.disk.previous ∨ name = storage.disk.current →
      storage.disk.eventsOf json name =
        (storage.retained.filter fun entry => some entry.1 = name).map (·.2) := by
    intro name hname
    cases name with
    | none => simp [Disk.eventsOf]
    | some file =>
      have hfile : storage.disk.previous = some file ∨ storage.disk.current = some file :=
        hname.imp Eq.symm Eq.symm
      simpa [Disk.eventsOf] using h.holds file hfile
  rw [hfile _ (.inl rfl), hfile _ (.inr rfl), ← List.map_append]
  congr 1
  refine filter_append_filter ?_ ?_ ?_
  · intro entry hentry
    simpa [eq_comm] using h.named entry hentry
  · intro entry hprevious
    have hne := hlayout.distinct entry.1 (by simpa [eq_comm] using hprevious)
    simpa [eq_comm] using hne
  · refine h.order.imp fun horder => ?_
    simpa [eq_comm] using horder

theorem does_loadAll (hlayout : Layout storage) :
    Does (Moves json) (loadAll json) storage fun loaded storage' =>
      loaded.events = storage.disk.eventsOf json storage.disk.previous ++
        storage.disk.eventsOf json storage.disk.current ∧ Quiet storage storage' := by
  unfold loadAll
  refine (does_loadFile hlayout Disk.previous _).bind ?_
  rintro loaded storage₁ - ⟨hloaded, hquiet⟩
  refine (does_loadFile (hlayout.of_core hquiet.1) Disk.current loaded).imp ?_
  rintro loaded' storage₂ - ⟨hloaded', hquiet'⟩
  obtain ⟨hdisk, -, -, -⟩ := core_eq_iff.mp hquiet.1
  refine ⟨?_, hquiet.trans hquiet'⟩
  rw [hloaded', hloaded, hdisk, List.nil_append]

theorem does_openStorage (hlayout : Layout storage) :
    Does (Moves json) openStorage storage fun _ storage' =>
      storage'.disk.current = some storage'.handle := by
  unfold openStorage
  refine (does_call storage).bind fun _ storage₁ _ hquiet => ?_
  refine (does_openCurrent storage₁).bind ?_
  rintro file storage₂ hmoves ⟨hfile, -, -⟩
  have hlayout₂ : Layout storage₂ := hmoves.layout (hlayout.of_core hquiet.1)
  refine (does_repair hlayout₂ file).bind ?_
  rintro _ storage₃ - ⟨-, hquiet₃⟩
  refine (does_repairPrevious (hlayout₂.of_core hquiet₃.1)).bind ?_
  rintro _ storage₄ - ⟨-, hquiet₄⟩
  have hfile₄ : storage₄.disk.current = some file := by
    rw [(core_eq_iff.mp hquiet₄.1).1, (core_eq_iff.mp hquiet₃.1).1, hfile]
  refine (Does.modify (Moves.handle hfile₄) (Q := fun _ storage₅ =>
    storage₅.disk.current = some storage₅.handle) hfile₄).bind fun _ storage₅ _ hopen => ?_
  refine (does_stat storage₅).imp ?_
  rintro _ storage₆ - ⟨hcore, -⟩
  obtain ⟨hdisk, hhandle, -, -⟩ := core_eq_iff.mp hcore
  rw [hdisk, hhandle, hopen]

theorem does_openJournal (hlayout : Layout storage) :
    Does (Moves json) (openJournal json) storage fun loaded storage' =>
      storage'.disk.current = some storage'.handle ∧
        loaded.events = storage'.disk.eventsOf json storage'.disk.previous ++
          storage'.disk.eventsOf json storage'.disk.current := by
  unfold openJournal
  refine (does_openStorage hlayout).bind fun _ storage₁ hmoves hopen => ?_
  refine (does_loadAll (hmoves.layout hlayout)).bind ?_
  rintro loaded storage₂ - ⟨hloaded, hquiet⟩
  refine (does_call storage₂).bind fun _ storage₃ _ hquiet₃ => ?_
  obtain ⟨hdisk, hhandle, -, -⟩ := core_eq_iff.mp (hquiet.trans hquiet₃).1
  refine Does.pure ⟨?_, ?_⟩
  · rw [hdisk, hhandle, hopen]
  · rw [hdisk, hloaded]

/-! ### What an append leaves -/

section Appended

variable {result : Except Unit Bool}

theorem Prepared.layout {storage₁ : Storage} {changed : Bool} (hmoves : Moves json storage storage₁)
    (hprepared : Prepared json event storage storage₁ line changed) (hlayout : Layout storage)
    {part : List UInt8} (hpart : part.length ≤ line.length) : Layout (storage₁.write part) :=
  (hmoves.layout hlayout).write (le_trans (Nat.add_le_add_left hpart _) hprepared.fits)

theorem Appended.layout (h : Appended json event storage (result, storage'))
    (hlayout : Layout storage) : Layout storage' := by
  cases h with
  | early hmoves => exact hmoves.layout hlayout
  | part hmoves hprepared _ hcore =>
    exact (hprepared.layout hmoves hlayout (List.length_take_le' _ _)).of_core hcore
  | whole hmoves hprepared hcore =>
    have hwrite := hprepared.layout hmoves hlayout le_rfl
    refine Layout.of_core ?_ hcore
    exact ⟨hwrite.bound, hwrite.distinct, hwrite.previous, hwrite.current⟩

theorem Appended.opened (h : Appended json event storage (result, storage'))
    (hlayout : Layout storage) (hopen : Open storage) : Open storage' := by
  cases h with
  | early hmoves => exact hmoves.opened hlayout hopen
  | part hmoves _ _ hcore => exact ((hmoves.opened hlayout hopen).write _).of_core hcore
  | @whole _ _ line _ hmoves _ hcore =>
    have hwrite := (hmoves.opened hlayout hopen).write line
    refine Open.of_core ?_ hcore
    exact ⟨hwrite.handle, hwrite.spare, hwrite.place⟩

/-- The files keep their events, and an event that is appended comes to them, unless it is written
behind a part of a line or to a file that is not `current.jsonl`. -/
theorem Appended.kept (h : Appended json event storage (result, storage')) (hlayout : Layout storage)
    (hopen : Open storage) (hkept : Kept json storage) (hread : Readable json event)
    (hload : Loadable event)
    (hsound : result = .ok false →
      Aligned (storage.disk.files storage.handle) ∧ storage.renamed = false) :
    Kept json storage' := by
  cases h with
  | early hmoves => exact hmoves.kept hlayout hkept
  | part hmoves hprepared hshort hcore =>
    refine Kept.of_core ((hmoves.kept hlayout hkept).write_part ?_) hcore
    obtain ⟨rfl, -⟩ := toJsonLine_eq_some hprepared.isLine
    rw [List.length_append, List.length_singleton] at hshort
    rw [List.take_append_of_le_length (by omega)]
    exact fun hmem => hread.oneLine (List.mem_of_mem_take hmem)
  | @whole storage₁ _ _ changed hmoves hprepared hcore =>
    have hkept₁ := hmoves.kept hlayout hkept
    refine Kept.of_core ?_ hcore
    cases changed with
    | true =>
      obtain ⟨-, hrotated⟩ := hprepared.rotated rfl
      refine hkept₁.write_line hrotated.current ?_ hread hload hprepared.isLine
      rw [hrotated.empty]
      rfl
    | false =>
      obtain ⟨haligned, hrenamed⟩ := hsound rfl
      obtain ⟨hdisk, hhandle, -, -⟩ := core_eq_iff.mp (hprepared.same rfl).2
      refine hkept₁.write_line ?_ ?_ hread hload hprepared.isLine
      · rw [hdisk, hhandle]
        exact hopen.place hrenamed
      · rw [hdisk, hhandle]
        exact haligned

/-- An append that fails and has renamed nothing has lost nothing. -/
theorem Appended.failed {e : Unit} (h : Appended json event storage (.error e, storage'))
    (hlayout : Layout storage) (hopen : Open storage) (hrenamed : storage'.renamed = false) :
    storage'.retained = storage.retained ∧ storage.renamed = false := by
  cases h with
  | early hmoves =>
    obtain ⟨-, -, hretained, hsame⟩ := core_eq_iff.mp (hmoves.same hlayout hopen hrenamed)
    exact ⟨hretained, hsame.symm.trans hrenamed⟩
  | @part _ storage₁ _ _ _ _ hmoves _ _ hcore =>
    obtain ⟨-, -, hretained, hsame⟩ := core_eq_iff.mp hcore
    have hrenamed₁ : storage₁.renamed = false := hsame.symm.trans hrenamed
    obtain ⟨-, -, hretained₁, hsame₁⟩ := core_eq_iff.mp (hmoves.same hlayout hopen hrenamed₁)
    exact ⟨hretained.trans hretained₁, hsame₁.symm.trans hrenamed₁⟩

/-- An append that succeeds adds its event. -/
theorem Appended.retained {changed : Bool} (h : Appended json event storage (.ok changed, storage')) :
    (storage'.handle, event) ∈ storage'.retained := by
  cases h with
  | whole _ _ hcore =>
    obtain ⟨-, hhandle, hretained, -⟩ := core_eq_iff.mp hcore
    rw [hretained, hhandle]
    exact List.mem_append_right _ List.mem_cons_self

theorem Appended.rotated (h : Appended json event storage (.ok true, storage')) :
    storage'.disk.current = some storage'.handle ∧ storage'.renamed = true := by
  cases h with
  | whole _ hprepared hcore =>
    obtain ⟨-, hrotated⟩ := hprepared.rotated rfl
    obtain ⟨hdisk, hhandle, -, hrenamed⟩ := core_eq_iff.mp hcore
    rw [hdisk, hhandle, hrenamed]
    exact ⟨hrotated.current, hrotated.renamed⟩

theorem Appended.pushed (h : Appended json event storage (.ok false, storage')) :
    ¬ storage.Rotates json event ∧
      storage'.retained = storage.retained ++ [(storage.handle, event)] ∧
      storage'.renamed = storage.renamed := by
  cases h with
  | whole _ hprepared hcore =>
    obtain ⟨hnot, hsame⟩ := hprepared.same rfl
    obtain ⟨-, -, hretained, hrenamed⟩ := core_eq_iff.mp hcore
    obtain ⟨-, hhandle₁, hretained₁, hrenamed₁⟩ := core_eq_iff.mp hsame
    refine ⟨hnot, ?_, hrenamed.trans hrenamed₁⟩
    rw [hretained, ← hhandle₁, ← hretained₁]
    rfl

end Appended

/-! ### Runs -/

namespace World

/-- The step does not reach the two defects: when an event is acknowledged, the snapshot has been read
since the files last got new names, and a line that needed no new file began at the beginning of a
line. -/
def Sound (json : Json) (world : World) : Step → Prop
  | .append plan event => world.acknowledges json plan event = true →
      (world.step json (.append plan event)).storage.renamed = false ∧
        (¬ world.storage.Rotates json event →
          Aligned (world.storage.disk.files world.storage.handle))
  | .reopen _ => True

/-- Every step from here on is sound. -/
def SoundRun (json : Json) : World → List Step → Prop
  | _, [] => True
  | world, step :: steps => world.Sound json step ∧ SoundRun json (world.step json step) steps

/-- What holds after every step; what the files and the snapshot have holds as long as all was
`good`. -/
structure Inv (json : Json) (good : Prop) (world : World) : Prop where
  layout : Layout world.storage
  opened : ∀ snapshot, world.snapshot = some snapshot → Open world.storage
  kept : good → Kept json world.storage
  snapshot : good → ∀ snapshot, world.snapshot = some snapshot → world.storage.renamed = false →
    snapshot.events = world.storage.retained.map (·.2)

variable {world : World} {good : Prop} {plan : List Outcome} {snapshot : LoadedEvents}

/-- A storage whose events were read, with `current.jsonl` open. -/
theorem inv_reloaded {storage : Storage} {loaded : LoadedEvents} (hlayout : Layout storage)
    (hcurrent : storage.disk.current = some storage.handle) (hkept : good → Kept json storage)
    (hloaded : loaded.events = storage.disk.eventsOf json storage.disk.previous ++
      storage.disk.eventsOf json storage.disk.current) :
    Inv json good ⟨storage.reloaded, some loaded⟩ := by
  have hlayout' : Layout storage.reloaded :=
    ⟨hlayout.bound, hlayout.distinct, hlayout.previous, hlayout.current⟩
  refine ⟨hlayout', fun _ _ => open_of_current hlayout' hcurrent, fun hgood => ?_, ?_⟩
  · have h := hkept hgood
    exact ⟨h.named, h.holds, h.order⟩
  · intro hgood snapshot hsnapshot _
    rw [← Option.some.inj hsnapshot, hloaded]
    exact (hkept hgood).events hlayout

theorem step_reopen (h : Inv json good world) (plan : List Outcome) :
    Inv json good (world.step json (.reopen plan)) := by
  have hlayout : Layout { world.storage with plan } := h.layout.of_core rfl
  have hdoes : Does (Moves json) (openJournal json) { world.storage with plan } _ :=
    does_openJournal hlayout
  obtain ⟨hmoves, hreturns⟩ := hdoes
  simp only [step]
  rcases hexec : exec (openJournal json) { world.storage with plan } with ⟨e | loaded, storage'⟩
  · rw [hexec] at hmoves
    refine ⟨hmoves.layout hlayout, nofun, fun hgood => ?_, nofun⟩
    exact hmoves.kept hlayout ((h.kept hgood).of_core rfl)
  · rw [hexec] at hmoves hreturns
    obtain ⟨hcurrent, hloaded⟩ := hreturns loaded rfl
    exact inv_reloaded (hmoves.layout hlayout) hcurrent
      (fun hgood => hmoves.kept hlayout ((h.kept hgood).of_core rfl)) hloaded

theorem writerTurn_inv (h : Inv json good world) (hsnapshot : world.snapshot = some snapshot)
    (hread : Readable json event) (hload : Loadable event)
    (hsound : good → world.acknowledges json plan event = true →
      (world.writerTurn json snapshot plan event).storage.renamed = false ∧
        (¬ world.storage.Rotates json event →
          Aligned (world.storage.disk.files world.storage.handle))) :
    Inv json good (world.writerTurn json snapshot plan event) := by
  have hlayout : Layout { world.storage with plan } := h.layout.of_core rfl
  have hopen : Open { world.storage with plan } := (h.opened _ hsnapshot).of_core rfl
  have happended : Appended json event { world.storage with plan }
      (world.appending json plan event) := exec_append hlayout event
  unfold acknowledges at hsound
  unfold writerTurn at hsound ⊢
  rcases hexec : world.appending json plan event with ⟨e | changed, storage'⟩
  · rw [hexec] at happended
    simp only
    refine ⟨happended.layout hlayout, fun _ _ => happended.opened hlayout hopen, fun hgood => ?_,
      fun hgood snapshot' hsome hrenamed => ?_⟩
    · exact happended.kept hlayout hopen ((h.kept hgood).of_core rfl) hread hload
        fun hok => by cases hok
    · obtain ⟨hretained, hbefore⟩ := happended.failed hlayout hopen hrenamed
      rw [← Option.some.inj hsome]
      simp only
      rw [hretained]
      exact h.snapshot hgood snapshot hsnapshot hbefore
  · rw [hexec] at happended hsound
    have hack : (world.snapshot.isSome && (Except.ok changed : Except Unit Bool).toBool) = true := by
      rw [hsnapshot]
      rfl
    cases changed with
    | false =>
      obtain ⟨hnot, hretained, hrenamed⟩ := happended.pushed
      have hgoodbefore : good → Aligned (world.storage.disk.files world.storage.handle) ∧
          world.storage.renamed = false := by
        intro hgood
        obtain ⟨hafter, haligned⟩ := hsound hgood hack
        exact ⟨haligned hnot, hrenamed.symm.trans hafter⟩
      simp only
      refine ⟨happended.layout hlayout, fun _ _ => happended.opened hlayout hopen, fun hgood => ?_,
        fun hgood snapshot' hsome _ => ?_⟩
      · exact happended.kept hlayout hopen ((h.kept hgood).of_core rfl) hread hload
          fun _ => hgoodbefore hgood
      · rw [← Option.some.inj hsome]
        simp only
        rw [hretained, List.map_append, h.snapshot hgood snapshot hsnapshot (hgoodbefore hgood).2]
        rfl
    | true =>
      obtain ⟨hcurrent, hrenamed⟩ := happended.rotated
      have hlayout' : Layout storage' := happended.layout hlayout
      have hopen' : Open storage' := happended.opened hlayout hopen
      have hkept' : good → Kept json storage' := fun hgood =>
        happended.kept hlayout hopen ((h.kept hgood).of_core rfl) hread hload fun hok => by cases hok
      have hdoes : Does (Moves json) (loadAll json) storage' _ := does_loadAll hlayout'
      obtain ⟨hmoves, hreturns⟩ := hdoes
      simp only
      rcases hexec' : exec (loadAll json) storage' with ⟨e | loaded, storage''⟩
      · -- the events could not be read: the names are still new
        rw [hexec'] at hmoves
        refine ⟨hmoves.layout hlayout', fun _ _ => hmoves.opened hlayout' hopen', fun hgood => ?_,
          fun _ _ _ hrenamed'' => ?_⟩
        · exact hmoves.kept hlayout' (hkept' hgood)
        · have hsame := (core_eq_iff.mp (hmoves.same hlayout' hopen' hrenamed'')).2.2.2
          rw [hrenamed, hrenamed''] at hsame
          cases hsame
      · rw [hexec'] at hmoves hreturns
        obtain ⟨hloaded, hquiet⟩ := hreturns loaded rfl
        obtain ⟨hdisk, hhandle, -, -⟩ := core_eq_iff.mp hquiet.1
        refine inv_reloaded (hmoves.layout hlayout') ?_ (fun hgood => hmoves.kept hlayout' (hkept' hgood)) ?_
        · rw [hdisk, hhandle, hcurrent]
        · rw [hdisk]
          exact hloaded

theorem writerTurn_snapshot (world : World) (snapshot : LoadedEvents) (plan : List Outcome)
    (event : LifecycleEvent) :
    ∃ snapshot', (world.writerTurn json snapshot plan event).snapshot = some snapshot' := by
  unfold writerTurn
  rcases world.appending json plan event with ⟨_ | _ | _, storage⟩
  · exact ⟨_, rfl⟩
  · exact ⟨_, rfl⟩
  · simp only
    rcases exec (loadAll json) storage with ⟨_ | _, _⟩
    · exact ⟨_, rfl⟩
    · exact ⟨_, rfl⟩

/-- The events of a step can be written as lines, and come back as they were. -/
def Fit (json : Json) : Step → Prop
  | .append _ event => Readable json event ∧ Loadable event
  | .reopen _ => True

theorem step_inv (h : Inv json good world) {step : Step} (hfit : Fit json step)
    (hsound : good → world.Sound json step) : Inv json good (world.step json step) := by
  cases step with
  | reopen plan => exact step_reopen h plan
  | append plan event =>
    cases hsnapshot : world.snapshot with
    | none =>
      have hstep : world.step json (.append plan event) = world := by simp [World.step, hsnapshot]
      rw [hstep]
      exact h
    | some snapshot =>
      have hstep : world.step json (.append plan event) =
          world.writerTurn json snapshot plan event := by simp [World.step, hsnapshot]
      rw [hstep]
      refine writerTurn_inv h hsnapshot hfit.1 hfit.2 fun hgood hack => ?_
      rw [← hstep]
      exact hsound hgood hack

theorem inv_fresh : Inv json good fresh where
  layout :=
    have hnone (file : ℕ) : (none : Option ℕ) ≠ some file := (Option.some_ne_none file).symm
    ⟨fun _ => Nat.zero_le _, fun file h => absurd h (hnone file), fun file h => absurd h (hnone file),
      fun file h => absurd h (hnone file)⟩
  opened snapshot h := absurd h (Option.some_ne_none snapshot).symm
  kept _ := by
    refine ⟨fun _ h => absurd h List.not_mem_nil, fun file h => ?_, List.Pairwise.nil⟩
    rcases h with h | h <;> exact absurd h (Option.some_ne_none file).symm
  snapshot _ snapshot h := absurd h (Option.some_ne_none snapshot).symm

theorem foldl_inv {steps : List Step} (h : Inv json good world)
    (hfit : ∀ step ∈ steps, Fit json step) (hsound : good → world.SoundRun json steps) :
    Inv json good (steps.foldl (step json) world) := by
  induction steps generalizing world with
  | nil => exact h
  | cons step steps ih =>
    refine ih (step_inv h (hfit step List.mem_cons_self) fun hgood => (hsound hgood).1) ?_ ?_
    · exact fun step' hstep' => hfit step' (List.mem_cons_of_mem _ hstep')
    · exact fun hgood => (hsound hgood).2

theorem soundRun_append {steps : List Step} {last : Step}
    (h : world.SoundRun json (steps ++ [last])) :
    world.SoundRun json steps ∧ (steps.foldl (step json) world).Sound json last := by
  induction steps generalizing world with
  | nil => exact ⟨trivial, h.1⟩
  | cons step steps ih =>
    obtain ⟨hsteps, hlast⟩ := ih h.2
    exact ⟨⟨h.1, hsteps⟩, hlast⟩

/-- An event that is acknowledged is retained. -/
theorem retained_of_acknowledges (h : Inv json good world)
    (hack : world.acknowledges json plan event = true)
    (hrenamed : (world.step json (.append plan event)).storage.renamed = false) :
    ∃ file, (file, event) ∈ (world.step json (.append plan event)).storage.retained := by
  have hlayout : Layout { world.storage with plan } := h.layout.of_core rfl
  have happended : Appended json event { world.storage with plan }
      (world.appending json plan event) := exec_append hlayout event
  rw [acknowledges, Bool.and_eq_true] at hack
  obtain ⟨snapshot, hsnapshot⟩ := Option.isSome_iff_exists.mp hack.1
  simp only [step, hsnapshot, writerTurn] at hrenamed ⊢
  rcases hexec : world.appending json plan event with ⟨e | changed, storage'⟩
  · rw [hexec] at hack
    exact absurd hack.2 (by simp [Except.toBool])
  · rw [hexec] at happended hrenamed
    cases changed with
    | false => exact ⟨_, happended.retained⟩
    | true =>
      have hlayout' : Layout storage' := happended.layout hlayout
      have hopen' : Open storage' := happended.opened hlayout ((h.opened _ hsnapshot).of_core rfl)
      have hdoes : Does (Moves json) (loadAll json) storage' _ := does_loadAll hlayout'
      obtain ⟨hmoves, hreturns⟩ := hdoes
      simp only at hrenamed ⊢
      rcases hexec' : exec (loadAll json) storage' with ⟨e | loaded, storage''⟩
      · rw [hexec'] at hmoves hrenamed
        have hsame := (core_eq_iff.mp (hmoves.same hlayout' hopen' hrenamed)).2.2.2
        rw [happended.rotated.2] at hsame
        exact absurd (hsame.symm.trans hrenamed) (by simp)
      · rw [hexec'] at hreturns
        obtain ⟨-, hquiet⟩ := hreturns loaded rfl
        obtain ⟨-, -, hretained, -⟩ := core_eq_iff.mp hquiet.1
        refine ⟨storage'.handle, ?_⟩
        show _ ∈ storage''.retained
        rw [hretained]
        exact happended.retained

end World

theorem inv_run {steps : List Step}
    (hevents : ∀ plan event, Step.append plan event ∈ steps → Readable json event ∧ Journaled event)
    (hsound : World.fresh.SoundRun json steps) : World.Inv json True (World.run json steps) := by
  refine World.foldl_inv World.inv_fresh (fun step hstep => ?_) fun _ => hsound
  cases step with
  | append plan event =>
    obtain ⟨hread, hjournaled⟩ := hevents plan event hstep
    exact ⟨hread, hjournaled.loadable⟩
  | reopen plan => trivial

/-- `load_all` returns what is retained, if none of its calls fails. -/
theorem loadAll_retained {good : Prop} {world : World} (h : World.Inv json good world) (hgood : good)
    {plan : List Outcome} {loaded : LoadedEvents}
    (hloaded : (exec (loadAll json) { world.storage with plan }).1 = .ok loaded) :
    loaded.events = world.storage.retained.map (·.2) := by
  have hlayout : Layout { world.storage with plan } := h.layout.of_core rfl
  have hdoes : Does (Moves json) (loadAll json) { world.storage with plan } _ := does_loadAll hlayout
  obtain ⟨hevents, -⟩ := hdoes.returns loaded hloaded
  rw [hevents]
  exact (h.kept hgood).events h.layout

theorem loadAll_returns (json : Json) (storage : Storage) :
    ∃ loaded, (exec (loadAll json) { storage with plan := [] }).1 = .ok loaded := by
  rcases storage with ⟨⟨files, _ | previous, _ | current, fresh⟩, handle, bytes, plan, retained, renamed⟩
  · exact ⟨_, rfl⟩
  · exact ⟨_, rfl⟩
  · exact ⟨_, rfl⟩
  · exact ⟨_, rfl⟩

/-- In a run whose steps are all sound: the segments keep their bound, `load_all` returns the events
that are retained, in the order in which they were appended, and after an event was acknowledged it is
one of them and the snapshot has the same events. -/
theorem journal_durable (json : Json) (steps : List Step)
    (hevents : ∀ plan event, Step.append plan event ∈ steps → Readable json event ∧ Journaled event)
    (hsound : World.fresh.SoundRun json steps) :
    let world := World.run json steps
    (∀ file, world.storage.disk.previous = some file ∨ world.storage.disk.current = some file →
      (world.storage.disk.files file).length ≤ maxSegmentBytes) ∧
    (∃ loaded, (exec (loadAll json) { world.storage with plan := [] }).1 = .ok loaded) ∧
    (∀ plan loaded, (exec (loadAll json) { world.storage with plan }).1 = .ok loaded →
      loaded.events = world.storage.retained.map (·.2)) ∧
    ∀ before plan event, steps = before ++ [.append plan event] →
      (World.run json before).acknowledges json plan event = true →
        event ∈ world.storage.retained.map (·.2) ∧
        ∃ snapshot, world.snapshot = some snapshot ∧
          snapshot.events = world.storage.retained.map (·.2) := by
  intro world
  have hinv : World.Inv json True world := inv_run hevents hsound
  refine ⟨fun file _ => hinv.layout.bound file, loadAll_returns json world.storage,
    fun _ _ => loadAll_retained hinv trivial, ?_⟩
  rintro before plan event rfl hack
  obtain ⟨hsoundBefore, hlast⟩ := World.soundRun_append hsound
  have hbefore : World.Inv json True (World.run json before) :=
    inv_run (fun plan' event' hstep => hevents plan' event' (List.mem_append_left _ hstep)) hsoundBefore
  have hworld : world = (World.run json before).step json (.append plan event) := by
    show (before ++ [Step.append plan event]).foldl (World.step json) World.fresh = _
    rw [List.foldl_append]
    rfl
  have hrenamed : world.storage.renamed = false := by
    rw [hworld]
    exact (hlast hack).1
  constructor
  · rw [hworld] at hrenamed ⊢
    obtain ⟨file, hfile⟩ := World.retained_of_acknowledges hbefore hack hrenamed
    exact List.mem_map.mpr ⟨(file, event), hfile, rfl⟩
  · obtain ⟨snapshot, hsnapshot⟩ : ∃ snapshot, world.snapshot = some snapshot := by
      rw [World.acknowledges, Bool.and_eq_true] at hack
      obtain ⟨snapshot, hsnapshot⟩ := Option.isSome_iff_exists.mp hack.1
      rw [hworld]
      simp only [World.step, hsnapshot]
      exact World.writerTurn_snapshot ..
    exact ⟨snapshot, hsnapshot, hinv.snapshot trivial snapshot hsnapshot hrenamed⟩

/-! ### A torn line -/

/-- The bytes of an ASCII text. -/
def bytesOf (text : String) : List UInt8 := text.toList.map fun ch => ch.toNat.toUInt8

/-- The identity of a session. -/
def someIdentity (sessionId : String) : LifecycleIdentity :=
  ⟨sessionId.toList, "agent".toList, "%1".toList, none, none, none, 10, none, none, 0⟩

/-- The event that one session was claimed at that time. -/
def claimOf (eventId : LightTerminal.Data.Text.Uuid) (sessionId : String) (claimedAt : ℕ) :
    LifecycleEvent :=
  .triggerClaimed journalSchemaVersion eventId 1
    ⟨sessionId.toList, "agent".toList, "%1".toList, none, none, none, 10, none, none, 0⟩ claimedAt
    .leaderExited

/-- The claim of one session, -/
def firstEvent : LifecycleEvent :=
  claimOf 0x00000000000040008000000000000001#128 "00000000-0000-4000-8000-00000000000a" 20

/-- and that of another. -/
def secondEvent : LifecycleEvent :=
  claimOf 0x00000000000040008000000000000002#128 "00000000-0000-4000-8000-00000000000b" 30

/-- Such an event as `serde_json` writes it, for two ids that differ in the last digit. -/
def claimText (eventDigit sessionDigit claimedAt : String) : List UInt8 :=
  ["\x7b\"kind\":", "\"trigger_claimed\",", "\"schema_version\":", "\"1.0\",", "\"event_id\":",
    "\"00000000-0000-", "4000-8000-", "00000000000", eventDigit, "\",\"event_seq\":1,",
    "\"session_id\":", "\"00000000-0000-", "4000-8000-", "00000000000", sessionDigit,
    "\",\"name\":", "\"agent\",", "\"pane_id\":\"%1\",", "\"created_unix_ms\":", "10,",
    "\"attached_clients\":", "0,", "\"trigger_claimed_", "unix_ms\":", claimedAt,
    ",\"trigger\":", "\x7b\"type\":", "\"leader_exited\"", "\x7d\x7d"].flatMap bytesOf

/-- The texts of the two. -/
def someText (event : LifecycleEvent) : List UInt8 :=
  if event.eventId = 0x00000000000040008000000000000001#128 then claimText "1" "a" "20"
  else claimText "2" "b" "30"

/-- The two are read back from their texts, and no other bytes are an event. -/
def someJson : Json where
  toVec := someText
  fromSlice bytes := [firstEvent, secondEvent].find? fun event => someText event = bytes

/-- The write of the first event fails after its first byte. -/
def tornPlan : List Outcome := [.done, .done, .done, .failed 1]

/-- The journal is opened, the first event is torn, the second is appended. -/
def tornSteps : List Step := [.reopen [], .append tornPlan firstEvent, .append [] secondEvent]

/-- The second event is acknowledged, but stands behind the beginning of the first in one line:
`load_all` does not return it, and the snapshot has it. -/
theorem torn_event_lost :
    (World.run someJson (tornSteps.take 2)).acknowledges someJson [] secondEvent = true ∧
      (World.run someJson tornSteps).storage.renamed = false ∧
      (World.run someJson tornSteps).storage.retained.map (·.2) = [secondEvent] ∧
      (World.run someJson tornSteps).snapshot.map (·.events) = some [secondEvent] ∧
      (exec (loadAll someJson) (World.run someJson tornSteps).storage).1.map (·.events) = .ok [] := by
  decide +kernel

/-- Without the failure nothing is torn. -/
def twoSteps : List Step := [.reopen [], .append [] firstEvent, .append [] secondEvent]

theorem journaled_claimOf {eventId : LightTerminal.Data.Text.Uuid} {sessionId : String}
    {claimedAt : ℕ} (hid : IsId sessionId.toList) (hclaimed : claimedAt ≤ 2 ^ 64 - 1) :
    Journaled (claimOf eventId sessionId claimedAt) := by
  have hname : Plain "agent".toList maxNameBytes :=
    ⟨List.all_iff_forall_prop.mp (by decide), by decide⟩
  have hpane : Plain "%1".toList maxPaneBytes :=
    ⟨List.all_iff_forall_prop.mp (by decide), by decide⟩
  have hsession : FromSession (someIdentity sessionId) :=
    ⟨hid, ⟨hname, by simp [someIdentity]⟩, ⟨hpane, by simp [someIdentity]⟩, nofun, nofun, nofun⟩
  have hevent : triggerClaimed eventId (someIdentity sessionId) claimedAt .leaderExited =
      claimOf eventId sessionId claimedAt := by
    simp only [triggerClaimed, claimOf, LifecycleIdentity.stored, someIdentity, toU64,
      sanitizedField_of_plain hid.1, sanitizedField_of_plain hname, sanitizedField_of_plain hpane,
      min_eq_left hclaimed, Option.map_none]
    rfl
  rw [← hevent]
  exact .claimed eventId claimedAt hsession trivial

theorem journaled_firstEvent : Journaled firstEvent :=
  journaled_claimOf ⟨⟨List.all_iff_forall_prop.mp (by decide), by decide⟩, by decide⟩
    (by decide)

theorem journaled_secondEvent : Journaled secondEvent :=
  journaled_claimOf ⟨⟨List.all_iff_forall_prop.mp (by decide), by decide⟩, by decide⟩
    (by decide)

set_option maxRecDepth 4000 in
theorem twoSteps_events : ∀ plan event, Step.append plan event ∈ twoSteps →
    Readable someJson event ∧ Journaled event := by
  intro plan event hstep
  have hcases : event = firstEvent ∨ event = secondEvent := by
    simp only [twoSteps, List.mem_cons, Step.append.injEq, List.not_mem_nil, or_false, reduceCtorEq,
      false_or] at hstep
    exact hstep.imp (·.2) (·.2)
  rcases hcases with rfl | rfl
  · exact ⟨⟨by decide, by decide⟩, journaled_firstEvent⟩
  · exact ⟨⟨by decide, by decide⟩, journaled_secondEvent⟩

set_option maxRecDepth 4000 in
theorem twoSteps_sound : World.fresh.SoundRun someJson twoSteps :=
  ⟨trivial, fun _ => ⟨by decide, fun _ => by decide⟩,
    fun _ => ⟨by decide, fun _ => by decide⟩, trivial⟩

theorem journal_durable_two : World.fresh.SoundRun someJson twoSteps ∧
    ∀ plan loaded,
      (exec (loadAll someJson) { (World.run someJson twoSteps).storage with plan }).1 = .ok loaded →
        loaded.events = (World.run someJson twoSteps).storage.retained.map (·.2) :=
  ⟨twoSteps_sound, (journal_durable someJson twoSteps twoSteps_events twoSteps_sound).2.2.1⟩

end LightTerminal.Session.Journal
