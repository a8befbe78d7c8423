import LightTerminal.Library.Crash
import LightTerminal.Library.Run
import LightTerminal.LaunchRegistry.Store

/-! # The migration of the slot files

A registry with slot files of version 1 gets a directory of files of version 2 when it is opened
(`open_at`, `migrate_v1_slots` and what they call). The new directory is built beside the old one,
published under a staging name, exchanged with the old one by one rename, and marked; then the old one
is removed. What an opening that did not get to its end left behind is finished or removed by the
next one.

An opening may be cut off after any change to the file system; one that fails is cut off too, and its
`TempTree` may then remove some of what was built (`Event.dropTempTree`). The directories under the
root are in three lists, by the prefix of their names. A directory has the files of its slots and a
number of others (`strays`), which are temporary files of `atomic_replace_json`. The uuids of new names
are inputs (`Io`).

Launches of the old version hold the guard of their slot while they write its file. `records` is what
was written last to each slot, in the form of version 2; no operation reads it. -/

namespace LightTerminal.LaunchRegistry.Migration

open LightTerminal.Data.Text LightTerminal.Library LightTerminal.Library.Procedure
open LightTerminal.Library.Crash
open LightTerminal.LaunchRegistry.Record LightTerminal.LaunchRegistry.Store

/-! ### Records of version 1 -/

/-- `SlotRecordV1`. -/
structure SlotRecordV1 where
  schemaVersion : ℕ
  slot : ℕ
  generation : ℕ
  owner : Option ManagedOwnerTag
  state : SlotState
  deriving DecidableEq, Repr

/-- A slot file as a `SlotRecordV1`. -/
def toV1 (record : SlotRecord) : SlotRecordV1 :=
  ⟨record.schemaVersion, record.slot, record.generation, record.owner, record.state⟩

/-- `validate_v1_slot_json`. Of the fields that a slot file may have, version 1 does not know the
binding. -/
def validateV1SlotJson (value : SlotRecord) : Result Unit :=
  ensure (value.artifactBinding = none) "legacy managed slot contains unknown fields"

/-- `validate_v1_slot_record`. -/
def validateV1SlotRecord (record : SlotRecordV1) (expectedSlot : ℕ) : Result Unit := do
  ensure (record.schemaVersion = 1) "legacy managed slot schema mismatch"
  ensure (record.slot = expectedSlot) "Condition failed: `record.slot == expected_slot`"
  optional ManagedOwnerTag.validate record.owner
  match record.state.nonce with
  | none => ensure (record.owner = none) "vacant v1 slot retained an owner"
  | some nonce => ensure (Uuid.isNil nonce = false) "Condition failed: `!nonce.is_nil()`"

/-- The record of version 2 that `migrate_v1_slots` makes. -/
def migrated (record : SlotRecordV1) : SlotRecord where
  schemaVersion := slotSchemaVersion
  slot := record.slot
  generation := record.generation
  owner := record.owner
  artifactBinding := none
  state := record.state

/-- What a record of version 1 is written as. -/
def SlotRecordV1.file (record : SlotRecordV1) : SlotFile :=
  .record { migrated record with schemaVersion := record.schemaVersion }

/-! ### The root -/

/-- A directory: its slot files, and the number of its other files. -/
structure Dir where
  files : List (ℕ × SlotFile)
  strays : ℕ
  deriving DecidableEq

/-- The number of entries of a directory. -/
def Dir.entries (dir : Dir) : ℕ := dir.files.length + dir.strays

/-- Directories by the uuid in their names. -/
abbrev Trees := List (Uuid × Dir)

/-- A directory replaced. -/
def Trees.update (trees : Trees) (name : Uuid) (f : Dir → Dir) : Trees :=
  trees.map fun tree => if tree.1 = name then (name, f tree.2) else tree

/-- A directory renamed or removed. -/
def Trees.without (trees : Trees) (name : Uuid) : Trees := trees.filter (·.1 ≠ name)

/-- The root: the slots, the directories with the prefixes `.slots-v2-build-`, `.slots-v2-create-` and
`.slots-v2-gc-`, the file `slot-schema-v2` and its temporary file, and the guards that are held. -/
structure Root where
  slots : Dir
  building : Trees
  staging : Trees
  garbage : Trees
  marker : Option String
  markerTemp : Option String
  guards : ℕ → Bool
  records : List SlotRecord

/-- What an opening meets: whether the registry lock is busy, the uuids it draws, and what the launches
that hold guards do before the guard of a slot is probed. -/
structure Io (LegacyAction : Type) where
  registryBusy : Bool
  generation : Uuid
  reclaim : ℕ → Uuid
  retire : ℕ → Uuid
  meanwhile : ℕ → List LegacyAction

/-! ### Launches of the old version -/

/-- What a launch of the old version does that holds the guard of its slot: it replaces the slot file,
ends, or dies while it replaces the file. -/
inductive LegacyAction where
  | write (record : SlotRecordV1)
  | finish (slot : ℕ)
  | die (slot : ℕ)

/-- A slot file replaced. -/
def Dir.replace (dir : Dir) (slot : ℕ) (file : SlotFile) : Dir :=
  { dir with files := dir.files.map fun entry => if entry.1 = slot then (slot, file) else entry }

/-- A record written. -/
def Root.write (root : Root) (record : SlotRecord) (file : SlotFile) : Root :=
  { root with
    slots := root.slots.replace record.slot file
    records := root.records.set record.slot record }

/-- The guard of a slot released. -/
def Root.release (root : Root) (slot : ℕ) : Root :=
  { root with guards := Function.update root.guards slot false }

/-- A slot file replaced by the launch that holds the guard. -/
def Root.legacyWrite (root : Root) (record : SlotRecordV1) : Root :=
  if root.guards record.slot ∧ validateV1SlotRecord record record.slot = .ok () then
    root.write (migrated record) record.file
  else root

/-- A launch dies that holds the guard, and leaves a temporary file behind. -/
def Root.die (root : Root) (slot : ℕ) : Root :=
  if root.guards slot then
    { root.release slot with slots := { root.slots with strays := root.slots.strays + 1 } }
  else root

/-- An action of a launch that holds its guard. -/
def LegacyAction.step (root : Root) : LegacyAction → Root
  | .write record => root.legacyWrite record
  | .finish slot => root.release slot
  | .die slot => root.die slot

/-- Several actions. -/
def legacyActs (root : Root) (actions : List LegacyAction) : Root :=
  actions.foldl LegacyAction.step root

/-! ### Reading -/

section Registry

variable (slotCount : ℕ)

/-- `read_bounded_json` of a slot file. -/
def readBoundedJson (dir : Dir) (slot : ℕ) : Result SlotRecord :=
  match dir.files.lookup slot with
  | some (.record value) => .ok value
  | some (.unreadable reason) => .error (.error reason)
  | none => .error (.error ("open " ++ slotName slot))

/-- A slot file of either version; `legacy` is what has to hold for version 1. -/
def readSlot (dir : Dir) (legacy : Result Unit) (unsupported : ℕ → String) (slot : ℕ) :
    Result (SlotRecordV1 ⊕ SlotRecord) := do
  let value ← readBoundedJson dir slot
  if value.schemaVersion = slotSchemaVersion then do
    validateSlotRecord value slot
    return .inr value
  else if value.schemaVersion = 1 then do
    legacy
    validateV1SlotJson value
    validateV1SlotRecord (toV1 value) slot
    return .inl (toV1 value)
  else .error (.error (unsupported value.schemaVersion))

/-- All slot files of a directory. -/
def readSlots (dir : Dir) (legacy : Result Unit) (unsupported : ℕ → String) :
    Result (List (SlotRecordV1 ⊕ SlotRecord)) :=
  (List.range slotCount).mapM (readSlot dir legacy unsupported)

/-- The legacy records among those read. -/
def legacyOf (read : List (SlotRecordV1 ⊕ SlotRecord)) : List SlotRecordV1 :=
  read.filterMap Sum.getLeft?

/-- The current records among those read. -/
def currentOf (read : List (SlotRecordV1 ⊕ SlotRecord)) : List SlotRecord :=
  read.filterMap Sum.getRight?

/-- `slot_schema_marker_ready`. -/
def slotSchemaMarkerReady (root : Root) : Result Bool :=
  match root.marker with
  | none => .ok false
  | some bytes => do
    ensure (bytes = "2\n") "managed slot schema marker is invalid"
    return true

/-- `current_schema_ready_without_migration`. -/
def currentSchemaReadyWithoutMigration (root : Root) : Result Bool := do
  if (← slotSchemaMarkerReady root) = false then return false
  else if root.staging ≠ [] ∨ root.building ≠ [] ∨ root.garbage ≠ [] then return false
  else do
    let _ ← (List.range slotCount).mapM fun slot => do
      let value ← readBoundedJson root.slots slot
      ensure (value.schemaVersion = slotSchemaVersion)
        "managed schema marker published over a non-v2 slot"
      validateSlotRecord value slot
    return true

/-- `StagedSlotGeneration`. -/
inductive StagedSlotGeneration where
  | legacy (path : Uuid) (records : List SlotRecordV1)
  | current (path : Uuid) (records : List SlotRecord)

/-- `StagedSlotGeneration::path`. -/
def StagedSlotGeneration.path : StagedSlotGeneration → Uuid
  | .legacy path _ => path
  | .current path _ => path

/-- A staged generation in `scan_staged_slot_generations`. -/
def scanStagedSlotGeneration (tree : Uuid × Dir) : Result StagedSlotGeneration := do
  ensure (tree.2.entries = slotCount) "managed slot migration generation has unexpected entries"
  let read ← readSlots slotCount tree.2 (.ok ())
    fun _ => "managed slot migration generation schema is invalid"
  ensure (legacyOf read = [] ∨ currentOf read = []) "managed slot migration generation is mixed"
  return if legacyOf read = [] then .current tree.1 (currentOf read)
    else .legacy tree.1 (legacyOf read)

/-- `scan_staged_slot_generations`. -/
def scanStagedSlotGenerations (root : Root) : Result (List StagedSlotGeneration) := do
  let staged ← (root.staging.take 8).mapM (scanStagedSlotGeneration slotCount)
  ensure (root.staging.length ≤ 8) "too many managed slot migration generations"
  return staged

/-- `legacy_generation_matches_current`. -/
def legacyGenerationMatchesCurrent (legacy : List SlotRecordV1) (current : List SlotRecord) :
    Result Unit := do
  ensure (legacy.length = slotCount ∧ current.length = slotCount)
    "managed migration generation is incomplete"
  ensure (∀ pair ∈ legacy.zip current, pair.2 = migrated pair.1)
    "managed migration rollback generation does not match active v2"

/-! ### Steps -/

/-- A step that changes the root. -/
abbrev Step := CutProc Failure Root

/-- A change that may fail before it is made. -/
def change (check : Root → Result Unit) (f : Root → Root) : Step Unit :=
  atomically do
    let root ← get
    liftM (check root)
    set (f root)

/-- A target that exists already. -/
def taken (trees : Trees) (name : Uuid) : Bool := trees.any (·.1 = name)

/-- `rename_noreplace` of a directory with the build prefix to one with the gc prefix. -/
def quarantineBuild (name gc : Uuid) : Step Unit :=
  change
    (fun root => ensure (taken root.garbage gc = false)
      "quarantine incomplete managed migration generation")
    fun root =>
      { root with
        building := root.building.without name
        garbage := root.garbage ++ (root.building.filter (·.1 = name)).map fun tree => (gc, tree.2) }

/-- `rename_noreplace` of a directory with the staging prefix to one with the gc prefix. -/
def quarantineStaged (name gc : Uuid) : Step Unit :=
  change
    (fun root => ensure (taken root.garbage gc = false)
      "quarantine retired managed slot generation")
    fun root =>
      { root with
        staging := root.staging.without name
        garbage := root.garbage ++ (root.staging.filter (·.1 = name)).map fun tree => (gc, tree.2) }

/-- A slot file of a directory to be removed. -/
def removeSlotFile (gc : Uuid) (slot : ℕ) : Step Unit :=
  change (fun _ => ensure (slot < slotCount) "managed migration GC entry name is invalid")
    fun root =>
      { root with
        garbage := root.garbage.update gc fun dir =>
          { dir with files := dir.files.filter (·.1 ≠ slot) } }

/-- The slot files of a directory to be removed. -/
def removeSlotFiles (gc : Uuid) : List ℕ → Step Unit
  | [] => pure ()
  | slot :: slots => do
    removeSlotFile slotCount gc slot
    removeSlotFiles gc slots

/-- `remove_migration_gc_tree`. The entries that are no slot files come last. -/
def removeMigrationGcTree (gc : Uuid) : Step Unit := do
  let root ← current
  let dir := (root.garbage.lookup gc).getD ⟨[], 0⟩
  check (ensure (dir.entries ≤ slotCount) "managed migration GC tree has too many entries")
  removeSlotFiles slotCount gc (dir.files.map Prod.fst)
  check (ensure (dir.strays = 0) "managed migration GC entry name is invalid")
  change (fun _ => .ok ()) fun root => { root with garbage := root.garbage.without gc }

/-- The directories with the build prefix in `reclaim_migration_work_directories`. -/
def reclaimBuilds (io : Io LegacyAction) : ℕ → List Uuid → Step Unit
  | _, [] => pure ()
  | i, name :: names => do
    quarantineBuild name (io.reclaim i)
    removeMigrationGcTree slotCount (io.reclaim i)
    reclaimBuilds io (i + 1) names

/-- The directories with the gc prefix in `reclaim_migration_work_directories`. -/
def reclaimGarbage : List Uuid → Step Unit
  | [] => pure ()
  | name :: names => do
    removeMigrationGcTree slotCount name
    reclaimGarbage names

/-- `reclaim_migration_work_directories`. -/
def reclaimMigrationWorkDirectories (io : Io LegacyAction) : Step Unit := do
  let root ← current
  check (ensure (root.building.length + root.garbage.length ≤ 16)
    "too many managed migration work trees")
  reclaimGarbage slotCount (root.garbage.map Prod.fst)
  reclaimBuilds slotCount io 0 (root.building.map Prod.fst)

/-- `remove_staged_slot_generation`. -/
def removeStagedSlotGeneration (path gc : Uuid) : Step Unit := do
  quarantineStaged path gc
  removeMigrationGcTree slotCount gc

/-- A temporary file that an earlier `publish_slot_schema_marker` left, removed. -/
def removeMarkerTemp (present : Bool) : Step Unit :=
  if present then change (fun _ => .ok ()) fun root => { root with markerTemp := none } else pure ()

/-- `publish_slot_schema_marker`. -/
def publishSlotSchemaMarker : Step Unit := do
  let root ← current
  removeMarkerTemp root.markerTemp.isSome
  change (fun root => ensure root.markerTemp.isNone "create .slot-schema-v2.create")
    fun root => { root with markerTemp := some "" }
  change (fun _ => .ok ()) fun root => { root with markerTemp := some "2\n" }
  change (fun root => ensure root.marker.isNone "File exists") fun root =>
    { root with marker := root.markerTemp, markerTemp := none }

/-! ### The migration -/

/-- The checks of `migrate_v1_slots` on an active generation of version 2. -/
def checkCurrent (markerReady : Bool) (records : List SlotRecord)
    (staged : List StagedSlotGeneration) : Result Unit := do
  ensure (records.length = slotCount) "managed v2 slot generation is incomplete"
  ensure (staged.length ≤ 1) "multiple managed migration generations are ambiguous"
  match markerReady, staged.head? with
  | _, some (.legacy _ legacy) => legacyGenerationMatchesCurrent slotCount legacy records
  | true, some (.current _ current) =>
    ensure (current = records) "stale managed v2 staging generation is not active v2"
  | true, none => return ()
  | false, _ => .error (.error "unmarked managed v2 generation lacks rollback evidence")

/-- The staged generations removed. -/
def removeStagedSlotGenerations (io : Io LegacyAction) : ℕ → List StagedSlotGeneration → Step Unit
  | _, [] => pure ()
  | i, staged :: rest => do
    removeStagedSlotGeneration slotCount staged.path (io.retire i)
    removeStagedSlotGenerations io (i + 1) rest

/-- The marker, if it is not there. -/
def publishUnlessReady (markerReady : Bool) : Step Unit :=
  if markerReady then pure () else publishSlotSchemaMarker

/-- `migrate_v1_slots` if the active generation is of version 2. -/
def completeMigration (io : Io LegacyAction) (markerReady : Bool) (records : List SlotRecord)
    (staged : List StagedSlotGeneration) : Step Unit := do
  check (checkCurrent slotCount markerReady records staged)
  publishUnlessReady markerReady
  removeStagedSlotGenerations slotCount io 0 staged

/-- The staged generations removed before an active generation of version 1 is migrated. -/
def removeStale (io : Io LegacyAction) : ℕ → List StagedSlotGeneration → Step Unit
  | _, [] => pure ()
  | _, .legacy _ _ :: _ =>
    throw (.failed (.error "legacy active generation has ambiguous legacy staging evidence"))
  | i, .current path _ :: rest => do
    removeStagedSlotGeneration slotCount path (io.retire i)
    removeStale io (i + 1) rest

/-- The guard of a slot, probed. -/
def probeGuard (io : Io LegacyAction) (slot : ℕ) : Step Unit :=
  atomically do
    let root ← get
    set (legacyActs root (io.meanwhile slot))
    liftM (ensure ((legacyActs root (io.meanwhile slot)).guards slot = false)
      ("managed slot " ++ toString slot ++ " is busy during migration"))

/-- The guards of the slots, probed one after the other. -/
def probeGuards (io : Io LegacyAction) : List ℕ → Step Unit
  | [] => pure ()
  | slot :: slots => do
    probeGuard io slot
    probeGuards io slots

/-- A slot file after the quiescence. -/
def rereadSlot (dir : Dir) (slot : ℕ) : Result SlotRecordV1 := do
  let value ← readBoundedJson dir slot
  ensure (value.schemaVersion = 1) "managed v1 slot generation changed during migration"
  validateV1SlotJson value
  validateV1SlotRecord (toV1 value) slot
  return toV1 value

/-- `create_exact_dir` of the building directory. -/
def createBuilding (name : Uuid) : Step Unit :=
  change (fun root => ensure (taken root.building name = false) "File exists")
    fun root => { root with building := root.building ++ [(name, ⟨[], 0⟩)] }

/-- A file in the building directory. -/
def putBuilt (name : Uuid) (slot : ℕ) (file : SlotFile) : Step Unit :=
  change (fun _ => .ok ()) fun root =>
    { root with
      building := root.building.update name fun dir =>
        { dir with files := dir.files.filter (·.1 ≠ slot) ++ [(slot, file)] } }

/-- The files of the building directory: each is created and then written. -/
def buildSlots (name : Uuid) : List SlotRecordV1 → Step Unit
  | [] => pure ()
  | record :: records => do
    check (validateSlotRecord (migrated record) record.slot)
    putBuilt name record.slot (.unreadable "parse durable JSON record")
    putBuilt name record.slot (.record (migrated record))
    buildSlots name records

/-- `rename_noreplace` of the building directory to the staging name. -/
def publishStaging (name : Uuid) : Step Unit :=
  change
    (fun root => ensure (taken root.staging name = false)
      "publish complete managed migration staging generation")
    fun root =>
      { root with
        building := root.building.without name
        staging := root.staging ++ root.building.filter (·.1 = name) }

/-- `rename_exchange` of the staged directory and the slots. -/
def exchangeSlots (name : Uuid) : Step Unit :=
  change (fun _ => .ok ()) fun root =>
    { root with
      slots := (root.staging.lookup name).getD root.slots
      staging := root.staging.update name fun _ => root.slots }

/-- What `migrate_v1_slots` checks after the exchange: the path of the old generation. -/
def readBack (root : Root) : Result Uuid := do
  let records ← (List.range slotCount).mapM fun slot => do
    let value ← readBoundedJson root.slots slot
    validateSlotRecord value slot
    return value
  match ← scanStagedSlotGenerations slotCount root with
  | [.legacy path legacy] => do
    legacyGenerationMatchesCurrent slotCount legacy records
    return path
  | [.current _ _] => .error (.error "managed rollback generation has the wrong schema")
  | _ => .error (.error "managed rollback generation is missing")

/-- `migrate_v1_slots` if the active generation is of version 1. -/
def startMigration (io : Io LegacyAction) (legacyRecords : List SlotRecordV1)
    (staged : List StagedSlotGeneration) : Step Unit := do
  check (ensure (legacyRecords.length = slotCount) "managed v1 slot generation is incomplete")
  check (ensure (staged.length ≤ 1) "multiple managed migration generations are ambiguous")
  removeStale slotCount io 0 staged
  probeGuards io (List.range slotCount)
  let root ← current
  let records ← check ((List.range slotCount).mapM (rereadSlot root.slots))
  createBuilding io.generation
  buildSlots io.generation records
  publishStaging io.generation
  exchangeSlots io.generation
  let root ← current
  let path ← check (readBack slotCount root)
  publishSlotSchemaMarker
  removeStagedSlotGeneration slotCount path (io.retire 1)

/-- What `migrate_v1_slots` finds: the marker, both kinds of records, and the staged generations. -/
structure Found where
  markerReady : Bool
  legacy : List SlotRecordV1
  current : List SlotRecord
  staged : List StagedSlotGeneration

/-- The reading of `migrate_v1_slots`. -/
def find (root : Root) : Result Found := do
  let markerReady ← slotSchemaMarkerReady root
  let read ← readSlots slotCount root.slots
    (ensure (markerReady = false) "managed schema marker published over a legacy slot")
    fun version => "unsupported managed slot schema version " ++ toString version
  ensure (legacyOf read = [] ∨ currentOf read = [])
    "mixed managed slot schema generation is invalid"
  let staged ← scanStagedSlotGenerations slotCount root
  return ⟨markerReady, legacyOf read, currentOf read, staged⟩

/-- `migrate_v1_slots`. -/
def migrateV1Slots (io : Io LegacyAction) : Step Unit := do
  check (ensure (io.registryBusy = false) "managed registry schema migration is busy")
  reclaimMigrationWorkDirectories slotCount io
  let root ← current
  let found ← check (find slotCount root)
  if found.legacy = [] then
    completeMigration slotCount io found.markerReady found.current found.staged
  else startMigration slotCount io found.legacy found.staged

/-- `open_at` of a registry that exists. -/
def openAt (io : Io LegacyAction) : Step Unit := do
  let root ← current
  let ready ← check (currentSchemaReadyWithoutMigration slotCount root)
  if ready then pure () else migrateV1Slots slotCount io

/-! ### Runs -/

/-- The registry can be used. -/
def Root.ready (root : Root) : Bool :=
  match currentSchemaReadyWithoutMigration slotCount root with
  | .ok ready => ready
  | .error _ => false

/-- What happens to a registry: an opening, cut off after a number of changes; what the `TempTree` of one
that failed removes; a launch of the old version that takes its guard, and what it does; and a record
that is written through an open registry. -/
inductive Event where
  | open (io : Io LegacyAction) (budget : ℕ)
  | dropTempTree (name : Uuid) (kept : Option (List ℕ))
  | guard (slot : ℕ)
  | legacy (action : LegacyAction)
  | write (record : SlotRecord)
  | strand

/-- A part of a directory removed, or all of it. -/
def dropTree (trees : Trees) (name : Uuid) : Option (List ℕ) → Trees
  | none => trees.without name
  | some kept => trees.update name fun dir =>
    { dir with files := dir.files.filter (·.1 ∈ kept) }

/-- A launch of the old version refuses slots that are not of version 1. -/
def Root.isLegacy (root : Root) (slot : ℕ) : Bool :=
  match root.slots.files.lookup slot with
  | some (.record record) => record.schemaVersion = 1
  | _ => false

/-- An event. -/
def step (root : Root) : Event → Root
  | .open io budget => (outcome (openAt slotCount io) root budget).2.state
  | .dropTempTree name kept => { root with building := dropTree root.building name kept }
  | .guard slot =>
    if root.isLegacy slot then { root with guards := Function.update root.guards slot true }
    else root
  | .legacy action => action.step root
  | .write record =>
    if root.ready slotCount ∧ validateSlotRecord record record.slot = .ok () then
      root.write record (.record record)
    else root
  | .strand =>
    if root.ready slotCount then
      { root with slots := { root.slots with strays := root.slots.strays + 1 } }
    else root

/-- The root after some events. -/
def run (root : Root) (events : List Event) : Root := Run.run (step slotCount) root events

end Registry

/-! ### Directories as they should be -/

/-- The files of version 2 of some records. -/
def currentFiles (records : List SlotRecord) : List (ℕ × SlotFile) :=
  records.map fun record => (record.slot, .record record)

/-- The files of version 1 of some records. -/
def legacyFiles (records : List SlotRecord) : List (ℕ × SlotFile) :=
  records.map fun record => (record.slot, .record { record with schemaVersion := 1 })

/-- The root of a registry of the old version, with these records. -/
def legacyRoot (records : List SlotRecord) : Root where
  slots := ⟨legacyFiles records, 0⟩
  building := []
  staging := []
  garbage := []
  marker := none
  markerTemp := none
  guards := fun _ => false
  records

/-- The root that `ensure_genesis` makes. -/
def genesisRoot (slotCount : ℕ) : Root :=
  let records := (List.range slotCount).map fun slot =>
    { schemaVersion := slotSchemaVersion, slot, generation := 0, owner := none,
      artifactBinding := none, state := .vacant }
  { legacyRoot records with slots := ⟨currentFiles records, 0⟩, marker := some "2\n" }

end LightTerminal.LaunchRegistry.Migration
