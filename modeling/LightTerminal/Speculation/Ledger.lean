import LightTerminal.Library.Run
import LightTerminal.Library.Tokens
import LightTerminal.Speculation.Record

/-! # The ledger of the clients

A client keeps the state of its tournament in a file of the ledger directory, `ClientLedger` of
`speculation_ledger.rs`. A client that wants to replace the file presents the entry that it read or
wrote before. All rules are checked on this entry; of the file only the device and the inode number are
compared with it (`atomic_replace_json` of `speculation_fs.rs`).

Mutations of the directory exclude one another by a lock, so each is one step here, with the identity
of the new file and the outcome of its system calls from outside. A read is two steps: the file is open
from the first to the second, and may be replaced in between. Nothing is open for an entry that a
client holds.

* `Possible`: a new file does not get the identity of a file that is linked or open.
* `Unreused`: nor that of an entry which a client holds for the same tournament. The code does not
  see to this.
* `requests_never_undone`: where it is so, the ledger is a register with compare-and-swap. -/

namespace LightTerminal.Speculation.Ledger

open LightTerminal.Data.Text LightTerminal.Library.Procedure LightTerminal.Library.Run
open LightTerminal.Library.Tokens
open LightTerminal.Speculation.Phase LightTerminal.Speculation.Record

/-! ### Records -/

/-- `LedgerAction`. -/
inductive LedgerAction where
  | prepared
  | armRequested
  | statusMirrored
  | finalizeRequested
  | rollbackRequested
  deriving DecidableEq, Repr

/-- `LedgerAction::is_requested`. -/
def LedgerAction.isRequested : LedgerAction → Bool
  | .armRequested | .finalizeRequested | .rollbackRequested => true
  | _ => false

/-- `ClientRootIdentities`. -/
structure ClientRootIdentities where
  source : DurableDirectoryIdentity
  candidates : Pair DurableDirectoryIdentity
  ledgerRoot : DurableDirectoryIdentity
  cgroupRoot : DurableDirectoryIdentity
  deriving DecidableEq, Repr

/-- `all_roots_share_boot`. -/
def allRootsShareBoot (roots : ClientRootIdentities) : Prop :=
  roots.source.bootUuid = roots.ledgerRoot.bootUuid ∧
    roots.cgroupRoot.bootUuid = roots.ledgerRoot.bootUuid ∧
    roots.candidates.All fun identity => identity.bootUuid = roots.ledgerRoot.bootUuid
  deriving Decidable

/-- `ClientLedgerRecord`; its schema has one version. -/
structure ClientLedgerRecord where
  tournamentUuid : Uuid
  daemonInstanceUuid : Uuid
  generation : ℕ
  action : LedgerAction
  roots : ClientRootIdentities
  status : SpeculationStatus
  deriving DecidableEq, Repr

/-- `ClientLedgerRecord::validate`. -/
def ClientLedgerRecord.validate (record : ClientLedgerRecord) : EvidenceResult Unit := do
  ensure (¬(Uuid.isNil record.tournamentUuid = true ∨ Uuid.isNil record.daemonInstanceUuid = true ∨
    record.generation = 0 ∨ record.tournamentUuid ≠ record.status.tournamentUuid ∨
    record.daemonInstanceUuid ≠ record.status.daemonInstanceUuid ∨
    record.generation ≠ record.status.generation ∨ record.status.candidates.zero.index ≠ 0 ∨
    record.status.candidates.one.index ≠ 1 ∨ ¬allRootsShareBoot record.roots)) .corrupt
  ensure (¬(record.action = .prepared ∧ record.status.phase ≠ .prepared)) .corrupt

/-- `ClientLedgerRecord::same_identity_as`. -/
def ClientLedgerRecord.sameIdentityAs (record other : ClientLedgerRecord) : Prop :=
  record.tournamentUuid = other.tournamentUuid ∧
    record.daemonInstanceUuid = other.daemonInstanceUuid ∧ record.roots = other.roots
  deriving Decidable

/-- `FileIdentity`. -/
structure FileIdentity where
  dev : ℕ
  ino : ℕ
  deriving DecidableEq, Repr

/-- `ClientLedgerEntry`, a `StoredJson`. -/
structure ClientLedgerEntry where
  value : ClientLedgerRecord
  identity : FileIdentity
  deriving DecidableEq, Repr

/-! ### The directory -/

/-- The ledger directory: the file of each tournament, by `record_leaf`. -/
abbrev Files := Uuid → Option ClientLedgerEntry

/-- What the system makes of a mutation: all goes well, or a call fails before the new file has its
name, or after that. -/
inductive Outcome where
  | done
  | failsBefore (error : EvidenceError)
  | failsAfter (error : EvidenceError)
  deriving DecidableEq, Repr

/-- The part of the system in a mutation: the identity of the new file, and the outcome. -/
structure System where
  identity : FileIdentity
  outcome : Outcome
  deriving DecidableEq, Repr

/-- A mutation of the directory. -/
abbrev LedgerOp := Proc EvidenceError Files

/-- The new file gets its name; later calls may fail. -/
def publish (leaf : Uuid) (value : ClientLedgerRecord) (system : System) :
    LedgerOp ClientLedgerEntry := do
  let entry : ClientLedgerEntry := { value, identity := system.identity }
  modify fun files => Function.update files leaf (some entry)
  match system.outcome with
  | .failsAfter error => throw error
  | _ => return entry

/-- `atomic_create_json`. -/
def atomicCreateJson (leaf : Uuid) (value : ClientLedgerRecord) (system : System) :
    LedgerOp ClientLedgerEntry := do
  match system.outcome with
  | .failsBefore error => throw error
  | _ =>
    let files ← get
    ensure (files leaf = none) .alreadyExists
    publish leaf value system

/-- `atomic_replace_json`. -/
def atomicReplaceJson (leaf : Uuid) (expected : FileIdentity) (value : ClientLedgerRecord)
    (system : System) : LedgerOp ClientLedgerEntry := do
  match system.outcome with
  | .failsBefore error => throw error
  | _ =>
    let files ← get
    let current ← liftM (expect (files leaf) EvidenceError.missing)
    ensure (current.identity = expected) .stale
    publish leaf value system

/-! ### The ledger -/

/-- `ClientLedger::require_current_root`. -/
def requireCurrentRoot (root : DurableDirectoryIdentity) (record : ClientLedgerRecord) :
    EvidenceResult Unit :=
  ensure (record.roots.ledgerRoot = root) .stale

/-- `ClientLedger::create_prepared`. -/
def createPrepared (root : DurableDirectoryIdentity) (record : ClientLedgerRecord)
    (system : System) : LedgerOp ClientLedgerEntry := do
  record.validate
  ensure (¬(record.action ≠ .prepared ∨ record.roots.ledgerRoot ≠ root)) .invalidIdentity
  atomicCreateJson record.tournamentUuid record system

/-- `ClientLedger::write_before_action`. -/
def writeBeforeAction (root : DurableDirectoryIdentity) (current : ClientLedgerEntry)
    (next : ClientLedgerRecord) (action : LedgerAction) (generation : ℕ) (system : System) :
    LedgerOp ClientLedgerEntry := do
  current.value.validate
  next.validate
  requireCurrentRoot root current.value
  ensure (¬(¬current.value.sameIdentityAs next ∨ next.action ≠ action ∨
    next.generation ≠ generation ∨ current.value.generation ≠ generation ∨
    current.value.action.isRequested = true ∨ action = .prepared ∨ action = .statusMirrored))
    .generationMismatch
  atomicReplaceJson next.tournamentUuid current.identity next system

/-- The record that `mirror_status` writes. -/
def mirrored (current : ClientLedgerRecord) (status : SpeculationStatus) : ClientLedgerRecord where
  tournamentUuid := status.tournamentUuid
  daemonInstanceUuid := status.daemonInstanceUuid
  generation := status.generation
  action := .statusMirrored
  roots := current.roots
  status := status

/-- `ClientLedger::mirror_status`. -/
def mirrorStatus (root : DurableDirectoryIdentity) (current : ClientLedgerEntry)
    (status : SpeculationStatus) (system : System) : LedgerOp ClientLedgerEntry := do
  current.value.validate
  requireCurrentRoot root current.value
  ensure (¬(status.tournamentUuid ≠ current.value.tournamentUuid ∨
    status.daemonInstanceUuid ≠ current.value.daemonInstanceUuid ∨
    status.generation < current.value.generation ∨
    (current.value.action.isRequested = true ∧ status.generation = current.value.generation)))
    .generationMismatch
  let next := mirrored current.value status
  next.validate
  atomicReplaceJson next.tournamentUuid current.identity next system

/-- `ClientLedgerAuthority`. -/
inductive ClientLedgerAuthority where
  | currentBoot
  | cleanupOnlyAfterBoot
  deriving DecidableEq, Repr

/-- `TournamentLedgerEntry`. -/
structure TournamentLedgerEntry where
  entry : ClientLedgerEntry
  authority : ClientLedgerAuthority
  deriving DecidableEq, Repr

/-- `classify_ledger_authority`. -/
def classifyLedgerAuthority (storedRoot currentRoot : DurableDirectoryIdentity) :
    EvidenceResult ClientLedgerAuthority :=
  if storedRoot = currentRoot then .ok .currentBoot
  else if storedRoot.bootUuid ≠ currentRoot.bootUuid then .ok .cleanupOnlyAfterBoot
  else .error .stale

/-- The end of `ClientLedger::read_verified`, for a file that was opened. -/
def readVerified (root : DurableDirectoryIdentity) (tournamentUuid daemonInstanceUuid : Uuid)
    (entry : ClientLedgerEntry) : EvidenceResult ClientLedgerEntry := do
  entry.value.validate
  ensure (¬(entry.value.tournamentUuid ≠ tournamentUuid ∨
    entry.value.daemonInstanceUuid ≠ daemonInstanceUuid)) .stale
  requireCurrentRoot root entry.value
  return entry

/-- The end of `ClientLedger::read_tournament`. -/
def readTournament (root : DurableDirectoryIdentity) (tournamentUuid : Uuid)
    (entry : ClientLedgerEntry) : EvidenceResult TournamentLedgerEntry := do
  ensure (Uuid.isNil tournamentUuid = false) .invalidIdentity
  entry.value.validate
  ensure (entry.value.tournamentUuid = tournamentUuid) .stale
  let authority ← classifyLedgerAuthority entry.value.roots.ledgerRoot root
  return { entry, authority }

/-! ### The clients -/

/-- A call that changes the directory. -/
inductive Call where
  | createPrepared (record : ClientLedgerRecord)
  | writeBeforeAction (current : ClientLedgerEntry) (next : ClientLedgerRecord)
      (action : LedgerAction) (generation : ℕ)
  | mirrorStatus (current : ClientLedgerEntry) (status : SpeculationStatus)
  deriving DecidableEq, Repr

/-- The entry that the caller presents. -/
def Call.presented : Call → Option ClientLedgerEntry
  | .createPrepared _ => none
  | .writeBeforeAction current _ _ _ => some current
  | .mirrorStatus current _ => some current

/-- The record that the call writes. -/
def Call.written : Call → ClientLedgerRecord
  | .createPrepared record => record
  | .writeBeforeAction _ next _ _ => next
  | .mirrorStatus current status => mirrored current.value status

/-- The tournament whose file the call writes. -/
def Call.leaf (call : Call) : Uuid := call.written.tournamentUuid

/-- A call, by a client with the directory opened as `root`. -/
def Call.perform (call : Call) (root : DurableDirectoryIdentity) (system : System) :
    LedgerOp ClientLedgerEntry :=
  match call with
  | .createPrepared record => Ledger.createPrepared root record system
  | .writeBeforeAction current next action generation =>
    Ledger.writeBeforeAction root current next action generation system
  | .mirrorStatus current status => Ledger.mirrorStatus root current status system

/-- A file that a client has open to read it. -/
structure OpenRead where
  client : ℕ
  leaf : Uuid
  entry : ClientLedgerEntry

/-- The directory, and of each client the entries that it has obtained. -/
structure LedgerState where
  files : Files
  held : ℕ → List ClientLedgerEntry
  reads : List OpenRead

/-- What happens. A read is that of `read_verified` if a daemon is given, else of `read_tournament`; it
may also fail, or its client may be gone. -/
inductive Event where
  | call (client : ℕ) (call : Call) (system : System)
  | openRead (client : ℕ) (leaf : Uuid)
  | finishRead (index : ℕ) (daemonInstanceUuid : Option Uuid)
  | abandonRead (index : ℕ)

section Steps

variable (root : ℕ → DurableDirectoryIdentity)

/-- A client keeps what a call returns. -/
def keep (held : ℕ → List ClientLedgerEntry) (client : ℕ)
    (result : EvidenceResult ClientLedgerEntry) : ℕ → List ClientLedgerEntry :=
  match result with
  | .ok entry => Function.update held client (entry :: held client)
  | .error _ => held

/-- What a read returns. -/
def OpenRead.finish (read : OpenRead) (daemonInstanceUuid : Option Uuid) :
    EvidenceResult ClientLedgerEntry :=
  match daemonInstanceUuid with
  | some daemon => readVerified (root read.client) read.leaf daemon read.entry
  | none => (readTournament (root read.client) read.leaf read.entry).map TournamentLedgerEntry.entry

/-- A step of the clients. -/
def step (s : LedgerState) : Event → LedgerState
  | .call client call system =>
    let (result, files) := exec (call.perform (root client) system) s.files
    { s with files, held := keep s.held client result }
  | .openRead client leaf =>
    match s.files leaf with
    | some entry => { s with reads := s.reads ++ [{ client, leaf, entry }] }
    | none => s
  | .finishRead index daemonInstanceUuid =>
    match s.reads[index]? with
    | some read =>
      { s with
        reads := s.reads.eraseIdx index
        held := keep s.held read.client (read.finish root daemonInstanceUuid) }
    | none => s
  | .abandonRead index => { s with reads := s.reads.eraseIdx index }

/-- No file that is linked or open has this identity. -/
def LedgerState.Unused (s : LedgerState) (identity : FileIdentity) : Prop :=
  (∀ leaf entry, s.files leaf = some entry → entry.identity ≠ identity) ∧
    ∀ read ∈ s.reads, read.entry.identity ≠ identity

/-- What can happen: a client presents an entry that it has obtained, and a new file gets an identity
that no file has. -/
def Possible (s : LedgerState) : Event → Prop
  | .call client call system =>
    (∀ entry ∈ call.presented, entry ∈ s.held client) ∧ s.Unused system.identity
  | _ => True

/-- A new file does not get the identity of an entry that a client holds for the tournament. -/
def Unreused (s : LedgerState) : Event → Prop
  | .call _ call system => ∀ client, ∀ entry ∈ s.held client,
      entry.value.tournamentUuid = call.leaf → entry.identity ≠ system.identity
  | _ => True

/-- A call that presents an entry succeeds. -/
def Succeeds (s : LedgerState) (entry : ClientLedgerEntry) : Event → Prop
  | .call client call system => call.presented = some entry ∧
      ∃ stored, (exec (call.perform (root client) system) s.files).1 = .ok stored
  | _ => False

end Steps

/-! ### What a call does -/

/-- What the calls with an entry let a record be replaced by. -/
structure Advances (old new : ClientLedgerRecord) : Prop where
  identity : old.sameIdentityAs new
  generation : old.generation ≤ new.generation
  requested : old.action.isRequested = true → old.generation < new.generation

/-- When a call installs its file: there is none yet, or the one there is has the identity of the entry
that was presented. -/
def Call.Admitted (call : Call) (files : Files) : Prop :=
  match call.presented with
  | none => files call.leaf = none
  | some entry => Advances entry.value call.written ∧
      ∃ current, files call.leaf = some current ∧ current.identity = entry.identity

/-- A mutation fails and changes nothing, or it is admitted and installs a file, and returns the entry
of this file if it does not fail then. -/
def Mutates (leaf : Uuid) (new : ClientLedgerEntry) (admitted : Prop)
    (op : LedgerOp ClientLedgerEntry) (files : Files) : Prop :=
  (∃ error, exec op files = (.error error, files)) ∨
    admitted ∧ ∃ result, exec op files = (result, Function.update files leaf (some new)) ∧
      ∀ entry, result = .ok entry → entry = new

variable {leaf : Uuid} {new : ClientLedgerEntry} {admitted : Prop} {files : Files}

theorem Mutates.check {check : EvidenceResult Unit} {op : LedgerOp ClientLedgerEntry}
    (h : check = .ok () → Mutates leaf new admitted op files) :
    Mutates leaf new admitted ((liftM check : LedgerOp Unit) >>= fun _ => op) files := by
  cases check with
  | error error => exact .inl ⟨error, rfl⟩
  | ok u => exact h rfl

theorem publish_mutates {value : ClientLedgerRecord} {system : System} (h : admitted) :
    Mutates leaf { value, identity := system.identity } admitted (publish leaf value system)
      files := by
  refine .inr ⟨h, ?_⟩
  unfold publish
  cases system.outcome with
  | done => exact ⟨_, rfl, fun entry hentry => by cases hentry; rfl⟩
  | failsBefore error => exact ⟨_, rfl, fun entry hentry => by cases hentry; rfl⟩
  | failsAfter error => exact ⟨_, rfl, fun entry hentry => by cases hentry⟩

theorem atomicCreateJson_mutates {value : ClientLedgerRecord} {system : System}
    (h : files leaf = none → admitted) :
    Mutates leaf { value, identity := system.identity } admitted
      (atomicCreateJson leaf value system) files := by
  have hget : Mutates leaf { value, identity := system.identity } admitted
      (do
        let files ← get
        ensure (files leaf = none) .alreadyExists
        publish leaf value system) files := by
    show Mutates leaf _ admitted ((liftM (ensure (files leaf = none) .alreadyExists) :
      LedgerOp Unit) >>= fun _ => publish leaf value system) files
    exact .check fun hnone => publish_mutates (h (require_eq_ok.mp hnone))
  unfold atomicCreateJson
  cases system.outcome with
  | done => exact hget
  | failsBefore error => exact .inl ⟨error, rfl⟩
  | failsAfter error => exact hget

theorem atomicReplaceJson_mutates {expected : FileIdentity} {value : ClientLedgerRecord}
    {system : System}
    (h : ∀ current, files leaf = some current → current.identity = expected → admitted) :
    Mutates leaf { value, identity := system.identity } admitted
      (atomicReplaceJson leaf expected value system) files := by
  have hget : Mutates leaf { value, identity := system.identity } admitted
      (do
        let files ← get
        let current ← liftM (expect (files leaf) EvidenceError.missing)
        ensure (current.identity = expected) .stale
        publish leaf value system) files := by
    cases hleaf : files leaf with
    | none =>
      refine .inl ⟨.missing, ?_⟩
      rw [exec_bind_ok (exec_get files), hleaf]
      rfl
    | some current =>
      show Mutates leaf _ admitted ((liftM (expect (files leaf) EvidenceError.missing) :
        LedgerOp ClientLedgerEntry) >>= fun current => (liftM (ensure (current.identity = expected)
          .stale) : LedgerOp Unit) >>= fun _ => publish leaf value system) files
      rw [hleaf]
      show Mutates leaf _ admitted ((liftM (ensure (current.identity = expected) .stale) :
        LedgerOp Unit) >>= fun _ => publish leaf value system) files
      exact .check fun hsame => publish_mutates (h current hleaf (require_eq_ok.mp hsame))
  unfold atomicReplaceJson
  cases system.outcome with
  | done => exact hget
  | failsBefore error => exact .inl ⟨error, rfl⟩
  | failsAfter error => exact hget

/-- **What a call does.** -/
theorem perform_mutates (call : Call) (root : DurableDirectoryIdentity) (system : System)
    (files : Files) :
    Mutates call.leaf { value := call.written, identity := system.identity } (call.Admitted files)
      (call.perform root system) files := by
  cases call with
  | createPrepared record =>
    exact .check fun _ => .check fun _ => atomicCreateJson_mutates fun hnone => hnone
  | writeBeforeAction current next action generation =>
    refine .check fun _ => .check fun _ => .check fun _ => .check fun hrules => ?_
    have hrules := require_eq_ok.mp hrules
    push Not at hrules
    obtain ⟨hsame, -, hnext, hcurrent, hrequested, -⟩ := hrules
    refine atomicReplaceJson_mutates fun stored hstored hidentity => ?_
    refine ⟨⟨hsame, by rw [hcurrent]; exact hnext.ge, fun h => absurd h ?_⟩, stored, hstored,
      hidentity⟩
    exact hrequested
  | mirrorStatus current status =>
    refine .check fun _ => .check fun _ => .check fun hrules => .check fun _ => ?_
    have hrules := require_eq_ok.mp hrules
    push Not at hrules
    obtain ⟨htournament, hdaemon, hle, hrequested⟩ := hrules
    refine atomicReplaceJson_mutates fun stored hstored hidentity => ?_
    refine ⟨⟨⟨htournament.symm, hdaemon.symm, rfl⟩, hle, fun h => ?_⟩, stored, hstored, hidentity⟩
    exact lt_of_le_of_ne hle (hrequested h).symm

/-! ### The register -/

/-- An entry that was handed out for a tournament: a client holds it, or a client is reading it. -/
def Issued (s : LedgerState) (leaf : Uuid) (entry : ClientLedgerEntry) : Prop :=
  (∃ client, entry ∈ s.held client ∧ entry.value.tournamentUuid = leaf) ∨
    ∃ read ∈ s.reads, read.leaf = leaf ∧ read.entry = entry

/-- What the file of a tournament has to do with an entry that was handed out for it. -/
def Matches (current entry : ClientLedgerEntry) : Prop :=
  TokenTells ClientLedgerEntry.identity current entry ∧
    current.value.sameIdentityAs entry.value

/-- The invariant of the ledger. -/
def Inv (s : LedgerState) : Prop := Related Matches s.files (Issued s)

theorem Matches.refl (entry : ClientLedgerEntry) : Matches entry entry :=
  ⟨fun _ => rfl, rfl, rfl, rfl⟩

/-- The ledger before a client has obtained anything. -/
def LedgerState.initial (files : Files) : LedgerState where
  files := files
  held := fun _ => []
  reads := []

theorem inv_initial (files : Files) : Inv (.initial files) := by
  rintro leaf entry (⟨client, hmem, -⟩ | ⟨read, hmem, -⟩)
  · cases hmem
  · cases hmem

theorem mem_keep {held : ℕ → List ClientLedgerEntry} {client client' : ℕ}
    {result : EvidenceResult ClientLedgerEntry} {entry : ClientLedgerEntry}
    (h : entry ∈ keep held client result client') :
    entry ∈ held client' ∨ result = .ok entry := by
  cases result with
  | error error => exact .inl h
  | ok stored =>
    by_cases hc : client' = client
    · subst hc
      rcases List.mem_cons.mp (by simpa [keep] using h) with rfl | h
      · exact .inr rfl
      · exact .inl h
    · exact .inl (by simpa [keep, Function.update_of_ne hc] using h)

theorem keep_mem {held : ℕ → List ClientLedgerEntry} {client client' : ℕ}
    {result : EvidenceResult ClientLedgerEntry} {entry : ClientLedgerEntry}
    (h : entry ∈ held client') : entry ∈ keep held client result client' := by
  cases result with
  | error error => exact h
  | ok stored =>
    by_cases hc : client' = client
    · subst hc
      simp [keep, h]
    · simpa [keep, Function.update_of_ne hc] using h

/-- What a read returns is the file that was opened, and belongs to the tournament. -/
theorem finish_eq_ok {root : ℕ → DurableDirectoryIdentity} {read : OpenRead}
    {daemonInstanceUuid : Option Uuid} {entry : ClientLedgerEntry}
    (h : read.finish root daemonInstanceUuid = .ok entry) :
    entry = read.entry ∧ entry.value.tournamentUuid = read.leaf := by
  cases daemonInstanceUuid with
  | some daemon =>
    simp only [OpenRead.finish, readVerified, bind_eq_ok, exists_unit, require_eq_ok,
      pure_eq_ok] at h
    obtain ⟨-, hsame, -, rfl⟩ := h
    push Not at hsame
    exact ⟨rfl, hsame.1⟩
  | none =>
    obtain ⟨stored, hread, rfl⟩ := map_eq_ok.mp h
    simp only [readTournament, bind_eq_ok, exists_unit, require_eq_ok, pure_eq_ok] at hread
    obtain ⟨-, -, hsame, authority, -, rfl⟩ := hread
    exact ⟨rfl, hsame⟩

section Step

variable {root : ℕ → DurableDirectoryIdentity} {s : LedgerState}

/-- An entry that a client may present for a call was handed out for the tournament of the call. -/
theorem presented_issued {client : ℕ} {call : Call} {system : System} {entry : ClientLedgerEntry}
    (hpossible : Possible s (.call client call system)) (hpresented : call.presented = some entry)
    (hadvances : Advances entry.value call.written) : Issued s call.leaf entry :=
  .inl ⟨client, hpossible.1 entry hpresented, hadvances.identity.1⟩

/-- The new file of a call matches all entries that were handed out before it. -/
theorem new_matches {client : ℕ} {call : Call} {system : System} (h : Inv s)
    (hpossible : Possible s (.call client call system))
    (hunreused : Unreused s (.call client call system)) (hadmitted : call.Admitted s.files)
    {entry : ClientLedgerEntry} (hissued : Issued s call.leaf entry) :
    Matches { value := call.written, identity := system.identity } entry := by
  constructor
  · intro htoken
    exfalso
    rcases hissued with ⟨client', hmem, hleaf⟩ | ⟨read, hmem, -, rfl⟩
    · exact hunreused client' entry hmem hleaf htoken.symm
    · exact hpossible.2.2 read hmem htoken.symm
  · unfold Call.Admitted at hadmitted
    split at hadmitted
    · exact absurd hissued (h.not_issued hadmitted entry)
    · rename_i presented hpresented
      obtain ⟨hadvances, current, hcurrent, -⟩ := hadmitted
      have hthis := (h.current hissued hcurrent).2
      have hthat := (h.current (presented_issued hpossible hpresented hadvances) hcurrent).2
      obtain ⟨h1, h2, h3⟩ := hadvances.identity
      exact ⟨h1.symm.trans (hthat.1.symm.trans hthis.1), h2.symm.trans (hthat.2.1.symm.trans hthis.2.1),
        h3.symm.trans (hthat.2.2.symm.trans hthis.2.2)⟩

/-- **Every step keeps the invariant**, if no identity is used again for an entry that is held. -/
theorem inv_step {event : Event} (hpossible : Possible s event) (hunreused : Unreused s event)
    (h : Inv s) : Inv (step root s event) := by
  cases event with
  | call client call system =>
    rcases perform_mutates call (root client) system s.files with
      ⟨error, herror⟩ | ⟨hadmitted, result, hexec, hresult⟩
    · simp only [step, herror]
      exact h
    · simp only [step, hexec]
      refine h.install Matches.refl
        (fun entry => new_matches h hpossible hunreused hadmitted) fun leaf entry hentry => ?_
      rcases hentry with ⟨client', hmem, hleaf⟩ | hread
      · rcases mem_keep hmem with hmem | hok
        · exact .inl (.inl ⟨client', hmem, hleaf⟩)
        · obtain rfl := hresult entry hok
          exact .inr ⟨hleaf.symm, rfl⟩
      · exact .inl (.inr hread)
  | openRead client leaf =>
    cases hfile : s.files leaf with
    | none => simpa only [step, hfile] using h
    | some entry =>
      simp only [step, hfile]
      refine h.issue Matches.refl fun leaf' entry' hentry => ?_
      rcases hentry with hheld | ⟨read, hmem, hleaf, rfl⟩
      · exact .inl (.inl hheld)
      · rcases List.mem_append.mp hmem with hmem | hmem
        · exact .inl (.inr ⟨read, hmem, hleaf, rfl⟩)
        · obtain rfl := List.mem_singleton.mp hmem
          subst hleaf
          exact .inr hfile
  | finishRead index daemonInstanceUuid =>
    cases hread : s.reads[index]? with
    | none => simpa only [step, hread] using h
    | some read =>
      simp only [step, hread]
      refine h.issue Matches.refl fun leaf entry hentry => ?_
      rcases hentry with ⟨client, hmem, hleaf⟩ | ⟨other, hmem, hleaf, rfl⟩
      · rcases mem_keep hmem with hmem | hok
        · exact .inl (.inl ⟨client, hmem, hleaf⟩)
        · obtain ⟨rfl, htournament⟩ := finish_eq_ok hok
          exact .inl (.inr ⟨read, List.mem_of_getElem? hread, htournament.symm.trans hleaf, rfl⟩)
      · exact .inl (.inr ⟨other, List.mem_of_mem_eraseIdx hmem, hleaf, rfl⟩)
  | abandonRead index =>
    refine h.issue Matches.refl fun leaf entry hentry => ?_
    rcases hentry with hheld | ⟨read, hmem, hleaf, rfl⟩
    · exact .inl (.inl hheld)
    · exact .inl (.inr ⟨read, List.mem_of_mem_eraseIdx hmem, hleaf, rfl⟩)

/-- A call that is admitted replaces just the entry that was presented. -/
theorem admitted_current {client : ℕ} {call : Call} {system : System} {entry : ClientLedgerEntry}
    (h : Inv s) (hpossible : Possible s (.call client call system))
    (hadmitted : call.Admitted s.files) (hpresented : call.presented = some entry) :
    s.files call.leaf = some entry ∧ Advances entry.value call.written := by
  unfold Call.Admitted at hadmitted
  rw [hpresented] at hadmitted
  obtain ⟨hadvances, current, hcurrent, hidentity⟩ := hadmitted
  have hissued := presented_issued hpossible hpresented hadvances
  obtain rfl := (h.current hissued hcurrent).1 hidentity
  exact ⟨hcurrent, hadvances⟩

/-- **What a step does to a record**: nothing, or it is replaced by one that it may be replaced by. -/
theorem step_advances {event : Event} (h : Inv s) (hpossible : Possible s event) {leaf : Uuid}
    {old : ClientLedgerEntry} (hold : s.files leaf = some old) :
    ∃ new, (step root s event).files leaf = some new ∧ (new = old ∨ Advances old.value new.value) := by
  cases event with
  | call client call system =>
    rcases perform_mutates call (root client) system s.files with
      ⟨error, herror⟩ | ⟨hadmitted, result, hexec, -⟩
    · simp only [step, herror]
      exact ⟨old, hold, .inl rfl⟩
    · simp only [step, hexec]
      by_cases hleaf : leaf = call.leaf
      · subst hleaf
        refine ⟨_, Function.update_self .., .inr ?_⟩
        cases hpresented : call.presented with
        | none =>
          unfold Call.Admitted at hadmitted
          simp only [hpresented, hold, reduceCtorEq] at hadmitted
        | some entry =>
          obtain ⟨hcurrent, hadvances⟩ := admitted_current h hpossible hadmitted hpresented
          rw [hold, Option.some.injEq] at hcurrent
          exact hcurrent ▸ hadvances
      · exact ⟨old, by rw [Function.update_of_ne hleaf]; exact hold, .inl rfl⟩
  | openRead client leaf' =>
    refine ⟨old, ?_, .inl rfl⟩
    cases hfile : s.files leaf' <;> simpa only [step, hfile] using hold
  | finishRead index daemonInstanceUuid =>
    refine ⟨old, ?_, .inl rfl⟩
    cases hread : s.reads[index]? <;> simpa only [step, hread] using hold
  | abandonRead index => exact ⟨old, hold, .inl rfl⟩

/-- An entry that a client holds, and that is no longer the one of its tournament. -/
def Retired (s : LedgerState) (entry : ClientLedgerEntry) : Prop :=
  (∃ client, entry ∈ s.held client) ∧ ∃ current,
    s.files entry.value.tournamentUuid = some current ∧ current.identity ≠ entry.identity

theorem held_step {event : Event} {client : ℕ} {entry : ClientLedgerEntry}
    (h : entry ∈ s.held client) : entry ∈ (step root s event).held client := by
  cases event with
  | call client' call system => exact keep_mem h
  | openRead client' leaf => cases hfile : s.files leaf <;> simpa only [step, hfile] using h
  | finishRead index daemonInstanceUuid =>
    cases hread : s.reads[index]? with
    | none => simpa only [step, hread] using h
    | some read =>
      simp only [step, hread]
      exact keep_mem h
  | abandonRead index => exact h

/-- What a client holds after a call is from before it, or the call has returned it. -/
theorem mem_held_call {client client' : ℕ} {call : Call} {system : System}
    {entry : ClientLedgerEntry} (h : entry ∈ (step root s (.call client call system)).held client') :
    entry ∈ s.held client' ∨ (exec (call.perform (root client) system) s.files).1 = .ok entry :=
  mem_keep h

/-- Once replaced, an entry stays so. -/
theorem retired_step {event : Event} (hunreused : Unreused s event) {entry : ClientLedgerEntry}
    (h : Retired s entry) : Retired (step root s event) entry := by
  obtain ⟨⟨holder, hheld⟩, current, hcurrent, hne⟩ := h
  refine ⟨⟨holder, held_step hheld⟩, ?_⟩
  cases event with
  | call client call system =>
    rcases perform_mutates call (root client) system s.files with
      ⟨error, herror⟩ | ⟨-, result, hexec, -⟩
    · simp only [step, herror]
      exact ⟨current, hcurrent, hne⟩
    · simp only [step, hexec]
      by_cases hleaf : entry.value.tournamentUuid = call.leaf
      · refine ⟨_, by rw [hleaf]; exact Function.update_self .., ?_⟩
        exact (hunreused holder entry hheld hleaf).symm
      · exact ⟨current, by rw [Function.update_of_ne hleaf]; exact hcurrent, hne⟩
  | openRead client leaf =>
    cases hfile : s.files leaf <;> simpa only [step, hfile] using ⟨current, hcurrent, hne⟩
  | finishRead index daemonInstanceUuid =>
    cases hread : s.reads[index]? <;> simpa only [step, hread] using ⟨current, hcurrent, hne⟩
  | abandonRead index => exact ⟨current, hcurrent, hne⟩

/-- What a call that succeeds replaces is the entry that was presented; after it, this entry is
retired. -/
theorem succeeds_spec {event : Event} (h : Inv s) (hpossible : Possible s event)
    {entry : ClientLedgerEntry} (hsucceeds : Succeeds root s entry event) :
    s.files entry.value.tournamentUuid = some entry ∧ Retired (step root s event) entry := by
  cases event with
  | call client call system =>
    obtain ⟨hpresented, stored, hok⟩ := hsucceeds
    rcases perform_mutates call (root client) system s.files with
      ⟨error, herror⟩ | ⟨hadmitted, result, hexec, -⟩
    · rw [herror] at hok
      cases hok
    · obtain ⟨hcurrent, hadvances⟩ := admitted_current h hpossible hadmitted hpresented
      have hleaf : entry.value.tournamentUuid = call.leaf := hadvances.identity.1
      refine ⟨hleaf ▸ hcurrent, ⟨client, held_step (hpossible.1 entry hpresented)⟩, ?_⟩
      simp only [step, hexec]
      refine ⟨_, by rw [hleaf]; exact Function.update_self .., ?_⟩
      exact (hpossible.2.1 _ _ hcurrent).symm
  | openRead client leaf => cases hsucceeds
  | finishRead index daemonInstanceUuid => cases hsucceeds
  | abandonRead index => cases hsucceeds

end Step

/-- **The ledger as a register with compare-and-swap**, in every run in which no new file gets the
identity of an entry that a client holds for its tournament. In every step a record stays, or it is
replaced by one of the same tournament, daemon and roots, whose generation is not smaller, and greater
if an action was requested. A call that presents an entry succeeds only if the record in the directory
is that of the entry, and at most one call that presents it succeeds. -/
theorem ledger_compare_and_swap (root : ℕ → DurableDirectoryIdentity) (files : Files)
    {events : List Event}
    (hpossible : Along (step root) Possible (.initial files) events)
    (hunreused : Along (step root) Unreused (.initial files) events) :
    (∀ before event after, events = before ++ event :: after →
      let s := run (step root) (.initial files) before
      (∀ leaf old, s.files leaf = some old → ∃ new, (step root s event).files leaf = some new ∧
        (new = old ∨ Advances old.value new.value)) ∧
      ∀ entry, Succeeds root s entry event → ∃ current,
        s.files entry.value.tournamentUuid = some current ∧ current.value = entry.value) ∧
    ∀ before event middle event' after, events = before ++ event :: (middle ++ event' :: after) →
      ∀ entry, Succeeds root (run (step root) (.initial files) before) entry event →
        ¬Succeeds root (run (step root) (.initial files) (before ++ event :: middle)) entry event' := by
  have hinv (before after : List Event) (hsplit : events = before ++ after) :
      Inv (run (step root) (.initial files) before) := by
    subst hsplit
    have hboth : Along (step root) (fun s event => Possible s event ∧ Unreused s event)
        (.initial files) before := hpossible.append_left.and hunreused.append_left
    exact hboth.invariant (fun s event hevent h => inv_step hevent.1 hevent.2 h) (inv_initial files)
  constructor
  · rintro before event after rfl
    have h := hinv before _ rfl
    have hevent := hpossible.append_right.1
    refine ⟨fun leaf old hold => step_advances h hevent hold, fun entry hsucceeds => ?_⟩
    exact ⟨entry, (succeeds_spec h hevent hsucceeds).1, rfl⟩
  · rintro before event middle event' after rfl entry hfirst hsecond
    have hretired := (succeeds_spec (hinv before _ rfl) hpossible.append_right.1 hfirst).2
    have hlater : Along (step root) Unreused (step root (run (step root) (.initial files) before)
        event) middle := hunreused.append_right.2.append_left
    have hkeep (s : LedgerState) (event : Event) (hevent : Unreused s event) (h : Retired s entry) :
        Retired (step root s event) entry := retired_step hevent h
    have hstill := hlater.invariant hkeep hretired
    obtain ⟨-, current, hcurrent, hne⟩ := hstill
    rw [run_append, run_cons] at hsecond
    have hagain : Inv (run (step root) (step root (run (step root) (.initial files) before) event)
        middle) := by
      simpa [run_append] using hinv (before ++ event :: middle) (event' :: after) (by simp)
    have hpossible' : Possible (run (step root) (step root (run (step root) (.initial files) before)
        event) middle) event' := hpossible.append_right.2.append_right.1
    have hnow := (succeeds_spec hagain hpossible' hsecond).1
    rw [hcurrent, Option.some.injEq] at hnow
    exact hne (congrArg ClientLedgerEntry.identity hnow)

/-! ### An identity that is used again -/

section Reuse

/-- Only one tournament has a file. -/
def Lone (leaf : Uuid) (s : LedgerState) : Prop := ∀ other, other ≠ leaf → s.files other = none

/-- `Possible`, where only one tournament has a file, and the event is about it. -/
def PossibleLone (leaf : Uuid) (s : LedgerState) : Event → Prop
  | .call client call system => call.leaf = leaf ∧ (∀ entry ∈ call.presented, entry ∈ s.held client) ∧
      (∀ entry ∈ s.files leaf, entry.identity ≠ system.identity) ∧
      ∀ read ∈ s.reads, read.entry.identity ≠ system.identity
  | _ => True

instance (leaf : Uuid) (s : LedgerState) (event : Event) : Decidable (PossibleLone leaf s event) := by
  cases event <;> unfold PossibleLone <;> infer_instance

theorem lone_step {root : ℕ → DurableDirectoryIdentity} {leaf : Uuid} {s : LedgerState}
    {event : Event} (hpossible : PossibleLone leaf s event) (h : Lone leaf s) :
    Lone leaf (step root s event) := by
  intro other hother
  cases event with
  | call client call system =>
    rcases perform_mutates call (root client) system s.files with
      ⟨error, herror⟩ | ⟨-, result, hexec, -⟩
    · simp only [step, herror]
      exact h other hother
    · simp only [step, hexec]
      rw [hpossible.1, Function.update_of_ne hother]
      exact h other hother
  | openRead client leaf' => cases hfile : s.files leaf' <;> simpa only [step, hfile] using h other hother
  | finishRead index daemonInstanceUuid =>
    cases hread : s.reads[index]? <;> simpa only [step, hread] using h other hother
  | abandonRead index => exact h other hother

theorem possible_of_lone {leaf : Uuid} {s : LedgerState} {event : Event} (h : Lone leaf s)
    (hpossible : PossibleLone leaf s event) : Possible s event := by
  cases event with
  | call client call system =>
    obtain ⟨-, hheld, hfile, hreads⟩ := hpossible
    refine ⟨hheld, fun other entry hentry => ?_, hreads⟩
    by_cases hother : other = leaf
    · exact hfile entry (hother ▸ hentry)
    · rw [h other hother] at hentry
      cases hentry
  | openRead client leaf' => trivial
  | finishRead index daemonInstanceUuid => trivial
  | abandonRead index => trivial

theorem along_possible_of_lone {root : ℕ → DurableDirectoryIdentity} (leaf : Uuid) {s : LedgerState}
    {events : List Event} (h : Lone leaf s)
    (hpossible : Along (step root) (PossibleLone leaf) s events) :
    Along (step root) Possible s events := by
  induction events generalizing s with
  | nil => trivial
  | cons event events ih =>
    exact ⟨possible_of_lone h hpossible.1, ih (lone_step hpossible.1 h) hpossible.2⟩

/-- The ledger directory of the samples. -/
def sampleRoot : DurableDirectoryIdentity := ⟨1, 1, 1, 1⟩

def sampleStatus (generation : ℕ) : SpeculationStatus := preparedStatus 2 3 ⟨4, 5⟩ generation 0

def sampleEntry (generation : ℕ) (action : LedgerAction) (ino : ℕ) : ClientLedgerEntry where
  value := {
    tournamentUuid := 2
    daemonInstanceUuid := 3
    generation
    action
    roots := ⟨sampleRoot, ⟨sampleRoot, sampleRoot⟩, sampleRoot, sampleRoot⟩
    status := sampleStatus generation }
  identity := ⟨1, ino⟩

/-- Client 0 prepares a tournament, and client 1 reads the record. Client 0 mirrors generation 2 and
requests an action; the file of this request gets the inode number of the first file. -/
def reuseEvents : List Event :=
  [.call 0 (.createPrepared (sampleEntry 1 .prepared 1).value) ⟨⟨1, 1⟩, .done⟩,
    .openRead 1 2,
    .finishRead 0 (some 3),
    .call 0 (.mirrorStatus (sampleEntry 1 .prepared 1) (sampleStatus 2)) ⟨⟨1, 2⟩, .done⟩,
    .call 0 (.writeBeforeAction (sampleEntry 2 .statusMirrored 2) (sampleEntry 2 .armRequested 1).value
      .armRequested 2) ⟨⟨1, 1⟩, .done⟩]

/-- Client 1 mirrors generation 1 into the entry that it has read. -/
def staleMirror : Event :=
  .call 1 (.mirrorStatus (sampleEntry 1 .prepared 1) (sampleStatus 1)) ⟨⟨1, 3⟩, .done⟩

/-- **A stale entry is accepted**: the request of generation 2 is replaced by a record of generation
1, though the entry that was presented is not the record in the directory. -/
theorem stale_entry_accepted :
    Along (step fun _ => sampleRoot) Possible (.initial fun _ => none)
      (reuseEvents ++ [staleMirror]) ∧
    let s := run (step fun _ => sampleRoot) (.initial fun _ => none) reuseEvents
    s.files 2 = some (sampleEntry 2 .armRequested 1) ∧
      (step (fun _ => sampleRoot) s staleMirror).files 2 = some (sampleEntry 1 .statusMirrored 3) ∧
      Succeeds (fun _ => sampleRoot) s (sampleEntry 1 .prepared 1) staleMirror := by
  refine ⟨along_possible_of_lone 2 (fun _ _ => rfl) (by decide +kernel), ?_, ?_, rfl,
    sampleEntry 1 .statusMirrored 3, ?_⟩
  · decide +kernel
  · decide +kernel
  · decide +kernel

/-- A run of two calls whose files have different identities. -/
theorem ledger_compare_and_swap_two :
    let root := fun _ => sampleRoot
    let create : Event := .call 0 (.createPrepared (sampleEntry 1 .prepared 1).value) ⟨⟨1, 1⟩, .done⟩
    let request : Event := .call 0 (.writeBeforeAction (sampleEntry 1 .prepared 1)
      (sampleEntry 1 .armRequested 2).value .armRequested 1) ⟨⟨1, 2⟩, .done⟩
    let s := run (step root) (.initial fun _ => none) [create]
    Succeeds root s (sampleEntry 1 .prepared 1) request ∧ ∃ current,
      s.files 2 = some current ∧ current.value = (sampleEntry 1 .prepared 1).value := by
  intro root create request s
  have hsucceeds : Succeeds root s (sampleEntry 1 .prepared 1) request :=
    ⟨rfl, sampleEntry 1 .armRequested 2, by decide +kernel⟩
  have hpossible : Along (step root) Possible (.initial fun _ => none) [create, request] :=
    along_possible_of_lone 2 (fun _ _ => rfl) (by decide +kernel)
  have hstored : (exec (Call.perform (.createPrepared (sampleEntry 1 .prepared 1).value)
      sampleRoot ⟨⟨1, 1⟩, .done⟩) fun _ => none).1 = .ok (sampleEntry 1 .prepared 1) := by
    decide +kernel
  have hunreused : Along (step root) Unreused (.initial fun _ => none) [create, request] := by
    have hfirst : Unreused (.initial fun _ => none) create := fun client entry hmem => by cases hmem
    have hsecond : Unreused (step root (.initial fun _ => none) create) request := by
      intro client entry hmem _ hidentity
      rcases mem_held_call hmem with hmem | hok
      · cases hmem
      · obtain rfl := Except.ok.inj (hstored.symm.trans hok)
        exact absurd hidentity (by decide)
    exact ⟨hfirst, hsecond, trivial⟩
  have h := (ledger_compare_and_swap root (fun _ => none) hpossible hunreused).1 [create] request []
    rfl
  exact ⟨hsucceeds, h.2 _ hsucceeds⟩

end Reuse

end LightTerminal.Speculation.Ledger
