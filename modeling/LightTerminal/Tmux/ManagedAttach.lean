import LightTerminal.Library.Run
import LightTerminal.Tmux.Store

/-! # Managed attaches: one surface per pane

An attach that cmux started claims a lease on its pane. The lease names the process by its pid and its
start identity; it is refused to a process on another surface while its owner lives, and given away to
a process on the same surface at once. `release_managed_attach` and `renew_managed_attach` touch a
lease only under the token that it was claimed with.

* the lease of a living holder that was not taken over stays in the store until it is released
  (`Inv.held`), whatever other processes claim, renew or release;
* so no claim succeeds beside such a holder on another surface (`managed_attach_exclusion`);
* a holder that was taken over has no lease: when its successor releases, a third process attaches
  from elsewhere (`attached_from_two_surfaces`). -/

namespace LightTerminal.Tmux.ManagedAttach

open LightTerminal.Data.Text LightTerminal.Library LightTerminal.Library.FiniteMap
open LightTerminal.Library.Run LightTerminal.Tmux.Store

/-! ## The source -/

/-- `MANAGED_ATTACH_LEASE_TTL_SECS`. -/
def MANAGED_ATTACH_LEASE_TTL_SECS : ℕ := 120

/-- `CmuxSurfaceContext`. -/
structure CmuxSurfaceContext where
  surfaceRef : Str
  workspaceRef : Option Str
  windowRef : Option Str
deriving DecidableEq

/-- The processes that exist: the start identity under each pid. -/
abbrev Processes := Map ℕ Str

/-- `process_is_live`. -/
def processIsLive (processes : Processes) (pid : ℕ) : Bool :=
  decide (pid ≠ 0) && decide (pid < 2 ^ 31) && decide (pid ∈ processes)

/-- `process_start_identity`. -/
def processStartIdentity (processes : Processes) (pid : ℕ) : Option Str := processes.lookup pid

/-- `lease_owner_is_live`. -/
def leaseOwnerIsLive (processes : Processes) (lease : ManagedAttachLease) : Bool :=
  processIsLive processes lease.pid &&
    match lease.processStartId with
    | none => false
    | some expected => decide (processStartIdentity processes lease.pid = some expected)

/-- `lease_owner_blocks_duplicate`. -/
def leaseOwnerBlocksDuplicate (processes : Processes) (now : ℕ) (lease : ManagedAttachLease) :
    Bool :=
  leaseOwnerIsLive processes lease ||
    (lease.processStartId.isNone && processIsLive processes lease.pid &&
      decide (now - MANAGED_ATTACH_LEASE_TTL_SECS ≤ lease.updatedSecs))

/-- What one operation reads from its surroundings: the processes, and the clock when it judges the
leases and when it writes one. -/
structure Surroundings where
  processes : Processes
  checkSecs : ℕ
  updateSecs : ℕ

/-- `prune_managed_attach_leases`. -/
def pruneManagedAttachLeases (around : Surroundings) (store : CompatStore) : CompatStore :=
  { store with
    managedAttaches :=
      retain (fun _ lease => leaseOwnerBlocksDuplicate around.processes around.checkSecs lease)
        store.managedAttaches }

/-- `ManagedAttachClaim`. -/
structure ManagedAttachClaim where
  proceed : Bool
  ownerSurfaceId : Option Str
deriving DecidableEq

/-- The lease that a process claims. -/
def newLease (around : Surroundings) (pid : ℕ) (paneId token : Str)
    (currentSurface : CmuxSurfaceContext) : ManagedAttachLease where
  paneId
  token
  pid
  processStartId := processStartIdentity around.processes pid
  cmuxSurfaceId := some currentSurface.surfaceRef
  cmuxWorkspaceId := currentSurface.workspaceRef
  cmuxWindowId := currentSurface.windowRef
  updatedSecs := around.updateSecs

/-- The change of `claim_managed_attach`. -/
def claim (around : Surroundings) (pid : ℕ) (paneId token : Str)
    (currentSurface : CmuxSurfaceContext) (store : CompatStore) :
    CompatStore × ManagedAttachClaim :=
  let store := pruneManagedAttachLeases around store
  let proceed (leases : Map Str ManagedAttachLease) : CompatStore × ManagedAttachClaim :=
    ({ store with
        managedAttaches := leases.insert paneId (newLease around pid paneId token currentSurface) },
      ⟨true, some currentSurface.surfaceRef⟩)
  match store.managedAttaches.lookup paneId with
  | none => proceed store.managedAttaches
  | some existing =>
    if !leaseOwnerBlocksDuplicate around.processes around.checkSecs existing then
      proceed (store.managedAttaches.erase paneId)
    else if existing.cmuxSurfaceId.any fun owner => decide (owner ≠ currentSurface.surfaceRef) then
      (store, ⟨false, existing.cmuxSurfaceId⟩)
    else proceed store.managedAttaches

/-- `claim_managed_attach`. -/
def claimManagedAttach (io : Io) (around : Surroundings) (pid : ℕ) (paneId token : Str)
    (currentSurface : CmuxSurfaceContext) (file : StoreFile) :
    StoreFile × Except Str ManagedAttachClaim :=
  updateStore io (fun store => .ok (claim around pid paneId token currentSurface store)) file

/-- The change of `release_managed_attach`. -/
def release (around : Surroundings) (paneId token : Str) (store : CompatStore) : CompatStore :=
  let store := pruneManagedAttachLeases around store
  if (store.managedAttaches.lookup paneId).any fun lease => decide (lease.token = token) then
    { store with managedAttaches := store.managedAttaches.erase paneId }
  else store

/-- `release_managed_attach`. -/
def releaseManagedAttach (io : Io) (around : Surroundings) (paneId token : Str) (file : StoreFile) :
    StoreFile × Except Str Unit :=
  updateStore io (fun store => .ok (release around paneId token store, ())) file

/-- The change of `renew_managed_attach`, and whether it found its lease. -/
def renew (around : Surroundings) (paneId token : Str) (store : CompatStore) :
    CompatStore × Bool :=
  let store := pruneManagedAttachLeases around store
  match store.managedAttaches.lookup paneId with
  | none => (store, false)
  | some lease =>
    if lease.token ≠ token then (store, false)
    else
      ({ store with
          managedAttaches :=
            store.managedAttaches.insert paneId { lease with updatedSecs := around.updateSecs } },
        true)

/-- `renew_managed_attach`. -/
def renewManagedAttach (io : Io) (around : Surroundings) (paneId token : Str) (file : StoreFile) :
    StoreFile × Except Str Bool :=
  updateStore io (fun store => .ok (renew around paneId token store)) file

/-- `ManagedAttachDecision`: a guard is the pane and the token that its drop releases. -/
inductive ManagedAttachDecision
  | proceed (guard : Option (Str × Str))
  | exit
deriving DecidableEq

/-- `prepare_managed_attach` for the pane that the target names. `identified` is the answer of
`cmux_identify_managed_attach_surface`, `closed` that of `close_duplicate_cmux_surface`. -/
def prepareManagedAttach (enabled : Bool) (identified : Except Str (Option CmuxSurfaceContext))
    (closed : Except Str Unit) (io : Io) (around : Surroundings) (pid : ℕ) (paneId token : Str)
    (file : StoreFile) : StoreFile × Except Str ManagedAttachDecision :=
  if !enabled then (file, .ok (.proceed none))
  else
    match identified with
    | .error _ => (file, .ok (.proceed none))
    | .ok none => (file, .ok (.proceed none))
    | .ok (some currentSurface) =>
      match claimManagedAttach io around pid paneId token currentSurface file with
      | (file, .error err) => (file, .error err)
      | (file, .ok claim) =>
        if claim.proceed then (file, .ok (.proceed (some (paneId, token))))
        else if claim.ownerSurfaceId.any fun owner => decide (owner ≠ currentSurface.surfaceRef) then
          match closed with
          | .error err => (file, .error err)
          | .ok () => (file, .ok .exit)
        else (file, .ok .exit)

/-! ## The system -/

/-- A process that was told to proceed: what it claimed, whether its guard was dropped, and whether a
later claim of the same surface took its lease over. -/
structure Holder where
  pid : ℕ
  identity : Str
  paneId : Str
  token : Str
  surfaceRef : Str
  released : Bool
  takenOver : Bool
deriving DecidableEq

structure System where
  file : StoreFile
  processes : Processes
  identities : List Str
  tokens : List Str
  holders : List Holder

/-- `spawn` and `die` are the operating system's; `other` is any command that leaves the leases
alone. -/
inductive Action
  | spawn (pid : ℕ) (identity : Str)
  | die (pid : ℕ)
  | attach (pid : ℕ) (paneId token : Str) (enabled : Bool)
      (identified : Except Str (Option CmuxSurfaceContext)) (closed : Except Str Unit) (io : Io)
      (checkSecs updateSecs : ℕ)
  | renew (holder : ℕ) (io : Io) (checkSecs updateSecs : ℕ)
  | release (holder : ℕ) (io : Io) (checkSecs updateSecs : ℕ)
  | other (io : Io) (rest : CompatStore)

/-- No process, and no file yet. -/
def System.start : System := ⟨.missing, ∅, [], [], []⟩

/-- The surroundings of an operation. -/
def System.around (s : System) (checkSecs updateSecs : ℕ) : Surroundings :=
  ⟨s.processes, checkSecs, updateSecs⟩

/-- The process of a holder still exists. -/
def System.Alive (s : System) (holder : Holder) : Prop :=
  s.processes.lookup holder.pid = some holder.identity

instance (s : System) (holder : Holder) : Decidable (s.Alive holder) :=
  inferInstanceAs (Decidable (_ = _))

/-- A holder whose surface claims its pane again is taken over. -/
def Holder.yield (paneId surfaceRef : Str) (holder : Holder) : Holder :=
  if holder.paneId = paneId ∧ holder.surfaceRef = surfaceRef then { holder with takenOver := true }
  else holder

/-- The guard of a token is dropped once. -/
def Holder.drop (token : Str) (holder : Holder) : Holder :=
  if holder.token = token then { holder with released := true } else holder

/-- The system after a claim that was told to proceed. -/
def System.enroll (s : System) (pid : ℕ) (identity paneId token surfaceRef : Str) : System :=
  { s with
    holders := s.holders.map (Holder.yield paneId surfaceRef) ++
      [⟨pid, identity, paneId, token, surfaceRef, false, false⟩] }

/-- One step. A pid is that of one process at a time, a start identity and a token are used once. -/
def step (s : System) : Action → System
  | .spawn pid identity =>
    if pid = 0 ∨ 2 ^ 31 ≤ pid ∨ pid ∈ s.processes ∨ identity ∈ s.identities then s
    else
      { s with
        processes := s.processes.insert pid identity
        identities := identity :: s.identities }
  | .die pid => { s with processes := s.processes.erase pid }
  | .attach pid paneId token enabled identified closed io checkSecs updateSecs =>
    match s.processes.lookup pid with
    | none => s
    | some identity =>
      if token ∈ s.tokens then s
      else
        let s := { s with tokens := token :: s.tokens }
        match identified, prepareManagedAttach enabled identified closed io
            (s.around checkSecs updateSecs) pid paneId token s.file with
        | .ok (some surface), (file, .ok (.proceed (some _))) =>
          { s with file }.enroll pid identity paneId token surface.surfaceRef
        | _, (file, _) => { s with file }
  | .renew i io checkSecs updateSecs =>
    match s.holders[i]? with
    | none => s
    | some holder =>
      if ¬ s.Alive holder then s
      else
        { s with
          file := (renewManagedAttach io (s.around checkSecs updateSecs) holder.paneId holder.token
            s.file).1 }
  | .release i io checkSecs updateSecs =>
    match s.holders[i]? with
    | none => s
    | some holder =>
      if ¬ s.Alive holder ∨ holder.released = true then s
      else
        { s with
          file := (releaseManagedAttach io (s.around checkSecs updateSecs) holder.paneId holder.token
            s.file).1
          holders := s.holders.map (Holder.drop holder.token) }
  | .other io rest =>
    { s with
      file := (updateStore io (fun store =>
        .ok ({ rest with managedAttaches := store.managedAttaches }, ())) s.file).1 }

/-! ## What an operation does to a lease -/

variable {around : Surroundings} {store : CompatStore} {paneId pane token : Str}
  {lease : ManagedAttachLease}

/-- The leases after the pruning are those whose owners block. -/
theorem lookup_pruned :
    (pruneManagedAttachLeases around store).managedAttaches.lookup pane = some lease ↔
      store.managedAttaches.lookup pane = some lease ∧
        leaseOwnerBlocksDuplicate around.processes around.checkSecs lease = true :=
  lookup_retain

/-- A claim is refused by a lease of another surface, or replaces the lease of its pane and no other. -/
theorem claim_cases (pid : ℕ) (surface : CmuxSurfaceContext) :
    (∃ existing owner, (pruneManagedAttachLeases around store).managedAttaches.lookup paneId =
          some existing ∧ existing.cmuxSurfaceId = some owner ∧ owner ≠ surface.surfaceRef ∧
        claim around pid paneId token surface store =
          (pruneManagedAttachLeases around store, ⟨false, some owner⟩)) ∨
      ((∀ existing owner, (pruneManagedAttachLeases around store).managedAttaches.lookup paneId =
          some existing → existing.cmuxSurfaceId = some owner → owner = surface.surfaceRef) ∧
        (claim around pid paneId token surface store).2 = ⟨true, some surface.surfaceRef⟩ ∧
        ∀ pane, (claim around pid paneId token surface store).1.managedAttaches.lookup pane =
          if pane = paneId then some (newLease around pid paneId token surface)
          else (pruneManagedAttachLeases around store).managedAttaches.lookup pane) := by
  cases h : (pruneManagedAttachLeases around store).managedAttaches.lookup paneId with
  | none =>
    refine .inr ⟨nofun, ?_, fun pane => ?_⟩
    · simp [claim, h]
    · simp [claim, h, lookup_insert]
  | some existing =>
    have hblocks := (lookup_pruned.mp h).2
    cases hsurface : existing.cmuxSurfaceId with
    | none =>
      refine .inr ⟨fun _ owner heq hs => ?_, ?_, fun pane => ?_⟩
      · obtain rfl := Option.some.inj heq
        rw [hsurface] at hs
        cases hs
      · simp [claim, h, hblocks, hsurface]
      · simp [claim, h, hblocks, hsurface, lookup_insert]
    | some owner =>
      by_cases howner : owner = surface.surfaceRef
      · refine .inr ⟨fun _ owner' heq hs => ?_, ?_, fun pane => ?_⟩
        · obtain rfl := Option.some.inj heq
          rw [hsurface] at hs
          exact (Option.some.inj hs).symm.trans howner
        · simp [claim, h, hblocks, hsurface, howner]
        · simp [claim, h, hblocks, hsurface, howner, lookup_insert]
      · exact .inl ⟨existing, owner, rfl, hsurface, howner, by
          simp [claim, h, hblocks, hsurface, howner]⟩

/-- A release removes the lease of its pane and token, and prunes. -/
theorem lookup_release (pane : Str) :
    (release around paneId token store).managedAttaches.lookup pane =
      ((pruneManagedAttachLeases around store).managedAttaches.lookup pane).filter
        fun lease => ¬ (pane = paneId ∧ lease.token = token) := by
  unfold release
  simp only
  by_cases hpane : pane = paneId
  · subst hpane
    cases h : (pruneManagedAttachLeases around store).managedAttaches.lookup pane with
    | none => simp [h]
    | some lease =>
      by_cases htoken : lease.token = token
      · simp [htoken, Option.filter]
      · simp [htoken, h, Option.filter]
  · have hkeep : ((pruneManagedAttachLeases around store).managedAttaches.erase paneId).lookup pane =
        (pruneManagedAttachLeases around store).managedAttaches.lookup pane := by
      rw [lookup_erase, if_neg hpane]
    have hall : ∀ o : Option ManagedAttachLease,
        o.filter (fun lease => ¬ (pane = paneId ∧ lease.token = token)) = o := by
      intro o
      cases o <;> simp [Option.filter, hpane]
    rw [hall]
    split_ifs
    · exact hkeep
    · rfl

/-- A renewal updates the lease of its pane and token, and prunes. -/
theorem lookup_renew (pane : Str) :
    (renew around paneId token store).1.managedAttaches.lookup pane =
      ((pruneManagedAttachLeases around store).managedAttaches.lookup pane).map fun lease =>
        if pane = paneId ∧ lease.token = token then { lease with updatedSecs := around.updateSecs }
        else lease := by
  unfold renew
  simp only
  by_cases hpane : pane = paneId
  · subst hpane
    cases h : (pruneManagedAttachLeases around store).managedAttaches.lookup pane with
    | none => simp [h]
    | some lease =>
      by_cases htoken : lease.token = token
      · simp [htoken]
      · simp [htoken, h]
  · cases h : (pruneManagedAttachLeases around store).managedAttaches.lookup paneId with
    | none => simp [hpane]
    | some lease =>
      by_cases htoken : lease.token = token
      · simp [htoken, hpane]
      · simp [htoken, hpane]

/-! ## The invariant -/

/-- The lease of a holder. -/
structure Holder.Owns (holder : Holder) (lease : ManagedAttachLease) : Prop where
  pid : lease.pid = holder.pid
  identity : lease.processStartId = some holder.identity
  token : lease.token = holder.token
  surface : lease.cmuxSurfaceId = some holder.surfaceRef

/-- The lease of a holder is in the store. -/
def Holder.Leased (holder : Holder) (store : CompatStore) : Prop :=
  ∃ lease, store.managedAttaches.lookup holder.paneId = some lease ∧ holder.Owns lease

/-- Every lease is some holder's, and a living holder that was neither released nor taken over has
one. -/
structure Inv (s : System) : Prop where
  valid : ∀ pid identity, s.processes.lookup pid = some identity →
    pid ≠ 0 ∧ pid < 2 ^ 31 ∧ identity ∈ s.identities
  known : ∀ h ∈ s.holders, h.identity ∈ s.identities ∧ h.token ∈ s.tokens
  distinct : (s.holders.map Holder.token).Nodup
  leases : ∀ paneId lease, s.file.store.managedAttaches.lookup paneId = some lease →
    ∃ h ∈ s.holders, h.paneId = paneId ∧ h.Owns lease
  held : ∀ h ∈ s.holders, s.Alive h → h.released = false → h.takenOver = false →
    h.Leased s.file.store

/-- The lease of a living holder blocks. -/
theorem Inv.blocks {s : System} (hinv : Inv s) {holder : Holder} {lease : ManagedAttachLease}
    (hlive : s.Alive holder) (hown : holder.Owns lease) (now : ℕ) :
    leaseOwnerBlocksDuplicate s.processes now lease = true := by
  obtain ⟨hpid, hlt, -⟩ := hinv.valid _ _ hlive
  have hmem : holder.pid ∈ s.processes := Finmap.mem_of_lookup_eq_some hlive
  have halive : leaseOwnerIsLive s.processes lease = true := by
    unfold leaseOwnerIsLive processIsLive processStartIdentity
    rw [hown.pid, hown.identity, hlive]
    simp only [hpid, hlt, hmem, ne_eq, not_false_eq_true, decide_true, Bool.and_self]
  unfold leaseOwnerBlocksDuplicate
  rw [halive, Bool.true_or]

/-- The lease of a dead holder does not. -/
theorem not_blocks {s : System} {holder : Holder} {lease : ManagedAttachLease}
    (hdead : ¬ s.Alive holder) (hown : holder.Owns lease) (now : ℕ) :
    leaseOwnerBlocksDuplicate s.processes now lease = false := by
  have hidentity : processStartIdentity s.processes lease.pid ≠ some holder.identity := by
    rw [hown.pid]
    exact hdead
  simp [leaseOwnerBlocksDuplicate, leaseOwnerIsLive, hown.identity, hidentity]

/-- The pruning keeps the lease of a living holder. -/
theorem Inv.pruned {s : System} (hinv : Inv s) {holder : Holder} {lease : ManagedAttachLease}
    (hlive : s.Alive holder) (hown : holder.Owns lease) {pane : Str} (check update : ℕ)
    (h : s.file.store.managedAttaches.lookup pane = some lease) :
    (pruneManagedAttachLeases (s.around check update) s.file.store).managedAttaches.lookup pane =
      some lease :=
  lookup_pruned.mpr ⟨h, hinv.blocks hlive hown check⟩

/-- Two holders with one token are one. -/
theorem Inv.token_inj {s : System} (hinv : Inv s) {h h' : Holder} (hh : h ∈ s.holders)
    (hh' : h' ∈ s.holders) (htoken : h.token = h'.token) : h = h' :=
  List.inj_on_of_nodup_map hinv.distinct hh hh' htoken

/-- A change of the two marks of a holder, neither of which is taken back. -/
structure Marks (f : Holder → Holder) : Prop where
  same : ∀ h, f h = { h with released := (f h).released, takenOver := (f h).takenOver }
  released : ∀ h, (f h).released = false → h.released = false
  takenOver : ∀ h, (f h).takenOver = false → h.takenOver = false

theorem Marks.owns {f : Holder → Holder} (hf : Marks f) {holder : Holder}
    {lease : ManagedAttachLease} (h : holder.Owns lease) : (f holder).Owns lease := by
  rw [hf.same]
  exact ⟨h.pid, h.identity, h.token, h.surface⟩

theorem marks_id : Marks id := ⟨fun _ => rfl, fun _ h => h, fun _ h => h⟩

theorem marks_drop (token : Str) : Marks (Holder.drop token) := by
  refine ⟨fun h => ?_, fun h => ?_, fun h => ?_⟩ <;> unfold Holder.drop <;> split_ifs <;> simp

theorem marks_yield (paneId surfaceRef : Str) : Marks (Holder.yield paneId surfaceRef) := by
  refine ⟨fun h => ?_, fun h => ?_, fun h => ?_⟩ <;> unfold Holder.yield <;> split_ifs <;> simp

/-- A new file and new marks keep the invariant if the leases are holders' and those of the living
that are neither released nor taken over stay. -/
theorem Inv.update {s : System} (hinv : Inv s) {file : StoreFile} {f : Holder → Holder}
    (hf : Marks f)
    (hleases : ∀ paneId lease, file.store.managedAttaches.lookup paneId = some lease →
      ∃ h ∈ s.holders, h.paneId = paneId ∧ h.Owns lease)
    (hheld : ∀ h ∈ s.holders, s.Alive h → (f h).released = false → (f h).takenOver = false →
      h.Leased s.file.store → h.Leased file.store) :
    Inv { s with file, holders := s.holders.map f } := by
  have hidentity (h : Holder) : (f h).identity = h.identity := by rw [hf.same]
  have htoken (h : Holder) : (f h).token = h.token := by rw [hf.same]
  have hpid (h : Holder) : (f h).pid = h.pid := by rw [hf.same]
  have hpane (h : Holder) : (f h).paneId = h.paneId := by rw [hf.same]
  constructor
  · exact hinv.valid
  · intro h hmem
    obtain ⟨h, hh, rfl⟩ := List.mem_map.mp hmem
    rw [hidentity, htoken]
    exact hinv.known h hh
  · have hsame : Holder.token ∘ f = Holder.token := funext htoken
    rw [List.map_map, hsame]
    exact hinv.distinct
  · intro paneId lease hl
    obtain ⟨h, hh, hp, hown⟩ := hleases paneId lease hl
    exact ⟨f h, List.mem_map_of_mem hh, (hpane h).trans hp, hf.owns hown⟩
  · intro h hmem hlive hrel htaken
    obtain ⟨h, hh, rfl⟩ := List.mem_map.mp hmem
    have hlive : s.Alive h := by
      unfold System.Alive at hlive ⊢
      rwa [hpid, hidentity] at hlive
    obtain ⟨lease, hl, hown⟩ := hheld h hh hlive hrel htaken
      (hinv.held h hh hlive (hf.released h hrel) (hf.takenOver h htaken))
    exact ⟨lease, by rw [hpane]; exact hl, hf.owns hown⟩

theorem Inv.file {s : System} (hinv : Inv s) {file : StoreFile}
    (hleases : ∀ paneId lease, file.store.managedAttaches.lookup paneId = some lease →
      ∃ h ∈ s.holders, h.paneId = paneId ∧ h.Owns lease)
    (hheld : ∀ h ∈ s.holders, s.Alive h → h.Leased s.file.store → h.Leased file.store) :
    Inv { s with file } := by
  have h := hinv.update marks_id hleases fun h hh hlive _ _ => hheld h hh hlive
  rwa [List.map_id] at h

/-- What an update leaves of the leases when it only prunes. -/
theorem Inv.prune {s : System} (hinv : Inv s) {file : StoreFile} (check update : ℕ)
    (h : file.store.managedAttaches =
      (pruneManagedAttachLeases (s.around check update) s.file.store).managedAttaches) :
    Inv { s with file } := by
  refine hinv.file (fun paneId lease hl => ?_) fun holder _ hlive hleased => ?_
  · rw [h] at hl
    exact hinv.leases paneId lease (lookup_pruned.mp hl).1
  · obtain ⟨lease, hl, hown⟩ := hleased
    exact ⟨lease, by rw [h]; exact hinv.pruned hlive hown check update hl, hown⟩

theorem Inv.same {s : System} (hinv : Inv s) {file : StoreFile}
    (h : file.store.managedAttaches = s.file.store.managedAttaches) : Inv { s with file } := by
  refine hinv.file (fun paneId lease hl => ?_) fun holder _ _ hleased => ?_
  · rw [h] at hl
    exact hinv.leases paneId lease hl
  · obtain ⟨lease, hl, hown⟩ := hleased
    exact ⟨lease, by rw [h]; exact hl, hown⟩

/-! ## Each step keeps it -/

theorem spawn_inv {s : System} (hinv : Inv s) (pid : ℕ) (identity : Str) :
    Inv (step s (.spawn pid identity)) := by
  simp only [step]
  split_ifs with hguard
  · exact hinv
  · simp only [not_or, not_le] at hguard
    obtain ⟨hpid, hlt, -, hfresh⟩ := hguard
    refine ⟨fun pid' identity' h => ?_, fun h hh => ?_, hinv.distinct, hinv.leases,
      fun h hh hlive => ?_⟩
    · rw [lookup_insert] at h
      split_ifs at h with heq
      · obtain rfl := Option.some.inj h
        exact ⟨heq ▸ hpid, heq ▸ hlt, List.mem_cons_self⟩
      · obtain ⟨h1, h2, h3⟩ := hinv.valid _ _ h
        exact ⟨h1, h2, List.mem_cons_of_mem _ h3⟩
    · exact ⟨List.mem_cons_of_mem _ (hinv.known h hh).1, (hinv.known h hh).2⟩
    · -- a new process is none of the holders, whose identities were used before
      refine hinv.held h hh ?_
      have hlive : (s.processes.insert pid identity).lookup h.pid = some h.identity := hlive
      rw [lookup_insert] at hlive
      split_ifs at hlive with heq
      · exact absurd (Option.some.inj hlive ▸ (hinv.known h hh).1) hfresh
      · exact hlive

theorem die_inv {s : System} (hinv : Inv s) (pid : ℕ) : Inv (step s (.die pid)) := by
  have hlookup : ∀ pid' identity, (s.processes.erase pid).lookup pid' = some identity →
      s.processes.lookup pid' = some identity := by
    intro pid' identity h
    rw [lookup_erase] at h
    split_ifs at h
    exact h
  exact ⟨fun pid' identity h => hinv.valid _ _ (hlookup _ _ h), hinv.known, hinv.distinct,
    hinv.leases, fun h hh hlive => hinv.held h hh (hlookup _ _ hlive)⟩

/-- An update of the lease of a holder leaves it that holder's. -/
theorem Holder.Owns.touch {holder : Holder} {lease : ManagedAttachLease} (h : holder.Owns lease)
    (now : ℕ) : holder.Owns { lease with updatedSecs := now } :=
  ⟨h.pid, h.identity, h.token, h.surface⟩

theorem renew_inv {s : System} (hinv : Inv s) (i : ℕ) (io : Io) (check update : ℕ) :
    Inv (step s (.renew i io check update)) := by
  simp only [step]
  split
  · exact hinv
  rename_i holder hget
  split
  · exact hinv
  rcases @updateStore_ok _ io s.file (renew (s.around check update) holder.paneId holder.token) with
    ⟨-, hstore⟩ | ⟨-, hstore⟩
  · exact hinv.same (congrArg CompatStore.managedAttaches hstore)
  · have hlookup (pane : Str) := congrArg (fun store => store.managedAttaches.lookup pane) hstore
    simp only [lookup_renew] at hlookup
    refine hinv.file (fun paneId lease hl => ?_) fun h _ hlive hleased => ?_
    · obtain ⟨old, hold, rfl⟩ := Option.map_eq_some_iff.mp ((hlookup paneId).symm.trans hl)
      obtain ⟨h, hh, hpane, hown⟩ := hinv.leases _ _ (lookup_pruned.mp hold).1
      refine ⟨h, hh, hpane, ?_⟩
      split_ifs
      · exact hown.touch _
      · exact hown
    · obtain ⟨lease, hl, hown⟩ := hleased
      have hpruned := hinv.pruned hlive hown check update hl
      refine ⟨_, (hlookup h.paneId).trans (by rw [hpruned, Option.map_some]), ?_⟩
      split_ifs
      · exact hown.touch _
      · exact hown

theorem release_inv {s : System} (hinv : Inv s) (i : ℕ) (io : Io) (check update : ℕ) :
    Inv (step s (.release i io check update)) := by
  simp only [step]
  split
  · exact hinv
  rename_i holder hget
  split
  · exact hinv
  have hmem : holder ∈ s.holders := List.mem_of_getElem? hget
  rcases @updateStore_ok _ io s.file
    (fun store => (release (s.around check update) holder.paneId holder.token store, ())) with
    ⟨-, hstore⟩ | ⟨-, hstore⟩
  · refine hinv.update (marks_drop _) (fun paneId lease hl => ?_) fun h _ _ _ _ hleased => ?_
    · exact hinv.leases paneId lease (hstore ▸ hl)
    · exact hstore ▸ hleased
  · have hlookup (pane : Str) := congrArg (fun store => store.managedAttaches.lookup pane) hstore
    simp only [lookup_release] at hlookup
    refine hinv.update (marks_drop _) (fun paneId lease hl => ?_) fun h hh hlive hrel _ hleased => ?_
    · have hold := (Option.filter_eq_some_iff.mp ((hlookup paneId).symm.trans hl)).1
      exact hinv.leases _ _ (lookup_pruned.mp hold).1
    · obtain ⟨lease, hl, hown⟩ := hleased
      have hpruned := hinv.pruned hlive hown check update hl
      have hother : lease.token ≠ holder.token := by
        intro htoken
        have hdropped : (Holder.drop holder.token h).released = true := by
          rw [Holder.drop, if_pos (hown.token.symm.trans htoken)]
        rw [hrel] at hdropped
        cases hdropped
      refine ⟨lease, (hlookup h.paneId).trans ?_, hown⟩
      rw [hpruned]
      simp [Option.filter, hother]

theorem other_inv {s : System} (hinv : Inv s) (io : Io) (rest : CompatStore) :
    Inv (step s (.other io rest)) := by
  refine hinv.same ?_
  rcases @updateStore_ok _ io s.file
    (fun store => ({ rest with managedAttaches := store.managedAttaches }, ())) with
    ⟨-, hstore⟩ | ⟨-, hstore⟩
  · rw [hstore]
  · rw [hstore]

/-! ## Claims -/

/-- A living holder on another surface, neither released nor taken over, has a lease that refuses the
claim. -/
theorem Inv.no_rival {s : System} (hinv : Inv s) {check update : ℕ} {surface : CmuxSurfaceContext}
    (hown : ∀ existing owner,
      (pruneManagedAttachLeases (s.around check update) s.file.store).managedAttaches.lookup paneId =
        some existing → existing.cmuxSurfaceId = some owner → owner = surface.surfaceRef)
    {h : Holder} (hh : h ∈ s.holders) (hlive : s.Alive h) (hpane : h.paneId = paneId)
    (hrel : h.released = false) (htaken : h.takenOver = false) :
    h.surfaceRef = surface.surfaceRef := by
  obtain ⟨lease, hl, howns⟩ := hinv.held h hh hlive hrel htaken
  have hpruned := hinv.pruned hlive howns check update hl
  rw [hpane] at hpruned
  exact hown lease h.surfaceRef hpruned howns.surface

/-- The claimant is a holder with a lease. -/
theorem enroll_inv {s : System} (hinv : Inv s) {pid : ℕ} {identity : Str} {file : StoreFile}
    {check update : ℕ} {surface : CmuxSurfaceContext}
    (hpid : s.processes.lookup pid = some identity) (hused : token ∈ s.tokens)
    (hfresh : ∀ h ∈ s.holders, h.token ≠ token)
    (hown : ∀ existing owner,
      (pruneManagedAttachLeases (s.around check update) s.file.store).managedAttaches.lookup paneId =
        some existing → existing.cmuxSurfaceId = some owner → owner = surface.surfaceRef)
    (hlookup : ∀ pane, file.store.managedAttaches.lookup pane =
      if pane = paneId then some (newLease (s.around check update) pid paneId token surface)
      else (pruneManagedAttachLeases (s.around check update) s.file.store).managedAttaches.lookup
        pane) :
    Inv ({ s with file }.enroll pid identity paneId token surface.surfaceRef) := by
  have hf := marks_yield paneId surface.surfaceRef
  have hnew : (Holder.mk pid identity paneId token surface.surfaceRef false false).Owns
      (newLease (s.around check update) pid paneId token surface) := ⟨rfl, hpid, rfl, rfl⟩
  constructor
  · exact hinv.valid
  · intro h hmem
    rcases List.mem_append.mp hmem with hmem | hmem
    · obtain ⟨h, hh, rfl⟩ := List.mem_map.mp hmem
      rw [hf.same]
      exact hinv.known h hh
    · rw [List.mem_singleton.mp hmem]
      exact ⟨(hinv.valid _ _ hpid).2.2, hused⟩
  · have htoken : Holder.token ∘ Holder.yield paneId surface.surfaceRef = Holder.token :=
      funext fun h => by rw [Function.comp_apply, hf.same]
    show ((s.holders.map _ ++ [_]).map Holder.token).Nodup
    rw [List.map_append, List.map_map, htoken]
    refine List.Nodup.append hinv.distinct (List.nodup_singleton _) ?_
    intro t ht ht'
    obtain ⟨h, hh, rfl⟩ := List.mem_map.mp ht
    exact hfresh h hh (List.mem_singleton.mp ht')
  · intro pane lease hl
    have hl : file.store.managedAttaches.lookup pane = some lease := hl
    rw [hlookup] at hl
    split_ifs at hl with hpane
    · obtain rfl := Option.some.inj hl
      exact ⟨_, List.mem_append_right _ (List.mem_singleton_self _), hpane.symm, hnew⟩
    · obtain ⟨h, hh, hp, howns⟩ := hinv.leases _ _ (lookup_pruned.mp hl).1
      refine ⟨_, List.mem_append_left _ (List.mem_map_of_mem hh), ?_, hf.owns howns⟩
      rw [hf.same]
      exact hp
  · intro h hmem hlive hrel htaken
    rcases List.mem_append.mp hmem with hmem | hmem
    · obtain ⟨h, hh, rfl⟩ := List.mem_map.mp hmem
      have hlive : s.Alive h := by
        rw [hf.same] at hlive
        exact hlive
      have hrel := hf.released h hrel
      have hyield := htaken
      have htaken := hf.takenOver h htaken
      have hpane : h.paneId ≠ paneId := by
        intro hpane
        have hsurface := hinv.no_rival hown hh hlive hpane hrel htaken
        rw [Holder.yield, if_pos ⟨hpane, hsurface⟩] at hyield
        cases hyield
      obtain ⟨lease, hl, howns⟩ := hinv.held h hh hlive hrel htaken
      refine ⟨lease, ?_, hf.owns howns⟩
      rw [hf.same]
      show file.store.managedAttaches.lookup h.paneId = some lease
      rw [hlookup, if_neg hpane]
      exact hinv.pruned hlive howns check update hl
    · obtain rfl := List.mem_singleton.mp hmem
      exact ⟨_, (hlookup paneId).trans (if_pos rfl), hnew⟩

/-- A claim that is refused or fails keeps the invariant, and so does one that is admitted. -/
theorem claim_inv {s : System} (hinv : Inv s) {pid : ℕ} {identity : Str} {io : Io}
    {check update : ℕ} {surface : CmuxSurfaceContext}
    (hpid : s.processes.lookup pid = some identity) (hused : token ∈ s.tokens)
    (hfresh : ∀ h ∈ s.holders, h.token ≠ token) {file : StoreFile}
    {result : Except Str ManagedAttachClaim}
    (h : claimManagedAttach io (s.around check update) pid paneId token surface s.file =
      (file, result)) :
    match result with
    | .ok ⟨true, _⟩ => Inv ({ s with file }.enroll pid identity paneId token surface.surfaceRef)
    | _ => Inv { s with file } := by
  rcases @updateStore_ok _ io s.file (claim (s.around check update) pid paneId token surface) with
    ⟨⟨err, herr⟩, hstore⟩ | ⟨hok, hstore⟩
  · change (claimManagedAttach io (s.around check update) pid paneId token surface s.file).2 = _
      at herr
    change (claimManagedAttach io (s.around check update) pid paneId token surface s.file).1.store
      = _ at hstore
    rw [h] at herr hstore
    obtain rfl : result = .error err := herr
    exact hinv.same (congrArg CompatStore.managedAttaches hstore)
  · change (claimManagedAttach io (s.around check update) pid paneId token surface s.file).2 = _
      at hok
    change (claimManagedAttach io (s.around check update) pid paneId token surface s.file).1.store
      = _ at hstore
    rw [h] at hok hstore
    rcases @claim_cases (s.around check update) s.file.store paneId token pid surface with
      ⟨existing, owner, -, -, -, heq⟩ | ⟨hown, hproceed, hlookup⟩
    · rw [heq] at hok hstore
      obtain rfl : result = .ok ⟨false, some owner⟩ := hok
      exact hinv.prune check update (congrArg CompatStore.managedAttaches hstore)
    · rw [hproceed] at hok
      obtain rfl : result = .ok ⟨true, some surface.surfaceRef⟩ := hok
      refine enroll_inv hinv hpid hused hfresh hown fun pane => ?_
      rw [← hlookup]
      exact congrArg (fun store => store.managedAttaches.lookup pane) hstore

/-- An attach proceeds under a guard after a claim that says so; without one, its claim, if it made
one, was refused or failed. -/
theorem prepare_cases (enabled : Bool) (identified : Except Str (Option CmuxSurfaceContext))
    (closed : Except Str Unit) (io : Io) (pid : ℕ) (file : StoreFile) :
    (∃ surface file' owner, identified = .ok (some surface) ∧
        claimManagedAttach io around pid paneId token surface file = (file', .ok ⟨true, owner⟩) ∧
        prepareManagedAttach enabled identified closed io around pid paneId token file =
          (file', .ok (.proceed (some (paneId, token))))) ∨
      ∃ file' decision,
        prepareManagedAttach enabled identified closed io around pid paneId token file =
          (file', decision) ∧ (∀ lease, decision ≠ .ok (.proceed (some lease))) ∧
        (file' = file ∨ ∃ surface result,
          claimManagedAttach io around pid paneId token surface file = (file', result) ∧
            ∀ owner, result ≠ .ok ⟨true, owner⟩) := by
  unfold prepareManagedAttach
  cases enabled with
  | false => exact .inr ⟨file, _, rfl, by simp, .inl rfl⟩
  | true =>
    rcases identified with err | _ | surface
    · exact .inr ⟨file, _, rfl, by simp, .inl rfl⟩
    · exact .inr ⟨file, _, rfl, by simp, .inl rfl⟩
    · simp only [Bool.not_true, Bool.false_eq_true, if_false]
      rcases hclaim : claimManagedAttach io around pid paneId token surface file with
        ⟨file', err | ⟨proceed, owner⟩⟩
      · exact .inr ⟨file', _, rfl, by simp, .inr ⟨surface, _, hclaim, by simp⟩⟩
      · cases proceed with
        | true => exact .inl ⟨surface, file', owner, rfl, hclaim, rfl⟩
        | false =>
          have hrefused : ∃ surface result,
              claimManagedAttach io around pid paneId token surface file = (file', result) ∧
                ∀ owner, result ≠ .ok ⟨true, owner⟩ := ⟨surface, _, hclaim, by simp⟩
          simp only [Bool.false_eq_true, if_false]
          split_ifs
          · cases closed with
            | error err => exact .inr ⟨file', _, rfl, by simp, .inr hrefused⟩
            | ok _ => exact .inr ⟨file', _, rfl, by simp, .inr hrefused⟩
          · exact .inr ⟨file', _, rfl, by simp, .inr hrefused⟩

theorem attach_inv {s : System} (hinv : Inv s) (pid : ℕ) (paneId token : Str) (enabled : Bool)
    (identified : Except Str (Option CmuxSurfaceContext)) (closed : Except Str Unit) (io : Io)
    (check update : ℕ) :
    Inv (step s (.attach pid paneId token enabled identified closed io check update)) := by
  simp only [step]
  cases hpid : s.processes.lookup pid with
  | none => exact hinv
  | some identity =>
    simp only
    split_ifs with hused
    · exact hinv
    have hinv' : Inv { s with tokens := token :: s.tokens } :=
      ⟨hinv.valid, fun h hh => ⟨(hinv.known h hh).1, List.mem_cons_of_mem _ (hinv.known h hh).2⟩,
        hinv.distinct, hinv.leases, hinv.held⟩
    have hfresh : ∀ h ∈ s.holders, h.token ≠ token := fun h hh heq =>
      hused (heq ▸ (hinv.known h hh).2)
    have hpid' : ({ s with tokens := token :: s.tokens } : System).processes.lookup pid =
        some identity := hpid
    rcases @prepare_cases (({ s with tokens := token :: s.tokens } : System).around check update)
      paneId token enabled identified closed io pid s.file with
      ⟨surface, file, owner, rfl, hclaim, hprepare⟩ | ⟨file, decision, hprepare, hno, hfile⟩
    · rw [hprepare]
      exact claim_inv hinv' hpid' List.mem_cons_self hfresh hclaim
    · rw [hprepare]
      have hkeep : Inv { s with tokens := token :: s.tokens, file } := by
        rcases hfile with rfl | ⟨surface, result, hclaim, hresult⟩
        · exact hinv'
        · have hinv := claim_inv hinv' hpid' List.mem_cons_self hfresh hclaim
          split at hinv
          · exact absurd rfl (hresult _)
          · exact hinv
      split
      · rename_i heq
        exact absurd (Prod.mk.inj heq).2 (hno _)
      · rename_i heq
        rw [← (Prod.mk.inj heq).1]
        exact hkeep

theorem step_inv (s : System) (a : Action) (hinv : Inv s) : Inv (step s a) := by
  cases a with
  | spawn pid identity => exact spawn_inv hinv pid identity
  | die pid => exact die_inv hinv pid
  | attach => exact attach_inv hinv _ _ _ _ _ _ _ _ _
  | renew => exact renew_inv hinv _ _ _ _
  | release => exact release_inv hinv _ _ _ _
  | other => exact other_inv hinv _ _

theorem start_inv : Inv System.start :=
  ⟨nofun, nofun, List.nodup_nil, nofun, nofun⟩

theorem run_inv (actions : List Action) : Inv (run step System.start actions) :=
  run_invariant step_inv actions _ start_inv

/-! ## Exclusion -/

/-- A release or a renewal under another token leaves the lease of a living holder as it is. -/
theorem Inv.undisturbed {s : System} (hinv : Inv s) {h : Holder} (hlive : s.Alive h)
    {lease : ManagedAttachLease} (howns : h.Owns lease)
    (hl : s.file.store.managedAttaches.lookup pane = some lease) (htoken : h.token ≠ token) (io : Io)
    (check update : ℕ) (paneId : Str) :
    (releaseManagedAttach io (s.around check update) paneId token
        s.file).1.store.managedAttaches.lookup pane = some lease ∧
      (renewManagedAttach io (s.around check update) paneId token
        s.file).1.store.managedAttaches.lookup pane = some lease := by
  have hpruned := hinv.pruned hlive howns check update hl
  have hne : lease.token ≠ token := howns.token ▸ htoken
  constructor
  · rcases @updateStore_ok _ io s.file
      (fun store => (release (s.around check update) paneId token store, ())) with
      ⟨-, hstore⟩ | ⟨-, hstore⟩
    · exact (congrArg (fun store => store.managedAttaches.lookup pane) hstore).trans hl
    · refine (congrArg (fun store => store.managedAttaches.lookup pane) hstore).trans ?_
      rw [lookup_release, hpruned]
      simp [Option.filter, hne]
  · rcases @updateStore_ok _ io s.file (renew (s.around check update) paneId token) with
      ⟨-, hstore⟩ | ⟨-, hstore⟩
    · exact (congrArg (fun store => store.managedAttaches.lookup pane) hstore).trans hl
    · refine (congrArg (fun store => store.managedAttaches.lookup pane) hstore).trans ?_
      simp [lookup_renew, hpruned, hne]

/-- What a claim that returns says: it proceeds unless the lease of a living holder on another surface
is in the store. -/
theorem Inv.claim_returns {s : System} (hinv : Inv s) {io : Io} {check update pid : ℕ}
    {surface : CmuxSurfaceContext} {answer : ManagedAttachClaim}
    (h : (claimManagedAttach io (s.around check update) pid paneId token surface s.file).2 =
      .ok answer) :
    (answer.proceed = false → ∃ h ∈ s.holders, s.Alive h ∧ h.paneId = paneId ∧
        h.surfaceRef ≠ surface.surfaceRef ∧ h.Leased s.file.store) ∧
      (answer.proceed = true → ∀ h ∈ s.holders, s.Alive h → h.paneId = paneId →
        h.surfaceRef ≠ surface.surfaceRef → h.released = true ∨ h.takenOver = true) := by
  rcases @updateStore_ok _ io s.file (claim (s.around check update) pid paneId token surface) with
    ⟨⟨err, herr⟩, -⟩ | ⟨hok, -⟩
  · have := herr.symm.trans h
    cases this
  · obtain rfl : (claim (s.around check update) pid paneId token surface s.file.store).2 = answer :=
      Except.ok.inj (hok.symm.trans h)
    rcases @claim_cases (s.around check update) s.file.store paneId token pid surface with
      ⟨existing, owner, hl, howner, hne, heq⟩ | ⟨hown, hproceed, -⟩
    · rw [heq]
      refine ⟨fun _ => ?_, nofun⟩
      obtain ⟨hl, hblocks⟩ := lookup_pruned.mp hl
      obtain ⟨h, hh, hpane, howns⟩ := hinv.leases _ _ hl
      refine ⟨h, hh, ?_, hpane, ?_, existing, by rw [hpane]; exact hl, howns⟩
      · by_contra hdead
        exact absurd ((not_blocks hdead howns check).symm.trans hblocks) Bool.false_ne_true
      · have := howns.surface.symm.trans howner
        rwa [Option.some.inj this]
    · rw [hproceed]
      refine ⟨nofun, fun _ h hh hlive hpane hne => ?_⟩
      by_contra hstill
      simp only [not_or, Bool.not_eq_true] at hstill
      exact hne (hinv.no_rival hown hh hlive hpane hstill.1 hstill.2)

/-- In every state that claims, renewals, releases, deaths and new processes lead to: a claim that
proceeds finds no living holder of its pane on another surface, except one that released or was taken
over; nobody's release or renewal touches the lease of another living holder; and a pane whose lease
is a dead holder's is free. -/
theorem managed_attach_exclusion (actions : List Action) :
    (∀ io check update pid paneId token surface answer,
        (claimManagedAttach io ((run step .start actions).around check update) pid paneId token
          surface (run step .start actions).file).2 = .ok answer → answer.proceed = true →
        ∀ h ∈ (run step .start actions).holders, (run step .start actions).Alive h →
          h.paneId = paneId → h.surfaceRef ≠ surface.surfaceRef →
            h.released = true ∨ h.takenOver = true) ∧
      (∀ h ∈ (run step .start actions).holders, ∀ h' ∈ (run step .start actions).holders,
        h ≠ h' → (run step .start actions).Alive h' → ∀ lease,
        (run step .start actions).file.store.managedAttaches.lookup h'.paneId = some lease →
        lease.token = h'.token → ∀ io check update,
          (releaseManagedAttach io ((run step .start actions).around check update) h.paneId h.token
              (run step .start actions).file).1.store.managedAttaches.lookup h'.paneId = some lease ∧
            (renewManagedAttach io ((run step .start actions).around check update) h.paneId h.token
              (run step .start actions).file).1.store.managedAttaches.lookup h'.paneId =
                some lease) ∧
      (∀ h ∈ (run step .start actions).holders, ¬ (run step .start actions).Alive h →
        (∀ lease, (run step .start actions).file.store.managedAttaches.lookup h.paneId =
          some lease → lease.token = h.token) →
        ∀ io check update pid token surface answer,
          (claimManagedAttach io ((run step .start actions).around check update) pid h.paneId token
            surface (run step .start actions).file).2 = .ok answer → answer.proceed = true) := by
  have hinv := run_inv actions
  generalize run step .start actions = s at hinv ⊢
  refine ⟨?_, ?_, ?_⟩
  · intro io check update pid paneId token surface answer h
    exact (hinv.claim_returns h).2
  · intro h hh h' hh' hne hlive lease hl htoken io check update
    obtain ⟨owner, howner, -, howns⟩ := hinv.leases _ _ hl
    obtain rfl := hinv.token_inj howner hh' (howns.token.symm.trans htoken)
    refine hinv.undisturbed hlive howns hl (fun heq => ?_) io check update _
    exact hne (hinv.token_inj hh hh' heq.symm)
  · intro h hh hdead hlease io check update pid token surface answer hanswer
    cases hproceed : answer.proceed with
    | true => rfl
    | false =>
      obtain ⟨owner, howner, hlive, hpane, -, lease, hl, howns⟩ :=
        (hinv.claim_returns hanswer).1 hproceed
      have htoken := hlease lease (hpane ▸ hl)
      obtain rfl := hinv.token_inj howner hh (howns.token.symm.trans htoken)
      exact absurd hlive hdead

/-- Two processes of one surface attach, the second releases, and a third attaches from another
surface beside the first. -/
theorem attached_from_two_surfaces :
    let attach (pid : ℕ) (token surface : Str) : Action :=
      .attach pid "%9".toList token true (.ok (some ⟨surface, none, none⟩)) (.ok ()) .fine 0 0
    let s := run step .start [.spawn 10 "a".toList, .spawn 11 "b".toList, .spawn 12 "c".toList,
      attach 10 "t1".toList "surface:1".toList, attach 11 "t2".toList "surface:1".toList,
      .release 1 .fine 0 0]
    (∃ h ∈ s.holders, s.Alive h ∧ h.paneId = "%9".toList ∧ h.surfaceRef = "surface:1".toList ∧
        h.released = false) ∧
      (claimManagedAttach .fine (s.around 0 0) 12 "%9".toList "t3".toList
        ⟨"surface:2".toList, none, none⟩ s.file).2 = .ok ⟨true, some "surface:2".toList⟩ := by
  decide +kernel

end LightTerminal.Tmux.ManagedAttach
