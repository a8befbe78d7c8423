import LightTerminal.Library.Procedure
import LightTerminal.Server.Operations

/-! # The implicit parent of a new session

A client that runs in a session becomes the child of that session: its process is followed from parent to
parent until the leader of a live session is met (`resolve_peer_ancestry`), and the processes on the way
are looked at again before the new session is recorded (`validate_implicit_parent_chain`).

A process inspector is any partial function from pids to snapshots of the process with this pid; nothing
is assumed of the parents. -/

namespace LightTerminal.Server.Ancestry

open LightTerminal.Library.Procedure
open LightTerminal.Server.Model LightTerminal.Server.Operations

/-- `MAX_PROCESS_ANCESTRY_HOPS`. -/
def maxProcessAncestryHops : ℕ := 64

/-- `ProcessSnapshot`. -/
structure ProcessSnapshot where
  identity : ProcessIdentity
  parentPid : ℕ
  deriving DecidableEq, Repr

/-- `ProcessInspector`. -/
structure ProcessInspector where
  snapshot : ℕ → Option ProcessSnapshot
  reports : ∀ pid s, snapshot pid = some s → s.identity.pid = pid

/-- `LiveSessionLeader`. -/
structure LiveSessionLeader where
  parent : ParentSession
  identity : ProcessIdentity
  deriving DecidableEq

/-- `ImplicitParentProof`, with the processes from the peer to the leader. -/
structure AncestryProof extends ImplicitParentProof where
  chain : List ProcessSnapshot

/-- `ParentProvenanceReason`, as far as `resolve_peer_ancestry` gives them. -/
inductive ParentProvenanceReason where
  | unavailableNoCandidate
  | unavailableInspection
  | rejectedCycle
  | rejectedDepth
  | rejectedStale
  deriving DecidableEq, Repr

/-- `ImplicitParentResolution`. -/
inductive ImplicitParentResolution where
  | selected (proof : AncestryProof)
  | root (reason : ParentProvenanceReason)

section Resolve

variable (peer : ProcessIdentity) (leaders : List LiveSessionLeader) (inspector : ProcessInspector)

/-- The first leader that a process is. -/
def matched (snapshot : ProcessSnapshot) : Option LiveSessionLeader :=
  leaders.find? fun leader =>
    leader.identity.pid = snapshot.identity.pid ∧ leader.identity = snapshot.identity

/-- The loop of `resolve_peer_ancestry`, with the hops that are left. -/
def climb : ℕ → (chain : List ProcessSnapshot) → (seen : List ℕ) → (pid : ℕ) →
    ImplicitParentResolution
  | 0, _, _, _ => .root .rejectedDepth
  | hops + 1, chain, seen, pid =>
    if pid = 0 then .root .unavailableNoCandidate
    else if pid ∈ seen then .root .rejectedCycle
    else
      match inspector.snapshot pid with
      | none => .root (if pid ≤ 1 then .unavailableNoCandidate else .unavailableInspection)
      | some snapshot =>
        if chain = [] ∧ snapshot.identity ≠ peer then .root .rejectedStale
        else if snapshot.parentPid ∈ pid :: seen then .root .rejectedCycle
        else
          match matched leaders snapshot with
          | some leader => .selected ⟨⟨leader.parent, leader.identity⟩, chain ++ [snapshot]⟩
          | none =>
            if leaders.any fun leader => leader.identity.pid = snapshot.identity.pid then
              .root .rejectedStale
            else climb hops (chain ++ [snapshot]) (pid :: seen) snapshot.parentPid

/-- `resolve_peer_ancestry`. -/
def resolvePeerAncestry : ImplicitParentResolution :=
  climb peer leaders inspector maxProcessAncestryHops [] [] peer.pid

end Resolve

/-- Why a proof is refused. -/
inductive ProofError where
  | invalid
  | ancestryChanged
  | chainChanged
  | leaderChanged
  deriving DecidableEq, Repr

/-- The texts of the errors of `validate_implicit_parent_chain`. -/
def ProofError.text : ProofError → String
  | .invalid => "selected parent ancestry proof is invalid"
  | .ancestryChanged => "selected parent ancestry changed before commit"
  | .chainChanged => "selected parent ancestry chain changed before commit"
  | .leaderChanged => "selected parent leader identity changed before commit"

/-- The processes of a proof, one after the other. -/
def validateLinks (inspector : ProcessInspector) : List ProcessSnapshot → Except ProofError Unit
  | [] => .ok ()
  | expected :: rest => do
    let current ← expect (inspector.snapshot expected.identity.pid) ProofError.ancestryChanged
    require (current = expected) ProofError.ancestryChanged
    require (∀ next ∈ rest.head?, current.parentPid = next.identity.pid) ProofError.chainChanged
    validateLinks inspector rest

/-- `validate_implicit_parent_chain`. -/
def validateImplicitParentChain (proof : AncestryProof) (inspector : ProcessInspector) :
    Except ProofError Unit := do
  require (proof.chain ≠ [] ∧ proof.chain.length ≤ maxProcessAncestryHops) ProofError.invalid
  validateLinks inspector proof.chain
  require (proof.chain.getLast?.map ProcessSnapshot.identity = some proof.leaderIdentity)
    ProofError.leaderChanged

/-! ### Lines of ancestors -/

/-- A line of ancestors: each process is there, its parent is the next of the line, no pid is zero, and no
parent is the process itself or one before it in the line. -/
structure Line (inspector : ProcessInspector) (chain : List ProcessSnapshot) : Prop where
  current : ∀ s ∈ chain, inspector.snapshot s.identity.pid = some s
  links : chain.IsChain fun s next => s.parentPid = next.identity.pid
  nonzero : ∀ s ∈ chain, s.identity.pid ≠ 0
  distinct : (chain.map fun s => s.identity.pid).Nodup
  onward : ∀ s ∈ chain, s.parentPid ≠ s.identity.pid
  forward : chain.Pairwise fun s later => later.parentPid ≠ s.identity.pid

/-- The line ends at a leader and meets no other. -/
structure Nearest (leaders : List LiveSessionLeader) (chain : List ProcessSnapshot)
    (leader : LiveSessionLeader) : Prop where
  last : chain.getLast?.map ProcessSnapshot.identity = some leader.identity
  earlier : ∀ s ∈ chain.dropLast, ∀ other ∈ leaders, other.identity.pid ≠ s.identity.pid

variable {peer : ProcessIdentity} {leaders : List LiveSessionLeader} {inspector : ProcessInspector}

theorem matched_eq_some {snapshot : ProcessSnapshot} {leader : LiveSessionLeader}
    (h : matched leaders snapshot = some leader) :
    leader ∈ leaders ∧ leader.identity = snapshot.identity := by
  have hleader := List.find?_some h
  rw [decide_eq_true_eq] at hleader
  exact ⟨List.mem_of_find?_eq_some h, hleader.2⟩

theorem matched_of_mem {snapshot : ProcessSnapshot} {leader : LiveSessionLeader}
    (hmem : leader ∈ leaders) (hidentity : leader.identity = snapshot.identity) :
    ∃ first, matched leaders snapshot = some first ∧ first.identity = leader.identity := by
  cases hfirst : matched leaders snapshot with
  | none =>
    have hnot := List.find?_eq_none.mp hfirst leader hmem
    rw [decide_eq_true_eq, hidentity] at hnot
    exact absurd ⟨rfl, rfl⟩ hnot
  | some first => exact ⟨first, rfl, (matched_eq_some hfirst).2.trans hidentity.symm⟩

/-- No pid and no parent of a line was seen before. -/
def Unseen (seen : List ℕ) (chain : List ProcessSnapshot) : Prop :=
  ∀ s ∈ chain, s.identity.pid ∉ seen ∧ s.parentPid ∉ seen

theorem line_singleton {s : ProcessSnapshot} (hcurrent : inspector.snapshot s.identity.pid = some s)
    (hzero : s.identity.pid ≠ 0) (honward : s.parentPid ≠ s.identity.pid) : Line inspector [s] := by
  refine ⟨?_, List.isChain_singleton s, ?_, List.nodup_singleton _, ?_, List.pairwise_singleton _ s⟩
  all_goals intro other hother; rw [List.mem_singleton.mp hother]
  · exact hcurrent
  · exact hzero
  · exact honward

theorem line_cons {s next : ProcessSnapshot} {rest : List ProcessSnapshot}
    (hcurrent : inspector.snapshot s.identity.pid = some s) (hzero : s.identity.pid ≠ 0)
    (honward : s.parentPid ≠ s.identity.pid) (hlink : s.parentPid = next.identity.pid)
    (hrest : Line inspector (next :: rest)) (hunseen : Unseen [s.identity.pid] (next :: rest)) :
    Line inspector (s :: next :: rest) := by
  have hnot {other : ProcessSnapshot} (hother : other ∈ next :: rest) :
      other.identity.pid ≠ s.identity.pid ∧ other.parentPid ≠ s.identity.pid := by
    obtain ⟨hpid, hparent⟩ := hunseen other hother
    exact ⟨fun heq => hpid (List.mem_singleton.mpr heq),
      fun heq => hparent (List.mem_singleton.mpr heq)⟩
  refine ⟨?_, List.isChain_cons_cons.mpr ⟨hlink, hrest.links⟩, ?_, ?_, ?_, ?_⟩
  · exact List.forall_mem_cons.mpr ⟨hcurrent, hrest.current⟩
  · exact List.forall_mem_cons.mpr ⟨hzero, hrest.nonzero⟩
  · rw [List.map_cons, List.nodup_cons]
    refine ⟨fun hmem => ?_, hrest.distinct⟩
    obtain ⟨other, hother, heq⟩ := List.mem_map.mp hmem
    exact (hnot hother).1 heq
  · exact List.forall_mem_cons.mpr ⟨honward, hrest.onward⟩
  · exact List.pairwise_cons.mpr ⟨fun other hother => (hnot hother).2, hrest.forward⟩

theorem line_of_cons {s next : ProcessSnapshot} {rest : List ProcessSnapshot}
    (h : Line inspector (s :: next :: rest)) : s.parentPid = next.identity.pid ∧
      Line inspector (next :: rest) ∧ Unseen [s.identity.pid] (next :: rest) := by
  obtain ⟨hlink, hlinks⟩ := List.isChain_cons_cons.mp h.links
  obtain ⟨hnew, hdistinct⟩ := List.nodup_cons.mp h.distinct
  obtain ⟨hforward, hpairs⟩ := List.pairwise_cons.mp h.forward
  refine ⟨hlink, ⟨(List.forall_mem_cons.mp h.current).2, hlinks, (List.forall_mem_cons.mp h.nonzero).2,
    hdistinct, (List.forall_mem_cons.mp h.onward).2, hpairs⟩, fun other hother => ⟨?_, ?_⟩⟩
  · rw [List.mem_singleton]
    exact fun heq => hnew (List.mem_map.mpr ⟨other, hother, heq⟩)
  · rw [List.mem_singleton]
    exact hforward other hother

theorem unseen_cons {pid : ℕ} {seen : List ℕ} {chain : List ProcessSnapshot} :
    Unseen (pid :: seen) chain ↔ Unseen [pid] chain ∧ Unseen seen chain := by
  constructor
  · intro h
    refine ⟨fun s hs => ?_, fun s hs => ?_⟩
    · obtain ⟨hpid, hparent⟩ := h s hs
      simp only [List.mem_cons, List.not_mem_nil, or_false, not_or] at hpid hparent ⊢
      exact ⟨hpid.1, hparent.1⟩
    · obtain ⟨hpid, hparent⟩ := h s hs
      exact ⟨fun hmem => hpid (List.mem_cons_of_mem _ hmem),
        fun hmem => hparent (List.mem_cons_of_mem _ hmem)⟩
  · rintro ⟨hone, hseen⟩ s hs
    obtain ⟨hpid, hparent⟩ := hone s hs
    rw [List.mem_singleton] at hpid hparent
    obtain ⟨hpid', hparent'⟩ := hseen s hs
    simp only [List.mem_cons, not_or]
    exact ⟨⟨hpid, hpid'⟩, hparent, hparent'⟩

/-! ### The climb -/

/-- What the climb has found: a line from a pid to a leader. -/
structure Found (peer : ProcessIdentity) (leaders : List LiveSessionLeader)
    (inspector : ProcessInspector) (hops : ℕ) (before : List ProcessSnapshot) (seen : List ℕ)
    (pid : ℕ) (rest : List ProcessSnapshot) (leader : LiveSessionLeader) : Prop where
  member : leader ∈ leaders
  length : rest.length ≤ hops
  head : ∃ s ∈ rest.head?, s.identity.pid = pid ∧ (before = [] → s.identity = peer)
  line : Line inspector rest
  unseen : Unseen seen rest
  nearest : Nearest leaders rest leader

theorem climb_selected {hops : ℕ} {before : List ProcessSnapshot} {seen : List ℕ} {pid : ℕ}
    {proof : AncestryProof} (h : climb peer leaders inspector hops before seen pid = .selected proof) :
    ∃ rest leader, proof = ⟨⟨leader.parent, leader.identity⟩, before ++ rest⟩ ∧
      Found peer leaders inspector hops before seen pid rest leader := by
  induction hops generalizing before seen pid with
  | zero => cases h
  | succ hops ih =>
    unfold climb at h
    by_cases hzero : pid = 0
    · rw [if_pos hzero] at h
      cases h
    by_cases hseen : pid ∈ seen
    · rw [if_neg hzero, if_pos hseen] at h
      cases h
    rw [if_neg hzero, if_neg hseen] at h
    cases hs : inspector.snapshot pid with
    | none =>
      rw [hs] at h
      cases h
    | some s =>
    have hpid := inspector.reports pid s hs
    simp only [hs] at h
    by_cases hstale : before = [] ∧ s.identity ≠ peer
    · rw [if_pos hstale] at h
      cases h
    by_cases hcycle : s.parentPid ∈ pid :: seen
    · rw [if_neg hstale, if_pos hcycle] at h
      cases h
    rw [if_neg hstale, if_neg hcycle] at h
    have hpeer : before = [] → s.identity = peer := by
      intro hnil
      by_contra hne
      exact hstale ⟨hnil, hne⟩
    rw [← hpid] at hs hzero hseen hcycle
    obtain ⟨honward, hparent⟩ := not_or.mp (List.mem_cons.not.mp hcycle)
    cases hmatched : matched leaders s with
    | some leader =>
      obtain ⟨hmem, hidentity⟩ := matched_eq_some hmatched
      rw [hmatched] at h
      cases h
      refine ⟨[s], leader, rfl, hmem, Nat.succ_le_succ (Nat.zero_le _), ⟨s, rfl, hpid, hpeer⟩,
        line_singleton hs hzero honward, fun other hother => ?_,
        ⟨congrArg some hidentity.symm, fun _ hother => (nomatch hother)⟩⟩
      rw [List.mem_singleton.mp hother]
      exact ⟨hseen, hparent⟩
    | none =>
      simp only [hmatched] at h
      by_cases hother : (leaders.any fun leader => leader.identity.pid = s.identity.pid) = true
      · rw [if_pos hother] at h
        cases h
      rw [if_neg hother] at h
      obtain ⟨rest, leader, rfl, hfound⟩ := ih h
      obtain ⟨next, hnext, hlink, -⟩ := hfound.head
      cases rest with
      | nil => cases hnext
      | cons first rest =>
        cases hnext
        rw [← hpid] at hfound
        obtain ⟨hone, hunseen⟩ := unseen_cons.mp hfound.unseen
        refine ⟨s :: next :: rest, leader, by simp, hfound.member, Nat.succ_le_succ hfound.length,
          ⟨s, rfl, hpid, hpeer⟩, line_cons hs hzero honward hlink.symm hfound.line hone, ?_,
          ⟨hfound.nearest.last, ?_⟩⟩
        · exact List.forall_mem_cons.mpr ⟨⟨hseen, hparent⟩, hunseen⟩
        · refine List.forall_mem_cons.mpr ⟨fun other hmem heq => hother ?_, hfound.nearest.earlier⟩
          exact List.any_eq_true.mpr ⟨other, hmem, decide_eq_true heq⟩

theorem climb_of_found {hops : ℕ} {before : List ProcessSnapshot} {seen : List ℕ} {pid : ℕ}
    {rest : List ProcessSnapshot} {leader : LiveSessionLeader}
    (h : Found peer leaders inspector hops before seen pid rest leader) :
    ∃ first, climb peer leaders inspector hops before seen pid =
      .selected ⟨⟨first.parent, first.identity⟩, before ++ rest⟩ ∧ first ∈ leaders ∧
        first.identity = leader.identity := by
  induction rest generalizing hops before seen pid with
  | nil =>
    obtain ⟨_, hs, -⟩ := h.head
    cases hs
  | cons s rest ih =>
    obtain ⟨_, hs, hpid, hpeer⟩ := h.head
    cases hs
    obtain ⟨hops, rfl⟩ : ∃ left, hops = left + 1 :=
      ⟨hops - 1, by have := h.length; rw [List.length_cons] at this; omega⟩
    obtain ⟨hseen, hparent⟩ := h.unseen s List.mem_cons_self
    have hcurrent := h.line.current s List.mem_cons_self
    have hzero := h.line.nonzero s List.mem_cons_self
    have honward := h.line.onward s List.mem_cons_self
    have hstale : ¬(before = [] ∧ s.identity ≠ peer) := fun hboth => hboth.2 (hpeer hboth.1)
    have hcycle : s.parentPid ∉ s.identity.pid :: seen :=
      List.mem_cons.not.mpr (not_or.mpr ⟨honward, hparent⟩)
    rw [← hpid, climb, if_neg hzero, if_neg hseen, hcurrent]
    simp only [if_neg hstale, if_neg hcycle]
    cases rest with
    | nil =>
      have hidentity : leader.identity = s.identity := (Option.some.inj h.nearest.last).symm
      obtain ⟨first, hmatched, hfirst⟩ := matched_of_mem h.member hidentity
      rw [hmatched]
      exact ⟨first, rfl, (matched_eq_some hmatched).1, hfirst⟩
    | cons next rest =>
      have hother : ∀ other ∈ leaders, other.identity.pid ≠ s.identity.pid :=
        h.nearest.earlier s List.mem_cons_self
      have hmatched : matched leaders s = none := by
        refine List.find?_eq_none.mpr fun other hmem => ?_
        rw [decide_eq_true_eq]
        exact fun heq => hother other hmem heq.1
      have hany : ¬(leaders.any fun leader => leader.identity.pid = s.identity.pid) = true := by
        intro hany
        obtain ⟨other, hmem, heq⟩ := List.any_eq_true.mp hany
        exact hother other hmem (of_decide_eq_true heq)
      obtain ⟨hlink, hline, hone⟩ := line_of_cons h.line
      simp only [hmatched, if_neg hany]
      have hfound : Found peer leaders inspector hops (before ++ [s]) (s.identity.pid :: seen)
          s.parentPid (next :: rest) leader :=
        ⟨h.member, Nat.le_of_succ_le_succ h.length,
          ⟨next, rfl, hlink.symm, fun hnil => absurd hnil (by simp)⟩, hline,
          unseen_cons.mpr ⟨hone, (List.forall_mem_cons.mp h.unseen).2⟩,
          ⟨h.nearest.last, (List.forall_mem_cons.mp h.nearest.earlier).2⟩⟩
      have hrest := ih hfound
      rwa [List.append_assoc] at hrest

theorem validateLinks_eq_ok {chain : List ProcessSnapshot}
    (hcurrent : ∀ s ∈ chain, inspector.snapshot s.identity.pid = some s)
    (hlinks : chain.IsChain fun s next => s.parentPid = next.identity.pid) :
    validateLinks inspector chain = .ok () := by
  induction chain with
  | nil => rfl
  | cons s rest ih =>
    obtain ⟨hs, hrest⟩ := List.forall_mem_cons.mp hcurrent
    have hlink : ∀ next ∈ rest.head?, s.parentPid = next.identity.pid := by
      intro next hnext
      cases rest with
      | nil => cases hnext
      | cons first rest =>
        cases hnext
        exact (List.isChain_cons_cons.mp hlinks).1
    simp only [validateLinks, hs, bind_eq_ok, exists_unit, expect_eq_ok, require_eq_ok]
    exact ⟨s, rfl, rfl, hlink, ih hrest hlinks.tail⟩

/-- What is selected, and that nothing else is. -/
theorem found_of_selected {proof : AncestryProof}
    (h : resolvePeerAncestry peer leaders inspector = .selected proof) :
    ∃ leader, proof.parent = leader.parent ∧ proof.leaderIdentity = leader.identity ∧
      Found peer leaders inspector maxProcessAncestryHops [] [] peer.pid proof.chain leader := by
  obtain ⟨rest, leader, rfl, hfound⟩ := climb_selected h
  exact ⟨leader, rfl, rfl, hfound⟩

/-- **The nearest live leader is selected, and nothing else.** What is selected is a line of ancestors from
the peer to a live leader that meets no other leader's pid, and it is accepted when it is looked at again.
The other way round, a line of ancestors from the peer to a live leader that meets no other leader's pid
and is not longer than the limit is found. A peer or a leader whose pid another process has now is never
selected. -/
theorem implicit_parent_nearest (peer : ProcessIdentity) (leaders : List LiveSessionLeader)
    (inspector : ProcessInspector) :
    (∀ proof, resolvePeerAncestry peer leaders inspector = .selected proof →
      proof.chain.head?.map ProcessSnapshot.identity = some peer ∧
      (proof.chain.IsChain fun s next => s.parentPid = next.identity.pid) ∧
      (proof.chain.map fun s => s.identity.pid).Nodup ∧
      proof.chain.length ≤ maxProcessAncestryHops ∧
      (∃ leader ∈ leaders, proof.parent = leader.parent ∧
        proof.leaderIdentity = leader.identity ∧
        proof.chain.getLast?.map ProcessSnapshot.identity = some leader.identity) ∧
      (∀ s ∈ proof.chain.dropLast, ∀ leader ∈ leaders, leader.identity.pid ≠ s.identity.pid) ∧
      validateImplicitParentChain proof inspector = .ok ()) ∧
    (∀ chain leader, chain.head?.map ProcessSnapshot.identity = some peer → Line inspector chain →
      leader ∈ leaders → Nearest leaders chain leader → chain.length ≤ maxProcessAncestryHops →
        ∃ proof, resolvePeerAncestry peer leaders inspector = .selected proof ∧
          proof.chain = chain ∧ proof.leaderIdentity = leader.identity) ∧
    ∀ proof, resolvePeerAncestry peer leaders inspector = .selected proof →
      (inspector.snapshot peer.pid).map ProcessSnapshot.identity = some peer ∧
      (inspector.snapshot proof.leaderIdentity.pid).map ProcessSnapshot.identity =
        some proof.leaderIdentity := by
  refine ⟨fun proof h => ?_, fun chain leader hpeer hline hmem hnearest hlength => ?_,
    fun proof h => ?_⟩
  · obtain ⟨leader, hparent, hidentity, hfound⟩ := found_of_selected h
    obtain ⟨s, hs, -, hpeer⟩ := hfound.head
    refine ⟨?_, hfound.line.links, hfound.line.distinct, hfound.length,
      ⟨leader, hfound.member, hparent, hidentity, hfound.nearest.last⟩, hfound.nearest.earlier, ?_⟩
    · rw [Option.mem_def.mp hs, Option.map_some, hpeer rfl]
    · have hnonempty : proof.chain ≠ [] := by
        intro hnil
        rw [hnil] at hs
        cases hs
      simp only [validateImplicitParentChain, bind_eq_ok, exists_unit, require_eq_ok]
      refine ⟨⟨hnonempty, hfound.length⟩, validateLinks_eq_ok hfound.line.current hfound.line.links, ?_⟩
      rw [hidentity]
      exact hfound.nearest.last
  · obtain ⟨s, hs, hidentity⟩ := Option.map_eq_some_iff.mp hpeer
    have hfound : Found peer leaders inspector maxProcessAncestryHops [] [] peer.pid chain leader :=
      ⟨hmem, hlength, ⟨s, hs, congrArg ProcessIdentity.pid hidentity, fun _ => hidentity⟩, hline,
        fun _ _ => ⟨List.not_mem_nil, List.not_mem_nil⟩, hnearest⟩
    obtain ⟨first, hclimb, -, hfirst⟩ := climb_of_found hfound
    exact ⟨_, hclimb, rfl, hfirst⟩
  · obtain ⟨leader, -, hidentity, hfound⟩ := found_of_selected h
    obtain ⟨s, hs, hpid, hpeer⟩ := hfound.head
    obtain ⟨last, hlast, hleader⟩ := Option.map_eq_some_iff.mp hfound.nearest.last
    have hpeer := hpeer rfl
    subst hpeer
    refine ⟨?_, ?_⟩
    · rw [hfound.line.current s (List.mem_of_head? hs)]
      rfl
    · rw [hidentity, ← hleader, hfound.line.current last (List.mem_of_getLast? hlast)]
      rfl

/-- An inspector that knows one process, with pid zero. -/
def zeroInspector : ProcessInspector where
  snapshot pid := if pid = 0 then some ⟨⟨0, []⟩, 1⟩ else none
  reports pid s h := by
    split_ifs at h with hzero
    cases h
    exact hzero.symm

/-- A line of ancestors with pid zero is not followed. -/
theorem zero_not_selected :
    ¬∀ (peer : ProcessIdentity) leaders inspector chain leader,
      chain.head?.map ProcessSnapshot.identity = some peer →
      (∀ s ∈ chain, inspector.snapshot s.identity.pid = some s) →
      (chain.IsChain fun s next => s.parentPid = next.identity.pid) →
      (chain.map fun s => s.identity.pid).Nodup → (∀ s ∈ chain, s.parentPid ≠ s.identity.pid) →
      (chain.Pairwise fun s later => later.parentPid ≠ s.identity.pid) →
      leader ∈ leaders → Nearest leaders chain leader → chain.length ≤ maxProcessAncestryHops →
        ∃ proof, resolvePeerAncestry peer leaders inspector = .selected proof := by
  intro h
  obtain ⟨proof, hproof⟩ := h ⟨0, []⟩ [⟨⟨[], []⟩, ⟨0, []⟩⟩] zeroInspector [⟨⟨0, []⟩, 1⟩]
    ⟨⟨[], []⟩, ⟨0, []⟩⟩ rfl (by decide) (List.isChain_singleton _) (by decide) (by decide)
    (List.pairwise_singleton _ _) (by decide) ⟨rfl, fun _ hs => (nomatch hs)⟩ (by decide)
  cases hproof

end LightTerminal.Server.Ancestry
