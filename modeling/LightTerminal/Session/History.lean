import LightTerminal.Data.Text
import LightTerminal.Library.OrderedMap
import Mathlib.Data.Char
import Mathlib.Data.Prod.Lex

/-! # The history of ended sessions

The exit journal holds two events per session at most, the claim of a trigger and the reap of the
leader, in any order and any number of copies. `fold_events` of `session_lifecycle.rs` makes one row
of each session out of them: it drops copies, sorts the rest into a bucket per session id, folds each
bucket to a row and lists the rows from the newest claim on. A bucket whose events do not tell one
story gives a row without any of their data.

The numbers are unbounded here; nothing is computed with them. -/

namespace LightTerminal.Session.History

open LightTerminal.Data.Text LightTerminal.Library

/-- `SessionExitTrigger`. -/
inductive SessionExitTrigger where
  | leaderExited
  | closeRequested
  | daemonShutdown
  | parentCascade (parentSessionId : Str)
  | unknown
  deriving DecidableEq, Repr

/-- `StoredIdentity`. -/
structure StoredIdentity where
  sessionId : Str
  name : Str
  paneId : Str
  parentSessionId : Option Str
  parentPaneId : Option Str
  agentName : Option Str
  createdUnixMs : ℕ
  processId : Option ℕ
  processGroupId : Option ℤ
  attachedClients : ℕ
  deriving DecidableEq, Repr

/-- `LifecycleEvent`. -/
inductive LifecycleEvent where
  | triggerClaimed (schemaVersion : Str) (eventId : Uuid) (eventSeq : ℕ) (identity : StoredIdentity)
      (triggerClaimedUnixMs : ℕ) (trigger : SessionExitTrigger)
  | leaderReaped (schemaVersion : Str) (eventId : Uuid) (eventSeq : ℕ) (identity : StoredIdentity)
      (triggerClaimedUnixMs reapedUnixMs : ℕ) (trigger : SessionExitTrigger) (exitCode : ℤ)
      (signal : Option Str)
  deriving DecidableEq, Repr

namespace LifecycleEvent

/-- `LifecycleEvent::event_id`. -/
def eventId : LifecycleEvent → Uuid
  | .triggerClaimed _ eventId _ _ _ _ => eventId
  | .leaderReaped _ eventId _ _ _ _ _ _ _ => eventId

/-- `LifecycleEvent::identity`. -/
def identity : LifecycleEvent → StoredIdentity
  | .triggerClaimed _ _ _ identity _ _ => identity
  | .leaderReaped _ _ _ identity _ _ _ _ _ => identity

/-- `LifecycleEvent::session_id`. -/
def sessionId (event : LifecycleEvent) : Str := event.identity.sessionId

/-- `LifecycleEvent::trigger_claimed_at`. -/
def triggerClaimedAt : LifecycleEvent → ℕ
  | .triggerClaimed _ _ _ _ triggerClaimedUnixMs _ => triggerClaimedUnixMs
  | .leaderReaped _ _ _ _ triggerClaimedUnixMs _ _ _ _ => triggerClaimedUnixMs

/-- `LifecycleEvent::trigger`. -/
def trigger : LifecycleEvent → SessionExitTrigger
  | .triggerClaimed _ _ _ _ _ trigger => trigger
  | .leaderReaped _ _ _ _ _ _ trigger _ _ => trigger

/-- The event is a `TriggerClaimed`; else it is a `LeaderReaped`. -/
def isTrigger : LifecycleEvent → Bool
  | .triggerClaimed .. => true
  | .leaderReaped .. => false

end LifecycleEvent

/-- `ExitListScope`. -/
inductive ExitListScope where
  | topLevel
  | children
  | all
  deriving DecidableEq, Repr

/-- `ExitOutcomeState`. -/
inductive ExitOutcomeState where
  | pending
  | complete
  | unknown
  deriving DecidableEq, Repr

/-- `ExitEvidenceState`. -/
inductive ExitEvidenceState where
  | complete
  | degradedMissingTriggerEvent
  | conflicted
  | storageDegraded
  deriving DecidableEq, Repr

/-- `RecentSessionExit`. -/
structure RecentSessionExit where
  schemaVersion : Str
  sessionId : Str
  name : Str
  paneId : Str
  parentSessionId : Option Str
  parentPaneId : Option Str
  agentName : Option Str
  createdUnixMs : ℕ
  triggerClaimedUnixMs : ℕ
  reapedUnixMs : Option ℕ
  trigger : SessionExitTrigger
  outcomeState : ExitOutcomeState
  exitCode : Option ℤ
  signal : Option Str
  evidenceState : ExitEvidenceState
  deriving DecidableEq, Repr

/-- `JOURNAL_SCHEMA_VERSION`. -/
def journalSchemaVersion : Str := "1.0".toList

/-! ### One bucket -/

/-- `FoldBucket`. -/
structure FoldBucket where
  triggers : List LifecycleEvent
  reaps : List LifecycleEvent
  deriving DecidableEq, Repr

/-- `stable_identity_matches`. -/
def stableIdentityMatches (left right : StoredIdentity) : Bool :=
  left.sessionId = right.sessionId && left.name = right.name && left.paneId = right.paneId &&
    left.parentSessionId = right.parentSessionId && left.parentPaneId = right.parentPaneId &&
    left.agentName = right.agentName && left.createdUnixMs = right.createdUnixMs &&
    left.processId = right.processId && left.processGroupId = right.processGroupId

/-- The row of a session whose events contradict each other. -/
def conflictRow (sessionId : Str) : RecentSessionExit where
  schemaVersion := journalSchemaVersion
  sessionId := sessionId
  name := []
  paneId := []
  parentSessionId := none
  parentPaneId := none
  agentName := none
  createdUnixMs := 0
  triggerClaimedUnixMs := 0
  reapedUnixMs := none
  trigger := .unknown
  outcomeState := .unknown
  exitCode := none
  signal := none
  evidenceState := .conflicted

/-- `cross_conflict` of `fold_bucket`. -/
def crossConflict : Option LifecycleEvent → Option LifecycleEvent → Bool
  | some trigger, some reap =>
    trigger.eventId ≠ reap.eventId || !stableIdentityMatches trigger.identity reap.identity ||
      trigger.triggerClaimedAt ≠ reap.triggerClaimedAt || trigger.trigger ≠ reap.trigger
  | _, _ => false

/-- `outcome_state`, `reaped_unix_ms`, `exit_code` and `signal` of `fold_bucket`. -/
def outcomeOf : Option LifecycleEvent → ExitOutcomeState × Option ℕ × Option ℤ × Option Str
  | some (.leaderReaped _ _ _ _ _ reapedUnixMs _ exitCode signal) =>
    (.complete, some reapedUnixMs, some exitCode, signal)
  | _ => (.pending, none, none, none)

/-- The row of a session whose events agree; `source` is the one that stands for it. -/
def rowOf (source : LifecycleEvent) (publicTrigger : SessionExitTrigger)
    (evidenceState : ExitEvidenceState) (reap : Option LifecycleEvent) : RecentSessionExit :=
  let identity := source.identity
  let (outcomeState, reapedUnixMs, exitCode, signal) := outcomeOf reap
  { schemaVersion := journalSchemaVersion
    sessionId := identity.sessionId
    name := identity.name
    paneId := identity.paneId
    parentSessionId := identity.parentSessionId
    parentPaneId := identity.parentPaneId
    agentName := identity.agentName
    createdUnixMs := identity.createdUnixMs
    triggerClaimedUnixMs := source.triggerClaimedAt
    reapedUnixMs := reapedUnixMs
    trigger := publicTrigger
    outcomeState := outcomeState
    exitCode := exitCode
    signal := signal
    evidenceState := evidenceState }

/-- `fold_bucket`. -/
def foldBucket (sessionId : Str) (bucket : FoldBucket) (storageDegraded : Bool) :
    Option RecentSessionExit :=
  let trigger := bucket.triggers.head?
  let reap := bucket.reaps.head?
  let conflicted := decide (1 < bucket.triggers.length) || decide (1 < bucket.reaps.length) ||
    crossConflict trigger reap
  match trigger.or reap with
  | none => none
  | some source =>
    if conflicted then some (conflictRow sessionId)
    else
      match trigger, reap with
      | some trigger, _ =>
        some (rowOf source trigger.trigger
          (if storageDegraded then .storageDegraded else .complete) reap)
      | none, some reap =>
        some (rowOf source reap.trigger
          (if storageDegraded then .storageDegraded else .degradedMissingTriggerEvent) (some reap))
      | none, none => none

/-! ### All rows -/

/-- The maps of the loop of `fold_events`: the events seen, and the buckets. -/
structure Folding where
  seen : List LifecycleEvent
  buckets : OrderedMap Str FoldBucket

/-- The event is pushed onto its list. -/
def FoldBucket.push (event : LifecycleEvent) (bucket : FoldBucket) : FoldBucket :=
  match event with
  | .triggerClaimed .. => { bucket with triggers := bucket.triggers ++ [event] }
  | .leaderReaped .. => { bucket with reaps := bucket.reaps ++ [event] }

/-- One turn of the loop of `fold_events`. -/
def Folding.step (folding : Folding) (event : LifecycleEvent) : Folding :=
  if event ∈ folding.seen then folding
  else
    { seen := event :: folding.seen
      buckets := folding.buckets.entry event.sessionId ⟨[], []⟩ (·.push event) }

/-- The loop of `fold_events`. -/
def Folding.run (events : List LifecycleEvent) : Folding :=
  events.foldl Folding.step ⟨[], OrderedMap.empty⟩

/-- The comparison `fold_events` sorts by is not `Ordering::Greater`: a later claim comes first, of
two at one time the greater id. -/
def newestFirst (left right : RecentSessionExit) : Bool :=
  right.triggerClaimedUnixMs < left.triggerClaimedUnixMs ||
    (right.triggerClaimedUnixMs = left.triggerClaimedUnixMs && right.sessionId ≤ left.sessionId)

/-- `exits` of `fold_events` after the sort. -/
def sortedExits (events : List LifecycleEvent) (storageDegraded : Bool) : List RecentSessionExit :=
  ((Folding.run events).buckets.entries.filterMap fun entry =>
    foldBucket entry.1 entry.2 storageDegraded).mergeSort newestFirst

/-- `exit_matches_scope`. -/
def exitMatchesScope (exit : RecentSessionExit) : ExitListScope → Bool
  | .topLevel => exit.evidenceState ≠ .conflicted && exit.parentSessionId.isNone
  | .children => exit.evidenceState ≠ .conflicted && exit.parentSessionId.isSome
  | .all => true

/-- `fold_events`. -/
def foldEvents (events : List LifecycleEvent) (storageDegraded : Bool) (target : Option Str)
    (limit : ℕ) (scope : ExitListScope) : List RecentSessionExit :=
  let exits := sortedExits events storageDegraded
  match target with
  | none => (exits.filter (exitMatchesScope · scope)).take limit
  | some target =>
    match exits.find? fun exit => exit.sessionId = target with
    | some exact => (if exitMatchesScope exact scope then [exact] else []).take limit
    | none =>
      (((exits.filter (exitMatchesScope · scope)).filter
        fun exit => exit.name = target || exit.paneId = target).take 1).take limit

/-! ### When events tell one story -/

/-- The claim and the reap of a session agree. -/
structure Agree (trigger reap : LifecycleEvent) : Prop where
  eventId : trigger.eventId = reap.eventId
  identity : stableIdentityMatches trigger.identity reap.identity = true
  claimedAt : trigger.triggerClaimedAt = reap.triggerClaimedAt
  trigger : trigger.trigger = reap.trigger

/-- The distinct events of a session are one claim at most and one reap at most, and they agree. -/
structure Consistent (events : List LifecycleEvent) (sessionId : Str) : Prop where
  oneTrigger : ∀ e ∈ events, ∀ e' ∈ events, e.sessionId = sessionId → e'.sessionId = sessionId →
    e.isTrigger = true → e'.isTrigger = true → e = e'
  oneReap : ∀ e ∈ events, ∀ e' ∈ events, e.sessionId = sessionId → e'.sessionId = sessionId →
    e.isTrigger = false → e'.isTrigger = false → e = e'
  agree : ∀ e ∈ events, ∀ e' ∈ events, e.sessionId = sessionId → e'.sessionId = sessionId →
    e.isTrigger = true → e'.isTrigger = false → Agree e e'

variable {events events' : List LifecycleEvent} {sessionId : Str} {event : LifecycleEvent}
  {bucket bucket' : FoldBucket} {storageDegraded : Bool} {row : RecentSessionExit}

/-- Fewer events contradict each other less. -/
theorem Consistent.mono (h : Consistent events' sessionId) (hsub : events ⊆ events') :
    Consistent events sessionId where
  oneTrigger e he e' he' := h.oneTrigger e (hsub he) e' (hsub he')
  oneReap e he e' he' := h.oneReap e (hsub he) e' (hsub he')
  agree e he e' he' := h.agree e (hsub he) e' (hsub he')

theorem crossConflict_eq_false {trigger reap : LifecycleEvent} :
    crossConflict (some trigger) (some reap) = false ↔ Agree trigger reap := by
  simp only [crossConflict, ne_eq, decide_not, Bool.or_eq_false_iff, Bool.not_eq_false',
    decide_eq_true_eq]
  constructor
  · rintro ⟨⟨⟨hid, hident⟩, hat⟩, htrigger⟩
    exact ⟨hid, hident, hat, htrigger⟩
  · rintro ⟨hid, hident, hat, htrigger⟩
    exact ⟨⟨⟨hid, hident⟩, hat⟩, htrigger⟩

/-! ### What a bucket holds -/

/-- The list has each event of the session and kind once. -/
structure Distinct (list events : List LifecycleEvent) (sessionId : Str) (kind : Bool) : Prop where
  nodup : list.Nodup
  mem : ∀ e, e ∈ list ↔ e ∈ events ∧ e.sessionId = sessionId ∧ e.isTrigger = kind

/-- The bucket has the distinct events of the session, by kind. -/
structure FoldBucket.Holds (bucket : FoldBucket) (events : List LifecycleEvent) (sessionId : Str) :
    Prop where
  triggers : Distinct bucket.triggers events sessionId true
  reaps : Distinct bucket.reaps events sessionId false

section Distinct

variable {list : List LifecycleEvent} {kind : Bool}

theorem Distinct.congr (h : Distinct list events sessionId kind)
    (hmem : ∀ e, e.sessionId = sessionId → e.isTrigger = kind → (e ∈ events' ↔ e ∈ events)) :
    Distinct list events' sessionId kind where
  nodup := h.nodup
  mem e := by
    rw [h.mem e]
    exact and_congr_left fun hs => (hmem e hs.1 hs.2).symm

theorem Distinct.push (h : Distinct list events event.sessionId event.isTrigger)
    (hnew : event ∉ events) :
    Distinct (list ++ [event]) (events ++ [event]) event.sessionId event.isTrigger where
  nodup := by
    have hnot : event ∉ list := fun hmem => hnew ((h.mem event).mp hmem).1
    rw [List.nodup_append_comm]
    simpa using ⟨hnot, h.nodup⟩
  mem e := by
    rw [List.mem_append, List.mem_append, h.mem e, List.mem_singleton]
    constructor
    · rintro (⟨he, hs⟩ | rfl)
      · exact ⟨.inl he, hs⟩
      · exact ⟨.inr rfl, rfl, rfl⟩
    · rintro ⟨he | he, hs⟩
      · exact .inl ⟨he, hs⟩
      · exact .inr he

/-- An event of another kind is none of the list. -/
theorem Distinct.skip (h : Distinct list events sessionId kind) (hkind : event.isTrigger ≠ kind) :
    Distinct list (events ++ [event]) sessionId kind := by
  refine h.congr fun e _ hk => ?_
  have hne : e ≠ event := fun he => hkind (he ▸ hk)
  simp [hne]

end Distinct

theorem FoldBucket.Holds.congr (h : bucket.Holds events sessionId)
    (hmem : ∀ e, e.sessionId = sessionId → (e ∈ events' ↔ e ∈ events)) :
    bucket.Holds events' sessionId where
  triggers := h.triggers.congr fun e hs _ => hmem e hs
  reaps := h.reaps.congr fun e hs _ => hmem e hs

theorem FoldBucket.Holds.push (h : bucket.Holds events event.sessionId) (hnew : event ∉ events) :
    (bucket.push event).Holds (events ++ [event]) event.sessionId := by
  cases event with
  | triggerClaimed => exact ⟨h.triggers.push hnew, h.reaps.skip (by simp [LifecycleEvent.isTrigger])⟩
  | leaderReaped => exact ⟨h.triggers.skip (by simp [LifecycleEvent.isTrigger]), h.reaps.push hnew⟩

/-- What the loop knows after `events`. -/
structure Folding.Knows (folding : Folding) (events : List LifecycleEvent) : Prop where
  seen : ∀ e, e ∈ folding.seen ↔ e ∈ events
  present : ∀ sessionId,
    (folding.buckets.get sessionId).isSome ↔ ∃ e ∈ events, e.sessionId = sessionId
  holds : ∀ sessionId,
    ((folding.buckets.get sessionId).getD ⟨[], []⟩).Holds events sessionId

theorem Folding.Knows.step {folding : Folding} (h : folding.Knows events) (event : LifecycleEvent) :
    (folding.step event).Knows (events ++ [event]) := by
  have hmem : ∀ e, e ∈ events ++ [event] ↔ e ∈ events ∨ e = event := by simp
  unfold Folding.step
  split_ifs with hseen
  · -- a copy: nothing changes, and the events known are the same
    have hold : event ∈ events := (h.seen event).mp hseen
    have hsame : ∀ e, e ∈ events ++ [event] ↔ e ∈ events := by
      intro e
      rw [hmem]
      constructor
      · rintro (he | rfl)
        · exact he
        · exact hold
      · exact .inl
    refine ⟨fun e => (h.seen e).trans (hsame e).symm, fun sessionId => ?_, fun sessionId => ?_⟩
    · rw [h.present sessionId]
      exact exists_congr fun e => and_congr_left fun _ => (hsame e).symm
    · exact (h.holds sessionId).congr fun e _ => hsame e
  · have hnew : event ∉ events := fun hin => hseen ((h.seen event).mpr hin)
    refine ⟨fun e => ?_, fun sessionId => ?_, fun sessionId => ?_⟩
    · rw [List.mem_cons, h.seen e, hmem, or_comm]
    · rw [OrderedMap.get_entry]
      split_ifs with hid
      · simp only [Option.isSome_some, true_iff]
        exact ⟨event, (hmem event).mpr (.inr rfl), hid.symm⟩
      · rw [h.present sessionId]
        constructor
        · rintro ⟨e, he, hs⟩
          exact ⟨e, (hmem e).mpr (.inl he), hs⟩
        · rintro ⟨e, he, hs⟩
          rcases (hmem e).mp he with he | rfl
          · exact ⟨e, he, hs⟩
          · exact absurd hs.symm hid
    · rw [OrderedMap.get_entry]
      split_ifs with hid
      · subst hid
        exact (h.holds event.sessionId).push hnew
      · refine (h.holds sessionId).congr fun e hs => ?_
        rw [hmem]
        constructor
        · rintro (he | rfl)
          · exact he
          · exact absurd hs.symm hid
        · exact .inl

theorem Folding.knows_foldl {folding : Folding} (h : folding.Knows events)
    (more : List LifecycleEvent) : (more.foldl Folding.step folding).Knows (events ++ more) := by
  induction more generalizing folding events with
  | nil => simpa using h
  | cons event more ih => simpa using ih (h.step event)

theorem Folding.knows_run (events : List LifecycleEvent) : (Folding.run events).Knows events := by
  have hnil : (⟨[], OrderedMap.empty⟩ : Folding).Knows [] :=
    ⟨fun e => by simp, fun sessionId => by simp,
      fun sessionId => ⟨⟨by simp, by simp⟩, ⟨by simp, by simp⟩⟩⟩
  exact Folding.knows_foldl hnil events

/-! ### The row of a bucket -/

/-- A list with at most one member is determined by its members. -/
theorem Distinct.eq_of_length_le {list list' : List LifecycleEvent} {kind : Bool}
    (h : Distinct list events sessionId kind) (h' : Distinct list' events sessionId kind)
    (hlen : list.length ≤ 1) : list = list' := by
  have hperm : list.Perm list' := by
    rw [List.perm_ext_iff_of_nodup h.nodup h'.nodup]
    exact fun e => (h.mem e).trans (h'.mem e).symm
  obtain _ | ⟨e, _ | ⟨e', rest⟩⟩ := list
  · exact (List.nil_perm.mp hperm).symm
  · exact List.singleton_perm.mp hperm
  · simp at hlen

/-- At most one event of the kind. -/
theorem Distinct.length_le_one {list : List LifecycleEvent} {kind : Bool}
    (h : Distinct list events sessionId kind) : list.length ≤ 1 ↔
      ∀ e ∈ events, ∀ e' ∈ events, e.sessionId = sessionId → e'.sessionId = sessionId →
        e.isTrigger = kind → e'.isTrigger = kind → e = e' := by
  constructor
  · intro hlen e he e' he' hs hs' hk hk'
    have hin : e ∈ list := (h.mem e).mpr ⟨he, hs, hk⟩
    have hin' : e' ∈ list := (h.mem e').mpr ⟨he', hs', hk'⟩
    obtain ⟨a, ha⟩ := List.length_eq_one_iff.mp (le_antisymm hlen (List.length_pos_of_mem hin))
    rw [ha, List.mem_singleton] at hin hin'
    rw [hin, hin']
  · intro hone
    obtain _ | ⟨a, _ | ⟨b, rest⟩⟩ := list
    · simp
    · simp
    · obtain ⟨ha, hsa, hka⟩ := (h.mem a).mp List.mem_cons_self
      obtain ⟨hb, hsb, hkb⟩ := (h.mem b).mp (List.mem_cons_of_mem _ List.mem_cons_self)
      have hab : a = b := hone a ha b hb hsa hsb hka hkb
      have hnot : a ∉ b :: rest := (List.nodup_cons.mp h.nodup).1
      exact absurd (hab ▸ List.mem_cons_self) hnot

/-- The three tests of `fold_bucket` fail. -/
structure FoldBucket.Clear (bucket : FoldBucket) : Prop where
  triggers : bucket.triggers.length ≤ 1
  reaps : bucket.reaps.length ≤ 1
  cross : crossConflict bucket.triggers.head? bucket.reaps.head? = false

/-- Each test of `fold_bucket` is one part of consistency. -/
theorem FoldBucket.Holds.clear_iff (h : bucket.Holds events sessionId) :
    bucket.Clear ↔ Consistent events sessionId := by
  constructor
  · rintro ⟨htriggers, hreaps, hcross⟩
    refine ⟨h.triggers.length_le_one.mp htriggers, h.reaps.length_le_one.mp hreaps, ?_⟩
    intro e he e' he' hs hs' hk hk'
    have hin : e ∈ bucket.triggers := (h.triggers.mem e).mpr ⟨he, hs, hk⟩
    have hin' : e' ∈ bucket.reaps := (h.reaps.mem e').mpr ⟨he', hs', hk'⟩
    obtain ⟨a, ha⟩ := List.length_eq_one_iff.mp
      (le_antisymm htriggers (List.length_pos_of_mem hin))
    obtain ⟨b, hb⟩ := List.length_eq_one_iff.mp
      (le_antisymm hreaps (List.length_pos_of_mem hin'))
    rw [ha, List.mem_singleton] at hin
    rw [hb, List.mem_singleton] at hin'
    rw [ha, hb, ← hin, ← hin'] at hcross
    exact crossConflict_eq_false.mp hcross
  · rintro ⟨htriggers, hreaps, hagree⟩
    refine ⟨h.triggers.length_le_one.mpr htriggers, h.reaps.length_le_one.mpr hreaps, ?_⟩
    cases ht : bucket.triggers.head? with
    | none => rfl
    | some trigger =>
      cases hr : bucket.reaps.head? with
      | none => rfl
      | some reap =>
        obtain ⟨he, hs, hk⟩ := (h.triggers.mem trigger).mp (List.mem_of_head? ht)
        obtain ⟨he', hs', hk'⟩ := (h.reaps.mem reap).mp (List.mem_of_head? hr)
        exact crossConflict_eq_false.mpr (hagree trigger he reap he' hs hs' hk hk')

theorem foldBucket_of_not_clear (hsource : bucket.triggers.head?.or bucket.reaps.head? ≠ none)
    (h : ¬ bucket.Clear) :
    foldBucket sessionId bucket storageDegraded = some (conflictRow sessionId) := by
  have hconflicted : (decide (1 < bucket.triggers.length) || decide (1 < bucket.reaps.length) ||
      crossConflict bucket.triggers.head? bucket.reaps.head?) = true := by
    by_contra hno
    simp only [Bool.or_eq_true, decide_eq_true_eq, not_or, not_lt, Bool.not_eq_true] at hno
    exact h ⟨hno.1.1, hno.1.2, hno.2⟩
  obtain ⟨source, hsome⟩ := Option.ne_none_iff_exists'.mp hsource
  simp only [foldBucket, hsome, hconflicted, if_true]

/-- A bucket of events that agree gives a row with the data of one of them. -/
theorem foldBucket_of_clear (hsource : bucket.triggers.head?.or bucket.reaps.head? ≠ none)
    (h : bucket.Clear) : ∃ source, (source ∈ bucket.triggers ∨ source ∈ bucket.reaps) ∧
      ∃ row, foldBucket sessionId bucket storageDegraded = some row ∧
        row.sessionId = source.sessionId ∧ row.evidenceState ≠ .conflicted := by
  have hclear : (decide (1 < bucket.triggers.length) || decide (1 < bucket.reaps.length) ||
      crossConflict bucket.triggers.head? bucket.reaps.head?) = false := by
    simp only [Bool.or_eq_false_iff, decide_eq_false_iff_not, not_lt]
    exact ⟨⟨h.triggers, h.reaps⟩, h.cross⟩
  cases ht : bucket.triggers.head? with
  | some trigger =>
    refine ⟨trigger, .inl (List.mem_of_head? ht), ?_⟩
    rw [ht] at hclear
    simp only [foldBucket, ht, Option.some_or, hclear, Bool.false_eq_true, if_false]
    refine ⟨_, rfl, rfl, ?_⟩
    cases storageDegraded <;> simp [rowOf]
  | none =>
    cases hr : bucket.reaps.head? with
    | some reap =>
      refine ⟨reap, .inr (List.mem_of_head? hr), ?_⟩
      rw [ht, hr] at hclear
      simp only [foldBucket, ht, hr, Option.none_or, hclear, Bool.false_eq_true, if_false]
      refine ⟨_, rfl, rfl, ?_⟩
      cases storageDegraded <;> simp [rowOf]
    | none => simp [ht, hr] at hsource

/-- A bucket with an event has a first one. -/
theorem FoldBucket.Holds.source (h : bucket.Holds events sessionId)
    (hevent : ∃ e ∈ events, e.sessionId = sessionId) :
    bucket.triggers.head?.or bucket.reaps.head? ≠ none := by
  obtain ⟨e, he, hs⟩ := hevent
  intro hnone
  obtain ⟨ht, hr⟩ := Option.or_eq_none_iff.mp hnone
  rw [List.head?_eq_none_iff] at ht hr
  cases hk : e.isTrigger with
  | true =>
    have hin := (h.triggers.mem e).mpr ⟨he, hs, hk⟩
    rw [ht] at hin
    cases hin
  | false =>
    have hin := (h.reaps.mem e).mpr ⟨he, hs, hk⟩
    rw [hr] at hin
    cases hin

/-- What the row of a session says. -/
structure IsRow (events : List LifecycleEvent) (sessionId : Str) (row : RecentSessionExit) : Prop where
  id : row.sessionId = sessionId
  conflicted : row.evidenceState = .conflicted ↔ ¬ Consistent events sessionId
  noData : row.evidenceState = .conflicted → row = conflictRow sessionId

theorem FoldBucket.Holds.foldBucket (h : bucket.Holds events sessionId)
    (hevent : ∃ e ∈ events, e.sessionId = sessionId) (storageDegraded : Bool) :
    ∃ row, History.foldBucket sessionId bucket storageDegraded = some row ∧
      IsRow events sessionId row := by
  have hsource := h.source hevent
  by_cases hclear : bucket.Clear
  · obtain ⟨source, hin, row, hrow, hid, hstate⟩ :=
      foldBucket_of_clear hsource hclear
    have hs : source.sessionId = sessionId := by
      rcases hin with hin | hin
      · exact ((h.triggers.mem source).mp hin).2.1
      · exact ((h.reaps.mem source).mp hin).2.1
    refine ⟨row, hrow, hid.trans hs, ?_, fun hc => absurd hc hstate⟩
    have hcons := h.clear_iff.mp hclear
    simp [hstate, hcons]
  · refine ⟨conflictRow sessionId, foldBucket_of_not_clear hsource hclear, rfl, ?_, fun _ => rfl⟩
    have hcons : ¬ Consistent events sessionId := fun hc => hclear (h.clear_iff.mpr hc)
    simp [conflictRow, hcons]

/-- The row of a bucket depends on the events only: in a bucket with more than one of a kind, the
order in which they were pushed, which `first` sees, is lost with the data. -/
theorem FoldBucket.Holds.foldBucket_eq (h : bucket.Holds events sessionId)
    (h' : bucket'.Holds events sessionId) (hevent : ∃ e ∈ events, e.sessionId = sessionId) :
    History.foldBucket sessionId bucket storageDegraded =
      History.foldBucket sessionId bucket' storageDegraded := by
  by_cases hclear : bucket.Clear
  · have htriggers := h.triggers.eq_of_length_le h'.triggers hclear.triggers
    have hreaps := h.reaps.eq_of_length_le h'.reaps hclear.reaps
    obtain ⟨triggers, reaps⟩ := bucket
    obtain ⟨triggers', reaps'⟩ := bucket'
    simp only at htriggers hreaps
    rw [htriggers, hreaps]
  · have hclear' : ¬ bucket'.Clear := fun hc => hclear (h.clear_iff.mpr (h'.clear_iff.mp hc))
    rw [foldBucket_of_not_clear (h.source hevent) hclear,
      foldBucket_of_not_clear (h'.source hevent) hclear']

/-! ### The order of the rows -/

/-- What the rows are sorted by. -/
def sortKey (row : RecentSessionExit) : ℕ ×ₗ Str := toLex (row.triggerClaimedUnixMs, row.sessionId)

theorem newestFirst_iff {left right : RecentSessionExit} :
    newestFirst left right = true ↔ sortKey right ≤ sortKey left := by
  unfold newestFirst sortKey
  rw [Prod.Lex.toLex_le_toLex]
  simp

theorem mem_sortedExits : row ∈ sortedExits events storageDegraded ↔ ∃ sessionId bucket,
    (Folding.run events).buckets.get sessionId = some bucket ∧
      foldBucket sessionId bucket storageDegraded = some row := by
  unfold sortedExits
  rw [List.mem_mergeSort, List.mem_filterMap]
  constructor
  · rintro ⟨⟨sessionId, bucket⟩, hmem, hrow⟩
    exact ⟨sessionId, bucket, (OrderedMap.mem_entries _).mp hmem, hrow⟩
  · rintro ⟨sessionId, bucket, hget, hrow⟩
    exact ⟨(sessionId, bucket), (OrderedMap.mem_entries _).mpr hget, hrow⟩

/-- A bucket of the loop holds the events of its session, and there are some. -/
theorem holds_of_get (hget : (Folding.run events).buckets.get sessionId = some bucket) :
    bucket.Holds events sessionId ∧ ∃ e ∈ events, e.sessionId = sessionId := by
  have hknows := Folding.knows_run events
  have hholds := hknows.holds sessionId
  have hpresent := hknows.present sessionId
  rw [hget] at hholds hpresent
  exact ⟨hholds, hpresent.mp rfl⟩

/-- Each row is that of its session. -/
theorem isRow_of_mem (h : row ∈ sortedExits events storageDegraded) :
    IsRow events row.sessionId row := by
  obtain ⟨sessionId, bucket, hget, hrow⟩ := mem_sortedExits.mp h
  obtain ⟨hholds, hevent⟩ := holds_of_get hget
  obtain ⟨row', hrow', hspec⟩ := hholds.foldBucket hevent storageDegraded
  have heq : row = row' := Option.some.inj (hrow.symm.trans hrow')
  subst heq
  rw [hspec.id]
  exact hspec

/-- Each session with an event has a row. -/
theorem exists_row (hevent : ∃ e ∈ events, e.sessionId = sessionId) (storageDegraded : Bool) :
    ∃ row ∈ sortedExits events storageDegraded, row.sessionId = sessionId := by
  obtain ⟨bucket, hget⟩ := Option.isSome_iff_exists.mp
    (((Folding.knows_run events).present sessionId).mpr hevent)
  obtain ⟨row, hrow, hspec⟩ := (holds_of_get hget).1.foldBucket hevent storageDegraded
  exact ⟨row, mem_sortedExits.mpr ⟨sessionId, bucket, hget, hrow⟩, hspec.id⟩

/-- The rows before the sort have distinct session ids: those of the buckets. -/
theorem pairwise_sessionId_sortedExits (events : List LifecycleEvent) (storageDegraded : Bool) :
    (sortedExits events storageDegraded).Pairwise fun a b => a.sessionId ≠ b.sessionId := by
  unfold sortedExits
  rw [(List.mergeSort_perm _ _).pairwise_iff fun h => h.symm, List.pairwise_filterMap]
  have hsorted := (Folding.run events).buckets.sorted
  refine List.Pairwise.imp_of_mem ?_ hsorted
  rintro ⟨k, v⟩ ⟨k', v'⟩ hmem hmem' hlt row hrow row' hrow'
  have hid : ∀ {key bucket row}, (key, bucket) ∈ (Folding.run events).buckets.entries →
      foldBucket key bucket storageDegraded = some row → row.sessionId = key := by
    intro key bucket row hin hfold
    obtain ⟨hholds, hevent⟩ := holds_of_get ((OrderedMap.mem_entries _).mp hin)
    obtain ⟨row', hrow', hspec⟩ := hholds.foldBucket hevent storageDegraded
    rw [Option.some.inj (hfold.symm.trans hrow'), hspec.id]
  rw [hid hmem hrow, hid hmem' hrow']
  exact ne_of_lt hlt

/-- The rows are strictly sorted, the newest claim first. -/
theorem sorted_sortedExits (events : List LifecycleEvent) (storageDegraded : Bool) :
    (sortedExits events storageDegraded).Pairwise fun a b => sortKey b < sortKey a := by
  have hle : (sortedExits events storageDegraded).Pairwise fun a b => newestFirst a b = true := by
    unfold sortedExits
    refine List.pairwise_mergeSort ?_ ?_ _
    · intro a b c hab hbc
      rw [newestFirst_iff] at hab hbc ⊢
      exact hbc.trans hab
    · intro a b
      rw [Bool.or_eq_true, newestFirst_iff, newestFirst_iff]
      exact le_total _ _
  refine (hle.and (pairwise_sessionId_sortedExits events storageDegraded)).imp ?_
  rintro a b ⟨hab, hne⟩
  refine lt_of_le_of_ne (newestFirst_iff.mp hab) fun heq => hne ?_
  exact (congrArg (fun key => (ofLex key).2) heq).symm

/-- The rows are a function of the set of events. -/
theorem sortedExits_congr (h : ∀ e, e ∈ events ↔ e ∈ events') (storageDegraded : Bool) :
    sortedExits events storageDegraded = sortedExits events' storageDegraded := by
  have hsub : ∀ {events events' : List LifecycleEvent}, (∀ e, e ∈ events ↔ e ∈ events') →
      ∀ row ∈ sortedExits events storageDegraded, row ∈ sortedExits events' storageDegraded := by
    intro events events' h row hrow
    obtain ⟨sessionId, bucket, hget, hfold⟩ := mem_sortedExits.mp hrow
    obtain ⟨hholds, e, he, hs⟩ := holds_of_get hget
    have hevent' : ∃ e ∈ events', e.sessionId = sessionId := ⟨e, (h e).mp he, hs⟩
    obtain ⟨bucket', hget'⟩ := Option.isSome_iff_exists.mp
      (((Folding.knows_run events').present sessionId).mpr hevent')
    have hholds' := (holds_of_get hget').1
    have hmoved := hholds.congr fun e _ => (h e).symm
    exact mem_sortedExits.mpr
      ⟨sessionId, bucket', hget', (hholds'.foldBucket_eq hmoved hevent').trans hfold⟩
  have hsorted := sorted_sortedExits events storageDegraded
  have hsorted' := sorted_sortedExits events' storageDegraded
  have hnodup : ∀ {rows : List RecentSessionExit},
      rows.Pairwise (fun a b => sortKey b < sortKey a) → rows.Nodup := by
    intro rows hrows
    refine List.Pairwise.imp ?_ hrows
    rintro a b hlt rfl
    exact lt_irrefl _ hlt
  refine List.Perm.eq_of_pairwise (fun a b _ _ hab hba => absurd hab (lt_asymm hba)) hsorted hsorted' ?_
  rw [List.perm_ext_iff_of_nodup (hnodup hsorted) (hnodup hsorted')]
  exact fun row => ⟨hsub h row, hsub (fun e => (h e).symm) row⟩

/-! ### The rows asked for -/

variable {target : Option Str} {limit : ℕ} {scope : ExitListScope}

/-- Whatever is asked for, each row shown is one of all rows and in the scope. -/
theorem mem_foldEvents (h : row ∈ foldEvents events storageDegraded target limit scope) :
    row ∈ sortedExits events storageDegraded ∧ exitMatchesScope row scope = true := by
  unfold foldEvents at h
  cases target with
  | none => exact List.mem_filter.mp (List.mem_of_mem_take h)
  | some target =>
    simp only at h
    cases hfind : (sortedExits events storageDegraded).find?
        fun exit => exit.sessionId = target with
    | some exact =>
      rw [hfind] at h
      have hmem := List.mem_of_mem_take h
      split_ifs at hmem with hscope
      · rw [List.mem_singleton.mp hmem]
        exact ⟨List.mem_of_find?_eq_some hfind, hscope⟩
      · cases hmem
    | none =>
      rw [hfind] at h
      exact List.mem_filter.mp
        (List.mem_filter.mp (List.mem_of_mem_take (List.mem_of_mem_take h))).1

theorem length_sortedExits_le (events : List LifecycleEvent) (storageDegraded : Bool) :
    (sortedExits events storageDegraded).length ≤ events.length := by
  have hnodup : ((sortedExits events storageDegraded).map (·.sessionId)).Nodup :=
    List.pairwise_map.mpr (pairwise_sessionId_sortedExits events storageDegraded)
  have hsub : (sortedExits events storageDegraded).map (·.sessionId) ⊆
      events.map LifecycleEvent.sessionId := by
    intro sessionId hin
    obtain ⟨row, hrow, rfl⟩ := List.mem_map.mp hin
    obtain ⟨key, bucket, hget, hfold⟩ := mem_sortedExits.mp hrow
    obtain ⟨hholds, hevent⟩ := holds_of_get hget
    obtain ⟨row', hrow', hspec⟩ := hholds.foldBucket hevent storageDegraded
    obtain ⟨e, he, hs⟩ := hevent
    have hid : row.sessionId = key := by
      rw [Option.some.inj (hfold.symm.trans hrow'), hspec.id]
    exact List.mem_map.mpr ⟨e, he, hs.trans hid.symm⟩
  simpa using (hnodup.subperm hsub).length_le

/-- With a limit that none of the sessions can reach, all rows of the scope are shown. -/
theorem mem_foldEvents_unlimited (hlimit : events.length ≤ limit) :
    row ∈ foldEvents events storageDegraded none limit scope ↔
      row ∈ sortedExits events storageDegraded ∧ exitMatchesScope row scope = true := by
  have hlen : ((sortedExits events storageDegraded).filter (exitMatchesScope · scope)).length ≤
      limit :=
    (List.length_filter_le _ _).trans ((length_sortedExits_le events storageDegraded).trans hlimit)
  simp only [foldEvents]
  rw [List.take_of_length_le hlen, List.mem_filter]

theorem foldEvents_congr (h : ∀ e, e ∈ events ↔ e ∈ events') :
    foldEvents events storageDegraded target limit scope =
      foldEvents events' storageDegraded target limit scope := by
  unfold foldEvents
  rw [sortedExits_congr h storageDegraded]

/-- Without a target the rows are a sublist of all of them. -/
theorem foldEvents_sublist :
    (foldEvents events storageDegraded none limit scope).Sublist
      (sortedExits events storageDegraded) := by
  simp only [foldEvents]
  exact (List.take_sublist _ _).trans List.filter_sublist

theorem foldEvents_take {limit' : ℕ} (h : limit ≤ limit') :
    foldEvents events storageDegraded none limit scope =
      (foldEvents events storageDegraded none limit' scope).take limit := by
  simp only [foldEvents]
  rw [List.take_take, min_eq_left h]

theorem conflicted_iff (h : row ∈ foldEvents events storageDegraded target limit scope) :
    row.evidenceState = .conflicted ↔ ¬ Consistent events row.sessionId :=
  (isRow_of_mem (mem_foldEvents h).1).conflicted

/-- Events that contradict each other are events. -/
theorem exists_event_of_not_consistent (h : ¬ Consistent events sessionId) :
    ∃ e ∈ events, e.sessionId = sessionId := by
  by_contra hnone
  push Not at hnone
  refine h ⟨?_, ?_, ?_⟩ <;> exact fun e he _ _ hs => absurd hs (hnone e he)

theorem exists_conflicted_iff (hlimit : events.length ≤ limit) :
    (∃ row ∈ foldEvents events storageDegraded none limit .all,
      row.sessionId = sessionId ∧ row.evidenceState = .conflicted) ↔
      ¬ Consistent events sessionId := by
  constructor
  · rintro ⟨row, hrow, rfl, hstate⟩
    exact (conflicted_iff hrow).mp hstate
  · intro hnot
    obtain ⟨row, hrow, rfl⟩ := exists_row (exists_event_of_not_consistent hnot) storageDegraded
    exact ⟨row, (mem_foldEvents_unlimited hlimit).mpr ⟨hrow, rfl⟩, rfl,
      (isRow_of_mem hrow).conflicted.mpr hnot⟩

/-- A conflicted row has no data, and is in no scope but that of all rows. -/
theorem conflicted_noData (h : row ∈ foldEvents events storageDegraded target limit scope)
    (hstate : row.evidenceState = .conflicted) :
    row = conflictRow row.sessionId ∧ scope = .all := by
  obtain ⟨hrow, hscope⟩ := mem_foldEvents h
  refine ⟨(isRow_of_mem hrow).noData hstate, ?_⟩
  cases scope with
  | topLevel => simp [exitMatchesScope, hstate] at hscope
  | children => simp [exitMatchesScope, hstate] at hscope
  | all => rfl

theorem topLevel_disjoint_children {limit' : ℕ} :
    List.Disjoint (foldEvents events storageDegraded none limit .topLevel)
      (foldEvents events storageDegraded none limit' .children) := by
  intro row htop hchild
  have hnone := (mem_foldEvents htop).2
  have hsome := (mem_foldEvents hchild).2
  simp only [exitMatchesScope, Bool.and_eq_true] at hnone hsome
  rw [Option.isNone_iff_eq_none] at hnone
  rw [hnone.2] at hsome
  simp at hsome

/-- All rows are those of the two scopes and the rows of the conflicted sessions. -/
theorem mem_all_iff (hlimit : events.length ≤ limit) :
    row ∈ foldEvents events storageDegraded none limit .all ↔
      row ∈ foldEvents events storageDegraded none limit .topLevel ∨
      row ∈ foldEvents events storageDegraded none limit .children ∨
      ∃ sessionId, ¬ Consistent events sessionId ∧ row = conflictRow sessionId := by
  constructor
  · intro hrow
    have hall := (mem_foldEvents hrow).1
    by_cases hstate : row.evidenceState = .conflicted
    · exact .inr (.inr ⟨row.sessionId, (conflicted_iff hrow).mp hstate,
        (conflicted_noData hrow hstate).1⟩)
    · rw [mem_foldEvents_unlimited hlimit, mem_foldEvents_unlimited hlimit]
      cases hparent : row.parentSessionId with
      | none => exact .inl ⟨hall, by simp [exitMatchesScope, hstate, hparent]⟩
      | some parent => exact .inr (.inl ⟨hall, by simp [exitMatchesScope, hstate, hparent]⟩)
  · rintro (hrow | hrow | ⟨sessionId, hnot, rfl⟩)
    · exact (mem_foldEvents_unlimited hlimit).mpr ⟨(mem_foldEvents hrow).1, rfl⟩
    · exact (mem_foldEvents_unlimited hlimit).mpr ⟨(mem_foldEvents hrow).1, rfl⟩
    · obtain ⟨row, hrow, hid, hstate⟩ := (exists_conflicted_iff hlimit).mpr hnot
      rw [← hid, ← (conflicted_noData hrow hstate).1]
      exact hrow

/-- The history is a function of the set of events, in a strict order that a limit only cuts; a session
is conflicted exactly if its events are not one story, and then its row says nothing else and never
gets better; the two scopes and the conflicted rows are all rows. -/
theorem foldEvents_history :
    (∀ events events' storageDegraded target limit scope, (∀ e, e ∈ events ↔ e ∈ events') →
      foldEvents events storageDegraded target limit scope =
        foldEvents events' storageDegraded target limit scope) ∧
    (∀ events storageDegraded limit scope,
      ((foldEvents events storageDegraded none limit scope).map (·.sessionId)).Nodup ∧
      (foldEvents events storageDegraded none limit scope).Pairwise
        (fun a b => sortKey b < sortKey a) ∧
      ∀ limit', limit ≤ limit' → foldEvents events storageDegraded none limit scope =
        (foldEvents events storageDegraded none limit' scope).take limit) ∧
    (∀ events storageDegraded sessionId limit, events.length ≤ limit →
      ((∃ row ∈ foldEvents events storageDegraded none limit .all,
        row.sessionId = sessionId ∧ row.evidenceState = .conflicted) ↔
        ¬ Consistent events sessionId)) ∧
    (∀ events storageDegraded target limit scope,
      ∀ row ∈ foldEvents events storageDegraded target limit scope,
        (row.evidenceState = .conflicted ↔ ¬ Consistent events row.sessionId) ∧
        (row.evidenceState = .conflicted → row = conflictRow row.sessionId ∧ scope = .all)) ∧
    (∀ events storageDegraded limit limit',
      List.Disjoint (foldEvents events storageDegraded none limit .topLevel)
        (foldEvents events storageDegraded none limit' .children)) ∧
    (∀ events storageDegraded limit, events.length ≤ limit → ∀ row,
      row ∈ foldEvents events storageDegraded none limit .all ↔
        row ∈ foldEvents events storageDegraded none limit .topLevel ∨
        row ∈ foldEvents events storageDegraded none limit .children ∨
        ∃ sessionId, ¬ Consistent events sessionId ∧ row = conflictRow sessionId) ∧
    (∀ events events' storageDegraded storageDegraded' target target' limit limit' scope scope',
      events ⊆ events' → ∀ row ∈ foldEvents events storageDegraded target limit scope,
        row.evidenceState = .conflicted →
          ∀ row' ∈ foldEvents events' storageDegraded' target' limit' scope',
            row'.sessionId = row.sessionId → row'.evidenceState = .conflicted) := by
  refine ⟨fun _ _ _ _ _ _ => foldEvents_congr, fun events storageDegraded limit scope => ?_,
    fun _ _ _ _ => exists_conflicted_iff, fun _ _ _ _ _ row hrow => ?_,
    fun _ _ _ _ => topLevel_disjoint_children, fun _ _ _ hlimit _ => mem_all_iff hlimit, ?_⟩
  · refine ⟨?_, (sorted_sortedExits events storageDegraded).sublist foldEvents_sublist,
      fun _ => foldEvents_take⟩
    exact List.pairwise_map.mpr
      ((pairwise_sessionId_sortedExits events storageDegraded).sublist foldEvents_sublist)
  · exact ⟨conflicted_iff hrow, conflicted_noData hrow⟩
  · intro events events' _ _ _ _ _ _ _ _ hsub row hrow hstate row' hrow' hid
    have hnot := (conflicted_iff hrow).mp hstate
    rw [← hid] at hnot
    exact (conflicted_iff hrow').mpr fun hcons => hnot (hcons.mono hsub)

-- two claims of one session are a conflict; without the second there is a top level row
example :
    let identity : StoredIdentity :=
      ⟨"s".toList, "n".toList, "%1".toList, none, none, none, 1, none, none, 0⟩
    let first := LifecycleEvent.triggerClaimed journalSchemaVersion 1 1 identity 20 .leaderExited
    let second := LifecycleEvent.triggerClaimed journalSchemaVersion 2 1 identity 30 .closeRequested
    foldEvents [first, second, first] false none 5 .all = [conflictRow "s".toList] ∧
      foldEvents [first, second] false none 5 .topLevel = [] ∧
      (foldEvents [first, first] true none 5 .topLevel).map (·.evidenceState) =
        [.storageDegraded] := by
  decide +kernel

end LightTerminal.Session.History
