import LightTerminal.Server.Daemon

/-! # Refused metadata operations

A `MetadataCall` is a call of one of the four operations on metadata. If it returns an error, the
session maps, the reservations and the metadata of every session are what they were, whatever other
threads did meanwhile (`perform_failed`). And from the moment the lifecycle of a session is claimed,
no such call changes its name or its entries in `by_name` (`perform_keepsName`); a claim is for good
(`run_persists`). -/

namespace LightTerminal.Server.Refusal

open LightTerminal.Data.Text LightTerminal.Library LightTerminal.Library.FiniteMap
open LightTerminal.Session.Lifecycle LightTerminal.Server.Error LightTerminal.Server.Metadata
open LightTerminal.Server.Model LightTerminal.Server.Concurrent LightTerminal.Server.Operations
open LightTerminal.Server.Daemon

/-- A call of an operation on metadata. -/
inductive MetadataCall where
  | setStatusTheme (target : Str) (statusTheme : Option StatusTheme)
  | rename (target newName : Str) (hook : List UnlockedAction)
  | step (target : Str) (direction : MetadataStepDirection) (hook : List UnlockedAction)
  | purgeHistory (target : Str) (irreversible : Bool) (claimedSessionId : Str) (nowUnixMs : ℕ)

/-- A result cut down to the session it names. -/
def toSession {α : Type} (owner : α → Str) (result : Except ServerError α × State) :
    Except ServerError Str × State :=
  (result.1.map owner, result.2)

/-- A call made, with the session it was about. -/
def MetadataCall.perform (s : State) : MetadataCall → Except ServerError Str × State
  | .setStatusTheme target statusTheme => Operations.setStatusTheme target statusTheme s
  | .rename target newName hook => renameSession target newName hook s
  | .step target direction hook => toSession (·.sessionId) (metadataStep target direction hook s)
  | .purgeHistory target irreversible claimedSessionId nowUnixMs =>
    toSession (·.sessionId) (metadataPurgeHistory target irreversible claimedSessionId nowUnixMs s)

/-- The maps, the reservations and all metadata are the same. -/
structure Unchanged (s s' : State) : Prop where
  sessions : s'.sessions = s.sessions
  reservations : s'.reservations = s.reservations
  metadata : ∀ id, (s'.heap id).metadata = (s.heap id).metadata

/-- The name of the session `id` and its entries in `by_name` are the same. -/
structure KeepsName (id : Str) (s s' : State) : Prop where
  name : (s'.heap id).name = (s.heap id).name
  entries : ∀ name, s'.sessions.byName.lookup name = some id ↔
    s.sessions.byName.lookup name = some id

variable {s s' : State}

theorem unchanged_of_unlocked (h : Unlocked s s') : Unchanged s s' :=
  ⟨h.sessions, h.reservations, fun id => (h.heap id).metadata⟩

theorem Unchanged.keepsName (h : Unchanged s s') (id : Str) : KeepsName id s s' := by
  refine ⟨?_, fun name => ?_⟩
  · unfold Session.name
    rw [h.metadata]
  · rw [h.sessions]

theorem outcome_toSession {α : Type} {owner : α → Str} {idle : Prop}
    {change : SessionMetadata → SessionMetadata → Prop} {result : Except ServerError α × State}
    (h : Outcome owner idle change s result) :
    Outcome id True Change s (toSession owner result) := by
  cases h with
  | failed e hook => exact .failed e hook
  | kept v => exact .kept (owner v) trivial
  | written v s' m h hchange => exact .written (owner v) s' m h h.change

theorem perform_outcome (s : State) (call : MetadataCall) :
    Outcome id True Change s (call.perform s) := by
  cases call with
  | setStatusTheme target theme =>
    have h := outcome_toSession (setStatusTheme_outcome target theme s)
    simpa only [toSession, Except.map_id, id_eq, MetadataCall.perform] using h
  | rename target newName hook =>
    have h := outcome_toSession (renameSession_outcome target newName hook s)
    simpa only [toSession, Except.map_id, id_eq, MetadataCall.perform] using h
  | step target direction hook =>
    exact outcome_toSession (metadataStep_outcome target direction hook s)
  | purgeHistory target irreversible claimed now =>
    exact outcome_toSession (metadataPurgeHistory_outcome target irreversible claimed now s)

/-- **A failed call changes nothing.** -/
theorem perform_failed {call : MetadataCall} {e : ServerError}
    (h : (call.perform s).1 = .error e) : Unchanged s (call.perform s).2 := by
  have ho := perform_outcome s call
  generalize call.perform s = result at h ho
  cases ho with
  | failed e' hook => exact unchanged_of_unlocked (interleave_unlocked hook s)
  | kept v => exact unchanged_of_unlocked (.refl s)
  | written v s' m hw => cases h

/-- The write of another session's metadata, or one that keeps the name, keeps the name. -/
theorem keepsName_written {id target : Str} {m : SessionMetadata} (hw : Written s s' target m)
    (hkeep : target = id → m.current.name = (s.heap id).name) : KeepsName id s s' := by
  obtain ⟨s₁, hu, rfl⟩ := hw.unlocked
  obtain ⟨-, -, -, hfree, hnamed, -⟩ := hw
  have hname₁ : ∀ j, (s₁.heap j).name = (s.heap j).name := fun j => by
    unfold Session.name
    rw [(hu.heap j).metadata]
  refine ⟨?_, fun name => ?_⟩
  · by_cases htarget : target = id
    · subst htarget
      unfold Session.name setMetadata
      rw [State.modify_heap_self]
      exact hkeep rfl
    · unfold setMetadata
      rw [State.modify_heap_of_ne _ _ _ fun heq => htarget heq.symm]
      exact hname₁ id
  · show (applyMetadataNameTransition _ _ _ _).byName.lookup name = some id ↔ _
    unfold applyMetadataNameTransition
    split_ifs with hsame
    · exact Iff.rfl
    · -- another session takes a name that is free or its own
      have hne : target ≠ id := by
        rintro rfl
        exact hsame (hkeep rfl).symm
      have hold := of_decide_eq_true (hnamed fun heq => hsame heq.symm)
      have htaken := hfree fun heq => hsame heq.symm
      unfold SessionMaps.nameTaken at htaken
      rw [Bool.or_eq_false_iff] at htaken
      dsimp only
      rw [lookup_insert, lookup_erase]
      split_ifs with h1 h2
      · subst h1
        refine ⟨fun h => absurd (Option.some.inj h) hne, fun h => ?_⟩
        have hany := htaken.2
        rw [h] at hany
        simp [hne.symm] at hany
      · subst h2
        rw [hold]
        exact ⟨fun h => (by cases h), fun h => absurd (Option.some.inj h) hne⟩
      · exact Iff.rfl

/-- **Once claimed, no call changes the name.** -/
theorem perform_keepsName {id : Str} (hclaimed : (s.heap id).lifecycle.authority ≠ none)
    (call : MetadataCall) : KeepsName id s (call.perform s).2 := by
  have ho := perform_outcome s call
  generalize call.perform s = result at ho
  cases ho with
  | failed e' hook => exact (unchanged_of_unlocked (interleave_unlocked hook s)).keepsName id
  | kept v => exact (unchanged_of_unlocked (.refl s)).keepsName id
  | written target s' m hw =>
    refine keepsName_written hw ?_
    rintro rfl
    by_contra hne
    exact hclaimed (hw.unclaimed hne)

/-! ### A claim is for good -/

theorem persists_setMetadata (s : State) (target : Str) (m : SessionMetadata) (id : Str) :
    Persists (s.heap id) ((setMetadata target m s).heap id) := by
  unfold setMetadata
  by_cases hid : id = target
  · subst hid
    rw [State.modify_heap_self]
    exact ⟨rfl, rfl, rfl, .refl _, fun h => h, fun h => h, fun h => h, fun h => h⟩
  · rw [State.modify_heap_of_ne _ _ _ hid]
    exact .refl _

theorem allocate_heap_of_ne {id id' : Str} (hne : id ≠ id') (x : Session) :
    (allocate id' x s).heap id = s.heap id := by
  unfold allocate
  exact Function.update_of_ne hne x s.heap

/-- A session that was created stays, and only goes forward. -/
theorem effect_persists {writes : Prop} (he : Effect writes s s') {id : Str} (hid : id ∈ s.history.created) :
    Persists (s.heap id) (s'.heap id) ∧ id ∈ s'.history.created := by
  cases he with
  | beside hu => exact ⟨(hu.heap id).toPersists, hu.created ▸ hid⟩
  | reserved ha => exact ⟨.refl _, hid⟩
  | released hr => exact ⟨.refl _, hid⟩
  | @allocated r id' theme token leader fresh =>
    have hne : id ≠ id' := fun h => fresh (h ▸ hid)
    rw [allocate_heap_of_ne hne]
    exact ⟨.refl _, List.mem_cons_of_mem _ hid⟩
  | @committed r id' theme token leader selection parent s₁ hr fresh resolved hu =>
    have hne : id ≠ id' := fun h => fresh (h ▸ hid)
    have hheap := (hu.heap id).toPersists
    rw [allocate_heap_of_ne hne] at hheap
    refine ⟨?_, ?_⟩
    · show Persists _ ((s₁.modify id' (recordParent parent)).heap id)
      rw [State.modify_heap_of_ne _ _ _ hne]
      exact hheap
    · show id ∈ s₁.history.created
      rw [hu.created]
      exact List.mem_cons_of_mem _ hid
  | @written s' target m _ hw =>
    obtain ⟨s₁, hu, rfl⟩ := hw.unlocked
    refine ⟨(hu.heap id).toPersists.trans ?_, ?_⟩
    · exact persists_setMetadata { s₁ with sessions := _ } target m id
    · show id ∈ s₁.history.created
      rw [hu.created]
      exact hid
  | removed hu => exact ⟨(hu.heap id).toPersists, hu.created ▸ hid⟩

theorem run_persists : ∀ (actions : List Action) (s : State) {id : Str}, id ∈ s.history.created →
    Persists (s.heap id) ((run s actions).heap id) ∧ id ∈ (run s actions).history.created
  | [], s, id, hid => ⟨.refl _, hid⟩
  | a :: actions, s, id, hid => by
    obtain ⟨h1, hid1⟩ := effect_persists (step_effect s a) hid
    obtain ⟨h2, hid2⟩ := run_persists actions (step s a) hid1
    exact ⟨h1.trans h2, hid2⟩

/-- **Refused metadata operations.** In every state of every run, a call that returns an error
leaves the maps, the reservations and all metadata as they were; and after the lifecycle of a
session is claimed, no call made at any later point of the run changes its name or its entries in
`by_name`. -/
theorem metadata_calls_refused (journal : Bool) (before : List Action) :
    let s := run (State.new journal) before
    (∀ call e, (MetadataCall.perform s call).1 = .error e →
        Unchanged s (MetadataCall.perform s call).2) ∧
      ∀ id ∈ s.history.created, (s.heap id).lifecycle.authority ≠ none →
        ∀ (later : List Action) (call : MetadataCall),
          KeepsName id (run s later) (MetadataCall.perform (run s later) call).2 := by
  refine ⟨fun call e h => perform_failed h, fun id hid hclaimed later call => ?_⟩
  refine perform_keepsName ?_ call
  obtain ⟨a, ha⟩ := Option.ne_none_iff_exists'.mp hclaimed
  rw [(run_persists later _ hid).1.lifecycle.authority a ha]
  simp

end LightTerminal.Server.Refusal
