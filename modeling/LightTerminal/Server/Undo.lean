import LightTerminal.Server.Coherence
import LightTerminal.Server.Refusal

/-! # The metadata journal over whole runs

`journalCalls` lists the successful metadata operations of a run on one session. Between them the
metadata of the session does not change, and each does what its kind says (`step_applies`), so the
journal stays sound: over the same base value as long as it is not purged (`run_sound`). Undo and
redo leave the entries alone and move the cursor by one (`run_steps`), and in a sound journal the
cursor determines the current value; so a run with as many undos as redos restores it. -/

namespace LightTerminal.Server.Undo

open LightTerminal.Data.Text LightTerminal.Library LightTerminal.Server.Error
open LightTerminal.Server.Metadata LightTerminal.Server.Model LightTerminal.Server.Concurrent
open LightTerminal.Server.Operations LightTerminal.Server.Daemon LightTerminal.Server.Coherence
open LightTerminal.Server.Refusal

/-- What a successful metadata operation does to the journal of its session. -/
inductive JournalCall where
  | write
  | step (direction : MetadataStepDirection)
  | purge
  deriving DecidableEq

/-- The operation succeeded on the session `id`. -/
def succeededOn {α : Type} (owner : α → Str) (id : Str) : Except ServerError α × State → Bool
  | (.ok v, _) => owner v = id
  | (.error _, _) => false

/-- The successful operation on the journal of `id` that an action is. -/
def journalCall (id : Str) (s : State) : Action → Option JournalCall
  | .setStatusTheme target statusTheme =>
    if succeededOn (fun v => v) id (setStatusTheme target statusTheme s) then some .write else none
  | .rename target newName hook =>
    if succeededOn (fun v => v) id (renameSession target newName hook s) then some .write else none
  | .metadataStep target direction hook =>
    if succeededOn (·.sessionId) id (metadataStep target direction hook s) then
      some (.step direction)
    else none
  | .purgeHistory target irreversible claimedSessionId nowUnixMs =>
    if succeededOn (·.sessionId) id
        (metadataPurgeHistory target irreversible claimedSessionId nowUnixMs s) then some .purge
    else none
  | _ => none

/-- The successful operations of a run on the journal of `id`. -/
def journalCalls (id : Str) : State → List Action → List JournalCall
  | _, [] => []
  | s, a :: actions => (journalCall id s a).toList ++ journalCalls id (step s a) actions

/-- What such an operation does to the metadata. -/
def Applies : Option JournalCall → SessionMetadata → SessionMetadata → Prop
  | none, m, m' => m' = m
  | some .write, m, m' => m' = m ∨ Appends m m'
  | some (.step direction), m, m' => Moves direction m m'
  | some .purge, m, m' => Purges m m'

variable {s s' : State} {id : Str}

/-! ### One action -/

theorem written_metadata {target : Str} {m : SessionMetadata} (hw : Written s s' target m)
    (id : Str) : (s'.heap id).metadata = if id = target then m else (s.heap id).metadata := by
  obtain ⟨s₁, hu, rfl⟩ := hw.unlocked
  unfold setMetadata
  split_ifs with hid
  · subst hid
    rw [State.modify_heap_self]
  · rw [State.modify_heap_of_ne _ _ _ hid]
    exact (hu.heap id).metadata

/-- The outcome of a metadata operation, seen from the session `id`. -/
theorem outcome_applies {α : Type} {owner : α → Str} {idle : Prop}
    {change : SessionMetadata → SessionMetadata → Prop} {result : Except ServerError α × State}
    (call : JournalCall) (h : Outcome owner idle change s result)
    (hidle : idle → ∀ m, Applies (some call) m m)
    (hchange : ∀ m m', change m m' → Applies (some call) m m') (id : Str) :
    Applies (if succeededOn owner id result then some call else none) (s.heap id).metadata
      (result.2.heap id).metadata := by
  cases h with
  | failed e hook => exact ((interleave_unlocked hook s).heap id).metadata
  | kept v h =>
    split_ifs
    · exact hidle h _
    · rfl
  | written v s' m hw hm =>
    have hmeta := written_metadata hw id
    by_cases hid : id = owner v
    · subst hid
      rw [if_pos rfl] at hmeta
      rw [if_pos (by simp [succeededOn]), hmeta]
      exact hchange _ _ hm
    · rw [if_neg hid] at hmeta
      rw [if_neg (by simpa [succeededOn] using fun h => hid h.symm)]
      exact hmeta

/-- An action that is no metadata operation does not change the metadata of a session. -/
theorem effect_metadata {writes : Prop} (hwrites : ¬writes) (he : Effect writes s s')
    (hid : id ∈ s.history.created) :
    (s'.heap id).metadata = (s.heap id).metadata := by
  cases he with
  | beside hu => exact (hu.heap id).metadata
  | reserved ha => rfl
  | released hr => rfl
  | @allocated r id' theme token leader fresh =>
    have hne : id ≠ id' := fun h => fresh (h ▸ hid)
    rw [allocate_heap_of_ne hne]
  | @committed r id' theme token leader selection parent s₁ hr fresh resolved hu =>
    have hne : id ≠ id' := fun h => fresh (h ▸ hid)
    show ((s₁.modify id' (recordParent parent)).heap id).metadata = _
    rw [State.modify_heap_of_ne _ _ _ hne, (hu.heap id).metadata, allocate_heap_of_ne hne]
  | written hw h => exact absurd hw hwrites
  | removed hu => exact (hu.heap id).metadata

theorem step_applies (s : State) (a : Action) (hid : id ∈ s.history.created) :
    Applies (journalCall id s a) (s.heap id).metadata ((step s a).heap id).metadata := by
  cases a with
  | setStatusTheme target theme =>
    exact outcome_applies .write (setStatusTheme_outcome target theme s) (fun _ _ => Or.inl rfl)
      (fun _ _ h => Or.inr h) id
  | rename target newName hook =>
    exact outcome_applies .write (renameSession_outcome target newName hook s)
      (fun _ _ => Or.inl rfl) (fun _ _ h => Or.inr h) id
  | metadataStep target direction hook =>
    exact outcome_applies (.step direction) (metadataStep_outcome target direction hook s)
      (fun h => h.elim) (fun _ _ h => h) id
  | purgeHistory target irreversible claimed now =>
    exact outcome_applies .purge
      (metadataPurgeHistory_outcome target irreversible claimed now s) (fun h => h.elim)
      (fun _ _ h => h) id
  | _ =>
    refine effect_metadata ?_ (step_effect s _) hid
    exact fun h => h

/-! ### Sound journals -/

/-- An operation other than a purge keeps the journal sound over its base. -/
theorem applies_sound {call : Option JournalCall} {base : MetadataValue} {m m' : SessionMetadata}
    (h : Applies call m m') (hcall : call ≠ some .purge) (hs : m.Sound base) : m'.Sound base := by
  rcases call with _ | _ | direction | _
  · exact h ▸ hs
  · rcases h with rfl | ⟨entry, hv, hbefore, rfl⟩
    · exact hs
    · exact hs.append hv hbefore
  · obtain ⟨move, hmove, -, rfl⟩ := h
    exact (hs.chooseMove hmove).2
  · exact absurd rfl hcall

theorem applies_sound_exists {call : Option JournalCall} {base : MetadataValue}
    {m m' : SessionMetadata} (h : Applies call m m') (hs : m.Sound base) :
    ∃ base', m'.Sound base' := by
  by_cases hcall : call = some .purge
  · subst hcall
    obtain ⟨purge, rfl⟩ := h
    exact ⟨m.current, m.sound_purgeWith purge⟩
  · exact ⟨base, applies_sound h hcall hs⟩

/-- Without a purge, a run keeps the base of the journal. -/
theorem run_sound : ∀ (actions : List Action) (s : State) {base : MetadataValue},
    id ∈ s.history.created → .purge ∉ journalCalls id s actions → (s.heap id).metadata.Sound base →
      ((run s actions).heap id).metadata.Sound base
  | [], _, _, _, _, hs => hs
  | a :: actions, s, base, hid, hpurge, hs => by
    simp only [journalCalls, List.mem_append, not_or] at hpurge
    refine run_sound actions (step s a) (effect_persists (step_effect s a) hid).2 hpurge.2 ?_
    refine applies_sound (step_applies s a hid) ?_ hs
    intro hcall
    rw [hcall] at hpurge
    simp at hpurge

/-- All sessions have a sound journal. -/
def AllSound (s : State) : Prop :=
  ∀ id ∈ s.history.created, ∃ base, (s.heap id).metadata.Sound base

/-- The metadata of a session that is being created is new. -/
theorem newSession_metadata {r : SessionReservation} {theme : Option StatusTheme} {token : Str}
    {leader : Option ProcessIdentity} {s₁ : State}
    (hu : Unlocked (allocate id (newSession r theme token leader) s) s₁) :
    (s₁.heap id).metadata = .new r.name theme := by
  rw [(hu.heap id).metadata]
  unfold allocate
  dsimp only
  rw [Function.update_self]
  rfl

theorem step_allSound (s : State) (a : Action) (h : AllSound s) : AllSound (step s a) := by
  intro id hid
  by_cases hcreated : id ∈ s.history.created
  · obtain ⟨base, hs⟩ := h id hcreated
    exact applies_sound_exists (step_applies s a hcreated) hs
  · -- the session is new
    have he := step_effect s a
    generalize step s a = s' at he hid
    cases he with
    | beside hu => exact absurd (hu.created ▸ hid) hcreated
    | reserved ha => exact absurd hid hcreated
    | released hr => exact absurd hid hcreated
    | @allocated r id' theme token leader fresh =>
      rcases List.mem_cons.mp hid with rfl | hid
      · rw [newSession_metadata (.refl _)]
        exact ⟨_, SessionMetadata.sound_new r.name theme⟩
      · exact absurd hid hcreated
    | @committed r id' theme token leader selection parent s₁ hr fresh resolved hu =>
      have hid₁ : id ∈ s₁.history.created := hid
      rw [hu.created] at hid₁
      rcases List.mem_cons.mp hid₁ with rfl | hid₁
      · have hmeta : ((install r id parent s₁).heap id).metadata = (s₁.heap id).metadata :=
          State.modify_heap_proj s₁ id (recordParent parent) rfl id
        rw [hmeta, newSession_metadata hu]
        exact ⟨_, SessionMetadata.sound_new r.name theme⟩
      · exact absurd hid₁ hcreated
    | written _ hw =>
      obtain ⟨s₁, hu, rfl⟩ := hw.unlocked
      exact absurd ((hu.created : s₁.history.created = _) ▸ hid) hcreated
    | removed hu =>
      have hid' := hu.created ▸ hid
      exact absurd hid' hcreated

theorem run_allSound (journal : Bool) (actions : List Action) :
    AllSound (run (State.new journal) actions) :=
  Run.run_invariant step_allSound actions _ fun id hid => by cases hid

/-! ### Undo and redo -/

/-- A step leaves the entries alone and moves the cursor by one. -/
theorem moves_cursor {direction : MetadataStepDirection} {m m' : SessionMetadata}
    (h : Moves direction m m') :
    m'.entries = m.entries ∧ (direction = .undo → m'.cursor + 1 = m.cursor) ∧
      (direction = .redo → m'.cursor = m.cursor + 1) := by
  obtain ⟨move, hmove, -, rfl⟩ := h
  refine ⟨rfl, ?_, ?_⟩
  · rintro rfl
    simp only [SessionMetadata.chooseMove] at hmove
    split at hmove
    · cases hmove
    · next index hc =>
      split at hmove
      · cases hmove
      · cases hmove
        exact hc.symm
  · rintro rfl
    simp only [SessionMetadata.chooseMove] at hmove
    split at hmove
    · cases hmove
    · cases hmove
      rfl

/-- A run whose operations on the journal are undos and redos leaves the entries alone; the cursor
goes back and forth. -/
theorem run_steps : ∀ (actions : List Action) (s : State), id ∈ s.history.created →
    (∀ call ∈ journalCalls id s actions, ∃ direction, call = .step direction) →
      ((run s actions).heap id).metadata.entries = (s.heap id).metadata.entries ∧
        ((run s actions).heap id).metadata.cursor +
            (journalCalls id s actions).count (.step .undo) =
          (s.heap id).metadata.cursor + (journalCalls id s actions).count (.step .redo)
  | [], _, _, _ => ⟨rfl, rfl⟩
  | a :: actions, s, hid, hcalls => by
    simp only [journalCalls, List.mem_append] at hcalls
    obtain ⟨ih1, ih2⟩ := run_steps actions (step s a) (effect_persists (step_effect s a) hid).2
      fun call hmem => hcalls call (.inr hmem)
    have happlies := step_applies s a hid
    simp only [journalCalls, List.count_append]
    have hrun : run s (a :: actions) = run (step s a) actions := rfl
    rw [hrun]
    cases hcall : journalCall id s a with
    | none =>
      rw [hcall] at happlies
      have heq : ((step s a).heap id).metadata = (s.heap id).metadata := happlies
      rw [heq] at ih1 ih2
      simp only [Option.toList_none, List.count_nil, Nat.zero_add]
      exact ⟨ih1, ih2⟩
    | some call =>
      obtain ⟨direction, rfl⟩ := hcalls call (.inl (by rw [hcall]; simp))
      rw [hcall] at happlies
      obtain ⟨hentries, hundo, hredo⟩ := moves_cursor happlies
      refine ⟨ih1.trans hentries, ?_⟩
      cases direction with
      | undo =>
        have hcursor := hundo rfl
        have h1 : [JournalCall.step .undo].count (.step .undo) = 1 := rfl
        have h2 : [JournalCall.step .undo].count (.step .redo) = 0 := rfl
        simp only [Option.toList_some, h1, h2]
        omega
      | redo =>
        have hcursor := hredo rfl
        have h1 : [JournalCall.step .redo].count (.step .undo) = 0 := rfl
        have h2 : [JournalCall.step .redo].count (.step .redo) = 1 := rfl
        simp only [Option.toList_some, h1, h2]
        omega

/-- `metadata_step` returns no internal error. -/
theorem metadataStep_ne {s : State} (hc : Coherent s) (hs : AllSound s) (target : Str)
    (direction : MetadataStepDirection) (hook : List UnlockedAction) {e : ServerError}
    (he : e.internal = true) : (metadataStep target direction hook s).1 ≠ .error e := by
  intro heq
  obtain ⟨id, hlive, hcase⟩ := hc.metadataStep_error he heq
  obtain ⟨base, hsound⟩ := hs id (hc.created id hlive)
  rcases hcase with ⟨hpanicked, -⟩ | ⟨-, move, hmove, hne⟩
  · exact hsound.chooseMove_ne_panicked direction hpanicked
  · exact hne (hsound.chooseMove hmove).1

/-- The laws of the journal of one session. -/
structure JournalLaws (m : SessionMetadata) : Prop where
  cursor_le : m.cursor ≤ m.entries.length
  bounded : m.entries.length ≤ maxMetadataJournalEntries
  linked : ∀ i e e', m.entries[i]? = some e → m.entries[i + 1]? = some e' → e.after = e'.before
  current_after : ∀ n e, m.cursor = n + 1 → m.entries[n]? = some e → m.current = e.after
  current_before : ∀ e, m.cursor = 0 → m.entries[0]? = some e → m.current = e.before

theorem journalLaws_of_sound {base : MetadataValue} {m : SessionMetadata} (h : m.Sound base) :
    JournalLaws m := by
  obtain ⟨hafter, hbefore⟩ := h.journal.current_of_get
  exact ⟨h.journal.cursor_le, h.bounded, fun i e e' he he' => h.journal.linked.adjacent he he',
    hafter, hbefore⟩

/-- As many undos as redos, and nothing else, restore the session. -/
theorem run_undo_redo {s : State} {id : Str} (hid : id ∈ s.history.created) {base : MetadataValue}
    (hs : (s.heap id).metadata.Sound base) {later : List Action} {j : ℕ}
    (hcalls : journalCalls id s later = .replicate j (.step .undo) ++ .replicate j (.step .redo)) :
    ((run s later).heap id).metadata.current = (s.heap id).metadata.current ∧
      ((run s later).heap id).metadata.cursor = (s.heap id).metadata.cursor ∧
      ((run s later).heap id).metadata.entries = (s.heap id).metadata.entries := by
  have hsteps : ∀ call ∈ journalCalls id s later, ∃ direction, call = .step direction := by
    intro call hmem
    rw [hcalls, List.mem_append] at hmem
    rcases hmem with hmem | hmem
    · exact ⟨.undo, List.eq_of_mem_replicate hmem⟩
    · exact ⟨.redo, List.eq_of_mem_replicate hmem⟩
  obtain ⟨hentries, hcursor⟩ := run_steps later s hid hsteps
  have hcount : (journalCalls id s later).count (.step .undo) =
      (journalCalls id s later).count (.step .redo) := by
    rw [hcalls]
    simp [List.count_replicate]
  have hcursor' : ((run s later).heap id).metadata.cursor = (s.heap id).metadata.cursor := by
    omega
  have hpurge : .purge ∉ journalCalls id s later := fun hmem => by
    obtain ⟨direction, hd⟩ := hsteps _ hmem
    cases hd
  have hs' := run_sound later s hid hpurge hs
  refine ⟨?_, hcursor', hentries⟩
  rw [hs'.journal.current_eq, hs.journal.current_eq, hcursor', hentries]

/-- With everything undone, the value is the one the journal started from. -/
theorem run_undone {s : State} {id : Str} (hid : id ∈ s.history.created) {base : MetadataValue}
    (hs : (s.heap id).metadata.Sound base) {later : List Action}
    (hempty : (s.heap id).metadata.entries = []) (hpurge : .purge ∉ journalCalls id s later)
    (hcursor : ((run s later).heap id).metadata.cursor = 0) :
    ((run s later).heap id).metadata.current = (s.heap id).metadata.current := by
  have hcursor₀ : (s.heap id).metadata.cursor = 0 := by
    have hle := hs.journal.cursor_le
    rw [hempty] at hle
    exact Nat.le_zero.mp hle
  have hs' := run_sound later s hid hpurge hs
  rw [hs'.journal.current_eq, hs.journal.current_eq, hcursor, hcursor₀, Journal.valueAt_zero,
    Journal.valueAt_zero]

/-- A session that is committed starts with the journal of a new one. -/
theorem commit_metadata {s : State} {r : SessionReservation} (hr : r ∈ s.reservations) {id : Str}
    (fresh : id ∉ s.history.created) (theme : Option StatusTheme) (token : Str)
    (leader : Option ProcessIdentity) (selection : Option ParentSelection)
    (hook : List UnlockedAction) :
    ((step s (.commit r id theme token leader selection hook)).heap id).metadata =
      .new r.name theme := by
  rw [step, if_pos ⟨hr, fresh⟩]
  unfold commit
  split_ifs
  · exact newSession_metadata (.refl _)
  · exact newSession_metadata (.refl _)
  · split
    · exact newSession_metadata (.refl _)
    · next parent _ =>
      refine (State.modify_heap_proj _ id (recordParent parent) rfl id).trans ?_
      exact newSession_metadata (interleave_unlocked hook _)

/-- **The metadata journal.** In every state of every run the journal of every session obeys its
laws, and `metadata_step` never finds that the current value does not fit. From there on, a run
with `j` undos and then `j` redos of the session restores its value, cursor and entries; and a run
that starts with an empty journal, as it is at the creation of the session and after a purge, and
purges nothing, has the same value whenever everything is undone. -/
theorem metadata_journal (journal : Bool) (actions : List Action) :
    let s := run (State.new journal) actions
    (∀ id ∈ s.history.created, JournalLaws (s.heap id).metadata ∧
      (∀ later j, journalCalls id s later =
          .replicate j (.step .undo) ++ .replicate j (.step .redo) →
        let m := ((run s later).heap id).metadata
        m.current = (s.heap id).metadata.current ∧ m.cursor = (s.heap id).metadata.cursor ∧
          m.entries = (s.heap id).metadata.entries) ∧
      (∀ later, (s.heap id).metadata.entries = [] → .purge ∉ journalCalls id s later →
        ((run s later).heap id).metadata.cursor = 0 →
          ((run s later).heap id).metadata.current = (s.heap id).metadata.current) ∧
      ∀ a, journalCall id s a = some .purge →
        ((step s a).heap id).metadata.entries = [] ∧
          ((step s a).heap id).metadata.current = (s.heap id).metadata.current) ∧
    (∀ r ∈ s.reservations, ∀ id ∉ s.history.created, ∀ theme token leader selection hook,
      ((step s (.commit r id theme token leader selection hook)).heap id).metadata =
        .new r.name theme) ∧
    ∀ target direction hook,
      (metadataStep target direction hook s).1 ≠ .error (.currentMismatch direction) := by
  have hsound := run_allSound journal actions
  have hcoherent := run_coherent journal actions
  generalize run (State.new journal) actions = s at hsound hcoherent
  refine ⟨fun id hid => ?_, ?_, ?_⟩
  · obtain ⟨base, hs⟩ := hsound id hid
    refine ⟨journalLaws_of_sound hs, fun later j hcalls => run_undo_redo hid hs hcalls,
      fun later hempty hpurge hcursor => run_undone hid hs hempty hpurge hcursor, ?_⟩
    intro a hcall
    have happlies := step_applies s a hid
    rw [hcall] at happlies
    obtain ⟨purge, hpurge⟩ := happlies
    rw [hpurge]
    exact ⟨rfl, rfl⟩
  · intro r hr id fresh theme token leader selection hook
    exact commit_metadata hr fresh theme token leader selection hook
  · intro target direction hook
    exact metadataStep_ne hcoherent hsound target direction hook rfl

end LightTerminal.Server.Undo
