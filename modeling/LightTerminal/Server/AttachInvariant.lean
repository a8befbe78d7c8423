import LightTerminal.Server.Attach

/-! # What holds of a session whose clients attach and detach

The invariant has four parts: the ring and the terminal are those of the history (`Screens`), each
subscriber joined once and leaves once (`Membership`), each channel holds the snapshot and the chunks
since, of which at most the latest is missing while it is being sent (`Delivery`), and the sizes agree
whenever no size is being applied (`Sizes`).

`Change` is what a thread may do to a session, by the locks that it holds. -/

namespace LightTerminal.Server.Attach

open LightTerminal.Library.Interleave LightTerminal.Library.Procedure
open LightTerminal.Output.Ring LightTerminal.Output.NormalScreen

variable {Parser Screen : Type}

/-! ### History -/

/-- The chunks of output. -/
def outputs (history : List TerminalEvent) : List OutputChunk :=
  history.filterMap fun event =>
    match event with
    | .output chunk => some chunk
    | .resize _ => none

@[simp] theorem outputs_append (history more : List TerminalEvent) :
    outputs (history ++ more) = outputs history ++ outputs more := List.filterMap_append

@[simp] theorem outputs_output (chunk : OutputChunk) : outputs [.output chunk] = [chunk] := rfl

@[simp] theorem outputs_resize (geometry : Geometry) : outputs [.resize geometry] = [] := rfl

/-- One event of the terminal. -/
def terminalStep (emulator : Emulator Parser Screen) (terminal : SnapshotState Parser Screen) :
    TerminalEvent → SnapshotState Parser Screen
  | .output chunk => Output.NormalScreen.updateTerminalSnapshotState emulator.vt terminal chunk
  | .resize geometry => { terminal with
      terminalScreen := emulator.setSize terminal.terminalScreen geometry.rows geometry.cols }

/-- The terminal that went through a history. -/
def terminalAfter (emulator : Emulator Parser Screen) (history : List TerminalEvent) :
    SnapshotState Parser Screen :=
  history.foldl (terminalStep emulator) (Output.NormalScreen.newSession emulator.vt)

theorem terminalAfter_concat (emulator : Emulator Parser Screen) (history : List TerminalEvent)
    (event : TerminalEvent) : terminalAfter emulator (history ++ [event]) =
      terminalStep emulator (terminalAfter emulator history) event := by
  rw [terminalAfter, List.foldl_append]
  rfl

/-- The chunks after a cut. -/
def Cut.after (cut : Cut) (history : List TerminalEvent) : List OutputChunk :=
  outputs (history.drop cut.history.length)

/-- What a subscriber is to receive: its snapshot, and the chunks after its cut. -/
def Cut.chunks (cut : Cut) (history : List TerminalEvent) : List OutputChunk :=
  cut.snapshot.toList ++ cut.after history

theorem Cut.chunks_append {cut : Cut} {history : List TerminalEvent} (h : cut.history <+: history)
    (more : List TerminalEvent) :
    cut.chunks (history ++ more) = cut.chunks history ++ outputs more := by
  rw [Cut.chunks, Cut.after, List.drop_append_of_le_length h.length_le, outputs_append,
    ← List.append_assoc]
  rfl

theorem Cut.chunks_self {cut : Cut} : cut.chunks cut.history = cut.snapshot.toList := by
  rw [Cut.chunks, Cut.after, List.drop_length]
  exact List.append_nil _

/-! ### Sizes -/

/-- The geometry passes `validate_terminal_geometry`. -/
def Geometry.Valid (geometry : Geometry) : Prop := validateTerminalGeometry geometry = .ok ()

theorem Geometry.valid_iff {geometry : Geometry} : geometry.Valid ↔
    (geometry.rows ≠ 0 ∧ geometry.cols ≠ 0) ∧
      (geometry.rows ≤ maxTerminalRows ∧ geometry.cols ≤ maxTerminalCols) ∧
      geometry.rows * geometry.cols ≤ maxTerminalCells := by
  simp only [Geometry.Valid, validateTerminalGeometry, bind_eq_ok, require_eq_ok, exists_unit]

theorem Geometry.Valid.smaller {geometry other : Geometry} (h : geometry.Valid) (h' : other.Valid) :
    (geometry.smaller other).Valid := by
  rw [Geometry.valid_iff] at h h' ⊢
  obtain ⟨⟨hrows, hcols⟩, ⟨hmaxRows, hmaxCols⟩, hcells⟩ := h
  obtain ⟨⟨hrows', hcols'⟩, -, -⟩ := h'
  simp only [Geometry.smaller]
  refine ⟨⟨by omega, by omega⟩, ⟨by omega, by omega⟩, le_trans ?_ hcells⟩
  exact Nat.mul_le_mul (min_le_left _ _) (min_le_left _ _)

/-- The componentwise minimum over the geometries of subscribers. -/
structure IsSmallest (subscribers : List Subscriber) (geometry : Geometry) : Prop where
  rows_le : ∀ sub ∈ subscribers, geometry.rows ≤ sub.geometry.rows
  cols_le : ∀ sub ∈ subscribers, geometry.cols ≤ sub.geometry.cols
  rows_mem : ∃ sub ∈ subscribers, sub.geometry.rows = geometry.rows
  cols_mem : ∃ sub ∈ subscribers, sub.geometry.cols = geometry.cols

theorem isSmallest_singleton (sub : Subscriber) : IsSmallest [sub] sub.geometry := by
  refine ⟨?_, ?_, ⟨sub, List.mem_singleton_self sub, rfl⟩, ⟨sub, List.mem_singleton_self sub, rfl⟩⟩
  · intro other h
    rw [List.mem_singleton.mp h]
  · intro other h
    rw [List.mem_singleton.mp h]

theorem IsSmallest.concat {subscribers : List Subscriber} {geometry : Geometry}
    (h : IsSmallest subscribers geometry) (sub : Subscriber) :
    IsSmallest (subscribers ++ [sub]) (geometry.smaller sub.geometry) := by
  refine ⟨?_, ?_, ?_, ?_⟩
  · intro other hother
    rcases List.mem_append.mp hother with hother | hother
    · exact (min_le_left _ _).trans (h.rows_le other hother)
    · rw [List.mem_singleton.mp hother]
      exact min_le_right _ _
  · intro other hother
    rcases List.mem_append.mp hother with hother | hother
    · exact (min_le_left _ _).trans (h.cols_le other hother)
    · rw [List.mem_singleton.mp hother]
      exact min_le_right _ _
  · obtain ⟨other, hother, hrows⟩ := h.rows_mem
    simp only [Geometry.smaller]
    rcases le_total geometry.rows sub.geometry.rows with hle | hle
    · exact ⟨other, List.mem_append_left _ hother, by omega⟩
    · exact ⟨sub, List.mem_append_right _ (List.mem_singleton_self _), by omega⟩
  · obtain ⟨other, hother, hcols⟩ := h.cols_mem
    simp only [Geometry.smaller]
    rcases le_total geometry.cols sub.geometry.cols with hle | hle
    · exact ⟨other, List.mem_append_left _ hother, by omega⟩
    · exact ⟨sub, List.mem_append_right _ (List.mem_singleton_self _), by omega⟩

/-- `clamp_to_smallest` is the componentwise minimum. -/
theorem isSmallest_clampToSmallest {subscribers : List Subscriber} {geometry : Geometry}
    (h : clampToSmallest subscribers = some geometry) : IsSmallest subscribers geometry := by
  have hfold (rest before : List Subscriber) (smallest : Geometry)
      (hbefore : IsSmallest before smallest) :
      IsSmallest (before ++ rest) (clampToSmallestWithCandidate rest smallest) := by
    induction rest generalizing before smallest with
    | nil => simpa [clampToSmallestWithCandidate] using hbefore
    | cons sub rest ih =>
      have hnext := ih (before ++ [sub]) _ (hbefore.concat sub)
      rwa [List.append_assoc] at hnext
  cases subscribers with
  | nil => cases h
  | cons first rest =>
    cases h
    exact hfold rest [first] first.geometry (isSmallest_singleton first)

theorem Geometry.smaller_comm (a b : Geometry) : a.smaller b = b.smaller a := by
  simp only [Geometry.smaller, Nat.min_comm]

theorem Geometry.smaller_assoc (a b c : Geometry) :
    (a.smaller b).smaller c = a.smaller (b.smaller c) := by
  simp only [Geometry.smaller, Nat.min_assoc]

/-- The clamp with a candidate is the clamp after it has joined. -/
theorem clampToSmallest_concat (subscribers : List Subscriber) (sub : Subscriber) :
    clampToSmallest (subscribers ++ [sub]) =
      some (clampToSmallestWithCandidate subscribers sub.geometry) := by
  have hfold (rest : List Subscriber) (a b : Geometry) :
      (clampToSmallestWithCandidate rest a).smaller b =
        clampToSmallestWithCandidate rest (a.smaller b) := by
    induction rest generalizing a with
    | nil => rfl
    | cons other rest ih =>
      show (clampToSmallestWithCandidate rest (a.smaller other.geometry)).smaller b =
        clampToSmallestWithCandidate rest ((a.smaller b).smaller other.geometry)
      rw [ih, Geometry.smaller_assoc, Geometry.smaller_comm other.geometry b,
        ← Geometry.smaller_assoc]
  cases subscribers with
  | nil => rfl
  | cons first rest =>
    show some (clampToSmallestWithCandidate (rest ++ [sub]) first.geometry) = _
    rw [clampToSmallestWithCandidate, List.foldl_append]
    show some ((clampToSmallestWithCandidate rest first.geometry).smaller sub.geometry) =
      some (clampToSmallestWithCandidate rest (sub.geometry.smaller first.geometry))
    rw [hfold, Geometry.smaller_comm]

/-- The smallest of valid geometries is valid. -/
theorem IsSmallest.valid {subscribers : List Subscriber} {geometry : Geometry}
    (h : IsSmallest subscribers geometry) (hvalid : ∀ sub ∈ subscribers, sub.geometry.Valid) :
    geometry.Valid := by
  obtain ⟨sub, hsub, hrows⟩ := h.rows_mem
  obtain ⟨sub', hsub', hcols⟩ := h.cols_mem
  have hsmaller := (hvalid sub hsub).smaller (hvalid sub' hsub')
  have heq : sub.geometry.smaller sub'.geometry = geometry := by
    have hle := h.cols_le sub hsub
    have hle' := h.rows_le sub' hsub'
    simp only [Geometry.smaller, hrows, hcols, Nat.min_eq_left hle', Nat.min_eq_right hle]
  rwa [heq] at hsmaller

/-! ### The trail -/

/-- The clients that were evicted and have not run their `unsubscribe` since. -/
def pendingDetach : List Record → List ℕ
  | [] => []
  | .evicted id :: trail => id :: pendingDetach trail
  | .applied (.detach id) :: trail => (pendingDetach trail).filter (· ≠ id)
  | .failed (.detach id) :: trail => (pendingDetach trail).filter (· ≠ id)
  | _ :: trail => pendingDetach trail

/-- A size that is not that of the subscribers was the last to be applied, or could not be replaced: after
the last clamp that was applied there was a request without a subscriber, or the clamp of a detach or
of a subscriber's own request failed. -/
def overridden : List Record → Bool
  | [] => false
  | .applied .forced :: _ => true
  | .applied _ :: _ => false
  | .failed (.detach _) :: _ => true
  | .failed (.resize _) :: _ => true
  | _ :: trail => overridden trail

/-- The size that was last given to the pseudo terminal. -/
def lastSized (initial : Geometry) : List Record → Geometry
  | [] => initial
  | .sized _ geometry :: _ => geometry
  | _ :: trail => lastSized initial trail

/-- The size of a session. -/
def Core.size (core : Core Parser Screen) : Geometry := ⟨core.rows, core.cols⟩

/-- The size is that of the subscribers, unless one of them is gone and has not run its `unsubscribe`
or something else was applied. -/
def Core.Clean (core : Core Parser Screen) : Prop :=
  core.subscribers = [] ∨ IsSmallest core.subscribers core.size ∨ pendingDetach core.trail ≠ [] ∨
    overridden core.trail = true

/-- What is assumed of the emulator: a new one has the size of the session, output does not change the
size, and a size that is set is the size. -/
structure Emulator.KeepsSize (emulator : Emulator Parser Screen) (initial : Geometry) : Prop where
  fresh : emulator.size emulator.vt.fresh = (initial.rows, initial.cols)
  process : ∀ parser byte, emulator.size (emulator.vt.process parser byte) = emulator.size parser
  setSize : ∀ parser rows cols, emulator.size (emulator.setSize parser rows cols) = (rows, cols)

/-- The session, the pseudo terminal and the parser have the same size. -/
structure Core.Agree (emulator : Emulator Parser Screen) (initial : Geometry)
    (core : Core Parser Screen) : Prop where
  master : core.master = core.size
  parser : emulator.KeepsSize initial → core.terminalParserDegraded = false →
    emulator.size core.terminal.terminalScreen = (core.rows, core.cols)
  valid : initial.Valid → core.size.Valid
  sized : lastSized initial core.trail = core.size

/-! ### The invariant -/

/-- What the ring and the terminal hold. -/
structure Core.Screens (emulator : Emulator Parser Screen) (core : Core Parser Screen) : Prop where
  ring : core.ring = retained (outputs core.history).flatten
  terminal : core.terminalParserDegraded = false →
    core.terminal = terminalAfter emulator core.history

/-- The snapshot that a subscriber gets: none if there was no output yet or the parser is degraded, or
else the screen after the history before the cut. -/
def Cut.snapshotAfter (emulator : Emulator Parser Screen) (cut : Cut) : Option OutputChunk :=
  if (outputs cut.history).flatten = [] ∨ cut.degraded = true then none
  else
    screenStateSnapshot emulator.vt emulator.format (terminalAfter emulator cut.history)
      cut.formatted.rows cut.formatted.cols

/-- Who is subscribed, who is gone, and whose hook was called. -/
structure Membership (s : Session Parser Screen) : Prop where
  ids : (s.subscribers.map Subscriber.id).Nodup
  count : s.subscribers.length ≤ maxSubscribersPerSession
  valid : ∀ sub ∈ s.subscribers, sub.geometry.Valid
  fresh : ∀ id cut, s.cuts id = some cut → id < s.nextSubscriberId
  joined : ∀ sub ∈ s.subscribers, ∃ cut, s.cuts sub.id = some cut
  gone : ∀ id cut, s.cuts id = some cut → id ∈ s.subscribers.map Subscriber.id ∨
    id ∈ s.evictions.map Prod.snd ∨ .removed id ∈ s.trail
  evicted : ∀ id ∈ s.evictions.map Prod.snd, (∃ cut, s.cuts id = some cut) ∧
    id ∉ s.subscribers.map Subscriber.id
  evictedOnce : (s.evictions.map Prod.snd).Nodup
  hooked : ∀ call ∈ s.hooks, call ∈ s.evictions
  hookedOnce : s.hooks.Nodup

/-- What the channels hold. -/
structure Delivery (emulator : Emulator Parser Screen) (s : Session Parser Screen) : Prop where
  history : ∀ id cut, s.cuts id = some cut → cut.history <+: s.history
  snapshot : ∀ id cut, s.cuts id = some cut → cut.snapshot = cut.snapshotAfter emulator
  sent : ∀ id cut, s.cuts id = some cut → (s.channels id).sent <+: cut.chunks s.history
  delivered : ∀ sub ∈ s.subscribers, sub.id ∉ s.owing → ∀ cut, s.cuts sub.id = some cut →
    (s.channels sub.id).sent = cut.chunks s.history
  owing : ∀ id ∈ s.owing, ∃ cut chunk, s.cuts id = some cut ∧
    (outputs s.history).getLast? = some chunk ∧
    cut.chunks s.history = (s.channels id).sent ++ [chunk]
  owingOnce : s.owing.Nodup
  idle : s.locks .broadcastOrder = none → s.owing = []

/-- What the sizes are. -/
structure Sizes (emulator : Emulator Parser Screen) (initial : Geometry)
    (s : Session Parser Screen) : Prop where
  agree : s.locks .outputState = none → s.Agree emulator initial
  clean : s.locks .geometryApply = none → s.Clean
  applied : ∀ source trail, s.trail = .applied source :: trail → source ≠ .forced →
    s.subscribers ≠ [] → s.Agree emulator initial ∧ IsSmallest s.subscribers s.size
  formatted : ∀ id trail, s.trail = .applied (.attach id) :: trail → ∀ cut,
    s.cuts id = some cut → cut.formatted = s.size

/-- The invariant of a session. -/
structure Inv (emulator : Emulator Parser Screen) (initial : Geometry)
    (s : Session Parser Screen) : Prop where
  screens : s.Screens emulator
  membership : Membership s
  delivery : Delivery emulator s
  sizes : Sizes emulator initial s

/-! ### What a thread may do -/

/-- What thread `thread` may do to a session. -/
structure Change (initial : Geometry) (thread : ℕ) (s s' : Session Parser Screen) : Prop where
  locks : ∀ lock, s'.locks lock = s.locks lock ∨
    s.locks lock = none ∧ s'.locks lock = some thread ∨
    s.locks lock = some thread ∧ s'.locks lock = none
  core : s.locks .geometryApply ≠ some thread → s.locks .outputState ≠ some thread →
    s'.toCore = s.toCore
  output : s.locks .outputState ≠ some thread → ∃ subscribers trail,
    s'.toCore = { s.toCore with subscribers := subscribers, trail := trail } ∧
    subscribers.map Subscriber.id = s.subscribers.map Subscriber.id ∧
    lastSized initial trail = lastSized initial s.trail
  clean : s.locks .geometryApply ≠ some thread → s.Clean → s'.Clean
  owing : s.locks .broadcastOrder ≠ some thread →
    s'.owing = s.owing ∧ outputs s'.history = outputs s.history
  evictions : ∀ other, other ≠ thread → ∀ id,
    (other, id) ∈ s'.evictions ↔ (other, id) ∈ s.evictions
  hooks : ∀ other, other ≠ thread → ∀ id, (other, id) ∈ s'.hooks ↔ (other, id) ∈ s.hooks
  sized : ∀ other, other ≠ thread → ∀ geometry, .sized other geometry ∈ s'.trail →
    .sized other geometry ∈ s.trail
  cuts : ∀ id cut, s'.cuts id = some cut → cut.thread ≠ thread → s.cuts id = some cut
  joins : ∀ id ∈ s'.subscribers.map Subscriber.id, id ∈ s.subscribers.map Subscriber.id ∨
    ∃ cut, s'.cuts id = some cut ∧ cut.thread = thread

/-- What the other threads may do. -/
def Rely (initial : Geometry) (thread : ℕ) : Session Parser Screen → Session Parser Screen → Prop :=
  Relation.ReflTransGen fun s s' => ∃ other, other ≠ thread ∧ Change initial other s s'

/-- The discipline of the threads of a session. -/
def discipline (emulator : Emulator Parser Screen) (initial : Geometry) :
    Discipline (Session Parser Screen) where
  Inv := Inv emulator initial
  Rely := Rely initial
  refl _ _ := .refl
  trans _ _ _ _ h h' := h.trans h'

variable {emulator : Emulator Parser Screen} {initial : Geometry} {thread : ℕ}
  {s s' : Session Parser Screen}

/-- What no change by another thread makes false. -/
theorem stable_of_change {P : Session Parser Screen → Prop}
    (h : ∀ other s s', other ≠ thread → Change initial other s s' → P s → P s') :
    Stable (discipline emulator initial) thread P := by
  intro s s' hs hrely
  induction hrely with
  | refl => exact hs
  | tail _ hchange ih =>
    obtain ⟨other, hother, hchange⟩ := hchange
    exact h other _ _ hother hchange ih

/-- An action: what it does to the invariant, what the others see of it, and what holds then. -/
theorem triple_action {α : Type} {P : Session Parser Screen → Prop}
    {Q : α → Session Parser Screen → Prop}
    {f : Input → Session Parser Screen → α × Session Parser Screen}
    (hp : Stable (discipline emulator initial) thread P)
    (hq : ∀ a, Stable (discipline emulator initial) thread (Q a))
    (h : ∀ s input, Inv emulator initial s → P s → Inv emulator initial (f input s).2 ∧
      Change initial thread s (f input s).2 ∧ Q (f input s).1 (f input s).2) :
    Triple (discipline emulator initial) thread P (.atomically f) Q := by
  refine triple_atomically hp hq fun s input hinv hs => ?_
  obtain ⟨hnext, hchange, hpost⟩ := h s input hinv hs
  exact ⟨hnext, fun other hother => .single ⟨thread, hother.symm, hchange⟩, hpost⟩

/-! ### What a thread knows -/

/-- The thread holds a lock. -/
def Holds (lock : Lock) (thread : ℕ) (s : Session Parser Screen) : Prop :=
  s.locks lock = some thread

theorem Change.holds {other : ℕ} (h : Change initial other s s') (hother : other ≠ thread)
    {lock : Lock} (hs : Holds lock thread s) : Holds lock thread s' := by
  unfold Holds at hs ⊢
  rcases h.locks lock with heq | ⟨hnone, -⟩ | ⟨hsome, -⟩
  · exact heq.trans hs
  · rw [hs] at hnone
    cases hnone
  · rw [hs, Option.some.injEq] at hsome
    exact absurd hsome.symm hother

theorem Holds.ne {lock : Lock} (h : Holds lock thread s) {other : ℕ} (hother : other ≠ thread) :
    s.locks lock ≠ some other := by
  rw [h]
  exact fun heq => hother (Option.some.inj heq).symm

/-- Under both guards a thread knows all that they protect. -/
structure Knows (thread : ℕ) (core : Core Parser Screen) (s : Session Parser Screen) : Prop where
  geometry : Holds .geometryApply thread s
  output : Holds .outputState thread s
  core : s.toCore = core

theorem stable_knows (core : Core Parser Screen) :
    Stable (discipline emulator initial) thread (Knows thread core) :=
  stable_of_change fun _ _ _ hother hchange hs =>
    ⟨hchange.holds hother hs.geometry, hchange.holds hother hs.output,
      (hchange.core (hs.geometry.ne hother) (hs.output.ne hother)).trans hs.core⟩

/-- The thread has done nothing that others see. -/
structure Fresh (thread : ℕ) (core : Core Parser Screen) : Prop where
  cuts : ∀ id cut, core.cuts id = some cut → cut.thread ≠ thread
  sized : ∀ geometry, .sized thread geometry ∉ core.trail

/-- A thread that is not there yet. -/
structure Idle (thread : ℕ) (s : Session Parser Screen) : Prop where
  fresh : Fresh thread s.toCore
  evictions : ∀ id, (thread, id) ∉ s.evictions
  hooks : ∀ id, (thread, id) ∉ s.hooks

theorem Change.fresh {other : ℕ} (h : Change initial other s s') (hother : other ≠ thread)
    (hs : Fresh thread s.toCore) : Fresh thread s'.toCore := by
  refine ⟨fun id cut hcut => ?_, fun geometry hmem => ?_⟩
  · by_cases hthread : cut.thread = other
    · rw [hthread]
      exact hother
    · exact hs.cuts id cut (h.cuts id cut hcut hthread)
  · exact hs.sized geometry (h.sized thread hother.symm geometry hmem)

theorem stable_idle : Stable (discipline emulator initial) thread (Idle thread) :=
  stable_of_change fun _ _ _ hother hchange hs =>
    ⟨hchange.fresh hother hs.fresh,
      fun id hmem => hs.evictions id ((hchange.evictions thread hother.symm id).mp hmem),
      fun id hmem => hs.hooks id ((hchange.hooks thread hother.symm id).mp hmem)⟩

end LightTerminal.Server.Attach
