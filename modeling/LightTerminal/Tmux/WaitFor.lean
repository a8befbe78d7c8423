import Mathlib.Data.List.Sort
import LightTerminal.Library.Run
import LightTerminal.Tmux.Store

/-! # `wait-for`: signals and waiters

A channel is a counter in the store. `wait-for -S` adds one to it; a waiter notes the counter and
polls until `wait_generation_has_advanced`. Counters that were not touched for a week are dropped,
and so are the oldest ones of more than `WAIT_GENERATION_MAX_CHANNELS`; a counter that was dropped
starts again from one.

* a waiter that was not signalled finds its counter where it was, or gone (`Waiter.Still`), and so is
  never told that it has advanced;
* as long as nobody drops the counter of a channel that a waiter waits for (`Keeps`), a signalled
  waiter finds it above the noted value (`Waiter.Sure`);
* a dropped counter that climbs back to the noted value hides the signal (`signal_hidden`). -/

namespace LightTerminal.Tmux.WaitFor

open LightTerminal.Data.Text LightTerminal.Library LightTerminal.Library.FiniteMap
open LightTerminal.Library.Run LightTerminal.Tmux.Store

/-! ## The source -/

/-- `WAIT_GENERATION_RETENTION_SECS`. -/
def WAIT_GENERATION_RETENTION_SECS : ℕ := 7 * 24 * 60 * 60

/-- `WAIT_GENERATION_MAX_CHANNELS`. -/
def WAIT_GENERATION_MAX_CHANNELS : ℕ := 4096

/-- `WAIT_GENERATION_MAX_CHANNEL_BYTES`. -/
def WAIT_GENERATION_MAX_CHANNEL_BYTES : ℕ := 1024

/-- `u64::MAX`. -/
def U64_MAX : ℕ := 2 ^ 64 - 1

/-- `validate_wait_channel`. -/
def validateWaitChannel (channel : Str) : Except Str Unit :=
  if channel = [] then .error "tmux wait-for channel cannot be empty".toList
  else if byteLen channel > WAIT_GENERATION_MAX_CHANNEL_BYTES then
    .error ("tmux wait-for channel exceeds ".toList ++ decimal WAIT_GENERATION_MAX_CHANNEL_BYTES ++
      " bytes".toList)
  else if channel.any isControl then
    .error "tmux wait-for channel contains a control character".toList
  else .ok ()

/-- `wait_generation_has_advanced`. -/
def waitGenerationHasAdvanced (observed current : ℕ) : Bool :=
  decide (observed < current) ||
    (decide (0 < observed) && decide (0 < current) && decide (current < observed))

/-- `touch_wait_generation`. -/
def touchWaitGeneration (now : ℕ) (channel : Str) (store : CompatStore) : CompatStore :=
  { store with waitGenerationTouchedSecs := store.waitGenerationTouchedSecs.insert channel now }

/-- `touch_existing_wait_generation`. -/
def touchExistingWaitGeneration (now : ℕ) (channel : Str) (store : CompatStore) : CompatStore :=
  if channel ∈ store.waitGenerations then touchWaitGeneration now channel store else store

/-- The stamp that `prune_wait_generations` gives to counters without one. -/
def stampMissing (now : ℕ) (store : CompatStore) : CompatStore :=
  { store with
    waitGenerationTouchedSecs :=
      store.waitGenerationTouchedSecs ∪ mapValues (fun _ => now) store.waitGenerations }

/-- A stamp before the cutoff, of a channel that is not protected. -/
def isStale (cutoff : ℕ) (guarded : Option Str) (channel : Str) (touched : ℕ) : Bool :=
  decide (guarded ≠ some channel) && decide (touched < cutoff)

/-- The removal of the stale channels from both maps. -/
def dropStale (cutoff : ℕ) (guarded : Option Str) (store : CompatStore) : CompatStore :=
  { store with
    waitGenerationTouchedSecs :=
      retain (fun channel touched => !isStale cutoff guarded channel touched)
        store.waitGenerationTouchedSecs
    waitGenerations :=
      retain (fun channel _ =>
        !(store.waitGenerationTouchedSecs.lookup channel).any (isStale cutoff guarded channel))
        store.waitGenerations }

/-- The removal of the stamps without a counter. -/
def dropOrphaned (store : CompatStore) : CompatStore :=
  { store with
    waitGenerationTouchedSecs :=
      retain (fun channel _ => decide (channel ∈ store.waitGenerations))
        store.waitGenerationTouchedSecs }

/-- The channels that may be dropped with their stamps, in the order in which the map yields them. -/
def droppable (now : ℕ) (order : List Str) (guarded : Option Str) (store : CompatStore) :
    List (Str × ℕ) :=
  (order.filter fun channel =>
    decide (channel ∈ store.waitGenerations) && decide (guarded ≠ some channel)).map
      fun channel => (channel, (store.waitGenerationTouchedSecs.lookup channel).getD now)

/-- The removal of the channels above the limit, the longest untouched first. -/
def dropOverflow (now : ℕ) (order : List Str) (guarded : Option Str) (store : CompatStore) :
    CompatStore :=
  let channels := (droppable now order guarded store).insertionSort fun a b => a.2 ≤ b.2
  let overflow := size store.waitGenerations - WAIT_GENERATION_MAX_CHANNELS
  (channels.take overflow).foldl (fun store entry =>
    { store with
      waitGenerationTouchedSecs := store.waitGenerationTouchedSecs.erase entry.1
      waitGenerations := store.waitGenerations.erase entry.1 }) store

/-- `prune_wait_generations`. `order` lists the channels as the map yields them. -/
def pruneWaitGenerations (now : ℕ) (order : List Str) (guarded : Option Str)
    (store : CompatStore) : CompatStore :=
  let cutoff := now - WAIT_GENERATION_RETENTION_SECS
  let store := dropOrphaned (dropStale cutoff guarded (stampMissing now store))
  if size store.waitGenerations ≤ WAIT_GENERATION_MAX_CHANNELS then store
  else dropOverflow now order guarded store

/-- What one update reads from its surroundings: the clock when it prunes and when it touches, and
the order in which the map of counters yields them. -/
structure Moment where
  pruneSecs : ℕ
  touchSecs : ℕ
  order : List Str
deriving DecidableEq

/-- The counter of a channel, zero if there is none. -/
def generation (store : CompatStore) (channel : Str) : ℕ :=
  (store.waitGenerations.lookup channel).getD 0

/-- The change of `wait-for -S`. -/
def signal (moment : Moment) (channel : Str) (store : CompatStore) : CompatStore :=
  let store := pruneWaitGenerations moment.pruneSecs moment.order none store
  touchWaitGeneration moment.touchSecs channel
    { store with
      waitGenerations :=
        store.waitGenerations.insert channel (min (generation store channel + 1) U64_MAX) }

/-- The change that a waiter makes when it starts and whenever it is time to touch its channel. -/
def refresh (moment : Moment) (channel : Str) (store : CompatStore) : CompatStore :=
  touchExistingWaitGeneration moment.touchSecs channel
    (pruneWaitGenerations moment.pruneSecs moment.order (some channel) store)

/-- `wait_for` with `-S`. -/
def waitForSignal (io : Io) (moment : Moment) (channel : Str) (file : StoreFile) :
    StoreFile × Except Str Unit :=
  match validateWaitChannel channel with
  | .error err => (file, .error err)
  | .ok () => updateStore io (fun store => .ok (signal moment channel store, ())) file

/-- The update of a waiter, with the counter that it finds. -/
def waitForTouch (io : Io) (moment : Moment) (channel : Str) (file : StoreFile) :
    StoreFile × Except Str ℕ :=
  updateStore io (fun store =>
    let store := refresh moment channel store
    .ok (store, generation store channel)) file

/-- The beginning of `wait_for` without `-S`: the observed generation. -/
def waitForObserve (io : Io) (moment : Moment) (channel : Str) (file : StoreFile) :
    StoreFile × Except Str ℕ :=
  match validateWaitChannel channel with
  | .error err => (file, .error err)
  | .ok () => waitForTouch io moment channel file

/-- The read of a waiter between two touches. -/
def waitForRead (io : Io) (channel : Str) (file : StoreFile) : StoreFile × Except Str ℕ :=
  readStore io (fun store => .ok (generation store channel)) file

/-! ## The system -/

/-- A waiter: what it observed, whether its channel was signalled since, and whether it has
returned. -/
structure Waiter where
  channel : Str
  observed : ℕ
  signalled : Bool
  returned : Bool
deriving DecidableEq

/-- A poll that reached the store: whether the channel was signalled since the observation, and what
the waiter was told. -/
structure Poll where
  signalled : Bool
  advanced : Bool
deriving DecidableEq

structure System where
  file : StoreFile
  waiters : List Waiter
  polls : List Poll
deriving DecidableEq

/-- `other` is any command that leaves the counters alone. -/
inductive Action
  | signal (channel : Str) (io : Io) (moment : Moment)
  | observe (channel : Str) (io : Io) (moment : Moment)
  | touch (waiter : ℕ) (io : Io) (moment : Moment)
  | read (waiter : ℕ) (io : Io)
  | leave (waiter : ℕ)
  | other (io : Io) (rest : CompatStore)

/-- No waiter has come yet. -/
def System.start (file : StoreFile) : System := ⟨file, [], []⟩

/-- The waiters of a channel hear of its signal. -/
def Waiter.hear (channel : Str) (waiter : Waiter) : Waiter :=
  if waiter.channel = channel then { waiter with signalled := true } else waiter

/-- A poll of a waiter: it returns when it is told that the counter advanced, or fails. -/
def System.poll (s : System) (i : ℕ) (waiter : Waiter) : StoreFile × Except Str ℕ → System
  | (file, .error _) => { s with file, waiters := s.waiters.set i { waiter with returned := true } }
  | (file, .ok current) =>
    let advanced := waitGenerationHasAdvanced waiter.observed current
    { file
      waiters := s.waiters.set i { waiter with returned := advanced }
      polls := s.polls ++ [⟨waiter.signalled, advanced⟩] }

/-- The waiter with a number, unless it has returned. -/
def System.waiting (s : System) (i : ℕ) : Option Waiter :=
  s.waiters[i]?.filter fun waiter => !waiter.returned

/-- One step. -/
def step (s : System) : Action → System
  | .signal channel io moment =>
    match waitForSignal io moment channel s.file with
    | (file, .error _) => { s with file }
    | (file, .ok ()) => { s with file, waiters := s.waiters.map (Waiter.hear channel) }
  | .observe channel io moment =>
    match waitForObserve io moment channel s.file with
    | (file, .error _) => { s with file }
    | (file, .ok observed) =>
      { s with file, waiters := s.waiters ++ [⟨channel, observed, false, false⟩] }
  | .touch i io moment =>
    match s.waiting i with
    | none => s
    | some waiter => s.poll i waiter (waitForTouch io moment waiter.channel s.file)
  | .read i io =>
    match s.waiting i with
    | none => s
    | some waiter => s.poll i waiter (waitForRead io waiter.channel s.file)
  | .leave i =>
    match s.waiting i with
    | none => s
    | some waiter => { s with waiters := s.waiters.set i { waiter with returned := true } }
  | .other io rest =>
    { s with
      file := (updateStore io (fun store =>
        .ok ({ rest with
          waitGenerations := store.waitGenerations
          waitGenerationTouchedSecs := store.waitGenerationTouchedSecs }, ())) s.file).1 }

/-! ## What pruning does to a counter -/

variable {now : ℕ} {order : List Str} {guarded : Option Str} {store : CompatStore} {channel : Str}

theorem lookup_dropped (entries : List (Str × ℕ)) (store : CompatStore) (channel : Str) :
    (entries.foldl (fun store entry =>
      { store with
        waitGenerationTouchedSecs := store.waitGenerationTouchedSecs.erase entry.1
        waitGenerations := store.waitGenerations.erase entry.1 }) store).waitGenerations.lookup
          channel =
      if channel ∈ entries.map Prod.fst then none else store.waitGenerations.lookup channel := by
  induction entries generalizing store with
  | nil => simp
  | cons entry rest ih =>
    rw [List.foldl_cons, ih, lookup_erase, List.map_cons]
    by_cases h : channel = entry.1
    · simp [h]
    · simp only [List.mem_cons, h, if_false, false_or]

/-- A pruned counter keeps its value or is gone. -/
theorem prune_lookup (channel : Str) :
    (pruneWaitGenerations now order guarded store).waitGenerations.lookup channel =
        store.waitGenerations.lookup channel ∨
      (pruneWaitGenerations now order guarded store).waitGenerations.lookup channel = none := by
  have hstale : ∀ cutoff, (dropOrphaned (dropStale cutoff guarded
      (stampMissing now store))).waitGenerations.lookup channel =
        store.waitGenerations.lookup channel ∨ (dropOrphaned (dropStale cutoff guarded
      (stampMissing now store))).waitGenerations.lookup channel = none := by
    intro cutoff
    cases h : (dropOrphaned (dropStale cutoff guarded
      (stampMissing now store))).waitGenerations.lookup channel with
    | none => exact .inr rfl
    | some v => exact .inl (lookup_retain.mp h).1.symm
  unfold pruneWaitGenerations
  simp only
  split_ifs
  · exact hstale _
  · rw [dropOverflow, lookup_dropped]
    split_ifs
    · exact .inr rfl
    · exact hstale _

/-! ## What an update does to the counters -/

theorem touchExisting_generations (now : ℕ) (channel : Str) (store : CompatStore) :
    (touchExistingWaitGeneration now channel store).waitGenerations = store.waitGenerations := by
  unfold touchExistingWaitGeneration
  split_ifs <;> rfl

theorem refresh_generations (moment : Moment) (channel : Str) (store : CompatStore) :
    (refresh moment channel store).waitGenerations =
      (pruneWaitGenerations moment.pruneSecs moment.order (some channel) store).waitGenerations :=
  touchExisting_generations _ _ _

theorem lookup_signal_of_ne {moment : Moment} {c : Str} (h : c ≠ channel) :
    (signal moment channel store).waitGenerations.lookup c =
      (pruneWaitGenerations moment.pruneSecs moment.order none store).waitGenerations.lookup c := by
  show (Finmap.insert _ _ _).lookup c = _
  rw [lookup_insert, if_neg h]

theorem generation_signal (moment : Moment) (channel : Str) (store : CompatStore) :
    generation (signal moment channel store) channel =
      min (generation (pruneWaitGenerations moment.pruneSecs moment.order none store) channel + 1)
        U64_MAX := by
  show ((Finmap.insert _ _ _).lookup channel).getD 0 = _
  rw [lookup_insert, if_pos rfl, Option.getD_some]

/-- The counters that the update of an action starts from, after its pruning; an action without an
update prunes nothing. -/
def pruned (s : System) : Action → CompatStore
  | .signal _ _ moment =>
    pruneWaitGenerations moment.pruneSecs moment.order none s.file.store
  | .observe channel _ moment =>
    pruneWaitGenerations moment.pruneSecs moment.order (some channel) s.file.store
  | .touch i _ moment =>
    match s.waiting i with
    | none => s.file.store
    | some waiter =>
      pruneWaitGenerations moment.pruneSecs moment.order (some waiter.channel) s.file.store
  | _ => s.file.store

/-! ## What a step can do -/

/-- The counters after a step that signals nothing: as they were, or as the pruning left them. -/
def Thinned (s : System) (a : Action) (file : StoreFile) : Prop :=
  file.store.waitGenerations = s.file.store.waitGenerations ∨
    file.store.waitGenerations = (pruned s a).waitGenerations

/-- The outcomes of a step. -/
inductive Turn (s : System) (a : Action) : System → Prop
  | quiet {file : StoreFile} {waiters : List Waiter} (hfile : Thinned s a file)
      (hwaiters : ∀ w ∈ waiters, w ∈ s.waiters ∨ ∃ w' ∈ s.waiters, w = { w' with returned := true }) :
      Turn s a ⟨file, waiters, s.polls⟩
  | observed {file : StoreFile} {channel : Str} (hfile : Thinned s a file) :
      Turn s a { s with
        file
        waiters := s.waiters ++ [⟨channel, generation file.store channel, false, false⟩] }
  | polled {file : StoreFile} {i : ℕ} {waiter : Waiter} (hfile : Thinned s a file)
      (hwaiter : s.waiting i = some waiter) :
      Turn s a (s.poll i waiter (file, .ok (generation file.store waiter.channel)))
  | signalled {file : StoreFile} {channel : Str} {io : Io} {moment : Moment}
      (ha : a = .signal channel io moment)
      (hfile : file.store = signal moment channel s.file.store) :
      Turn s a { s with file, waiters := s.waiters.map (Waiter.hear channel) }

theorem waiting_mem {s : System} {i : ℕ} {waiter : Waiter} (h : s.waiting i = some waiter) :
    waiter ∈ s.waiters ∧ waiter.returned = false := by
  obtain ⟨hget, hlive⟩ := Option.filter_eq_some_iff.mp h
  exact ⟨List.mem_of_getElem? hget, by simpa using hlive⟩

/-- A waiter's update fails, or returns the counter that it leaves. -/
theorem waitForTouch_cases (io : Io) (moment : Moment) (channel : Str) (file : StoreFile) :
    ((∃ err, (waitForTouch io moment channel file).2 = .error err) ∧
        (waitForTouch io moment channel file).1.store = file.store) ∨
      ∃ file', waitForTouch io moment channel file = (file', .ok (generation file'.store channel)) ∧
        file'.store = refresh moment channel file.store := by
  rcases @updateStore_ok _ io file (fun store =>
    (refresh moment channel store, generation (refresh moment channel store) channel))
    with h | ⟨hok, hstore⟩
  · exact .inl h
  · refine .inr ⟨(waitForTouch io moment channel file).1, Prod.ext rfl ?_, hstore⟩
    exact hok.trans (congrArg (fun store => Except.ok (generation store channel)) hstore.symm)

/-- A waiter that returns is a waiter that has returned. -/
theorem returned_of_set {s : System} {i : ℕ} {waiter w : Waiter} (h : s.waiting i = some waiter)
    (hw : w ∈ s.waiters.set i { waiter with returned := true }) :
    w ∈ s.waiters ∨ ∃ w' ∈ s.waiters, w = { w' with returned := true } := by
  rcases List.mem_or_eq_of_mem_set hw with hw | rfl
  · exact .inl hw
  · exact .inr ⟨waiter, (waiting_mem h).1, rfl⟩

theorem turn_failed {s : System} {a : Action} {file : StoreFile}
    (h : file.store = s.file.store) : Turn s a { s with file } :=
  .quiet (.inl (by rw [h])) fun _ hw => .inl hw

/-- Every step is one of these turns. -/
theorem step_turn (s : System) (a : Action) : Turn s a (step s a) := by
  cases a with
  | signal channel io moment =>
    simp only [step, waitForSignal]
    split
    · rename_i heq
      split at heq
      · cases heq
        exact turn_failed rfl
      · rcases @updateStore_ok _ io s.file (fun store => (signal moment channel store, ()))
          with ⟨-, hstore⟩ | ⟨hok, -⟩
        · rw [heq] at hstore
          exact turn_failed hstore
        · rw [heq] at hok
          cases hok
    · rename_i heq
      split at heq
      · cases heq
      · rcases @updateStore_ok _ io s.file (fun store => (signal moment channel store, ()))
          with ⟨⟨_, herr⟩, -⟩ | ⟨-, hstore⟩
        · rw [heq] at herr
          cases herr
        · rw [heq] at hstore
          exact .signalled rfl hstore
  | observe channel io moment =>
    simp only [step, waitForObserve]
    cases validateWaitChannel channel with
    | error err => exact turn_failed rfl
    | ok _ =>
      rcases waitForTouch_cases io moment channel s.file with ⟨⟨err, herr⟩, hstore⟩ | ⟨file, heq, hstore⟩
      · generalize waitForTouch io moment channel s.file = result at herr hstore ⊢
        obtain ⟨file, _⟩ := result
        cases herr
        exact turn_failed hstore
      · rw [heq]
        refine .observed (.inr ?_)
        rw [hstore, refresh_generations]
        rfl
  | touch i io moment =>
    simp only [step]
    cases hw : s.waiting i with
    | none => exact turn_failed rfl
    | some waiter =>
      show Turn s _ (s.poll i waiter (waitForTouch io moment waiter.channel s.file))
      rcases waitForTouch_cases io moment waiter.channel s.file with
        ⟨⟨err, herr⟩, hstore⟩ | ⟨file, heq, hstore⟩
      · generalize waitForTouch io moment waiter.channel s.file = result at herr hstore ⊢
        obtain ⟨file, _⟩ := result
        cases herr
        exact .quiet (.inl (by rw [hstore])) fun _ => returned_of_set hw
      · rw [heq]
        refine .polled (.inr ?_) hw
        rw [hstore, refresh_generations, pruned, hw]
  | read i io =>
    simp only [step]
    cases hw : s.waiting i with
    | none => exact turn_failed rfl
    | some waiter =>
      obtain ⟨hstore, hvalue⟩ := @readStore_store _ io s.file
        (fun store => .ok (generation store waiter.channel))
      simp only [waitForRead]
      generalize readStore io _ s.file = result at hstore hvalue ⊢
      obtain ⟨file, err | current⟩ := result
      · exact .quiet (.inl (by rw [hstore])) fun _ => returned_of_set hw
      · have hcurrent : current = generation file.store waiter.channel := by
          have := Except.ok.inj (hvalue current rfl)
          rw [hstore, this]
        rw [hcurrent]
        exact .polled (.inl (by rw [hstore])) hw
  | leave i =>
    simp only [step]
    cases hw : s.waiting i with
    | none => exact turn_failed rfl
    | some waiter => exact .quiet (.inl rfl) fun _ => returned_of_set hw
  | other io rest =>
    refine .quiet (.inl ?_) fun _ hw => .inl hw
    rcases @updateStore_ok _ io s.file (fun store =>
      ({ rest with
        waitGenerations := store.waitGenerations
        waitGenerationTouchedSecs := store.waitGenerationTouchedSecs }, ()))
      with ⟨-, hstore⟩ | ⟨-, hstore⟩
    · rw [hstore]
    · rw [hstore]

/-! ## A waiter that was not signalled -/

/-- The counter of a waiter that was not signalled is where it was, or gone. -/
def Waiter.Still (store : CompatStore) (waiter : Waiter) : Prop :=
  waiter.signalled = false →
    store.waitGenerations.lookup waiter.channel = some waiter.observed ∨
      store.waitGenerations.lookup waiter.channel = none

theorem pruned_lookup (s : System) (a : Action) (channel : Str) :
    (pruned s a).waitGenerations.lookup channel = s.file.store.waitGenerations.lookup channel ∨
      (pruned s a).waitGenerations.lookup channel = none := by
  unfold pruned
  split
  · exact prune_lookup channel
  · exact prune_lookup channel
  · split
    · exact .inl rfl
    · exact prune_lookup channel
  · exact .inl rfl

theorem Thinned.lookup {s : System} {a : Action} {file : StoreFile} (h : Thinned s a file)
    (channel : Str) :
    file.store.waitGenerations.lookup channel = s.file.store.waitGenerations.lookup channel ∨
      file.store.waitGenerations.lookup channel = none := by
  rcases h with h | h
  · exact .inl (by rw [h])
  · rw [h]
    exact pruned_lookup s a channel

theorem Waiter.Still.thin {s : System} {a : Action} {file : StoreFile} {waiter : Waiter}
    (h : waiter.Still s.file.store) (hfile : Thinned s a file) : waiter.Still file.store := by
  intro hs
  rcases hfile.lookup waiter.channel with heq | heq
  · rw [heq]
    exact h hs
  · exact .inr heq

/-- A counter where it was, or gone, has not advanced. -/
theorem Waiter.Still.not_advanced {waiter : Waiter} (h : waiter.Still store)
    (hs : waiter.signalled = false) :
    waitGenerationHasAdvanced waiter.observed (generation store waiter.channel) = false := by
  unfold generation
  rcases h hs with heq | heq <;> simp [heq, waitGenerationHasAdvanced]

/-- Every unsignalled waiter finds its counter where it was, or gone, and nobody was told of a signal
that was not given. -/
structure Truthful (s : System) : Prop where
  still : ∀ w ∈ s.waiters, w.Still s.file.store
  polls : ∀ p ∈ s.polls, p.advanced = true → p.signalled = true

theorem still_observed (store : CompatStore) (channel : Str) (returned : Bool) :
    (Waiter.mk channel (generation store channel) false returned).Still store := by
  intro _
  show store.waitGenerations.lookup channel = some (generation store channel) ∨ _
  unfold generation
  cases h : store.waitGenerations.lookup channel with
  | none => exact .inr rfl
  | some v => exact .inl rfl

theorem step_truthful (s : System) (a : Action) (h : Truthful s) : Truthful (step s a) := by
  have hturn := step_turn s a
  generalize step s a = s' at hturn ⊢
  cases hturn with
  | quiet hfile hwaiters =>
    refine ⟨fun w hw => ?_, h.polls⟩
    rcases hwaiters w hw with hw | ⟨w', hw', rfl⟩
    · exact (h.still w hw).thin hfile
    · exact (h.still w' hw').thin hfile
  | observed hfile =>
    refine ⟨fun w hw => ?_, h.polls⟩
    rcases List.mem_append.mp hw with hw | hw
    · exact (h.still w hw).thin hfile
    · rw [List.mem_singleton.mp hw]
      exact still_observed _ _ _
  | polled hfile hwaiter =>
    have hstill := (h.still _ (waiting_mem hwaiter).1).thin hfile
    refine ⟨fun w hw => ?_, fun p hp hadv => ?_⟩
    · rcases List.mem_or_eq_of_mem_set hw with hw | rfl
      · exact (h.still w hw).thin hfile
      · exact hstill
    · rcases List.mem_append.mp hp with hp | hp
      · exact h.polls p hp hadv
      · rw [List.mem_singleton.mp hp] at hadv ⊢
        by_contra hs
        rw [hstill.not_advanced (by simpa using hs)] at hadv
        cases hadv
  | @signalled file channel io moment ha hfile =>
    refine ⟨fun w hw => ?_, h.polls⟩
    obtain ⟨w', hw', rfl⟩ := List.mem_map.mp hw
    unfold Waiter.hear
    split_ifs with hchannel
    · intro hs
      cases hs
    · intro hs
      have hlookup : file.store.waitGenerations.lookup w'.channel = _ :=
        hfile ▸ lookup_signal_of_ne hchannel
      rw [hlookup]
      rcases @prune_lookup moment.pruneSecs moment.order none s.file.store w'.channel with heq | heq
      · rw [heq]
        exact h.still w' hw' hs
      · exact .inr heq

/-! ## A waiter that was signalled -/

/-- The counter of a waiter that still polls is where it was until a signal, and above it after. -/
def Waiter.Sure (store : CompatStore) (waiter : Waiter) : Prop :=
  waiter.returned = false →
    (waiter.signalled = false → generation store waiter.channel = waiter.observed) ∧
      (waiter.signalled = true → waiter.observed < generation store waiter.channel)

/-- The step drops no counter of a channel that a waiter still waits for, and signals none that
stands at the largest number. -/
def Keeps (s : System) (a : Action) : Prop :=
  ∀ w ∈ s.waiters, w.returned = false →
    (w.channel ∈ s.file.store.waitGenerations → w.channel ∈ (pruned s a).waitGenerations) ∧
      match a with
      | .signal channel _ _ => channel = w.channel → generation s.file.store channel < U64_MAX
      | _ => True

instance Keeps.decidable (s : System) (a : Action) : Decidable (Keeps s a) := by
  unfold Keeps
  cases a <;> infer_instance

theorem pruned_generation {s : System} {a : Action} (h : Keeps s a) {waiter : Waiter}
    (hw : waiter ∈ s.waiters) (hlive : waiter.returned = false) :
    generation (pruned s a) waiter.channel = generation s.file.store waiter.channel := by
  unfold generation
  rcases pruned_lookup s a waiter.channel with heq | heq
  · rw [heq]
  · have hnone : s.file.store.waitGenerations.lookup waiter.channel = none := by
      rw [Finmap.lookup_eq_none] at heq ⊢
      exact fun hmem => heq ((h waiter hw hlive).1 hmem)
    rw [heq, hnone]

theorem Thinned.generation {s : System} {a : Action} {file : StoreFile} (hfile : Thinned s a file)
    (h : Keeps s a) {waiter : Waiter} (hw : waiter ∈ s.waiters) (hlive : waiter.returned = false) :
    generation file.store waiter.channel = generation s.file.store waiter.channel := by
  rcases hfile with hfile | hfile
  · unfold WaitFor.generation
    rw [hfile]
  · rw [← pruned_generation h hw hlive]
    unfold WaitFor.generation
    rw [hfile]

theorem Waiter.Sure.keep {s : System} {a : Action} {file : StoreFile} (hfile : Thinned s a file)
    (hkeep : Keeps s a) {waiter : Waiter} (hw : waiter ∈ s.waiters)
    (h : waiter.Sure s.file.store) : waiter.Sure file.store := by
  intro hlive
  rw [hfile.generation hkeep hw hlive]
  exact h hlive

/-- A signalled waiter that finds its counter above the noted value is told so. -/
theorem advanced_of_lt {observed current : ℕ} (h : observed < current) :
    waitGenerationHasAdvanced observed current = true := by
  simp [waitGenerationHasAdvanced, h]

/-- Every waiter that still polls is sure of its counter, and whoever polled after a signal was told. -/
structure Heard (s : System) : Prop where
  sure : ∀ w ∈ s.waiters, w.Sure s.file.store
  polls : ∀ p ∈ s.polls, p.signalled = true → p.advanced = true

theorem step_heard (s : System) (a : Action) (hkeep : Keeps s a) (h : Heard s) :
    Heard (step s a) := by
  have hturn := step_turn s a
  generalize step s a = s' at hturn ⊢
  cases hturn with
  | quiet hfile hwaiters =>
    refine ⟨fun w hw => ?_, h.polls⟩
    rcases hwaiters w hw with hw | ⟨w', -, rfl⟩
    · exact (h.sure w hw).keep hfile hkeep hw
    · intro hlive
      cases hlive
  | observed hfile =>
    refine ⟨fun w hw => ?_, h.polls⟩
    rcases List.mem_append.mp hw with hw | hw
    · exact (h.sure w hw).keep hfile hkeep hw
    · rw [List.mem_singleton.mp hw]
      exact fun _ => ⟨fun _ => rfl, nofun⟩
  | @polled file i waiter hfile hwaiter =>
    obtain ⟨hmem, hlive⟩ := waiting_mem hwaiter
    have hsure := (h.sure _ hmem).keep hfile hkeep hmem
    refine ⟨fun w hw => ?_, fun p hp hs => ?_⟩
    · rcases List.mem_or_eq_of_mem_set hw with hw | rfl
      · exact (h.sure w hw).keep hfile hkeep hw
      · exact fun _ => hsure hlive
    · rcases List.mem_append.mp hp with hp | hp
      · exact h.polls p hp hs
      · rw [List.mem_singleton.mp hp] at hs ⊢
        exact advanced_of_lt ((hsure hlive).2 hs)
  | @signalled file channel io moment ha hfile =>
    subst ha
    refine ⟨fun w hw => ?_, h.polls⟩
    obtain ⟨w', hw', rfl⟩ := List.mem_map.mp hw
    have hpruned : w'.returned = false →
        generation (pruneWaitGenerations moment.pruneSecs moment.order none s.file.store)
          w'.channel = generation s.file.store w'.channel := pruned_generation hkeep hw'
    unfold Waiter.hear
    split_ifs with hchannel
    · intro hlive
      refine ⟨nofun, fun _ => ?_⟩
      have hlt := (hkeep w' hw' hlive).2 hchannel.symm
      have hle : w'.observed ≤ generation s.file.store w'.channel := by
        cases hs : w'.signalled with
        | false => exact (((h.sure w' hw') hlive).1 hs).ge
        | true => exact (((h.sure w' hw') hlive).2 hs).le
      subst hchannel
      have hnew := generation_signal moment w'.channel s.file.store
      rw [hpruned hlive, ← hfile] at hnew
      show w'.observed < generation file.store w'.channel
      omega
    · intro hlive
      have hsame : generation file.store w'.channel = generation s.file.store w'.channel := by
        rw [← hpruned hlive, hfile]
        unfold generation
        rw [lookup_signal_of_ne hchannel]
      rw [hsame]
      exact h.sure w' hw' hlive

/-! ## Whole runs -/

theorem start_truthful (file : StoreFile) : Truthful (System.start file) :=
  ⟨nofun, nofun⟩

theorem start_heard (file : StoreFile) : Heard (System.start file) :=
  ⟨nofun, nofun⟩

/-- No run invents a signal, and a run that drops no counter somebody waits for loses none. -/
theorem wait_for_signals (file : StoreFile) (actions : List Action) :
    (∀ p ∈ (run step (System.start file) actions).polls, p.advanced = true → p.signalled = true) ∧
      (Along step Keeps (System.start file) actions →
        ∀ p ∈ (run step (System.start file) actions).polls,
          p.signalled = true → p.advanced = true) :=
  ⟨(run_invariant step_truthful actions _ (start_truthful file)).polls,
    fun h => (h.invariant step_heard (start_heard file)).polls⟩

/-- Two waiters of one channel and a signal between two touches meet the condition. -/
example :
    let moment (now : ℕ) : Moment := ⟨now, now, ["a".toList]⟩
    Along step Keeps (System.start .missing)
      [.observe "a".toList .fine (moment 0), .signal "a".toList .fine (moment 1),
        .observe "a".toList .fine (moment 2), .touch 0 .fine (moment 30),
        .signal "a".toList .fine (moment 40), .read 1 .fine] := by
  decide

/-- A signal of another channel a week after the last touch drops the counter of `a`, the next signal
of `a` brings it back to one, and the waiter that noted one is not told. -/
theorem signal_hidden :
    let moment (now : ℕ) : Moment := ⟨now, now, ["a".toList, "b".toList]⟩
    let late := WAIT_GENERATION_RETENTION_SECS + 1
    ⟨true, false⟩ ∈ (run step (System.start .missing)
      [.signal "a".toList .fine (moment 0), .observe "a".toList .fine (moment 0),
        .signal "b".toList .fine (moment late), .signal "a".toList .fine (moment late),
        .read 0 .fine]).polls := by
  decide +kernel

end LightTerminal.Tmux.WaitFor
