import LightTerminal.Server.AttachSizes

/-! # Delivery to attached clients

In every run each client gets the snapshot of the screen at its cut and then the chunks after the cut,
in their order and each once, of which at most the latest is missing. A client that misses a chunk is
no longer subscribed when the chunk's broadcast is over, and if it was evicted, its hook is called
once.

A client that unsubscribes while its eviction waits for `output_state` is not evicted, and its hook is
not called (`missed_without_hook`). -/

namespace LightTerminal.Server.Attach

open LightTerminal.Library.Interleave
open LightTerminal.Output.Ring LightTerminal.Output.NormalScreen

variable {Parser Screen : Type}

/-- A new session keeps the invariant. -/
theorem inv_newSession (emulator : Emulator Parser Screen) (geometry : Geometry) :
    Inv emulator geometry (newSession emulator geometry) where
  screens := ⟨retained_nil.symm, fun _ => rfl⟩
  membership := ⟨List.nodup_nil, Nat.zero_le _, fun _ h => (nomatch h), fun _ _ h => (nomatch h),
    fun _ h => (nomatch h), fun _ _ h => (nomatch h), fun _ h => (nomatch h), List.nodup_nil,
    fun _ h => (nomatch h), List.nodup_nil⟩
  delivery := ⟨fun _ _ h => (nomatch h), fun _ _ h => (nomatch h), fun _ _ h => (nomatch h),
    fun _ h => (nomatch h), fun _ h => (nomatch h), List.nodup_nil, fun _ => rfl⟩
  sizes := ⟨fun _ => ⟨rfl, fun hkeeps _ => hkeeps.fresh, id, rfl⟩, fun _ => Or.inl rfl,
    fun _ _ h => (nomatch h), fun _ _ h => (nomatch h)⟩

theorem idle_newSession (emulator : Emulator Parser Screen) (geometry : Geometry) (thread : ℕ) :
    Idle thread (newSession emulator geometry) :=
  ⟨⟨fun _ _ h => (nomatch h), fun _ h => (nomatch h)⟩, fun _ h => (nomatch h),
    fun _ h => (nomatch h)⟩

/-- **Every run keeps to the discipline.** -/
theorem threads_good (emulator : Emulator Parser Screen) (geometry : Geometry)
    (events : List (Event Job Input)) :
    (threads emulator geometry events).Good (discipline emulator geometry) Idle fun _ => Returned :=
  run_good (fun _ => stable_idle) (fun _ => triple_program) (inv_newSession emulator geometry)
    (idle_newSession emulator geometry) events

theorem inv_threads (emulator : Emulator Parser Screen) (geometry : Geometry)
    (events : List (Event Job Input)) :
    Inv emulator geometry (threads emulator geometry events).state :=
  (threads_good emulator geometry events).inv

/-- What holds of a thread that has returned. -/
theorem returned_threads {emulator : Emulator Parser Screen} {geometry : Geometry}
    {events : List (Event Job Input)} {thread : ℕ} {outcome : Outcome}
    (h : (threads emulator geometry events).threads[thread]? = some (some (.ret outcome))) :
    Returned outcome (threads emulator geometry events).state := by
  have hgood := threads_good emulator geometry events
  exact hgood.safe thread _ h _ .refl hgood.inv

/-- A channel lacks at most the latest chunk. -/
theorem Inv.lacks {emulator : Emulator Parser Screen} {geometry : Geometry}
    {s : Session Parser Screen} (h : Inv emulator geometry s) {sub : Subscriber}
    (hsub : sub ∈ s.subscribers) {cut : Cut} (hcut : s.cuts sub.id = some cut) :
    ∃ missing, cut.chunks s.history = (s.channels sub.id).sent ++ missing ∧ missing.length ≤ 1 ∧
      (s.locks .broadcastOrder = none → missing = []) := by
  by_cases howing : sub.id ∈ s.owing
  · obtain ⟨cut', chunk, hcut', -, hchunks⟩ := h.delivery.owing sub.id howing
    rw [hcut, Option.some.injEq] at hcut'
    refine ⟨[chunk], hcut' ▸ hchunks, le_rfl, fun hfree => ?_⟩
    rw [h.delivery.idle hfree] at howing
    cases howing
  · refine ⟨[], ?_, Nat.zero_le _, fun _ => rfl⟩
    rw [List.append_nil]
    exact (h.delivery.delivered sub hsub howing cut hcut).symm

/-- **Delivery is gap-free and duplicate-free.** In every run each client has a cut in what the terminal
went through, and gets the snapshot of the screen there and then the chunks since, in their order and
each once. One that is subscribed lacks at most the latest chunk, and none when no chunk is being
broadcast. One that lacks a chunk then is not subscribed any more: it was evicted, or it was removed by
`unsubscribe` or `close_subscribers`. Only the hooks of evicted clients are called, each at most once,
and each of them once the `append_output` that evicted them has returned. -/
theorem delivery_gap_free (emulator : Emulator Parser Screen) (geometry : Geometry)
    (events : List (Event Job Input)) :
    let pool := threads emulator geometry events
    let s := pool.state
    (∀ id cut, s.cuts id = some cut → cut.history <+: s.history ∧
      cut.snapshot = cut.snapshotAfter emulator ∧
      (s.channels id).sent <+:
        cut.snapshot.toList ++ outputs (s.history.drop cut.history.length)) ∧
    (∀ sub ∈ s.subscribers, ∃ cut, s.cuts sub.id = some cut ∧ ∃ missing,
      cut.chunks s.history = (s.channels sub.id).sent ++ missing ∧ missing.length ≤ 1 ∧
        (s.locks .broadcastOrder = none → missing = [])) ∧
    (∀ id cut, s.cuts id = some cut → s.locks .broadcastOrder = none →
      (s.channels id).sent ≠ cut.chunks s.history → id ∉ s.subscribers.map Subscriber.id ∧
        (id ∈ s.evictions.map Prod.snd ∨ .removed id ∈ s.trail)) ∧
    (∀ id ∈ s.evictions.map Prod.snd, id ∉ s.subscribers.map Subscriber.id ∧
      (s.hooks.map Prod.snd).count id ≤ 1) ∧
    (∀ id ∈ s.hooks.map Prod.snd, id ∈ s.evictions.map Prod.snd) ∧
    (∀ thread, pool.threads[thread]? = some (some (Prog.ret (.appended thread))) →
      ∀ id, (thread, id) ∈ s.evictions → (s.hooks.map Prod.snd).count id = 1) ∧
    s.subscribers.length ≤ maxSubscribersPerSession := by
  intro pool s
  have h : Inv emulator geometry s := inv_threads emulator geometry events
  have honce : (s.hooks.map Prod.snd).Nodup :=
    h.membership.hookedOnce.map_on fun call hcall call' hcall' heq =>
      List.inj_on_of_nodup_map h.membership.evictedOnce (h.membership.hooked call hcall)
        (h.membership.hooked call' hcall') heq
  refine ⟨fun id cut hcut => ⟨h.delivery.history id cut hcut, h.delivery.snapshot id cut hcut,
    h.delivery.sent id cut hcut⟩, fun sub hsub => ?_, fun id cut hcut hfree hmissing => ?_,
    fun id hid => ⟨(h.membership.evicted id hid).2, List.nodup_iff_count_le_one.mp honce id⟩,
    fun id hid => ?_, fun thread hthread id hid => ?_, h.membership.count⟩
  · obtain ⟨cut, hcut⟩ := h.membership.joined sub hsub
    exact ⟨cut, hcut, h.lacks hsub hcut⟩
  · have hnot : id ∉ s.subscribers.map Subscriber.id := by
      intro hmem
      obtain ⟨sub, hsub, rfl⟩ := List.mem_map.mp hmem
      obtain ⟨missing, hchunks, -, hnone⟩ := h.lacks hsub hcut
      rw [hnone hfree, List.append_nil] at hchunks
      exact hmissing hchunks.symm
    exact ⟨hnot, (h.membership.gone id cut hcut).resolve_left hnot⟩
  · obtain ⟨call, hcall, rfl⟩ := List.mem_map.mp hid
    exact List.mem_map_of_mem (h.membership.hooked call hcall)
  · have hcalled : Called thread s := returned_threads hthread
    exact List.count_eq_one_of_mem honce (List.mem_map_of_mem (hcalled id hid))

/-! ### A hook that is not called -/

/-- An emulator whose screen is its size. -/
def sizeEmulator (geometry : Geometry) : Emulator (ℕ × ℕ) (ℕ × ℕ) where
  vt :=
    { fresh := (geometry.rows, geometry.cols)
      process := fun parser _ => parser
      screen := id
      alternateScreen := fun _ => false }
  setSize _ rows cols := (rows, cols)
  size := id
  format _ _ _ := [0x48]

theorem sizeEmulator_keepsSize (geometry : Geometry) :
    (sizeEmulator geometry).KeepsSize geometry :=
  ⟨rfl, fun _ _ => rfl, fun _ _ _ => rfl⟩

/-- All threads have returned. -/
def allReturned (pool : Pool (Session Parser Screen) Input Outcome) : Bool :=
  pool.threads.all fun thread =>
    match thread with
    | some (.ret _) => true
    | _ => false

/-- A thread that takes some steps in which nothing fails. -/
def steps (thread : ℕ) (count : ℕ) : List (Event Job Input) :=
  List.replicate count (.advance thread ⟨false, 0⟩)

/-- The size of a new session in the examples. -/
def standard : Geometry := ⟨24, 80⟩

/-- A client attaches, its receiver goes, and it cannot be sent a chunk. -/
def missedChunk : List (Event Job Input) :=
  [.start (.attach standard)] ++ steps 0 9 ++
  [.start (.dropReceiver 1)] ++ steps 1 1 ++
  [.start (.appendOutput [0x61])] ++ steps 2 7

/-- It unsubscribes before it is evicted. -/
def unsubscribedBeforeEviction : List (Event Job Input) :=
  [.start (.unsubscribe 1)] ++ steps 3 8 ++ steps 2 4

/-- Not every client that misses a chunk while it is subscribed has its hook called. -/
theorem missed_without_hook :
    ¬∀ early late id cut, let before := (threads (sizeEmulator standard) standard early).state
      let pool := threads (sizeEmulator standard) standard (early ++ late)
      id ∈ before.subscribers.map Subscriber.id → (before.channels id).connected = false →
        before.cuts id = some cut → (before.channels id).sent ≠ cut.chunks before.history →
          allReturned pool = true → (pool.state.hooks.map Prod.snd).count id = 1 := by
  intro h
  have hcount := h missedChunk unsubscribedBeforeEviction 1 ⟨0, [], false, standard, none⟩
    (by decide +kernel) (by decide +kernel) (by decide +kernel) (by decide +kernel)
    (by decide +kernel)
  revert hcount
  decide +kernel

end LightTerminal.Server.Attach
