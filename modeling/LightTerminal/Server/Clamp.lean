import LightTerminal.Server.Delivery

/-! # The size of a session with several clients

In every run, when a clamp was just applied and somebody is subscribed, the session, the pseudo terminal
and the parser have the smallest number of rows and the smallest number of columns of the subscribers.

Three things are otherwise than one might expect (`sizes_otherwise`). The rows and the columns are
written one after the other, so that the pair is not valid in between. When the last client leaves, its
size stays. And a detach ignores that the size could not be changed. -/

namespace LightTerminal.Server.Attach

open LightTerminal.Library.Interleave

variable {Parser Screen : Type}

/-- **The size is that of the smallest client.** In every run:

* when the clamp of an attach, a detach or a subscriber's request was just applied and somebody is
  subscribed, the session, the pseudo terminal and the parser have the smallest size of the subscribers;
* the geometries of the subscribers are valid, and the geometry of the session is whenever nobody holds
  `output_state`;
* an attach that failed gave the pseudo terminal no size and left no subscriber;
* when the clamp of an attach was just applied, its snapshot was formatted at the size applied;
* when nobody holds `geometry_apply`, all evicted clients have run their `unsubscribe` and nothing else was
  applied since, the size is the smallest of the subscribers. -/
theorem clamp_to_smallest_holds (emulator : Emulator Parser Screen) (initial : Geometry)
    (hkeeps : emulator.KeepsSize initial) (hvalid : initial.Valid)
    (events : List (Event Job Input)) :
    let pool := threads emulator initial events
    let s := pool.state
    (∀ source trail, s.trail = .applied source :: trail → source ≠ .forced → s.subscribers ≠ [] →
      IsSmallest s.subscribers s.size ∧ s.master = s.size ∧
        (s.terminalParserDegraded = false →
          emulator.size s.terminal.terminalScreen = (s.rows, s.cols))) ∧
    ((∀ sub ∈ s.subscribers, sub.geometry.Valid) ∧
      (s.locks .outputState = none → s.size.Valid)) ∧
    (∀ thread e, pool.threads[thread]? = some (some (Prog.ret (.attached thread (.error e)))) →
      (∀ geometry, .sized thread geometry ∉ s.trail) ∧
        ∀ id cut, s.cuts id = some cut → cut.thread = thread →
          id ∉ s.subscribers.map Subscriber.id) ∧
    (∀ id trail cut, s.trail = .applied (.attach id) :: trail → s.cuts id = some cut →
      cut.snapshot = cut.snapshotAfter emulator ∧ cut.formatted = s.size) ∧
    (s.locks .geometryApply = none → pendingDetach s.trail = [] → overridden s.trail = false →
      s.subscribers ≠ [] → IsSmallest s.subscribers s.size) := by
  intro pool s
  have h : Inv emulator initial s := inv_threads emulator initial events
  refine ⟨fun source trail htrail hsource hsubscribers => ?_, ⟨h.membership.valid, fun hfree => ?_⟩,
    fun thread e hthread => ?_, fun id trail cut htrail hcut => ?_,
    fun hfree hpending hoverridden hsubscribers => ?_⟩
  · obtain ⟨hagree, hsmallest⟩ := h.sizes.applied source trail htrail hsource hsubscribers
    exact ⟨hsmallest, hagree.master, hagree.parser hkeeps⟩
  · exact (h.sizes.agree hfree).valid hvalid
  · have hreturned : s.NoTrace thread := returned_threads hthread
    exact ⟨hreturned.sized, hreturned.gone⟩
  · exact ⟨h.delivery.snapshot id cut hcut, h.sizes.formatted id trail htrail cut hcut⟩
  · rcases h.sizes.clean hfree with hnobody | hsmallest | hgone | hother
    · exact absurd hnobody hsubscribers
    · exact hsmallest
    · exact absurd hpending hgone
    · rw [hoverridden] at hother
      cases hother

/-! ### Runs -/

/-- A client that is smaller than the session. -/
def small : Geometry := ⟨10, 10⟩

/-- A small client and one of the size of the session attach. -/
def twoClients : List (Event Job Input) :=
  [.start (.attach small)] ++ steps 0 13 ++ [.start (.attach standard)] ++ steps 1 9

theorem twoClients_smallest :
    IsSmallest (threads (sizeEmulator standard) standard twoClients).state.subscribers
      (threads (sizeEmulator standard) standard twoClients).state.size :=
  (clamp_to_smallest_holds (sizeEmulator standard) standard (sizeEmulator_keepsSize standard)
    (by rw [Geometry.valid_iff]; decide +kernel) twoClients).2.2.2.2
      (by decide +kernel) (by decide +kernel) (by decide +kernel) (by decide +kernel)

/-- The rows of a wide geometry are changed to those of a tall one. -/
def betweenRowsAndCols : List (Event Job Input) :=
  [.start (.resize none ⟨200, 1000⟩)] ++ steps 0 8 ++
  [.start (.resize none ⟨1000, 200⟩)] ++ steps 1 4

/-- A small client attaches and detaches. -/
def nobodyLeft : List (Event Job Input) :=
  [.start (.attach small)] ++ steps 0 13 ++ [.start (.unsubscribe 1)] ++ steps 1 8

/-- The small one of two clients is evicted, and the size cannot be changed when it unsubscribes. -/
def resizeFailed : List (Event Job Input) :=
  twoClients ++ [.start (.dropReceiver 1)] ++ steps 2 1 ++
  [.start (.appendOutput [0x61])] ++ steps 3 13 ++
  [.start (.unsubscribe 1)] ++ List.replicate 10 (.advance 4 ⟨true, 0⟩)

/-- The geometry of a session is not always valid. When all is done, the evicted clients have run their
`unsubscribe` and no request without a subscriber was made, the size is not always that of the session or
of the subscribers, and with subscribers it is not always theirs. -/
theorem sizes_otherwise :
    (¬∀ events, (threads (sizeEmulator standard) standard events).state.size.Valid) ∧
    (¬∀ events, let pool := threads (sizeEmulator standard) standard events
      let s := pool.state
      allReturned pool = true → pendingDetach s.trail = [] → .applied .forced ∉ s.trail →
        s.size = standard ∨ IsSmallest s.subscribers s.size) ∧
    ¬∀ events, let pool := threads (sizeEmulator standard) standard events
      let s := pool.state
      allReturned pool = true → pendingDetach s.trail = [] → .applied .forced ∉ s.trail →
        s.subscribers ≠ [] → IsSmallest s.subscribers s.size := by
  refine ⟨fun h => ?_, fun h => ?_, fun h => ?_⟩
  · have hvalid := h betweenRowsAndCols
    rw [Geometry.valid_iff] at hvalid
    revert hvalid
    decide +kernel
  · rcases h nobodyLeft (by decide +kernel) (by decide +kernel) (by decide +kernel) with hsize | hsize
    · revert hsize
      decide +kernel
    · have hrows := hsize.rows_mem
      revert hrows
      decide +kernel
  · have hsmallest := h resizeFailed (by decide +kernel) (by decide +kernel) (by decide +kernel)
      (by decide +kernel)
    have hrows := hsmallest.rows_mem
    revert hrows
    decide +kernel

end LightTerminal.Server.Attach
