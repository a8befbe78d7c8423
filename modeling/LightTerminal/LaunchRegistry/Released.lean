import LightTerminal.LaunchRegistry.Gate
import LightTerminal.LaunchRegistry.Completion

/-! # Released targets are recorded

* `released_recorded`: in every run, a launch whose target was executed has its process recorded in its
  slot, and no other launch has the same slot and generation; its launcher had sent COMMIT. A launcher
  that succeeds has recorded the process too.
* `cleanup_excludes_release`: once the record of a launch is past that of its identity and its gate not
  past its check, its target is not executed any more.
* `launch_completes`: a launch in which nothing fails gets to its target. -/

namespace LightTerminal.LaunchRegistry.Gate

open LightTerminal.Data.Text LightTerminal.Library LightTerminal.Library.Procedure
open LightTerminal.LaunchRegistry.Record LightTerminal.LaunchRegistry.Artifacts
open LightTerminal.LaunchRegistry.Transition LightTerminal.LaunchRegistry.Store
open LightTerminal.LaunchRegistry.Operations LightTerminal.LaunchRegistry.Writes
open LightTerminal.LaunchRegistry.Protocol LightTerminal.LaunchRegistry.Completion

variable {reg reg' : Registry} {l l' : Launch}

/-! ### Registries that follow -/

/-- Each record on file is followed by the one on file later. -/
def Onward (reg reg' : Registry) : Prop :=
  ∀ slot r, reg.file slot = .record r → ∃ r', reg'.file slot = .record r' ∧ Follows r r'

theorem Onward.refl (reg : Registry) : Onward reg reg := fun _ r hr => ⟨r, hr, .refl r⟩

theorem onward_of_effects {clock : Option ℕ} {exempt : Prop}
    {rebinds : SlotRecord → SlotRecord → Prop} (h : Effects (Written clock exempt rebinds) reg reg') :
    Onward reg reg' :=
  fun _ _ hr => Effects.follows (h.mono fun _ _ _ hw => hw.toWrite) hr

/-- The process of a launch is recorded in its slot, or was and the slot is vacant or used again. -/
def Holds (reg : Registry) (l : Launch) : Prop :=
  ∃ r, reg.file l.intent.slot = .record r ∧ l.intent.generation ≤ r.generation ∧
    (r.generation = l.intent.generation → 1 ≤ stage r.state ∧
      (r.state ≠ .vacant → r.state.nonce = some l.nonce ∧ r.state.identity = some l.identity))

theorem Holds.onward (h : Holds reg l) (honward : Onward reg reg') : Holds reg' l := by
  obtain ⟨r, hr, hle, hsame⟩ := h
  obtain ⟨r', hr', hfollows⟩ := honward _ r hr
  refine ⟨r', hr', hle.trans hfollows.generation, fun heq => ?_⟩
  have hgeneration : r'.generation = r.generation := by
    have := hfollows.generation
    omega
  obtain ⟨hstage, hrecorded⟩ := hsame (hgeneration ▸ heq)
  have hstage' := hfollows.stage hgeneration
  refine ⟨hstage.trans hstage', fun hoccupied => ?_⟩
  have hbefore : r.state ≠ .vacant := by
    intro hvacant
    rw [hvacant] at hstage'
    exact hoccupied (stage_vacant hstage')
  obtain ⟨hnonce, hidentity⟩ := hrecorded hbefore
  exact ⟨(hfollows.nonce hgeneration hoccupied).trans hnonce,
    hfollows.identity hgeneration hoccupied _ hidentity⟩

/-! ### The steps on the registry -/

/-- A write of a launch. -/
abbrev LaunchWrite : Registry → SlotRecord → SlotRecord → Prop :=
  Written none False fun _ _ => False

/-- What `record_identity` does if it returns. -/
theorem recordIdentity_records (io : IdentityIo) (intent : SlotRecord)
    (registration : GateRegistration) :
    Does (Effects LaunchWrite) (recordIdentity io intent registration) reg
      fun record reg' => reg.file intent.slot = .record intent ∧
        reg'.file intent.slot = .record record ∧ record.generation = intent.generation ∧
        ∃ nonce created, intent.state = .intentDurable nonce created ∧
          record.state = .identityDurable nonce registration.identity true := by
  have heffects : Does (Effects LaunchWrite) (recordIdentity io intent registration) reg
      fun _ _ => True := recordIdentity_does io intent registration
  refine ⟨heffects.moves, fun record hrecord => ?_⟩
  have hwrites : Does (Effects fun _ _ _ => True) (recordIdentity io intent registration) reg
      fun record reg' => reg.file intent.slot = .record intent ∧
        reg'.file intent.slot = .record record ∧ record.generation = intent.generation ∧
        ∃ nonce created, intent.state = .intentDurable nonce created ∧
          record.state = .identityDurable nonce registration.identity true := by
    unfold recordIdentity
    split
    · next nonce created hstate =>
      refine Does.lift_bind fun _ _ => Does.lift_bind fun _ _ => Does.lift_bind fun _ _ => ?_
      refine (readRegistration_does io.registration intent.slot).bind ?_
      rintro durable reg' - rfl
      refine Does.lift_bind fun _ _ => ?_
      refine (replaceSlot_does fun _ _ => trivial).bind ?_
      rintro _ reg'' - ⟨rfl, hfile⟩
      exact Does.pure ⟨hfile, file_install_self hfile, rfl, nonce, created, hstate, rfl⟩
    · exact Does.throw _
  exact hwrites.returns record hrecord

theorem receiveHello_records (reg : Registry) (io : HelloIo) (intent : SlotRecord) (nonce : Uuid)
    (child : ℕ) (hello : GateHello) :
    Does (Effects LaunchWrite) (receiveHello io intent nonce child hello) reg
      fun identity reg' => identity = hello.registration.identity ∧
        reg.file intent.slot = .record intent ∧
        ∃ r nonce created, reg'.file intent.slot = .record r ∧ r.generation = intent.generation ∧
          intent.state = .intentDurable nonce created ∧
          r.state = .identityDurable nonce identity true := by
  refine Does.lift_bind fun _ _ => Does.lift_bind fun _ _ => Does.lift_bind fun _ _ => ?_
  refine Does.lift_bind fun _ _ => Does.lift_bind fun _ _ => Does.lift_bind fun _ _ => ?_
  refine Does.lift_bind fun _ _ => (recordIdentity_records _ _ _).bind ?_
  rintro record reg' - ⟨hfile, hfile', hgeneration, nonce, created, hintent, hstate⟩
  refine Does.lift fun identity hidentity => ?_
  rw [hstate, expect_eq_ok] at hidentity
  obtain rfl := Option.some.inj hidentity
  exact ⟨rfl, hfile, record, nonce, created, hfile', hgeneration, hintent, hstate⟩

/-- The gate reads the registry only, and goes on from the record of its identity. -/
theorem receiveCommit_reads (reg : Registry) (io : CommitIo) (slot generation : ℕ) (nonce : Uuid)
    (identity : ProcessIdentity) (commit : GateCommit) :
    Does (Effects LaunchWrite)
      (receiveCommit io slot generation nonce identity commit) reg
      fun _ reg' => reg' = reg ∧ ∃ r, reg.file slot = .record r ∧
        r.state = .identityDurable nonce identity true ∧
        checkControlDirectory r.artifactBinding commit.descriptors[4]? = .ok () ∧
        checkControlSocket io.socket r.artifactBinding commit.descriptors[5]? = .ok () := by
  refine Does.lift_bind fun _ _ => Does.lift_bind fun _ _ => Does.lift_bind fun _ _ => ?_
  refine Does.lift_bind fun _ _ => Does.lift_bind fun _ _ => ?_
  refine (readValidSlot_does io.read slot).bind ?_
  rintro r reg' - ⟨rfl, -, hfile, -⟩
  refine Does.lift_bind fun _ hstate => ?_
  refine Does.lift_bind fun _ hdirectory => Does.lift_bind fun _ hsocket => ?_
  refine Does.lift_bind fun _ _ => Does.lift fun _ _ => ?_
  exact ⟨rfl, r, hfile, require_eq_ok.mp hstate, hdirectory, hsocket⟩

/-! ### One launch -/

/-- The identity that a launcher has recorded. -/
def LauncherStage.identity : LauncherStage → Option ProcessIdentity
  | .identified identity => some identity
  | .awaitsExec identity => some identity
  | .launched identity => some identity
  | _ => none

/-- The process has been recorded. -/
def Launch.Recorded (l : Launch) : Prop := l.launcher.identity.isSome ∨ l.commit.isSome

/-- What holds of a launch at all times. -/
structure Sound (reg : Registry) (l : Launch) : Prop where
  intent : ∃ created, l.intent.state = .intentDurable l.nonce created
  packets : ∀ hello, .hello hello ∈ l.packets → hello = helloOf l
  recorded : l.Recorded → Holds reg l
  identity : ∀ identity ∈ l.launcher.identity, identity = l.identity
  commit : ∀ commit ∈ l.commit, commit = commitOf l.intent l.nonce l.identity l.auxiliary
  checked : l.gate = .checked ∨ l.gate.released → l.commit.isSome
  launched : ∀ identity, l.launcher = .launched identity → l.gate.closed

/-- What a step of a launch leaves as it was. -/
structure SameLaunch (l l' : Launch) : Prop where
  intent : l'.intent = l.intent
  nonce : l'.nonce = l.nonce
  identity : l'.identity = l.identity
  auxiliary : l'.auxiliary = l.auxiliary

theorem Sound.onward (h : Sound reg l) (honward : Onward reg reg') : Sound reg' l :=
  ⟨h.intent, h.packets, fun hrecorded => (h.recorded hrecorded).onward honward, h.identity, h.commit,
    h.checked, h.launched⟩

/-- What a step does: the registry goes on, and the launch stays sound; its process becomes recorded
only where its intent was on file. -/
structure Advances (reg : Registry) (l : Launch) (reg' : Registry) (l' : Launch) : Prop where
  onward : Onward reg reg'
  same : SameLaunch l l'
  sound : Sound reg' l'
  recorded : l'.Recorded → l.Recorded ∨ reg.file l.intent.slot = .record l.intent

theorem Sound.idle (h : Sound reg l) : Advances reg l reg l :=
  ⟨.refl reg, ⟨rfl, rfl, rfl, rfl⟩, h, Or.inl⟩

/-- A step of the gate that does not get it past its check. -/
theorem Sound.gate (h : Sound reg l) (honward : Onward reg reg') {gate : GateStage}
    (hchecked : gate = .checked ∨ gate.released → l.commit.isSome)
    (hclosed : l.gate.closed → gate.closed) : Advances reg l reg' { l with gate } :=
  ⟨honward, ⟨rfl, rfl, rfl, rfl⟩,
    ⟨h.intent, h.packets, fun hrecorded => (h.recorded hrecorded).onward honward, h.identity, h.commit,
      hchecked, fun identity hlaunched => hclosed (h.launched identity hlaunched)⟩, Or.inl⟩

theorem Sound.register (h : Sound reg l) (hstarted : l.gate = .started) (read : Option String)
    (io : ReplaceIo) :
    Advances reg l (Gate.register read io reg l).1 (Gate.register read io reg l).2 := by
  have hdoes : Does (Effects LaunchWrite)
      (registerGate read io l.intent.slot l.intent.generation l.nonce l.identity) reg
      fun _ _ => True := registerGate_does _ _ _ _ _ _
  refine h.gate (onward_of_effects hdoes.moves) ?_ ?_
  · cases (exec (registerGate read io l.intent.slot l.intent.generation l.nonce l.identity) reg).1 <;>
      simp [nextStage, GateStage.released]
  · rw [hstarted]
    simp [GateStage.closed]

theorem Sound.sendHello (h : Sound reg l) (hregistered : l.gate = .registered) :
    Advances reg l reg
      { l with gate := .awaitsCommit, packets := l.packets ++ [.hello (helloOf l)] } := by
  refine ⟨.refl reg, ⟨rfl, rfl, rfl, rfl⟩, ⟨h.intent, fun hello hmem => ?_, h.recorded, h.identity,
    h.commit, fun hchecked => ?_, fun identity hlaunched => ?_⟩, Or.inl⟩
  · rcases List.mem_append.mp hmem with hold | hnew
    · exact h.packets hello hold
    · rw [List.mem_singleton] at hnew
      exact Packet.hello.inj hnew
  · simp [GateStage.released] at hchecked
  · have hclosed := h.launched identity hlaunched
    rw [hregistered] at hclosed
    simp [GateStage.closed] at hclosed

theorem Sound.receive (h : Sound reg l) (io : HelloIo) :
    Advances reg l (Gate.receive io reg l).1 (Gate.receive io reg l).2 := by
  have hfailed {packets : List Packet} (hpackets : ∀ packet ∈ packets, packet ∈ l.packets)
      {reg' : Registry} (honward : Onward reg reg') (failure : Failure) :
      Advances reg l reg' { l with packets, launcher := .failed failure } := by
    refine ⟨honward, ⟨rfl, rfl, rfl, rfl⟩, ⟨h.intent,
      fun hello hmem => h.packets hello (hpackets _ hmem), fun hrecorded => ?_, fun identity hmem => ?_, h.commit, h.checked, fun identity heq => ?_⟩,
      fun hrecorded => ?_⟩
    · rcases hrecorded with hidentity | hcommit
      · exact absurd hidentity Bool.false_ne_true
      · exact (h.recorded (Or.inr hcommit)).onward honward
    · cases hmem
    · cases heq
    · rcases hrecorded with hidentity | hcommit
      · exact absurd hidentity Bool.false_ne_true
      · exact Or.inl (Or.inr hcommit)
  unfold Gate.receive
  rcases hpackets : l.packets with _ | ⟨packet, packets⟩
  · exact h.idle
  have hmem : ∀ other ∈ packets, other ∈ l.packets := fun other hother =>
    hpackets ▸ List.mem_cons_of_mem _ hother
  cases packet with
  | execFailure failure => exact hfailed hmem (.refl reg) _
  | hello hello =>
    have hhello : hello = helloOf l := h.packets hello (hpackets ▸ List.mem_cons_self)
    have hdoes := receiveHello_records reg io l.intent l.nonce l.identity.pid hello
    have honward := onward_of_effects hdoes.moves
    rcases hexec : exec (receiveHello io l.intent l.nonce l.identity.pid hello) reg
      with ⟨failure | identity, reg'⟩
    · simp only [hexec]
      rw [hexec] at honward
      exact hfailed hmem honward failure
    · simp only [hexec]
      have hreturned := hdoes.returns identity (by rw [hexec])
      rw [hexec] at hreturned honward
      obtain ⟨hidentity, hfile, r, nonce, created, hfile', hgeneration, hintent, hstate⟩ := hreturned
      rw [hhello] at hidentity
      obtain ⟨created', hintent'⟩ := h.intent
      rw [hintent'] at hintent
      obtain rfl : l.nonce = nonce := (SlotState.intentDurable.inj hintent).1
      have hholds : Holds reg' l := by
        refine ⟨r, hfile', hgeneration.ge, fun _ => ?_⟩
        rw [hstate, hidentity]
        exact ⟨le_rfl, fun _ => ⟨rfl, rfl⟩⟩
      exact ⟨honward, ⟨rfl, rfl, rfl, rfl⟩, ⟨h.intent, fun other hother => h.packets other (hmem _ hother),
        fun _ => hholds, fun other hother => (Option.some.inj hother).symm.trans hidentity, h.commit,
        h.checked, fun other hother => by cases hother⟩, fun _ => Or.inr hfile⟩

theorem Sound.sendCommit (h : Sound reg l) {identity : ProcessIdentity}
    (hidentified : l.launcher = .identified identity) :
    Advances reg l reg { l with
      launcher := .awaitsExec identity
      commit := some (commitOf l.intent l.nonce identity l.auxiliary) } := by
  have hsome : l.launcher.identity = some identity := by
    rw [hidentified]
    rfl
  have hsame : identity = l.identity := h.identity identity hsome
  have hrecorded : l.Recorded := Or.inl (by rw [hsome]; rfl)
  refine ⟨.refl reg, ⟨rfl, rfl, rfl, rfl⟩, ⟨h.intent, h.packets, fun _ => h.recorded hrecorded,
    fun other hother => (Option.some.inj hother).symm.trans hsame, fun commit hcommit => ?_,
    fun _ => rfl, fun other hother => ?_⟩, fun _ => Or.inl hrecorded⟩
  · rw [← Option.some.inj hcommit, hsame]
  · cases hother

theorem Sound.checkCommit (h : Sound reg l) (hawaits : l.gate = .awaitsCommit) (io : CommitIo) :
    Advances reg l (Gate.checkCommit io reg l).1 (Gate.checkCommit io reg l).2 := by
  unfold Gate.checkCommit
  split
  · next commit hcommit =>
    have hdoes := receiveCommit_reads reg io l.intent.slot l.intent.generation l.nonce l.identity commit
    refine h.gate (onward_of_effects hdoes.moves) (fun _ => by rw [hcommit]; rfl) ?_
    rw [hawaits]
    simp [GateStage.closed]
  · exact h.idle

theorem Sound.execTarget (h : Sound reg l) (hchecked : l.gate = .checked)
    (failure : Option GateExecFailure) : Advances reg l reg (Gate.execTarget l failure) := by
  have hcommit := h.checked (Or.inl hchecked)
  cases failure with
  | none => exact h.gate (.refl reg) (fun _ => hcommit) fun _ => rfl
  | some failure =>
    refine ⟨.refl reg, ⟨rfl, rfl, rfl, rfl⟩, ⟨h.intent, fun hello hmem => ?_, h.recorded, h.identity,
      h.commit, fun _ => hcommit, fun _ _ => rfl⟩, Or.inl⟩
    rcases List.mem_append.mp hmem with hold | hnew
    · exact h.packets hello hold
    · rw [List.mem_singleton] at hnew
      cases hnew

/-- A step of the launcher that records nothing. -/
theorem Sound.launcher (h : Sound reg l) {packets : List Packet} {launcher : LauncherStage}
    (hpackets : ∀ packet ∈ packets, packet ∈ l.packets)
    (hidentity : ∀ identity ∈ launcher.identity, l.launcher.identity = some identity)
    (hlaunched : ∀ identity, launcher = .launched identity → l.gate.closed) :
    Advances reg l reg { l with packets, launcher } := by
  have hrecorded (hnew : Launch.Recorded { l with packets, launcher }) : l.Recorded := by
    rcases hnew with hsome | hcommit
    · obtain ⟨identity, hmem⟩ := Option.isSome_iff_exists.mp hsome
      exact Or.inl (by rw [hidentity identity hmem]; rfl)
    · exact Or.inr hcommit
  exact ⟨.refl reg, ⟨rfl, rfl, rfl, rfl⟩, ⟨h.intent, fun hello hmem => h.packets hello (hpackets _ hmem),
    fun hnew => h.recorded (hrecorded hnew), fun identity hmem => h.identity identity
      (hidentity identity hmem), h.commit, h.checked, hlaunched⟩, fun hnew => Or.inl (hrecorded hnew)⟩

theorem Sound.launcherFails (h : Sound reg l) (failure : Failure) {packets : List Packet}
    (hpackets : ∀ packet ∈ packets, packet ∈ l.packets) :
    Advances reg l reg { l with packets, launcher := .failed failure } :=
  h.launcher hpackets (fun _ hmem => by cases hmem) fun _ heq => by cases heq

theorem Sound.waitForGateExec (h : Sound reg l) {identity : ProcessIdentity}
    (hawaits : l.launcher = .awaitsExec identity) (proof : Result Unit) :
    Advances reg l reg (Gate.waitForGateExec proof identity l) := by
  unfold Gate.waitForGateExec
  split
  · next packet packets hpackets =>
    exact h.launcherFails _ fun other hother => hpackets ▸ List.mem_cons_of_mem _ hother
  · split_ifs with hclosed
    · cases proof with
      | error failure => exact h.launcherFails failure fun _ hmem => hmem
      | ok u =>
        refine h.launcher (fun _ hmem => hmem) (fun other hother => ?_) fun _ _ => hclosed
        rw [← Option.some.inj hother, hawaits]
        rfl
    · exact h.idle

theorem Sound.gateEnds (h : Sound reg l) : Advances reg l reg { l with gate := l.gate.next } := by
  refine h.gate (.refl reg) (fun hchecked => h.checked ?_) ?_ <;>
    cases hgate : l.gate <;> simp_all [GateStage.next, GateStage.released, GateStage.closed]

theorem Sound.act (h : Sound reg l) (action : Action) :
    Advances reg l (Gate.act reg l action).1 (Gate.act reg l action).2 := by
  cases action with
  | register read io =>
    simp only [Gate.act]
    split_ifs with hstarted
    · exact h.register hstarted read io
    · exact h.idle
  | sendHello =>
    simp only [Gate.act]
    split_ifs with hregistered
    · exact h.sendHello hregistered
    · exact h.idle
  | receiveHello io =>
    simp only [Gate.act]
    split_ifs
    · exact h.receive io
    · exact h.idle
  | sendCommit =>
    unfold Gate.act
    cases hlauncher : l.launcher with
    | identified identity => exact h.sendCommit hlauncher
    | _ => exact h.idle
  | receiveCommit io =>
    simp only [Gate.act]
    split_ifs with hawaits
    · exact h.checkCommit hawaits io
    · exact h.idle
  | exec failure =>
    simp only [Gate.act]
    split_ifs with hchecked
    · exact h.execTarget hchecked failure
    · exact h.idle
  | waitForExec proof =>
    unfold Gate.act
    cases hlauncher : l.launcher with
    | awaitsExec identity => exact h.waitForGateExec hlauncher proof
    | _ => exact h.idle
  | launcherFails failure => exact h.launcherFails failure fun _ hmem => hmem
  | gateEnds => exact h.gateEnds

/-! ### All launches -/

/-- What holds of a world at all times: its launches are sound, and of those of one slot and generation at
most one has its process recorded. -/
structure Inv (world : World) : Prop where
  sound : ∀ l ∈ world.launches, Sound world.reg l
  exclusive : ∀ (i j : ℕ) (l l' : Launch), world.launches[i]? = some l →
    world.launches[j]? = some l' → l.Recorded → l'.Recorded → l.intent.slot = l'.intent.slot →
    l.intent.generation = l'.intent.generation → i = j

/-- While the intent of a launch is on file, no launch of its slot and generation is recorded. -/
theorem Holds.not_intent (h : Holds reg l') (hl : Sound reg l)
    (hfile : reg.file l.intent.slot = .record l.intent) (hslot : l.intent.slot = l'.intent.slot) :
    l.intent.generation ≠ l'.intent.generation := by
  intro hgeneration
  obtain ⟨r, hr, -, hsame⟩ := h
  rw [← hslot, hfile] at hr
  obtain rfl := SlotFile.record.inj hr
  obtain ⟨created, hintent⟩ := hl.intent
  have hstage := (hsame hgeneration).1
  rw [hintent] at hstage
  simp [stage] at hstage

theorem Inv.operation {world : World} (h : Inv world) (operation : Operation) :
    Inv { world with reg := Operations.step world.reg operation } := by
  have honward : Onward world.reg (Operations.step world.reg operation) := fun _ _ hr =>
    Effects.follows (step_effects world.reg operation) hr
  exact ⟨fun l hl => (h.sound l hl).onward honward, h.exclusive⟩

/-- A launch at its start. -/
theorem spawn_sound (reg : Registry) {intent : SlotRecord} {auxiliary : ManagedAuxiliary}
    {identity : ProcessIdentity} (hspawn : spawn intent auxiliary identity = some l) :
    Sound reg l ∧ ¬l.Recorded := by
  unfold spawn at hspawn
  split at hspawn
  · next nonce created hstate =>
    obtain rfl := Option.some.inj hspawn
    have hunrecorded : ¬Launch.Recorded ⟨intent, nonce, auxiliary, identity, .awaitsHello, .started, [],
        none⟩ := by
      simp [Launch.Recorded, LauncherStage.identity]
    refine ⟨⟨⟨created, hstate⟩, fun _ hmem => absurd hmem List.not_mem_nil, fun hrecorded =>
      absurd hrecorded hunrecorded, fun identity hmem => absurd hmem (Option.not_mem_none identity),
      fun commit hmem => absurd hmem (Option.not_mem_none commit), ?_, fun _ heq => (by cases heq)⟩,
      hunrecorded⟩
    simp [GateStage.released]
  · cases hspawn

theorem Inv.spawn {world : World} (h : Inv world) (intent : SlotRecord) (auxiliary : ManagedAuxiliary)
    (identity : ProcessIdentity) : Inv (step world (.spawn intent auxiliary identity)) := by
  change Inv { world with
    launches := world.launches ++ (Gate.spawn intent auxiliary identity).toList }
  rcases hspawn : Gate.spawn intent auxiliary identity with _ | new
  · rw [Option.toList_none, List.append_nil]
    exact h
  obtain ⟨hsound, hunrecorded⟩ := spawn_sound world.reg hspawn
  rw [Option.toList_some]
  -- the new launch is not recorded, so a recorded one is one of the old ones
  have hold {i : ℕ} {l : Launch} (hl : (world.launches ++ [new])[i]? = some l) (hrecorded : l.Recorded) :
      world.launches[i]? = some l := by
    rw [List.getElem?_append] at hl
    split_ifs at hl with hlt
    · exact hl
    · obtain rfl := List.mem_singleton.mp (List.mem_of_getElem? hl)
      exact absurd hrecorded hunrecorded
  refine ⟨fun l hl => ?_, fun i j l l' hl hl' hrecorded hrecorded' => ?_⟩
  · rcases List.mem_append.mp hl with hmem | hmem
    · exact h.sound l hmem
    · rw [List.mem_singleton.mp hmem]
      exact hsound
  · exact h.exclusive i j l l' (hold hl hrecorded) (hold hl' hrecorded') hrecorded hrecorded'

theorem Inv.act {world : World} (h : Inv world) (index : ℕ) (action : Action) :
    Inv (step world (.act index action)) := by
  cases hl : world.launches[index]? with
  | none =>
    simp only [step, hl]
    exact h
  | some l =>
    simp only [step, hl]
    have hsound := h.sound l (List.mem_of_getElem? hl)
    obtain ⟨honward, hsame, hsound', hrecorded⟩ := hsound.act action
    -- a launch that is recorded now was, or its intent was on file and the others were not
    have hbefore {i : ℕ} {other : Launch}
        (hother : (world.launches.set index (Gate.act world.reg l action).2)[i]? = some other) :
        (i = index ∧ other = (Gate.act world.reg l action).2) ∨
          i ≠ index ∧ world.launches[i]? = some other := by
      rw [List.getElem?_set] at hother
      split_ifs at hother with heq hlt
      · exact Or.inl ⟨heq.symm, (Option.some.inj hother).symm⟩
      · exact Or.inr ⟨Ne.symm heq, hother⟩
    have hexclusive {j : ℕ} {other : Launch} (hne : j ≠ index) (hother : world.launches[j]? = some other)
        (hnew : (Gate.act world.reg l action).2.Recorded) (hold : other.Recorded)
        (hslot : l.intent.slot = other.intent.slot) :
        l.intent.generation ≠ other.intent.generation := by
      intro hgeneration
      rcases hrecorded hnew with hwas | hfile
      · exact hne (h.exclusive index j l other hl hother hwas hold hslot hgeneration).symm
      · have hholds := (h.sound other (List.mem_of_getElem? hother)).recorded hold
        exact hholds.not_intent hsound hfile hslot hgeneration
    refine ⟨fun other hother => ?_, fun i j a b ha hb hra hrb hslot hgeneration => ?_⟩
    · obtain ⟨i, hi⟩ := List.mem_iff_getElem?.mp hother
      rcases hbefore hi with ⟨-, rfl⟩ | ⟨-, hold⟩
      · exact hsound'
      · exact (h.sound other (List.mem_of_getElem? hold)).onward honward
    · rcases hbefore ha with ⟨hi, rfl⟩ | ⟨hia, hold⟩ <;>
        rcases hbefore hb with ⟨hj, rfl⟩ | ⟨hjb, hold'⟩
      · rw [hi, hj]
      · rw [hsame.intent] at hslot hgeneration
        exact absurd hgeneration (hexclusive hjb hold' hra hrb hslot)
      · rw [hsame.intent] at hslot hgeneration
        exact absurd hgeneration.symm (hexclusive hia hold hrb hra hslot.symm)
      · exact h.exclusive i j a b hold hold' hra hrb hslot hgeneration

theorem step_inv {world : World} (h : Inv world) (event : Event) : Inv (step world event) := by
  cases event with
  | operation operation => exact h.operation operation
  | spawn intent auxiliary identity => exact h.spawn intent auxiliary identity
  | act index action => exact h.act index action

theorem run_inv (reg : Registry) (events : List Event) : Inv (run ⟨reg, []⟩ events) := by
  have hstart : Inv ⟨reg, []⟩ :=
    ⟨fun _ hmem => absurd hmem List.not_mem_nil, fun _ _ _ _ hnone => by cases hnone⟩
  have hstep (world : World) (event : Event) (h : Inv world) : Inv (step world event) :=
    step_inv h event
  exact Run.run_invariant hstep events ⟨reg, []⟩ hstart

/-- **A target that was executed is recorded.** In every run of launches and other operations, whoever
dies or fails: its launcher had sent the COMMIT of the launch, the slot names its process until it is
vacated or used again, and no other target was executed for the same slot and generation. A launcher
that succeeds names the process of its gate, which is recorded, and the gate has become the target or
ended. -/
theorem released_recorded (reg : Registry) (events : List Event) :
    (∀ l ∈ (run ⟨reg, []⟩ events).launches, l.gate.released →
      l.commit = some (commitOf l.intent l.nonce l.identity l.auxiliary) ∧
        Holds (run ⟨reg, []⟩ events).reg l) ∧
    (∀ (i j : ℕ) (l l' : Launch), (run ⟨reg, []⟩ events).launches[i]? = some l →
      (run ⟨reg, []⟩ events).launches[j]? = some l' → l.gate.released → l'.gate.released →
      l.intent.slot = l'.intent.slot → l.intent.generation = l'.intent.generation → i = j) ∧
    ∀ l ∈ (run ⟨reg, []⟩ events).launches, ∀ identity, l.launcher = .launched identity →
      identity = l.identity ∧ Holds (run ⟨reg, []⟩ events).reg l ∧ l.gate.closed := by
  have hinv := run_inv reg events
  have hcommitted {l : Launch} (hl : l ∈ (run ⟨reg, []⟩ events).launches) (hreleased : l.gate.released) :
      l.commit.isSome := (hinv.sound l hl).checked (Or.inr hreleased)
  refine ⟨fun l hl hreleased => ?_, fun i j l l' hl hl' hreleased hreleased' => ?_,
    fun l hl identity hlaunched => ?_⟩
  · have hsome := hcommitted hl hreleased
    obtain ⟨commit, hcommit⟩ := Option.isSome_iff_exists.mp hsome
    rw [hcommit, (hinv.sound l hl).commit commit hcommit]
    exact ⟨rfl, (hinv.sound l hl).recorded (Or.inr hsome)⟩
  · exact hinv.exclusive i j l l' hl hl' (Or.inr (hcommitted (List.mem_of_getElem? hl) hreleased))
      (Or.inr (hcommitted (List.mem_of_getElem? hl') hreleased'))
  · have hsome : l.launcher.identity = some identity := by
      rw [hlaunched]
      rfl
    have hsound := hinv.sound l hl
    exact ⟨hsound.identity identity hsome, hsound.recorded (Or.inl (by rw [hsome]; rfl)),
      hsound.launched identity hlaunched⟩

/-! ### A cleanup that comes first -/

/-- The gate is past its check. -/
def GateStage.past (gate : GateStage) : Bool := gate = .checked ∨ gate.released

theorem receive_gate (io : HelloIo) : (Gate.receive io reg l).2.gate = l.gate := by
  unfold Gate.receive
  split <;> rfl

theorem waitForGateExec_gate (proof : Result Unit) (identity : ProcessIdentity) :
    (Gate.waitForGateExec proof identity l).gate = l.gate := by
  unfold Gate.waitForGateExec
  split
  · rfl
  · split_ifs <;> rfl

/-- A gate gets past its check only from the record of its identity. -/
theorem act_past {action : Action} (hpast : (Gate.act reg l action).2.gate.past)
    (hnot : l.gate.past = false) :
    ∃ r, reg.file l.intent.slot = .record r ∧ r.state = .identityDurable l.nonce l.identity true := by
  have hsame (hgate : (Gate.act reg l action).2.gate = l.gate) : False := by
    rw [hgate, hnot] at hpast
    exact Bool.false_ne_true hpast
  cases action with
  | register read io =>
    simp only [Gate.act] at hpast hsame
    split_ifs at hpast hsame
    · change (nextStage _ _ _ : GateStage).past = true at hpast
      cases hended : (exec (registerGate read io l.intent.slot l.intent.generation l.nonce
        l.identity) reg).1 <;> simp [hended, nextStage, GateStage.past, GateStage.released] at hpast
    · exact (hsame rfl).elim
  | sendHello =>
    simp only [Gate.act] at hpast hsame
    split_ifs at hpast hsame
    · simp [GateStage.past, GateStage.released] at hpast
    · exact (hsame rfl).elim
  | receiveHello io =>
    simp only [Gate.act] at hsame
    split_ifs at hsame
    · exact (hsame (receive_gate io)).elim
    · exact (hsame rfl).elim
  | sendCommit =>
    simp only [Gate.act] at hsame
    split at hsame <;> exact (hsame rfl).elim
  | receiveCommit io =>
    simp only [Gate.act, Gate.checkCommit] at hpast hsame
    split_ifs at hpast hsame
    · split at hpast
      · next commit hcommit =>
        have hdoes := receiveCommit_reads reg io l.intent.slot l.intent.generation l.nonce l.identity
          commit
        cases hended : (exec (receiveCommit io l.intent.slot l.intent.generation l.nonce l.identity
            commit) reg).1 with
        | error failure => simp [hended, nextStage, GateStage.past, GateStage.released] at hpast
        | ok u =>
          obtain ⟨-, r, hfile, hstate, -⟩ := hdoes.returns u hended
          exact ⟨r, hfile, hstate⟩
      · rw [hnot] at hpast
        exact absurd hpast Bool.false_ne_true
    · exact (hsame rfl).elim
  | exec failure =>
    simp only [Gate.act] at hsame
    split_ifs at hsame with hchecked
    · rw [hchecked] at hnot
      simp [GateStage.past] at hnot
    · exact (hsame rfl).elim
  | waitForExec proof =>
    simp only [Gate.act] at hsame
    split at hsame
    · exact (hsame (waitForGateExec_gate proof _)).elim
    · exact (hsame rfl).elim
  | launcherFails failure => exact (hsame rfl).elim
  | gateEnds =>
    change l.gate.next.past = true at hpast
    cases hgate : l.gate <;> simp_all [GateStage.past, GateStage.next, GateStage.released]

/-- The cleanup of a launch has begun while its gate was not past its check, or its slot is used
again. -/
def Barred (index slot generation : ℕ) (world : World) : Prop :=
  ∃ l r, world.launches[index]? = some l ∧ l.intent.slot = slot ∧ world.reg.file slot = .record r ∧
    (generation < r.generation ∨
      r.generation = generation ∧ 2 ≤ stage r.state ∧ l.gate.past = false)

theorem Barred.onward {index slot generation : ℕ} {world : World} (h : Barred index slot generation world)
    {launches : List Launch} (honward : Onward world.reg reg') (hlaunch : ∀ l r,
      world.launches[index]? = some l → l.intent.slot = slot → world.reg.file slot = .record r →
      ∃ l', launches[index]? = some l' ∧ l'.intent.slot = slot ∧
        (2 ≤ stage r.state → l.gate.past = false → l'.gate.past = false)) :
    Barred index slot generation ⟨reg', launches⟩ := by
  obtain ⟨l, r, hl, hslot, hr, hbarred⟩ := h
  obtain ⟨l', hl', hslot', hpast⟩ := hlaunch l r hl hslot hr
  obtain ⟨r', hr', hfollows⟩ := honward slot r hr
  refine ⟨l', r', hl', hslot', hr', ?_⟩
  rcases hbarred with hlater | ⟨hgeneration, hstage, hnot⟩
  · exact Or.inl (lt_of_lt_of_le hlater hfollows.generation)
  · rcases Nat.lt_or_eq_of_le hfollows.generation with hlt | heq
    · exact Or.inl (hgeneration ▸ hlt)
    · exact Or.inr ⟨heq ▸ hgeneration, hstage.trans (hfollows.stage heq.symm), hpast hstage hnot⟩

theorem Barred.step {index slot generation : ℕ} {world : World} (hinv : Inv world)
    (h : Barred index slot generation world) (event : Event) :
    Barred index slot generation (step world event) := by
  cases event with
  | operation operation =>
    exact h.onward (fun _ _ hr => Effects.follows (step_effects world.reg operation) hr)
      fun l r hl hslot _ => ⟨l, hl, hslot, fun _ hnot => hnot⟩
  | spawn intent auxiliary identity =>
    refine h.onward (.refl world.reg) fun l r hl hslot _ => ⟨l, ?_, hslot, fun _ hnot => hnot⟩
    have hlt := (List.getElem?_eq_some_iff.mp hl).1
    rw [List.getElem?_append_left hlt, hl]
  | act acting action =>
    cases hacting : world.launches[acting]? with
    | none =>
      simp only [Gate.step, hacting]
      exact h
    | some other =>
      have hadvances := (hinv.sound other (List.mem_of_getElem? hacting)).act action
      simp only [Gate.step, hacting]
      refine h.onward hadvances.onward fun l r hl hslot hr => ?_
      by_cases heq : acting = index
      · rw [heq, hl] at hacting
        obtain rfl := Option.some.inj hacting
        refine ⟨(Gate.act world.reg l action).2, ?_, hadvances.same.intent ▸ hslot, fun hstage hnot => ?_⟩
        · rw [heq, List.getElem?_set_self (List.getElem?_eq_some_iff.mp hl).1]
        · by_contra hpast
          rw [Bool.not_eq_false] at hpast
          obtain ⟨r', hr', hstate⟩ := act_past hpast hnot
          rw [hslot, hr] at hr'
          obtain rfl := SlotFile.record.inj hr'
          rw [hstate] at hstage
          simp [stage] at hstage
      · exact ⟨l, by rw [List.getElem?_set_ne heq, hl], hslot, fun _ hnot => hnot⟩

/-- **A cleanup that comes before the check of the gate comes before its target.** If the record of a
launch is no longer that of its identity and its gate is not past its check, then its target is never
executed, as long as the slot is not used again. -/
theorem cleanup_excludes_release (reg : Registry) (events events' : List Event) (index : ℕ)
    (l l' : Launch) (r r' : SlotRecord) (hl : (run ⟨reg, []⟩ events).launches[index]? = some l)
    (hgate : l.gate ≠ .checked ∧ l.gate.released = false)
    (hr : (run ⟨reg, []⟩ events).reg.file l.intent.slot = .record r)
    (hgeneration : r.generation = l.intent.generation) (hstage : 2 ≤ stage r.state)
    (hl' : (run ⟨reg, []⟩ (events ++ events')).launches[index]? = some l')
    (hr' : (run ⟨reg, []⟩ (events ++ events')).reg.file l.intent.slot = .record r')
    (hgeneration' : r'.generation = l.intent.generation) : l'.gate.released = false := by
  have hbarred : Barred index l.intent.slot l.intent.generation (run ⟨reg, []⟩ events) := by
    refine ⟨l, r, hl, rfl, hr, Or.inr ⟨hgeneration, hstage, ?_⟩⟩
    simp [GateStage.past, hgate]
  have hkept (world : World) (event : Event)
      (h : Inv world ∧ Barred index l.intent.slot l.intent.generation world) :
      Inv (step world event) ∧ Barred index l.intent.slot l.intent.generation (step world event) :=
    ⟨step_inv h.1 event, h.2.step h.1 event⟩
  have hlast := Run.run_invariant hkept events' (run ⟨reg, []⟩ events) ⟨run_inv reg events, hbarred⟩
  unfold run at hl' hr'
  rw [Run.run_append] at hl' hr'
  obtain ⟨-, last, rlast, hlast, -, hrlast, hcases⟩ := hlast
  change (Run.run step (run ⟨reg, []⟩ events) events').launches[index]? = some l' at hl'
  change (Run.run step (run ⟨reg, []⟩ events) events').reg.file l.intent.slot = .record r' at hr'
  rw [hl'] at hlast
  rw [hr'] at hrlast
  obtain rfl := Option.some.inj hlast
  obtain rfl := SlotFile.record.inj hrlast
  rcases hcases with hlater | ⟨-, -, hnot⟩
  · omega
  · simp only [GateStage.past, decide_eq_false_iff_not, not_or] at hnot
    simpa using hnot.2

/-! ### A launch in which nothing fails -/

/-- A replacement that is made. -/
def smooth : ReplaceIo := ⟨none, .done, none⟩

/-- Several steps of a launch. -/
def acts (reg : Registry) (l : Launch) (actions : List Action) : Registry × Launch :=
  actions.foldl (fun reached action => act reached.1 reached.2 action) (reg, l)

/-- The steps of launcher and gate, from the start of the gate to the end of the launch. -/
def undisturbed (identity : ProcessIdentity) : List Action :=
  [.register none smooth, .sendHello, .receiveHello ⟨.ok (), .present (), ⟨none, smooth⟩⟩, .sendCommit,
    .receiveCommit ⟨.ok (), none, fun _ => .ok (), .present identity, .ok ()⟩, .exec none,
    .waitForExec (.ok ())]

/-- The binding of a slot has what the launch hands over to its target. -/
def Bound (auxiliary : ManagedAuxiliary) (binding : Option ManagedArtifactBinding) : Prop :=
  ∀ candidate control, auxiliary = .speculation candidate control →
    binding.bind ManagedArtifactBinding.privateDirectory = some control ∧
      (binding.bind ManagedArtifactBinding.socket).isSome

theorem validDescriptors (auxiliary : ManagedAuxiliary) : ValidDescriptors auxiliary.descriptors := by
  cases auxiliary with
  | none => exact Or.inl rfl
  | syncPipeWrite => exact Or.inr (Or.inl rfl)
  | speculation candidate control => exact Or.inr (Or.inr ⟨candidate, rfl, control, rfl, rfl⟩)

/-- What is bound passes the checks of the gate. -/
theorem Bound.checks {auxiliary : ManagedAuxiliary} {binding : Option ManagedArtifactBinding}
    (h : Bound auxiliary binding) :
    checkControlDirectory binding auxiliary.descriptors[4]? = .ok () ∧
      checkControlSocket (fun _ => .ok ()) binding auxiliary.descriptors[5]? = .ok () := by
  cases auxiliary with
  | none => exact ⟨rfl, rfl⟩
  | syncPipeWrite => exact ⟨rfl, rfl⟩
  | speculation candidate control =>
    obtain ⟨hdirectory, hsocket⟩ := h candidate control rfl
    obtain ⟨socket, hsocket⟩ := Option.isSome_iff_exists.mp hsocket
    refine ⟨bind_eq_ok.mpr ⟨control, expect_eq_ok.mpr hdirectory, require_eq_ok.mpr rfl⟩, ?_⟩
    exact bind_eq_ok.mpr ⟨(), require_eq_ok.mpr ⟨rfl, rfl⟩,
      bind_eq_ok.mpr ⟨socket, expect_eq_ok.mpr hsocket, rfl⟩⟩

/-- A check that holds. -/
theorem exec_ensure {α : Type} {c : Prop} [Decidable c] {message : String} {f : Unit → Op α} (h : c) :
    exec ((liftM (ensure c message) : Op Unit) >>= f) reg = exec (f ()) reg :=
  exec_lift_bind (require_eq_ok.mpr h)

theorem exec_readValidSlot_ok {record : SlotRecord} (hfile : reg.file record.slot = .record record)
    (hvalid : record.Valid) : exec (readValidSlot none record.slot) reg = (.ok record, reg) := by
  have hread := Registry.readSlot_valid.mpr ⟨rfl, hfile, hvalid, rfl⟩
  simp only [readValidSlot, readSlot, exec_bind, exec_get, exec_pure, hread]

/-- The registration of a gate. -/
def registrationRecord (l : Launch) : RegistrationRecord :=
  ⟨gateSchemaVersion, l.intent.slot, l.intent.generation, some (helloOf l).registration⟩

theorem exec_readRegistration (hslot : l.intent.slot < reg.registrations.length) :
    exec (readRegistration none l.intent.slot) (reg.register l.intent.slot (registrationRecord l)) =
      (.ok (registrationRecord l), reg.register l.intent.slot (registrationRecord l)) := by
  have hget : (reg.register l.intent.slot (registrationRecord l)).registrations[l.intent.slot]?.join =
      some (registrationRecord l) := by
    change (reg.registrations.set l.intent.slot _)[l.intent.slot]?.join = _
    rw [List.getElem?_set_self hslot]
    rfl
  unfold readRegistration
  rw [exec_bind_ok (exec_get _)]
  simp only
  rw [exec_lift_bind (expect_eq_ok.mpr hget)]
  exact (exec_ensure rfl).trans (exec_ensure rfl)

theorem exec_registerGate (hfile : reg.file l.intent.slot = .record l.intent)
    (hvalid : l.intent.Valid) {created : ℕ} (hintent : l.intent.state = .intentDurable l.nonce created)
    (hslot : l.intent.slot < reg.registrations.length) :
    exec (registerGate none smooth l.intent.slot l.intent.generation l.nonce l.identity) reg =
      (.ok (), reg.register l.intent.slot (registrationRecord l)) := by
  have hstate : l.intent.state.isIntent ∧ l.intent.state.nonce = some l.nonce := by
    rw [hintent]
    exact ⟨rfl, rfl⟩
  have hregistered : exec (atomicReplaceJson smooth.write fun reg =>
      reg.register l.intent.slot (registrationRecord l)) reg =
      (.ok (), reg.register l.intent.slot (registrationRecord l)) := rfl
  unfold registerGate
  rw [exec_bind_ok (exec_readValidSlot_ok hfile hvalid)]
  refine Eq.trans (exec_ensure rfl) (Eq.trans (exec_ensure hstate) ?_)
  change exec (replaceRegistration smooth l.intent.slot (registrationRecord l)) reg = _
  unfold replaceRegistration
  have hoptional : optional (fun registration : GateRegistration => (do
      ensure (registration.schemaVersion = gateSchemaVersion)
        "Condition failed: `registration.schema_version == GATE_SCHEMA_VERSION`"
      ensure (registration.slot = l.intent.slot) "Condition failed: `registration.slot == slot`"
      ensure (registration.generation = (registrationRecord l).generation)
        "Condition failed: `registration.generation == next.generation`" : Result Unit))
      (registrationRecord l).registration = .ok () := by
    refine optional_eq_ok.mpr fun registration hsome => ?_
    rw [← Option.some.inj hsome]
    exact bind_eq_ok.mpr ⟨(), require_eq_ok.mpr rfl,
      bind_eq_ok.mpr ⟨(), require_eq_ok.mpr rfl, require_eq_ok.mpr rfl⟩⟩
  refine Eq.trans (exec_ensure ⟨rfl, rfl⟩) ?_
  rw [exec_lift_bind hoptional, exec_bind_ok hregistered]
  refine (exec_bind_ok (exec_readRegistration hslot)).trans ?_
  have hsame : ensure (registrationRecord l = registrationRecord l)
      "Condition failed: `self.read_registration(slot)? == *next`" = .ok () := require_eq_ok.mpr rfl
  rw [exec_lift, hsame]

/-- The record of the process of a launch. -/
def identified (l : Launch) : SlotRecord :=
  { l.intent with
    schemaVersion := slotSchemaVersion
    state := .identityDurable l.nonce l.identity true }

theorem identified_valid (hvalid : l.intent.Valid) {created : ℕ}
    (hintent : l.intent.state = .intentDurable l.nonce created) :
    (identified l).Valid ∧ validateTransition l.intent (identified l) = .ok () := by
  have hnonce : l.intent.state.nonce = some l.nonce := by
    rw [hintent]
    rfl
  refine ⟨⟨rfl, hvalid.owner, fun binding hbinding => ?_, fun hvacant => (by cases hvacant),
    fun nonce hsome => ?_⟩, ?_⟩
  · obtain ⟨hbindingValid, howner, hnonce', hquarantine⟩ := hvalid.binding binding hbinding
    refine ⟨hbindingValid, howner, hnonce.symm.trans hnonce', fun hsome => ?_⟩
    have htombstone := hquarantine hsome
    rw [hintent] at htombstone
    cases htombstone
  · rw [← Option.some.inj hsome]
    exact hvalid.nonce l.nonce hnonce
  · have hstable : ownerStable l.intent (identified l) = .ok true := by
      simp [ownerStable, hintent, identified]
    have hmoves : stateMoves l.intent (identified l) = true := by
      simp [stateMoves, hintent, identified]
    simp only [validateTransition, bind_eq_ok, exists_unit, require_eq_ok]
    exact ⟨hvalid.schemaVersion, rfl, rfl, true, hstable, rfl, Or.inr rfl, Or.inr hmoves⟩

theorem exec_receiveHello (hfile : reg.file l.intent.slot = .record l.intent)
    (hvalid : l.intent.Valid) {created : ℕ} (hintent : l.intent.state = .intentDurable l.nonce created)
    (hslot : l.intent.slot < reg.registrations.length) :
    exec (receiveHello ⟨.ok (), .present (), ⟨none, smooth⟩⟩ l.intent l.nonce l.identity.pid (helloOf l))
      (reg.register l.intent.slot (registrationRecord l)) =
      (.ok l.identity,
        (reg.register l.intent.slot (registrationRecord l)).install l.intent (identified l)) := by
  obtain ⟨hvalid', htransition⟩ := identified_valid hvalid hintent
  have hfile' : (reg.register l.intent.slot (registrationRecord l)).file l.intent.slot =
      .record l.intent := hfile
  have hrecord : exec (recordIdentity ⟨none, smooth⟩ l.intent (helloOf l).registration)
      (reg.register l.intent.slot (registrationRecord l)) = (.ok (identified l),
        (reg.register l.intent.slot (registrationRecord l)).install l.intent (identified l)) := by
    unfold recordIdentity
    rw [hintent]
    simp only
    refine Eq.trans (exec_ensure rfl) (Eq.trans (exec_ensure rfl) (Eq.trans (exec_ensure rfl) ?_))
    refine (exec_bind_ok (exec_readRegistration hslot)).trans (Eq.trans (exec_ensure rfl) ?_)
    exact exec_bind_ok (replaceSlot_done hfile' hvalid htransition hvalid')
  unfold receiveHello
  refine Eq.trans (exec_ensure rfl) (Eq.trans (exec_ensure rfl) (Eq.trans (exec_ensure rfl) ?_))
  refine Eq.trans (exec_ensure rfl) (Eq.trans (exec_ensure rfl) ?_)
  refine (exec_lift_bind (a := ()) rfl).trans ((exec_lift_bind (a := ()) rfl).trans ?_)
  exact exec_bind_ok hrecord

/-- The check of the gate passes on the record of its identity. -/
theorem exec_receiveCommit (hfile : reg.file l.intent.slot = .record (identified l))
    (hvalid : (identified l).Valid) (hbound : Bound l.auxiliary l.intent.artifactBinding) :
    exec (receiveCommit ⟨.ok (), none, fun _ => .ok (), .present l.identity, .ok ()⟩ l.intent.slot
      l.intent.generation l.nonce l.identity (commitOf l.intent l.nonce l.identity l.auxiliary)) reg =
      (.ok (), reg) := by
  have hfile' : reg.file (identified l).slot = .record (identified l) := hfile
  have hread : exec (readValidSlot none l.intent.slot) reg = (.ok (identified l), reg) :=
    exec_readValidSlot_ok hfile' hvalid
  obtain ⟨hdirectory, hsocket⟩ := hbound.checks
  unfold receiveCommit
  refine Eq.trans (exec_ensure (validDescriptors l.auxiliary)) ?_
  refine (exec_lift_bind (a := ()) rfl).trans ?_
  refine Eq.trans (exec_ensure rfl) (Eq.trans (exec_ensure ⟨rfl, rfl, rfl⟩) ?_)
  refine Eq.trans (exec_ensure rfl) ?_
  refine (exec_bind_ok hread).trans (Eq.trans (exec_ensure rfl) ?_)
  refine (exec_lift_bind hdirectory).trans ((exec_lift_bind hsocket).trans (Eq.trans (exec_ensure rfl) ?_))
  rfl

/-- **A launch in which nothing fails gets to its target.** It may start from any registry with its
intent on file; then the target is executed, the launcher succeeds, and the record is that of the
process. -/
theorem launch_completes (reg : Registry) (l : Launch)
    (hfile : reg.file l.intent.slot = .record l.intent) (hvalid : l.intent.Valid)
    (hspawn : spawn l.intent l.auxiliary l.identity = some l)
    (hslot : l.intent.slot < reg.registrations.length)
    (hbound : Bound l.auxiliary l.intent.artifactBinding) :
    (acts reg l (undisturbed l.identity)).2.gate = .target ∧
      (acts reg l (undisturbed l.identity)).2.launcher = .launched l.identity ∧
      (acts reg l (undisturbed l.identity)).1.file l.intent.slot = .record (identified l) := by
  obtain ⟨⟨⟨created, hintent⟩, -⟩, -⟩ := spawn_sound reg hspawn
  have hstart : l.launcher = .awaitsHello ∧ l.gate = .started ∧ l.packets = [] := by
    unfold spawn at hspawn
    rw [hintent] at hspawn
    have heq := Option.some.inj hspawn
    rw [← heq]
    exact ⟨rfl, rfl, rfl⟩
  obtain ⟨hlauncher, hgate, hpackets⟩ := hstart
  have hvalid' := (identified_valid hvalid hintent).1
  -- the registry after the registration, and after the record of the identity
  let reg₁ := reg.register l.intent.slot (registrationRecord l)
  let reg₂ := reg₁.install l.intent (identified l)
  have hfile₁ : reg₁.file l.intent.slot = .record l.intent := hfile
  have hfile₂ : reg₂.file l.intent.slot = .record (identified l) := file_install_self hfile₁
  have hregister : act reg l (.register none smooth) = (reg₁, { l with gate := .registered }) := by
    simp only [Gate.act, hgate, if_true, Gate.register,
      exec_registerGate hfile hvalid hintent hslot, nextStage]
    rfl
  have hhello : act reg₁ { l with gate := .registered } .sendHello =
      (reg₁, { l with gate := .awaitsCommit, packets := [.hello (helloOf l)] }) := by
    simp only [Gate.act, if_true, hpackets, List.nil_append]
    rfl
  have hreceived : act reg₁ { l with gate := .awaitsCommit, packets := [.hello (helloOf l)] }
      (.receiveHello ⟨.ok (), .present (), ⟨none, smooth⟩⟩) =
      (reg₂, { l with gate := .awaitsCommit, packets := [], launcher := .identified l.identity }) := by
    simp only [Gate.act, hlauncher, if_true, Gate.receive]
    rw [exec_receiveHello hfile hvalid hintent hslot]
    rfl
  have hchecked : act reg₂ { l with
      gate := .awaitsCommit, packets := [], launcher := .awaitsExec l.identity
      commit := some (commitOf l.intent l.nonce l.identity l.auxiliary) }
      (.receiveCommit ⟨.ok (), none, fun _ => .ok (), .present l.identity, .ok ()⟩) =
      (reg₂, { l with
        gate := .checked, packets := [], launcher := .awaitsExec l.identity
        commit := some (commitOf l.intent l.nonce l.identity l.auxiliary) }) := by
    simp only [Gate.act, if_true, Gate.checkCommit]
    rw [exec_receiveCommit hfile₂ hvalid' hbound]
    rfl
  have hlast : acts reg l (undisturbed l.identity) = (reg₂, { l with
      gate := .target, packets := [], launcher := .launched l.identity
      commit := some (commitOf l.intent l.nonce l.identity l.auxiliary) }) := by
    unfold acts undisturbed
    rw [List.foldl_cons, hregister, List.foldl_cons, hhello, List.foldl_cons, hreceived,
      List.foldl_cons, List.foldl_cons]
    change List.foldl _ (act reg₂ { l with
      gate := .awaitsCommit, packets := [], launcher := .awaitsExec l.identity
      commit := some (commitOf l.intent l.nonce l.identity l.auxiliary) } _) _ = _
    rw [hchecked]
    rfl
  rw [hlast]
  exact ⟨rfl, rfl, hfile₂⟩

/-! ### A launch -/

/-- A launch from the first slot. -/
def sampleLaunch : Launch where
  intent := ⟨slotSchemaVersion, 0, 1, none, none, .intentDurable 1 5⟩
  nonce := 1
  auxiliary := .syncPipeWrite
  identity := ⟨1, 1, 1, 1⟩
  launcher := .awaitsHello
  gate := .started
  packets := []
  commit := none

/-- A registry of one slot, with the intent of the launch. -/
def sampleRegistry : Registry where
  slotsPath := "slots"
  slots := [.record sampleLaunch.intent]
  registrations := [some ⟨gateSchemaVersion, 0, 1, none⟩]
  replaced := []

theorem launch_completes_sample :
    (acts sampleRegistry sampleLaunch (undisturbed ⟨1, 1, 1, 1⟩)).2.gate = .target :=
  (launch_completes sampleRegistry sampleLaunch rfl
    (validateSlotRecord_eq_ok.mp (by decide : validateSlotRecord sampleLaunch.intent 0 = .ok ())).1 rfl
    (by decide) fun _ _ hnone => by cases hnone).1

/-- The launch up to its COMMIT; then its cleanup begins. -/
def overtaken : List Event :=
  .spawn sampleLaunch.intent .syncPipeWrite ⟨1, 1, 1, 1⟩ ::
    ((undisturbed ⟨1, 1, 1, 1⟩).take 4).map (.act 0) ++
    [.operation (.cleanup ⟨true, none, true, none, smooth, fun _ => .absent, none, none, fun _ => .absent,
      none, smooth⟩ 0 1)]

/-- The rest of the launch. -/
def late : List Event := ((undisturbed ⟨1, 1, 1, 1⟩).drop 4).map (.act 0)

theorem cleanup_excludes_release_overtaken :
    ((run ⟨sampleRegistry, []⟩ (overtaken ++ late)).launches[0]?.getD sampleLaunch).gate.released =
      false :=
  cleanup_excludes_release sampleRegistry overtaken late 0
    ((run ⟨sampleRegistry, []⟩ overtaken).launches[0]?.getD sampleLaunch) _
    { identified sampleLaunch with state := .cleanupPending 1 ⟨1, 1, 1, 1⟩ true }
    { identified sampleLaunch with state := .cleanupPending 1 ⟨1, 1, 1, 1⟩ true }
    (by decide) (by decide) (by decide) (by decide) (by decide)
    (by decide) (by decide) (by decide)

end LightTerminal.LaunchRegistry.Gate
