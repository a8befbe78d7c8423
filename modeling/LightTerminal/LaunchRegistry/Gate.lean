import LightTerminal.LaunchRegistry.Operations

/-! # Launches through the gate

A launch starts a gate, which is to become the target (`run_gate`). The gate registers its identity and
sends HELLO; the launcher records the identity and sends COMMIT; the gate checks that it is recorded and
executes the target (`launch_managed_process`). Packets of the gate that the launcher has not received
wait in `packets`, and the COMMIT in `commit`.

Launcher and gate can fail or die at any time, and other operations on the registry can come between
any two of their steps. The steps of one are those that end with a durable change, a packet sent or the
target executed. The files that a COMMIT carries are in the module on descriptors. -/

namespace LightTerminal.LaunchRegistry.Gate

open LightTerminal.Data.Text LightTerminal.Library LightTerminal.Library.Procedure
open LightTerminal.LaunchRegistry.Record LightTerminal.LaunchRegistry.Artifacts
open LightTerminal.LaunchRegistry.Store LightTerminal.LaunchRegistry.Operations

/-! ### Packets -/

/-- `CommitDescriptorRole`. -/
inductive CommitDescriptorRole where
  | targetExecutable
  | syncPipeWrite
  | pinnedRunner
  | pinnedCandidateDirectory
  | pinnedControlDirectory
  | pinnedControlSocket
  deriving DecidableEq, Repr

/-- `CommitDescriptor`. -/
structure CommitDescriptor where
  role : CommitDescriptorRole
  targetFd : Option ℕ
  directoryIdentity : Option ManagedDirectoryIdentity
  deriving DecidableEq, Repr

/-- `GateHello`. -/
structure GateHello where
  protocol : String
  registration : GateRegistration
  deriving DecidableEq, Repr

/-- `GateCommit`. -/
structure GateCommit where
  protocol : String
  slot : ℕ
  generation : ℕ
  nonce : Uuid
  identity : ProcessIdentity
  descriptors : List CommitDescriptor
  deriving DecidableEq, Repr

/-- `GateExecFailure`. -/
structure GateExecFailure where
  protocol : String
  errno : Option ℤ
  message : String
  deriving DecidableEq, Repr

/-- What a gate sends. -/
inductive Packet where
  | hello (hello : GateHello)
  | execFailure (failure : GateExecFailure)
  deriving DecidableEq, Repr

/-! ### Descriptors of a COMMIT -/

/-- `MANAGED_SYNC_PIPE_TARGET_FD`. -/
def managedSyncPipeTargetFd : ℕ := 10

/-- `MANAGED_PINNED_RUNNER_TARGET_FD`. -/
def managedPinnedRunnerTargetFd : ℕ := 11

/-- `MANAGED_PINNED_CANDIDATE_DIRECTORY_TARGET_FD`. -/
def managedPinnedCandidateDirectoryTargetFd : ℕ := 12

/-- `MANAGED_PINNED_CONTROL_DIRECTORY_TARGET_FD`. -/
def managedPinnedControlDirectoryTargetFd : ℕ := 13

/-- `MANAGED_PINNED_CONTROL_SOCKET_TARGET_FD`. -/
def managedPinnedControlSocketTargetFd : ℕ := 14

/-- `ManagedAuxiliary`. The target FD of each part is the one of its constructor. -/
inductive ManagedAuxiliary where
  | none
  | syncPipeWrite
  | speculation (candidateDirectory controlDirectory : ManagedDirectoryIdentity)
  deriving DecidableEq, Repr

/-- The descriptors of a COMMIT. -/
def ManagedAuxiliary.descriptors : ManagedAuxiliary → List CommitDescriptor
  | .none => [⟨.targetExecutable, .none, .none⟩]
  | .syncPipeWrite =>
    [⟨.targetExecutable, .none, .none⟩, ⟨.syncPipeWrite, some managedSyncPipeTargetFd, .none⟩]
  | .speculation candidateDirectory controlDirectory =>
    [⟨.targetExecutable, .none, .none⟩, ⟨.syncPipeWrite, some managedSyncPipeTargetFd, .none⟩,
      ⟨.pinnedRunner, some managedPinnedRunnerTargetFd, .none⟩,
      ⟨.pinnedCandidateDirectory, some managedPinnedCandidateDirectoryTargetFd,
        some candidateDirectory⟩,
      ⟨.pinnedControlDirectory, some managedPinnedControlDirectoryTargetFd, some controlDirectory⟩,
      ⟨.pinnedControlSocket, some managedPinnedControlSocketTargetFd, .none⟩]

/-- The shapes of a COMMIT that `recv_commit_with_fds` accepts. -/
def ValidDescriptors (descriptors : List CommitDescriptor) : Prop :=
  descriptors = ManagedAuxiliary.none.descriptors ∨
    descriptors = ManagedAuxiliary.syncPipeWrite.descriptors ∨
    ∃ candidate ∈ descriptors[3]?.bind CommitDescriptor.directoryIdentity,
      ∃ control ∈ descriptors[4]?.bind CommitDescriptor.directoryIdentity,
        descriptors = (ManagedAuxiliary.speculation candidate control).descriptors

instance decidableValidDescriptors (descriptors : List CommitDescriptor) :
    Decidable (ValidDescriptors descriptors) :=
  inferInstanceAs (Decidable (_ ∨ _ ∨ _))

/-! ### The launcher -/

/-- What the system answers to the launcher when HELLO is there. -/
structure HelloIo where
  placement : Result Unit
  openVerifiedPidfd : Evidence Unit
  identity : IdentityIo

/-- `open_verified_pidfd` in `launch_managed_process`. -/
def verifyGate : Evidence Unit → Result Unit
  | .present () => return ()
  | .absent => .error (.error "managed gate exited before identity promotion")
  | .unavailable reason => .error (.error ("managed gate identity unavailable: " ++ reason))

/-- `launch_managed_process` from HELLO to the durable identity. -/
def receiveHello (io : HelloIo) (intent : SlotRecord) (nonce : Uuid) (child : ℕ) (hello : GateHello) :
    Op ProcessIdentity := do
  ensure (hello.protocol = "lterm-managed-hello-v1")
    "Condition failed: `hello.protocol == \"lterm-managed-hello-v1\"`"
  ensure (hello.registration.slot = intent.slot)
    "Condition failed: `hello.registration.slot == intent.record.slot`"
  ensure (hello.registration.generation = intent.generation)
    "Condition failed: `hello.registration.generation == intent.record.generation`"
  ensure (hello.registration.nonce = nonce) "Condition failed: `hello.registration.nonce == nonce`"
  ensure (hello.registration.identity.pid = child)
    "Condition failed: `hello.registration.identity.pid == ..`"
  io.placement
  verifyGate io.openVerifiedPidfd
  let record ← recordIdentity io.identity intent hello.registration
  context record.state.identity "internal error: entered unreachable code"

/-- The COMMIT of a launch. -/
def commitOf (intent : SlotRecord) (nonce : Uuid) (identity : ProcessIdentity)
    (auxiliary : ManagedAuxiliary) : GateCommit where
  protocol := "lterm-managed-commit-v1"
  slot := intent.slot
  generation := intent.generation
  nonce
  identity
  descriptors := auxiliary.descriptors

/-- The error of `wait_for_gate_exec`, if there is a packet. -/
def execError : Packet → Failure
  | .hello _ => .error "malformed gate exec failure"
  | .execFailure failure =>
    if failure.protocol = "lterm-managed-exec-failure-v1" then
      .error ("managed target exec failed" ++
        (match failure.errno with
          | some errno => " (errno " ++ toString errno ++ ")"
          | none => "") ++ ": " ++ failure.message)
    else .error "Condition failed: `failure.protocol == \"lterm-managed-exec-failure-v1\"`"

/-! ### The gate -/

/-- What the system answers to the gate when COMMIT is there: the checks of the directories and the
socket, of its own identity, and of the target and what is installed. -/
structure CommitIo where
  directories : Result Unit
  read : Option String
  socket : ManagedArtifactIdentity → Result Unit
  observeIdentity : Evidence ProcessIdentity
  install : Result Unit

/-- The control directory has to be the one that is recorded. -/
def checkControlDirectory (binding : Option ManagedArtifactBinding) :
    Option CommitDescriptor → Result Unit
  | none => return ()
  | some descriptor => do
    let expected ← context (binding.bind ManagedArtifactBinding.privateDirectory)
      "speculation COMMIT lacks a durable private directory binding"
    ensure (descriptor.directoryIdentity = some expected)
      "pinned control directory does not match the durable private binding"

/-- The control socket has to be the one that is recorded. -/
def checkControlSocket (socket : ManagedArtifactIdentity → Result Unit)
    (binding : Option ManagedArtifactBinding) : Option CommitDescriptor → Result Unit
  | none => return ()
  | some descriptor => do
    ensure (descriptor.role = .pinnedControlSocket ∧
        descriptor.targetFd = some managedPinnedControlSocketTargetFd)
      "pinned control socket descriptor changed"
    let expected ← context (binding.bind ManagedArtifactBinding.socket)
      "speculation COMMIT lacks a durable socket binding"
    socket expected

/-- `run_gate` from COMMIT to the call of `execveat`. -/
def receiveCommit (io : CommitIo) (slot generation : ℕ) (nonce : Uuid) (identity : ProcessIdentity)
    (commit : GateCommit) : Op Unit := do
  ensure (ValidDescriptors commit.descriptors)
    "COMMIT descriptor roles or target mapping are invalid"
  io.directories
  ensure (commit.protocol = "lterm-managed-commit-v1")
    "Condition failed: `commit.protocol == \"lterm-managed-commit-v1\"`"
  ensure (commit.slot = slot ∧ commit.generation = generation ∧ commit.nonce = nonce)
    "Condition failed: `commit.slot == slot && commit.generation == generation && commit.nonce == nonce`"
  ensure (commit.identity = identity) "Condition failed: `commit.identity == identity`"
  let durable ← readValidSlot io.read slot
  ensure (durable.state = .identityDurable nonce identity true) "Condition failed: `matches!(..)`"
  checkControlDirectory durable.artifactBinding commit.descriptors[4]?
  checkControlSocket io.socket durable.artifactBinding commit.descriptors[5]?
  ensure (io.observeIdentity = .present identity) "Condition failed: `matches!(..)`"
  io.install

/-! ### A launch -/

/-- Where the launcher is: before HELLO, after the record of the identity, after COMMIT, and at its
end. -/
inductive LauncherStage where
  | awaitsHello
  | identified (identity : ProcessIdentity)
  | awaitsExec (identity : ProcessIdentity)
  | launched (identity : ProcessIdentity)
  | failed (failure : Failure)
  deriving DecidableEq, Repr

/-- Where the gate is: before its registration, before HELLO, before COMMIT, and before the target;
then it ended without it, is the target, or was it. -/
inductive GateStage where
  | started
  | registered
  | awaitsCommit
  | checked
  | exited
  | target
  | finished
  deriving DecidableEq, Repr

/-- The target has been executed. -/
def GateStage.released : GateStage → Bool
  | .target => true
  | .finished => true
  | _ => false

/-- The gate has no end of the socket any more. -/
def GateStage.closed : GateStage → Bool
  | .exited => true
  | .target => true
  | .finished => true
  | _ => false

/-- A launch, from the start of its gate. `identity` is that of the gate's process. -/
structure Launch where
  intent : SlotRecord
  nonce : Uuid
  auxiliary : ManagedAuxiliary
  identity : ProcessIdentity
  launcher : LauncherStage
  gate : GateStage
  packets : List Packet
  commit : Option GateCommit
  deriving DecidableEq

/-- `command.spawn` for a reservation with this record. -/
def spawn (intent : SlotRecord) (auxiliary : ManagedAuxiliary) (identity : ProcessIdentity) :
    Option Launch :=
  match intent.state with
  | .intentDurable nonce _ =>
    some ⟨intent, nonce, auxiliary, identity, .awaitsHello, .started, [], none⟩
  | _ => none

/-- A step of launcher or gate, with the answers of the system. -/
inductive Action where
  | register (read : Option String) (io : ReplaceIo)
  | sendHello
  | receiveHello (io : HelloIo)
  | sendCommit
  | receiveCommit (io : CommitIo)
  | exec (failure : Option GateExecFailure)
  | waitForExec (proof : Result Unit)
  | launcherFails (failure : Failure)
  | gateEnds

/-- How a procedure ended that a stage waits for. -/
def nextStage {α Stage : Type} (done : α → Stage) (failed : Failure → Stage) : Result α → Stage
  | .ok a => done a
  | .error failure => failed failure

/-- The registration of the gate. -/
def register (read : Option String) (io : ReplaceIo) (reg : Registry) (l : Launch) : Registry × Launch :=
  let ended := exec (registerGate read io l.intent.slot l.intent.generation l.nonce l.identity) reg
  (ended.2, { l with gate := nextStage (fun _ => .registered) (fun _ => .exited) ended.1 })

/-- HELLO. -/
def helloOf (l : Launch) : GateHello :=
  ⟨"lterm-managed-hello-v1",
    ⟨gateSchemaVersion, l.intent.slot, l.intent.generation, l.nonce, l.identity⟩⟩

/-- The launcher receives the packet that should be HELLO. -/
def receive (io : HelloIo) (reg : Registry) (l : Launch) : Registry × Launch :=
  match l.packets with
  | .hello hello :: packets =>
    let ended := exec (receiveHello io l.intent l.nonce l.identity.pid hello) reg
    (ended.2, { l with packets, launcher := nextStage .identified .failed ended.1 })
  | .execFailure _ :: packets =>
    (reg, { l with packets, launcher := .failed (.error "malformed gate packet") })
  | [] => (reg, l)

/-- The gate receives COMMIT. -/
def checkCommit (io : CommitIo) (reg : Registry) (l : Launch) : Registry × Launch :=
  match l.commit with
  | some commit =>
    let ended := exec (receiveCommit io l.intent.slot l.intent.generation l.nonce l.identity commit) reg
    (ended.2, { l with gate := nextStage (fun _ => .checked) (fun _ => .exited) ended.1 })
  | none => (reg, l)

/-- `execveat`. -/
def execTarget (l : Launch) : Option GateExecFailure → Launch
  | none => { l with gate := .target }
  | some failure => { l with gate := .exited, packets := l.packets ++ [.execFailure failure] }

/-- `wait_for_gate_exec`; `proof` is that of the executable, for a pinned one. -/
def waitForGateExec (proof : Result Unit) (identity : ProcessIdentity) (l : Launch) : Launch :=
  match l.packets with
  | packet :: packets => { l with packets, launcher := .failed (execError packet) }
  | [] =>
    if l.gate.closed then
      { l with launcher := nextStage (fun _ => .launched identity) .failed proof }
    else l

/-- Where the gate goes when it is killed or ends. -/
def GateStage.next : GateStage → GateStage
  | .target => .finished
  | .finished => .finished
  | _ => .exited

/-- A step of a launch. One that is not due leaves everything as it is. -/
def act (reg : Registry) (l : Launch) : Action → Registry × Launch
  | .register read io => if l.gate = .started then register read io reg l else (reg, l)
  | .sendHello =>
    if l.gate = .registered then
      (reg, { l with gate := .awaitsCommit, packets := l.packets ++ [.hello (helloOf l)] })
    else (reg, l)
  | .receiveHello io => if l.launcher = .awaitsHello then receive io reg l else (reg, l)
  | .sendCommit =>
    match l.launcher with
    | .identified identity =>
      (reg, { l with
        launcher := .awaitsExec identity
        commit := some (commitOf l.intent l.nonce identity l.auxiliary) })
    | _ => (reg, l)
  | .receiveCommit io => if l.gate = .awaitsCommit then checkCommit io reg l else (reg, l)
  | .exec failure => if l.gate = .checked then (reg, execTarget l failure) else (reg, l)
  | .waitForExec proof =>
    match l.launcher with
    | .awaitsExec identity => (reg, waitForGateExec proof identity l)
    | _ => (reg, l)
  | .launcherFails failure => (reg, { l with launcher := .failed failure })
  | .gateEnds => (reg, { l with gate := l.gate.next })

/-! ### All launches -/

/-- The registry and the launches so far. -/
structure World where
  reg : Registry
  launches : List Launch

/-- An operation on the registry, the start of a gate, or a step of a launch. -/
inductive Event where
  | operation (operation : Operation)
  | spawn (intent : SlotRecord) (auxiliary : ManagedAuxiliary) (identity : ProcessIdentity)
  | act (index : ℕ) (action : Action)

/-- An event. -/
def step (world : World) : Event → World
  | .operation operation => { world with reg := Operations.step world.reg operation }
  | .spawn intent auxiliary identity =>
    { world with launches := world.launches ++ (spawn intent auxiliary identity).toList }
  | .act index action =>
    match world.launches[index]? with
    | some l =>
      ⟨(act world.reg l action).1, world.launches.set index (act world.reg l action).2⟩
    | none => world

/-- The world after some events. -/
def run (world : World) (events : List Event) : World := Run.run step world events

end LightTerminal.LaunchRegistry.Gate
