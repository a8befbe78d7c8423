import LightTerminal.Speculation.Base64

/-! # An argument list on its way to the runner

A request carries the argument list as `SpeculationArgv` (`protocol.rs`), `validate_exact_argv`
(`speculation_linux.rs`) checks it again before a launch, `argv_frames` cuts it into control frames and
`ArgvAssembler` (`speculation_runner.rs`) puts it together on the other side.

* `fromOsStrings_eq_ok`, `deserialize_eq_ok`, `validateExactArgv_eq_ok`: what each of the three checks
  lets pass. The first two agree; the third refuses an empty argument as well.
* `argvFrames_eq`: the frames of an argument list without empty arguments.
* `receiveArgv_messages`: the assembler makes the list again from these frames.
* `assembled_valid`: whatever it was sent, what the assembler makes passes `validate_exact_argv`. -/

namespace LightTerminal.Speculation.Argv

open LightTerminal.Data.Text LightTerminal.Library LightTerminal.Library.Procedure
open LightTerminal.Speculation.Control LightTerminal.Speculation.Base64

def maxArgvBytes : ℕ := 256 * 1024

def maxArgBytes : ℕ := 64 * 1024

def maxArgvEntries : ℕ := 256

def maxArgvChunkBytes : ℕ := 4 * 1024

/-- An argument list. -/
abbrev Arguments := List (List UInt8)

/-- The bytes of all arguments. -/
def totalBytes (argv : Arguments) : ℕ := (argv.map List.length).sum

@[simp] theorem totalBytes_nil : totalBytes [] = 0 := rfl

@[simp] theorem totalBytes_cons (argument : List UInt8) (argv : Arguments) :
    totalBytes (argument :: argv) = argument.length + totalBytes argv := List.sum_cons

@[simp] theorem totalBytes_append (argv more : Arguments) :
    totalBytes (argv ++ more) = totalBytes argv + totalBytes more := by
  simp [totalBytes]

/-! ### A running total -/

/-- `usize::checked_add`. -/
def checkedAdd (total bytes : ℕ) : Option ℕ :=
  if total + bytes < 2 ^ 64 then some (total + bytes) else none

/-- `checked_add(..).filter(|value| *value <= MAX_ARGV_BYTES)`. -/
def addBytes (total bytes : ℕ) : Option ℕ := (checkedAdd total bytes).filter (· ≤ maxArgvBytes)

@[simp] theorem addBytes_eq_some {total bytes sum : ℕ} :
    addBytes total bytes = some sum ↔ total + bytes ≤ maxArgvBytes ∧ sum = total + bytes := by
  have hmax : maxArgvBytes < 2 ^ 64 := by decide
  unfold addBytes checkedAdd
  split_ifs with h
  · simp only [Option.filter_eq_some_iff, Option.some.injEq, decide_eq_true_eq]
    omega
  · simp only [Option.filter_none, false_iff, reduceCtorEq]
    omega

section Tally

variable {α E : Type} {step : Arguments × ℕ → α → Except E (Arguments × ℕ)}
  {accepts : α → List UInt8 → Prop} (room : ℕ → Prop)

/-- The loops over an argument list: each turn appends one argument that it accepts, if there is room
for one more, and adds its length to a total that is bounded. -/
theorem tally_eq_ok
    (hstep : ∀ acc total x r, step (acc, total) x = .ok r ↔ ∃ argument, accepts x argument ∧
      room acc.length ∧ total + argument.length ≤ maxArgvBytes ∧
      r = (acc ++ [argument], total + argument.length))
    (xs : List α) {acc : Arguments} {total : ℕ} (htotal : total ≤ maxArgvBytes)
    {r : Arguments × ℕ} :
    xs.foldlM step (acc, total) = .ok r ↔ ∃ argv, List.Forall₂ accepts xs argv ∧
      (∀ i < argv.length, room (acc.length + i)) ∧ total + totalBytes argv ≤ maxArgvBytes ∧
      r = (acc ++ argv, total + totalBytes argv) := by
  induction xs generalizing acc total with
  | nil =>
    simp only [List.foldlM_nil, pure_eq_ok, List.forall₂_nil_left_iff, exists_eq_left,
      List.length_nil, totalBytes_nil, List.append_nil, Nat.add_zero, Nat.not_lt_zero]
    constructor
    · rintro rfl
      exact ⟨fun _ h => h.elim, htotal, rfl⟩
    · rintro ⟨-, -, rfl⟩
      rfl
  | cons x xs ih =>
    simp only [List.foldlM_cons, bind_eq_ok, hstep]
    constructor
    · rintro ⟨_, ⟨argument, haccept, hroom, hle, rfl⟩, hrest⟩
      obtain ⟨argv, hall, hrooms, hsum, rfl⟩ := (ih hle).mp hrest
      refine ⟨argument :: argv, .cons haccept hall, ?_, ?_, ?_⟩
      · intro i hi
        cases i with
        | zero => exact hroom
        | succ i =>
          have h := hrooms i (by simpa using hi)
          simp only [List.length_append, List.length_singleton] at h
          rwa [Nat.add_assoc, Nat.add_comm 1 i] at h
      · rw [totalBytes_cons]
        omega
      · rw [totalBytes_cons, List.append_assoc, Nat.add_assoc]
        rfl
    · rintro ⟨_, hall, hrooms, hsum, rfl⟩
      cases hall with
      | cons haccept hall =>
        rename_i argument argv
        rw [totalBytes_cons] at hsum
        refine ⟨_, ⟨argument, haccept, hrooms 0 (by simp), by omega, rfl⟩, ?_⟩
        refine (ih (by omega)).mpr ⟨argv, hall, ?_, by omega, ?_⟩
        · intro i hi
          have h := hrooms (i + 1) (by simpa using hi)
          simp only [List.length_append, List.length_singleton]
          rwa [Nat.add_assoc, Nat.add_comm 1 i]
        · rw [totalBytes_cons, List.append_assoc, Nat.add_assoc]
          rfl

end Tally

/-! ### `SpeculationArgv` -/

/-- `SpeculationWireError`, by its code. -/
abbrev SpeculationWireError := Str

/-- `validate_speculation_argument`. -/
def validateSpeculationArgument (bytes : List UInt8) : Except SpeculationWireError Unit := do
  require (bytes.length ≤ maxArgBytes) "speculation_argument_too_long".toList
  require (0 ∉ bytes) "speculation_interior_nul".toList

/-- `add_speculation_argument_bytes`. -/
def addSpeculationArgumentBytes (total argument : ℕ) : Except SpeculationWireError ℕ :=
  expect (addBytes total argument) "speculation_argv_too_large".toList

/-- One value of `from_os_strings`, with the arguments so far and `total_bytes`. -/
def takeValue (state : Arguments × ℕ) (value : List UInt8) :
    Except SpeculationWireError (Arguments × ℕ) := do
  validateSpeculationArgument value
  let total ← addSpeculationArgumentBytes state.2 value.length
  return (state.1 ++ [value], total)

/-- `SpeculationArgv::from_os_strings`. -/
def fromOsStrings (values : Arguments) : Except SpeculationWireError Arguments := do
  require (values ≠ []) "speculation_empty_argv".toList
  require (values.length ≤ maxArgvEntries) "speculation_too_many_arguments".toList
  let (arguments, _) ← values.foldlM takeValue ([], 0)
  return arguments

/-- The elements that `SpeculationArgv` is serialized as. -/
def serialize (argv : Arguments) : List (List UInt8) := argv.map encodeBase64

/-- One element of `visit_seq`, with the arguments so far and `total_bytes`. -/
def visitElement (state : Arguments × ℕ) (encoded : List UInt8) : Except Str (Arguments × ℕ) := do
  require (state.1.length < maxArgvEntries) "speculation_too_many_arguments".toList
  let argument ← (decodeCanonicalSpeculationBase64 encoded maxArgBytes).mapError fun _ =>
    "invalid speculation argument encoding".toList
  validateSpeculationArgument argument
  let total ← addSpeculationArgumentBytes state.2 argument.length
  return (state.1 ++ [argument], total)

/-- `SpeculationArgv::deserialize`, of an array of strings. -/
def deserialize (elements : List (List UInt8)) : Except Str Arguments := do
  let (arguments, _) ← elements.foldlM visitElement ([], 0)
  require (arguments ≠ []) "speculation_empty_argv".toList
  return arguments

/-- What `SpeculationArgv` holds. -/
structure WireArgv (argv : Arguments) : Prop where
  nonempty : argv ≠ []
  entries : argv.length ≤ maxArgvEntries
  short : ∀ argument ∈ argv, argument.length ≤ maxArgBytes
  noNul : ∀ argument ∈ argv, 0 ∉ argument
  total : totalBytes argv ≤ maxArgvBytes

theorem takeValue_eq_ok (acc : Arguments) (total : ℕ) (value : List UInt8) (r : Arguments × ℕ) :
    takeValue (acc, total) value = .ok r ↔ ∃ argument,
      (argument = value ∧ argument.length ≤ maxArgBytes ∧ 0 ∉ argument) ∧ True ∧
      total + argument.length ≤ maxArgvBytes ∧ r = (acc ++ [argument], total + argument.length) := by
  simp only [takeValue, validateSpeculationArgument, addSpeculationArgumentBytes, bind_eq_ok,
    require_eq_ok, exists_unit, expect_eq_ok, addBytes_eq_some, pure_eq_ok]
  constructor
  · rintro ⟨⟨hlen, hnul⟩, _, ⟨hle, rfl⟩, rfl⟩
    exact ⟨value, ⟨rfl, hlen, hnul⟩, trivial, hle, rfl⟩
  · rintro ⟨_, ⟨rfl, hlen, hnul⟩, -, hle, rfl⟩
    exact ⟨⟨hlen, hnul⟩, _, ⟨hle, rfl⟩, rfl⟩

theorem visitElement_eq_ok (acc : Arguments) (total : ℕ) (encoded : List UInt8)
    (r : Arguments × ℕ) :
    visitElement (acc, total) encoded = .ok r ↔ ∃ argument,
      (encoded = encodeBase64 argument ∧ argument.length ≤ maxArgBytes ∧ 0 ∉ argument) ∧
      acc.length < maxArgvEntries ∧
      total + argument.length ≤ maxArgvBytes ∧ r = (acc ++ [argument], total + argument.length) := by
  have hdecode (argument : List UInt8) : (decodeCanonicalSpeculationBase64 encoded
      maxArgBytes).mapError (fun _ => "invalid speculation argument encoding".toList) =
        .ok argument ↔ encoded = encodeBase64 argument ∧ argument.length ≤ maxArgBytes := by
    rw [← decodeCanonicalSpeculationBase64_eq_ok (by decide)]
    cases decodeCanonicalSpeculationBase64 encoded maxArgBytes <;> simp [Except.mapError]
  simp only [visitElement, validateSpeculationArgument, addSpeculationArgumentBytes, bind_eq_ok,
    require_eq_ok, exists_unit, expect_eq_ok, addBytes_eq_some, pure_eq_ok, hdecode]
  constructor
  · rintro ⟨hroom, argument, ⟨henc, hlen⟩, ⟨-, hnul⟩, _, ⟨hle, rfl⟩, rfl⟩
    exact ⟨argument, ⟨henc, hlen, hnul⟩, hroom, hle, rfl⟩
  · rintro ⟨argument, ⟨henc, hlen, hnul⟩, hroom, hle, rfl⟩
    exact ⟨hroom, argument, ⟨henc, hlen⟩, ⟨hlen, hnul⟩, _, ⟨hle, rfl⟩, rfl⟩

/-- Lists whose members are related by a function that the first come from. -/
theorem forall₂_encoded (encode : List UInt8 → List UInt8) (good : List UInt8 → Prop)
    (xs argv : Arguments) :
    List.Forall₂ (fun x argument => x = encode argument ∧ good argument) xs argv ↔
      xs = argv.map encode ∧ ∀ argument ∈ argv, good argument := by
  induction argv generalizing xs with
  | nil => simp [List.forall₂_nil_right_iff]
  | cons argument argv ih =>
    cases xs with
    | nil => simp
    | cons x xs =>
      simp only [List.forall₂_cons, ih, List.map_cons, List.cons.injEq, List.forall_mem_cons]
      tauto

/-- **The constructor** accepts the lists within the bounds, as they are. -/
theorem fromOsStrings_eq_ok {values argv : Arguments} :
    fromOsStrings values = .ok argv ↔ argv = values ∧ WireArgv argv := by
  have htally (r : Arguments × ℕ) : values.foldlM takeValue ([], 0) = .ok r ↔ _ :=
    tally_eq_ok (fun _ => True) takeValue_eq_ok values (by decide)
  have hforall (argv : Arguments) : List.Forall₂ (fun value argument => argument = value ∧
      argument.length ≤ maxArgBytes ∧ 0 ∉ argument) values argv ↔
      values = argv ∧ ∀ argument ∈ argv, argument.length ≤ maxArgBytes ∧ 0 ∉ argument := by
    simpa [eq_comm] using forall₂_encoded id
      (fun argument => argument.length ≤ maxArgBytes ∧ 0 ∉ argument) values argv
  simp only [fromOsStrings, bind_eq_ok, require_eq_ok, exists_unit, htally, hforall, pure_eq_ok]
  constructor
  · rintro ⟨hne, hlen, _, ⟨argv, ⟨rfl, hgood⟩, -, hsum, rfl⟩, rfl⟩
    refine ⟨by simp, ?_⟩
    exact ⟨by simpa using hne, by simpa using hlen, fun a ha => (hgood a (by simpa using ha)).1,
      fun a ha => (hgood a (by simpa using ha)).2, by simpa using hsum⟩
  · rintro ⟨rfl, h⟩
    exact ⟨h.nonempty, h.entries, _, ⟨argv, ⟨rfl, fun a ha => ⟨h.short a ha, h.noNul a ha⟩⟩,
      by simp, by simpa using h.total, rfl⟩, by simp⟩

/-- **The deserializer** accepts the encodings of the same lists. -/
theorem deserialize_eq_ok {elements : List (List UInt8)} {argv : Arguments} :
    deserialize elements = .ok argv ↔ elements = serialize argv ∧ WireArgv argv := by
  have htally (r : Arguments × ℕ) : elements.foldlM visitElement ([], 0) = .ok r ↔ _ :=
    tally_eq_ok (· < maxArgvEntries) visitElement_eq_ok elements (by decide)
  simp only [deserialize, bind_eq_ok, require_eq_ok, exists_unit, htally, forall₂_encoded,
    pure_eq_ok]
  constructor
  · rintro ⟨_, ⟨argv, ⟨rfl, hgood⟩, hroom, hsum, rfl⟩, hne, rfl⟩
    simp only [List.nil_append, List.length_nil, Nat.zero_add] at *
    refine ⟨rfl, hne, ?_, fun a ha => (hgood a ha).1, fun a ha => (hgood a ha).2, hsum⟩
    have hpos : 0 < argv.length := List.length_pos_iff.mpr hne
    have hlast := hroom (argv.length - 1) (by omega)
    omega
  · rintro ⟨rfl, h⟩
    refine ⟨([] ++ argv, 0 + totalBytes argv), ⟨argv, ⟨rfl, fun a ha => ⟨h.short a ha, h.noNul a ha⟩⟩,
      ?_, by simpa using h.total, rfl⟩, by simpa using h.nonempty, by simp⟩
    intro i hi
    have hentries := h.entries
    simp only [List.length_nil, Nat.zero_add]
    omega

/-! ### `validate_exact_argv` -/

/-- `ContainmentErrorCode`, as far as `validate_exact_argv` fails with it. -/
inductive ContainmentErrorCode where
  | invalidIdentity
  deriving DecidableEq, Repr

/-- What `validate_exact_argv` and `argv_frames` ask of an argument. -/
def exactArgument (bytes : List UInt8) : Prop :=
  ¬(bytes = [] ∨ bytes.length > maxArgBytes ∨ 0 ∈ bytes)

instance (bytes : List UInt8) : Decidable (exactArgument bytes) := by
  unfold exactArgument; infer_instance

/-- One argument of `validate_exact_argv`, with the arguments so far and `total`. -/
def validateExactArgument (state : Arguments × ℕ) (bytes : List UInt8) :
    Except ContainmentErrorCode (Arguments × ℕ) := do
  require (exactArgument bytes) .invalidIdentity
  let total ← expect (addBytes state.2 bytes.length) .invalidIdentity
  return (state.1 ++ [bytes], total)

/-- `validate_exact_argv`. -/
def validateExactArgv (arguments : Arguments) : Except ContainmentErrorCode Arguments := do
  require (¬(arguments = [] ∨ arguments.length > maxArgvEntries)) .invalidIdentity
  let (collected, _) ← arguments.foldlM validateExactArgument ([], 0)
  return collected

/-- What the runner takes: a list that the wire takes, of arguments that are not empty. -/
structure ExactArgv (argv : Arguments) : Prop extends WireArgv argv where
  filled : ∀ argument ∈ argv, argument ≠ []

theorem validateExactArgument_eq_ok (acc : Arguments) (total : ℕ) (bytes : List UInt8)
    (r : Arguments × ℕ) :
    validateExactArgument (acc, total) bytes = .ok r ↔ ∃ argument,
      (argument = bytes ∧ exactArgument argument) ∧ True ∧
      total + argument.length ≤ maxArgvBytes ∧ r = (acc ++ [argument], total + argument.length) := by
  simp only [validateExactArgument, bind_eq_ok, require_eq_ok, exists_unit, expect_eq_ok,
    addBytes_eq_some, pure_eq_ok]
  constructor
  · rintro ⟨hexact, _, ⟨hle, rfl⟩, rfl⟩
    exact ⟨bytes, ⟨rfl, hexact⟩, trivial, hle, rfl⟩
  · rintro ⟨_, ⟨rfl, hexact⟩, -, hle, rfl⟩
    exact ⟨hexact, _, ⟨hle, rfl⟩, rfl⟩

theorem exactArgument_iff {bytes : List UInt8} :
    exactArgument bytes ↔ bytes ≠ [] ∧ bytes.length ≤ maxArgBytes ∧ 0 ∉ bytes := by
  unfold exactArgument
  push Not
  rfl

/-- **`validate_exact_argv`** accepts the lists of the wire without empty arguments. -/
theorem validateExactArgv_eq_ok {arguments argv : Arguments} :
    validateExactArgv arguments = .ok argv ↔ argv = arguments ∧ ExactArgv argv := by
  have htally (r : Arguments × ℕ) : arguments.foldlM validateExactArgument ([], 0) = .ok r ↔ _ :=
    tally_eq_ok (fun _ => True) validateExactArgument_eq_ok arguments (by decide)
  have hforall (argv : Arguments) : List.Forall₂ (fun bytes argument => argument = bytes ∧
      exactArgument argument) arguments argv ↔
      arguments = argv ∧ ∀ argument ∈ argv, exactArgument argument := by
    simpa [eq_comm] using forall₂_encoded id exactArgument arguments argv
  simp only [validateExactArgv, bind_eq_ok, require_eq_ok, exists_unit, htally, hforall, pure_eq_ok]
  simp only [exactArgument_iff]
  constructor
  · rintro ⟨hbounds, _, ⟨argv, ⟨rfl, hgood⟩, -, hsum, rfl⟩, rfl⟩
    push Not at hbounds
    rw [Nat.zero_add] at hsum
    exact ⟨rfl, ⟨hbounds.1, hbounds.2, fun a ha => (hgood a ha).2.1, fun a ha => (hgood a ha).2.2,
      hsum⟩, fun a ha => (hgood a ha).1⟩
  · rintro ⟨rfl, h⟩
    have hentries := h.entries
    refine ⟨?_, _, ⟨argv, ⟨rfl, fun a ha => ⟨h.filled a ha, h.short a ha, h.noNul a ha⟩⟩, by simp,
      by simpa using h.total, rfl⟩, by simp⟩
    rintro (hnil | hlong)
    · exact h.nonempty hnil
    · omega

/-! ### `argv_frames` -/

/-- `slice::chunks`. -/
def chunks (size : ℕ) (bytes : List UInt8) : List (List UInt8) :=
  (List.range ((bytes.length + size - 1) / size)).map fun i => (bytes.drop (i * size)).take size

/-- `try_into` to the width of an argument count or index. -/
def toU16 (n : ℕ) : RunnerResult UInt16 :=
  if n < 2 ^ 16 then .ok (UInt16.ofNat n) else .error .invalidArgv

/-- `try_into` to the width of a length. -/
def toU32 (n : ℕ) : RunnerResult UInt32 :=
  if n < 2 ^ 32 then .ok (UInt32.ofNat n) else .error .invalidArgv

/-- The message of one chunk. -/
def chunkMessage (index : ℕ) (argument : List UInt8) (chunkIndex : ℕ) (chunk : List UInt8) :
    RunnerResult ControlMessage :=
  return .argvChunk (← toU16 index) (← toU32 (chunkIndex * maxArgvChunkBytes))
    (← toU32 argument.length) (encodeBase64 chunk)

/-- A frame is appended, and the sequence number goes up. -/
def pushFrame (identity : RunnerIdentity) (state : List ControlFrame × UInt32)
    (message : ControlMessage) : RunnerResult (List ControlFrame × UInt32) := do
  let sequence ← expect (checkedSucc state.2) .invalidSequence
  return (state.1 ++ [.new identity state.2 message], sequence)

/-- The loop over the chunks of one argument. -/
def pushArgument (identity : RunnerIdentity) (state : List ControlFrame × UInt32)
    (indexed : List UInt8 × ℕ) : RunnerResult (List ControlFrame × UInt32) :=
  (chunks maxArgvChunkBytes indexed.1).zipIdx.foldlM (fun state chunk => do
    pushFrame identity state (← chunkMessage indexed.2 indexed.1 chunk.2 chunk.1)) state

section Serde

variable (toVec : ControlFrame → Option (List UInt8))

/-- `encode_frame`, with `serde_json::to_vec`. -/
def encodeFrame (frame : ControlFrame) : RunnerResult (List UInt8) := do
  let bytes ← expect (toVec frame) .invalidFrame
  require (¬(bytes = [] ∨ bytes.length > maxControlFrameBytes)) .oversizedFrame
  return bytes

/-- The sum of `argv_frames`. -/
def addArgument (total : ℕ) (argument : List UInt8) : RunnerResult ℕ := do
  require (exactArgument argument) .invalidArgv
  expect (addBytes total argument.length) .invalidArgv

/-- `argv_frames`. -/
def argvFrames (identity : RunnerIdentity) (startingSequence : UInt32) (arguments : Arguments) :
    RunnerResult (List ControlFrame) := do
  require (¬(arguments = [] ∨ arguments.length > maxArgvEntries)) .invalidArgv
  let total ← arguments.foldlM addArgument 0
  let begin ← pure (.argvBegin (← toU16 arguments.length) (← toU32 total))
  let state ← pushFrame identity ([], startingSequence) begin
  let (frames, sequence) ← arguments.zipIdx.foldlM (pushArgument identity) state
  let frames := frames ++ [.new identity sequence .argvEnd]
  frames.forM fun frame => discard (encodeFrame toVec frame)
  return frames

end Serde

/-! ### `ArgvAssembler` -/

/-- `ArgvAssembler`. -/
structure ArgvAssembler where
  expectedCount : ℕ
  expectedTotal : ℕ
  arguments : Arguments
  currentIndex : ℕ
  receivedTotal : ℕ
  deriving DecidableEq, Repr

/-- `ArgvAssembler::begin`. -/
def ArgvAssembler.begin (argumentCount : UInt16) (totalBytes : UInt32) :
    RunnerResult ArgvAssembler := do
  require (¬(argumentCount.toNat = 0 ∨ argumentCount.toNat > maxArgvEntries ∨
    totalBytes.toNat > maxArgvBytes)) .invalidArgv
  return {
    expectedCount := argumentCount.toNat
    expectedTotal := totalBytes.toNat
    arguments := List.replicate argumentCount.toNat []
    currentIndex := 0
    receivedTotal := 0 }

/-- `ArgvAssembler::push_chunk`. No sum here comes near the end of `usize`. -/
def ArgvAssembler.pushChunk (assembler : ArgvAssembler) (argumentIndex : UInt16)
    (offset total : UInt32) (data : List UInt8) : RunnerResult ArgvAssembler := do
  let index := argumentIndex.toNat
  let argument := assembler.arguments.getD index []
  require (¬(index ≠ assembler.currentIndex ∨ index ≥ assembler.expectedCount ∨
    total.toNat > maxArgBytes ∨ offset.toNat ≠ argument.length)) .invalidArgv
  let decoded ← decodeCanonicalBase64 data
  require (¬(decoded = [] ∨ decoded.length > maxArgvChunkBytes ∨ 0 ∈ decoded ∨
    offset.toNat + decoded.length > total.toNat ∨
    assembler.receivedTotal + decoded.length > assembler.expectedTotal)) .invalidArgv
  return { assembler with
    arguments := assembler.arguments.set index (argument ++ decoded)
    receivedTotal := assembler.receivedTotal + decoded.length
    currentIndex :=
      if argument.length + decoded.length = total.toNat then assembler.currentIndex + 1
      else assembler.currentIndex }

/-- `ArgvAssembler::finish`. -/
def ArgvAssembler.finish (assembler : ArgvAssembler) : RunnerResult Arguments := do
  require (¬(assembler.currentIndex ≠ assembler.expectedCount ∨
    assembler.receivedTotal ≠ assembler.expectedTotal ∨ [] ∈ assembler.arguments)) .invalidArgv
  return assembler.arguments

/-- The loop of `run_internal_runner` after `ArgvBegin`; the list is what it receives. -/
def receiveChunks (assembler : ArgvAssembler) : List ControlMessage → RunnerResult Arguments
  | .argvChunk argumentIndex offset total data :: rest => do
    receiveChunks (← assembler.pushChunk argumentIndex offset total data) rest
  | .argvEnd :: _ => assembler.finish
  | _ :: _ => throw .invalidSequence
  | [] => throw .io

/-- How `run_internal_runner` receives an argument list. -/
def receiveArgv : List ControlMessage → RunnerResult Arguments
  | .argvBegin argumentCount totalBytes :: rest => do
    receiveChunks (← ArgvAssembler.begin argumentCount totalBytes) rest
  | _ :: _ => throw .invalidSequence
  | [] => throw .io

/-! ### What the assembler makes -/

/-- What one chunk does. -/
theorem pushChunk_eq_ok {assembler next : ArgvAssembler} {argumentIndex : UInt16}
    {offset total : UInt32} {data : List UInt8} :
    assembler.pushChunk argumentIndex offset total data = .ok next ↔
      argumentIndex.toNat = assembler.currentIndex ∧
      assembler.currentIndex < assembler.expectedCount ∧ total.toNat ≤ maxArgBytes ∧
      offset.toNat = (assembler.arguments.getD assembler.currentIndex []).length ∧
      ∃ decoded, decodeCanonicalBase64 data = .ok decoded ∧ decoded ≠ [] ∧
        decoded.length ≤ maxArgvChunkBytes ∧ 0 ∉ decoded ∧
        offset.toNat + decoded.length ≤ total.toNat ∧
        assembler.receivedTotal + decoded.length ≤ assembler.expectedTotal ∧
        next = { assembler with
          arguments := assembler.arguments.set assembler.currentIndex
            (assembler.arguments.getD assembler.currentIndex [] ++ decoded)
          receivedTotal := assembler.receivedTotal + decoded.length
          currentIndex :=
            if offset.toNat + decoded.length = total.toNat then assembler.currentIndex + 1
            else assembler.currentIndex } := by
  simp only [ArgvAssembler.pushChunk, bind_eq_ok, require_eq_ok, exists_unit, pure_eq_ok]
  push Not
  constructor
  · rintro ⟨⟨hindex, hcount, htotal, hoffset⟩, decoded, hdecode, ⟨hne, hlen, hnul, hfit, hsum⟩, rfl⟩
    rw [hindex] at hcount hoffset ⊢
    rw [← hoffset]
    exact ⟨rfl, hcount, htotal, rfl, decoded, hdecode, hne, hlen, hnul, hfit, hsum, rfl⟩
  · rintro ⟨hindex, hcount, htotal, hoffset, decoded, hdecode, hne, hlen, hnul, hfit, hsum, rfl⟩
    rw [hindex]
    refine ⟨⟨rfl, hcount, htotal, hoffset⟩, decoded, hdecode, ⟨hne, hlen, hnul, hfit, hsum⟩, ?_⟩
    rw [hoffset]

theorem totalBytes_set {argv : Arguments} {i : ℕ} (hi : i < argv.length) (more : List UInt8) :
    totalBytes (argv.set i (argv.getD i [] ++ more)) = totalBytes argv + more.length := by
  induction argv generalizing i with
  | nil => simp at hi
  | cons argument argv ih =>
    cases i with
    | zero =>
      simp only [List.set_cons_zero, List.getD_cons_zero, totalBytes_cons, List.length_append]
      omega
    | succ i =>
      have h := ih (by simpa using hi)
      simp only [List.set_cons_succ, List.getD_cons_succ, totalBytes_cons, h]
      omega

/-- What holds of an assembler at all times. -/
structure ArgvAssembler.Sound (assembler : ArgvAssembler) : Prop where
  count : assembler.arguments.length = assembler.expectedCount
  nonzero : assembler.expectedCount ≠ 0
  entries : assembler.expectedCount ≤ maxArgvEntries
  bound : assembler.receivedTotal ≤ assembler.expectedTotal
  limit : assembler.expectedTotal ≤ maxArgvBytes
  received : assembler.receivedTotal = totalBytes assembler.arguments
  short : ∀ argument ∈ assembler.arguments, argument.length ≤ maxArgBytes
  noNul : ∀ argument ∈ assembler.arguments, 0 ∉ argument

theorem begin_sound {argumentCount : UInt16} {total : UInt32} {assembler : ArgvAssembler}
    (h : ArgvAssembler.begin argumentCount total = .ok assembler) : assembler.Sound := by
  simp only [ArgvAssembler.begin, bind_eq_ok, require_eq_ok, exists_unit, pure_eq_ok] at h
  obtain ⟨hbounds, rfl⟩ := h
  push Not at hbounds
  have hzero (n : ℕ) : totalBytes (List.replicate n []) = 0 := by
    simp [totalBytes]
  constructor
  · simp
  · exact hbounds.1
  · exact hbounds.2.1
  · simp
  · exact hbounds.2.2
  · simp [hzero]
  · intro argument hmem
    simp [(List.mem_replicate.mp hmem).2]
  · intro argument hmem
    simp [(List.mem_replicate.mp hmem).2]

theorem pushChunk_sound {assembler next : ArgvAssembler} {argumentIndex : UInt16}
    {offset total : UInt32} {data : List UInt8} (hs : assembler.Sound)
    (h : assembler.pushChunk argumentIndex offset total data = .ok next) : next.Sound := by
  obtain ⟨-, hcount, htotal, hoffset, decoded, -, -, -, hnul, hfit, hsum, rfl⟩ :=
    pushChunk_eq_ok.mp h
  have hi : assembler.currentIndex < assembler.arguments.length := hs.count ▸ hcount
  have hold : assembler.arguments.getD assembler.currentIndex [] ∈ assembler.arguments := by
    rw [List.getD_eq_getElem?_getD, List.getElem?_eq_getElem hi]
    exact List.getElem_mem hi
  constructor
  · simpa using hs.count
  · exact hs.nonzero
  · exact hs.entries
  · exact hsum
  · exact hs.limit
  · simp only [totalBytes_set hi, hs.received]
  · intro argument hmem
    rcases List.mem_or_eq_of_mem_set hmem with hmem | rfl
    · exact hs.short argument hmem
    · rw [List.length_append]
      omega
  · intro argument hmem
    rcases List.mem_or_eq_of_mem_set hmem with hmem | rfl
    · exact hs.noNul argument hmem
    · simpa using ⟨hs.noNul _ hold, hnul⟩

theorem finish_exact {assembler : ArgvAssembler} {argv : Arguments} (hs : assembler.Sound)
    (h : assembler.finish = .ok argv) : ExactArgv argv := by
  simp only [ArgvAssembler.finish, bind_eq_ok, require_eq_ok, exists_unit, pure_eq_ok] at h
  obtain ⟨hdone, rfl⟩ := h
  push Not at hdone
  refine ⟨⟨?_, ?_, hs.short, hs.noNul, ?_⟩, ?_⟩
  · intro hnil
    have hcount := hs.count
    rw [hnil] at hcount
    exact hs.nonzero hcount.symm
  · rw [hs.count]
    exact hs.entries
  · rw [← hs.received]
    exact hs.bound.trans hs.limit
  · intro argument hmem hnil
    exact hdone.2.2 (hnil ▸ hmem)

theorem receiveChunks_exact {assembler : ArgvAssembler} {messages : List ControlMessage}
    {argv : Arguments} (hs : assembler.Sound) (h : receiveChunks assembler messages = .ok argv) :
    ExactArgv argv := by
  induction messages generalizing assembler with
  | nil => cases h
  | cons message messages ih =>
    cases message with
    | argvChunk argumentIndex offset total data =>
      obtain ⟨next, hpush, hrest⟩ := bind_eq_ok.mp h
      exact ih (pushChunk_sound hs hpush) hrest
    | argvEnd => exact finish_exact hs h
    | _ => cases h

/-- **Whatever the assembler was sent, what it makes passes `validate_exact_argv`.** -/
theorem assembled_valid {messages : List ControlMessage} {argv : Arguments}
    (h : receiveArgv messages = .ok argv) : validateExactArgv argv = .ok argv := by
  refine validateExactArgv_eq_ok.mpr ⟨rfl, ?_⟩
  cases messages with
  | nil => cases h
  | cons message messages =>
    cases message with
    | argvBegin argumentCount totalBytes =>
      obtain ⟨assembler, hbegin, hrest⟩ := bind_eq_ok.mp h
      exact receiveChunks_exact (begin_sound hbegin) hrest
    | _ => cases h

/-! ### The frames of an argument list -/

/-- The chunk with number `i` of an argument. -/
def chunkAt (argument : List UInt8) (i : ℕ) : List UInt8 :=
  (argument.drop (i * maxArgvChunkBytes)).take maxArgvChunkBytes

/-- The number of chunks of an argument. -/
def chunkCount (argument : List UInt8) : ℕ :=
  (argument.length + maxArgvChunkBytes - 1) / maxArgvChunkBytes

/-- The message of a chunk. -/
def chunkMessageAt (index : ℕ) (argument : List UInt8) (i : ℕ) : ControlMessage :=
  .argvChunk (UInt16.ofNat index) (UInt32.ofNat (i * maxArgvChunkBytes))
    (UInt32.ofNat argument.length) (encodeBase64 (chunkAt argument i))

/-- The messages of the arguments from `index` on. -/
def messagesFrom (index : ℕ) : Arguments → List ControlMessage
  | [] => []
  | argument :: rest =>
    (List.range (chunkCount argument)).map (chunkMessageAt index argument) ++
      messagesFrom (index + 1) rest

/-- The messages of an argument list. -/
def argvMessages (argv : Arguments) : List ControlMessage :=
  .argvBegin (UInt16.ofNat argv.length) (UInt32.ofNat (totalBytes argv)) ::
    (messagesFrom 0 argv ++ [.argvEnd])

/-- Messages in frames that are numbered from `n` on. -/
def framesFrom (identity : RunnerIdentity) : ℕ → List ControlMessage → List ControlFrame
  | _, [] => []
  | n, message :: rest =>
    .new identity (UInt32.ofNat n) message :: framesFrom identity (n + 1) rest

theorem framesFrom_append (identity : RunnerIdentity) (n : ℕ) (messages more : List ControlMessage) :
    framesFrom identity n (messages ++ more) =
      framesFrom identity n messages ++ framesFrom identity (n + messages.length) more := by
  induction messages generalizing n with
  | nil => rfl
  | cons message messages ih =>
    simp only [List.cons_append, framesFrom, ih, List.length_cons]
    rw [Nat.add_assoc, Nat.add_comm 1]

@[simp] theorem length_framesFrom (identity : RunnerIdentity) (n : ℕ)
    (messages : List ControlMessage) : (framesFrom identity n messages).length = messages.length := by
  induction messages generalizing n with
  | nil => rfl
  | cons message messages ih => simp [framesFrom, ih]

@[simp] theorem map_message_framesFrom (identity : RunnerIdentity) (n : ℕ)
    (messages : List ControlMessage) :
    (framesFrom identity n messages).map ControlFrame.message = messages := by
  induction messages generalizing n with
  | nil => rfl
  | cons message messages ih => simp [framesFrom, ih, ControlFrame.new]

/-- The frames have consecutive numbers. -/
theorem framesFrom_sequence (identity : RunnerIdentity) {n : ℕ} {messages : List ControlMessage}
    (h : n + messages.length ≤ 2 ^ 32) {i : ℕ} {frame : ControlFrame}
    (hi : (framesFrom identity n messages)[i]? = some frame) : frame.sequence.toNat = n + i := by
  induction messages generalizing n i with
  | nil => simp [framesFrom] at hi
  | cons message messages ih =>
    rw [List.length_cons] at h
    cases i with
    | zero =>
      obtain rfl : ControlFrame.new identity (UInt32.ofNat n) message = frame := by
        simpa [framesFrom] using hi
      simp only [ControlFrame.new, UInt32.toNat_ofNat']
      omega
    | succ i =>
      have hrest := ih (n := n + 1) (by omega) (by simpa [framesFrom] using hi)
      omega

theorem pushFrame_ofNat (identity : RunnerIdentity) {n : ℕ} (h : n + 1 < 2 ^ 32)
    (frames : List ControlFrame) (message : ControlMessage) :
    pushFrame identity (frames, UInt32.ofNat n) message =
      .ok (frames ++ framesFrom identity n [message], UInt32.ofNat (n + 1)) := by
  simp only [pushFrame, bind_eq_ok, expect_eq_ok, pure_eq_ok]
  exact ⟨_, checkedSucc_eq_some h, rfl⟩

/-- A loop that appends a frame in each turn. -/
theorem foldlM_pushFrame {α : Type} {identity : RunnerIdentity}
    {step : List ControlFrame × UInt32 → α → RunnerResult (List ControlFrame × UInt32)}
    {message : α → ControlMessage} {xs : List α}
    (hstep : ∀ x ∈ xs, ∀ state, step state x = pushFrame identity state (message x)) {n : ℕ}
    (h : n + xs.length < 2 ^ 32) (frames : List ControlFrame) :
    xs.foldlM step (frames, UInt32.ofNat n) =
      .ok (frames ++ framesFrom identity n (xs.map message), UInt32.ofNat (n + xs.length)) := by
  induction xs generalizing n frames with
  | nil => simp [framesFrom, pure, Except.pure]
  | cons x xs ih =>
    rw [List.length_cons] at h
    simp only [List.foldlM_cons, hstep x List.mem_cons_self, bind_eq_ok]
    refine ⟨_, pushFrame_ofNat identity (by omega) frames (message x), ?_⟩
    rw [ih (fun y hy => hstep y (List.mem_cons_of_mem _ hy)) (by omega)]
    simp only [framesFrom, List.map_cons, List.length_cons, List.append_assoc, List.cons_append,
      List.nil_append]
    rw [Nat.add_assoc, Nat.add_comm 1]

theorem chunkMessage_eq {index i : ℕ} {argument : List UInt8} (hindex : index < maxArgvEntries)
    (hlen : argument.length ≤ maxArgBytes) (hi : i < chunkCount argument) :
    chunkMessage index argument i (chunkAt argument i) = .ok (chunkMessageAt index argument i) := by
  have hoffset : i * maxArgvChunkBytes < argument.length := by
    unfold chunkCount maxArgvChunkBytes at *
    omega
  unfold maxArgvEntries maxArgBytes at *
  simp only [chunkMessage, toU16, toU32, bind_eq_ok, pure_eq_ok]
  refine ⟨_, if_pos (by omega), _, if_pos (by omega), _, if_pos (by omega), rfl⟩

theorem zipIdx_chunks (argument : List UInt8) :
    (chunks maxArgvChunkBytes argument).zipIdx =
      (List.range (chunkCount argument)).map fun i => (chunkAt argument i, i) := by
  refine List.ext_getElem ?_ fun i _ _ => ?_
  · simp [chunks, chunkCount]
  · simp [chunks, chunkAt]

/-- The frames of one argument. -/
theorem pushArgument_eq {identity : RunnerIdentity} {index n : ℕ} {argument : List UInt8}
    (hindex : index < maxArgvEntries) (hlen : argument.length ≤ maxArgBytes)
    (h : n + chunkCount argument < 2 ^ 32) (frames : List ControlFrame) :
    pushArgument identity (frames, UInt32.ofNat n) (argument, index) =
      .ok (frames ++ framesFrom identity n
          ((List.range (chunkCount argument)).map (chunkMessageAt index argument)),
        UInt32.ofNat (n + chunkCount argument)) := by
  have hstep : ∀ i ∈ List.range (chunkCount argument), ∀ state : List ControlFrame × UInt32,
      (do pushFrame identity state (← chunkMessage index argument i (chunkAt argument i))) =
        pushFrame identity state (chunkMessageAt index argument i) := by
    intro i hi state
    rw [chunkMessage_eq hindex hlen (List.mem_range.mp hi)]
    rfl
  have hloop := foldlM_pushFrame hstep (by simpa using h) frames
  rw [List.length_range] at hloop
  unfold pushArgument
  rw [zipIdx_chunks, List.foldlM_map]
  exact hloop

/-- The frames of the arguments from `index` on. -/
theorem foldlM_pushArgument (identity : RunnerIdentity) {argv : Arguments} (index : ℕ) {n : ℕ}
    (hindex : index + argv.length ≤ maxArgvEntries)
    (hlen : ∀ argument ∈ argv, argument.length ≤ maxArgBytes)
    (h : n + (messagesFrom index argv).length < 2 ^ 32) (frames : List ControlFrame) :
    (argv.zipIdx index).foldlM (pushArgument identity) (frames, UInt32.ofNat n) =
      .ok (frames ++ framesFrom identity n (messagesFrom index argv),
        UInt32.ofNat (n + (messagesFrom index argv).length)) := by
  induction argv generalizing index n frames with
  | nil => simp [messagesFrom, framesFrom, pure, Except.pure]
  | cons argument argv ih =>
    simp only [messagesFrom, List.length_cons, List.length_append, List.length_map,
      List.length_range] at hindex h
    simp only [List.zipIdx_cons, List.foldlM_cons, bind_eq_ok]
    refine ⟨_, pushArgument_eq (by omega) (hlen argument List.mem_cons_self) (by omega) frames, ?_⟩
    rw [ih (index + 1) (by omega) (fun a ha => hlen a (List.mem_cons_of_mem _ ha)) (by omega)]
    simp only [messagesFrom, framesFrom_append, List.append_assoc, List.length_append,
      List.length_map, List.length_range, Nat.add_assoc]

/-! ### The size of a frame -/

/-- A number in JSON. -/
def number (n : ℕ) : List UInt8 := Utf8.encode (decimal n)

/-- The JSON text of a frame with a given text for the message. -/
def frameText (identity : RunnerIdentity) (sequence : UInt32) (message : List UInt8) : List UInt8 :=
  bytesOf "\x7b\"protocol\":\"" ++ controlProtocol ++ bytesOf "\",\"identity\":\x7b" ++
    bytesOf "\"tournament_uuid\":\"" ++ Utf8.encode (Uuid.hyphenated identity.tournamentUuid) ++
    bytesOf "\",\"candidate_index\":" ++ number identity.candidateIndex.toNat ++
    bytesOf ",\"generation\":" ++ number identity.generation.toNat ++
    bytesOf "\x7d,\"sequence\":" ++ number sequence.toNat ++
    bytesOf ",\"message\":" ++ message ++ bytesOf "\x7d"

def beginText (argumentCount : UInt16) (totalBytes : UInt32) : List UInt8 :=
  bytesOf "\x7b\"type\":\"argv_begin\",\"argument_count\":" ++ number argumentCount.toNat ++
    bytesOf ",\"total_bytes\":" ++ number totalBytes.toNat ++ bytesOf "\x7d"

def chunkText (argumentIndex : UInt16) (offset total : UInt32) (data : List UInt8) : List UInt8 :=
  bytesOf "\x7b\"type\":\"argv_chunk\",\"argument_index\":" ++ number argumentIndex.toNat ++
    bytesOf ",\"offset\":" ++ number offset.toNat ++ bytesOf ",\"total\":" ++ number total.toNat ++
    bytesOf ",\"data\":\"" ++ data ++ bytesOf "\"\x7d"

def endText : List UInt8 := bytesOf "\x7b\"type\":\"argv_end\"\x7d"

/-- What is known of `serde_json::to_vec`: the frames of an argument list are written as JSON without
spaces, the fields in the order of the types. No byte of a base64 text is escaped. -/
structure WritesCompact (toVec : ControlFrame → Option (List UInt8)) : Prop where
  argvBegin : ∀ identity sequence argumentCount totalBytes,
    toVec (.new identity sequence (.argvBegin argumentCount totalBytes)) =
      some (frameText identity sequence (beginText argumentCount totalBytes))
  argvChunk : ∀ identity sequence argumentIndex offset total chunk,
    toVec (.new identity sequence (.argvChunk argumentIndex offset total (encodeBase64 chunk))) =
      some (frameText identity sequence (chunkText argumentIndex offset total (encodeBase64 chunk)))
  argvEnd : ∀ identity sequence,
    toVec (.new identity sequence .argvEnd) = some (frameText identity sequence endText)

theorem length_encode_le (text : Str) : (Utf8.encode text).length ≤ 4 * text.length := by
  induction text with
  | nil => simp
  | cons ch text ih =>
    have hsize := Char.utf8Size_le_four ch
    simp only [Utf8.encode_cons, List.length_append, String.length_utf8EncodeChar, List.length_cons]
    omega

theorem length_number_le {n k : ℕ} (hk : 0 < k) (h : n < 10 ^ k) : (number n).length ≤ 4 * k := by
  have hdigits : (decimal n).length ≤ k := (Nat.length_toDigits_le_iff (by decide) hk).mpr h
  exact (length_encode_le _).trans (Nat.mul_le_mul_left 4 hdigits)

theorem length_hyphenated_le (uuid : Uuid) :
    (Utf8.encode (Uuid.hyphenated uuid)).length ≤ 144 := by
  have hhex (n value : ℕ) : (hexDigits n value).length = n := by
    induction n generalizing value with
    | zero => rfl
    | succ n ih => simp [hexDigits, ih]
  have hlen : (Uuid.hyphenated uuid).length = 36 := by
    simp [Uuid.hyphenated, Uuid.simple, hhex]
  have h := length_encode_le (Uuid.hyphenated uuid)
  omega

theorem length_frameText_le (identity : RunnerIdentity) (sequence : UInt32)
    (message : List UInt8) :
    (frameText identity sequence message).length ≤ 480 + message.length := by
  have h1 : (bytesOf "\x7b\"protocol\":\"").length ≤ 16 := by decide
  have h2 : controlProtocol.length ≤ 32 := by decide
  have h3 : (bytesOf "\",\"identity\":\x7b").length ≤ 16 := by decide
  have h4 : (bytesOf "\"tournament_uuid\":\"").length ≤ 24 := by decide
  have h5 : (bytesOf "\",\"candidate_index\":").length ≤ 24 := by decide
  have h6 : (bytesOf ",\"generation\":").length ≤ 16 := by decide
  have h7 : (bytesOf "\x7d,\"sequence\":").length ≤ 16 := by decide
  have h8 : (bytesOf ",\"message\":").length ≤ 16 := by decide
  have h9 : (bytesOf "\x7d").length ≤ 4 := by decide
  have huuid := length_hyphenated_le identity.tournamentUuid
  have hindex : (number identity.candidateIndex.toNat).length ≤ 4 * 3 :=
    length_number_le (by decide) (by have := identity.candidateIndex.toNat_lt; omega)
  have hgeneration : (number identity.generation.toNat).length ≤ 4 * 20 :=
    length_number_le (by decide) (by have := identity.generation.toNat_lt; omega)
  have hsequence : (number sequence.toNat).length ≤ 4 * 10 :=
    length_number_le (by decide) (by have := sequence.toNat_lt; omega)
  simp only [frameText, List.length_append]
  omega

theorem length_number16_le (n : UInt16) : (number n.toNat).length ≤ 20 :=
  length_number_le (k := 5) (by decide) (by have := n.toNat_lt; omega)

theorem length_number32_le (n : UInt32) : (number n.toNat).length ≤ 40 :=
  length_number_le (k := 10) (by decide) (by have := n.toNat_lt; omega)

theorem length_beginText_le (argumentCount : UInt16) (totalBytes : UInt32) :
    (beginText argumentCount totalBytes).length ≤ 200 := by
  have h1 : (bytesOf "\x7b\"type\":\"argv_begin\",\"argument_count\":").length ≤ 48 := by decide
  have h2 : (bytesOf ",\"total_bytes\":").length ≤ 16 := by decide
  have h3 : (bytesOf "\x7d").length ≤ 4 := by decide
  have hcount := length_number16_le argumentCount
  have htotal := length_number32_le totalBytes
  simp only [beginText, List.length_append]
  omega

theorem length_chunkText_le (argumentIndex : UInt16) (offset total : UInt32) (data : List UInt8) :
    (chunkText argumentIndex offset total data).length ≤ 220 + data.length := by
  have h1 : (bytesOf "\x7b\"type\":\"argv_chunk\",\"argument_index\":").length ≤ 48 := by decide
  have h2 : (bytesOf ",\"offset\":").length ≤ 16 := by decide
  have h3 : (bytesOf ",\"total\":").length ≤ 16 := by decide
  have h4 : (bytesOf ",\"data\":\"").length ≤ 16 := by decide
  have h5 : (bytesOf "\"\x7d").length ≤ 4 := by decide
  have hindex := length_number16_le argumentIndex
  have hoffset := length_number32_le offset
  have htotal := length_number32_le total
  simp only [chunkText, List.length_append]
  omega

/-- A frame whose text is not too long is sent. -/
theorem encodeFrame_eq_ok {toVec : ControlFrame → Option (List UInt8)} {frame : ControlFrame}
    {identity : RunnerIdentity} {sequence : UInt32} {message : List UInt8}
    (h : toVec frame = some (frameText identity sequence message)) (hlen : message.length ≤ 7000) :
    encodeFrame toVec frame = .ok (frameText identity sequence message) := by
  have hle := length_frameText_le identity sequence message
  have hne : frameText identity sequence message ≠ [] := by
    simp only [frameText, ne_eq, List.append_eq_nil_iff, not_and]
    intros
    decide
  simp only [encodeFrame, h, bind_eq_ok, expect_eq_ok, require_eq_ok, exists_unit, pure_eq_ok]
  refine ⟨_, rfl, ?_, rfl⟩
  unfold maxControlFrameBytes
  rintro (hnil | hlong)
  · exact hne hnil
  · omega

theorem mem_messagesFrom {argv : Arguments} {index : ℕ} {message : ControlMessage}
    (h : message ∈ messagesFrom index argv) :
    ∃ index argument i, message = chunkMessageAt index argument i := by
  induction argv generalizing index with
  | nil => simp [messagesFrom] at h
  | cons argument argv ih =>
    rcases List.mem_append.mp h with h | h
    · obtain ⟨i, -, rfl⟩ := List.mem_map.mp h
      exact ⟨index, argument, i, rfl⟩
    · exact ih h

/-- Every frame of an argument list can be sent. -/
theorem encodeFrame_argvMessages {toVec : ControlFrame → Option (List UInt8)}
    (h : WritesCompact toVec) (identity : RunnerIdentity) (sequence : UInt32) {argv : Arguments}
    {message : ControlMessage} (hmem : message ∈ argvMessages argv) :
    ∃ bytes, encodeFrame toVec (.new identity sequence message) = .ok bytes := by
  simp only [argvMessages, List.mem_cons, List.mem_append, List.not_mem_nil, or_false] at hmem
  rcases hmem with rfl | hmem | rfl
  · have hlen := length_beginText_le (UInt16.ofNat argv.length) (UInt32.ofNat (totalBytes argv))
    exact ⟨_, encodeFrame_eq_ok (h.argvBegin ..) (by omega)⟩
  · obtain ⟨index, argument, i, rfl⟩ := mem_messagesFrom hmem
    have hlen := length_chunkText_le (UInt16.ofNat index) (UInt32.ofNat (i * maxArgvChunkBytes))
      (UInt32.ofNat argument.length) (encodeBase64 (chunkAt argument i))
    have hdata := length_encodeBase64 (chunkAt argument i)
    have hchunk : (chunkAt argument i).length ≤ 4096 := by
      simp [chunkAt, maxArgvChunkBytes]
    exact ⟨_, encodeFrame_eq_ok (h.argvChunk ..) (by omega)⟩
  · exact ⟨_, encodeFrame_eq_ok (h.argvEnd ..) (by decide)⟩

/-! ### From the daemon to the runner -/

theorem foldlM_addArgument {argv : Arguments} (hexact : ∀ argument ∈ argv, exactArgument argument)
    (total : ℕ) (htotal : total + totalBytes argv ≤ maxArgvBytes) :
    argv.foldlM addArgument total = .ok (total + totalBytes argv) := by
  induction argv generalizing total with
  | nil => rfl
  | cons argument argv ih =>
    rw [totalBytes_cons] at htotal ⊢
    simp only [List.foldlM_cons, addArgument, bind_eq_ok, require_eq_ok, exists_unit, expect_eq_ok,
      addBytes_eq_some]
    refine ⟨_, ⟨hexact argument List.mem_cons_self, by omega, rfl⟩, ?_⟩
    rw [ih (fun a ha => hexact a (List.mem_cons_of_mem _ ha)) _ (by omega), Nat.add_assoc]

theorem mem_framesFrom {identity : RunnerIdentity} {n : ℕ} {messages : List ControlMessage}
    {frame : ControlFrame} (h : frame ∈ framesFrom identity n messages) :
    ∃ sequence, ∃ message ∈ messages, frame = .new identity sequence message := by
  induction messages generalizing n with
  | nil => cases h
  | cons message messages ih =>
    rcases List.mem_cons.mp h with rfl | h
    · exact ⟨_, message, List.mem_cons_self, rfl⟩
    · obtain ⟨sequence, message, hmem, rfl⟩ := ih h
      exact ⟨sequence, message, List.mem_cons_of_mem _ hmem, rfl⟩

theorem forM_encodeFrame {toVec : ControlFrame → Option (List UInt8)} {frames : List ControlFrame}
    (h : ∀ frame ∈ frames, ∃ bytes, encodeFrame toVec frame = .ok bytes) :
    frames.forM (fun frame => discard (encodeFrame toVec frame)) = .ok () := by
  induction frames with
  | nil => rfl
  | cons frame frames ih =>
    obtain ⟨bytes, hbytes⟩ := h frame List.mem_cons_self
    have hfirst : discard (encodeFrame toVec frame) = .ok () := by
      rw [hbytes]
      rfl
    exact bind_eq_ok.mpr ⟨(), hfirst, ih fun f hf => h f (List.mem_cons_of_mem _ hf)⟩

/-- **The frames of an argument list**, if there are numbers for them. -/
theorem argvFrames_eq {toVec : ControlFrame → Option (List UInt8)} (h : WritesCompact toVec)
    (identity : RunnerIdentity) {sequence : UInt32} {argv : Arguments} (hexact : ExactArgv argv)
    (hroom : sequence.toNat + (argvMessages argv).length ≤ 2 ^ 32) :
    argvFrames toVec identity sequence argv =
      .ok (framesFrom identity sequence.toNat (argvMessages argv)) := by
  have hbounds : ¬(argv = [] ∨ argv.length > maxArgvEntries) := by
    rintro (hnil | hlong)
    · exact hexact.nonempty hnil
    · exact absurd hexact.entries (by omega)
  have hsum : argv.foldlM addArgument 0 = .ok (totalBytes argv) := by
    simpa using foldlM_addArgument (fun a ha => exactArgument_iff.mpr ⟨hexact.filled a ha,
      hexact.short a ha, hexact.noNul a ha⟩) 0 (by simpa using hexact.total)
  have hentries := hexact.entries
  have htotal := hexact.total
  unfold maxArgvEntries maxArgvBytes at *
  have h16 : toU16 argv.length = .ok (UInt16.ofNat argv.length) := if_pos (by omega)
  have h32 : toU32 (totalBytes argv) = .ok (UInt32.ofNat (totalBytes argv)) := if_pos (by omega)
  have hlength : (argvMessages argv).length = (messagesFrom 0 argv).length + 2 := by
    simp [argvMessages]
  have hbegin := pushFrame_ofNat identity (n := sequence.toNat) (by omega) []
    (.argvBegin (UInt16.ofNat argv.length) (UInt32.ofNat (totalBytes argv)))
  have hloop := foldlM_pushArgument identity 0 (n := sequence.toNat + 1)
    (by unfold maxArgvEntries; omega) hexact.short (by omega)
    ([] ++ framesFrom identity sequence.toNat
      [.argvBegin (UInt16.ofNat argv.length) (UInt32.ofNat (totalBytes argv))])
  have hall : (framesFrom identity sequence.toNat (argvMessages argv)).forM
      (fun frame => discard (encodeFrame toVec frame)) = .ok () := by
    refine forM_encodeFrame fun frame hframe => ?_
    obtain ⟨sequence, message, hmem, rfl⟩ := mem_framesFrom hframe
    exact encodeFrame_argvMessages h identity sequence hmem
  have hframes : framesFrom identity sequence.toNat (argvMessages argv) =
      [] ++ framesFrom identity sequence.toNat
        [.argvBegin (UInt16.ofNat argv.length) (UInt32.ofNat (totalBytes argv))] ++
        framesFrom identity (sequence.toNat + 1) (messagesFrom 0 argv) ++
        [.new identity (UInt32.ofNat (sequence.toNat + 1 + (messagesFrom 0 argv).length))
          .argvEnd] := by
    simp [argvMessages, framesFrom, framesFrom_append]
  rw [UInt32.ofNat_toNat] at hbegin
  simp only [argvFrames, bind_eq_ok, require_eq_ok, exists_unit, pure_eq_ok]
  refine ⟨hbounds, _, hsum, _, h16, _, h32, _, rfl, _, hbegin, _, hloop, ?_, ?_⟩
  · rw [← hframes]
    exact hall
  · exact hframes.symm

/-- A validator takes the messages of chunks. -/
theorem accept_chunks {identity : RunnerIdentity} {n : ℕ} {messages : List ControlMessage}
    (hmessages : ∀ message ∈ messages, ∃ index argument i, message = chunkMessageAt index argument i)
    (h : n + messages.length < 2 ^ 32) :
    (framesFrom identity n messages).foldlM SequenceValidator.accept
        { identity, nextSequence := UInt32.ofNat n, state := .argvChunkOrEnd } =
      .ok { identity, nextSequence := UInt32.ofNat (n + messages.length),
            state := .argvChunkOrEnd } := by
  induction messages generalizing n with
  | nil => rfl
  | cons message messages ih =>
    obtain ⟨index, argument, i, rfl⟩ := hmessages message List.mem_cons_self
    rw [List.length_cons] at h ⊢
    simp only [framesFrom, List.foldlM_cons, bind_eq_ok]
    refine ⟨_, SequenceValidator.accept_new (by omega) rfl, ?_⟩
    rw [ih (fun m hm => hmessages m (List.mem_cons_of_mem _ hm)) (by omega), Nat.add_assoc,
      Nat.add_comm 1]

/-- **A validator takes all frames of an argument list**, in their order. -/
theorem accept_argvMessages {identity : RunnerIdentity} {sequence : UInt32} {argv : Arguments}
    (h : sequence.toNat + (argvMessages argv).length < 2 ^ 32) :
    (framesFrom identity sequence.toNat (argvMessages argv)).foldlM SequenceValidator.accept
        { identity, nextSequence := sequence, state := .argvBegin } =
      .ok { identity, nextSequence := UInt32.ofNat (sequence.toNat + (argvMessages argv).length),
            state := .ready } := by
  have hlength : (argvMessages argv).length = (messagesFrom 0 argv).length + 2 := by
    simp [argvMessages]
  have hnext : SequenceState.next identity .argvBegin (.argvBegin (UInt16.ofNat argv.length)
      (UInt32.ofNat (totalBytes argv))) = .ok .argvChunkOrEnd := rfl
  have hbegin := SequenceValidator.accept_new (n := sequence.toNat) (by omega) hnext
  rw [UInt32.ofNat_toNat] at hbegin
  rw [hlength]
  simp only [argvMessages, framesFrom, framesFrom_append, List.foldlM_cons, List.foldlM_append,
    bind_eq_ok, UInt32.ofNat_toNat]
  refine ⟨_, hbegin, _, accept_chunks (fun m hm => mem_messagesFrom hm) (by omega), _,
    SequenceValidator.accept_new (by omega) rfl, ?_⟩
  rw [List.foldlM_nil]
  rw [show sequence.toNat + 1 + (messagesFrom 0 argv).length + 1 =
    sequence.toNat + ((messagesFrom 0 argv).length + 2) by omega]
  rfl

section Assembling

variable {argument : List UInt8} {done later : Arguments} {expectedTotal received : ℕ}

/-- The assembler after `i` chunks of an argument: the arguments before it are complete, those after
it have not been begun. -/
def assembling (done later : Arguments) (expectedTotal received : ℕ) (argument : List UInt8)
    (i : ℕ) : ArgvAssembler where
  expectedCount := done.length + 1 + later.length
  expectedTotal := expectedTotal
  arguments := done ++ argument.take (i * maxArgvChunkBytes) :: later
  currentIndex :=
    if argument.length ≤ i * maxArgvChunkBytes then done.length + 1 else done.length
  receivedTotal := received + (argument.take (i * maxArgvChunkBytes)).length

/-- One chunk of an argument. -/
theorem pushChunk_assembling (hcount : done.length < maxArgvEntries)
    (hlen : argument.length ≤ maxArgBytes) (hnul : 0 ∉ argument)
    (htotal : received + argument.length ≤ expectedTotal) {i : ℕ} (hi : i < chunkCount argument) :
    (assembling done later expectedTotal received argument i).pushChunk (UInt16.ofNat done.length)
        (UInt32.ofNat (i * maxArgvChunkBytes)) (UInt32.ofNat argument.length)
        (encodeBase64 (chunkAt argument i)) =
      .ok (assembling done later expectedTotal received argument (i + 1)) := by
  have hoffset : i * maxArgvChunkBytes < argument.length := by
    unfold chunkCount maxArgvChunkBytes at *
    omega
  unfold maxArgvEntries at hcount
  unfold maxArgBytes at hlen
  have hindex16 : (UInt16.ofNat done.length).toNat = done.length := by
    rw [UInt16.toNat_ofNat']
    omega
  have hoffset32 : (UInt32.ofNat (i * maxArgvChunkBytes)).toNat = i * maxArgvChunkBytes := by
    rw [UInt32.toNat_ofNat']
    omega
  have hlen32 : (UInt32.ofNat argument.length).toNat = argument.length := by
    rw [UInt32.toNat_ofNat']
    omega
  have hcurrent : (assembling done later expectedTotal received argument i).currentIndex =
      done.length := if_neg (by omega)
  have hget : (done ++ argument.take (i * maxArgvChunkBytes) :: later).getD done.length [] =
      argument.take (i * maxArgvChunkBytes) := by
    simp
  have htake : (argument.take (i * maxArgvChunkBytes)).length = i * maxArgvChunkBytes := by
    rw [List.length_take]
    omega
  have hchunk : (chunkAt argument i).length =
      min maxArgvChunkBytes (argument.length - i * maxArgvChunkBytes) := by
    simp [chunkAt]
  have hpos : 0 < maxArgvChunkBytes := by decide
  have hne : chunkAt argument i ≠ [] := by
    rw [← List.length_pos_iff]
    omega
  have happend : argument.take (i * maxArgvChunkBytes) ++ chunkAt argument i =
      argument.take ((i + 1) * maxArgvChunkBytes) := by
    rw [chunkAt, Nat.succ_mul, List.take_add]
  have hset (argument' : List UInt8) : (done ++ argument.take (i * maxArgvChunkBytes) ::
      later).set done.length argument' = done ++ argument' :: later := by
    simp
  have hmul : (i + 1) * maxArgvChunkBytes = i * maxArgvChunkBytes + maxArgvChunkBytes :=
    Nat.succ_mul ..
  have hnext := congrArg List.length happend
  rw [List.length_append, htake] at hnext
  have hsucc : (argument.take ((i + 1) * maxArgvChunkBytes)).length =
      min ((i + 1) * maxArgvChunkBytes) argument.length := List.length_take
  refine pushChunk_eq_ok.mpr ⟨?_, ?_, ?_, ?_, chunkAt argument i,
    decodeCanonicalBase64_encode hne, hne, ?_, ?_, ?_, ?_, ?_⟩
  · rw [hindex16, hcurrent]
  · rw [hcurrent]
    simp only [assembling]
    omega
  · unfold maxArgBytes
    omega
  · rw [hcurrent, hoffset32]
    exact (congrArg List.length hget).trans htake |>.symm
  · omega
  · exact fun hmem => hnul (List.mem_of_mem_drop (List.mem_of_mem_take hmem))
  · omega
  · simp only [assembling, htake]
    omega
  · rw [hcurrent, hoffset32, hlen32]
    simp only [assembling, hget, happend, hset, htake]
    have hsum : received + i * maxArgvChunkBytes + (chunkAt argument i).length =
        received + (argument.take ((i + 1) * maxArgvChunkBytes)).length := by omega
    have hdone : i * maxArgvChunkBytes + (chunkAt argument i).length = argument.length ↔
        argument.length ≤ (i + 1) * maxArgvChunkBytes := by omega
    rw [hsum]
    simp only [hdone]

/-- All chunks of an argument. -/
theorem receiveChunks_argument (hcount : done.length < maxArgvEntries)
    (hlen : argument.length ≤ maxArgBytes) (hnul : 0 ∉ argument)
    (htotal : received + argument.length ≤ expectedTotal) (rest : List ControlMessage) {i : ℕ}
    (hi : i ≤ chunkCount argument) :
    receiveChunks (assembling done later expectedTotal received argument 0)
        ((List.range i).map (chunkMessageAt done.length argument) ++ rest) =
      receiveChunks (assembling done later expectedTotal received argument i) rest := by
  induction i generalizing rest with
  | zero => rfl
  | succ i ih =>
    rw [List.range_succ, List.map_append, List.append_assoc, ih _ (by omega)]
    simp only [List.map_cons, List.map_nil, List.cons_append, List.nil_append, chunkMessageAt,
      receiveChunks]
    rw [pushChunk_assembling hcount hlen hnul htotal (by omega)]
    rfl

/-- The assembler between two arguments. -/
def assembled (done : Arguments) (remaining expectedTotal : ℕ) : ArgvAssembler where
  expectedCount := done.length + remaining
  expectedTotal := expectedTotal
  arguments := done ++ List.replicate remaining []
  currentIndex := done.length
  receivedTotal := totalBytes done

theorem assembling_zero (hne : argument ≠ []) :
    assembling done (List.replicate later.length []) expectedTotal (totalBytes done) argument 0 =
      assembled done (later.length + 1) expectedTotal := by
  have hlen : ¬argument.length ≤ 0 := by
    rw [not_le]
    exact List.length_pos_iff.mpr hne
  simp [assembling, assembled, hne, List.replicate_succ]
  omega

theorem assembling_last :
    assembling done (List.replicate later.length []) expectedTotal (totalBytes done) argument
        (chunkCount argument) =
      assembled (done ++ [argument]) later.length expectedTotal := by
  have hall : argument.length ≤ chunkCount argument * maxArgvChunkBytes := by
    unfold chunkCount maxArgvChunkBytes
    omega
  simp [assembling, assembled, hall, List.take_of_length_le hall]

/-- The rest of an argument list. -/
theorem receiveChunks_messagesFrom (done : Arguments) {argv : Arguments} (hexact : ∀ argument ∈ argv,
      argument ≠ [] ∧ argument.length ≤ maxArgBytes ∧ 0 ∉ argument)
    (hcount : done.length + argv.length ≤ maxArgvEntries)
    (htotal : totalBytes done + totalBytes argv ≤ expectedTotal) (rest : List ControlMessage) :
    receiveChunks (assembled done argv.length expectedTotal)
        (messagesFrom done.length argv ++ rest) =
      receiveChunks (assembled (done ++ argv) 0 expectedTotal) rest := by
  induction argv generalizing done with
  | nil => simp [messagesFrom]
  | cons argument argv ih =>
    obtain ⟨hne, hlen, hnul⟩ := hexact argument List.mem_cons_self
    rw [List.length_cons] at hcount
    rw [totalBytes_cons] at htotal
    have hrest := ih (done ++ [argument]) (fun a ha => hexact a (List.mem_cons_of_mem _ ha))
      (by simp only [List.length_append, List.length_singleton]; omega)
      (by simp only [totalBytes_append, totalBytes_cons, totalBytes_nil]; omega)
    rw [List.length_cons, ← assembling_zero hne, messagesFrom, List.append_assoc,
      receiveChunks_argument (by omega) hlen hnul (by omega) _ (le_refl _), assembling_last]
    simpa using hrest

end Assembling

/-- **The runner puts the argument list together again.** -/
theorem receiveArgv_messages {argv : Arguments} (hexact : ExactArgv argv) :
    receiveArgv (argvMessages argv) = .ok argv := by
  have hentries := hexact.entries
  have htotal := hexact.total
  have hcount16 : (UInt16.ofNat argv.length).toNat = argv.length := by
    rw [UInt16.toNat_ofNat']
    unfold maxArgvEntries at hentries
    omega
  have htotal32 : (UInt32.ofNat (totalBytes argv)).toNat = totalBytes argv := by
    rw [UInt32.toNat_ofNat']
    unfold maxArgvBytes at htotal
    omega
  have hbegin : ArgvAssembler.begin (UInt16.ofNat argv.length) (UInt32.ofNat (totalBytes argv)) =
      .ok (assembled [] argv.length (totalBytes argv)) := by
    simp only [ArgvAssembler.begin, bind_eq_ok, require_eq_ok, exists_unit, pure_eq_ok, hcount16,
      htotal32]
    have hpos : 0 < argv.length := List.length_pos_iff.mpr hexact.nonempty
    refine ⟨by omega, ?_⟩
    simp [assembled]
  have hloop := receiveChunks_messagesFrom []
    (fun a ha => ⟨hexact.filled a ha, hexact.short a ha, hexact.noNul a ha⟩) (by simpa using hentries)
    (by simp : totalBytes [] + totalBytes argv ≤ totalBytes argv) [.argvEnd]
  have hfinish : ArgvAssembler.finish (assembled argv 0 (totalBytes argv)) = .ok argv := by
    simp only [ArgvAssembler.finish, bind_eq_ok, require_eq_ok, exists_unit, pure_eq_ok]
    refine ⟨?_, by simp [assembled]⟩
    rintro (h | h | h)
    · exact h rfl
    · exact h rfl
    · exact hexact.filled [] (by simpa [assembled] using h) rfl
  simp only [argvMessages, receiveArgv, bind_eq_ok]
  exact ⟨_, hbegin, hloop.trans hfinish⟩

/-! ### From the wire to the runner -/

/-- `SpeculationArgv` accepts an argument list, by its constructor or from the wire. -/
def Accepted (argv : Arguments) : Prop :=
  fromOsStrings argv = .ok argv ∨ ∃ elements, deserialize elements = .ok argv

/-- An argument list comes through unchanged: the checks before a launch accept it; whenever there are
numbers for its frames, they are made, numbered in their order and short enough, a validator that
expects them takes them all, if it has a number left to expect after them, and the runner gets the
list from them. -/
structure Survives (toVec : ControlFrame → Option (List UInt8)) (argv : Arguments) : Prop where
  validated : validateExactArgv argv = .ok argv
  framed : ∀ identity : RunnerIdentity, identity.validate = .ok () → ∀ sequence : UInt32,
    sequence.toNat + (argvMessages argv).length ≤ 2 ^ 32 →
    ∃ frames, argvFrames toVec identity sequence argv = .ok frames ∧
      frames.length = (argvMessages argv).length ∧
      (∀ i frame, frames[i]? = some frame → frame.sequence.toNat = sequence.toNat + i) ∧
      (∀ frame ∈ frames, ∃ bytes, toVec frame = some bytes ∧
        bytes.length ≤ maxControlFrameBytes) ∧
      (sequence.toNat + frames.length < 2 ^ 32 → ∃ validator, frames.foldlM
        SequenceValidator.accept { identity, nextSequence := sequence, state := .argvBegin } =
          .ok validator) ∧
      receiveArgv (frames.map ControlFrame.message) = .ok argv

theorem accepted_iff {argv : Arguments} : Accepted argv ↔ WireArgv argv := by
  constructor
  · rintro (h | ⟨elements, h⟩)
    · exact (fromOsStrings_eq_ok.mp h).2
    · exact (deserialize_eq_ok.mp h).2
  · exact fun h => .inl (fromOsStrings_eq_ok.mpr ⟨rfl, h⟩)

theorem survives_of_exact {toVec : ControlFrame → Option (List UInt8)} (h : WritesCompact toVec)
    {argv : Arguments} (hexact : ExactArgv argv) : Survives toVec argv := by
  refine ⟨validateExactArgv_eq_ok.mpr ⟨rfl, hexact⟩, fun identity _ sequence hroom => ?_⟩
  refine ⟨_, argvFrames_eq h identity hexact hroom, length_framesFrom .., ?_, ?_, ?_, ?_⟩
  · exact fun i frame hi => framesFrom_sequence identity hroom hi
  · intro frame hframe
    obtain ⟨sequence, message, hmem, rfl⟩ := mem_framesFrom hframe
    obtain ⟨bytes, hbytes⟩ := encodeFrame_argvMessages h identity sequence hmem
    simp only [encodeFrame, bind_eq_ok, expect_eq_ok, require_eq_ok, exists_unit, pure_eq_ok]
      at hbytes
    obtain ⟨_, htext, hbounds, rfl⟩ := hbytes
    push Not at hbounds
    exact ⟨_, htext, hbounds.2⟩
  · intro hlt
    rw [length_framesFrom] at hlt
    exact ⟨_, accept_argvMessages hlt⟩
  · rw [map_message_framesFrom]
    exact receiveArgv_messages hexact


/-- **What becomes of the argument lists that `SpeculationArgv` accepts.** The constructor and the
deserializer accept the same lists. Such a list comes through unchanged if and only if none of its
arguments is empty. Whatever messages the assembler was sent, what it makes passes
`validate_exact_argv`. -/
theorem accepted_argv_survives {toVec : ControlFrame → Option (List UInt8)}
    (h : WritesCompact toVec) :
    (∀ argv, fromOsStrings argv = .ok argv ↔ ∃ elements, deserialize elements = .ok argv) ∧
    (∀ argv, Accepted argv → (Survives toVec argv ↔ ∀ argument ∈ argv, argument ≠ [])) ∧
    ∀ messages argv, receiveArgv messages = .ok argv → validateExactArgv argv = .ok argv := by
  refine ⟨fun argv => ?_, fun argv haccepted => ?_, fun messages argv => assembled_valid⟩
  · simp [fromOsStrings_eq_ok, deserialize_eq_ok]
  · have hwire := accepted_iff.mp haccepted
    constructor
    · exact fun hsurvives => (validateExactArgv_eq_ok.mp hsurvives.validated).2.filled
    · exact fun hfilled => survives_of_exact h ⟨hwire, hfilled⟩

/-- A writer of the frames of an argument list. -/
def writeArgvFrame (frame : ControlFrame) : Option (List UInt8) :=
  match frame.message with
  | .argvBegin argumentCount totalBytes =>
    some (frameText frame.identity frame.sequence (beginText argumentCount totalBytes))
  | .argvChunk argumentIndex offset total data =>
    some (frameText frame.identity frame.sequence (chunkText argumentIndex offset total data))
  | .argvEnd => some (frameText frame.identity frame.sequence endText)
  | _ => none

theorem writeArgvFrame_compact : WritesCompact writeArgvFrame :=
  ⟨fun _ _ _ _ => rfl, fun _ _ _ _ _ _ => rfl, fun _ _ => rfl⟩

/-- `sh -c id` is accepted and comes through. -/
theorem accepted_argv_survives_sh :
    let argv := [[0x73, 0x68], [0x2d, 0x63], [0x69, 0x64]]
    Accepted argv ∧ Survives writeArgvFrame argv := by
  have haccepted : Accepted [[0x73, 0x68], [0x2d, 0x63], [0x69, 0x64]] := .inl (by decide)
  exact ⟨haccepted,
    ((accepted_argv_survives writeArgvFrame_compact).2.1 _ haccepted).mpr (by decide)⟩

/-- The list of `true` and an empty argument is accepted by the constructor and from the wire, and
refused before the launch and by `argv_frames`. -/
theorem empty_argument_refused :
    let argv := [[0x74, 0x72, 0x75, 0x65], []]
    let identity : RunnerIdentity := { tournamentUuid := 1, candidateIndex := 0, generation := 1 }
    fromOsStrings argv = .ok argv ∧ deserialize (serialize argv) = .ok argv ∧
      identity.validate = .ok () ∧ validateExactArgv argv = .error .invalidIdentity ∧
      argvFrames writeArgvFrame identity 2 argv = .error .invalidArgv := by
  decide +kernel

end LightTerminal.Speculation.Argv
