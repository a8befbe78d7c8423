import LightTerminal.Sanitize.Chunks
import LightTerminal.Output.Scanner
import LightTerminal.Session.Publication
import LightTerminal.Server.Metadata
import LightTerminal.Library.FiniteMap
import LightTerminal.Library.Run
import LightTerminal.Server.Model
import LightTerminal.Server.Concurrent
import LightTerminal.Server.Operations
import LightTerminal.Server.Daemon
import LightTerminal.Library.Index
import LightTerminal.Server.Coherence
import LightTerminal.Server.Refusal
import LightTerminal.Server.Undo
import LightTerminal.Server.Budget
import LightTerminal.Server.Capability
import LightTerminal.Library.Ancestry
import LightTerminal.Server.Cascade
import LightTerminal.Server.Orphans
import LightTerminal.Library.Procedure
import LightTerminal.LaunchRegistry.Record
import LightTerminal.LaunchRegistry.Transition
import LightTerminal.LaunchRegistry.Store
import LightTerminal.LaunchRegistry.Artifacts
import LightTerminal.LaunchRegistry.Installed
import LightTerminal.LaunchRegistry.Operations
import LightTerminal.LaunchRegistry.Validity
import LightTerminal.LaunchRegistry.Writes
import LightTerminal.LaunchRegistry.Protocol
import LightTerminal.Speculation.Phase
import LightTerminal.Speculation.Record
import LightTerminal.Speculation.Score
import LightTerminal.Speculation.Store
import LightTerminal.Library.Trace
import LightTerminal.Speculation.Writes
import LightTerminal.Speculation.History
import LightTerminal.Speculation.Actor
import LightTerminal.Speculation.Correlate
import LightTerminal.Speculation.Startup
import LightTerminal.Library.Crash
import LightTerminal.Speculation.Recovery
import LightTerminal.Speculation.Closing
import LightTerminal.Speculation.Restart
import LightTerminal.LaunchRegistry.Ladder
import LightTerminal.LaunchRegistry.Completion
import LightTerminal.Library.Utf8
import LightTerminal.Sanitize.Scalars
import LightTerminal.Sanitize.Status
import LightTerminal.Sanitize.Agreement
import LightTerminal.Sanitize.Row
import LightTerminal.Output.PrefixTracker
import LightTerminal.Library.OrderedMap
import LightTerminal.Output.NormalScreen
import LightTerminal.Session.History
import LightTerminal.Library.Lines
import LightTerminal.Session.Segment
import LightTerminal.Session.Journal
import LightTerminal.Speculation.Base64
import LightTerminal.Speculation.Argv
import LightTerminal.Library.Tokens
import LightTerminal.Speculation.Ledger
import LightTerminal.Client.Keyboard
import LightTerminal.Tmux.Store
import LightTerminal.Tmux.ManagedAttach
import LightTerminal.Tmux.WaitFor
import LightTerminal.Tmux.UserOptions
import LightTerminal.Server.Targets
import LightTerminal.Client.Speculation
import LightTerminal.Client.Requests
import LightTerminal.Client.Trace
import LightTerminal.Client.Replay
import LightTerminal.Server.Attach
import LightTerminal.Server.AttachInvariant
import LightTerminal.Server.AttachThreads
import LightTerminal.Server.AttachSizes
import LightTerminal.Server.Clamp
import LightTerminal.Speculation.Identities
import LightTerminal.Server.Ancestry
import LightTerminal.Server.Framing
import LightTerminal.Output.Captures
import LightTerminal.Sanitize.Losses
import LightTerminal.Output.Exposure
import LightTerminal.Speculation.Codecs
import LightTerminal.Library.Runs
import LightTerminal.Server.StyledScreen
import LightTerminal.Server.StyledRevisions
import LightTerminal.Server.StyledAnswers
import LightTerminal.Client.StatusPresence
import LightTerminal.Client.ResizeThread
import LightTerminal.Client.StatusRows
import LightTerminal.Client.AltScreen
import LightTerminal.Client.Transcript
import LightTerminal.Client.Urls
import LightTerminal.Session.RoundTrip
import LightTerminal.Tmux.CmuxStatus
import LightTerminal.Tmux.SessionTree
import LightTerminal.Library.Cursor
import LightTerminal.Tmux.OptionRouting
import LightTerminal.Library.ShortOptions
import LightTerminal.Tmux.CommandArgs
import LightTerminal.Tmux.CommandGrammars
import LightTerminal.Tmux.ClusteredFlags
import LightTerminal.Library.SlotMap
import LightTerminal.Speculation.Index
import LightTerminal.Client.ProcessTree
import LightTerminal.Client.OutputLoop
import LightTerminal.Client.ScreenGuard
import LightTerminal.Server.Signals
import LightTerminal.LaunchRegistry.MigrationRuns
import LightTerminal.LaunchRegistry.Released
