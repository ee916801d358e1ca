import Rssh.Lib.AcceptLoop
import Rssh.Lib.Clock
import Rssh.Lib.Files
import Rssh.Lib.Machine
import Rssh.Lib.Notify
import Rssh.Lib.Posix
import Rssh.Lib.Segments
import Rssh.Lib.Slots
import Rssh.Lib.Shell
import Rssh.Lib.Syscall
import Rssh.Lib.Table
import Rssh.Lib.Text
import Rssh.Types
import Rssh.Command
import Rssh.Runtime
import Rssh.Process.Capture
import Rssh.Process.Guard
import Rssh.Process.Deadlines
import Rssh.Process.Cleanup
import Rssh.Process.Redaction
import Rssh.Transfer.Path
import Rssh.Transfer.Wire
import Rssh.Transfer.Sink
import Rssh.Transfer.Records
import Rssh.Transfer.Forced
import Rssh.Transfer.Command
import Rssh.Transfer.Source
import Rssh.Transfer.Lines
import Rssh.Transfer.Forest
import Rssh.Transfer.RoundTrip
import Rssh.Transfer.Links
import Rssh.Transfer.Sftp
import Rssh.Transfer.Requests
import Rssh.Transfer.Handles
import Rssh.Transfer.Bytes
import Rssh.Transfer.Listing
import Rssh.Auth.Agent
import Rssh.Auth.Plan
import Rssh.Channel.Reader
import Rssh.Channel.Output
import Rssh.Channel.Reads
import Rssh.Channel.Writer
import Rssh.Channel.Startup
import Rssh.HostKey.KnownHosts
import Rssh.HostKey.Policy
import Rssh.HostKey.Learn
import Rssh.HostKey.LearnFault
import Rssh.HostKey.LearnRace
import Rssh.HostKey.FirstUse
import Rssh.HostKey.SharedFile
import Rssh.Runner.Input
import Rssh.Runner.Split
import Rssh.Runner.Shutdown
import Rssh.Runner.Delivery
import Rssh.Forward.Listener
import Rssh.Forward.Wake
import Rssh.Forward.Lifecycle
import Rssh.Forward.Direct
import Rssh.Forward.Echo
import Rssh.Forward.Loopback
import Rssh.Server.Shell
import Rssh.Server.Cuts
import Rssh.Server.Tasks
import Rssh.Server.Reaper
import Rssh.Server.Stop
import Rssh.Server.Sessions
import Rssh.Server.Forwarding
import Rssh.Server.Requests
import Rssh.Cli
import Rssh.Cli.Arguments
import Rssh.Cli.Remote
import Rssh.Lib.Timed
import Rssh.Channel.Opening
