import OwlMux.Browser.Base64
import OwlMux.Browser.Client
import OwlMux.Browser.Contract
import OwlMux.Browser.Delivery
import OwlMux.Browser.Frames
import OwlMux.Browser.Install
import OwlMux.Browser.WriterState
import OwlMux.Cluster.Credential
import OwlMux.Cluster.Database
import OwlMux.Cluster.Exclusive
import OwlMux.Cluster.Fleet
import OwlMux.Cluster.Guards
import OwlMux.Cluster.OwnerAuth
import OwlMux.Cluster.Quiet
import OwlMux.Cluster.Steps
import OwlMux.Cluster.Transactions
import OwlMux.Cluster.Transcript
import OwlMux.Deployment.Drain
import OwlMux.Deployment.Expiry
import OwlMux.Deployment.Lease
import OwlMux.Enrollment.Dialogue
import OwlMux.Enrollment.Durable
import OwlMux.Enrollment.Joint
import OwlMux.Enrollment.Lockstep
import OwlMux.Lib.Base64Url
import OwlMux.Lib.Bytes
import OwlMux.Lib.Disk
import OwlMux.Lib.Lane
import OwlMux.Lib.Machine
import OwlMux.Lib.Mutex
import OwlMux.Lib.Records
import OwlMux.Lib.Shell
import OwlMux.Lib.Table
import OwlMux.Lib.Terminal
import OwlMux.Machines.Effects
import OwlMux.Machines.Lifecycle
import OwlMux.Machines.Progress
import OwlMux.Machines.Runs
import OwlMux.Machines.Settle
import OwlMux.Machines.Statements
import OwlMux.Machines.Tables
import OwlMux.Machines.WayOut
import OwlMux.Relay.Capacity
import OwlMux.Relay.Fidelity
import OwlMux.Relay.Flow
import OwlMux.Relay.Identity
import OwlMux.Relay.Isolation
import OwlMux.Relay.Moves
import OwlMux.Relay.Protocol
import OwlMux.Relay.Tunnel
import OwlMux.Service.Admission
import OwlMux.Ssh.LineReader
import OwlMux.Ssh.Remote
import OwlMux.Ssh.SessionName
import OwlMux.Tmux.Adapter
import OwlMux.Tmux.Alignment
import OwlMux.Tmux.Bootstrap
import OwlMux.Tmux.CommandLine
import OwlMux.Tmux.Cutover
import OwlMux.Tmux.Escape
import OwlMux.Tmux.Format
import OwlMux.Tmux.Hydrate
import OwlMux.Tmux.Ledger
import OwlMux.Tmux.PaneRow
import OwlMux.Tmux.Payload
import OwlMux.Tmux.Projection
import OwlMux.Tmux.Queue
import OwlMux.Tmux.Reader
import OwlMux.Tmux.Result
import OwlMux.Tmux.Sends
import OwlMux.Tmux.Text
import OwlMux.Writer.Blocks
import OwlMux.Writer.Boundary
import OwlMux.Writer.Fence
import OwlMux.Writer.Flags
import OwlMux.Writer.Frames
import OwlMux.Writer.Loops
import OwlMux.Writer.Mode
import OwlMux.Writer.Moves
import OwlMux.Writer.Mutex
import OwlMux.Writer.Registry
import OwlMux.Writer.Scope
import OwlMux.Writer.Views
