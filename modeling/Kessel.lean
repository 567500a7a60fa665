import Kessel.Ds
import Kessel.Ds.Invariant
import Kessel.Ds.Wf
import Kessel.Ds.Refine
import Kessel.Mem
import Kessel.Ds.Table
import Kessel.Env
import Kessel.Kv
import Kessel.TimedMap
import Kessel.Kv.Refine
import Kessel.Protocol
import Kessel.Protocol.Format
import Kessel.Protocol.Parse
import Kessel.Pubsub
import Kessel.Pubsub.Invariant
import Kessel.Client
import Kessel.Server
import Kessel.Server.Deliver
import Kessel.Server.Loop
import Kessel.Kv.Values
import Kessel.Server.Command
import Kessel.Server.Handle
import Kessel.Server.Step
import Kessel.Framing
import Kessel.Server.Requests
import Kessel.Server.Turn
import Kessel.Server.Agreement
import Kessel.Server.Run
import Kessel.Server.Guarantees
import Kessel.Server.Publish
import Kessel.Pubsub.Refine
import Kessel.Kv.Live
import Kessel.Server.Errors
import Kessel.Protocol.Decode
import Kessel.Server.Dispatch
import Kessel.Cli.Line
import Kessel.Cli
import Kessel.Cli.Reader
import Kessel.Cli.Render
import Kessel.Cli.Stream
import Kessel.Cli.Subscription
import Kessel.Cli.Peer
import Kessel.Cli.Session
import Kessel.Cli.Leave
import Kessel.Ds.Runs
import Kessel.Kv.Reap
import Kessel.Protocol.Bounds
import Kessel.Server.Message
import Kessel.Config
import Kessel.Config.Numbers
import Kessel.Config.Precedence
import Kessel.Broker
import Kessel.Server.Service
import Kessel.Server.Serve
import Kessel.Server.Shown
import Kessel.Server.Timed
import Kessel.Server.Simulate
import Kessel.Server.Totals
import Kessel.Server.Linear
import Kessel.Server.Printed
import Kessel.Server.Info
import Kessel.Ledger
import Kessel.Net
import Kessel.Server.Held
import Kessel.Server.Process
import Kessel.Server.Backoff
import Kessel.Cli.Arguments
import Kessel.Cli.Main
import Kessel.Conversation
import Kessel.Blocks
import Kessel.Ds.Rename
import Kessel.Ds.Held
import Kessel.Kv.Held
import Kessel.Pubsub.Held
import Kessel.Server.Backlog
