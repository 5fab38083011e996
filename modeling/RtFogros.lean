import RtFogros.Lib.Mealy
import RtFogros.Lib.Run
import RtFogros.Lib.Ledger
import RtFogros.Lib.TreePath
import RtFogros.Lib.Interleaving
import RtFogros.Lib.PyDict
import RtFogros.Lib.Codec
import RtFogros.Lib.Utf8
import RtFogros.Lib.MultiMap
import RtFogros.Lib.Writes
import RtFogros.Lib.Frame
import RtFogros.Lib.Gapless
import RtFogros.Lib.Waker
import RtFogros.Packet.Text
import RtFogros.Packet.Structs
import RtFogros.Packet.Json
import RtFogros.Packet.TopicNames
import RtFogros.Kcp.Reader
import RtFogros.Kcp.Reassembly
import RtFogros.Kcp.Writer
import RtFogros.Kcp.Relay
import RtFogros.Kcp.SplitHeader
import RtFogros.Kcp.ResetCounter
import RtFogros.Kcp.Malformed
import RtFogros.Fib.Handler
import RtFogros.Fib.Arms
import RtFogros.Fib.Table
import RtFogros.Fib.Abort
import RtFogros.Fib.Latency
import RtFogros.Fib.Binding
import RtFogros.Fib.Requests
import RtFogros.Fib.Network
import RtFogros.Fib.Handed
import RtFogros.Ros.ServiceClient
import RtFogros.Ros.Pairing
import RtFogros.Ros.Handlers
import RtFogros.Stream.Direction
import RtFogros.Stream.Handshake
import RtFogros.Transport.Socket
import RtFogros.Transport.Wakers
import RtFogros.Transport.Stream
import RtFogros.Transport.Reads
import RtFogros.Transport.Listener
import RtFogros.Transport.Sessions
import RtFogros.Transport.Accepting
import RtFogros.Transport.Datagrams
import RtFogros.Transport.Closing
import RtFogros.Mesh.Model
import RtFogros.Mesh.Links
import RtFogros.Mesh.Refinement
import RtFogros.Mesh.Kept
import RtFogros.Mesh.Flow
import RtFogros.Mesh.Flood
import RtFogros.Mesh.Order
import RtFogros.Mesh.Services
import RtFogros.Mesh.Topics
import RtFogros.Mesh.Delivery
import RtFogros.Router.Api
import RtFogros.Router.Managers
import RtFogros.Router.Subscriber
import RtFogros.Rib.Model
import RtFogros.Rib.Documented
import RtFogros.Rib.Pending
import RtFogros.Swarm.Model
import RtFogros.Swarm.Tree
import RtFogros.Swarm.Routing
import RtFogros.Swarm.TopicTree
import RtFogros.Swarm.Bookkeeping
import RtFogros.Swarm.Frame
import RtFogros.Swarm.Transitions
import RtFogros.Swarm.Atomicity
import RtFogros.Swarm.Nodes
import RtFogros.Signaling.Model
import RtFogros.Signaling.Json
import RtFogros.Signaling.Stream
import RtFogros.Signaling.Server
import RtFogros.Signaling.MessageJson
import RtFogros.Signaling.Requests
import RtFogros.Signaling.Turns
import RtFogros.Signaling.Replay
import RtFogros.Signaling.Progress
import RtFogros.Signaling.Expiry
import RtFogros.Signaling.Rendezvous
import RtFogros.Scheduler.Model
import RtFogros.Scheduler.Invariant
import RtFogros.Scheduler.Round
import RtFogros.Scheduler.Profiling
import RtFogros.Scheduler.Raises
import RtFogros.Scheduler.Robots
import RtFogros.Scheduler.WarmUp
import RtFogros.Scheduler.Analyzer
import RtFogros.Scheduler.Requests
import RtFogros.Control.Loop
import RtFogros.Control.OneService
import RtFogros.Control.Settled
