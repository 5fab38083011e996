import RtFogros.Lib.Run
import RtFogros.Transport.Socket

/-!
# The KCP listener

`KcpSession` and `KcpSessionManager` of `fogrs-kcp/src/session.rs` and the task of `KcpListener`
in `listener.rs`: one UDP socket, a session for each peer with its two tasks, and the channels
between them.

A step is a step of one task: the listener takes a datagram or a notification, a session takes a
datagram from its channel, an updater goes on to its next await, the application accepts a stream
or calls one.  A timer may fire at any time, so an updater may find its session inactive in any
round.  Sessions keep their numbers when they leave the table, so that what is proved of a session
is proved of it to its end.
-/

namespace RtFogros.Transport

/-- What the listener reads and writes of a datagram: `kcp::KCP_OVERHEAD`, `get_conv`, `get_sn`
and `set_conv`. -/
structure Segment where
  overhead : Nat
  getConv : Bytes → UInt32
  getSn : Bytes → UInt32
  setConv : UInt32 → Bytes → Bytes
  getConv_setConv : ∀ conv packet, overhead ≤ packet.length → getConv (setConv conv packet) = conv

/-- The datagram, with a conversation that is allocated where it has none. -/
def Segment.stamp (seg : Segment) (allocated : UInt32) (raw : Bytes) : Bytes :=
  if seg.getConv raw = 0 then seg.setConv allocated raw else raw

/-- Where the task that updates a session is. -/
inductive Updater where
  -- at the head of its loop
  | sleeping
  -- past the test of `closed`
  | locked
  -- out of the loop
  | leaving
  | notifying
  | notified
  -- `io_task_handle.abort()` was called
  | aborting
  | aborted
deriving DecidableEq

/-- The listener was notified. -/
def Updater.past : Updater → Bool
  | .notified | .aborting | .aborted => true
  | _ => false

/-- The socket is closed. -/
def Updater.ended : Updater → Bool
  | .notifying => true
  | updater => updater.past

/-- A session of the listener, whose `session_close_notifier` has the address of its peer. -/
structure KcpSession (K Addr : Type) where
  socket : Polled K
  peerAddr : Addr
  closed : Bool := false
  inputTx : List Bytes := []
  updater : Updater := .sleeping
  -- the conversation that it was made for, the datagrams received before it, those that its
  -- socket was given, and the rounds of its updater
  conv : UInt32
  since : Nat
  given : List Bytes := []
  rounds : Nat := 0

namespace KcpSession

variable {K Addr : Type} (api : Kcp K) (c : KcpConfig)

def new (socket : KcpSocket K) (peer : Addr) (conv : UInt32) (since : Nat) : KcpSession K Addr where
  socket := { socket }
  peerAddr := peer
  conv := conv
  since := since

def close (s : KcpSession K Addr) : KcpSession K Addr := { s with closed := true }

/-- The session's task takes a datagram from its channel. -/
def takeInput (time : Clock) (s : KcpSession K Addr) : KcpSession K Addr :=
  if s.updater = .aborted then s
  else match s.inputTx with
    | [] => s
    | buf :: inputTx =>
      { s with socket := s.socket.io api (.input time buf), inputTx, given := s.given ++ [buf] }

def elapsed (time : Clock) (s : KcpSession K Addr) : Nat :=
  time.instant - s.socket.socket.lastUpdate

/-- The body of the updater's loop. -/
def round (time : Clock) (s : KcpSession K Addr) : KcpSession K Addr :=
  if s.closed && s.socket.socket.canClose api then { s with updater := .leaving }
  else if s.elapsed time > c.sessionExpire * 2 then { s with updater := .leaving }
  else
    let flushed := if s.socket.socket.needFlush api then s.socket.io api (.flush time) else s.socket
    { s with
      closed := s.closed || s.elapsed time > c.sessionExpire
      socket := flushed.io api (.update time)
      updater := .sleeping
      rounds := s.rounds + 1 }

/-- The updater goes on; where it waits for the channel to the listener, it does not. -/
def advance (time : Clock) (s : KcpSession K Addr) : KcpSession K Addr :=
  match s.updater with
  | .sleeping => { s with updater := if s.closed then .leaving else .locked }
  | .locked => s.round api c time
  | .leaving => { s with socket := s.socket.io api .close, updater := .notifying }
  | .notified => { s with closed := true, updater := .aborting }
  | .aborting => { s with updater := .aborted }
  | .notifying | .aborted => s

end KcpSession

/-- What the application does with an accepted stream. -/
inductive StreamCall where
  | pollSend (time : Clock) (task : Task) (buf : Bytes)
  | pollRecv (time : Clock) (task : Task) (len : Nat)
  | pollFlush (time : Clock)

def StreamCall.op : StreamCall → SocketOp
  | .pollSend time task buf => .io (.pollSend time task buf)
  | .pollRecv time task len => .pollRecv time task len
  | .pollFlush time => .io (.flush time)

/-- The listener and all its sessions, which have numbers. -/
structure KcpListener (K Addr : Type) where
  spawned : List (KcpSession K Addr) := []
  sessions : Addr → Option Nat := fun _ => none
  closeRx : List Addr := []
  acceptRx : List (Nat × Addr) := []
  -- the datagram for whose place in a session's channel it waits
  sending : Option (Nat × Bytes) := none
  -- the datagrams received, the streams accepted, and the sessions that notified the listener,
  -- each with the number of sessions there were
  received : List (Addr × Bytes) := []
  accepted : List (Nat × Addr) := []
  notices : List (Nat × Nat) := []

inductive ListenerEvent (Addr : Type) where
  -- `allocated` is what `alloc_conv` returns
  | datagram (time : Clock) (peer : Addr) (packet : Bytes) (allocated : UInt32)
  | send
  | closePeer
  | accept
  | dropStream (i : Nat)
  | stream (i : Nat) (call : StreamCall)
  | takeInput (i : Nat) (time : Clock)
  | update (i : Nat) (time : Clock)

namespace KcpListener

variable {K Addr : Type} [DecidableEq Addr] (seg : Segment) (api : Kcp K) (c : KcpConfig)

def modify (l : KcpListener K Addr) (i : Nat) (f : KcpSession K Addr → KcpSession K Addr) :
    KcpListener K Addr :=
  { l with spawned := l.spawned.modify i f }

/-- `session.conv()` -/
def convOf (l : KcpListener K Addr) (i : Nat) : Option UInt32 :=
  l.spawned[i]?.map fun s => api.conv s.socket.socket.kcp

/-- `close_peer`: a session that leaves the table is closed. -/
def closePeer (l : KcpListener K Addr) (peer : Addr) : KcpListener K Addr :=
  match l.sessions peer with
  | none => l
  | some i => { l.modify i KcpSession.close with sessions := Function.update l.sessions peer none }

/-- A session enters the table, and the one in its place is closed. -/
def insert (l : KcpListener K Addr) (peer : Addr) (conv : UInt32) (socket : KcpSocket K) :
    KcpListener K Addr :=
  let l := l.closePeer peer
  { l with
    spawned := l.spawned ++ [.new socket peer conv l.received.length]
    sessions := Function.update l.sessions peer (some l.spawned.length) }

def create (l : KcpListener K Addr) (time : Clock) (peer : Addr) (conv : UInt32) :
    Except KcpError (Nat × Bool) × KcpListener K Addr :=
  match KcpSocket.new api c conv time with
  | .error e => (.error e, l)
  | .ok socket => (.ok (l.spawned.length, true), l.insert peer conv socket)

/-- `get_or_create`: the first packet of another conversation replaces the session. -/
def getOrCreate (l : KcpListener K Addr) (time : Clock) (peer : Addr) (conv sn : UInt32) :
    Except KcpError (Nat × Bool) × KcpListener K Addr :=
  match l.sessions peer with
  | none => l.create api c time peer conv
  | some i =>
    if sn = 0 && l.convOf api i ≠ some conv then l.create api c time peer conv
    else (.ok (i, false), l)

def note (l : KcpListener K Addr) (peer : Addr) (packet : Bytes) : KcpListener K Addr :=
  { l with received := l.received ++ [(peer, packet)] }

/-- The arm for a datagram; a stream that cannot be handed to `accept` is dropped. -/
def receive (l : KcpListener K Addr) (time : Clock) (peer : Addr) (packet : Bytes)
    (allocated : UInt32) : KcpListener K Addr :=
  if packet.length < seg.overhead then l
  else
    let conv := if seg.getConv packet = 0 then allocated else seg.getConv packet
    let packet := seg.stamp allocated packet
    match l.getOrCreate api c time peer conv (seg.getSn packet) with
    | (.error _, l) => l.note peer packet
    | (.ok (i, true), l) =>
      let l := l.note peer packet
      if l.acceptRx.length < 1024 then
        { l with acceptRx := l.acceptRx ++ [(i, peer)], sending := some (i, packet) }
      else l.closePeer peer
    | (.ok (i, false), l) =>
      let l := l.note peer packet
      if l.convOf api i = some conv then { l with sending := some (i, packet) } else l

/-- The await of `input`, for a place in the session's channel. -/
def send (l : KcpListener K Addr) : KcpListener K Addr :=
  match l.sending with
  | none => l
  | some (i, packet) =>
    match l.spawned[i]? with
    | none => l
    | some s =>
      if s.updater = .aborted then { l with sending := none }
      else if s.inputTx.length < 64 then
        { l.modify i fun s => { s with inputTx := s.inputTx ++ [packet] } with sending := none }
      else l

/-- The arm for a session that ended. -/
def takeClose (l : KcpListener K Addr) : KcpListener K Addr :=
  match l.closeRx with
  | [] => l
  | peer :: closeRx => { l with closeRx }.closePeer peer

def accept (l : KcpListener K Addr) : KcpListener K Addr :=
  match l.acceptRx with
  | [] => l
  | stream :: acceptRx => { l with acceptRx, accepted := l.accepted ++ [stream] }

/-- The updater of a session goes on, or sends the peer's address to the listener. -/
def update (l : KcpListener K Addr) (i : Nat) (time : Clock) : KcpListener K Addr :=
  match l.spawned[i]? with
  | none => l
  | some s =>
    if s.updater = .notifying then
      if l.closeRx.length < 64 then
        { l.modify i fun s => { s with updater := .notified } with
          closeRx := l.closeRx ++ [s.peerAddr]
          notices := l.notices ++ [(i, l.spawned.length)] }
      else l
    else l.modify i (KcpSession.advance api c time)

/-- While the listener waits, it takes no datagram and closes no session. -/
def step (l : KcpListener K Addr) : ListenerEvent Addr → KcpListener K Addr
  | .datagram time peer packet allocated =>
    if l.sending.isSome then l else l.receive seg api c time peer packet allocated
  | .send => l.send
  | .closePeer => if l.sending.isSome then l else l.takeClose
  | .accept => l.accept
  | .dropStream i => if i ∈ l.accepted.map Prod.fst then l.modify i KcpSession.close else l
  | .stream i call =>
    if i ∈ l.accepted.map Prod.fst then
      l.modify i fun s => { s with socket := s.socket.step api call.op }
    else l
  | .takeInput i time => l.modify i (KcpSession.takeInput api time)
  | .update i time => l.update api c i time

end KcpListener

end RtFogros.Transport
