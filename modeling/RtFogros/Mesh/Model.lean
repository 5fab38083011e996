import RtFogros.Fib.Network
import RtFogros.Lib.Run

/-!
# The mesh of routers

Any number of machines, each with its FIB handler, and the streams between them: the queue of a
table entry, the writer arm that empties it, the messages on the way, and the read arm at the far
end, which sends to the FIB handler there.

A link starts when the handshake of its stream is over: the ping of the handshake, which
`reader_and_writer` answers at the far end, and the pong are not among its messages.  KCP is taken
to deliver whole messages, in order.  The two directions of a stream are two links, as nothing is
written back on one (`Link.Sound.answers_nil`).

`Mesh.step` is an event of any part: an update of a table, a packet that a local handler
publishes, a turn of a FIB handler, of a writer arm or of a read arm, the end of a stream.  The
ghost fields of a link and of the mesh keep what went through each part, for the statements about
whole runs.
-/

namespace RtFogros

open FibHandler Kcp

/-- The channel of a table entry and what becomes of the packets sent on it. -/
structure Link (Node : Type) where
  lead : Lead Node
  -- of the stream, at its far end
  description : Option String
  -- `local_to_net_rx`, or `ros_rx` of a local handler
  queue : List GDPPacket := []
  wire : List Bytes := []
  reader : Reader := .running initialReader
  up : Bool := true
  -- the packets taken from the queue, the messages read, what the reader sent on and what it
  -- wrote back
  takenOff : List GDPPacket := []
  messagesRead : List Bytes := []
  delivered : List GDPPacket := []
  answers : List Bytes := []

namespace Link

variable {Node : Type} (json : SerdeJson GDPHeaderInTransit)
  (recordJson : SerdeJson GDPNameRecord)

/-- The FIB handler sends on the channel; a closed one takes nothing. -/
def send (l : Link Node) (pkts : List GDPPacket) : Link Node :=
  if l.up then { l with queue := l.queue ++ pkts } else l

/-- The stream ends. -/
def shut (l : Link Node) : Link Node := { l with queue := [], wire := [], up := false }

/-- A local handler takes a packet, or the writer arm takes one and writes it. -/
def take (randomName : GDPName) (l : Link Node) : Link Node :=
  match l.lead, l.queue with
  | _, [] => l
  | .localQueue, pkt :: queue => { l with queue, takenOff := l.takenOff ++ [pkt] }
  | .handler _, pkt :: queue =>
    match writerArm json recordJson randomName pkt with
    | none => l.shut
    | some writes =>
      { l with queue, wire := l.wire ++ writes, takenOff := l.takenOff ++ [pkt] }

/-- The read arm takes a message.  The second component is what it sends on. -/
def read (l : Link Node) : Link Node × List GDPPacket :=
  match l.wire with
  | [] => (l, [])
  | message :: wire =>
    let (reader, output) := l.reader.step json l.description message
    ({ l with
        wire, reader
        messagesRead := l.messagesRead ++ [message]
        delivered := l.delivered ++ output.rosTx
        answers := l.answers ++ output.written }, output.rosTx)

end Link

/-- All machines.  A packet in `fib_rx` comes with the link that it came over. -/
structure Mesh (Node : Type) where
  log : Mealy.Log Node (Fib Nat) (FibEvent Nat) (FibOutput Nat)
  links : List (Link Node) := []
  fibRx : Node → List (Option Nat × GDPPacket) := fun _ => []
  -- what the FIB handlers took from `fib_rx`, and what local handlers sent to it
  handled : List (Node × Option Nat × GDPPacket) := []
  published : List GDPPacket := []

inductive MeshEvent (Node : Type) where
  -- an update is handled, with a new channel if it has one
  | connect (n : Node) (update : FibStateChange Unit) (lead : Lead Node)
      (description : Option String)
  -- a local handler sends to `fib_tx`
  | publish (n : Node) (pkt : GDPPacket)
  -- the FIB handler takes a packet
  | forward (n : Node) (reading : Reading)
  | take (i : Nat) (randomName : GDPName)
  | read (i : Nat)
  | shut (i : Nat)

/-- What a local handler publishes. -/
def MeshEvent.publications {Node : Type} : MeshEvent Node → List GDPPacket
  | .publish _ pkt => [pkt]
  | _ => []

namespace Mesh

variable {Node : Type} [DecidableEq Node] (json : SerdeJson GDPHeaderInTransit)
  (recordJson : SerdeJson GDPNameRecord) (bindingTable : Node → BindingTable)

def initial : Mesh Node where
  log := ⟨fun _ => .initial, []⟩

def turn (mesh : Mesh Node) (n : Node) (event : FibEvent Nat) :
    Mealy.Log Node (Fib Nat) (FibEvent Nat) (FibOutput Nat) :=
  mesh.log.turn (fun n => Fib.step (bindingTable n)) n event

/-- The update with the channel in its place. -/
def channelUpdate (update : FibStateChange Unit) (channel : Nat) : FibStateChange Nat :=
  { action := update.action, connectionType := update.connectionType,
    topicGdpName := update.topicGdpName,
    forwardDestination := update.forwardDestination.map fun _ => channel,
    interface := update.interface, address := update.address, description := update.description }

def sentOn (sends : List (Sent Nat)) (i : Nat) : List GDPPacket :=
  (sends.filter (·.dst.tx = i)).map Sent.pkt

def forward (mesh : Mesh Node) (n : Node) (reading : Reading) : Mesh Node :=
  match mesh.fibRx n with
  | [] => mesh
  | (via, pkt) :: rest =>
    let event := .packet reading pkt
    let sends := (Fib.step (bindingTable n) (mesh.log.states n) event).2.sends
    { mesh with
      log := mesh.turn bindingTable n event
      links := mesh.links.mapIdx fun i l => l.send (sentOn sends i)
      fibRx := Function.update mesh.fibRx n rest
      handled := mesh.handled ++ [(n, via, pkt)] }

def read (mesh : Mesh Node) (i : Nat) : Mesh Node :=
  match mesh.links[i]? with
  | some l =>
    let mesh := { mesh with links := mesh.links.set i (l.read json).1 }
    match l.lead with
    | .localQueue => mesh
    | .handler n =>
      { mesh with
        fibRx := Function.update mesh.fibRx n
          (mesh.fibRx n ++ (l.read json).2.map (some i, ·)) }
  | none => mesh

def step (mesh : Mesh Node) : MeshEvent Node → Mesh Node
  | .connect n update lead description =>
    { mesh with
      log := mesh.turn bindingTable n (.update (channelUpdate update mesh.links.length))
      links := mesh.links ++ [{ lead, description }] }
  | .publish n pkt =>
    { mesh with
      fibRx := Function.update mesh.fibRx n (mesh.fibRx n ++ [(none, pkt)])
      published := mesh.published ++ [pkt] }
  | .forward n reading => mesh.forward bindingTable n reading
  | .take i randomName =>
    { mesh with links := mesh.links.modify i (·.take json recordJson randomName) }
  | .read i => mesh.read json i
  | .shut i => { mesh with links := mesh.links.modify i Link.shut }

/-! ## What a step does -/

variable (mesh : Mesh Node)

variable {mesh} in
theorem forward_eq {n : Node} {tag : Option Nat} {pkt : GDPPacket}
    {rest : List (Option Nat × GDPPacket)} (hrx : mesh.fibRx n = (tag, pkt) :: rest)
    (reading : Reading) :
    mesh.forward bindingTable n reading =
      { mesh with
        log := mesh.turn bindingTable n (.packet reading pkt)
        links := mesh.links.mapIdx fun i l => l.send (sentOn
          (Fib.step (bindingTable n) (mesh.log.states n) (.packet reading pkt)).2.sends i)
        fibRx := Function.update mesh.fibRx n rest
        handled := mesh.handled ++ [(n, tag, pkt)] } := by
  unfold forward
  rw [hrx]

theorem forward_cases (n : Node) (reading : Reading) :
    mesh.forward bindingTable n reading = mesh ∨
      ∃ tag pkt rest, mesh.fibRx n = (tag, pkt) :: rest ∧
        mesh.forward bindingTable n reading =
          { mesh with
            log := mesh.turn bindingTable n (.packet reading pkt)
            links := mesh.links.mapIdx fun i l => l.send (sentOn
              (Fib.step (bindingTable n) (mesh.log.states n) (.packet reading pkt)).2.sends i)
            fibRx := Function.update mesh.fibRx n rest
            handled := mesh.handled ++ [(n, tag, pkt)] } := by
  cases hrx : mesh.fibRx n with
  | nil =>
    left
    unfold forward
    rw [hrx]
  | cons head rest => exact .inr ⟨head.1, head.2, rest, rfl, forward_eq bindingTable hrx reading⟩

theorem read_cases (i : Nat) :
    mesh.read json i = mesh ∨
      ∃ l, mesh.links[i]? = some l ∧
        (l.lead = .localQueue ∧
          mesh.read json i = { mesh with links := mesh.links.set i (l.read json).1 } ∨
        ∃ n, l.lead = .handler n ∧ mesh.read json i =
          { mesh with
            links := mesh.links.set i (l.read json).1
            fibRx := Function.update mesh.fibRx n
              (mesh.fibRx n ++ (l.read json).2.map (some i, ·)) }) := by
  unfold read
  cases hl : mesh.links[i]? with
  | none => exact .inl rfl
  | some l =>
    refine .inr ⟨l, rfl, ?_⟩
    cases hlead : l.lead with
    | localQueue => exact .inl ⟨rfl, by dsimp only; rw [hlead]⟩
    | handler n => exact .inr ⟨n, rfl, by dsimp only; rw [hlead]⟩

/-- Reading is no turn of a handler. -/
theorem read_log (i : Nat) :
    (mesh.read json i).log = mesh.log ∧ (mesh.read json i).handled = mesh.handled := by
  obtain hsame | ⟨l, -, ⟨-, hread⟩ | ⟨n, -, hread⟩⟩ := mesh.read_cases json i
  · rw [hsame]
    exact ⟨rfl, rfl⟩
  · rw [hread]
    exact ⟨rfl, rfl⟩
  · rw [hread]
    exact ⟨rfl, rfl⟩

end Mesh

end RtFogros
