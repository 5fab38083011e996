import RtFogros.Lib.Mealy
import RtFogros.Fib.Structs

/-!
# Signaling

The server of `fogrs-signaling` sends the entries of a topic to its subscribers; the loops at the
end of `register_stream_sender` and `register_stream_receiver` (`routing_manager.rs`) read them.
`Addr` is `SocketAddr`, which neither side looks into, and `Tx` the type of channel handles.

`subscribe` gives the writes of the server on one stream, and `Client` a loop as a machine on its
reads.  TCP does not keep writes apart: `TcpReads` is any cutting of the stream into reads of one
to 1024 bytes.
-/

namespace RtFogros.Signaling

structure CandidateStruct (Addr : Type) where
  threadGdpName : GDPName
  candidates : List Addr
deriving DecidableEq

abbrev Instant := Nat

variable {Addr Tx : Type}

/-! ## The server -/

section Server

variable (json : SerdeJson (CandidateStruct Addr))

def response (msg : CandidateStruct Addr) : Bytes := asBytes (json.toString msg)

/-- The writes of `Topic::subscribe`: the entries of the log, and what `rx.recv()`
returns, `none` being its error. -/
def subscribe (log : List (CandidateStruct Addr × Instant))
    (received : List (Option (CandidateStruct Addr))) : List Bytes :=
  (log.map fun entry => response json entry.1) ++
    received.filterMap fun result => result.map (response json)

end Server

def sent (log : List (CandidateStruct Addr × Instant))
    (received : List (Option (CandidateStruct Addr))) : List (CandidateStruct Addr) :=
  log.map Prod.fst ++ received.filterMap id

theorem subscribe_eq (json : SerdeJson (CandidateStruct Addr))
    (log : List (CandidateStruct Addr × Instant))
    (received : List (Option (CandidateStruct Addr))) :
    subscribe json log received = (sent log received).map (response json) := by
  unfold sent subscribe
  rw [List.map_append, List.map_map, List.map_filterMap]
  rfl

/-- The results of the client's reads on a stream: one to 1024 bytes each. -/
structure TcpReads (stream : Bytes) (reads : List Bytes) : Prop where
  flatten : reads.flatten = stream
  size : ∀ read ∈ reads, 1 ≤ read.length ∧ read.length ≤ 1024

/-! ## The clients -/

inductive Action (Addr Tx : Type) where
  | connect (candidateAddr : Addr) (interfaceName : String)
  | update (update : FibStateChange Tx)

/-- A signaling loop: reading, past the `break` of a closed connection, or aborted by a
failed `unwrap`. -/
inductive Client where
  | running
  | closed
  | panicked
deriving DecidableEq

/-- One round of a signaling loop, with the struct it decodes and what it does for it. -/
def Client.step (json : SerdeJson (CandidateStruct Addr))
    (actions : CandidateStruct Addr → List (Action Addr Tx)) :
    Client → Bytes → Client × List (CandidateStruct Addr × List (Action Addr Tx))
  | .running, read =>
    if read.length = 0 then (.closed, [])
    else
      match json.fromStr (fromUtf8Lossy read) with
      | none => (.panicked, [])
      | some receiverStruct => (.running, [(receiverStruct, actions receiverStruct)])
  | client, _ => (client, [])

/-- The loop of `register_stream_sender`. -/
def registerStreamSender (Tx : Type) (json : SerdeJson (CandidateStruct Addr))
    (candidateInterfaces : List String) :
    Client → Bytes → Client × List (CandidateStruct Addr × List (Action Addr Tx)) :=
  Client.step json fun receiverStruct =>
    receiverStruct.candidates.flatMap fun candidateAddr =>
      candidateInterfaces.map fun interfaceName => .connect candidateAddr interfaceName

section Receiver

-- the flipped direction, which is the same in every round; the texts `to_string` and
-- `format!` make; the channel made for the connection
variable (json : SerdeJson (CandidateStruct Addr)) (topicGdpName : GDPName)
  (connectionType : FibConnectionType) (candidateInterfaces : List String)
  (addressText : Addr → String) (description : Addr → String → String)
  (localToNetTx : Addr → String → Tx)

def channelUpdateMsg (candidateAddr : Addr) (interfaceName : String) : FibStateChange Tx :=
  { action := .add, topicGdpName, connectionType, interface := some interfaceName,
    forwardDestination := some (localToNetTx candidateAddr interfaceName),
    address := some (addressText candidateAddr),
    description := some (description candidateAddr interfaceName) }

/-- The loop of `register_stream_receiver`. -/
def registerStreamReceiver :
    Client → Bytes → Client × List (CandidateStruct Addr × List (Action Addr Tx)) :=
  Client.step json fun receiverStruct =>
    receiverStruct.candidates.flatMap fun candidateAddr =>
      candidateInterfaces.flatMap fun interfaceName =>
        [.update (channelUpdateMsg topicGdpName connectionType addressText description localToNetTx
            candidateAddr interfaceName),
          .connect candidateAddr interfaceName]

end Receiver

/-- Over the reads a loop decodes the structs `msgs`, in order, and goes on. -/
structure DecodesExactly
    (step : Client → Bytes → Client × List (CandidateStruct Addr × List (Action Addr Tx)))
    (reads : List Bytes) (msgs : List (CandidateStruct Addr)) : Prop where
  decoded : (Mealy.outputs step .running reads).flatten.map Prod.fst = msgs
  running : Mealy.final step .running reads = .running

end RtFogros.Signaling
