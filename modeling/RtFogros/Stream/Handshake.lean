import RtFogros.Fib.Table
import RtFogros.Lib.Run
import RtFogros.Kcp.Relay
import RtFogros.Stream.Direction

/-!
# The handshake of a stream

The two ends of a KCP stream: `handle_stream_sender` on one side, a task of
`register_stream_receiver` with the FIB handler of its machine on the other.  KCP delivers whole
messages, in order.  The tasks run in any order: an event is what one of them does next.

`handshake_kept_apart`: neither reader parses a message of the handshake, the sender's loop reads
no frame, and the sender's FIB is told of the stream only after the receiver's reply.  A message
carries its `Origin`, which the code does not see and the statement needs, since a frame may be the
bytes of a ping.  `Exchange` says what is on its way in each phase of the sender, and the reads
follow from what can come first.
-/

namespace RtFogros

open FibHandler Kcp

/-- What a message is written for; the bytes alone do not tell. -/
inductive Origin where
  | handshake
  | frame
deriving DecidableEq

structure Message where
  origin : Origin
  bytes : Bytes
deriving DecidableEq

/-- The task at the receiver: that of an accepted stream, or that of a connected one, which
pings. -/
inductive ReceiverRole where
  | accept
  | connect
deriving DecidableEq

/-- What a task of either side knows of its stream. -/
structure StreamTask where
  direction : String
  topicGdpName : GDPName
  interface : String
  address : String
  description : String

/-- The ADD update of a task; `none` is the panic of a direction. -/
def StreamTask.update (task : StreamTask) (localToNetTx : Nat) : Option (FibStateChange Nat) :=
  ((flipDirection task.direction).bind directionStrToConnectionType).map fun connectionType =>
    { action := .add, connectionType, topicGdpName := task.topicGdpName,
      forwardDestination := some localToNetTx, interface := some task.interface,
      address := some task.address, description := some task.description }

inductive SenderPhase where
  | start
  -- in the loop that waits for the pong
  | waiting
  -- in `reader_and_writer`
  | streaming (reader : Reader)
  | gone

inductive ReceiverPhase where
  | start
  -- the update is sent
  | added
  | streaming (reader : Reader)
  | gone

structure Stream where
  sender : SenderPhase := .start
  receiver : ReceiverPhase := .start
  toReceiver : List Message := []
  toSender : List Message := []
  -- the FIB handler of the receiver's machine, and what it sent to channel 0, the
  -- receiver's
  fib : Fib Nat := .initial
  channelRx : List (FibStateChange Nat) := []
  localToNetRx : List GDPPacket := []
  -- the updates the sender has sent, the messages its loop has read, and the messages
  -- either reader has passed to `parse_header_payload_pairs` or joined to a pending body
  senderUpdates : List (FibStateChange Nat) := []
  waited : List Message := []
  senderParsed : List Message := []
  receiverParsed : List Message := []
  -- the receiver's reader has written a pong
  answered : Bool := false

inductive StreamEvent where
  | senderPing
  -- the sender reads a message
  | senderRead
  -- the wait of the sender times out
  | senderTimeout
  -- the sender's `rtc_rx` yields a packet; `randomName` is drawn for a missing name
  | senderForward (randomName : GDPName) (pkt : GDPPacket)
  -- a write or a connection fails, or the stream is closed
  | senderGone
  | receiverAdd
  | receiverStart
  | receiverRead
  | receiverForward (randomName : GDPName)
  | receiverGone
  -- another task of the receiver's machine sends an update, with a channel of its own if
  -- it has one
  | connect (update : FibStateChange Nat)
  -- the FIB handler of the receiver's machine takes a packet or an update
  | fibPacket (reading : Reading) (pkt : GDPPacket)
  | fibUpdate

/-- What a read in `reader_and_writer` does: the next state, the messages written back and
the messages passed on. -/
def readMessage (json : SerdeJson GDPHeaderInTransit) (description : String) (st : ReaderState)
    (m : Message) : Reader × List Message × List Message :=
  ((readArm json (some description) st m.bytes).1,
    (readArm json (some description) st m.bytes).2.written.map (⟨.handshake, ·⟩),
    if m.bytes = [] ∨ m.bytes = ping then [] else [m])

namespace Stream

section Step

variable (json : SerdeJson GDPHeaderInTransit) (recordJson : SerdeJson GDPNameRecord)
  (bindingTable : BindingTable) (role : ReceiverRole) (senderTask receiverTask : StreamTask)

/-- `handle_stream_sender` writes its ping. -/
def senderPing (c : Stream) : Stream :=
  match c.sender with
  | .start => { c with sender := .waiting, toReceiver := c.toReceiver ++ [⟨.handshake, ping⟩] }
  | _ => c

/-- The pong has come: the update is sent. -/
def establish (c : Stream) : Stream :=
  match senderTask.update 0 with
  | none => { c with sender := .gone }
  | some update =>
    { c with
      sender := .streaming (.running initialReader)
      senderUpdates := c.senderUpdates ++ [update] }

def senderRead (c : Stream) : Stream :=
  match c.toSender with
  | [] => c
  | m :: toSender =>
    match c.sender with
    | .waiting =>
      let c := { c with toSender, waited := c.waited ++ [m] }
      match fromUtf8 m.bytes with
      | none => { c with sender := .gone }
      | some response => if response ≠ "pong" then c else c.establish senderTask
    | .streaming (.running st) =>
      let (reader, written, parsed) := readMessage json senderTask.description st m
      { c with
        toSender
        sender := .streaming reader
        toReceiver := c.toReceiver ++ written
        senderParsed := c.senderParsed ++ parsed }
    | _ => c

/-- The writer arm of the sender. -/
def senderForward (c : Stream) (randomName : GDPName) (pkt : GDPPacket) : Stream :=
  match c.sender with
  | .streaming (.running _) =>
    match writerArm json recordJson randomName pkt with
    | none => { c with sender := .gone }
    | some writes => { c with toReceiver := c.toReceiver ++ writes.map (⟨.frame, ·⟩) }
  | _ => c

def receiverAdd (c : Stream) : Stream :=
  match c.receiver with
  | .start =>
    match receiverTask.update 0 with
    | none => { c with receiver := .gone }
    | some update => { c with receiver := .added, channelRx := c.channelRx ++ [update] }
  | _ => c

/-- The receiver enters `reader_and_writer`. -/
def receiverStart (c : Stream) : Stream :=
  match c.receiver with
  | .added =>
    { c with
      receiver := .streaming (.running initialReader)
      toSender := c.toSender ++ if role = .connect then [⟨.handshake, ping⟩] else [] }
  | _ => c

def receiverRead (c : Stream) : Stream :=
  match c.receiver, c.toReceiver with
  | .streaming (.running st), m :: toReceiver =>
    let (reader, written, parsed) := readMessage json receiverTask.description st m
    { c with
      toReceiver
      receiver := .streaming reader
      toSender := c.toSender ++ written
      receiverParsed := c.receiverParsed ++ parsed
      answered := c.answered || !written.isEmpty }
  | _, _ => c

/-- The writer arm of the receiver. -/
def receiverForward (c : Stream) (randomName : GDPName) : Stream :=
  match c.receiver, c.localToNetRx with
  | .streaming (.running _), pkt :: localToNetRx =>
    match writerArm json recordJson randomName pkt with
    | none => { c with localToNetRx, receiver := .gone }
    | some writes =>
      { c with localToNetRx, toSender := c.toSender ++ writes.map (⟨.frame, ·⟩) }
  | _, _ => c

/-- One turn of the FIB handler of the receiver's machine. -/
def fibTurn (c : Stream) (event : FibEvent Nat) : Stream :=
  { c with
    fib := (Fib.step bindingTable c.fib event).1
    localToNetRx := c.localToNetRx ++
      ((Fib.step bindingTable c.fib event).2.sends.filter (·.dst.tx = 0)).map (·.pkt) }

def step (c : Stream) : StreamEvent → Stream
  | .senderPing => c.senderPing
  | .senderRead => c.senderRead json senderTask
  | .senderTimeout =>
    match c.sender with
    | .waiting => { c with sender := .gone }
    | _ => c
  | .senderForward randomName pkt => c.senderForward json recordJson randomName pkt
  | .senderGone => { c with sender := .gone }
  | .receiverAdd => c.receiverAdd receiverTask
  | .receiverStart => c.receiverStart role
  | .receiverRead => c.receiverRead json receiverTask
  | .receiverForward randomName => c.receiverForward json recordJson randomName
  | .receiverGone => { c with receiver := .gone }
  | .connect update =>
    { c with
      channelRx := c.channelRx ++
        [{ update with forwardDestination := update.forwardDestination.map (· + 1) }] }
  | .fibPacket reading pkt => c.fibTurn bindingTable (.packet reading pkt)
  | .fibUpdate =>
    match c.channelRx with
    | [] => c
    | update :: channelRx => { c with channelRx }.fibTurn bindingTable (.update update)

end Step

/-! ## The receiver has no frames to write -/

/-- The receiver's channel is in no entry of the table. -/
structure Unrouted (c : Stream) : Prop where
  localToNetRx : c.localToNetRx = []
  sent : ∀ update ∈ c.channelRx, update.forwardDestination = some 0 →
    ¬ IsReceiver update.connectionType
  entry : ∀ h, c.fib = .running h → ∀ topic, ∀ dst ∈ h.receiversOf topic, dst.tx ≠ 0

variable {c : Stream} {bindingTable : BindingTable}

theorem unrouted_initial : Unrouted {} := by
  refine ⟨rfl, fun update hmem => ?_, fun h hrun topic dst hdst => ?_⟩
  · cases hmem
  · cases hrun
    cases hdst

theorem Unrouted.of_eq (h : c.Unrouted) {c' : Stream} (hlocal : c'.localToNetRx = c.localToNetRx)
    (hchannelRx : c'.channelRx = c.channelRx) (hfib : c'.fib = c.fib) : c'.Unrouted := by
  refine ⟨hlocal.trans h.localToNetRx, fun update hmem => ?_, fun handler hrun => ?_⟩
  · exact h.sent update (hchannelRx ▸ hmem)
  · exact h.entry handler (hfib ▸ hrun)

theorem Unrouted.send (h : c.Unrouted) {update : FibStateChange Nat}
    (hupdate : update.forwardDestination = some 0 → ¬ IsReceiver update.connectionType)
    {c' : Stream} (hlocal : c'.localToNetRx = c.localToNetRx)
    (hchannelRx : c'.channelRx = c.channelRx ++ [update]) (hfib : c'.fib = c.fib) :
    c'.Unrouted := by
  refine ⟨hlocal.trans h.localToNetRx, fun other hmem => ?_, fun handler hrun => ?_⟩
  · rw [hchannelRx, List.mem_append, List.mem_singleton] at hmem
    rcases hmem with hmem | rfl
    · exact h.sent other hmem
    · exact hupdate
  · exact h.entry handler (hfib ▸ hrun)

/-- No entry of the table leads to the receiver. -/
theorem Unrouted.filter_sends (h : c.Unrouted) (event : FibEvent Nat) :
    (Fib.step bindingTable c.fib event).2.sends.filter (·.dst.tx = 0) = [] := by
  rw [List.filter_eq_nil_iff]
  intro sent hsent
  rw [Bool.not_eq_true]
  cases hfib : c.fib with
  | aborted =>
    rw [hfib] at hsent
    cases hsent
  | running handler =>
    rw [hfib] at hsent
    cases event with
    | update update => cases hsent
    | packet reading pkt =>
      obtain ⟨entry, hentry, -, rfl⟩ := mem_serve.1 ((packetArm_sublist handler reading pkt).subset
        hsent)
      have hne := h.entry handler hfib _ _ (List.fst_mem_of_mem_zipIdx hentry)
      exact decide_eq_false hne

theorem Unrouted.fibTurn (h : c.Unrouted) {event : FibEvent Nat}
    (hevent : ∀ update, event = .update update → update.forwardDestination = some 0 →
      ¬ IsReceiver update.connectionType) : (c.fibTurn bindingTable event).Unrouted := by
  refine ⟨?_, h.sent, fun handler' hrun topic dst hdst => ?_⟩
  · unfold Stream.fibTurn
    rw [h.filter_sends, h.localToNetRx]
    rfl
  · unfold Stream.fibTurn at hrun
    dsimp only at hrun
    cases hfib : c.fib with
    | aborted =>
      rw [hfib] at hrun
      cases hrun
    | running handler =>
      rw [hfib] at hrun
      rw [(step_running hrun).1, List.mem_append] at hdst
      rcases hdst with hdst | hdst
      · exact h.entry handler hfib topic dst hdst
      · rcases registered_singleton bindingTable event topic with
          hnone | ⟨update, dst', hupdate, htx, htype, -, hone⟩
        · rw [hnone] at hdst
          cases hdst
        · have htype' := (registered_of_mem hdst).type
          rw [hone, List.mem_singleton] at hdst
          subst hdst
          intro hzero
          rw [hzero] at htx
          exact hevent update hupdate htx (htype ▸ htype')

theorem mapping_of_receiver : ∀ entry ∈ directionMapping,
    "-receiver".toList <:+ entry.1.toList →
      directionStrToConnectionType entry.2 = some .sender ∨
        directionStrToConnectionType entry.2 = some .requestSender ∨
        directionStrToConnectionType entry.2 = some .responseSender := by decide

/-- The FIB is told of a receiver as of a sender. -/
theorem not_isReceiver_of_update {task : StreamTask} {connectionType : String} {tx : Nat}
    (hdirection : task.direction = connectionType ++ "-receiver") {update : FibStateChange Nat}
    (h : task.update tx = some update) : ¬ IsReceiver update.connectionType := by
  unfold StreamTask.update at h
  obtain ⟨type, htype, heq⟩ := Option.map_eq_some_iff.1 h
  have hupdate : update.connectionType = type := by rw [← heq]
  obtain ⟨flipped, hflip, hflipped⟩ := Option.bind_eq_some_iff.1 htype
  unfold flipDirection at hflip
  obtain ⟨before, after, hmapping, -⟩ := List.lookup_eq_some_iff.1 hflip
  have hmem : (String.ofList (task.direction.toList.map Char.toLower), flipped) ∈
      directionMapping := by
    rw [hmapping]
    exact List.mem_append_right _ List.mem_cons_self
  have hlower : "-receiver".toList <:+ task.direction.toList.map Char.toLower := by
    rw [hdirection, String.toList_append, List.map_append]
    exact List.suffix_append (connectionType.toList.map Char.toLower) _
  have hsender := mapping_of_receiver _ hmem
    ((congrArg ("-receiver".toList <:+ ·) String.toList_ofList).mpr hlower)
  rw [hupdate]
  simp only [hflipped, Option.some.injEq] at hsender
  rcases hsender with rfl | rfl | rfl <;> decide

/-! ## The order of the messages -/

def pingMessage : Message := ⟨.handshake, ping⟩

def pongMessage : Message := ⟨.handshake, pong⟩

/-- What is on its way by the phase of the sender, and whether the receiver has answered. -/
inductive Exchange : SenderPhase → List Message → List Message → Bool → Prop where
  | start {toSender : List Message} (h : toSender = [] ∨ toSender = [pingMessage]) :
    Exchange .start [] toSender false
  | asked {toSender : List Message} (h : toSender = [] ∨ toSender = [pingMessage]) :
    Exchange .waiting [pingMessage] toSender false
  | answered {toSender : List Message}
    (h : toSender = [pongMessage] ∨ toSender = [pingMessage, pongMessage]) :
    Exchange .waiting [] toSender true
  | streaming {reader : Reader} {toReceiver : List Message}
    (h : ∀ m ∈ toReceiver, m.origin = .frame ∧ m.bytes ≠ ping) :
    Exchange (.streaming reader) toReceiver [] true
  | gone {toReceiver toSender : List Message} {answered : Bool}
    (h : ∀ m ∈ toReceiver, m = pingMessage ∨ m.origin = .frame ∧ m.bytes ≠ ping) :
    Exchange .gone toReceiver toSender answered

/-- The handshake and the frames are kept apart. -/
structure Ordered (c : Stream) : Prop where
  exchange : Exchange c.sender c.toReceiver c.toSender c.answered
  unstarted : c.receiver = .start ∨ c.receiver = .added → c.toSender = [] ∧ c.answered = false
  updates : c.senderUpdates ≠ [] → c.answered = true
  waited : ∀ m ∈ c.waited, m.origin = .handshake
  senderParsed : c.senderParsed = []
  receiverParsed : ∀ m ∈ c.receiverParsed, m.origin = .frame

theorem ordered_initial : Ordered {} := by
  refine ⟨.start (.inl rfl), fun _ => ⟨rfl, rfl⟩, fun h => absurd rfl h, fun m hm => ?_, rfl,
    fun m hm => ?_⟩
  · cases hm
  · cases hm

/-- A sender that ends leaves what it has written. -/
theorem Exchange.end {sender : SenderPhase} {toReceiver toSender toSender' : List Message}
    {answered : Bool} (h : Exchange sender toReceiver toSender answered) :
    Exchange .gone toReceiver toSender' answered := by
  refine .gone fun m hm => ?_
  cases h with
  | start => cases hm
  | asked => exact .inl (List.mem_singleton.1 hm)
  | answered => cases hm
  | streaming h => exact .inr (h m hm)
  | gone h => exact h m hm

theorem Ordered.senderGone (h : c.Ordered) : Ordered { c with sender := .gone } :=
  ⟨h.exchange.end, h.unstarted, h.updates, h.waited, h.senderParsed, h.receiverParsed⟩

theorem Ordered.senderPing (h : c.Ordered) : c.senderPing.Ordered := by
  unfold Stream.senderPing
  split
  · rename_i hsender
    have hexchange := h.exchange
    rw [hsender] at hexchange
    refine ⟨?_, h.unstarted, h.updates, h.waited, h.senderParsed, h.receiverParsed⟩
    dsimp only
    generalize c.toReceiver = toReceiver at hexchange ⊢
    generalize c.answered = answered at hexchange ⊢
    cases hexchange with
    | start hto => exact .asked hto
  · exact h

section Reads

variable {json : SerdeJson GDPHeaderInTransit} {recordJson : SerdeJson GDPNameRecord}
  {role : ReceiverRole} {senderTask receiverTask : StreamTask}

theorem readMessage_ping (description : String) (st : ReaderState) :
    readMessage json description st pingMessage = (.running st, [pongMessage], []) := by
  unfold readMessage readArm pingMessage
  simp [pongMessage, ping]

variable (json) in
/-- Only a ping is answered. -/
theorem readMessage_of_ne (description : String) (st : ReaderState) {m : Message}
    (h : m.bytes ≠ ping) :
    (readMessage json description st m).2.1 = [] ∧
      ∀ other ∈ (readMessage json description st m).2.2, other = m := by
  unfold readMessage
  refine ⟨?_, fun other hother => ?_⟩
  · rw [List.map_eq_nil_iff]
    exact readArm_written (some description) st h
  · dsimp only at hother
    split at hother
    · cases hother
    · exact List.mem_singleton.1 hother

theorem fromUtf8_ping : fromUtf8 ping = some "ping" := fromUtf8_asBytes "ping"

theorem fromUtf8_pong : fromUtf8 pong = some "pong" := fromUtf8_asBytes "pong"

theorem Exchange.of_waiting {toReceiver toSender : List Message} {answered : Bool}
    (h : Exchange .waiting toReceiver toSender answered) :
    answered = false ∧ toReceiver = [pingMessage] ∧
        (toSender = [] ∨ toSender = [pingMessage]) ∨
      answered = true ∧ toReceiver = [] ∧
        (toSender = [pongMessage] ∨ toSender = [pingMessage, pongMessage]) := by
  cases h with
  | asked h => exact .inl ⟨rfl, rfl, h⟩
  | answered h => exact .inr ⟨rfl, rfl, h⟩

theorem Exchange.of_streaming {reader : Reader} {toReceiver toSender : List Message}
    {answered : Bool} (h : Exchange (.streaming reader) toReceiver toSender answered) :
    answered = true ∧ toSender = [] ∧ ∀ m ∈ toReceiver, m.origin = .frame ∧ m.bytes ≠ ping := by
  cases h with
  | streaming h => exact ⟨rfl, rfl, h⟩

/-- What the waiting sender reads next. -/
theorem Exchange.head_waiting {toReceiver toSender : List Message} {m : Message} {answered : Bool}
    (h : Exchange .waiting toReceiver (m :: toSender) answered) :
    m = pingMessage ∧ Exchange .waiting toReceiver toSender answered ∨
      m = pongMessage ∧ toReceiver = [] ∧ toSender = [] ∧ answered = true := by
  obtain ⟨rfl, rfl, hto⟩ | ⟨rfl, rfl, hto⟩ := h.of_waiting
  · rcases hto with hto | hto
    · cases hto
    · cases hto
      exact .inl ⟨rfl, .asked (.inl rfl)⟩
  · rcases hto with hto | hto
    · cases hto
      exact .inr ⟨rfl, rfl, rfl, rfl⟩
    · cases hto
      exact .inl ⟨rfl, .answered (.inl rfl)⟩

theorem Ordered.read_waited (h : c.Ordered) {m : Message} {toSender : List Message}
    (hto : c.toSender = m :: toSender) (horigin : m.origin = .handshake)
    {sender : SenderPhase} (hexchange : Exchange sender c.toReceiver toSender c.answered) :
    Ordered { c with sender, toSender, waited := c.waited ++ [m] } := by
  refine ⟨hexchange, fun hunstarted => ?_, h.updates, fun other hother => ?_, h.senderParsed,
    h.receiverParsed⟩
  · have hnil := (h.unstarted hunstarted).1
    rw [hto] at hnil
    cases hnil
  · rcases List.mem_append.1 hother with hother | hother
    · exact h.waited other hother
    · rw [List.mem_singleton.1 hother]
      exact horigin

/-- The pong establishes the stream. -/
theorem Ordered.establish (h : c.Ordered) (hreceiver : c.toReceiver = [])
    (hsender : c.toSender = []) (hanswered : c.answered = true) :
    (c.establish senderTask).Ordered := by
  unfold Stream.establish
  split
  · exact h.senderGone
  · refine ⟨?_, h.unstarted, fun _ => hanswered, h.waited, h.senderParsed, h.receiverParsed⟩
    dsimp only
    rw [hreceiver, hsender, hanswered]
    exact .streaming fun m hm => absurd hm List.not_mem_nil

theorem Ordered.senderRead (h : c.Ordered) : (c.senderRead json senderTask).Ordered := by
  unfold Stream.senderRead
  split
  · exact h
  · rename_i m toSender hto
    have hexchange := h.exchange
    rw [hto] at hexchange
    split
    · rename_i hsender
      rw [hsender] at hexchange
      obtain ⟨rfl, hrest⟩ | ⟨rfl, hreceiver, rfl, hanswered⟩ := hexchange.head_waiting
      · have hread := h.read_waited hto rfl (hsender ▸ hrest)
        have hresponse : fromUtf8 pingMessage.bytes = some "ping" := fromUtf8_ping
        simp only [hresponse]
        rw [if_pos (by decide)]
        exact hread
      · have hread := h.read_waited hto rfl (.end (hto ▸ h.exchange))
        have hresponse : fromUtf8 pongMessage.bytes = some "pong" := fromUtf8_pong
        simp only [hresponse]
        rw [if_neg (by decide)]
        exact hread.establish hreceiver rfl hanswered
    · rename_i hsender
      rw [hsender] at hexchange
      cases hexchange.of_streaming.2.1
    · exact h

theorem Ordered.senderForward (h : c.Ordered) {randomName : GDPName} {pkt : GDPPacket}
    (hwrites : ∀ writes, writerArm json recordJson randomName pkt = some writes →
      ping ∉ writes) : (c.senderForward json recordJson randomName pkt).Ordered := by
  unfold Stream.senderForward
  split
  · rename_i st hsender
    split
    · exact h.senderGone
    · rename_i writes hpkt
      have hexchange := h.exchange
      rw [hsender] at hexchange
      obtain ⟨hanswered, hto, hframes⟩ := hexchange.of_streaming
      refine ⟨?_, h.unstarted, h.updates, h.waited, h.senderParsed, h.receiverParsed⟩
      dsimp only
      rw [hsender, hanswered, hto]
      refine .streaming fun m hm => ?_
      rcases List.mem_append.1 hm with hm | hm
      · exact hframes m hm
      · obtain ⟨bytes, hbytes, rfl⟩ := List.mem_map.1 hm
        exact ⟨rfl, fun heq => hwrites writes hpkt (heq ▸ hbytes)⟩
  · exact h

theorem Ordered.receiverGone (h : c.Ordered) : Ordered { c with receiver := .gone } := by
  refine ⟨h.exchange, fun hunstarted => ?_, h.updates, h.waited, h.senderParsed, h.receiverParsed⟩
  rcases hunstarted with hunstarted | hunstarted <;> cases hunstarted

theorem Ordered.receiverAdd (h : c.Ordered) : (c.receiverAdd receiverTask).Ordered := by
  unfold Stream.receiverAdd
  split
  · rename_i hreceiver
    split
    · exact h.receiverGone
    · exact ⟨h.exchange, fun _ => h.unstarted (.inl hreceiver), h.updates, h.waited,
        h.senderParsed, h.receiverParsed⟩
  · exact h

theorem Ordered.receiverStart (h : c.Ordered) : (c.receiverStart role).Ordered := by
  unfold Stream.receiverStart
  split
  · rename_i hreceiver
    obtain ⟨hto, hanswered⟩ := h.unstarted (.inr hreceiver)
    have hasked : ∀ role : ReceiverRole,
        (if role = .connect then [⟨.handshake, ping⟩] else [] : List Message) = [] ∨
          (if role = .connect then [⟨.handshake, ping⟩] else [] : List Message) =
            [pingMessage] := by
      intro role
      cases role
      · exact .inl rfl
      · exact .inr rfl
    refine ⟨?_, fun hunstarted => ?_, h.updates, h.waited, h.senderParsed, h.receiverParsed⟩
    · have hexchange := h.exchange
      dsimp only
      rw [hto, hanswered] at hexchange
      rw [hto, hanswered, List.nil_append]
      generalize c.sender = sender at hexchange ⊢
      generalize c.toReceiver = toReceiver at hexchange ⊢
      cases hexchange with
      | start => exact .start (hasked role)
      | asked => exact .asked (hasked role)
      | gone hframes => exact .gone hframes
    · rcases hunstarted with hunstarted | hunstarted <;> cases hunstarted
  · exact h

/-- What the receiver reads next: the ping, which it answers, or a frame. -/
theorem Exchange.head_receiver {sender : SenderPhase} {m : Message}
    {toReceiver toSender : List Message} {answered : Bool}
    (h : Exchange sender (m :: toReceiver) toSender answered) :
    m = pingMessage ∧ Exchange sender toReceiver (toSender ++ [pongMessage]) true ∨
      (m.origin = .frame ∧ m.bytes ≠ ping) ∧ Exchange sender toReceiver toSender answered := by
  cases h with
  | asked hto =>
    refine .inl ⟨rfl, .answered ?_⟩
    rcases hto with rfl | rfl
    · exact .inl rfl
    · exact .inr rfl
  | streaming hframes =>
    obtain ⟨hm, hrest⟩ := List.forall_mem_cons.1 hframes
    exact .inr ⟨hm, .streaming hrest⟩
  | gone hframes =>
    obtain ⟨hm, hrest⟩ := List.forall_mem_cons.1 hframes
    rcases hm with hm | hm
    · exact .inl ⟨hm, .gone hrest⟩
    · exact .inr ⟨hm, .gone hrest⟩

theorem Ordered.receiverRead (h : c.Ordered) : (c.receiverRead json receiverTask).Ordered := by
  unfold Stream.receiverRead
  split
  · rename_i st m toReceiver hreceiver hto
    have hexchange := h.exchange
    rw [hto] at hexchange
    dsimp only
    have hstarted : ∀ {P : Prop} {reader : Reader},
        ReceiverPhase.streaming reader = .start ∨ ReceiverPhase.streaming reader = .added → P := by
      rintro P reader (h | h) <;> cases h
    obtain ⟨rfl, hrest⟩ | ⟨⟨horigin, hne⟩, hrest⟩ := hexchange.head_receiver
    · rw [readMessage_ping]
      refine ⟨?_, hstarted, fun _ => Bool.or_true _, h.waited, h.senderParsed, ?_⟩
      · dsimp only
        rw [List.isEmpty_cons, Bool.not_false, Bool.or_true]
        exact hrest
      · dsimp only
        rw [List.append_nil]
        exact h.receiverParsed
    · obtain ⟨hwritten, hparsed⟩ := readMessage_of_ne json receiverTask.description st hne
      refine ⟨?_, hstarted, fun hupdates => ?_, h.waited, h.senderParsed, fun other hother => ?_⟩
      · dsimp only
        rw [hwritten, List.append_nil, List.isEmpty_nil, Bool.not_true, Bool.or_false]
        exact hrest
      · dsimp only
        rw [h.updates hupdates, Bool.true_or]
      · rcases List.mem_append.1 hother with hother | hother
        · exact h.receiverParsed other hother
        · rw [hparsed other hother]
          exact horigin
  · exact h

/-! ## Runs -/

variable (json recordJson) in
/-- No write for a packet that is forwarded is just `ping`. -/
def PingFree : StreamEvent → Prop
  | .senderForward randomName pkt =>
    ∀ writes, writerArm json recordJson randomName pkt = some writes → ping ∉ writes
  | _ => True

theorem Ordered.step (h : c.Ordered) (hunrouted : c.Unrouted) {event : StreamEvent}
    (hevent : PingFree json recordJson event) :
    (c.step json recordJson bindingTable role senderTask receiverTask event).Ordered := by
  cases event with
  | senderPing => exact h.senderPing
  | senderRead => exact h.senderRead
  | senderTimeout =>
    unfold Stream.step
    dsimp only
    split
    · exact h.senderGone
    · exact h
  | senderForward randomName pkt => exact h.senderForward hevent
  | senderGone => exact h.senderGone
  | receiverAdd => exact h.receiverAdd
  | receiverStart => exact h.receiverStart
  | receiverRead => exact h.receiverRead
  | receiverForward randomName =>
    unfold Stream.step Stream.receiverForward
    dsimp only
    rw [hunrouted.localToNetRx]
    split
    · rename_i hnil
      cases hnil
    · exact h
  | receiverGone => exact h.receiverGone
  | connect update =>
    exact ⟨h.exchange, h.unstarted, h.updates, h.waited, h.senderParsed, h.receiverParsed⟩
  | fibPacket reading pkt =>
    exact ⟨h.exchange, h.unstarted, h.updates, h.waited, h.senderParsed, h.receiverParsed⟩
  | fibUpdate =>
    unfold Stream.step
    dsimp only
    split
    · exact h
    · exact ⟨h.exchange, h.unstarted, h.updates, h.waited, h.senderParsed, h.receiverParsed⟩

theorem Unrouted.step (h : c.Unrouted) {connectionType : String}
    (hdirection : receiverTask.direction = connectionType ++ "-receiver") (event : StreamEvent) :
    (c.step json recordJson bindingTable role senderTask receiverTask event).Unrouted := by
  cases event with
  | senderPing =>
    unfold Stream.step Stream.senderPing
    dsimp only
    split <;> exact h.of_eq rfl rfl rfl
  | senderRead =>
    unfold Stream.step Stream.senderRead Stream.establish
    dsimp only
    split
    · exact h
    · split
      · split
        · exact h.of_eq rfl rfl rfl
        · split
          · exact h.of_eq rfl rfl rfl
          · split <;> exact h.of_eq rfl rfl rfl
      · exact h.of_eq rfl rfl rfl
      · exact h
  | senderTimeout =>
    unfold Stream.step
    dsimp only
    split <;> exact h.of_eq rfl rfl rfl
  | senderForward randomName pkt =>
    unfold Stream.step Stream.senderForward
    dsimp only
    split
    · split <;> exact h.of_eq rfl rfl rfl
    · exact h
  | senderGone => exact h.of_eq rfl rfl rfl
  | receiverAdd =>
    unfold Stream.step Stream.receiverAdd
    dsimp only
    split
    · split
      · exact h.of_eq rfl rfl rfl
      · rename_i update hupdate
        exact h.send (fun _ => not_isReceiver_of_update hdirection hupdate) rfl rfl rfl
    · exact h
  | receiverStart =>
    unfold Stream.step Stream.receiverStart
    dsimp only
    split <;> exact h.of_eq rfl rfl rfl
  | receiverRead =>
    unfold Stream.step Stream.receiverRead
    dsimp only
    split <;> exact h.of_eq rfl rfl rfl
  | receiverForward randomName =>
    unfold Stream.step Stream.receiverForward
    dsimp only
    rw [h.localToNetRx]
    split
    · rename_i hnil
      cases hnil
    · exact h
  | receiverGone => exact h.of_eq rfl rfl rfl
  | connect update =>
    refine h.send (fun hzero => ?_) rfl rfl rfl
    obtain ⟨tx, -, htx⟩ := Option.map_eq_some_iff.1 hzero
    exact absurd htx (Nat.succ_ne_zero tx)
  | fibPacket reading pkt =>
    refine h.fibTurn fun update hupdate => ?_
    cases hupdate
  | fibUpdate =>
    unfold Stream.step
    dsimp only
    split
    · exact h
    · rename_i update channelRx hchannelRx
      have hrest : Unrouted { c with channelRx } :=
        ⟨h.localToNetRx, fun other hmem => h.sent other (hchannelRx ▸ List.mem_cons_of_mem _ hmem),
          h.entry⟩
      refine hrest.fibTurn fun other hother => ?_
      cases hother
      exact h.sent update (hchannelRx ▸ List.mem_cons_self)

end Reads

end Stream

/-- **Main result.**  For a stream between a sender and a receiver of some connection type:
in every run in which no frame is written as just `ping`, neither reader parses a message of
the handshake, the sender's loop reads no frame, and the sender's FIB is told of the stream
only once the receiver's reader has answered. -/
theorem handshake_kept_apart (json : SerdeJson GDPHeaderInTransit)
    (recordJson : SerdeJson GDPNameRecord) (bindingTable : BindingTable) (role : ReceiverRole)
    (connectionType : String) {senderTask receiverTask : StreamTask}
    (hreceiver : receiverTask.direction = connectionType ++ "-receiver")
    {events : List StreamEvent}
    (hframes : ∀ event ∈ events, Stream.PingFree json recordJson event) :
    let c := Run.after (Stream.step json recordJson bindingTable role senderTask receiverTask) {}
      events
    (∀ m ∈ c.senderParsed ++ c.receiverParsed, m.origin = .frame) ∧
      (∀ m ∈ c.waited, m.origin = .handshake) ∧
      (c.senderUpdates ≠ [] → c.answered = true) := by
  intro c
  have hkept : c.Unrouted ∧ c.Ordered := by
    refine (Run.throughout_of_forall _ hframes).invariant (fun c : Stream => c.Unrouted ∧ c.Ordered)
      (fun c event h hevent => ?_) ⟨Stream.unrouted_initial, Stream.ordered_initial⟩
    exact ⟨h.1.step hreceiver event, h.2.step h.1 hevent⟩
  refine ⟨fun m hm => ?_, hkept.2.waited, hkept.2.updates⟩
  rw [hkept.2.senderParsed, List.nil_append] at hm
  exact hkept.2.receiverParsed m hm

def sampleTask (direction : String) : StreamTask :=
  { direction, topicGdpName := sampleName 1, interface := "eth0", address := "10.0.0.2:7000",
    description := "udp stream" }

def samplePkt : GDPPacket := { samplePacket [1] with payload := none }

/-- Both ends ping, the receiver answers, and a frame follows. -/
def sampleSession : List StreamEvent :=
  [.receiverAdd, .senderPing, .receiverStart, .fibUpdate, .senderRead, .receiverRead, .senderRead,
    .senderForward (sampleName 9) samplePkt, .receiverRead]

theorem sampleSession_kept_apart :
    let c := Run.after (Stream.step headerJson unusedRecordJson none .connect
      (sampleTask "pubsub-sender") (sampleTask "pubsub-receiver")) {} sampleSession
    (∀ m ∈ c.senderParsed ++ c.receiverParsed, m.origin = .frame) ∧
      (∀ m ∈ c.waited, m.origin = .handshake) ∧
      (c.senderUpdates ≠ [] → c.answered = true) := by
  refine handshake_kept_apart headerJson unusedRecordJson none .connect "pubsub" rfl
    fun event hevent => ?_
  by_cases hforward : event = .senderForward (sampleName 9) samplePkt
  · subst hforward
    intro writes hwrites hmem
    cases hwrites
    exact headerBlock_ne_ping _ (List.mem_singleton.1 hmem).symm
  · simp only [sampleSession, List.mem_cons, hforward, List.not_mem_nil, or_false, false_or]
      at hevent
    rcases hevent with rfl | rfl | rfl | rfl | rfl | rfl | rfl | rfl <;> exact trivial

end RtFogros
