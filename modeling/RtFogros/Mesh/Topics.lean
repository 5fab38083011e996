import RtFogros.Mesh.Kept
import RtFogros.Mesh.Order
import RtFogros.Ros.Handlers

/-!
# Topics over the mesh

The handlers of `fogrs-ros/src/lib.rs` for remote publishers and remote subscribers and the tasks
that they spawn, on any number of machines: what a subscriber's task publishes to ROS is a message
that ROS gave to a publisher's task, and it publishes it once (`publications_authentic`).

A step of the system is a few events of the mesh and a change of one task, and `Moves` is the
inversion that says which.  `Serves` relates a task to its channel: it has taken a first part of
what was sent there and published what it could decode, up to a packet on which it crashed.  The
rest of `Sound` is what the mesh already proves of that channel.
-/

namespace RtFogros

open FibHandler Kcp

/-- A message that ROS gave to the task of a topic of `handle_ros_topic_remote_publisher`. -/
structure TopicMessage (Node : Type) where
  node : Node
  topicGdpName : GDPName
  guid : GDPName
  payload : Bytes

/-- The task of a topic of `handle_ros_topic_remote_subscriber`, in `ros_rx.recv()` or past a
failed `unwrap`. -/
structure SubscriberTask (Node : Type) where
  node : Node
  topicGdpName : GDPName
  crashed : Bool := false

/-- A message that the task on a channel published to ROS. -/
structure RosPublication where
  channel : Nat
  topicGdpName : GDPName
  guid : Option GDPName
  payload : Bytes

/-- The mesh, and the handlers of topics of each machine with their tasks: those of publishers by
their topics, those of subscribers under the channels that they read. -/
structure Topics (Node : Type) where
  mesh : Mesh Node
  publishing : Node → RosHandler := fun _ => {}
  subscribing : Node → RosHandler := fun _ => {}
  -- the updates in `channel_rx`, and whether a task holds the receiver
  channelRx : Node → List (FibStateChange Nat × Bool) := fun _ => []
  publishers : Node → List GDPName := fun _ => []
  subscribers : Nat → Option (SubscriberTask Node) := fun _ => none
  messages : List (TopicMessage Node) := []
  publications : List RosPublication := []

inductive TopicEvent (Node : Type) where
  -- what the FIB handlers, the streams and the other local handlers do
  | mesh (event : MeshEvent Node)
  -- a handler of topics takes a request
  | publisherStatus (n : Node) (event : StatusEvent)
  | subscriberStatus (n : Node) (event : StatusEvent)
  -- the FIB handler takes an update of theirs
  | update (n : Node)
  -- ROS gives a message to the task of a topic, which draws a guid
  | rosMessage (n : Node) (topicGdpName : GDPName) (payload : Bytes) (guid : GDPName)
  -- the task that reads channel `i` takes a packet; `published` says whether r2r can publish it
  | takePacket (i : Nat) (published : Bool)

/-- The update but for the channel, which is numbered when it is taken. -/
def FibStateChange.unnumbered (update : FibStateChange Nat) : FibStateChange Unit :=
  { action := update.action, connectionType := update.connectionType,
    topicGdpName := update.topicGdpName
    forwardDestination := update.forwardDestination.map fun _ => ()
    interface := update.interface, address := update.address, description := update.description }

instance (c : RosHandler) (update : FibStateChange Nat) : Decidable (c.Reads update) :=
  inferInstanceAs (Decidable (∃ tx ∈ c.readers, _))

namespace RosHandler

/-- The updates that a round sends. -/
def announcedSince (before after : RosHandler) : List (FibStateChange Nat × Bool) :=
  (after.sent.drop before.sent.length).map fun update => (update, decide (after.Reads update))

/-- The topics whose task a round spawns. -/
def spawnedSince (before after : RosHandler) : List GDPName :=
  if after.panicked then [] else after.existingTopics.drop before.existingTopics.length

end RosHandler

namespace Topics

variable {Node : Type} [DecidableEq Node]

section Step

variable (digest : Bytes → Vector UInt8 4) (json : SerdeJson GDPHeaderInTransit)
  (recordJson : SerdeJson GDPNameRecord) (bindingTable : Node → BindingTable)
  (uniqueRosNodeGdpName : Node → GDPName)

def initial : Topics Node where
  mesh := .initial

/-- The channel of a task is its own. -/
def IsTasks (s : Topics Node) : MeshEvent Node → Prop
  | .take i _ | .shut i => (s.subscribers i).isSome
  | _ => False

instance (s : Topics Node) (event : MeshEvent Node) : Decidable (s.IsTasks event) := by
  cases event <;> unfold IsTasks <;> infer_instance

def publisherStatus (s : Topics Node) (n : Node) (event : StatusEvent) : Topics Node :=
  let before := s.publishing n
  let after := RosHandler.handleRosTopicRemotePublisher digest before event
  { s with
    publishing := Function.update s.publishing n after
    channelRx := Function.update s.channelRx n (s.channelRx n ++ before.announcedSince after)
    publishers := Function.update s.publishers n (s.publishers n ++ before.spawnedSince after) }

def subscriberStatus (s : Topics Node) (n : Node) (event : StatusEvent) : Topics Node :=
  let before := s.subscribing n
  let after := RosHandler.handleRosTopicRemoteSubscriber digest before event
  { s with
    subscribing := Function.update s.subscribing n after
    channelRx := Function.update s.channelRx n (s.channelRx n ++ before.announcedSince after) }

/-- The channel of an update is made for it.  A receiver that no task holds is dropped. -/
def update (s : Topics Node) (n : Node) : Topics Node :=
  match s.channelRx n with
  | [] => s
  | (update, read) :: channelRx =>
    let i := s.mesh.links.length
    let mesh := s.mesh.step json recordJson bindingTable
      (.connect n update.unnumbered .localQueue none)
    let s := { s with channelRx := Function.update s.channelRx n channelRx }
    if read then
      { s with
        mesh
        subscribers := Function.update s.subscribers i
          (some { node := n, topicGdpName := update.topicGdpName }) }
    else { s with mesh := mesh.step json recordJson bindingTable (.shut i) }

def TopicMessage.packet (msg : TopicMessage Node) : GDPPacket :=
  constructGdpForwardFromBytesWithGuid msg.topicGdpName (uniqueRosNodeGdpName msg.node) msg.payload
    msg.guid

/-- `fib_tx.send` fails if the FIB handler has aborted. -/
def rosMessage (s : Topics Node) (msg : TopicMessage Node) : Topics Node :=
  if msg.topicGdpName ∈ s.publishers msg.node then
    match s.mesh.log.states msg.node with
    | .aborted =>
      { s with
        publishers := Function.update s.publishers msg.node
          ((s.publishers msg.node).erase msg.topicGdpName) }
    | .running _ =>
      { s with
        mesh := s.mesh.step json recordJson bindingTable
          (.publish msg.node (TopicMessage.packet uniqueRosNodeGdpName msg))
        messages := s.messages ++ [msg] }
  else s

/-- The task ends, and its receiver is dropped. -/
def crash (s : Topics Node) (i : Nat) (task : SubscriberTask Node) : Topics Node :=
  { s with
    mesh := s.mesh.step json recordJson bindingTable (.shut i)
    subscribers := Function.update s.subscribers i (some { task with crashed := true }) }

def takePacket (s : Topics Node) (i : Nat) (published : Bool) : Topics Node :=
  match s.subscribers i, s.mesh.links[i]?.map Link.queue with
  | some task, some (pkt :: _) =>
    if task.crashed then s
    else
      let s := { s with mesh := s.mesh.step json recordJson bindingTable (.take i Link.anyName) }
      if pkt.action = .forward then
        if pkt.gdpname = task.topicGdpName then
          match pkt.payload with
          | none => s.crash json recordJson bindingTable i task
          | some payload =>
            if published then
              { s with publications := s.publications ++
                  [{ channel := i, topicGdpName := task.topicGdpName, guid := pkt.guid, payload }] }
            else s.crash json recordJson bindingTable i task
        else s
      else s
  | _, _ => s

def step (s : Topics Node) : TopicEvent Node → Topics Node
  | .mesh event =>
    if s.IsTasks event then s
    else { s with mesh := s.mesh.step json recordJson bindingTable event }
  | .publisherStatus n event => s.publisherStatus digest n event
  | .subscriberStatus n event => s.subscriberStatus digest n event
  | .update n => s.update json recordJson bindingTable n
  | .rosMessage n topicGdpName payload guid =>
    s.rosMessage json recordJson bindingTable uniqueRosNodeGdpName
      { node := n, topicGdpName, guid, payload }
  | .takePacket i published => s.takePacket json recordJson bindingTable i published

end Step

/-! ## What a step does -/

section Moves

variable (digest : Bytes → Vector UInt8 4) (json : SerdeJson GDPHeaderInTransit)
  (recordJson : SerdeJson GDPNameRecord) (bindingTable : Node → BindingTable)
  (uniqueRosNodeGdpName : Node → GDPName) (s : Topics Node)

/-- The mesh after some events. -/
abbrev meshAfter (events : List (MeshEvent Node)) : Mesh Node :=
  Run.after (Mesh.step json recordJson bindingTable) s.mesh events

/-- The task reads a packet from its channel. -/
structure TakesFrom (i : Nat) (task : SubscriberTask Node) (pkt : GDPPacket) : Prop where
  reads : s.subscribers i = some task
  running : task.crashed = false
  queue : ∃ l rest, s.mesh.links[i]? = some l ∧ l.queue = pkt :: rest

/-- A step, and what it does in the mesh. -/
inductive Moves : TopicEvent Node → List (MeshEvent Node) → Topics Node → Prop where
  | idle (event : TopicEvent Node) : Moves event [] s
  | mesh {event : MeshEvent Node} (hothers : ¬ s.IsTasks event) :
      Moves (.mesh event) [event]
        { s with mesh := s.meshAfter json recordJson bindingTable [event] }
  | publisherStatus (n : Node) (event : StatusEvent) :
      Moves (.publisherStatus n event) [] (s.publisherStatus digest n event)
  | subscriberStatus (n : Node) (event : StatusEvent) :
      Moves (.subscriberStatus n event) [] (s.subscriberStatus digest n event)
  | spawned {n : Node} {update : FibStateChange Nat} {rest : List (FibStateChange Nat × Bool)}
      (hrx : s.channelRx n = (update, true) :: rest) :
      Moves (.update n) [.connect n update.unnumbered .localQueue none]
        { s with
          mesh := s.meshAfter json recordJson bindingTable
            [.connect n update.unnumbered .localQueue none]
          channelRx := Function.update s.channelRx n rest
          subscribers := Function.update s.subscribers s.mesh.links.length
            (some { node := n, topicGdpName := update.topicGdpName }) }
  | dropped {n : Node} {update : FibStateChange Nat} {rest : List (FibStateChange Nat × Bool)}
      (hrx : s.channelRx n = (update, false) :: rest) :
      Moves (.update n)
        [.connect n update.unnumbered .localQueue none, .shut s.mesh.links.length]
        { s with
          mesh := s.meshAfter json recordJson bindingTable
            [.connect n update.unnumbered .localQueue none, .shut s.mesh.links.length]
          channelRx := Function.update s.channelRx n rest }
  | message {msg : TopicMessage Node} :
      Moves (.rosMessage msg.node msg.topicGdpName msg.payload msg.guid)
        [.publish msg.node (TopicMessage.packet uniqueRosNodeGdpName msg)]
        { s with
          mesh := s.meshAfter json recordJson bindingTable
            [.publish msg.node (TopicMessage.packet uniqueRosNodeGdpName msg)]
          messages := s.messages ++ [msg] }
  | ended (event : TopicEvent Node) (publishers : Node → List GDPName) :
      Moves event [] { s with publishers }
  | skipped {i : Nat} {task : SubscriberTask Node} {pkt : GDPPacket} {published : Bool}
      (htakes : s.TakesFrom i task pkt)
      (hother : ¬ (pkt.action = .forward ∧ pkt.gdpname = task.topicGdpName)) :
      Moves (.takePacket i published) [.take i Link.anyName]
        { s with mesh := s.meshAfter json recordJson bindingTable [.take i Link.anyName] }
  | published {i : Nat} {task : SubscriberTask Node} {pkt : GDPPacket} {payload : Bytes}
      (htakes : s.TakesFrom i task pkt) (haction : pkt.action = .forward)
      (htopic : pkt.gdpname = task.topicGdpName) (hpayload : pkt.payload = some payload) :
      Moves (.takePacket i true) [.take i Link.anyName]
        { s with
          mesh := s.meshAfter json recordJson bindingTable [.take i Link.anyName]
          publications := s.publications ++
            [{ channel := i, topicGdpName := task.topicGdpName, guid := pkt.guid, payload }] }
  | crashed {i : Nat} {task : SubscriberTask Node} {pkt : GDPPacket} {published : Bool}
      (htakes : s.TakesFrom i task pkt) (hfails : pkt.payload = none ∨ published = false) :
      Moves (.takePacket i published) [.take i Link.anyName, .shut i]
        { s with
          mesh := s.meshAfter json recordJson bindingTable [.take i Link.anyName, .shut i]
          subscribers := Function.update s.subscribers i (some { task with crashed := true }) }

theorem moves_takePacket (i : Nat) (published : Bool) :
    ∃ events, Moves digest json recordJson bindingTable uniqueRosNodeGdpName s
      (.takePacket i published) events (s.takePacket json recordJson bindingTable i published) := by
  unfold takePacket
  split
  · rename_i task pkt rest htask hqueue
    obtain ⟨l, hl, hqueue⟩ := Option.map_eq_some_iff.1 hqueue
    by_cases hcrashed : task.crashed = true
    · rw [if_pos hcrashed]
      exact ⟨_, .idle _⟩
    · have htakes : s.TakesFrom i task pkt :=
        ⟨htask, by simpa using hcrashed, l, rest, hl, hqueue⟩
      rw [if_neg hcrashed]
      dsimp only
      split
      · rename_i haction
        split
        · rename_i htopic
          split
          · rename_i hpayload
            exact ⟨_, .crashed htakes (.inl hpayload)⟩
          · rename_i payload hpayload
            cases published with
            | true => exact ⟨_, .published htakes haction htopic hpayload⟩
            | false => exact ⟨_, .crashed htakes (.inr rfl)⟩
        · rename_i htopic
          exact ⟨_, .skipped htakes fun h => htopic h.2⟩
      · rename_i haction
        exact ⟨_, .skipped htakes fun h => haction h.1⟩
  · exact ⟨_, .idle _⟩

theorem moves_step (event : TopicEvent Node) :
    ∃ events, Moves digest json recordJson bindingTable uniqueRosNodeGdpName s event events
      (s.step digest json recordJson bindingTable uniqueRosNodeGdpName event) := by
  cases event with
  | mesh event =>
    rw [step]
    split
    · exact ⟨_, .idle _⟩
    · exact ⟨_, .mesh ‹_›⟩
  | publisherStatus n event => exact ⟨_, .publisherStatus n event⟩
  | subscriberStatus n event => exact ⟨_, .subscriberStatus n event⟩
  | update n =>
    rw [step, update]
    split
    · exact ⟨_, .idle _⟩
    · rename_i update read rest hrx
      cases read with
      | true => exact ⟨_, .spawned hrx⟩
      | false => exact ⟨_, .dropped hrx⟩
  | rosMessage n topicGdpName payload guid =>
    rw [step, rosMessage]
    split
    · dsimp only
      split
      · exact ⟨_, .ended _ _⟩
      · let msg : TopicMessage Node := { node := n, topicGdpName, guid, payload }
        exact ⟨_, (.message : Moves digest json recordJson bindingTable uniqueRosNodeGdpName s
          (.rosMessage msg.node msg.topicGdpName msg.payload msg.guid) _ _)⟩
    · exact ⟨_, .idle _⟩
  | takePacket i published => exact moves_takePacket ..

end Moves

/-! ## What the tasks do with their channels -/

/-- What the task publishes of a packet. -/
def publication (i : Nat) (topicGdpName : GDPName) (pkt : GDPPacket) : Option RosPublication :=
  if pkt.action = .forward ∧ pkt.gdpname = topicGdpName then
    pkt.payload.map fun payload => { channel := i, topicGdpName, guid := pkt.guid, payload }
  else none

theorem publication_eq_some {i : Nat} {topicGdpName : GDPName} {pkt : GDPPacket}
    {o : RosPublication} (h : publication i topicGdpName pkt = some o) :
    pkt.action = .forward ∧ pkt.gdpname = topicGdpName ∧ pkt.payload = some o.payload ∧
      o = { channel := i, topicGdpName, guid := pkt.guid, payload := o.payload } := by
  unfold publication at h
  split at h
  · rename_i hforward
    obtain ⟨payload, hpayload, rfl⟩ := Option.map_eq_some_iff.1 h
    exact ⟨hforward.1, hforward.2, hpayload, rfl⟩
  · cases h

/-- What the task on a channel has published. -/
def publicationsAt (s : Topics Node) (i : Nat) : List RosPublication :=
  s.publications.filter (·.channel = i)

/-- The task has taken packets from its link, in order, and published what it could. -/
structure Serves (task : SubscriberTask Node) (i : Nat) (l : Link Node)
    (published : List RosPublication) : Prop where
  lead : l.lead = .localQueue
  up : task.crashed = false → l.up = true
  initial : published <+: l.takenOff.filterMap (publication i task.topicGdpName)
  all : task.crashed = false → published = l.takenOff.filterMap (publication i task.topicGdpName)

variable {digest : Bytes → Vector UInt8 4}
  {json : SerdeJson GDPHeaderInTransit} {recordJson : SerdeJson GDPNameRecord}
  {bindingTable : Node → BindingTable} {uniqueRosNodeGdpName : Node → GDPName}
  {s s' : Topics Node} {events : List (MeshEvent Node)}

/-! ## The invariant -/

/-- Where messages come from and what became of them at the subscribers. -/
structure Sound (json : SerdeJson GDPHeaderInTransit) (recordJson : SerdeJson GDPNameRecord)
    (bindingTable : Node → BindingTable) (uniqueRosNodeGdpName : Node → GDPName)
    (s : Topics Node) : Prop where
  mesh : Mesh.Sound json recordJson bindingTable s.mesh
  given : (s.messages.map (TopicMessage.packet uniqueRosNodeGdpName)).Sublist s.mesh.published
  forwarded : ∀ p ∈ s.mesh.published, p.action = .forward →
    p ∈ s.messages.map (TopicMessage.packet uniqueRosNodeGdpName)
  serves : ∀ {i : Nat} {task : SubscriberTask Node}, s.subscribers i = some task →
    ∃ l, s.mesh.links[i]? = some l ∧ Serves task i l (s.publicationsAt i)
  unread : ∀ {i : Nat}, s.subscribers i = none → s.publicationsAt i = []

theorem Sound.start :
    Sound json recordJson bindingTable uniqueRosNodeGdpName (initial : Topics Node) :=
  ⟨.start, List.Sublist.refl _, List.forall_mem_nil _, nofun, fun _ => rfl⟩

/-- No payload ends in a keepalive, and what other local handlers publish are Request and Response
packets that a stream carries. -/
def Plain : TopicEvent Node → Prop
  | .mesh (.publish _ pkt) => Carried pkt ∧ pkt.action ≠ .forward
  | .rosMessage _ _ payload _ => ¬ EndsInPing payload
  | _ => True

/-- What the mesh publishes in a step. -/
theorem Moves.publishes {event : TopicEvent Node} (hevent : Plain event)
    (h : Moves digest json recordJson bindingTable uniqueRosNodeGdpName s event events s') :
    ∀ event ∈ events, Mesh.Publishes event := by
  cases h with
  | @mesh event hothers =>
    refine List.forall_mem_singleton.2 ?_
    cases event with
    | publish n pkt => exact hevent.1
    | _ => trivial
  | @message msg =>
    exact List.forall_mem_singleton.2 ⟨⟨.inl rfl, rfl, rfl⟩, msg.payload, rfl, hevent⟩
  | dropped hrx =>
    exact List.forall_mem_cons.2 ⟨trivial, List.forall_mem_singleton.2 trivial⟩
  | crashed htakes hfails =>
    exact List.forall_mem_cons.2 ⟨trivial, List.forall_mem_singleton.2 trivial⟩
  | spawned hrx => exact List.forall_mem_singleton.2 trivial
  | skipped htakes hother => exact List.forall_mem_singleton.2 trivial
  | published htakes => exact List.forall_mem_singleton.2 trivial
  | _ => exact List.forall_mem_nil _

theorem Moves.mesh_eq {event : TopicEvent Node}
    (h : Moves digest json recordJson bindingTable uniqueRosNodeGdpName s event events s') :
    s'.mesh = s.meshAfter json recordJson bindingTable events := by
  cases h <;> rfl

theorem Moves.published_eq {event : TopicEvent Node}
    (h : Moves digest json recordJson bindingTable uniqueRosNodeGdpName s event events s') :
    s'.mesh.published = s.mesh.published ++ events.flatMap MeshEvent.publications := by
  rw [h.mesh_eq]
  exact Mesh.published_after events

/-- The Forward packets of a step are the messages that ROS gives to the publishers. -/
theorem Moves.forwarded {event : TopicEvent Node} (hevent : Plain event)
    (h : Moves digest json recordJson bindingTable uniqueRosNodeGdpName s event events s') :
    ∃ more, s'.messages = s.messages ++ more ∧
      (more.map (TopicMessage.packet uniqueRosNodeGdpName)).Sublist
        (events.flatMap MeshEvent.publications) ∧
      ∀ p ∈ events.flatMap MeshEvent.publications, p.action = .forward →
        p ∈ more.map (TopicMessage.packet uniqueRosNodeGdpName) := by
  cases h with
  | @mesh event hothers =>
    refine ⟨[], (List.append_nil _).symm, List.nil_sublist _, ?_⟩
    cases event with
    | publish n pkt =>
      exact List.forall_mem_singleton.2 fun haction => absurd haction hevent.2
    | _ => exact List.forall_mem_nil _
  | @message msg => exact ⟨[msg], rfl, List.Sublist.refl _, fun p hp _ => hp⟩
  | _ => exact ⟨[], (List.append_nil _).symm, List.nil_sublist _, List.forall_mem_nil _⟩

/-! ## The tasks of subscribers -/

omit [DecidableEq Node] in
theorem Serves.same {task : SubscriberTask Node} {i : Nat} {l l' : Link Node}
    {published : List RosPublication} (h : Serves task i l published) (hlead : l'.lead = l.lead)
    (hup : l'.up = l.up) (htaken : l'.takenOff = l.takenOff) : Serves task i l' published := by
  refine ⟨hlead.trans h.lead, fun hrunning => hup.trans (h.up hrunning), ?_, ?_⟩
  · rw [htaken]
    exact h.initial
  · rw [htaken]
    exact h.all

omit [DecidableEq Node] in
/-- The task takes a packet. -/
theorem Serves.take {task : SubscriberTask Node} {i : Nat} {l l' : Link Node}
    {published : List RosPublication} (h : Serves task i l published)
    (hrunning : task.crashed = false) (hlead : l'.lead = l.lead) (hup : l'.up = l.up)
    {pkt : GDPPacket} (htaken : l'.takenOff = l.takenOff ++ [pkt]) :
    Serves task i l' (published ++ (publication i task.topicGdpName pkt).toList) := by
  have hall : published ++ (publication i task.topicGdpName pkt).toList =
      l'.takenOff.filterMap (publication i task.topicGdpName) := by
    rw [htaken, List.filterMap_append, ← h.all hrunning]
    congr 1
  exact ⟨hlead.trans h.lead, fun _ => hup.trans (h.up hrunning), hall ▸ List.prefix_rfl,
    fun _ => hall⟩

omit [DecidableEq Node] in
/-- The task crashes on a packet. -/
theorem Serves.crash {task : SubscriberTask Node} {i : Nat} {l l' : Link Node}
    {published : List RosPublication} (h : Serves task i l published) (hlead : l'.lead = l.lead)
    {pkt : GDPPacket} (htaken : l'.takenOff = l.takenOff ++ [pkt]) :
    Serves { task with crashed := true } i l' published := by
  refine ⟨hlead.trans h.lead, nofun, ?_, nofun⟩
  rw [htaken, List.filterMap_append]
  exact h.initial.trans (List.prefix_append ..)

omit [DecidableEq Node] in
variable (s) in
theorem publicationsAt_self (o : RosPublication) :
    publicationsAt { s with publications := s.publications ++ [o] } o.channel =
      s.publicationsAt o.channel ++ [o] := by
  unfold publicationsAt
  rw [List.filter_append, List.filter_cons_of_pos (by simp), List.filter_nil]

omit [DecidableEq Node] in
variable (s) in
theorem publicationsAt_of_ne {o : RosPublication} {i : Nat} (hi : o.channel ≠ i) :
    publicationsAt { s with publications := s.publications ++ [o] } i = s.publicationsAt i := by
  unfold publicationsAt
  rw [List.filter_append, List.filter_cons_of_neg (by simpa using hi), List.filter_nil,
    List.append_nil]

variable (h : Sound json recordJson bindingTable uniqueRosNodeGdpName s)

include h

theorem Sound.lt_length {i : Nat} {task : SubscriberTask Node}
    (htask : s.subscribers i = some task) : i < s.mesh.links.length := by
  obtain ⟨l, hl, -⟩ := h.serves htask
  exact (List.getElem?_eq_some_iff.1 hl).1

/-- A step that leaves the channel of a task alone. -/
theorem Sound.serves_kept {i : Nat} {task : SubscriberTask Node}
    (htask : s.subscribers i = some task) (hothers : ∀ event ∈ events, ¬ Mesh.Touches i event) :
    ∃ l, (s.meshAfter json recordJson bindingTable events).links[i]? = some l ∧
      Serves task i l (s.publicationsAt i) := by
  obtain ⟨l, hl, hserves⟩ := h.serves htask
  obtain ⟨l', hl', hlead, hup, htaken⟩ := Mesh.link_kept_after
    hothers hl
  exact ⟨l', hl', hserves.same hlead hup htaken⟩

/-- A task takes a packet, and then the channel may be shut. -/
theorem Sound.serves_taken {i : Nat} {task : SubscriberTask Node} {pkt : GDPPacket}
    (htakes : s.TakesFrom i task pkt) :
    ∃ l l', s.mesh.links[i]? = some l ∧ Serves task i l (s.publicationsAt i) ∧
      (s.meshAfter json recordJson bindingTable [.take i Link.anyName]).links[i]? = some l' ∧
      l'.lead = l.lead ∧ l'.up = l.up ∧ l'.takenOff = l.takenOff ++ [pkt] := by
  obtain ⟨l, hl, hserves⟩ := h.serves htakes.reads
  obtain ⟨l', rest, hl', hqueue⟩ := htakes.queue
  obtain rfl : l = l' := Option.some.inj (hl.symm.trans hl')
  exact ⟨l, _, hl, hserves,
    Mesh.link_take json recordJson bindingTable hl hserves.lead hqueue Link.anyName, rfl, rfl, rfl⟩

theorem Sound.serves_step {event : TopicEvent Node}
    (hmoves : Moves digest json recordJson bindingTable uniqueRosNodeGdpName s event events s')
    {i : Nat} {task : SubscriberTask Node} (htask : s'.subscribers i = some task) :
    ∃ l, s'.mesh.links[i]? = some l ∧ Serves task i l (s'.publicationsAt i) := by
  cases hmoves with
  | @mesh event hothers =>
    refine h.serves_kept htask (List.forall_mem_singleton.2 fun htouches => hothers ?_)
    have hsome : (s.subscribers i).isSome := Option.isSome_of_eq_some htask
    cases event with
    | take j randomName => exact (show j = i from htouches) ▸ hsome
    | shut j => exact (show j = i from htouches) ▸ hsome
    | _ => exact htouches.elim
  | @spawned n update rest hrx =>
    change Function.update s.subscribers _ _ i = some task at htask
    by_cases hi : i = s.mesh.links.length
    · subst hi
      rw [Function.update_self] at htask
      cases htask
      have hnone : s.subscribers s.mesh.links.length = none := by
        by_contra hsome
        obtain ⟨task, htask⟩ := Option.ne_none_iff_exists'.1 hsome
        exact absurd (h.lt_length htask) (Nat.lt_irrefl _)
      refine ⟨{ lead := .localQueue, description := none }, List.getElem?_concat_length, ?_⟩
      change Serves _ _ _ (s.publicationsAt s.mesh.links.length)
      rw [h.unread hnone]
      exact ⟨rfl, fun _ => rfl, List.prefix_rfl, fun _ => rfl⟩
    · rw [Function.update_of_ne hi] at htask
      exact h.serves_kept htask (List.forall_mem_singleton.2 id)
  | dropped hrx =>
    refine h.serves_kept htask (List.forall_mem_cons.2 ⟨id, List.forall_mem_singleton.2 ?_⟩)
    exact fun heq : s.mesh.links.length = i => absurd (heq ▸ h.lt_length htask) (Nat.lt_irrefl _)
  | message => exact h.serves_kept htask (List.forall_mem_singleton.2 id)
  | @skipped j other pkt published htakes hother =>
    change s.subscribers i = some task at htask
    by_cases hij : i = j
    · subst hij
      obtain rfl : other = task := Option.some.inj (htakes.reads.symm.trans htask)
      obtain ⟨l, l', -, hserves, hl', hlead, hup, htaken⟩ := h.serves_taken htakes
      have htake := hserves.take htakes.running hlead hup htaken
      rw [publication, if_neg hother, Option.toList_none, List.append_nil] at htake
      exact ⟨l', hl', htake⟩
    · exact h.serves_kept htask (List.forall_mem_singleton.2 (Ne.symm hij))
  | @published j other pkt payload htakes haction htopic hpayload =>
    change s.subscribers i = some task at htask
    change ∃ l, _ ∧ Serves task i l (publicationsAt { s with publications := _ } i)
    by_cases hij : i = j
    · subst hij
      obtain rfl : other = task := Option.some.inj (htakes.reads.symm.trans htask)
      obtain ⟨l, l', -, hserves, hl', hlead, hup, htaken⟩ := h.serves_taken htakes
      have htake := hserves.take htakes.running hlead hup htaken
      rw [publication, if_pos ⟨haction, htopic⟩, hpayload] at htake
      exact ⟨l', hl', publicationsAt_self s _ ▸ htake⟩
    · rw [publicationsAt_of_ne s (Ne.symm hij)]
      exact h.serves_kept htask (List.forall_mem_singleton.2 (Ne.symm hij))
  | @crashed j other pkt published htakes hfails =>
    change Function.update s.subscribers j _ i = some task at htask
    by_cases hij : i = j
    · subst hij
      rw [Function.update_self] at htask
      cases htask
      obtain ⟨l, l', -, hserves, hl', hlead, -, htaken⟩ := h.serves_taken htakes
      refine ⟨l'.shut, ?_, hserves.crash hlead htaken⟩
      exact (List.getElem?_modify_eq _ _ _).trans (congrArg _ hl')
    · rw [Function.update_of_ne hij] at htask
      exact h.serves_kept htask
        (List.forall_mem_cons.2 ⟨Ne.symm hij, List.forall_mem_singleton.2 (Ne.symm hij)⟩)
  | _ => exact h.serves htask

theorem Sound.unread_step {event : TopicEvent Node}
    (hmoves : Moves digest json recordJson bindingTable uniqueRosNodeGdpName s event events s')
    {i : Nat} (hnone : s'.subscribers i = none) : s'.publicationsAt i = [] := by
  cases hmoves with
  | spawned hrx =>
    change Function.update s.subscribers _ _ i = none at hnone
    refine h.unread (i := i) ?_
    by_cases hi : i = s.mesh.links.length
    · subst hi
      rw [Function.update_self] at hnone
      cases hnone
    · rwa [Function.update_of_ne hi] at hnone
  | @published j task pkt payload htakes =>
    change s.subscribers i = none at hnone
    have hij : j ≠ i := by
      rintro rfl
      cases htakes.reads.symm.trans hnone
    change publicationsAt { s with publications := _ } i = []
    rw [publicationsAt_of_ne s hij]
    exact h.unread hnone
  | @crashed j task pkt published htakes hfails =>
    change Function.update s.subscribers j _ i = none at hnone
    refine h.unread (i := i) ?_
    by_cases hij : i = j
    · subst hij
      rw [Function.update_self] at hnone
      cases hnone
    · rwa [Function.update_of_ne hij] at hnone
  | _ => exact h.unread hnone

/-- What a task publishes is in a packet that was sent on its channel. -/
theorem Sound.exists_sent {i : Nat} {task : SubscriberTask Node}
    (htask : s.subscribers i = some task) {o : RosPublication} (ho : o ∈ s.publicationsAt i) :
    ∃ pkt ∈ s.mesh.sent i, publication i task.topicGdpName pkt = some o := by
  obtain ⟨l, hl, hserves⟩ := h.serves htask
  obtain ⟨pkt, hpkt, heq⟩ := List.mem_filterMap.1 (hserves.initial.subset ho)
  have hqueued := (h.mesh.link hl).queued
  exact ⟨pkt, hqueued.subset (List.mem_append_left _ hpkt), heq⟩

theorem Sound.authentic {o : RosPublication} (ho : o ∈ s.publications) :
    ∃ task, s.subscribers o.channel = some task ∧ o.topicGdpName = task.topicGdpName ∧
      ∃ msg ∈ s.messages, msg.topicGdpName = o.topicGdpName ∧ o.guid = some msg.guid ∧
        o.payload = msg.payload := by
  have hmem : o ∈ s.publicationsAt o.channel := List.mem_filter.2 ⟨ho, decide_eq_true rfl⟩
  cases htask : s.subscribers o.channel with
  | none =>
    rw [h.unread htask] at hmem
    cases hmem
  | some task =>
    obtain ⟨pkt, hpkt, heq⟩ := h.exists_sent htask hmem
    obtain ⟨haction, htopic, hpayload, ho⟩ := publication_eq_some heq
    obtain ⟨-, p, hp, description, rfl⟩ := h.mesh.sent_known o.channel pkt hpkt
    obtain ⟨msg, hmsg, rfl⟩ := List.mem_map.1 (h.forwarded p hp haction)
    have hname : o.topicGdpName = task.topicGdpName := congrArg RosPublication.topicGdpName ho
    exact ⟨task, rfl, hname, msg, hmsg, htopic.trans hname.symm,
      congrArg RosPublication.guid ho, (Option.some.inj hpayload).symm⟩

/-- The publications of a task come from as many packets. -/
theorem Sound.publications_le_one (i : Nat) (guid : Option GDPName) :
    (s.publicationsAt i).countP (·.guid = guid) ≤ 1 := by
  cases htask : s.subscribers i with
  | none =>
    rw [h.unread htask]
    exact Nat.zero_le 1
  | some task =>
    by_cases hnothing : s.publicationsAt i = []
    · rw [hnothing]
      exact Nat.zero_le 1
    · obtain ⟨o, ho⟩ := List.exists_mem_of_ne_nil _ hnothing
      obtain ⟨pkt, hpkt, heq⟩ := h.exists_sent htask ho
      have hqueue := h.mesh.oneWay_of_sent hpkt (publication_eq_some heq).1
      obtain ⟨l, hl, hserves⟩ := h.serves htask
      have htaken : l.takenOff <+: s.mesh.sent i :=
        (List.prefix_append ..).trans (h.mesh.link hl).queued
      calc (s.publicationsAt i).countP (·.guid = guid)
          ≤ (l.takenOff.filterMap (publication i task.topicGdpName)).countP (·.guid = guid) :=
            hserves.initial.countP_le
        _ ≤ l.takenOff.countP (·.guid = guid) := by
            rw [List.countP_filterMap]
            refine List.countP_mono_left fun p _ hp => ?_
            cases hpublished : publication i task.topicGdpName p with
            | none =>
              rw [hpublished] at hp
              cases hp
            | some o' =>
              rw [hpublished] at hp
              rw [(publication_eq_some hpublished).2.2.2] at hp
              exact hp
        _ ≤ (s.mesh.sent i).countP (·.guid = guid) := htaken.countP_le
        _ ≤ 1 := Network.queued_le_one (Mesh.sound_network h.mesh) hqueue guid

/-! ## Every run -/

section Carry

variable (hround : json.RoundTrips) (hnul : json.NoNul) (hbrace : json.OpensBrace)

include hround hnul hbrace

theorem Sound.moves {event : TopicEvent Node} (hevent : Plain event)
    (hmoves : Moves digest json recordJson bindingTable uniqueRosNodeGdpName s event events s') :
    Sound json recordJson bindingTable uniqueRosNodeGdpName s' := by
  obtain ⟨more, hmore, hgiven, hforwarded⟩ := hmoves.forwarded hevent
  refine ⟨?_, ?_, ?_, h.serves_step hmoves, h.unread_step hmoves⟩
  · rw [hmoves.mesh_eq]
    exact (Run.throughout_of_forall _ (hmoves.publishes hevent)).invariant _
      (fun _ _ h hevent => h.step hround hnul hbrace hevent) h.mesh
  · rw [hmore, List.map_append, hmoves.published_eq]
    exact h.given.append hgiven
  · intro p hp haction
    rw [hmoves.published_eq, List.mem_append] at hp
    rw [hmore, List.map_append]
    exact List.mem_append.2
      (hp.imp (h.forwarded p · haction) (hforwarded p · haction))

omit h in
theorem sound_after {events : List (TopicEvent Node)} (hevents : ∀ event ∈ events, Plain event) :
    Sound json recordJson bindingTable uniqueRosNodeGdpName
      (Run.after (step digest json recordJson bindingTable uniqueRosNodeGdpName) initial
        events) := by
  refine (Run.throughout_of_forall initial hevents).invariant _ ?_ .start
  intro s event h hevent
  obtain ⟨events, hmoves⟩ := moves_step digest json recordJson bindingTable uniqueRosNodeGdpName s
    event
  exact h.moves hround hnul hbrace hevent hmoves

omit h in
/-- **Main result.**  In every run in which no payload ends in a keepalive and the other local
handlers publish no messages, what a subscriber's task publishes to ROS is under the name that the
task was spawned for, and carries the payload and the guid of a message that ROS gave to a
publisher's task of this name; and a task publishes each guid at most once, although copies travel
on every stream of the name. -/
theorem publications_authentic (digest : Bytes → Vector UInt8 4)
    (recordJson : SerdeJson GDPNameRecord) (bindingTable : Node → BindingTable)
    (uniqueRosNodeGdpName : Node → GDPName) {events : List (TopicEvent Node)}
    (hevents : ∀ event ∈ events, Plain event) :
    let s := Run.after (step digest json recordJson bindingTable uniqueRosNodeGdpName) initial
      events
    (∀ o ∈ s.publications, ∃ task, s.subscribers o.channel = some task ∧
      o.topicGdpName = task.topicGdpName ∧
      ∃ msg ∈ s.messages, msg.topicGdpName = o.topicGdpName ∧ o.guid = some msg.guid ∧
        o.payload = msg.payload) ∧
    ∀ i guid, (s.publicationsAt i).countP (·.guid = guid) ≤ 1 := by
  intro s
  have h : Sound json recordJson bindingTable uniqueRosNodeGdpName s :=
    sound_after hround hnul hbrace hevents
  exact ⟨fun o ho => h.authentic ho, h.publications_le_one⟩

omit h hround hnul hbrace in
def sampleStatus : StatusEvent where
  request :=
    { action := .add, topicName := "/chatter", topicType := "std_msgs/msg/String"
      certificate := [] }
  created := true

omit h hround hnul hbrace in
/-- A link from the publisher's machine to the subscriber's, then the channels of the two handlers
of topics. -/
def sampleAnnounced : List (TopicEvent (Fin 2)) :=
  [.mesh (.connect Mesh.publisher { Mesh.sampleUpdate with topicGdpName := Link.anyName }
      (.handler Mesh.subscriber) none),
    .publisherStatus Mesh.publisher sampleStatus, .update Mesh.publisher,
    .subscriberStatus Mesh.subscriber sampleStatus, .update Mesh.subscriber]

omit h hround hnul hbrace in
/-- ROS gives two messages to the publisher's task.  Each goes over the link as a header and a
payload, and the subscriber's task takes both. -/
def sampleForwarded : List (TopicEvent (Fin 2)) :=
  [.rosMessage Mesh.publisher Link.anyName [1, 2] (samplePacket []).source,
    .rosMessage Mesh.publisher Link.anyName [3] (samplePacket []).gdpname,
    .mesh (.forward Mesh.publisher ⟨0, some "eth0"⟩),
    .mesh (.forward Mesh.publisher ⟨1, some "eth0"⟩),
    .mesh (.take 0 Link.anyName), .mesh (.read 0), .mesh (.read 0),
    .mesh (.take 0 Link.anyName), .mesh (.read 0), .mesh (.read 0),
    .mesh (.forward Mesh.subscriber ⟨2, some "eth0"⟩),
    .mesh (.forward Mesh.subscriber ⟨3, some "eth0"⟩), .takePacket 2 true, .takePacket 2 true]

omit h hround hnul hbrace in
def sampleTopics : Topics (Fin 2) :=
  Run.after (step (fun _ => .replicate 4 0) headerJson unusedRecordJson (fun _ => none)
    fun _ => (samplePacket []).source) initial (sampleAnnounced ++ sampleForwarded)

omit h hround hnul hbrace in
theorem plain_sampleAnnounced : ∀ event ∈ sampleAnnounced, Plain event := by
  simp [sampleAnnounced, Plain]

omit h hround hnul hbrace in
theorem plain_sampleForwarded : ∀ event ∈ sampleForwarded, Plain event := by
  have hfirst : ¬ EndsInPing [1, 2] := by decide
  have hsecond : ¬ EndsInPing [3] := by decide
  simp [sampleForwarded, Plain, hfirst, hsecond]

omit h hround hnul hbrace in
/-- Both messages have crossed the link and are published. -/
theorem publications_authentic_sample :
    sampleTopics.publications.map RosPublication.payload = [[1, 2], [3]] ∧
      ∀ o ∈ sampleTopics.publications,
        ∃ msg ∈ sampleTopics.messages, o.guid = some msg.guid ∧ o.payload = msg.payload := by
  have hevents : ∀ event ∈ sampleAnnounced ++ sampleForwarded, Plain event :=
    List.forall_mem_append.2 ⟨plain_sampleAnnounced, plain_sampleForwarded⟩
  refine ⟨by decide +kernel, fun o ho => ?_⟩
  obtain ⟨task, -, -, msg, hmsg, -, hguid, hpayload⟩ :=
    (publications_authentic headerJson_roundTrips headerJson_noNul headerJson_opensBrace
      (fun _ => .replicate 4 0) unusedRecordJson (fun _ => none) (fun _ => (samplePacket []).source)
      hevents).1 o ho
  exact ⟨msg, hmsg, hguid, hpayload⟩

end Carry

end Topics

end RtFogros
