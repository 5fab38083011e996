import RtFogros.Mesh.Refinement

/-!
# Service calls over the mesh

The ROS tasks of `fogrs-ros/src/lib.rs` that call services and that execute calls, on any number
of machines: every Response that a caller's queue gets is what ROS answered to a Request with its
guid, and that Request was sent for a call (`responses_authentic`).

The tasks are state machines beside the mesh, each under the channel that it reads, and what they
send is published by their machine's handler.  `Sound` keeps the origin of every request and
response through the tasks; between two tasks it is carried by the mesh, in which a packet on a
channel was published somewhere and has changed in its description only (`Mesh.Sound.sent_known`).
-/

namespace RtFogros

open FibHandler Kcp

/-- The task of `handle_local_ros_service_caller` for a topic: in `ros_rx.recv()`, waiting for
ROS to answer the request, or past a failed `expect` or `unwrap`. -/
inductive CallerPhase where
  | idle
  | awaiting (pkt : GDPPacket) (request : Bytes)
  | crashed

structure CallerTask (Node : Type) where
  node : Node
  topicGdpName : GDPName
  phase : CallerPhase := .idle

structure ServiceCall where
  topicGdpName : GDPName
  packetGuid : GDPName
  message : Bytes

/-- A request that ROS answered. -/
structure Execution where
  topicGdpName : GDPName
  packetGuid : GDPName
  request : Bytes
  response : Bytes

/-- The mesh and the tasks, each under the channel that it reads. -/
structure Services (Node : Type) where
  mesh : Mesh Node
  callers : Nat → Option (CallerTask Node) := fun _ => none
  calls : List ServiceCall := []
  executions : List Execution := []

inductive ServiceEvent (Node : Type) where
  -- what the FIB handlers, the streams and the other local handlers do
  | mesh (event : MeshEvent Node)
  -- `handle_local_ros_service_caller` creates the task of a topic
  | serve (n : Node) (topicGdpName : GDPName) (topicName : String)
  -- a task of `handle_remote_ros_service` sends the request of a call
  | call (n : Node) (topicGdpName packetGuid : GDPName) (message : Bytes)
  -- the task that reads channel `i` takes a packet
  | takeRequest (i : Nat)
  -- ROS answers it, or fails
  | answer (i : Nat) (resp : Option Bytes)

namespace Services

variable {Node : Type} [DecidableEq Node]

section Step

variable (json : SerdeJson GDPHeaderInTransit) (recordJson : SerdeJson GDPNameRecord)
  (bindingTable : Node → BindingTable) (uniqueRosNodeGdpName : Node → GDPName)

def initial : Services Node where
  mesh := .initial

def setPhase (s : Services Node) (i : Nat) (task : CallerTask Node) (phase : CallerPhase) :
    Services Node :=
  { s with callers := Function.update s.callers i (some { task with phase }) }

/-- The update with a channel that is made for it. -/
def serve (s : Services Node) (n : Node) (topicGdpName : GDPName) (topicName : String) :
    Services Node :=
  { s with
    mesh := s.mesh.step json recordJson bindingTable
      (.connect n (localRosServiceCallerUpdate topicGdpName topicName ()) .localQueue none)
    callers := Function.update s.callers s.mesh.links.length (some { node := n, topicGdpName }) }

/-- `fib_tx.send`, whose receiver is gone if the handler has aborted. -/
def send (s : Services Node) (n : Node) (pkt : GDPPacket) : Option (Mesh Node) :=
  match s.mesh.log.states n with
  | .aborted => none
  | .running _ => some (s.mesh.step json recordJson bindingTable (.publish n pkt))

def call (s : Services Node) (n : Node) (topicGdpName packetGuid : GDPName) (message : Bytes) :
    Services Node :=
  let pkt := constructGdpRequestWithGuid topicGdpName (uniqueRosNodeGdpName n) message packetGuid
  match s.send json recordJson bindingTable n pkt with
  | none => s
  | some mesh => { s with mesh, calls := s.calls ++ [{ topicGdpName, packetGuid, message }] }

def takeRequest (s : Services Node) (i : Nat) : Services Node :=
  match s.callers i, s.mesh.links[i]?.map Link.queue with
  | some task, some (pkt :: _) =>
    match task.phase with
    | .idle =>
      let s := { s with mesh := s.mesh.step json recordJson bindingTable (.take i Link.anyName) }
      if pkt.action = .request then
        if pkt.gdpname = task.topicGdpName then
          match pkt.payload with
          | none => s.setPhase i task .crashed
          | some request => s.setPhase i task (.awaiting pkt request)
        else s
      else s
    | _ => s
  | _, _ => s

def answer (s : Services Node) (i : Nat) (resp : Option Bytes) : Services Node :=
  match s.callers i with
  | some task =>
    match task.phase with
    | .awaiting pkt request =>
      match resp, pkt.guid with
      | some response, some packetGuid =>
        let packet := constructGdpResponseWithGuid task.topicGdpName
          (uniqueRosNodeGdpName task.node) response packetGuid
        match s.send json recordJson bindingTable task.node packet with
        | none => s.setPhase i task .crashed
        | some mesh =>
          { s.setPhase i task .idle with
            mesh
            executions := s.executions ++
              [{ topicGdpName := task.topicGdpName, packetGuid, request, response }] }
      | _, _ => s.setPhase i task .crashed
    | _ => s
  | none => s

def step (s : Services Node) : ServiceEvent Node → Services Node
  | .mesh event => { s with mesh := s.mesh.step json recordJson bindingTable event }
  | .serve n topicGdpName topicName => s.serve json recordJson bindingTable n topicGdpName topicName
  | .call n topicGdpName packetGuid message =>
    s.call json recordJson bindingTable uniqueRosNodeGdpName n topicGdpName packetGuid message
  | .takeRequest i => s.takeRequest json recordJson bindingTable i
  | .answer i resp => s.answer json recordJson bindingTable uniqueRosNodeGdpName i resp

end Step

/-- No payload ends in a keepalive, and what other local handlers publish are Forward packets that a
stream carries. -/
def Plain : ServiceEvent Node → Prop
  | .mesh (.publish _ pkt) => Carried pkt ∧ pkt.action = .forward
  | .mesh _ | .serve _ _ _ | .takeRequest _ => True
  | .call _ _ _ message => ¬ EndsInPing message
  | .answer _ resp => ∀ response ∈ resp, ¬ EndsInPing response

variable {json : SerdeJson GDPHeaderInTransit} {recordJson : SerdeJson GDPNameRecord}
  {bindingTable : Node → BindingTable} {uniqueRosNodeGdpName : Node → GDPName} {s : Services Node}

/-- A request that a task of the topic has taken. -/
structure Taken (mesh : Mesh Node) (topicGdpName : GDPName) (pkt : GDPPacket) (request : Bytes) :
    Prop where
  known : mesh.Known pkt
  action : pkt.action = .request
  gdpname : pkt.gdpname = topicGdpName
  payload : pkt.payload = some request

/-- The packet is the request of a call. -/
structure CalledBy (p : GDPPacket) (c : ServiceCall) : Prop where
  gdpname : p.gdpname = c.topicGdpName
  guid : p.guid = some c.packetGuid
  payload : p.payload = some c.message

/-- The packet is the response of an execution. -/
structure AnsweredBy (p : GDPPacket) (e : Execution) : Prop where
  gdpname : p.gdpname = e.topicGdpName
  guid : p.guid = some e.packetGuid
  payload : p.payload = some e.response

/-- The execution is of the request of a call. -/
structure Executes (e : Execution) (c : ServiceCall) : Prop where
  topicGdpName : e.topicGdpName = c.topicGdpName
  packetGuid : e.packetGuid = c.packetGuid
  request : e.request = c.message

/-- Where requests and responses come from. -/
structure Sound (json : SerdeJson GDPHeaderInTransit) (recordJson : SerdeJson GDPNameRecord)
    (bindingTable : Node → BindingTable) (s : Services Node) : Prop where
  mesh : Mesh.Sound json recordJson bindingTable s.mesh
  requested : ∀ p ∈ s.mesh.published, p.action = .request → ∃ c ∈ s.calls, CalledBy p c
  taken : ∀ {i : Nat} {task : CallerTask Node} {pkt : GDPPacket} {request : Bytes},
    s.callers i = some task → task.phase = .awaiting pkt request →
    Taken s.mesh task.topicGdpName pkt request
  executed : ∀ e ∈ s.executions, ∃ c ∈ s.calls, Executes e c
  responded : ∀ p ∈ s.mesh.published, p.action = .response → ∃ e ∈ s.executions, AnsweredBy p e

theorem Sound.start : Sound json recordJson bindingTable (initial : Services Node) :=
  ⟨.start, List.forall_mem_nil _, nofun, List.forall_mem_nil _, List.forall_mem_nil _⟩

variable (json recordJson bindingTable) in
theorem Taken.step {mesh : Mesh Node} {topicGdpName : GDPName} {pkt : GDPPacket} {request : Bytes}
    (h : Taken mesh topicGdpName pkt request) (event : MeshEvent Node) :
    Taken (mesh.step json recordJson bindingTable event) topicGdpName pkt request :=
  ⟨h.known.step json recordJson bindingTable event, h.action, h.gdpname, h.payload⟩

/-- A change of the phase of a task. -/
theorem Sound.setPhase (h : Sound json recordJson bindingTable s) (i : Nat) (task : CallerTask Node)
    {phase : CallerPhase} (hphase : ∀ pkt request, phase = .awaiting pkt request →
      Taken s.mesh task.topicGdpName pkt request) :
    Sound json recordJson bindingTable (s.setPhase i task phase) := by
  refine ⟨h.mesh, h.requested, fun {j task' pkt request} hj hawaiting => ?_, h.executed,
    h.responded⟩
  change Function.update s.callers i _ j = some task' at hj
  by_cases hji : j = i
  · subst hji
    rw [Function.update_self] at hj
    cases hj
    exact hphase pkt request hawaiting
  · rw [Function.update_of_ne hji] at hj
    exact h.taken hj hawaiting

theorem Sound.crash (h : Sound json recordJson bindingTable s) (i : Nat) (task : CallerTask Node) :
    Sound json recordJson bindingTable (s.setPhase i task .crashed) := by
  refine h.setPhase i task fun pkt request hphase => ?_
  cases hphase

theorem Sound.call (h : Sound json recordJson bindingTable s) (n : Node)
    (topicGdpName packetGuid : GDPName) {message : Bytes} (hmessage : ¬ EndsInPing message) :
    Sound json recordJson bindingTable (s.call json recordJson bindingTable uniqueRosNodeGdpName n
      topicGdpName packetGuid message) := by
  unfold Services.call Services.send
  cases s.mesh.log.states n with
  | aborted => exact h
  | running _ =>
    have hpkt : Carried (constructGdpRequestWithGuid topicGdpName (uniqueRosNodeGdpName n) message
        packetGuid) := ⟨⟨.inr (.inl rfl), rfl, rfl⟩, message, rfl, hmessage⟩
    refine ⟨h.mesh.publish n hpkt, fun p hp haction => ?_, fun hj hawaiting => ?_, fun e he => ?_,
      fun p hp haction => ?_⟩
    · rcases List.mem_append.1 hp with hp | hp
      · obtain ⟨c, hc, hcalled⟩ := h.requested p hp haction
        exact ⟨c, List.mem_append_left _ hc, hcalled⟩
      · rw [List.mem_singleton.1 hp]
        exact ⟨_, List.mem_append_right _ List.mem_cons_self, rfl, rfl, rfl⟩
    · exact (h.taken hj hawaiting).step json recordJson bindingTable (.publish n _)
    · obtain ⟨c, hc, hexecutes⟩ := h.executed e he
      exact ⟨c, List.mem_append_left _ hc, hexecutes⟩
    · rcases List.mem_append.1 hp with hp | hp
      · exact h.responded p hp haction
      · rw [List.mem_singleton.1 hp] at haction
        cases haction

/-- The call that an awaited request was sent for. -/
theorem Sound.call_of_taken (h : Sound json recordJson bindingTable s) {topicGdpName : GDPName}
    {pkt : GDPPacket} {request : Bytes} (htaken : Taken s.mesh topicGdpName pkt request) :
    ∃ c ∈ s.calls, CalledBy pkt c := by
  obtain ⟨-, p, hp, description, rfl⟩ := htaken.known
  obtain ⟨c, hc, hcalled⟩ := h.requested p hp htaken.action
  exact ⟨c, hc, hcalled.gdpname, hcalled.guid, hcalled.payload⟩

theorem Sound.answer (h : Sound json recordJson bindingTable s) (i : Nat) {resp : Option Bytes}
    (hresp : ∀ response ∈ resp, ¬ EndsInPing response) :
    Sound json recordJson bindingTable
      (s.answer json recordJson bindingTable uniqueRosNodeGdpName i resp) := by
  unfold Services.answer
  cases hi : s.callers i with
  | none => exact h
  | some task =>
    dsimp only
    split
    · rename_i pkt request hphase
      have htaken := h.taken hi hphase
      split
      · rename_i response packetGuid hguid
        unfold Services.send
        cases s.mesh.log.states task.node with
        | aborted => exact h.crash i task
        | running _ =>
          have hpkt : Carried (constructGdpResponseWithGuid task.topicGdpName
              (uniqueRosNodeGdpName task.node) response packetGuid) :=
            ⟨⟨.inr (.inr rfl), rfl, rfl⟩, response, rfl, hresp response rfl⟩
          obtain ⟨c, hc, hcalled⟩ := h.call_of_taken htaken
          have hidle : Sound json recordJson bindingTable (s.setPhase i task .idle) :=
            h.setPhase i task fun pkt request hphase => nomatch hphase
          refine ⟨h.mesh.publish task.node hpkt, fun p hp haction => ?_,
            fun hj hawaiting => (hidle.taken hj hawaiting).step json recordJson bindingTable
              (.publish task.node _), fun e he => ?_, fun p hp haction => ?_⟩
          · rcases List.mem_append.1 hp with hp | hp
            · exact h.requested p hp haction
            · rw [List.mem_singleton.1 hp] at haction
              cases haction
          · rcases List.mem_append.1 he with he | he
            · exact h.executed e he
            · rw [List.mem_singleton.1 he]
              exact ⟨c, hc, htaken.gdpname.symm.trans hcalled.gdpname,
                Option.some.inj (hguid.symm.trans hcalled.guid),
                Option.some.inj (htaken.payload.symm.trans hcalled.payload)⟩
          · rcases List.mem_append.1 hp with hp | hp
            · obtain ⟨e, he, hanswered⟩ := h.responded p hp haction
              exact ⟨e, List.mem_append_left _ he, hanswered⟩
            · rw [List.mem_singleton.1 hp]
              exact ⟨_, List.mem_append_right _ List.mem_cons_self, rfl, rfl, rfl⟩
      · exact h.crash i task
    · exact h

section Carry

variable (hround : json.RoundTrips) (hnul : json.NoNul) (hbrace : json.OpensBrace)

include hround hnul hbrace

/-- An event of the mesh in which at most a message is published. -/
theorem Sound.mesh_step (h : Sound json recordJson bindingTable s) {event : MeshEvent Node}
    (hevent : Mesh.Publishes event) (hforward : ∀ p ∈ event.publications, p.action = .forward) :
    Sound json recordJson bindingTable
      { s with mesh := s.mesh.step json recordJson bindingTable event } := by
  have hpublished : ∀ p ∈ (s.mesh.step json recordJson bindingTable event).published,
      p.action ≠ .forward → p ∈ s.mesh.published := by
    intro p hp haction
    rw [Mesh.published_step, List.mem_append] at hp
    exact hp.resolve_right fun hp => haction (hforward p hp)
  refine ⟨h.mesh.step hround hnul hbrace hevent, fun p hp haction => ?_,
    fun hj hawaiting => (h.taken hj hawaiting).step json recordJson bindingTable event, h.executed,
    fun p hp haction => ?_⟩
  · exact h.requested p (hpublished p hp (by rw [haction]; decide)) haction
  · exact h.responded p (hpublished p hp (by rw [haction]; decide)) haction

theorem Sound.serve (h : Sound json recordJson bindingTable s) (n : Node) (topicGdpName : GDPName)
    (topicName : String) :
    Sound json recordJson bindingTable
      (s.serve json recordJson bindingTable n topicGdpName topicName) := by
  have hevent : Mesh.Publishes (.connect n (localRosServiceCallerUpdate topicGdpName topicName ())
      .localQueue none) := trivial
  have hmesh := h.mesh_step hround hnul hbrace hevent (List.forall_mem_nil _)
  refine hmesh.setPhase s.mesh.links.length { node := n, topicGdpName } fun pkt request hphase => ?_
  cases hphase

theorem Sound.takeRequest (h : Sound json recordJson bindingTable s) (i : Nat) :
    Sound json recordJson bindingTable (s.takeRequest json recordJson bindingTable i) := by
  have hevent : Mesh.Publishes (.take i Link.anyName : MeshEvent Node) := trivial
  have hmesh := h.mesh_step hround hnul hbrace hevent (List.forall_mem_nil _)
  unfold Services.takeRequest
  split
  · rename_i task pkt rest htask hqueue
    obtain ⟨l, hl, hqueue⟩ := Option.map_eq_some_iff.1 hqueue
    have hpkt : pkt ∈ s.mesh.sent i :=
      (h.mesh.link hl).queued.subset (hqueue ▸ by simp)
    have hknown := (h.mesh.sent_known i pkt hpkt).step json recordJson bindingTable
      (.take i Link.anyName)
    split
    · split
      · rename_i haction
        split
        · rename_i hgdpname
          split
          · exact hmesh.crash i task
          · rename_i request hpayload
            refine hmesh.setPhase i task fun pkt' request' hphase => ?_
            cases hphase
            exact ⟨hknown, haction, hgdpname, hpayload⟩
        · exact hmesh
      · exact hmesh
    · exact h
  · exact h

theorem Sound.step (h : Sound json recordJson bindingTable s) {event : ServiceEvent Node}
    (hevent : Plain event) :
    Sound json recordJson bindingTable
      (s.step json recordJson bindingTable uniqueRosNodeGdpName event) := by
  cases event with
  | mesh event =>
    cases event with
    | publish n pkt =>
      exact h.mesh_step hround hnul hbrace hevent.1 (List.forall_mem_singleton.2 hevent.2)
    | _ => exact h.mesh_step hround hnul hbrace trivial (List.forall_mem_nil _)
  | serve n topicGdpName topicName => exact h.serve hround hnul hbrace n topicGdpName topicName
  | call n topicGdpName packetGuid message => exact h.call n topicGdpName packetGuid hevent
  | takeRequest i => exact h.takeRequest hround hnul hbrace i
  | answer i resp => exact h.answer i hevent

omit hround hnul hbrace in
/-- The packets that are meant for callers are responses. -/
theorem action_of_meant {dst : FibConnection Nat} (htype : dst.connectionType = .responseReceiver)
    {d : String} {action : GdpAction} (hmeant : Meant d action dst) : action = .response := by
  cases action with
  | response => rfl
  | forward =>
    rw [show dst.connectionType = .receiver from hmeant] at htype
    cases htype
  | request =>
    rw [hmeant.1] at htype
    cases htype
  | _ => exact hmeant.elim

/-- **Main result.**  In every run in which no payload ends in a keepalive and the other local
handlers publish only Forward packets, a Response that is sent to a queue of a service's callers
carries what ROS answered, on some machine, to a request with the Response's guid and for its name,
and that request is the message of a call with this guid for this name; and the queue gets at most
one Response for each guid. -/
theorem responses_authentic (recordJson : SerdeJson GDPNameRecord)
    (bindingTable : Node → BindingTable) (uniqueRosNodeGdpName : Node → GDPName)
    {events : List (ServiceEvent Node)} (hevents : ∀ event ∈ events, Plain event) :
    let s := Run.after (Services.step json recordJson bindingTable uniqueRosNodeGdpName) initial
      events
    ∀ n topic, ∀ dst ∈ registered (bindingTable n) (s.mesh.log.inputs n) topic,
      dst.connectionType = .responseReceiver →
      (∀ pkt ∈ s.mesh.sent dst.tx, pkt.gdpname = topic ∧
        ∃ e ∈ s.executions, AnsweredBy pkt e ∧ ∃ c ∈ s.calls, Executes e c) ∧
      ∀ guid, (s.mesh.sent dst.tx).countP (·.guid = guid) ≤ 1 := by
  intro s n topic dst hdst htype
  have h : Sound json recordJson bindingTable s :=
    (Run.throughout_of_forall initial hevents).invariant _
      (fun _ _ h hevent => h.step hround hnul hbrace hevent) .start
  refine ⟨fun pkt hpkt => ?_, fun guid =>
    Network.queued_le_one (Mesh.sound_network h.mesh) ⟨n, topic, dst, hdst, rfl, .inr htype⟩ guid⟩
  obtain ⟨hname, d, hmeant⟩ := h.mesh.meant_of_sent hdst hpkt
  obtain ⟨-, p, hp, description, rfl⟩ := h.mesh.sent_known dst.tx pkt hpkt
  obtain ⟨e, he, hanswered⟩ := h.responded p hp (action_of_meant htype hmeant)
  obtain ⟨c, hc, hexecutes⟩ := h.executed e he
  exact ⟨hname, e, he, ⟨hanswered.gdpname, hanswered.guid, hanswered.payload⟩, c, hc, hexecutes⟩

abbrev caller : Fin 2 := Mesh.publisher

abbrev server : Fin 2 := Mesh.subscriber

omit hround hnul hbrace in
/-- A link between the caller's machine and the service's for each direction, and the channels of
the two local handlers; a call goes over the first link, and its response over the second. -/
def sampleServiceRun : List (ServiceEvent (Fin 2)) :=
  let topic : GDPName := (samplePacket []).gdpname
  let link (connectionType : FibConnectionType) : FibStateChange Unit :=
    { action := .add, connectionType, topicGdpName := topic, forwardDestination := some ()
      interface := some "eth0", address := some "10.0.0.2:8000", description := none }
  [.mesh (.connect caller (link .requestReceiver) (.handler server) none),
    .mesh (.connect server (link .responseReceiver) (.handler caller) none),
    .mesh (.connect caller (remoteRosServiceUpdate topic "/add" ()) .localQueue none),
    .serve server topic "/add", .call caller topic Link.anyName [1, 2],
    .mesh (.forward caller ⟨0, some "eth0"⟩), .mesh (.take 0 Link.anyName), .mesh (.read 0),
    .mesh (.read 0), .mesh (.forward server ⟨1, some "eth0"⟩), .takeRequest 3,
    .answer 3 (some [3]), .mesh (.forward server ⟨2, some "eth0"⟩),
    .mesh (.take 1 Link.anyName), .mesh (.read 1), .mesh (.read 1),
    .mesh (.forward caller ⟨3, some "eth0"⟩)]

omit hround hnul hbrace in
/-- The response of the other machine is sent to the caller's queue. -/
theorem responses_authentic_sample :
    let s := Run.after (Services.step headerJson unusedRecordJson (fun _ => none)
      fun _ => (samplePacket []).source) initial sampleServiceRun
    ∃ pkt, s.mesh.sent 2 = [pkt] ∧ pkt.payload = some [3] ∧
      ∃ e ∈ s.executions, AnsweredBy pkt e ∧ ∃ c ∈ s.calls, Executes e c := by
  have hevents : ∀ event ∈ sampleServiceRun, Plain event := by
    have hrequest : ¬ EndsInPing [1, 2] := by decide
    have hresponse : ¬ EndsInPing [3] := by decide
    simp [sampleServiceRun, Plain, hrequest, hresponse]
  intro s
  obtain ⟨hsent, dst, hdst, htx, htype⟩ : (s.mesh.sent 2).map GDPPacket.payload = [some [3]] ∧
      ∃ dst ∈ registered none (s.mesh.log.inputs caller) (samplePacket []).gdpname,
        dst.tx = 2 ∧ dst.connectionType = .responseReceiver := by decide +kernel
  obtain ⟨pkt, hpkt, hpayload⟩ := List.map_eq_singleton_iff.1 hsent
  have hqueue : pkt ∈ s.mesh.sent dst.tx := by
    rw [htx, hpkt]
    exact List.mem_singleton_self pkt
  exact ⟨pkt, hpkt, hpayload, ((responses_authentic headerJson_roundTrips headerJson_noNul
    headerJson_opensBrace unusedRecordJson (fun _ => none) (fun _ => (samplePacket []).source)
    hevents caller (samplePacket []).gdpname dst hdst htype).1 pkt hqueue).2⟩

end Carry

end Services

end RtFogros
