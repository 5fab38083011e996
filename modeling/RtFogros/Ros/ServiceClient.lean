import RtFogros.Fib.Abort

/-!
# A machine that calls remote ROS services

`handle_remote_ros_service` with the FIB handler of its machine.  The tasks run in any order: an
event is what one of them does next.  A topic's task takes a call, sends the Request, and answers
the call with whatever its own queue `ros_rx` holds next, unless the wait times out.

`Wired` is what holds of the channels in every state, and is proved here once: each task has its
own channel, the FIB knows it as an entry for Response packets of the task's topic and of no other,
and so only those are in its queue.
-/

namespace RtFogros

open FibHandler

inductive TopicManagerAction where
  | add
  | pause
  | pauseAdd
  | resume
  | delete
  | response
deriving DecidableEq

structure TopicManagerRequest where
  action : TopicManagerAction
  topicName : String
  topicType : String
  certificate : Bytes

/-- Where the task of a topic stands: in `service.next()`, in the inner `select!` of a
call, or past a failed `expect` or `unwrap`. -/
inductive ServicePhase where
  | idle
  | waiting (packetGuid : GDPName)
  | crashed
deriving DecidableEq

structure ServiceClient where
  fib : Fib Nat := .initial
  fibRx : List GDPPacket := []
  channelRx : List (FibStateChange Nat) := []
  existingTopics : List GDPName := []
  -- the channel whose receiver the task of a topic holds
  rosRx : GDPName → Option Nat := fun _ => none
  phase : GDPName → ServicePhase := fun _ => .idle
  -- what the channels hold
  queue : Nat → List GDPPacket := fun _ => []
  nextTx : Nat := 0

inductive ClientEvent where
  -- `status_recv` yields a request
  | status (request : TopicManagerRequest)
  -- `service.next()` yields a call
  | call (topicGdpName : GDPName) (requestId : String) (message : Bytes)
  -- the wait of a call ends in the branch of `ros_rx`
  | respond (topicGdpName : GDPName)
  -- the wait of a call ends in the branch of `sleep`
  | timeout (topicGdpName : GDPName)
  -- a peer or another local handler sends a packet to the FIB
  | network (pkt : GDPPacket)
  -- another task sends an update, with a channel of its own if it has one
  | connect (update : FibStateChange Nat)
  -- the FIB handler takes a packet
  | fibPacket (reading : Reading)
  -- the FIB handler takes an update
  | fibUpdate

/-- An answer to a call: the guid of the Request that was sent for it, the packet taken
for its response, and the payload handed to ROS. -/
structure Answer where
  topicGdpName : GDPName
  requestGuid : GDPName
  packet : GDPPacket
  response : Bytes

namespace ServiceClient

section Step

variable (digest : Bytes → Vector UInt8 4) (uniqueRosNodeGdpName : GDPName)
  (bindingTable : BindingTable)

/-- One turn of the FIB handler, whose sends end up in the channels. -/
def fibTurn (c : ServiceClient) (event : FibEvent Nat) : ServiceClient :=
  { c with
    fib := (Fib.step bindingTable c.fib event).1
    queue := fun tx => c.queue tx ++
      ((Fib.step bindingTable c.fib event).2.sends.filter (·.dst.tx = tx)).map (·.pkt) }

def setPhase (c : ServiceClient) (topic : GDPName) (phase : ServicePhase) : ServiceClient :=
  { c with phase := Function.update c.phase topic phase }

/-- The loop of `handle_remote_ros_service` on one request. -/
def status (c : ServiceClient) (request : TopicManagerRequest) : ServiceClient :=
  let topicGdpName :=
    getGdpNameFromTopic digest request.topicName request.topicType request.certificate
  if request.action ≠ .add then c
  else if topicGdpName ∈ c.existingTopics then { c with nextTx := c.nextTx + 1 }
  else
    { c with
      channelRx := c.channelRx ++
        [remoteRosServiceUpdate topicGdpName request.topicName c.nextTx]
      existingTopics := c.existingTopics ++ [topicGdpName]
      rosRx := Function.update c.rosRx topicGdpName (some c.nextTx)
      phase := Function.update c.phase topicGdpName .idle
      nextTx := c.nextTx + 1 }

/-- A call: its Request goes to the FIB, whose receiver is gone if the handler has
aborted. -/
def call (c : ServiceClient) (topicGdpName : GDPName) (requestId : String) (message : Bytes) :
    ServiceClient :=
  match c.rosRx topicGdpName, c.phase topicGdpName with
  | some _, .idle =>
    let packetGuid := generateGdpNameFromString digest requestId
    match c.fib with
    | .aborted => c.setPhase topicGdpName .crashed
    | .running _ =>
      { c.setPhase topicGdpName (.waiting packetGuid) with
        fibRx := c.fibRx ++
          [constructGdpRequestWithGuid topicGdpName uniqueRosNodeGdpName message packetGuid] }
  | _, _ => c

/-- The branch `Some(packet) = ros_rx.recv()`. -/
def respond (c : ServiceClient) (topicGdpName : GDPName) : ServiceClient × Option Answer :=
  match c.rosRx topicGdpName, c.phase topicGdpName with
  | some tx, .waiting requestGuid =>
    match c.queue tx with
    | [] => (c, none)
    | packet :: rest =>
      let c := { c with queue := Function.update c.queue tx rest }
      match packet.payload with
      | none => (c.setPhase topicGdpName .crashed, none)
      | some response =>
        (c.setPhase topicGdpName .idle, some { topicGdpName, requestGuid, packet, response })
  | _, _ => (c, none)

def timeout (c : ServiceClient) (topicGdpName : GDPName) : ServiceClient :=
  match c.phase topicGdpName with
  | .waiting _ => c.setPhase topicGdpName .idle
  | _ => c

def step (c : ServiceClient) : ClientEvent → ServiceClient × Option Answer
  | .status request => (c.status digest request, none)
  | .call topicGdpName requestId message =>
    (c.call digest uniqueRosNodeGdpName topicGdpName requestId message, none)
  | .respond topicGdpName => c.respond topicGdpName
  | .timeout topicGdpName => (c.timeout topicGdpName, none)
  | .network pkt => ({ c with fibRx := c.fibRx ++ [pkt] }, none)
  | .connect update =>
    ({ c with
        channelRx := c.channelRx ++
          [{ update with forwardDestination := update.forwardDestination.map fun _ => c.nextTx }]
        nextTx := c.nextTx + 1 }, none)
  | .fibPacket reading =>
    match c.fibRx with
    | [] => (c, none)
    | pkt :: fibRx => ({ c with fibRx }.fibTurn bindingTable (.packet reading pkt), none)
  | .fibUpdate =>
    match c.channelRx with
    | [] => (c, none)
    | update :: channelRx =>
      ({ c with channelRx }.fibTurn bindingTable (.update update), none)

def answers (events : List ClientEvent) : List Answer :=
  (Mealy.outputs (step digest uniqueRosNodeGdpName bindingTable) {} events).filterMap id

end Step

/-! ## The wiring of the channels -/

def IsServiceChannel (c : ServiceClient) (tx : Nat) : Prop := ∃ topic, c.rosRx topic = some tx

/-- A channel that has been made, used as the update of its maker says. -/
def Allowed (c : ServiceClient) (tx : Nat) (type : FibConnectionType) : Prop :=
  tx < c.nextTx ∧ (c.IsServiceChannel tx → type = .responseReceiver)

/-- What holds of the channels in every state: each task has its own, which the FIB
knows as an entry for Response packets, so that only those are in its queue. -/
structure Wired (c : ServiceClient) : Prop where
  service : ∀ {topic tx}, c.rosRx topic = some tx → tx < c.nextTx
  distinct : ∀ {topic topic' tx}, c.rosRx topic = some tx → c.rosRx topic' = some tx →
    topic = topic'
  update : ∀ update ∈ c.channelRx, ∀ tx, update.forwardDestination = some tx →
    c.Allowed tx update.connectionType
  entry : ∀ h, c.fib = .running h → ∀ topic, ∀ dst ∈ h.receiversOf topic,
    c.Allowed dst.tx dst.connectionType
  queue : ∀ tx, ∀ pkt ∈ c.queue tx,
    tx < c.nextTx ∧ (c.IsServiceChannel tx → pkt.action = .response)

theorem wired_initial : Wired {} := by
  refine ⟨?_, ?_, ?_, ?_, ?_⟩
  · intro topic tx h
    cases h
  · intro topic topic' tx h
    cases h
  · intro update h
    cases h
  · intro h hrun topic dst hdst
    cases hrun
    cases hdst
  · intro tx pkt h
    cases h

/-- A packet on a service channel was sent as a Response. -/
theorem Wired.sent {c : ServiceClient} (hc : c.Wired) {h : FibHandler Nat}
    (hrun : c.fib = .running h) {reading : Reading} {pkt : GDPPacket} {sent : Sent Nat}
    (hsent : sent ∈ (h.packetArm reading pkt).2.sends) :
    sent.dst.tx < c.nextTx ∧ (c.IsServiceChannel sent.dst.tx → pkt.action = .response) := by
  obtain ⟨⟨dst, slot⟩, hentry, hserved, rfl⟩ :=
    mem_serve.1 ((packetArm_sublist h reading pkt).subset hsent)
  obtain ⟨hlt, htype⟩ := hc.entry h hrun _ _ (List.fst_mem_of_mem_zipIdx hentry)
  refine ⟨hlt, fun hservice => ?_⟩
  have hresponse : dst.connectionType = .responseReceiver := htype hservice
  dsimp only [Served] at hserved
  split at hserved
  · exact absurd (hserved.2.symm.trans hresponse) (by decide)
  · exact absurd (hserved.1.2.symm.trans hresponse) (by decide)
  · assumption
  · exact hserved.elim

section Preserved

variable {digest : Bytes → Vector UInt8 4} {uniqueRosNodeGdpName : GDPName}
  {bindingTable : BindingTable}

theorem fib_sends_update (s : Fib Nat) (update : FibStateChange Nat) :
    (Fib.step bindingTable s (.update update)).2.sends = [] := by
  cases s <;> rfl

theorem Wired.fibTurn_packet {c : ServiceClient} (hc : c.Wired) (reading : Reading)
    (pkt : GDPPacket) : (c.fibTurn bindingTable (.packet reading pkt)).Wired := by
  refine ⟨hc.service, hc.distinct, hc.update, ?_, ?_⟩
  · intro h' hrun topic dst hdst
    rcases hfib : c.fib with h | _
    · unfold fibTurn at hrun
      rw [hfib] at hrun
      obtain ⟨htable, -, -⟩ := packetArm_running hrun
      unfold receiversOf at hdst
      rw [htable] at hdst
      exact hc.entry h hfib topic dst hdst
    · unfold fibTurn at hrun
      rw [hfib] at hrun
      cases hrun
  · intro tx p hp
    rcases List.mem_append.1 hp with hp | hp
    · exact hc.queue tx p hp
    · obtain ⟨sent, hsent, rfl⟩ := List.mem_map.1 hp
      obtain ⟨hsent, htx⟩ := List.mem_filter.1 hsent
      rcases hfib : c.fib with h | _
      · rw [hfib] at hsent
        rw [packetArm_pkt hsent, ← of_decide_eq_true htx]
        exact hc.sent hfib hsent
      · rw [hfib] at hsent
        cases hsent

theorem Wired.fibTurn_update {c : ServiceClient} (hc : c.Wired) {update : FibStateChange Nat}
    (hupdate : ∀ tx, update.forwardDestination = some tx → c.Allowed tx update.connectionType) :
    (c.fibTurn bindingTable (.update update)).Wired := by
  refine ⟨hc.service, hc.distinct, hc.update, ?_, ?_⟩
  · intro h' hrun topic dst hdst
    rcases hfib : c.fib with h | _
    · unfold fibTurn at hrun
      rw [hfib] at hrun
      rw [(step_running hrun).1, List.mem_append] at hdst
      rcases hdst with hdst | hdst
      · exact hc.entry h hfib topic dst hdst
      · rcases registered_singleton bindingTable (.update update) topic with
          hnone | ⟨update', dst', hevent, htx, htype, -, hone⟩
        · rw [hnone] at hdst
          cases hdst
        · rw [hone, List.mem_singleton] at hdst
          cases hevent
          subst hdst
          rw [← htype]
          exact hupdate dst.tx htx
    · unfold fibTurn at hrun
      rw [hfib] at hrun
      cases hrun
  · intro tx p hp
    unfold fibTurn at hp
    rw [fib_sends_update] at hp
    exact hc.queue tx p (by simpa using hp)

/-- Phases, the FIB's packets and a shorter queue play no part in the wiring. -/
theorem Wired.of_queue {c c' : ServiceClient} (hc : c.Wired) (hrosRx : c'.rosRx = c.rosRx)
    (hnext : c'.nextTx = c.nextTx) (hchannelRx : ∀ update ∈ c'.channelRx, update ∈ c.channelRx)
    (hfib : c'.fib = c.fib) (hqueue : ∀ tx, ∀ pkt ∈ c'.queue tx, pkt ∈ c.queue tx) : c'.Wired := by
  have hallowed : ∀ {tx type}, c.Allowed tx type → c'.Allowed tx type := by
    rintro tx type ⟨hlt, htype⟩
    exact ⟨hnext ▸ hlt, fun ⟨topic, htopic⟩ => htype ⟨topic, hrosRx ▸ htopic⟩⟩
  refine ⟨fun h => hnext ▸ hc.service (hrosRx ▸ h),
    fun h h' => hc.distinct (hrosRx ▸ h) (hrosRx ▸ h'),
    fun update hmem tx htx => hallowed (hc.update update (hchannelRx update hmem) tx htx),
    fun h hrun topic dst hdst => hallowed (hc.entry h (hfib ▸ hrun) topic dst hdst), ?_⟩
  intro tx pkt hpkt
  obtain ⟨hlt, haction⟩ := hc.queue tx pkt (hqueue tx pkt hpkt)
  exact ⟨hnext ▸ hlt, fun ⟨topic, htopic⟩ => haction ⟨topic, hrosRx ▸ htopic⟩⟩

theorem Wired.of_newChannel {c : ServiceClient} (hc : c.Wired) (topic : GDPName)
    (update : FibStateChange Nat) (htx : update.forwardDestination = some c.nextTx)
    (htype : update.connectionType = .responseReceiver) (existingTopics : List GDPName)
    (phase : GDPName → ServicePhase) :
    Wired { c with
      channelRx := c.channelRx ++ [update]
      existingTopics, phase
      rosRx := Function.update c.rosRx topic (some c.nextTx)
      nextTx := c.nextTx + 1 } := by
  set c' : ServiceClient := { c with
    channelRx := c.channelRx ++ [update]
    existingTopics, phase
    rosRx := Function.update c.rosRx topic (some c.nextTx)
    nextTx := c.nextTx + 1 }
  have hold : ∀ {name tx}, c'.rosRx name = some tx → c.rosRx name = some tx ∧ tx < c.nextTx ∨
      name = topic ∧ tx = c.nextTx := by
    intro name tx h
    by_cases hname : name = topic
    · subst hname
      exact .inr ⟨rfl, Option.some.inj (h.symm.trans (Function.update_self ..))⟩
    · have h' := (Function.update_of_ne hname _ _).symm.trans h
      exact .inl ⟨h', hc.service h'⟩
  have hservice : ∀ {tx}, tx < c.nextTx → c'.IsServiceChannel tx → c.IsServiceChannel tx := by
    rintro tx hlt ⟨name, hname⟩
    rcases hold hname with ⟨h, -⟩ | ⟨-, rfl⟩
    · exact ⟨name, h⟩
    · exact absurd hlt (Nat.lt_irrefl _)
  have hallowed : ∀ {tx type}, c.Allowed tx type → c'.Allowed tx type := fun ⟨hlt, htype⟩ =>
    ⟨Nat.lt_succ_of_lt hlt, fun h => htype (hservice hlt h)⟩
  refine ⟨?_, ?_, ?_, fun h hrun name dst hdst => hallowed (hc.entry h hrun name dst hdst), ?_⟩
  · intro name tx h
    rcases hold h with ⟨-, hlt⟩ | ⟨-, rfl⟩
    · exact Nat.lt_succ_of_lt hlt
    · exact Nat.lt_succ_self _
  · intro name name' tx h h'
    rcases hold h with ⟨h, hlt⟩ | ⟨rfl, rfl⟩ <;> rcases hold h' with ⟨h', hlt'⟩ | ⟨rfl, heq⟩
    · exact hc.distinct h h'
    · exact absurd hlt (by rw [heq]; exact Nat.lt_irrefl _)
    · exact absurd hlt' (Nat.lt_irrefl _)
    · rfl
  · intro u hu tx hutx
    rcases List.mem_append.1 hu with hu | hu
    · apply hallowed
      exact hc.update u hu tx hutx
    · obtain rfl := List.mem_singleton.1 hu
      rw [htx] at hutx
      cases hutx
      exact ⟨Nat.lt_succ_self _, fun _ => htype⟩
  · intro tx pkt hpkt
    obtain ⟨hlt, haction⟩ := hc.queue tx pkt hpkt
    exact ⟨Nat.lt_succ_of_lt hlt, fun h => haction (hservice hlt h)⟩

/-- A channel that no task of a topic holds may carry anything. -/
theorem Wired.of_foreignChannel {c : ServiceClient} (hc : c.Wired)
    (updates : List (FibStateChange Nat))
    (hupdates : ∀ update ∈ updates, ∀ tx, update.forwardDestination = some tx → tx = c.nextTx) :
    Wired { c with channelRx := c.channelRx ++ updates, nextTx := c.nextTx + 1 } := by
  refine ⟨fun h => Nat.lt_succ_of_lt (hc.service h), hc.distinct, ?_, ?_, ?_⟩
  · intro update hupdate tx htx
    rcases List.mem_append.1 hupdate with hupdate | hupdate
    · obtain ⟨hlt, htype⟩ := hc.update update hupdate tx htx
      exact ⟨Nat.lt_succ_of_lt hlt, htype⟩
    · obtain rfl := hupdates update hupdate tx htx
      refine ⟨Nat.lt_succ_self _, fun ⟨topic, htopic⟩ => ?_⟩
      exact absurd (hc.service htopic) (Nat.lt_irrefl _)
  · intro h hrun topic dst hdst
    obtain ⟨hlt, htype⟩ := hc.entry h hrun topic dst hdst
    exact ⟨Nat.lt_succ_of_lt hlt, htype⟩
  · intro tx pkt hpkt
    obtain ⟨hlt, haction⟩ := hc.queue tx pkt hpkt
    exact ⟨Nat.lt_succ_of_lt hlt, haction⟩

theorem wired_step (c : ServiceClient) (event : ClientEvent) (hc : c.Wired) :
    (c.step digest uniqueRosNodeGdpName bindingTable event).1.Wired := by
  cases event with
  | status request =>
    unfold step status
    dsimp only
    split
    · exact hc
    · split
      · simpa using hc.of_foreignChannel [] (by simp)
      · exact hc.of_newChannel _ _ rfl rfl _ _
  | call topic requestId message =>
    rw [step, call]
    split
    · dsimp only
      split
      · exact hc.of_queue rfl rfl (fun _ h => h) rfl fun _ _ h => h
      · exact hc.of_queue rfl rfl (fun _ h => h) rfl fun _ _ h => h
    · exact hc
  | respond topic =>
    rw [step, respond]
    split
    · rename_i tx _ _ _
      split
      · exact hc
      · rename_i packet rest hqueue
        have hpop : ∀ tx', ∀ pkt ∈ Function.update c.queue tx rest tx', pkt ∈ c.queue tx' := by
          intro tx' pkt hpkt
          by_cases htx : tx' = tx
          · subst htx
            rw [Function.update_self] at hpkt
            rw [hqueue]
            exact List.mem_cons_of_mem _ hpkt
          · rwa [Function.update_of_ne htx] at hpkt
        dsimp only
        split
        · exact hc.of_queue rfl rfl (fun _ h => h) rfl hpop
        · exact hc.of_queue rfl rfl (fun _ h => h) rfl hpop
    · exact hc
  | timeout topic =>
    unfold step timeout
    dsimp only
    split
    · exact hc.of_queue rfl rfl (fun _ h => h) rfl fun _ _ h => h
    · exact hc
  | network pkt => exact hc.of_queue rfl rfl (fun _ h => h) rfl fun _ _ h => h
  | connect update =>
    apply hc.of_foreignChannel _
    intro u hu tx htx
    obtain rfl := List.mem_singleton.1 hu
    obtain ⟨_, -, rfl⟩ := Option.map_eq_some_iff.1 htx
    rfl
  | fibPacket reading =>
    rw [step]
    split
    · exact hc
    · rename_i pkt fibRx _
      have hc' : Wired { c with fibRx } := hc.of_queue rfl rfl (fun _ h => h) rfl fun _ _ h => h
      exact hc'.fibTurn_packet reading pkt
  | fibUpdate =>
    rw [step]
    split
    · exact hc
    · rename_i update channelRx hchannelRx
      have hc' : Wired { c with channelRx } :=
        hc.of_queue rfl rfl (fun _ h => hchannelRx ▸ List.mem_cons_of_mem _ h) rfl fun _ _ h => h
      exact hc'.fibTurn_update (hc.update update (hchannelRx ▸ List.mem_cons_self))

end Preserved

end ServiceClient

end RtFogros
