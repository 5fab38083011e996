import RtFogros.Ros.Handlers
import RtFogros.Router.Api
import RtFogros.Swarm.Bookkeeping

/-!
# A topic that is subscribed to and deleted

The path of a request from the API of the router over `main_service_manager` and
`handle_ros_topic_remote_subscriber` to the FIB handler.  The tasks run in any order: an event is
what one of them does next.

`deleted_topics_silent_iff`: no Forward packet of a deleted topic is delivered to a local topic
exactly if none with a new guid is taken once the subscription was.  Nothing takes an entry out of
the table, so a subscription that the FIB handler has taken stays; `Wired` says that the table
registers what was taken and that a subscription on its way is complete.
-/

namespace RtFogros

open FibHandler

/-- The ADD update of a channel that publishes to a local ROS topic. -/
def IsSubscription (update : FibStateChange Nat) : Prop :=
  update.action = .add ∧ update.connectionType = .receiver ∧ update.interface = some "ros"

/-- An update of any other task. -/
structure OtherUpdate where
  update : FibStateChange Nat
  other : ¬ IsSubscription update

structure TopicRouter where
  serviceRequestRx : List ROSTopicRequest := []
  managerPanicked : Bool := false
  -- the queue of `handle_ros_topic_remote_subscriber`
  statusRecv : List TopicManagerRequest := []
  existingTopics : List GDPName := []
  subscriberPanicked : Bool := false
  channelRx : List (FibStateChange Nat) := []
  fib : Fib Nat := .initial
  nextTx : Nat := 0
  -- what was posted, and the updates the FIB handler has taken
  posted : List ROSTopicRequest := []
  taken : List (FibStateChange Nat) := []

inductive RouterEvent where
  -- a request is posted to the API
  | post (payload : ROSTopicRequest)
  -- `main_service_manager` takes a request
  | manage
  -- the subscriber handler takes a request; `created` says whether
  -- `create_publisher_untyped` succeeds
  | status (created : Bool)
  -- another task sends an update
  | connect (update : OtherUpdate)
  -- the FIB handler takes a packet
  | fibPacket (reading : Reading) (pkt : GDPPacket)
  -- the FIB handler takes an update
  | fibUpdate

def Operation.subscriber? : Operation → Option TopicManagerRequest
  | .subscriber request => some request
  | _ => none

namespace TopicRouter

section Step

variable (digest : Bytes → Vector UInt8 4) (certificate : Bytes) (bindingTable : BindingTable)

/-- A round of `main_service_manager`. -/
def manage (c : TopicRouter) : TopicRouter :=
  if c.managerPanicked then c
  else match c.serviceRequestRx with
    | [] => c
    | payload :: serviceRequestRx =>
      match dispatch certificate payload with
      | none => { c with serviceRequestRx, managerPanicked := true }
      | some operations =>
        { c with
          serviceRequestRx
          statusRecv := c.statusRecv ++ operations.filterMap Operation.subscriber? }

/-- The loop of `handle_ros_topic_remote_subscriber` on one request.  The update is sent
also for a topic that exists. -/
def status (c : TopicRouter) (created : Bool) : TopicRouter :=
  if c.subscriberPanicked then c
  else match c.statusRecv with
    | [] => c
    | request :: statusRecv =>
      let topicGdpName :=
        getGdpNameFromTopic digest request.topicName request.topicType request.certificate
      if request.action ≠ .add then { c with statusRecv }
      else
        { c with
          statusRecv
          channelRx := c.channelRx ++
            [rosTopicRemoteSubscriberUpdate topicGdpName request.topicName c.nextTx]
          nextTx := c.nextTx + 1
          existingTopics :=
            if topicGdpName ∈ c.existingTopics then c.existingTopics
            else c.existingTopics ++ [topicGdpName]
          subscriberPanicked := topicGdpName ∉ c.existingTopics && !created }

/-- What `handle_ros_topic_remote_subscriber` knows. -/
def handler (c : TopicRouter) : RosHandler :=
  { existingTopics := c.existingTopics, panicked := c.subscriberPanicked, nextTx := c.nextTx }

/-- The router sends on what the loop sends for its next request. -/
theorem status_handle {c : TopicRouter} {request : TopicManagerRequest}
    {statusRecv : List TopicManagerRequest} (hrunning : c.subscriberPanicked = false)
    (hqueue : c.statusRecv = request :: statusRecv) (created : Bool) :
    c.status digest created =
      { c with
        statusRecv
        channelRx := c.channelRx ++
          (RosRole.remoteSubscriber.handle digest c.handler ⟨request, created⟩).sent
        existingTopics :=
          (RosRole.remoteSubscriber.handle digest c.handler ⟨request, created⟩).existingTopics
        subscriberPanicked :=
          (RosRole.remoteSubscriber.handle digest c.handler ⟨request, created⟩).panicked
        nextTx :=
          (RosRole.remoteSubscriber.handle digest c.handler ⟨request, created⟩).nextTx } := by
  have hround := rosRound_handle digest .remoteSubscriber c.handler ⟨request, created⟩
  generalize RosRole.remoteSubscriber.handle digest c.handler ⟨request, created⟩ = handler
    at hround ⊢
  rw [status, if_neg (by simp [hrunning]), hqueue]
  dsimp only
  cases hround with
  | ignored h =>
    have hadd := h.resolve_left (by simp [handler, hrunning])
    rw [if_pos hadd]
    simp [handler]
  | repeated hbefore hadd htopic =>
    rw [if_neg (not_not_intro hadd), if_pos (by exact htopic)]
    rw [handler, StatusEvent.topic] at htopic
    simp [handler, StatusEvent.topic, RosRole.update, RosRole.announcesFirst, htopic, hrunning]
  | created hbefore hadd htopic hcreated =>
    rw [if_neg (not_not_intro hadd), if_neg (by exact htopic)]
    rw [handler, StatusEvent.topic] at htopic
    simp_all [handler, StatusEvent.topic, RosRole.update]
  | failed hbefore hadd htopic hcreated =>
    rw [if_neg (not_not_intro hadd), if_neg (by exact htopic)]
    rw [handler, StatusEvent.topic] at htopic
    simp_all [handler, StatusEvent.topic, RosRole.update]

/-- The next state, and what the FIB handler sends. -/
def step (c : TopicRouter) : RouterEvent → TopicRouter × List (Sent Nat)
  | .post payload =>
    ({ c with
        serviceRequestRx := c.serviceRequestRx ++ [payload]
        posted := c.posted ++ [payload] }, [])
  | .manage => (c.manage certificate, [])
  | .status created => (c.status digest created, [])
  | .connect update => ({ c with channelRx := c.channelRx ++ [update.update] }, [])
  | .fibPacket reading pkt =>
    ({ c with fib := (Fib.step bindingTable c.fib (.packet reading pkt)).1 },
      (Fib.step bindingTable c.fib (.packet reading pkt)).2.sends)
  | .fibUpdate =>
    match c.channelRx with
    | [] => (c, [])
    | update :: channelRx =>
      ({ c with
          channelRx
          fib := (Fib.step bindingTable c.fib (.update update)).1
          taken := c.taken ++ [update] }, [])

end Step

end TopicRouter

/-! ## Deleted topics -/

/-- A request for the topic that adds, deletes or resumes it. -/
def ROSTopicRequest.Changes (payload : ROSTopicRequest) (topicName topicType : String) : Prop :=
  payload.topicName = topicName ∧ payload.topicType = topicType ∧
    (payload.apiOp = "add" ∨ payload.apiOp = "del" ∨ payload.apiOp = "resume")

instance (payload : ROSTopicRequest) (topicName topicType : String) :
    Decidable (payload.Changes topicName topicType) := inferInstanceAs (Decidable (_ ∧ _))

/-- The topic was added as `sub`, then deleted, and neither added nor resumed since. -/
def Deleted (posted : List ROSTopicRequest) (topicName topicType : String) : Prop :=
  (∃ payload ∈ posted, payload.Changes topicName topicType ∧ payload.apiOp = "add" ∧
      payload.rosOp = "sub") ∧
    (posted.reverse.find? (·.Changes topicName topicType)).map (·.apiOp) = some "del"

instance (posted : List ROSTopicRequest) (topicName topicType : String) :
    Decidable (Deleted posted topicName topicType) := inferInstanceAs (Decidable (_ ∧ _))

/-! ## The table of a running handler -/

namespace TopicRouter

/-- The FIB handler has taken a subscription to the topic. -/
def Subscribed (c : TopicRouter) (topic : GDPName) : Prop :=
  ∃ update ∈ c.taken, IsSubscription update ∧ update.topicGdpName = topic

/-- The table registers what was taken, and a subscription is complete. -/
structure Wired (bindingTable : BindingTable) (c : TopicRouter) : Prop where
  table : ∀ h, c.fib = .running h → ∀ topic,
    h.receiversOf topic = registered bindingTable (c.taken.map .update) topic
  sent : ∀ update ∈ c.channelRx, IsSubscription update → update.Complete
  taken : ∀ update ∈ c.taken, IsSubscription update → update.Complete

variable {digest : Bytes → Vector UInt8 4} {certificate : Bytes} {bindingTable : BindingTable}
  {c : TopicRouter}

theorem wired_initial : Wired bindingTable {} := by
  refine ⟨fun h hrun topic => ?_, fun update hmem => ?_, fun update hmem => ?_⟩
  · cases hrun
    rfl
  · cases hmem
  · cases hmem

variable (bindingTable) in
/-- A subscription is registered as an entry for Forward packets. -/
theorem admitted_of_subscription {update : FibStateChange Nat} (h : IsSubscription update)
    (hcomplete : update.Complete) :
    ∃ dst, admitted bindingTable (.update update) = some (update.topicGdpName, dst) ∧
      dst.connectionType = .receiver ∧ dst.interface = some "ros" := by
  obtain ⟨hadd, htype, hros⟩ := h
  obtain ⟨address, haddress⟩ := Option.isSome_iff_exists.1 hcomplete.address
  obtain ⟨tx, htx⟩ := Option.isSome_iff_exists.1 hcomplete.forwardDestination
  have hpass : filtered bindingTable "ros" address = false := by
    unfold filtered
    cases bindingTable <;> simp
  simp [admitted, hros, haddress, htx, hadd, htype, IsReceiver, hpass]

theorem subscription_of_admitted {update : FibStateChange Nat} {topic : GDPName}
    {dst : FibConnection Nat} (h : admitted bindingTable (.update update) = some (topic, dst))
    (htype : dst.connectionType = .receiver) (hros : dst.interface = some "ros") :
    IsSubscription update ∧ update.topicGdpName = topic := by
  rw [admitted] at h
  split at h
  · rename_i interface address tx hinterface haddress htx
    split at h
    · rename_i hcondition
      cases h
      exact ⟨⟨hcondition.1, htype, hros⟩, rfl⟩
    · cases h
  · cases h

/-- The table has a local entry for Forward packets exactly if it is subscribed to. -/
theorem Wired.local_iff (hc : Wired bindingTable c) {h : FibHandler Nat} (hrun : c.fib = .running h)
    (topic : GDPName) :
    (∃ dst ∈ h.receiversOf topic, dst.state = .running ∧ dst.connectionType = .receiver ∧
      dst.interface = some "ros") ↔ c.Subscribed topic := by
  rw [hc.table h hrun]
  constructor
  · rintro ⟨dst, hdst, -, htype, hros⟩
    obtain ⟨event, hevent, hregistered⟩ := List.mem_filterMap.1 hdst
    obtain ⟨update, hupdate, rfl⟩ := List.mem_map.1 hevent
    obtain ⟨⟨name, dst'⟩, hadmitted, hname⟩ := Option.bind_eq_some_iff.1 hregistered
    dsimp only at hname
    split at hname
    · rename_i heq
      cases hname
      obtain ⟨hsubscription, hnamed⟩ := subscription_of_admitted hadmitted htype hros
      exact ⟨update, hupdate, hsubscription, hnamed.trans heq⟩
    · cases hname
  · rintro ⟨update, hupdate, hsubscription, rfl⟩
    obtain ⟨dst, hadmitted, htype, hros⟩ := admitted_of_subscription bindingTable hsubscription
      (hc.taken update hupdate hsubscription)
    refine ⟨dst, ?_, (registered_of_admitted hadmitted).state, htype, hros⟩
    refine List.mem_filterMap.2 ⟨.update update, List.mem_map_of_mem hupdate, ?_⟩
    rw [hadmitted]
    exact if_pos rfl

/-- Only the FIB handler and what is sent to it play a part in the wiring. -/
theorem Wired.of_eq (hc : Wired bindingTable c) {c' : TopicRouter} (hfib : c'.fib = c.fib)
    (hchannelRx : c'.channelRx = c.channelRx) (htaken : c'.taken = c.taken) :
    Wired bindingTable c' := by
  refine ⟨fun h hrun topic => ?_, fun update hmem => ?_, fun update hmem => ?_⟩
  · rw [htaken]
    exact hc.table h (hfib ▸ hrun) topic
  · exact hc.sent update (hchannelRx ▸ hmem)
  · exact hc.taken update (htaken ▸ hmem)

theorem Wired.manage (hc : Wired bindingTable c) :
    Wired bindingTable (c.manage certificate) := by
  unfold TopicRouter.manage
  split
  · exact hc
  · split
    · exact hc
    · split
      · exact hc.of_eq rfl rfl rfl
      · exact hc.of_eq rfl rfl rfl

theorem Wired.status (hc : Wired bindingTable c) (created : Bool) :
    Wired bindingTable (c.status digest created) := by
  unfold TopicRouter.status
  split
  · exact hc
  · split
    · exact hc
    · dsimp only
      split
      · exact hc.of_eq rfl rfl rfl
      · refine ⟨hc.table, fun update hmem hsubscription => ?_, hc.taken⟩
        rcases List.mem_append.1 hmem with hmem | hmem
        · exact hc.sent update hmem hsubscription
        · obtain rfl := List.mem_singleton.1 hmem
          exact rosUpdate_complete ..

theorem Wired.fibPacket (hc : Wired bindingTable c) (reading : Reading) (pkt : GDPPacket) :
    Wired bindingTable { c with fib := (Fib.step bindingTable c.fib (.packet reading pkt)).1 } := by
  refine ⟨fun h' hrun topic => ?_, hc.sent, hc.taken⟩
  rcases hfib : c.fib with h | _
  · dsimp only at hrun
    rw [hfib] at hrun
    rw [(step_running hrun).1, hc.table h hfib]
    exact List.append_nil _
  · dsimp only at hrun
    rw [hfib] at hrun
    cases hrun

theorem Wired.fibUpdate (hc : Wired bindingTable c) {update : FibStateChange Nat}
    {channelRx : List (FibStateChange Nat)} (hchannelRx : c.channelRx = update :: channelRx) :
    Wired bindingTable { c with
      channelRx
      fib := (Fib.step bindingTable c.fib (.update update)).1
      taken := c.taken ++ [update] } := by
  refine ⟨fun h' hrun topic => ?_, fun other hmem => ?_, fun other hmem => ?_⟩
  · rcases hfib : c.fib with h | _
    · dsimp only at hrun
      rw [hfib] at hrun
      rw [(step_running hrun).1, hc.table h hfib, List.map_append, registered_append]
      rfl
    · dsimp only at hrun
      rw [hfib] at hrun
      cases hrun
  · exact hc.sent other (hchannelRx ▸ List.mem_cons_of_mem _ hmem)
  · rcases List.mem_append.1 hmem with hmem | hmem
    · exact hc.taken other hmem
    · obtain rfl := List.mem_singleton.1 hmem
      exact hc.sent other (hchannelRx ▸ List.mem_cons_self)

theorem wired_step (hc : Wired bindingTable c) (event : RouterEvent) :
    Wired bindingTable (c.step digest certificate bindingTable event).1 := by
  cases event with
  | post payload => exact hc.of_eq rfl rfl rfl
  | manage => exact hc.manage
  | status created => exact hc.status created
  | connect other =>
    refine ⟨hc.table, fun update hmem hsubscription => ?_, hc.taken⟩
    rcases List.mem_append.1 hmem with hmem | hmem
    · exact hc.sent update hmem hsubscription
    · obtain rfl := List.mem_singleton.1 hmem
      exact absurd hsubscription other.other
  | fibPacket reading pkt => exact hc.fibPacket reading pkt
  | fibUpdate =>
    unfold step
    dsimp only
    split
    · exact hc
    · rename_i hchannelRx
      exact hc.fibUpdate hchannelRx

/-! ## What is delivered to a deleted topic -/

/-- A Forward packet with a new guid is sent to all running entries for it. -/
theorem mem_forward_sends {h : FibHandler Nat} {reading : Reading} {pkt : GDPPacket}
    (haction : pkt.action = .forward) {sent : Sent Nat} :
    sent ∈ (h.packetArm reading pkt).2.sends ↔ pkt.guid ∉ h.processedRequests ∧
      ∃ entry ∈ (h.receiversOf pkt.gdpname).zipIdx, Listens .receiver entry ∧
        sendTo pkt entry = sent := by
  unfold packetArm
  rw [haction]
  dsimp only
  unfold forwardArm
  by_cases hdup : pkt.guid ∈ h.processedRequests
  · rw [if_pos hdup]
    exact iff_of_false List.not_mem_nil fun h => h.1 hdup
  · rw [if_neg hdup, forwardLoop_eq]
    simp [hdup, and_assoc]

variable (digest certificate bindingTable)

/-- The GDP name of a deleted topic. -/
def IsDeleted (c : TopicRouter) (topic : GDPName) : Prop :=
  ∃ topicName topicType, Deleted c.posted topicName topicType ∧
    getGdpNameFromTopic digest topicName topicType certificate = topic

/-- No Forward packet of a deleted topic is delivered to a local ROS topic. -/
def Silent (c : TopicRouter) (event : RouterEvent) : Prop :=
  ∀ sent ∈ (c.step digest certificate bindingTable event).2, sent.pkt.action = .forward →
    sent.dst.interface = some "ros" → ¬ c.IsDeleted digest certificate sent.pkt.gdpname

/-- A Forward packet with a new guid is not for a deleted topic whose subscription the FIB
handler has taken. -/
def Unreached (c : TopicRouter) : RouterEvent → Prop
  | .fibPacket _ pkt =>
    ∀ h, c.fib = .running h → pkt.action = .forward → pkt.guid ∉ h.processedRequests →
      c.IsDeleted digest certificate pkt.gdpname → ¬ c.Subscribed pkt.gdpname
  | _ => True

variable {digest certificate bindingTable}

theorem silent_of_nil {event : RouterEvent}
    (h : (c.step digest certificate bindingTable event).2 = []) :
    c.Silent digest certificate bindingTable event := by
  intro sent hsent
  rw [h] at hsent
  cases hsent

theorem Wired.silent_iff (hc : Wired bindingTable c) (event : RouterEvent) :
    c.Silent digest certificate bindingTable event ↔ c.Unreached digest certificate event := by
  cases event with
  | fibPacket reading pkt =>
    constructor
    · intro hsilent h hrun haction hfresh hdeleted hsubscribed
      obtain ⟨dst, hdst, hstate, htype, hros⟩ := (hc.local_iff hrun pkt.gdpname).2 hsubscribed
      obtain ⟨slot, hslot⟩ := List.getElem?_of_mem hdst
      have hsent : sendTo pkt (dst, slot) ∈
          (c.step digest certificate bindingTable (.fibPacket reading pkt)).2 := by
        unfold step
        rw [hrun]
        refine (mem_forward_sends haction).2 ⟨hfresh, (dst, slot), ?_, ⟨hstate, htype⟩, rfl⟩
        exact List.mem_zipIdx_iff_getElem?.2 hslot
      exact hsilent _ hsent haction hros hdeleted
    · intro hunreached sent hsent haction hros hdeleted
      cases hrun : c.fib with
      | aborted =>
        unfold step at hsent
        rw [hrun] at hsent
        cases hsent
      | running h =>
        unfold step at hsent
        rw [hrun] at hsent
        have hpkt := packetArm_pkt hsent
        rw [hpkt] at haction hdeleted
        obtain ⟨hfresh, entry, hentry, ⟨hstate, htype⟩, rfl⟩ := (mem_forward_sends haction).1 hsent
        refine hunreached h hrun haction hfresh hdeleted ((hc.local_iff hrun pkt.gdpname).1 ?_)
        exact ⟨entry.1, List.fst_mem_of_mem_zipIdx hentry, hstate, htype, hros⟩
  | post payload => exact iff_of_true (silent_of_nil rfl) trivial
  | manage => exact iff_of_true (silent_of_nil rfl) trivial
  | status created => exact iff_of_true (silent_of_nil rfl) trivial
  | connect update => exact iff_of_true (silent_of_nil rfl) trivial
  | fibUpdate =>
    refine iff_of_true (silent_of_nil ?_) trivial
    unfold step
    dsimp only
    split <;> rfl

end TopicRouter

section Runs

variable (digest : Bytes → Vector UInt8 4) (certificate : Bytes) (bindingTable : BindingTable)

/-- The state of the router after an event. -/
def TopicRouter.next (c : TopicRouter) (event : RouterEvent) : TopicRouter :=
  (c.step digest certificate bindingTable event).1

/-- **Main result.**  In every run, no Forward packet of a deleted topic is delivered to a
local ROS topic exactly if none with a new guid is taken once the subscription was. -/
theorem deleted_topics_silent_iff (events : List RouterEvent) :
    Run.Throughout (TopicRouter.next digest certificate bindingTable)
        (TopicRouter.Silent digest certificate bindingTable) {} events ↔
      Run.Throughout (TopicRouter.next digest certificate bindingTable)
        (TopicRouter.Unreached digest certificate) {} events :=
  Run.throughout_congr (TopicRouter.Wired bindingTable)
    (fun _ event hc _ => TopicRouter.wired_step hc event)
    (fun _ event hc => hc.silent_iff event) TopicRouter.wired_initial

end Runs

/-- A machine listens to `/chatter` and leaves that state; then a message comes. -/
def leftTopic : List RouterEvent :=
  ((Swarm.samRun ["listener", "idle"]).posts.map fun post => .post post.json) ++
    [.manage, .manage, .manage, .status true, .fibUpdate]

def leftTopicRouter : TopicRouter :=
  Run.after (TopicRouter.next (fun _ => #v[1, 1, 1, 1]) [] none) {} leftTopic

/-- The message is delivered to the local topic. -/
theorem left_topic_delivered :
    ¬ Run.Throughout (TopicRouter.next (fun _ => #v[1, 1, 1, 1]) [] none)
      (TopicRouter.Silent (fun _ => #v[1, 1, 1, 1]) [] none) {}
      (leftTopic ++ [.fibPacket ⟨0, some "eth0"⟩ sampleForward]) := by
  intro h
  have hsilent : leftTopicRouter.Silent (fun _ => #v[1, 1, 1, 1]) [] none
      (.fibPacket ⟨0, some "eth0"⟩ sampleForward) := (Run.throughout_append.1 h).2.1
  have hdeleted : Deleted leftTopicRouter.posted "/chatter" "std_msgs/msg/String" := by
    decide
  have hsent : ∃ sent ∈ (leftTopicRouter.step (fun _ => #v[1, 1, 1, 1]) [] none
      (.fibPacket ⟨0, some "eth0"⟩ sampleForward)).2,
        sent.pkt.action = .forward ∧ sent.dst.interface = some "ros" ∧
          sent.pkt.gdpname = sampleName 1 := by decide
  obtain ⟨sent, hmem, haction, hros, hname⟩ := hsent
  exact hsilent sent hmem haction hros ⟨_, _, hdeleted, hname.symm⟩

end RtFogros
