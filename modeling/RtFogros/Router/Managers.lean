import RtFogros.Lib.Run
import RtFogros.Router.Api
import RtFogros.Stream.Direction
import Mathlib.Data.List.Induction

/-!
# The loops behind the API

`main_service_manager` (`service_manager.rs`) with `RoutingManager::handle_sender_routing` and
`RoutingManager::handle_receiver_routing` (`routing_manager.rs`), to which it sends.  The two
managers do the same for a request, but the receiver side in a task of its own.  A loop that panics
drops its end of a channel, and that makes the other loop panic.

`keepsServing_iff`: on every schedule both loops keep running and serve later requests, exactly if
every request is `Harmless`, a condition on the request alone.  `Sound` says that the operations on
their way are those of requests that were dispatched, so that a harmless request meets loops that
run and is worked off by them.
-/

namespace RtFogros

/-! ## The configuration of a stream -/

structure KcpNoDelayConfig where
  nodelay : Bool
  interval : Int
  resend : Int
  nc : Bool
deriving DecidableEq

def KcpNoDelayConfig.fastest : KcpNoDelayConfig :=
  { nodelay := true, interval := 10, resend := 2, nc := true }

def KcpNoDelayConfig.normal : KcpNoDelayConfig :=
  { nodelay := false, interval := 40, resend := 0, nc := false }

structure KcpConfig where
  mtu : Nat
  nodelay : KcpNoDelayConfig
  wndSize : Nat × Nat
  -- in seconds
  sessionExpire : Nat
  flushWrite : Bool
  flushAcksInput : Bool
  stream : Bool
deriving DecidableEq

def toKcpConfig (config : String) : KcpConfig :=
  match config with
  | "fast" =>
    { mtu := 1400, nodelay := .fastest, wndSize := (256, 256), sessionExpire := 90,
      flushWrite := true, flushAcksInput := true, stream := false }
  | "slow" =>
    { mtu := 1400, nodelay := .normal, wndSize := (256, 256), sessionExpire := 90,
      flushWrite := false, flushAcksInput := false, stream := false }
  | _ =>
    { mtu := 1400, nodelay := .fastest, wndSize := (256, 256), sessionExpire := 90,
      flushWrite := true, flushAcksInput := true, stream := false }

/-! ## The loops -/

/-- What `register_stream_sender` or `register_stream_receiver` is called with. -/
structure StreamRegistration where
  topicGdpName : GDPName
  direction : String
  config : KcpConfig
deriving DecidableEq

/-- What a routing manager makes of a request for its `side` of a stream; `none` is a panic. -/
def streamRegistration (digest : Bytes → Vector UInt8 4) (side : String)
    (request : RoutingManagerRequest) : Option StreamRegistration :=
  match request.connectionType with
  | none => none
  | some connectionType =>
    let direction := connectionType ++ "-" ++ side
    (directionStrToConnectionType direction).map fun _ =>
      { topicGdpName :=
          getGdpNameFromTopic digest request.topicName request.topicType request.certificate
        direction
        config := toKcpConfig request.topicQos }

inductive Loop where
  | running
  | panicked
deriving DecidableEq

structure Managers where
  -- the queue of `main_service_manager`, and what it has sent
  serviceRequestRx : List ROSTopicRequest := []
  manager : Loop := .running
  operations : List Operation := []
  -- the queue of `handle_sender_routing`, and what it has spawned
  senderRoutingRx : List RoutingManagerRequest := []
  sender : Loop := .running
  senders : List StreamRegistration := []
  -- the queue of `handle_receiver_routing`, and the tasks it has spawned, `none` for one
  -- that panics
  receiverRoutingRx : List RoutingManagerRequest := []
  receiver : Loop := .running
  receivers : List (Option StreamRegistration) := []

inductive ManagerEvent where
  -- a request is posted to the API
  | post (payload : ROSTopicRequest)
  -- `main_service_manager` takes a request
  | manage
  -- `handle_sender_routing` takes a request
  | routeSender
  -- `handle_receiver_routing` takes a request
  | routeReceiver

def Operation.sender? : Operation → Option RoutingManagerRequest
  | .senderRouting request => some request
  | _ => none

def Operation.receiver? : Operation → Option RoutingManagerRequest
  | .receiverRouting request => some request
  | _ => none

namespace Managers

variable (digest : Bytes → Vector UInt8 4) (certificate : Bytes)

/-- The `expect` of a `send` fails when the loop at the other end is gone. -/
def sendFails (c : Managers) (operations : List Operation) : Prop :=
  (c.sender = .panicked ∧ operations.filterMap Operation.sender? ≠ []) ∨
    (c.receiver = .panicked ∧ operations.filterMap Operation.receiver? ≠ [])

instance (c : Managers) (operations : List Operation) : Decidable (c.sendFails operations) :=
  inferInstanceAs (Decidable (_ ∨ _))

/-- A round of `main_service_manager`. -/
def manage (c : Managers) : Managers :=
  match c.manager with
  | .panicked => c
  | .running =>
    match c.serviceRequestRx with
    | [] => c
    | payload :: serviceRequestRx =>
      match dispatch certificate payload with
      | none => { c with serviceRequestRx, manager := .panicked }
      | some operations =>
        if c.sendFails operations then { c with serviceRequestRx, manager := .panicked }
        else
          { c with
            serviceRequestRx
            operations := c.operations ++ operations
            senderRoutingRx := c.senderRoutingRx ++ operations.filterMap Operation.sender?
            receiverRoutingRx := c.receiverRoutingRx ++ operations.filterMap Operation.receiver? }

/-- A round of `handle_sender_routing`.  The `select!` panics when the channel is closed,
as it has no `else`. -/
def handleSenderRouting (c : Managers) : Managers :=
  match c.sender, c.senderRoutingRx with
  | .panicked, _ => c
  | .running, [] => { c with sender := c.manager }
  | .running, request :: senderRoutingRx =>
    match streamRegistration digest "sender" request with
    | none => { c with senderRoutingRx, sender := .panicked }
    | some registration => { c with senderRoutingRx, senders := c.senders ++ [registration] }

/-- A round of `handle_receiver_routing`: a panic over the request is that of its task. -/
def handleReceiverRouting (c : Managers) : Managers :=
  match c.receiver, c.receiverRoutingRx with
  | .panicked, _ => c
  | .running, [] => { c with receiver := c.manager }
  | .running, request :: receiverRoutingRx =>
    { c with
      receiverRoutingRx
      receivers := c.receivers ++ [streamRegistration digest "receiver" request] }

/-- The API cannot send to a manager that is gone. -/
def post (c : Managers) (payload : ROSTopicRequest) : Managers :=
  match c.manager with
  | .panicked => c
  | .running => { c with serviceRequestRx := c.serviceRequestRx ++ [payload] }

def step (c : Managers) : ManagerEvent → Managers
  | .post payload => c.post payload
  | .manage => c.manage certificate
  | .routeSender => c.handleSenderRouting digest
  | .routeReceiver => c.handleReceiverRouting digest

/-- The managers after a run. -/
def after (c : Managers) (events : List ManagerEvent) : Managers :=
  Run.after (step digest certificate) c events

end Managers

/-! ## Requests the loops can take -/

/-- `main_service_manager` does not panic, and the sender side does not either over what it
is sent. -/
def Taken (digest : Bytes → Vector UInt8 4) (operations : Option (List Operation)) : Prop :=
  ∃ sent ∈ operations, ∀ request ∈ sent.filterMap Operation.sender?,
    (streamRegistration digest "sender" request).isSome

/-- What the arms of `routing` unwrap is there, and the connection type of a sender is known. -/
@[mk_iff]
structure ROSTopicRequest.Routable (payload : ROSTopicRequest) : Prop where
  qos : payload.topicQos.isSome
  sender : payload.rosOp = "source" ∨ payload.rosOp = "pub" →
    payload.forwardSenderUrl.isSome ∧ ∃ connectionType ∈ payload.connectionType,
      toUppercase connectionType ∈ ["PUBSUB", "REQUEST", "RESPONSE"]
  receiver : payload.rosOp = "destination" ∨ payload.rosOp = "sub" →
    payload.forwardReceiverUrl.isSome ∧ payload.connectionType.isSome

def ROSTopicRequest.Harmless (payload : ROSTopicRequest) : Prop :=
  payload.apiOp = "routing" → payload.Routable

theorem senderDirection_isSome (connectionType : String) :
    (directionStrToConnectionType (connectionType ++ "-" ++ "sender")).isSome ↔
      toUppercase connectionType ∈ ["PUBSUB", "REQUEST", "RESPONSE"] := by
  have hsuffix : toUppercase ("-" ++ "sender") = "-SENDER" := by decide
  rw [directionStrToConnectionType_isSome, String.append_assoc, toUppercase_append, hsuffix]
  generalize toUppercase connectionType = kind
  have hsender {stem direction : String} (h : stem ++ "-SENDER" = direction) :
      kind ++ "-SENDER" = direction ↔ kind = stem := by
    rw [← h, String.append_left_inj]
  have hreceiver {direction : String} (h : ¬ "-SENDER".toList <:+ direction.toList) :
      kind ++ "-SENDER" ≠ direction := by
    rintro rfl
    rw [String.toList_append] at h
    exact h (List.suffix_append ..)
  simp only [List.mem_cons, List.not_mem_nil, or_false]
  rw [hsender (by decide : "PUBSUB" ++ "-SENDER" = "PUBSUB-SENDER"),
    hsender (by decide : "REQUEST" ++ "-SENDER" = "REQUEST-SENDER"),
    hsender (by decide : "RESPONSE" ++ "-SENDER" = "RESPONSE-SENDER")]
  simp only [hreceiver (by decide : ¬ "-SENDER".toList <:+ "PUBSUB-RECEIVER".toList),
    hreceiver (by decide : ¬ "-SENDER".toList <:+ "REQUEST-RECEIVER".toList),
    hreceiver (by decide : ¬ "-SENDER".toList <:+ "RESPONSE-RECEIVER".toList), false_or, or_false]

section Taken

variable (digest : Bytes → Vector UInt8 4) (certificate : Bytes) (payload : ROSTopicRequest)

theorem taken_nil : Taken digest (some []) := ⟨[], rfl, nofun⟩

theorem taken_addOperations : Taken digest (some (addOperations certificate payload)) := by
  refine ⟨_, rfl, ?_⟩
  unfold addOperations
  split <;> exact List.forall_mem_nil _

theorem taken_senderOperations (qos : String) :
    Taken digest (senderOperations certificate payload qos) ↔
      payload.forwardSenderUrl.isSome ∧ ∃ connectionType ∈ payload.connectionType,
        toUppercase connectionType ∈ ["PUBSUB", "REQUEST", "RESPONSE"] := by
  unfold senderOperations routingRequest
  cases hurl : payload.forwardSenderUrl with
  | none => simp [Taken]
  | some url =>
    cases hconnection : payload.connectionType with
    | none => simp [Taken]
    | some connectionType =>
      simp only [Taken, Option.map_some, Option.mem_def, Option.some.injEq, exists_eq_left',
        Option.isSome_some, true_and, ← senderDirection_isSome]
      simp [Operation.sender?, streamRegistration]

theorem taken_receiverOperations (qos : String) :
    Taken digest (receiverOperations certificate payload qos) ↔
      payload.forwardReceiverUrl.isSome ∧ payload.connectionType.isSome := by
  unfold receiverOperations routingRequest
  cases hurl : payload.forwardReceiverUrl with
  | none => simp [Taken]
  | some url =>
    cases hconnection : payload.connectionType with
    | none => simp [Taken]
    | some connectionType => simp [Taken, Operation.sender?]

theorem taken_routingOperations (qos : String) :
    Taken digest (routingOperations certificate payload qos) ↔
      (payload.rosOp = "source" ∨ payload.rosOp = "pub" →
        payload.forwardSenderUrl.isSome ∧ ∃ connectionType ∈ payload.connectionType,
          toUppercase connectionType ∈ ["PUBSUB", "REQUEST", "RESPONSE"]) ∧
      (payload.rosOp = "destination" ∨ payload.rosOp = "sub" →
        payload.forwardReceiverUrl.isSome ∧ payload.connectionType.isSome) := by
  unfold routingOperations
  split
  case h_1 hop | h_3 hop => simp [hop, taken_senderOperations]
  case h_2 hop | h_4 hop => simp [hop, taken_receiverOperations]
  case h_5 hsource hdestination hpub hsub =>
    exact iff_of_true (taken_nil digest)
      ⟨fun h => (h.elim hsource hpub).elim, fun h => (h.elim hdestination hsub).elim⟩

/-- The two loops take a request exactly if it is harmless. -/
theorem taken_dispatch_iff : Taken digest (dispatch certificate payload) ↔ payload.Harmless := by
  unfold dispatch ROSTopicRequest.Harmless
  split
  case h_1 hadd => simp [hadd, taken_addOperations]
  case h_2 hrouting =>
    rw [hrouting]
    split
    · next hqos => simp [Taken, hqos, ROSTopicRequest.routable_iff]
    · next qos hqos =>
      rw [taken_routingOperations, ROSTopicRequest.routable_iff, hqos]
      simp
  case h_3 hadd hrouting => exact iff_of_true (taken_nil digest) fun h => (hrouting h).elim

end Taken

/-! ## A panic is for good -/

def ManagerEvent.post? : ManagerEvent → Option ROSTopicRequest
  | .post payload => some payload
  | _ => none

/-- What a run posts to the API. -/
def posts (events : List ManagerEvent) : List ROSTopicRequest :=
  events.filterMap ManagerEvent.post?

theorem posts_append (events events' : List ManagerEvent) :
    posts (events ++ events') = posts events ++ posts events' := List.filterMap_append

theorem posts_map_post (payloads : List ROSTopicRequest) :
    posts (payloads.map .post) = payloads := by
  rw [posts, List.filterMap_map]
  exact List.filterMap_some

theorem posts_replicate {event : ManagerEvent} (h : event.post? = none) (n : Nat) :
    posts (List.replicate n event) = [] :=
  List.filterMap_replicate_of_none h

namespace Managers

variable {digest : Bytes → Vector UInt8 4} {certificate : Bytes} {c : Managers}

variable (certificate c) in
/-- A round of `main_service_manager` does nothing, panics, or hands operations on. -/
theorem manage_cases :
    c.manage certificate = c ∨ ∃ serviceRequestRx,
      c.manage certificate = { c with serviceRequestRx, manager := .panicked } ∨
      ∃ operations : List Operation, c.manage certificate =
        { c with
          serviceRequestRx
          operations := c.operations ++ operations
          senderRoutingRx := c.senderRoutingRx ++ operations.filterMap Operation.sender?
          receiverRoutingRx :=
            c.receiverRoutingRx ++ operations.filterMap Operation.receiver? } := by
  unfold manage
  split
  · exact .inl rfl
  · split
    · exact .inl rfl
    · right
      split
      · exact ⟨_, .inl rfl⟩
      · split
        · exact ⟨_, .inl rfl⟩
        · exact ⟨_, .inr ⟨_, rfl⟩⟩

variable (digest c) in
/-- A round of `handle_sender_routing` does nothing, sees that the channel is closed, panics, or
registers a stream. -/
theorem handleSenderRouting_cases :
    c.handleSenderRouting digest = c ∨
      c.sender = .running ∧
        (c.handleSenderRouting digest = { c with sender := c.manager } ∨
        ∃ senderRoutingRx,
          c.handleSenderRouting digest = { c with senderRoutingRx, sender := .panicked } ∨
          ∃ registration, c.handleSenderRouting digest =
            { c with senderRoutingRx, senders := c.senders ++ [registration] }) := by
  unfold handleSenderRouting
  split
  · exact .inl rfl
  · next hsender _ => exact .inr ⟨hsender, .inl rfl⟩
  · next hsender _ =>
    refine .inr ⟨hsender, .inr ?_⟩
    split
    · exact ⟨_, .inl rfl⟩
    · exact ⟨_, .inr ⟨_, rfl⟩⟩

theorem manager_handleSenderRouting : (c.handleSenderRouting digest).manager = c.manager := by
  obtain h | ⟨-, h | ⟨_, h | ⟨_, h⟩⟩⟩ := c.handleSenderRouting_cases digest <;> rw [h]

theorem manager_step (h : c.manager = .panicked) (event : ManagerEvent) :
    (c.step digest certificate event).manager = .panicked := by
  cases event with
  | post payload =>
    rw [step, post, h]
    exact h
  | manage =>
    rw [step, manage, h]
    exact h
  | routeSender => exact manager_handleSenderRouting.trans h
  | routeReceiver =>
    unfold step handleReceiverRouting
    dsimp only
    split <;> exact h

theorem manager_after (h : c.manager = .panicked) (events : List ManagerEvent) :
    (c.after digest certificate events).manager = .panicked := by
  induction events generalizing c with
  | nil => exact h
  | cons event events ih => exact ih (manager_step h event)

theorem manager_of_after {events : List ManagerEvent}
    (h : (c.after digest certificate events).manager = .running) : c.manager = .running := by
  cases hmanager : c.manager with
  | running => rfl
  | panicked =>
    rw [manager_after hmanager] at h
    cases h

theorem sender_of_after_routes {n : Nat}
    (h : (c.after digest certificate (List.replicate n .routeSender)).sender = .running) :
    c.sender = .running := by
  induction n generalizing c with
  | zero => exact h
  | succ n ih =>
    have hstep : (c.handleSenderRouting digest).sender = .running := ih h
    rcases c.handleSenderRouting_cases digest with hsame | ⟨hsender, -⟩
    · rwa [hsame] at hstep
    · exact hsender

/-! ## The queues are worked off -/

theorem after_posts (hmanager : c.manager = .running) (payloads : List ROSTopicRequest) :
    c.after digest certificate (payloads.map .post) =
      { c with serviceRequestRx := c.serviceRequestRx ++ payloads } := by
  induction payloads generalizing c with
  | nil => simp [after]
  | cons payload payloads ih =>
    have hpost : c.step digest certificate (.post payload) =
        { c with serviceRequestRx := c.serviceRequestRx ++ [payload] } := by
      rw [step, post, hmanager]
    rw [List.map_cons, after, Run.after_cons, hpost]
    refine (ih (by exact hmanager)).trans ?_
    simp

theorem senderRoutingRx_manage :
    c.senderRoutingRx ⊆ (c.manage certificate).senderRoutingRx := by
  obtain h | ⟨_, h | ⟨_, h⟩⟩ := c.manage_cases certificate
  · rw [h]
    exact List.Subset.refl _
  · rw [h]
    exact List.Subset.refl _
  · rw [h]
    exact List.subset_append_left ..

theorem senderRoutingRx_manages (n : Nat) : c.senderRoutingRx ⊆
    (c.after digest certificate (List.replicate n .manage)).senderRoutingRx := by
  induction n generalizing c with
  | zero => exact List.Subset.refl _
  | succ n ih => exact List.Subset.trans senderRoutingRx_manage ih

/-- When `main_service_manager` survives its queue, it has handed on what that asks for. -/
theorem handed_on_of_manages {payloads : List ROSTopicRequest}
    (hqueue : c.serviceRequestRx = payloads)
    (h : (c.after digest certificate (List.replicate payloads.length .manage)).manager = .running) :
    ∀ payload ∈ payloads, ∃ operations, dispatch certificate payload = some operations ∧
      operations.filterMap Operation.sender? ⊆
        (c.after digest certificate (List.replicate payloads.length .manage)).senderRoutingRx := by
  induction payloads generalizing c with
  | nil => exact nofun
  | cons payload payloads ih =>
    have hmanager := manager_of_after h
    rw [List.length_cons, List.replicate_succ, after, Run.after_cons] at h ⊢
    have hround : c.step digest certificate .manage = c.manage certificate := rfl
    rw [hround, manage, hmanager, hqueue] at h ⊢
    dsimp only at h ⊢
    cases hdispatch : dispatch certificate payload with
    | none =>
      rw [hdispatch] at h
      cases manager_of_after h
    | some operations =>
      rw [hdispatch] at h
      dsimp only at h ⊢
      split at h
      · cases manager_of_after h
      · next hfails =>
        rw [if_neg hfails]
        refine List.forall_mem_cons.2 ⟨⟨operations, hdispatch, ?_⟩, ih rfl h⟩
        intro request hrequest
        refine senderRoutingRx_manages payloads.length ?_
        exact List.mem_append_right _ hrequest

/-- When the sender side survives its queue, it can register all of it. -/
theorem registered_of_routes {requests : List RoutingManagerRequest}
    (hqueue : c.senderRoutingRx = requests)
    (h : (c.after digest certificate (List.replicate requests.length .routeSender)).sender =
      .running) :
    ∀ request ∈ requests, (streamRegistration digest "sender" request).isSome := by
  induction requests generalizing c with
  | nil => exact nofun
  | cons request requests ih =>
    have hsender := sender_of_after_routes h
    rw [List.length_cons, List.replicate_succ, after, Run.after_cons] at h
    have hround : c.step digest certificate .routeSender = c.handleSenderRouting digest := rfl
    rw [hround, handleSenderRouting, hsender, hqueue] at h
    dsimp only at h
    cases hregistration : streamRegistration digest "sender" request with
    | none =>
      rw [hregistration] at h
      cases sender_of_after_routes h
    | some registration =>
      rw [hregistration] at h
      exact List.forall_mem_cons.2 ⟨by rw [hregistration]; rfl, ih rfl h⟩

/-! ## Loops that can take what is in their queues -/

structure Sound (digest : Bytes → Vector UInt8 4) (c : Managers) : Prop where
  manager : c.manager = .running
  sender : c.sender = .running
  receiver : c.receiver = .running
  requests : ∀ payload ∈ c.serviceRequestRx, payload.Harmless
  routes : ∀ request ∈ c.senderRoutingRx, (streamRegistration digest "sender" request).isSome

theorem sound_initial : Sound digest {} := ⟨rfl, rfl, rfl, nofun, nofun⟩

/-- A round that does not panic. -/
theorem Sound.manage_eq (hc : c.Sound digest) {payload : ROSTopicRequest}
    {serviceRequestRx : List ROSTopicRequest} {operations : List Operation}
    (hqueue : c.serviceRequestRx = payload :: serviceRequestRx)
    (hdispatch : dispatch certificate payload = some operations) :
    c.manage certificate =
      { c with
        serviceRequestRx
        operations := c.operations ++ operations
        senderRoutingRx := c.senderRoutingRx ++ operations.filterMap Operation.sender?
        receiverRoutingRx := c.receiverRoutingRx ++ operations.filterMap Operation.receiver? } := by
  have hfails : ¬ c.sendFails operations := by
    rw [sendFails, hc.sender, hc.receiver]
    simp
  rw [manage, hc.manager, hqueue]
  dsimp only
  rw [hdispatch]
  dsimp only
  rw [if_neg hfails]

theorem Sound.handleSenderRouting_eq (hc : c.Sound digest) {request : RoutingManagerRequest}
    {senderRoutingRx : List RoutingManagerRequest} {registration : StreamRegistration}
    (hqueue : c.senderRoutingRx = request :: senderRoutingRx)
    (hregistration : streamRegistration digest "sender" request = some registration) :
    c.handleSenderRouting digest =
      { c with senderRoutingRx, senders := c.senders ++ [registration] } := by
  rw [handleSenderRouting, hc.sender, hqueue]
  dsimp only
  rw [hregistration]

theorem Sound.step (hc : c.Sound digest) (event : ManagerEvent)
    (hharmless : ∀ payload ∈ event.post?, payload.Harmless) :
    (c.step digest certificate event).Sound digest := by
  cases event with
  | post payload =>
    rw [Managers.step, post, hc.manager]
    refine ⟨rfl, hc.sender, hc.receiver, ?_, hc.routes⟩
    rw [List.forall_mem_append]
    exact ⟨hc.requests, List.forall_mem_singleton.2 (hharmless payload rfl)⟩
  | manage =>
    cases hqueue : c.serviceRequestRx with
    | nil =>
      rw [Managers.step, manage, hc.manager, hqueue]
      exact hc
    | cons payload serviceRequestRx =>
      have hrequests := hc.requests
      rw [hqueue, List.forall_mem_cons] at hrequests
      obtain ⟨operations, hdispatch, hroutes⟩ :=
        (taken_dispatch_iff digest certificate payload).2 hrequests.1
      rw [Managers.step, hc.manage_eq hqueue hdispatch]
      exact ⟨hc.manager, hc.sender, hc.receiver, hrequests.2,
        List.forall_mem_append.2 ⟨hc.routes, hroutes⟩⟩
  | routeSender =>
    cases hqueue : c.senderRoutingRx with
    | nil =>
      rw [Managers.step, handleSenderRouting, hc.sender, hqueue]
      exact ⟨hc.manager, hc.manager, hc.receiver, hc.requests, nofun⟩
    | cons request senderRoutingRx =>
      have hroutes := hc.routes
      rw [hqueue, List.forall_mem_cons] at hroutes
      obtain ⟨registration, hregistration⟩ := Option.isSome_iff_exists.1 hroutes.1
      rw [Managers.step, hc.handleSenderRouting_eq hqueue hregistration]
      exact ⟨hc.manager, hc.sender, hc.receiver, hc.requests, hroutes.2⟩
  | routeReceiver =>
    cases hqueue : c.receiverRoutingRx with
    | nil =>
      rw [Managers.step, handleReceiverRouting, hc.receiver, hqueue]
      exact ⟨hc.manager, hc.sender, hc.manager, hc.requests, hc.routes⟩
    | cons request receiverRoutingRx =>
      rw [Managers.step, handleReceiverRouting, hc.receiver, hqueue]
      exact ⟨hc.manager, hc.sender, rfl, hc.requests, hc.routes⟩

theorem Sound.after (hc : c.Sound digest) {events : List ManagerEvent}
    (hharmless : ∀ payload ∈ posts events, payload.Harmless) :
    (c.after digest certificate events).Sound digest := by
  have hevents : ∀ event ∈ events, ∀ payload ∈ event.post?, payload.Harmless := by
    intro event hevent payload hpost
    exact hharmless payload (List.mem_filterMap.2 ⟨event, hevent, hpost⟩)
  exact (Run.throughout_of_forall c hevents).invariant (Sound digest)
    (fun _ event hc hevent => hc.step event hevent) hc

/-- Rounds of `main_service_manager` up to the last request of its queue hand that on. -/
theorem Sound.after_manages (hc : c.Sound digest) {payloads : List ROSTopicRequest}
    {request : ROSTopicRequest} {operations : List Operation}
    (hqueue : c.serviceRequestRx = payloads ++ [request])
    (hdispatch : dispatch certificate request = some operations) :
    operations <:+ (c.after digest certificate
        (List.replicate (payloads ++ [request]).length .manage)).operations ∧
      operations.filterMap Operation.sender? <:+ (c.after digest certificate
        (List.replicate (payloads ++ [request]).length .manage)).senderRoutingRx := by
  induction payloads generalizing c with
  | nil =>
    change _ <:+ (c.manage certificate).operations ∧ _ <:+ (c.manage certificate).senderRoutingRx
    rw [hc.manage_eq hqueue hdispatch]
    exact ⟨List.suffix_append .., List.suffix_append ..⟩
  | cons payload payloads ih =>
    obtain ⟨handedOn, hfirst, -⟩ := (taken_dispatch_iff digest certificate payload).2
      (hc.requests payload (hqueue ▸ List.mem_cons_self))
    have hround := hc.manage_eq hqueue hfirst
    exact ih (hc.step .manage nofun) (congrArg serviceRequestRx hround)

/-- Rounds of `handle_sender_routing` over its queue register all of it. -/
theorem Sound.after_routes (hc : c.Sound digest) {requests : List RoutingManagerRequest}
    (hqueue : c.senderRoutingRx = requests) :
    c.after digest certificate (List.replicate requests.length .routeSender) =
      { c with
        senderRoutingRx := []
        senders := c.senders ++ requests.filterMap (streamRegistration digest "sender") } := by
  induction requests generalizing c with
  | nil =>
    rw [List.filterMap_nil, List.append_nil]
    conv_rhs => rw [← hqueue]
    rfl
  | cons request requests ih =>
    obtain ⟨registration, hregistration⟩ := Option.isSome_iff_exists.1
      (hc.routes request (hqueue ▸ List.mem_cons_self))
    have hround : c.step digest certificate .routeSender = _ :=
      hc.handleSenderRouting_eq hqueue hregistration
    have hsound : (c.step digest certificate .routeSender).Sound digest :=
      hc.step .routeSender nofun
    rw [List.filterMap_cons_some hregistration, List.append_cons]
    refine (ih hsound (congrArg senderRoutingRx hround)).trans ?_
    rw [hround]

/-! ## Runs -/

section Runs

variable (digest : Bytes → Vector UInt8 4) (certificate : Bytes)

/-- Rounds in which `main_service_manager` works off its queue, and then the sender side. -/
def rounds (c : Managers) : List ManagerEvent :=
  let manages := List.replicate c.serviceRequestRx.length .manage
  manages ++
    List.replicate (c.after digest certificate manages).senderRoutingRx.length .routeSender

def workOff (c : Managers) : Managers := c.after digest certificate (c.rounds digest certificate)

/-- The operations are sent, and the sender side has registered what they ask of it. -/
structure Dispatched (c : Managers) (sent : List Operation) : Prop where
  operations : sent <:+ c.operations
  senders : (sent.filterMap Operation.sender?).filterMap (streamRegistration digest "sender") <:+
    c.senders

/-- Both loops run, and a request that they can take is dispatched. -/
structure Serves (c : Managers) : Prop where
  manager : c.manager = .running
  sender : c.sender = .running
  dispatched : ∀ payload sent, dispatch certificate payload = some sent →
    (∀ request ∈ sent.filterMap Operation.sender?,
      (streamRegistration digest "sender" request).isSome) →
    Dispatched digest ((c.post payload).workOff digest certificate) sent

/-- The loops serve on every schedule of the requests. -/
def KeepsServing (payloads : List ROSTopicRequest) : Prop :=
  ∀ events, posts events = payloads → Serves digest certificate (after digest certificate {} events)

end Runs

theorem posts_rounds (c : Managers) : posts (c.rounds digest certificate) = [] := by
  rw [rounds, posts_append, posts_replicate rfl, posts_replicate rfl]
  rfl

theorem workOff_eq (c : Managers) :
    c.workOff digest certificate =
      (c.after digest certificate (List.replicate c.serviceRequestRx.length .manage)).after digest
        certificate (List.replicate (c.after digest certificate
          (List.replicate c.serviceRequestRx.length .manage)).senderRoutingRx.length
            .routeSender) :=
  Run.after_append ..

theorem Sound.dispatched (hc : c.Sound digest) {payloads : List ROSTopicRequest}
    {payload : ROSTopicRequest} {sent : List Operation}
    (hqueue : c.serviceRequestRx = payloads ++ [payload])
    (hdispatch : dispatch certificate payload = some sent) :
    Dispatched digest (c.workOff digest certificate) sent := by
  have hmanages := hc.after_manages hqueue hdispatch
  rw [← hqueue] at hmanages
  have hsound : (c.after digest certificate
      (List.replicate c.serviceRequestRx.length .manage)).Sound digest := by
    refine hc.after ?_
    rw [posts_replicate rfl]
    exact nofun
  rw [workOff_eq, hsound.after_routes rfl]
  exact ⟨hmanages.1, (hmanages.2.filterMap _).trans (List.suffix_append ..)⟩

theorem Sound.serves (hc : c.Sound digest) : Serves digest certificate c := by
  refine ⟨hc.manager, hc.sender, fun payload sent hdispatch hsent => ?_⟩
  have hharmless := (taken_dispatch_iff digest certificate payload).1 ⟨sent, hdispatch, hsent⟩
  have hpost : (c.step digest certificate (.post payload)).Sound digest :=
    hc.step (.post payload) fun _ h => Option.some.inj h ▸ hharmless
  have hqueue : (c.post payload).serviceRequestRx = c.serviceRequestRx ++ [payload] := by
    rw [post, hc.manager]
  exact Sound.dispatched hpost hqueue hdispatch

/-- Loops that serve after the requests were posted and worked off could take them. -/
theorem harmless_of_workOff {payloads : List ROSTopicRequest}
    (hqueue : c.serviceRequestRx = payloads)
    (hmanager : (c.workOff digest certificate).manager = .running)
    (hsender : (c.workOff digest certificate).sender = .running) :
    ∀ payload ∈ payloads, payload.Harmless := by
  intro payload hpayload
  subst hqueue
  rw [workOff_eq] at hmanager hsender
  obtain ⟨sent, hdispatch, hsent⟩ := handed_on_of_manages rfl (manager_of_after hmanager) payload
    hpayload
  refine (taken_dispatch_iff digest certificate payload).1 ⟨sent, hdispatch, ?_⟩
  exact fun request hrequest => registered_of_routes rfl hsender request (hsent hrequest)

/-- **Main result.**  On every schedule of the requests both loops keep running and serve
later requests, exactly if every request is harmless. -/
theorem keepsServing_iff (digest : Bytes → Vector UInt8 4) (certificate : Bytes)
    (payloads : List ROSTopicRequest) :
    KeepsServing digest certificate payloads ↔ ∀ payload ∈ payloads, payload.Harmless := by
  constructor
  · intro hserving
    have hposted : after digest certificate {} (payloads.map .post) =
        { serviceRequestRx := payloads } := after_posts rfl payloads
    have hposts : posts (payloads.map .post ++
        rounds digest certificate { serviceRequestRx := payloads }) = payloads := by
      rw [posts_append, posts_rounds, posts_map_post, List.append_nil]
    have hserves := hserving _ hposts
    rw [after, Run.after_append, ← after, ← after, hposted] at hserves
    exact harmless_of_workOff rfl hserves.manager hserves.sender
  · rintro hharmless events rfl
    exact (sound_initial.after hharmless).serves

theorem receiver_manage : (c.manage certificate).receiver = c.receiver := by
  obtain h | ⟨_, h | ⟨_, h⟩⟩ := c.manage_cases certificate <;> rw [h]

theorem receiver_handleSenderRouting : (c.handleSenderRouting digest).receiver = c.receiver := by
  obtain h | ⟨-, h | ⟨_, h | ⟨_, h⟩⟩⟩ := c.handleSenderRouting_cases digest <;> rw [h]

theorem receiver_step (h : c.receiver = .panicked → c.manager = .panicked) (event : ManagerEvent)
    (hreceiver : (c.step digest certificate event).receiver = .panicked) :
    (c.step digest certificate event).manager = .panicked := by
  refine manager_step ?_ event
  cases event with
  | post payload =>
    unfold step post at hreceiver
    dsimp only at hreceiver
    split at hreceiver <;> exact h hreceiver
  | manage => exact h (receiver_manage.symm.trans hreceiver)
  | routeSender => exact h (receiver_handleSenderRouting.symm.trans hreceiver)
  | routeReceiver =>
    unfold step handleReceiverRouting at hreceiver
    dsimp only at hreceiver
    split at hreceiver
    · next hpanicked => exact h hpanicked
    · exact hreceiver
    · next hrunning _ => exact h hreceiver

/-- No request makes the receiver side panic: it ends only when `main_service_manager` has. -/
theorem receiver_contained (digest : Bytes → Vector UInt8 4) (certificate : Bytes)
    (events : List ManagerEvent) (h : (after digest certificate {} events).receiver = .panicked) :
    (after digest certificate {} events).manager = .panicked := by
  revert h
  induction events using List.reverseRecOn with
  | nil => exact nofun
  | append_singleton events event ih =>
    rw [after, Run.after_concat, ← after]
    exact receiver_step ih event

end Managers

def meshRequest : ROSTopicRequest :=
  { apiOp := "routing", rosOp := "source", crypto := "test_cert", topicName := "/chatter",
    topicType := "std_msgs/msg/String", topicQos := some "fast", connectionType := some "mesh",
    forwardSenderUrl := some "fogros_chatter" }

/-- An unknown connection type ends the sender side, and the next request, which is harmless,
ends `main_service_manager`. -/
theorem mesh_ends_both :
    let pubsubRequest := { meshRequest with connectionType := some "pubsub" }
    let managers := Managers.after (fun _ => #v[1, 1, 1, 1]) [] {}
      [.post meshRequest, .manage, .routeSender, .post pubsubRequest, .manage]
    managers.sender = .panicked ∧ managers.manager = .panicked ∧
      ¬ Managers.KeepsServing (fun _ => #v[1, 1, 1, 1]) [] [meshRequest, pubsubRequest] := by
  refine ⟨by decide, by decide, fun hserving => ?_⟩
  have hserves := hserving
    [.post meshRequest, .manage, .routeSender,
      .post { meshRequest with connectionType := "pubsub" }, .manage] rfl
  exact absurd hserves.sender (by decide)

end RtFogros
