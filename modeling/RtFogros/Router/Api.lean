import RtFogros.Ros.ServiceClient

/-!
# The API of the router

`ROSTopicRequest` of `api_server.rs` and the match of `main_service_manager` (`service_manager.rs`)
that hands a request on to one of the managers.

An arm unwraps the fields that it needs before it sends, so a request becomes one operation, none
where its texts name no arm, or a panic; nothing is sent of a request that panics.  What the loop
sends for many requests is the operations of each, up to the first that panics
(`mainServiceManager`).
-/

namespace RtFogros

structure ROSTopicRequest where
  apiOp : String
  rosOp : String
  crypto : String
  topicName : String
  topicType : String
  topicQos : Option String := none
  connectionType : Option String := none
  forwardSenderUrl : Option String := none
  forwardReceiverUrl : Option String := none
deriving DecidableEq

structure RoutingManagerRequest where
  action : FibChangeAction
  topicName : String
  topicType : String
  topicQos : String
  certificate : Bytes
  connectionType : Option String
  communicationUrl : Option String

/-- What `main_service_manager` sends, by the channel. -/
inductive Operation where
  | client (request : TopicManagerRequest)
  | service (request : TopicManagerRequest)
  | publisher (request : TopicManagerRequest)
  | subscriber (request : TopicManagerRequest)
  | senderRouting (request : RoutingManagerRequest)
  | receiverRouting (request : RoutingManagerRequest)

section Dispatch

variable (certificate : Bytes) (payload : ROSTopicRequest)

def topicCreatorRequest : TopicManagerRequest :=
  { action := .add, topicName := payload.topicName, topicType := payload.topicType, certificate }

def addOperations : List Operation :=
  match payload.rosOp with
  | "client" => [.client (topicCreatorRequest certificate payload)]
  | "service" => [.service (topicCreatorRequest certificate payload)]
  | "pub" => [.publisher (topicCreatorRequest certificate payload)]
  | "sub" => [.subscriber (topicCreatorRequest certificate payload)]
  | _ => []

/-- The request of a `routing` arm for one of the two URLs; `none` is a failed `unwrap`. -/
def routingRequest (qos : String) (url : Option String) : Option RoutingManagerRequest :=
  match payload.connectionType, url with
  | some connectionType, some url =>
    some
      { action := .add, topicName := payload.topicName, topicType := payload.topicType,
        topicQos := qos, certificate, connectionType := some connectionType,
        communicationUrl := some url }
  | _, _ => none

def senderOperations (qos : String) : Option (List Operation) :=
  (routingRequest certificate payload qos payload.forwardSenderUrl).map fun request =>
    [.senderRouting request]

def receiverOperations (qos : String) : Option (List Operation) :=
  (routingRequest certificate payload qos payload.forwardReceiverUrl).map fun request =>
    [.receiverRouting request]

def routingOperations (qos : String) : Option (List Operation) :=
  match payload.rosOp with
  | "source" => senderOperations certificate payload qos
  | "destination" => receiverOperations certificate payload qos
  | "pub" => senderOperations certificate payload qos
  | "sub" => receiverOperations certificate payload qos
  | _ => some []

/-- A round of `main_service_manager`; `none` is a panic. -/
def dispatch : Option (List Operation) :=
  match payload.apiOp with
  | "add" => some (addOperations certificate payload)
  | "routing" =>
    match payload.topicQos with
    | none => none
    | some qos => routingOperations certificate payload qos
  | _ => some []

end Dispatch

/-- What `main_service_manager` sends for the requests it receives, until it panics. -/
def mainServiceManager (certificate : Bytes) : List ROSTopicRequest → List Operation
  | [] => []
  | payload :: payloads =>
    match dispatch certificate payload with
    | none => []
    | some operations => operations ++ mainServiceManager certificate payloads

/-- Without a panic every request is dispatched. -/
theorem mainServiceManager_eq {certificate : Bytes} {payloads : List ROSTopicRequest}
    {f : ROSTopicRequest → List Operation}
    (h : ∀ payload ∈ payloads, dispatch certificate payload = some (f payload)) :
    mainServiceManager certificate payloads = payloads.flatMap f := by
  induction payloads with
  | nil => rfl
  | cons payload payloads ih =>
    obtain ⟨hfirst, hrest⟩ := List.forall_mem_cons.1 h
    rw [mainServiceManager, hfirst]
    dsimp only
    rw [ih hrest, List.flatMap_cons]

end RtFogros
