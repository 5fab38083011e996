import RtFogros.Lib.PyDict
import RtFogros.Router.Api

/-!
# The swarm of a machine

`SGC_Swarm` of `sgc_swarm.py` with the requests of `web_requests.py`.  A method is a
function of the swarm in `Py`, which keeps what was done before an exception.

Two things come from outside.  `hexdigest` is that of `hashlib.sha256()`.  What becomes of a
request to the router's API is up to the router: `requests.post` returns a response, or it
raises, before or after the request was sent, and nothing catches that.  A swarm has the
outcomes of all its requests from the start; how many it has made picks the next.
-/

namespace RtFogros.Swarm

open RtFogros

/-! ## The configuration -/

/-- A tree under `topology`: a name, or a name with its `children`. -/
inductive Topology where
  | leaf (address : String)
  | node (address : String) (children : List Topology)

/-- An entry of `topics` or `services`. -/
structure InterfaceConfig where
  name : String
  type : String
  qos : Option String := none

/-- A list of topics or services of a state, each a name with an action. -/
abbrev Actions := List (String × String)

/-- What a state of `state_machine` describes. -/
structure StateDescription where
  topics : Option Actions := none
  services : Option Actions := none

structure Config where
  whoami : Option String := none
  topics : Option (List InterfaceConfig) := none
  services : Option (List InterfaceConfig) := none
  stateMachine : PyDict String (Option StateDescription)
  assignment : PyDict String String
  topology : Option Topology := none

/-! ## The swarm -/

structure SgcStateMachine where
  stateName : String
  topics : Option Actions
  services : Option Actions

/-- A request to the API of a router. -/
structure Post where
  uri : String
  json : ROSTopicRequest
deriving DecidableEq

/-- What becomes of a request: a response, or an exception of `requests`, with nothing sent
or with the response lost. -/
inductive PostOutcome where
  | response
  | refused
  | lost
deriving DecidableEq

structure SgcSwarm where
  instanceIdentifier : String
  sgcAddress : String
  topicDict : PyDict String String := .empty
  topicQosDict : PyDict String String := .empty
  serviceDict : PyDict String String := .empty
  serviceQosDict : PyDict String String := .empty
  stateDict : PyDict String SgcStateMachine := .empty
  assignmentDict : PyDict String String := .empty
  pausedTopics : List String := []
  pausedServices : List String := []
  config : Config
  -- what becomes of each request, and how many were made
  router : Nat → PostOutcome
  asked : Nat := 0
  -- what was sent to the router
  posts : List Post := []

inductive SwarmError where
  | keyError (key : String)
  | typeError
  | requestException
deriving DecidableEq

abbrev Py := EStateM SwarmError SgcSwarm

/-- `d[key]`. -/
def getItem {α : Type} (d : PyDict String α) (key : String) : Py α :=
  match d.get? key with
  | some value => pure value
  | none => throw (.keyError key)

section Py

variable {α β : Type} (s : SgcSwarm)

@[simp] theorem pure_apply (a : α) : (pure a : Py α) s = .ok a s := rfl

@[simp] theorem bind_apply (x : Py α) (f : α → Py β) :
    (x >>= f) s =
      match x s with
      | .ok a s => f a s
      | .error e s => .error e s := by
  change EStateM.bind x f s = _
  unfold EStateM.bind
  cases x s <;> rfl

@[simp] theorem get_apply : (get : Py SgcSwarm) s = .ok s s := rfl

@[simp] theorem modify_apply (f : SgcSwarm → SgcSwarm) :
    (modify f : Py PUnit) s = .ok () (f s) := rfl

@[simp] theorem throw_apply (e : SwarmError) : (throw e : Py α) s = .error e s := rfl

theorem getItem_apply {d : PyDict String α} {key : String} {value : α}
    (h : d.get? key = some value) : getItem d key s = .ok value s := by
  unfold getItem
  rw [h]
  rfl

theorem getItem_apply_of_none {d : PyDict String α} {key : String} (h : d.get? key = none) :
    getItem d key s = .error (.keyError key) s := by
  unfold getItem
  rw [h]
  rfl

end Py

/-- The swarm after a method. -/
def after {α : Type} (x : Py α) (s : SgcSwarm) : SgcSwarm :=
  match x s with
  | .ok _ s | .error _ s => s

theorem after_of_ok {α : Type} {x : Py α} {s s' : SgcSwarm} {a : α} (h : x s = .ok a s') :
    after x s = s' := by
  unfold after
  rw [h]

/-- The method does not raise. -/
def Completes {α : Type} (x : Py α) (s : SgcSwarm) : Prop := ∃ a s', x s = .ok a s'

section Completes

variable {α β : Type} {x : Py α} {s s' : SgcSwarm}

theorem completes_bind {f : α → Py β} :
    Completes (x >>= f) s ↔ ∃ a s', x s = .ok a s' ∧ Completes (f a) s' := by
  unfold Completes
  rw [bind_apply]
  cases x s with
  | ok a s' =>
    constructor
    · exact fun h => ⟨a, s', rfl, h⟩
    · rintro ⟨_, _, ⟨⟩, h⟩
      exact h
  | error e s' =>
    constructor
    · rintro ⟨_, _, ⟨⟩⟩
    · rintro ⟨_, _, ⟨⟩, -⟩

theorem completes_bind_of_ok {a : α} {f : α → Py β} (h : x s = .ok a s') :
    Completes (x >>= f) s ↔ Completes (f a) s' := by
  unfold Completes
  rw [bind_apply, h]

theorem not_completes_of_error {e : SwarmError} (h : x s = .error e s') : ¬ Completes x s := by
  rintro ⟨a, s'', hrun⟩
  cases h.symm.trans hrun

theorem not_completes_bind {e : SwarmError} {f : α → Py β} (h : x s = .error e s') :
    ¬ Completes (x >>= f) s := by
  have hbind : (x >>= f) s = .error e s' := by rw [bind_apply, h]
  exact not_completes_of_error hbind

end Completes

/-! ## Loading -/

/-- `_load_topics` and `_load_services`: the types, and the qos with its default. -/
def loadTypes (interfaces : List InterfaceConfig) : PyDict String String :=
  interfaces.foldl (fun d interface => d.set interface.name interface.type) .empty

def loadQos (interfaces : List InterfaceConfig) : PyDict String String :=
  interfaces.foldl (fun d interface => d.set interface.name (interface.qos.getD "default")) .empty

theorem mem_keys_loadTypes {interfaces : List InterfaceConfig} {name : String} :
    name ∈ (loadTypes interfaces).keys ↔ name ∈ interfaces.map InterfaceConfig.name := by
  unfold loadTypes
  rw [PyDict.mem_keys_foldl_set InterfaceConfig.name InterfaceConfig.type]
  simp

theorem mem_keys_loadQos {interfaces : List InterfaceConfig} {name : String} :
    name ∈ (loadQos interfaces).keys ↔ name ∈ interfaces.map InterfaceConfig.name := by
  unfold loadQos
  rw [PyDict.mem_keys_foldl_set InterfaceConfig.name fun interface => interface.qos.getD "default"]
  simp

/-- `_load_state_machine`. -/
def stateMachine (stateName : String) : Option StateDescription → SgcStateMachine
  | some description => ⟨stateName, description.topics, description.services⟩
  | none => ⟨stateName, none, none⟩

def loadStateMachine (states : PyDict String (Option StateDescription)) :
    PyDict String SgcStateMachine :=
  states.entries.foldl (fun d state => d.set state.1 (stateMachine state.1 state.2)) .empty

theorem mem_keys_loadStateMachine {states : PyDict String (Option StateDescription)}
    {name : String} : name ∈ (loadStateMachine states).keys ↔ name ∈ states.keys := by
  unfold loadStateMachine
  rw [PyDict.mem_keys_foldl_set Prod.fst fun state => stateMachine state.1 state.2]
  exact ⟨fun h => h.resolve_left List.not_mem_nil, .inr⟩

theorem get?_loadStateMachine {states : PyDict String (Option StateDescription)} {name : String}
    {machine : SgcStateMachine} (h : (loadStateMachine states).get? name = some machine) :
    ∃ description, (name, description) ∈ states.entries ∧
      machine = stateMachine name description := by
  rcases PyDict.get?_foldl_set h with hempty | ⟨state, hstate, rfl, rfl⟩
  · cases hempty
  · exact ⟨state.2, hstate, rfl⟩

/-- The swarm of the machine `instanceIdentifier` once its configuration is loaded. -/
def loaded (router : Nat → PostOutcome) (config : Config) (sgcAddress instanceIdentifier : String) :
    SgcSwarm :=
  { instanceIdentifier, sgcAddress, config, router
    topicDict := loadTypes (config.topics.getD [])
    topicQosDict := loadQos (config.topics.getD [])
    serviceDict := loadTypes (config.services.getD [])
    serviceQosDict := loadQos (config.services.getD [])
    stateDict := loadStateMachine config.stateMachine }

/-- `SGC_Swarm(yaml_config, whoami, logger, sgc_address)`; `none` is the `exit()` of a
machine without a name. -/
def load (router : Nat → PostOutcome) (config : Config) (whoami : Option String)
    (sgcAddress : String) : Option SgcSwarm :=
  let rosparam := whoami.filter (· ≠ "")
  let identifier :=
    match config.whoami with
    | none => rosparam
    | some name => some (rosparam.getD name)
  identifier.map (loaded router config sgcAddress)

/-- `get_assignment_from_yaml`. -/
def getAssignmentFromYaml : Py (PyDict String String) := do
  let s ← get
  let assignmentDict := s.config.assignment.entries.foldl
    (fun d entry => if entry.2 ∈ s.stateDict.keys then d.set entry.1 entry.2 else d)
    s.assignmentDict
  set { s with assignmentDict }
  return assignmentDict

/-! ## Requests to the router -/

/-- `requests.post(uri, json=...)`. -/
def post (uri : String) (json : ROSTopicRequest) : Py Unit := do
  let s ← get
  modify fun s => { s with asked := s.asked + 1 }
  if s.router s.asked ≠ .refused then
    modify fun s => { s with posts := s.posts ++ [⟨uri, json⟩] }
  if s.router s.asked ≠ .response then
    throw .requestException

section Requests

variable (apiOp topicAction topicName topicType machineAddress : String)

def rosTopic : ROSTopicRequest :=
  { apiOp, rosOp := topicAction, crypto := "test_cert", topicName, topicType }

def sendTopicRequest : Py Unit :=
  post ("http://" ++ machineAddress ++ "/topic") (rosTopic apiOp topicAction topicName topicType)

def sendServiceRequest : Py Unit :=
  post ("http://" ++ machineAddress ++ "/service") (rosTopic apiOp topicAction topicName topicType)

end Requests

/-! ## The tree of the topology -/

/-- A `Node`; nothing reads its `parent`. -/
inductive Node where
  | mk (address : String) (children : List Node)

mutual

def buildTree : Topology → Node
  | .leaf address => .mk address []
  | .node address children => .mk address (buildChildren children)

def buildChildren : List Topology → List Node
  | [] => []
  | child :: children => buildTree child :: buildChildren children

end

def Node.address : Node → String
  | .mk address _ => address

section Routing

variable (hexdigest : Bytes → String)

def generateHashedName (listOfStr : List String) : String :=
  hexdigest (listOfStr.flatMap asBytes)

section Requests

variable (addr topicName topicType topicQos sourceOrDestination senderUrlStr receiverUrlStr
  connectionType : String)

/-- The request of `_send_request`. -/
def routingTopic (url : String) : ROSTopicRequest :=
  { apiOp := "routing", rosOp := sourceOrDestination, crypto := "test_cert", topicName, topicType
    topicQos := some topicQos, connectionType := some connectionType
    forwardSenderUrl := some url, forwardReceiverUrl := some url }

def sendRoutingRequestService : Py Unit :=
  let url := generateHashedName hexdigest
    [senderUrlStr, receiverUrlStr, topicName, topicType, connectionType]
  if sourceOrDestination = "source" ∨ sourceOrDestination = "destination" then
    post ("http://" ++ addr ++ "/service")
      (routingTopic topicName topicType topicQos sourceOrDestination connectionType url)
  else pure ()

/-- The connection type sent is always `pubsub`. -/
def sendRoutingRequestTopic : Py Unit :=
  let url := generateHashedName hexdigest [senderUrlStr, receiverUrlStr, topicName, topicType]
  post ("http://" ++ addr ++ "/topic")
    (routingTopic topicName topicType topicQos sourceOrDestination "pubsub" url)

end Requests

/-- What `construct_tree_by_sending_request_service` does for the edge from `node` to
`child`. -/
def requestServiceEdge (topicName node child : String) : Py Unit := do
  let s ← get
  let sessionId := node ++ child
  if node = s.instanceIdentifier then
    let topicType ← getItem s.serviceDict topicName
    let topicQos ← getItem s.serviceQosDict topicName
    sendRoutingRequestService hexdigest s.sgcAddress topicName topicType topicQos "source"
      ("request" ++ node ++ sessionId) ("request" ++ child ++ sessionId) "request"
    sendRoutingRequestService hexdigest s.sgcAddress topicName topicType topicQos "destination"
      ("response" ++ child ++ sessionId) ("response" ++ node ++ sessionId) "response"
  if child = s.instanceIdentifier then
    let topicType ← getItem s.serviceDict topicName
    let topicQos ← getItem s.serviceQosDict topicName
    sendRoutingRequestService hexdigest s.sgcAddress topicName topicType topicQos "destination"
      ("request" ++ node ++ sessionId) ("request" ++ child ++ sessionId) "request"
    sendRoutingRequestService hexdigest s.sgcAddress topicName topicType topicQos "source"
      ("response" ++ child ++ sessionId) ("response" ++ node ++ sessionId) "response"

/-- What `construct_tree_by_sending_request_topic` does for an edge. -/
def requestTopicEdge (topicName topicAction node child : String) : Py Unit := do
  let s ← get
  let sessionId := node ++ child
  if node = s.instanceIdentifier then
    let topicType ← getItem s.topicDict topicName
    let topicQos ← getItem s.topicQosDict topicName
    sendRoutingRequestTopic hexdigest s.sgcAddress topicName topicType topicQos topicAction
      ("topic" ++ node ++ sessionId) ("topic" ++ child ++ sessionId)
  if child = s.instanceIdentifier then
    let topicType ← getItem s.topicDict topicName
    let topicQos ← getItem s.topicQosDict topicName
    sendRoutingRequestTopic hexdigest s.sgcAddress topicName topicType topicQos topicAction
      ("topic" ++ node ++ sessionId) ("topic" ++ child ++ sessionId)

/-- The recursion of both constructions over the edges of a tree. -/
def forEdges (request : String → String → Py Unit) : Node → Py Unit
  | .mk address children => forChildren request address children
where
  forChildren (request : String → String → Py Unit) (address : String) : List Node → Py Unit
    | [] => pure ()
    | child :: children => do
      request address child.address
      forEdges request child
      forChildren request address children

def constructTreeBySendingRequestService (node : Node) (topicName : String) : Py Unit :=
  forEdges (requestServiceEdge hexdigest topicName) node

def constructTreeBySendingRequestTopic (node : Node) (topicName topicAction : String) : Py Unit :=
  forEdges (requestTopicEdge hexdigest topicName topicAction) node

end Routing

/-! ## Assignments -/

/-- `config["topology"]`. -/
def topology : Py Topology := do
  let s ← get
  match s.config.topology with
  | some topology => pure topology
  | none => throw (.keyError "topology")

/-- A round of the loop that revokes the topics of the previous state. -/
def revokeTopic (pair : String × String) : Py Unit := do
  let s ← get
  let topicType ← getItem s.topicDict pair.1
  sendTopicRequest "del" pair.2 pair.1 topicType s.sgcAddress
  modify fun s => { s with pausedTopics := s.pausedTopics ++ [pair.1] }

section Assignment

variable (hexdigest : Bytes → String)

/-- A round of the loop that adds in new topics. -/
def addTopic (pair : String × String) : Py Unit := do
  let s ← get
  let topicType ← getItem s.topicDict pair.1
  if pair.1 ∈ s.pausedTopics then
    sendTopicRequest "resume" pair.2 pair.1 topicType s.sgcAddress
    modify fun s => { s with pausedTopics := s.pausedTopics.erase pair.1 }
  else
    sendTopicRequest "add" pair.2 pair.1 topicType s.sgcAddress
    let tree ← topology
    constructTreeBySendingRequestTopic hexdigest (buildTree tree) pair.1 pair.2

/-- A round of the loop that adds in new services. -/
def addService (pair : String × String) : Py Unit := do
  let s ← get
  let serviceType ← getItem s.serviceDict pair.1
  if pair.1 ∈ s.pausedServices then
    sendServiceRequest "resume" pair.2 pair.1 serviceType s.sgcAddress
    modify fun s => { s with pausedServices := s.pausedServices.erase pair.1 }
  else
    sendServiceRequest "add" pair.2 pair.1 serviceType s.sgcAddress
    let tree ← topology
    constructTreeBySendingRequestService hexdigest (buildTree tree) pair.1

/-- The topics of the previous state, if it is another; a state without a list cannot be
iterated over. -/
def revoke (previousState : Option String) (currentState : String) : Py Unit :=
  match previousState with
  | none => pure ()
  | some previousState =>
    if previousState = currentState then pure ()
    else do
      let s ← get
      let machine ← getItem s.stateDict previousState
      match machine.topics with
      | none => throw .typeError
      | some topics => topics.forM revokeTopic

/-- The parameter change for this machine. -/
def changeState (currentState : String) : Py Unit := do
  let s ← get
  revoke (s.assignmentDict.get? s.instanceIdentifier) currentState
  let machine ← getItem s.stateDict currentState
  (machine.topics.getD []).forM (addTopic hexdigest)
  (machine.services.getD []).forM (addService hexdigest)

/-- A round of the loop over the machines of the new assignment. -/
def assignMachine (entry : String × String) : Py Unit := do
  let s ← get
  if entry.1 = s.instanceIdentifier then
    changeState hexdigest entry.2
  modify fun s => { s with assignmentDict := s.assignmentDict.set entry.1 entry.2 }

def applyAssignment (newAssignmentDict : PyDict String String) : Py Unit :=
  newAssignmentDict.entries.forM (assignMachine hexdigest)

end Assignment

end RtFogros.Swarm
