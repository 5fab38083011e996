import RtFogros.Lib.TreePath
import RtFogros.Swarm.Routing

/-!
# Topics along a tree

For a topic a machine registers as sender on all its edges or as receiver on all, by its
own action.  A message gets over an edge if its ends have different actions.

`messageTravels_iff`: each edge on a path between a publisher and a subscriber is served exactly if
all machines have one action or the ends of every edge differ.  The one direction is read off an
edge; for the other, an edge whose ends agree is put on a path to a machine with another action, as
a tree is connected (`Lib.TreePath`).
-/

namespace RtFogros.Swarm

open RtFogros

/-! ## The tree as a graph -/

def Node.graph (node : Node) : SimpleGraph String :=
  SimpleGraph.fromRel fun parent child => (parent, child) ∈ node.edges

mutual

theorem Node.reachable {node : Node} {G : SimpleGraph String}
    (hedges : ∀ parent child, (parent, child) ∈ node.edges → G.Reachable parent child)
    {machine : String} (h : machine ∈ node.addresses) : G.Reachable node.address machine := by
  cases node with
  | mk address children =>
    rcases List.mem_cons.1 h with rfl | h
    · exact SimpleGraph.Reachable.refl _
    · exact reachable_below hedges h

theorem reachable_below {address : String} {children : List Node} {G : SimpleGraph String}
    (hedges : ∀ parent child, (parent, child) ∈ edgesBelow address children →
      G.Reachable parent child) {machine : String} (h : machine ∈ addressesOf children) :
    G.Reachable address machine := by
  cases children with
  | nil => cases h
  | cons child children =>
    rcases List.mem_append.1 h with h | h
    · have hchild := hedges address child.address List.mem_cons_self
      refine hchild.trans (Node.reachable (fun parent child hedge => ?_) h)
      exact hedges parent child (List.mem_cons_of_mem _ (List.mem_append_left _ hedge))
    · have hbelow : ∀ parent child, (parent, child) ∈ edgesBelow address children →
          G.Reachable parent child := fun parent child hedge =>
        hedges parent child (List.mem_cons_of_mem _ (List.mem_append_right _ hedge))
      exact reachable_below hbelow h

end

theorem Node.graph_adj {node : Node} (hdistinct : node.addresses.Nodup) {parent child : String}
    (h : (parent, child) ∈ node.edges) : node.graph.Adj parent child := by
  rw [graph, SimpleGraph.fromRel_adj]
  exact ⟨Node.ne_of_edges hdistinct h, .inl h⟩

theorem Node.graph_reachable {node : Node} (hdistinct : node.addresses.Nodup) {u v : String}
    (hu : u ∈ node.addresses) (hv : v ∈ node.addresses) : node.graph.Reachable u v := by
  have hroot : ∀ {machine}, machine ∈ node.addresses → node.graph.Reachable node.address machine :=
    fun h => Node.reachable (fun parent child hedge => (graph_adj hdistinct hedge).reachable) h
  exact (hroot hu).symm.trans (hroot hv)

/-! ## Registrations -/

def RegistersAsSender (operations : List Operation) (url : String) : Prop :=
  ∃ request, .senderRouting request ∈ operations ∧ request.communicationUrl = some url

def RegistersAsReceiver (operations : List Operation) (url : String) : Prop :=
  ∃ request, .receiverRouting request ∈ operations ∧ request.communicationUrl = some url

section Topic

variable (hexdigest : Bytes → String) (certificate : Bytes)
  (router : String → Nat → PostOutcome) (config : Config) (sgcAddress : String → String)

/-- The registrations at the router of a machine that goes over the tree for a topic. -/
def topicOperations (tree : Topology) (topic topicAction machine : String) : List Operation :=
  mainServiceManager certificate
    ((after (constructTreeBySendingRequestTopic hexdigest (buildTree tree) topic topicAction)
      (loaded (router machine) config (sgcAddress machine) machine)).posts.map Post.json)

/-- The URL both ends of an edge register. -/
def topicUrl (topic type parent child : String) : String :=
  generateHashedName hexdigest ["topic" ++ parent ++ (parent ++ child),
    "topic" ++ child ++ (parent ++ child), topic, type]

/-- The request that the API makes of a machine's request for an edge. -/
def registration (topic type qos url : String) : RoutingManagerRequest :=
  { action := .add, topicName := topic, topicType := type, topicQos := qos, certificate,
    connectionType := some "pubsub", communicationUrl := some url }

def topicOperation (topic type qos topicAction parent child : String) : Operation :=
  let request :=
    registration certificate topic type qos (topicUrl hexdigest topic type parent child)
  if topicAction = "pub" then .senderRouting request else .receiverRouting request

variable {hexdigest certificate router config sgcAddress}

theorem dispatch_topicRequest {topicAction : String}
    (haction : topicAction = "pub" ∨ topicAction = "sub") (topic type qos parent child : String) :
    dispatch certificate (topicRequest hexdigest topic type qos topicAction parent child) =
      some [topicOperation hexdigest certificate topic type qos topicAction parent child] := by
  rcases haction with rfl | rfl
  · rfl
  · rfl

theorem mem_topicOperations (hanswering : ∀ machine, Answering (router machine))
    {topic type qos : String}
    (htype : (loadTypes (config.topics.getD [])).get? topic = some type)
    (hqos : (loadQos (config.topics.getD [])).get? topic = some qos) {topicAction : String}
    (haction : topicAction = "pub" ∨ topicAction = "sub") {tree : Topology} {machine : String}
    {operation : Operation} :
    operation ∈ topicOperations hexdigest certificate router config sgcAddress tree topic
        topicAction machine ↔
      ∃ parent child, (parent, child) ∈ (buildTree tree).edges ∧
        (parent = machine ∨ child = machine) ∧
        operation =
          topicOperation hexdigest certificate topic type qos topicAction parent child := by
  have hrun := (sendsAll_constructTopic hexdigest
    (s := loaded (router machine) config (sgcAddress machine) machine) htype hqos topicAction
    (buildTree tree)).returns ((hanswering machine).answers _)
  have hjson : (after
      (constructTreeBySendingRequestTopic hexdigest (buildTree tree) topic topicAction)
      (loaded (router machine) config (sgcAddress machine) machine)).posts.map Post.json =
      (buildTree tree).edges.flatMap fun edge =>
        topicEdgeRequests hexdigest topic type qos topicAction machine edge.1 edge.2 := by
    rw [after_of_ok hrun, SgcSwarm.posts_sent]
    change ([] ++ _).map _ = _
    rw [List.nil_append, List.map_flatMap]
    apply List.flatMap_congr
    intro edge _
    rw [List.map_map]
    exact List.map_id _
  unfold topicOperations
  rw [hjson, mainServiceManager_eq (f := fun json => (dispatch certificate json).getD [])]
  · simp only [List.mem_flatMap, mem_topicEdgeRequests]
    constructor
    · rintro ⟨json, ⟨edge, hedge, hmachine, rfl⟩, hmem⟩
      rw [dispatch_topicRequest haction] at hmem
      exact ⟨edge.1, edge.2, hedge, hmachine, List.mem_singleton.1 hmem⟩
    · rintro ⟨parent, child, hedge, hmachine, rfl⟩
      refine ⟨_, ⟨(parent, child), hedge, hmachine, rfl⟩, ?_⟩
      rw [dispatch_topicRequest haction]
      exact List.mem_cons_self
  · intro json hjson
    obtain ⟨edge, -, hmem⟩ := List.mem_flatMap.1 hjson
    obtain ⟨-, rfl⟩ := mem_topicEdgeRequests.1 hmem
    rw [dispatch_topicRequest haction]
    rfl

variable (hexdigest certificate sgcAddress) in
/-- An end of an edge registers as sender for it if it publishes, else as receiver. -/
theorem registers_iff (hanswering : ∀ machine, Answering (router machine)) {topic type qos : String}
    (htype : (loadTypes (config.topics.getD [])).get? topic = some type)
    (hqos : (loadQos (config.topics.getD [])).get? topic = some qos) {topicAction : String}
    (haction : topicAction = "pub" ∨ topicAction = "sub") {tree : Topology}
    {machine parent child : String} (hedge : (parent, child) ∈ (buildTree tree).edges)
    (hmachine : parent = machine ∨ child = machine) :
    (RegistersAsSender (topicOperations hexdigest certificate router config sgcAddress tree topic
        topicAction machine) (topicUrl hexdigest topic type parent child) ↔ topicAction = "pub") ∧
    (RegistersAsReceiver (topicOperations hexdigest certificate router config sgcAddress tree topic
        topicAction machine) (topicUrl hexdigest topic type parent child) ↔
      topicAction = "sub") := by
  have hown : topicOperation hexdigest certificate topic type qos topicAction parent child ∈
      topicOperations hexdigest certificate router config sgcAddress tree topic topicAction
        machine :=
    (mem_topicOperations hanswering htype hqos haction).2 ⟨parent, child, hedge, hmachine, rfl⟩
  rcases haction with rfl | rfl
  · refine ⟨iff_of_true ⟨_, hown, rfl⟩ rfl, iff_of_false ?_ (by decide)⟩
    rintro ⟨request, hmem, -⟩
    obtain ⟨_, _, -, -, heq⟩ := (mem_topicOperations hanswering htype hqos (.inl rfl)).1 hmem
    cases heq
  · refine ⟨iff_of_false ?_ (by decide), iff_of_true ⟨_, hown, rfl⟩ rfl⟩
    rintro ⟨request, hmem, -⟩
    obtain ⟨_, _, -, -, heq⟩ := (mem_topicOperations hanswering htype hqos (.inr rfl)).1 hmem
    cases heq

/-! ## Paths from publishers to subscribers -/

variable (hexdigest certificate router config sgcAddress)

/-- One end of the edge registers as sender for it, the other as receiver. -/
def EdgeServed (tree : Topology) (topic type : String) (action : String → String)
    (parent child : String) : Prop :=
  let operations := fun machine =>
    topicOperations hexdigest certificate router config sgcAddress tree topic (action machine)
      machine
  let url := topicUrl hexdigest topic type parent child
  (RegistersAsSender (operations parent) url ∧ RegistersAsReceiver (operations child) url) ∨
    (RegistersAsSender (operations child) url ∧ RegistersAsReceiver (operations parent) url)

/-- Every edge on a path between a publisher and a subscriber is served. -/
def MessageTravels (tree : Topology) (topic type : String) (action : String → String) : Prop :=
  ∀ publisher ∈ (buildTree tree).addresses, ∀ subscriber ∈ (buildTree tree).addresses,
    action publisher = "pub" → action subscriber = "sub" →
      ∀ walk : (buildTree tree).graph.Walk publisher subscriber, walk.IsPath →
        ∀ parent child, (parent, child) ∈ (buildTree tree).edges →
          s(parent, child) ∈ walk.edges →
          EdgeServed hexdigest certificate router config sgcAddress tree topic type action
            parent child

variable {hexdigest certificate router config sgcAddress}

theorem edgeServed_iff (hanswering : ∀ machine, Answering (router machine))
    {topic type qos : String}
    (htype : (loadTypes (config.topics.getD [])).get? topic = some type)
    (hqos : (loadQos (config.topics.getD [])).get? topic = some qos) {tree : Topology}
    {action : String → String} {parent child : String}
    (hparent : action parent = "pub" ∨ action parent = "sub")
    (hchild : action child = "pub" ∨ action child = "sub")
    (hedge : (parent, child) ∈ (buildTree tree).edges) :
    EdgeServed hexdigest certificate router config sgcAddress tree topic type action parent child ↔
      action parent ≠ action child := by
  obtain ⟨hsender, hreceiver⟩ :=
    registers_iff hexdigest certificate sgcAddress hanswering htype hqos hparent hedge (.inl rfl)
  obtain ⟨hsender', hreceiver'⟩ :=
    registers_iff hexdigest certificate sgcAddress hanswering htype hqos hchild hedge (.inr rfl)
  unfold EdgeServed
  dsimp only
  rw [hsender, hreceiver, hsender', hreceiver']
  rcases hparent with hparent | hparent
  all_goals rcases hchild with hchild | hchild
  all_goals simp [hparent, hchild]

/-- An edge is on a path between any two machines with different actions that its ends do
not separate. -/
theorem exists_path_over_edge {node : Node} (hdistinct : node.addresses.Nodup)
    {action : String → String}
    (haction : ∀ machine ∈ node.addresses, action machine = "pub" ∨ action machine = "sub")
    {parent child machine : String} (hedge : (parent, child) ∈ node.edges)
    (hmachine : machine ∈ node.addresses) (hsame : action parent = action child)
    (hother : action machine ≠ action parent) :
    ∃ publisher ∈ node.addresses, ∃ subscriber ∈ node.addresses, action publisher = "pub" ∧
      action subscriber = "sub" ∧ ∃ walk : node.graph.Walk publisher subscriber, walk.IsPath ∧
        s(parent, child) ∈ walk.edges := by
  obtain ⟨hparent, hchild⟩ := Node.mem_addresses_of_edges hedge
  -- the path from an end of the edge, in the direction from the publisher
  have horient : ∀ start ∈ node.addresses, action start = action parent →
      (∃ walk : node.graph.Walk start machine, walk.IsPath ∧ s(parent, child) ∈ walk.edges) →
      ∃ publisher ∈ node.addresses, ∃ subscriber ∈ node.addresses, action publisher = "pub" ∧
        action subscriber = "sub" ∧ ∃ walk : node.graph.Walk publisher subscriber, walk.IsPath ∧
          s(parent, child) ∈ walk.edges := by
    rintro start hstart hsame ⟨walk, hpath, hmem⟩
    rw [← hsame] at hother
    rcases haction start hstart with hpub | hsub
    · have hmachineSub :=
        (haction machine hmachine).resolve_left fun h => hother (h.trans hpub.symm)
      exact ⟨start, hstart, machine, hmachine, hpub, hmachineSub, walk, hpath, hmem⟩
    · have hmachinePub :=
        (haction machine hmachine).resolve_right fun h => hother (h.trans hsub.symm)
      exact ⟨machine, hmachine, start, hstart, hmachinePub, hsub, walk.reverse, hpath.reverse,
        by simpa using hmem⟩
  have hreach := Node.graph_reachable hdistinct hparent hmachine
  rcases (Node.graph_adj hdistinct hedge).exists_isPath_mem_edges hreach with hwalk | hwalk
  · exact horient parent hparent rfl hwalk
  · exact horient child hchild hsame.symm hwalk

/-- **Main result.**  For every topology with distinct addresses, every configured topic
and every assignment of actions, if the routers respond, each edge on a path between a
publisher and a subscriber is served if and only if all machines have one action or the ends
of every edge differ. -/
theorem messageTravels_iff (hanswering : ∀ machine, Answering (router machine))
    {tree : Topology} (hdistinct : (buildTree tree).addresses.Nodup)
    {topic type : String} (htype : (loadTypes (config.topics.getD [])).get? topic = some type)
    {action : String → String} (haction : ∀ machine ∈ (buildTree tree).addresses,
      action machine = "pub" ∨ action machine = "sub") :
    MessageTravels hexdigest certificate router config sgcAddress tree topic type action ↔
      (∀ machine ∈ (buildTree tree).addresses, ∀ other ∈ (buildTree tree).addresses,
        action machine = action other) ∨
      ∀ parent child, (parent, child) ∈ (buildTree tree).edges → action parent ≠ action child := by
  obtain ⟨qos, hqos⟩ := PyDict.mem_keys.1
    (mem_keys_loadQos.2 (mem_keys_loadTypes.1 (PyDict.mem_keys_of_get? htype)))
  have hserved : ∀ parent child, (parent, child) ∈ (buildTree tree).edges →
      (EdgeServed hexdigest certificate router config sgcAddress tree topic type action
        parent child ↔ action parent ≠ action child) := by
    intro parent child hedge
    obtain ⟨hparent, hchild⟩ := Node.mem_addresses_of_edges hedge
    exact edgeServed_iff hanswering htype hqos (haction parent hparent) (haction child hchild) hedge
  constructor
  · intro htravels
    by_cases hall : ∀ machine ∈ (buildTree tree).addresses,
        ∀ other ∈ (buildTree tree).addresses, action machine = action other
    · exact .inl hall
    · right
      intro parent child hedge hsame
      obtain ⟨hparent, -⟩ := Node.mem_addresses_of_edges hedge
      -- some machine has the other action
      obtain ⟨machine, hmachine, hother⟩ : ∃ machine ∈ (buildTree tree).addresses,
          action machine ≠ action parent := by
        by_contra hnone
        push Not at hnone
        exact hall fun machine hmachine other hother =>
          (hnone machine hmachine).trans (hnone other hother).symm
      obtain ⟨publisher, hpublisher, subscriber, hsubscriber, hpub, hsub, walk, hpath, hmem⟩ :=
        exists_path_over_edge hdistinct haction hedge hmachine hsame hother
      exact (hserved parent child hedge).1 (htravels publisher hpublisher subscriber hsubscriber
        hpub hsub walk hpath parent child hedge hmem) hsame
  · rintro (hall | hdiffer)
    · intro publisher hpublisher subscriber hsubscriber hpub hsub
      have hsame := hall publisher hpublisher subscriber hsubscriber
      rw [hpub, hsub] at hsame
      exact absurd hsame (by decide)
    · intro _ _ _ _ _ _ _ _ parent child hedge _
      exact (hserved parent child hedge).2 (hdiffer parent child hedge)

/-- The switch between a publisher and a subscriber takes both roles in turn. -/
def reversingSwitch (machine : String) : String :=
  if machine = "machine_switch" then "pub" else "sub"

/-- The switch takes the role of the client. -/
def idleSwitch (machine : String) : String :=
  if machine = "machine_server" then "pub" else "sub"

theorem reversingSwitch_travels :
    MessageTravels hexText [] (fun _ => answeringRouter) switchConfig localAddress
      switchTopology "/chatter" "std_msgs/msg/String" reversingSwitch := by
  have hdiffer : ∀ parent child, (parent, child) ∈ (buildTree switchTopology).edges →
      reversingSwitch parent ≠ reversingSwitch child := by
    intro parent child hedge
    rcases List.mem_cons.1 hedge with heq | hedge
    · cases heq
      decide
    · cases List.mem_singleton.1 hedge
      decide
  refine (messageTravels_iff (fun _ => answering_answeringRouter) (by decide) rfl
    fun machine _ => ?_).2 (.inr hdiffer)
  unfold reversingSwitch
  split
  · exact .inl rfl
  · exact .inr rfl

/-- The client and the switch both register as receiver for the edge between them. -/
theorem idleSwitch_cuts :
    ¬ MessageTravels hexText [] (fun _ => answeringRouter) switchConfig localAddress
      switchTopology "/chatter" "std_msgs/msg/String" idleSwitch := by
  intro htravels
  have hdistinct : (buildTree switchTopology).addresses.Nodup := by decide
  have hupper : ("machine_client", "machine_switch") ∈ (buildTree switchTopology).edges := by decide
  have hlower : ("machine_switch", "machine_server") ∈ (buildTree switchTopology).edges := by decide
  have hpath := htravels "machine_server" (by decide) "machine_client" (by decide) rfl rfl
    (.cons (Node.graph_adj hdistinct hlower).symm
      (.cons (Node.graph_adj hdistinct hupper).symm .nil))
    (by simp) "machine_client" "machine_switch" hupper (by simp [Sym2.eq_swap])
  exact (edgeServed_iff (fun _ => answering_answeringRouter) rfl rfl (.inr rfl) (.inr rfl)
    hupper).1 hpath rfl

end Topic

end RtFogros.Swarm
