import RtFogros.Swarm.Model
import Mathlib.Tactic.Ring

/-!
# What is sent along a tree

A construction goes over the edges of the tree; for each it sends what its request sends, and
changes nothing else in the swarm.

`Asks` says what a method does by the requests that it makes: it makes `n` of them, returns the
value and the swarm it names if the router responds to all, and raises if it does not.  The rules
for `Asks` compose along `bind` and the recursion over a tree, so that a construction asks for the
sum over its edges, and what it has sent is the list over its edges.  All that later modules know
of a construction is this.
-/

namespace RtFogros.Swarm

open RtFogros

/-! ## Edges and addresses -/

mutual

/-- The edges of a tree, from parent to child, in the order of the recursion. -/
def Node.edges : Node → List (String × String)
  | .mk address children => edgesBelow address children

def edgesBelow (address : String) : List Node → List (String × String)
  | [] => []
  | child :: children => (address, child.address) :: (child.edges ++ edgesBelow address children)

end

mutual

def Node.addresses : Node → List String
  | .mk address children => address :: addressesOf children

def addressesOf : List Node → List String
  | [] => []
  | child :: children => child.addresses ++ addressesOf children

end

theorem Node.address_mem_addresses (node : Node) : node.address ∈ node.addresses := by
  cases node
  exact List.mem_cons_self

mutual

theorem Node.mem_addresses_of_edges {node : Node} {p c : String} (h : (p, c) ∈ node.edges) :
    p ∈ node.addresses ∧ c ∈ node.addresses := by
  cases node with
  | mk address children =>
    obtain ⟨hp, hc⟩ := mem_addresses_of_edgesBelow h
    refine ⟨?_, List.mem_cons_of_mem _ hc⟩
    rcases hp with rfl | hp
    · exact List.mem_cons_self
    · exact List.mem_cons_of_mem _ hp

theorem mem_addresses_of_edgesBelow {address : String} {children : List Node} {p c : String}
    (h : (p, c) ∈ edgesBelow address children) :
    (p = address ∨ p ∈ addressesOf children) ∧ c ∈ addressesOf children := by
  cases children with
  | nil => cases h
  | cons child children =>
    rcases List.mem_cons.1 h with heq | h
    · cases heq
      exact ⟨.inl rfl, List.mem_append_left _ child.address_mem_addresses⟩
    · rcases List.mem_append.1 h with h | h
      · obtain ⟨hp, hc⟩ := Node.mem_addresses_of_edges h
        exact ⟨.inr (List.mem_append_left _ hp), List.mem_append_left _ hc⟩
      · obtain ⟨hp, hc⟩ := mem_addresses_of_edgesBelow h
        exact ⟨hp.imp id (List.mem_append_right _), List.mem_append_right _ hc⟩

end

mutual

/-- With pairwise distinct addresses no machine is its own child. -/
theorem Node.ne_of_edges {node : Node} (hnodup : node.addresses.Nodup) {p c : String}
    (h : (p, c) ∈ node.edges) : p ≠ c := by
  cases node with
  | mk address children =>
    obtain ⟨haddress, hchildren⟩ := List.nodup_cons.1 hnodup
    exact ne_of_edgesBelow haddress hchildren h

theorem ne_of_edgesBelow {address : String} {children : List Node}
    (haddress : address ∉ addressesOf children) (hnodup : (addressesOf children).Nodup)
    {p c : String} (h : (p, c) ∈ edgesBelow address children) : p ≠ c := by
  cases children with
  | nil => cases h
  | cons child children =>
    rw [addressesOf, List.mem_append, not_or] at haddress
    obtain ⟨hchild, hchildren, -⟩ := List.nodup_append.1 hnodup
    rcases List.mem_cons.1 h with heq | h
    · cases heq
      rintro rfl
      exact haddress.1 child.address_mem_addresses
    · rcases List.mem_append.1 h with h | h
      · exact Node.ne_of_edges hchild h
      · exact ne_of_edgesBelow haddress.2 hchildren h

end

/-- How often a machine is an end of an edge. -/
def Node.ends (machine : String) (node : Node) : Nat :=
  (node.edges.map Prod.fst).count machine + (node.edges.map Prod.snd).count machine

/-- As many requests for each end of an edge that is the machine's. -/
theorem length_flatMap_ends {α : Type*} {machine : String} {perEnd : Nat}
    {f : String × String → List α}
    (h : ∀ edge, (f edge).length =
      (if edge.1 = machine then perEnd else 0) + if edge.2 = machine then perEnd else 0)
    (edges : List (String × String)) :
    (edges.flatMap f).length =
      perEnd * ((edges.map Prod.fst).count machine + (edges.map Prod.snd).count machine) := by
  induction edges with
  | nil => rfl
  | cons edge edges ih =>
    rw [List.flatMap_cons, List.length_append, h, ih, List.map_cons, List.map_cons,
      List.count_cons, List.count_cons]
    simp only [beq_iff_eq]
    by_cases hparent : edge.1 = machine
    all_goals by_cases hchild : edge.2 = machine
    all_goals
      simp only [hparent, hchild, if_true, if_false]
      ring

/-! ## Requests that are answered -/

/-- The router responds to each of the next `n` requests. -/
def SgcSwarm.Answers (s : SgcSwarm) (n : Nat) : Prop :=
  ∀ k < n, s.router (s.asked + k) = .response

/-- The router responds to every request. -/
def Answering (router : Nat → PostOutcome) : Prop := ∀ request, router request = .response

theorem Answering.answers {s : SgcSwarm} (h : Answering s.router) (n : Nat) : s.Answers n :=
  fun k _ => h (s.asked + k)

theorem answers_zero (s : SgcSwarm) : s.Answers 0 := fun _ hk => absurd hk (Nat.not_lt_zero _)

/-- Requests one after the other. -/
theorem answers_add {s s' : SgcSwarm} {m : Nat} (hrouter : s'.router = s.router)
    (hasked : s'.asked = s.asked + m) (n : Nat) :
    s.Answers (m + n) ↔ s.Answers m ∧ s'.Answers n := by
  unfold SgcSwarm.Answers
  rw [hrouter, hasked]
  constructor
  · intro h
    refine ⟨fun k hk => h k (Nat.lt_add_right n hk), fun k hk => ?_⟩
    rw [Nat.add_assoc]
    exact h (m + k) (Nat.add_lt_add_left hk m)
  · rintro ⟨hfirst, hrest⟩ k hk
    rcases Nat.lt_or_ge k m with hlt | hge
    · exact hfirst k hlt
    · have hk' := hrest (k - m) (by omega)
      rwa [Nat.add_assoc, Nat.add_sub_cancel' hge] at hk'

/-- The method makes `n` requests, and raises unless the router responds to all of them; it
returns `a` then, and the swarm is `s'`. -/
structure Asks {α : Type} (x : Py α) (s : SgcSwarm) (n : Nat) (a : α) (s' : SgcSwarm) : Prop where
  router : s'.router = s.router
  asked : s'.asked = s.asked + n
  returns : s.Answers n → x s = .ok a s'
  raises : ¬ s.Answers n → ¬ Completes x s

namespace Asks

variable {α β : Type} {x : Py α} {s s₁ s₂ : SgcSwarm} {m n : Nat} {a : α} {b : β}

theorem completes_iff (h : Asks x s n a s₁) : Completes x s ↔ s.Answers n := by
  constructor
  · intro hcompletes
    by_contra hnot
    exact h.raises hnot hcompletes
  · exact fun hanswers => ⟨a, s₁, h.returns hanswers⟩

theorem eq_of_completes (h : Asks x s n a s₁) (hcompletes : Completes x s) : x s = .ok a s₁ :=
  h.returns (h.completes_iff.1 hcompletes)

theorem congr {y : Py α} (h : Asks x s n a s₁) (heq : y s = x s) : Asks y s n a s₁ where
  router := h.router
  asked := h.asked
  returns hanswers := heq.trans (h.returns hanswers)
  raises hnot := by
    unfold Completes
    rw [heq]
    exact h.raises hnot

/-- A method without requests. -/
theorem of_ok (h : x s = .ok a s) : Asks x s 0 a s where
  router := rfl
  asked := rfl
  returns _ := h
  raises hnot := absurd (answers_zero s) hnot

theorem bind {f : α → Py β} (h : Asks x s m a s₁) (hf : Asks (f a) s₁ n b s₂) :
    Asks (x >>= f) s (m + n) b s₂ where
  router := hf.router.trans h.router
  asked := by rw [hf.asked, h.asked, Nat.add_assoc]
  returns hanswers := by
    obtain ⟨hfirst, hrest⟩ := (answers_add h.router h.asked n).1 hanswers
    rw [bind_apply, h.returns hfirst]
    exact hf.returns hrest
  raises hnot hcompletes := by
    obtain ⟨a', s', hrun, hrest⟩ := completes_bind.1 hcompletes
    have hfirst := h.completes_iff.1 ⟨a', s', hrun⟩
    cases (h.returns hfirst).symm.trans hrun
    exact hnot ((answers_add h.router h.asked n).2 ⟨hfirst, hf.completes_iff.1 hrest⟩)

/-- What is read or looked up before costs nothing. -/
theorem of_ok_bind {f : α → Py β} (h : x s = .ok a s) (hf : Asks (f a) s n b s₂) :
    Asks (x >>= f) s n b s₂ := by
  have hbind := (of_ok h).bind hf
  rwa [Nat.zero_add] at hbind

/-- What is noted after it costs nothing either. -/
theorem bind_modify {x : Py Unit} {g : SgcSwarm → SgcSwarm} (h : Asks x s n () s₁)
    (hrouter : (g s₁).router = s₁.router) (hasked : (g s₁).asked = s₁.asked) :
    Asks (x >>= fun _ => modify g) s n () (g s₁) := by
  refine h.bind (n := 0) ⟨hrouter, hasked, fun _ => rfl, fun hnot => ?_⟩
  exact absurd (answers_zero s₁) hnot

end Asks

/-! ## What a construction sends -/

/-- The swarm has sent `posts` more. -/
def SgcSwarm.sent (s : SgcSwarm) (posts : List Post) : SgcSwarm :=
  { s with asked := s.asked + posts.length, posts := s.posts ++ posts }

@[simp] theorem SgcSwarm.posts_sent (s : SgcSwarm) (posts : List Post) :
    (s.sent posts).posts = s.posts ++ posts := rfl

@[simp] theorem SgcSwarm.sent_nil (s : SgcSwarm) : s.sent [] = s := by
  simp [sent]

@[simp] theorem SgcSwarm.sent_sent (s : SgcSwarm) (posts more : List Post) :
    (s.sent posts).sent more = s.sent (posts ++ more) := by
  simp [sent, Nat.add_assoc]

section Post

variable {uri : String} {json : ROSTopicRequest} {s : SgcSwarm}

theorem post_of_response (h : s.router s.asked = .response) :
    post uri json s = .ok () (s.sent [⟨uri, json⟩]) := by
  simp [post, h, SgcSwarm.sent]

/-- The router is not there. -/
theorem post_of_refused (h : s.router s.asked = .refused) :
    post uri json s = .error .requestException { s with asked := s.asked + 1 } := by
  simp [post, h]

theorem post_of_lost (h : s.router s.asked = .lost) :
    post uri json s = .error .requestException (s.sent [⟨uri, json⟩]) := by
  simp [post, h, SgcSwarm.sent]

theorem asks_post : Asks (post uri json) s 1 () (s.sent [⟨uri, json⟩]) where
  router := rfl
  asked := rfl
  returns hanswers := post_of_response (hanswers 0 Nat.one_pos)
  raises hnot := by
    cases hanswer : s.router s.asked with
    | response =>
      refine absurd (fun k hk => ?_) hnot
      rwa [Nat.lt_one_iff.1 hk]
    | refused => exact not_completes_of_error (post_of_refused hanswer)
    | lost => exact not_completes_of_error (post_of_lost hanswer)

end Post

/-- The method sends `posts`, if the router responds to each. -/
abbrev SendsAll (x : Py Unit) (s : SgcSwarm) (posts : List Post) : Prop :=
  Asks x s posts.length () (s.sent posts)

theorem sendsAll_nil {x : Py Unit} {s : SgcSwarm} (h : x s = .ok () s) : SendsAll x s [] := by
  change Asks x s 0 () (s.sent [])
  rw [SgcSwarm.sent_nil]
  exact .of_ok h

/-- One part of a method after the other. -/
theorem SendsAll.bind {x : Py Unit} {f : Unit → Py Unit} {s : SgcSwarm} {posts more : List Post}
    (h : SendsAll x s posts) (hf : SendsAll (f ()) (s.sent posts) more) :
    SendsAll (x >>= f) s (posts ++ more) := by
  have hbind := Asks.bind h hf
  rwa [← List.length_append, SgcSwarm.sent_sent] at hbind

/-- The type and the quality of service are looked up first. -/
theorem sendsAll_typed {d qosDict : PyDict String String} {name type qos : String}
    (htype : d.get? name = some type) (hqos : qosDict.get? name = some qos)
    {request : String → String → Py Unit} {s : SgcSwarm} {posts : List Post}
    (h : SendsAll (request type qos) s posts) :
    SendsAll (getItem d name >>= fun type =>
      getItem qosDict name >>= fun qos => request type qos) s posts := by
  refine .of_ok_bind (getItem_apply s htype) ?_
  exact .of_ok_bind (getItem_apply s hqos) h

section Construction

variable {request : String → String → Py Unit} {f : String → String → List Post} {s : SgcSwarm}

mutual

theorem sendsAll_forEdges
    (hrequest : ∀ p c posts, SendsAll (request p c) (s.sent posts) (f p c))
    (node : Node) (posts : List Post) :
    SendsAll (forEdges request node) (s.sent posts)
      (node.edges.flatMap fun edge => f edge.1 edge.2) := by
  cases node with
  | mk address children => exact sendsAll_forChildren hrequest address children posts

theorem sendsAll_forChildren
    (hrequest : ∀ p c posts, SendsAll (request p c) (s.sent posts) (f p c))
    (address : String) (children : List Node) (posts : List Post) :
    SendsAll (forEdges.forChildren request address children) (s.sent posts)
      ((edgesBelow address children).flatMap fun edge => f edge.1 edge.2) := by
  cases children with
  | nil => exact sendsAll_nil rfl
  | cons child children =>
    rw [forEdges.forChildren, edgesBelow, List.flatMap_cons, List.flatMap_append]
    refine (hrequest address child.address posts).bind ?_
    rw [SgcSwarm.sent_sent]
    refine (sendsAll_forEdges hrequest child _).bind ?_
    rw [SgcSwarm.sent_sent]
    exact sendsAll_forChildren hrequest address children _

end

end Construction

/-! ## The requests of a service -/

section Service

variable (hexdigest : Bytes → String)

/-- The request for one direction of an edge; the ends of the direction differ in
`sourceOrDestination` alone. -/
def serviceRequest (name type qos connectionType sender receiver sessionId
    sourceOrDestination : String) : ROSTopicRequest :=
  let url := generateHashedName hexdigest [connectionType ++ sender ++ sessionId,
    connectionType ++ receiver ++ sessionId, name, type, connectionType]
  { apiOp := "routing", rosOp := sourceOrDestination, crypto := "test_cert", topicName := name
    topicType := type, topicQos := some qos, connectionType := some connectionType
    forwardSenderUrl := some url, forwardReceiverUrl := some url }

/-- What the parent of an edge sends. -/
def parentRequests (name type qos node child : String) : List ROSTopicRequest :=
  [serviceRequest hexdigest name type qos "request" node child (node ++ child) "source",
    serviceRequest hexdigest name type qos "response" child node (node ++ child) "destination"]

/-- What the child of an edge sends. -/
def childRequests (name type qos node child : String) : List ROSTopicRequest :=
  [serviceRequest hexdigest name type qos "request" node child (node ++ child) "destination",
    serviceRequest hexdigest name type qos "response" child node (node ++ child) "source"]

/-- What a machine sends for an edge. -/
def serviceEdgeRequests (name type qos machine node child : String) : List ROSTopicRequest :=
  (if node = machine then parentRequests hexdigest name type qos node child else []) ++
    (if child = machine then childRequests hexdigest name type qos node child else [])

theorem apiOp_serviceEdgeRequests {hexdigest : Bytes → String}
    {name type qos machine node child : String} {json : ROSTopicRequest}
    (h : json ∈ serviceEdgeRequests hexdigest name type qos machine node child) :
    json.apiOp = "routing" := by
  unfold serviceEdgeRequests parentRequests childRequests at h
  rcases List.mem_append.1 h with h | h
  all_goals
    split at h
    · rcases List.mem_pair.1 h with rfl | rfl
      · rfl
      · rfl
    · cases h

theorem length_serviceEdgeRequests (name type qos machine node child : String) :
    (serviceEdgeRequests hexdigest name type qos machine node child).length =
      (if node = machine then 2 else 0) + if child = machine then 2 else 0 := by
  unfold serviceEdgeRequests parentRequests childRequests
  rw [List.length_append]
  congr 1
  · split <;> rfl
  · split <;> rfl

def servicePost (s : SgcSwarm) (json : ROSTopicRequest) : Post :=
  ⟨"http://" ++ s.sgcAddress ++ "/service", json⟩

variable {s : SgcSwarm} {name type qos : String}

variable (s name type qos) in
/-- The request for one direction, from either of its ends. -/
theorem sendsAll_sendRoutingRequestService {sourceOrDestination : String}
    (hend : sourceOrDestination = "source" ∨ sourceOrDestination = "destination")
    (connectionType sender receiver sessionId : String) (posts : List Post) :
    SendsAll (sendRoutingRequestService hexdigest s.sgcAddress name type qos sourceOrDestination
        (connectionType ++ sender ++ sessionId) (connectionType ++ receiver ++ sessionId)
        connectionType) (s.sent posts)
      [servicePost s (serviceRequest hexdigest name type qos connectionType sender receiver
        sessionId sourceOrDestination)] := by
  unfold sendRoutingRequestService
  dsimp only
  rw [if_pos hend]
  exact asks_post

theorem sendsAll_requestServiceEdge (htype : s.serviceDict.get? name = some type)
    (hqos : s.serviceQosDict.get? name = some qos) (node child : String) (posts : List Post) :
    SendsAll (requestServiceEdge hexdigest name node child) (s.sent posts)
      ((serviceEdgeRequests hexdigest name type qos s.instanceIdentifier node child).map
        (servicePost s)) := by
  have hsource := sendsAll_sendRoutingRequestService hexdigest s name type qos (.inl rfl)
  have hdestination := sendsAll_sendRoutingRequestService hexdigest s name type qos (.inr rfl)
  -- the child's end, which comes last
  have hchildEnd : ∀ posts, SendsAll
      (if child = s.instanceIdentifier then
        getItem s.serviceDict name >>= fun type => getItem s.serviceQosDict name >>= fun qos =>
          sendRoutingRequestService hexdigest s.sgcAddress name type qos "destination"
            ("request" ++ node ++ (node ++ child)) ("request" ++ child ++ (node ++ child))
            "request" >>= fun _ =>
          sendRoutingRequestService hexdigest s.sgcAddress name type qos "source"
            ("response" ++ child ++ (node ++ child)) ("response" ++ node ++ (node ++ child))
            "response"
      else pure ()) (s.sent posts)
      ((if child = s.instanceIdentifier then
        childRequests hexdigest name type qos node child else []).map (servicePost s)) := by
    intro posts
    split
    · refine sendsAll_typed htype hqos ?_
      refine (hdestination "request" node child _ posts).bind ?_
      rw [SgcSwarm.sent_sent]
      exact hsource "response" child node _ _
    · exact sendsAll_nil rfl
  unfold requestServiceEdge serviceEdgeRequests
  rw [List.map_append]
  refine Asks.of_ok_bind (get_apply _) ?_
  by_cases hnode : node = s.instanceIdentifier
  · rw [if_pos (show node = (s.sent posts).instanceIdentifier from hnode), if_pos hnode]
    refine sendsAll_typed htype hqos ?_
    refine (hsource "request" node child _ posts).bind ?_
    rw [SgcSwarm.sent_sent]
    refine (hdestination "response" child node _ _).bind ?_
    rw [SgcSwarm.sent_sent]
    exact hchildEnd _
  · rw [if_neg (show node ≠ (s.sent posts).instanceIdentifier from hnode), if_neg hnode]
    exact hchildEnd posts

theorem sendsAll_constructService (htype : s.serviceDict.get? name = some type)
    (hqos : s.serviceQosDict.get? name = some qos) (node : Node) :
    SendsAll (constructTreeBySendingRequestService hexdigest node name) s
      (node.edges.flatMap fun edge =>
        (serviceEdgeRequests hexdigest name type qos s.instanceIdentifier edge.1 edge.2).map
          (servicePost s)) := by
  have hedges := sendsAll_forEdges (sendsAll_requestServiceEdge hexdigest htype hqos) node []
  rwa [SgcSwarm.sent_nil] at hedges

theorem length_constructService (name type qos : String) (node : Node) :
    (node.edges.flatMap fun edge =>
      (serviceEdgeRequests hexdigest name type qos s.instanceIdentifier edge.1 edge.2).map
        (servicePost s)).length = 2 * node.ends s.instanceIdentifier := by
  refine length_flatMap_ends (fun edge => ?_) node.edges
  rw [List.length_map, length_serviceEdgeRequests]

end Service

/-! ## The requests of a topic -/

section Topic

variable (hexdigest : Bytes → String)

/-- The request of either end of an edge. -/
def topicRequest (name type qos topicAction node child : String) : ROSTopicRequest :=
  let url := generateHashedName hexdigest ["topic" ++ node ++ (node ++ child),
    "topic" ++ child ++ (node ++ child), name, type]
  { apiOp := "routing", rosOp := topicAction, crypto := "test_cert", topicName := name
    topicType := type, topicQos := some qos, connectionType := some "pubsub"
    forwardSenderUrl := some url, forwardReceiverUrl := some url }

/-- What a machine sends for an edge: the same whichever end it is. -/
def topicEdgeRequests (name type qos topicAction machine node child : String) :
    List ROSTopicRequest :=
  (if node = machine then [topicRequest hexdigest name type qos topicAction node child] else []) ++
    (if child = machine then [topicRequest hexdigest name type qos topicAction node child] else [])

theorem mem_topicEdgeRequests {hexdigest : Bytes → String}
    {name type qos topicAction machine node child : String}
    {json : ROSTopicRequest} :
    json ∈ topicEdgeRequests hexdigest name type qos topicAction machine node child ↔
      (node = machine ∨ child = machine) ∧
        json = topicRequest hexdigest name type qos topicAction node child := by
  unfold topicEdgeRequests
  by_cases hnode : node = machine
  all_goals by_cases hchild : child = machine
  all_goals simp [hnode, hchild]

theorem apiOp_topicEdgeRequests {hexdigest : Bytes → String}
    {name type qos topicAction machine node child : String} {json : ROSTopicRequest}
    (h : json ∈ topicEdgeRequests hexdigest name type qos topicAction machine node child) :
    json.apiOp = "routing" := by
  obtain ⟨-, rfl⟩ := mem_topicEdgeRequests.1 h
  rfl

theorem length_topicEdgeRequests (name type qos topicAction machine node child : String) :
    (topicEdgeRequests hexdigest name type qos topicAction machine node child).length =
      (if node = machine then 1 else 0) + if child = machine then 1 else 0 := by
  unfold topicEdgeRequests
  rw [List.length_append]
  congr 1
  · split <;> rfl
  · split <;> rfl

def topicPost (s : SgcSwarm) (json : ROSTopicRequest) : Post :=
  ⟨"http://" ++ s.sgcAddress ++ "/topic", json⟩

variable {s : SgcSwarm} {name type qos : String}

theorem sendsAll_requestTopicEdge (htype : s.topicDict.get? name = some type)
    (hqos : s.topicQosDict.get? name = some qos) (topicAction node child : String)
    (posts : List Post) :
    SendsAll (requestTopicEdge hexdigest name topicAction node child) (s.sent posts)
      ((topicEdgeRequests hexdigest name type qos topicAction s.instanceIdentifier node
        child).map (topicPost s)) := by
  have hend : ∀ posts, SendsAll (sendRoutingRequestTopic hexdigest s.sgcAddress name type qos
      topicAction ("topic" ++ node ++ (node ++ child)) ("topic" ++ child ++ (node ++ child)))
      (s.sent posts) [topicPost s (topicRequest hexdigest name type qos topicAction node child)] :=
    fun posts => asks_post
  -- the child's end, which comes last
  have hchildEnd : ∀ posts, SendsAll
      (if child = s.instanceIdentifier then
        getItem s.topicDict name >>= fun type => getItem s.topicQosDict name >>= fun qos =>
          sendRoutingRequestTopic hexdigest s.sgcAddress name type qos topicAction
            ("topic" ++ node ++ (node ++ child)) ("topic" ++ child ++ (node ++ child))
      else pure ()) (s.sent posts)
      ((if child = s.instanceIdentifier then
        [topicRequest hexdigest name type qos topicAction node child] else []).map
        (topicPost s)) := by
    intro posts
    split
    · exact sendsAll_typed htype hqos (hend posts)
    · exact sendsAll_nil rfl
  unfold requestTopicEdge topicEdgeRequests
  rw [List.map_append]
  refine Asks.of_ok_bind (get_apply _) ?_
  by_cases hnode : node = s.instanceIdentifier
  · rw [if_pos (show node = (s.sent posts).instanceIdentifier from hnode), if_pos hnode]
    refine sendsAll_typed htype hqos ?_
    refine (hend posts).bind ?_
    rw [SgcSwarm.sent_sent]
    exact hchildEnd _
  · rw [if_neg (show node ≠ (s.sent posts).instanceIdentifier from hnode), if_neg hnode]
    exact hchildEnd posts

theorem sendsAll_constructTopic (htype : s.topicDict.get? name = some type)
    (hqos : s.topicQosDict.get? name = some qos) (topicAction : String) (node : Node) :
    SendsAll (constructTreeBySendingRequestTopic hexdigest node name topicAction) s
      (node.edges.flatMap fun edge =>
        (topicEdgeRequests hexdigest name type qos topicAction s.instanceIdentifier edge.1
          edge.2).map (topicPost s)) := by
  have hedges := sendsAll_forEdges (sendsAll_requestTopicEdge hexdigest htype hqos topicAction)
    node []
  rwa [SgcSwarm.sent_nil] at hedges

theorem length_constructTopic (name type qos topicAction : String) (node : Node) :
    (node.edges.flatMap fun edge =>
      (topicEdgeRequests hexdigest name type qos topicAction s.instanceIdentifier edge.1
        edge.2).map (topicPost s)).length = node.ends s.instanceIdentifier := by
  refine (length_flatMap_ends (fun edge => ?_) node.edges).trans (Nat.one_mul _)
  rw [List.length_map, length_topicEdgeRequests]

end Topic

end RtFogros.Swarm
