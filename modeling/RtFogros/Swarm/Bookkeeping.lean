import RtFogros.Lib.Ledger
import RtFogros.Swarm.Routing

/-!
# The bookkeeping of assignments

The requests `apply_assignment` sends for its topics and services, held against the life
cycle the router expects of each pair of a name and an action.  The one list of paused
names keeps to it as long as the router responds and no state with services is left.

`Tracks` is the invariant: which pairs are active, which are paused, and the list of names
that goes with them.  Each kind of request moves it on by one operation of the ledger, the
loops by one for each pair, and `Current` says that it is at the lists of the assigned state
between two calls.  `requests_obey_life_cycle` is what holds of every run.
-/

namespace RtFogros.Swarm

open RtFogros

/-! ## Requests as operations -/

/-- The URI a pair is sent to, and the pair. -/
abbrev Key := String × String × String

def lifecycle? : String → Option Lifecycle
  | "add" => some .add
  | "resume" => some .resume
  | "del" => some .del
  | _ => none

def Post.operation? (post : Post) : Option (Lifecycle × Key) :=
  (lifecycle? post.json.apiOp).map fun op => (op, post.uri, post.json.topicName, post.json.rosOp)

namespace SgcSwarm

variable (s : SgcSwarm)

def operations : List (Lifecycle × Key) := s.posts.filterMap Post.operation?

def ledger : Ledger Key := .of s.operations

def topicKey (pair : String × String) : Key := ("http://" ++ s.sgcAddress ++ "/topic", pair)

def serviceKey (pair : String × String) : Key := ("http://" ++ s.sgcAddress ++ "/service", pair)

/-- The state this machine is assigned lists the pair. -/
def Lists (key : Key) : Prop :=
  ∃ state machine, s.assignmentDict.get? s.instanceIdentifier = some state ∧
    s.stateDict.get? state = some machine ∧
    (key ∈ (machine.topics.getD []).map s.topicKey ∨
      key ∈ (machine.services.getD []).map s.serviceKey)

end SgcSwarm

theorem topicKey_ne_serviceKey (s : SgcSwarm) (pair other : String × String) :
    s.topicKey pair ≠ s.serviceKey other := by
  intro h
  have huri := congrArg (fun key : Key => asBytes key.1) h
  simp only [SgcSwarm.topicKey, SgcSwarm.serviceKey, asBytes_append, List.append_assoc] at huri
  have htail := List.append_cancel_left (List.append_cancel_left huri)
  exact absurd htail (by decide)

/-- What stays as it was loaded. -/
structure SameConfig (s s' : SgcSwarm) : Prop where
  instanceIdentifier : s'.instanceIdentifier = s.instanceIdentifier
  sgcAddress : s'.sgcAddress = s.sgcAddress
  topicDict : s'.topicDict = s.topicDict
  topicQosDict : s'.topicQosDict = s.topicQosDict
  serviceDict : s'.serviceDict = s.serviceDict
  serviceQosDict : s'.serviceQosDict = s.serviceQosDict
  stateDict : s'.stateDict = s.stateDict
  config : s'.config = s.config
  router : s'.router = s.router

theorem SameConfig.refl (s : SgcSwarm) : SameConfig s s :=
  ⟨rfl, rfl, rfl, rfl, rfl, rfl, rfl, rfl, rfl⟩

theorem SameConfig.trans {s s' s'' : SgcSwarm} (h : SameConfig s s') (h' : SameConfig s' s'') :
    SameConfig s s'' := by
  constructor
  · rw [h'.instanceIdentifier, h.instanceIdentifier]
  · rw [h'.sgcAddress, h.sgcAddress]
  · rw [h'.topicDict, h.topicDict]
  · rw [h'.topicQosDict, h.topicQosDict]
  · rw [h'.serviceDict, h.serviceDict]
  · rw [h'.serviceQosDict, h.serviceQosDict]
  · rw [h'.stateDict, h.stateDict]
  · rw [h'.config, h.config]
  · rw [h'.router, h.router]

/-- The router responds, and the requests obey the life cycle; `live` is active, and of the
topics `gone` are paused by their names. -/
structure Tracks (s : SgcSwarm) (live gone : List Key) : Prop where
  answering : Answering s.router
  obeyed : Ledger.Obeyed s.operations
  splits : s.ledger.Splits live gone
  topics : ∀ key ∈ gone, ∃ pair, key = s.topicKey pair
  paused : s.pausedTopics.Perm (gone.map fun key => key.2.1)
  services : s.pausedServices = []

/-! ## One request -/

/-- How many ends of edges of the topology this machine is. -/
def SgcSwarm.ends (s : SgcSwarm) : Nat :=
  match s.config.topology with
  | none => 0
  | some tree => (buildTree tree).ends s.instanceIdentifier

theorem SgcSwarm.ends_eq (s : SgcSwarm) {tree : Topology} (h : s.config.topology = some tree) :
    s.ends = (buildTree tree).ends s.instanceIdentifier := by
  unfold ends
  rw [h]

/-- Requests are sent and names paused or resumed. -/
def SgcSwarm.requested (s : SgcSwarm) (posts : List Post) (pausedTopics : List String) : SgcSwarm :=
  { s.sent posts with pausedTopics }

theorem SameConfig.requested (s : SgcSwarm) (posts : List Post) (pausedTopics : List String) :
    SameConfig s (s.requested posts pausedTopics) :=
  ⟨rfl, rfl, rfl, rfl, rfl, rfl, rfl, rfl, rfl⟩

theorem operations_requested (s : SgcSwarm) (posts : List Post) (pausedTopics : List String) :
    (s.requested posts pausedTopics).operations =
      s.operations ++ posts.filterMap Post.operation? := List.filterMap_append

/-- The routing requests for edges are no operations. -/
theorem operations_of_routing {edges : List (String × String)}
    {requests : String × String → List ROSTopicRequest} {post : ROSTopicRequest → Post}
    (hpost : ∀ json, (post json).json = json)
    (hrouting : ∀ edge, ∀ json ∈ requests edge, json.apiOp = "routing") :
    (edges.flatMap fun edge => (requests edge).map post).filterMap Post.operation? = [] := by
  rw [List.filterMap_eq_nil_iff]
  intro sent hsent
  obtain ⟨edge, -, hmem⟩ := List.mem_flatMap.1 hsent
  obtain ⟨json, hjson, rfl⟩ := List.mem_map.1 hmem
  unfold Post.operation?
  rw [hpost, hrouting edge json hjson]
  rfl

section Runs

variable {s : SgcSwarm} {pair : String × String}

/-- One request that is one operation, with the names that are paused then. -/
theorem asks_one (uri : String) (json : ROSTopicRequest) {op : Lifecycle}
    (hop : lifecycle? json.apiOp = some op) (f : List String → List String) :
    ∃ posts, posts.length = 1 ∧
      posts.filterMap Post.operation? = [(op, uri, json.topicName, json.rosOp)] ∧
      Asks (post uri json >>= fun _ => modify fun s =>
        { s with pausedTopics := f s.pausedTopics }) s posts.length ()
        (s.requested posts (f s.pausedTopics)) := by
  refine ⟨[⟨uri, json⟩], rfl, ?_, asks_post.bind_modify rfl rfl⟩
  simp [Post.operation?, hop]

theorem revokeTopic_declared (h : pair.1 ∈ s.topicDict.keys) :
    ∃ posts, posts.length = 1 ∧ posts.filterMap Post.operation? = [(.del, s.topicKey pair)] ∧
      Asks (revokeTopic pair) s posts.length ()
        (s.requested posts (s.pausedTopics ++ [pair.1])) := by
  obtain ⟨type, htype⟩ := PyDict.mem_keys.1 h
  obtain ⟨posts, hlength, hposts, hasks⟩ := asks_one (s := s)
    ("http://" ++ s.sgcAddress ++ "/topic") (rosTopic "del" pair.2 pair.1 type) rfl (· ++ [pair.1])
  refine ⟨posts, hlength, hposts, ?_⟩
  unfold revokeTopic
  refine .of_ok_bind (get_apply s) ?_
  exact .of_ok_bind (getItem_apply s htype) hasks

variable (hexdigest : Bytes → String)

/-- A topic that is paused is resumed. -/
theorem addTopic_paused (h : pair.1 ∈ s.topicDict.keys) (hpaused : pair.1 ∈ s.pausedTopics) :
    ∃ posts, posts.length = 1 ∧ posts.filterMap Post.operation? = [(.resume, s.topicKey pair)] ∧
      Asks (addTopic hexdigest pair) s posts.length ()
        (s.requested posts (s.pausedTopics.erase pair.1)) := by
  obtain ⟨type, htype⟩ := PyDict.mem_keys.1 h
  obtain ⟨posts, hlength, hposts, hasks⟩ := asks_one (s := s)
    ("http://" ++ s.sgcAddress ++ "/topic") (rosTopic "resume" pair.2 pair.1 type) rfl
    (·.erase pair.1)
  refine ⟨posts, hlength, hposts, ?_⟩
  unfold addTopic
  refine .of_ok_bind (get_apply s) (.of_ok_bind (getItem_apply s htype) ?_)
  rw [if_pos hpaused]
  exact hasks

theorem topology_apply {tree : Topology} (h : s.config.topology = some tree) :
    topology s = .ok tree s := by
  simp [topology, h]

/-- Where nothing is missing, the tree of a topic is requested. -/
theorem topicTree_sends {s : SgcSwarm} {topic type : String}
    (htype : s.topicDict.get? topic = some type)
    (hqos : topic ∈ s.topicQosDict.keys) (action : String) (node : Node) :
    ∃ posts, posts.length = node.ends s.instanceIdentifier ∧
      posts.filterMap Post.operation? = [] ∧
      SendsAll (constructTreeBySendingRequestTopic hexdigest node topic action) s posts := by
  obtain ⟨qos, hqos⟩ := PyDict.mem_keys.1 hqos
  refine ⟨_, length_constructTopic hexdigest .., operations_of_routing (fun _ => rfl) ?_,
    sendsAll_constructTopic hexdigest htype hqos action node⟩
  exact fun edge json hjson => apiOp_topicEdgeRequests hjson

theorem serviceTree_sends {s : SgcSwarm} {service type : String}
    (htype : s.serviceDict.get? service = some type) (hqos : service ∈ s.serviceQosDict.keys)
    (node : Node) :
    ∃ posts, posts.length = 2 * node.ends s.instanceIdentifier ∧
      posts.filterMap Post.operation? = [] ∧
      SendsAll (constructTreeBySendingRequestService hexdigest node service) s posts := by
  obtain ⟨qos, hqos⟩ := PyDict.mem_keys.1 hqos
  refine ⟨_, length_constructService hexdigest .., operations_of_routing (fun _ => rfl) ?_,
    sendsAll_constructService hexdigest htype hqos node⟩
  exact fun edge json hjson => apiOp_serviceEdgeRequests hjson

theorem addTopic_new (h : pair.1 ∈ s.topicDict.keys) (hqos : pair.1 ∈ s.topicQosDict.keys)
    (hpaused : pair.1 ∉ s.pausedTopics) (htopology : s.config.topology.isSome) :
    ∃ posts, posts.length = 1 + s.ends ∧
      posts.filterMap Post.operation? = [(.add, s.topicKey pair)] ∧
      Asks (addTopic hexdigest pair) s posts.length () (s.requested posts s.pausedTopics) := by
  obtain ⟨type, htype⟩ := PyDict.mem_keys.1 h
  obtain ⟨tree, htree⟩ := Option.isSome_iff_exists.1 htopology
  set added : Post := ⟨"http://" ++ s.sgcAddress ++ "/topic", rosTopic "add" pair.2 pair.1 type⟩
  obtain ⟨posts, hlength, hposts, hconstruct⟩ :=
    topicTree_sends hexdigest (s := s.sent [added]) htype hqos pair.2 (buildTree tree)
  refine ⟨[added] ++ posts, ?_, ?_, ?_⟩
  · rw [List.length_append, hlength, s.ends_eq htree]
    rfl
  · rw [List.filterMap_append, hposts]
    rfl
  · unfold addTopic
    refine .of_ok_bind (get_apply s) (.of_ok_bind (getItem_apply s htype) ?_)
    rw [if_neg hpaused]
    refine SendsAll.bind asks_post ?_
    exact .of_ok_bind (topology_apply htree) hconstruct

theorem addService_new (h : pair.1 ∈ s.serviceDict.keys) (hqos : pair.1 ∈ s.serviceQosDict.keys)
    (hpaused : pair.1 ∉ s.pausedServices) (htopology : s.config.topology.isSome) :
    ∃ posts, posts.length = 1 + 2 * s.ends ∧
      posts.filterMap Post.operation? = [(.add, s.serviceKey pair)] ∧
      Asks (addService hexdigest pair) s posts.length () (s.requested posts s.pausedTopics) := by
  obtain ⟨type, htype⟩ := PyDict.mem_keys.1 h
  obtain ⟨tree, htree⟩ := Option.isSome_iff_exists.1 htopology
  set added : Post :=
    ⟨"http://" ++ s.sgcAddress ++ "/service", rosTopic "add" pair.2 pair.1 type⟩
  obtain ⟨posts, hlength, hposts, hconstruct⟩ :=
    serviceTree_sends hexdigest (s := s.sent [added]) htype hqos (buildTree tree)
  refine ⟨[added] ++ posts, ?_, ?_, ?_⟩
  · rw [List.length_append, hlength, s.ends_eq htree]
    rfl
  · rw [List.filterMap_append, hposts]
    rfl
  · unfold addService
    refine .of_ok_bind (get_apply s) (.of_ok_bind (getItem_apply s htype) ?_)
    rw [if_neg hpaused]
    refine SendsAll.bind asks_post ?_
    exact .of_ok_bind (topology_apply htree) hconstruct

end Runs

variable {s : SgcSwarm} {live gone live' gone' : List Key} {pair : String × String}

/-- Requests that are one operation, and a list of paused names that goes with it. -/
theorem Tracks.requested (h : Tracks s live gone) {posts : List Post} {pausedTopics : List String}
    {operation : Lifecycle × Key} (hposts : posts.filterMap Post.operation? = [operation])
    (hallowed : s.ledger.Allows operation)
    (hsplits : (s.ledger.record operation).Splits live' gone')
    (htopics : ∀ key ∈ gone', ∃ pair, key = s.topicKey pair)
    (hpaused : pausedTopics.Perm (gone'.map fun key => key.2.1)) :
    Tracks (s.requested posts pausedTopics) live' gone' := by
  have hoperations := operations_requested s posts pausedTopics
  rw [hposts] at hoperations
  refine ⟨h.answering, ?_, ?_, htopics, hpaused, h.services⟩
  · rw [hoperations]
    exact Ledger.obeyed_concat h.obeyed hallowed
  · unfold SgcSwarm.ledger
    rw [hoperations, Ledger.of_concat]
    exact hsplits

/-- The method completes, leaves the assignment as it is, and the bookkeeping is at `live`
and `gone` then. -/
def Advances (x : Py Unit) (s : SgcSwarm) (live gone : List Key) : Prop :=
  ∃ s', x s = .ok () s' ∧ SameConfig s s' ∧ s'.assignmentDict = s.assignmentDict ∧
    Tracks s' live gone

theorem Tracks.revoke (h : Tracks s (s.topicKey pair :: live) gone)
    (hdeclared : pair.1 ∈ s.topicDict.keys) :
    Advances (revokeTopic pair) s live (gone ++ [s.topicKey pair]) := by
  obtain ⟨posts, -, hposts, hasks⟩ := revokeTopic_declared hdeclared
  have hrun := hasks.returns (h.answering.answers _)
  refine ⟨_, hrun, .requested .., rfl, h.requested hposts h.splits.allows_del h.splits.del ?_ ?_⟩
  · intro key hkey
    rcases List.mem_append.1 hkey with hkey | hkey
    · exact h.topics key hkey
    · exact ⟨pair, List.mem_singleton.1 hkey⟩
  · rw [List.map_append]
    exact h.paused.append_right _

section Add

variable {hexdigest : Bytes → String}

/-- A name is paused while a pair of it is. -/
theorem Tracks.mem_paused (h : Tracks s live gone) {name : String} :
    name ∈ s.pausedTopics ↔ ∃ action, s.topicKey (name, action) ∈ gone := by
  rw [h.paused.mem_iff, List.mem_map]
  constructor
  · rintro ⟨key, hkey, rfl⟩
    obtain ⟨pair, rfl⟩ := h.topics key hkey
    exact ⟨pair.2, hkey⟩
  · rintro ⟨action, hkey⟩
    exact ⟨_, hkey, rfl⟩

theorem Tracks.resume (h : Tracks s live gone) (hgone : s.topicKey pair ∈ gone)
    (hdeclared : pair.1 ∈ s.topicDict.keys) :
    Advances (addTopic hexdigest pair) s (live ++ [s.topicKey pair])
      (gone.erase (s.topicKey pair)) := by
  have hpaused : pair.1 ∈ s.pausedTopics := h.mem_paused.2 ⟨pair.2, hgone⟩
  obtain ⟨posts, -, hposts, hasks⟩ := addTopic_paused hexdigest hdeclared hpaused
  have hrun := hasks.returns (h.answering.answers _)
  have hrest := List.perm_cons_erase hgone
  refine ⟨_, hrun, .requested .., rfl,
    h.requested hposts (h.splits.allows_resume hgone) (h.splits.resume hrest) ?_ ?_⟩
  · intro key hkey
    exact h.topics key (List.mem_of_mem_erase hkey)
  · have hperm := h.paused.trans (hrest.map fun key => key.2.1)
    rw [List.map_cons] at hperm
    exact (hperm.erase pair.1).trans (by rw [SgcSwarm.topicKey, List.erase_cons_head])

theorem Tracks.addTopic (h : Tracks s live gone) (hlive : s.topicKey pair ∉ live)
    (hgone : ∀ action, s.topicKey (pair.1, action) ∉ gone) (hdeclared : pair.1 ∈ s.topicDict.keys)
    (hqos : pair.1 ∈ s.topicQosDict.keys) (htopology : s.config.topology.isSome = true) :
    Advances (addTopic hexdigest pair) s (live ++ [s.topicKey pair]) gone := by
  have hpaused : pair.1 ∉ s.pausedTopics := fun hmem =>
    let ⟨action, hkey⟩ := h.mem_paused.1 hmem
    hgone action hkey
  obtain ⟨posts, -, hposts, hasks⟩ := addTopic_new hexdigest hdeclared hqos hpaused htopology
  have hrun := hasks.returns (h.answering.answers _)
  exact ⟨_, hrun, .requested .., rfl,
    h.requested hposts (h.splits.allows_add hlive (hgone pair.2))
      (h.splits.add hlive (hgone pair.2)) h.topics h.paused⟩

variable (hexdigest) in
theorem Tracks.addService (h : Tracks s live gone) (hlive : s.serviceKey pair ∉ live)
    (hdeclared : pair.1 ∈ s.serviceDict.keys) (hqos : pair.1 ∈ s.serviceQosDict.keys)
    (htopology : s.config.topology.isSome = true) :
    Advances (addService hexdigest pair) s (live ++ [s.serviceKey pair]) gone := by
  have hgone : s.serviceKey pair ∉ gone := fun hmem =>
    let ⟨other, hkey⟩ := h.topics _ hmem
    topicKey_ne_serviceKey s other pair hkey.symm
  have hpaused : pair.1 ∉ s.pausedServices := by
    rw [h.services]
    exact List.not_mem_nil
  obtain ⟨posts, -, hposts, hasks⟩ := addService_new hexdigest hdeclared hqos hpaused htopology
  have hrun := hasks.returns (h.answering.answers _)
  exact ⟨_, hrun, .requested .., rfl,
    h.requested hposts (h.splits.allows_add hlive hgone) (h.splits.add hlive hgone) h.topics
      h.paused⟩

end Add

/-! ## The loops -/

theorem SameConfig.topicKey {s' : SgcSwarm} (h : SameConfig s s') : s'.topicKey = s.topicKey := by
  unfold SgcSwarm.topicKey
  rw [h.sgcAddress]

theorem SameConfig.serviceKey {s' : SgcSwarm} (h : SameConfig s s') :
    s'.serviceKey = s.serviceKey := by
  unfold SgcSwarm.serviceKey
  rw [h.sgcAddress]

theorem Tracks.done (h : Tracks s live gone) : Advances (pure ()) s live gone :=
  ⟨s, rfl, .refl s, rfl, h⟩

theorem Advances.of_run {α : Type} {x : Py α} {a : α} {f : α → Py Unit} {s' : SgcSwarm}
    (hrun : x s = .ok a s') (hsame : SameConfig s s')
    (hassignment : s'.assignmentDict = s.assignmentDict) (h : Advances (f a) s' live gone) :
    Advances (x >>= f) s live gone := by
  obtain ⟨s'', hrun', hsame', hassignment', htracks⟩ := h
  refine ⟨s'', ?_, hsame.trans hsame', hassignment'.trans hassignment, htracks⟩
  rw [bind_apply, hrun]
  exact hrun'

theorem Advances.bind {x : Py Unit} {f : Unit → Py Unit} (h : Advances x s live gone)
    (hnext : ∀ s', SameConfig s s' → Tracks s' live gone → Advances (f ()) s' live' gone') :
    Advances (x >>= f) s live' gone' := by
  obtain ⟨s', hrun, hsame, hassignment, htracks⟩ := h
  exact .of_run hrun hsame hassignment (hnext s' hsame htracks)

theorem Tracks.revokeAll {topics : Actions} (h : Tracks s (topics.map s.topicKey ++ live) gone)
    (hdeclared : ∀ pair ∈ topics, pair.1 ∈ s.topicDict.keys) :
    Advances (topics.forM revokeTopic) s live (gone ++ topics.map s.topicKey) := by
  induction topics generalizing s gone with
  | nil =>
    rw [List.map_nil, List.append_nil]
    exact h.done
  | cons pair topics ih =>
    obtain ⟨hpair, hrest⟩ := List.forall_mem_cons.1 hdeclared
    refine Advances.bind (h.revoke hpair) fun s' hsame htracks => ?_
    rw [← hsame.topicKey] at htracks ⊢
    rw [← hsame.topicDict] at hrest
    have hloop := ih htracks hrest
    rwa [List.append_assoc, List.singleton_append] at hloop

/-- The pairs can be added in this order: none is there already or twice, and a new pair
comes after all paused ones of its name. -/
structure Addable (s : SgcSwarm) (live gone : List Key) (topics : Actions) : Prop where
  distinct : topics.Nodup
  fresh : ∀ pair ∈ topics, s.topicKey pair ∉ live
  order : ∀ before pair after, topics = before ++ pair :: after → s.topicKey pair ∉ gone →
    ∀ action, s.topicKey (pair.1, action) ∈ gone → (pair.1, action) ∈ before

theorem topicKey_injective (s : SgcSwarm) : Function.Injective s.topicKey :=
  fun _ _ h => (Prod.mk.inj h).2

theorem serviceKey_injective (s : SgcSwarm) : Function.Injective s.serviceKey :=
  fun _ _ h => (Prod.mk.inj h).2

/-- The first pair is added; the keys `gone'` are those paused then. -/
theorem Addable.tail {topics : Actions} (h : Addable s live gone (pair :: topics))
    (hgone : ∀ key, key ∈ gone' ↔ key ∈ gone ∧ key ≠ s.topicKey pair) :
    Addable s (live ++ [s.topicKey pair]) gone' topics := by
  obtain ⟨hpair, hdistinct⟩ := List.nodup_cons.1 h.distinct
  have hne : ∀ other ∈ topics, s.topicKey other ≠ s.topicKey pair := by
    intro other hother heq
    exact hpair (topicKey_injective s heq ▸ hother)
  refine ⟨hdistinct, fun other hother => ?_, ?_⟩
  · rw [List.mem_append, List.mem_singleton, not_or]
    exact ⟨h.fresh other (List.mem_cons_of_mem _ hother), hne other hother⟩
  · rintro before other after rfl hother action haction
    obtain ⟨haction, hnot⟩ := (hgone _).1 haction
    have hnew : s.topicKey other ∉ gone := fun hmem =>
      hother ((hgone _).2 ⟨hmem, hne other (by simp)⟩)
    rcases List.mem_cons.1 (h.order (pair :: before) other after rfl hnew action haction) with
      heq | hbefore
    · exact absurd (congrArg s.topicKey heq) hnot
    · exact hbefore

section Loops

variable (hexdigest : Bytes → String)

theorem Tracks.addTopics {topics : Actions} (h : Tracks s live gone)
    (haddable : Addable s live gone topics) (hdeclared : ∀ pair ∈ topics, pair.1 ∈ s.topicDict.keys)
    (hqos : ∀ name ∈ s.topicDict.keys, name ∈ s.topicQosDict.keys)
    (htopology : (∃ pair ∈ topics, s.topicKey pair ∉ gone) → s.config.topology.isSome = true) :
    ∃ gone', Advances (topics.forM (Swarm.addTopic hexdigest)) s
      (live ++ topics.map s.topicKey) gone' := by
  induction topics generalizing s live gone with
  | nil =>
    rw [List.map_nil, List.append_nil]
    exact ⟨gone, h.done⟩
  | cons pair topics ih =>
    obtain ⟨hpair, hrest⟩ := List.forall_mem_cons.1 hdeclared
    have hne : ∀ other ∈ topics, s.topicKey other ≠ s.topicKey pair := by
      intro other hother heq
      exact (List.nodup_cons.1 haddable.distinct).1 (topicKey_injective s heq ▸ hother)
    -- the first pair is resumed or added, and what is paused loses it
    obtain ⟨gone₁, hgone₁, hfirst⟩ : ∃ gone₁,
        (∀ key, key ∈ gone₁ ↔ key ∈ gone ∧ key ≠ s.topicKey pair) ∧
        Advances (Swarm.addTopic hexdigest pair) s (live ++ [s.topicKey pair]) gone₁ := by
      by_cases hgone : s.topicKey pair ∈ gone
      · refine ⟨_, fun key => ?_, h.resume hgone hpair⟩
        rw [h.splits.nodup_gone.mem_erase_iff, and_comm]
      · refine ⟨gone, fun key => ?_, h.addTopic (haddable.fresh pair (by simp)) ?_ hpair
          (hqos _ hpair) (htopology ⟨pair, by simp, hgone⟩)⟩
        · exact ⟨fun hkey => ⟨hkey, fun heq => hgone (heq ▸ hkey)⟩, And.left⟩
        · intro action haction
          cases haddable.order [] pair topics rfl hgone action haction
    obtain ⟨s₁, hrun, hsame, hassignment, htracks⟩ := hfirst
    have htail := haddable.tail hgone₁
    obtain ⟨gone', hloop⟩ := ih htracks ⟨htail.distinct, hsame.topicKey ▸ htail.fresh,
      hsame.topicKey ▸ htail.order⟩ (hsame.topicDict ▸ hrest)
      (by rw [hsame.topicDict, hsame.topicQosDict]; exact hqos) (by
        rw [hsame.topicKey, hsame.config]
        rintro ⟨other, hother, hnot⟩
        refine htopology ⟨other, List.mem_cons_of_mem _ hother, fun hmem => hnot ?_⟩
        exact (hgone₁ _).2 ⟨hmem, hne other hother⟩)
    rw [hsame.topicKey, List.append_assoc, List.singleton_append] at hloop
    exact ⟨gone', .of_run hrun hsame hassignment hloop⟩

theorem Tracks.addServices {services : Actions} (h : Tracks s live gone)
    (hdistinct : services.Nodup) (hfresh : ∀ pair ∈ services, s.serviceKey pair ∉ live)
    (hdeclared : ∀ pair ∈ services, pair.1 ∈ s.serviceDict.keys)
    (hqos : ∀ name ∈ s.serviceDict.keys, name ∈ s.serviceQosDict.keys)
    (htopology : services ≠ [] → s.config.topology.isSome = true) :
    Advances (services.forM (Swarm.addService hexdigest)) s
      (live ++ services.map s.serviceKey) gone := by
  induction services generalizing s live with
  | nil =>
    rw [List.map_nil, List.append_nil]
    exact h.done
  | cons pair services ih =>
    obtain ⟨hpair, hrest⟩ := List.forall_mem_cons.1 hdeclared
    obtain ⟨hnew, hdistinct⟩ := List.nodup_cons.1 hdistinct
    have hadded := h.addService hexdigest (hfresh pair (by simp)) hpair
      (hqos _ hpair) (htopology (by simp))
    refine hadded.bind fun s' hsame htracks => ?_
    have hloop := ih htracks hdistinct (fun other hother => ?_) (hsame.serviceDict ▸ hrest)
      (by rw [hsame.serviceDict, hsame.serviceQosDict]; exact hqos)
      (by rw [hsame.config]; exact fun _ => htopology (by simp))
    · rwa [hsame.serviceKey, List.append_assoc, List.singleton_append] at hloop
    · rw [hsame.serviceKey, List.mem_append, List.mem_singleton, not_or]
      refine ⟨hfresh other (List.mem_cons_of_mem _ hother), fun heq => hnew ?_⟩
      exact serviceKey_injective s heq ▸ hother

end Loops

/-! ## One assignment -/

/-- The lists of a state, where both are present. -/
def Describes (s : SgcSwarm) (state : String) (topics services : Actions) : Prop :=
  ∃ name, s.stateDict.get? state = some ⟨name, some topics, some services⟩

/-- This machine, so far in no state or in one without services, can enter `state`: it
stays only in a state that lists nothing; the pairs of each list differ, and a topic pair
that was never added comes after all pairs of its name that were; what the state lists is
declared, and there is a topology if something is added. -/
structure CanEnter (s : SgcSwarm) (state : String) : Prop where
  leaves : ∀ previous topics services,
    s.assignmentDict.get? s.instanceIdentifier = some previous →
    Describes s previous topics services → services = [] ∧ (previous = state → topics = [])
  topics : ∀ topics services, Describes s state topics services →
    topics.Nodup ∧ (∀ pair ∈ topics, pair.1 ∈ s.topicDict.keys) ∧
    ∀ before pair after, topics = before ++ pair :: after →
      s.ledger.added (s.topicKey pair) = false →
      s.config.topology.isSome = true ∧
      ∀ action, s.ledger.added (s.topicKey (pair.1, action)) = true → (pair.1, action) ∈ before
  services : ∀ topics services, Describes s state topics services →
    services.Nodup ∧ (∀ pair ∈ services, pair.1 ∈ s.serviceDict.keys) ∧
    (services ≠ [] → s.config.topology.isSome = true)

/-- The configuration has all lists, and what is active is what the current state lists. -/
structure Current (s : SgcSwarm) : Prop where
  topicQos : ∀ name ∈ s.topicDict.keys, name ∈ s.topicQosDict.keys
  serviceQos : ∀ name ∈ s.serviceDict.keys, name ∈ s.serviceQosDict.keys
  present : ∀ state ∈ s.stateDict.keys, ∃ topics services, Describes s state topics services
  unassigned : s.assignmentDict.get? s.instanceIdentifier = none → Tracks s [] []
  assigned : ∀ state, s.assignmentDict.get? s.instanceIdentifier = some state →
    ∃ topics services gone, Describes s state topics services ∧
      (∀ pair ∈ topics, pair.1 ∈ s.topicDict.keys) ∧
      Tracks s (topics.map s.topicKey ++ services.map s.serviceKey) gone

/-- Whatever was added is paused once the previous state is revoked. -/
theorem Current.revoke {state : String} (h : Current s) (henter : CanEnter s state) :
    ∃ gone, Advances (revoke (s.assignmentDict.get? s.instanceIdentifier) state) s [] gone ∧
      ∀ key, key ∈ gone ↔ s.ledger.added key = true := by
  cases hprevious : s.assignmentDict.get? s.instanceIdentifier with
  | none =>
    have htracks := h.unassigned hprevious
    refine ⟨[], htracks.done, fun key => ?_⟩
    rw [htracks.splits.added]
    simp
  | some previous =>
    obtain ⟨topics, services, gone, hdescribes, hdeclared, htracks⟩ := h.assigned previous hprevious
    obtain ⟨rfl, hstays⟩ := henter.leaves previous topics services hprevious hdescribes
    rw [List.map_nil, List.append_nil] at htracks
    have hadded := htracks.splits.added
    unfold Swarm.revoke
    dsimp only
    split
    · rename_i hsame
      rw [hstays hsame, List.map_nil] at htracks hadded
      refine ⟨gone, htracks.done, fun key => ?_⟩
      rw [hadded]
      simp
    · refine ⟨gone ++ topics.map s.topicKey, ?_, fun key => ?_⟩
      · obtain ⟨name, hmachine⟩ := hdescribes
        refine .of_run (get_apply s) (.refl s) rfl ?_
        refine .of_run (getItem_apply s hmachine) (.refl s) rfl ?_
        rw [← List.append_nil (topics.map s.topicKey)] at htracks
        exact htracks.revokeAll hdeclared
      · rw [List.mem_append, hadded, or_comm]

section Changes

variable (hexdigest : Bytes → String)

theorem Current.changeState {state : String} {topics services : Actions} (h : Current s)
    (henter : CanEnter s state) (hdescribes : Describes s state topics services) :
    ∃ gone, Advances (changeState hexdigest state) s
      (topics.map s.topicKey ++ services.map s.serviceKey) gone := by
  obtain ⟨gone, ⟨s₁, hrevoke, hsame, hassignment, htracks⟩, hgone⟩ := h.revoke henter
  obtain ⟨htopics, hdeclared, horder⟩ := henter.topics topics services hdescribes
  obtain ⟨hservices, hdeclared', htopology⟩ := henter.services topics services hdescribes
  obtain ⟨name, hmachine⟩ := hdescribes
  have hnew : ∀ key, key ∉ gone → s.ledger.added key = false := fun key hkey => by
    rwa [hgone, Bool.not_eq_true] at hkey
  have haddable : Addable s₁ [] gone topics := by
    refine ⟨htopics, fun _ _ => List.not_mem_nil, fun before pair after hsplit hpair action => ?_⟩
    rw [hsame.topicKey] at hpair ⊢
    rw [hgone]
    exact (horder before pair after hsplit (hnew _ hpair)).2 action
  obtain ⟨gone', s₂, hadd, hsame', hassignment', htracks'⟩ :=
    htracks.addTopics hexdigest haddable (hsame.topicDict ▸ hdeclared)
      (by rw [hsame.topicDict, hsame.topicQosDict]; exact h.topicQos) (by
        rw [hsame.topicKey, hsame.config]
        rintro ⟨pair, hpair, hkey⟩
        obtain ⟨before, after, hsplit⟩ := List.append_of_mem hpair
        exact (horder before pair after hsplit (hnew _ hkey)).1)
  have hboth := hsame.trans hsame'
  rw [List.nil_append, hsame.topicKey, ← hboth.topicKey] at htracks'
  have hservicesRun := htracks'.addServices hexdigest hservices
    (fun pair _ hmem => by
      obtain ⟨other, -, heq⟩ := List.mem_map.1 hmem
      exact topicKey_ne_serviceKey s₂ other pair heq)
    (hboth.serviceDict ▸ hdeclared')
    (by rw [hboth.serviceDict, hboth.serviceQosDict]; exact h.serviceQos)
    (by rw [hboth.config]; exact htopology)
  rw [hboth.topicKey, hboth.serviceKey] at hservicesRun
  refine ⟨gone', .of_run (get_apply s) (.refl s) rfl (.of_run hrevoke hsame hassignment ?_)⟩
  refine .of_run (getItem_apply s₁ hmachine) (.refl s₁) rfl ?_
  exact .of_run hadd hsame' hassignment' hservicesRun

/-! ## The assignment of all machines -/

def SgcSwarm.assign (s : SgcSwarm) (machine state : String) : SgcSwarm :=
  { s with assignmentDict := s.assignmentDict.set machine state }

theorem SameConfig.assign (s : SgcSwarm) (machine state : String) :
    SameConfig s (s.assign machine state) := ⟨rfl, rfl, rfl, rfl, rfl, rfl, rfl, rfl, rfl⟩

theorem Tracks.assign (h : Tracks s live gone) (machine state : String) :
    Tracks (s.assign machine state) live gone :=
  ⟨h.answering, h.obeyed, h.splits, h.topics, h.paused, h.services⟩

theorem Current.assign_other {machine : String} (h : Current s)
    (hmachine : machine ≠ s.instanceIdentifier) (state : String) :
    Current (s.assign machine state) := by
  have hget : (s.assign machine state).assignmentDict.get? s.instanceIdentifier =
      s.assignmentDict.get? s.instanceIdentifier := PyDict.get?_set_of_ne _ hmachine.symm _
  refine ⟨h.topicQos, h.serviceQos, h.present, fun hnone => ?_, fun current hcurrent => ?_⟩
  · exact (h.unassigned (hget.symm.trans hnone)).assign machine state
  · obtain ⟨topics, services, gone, hdescribes, hdeclared, htracks⟩ :=
      h.assigned current (hget.symm.trans hcurrent)
    exact ⟨topics, services, gone, hdescribes, hdeclared, htracks.assign machine state⟩

theorem CanEnter.assign_other {machine state : String} (h : CanEnter s state)
    (hmachine : machine ≠ s.instanceIdentifier) (other : String) :
    CanEnter (s.assign machine other) state := by
  refine ⟨fun previous topics services hprevious => ?_, h.topics, h.services⟩
  exact h.leaves previous topics services
    ((PyDict.get?_set_of_ne _ hmachine.symm _).symm.trans hprevious)

theorem Current.assign_self {state : String} (h : Current s) (henter : CanEnter s state)
    (hstate : state ∈ s.stateDict.keys) :
    ∃ s', assignMachine hexdigest (s.instanceIdentifier, state) s = .ok () s' ∧ SameConfig s s' ∧
      Current s' := by
  obtain ⟨topics, services, hdescribes⟩ := h.present state hstate
  obtain ⟨gone, s', hrun, hsame, -, htracks⟩ := h.changeState hexdigest henter hdescribes
  refine ⟨s'.assign s.instanceIdentifier state, ?_, hsame.trans (.assign ..), ?_⟩
  · simp [assignMachine, hrun, SgcSwarm.assign]
  · have hget : (s'.assign s.instanceIdentifier state).assignmentDict.get?
        (s'.assign s.instanceIdentifier state).instanceIdentifier = some state := by
      change (s'.assign _ _).assignmentDict.get? s'.instanceIdentifier = _
      rw [hsame.instanceIdentifier]
      exact PyDict.get?_set_self ..
    refine ⟨?_, ?_, ?_, fun hnone => ?_, fun current hcurrent => ?_⟩
    · change ∀ name ∈ s'.topicDict.keys, name ∈ s'.topicQosDict.keys
      rw [hsame.topicDict, hsame.topicQosDict]
      exact h.topicQos
    · change ∀ name ∈ s'.serviceDict.keys, name ∈ s'.serviceQosDict.keys
      rw [hsame.serviceDict, hsame.serviceQosDict]
      exact h.serviceQos
    · intro other hother
      change other ∈ s'.stateDict.keys at hother
      change ∃ topics services, ∃ name, s'.stateDict.get? other = _
      rw [hsame.stateDict] at hother ⊢
      exact h.present other hother
    · rw [hget] at hnone
      cases hnone
    · rw [hget] at hcurrent
      cases hcurrent
      refine ⟨topics, services, gone, ?_, ?_, ?_⟩
      · change ∃ name, s'.stateDict.get? state = _
        rw [hsame.stateDict]
        exact hdescribes
      · change ∀ pair ∈ topics, pair.1 ∈ s'.topicDict.keys
        rw [hsame.topicDict]
        exact (henter.topics topics services hdescribes).2.1
      · change Tracks _ (topics.map s'.topicKey ++ services.map s'.serviceKey) gone
        rw [hsame.topicKey, hsame.serviceKey]
        exact htracks.assign ..

theorem Current.assignMachines {entries : List (String × String)} (h : Current s)
    (hdistinct : (entries.map Prod.fst).Nodup)
    (henter : ∀ state, (s.instanceIdentifier, state) ∈ entries →
      state ∈ s.stateDict.keys ∧ CanEnter s state) :
    ∃ s', entries.forM (assignMachine hexdigest) s = .ok () s' ∧ SameConfig s s' ∧
      Current s' := by
  induction entries generalizing s with
  | nil => exact ⟨s, rfl, .refl s, h⟩
  | cons entry entries ih =>
    obtain ⟨hnew, hrest⟩ := List.nodup_cons.1 hdistinct
    obtain ⟨machine, state⟩ := entry
    obtain ⟨s₁, hrun, hsame, hcurrent, hlater⟩ : ∃ s₁,
        assignMachine hexdigest (machine, state) s = .ok () s₁ ∧ SameConfig s s₁ ∧ Current s₁ ∧
        ∀ other, (s.instanceIdentifier, other) ∈ entries →
          other ∈ s.stateDict.keys ∧ CanEnter s₁ other := by
      by_cases hmachine : machine = s.instanceIdentifier
      · subst hmachine
        obtain ⟨hstate, hcan⟩ := henter state List.mem_cons_self
        obtain ⟨s₁, hrun, hsame, hcurrent⟩ := h.assign_self hexdigest hcan hstate
        refine ⟨s₁, hrun, hsame, hcurrent, fun other hother => ?_⟩
        exact absurd (List.mem_map_of_mem hother) hnew
      · refine ⟨s.assign machine state, ?_, .assign .., h.assign_other hmachine state,
          fun other hother => ?_⟩
        · simp [assignMachine, hmachine, SgcSwarm.assign]
        · obtain ⟨hstate, hcan⟩ := henter other (List.mem_cons_of_mem _ hother)
          exact ⟨hstate, hcan.assign_other hmachine state⟩
    obtain ⟨s', hloop, hsame', hcurrent'⟩ := ih hcurrent hrest (by
      rw [hsame.instanceIdentifier, hsame.stateDict]
      exact hlater)
    refine ⟨s', ?_, hsame.trans hsame', hcurrent'⟩
    change (assignMachine hexdigest (machine, state) >>= fun _ =>
      entries.forM (assignMachine hexdigest)) s = _
    rw [bind_apply, hrun]
    exact hloop

/-! ## Runs -/

/-- A call of `apply_assignment`. -/
def SgcSwarm.step (s : SgcSwarm) (newAssignmentDict : PyDict String String) : SgcSwarm :=
  after (applyAssignment hexdigest newAssignmentDict) s

/-- If the call assigns a state to this machine, it can enter it. -/
def Orderly (s : SgcSwarm) (newAssignmentDict : PyDict String String) : Prop :=
  ∀ state, newAssignmentDict.get? s.instanceIdentifier = some state → CanEnter s state

theorem Current.applyAssignment (h : Current s) {newAssignmentDict : PyDict String String}
    (horderly : Orderly s newAssignmentDict)
    (hdeclared : ∀ state, newAssignmentDict.get? s.instanceIdentifier = some state →
      state ∈ s.stateDict.keys) :
    ∃ s', applyAssignment hexdigest newAssignmentDict s = .ok () s' ∧ SameConfig s s' ∧
      Current s' := by
  refine h.assignMachines hexdigest newAssignmentDict.nodup fun state hstate => ?_
  have hget := PyDict.get?_eq_some_iff.2 hstate
  exact ⟨hdeclared state hget, horderly state hget⟩

theorem Current.active_iff (h : Current s) (key : Key) :
    s.ledger.active key = true ↔ s.Lists key := by
  unfold SgcSwarm.Lists
  cases hcurrent : s.assignmentDict.get? s.instanceIdentifier with
  | none =>
    rw [(h.unassigned hcurrent).splits.active]
    simp
  | some state =>
    obtain ⟨topics, services, gone, ⟨name, hmachine⟩, -, htracks⟩ := h.assigned state hcurrent
    rw [htracks.splits.active, List.mem_append]
    constructor
    · intro hkey
      exact ⟨state, _, rfl, hmachine, hkey⟩
    · rintro ⟨_, machine, hstate, hmachine', hkey⟩
      cases hstate
      cases hmachine.symm.trans hmachine'
      exact hkey

theorem Current.obeyed (h : Current s) : Ledger.Obeyed s.operations := by
  cases hcurrent : s.assignmentDict.get? s.instanceIdentifier with
  | none => exact (h.unassigned hcurrent).obeyed
  | some state =>
    obtain ⟨_, _, _, -, -, htracks⟩ := h.assigned state hcurrent
    exact htracks.obeyed

theorem current_loaded {router : Nat → PostOutcome} (hanswering : Answering router)
    {config : Config}
    (hpresent : ∀ state description, (state, description) ∈ config.stateMachine.entries →
      ∃ topics services, description = some ⟨some topics, some services⟩)
    (sgcAddress whoami : String) : Current (loaded router config sgcAddress whoami) := by
  refine ⟨fun name hname => ?_, fun name hname => ?_, fun state hstate => ?_, fun _ => ?_, nofun⟩
  · exact mem_keys_loadQos.2 (mem_keys_loadTypes.1 hname)
  · exact mem_keys_loadQos.2 (mem_keys_loadTypes.1 hname)
  · obtain ⟨machine, hmachine⟩ := PyDict.mem_keys.1 hstate
    obtain ⟨description, hdescription, rfl⟩ := get?_loadStateMachine hmachine
    obtain ⟨topics, services, rfl⟩ := hpresent state description hdescription
    exact ⟨topics, services, state, hmachine⟩
  · exact ⟨hanswering, Ledger.obeyed_nil, .initial, nofun, .nil, rfl⟩

/-- **Main result.**  For every configuration with all lists present, every router that
responds and every sequence of assignments of declared states, each of which the machine can
enter: no call raises, the requests obey the life cycle, and what is active is what the current
state lists. -/
theorem requests_obey_life_cycle {router : Nat → PostOutcome} (hanswering : Answering router)
    {config : Config}
    (hpresent : ∀ state description, (state, description) ∈ config.stateMachine.entries →
      ∃ topics services, description = some ⟨some topics, some services⟩)
    {sgcAddress whoami : String} {assignments : List (PyDict String String)}
    (hdeclared : ∀ newAssignmentDict ∈ assignments, ∀ state,
      newAssignmentDict.get? whoami = some state → state ∈ config.stateMachine.keys)
    (horderly : Run.Throughout (SgcSwarm.step hexdigest) Orderly
      (loaded router config sgcAddress whoami) assignments) :
    Ledger.Obeyed (Run.after (SgcSwarm.step hexdigest) (loaded router config sgcAddress whoami)
        assignments).operations ∧
      (∀ key, (Run.after (SgcSwarm.step hexdigest) (loaded router config sgcAddress whoami)
          assignments).ledger.active key = true ↔
        (Run.after (SgcSwarm.step hexdigest) (loaded router config sgcAddress whoami)
          assignments).Lists key) ∧
      Run.Throughout (SgcSwarm.step hexdigest)
        (fun s newAssignmentDict => Completes (applyAssignment hexdigest newAssignmentDict) s)
        (loaded router config sgcAddress whoami) assignments := by
  have hinitial := current_loaded hanswering hpresent sgcAddress whoami
  have hconditions := horderly.and (Run.throughout_of_forall _ hdeclared)
  have hrun : ∀ s newAssignmentDict,
      (Current s ∧ SameConfig (loaded router config sgcAddress whoami) s) →
      (Orderly s newAssignmentDict ∧ ∀ state, newAssignmentDict.get? whoami = some state →
        state ∈ config.stateMachine.keys) →
      ∃ s', applyAssignment hexdigest newAssignmentDict s = .ok () s' ∧ SameConfig s s' ∧
        Current s' := by
    rintro s newAssignmentDict ⟨hcurrent, hsame⟩ ⟨horderly, hdeclared⟩
    refine hcurrent.applyAssignment hexdigest horderly fun state hstate => ?_
    rw [hsame.instanceIdentifier] at hstate
    rw [hsame.stateDict]
    exact mem_keys_loadStateMachine.2 (hdeclared state hstate)
  have hstep : ∀ s newAssignmentDict,
      (Current s ∧ SameConfig (loaded router config sgcAddress whoami) s) →
      (Orderly s newAssignmentDict ∧ ∀ state, newAssignmentDict.get? whoami = some state →
        state ∈ config.stateMachine.keys) →
      Current (s.step hexdigest newAssignmentDict) ∧
        SameConfig (loaded router config sgcAddress whoami)
          (s.step hexdigest newAssignmentDict) := by
    intro s newAssignmentDict hs hcondition
    obtain ⟨s', hok, hsame, hcurrent⟩ := hrun s newAssignmentDict hs hcondition
    unfold SgcSwarm.step
    rw [after_of_ok hok]
    exact ⟨hcurrent, hs.2.trans hsame⟩
  have hkept := hconditions.invariant _ hstep ⟨hinitial, .refl _⟩
  refine ⟨hkept.1.obeyed, hkept.1.active_iff, ?_⟩
  refine hconditions.of_invariant _ hstep (fun s newAssignmentDict hs hcondition => ?_)
    ⟨hinitial, .refl _⟩
  obtain ⟨s', hok, -⟩ := hrun s newAssignmentDict hs hcondition
  exact ⟨(), s', hok⟩

end Changes

/-! ## Services are never revoked -/

/-- A machine that listens to a topic, calls a service or does nothing. -/
def samConfig : Config where
  topics := some [⟨"/chatter", "std_msgs/msg/String", none⟩]
  services := some [⟨"/sam", "shared_srvs/srv/Sam", none⟩]
  stateMachine := ⟨[("idle", some ⟨some [], some []⟩),
    ("listener", some ⟨some [("/chatter", "sub")], some []⟩),
    ("client", some ⟨some [], some [("/sam", "client")]⟩)], by decide⟩
  assignment := ⟨[("machine_client", "listener")], by decide⟩
  topology := some (.node "machine_client" [.leaf "machine_server"])

def samSwarm : SgcSwarm := loaded answeringRouter samConfig "localhost:3000" "machine_client"

def assignTo (state : String) : PyDict String String :=
  ⟨[("machine_client", state)], List.nodup_singleton _⟩

/-- The swarm after the machine was assigned the states one after the other. -/
def samRun (states : List String) : SgcSwarm :=
  Run.after (SgcSwarm.step hexText) samSwarm (states.map assignTo)

theorem samConfig_present (state : String) (description : Option StateDescription)
    (h : (state, description) ∈ samConfig.stateMachine.entries) :
    ∃ topics services, description = some ⟨some topics, some services⟩ := by
  simp only [samConfig, List.mem_cons, List.not_mem_nil, or_false, Prod.mk.injEq] at h
  rcases h with ⟨-, rfl⟩ | ⟨-, rfl⟩ | ⟨-, rfl⟩
  · exact ⟨_, _, rfl⟩
  · exact ⟨_, _, rfl⟩
  · exact ⟨_, _, rfl⟩

/-- The machine goes back and forth between listening and doing nothing. -/
theorem samSwarm_canEnter {s : SgcSwarm} (hsame : SameConfig samSwarm s) {state : String}
    (hstate : state = "idle" ∨ state = "listener")
    (hprevious : ∀ previous, s.assignmentDict.get? s.instanceIdentifier = some previous →
      (previous = "idle" ∨ previous = "listener") ∧ previous ≠ state)
    (hadded : ∀ action, s.ledger.added (s.topicKey ("/chatter", action)) = true → action = "sub") :
    CanEnter s state := by
  have hlists : ∀ state topics services, (state = "idle" ∨ state = "listener") →
      Describes s state topics services →
      (topics = [] ∨ topics = [("/chatter", "sub")]) ∧ services = [] := by
    rintro state topics services (rfl | rfl) ⟨name, hname⟩
    all_goals
      rw [hsame.stateDict] at hname
      cases hname
      decide
  refine ⟨fun previous topics services hget hdescribes => ?_, fun topics services hdescribes => ?_,
    fun topics services hdescribes => ?_⟩
  · obtain ⟨hnames, hne⟩ := hprevious previous hget
    exact ⟨(hlists previous topics services hnames hdescribes).2, fun heq => absurd heq hne⟩
  · rcases (hlists state topics services hstate hdescribes).1 with rfl | rfl
    · refine ⟨List.nodup_nil, nofun, fun before pair after hsplit => ?_⟩
      simp at hsplit
    · refine ⟨List.nodup_singleton _, fun pair hpair => ?_, fun before pair after hsplit hnew => ?_⟩
      · rw [hsame.topicDict, List.mem_singleton.1 hpair]
        decide
      · obtain ⟨rfl, rfl, rfl⟩ : before = [] ∧ pair = ("/chatter", "sub") ∧ after = [] := by
          cases before with
          | nil => simpa [eq_comm] using hsplit
          | cons first before => simp at hsplit
        rw [hsame.config]
        refine ⟨rfl, fun action haction => ?_⟩
        rw [hadded action haction, hnew] at haction
        cases haction
  · rw [(hlists state topics services hstate hdescribes).2]
    exact ⟨List.nodup_nil, nofun, fun hne => absurd rfl hne⟩

theorem listener_obeys :
    Ledger.Obeyed (samRun ["listener", "idle", "listener"]).operations ∧
      ∀ key, (samRun ["listener", "idle", "listener"]).ledger.active key = true ↔
        (samRun ["listener", "idle", "listener"]).Lists key := by
  have hdeclared : ∀ newAssignmentDict ∈ ["listener", "idle", "listener"].map assignTo, ∀ state,
      newAssignmentDict.get? "machine_client" = some state →
        state ∈ samConfig.stateMachine.keys := by
    intro newAssignmentDict hmem state hstate
    simp only [List.map_cons, List.map_nil, List.mem_cons, List.not_mem_nil, or_false] at hmem
    rcases hmem with rfl | rfl | rfl
    all_goals
      cases hstate
      decide
  have horderly : Run.Throughout (SgcSwarm.step hexText) Orderly
      (loaded answeringRouter samConfig "localhost:3000" "machine_client")
      (["listener", "idle", "listener"].map assignTo) := by
    refine ⟨fun state hstate => ?_, fun state hstate => ?_, fun state hstate => ?_, trivial⟩
    · cases hstate
      refine samSwarm_canEnter (s := samSwarm) (.refl _) (.inr rfl) nofun fun action haction => ?_
      cases haction
    · cases hstate
      have hoperations : ∀ operation ∈ (samRun ["listener"]).operations,
          operation.2.2.2 = "sub" := by
        decide
      refine samSwarm_canEnter (s := samRun ["listener"])
        ⟨rfl, rfl, rfl, rfl, rfl, rfl, rfl, rfl, rfl⟩ (.inl rfl) (fun previous hprevious => ?_)
        fun action haction => ?_
      · cases hprevious
        exact ⟨.inr rfl, by decide⟩
      · obtain ⟨operation, hmem, heq⟩ := Ledger.mem_of_added haction
        exact (congrArg (fun key : Key => key.2.2) heq).symm.trans (hoperations operation hmem)
    · cases hstate
      have hoperations : ∀ operation ∈ (samRun ["listener", "idle"]).operations,
          operation.2.2.2 = "sub" := by decide
      refine samSwarm_canEnter (s := samRun ["listener", "idle"])
        ⟨rfl, rfl, rfl, rfl, rfl, rfl, rfl, rfl, rfl⟩ (.inr rfl) (fun previous hprevious => ?_)
        fun action haction => ?_
      · cases hprevious
        exact ⟨.inl rfl, by decide⟩
      · obtain ⟨operation, hmem, heq⟩ := Ledger.mem_of_added haction
        exact (congrArg (fun key : Key => key.2.2) heq).symm.trans (hoperations operation hmem)
  obtain ⟨hobeyed, hactive, -⟩ :=
    requests_obey_life_cycle hexText answering_answeringRouter samConfig_present hdeclared horderly
  exact ⟨hobeyed, hactive⟩

/-- The machine leaves a state with a service, which stays active. -/
theorem service_not_revoked :
    (samRun ["client", "idle"]).ledger.active (samSwarm.serviceKey ("/sam", "client")) = true ∧
      ¬ (samRun ["client", "idle"]).Lists (samSwarm.serviceKey ("/sam", "client")) := by
  refine ⟨by decide, ?_⟩
  rintro ⟨state, machine, hstate, hmachine, hkey⟩
  have hidle : (samRun ["client", "idle"]).assignmentDict.get? "machine_client" = some "idle" := by
    decide
  cases hidle.symm.trans hstate
  cases hmachine
  revert hkey
  decide

end RtFogros.Swarm
