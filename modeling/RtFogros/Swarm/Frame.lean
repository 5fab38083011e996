import RtFogros.Lib.Frame
import RtFogros.Swarm.Bookkeeping

/-!
# What an assignment leaves alone

The steps of `apply_assignment` make requests, send them, and change the lists of paused names;
at the end of a round the assignment is written down.  A relation that is kept by these is kept
by every call, also by one that raises: `respects_changeState` goes over the methods once for all
such relations.  Its instances are that the assignment is only written at the end of a round
(`assignmentDict_of_applyAssignment`) and that nothing that was loaded changes in any run
(`sameConfig_run`).
-/

namespace RtFogros.Swarm

open RtFogros

section Respects

open EStateM

variable {R : SgcSwarm → SgcSwarm → Prop} [IsPreorder SgcSwarm R]

/-- Making requests, sending them and changing the lists of paused names respects the
relation. -/
structure Requesting (R : SgcSwarm → SgcSwarm → Prop) : Prop where
  asked : ∀ s, R s { s with asked := s.asked + 1 }
  post : ∀ s post, R s { s with posts := s.posts ++ [post] }
  pausedTopics : ∀ s names, R s { s with pausedTopics := names }
  pausedServices : ∀ s names, R s { s with pausedServices := names }

theorem respects_getItem {α : Type} (d : PyDict String α) (key : String) :
    Respects R (getItem d key) := by
  unfold getItem
  split
  · exact .pure _
  · exact .throw _

theorem respects_topology : Respects R topology := by
  refine .bind .get fun s => ?_
  split
  · exact .pure _
  · exact .throw _

theorem respects_typed {d qos : PyDict String String} {name : String}
    {request : String → String → Py Unit} (h : ∀ type qos, Respects R (request type qos)) :
    Respects R (getItem d name >>= fun type =>
      getItem qos name >>= fun qos => request type qos) :=
  .bind (respects_getItem d name) fun type => .bind (respects_getItem qos name) fun qos =>
    h type qos

omit [IsPreorder SgcSwarm R]

mutual

theorem respects_forEdges [IsPreorder SgcSwarm R] {request : String → String → Py Unit}
    (h : ∀ node child, Respects R (request node child)) :
    ∀ tree, Respects R (forEdges request tree)
  | .mk address children => respects_forChildren h address children

theorem respects_forChildren [IsPreorder SgcSwarm R] {request : String → String → Py Unit}
    (h : ∀ node child, Respects R (request node child)) (address : String) :
    ∀ children, Respects R (forEdges.forChildren request address children)
  | [] => .pure _
  | child :: children =>
    .bind (h address child.address) fun _ =>
      .bind (respects_forEdges h child) fun _ => respects_forChildren h address children

end

section Requests

variable (hR : Requesting R) (hexdigest : Bytes → String)

include hR

variable [IsPreorder SgcSwarm R]

theorem respects_post (uri : String) (json : ROSTopicRequest) : Respects R (post uri json) := by
  have hsends : Respects R
      (modify fun s => { s with posts := s.posts ++ [⟨uri, json⟩] } : Py PUnit) :=
    .update fun s => hR.post s ⟨uri, json⟩
  unfold post
  refine .bind .get fun s => .bind (.update hR.asked) fun _ => .ite ?_ ?_
  · exact .bind hsends fun _ => .ite (.throw _) (.pure _)
  · exact .ite (.throw _) (.pure _)

theorem respects_sendRoutingRequestTopic
    (addr topicName topicType topicQos sourceOrDestination senderUrlStr receiverUrlStr : String) :
    Respects R (sendRoutingRequestTopic hexdigest addr topicName topicType topicQos
      sourceOrDestination senderUrlStr receiverUrlStr) := by
  unfold sendRoutingRequestTopic
  exact respects_post hR ..

theorem respects_sendRoutingRequestService
    (addr topicName topicType topicQos sourceOrDestination senderUrlStr receiverUrlStr
      connectionType : String) :
    Respects R (sendRoutingRequestService hexdigest addr topicName topicType topicQos
      sourceOrDestination senderUrlStr receiverUrlStr connectionType) := by
  unfold sendRoutingRequestService
  exact .ite (respects_post hR ..) (.pure _)

theorem respects_requestTopicEdge (topicName topicAction node child : String) :
    Respects R (requestTopicEdge hexdigest topicName topicAction node child) := by
  have hsend := respects_sendRoutingRequestTopic hR hexdigest
  unfold requestTopicEdge
  refine .bind .get fun s => ?_
  refine .ite (respects_typed fun type qos => ?_)
    (.ite (respects_typed fun type qos => ?_) (.pure _))
  · exact .bind (hsend ..) fun _ => .ite (respects_typed fun type qos => hsend ..) (.pure _)
  · exact hsend ..

theorem respects_requestServiceEdge (topicName node child : String) :
    Respects R (requestServiceEdge hexdigest topicName node child) := by
  have hsend := respects_sendRoutingRequestService hR hexdigest
  unfold requestServiceEdge
  refine .bind .get fun s => ?_
  refine .ite (respects_typed fun type qos => ?_)
    (.ite (respects_typed fun type qos => ?_) (.pure _))
  · refine .bind (hsend ..) fun _ => .bind (hsend ..) fun _ =>
      .ite (respects_typed fun type qos => ?_) (.pure _)
    exact .bind (hsend ..) fun _ => hsend ..
  · exact .bind (hsend ..) fun _ => hsend ..

theorem respects_revokeTopic (pair : String × String) : Respects R (revokeTopic pair) := by
  unfold revokeTopic
  exact .bind .get fun _ => .bind (respects_getItem ..) fun _ =>
    .bind (respects_post hR ..) fun _ => .update fun s => hR.pausedTopics s _

theorem respects_revoke (previousState : Option String) (currentState : String) :
    Respects R (revoke previousState currentState) := by
  unfold revoke
  split
  · exact .pure _
  · refine .ite (.pure _) (.bind .get fun s => .bind (respects_getItem ..) fun machine => ?_)
    split
    · exact .throw _
    · exact .forM fun pair _ => respects_revokeTopic hR pair

theorem respects_addTopic (pair : String × String) : Respects R (addTopic hexdigest pair) := by
  unfold addTopic
  refine .bind .get fun s => .bind (respects_getItem ..) fun _ => .ite ?_ ?_
  · exact .bind (respects_post hR ..) fun _ => .update fun s => hR.pausedTopics s _
  · refine .bind (respects_post hR ..) fun _ => .bind respects_topology fun tree => ?_
    exact respects_forEdges (respects_requestTopicEdge hR hexdigest pair.1 pair.2) _

theorem respects_addService (pair : String × String) :
    Respects R (addService hexdigest pair) := by
  unfold addService
  refine .bind .get fun s => .bind (respects_getItem ..) fun _ => .ite ?_ ?_
  · exact .bind (respects_post hR ..) fun _ => .update fun s => hR.pausedServices s _
  · refine .bind (respects_post hR ..) fun _ => .bind respects_topology fun tree => ?_
    exact respects_forEdges (respects_requestServiceEdge hR hexdigest pair.1) _

theorem respects_changeState (currentState : String) :
    Respects R (changeState hexdigest currentState) := by
  unfold changeState
  refine .bind .get fun s => .bind (respects_revoke hR ..) fun _ =>
    .bind (respects_getItem ..) fun machine => ?_
  exact .bind (.forM fun pair _ => respects_addTopic hR hexdigest pair) fun _ =>
    .forM fun pair _ => respects_addService hR hexdigest pair

end Requests

/-! ## What is assigned -/

theorem requesting_assignmentDict : Requesting (Same SgcSwarm.assignmentDict) :=
  ⟨fun _ => rfl, fun _ _ => rfl, fun _ _ => rfl, fun _ _ => rfl⟩

variable {hexdigest : Bytes → String} {s s' : SgcSwarm}

theorem assignmentDict_of_assignMachine {entry : String × String}
    (h : assignMachine hexdigest entry s = .ok () s') :
    s'.assignmentDict = s.assignmentDict.set entry.1 entry.2 := by
  unfold assignMachine at h
  by_cases hself : entry.1 = s.instanceIdentifier
  · simp only [bind_apply, get_apply, if_pos hself] at h
    cases hchange : changeState hexdigest entry.2 s with
    | error e s₁ =>
      rw [hchange] at h
      cases h
    | ok a s₁ =>
      rw [hchange] at h
      cases h
      have hkept := (respects_changeState requesting_assignmentDict hexdigest entry.2).of_ok hchange
      exact congrArg (PyDict.set · entry.1 entry.2) hkept
  · simp only [bind_apply, get_apply, if_neg hself, modify_apply] at h
    cases h
    rfl

/-- An assignment that does not raise is written down. -/
theorem assignmentDict_of_applyAssignment {newAssignmentDict : PyDict String String}
    (h : applyAssignment hexdigest newAssignmentDict s = .ok () s') :
    s'.assignmentDict = newAssignmentDict.entries.foldl (fun d entry => d.set entry.1 entry.2)
      s.assignmentDict := by
  unfold applyAssignment at h
  revert h
  induction newAssignmentDict.entries generalizing s with
  | nil =>
    intro h
    cases h
    rfl
  | cons entry entries ih =>
    intro h
    change (assignMachine hexdigest entry >>= fun _ =>
      entries.forM (assignMachine hexdigest)) s = _ at h
    rw [bind_apply] at h
    cases hentry : assignMachine hexdigest entry s with
    | error e s₁ =>
      rw [hentry] at h
      cases h
    | ok a s₁ =>
      rw [hentry] at h
      rw [ih h, assignmentDict_of_assignMachine hentry, List.foldl_cons]

/-! ## What stays as it was loaded -/

instance : IsPreorder SgcSwarm SameConfig where
  refl := SameConfig.refl
  trans _ _ _ := SameConfig.trans

theorem requesting_sameConfig : Requesting SameConfig :=
  ⟨fun _ => ⟨rfl, rfl, rfl, rfl, rfl, rfl, rfl, rfl, rfl⟩,
    fun _ _ => ⟨rfl, rfl, rfl, rfl, rfl, rfl, rfl, rfl, rfl⟩,
    fun _ _ => ⟨rfl, rfl, rfl, rfl, rfl, rfl, rfl, rfl, rfl⟩,
    fun _ _ => ⟨rfl, rfl, rfl, rfl, rfl, rfl, rfl, rfl, rfl⟩⟩

variable (hexdigest) in
theorem sameConfig_assignMachine (entry : String × String) :
    Respects SameConfig (assignMachine hexdigest entry) := by
  have hchange := respects_changeState requesting_sameConfig hexdigest
  refine .bind .get fun s => .ite ?_ ?_
  · exact .bind (hchange _) fun _ => .update fun s => .assign s entry.1 entry.2
  · exact .update fun s => .assign s entry.1 entry.2

variable (hexdigest) in
theorem sameConfig_applyAssignment (newAssignmentDict : PyDict String String) :
    Respects SameConfig (applyAssignment hexdigest newAssignmentDict) :=
  .forM fun entry _ => sameConfig_assignMachine hexdigest entry

theorem state_eq_after {α : Type} (x : Py α) (s : SgcSwarm) : (x s).state = after x s := by
  unfold after Result.state
  cases x s <;> rfl

variable (hexdigest) in
theorem sameConfig_step (s : SgcSwarm) (newAssignmentDict : PyDict String String) :
    SameConfig s (s.step hexdigest newAssignmentDict) := by
  unfold SgcSwarm.step
  rw [← state_eq_after]
  exact (sameConfig_applyAssignment hexdigest newAssignmentDict).rel s

variable (hexdigest) in
/-- No sequence of calls changes what was loaded. -/
theorem sameConfig_run (s : SgcSwarm) (assignments : List (PyDict String String)) :
    SameConfig s (Run.after (SgcSwarm.step hexdigest) s assignments) :=
  Run.invariant (fun s' _ hs => hs.trans (sameConfig_step hexdigest s' _))
    (.refl s) assignments

end Respects

end RtFogros.Swarm
