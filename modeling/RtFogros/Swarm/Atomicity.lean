import RtFogros.Swarm.Transitions

/-!
# Calls that raise

`apply_assignment` looks names up between its requests, and nothing is taken back when a name
is missing or the router does not respond.  A call that raises is without effect exactly if the
first lookup fails already, or the first request is refused, and what it assigned to other
machines before was theirs.

`Starts` says that the first lookup succeeds; the change begins with a request then
(`postsFirst_changeState`).  A request that is sent stays sent, and one that is refused ends the
change before anything happened; where the first lookup fails nothing happens at all
(`untouched_changeState`).  `assignment_atomic_iff` puts these together for the call after any
run.
-/

namespace RtFogros.Swarm

open RtFogros EStateM

variable {hexdigest : Bytes → String} {s s' : SgcSwarm} {state : String}
  {pair : String × String}

/-! ## What was sent stays sent -/

theorem after_bind_of_ok {α β : Type} {x : Py α} {a : α} {f : α → Py β} (h : x s = .ok a s') :
    after (x >>= f) s = after (f a) s' := by
  unfold after
  rw [bind_apply, h]

theorem after_bind_of_error {α β : Type} {x : Py α} {e : SwarmError} {f : α → Py β}
    (h : x s = .error e s') : after (x >>= f) s = s' := by
  unfold after
  rw [bind_apply, h]

/-- No request is taken back. -/
def Grows (s s' : SgcSwarm) : Prop := s.posts.length ≤ s'.posts.length

instance : IsPreorder SgcSwarm Grows where
  refl s := Nat.le_refl s.posts.length
  trans _ _ _ := Nat.le_trans

theorem requesting_grows : Requesting Grows where
  asked s := Nat.le_refl s.posts.length
  post s post := by
    unfold Grows
    rw [List.length_append]
    exact Nat.le_add_right ..
  pausedTopics s _ := Nat.le_refl s.posts.length
  pausedServices s _ := Nat.le_refl s.posts.length

/-- At `s` the method begins with a request, and takes none back after it. -/
def PostsFirst {α : Type} (x : Py α) (s : SgcSwarm) : Prop :=
  ∃ uri json, ∃ f : Unit → Py α, x s = (post uri json >>= f) s ∧ ∀ a, Respects Grows (f a)

/-- If it is not refused, a request is sent, whether the method raises or not. -/
theorem PostsFirst.sends {α : Type} {x : Py α} (h : PostsFirst x s)
    (hrouter : s.router s.asked ≠ .refused) : s.posts.length < (after x s).posts.length := by
  obtain ⟨uri, json, f, hx, hf⟩ := h
  have hsent : s.posts.length < (s.sent [⟨uri, json⟩]).posts.length := by
    rw [SgcSwarm.posts_sent, List.length_append]
    exact Nat.lt_succ_self _
  have hafter : after x s = after (post uri json >>= f) s := by
    unfold after
    rw [hx]
  rw [hafter]
  cases hanswer : s.router s.asked with
  | response =>
    rw [after_bind_of_ok (post_of_response hanswer), ← state_eq_after]
    exact Nat.lt_of_lt_of_le hsent ((hf ()).rel _)
  | refused => exact absurd hanswer hrouter
  | lost => rwa [after_bind_of_error (post_of_lost hanswer)]

/-- If it is refused, the method raises there. -/
theorem PostsFirst.after_eq {α : Type} {x : Py α} (h : PostsFirst x s)
    (hrouter : s.router s.asked = .refused) : after x s = { s with asked := s.asked + 1 } := by
  obtain ⟨uri, json, f, hx, -⟩ := h
  have hafter : after x s = after (post uri json >>= f) s := by
    unfold after
    rw [hx]
  rw [hafter, after_bind_of_error (post_of_refused hrouter)]

theorem PostsFirst.bind {α β : Type} {x : Py α} {g : α → Py β} (h : PostsFirst x s)
    (hg : ∀ a, Respects Grows (g a)) : PostsFirst (x >>= g) s := by
  obtain ⟨uri, json, f, hx, hf⟩ := h
  refine ⟨uri, json, fun a => f a >>= g, ?_, fun a => (hf a).bind hg⟩
  rw [← bind_assoc, bind_apply, bind_apply, hx]

theorem PostsFirst.of_ok {α β : Type} {x : Py α} {a : α} {f : α → Py β} (hrun : x s = .ok a s)
    (h : PostsFirst (f a) s) : PostsFirst (x >>= f) s := by
  obtain ⟨uri, json, g, hf, hg⟩ := h
  refine ⟨uri, json, g, ?_, hg⟩
  rw [bind_apply, hrun]
  exact hf

theorem PostsFirst.ite {α : Type} {c : Prop} [Decidable c] {x y : Py α} (hx : PostsFirst x s)
    (hy : PostsFirst y s) : PostsFirst (if c then x else y) s := by
  split
  · exact hx
  · exact hy

theorem postsFirst_post {α : Type} (uri : String) (json : ROSTopicRequest) {f : Unit → Py α}
    (hf : ∀ a, Respects Grows (f a)) : PostsFirst (post uri json >>= f) s :=
  ⟨uri, json, f, rfl, hf⟩

theorem postsFirst_revokeTopic (h : pair.1 ∈ s.topicDict.keys) :
    PostsFirst (revokeTopic pair) s := by
  obtain ⟨type, htype⟩ := PyDict.mem_keys.1 h
  unfold revokeTopic
  refine .of_ok (get_apply s) (.of_ok (getItem_apply s htype) ?_)
  exact postsFirst_post _ _ fun _ => .update fun s => requesting_grows.pausedTopics s _

variable (hexdigest) in
theorem postsFirst_addTopic (h : pair.1 ∈ s.topicDict.keys) :
    PostsFirst (addTopic hexdigest pair) s := by
  obtain ⟨type, htype⟩ := PyDict.mem_keys.1 h
  unfold addTopic
  refine .of_ok (get_apply s) (.of_ok (getItem_apply s htype) (.ite ?_ ?_))
  · exact postsFirst_post _ _ fun _ => .update fun s => requesting_grows.pausedTopics s _
  · refine postsFirst_post _ _ fun _ => .bind respects_topology fun tree => ?_
    exact respects_forEdges (respects_requestTopicEdge requesting_grows hexdigest pair.1 pair.2) _

variable (hexdigest) in
theorem postsFirst_addService (h : pair.1 ∈ s.serviceDict.keys) :
    PostsFirst (addService hexdigest pair) s := by
  obtain ⟨type, htype⟩ := PyDict.mem_keys.1 h
  unfold addService
  refine .of_ok (get_apply s) (.of_ok (getItem_apply s htype) (.ite ?_ ?_))
  · exact postsFirst_post _ _ fun _ => .update fun s => requesting_grows.pausedServices s _
  · refine postsFirst_post _ _ fun _ => .bind respects_topology fun tree => ?_
    exact respects_forEdges (respects_requestServiceEdge requesting_grows hexdigest pair.1) _

/-! ## The first lookup -/

/-- The first name that a change to the state looks up is declared. -/
inductive SgcSwarm.Starts (s : SgcSwarm) (state : String) : Prop
  | revokes (pair : String × String) (rest : Actions) :
      s.revokedTopics state = some (pair :: rest) → pair.1 ∈ s.topicDict.keys → s.Starts state
  | topics (machine : SgcStateMachine) (pair : String × String) (rest : Actions) :
      s.revokedTopics state = some [] → s.stateDict.get? state = some machine →
        machine.topics.getD [] = pair :: rest → pair.1 ∈ s.topicDict.keys → s.Starts state
  | services (machine : SgcStateMachine) (pair : String × String) (rest : Actions) :
      s.revokedTopics state = some [] → s.stateDict.get? state = some machine →
        machine.topics.getD [] = [] → machine.services.getD [] = pair :: rest →
          pair.1 ∈ s.serviceDict.keys → s.Starts state

variable (hexdigest) in
theorem postsFirst_changeState (h : s.Starts state) :
    PostsFirst (changeState hexdigest state) s := by
  have hservices : ∀ pairs : Actions, Respects Grows (pairs.forM (addService hexdigest)) :=
    fun pairs => .forM fun pair _ => respects_addService requesting_grows hexdigest pair
  have htopics : ∀ pairs : Actions, Respects Grows (pairs.forM (addTopic hexdigest)) :=
    fun pairs => .forM fun pair _ => respects_addTopic requesting_grows hexdigest pair
  unfold changeState
  refine .of_ok (get_apply s) ?_
  cases h with
  | revokes pair rest hrevoked hpair =>
    refine PostsFirst.bind ?_ fun _ => .bind (respects_getItem ..) fun machine =>
      .bind (htopics _) fun _ => hservices _
    obtain ⟨uri, json, f, hx, hf⟩ := (postsFirst_revokeTopic hpair).bind fun _ =>
      .forM fun pair (_ : pair ∈ rest) => respects_revokeTopic requesting_grows pair
    exact ⟨uri, json, f, (revoke_eq s state hrevoked).trans hx, hf⟩
  | topics machine pair rest hrevoked hmachine htopic hpair =>
    refine .of_ok (revoke_eq s state hrevoked) (.of_ok (getItem_apply s hmachine) ?_)
    rw [htopic]
    exact ((postsFirst_addTopic hexdigest hpair).bind fun _ => htopics rest).bind
      fun _ => hservices _
  | services machine pair rest hrevoked hmachine hnone hservice hpair =>
    refine .of_ok (revoke_eq s state hrevoked) (.of_ok (getItem_apply s hmachine) ?_)
    rw [hnone, hservice]
    exact .of_ok rfl ((postsFirst_addService hexdigest hpair).bind fun _ => hservices rest)

theorem forM_cons_of_error {f : String × String → Py Unit} {e : SwarmError}
    (h : f pair s = .error e s) (rest : Actions) : (pair :: rest).forM f s = .error e s := by
  change (f pair >>= fun _ => rest.forM f) s = _
  rw [bind_apply, h]

variable (hexdigest) in
/-- A change whose first lookup fails, or that has nothing to look up, leaves all as it is. -/
theorem after_changeState (h : ¬ s.Starts state) : after (changeState hexdigest state) s = s := by
  unfold changeState
  rw [after_bind_of_ok (get_apply s)]
  rcases hrevoked : s.revokedTopics state with _ | _ | ⟨pair, rest⟩
  · obtain ⟨e, hraises⟩ := revoke_raises hrevoked
    rw [after_bind_of_error hraises]
  · have hnothing : revoke (s.assignmentDict.get? s.instanceIdentifier) state s = .ok () s :=
      revoke_eq s state hrevoked
    rw [after_bind_of_ok hnothing]
    rcases hmachine : s.stateDict.get? state with _ | machine
    · rw [after_bind_of_error (getItem_apply_of_none s hmachine)]
    · rw [after_bind_of_ok (getItem_apply s hmachine)]
      rcases htopics : machine.topics.getD [] with _ | ⟨pair, rest⟩
      · change after ((machine.services.getD []).forM (addService hexdigest)) s = s
        rcases hservices : machine.services.getD [] with _ | ⟨pair, rest⟩
        · rfl
        · have hundeclared : pair.1 ∉ s.serviceDict.keys := fun hpair =>
            h (.services machine pair rest hrevoked hmachine htopics hservices hpair)
          unfold after
          rw [forM_cons_of_error (addService_undeclared hundeclared)]
      · have hundeclared : pair.1 ∉ s.topicDict.keys := fun hpair =>
          h (.topics machine pair rest hrevoked hmachine htopics hpair)
        rw [after_bind_of_error (forM_cons_of_error (addTopic_undeclared hundeclared) rest)]
  · have hundeclared : pair.1 ∉ s.topicDict.keys := fun hpair =>
      h (.revokes pair rest hrevoked hpair)
    have hraises := (revoke_eq s state hrevoked).trans
      (forM_cons_of_error (revokeTopic_undeclared hundeclared) rest)
    rw [after_bind_of_error hraises]

/-! ## Other machines before -/

/-- The assignment takes over some entries. -/
def SgcSwarm.assignAll (s : SgcSwarm) (entries : List (String × String)) : SgcSwarm :=
  { s with assignmentDict := entries.foldl (fun d entry => d.set entry.1 entry.2) s.assignmentDict }

theorem forM_assignMachine_other {entries : List (String × String)}
    (h : s.instanceIdentifier ∉ entries.map Prod.fst) :
    entries.forM (assignMachine hexdigest) s = .ok () (s.assignAll entries) := by
  induction entries generalizing s with
  | nil => rfl
  | cons entry entries ih =>
    rw [List.map_cons, List.mem_cons, not_or] at h
    change (assignMachine hexdigest entry >>= fun _ => entries.forM (assignMachine hexdigest)) s = _
    rw [bind_apply, assignMachine_other (Ne.symm h.1)]
    exact ih (s := s.assign entry.1 entry.2) h.2

theorem assignMachine_raises {e : SwarmError}
    (h : changeState hexdigest state s = .error e s') :
    assignMachine hexdigest (s.instanceIdentifier, state) s = .error e s' := by
  simp [assignMachine, h]

theorem switches_assignAll {entries : List (String × String)}
    (h : s.instanceIdentifier ∉ entries.map Prod.fst) :
    (s.assignAll entries).Switches state ↔ s.Switches state := by
  induction entries generalizing s with
  | nil => exact Iff.rfl
  | cons entry entries ih =>
    rw [List.map_cons, List.mem_cons, not_or] at h
    exact (ih (s := s.assign entry.1 entry.2) h.2).trans (switches_assign (Ne.symm h.1) entry.2)

theorem assignAll_eq_self {entries : List (String × String)}
    (h : ∀ entry ∈ entries, s.assignmentDict.get? entry.1 = some entry.2) :
    s.assignAll entries = s := by
  unfold SgcSwarm.assignAll
  rw [PyDict.foldl_set_eq_self h]

theorem get?_of_assignAll {entries : List (String × String)}
    (hnodup : (entries.map Prod.fst).Nodup)
    (h : (s.assignAll entries).assignmentDict = s.assignmentDict) :
    ∀ entry ∈ entries, s.assignmentDict.get? entry.1 = some entry.2 := by
  intro entry hentry
  have hget : (⟨entries, hnodup⟩ : PyDict String String).get? entry.1 = some entry.2 :=
    PyDict.get?_eq_some_iff.2 hentry
  rw [← h]
  exact PyDict.get?_foldl_set_entries s.assignmentDict hget

/-- A call that raises stops in the change of this machine's state. -/
theorem after_applyAssignment {newAssignmentDict : PyDict String String}
    {before rest : List (String × String)}
    (hentries : newAssignmentDict.entries = before ++ (s.instanceIdentifier, state) :: rest)
    (hraises : ¬ Completes (changeState hexdigest state) (s.assignAll before)) :
    after (applyAssignment hexdigest newAssignmentDict) s =
      after (changeState hexdigest state) (s.assignAll before) := by
  have hbefore := (PyDict.nodup_before hentries).2
  have hsplit : newAssignmentDict.entries.forM (assignMachine hexdigest) =
      (before.forM (assignMachine hexdigest) >>= fun _ =>
        assignMachine hexdigest (s.instanceIdentifier, state) >>= fun _ =>
          rest.forM (assignMachine hexdigest)) := by
    rw [hentries]
    exact List.forM_append
  unfold applyAssignment
  rw [hsplit, after_bind_of_ok (forM_assignMachine_other hbefore)]
  cases hrun : changeState hexdigest state (s.assignAll before) with
  | ok a s' => exact absurd ⟨a, s', hrun⟩ hraises
  | error e s' =>
    have hassign : assignMachine hexdigest (s.instanceIdentifier, state) (s.assignAll before) =
        .error e s' := assignMachine_raises hrun
    rw [after_bind_of_error hassign]
    unfold after
    rw [hrun]

/-! ## All or nothing -/

/-- Nothing was sent, and the assignment and the lists of paused names are as before. -/
structure Untouched (s s' : SgcSwarm) : Prop where
  posts : s'.posts = s.posts
  assignmentDict : s'.assignmentDict = s.assignmentDict
  pausedTopics : s'.pausedTopics = s.pausedTopics
  pausedServices : s'.pausedServices = s.pausedServices

theorem Untouched.refl (s : SgcSwarm) : Untouched s s := ⟨rfl, rfl, rfl, rfl⟩

variable (hexdigest) in
/-- A change is without effect if its first lookup fails, if it has nothing to look up, or if its
first request is refused. -/
theorem untouched_changeState (h : ¬ s.Starts state ∨ s.router s.asked = .refused) :
    Untouched s (after (changeState hexdigest state) s) := by
  by_cases hstarts : s.Starts state
  · rw [(postsFirst_changeState hexdigest hstarts).after_eq (h.resolve_left fun hnot =>
      hnot hstarts)]
    exact ⟨rfl, rfl, rfl, rfl⟩
  · rw [after_changeState hexdigest hstarts]
    exact .refl s

variable (hexdigest) in
/-- A call that raises is without effect. -/
def AllOrNothing (s : SgcSwarm) (newAssignmentDict : PyDict String String) : Prop :=
  ¬ Completes (applyAssignment hexdigest newAssignmentDict) s →
    Untouched s (s.step hexdigest newAssignmentDict)

/-- Nothing that the call looks up is missing, and the router responds to each of its requests;
or the first name is missing or the first request refused, and what is assigned to other
machines before is theirs already. -/
def SgcSwarm.MissesFirst (s : SgcSwarm) (newAssignmentDict : PyDict String String) : Prop :=
  ∀ before state rest,
    newAssignmentDict.entries = before ++ (s.instanceIdentifier, state) :: rest →
      s.Switches state ∨ (¬ s.Starts state ∨ s.router s.asked = .refused) ∧
        ∀ entry ∈ before, s.assignmentDict.get? entry.1 = some entry.2

theorem allOrNothing_iff_missesFirst (hqos : HasQos s) (newAssignmentDict : PyDict String String) :
    AllOrNothing hexdigest s newAssignmentDict ↔ s.MissesFirst newAssignmentDict := by
  have hcompletes := completes_applyAssignment_iff hexdigest hqos newAssignmentDict
  constructor
  · intro hatomic before state rest hentries
    obtain ⟨hnodup, hself⟩ := PyDict.nodup_before hentries
    by_cases hswitches : s.Switches state
    · exact .inl hswitches
    refine .inr ?_
    have hstate : newAssignmentDict.get? s.instanceIdentifier = some state := by
      rw [PyDict.get?_eq_some_iff, hentries]
      exact List.mem_append_right _ List.mem_cons_self
    have huntouched := hatomic fun h => hswitches (hcompletes.1 h state hstate)
    have hraises : ¬ Completes (changeState hexdigest state) (s.assignAll before) := by
      have hqos' : HasQos (s.assignAll before) := ⟨hqos.topics, hqos.services⟩
      rw [completes_changeState_iff hexdigest hqos', switches_assignAll hself]
      exact hswitches
    rw [SgcSwarm.step, after_applyAssignment hentries hraises] at huntouched
    have hkept := (respects_changeState requesting_assignmentDict hexdigest state).rel
      (s.assignAll before)
    rw [state_eq_after] at hkept
    have htheirs := get?_of_assignAll hnodup (hkept.symm.trans huntouched.assignmentDict)
    refine ⟨or_iff_not_imp_left.2 fun hstarts => ?_, htheirs⟩
    by_contra hrouter
    have hsends := (postsFirst_changeState hexdigest (not_not.1 hstarts)).sends hrouter
    rw [assignAll_eq_self htheirs] at huntouched
    rw [huntouched.posts] at hsends
    exact absurd hsends (Nat.lt_irrefl _)
  · intro hfirst hraises
    simp only [hcompletes, not_forall, exists_prop] at hraises
    obtain ⟨state, hstate, hswitches⟩ := hraises
    obtain ⟨before, rest, hentries⟩ := List.append_of_mem (PyDict.get?_eq_some_iff.1 hstate)
    obtain ⟨hstops, htheirs⟩ := (hfirst before state rest hentries).resolve_left hswitches
    have hsame := assignAll_eq_self htheirs
    have hchange : ¬ Completes (changeState hexdigest state) (s.assignAll before) := by
      rw [hsame, completes_changeState_iff hexdigest hqos]
      exact hswitches
    rw [SgcSwarm.step, after_applyAssignment hentries hchange, hsame]
    exact untouched_changeState hexdigest hstops

/-- **Main result.**  For every router and after every run of calls, a call is all or nothing if
and only if this machine is assigned no state; nothing that the change to it looks up is missing
and the router responds to each of its requests; or the first name that it looks up is missing or
its first request refused, and no other machine was assigned a new state before. -/
theorem assignment_atomic_iff (hexdigest : Bytes → String) (router : Nat → PostOutcome)
    (config : Config) (sgcAddress whoami : String) (assignmentDict : PyDict String String)
    (assignments : List (PyDict String String)) (newAssignmentDict : PyDict String String) :
    AllOrNothing hexdigest (Run.after (SgcSwarm.step hexdigest)
        (assigned router config sgcAddress whoami assignmentDict) assignments)
        newAssignmentDict ↔
      (Run.after (SgcSwarm.step hexdigest)
        (assigned router config sgcAddress whoami assignmentDict) assignments).MissesFirst
        newAssignmentDict :=
  allOrNothing_iff_missesFirst
    ((sameConfig_run hexdigest _ assignments).hasQos (hasQos_assigned ..)) newAssignmentDict

/-- A client asked to go to a state nobody declared has given up its topic by then, though the
router responds. -/
theorem undeclared_revokes :
    Answering switchSwarm.router ∧
      ¬ AllOrNothing hexText
        (Run.after (SgcSwarm.step hexText) switchSwarm [assignTo "client"])
        (.single "machine_client" "cloud") := by
  refine ⟨answering_answeringRouter, fun hatomic => ?_⟩
  have huntouched := hatomic ?_
  · exact absurd huntouched.pausedTopics (by decide)
  · rintro ⟨_, s', hrun⟩
    have hraises : ∃ s', applyAssignment hexText (.single "machine_client" "cloud")
        (Run.after (SgcSwarm.step hexText) switchSwarm [assignTo "client"]) =
        .error (.keyError "cloud") s' := ⟨_, rfl⟩
    obtain ⟨s'', hraises⟩ := hraises
    cases hraises.symm.trans hrun

end RtFogros.Swarm
