import RtFogros.Lib.Writes
import RtFogros.Swarm.Frame

/-!
# Nodes that share assignments

`SGC_Router_Node` of `sgc_node.py`.  One node handles the requests of the assignment
service; it applies each and publishes it, and every node, itself included, applies what
was published when it is delivered.  The updates of the topic are delivered in order, to each
node at its own pace.  A node that raises is gone, whether a name was missing or its router did
not respond.

`Network.Consistent` is the invariant: every node will agree with all requests once it is
delivered the rest.  `assignments_converge` is what it says at the end of a run without
exceptions, and `echoes_idle_iff` is when the issuer's own echoes leave it alone.
-/

namespace RtFogros.Swarm

open RtFogros

/-! ## Nodes -/

/-- `AssignmentUpdate.msg`. -/
structure AssignmentUpdate where
  machine : String
  state : String
deriving DecidableEq

section Callbacks

variable (hexdigest : Bytes → String)

/-- `sgc_assignment_callback`; the update is published. -/
def sgcAssignmentCallback (machine state : String) : Py AssignmentUpdate := do
  applyAssignment hexdigest (.single machine state)
  return { machine, state }

/-- `assignment_update_callback`. -/
def assignmentUpdateCallback (update : AssignmentUpdate) : Py Unit := do
  let s ← get
  let state ← getItem s.assignmentDict update.machine
  if state = update.state then pure ()
  else applyAssignment hexdigest (.single update.machine update.state)

/-- What is left of a node: it is gone when a callback raises. -/
def survivor {α : Type} : EStateM.Result SwarmError SgcSwarm α → Option SgcSwarm
  | .ok _ s => some s
  | .error _ _ => none

/-- The swarm of `launch_sgc` with a configuration file. -/
def launchSgc (router : Nat → PostOutcome) (config : Config) (whoami sgcAddress : String) :
    Option SgcSwarm :=
  (load router config (some whoami) sgcAddress).bind fun s =>
    survivor ((getAssignmentFromYaml >>= applyAssignment hexdigest) s)

end Callbacks

/-! ## The network -/

/-- The nodes, the updates published so far and how many of them each node was delivered. -/
structure Network (ν : Type) where
  swarms : ν → Option SgcSwarm
  published : List AssignmentUpdate := []
  delivered : ν → Nat := fun _ => 0

inductive Event (ν : Type) where
  | request (machine state : String)
  | deliver (node : ν)

namespace Network

variable {ν : Type}

/-- All nodes launched with the same configuration, each with a router of its own. -/
def start (hexdigest : Bytes → String) (router : ν → Nat → PostOutcome) (config : Config)
    (whoami sgcAddress : ν → String) : Network ν where
  swarms node := launchSgc hexdigest (router node) config (whoami node) (sgcAddress node)

variable [DecidableEq ν] (hexdigest : Bytes → String) (issuer : ν)

/-- The issuer handles a request. -/
def request (net : Network ν) (machine state : String) : Network ν :=
  match net.swarms issuer with
  | none => net
  | some s =>
    let result := sgcAssignmentCallback hexdigest machine state s
    { net with
      swarms := Function.update net.swarms issuer (survivor result)
      published := match result with
        | .ok update _ => net.published ++ [update]
        | .error _ _ => net.published }

/-- A node is delivered the next update. -/
def deliver (net : Network ν) (node : ν) : Network ν :=
  match net.swarms node, net.published[net.delivered node]? with
  | some s, some update =>
    { net with
      swarms := Function.update net.swarms node
        (survivor (assignmentUpdateCallback hexdigest update s))
      delivered := Function.update net.delivered node (net.delivered node + 1) }
  | _, _ => net

def step (net : Network ν) : Event ν → Network ν
  | .request machine state => net.request hexdigest issuer machine state
  | .deliver node => net.deliver hexdigest node

end Network

/-- The requests among some events. -/
def requests {ν : Type} (events : List (Event ν)) : List AssignmentUpdate :=
  events.filterMap fun
    | .request machine state => some { machine, state }
    | .deliver _ => none

/-- The states of the machines after some updates. -/
abbrev lastStates (initial : String → Option String) (updates : List AssignmentUpdate) :
    String → Option String :=
  Writes.replay AssignmentUpdate.machine AssignmentUpdate.state initial updates

/-- The states the configuration assigns. -/
def initialState (config : Config) (machine : String) : Option String :=
  (config.assignment.get? machine).filter (· ∈ config.stateMachine.keys)

/-! ## What a callback writes -/

section Callbacks

variable {hexdigest : Bytes → String} {s s' : SgcSwarm}

theorem get?_of_applyAssignment (update : AssignmentUpdate)
    (h : applyAssignment hexdigest (.single update.machine update.state) s = .ok () s') :
    s'.assignmentDict.get? = lastStates s.assignmentDict.get? [update] := by
  rw [assignmentDict_of_applyAssignment h]
  exact PyDict.get?_set ..

theorem sgcAssignmentCallback_eq_ok {machine state : String} {update : AssignmentUpdate}
    (h : sgcAssignmentCallback hexdigest machine state s = .ok update s') :
    update = ⟨machine, state⟩ ∧
      s'.assignmentDict.get? = lastStates s.assignmentDict.get? [update] := by
  unfold sgcAssignmentCallback at h
  rw [bind_apply] at h
  cases happly : applyAssignment hexdigest (.single machine state) s with
  | error e s₁ =>
    rw [happly] at h
    cases h
  | ok a s₁ =>
    rw [happly] at h
    cases h
    exact ⟨rfl, get?_of_applyAssignment ⟨machine, state⟩ happly⟩

/-- An update that says what the node has already changes nothing. -/
theorem assignmentUpdateCallback_same {update : AssignmentUpdate}
    (h : s.assignmentDict.get? update.machine = some update.state) :
    assignmentUpdateCallback hexdigest update s = .ok () s := by
  unfold assignmentUpdateCallback
  rw [bind_apply, get_apply]
  dsimp only
  rw [bind_apply, getItem_apply s h]
  dsimp only
  rw [if_pos rfl, pure_apply]

theorem assignmentUpdateCallback_eq_ok {update : AssignmentUpdate}
    (h : assignmentUpdateCallback hexdigest update s = .ok () s') :
    s'.assignmentDict.get? = lastStates s.assignmentDict.get? [update] := by
  cases hget : s.assignmentDict.get? update.machine with
  | none =>
    unfold assignmentUpdateCallback at h
    rw [bind_apply, get_apply] at h
    dsimp only at h
    rw [bind_apply, getItem_apply_of_none s hget] at h
    cases h
  | some state =>
    by_cases hsame : state = update.state
    · subst hsame
      rw [assignmentUpdateCallback_same hget] at h
      cases h
      exact (Writes.write_eq_self hget).symm
    · unfold assignmentUpdateCallback at h
      rw [bind_apply, get_apply] at h
      dsimp only at h
      rw [bind_apply, getItem_apply s hget] at h
      dsimp only at h
      rw [if_neg hsame] at h
      exact get?_of_applyAssignment update h

theorem getAssignmentFromYaml_loaded (router : Nat → PostOutcome) (config : Config)
    (sgcAddress identifier : String) :
    ∃ d s, getAssignmentFromYaml (loaded router config sgcAddress identifier) = .ok d s ∧
      s.assignmentDict = d ∧ d.get? = initialState config := by
  refine ⟨_, _, rfl, rfl, ?_⟩
  funext machine
  have hdeclared : ∀ state, (state ∈ (loadStateMachine config.stateMachine).keys) ↔
      state ∈ config.stateMachine.keys := fun state => mem_keys_loadStateMachine
  refine (PyDict.get?_foldl_set_filter
    (· ∈ (loadStateMachine config.stateMachine).keys) config.assignment machine).trans ?_
  simp only [hdeclared, initialState]

/-- A node starts with the states the configuration assigns. -/
theorem launchSgc_eq_some {router : Nat → PostOutcome} {config : Config}
    {whoami sgcAddress : String}
    (h : launchSgc hexdigest router config whoami sgcAddress = some s) :
    s.assignmentDict.get? = initialState config := by
  obtain ⟨loaded, hload, hlaunch⟩ := Option.bind_eq_some_iff.1 h
  obtain ⟨identifier, -, rfl⟩ := Option.map_eq_some_iff.1 hload
  obtain ⟨d, s₁, hyaml, hd, hget⟩ :=
    getAssignmentFromYaml_loaded router config sgcAddress identifier
  rw [bind_apply, hyaml] at hlaunch
  dsimp only at hlaunch
  cases happly : applyAssignment hexdigest d s₁ with
  | error e s' =>
    rw [happly] at hlaunch
    cases hlaunch
  | ok a s' =>
    rw [happly] at hlaunch
    cases hlaunch
    rw [assignmentDict_of_applyAssignment happly, hd, PyDict.foldl_set_eq_self, hget]
    exact fun entry hentry => PyDict.get?_eq_some_iff.2 hentry

end Callbacks

/-! ## All nodes agree once everything is delivered -/

namespace Network

variable {ν : Type} [DecidableEq ν] {hexdigest : Bytes → String} {issuer : ν} {net : Network ν}

variable (hexdigest issuer) in
/-- What a request can do. -/
theorem request_cases (machine state : String) :
    net.request hexdigest issuer machine state = net ∧ net.swarms issuer = none ∨
    net.request hexdigest issuer machine state =
      { net with swarms := Function.update net.swarms issuer none } ∨
    ∃ s s', net.swarms issuer = some s ∧
      s'.assignmentDict.get? = lastStates s.assignmentDict.get? [⟨machine, state⟩] ∧
      net.request hexdigest issuer machine state =
        { net with
          swarms := Function.update net.swarms issuer (some s')
          published := net.published ++ [⟨machine, state⟩] } := by
  unfold request
  cases hs : net.swarms issuer with
  | none => exact .inl ⟨rfl, rfl⟩
  | some s =>
    dsimp only
    cases hcallback : sgcAssignmentCallback hexdigest machine state s with
    | error e s' => exact .inr (.inl rfl)
    | ok update s' =>
      obtain ⟨rfl, hget⟩ := sgcAssignmentCallback_eq_ok hcallback
      exact .inr (.inr ⟨s, s', rfl, hget, rfl⟩)

variable (hexdigest) in
/-- What a delivery can do. -/
theorem deliver_cases (node : ν) :
    net.deliver hexdigest node = net ∧
      (net.swarms node = none ∨ net.published[net.delivered node]? = none) ∨
    ∃ s update, net.swarms node = some s ∧ net.published[net.delivered node]? = some update ∧
      net.deliver hexdigest node =
        { net with
          swarms := Function.update net.swarms node
            (survivor (assignmentUpdateCallback hexdigest update s))
          delivered := Function.update net.delivered node (net.delivered node + 1) } := by
  unfold deliver
  cases hs : net.swarms node with
  | none => exact .inl ⟨rfl, .inl rfl⟩
  | some s =>
    cases hnext : net.published[net.delivered node]? with
    | none => exact .inl ⟨rfl, .inr rfl⟩
    | some update => exact .inr ⟨s, update, rfl, rfl, rfl⟩

/-- Every node will agree with the requests once it is delivered the rest. -/
structure Consistent (initial : String → Option String) (net : Network ν) : Prop where
  delivered_le : ∀ node, net.delivered node ≤ net.published.length
  agrees : ∀ node s, net.swarms node = some s →
    lastStates s.assignmentDict.get? (net.published.drop (net.delivered node)) =
      lastStates initial net.published

variable (hexdigest) in
omit [DecidableEq ν] in
theorem consistent_start (router : ν → Nat → PostOutcome) (config : Config)
    (whoami sgcAddress : ν → String) :
    Consistent (initialState config) (start hexdigest router config whoami sgcAddress) := by
  refine ⟨fun node => Nat.le_refl 0, fun node s hs => ?_⟩
  exact launchSgc_eq_some hs

variable {initial : String → Option String}

/-- A node that is gone agrees with everything. -/
theorem Consistent.gone (h : Consistent initial net) (gone : ν) :
    Consistent initial { net with swarms := Function.update net.swarms gone none } := by
  refine ⟨h.delivered_le, fun node s hs => ?_⟩
  by_cases hnode : node = gone
  · subst hnode
    simp at hs
  · exact h.agrees node s ((Function.update_of_ne hnode ..).symm.trans hs)

theorem Consistent.request (h : Consistent initial net) (machine state : String) :
    Consistent initial (net.request hexdigest issuer machine state) := by
  obtain ⟨heq, -⟩ | heq | ⟨s, s', hs, hget, heq⟩ :=
    net.request_cases hexdigest issuer machine state
  · rw [heq]
    exact h
  · rw [heq]
    exact h.gone issuer
  · rw [heq]
    refine ⟨fun node => ?_, fun node t ht => ?_⟩
    · simp only [List.length_append]
      exact Nat.le_add_right_of_le (h.delivered_le node)
    · dsimp only at ht ⊢
      rw [List.drop_append_of_le_length (h.delivered_le node)]
      by_cases hnode : node = issuer
      · -- the issuer has made the last write already
        subst hnode
        rw [Function.update_self] at ht
        cases ht
        rw [hget]
        exact (Writes.replay_write_concat ..).trans
          (Writes.replay_concat_congr (h.agrees node s hs) _)
      · rw [Function.update_of_ne hnode] at ht
        exact Writes.replay_concat_congr (h.agrees node t ht) _

theorem Consistent.deliver (h : Consistent initial net) (receiver : ν) :
    Consistent initial (net.deliver hexdigest receiver) := by
  obtain ⟨heq, -⟩ | ⟨s, update, hs, hnext, heq⟩ :=
    net.deliver_cases hexdigest receiver
  · rw [heq]
    exact h
  · obtain ⟨hlt, hupdate⟩ := List.getElem?_eq_some_iff.1 hnext
    rw [heq]
    refine ⟨fun node => ?_, fun node t ht => ?_⟩
    · by_cases hnode : node = receiver
      · subst hnode
        simpa using Nat.succ_le_of_lt hlt
      · simpa [Function.update_of_ne hnode] using h.delivered_le node
    · by_cases hnode : node = receiver
      · subst hnode
        simp only [Function.update_self] at ht ⊢
        cases hcallback : assignmentUpdateCallback hexdigest update s with
        | error e s' =>
          rw [hcallback] at ht
          cases ht
        | ok a s' =>
          rw [hcallback] at ht
          cases ht
          have hdrop := h.agrees node s hs
          rw [List.drop_eq_getElem_cons hlt, hupdate] at hdrop
          rw [assignmentUpdateCallback_eq_ok hcallback]
          exact hdrop
      · simp only [Function.update_of_ne hnode] at ht ⊢
        exact h.agrees node t ht

theorem Consistent.step (h : Consistent initial net) (event : Event ν) :
    Consistent initial (net.step hexdigest issuer event) := by
  cases event with
  | request machine state => exact h.request machine state
  | deliver node => exact h.deliver node

theorem published_step {event : Event ν}
    (h : ((net.step hexdigest issuer event).swarms issuer).isSome) :
    (net.swarms issuer).isSome ∧
      (net.step hexdigest issuer event).published = net.published ++ requests [event] := by
  cases event with
  | request machine state =>
    revert h
    unfold step
    obtain ⟨heq, hnone⟩ | heq | ⟨s, s', hs, -, heq⟩ :=
      net.request_cases hexdigest issuer machine state
    · simp [heq, hnone]
    · simp [heq]
    · simp [heq, hs, requests]
  | deliver node =>
    revert h
    unfold step
    obtain ⟨heq, -⟩ | ⟨s, update, hs, -, heq⟩ := net.deliver_cases hexdigest node
    · simp [heq, requests]
    · by_cases hnode : node = issuer
      · subst hnode
        simp [heq, hs, requests]
      · simp [heq, Function.update_of_ne (Ne.symm hnode), requests]

/-- As long as the issuer is there, every request is published. -/
theorem published_after {events : List (Event ν)}
    (h : ((Run.after (step hexdigest issuer) net events).swarms issuer).isSome) :
    (net.swarms issuer).isSome ∧
      (Run.after (step hexdigest issuer) net events).published =
        net.published ++ requests events := by
  induction events generalizing net with
  | nil => exact ⟨h, (List.append_nil _).symm⟩
  | cons event events ih =>
    obtain ⟨hstep, hpublished⟩ := ih h
    obtain ⟨hsome, hevent⟩ := published_step hstep
    refine ⟨hsome, ?_⟩
    rw [Run.after_cons, hpublished, hevent, List.append_assoc]
    exact congrArg _ List.filterMap_append.symm

end Network

section Convergence

variable {ν : Type} [DecidableEq ν] (hexdigest : Bytes → String)
  (router : ν → Nat → PostOutcome) (config : Config) (whoami sgcAddress : ν → String) (issuer : ν)

/-- **Main result.**  Whatever the order of requests and deliveries: if no node is gone and
every node was delivered every update, then each request was published, and all nodes have
the state of the last request for each machine, or its initial state. -/
theorem assignments_converge {events : List (Event ν)}
    (hreturned : ∀ node, ((Run.after (Network.step hexdigest issuer)
      (.start hexdigest router config whoami sgcAddress) events).swarms node).isSome)
    (hdelivered : ∀ node, (Run.after (Network.step hexdigest issuer)
        (.start hexdigest router config whoami sgcAddress) events).delivered node =
      (Run.after (Network.step hexdigest issuer)
        (.start hexdigest router config whoami sgcAddress) events).published.length) :
    (Run.after (Network.step hexdigest issuer)
        (.start hexdigest router config whoami sgcAddress) events).published = requests events ∧
      ∀ node s, (Run.after (Network.step hexdigest issuer)
          (.start hexdigest router config whoami sgcAddress) events).swarms node = some s →
        s.assignmentDict.get? = lastStates (initialState config) (requests events) := by
  have hstep : ∀ (net : Network ν) event, net.Consistent (initialState config) →
      (net.step hexdigest issuer event).Consistent (initialState config) :=
    fun _ event h => h.step event
  have hconsistent := Run.invariant hstep
    (Network.consistent_start hexdigest router config whoami sgcAddress) events
  have hpublished := (Network.published_after (hreturned issuer)).2
  refine ⟨hpublished, fun node s hs => ?_⟩
  have hagrees := hconsistent.agrees node s hs
  rw [hdelivered, List.drop_length, hpublished] at hagrees
  exact hagrees

end Convergence

def samWhoami (server : Bool) : String := if server then "machine_server" else "machine_client"

/-- A network of the client and the server. -/
def samNetwork : Network Bool :=
  .start hexText (fun _ => answeringRouter) samConfig samWhoami fun _ => "localhost:3000"

/-- The client, which issues the requests, is told an outdated state in between. -/
def samEvents : List (Event Bool) :=
  [.request "machine_client" "idle", .deliver true, .request "machine_client" "listener",
    .deliver false, .deliver false, .deliver true]

theorem samNetwork_converges :
    (Run.after (Network.step hexText false) samNetwork samEvents).published =
        requests samEvents ∧
      ∀ node s, (Run.after (Network.step hexText false) samNetwork samEvents).swarms node = some s →
        s.assignmentDict.get? = lastStates (initialState samConfig) (requests samEvents) := by
  unfold samNetwork
  exact assignments_converge hexText (fun _ => answeringRouter) samConfig samWhoami
    (fun _ => "localhost:3000") false (by decide) (by decide)

/-! ## Echoes of outdated requests -/

namespace Network

variable {ν : Type} [DecidableEq ν] (hexdigest : Bytes → String) (issuer : ν)

/-- The states of the most recently handled requests. -/
def handled (net : Network ν) : String → Option String := lastStates (fun _ => none) net.published

/-- The issuer has the state of the most recently handled request for each machine. -/
def UpToDate (net : Network ν) : Prop :=
  ∀ s, net.swarms issuer = some s →
    ∀ machine state, net.handled machine = some state →
      s.assignmentDict.get? machine = some state

/-- After the event the issuer is up to date, and if it was an echo, as it was before. -/
def EchoIdle (net : Network ν) (event : Event ν) : Prop :=
  (net.step hexdigest issuer event).UpToDate issuer ∧
    (event = .deliver issuer →
      (net.step hexdigest issuer event).swarms issuer = net.swarms issuer)

/-- The echo that is delivered says what the most recently handled request for its machine
said. -/
def EchoFresh (net : Network ν) : Event ν → Prop
  | .request _ _ => True
  | .deliver node =>
    node = issuer → (net.swarms issuer).isSome → ∀ update,
      net.published[net.delivered issuer]? = some update →
        net.handled update.machine = some update.state

variable {hexdigest issuer} {net : Network ν}

omit [DecidableEq ν] in
theorem upToDate_of_swarms_eq {net' : Network ν} (h : net.UpToDate issuer)
    (hswarm : net'.swarms issuer = net.swarms issuer)
    (hpublished : net'.published = net.published) :
    net'.UpToDate issuer := by
  unfold UpToDate handled at *
  rw [hswarm, hpublished]
  exact h

omit [DecidableEq ν] in
/-- An issuer that was delivered all its updates is up to date. -/
theorem Consistent.upToDate {initial : String → Option String} (h : net.Consistent initial)
    (hdelivered : net.delivered issuer = net.published.length) : net.UpToDate issuer := by
  intro s hs machine state hstate
  have hagrees := h.agrees issuer s hs
  rw [hdelivered, List.drop_length] at hagrees
  have hlast : lastStates initial net.published machine = some state :=
    Writes.replay_extends nofun net.published machine state hstate
  exact (congrFun hagrees machine).trans hlast

theorem UpToDate.request (h : net.UpToDate issuer) (machine state : String) :
    (net.request hexdigest issuer machine state).UpToDate issuer := by
  obtain ⟨heq, -⟩ | heq | ⟨s, s', hs, hget, heq⟩ :=
    net.request_cases hexdigest issuer machine state
  · rw [heq]
    exact h
  · rw [heq]
    intro t ht
    simp at ht
  · rw [heq]
    intro t ht m st hm
    simp only [Function.update_self] at ht
    cases ht
    have hconcat := (congrFun (Writes.replay_concat net.published _) m).symm.trans hm
    rw [hget]
    exact Writes.write_extends (h s hs) hconcat

omit [DecidableEq ν] in
/-- An echo that leaves the node as it was is fresh. -/
theorem UpToDate.fresh_of_same (h : net.UpToDate issuer) {s : SgcSwarm}
    (hs : net.swarms issuer = some s) {update : AssignmentUpdate}
    (hnext : net.published[net.delivered issuer]? = some update)
    (hsame : survivor (assignmentUpdateCallback hexdigest update s) = some s) :
    net.handled update.machine = some update.state := by
  have hget : s.assignmentDict.get? update.machine = some update.state := by
    cases hcallback : assignmentUpdateCallback hexdigest update s with
    | error e s' =>
      rw [hcallback] at hsame
      cases hsame
    | ok a s' =>
      rw [hcallback] at hsame
      cases hsame
      rw [assignmentUpdateCallback_eq_ok hcallback]
      exact Writes.write_self update
  cases hhandled : net.handled update.machine with
  | none =>
    have hmem := List.mem_of_getElem? hnext
    exact absurd rfl ((Writes.of_replay_eq_none hhandled).2 update hmem)
  | some state =>
    rw [← h s hs update.machine state hhandled]
    exact hget

omit [DecidableEq ν] in
/-- While it is up to date the issuer has the states of everything that was published. -/
theorem UpToDate.states_eq (h : net.UpToDate issuer) {initial : String → Option String}
    (hconsistent : net.Consistent initial) {s : SgcSwarm} (hs : net.swarms issuer = some s) :
    s.assignmentDict.get? = lastStates initial net.published := by
  funext machine
  cases hhandled : net.handled machine with
  | none =>
    obtain ⟨-, hpublished⟩ := Writes.of_replay_eq_none hhandled
    have hleft : ∀ update ∈ net.published.drop (net.delivered issuer), update.machine ≠ machine :=
      fun update hupdate => hpublished update (List.mem_of_mem_drop hupdate)
    rw [← hconsistent.agrees issuer s hs]
    exact (Writes.replay_of_not_mem hleft).symm
  | some state =>
    rw [h s hs machine state hhandled]
    exact (Writes.replay_extends nofun net.published machine state hhandled).symm

variable (hexdigest) in
theorem swarms_deliver_of_ne {node : ν} (hnode : node ≠ issuer) :
    (net.deliver hexdigest node).swarms issuer = net.swarms issuer ∧
      (net.deliver hexdigest node).published = net.published := by
  obtain ⟨heq, -⟩ | ⟨s, update, -, -, heq⟩ := net.deliver_cases hexdigest node
  · rw [heq]
    exact ⟨rfl, rfl⟩
  · rw [heq]
    exact ⟨Function.update_of_ne (Ne.symm hnode) .., rfl⟩

/-- While the issuer is up to date, an echo changes nothing exactly if it is fresh. -/
theorem UpToDate.echoIdle_iff (h : net.UpToDate issuer) (event : Event ν) :
    net.EchoIdle hexdigest issuer event ↔ net.EchoFresh issuer event := by
  cases event with
  | request machine state =>
    exact iff_of_true ⟨h.request machine state, nofun⟩ trivial
  | deliver node =>
    by_cases hnode : node = issuer
    · subst hnode
      unfold EchoIdle step
      dsimp only
      obtain ⟨heq, hnone⟩ | ⟨s, update, hs, hnext, heq⟩ :=
        net.deliver_cases hexdigest node
      · rw [heq]
        refine iff_of_true ⟨h, fun _ => rfl⟩ fun _ hsome update hnext => ?_
        rcases hnone with hnone | hnone
        · rw [hnone] at hsome
          cases hsome
        · cases hnone.symm.trans hnext
      · rw [heq]
        constructor
        · rintro ⟨-, hsame⟩ - - _ hnext'
          cases hnext.symm.trans hnext'
          exact h.fresh_of_same hs hnext (by simpa using (hsame rfl).trans hs)
        · intro hfresh
          have hget := h s hs _ _ (hfresh rfl (by simp [hs]) update hnext)
          have hswarm : Function.update net.swarms node
              (survivor (assignmentUpdateCallback hexdigest update s)) node = net.swarms node := by
            rw [Function.update_self, assignmentUpdateCallback_same hget, hs]
            rfl
          exact ⟨upToDate_of_swarms_eq h hswarm rfl, fun _ => hswarm⟩
    · have hswarm := net.swarms_deliver_of_ne hexdigest hnode
      refine iff_of_true ⟨upToDate_of_swarms_eq h hswarm.1 hswarm.2, fun heq => ?_⟩
        fun heq => absurd heq hnode
      cases heq
      exact absurd rfl hnode

end Network

/-- **Main result.**  In every run, the issuer is always up to date and no echo changes it
exactly if every echo is fresh when it is delivered. -/
theorem echoes_idle_iff {ν : Type} [DecidableEq ν] (hexdigest : Bytes → String)
    (router : ν → Nat → PostOutcome) (config : Config) (whoami sgcAddress : ν → String)
    (issuer : ν) (events : List (Event ν)) :
    Run.Throughout (Network.step hexdigest issuer) (Network.EchoIdle hexdigest issuer)
        (.start hexdigest router config whoami sgcAddress) events ↔
      Run.Throughout (Network.step hexdigest issuer) (Network.EchoFresh issuer)
        (.start hexdigest router config whoami sgcAddress) events := by
  refine Run.throughout_congr (fun net => net.UpToDate issuer) (fun net event _ h => h.1)
    (fun net event h => h.echoIdle_iff event) ?_
  intro s _ machine state hstate
  cases hstate

/-- The issuer after the echo of an outdated request. -/
def samReapplied : Network Bool :=
  Run.after (Network.step hexText false) samNetwork [.request "machine_client" "idle",
    .request "machine_client" "listener", .deliver false]

theorem echo_reapplies :
    samReapplied.handled "machine_client" = some "listener" ∧
      (samReapplied.swarms false).map
        (fun s => s.assignmentDict.get? "machine_client") = some (some "idle") ∧
      ¬ Run.Throughout (Network.step hexText false) (Network.EchoIdle hexText false) samNetwork
        [.request "machine_client" "idle", .request "machine_client" "listener",
          .deliver false] := by
  have hhandled : samReapplied.handled "machine_client" = some "listener" := by decide
  have hstate : (samReapplied.swarms false).map
      (fun s => s.assignmentDict.get? "machine_client") = some (some "idle") := by decide
  refine ⟨hhandled, hstate, fun h => ?_⟩
  obtain ⟨s, hs, hget⟩ := Option.map_eq_some_iff.1 hstate
  have hlistener := h.2.2.1.1 s hs "machine_client" "listener" hhandled
  have hsame : some "idle" = some "listener" := hget.symm.trans hlistener
  revert hsame
  decide

end RtFogros.Swarm
