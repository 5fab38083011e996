import RtFogros.Control.OneService

/-!
# The nodes settle

With a configuration whose states list topics that are declared and routers that respond no node
ever raises, whatever the order of callbacks, requests and deliveries.  Once all requests are
handled and delivered, the nodes have the states that the scheduler has.

A node is `Healthy` if it was loaded from the configuration with a router that responds and has a
declared state for every machine; it can go to any declared state then (`Healthy.canSwitch`), so
a callback leaves it healthy.  The scheduler requests only states that are declared, so the nodes
stay healthy in every run (`nodes_survive`).  `nodes_settle` needs none of this: it follows from
what the nodes have to do with the scheduler in every state.
-/

namespace RtFogros

open Swarm

/-- A configuration that the scheduler's switches can be made with. -/
structure WellFormed (config : Config) : Prop where
  topology : config.topology.isSome
  assigned : ∀ entry ∈ config.assignment.entries, entry.2 ∈ config.stateMachine.keys
  standby : "standby" ∈ config.stateMachine.keys
  service : "service" ∈ config.stateMachine.keys
  states : ∀ entry ∈ config.stateMachine.entries, ∃ description topics,
    entry.2 = some description ∧ description.topics = some topics ∧
    (∀ pair ∈ topics, pair.1 ∈ (config.topics.getD []).map InterfaceConfig.name) ∧
    ∀ pair ∈ description.services.getD [],
      pair.1 ∈ (config.services.getD []).map InterfaceConfig.name

/-! ## Nodes that can switch -/

/-- A node whose router responds and that has the states of all machines, all of them
declared. -/
structure Healthy (config : Config) (s : SgcSwarm) : Prop where
  same : ∃ router sgcAddress identifier, SameConfig (loaded router config sgcAddress identifier) s
  answering : Answering s.router
  machines : ∀ machine ∈ config.assignment.keys, machine ∈ s.assignmentDict.keys
  states : ∀ machine state, s.assignmentDict.get? machine = some state →
    state ∈ config.stateMachine.keys

section Swarm

variable {config : Config} {s s' : SgcSwarm}

/-- What a declared state describes. -/
theorem WellFormed.exists_machine (hwell : WellFormed config) {router : Nat → PostOutcome}
    {sgcAddress identifier : String}
    (hsame : SameConfig (loaded router config sgcAddress identifier) s) {state : String}
    (hstate : state ∈ config.stateMachine.keys) :
    ∃ machine topics, s.stateDict.get? state = some machine ∧ machine.topics = some topics ∧
      (∀ pair ∈ topics, pair.1 ∈ s.topicDict.keys) ∧
      ∀ pair ∈ machine.services.getD [], pair.1 ∈ s.serviceDict.keys := by
  obtain ⟨machine, hmachine⟩ := PyDict.mem_keys.1 (mem_keys_loadStateMachine.2 hstate)
  obtain ⟨description, hentry, rfl⟩ := get?_loadStateMachine hmachine
  obtain ⟨description, topics, rfl, htopics, hdeclared, hservices⟩ := hwell.states _ hentry
  refine ⟨stateMachine state (some description), topics, ?_, htopics, fun pair hpair => ?_,
    fun pair hpair => ?_⟩
  · rw [hsame.stateDict]
    exact hmachine
  · rw [hsame.topicDict]
    exact mem_keys_loadTypes.2 (hdeclared pair hpair)
  · rw [hsame.serviceDict]
    exact mem_keys_loadTypes.2 (hservices pair hpair)

/-- It can go to any declared state. -/
theorem Healthy.canSwitch (h : Healthy config s) (hwell : WellFormed config) {state : String}
    (hstate : state ∈ config.stateMachine.keys) : s.CanSwitch state := by
  obtain ⟨router, sgcAddress, identifier, hsame⟩ := h.same
  have htopology : s.config.topology.isSome := by
    rw [hsame.config]
    exact hwell.topology
  obtain ⟨machine, topics, hmachine, htopics, hdeclared, hservices⟩ :=
    hwell.exists_machine hsame hstate
  obtain ⟨revoked, hrevoked, hrevokes⟩ : ∃ revoked, s.revokedTopics state = some revoked ∧
      ∀ pair ∈ revoked, pair.1 ∈ s.topicDict.keys := by
    unfold SgcSwarm.revokedTopics
    cases hprevious : s.assignmentDict.get? s.instanceIdentifier with
    | none => exact ⟨[], rfl, nofun⟩
    | some previous =>
      dsimp only
      split
      · exact ⟨[], rfl, nofun⟩
      · obtain ⟨left, revoked, hleft, hrevoked, hrevokes, -⟩ :=
          hwell.exists_machine hsame (h.states _ _ hprevious)
        exact ⟨revoked, by rw [hleft]; exact hrevoked, hrevokes⟩
  refine ⟨revoked, machine, hrevoked, hmachine, hrevokes, ⟨?_, .inl htopology⟩,
    ⟨hservices, .inl htopology⟩⟩
  rw [htopics]
  exact hdeclared

theorem Healthy.switches (h : Healthy config s) (hwell : WellFormed config) {state : String}
    (hstate : state ∈ config.stateMachine.keys) : s.Switches state :=
  ⟨h.canSwitch hwell hstate, h.answering.answers _⟩

theorem Healthy.hasQos (h : Healthy config s) : HasQos s := by
  obtain ⟨router, sgcAddress, identifier, hsame⟩ := h.same
  exact hsame.hasQos (hasQos_assigned router config sgcAddress identifier .empty)

/-- What stays as it was loaded stays healthy. -/
theorem Healthy.of_sameConfig (h : Healthy config s) (hsame : SameConfig s s')
    (hmachines : ∀ machine ∈ config.assignment.keys, machine ∈ s'.assignmentDict.keys)
    (hstates : ∀ machine state, s'.assignmentDict.get? machine = some state →
      state ∈ config.stateMachine.keys) : Healthy config s' := by
  obtain ⟨router, sgcAddress, identifier, hloaded⟩ := h.same
  exact ⟨⟨router, sgcAddress, identifier, hloaded.trans hsame⟩, hsame.router ▸ h.answering,
    hmachines, hstates⟩

variable (hexdigest : Bytes → String)

/-- So it takes what it is assigned, and stays healthy. -/
theorem Healthy.applyAssignment (h : Healthy config s) (hwell : WellFormed config)
    (machine : String) {state : String} (hstate : state ∈ config.stateMachine.keys) :
    ∃ s', Swarm.applyAssignment hexdigest (.single machine state) s = .ok () s' ∧
      Healthy config s' := by
  obtain ⟨_, s', hrun⟩ : Completes (Swarm.applyAssignment hexdigest (.single machine state)) s := by
    refine (completes_applyAssignment_iff hexdigest h.hasQos _).2 fun assigned hassigned => ?_
    have hmem := PyDict.get?_eq_some_iff.1 hassigned
    rw [PyDict.single, List.mem_singleton, Prod.mk.injEq] at hmem
    exact hmem.2 ▸ h.switches hwell hstate
  have hdict : s'.assignmentDict = s.assignmentDict.set machine state :=
    assignmentDict_of_applyAssignment hrun
  refine ⟨s', hrun, h.of_sameConfig ((sameConfig_applyAssignment hexdigest _).of_ok hrun) ?_ ?_⟩
  · intro x hx
    rw [hdict]
    exact PyDict.mem_keys_set.2 (.inr (h.machines x hx))
  · intro x assigned hx
    rw [hdict] at hx
    by_cases heq : x = machine
    · rw [heq, PyDict.get?_set_self] at hx
      exact Option.some.inj hx ▸ hstate
    · rw [PyDict.get?_set_of_ne _ heq] at hx
      exact h.states x assigned hx

theorem Healthy.sgcAssignmentCallback (h : Healthy config s) (hwell : WellFormed config)
    (machine : String) {state : String} (hstate : state ∈ config.stateMachine.keys) :
    ∃ s', survivor (Swarm.sgcAssignmentCallback hexdigest machine state s) = some s' ∧
      Healthy config s' := by
  obtain ⟨s', hrun, hhealthy⟩ := h.applyAssignment hexdigest hwell machine hstate
  refine ⟨s', ?_, hhealthy⟩
  unfold Swarm.sgcAssignmentCallback
  rw [bind_apply, hrun]
  rfl

theorem Healthy.assignmentUpdateCallback (h : Healthy config s) (hwell : WellFormed config)
    {update : AssignmentUpdate} (hmachine : update.machine ∈ config.assignment.keys)
    (hstate : update.state ∈ config.stateMachine.keys) :
    ∃ s', survivor (Swarm.assignmentUpdateCallback hexdigest update s) = some s' ∧
      Healthy config s' := by
  obtain ⟨previous, hprevious⟩ := PyDict.mem_keys.1 (h.machines _ hmachine)
  unfold Swarm.assignmentUpdateCallback
  rw [bind_apply, get_apply]
  dsimp only
  rw [bind_apply, getItem_apply s hprevious]
  dsimp only
  split
  · exact ⟨s, rfl, h⟩
  · obtain ⟨s', hrun, hhealthy⟩ := h.applyAssignment hexdigest hwell update.machine hstate
    refine ⟨s', ?_, hhealthy⟩
    rw [hrun]
    rfl

/-- A node with a name whose router responds starts healthy. -/
theorem WellFormed.launchSgc (hwell : WellFormed config) {router : Nat → PostOutcome}
    (hanswering : Answering router) {whoami : String} (hnamed : whoami ≠ "")
    (sgcAddress : String) :
    ∃ s, Swarm.launchSgc hexdigest router config whoami sgcAddress = some s ∧
      Healthy config s := by
  have hload : load router config (some whoami) sgcAddress =
      some (loaded router config sgcAddress whoami) := by
    unfold load
    have hrosparam : (some whoami).filter (· ≠ "") = some whoami := by simp [hnamed]
    rw [hrosparam]
    split <;> rfl
  obtain ⟨d, s, hyaml, hd, hget⟩ := getAssignmentFromYaml_loaded router config sgcAddress whoami
  have hsame : SameConfig (loaded router config sgcAddress whoami) s := by
    cases hyaml
    exact ⟨rfl, rfl, rfl, rfl, rfl, rfl, rfl, rfl, rfl⟩
  have hhealthy : Healthy config s := by
    refine ⟨⟨router, sgcAddress, whoami, hsame⟩, hsame.router ▸ hanswering,
      fun machine hmachine => ?_, fun machine state hstate => ?_⟩
    · obtain ⟨state, hstate⟩ := PyDict.mem_keys.1 hmachine
      have hdeclared := hwell.assigned _ (PyDict.get?_eq_some_iff.1 hstate)
      refine PyDict.mem_keys.2 ⟨state, ?_⟩
      rw [hd, hget, initialState, hstate]
      simpa using hdeclared
    · rw [hd, hget] at hstate
      simpa using (Option.mem_filter_iff.1 hstate).2
  obtain ⟨_, s', hrun⟩ : Completes (Swarm.applyAssignment hexdigest d) s := by
    refine (completes_applyAssignment_iff hexdigest hhealthy.hasQos d).2 fun state hstate => ?_
    exact hhealthy.switches hwell (hhealthy.states _ _ (hd ▸ hstate))
  have hdict : s'.assignmentDict = s.assignmentDict := by
    rw [assignmentDict_of_applyAssignment hrun, hd]
    exact PyDict.foldl_set_eq_self fun entry hentry => PyDict.get?_eq_some_iff.2 hentry
  refine ⟨s', ?_,
    hhealthy.of_sameConfig ((sameConfig_applyAssignment hexdigest d).of_ok hrun) ?_ ?_⟩
  · unfold Swarm.launchSgc
    rw [hload, Option.bind_some, bind_apply, hyaml]
    dsimp only
    rw [hrun]
    rfl
  · rw [hdict]
    exact hhealthy.machines
  · rw [hdict]
    exact hhealthy.states

end Swarm

/-! ## Nodes that stay -/

namespace ControlLoop

variable {ν L : Type} [DecidableEq ν] {hexdigest : Bytes → String} {issuer : ν} {config : Config}

/-- Every node is there and healthy. -/
def AllHealthy (config : Config) (net : Swarm.Network ν) : Prop :=
  ∀ node, ∃ s, net.swarms node = some s ∧ Healthy config s

theorem AllHealthy.request {net : Swarm.Network ν} (h : AllHealthy config net)
    (hwell : WellFormed config) (machine : String) {state : String}
    (hstate : state ∈ config.stateMachine.keys) :
    AllHealthy config (net.request hexdigest issuer machine state) := by
  obtain ⟨s, hs, hhealthy⟩ := h issuer
  obtain ⟨s', hcallback, hhealthy'⟩ :=
    hhealthy.sgcAssignmentCallback hexdigest hwell machine hstate
  have hswarms : (net.request hexdigest issuer machine state).swarms =
      Function.update net.swarms issuer (some s') := by
    unfold Swarm.Network.request
    rw [hs, ← hcallback]
  intro node
  rw [hswarms]
  by_cases hnode : node = issuer
  · rw [hnode, Function.update_self]
    exact ⟨s', rfl, hhealthy'⟩
  · rw [Function.update_of_ne hnode]
    exact h node

theorem AllHealthy.deliver {net : Swarm.Network ν} (h : AllHealthy config net)
    (hwell : WellFormed config)
    (hpublished : ∀ update ∈ net.published,
      update.machine ∈ config.assignment.keys ∧ update.state ∈ config.stateMachine.keys)
    (receiver : ν) : AllHealthy config (net.deliver hexdigest receiver) := by
  obtain ⟨heq, -⟩ | ⟨s, update, hs, hnext, heq⟩ := net.deliver_cases hexdigest receiver
  · rw [heq]
    exact h
  · obtain ⟨s₁, hs₁, hhealthy⟩ := h receiver
    cases hs.symm.trans hs₁
    obtain ⟨hmachine, hstate⟩ := hpublished update (List.mem_of_getElem? hnext)
    obtain ⟨s', hcallback, hhealthy'⟩ :=
      hhealthy.assignmentUpdateCallback hexdigest hwell hmachine hstate
    intro node
    rw [heq, hcallback]
    dsimp only
    by_cases hnode : node = receiver
    · rw [hnode, Function.update_self]
      exact ⟨s', rfl, hhealthy'⟩
    · rw [Function.update_of_ne hnode]
      exact h node

variable [LinearOrder L] [Neg L] [One L] {l : ControlLoop ν L}

omit [DecidableEq ν] [LinearOrder L] [Neg L] [One L] in
/-- The state of a request is declared. -/
theorem declared_of_switches (hwell : WellFormed config) {request : SgcAssignment}
    (h : PolicyScheduler.Switches config.assignment.keys request) :
    request.state.name ∈ config.stateMachine.keys := by
  obtain ⟨-, hstate | hstate⟩ := h
  · rw [hstate]
    exact hwell.standby
  · rw [hstate]
    exact hwell.service

theorem AllHealthy.step (h : AllHealthy config l.net) (hcoherent : Coherent config issuer l)
    (hwell : WellFormed config) (event : ControlEvent ν L) :
    AllHealthy config (l.step hexdigest issuer event).net := by
  cases event with
  | callback r c =>
    change AllHealthy config (l.callback r c).net
    obtain heq | heq | ⟨scheduler, response, -, heq⟩ := l.callback_cases r c
    · rwa [heq]
    · rwa [heq]
    · rwa [heq]
  | handle =>
    change AllHealthy config (l.handle hexdigest issuer).net
    unfold ControlLoop.handle
    split
    · exact h
    · rename_i request hrequest
      exact h.request hwell _ (declared_of_switches hwell
        (hcoherent.tracked.switches request (List.mem_of_getElem? hrequest)))
  | deliver node =>
    refine h.deliver hwell (fun update hupdate => ?_) node
    obtain ⟨request, hrequest, rfl⟩ :=
      List.mem_map.1 (hcoherent.follows.published.subset hupdate)
    have hswitches := hcoherent.tracked.switches request (List.mem_of_mem_take hrequest)
    exact ⟨hswitches.1, declared_of_switches hwell hswitches⟩

section Main

variable {machine : String}
  (hservice : config.assignment.keysWith (· = "service") = [machine])
  {router : ν → Nat → PostOutcome} {whoami : ν → String} (sgcAddress : ν → String)
  (timeBound : TimeBound L) (automaticSwitching : Bool) (now : ℚ)

include hservice

/-- **Main result.**  With a well-formed configuration and routers that respond no node is ever
gone, in any run. -/
theorem nodes_survive (hwell : WellFormed config) (hanswering : ∀ node, Answering (router node))
    (hnamed : ∀ node, whoami node ≠ "")
    (events : List (ControlEvent ν L)) (node : ν) :
    ((Run.after (step hexdigest issuer)
      (start hexdigest router config whoami sgcAddress timeBound automaticSwitching now)
      events).net.swarms node).isSome := by
  have hstart : AllHealthy config
      (start hexdigest router config whoami sgcAddress timeBound automaticSwitching now :
        ControlLoop ν L).net :=
    fun node => hwell.launchSgc hexdigest (hanswering node) (hnamed node) (sgcAddress node)
  have hstep : ∀ (l : ControlLoop ν L) event, Coherent config issuer l ∧ AllHealthy config l.net →
      Coherent config issuer (l.step hexdigest issuer event) ∧
        AllHealthy config (l.step hexdigest issuer event).net :=
    fun l event h => ⟨h.1.step event, h.2.step h.1 hwell event⟩
  obtain ⟨s, hs, -⟩ := (Run.invariant hstep
    ⟨coherent_start hservice router whoami sgcAddress timeBound automaticSwitching now, hstart⟩
    events).2 node
  exact hs ▸ rfl

end Main

theorem wellFormed_loopConfig : WellFormed loopConfig where
  topology := rfl
  assigned := by decide
  standby := by decide
  service := by decide
  states := by simp [loopConfig]

theorem nodes_survive_loopRun :
    ((Run.after (step hexText true) loopStart loopRun).net.swarms true).isSome :=
  have hservice : loopConfig.assignment.keysWith (· = "service") = ["edge"] := rfl
  nodes_survive hservice (fun _ => "localhost:3000") _ _ _ wellFormed_loopConfig
    (fun _ => answering_answeringRouter) (by decide) loopRun true

section Main

variable {machine : String}
  (hservice : config.assignment.keysWith (· = "service") = [machine])
  (router : ν → Nat → PostOutcome) (whoami sgcAddress : ν → String) (timeBound : TimeBound L)
  (automaticSwitching : Bool) (now : ℚ)

include hservice

/-- **Main result.**  Whatever the order of events, if every configured state is declared and the
issuer is there, then once it has handled all requests and each node was delivered all updates,
every node has the scheduler's states, and outside parallel profiling the scheduler's service
machine, and no other, is in service. -/
theorem nodes_settle
    (hassigned : ∀ entry ∈ config.assignment.entries, entry.2 ∈ config.stateMachine.keys)
    (events : List (ControlEvent ν L)) :
    let l := Run.after (step hexdigest issuer)
      (start hexdigest router config whoami sgcAddress timeBound automaticSwitching now) events
    (l.net.swarms issuer).isSome → l.handled = l.scheduler.requests.length →
      (∀ node, l.net.delivered node = l.net.published.length) →
      ∀ node s, l.net.swarms node = some s →
        (∀ x, s.assignmentDict.get? x =
          (l.scheduler.assignmentDict.get? x).map MachineState.name) ∧
        (l.scheduler.isDoingParallelProfiling = false →
          ∀ x, s.assignmentDict.get? x = some "service" ↔ l.scheduler.serviceMachine = some x) := by
  intro l hissuer hhandled hdelivered node s hs
  have h : Coherent config issuer l :=
    coherent_after hservice router whoami sgcAddress timeBound automaticSwitching now events
  have hpublished : l.net.published = l.scheduler.requests.map update := by
    rw [h.follows.all hissuer, hhandled, List.take_length]
  have hstates : s.assignmentDict.get? =
      lastStates (initialState config) (l.scheduler.requests.map update) := by
    have hagrees := h.follows.consistent.agrees node s hs
    rwa [hdelivered, List.drop_length, hpublished] at hagrees
  have hinitial : initialState config =
      fun x => ((assigned config).get? x).map MachineState.name := by
    funext x
    rw [PyDict.get?_map, Option.map_map]
    unfold initialState
    cases hx : config.assignment.get? x with
    | none => rfl
    | some state =>
      have hdeclared := hassigned _ (PyDict.get?_eq_some_iff.1 hx)
      simp [hdeclared]
  have hsame : ∀ x, s.assignmentDict.get? x =
      (l.scheduler.assignmentDict.get? x).map MachineState.name := by
    intro x
    rw [hstates, h.tracked.replayed, hinitial]
    unfold lastStates
    rw [Writes.replay_log_map]
    exact Writes.replay_map MachineState.name l.scheduler.requests x
  refine ⟨hsame, fun hsequential x => ⟨fun hx => ?_, fun hx => ?_⟩⟩
  · rw [hstates] at hx
    have hreplayed := service_of_lastStates h.tracked.switches hx
    obtain ⟨only, honly⟩ := h.tracked.sound.service hsequential
    rw [← h.tracked.replayed] at hreplayed
    rw [(honly x).1 hreplayed]
    exact PolicyScheduler.serviceMachine_of_only honly
  · rw [hsame, PolicyScheduler.get?_of_serviceMachine hx]
    rfl

end Main

/-- All updates are delivered in the end. -/
def loopSettled : List (ControlEvent Bool ℤ) :=
  loopRun ++ [.deliver false, .deliver false, .deliver true, .deliver true]

theorem nodes_settle_loopSettled :
    let l := Run.after (step hexText true) loopStart loopSettled
    ∃ s, l.net.swarms false = some s ∧
      (∀ x, s.assignmentDict.get? x =
        (l.scheduler.assignmentDict.get? x).map MachineState.name) ∧
      (l.scheduler.isDoingParallelProfiling = false →
        ∀ x, s.assignmentDict.get? x = some "service" ↔ l.scheduler.serviceMachine = some x) := by
  have hservice : loopConfig.assignment.keysWith (· = "service") = ["edge"] := rfl
  intro l
  have hissuer : (l.net.swarms true).isSome := by decide +kernel
  have hother : (l.net.swarms false).isSome := by decide +kernel
  have hhandled : l.handled = l.scheduler.requests.length := by decide +kernel
  have hdelivered : ∀ node, l.net.delivered node = l.net.published.length := by decide +kernel
  obtain ⟨s, hs⟩ := Option.isSome_iff_exists.1 hother
  exact ⟨s, hs, nodes_settle hservice _ _ _ _ _ _ (by decide) loopSettled hissuer hhandled
    hdelivered false s hs⟩

end ControlLoop

end RtFogros
