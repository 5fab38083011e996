import RtFogros.Scheduler.Requests
import RtFogros.Swarm.Nodes
import RtFogros.Swarm.Transitions

/-!
# The scheduler and the nodes

The scheduler's requests go to the node of its machine, in order and with none lost.  That node
applies each and publishes it to all; the updates are delivered to every node in the order in
which they were published, with none lost, to each at its own pace.  A callback that raises ends
the scheduler: it looks its names up before it requests anything.

`Follows` is what the nodes have to do with the scheduler in every state: what was published is
what was handled of its requests, and a node has the states of the updates that it was delivered
(`Follows.states_eq`), the issuer while it is up to date.  An issuer that was delivered all its
own updates is (`Network.Consistent.upToDate`).  `coherent_after` has all this of every run.
-/

namespace RtFogros

open Swarm

/-! ## Names of states -/

namespace MachineState

def name : MachineState → String
  | robot => "robot"
  | standby => "standby"
  | service => "service"
  | other name => name

def ofName (name : String) : MachineState :=
  if name = "robot" then robot
  else if name = "standby" then standby
  else if name = "service" then service
  else other name

@[simp] theorem name_ofName (name : String) : (ofName name).name = name := by
  unfold ofName
  split
  · exact Eq.symm ‹_›
  split
  · exact Eq.symm ‹_›
  split
  · exact Eq.symm ‹_›
  · rfl

theorem ofName_eq_service {name : String} : ofName name = service ↔ name = "service" := by
  constructor
  · intro h
    rw [← name_ofName name, h]
    rfl
  · rintro rfl
    decide

end MachineState

/-! ## The loop -/

/-- The scheduler, how many of its requests were handled, and the nodes. -/
structure ControlLoop (ν L : Type) where
  scheduler : PolicyScheduler L
  raised : Bool := false
  handled : Nat := 0
  net : Swarm.Network ν

inductive ControlEvent (ν L : Type) where
  | callback (r : Surroundings) (c : SchedulerCallback L)
  | handle
  | deliver (node : ν)

namespace ControlLoop

variable {ν L : Type}

/-- All nodes and the scheduler, started with the same configuration. -/
def start (hexdigest : Bytes → String) (router : ν → Nat → PostOutcome) (config : Config)
    (whoami sgcAddress : ν → String) (timeBound : TimeBound L) (automaticSwitching : Bool)
    (now : ℚ) : ControlLoop ν L where
  scheduler := .initial (config.assignment.map .ofName) timeBound automaticSwitching now
  net := .start hexdigest router config whoami sgcAddress

section Step

variable [DecidableEq ν] (hexdigest : Bytes → String) (issuer : ν)

/-- The issuer handles the next request. -/
def handle (l : ControlLoop ν L) : ControlLoop ν L :=
  match l.scheduler.requests[l.handled]? with
  | none => l
  | some request =>
    { l with
      handled := l.handled + 1
      net := l.net.request hexdigest issuer request.machine request.state.name }

variable [LinearOrder L] [Neg L] [One L]

def callback (l : ControlLoop ν L) (r : Surroundings) (c : SchedulerCallback L) :
    ControlLoop ν L :=
  if l.raised then l
  else
    match l.scheduler.callback r c with
    | .error _ => { l with raised := true }
    | .ok (scheduler, _) => { l with scheduler }

def step (l : ControlLoop ν L) : ControlEvent ν L → ControlLoop ν L
  | .callback r c => l.callback r c
  | .handle => l.handle hexdigest issuer
  | .deliver node => { l with net := l.net.deliver hexdigest node }

end Step

/-! ## What the scheduler has requested -/

/-- The update that a request becomes. -/
def update (request : SgcAssignment) : AssignmentUpdate := ⟨request.machine, request.state.name⟩

/-- The states the scheduler starts with. -/
abbrev assigned (config : Config) : PyDict String MachineState :=
  config.assignment.map MachineState.ofName

/-- The scheduler has what it requested, and requested it of configured machines. -/
structure Tracked (config : Config) (s : PolicyScheduler L) : Prop where
  sound : s.Sound config.assignment.keys
  switches : ∀ request ∈ s.requests, PolicyScheduler.Switches config.assignment.keys request
  replayed : s.assignmentDict.get? = PolicyScheduler.replayed (assigned config).get? s.requests

section Scheduler

variable {config : Config} {s s' : PolicyScheduler L}

theorem tracked_initial {machine : String}
    (hservice : config.assignment.keysWith (· = "service") = [machine]) (timeBound : TimeBound L)
    (automaticSwitching : Bool) (now : ℚ) :
    Tracked config (.initial (assigned config) timeBound automaticSwitching now) := by
  have honly : PolicyScheduler.Only .service (assigned config) machine := by
    intro x
    have hx : x ∈ config.assignment.keysWith (· = "service") ↔ x = machine := by
      rw [hservice, List.mem_singleton]
    rw [← hx, PyDict.mem_keysWith, PyDict.get?_map, Option.map_eq_some_iff]
    simp only [MachineState.ofName_eq_service, decide_eq_true_eq]
  refine ⟨?_, fun _ hrequest => absurd hrequest List.not_mem_nil, rfl⟩
  rw [← PyDict.keys_map MachineState.ofName config.assignment]
  exact PolicyScheduler.sound_initial honly timeBound automaticSwitching now

variable [LinearOrder L] [Neg L] [One L]

theorem Tracked.callback (h : Tracked config s) {r : Surroundings} {c : SchedulerCallback L}
    {response : Option String} (hcallback : s.callback r c = .ok (s', response)) :
    Tracked config s' := by
  obtain ⟨made, hmakes, hswitches⟩ :=
    (PolicyScheduler.moves_callback h.sound hcallback).makes h.sound
  refine ⟨h.sound.callback hcallback, ?_, ?_⟩
  · rw [hmakes.requests]
    exact fun request hrequest =>
      (List.mem_append.1 hrequest).elim (h.switches request) (hswitches request)
  · rw [hmakes.requests, hmakes.assignment, h.replayed, PolicyScheduler.replayed_append]

theorem Tracked.requests_initial (h : Tracked config s) {r : Surroundings}
    {c : SchedulerCallback L} {response : Option String}
    (hcallback : s.callback r c = .ok (s', response)) : s.requests <+: s'.requests := by
  obtain ⟨made, hmakes, -⟩ := (PolicyScheduler.moves_callback h.sound hcallback).makes h.sound
  exact hmakes.requests ▸ List.prefix_append ..

end Scheduler

/-! ## What the nodes have taken -/

/-- What was published is the requests that were handled, all of them while the issuer is
there; and every other node has the states of the updates that it was delivered. -/
structure Follows (issuer : ν) (initial : String → Option String) (l : ControlLoop ν L) :
    Prop where
  handled_le : l.handled ≤ l.scheduler.requests.length
  published : l.net.published <+: (l.scheduler.requests.take l.handled).map update
  all : (l.net.swarms issuer).isSome →
    l.net.published = (l.scheduler.requests.take l.handled).map update
  consistent : l.net.Consistent initial
  states : ∀ node s, l.net.swarms node = some s → node ≠ issuer →
    s.assignmentDict.get? = lastStates initial (l.net.published.take (l.net.delivered node))

section Nodes

variable [DecidableEq ν] {hexdigest : Bytes → String} {issuer : ν}
  {initial : String → Option String} {l : ControlLoop ν L}

theorem Follows.request (h : Follows issuer initial l) {request : SgcAssignment}
    (hrequest : l.scheduler.requests[l.handled]? = some request) :
    Follows issuer initial { l with
      handled := l.handled + 1
      net := l.net.request hexdigest issuer request.machine request.state.name } := by
  have htake : (l.scheduler.requests.take (l.handled + 1)).map update =
      (l.scheduler.requests.take l.handled).map update ++ [update request] := by
    rw [List.take_add_one, hrequest, List.map_append]
    rfl
  have hlt : l.handled < l.scheduler.requests.length := (List.getElem?_eq_some_iff.1 hrequest).1
  have hconsistent : Swarm.Network.Consistent initial
      (l.net.request hexdigest issuer request.machine request.state.name) :=
    h.consistent.request ..
  obtain ⟨heq, hnone⟩ | heq | ⟨s, s', hs, -, heq⟩ :=
    l.net.request_cases hexdigest issuer request.machine request.state.name
  · rw [heq] at hconsistent ⊢
    refine ⟨hlt, ?_, fun hsome => ?_, hconsistent, h.states⟩
    · exact htake ▸ h.published.trans (List.prefix_append ..)
    · rw [hnone] at hsome
      cases hsome
  · rw [heq] at hconsistent ⊢
    refine ⟨hlt, ?_, fun hsome => ?_, hconsistent, fun node t ht hnode => ?_⟩
    · exact htake ▸ h.published.trans (List.prefix_append ..)
    · dsimp only at hsome
      rw [Function.update_self] at hsome
      cases hsome
    · exact h.states node t ((Function.update_of_ne hnode ..).symm.trans ht) hnode
  · have hall := h.all (hs ▸ rfl)
    rw [heq] at hconsistent ⊢
    have hpublished : l.net.published ++ [update request] =
        (l.scheduler.requests.take (l.handled + 1)).map update := by
      rw [htake, hall]
    refine ⟨hlt, hpublished ▸ List.prefix_rfl, fun _ => hpublished, hconsistent,
      fun node t ht hnode => ?_⟩
    rw [h.states node t ((Function.update_of_ne hnode ..).symm.trans ht) hnode]
    exact congrArg _ (List.take_append_of_le_length (h.consistent.delivered_le node)).symm

theorem Follows.deliver (h : Follows issuer initial l) (receiver : ν) :
    Follows issuer initial { l with net := l.net.deliver hexdigest receiver } := by
  have hconsistent : Swarm.Network.Consistent initial (l.net.deliver hexdigest receiver) :=
    h.consistent.deliver receiver
  obtain ⟨heq, -⟩ | ⟨s, update, hs, hnext, heq⟩ := l.net.deliver_cases hexdigest receiver
  · rw [heq]
    exact h
  · rw [heq] at hconsistent ⊢
    refine ⟨h.handled_le, h.published, fun hsome => h.all ?_, hconsistent,
      fun node t ht hnode => ?_⟩
    · by_cases hissuer : issuer = receiver
      · rw [hissuer, hs]
        rfl
      · dsimp only at hsome
        rwa [Function.update_of_ne hissuer] at hsome
    · by_cases hreceiver : node = receiver
      · subst hreceiver
        simp only [Function.update_self] at ht ⊢
        cases hcallback : assignmentUpdateCallback hexdigest update s with
        | error e s' =>
          rw [hcallback] at ht
          cases ht
        | ok a s' =>
          rw [hcallback] at ht
          cases ht
          rw [assignmentUpdateCallback_eq_ok hcallback, h.states node s hs hnode, List.take_add_one,
            hnext]
          exact (Writes.replay_append ..).symm
      · dsimp only at ht ⊢
        rw [Function.update_of_ne hreceiver] at ht
        rw [Function.update_of_ne hreceiver]
        exact h.states node t ht hnode

theorem Follows.handle (h : Follows issuer initial l) :
    Follows issuer initial (l.handle hexdigest issuer) := by
  unfold ControlLoop.handle
  split
  · exact h
  · exact h.request ‹_›

omit [DecidableEq ν] in
theorem Follows.callback (h : Follows issuer initial l) {scheduler : PolicyScheduler L}
    (hrequests : l.scheduler.requests <+: scheduler.requests) :
    Follows issuer initial { l with scheduler } := by
  have htake : scheduler.requests.take l.handled = l.scheduler.requests.take l.handled := by
    obtain ⟨later, hlater⟩ := hrequests
    rw [← hlater, List.take_append_of_le_length h.handled_le]
  refine ⟨h.handled_le.trans hrequests.length_le, ?_, ?_, h.consistent, h.states⟩
  · dsimp only
    rw [htake]
    exact h.published
  · dsimp only
    rw [htake]
    exact h.all

/-- How many of the requests a node has taken. -/
def taken (issuer : ν) (l : ControlLoop ν L) (node : ν) : Nat :=
  if node = issuer then l.net.published.length else l.net.delivered node

theorem Follows.taken_le (h : Follows issuer initial l) (node : ν) :
    l.taken issuer node ≤ l.scheduler.requests.length := by
  have hpublished : l.net.published.length ≤ l.scheduler.requests.length := by
    have hle := h.published.length_le
    rw [List.length_map, List.length_take] at hle
    omega
  unfold taken
  split
  · exact hpublished
  · exact (h.consistent.delivered_le node).trans hpublished

omit [DecidableEq ν] in
theorem Follows.published_take (h : Follows issuer initial l) {n : Nat}
    (hn : n ≤ l.net.published.length) :
    l.net.published.take n = (l.scheduler.requests.take n).map update := by
  have hall : l.net.published <+: l.scheduler.requests.map update :=
    h.published.trans ((List.take_prefix ..).map update)
  rw [List.prefix_iff_eq_take.1 hall, List.take_take, Nat.min_eq_left hn, List.map_take]

/-- The states of a node; those of the issuer while it is up to date. -/
theorem Follows.states_eq (h : Follows issuer initial l) {node : ν} {s : SgcSwarm}
    (hs : l.net.swarms node = some s) (hissuer : node = issuer → l.net.UpToDate issuer) :
    s.assignmentDict.get? = lastStates initial
      ((l.scheduler.requests.take (l.taken issuer node)).map update) := by
  unfold taken
  by_cases hnode : node = issuer
  · rw [if_pos hnode, ← h.published_take (Nat.le_refl _), List.take_length]
    subst hnode
    exact (hissuer rfl).states_eq h.consistent hs
  · rw [if_neg hnode, ← h.published_take (h.consistent.delivered_le node)]
    exact h.states node s hs hnode

end Nodes

/-! ## Every run -/

/-- What holds of the loop between two events. -/
structure Coherent (config : Config) (issuer : ν) (l : ControlLoop ν L) : Prop where
  tracked : Tracked config l.scheduler
  follows : Follows issuer (initialState config) l

section Runs

variable {hexdigest : Bytes → String} {issuer : ν} {config : Config} {l : ControlLoop ν L}

theorem coherent_start {machine : String}
    (hservice : config.assignment.keysWith (· = "service") = [machine])
    (router : ν → Nat → PostOutcome) (whoami sgcAddress : ν → String) (timeBound : TimeBound L)
    (automaticSwitching : Bool) (now : ℚ) :
    Coherent config issuer
      (start hexdigest router config whoami sgcAddress timeBound automaticSwitching now) := by
  refine ⟨tracked_initial hservice timeBound automaticSwitching now, Nat.le_refl 0,
    List.prefix_rfl, fun _ => rfl,
    Swarm.Network.consistent_start hexdigest router config whoami sgcAddress, fun node s hs _ => ?_⟩
  exact launchSgc_eq_some hs

variable [LinearOrder L] [Neg L] [One L]

theorem callback_cases (l : ControlLoop ν L) (r : Surroundings) (c : SchedulerCallback L) :
    l.callback r c = l ∨ l.callback r c = { l with raised := true } ∨
      ∃ scheduler response, l.scheduler.callback r c = .ok (scheduler, response) ∧
        l.callback r c = { l with scheduler } := by
  unfold callback
  split
  · exact .inl rfl
  · split
    · exact .inr (.inl rfl)
    · rename_i scheduler response hcallback
      exact .inr (.inr ⟨scheduler, response, hcallback, rfl⟩)

variable [DecidableEq ν]

omit [LinearOrder L] [Neg L] [One L] in
theorem scheduler_handle (hexdigest : Bytes → String) (issuer : ν) (l : ControlLoop ν L) :
    (l.handle hexdigest issuer).scheduler = l.scheduler := by
  unfold handle
  split <;> rfl

theorem Coherent.step (h : Coherent config issuer l) (event : ControlEvent ν L) :
    Coherent config issuer (l.step hexdigest issuer event) := by
  cases event with
  | callback r c =>
    change Coherent config issuer (l.callback r c)
    obtain heq | heq | ⟨scheduler, response, hcallback, heq⟩ := l.callback_cases r c
    · rw [heq]
      exact h
    · rw [heq]
      exact ⟨h.tracked, h.follows.handled_le, h.follows.published, h.follows.all,
        h.follows.consistent, h.follows.states⟩
    · rw [heq]
      exact ⟨h.tracked.callback hcallback,
        h.follows.callback (h.tracked.requests_initial hcallback)⟩
  | handle =>
    have htracked := h.tracked
    rw [← scheduler_handle hexdigest issuer l] at htracked
    exact ⟨htracked, h.follows.handle⟩
  | deliver node => exact ⟨h.tracked, h.follows.deliver node⟩

theorem coherent_after {machine : String}
    (hservice : config.assignment.keysWith (· = "service") = [machine])
    (router : ν → Nat → PostOutcome) (whoami sgcAddress : ν → String) (timeBound : TimeBound L)
    (automaticSwitching : Bool) (now : ℚ) (events : List (ControlEvent ν L)) :
    Coherent config issuer (Run.after (step hexdigest issuer)
      (start hexdigest router config whoami sgcAddress timeBound automaticSwitching now) events) :=
  Run.invariant (fun _ event h => h.step event)
    (coherent_start hservice router whoami sgcAddress timeBound automaticSwitching now) events

end Runs

end ControlLoop

end RtFogros
