import RtFogros.Control.Loop

/-!
# One machine in service

The scheduler puts the machine that it leaves on standby before it puts the next one in
service.  So a node that takes its requests one by one sees at most one machine in service, but
in the midst of those of parallel profiling.

`Exclusive` is what the requests have to be for that, at each of their prefixes; an event adds
none, the two of a switch, or those of parallel profiling (`Exclusive.step`).
`one_service_machine` carries it over to the nodes: every node has the states of a prefix of the
requests, except an issuer with an outdated echo.
-/

namespace RtFogros

open Swarm

namespace ControlLoop

variable {ν L : Type}

/-- At most one machine is in service. -/
def Sole (states : String → Option MachineState) : Prop :=
  ∀ x y, states x = some .service → states y = some .service → x = y

theorem sole_of_only {assignment : PyDict String MachineState} {machine : String}
    (h : PolicyScheduler.Only .service assignment machine) : Sole assignment.get? :=
  fun x y hx hy => ((h x).1 hx).trans ((h y).1 hy).symm

/-- The machine that is alone in service goes on standby. -/
theorem only_standby {assignment : PyDict String MachineState} {machine : String}
    (h : PolicyScheduler.Only .service assignment machine) (x : String) :
    PolicyScheduler.replayed assignment.get? [⟨machine, .standby⟩] x ≠ some .service := by
  have hwrite : PolicyScheduler.replayed assignment.get? [⟨machine, .standby⟩] =
      (assignment.set machine .standby).get? := (PyDict.get?_set ..).symm
  rw [hwrite]
  by_cases hx : x = machine
  · rw [hx, PyDict.get?_set_self]
    decide
  · rw [PyDict.get?_set_of_ne _ hx]
    exact fun hservice => hx ((h x).1 hservice)

theorem Sole.concat_service {states : String → Option MachineState}
    (h : ∀ x, states x ≠ some .service) (machine : String) :
    Sole (PolicyScheduler.replayed states [⟨machine, .service⟩]) := by
  have hmachine : ∀ x, PolicyScheduler.replayed states [⟨machine, .service⟩] x = some .service →
      x = machine := by
    intro x hx
    by_contra hne
    exact h x ((Writes.write_of_ne hne).symm.trans hx)
  exact fun x y hx hy => (hmachine x hx).trans (hmachine y hy).symm

variable [LinearOrder L] [Neg L] [One L] [DecidableEq ν]

/-! ## Prefixes of the requests -/

/-- The `k`th request was made by an event before or after which the scheduler is in parallel
profiling. -/
def InParallel (hexdigest : Bytes → String) (issuer : ν) (l : ControlLoop ν L)
    (events : List (ControlEvent ν L)) (k : Nat) : Prop :=
  ∃ before event later, events = before ++ event :: later ∧
    let l₁ := Run.after (step hexdigest issuer) l before
    let l₂ := l₁.step hexdigest issuer event
    (l₁.scheduler.isDoingParallelProfiling = true ∨
      l₂.scheduler.isDoingParallelProfiling = true) ∧
    l₁.scheduler.requests.length < k ∧ k ≤ l₂.scheduler.requests.length

variable {hexdigest : Bytes → String} {issuer : ν} {config : Config} {l : ControlLoop ν L}
  {events : List (ControlEvent ν L)}

theorem InParallel.mono {k : Nat} (h : InParallel hexdigest issuer l events k)
    (event : ControlEvent ν L) : InParallel hexdigest issuer l (events ++ [event]) k := by
  obtain ⟨before, event', later, rfl, h⟩ := h
  exact ⟨before, event', later ++ [event], by rw [List.append_assoc, List.cons_append], h⟩

/-- A run that is never in parallel profiling makes no such requests. -/
theorem not_inParallel {k : Nat}
    (h : ∀ n ≤ events.length,
      (Run.after (step hexdigest issuer) l (events.take n)).scheduler.isDoingParallelProfiling =
        false) : ¬ InParallel hexdigest issuer l events k := by
  rintro ⟨before, event, later, rfl, hparallel, -⟩
  have hbefore := h before.length (by simp)
  have hafter := h (before.length + 1) (by simp)
  rw [List.take_left] at hbefore
  rw [List.take_length_add_append, List.take_succ_cons, List.take_zero, Run.after_concat] at hafter
  rcases hparallel with hone | hone
  · cases hbefore.symm.trans hone
  · cases hafter.symm.trans hone

/-- After the first of the requests at most one machine is in service, or they are of parallel
profiling. -/
def Exclusive (hexdigest : Bytes → String) (issuer : ν) (config : Config) (l : ControlLoop ν L)
    (events : List (ControlEvent ν L)) : Prop :=
  ∀ k ≤ (Run.after (step hexdigest issuer) l events).scheduler.requests.length,
    Sole (PolicyScheduler.replayed (assigned config).get?
      ((Run.after (step hexdigest issuer) l events).scheduler.requests.take k)) ∨
      InParallel hexdigest issuer l events k

section Step

variable {event : ControlEvent ν L} {l' : ControlLoop ν L}
  (hl' : Run.after (step hexdigest issuer) l events = l')

include hl'

/-- An event adds to the requests. -/
theorem Exclusive.concat (h : Exclusive hexdigest issuer config l events)
    {made : List SgcAssignment}
    (hmade : (l'.step hexdigest issuer event).scheduler.requests = l'.scheduler.requests ++ made)
    (hsole : ∀ k, 0 < k → k ≤ made.length →
      Sole (PolicyScheduler.replayed (assigned config).get?
        (l'.scheduler.requests ++ made.take k)) ∨
      l'.scheduler.isDoingParallelProfiling = true ∨
      (l'.step hexdigest issuer event).scheduler.isDoingParallelProfiling = true) :
    Exclusive hexdigest issuer config l (events ++ [event]) := by
  intro k hk
  rw [Run.after_concat, hl', hmade] at hk ⊢
  obtain hle | hlt := le_or_gt k l'.scheduler.requests.length
  · rw [List.take_append_of_le_length hle]
    refine (h k (hl' ▸ hle)).imp (fun hsole => ?_) fun hparallel => hparallel.mono event
    rwa [hl'] at hsole
  · obtain ⟨j, rfl⟩ := Nat.exists_eq_add_of_lt hlt
    rw [Nat.add_assoc, List.take_length_add_append]
    rw [List.length_append, Nat.add_assoc, Nat.add_le_add_iff_left] at hk
    refine (hsole (j + 1) (Nat.succ_pos j) hk).imp_right fun hparallel => ?_
    refine ⟨events, event, [], rfl, ?_⟩
    rw [hl']
    dsimp only
    rw [hmade, List.length_append]
    exact ⟨hparallel, Nat.lt_add_of_pos_right (Nat.succ_pos j), Nat.add_le_add_left hk _⟩

theorem Exclusive.same (h : Exclusive hexdigest issuer config l events)
    (hsame : (l'.step hexdigest issuer event).scheduler.requests = l'.scheduler.requests) :
    Exclusive hexdigest issuer config l (events ++ [event]) := by
  have hmade : (l'.step hexdigest issuer event).scheduler.requests =
      l'.scheduler.requests ++ [] := by
    rw [hsame, List.append_nil]
  refine h.concat hl' hmade fun k hpos hk => ?_
  exact absurd hk (Nat.not_le_of_lt hpos)

theorem Exclusive.step (h : Exclusive hexdigest issuer config l events)
    (hcoherent : Coherent config issuer l') :
    Exclusive hexdigest issuer config l (events ++ [event]) := by
  cases event with
  | callback r c =>
    obtain heq | heq | ⟨scheduler, response, hcallback, heq⟩ := l'.callback_cases r c
    · exact h.same hl' (congrArg (fun l => l.scheduler.requests) heq)
    · exact h.same hl' (congrArg (fun l => l.scheduler.requests) heq)
    have htracked := hcoherent.tracked
    have hstep : l'.step hexdigest issuer (.callback r c) = { l' with scheduler } := heq
    cases PolicyScheduler.moves_callback htracked.sound hcallback with
    | stays hparallel hmakes =>
      exact h.same hl' (by rw [hstep]; exact hmakes.requests.trans (List.append_nil _))
    | passes hprevious hnew hne hparallel hmakes =>
      refine h.concat hl' (by rw [hstep]; exact hmakes.requests) fun k hpos hk => ?_
      cases hsequential : l'.scheduler.isDoingParallelProfiling with
      | true => exact .inr (.inl rfl)
      | false =>
        obtain ⟨machine, honly⟩ := htracked.sound.service hsequential
        obtain rfl := Option.some.inj
          (hprevious.symm.trans (PolicyScheduler.serviceMachine_of_only honly))
        refine .inl ?_
        rw [PolicyScheduler.replayed_append, ← htracked.replayed]
        obtain rfl | rfl : k = 1 ∨ k = 2 := by
          simp only [List.length_cons, List.length_nil] at hk
          omega
        · exact fun x _ hx => absurd hx (only_standby honly x)
        · exact Sole.concat_service (only_standby honly) _
    | parallel hparallel hrequests hmakes =>
      refine h.concat hl' (by rw [hstep]; exact hmakes.requests) fun k _ _ => .inr ?_
      rw [hstep]
      exact hparallel
  | handle => exact h.same hl' (congrArg _ (scheduler_handle hexdigest issuer l'))
  | deliver node => exact h.same hl' rfl

end Step

/-! ## What a node sees -/

omit [LinearOrder L] [Neg L] [One L] [DecidableEq ν] in
/-- What a node calls service is in service. -/
theorem service_of_lastStates {requests : List SgcAssignment}
    (hswitches : ∀ request ∈ requests,
      PolicyScheduler.Switches config.assignment.keys request) {x : String}
    (h : lastStates (initialState config) (requests.map update) x = some "service") :
    PolicyScheduler.replayed (assigned config).get? requests x = some .service := by
  have hinitial : ∀ k v, initialState config k = some v →
      ((assigned config).get? k).map MachineState.name = some v := by
    intro k v hk
    rw [PyDict.get?_map, Option.map_map, (Option.mem_filter_iff.1 hk).1]
    exact congrArg some (MachineState.name_ofName v)
  have hextends := Writes.replay_extends hinitial (requests.map update) x "service" h
  rw [Writes.replay_log_map] at hextends
  obtain ⟨state, hstate, hname⟩ := Option.map_eq_some_iff.1
    ((Writes.replay_map MachineState.name requests x).symm.trans hextends)
  rcases Writes.of_replay_eq_some hstate with hassigned | ⟨request, hrequest, -, rfl⟩
  · rw [PyDict.get?_map] at hassigned
    obtain ⟨v, -, rfl⟩ := Option.map_eq_some_iff.1 hassigned
    rw [MachineState.name_ofName] at hname
    rw [← MachineState.ofName_eq_service.2 hname]
    exact hstate
  · obtain ⟨-, hstandby | hservice⟩ := hswitches request hrequest
    · rw [hstandby] at hname
      exact absurd hname (by decide)
    · rw [← hservice]
      exact hstate

section Main

variable {machine : String}
  (hservice : config.assignment.keysWith (· = "service") = [machine])
  (router : ν → Nat → PostOutcome) (whoami sgcAddress : ν → String) (timeBound : TimeBound L)
  (automaticSwitching : Bool) (now : ℚ)

include hservice

theorem exclusive_after (events : List (ControlEvent ν L)) :
    Exclusive hexdigest issuer config
      (start hexdigest router config whoami sgcAddress timeBound automaticSwitching now)
      events := by
  induction events using List.reverseRecOn with
  | nil =>
    intro k hk
    obtain ⟨machine, honly⟩ :=
      (tracked_initial hservice timeBound automaticSwitching now).sound.service rfl
    exact .inl (by rw [Nat.le_zero.1 hk]; exact sole_of_only honly)
  | append_singleton events event ih =>
    exact ih.step rfl
      (coherent_after hservice router whoami sgcAddress timeBound automaticSwitching now events)

/-- **Main result.**  In every run a node other than the issuer, and the issuer if it is up to
date or was delivered all its updates, has at most one machine in state service, unless the last
request it took is one of those of parallel profiling. -/
theorem one_service_machine (events : List (ControlEvent ν L)) :
    let first := start hexdigest router config whoami sgcAddress timeBound automaticSwitching now
    let l := Run.after (step hexdigest issuer) first events
    ∀ node s, l.net.swarms node = some s →
      (node = issuer → l.net.UpToDate issuer ∨
        l.net.delivered issuer = l.net.published.length) →
      (∀ x y, s.assignmentDict.get? x = some "service" →
        s.assignmentDict.get? y = some "service" → x = y) ∨
      InParallel hexdigest issuer first events (l.taken issuer node) := by
  intro first l node s hs hissuer
  have h : Coherent config issuer l :=
    coherent_after hservice router whoami sgcAddress timeBound automaticSwitching now events
  have hupToDate : node = issuer → l.net.UpToDate issuer := fun hnode =>
    (hissuer hnode).elim id h.follows.consistent.upToDate
  have hswitches : ∀ request ∈ l.scheduler.requests.take (l.taken issuer node),
      PolicyScheduler.Switches config.assignment.keys request :=
    fun request hrequest => h.tracked.switches request (List.mem_of_mem_take hrequest)
  refine (exclusive_after hservice router whoami sgcAddress timeBound automaticSwitching now
    events _ (h.follows.taken_le node)).imp_left fun hsole x y hx hy => ?_
  rw [h.follows.states_eq hs hupToDate] at hx hy
  exact hsole x y (service_of_lastStates hswitches hx) (service_of_lastStates hswitches hy)

end Main

/-- A robot, an edge machine in service and two machines on standby. -/
def loopConfig : Config where
  topics := some [⟨"/chatter", "std_msgs/msg/String", none⟩]
  stateMachine := ⟨[("robot", some ⟨some [("/chatter", "pub")], none⟩),
    ("standby", some ⟨some [], none⟩),
    ("service", some ⟨some [("/chatter", "sub")], none⟩)], by decide⟩
  assignment := ⟨[("robot", "robot"), ("edge", "service"), ("cloud", "standby"),
    ("backup", "standby")], by decide⟩
  topology := some (.node "robot" [.leaf "edge", .leaf "cloud", .leaf "backup"])

/-- The loop of the robot's node, which handles the requests, and the edge machine's. -/
def loopStart : ControlLoop Bool ℤ :=
  start hexText (fun _ => answeringRouter) loopConfig
    (fun robot => if robot then "robot" else "edge") (fun _ => "localhost:3000")
    ⟨-1, -1, -1, -1, -1, -1⟩ true 0

/-- The machine in service is silent, so another one takes its place. -/
def loopRun : List (ControlEvent Bool ℤ) :=
  [.callback ⟨0, 0, 0, 0, 0, 0, 0⟩ .profilingOptimizer,
    .callback ⟨20, 20, 20, 20, 0, 0, 1⟩ (.profileTopic ⟨"edge", 1, 1, 1, 1, 1, 1⟩),
    .handle, .handle, .handle, .handle, .deliver false, .deliver false, .deliver true,
    .deliver true]

theorem one_service_machine_loopRun : ∃ s,
    (Run.after (step hexText true) loopStart loopRun).net.swarms false = some s ∧
      ∀ x y, s.assignmentDict.get? x = some "service" →
        s.assignmentDict.get? y = some "service" → x = y := by
  have hservice : loopConfig.assignment.keysWith (· = "service") = ["edge"] := rfl
  have hsome : ((Run.after (step hexText true) loopStart loopRun).net.swarms false).isSome := by
    decide +kernel
  have hsequential : ∀ n < 11, (Run.after (step hexText true) loopStart
      (loopRun.take n)).scheduler.isDoingParallelProfiling = false := by
    decide +kernel
  obtain ⟨s, hs⟩ := Option.isSome_iff_exists.1 hsome
  refine ⟨s, hs, (one_service_machine hservice _ _ _ _ _ _ loopRun false s hs nofun).resolve_right
    (not_inParallel fun n hn => hsequential n (Nat.lt_succ_of_le hn))⟩

/-- The echo of an earlier request puts a second machine in service at the issuer. -/
example : ((Run.after (step hexText true) loopStart loopRun).net.swarms true).map (fun s =>
    s.assignmentDict.keysWith (· = "service")) = some ["cloud", "backup"] := by
  decide +kernel

end ControlLoop

end RtFogros
