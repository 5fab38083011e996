import RtFogros.Lib.Writes
import RtFogros.Scheduler.Invariant

/-!
# What the scheduler requests

A callback requests nothing, hands the state service on, or is one of parallel profiling.  It
writes down what it requests, so the requests replayed over the configured assignment give the
scheduler's own.

`Moves` is the inversion of a callback by its requests: none, the two of a switch in the order in
which they are made, the machine that is left on standby first, or a list of parallel profiling.
What the nodes of the system do with the requests (`Control`) is proved from it alone.
-/

namespace RtFogros

namespace PolicyScheduler

/-- The states of the machines after some requests. -/
abbrev replayed (initial : String → Option MachineState) (requests : List SgcAssignment) :
    String → Option MachineState :=
  Writes.replay SgcAssignment.machine SgcAssignment.state initial requests

theorem replayed_append (initial : String → Option MachineState)
    (requests later : List SgcAssignment) :
    replayed initial (requests ++ later) = replayed (replayed initial requests) later :=
  Writes.replay_append ..

variable {L : Type} {keys : List String} {s s' s'' t : PolicyScheduler L} {r : Surroundings}

/-! ## Requests that are written down -/

/-- The requests made on the way from one state to the other, each written down. -/
structure Makes (s s' : PolicyScheduler L) (made : List SgcAssignment) : Prop where
  requests : s'.requests = s.requests ++ made
  assignment : s'.assignmentDict.get? = replayed s.assignmentDict.get? made

theorem Makes.refl (s : PolicyScheduler L) : Makes s s [] := ⟨(List.append_nil _).symm, rfl⟩

theorem Makes.trans {requests requests' : List SgcAssignment} (h : Makes s s' requests)
    (h' : Makes s' s'' requests') : Makes s s'' (requests ++ requests') := by
  constructor
  · rw [h'.requests, h.requests, List.append_assoc]
  · rw [h'.assignment, h.assignment, replayed_append]

theorem makes_assign (s : PolicyScheduler L) (machine : String) (state : MachineState) :
    Makes s (s.assign machine state) [⟨machine, state⟩] :=
  ⟨rfl, PyDict.get?_set ..⟩

/-- A loop requests one state for the machines with `p`. -/
theorem makes_assignAll (p : String → Bool) (state : MachineState) (machines : List String)
    (s : PolicyScheduler L) :
    Makes s (machines.foldl (fun t machine => if p machine then t.assign machine state else t) s)
      ((machines.filter p).map (⟨·, state⟩)) := by
  induction machines generalizing s with
  | nil => exact .refl _
  | cons machine machines ih =>
    rw [List.foldl_cons]
    by_cases hp : p machine
    · rw [if_pos hp, List.filter_cons_of_pos hp]
      exact (makes_assign s machine state).trans (ih _)
    · rw [if_neg hp, List.filter_cons_of_neg hp]
      exact ih s

/-! ## What a callback can do -/

/-- A request for a configured machine, to go on standby or in service. -/
def Switches (keys : List String) (request : SgcAssignment) : Prop :=
  request.machine ∈ keys ∧ (request.state = .standby ∨ request.state = .service)

/-- What a callback does about the assignment. -/
inductive Moves (keys : List String) (s s' : PolicyScheduler L) : Prop
  | stays (hparallel : s'.isDoingParallelProfiling = s.isDoingParallelProfiling)
      (hmakes : Makes s s' [])
  | passes {previous new : String} (hprevious : s.serviceMachine = some previous)
      (hnew : new ∈ keys) (hne : new ≠ previous)
      (hparallel : s'.isDoingParallelProfiling = s.isDoingParallelProfiling)
      (hmakes : Makes s s' [⟨previous, .standby⟩, ⟨new, .service⟩])
  | parallel {requests : List SgcAssignment}
      (hparallel : s.isDoingParallelProfiling = true ∨ s'.isDoingParallelProfiling = true)
      (hrequests : ∀ request ∈ requests, Switches keys request) (hmakes : Makes s s' requests)

/-- What a callback writes before its requests is no matter. -/
theorem Moves.of_eq (h : Moves keys t s') (hassignment : t.assignmentDict = s.assignmentDict)
    (hrequests : t.requests = s.requests)
    (hparallel : t.isDoingParallelProfiling = s.isDoingParallelProfiling) : Moves keys s s' := by
  have hmakes : ∀ {requests}, Makes t s' requests → Makes s s' requests :=
    fun h => ⟨hrequests ▸ h.requests, hassignment ▸ h.assignment⟩
  cases h with
  | stays hsame h => exact .stays (hsame.trans hparallel) (hmakes h)
  | passes hprevious hnew hne hsame h =>
    refine .passes ?_ hnew hne (hsame.trans hparallel) (hmakes h)
    unfold serviceMachine at hprevious ⊢
    rwa [← hassignment]
  | parallel hone hall h => exact .parallel (hparallel ▸ hone) hall (hmakes h)

/-- Nor is what it writes after them. -/
theorem Moves.to_eq (h : Moves keys s t) (hassignment : s'.assignmentDict = t.assignmentDict)
    (hrequests : s'.requests = t.requests)
    (hparallel : s'.isDoingParallelProfiling = t.isDoingParallelProfiling) : Moves keys s s' := by
  have hmakes : ∀ {requests}, Makes s t requests → Makes s s' requests :=
    fun h => ⟨hrequests ▸ h.requests, hassignment ▸ h.assignment⟩
  cases h with
  | stays hsame h => exact .stays (hparallel.trans hsame) (hmakes h)
  | passes hprevious hnew hne hsame h =>
    exact .passes hprevious hnew hne (hparallel.trans hsame) (hmakes h)
  | parallel hone hall h => exact .parallel (hparallel ▸ hone) hall (hmakes h)

theorem Moves.refl (s : PolicyScheduler L) : Moves keys s s := .stays rfl (.refl s)

theorem Moves.makes (h : Moves keys s s') (hs : Sound keys s) :
    ∃ made, Makes s s' made ∧ ∀ request ∈ made, Switches keys request := by
  cases h with
  | stays hparallel hmakes => exact ⟨[], hmakes, nofun⟩
  | passes hprevious hnew hne hparallel hmakes =>
    have hkey := PyDict.mem_keys_of_get? (get?_of_serviceMachine hprevious)
    rw [hs.keys_eq] at hkey
    exact ⟨_, hmakes, List.forall_mem_cons.2 ⟨⟨hkey, .inl rfl⟩,
      List.forall_mem_singleton.2 ⟨hnew, .inr rfl⟩⟩⟩
  | parallel hparallel hrequests hmakes => exact ⟨_, hmakes, hrequests⟩

theorem moves_switchToMachine {machineNew : Option String}
    (h : s.switchToMachine r machineNew = .ok s') (hkeys : s.serviceDict.keys = keys) :
    Moves keys s s' := by
  obtain ⟨-, rfl⟩ | ⟨previous, new, serviceDict, hprevious, rfl, hne, hnew, -, rfl⟩ :=
    switchToMachine_ok h
  · exact .refl _
  · refine .passes hprevious (hkeys ▸ hnew) hne rfl ?_
    have hstandby := makes_assign { s with serviceDict } previous .standby
    have hservice := makes_assign ({ s with serviceDict }.assign previous .standby) new .service
    exact ⟨(hstandby.trans hservice).requests, (hstandby.trans hservice).assignment⟩

theorem moves_leave {better : Option String} (h : s.LeavesFor r better s')
    (hkeys : s.serviceDict.keys = keys) : Moves keys s s' := by
  obtain ⟨-, rfl⟩ | ⟨machine, -, h⟩ := h
  · exact .refl _
  · exact moves_switchToMachine h hkeys

variable [LinearOrder L] [Neg L] [One L]

theorem moves_switchToNext (h : s.switchToNextUnprofiledMachine r = .ok s')
    (hkeys : s.serviceDict.keys = keys) : Moves keys s s' := by
  obtain ⟨-, ⟨rfl, -⟩ | ⟨machine, -, -, h⟩⟩ | ⟨-, ⟨-, rfl⟩ | ⟨-, h⟩⟩ := switchToNext_ok h
  · exact (Moves.refl _).of_eq rfl rfl rfl
  · exact (moves_switchToMachine h hkeys).of_eq rfl rfl rfl
  · exact .refl _
  · exact moves_switchToMachine h hkeys

theorem moves_handleTimeout (h : s.handleTimeout r = .ok s') (hkeys : s.serviceDict.keys = keys) :
    Moves keys s s' := by
  obtain ⟨-, h⟩ | ⟨-, h⟩ := handleTimeout_ok h
  · exact (moves_switchToNext h hkeys).of_eq rfl rfl rfl
  · unfold withoutService at h
    split at h
    · exact (moves_leave h hkeys).of_eq rfl rfl rfl
    · exact moves_leave h hkeys

theorem moves_handleProfiling {profileUpdate : Profile L}
    (h : s.handleProfileMessageAtProfiling r profileUpdate = .ok s')
    (hkeys : s.serviceDict.keys = keys) : Moves keys s s' := by
  unfold handleProfileMessageAtProfiling at h
  split at h
  · cases h
    exact (Moves.refl _).of_eq rfl rfl rfl
  · split at h
    · exact (moves_switchToNext h hkeys).of_eq rfl rfl rfl
    · cases h

theorem moves_handleRunning {profileUpdate : Profile L}
    (h : s.handleProfileMessageAtRunning r profileUpdate = .ok s')
    (hkeys : s.serviceDict.keys = keys) : Moves keys s s' := by
  obtain ⟨-, h⟩ | ⟨-, rfl⟩ := handleRunning_ok h
  · exact moves_leave h hkeys
  · exact .refl _

theorem moves_profileAtParallel {profileUpdate : Profile L}
    (h : s.profileAtParallel r profileUpdate = .ok s') (hkeys : s.serviceDict.keys = keys) :
    Moves keys s s' := by
  unfold profileAtParallel at h
  split at h
  · cases h
  rename_i service hservice
  have hkeys' : (s.serviceDict.set profileUpdate.identity
      (service.update r.update profileUpdate)).keys = keys :=
    (PyDict.keys_set_of_mem (PyDict.mem_keys_of_get? hservice) _).trans hkeys
  dsimp only at h
  split at h
  · obtain ⟨s₁, hhandled, h⟩ := bind_ok h
    have hmoves := (moves_handleProfiling hhandled hkeys').of_eq (s := s) rfl rfl rfl
    split at h
    · cases h
      exact hmoves.to_eq rfl rfl rfl
    · cases h
      exact hmoves
  · cases h
    exact (Moves.refl _).of_eq rfl rfl rfl

theorem moves_profileTopic {profileUpdate : Profile L}
    (h : s.profileTopicCallback r profileUpdate = .ok s') (hkeys : s.serviceDict.keys = keys) :
    Moves keys s s' := by
  unfold profileTopicCallback at h
  split at h
  · exact moves_profileAtParallel h hkeys
  split at h
  · cases h
  rename_i service hservice
  obtain ⟨machine, hmachine, hget⟩ := Option.bind_eq_some_iff.1 hservice
  split at h
  · split at h
    · exact moves_handleTimeout h hkeys
    · cases h
      exact .refl _
  · rename_i hidentity
    have hsame : profileUpdate.identity = machine :=
      Option.some.inj ((not_not.1 hidentity).trans hmachine)
    have hkeys' : (s.serviceDict.set profileUpdate.identity
        (service.update r.update profileUpdate)).keys = keys :=
      (PyDict.keys_set_of_mem (hsame ▸ PyDict.mem_keys_of_get? hget) _).trans hkeys
    dsimp only at h
    split at h
    · exact (moves_handleTimeout h hkeys').of_eq rfl rfl rfl
    · split at h
      · split at h
        · exact (moves_handleProfiling h hkeys').of_eq rfl rfl rfl
        · cases h
          exact (Moves.refl _).of_eq rfl rfl rfl
      · exact (moves_handleRunning h hkeys').of_eq rfl rfl rfl

theorem moves_doProfiling (h : s.doProfiling r = .ok s') (hkeys : s.serviceDict.keys = keys) :
    Moves keys s s' := by
  unfold doProfiling at h
  split at h
  · cases h
    exact .refl _
  · exact (moves_switchToNext h hkeys).of_eq rfl rfl rfl

omit [LinearOrder L] [Neg L] [One L] in
/-- What a loop requests, for machines that are configured. -/
theorem switches_of_filter {machines : List String} {p : String → Bool} {state : MachineState}
    (hmachines : ∀ machine ∈ machines, machine ∈ keys)
    (hstate : state = .standby ∨ state = .service) :
    ∀ request ∈ (machines.filter p).map (⟨·, state⟩ : String → SgcAssignment),
      Switches keys request := by
  rintro request hrequest
  obtain ⟨machine, hmachine, rfl⟩ := List.mem_map.1 hrequest
  exact ⟨hmachines machine (List.mem_of_mem_filter hmachine), hstate⟩

omit [LinearOrder L] [Neg L] [One L] in
theorem moves_doParallelProfiling (hkeys : s.assignmentDict.keys = keys) :
    Moves keys s (s.doParallelProfiling r) := by
  unfold doParallelProfiling
  split
  · exact .refl _
  set start : PolicyScheduler L := { s with
    currentActiveServiceMachine := s.serviceMachine
    isDoingParallelProfiling := true
    isParallelProfilingReady := false
    activeProfilingResult := .empty }
  have hmembers : ∀ machine ∈ start.standbyMachines, machine ∈ keys :=
    fun machine hmachine => hkeys ▸ (PyDict.keysWith_sublist _ _).subset hmachine
  obtain ⟨assignmentDict, requests, -, hstart⟩ := assignAll_frame
    (fun m => decide (some m ≠ start.serviceMachine)) .service start.standbyMachines start
    fun m hm => (PyDict.keysWith_sublist _ _).subset hm
  have hmakes := makes_assignAll (fun m => decide (some m ≠ start.serviceMachine)) .service
    start.standbyMachines start
  rw [hstart] at hmakes
  rw [switchToAll_eq, hstart]
  exact .parallel (.inr rfl) (switches_of_filter hmembers (.inr rfl))
    ⟨hmakes.requests, hmakes.assignment⟩

theorem moves_parallelProfilingBest (hs : Sound keys s) {response : Option String}
    (h : s.parallelProfilingBest = .ok (s', response)) : Moves keys s s' := by
  unfold parallelProfilingBest at h
  split at h
  · rename_i hready
    simp only [Bool.and_eq_true] at hready
    set done : PolicyScheduler L := { s with isDoingParallelProfiling := false }
    dsimp only at h
    obtain ⟨t, hoff, heq⟩ := map_ok h
    cases heq
    have hmembers : ∀ machine ∈ done.nonrobotMachines, machine ∈ keys :=
      fun machine hmachine => hs.keys_eq ▸ (PyDict.keysWith_sublist _ _).subset hmachine
    cases hchosen : (done.getAMachineWithBetterProfile []).or s.currentActiveServiceMachine with
    | none =>
      rw [hchosen] at hoff
      cases hoff
    | some machine =>
      have hmachine : machine ∈ keys := by
        obtain ⟨current, hcurrent, hkey⟩ := hs.active hready.2
        rcases hbetter : done.getAMachineWithBetterProfile [] with _ | better
        · rw [hbetter, Option.none_or, hcurrent] at hchosen
          exact Option.some.inj hchosen ▸ hkey
        · rw [hbetter, Option.some_or] at hchosen
          exact Option.some.inj hchosen ▸
            hs.results better (mem_results_of_better (s := done) hbetter)
      rw [hchosen, switchOff_eq] at hoff
      cases hoff
      have hmakes := (makes_assignAll (fun m => decide (machine ≠ m)) .standby
        done.nonrobotMachines done).trans (makes_assign _ machine .service)
      refine .parallel (.inl hready.2) (fun request hrequest => ?_)
        ⟨hmakes.requests, hmakes.assignment⟩
      rcases List.mem_append.1 hrequest with hrequest | hrequest
      · exact switches_of_filter hmembers (.inl rfl) request hrequest
      · rw [List.mem_singleton.1 hrequest]
        exact ⟨hmachine, .inr rfl⟩
  · cases h
    exact .refl _

theorem moves_machineWithBetterProfile {response : Option String}
    (h : s.machineWithBetterProfile r = .ok (s', response)) (hkeys : s.serviceDict.keys = keys) :
    Moves keys s s' := by
  unfold machineWithBetterProfile at h
  obtain ⟨t, hswitch, h⟩ := bind_ok h
  split at h
  · cases h
    exact moves_switchToMachine hswitch hkeys
  · cases h

/-- What a callback does, one case for each kind. -/
theorem moves_callback (hs : Sound keys s) {c : SchedulerCallback L} {response : Option String}
    (h : s.callback r c = .ok (s', response)) : Moves keys s s' := by
  cases c with
  | profileTopic profileUpdate =>
    obtain ⟨t, ht, heq⟩ := map_ok h
    cases heq
    exact moves_profileTopic ht hs.services
  | profilingOptimizer =>
    rw [callback] at h
    split at h
    · cases h
      exact .refl _
    · obtain ⟨t, ht, heq⟩ := map_ok h
      cases heq
      exact moves_doProfiling ht hs.services
  | parallelProfiling =>
    rw [callback] at h
    split at h
    · cases h
      exact .refl _
    · cases h
      exact moves_doParallelProfiling hs.keys_eq
  | parallelProfilingBest => exact moves_parallelProfilingBest hs h
  | machineWithBetterProfile => exact moves_machineWithBetterProfile h hs.services
  | lsActiveProfile =>
    cases h
    exact .refl _

end PolicyScheduler

end RtFogros
