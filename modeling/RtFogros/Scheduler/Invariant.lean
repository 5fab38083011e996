import RtFogros.Scheduler.Model

/-!
# One service machine

Outside parallel profiling exactly one machine is in state service (`run_one_service`).

Three routines switch machines: to a machine, to all, and off again.  Each is described once by the
states that it leaves, and the invariant `Sound` follows from these descriptions for every
callback.  `Only` says that one machine alone has a state; it is kept by a switch away from that
machine to another that has it next, which is the case that every callback comes down to.
-/

namespace RtFogros

namespace PolicyScheduler

variable {L : Type}

theorem map_ok {α β : Type} {x : Except PyError α} {f : α → β} {b : β} (h : x.map f = .ok b) :
    ∃ a, x = .ok a ∧ f a = b := by
  cases x with
  | error e => cases h
  | ok a =>
    cases h
    exact ⟨a, rfl, rfl⟩

theorem exists_of_isOk {α : Type} {x : Except PyError α} (h : x.isOk) : ∃ a, x = .ok a := by
  cases x with
  | error e => cases h
  | ok a => exact ⟨a, rfl⟩

theorem bind_ok {α β : Type} {x : Except PyError α} {f : α → Except PyError β} {b : β}
    (h : x >>= f = .ok b) : ∃ a, x = .ok a ∧ f a = .ok b := by
  cases x with
  | error e => cases h
  | ok a => exact ⟨a, rfl, h⟩

/-- `machine` alone is in state `state`. -/
def Only (state : MachineState) (assignment : PyDict String MachineState) (machine : String) :
    Prop :=
  ∀ x, assignment.get? x = some state ↔ x = machine

theorem mem_keysWith_state {assignment : PyDict String MachineState} {state : MachineState}
    {x : String} : x ∈ assignment.keysWith (· = state) ↔ assignment.get? x = some state := by
  rw [PyDict.mem_keysWith]
  constructor
  · rintro ⟨v, hv, hp⟩
    rw [hv, of_decide_eq_true hp]
  · intro h
    exact ⟨state, h, decide_eq_true rfl⟩

theorem only_iff {state : MachineState} {assignment : PyDict String MachineState}
    {machine : String} :
    Only state assignment machine ↔ assignment.keysWith (· = state) = [machine] := by
  constructor
  · intro h
    exact PyDict.keysWith_eq_singleton fun x => mem_keysWith_state.trans (h x)
  · intro h x
    rw [← mem_keysWith_state, h, List.mem_singleton]

theorem serviceMachine_of_only {s : PolicyScheduler L} {machine : String}
    (h : Only .service s.assignmentDict machine) : s.serviceMachine = some machine := by
  unfold serviceMachine
  rw [only_iff.1 h]
  rfl

theorem get?_of_serviceMachine {s : PolicyScheduler L} {machine : String}
    (h : s.serviceMachine = some machine) : s.assignmentDict.get? machine = some .service :=
  mem_keysWith_state.1 (List.mem_of_mem_head? h)

theorem Only.pass {assignment : PyDict String MachineState} {previous new : String}
    (h : Only .service assignment previous) (hne : new ≠ previous) :
    Only .service ((assignment.set previous .standby).set new .service) new := by
  intro x
  by_cases hnew : x = new
  · subst hnew
    simp
  · rw [PyDict.get?_set_of_ne _ hnew]
    refine ⟨fun hx => ?_, fun hx => absurd hx hnew⟩
    by_cases hprevious : x = previous
    · subst hprevious
      rw [PyDict.get?_set_self] at hx
      cases hx
    · rw [PyDict.get?_set_of_ne _ hprevious] at hx
      exact absurd ((h x).1 hx) hprevious

/-! ## Assigning many machines -/

/-- The assignment after a loop over `machines` that gives those with `p` a state. -/
theorem get?_assignAll (p : String → Bool) (state : MachineState) (machines : List String)
    (s : PolicyScheduler L) (x : String) :
    (machines.foldl (fun t machine => if p machine then t.assign machine state else t) s
      ).assignmentDict.get? x =
      if x ∈ machines ∧ p x then some state else s.assignmentDict.get? x := by
  induction machines generalizing s with
  | nil => simp
  | cons machine machines ih =>
    rw [List.foldl_cons, ih]
    by_cases hlater : x ∈ machines ∧ p x
    · rw [if_pos hlater, if_pos ⟨List.mem_cons_of_mem _ hlater.1, hlater.2⟩]
    · rw [if_neg hlater]
      by_cases hx : x = machine
      · subst hx
        by_cases hp : p x
        · rw [if_pos hp, if_pos ⟨List.mem_cons_self, hp⟩]
          exact PyDict.get?_set_self ..
        · rw [if_neg hp, if_neg fun h => hp h.2]
      · have hmem : ¬ (x ∈ machine :: machines ∧ p x) := by
          rintro ⟨hmem, hp⟩
          exact hlater ⟨(List.mem_cons.1 hmem).resolve_left hx, hp⟩
        rw [if_neg hmem]
        split
        · exact PyDict.get?_set_of_ne _ hx _
        · rfl

/-- Such a loop over keys touches nothing but their states. -/
theorem assignAll_frame (p : String → Bool) (state : MachineState) (machines : List String)
    (s : PolicyScheduler L) (hmachines : ∀ machine ∈ machines, machine ∈ s.assignmentDict.keys) :
    ∃ assignmentDict requests, assignmentDict.keys = s.assignmentDict.keys ∧
      machines.foldl (fun t machine => if p machine then t.assign machine state else t) s =
        { s with assignmentDict, requests } := by
  induction machines generalizing s with
  | nil => exact ⟨s.assignmentDict, s.requests, rfl, rfl⟩
  | cons machine machines ih =>
    rw [List.foldl_cons]
    obtain ⟨hmachine, hrest⟩ := List.forall_mem_cons.1 hmachines
    split
    · have hkeys : (s.assign machine state).assignmentDict.keys = s.assignmentDict.keys :=
        PyDict.keys_set_of_mem hmachine state
      obtain ⟨assignmentDict, requests, hkeys', heq⟩ := ih (s.assign machine state)
        (by rwa [hkeys])
      exact ⟨assignmentDict, requests, hkeys'.trans hkeys, heq⟩
    · exact ih s hrest

theorem switchToAll_eq (s : PolicyScheduler L) :
    s.switchToAll = s.standbyMachines.foldl
      (fun t m => if (fun m => decide (some m ≠ s.serviceMachine)) m then t.assign m .service
        else t) s := by
  unfold switchToAll
  congr 1
  funext t m
  by_cases hm : some m = s.serviceMachine <;> simp [hm]

theorem switchOff_eq (s : PolicyScheduler L) (machine : String) :
    s.switchOffAllButOne (some machine) =
      .ok ((s.nonrobotMachines.foldl
        (fun t m => if (fun m => decide (machine ≠ m)) m then t.assign m .standby else t) s).assign
          machine .service) := by
  unfold switchOffAllButOne
  have hloop : (fun (t : PolicyScheduler L) m =>
      if some machine ≠ some m then t.assign m .standby else t) =
        fun t m => if (fun m => decide (machine ≠ m)) m then t.assign m .standby else t := by
    funext t m
    by_cases hm : machine = m <;> simp [hm]
  rw [hloop]

/-! ## The invariant -/

/-- What holds of the scheduler between two callbacks, `keys` being the configured
machines. -/
structure Sound (keys : List String) (s : PolicyScheduler L) : Prop where
  keys_eq : s.assignmentDict.keys = keys
  services : s.serviceDict.keys = keys
  results : ∀ x ∈ s.activeProfilingResult.keys, x ∈ keys
  exclusive : ¬ (s.isDoingProfiling = true ∧ s.isDoingParallelProfiling = true)
  service : s.isDoingParallelProfiling = false → ∃ machine, Only .service s.assignmentDict machine
  active : s.isDoingParallelProfiling = true →
    ∃ machine, s.currentActiveServiceMachine = some machine ∧ machine ∈ keys

/-- The machines that the next one to profile is drawn from. -/
def drawable (s : PolicyScheduler L) : List String :=
  s.machinesNotProfiled.filter fun machine => some machine ≠ s.serviceMachine

/-- The result of the service machine is dropped. -/
def withoutService (s : PolicyScheduler L) : PolicyScheduler L :=
  match s.serviceMachine with
  | some machine => { s with activeProfilingResult := s.activeProfilingResult.erase machine }
  | none => s

section Routines

variable {keys : List String} {s s' : PolicyScheduler L} {r : Surroundings}

theorem resetService_ok {machine : Option String} {now : ℚ}
    (h : s.resetService machine now = .ok s') :
    ∃ name serviceDict, machine = some name ∧ name ∈ s.serviceDict.keys ∧
      serviceDict.keys = s.serviceDict.keys ∧ s' = { s with serviceDict } := by
  unfold resetService at h
  split at h
  · cases h
  · rename_i name
    split at h
    · cases h
    · rename_i service hservice
      cases h
      have hname := PyDict.mem_keys_of_get? hservice
      exact ⟨name, _, rfl, hname, PyDict.keys_set_of_mem hname _, rfl⟩

/-- What `_switch_to_machine` does: nothing, or it hands the state service on. -/
theorem switchToMachine_ok {machineNew : Option String}
    (h : s.switchToMachine r machineNew = .ok s') :
    (machineNew = s.serviceMachine ∧ s' = s) ∨
    ∃ previous new serviceDict, s.serviceMachine = some previous ∧ machineNew = some new ∧
      new ≠ previous ∧ new ∈ s.serviceDict.keys ∧ serviceDict.keys = s.serviceDict.keys ∧
      s' = (({ s with serviceDict }.assign previous .standby).assign new .service) := by
  unfold switchToMachine at h
  split at h
  · rename_i heq
    cases h
    exact .inl ⟨heq, rfl⟩
  · rename_i hne
    obtain ⟨s₁, hnew, h⟩ := bind_ok h
    obtain ⟨s₂, hprevious, h⟩ := bind_ok h
    obtain ⟨new, serviceDict₁, rfl, hmem, hkeys₁, rfl⟩ := resetService_ok hnew
    obtain ⟨previous, serviceDict₂, hservice, -, hkeys₂, rfl⟩ := resetService_ok hprevious
    rw [hservice] at h
    cases h
    refine .inr ⟨previous, new, serviceDict₂, hservice, rfl, ?_, hmem, hkeys₂.trans hkeys₁, rfl⟩
    rintro rfl
    exact hne hservice.symm

theorem Sound.switchToMachine (hs : Sound keys s) {machineNew : Option String}
    (h : s.switchToMachine r machineNew = .ok s') : Sound keys s' := by
  rcases switchToMachine_ok h with ⟨-, rfl⟩ |
    ⟨previous, new, serviceDict, hprevious, rfl, hne, hnew, hkeys, rfl⟩
  · exact hs
  have hpreviousKey : previous ∈ s.assignmentDict.keys :=
    PyDict.mem_keys_of_get? (get?_of_serviceMachine hprevious)
  have hnewKey : new ∈ s.assignmentDict.keys := by
    rw [hs.keys_eq, ← hs.services]
    exact hnew
  refine ⟨?_, ?_, hs.results, hs.exclusive, ?_, hs.active⟩
  · rw [← hs.keys_eq]
    have hstandby := PyDict.keys_set_of_mem hpreviousKey MachineState.standby
    exact (PyDict.keys_set_of_mem (hstandby ▸ hnewKey) _).trans hstandby
  · exact hkeys.trans hs.services
  · intro hparallel
    obtain ⟨machine, hmachine⟩ := hs.service hparallel
    obtain rfl : previous = machine :=
      Option.some.inj (hprevious.symm.trans (serviceMachine_of_only hmachine))
    exact ⟨new, hmachine.pass hne⟩

/-- The invariant does not depend on the results and the disconnected list beyond
the names that occur in them. -/
theorem Sound.of_results (hs : Sound keys s) {activeProfilingResult : PyDict String (Profile L)}
    (hresults : ∀ x ∈ activeProfilingResult.keys, x ∈ keys)
    (activeProfilingDisconnectedList : List String) :
    Sound keys { s with activeProfilingResult, activeProfilingDisconnectedList } :=
  ⟨hs.keys_eq, hs.services, hresults, hs.exclusive, hs.service, hs.active⟩

theorem Sound.of_service (hs : Sound keys s) {name : String} (hname : name ∈ s.serviceDict.keys)
    (service : SgcService L) :
    Sound keys { s with serviceDict := s.serviceDict.set name service } := by
  exact ⟨hs.keys_eq, (PyDict.keys_set_of_mem hname service).trans hs.services, hs.results,
    hs.exclusive, hs.service, hs.active⟩

variable [LinearOrder L] [Neg L] [One L]

theorem mem_results_of_better {excludeList : List String} {machine : String}
    (h : s.getAMachineWithBetterProfile excludeList = some machine) :
    machine ∈ s.activeProfilingResult.keys := by
  have hhead : ∀ entries : List (String × Profile L),
      entries.Sublist s.activeProfilingResult.entries →
      (sortedByMaxLatency entries).head?.map Prod.fst = some machine →
      machine ∈ s.activeProfilingResult.keys := by
    intro entries hsub hfirst
    obtain ⟨entry, hentry, rfl⟩ := Option.map_eq_some_iff.1 hfirst
    have hmem : entry ∈ entries := (List.mem_insertionSort _).1 (List.mem_of_mem_head? hentry)
    apply List.mem_map_of_mem
    exact hsub.subset hmem
  rw [getAMachineWithBetterProfile] at h
  split at h
  · split at h
    · cases h
    · exact hhead _ (List.filter_sublist.trans List.filter_sublist) h
  · exact hhead _ (List.filter_sublist.trans List.filter_sublist) h

/-- What `_switch_to_next_unprofiled_machine` does: with no machine left it ends the round
and may switch to the machine selected, else it switches to the one drawn. -/
theorem switchToNext_ok (h : s.switchToNextUnprofiledMachine r = .ok s') :
    (s.machinesNotProfiled = [] ∧
      (s' = { s with isDoingProfiling := false } ∧
          (∀ machine ∈ s.getAMachineWithBetterProfile [], machine = "") ∨
        ∃ machine, s.getAMachineWithBetterProfile [] = some machine ∧ machine ≠ "" ∧
          PolicyScheduler.switchToMachine { s with isDoingProfiling := false } r (some machine) =
            .ok s')) ∨
    (s.machinesNotProfiled ≠ [] ∧ (s.drawable = [] ∧ s' = s ∨
      s.drawable ≠ [] ∧
        s.switchToMachine r s.drawable[r.choice % s.drawable.length]? = .ok s')) := by
  unfold switchToNextUnprofiledMachine at h
  dsimp only at h
  split at h
  · rename_i hempty
    refine .inl ⟨List.length_eq_zero_iff.1 hempty, ?_⟩
    have hsame : ({ s with isDoingProfiling := false } : PolicyScheduler L
        ).getAMachineWithBetterProfile [] = s.getAMachineWithBetterProfile [] := rfl
    rw [hsame] at h
    generalize s.getAMachineWithBetterProfile [] = better at h ⊢
    rcases better with _ | machine
    · cases h
      exact .inl ⟨rfl, nofun⟩
    · dsimp only at h
      split at h
      · rename_i hname
        exact .inr ⟨machine, rfl, hname, h⟩
      · rename_i hname
        cases h
        exact .inl ⟨rfl, fun x hx => Option.some.inj hx ▸ not_not.1 hname⟩
  · rename_i hleft
    refine .inr ⟨fun hnone => hleft (hnone ▸ rfl), ?_⟩
    split at h
    · rename_i hothers
      unfold PolicyScheduler.switchToMachine at h
      rw [if_pos rfl] at h
      cases h
      exact .inl ⟨List.length_eq_zero_iff.1 hothers, rfl⟩
    · rename_i hothers
      exact .inr ⟨fun hnone => hothers (List.length_eq_zero_iff.2 hnone), h⟩

theorem Sound.switchToNext (hs : Sound keys s)
    (h : s.switchToNextUnprofiledMachine r = .ok s') : Sound keys s' := by
  have hdone : Sound keys { s with isDoingProfiling := false } :=
    ⟨hs.keys_eq, hs.services, hs.results, fun hboth => Bool.false_ne_true hboth.1, hs.service,
      hs.active⟩
  rcases switchToNext_ok h with ⟨-, ⟨rfl, -⟩ | ⟨machine, -, -, h⟩⟩ | ⟨-, ⟨-, rfl⟩ | ⟨-, h⟩⟩
  · exact hdone
  · exact hdone.switchToMachine h
  · exact hs
  · exact hs.switchToMachine h

/-- What the selection `better` makes of the scheduler outside profiling. -/
def LeavesFor (s : PolicyScheduler L) (r : Surroundings) (better : Option String)
    (s' : PolicyScheduler L) : Prop :=
  better = none ∧ s' = s ∨
    ∃ machine, better = some machine ∧ s.switchToMachine r (some machine) = .ok s'

omit [LinearOrder L] [Neg L] [One L] in
theorem leavesFor_of_match {better : Option String}
    (h : (match better with
      | some machine => s.switchToMachine r (some machine)
      | none => .ok s) = .ok s') : s.LeavesFor r better s' := by
  rcases better with _ | machine
  · cases h
    exact .inl ⟨rfl, rfl⟩
  · exact .inr ⟨machine, rfl, h⟩

omit [LinearOrder L] [Neg L] [One L] in
theorem Sound.leave (hs : Sound keys s) {better : Option String} (h : s.LeavesFor r better s') :
    Sound keys s' := by
  rcases h with ⟨-, rfl⟩ | ⟨machine, -, h⟩
  · exact hs
  · exact hs.switchToMachine h

theorem handleTimeout_ok (h : s.handleTimeout r = .ok s') :
    (s.isDoingProfiling = true ∧
      switchToNextUnprofiledMachine
        { s with
          activeProfilingDisconnectedList :=
            s.activeProfilingDisconnectedList ++ s.serviceMachine.toList } r = .ok s') ∨
    (s.isDoingProfiling = false ∧
      s.withoutService.LeavesFor r (s.withoutService.getAMachineWithBetterProfile []) s') := by
  unfold PolicyScheduler.handleTimeout at h
  split at h
  · rename_i hdoing
    exact .inl ⟨hdoing, h⟩
  · rename_i hidle
    exact .inr ⟨Bool.eq_false_of_not_eq_true hidle, leavesFor_of_match h⟩

theorem Sound.handleTimeout (hs : Sound keys s) (h : s.handleTimeout r = .ok s') :
    Sound keys s' := by
  rcases handleTimeout_ok h with ⟨-, h⟩ | ⟨-, h⟩
  · exact (hs.of_results hs.results _).switchToNext h
  · have hwithout : Sound keys s.withoutService := by
      unfold withoutService
      split
      · exact hs.of_results (fun x hx => hs.results x (PyDict.mem_keys_erase.1 hx).1) _
      · exact hs
    exact hwithout.leave h

theorem Sound.handleProfiling (hs : Sound keys s) {profileUpdate : Profile L}
    (hidentity : profileUpdate.identity ∈ keys)
    (h : s.handleProfileMessageAtProfiling r profileUpdate = .ok s') : Sound keys s' := by
  unfold handleProfileMessageAtProfiling at h
  split at h
  · cases h
    refine hs.of_results (fun x hx => ?_) _
    rcases PyDict.mem_keys_set.1 hx with rfl | hx
    · exact hidentity
    · exact hs.results x hx
  · split at h
    · rename_i machine hmachine
      refine Sound.switchToNext (hs.of_results (fun x hx => ?_) _) h
      rcases PyDict.mem_keys_set.1 hx with rfl | hx
      · exact hs.keys_eq ▸ PyDict.mem_keys_of_get? (get?_of_serviceMachine hmachine)
      · exact hs.results x hx
    · cases h

theorem handleRunning_ok {profileUpdate : Profile L}
    (h : s.handleProfileMessageAtRunning r profileUpdate = .ok s') :
    ((s.checkLatencyBound profileUpdate = false ∧ s.automaticSwitching = true) ∧
      s.LeavesFor r (s.getAMachineWithBetterProfile s.serviceMachine.toList) s') ∨
    (¬ (s.checkLatencyBound profileUpdate = false ∧ s.automaticSwitching = true) ∧ s' = s) := by
  unfold handleProfileMessageAtRunning at h
  split at h
  · rename_i hswitch
    simp only [Bool.and_eq_true, Bool.not_eq_true'] at hswitch
    exact .inl ⟨hswitch, leavesFor_of_match h⟩
  · rename_i hstay
    simp only [Bool.and_eq_true, Bool.not_eq_true'] at hstay
    cases h
    exact .inr ⟨hstay, rfl⟩

theorem Sound.handleRunning (hs : Sound keys s) {profileUpdate : Profile L}
    (h : s.handleProfileMessageAtRunning r profileUpdate = .ok s') : Sound keys s' := by
  rcases handleRunning_ok h with ⟨-, h⟩ | ⟨-, rfl⟩
  · exact hs.leave h
  · exact hs

theorem Sound.profileAtParallel (hs : Sound keys s) {profileUpdate : Profile L}
    (h : s.profileAtParallel r profileUpdate = .ok s') : Sound keys s' := by
  unfold PolicyScheduler.profileAtParallel at h
  split at h
  · cases h
  · rename_i service hservice
    have hname := PyDict.mem_keys_of_get? hservice
    have hupdated := hs.of_service hname (service.update r.update profileUpdate)
    dsimp only at h
    split at h
    · obtain ⟨s₁, hhandled, h⟩ := bind_ok h
      have hs₁ := hupdated.handleProfiling (hs.services ▸ hname) hhandled
      split at h
      · cases h
        exact ⟨hs₁.keys_eq, hs₁.services, hs₁.results, hs₁.exclusive, hs₁.service, hs₁.active⟩
      · cases h
        exact hs₁
    · cases h
      exact hupdated

theorem Sound.profileTopic (hs : Sound keys s) {profileUpdate : Profile L}
    (h : s.profileTopicCallback r profileUpdate = .ok s') : Sound keys s' := by
  unfold profileTopicCallback at h
  split at h
  · exact hs.profileAtParallel h
  · split at h
    · cases h
    · rename_i service hservice
      obtain ⟨machine, hmachine, hget⟩ := Option.bind_eq_some_iff.1 hservice
      split at h
      · split at h
        · exact hs.handleTimeout h
        · cases h
          exact hs
      · rename_i hidentity
        have hsame : profileUpdate.identity = machine :=
          Option.some.inj ((not_not.1 hidentity).trans hmachine)
        have hname : profileUpdate.identity ∈ s.serviceDict.keys :=
          hsame ▸ PyDict.mem_keys_of_get? hget
        have hupdated := hs.of_service hname (service.update r.update profileUpdate)
        dsimp only at h
        split at h
        · exact hupdated.handleTimeout h
        · split at h
          · split at h
            · exact hupdated.handleProfiling (hs.services ▸ hname) h
            · cases h
              exact hupdated
          · exact hupdated.handleRunning h

theorem Sound.doProfiling (hs : Sound keys s) (h : s.doProfiling r = .ok s') : Sound keys s' := by
  unfold PolicyScheduler.doProfiling at h
  split at h
  · cases h
    exact hs
  · rename_i hidle
    simp only [Bool.or_eq_true, not_or, Bool.not_eq_true] at hidle
    have hstart : Sound keys { s with
        isDoingProfiling := true
        activeProfilingResult := .empty
        activeProfilingDisconnectedList := [] } := by
      refine ⟨hs.keys_eq, hs.services, fun x hx => ?_, ?_, hs.service, hs.active⟩
      · cases hx
      · rintro ⟨-, hparallel⟩
        apply Bool.false_ne_true
        exact hidle.2.symm.trans hparallel
    exact hstart.switchToNext h

omit [LinearOrder L] [Neg L] [One L] in
theorem Sound.doParallelProfiling (hs : Sound keys s) : Sound keys (s.doParallelProfiling r) := by
  unfold PolicyScheduler.doParallelProfiling
  split
  · exact hs
  · rename_i hidle
    simp only [Bool.or_eq_true, not_or, Bool.not_eq_true] at hidle
    obtain ⟨machine, hmachine⟩ := hs.service hidle.2
    have hservice := serviceMachine_of_only hmachine
    set start : PolicyScheduler L := { s with
      currentActiveServiceMachine := s.serviceMachine
      isDoingParallelProfiling := true
      isParallelProfilingReady := false
      activeProfilingResult := .empty }
    obtain ⟨assignmentDict, requests, hkeys, hstart⟩ := assignAll_frame
      (fun m => decide (some m ≠ start.serviceMachine)) .service start.standbyMachines start
      fun m hm => (PyDict.keysWith_sublist _ _).subset hm
    rw [switchToAll_eq, hstart]
    refine ⟨hkeys.trans hs.keys_eq, hs.services, ?_, ?_, ?_, ?_⟩
    · intro x hx
      cases hx
    · rintro ⟨hprofiling, -⟩
      apply Bool.false_ne_true
      exact hidle.1.symm.trans hprofiling
    · intro hparallel
      cases hparallel
    · intro _
      refine ⟨machine, hservice, ?_⟩
      exact hs.keys_eq ▸ PyDict.mem_keys_of_get? (get?_of_serviceMachine hservice)

omit [LinearOrder L] [Neg L] [One L] in
theorem Sound.switchOffAllButOne (hs : Sound keys s) {machine : String} (hmachine : machine ∈ keys)
    (h : PolicyScheduler.switchOffAllButOne { s with isDoingParallelProfiling := false }
      (some machine) = .ok s') : Sound keys s' := by
  set done : PolicyScheduler L := { s with isDoingParallelProfiling := false }
  rw [switchOff_eq] at h
  cases h
  have hget := get?_assignAll (fun m => decide (machine ≠ m)) .standby done.nonrobotMachines done
  obtain ⟨assignmentDict, requests, hkeys, hoff⟩ := assignAll_frame
    (fun m => decide (machine ≠ m)) .standby done.nonrobotMachines done
    fun m hm => (PyDict.keysWith_sublist _ _).subset hm
  rw [hoff] at hget ⊢
  have hkeys' : assignmentDict.keys = keys := hkeys.trans hs.keys_eq
  refine ⟨(PyDict.keys_set_of_mem (hkeys' ▸ hmachine) _).trans hkeys', hs.services, hs.results,
    fun hboth => Bool.false_ne_true hboth.2, fun _ => ⟨machine, fun x => ?_⟩,
    fun hparallel => absurd hparallel Bool.false_ne_true⟩
  by_cases hx : x = machine
  · subst hx
    simp [assign]
  · refine ⟨fun hservice => ?_, fun heq => absurd heq hx⟩
    have hservice' : assignmentDict.get? x = some .service :=
      (PyDict.get?_set_of_ne _ hx _).symm.trans hservice
    have hx' := hget x
    dsimp only at hx'
    rw [hservice'] at hx'
    split at hx'
    · cases hx'
    · rename_i hskip
      have hnonrobot : x ∈ done.nonrobotMachines :=
        PyDict.mem_keysWith.2 ⟨.service, hx'.symm, by decide⟩
      exact absurd ⟨hnonrobot, decide_eq_true (Ne.symm hx)⟩ hskip

theorem Sound.parallelProfilingBest (hs : Sound keys s) {response : Option String}
    (h : s.parallelProfilingBest = .ok (s', response)) : Sound keys s' := by
  unfold PolicyScheduler.parallelProfilingBest at h
  split at h
  · rename_i hready
    simp only [Bool.and_eq_true] at hready
    obtain ⟨current, hcurrent, hkey⟩ := hs.active hready.2
    set done : PolicyScheduler L := { s with isDoingParallelProfiling := false }
    obtain ⟨machine, hmachine, hchosen⟩ : ∃ machine ∈ keys,
        (done.getAMachineWithBetterProfile []).or s.currentActiveServiceMachine = some machine := by
      rcases hbetter : done.getAMachineWithBetterProfile [] with _ | machine
      · exact ⟨current, hkey, hcurrent⟩
      · exact ⟨machine, hs.results machine (mem_results_of_better (s := done) hbetter), rfl⟩
    dsimp only at h
    rw [hchosen] at h
    obtain ⟨t, hoff, heq⟩ := map_ok h
    cases heq
    exact hs.switchOffAllButOne hmachine hoff
  · cases h
    exact hs

theorem Sound.machineWithBetterProfile (hs : Sound keys s) {response : Option String}
    (h : s.machineWithBetterProfile r = .ok (s', response)) : Sound keys s' := by
  unfold PolicyScheduler.machineWithBetterProfile at h
  obtain ⟨t, hswitch, h⟩ := bind_ok h
  split at h
  · cases h
    exact hs.switchToMachine hswitch
  · cases h

/-! ## Callbacks and runs -/

theorem Sound.callback (hs : Sound keys s) {c : SchedulerCallback L} {response : Option String}
    (h : s.callback r c = .ok (s', response)) : Sound keys s' := by
  cases c with
  | profileTopic profileUpdate =>
    obtain ⟨t, ht, heq⟩ := map_ok h
    cases heq
    exact hs.profileTopic ht
  | profilingOptimizer =>
    rw [PolicyScheduler.callback] at h
    split at h
    · cases h
      exact hs
    · obtain ⟨t, ht, heq⟩ := map_ok h
      cases heq
      exact hs.doProfiling ht
  | parallelProfiling =>
    rw [PolicyScheduler.callback] at h
    split at h
    · cases h
      exact hs
    · cases h
      exact hs.doParallelProfiling
  | parallelProfilingBest => exact hs.parallelProfilingBest h
  | machineWithBetterProfile => exact hs.machineWithBetterProfile h
  | lsActiveProfile =>
    cases h
    exact hs

theorem Sound.run (hs : Sound keys s) {callbacks : List (Surroundings × SchedulerCallback L)}
    (h : s.run callbacks = .ok s') : Sound keys s' := by
  induction callbacks generalizing s with
  | nil =>
    cases h
    exact hs
  | cons event callbacks ih =>
    obtain ⟨r, c⟩ := event
    unfold PolicyScheduler.run at h
    split at h
    · cases h
    · rename_i t response hcallback
      exact ih (hs.callback hcallback) h

omit [LinearOrder L] [Neg L] [One L] in
theorem sound_initial {assignment : PyDict String MachineState} {machine : String}
    (hservice : Only .service assignment machine) (timeBound : TimeBound L)
    (automaticSwitching : Bool) (now : ℚ) :
    Sound assignment.keys (initial assignment timeBound automaticSwitching now) := by
  refine ⟨rfl, PyDict.keys_map _ _, fun x hx => ?_, fun h => Bool.false_ne_true h.1,
    fun _ => ⟨machine, hservice⟩, fun h => absurd h Bool.false_ne_true⟩
  cases hx

end Routines

/-- **Main result.**  From a configuration with one service machine, after any
callbacks of which none raises: the machines are the configured ones, the two profiling
modes exclude each other, and outside parallel profiling exactly one machine is in
state service. -/
theorem run_one_service [LinearOrder L] [Neg L] [One L] (assignment : PyDict String MachineState)
    (timeBound : TimeBound L) (automaticSwitching : Bool) (now : ℚ)
    (hservice : ∃ machine, assignment.keysWith (· = .service) = [machine])
    (callbacks : List (Surroundings × SchedulerCallback L)) {s : PolicyScheduler L}
    (hrun : (initial assignment timeBound automaticSwitching now).run callbacks = .ok s) :
    s.assignmentDict.keys = assignment.keys ∧
      ¬ (s.isDoingProfiling = true ∧ s.isDoingParallelProfiling = true) ∧
      (s.isDoingParallelProfiling = false →
        ∃ machine, s.assignmentDict.keysWith (· = .service) = [machine]) := by
  obtain ⟨machine, hmachine⟩ := hservice
  have hs := (sound_initial (only_iff.2 hmachine) timeBound automaticSwitching now).run hrun
  refine ⟨hs.keys_eq, hs.exclusive, fun hparallel => ?_⟩
  obtain ⟨machine', hmachine'⟩ := hs.service hparallel
  exact ⟨machine', only_iff.1 hmachine'⟩

def twoMachines : PyDict String MachineState :=
  ⟨[("robot", .robot), ("edge", .service), ("cloud", .standby)], by decide⟩

/-- Profiling switches machines twice, each silent for twenty seconds. -/
def silentMachines : List (Surroundings × SchedulerCallback ℤ) :=
  [(⟨0, 0, 0, 0, 0, 0, 0⟩, .profilingOptimizer),
    (⟨20, 20, 20, 20, 0, 0, 0⟩, .profileTopic ⟨"edge", 1, 1, 1, 1, 1, 1⟩),
    (⟨40, 40, 40, 40, 0, 0, 0⟩, .profileTopic ⟨"cloud", 1, 1, 1, 1, 1, 1⟩)]

theorem run_one_service_silentMachines :
    ∃ s, (initial twoMachines ⟨-1, -1, -1, -1, -1, -1⟩ true 0).run silentMachines = .ok s ∧
      s.assignmentDict.keys = twoMachines.keys ∧
      ¬ (s.isDoingProfiling = true ∧ s.isDoingParallelProfiling = true) ∧
      (s.isDoingParallelProfiling = false →
        ∃ machine, s.assignmentDict.keysWith (· = .service) = [machine]) := by
  have hok : ((initial twoMachines ⟨-1, -1, -1, -1, -1, -1⟩ true 0).run silentMachines).isOk := by
    decide +kernel
  obtain ⟨s, hrun⟩ := exists_of_isOk hok
  exact ⟨s, hrun, run_one_service _ _ _ _ ⟨"edge", rfl⟩ _ hrun⟩

end PolicyScheduler

end RtFogros
