import RtFogros.Scheduler.Round

/-!
# Callbacks that raise

With one service machine configured, every name that is looked up is a key: there is always a
machine in service, and results and draws name configured machines.  The one exception is
`get_machine_with_better_profile_callback`, which switches to what the selection returns without
asking whether there is one.

`run_isOk_iff_someConnected`: so a run raises exactly if that callback comes when no recorded
profile has a latency.  `Staffed` is the invariant and `Safe` what each routine owes: it does not
raise, and `Staffed` holds after it.
-/

namespace RtFogros

namespace PolicyScheduler

variable {L : Type}

/-- `Sound`, and in parallel profiling, too, some machine is in service. -/
structure Staffed (keys : List String) (s : PolicyScheduler L) : Prop extends Sound keys s where
  staffed : ∃ machine, s.serviceMachine = some machine

/-- The routine does not raise, and `Staffed` holds after it. -/
def Safe (keys : List String) (result : Except PyError (PolicyScheduler L)) : Prop :=
  ∃ s', result = .ok s' ∧ Staffed keys s'

section Routines

variable {keys : List String} {s s' : PolicyScheduler L} {r : Surroundings}

theorem Sound.staffed (hs : Sound keys s) (hsequential : s.isDoingParallelProfiling = false) :
    Staffed keys s := by
  obtain ⟨machine, hmachine⟩ := hs.service hsequential
  exact ⟨hs, machine, serviceMachine_of_only hmachine⟩

theorem exists_serviceMachine (machine : String)
    (h : s.assignmentDict.get? machine = some .service) :
    ∃ machine, s.serviceMachine = some machine := by
  have hmem : machine ∈ s.assignmentDict.keysWith (· = .service) := mem_keysWith_state.2 h
  rw [serviceMachine, ← Option.isSome_iff_exists, List.isSome_head?]
  exact List.ne_nil_of_mem hmem

theorem Staffed.serviceMachine_mem (hs : Staffed keys s) {machine : String}
    (h : s.serviceMachine = some machine) : machine ∈ keys :=
  hs.keys_eq ▸ PyDict.mem_keys_of_get? (get?_of_serviceMachine h)

/-- The results and the list of disconnected machines play no part. -/
theorem Staffed.of_results (hs : Staffed keys s)
    {activeProfilingResult : PyDict String (Profile L)}
    (hresults : ∀ x ∈ activeProfilingResult.keys, x ∈ keys)
    (activeProfilingDisconnectedList : List String) :
    Staffed keys { s with activeProfilingResult, activeProfilingDisconnectedList } :=
  ⟨hs.toSound.of_results hresults _, hs.staffed⟩

theorem Staffed.of_service (hs : Staffed keys s) {name : String} (hname : name ∈ keys)
    (service : SgcService L) :
    Staffed keys { s with serviceDict := s.serviceDict.set name service } :=
  ⟨hs.toSound.of_service (hs.services ▸ hname) service, hs.staffed⟩

/-! ## Switching -/

theorem Staffed.after_switch (hs : Staffed keys s) {machineNew : Option String}
    (h : s.switchToMachine r machineNew = .ok s') : Staffed keys s' := by
  refine ⟨hs.toSound.switchToMachine h, ?_⟩
  rcases switchToMachine_ok h with ⟨-, rfl⟩ | ⟨previous, new, serviceDict, -, -, -, -, -, rfl⟩
  · exact hs.staffed
  · -- the new machine is in service
    exact exists_serviceMachine new (by simp [assign])

/-- Switching to a configured machine does not raise. -/
theorem Staffed.switch (hs : Staffed keys s) {new : String} (hnew : new ∈ keys)
    (r : Surroundings) : Safe keys (s.switchToMachine r (some new)) := by
  suffices h : ∃ s', s.switchToMachine r (some new) = .ok s' by
    obtain ⟨s', h⟩ := h
    exact ⟨s', h, hs.after_switch h⟩
  obtain ⟨previous, hprevious⟩ := hs.staffed
  unfold PolicyScheduler.switchToMachine
  split
  · exact ⟨s, rfl⟩
  · obtain ⟨services₁, hkeys₁, hreset₁⟩ := resetService_of_mem (hs.services ▸ hnew) r.resetNew
    have hold : previous ∈ ({ s with serviceDict := services₁ } : PolicyScheduler L
        ).serviceDict.keys := by
      show previous ∈ services₁.keys
      rw [hkeys₁, hs.services]
      exact hs.serviceMachine_mem hprevious
    obtain ⟨services₂, -, hreset₂⟩ := resetService_of_mem hold r.resetPrevious
    rw [hreset₁, hprevious]
    refine ⟨(PolicyScheduler.assign { s with serviceDict := services₂ } previous .standby).assign
      new .service, ?_⟩
    change (PolicyScheduler.resetService _ _ _ >>= _) = _
    rw [hreset₂]
    rfl

/-- A switch leaves the results and the bound. -/
theorem switchToMachine_frame {machineNew : Option String}
    (h : s.switchToMachine r machineNew = .ok s') :
    s'.activeProfilingResult = s.activeProfilingResult ∧ s'.timeBound = s.timeBound := by
  rcases switchToMachine_ok h with ⟨-, rfl⟩ | ⟨previous, new, serviceDict, -, -, -, -, -, rfl⟩
  · exact ⟨rfl, rfl⟩
  · exact ⟨rfl, rfl⟩

variable [LinearOrder L] [Neg L] [One L]

/-- The next machine to profile, or the one selected at the end of a round, is configured. -/
theorem Staffed.switchToNext (hs : Staffed keys s) (r : Surroundings) :
    Safe keys (s.switchToNextUnprofiledMachine r) := by
  unfold switchToNextUnprofiledMachine
  dsimp only
  split
  · have hdone : Staffed keys { s with isDoingProfiling := false } :=
      ⟨⟨hs.keys_eq, hs.services, hs.results, fun hboth => Bool.false_ne_true hboth.1, hs.service,
        hs.active⟩, hs.staffed⟩
    split
    · next machine hbetter =>
      split
      · exact hdone.switch (hdone.results machine (mem_results_of_better hbetter)) r
      · exact ⟨_, rfl, hdone⟩
    · exact ⟨_, rfl, hdone⟩
  · split
    · exact ⟨s, if_pos rfl, hs⟩
    · next hothers =>
      have hlt := Nat.mod_lt r.choice (Nat.pos_of_ne_zero hothers)
      rw [List.getElem?_eq_getElem hlt]
      apply hs.switch
      have hmem := List.mem_of_mem_filter (List.getElem_mem hlt)
      exact hs.keys_eq ▸ List.mem_of_mem_filter hmem

/-- A switch to the machine selected, if there is one. -/
theorem Staffed.leave (hs : Staffed keys s) (r : Surroundings) (excludeList : List String) :
    Safe keys (match s.getAMachineWithBetterProfile excludeList with
      | some machine => s.switchToMachine r (some machine)
      | none => .ok s) := by
  split
  · next machine hbetter => exact hs.switch (hs.results machine (mem_results_of_better hbetter)) r
  · exact ⟨s, rfl, hs⟩

/-! ## Handlers -/

theorem Staffed.handleTimeout (hs : Staffed keys s) (r : Surroundings) :
    Safe keys (s.handleTimeout r) := by
  unfold PolicyScheduler.handleTimeout
  split
  · exact (hs.of_results hs.results _).switchToNext r
  · have hwithout : Staffed keys s.withoutService := by
      unfold withoutService
      split
      · exact hs.of_results (fun x hx => hs.results x (PyDict.mem_keys_erase.1 hx).1) _
      · exact hs
    exact hwithout.leave r []

theorem Staffed.handleProfiling (hs : Staffed keys s) (r : Surroundings)
    {profileUpdate : Profile L} (hidentity : profileUpdate.identity ∈ keys) :
    Safe keys (s.handleProfileMessageAtProfiling r profileUpdate) := by
  unfold handleProfileMessageAtProfiling
  split
  · refine ⟨_, rfl, hs.of_results (fun x hx => ?_) _⟩
    rcases PyDict.mem_keys_set.1 hx with rfl | hx
    · exact hidentity
    · exact hs.results x hx
  · obtain ⟨machine, hmachine⟩ := hs.staffed
    rw [hmachine]
    refine Staffed.switchToNext (hs.of_results (fun x hx => ?_) _) r
    rcases PyDict.mem_keys_set.1 hx with rfl | hx
    · exact hs.serviceMachine_mem hmachine
    · exact hs.results x hx

theorem Staffed.handleRunning (hs : Staffed keys s) (r : Surroundings)
    (profileUpdate : Profile L) :
    Safe keys (s.handleProfileMessageAtRunning r profileUpdate) := by
  unfold handleProfileMessageAtRunning
  split
  · exact hs.leave r _
  · exact ⟨s, rfl, hs⟩

/-! ## Callbacks -/

/-- The machine a profile names is configured. -/
def Configured (keys : List String) : SchedulerCallback L → Prop
  | .profileTopic profileUpdate => profileUpdate.identity ∈ keys
  | _ => True

/-- Some recorded profile has a latency. -/
def SomeConnected (s : PolicyScheduler L) : Prop :=
  ∃ entry ∈ s.activeProfilingResult.entries, entry.2.connected

theorem Staffed.profileAtParallel (hs : Staffed keys s) (r : Surroundings)
    {profileUpdate : Profile L} (hidentity : profileUpdate.identity ∈ keys) :
    Safe keys (s.profileAtParallel r profileUpdate) := by
  obtain ⟨service, hservice⟩ := PyDict.mem_keys.1 (hs.services ▸ hidentity)
  have hupdated := hs.of_service hidentity (service.update r.update profileUpdate)
  rw [PolicyScheduler.profileAtParallel, hservice]
  dsimp only
  split
  · obtain ⟨s₁, hhandled, hs₁⟩ := hupdated.handleProfiling r hidentity
    rw [hhandled]
    change Safe keys (if _ then _ else _)
    split
    · exact ⟨_, rfl, ⟨hs₁.keys_eq, hs₁.services, hs₁.results, hs₁.exclusive, hs₁.service,
        hs₁.active⟩, hs₁.staffed⟩
    · exact ⟨s₁, rfl, hs₁⟩
  · exact ⟨_, rfl, hupdated⟩

theorem Staffed.profileTopic (hs : Staffed keys s) (r : Surroundings) {profileUpdate : Profile L}
    (hidentity : profileUpdate.identity ∈ keys) :
    Safe keys (s.profileTopicCallback r profileUpdate) := by
  unfold profileTopicCallback
  split
  · exact hs.profileAtParallel r hidentity
  · obtain ⟨machine, hmachine⟩ := hs.staffed
    obtain ⟨service, hservice⟩ :=
      PyDict.mem_keys.1 (hs.services ▸ hs.serviceMachine_mem hmachine)
    have hupdated := hs.of_service hidentity (service.update r.update profileUpdate)
    rw [hmachine, Option.bind_some, hservice]
    dsimp only
    split
    · split
      · exact hs.handleTimeout r
      · exact ⟨s, rfl, hs⟩
    · split
      · exact hupdated.handleTimeout r
      · split
        · split
          · exact hupdated.handleProfiling r hidentity
          · exact ⟨_, rfl, hupdated⟩
        · exact hupdated.handleRunning r profileUpdate

theorem Staffed.doProfiling (hs : Staffed keys s) (r : Surroundings) :
    Safe keys (s.doProfiling r) := by
  unfold PolicyScheduler.doProfiling
  split
  · exact ⟨s, rfl, hs⟩
  · next hidle =>
    simp only [Bool.or_eq_true, not_or, Bool.not_eq_true] at hidle
    have hstart : Staffed keys { s with
        isDoingProfiling := true
        activeProfilingResult := .empty
        activeProfilingDisconnectedList := [] } := by
      refine ⟨⟨hs.keys_eq, hs.services, fun x hx => ?_, ?_, hs.service, hs.active⟩, hs.staffed⟩
      · cases hx
      · rintro ⟨-, hparallel⟩
        exact Bool.false_ne_true (hidle.2.symm.trans hparallel)
    exact hstart.switchToNext r

omit [LinearOrder L] [Neg L] [One L] in
theorem Staffed.doParallelProfiling (hs : Staffed keys s) (r : Surroundings) :
    Staffed keys (s.doParallelProfiling r) := by
  refine ⟨hs.toSound.doParallelProfiling, ?_⟩
  obtain ⟨machine, hmachine⟩ := hs.staffed
  unfold PolicyScheduler.doParallelProfiling
  split
  · exact ⟨machine, hmachine⟩
  · -- the machine in service stays in service
    apply exists_serviceMachine machine
    rw [switchToAll_eq]
    refine (get?_assignAll _ .service _ _ machine).trans ?_
    split
    · rfl
    · exact get?_of_serviceMachine hmachine

theorem Staffed.parallelProfilingBest (hs : Staffed keys s) :
    ∃ s' response, s.parallelProfilingBest = .ok (s', response) ∧ Staffed keys s' := by
  suffices h : ∃ s' response, s.parallelProfilingBest = .ok (s', response) ∧
      ∃ machine, s'.serviceMachine = some machine by
    obtain ⟨s', response, h, hstaffed⟩ := h
    exact ⟨s', response, h, hs.toSound.parallelProfilingBest h, hstaffed⟩
  unfold PolicyScheduler.parallelProfilingBest
  split
  · next hready =>
    simp only [Bool.and_eq_true] at hready
    obtain ⟨current, hcurrent, -⟩ := hs.active hready.2
    dsimp only
    obtain ⟨machine, hchosen⟩ : ∃ machine, (PolicyScheduler.getAMachineWithBetterProfile
        { s with isDoingParallelProfiling := false } []).or s.currentActiveServiceMachine =
          some machine := by
      rcases PolicyScheduler.getAMachineWithBetterProfile
        { s with isDoingParallelProfiling := false } [] with _ | machine
      · exact ⟨current, hcurrent⟩
      · exact ⟨machine, rfl⟩
    rw [hchosen, switchOff_eq]
    refine ⟨_, _, rfl, exists_serviceMachine machine ?_⟩
    simp [assign]
  · exact ⟨s, _, rfl, hs.staffed⟩

/-- The selection reads the results and the bound. -/
theorem better_congr (hresults : s'.activeProfilingResult = s.activeProfilingResult)
    (hbound : s'.timeBound = s.timeBound) (excludeList : List String) :
    s'.getAMachineWithBetterProfile excludeList = s.getAMachineWithBetterProfile excludeList := by
  unfold getAMachineWithBetterProfile checkLatencyBound
  rw [hresults, hbound]

/-- The selection without a guard: it raises exactly without a connected machine. -/
theorem Staffed.machineWithBetterProfile_iff (hs : Staffed keys s) (r : Surroundings) :
    (∃ s' response, s.machineWithBetterProfile r = .ok (s', response)) ↔ s.SomeConnected := by
  rw [SomeConnected, ← better_isSome]
  obtain ⟨previous, hprevious⟩ := hs.staffed
  unfold PolicyScheduler.machineWithBetterProfile
  cases hbetter : s.getAMachineWithBetterProfile [] with
  | none =>
    have hraises : s.switchToMachine r none = .error (.keyError none) := by
      unfold PolicyScheduler.switchToMachine
      rw [hprevious, if_neg (Option.some_ne_none _).symm]
      rfl
    rw [hraises]
    refine iff_of_false ?_ Bool.false_ne_true
    rintro ⟨s', response, h⟩
    cases h
  | some machine =>
    obtain ⟨s', hswitch, -⟩ := hs.switch (hs.results machine (mem_results_of_better hbetter)) r
    obtain ⟨hresults, hbound⟩ := switchToMachine_frame hswitch
    rw [hswitch]
    refine iff_of_true ⟨s', some machine, ?_⟩ rfl
    change (match s'.getAMachineWithBetterProfile [] with
      | some machine => Except.ok (s', some machine)
      | none => Except.error PyError.assertionError) = _
    rw [better_congr hresults hbound, hbetter]

theorem Staffed.after_machineWithBetterProfile (hs : Staffed keys s) {response : Option String}
    (h : s.machineWithBetterProfile r = .ok (s', response)) : Staffed keys s' := by
  unfold PolicyScheduler.machineWithBetterProfile at h
  obtain ⟨t, hswitch, h⟩ := bind_ok h
  split at h
  · cases h
    exact hs.after_switch hswitch
  · cases h

/-- **One callback** with a configured identity raises only if it is the selection without a
connected machine. -/
theorem Staffed.callback_iff (hs : Staffed keys s) (r : Surroundings) {c : SchedulerCallback L}
    (hc : Configured keys c) :
    (∃ s' response, s.callback r c = .ok (s', response) ∧ Staffed keys s') ↔
      (c = .machineWithBetterProfile → s.SomeConnected) := by
  have hmap {result : Except PyError (PolicyScheduler L)} (h : Safe keys result) :
      ∃ s' response, result.map (·, (none : Option String)) = .ok (s', response) ∧
        Staffed keys s' := by
    obtain ⟨s', rfl, hs'⟩ := h
    exact ⟨s', none, rfl, hs'⟩
  cases c with
  | machineWithBetterProfile =>
    refine Iff.trans ?_ ⟨fun h _ => h, fun h => h rfl⟩
    rw [← hs.machineWithBetterProfile_iff r]
    constructor
    · rintro ⟨s', response, h, -⟩
      exact ⟨s', response, h⟩
    · rintro ⟨s', response, h⟩
      exact ⟨s', response, h, hs.after_machineWithBetterProfile h⟩
  | profileTopic profileUpdate => exact iff_of_true (hmap (hs.profileTopic r hc)) (by rintro ⟨⟩)
  | profilingOptimizer =>
    refine iff_of_true ?_ (by rintro ⟨⟩)
    rw [callback]
    split
    · exact ⟨s, none, rfl, hs⟩
    · exact hmap (hs.doProfiling r)
  | parallelProfiling =>
    refine iff_of_true ?_ (by rintro ⟨⟩)
    rw [callback]
    split
    · exact ⟨s, none, rfl, hs⟩
    · exact ⟨_, none, rfl, hs.doParallelProfiling r⟩
  | parallelProfilingBest => exact iff_of_true hs.parallelProfilingBest (by rintro ⟨⟩)
  | lsActiveProfile => exact iff_of_true ⟨s, none, rfl, hs⟩ (by rintro ⟨⟩)

/-! ## Runs -/

theorem run_cons_of_ok {c : SchedulerCallback L} {response : Option String}
    (h : s.callback r c = .ok (s', response))
    (callbacks : List (Surroundings × SchedulerCallback L)) :
    s.run ((r, c) :: callbacks) = s'.run callbacks := by
  rw [PolicyScheduler.run, h]

theorem Staffed.run_isOk_iff (hs : Staffed keys s)
    (callbacks : List (Surroundings × SchedulerCallback L))
    (hconfigured : ∀ event ∈ callbacks, Configured keys event.2) :
    (∃ s', s.run callbacks = .ok s') ↔ ∀ pre r post,
      callbacks = pre ++ (r, .machineWithBetterProfile) :: post →
      ∀ t, s.run pre = .ok t → t.SomeConnected := by
  induction callbacks generalizing s with
  | nil => exact iff_of_true ⟨s, rfl⟩ fun pre r post h => by simp at h
  | cons event callbacks ih =>
    obtain ⟨r₀, c₀⟩ := event
    rw [List.forall_mem_cons] at hconfigured
    have hfirst := hs.callback_iff r₀ hconfigured.1
    by_cases hguard : c₀ = .machineWithBetterProfile → s.SomeConnected
    · obtain ⟨s₁, response, hcallback, hs₁⟩ := hfirst.2 hguard
      rw [run_cons_of_ok hcallback, ih hs₁ hconfigured.2]
      constructor
      · intro hrest pre r post hsplit t ht
        cases pre with
        | nil =>
          obtain ⟨heq, -⟩ := List.cons.inj hsplit
          cases ht
          exact hguard (congrArg Prod.snd heq)
        | cons event pre =>
          obtain ⟨rfl, hsplit'⟩ := List.cons.inj hsplit
          rw [run_cons_of_ok hcallback] at ht
          exact hrest pre r post hsplit' t ht
      · intro hall pre r post hsplit t ht
        refine hall ((r₀, c₀) :: pre) r post (by rw [hsplit, List.cons_append]) t ?_
        rw [run_cons_of_ok hcallback, ht]
    · obtain ⟨rfl, hno⟩ := Classical.not_imp.1 hguard
      refine iff_of_false ?_ fun hall => hno (hall [] r₀ callbacks rfl s rfl)
      rintro ⟨s', hrun⟩
      rw [PolicyScheduler.run] at hrun
      split at hrun
      · cases hrun
      · next t response hcallback =>
        exact hno ((hs.machineWithBetterProfile_iff r₀).1 ⟨t, response, hcallback⟩)

end Routines

/-- **Main result.**  From a configuration with one service machine, no callback of a run
with configured identities raises if and only if some recorded profile has a latency
whenever the machine with the better profile is asked for. -/
theorem run_isOk_iff_someConnected [LinearOrder L] [Neg L] [One L]
    (assignment : PyDict String MachineState)
    (timeBound : TimeBound L) (automaticSwitching : Bool) (now : ℚ)
    (hservice : ∃ machine, assignment.keysWith (· = .service) = [machine])
    (callbacks : List (Surroundings × SchedulerCallback L))
    (hconfigured : ∀ event ∈ callbacks, Configured assignment.keys event.2) :
    (∃ s, (initial assignment timeBound automaticSwitching now).run callbacks = .ok s) ↔
      ∀ pre r post, callbacks = pre ++ (r, .machineWithBetterProfile) :: post →
        ∀ s, (initial assignment timeBound automaticSwitching now).run pre = .ok s →
          s.SomeConnected := by
  obtain ⟨machine, hmachine⟩ := hservice
  have hs := (sound_initial (only_iff.2 hmachine) timeBound automaticSwitching now).staffed rfl
  exact hs.run_isOk_iff callbacks hconfigured

theorem run_isOk_silentMachines :
    ∃ s, (initial twoMachines ⟨-1, -1, -1, -1, -1, -1⟩ true 0).run silentMachines = .ok s := by
  refine (run_isOk_iff_someConnected twoMachines ⟨-1, -1, -1, -1, -1, -1⟩ true 0 ⟨"edge", rfl⟩
    silentMachines ?_).2 ?_
  · simp [silentMachines, Configured, twoMachines, PyDict.keys]
  · intro pre r post hsplit
    have hmem : (r, SchedulerCallback.machineWithBetterProfile) ∈ silentMachines := by
      rw [hsplit]
      exact List.mem_append_right _ List.mem_cons_self
    simp [silentMachines] at hmem

/-- Before any profiling there is no machine to switch to. -/
theorem better_before_profiling_raises :
    (initial (L := ℤ) twoMachines ⟨-1, -1, -1, -1, -1, -1⟩ true 0).run
      [(⟨0, 0, 0, 0, 0, 0, 0⟩, .machineWithBetterProfile)] = .error (.keyError none) := by
  rfl

end PolicyScheduler

end RtFogros
