import RtFogros.Scheduler.Round

/-!
# Sequential profiling

After `_do_profiling` each handled profile message or timeout settles the service machine, and
with the last machine the selection is made.

`MessageStep` has the three things that a message does: it is skipped, a machine is settled and
the next one put in service, or the last one is settled and the selection made.  `Profiling` is
the invariant of a round under way, and a run of messages keeps it until as many were handled as
there are machines (`Profiling.run`).

`profiling_right_iff` has the runs in which every message does what it owes (`ProfilingRight`): the
selection drops a machine with the empty name, so those in which no message selects such a machine
over the one in service (`LeavesBest`).
-/

namespace RtFogros

namespace PolicyScheduler

variable {L : Type} [LinearOrder L] [Neg L] [One L]

/-! ## Messages -/

/-- What a profile message brings to light about the service machine. -/
inductive Outcome where
  | skipped
  | timedOut
  | recorded
deriving DecidableEq

def outcome (s : PolicyScheduler L) (r : Surroundings) (profileUpdate : Profile L) : Outcome :=
  match s.serviceMachine.bind s.serviceDict.get? with
  | none => .skipped
  | some service =>
    if some profileUpdate.identity ≠ s.serviceMachine then
      if service.checkTimeout r.check then .timedOut else .skipped
    else
      let service := service.update r.update profileUpdate
      if service.checkTimeout r.check then .timedOut
      else if service.hasRunOutOfSkippedProfiles then .recorded
      else .skipped

/-- The message is handled: sequential profiling records it or finds a timeout. -/
def handles (s : PolicyScheduler L) (r : Surroundings) (profileUpdate : Profile L) : Bool :=
  s.isDoingProfiling && s.outcome r profileUpdate ≠ .skipped

/-- The results with the message recorded, if it is to be recorded. -/
def resultsAfter (s : PolicyScheduler L) (r : Surroundings) (profileUpdate : Profile L) :
    PyDict String (Profile L) :=
  match s.outcome r profileUpdate, s.serviceMachine with
  | .recorded, some machine => s.activeProfilingResult.set machine profileUpdate
  | _, _ => s.activeProfilingResult

variable {robot machine : String} {s : PolicyScheduler L}

theorem handles_iff (hdoing : s.isDoingProfiling = true) {r : Surroundings}
    {profileUpdate : Profile L} :
    s.handles r profileUpdate = true ↔ s.outcome r profileUpdate ≠ .skipped := by
  unfold handles
  rw [hdoing, Bool.true_and, decide_eq_true_iff]

theorem Round.profileTopic (hs : Round robot machine s) (r : Surroundings)
    (profileUpdate : Profile L) :
    ∃ serviceDict : PyDict String (SgcService L), serviceDict.keys = s.serviceDict.keys ∧
      s.profileTopicCallback r profileUpdate =
        match s.outcome r profileUpdate with
        | .skipped => .ok { s with serviceDict }
        | .timedOut =>
          switchToNextUnprofiledMachine
            { s with
              serviceDict
              activeProfilingDisconnectedList := s.activeProfilingDisconnectedList ++ [machine] } r
        | .recorded =>
          switchToNextUnprofiledMachine
            { s with
              serviceDict
              activeProfilingResult := s.activeProfilingResult.set machine profileUpdate } r := by
  have hservice := serviceMachine_of_only hs.service
  obtain ⟨service, hget⟩ := hs.exists_service
  have htimeout : ∀ t : PolicyScheduler L, t.isDoingProfiling = true →
      t.serviceMachine = some machine → t.handleTimeout r =
        switchToNextUnprofiledMachine
          { t with
            activeProfilingDisconnectedList :=
              t.activeProfilingDisconnectedList ++ [machine] } r := by
    intro t hdoing hmachine
    unfold handleTimeout
    rw [if_pos hdoing, hmachine]
    rfl
  have hprofiling : ∀ t : PolicyScheduler L, t.isDoingParallelProfiling = false →
      t.serviceMachine = some machine → t.handleProfileMessageAtProfiling r profileUpdate =
        switchToNextUnprofiledMachine
          { t with
            activeProfilingResult := t.activeProfilingResult.set machine profileUpdate } r := by
    intro t hsequential hmachine
    unfold handleProfileMessageAtProfiling
    rw [if_neg (by simp [hsequential]), hmachine]
  unfold profileTopicCallback
  rw [if_neg (by simp [hs.sequential]), outcome, hservice, Option.bind_some,
    hget]
  dsimp only
  by_cases hidentity : some profileUpdate.identity ≠ some machine
  · refine ⟨s.serviceDict, rfl, ?_⟩
    simp only [if_pos hidentity]
    by_cases htime : service.checkTimeout r.check
    · simp only [if_pos htime]
      exact htimeout s hs.doing hservice
    · simp only [if_neg htime]
  · have hsame : profileUpdate.identity = machine := Option.some.inj (not_not.1 hidentity)
    refine ⟨s.serviceDict.set machine (service.update r.update profileUpdate),
      PyDict.keys_set_of_mem (PyDict.mem_keys_of_get? hget) _, ?_⟩
    simp only [if_neg hidentity, if_pos hs.doing]
    rw [hsame]
    by_cases htime : (service.update r.update profileUpdate).checkTimeout r.check
    · simp only [if_pos htime]
      exact htimeout _ hs.doing hservice
    · simp only [if_neg htime]
      by_cases hwarm : (service.update r.update profileUpdate).hasRunOutOfSkippedProfiles
      · simp only [if_pos hwarm]
        exact hprofiling _ hs.sequential hservice
      · simp only [if_neg hwarm]

theorem Steady.profileTopic (hs : Steady robot machine s) (hidle : s.isDoingProfiling = false)
    (r : Surroundings) (profileUpdate : Profile L) :
    ∃ s' machine', s.profileTopicCallback r profileUpdate = .ok s' ∧ Steady robot machine' s' ∧
      s'.isDoingProfiling = false := by
  have hservice := serviceMachine_of_only hs.service
  obtain ⟨service, hget⟩ := hs.exists_service
  have hselect : ∀ (t : PolicyScheduler L) (excludeList : List String) (better : String),
      Steady robot machine t → t.isDoingProfiling = false →
      t.getAMachineWithBetterProfile excludeList = some better →
      ∃ s' machine', t.switchToMachine r (some better) = .ok s' ∧ Steady robot machine' s' ∧
        s'.isDoingProfiling = false := by
    intro t excludeList better ht hidle hbetter
    obtain ⟨_, _, _, hok, -, hsteady⟩ := ht.switch (ht.better_nonrobot hbetter) r
    exact ⟨_, better, hok, hsteady, hidle⟩
  have htimeout : ∀ t : PolicyScheduler L, Steady robot machine t → t.isDoingProfiling = false →
      ∃ s' machine', t.handleTimeout r = .ok s' ∧ Steady robot machine' s' ∧
        s'.isDoingProfiling = false := by
    intro t ht hidle
    have herased : Steady robot machine
        { t with activeProfilingResult := t.activeProfilingResult.erase machine } :=
      ⟨ht.robot, ht.service, ht.services,
        fun x hx => ht.results x (PyDict.mem_keys_erase.1 hx).1, ht.sequential⟩
    unfold handleTimeout
    rw [if_neg (by simp [hidle]), serviceMachine_of_only ht.service]
    dsimp only
    split
    · rename_i better hbetter
      exact hselect _ _ better herased hidle hbetter
    · exact ⟨_, machine, rfl, herased, hidle⟩
  have hrunning : ∀ t : PolicyScheduler L, Steady robot machine t → t.isDoingProfiling = false →
      ∃ s' machine', t.handleProfileMessageAtRunning r profileUpdate = .ok s' ∧
        Steady robot machine' s' ∧ s'.isDoingProfiling = false := by
    intro t ht hidle
    unfold handleProfileMessageAtRunning
    split
    · split
      · rename_i better hbetter
        exact hselect t _ better ht hidle hbetter
      · exact ⟨t, machine, rfl, ht, hidle⟩
    · exact ⟨t, machine, rfl, ht, hidle⟩
  unfold profileTopicCallback
  rw [if_neg (by simp [hs.sequential]), hservice, Option.bind_some, hget]
  dsimp only
  split
  · split
    · exact htimeout s hs hidle
    · exact ⟨s, machine, rfl, hs, hidle⟩
  · rename_i hidentity
    have hsame : profileUpdate.identity = machine := Option.some.inj (not_not.1 hidentity)
    rw [hsame, if_neg (by simp [hidle] : ¬ s.isDoingProfiling = true)]
    have hsteady := hs.of_services (PyDict.keys_set_of_mem (PyDict.mem_keys_of_get? hget)
      (service.update r.update profileUpdate))
    split
    · exact htimeout _ hsteady hidle
    · exact hrunning _ hsteady hidle

/-! ## One event -/

/-- A handled message settles the service machine before the next one is looked for. -/
theorem Profiling.settle (hs : Profiling robot machine s) {r : Surroundings}
    {profileUpdate : Profile L} (hhandled : s.outcome r profileUpdate ≠ .skipped) :
    ∃ serviceDict activeProfilingDisconnectedList, ∃ t : PolicyScheduler L,
      t = { s with
        serviceDict, activeProfilingDisconnectedList
        activeProfilingResult := s.resultsAfter r profileUpdate } ∧
      Round robot machine t ∧ t.machinesNotProfiled = s.machinesNotProfiled.erase machine ∧
      s.profileTopicCallback r profileUpdate = t.switchToNextUnprofiledMachine r := by
  obtain ⟨hnonrobot, hresult, hlist⟩ := (mem_machinesNotProfiled hs.robot).1 hs.current
  obtain ⟨serviceDict, hkeys, hcallback⟩ := hs.profileTopic r profileUpdate
  have hservices := hkeys.trans hs.services
  cases houtcome : s.outcome r profileUpdate with
  | skipped => exact absurd houtcome hhandled
  | timedOut =>
    rw [houtcome] at hcallback
    have hafter : s.resultsAfter r profileUpdate = s.activeProfilingResult := by
      unfold resultsAfter
      rw [houtcome]
    refine ⟨serviceDict, s.activeProfilingDisconnectedList ++ [machine], _, rfl, ?_, ?_, ?_⟩
    · rw [hafter]
      refine ⟨⟨hs.robot, hs.service, hservices, hs.results, hs.sequential⟩, hs.doing, ?_, ?_⟩
      · intro x hx
        rcases List.mem_append.1 hx with hx | hx
        · exact hs.disconnected x hx
        · exact List.mem_singleton.1 hx ▸ hnonrobot
      · intro x hx hmem
        rcases List.mem_append.1 hmem with hmem | hmem
        · exact hs.disjoint x hx hmem
        · apply hresult
          exact List.mem_singleton.1 hmem ▸ hx
    · refine machinesNotProfiled_settled hs.robot rfl fun x => ?_
      rw [hafter, List.mem_append, List.mem_singleton]
      tauto
    · rw [hafter]
      exact hcallback
  | recorded =>
    rw [houtcome] at hcallback
    have hafter : s.resultsAfter r profileUpdate =
        s.activeProfilingResult.set machine profileUpdate := by
      unfold resultsAfter
      rw [houtcome, serviceMachine_of_only hs.service]
    refine ⟨serviceDict, s.activeProfilingDisconnectedList, _, rfl, ?_, ?_, ?_⟩
    · rw [hafter]
      refine ⟨⟨hs.robot, hs.service, hservices, ?_, hs.sequential⟩, hs.doing, hs.disconnected, ?_⟩
      · intro x hx
        rcases PyDict.mem_keys_set.1 hx with rfl | hx
        · exact hnonrobot
        · exact hs.results x hx
      · intro x hx hmem
        rcases PyDict.mem_keys_set.1 hx with rfl | hx
        · exact hlist hmem
        · exact hs.disjoint x hx hmem
    · refine machinesNotProfiled_settled hs.robot rfl fun x => ?_
      rw [hafter, PyDict.mem_keys_set]
      tauto
    · rw [hafter]
      exact hcallback

/-- The scheduler with the message recorded, as the selection sees it. -/
def recording (s : PolicyScheduler L) (r : Surroundings) (profileUpdate : Profile L) :
    PolicyScheduler L :=
  { s with activeProfilingResult := s.resultsAfter r profileUpdate }

/-- What a message during a round can do. -/
inductive MessageStep (robot machine : String) (s : PolicyScheduler L) (r : Surroundings)
    (profileUpdate : Profile L) : PolicyScheduler L → Prop where
  | skip {s' : PolicyScheduler L} (skipped : s.handles r profileUpdate = false)
      (profiling : Profiling robot machine s')
      (same : s'.machinesNotProfiled = s.machinesNotProfiled) :
      MessageStep robot machine s r profileUpdate s'
  | next {s' : PolicyScheduler L} {machine' : String} (handled : s.handles r profileUpdate = true)
      (profiling : Profiling robot machine' s')
      (erased : s'.machinesNotProfiled = s.machinesNotProfiled.erase machine) :
      MessageStep robot machine s r profileUpdate s'
  | finish {s' : PolicyScheduler L} (handled : s.handles r profileUpdate = true)
      (last : s.machinesNotProfiled.erase machine = [])
      (erased : s'.machinesNotProfiled = s.machinesNotProfiled.erase machine)
      (steady : Steady robot ((s.recording r profileUpdate).leftInService machine) s')
      (idle : s'.isDoingProfiling = false)
      (disjoint : ∀ x ∈ s'.activeProfilingResult.keys, x ∉ s'.activeProfilingDisconnectedList)
      (results : s'.activeProfilingResult = s.resultsAfter r profileUpdate)
      (bound : s'.timeBound = s.timeBound) :
      MessageStep robot machine s r profileUpdate s'

theorem Profiling.step (hs : Profiling robot machine s) (r : Surroundings)
    (profileUpdate : Profile L) :
    ∃ s', s.profileTopicCallback r profileUpdate = .ok s' ∧
      MessageStep robot machine s r profileUpdate s' := by
  by_cases hhandled : s.outcome r profileUpdate = .skipped
  · obtain ⟨serviceDict, hkeys, hcallback⟩ := hs.profileTopic r profileUpdate
    rw [hhandled] at hcallback
    refine ⟨_, hcallback, .skip ?_ ?_ rfl⟩
    · unfold handles
      rw [hhandled, decide_eq_false (not_not.2 rfl), Bool.and_false]
    · exact ⟨⟨hs.of_services hkeys, hs.doing, hs.disconnected, hs.disjoint⟩, hs.current⟩
  · have hhandles := (handles_iff hs.doing).2 hhandled
    obtain ⟨serviceDict, disconnectedList, t, ht, hround, herase, hcallback⟩ := hs.settle hhandled
    by_cases hleft : t.machinesNotProfiled = []
    · obtain ⟨assignmentDict, serviceDict', requests, hok, hkeys, hsteady⟩ :=
        hround.finish hleft r
      refine ⟨_, hcallback.trans hok,
        .finish hhandles (herase ▸ hleft) ?_ ?_ rfl hround.disjoint ?_ ?_⟩
      · rw [← herase, machinesNotProfiled_eq hsteady.robot, machinesNotProfiled_eq hround.robot,
          hkeys]
      · have hsame : t.leftInService machine =
            (s.recording r profileUpdate).leftInService machine := by
          rw [ht]
          rfl
        exact hsame ▸ hsteady
      · rw [ht]
      · rw [ht]
    · obtain ⟨s', machine', hok, hprofiling, hsame⟩ := hround.next hleft r
      exact ⟨s', hcallback.trans hok, .next hhandles hprofiling (hsame.trans herase)⟩

/-! ## Runs -/

def messages (events : List (Surroundings × Profile L)) :
    List (Surroundings × SchedulerCallback L) :=
  events.map fun event => (event.1, .profileTopic event.2)

def handledCount (s : PolicyScheduler L) : List (Surroundings × Profile L) → Nat
  | [] => 0
  | (r, profileUpdate) :: events =>
    (if s.handles r profileUpdate then 1 else 0) +
      match s.profileTopicCallback r profileUpdate with
      | .ok s => s.handledCount events
      | .error _ => 0

theorem run_message {s' : PolicyScheduler L} {r : Surroundings} {profileUpdate : Profile L}
    (h : s.profileTopicCallback r profileUpdate = .ok s')
    (events : List (Surroundings × Profile L)) :
    s.run (messages ((r, profileUpdate) :: events)) = s'.run (messages events) := by
  unfold messages
  rw [List.map_cons, run, callback, h]
  rfl

theorem run_append {s' : PolicyScheduler L} {first : List (Surroundings × SchedulerCallback L)}
    (h : s.run first = .ok s') (rest : List (Surroundings × SchedulerCallback L)) :
    s.run (first ++ rest) = s'.run rest := by
  induction first generalizing s with
  | nil =>
    cases h
    rfl
  | cons event first ih =>
    obtain ⟨r, c⟩ := event
    unfold run at h
    rw [List.cons_append, run]
    split at h
    · cases h
    · rename_i t response hcallback
      exact ih h

theorem Steady.run (hs : Steady robot machine s) (hidle : s.isDoingProfiling = false)
    (events : List (Surroundings × Profile L)) :
    ∃ s' machine', s.run (messages events) = .ok s' ∧ Steady robot machine' s' ∧
      s'.isDoingProfiling = false ∧ s.handledCount events = 0 := by
  induction events generalizing s machine with
  | nil => exact ⟨s, machine, rfl, hs, hidle, rfl⟩
  | cons event events ih =>
    obtain ⟨r, profileUpdate⟩ := event
    obtain ⟨t, machine', hok, ht, hidle'⟩ := hs.profileTopic hidle r profileUpdate
    obtain ⟨s', machine'', hrun, hs', hidle'', hcount⟩ := ih ht hidle'
    refine ⟨s', machine'', (run_message hok events).trans hrun, hs', hidle'', ?_⟩
    unfold handledCount handles
    rw [hidle, hok]
    exact (Nat.zero_add _).trans hcount

/-- A run of messages either leaves machines to be profiled, those handled excepted, or
the round has ended with as many handled messages as there were machines. -/
theorem Profiling.run (hs : Profiling robot machine s) (events : List (Surroundings × Profile L)) :
    ∃ s', s.run (messages events) = .ok s' ∧
      ((∃ machine', Profiling robot machine' s' ∧
          s.handledCount events + s'.machinesNotProfiled.length = s.machinesNotProfiled.length) ∨
        ∃ machine', Steady robot machine' s' ∧ s'.isDoingProfiling = false ∧
          s.handledCount events = s.machinesNotProfiled.length) := by
  induction events generalizing s machine with
  | nil => exact ⟨s, rfl, .inl ⟨machine, hs, Nat.zero_add _⟩⟩
  | cons event events ih =>
    obtain ⟨r, profileUpdate⟩ := event
    obtain ⟨t, hok, hstep⟩ := hs.step r profileUpdate
    have hlength :
        (s.machinesNotProfiled.erase machine).length + 1 = s.machinesNotProfiled.length := by
      rw [List.length_erase_of_mem hs.current]
      apply Nat.succ_pred_eq_of_pos
      exact List.length_pos_of_mem hs.current
    rw [run_message hok, handledCount, hok]
    dsimp only
    cases hstep with
    | skip skipped profiling same =>
      obtain ⟨s', hrun, h⟩ := ih profiling
      rw [same] at h
      refine ⟨s', hrun, ?_⟩
      rwa [skipped, if_neg Bool.false_ne_true, Nat.zero_add]
    | next handled profiling erased =>
      obtain ⟨s', hrun, h⟩ := ih profiling
      rw [erased] at h
      refine ⟨s', hrun, ?_⟩
      rw [handled, if_pos rfl]
      rcases h with ⟨machine', hs', hcount⟩ | ⟨machine', hs', hidle, hcount⟩
      · exact .inl ⟨machine', hs', by omega⟩
      · exact .inr ⟨machine', hs', hidle, by omega⟩
    | finish handled last erased steady idle disjoint results bound =>
      obtain ⟨s', machine', hrun, hs', hidle, hcount⟩ := steady.run idle events
      refine ⟨s', hrun, .inr ⟨machine', hs', hidle, ?_⟩⟩
      rw [last] at hlength
      rw [handled, if_pos rfl, hcount]
      exact hlength

/-- Starting a round does not raise: it waits for the service machine, with every machine
but the robot to be profiled. -/
theorem doProfiling_ok (hrobot : Only .robot s.assignmentDict robot)
    (hservice : Only .service s.assignmentDict machine)
    (hservices : s.serviceDict.keys = s.assignmentDict.keys) (hidle : s.isDoingProfiling = false)
    (hsequential : s.isDoingParallelProfiling = false) (r : Surroundings) :
    ∃ s' machine', s.doProfiling r = .ok s' ∧ Profiling robot machine' s' ∧
      ∀ x, x ∈ s'.machinesNotProfiled ↔ x ∈ s.nonrobotMachines := by
  have hround : Round robot machine { s with
      isDoingProfiling := true
      activeProfilingResult := .empty
      activeProfilingDisconnectedList := [] } := by
    refine ⟨⟨hrobot, hservice, hservices, ?_, hsequential⟩, rfl, ?_, ?_⟩
    · intro x hx
      cases hx
    · intro x hx
      cases hx
    · intro x hx
      cases hx
  have hall : ∀ x, x ∈ ({ s with
      isDoingProfiling := true
      activeProfilingResult := .empty
      activeProfilingDisconnectedList := [] } : PolicyScheduler L).machinesNotProfiled ↔
      x ∈ s.nonrobotMachines := by
    intro x
    rw [mem_machinesNotProfiled hround.robot]
    exact ⟨fun h => h.1, fun h => ⟨h, List.not_mem_nil, List.not_mem_nil⟩⟩
  obtain ⟨s', machine', hok, hs', hsame⟩ :=
    hround.next (List.ne_nil_of_mem ((hall machine).2 hround.machine_nonrobot)) r
  refine ⟨s', machine', ?_, hs', fun x => ?_⟩
  · unfold doProfiling
    rw [if_neg (by simp [hidle, hsequential])]
    exact hok
  · rw [hsame]
    exact hall x

/-! ## The outcome of a round -/

/-- What a message of a round over `machines` machines owes, `count` messages being
handled up to and with it. -/
structure MessageRight (machines count : Nat) (s : PolicyScheduler L) (r : Surroundings)
    (profileUpdate : Profile L) (s' : PolicyScheduler L) : Prop where
  removes : s.handles r profileUpdate = true → ∃ machine, s.serviceMachine = some machine ∧
    machine ∈ s.machinesNotProfiled ∧
    s'.machinesNotProfiled = s.machinesNotProfiled.erase machine
  keeps : s.isDoingProfiling = true → s.handles r profileUpdate = false →
    s'.machinesNotProfiled = s.machinesNotProfiled
  stops : s'.isDoingProfiling = true ↔ count < machines
  partition : s.isDoingProfiling = true → s'.isDoingProfiling = false →
    ∀ machine ∈ s'.nonrobotMachines, machine ∈ s'.activeProfilingResult.keys ↔
      machine ∉ s'.activeProfilingDisconnectedList
  selects : s.isDoingProfiling = true → s'.isDoingProfiling = false →
    (∃ entry ∈ s'.activeProfilingResult.entries, entry.2.connected) →
    ∃ machine, s'.serviceMachine = some machine ∧ s'.Best machine

/-- Every message of a run from `s₁` is processed without raising and does what it owes. -/
def ProfilingRight (machines : Nat) (s₁ : PolicyScheduler L)
    (events : List (Surroundings × Profile L)) : Prop :=
  ∀ done r profileUpdate, done ++ [(r, profileUpdate)] <+: events →
    ∃ s s', s₁.run (messages done) = .ok s ∧ s.profileTopicCallback r profileUpdate = .ok s' ∧
      MessageRight machines (s₁.handledCount (done ++ [(r, profileUpdate)])) s r profileUpdate s'

/-- The message does not settle the last machine in favour of a machine with the empty
name, unless the machine in service is as good. -/
def LeavesBest (s : PolicyScheduler L) (r : Surroundings) (profileUpdate : Profile L) : Prop :=
  s.handles r profileUpdate = true → s.machinesNotProfiled.length = 1 →
    (s.recording r profileUpdate).getAMachineWithBetterProfile [] = some "" →
    ∃ machine, s.serviceMachine = some machine ∧ (s.recording r profileUpdate).Best machine

theorem best_congr {s t : PolicyScheduler L} {machine : String}
    (hresults : s.activeProfilingResult = t.activeProfilingResult)
    (hbound : s.timeBound = t.timeBound) : s.Best machine ↔ t.Best machine := by
  have hcandidates : s.candidates = t.candidates := by
    unfold candidates checkLatencyBound
    rw [hresults, hbound]
  unfold Best
  rw [hcandidates]

theorem length_eq_one_of_erase {machines : List String} (hmem : machine ∈ machines)
    (h : machines.erase machine = []) : machines.length = 1 := by
  have hlength := List.length_erase_of_mem hmem
  rw [h, List.length_nil] at hlength
  have hpos := List.length_pos_of_mem hmem
  omega

/-- Where a round ends, the best machine is in service exactly if the condition holds. -/
theorem selects_iff (hs : Profiling robot machine s) {s' : PolicyScheduler L} {r : Surroundings}
    {profileUpdate : Profile L} (hhandled : s.handles r profileUpdate = true)
    (hlast : s.machinesNotProfiled.erase machine = [])
    (hsteady : Steady robot ((s.recording r profileUpdate).leftInService machine) s')
    (hresults : s'.activeProfilingResult = s.resultsAfter r profileUpdate)
    (hbound : s'.timeBound = s.timeBound) :
    ((∃ entry ∈ s'.activeProfilingResult.entries, entry.2.connected) →
      ∃ machine, s'.serviceMachine = some machine ∧ s'.Best machine) ↔
      s.LeavesBest r profileUpdate := by
  have hservice := serviceMachine_of_only hs.service
  have hservice' := serviceMachine_of_only hsteady.service
  have hbest : ∀ x, s'.Best x ↔ (s.recording r profileUpdate).Best x :=
    fun x => best_congr hresults hbound
  have hconnected : (∃ entry ∈ s'.activeProfilingResult.entries, entry.2.connected) ↔
      ((s.recording r profileUpdate).getAMachineWithBetterProfile []).isSome := by
    rw [better_isSome, hresults]
    rfl
  have hone := length_eq_one_of_erase hs.current hlast
  unfold LeavesBest
  rw [hconnected, hservice, hservice']
  simp only [Option.some.injEq, exists_eq_left', hbest, hhandled, hone, forall_const]
  unfold leftInService
  rcases hbetter : (s.recording r profileUpdate).getAMachineWithBetterProfile [] with _ | better
  · exact ⟨fun _ h => absurd h (Option.some_ne_none "").symm,
      fun _ h => absurd h Bool.false_ne_true⟩
  · dsimp only
    by_cases hname : better ≠ ""
    · rw [if_pos hname]
      exact ⟨fun _ h => absurd (Option.some.inj h) hname, fun _ _ => best_of_better hbetter⟩
    · rw [if_neg hname, not_not.1 hname]
      exact ⟨fun h _ => h rfl, fun h _ => h rfl⟩

/-- A message owes what it does, but for the selection; that it owes on the condition. -/
theorem Profiling.messageRight_iff (hs : Profiling robot machine s) {s' : PolicyScheduler L}
    {r : Surroundings} {profileUpdate : Profile L}
    (hstep : MessageStep robot machine s r profileUpdate s') {machines count : Nat}
    (hstops : s'.isDoingProfiling = true ↔ count < machines) :
    MessageRight machines count s r profileUpdate s' ↔ s.LeavesBest r profileUpdate := by
  have hservice := serviceMachine_of_only hs.service
  cases hstep with
  | skip skipped profiling same =>
    refine ⟨fun _ h => absurd (skipped.symm.trans h) Bool.false_ne_true, fun _ => ⟨fun h => ?_,
      fun _ _ => same, hstops, fun _ h => ?_, fun _ h => ?_⟩⟩
    · exact absurd (skipped.symm.trans h) Bool.false_ne_true
    · exact absurd (h.symm.trans profiling.doing) Bool.false_ne_true
    · exact absurd (h.symm.trans profiling.doing) Bool.false_ne_true
  | next handled profiling erased =>
    refine ⟨fun _ _ hone => ?_, fun _ => ⟨fun _ => ⟨machine, hservice, hs.current, erased⟩,
      fun _ h => ?_, hstops, fun _ h => ?_, fun _ h => ?_⟩⟩
    · -- a machine is left
      have hlength := List.length_erase_of_mem hs.current
      rw [← erased, hone] at hlength
      exact absurd hlength (Nat.ne_of_gt (List.length_pos_of_mem profiling.current))
    · exact absurd (h.symm.trans handled) Bool.false_ne_true
    · exact absurd (h.symm.trans profiling.doing) Bool.false_ne_true
    · exact absurd (h.symm.trans profiling.doing) Bool.false_ne_true
  | finish handled last erased steady idle disjoint results bound =>
    rw [← selects_iff hs handled last steady results bound]
    refine ⟨fun h => h.selects hs.doing idle, fun hselects =>
      ⟨fun _ => ⟨machine, hservice, hs.current, erased⟩, fun _ h => ?_, hstops, fun _ _ x hx => ?_,
        fun _ _ => hselects⟩⟩
    · exact absurd (h.symm.trans handled) Bool.false_ne_true
    · have hsettled : x ∉ s'.machinesNotProfiled := by
        rw [erased, last]
        exact List.not_mem_nil
      rw [mem_machinesNotProfiled steady.robot] at hsettled
      exact ⟨disjoint x, fun hlist => by_contra fun hresult => hsettled ⟨hx, hresult, hlist⟩⟩

theorem Profiling.right_iff (hs : Profiling robot machine s)
    (events : List (Surroundings × Profile L)) :
    ProfilingRight s.machinesNotProfiled.length s events ↔
      ∀ done r profileUpdate, done ++ [(r, profileUpdate)] <+: events →
        ∀ t, s.run (messages done) = .ok t → t.LeavesBest r profileUpdate := by
  -- the step after `done`: the message owes what it does exactly on the condition
  have hmessage : ∀ done r profileUpdate, ∃ t t', s.run (messages done) = .ok t ∧
      t.profileTopicCallback r profileUpdate = .ok t' ∧
      (MessageRight s.machinesNotProfiled.length (s.handledCount (done ++ [(r, profileUpdate)])) t r
        profileUpdate t' ↔ t.LeavesBest r profileUpdate) := by
    intro done r profileUpdate
    obtain ⟨t, hrun, ht⟩ := hs.run done
    obtain ⟨t', hrun', ht'⟩ := hs.run (done ++ [(r, profileUpdate)])
    have hstops : t'.isDoingProfiling = true ↔
        s.handledCount (done ++ [(r, profileUpdate)]) < s.machinesNotProfiled.length := by
      rcases ht' with ⟨machine', ht', hcount⟩ | ⟨machine', -, hidle, hcount⟩
      · have hpos := List.length_pos_of_mem ht'.current
        exact ⟨fun _ => by omega, fun _ => ht'.doing⟩
      · rw [hidle, hcount]
        exact ⟨fun h => absurd h Bool.false_ne_true, fun h => absurd h (lt_irrefl _)⟩
    have hlast : ∀ u, t.profileTopicCallback r profileUpdate = .ok u → u = t' := by
      intro u hok
      have happend := run_append hrun (messages [(r, profileUpdate)])
      rw [run_message hok, messages, messages, ← List.map_append] at happend
      apply Except.ok.inj
      exact happend.symm.trans hrun'
    rcases ht with ⟨machine', ht, -⟩ | ⟨machine', ht, hidle, -⟩
    · obtain ⟨u, hok, hstep⟩ := ht.step r profileUpdate
      obtain rfl := hlast u hok
      exact ⟨t, u, hrun, hok, ht.messageRight_iff hstep hstops⟩
    · obtain ⟨u, -, hok, -, -⟩ := ht.profileTopic hidle r profileUpdate
      obtain rfl := hlast u hok
      have hskipped : t.handles r profileUpdate = false := by
        unfold handles
        rw [hidle, Bool.false_and]
      refine ⟨t, u, hrun, hok, fun _ h => absurd (hskipped.symm.trans h) Bool.false_ne_true,
        fun _ => ⟨fun h => absurd (hskipped.symm.trans h) Bool.false_ne_true, fun h => ?_, hstops,
          fun h => ?_, fun h => ?_⟩⟩
      · exact absurd (hidle.symm.trans h) Bool.false_ne_true
      · exact absurd (hidle.symm.trans h) Bool.false_ne_true
      · exact absurd (hidle.symm.trans h) Bool.false_ne_true
  constructor
  · intro h done r profileUpdate hprefix t hrun
    obtain ⟨u, u', hrun', hok, hiff⟩ := hmessage done r profileUpdate
    obtain ⟨v, v', hrun'', hok', hright⟩ := h done r profileUpdate hprefix
    obtain rfl : u = t := Except.ok.inj (hrun'.symm.trans hrun)
    obtain rfl : v = u := Except.ok.inj (hrun''.symm.trans hrun)
    obtain rfl : v' = u' := Except.ok.inj (hok'.symm.trans hok)
    exact hiff.1 hright
  · intro h done r profileUpdate hprefix
    obtain ⟨t, t', hrun, hok, hiff⟩ := hmessage done r profileUpdate
    exact ⟨t, t', hrun, hok, hiff.2 (h done r profileUpdate hprefix t hrun)⟩

/-- **Main result.**  Sequential profiling started in any state that callbacks reach, with
one robot and one service machine: in a run of messages every handled message removes the
service machine, the round ends with as many as there are machines besides the robot, and
leaves each of them with a result or disconnected and the best one in service, exactly if
no message of the run selects a machine with the empty name over the one in service. -/
theorem profiling_right_iff (assignment : PyDict String MachineState) (timeBound : TimeBound L)
    (automaticSwitching : Bool) (now : ℚ)
    (hservice : ∃ machine, assignment.keysWith (· = .service) = [machine])
    (history : List (Surroundings × SchedulerCallback L)) {s : PolicyScheduler L}
    (hrun : (initial assignment timeBound automaticSwitching now).run history = .ok s)
    (hrobot : ∃ robot, s.assignmentDict.keysWith (· = .robot) = [robot])
    (hidle : s.isDoingProfiling = false) (hsequential : s.isDoingParallelProfiling = false)
    (r₀ : Surroundings) (events : List (Surroundings × Profile L)) :
    ∃ s₁, s.doProfiling r₀ = .ok s₁ ∧ s₁.isDoingProfiling = true ∧
      (∀ x, x ∈ s₁.machinesNotProfiled ↔ x ∈ s.nonrobotMachines) ∧
      (ProfilingRight s.nonrobotMachines.length s₁ events ↔
        ∀ done r profileUpdate, done ++ [(r, profileUpdate)] <+: events →
          ∀ t, s₁.run (messages done) = .ok t → t.LeavesBest r profileUpdate) := by
  obtain ⟨configured, hconfigured⟩ := hservice
  obtain ⟨robot, hrobot⟩ := hrobot
  have hsound :=
    (sound_initial (only_iff.2 hconfigured) timeBound automaticSwitching now).run hrun
  obtain ⟨machine, hmachine⟩ := hsound.service hsequential
  obtain ⟨s₁, machine', hok, hs₁, hall⟩ := doProfiling_ok (only_iff.2 hrobot) hmachine
    (hsound.services.trans hsound.keys_eq.symm) hidle hsequential r₀
  have hlength : s₁.machinesNotProfiled.length = s.nonrobotMachines.length :=
    ((List.perm_ext_iff_of_nodup (nodup_machinesNotProfiled s₁)
      (PyDict.nodup_keysWith _ _)).2 hall).length_eq
  exact ⟨s₁, hok, hs₁.doing, hall, hlength ▸ hs₁.right_iff events⟩

/-- Six messages of each machine, of which the one in service is faster. -/
def wholeRound : List (Surroundings × Profile ℤ) :=
  List.replicate 6 (⟨1, 1, 1, 1, 0, 0, 0⟩, ⟨"cloud", 2, 2, 2, 2, 2, 2⟩) ++
    List.replicate 6 (⟨1, 1, 1, 1, 0, 0, 0⟩, ⟨"edge", 1, 1, 1, 1, 1, 1⟩)

/-- No machine with the empty name is selected on the way, and the round ends. -/
theorem wholeRound_named :
    ((initial twoMachines ⟨-1, -1, -1, -1, -1, -1⟩ true 0).doProfiling
        ⟨0, 0, 0, 0, 0, 0, 0⟩).toOption.map (fun s₁ =>
      ((List.range 12).all fun k =>
        match (s₁.run (messages (wholeRound.take k))).toOption, wholeRound[k]? with
        | some t, some (r, profileUpdate) =>
          (t.recording r profileUpdate).getAMachineWithBetterProfile [] != some ""
        | _, _ => true,
        (s₁.run (messages wholeRound)).toOption.map fun t =>
          (t.isDoingProfiling, t.serviceMachine))) =
      some (true, some (false, some "edge")) := by
  decide +kernel

theorem profiling_twoMachines_iff :
    ∃ s₁, (initial twoMachines ⟨-1, -1, -1, -1, -1, -1⟩ true 0).doProfiling
        ⟨0, 0, 0, 0, 0, 0, 0⟩ = .ok s₁ ∧ s₁.isDoingProfiling = true ∧
      (∀ x, x ∈ s₁.machinesNotProfiled ↔ x ∈ ["edge", "cloud"]) ∧
      ProfilingRight 2 s₁ wholeRound ∧
      ∃ t, s₁.run (messages wholeRound) = .ok t ∧ t.isDoingProfiling = false ∧
        t.serviceMachine = some "edge" := by
  obtain ⟨s₁, hs₁, hdoing, hall, hiff⟩ :=
    profiling_right_iff twoMachines ⟨-1, -1, -1, -1, -1, -1⟩ true 0 ⟨"edge", rfl⟩ [] rfl
      ⟨"robot", rfl⟩ rfl rfl ⟨0, 0, 0, 0, 0, 0, 0⟩ wholeRound
  have hnamed := wholeRound_named
  rw [hs₁] at hnamed
  simp only [Except.toOption, Option.map_some, Option.some.injEq, Prod.mk.injEq,
    List.all_eq_true, List.mem_range] at hnamed
  obtain ⟨hnames, hend⟩ := hnamed
  refine ⟨s₁, hs₁, hdoing, hall,
    hiff.2 fun done r profileUpdate hprefix t hrun _ _ hbetter => ?_, ?_⟩
  · obtain ⟨rest, hrest⟩ := hprefix
    have hlength : done.length < 12 := by
      have hlengths := congrArg List.length hrest
      simp only [List.length_append, List.length_singleton] at hlengths
      have htotal : wholeRound.length = 12 := rfl
      omega
    have htake : wholeRound.take done.length = done := by
      rw [← hrest, List.append_assoc, List.take_left]
    have hget : wholeRound[done.length]? = some (r, profileUpdate) := by
      rw [← hrest, List.append_assoc, List.getElem?_append_right (Nat.le_refl _), Nat.sub_self]
      rfl
    have hname := hnames done.length hlength
    rw [htake, hget, hrun] at hname
    simp [hbetter] at hname
  · cases hround : s₁.run (messages wholeRound) with
    | error e =>
      rw [hround] at hend
      cases hend
    | ok t =>
      rw [hround] at hend
      simp only [Option.map_some, Option.some.injEq, Prod.mk.injEq] at hend
      exact ⟨t, rfl, hend⟩

def unnamedMachine : PyDict String MachineState :=
  ⟨[("robot", .robot), ("edge", .service), ("", .standby)], by decide⟩

/-- Six messages of each machine, of which the unnamed one is faster. -/
def unnamedFaster : List (Surroundings × Profile ℤ) :=
  List.replicate 6 (⟨0, 0, 0, 0, 0, 0, 0⟩, ⟨"", 1, 1, 1, 1, 1, 1⟩) ++
    List.replicate 5 (⟨0, 0, 0, 0, 0, 0, 0⟩, ⟨"edge", 2, 2, 2, 2, 2, 2⟩)

/-- The unnamed machine is selected, but a test for an empty name drops it. -/
theorem unnamed_not_selected :
    ∃ s₁, (initial unnamedMachine ⟨-1, -1, -1, -1, -1, -1⟩ true 0).doProfiling
        ⟨0, 0, 0, 0, 0, 0, 0⟩ = .ok s₁ ∧
      ¬ ProfilingRight 2 s₁
        (unnamedFaster ++ [(⟨0, 0, 0, 0, 0, 0, 0⟩, ⟨"edge", 2, 2, 2, 2, 2, 2⟩)]) := by
  have hok : ((initial (L := ℤ) unnamedMachine ⟨-1, -1, -1, -1, -1, -1⟩ true 0).doProfiling
      ⟨0, 0, 0, 0, 0, 0, 0⟩).isOk := by decide +kernel
  obtain ⟨s₁, hs₁⟩ := exists_of_isOk hok
  refine ⟨s₁, hs₁, fun h => ?_⟩
  obtain ⟨s, s', hrun, hcallback, hright⟩ := h unnamedFaster _ _ (List.prefix_refl _)
  have hend : (do
      let s₁ ← (initial unnamedMachine ⟨-1, -1, -1, -1, -1, -1⟩ true 0).doProfiling
        ⟨0, 0, 0, 0, 0, 0, 0⟩
      let s ← s₁.run (messages unnamedFaster)
      let s' ← s.profileTopicCallback ⟨0, 0, 0, 0, 0, 0, 0⟩ ⟨"edge", 2, 2, 2, 2, 2, 2⟩
      .ok (s.isDoingProfiling && !s'.isDoingProfiling &&
        s'.activeProfilingResult.entries.any (fun entry => entry.2.connected) &&
        decide (s'.serviceMachine = some "edge") && !decide (s'.Best "edge"))).toOption =
      some true := by
    decide +kernel
  simp only [hs₁, hrun, hcallback, bind, Except.bind, Except.toOption, Option.some.injEq] at hend
  simp only [Bool.and_eq_true, Bool.not_eq_true', List.any_eq_true, decide_eq_true_eq,
    decide_eq_false_iff_not] at hend
  obtain ⟨⟨⟨⟨hdoing, hidle⟩, hconnected⟩, hservice⟩, hbest⟩ := hend
  obtain ⟨machine, hmachine, hbest'⟩ := hright.selects hdoing hidle hconnected
  obtain rfl : "edge" = machine := Option.some.inj (hservice.symm.trans hmachine)
  exact hbest hbest'

end PolicyScheduler

end RtFogros
