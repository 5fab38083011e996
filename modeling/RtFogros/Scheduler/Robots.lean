import RtFogros.Lib.Run
import RtFogros.Scheduler.Profiling

/-!
# Machines in state robot

A callback gives states to the service machine, to machines that are not robots, and to the one
machine it switches to.  That machine is drawn from those to be profiled, of which only the first
robot is left out, or it is selected from the recorded profiles, of which none is left out.

`robots_kept_iff`: so the robots stay robots exactly if in every step that does not raise the
machine drawn or selected is none of them.  `SparedIff` says of each callback that this is all that
can go wrong in it, and the run keeps or loses `Spared` by the first step that does not meet the
condition.
-/

namespace RtFogros

namespace PolicyScheduler

variable {L : Type} [LinearOrder L] [Neg L] [One L]

/-! ## The machine a step switches to -/

/-- Of the recorded machines within the bound, or else of the connected ones, the first
with the least maximal latency. -/
def least (s : PolicyScheduler L) : Option String :=
  (s.candidates.argmin fun entry => entry.2.maxLatency).map Prod.fst

/-- The service machine is settled by the message. -/
def settled (s : PolicyScheduler L) (r : Surroundings) (profileUpdate : Profile L) :
    PolicyScheduler L :=
  match s.outcome r profileUpdate with
  | .skipped => s
  | .timedOut =>
    { s with
      activeProfilingDisconnectedList :=
        s.activeProfilingDisconnectedList ++ s.serviceMachine.toList }
  | .recorded => s.recording r profileUpdate

omit [LinearOrder L] [Neg L] [One L] in
/-- A round of sequential profiling begins. -/
def begun (s : PolicyScheduler L) : PolicyScheduler L :=
  { s with
    isDoingProfiling := true
    activeProfilingResult := .empty
    activeProfilingDisconnectedList := [] }

/-- Outside profiling the message makes the scheduler leave the service machine for
another, if there is one. -/
def Leaves (s : PolicyScheduler L) (r : Surroundings) (profileUpdate : Profile L) : Prop :=
  s.outcome r profileUpdate = .timedOut ∨
    some profileUpdate.identity = s.serviceMachine ∧ s.checkLatencyBound profileUpdate = false ∧
      s.automaticSwitching = true

/-- The message of the service machine is counted, any other is not. -/
def Hears (s : PolicyScheduler L) (r : Surroundings) (profileUpdate : Profile L)
    (serviceDict : PyDict String (SgcService L)) : Prop :=
  some profileUpdate.identity ≠ s.serviceMachine ∧ serviceDict = s.serviceDict ∨
    ∃ service, s.serviceDict.get? profileUpdate.identity = some service ∧
      serviceDict = s.serviceDict.set profileUpdate.identity (service.update r.update profileUpdate)

/-- The next machine of a round is drawn, or selected if none is left; neither is one of
`robots`. -/
structure NextSpares (robots : List String) (s : PolicyScheduler L) (r : Surroundings) :
    Prop where
  drawn : ∀ machine ∈ s.drawable[r.choice % s.drawable.length]?, machine ∉ robots
  selected : s.machinesNotProfiled = [] → ∀ machine ∈ s.least, machine ≠ "" → machine ∉ robots

/-- What a callback owes to `robots` is that the machine it may switch to is none of them. -/
def Spares (robots : List String) (s : PolicyScheduler L) (r : Surroundings) :
    SchedulerCallback L → Prop
  | .profileTopic profileUpdate =>
    s.isDoingParallelProfiling = false →
      if s.isDoingProfiling then
        s.handles r profileUpdate = true → (s.settled r profileUpdate).NextSpares robots r
      else s.Leaves r profileUpdate → ∀ machine ∈ s.withoutService.least, machine ∉ robots
  | .profilingOptimizer =>
    s.isDoingProfiling = false → s.isDoingParallelProfiling = false → s.begun.NextSpares robots r
  | .parallelProfiling => True
  | .parallelProfilingBest =>
    s.isParallelProfilingReady = true → s.isDoingParallelProfiling = true →
      ∀ machine ∈ s.least, machine ∉ robots
  | .machineWithBetterProfile => ∀ machine ∈ s.least, machine ∉ robots
  | .lsActiveProfile => True

theorem better_eq_least (s : PolicyScheduler L) : s.getAMachineWithBetterProfile [] = s.least := by
  rw [better_eq, head?_sortedByMaxLatency]
  rfl

theorem better_exclude (s : PolicyScheduler L) :
    s.getAMachineWithBetterProfile s.serviceMachine.toList = s.withoutService.least := by
  rw [← better_eq_least]
  unfold withoutService
  rcases s.serviceMachine with _ | machine
  · rfl
  · have hentries :
        (s.activeProfilingResult.entries.filter fun entry => entry.1 ∉ (some machine).toList) =
          (s.activeProfilingResult.erase machine).entries.filter
            fun entry => entry.1 ∉ ([] : List String) := by
      unfold PyDict.erase
      rw [List.filter_filter]
      apply List.filter_congr
      intro entry _
      simp
    unfold getAMachineWithBetterProfile
    rw [hentries]
    rfl

theorem least_withoutService (s : PolicyScheduler L)
    (serviceDict : PyDict String (SgcService L)) :
    (withoutService { s with serviceDict }).least = s.withoutService.least := by
  have hsame : serviceMachine { s with serviceDict } = s.serviceMachine := rfl
  unfold withoutService
  rw [hsame]
  rcases s.serviceMachine with _ | machine
  · rfl
  · rfl

theorem nextSpares_services {robots : List String} {r : Surroundings} (s : PolicyScheduler L)
    (serviceDict : PyDict String (SgcService L)) :
    NextSpares robots { s with serviceDict } r ↔ s.NextSpares robots r :=
  ⟨fun h => ⟨h.drawn, h.selected⟩, fun h => ⟨h.drawn, h.selected⟩⟩

/-! ## Robots that are spared -/

/-- The machines `robots` are in state robot and were given no other. -/
structure Spared (robots : List String) (s : PolicyScheduler L) : Prop where
  robot : ∀ machine ∈ robots, s.assignmentDict.get? machine = some .robot
  requests : ∀ request ∈ s.requests, request.machine ∉ robots
  active : s.isDoingParallelProfiling = true →
    ∀ machine ∈ s.currentActiveServiceMachine, machine ∉ robots

/-- The scheduler spares the robots if `condition` holds, and puts one in service if not. -/
structure SparedIff (robots : List String) (condition : Prop) (s : PolicyScheduler L) :
    Prop where
  spared : condition → Spared robots s
  given : ¬ condition → ∃ machine ∈ robots, ⟨machine, .service⟩ ∈ s.requests

section Routines

variable {robots : List String} {s s' : PolicyScheduler L} {r : Surroundings} {condition : Prop}

omit [LinearOrder L] [Neg L] [One L]

theorem SparedIff.of_spared (hs : Spared robots s) (hcondition : condition) :
    SparedIff robots condition s :=
  ⟨fun _ => hs, fun h => absurd hcondition h⟩

theorem SparedIff.congr {condition' : Prop} (h : SparedIff robots condition s)
    (hiff : condition' ↔ condition) : SparedIff robots condition' s :=
  ⟨fun h' => h.spared (hiff.1 h'), fun h' => h.given fun hcondition => h' (hiff.2 hcondition)⟩

theorem Spared.not_mem (hs : Spared robots s) {machine : String} {state : MachineState}
    (h : s.assignmentDict.get? machine = some state) (hstate : state ≠ .robot) :
    machine ∉ robots := by
  intro hmem
  rw [hs.robot machine hmem] at h
  exact hstate (Option.some.inj h).symm

theorem Spared.serviceMachine (hs : Spared robots s) {machine : String}
    (h : s.serviceMachine = some machine) : machine ∉ robots :=
  hs.not_mem (get?_of_serviceMachine h) (by decide)

theorem Spared.assign (hs : Spared robots s) {machine : String} (hmachine : machine ∉ robots)
    (state : MachineState) : Spared robots (s.assign machine state) := by
  refine ⟨fun x hx => ?_, fun request hrequest => ?_, hs.active⟩
  · have hne : x ≠ machine := fun h => hmachine (h ▸ hx)
    exact (PyDict.get?_set_of_ne _ hne _).trans (hs.robot x hx)
  · rcases List.mem_append.1 hrequest with hrequest | hrequest
    · exact hs.requests request hrequest
    · rw [List.mem_singleton.1 hrequest]
      exact hmachine

/-- A loop that gives states to machines that are no robots. -/
theorem Spared.assignAll (hs : Spared robots s) (p : String → Bool) (state : MachineState)
    {machines : List String}     (hmachines : ∀ machine ∈ machines, machine ∉ robots) :
    Spared robots
      (machines.foldl (fun t machine => if p machine then t.assign machine state else t) s) := by
  induction machines generalizing s with
  | nil => exact hs
  | cons machine machines ih =>
    obtain ⟨hmachine, hrest⟩ := List.forall_mem_cons.1 hmachines
    rw [List.foldl_cons]
    split
    · exact ih (hs.assign hmachine state) hrest
    · exact ih hs hrest

theorem Spared.switchToMachine (hs : Spared robots s) {machineNew : Option String}
    (h : s.switchToMachine r machineNew = .ok s') :
    SparedIff robots (∀ machine ∈ machineNew, machine ∉ robots) s' := by
  rcases switchToMachine_ok h with ⟨rfl, rfl⟩ |
    ⟨previous, new, serviceDict, hprevious, rfl, -, -, -, rfl⟩
  · exact .of_spared hs fun machine hmachine => hs.serviceMachine hmachine
  · refine ⟨fun hnew => ?_, fun hnew => ?_⟩
    · have hreset : Spared robots { s with serviceDict } := ⟨hs.robot, hs.requests, hs.active⟩
      exact (hreset.assign (hs.serviceMachine hprevious) _).assign (hnew new rfl) _
    · have hmem : new ∈ robots := by simpa using hnew
      exact ⟨new, hmem, List.mem_append_right _ List.mem_cons_self⟩

variable [LinearOrder L] [Neg L] [One L]

theorem Spared.switchToNext (hs : Spared robots s)
    (h : s.switchToNextUnprofiledMachine r = .ok s') :
    SparedIff robots (s.NextSpares robots r) s' := by
  have hdone : Spared robots { s with isDoingProfiling := false } :=
    ⟨hs.robot, hs.requests, hs.active⟩
  rcases switchToNext_ok h with ⟨hnone, hend⟩ | ⟨hleft, hnext⟩
  · -- nothing can be drawn
    have hiff : s.NextSpares robots r ↔ ∀ machine ∈ s.least, machine ≠ "" → machine ∉ robots := by
      refine ⟨fun hnext => hnext.selected hnone, fun hselected => ⟨fun machine hdrawn => ?_,
        fun _ => hselected⟩⟩
      unfold drawable at hdrawn
      rw [hnone] at hdrawn
      cases hdrawn
    rw [better_eq_least] at hend
    refine SparedIff.congr ?_ hiff
    rcases hend with ⟨rfl, hname⟩ | ⟨machine, hleast, hname, h⟩
    · exact .of_spared hdone fun x hx hx' => absurd (hname x hx) hx'
    · rw [hleast]
      refine (hdone.switchToMachine h).congr ⟨fun hmem x hx => ?_, fun hmem x hx _ => hmem x hx⟩
      exact hmem x hx (Option.some.inj hx ▸ hname)
  · have hiff : s.NextSpares robots r ↔
        ∀ machine ∈ s.drawable[r.choice % s.drawable.length]?, machine ∉ robots :=
      ⟨NextSpares.drawn, fun hdrawn => ⟨hdrawn, fun hnone => absurd hnone hleft⟩⟩
    refine SparedIff.congr ?_ hiff
    rcases hnext with ⟨hempty, rfl⟩ | ⟨-, h⟩
    · rw [hempty]
      exact .of_spared hs nofun
    · exact hs.switchToMachine h

omit [LinearOrder L] [Neg L] [One L] in
theorem Spared.leave (hs : Spared robots s) {better : Option String}
    (h : s.LeavesFor r better s') :
    SparedIff robots (∀ machine ∈ better, machine ∉ robots) s' := by
  rcases h with ⟨rfl, rfl⟩ | ⟨machine, rfl, h⟩
  · exact .of_spared hs nofun
  · exact hs.switchToMachine h

omit [LinearOrder L] [Neg L] [One L] in
theorem Spared.switchOffAllButOne (hs : Spared robots s) {machineNew : Option String}
    (h : s.switchOffAllButOne machineNew = .ok s') :
    SparedIff robots (∀ machine ∈ machineNew, machine ∉ robots) s' := by
  have hnonrobot : ∀ machine ∈ s.nonrobotMachines, machine ∉ robots := by
    intro machine hmachine
    obtain ⟨state, hstate, hne⟩ := PyDict.mem_keysWith.1 hmachine
    exact hs.not_mem hstate (of_decide_eq_true hne)
  rcases machineNew with _ | machine
  · cases h
  · rw [switchOff_eq] at h
    cases h
    have hoff := hs.assignAll (fun m => decide (machine ≠ m)) .standby hnonrobot
    refine ⟨fun hmachine => hoff.assign (hmachine machine rfl) _, fun hmachine => ?_⟩
    have hmem : machine ∈ robots := by simpa using hmachine
    exact ⟨machine, hmem, List.mem_append_right _ List.mem_cons_self⟩

/-- What the message does outside parallel profiling, by what it brings to light. -/
theorem profileTopic_ok (hsequential : s.isDoingParallelProfiling = false)
    {profileUpdate : Profile L} (h : s.profileTopicCallback r profileUpdate = .ok s') :
    ∃ serviceDict, s.Hears r profileUpdate serviceDict ∧
      ((s.outcome r profileUpdate = .timedOut ∧ handleTimeout { s with serviceDict } r = .ok s') ∨
      (s.outcome r profileUpdate = .recorded ∧ s.isDoingProfiling = true ∧
        handleProfileMessageAtProfiling { s with serviceDict } r profileUpdate = .ok s') ∨
      (s.outcome r profileUpdate ≠ .timedOut ∧ s.isDoingProfiling = false ∧
        some profileUpdate.identity = s.serviceMachine ∧
        handleProfileMessageAtRunning { s with serviceDict } r profileUpdate = .ok s') ∨
      (s.outcome r profileUpdate = .skipped ∧
        (s.isDoingProfiling = true ∨ some profileUpdate.identity ≠ s.serviceMachine) ∧
        s' = { s with serviceDict })) := by
  unfold profileTopicCallback at h
  rw [if_neg (by simp [hsequential])] at h
  unfold outcome
  generalize hfound : s.serviceMachine.bind s.serviceDict.get? = found at h ⊢
  rcases found with _ | service
  · cases h
  · dsimp only at h ⊢
    by_cases hidentity : some profileUpdate.identity ≠ s.serviceMachine
    · simp only [if_pos hidentity] at h ⊢
      by_cases htime : service.checkTimeout r.check
      · rw [if_pos htime] at h ⊢
        exact ⟨s.serviceDict, .inl ⟨hidentity, rfl⟩, .inl ⟨rfl, h⟩⟩
      · rw [if_neg htime] at h ⊢
        cases h
        exact ⟨s.serviceDict, .inl ⟨hidentity, rfl⟩, .inr (.inr (.inr ⟨rfl, .inr hidentity, rfl⟩))⟩
    · simp only [if_neg hidentity] at h ⊢
      rw [← not_not.1 hidentity] at hfound
      refine ⟨s.serviceDict.set profileUpdate.identity (service.update r.update profileUpdate),
        .inr ⟨service, hfound, rfl⟩, ?_⟩
      by_cases htime : (service.update r.update profileUpdate).checkTimeout r.check
      · rw [if_pos htime] at h ⊢
        exact .inl ⟨rfl, h⟩
      · rw [if_neg htime] at h ⊢
        by_cases hwarm : (service.update r.update profileUpdate).hasRunOutOfSkippedProfiles
        · rw [if_pos hwarm] at h ⊢
          by_cases hdoing : s.isDoingProfiling
          · rw [if_pos hdoing] at h
            exact .inr (.inl ⟨rfl, hdoing, h⟩)
          · rw [if_neg hdoing] at h
            rw [Bool.not_eq_true] at hdoing
            exact .inr (.inr (.inl ⟨nofun, hdoing, not_not.1 hidentity, h⟩))
        · rw [if_neg hwarm] at h ⊢
          by_cases hdoing : s.isDoingProfiling
          · rw [if_pos hdoing] at h
            cases h
            exact .inr (.inr (.inr ⟨rfl, .inl hdoing, rfl⟩))
          · rw [if_neg hdoing] at h
            rw [Bool.not_eq_true] at hdoing
            exact .inr (.inr (.inl ⟨nofun, hdoing, not_not.1 hidentity, h⟩))

theorem Spared.handleTimeout (hs : Spared robots s) (h : s.handleTimeout r = .ok s') :
    SparedIff robots
      (if s.isDoingProfiling then
        NextSpares robots
          { s with
            activeProfilingDisconnectedList :=
              s.activeProfilingDisconnectedList ++ s.serviceMachine.toList } r
      else ∀ machine ∈ s.withoutService.least, machine ∉ robots) s' := by
  rcases handleTimeout_ok h with ⟨hdoing, h⟩ | ⟨hidle, h⟩
  · rw [if_pos hdoing]
    exact Spared.switchToNext ⟨hs.robot, hs.requests, hs.active⟩ h
  · rw [hidle, if_neg Bool.false_ne_true]
    rw [better_eq_least] at h
    have hwithout : Spared robots s.withoutService := by
      unfold withoutService
      split
      · exact ⟨hs.robot, hs.requests, hs.active⟩
      · exact hs
    exact hwithout.leave h

theorem Spared.handleRunning (hs : Spared robots s) {profileUpdate : Profile L}
    (h : s.handleProfileMessageAtRunning r profileUpdate = .ok s') :
    SparedIff robots
      (s.checkLatencyBound profileUpdate = false ∧ s.automaticSwitching = true →
        ∀ machine ∈ s.withoutService.least, machine ∉ robots) s' := by
  rcases handleRunning_ok h with ⟨hswitch, h⟩ | ⟨hstay, rfl⟩
  · rw [better_exclude] at h
    exact (hs.leave h).congr (forall_prop_of_true hswitch)
  · exact .of_spared hs fun hswitch => absurd hswitch hstay

theorem Spared.profileAtParallel (hs : Spared robots s) {profileUpdate : Profile L}
    (hparallel : s.isDoingParallelProfiling = true)
    (h : s.profileAtParallel r profileUpdate = .ok s') : Spared robots s' := by
  unfold PolicyScheduler.profileAtParallel at h
  split at h
  · cases h
  · dsimp only at h
    split at h
    · obtain ⟨t, hrecord, h⟩ := bind_ok h
      unfold handleProfileMessageAtProfiling at hrecord
      rw [if_pos hparallel] at hrecord
      cases hrecord
      split at h
      · cases h
        exact ⟨hs.robot, hs.requests, hs.active⟩
      · cases h
        exact ⟨hs.robot, hs.requests, hs.active⟩
    · cases h
      exact ⟨hs.robot, hs.requests, hs.active⟩

theorem Spared.profileTopic (hs : Spared robots s) {profileUpdate : Profile L}
    (h : s.profileTopicCallback r profileUpdate = .ok s') :
    SparedIff robots (s.Spares robots r (.profileTopic profileUpdate)) s' := by
  unfold Spares
  by_cases hparallel : s.isDoingParallelProfiling
  · unfold profileTopicCallback at h
    rw [if_pos hparallel] at h
    exact .of_spared (hs.profileAtParallel hparallel h) fun hsequential =>
      absurd (hsequential.symm.trans hparallel) Bool.false_ne_true
  rw [Bool.not_eq_true] at hparallel
  refine SparedIff.congr ?_ (forall_prop_of_true hparallel)
  obtain ⟨serviceDict, -, hcases⟩ := profileTopic_ok hparallel h
  have hs' : Spared robots { s with serviceDict } := ⟨hs.robot, hs.requests, hs.active⟩
  rcases hcases with ⟨houtcome, h⟩ | ⟨houtcome, hdoing, h⟩ | ⟨houtcome, hidle, hidentity, h⟩ |
    ⟨houtcome, hskipped, rfl⟩
  · have htimeout := hs'.handleTimeout h
    rw [least_withoutService s serviceDict] at htimeout
    dsimp only at htimeout
    split
    · rename_i hdoing
      rw [if_pos hdoing] at htimeout
      unfold settled
      rw [handles_iff hdoing, houtcome]
      exact htimeout.congr ((forall_prop_of_true (by decide)).trans (nextSpares_services _ _).symm)
    · rename_i hidle
      rw [if_neg hidle] at htimeout
      have hleaves : s.Leaves r profileUpdate := .inl houtcome
      exact htimeout.congr (forall_prop_of_true hleaves)
  · rw [if_pos hdoing, handles_iff hdoing]
    unfold settled recording resultsAfter
    rw [houtcome]
    unfold handleProfileMessageAtProfiling at h
    rw [if_neg (by simp [hparallel])] at h
    split at h
    · rename_i machine hmachine
      have hservice : s.serviceMachine = some machine := hmachine
      rw [hservice]
      refine SparedIff.congr (Spared.switchToNext ?_ h)
        ((forall_prop_of_true (by decide)).trans (nextSpares_services _ serviceDict).symm)
      exact ⟨hs.robot, hs.requests, hs.active⟩
    · cases h
  · rw [if_neg (by simp [hidle])]
    refine (hs'.handleRunning h).congr ?_
    rw [least_withoutService s serviceDict]
    unfold Leaves
    constructor
    · intro hleaves hswitch
      exact hleaves (.inr ⟨hidentity, hswitch⟩)
    · rintro hswitch (htimeout | ⟨-, hleaves⟩)
      · exact absurd htimeout houtcome
      · exact hswitch hleaves
  · refine .of_spared hs' ?_
    split
    · rename_i hdoing
      rw [handles_iff hdoing]
      exact fun hhandled => absurd houtcome hhandled
    · rename_i hidle
      rintro (htimeout | ⟨hidentity, -⟩)
      · exact absurd (houtcome.symm.trans htimeout) nofun
      · exact absurd hidentity (hskipped.resolve_left hidle)

theorem Spared.doProfiling (hs : Spared robots s) (h : s.doProfiling r = .ok s') :
    SparedIff robots (s.isDoingProfiling = false → s.isDoingParallelProfiling = false →
      s.begun.NextSpares robots r) s' := by
  unfold PolicyScheduler.doProfiling at h
  split at h
  · rename_i hbusy
    cases h
    refine .of_spared hs fun hidle hsequential => ?_
    rw [hidle, hsequential] at hbusy
    cases hbusy
  · rename_i hfree
    simp only [Bool.or_eq_true, not_or, Bool.not_eq_true] at hfree
    have hbegun : Spared robots s.begun := ⟨hs.robot, hs.requests, hs.active⟩
    exact (hbegun.switchToNext h).congr
      ⟨fun hnext => hnext hfree.1 hfree.2, fun hnext _ _ => hnext⟩

omit [LinearOrder L] [Neg L] [One L] in
theorem Spared.doParallelProfiling (hs : Spared robots s) :
    Spared robots (s.doParallelProfiling r) := by
  unfold PolicyScheduler.doParallelProfiling
  split
  · exact hs
  · set start : PolicyScheduler L := { s with
      currentActiveServiceMachine := s.serviceMachine
      isDoingParallelProfiling := true
      isParallelProfilingReady := false
      activeProfilingResult := .empty }
    have hstart : Spared robots start :=
      ⟨hs.robot, hs.requests, fun _ machine hmachine => hs.serviceMachine hmachine⟩
    have hall : Spared robots start.switchToAll := by
      have hstandby : ∀ machine ∈ start.standbyMachines, machine ∉ robots :=
        fun machine hmachine => hs.not_mem (mem_keysWith_state.1 hmachine) (by decide)
      rw [switchToAll_eq]
      exact hstart.assignAll (fun m => decide (some m ≠ start.serviceMachine)) .service hstandby
    exact ⟨hall.robot, hall.requests, hall.active⟩

theorem Spared.parallelProfilingBest (hs : Spared robots s) {response : Option String}
    (h : s.parallelProfilingBest = .ok (s', response)) :
    SparedIff robots (s.isParallelProfilingReady = true → s.isDoingParallelProfiling = true →
      ∀ machine ∈ s.least, machine ∉ robots) s' := by
  unfold PolicyScheduler.parallelProfilingBest at h
  split at h
  · rename_i hready
    rw [Bool.and_eq_true] at hready
    obtain ⟨t, hoff, heq⟩ := map_ok h
    cases heq
    set done : PolicyScheduler L := { s with isDoingParallelProfiling := false }
    have hdone : Spared robots done :=
      ⟨hs.robot, hs.requests, fun hparallel => absurd hparallel Bool.false_ne_true⟩
    have hleast : done.getAMachineWithBetterProfile [] = s.least := better_eq_least s
    refine (hdone.switchOffAllButOne hoff).congr ?_
    rw [hleast]
    have hactive := hs.active hready.2
    rcases s.least with _ | machine
    · exact ⟨fun _ => hactive, fun _ _ _ => nofun⟩
    · exact ⟨fun hmachine => hmachine hready.1 hready.2, fun hmachine _ _ => hmachine⟩
  · rename_i hnot
    cases h
    refine .of_spared hs fun hready hparallel => ?_
    rw [hready, hparallel] at hnot
    exact absurd rfl hnot

theorem Spared.machineWithBetterProfile (hs : Spared robots s) {response : Option String}
    (h : s.machineWithBetterProfile r = .ok (s', response)) :
    SparedIff robots (∀ machine ∈ s.least, machine ∉ robots) s' := by
  unfold PolicyScheduler.machineWithBetterProfile at h
  obtain ⟨t, hswitch, h⟩ := bind_ok h
  rw [better_eq_least] at hswitch
  split at h
  · cases h
    exact hs.switchToMachine hswitch
  · cases h

/-! ## Callbacks -/

/-- A callback spares the robots exactly if the machine it may switch to is none of them. -/
theorem Spared.callback (hs : Spared robots s) {c : SchedulerCallback L}
    {response : Option String} (h : s.callback r c = .ok (s', response)) :
    SparedIff robots (s.Spares robots r c) s' := by
  cases c with
  | profileTopic profileUpdate =>
    obtain ⟨t, ht, heq⟩ := map_ok h
    cases heq
    exact hs.profileTopic ht
  | profilingOptimizer =>
    rw [PolicyScheduler.callback] at h
    split at h
    · rename_i hdoing
      cases h
      exact .of_spared hs fun hidle => absurd (hidle.symm.trans hdoing) Bool.false_ne_true
    · obtain ⟨t, ht, heq⟩ := map_ok h
      cases heq
      exact hs.doProfiling ht
  | parallelProfiling =>
    rw [PolicyScheduler.callback] at h
    split at h
    · cases h
      exact .of_spared hs trivial
    · cases h
      exact .of_spared hs.doParallelProfiling trivial
  | parallelProfilingBest => exact hs.parallelProfilingBest h
  | machineWithBetterProfile => exact hs.machineWithBetterProfile h
  | lsActiveProfile =>
    cases h
    exact .of_spared hs trivial

end Routines

/-! ## Runs -/

/-- A callback in a run that may have raised before. -/
def next (s : Except PyError (PolicyScheduler L)) (event : Surroundings × SchedulerCallback L) :
    Except PyError (PolicyScheduler L) :=
  s >>= fun s => (s.callback event.1 event.2).map Prod.fst

theorem run_eq_after (s : PolicyScheduler L)
    (callbacks : List (Surroundings × SchedulerCallback L)) :
    s.run callbacks = Run.after next (.ok s) callbacks := by
  have hraised : ∀ (e : PyError) (rest : List (Surroundings × SchedulerCallback L)),
      Run.after next (.error e) rest = .error e := by
    intro e rest
    induction rest with
    | nil => rfl
    | cons event rest ih => exact ih
  induction callbacks generalizing s with
  | nil => rfl
  | cons event callbacks ih =>
    obtain ⟨r, c⟩ := event
    have hnext : next (.ok s) (r, c) = (s.callback r c).map Prod.fst := rfl
    rw [run, Run.after_cons, hnext]
    rcases s.callback r c with e | ⟨t, response⟩
    · exact (hraised e callbacks).symm
    · exact ih t

/-- No machine that `assignment` has in state robot was given the state standby or service. -/
structure KeepsRobots (assignment : PyDict String MachineState) (s : PolicyScheduler L) :
    Prop where
  state : ∀ machine, assignment.get? machine = some .robot →
    s.assignmentDict.get? machine ≠ some .standby ∧ s.assignmentDict.get? machine ≠ some .service
  requests : ∀ request ∈ s.requests, request.state = .standby ∨ request.state = .service →
    assignment.get? request.machine ≠ some .robot

section Kept

variable {assignment : PyDict String MachineState} {s s' : PolicyScheduler L}

omit [LinearOrder L] [Neg L] [One L] in
theorem Spared.keepsRobots (hs : Spared (assignment.keysWith (· = .robot)) s) :
    KeepsRobots assignment s := by
  refine ⟨fun machine hmachine => ?_, fun request hrequest _ hrobot => ?_⟩
  · rw [hs.robot machine (mem_keysWith_state.2 hmachine)]
    decide
  · exact hs.requests request hrequest (mem_keysWith_state.2 hrobot)

omit [LinearOrder L] [Neg L] [One L] in
theorem SparedIff.keepsRobots_iff {condition : Prop}
    (h : SparedIff (assignment.keysWith (· = .robot)) condition s) :
    KeepsRobots assignment s ↔ condition := by
  refine ⟨fun hkeeps => ?_, fun hcondition => (h.spared hcondition).keepsRobots⟩
  by_contra hcondition
  obtain ⟨machine, hmachine, hrequest⟩ := h.given hcondition
  exact hkeeps.requests _ hrequest (.inr rfl) (mem_keysWith_state.1 hmachine)

/-- In a run, keeping the robots after every callback is sparing them in every one. -/
theorem Spared.throughout_iff (hs : Spared (assignment.keysWith (· = .robot)) s)
    (callbacks : List (Surroundings × SchedulerCallback L)) :
    Run.Throughout next (fun x event => ∀ t, next x event = .ok t → KeepsRobots assignment t)
        (.ok s) callbacks ↔
      Run.Throughout next (fun x event => ∀ t, x = .ok t → (t.callback event.1 event.2).isOk →
        t.Spares (assignment.keysWith (· = .robot)) event.1 event.2) (.ok s) callbacks := by
  have hnext : ∀ {x : Except PyError (PolicyScheduler L)}
      {event : Surroundings × SchedulerCallback L} {t' : PolicyScheduler L},
      next x event = .ok t' → ∃ t response, x = .ok t ∧
        t.callback event.1 event.2 = .ok (t', response) := by
    intro x event t' h
    obtain ⟨t, hx, hmap⟩ := bind_ok h
    obtain ⟨⟨u, response⟩, hcallback, rfl⟩ := map_ok hmap
    exact ⟨t, response, hx, hcallback⟩
  refine Run.throughout_congr
    (fun x => ∀ t, x = .ok t → Spared (assignment.keysWith (· = .robot)) t) ?_ ?_
    fun t ht => Except.ok.inj ht ▸ hs
  · intro x event hspared hkeeps t' ht'
    obtain ⟨t, response, hx, hcallback⟩ := hnext ht'
    have hiff := (hspared t hx).callback hcallback
    exact hiff.spared (hiff.keepsRobots_iff.1 (hkeeps t' ht'))
  · intro x event hspared
    constructor
    · intro hkeeps t hx hok
      obtain ⟨⟨t', response⟩, hcallback⟩ := exists_of_isOk hok
      refine ((hspared t hx).callback hcallback).keepsRobots_iff.1 (hkeeps t' ?_)
      rw [hx]
      exact congrArg (Except.map Prod.fst) hcallback
    · intro hspares t' ht'
      obtain ⟨t, response, hx, hcallback⟩ := hnext ht'
      refine ((hspared t hx).callback hcallback).keepsRobots_iff.2 (hspares t hx ?_)
      rw [hcallback]
      rfl

end Kept

/-- **Main result.**  For any configuration and any callbacks: in every state reached no
machine configured as a robot was given the state standby or service, exactly if in every
step that does not raise the machine drawn or selected to be in service is none of them. -/
theorem robots_kept_iff (assignment : PyDict String MachineState) (timeBound : TimeBound L)
    (automaticSwitching : Bool) (now : ℚ)
    (callbacks : List (Surroundings × SchedulerCallback L)) :
    (∀ done s, done <+: callbacks →
        (initial assignment timeBound automaticSwitching now).run done = .ok s →
        KeepsRobots assignment s) ↔
      ∀ done r c s, done ++ [(r, c)] <+: callbacks →
        (initial assignment timeBound automaticSwitching now).run done = .ok s →
        (s.callback r c).isOk → s.Spares (assignment.keysWith (· = .robot)) r c := by
  have hinitial : Spared (assignment.keysWith (· = .robot))
      (initial assignment timeBound automaticSwitching now) :=
    ⟨fun machine hmachine => mem_keysWith_state.1 hmachine, nofun, nofun⟩
  have hiff := hinitial.throughout_iff callbacks
  rw [Run.throughout_iff, Run.throughout_iff] at hiff
  simp only [run_eq_after]
  constructor
  · rintro hkeeps done r c s ⟨rest, hrest⟩ hrun hok
    rw [List.append_assoc, List.singleton_append] at hrest
    refine hiff.1 (fun pre event post heq t ht => ?_) done (r, c) rest hrest.symm s hrun hok
    rw [← Run.after_concat next] at ht
    exact hkeeps (pre ++ [event]) t ⟨post, by simp [heq]⟩ ht
  · rintro hspares done s ⟨rest, hrest⟩ hrun
    rcases List.eq_nil_or_concat done with rfl | ⟨pre, event, rfl⟩
    · exact Except.ok.inj hrun ▸ hinitial.keepsRobots
    · rw [List.concat_eq_append, List.append_assoc, List.singleton_append] at hrest
      rw [List.concat_eq_append, Run.after_concat] at hrun
      refine hiff.2 (fun pre event post heq t ht hok => ?_) pre event rest hrest.symm s hrun
      exact hspares pre event.1 event.2 t ⟨post, by simp [heq]⟩ ht hok

def twoRobots : PyDict String MachineState :=
  ⟨[("arm", .robot), ("base", .robot), ("edge", .service), ("cloud", .standby)], by decide⟩

/-- Of two robots the second is drawn as the first machine to profile. -/
theorem second_robot_in_service :
    twoRobots.keysWith (· = .service) = ["edge"] ∧
      ¬ ∀ done s, done <+: [(⟨0, 0, 0, 0, 0, 0, 0⟩, SchedulerCallback.profilingOptimizer)] →
        (initial (L := ℤ) twoRobots ⟨-1, -1, -1, -1, -1, -1⟩ true 0).run done = .ok s →
        KeepsRobots twoRobots s := by
  refine ⟨by decide, fun hkeeps => ?_⟩
  have hrun : (((initial (L := ℤ) twoRobots ⟨-1, -1, -1, -1, -1, -1⟩ true 0).run
      [(⟨0, 0, 0, 0, 0, 0, 0⟩, .profilingOptimizer)]).map requests).toOption =
      some [⟨"edge", .standby⟩, ⟨"base", .service⟩] := by
    decide +kernel
  rcases hend : (initial (L := ℤ) twoRobots ⟨-1, -1, -1, -1, -1, -1⟩ true 0).run
      [(⟨0, 0, 0, 0, 0, 0, 0⟩, .profilingOptimizer)] with e | s
  · rw [hend] at hrun
    cases hrun
  · rw [hend] at hrun
    have hrequests : s.requests = [⟨"edge", .standby⟩, ⟨"base", .service⟩] := Option.some.inj hrun
    have hgiven : (⟨"base", .service⟩ : SgcAssignment) ∈ s.requests := by
      rw [hrequests]
      decide
    exact (hkeeps _ s (List.prefix_refl _) hend).requests _ hgiven (.inr rfl) rfl

end PolicyScheduler

end RtFogros
