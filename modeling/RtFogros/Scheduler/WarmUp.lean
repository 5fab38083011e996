import RtFogros.Scheduler.Robots

/-!
# Warm-up measurements

Each machine counts its connected profiles, and those of a machine are recorded from the sixth on.
Beside the scheduler a watch counts how many a machine delivered since it last changed into state
service.  `_switch_to_machine` sets the counter to zero, the other two routines that switch
machines leave it as it is.

`recorded_warm`: in every run in which those two switch no machine into state service that counts
other than from zero, what is recorded of a machine was received when it had delivered at least
six.  The watch is a ghost: it reads the scheduler and nothing reads it, and `Warm` says that no
machine counts more than the watch does.
-/

namespace RtFogros

namespace PolicyScheduler

variable {L : Type}

/-! ## Counters -/

/-- `num_profiles_after_connected` of a machine. -/
def counter (s : PolicyScheduler L) (machine : String) : Nat :=
  (s.serviceDict.get? machine).elim 0 SgcService.numProfilesAfterConnected

/-- The machine changes into state service. -/
def SwitchedIn (s s' : PolicyScheduler L) (machine : String) : Prop :=
  s.assignmentDict.get? machine ≠ some .service ∧ s'.assignmentDict.get? machine = some .service

instance (s s' : PolicyScheduler L) (machine : String) : Decidable (s.SwitchedIn s' machine) :=
  inferInstanceAs (Decidable (_ ∧ _))

/-- No counter grows, the machines that change into state service start from zero, and nothing
is recorded. -/
structure Settles (s s' : PolicyScheduler L) : Prop where
  counter_le : ∀ machine, s'.counter machine ≤ s.counter machine
  switchedIn : ∀ machine, s.SwitchedIn s' machine → s'.counter machine = 0
  results : ∀ machine profile, s'.activeProfilingResult.get? machine = some profile →
    s.activeProfilingResult.get? machine = some profile

variable {s s' s'' : PolicyScheduler L} {r : Surroundings}

namespace Settles

theorem of_results (hservice : s'.serviceDict = s.serviceDict)
    (hassignment : s'.assignmentDict = s.assignmentDict)
    (hresults : ∀ machine profile, s'.activeProfilingResult.get? machine = some profile →
      s.activeProfilingResult.get? machine = some profile) : Settles s s' := by
  refine ⟨fun machine => ?_, fun machine hin => ?_, hresults⟩
  · unfold counter
    rw [hservice]
  · have h := hin.2
    rw [hassignment] at h
    exact absurd h hin.1

theorem refl (s : PolicyScheduler L) : Settles s s := .of_results rfl rfl fun _ _ h => h

theorem trans (h : Settles s s') (h' : Settles s' s'') : Settles s s'' := by
  refine ⟨fun machine => (h'.counter_le machine).trans (h.counter_le machine),
    fun machine hin => ?_, fun machine profile hget => h.results _ _ (h'.results _ _ hget)⟩
  by_cases hmiddle : s'.assignmentDict.get? machine = some .service
  · have hzero := h.switchedIn machine ⟨hin.1, hmiddle⟩
    exact Nat.eq_zero_of_le_zero (hzero ▸ h'.counter_le machine)
  · exact h'.switchedIn machine ⟨hmiddle, hin.2⟩

end Settles

/-! ## Switching -/

theorem settles_assign {machine : String} {state : MachineState}
    (h : state = .service → s.counter machine = 0 ∨ s.assignmentDict.get? machine = some .service) :
    Settles s (s.assign machine state) := by
  refine ⟨fun x => Nat.le_refl _, fun x hin => ?_, fun _ _ hget => hget⟩
  by_cases hx : x = machine
  · subst hx
    have hservice : state = .service := by
      have hget := hin.2
      unfold assign at hget
      rw [PyDict.get?_set_self] at hget
      exact Option.some.inj hget
    exact (h hservice).resolve_right hin.1
  · have hget := hin.2
    unfold assign at hget
    rw [PyDict.get?_set_of_ne _ hx] at hget
    exact absurd hget hin.1

/-- The loops of the other two routines. -/
theorem settles_assignAll (p : String → Bool) {state : MachineState} {machines : List String}
    (h : ∀ machine ∈ machines, state = .service → s.counter machine = 0) :
    Settles s
      (machines.foldl (fun t machine => if p machine then t.assign machine state else t) s) := by
  induction machines generalizing s with
  | nil => exact .refl s
  | cons machine machines ih =>
    obtain ⟨hmachine, hrest⟩ := List.forall_mem_cons.1 h
    rw [List.foldl_cons]
    split
    · exact (settles_assign fun hservice => .inl (hmachine hservice)).trans (ih hrest)
    · exact ih hrest

theorem settles_resetService {name : String} {now : ℚ}
    (h : s.resetService (some name) now = .ok s') :
    Settles s s' ∧ s'.counter name = 0 := by
  unfold resetService at h
  dsimp only at h
  split at h
  · cases h
  · next service hservice =>
    cases h
    have hcounter : ∀ x, counter
        { s with serviceDict := s.serviceDict.set name (service.reset now) } x =
          if x = name then 0 else s.counter x := by
      intro x
      unfold counter
      by_cases hx : x = name
      · rw [hx, if_pos rfl, PyDict.get?_set_self]
        rfl
      · rw [if_neg hx, PyDict.get?_set_of_ne _ hx]
    refine ⟨⟨fun x => ?_, fun x hin => absurd hin.2 hin.1, fun _ _ hget => hget⟩, ?_⟩
    · rw [hcounter]
      split
      · exact Nat.zero_le _
      · exact Nat.le_refl _
    · rw [hcounter, if_pos rfl]

theorem settles_switchToMachine {machineNew : Option String}
    (h : s.switchToMachine r machineNew = .ok s') : Settles s s' := by
  unfold switchToMachine at h
  split at h
  · cases h
    exact .refl s
  · obtain ⟨s₁, hnew, h⟩ := bind_ok h
    obtain ⟨s₂, hprevious, h⟩ := bind_ok h
    rcases machineNew with _ | new
    · cases hnew
    rcases hservice : s.serviceMachine with _ | previous
    · rw [hservice] at hprevious
      cases hprevious
    rw [hservice] at h hprevious
    cases h
    obtain ⟨hsettles₁, hzero⟩ := settles_resetService hnew
    obtain ⟨hsettles₂, -⟩ := settles_resetService hprevious
    have hzero₂ : s₂.counter new = 0 :=
      Nat.eq_zero_of_le_zero (hzero ▸ hsettles₂.counter_le new)
    have hstandby : Settles s₂ (s₂.assign previous .standby) := settles_assign (by rintro ⟨⟩)
    have hnewService : Settles (s₂.assign previous .standby)
        ((s₂.assign previous .standby).assign new .service) := settles_assign fun _ => .inl hzero₂
    exact ((hsettles₁.trans hsettles₂).trans hstandby).trans hnewService

theorem settles_leave {better : Option String} (h : s.LeavesFor r better s') : Settles s s' := by
  rcases h with ⟨-, rfl⟩ | ⟨machine, -, h⟩
  · exact .refl _
  · exact settles_switchToMachine h

theorem settles_switchToAll (h : ∀ machine ∈ s.standbyMachines, s.counter machine = 0) :
    Settles s s.switchToAll := by
  rw [switchToAll_eq]
  exact settles_assignAll (fun m => decide (some m ≠ s.serviceMachine))
    fun machine hmachine _ => h machine hmachine

theorem settles_switchOffAllButOne {machineNew : Option String}
    (hzero : ∀ machine ∈ machineNew, s.assignmentDict.get? machine ≠ some .service →
      s.counter machine = 0)
    (h : s.switchOffAllButOne machineNew = .ok s') : Settles s s' := by
  rcases machineNew with _ | machine
  · cases h
  rw [switchOff_eq] at h
  cases h
  have hoff : Settles s (s.nonrobotMachines.foldl (fun t m =>
      if (fun m => decide (machine ≠ m)) m then t.assign m .standby else t) s) :=
    settles_assignAll (fun m => decide (machine ≠ m)) (by rintro _ _ ⟨⟩)
  refine hoff.trans (settles_assign fun _ => ?_)
  by_cases hservice : s.assignmentDict.get? machine = some .service
  · refine .inr ?_
    rw [get?_assignAll (fun m => decide (machine ≠ m)), if_neg (by simp)]
    exact hservice
  · have hcounter := hoff.counter_le machine
    rw [hzero machine rfl hservice] at hcounter
    exact .inl (Nat.eq_zero_of_le_zero hcounter)

/-! ## Handlers -/

variable [LinearOrder L] [Neg L] [One L]

theorem settles_switchToNext (h : s.switchToNextUnprofiledMachine r = .ok s') : Settles s s' := by
  have hdone : Settles s { s with isDoingProfiling := false } := .of_results rfl rfl fun _ _ h => h
  rcases switchToNext_ok h with ⟨-, ⟨rfl, -⟩ | ⟨machine, -, -, h⟩⟩ | ⟨-, ⟨-, rfl⟩ | ⟨-, h⟩⟩
  · exact hdone
  · exact hdone.trans (settles_switchToMachine h)
  · exact .refl _
  · exact settles_switchToMachine h

theorem settles_handleTimeout (h : s.handleTimeout r = .ok s') : Settles s s' := by
  rcases handleTimeout_ok h with ⟨-, h⟩ | ⟨-, h⟩
  · refine Settles.trans ?_ (settles_switchToNext h)
    exact .of_results rfl rfl fun _ _ h => h
  · have hwithout : Settles s s.withoutService := by
      unfold withoutService
      split
      · next machine _ =>
        refine .of_results rfl rfl fun x profile hget => ?_
        exact PyDict.get?_of_get?_erase hget
      · exact .refl s
    exact hwithout.trans (settles_leave h)

theorem settles_handleRunning {profileUpdate : Profile L}
    (h : s.handleProfileMessageAtRunning r profileUpdate = .ok s') : Settles s s' := by
  rcases handleRunning_ok h with ⟨-, h⟩ | ⟨-, rfl⟩
  · exact settles_leave h
  · exact .refl _

/-! ## Messages -/

/-- The message is recorded as the profile of the machine it names. -/
def records (s : PolicyScheduler L) (r : Surroundings) (profileUpdate : Profile L) : Bool :=
  if s.isDoingParallelProfiling then
    match s.serviceDict.get? profileUpdate.identity with
    | none => false
    | some service => (service.update r.update profileUpdate).hasRunOutOfSkippedProfiles
  else s.isDoingProfiling && s.outcome r profileUpdate = .recorded

/-- With the message, one more profile of its machine if that has a latency. -/
def heard (delivered : String → Nat) (profileUpdate : Profile L) : String → Nat :=
  if profileUpdate.connected then
    Function.update delivered profileUpdate.identity (delivered profileUpdate.identity + 1)
  else delivered

theorem le_heard (delivered : String → Nat) (profileUpdate : Profile L) (machine : String) :
    delivered machine ≤ heard delivered profileUpdate machine := by
  unfold heard
  split
  · by_cases hmachine : machine = profileUpdate.identity
    · rw [hmachine, Function.update_self]
      exact Nat.le_succ _
    · rw [Function.update_of_ne hmachine]
  · exact Nat.le_refl _

theorem heard_mono {delivered delivered' : String → Nat} (h : ∀ machine, delivered machine ≤
    delivered' machine) (profileUpdate : Profile L) (machine : String) :
    heard delivered profileUpdate machine ≤ heard delivered' profileUpdate machine := by
  unfold heard
  split
  · by_cases hmachine : machine = profileUpdate.identity
    · rw [hmachine, Function.update_self, Function.update_self]
      exact Nat.succ_le_succ (h _)
    · rw [Function.update_of_ne hmachine, Function.update_of_ne hmachine]
      exact h machine
  · exact h machine

theorem counter_update {service : SgcService L} {profileUpdate : Profile L}
    (hservice : s.serviceDict.get? profileUpdate.identity = some service) (machine : String) :
    counter
        { s with
          serviceDict := s.serviceDict.set profileUpdate.identity
            (service.update r.update profileUpdate) } machine =
      heard s.counter profileUpdate machine := by
  change ((s.serviceDict.set profileUpdate.identity (service.update r.update profileUpdate)).get?
    machine).elim 0 SgcService.numProfilesAfterConnected = _
  have hbefore : s.counter profileUpdate.identity = service.numProfilesAfterConnected := by
    unfold counter
    rw [hservice, Option.elim_some]
  unfold heard
  by_cases hmachine : machine = profileUpdate.identity
  · subst hmachine
    rw [PyDict.get?_set_self, Option.elim_some]
    unfold SgcService.update
    by_cases hconnected : profileUpdate.connected
    · rw [if_pos hconnected, if_pos hconnected, Function.update_self, hbefore]
    · rw [if_neg hconnected, if_neg hconnected, hbefore]
  · rw [PyDict.get?_set_of_ne _ hmachine]
    split
    · rw [Function.update_of_ne hmachine]
      rfl
    · rfl

/-- What the message does before a machine is switched: it is counted, and it is recorded if
its machine has delivered enough. -/
structure Noted (s : PolicyScheduler L) (r : Surroundings) (profileUpdate : Profile L)
    (t : PolicyScheduler L) : Prop where
  assignmentDict : t.assignmentDict = s.assignmentDict
  counter_le : ∀ machine, t.counter machine ≤ heard s.counter profileUpdate machine
  results : t.activeProfilingResult =
    if s.records r profileUpdate then
      s.activeProfilingResult.set profileUpdate.identity profileUpdate
    else s.activeProfilingResult
  warm : s.records r profileUpdate = true →
    totalThrowAwayProfiles ≤ t.counter profileUpdate.identity

section Messages

variable {profileUpdate : Profile L}

omit [LinearOrder L] [Neg L] [One L] in
theorem warm_of_hasRunOut {service : SgcService L}
    (hservice : s.serviceDict.get? profileUpdate.identity = some service)
    (h : service.hasRunOutOfSkippedProfiles = true) :
    totalThrowAwayProfiles ≤ s.counter profileUpdate.identity := by
  unfold counter
  rw [hservice]
  exact of_decide_eq_true h

theorem noted_profileAtParallel (hparallel : s.isDoingParallelProfiling = true)
    (h : s.profileAtParallel r profileUpdate = .ok s') :
    ∃ t, Noted s r profileUpdate t ∧ Settles t s' := by
  unfold profileAtParallel at h
  rcases hservice : s.serviceDict.get? profileUpdate.identity with _ | service
  · rw [hservice] at h
    cases h
  have hrecords : s.records r profileUpdate =
      (service.update r.update profileUpdate).hasRunOutOfSkippedProfiles := by
    unfold records
    rw [if_pos hparallel, hservice]
  have hcounter := counter_update (r := r) hservice
  rw [hservice] at h
  dsimp only at h
  split at h
  · next hwarm =>
    obtain ⟨t, hrecord, h⟩ := bind_ok h
    unfold handleProfileMessageAtProfiling at hrecord
    rw [if_pos hparallel] at hrecord
    cases hrecord
    refine ⟨{ s with
      serviceDict := s.serviceDict.set profileUpdate.identity
        (service.update r.update profileUpdate)
      activeProfilingResult :=
        s.activeProfilingResult.set profileUpdate.identity profileUpdate },
      ⟨rfl, fun machine => (hcounter machine).le, ?_, fun _ => ?_⟩, ?_⟩
    · rw [hrecords, if_pos hwarm]
    · exact warm_of_hasRunOut (PyDict.get?_set_self ..) hwarm
    · split at h
      · cases h
        exact .of_results rfl rfl fun _ _ h => h
      · cases h
        exact .refl _
  · next hcold =>
    cases h
    refine ⟨{ s with
      serviceDict := s.serviceDict.set profileUpdate.identity
        (service.update r.update profileUpdate) },
      ⟨rfl, fun machine => (hcounter machine).le, ?_, fun hrecord => ?_⟩, .refl _⟩
    · rw [hrecords, if_neg hcold]
    · exact absurd (hrecords ▸ hrecord) hcold

theorem Hears.counter_le {serviceDict : PyDict String (SgcService L)}
    (h : s.Hears r profileUpdate serviceDict) (machine : String) :
    counter { s with serviceDict } machine ≤ heard s.counter profileUpdate machine := by
  rcases h with ⟨-, rfl⟩ | ⟨service, hservice, rfl⟩
  · exact le_heard s.counter profileUpdate machine
  · exact (counter_update hservice machine).le

theorem outcome_recorded (h : s.outcome r profileUpdate = .recorded) :
    some profileUpdate.identity = s.serviceMachine ∧
      ∃ service, s.serviceDict.get? profileUpdate.identity = some service ∧
        (service.update r.update profileUpdate).hasRunOutOfSkippedProfiles = true := by
  unfold outcome at h
  rcases hfound : s.serviceMachine.bind s.serviceDict.get? with _ | service
  · rw [hfound] at h
    cases h
  rw [hfound] at h
  dsimp only at h
  split at h
  · split at h <;> cases h
  · next hidentity =>
    rw [← not_not.1 hidentity] at hfound
    split at h
    · cases h
    · split at h
      · next hwarm => exact ⟨not_not.1 hidentity, service, hfound, hwarm⟩
      · cases h

theorem noted_profileTopic (h : s.profileTopicCallback r profileUpdate = .ok s') :
    ∃ t, Noted s r profileUpdate t ∧ Settles t s' := by
  by_cases hparallel : s.isDoingParallelProfiling
  · unfold profileTopicCallback at h
    rw [if_pos hparallel] at h
    exact noted_profileAtParallel hparallel h
  rw [Bool.not_eq_true] at hparallel
  obtain ⟨serviceDict, hhears, hcases⟩ := profileTopic_ok hparallel h
  have hrecords : s.records r profileUpdate = true ↔
      s.isDoingProfiling = true ∧ s.outcome r profileUpdate = .recorded := by
    unfold records
    rw [if_neg (by simp [hparallel]), Bool.and_eq_true, decide_eq_true_iff]
  have hskip (hnot : ¬ (s.isDoingProfiling = true ∧ s.outcome r profileUpdate = .recorded)) :
      Noted s r profileUpdate { s with serviceDict } := by
    rw [← hrecords] at hnot
    exact ⟨rfl, hhears.counter_le, by rw [if_neg hnot], fun h => absurd h hnot⟩
  rcases hcases with ⟨houtcome, h⟩ | ⟨houtcome, hdoing, h⟩ | ⟨houtcome, hidle, hidentity, h⟩ |
    ⟨houtcome, hskipped, rfl⟩
  · refine ⟨_, hskip ?_, settles_handleTimeout h⟩
    rw [houtcome]
    rintro ⟨-, ⟨⟩⟩
  · obtain ⟨hidentity, service, hservice, hwarm⟩ := outcome_recorded houtcome
    unfold handleProfileMessageAtProfiling at h
    rw [if_neg (by simp [hparallel])] at h
    have hmachine : serviceMachine { s with serviceDict } = some profileUpdate.identity :=
      hidentity.symm
    rw [hmachine] at h
    refine ⟨{ s with
      serviceDict
      activeProfilingResult :=
        s.activeProfilingResult.set profileUpdate.identity profileUpdate },
      ⟨rfl, hhears.counter_le, ?_, fun _ => ?_⟩, settles_switchToNext h⟩
    · rw [if_pos (hrecords.2 ⟨hdoing, houtcome⟩)]
    · rcases hhears with ⟨hne, -⟩ | ⟨service', hservice', rfl⟩
      · exact absurd hidentity hne
      · cases hservice.symm.trans hservice'
        exact warm_of_hasRunOut (PyDict.get?_set_self ..) hwarm
  · refine ⟨_, hskip ?_, settles_handleRunning h⟩
    rw [hidle]
    rintro ⟨⟨⟩, -⟩
  · refine ⟨_, hskip ?_, .refl _⟩
    rw [houtcome]
    rintro ⟨-, ⟨⟩⟩

end Messages

/-! ## Callbacks -/

/-- What the routines that leave the counters switch into state service counts from zero. -/
def SwitchesCold (s : PolicyScheduler L) : SchedulerCallback L → Prop
  | .parallelProfiling =>
    s.isDoingProfiling = false → s.isDoingParallelProfiling = false →
      ∀ machine ∈ s.standbyMachines, s.counter machine = 0
  | .parallelProfilingBest =>
    s.isParallelProfilingReady = true → s.isDoingParallelProfiling = true →
      ∀ machine ∈ s.least.or s.currentActiveServiceMachine,
        s.assignmentDict.get? machine ≠ some .service → s.counter machine = 0
  | _ => True

theorem settles_doProfiling (h : s.doProfiling r = .ok s') : Settles s s' := by
  unfold doProfiling at h
  split at h
  · cases h
    exact .refl s
  · refine Settles.trans ?_ (settles_switchToNext h)
    refine .of_results rfl rfl ?_
    rintro machine profile ⟨⟩

omit [LinearOrder L] [Neg L] [One L] in
theorem settles_doParallelProfiling
    (hcold : s.isDoingProfiling = false → s.isDoingParallelProfiling = false →
      ∀ machine ∈ s.standbyMachines, s.counter machine = 0) :
    Settles s (s.doParallelProfiling r) := by
  unfold doParallelProfiling
  split
  · exact .refl s
  · next hfree =>
    simp only [Bool.or_eq_true, not_or, Bool.not_eq_true] at hfree
    set start : PolicyScheduler L := { s with
      currentActiveServiceMachine := s.serviceMachine
      isDoingParallelProfiling := true
      isParallelProfilingReady := false
      activeProfilingResult := .empty }
    have hstart : Settles s start := by
      refine .of_results rfl rfl ?_
      rintro machine profile ⟨⟩
    have hall : Settles start start.switchToAll := settles_switchToAll (hcold hfree.1 hfree.2)
    exact (hstart.trans hall).trans (.of_results rfl rfl fun _ _ h => h)

theorem settles_parallelProfilingBest {response : Option String}
    (hcold : s.SwitchesCold .parallelProfilingBest)
    (h : s.parallelProfilingBest = .ok (s', response)) : Settles s s' := by
  unfold parallelProfilingBest at h
  split at h
  · next hready =>
    rw [Bool.and_eq_true] at hready
    obtain ⟨t, hoff, heq⟩ := map_ok h
    cases heq
    set done : PolicyScheduler L := { s with isDoingParallelProfiling := false }
    have hleast : done.getAMachineWithBetterProfile [] = s.least := better_eq_least s
    rw [hleast] at hoff
    have hdone : Settles s done := .of_results rfl rfl fun _ _ h => h
    exact hdone.trans (settles_switchOffAllButOne (hcold hready.1 hready.2) hoff)
  · cases h
    exact .refl s

theorem settles_machineWithBetterProfile {response : Option String}
    (h : s.machineWithBetterProfile r = .ok (s', response)) : Settles s s' := by
  unfold machineWithBetterProfile at h
  obtain ⟨t, hswitch, h⟩ := bind_ok h
  split at h
  · cases h
    exact settles_switchToMachine hswitch
  · cases h

/-- Every callback but a message. -/
theorem settles_callback {c : SchedulerCallback L} {response : Option String}
    (hcold : s.SwitchesCold c) (hmessage : ∀ profileUpdate, c ≠ .profileTopic profileUpdate)
    (h : s.callback r c = .ok (s', response)) : Settles s s' := by
  cases c with
  | profileTopic profileUpdate => exact absurd rfl (hmessage profileUpdate)
  | profilingOptimizer =>
    rw [callback] at h
    split at h
    · cases h
      exact .refl s
    · obtain ⟨t, ht, heq⟩ := map_ok h
      cases heq
      exact settles_doProfiling ht
  | parallelProfiling =>
    rw [callback] at h
    split at h
    · cases h
      exact .refl s
    · cases h
      exact settles_doParallelProfiling hcold
  | parallelProfilingBest => exact settles_parallelProfilingBest hcold h
  | machineWithBetterProfile => exact settles_machineWithBetterProfile h
  | lsActiveProfile =>
    cases h
    exact .refl s

end PolicyScheduler

/-! ## The watch -/

/-- The scheduler, and for each machine how many connected profiles it delivered since it last
changed into state service and with how many of them its recorded profile was received. -/
structure Watch (L : Type) where
  scheduler : PolicyScheduler L
  delivered : String → Nat := fun _ => 0
  received : String → Nat := fun _ => 0

namespace Watch

variable {L : Type} [LinearOrder L] [Neg L] [One L] (w : Watch L)

/-- A message is counted when it is received. -/
def counted : SchedulerCallback L → String → Nat
  | .profileTopic profileUpdate => PolicyScheduler.heard w.delivered profileUpdate
  | _ => w.delivered

def stamped (r : Surroundings) : SchedulerCallback L → String → Nat
  | .profileTopic profileUpdate =>
    if w.scheduler.records r profileUpdate then
      Function.update w.received profileUpdate.identity
        (w.counted (.profileTopic profileUpdate) profileUpdate.identity)
    else w.received
  | _ => w.received

def step (event : Surroundings × SchedulerCallback L) : Except PyError (Watch L) :=
  (w.scheduler.callback event.1 event.2).map fun result =>
    { scheduler := result.1
      delivered := fun machine =>
        if w.scheduler.SwitchedIn result.1 machine then 0 else w.counted event.2 machine
      received := w.stamped event.1 event.2 }

/-- A callback in a run that may have raised before. -/
def next (w : Except PyError (Watch L)) (event : Surroundings × SchedulerCallback L) :
    Except PyError (Watch L) :=
  w >>= fun w => w.step event

/-- The watch does not interfere. -/
theorem scheduler_next (w : Except PyError (Watch L))
    (event : Surroundings × SchedulerCallback L) :
    (next w event).map scheduler = PolicyScheduler.next (w.map scheduler) event := by
  rcases w with e | w
  · rfl
  · change (w.step event).map scheduler = (w.scheduler.callback event.1 event.2).map Prod.fst
    unfold step
    cases w.scheduler.callback event.1 event.2 <;> rfl

/-- No machine counts more than it delivered, and what is recorded was received warm. -/
structure Warm (w : Watch L) : Prop where
  counter_le : ∀ machine, w.scheduler.counter machine ≤ w.delivered machine
  received : ∀ machine profile, w.scheduler.activeProfilingResult.get? machine = some profile →
    totalThrowAwayProfiles ≤ w.received machine

variable {w : Watch L}

/-- What a message brings about before a machine is switched. -/
theorem Warm.noted (hw : w.Warm) {r : Surroundings} {profileUpdate : Profile L}
    {t : PolicyScheduler L} (ht : w.scheduler.Noted r profileUpdate t) :
    (∀ machine, t.counter machine ≤ w.counted (.profileTopic profileUpdate) machine) ∧
      ∀ machine profile, t.activeProfilingResult.get? machine = some profile →
        totalThrowAwayProfiles ≤ w.stamped r (.profileTopic profileUpdate) machine := by
  have hcounted : ∀ machine, t.counter machine ≤ w.counted (.profileTopic profileUpdate) machine :=
    fun machine => (ht.counter_le machine).trans
      (PolicyScheduler.heard_mono hw.counter_le profileUpdate machine)
  refine ⟨hcounted, fun machine profile hget => ?_⟩
  rw [ht.results] at hget
  unfold stamped
  dsimp only
  by_cases hrecords : w.scheduler.records r profileUpdate = true
  · rw [if_pos hrecords] at hget ⊢
    by_cases hmachine : machine = profileUpdate.identity
    · rw [hmachine, Function.update_self]
      exact (ht.warm hrecords).trans (hcounted _)
    · rw [PyDict.get?_set_of_ne _ hmachine] at hget
      rw [Function.update_of_ne hmachine]
      exact hw.received machine profile hget
  · rw [if_neg hrecords] at hget ⊢
    exact hw.received machine profile hget

theorem Warm.step (hw : w.Warm) {event : Surroundings × SchedulerCallback L}
    (hcold : w.scheduler.SwitchesCold event.2) {w' : Watch L} (h : w.step event = .ok w') :
    w'.Warm := by
  obtain ⟨r, c⟩ := event
  obtain ⟨⟨s', response⟩, hcallback, rfl⟩ := PolicyScheduler.map_ok h
  -- the scheduler once the message is counted and recorded, before a machine is switched
  obtain ⟨t, hassignment, hcounter, hresults, hsettles⟩ :
      ∃ t : PolicyScheduler L, t.assignmentDict = w.scheduler.assignmentDict ∧
        (∀ machine, t.counter machine ≤ w.counted c machine) ∧
        (∀ machine profile, t.activeProfilingResult.get? machine = some profile →
          totalThrowAwayProfiles ≤ w.stamped r c machine) ∧ t.Settles s' := by
    have hquiet (hmessage : ∀ profileUpdate, c ≠ .profileTopic profileUpdate) :
        w.scheduler.Settles s' := PolicyScheduler.settles_callback hcold hmessage hcallback
    cases c with
    | profileTopic profileUpdate =>
      obtain ⟨s', hprofile, heq⟩ := PolicyScheduler.map_ok hcallback
      cases heq
      obtain ⟨t, ht, hsettles⟩ := PolicyScheduler.noted_profileTopic hprofile
      obtain ⟨hcounter, hresults⟩ := hw.noted ht
      exact ⟨t, ht.assignmentDict, hcounter, hresults, hsettles⟩
    | _ => exact ⟨w.scheduler, rfl, hw.counter_le, hw.received, hquiet (by rintro _ ⟨⟩)⟩
  refine ⟨fun machine => ?_, fun machine profile hget => ?_⟩
  · change s'.counter machine ≤
      if w.scheduler.SwitchedIn s' machine then 0 else w.counted c machine
    split
    · next hin =>
      unfold PolicyScheduler.SwitchedIn at hin
      rw [← hassignment] at hin
      exact (hsettles.switchedIn machine hin).le
    · exact (hsettles.counter_le machine).trans (hcounter machine)
  · exact hresults machine profile (hsettles.results machine profile hget)

/-- The scheduler after `__init__`, with nothing delivered. -/
def initial (assignment : PyDict String MachineState) (timeBound : TimeBound L)
    (automaticSwitching : Bool) (now : ℚ) : Watch L where
  scheduler := .initial assignment timeBound automaticSwitching now

omit [LinearOrder L] [Neg L] [One L] in
theorem warm_initial (assignment : PyDict String MachineState) (timeBound : TimeBound L)
    (automaticSwitching : Bool) (now : ℚ) :
    (initial assignment timeBound automaticSwitching now).Warm := by
  refine ⟨fun machine => ?_, ?_⟩
  · change ((assignment.map fun _ => _).get? machine).elim 0
      SgcService.numProfilesAfterConnected ≤ 0
    rw [PyDict.get?_map]
    cases assignment.get? machine <;> exact Nat.le_refl 0
  · rintro machine profile ⟨⟩

/-- What is selected was recorded. -/
theorem Warm.selected (hw : w.Warm) {excludeList : List String} {machine : String}
    (h : w.scheduler.getAMachineWithBetterProfile excludeList = some machine) :
    totalThrowAwayProfiles ≤ w.received machine := by
  obtain ⟨profile, hprofile⟩ := PyDict.mem_keys.1 (PolicyScheduler.mem_results_of_better h)
  exact hw.received machine profile hprofile

/-- **Main result.**  In every run in which the routines that leave the counters switch no
machine into state service that counts other than from zero, every profile recorded for a
machine, in every state reached, was received when the machine had delivered at least six
connected ones since it last changed into state service; and so was that of every machine
that is selected. -/
theorem recorded_warm (assignment : PyDict String MachineState) (timeBound : TimeBound L)
    (automaticSwitching : Bool) (now : ℚ)
    {callbacks : List (Surroundings × SchedulerCallback L)}
    (hcold : Run.Throughout PolicyScheduler.next
      (fun x event => ∀ s, x = .ok s → s.SwitchesCold event.2)
      (.ok (.initial assignment timeBound automaticSwitching now)) callbacks)
    {done : List (Surroundings × SchedulerCallback L)} (hdone : done <+: callbacks)
    {w : Watch L}
    (hrun : Run.after next (.ok (initial assignment timeBound automaticSwitching now)) done =
      .ok w) :
    (∀ machine profile, w.scheduler.activeProfilingResult.get? machine = some profile →
        totalThrowAwayProfiles ≤ w.received machine) ∧
      ∀ excludeList machine, w.scheduler.getAMachineWithBetterProfile excludeList = some machine →
        totalThrowAwayProfiles ≤ w.received machine := by
  obtain ⟨rest, rfl⟩ := hdone
  have hwatched := (Run.throughout_map scheduler_next
    (s := Except.ok (initial assignment timeBound automaticSwitching now))).1
    (Run.throughout_append.1 hcold).1
  have hwarm : w.Warm := by
    refine Run.Throughout.invariant
      (fun x : Except PyError (Watch L) => ∀ w, x = .ok w → w.Warm) ?_ ?_ hwatched w hrun
    · intro x event hx hcold w' hw'
      obtain ⟨w, rfl, hstep⟩ := PolicyScheduler.bind_ok hw'
      exact (hx w rfl).step (hcold w.scheduler rfl) hstep
    · rintro w ⟨⟩
      exact warm_initial ..
  exact ⟨hwarm.received, fun _ _ => hwarm.selected⟩

/-- A round of parallel profiling in which both machines deliver enough. -/
def parallelRound : List (Surroundings × SchedulerCallback ℤ) :=
  (⟨0, 0, 0, 0, 0, 0, 0⟩, .parallelProfiling) ::
    (List.replicate 6 (⟨0, 0, 0, 0, 0, 0, 0⟩, .profileTopic ⟨"cloud", 2, 2, 2, 2, 2, 2⟩) ++
      List.replicate 6 (⟨0, 0, 0, 0, 0, 0, 0⟩, .profileTopic ⟨"edge", 1, 1, 1, 1, 1, 1⟩))

/-- What a run records for a machine, with how many profiles it was received. -/
def recordedWith (callbacks : List (Surroundings × SchedulerCallback ℤ)) (machine : String) :
    Option Nat :=
  (Run.after next (.ok (initial PolicyScheduler.twoMachines ⟨-1, -1, -1, -1, -1, -1⟩ true 0))
    callbacks).toOption.bind fun w =>
      (w.scheduler.activeProfilingResult.get? machine).map fun _ => w.received machine

theorem recordedWith_eq_some {callbacks : List (Surroundings × SchedulerCallback ℤ)}
    {machine : String} {count : Nat} (h : recordedWith callbacks machine = some count) :
    ∃ w profile,
      Run.after next (.ok (initial PolicyScheduler.twoMachines ⟨-1, -1, -1, -1, -1, -1⟩ true 0))
        callbacks = .ok w ∧
      w.scheduler.activeProfilingResult.get? machine = some profile ∧
      w.received machine = count := by
  obtain ⟨w, hrun, h⟩ := Option.bind_eq_some_iff.1 h
  obtain ⟨profile, hprofile, hcount⟩ := Option.map_eq_some_iff.1 h
  refine ⟨w, profile, ?_, hprofile, hcount⟩
  cases hresult : Run.after next
    (.ok (initial PolicyScheduler.twoMachines ⟨-1, -1, -1, -1, -1, -1⟩ true 0)) callbacks with
  | error e =>
    rw [hresult] at hrun
    cases hrun
  | ok w' =>
    rw [hresult] at hrun
    exact congrArg Except.ok (Option.some.inj hrun)

theorem recorded_warm_parallelRound :
    ∃ count, recordedWith parallelRound "cloud" = some count ∧ totalThrowAwayProfiles ≤ count := by
  have hcold : Run.Throughout PolicyScheduler.next
      (fun x event => ∀ s, x = .ok s → s.SwitchesCold event.2)
      (.ok (.initial PolicyScheduler.twoMachines ⟨-1, -1, -1, -1, -1, -1⟩ true 0))
      parallelRound := by
    constructor
    · rintro s ⟨⟩ - -
      decide
    · have hmessages : ∀ event ∈ parallelRound.tail, ∃ profile : Profile ℤ,
          event.2 = .profileTopic profile := by
        intro event hevent
        rcases List.mem_append.1 hevent with h | h
        · rw [List.eq_of_mem_replicate h]
          exact ⟨_, rfl⟩
        · rw [List.eq_of_mem_replicate h]
          exact ⟨_, rfl⟩
      refine (Run.throughout_of_forall _ hmessages).of_invariant (fun _ => True)
        (fun _ _ _ _ => trivial) (fun x event _ hmessage s _ => ?_) trivial
      obtain ⟨profile, hprofile⟩ := hmessage
      rw [hprofile]
      trivial
  have hrecorded : recordedWith parallelRound "cloud" = some 6 := by decide +kernel
  obtain ⟨w, profile, hrun, hprofile, hcount⟩ := recordedWith_eq_some hrecorded
  exact ⟨6, hrecorded,
    hcount ▸ (recorded_warm _ _ _ _ hcold (List.prefix_refl _) hrun).1 "cloud" profile hprofile⟩

/-- The second round of parallel profiling records the first profile that the machine delivers
once it is back in service. -/
theorem second_round_cold :
    ¬ ∀ done w, done <+: parallelRound ++
        [(⟨0, 0, 0, 0, 0, 0, 0⟩, .parallelProfilingBest),
          (⟨0, 0, 0, 0, 0, 0, 0⟩, .parallelProfiling),
          (⟨0, 0, 0, 0, 0, 0, 0⟩, .profileTopic ⟨"cloud", 2, 2, 2, 2, 2, 2⟩)] →
      Run.after next (.ok (initial PolicyScheduler.twoMachines ⟨-1, -1, -1, -1, -1, -1⟩ true 0))
        done = .ok w →
      ∀ machine profile, w.scheduler.activeProfilingResult.get? machine = some profile →
        totalThrowAwayProfiles ≤ w.received machine := by
  intro hwarm
  have hrecorded : recordedWith (parallelRound ++
      [(⟨0, 0, 0, 0, 0, 0, 0⟩, .parallelProfilingBest),
        (⟨0, 0, 0, 0, 0, 0, 0⟩, .parallelProfiling),
        (⟨0, 0, 0, 0, 0, 0, 0⟩, .profileTopic ⟨"cloud", 2, 2, 2, 2, 2, 2⟩)]) "cloud" = some 1 := by
    decide +kernel
  obtain ⟨w, profile, hrun, hprofile, hcount⟩ := recordedWith_eq_some hrecorded
  have hsix := hwarm _ w (List.prefix_refl _) hrun "cloud" profile hprofile
  rw [hcount] at hsix
  exact absurd hsix (by decide)

end Watch

end RtFogros
