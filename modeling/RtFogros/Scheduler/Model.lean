import RtFogros.Lib.PyDict
import Mathlib.Algebra.Order.Ring.Rat
import Mathlib.Data.List.Sort

/-!
# The policy scheduler

`SGC_Policy_Scheduler` and `SGC_Service` of `sgc_policy_scheduler.py`.  A callback is a
function from the scheduler and what it reads from its surroundings (clock, random
choice) to the scheduler after it; `Except.error` is a callback that raises.
Latencies are any linear order with a value `-1`.

The dictionaries keep their insertion order, since the order decides which of two machines with one
latency is selected.  The two profiling modes are flags of the scheduler, as in the source, and a
callback may come in any of their combinations.
-/

namespace RtFogros

/-! ## Services -/

def totalThrowAwayProfiles : Nat := 6

def maxAllowedDisconnectedTime : ℚ := 10

/-- The latencies of `Profile.msg`, with the identity of their machine. -/
structure Profile (L : Type) where
  identity : String
  minLatency : L
  maxLatency : L
  meanLatency : L
  medianLatency : L
  stdLatency : L
  maxKmeansLatency : L

structure SgcService (L : Type) where
  lastProfile : Option (Profile L) := none
  lastConnectedTime : Option ℚ := none
  lastSwitchedTime : ℚ
  numProfilesAfterConnected : Nat := 0

section Service

variable {L : Type} [LinearOrder L] [Neg L] [One L]

def Profile.connected (profile : Profile L) : Bool := profile.medianLatency ≠ -1

namespace SgcService

def update (service : SgcService L) (now : ℚ) (profileUpdate : Profile L) : SgcService L :=
  if profileUpdate.connected then
    { service with
      lastConnectedTime := some now
      numProfilesAfterConnected := service.numProfilesAfterConnected + 1
      lastProfile := some profileUpdate }
  else { service with lastProfile := some profileUpdate }

def checkTimeout (service : SgcService L) (now : ℚ) : Bool :=
  match service.lastConnectedTime with
  | none => ¬ now - service.lastSwitchedTime < maxAllowedDisconnectedTime
  | some time => now - time > maxAllowedDisconnectedTime

def hasRunOutOfSkippedProfiles (service : SgcService L) : Bool :=
  service.numProfilesAfterConnected ≥ totalThrowAwayProfiles

def reset (service : SgcService L) (now : ℚ) : SgcService L :=
  { service with
    lastConnectedTime := none
    lastSwitchedTime := now
    numProfilesAfterConnected := 0 }

end SgcService

end Service

/-! ## The scheduler's state -/

/-- The states of the assignment that the scheduler compares with; any other name is
`other`. -/
inductive MachineState where
  | robot
  | standby
  | service
  | other (name : String)
deriving DecidableEq

/-- `config["time_bound"]`, `-1` where a bound is absent. -/
structure TimeBound (L : Type) where
  smart : L
  max : L
  mean : L
  median : L
  min : L
  std : L

structure SgcAssignment where
  machine : String
  state : MachineState
deriving DecidableEq

structure PolicyScheduler (L : Type) where
  automaticSwitching : Bool := true
  timeBound : TimeBound L
  assignmentDict : PyDict String MachineState
  serviceDict : PyDict String (SgcService L)
  currentActiveServiceMachine : Option String
  isDoingProfiling : Bool := false
  isDoingParallelProfiling : Bool := false
  t0 : ℚ := 0
  isParallelProfilingReady : Bool := false
  activeProfilingResult : PyDict String (Profile L) := .empty
  activeProfilingDisconnectedList : List String := []
  requests : List SgcAssignment := []

/-- What a callback reads: `time.time()` at each place where it counts, and the index
that `random.choice` draws. -/
structure Surroundings where
  update : ℚ
  check : ℚ
  resetNew : ℚ
  resetPrevious : ℚ
  start : ℚ
  ready : ℚ
  choice : Nat

/-- The exceptions a callback can raise: a name that is no key of a dictionary, and a
value that is no string for a message field. -/
inductive PyError where
  | keyError (key : Option String)
  | assertionError
deriving DecidableEq

inductive SchedulerCallback (L : Type) where
  | profileTopic (profileUpdate : Profile L)
  | profilingOptimizer
  | parallelProfiling
  | parallelProfilingBest
  | machineWithBetterProfile
  | lsActiveProfile

namespace PolicyScheduler

section Getters

variable {L : Type} (s : PolicyScheduler L)

def robotMachine : Option String := (s.assignmentDict.keysWith (· = .robot)).head?

def serviceMachine : Option String := (s.assignmentDict.keysWith (· = .service)).head?

def standbyMachines : List String := s.assignmentDict.keysWith (· = .standby)

def nonrobotMachines : List String := s.assignmentDict.keysWith (· ≠ .robot)

/-- `_get_list_of_machine_not_profiled`; the order of the set difference is free, as
the draw of `random.choice` is. -/
def machinesNotProfiled : List String :=
  s.assignmentDict.keys.filter fun machine =>
    machine ∉ s.activeProfilingResult.keys ++ s.robotMachine.toList ++
      s.activeProfilingDisconnectedList

end Getters

variable {L : Type} [LinearOrder L] [Neg L] [One L]

/-! ## Selection -/

def exceeds (bound value : L) : Bool := bound ≠ -1 && value > bound

def checkLatencyBound (s : PolicyScheduler L) (profile : Profile L) : Bool :=
  if profile.medianLatency = -1 then false
  else if exceeds s.timeBound.smart profile.maxKmeansLatency then false
  else if exceeds s.timeBound.max profile.maxLatency then false
  else if exceeds s.timeBound.mean profile.meanLatency then false
  else if exceeds s.timeBound.median profile.medianLatency then false
  else if s.timeBound.min ≠ -1 && profile.minLatency < s.timeBound.min then false
  else if exceeds s.timeBound.std profile.stdLatency then false
  else true

/-- `sorted(machines, key=...max_latency)`, which is stable. -/
def sortedByMaxLatency (machines : List (String × Profile L)) : List (String × Profile L) :=
  machines.insertionSort fun a b => a.2.maxLatency ≤ b.2.maxLatency

def getAMachineWithBetterProfile (s : PolicyScheduler L) (excludeList : List String) :
    Option String :=
  let machines := s.activeProfilingResult.entries.filter fun entry => entry.1 ∉ excludeList
  let allPassedMachines := machines.filter fun entry => s.checkLatencyBound entry.2
  let connectedMachines := machines.filter fun entry => entry.2.connected
  if allPassedMachines.length = 0 then
    if connectedMachines.length = 0 then none
    else (sortedByMaxLatency connectedMachines).head?.map Prod.fst
  else (sortedByMaxLatency allPassedMachines).head?.map Prod.fst

/-! ## Switching -/

/-- `self.assignment_dict[machine] = state` and the request to the assignment service. -/
def assign (s : PolicyScheduler L) (machine : String) (state : MachineState) : PolicyScheduler L :=
  { s with
    assignmentDict := s.assignmentDict.set machine state
    requests := s.requests ++ [⟨machine, state⟩] }

def resetService (s : PolicyScheduler L) (machine : Option String) (now : ℚ) :
    Except PyError (PolicyScheduler L) :=
  match machine with
  | none => .error (.keyError none)
  | some name =>
    match s.serviceDict.get? name with
    | none => .error (.keyError (some name))
    | some service => .ok { s with serviceDict := s.serviceDict.set name (service.reset now) }

def switchToMachine (s : PolicyScheduler L) (r : Surroundings) (machineNew : Option String) :
    Except PyError (PolicyScheduler L) :=
  if machineNew = s.serviceMachine then .ok s
  else do
    let s₁ ← s.resetService machineNew r.resetNew
    let s₂ ← s₁.resetService s.serviceMachine r.resetPrevious
    match s.serviceMachine, machineNew with
    | some previous, some new => .ok ((s₂.assign previous .standby).assign new .service)
    -- both names have been looked up
    | _, _ => .error .assertionError

def switchToNextUnprofiledMachine (s : PolicyScheduler L) (r : Surroundings) :
    Except PyError (PolicyScheduler L) :=
  let unprofiledMachines := s.machinesNotProfiled
  if unprofiledMachines.length = 0 then
    let s := { s with isDoingProfiling := false }
    match s.getAMachineWithBetterProfile [] with
    | some machine =>
      -- `if machine_with_better_profile:` is false for an empty name
      if machine ≠ "" then s.switchToMachine r (some machine) else .ok s
    | none => .ok s
  else
    let others := unprofiledMachines.filter fun machine => some machine ≠ s.serviceMachine
    if others.length = 0 then s.switchToMachine r s.serviceMachine
    else s.switchToMachine r others[r.choice % others.length]?

def switchToAll (s : PolicyScheduler L) : PolicyScheduler L :=
  s.standbyMachines.foldl
    (fun t machine =>
      if some machine = s.serviceMachine then t else t.assign machine .service) s

def switchOffAllButOne (s : PolicyScheduler L) (machineNew : Option String) :
    Except PyError (PolicyScheduler L) :=
  let off := s.nonrobotMachines.foldl
    (fun t machine =>
      if machineNew ≠ some machine then t.assign machine .standby else t) s
  match machineNew with
  | some machine => .ok (off.assign machine .service)
  | none => .error .assertionError

/-! ## Handlers -/

/-- `_handle_timeout`; the caller has looked the service machine up, so there is one. -/
def handleTimeout (s : PolicyScheduler L) (r : Surroundings) :
    Except PyError (PolicyScheduler L) :=
  if s.isDoingProfiling then
    switchToNextUnprofiledMachine
      { s with
        activeProfilingDisconnectedList :=
          s.activeProfilingDisconnectedList ++ s.serviceMachine.toList } r
  else
    let s := match s.serviceMachine with
      | some machine => { s with activeProfilingResult := s.activeProfilingResult.erase machine }
      | none => s
    match s.getAMachineWithBetterProfile [] with
    | some machine => s.switchToMachine r (some machine)
    | none => .ok s

/-- `_handle_profile_message_at_profiling`; outside parallel profiling the caller has
looked the service machine up, so there is one. -/
def handleProfileMessageAtProfiling (s : PolicyScheduler L) (r : Surroundings)
    (profileUpdate : Profile L) : Except PyError (PolicyScheduler L) :=
  if s.isDoingParallelProfiling then
    .ok { s with
      activeProfilingResult := s.activeProfilingResult.set profileUpdate.identity profileUpdate }
  else
    match s.serviceMachine with
    | some machine =>
      switchToNextUnprofiledMachine
        { s with activeProfilingResult := s.activeProfilingResult.set machine profileUpdate } r
    | none => .error (.keyError none)

def handleProfileMessageAtRunning (s : PolicyScheduler L) (r : Surroundings)
    (profileUpdate : Profile L) : Except PyError (PolicyScheduler L) :=
  if !s.checkLatencyBound profileUpdate && s.automaticSwitching then
    match s.getAMachineWithBetterProfile s.serviceMachine.toList with
    | some machine => s.switchToMachine r (some machine)
    | none => .ok s
  else .ok s

/-! ## Callbacks -/

/-- The branch of `profile_topic_callback` for parallel profiling. -/
def profileAtParallel (s : PolicyScheduler L) (r : Surroundings) (profileUpdate : Profile L) :
    Except PyError (PolicyScheduler L) :=
  match s.serviceDict.get? profileUpdate.identity with
  | none => .error (.keyError (some profileUpdate.identity))
  | some service =>
    let service := service.update r.update profileUpdate
    let s := { s with serviceDict := s.serviceDict.set profileUpdate.identity service }
    if service.hasRunOutOfSkippedProfiles then do
      let s ← s.handleProfileMessageAtProfiling r profileUpdate
      let numServers := s.nonrobotMachines.length
      if s.activeProfilingResult.keys.length = numServers ∨ r.ready - s.t0 > 1 / 20 then
        .ok { s with isParallelProfilingReady := true }
      else .ok s
    else .ok s

def profileTopicCallback (s : PolicyScheduler L) (r : Surroundings) (profileUpdate : Profile L) :
    Except PyError (PolicyScheduler L) :=
  if s.isDoingParallelProfiling then s.profileAtParallel r profileUpdate
  else
    match s.serviceMachine.bind s.serviceDict.get? with
    | none => .error (.keyError s.serviceMachine)
    | some service =>
      if some profileUpdate.identity ≠ s.serviceMachine then
        if service.checkTimeout r.check then s.handleTimeout r else .ok s
      else
        let service := service.update r.update profileUpdate
        let s := { s with serviceDict := s.serviceDict.set profileUpdate.identity service }
        if service.checkTimeout r.check then s.handleTimeout r
        else if s.isDoingProfiling then
          if service.hasRunOutOfSkippedProfiles then
            s.handleProfileMessageAtProfiling r profileUpdate
          else .ok s
        else s.handleProfileMessageAtRunning r profileUpdate

def doProfiling (s : PolicyScheduler L) (r : Surroundings) : Except PyError (PolicyScheduler L) :=
  if s.isDoingProfiling || s.isDoingParallelProfiling then .ok s
  else
    switchToNextUnprofiledMachine
      { s with
        isDoingProfiling := true
        activeProfilingResult := .empty
        activeProfilingDisconnectedList := [] } r

def doParallelProfiling (s : PolicyScheduler L) (r : Surroundings) : PolicyScheduler L :=
  if s.isDoingProfiling || s.isDoingParallelProfiling then s
  else
    { switchToAll { s with
        currentActiveServiceMachine := s.serviceMachine
        isDoingParallelProfiling := true
        isParallelProfilingReady := false
        activeProfilingResult := .empty } with
      t0 := r.start }

/-- `sgc_parallel_profiling_best_callback`, with the machine it responds. -/
def parallelProfilingBest (s : PolicyScheduler L) :
    Except PyError (PolicyScheduler L × Option String) :=
  if s.isParallelProfilingReady && s.isDoingParallelProfiling then
    let s := { s with isDoingParallelProfiling := false }
    let machine := (s.getAMachineWithBetterProfile []).or s.currentActiveServiceMachine
    (s.switchOffAllButOne machine).map fun s => (s, machine)
  else .ok (s, some "")

/-- `get_machine_with_better_profile_callback`, with the machine it responds. -/
def machineWithBetterProfile (s : PolicyScheduler L) (r : Surroundings) :
    Except PyError (PolicyScheduler L × Option String) := do
  let s ← s.switchToMachine r (s.getAMachineWithBetterProfile [])
  match s.getAMachineWithBetterProfile [] with
  | some machine => .ok (s, some machine)
  | none => .error .assertionError

/-- One callback of the node, with the machine its response names; a response that
dumps the scheduler's state names none. -/
def callback (s : PolicyScheduler L) (r : Surroundings) :
    SchedulerCallback L → Except PyError (PolicyScheduler L × Option String)
  | .profileTopic profileUpdate => (s.profileTopicCallback r profileUpdate).map (·, none)
  | .profilingOptimizer =>
    if s.isDoingProfiling then .ok (s, none) else (s.doProfiling r).map (·, none)
  | .parallelProfiling =>
    if s.isDoingParallelProfiling then .ok (s, none) else .ok (s.doParallelProfiling r, none)
  | .parallelProfilingBest => s.parallelProfilingBest
  | .machineWithBetterProfile => s.machineWithBetterProfile r
  | .lsActiveProfile => .ok (s, none)

def run (s : PolicyScheduler L) :
    List (Surroundings × SchedulerCallback L) → Except PyError (PolicyScheduler L)
  | [] => .ok s
  | (r, c) :: callbacks =>
    match s.callback r c with
    | .error e => .error e
    | .ok (s, _) => s.run callbacks

/-- The scheduler after `__init__`. -/
def initial (assignment : PyDict String MachineState) (timeBound : TimeBound L)
    (automaticSwitching : Bool) (now : ℚ) : PolicyScheduler L where
  automaticSwitching := automaticSwitching
  timeBound := timeBound
  assignmentDict := assignment
  serviceDict := assignment.map fun _ => { lastSwitchedTime := now }
  currentActiveServiceMachine := (assignment.keysWith (· = .service)).head?

end PolicyScheduler

end RtFogros
