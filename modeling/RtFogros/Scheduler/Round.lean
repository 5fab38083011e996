import RtFogros.Scheduler.Invariant
import Mathlib.Data.List.MinMax

/-!
# A round of sequential profiling

While a round lasts the service machine is still to be profiled.  An event of it that is handled
takes the service machine from the machines to be profiled and puts another of them in service;
with the last one the round ends and a machine is selected.

`Steady` is the scheduler outside parallel profiling, with one robot and one machine in service,
and `Round` says of a round under way that no machine has both a result and an entry in the list of
disconnected machines, so that the two count the machines that are done.  `Best` says what the
selection has to return, as a bound over all candidates and not by the sort that finds it.
-/

namespace RtFogros

namespace PolicyScheduler

variable {L : Type}

/-! ## Machines still to be profiled -/

/-- Outside parallel profiling: `robot` alone is the robot and `machine` alone in state
service, and only machines other than the robot have a result. -/
structure Steady (robot machine : String) (s : PolicyScheduler L) : Prop where
  robot : Only .robot s.assignmentDict robot
  service : Only .service s.assignmentDict machine
  services : s.serviceDict.keys = s.assignmentDict.keys
  results : ∀ x ∈ s.activeProfilingResult.keys, x ∈ s.nonrobotMachines
  sequential : s.isDoingParallelProfiling = false

/-- A round of profiling: no machine has both a result and an entry in the list of
disconnected machines. -/
structure Round (robot machine : String) (s : PolicyScheduler L) : Prop
    extends Steady robot machine s where
  doing : s.isDoingProfiling = true
  disconnected : ∀ x ∈ s.activeProfilingDisconnectedList, x ∈ s.nonrobotMachines
  disjoint : ∀ x ∈ s.activeProfilingResult.keys, x ∉ s.activeProfilingDisconnectedList

structure Profiling (robot machine : String) (s : PolicyScheduler L) : Prop
    extends Round robot machine s where
  current : machine ∈ s.machinesNotProfiled

variable {robot machine : String} {s s' : PolicyScheduler L} {r : Surroundings}

theorem mem_nonrobotMachines (hrobot : Only .robot s.assignmentDict robot) {x : String} :
    x ∈ s.nonrobotMachines ↔ x ∈ s.assignmentDict.keys ∧ x ≠ robot := by
  unfold nonrobotMachines
  rw [PyDict.mem_keysWith, PyDict.mem_keys]
  constructor
  · rintro ⟨state, hstate, hne⟩
    refine ⟨⟨state, hstate⟩, ?_⟩
    rintro rfl
    rw [(hrobot x).2 rfl] at hstate
    cases hstate
    exact absurd rfl (of_decide_eq_true hne)
  · rintro ⟨⟨state, hstate⟩, hne⟩
    refine ⟨state, hstate, decide_eq_true ?_⟩
    rintro rfl
    exact hne ((hrobot x).1 hstate)

theorem machinesNotProfiled_eq (hrobot : Only .robot s.assignmentDict robot) :
    s.machinesNotProfiled = s.assignmentDict.keys.filter fun x =>
      x ∉ s.activeProfilingResult.keys ++ [robot] ++ s.activeProfilingDisconnectedList := by
  unfold machinesNotProfiled robotMachine
  rw [only_iff.1 hrobot]
  rfl

theorem mem_machinesNotProfiled (hrobot : Only .robot s.assignmentDict robot) {x : String} :
    x ∈ s.machinesNotProfiled ↔ x ∈ s.nonrobotMachines ∧ x ∉ s.activeProfilingResult.keys ∧
      x ∉ s.activeProfilingDisconnectedList := by
  rw [machinesNotProfiled_eq hrobot, mem_nonrobotMachines hrobot, List.mem_filter]
  simp only [decide_eq_true_eq, List.mem_append, List.mem_singleton, not_or]
  tauto

theorem nodup_machinesNotProfiled (s : PolicyScheduler L) : s.machinesNotProfiled.Nodup :=
  s.assignmentDict.nodup_keys.filter _

/-- Settling the service machine, by a result or an entry in the list, takes it from the
machines to be profiled. -/
theorem machinesNotProfiled_settled {t : PolicyScheduler L}
    (hrobot : Only .robot s.assignmentDict robot) (hsame : t.assignmentDict = s.assignmentDict)
    (hsettled : ∀ x,
      x ∈ t.activeProfilingResult.keys ∨ x ∈ t.activeProfilingDisconnectedList ↔
        x = machine ∨ x ∈ s.activeProfilingResult.keys ∨ x ∈ s.activeProfilingDisconnectedList) :
    t.machinesNotProfiled = s.machinesNotProfiled.erase machine := by
  have hrobot' : Only .robot t.assignmentDict robot := hsame ▸ hrobot
  rw [(nodup_machinesNotProfiled s).erase_eq_filter, machinesNotProfiled_eq hrobot,
    machinesNotProfiled_eq hrobot', hsame, List.filter_filter]
  apply List.filter_congr
  intro x _
  have hx := hsettled x
  rw [Bool.eq_iff_iff]
  simp only [List.mem_append, List.mem_singleton, Bool.and_eq_true, bne_iff_ne, decide_eq_true_eq]
  tauto

/-! ## Switching -/

theorem resetService_of_mem {name : String} (hname : name ∈ s.serviceDict.keys) (now : ℚ) :
    ∃ serviceDict, serviceDict.keys = s.serviceDict.keys ∧
      s.resetService (some name) now = .ok { s with serviceDict } := by
  obtain ⟨service, hservice⟩ := PyDict.mem_keys.1 hname
  refine ⟨_, PyDict.keys_set_of_mem hname (service.reset now), ?_⟩
  rw [resetService, hservice]

theorem Only.robot_pass {assignment : PyDict String MachineState} {previous new : String}
    (h : Only .robot assignment robot) (hprevious : previous ≠ robot) (hnew : new ≠ robot) :
    Only .robot ((assignment.set previous .standby).set new .service) robot := by
  intro x
  by_cases hx : x = new
  · subst hx
    simp [hnew]
  · rw [PyDict.get?_set_of_ne _ hx]
    by_cases hx : x = previous
    · subst hx
      simp [hprevious]
    · rw [PyDict.get?_set_of_ne _ hx]
      exact h x

theorem Steady.machine_nonrobot (hs : Steady robot machine s) : machine ∈ s.nonrobotMachines := by
  have hservice := (hs.service machine).2 rfl
  refine (mem_nonrobotMachines hs.robot).2 ⟨PyDict.mem_keys_of_get? hservice, ?_⟩
  rintro rfl
  rw [(hs.robot machine).2 rfl] at hservice
  cases hservice

/-- Switching to a machine other than the robot does not raise and puts it in service. -/
theorem Steady.switch (hs : Steady robot machine s) {new : String}
    (hnew : new ∈ s.nonrobotMachines) (r : Surroundings) :
    ∃ assignmentDict serviceDict requests,
      s.switchToMachine r (some new) = .ok { s with assignmentDict, serviceDict, requests } ∧
      assignmentDict.keys = s.assignmentDict.keys ∧
      Steady robot new { s with assignmentDict, serviceDict, requests } := by
  have hservice := serviceMachine_of_only hs.service
  by_cases heq : new = machine
  · subst heq
    refine ⟨s.assignmentDict, s.serviceDict, s.requests, ?_, rfl, hs⟩
    unfold switchToMachine
    rw [if_pos hservice.symm]
  obtain ⟨hnewKey, hnewRobot⟩ := (mem_nonrobotMachines hs.robot).1 hnew
  obtain ⟨hmachineKey, hmachineRobot⟩ := (mem_nonrobotMachines hs.robot).1 hs.machine_nonrobot
  obtain ⟨services₁, hkeys₁, hreset₁⟩ :=
    resetService_of_mem (hs.services ▸ hnewKey : new ∈ s.serviceDict.keys) r.resetNew
  obtain ⟨services₂, hkeys₂, hreset₂⟩ := resetService_of_mem
    (s := { s with serviceDict := services₁ })
    (by rw [hkeys₁, hs.services]; exact hmachineKey : machine ∈ services₁.keys) r.resetPrevious
  have hstandby := PyDict.keys_set_of_mem hmachineKey MachineState.standby
  have hkeys : ((s.assignmentDict.set machine .standby).set new .service).keys =
      s.assignmentDict.keys :=
    (PyDict.keys_set_of_mem (hstandby ▸ hnewKey) MachineState.service).trans hstandby
  have hrobot := hs.robot.robot_pass hmachineRobot hnewRobot
  refine ⟨_, services₂, s.requests ++ [⟨machine, .standby⟩] ++ [⟨new, .service⟩], ?_, hkeys,
    hrobot, hs.service.pass heq, ?_, fun x hx => ?_, hs.sequential⟩
  · unfold switchToMachine
    rw [if_neg fun h => heq (Option.some.inj (h.trans hservice)), hreset₁,
      hservice]
    change (PolicyScheduler.resetService _ _ _ >>= _) = _
    rw [hreset₂]
    rfl
  · exact (hkeys₂.trans (hkeys₁.trans hs.services)).trans hkeys.symm
  · have hx' := hs.results x hx
    rw [mem_nonrobotMachines hs.robot] at hx'
    rw [mem_nonrobotMachines hrobot]
    exact ⟨hkeys ▸ hx'.1, hx'.2⟩

theorem Steady.exists_service (hs : Steady robot machine s) :
    ∃ service, s.serviceDict.get? machine = some service := by
  rw [← PyDict.mem_keys, hs.services]
  exact ((mem_nonrobotMachines hs.robot).1 hs.machine_nonrobot).1

theorem Steady.of_services (hs : Steady robot machine s)
    {serviceDict : PyDict String (SgcService L)} (hkeys : serviceDict.keys = s.serviceDict.keys) :
    Steady robot machine { s with serviceDict } :=
  ⟨hs.robot, hs.service, hkeys.trans hs.services, hs.results, hs.sequential⟩

variable [LinearOrder L] [Neg L] [One L]

/-! ## Selection -/

/-- The machines to select from: those within the bound, or else the connected ones. -/
def candidates (s : PolicyScheduler L) : List (String × Profile L) :=
  let passed := s.activeProfilingResult.entries.filter fun entry => s.checkLatencyBound entry.2
  if passed.isEmpty then s.activeProfilingResult.entries.filter fun entry => entry.2.connected
  else passed

/-- `machine` is a candidate, and no candidate has a smaller maximal latency. -/
def Best (s : PolicyScheduler L) (machine : String) : Prop :=
  ∃ entry ∈ s.candidates, entry.1 = machine ∧
    ∀ other ∈ s.candidates, entry.2.maxLatency ≤ other.2.maxLatency

instance (s : PolicyScheduler L) (machine : String) : Decidable (s.Best machine) :=
  inferInstanceAs (Decidable (∃ entry ∈ s.candidates, entry.1 = machine ∧
    ∀ other ∈ s.candidates, entry.2.maxLatency ≤ other.2.maxLatency))

theorem connected_of_checkLatencyBound {profile : Profile L} (h : s.checkLatencyBound profile) :
    profile.connected := by
  unfold checkLatencyBound at h
  split at h
  · cases h
  · rename_i hmedian
    exact decide_eq_true hmedian

theorem candidates_ne_nil :
    s.candidates ≠ [] ↔ ∃ entry ∈ s.activeProfilingResult.entries, entry.2.connected := by
  rw [candidates]
  split
  · rw [ne_eq, List.filter_eq_nil_iff]
    push Not
    rfl
  · rename_i hpassed
    rw [List.isEmpty_iff, ← ne_eq] at hpassed
    refine ⟨fun _ => ?_, fun _ => hpassed⟩
    obtain ⟨entry, hentry⟩ := List.exists_mem_of_ne_nil _ hpassed
    obtain ⟨hmem, hbound⟩ := List.mem_filter.1 hentry
    exact ⟨entry, hmem, connected_of_checkLatencyBound hbound⟩

theorem better_eq :
    s.getAMachineWithBetterProfile [] = (sortedByMaxLatency s.candidates).head?.map Prod.fst := by
  have hall : (s.activeProfilingResult.entries.filter fun entry => entry.1 ∉ ([] : List String)) =
      s.activeProfilingResult.entries :=
    List.filter_eq_self.2 fun entry _ => decide_eq_true List.not_mem_nil
  unfold getAMachineWithBetterProfile candidates
  rw [hall]
  simp only [List.length_eq_zero_iff, List.isEmpty_iff]
  split
  · split
    · rename_i hconnected
      rw [hconnected]
      rfl
    · rfl
  · rfl

omit [Neg L] [One L] in
/-- The sort is stable, so what comes first is the first of the least. -/
theorem head?_sortedByMaxLatency (machines : List (String × Profile L)) :
    (sortedByMaxLatency machines).head? = machines.argmin fun entry => entry.2.maxLatency := by
  induction machines with
  | nil => rfl
  | cons first machines ih =>
    have hcons : sortedByMaxLatency (first :: machines) =
        (sortedByMaxLatency machines).orderedInsert
          (fun a b => a.2.maxLatency ≤ b.2.maxLatency) first := rfl
    rw [List.argmin_cons, ← ih, hcons]
    rcases sortedByMaxLatency machines with _ | ⟨least, rest⟩
    · rfl
    · rw [List.orderedInsert_cons]
      by_cases hle : first.2.maxLatency ≤ least.2.maxLatency
      · rw [if_pos hle]
        exact (if_neg (not_lt.2 hle)).symm
      · rw [if_neg hle]
        exact (if_pos (not_le.1 hle)).symm

theorem best_of_better {machine : String}
    (h : s.getAMachineWithBetterProfile [] = some machine) : s.Best machine := by
  rw [better_eq, head?_sortedByMaxLatency] at h
  obtain ⟨entry, hleast, rfl⟩ := Option.map_eq_some_iff.1 h
  refine ⟨entry, List.argmin_mem hleast, rfl, fun other hother => ?_⟩
  exact List.le_of_mem_argmin (f := fun entry : String × Profile L => entry.2.maxLatency)
    hother hleast

theorem better_isSome :
    (s.getAMachineWithBetterProfile []).isSome ↔
      ∃ entry ∈ s.activeProfilingResult.entries, entry.2.connected := by
  have hperm : (sortedByMaxLatency s.candidates).Perm s.candidates :=
    List.perm_insertionSort _ _
  rw [← candidates_ne_nil, better_eq, Option.isSome_map, List.isSome_head?, ne_eq, ne_eq,
    ← List.length_eq_zero_iff, hperm.length_eq, List.length_eq_zero_iff]

theorem Steady.better_nonrobot (hs : Steady robot machine s) {excludeList : List String}
    {better : String} (h : s.getAMachineWithBetterProfile excludeList = some better) :
    better ∈ s.nonrobotMachines :=
  hs.results better (mem_results_of_better h)

/-! ## The next machine -/

/-- While machines are left the round goes on with one of them in service. -/
theorem Round.next (hs : Round robot machine s) (hleft : s.machinesNotProfiled ≠ [])
    (r : Surroundings) :
    ∃ s' machine', s.switchToNextUnprofiledMachine r = .ok s' ∧ Profiling robot machine' s' ∧
      s'.machinesNotProfiled = s.machinesNotProfiled := by
  have hservice := serviceMachine_of_only hs.service
  have hswitch : ∀ new ∈ s.machinesNotProfiled, ∃ s', s.switchToMachine r (some new) = .ok s' ∧
      Profiling robot new s' ∧ s'.machinesNotProfiled = s.machinesNotProfiled := by
    intro new hnew
    obtain ⟨assignmentDict, serviceDict, requests, hok, hkeys, hsteady⟩ :=
      hs.switch ((mem_machinesNotProfiled hs.robot).1 hnew).1 r
    set t : PolicyScheduler L := { s with assignmentDict, serviceDict, requests }
    have hsame : t.machinesNotProfiled = s.machinesNotProfiled := by
      rw [machinesNotProfiled_eq hsteady.robot, machinesNotProfiled_eq hs.robot, hkeys]
    refine ⟨t, hok, ⟨⟨hsteady, hs.doing, fun x hx => ?_, hs.disjoint⟩, hsame ▸ hnew⟩, hsame⟩
    rw [mem_nonrobotMachines hsteady.robot, hkeys, ← mem_nonrobotMachines hs.robot]
    exact hs.disconnected x hx
  unfold switchToNextUnprofiledMachine
  dsimp only
  rw [if_neg (List.length_eq_zero_iff.not.2 hleft)]
  split
  · rename_i hothers
    -- the service machine alone is left
    have hcurrent : machine ∈ s.machinesNotProfiled := by
      obtain ⟨x, hx⟩ := List.exists_mem_of_ne_nil _ hleft
      have hx' := List.filter_eq_nil_iff.1 (List.length_eq_zero_iff.1 hothers) x hx
      rw [hservice] at hx'
      obtain rfl : x = machine := by simpa using hx'
      exact hx
    rw [hservice]
    obtain ⟨s', h⟩ := hswitch machine hcurrent
    exact ⟨s', machine, h⟩
  · rename_i hothers
    have hdraw := Nat.mod_lt r.choice (Nat.pos_of_ne_zero hothers)
    rw [List.getElem?_eq_getElem hdraw]
    have hmem := List.mem_of_mem_filter (List.getElem_mem hdraw)
    obtain ⟨s', h⟩ := hswitch _ hmem
    exact ⟨s', _, h⟩

/-- The machine in service after a round that ends with `machine` in service: the name
selected is dropped when it is empty. -/
def leftInService (s : PolicyScheduler L) (machine : String) : String :=
  match s.getAMachineWithBetterProfile [] with
  | some better => if better ≠ "" then better else machine
  | none => machine

/-- With no machine left the round ends. -/
theorem Round.finish (hs : Round robot machine s) (hdone : s.machinesNotProfiled = [])
    (r : Surroundings) :
    ∃ assignmentDict serviceDict requests,
      s.switchToNextUnprofiledMachine r =
        .ok { s with isDoingProfiling := false, assignmentDict, serviceDict, requests } ∧
      assignmentDict.keys = s.assignmentDict.keys ∧
      Steady robot (s.leftInService machine)
        { s with isDoingProfiling := false, assignmentDict, serviceDict, requests } := by
  have hidle : Steady robot machine { s with isDoingProfiling := false } :=
    ⟨hs.robot, hs.service, hs.services, hs.results, hs.sequential⟩
  have hsame : ({ s with isDoingProfiling := false } : PolicyScheduler L
      ).getAMachineWithBetterProfile [] = s.getAMachineWithBetterProfile [] := rfl
  unfold switchToNextUnprofiledMachine
  dsimp only
  rw [if_pos (List.length_eq_zero_iff.2 hdone), hsame, leftInService]
  rcases hbetter : s.getAMachineWithBetterProfile [] with _ | better
  · exact ⟨_, _, _, rfl, rfl, hidle⟩
  · dsimp only
    by_cases hname : better ≠ ""
    · rw [if_pos hname, if_pos hname]
      exact hidle.switch (hidle.better_nonrobot (hsame.trans hbetter)) r
    · rw [if_neg hname, if_neg hname]
      exact ⟨_, _, _, rfl, rfl, hidle⟩

end PolicyScheduler

end RtFogros
