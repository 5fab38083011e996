import RtFogros.Swarm.Frame
import Mathlib.Data.List.Perm.Subperm

/-!
# Which states a machine can go to

A change of state looks every name up before it asks for it, iterates over the topics of the
state it leaves, which may have none, needs the topology for all that is not paused, and waits
for the router's response to each request.  A call of `apply_assignment` raises exactly if one
of these fails.

`CanSwitch` and `switchRequests` say what a change looks up and how many requests it makes, both
of the state before it.  Each loop is gone through once with one lemma for what it needs and one
for what it asks: `Adds` has these for a round, `Asks` adds up the requests.
`assignments_taken_iff` then says it of every sequence of calls.
-/

namespace RtFogros.Swarm

open RtFogros

variable {hexdigest : Bytes → String} {s s' : SgcSwarm} {state : String}
  {pair : String × String}

/-- Every declared name has a quality of service. -/
structure HasQos (s : SgcSwarm) : Prop where
  topics : ∀ name ∈ s.topicDict.keys, name ∈ s.topicQosDict.keys
  services : ∀ name ∈ s.serviceDict.keys, name ∈ s.serviceQosDict.keys

theorem SameConfig.hasQos (h : SameConfig s s') (hqos : HasQos s) : HasQos s' := by
  constructor
  · rw [h.topicDict, h.topicQosDict]
    exact hqos.topics
  · rw [h.serviceDict, h.serviceQosDict]
    exact hqos.services

theorem getItem_ok {α : Type} {d : PyDict String α} {key : String} {value : α}
    (h : getItem d key s = .ok value s') : d.get? key = some value ∧ s' = s := by
  unfold getItem at h
  cases hget : d.get? key with
  | none =>
    rw [hget] at h
    cases h
  | some found =>
    rw [hget] at h
    cases h
    exact ⟨rfl, rfl⟩

/-! ## One name -/

theorem revokeTopic_undeclared (h : pair.1 ∉ s.topicDict.keys) :
    revokeTopic pair s = .error (.keyError pair.1) s := by
  simp [revokeTopic, getItem_apply_of_none s (PyDict.get?_eq_none_iff.2 h)]

theorem addTopic_undeclared (h : pair.1 ∉ s.topicDict.keys) :
    addTopic hexdigest pair s = .error (.keyError pair.1) s := by
  simp [addTopic, getItem_apply_of_none s (PyDict.get?_eq_none_iff.2 h)]

/-- Without a topology a new name raises after it was asked for. -/
theorem not_completes_homeless {x : Py Unit} {f : Topology → Py Unit}
    (hconfig : EStateM.Respects SameConfig x) (htopology : s.config.topology = none) :
    ¬ Completes (x >>= fun _ => topology >>= f) s := by
  intro h
  obtain ⟨_, s', hrun, hrest⟩ := completes_bind.1 h
  have hnone : s'.config.topology = none := by rw [(hconfig.of_ok hrun).config, htopology]
  have hraises : topology s' = .error (.keyError "topology") s' := by simp [topology, hnone]
  exact not_completes_bind hraises hrest

theorem addTopic_homeless (hpaused : pair.1 ∉ s.pausedTopics)
    (htopology : s.config.topology = none) : ¬ Completes (addTopic hexdigest pair) s := by
  intro h
  unfold addTopic at h
  rw [completes_bind_of_ok (get_apply s)] at h
  obtain ⟨type, s', htype, hrest⟩ := completes_bind.1 h
  obtain ⟨-, rfl⟩ := getItem_ok htype
  rw [if_neg hpaused] at hrest
  exact not_completes_homeless (respects_post requesting_sameConfig ..) htopology hrest

variable (hexdigest) in
/-- A service that is paused is resumed; nothing pauses one. -/
theorem addService_paused (h : pair.1 ∈ s.serviceDict.keys) (hpaused : pair.1 ∈ s.pausedServices) :
    Asks (addService hexdigest pair) s 1 ()
      { s.sent [⟨"http://" ++ s.sgcAddress ++ "/service", rosTopic "resume" pair.2 pair.1
          ((s.serviceDict.get? pair.1).getD "")⟩] with
        pausedServices := s.pausedServices.erase pair.1 } := by
  obtain ⟨type, htype⟩ := PyDict.mem_keys.1 h
  unfold addService
  refine .of_ok_bind (get_apply s) (.of_ok_bind (getItem_apply s htype) ?_)
  rw [if_pos hpaused, htype]
  exact asks_post.bind_modify rfl rfl

theorem addService_undeclared (h : pair.1 ∉ s.serviceDict.keys) :
    addService hexdigest pair s = .error (.keyError pair.1) s := by
  simp [addService, getItem_apply_of_none s (PyDict.get?_eq_none_iff.2 h)]

theorem addService_homeless (hpaused : pair.1 ∉ s.pausedServices)
    (htopology : s.config.topology = none) : ¬ Completes (addService hexdigest pair) s := by
  intro h
  unfold addService at h
  rw [completes_bind_of_ok (get_apply s)] at h
  obtain ⟨type, s', htype, hrest⟩ := completes_bind.1 h
  obtain ⟨-, rfl⟩ := getItem_ok htype
  rw [if_neg hpaused] at hrest
  exact not_completes_homeless (respects_post requesting_sameConfig ..) htopology hrest

/-! ## The loops -/

theorem SameConfig.ends (h : SameConfig s s') : s'.ends = s.ends := by
  unfold SgcSwarm.ends
  rw [h.config, h.instanceIdentifier]

/-- What a round of the loop over topics or services needs, asks and does: the name is declared,
and it is paused and then no longer, or there is a topology; of a name that is not paused it asks
for the tree as well, `perEnd` times for each end of an edge. -/
structure Adds (add : String × String → Py Unit) (perEnd : Nat)
    (declared paused other : SgcSwarm → List String) : Prop where
  needs : ∀ {s pair}, Completes (add pair) s →
    pair.1 ∈ declared s ∧ (s.config.topology.isSome ∨ pair.1 ∈ paused s)
  asks : ∀ {s pair}, HasQos s → pair.1 ∈ declared s →
    (s.config.topology.isSome ∨ pair.1 ∈ paused s) →
    ∃ s', Asks (add pair) s (if pair.1 ∈ paused s then 1 else 1 + perEnd * s.ends) () s' ∧
      SameConfig s s' ∧ paused s' = (paused s).erase pair.1 ∧ other s' = other s
  declared_eq : ∀ {s s'}, SameConfig s s' → declared s' = declared s

theorem Adds.of_runs {add : String × String → Py Unit} {perEnd : Nat}
    {declared paused other : SgcSwarm → List String}
    (hundeclared : ∀ s pair, pair.1 ∉ declared s → ¬ Completes (add pair) s)
    (hhomeless : ∀ s pair, pair.1 ∉ paused s → s.config.topology = none →
      ¬ Completes (add pair) s)
    (hpaused : ∀ s pair, pair.1 ∈ declared s → pair.1 ∈ paused s →
      ∃ s', Asks (add pair) s 1 () s' ∧
      SameConfig s s' ∧ paused s' = (paused s).erase pair.1 ∧ other s' = other s)
    (hnew : ∀ s pair, HasQos s → pair.1 ∈ declared s → pair.1 ∉ paused s →
      s.config.topology.isSome → ∃ s', Asks (add pair) s (1 + perEnd * s.ends) () s' ∧
      SameConfig s s' ∧ paused s' = paused s ∧ other s' = other s)
    (hsame : ∀ s s', SameConfig s s' → declared s' = declared s) :
    Adds add perEnd declared paused other where
  needs {s pair} h := by
    constructor
    · by_contra hnot
      exact hundeclared s pair hnot h
    · by_contra hneither
      obtain ⟨htopology, hnot⟩ := not_or.1 hneither
      exact hhomeless s pair hnot (by simpa using htopology) h
  asks {s pair} hqos hdeclared hplaced := by
    by_cases hmem : pair.1 ∈ paused s
    · rw [if_pos hmem]
      exact hpaused s pair hdeclared hmem
    · rw [if_neg hmem, List.erase_of_not_mem hmem]
      exact hnew s pair hqos hdeclared hmem (hplaced.resolve_right hmem)
  declared_eq h := hsame _ _ h

variable (hexdigest) in
theorem adds_addTopic :
    Adds (addTopic hexdigest) 1 (fun s => s.topicDict.keys) SgcSwarm.pausedTopics
      SgcSwarm.pausedServices := by
  refine .of_runs (fun s pair h => not_completes_of_error (addTopic_undeclared h))
    (fun s pair => addTopic_homeless) ?_ ?_ ?_
  · intro s pair hdeclared hpaused
    obtain ⟨posts, hlength, -, hasks⟩ := addTopic_paused hexdigest hdeclared hpaused
    exact ⟨_, hlength ▸ hasks, .requested .., rfl, rfl⟩
  · intro s pair hqos hdeclared hpaused htopology
    obtain ⟨posts, hlength, -, hasks⟩ :=
      addTopic_new hexdigest hdeclared (hqos.topics _ hdeclared) hpaused htopology
    rw [Nat.one_mul, ← hlength]
    exact ⟨_, hasks, .requested .., rfl, rfl⟩
  · intro s s' hsame
    rw [hsame.topicDict]

variable (hexdigest) in
theorem adds_addService :
    Adds (addService hexdigest) 2 (fun s => s.serviceDict.keys) SgcSwarm.pausedServices
      SgcSwarm.pausedTopics := by
  refine .of_runs (fun s pair h => not_completes_of_error (addService_undeclared h))
    (fun s pair => addService_homeless) ?_ ?_ ?_
  · intro s pair hdeclared hpaused
    exact ⟨_, addService_paused hexdigest hdeclared hpaused,
      ⟨rfl, rfl, rfl, rfl, rfl, rfl, rfl, rfl, rfl⟩, rfl, rfl⟩
  · intro s pair hqos hdeclared hpaused htopology
    obtain ⟨posts, hlength, -, hasks⟩ := addService_new hexdigest hdeclared
      (hqos.services _ hdeclared) hpaused htopology
    rw [← hlength]
    exact ⟨_, hasks, .requested .., rfl, rfl⟩
  · intro s s' hsame
    rw [hsame.serviceDict]

/-- One element less on either side. -/
theorem cons_subperm_iff {α : Type*} [DecidableEq α] {a : α} {l p : List α} :
    (a :: l).Subperm p ↔ a ∈ p ∧ l.Subperm (p.erase a) := by
  constructor
  · intro h
    have ha : a ∈ p := h.subset List.mem_cons_self
    have herase := h.erase a
    rw [List.erase_cons_head] at herase
    exact ⟨ha, herase⟩
  · rintro ⟨ha, h⟩
    exact ((List.subperm_cons a).2 h).trans (List.perm_cons_erase ha).symm.subperm

/-- The names are declared, and with no topology they are paused, each as often as it is
listed. -/
structure CanAdd (topology : Option Topology) (declared paused : List String) (pairs : Actions) :
    Prop where
  declared : ∀ pair ∈ pairs, pair.1 ∈ declared
  placed : topology.isSome ∨ (pairs.map Prod.fst).Subperm paused

theorem canAdd_cons {topology : Option Topology} {declared paused : List String}
    {pairs : Actions} :
    CanAdd topology declared paused (pair :: pairs) ↔
      (pair.1 ∈ declared ∧ (topology.isSome ∨ pair.1 ∈ paused)) ∧
        CanAdd topology declared (paused.erase pair.1) pairs := by
  constructor
  · rintro ⟨hdeclared, hplaced⟩
    obtain ⟨hpair, hrest⟩ := List.forall_mem_cons.1 hdeclared
    rw [List.map_cons, cons_subperm_iff] at hplaced
    exact ⟨⟨hpair, hplaced.imp_right And.left⟩, hrest, hplaced.imp_right And.right⟩
  · rintro ⟨⟨hpair, hplaced⟩, hrest, hplaced'⟩
    refine ⟨List.forall_mem_cons.2 ⟨hpair, hrest⟩, ?_⟩
    rw [List.map_cons, cons_subperm_iff]
    rcases hplaced with htopology | hpaused
    · exact .inl htopology
    · exact hplaced'.imp_right (And.intro hpaused)

/-- The requests of the loop over a list of topics or services: one for each name, and
`perTree` more for one that is not paused. -/
def addRequests (perTree : Nat) (paused : List String) : Actions → Nat
  | [] => 0
  | pair :: pairs =>
    (if pair.1 ∈ paused then 1 else 1 + perTree) +
      addRequests perTree (paused.erase pair.1) pairs

section Loops

variable {add : String × String → Py Unit} {perEnd : Nat}
  {declared paused other : SgcSwarm → List String}

theorem forM_cons (f : String × String → Py Unit) (pair : String × String) (pairs : Actions) :
    (pair :: pairs).forM f = (f pair >>= fun _ => pairs.forM f) := rfl

theorem Adds.needs_all (hadds : Adds add perEnd declared paused other) (hqos : HasQos s)
    {pairs : Actions} (h : Completes (pairs.forM add) s) :
    CanAdd s.config.topology (declared s) (paused s) pairs := by
  induction pairs generalizing s with
  | nil => exact ⟨List.forall_mem_nil _, .inr List.nil_subperm⟩
  | cons pair pairs ih =>
    rw [forM_cons] at h
    obtain ⟨a, s₁, hrun, hrest⟩ := completes_bind.1 h
    have hround := hadds.needs ⟨a, s₁, hrun⟩
    -- the round that completed left what it leaves
    obtain ⟨s₂, hasks, hsame, hpaused, -⟩ := hadds.asks hqos hround.1 hround.2
    cases hrun.symm.trans (hasks.eq_of_completes ⟨a, s₁, hrun⟩)
    have hcan := ih (hsame.hasQos hqos) hrest
    rw [hsame.config, hadds.declared_eq hsame, hpaused] at hcan
    exact canAdd_cons.2 ⟨hround, hcan⟩

theorem Adds.asks_all (hadds : Adds add perEnd declared paused other) (hqos : HasQos s)
    {pairs : Actions} (hcan : CanAdd s.config.topology (declared s) (paused s) pairs) :
    ∃ s', Asks (pairs.forM add) s (addRequests (perEnd * s.ends) (paused s) pairs) () s' ∧
      SameConfig s s' ∧ other s' = other s := by
  induction pairs generalizing s with
  | nil => exact ⟨s, .of_ok rfl, .refl s, rfl⟩
  | cons pair pairs ih =>
    obtain ⟨⟨hdeclared, hplaced⟩, hrest⟩ := canAdd_cons.1 hcan
    obtain ⟨s₁, hasks, hsame, hpaused, hother⟩ := hadds.asks hqos hdeclared hplaced
    rw [← hsame.config, ← hadds.declared_eq hsame, ← hpaused] at hrest
    obtain ⟨s', hasks', hsame', hother'⟩ := ih (hsame.hasQos hqos) hrest
    rw [hsame.ends, hpaused] at hasks'
    rw [forM_cons]
    exact ⟨s', hasks.bind hasks', hsame.trans hsame', hother'.trans hother⟩

end Loops

theorem revokeAll_needs {pairs : Actions} (h : Completes (pairs.forM revokeTopic) s) :
    ∀ pair ∈ pairs, pair.1 ∈ s.topicDict.keys := by
  induction pairs generalizing s with
  | nil => exact List.forall_mem_nil _
  | cons pair pairs ih =>
    rw [forM_cons] at h
    obtain ⟨a, s₁, hrun, hrest⟩ := completes_bind.1 h
    have hdeclared : pair.1 ∈ s.topicDict.keys := by
      by_contra hnot
      exact not_completes_of_error (revokeTopic_undeclared hnot) ⟨a, s₁, hrun⟩
    have hsame := (respects_revokeTopic requesting_sameConfig pair).of_ok hrun
    rw [List.forall_mem_cons, ← hsame.topicDict]
    exact ⟨hsame.topicDict ▸ hdeclared, ih hrest⟩

/-- Every declared topic can be revoked, with a request, and its name is paused then. -/
theorem asks_revokeAll {pairs : Actions} (h : ∀ pair ∈ pairs, pair.1 ∈ s.topicDict.keys) :
    ∃ s', Asks (pairs.forM revokeTopic) s pairs.length () s' ∧ SameConfig s s' ∧
      s'.pausedTopics = s.pausedTopics ++ pairs.map Prod.fst ∧
      s'.pausedServices = s.pausedServices := by
  induction pairs generalizing s with
  | nil => exact ⟨s, .of_ok rfl, .refl s, (List.append_nil _).symm, rfl⟩
  | cons pair pairs ih =>
    obtain ⟨hpair, hrest⟩ := List.forall_mem_cons.1 h
    obtain ⟨posts, hlength, -, hasks⟩ := revokeTopic_declared hpair
    obtain ⟨s', hasks', hsame, hpaused, hservices⟩ :=
      ih (s := s.requested posts (s.pausedTopics ++ [pair.1])) hrest
    have hboth := hasks.bind (f := fun _ => pairs.forM revokeTopic) hasks'
    rw [hlength, Nat.add_comm] at hboth
    refine ⟨s', hboth, .trans (.requested ..) hsame, ?_, hservices⟩
    rw [hpaused, List.map_cons, SgcSwarm.requested, List.append_assoc, List.singleton_append]

/-! ## A change of state -/

namespace SgcSwarm

/-- The topics that a change to the state revokes: those of the state the machine leaves, if it
is assigned another.  There may be no such list. -/
def revokedTopics (s : SgcSwarm) (state : String) : Option Actions :=
  match s.assignmentDict.get? s.instanceIdentifier with
  | none => some []
  | some previous =>
    if previous = state then some []
    else (s.stateDict.get? previous).bind SgcStateMachine.topics

/-- The state is declared, and so is every name that is to be revoked or added; what is new can
be added. -/
def CanSwitch (s : SgcSwarm) (state : String) : Prop :=
  ∃ revoked machine, s.revokedTopics state = some revoked ∧
    s.stateDict.get? state = some machine ∧ (∀ pair ∈ revoked, pair.1 ∈ s.topicDict.keys) ∧
    CanAdd s.config.topology s.topicDict.keys (s.pausedTopics ++ revoked.map Prod.fst)
      (machine.topics.getD []) ∧
    CanAdd s.config.topology s.serviceDict.keys s.pausedServices (machine.services.getD [])

/-- How many requests a change to the state makes. -/
def switchRequests (s : SgcSwarm) (state : String) : Nat :=
  match s.revokedTopics state, s.stateDict.get? state with
  | some revoked, some machine =>
    revoked.length +
      (addRequests s.ends (s.pausedTopics ++ revoked.map Prod.fst) (machine.topics.getD []) +
        addRequests (2 * s.ends) s.pausedServices (machine.services.getD []))
  | _, _ => 0

/-- Nothing that a change to the state looks up is missing, and the router responds to each of
its requests. -/
structure Switches (s : SgcSwarm) (state : String) : Prop where
  can : s.CanSwitch state
  answered : s.Answers (s.switchRequests state)

end SgcSwarm

theorem revoke_eq (s : SgcSwarm) (state : String) {revoked : Actions}
    (h : s.revokedTopics state = some revoked) :
    revoke (s.assignmentDict.get? s.instanceIdentifier) state s =
      revoked.forM revokeTopic s := by
  unfold SgcSwarm.revokedTopics at h
  unfold revoke
  cases hprevious : s.assignmentDict.get? s.instanceIdentifier with
  | none =>
    rw [hprevious] at h
    cases h
    rfl
  | some previous =>
    rw [hprevious] at h
    by_cases hsame : previous = state
    · simp only [if_pos hsame] at h ⊢
      cases h
      rfl
    · simp only [if_neg hsame] at h ⊢
      obtain ⟨machine, hmachine, htopics⟩ := Option.bind_eq_some_iff.1 h
      simp [getItem_apply s hmachine, htopics]

/-- Without such a list the method raises before it does anything. -/
theorem revoke_raises {s : SgcSwarm} {state : String} (h : s.revokedTopics state = none) :
    ∃ e, revoke (s.assignmentDict.get? s.instanceIdentifier) state s = .error e s := by
  unfold SgcSwarm.revokedTopics at h
  unfold revoke
  cases hprevious : s.assignmentDict.get? s.instanceIdentifier with
  | none =>
    rw [hprevious] at h
    cases h
  | some previous =>
    rw [hprevious] at h
    by_cases hsame : previous = state
    · simp only [if_pos hsame] at h
      cases h
    · simp only [if_neg hsame] at h ⊢
      cases hmachine : s.stateDict.get? previous with
      | none => exact ⟨.keyError previous, by simp [getItem_apply_of_none s hmachine]⟩
      | some machine =>
        rw [hmachine, Option.bind_some] at h
        exact ⟨.typeError, by simp [getItem_apply s hmachine, h]⟩

variable (hexdigest) in
theorem changeState_needs (hqos : HasQos s) (h : Completes (changeState hexdigest state) s) :
    s.CanSwitch state := by
  unfold changeState at h
  rw [completes_bind_of_ok (get_apply s)] at h
  obtain ⟨a, s₁, hrevoke, hlookup⟩ := completes_bind.1 h
  obtain ⟨machine, s₂, hitem, hadds⟩ := completes_bind.1 hlookup
  obtain ⟨hmachine, rfl⟩ := getItem_ok hitem
  obtain ⟨b, s₃, htopics, hservices⟩ := completes_bind.1 hadds
  cases hrevoked : s.revokedTopics state with
  | none =>
    obtain ⟨e, hraises⟩ := revoke_raises hrevoked
    cases hraises.symm.trans hrevoke
  | some revoked =>
    rw [revoke_eq s state hrevoked] at hrevoke
    have hdeclared := revokeAll_needs ⟨a, s₂, hrevoke⟩
    obtain ⟨t₁, hasks₁, hsame₁, hpaused, hservicesPaused⟩ := asks_revokeAll hdeclared
    cases hrevoke.symm.trans (hasks₁.eq_of_completes ⟨a, s₂, hrevoke⟩)
    have hcanTopics := (adds_addTopic hexdigest).needs_all (hsame₁.hasQos hqos) ⟨b, s₃, htopics⟩
    obtain ⟨t₂, hasks₂, hsame₂, hother⟩ :=
      (adds_addTopic hexdigest).asks_all (hsame₁.hasQos hqos) hcanTopics
    cases htopics.symm.trans (hasks₂.eq_of_completes ⟨b, s₃, htopics⟩)
    have hboth := hsame₁.trans hsame₂
    have hcanServices := (adds_addService hexdigest).needs_all (hboth.hasQos hqos) hservices
    rw [hsame₁.config, hsame₁.topicDict, hpaused] at hcanTopics
    rw [hboth.config, hboth.serviceDict, hother, hservicesPaused] at hcanServices
    exact ⟨revoked, machine, hrevoked, hmachine, hdeclared, hcanTopics, hcanServices⟩

variable (hexdigest) in
theorem asks_changeState (hqos : HasQos s) (h : s.CanSwitch state) :
    ∃ s', Asks (changeState hexdigest state) s (s.switchRequests state) () s' := by
  obtain ⟨revoked, machine, hrevoked, hmachine, hdeclared, hcanTopics, hcanServices⟩ := h
  obtain ⟨s₁, hasks₁, hsame₁, hpaused, hservicesPaused⟩ := asks_revokeAll hdeclared
  rw [← hsame₁.config, ← hsame₁.topicDict, ← hpaused] at hcanTopics
  obtain ⟨s₂, hasks₂, hsame₂, hother⟩ :=
    (adds_addTopic hexdigest).asks_all (hsame₁.hasQos hqos) hcanTopics
  have hboth := hsame₁.trans hsame₂
  rw [← hservicesPaused, ← hother, ← hboth.config, ← hboth.serviceDict] at hcanServices
  obtain ⟨s₃, hasks₃, -, -⟩ :=
    (adds_addService hexdigest).asks_all (hboth.hasQos hqos) hcanServices
  rw [Nat.one_mul, hsame₁.ends, hpaused] at hasks₂
  rw [hboth.ends, hother, hservicesPaused] at hasks₃
  have hrequests : s.switchRequests state = revoked.length +
      (addRequests s.ends (s.pausedTopics ++ revoked.map Prod.fst) (machine.topics.getD []) +
        addRequests (2 * s.ends) s.pausedServices (machine.services.getD [])) := by
    unfold SgcSwarm.switchRequests
    rw [hrevoked, hmachine]
  rw [hrequests]
  unfold changeState
  refine ⟨s₃, .of_ok_bind (get_apply s) ?_⟩
  have hrevokes : Asks (revoke (s.assignmentDict.get? s.instanceIdentifier) state) s
      revoked.length () s₁ := hasks₁.congr (revoke_eq s state hrevoked)
  exact hrevokes.bind (.of_ok_bind (getItem_apply s₁ hmachine) (hasks₂.bind hasks₃))

variable (hexdigest) in
theorem completes_changeState_iff (hqos : HasQos s) :
    Completes (changeState hexdigest state) s ↔ s.Switches state := by
  constructor
  · intro h
    have hcan := changeState_needs hexdigest hqos h
    obtain ⟨s', hasks⟩ := asks_changeState hexdigest hqos hcan
    exact ⟨hcan, hasks.completes_iff.1 h⟩
  · intro h
    obtain ⟨s', hasks⟩ := asks_changeState hexdigest hqos h.can
    exact hasks.completes_iff.2 h.answered

/-! ## A call -/

/-- Another machine's state is no matter. -/
theorem switches_assign {machine : String} (h : machine ≠ s.instanceIdentifier)
    (assigned : String) :
    (s.assign machine assigned).Switches state ↔ s.Switches state := by
  have hrevoked : (s.assign machine assigned).revokedTopics state = s.revokedTopics state := by
    unfold SgcSwarm.revokedTopics
    simp only [SgcSwarm.assign, PyDict.get?_set_of_ne _ h.symm]
  have hcan : (s.assign machine assigned).CanSwitch state ↔ s.CanSwitch state := by
    unfold SgcSwarm.CanSwitch
    rw [hrevoked]
    rfl
  have hrequests : (s.assign machine assigned).switchRequests state = s.switchRequests state := by
    unfold SgcSwarm.switchRequests
    rw [hrevoked]
    rfl
  constructor
  · rintro ⟨hswitch, hanswered⟩
    exact ⟨hcan.1 hswitch, hrequests ▸ hanswered⟩
  · rintro ⟨hswitch, hanswered⟩
    exact ⟨hcan.2 hswitch, hrequests ▸ hanswered⟩

theorem assignMachine_other {machine : String} (h : machine ≠ s.instanceIdentifier)
    (assigned : String) :
    assignMachine hexdigest (machine, assigned) s = .ok () (s.assign machine assigned) := by
  simp [assignMachine, h, SgcSwarm.assign]

variable (hexdigest) in
theorem completes_assignMachine_self (hqos : HasQos s) :
    Completes (assignMachine hexdigest (s.instanceIdentifier, state)) s ↔ s.Switches state := by
  rw [← completes_changeState_iff hexdigest hqos]
  unfold assignMachine
  rw [completes_bind_of_ok (get_apply s), if_pos rfl, completes_bind]
  constructor
  · rintro ⟨_, s₁, hrun, -⟩
    exact ⟨(), s₁, hrun⟩
  · rintro ⟨_, s₁, hrun⟩
    exact ⟨(), s₁, hrun, (), _, rfl⟩

variable (hexdigest) in
theorem completes_entries_iff (hqos : HasQos s) {entries : List (String × String)}
    (hnodup : (entries.map Prod.fst).Nodup) :
    Completes (entries.forM (assignMachine hexdigest)) s ↔
      ∀ state, (s.instanceIdentifier, state) ∈ entries → s.Switches state := by
  induction entries generalizing s with
  | nil =>
    refine ⟨?_, fun _ => ⟨(), s, rfl⟩⟩
    rintro - state ⟨⟩
  | cons entry entries ih =>
    obtain ⟨machine, assigned⟩ := entry
    obtain ⟨hmachine, hrest⟩ := List.nodup_cons.1 hnodup
    rw [show ((machine, assigned) :: entries).forM (assignMachine hexdigest) =
      (assignMachine hexdigest (machine, assigned) >>= fun _ =>
        entries.forM (assignMachine hexdigest)) from rfl]
    by_cases hself : machine = s.instanceIdentifier
    · subst hself
      have honly : ∀ state, (s.instanceIdentifier, state) ∉ entries :=
        fun state hmem => hmachine (List.mem_map.2 ⟨_, hmem, rfl⟩)
      rw [completes_bind]
      constructor
      · rintro ⟨_, s₁, hrun, -⟩ state hmem
        rcases List.mem_cons.1 hmem with heq | hmem
        · cases heq
          exact (completes_assignMachine_self hexdigest hqos).1 ⟨(), s₁, hrun⟩
        · exact absurd hmem (honly state)
      · intro h
        obtain ⟨_, s₁, hrun⟩ :=
          (completes_assignMachine_self hexdigest hqos).2 (h _ List.mem_cons_self)
        have hsame := (sameConfig_assignMachine hexdigest _).of_ok hrun
        refine ⟨(), s₁, hrun, (ih (hsame.hasQos hqos) hrest).2 fun state hmem => ?_⟩
        rw [hsame.instanceIdentifier] at hmem
        exact absurd hmem (honly state)
    · rw [completes_bind_of_ok (assignMachine_other hself assigned)]
      have hne : ∀ state, (s.instanceIdentifier, state) ≠ (machine, assigned) :=
        fun state heq => hself (congrArg Prod.fst heq).symm
      rw [ih ((SameConfig.assign s machine assigned).hasQos hqos) hrest]
      refine forall_congr' fun state => ?_
      rw [switches_assign hself, List.mem_cons, or_iff_right (hne state), SgcSwarm.assign]

variable (hexdigest) in
/-- A call completes exactly if the change to the state this machine is assigned does, if any. -/
theorem completes_applyAssignment_iff (hqos : HasQos s)
    (newAssignmentDict : PyDict String String) :
    Completes (applyAssignment hexdigest newAssignmentDict) s ↔
      ∀ state, newAssignmentDict.get? s.instanceIdentifier = some state → s.Switches state := by
  unfold applyAssignment
  rw [completes_entries_iff hexdigest hqos newAssignmentDict.nodup]
  simp only [PyDict.get?_eq_some_iff]

/-! ## Runs -/

/-- The swarm once its configuration is loaded, with what is assigned first. -/
def assigned (router : Nat → PostOutcome) (config : Config) (sgcAddress whoami : String)
    (assignmentDict : PyDict String String) : SgcSwarm :=
  { loaded router config sgcAddress whoami with assignmentDict }

theorem hasQos_assigned (router : Nat → PostOutcome) (config : Config)
    (sgcAddress whoami : String) (assignmentDict : PyDict String String) :
    HasQos (assigned router config sgcAddress whoami assignmentDict) := by
  constructor
  · intro name hname
    exact mem_keys_loadQos.2 (mem_keys_loadTypes.1 hname)
  · intro name hname
    exact mem_keys_loadQos.2 (mem_keys_loadTypes.1 hname)

variable (hexdigest) in
/-- The call does not raise, and what it assigns is in the swarm's assignment then. -/
def Takes (s : SgcSwarm) (newAssignmentDict : PyDict String String) : Prop :=
  Completes (applyAssignment hexdigest newAssignmentDict) s ∧
    ∀ machine state, newAssignmentDict.get? machine = some state →
      (s.step hexdigest newAssignmentDict).assignmentDict.get? machine = some state

theorem takes_iff (hqos : HasQos s) (newAssignmentDict : PyDict String String) :
    Takes hexdigest s newAssignmentDict ↔
      ∀ state, newAssignmentDict.get? s.instanceIdentifier = some state → s.Switches state := by
  rw [← completes_applyAssignment_iff hexdigest hqos]
  refine and_iff_left_of_imp ?_
  rintro ⟨_, s', hrun⟩ machine state hstate
  unfold SgcSwarm.step
  rw [after_of_ok hrun, assignmentDict_of_applyAssignment hrun]
  exact PyDict.get?_foldl_set_entries _ hstate

/-- **Main result.**  For every configuration, every router and every sequence of calls, no call
raises, and each is written down, if and only if at every call that assigns this machine a state
it can go to that state and the router responds: the state it leaves, if another, lists topics,
the names that are revoked or added are declared, the configuration has a topology or what is
added is paused, and each request of the change gets a response. -/
theorem assignments_taken_iff (hexdigest : Bytes → String) (router : Nat → PostOutcome)
    (config : Config) (sgcAddress whoami : String) (assignmentDict : PyDict String String)
    (assignments : List (PyDict String String)) :
    Run.Throughout (SgcSwarm.step hexdigest) (Takes hexdigest)
        (assigned router config sgcAddress whoami assignmentDict) assignments ↔
      Run.Throughout (SgcSwarm.step hexdigest)
        (fun s newAssignmentDict => ∀ state,
          newAssignmentDict.get? s.instanceIdentifier = some state → s.Switches state)
        (assigned router config sgcAddress whoami assignmentDict) assignments := by
  set start := assigned router config sgcAddress whoami assignmentDict
  refine Run.throughout_congr (SameConfig start) (fun s newAssignmentDict hs _ => hs.trans ?_)
    (fun s newAssignmentDict hs => ?_) (.refl start)
  · exact sameConfig_step hexdigest s newAssignmentDict
  · exact takes_iff (hs.hasQos (hasQos_assigned ..)) newAssignmentDict

/-- The client, whose router responds, before it is assigned anything. -/
def switchSwarm : SgcSwarm :=
  assigned answeringRouter switchConfig "localhost:3000" "machine_client" .empty

/-- A machine on standby cannot take over: there are no topics to revoke. -/
theorem standby_stays :
    (∀ state ∈ ["standby", "client"], state ∈ switchSwarm.stateDict.keys) ∧
      Answering switchSwarm.router ∧
      ¬ Run.Throughout (SgcSwarm.step hexText) (Takes hexText) switchSwarm
        (["standby", "client"].map assignTo) := by
  refine ⟨by decide, answering_answeringRouter, ?_⟩
  rintro ⟨-, ⟨⟨_, _, hrun⟩, -⟩, -⟩
  have hraises : applyAssignment hexText (assignTo "client")
      (switchSwarm.step hexText (assignTo "standby")) =
      .error .typeError (switchSwarm.step hexText (assignTo "standby")) := by rfl
  cases hraises.symm.trans hrun

end RtFogros.Swarm
