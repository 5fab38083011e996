import RtFogros.Fib.Table

/-!
# When the handler aborts

With guids in all packets, complete updates and a clock that does not go back, one `unwrap` is left
that can fail: the Response arm looks its topic up in `request_latency_table`, which only a Request
with a new guid fills.  A run is therefore free of aborts exactly when such a Request precedes
every Response (`running_iff_responsesRequested`).

`LatencyOf` says what the table is after a run: the topics requested so far, with times that the
run has read, so that the subtraction of the arm cannot fail either.
-/

namespace RtFogros

namespace FibHandler

variable {Tx : Type} {bindingTable : BindingTable}

/-! ## One turn -/

theorem updateArm_of_complete {h : FibHandler Tx} {update : FibStateChange Tx}
    (hcomplete : update.Complete) : ∃ h', h.updateArm bindingTable update = .running h' := by
  obtain ⟨interface, hinterface⟩ := Option.isSome_iff_exists.1 hcomplete.interface
  obtain ⟨address, haddress⟩ := Option.isSome_iff_exists.1 hcomplete.address
  obtain ⟨tx, htx⟩ := Option.isSome_iff_exists.1 hcomplete.forwardDestination
  unfold updateArm
  split
  · split
    · rw [hinterface, haddress]
      dsimp only
      split
      · exact ⟨h, rfl⟩
      · rw [htx]
        exact ⟨_, rfl⟩
    · exact ⟨h, rfl⟩
  · exact ⟨h, rfl⟩

/-- What a packet with a guid needs of the handler. -/
def Safe (h : FibHandler Tx) (reading : Reading) (pkt : GDPPacket) : Prop :=
  pkt.action = .response →
    ∃ requested, h.requestLatencyTable pkt.gdpname = some requested ∧ requested ≤ reading.now

theorem packetArm_safe_iff {h : FibHandler Tx} {reading : Reading} {pkt : GDPPacket}
    (hguid : pkt.guid.isSome) (htable : ∀ dst ∈ h.receiversOf pkt.gdpname, dst.interface.isSome) :
    (∃ h', (h.packetArm reading pkt).1 = .running h') ↔ h.Safe reading pkt := by
  obtain ⟨guid, hguid'⟩ := Option.isSome_iff_exists.1 hguid
  unfold Safe packetArm
  split
  · rename_i haction
    refine ⟨fun _ hresponse => ?_, fun _ => ?_⟩
    · rw [haction] at hresponse
      cases hresponse
    · unfold forwardArm
      split <;> exact ⟨_, rfl⟩
  · rename_i haction
    refine ⟨fun _ hresponse => ?_, fun _ => ?_⟩
    · rw [haction] at hresponse
      cases hresponse
    · unfold requestArm
      rw [hguid']
      dsimp only
      split
      · exact ⟨_, rfl⟩
      · split
        · exact ⟨_, rfl⟩
        · exact ⟨_, if_pos (requestLoop_finishes hguid fun entry hentry =>
            htable _ (List.fst_mem_of_mem_zipIdx hentry))⟩
  · rename_i haction
    unfold responseArm
    rw [hguid']
    rcases h.requestLatencyTable pkt.gdpname with _ | requested
    · refine ⟨?_, fun hsafe => ?_⟩
      · rintro ⟨h', hrun⟩
        cases hrun
      · obtain ⟨requested, hnone, -⟩ := hsafe haction
        cases hnone
    · dsimp only
      by_cases hclock : reading.now < requested
      · rw [if_pos hclock]
        refine ⟨?_, fun hsafe => ?_⟩
        · rintro ⟨h', hrun⟩
          cases hrun
        · obtain ⟨requested', hsome, hle⟩ := hsafe haction
          cases hsome
          omega
      · rw [if_neg hclock]
        refine ⟨fun _ _ => ⟨requested, rfl, Nat.le_of_not_lt hclock⟩, fun _ => ?_⟩
        split <;> exact ⟨_, rfl⟩
  · rename_i hresponse
    exact ⟨fun _ haction => absurd haction hresponse, fun _ => ⟨h, rfl⟩⟩

/-! ## Runs -/

def clock : FibEvent Tx → Option Nat
  | .packet reading _ => some reading.now
  | .update _ => none

/-- The events the handler is meant to stand: guids in the packets, complete updates,
a clock that does not go back. -/
structure Expected (events : List (FibEvent Tx)) : Prop where
  guid : ∀ reading pkt, .packet reading pkt ∈ events → pkt.guid.isSome
  update : ∀ update, .update update ∈ events → update.Complete
  clock : (events.filterMap clock).Pairwise (· ≤ ·)

/-- A Request for the topic has met the handler with a guid that was not processed. -/
def Requested (bindingTable : BindingTable) (events : List (FibEvent Tx)) (topic : GDPName) :
    Prop :=
  ∃ before reading req after h, events = before ++ .packet reading req :: after ∧
    req.action = .request ∧ req.gdpname = topic ∧
    Mealy.final (Fib.step bindingTable) .initial before = .running h ∧
    req.guid ∉ h.processedRequests

/-- Every Response comes after a Request for its topic with a new guid. -/
def ResponsesRequested (bindingTable : BindingTable) (events : List (FibEvent Tx)) : Prop :=
  ∀ before reading pkt after, events = before ++ .packet reading pkt :: after →
    pkt.action = .response → Requested bindingTable before pkt.gdpname

theorem Expected.of_append {before after : List (FibEvent Tx)}
    (h : Expected (before ++ after)) : Expected before := by
  refine ⟨fun reading pkt hmem => h.guid reading pkt (List.mem_append_left _ hmem),
    fun update hmem => h.update update (List.mem_append_left _ hmem), ?_⟩
  have hclock := h.clock
  rw [List.filterMap_append] at hclock
  exact (List.pairwise_append.1 hclock).1

theorem append_singleton_eq_split {α : Type*} {xs before after : List α} {x y : α}
    (h : xs ++ [x] = before ++ y :: after) :
    (after = [] ∧ before = xs ∧ y = x) ∨ ∃ after', after = after' ++ [x] ∧
      xs = before ++ y :: after' := by
  rcases List.eq_nil_or_concat after with rfl | ⟨after', z, rfl⟩
  · obtain ⟨rfl, hy⟩ := List.append_inj' h rfl
    exact .inl ⟨rfl, rfl, (List.cons.inj hy).1.symm⟩
  · rw [List.concat_eq_append, ← List.cons_append, ← List.append_assoc] at h
    obtain ⟨hxs, hz⟩ := List.append_inj' h rfl
    obtain rfl := (List.cons.inj hz).1
    exact .inr ⟨after', List.concat_eq_append, hxs⟩

theorem requested_concat {events : List (FibEvent Tx)} {h : FibHandler Tx} {event : FibEvent Tx}
    {topic : GDPName} (hrun : Mealy.final (Fib.step bindingTable) .initial events = .running h) :
    Requested bindingTable (events ++ [event]) topic ↔
      Requested bindingTable events topic ∨ ∃ reading req, event = .packet reading req ∧
        req.action = .request ∧ req.gdpname = topic ∧ req.guid ∉ h.processedRequests := by
  constructor
  · rintro ⟨before, reading, req, after, h₀, heq, haction, hname, hrun₀, hfresh⟩
    rcases append_singleton_eq_split heq with ⟨rfl, rfl, rfl⟩ | ⟨after', rfl, rfl⟩
    · obtain rfl : h₀ = h := by
        rw [hrun] at hrun₀
        cases hrun₀
        rfl
      exact .inr ⟨reading, req, rfl, haction, hname, hfresh⟩
    · exact .inl ⟨before, reading, req, after', h₀, rfl, haction, hname, hrun₀, hfresh⟩
  · rintro (⟨before, reading, req, after, h₀, rfl, hrest⟩ |
      ⟨reading, req, rfl, haction, hname, hfresh⟩)
    · exact ⟨before, reading, req, after ++ [event], h₀, by simp, hrest⟩
    · exact ⟨events, reading, req, [], h, rfl, haction, hname, hrun, hfresh⟩

theorem responsesRequested_concat {events : List (FibEvent Tx)} {event : FibEvent Tx} :
    ResponsesRequested bindingTable (events ++ [event]) ↔
      ResponsesRequested bindingTable events ∧
        ∀ reading pkt, event = .packet reading pkt → pkt.action = .response →
          Requested bindingTable events pkt.gdpname := by
  constructor
  · intro hall
    refine ⟨fun before reading pkt after heq => ?_, fun reading pkt heq => ?_⟩
    · exact hall before reading pkt (after ++ [event]) (by rw [heq]; simp)
    · exact hall events reading pkt [] (by rw [heq])
  · rintro ⟨hall, hlast⟩ before reading pkt after heq haction
    rcases append_singleton_eq_split heq with ⟨rfl, rfl, hevent⟩ | ⟨after', rfl, hevents⟩
    · exact hlast reading pkt hevent.symm haction
    · exact hall before reading pkt after' hevents haction

/-- The latency table after a run holds the topics that were requested, with times
the run has read. -/
structure LatencyOf (bindingTable : BindingTable) (events : List (FibEvent Tx))
    (h : FibHandler Tx) : Prop where
  requested : ∀ topic,
    (h.requestLatencyTable topic).isSome ↔ Requested bindingTable events topic
  read : ∀ topic time, h.requestLatencyTable topic = some time → time ∈ events.filterMap clock

theorem latencyOf_initial : LatencyOf bindingTable [] ({} : FibHandler Tx) := by
  refine ⟨fun topic => ⟨fun h => ?_, ?_⟩, fun topic time h => ?_⟩
  · cases h
  · rintro ⟨before, reading, req, after, h₀, heq, -⟩
    cases before <;> cases heq
  · cases h

theorem LatencyOf.step {events : List (FibEvent Tx)} {h h' : FibHandler Tx} {event : FibEvent Tx}
    (hlat : LatencyOf bindingTable events h)
    (hrun : Mealy.final (Fib.step bindingTable) .initial events = .running h)
    (hstep : (Fib.step bindingTable (.running h) event).1 = .running h') :
    LatencyOf bindingTable (events ++ [event]) h' := by
  have hkeep : ∀ {time}, time ∈ events.filterMap FibHandler.clock →
      time ∈ (events ++ [event]).filterMap FibHandler.clock := by
    intro time htime
    rw [List.filterMap_append]
    exact List.mem_append_left _ htime
  cases event with
  | update update =>
    obtain ⟨-, -, hsame⟩ := updateArm_running hstep
    refine ⟨fun topic => ?_, fun topic time htime => hkeep (hlat.read topic time (hsame ▸ htime))⟩
    rw [hsame, hlat.requested, requested_concat hrun]
    simp
  | packet reading pkt =>
    obtain ⟨-, -, hnoted⟩ := packetArm_running hstep
    by_cases hnew : pkt.action = .request ∧ pkt.guid ∉ h.processedRequests
    · unfold notedLatency at hnoted
      rw [if_pos hnew] at hnoted
      constructor
      · intro topic
        rw [requested_concat hrun, hnoted]
        by_cases htopic : topic = pkt.gdpname
        · subst htopic
          rw [Function.update_self]
          exact ⟨fun _ => .inr ⟨reading, pkt, rfl, hnew.1, rfl, hnew.2⟩, fun _ => rfl⟩
        · rw [Function.update_of_ne htopic, hlat.requested]
          refine ⟨.inl, ?_⟩
          rintro (h | ⟨reading', req, heq, -, hname, -⟩)
          · exact h
          · cases heq
            exact absurd hname.symm htopic
      · intro topic time htime
        rw [hnoted] at htime
        by_cases htopic : topic = pkt.gdpname
        · subst htopic
          rw [Function.update_self] at htime
          cases htime
          rw [List.filterMap_append]
          exact List.mem_append_right _ List.mem_cons_self
        · rw [Function.update_of_ne htopic] at htime
          apply hkeep
          exact hlat.read topic time htime
    · unfold notedLatency at hnoted
      rw [if_neg hnew] at hnoted
      refine ⟨fun topic => ?_,
        fun topic time htime => hkeep (hlat.read topic time (hnoted ▸ htime))⟩
      rw [hnoted, hlat.requested, requested_concat hrun]
      refine ⟨.inl, ?_⟩
      rintro (h | ⟨reading', req, heq, haction, -, hfresh⟩)
      · exact h
      · cases heq
        exact absurd ⟨haction, hfresh⟩ hnew

/-- A turn on an expected event aborts only over a Response to nothing. -/
theorem step_running_iff {events : List (FibEvent Tx)} {event : FibEvent Tx} {h : FibHandler Tx}
    (hexpected : Expected (events ++ [event])) (hlat : LatencyOf bindingTable events h)
    (hrun : Mealy.final (Fib.step bindingTable) .initial events = .running h) :
    (∃ h', (Fib.step bindingTable (.running h) event).1 = .running h') ↔
      ∀ reading pkt, event = .packet reading pkt → pkt.action = .response →
        Requested bindingTable events pkt.gdpname := by
  have hlast : event ∈ events ++ [event] := List.mem_append_right _ List.mem_cons_self
  cases event with
  | update update =>
    refine ⟨fun _ reading pkt heq => ?_, fun _ => updateArm_of_complete (hexpected.update _ hlast)⟩
    cases heq
  | packet reading pkt =>
    have htable : ∀ dst ∈ h.receiversOf pkt.gdpname, dst.interface.isSome := by
      intro dst hdst
      rw [receiversOf_final hrun] at hdst
      exact (registered_of_mem hdst).interface
    unfold Fib.step
    rw [packetArm_safe_iff (hexpected.guid _ _ hlast) htable]
    constructor
    · intro hsafe reading' pkt' heq haction
      cases heq
      obtain ⟨time, htime, -⟩ := hsafe haction
      exact (hlat.requested _).1 (Option.isSome_of_eq_some htime)
    · intro hrequested haction
      obtain ⟨time, htime⟩ := Option.isSome_iff_exists.1
        ((hlat.requested _).2 (hrequested reading pkt rfl haction))
      have hclock := hexpected.clock
      rw [List.filterMap_append] at hclock
      exact ⟨time, htime, (List.pairwise_append.1 hclock).2.2 time (hlat.read _ _ htime)
        reading.now List.mem_cons_self⟩

theorem running_iff_and_latency {events : List (FibEvent Tx)} (hexpected : Expected events) :
    ((∃ h, Mealy.final (Fib.step bindingTable) .initial events = .running h) ↔
      ResponsesRequested bindingTable events) ∧
    ∀ h, Mealy.final (Fib.step bindingTable) .initial events = .running h →
      LatencyOf bindingTable events h := by
  induction events using List.reverseRecOn with
  | nil =>
    refine ⟨⟨fun _ before reading pkt after heq => ?_, fun _ => ⟨_, rfl⟩⟩, fun h hrun => ?_⟩
    · cases before <;> cases heq
    · cases hrun
      exact latencyOf_initial
  | append_singleton events event ih =>
    obtain ⟨hiff, hlat⟩ := ih hexpected.of_append
    rw [Mealy.final_append, responsesRequested_concat, ← hiff]
    rcases hrun : Mealy.final (Fib.step bindingTable) .initial events with h | _
    · refine ⟨?_, fun h' hstep => (hlat h hrun).step hrun hstep⟩
      rw [← step_running_iff hexpected (hlat h hrun) hrun]
      exact ⟨fun hstep => ⟨⟨h, rfl⟩, hstep⟩, fun hstep => hstep.2⟩
    · refine ⟨⟨?_, ?_⟩, fun h hstep => ?_⟩
      · rintro ⟨h, hstep⟩
        cases hstep
      · rintro ⟨⟨h, hnone⟩, -⟩
        cases hnone
      · cases hstep

/-- **Main result.**  On expected events the handler runs on if and only if every
Response comes after a Request for its topic with a new guid. -/
theorem running_iff_responsesRequested (bindingTable : BindingTable)
    (events : List (FibEvent Tx)) (hexpected : Expected events) :
    (∃ h, Mealy.final (Fib.step bindingTable) .initial events = .running h) ↔
      ResponsesRequested bindingTable events :=
  (running_iff_and_latency hexpected).1

def sampleRequest : GDPPacket :=
  constructGdpRequestWithGuid (sampleName 1) (sampleName 2) [42] (sampleName 3)

def sampleResponse : GDPPacket :=
  constructGdpResponseWithGuid (sampleName 1) (sampleName 4) [43] (sampleName 3)

def sampleCall : List (FibEvent Nat) :=
  [.update (remoteRosServiceUpdate (sampleName 1) "/add" 7), .packet ⟨5, some "eth0"⟩ sampleRequest,
    .packet ⟨9, some "eth0"⟩ sampleResponse]

theorem sampleCall_responsesRequested : ResponsesRequested none sampleCall := by
  refine (running_iff_responsesRequested none sampleCall ⟨?_, ?_, by decide⟩).1 ⟨_, rfl⟩
  · intro reading pkt hmem
    simp only [sampleCall, List.mem_cons, reduceCtorEq, FibEvent.packet.injEq, List.not_mem_nil,
      false_or, or_false] at hmem
    rcases hmem with ⟨-, rfl⟩ | ⟨-, rfl⟩ <;> rfl
  · intro update hmem
    simp only [sampleCall, List.mem_cons, reduceCtorEq, FibEvent.update.injEq, List.not_mem_nil,
      or_false] at hmem
    subst hmem
    exact rosUpdate_complete _ _ _ _ _

theorem unrequested_response_aborts :
    Expected ([.packet ⟨5, some "eth0"⟩ sampleResponse] : List (FibEvent Nat)) ∧
      Mealy.final (Fib.step none) .initial
        ([.packet ⟨5, some "eth0"⟩ sampleResponse] : List (FibEvent Nat)) = .aborted := by
  refine ⟨⟨?_, ?_, by decide⟩, rfl⟩
  · intro reading pkt hmem
    cases List.mem_singleton.1 hmem
    rfl
  · intro update hmem
    cases List.mem_singleton.1 hmem

end FibHandler

end RtFogros
