import RtFogros.Fib.Abort

/-!
# The processing time of a Response

The Response arm subtracts the entry of its topic in `request_latency_table` from the clock.
The entry is overwritten by every Request for the topic with a guid that is not processed, so
it is the time of the last such Request and not of the first one with the guid of the
Response.

`timedFromFirst_iff`: the processing times are right exactly if at every Response the two met the
clock at one reading.  Both times are read off the run's inputs, by `lastTaken` and `firstRequest`,
and the table is the first of them after every run.
-/

namespace RtFogros.FibHandler

variable {Tx : Type} {bindingTable : BindingTable} {h h' : FibHandler Tx} {reading : Reading}
  {pkt : GDPPacket} {events : List (FibEvent Tx)} {topic guid : GDPName}

/-- `processing_time` of the Response arm, in nanoseconds; `none` is a failed `unwrap`. -/
def processingTime (h : FibHandler Tx) (reading : Reading) (pkt : GDPPacket) : Option Nat :=
  match h.requestLatencyTable pkt.gdpname with
  | none => none
  | some requested => if reading.now < requested then none else some (reading.now - requested)

theorem processingTime_eq_some_iff {elapsed : Nat} :
    h.processingTime reading pkt = some elapsed ↔
      ∃ requested, h.requestLatencyTable pkt.gdpname = some requested ∧
        requested ≤ reading.now ∧ elapsed = reading.now - requested := by
  unfold processingTime
  cases h.requestLatencyTable pkt.gdpname with
  | none => simp
  | some requested =>
    by_cases hclock : reading.now < requested
    · simp [hclock]
    · simp [hclock, Nat.le_of_not_lt hclock, eq_comm]

/-- The arm logs the processing time in microseconds, and aborts where it has none. -/
theorem responseArm_logs (hguid : pkt.guid = some guid) :
    (h.responseArm reading pkt).2.logs =
      (h.processingTime reading pkt).toList.map fun elapsed =>
        if pkt.guid ∈ h.processedRequests then
          .responseDup guid pkt.source (elapsed / 1000) pkt.description
        else .response guid pkt.source (elapsed / 1000) pkt.description := by
  unfold responseArm processingTime
  rw [hguid]
  cases h.requestLatencyTable pkt.gdpname with
  | none => rfl
  | some requested =>
    dsimp only
    by_cases hclock : reading.now < requested
    · rw [if_pos hclock, if_pos hclock]
      rfl
    · rw [if_neg hclock, if_neg hclock]
      by_cases hdup : some guid ∈ h.processedRequests
      · simp [hdup]
      · simp [hdup]

/-! ## The Requests of a run -/

/-- The clock when a Request with the guid is received. -/
def requestTime (guid : GDPName) : FibEvent Tx → Option Nat
  | .packet reading pkt =>
    if pkt.action = .request ∧ pkt.guid = some guid then some reading.now else none
  | .update _ => none

/-- The clock at the first Request with the guid. -/
def firstRequest (events : List (FibEvent Tx)) (guid : GDPName) : Option Nat :=
  events.findSome? (requestTime guid)

/-- The clock at a Request for the topic whose guid is not processed. -/
def takenTime (topic : GDPName) (visit : Mealy.Visit (Fib Tx) (FibEvent Tx) (FibOutput Tx)) :
    Option Nat :=
  match visit.before, visit.input with
  | .running h, .packet reading pkt =>
    if pkt.action = .request ∧ pkt.gdpname = topic ∧ pkt.guid ∉ h.processedRequests then
      some reading.now
    else none
  | _, _ => none

/-- The clock at the last Request for the topic whose guid was not processed. -/
def lastTaken (bindingTable : BindingTable) (events : List (FibEvent Tx)) (topic : GDPName) :
    Option Nat :=
  ((Mealy.trace (Fib.step bindingTable) .initial events).filterMap (takenTime topic)).getLast?

theorem lastTaken_concat {event : FibEvent Tx}
    (hrun : Mealy.final (Fib.step bindingTable) .initial events = .running h) :
    lastTaken bindingTable (events ++ [event]) topic =
      (takenTime topic ⟨.running h, event, (Fib.step bindingTable (.running h) event).2⟩).or
        (lastTaken bindingTable events topic) := by
  unfold lastTaken
  rw [Mealy.trace_append, hrun, List.filterMap_append, List.getLast?_append]
  congr 1
  cases htaken : takenTime topic
    ⟨.running h, event, (Fib.step bindingTable (.running h) event).2⟩ with
  | none => simp [htaken]
  | some time => simp [htaken]

/-- The entry of a topic is the time of its last Request with a new guid. -/
theorem requestLatencyTable_eq_lastTaken
    (hrun : Mealy.final (Fib.step bindingTable) .initial events = .running h) (topic : GDPName) :
    h.requestLatencyTable topic = lastTaken bindingTable events topic := by
  induction events using List.reverseRecOn generalizing h with
  | nil =>
    cases hrun
    rfl
  | append_singleton events event ih =>
    rw [Mealy.final_append] at hrun
    rcases hbefore : Mealy.final (Fib.step bindingTable) .initial events with h₀ | _
    · rw [hbefore] at hrun
      rw [lastTaken_concat hbefore, ← ih hbefore]
      cases event with
      | update update =>
        obtain ⟨-, -, hsame⟩ := updateArm_running hrun
        rw [hsame]
        rfl
      | packet reading pkt =>
        obtain ⟨-, -, hnoted⟩ := packetArm_running hrun
        rw [hnoted]
        unfold notedLatency takenTime
        dsimp only
        by_cases htopic : pkt.gdpname = topic
        · subst htopic
          by_cases hnew : pkt.action = .request ∧ pkt.guid ∉ h₀.processedRequests
          · rw [if_pos hnew, if_pos ⟨hnew.1, rfl, hnew.2⟩]
            exact Function.update_self ..
          · have hnot : ¬ (pkt.action = .request ∧ pkt.gdpname = pkt.gdpname ∧
                pkt.guid ∉ h₀.processedRequests) := fun htaken => hnew ⟨htaken.1, htaken.2.2⟩
            rw [if_neg hnew, if_neg hnot]
            rfl
        · have hnot : ¬ (pkt.action = .request ∧ pkt.gdpname = topic ∧
              pkt.guid ∉ h₀.processedRequests) := fun htaken => htopic htaken.2.1
          rw [if_neg hnot]
          split
          · exact Function.update_of_ne (Ne.symm htopic) _ _
          · rfl
    · rw [hbefore] at hrun
      cases hrun

theorem firstRequest_mem {time : Nat} (hfirst : firstRequest events guid = some time) :
    time ∈ events.filterMap clock := by
  obtain ⟨event, hmem, hevent⟩ := List.exists_of_findSome?_eq_some hfirst
  refine List.mem_filterMap.2 ⟨event, hmem, ?_⟩
  cases event with
  | update update => cases hevent
  | packet reading pkt =>
    dsimp only [requestTime] at hevent
    split at hevent
    · exact hevent
    · cases hevent

theorem lastTaken_mem {time : Nat} (htaken : lastTaken bindingTable events topic = some time) :
    time ∈ events.filterMap clock := by
  obtain ⟨visit, hvisit, htime⟩ := List.mem_filterMap.1 (List.mem_of_getLast? htaken)
  obtain ⟨before, after, heq, -⟩ := Mealy.exists_split_of_mem_trace hvisit
  refine List.mem_filterMap.2 ⟨visit.input, by rw [heq]; simp, ?_⟩
  unfold takenTime at htime
  split at htime
  · next hinput =>
    split at htime
    · rw [hinput]
      exact htime
    · cases htime
  · cases htime

/-- A clock that does not go back has only shown earlier readings before a packet. -/
theorem reading_le {before after : List (FibEvent Tx)} {time : Nat}
    (hclock : ((before ++ .packet reading pkt :: after).filterMap clock).Pairwise (· ≤ ·))
    (hmem : time ∈ before.filterMap clock) : time ≤ reading.now := by
  have hreading : clock (.packet reading pkt : FibEvent Tx) = some reading.now := rfl
  rw [List.filterMap_append, List.filterMap_cons_some hreading] at hclock
  exact (List.pairwise_append.1 hclock).2.2 time hmem reading.now List.mem_cons_self

/-! ## The processing times of a run -/

/-- Every Response whose guid was requested is given the time since the first Request with
that guid. -/
def TimedFromFirst (bindingTable : BindingTable) (events : List (FibEvent Tx)) : Prop :=
  ∀ before reading pkt after h guid time, events = before ++ .packet reading pkt :: after →
    pkt.action = .response → pkt.guid = some guid → firstRequest before guid = some time →
      Mealy.final (Fib.step bindingTable) .initial before = .running h →
        ∀ elapsed, h.processingTime reading pkt = some elapsed → elapsed = reading.now - time

/-- **Main result.**  With a clock that does not go back, the processing times are right if
and only if at every Response whose guid was requested the last Request of its topic with a
guid that was not processed met the clock at the same reading as the first Request with the
guid of the Response. -/
theorem timedFromFirst_iff (bindingTable : BindingTable) (events : List (FibEvent Tx))
    (hclock : (events.filterMap clock).Pairwise (· ≤ ·)) :
    TimedFromFirst bindingTable events ↔
      ∀ before reading pkt after h guid time taken,
        events = before ++ .packet reading pkt :: after →
          pkt.action = .response → pkt.guid = some guid → firstRequest before guid = some time →
            Mealy.final (Fib.step bindingTable) .initial before = .running h →
              lastTaken bindingTable before pkt.gdpname = some taken → taken = time := by
  constructor
  · intro htimed before reading pkt after h guid time taken heq haction hguid hfirst hrun htaken
    subst heq
    have hle : taken ≤ reading.now := reading_le hclock (lastTaken_mem htaken)
    have hentry := requestLatencyTable_eq_lastTaken hrun pkt.gdpname
    rw [htaken] at hentry
    have helapsed : h.processingTime reading pkt = some (reading.now - taken) :=
      processingTime_eq_some_iff.2 ⟨taken, hentry, hle, rfl⟩
    have hsame := htimed before reading pkt after h guid time rfl haction hguid hfirst hrun
      (reading.now - taken) helapsed
    have hfirstLe : time ≤ reading.now := reading_le hclock (firstRequest_mem hfirst)
    omega
  · intro htaken before reading pkt after h guid time heq haction hguid hfirst hrun elapsed helapsed
    obtain ⟨requested, hentry, -, rfl⟩ := processingTime_eq_some_iff.1 helapsed
    rw [requestLatencyTable_eq_lastTaken hrun] at hentry
    rw [htaken before reading pkt after h guid time requested heq haction hguid hfirst hrun hentry]

theorem sampleCall_timedFromFirst : TimedFromFirst none sampleCall := by
  refine (timedFromFirst_iff none sampleCall (by decide)).2 ?_
  intro before reading pkt after h guid time taken heq haction hguid hfirst hrun htaken
  -- the Response is the third event
  rcases before with _ | ⟨first, _ | ⟨second, _ | ⟨third, rest⟩⟩⟩
  · cases heq
  · cases heq
    cases haction
  · cases heq
    cases hguid
    cases hfirst
    cases htaken
    rfl
  · rcases rest with _ | ⟨fourth, rest⟩ <;> cases heq

/-- Two Requests of one topic, and the Response to the first. -/
def overlapping : List (FibEvent Nat) :=
  [.packet ⟨5000, some "eth0"⟩ sampleRequest,
    .packet ⟨7000, some "eth0"⟩ { sampleRequest with guid := some (sampleName 4) },
    .packet ⟨9000, some "eth0"⟩ sampleResponse]

/-- The Response comes 4000 ns after its Request and is logged with 2 µs. -/
theorem overlapping_mistimed :
    ¬ TimedFromFirst none overlapping ∧
      (Mealy.outputs (Fib.step none) .initial overlapping).flatMap FibOutput.logs =
        [.response (sampleName 3) (sampleName 4) 2 none] := by
  refine ⟨fun htimed => ?_, by decide⟩
  have helapsed := htimed (overlapping.take 2) ⟨9000, some "eth0"⟩ sampleResponse [] _
    (sampleName 3) 5000 rfl rfl rfl rfl rfl 2000 rfl
  cases helapsed

end RtFogros.FibHandler
