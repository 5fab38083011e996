import RtFogros.Fib.Table

/-!
# Copies that are thrown away

A packet is thrown away as processed once its guid has been marked.  The Forward arm marks the guid
before each send and whatever comes of it, the Response arm before it looks for an entry.  Whether
a send returns `Ok` depends on the receiver: each turn of a run comes with the answers of the
queues it may send to.

`discardsHanded_iff`: every discarded copy has been handed over before exactly if no turn discards
a copy of a packet that an earlier turn has wasted.  A guid is marked by one turn only, so the copy
that was marked either was handed over in that turn or never is.
-/

namespace RtFogros

namespace FibHandler

variable {Tx : Type}

/-- One turn of the handler with the answers of the queues; its output is what was handed
over, the sends that returned `Ok`. -/
def handingStep (bindingTable : BindingTable) (s : Fib Tx)
    (input : FibEvent Tx × (Sent Tx → Bool)) : Fib Tx × List (Sent Tx) :=
  ((s.step bindingTable input.1).1, (s.step bindingTable input.1).2.sends.filter input.2)

abbrev HandingTurn (Tx : Type) :=
  Mealy.Visit (Fib Tx) (FibEvent Tx × (Sent Tx → Bool)) (List (Sent Tx))

/-- The sends of a Forward or Response packet to its matching running receivers: the
default interface plays no part. -/
abbrev matching (h : FibHandler Tx) (pkt : GDPPacket) : List (Sent Tx) := h.serve "" pkt

namespace HandingTurn

/-- The turn throws a copy away as already processed. -/
def Discards (turn : HandingTurn Tx) (guid : Option GDPName) : Prop :=
  ∃ h reading pkt, turn.before = .running h ∧ turn.input.1 = .packet reading pkt ∧
    pkt.guid = guid ∧ guid ∈ h.processedRequests ∧
    (pkt.action = .forward ∨ pkt.action = .response ∧ guid.isSome ∧
      ∃ requested, h.requestLatencyTable pkt.gdpname = some requested ∧ requested ≤ reading.now)

/-- The turn has handed a copy to a matching running receiver. -/
def Hands (turn : HandingTurn Tx) (guid : Option GDPName) : Prop :=
  ∃ sent ∈ turn.output, sent.pkt.guid = guid ∧ sent.dst.state = .running ∧
    (sent.pkt.action = .forward ∧ sent.dst.connectionType = .receiver ∨
      sent.pkt.action = .response ∧ sent.dst.connectionType = .responseReceiver)

/-- The turn takes a copy with a new guid that it marks. -/
def Marks (turn : HandingTurn Tx) (guid : Option GDPName) : Prop :=
  ∃ h reading pkt, turn.before = .running h ∧ turn.input.1 = .packet reading pkt ∧
    pkt.guid = guid ∧ guid ∉ h.processedRequests ∧
    (pkt.action = .forward ∧ h.matching pkt ≠ [] ∨ h.TakesResponse reading pkt)

/-- The turn takes a copy with a new guid, and no matching running receiver accepts it: the
queues of a Forward's receivers are closed, a Response has no receiver or only closed
ones. -/
def Wastes (turn : HandingTurn Tx) (guid : Option GDPName) : Prop :=
  ∃ h reading pkt, turn.before = .running h ∧ turn.input.1 = .packet reading pkt ∧
    pkt.guid = guid ∧ guid ∉ h.processedRequests ∧
    (pkt.action = .forward ∧ h.matching pkt ≠ [] ∨ h.TakesResponse reading pkt) ∧
    ∀ sent ∈ h.matching pkt, turn.input.2 sent = false

end HandingTurn

/-! ## Marking -/

section Packet

variable {h h' : FibHandler Tx} {reading : Reading} {pkt : GDPPacket}

theorem packetArm_of_forward (haction : pkt.action = .forward) :
    h.packetArm reading pkt = h.forwardArm pkt := by
  unfold packetArm
  rw [haction]

theorem mem_processed_forward (haction : pkt.action = .forward)
    (hrun : (h.packetArm reading pkt).1 = .running h') (guid : Option GDPName) :
    guid ∈ h'.processedRequests ↔ guid ∈ h.processedRequests ∨
      pkt.guid = guid ∧ guid ∉ h.processedRequests ∧ h.matching pkt ≠ [] := by
  rw [packetArm_of_forward haction, forwardArm] at hrun
  rw [matching, serve_forward haction, ne_eq, List.map_eq_nil_iff]
  split at hrun
  · next hdup =>
    obtain rfl : h = h' := Fib.running.inj hrun
    refine (or_iff_left ?_).symm
    rintro ⟨rfl, hfresh, -⟩
    exact hfresh hdup
  · rw [forwardLoop_eq] at hrun
    obtain rfl := Fib.running.inj hrun
    dsimp only
    split
    · next hnone => simp [hnone]
    · next hsome =>
      rw [Finset.mem_insert, eq_comm]
      tauto

theorem mem_processed_response (haction : pkt.action = .response)
    (hrun : (h.packetArm reading pkt).1 = .running h') (guid : Option GDPName) :
    guid ∈ h'.processedRequests ↔ guid ∈ h.processedRequests ∨
      pkt.guid = guid ∧ guid ∉ h.processedRequests ∧ h.TakesResponse reading pkt := by
  have harm : h.packetArm reading pkt = h.responseArm reading pkt := by
    unfold packetArm
    rw [haction]
  rw [harm, responseArm] at hrun
  split at hrun
  · cases hrun
  · cases hrun
  · next requested g hrequested hguid =>
    dsimp only at hrun
    split at hrun
    · cases hrun
    · next hclock =>
      split at hrun
      · next hdup =>
        obtain rfl : h = h' := Fib.running.inj hrun
        refine (or_iff_left ?_).symm
        rintro ⟨rfl, hfresh, -⟩
        exact hfresh hdup
      · next hfresh =>
        obtain rfl := Fib.running.inj hrun
        have htakes : h.TakesResponse reading pkt :=
          ⟨haction, Option.isSome_of_eq_some hguid, hfresh, requested, hrequested,
            Nat.le_of_not_lt hclock⟩
        dsimp only
        rw [Finset.mem_insert, eq_comm]
        tauto

/-- What a packet adds to the processed guids. -/
theorem mem_processed_packetArm (hrun : (h.packetArm reading pkt).1 = .running h')
    (guid : Option GDPName) :
    guid ∈ h'.processedRequests ↔ guid ∈ h.processedRequests ∨
      pkt.guid = guid ∧ guid ∉ h.processedRequests ∧
        (pkt.action = .forward ∧ h.matching pkt ≠ [] ∨ h.TakesResponse reading pkt) := by
  by_cases hforward : pkt.action = .forward
  · have hno : ¬ h.TakesResponse reading pkt := fun htakes => by
      have := htakes.action
      rw [hforward] at this
      cases this
    rw [mem_processed_forward hforward hrun]
    simp [hforward, hno]
  by_cases hresponse : pkt.action = .response
  · rw [mem_processed_response hresponse hrun]
    simp [hforward]
  · have hno : ¬ h.TakesResponse reading pkt := fun htakes => hresponse htakes.action
    have hstep := packetArm_step h reading pkt
    generalize h.packetArm reading pkt = result at hstep hrun
    cases hstep with
    | abort => cases hrun
    | idle =>
      obtain rfl := Fib.running.inj hrun
      simp [hforward, hno]
    | round haction => exact absurd haction (not_or.2 ⟨hforward, hresponse⟩)
    | request =>
      dsimp only at hrun
      split at hrun
      · obtain rfl := Fib.running.inj hrun
        simp [hforward, hno]
      · cases hrun

/-- A copy that is marked is sent to all its matching receivers. -/
theorem packetArm_marks
    (hfresh : pkt.guid ∉ h.processedRequests)
    (hmarks : pkt.action = .forward ∧ h.matching pkt ≠ [] ∨ h.TakesResponse reading pkt) :
    (h.packetArm reading pkt).2.sends = h.matching pkt := by
  rcases hmarks with ⟨haction, -⟩ | htakes
  · rw [packetArm_of_forward haction, forwardArm, if_neg hfresh, forwardLoop_eq, matching,
      serve_forward haction]
  · exact packetArm_takes htakes ""

end Packet

/-! ## Turns of a run -/

section Run

variable {bindingTable : BindingTable} {turns : List (FibEvent Tx × (Sent Tx → Bool))}

open HandingTurn

theorem handingStep_running {s : Fib Tx} {input : FibEvent Tx × (Sent Tx → Bool)}
    {h' : FibHandler Tx} (hrun : (handingStep bindingTable s input).1 = .running h')
    (output : List (Sent Tx)) (guid : Option GDPName) :
    ∃ h, s = .running h ∧ (guid ∈ h'.processedRequests ↔
      guid ∈ h.processedRequests ∨ Marks ⟨s, input, output⟩ guid) := by
  obtain ⟨event, accepts⟩ := input
  cases s with
  | aborted => cases hrun
  | running h =>
    refine ⟨h, rfl, ?_⟩
    cases event with
    | packet reading pkt =>
      rw [mem_processed_packetArm hrun]
      refine or_congr_right ⟨fun hmark => ⟨h, reading, pkt, rfl, rfl, hmark⟩, ?_⟩
      rintro ⟨_, _, _, ⟨rfl⟩, ⟨rfl⟩, hmark⟩
      exact hmark
    | update update =>
      rw [(updateArm_running hrun).2.1]
      refine (or_iff_left ?_).symm
      rintro ⟨_, _, _, _, hinput, -⟩
      cases hinput

/-- The processed guids after a run are those that some turn of it has marked. -/
theorem mem_processed_iff_marks {s : Fib Tx} {h' : FibHandler Tx}
    (hrun : Mealy.final (handingStep bindingTable) s turns = .running h') (guid : Option GDPName) :
    ∃ h, s = .running h ∧ (guid ∈ h'.processedRequests ↔ guid ∈ h.processedRequests ∨
      ∃ v ∈ Mealy.trace (handingStep bindingTable) s turns, Marks v guid) := by
  induction turns generalizing s with
  | nil => exact ⟨h', hrun, by simp⟩
  | cons turn turns ih =>
    rw [Mealy.final_cons] at hrun
    obtain ⟨h₁, hnext, hlater⟩ := ih hrun
    obtain ⟨h, rfl, hmark⟩ := handingStep_running hnext
      (handingStep bindingTable s turn).2 guid
    refine ⟨h, rfl, ?_⟩
    rw [hlater, hmark, Mealy.trace_cons, List.exists_mem_cons_iff, or_assoc]

/-- A matching entry is running and listens for packets of the action. -/
theorem matching_entry {h : FibHandler Tx} {pkt : GDPPacket} {sent : Sent Tx}
    (haction : pkt.action = .forward ∨ pkt.action = .response) (hsent : sent ∈ h.matching pkt) :
    sent.pkt = pkt ∧ sent.dst.state = .running ∧
      (pkt.action = .forward ∧ sent.dst.connectionType = .receiver ∨
        pkt.action = .response ∧ sent.dst.connectionType = .responseReceiver) := by
  obtain ⟨entry, -, hserved, rfl⟩ := mem_serve.1 hsent
  rcases haction with haction | haction <;> rw [haction] at hserved
  · exact ⟨rfl, hserved.1, .inl ⟨haction, hserved.2⟩⟩
  · exact ⟨rfl, hserved.1, .inr ⟨haction, hserved.2⟩⟩

section Turn

variable {v : HandingTurn Tx} (hv : v.output = (handingStep bindingTable v.before v.input).2)
  {guid : Option GDPName}

include hv

theorem output_of_marks {h : FibHandler Tx} {reading : Reading} {pkt : GDPPacket}
    (hbefore : v.before = .running h) (hinput : v.input.1 = .packet reading pkt)
    (hfresh : pkt.guid ∉ h.processedRequests)
    (hmarks : pkt.action = .forward ∧ h.matching pkt ≠ [] ∨ h.TakesResponse reading pkt) :
    v.output = (h.matching pkt).filter v.input.2 := by
  rw [hv, handingStep, hbefore, hinput]
  exact congrArg (List.filter v.input.2) (packetArm_marks hfresh hmarks)

/-- Of the turns that mark a guid, those that do not waste a copy hand it over. -/
theorem hands_of_marks (hmarks : Marks v guid) (hwastes : ¬ Wastes v guid) : Hands v guid := by
  obtain ⟨h, reading, pkt, hbefore, hinput, rfl, hfresh, hwhy⟩ := hmarks
  have haction : pkt.action = .forward ∨ pkt.action = .response :=
    hwhy.imp And.left TakesResponse.action
  have hopen : ∃ sent ∈ h.matching pkt, v.input.2 sent = true := by
    by_contra hnone
    refine hwastes ⟨h, reading, pkt, hbefore, hinput, rfl, hfresh, hwhy, fun sent hsent => ?_⟩
    exact Bool.eq_false_iff.2 fun haccepts => hnone ⟨sent, hsent, haccepts⟩
  obtain ⟨sent, hsent, haccepts⟩ := hopen
  obtain ⟨hpkt, hstate, htype⟩ := matching_entry haction hsent
  refine ⟨sent, ?_, by rw [hpkt], hstate, by rwa [hpkt]⟩
  rw [output_of_marks hv hbefore hinput hfresh hwhy]
  exact List.mem_filter.2 ⟨hsent, haccepts⟩

/-- Whoever hands a copy over marks its guid in the same turn, and does not waste it. -/
theorem marks_of_hands (hands : Hands v guid) : Marks v guid ∧ ¬ Wastes v guid := by
  obtain ⟨sent, hsent, rfl, -, htype⟩ := hands
  have hall := hsent
  rw [hv, handingStep, List.mem_filter] at hall
  obtain ⟨hall, haccepts⟩ := hall
  cases hbefore : v.before with
  | aborted =>
    rw [hbefore] at hall
    cases hall
  | running h =>
    cases hinput : v.input.1 with
    | update update =>
      rw [hbefore, hinput] at hall
      cases hall
    | packet reading pkt =>
      rw [hbefore, hinput] at hall
      obtain rfl : sent.pkt = pkt := packetArm_pkt hall
      have haction : sent.pkt.action = .forward ∨ sent.pkt.action = .response :=
        htype.imp And.left And.left
      have hne := List.ne_nil_of_mem hall
      have hfresh := (packetArm_round haction hne).1
      have hwhy : sent.pkt.action = .forward ∧ h.matching sent.pkt ≠ [] ∨
          h.TakesResponse reading sent.pkt := by
        rcases haction with haction | haction
        · have hserve := (packetArm_sublist h reading sent.pkt).subset hall
          rw [serve_forward haction, ← serve_forward haction ""] at hserve
          exact .inl ⟨haction, List.ne_nil_of_mem hserve⟩
        · exact .inr (takesResponse_of_sends haction hne)
      refine ⟨⟨h, reading, sent.pkt, hbefore, hinput, rfl, hfresh, hwhy⟩, ?_⟩
      rintro ⟨h₁, reading₁, pkt₁, hbefore₁, hinput₁, -, -, -, hclosed⟩
      obtain rfl := Fib.running.inj (hbefore.symm.trans hbefore₁)
      obtain ⟨rfl, rfl⟩ := FibEvent.packet.inj (hinput.symm.trans hinput₁)
      rw [output_of_marks hv hbefore hinput hfresh hwhy] at hsent
      rw [hclosed sent (List.mem_filter.1 hsent).1] at haccepts
      cases haccepts

end Turn

/-- A guid is marked by one turn of a run at most. -/
theorem marks_pairwise : (Mealy.trace (handingStep bindingTable) .initial turns).Pairwise
    fun v w => ∀ guid, Marks v guid → ¬ Marks w guid := by
  have hextends : (Mealy.trace (handingStep bindingTable) .initial turns).Pairwise fun v w =>
      Extends (handingStep bindingTable v.before v.input).1 w.before :=
    @Mealy.trace_pairwise _ _ _ (handingStep bindingTable) _ extends_refl extends_trans
      (fun s input => extends_step s input.1) _ _
  refine hextends.imp ?_
  rintro v w hextends guid hmarks ⟨h, reading, pkt, hbefore, hinput, rfl, hfresh, -⟩
  obtain ⟨h₁, hnext, -, hprocessed⟩ := hextends h hbefore
  obtain ⟨h₀, -, hiff⟩ := handingStep_running hnext v.output pkt.guid
  exact hfresh (hprocessed (hiff.2 (.inr hmarks)))

/-- Of every copy that a run discards, an earlier turn has handed one over. -/
def DiscardsHanded (bindingTable : BindingTable) (turns : List (FibEvent Tx × (Sent Tx → Bool))) :
    Prop :=
  ∀ before w after, Mealy.trace (handingStep bindingTable) .initial turns = before ++ w :: after →
    ∀ guid, Discards w guid → ∃ v ∈ before, Hands v guid

/-- **Main result.**  Every discarded copy has been handed over before if and only if no turn
of the run discards a copy of a packet that an earlier turn has wasted. -/
theorem discardsHanded_iff (bindingTable : BindingTable)
    (turns : List (FibEvent Tx × (Sent Tx → Bool))) :
    DiscardsHanded bindingTable turns ↔
    ∀ before w after, Mealy.trace (handingStep bindingTable) .initial turns =
      before ++ w :: after → ∀ guid, ∀ v ∈ before, Wastes v guid → ¬ Discards w guid := by
  have houtput {before after : List (HandingTurn Tx)} {w v : HandingTurn Tx}
      (htrace : Mealy.trace (handingStep bindingTable) .initial turns = before ++ w :: after)
      (hv : v ∈ before) : v.output = (handingStep bindingTable v.before v.input).2 :=
    Mealy.output_of_mem_trace (htrace ▸ List.mem_append_left _ hv)
  constructor
  · intro hhanded before w after htrace guid v hv hwastes hdiscards
    obtain ⟨u, hu, hands⟩ := hhanded before w after htrace guid hdiscards
    obtain ⟨hmarks, hno⟩ := marks_of_hands (houtput htrace hu) hands
    have hmarks' : Marks v guid := by
      obtain ⟨h, reading, pkt, hbefore, hinput, hguid, hfresh, hwhy, -⟩ := hwastes
      exact ⟨h, reading, pkt, hbefore, hinput, hguid, hfresh, hwhy⟩
    -- both turns mark the guid, so they are one
    have hone : (Mealy.trace (handingStep bindingTable) .initial turns).Pairwise _ := marks_pairwise
    rw [htrace, List.pairwise_append] at hone
    by_cases heq : u = v
    · exact hno (heq ▸ hwastes)
    · have : Std.Symm fun x y : HandingTurn Tx => ¬ (Marks x guid ∧ Marks y guid) :=
        ⟨fun x y hxy hyx => hxy hyx.symm⟩
      have htwo : before.Pairwise fun x y => ¬ (Marks x guid ∧ Marks y guid) :=
        hone.1.imp fun hxy hboth => hxy guid hboth.1 hboth.2
      exact htwo.forall hu hv heq ⟨hmarks, hmarks'⟩
  · intro hwasted before w after htrace guid hdiscards
    have hdiscards' := hdiscards
    obtain ⟨h, reading, pkt, hbefore, -, -, hprocessed, -⟩ := hdiscards
    obtain ⟨pre, post, -, rfl, hfinal⟩ := Mealy.trace_eq_append_cons htrace
    obtain ⟨h₀, hinitial, hiff⟩ := mem_processed_iff_marks (hfinal.symm.trans hbefore) guid
    obtain rfl := Fib.running.inj hinitial
    obtain ⟨v, hv, hmarks⟩ : ∃ v ∈ Mealy.trace (handingStep bindingTable) .initial pre,
        Marks v guid := (hiff.1 hprocessed).resolve_left (Finset.notMem_empty guid)
    exact ⟨v, hv, hands_of_marks (houtput htrace hv) hmarks fun hwastes =>
      hwasted _ w after htrace guid v hv hwastes hdiscards'⟩

end Run

/-- A subscriber whose queue is closed, a Forward, a second subscriber, and a copy of the
Forward. -/
def sampleWaste : List (FibEvent Nat × (Sent Nat → Bool)) :=
  [(.update sampleSubscriber, fun _ => true),
    (.packet ⟨5, some "eth0"⟩ sampleForward, fun sent => sent.dst.tx != 7),
    (.update (rosTopicRemoteSubscriberUpdate (sampleName 1) "/chatter" 8), fun _ => true),
    (.packet ⟨6, some "eth0"⟩ sampleForward, fun sent => sent.dst.tx != 7)]

/-- The copy is thrown away although nobody has got the Forward. -/
theorem wasted_copy_discarded : ¬ DiscardsHanded none sampleWaste := by
  intro hhanded
  have hnone : ∀ v ∈ Mealy.trace (handingStep none) .initial (sampleWaste.take 3),
      v.output = [] := by decide
  obtain ⟨v, hv, sent, hsent, -⟩ := hhanded
    (Mealy.trace (handingStep none) .initial (sampleWaste.take 3)) _ [] rfl sampleForward.guid
    ⟨_, _, _, rfl, rfl, rfl, by decide, .inl rfl⟩
  rw [hnone v hv] at hsent
  cases hsent

end FibHandler

end RtFogros
