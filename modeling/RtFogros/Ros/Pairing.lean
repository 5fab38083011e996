import RtFogros.Ros.ServiceClient

/-!
# Which response answers which call

`handle_remote_ros_service` does not compare guids: a call is answered with the first packet of its
topic's queue.  The answers of a run are therefore those of the calls exactly as long as no foreign
response comes first in the queue of a waiting call, neither at the moment the call is taken nor
when the FIB delivers one to an empty queue.

`answers_right` has both halves: where every step meets its condition every answer is right, and
the run up to a step that does not can be followed by a wrong one, when the waiting task goes on
next.  `HeadsMatch` is the invariant, on the first packets of the queues alone; what waits behind
them is compared when it comes first.
-/

namespace RtFogros

open FibHandler

/-- The answer is the payload of the Response to the call's own Request. -/
structure Answer.Right (answer : Answer) : Prop where
  action : answer.packet.action = .response
  guid : answer.packet.guid = some answer.requestGuid
  payload : answer.packet.payload = some answer.response

namespace ServiceClient

/-- The FIB handler is about to send a Response on the channel. -/
def Forwards (c : ServiceClient) (reading : Reading) (pkt : GDPPacket) (tx : Nat) : Prop :=
  ∃ h, c.fib = .running h ∧ h.TakesResponse reading pkt ∧
    ∃ dst ∈ h.receiversOf pkt.gdpname, dst.state = .running ∧
      dst.connectionType = .responseReceiver ∧ dst.tx = tx

/-- What a step needs for the next answer to be right. -/
def Meets (digest : Bytes → Vector UInt8 4) (c : ServiceClient) : ClientEvent → Prop
  | .fibPacket reading =>
    ∀ pkt topic tx guid, c.fibRx.head? = some pkt → c.rosRx topic = some tx →
      c.phase topic = .waiting guid → c.queue tx = [] → c.Forwards reading pkt tx →
      pkt.payload.isSome → pkt.guid = some guid
  | .call topic requestId _ =>
    ∀ pkt tx h, c.rosRx topic = some tx → c.phase topic = .idle → c.fib = .running h →
      (c.queue tx).head? = some pkt → pkt.payload.isSome →
      pkt.guid = some (generateGdpNameFromString digest requestId)
  | _ => True

/-- The first packet of a waiting call's queue answers it. -/
def HeadsMatch (c : ServiceClient) : Prop :=
  ∀ pkt topic tx guid, c.rosRx topic = some tx → c.phase topic = .waiting guid →
    (c.queue tx).head? = some pkt → pkt.payload.isSome → pkt.guid = some guid

section Steps

variable {digest : Bytes → Vector UInt8 4} {uniqueRosNodeGdpName : GDPName}
  {bindingTable : BindingTable} {c : ServiceClient}

/-! ## Answers -/

theorem respond_eq {topic : GDPName} {tx : Nat} {guid : GDPName} (htx : c.rosRx topic = some tx)
    (hphase : c.phase topic = .waiting guid) {packet : GDPPacket}
    (hhead : (c.queue tx).head? = some packet) {response : Bytes}
    (hpayload : packet.payload = some response) :
    (c.respond topic).2 = some ⟨topic, guid, packet, response⟩ := by
  obtain ⟨rest, hqueue⟩ := List.head?_eq_some_iff.1 hhead
  simp only [respond, htx, hphase, hqueue, hpayload]

theorem exists_of_respond {topic : GDPName} {answer : Answer}
    (hanswer : (c.respond topic).2 = some answer) :
    ∃ tx, c.rosRx topic = some tx ∧ c.phase topic = .waiting answer.requestGuid ∧
      (c.queue tx).head? = some answer.packet ∧ answer.packet.payload = some answer.response := by
  unfold respond at hanswer
  split at hanswer
  · rename_i tx guid htx hphase
    split at hanswer
    · cases hanswer
    · rename_i packet rest hqueue
      dsimp only at hanswer
      split at hanswer
      · cases hanswer
      · rename_i response hpayload
        cases hanswer
        exact ⟨tx, htx, hphase, by rw [hqueue]; rfl, hpayload⟩
  · cases hanswer

theorem right_of_headsMatch (hc : c.Wired) (hheads : c.HeadsMatch) {topic : GDPName}
    {answer : Answer} (hanswer : (c.respond topic).2 = some answer) : answer.Right := by
  obtain ⟨tx, htx, hphase, hhead, hpayload⟩ := exists_of_respond hanswer
  refine ⟨?_, ?_, hpayload⟩
  · exact (hc.queue tx _ (List.mem_of_mem_head? hhead)).2 ⟨topic, htx⟩
  · apply hheads _ topic tx _ htx hphase hhead
    exact Option.isSome_of_eq_some hpayload

/-- A waiting call whose queue begins with a foreign response gets a wrong answer. -/
theorem wrong_of_head {topic : GDPName} {tx : Nat} {guid : GDPName} (htx : c.rosRx topic = some tx)
    (hphase : c.phase topic = .waiting guid) {packet : GDPPacket}
    (hhead : (c.queue tx).head? = some packet) (hpayload : packet.payload.isSome)
    (hguid : packet.guid ≠ some guid) :
    ∃ answer, (c.respond topic).2 = some answer ∧ ¬ answer.Right := by
  obtain ⟨response, hresponse⟩ := Option.isSome_iff_exists.1 hpayload
  exact ⟨_, respond_eq htx hphase hhead hresponse, fun hright => hguid hright.guid⟩

/-! ## What the FIB delivers -/

variable (bindingTable) in
theorem sent_of_forwards {reading : Reading} {pkt : GDPPacket} {tx : Nat}
    (hforwards : c.Forwards reading pkt tx) :
    ∃ sent ∈ (Fib.step bindingTable c.fib (.packet reading pkt)).2.sends,
      sent.dst.tx = tx ∧ sent.pkt = pkt := by
  obtain ⟨h, hfib, htakes, dst, hdst, hstate, htype, htx⟩ := hforwards
  obtain ⟨slot, hslot⟩ := List.mem_iff_getElem?.1 hdst
  refine ⟨sendTo pkt (dst, slot), ?_, htx, rfl⟩
  have hsends := packetArm_takes htakes ""
  rw [hfib, Fib.step, hsends, mem_serve, htakes.action]
  exact ⟨_, List.mk_mem_zipIdx_iff_getElem?.2 hslot, ⟨hstate, htype⟩, rfl⟩

theorem forwards_of_sent (hc : c.Wired) {reading : Reading} {pkt : GDPPacket} {sent : Sent Nat}
    (hsent : sent ∈ (Fib.step bindingTable c.fib (.packet reading pkt)).2.sends)
    (hservice : c.IsServiceChannel sent.dst.tx) : c.Forwards reading pkt sent.dst.tx := by
  rcases hfib : c.fib with h | _
  · rw [hfib] at hsent
    have haction := (hc.sent hfib hsent).2 hservice
    have htakes := takesResponse_of_sends haction (List.ne_nil_of_mem hsent)
    obtain ⟨entry, hentry, hserved, rfl⟩ :=
      mem_serve.1 ((packetArm_sublist h reading pkt).subset hsent)
    rw [haction] at hserved
    exact ⟨h, hfib, htakes, entry.1, List.fst_mem_of_mem_zipIdx hentry, hserved.1, hserved.2, rfl⟩
  · rw [hfib] at hsent
    cases hsent

/-- The packets a turn of the FIB adds to a channel are all the one it handles. -/
theorem mem_delivered {reading : Reading} {pkt p : GDPPacket} {tx : Nat}
    (hp : p ∈ ((Fib.step bindingTable c.fib (.packet reading pkt)).2.sends.filter
      (·.dst.tx = tx)).map (·.pkt)) :
    p = pkt ∧ ∃ sent ∈ (Fib.step bindingTable c.fib (.packet reading pkt)).2.sends,
      sent.dst.tx = tx := by
  obtain ⟨sent, hsent, rfl⟩ := List.mem_map.1 hp
  obtain ⟨hsent, htx⟩ := List.mem_filter.1 hsent
  refine ⟨?_, sent, hsent, of_decide_eq_true htx⟩
  rcases hfib : c.fib with h | _
  · rw [hfib] at hsent
    exact packetArm_pkt hsent
  · rw [hfib] at hsent
    cases hsent

/-! ## One step -/

theorem headsMatch_fibTurn (hc : c.Wired) (hheads : c.HeadsMatch) {reading : Reading}
    {pkt : GDPPacket}
    (hmeets : ∀ topic tx guid, c.rosRx topic = some tx → c.phase topic = .waiting guid →
      c.queue tx = [] → c.Forwards reading pkt tx → pkt.payload.isSome → pkt.guid = some guid) :
    (c.fibTurn bindingTable (.packet reading pkt)).HeadsMatch := by
  intro p topic tx guid htx hphase hhead hpayload
  rcases hqueue : c.queue tx with _ | ⟨first, rest⟩
  · unfold fibTurn at hhead
    dsimp only at hhead
    rw [hqueue, List.nil_append] at hhead
    obtain ⟨rfl, sent, hsent, hsentTx⟩ := mem_delivered (List.mem_of_mem_head? hhead)
    have hforwards := forwards_of_sent hc hsent ⟨topic, hsentTx ▸ htx⟩
    rw [hsentTx] at hforwards
    exact hmeets topic tx guid htx hphase hqueue hforwards hpayload
  · unfold fibTurn at hhead
    dsimp only at hhead
    rw [hqueue] at hhead
    exact hheads p topic tx guid htx hphase (by rw [hqueue]; exact hhead) hpayload

theorem headsMatch_setPhase (hheads : c.HeadsMatch) (topic : GDPName) {phase : ServicePhase}
    (hphase : ∀ guid tx pkt, phase = .waiting guid → c.rosRx topic = some tx →
      (c.queue tx).head? = some pkt → pkt.payload.isSome → pkt.guid = some guid) :
    (c.setPhase topic phase).HeadsMatch := by
  intro p topic' tx guid htx hphase' hhead hpayload
  by_cases htopic : topic' = topic
  · subst htopic
    unfold setPhase at hphase'
    dsimp only at hphase'
    rw [Function.update_self] at hphase'
    exact hphase guid tx p hphase' htx hhead hpayload
  · unfold setPhase at hphase'
    dsimp only at hphase'
    rw [Function.update_of_ne htopic] at hphase'
    exact hheads p topic' tx guid htx hphase' hhead hpayload

/-- A call that takes the first packet of its queue waits no longer. -/
theorem headsMatch_pop (hc : c.Wired) (hheads : c.HeadsMatch) {topic : GDPName} {tx : Nat}
    (hrosRx : c.rosRx topic = some tx) (rest : List GDPPacket) {phase : ServicePhase}
    (hphase : ∀ guid, phase ≠ .waiting guid) :
    ({ c with queue := Function.update c.queue tx rest }.setPhase topic phase).HeadsMatch := by
  intro p topic' tx' guid htx hphase' hhead hpayload
  unfold setPhase at htx hphase' hhead
  dsimp only at htx hphase' hhead
  by_cases htopic : topic' = topic
  · subst htopic
    rw [Function.update_self] at hphase'
    exact absurd hphase' (hphase guid)
  · rw [Function.update_of_ne htopic] at hphase'
    have hne : tx' ≠ tx := by
      rintro rfl
      exact htopic (hc.distinct htx hrosRx)
    rw [Function.update_of_ne hne] at hhead
    exact hheads p topic' tx' guid htx hphase' hhead hpayload

theorem headsMatch_step (hc : c.Wired) (hheads : c.HeadsMatch) {event : ClientEvent}
    (hmeets : c.Meets digest event) :
    (c.step digest uniqueRosNodeGdpName bindingTable event).1.HeadsMatch := by
  cases event with
  | status request =>
    unfold step status
    dsimp only
    split
    · exact hheads
    · split
      · exact hheads
      · intro p topic tx guid htx hphase hhead hpayload
        dsimp only at htx hphase
        by_cases htopic : topic =
          getGdpNameFromTopic digest request.topicName request.topicType request.certificate
        · rw [htopic, Function.update_self] at hphase
          cases hphase
        · rw [Function.update_of_ne htopic] at hphase htx
          exact hheads p topic tx guid htx hphase hhead hpayload
  | call topic requestId message =>
    rw [step, call]
    split
    · rename_i tx hrosRx hidle
      dsimp only
      split
      · exact headsMatch_setPhase hheads topic fun guid tx pkt hphase => by cases hphase
      · rename_i h hfib
        apply headsMatch_setPhase hheads topic
        intro guid tx pkt hphase htx hhead hpayload
        cases hphase
        exact hmeets pkt tx h htx hidle hfib hhead hpayload
    · exact hheads
  | respond topic =>
    rw [step, respond]
    split
    · rename_i tx guid hrosRx hwaiting
      split
      · exact hheads
      · rename_i packet rest hqueue
        dsimp only
        split
        · exact headsMatch_pop hc hheads hrosRx rest fun guid h => by cases h
        · exact headsMatch_pop hc hheads hrosRx rest fun guid h => by cases h
    · exact hheads
  | timeout topic =>
    unfold step timeout
    dsimp only
    split
    · exact headsMatch_setPhase hheads topic fun guid tx pkt hphase => by cases hphase
    · exact hheads
  | network pkt => exact hheads
  | connect update => exact hheads
  | fibPacket reading =>
    rw [step]
    split
    · exact hheads
    · rename_i pkt fibRx hfibRx
      have hc' : Wired { c with fibRx } := hc.of_queue rfl rfl (fun _ h => h) rfl fun _ _ h => h
      apply headsMatch_fibTurn hc' hheads
      intro topic tx guid htx hphase hqueue hforwards
      exact hmeets pkt topic tx guid (by rw [hfibRx]; rfl) htx hphase hqueue hforwards
  | fibUpdate =>
    rw [step]
    split
    · exact hheads
    · rename_i update channelRx _
      intro p topic tx guid htx hphase hhead hpayload
      unfold fibTurn at hhead
      dsimp only at hhead
      rw [fib_sends_update, List.filter_nil, List.map_nil, List.append_nil] at hhead
      exact hheads p topic tx guid htx hphase hhead hpayload

variable (uniqueRosNodeGdpName bindingTable) in
/-- After a step that does not meet its condition, the next answer is wrong. -/
theorem wrong_of_not_meets {event : ClientEvent} (hmeets : ¬ c.Meets digest event) :
    ∃ topic answer,
      ((c.step digest uniqueRosNodeGdpName bindingTable event).1.respond topic).2 = some answer ∧
        ¬ answer.Right := by
  cases event with
  | fibPacket reading =>
    simp only [Meets, not_forall] at hmeets
    obtain ⟨pkt, topic, tx, guid, hhead, htx, hphase, hqueue, hforwards, hpayload, hguid⟩ := hmeets
    obtain ⟨fibRx, hfibRx⟩ := List.head?_eq_some_iff.1 hhead
    have hforwards' : Forwards { c with fibRx } reading pkt tx := hforwards
    have hfirst : ((fibTurn bindingTable { c with fibRx } (.packet reading pkt)).queue tx).head? =
        some pkt := by
      obtain ⟨sent, hsent, hsentTx, -⟩ := sent_of_forwards bindingTable hforwards'
      have hsentHere : sent ∈ (Fib.step bindingTable c.fib (.packet reading pkt)).2.sends.filter
          (·.dst.tx = tx) := List.mem_filter.2 ⟨hsent, decide_eq_true hsentTx⟩
      have hmem := List.mem_map_of_mem (f := (·.pkt)) hsentHere
      obtain ⟨p, later, hdelivered⟩ := List.exists_cons_of_ne_nil (List.ne_nil_of_mem hmem)
      have hp := mem_delivered (hdelivered ▸ List.mem_cons_self)
      unfold fibTurn
      dsimp only
      rw [hqueue, List.nil_append, hdelivered, hp.1]
      rfl
    refine ⟨topic, ?_⟩
    unfold step
    rw [hfibRx]
    exact wrong_of_head (c := fibTurn bindingTable { c with fibRx } (.packet reading pkt)) htx
      hphase hfirst hpayload hguid
  | call topic requestId message =>
    simp only [Meets, not_forall] at hmeets
    obtain ⟨pkt, tx, h, htx, hphase, hfib, hhead, hpayload, hguid⟩ := hmeets
    refine ⟨topic, ?_⟩
    rw [step, call, htx, hphase]
    dsimp only
    rw [hfib]
    exact wrong_of_head htx (Function.update_self ..) (hhead : _ = some pkt) hpayload hguid
  | _ => exact absurd trivial hmeets

/-! ## Runs -/

variable (digest uniqueRosNodeGdpName bindingTable)

/-- Every step of a run meets its condition. -/
def Matched (c : ServiceClient) (events : List ClientEvent) : Prop :=
  ∀ turn ∈ Mealy.trace (step digest uniqueRosNodeGdpName bindingTable) c events,
    turn.before.Meets digest turn.input

variable {digest uniqueRosNodeGdpName bindingTable}

theorem right_of_matched {events : List ClientEvent} (hc : c.Wired) (hheads : c.HeadsMatch)
    (hmatched : Matched digest uniqueRosNodeGdpName bindingTable c events) :
    ∀ answer ∈
        (Mealy.outputs (step digest uniqueRosNodeGdpName bindingTable) c events).filterMap id,
      answer.Right := by
  induction events generalizing c with
  | nil => intro answer hanswer; cases hanswer
  | cons event events ih =>
    obtain ⟨hmeets, hlater⟩ := List.forall_mem_cons.1 hmatched
    have hrest := ih (wired_step c event hc) (headsMatch_step hc hheads hmeets) hlater
    intro answer hanswer
    rw [Mealy.outputs_cons, List.filterMap_cons] at hanswer
    split at hanswer
    · exact hrest answer hanswer
    · rename_i first hfirst
      rcases List.mem_cons.1 hanswer with rfl | hanswer
      · cases event with
        | respond topic => exact right_of_headsMatch hc hheads hfirst
        | fibPacket => rw [step] at hfirst; split at hfirst <;> cases hfirst
        | fibUpdate => rw [step] at hfirst; split at hfirst <;> cases hfirst
        | _ => cases hfirst
      · exact hrest answer hanswer

/-- **Main result.**  When every step of a run meets its condition, every answer is
the response to its own call; when some step does not, the run up to that step can be
followed by a wrong answer. -/
theorem answers_right (digest : Bytes → Vector UInt8 4) (uniqueRosNodeGdpName : GDPName)
    (bindingTable : BindingTable) (events : List ClientEvent) :
    (Matched digest uniqueRosNodeGdpName bindingTable {} events →
      ∀ answer ∈ answers digest uniqueRosNodeGdpName bindingTable events, answer.Right) ∧
    (¬ Matched digest uniqueRosNodeGdpName bindingTable {} events →
      ∃ pre topic, pre <+: events ∧
        ∃ answer ∈ answers digest uniqueRosNodeGdpName bindingTable (pre ++ [.respond topic]),
          ¬ answer.Right) := by
  constructor
  · intro hmatched
    refine right_of_matched wired_initial ?_ hmatched
    intro pkt topic tx guid htx
    cases htx
  · intro hmatched
    simp only [Matched, not_forall] at hmatched
    obtain ⟨turn, hturn, hmeets⟩ := hmatched
    obtain ⟨pre, post, hevents, hbefore⟩ := Mealy.exists_split_of_mem_trace hturn
    obtain ⟨topic, answer, hanswer, hwrong⟩ := wrong_of_not_meets
      uniqueRosNodeGdpName bindingTable hmeets
    refine ⟨pre ++ [turn.input], topic, ⟨post, by rw [hevents]; simp⟩, answer, ?_, hwrong⟩
    unfold answers
    rw [Mealy.outputs_append, List.filterMap_append, List.mem_append,
      Mealy.final_append, ← hbefore]
    right
    refine List.mem_filterMap.2 ⟨some answer, ?_, rfl⟩
    exact List.mem_singleton.2 hanswer.symm

end Steps

def sampleDigest (bytes : Bytes) : Vector UInt8 4 :=
  if bytes.length = 64 then #v[107, 130, 168, 35] else #v[14, 66, 41, 194]

def sampleService : TopicManagerRequest :=
  { action := .add, topicName := "/add_two_ints", topicType := "example_interfaces/srv/AddTwoInts",
    certificate := [] }

def sampleServiceName : GDPName := ⟨#v[14, 66, 41, 194]⟩

/-- A call whose wait meets the response to another machine's call. -/
def foreignResponse : List ClientEvent :=
  [.status sampleService, .fibUpdate,
    .call sampleServiceName
      "rmw_request_id_t \x7b writer_guid: [1, 15, 0], sequence_number: 1 \x7d" [1],
    .fibPacket ⟨5, some "eth0"⟩,
    .network (constructGdpResponseWithGuid sampleServiceName (sampleName 4) [43] (sampleName 3)),
    .fibPacket ⟨9, some "eth0"⟩, .respond sampleServiceName]

theorem foreignResponse_answered :
    ¬ ∀ answer ∈ answers sampleDigest (sampleName 2) none foreignResponse, answer.Right := by
  intro hright
  have hguids : (answers sampleDigest (sampleName 2) none foreignResponse).map
      (fun answer => decide (answer.packet.guid = some answer.requestGuid)) = [false] := by
    decide +kernel
  obtain ⟨answer, hanswers, hguid⟩ := List.map_eq_singleton_iff.1 hguids
  rw [hanswers, List.forall_mem_singleton] at hright
  exact of_decide_eq_false hguid hright.guid

end ServiceClient

end RtFogros
