import RtFogros.Fib.Abort

/-!
# Copies of a request

A Request does not enter `processed_requests` and `sent_requests_by_interface` stays empty, so
nothing stops a second copy of a request: an entry gets it at most once exactly when no two turns
route a new copy of it to that entry (`requestsAtMostOnce_iff`).

`Routes` is the condition of a turn, on its packet, the table and the processed guids before it.
Within one turn an entry is sent a packet once, since the entries of a topic are told apart by
their index; so only two turns can send it twice.
-/

namespace RtFogros

namespace FibHandler

variable {Tx : Type} {bindingTable : BindingTable}

def requestSends (output : FibOutput Tx) : List (Sent Tx) :=
  output.sends.filter (·.pkt.action = .request)

/-- Over the whole run, no request guid is sent twice on one entry. -/
def RequestsAtMostOnce (bindingTable : BindingTable) (events : List (FibEvent Tx)) : Prop :=
  ∀ guid topic slot,
    (((Mealy.outputs (Fib.step bindingTable) .initial events).flatMap requestSends).map
      sendKey).count (guid, topic, slot) ≤ 1

/-- The turn meets a Request that is not processed and is routed to an entry. -/
def Routes (turn : Turn Tx) (key : SendKey) : Prop :=
  ∃ h reading req d dst, turn.before = .running h ∧ turn.input = .packet reading req ∧
    req.action = .request ∧ req.guid = key.1 ∧ req.gdpname = key.2.1 ∧
    req.guid ∉ h.processedRequests ∧ reading.defaultInterface = some d ∧
    (h.receiversOf req.gdpname)[key.2.2]? = some dst ∧ Served d .request (dst, key.2.2)

def turnKeys (turn : Turn Tx) : List SendKey := turn.keys (· = .request)

section Turn

variable {events : List (FibEvent Tx)} {turn : Turn Tx}
  (hturn : turn ∈ Mealy.trace (Fib.step bindingTable) .initial events)

include hturn

theorem routes_of_mem_turnKeys {key : SendKey} (hkey : key ∈ turnKeys turn) :
    Routes turn key := by
  obtain ⟨h, reading, req, sent, hbefore, hinput, hrequest, hsent, rfl⟩ :=
    (Turn.mem_keys hturn).1 hkey
  have haction : req.action = .request := of_decide_eq_true hrequest
  obtain ⟨hfresh, d, hd, hserve⟩ := packetArm_request_sends haction hsent
  obtain ⟨⟨dst, slot⟩, hentry, hserved, rfl⟩ := mem_serve.1 hserve
  rw [haction] at hserved
  exact ⟨h, reading, req, d, dst, hbefore, hinput, haction, rfl, rfl, hfresh, hd,
    List.mk_mem_zipIdx_iff_getElem?.1 hentry, hserved⟩

/-- A routed request is sent if the turn does not stop the handler. -/
theorem mem_turnKeys_of_routes {key : SendKey} (hroutes : Routes turn key)
    (hrun : ∃ h', (Fib.step bindingTable turn.before turn.input).1 = .running h') :
    key ∈ turnKeys turn := by
  obtain ⟨guid, topic, slot⟩ := key
  obtain ⟨h, reading, req, d, dst, hbefore, hinput, haction, hguid, hname, hfresh, hd, hdst,
    hserved⟩ := hroutes
  obtain ⟨h', hrun⟩ := hrun
  rw [hbefore, hinput] at hrun
  have hsends : (h.packetArm reading req).2.sends = h.serve d req :=
    packetArm_complete hfresh hd hrun
  refine (Turn.mem_keys hturn).2
    ⟨h, reading, req, sendTo req (dst, slot), hbefore, hinput, decide_eq_true haction, ?_, ?_⟩
  · rw [hsends]
    exact mem_serve.2 ⟨_, List.mk_mem_zipIdx_iff_getElem?.2 hdst, by rwa [haction], rfl⟩
  · unfold sendKey sendTo
    rw [hguid, hname]

theorem running_of_routes {key : SendKey} (hroutes : Routes turn key)
    (hguid : key.1.isSome) :
    ∃ h', (Fib.step bindingTable turn.before turn.input).1 = .running h' := by
  obtain ⟨h, reading, req, d, dst, hbefore, hinput, haction, hkey, -⟩ := hroutes
  have hregistered := Mealy.trace_invariant tableRegistered_step tableRegistered_initial events
    turn hturn
  rw [hbefore, hinput]
  refine (packetArm_safe_iff (by rwa [hkey]) fun dst hdst =>
    (hregistered h hbefore _ dst hdst).interface).2 fun hresponse => ?_
  rw [haction] at hresponse
  cases hresponse

theorem guid_of_mem_turnKeys {key : SendKey} (hkey : key ∈ turnKeys turn)
    (hrun : ∃ h', (Fib.step bindingTable turn.before turn.input).1 = .running h') :
    key.1.isSome := by
  obtain ⟨h, reading, req, sent, hbefore, hinput, hrequest, hsent, rfl⟩ :=
    (Turn.mem_keys hturn).1 hkey
  have haction : req.action = .request := of_decide_eq_true hrequest
  obtain ⟨h', hrun⟩ := hrun
  rw [hbefore, hinput] at hrun
  unfold sendKey
  rw [packetArm_pkt hsent]
  apply packetArm_request_guid haction hrun
  exact List.ne_nil_of_mem hsent

end Turn

theorem sent_of_routes {events : List (FibEvent Tx)} {v w : Turn Tx}
    (hv : v ∈ Mealy.trace (Fib.step bindingTable) .initial events)
    (hw : w ∈ Mealy.trace (Fib.step bindingTable) .initial events)
    (hextends : Extends (Fib.step bindingTable v.before v.input).1 w.before)
    {key : SendKey} (hroutes : Routes v key) (hagain : Routes w key) :
    key ∈ turnKeys v ∧ key ∈ turnKeys w := by
  obtain ⟨h', hnext⟩ : ∃ h', (Fib.step bindingTable v.before v.input).1 = .running h' := by
    obtain ⟨h, _, _, _, _, hbefore, -⟩ := hagain
    obtain ⟨h', hnext, -⟩ := hextends h hbefore
    exact ⟨h', hnext⟩
  have hsent := mem_turnKeys_of_routes hv hroutes ⟨h', hnext⟩
  have hguid := guid_of_mem_turnKeys hv hsent ⟨h', hnext⟩
  exact ⟨hsent, mem_turnKeys_of_routes hw hagain (running_of_routes hw hagain hguid)⟩

/-- **Main result.**  Every request is sent at most once on every entry if and only if
no two turns of the run route a copy of one request to the same entry. -/
theorem requestsAtMostOnce_iff (bindingTable : BindingTable) (events : List (FibEvent Tx)) :
    RequestsAtMostOnce bindingTable events ↔
      (Mealy.trace (Fib.step bindingTable) .initial events).Pairwise fun v w =>
        ∀ key, Routes v key → ¬ Routes w key := by
  have hkeys : ((Mealy.outputs (Fib.step bindingTable) .initial events).flatMap requestSends).map
      sendKey = (Mealy.trace (Fib.step bindingTable) .initial events).flatMap turnKeys := by
    unfold Mealy.outputs
    rw [List.flatMap_map, List.map_flatMap]
    rfl
  have hnodup : RequestsAtMostOnce bindingTable events ↔
      ((Mealy.trace (Fib.step bindingTable) .initial events).flatMap turnKeys).Nodup := by
    unfold RequestsAtMostOnce
    rw [hkeys, List.nodup_iff_count_le_one]
    exact ⟨fun h key => h key.1 key.2.1 key.2.2, fun h guid topic slot => h (guid, topic, slot)⟩
  rw [hnodup, List.nodup_flatMap]
  constructor
  · rintro ⟨-, hdisjoint⟩
    apply (hdisjoint.and (trace_extends events)).imp_of_mem
    rintro v w hv hw ⟨hdisjoint, hextends⟩ key hroutes hagain
    obtain ⟨hsent, hsent'⟩ := sent_of_routes hv hw hextends hroutes hagain
    exact hdisjoint hsent hsent'
  · intro hroutes
    refine ⟨fun turn hturn => Turn.keys_nodup hturn _, hroutes.imp_of_mem ?_⟩
    intro v w hv hw hno key hsent hsent'
    exact hno key (routes_of_mem_turnKeys hv hsent) (routes_of_mem_turnKeys hw hsent')

/-- The local service runs one request twice when two copies of it arrive. -/
theorem two_copies_sent_twice :
    ¬ RequestsAtMostOnce none
      ([.update (localRosServiceCallerUpdate (sampleName 1) "/add" 7),
        .packet ⟨5, some "eth0"⟩ sampleRequest,
        .packet ⟨6, some "eth0"⟩ sampleRequest] : List (FibEvent Nat)) := by
  intro honce
  have htwice := honce sampleRequest.guid sampleRequest.gdpname 0
  revert htwice
  decide

end FibHandler

end RtFogros
