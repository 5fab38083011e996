import RtFogros.Lib.Gapless
import RtFogros.Mesh.Flood

/-!
# Messages keep their order

Copies of the messages of a machine travel on all streams of their name, so they overtake each
other.  But a handler sends on the first copy of a message before that of the next one, and a
stream keeps the order: so no machine takes a message before it has taken those that were
published before it, whichever way each of them came.

`Ordered` says of every list of packets in the mesh, those that arrived at a handler and those that
were sent on a channel, that it has no copy of a message without one of each message before it.  A
step adds to the lists only what `Arrives` and `sent_step` say, so the invariant is kept by two
cases: a machine publishes the next message, or a copy is passed on.
-/

namespace RtFogros

open FibHandler Kcp

namespace Mesh

variable {Node : Type} [DecidableEq Node] {json : SerdeJson GDPHeaderInTransit}
  {recordJson : SerdeJson GDPNameRecord} {bindingTable : Node → BindingTable}
  {mesh : Mesh Node}

/-! ## What arrives at a handler -/

/-- The packets that a handler has taken and those that wait for it. -/
def arrivals (mesh : Mesh Node) (n : Node) : List GDPPacket :=
  (mesh.handled.filter (·.1 = n)).map (·.2.2) ++ (mesh.fibRx n).map Prod.snd

def guids (pkts : List GDPPacket) : List (Option GDPName) := pkts.map (·.guid)

theorem guids_append (pkts more : List GDPPacket) :
    guids (pkts ++ more) = guids pkts ++ guids more := List.map_append

theorem mem_guids {pkts : List GDPPacket} {guid : Option GDPName} :
    guid ∈ guids pkts ↔ ∃ pkt ∈ pkts, pkt.guid = guid := List.mem_map

/-- What is new at a handler after a step. -/
inductive Arrives (json : SerdeJson GDPHeaderInTransit) (mesh : Mesh Node) (n : Node) :
    MeshEvent Node → List GDPPacket → Prop where
  | nothing (event : MeshEvent Node) : Arrives json mesh n event []
  | published (pkt : GDPPacket) : Arrives json mesh n (.publish n pkt) [pkt]
  | read {i : Nat} {l : Link Node} (hl : mesh.links[i]? = some l) (hlead : l.lead = .handler n) :
      Arrives json mesh n (.read i) (l.read json).2

variable (json recordJson bindingTable mesh) in
theorem arrivals_step (n : Node) (event : MeshEvent Node) :
    ∃ more, Arrives json mesh n event more ∧
      (mesh.step json recordJson bindingTable event).arrivals n = mesh.arrivals n ++ more := by
  have hsame : ∀ {mesh' : Mesh Node}, mesh'.arrivals n = mesh.arrivals n → ∃ more,
      Arrives json mesh n event more ∧ mesh'.arrivals n = mesh.arrivals n ++ more :=
    fun heq => ⟨[], .nothing event, heq.trans (List.append_nil _).symm⟩
  cases event with
  | publish m pkt =>
    by_cases hm : n = m
    · subst hm
      refine ⟨[pkt], .published pkt, ?_⟩
      unfold arrivals
      rw [List.append_assoc]
      congr 1
      change (Function.update mesh.fibRx n (mesh.fibRx n ++ [(none, pkt)]) n).map _ = _
      rw [Function.update_self, List.map_append]
      rfl
    · refine hsame ?_
      unfold arrivals
      congr 2
      exact Function.update_of_ne hm ..
  | forward m reading =>
    change ∃ more, _ ∧ (mesh.forward bindingTable m reading).arrivals n = _
    obtain heq | ⟨tag, pkt, rest, hrx, hforward⟩ := mesh.forward_cases bindingTable m reading
    · exact hsame (congrArg (arrivals · n) heq)
    · refine hsame ?_
      rw [hforward]
      unfold arrivals
      dsimp only
      by_cases hm : n = m
      · subst hm
        rw [Function.update_self, hrx, List.filter_append, List.map_append, List.append_assoc]
        simp
      · rw [Function.update_of_ne hm, List.filter_append,
          List.filter_cons_of_neg (by simpa using Ne.symm hm), List.filter_nil, List.append_nil]
  | read i =>
    change ∃ more, _ ∧ (mesh.read json i).arrivals n = _
    obtain heq | ⟨l, hl, ⟨-, hread⟩ | ⟨m, hlead, hread⟩⟩ := mesh.read_cases json i
    · exact hsame (congrArg (arrivals · n) heq)
    · refine hsame ?_
      rw [hread]
      rfl
    · by_cases hm : n = m
      · subst hm
        refine ⟨_, .read hl hlead, ?_⟩
        rw [hread]
        unfold arrivals
        dsimp only
        rw [Function.update_self, List.map_append, List.map_map, ← List.append_assoc]
        congr 1
        exact List.map_id _
      · refine hsame ?_
        rw [hread]
        unfold arrivals
        dsimp only
        rw [Function.update_of_ne hm]
  | connect m update lead description => exact hsame rfl
  | take i randomName => exact hsame rfl
  | shut i => exact hsame rfl

theorem Flowing.arrivals_known (h : Flowing json recordJson bindingTable mesh) (n : Node) :
    ∀ pkt ∈ mesh.arrivals n, mesh.Known pkt := by
  intro pkt hpkt
  rcases List.mem_append.1 hpkt with hpkt | hpkt
  · obtain ⟨⟨m, tag, p⟩, hhandled, rfl⟩ := List.mem_map.1 hpkt
    obtain ⟨reading, hreading⟩ := h.traced.taken (List.mem_filter.1 hhandled).1
    exact h.traced.known hreading
  · obtain ⟨p, hp, rfl⟩ := List.mem_map.1 hpkt
    exact h.sound.rx_known n p hp

/-- What a link has delivered has arrived. -/
theorem Flowing.delivered_subset (h : Flowing json recordJson bindingTable mesh) {i : Nat}
    {l : Link Node} (hl : mesh.links[i]? = some l) {n : Node} (hlead : l.lead = .handler n) :
    l.delivered ⊆ mesh.arrivals n := by
  rw [← h.sound.arrived hl hlead]
  intro pkt hpkt
  rcases List.mem_append.1 hpkt with hpkt | hpkt
  · obtain ⟨⟨tag, p⟩, hp, rfl⟩ := List.mem_map.1 hpkt
    obtain ⟨hp, htag⟩ := List.mem_filter.1 hp
    obtain ⟨⟨m, entry⟩, hhandled, rfl⟩ := List.mem_map.1 hp
    obtain rfl : tag = some i := of_decide_eq_true htag
    have hm := h.traced.lead hhandled
    rw [List.getElem?_map, hl, Option.map_some, hlead] at hm
    obtain rfl := Lead.handler.inj (Option.some.inj hm)
    exact List.mem_append_left _
      (List.mem_map.2 ⟨_, List.mem_filter.2 ⟨hhandled, decide_eq_true rfl⟩, rfl⟩)
  · obtain ⟨p, hp, rfl⟩ := List.mem_map.1 hpkt
    exact List.mem_append_right _ (List.mem_map_of_mem (List.mem_filter.1 hp).1)

theorem Waits.mem_arrivals {n : Node} {pkt : GDPPacket} (h : Waits n pkt mesh) :
    pkt ∈ mesh.arrivals n := by
  rcases h with hrx | hhandled
  · exact List.mem_append_right _ (List.mem_map_of_mem hrx)
  · exact List.mem_append_left _
      (List.mem_map.2 ⟨_, List.mem_filter.2 ⟨hhandled, decide_eq_true rfl⟩, rfl⟩)

/-! ## What is sent on a channel -/

variable (json recordJson mesh) in
/-- A step sends copies of the packet that it takes. -/
theorem sent_step (i : Nat) (event : MeshEvent Node) :
    ∃ more, (mesh.step json recordJson bindingTable event).sent i = mesh.sent i ++ more ∧
      ∀ pkt ∈ more, ∃ n reading tag rest, event = .forward n reading ∧
        mesh.fibRx n = (tag, pkt) :: rest ∧ ∃ sent ∈ (Fib.step (bindingTable n)
          (mesh.log.states n) (.packet reading pkt)).2.sends, sent.dst.tx = i := by
  have hsame : ∀ {mesh' : Mesh Node}, mesh'.sent i = mesh.sent i → ∃ more,
      mesh'.sent i = mesh.sent i ++ more ∧ ∀ pkt ∈ more, ∃ n reading tag rest,
        event = .forward n reading ∧ mesh.fibRx n = (tag, pkt) :: rest ∧
        ∃ sent ∈ (Fib.step (bindingTable n)
          (mesh.log.states n) (.packet reading pkt)).2.sends, sent.dst.tx = i :=
    fun heq => ⟨[], heq.trans (List.append_nil _).symm, List.forall_mem_nil _⟩
  cases event with
  | connect m update lead description =>
    exact hsame (sent_connect json recordJson bindingTable mesh m update lead description i)
  | forward m reading =>
    change ∃ more, (mesh.forward bindingTable m reading).sent i = _ ∧ _
    obtain heq | ⟨tag, pkt, rest, hrx, -⟩ := mesh.forward_cases bindingTable m reading
    · exact hsame (congrArg (sent · i) heq)
    · refine ⟨_, sent_forward hrx reading i, ?_⟩
      intro p hp
      obtain rfl := eq_of_mem_sentOn hp
      obtain ⟨sent, hsent, -⟩ := List.mem_map.1 hp
      obtain ⟨hsent, htx⟩ := List.mem_filter.1 hsent
      exact ⟨m, reading, tag, rest, rfl, hrx, sent, hsent, of_decide_eq_true htx⟩
  | read j =>
    refine hsame ?_
    change (mesh.read json j).sent i = _
    unfold sent Network.queued Network.sends network
    rw [(mesh.read_log json j).1]
  | publish m pkt => exact hsame rfl
  | take j randomName => exact hsame rfl
  | shut j => exact hsame rfl

/-- A Forward packet is sent on the entries of its topic, while the handler runs. -/
theorem registered_of_sends (h : Sound json recordJson bindingTable mesh) {n : Node}
    {reading : Reading} {pkt : GDPPacket} (haction : pkt.action = .forward) {sent : Sent Nat}
    (hsent : sent ∈ (Fib.step (bindingTable n) (mesh.log.states n) (.packet reading pkt)).2.sends) :
    mesh.log.states n ≠ .aborted ∧
      sent.dst ∈ registered (bindingTable n) (mesh.log.inputs n) pkt.gdpname ∧
      sent.dst.connectionType = .receiver := by
  have hstate := (sound_network h).isLocal.state n
  change mesh.log.states n = Mealy.final _ _ (mesh.log.inputs n) at hstate
  cases hrunning : mesh.log.states n with
  | aborted =>
    rw [hrunning] at hsent
    cases hsent
  | running handler =>
    rw [hrunning] at hsent hstate
    obtain ⟨entry, hentry, hserved, rfl⟩ :=
      mem_serve.1 ((packetArm_sublist handler reading pkt).subset hsent)
    rw [receiversOf_final hstate.symm] at hentry
    rw [haction] at hserved
    exact ⟨nofun, List.fst_mem_of_mem_zipIdx hentry, hserved.2⟩

/-! ## Order -/

/-- No Forward packet shares its guid with another packet. -/
def DistinctGuids (mesh : Mesh Node) : Prop :=
  mesh.published.Pairwise fun p q => p.guid = q.guid → p.action ≠ .forward ∧ q.action ≠ .forward

/-- The Forward packets of the topic that a machine publishes. -/
def publishedAt (n : Node) (topic : GDPName) : MeshEvent Node → List GDPPacket
  | .publish m pkt =>
    if m = n ∧ pkt.action = .forward ∧ pkt.gdpname = topic then [pkt] else []
  | _ => []

/-- The messages that a machine has published for a topic, of which no list has a copy without
one of each message before it. -/
structure Ordered (n : Node) (topic : GDPName) (order : List GDPPacket) (mesh : Mesh Node) :
    Prop where
  published : ∀ pkt ∈ order, pkt ∈ mesh.published
  forward : ∀ pkt ∈ order, pkt.action = .forward ∧ pkt.gdpname = topic
  waits : ∀ pkt ∈ order, Waits n pkt mesh
  arrivals : ∀ m, Gapless (guids order) (guids (mesh.arrivals m))
  sent : ∀ i, Gapless (guids order) (guids (mesh.sent i))

theorem Ordered.start (n : Node) (topic : GDPName) : Ordered n topic [] (initial : Mesh Node) := by
  refine ⟨List.forall_mem_nil _, List.forall_mem_nil _, List.forall_mem_nil _, fun m => .nil,
    fun i => .nil⟩

omit [DecidableEq Node] in
theorem DistinctGuids.eq (h : mesh.DistinctGuids) {p pkt : GDPPacket} (hp : p ∈ mesh.published)
    (hpkt : pkt ∈ mesh.published) (haction : pkt.action = .forward) (hguid : p.guid = pkt.guid) :
    p = pkt := by
  by_contra hne
  have hsymm : Std.Symm fun p q : GDPPacket =>
      p.guid = q.guid → p.action ≠ .forward ∧ q.action ≠ .forward :=
    ⟨fun p q hpq hguid => (hpq hguid.symm).symm⟩
  exact (List.Pairwise.forall h hp hpkt hne hguid).2 haction

theorem DistinctGuids.of_step {event : MeshEvent Node}
    (h : (mesh.step json recordJson bindingTable event).DistinctGuids) : mesh.DistinctGuids := by
  unfold DistinctGuids at h
  rw [published_step] at h
  exact h.sublist (List.sublist_append_left ..)

/-- A machine that sends a message has sent those before it on the same channel. -/
theorem Ordered.sent_before {n : Node} {topic : GDPName} {order : List GDPPacket}
    (h : Ordered n topic order mesh) (hflowing : Flowing json recordJson bindingTable mesh)
    (hdistinct : mesh.DistinctGuids) {m : Node} {reading : Reading} {tag : Option Nat}
    {pkt : GDPPacket} {rest : List (Option Nat × GDPPacket)}
    (hrx : mesh.fibRx m = (tag, pkt) :: rest) {sent : Sent Nat}
    (hsent : sent ∈ (Fib.step (bindingTable m) (mesh.log.states m) (.packet reading pkt)).2.sends)
    {earlier later : List (Option GDPName)} (horder : guids order = earlier ++ pkt.guid :: later) :
    earlier ⊆ guids (mesh.sent sent.dst.tx) := by
  intro guid hguid
  have hunique : ∀ msg ∈ order, ∀ p ∈ mesh.published, p.guid = msg.guid → p = msg :=
    fun msg hmsg p hp => hdistinct.eq hp (h.published msg hmsg) (h.forward msg hmsg).1
  have hmem : ∀ guid ∈ earlier ++ pkt.guid :: later, ∃ msg ∈ order, msg.guid = guid :=
    fun guid hguid => mem_guids.1 (horder ▸ hguid)
  obtain ⟨msg, hmsg, hcopy⟩ := hmem pkt.guid (List.mem_append_right _ List.mem_cons_self)
  obtain ⟨first, hfirst, rfl⟩ := hmem guid (List.mem_append_left _ hguid)
  have hknown : mesh.Known pkt := hflowing.sound.rx_known m _ (hrx ▸ List.mem_cons_self)
  obtain ⟨description, rfl⟩ := hknown.copy (hunique msg hmsg) hcopy.symm
  obtain ⟨haction, htopic⟩ := h.forward msg hmsg
  have hforward : (received description msg).action = .forward := haction
  obtain ⟨hrunning, hdst, htype⟩ := registered_of_sends hflowing.sound hforward hsent
  -- the machine has taken the first message before this one
  have htaken : first.guid ∈ guids ((mesh.handled.filter (·.1 = m)).map (·.2.2)) := by
    refine h.arrivals m earlier _ later horder _ (guids (rest.map Prod.snd)) ?_ hguid
    unfold Mesh.arrivals
    rw [hrx, guids_append]
    rfl
  obtain ⟨p, hp, hguid⟩ := mem_guids.1 htaken
  obtain ⟨⟨m', tag', p'⟩, hentry, rfl⟩ := List.mem_map.1 hp
  obtain ⟨hhandled, hm⟩ := List.mem_filter.1 hentry
  obtain rfl : m' = m := of_decide_eq_true hm
  obtain ⟨haction', htopic'⟩ := h.forward first hfirst
  rw [show (received description msg).gdpname = first.gdpname from htopic.trans htopic'.symm]
    at hdst
  obtain ⟨d, hsent'⟩ := hflowing.sent_of_handled haction' (hunique first hfirst) hrunning hhandled
    hguid hdst htype
  exact mem_guids.2 ⟨_, hsent', rfl⟩

section Step

variable (hround : json.RoundTrips) (hnul : json.NoNul) (hbrace : json.OpensBrace) {n : Node}
  {topic : GDPName} {order : List GDPPacket} (h : Ordered n topic order mesh)
  (hflowing : Flowing json recordJson bindingTable mesh)

include h hflowing

/-- The next message of the order. -/
theorem Ordered.publish {pkt : GDPPacket}
    (hnew : ∀ p ∈ mesh.published, p.guid ≠ pkt.guid) (haction : pkt.action = .forward)
    (htopic : pkt.gdpname = topic) :
    Ordered n topic (order ++ [pkt])
      (mesh.step json recordJson bindingTable (.publish n pkt)) := by
  have hknown : ∀ p, mesh.Known p → p.guid ≠ pkt.guid := by
    rintro p ⟨-, q, hq, description, rfl⟩
    exact hnew q hq
  have horder : pkt.guid ∉ guids order := by
    intro hmem
    obtain ⟨msg, hmsg, hguid⟩ := mem_guids.1 hmem
    exact hnew msg (h.published msg hmsg) hguid
  have harrivals : ∀ m, pkt.guid ∉ guids (mesh.arrivals m) := by
    intro m hmem
    obtain ⟨p, hp, hguid⟩ := mem_guids.1 hmem
    exact hknown p (hflowing.arrivals_known m p hp) hguid
  have hguids : guids (order ++ [pkt]) = guids order ++ [pkt.guid] := guids_append ..
  refine ⟨?_, ?_, ?_, ?_, ?_⟩
  · exact List.forall_mem_append.2 ⟨fun p hp => List.mem_append_left _ (h.published p hp),
      List.forall_mem_singleton.2 (List.mem_append_right _ List.mem_cons_self)⟩
  · exact List.forall_mem_append.2 ⟨h.forward, List.forall_mem_singleton.2 ⟨haction, htopic⟩⟩
  · exact List.forall_mem_append.2 ⟨fun p hp => (h.waits p hp).step _,
      List.forall_mem_singleton.2 (waits_publish mesh n pkt)⟩
  · intro m
    obtain ⟨more, harrives, hmore⟩ :=
      arrivals_step json recordJson bindingTable mesh m (.publish n pkt)
    rw [hmore, hguids, guids_append]
    cases harrives with
    | nothing => exact (List.append_nil _).symm ▸ (h.arrivals m).order_concat (harrivals m)
    | published =>
      refine (h.arrivals n).extend horder (harrivals n) ?_
      intro guid hguid
      obtain ⟨msg, hmsg, rfl⟩ := mem_guids.1 hguid
      exact mem_guids.2 ⟨msg, (h.waits msg hmsg).mem_arrivals, rfl⟩
  · intro i
    rw [hguids]
    refine (h.sent i).order_concat ?_
    intro hmem
    obtain ⟨p, hp, hguid⟩ := mem_guids.1 hmem
    exact hknown p (hflowing.sound.sent_known i p hp) hguid

include hround hnul hbrace

/-- A step that publishes no message of the order. -/
theorem Ordered.pass (hdistinct : mesh.DistinctGuids) {event : MeshEvent Node}
    (hevent : Publishes event)
    (hother : ∀ p ∈ event.publications, ∀ msg ∈ order, p.guid ≠ msg.guid) :
    Ordered n topic order (mesh.step json recordJson bindingTable event) := by
  refine ⟨?_, h.forward, fun pkt hpkt => (h.waits pkt hpkt).step event, ?_, ?_⟩
  · intro pkt hpkt
    rw [published_step]
    exact List.mem_append_left _ (h.published pkt hpkt)
  · intro m
    obtain ⟨more, harrives, hmore⟩ := arrivals_step json recordJson bindingTable mesh m event
    rw [hmore, guids_append]
    cases harrives with
    | nothing => exact (List.append_nil _).symm ▸ h.arrivals m
    | published pkt =>
      refine (h.arrivals m).concat ?_
      intro earlier later horder
      obtain ⟨msg, hmsg, hguid⟩ := mem_guids.1
        (horder.symm ▸ List.mem_append_right _ List.mem_cons_self : pkt.guid ∈ guids order)
      exact absurd hguid.symm (hother pkt List.mem_cons_self msg hmsg)
    | @read i l hl hlead =>
      -- the link has delivered the beginning of what was sent on it
      obtain ⟨hlead', hdelivered⟩ := read_same json l
      have hsent := ((hflowing.sound.link hl).read).delivered_initial hround hnul hbrace
        (hflowing.sound.sent_carried i) (hlead'.trans hlead)
      have hinitial := hsent.map GDPPacket.guid
      rw [hdelivered, List.map_append, List.map_map] at hinitial
      refine (h.arrivals m).append_from ((h.sent i).of_initial hinitial) ?_
      intro guid hguid
      obtain ⟨pkt, hpkt, rfl⟩ := mem_guids.1 hguid
      exact mem_guids.2 ⟨pkt, hflowing.delivered_subset hl hlead hpkt, rfl⟩
  · intro i
    obtain ⟨more, hmore, hcopies⟩ := sent_step json recordJson mesh i event
    rw [hmore, guids_append]
    refine (h.sent i).append ?_
    intro guid hguid earlier later horder
    obtain ⟨pkt, hpkt, rfl⟩ := mem_guids.1 hguid
    obtain ⟨m, reading, tag, rest, -, hrx, sent, hsent, rfl⟩ := hcopies pkt hpkt
    exact h.sent_before hflowing hdistinct hrx hsent horder

theorem Ordered.step {event : MeshEvent Node} (hevent : Publishes event)
    (hdistinct : (mesh.step json recordJson bindingTable event).DistinctGuids) :
    Ordered n topic (order ++ publishedAt n topic event)
      (mesh.step json recordJson bindingTable event) := by
  have hbefore := hdistinct.of_step
  unfold DistinctGuids at hdistinct
  rw [published_step] at hdistinct
  have hnew := (List.pairwise_append.1 hdistinct).2.2
  have hother : ∀ p ∈ event.publications, ∀ msg ∈ order, p.guid ≠ msg.guid :=
    fun p hp msg hmsg hguid =>
      (hnew msg (h.published msg hmsg) p hp hguid.symm).1 (h.forward msg hmsg).1
  have hpass := h.pass hround hnul hbrace hflowing hbefore hevent hother
  have hsame : publishedAt n topic event = [] → Ordered n topic
      (order ++ publishedAt n topic event) (mesh.step json recordJson bindingTable event) := by
    intro hnothing
    rw [hnothing, List.append_nil]
    exact hpass
  cases event with
  | publish m pkt =>
    by_cases hmessage : m = n ∧ pkt.action = .forward ∧ pkt.gdpname = topic
    · rw [publishedAt, if_pos hmessage]
      obtain ⟨rfl, haction, htopic⟩ := hmessage
      exact h.publish hflowing (fun p hp hguid =>
        (hnew p hp pkt List.mem_cons_self hguid).2 haction) haction htopic
    · exact hsame (if_neg hmessage)
  | _ => exact hsame rfl

end Step

/-! ## Runs -/

section Runs

variable {events : List (MeshEvent Node)}

variable (hround : json.RoundTrips) (hnul : json.NoNul) (hbrace : json.OpensBrace)

include hround hnul hbrace

theorem Laid.throughout (h : Laid json recordJson bindingTable mesh)
    (hevents : ∀ event ∈ events, Publishes event ∧ Prepares event) :
    Laid json recordJson bindingTable
        (Run.after (Mesh.step json recordJson bindingTable) mesh events) ∧
      Run.Throughout (Mesh.step json recordJson bindingTable) (fun mesh event =>
        Flowing json recordJson bindingTable mesh ∧ Publishes event) mesh events := by
  have hrun : Run.Throughout (Mesh.step json recordJson bindingTable)
      (fun _ event => Publishes event ∧ Prepares event) mesh events :=
    Run.throughout_of_forall mesh hevents
  have hstep := fun (mesh : Mesh Node) event (h : Laid json recordJson bindingTable mesh)
    (hevent : Publishes event ∧ Prepares event) =>
    h.step hround hnul hbrace hevent.1 hevent.2
  exact ⟨hrun.invariant _ hstep h,
    hrun.of_invariant _ hstep (fun _ _ h hevent => ⟨h.flowing, hevent.1⟩) h⟩

theorem Flowing.throughout (h : Flowing json recordJson bindingTable mesh)
    (hevents : ∀ event ∈ events, Publishes event ∧ Relays event) :
    Flowing json recordJson bindingTable
        (Run.after (Mesh.step json recordJson bindingTable) mesh events) ∧
      Run.Throughout (Mesh.step json recordJson bindingTable) (fun mesh event =>
        Flowing json recordJson bindingTable mesh ∧ Publishes event) mesh events := by
  have hrun : Run.Throughout (Mesh.step json recordJson bindingTable)
      (fun _ event => Publishes event ∧ Relays event) mesh events :=
    Run.throughout_of_forall mesh hevents
  have hstep := fun (mesh : Mesh Node) event (h : Flowing json recordJson bindingTable mesh)
    (hevent : Publishes event ∧ Relays event) =>
    h.step hround hnul hbrace hevent.1 hevent.2
  exact ⟨hrun.invariant _ hstep h,
    hrun.of_invariant _ hstep (fun _ _ h hevent => ⟨h, hevent.1⟩) h⟩

theorem Ordered.after {n : Node} {topic : GDPName} {order : List GDPPacket}
    (h : mesh.DistinctGuids → Ordered n topic order mesh)
    (hrun : Run.Throughout (Mesh.step json recordJson bindingTable) (fun mesh event =>
      Flowing json recordJson bindingTable mesh ∧ Publishes event) mesh events)
    (hdistinct : (Run.after (Mesh.step json recordJson bindingTable) mesh
      events).DistinctGuids) :
    Ordered n topic (order ++ events.flatMap (publishedAt n topic))
      (Run.after (Mesh.step json recordJson bindingTable) mesh events) := by
  induction events generalizing mesh order with
  | nil =>
    rw [List.flatMap_nil, List.append_nil]
    exact h hdistinct
  | cons event events ih =>
    obtain ⟨⟨hflowing, hevent⟩, hlater⟩ := hrun
    rw [List.flatMap_cons, ← List.append_assoc]
    exact ih (fun hdistinct => (h hdistinct.of_step).step hround hnul hbrace hflowing hevent
      hdistinct) hlater hdistinct

end Runs

end Mesh

end RtFogros
