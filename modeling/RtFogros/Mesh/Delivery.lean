import RtFogros.Mesh.Topics

/-!
# Messages reach their subscribers, in order

Where all channels are announced before the first packet is forwarded:

* `publications_in_order`: a subscriber's task publishes the messages of each publisher in the
  order in which ROS gave them, without gaps and each once, also where streams end and tasks crash;
* `publications_complete`: in a mesh at rest that has lost no stream, it has published all that can
  reach it.

Nothing numbers the messages.  Their order is that of the first copies (`Order`), which reach a
task's channel gapless, and what the task publishes is what it takes, decoded; so both results are
the facts about the mesh, carried along what a task has taken by `InOrder`.
-/

namespace RtFogros

open FibHandler Kcp

namespace Mesh

variable {Node : Type} [DecidableEq Node] {json : SerdeJson GDPHeaderInTransit}
  {recordJson : SerdeJson GDPNameRecord} {bindingTable : Node → BindingTable} {mesh : Mesh Node}

theorem Unbroken.after (hround : json.RoundTrips) (hnul : json.NoNul) (hbrace : json.OpensBrace)
    (h : Sound json recordJson bindingTable mesh) (hup : mesh.Unbroken)
    {events : List (MeshEvent Node)}
    (hrun : Run.Throughout (Mesh.step json recordJson bindingTable)
      (fun mesh event => Publishes event ∧ mesh.Keeps event) mesh events) :
    (Run.after (Mesh.step json recordJson bindingTable) mesh events).Unbroken :=
  (hrun.invariant (fun mesh => Sound json recordJson bindingTable mesh ∧ mesh.Unbroken)
    (fun _ _ h hevent => ⟨h.1.step hround hnul hbrace hevent.1, h.2.step h.1 hevent.2⟩)
    ⟨h, hup⟩).2

end Mesh

namespace Topics

variable {Node : Type} [DecidableEq Node]

/-- The messages that ROS has given to the machine's task of a topic. -/
def messagesOf (s : Topics Node) (n : Node) (topic : GDPName) : List (TopicMessage Node) :=
  s.messages.filter fun msg => msg.node = n ∧ msg.topicGdpName = topic

def guidsOf (s : Topics Node) (n : Node) (topic : GDPName) : List (Option GDPName) :=
  (s.messagesOf n topic).map fun msg => some msg.guid

/-- What the task on a channel has published of a machine's messages, with their guids. -/
def heard (s : Topics Node) (i : Nat) (n : Node) (topic : GDPName) :
    List (Option GDPName × Bytes) :=
  ((s.publicationsAt i).filter (·.guid ∈ s.guidsOf n topic)).map fun o => (o.guid, o.payload)

/-- A machine's messages, with their guids. -/
def said (s : Topics Node) (n : Node) (topic : GDPName) : List (Option GDPName × Bytes) :=
  (s.messagesOf n topic).map fun msg => (some msg.guid, msg.payload)

/-- No handler takes a packet. -/
def Lays : TopicEvent Node → Prop
  | .mesh (.forward _ _) => False
  | _ => True

/-- No handler takes an update. -/
def Relays : TopicEvent Node → Prop
  | .mesh (.connect _ _ _ _) | .update _ => False
  | _ => True

/-- No stream ends. -/
def KeepsStreams : TopicEvent Node → Prop
  | .mesh (.shut _) => False
  | _ => True

variable {digest : Bytes → Vector UInt8 4}
  {json : SerdeJson GDPHeaderInTransit} {recordJson : SerdeJson GDPNameRecord}
  {bindingTable : Node → BindingTable} {uniqueRosNodeGdpName : Node → GDPName}
  {s s' : Topics Node} {events : List (MeshEvent Node)}

/-! ## The steps in the mesh -/

theorem Moves.prepares {event : TopicEvent Node} (hevent : Lays event)
    (h : Moves digest json recordJson bindingTable uniqueRosNodeGdpName s event events s') :
    ∀ event ∈ events, Mesh.Prepares event := by
  cases h with
  | @mesh event hothers =>
    refine List.forall_mem_singleton.2 ?_
    cases event with
    | forward n reading => exact hevent
    | _ => trivial
  | _ => simp [Mesh.Prepares]

theorem Moves.relays {event : TopicEvent Node} (hevent : Relays event)
    (h : Moves digest json recordJson bindingTable uniqueRosNodeGdpName s event events s') :
    ∀ event ∈ events, Mesh.Relays event := by
  cases h with
  | @mesh event hothers =>
    refine List.forall_mem_singleton.2 ?_
    cases event with
    | connect n update lead description => exact hevent
    | _ => trivial
  | spawned => exact hevent.elim
  | dropped => exact hevent.elim
  | _ => simp [Mesh.Relays]

/-- The Forward packets of a machine are its messages. -/
theorem Moves.messagesOf_eq {event : TopicEvent Node} (hevent : Plain event)
    (h : Moves digest json recordJson bindingTable uniqueRosNodeGdpName s event events s')
    (n : Node) (topic : GDPName) :
    (s'.messagesOf n topic).map (TopicMessage.packet uniqueRosNodeGdpName) =
      (s.messagesOf n topic).map (TopicMessage.packet uniqueRosNodeGdpName) ++
        events.flatMap (Mesh.publishedAt n topic) := by
  cases h with
  | @mesh event hothers =>
    refine ((congrArg _ ?_).trans (List.append_nil _)).symm
    cases event with
    | publish m pkt =>
      rw [List.flatMap_singleton, Mesh.publishedAt, if_neg fun h => hevent.2 h.2.1]
    | _ => rfl
  | @message msg =>
    unfold messagesOf
    rw [List.filter_append, List.map_append, List.flatMap_singleton, Mesh.publishedAt]
    congr 1
    by_cases hmsg : msg.node = n ∧ msg.topicGdpName = topic
    · rw [List.filter_cons_of_pos (by simpa using hmsg), if_pos ⟨hmsg.1, rfl, hmsg.2⟩]
      rfl
    · rw [List.filter_cons_of_neg (by simpa using hmsg), if_neg fun h => hmsg ⟨h.1, h.2.2⟩]
      rfl
  | _ => exact (List.append_nil _).symm

/-- The channels that tasks let go lead to no handler. -/
theorem Moves.keeps (h : Sound json recordJson bindingTable uniqueRosNodeGdpName s)
    {event : TopicEvent Node} (hevent : Plain event) (hkeeps : KeepsStreams event)
    (hmoves : Moves digest json recordJson bindingTable uniqueRosNodeGdpName s event events s') :
    Run.Throughout (Mesh.step json recordJson bindingTable)
      (fun mesh event => Mesh.Publishes event ∧ mesh.Keeps event) s.mesh events := by
  have hpublishes := hmoves.publishes hevent
  cases hmoves with
  | @mesh event hothers =>
    refine ⟨⟨hpublishes _ List.mem_cons_self, ?_⟩, trivial⟩
    cases event with
    | shut i => exact hkeeps.elim
    | _ => trivial
  | message => exact ⟨⟨hpublishes _ List.mem_cons_self, trivial⟩, trivial⟩
  | dropped hrx =>
    refine ⟨⟨trivial, trivial⟩, ⟨trivial, ?_⟩, trivial⟩
    intro m hlead
    change (List.map Link.lead (s.mesh.links ++ [_]))[_]? = _ at hlead
    rw [List.map_append, ← List.length_map Link.lead, List.map_singleton,
      List.getElem?_concat_length] at hlead
    cases hlead
  | @crashed i task pkt published htakes hfails =>
    refine ⟨⟨trivial, trivial⟩, ⟨trivial, ?_⟩, trivial⟩
    intro m hlead
    obtain ⟨l, l', -, hserves, hl', hlead', -, -⟩ := h.serves_taken htakes
    rw [List.getElem?_map, show ((Mesh.step json recordJson bindingTable s.mesh
      (.take i Link.anyName)).links)[i]? = some l' from hl'] at hlead
    cases (Option.some.inj hlead).symm.trans (hlead'.trans hserves.lead)
  | spawned hrx => exact ⟨⟨trivial, trivial⟩, trivial⟩
  | skipped htakes hother => exact ⟨⟨trivial, trivial⟩, trivial⟩
  | published htakes => exact ⟨⟨trivial, trivial⟩, trivial⟩
  | _ => trivial

/-! ## Order -/

/-- The messages of each machine are in order wherever their copies are. -/
def KeepsOrder (uniqueRosNodeGdpName : Node → GDPName) (s : Topics Node) : Prop :=
  s.mesh.DistinctGuids → ∀ n topic, Mesh.Ordered n topic
    ((s.messagesOf n topic).map (TopicMessage.packet uniqueRosNodeGdpName)) s.mesh

theorem KeepsOrder.moves (h : KeepsOrder uniqueRosNodeGdpName s)
    (hround : json.RoundTrips) (hnul : json.NoNul) (hbrace : json.OpensBrace)
    {event : TopicEvent Node} (hevent : Plain event)
    (hmoves : Moves digest json recordJson bindingTable uniqueRosNodeGdpName s event events s')
    (hrun : Run.Throughout (Mesh.step json recordJson bindingTable) (fun mesh event =>
      Mesh.Flowing json recordJson bindingTable mesh ∧ Mesh.Publishes event) s.mesh events) :
    KeepsOrder uniqueRosNodeGdpName s' := by
  intro hdistinct n topic
  rw [hmoves.mesh_eq] at hdistinct ⊢
  rw [hmoves.messagesOf_eq hevent]
  exact Mesh.Ordered.after hround hnul hbrace (fun hdistinct => h hdistinct n topic) hrun hdistinct

/-- The messages before the first packet is forwarded. -/
structure Announced (json : SerdeJson GDPHeaderInTransit) (recordJson : SerdeJson GDPNameRecord)
    (bindingTable : Node → BindingTable) (uniqueRosNodeGdpName : Node → GDPName)
    (s : Topics Node) : Prop where
  sound : Sound json recordJson bindingTable uniqueRosNodeGdpName s
  laid : Mesh.Laid json recordJson bindingTable s.mesh
  ordered : KeepsOrder uniqueRosNodeGdpName s

/-- The messages once the tables stand. -/
structure InOrder (json : SerdeJson GDPHeaderInTransit) (recordJson : SerdeJson GDPNameRecord)
    (bindingTable : Node → BindingTable) (uniqueRosNodeGdpName : Node → GDPName)
    (s : Topics Node) : Prop where
  sound : Sound json recordJson bindingTable uniqueRosNodeGdpName s
  flowing : Mesh.Flowing json recordJson bindingTable s.mesh
  ordered : KeepsOrder uniqueRosNodeGdpName s

theorem Announced.start :
    Announced json recordJson bindingTable uniqueRosNodeGdpName (initial : Topics Node) :=
  ⟨.start, .start, fun _ n topic => .start n topic⟩

theorem Announced.inOrder (h : Announced json recordJson bindingTable uniqueRosNodeGdpName s) :
    InOrder json recordJson bindingTable uniqueRosNodeGdpName s :=
  ⟨h.sound, h.laid.flowing, h.ordered⟩

/-! ## What a task has heard -/

/-- The publications with these guids, where every packet with one of them is published. -/
theorem guids_publications {i : Nat} {topic : GDPName} {keys : List (Option GDPName)}
    {pkts : List GDPPacket}
    (h : ∀ pkt ∈ pkts, pkt.guid ∈ keys → (publication i topic pkt).isSome) :
    ((pkts.filterMap (publication i topic)).filter (·.guid ∈ keys)).map (·.guid) =
      (Mesh.guids pkts).filter (· ∈ keys) := by
  induction pkts with
  | nil => rfl
  | cons pkt pkts ih =>
    obtain ⟨hpkt, hlater⟩ := List.forall_mem_cons.1 h
    have ih := ih hlater
    unfold Mesh.guids at ih ⊢
    rw [List.map_cons]
    cases hpublished : publication i topic pkt with
    | none =>
      have hguid : pkt.guid ∉ keys := by
        intro hguid
        have hsome := hpkt hguid
        rw [hpublished] at hsome
        cases hsome
      rw [List.filterMap_cons_none hpublished, List.filter_cons_of_neg (by simpa using hguid), ih]
    | some o =>
      have ho : o.guid = pkt.guid :=
        congrArg RosPublication.guid (publication_eq_some hpublished).2.2.2
      rw [List.filterMap_cons_some hpublished]
      by_cases hguid : pkt.guid ∈ keys
      · rw [List.filter_cons_of_pos (by simpa [ho] using hguid),
          List.filter_cons_of_pos (by simpa using hguid), List.map_cons, ih, ho]
      · rw [List.filter_cons_of_neg (by simpa [ho] using hguid),
          List.filter_cons_of_neg (by simpa using hguid), ih]

/-- Messages have guids of their own. -/
theorem Sound.guids_nodup (h : Sound json recordJson bindingTable uniqueRosNodeGdpName s)
    (hdistinct : s.mesh.DistinctGuids) :
    (s.messages.map fun msg => some msg.guid).Nodup := by
  have hpairs := List.pairwise_map.1 (hdistinct.sublist h.given)
  exact List.pairwise_map.2 (hpairs.imp fun hpair hguid => (hpair hguid).1 rfl)

section Heard

variable (h : InOrder json recordJson bindingTable uniqueRosNodeGdpName s)
  (hdistinct : s.mesh.DistinctGuids) {i : Nat} {task : SubscriberTask Node}
  (htask : s.subscribers i = some task)

include h hdistinct

/-- A copy of a message is published. -/
theorem InOrder.copy (n : Node) {topic : GDPName} {pkt : GDPPacket} (hpkt : pkt ∈ s.mesh.sent i)
    (hguid : pkt.guid ∈ s.guidsOf n topic) : (publication i topic pkt).isSome := by
  obtain ⟨msg, hmsg, hcopy⟩ := List.mem_map.1 hguid
  have hmem : TopicMessage.packet uniqueRosNodeGdpName msg ∈
      (s.messagesOf n topic).map (TopicMessage.packet uniqueRosNodeGdpName) :=
    List.mem_map_of_mem hmsg
  have hordered := h.ordered hdistinct n topic
  obtain ⟨haction, htopic⟩ := hordered.forward _ hmem
  obtain ⟨description, rfl⟩ := (h.sound.mesh.sent_known i pkt hpkt).copy
    (fun p hp => hdistinct.eq hp (hordered.published _ hmem) haction) hcopy.symm
  have hforward : (received description (TopicMessage.packet uniqueRosNodeGdpName msg)).action =
      .forward ∧ (received description (TopicMessage.packet uniqueRosNodeGdpName msg)).gdpname =
        topic := ⟨haction, htopic⟩
  unfold publication
  rw [if_pos hforward]
  rfl

include htask

theorem InOrder.gapless (n : Node) :
    Gapless (s.guidsOf n task.topicGdpName) ((s.heard i n task.topicGdpName).map Prod.fst) := by
  obtain ⟨l, hl, hserves⟩ := h.sound.serves htask
  have htaken : l.takenOff <+: s.mesh.sent i :=
    (List.prefix_append ..).trans (h.sound.mesh.link hl).queued
  have hcopies : ∀ pkt ∈ l.takenOff, pkt.guid ∈ s.guidsOf n task.topicGdpName →
      (publication i task.topicGdpName pkt).isSome :=
    fun pkt hpkt hguid => h.copy hdistinct n (htaken.subset hpkt) hguid
  -- the task goes through the guids that were sent, in order
  have hsent : Gapless (s.guidsOf n task.topicGdpName) (Mesh.guids (s.mesh.sent i)) := by
    have hordered := (h.ordered hdistinct n task.topicGdpName).sent i
    unfold Mesh.guids at hordered ⊢
    rwa [List.map_map] at hordered
  have hinitial := ((hserves.initial.filter (·.guid ∈ s.guidsOf n task.topicGdpName)).map
    RosPublication.guid)
  rw [guids_publications hcopies] at hinitial
  have hkept := hsent.filter (p := (· ∈ s.guidsOf n task.topicGdpName))
    fun guid hguid => by simpa using hguid
  unfold heard
  rw [List.map_map]
  exact hkept.of_initial (hinitial.trans ((htaken.map _).filter _))

omit htask hdistinct in
theorem InOrder.heard_nodup (i : Nat) (n : Node) (topic : GDPName) :
    ((s.heard i n topic).map Prod.fst).Nodup := by
  have hall : ((s.publicationsAt i).map RosPublication.guid).Nodup := by
    apply List.nodup_iff_count_le_one.2
    intro guid
    rw [List.count, List.countP_map]
    refine le_trans (List.countP_mono_left fun o _ ho => ?_)
      (h.sound.publications_le_one i guid)
    simpa using ho
  unfold heard
  rw [List.map_map]
  exact hall.sublist (List.filter_sublist.map _)

omit htask in
theorem InOrder.heard_subset (i : Nat) (n : Node) (topic : GDPName) :
    s.heard i n topic ⊆ s.said n topic := by
  intro x hx
  obtain ⟨o, ho, rfl⟩ := List.mem_map.1 hx
  obtain ⟨ho, hguid⟩ := List.mem_filter.1 ho
  obtain ⟨msg, hmsg, hguid⟩ := List.mem_map.1 (of_decide_eq_true hguid)
  obtain ⟨-, -, -, msg', hmsg', -, hguid', hpayload⟩ :=
    h.sound.authentic (List.mem_filter.1 ho).1
  obtain rfl : msg = msg' := List.inj_on_of_nodup_map (h.sound.guids_nodup hdistinct)
    (List.mem_filter.1 hmsg).1 hmsg' (hguid.trans hguid')
  exact List.mem_map.2 ⟨msg, hmsg, by rw [hguid, hpayload]⟩

theorem InOrder.heard_initial (n : Node) :
    s.heard i n task.topicGdpName <+: s.said n task.topicGdpName := by
  have hkeys : (s.said n task.topicGdpName).map Prod.fst = s.guidsOf n task.topicGdpName :=
    List.map_map
  have hnodup : (s.guidsOf n task.topicGdpName).Nodup :=
    (h.sound.guids_nodup hdistinct).sublist (List.filter_sublist.map _)
  have hgapless : Gapless ((s.said n task.topicGdpName).map Prod.fst)
      ((s.heard i n task.topicGdpName).map Prod.fst) := hkeys ▸ h.gapless hdistinct htask n
  exact hgapless.initial (hkeys ▸ hnodup) (h.heard_nodup i n _)
    (h.heard_subset hdistinct i n _)

/-- A task that has taken all that was sent to it has heard a message that was sent to it. -/
theorem InOrder.heard_of_sent (hrunning : task.crashed = false) {l : Link Node}
    (hl : s.mesh.links[i]? = some l) (hqueue : l.queue = []) {n : Node} {msg : TopicMessage Node}
    (hmsg : msg ∈ s.messagesOf n task.topicGdpName) {description : Option String}
    (hsent : received description (TopicMessage.packet uniqueRosNodeGdpName msg) ∈
      s.mesh.sent i) :
    (some msg.guid, msg.payload) ∈ s.heard i n task.topicGdpName := by
  obtain ⟨l', hl', hserves⟩ := h.sound.serves htask
  obtain rfl : l = l' := Option.some.inj (hl.symm.trans hl')
  have htaken := (h.sound.mesh.link hl).queued_up (hserves.up hrunning)
  rw [hqueue, List.append_nil] at htaken
  have hguid : some msg.guid ∈ s.guidsOf n task.topicGdpName :=
    List.mem_map.2 ⟨msg, hmsg, rfl⟩
  obtain ⟨o, ho⟩ := Option.isSome_iff_exists.1 (h.copy hdistinct n hsent hguid)
  obtain ⟨-, -, hpayload, hpublished⟩ := publication_eq_some ho
  have ho' : o.guid = some msg.guid := congrArg RosPublication.guid hpublished
  have hmem : o ∈ s.publicationsAt i := by
    rw [hserves.all hrunning, htaken]
    exact List.mem_filterMap.2 ⟨_, hsent, ho⟩
  refine List.mem_map.2 ⟨o, List.mem_filter.2 ⟨hmem, ?_⟩, ?_⟩
  · rw [ho']
    exact decide_eq_true hguid
  · rw [ho', Option.some.inj hpayload]

/-- The task has heard all messages of a machine if each of them was sent to it. -/
theorem InOrder.heard_all (hrunning : task.crashed = false) {l : Link Node}
    (hl : s.mesh.links[i]? = some l) (hqueue : l.queue = []) {n : Node}
    (hsent : ∀ msg ∈ s.messagesOf n task.topicGdpName, ∃ description,
      received description (TopicMessage.packet uniqueRosNodeGdpName msg) ∈ s.mesh.sent i) :
    s.heard i n task.topicGdpName = s.said n task.topicGdpName := by
  have hinitial := h.heard_initial hdistinct htask n
  have hnodup : ((s.said n task.topicGdpName).map Prod.fst).Nodup := by
    refine ((h.sound.guids_nodup hdistinct).sublist ?_)
    exact (List.map_map (l := s.messagesOf n task.topicGdpName)).symm ▸ List.filter_sublist.map _
  refine hinitial.eq_of_length_le ?_
  apply (hnodup.of_map _).length_le_of_subset
  intro x hx
  obtain ⟨msg, hmsg, rfl⟩ := List.mem_map.1 hx
  obtain ⟨description, hcopy⟩ := hsent msg hmsg
  exact h.heard_of_sent hdistinct htask hrunning hl hqueue hmsg hcopy

end Heard

/-! ## Every run -/

section Carry

variable (hround : json.RoundTrips) (hnul : json.NoNul) (hbrace : json.OpensBrace)

include hround hnul hbrace

theorem Announced.moves (h : Announced json recordJson bindingTable uniqueRosNodeGdpName s)
    {event : TopicEvent Node} (hevent : Plain event ∧ Lays event)
    (hmoves : Moves digest json recordJson bindingTable uniqueRosNodeGdpName s event events s') :
    Announced json recordJson bindingTable uniqueRosNodeGdpName s' := by
  obtain ⟨hafter, hrun⟩ := h.laid.throughout hround hnul hbrace fun event hmem =>
    ⟨hmoves.publishes hevent.1 event hmem, hmoves.prepares hevent.2 event hmem⟩
  exact ⟨h.sound.moves hround hnul hbrace hevent.1 hmoves, hmoves.mesh_eq ▸ hafter,
    h.ordered.moves hround hnul hbrace hevent.1 hmoves hrun⟩

theorem InOrder.moves (h : InOrder json recordJson bindingTable uniqueRosNodeGdpName s)
    {event : TopicEvent Node} (hevent : Plain event ∧ Relays event)
    (hmoves : Moves digest json recordJson bindingTable uniqueRosNodeGdpName s event events s') :
    InOrder json recordJson bindingTable uniqueRosNodeGdpName s' := by
  obtain ⟨hafter, hrun⟩ := h.flowing.throughout hround hnul hbrace fun event hmem =>
    ⟨hmoves.publishes hevent.1 event hmem, hmoves.relays hevent.2 event hmem⟩
  exact ⟨h.sound.moves hround hnul hbrace hevent.1 hmoves, hmoves.mesh_eq ▸ hafter,
    h.ordered.moves hround hnul hbrace hevent.1 hmoves hrun⟩

/-- A run that announces all channels, then forwards. -/
theorem inOrder_after {setup later : List (TopicEvent Node)}
    (hsetup : ∀ event ∈ setup, Plain event ∧ Lays event)
    (hlater : ∀ event ∈ later, Plain event ∧ Relays event) :
    InOrder json recordJson bindingTable uniqueRosNodeGdpName
      (Run.after (step digest json recordJson bindingTable uniqueRosNodeGdpName) initial
        (setup ++ later)) := by
  have hannounced := (Run.throughout_of_forall initial hsetup).invariant
    (Announced json recordJson bindingTable uniqueRosNodeGdpName) (fun s event h hevent => by
      obtain ⟨events, hmoves⟩ := moves_step digest json recordJson bindingTable
        uniqueRosNodeGdpName s event
      exact h.moves hround hnul hbrace hevent hmoves) .start
  rw [Run.after_append]
  refine (Run.throughout_of_forall _ hlater).invariant _ ?_ hannounced.inOrder
  intro s event h hevent
  obtain ⟨events, hmoves⟩ := moves_step digest json recordJson bindingTable uniqueRosNodeGdpName s
    event
  exact h.moves hround hnul hbrace hevent hmoves

theorem unbroken_after {events : List (TopicEvent Node)}
    (hevents : ∀ event ∈ events, Plain event ∧ KeepsStreams event) :
    (Run.after (step digest json recordJson bindingTable uniqueRosNodeGdpName) initial
      events).mesh.Unbroken := by
  refine ((Run.throughout_of_forall initial hevents).invariant
    (fun s => Sound json recordJson bindingTable uniqueRosNodeGdpName s ∧ s.mesh.Unbroken) ?_
    ⟨.start, List.forall_mem_nil _⟩).2
  rintro s event ⟨hsound, hup⟩ ⟨hevent, hkeeps⟩
  obtain ⟨events, hmoves⟩ := moves_step digest json recordJson bindingTable uniqueRosNodeGdpName s
    event
  refine ⟨hsound.moves hround hnul hbrace hevent hmoves, ?_⟩
  rw [hmoves.mesh_eq]
  exact hup.after hround hnul hbrace hsound.mesh (hmoves.keeps hsound hevent hkeeps)

/-- **Main result.**  In every run in which no payload ends in a keepalive, the other local handlers
publish no messages and all channels are announced before the first packet is forwarded, whatever
streams end and whichever tasks crash: if no message shares its guid with another packet, each
subscriber's task has published, of the messages of its name that ROS gave to a machine, a first
part, in their order and each once. -/
theorem publications_in_order (digest : Bytes → Vector UInt8 4)
    (recordJson : SerdeJson GDPNameRecord) (bindingTable : Node → BindingTable)
    (uniqueRosNodeGdpName : Node → GDPName) {setup later : List (TopicEvent Node)}
    (hsetup : ∀ event ∈ setup, Plain event ∧ Lays event)
    (hlater : ∀ event ∈ later, Plain event ∧ Relays event) :
    let s := Run.after (step digest json recordJson bindingTable uniqueRosNodeGdpName) initial
      (setup ++ later)
    s.mesh.DistinctGuids → ∀ i task, s.subscribers i = some task → ∀ n,
      s.heard i n task.topicGdpName <+: s.said n task.topicGdpName := by
  intro s hdistinct i task htask n
  have h : InOrder json recordJson bindingTable uniqueRosNodeGdpName s :=
    inOrder_after hround hnul hbrace hsetup hlater
  exact h.heard_initial hdistinct htask n

omit hround hnul hbrace in
theorem sampleTopics_distinct : sampleTopics.mesh.DistinctGuids := by
  unfold Mesh.DistinctGuids
  decide +kernel

omit hround hnul hbrace in
theorem sampleAnnounced_lays :
    ∀ event ∈ sampleAnnounced, Plain event ∧ Lays event ∧ KeepsStreams event := by
  refine fun event hmem => ⟨plain_sampleAnnounced event hmem, ?_⟩
  revert event
  simp [sampleAnnounced, Lays, KeepsStreams]

omit hround hnul hbrace in
theorem sampleForwarded_relays :
    ∀ event ∈ sampleForwarded, Plain event ∧ Relays event ∧ KeepsStreams event := by
  refine fun event hmem => ⟨plain_sampleForwarded event hmem, ?_⟩
  revert event
  simp [sampleForwarded, Relays, KeepsStreams]

omit hround hnul hbrace in
/-- The machine has said two messages. -/
theorem said_sampleTopics : sampleTopics.said Mesh.publisher Link.anyName =
    [(some (samplePacket []).source, [1, 2]), (some (samplePacket []).gdpname, [3])] := by
  decide +kernel

omit hround hnul hbrace in
def sampleTask : SubscriberTask (Fin 2) :=
  { node := Mesh.subscriber, topicGdpName := Link.anyName }

omit hround hnul hbrace in
theorem task_sampleTopics : sampleTopics.subscribers 2 = some sampleTask := by
  have htask : (sampleTopics.subscribers 2).map
      (fun task => (task.node, task.topicGdpName, task.crashed)) =
        some (Mesh.subscriber, Link.anyName, false) := by decide +kernel
  obtain ⟨task, heq, hfields⟩ := Option.map_eq_some_iff.1 htask
  simp only [Prod.mk.injEq] at hfields
  obtain ⟨hnode, htopic, hcrashed⟩ := hfields
  rw [heq, sampleTask, ← hnode, ← htopic, ← hcrashed]

omit hround hnul hbrace in
theorem publications_in_order_sample :
    sampleTopics.said Mesh.publisher Link.anyName =
        [(some (samplePacket []).source, [1, 2]), (some (samplePacket []).gdpname, [3])] ∧
      sampleTopics.heard 2 Mesh.publisher Link.anyName <+:
        sampleTopics.said Mesh.publisher Link.anyName :=
  ⟨said_sampleTopics, publications_in_order headerJson_roundTrips headerJson_noNul
    headerJson_opensBrace (fun _ => .replicate 4 0) unusedRecordJson (fun _ => none)
    (fun _ => (samplePacket []).source)
    (fun event hmem => (sampleAnnounced_lays event hmem).imp_right And.left)
    (fun event hmem => (sampleForwarded_relays event hmem).imp_right And.left)
    sampleTopics_distinct 2 _ task_sampleTopics Mesh.publisher⟩

/-- **Main result.**  Take a run of `publications_in_order` in which no stream has ended and which
has come to rest with its FIB handlers running.  A subscriber's task that has not crashed, has
taken all packets from its channel and is registered with it at its machine has published, of the
messages of its name that ROS gave to a machine from which it can be reached over receivers of the
name, all, in their order and each once. -/
theorem publications_complete {digest : Bytes → Vector UInt8 4}
    {uniqueRosNodeGdpName : Node → GDPName} {setup later : List (TopicEvent Node)}
    (hsetup : ∀ event ∈ setup, Plain event ∧ Lays event ∧ KeepsStreams event)
    (hlater : ∀ event ∈ later, Plain event ∧ Relays event ∧ KeepsStreams event)
    (hs : Run.after (step digest json recordJson bindingTable uniqueRosNodeGdpName) initial
      (setup ++ later) = s)
    (hdistinct : s.mesh.DistinctGuids) (hquiet : s.mesh.Quiet) {task : SubscriberTask Node}
    {m : Node} {dst : FibConnection Nat}
    (hdst : dst ∈ registered (bindingTable m) (s.mesh.log.inputs m) task.topicGdpName)
    (htype : dst.connectionType = .receiver) (htask : s.subscribers dst.tx = some task)
    (hrunning : task.crashed = false) {l : Link Node} (hl : s.mesh.links[dst.tx]? = some l)
    (hqueue : l.queue = []) {n : Node}
    (hreach : Relation.ReflTransGen (Mesh.Feeds bindingTable s.mesh task.topicGdpName) n m) :
    s.heard dst.tx n task.topicGdpName = s.said n task.topicGdpName := by
  have h : InOrder json recordJson bindingTable uniqueRosNodeGdpName s := by
    rw [← hs]
    exact inOrder_after hround hnul hbrace
      (fun event hmem => (hsetup event hmem).imp_right And.left)
      (fun event hmem => (hlater event hmem).imp_right And.left)
  have hup : s.mesh.Unbroken := by
    rw [← hs]
    refine unbroken_after hround hnul hbrace (List.forall_mem_append.2 ⟨?_, ?_⟩)
    · exact fun event hmem => (hsetup event hmem).imp_right And.right
    · exact fun event hmem => (hlater event hmem).imp_right And.right
  apply h.heard_all hdistinct htask hrunning hl hqueue
  intro msg hmsg
  have hordered := h.ordered hdistinct n task.topicGdpName
  have hmem := List.mem_map_of_mem (f := TopicMessage.packet uniqueRosNodeGdpName) hmsg
  obtain ⟨haction, htopic⟩ := hordered.forward _ hmem
  obtain ⟨description, honce⟩ := h.flowing.sent_once hup hquiet haction
    (fun p hp => hdistinct.eq hp (hordered.published _ hmem) haction) hround hnul hbrace
    (hordered.waits _ hmem) (htopic.symm ▸ hreach) (htopic.symm ▸ hdst) htype
  exact ⟨description, (List.mem_filter.1 (honce ▸ List.mem_cons_self)).1⟩

omit hround hnul hbrace in
theorem sampleTopics_quiet : sampleTopics.mesh.Quiet := by
  obtain ⟨hrx, hlinks, hrunning⟩ : (∀ n, sampleTopics.mesh.fibRx n = []) ∧
      sampleTopics.mesh.links.all (fun l => l.queue.isEmpty && l.wire.isEmpty) = true ∧
      ∀ n, Fib.rec (motive := fun _ => Bool) (fun _ => true) false
        (sampleTopics.mesh.log.states n) = true := by decide +kernel
  refine ⟨hrx, fun l hl _ _ => ?_, fun n haborted => ?_⟩
  · simpa using List.all_eq_true.1 hlinks l hl
  · have hn := hrunning n
    rw [haborted] at hn
    cases hn

omit hround hnul hbrace in
/-- The subscriber at the far end of the link has published both messages. -/
theorem publications_complete_sample : sampleTopics.heard 2 Mesh.publisher Link.anyName =
    [(some (samplePacket []).source, [1, 2]), (some (samplePacket []).gdpname, [3])] := by
  obtain ⟨⟨link, hmem, hlinkTx, hlinkType⟩, ⟨dst, hdst, htx, htype⟩, hleads, hread⟩ :
      (∃ dst ∈ registered none (sampleTopics.mesh.log.inputs Mesh.publisher) Link.anyName,
        dst.tx = 0 ∧ dst.connectionType = .receiver) ∧
      (∃ dst ∈ registered none (sampleTopics.mesh.log.inputs Mesh.subscriber)
          sampleTask.topicGdpName, dst.tx = 2 ∧ dst.connectionType = .receiver) ∧
      (sampleTopics.mesh.links.map Link.lead)[0]? = some (.handler Mesh.subscriber) ∧
      sampleTopics.mesh.links[2]?.map Link.queue = some [] := by
    decide +kernel
  have hfeeds : Mesh.Feeds (fun _ => none) sampleTopics.mesh sampleTask.topicGdpName Mesh.publisher
      Mesh.subscriber := ⟨link, hmem, hlinkType, by rw [hlinkTx, hleads]⟩
  obtain ⟨l, hl, hqueue⟩ := Option.map_eq_some_iff.1 hread
  have hlink : sampleTopics.mesh.links[dst.tx]? = some l :=
    (congrArg (sampleTopics.mesh.links[·]?) htx).trans hl
  have htask := (congrArg sampleTopics.subscribers htx).trans task_sampleTopics
  have hall : sampleTopics.heard dst.tx Mesh.publisher sampleTask.topicGdpName =
      sampleTopics.said Mesh.publisher sampleTask.topicGdpName :=
    publications_complete (s := sampleTopics) headerJson_roundTrips headerJson_noNul
      headerJson_opensBrace sampleAnnounced_lays sampleForwarded_relays rfl sampleTopics_distinct
      sampleTopics_quiet hdst htype htask rfl hlink hqueue (.single hfeeds)
  rw [htx] at hall
  exact hall.trans said_sampleTopics

end Carry

end Topics

end RtFogros
