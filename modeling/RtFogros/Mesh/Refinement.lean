import RtFogros.Mesh.Links

/-!
# The mesh refines the network

Each link is a FIFO from the FIB handler that sends on its channel to the one that takes what
its reader sends on.  With that a mesh is a `Network` whose messages are delivered whole: what
is in flight there on a channel is what its handler still has to take.

`Sound` is the invariant.  It has a run of the network beside the mesh, with the same turns of
the FIB handlers, and `Link.Sound` of every link; a turn of a writer or of a read arm is no step
of the network, and a turn of a FIB handler is a publication or the delivery of the packet that is
first in flight on its link (`Sound.refines_forward`).

The main results hold of every run in which local handlers publish packets that a stream carries
(`Publishes`): `links_fifo`, `refines_network`, and `queues_authentic`, which has what the network
knows of the channels of table entries.
-/

namespace RtFogros

open FibHandler Kcp

namespace Mesh

variable {Node : Type} [DecidableEq Node] {json : SerdeJson GDPHeaderInTransit}
  {recordJson : SerdeJson GDPNameRecord} {bindingTable : Node → BindingTable}
  {mesh : Mesh Node}

/-! ## Queues -/

def network (mesh : Mesh Node) (inFlight : List (Nat × GDPPacket)) : Network Node where
  log := mesh.log
  channels := mesh.links.map Link.lead
  inFlight := inFlight

/-- All that was ever sent on a channel. -/
def sent (mesh : Mesh Node) (i : Nat) : List GDPPacket := (mesh.network []).queued i

/-- The packets that came over a link. -/
def via (i : Nat) (pkts : List (Option Nat × GDPPacket)) : List GDPPacket :=
  (pkts.filter (·.1 = some i)).map Prod.snd

def handledVia (mesh : Mesh Node) (i : Nat) : List GDPPacket := via i (mesh.handled.map Prod.snd)

theorem via_append (i : Nat) (pkts later : List (Option Nat × GDPPacket)) :
    via i (pkts ++ later) = via i pkts ++ via i later := by
  simp [via]

theorem via_tagged (i : Nat) (pkts : List GDPPacket) : via i (pkts.map (some i, ·)) = pkts := by
  simp [via, List.filter_map, Function.comp_def]

theorem via_tagged_of_ne {i j : Nat} (h : i ≠ j) (pkts : List GDPPacket) :
    via j (pkts.map (some i, ·)) = [] := by
  simp [via, List.filter_map, Function.comp_def, h]

theorem via_cons_self (i : Nat) (pkt : GDPPacket) (pkts : List (Option Nat × GDPPacket)) :
    via i ((some i, pkt) :: pkts) = pkt :: via i pkts := by
  simp [via]

theorem via_cons_of_ne {i : Nat} {tag : Option Nat} (h : tag ≠ some i) (pkt : GDPPacket)
    (pkts : List (Option Nat × GDPPacket)) : via i ((tag, pkt) :: pkts) = via i pkts := by
  simp [via, h]

theorem via_eq_nil {i : Nat} {pkts : List (Option Nat × GDPPacket)}
    (h : ∀ pkt, (some i, pkt) ∉ pkts) : via i pkts = [] := by
  unfold via
  rw [List.map_eq_nil_iff, List.filter_eq_nil_iff]
  rintro ⟨tag, pkt⟩ hmem htag
  rw [decide_eq_true_eq] at htag
  subst htag
  exact h pkt hmem

theorem filter_inFlight (sends : List (Sent Nat)) (i : Nat) :
    ((sends.map fun s => (s.dst.tx, s.pkt)).filter (·.1 = i)).map Prod.snd = sentOn sends i := by
  unfold sentOn
  rw [List.filter_map, List.map_map]
  rfl

variable (bindingTable) in
/-- What a turn adds to the queues. -/
theorem queued_turn (net : Network Node) (n : Node) (event : FibEvent Nat) (i : Nat) :
    (net.turn bindingTable n event).queued i = net.queued i ++
      sentOn (Fib.step (bindingTable n) (net.log.states n) event).2.sends i := by
  unfold Network.queued Network.sends Network.turn Mealy.Log.turn sentOn
  rw [List.flatMap_append, List.filter_append, List.map_append, List.flatMap_singleton,
    List.filter_map, List.map_map]
  rfl

theorem sends_update (table : BindingTable) (s : Fib Nat) (update : FibStateChange Nat) :
    (Fib.step table s (.update update)).2.sends = [] := by
  cases s <;> rfl

theorem queued_eq_nil {net : Network Node} (h : Network.Sound bindingTable net) {i : Nat}
    (hi : net.channels.length ≤ i) : net.queued i = [] := by
  unfold Network.queued
  rw [List.map_eq_nil_iff, List.filter_eq_nil_iff]
  rintro ⟨n, sent⟩ hsent htx
  have htx : sent.dst.tx = i := of_decide_eq_true htx
  have hfresh := h.fresh (Network.entry_of_mem_sends h hsent).1
  omega

/-! ## Leads -/

section Leads

omit [DecidableEq Node]

variable (json recordJson) in
theorem take_same (l : Link Node) (randomName : GDPName) :
    (l.take json recordJson randomName).lead = l.lead ∧
      (l.take json recordJson randomName).delivered = l.delivered := by
  unfold Link.take
  split
  · exact ⟨rfl, rfl⟩
  · exact ⟨rfl, rfl⟩
  · split <;> exact ⟨rfl, rfl⟩

variable (json) in
theorem read_same (l : Link Node) :
    (l.read json).1.lead = l.lead ∧
      (l.read json).1.delivered = l.delivered ++ (l.read json).2 := by
  unfold Link.read
  split
  · exact ⟨rfl, (List.append_nil _).symm⟩
  · exact ⟨rfl, rfl⟩

theorem send_same (l : Link Node) (pkts : List GDPPacket) :
    (l.send pkts).lead = l.lead ∧ (l.send pkts).delivered = l.delivered := by
  unfold Link.send
  split <;> exact ⟨rfl, rfl⟩

variable (json) in
theorem read_kept (l : Link Node) :
    (l.read json).1.up = l.up ∧ (l.read json).1.takenOff = l.takenOff := by
  unfold Link.read
  split <;> exact ⟨rfl, rfl⟩

theorem send_kept (l : Link Node) (pkts : List GDPPacket) :
    (l.send pkts).up = l.up ∧ (l.send pkts).takenOff = l.takenOff := by
  unfold Link.send
  split <;> exact ⟨rfl, rfl⟩

theorem map_modify {α : Type} {links : List (Link Node)} (i : Nat) {f : Link Node → Link Node}
    {g : Link Node → α} (hf : ∀ l, g (f l) = g l) : (links.modify i f).map g = links.map g := by
  apply List.ext_getElem?
  intro j
  rw [List.getElem?_map, List.getElem?_map, List.getElem?_modify]
  cases links[j]? with
  | none => rfl
  | some l =>
    refine congrArg some ?_
    dsimp only
    split
    · exact hf l
    · rfl

theorem leads_send (links : List (Link Node)) (pkts : Nat → List GDPPacket) :
    (links.mapIdx fun i l => l.send (pkts i)).map Link.lead = links.map Link.lead := by
  apply List.ext_getElem?
  intro i
  rw [List.getElem?_map, List.getElem?_map, List.getElem?_mapIdx, Option.map_map]
  congr 1
  funext l
  exact (send_same l _).1

theorem leads_set {links : List (Link Node)} {i : Nat} {l l' : Link Node} (hl : links[i]? = some l)
    (hlead : l'.lead = l.lead) : (links.set i l').map Link.lead = links.map Link.lead := by
  obtain ⟨hlt, hget⟩ := List.getElem?_eq_some_iff.1 hl
  rw [List.map_set, hlead, ← hget, ← List.getElem_map Link.lead]
  · exact List.set_getElem_self _
  · rwa [List.length_map]

end Leads

variable (json recordJson bindingTable) in
/-- A channel keeps its lead. -/
theorem leads_initial (mesh : Mesh Node) (event : MeshEvent Node) :
    mesh.links.map Link.lead <+:
      (mesh.step json recordJson bindingTable event).links.map Link.lead := by
  cases event with
  | connect n update lead description =>
    unfold step
    rw [List.map_append]
    exact List.prefix_append ..
  | publish n pkt => exact List.prefix_rfl
  | forward n reading =>
    change _ <+: (mesh.forward bindingTable n reading).links.map Link.lead
    unfold Mesh.forward
    split
    · exact List.prefix_rfl
    · exact leads_send mesh.links _ ▸ List.prefix_rfl
  | take i randomName =>
    have htake : (mesh.links.modify i (·.take json recordJson randomName)).map Link.lead =
        mesh.links.map Link.lead :=
      map_modify i fun l => (take_same json recordJson l randomName).1
    exact htake ▸ List.prefix_rfl
  | read i =>
    change _ <+: (mesh.read json i).links.map Link.lead
    unfold Mesh.read
    split
    · rename_i l hl
      have hset := leads_set hl (read_same json l).1
      dsimp only
      split <;> exact hset ▸ List.prefix_rfl
    · exact List.prefix_rfl
  | shut i =>
    have hshut : (mesh.links.modify i Link.shut).map Link.lead = mesh.links.map Link.lead :=
      map_modify i fun _ => rfl
    exact hshut ▸ List.prefix_rfl

/-! ## The invariant -/

/-- A packet that a local handler published, with the description of the last reader. -/
def Known (mesh : Mesh Node) (pkt : GDPPacket) : Prop :=
  Carried pkt ∧ ∃ p ∈ mesh.published, ∃ description, pkt = received description p

theorem published_step (mesh : Mesh Node) (event : MeshEvent Node) :
    (mesh.step json recordJson bindingTable event).published =
      mesh.published ++ event.publications := by
  cases event with
  | publish n pkt => rfl
  | forward n reading =>
    refine Eq.trans ?_ (List.append_nil _).symm
    change (mesh.forward bindingTable n reading).published = mesh.published
    unfold Mesh.forward
    split <;> rfl
  | read i =>
    refine Eq.trans ?_ (List.append_nil _).symm
    change (mesh.read json i).published = mesh.published
    unfold Mesh.read
    split
    · dsimp only
      split <;> rfl
    · rfl
  | _ => exact (List.append_nil _).symm

variable (json recordJson bindingTable) in
theorem Known.step {pkt : GDPPacket} (h : mesh.Known pkt) (event : MeshEvent Node) :
    (mesh.step json recordJson bindingTable event).Known pkt := by
  obtain ⟨hpkt, p, hp, hdescription⟩ := h
  refine ⟨hpkt, p, ?_, hdescription⟩
  rw [published_step]
  exact List.mem_append_left _ hp

omit [DecidableEq Node] in
theorem Known.received {pkt : GDPPacket} (h : mesh.Known pkt) (description : Option String) :
    mesh.Known (received description pkt) := by
  obtain ⟨hpkt, p, hp, d, rfl⟩ := h
  exact ⟨hpkt.received description, p, hp, description, rfl⟩


/-- What holds of every reachable mesh whose published packets a stream carries. -/
structure Sound (json : SerdeJson GDPHeaderInTransit) (recordJson : SerdeJson GDPNameRecord)
    (bindingTable : Node → BindingTable) (mesh : Mesh Node) : Prop where
  refines : ∃ inFlight, Network.Reachable bindingTable (mesh.network inFlight) ∧
    ∀ i, (inFlight.filter (·.1 = i)).map Prod.snd =
      (mesh.sent i).drop (mesh.handledVia i).length
  link : ∀ {i : Nat} {l : Link Node}, mesh.links[i]? = some l →
    l.Sound json recordJson (mesh.sent i)
  sent_known : ∀ i, ∀ pkt ∈ mesh.sent i, mesh.Known pkt
  rx_known : ∀ n, ∀ p ∈ mesh.fibRx n, mesh.Known p.2
  lead : ∀ {n : Node} {i : Nat} {pkt : GDPPacket}, (some i, pkt) ∈ mesh.fibRx n →
    (mesh.links.map Link.lead)[i]? = some (.handler n)
  arrived : ∀ {n : Node} {i : Nat} {l : Link Node}, mesh.links[i]? = some l →
    l.lead = .handler n → mesh.handledVia i ++ via i (mesh.fibRx n) = l.delivered
  unhandled : ∀ {i : Nat}, (∀ n, (mesh.links.map Link.lead)[i]? ≠ some (.handler n)) →
    mesh.handledVia i = []

theorem Sound.start : Sound json recordJson bindingTable (initial : Mesh Node) := by
  refine ⟨⟨[], .initial, fun i => rfl⟩, nofun, ?_, ?_, ?_, nofun, fun _ => rfl⟩
  · intro i pkt hpkt
    cases hpkt
  · intro n p hp
    cases hp
  · intro n i pkt hpkt
    cases hpkt

theorem sound_network (h : Sound json recordJson bindingTable mesh) :
    Network.Sound bindingTable (mesh.network []) := by
  obtain ⟨inFlight, hreach, -⟩ := h.refines
  exact (Network.Sound.reachable hreach).of_inFlight []

theorem Sound.sent_carried (h : Sound json recordJson bindingTable mesh) (i : Nat) :
    ∀ pkt ∈ mesh.sent i, Carried pkt := fun pkt hpkt => (h.sent_known i pkt hpkt).1

theorem sent_eq_nil (h : Sound json recordJson bindingTable mesh) {i : Nat}
    (hi : mesh.links.length ≤ i) : mesh.sent i = [] :=
  queued_eq_nil (sound_network h) (by rwa [network, List.length_map])

/-- What is sent on the channel of an entry is meant for the entry. -/
theorem Sound.meant_of_sent (h : Sound json recordJson bindingTable mesh) {n : Node}
    {topic : GDPName} {dst : FibConnection Nat}
    (hdst : dst ∈ registered (bindingTable n) (mesh.log.inputs n) topic) {pkt : GDPPacket}
    (hpkt : pkt ∈ mesh.sent dst.tx) : pkt.gdpname = topic ∧ ∃ d, Meant d pkt.action dst := by
  have hnet := sound_network h
  obtain ⟨slot, hslot⟩ := List.mem_iff_getElem?.1 hdst
  obtain ⟨⟨m, sent⟩, hsent, rfl⟩ := List.mem_map.1 hpkt
  obtain ⟨hsent, htx⟩ := List.mem_filter.1 hsent
  obtain ⟨hentry, d, hserved⟩ := Network.entry_of_mem_sends hnet hsent
  obtain ⟨rfl, hname, hindex⟩ := hnet.unique hentry hslot (of_decide_eq_true htx)
  have hsame : sent.dst = dst := by
    rw [hname, hindex] at hentry
    exact Option.some.inj (hentry.symm.trans hslot)
  exact ⟨hname, d,
    (@served_iff_meant _ d _ (dst, sent.slot) (registered_of_mem hdst)).1 (hsame ▸ hserved)⟩

/-- Other links with the same leads and deliveries, on the same channels. -/
theorem Sound.relink (h : Sound json recordJson bindingTable mesh) {links : List (Link Node)}
    (hsame : links.map (fun l => (l.lead, l.delivered)) =
      mesh.links.map fun l => (l.lead, l.delivered))
    (hlinks : ∀ {i : Nat} {l : Link Node}, links[i]? = some l →
      l.Sound json recordJson (mesh.sent i)) :
    Sound json recordJson bindingTable { mesh with links } := by
  have hleads : links.map Link.lead = mesh.links.map Link.lead := by
    have := congrArg (List.map Prod.fst) hsame
    rwa [List.map_map, List.map_map] at this
  have hkey : ∀ {i : Nat} {l : Link Node}, links[i]? = some l → ∃ l' : Link Node,
      mesh.links[i]? = some l' ∧ l'.lead = l.lead ∧ l'.delivered = l.delivered := by
    intro i l hl
    have := congrArg (fun keys => keys[i]?) hsame
    rw [List.getElem?_map, List.getElem?_map, hl, Option.map_some, eq_comm,
      Option.map_eq_some_iff] at this
    obtain ⟨l', hl', heq⟩ := this
    exact ⟨l', hl', (Prod.mk.inj heq).1, (Prod.mk.inj heq).2⟩
  have hsent : ∀ i, sent { mesh with links } i = mesh.sent i := fun _ => rfl
  obtain ⟨inFlight, hreach, hflight⟩ := h.refines
  refine ⟨⟨inFlight, ?_, hflight⟩, hlinks, h.sent_known, h.rx_known, ?_, ?_, ?_⟩
  · unfold network at hreach ⊢
    rwa [hleads]
  · intro n i pkt hpkt
    rw [hleads]
    exact h.lead hpkt
  · intro n i l hl hlead
    obtain ⟨l', hl', hlead', hdelivered⟩ := hkey hl
    rw [← hdelivered]
    exact h.arrived hl' (hlead'.trans hlead)
  · intro i hi
    refine h.unhandled fun n => ?_
    rw [← hleads]
    exact hi n

/-! ## One step -/

section Connect

variable (n : Node) (update : FibStateChange Unit) (lead : Lead Node)
  (description : Option String)

variable (json recordJson bindingTable mesh) in
/-- An update sends nothing. -/
theorem sent_connect (i : Nat) :
    (mesh.step json recordJson bindingTable (.connect n update lead description)).sent i =
      mesh.sent i := by
  have hturn := queued_turn bindingTable (mesh.network []) n
    (.update (channelUpdate update mesh.links.length)) i
  rw [sends_update] at hturn
  exact hturn.trans (List.append_nil _)

omit [DecidableEq Node] in
theorem links_connect {links : List (Link Node)} {last l : Link Node} {i : Nat}
    (hl : (links ++ [last])[i]? = some l) :
    links[i]? = some l ∨ i = links.length ∧ l = last := by
  rcases Nat.lt_or_ge i links.length with hlt | hge
  · rw [List.getElem?_append_left hlt] at hl
    exact .inl hl
  · rw [List.getElem?_append_right hge] at hl
    obtain ⟨hslot, hl⟩ := List.getElem?_eq_some_iff.1 hl
    rw [List.length_singleton] at hslot
    rw [List.getElem_singleton] at hl
    exact .inr ⟨by omega, hl.symm⟩

/-- The network takes the same update. -/
theorem network_connect (inFlight : List (Nat × GDPPacket)) :
    (mesh.step json recordJson bindingTable (.connect n update lead description)).network inFlight =
      { (mesh.network inFlight).turn bindingTable n
          (.update (channelUpdate update mesh.links.length)) with
        channels := (mesh.network inFlight).channels ++ [lead] } := by
  unfold network Network.turn
  rw [sends_update, List.map_nil, List.append_nil, step, List.map_append]
  rfl

theorem Sound.connect (h : Sound json recordJson bindingTable mesh) :
    Sound json recordJson bindingTable
      (mesh.step json recordJson bindingTable (.connect n update lead description)) := by
  set mesh' := mesh.step json recordJson bindingTable (.connect n update lead description)
    with hmesh'
  have hsent : ∀ i, mesh'.sent i = mesh.sent i :=
    sent_connect json recordJson bindingTable mesh n update lead description
  have hleads : mesh'.links.map Link.lead = mesh.links.map Link.lead ++ [lead] := List.map_append
  have hnew : ∀ {m pkt}, (some mesh.links.length, pkt) ∉ mesh.fibRx m := by
    intro m pkt hmem
    have hlead := (List.getElem?_eq_some_iff.1 (h.lead hmem)).1
    rw [List.length_map] at hlead
    exact absurd hlead (Nat.lt_irrefl _)
  have hunhandled : mesh.handledVia mesh.links.length = [] := by
    refine h.unhandled fun m => ?_
    rw [List.getElem?_eq_none (Nat.le_of_eq (List.length_map _))]
    nofun
  obtain ⟨inFlight, hreach, hflight⟩ := h.refines
  refine ⟨⟨inFlight, ?_, ?_⟩, ?_, ?_, h.rx_known, ?_, ?_, ?_⟩
  · rw [network_connect]
    refine hreach.step (.update _ n _ lead ?_)
    intro tx htx
    rw [channelUpdate] at htx
    cases hdest : update.forwardDestination with
    | none => simp [hdest] at htx
    | some _ =>
      rw [network, List.length_map]
      simpa [hdest] using htx.symm
  · intro i
    rw [hsent]
    exact hflight i
  · intro i l hl
    rw [hsent]
    rcases links_connect hl with hold | ⟨rfl, rfl⟩
    · exact h.link hold
    · rw [sent_eq_nil h (Nat.le_refl _)]
      exact .new lead description
  · intro i
    rw [hsent]
    exact h.sent_known i
  · intro m i pkt hpkt
    rw [hleads]
    have hold := h.lead hpkt
    rw [List.getElem?_append_left (List.getElem?_eq_some_iff.1 hold).1]
    exact hold
  · intro m i l hl hlead
    rcases links_connect hl with hold | ⟨rfl, rfl⟩
    · exact h.arrived hold hlead
    · change mesh.handledVia _ ++ via _ (mesh.fibRx m) = []
      rw [hunhandled, via_eq_nil fun pkt => hnew]
      rfl
  · intro i hi
    refine h.unhandled fun m hm => hi m ?_
    rw [hleads, List.getElem?_append_left (List.getElem?_eq_some_iff.1 hm).1]
    exact hm

end Connect

theorem Sound.publish (h : Sound json recordJson bindingTable mesh) (n : Node) {pkt : GDPPacket}
    (hpkt : Carried pkt) :
    Sound json recordJson bindingTable
      (mesh.step json recordJson bindingTable (.publish n pkt)) := by
  have hmem : ∀ {m p}, p ∈ Function.update mesh.fibRx n (mesh.fibRx n ++ [(none, pkt)]) m →
      p ∈ mesh.fibRx m ∨ p = (none, pkt) := by
    intro m p hp
    by_cases hm : m = n
    · subst hm
      rw [Function.update_self, List.mem_append, List.mem_singleton] at hp
      exact hp
    · rw [Function.update_of_ne hm] at hp
      exact .inl hp
  have hknown : ∀ {p}, mesh.Known p →
      (mesh.step json recordJson bindingTable (.publish n pkt)).Known p := by
    rintro p ⟨hp, q, hq, hdescription⟩
    exact ⟨hp, q, List.mem_append_left _ hq, hdescription⟩
  refine ⟨h.refines, h.link, fun i p hp => hknown (h.sent_known i p hp), ?_, ?_, ?_, h.unhandled⟩
  · intro m p hp
    rcases hmem hp with hp | rfl
    · exact hknown (h.rx_known m p hp)
    · exact ⟨hpkt, pkt, List.mem_append_right _ List.mem_cons_self, pkt.description, rfl⟩
  · intro m i q hq
    rcases hmem hq with hq | hq
    · exact h.lead hq
    · cases hq
  · intro m i l hl hlead
    have hvia : via i (Function.update mesh.fibRx n (mesh.fibRx n ++ [(none, pkt)]) m) =
        via i (mesh.fibRx m) := by
      by_cases hm : m = n
      · subst hm
        rw [Function.update_self, via_append, via_cons_of_ne (Option.some_ne_none i).symm]
        exact List.append_nil _
      · rw [Function.update_of_ne hm]
    change mesh.handledVia i ++ via i (Function.update mesh.fibRx n _ m) = l.delivered
    rw [hvia]
    exact h.arrived hl hlead

theorem Sound.modify (h : Sound json recordJson bindingTable mesh) (i : Nat)
    {f : Link Node → Link Node} (hf : ∀ l, (f l).lead = l.lead ∧ (f l).delivered = l.delivered)
    (hsound : ∀ {l : Link Node}, l.Sound json recordJson (mesh.sent i) →
      (f l).Sound json recordJson (mesh.sent i)) :
    Sound json recordJson bindingTable { mesh with links := mesh.links.modify i f } := by
  refine h.relink (map_modify i fun l => Prod.ext (hf l).1 (hf l).2) ?_
  intro j l hl
  rw [List.getElem?_modify] at hl
  obtain ⟨l', hl', rfl⟩ := Option.map_eq_some_iff.1 hl
  split
  · rename_i hij
    subst hij
    exact hsound (h.link hl')
  · exact h.link hl'

theorem Sound.take (h : Sound json recordJson bindingTable mesh) (i : Nat)
    (randomName : GDPName) :
    Sound json recordJson bindingTable
      (mesh.step json recordJson bindingTable (.take i randomName)) :=
  h.modify i (take_same json recordJson · randomName) fun hl =>
    hl.take (fun pkt hpkt => (h.sent_carried i pkt hpkt).1) randomName

theorem Sound.shut (h : Sound json recordJson bindingTable mesh) (i : Nat) :
    Sound json recordJson bindingTable (mesh.step json recordJson bindingTable (.shut i)) :=
  h.modify i (fun _ => ⟨rfl, rfl⟩) fun hl => hl.shut

section Carry

variable (hround : json.RoundTrips) (hnul : json.NoNul) (hbrace : json.OpensBrace)

include hround hnul hbrace

theorem Sound.delivered_known (h : Sound json recordJson bindingTable mesh) {i : Nat} {n : Node}
    {l : Link Node} (hl : l.Sound json recordJson (mesh.sent i)) (hlead : l.lead = .handler n) :
    ∀ pkt ∈ l.delivered, mesh.Known pkt := by
  intro pkt hpkt
  have hinitial := hl.delivered_initial hround hnul hbrace (h.sent_carried i) hlead
  obtain ⟨p, hp, rfl⟩ := List.mem_map.1 (hinitial.subset hpkt)
  exact (h.sent_known i p hp).received l.description

section Read

variable (h : Sound json recordJson bindingTable mesh) {i : Nat} {l : Link Node}
  (hl : mesh.links[i]? = some l)

omit [DecidableEq Node] hround hnul hbrace in
include hl in
variable (json) in
theorem getElem?_set_read (j : Nat) :
    (mesh.links.set i (l.read json).1)[j]? =
      if j = i then some (l.read json).1 else mesh.links[j]? := by
  obtain ⟨hlt, -⟩ := List.getElem?_eq_some_iff.1 hl
  rw [List.getElem?_set]
  by_cases hij : i = j
  · subst hij
    rw [if_pos rfl, if_pos hlt, if_pos rfl]
  · rw [if_neg hij, if_neg (Ne.symm hij)]

omit hround hnul hbrace

include h hl

/-- The links when one of them was read. -/
theorem Sound.links_read {j : Nat} {l' : Link Node}
    (hl' : (mesh.links.set i (l.read json).1)[j]? = some l') :
    l'.Sound json recordJson (mesh.sent j) := by
  rw [getElem?_set_read json hl] at hl'
  split at hl'
  · rename_i hij
    cases hl'
    exact hij ▸ (h.link hl).read
  · exact h.link hl'

/-- The network does not see that a link is read. -/
theorem Sound.refines_read (fibRx : Node → List (Option Nat × GDPPacket)) :
    ∃ inFlight, Network.Reachable bindingTable
        (network { mesh with links := mesh.links.set i (l.read json).1, fibRx } inFlight) ∧
      ∀ j, (inFlight.filter (·.1 = j)).map Prod.snd =
        (mesh.sent j).drop (mesh.handledVia j).length := by
  obtain ⟨inFlight, hreach, hflight⟩ := h.refines
  refine ⟨inFlight, ?_, hflight⟩
  unfold network at hreach ⊢
  rwa [leads_set hl (read_same json l).1]

/-- Nobody reads the channel of a local handler as a stream. -/
theorem Sound.read_local (hlocal : l.lead = .localQueue) :
    Sound json recordJson bindingTable
      { mesh with links := mesh.links.set i (l.read json).1 } := by
  have hlead := (read_same json l).1
  have hleads := leads_set hl hlead
  refine ⟨h.refines_read hl mesh.fibRx, h.links_read hl, h.sent_known, h.rx_known, ?_, ?_,
    fun hj => h.unhandled (hleads ▸ hj)⟩
  · intro n j pkt hpkt
    rw [hleads]
    exact h.lead hpkt
  · intro n j l' hl' hlead'
    rw [getElem?_set_read json hl] at hl'
    split at hl'
    · cases hl'
      rw [hlead, hlocal] at hlead'
      cases hlead'
    · exact h.arrived hl' hlead'

include hround hnul hbrace

theorem Sound.read_handler {n : Node} (hn : l.lead = .handler n) :
    Sound json recordJson bindingTable
      { mesh with
        links := mesh.links.set i (l.read json).1
        fibRx := Function.update mesh.fibRx n
          (mesh.fibRx n ++ (l.read json).2.map (some i, ·)) } := by
  obtain ⟨hlead, hdelivered⟩ := read_same json l
  have hleads := leads_set hl hlead
  have hknown : ∀ pkt ∈ (l.read json).2, mesh.Known pkt := by
    intro pkt hpkt
    refine h.delivered_known hround hnul hbrace (h.link hl).read (hlead.trans hn) pkt ?_
    rw [hdelivered]
    exact List.mem_append_right _ hpkt
  have hmem : ∀ {m p}, p ∈ Function.update mesh.fibRx n
      (mesh.fibRx n ++ (l.read json).2.map (some i, ·)) m →
      p ∈ mesh.fibRx m ∨ m = n ∧ ∃ pkt ∈ (l.read json).2, (some i, pkt) = p := by
    intro m p hp
    by_cases hm : m = n
    · subst hm
      rw [Function.update_self, List.mem_append, List.mem_map] at hp
      exact hp.imp_right fun hnew => ⟨rfl, hnew⟩
    · rw [Function.update_of_ne hm] at hp
      exact .inl hp
  refine ⟨h.refines_read hl _, h.links_read hl, h.sent_known, ?_, ?_, ?_,
    fun hj => h.unhandled (hleads ▸ hj)⟩
  · intro m p hp
    rcases hmem hp with hp | ⟨-, pkt, hpkt, rfl⟩
    · exact h.rx_known m p hp
    · exact hknown pkt hpkt
  · intro m j pkt hpkt
    rw [hleads]
    rcases hmem hpkt with hold | ⟨rfl, pkt', -, heq⟩
    · exact h.lead hold
    · cases heq
      rw [List.getElem?_map, hl, Option.map_some, hn]
  · intro m j l' hl' hlead'
    rw [getElem?_set_read json hl] at hl'
    change mesh.handledVia j ++ via j (Function.update mesh.fibRx n _ m) = l'.delivered
    split at hl'
    · rename_i hij
      subst hij
      cases hl'
      rw [hlead, hn] at hlead'
      cases hlead'
      rw [Function.update_self, via_append, via_tagged, ← List.append_assoc, h.arrived hl hn,
        hdelivered]
    · rename_i hij
      by_cases hm : m = n
      · subst hm
        rw [Function.update_self, via_append, via_tagged_of_ne (Ne.symm hij), List.append_nil]
        exact h.arrived hl' hlead'
      · rw [Function.update_of_ne hm]
        exact h.arrived hl' hlead'

end Read

theorem Sound.read (h : Sound json recordJson bindingTable mesh) (i : Nat) :
    Sound json recordJson bindingTable (mesh.step json recordJson bindingTable (.read i)) := by
  change Sound json recordJson bindingTable (mesh.read json i)
  obtain hsame | ⟨l, hl, ⟨hlocal, hread⟩ | ⟨n, hn, hread⟩⟩ := mesh.read_cases json i
  · rw [hsame]
    exact h
  · rw [hread]
    exact h.read_local hl hlocal
  · rw [hread]
    exact h.read_handler hround hnul hbrace hl hn

/-- The next packet of `fib_rx` is the first that a link of its node still has to bring. -/
theorem Sound.head (h : Sound json recordJson bindingTable mesh) {n : Node} {i : Nat}
    {pkt : GDPPacket} {rest : List (Option Nat × GDPPacket)}
    (hrx : mesh.fibRx n = (some i, pkt) :: rest) :
    ∃ description p awaited, (mesh.sent i).drop (mesh.handledVia i).length = p :: awaited ∧
      pkt = received description p := by
  have hmem : (some i, pkt) ∈ mesh.fibRx n := hrx ▸ List.mem_cons_self
  have hlead := h.lead hmem
  rw [List.getElem?_map, Option.map_eq_some_iff] at hlead
  obtain ⟨l, hl, hlead⟩ := hlead
  obtain ⟨later, hinitial⟩ :=
    (h.link hl).delivered_initial hround hnul hbrace (h.sent_carried i) hlead
  rw [← h.arrived hl hlead, hrx] at hinitial
  have hdrop := congrArg (List.drop (mesh.handledVia i).length) hinitial
  rw [List.append_assoc, List.drop_left, ← List.map_drop, via_cons_self, List.cons_append,
    eq_comm, List.map_eq_cons_iff] at hdrop
  obtain ⟨p, awaited, hawaited, hp, -⟩ := hdrop
  exact ⟨l.description, p, awaited, hawaited, hp.symm⟩

/-- What was handled of a link was sent on it. -/
theorem Sound.handled_le (h : Sound json recordJson bindingTable mesh) (i : Nat) :
    (mesh.handledVia i).length ≤ (mesh.sent i).length := by
  by_cases hlead : ∀ n, (mesh.links.map Link.lead)[i]? ≠ some (.handler n)
  · rw [h.unhandled hlead]
    exact Nat.zero_le _
  · push Not at hlead
    obtain ⟨n, hlead⟩ := hlead
    rw [List.getElem?_map, Option.map_eq_some_iff] at hlead
    obtain ⟨l, hl, hlead⟩ := hlead
    have hinitial := (h.link hl).delivered_initial hround hnul hbrace (h.sent_carried i) hlead
    have hle := hinitial.length_le
    rw [← h.arrived hl hlead, List.length_append, List.length_map] at hle
    omega

theorem Sound.taken_le (h : Sound json recordJson bindingTable mesh) {n : Node}
    {tag : Option Nat} {pkt : GDPPacket} {rest : List (Option Nat × GDPPacket)}
    (hrx : mesh.fibRx n = (tag, pkt) :: rest) (i : Nat) :
    (mesh.handledVia i ++ via i [(tag, pkt)]).length ≤ (mesh.sent i).length := by
  by_cases htag : tag = some i
  · subst htag
    obtain ⟨description, p, awaited, hawaited, -⟩ := h.head hround hnul hbrace hrx
    have hlength := congrArg List.length hawaited
    rw [List.length_drop, List.length_cons] at hlength
    rw [via_cons_self, List.length_append]
    change _ + 1 ≤ _
    omega
  · rw [via_cons_of_ne htag]
    exact (List.append_nil (mesh.handledVia i)).symm ▸ h.handled_le hround hnul hbrace i

omit hround hnul hbrace in
theorem eq_of_mem_sentOn {table : BindingTable} {state : Fib Nat} {reading : Reading}
    {pkt p : GDPPacket} {i : Nat}
    (hp : p ∈ sentOn (Fib.step table state (.packet reading pkt)).2.sends i) : p = pkt := by
  obtain ⟨sent, hsent, rfl⟩ := List.mem_map.1 hp
  have hsent := (List.mem_filter.1 hsent).1
  cases state with
  | aborted => cases hsent
  | running h => exact packetArm_pkt hsent

/-- The network that takes the same packet. -/
theorem Sound.refines_forward (h : Sound json recordJson bindingTable mesh) {n : Node}
    {tag : Option Nat} {pkt : GDPPacket} {rest : List (Option Nat × GDPPacket)}
    (hrx : mesh.fibRx n = (tag, pkt) :: rest) (reading : Reading) :
    ∃ inFlight,
      Network.Reachable bindingTable
        ((mesh.network inFlight).turn bindingTable n (.packet reading pkt)) ∧
      ∀ i, (inFlight.filter (·.1 = i)).map Prod.snd =
        (mesh.sent i).drop (mesh.handledVia i ++ via i [(tag, pkt)]).length := by
  obtain ⟨inFlight, hreach, hflight⟩ := h.refines
  cases tag with
  | none =>
    refine ⟨inFlight, hreach.step (.publish _ n reading pkt), ?_⟩
    intro i
    rw [via_cons_of_ne (Option.some_ne_none i).symm]
    exact (hflight i).trans (by rw [show via i [] = [] from rfl, List.append_nil])
  | some i =>
    obtain ⟨description, p, awaited, hawaited, rfl⟩ := h.head hround hnul hbrace hrx
    have hfirst := (hflight i).trans hawaited
    rw [List.map_eq_cons_iff] at hfirst
    obtain ⟨⟨channel, p'⟩, later, hfilter, rfl, hlater⟩ := hfirst
    obtain ⟨before, after, hsplit, hbefore, hchannel, hafter⟩ := List.filter_eq_cons_iff.1 hfilter
    obtain rfl : channel = i := of_decide_eq_true hchannel
    have hmem : (some channel, received description p') ∈ mesh.fibRx n :=
      hrx ▸ List.mem_cons_self
    have hlead := h.lead hmem
    refine ⟨before ++ after, hreach.step (.deliver _ before after channel p' n reading description
      hsplit hlead), ?_⟩
    intro j
    by_cases hj : channel = j
    · subst hj
      rw [via_cons_self, List.length_append, ← List.drop_drop, hawaited, List.filter_append,
        List.filter_eq_nil_iff.2 hbefore, List.nil_append, hafter]
      exact hlater
    · have hold := hflight j
      rw [hsplit, List.filter_append, List.filter_cons_of_neg (by simpa using hj),
        ← List.filter_append] at hold
      rw [hold, via_cons_of_ne (fun heq => hj (Option.some.inj heq))]
      exact congrArg (fun pkts => (mesh.sent j).drop (List.length pkts)) (List.append_nil _).symm

section Forward

variable {n : Node} {tag : Option Nat} {pkt : GDPPacket} {rest : List (Option Nat × GDPPacket)}
  (hrx : mesh.fibRx n = (tag, pkt) :: rest) (reading : Reading)

omit hround hnul hbrace

include hrx

theorem sent_forward (i : Nat) :
    (mesh.forward bindingTable n reading).sent i = mesh.sent i ++ sentOn
      (Fib.step (bindingTable n) (mesh.log.states n) (.packet reading pkt)).2.sends i := by
  rw [forward_eq bindingTable hrx]
  exact queued_turn bindingTable (mesh.network []) n (.packet reading pkt) i

theorem handledVia_forward (i : Nat) :
    (mesh.forward bindingTable n reading).handledVia i =
      mesh.handledVia i ++ via i [(tag, pkt)] := by
  rw [forward_eq bindingTable hrx]
  unfold handledVia
  rw [List.map_append, via_append]
  rfl

theorem getElem?_links_forward (i : Nat) :
    (mesh.forward bindingTable n reading).links[i]? = mesh.links[i]?.map fun l => l.send (sentOn
      (Fib.step (bindingTable n) (mesh.log.states n) (.packet reading pkt)).2.sends i) := by
  rw [forward_eq bindingTable hrx]
  exact List.getElem?_mapIdx

theorem leads_forward :
    (mesh.forward bindingTable n reading).links.map Link.lead = mesh.links.map Link.lead := by
  rw [forward_eq bindingTable hrx]
  exact leads_send ..

theorem mem_rx_forward {m : Node} {p : Option Nat × GDPPacket}
    (hp : p ∈ (mesh.forward bindingTable n reading).fibRx m) : p ∈ mesh.fibRx m := by
  rw [forward_eq bindingTable hrx] at hp
  by_cases hm : m = n
  · subst hm
    change p ∈ Function.update mesh.fibRx m rest m at hp
    rw [Function.update_self] at hp
    rw [hrx]
    exact List.mem_cons_of_mem _ hp
  · change p ∈ Function.update mesh.fibRx n rest m at hp
    rwa [Function.update_of_ne hm] at hp

/-- The packet is the next one of its link. -/
theorem via_forward (h : Sound json recordJson bindingTable mesh) {i : Nat} {m : Node}
    (hlead : (mesh.links.map Link.lead)[i]? = some (.handler m)) :
    via i [(tag, pkt)] ++ via i ((mesh.forward bindingTable n reading).fibRx m) =
      via i (mesh.fibRx m) := by
  rw [forward_eq bindingTable hrx]
  change via i [(tag, pkt)] ++ via i (Function.update mesh.fibRx n rest m) = _
  by_cases hm : m = n
  · subst hm
    rw [Function.update_self, hrx, ← via_append]
    rfl
  · have htag : tag ≠ some i := by
      rintro rfl
      have hown := h.lead (hrx ▸ List.mem_cons_self)
      exact hm (Lead.handler.inj (Option.some.inj (hlead.symm.trans hown)))
    rw [Function.update_of_ne hm, via_cons_of_ne htag]
    rfl

/-- The network with what the handler sends in flight. -/
theorem network_forward (inFlight : List (Nat × GDPPacket)) :
    let sends := (Fib.step (bindingTable n) (mesh.log.states n) (.packet reading pkt)).2.sends
    (mesh.forward bindingTable n reading).network
        (inFlight ++ sends.map fun s => (s.dst.tx, s.pkt)) =
      (mesh.network inFlight).turn bindingTable n (.packet reading pkt) := by
  unfold network Network.turn
  rw [leads_forward hrx, forward_eq bindingTable hrx]
  rfl

end Forward

theorem Sound.forward (h : Sound json recordJson bindingTable mesh) (n : Node)
    (reading : Reading) :
    Sound json recordJson bindingTable
      (mesh.step json recordJson bindingTable (.forward n reading)) := by
  change Sound json recordJson bindingTable (mesh.forward bindingTable n reading)
  cases hrx : mesh.fibRx n with
  | nil =>
    unfold Mesh.forward
    rw [hrx]
    exact h
  | cons head rest =>
    obtain ⟨tag, pkt⟩ := head
    have hmem : (tag, pkt) ∈ mesh.fibRx n := hrx ▸ List.mem_cons_self
    have hknown : ∀ {p}, mesh.Known p → (mesh.forward bindingTable n reading).Known p :=
      fun hp => hp.step json recordJson bindingTable (.forward n reading)
    obtain ⟨inFlight, hreach, hflight⟩ := h.refines_forward hround hnul hbrace hrx reading
    refine ⟨⟨_, network_forward hrx reading inFlight ▸ hreach, ?_⟩, ?_, ?_, ?_, ?_, ?_, ?_⟩
    · intro i
      rw [List.filter_append, List.map_append, hflight, filter_inFlight, sent_forward hrx,
        handledVia_forward hrx,
        List.drop_append_of_le_length (h.taken_le hround hnul hbrace hrx i)]
    · intro i l hl
      rw [getElem?_links_forward hrx] at hl
      obtain ⟨l', hl', rfl⟩ := Option.map_eq_some_iff.1 hl
      rw [sent_forward hrx]
      exact (h.link hl').send _
    · intro i p hp
      rw [sent_forward hrx, List.mem_append] at hp
      rcases hp with hp | hp
      · exact hknown (h.sent_known i p hp)
      · rw [eq_of_mem_sentOn hp]
        exact hknown (h.rx_known n (tag, pkt) hmem)
    · intro m p hp
      exact hknown (h.rx_known m p (mem_rx_forward hrx reading hp))
    · intro m i p hp
      rw [leads_forward hrx]
      exact h.lead (mem_rx_forward hrx reading hp)
    · intro m i l hl hlead
      rw [getElem?_links_forward hrx] at hl
      obtain ⟨l', hl', rfl⟩ := Option.map_eq_some_iff.1 hl
      rw [(send_same l' _).1] at hlead
      rw [(send_same l' _).2, handledVia_forward hrx, List.append_assoc, via_forward hrx reading h,
        h.arrived hl' hlead]
      rw [List.getElem?_map, hl', Option.map_some, hlead]
    · intro i hi
      rw [leads_forward hrx] at hi
      rw [handledVia_forward hrx, h.unhandled hi, via_cons_of_ne fun heq => ?_]
      · rfl
      · subst heq
        exact hi n (h.lead hmem)

/-! ## Every run -/

omit hround hnul hbrace in
/-- A local handler publishes packets that a stream carries. -/
def Publishes : MeshEvent Node → Prop
  | .publish _ pkt => Carried pkt
  | _ => True

theorem Sound.step (h : Sound json recordJson bindingTable mesh) {event : MeshEvent Node}
    (hevent : Publishes event) :
    Sound json recordJson bindingTable (mesh.step json recordJson bindingTable event) := by
  cases event with
  | connect n update lead description => exact h.connect n update lead description
  | publish n pkt => exact h.publish n hevent
  | forward n reading => exact h.forward hround hnul hbrace n reading
  | take i randomName => exact h.take i randomName
  | read i => exact h.read hround hnul hbrace i
  | shut i => exact h.shut i

theorem sound_after {events : List (MeshEvent Node)} (hevents : ∀ event ∈ events, Publishes event) :
    Sound json recordJson bindingTable
      (Run.after (step json recordJson bindingTable) initial events) :=
  (Run.throughout_of_forall initial hevents).invariant _
    (fun _ _ h hevent => h.step hround hnul hbrace hevent) .start

def sampleUpdate : FibStateChange Unit :=
  { action := .add, connectionType := .receiver, topicGdpName := (samplePacket []).gdpname,
    forwardDestination := some (), interface := some "ros", address := some "/chatter",
    description := none }

abbrev publisher : Fin 2 := 0

abbrev subscriber : Fin 2 := 1

/-- A link from the publisher's machine to the subscriber's, and the subscriber there. -/
def sampleSetup : List (MeshEvent (Fin 2)) :=
  [.connect publisher sampleUpdate (.handler subscriber) none,
    .connect subscriber sampleUpdate .localQueue none]

/-- Two packets with a guid each. -/
def firstPacket : GDPPacket := samplePacket [0x70]

def secondPacket : GDPPacket := { samplePacket [0x71, 0x72] with guid := some Link.anyName }

/-- Both packets are published and go over the link, each as a header and a payload; the first
is taken by the handler at the far end. -/
def sampleMeshRun : List (MeshEvent (Fin 2)) :=
  sampleSetup ++
    [.publish publisher firstPacket, .forward publisher ⟨0, some "eth0"⟩,
      .publish publisher secondPacket, .take 0 Link.anyName,
      .forward publisher ⟨1, some "eth0"⟩, .read 0, .take 0 Link.anyName, .read 0, .read 0,
      .read 0, .forward subscriber ⟨2, some "eth0"⟩]

omit hround hnul hbrace in
theorem publishes_sampleMeshRun : ∀ event ∈ sampleMeshRun, Publishes event := by
  have hfirst : Carried firstPacket := ⟨sendable_samplePacket _, [0x70], rfl, by decide⟩
  have hsecond : Carried secondPacket := ⟨⟨.inl rfl, rfl, rfl⟩, [0x71, 0x72], rfl, by decide⟩
  simp [sampleMeshRun, sampleSetup, Publishes, hfirst, hsecond]

/-- **Main result.**  In every run in which local handlers publish packets that a stream carries,
what the FIB handler at the far end of a link takes or has in its queue is, in order and each
once, what was sent on the link's channel: a first part of it, and all of it once the writer's
queue and the stream are empty, if the stream is up.  After its handshake no stream answers a
keepalive. -/
theorem links_fifo (recordJson : SerdeJson GDPNameRecord) (bindingTable : Node → BindingTable)
    {events : List (MeshEvent Node)} (hevents : ∀ event ∈ events, Publishes event) :
    let mesh := Run.after (Mesh.step json recordJson bindingTable) initial events
    ∀ (i : Nat) (l : Link Node) (n : Node), mesh.links[i]? = some l → l.lead = .handler n →
      mesh.handledVia i ++ via i (mesh.fibRx n) <+: (mesh.sent i).map (received l.description) ∧
      (l.up = true → l.queue = [] → l.wire = [] →
        mesh.handledVia i ++ via i (mesh.fibRx n) = (mesh.sent i).map (received l.description)) ∧
      l.answers = [] := by
  intro mesh i l n hl hlead
  have h : Sound json recordJson bindingTable mesh := sound_after hround hnul hbrace hevents
  rw [h.arrived hl hlead]
  exact ⟨(h.link hl).delivered_initial hround hnul hbrace (h.sent_carried i) hlead,
    (h.link hl).delivered_all hround hnul hbrace (h.sent_carried i) hlead,
    (h.link hl).answers_nil (h.sent_carried i) hlead⟩

omit hround hnul hbrace in
/-- Both packets are at the far end, in their order. -/
theorem links_fifo_sample :
    let mesh := Run.after (Mesh.step headerJson unusedRecordJson fun _ => none) initial
      sampleMeshRun
    mesh.sent 0 = [firstPacket, secondPacket] ∧
      mesh.handledVia 0 ++ via 0 (mesh.fibRx subscriber) = [firstPacket, secondPacket] := by
  intro mesh
  have hsent : mesh.sent 0 = [firstPacket, secondPacket] := by decide +kernel
  have hstate : mesh.links[0]?.map
      (fun l => (l.lead, l.up, l.queue, l.wire.isEmpty, l.description)) =
        some (.handler subscriber, true, [], true, none) := by decide +kernel
  obtain ⟨l, hl, hfields⟩ := Option.map_eq_some_iff.1 hstate
  simp only [Prod.mk.injEq, List.isEmpty_iff] at hfields
  obtain ⟨hlead, hup, hqueue, hwire, hdescription⟩ := hfields
  have hall := (links_fifo headerJson_roundTrips headerJson_noNul headerJson_opensBrace
    unusedRecordJson _ publishes_sampleMeshRun 0 l subscriber hl hlead).2.1 hup hqueue hwire
  refine ⟨hsent, hall.trans ?_⟩
  rw [hsent, hdescription]
  rfl

/-- **Main result.**  Every run in which local handlers publish packets that a stream carries is a
run of the network, with the same turns of the FIB handlers, in which what is in flight on a
channel is what its far end has not taken; so a handler makes at most one round for the Forward
or Response packets of a guid. -/
theorem refines_network (recordJson : SerdeJson GDPNameRecord)
    (bindingTable : Node → BindingTable) {events : List (MeshEvent Node)}
    (hevents : ∀ event ∈ events, Publishes event) :
    let mesh := Run.after (Mesh.step json recordJson bindingTable) initial events
    ∃ net, Network.Reachable bindingTable net ∧ net.log = mesh.log ∧
      net.channels = mesh.links.map Link.lead ∧
      (∀ i, (net.inFlight.filter (·.1 = i)).map Prod.snd =
        (mesh.sent i).drop (mesh.handledVia i).length) ∧
      ∀ n guid, (mesh.log.visits n).countP (Network.isRound guid) ≤ 1 := by
  intro mesh
  have h : Sound json recordJson bindingTable mesh := sound_after hround hnul hbrace hevents
  obtain ⟨inFlight, hreach, hflight⟩ := h.refines
  exact ⟨mesh.network inFlight, hreach, rfl, rfl, hflight,
    fun n guid => Network.rounds_le_one (.reachable hreach) n guid⟩

omit hround hnul hbrace in
/-- The second packet is in flight until the handler takes it. -/
theorem refines_network_sample :
    let mesh := Run.after (Mesh.step headerJson unusedRecordJson fun _ => none) initial
      sampleMeshRun
    ∃ net, Network.Reachable (fun _ => none) net ∧ net.log = mesh.log ∧
      net.channels = mesh.links.map Link.lead ∧
      (net.inFlight.filter (·.1 = 0)).map Prod.snd = [secondPacket] ∧
      ∀ n guid, (mesh.log.visits n).countP (Network.isRound guid) ≤ 1 := by
  intro mesh
  obtain ⟨net, hreach, hlog, hchannels, hflight, hrounds⟩ :=
    refines_network headerJson_roundTrips headerJson_noNul headerJson_opensBrace unusedRecordJson
      (fun _ => none) publishes_sampleMeshRun
  have hleft : (mesh.sent 0).drop (mesh.handledVia 0).length = [secondPacket] := by
    decide +kernel
  exact ⟨net, hreach, hlog, hchannels, (hflight 0).trans hleft, hrounds⟩

/-- **Main result.**  What a run in which local handlers publish packets that a stream carries sends
on the channel of a table entry was published by a local handler of some machine, for the topic
and the kind of the entry, and only its description has changed; an entry for Forward or Response
packets is sent each guid at most once. -/
theorem queues_authentic (recordJson : SerdeJson GDPNameRecord)
    (bindingTable : Node → BindingTable) {events : List (MeshEvent Node)}
    (hevents : ∀ event ∈ events, Publishes event) :
    let mesh := Run.after (Mesh.step json recordJson bindingTable) initial events
    ∀ n topic, ∀ dst ∈ registered (bindingTable n) (mesh.log.inputs n) topic,
      (∀ pkt ∈ mesh.sent dst.tx, pkt.gdpname = topic ∧
        (∃ d, Meant d pkt.action dst) ∧
        ∃ p ∈ mesh.published, ∃ description, pkt = received description p) ∧
      (dst.connectionType = .receiver ∨ dst.connectionType = .responseReceiver →
        ∀ guid, (mesh.sent dst.tx).countP (·.guid = guid) ≤ 1) := by
  intro mesh n topic dst hdst
  have h : Sound json recordJson bindingTable mesh := sound_after hround hnul hbrace hevents
  refine ⟨fun pkt hpkt => ?_, fun htype guid =>
    Network.queued_le_one (sound_network h) ⟨n, topic, dst, hdst, rfl, htype⟩ guid⟩
  obtain ⟨hname, hmeant⟩ := h.meant_of_sent hdst hpkt
  exact ⟨hname, hmeant, (h.sent_known dst.tx pkt hpkt).2⟩

omit hround hnul hbrace in
theorem queues_authentic_sample :
    let mesh := Run.after (Mesh.step headerJson unusedRecordJson fun _ => none) initial
      sampleMeshRun
    ∃ dst ∈ registered none (mesh.log.inputs 0) (samplePacket []).gdpname,
      mesh.sent dst.tx = [firstPacket, secondPacket] ∧
      (∀ pkt ∈ mesh.sent dst.tx, pkt.gdpname = (samplePacket []).gdpname ∧
        (∃ d, Meant d pkt.action dst) ∧
        ∃ p ∈ mesh.published, ∃ description, pkt = received description p) ∧
      (dst.connectionType = .receiver ∨ dst.connectionType = .responseReceiver →
        ∀ guid, (mesh.sent dst.tx).countP (·.guid = guid) ≤ 1) := by
  intro mesh
  let entry : FibConnection Nat :=
    { state := .running, connectionType := .receiver, tx := 0, description := none,
      interface := some "ros", address := some "/chatter" }
  have hentry : entry ∈ registered none (mesh.log.inputs 0) (samplePacket []).gdpname := by
    decide +kernel
  have hsent : mesh.sent entry.tx = [firstPacket, secondPacket] := by decide +kernel
  exact ⟨entry, hentry, hsent, queues_authentic headerJson_roundTrips headerJson_noNul
    headerJson_opensBrace unusedRecordJson (fun _ => none) publishes_sampleMeshRun 0 _ entry hentry⟩

end Carry

end Mesh

end RtFogros
