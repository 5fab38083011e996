import RtFogros.Mesh.Refinement

/-!
# What events leave as it is

A link changes its queue when its handler sends and its wire when it is read; what was taken from
it, and whether it is up, changes only when somebody takes from it or shuts it.

`link_kept_after` says so for a run of events that do not touch the link, with `Touches` a
predicate on the event alone, and `link_take` says what a task that takes a packet changes.  The
tasks of topics rest on the two: the mesh goes on between two packets that a task takes.
-/

namespace RtFogros

open FibHandler Kcp

namespace Mesh

variable {Node : Type} [DecidableEq Node] {json : SerdeJson GDPHeaderInTransit}
  {recordJson : SerdeJson GDPNameRecord} {bindingTable : Node → BindingTable}
  {mesh : Mesh Node}

/-! ## Packets -/

theorem published_after (events : List (MeshEvent Node)) :
    (Run.after (step json recordJson bindingTable) mesh events).published =
      mesh.published ++ events.flatMap MeshEvent.publications := by
  induction events generalizing mesh with
  | nil => exact (List.append_nil _).symm
  | cons event events ih =>
    rw [Run.after_cons, ih, published_step, List.flatMap_cons, List.append_assoc]

/-- A Forward packet is sent only on the channels of receivers. -/
theorem Sound.oneWay_of_sent (h : Sound json recordJson bindingTable mesh) {i : Nat}
    {pkt : GDPPacket} (hpkt : pkt ∈ mesh.sent i) (haction : pkt.action = .forward) :
    Network.IsOneWayQueue bindingTable (mesh.network []) i := by
  obtain ⟨⟨n, sent⟩, hsent, rfl⟩ := List.mem_map.1 hpkt
  obtain ⟨hsent, htx⟩ := List.mem_filter.1 hsent
  obtain ⟨hentry, d, hserved⟩ := Network.entry_of_mem_sends (sound_network h) hsent
  rw [show sent.pkt.action = .forward from haction] at hserved
  have hserved : Listens .receiver (sent.dst, sent.slot) := hserved
  exact ⟨n, _, sent.dst, List.mem_of_getElem? hentry, of_decide_eq_true htx, .inl hserved.2⟩

/-! ## Links -/

/-- The event is about the link at this index. -/
def Touches (i : Nat) : MeshEvent Node → Prop
  | .take j _ | .shut j => j = i
  | _ => False

variable (json recordJson bindingTable) in
theorem link_kept {i : Nat} {l : Link Node} (hl : mesh.links[i]? = some l)
    {event : MeshEvent Node} (h : ¬ Touches i event) :
    ∃ l', (mesh.step json recordJson bindingTable event).links[i]? = some l' ∧
      l'.lead = l.lead ∧ l'.up = l.up ∧ l'.takenOff = l.takenOff := by
  have hlt : i < mesh.links.length := (List.getElem?_eq_some_iff.1 hl).1
  cases event with
  | connect n update lead description =>
    exact ⟨l, (List.getElem?_append_left hlt).trans hl, rfl, rfl, rfl⟩
  | publish n pkt => exact ⟨l, hl, rfl, rfl, rfl⟩
  | forward n reading =>
    change ∃ l', (mesh.forward bindingTable n reading).links[i]? = some l' ∧ _
    obtain hsame | ⟨tag, pkt, rest, -, hforward⟩ := mesh.forward_cases bindingTable n reading
    · exact ⟨l, by rw [hsame, hl], rfl, rfl, rfl⟩
    · rw [hforward]
      exact ⟨_, List.getElem?_mapIdx.trans (congrArg _ hl), (send_same l _).1, send_kept l _⟩
  | read j =>
    have hread : ∀ l₀, mesh.links[j]? = some l₀ →
        ∃ l', (mesh.links.set j (l₀.read json).1)[i]? = some l' ∧
          l'.lead = l.lead ∧ l'.up = l.up ∧ l'.takenOff = l.takenOff := by
      intro l₀ hl₀
      rw [getElem?_set_read json hl₀]
      split
      · rename_i hij
        subst hij
        obtain rfl : l = l₀ := Option.some.inj (hl.symm.trans hl₀)
        exact ⟨_, rfl, (read_same json l).1, read_kept json l⟩
      · exact ⟨l, hl, rfl, rfl, rfl⟩
    change ∃ l', (mesh.read json j).links[i]? = some l' ∧ _
    obtain hsame | ⟨l₀, hl₀, ⟨-, heq⟩ | ⟨m, -, heq⟩⟩ := mesh.read_cases json j
    · exact ⟨l, by rw [hsame, hl], rfl, rfl, rfl⟩
    · exact heq ▸ hread l₀ hl₀
    · exact heq ▸ hread l₀ hl₀
  | take j randomName => exact ⟨l, (List.getElem?_modify_ne _ _ h).trans hl, rfl, rfl, rfl⟩
  | shut j => exact ⟨l, (List.getElem?_modify_ne _ _ h).trans hl, rfl, rfl, rfl⟩

/-- An event of another link. -/
theorem link_kept_after {i : Nat} {l : Link Node} {events : List (MeshEvent Node)}
    (h : ∀ event ∈ events, ¬ Touches i event) (hl : mesh.links[i]? = some l) :
    ∃ l', (Run.after (step json recordJson bindingTable) mesh events).links[i]? = some l' ∧
      l'.lead = l.lead ∧ l'.up = l.up ∧ l'.takenOff = l.takenOff := by
  induction events generalizing mesh l with
  | nil => exact ⟨l, hl, rfl, rfl, rfl⟩
  | cons event events ih =>
    obtain ⟨hevent, hlater⟩ := List.forall_mem_cons.1 h
    obtain ⟨l₁, hl₁, hlead₁, hup₁, htaken₁⟩ := link_kept json recordJson bindingTable hl hevent
    obtain ⟨l₂, hl₂, hlead₂, hup₂, htaken₂⟩ := ih hlater hl₁
    exact ⟨l₂, hl₂, hlead₂.trans hlead₁, hup₂.trans hup₁, htaken₂.trans htaken₁⟩

variable (json recordJson bindingTable) in
/-- A task takes a packet from its queue. -/
theorem link_take {i : Nat} {l : Link Node} (hl : mesh.links[i]? = some l)
    (hlead : l.lead = .localQueue) {pkt : GDPPacket} {rest : List GDPPacket}
    (hqueue : l.queue = pkt :: rest) (randomName : GDPName) :
    (mesh.step json recordJson bindingTable (.take i randomName)).links[i]? =
      some { l with queue := rest, takenOff := l.takenOff ++ [pkt] } := by
  refine (List.getElem?_modify_eq _ _ _).trans ?_
  rw [hl]
  change some (l.take json recordJson randomName) = _
  unfold Link.take
  rw [hlead, hqueue]

end Mesh

end RtFogros
