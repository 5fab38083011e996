import RtFogros.Fib.Handed
import RtFogros.Mesh.Refinement

/-!
# What a mesh has sent on

Once the tables of a mesh are complete, a handler that has taken a copy of a Forward packet has
sent one to every receiver of its name: it sends on the first copy, and only that.

`Laid` is a mesh whose handlers have taken no packet, `Flowing` one whose handlers took all updates
before the first packet; a step that forwards leads from the one to the other and keeps it.  What a
handler has sent is then the sends of one round for each guid, with the table that it had at the
end, so `sent_of_handled` need not follow how tables grow.
-/

namespace RtFogros

open FibHandler Kcp

/-! ## The first copy at a handler -/

namespace FibHandler

variable {Tx : Type} {table : BindingTable} {h : FibHandler Tx} {events : List (FibEvent Tx)}

def IsPacket : FibEvent Tx → Prop
  | .packet _ _ => True
  | .update _ => False

theorem registered_packets (hevents : ∀ event ∈ events, IsPacket event) (topic : GDPName) :
    registered table events topic = [] := by
  unfold registered
  rw [List.filterMap_eq_nil_iff]
  intro event hmem
  cases event with
  | packet reading pkt => rfl
  | update update => exact (hevents _ hmem).elim

/-- Updates process nothing. -/
theorem processed_updates (hevents : ∀ event ∈ events, ¬ IsPacket event) {s : Fib Tx}
    (hs : ∀ h, s = .running h → h.processedRequests = ∅)
    (hrun : Mealy.final (Fib.step table) s events = .running h) : h.processedRequests = ∅ := by
  induction events generalizing s with
  | nil => exact hs h hrun
  | cons event events ih =>
    obtain ⟨hevent, hlater⟩ := List.forall_mem_cons.1 hevents
    refine ih hlater (fun h' hstep => ?_) hrun
    cases event with
    | packet reading pkt => exact absurd trivial hevent
    | update update =>
      cases s with
      | aborted => cases hstep
      | running h₀ =>
        rw [(updateArm_running hstep).2.1]
        exact hs h₀ rfl

/-- Of the packets with a guid, one is taken while the guid is new. -/
theorem exists_fresh_visit (hpackets : ∀ event ∈ events, IsPacket event)
    {guid : Option GDPName} (hfresh : guid ∉ h.processedRequests)
    (hrun : Mealy.final (Fib.step table) (.running h) events ≠ .aborted)
    (hcopy : ∃ reading pkt, .packet reading pkt ∈ events ∧ pkt.guid = guid) :
    ∃ v ∈ Mealy.trace (Fib.step table) (.running h) events, ∃ h' reading pkt,
      v.before = .running h' ∧ v.input = .packet reading pkt ∧ pkt.guid = guid ∧
      guid ∉ h'.processedRequests ∧ ∀ topic, h'.receiversOf topic = h.receiversOf topic := by
  induction events generalizing h with
  | nil =>
    obtain ⟨reading, pkt, hmem, -⟩ := hcopy
    cases hmem
  | cons event events ih =>
    obtain ⟨hevent, hlater⟩ := List.forall_mem_cons.1 hpackets
    cases event with
    | update update => exact hevent.elim
    | packet reading pkt =>
      by_cases hguid : pkt.guid = guid
      · exact ⟨_, List.mem_cons_self, h, reading, pkt, rfl, rfl, hguid, hfresh, fun _ => rfl⟩
      · rw [Mealy.final_cons] at hrun
        cases hnext : (Fib.step table (.running h) (.packet reading pkt)).1 with
        | aborted =>
          rw [hnext, final_aborted] at hrun
          exact absurd rfl hrun
        | running h₁ =>
          have hfresh₁ : guid ∉ h₁.processedRequests := by
            rw [mem_processed_packetArm hnext]
            rintro (hmem | ⟨heq, -⟩)
            · exact hfresh hmem
            · exact hguid heq
          obtain ⟨reading', pkt', hmem, heq⟩ := hcopy
          have hcopy' : ∃ reading pkt, .packet reading pkt ∈ events ∧ pkt.guid = guid := by
            rcases List.mem_cons.1 hmem with hhead | htail
            · cases hhead
              exact absurd heq hguid
            · exact ⟨reading', pkt', htail, heq⟩
          rw [hnext] at hrun
          obtain ⟨v, hv, h', reading'', pkt'', hbefore, hinput, hguid', hnew, htable⟩ :=
            ih hlater hfresh₁ hrun hcopy'
          refine ⟨v, ?_, h', reading'', pkt'', hbefore, hinput, hguid', hnew, fun topic => ?_⟩
          · rw [Mealy.trace_cons, hnext]
            exact List.mem_cons_of_mem _ hv
          · rw [htable, (step_running hnext).1]
            exact List.append_nil _

/-- A Forward packet with a new guid goes to every receiver of its topic. -/
theorem mem_sends_forward (reading : Reading) (pkt : GDPPacket) (haction : pkt.action = .forward)
    (hfresh : pkt.guid ∉ h.processedRequests) {dst : FibConnection Tx}
    (hdst : dst ∈ h.receiversOf pkt.gdpname) (hstate : dst.state = .running)
    (htype : dst.connectionType = .receiver) :
    ∃ slot, (⟨slot, dst, pkt⟩ : Sent Tx) ∈ (h.packetArm reading pkt).2.sends := by
  obtain ⟨slot, hslot⟩ := List.mem_iff_getElem?.1 hdst
  refine ⟨slot, ?_⟩
  rw [packetArm_of_forward haction, forwardArm, if_neg hfresh, forwardLoop_eq]
  refine List.mem_map.2 ⟨(dst, slot), List.mem_filter.2 ⟨?_, ?_⟩, rfl⟩
  · exact List.mem_zipIdx_iff_getElem?.2 hslot
  · exact decide_eq_true ⟨hstate, htype⟩

end FibHandler

namespace Mesh

variable {Node : Type} [DecidableEq Node] {json : SerdeJson GDPHeaderInTransit}
  {recordJson : SerdeJson GDPNameRecord} {bindingTable : Node → BindingTable}
  {mesh : Mesh Node}

/-! ## What the handlers have taken -/

/-- The packets that the handlers took came over links that lead to them, or were published. -/
structure Traced (mesh : Mesh Node) : Prop where
  lead : ∀ {n : Node} {i : Nat} {pkt : GDPPacket}, (n, some i, pkt) ∈ mesh.handled →
    (mesh.links.map Link.lead)[i]? = some (.handler n)
  taken : ∀ {n : Node} {tag : Option Nat} {pkt : GDPPacket}, (n, tag, pkt) ∈ mesh.handled →
    ∃ reading, .packet reading pkt ∈ mesh.log.inputs n
  known : ∀ {n : Node} {reading : Reading} {pkt : GDPPacket},
    .packet reading pkt ∈ mesh.log.inputs n → mesh.Known pkt

theorem Traced.start : Traced (initial : Mesh Node) := by
  refine ⟨fun hmem => ?_, fun hmem => ?_, fun hmem => ?_⟩ <;> cases hmem

variable (json recordJson bindingTable) in
theorem lead_step {i : Nat} {lead : Lead Node} (h : (mesh.links.map Link.lead)[i]? = some lead)
    (event : MeshEvent Node) :
    ((mesh.step json recordJson bindingTable event).links.map Link.lead)[i]? = some lead := by
  obtain ⟨more, hmore⟩ := leads_initial json recordJson bindingTable mesh event
  rw [← hmore, List.getElem?_append_left (List.getElem?_eq_some_iff.1 h).1]
  exact h

/-- An event of which no handler takes a packet. -/
theorem Traced.of_same (h : mesh.Traced) (event : MeshEvent Node)
    (hhandled : (mesh.step json recordJson bindingTable event).handled = mesh.handled)
    (hinputs : ∀ n reading pkt, .packet reading pkt ∈
      (mesh.step json recordJson bindingTable event).log.inputs n ↔
        .packet reading pkt ∈ mesh.log.inputs n) :
    (mesh.step json recordJson bindingTable event).Traced := by
  refine ⟨?_, ?_, ?_⟩
  · intro n i pkt hmem
    rw [hhandled] at hmem
    exact lead_step json recordJson bindingTable (h.lead hmem) event
  · intro n tag pkt hmem
    rw [hhandled] at hmem
    obtain ⟨reading, hreading⟩ := h.taken hmem
    exact ⟨reading, (hinputs _ _ _).2 hreading⟩
  · intro n reading pkt hmem
    exact (h.known ((hinputs _ _ _).1 hmem)).step json recordJson bindingTable event

theorem Traced.step (h : mesh.Traced) (hsound : Sound json recordJson bindingTable mesh)
    (event : MeshEvent Node) : (mesh.step json recordJson bindingTable event).Traced := by
  cases event with
  | connect n update lead description =>
    refine h.of_same _ rfl ?_
    intro m reading pkt
    refine Mealy.Log.mem_inputs_turn.trans (or_iff_left ?_)
    rintro ⟨-, hevent⟩
    cases hevent
  | publish n pkt => exact h.of_same _ rfl fun _ _ _ => Iff.rfl
  | forward n reading =>
    change (mesh.forward bindingTable n reading).Traced
    have hleads := fun i m (hm : (mesh.links.map Link.lead)[i]? = some (.handler m)) =>
      lead_step json recordJson bindingTable hm (.forward n reading)
    have hknown := fun p (hp : mesh.Known p) =>
      hp.step json recordJson bindingTable (.forward n reading)
    change ∀ i m, _ → ((mesh.forward bindingTable n reading).links.map _)[i]? = _ at hleads
    change ∀ p, _ → (mesh.forward bindingTable n reading).Known p at hknown
    obtain hsame | ⟨tag, pkt, rest, hrx, hforward⟩ := mesh.forward_cases bindingTable n reading
    · rw [hsame]
      exact h
    · have hrx' : (tag, pkt) ∈ mesh.fibRx n := hrx ▸ List.mem_cons_self
      have hlead : ∀ {i}, tag = some i → (mesh.links.map Link.lead)[i]? = some (.handler n) := by
        rintro i rfl
        exact hsound.lead hrx'
      have hpkt : mesh.Known pkt := hsound.rx_known n (tag, pkt) hrx'
      rw [hforward] at hleads hknown ⊢
      refine ⟨?_, ?_, ?_⟩
      · intro m i p hmem
        refine hleads i m ?_
        rcases List.mem_append.1 hmem with hmem | hmem
        · exact h.lead hmem
        · cases List.mem_singleton.1 hmem
          exact hlead rfl
      · intro m tag' p hmem
        rcases List.mem_append.1 hmem with hmem | hmem
        · obtain ⟨reading', hreading⟩ := h.taken hmem
          exact ⟨reading', Mealy.Log.mem_inputs_turn.2 (.inl hreading)⟩
        · cases List.mem_singleton.1 hmem
          exact ⟨reading, Mealy.Log.mem_inputs_turn.2 (.inr ⟨rfl, rfl⟩)⟩
      · intro m reading' p hmem
        rcases Mealy.Log.mem_inputs_turn.1 hmem with hmem | ⟨-, hevent⟩
        · exact hknown p (h.known hmem)
        · cases hevent
          exact hknown pkt hpkt
  | take i randomName => exact h.of_same _ rfl fun _ _ _ => Iff.rfl
  | read i =>
    obtain ⟨hlog, hhandled⟩ := mesh.read_log json i
    refine h.of_same _ hhandled ?_
    intro n reading pkt
    change _ ∈ (mesh.read json i).log.inputs n ↔ _
    rw [hlog]
  | shut i => exact h.of_same _ rfl fun _ _ _ => Iff.rfl

/-! ## Tables, then packets -/

/-- The handlers' tables stay as they are. -/
def Relays : MeshEvent Node → Prop
  | .connect _ _ _ _ => False
  | _ => True

/-- No handler takes a packet. -/
def Prepares : MeshEvent Node → Prop
  | .forward _ _ => False
  | _ => True

/-- A mesh whose handlers have taken no packet. -/
structure Laid (json : SerdeJson GDPHeaderInTransit) (recordJson : SerdeJson GDPNameRecord)
    (bindingTable : Node → BindingTable) (mesh : Mesh Node) : Prop where
  sound : Sound json recordJson bindingTable mesh
  traced : mesh.Traced
  updates : ∀ n, ∀ event ∈ mesh.log.inputs n, ¬ IsPacket event

/-- A mesh whose handlers took all updates before the first packet. -/
structure Flowing (json : SerdeJson GDPHeaderInTransit) (recordJson : SerdeJson GDPNameRecord)
    (bindingTable : Node → BindingTable) (mesh : Mesh Node) : Prop where
  sound : Sound json recordJson bindingTable mesh
  traced : mesh.Traced
  inputs : ∀ n, ∃ updates packets, mesh.log.inputs n = updates ++ packets ∧
    (∀ event ∈ updates, ¬ IsPacket event) ∧ ∀ event ∈ packets, IsPacket event

theorem Laid.start : Laid json recordJson bindingTable (initial : Mesh Node) :=
  ⟨.start, .start, fun _ => List.forall_mem_nil _⟩

theorem Laid.flowing (h : Laid json recordJson bindingTable mesh) :
    Flowing json recordJson bindingTable mesh :=
  ⟨h.sound, h.traced, fun n => ⟨_, [], (List.append_nil _).symm, h.updates n,
    List.forall_mem_nil _⟩⟩

variable (json recordJson bindingTable mesh) in
/-- What a handler takes in a step. -/
theorem inputs_step (n : Node) (event : MeshEvent Node) :
    ∃ taken, (mesh.step json recordJson bindingTable event).log.inputs n =
        mesh.log.inputs n ++ taken ∧
      (Relays event → ∀ e ∈ taken, IsPacket e) ∧ (Prepares event → ∀ e ∈ taken, ¬ IsPacket e) := by
  have hnothing : (mesh.step json recordJson bindingTable event).log.inputs n =
      mesh.log.inputs n → ∃ taken, (mesh.step json recordJson bindingTable event).log.inputs n =
        mesh.log.inputs n ++ taken ∧
      (Relays event → ∀ e ∈ taken, IsPacket e) ∧
      (Prepares event → ∀ e ∈ taken, ¬ IsPacket e) :=
    fun hsame => ⟨[], hsame.trans (List.append_nil _).symm, fun _ => List.forall_mem_nil _,
      fun _ => List.forall_mem_nil _⟩
  cases event with
  | connect m update lead description =>
    by_cases hm : m = n
    · subst hm
      exact ⟨[_], Mealy.Log.inputs_turn_self .., False.elim,
        fun _ => List.forall_mem_singleton.2 id⟩
    · exact hnothing (Mealy.Log.inputs_turn_of_ne _ hm _)
  | forward m reading =>
    obtain hsame | ⟨tag, pkt, rest, -, hforward⟩ := mesh.forward_cases bindingTable m reading
    · exact hnothing (congrArg (fun mesh : Mesh Node => mesh.log.inputs n) hsame)
    · have hinputs : (mesh.forward bindingTable m reading).log.inputs n =
          (mesh.turn bindingTable m (.packet reading pkt)).inputs n := by rw [hforward]
      by_cases hm : m = n
      · subst hm
        exact ⟨[.packet reading pkt], hinputs.trans (Mealy.Log.inputs_turn_self ..),
          fun _ => List.forall_mem_singleton.2 trivial, False.elim⟩
      · exact hnothing (hinputs.trans (Mealy.Log.inputs_turn_of_ne _ hm _))
  | read i =>
    refine hnothing ?_
    change (mesh.read json i).log.inputs n = _
    rw [(mesh.read_log json i).1]
  | publish m pkt => exact hnothing rfl
  | take i randomName => exact hnothing rfl
  | shut i => exact hnothing rfl

section Steps

variable (hround : json.RoundTrips) (hnul : json.NoNul) (hbrace : json.OpensBrace)

include hround hnul hbrace

theorem Laid.step (h : Laid json recordJson bindingTable mesh) {event : MeshEvent Node}
    (hevent : Publishes event) (hprepares : Prepares event) :
    Laid json recordJson bindingTable (mesh.step json recordJson bindingTable event) := by
  refine ⟨h.sound.step hround hnul hbrace hevent, h.traced.step h.sound event, ?_⟩
  intro n
  obtain ⟨taken, hinputs, -, hupdates⟩ := inputs_step json recordJson bindingTable mesh n event
  rw [hinputs, List.forall_mem_append]
  exact ⟨h.updates n, hupdates hprepares⟩

theorem Flowing.step (h : Flowing json recordJson bindingTable mesh) {event : MeshEvent Node}
    (hevent : Publishes event) (hrelays : Relays event) :
    Flowing json recordJson bindingTable (mesh.step json recordJson bindingTable event) := by
  refine ⟨h.sound.step hround hnul hbrace hevent, h.traced.step h.sound event, ?_⟩
  intro n
  obtain ⟨updates, packets, hbefore, hupdates, hpackets⟩ := h.inputs n
  obtain ⟨taken, hinputs, htaken, -⟩ := inputs_step json recordJson bindingTable mesh n event
  refine ⟨updates, packets ++ taken, ?_, hupdates,
    List.forall_mem_append.2 ⟨hpackets, htaken hrelays⟩⟩
  rw [hinputs, hbefore, List.append_assoc]

end Steps

/-! ## Copies -/

section Copies

variable (h : Flowing json recordJson bindingTable mesh) {pkt : GDPPacket}
  (haction : pkt.action = .forward)
  (hunique : ∀ p ∈ mesh.published, p.guid = pkt.guid → p = pkt)

include hunique

omit [DecidableEq Node] in
theorem Known.copy {p : GDPPacket} (hp : mesh.Known p) (hguid : p.guid = pkt.guid) :
    ∃ description, p = Kcp.received description pkt := by
  obtain ⟨-, q, hq, description, rfl⟩ := hp
  exact ⟨description, congrArg _ (hunique q hq hguid)⟩

include h haction

/-- A machine that has taken a copy has sent one to every receiver of the topic. -/
theorem Flowing.sent_of_handled {n : Node} (hrunning : mesh.log.states n ≠ .aborted)
    {tag : Option Nat} {p : GDPPacket} (hp : (n, tag, p) ∈ mesh.handled)
    (hguid : p.guid = pkt.guid) {dst : FibConnection Nat}
    (hdst : dst ∈ registered (bindingTable n) (mesh.log.inputs n) pkt.gdpname)
    (htype : dst.connectionType = .receiver) :
    ∃ description, received description pkt ∈ mesh.sent dst.tx := by
  have hlocal := (sound_network h.sound).isLocal
  obtain ⟨updates, packets, hinputs, hupdates, hpackets⟩ := h.inputs n
  have hstate : mesh.log.states n = _ := hlocal.state n
  have hvisits : mesh.log.visits n = _ := hlocal.visits n
  change mesh.log.states n = Mealy.final _ _ (mesh.log.inputs n) at hstate
  change mesh.log.visits n = Mealy.trace _ _ (mesh.log.inputs n) at hvisits
  rw [hinputs, Mealy.final_append] at hstate
  rw [hinputs, Mealy.trace_append] at hvisits
  cases hfirst : Mealy.final (Fib.step (bindingTable n)) .initial updates with
  | aborted =>
    rw [hfirst, final_aborted] at hstate
    exact absurd hstate hrunning
  | running h₀ =>
    have hnothing : h₀.processedRequests = ∅ :=
      processed_updates hupdates (fun h hs => by cases hs; rfl) hfirst
    have htable : h₀.receiversOf pkt.gdpname =
        registered (bindingTable n) (mesh.log.inputs n) pkt.gdpname := by
      rw [receiversOf_final hfirst, hinputs, registered_append, registered_packets hpackets,
        List.append_nil]
    obtain ⟨reading, hreading⟩ := h.traced.taken hp
    rw [hinputs] at hreading
    have hcopy : .packet reading p ∈ packets :=
      (List.mem_append.1 hreading).resolve_left fun hmem => hupdates _ hmem trivial
    rw [hfirst] at hstate hvisits
    obtain ⟨v, hv, h', reading', q, hbefore, hinput, hq, hfresh, hsame⟩ :=
      exists_fresh_visit hpackets (hnothing ▸ Finset.notMem_empty pkt.guid)
        (fun heq => hrunning (hstate.trans heq)) ⟨reading, p, hcopy, hguid⟩
    obtain ⟨pre, post, hsplit, -⟩ := Mealy.exists_split_of_mem_trace hv
    have hmem : .packet reading' q ∈ mesh.log.inputs n := by
      rw [hinputs, hsplit, ← hinput]
      simp
    have hknown : mesh.Known q := h.traced.known hmem
    obtain ⟨description, rfl⟩ := hknown.copy hunique hq
    refine ⟨description, ?_⟩
    have hentry : dst ∈ h'.receiversOf (received description pkt).gdpname := by
      rw [hsame]
      exact htable ▸ hdst
    obtain ⟨slot, hsend⟩ := mem_sends_forward reading' (received description pkt) haction
      hfresh hentry (registered_of_mem hdst).state htype
    have houtput := Mealy.output_of_mem_trace hv
    rw [hbefore, hinput] at houtput
    have hturn : (n, v) ∈ mesh.log.history :=
      Mealy.Log.mem_visits.1 (hvisits ▸ List.mem_append_right _ hv)
    refine List.mem_map.2 ⟨(n, ⟨slot, dst, received description pkt⟩), List.mem_filter.2 ⟨?_, ?_⟩,
      rfl⟩
    · refine List.mem_flatMap.2 ⟨(n, v), hturn, List.mem_map.2 ⟨_, ?_, rfl⟩⟩
      rw [houtput]
      exact hsend
    · exact decide_eq_true rfl

end Copies

end Mesh

end RtFogros
