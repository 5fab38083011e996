import RtFogros.Mesh.Flow
import Mathlib.Logic.Relation

/-!
# Messages flood the mesh

`flood_delivers_once`: in a mesh that was connected first and has come to rest, every receiver that
a message can reach over the entries of its name has been sent it, once.

The proof goes along the path.  A machine that has taken a copy has sent one on every receiver's
channel (`Flow`); a channel that leads to the next machine is empty when the mesh is at rest, and
its stream has not ended, so the next machine has taken the copy.  That it was not sent twice is
what the network has of every entry's channel (`Network.queued_le_one`), whatever the cycles.
-/

namespace RtFogros

open FibHandler Kcp

namespace Mesh

variable {Node : Type} [DecidableEq Node] {json : SerdeJson GDPHeaderInTransit}
  {recordJson : SerdeJson GDPNameRecord} {bindingTable : Node → BindingTable}
  {mesh : Mesh Node}

/-! ## Runs that come to rest -/

def Connects : MeshEvent Node → Prop
  | .connect _ _ _ _ => True
  | _ => False

/-- Nothing is connected and no stream ends. -/
def Steady : MeshEvent Node → Prop
  | .connect _ _ _ _ | .shut _ => False
  | _ => True

/-- Nothing is on its way to a handler, and no handler has aborted. -/
structure Quiet (mesh : Mesh Node) : Prop where
  rx : ∀ n, mesh.fibRx n = []
  links : ∀ l ∈ mesh.links, ∀ n, l.lead = .handler n → l.queue = [] ∧ l.wire = []
  running : ∀ n, mesh.log.states n ≠ .aborted

/-- No stream to a handler has ended. -/
def Unbroken (mesh : Mesh Node) : Prop :=
  ∀ l ∈ mesh.links, ∀ n, l.lead = .handler n → l.up = true

/-- The streams to handlers go on. -/
def Keeps (mesh : Mesh Node) : MeshEvent Node → Prop
  | .shut i => ∀ n, (mesh.links.map Link.lead)[i]? ≠ some (.handler n)
  | _ => True

omit [DecidableEq Node] in
theorem take_up {l : Link Node} {sent : List GDPPacket} (h : l.Sound json recordJson sent)
    (hsent : ∀ pkt ∈ sent, Carried pkt) (randomName : GDPName) :
    (l.take json recordJson randomName).up = l.up := by
  unfold Link.take
  split
  · rfl
  · rfl
  · rename_i pkt queue hlead hqueue
    have hpkt : Carried pkt := hsent pkt (h.queued.subset (hqueue ▸ by simp))
    obtain ⟨header, harm, -⟩ := writerArm_sendable json none recordJson randomName hpkt.1
    rw [harm]

theorem Unbroken.step (h : Sound json recordJson bindingTable mesh) (hup : mesh.Unbroken)
    {event : MeshEvent Node} (hevent : mesh.Keeps event) :
    (mesh.step json recordJson bindingTable event).Unbroken := by
  intro l hl n hlead
  cases event with
  | connect m update lead description =>
    rcases List.mem_append.1 hl with hl | hl
    · exact hup l hl n hlead
    · rw [List.mem_singleton.1 hl]
  | publish m pkt => exact hup l hl n hlead
  | forward m reading =>
    change l ∈ (mesh.forward bindingTable m reading).links at hl
    obtain hsame | ⟨tag, pkt, rest, -, hforward⟩ := mesh.forward_cases bindingTable m reading
    · exact hup l (hsame ▸ hl) n hlead
    · rw [hforward] at hl
      obtain ⟨i, hi, rfl⟩ := List.mem_mapIdx.1 hl
      rw [(send_same _ _).1] at hlead
      exact (send_kept ..).1.trans (hup _ (List.getElem_mem hi) n hlead)
  | take i randomName =>
    obtain ⟨j, hj⟩ := List.mem_iff_getElem?.1 hl
    change (mesh.links.modify i _)[j]? = some l at hj
    rw [List.getElem?_modify] at hj
    obtain ⟨l', hl', rfl⟩ := Option.map_eq_some_iff.1 hj
    by_cases hij : i = j
    · rw [if_pos hij] at hlead ⊢
      rw [(take_same ..).1] at hlead
      exact (take_up (h.link hl') (h.sent_carried j) randomName).trans
        (hup l' (List.mem_of_getElem? hl') n hlead)
    · rw [if_neg hij] at hlead ⊢
      exact hup l' (List.mem_of_getElem? hl') n hlead
  | read i =>
    have hset : ∀ l', mesh.links[i]? = some l' → l ∈ mesh.links.set i (l'.read json).1 →
        l.up = true := by
      intro l' hl' hmem
      rcases List.mem_or_eq_of_mem_set hmem with hold | rfl
      · exact hup l hold n hlead
      · rw [(read_same ..).1] at hlead
        exact (read_kept json l').1.trans (hup l' (List.mem_of_getElem? hl') n hlead)
    change l ∈ (mesh.read json i).links at hl
    obtain hsame | ⟨l', hl', ⟨-, hread⟩ | ⟨m, -, hread⟩⟩ := mesh.read_cases json i
    · exact hup l (hsame ▸ hl) n hlead
    · exact hset l' hl' (by rwa [hread] at hl)
    · exact hset l' hl' (by rwa [hread] at hl)
  | shut i =>
    obtain ⟨j, hj⟩ := List.mem_iff_getElem?.1 hl
    change (mesh.links.modify i _)[j]? = some l at hj
    rw [List.getElem?_modify] at hj
    obtain ⟨l', hl', rfl⟩ := Option.map_eq_some_iff.1 hj
    by_cases hij : i = j
    · subst hij
      rw [if_pos rfl] at hlead
      refine absurd ?_ (hevent n)
      rw [List.getElem?_map, hl']
      exact congrArg some hlead
    · rw [if_neg hij] at hlead ⊢
      exact hup l' (List.mem_of_getElem? hl') n hlead

/-- A published packet waits for its handler until it is taken. -/
def Waits (n : Node) (pkt : GDPPacket) (mesh : Mesh Node) : Prop :=
  (none, pkt) ∈ mesh.fibRx n ∨ (n, none, pkt) ∈ mesh.handled

theorem Waits.step {n : Node} {pkt : GDPPacket} (h : Waits n pkt mesh) (event : MeshEvent Node) :
    Waits n pkt (mesh.step json recordJson bindingTable event) := by
  have hupdate : ∀ {m more}, (none, pkt) ∈ mesh.fibRx n →
      (none, pkt) ∈ Function.update mesh.fibRx m (mesh.fibRx m ++ more) n := by
    intro m more hmem
    by_cases hm : n = m
    · subst hm
      rw [Function.update_self]
      exact List.mem_append_left _ hmem
    · rwa [Function.update_of_ne hm]
  cases event with
  | publish m p => exact h.imp_left hupdate
  | forward m reading =>
    change Waits n pkt (mesh.forward bindingTable m reading)
    obtain hsame | ⟨tag, p, rest, hrx, hforward⟩ := mesh.forward_cases bindingTable m reading
    · rw [hsame]
      exact h
    · rw [hforward]
      rcases h with hrx' | hhandled
      · by_cases hm : n = m
        · subst hm
          rw [hrx] at hrx'
          rcases List.mem_cons.1 hrx' with heq | hrest
          · cases heq
            exact .inr (List.mem_append_right _ List.mem_cons_self)
          · refine .inl ?_
            change _ ∈ Function.update mesh.fibRx n rest n
            rwa [Function.update_self]
        · refine .inl ?_
          change _ ∈ Function.update mesh.fibRx m rest n
          rwa [Function.update_of_ne hm]
      · exact .inr (List.mem_append_left _ hhandled)
  | read i =>
    change Waits n pkt (mesh.read json i)
    obtain hsame | ⟨l, -, ⟨-, hread⟩ | ⟨m, -, hread⟩⟩ := mesh.read_cases json i
    · rw [hsame]
      exact h
    · rw [hread]
      exact h
    · rw [hread]
      exact h.imp_left hupdate
  | _ => exact h

variable (mesh) in
theorem waits_publish (n : Node) (pkt : GDPPacket) :
    Waits n pkt (mesh.step json recordJson bindingTable (.publish n pkt)) := by
  refine .inl ?_
  change (none, pkt) ∈ Function.update mesh.fibRx n (mesh.fibRx n ++ [(none, pkt)]) n
  rw [Function.update_self]
  exact List.mem_append_right _ List.mem_cons_self

/-! ## Flooding -/

/-- Machine `a` sends the Forward packets of the topic to machine `b`. -/
def Feeds (bindingTable : Node → BindingTable) (mesh : Mesh Node) (topic : GDPName) (a b : Node) :
    Prop :=
  ∃ dst ∈ registered (bindingTable a) (mesh.log.inputs a) topic,
    dst.connectionType = .receiver ∧
      (mesh.links.map Link.lead)[dst.tx]? = some (.handler b)

section Copies

variable (h : Flowing json recordJson bindingTable mesh) (hup : mesh.Unbroken)
  (hquiet : mesh.Quiet) {pkt : GDPPacket} (haction : pkt.action = .forward)
  (hunique : ∀ p ∈ mesh.published, p.guid = pkt.guid → p = pkt)

include h hquiet haction hunique

include hup in
/-- The next machine has taken a copy. -/
theorem Flowing.handled_next (hround : json.RoundTrips) (hnul : json.NoNul)
    (hbrace : json.OpensBrace) {a b : Node} (hfeeds : Feeds bindingTable mesh pkt.gdpname a b)
    (ha : ∃ tag p, (a, tag, p) ∈ mesh.handled ∧ p.guid = pkt.guid) :
    ∃ tag p, (b, tag, p) ∈ mesh.handled ∧ p.guid = pkt.guid := by
  obtain ⟨tag, p, hp, hguid⟩ := ha
  obtain ⟨dst, hdst, htype, hlead⟩ := hfeeds
  obtain ⟨description, hsent⟩ :=
    h.sent_of_handled haction hunique (hquiet.running a) hp hguid hdst htype
  rw [List.getElem?_map, Option.map_eq_some_iff] at hlead
  obtain ⟨l, hl, hlead⟩ := hlead
  have hmem := List.mem_of_getElem? hl
  obtain ⟨hqueue, hwire⟩ := hquiet.links l hmem b hlead
  -- the link has brought all that was sent on it
  have hall := (h.sound.link hl).delivered_all hround hnul hbrace (h.sound.sent_carried dst.tx)
    hlead (hup l hmem b hlead) hqueue hwire
  have harrived := h.sound.arrived hl hlead
  rw [hquiet.rx b, hall] at harrived
  change mesh.handledVia dst.tx ++ [] = _ at harrived
  rw [List.append_nil] at harrived
  have hcopy : received l.description (received description pkt) ∈ mesh.handledVia dst.tx := by
    rw [harrived]
    exact List.mem_map_of_mem hsent
  obtain ⟨⟨tag', q⟩, hq, heq⟩ := List.mem_map.1 hcopy
  obtain ⟨hq, htag⟩ := List.mem_filter.1 hq
  obtain ⟨⟨m, tag'', q'⟩, hhandled, hpair⟩ := List.mem_map.1 hq
  cases hpair
  obtain rfl : tag' = some dst.tx := of_decide_eq_true htag
  have hm := h.traced.lead hhandled
  rw [List.getElem?_map, hl, Option.map_some, hlead] at hm
  obtain rfl := Lead.handler.inj (Option.some.inj hm)
  refine ⟨_, q, hhandled, ?_⟩
  rw [show q = received l.description (received description pkt) from heq]
  rfl

include hup in
theorem Flowing.handled_of_reach (hround : json.RoundTrips) (hnul : json.NoNul)
    (hbrace : json.OpensBrace) {a b : Node}
    (hreach : Relation.ReflTransGen (Feeds bindingTable mesh pkt.gdpname) a b)
    (ha : ∃ tag p, (a, tag, p) ∈ mesh.handled ∧ p.guid = pkt.guid) :
    ∃ tag p, (b, tag, p) ∈ mesh.handled ∧ p.guid = pkt.guid := by
  induction hreach with
  | refl => exact ha
  | tail _ hfeeds ih => exact h.handled_next hup hquiet haction hunique hround hnul hbrace hfeeds ih

include hup in
theorem Flowing.sent_once (hround : json.RoundTrips) (hnul : json.NoNul)
    (hbrace : json.OpensBrace) {n m : Node} (hwaits : Waits n pkt mesh)
    (hreach : Relation.ReflTransGen (Feeds bindingTable mesh pkt.gdpname) n m)
    {dst : FibConnection Nat}
    (hdst : dst ∈ registered (bindingTable m) (mesh.log.inputs m) pkt.gdpname)
    (htype : dst.connectionType = .receiver) :
    ∃ description,
      (mesh.sent dst.tx).filter (·.guid = pkt.guid) = [received description pkt] := by
  have hstart : (n, none, pkt) ∈ mesh.handled := by
    rcases hwaits with hrx | hhandled
    · rw [hquiet.rx n] at hrx
      cases hrx
    · exact hhandled
  obtain ⟨tag, p, hp, hguid⟩ := h.handled_of_reach hup hquiet haction hunique hround hnul hbrace
    hreach ⟨none, pkt, hstart, rfl⟩
  obtain ⟨description, hsent⟩ :=
    h.sent_of_handled haction hunique (hquiet.running m) hp hguid hdst htype
  have hle := Network.queued_le_one (sound_network h.sound) ⟨m, _, dst, hdst, rfl, .inl htype⟩
    pkt.guid
  change (mesh.sent dst.tx).countP _ ≤ 1 at hle
  have hmem : received description pkt ∈ (mesh.sent dst.tx).filter (·.guid = pkt.guid) :=
    List.mem_filter.2 ⟨hsent, decide_eq_true rfl⟩
  refine ⟨description, ?_⟩
  rw [List.countP_eq_length_filter] at hle
  obtain ⟨copy, hcopy⟩ := List.length_eq_one_iff.1
    (Nat.le_antisymm hle (List.length_pos_of_mem hmem))
  rw [hcopy, List.mem_singleton] at hmem
  rw [hcopy, hmem]

end Copies

/-- A run that connects, then goes on. -/
theorem flowing_after (hround : json.RoundTrips) (hnul : json.NoNul) (hbrace : json.OpensBrace)
    {setup later : List (MeshEvent Node)} (hsetup : ∀ event ∈ setup, Connects event)
    (hlater : ∀ event ∈ later, Steady event ∧ Publishes event)
    (hmesh : Run.after (step json recordJson bindingTable) initial (setup ++ later) = mesh) :
    Flowing json recordJson bindingTable mesh ∧ mesh.Unbroken := by
  have hconnected : Laid json recordJson bindingTable
        (Run.after (step json recordJson bindingTable) initial setup) ∧
      (Run.after (step json recordJson bindingTable) initial setup).Unbroken := by
    refine (Run.throughout_of_forall initial hsetup).invariant
      (fun mesh => Laid json recordJson bindingTable mesh ∧ mesh.Unbroken) ?_
      ⟨.start, List.forall_mem_nil _⟩
    rintro mesh (_ | _) ⟨hlaid, hup⟩ hevent
    · exact ⟨hlaid.step hround hnul hbrace trivial trivial, hup.step hlaid.sound trivial⟩
    all_goals exact hevent.elim
  rw [← hmesh, Run.after_append]
  refine (Run.throughout_of_forall _ hlater).invariant
    (fun mesh => Flowing json recordJson bindingTable mesh ∧ mesh.Unbroken) ?_
    ⟨hconnected.1.flowing, hconnected.2⟩
  rintro mesh event ⟨hflowing, hup⟩ ⟨hsteady, hpublishes⟩
  have hrelays : Relays event ∧ mesh.Keeps event := by
    cases event with
    | connect n update lead description => exact hsteady.elim
    | shut i => exact hsteady.elim
    | _ => exact ⟨trivial, trivial⟩
  exact ⟨hflowing.step hround hnul hbrace hpublishes hrelays.1,
    hup.step hflowing.sound hrelays.2⟩

/-- **Main result.**  Take a mesh that was connected first, has since lost no stream, has published
only packets that a stream carries, and has come to rest with its handlers running.  A Forward
packet that was published, and whose guid no other published packet has, has then been sent once,
unchanged up to its description, on the channel of every receiver of its name at every machine that
can be reached, over receivers of the name, from the one that published it. -/
theorem flood_delivers_once (hround : json.RoundTrips) (hnul : json.NoNul)
    (hbrace : json.OpensBrace) {setup later : List (MeshEvent Node)}
    (hsetup : ∀ event ∈ setup, Connects event)
    (hlater : ∀ event ∈ later, Steady event ∧ Publishes event)
    (hmesh : Run.after (step json recordJson bindingTable) initial (setup ++ later) = mesh)
    (hquiet : mesh.Quiet) {n : Node} {pkt : GDPPacket} (hpublish : .publish n pkt ∈ later)
    (haction : pkt.action = .forward)
    (hunique : ∀ p ∈ mesh.published, p.guid = pkt.guid → p = pkt) {m : Node}
    (hreach : Relation.ReflTransGen (Feeds bindingTable mesh pkt.gdpname) n m)
    {dst : FibConnection Nat}
    (hdst : dst ∈ registered (bindingTable m) (mesh.log.inputs m) pkt.gdpname)
    (htype : dst.connectionType = .receiver) :
    ∃ description,
      (mesh.sent dst.tx).filter (·.guid = pkt.guid) = [received description pkt] := by
  obtain ⟨h, hup⟩ := flowing_after hround hnul hbrace hsetup hlater hmesh
  have hwaits : Waits n pkt mesh := by
    obtain ⟨before, after, rfl⟩ := List.append_of_mem hpublish
    rw [← hmesh, ← List.append_assoc, Run.after_append, Run.after_cons]
    exact Run.invariant (fun _ event h => h.step event) (waits_publish _ n pkt) after
  exact h.sent_once hup hquiet haction hunique hround hnul hbrace hwaits hreach hdst htype

/-- The header of a message without bytes. -/
def sampleHeader : GDPHeaderInTransit :=
  { action := .forward, destination := (samplePacket []).gdpname
    source := (samplePacket []).source
    guid := (samplePacket []).guid.getD Link.anyName, length := 0 }

/-- The steps of a link that carries it. -/
theorem sample_take (l : Link (Fin 2)) (hlead : l.lead = .handler 1)
    (hqueue : l.queue = [samplePacket []]) :
    l.take headerJson unusedRecordJson Link.anyName =
      { l with
        queue := []
        wire := l.wire ++ [headerBlock headerJson sampleHeader]
        takenOff := l.takenOff ++ [samplePacket []] } := by
  have hwrites : writerArm headerJson unusedRecordJson Link.anyName (samplePacket []) =
      some [headerBlock headerJson sampleHeader] := by
    unfold writerArm
    change some ([headerBlock headerJson sampleHeader] ++ payloadWrites [] 0 ++ []) = _
    rw [payloadWrites_nil]
    rfl
  unfold Link.take
  rw [hlead, hqueue]
  dsimp only
  rw [hwrites]

theorem sample_read (l : Link (Fin 2)) (hwire : l.wire = [headerBlock headerJson sampleHeader])
    (hreader : l.reader = .running initialReader) (hdescription : l.description = none) :
    (l.read headerJson).1.wire = [] ∧ (l.read headerJson).2 = [samplePacket []] ∧
      (l.read headerJson).1.queue = l.queue := by
  have hfresh : initialReader.needMoreDataForPreviousHeader = false := rfl
  have hread := readArm_header none headerJson_roundTrips headerJson_noNul hfresh sampleHeader
  rw [if_neg (by decide)] at hread
  unfold Link.read
  rw [hwire, hreader, hdescription]
  refine ⟨rfl, ?_, rfl⟩
  change (readArm headerJson none initialReader (headerBlock headerJson sampleHeader)).2.rosTx = _
  rw [hread]
  rfl

/-- The message goes over the link. -/
def sampleLater : List (MeshEvent (Fin 2)) :=
  [.publish publisher (samplePacket []), .forward publisher ⟨0, some "eth0"⟩,
    .take 0 Link.anyName, .read 0, .forward subscriber ⟨1, some "eth0"⟩]

def sampleMesh : Mesh (Fin 2) :=
  Run.after (step headerJson unusedRecordJson fun _ => none) initial (sampleSetup ++ sampleLater)

/-- The mesh when the publisher's machine has sent the message. -/
def sampleSent : Mesh (Fin 2) :=
  Run.after (step headerJson unusedRecordJson fun _ => none) initial
    (sampleSetup ++ [.publish publisher (samplePacket []), .forward publisher ⟨0, some "eth0"⟩])

theorem sampleMesh_eq : ∃ link : Link (Fin 2),
    link.lead = .handler 1 ∧ link.queue = [] ∧ link.wire = [] ∧
      sampleMesh = step headerJson unusedRecordJson (fun _ => none)
        { sampleSent with
          links := [link, { lead := .localQueue, description := none }]
          fibRx := Function.update sampleSent.fibRx 1 [(some 0, samplePacket [])] }
        (.forward 1 ⟨1, some "eth0"⟩) := by
  let link : Link (Fin 2) := { lead := .handler 1, description := none, queue := [samplePacket []] }
  have htake := sample_take link rfl rfl
  set taken := link.take headerJson unusedRecordJson Link.anyName with htaken
  have hlead : taken.lead = .handler 1 := congrArg Link.lead htake
  obtain ⟨hwire, hout, hqueue⟩ := sample_read taken (congrArg Link.wire htake)
    (congrArg Link.reader htake) (congrArg Link.description htake)
  refine ⟨(taken.read headerJson).1, (read_same headerJson taken).1.trans hlead,
    hqueue.trans (congrArg Link.queue htake), hwire, ?_⟩
  have hread : Mesh.read headerJson
      { sampleSent with links := [taken, { lead := .localQueue, description := none }] } 0 =
      { sampleSent with
        links := [(taken.read headerJson).1, { lead := .localQueue, description := none }]
        fibRx := Function.update sampleSent.fibRx 1 [(some 0, samplePacket [])] } := by
    unfold Mesh.read
    dsimp only [List.getElem?_cons_zero]
    rw [hlead, hout]
    rfl
  rw [← hread]
  rfl

theorem sampleMesh_quiet : sampleMesh.Quiet := by
  obtain ⟨link, hlead, hqueue, hwire, hmesh⟩ := sampleMesh_eq
  have hlinks : sampleMesh.links = [link.send [],
      { lead := .localQueue, description := none, queue := [samplePacket []] }] := by
    rw [hmesh]
    rfl
  have hnothing : link.send [] = link := by
    unfold Link.send
    rw [List.append_nil]
    split <;> rfl
  refine ⟨?_, ?_, ?_⟩
  · rw [hmesh]
    exact Fin.forall_fin_two.2 ⟨rfl, rfl⟩
  · rw [hlinks, hnothing]
    refine List.forall_mem_cons.2 ⟨fun _ _ => ⟨hqueue, hwire⟩,
      List.forall_mem_singleton.2 fun n hlead => ?_⟩
    cases hlead
  · rw [hmesh]
    exact Fin.forall_fin_two.2 ⟨nofun, nofun⟩

/-- The subscriber has the message once. -/
theorem flood_delivers_once_sample :
    ∃ description, (sampleMesh.sent 1).filter (·.guid = (samplePacket []).guid) =
      [received description (samplePacket [])] := by
  obtain ⟨link, hlead, -, -, hmesh⟩ := sampleMesh_eq
  let entry (tx : Nat) : FibConnection Nat :=
    { state := .running, connectionType := .receiver, tx, description := none,
      interface := some "ros", address := some "/chatter" }
  have hpkt : Carried (samplePacket []) := ⟨sendable_samplePacket _, [], rfl, by decide⟩
  have htable : ∀ m : Fin 2,
      registered none (sampleMesh.log.inputs m) (samplePacket []).gdpname = [entry m] := by
    rw [hmesh]
    exact Fin.forall_fin_two.2 ⟨rfl, rfl⟩
  have hfeeds : Feeds (fun _ => none) sampleMesh (samplePacket []).gdpname 0 1 := by
    refine ⟨entry 0, ?_, rfl, ?_⟩
    · rw [htable]
      exact List.mem_cons_self
    · rw [hmesh]
      exact congrArg some ((send_same link []).1.trans hlead)
  have hsetup : ∀ event ∈ sampleSetup, Connects event := by simp [sampleSetup, Connects]
  have hlater : ∀ event ∈ sampleLater, Steady event ∧ Publishes event := by
    simp [sampleLater, Steady, Publishes, hpkt]
  have hpublish : .publish 0 (samplePacket []) ∈ sampleLater := List.mem_cons_self
  have hunique : ∀ p ∈ sampleMesh.published, p.guid = (samplePacket []).guid →
      p = samplePacket [] := by
    rw [hmesh]
    exact List.forall_mem_singleton.2 fun _ => rfl
  have hdst : entry 1 ∈ registered none (sampleMesh.log.inputs 1) (samplePacket []).gdpname := by
    rw [htable]
    exact List.mem_cons_self
  exact flood_delivers_once headerJson_roundTrips headerJson_noNul headerJson_opensBrace hsetup
    hlater rfl sampleMesh_quiet hpublish rfl hunique (.single hfeeds) hdst rfl

end Mesh

end RtFogros
