import RtFogros.Mesh.Model

/-!
# One link

What the read arm at the far end sends on is, in order and each once, what the FIB handler sent
on the channel: a first part of it, and all of it when nothing is queued or on the way.

`Link.Sound` says where the packets of a channel are: in the queue, taken off by the writer arm
and then on the way, read or lost with the stream.  Each of the link's steps keeps it.  The read
arm's output follows from what the writer arm wrote by the relay theorem, so the link is a FIFO
(`Sound.delivered_initial`, `Sound.delivered_all`), provided that every packet is one that a
stream carries (`Carried`): a payload that ends in a keepalive is swallowed.
-/

namespace RtFogros

open Kcp

/-! ## Writes and reads -/

namespace Kcp

variable {json : SerdeJson GDPHeaderInTransit} {recordJson : SerdeJson GDPNameRecord}

/-- A packet that a stream carries unchanged. -/
def Carried (pkt : GDPPacket) : Prop := Sendable pkt ∧ Deliverable pkt

theorem Carried.received {pkt : GDPPacket} (h : Carried pkt) (description : Option String) :
    Carried (received description pkt) := ⟨⟨h.1.action, h.1.guid, h.1.nameRecord⟩, h.2⟩

/-- No name is drawn for a packet with a guid. -/
theorem writerArm_randomName {pkt : GDPPacket} (h : Sendable pkt) (randomName other : GDPName) :
    writerArm json recordJson randomName pkt = writerArm json recordJson other pkt := by
  obtain ⟨guid, hguid⟩ := Option.isSome_iff_exists.1 h.guid
  unfold writerArm GDPPacket.getHeader
  rw [hguid]
  rfl

/-- No write of such a packet is a keepalive. -/
theorem writerArm_ne_ping {pkt : GDPPacket} (h : Carried pkt) {randomName : GDPName}
    {writes : List Bytes} (hwrites : writerArm json recordJson randomName pkt = some writes) :
    ∀ write ∈ writes, write ≠ ping := by
  obtain ⟨header, harm, -⟩ := writerArm_sendable json none recordJson randomName h.1
  obtain ⟨payload, hpayload, hends⟩ := h.2
  rw [hwrites, hpayload] at harm
  cases harm
  intro write hwrite
  rcases List.mem_cons.1 hwrite with rfl | hwrite
  · exact headerBlock_ne_ping header
  · have hne : payload ≠ [] := by
      rintro rfl
      rw [Option.elim_some, payloadWrites_nil] at hwrite
      cases hwrite
    obtain ⟨full, last, heq, hflat, hfull, hlast, hle⟩ :=
      payloadWrites_eq (List.length_pos_iff.2 hne)
    rw [List.drop_zero] at hflat
    rw [Option.elim_some, heq] at hwrite
    rcases List.mem_append.1 hwrite with hmem | hmem
    · rintro rfl
      exact absurd (hfull _ hmem) (by decide)
    · rw [List.mem_singleton.1 hmem]
      exact fun hping => hends ((endsInPing_iff hflat hfull hlast hle).2 hping)

theorem writerArms_append {randomName : GDPName} {pkts : List GDPPacket} {pkt : GDPPacket}
    {writes later : List Bytes}
    (hpkts : writerArms json recordJson randomName pkts = some writes)
    (hpkt : writerArm json recordJson randomName pkt = some later) :
    writerArms json recordJson randomName (pkts ++ [pkt]) = some (writes ++ later) := by
  obtain ⟨ws, hws, rfl⟩ := Option.map_eq_some_iff.1 hpkts
  simp [writerArms, List.mapM_append, hws, hpkt]

theorem writerArms_ne_ping {randomName : GDPName} {pkts : List GDPPacket}
    (hpkts : ∀ pkt ∈ pkts, Carried pkt) {writes : List Bytes}
    (hwrites : writerArms json recordJson randomName pkts = some writes) :
    ∀ write ∈ writes, write ≠ ping := by
  induction pkts generalizing writes with
  | nil =>
    cases hwrites
    exact nofun
  | cons pkt pkts ih =>
    obtain ⟨hpkt, hlaters⟩ := List.forall_mem_cons.1 hpkts
    obtain ⟨header, harm, -⟩ := writerArm_sendable json none recordJson randomName hpkt.1
    obtain ⟨later, hlater, -⟩ := writerArms_sendable json recordJson randomName pkts
      fun p hp => (hlaters p hp).1
    rw [writerArms_cons harm hlater] at hwrites
    cases hwrites
    intro write hwrite
    rcases List.mem_append.1 hwrite with hmem | hmem
    · exact writerArm_ne_ping hpkt harm write hmem
    · exact ih hlaters hlater write hmem

theorem answers_eq_nil {description : Option String} (r : Reader) {reads : List Bytes}
    (hping : ∀ read ∈ reads, read ≠ ping) :
    (Mealy.outputs (Reader.step json description) r reads).flatMap ReadOutput.written = [] := by
  induction reads generalizing r with
  | nil => rfl
  | cons read reads ih =>
    rw [Mealy.outputs_cons, List.flatMap_cons, r.step_written (hping read List.mem_cons_self)]
    exact ih _ fun other hother => hping other (List.mem_cons_of_mem _ hother)

end Kcp

/-! ## The invariant of a link -/

namespace Link

variable {Node : Type} {json : SerdeJson GDPHeaderInTransit}
  {recordJson : SerdeJson GDPNameRecord} {l : Link Node} {sent : List GDPPacket}

/-- The name given to the writer arm where none is drawn. -/
def anyName : GDPName := ⟨.replicate 4 0⟩

/-- Where the packets `sent` on the channel are: taken off the queue or in it, and those taken
off by a writer arm read, on the way, or lost with the stream. -/
structure Sound (json : SerdeJson GDPHeaderInTransit) (recordJson : SerdeJson GDPNameRecord)
    (l : Link Node) (sent : List GDPPacket) : Prop where
  queued : l.takenOff ++ l.queue <+: sent
  queued_up : l.up = true → l.takenOff ++ l.queue = sent
  queue_down : l.up = false → l.queue = []
  onTheWay : ∀ n, l.lead = .handler n → ∃ lost,
    writerArms json recordJson anyName l.takenOff = some (l.messagesRead ++ l.wire ++ lost) ∧
      (l.up = true → lost = [])
  reader : l.reader = Mealy.final (Reader.step json l.description) (.running initialReader)
    l.messagesRead
  delivered : l.delivered = emitted json l.description (.running initialReader) l.messagesRead
  answers : l.answers = (Mealy.outputs (Reader.step json l.description) (.running initialReader)
    l.messagesRead).flatMap ReadOutput.written

theorem Sound.new (lead : Lead Node) (description : Option String) :
    Sound json recordJson { lead, description } [] :=
  ⟨List.prefix_rfl, fun _ => rfl, fun _ => rfl, fun _ _ => ⟨[], rfl, fun _ => rfl⟩, rfl, rfl, rfl⟩

theorem Sound.send (h : Sound json recordJson l sent) (pkts : List GDPPacket) :
    Sound json recordJson (l.send pkts) (sent ++ pkts) := by
  unfold Link.send
  split
  · rename_i hup
    have hqueued : l.takenOff ++ (l.queue ++ pkts) = sent ++ pkts := by
      rw [← h.queued_up hup, List.append_assoc]
    exact ⟨hqueued ▸ List.prefix_rfl, fun _ => hqueued, fun hdown => absurd (hup.symm.trans hdown)
      (by decide), h.onTheWay, h.reader, h.delivered, h.answers⟩
  · rename_i hup
    exact ⟨h.queued.trans (List.prefix_append ..), fun h => absurd h hup, h.queue_down, h.onTheWay,
      h.reader, h.delivered, h.answers⟩

theorem Sound.shut (h : Sound json recordJson l sent) : Sound json recordJson l.shut sent := by
  refine ⟨?_, nofun, fun _ => rfl, fun n hlead => ?_, h.reader, h.delivered, h.answers⟩
  · change l.takenOff ++ [] <+: sent
    rw [List.append_nil]
    exact (List.prefix_append ..).trans h.queued
  · obtain ⟨lost, hwrites, -⟩ := h.onTheWay n hlead
    refine ⟨l.wire ++ lost, ?_, nofun⟩
    change writerArms json recordJson anyName l.takenOff =
      some (l.messagesRead ++ [] ++ (l.wire ++ lost))
    rw [hwrites, List.append_nil, List.append_assoc]

theorem Sound.take (h : Sound json recordJson l sent) (hsent : ∀ pkt ∈ sent, Sendable pkt)
    (randomName : GDPName) :
    Sound json recordJson (l.take json recordJson randomName) sent := by
  have hmoved : ∀ {pkt queue}, l.queue = pkt :: queue →
      l.takenOff ++ [pkt] ++ queue = l.takenOff ++ l.queue := by
    intro pkt queue hqueue
    rw [hqueue, List.append_assoc]
    rfl
  have hup : ∀ {pkt queue}, l.queue = pkt :: queue → l.up = true := by
    intro pkt queue hqueue
    by_contra hdown
    rw [h.queue_down (by simpa using hdown)] at hqueue
    cases hqueue
  unfold Link.take
  split
  · exact h
  · rename_i pkt queue hlead hqueue
    refine ⟨hmoved hqueue ▸ h.queued, fun hup => (hmoved hqueue).trans (h.queued_up hup),
      fun hdown => ?_, fun n hlead' => ?_, h.reader, h.delivered, h.answers⟩
    · exact absurd ((hup hqueue).symm.trans hdown) (by decide)
    · exact absurd (hlead.symm.trans hlead') nofun
  · rename_i n pkt queue hlead hqueue
    split
    · exact h.shut
    · rename_i writes hwrites
      refine ⟨hmoved hqueue ▸ h.queued, fun hup => (hmoved hqueue).trans (h.queued_up hup),
        fun hdown => ?_, fun n' hlead' => ⟨[], ?_, fun _ => rfl⟩, h.reader, h.delivered, h.answers⟩
      · exact absurd ((hup hqueue).symm.trans hdown) (by decide)
      · obtain ⟨lost, hbefore, hlost⟩ := h.onTheWay n hlead
        obtain rfl := hlost (hup hqueue)
        have hpkt : Sendable pkt := hsent pkt (h.queued.subset (hqueue ▸ by simp))
        rw [writerArm_randomName hpkt _ anyName] at hwrites
        rw [List.append_nil] at hbefore
        rw [List.append_nil, ← List.append_assoc]
        exact writerArms_append hbefore hwrites

theorem Sound.read (h : Sound json recordJson l sent) :
    Sound json recordJson (l.read json).1 sent := by
  unfold Link.read
  cases hwire : l.wire with
  | nil => exact h
  | cons message wire =>
    refine ⟨h.queued, h.queued_up, h.queue_down, fun n hlead => ?_, ?_, ?_, ?_⟩
    · obtain ⟨lost, hwrites, hlost⟩ := h.onTheWay n hlead
      refine ⟨lost, ?_, hlost⟩
      change writerArms json recordJson anyName l.takenOff =
        some (l.messagesRead ++ [message] ++ wire ++ lost)
      rw [hwrites, hwire]
      simp
    · change (l.reader.step json l.description message).1 = _
      rw [Mealy.final_append, ← h.reader]
      rfl
    · change l.delivered ++ (l.reader.step json l.description message).2.rosTx = _
      rw [emitted_append, ← h.reader, ← h.delivered]
      simp
    · change l.answers ++ (l.reader.step json l.description message).2.written = _
      rw [Mealy.outputs_append, List.flatMap_append, ← h.reader, ← h.answers]
      simp

/-! ## What is delivered -/

section Delivered

variable (hround : json.RoundTrips) (hnul : json.NoNul) (hbrace : json.OpensBrace)
  (h : Sound json recordJson l sent) (hsent : ∀ pkt ∈ sent, Carried pkt) {n : Node}
  (hlead : l.lead = .handler n)

include hround hnul hbrace h hsent hlead

/-- What was taken off is delivered, or comes of the messages on the way and those lost. -/
theorem Sound.delivered_append : ∃ lost, (l.up = true → lost = []) ∧
    l.delivered ++ emitted json l.description l.reader (l.wire ++ lost) =
      l.takenOff.map (received l.description) := by
  obtain ⟨lost, hwrites, hlost⟩ := h.onTheWay n hlead
  have htaken : ∀ pkt ∈ l.takenOff, Carried pkt := fun pkt hpkt =>
    hsent pkt (((List.prefix_append ..).trans h.queued).subset hpkt)
  have hall : (writerArms json recordJson anyName l.takenOff).map
      (emitted json l.description (.running initialReader)) =
        some (l.takenOff.map (received l.description)) :=
    (relays_from hround hnul hbrace l.takenOff (fun pkt hpkt => (htaken pkt hpkt).1) rfl).2
      fun pkt hpkt => (htaken pkt hpkt).2
  rw [hwrites, Option.map_some, Option.some.injEq, List.append_assoc, emitted_append,
    ← h.delivered, ← h.reader] at hall
  exact ⟨lost, hlost, hall⟩

theorem Sound.delivered_initial : l.delivered <+: sent.map (received l.description) := by
  obtain ⟨lost, -, hall⟩ := h.delivered_append hround hnul hbrace hsent hlead
  have hmap : l.takenOff.map (received l.description) <+: sent.map (received l.description) :=
    ((List.prefix_append ..).trans h.queued).map _
  exact (hall ▸ List.prefix_append ..).trans hmap

theorem Sound.delivered_all (hup : l.up = true) (hqueue : l.queue = []) (hwire : l.wire = []) :
    l.delivered = sent.map (received l.description) := by
  obtain ⟨lost, hlost, hall⟩ := h.delivered_append hround hnul hbrace hsent hlead
  have hqueued := h.queued_up hup
  rw [hqueue, List.append_nil] at hqueued
  rw [hwire, hlost hup, List.append_nil, emitted_nil, List.append_nil, hqueued] at hall
  exact hall

omit hround hnul hbrace in
/-- Nothing is written back. -/
theorem Sound.answers_nil : l.answers = [] := by
  obtain ⟨lost, hwrites, -⟩ := h.onTheWay n hlead
  have htaken : ∀ pkt ∈ l.takenOff, Carried pkt := fun pkt hpkt =>
    hsent pkt (((List.prefix_append ..).trans h.queued).subset hpkt)
  rw [h.answers]
  refine answers_eq_nil _ fun message hmessage => writerArms_ne_ping htaken hwrites message ?_
  exact List.mem_append_left _ (List.mem_append_left _ hmessage)

end Delivered

end Link

end RtFogros
