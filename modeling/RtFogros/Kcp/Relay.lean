import RtFogros.Kcp.Writer
import RtFogros.Packet.Json

/-!
# From the writer arm to the peer's read arm

Every write reaches the peer as one read.  `relays_iff_deliverable`: the peer sends exactly the
packets that the writer took, if and only if each of them carries a payload and no payload ends in
a `ping` fragment.

A `ping` fragment is answered and dropped, so the packet it belongs to takes its missing bytes from
the next header or never arrives.  That nothing makes up for it is the part with an argument: the
next bytes that complete the body begin with a brace (`Pending.first_of_head`), and a `ping` does
not.
-/

namespace RtFogros.Kcp

variable {json : SerdeJson GDPHeaderInTransit} {description : Option String}

/-- The reader holds the bytes `got` of the body that `header` announced. -/
structure Pending (st : ReaderState) (header : GDPHeaderInTransit) (got : Bytes) : Prop where
  need : st.needMoreDataForPreviousHeader = true
  header_eq : st.remainingGdpHeader = header
  payload_eq : st.remainingGdpPayload = got

/-! ## Reads inside a body -/

section Body

variable (json description) {st : ReaderState} {header : GDPHeaderInTransit} {got : Bytes}
  (hst : Pending st header got) (haction : header.action ≠ .noop)

include hst haction

/-- `readArm_pending` in terms of `Pending`. -/
theorem Pending.readArm (hlen : got.length < header.length) {read : Bytes} (hne : read ≠ [])
    (hping : read ≠ ping) :
    Kcp.readArm json description st read =
      if got.length + read.length < header.length then
        (.running { st with remainingGdpPayload := got ++ read }, {})
      else
        parseAndSend json description
          { st with remainingGdpPayload := got ++ read.take (header.length - got.length) }
          [(header, got ++ read.take (header.length - got.length))]
          (read.drop (header.length - got.length)) := by
  obtain ⟨hneed, rfl, rfl⟩ := hst
  exact readArm_pending hneed haction hlen hne hping

/-- Reads that leave the body incomplete are kept and emit nothing. -/
theorem Pending.reads (reads : List Bytes) (hreads : ∀ read ∈ reads, read ≠ [] ∧ read ≠ ping)
    (hlen : got.length + reads.flatten.length < header.length) :
    ∃ st', Pending st' header (got ++ reads.flatten) ∧
      Mealy.final (Reader.step json description) (.running st) reads = .running st' ∧
      emitted json description (.running st) reads = [] := by
  induction reads generalizing st got with
  | nil => exact ⟨st, by simpa using hst, rfl, rfl⟩
  | cons read reads ih =>
    obtain ⟨hne, hping⟩ := hreads read List.mem_cons_self
    rw [List.flatten_cons, List.length_append] at hlen
    have hread := hst.readArm json description haction (by omega) hne hping
    rw [if_pos (by omega)] at hread
    have hst' : Pending { st with remainingGdpPayload := got ++ read } header (got ++ read) :=
      ⟨hst.need, hst.header_eq, rfl⟩
    obtain ⟨last, hlast, hfinal, hemit⟩ := ih hst'
      (fun r hr => hreads r (List.mem_cons_of_mem _ hr)) (by rw [List.length_append]; omega)
    have hstep : Reader.step json description (.running st) read =
        (.running { st with remainingGdpPayload := got ++ read }, {}) := hread
    refine ⟨last, ?_, ?_, ?_⟩
    · rwa [List.flatten_cons, ← List.append_assoc]
    · rw [Mealy.final_cons, hstep, hfinal]
    · rw [emitted_cons, hstep, hemit]
      rfl

/-- The read that ends the body emits the packet. -/
theorem Pending.last {read : Bytes} (hne : read ≠ []) (hping : read ≠ ping)
    (hlen : got.length + read.length = header.length) :
    ∃ st', st'.needMoreDataForPreviousHeader = false ∧
      Kcp.readArm json description st read =
        (.running st', { rosTx := [packetOf description (header, got ++ read)] }) := by
  have hpos : 0 < read.length := List.length_pos_iff.2 hne
  rw [hst.readArm json description haction (by omega) hne hping, if_neg (by omega),
    show header.length - got.length = read.length by omega, List.take_length, List.drop_length]
  exact ⟨_, rfl, rfl⟩

/-- Whatever is read next, the first packet that is emitted starts with the
bytes already held. -/
theorem Pending.first (hlen : got.length < header.length) (reads : List Bytes) :
    emitted json description (.running st) reads = [] ∨ ∃ body later,
      emitted json description (.running st) reads =
        packetOf description (header, got ++ body) :: later := by
  induction reads generalizing st got with
  | nil => exact .inl rfl
  | cons read reads ih =>
    rw [emitted_cons, Reader.step]
    by_cases hne : read = []
    · subst hne
      left
      simpa [Kcp.readArm] using
        emitted_stopped json description (r := .closed) (fun _ => rfl) reads
    by_cases hping : read = ping
    · subst hping
      simpa [Kcp.readArm, ping] using ih hst hlen
    rw [hst.readArm json description haction hlen hne hping]
    by_cases hshort : got.length + read.length < header.length
    · rw [if_pos hshort]
      have hst' : Pending { st with remainingGdpPayload := got ++ read } header (got ++ read) :=
        ⟨hst.need, hst.header_eq, rfl⟩
      rcases ih hst' (by rw [List.length_append]; omega) with hnil | ⟨body, later, hcons⟩
      · exact .inl (by simpa using hnil)
      · exact .inr ⟨read ++ body, later, by simpa using hcons⟩
    · rw [if_neg hshort, parseAndSend]
      split
      · rename_i p _
        left
        simpa using emitted_stopped json description (r := .panicked p) (fun _ => rfl) reads
      · exact .inr ⟨read.take (header.length - got.length), _, rfl⟩

/-- The first byte of the next read continues the body. -/
theorem Pending.first_of_head (hlen : got.length < header.length) (byte : UInt8) (tail : Bytes)
    (hping : byte :: tail ≠ ping) (reads : List Bytes) :
    emitted json description (.running st) ((byte :: tail) :: reads) = [] ∨ ∃ body later,
      emitted json description (.running st) ((byte :: tail) :: reads) =
        packetOf description (header, got ++ byte :: body) :: later := by
  rw [emitted_cons, Reader.step,
    hst.readArm json description haction hlen (List.cons_ne_nil _ _) hping]
  by_cases hshort : got.length + (byte :: tail).length < header.length
  · rw [if_pos hshort]
    have hst' : Pending { st with remainingGdpPayload := got ++ byte :: tail } header
        (got ++ byte :: tail) := ⟨hst.need, hst.header_eq, rfl⟩
    rcases hst'.first json description haction
      (by rw [List.length_append]; omega) reads with hnil | ⟨body, later, hcons⟩
    · exact .inl hnil
    · refine .inr ⟨tail ++ body, later, ?_⟩
      rw [hcons, List.append_assoc, List.cons_append]
      rfl
  · have hmissing : header.length - got.length = header.length - got.length - 1 + 1 := by omega
    rw [if_neg hshort, parseAndSend, hmissing, List.take_succ_cons]
    split
    · rename_i p _
      exact .inl (emitted_stopped json description (r := .panicked p) (fun _ => rfl) reads)
    · exact .inr ⟨_, _, rfl⟩

end Body

/-! ## One packet -/

/-- A packet with data, which carries a guid and no name record. -/
structure Sendable (pkt : GDPPacket) : Prop where
  action : pkt.action = .forward ∨ pkt.action = .request ∨ pkt.action = .response
  guid : pkt.guid.isSome
  nameRecord : pkt.nameRecord = none

/-- A payload is present and no fragment of it is a keepalive. -/
def Deliverable (pkt : GDPPacket) : Prop :=
  ∃ payload, pkt.payload = some payload ∧ ¬ EndsInPing payload

/-- The packet as the peer builds it, with its own description. -/
def received (description : Option String) (pkt : GDPPacket) : GDPPacket := { pkt with description }

theorem Sendable.action_ne {pkt : GDPPacket} (h : Sendable pkt) : pkt.action ≠ .noop := by
  rcases h.action with h | h | h <;> rw [h] <;> decide

variable {recordJson : SerdeJson GDPNameRecord} {randomName : GDPName}

variable (json description recordJson randomName) in
/-- The writes of a packet: its header, then the fragments of its payload. -/
theorem writerArm_sendable {pkt : GDPPacket} (h : Sendable pkt) :
    ∃ header, writerArm json recordJson randomName pkt =
        some (headerBlock json header ::
          (pkt.payload.elim [] fun payload => payloadWrites payload 0)) ∧
      header.action = pkt.action ∧ header.length = (pkt.payload.getD []).length ∧
      ∀ payload, packetOf description (header, payload) =
        { pkt with payload := some payload, description } := by
  obtain ⟨action, gdpname, payload, nameRecord, guid, source, _⟩ := pkt
  obtain ⟨g, rfl⟩ := Option.isSome_iff_exists.1 h.guid
  obtain rfl : nameRecord = none := h.nameRecord
  cases payload with
  | none => exact ⟨⟨action, gdpname, source, g, 0⟩, rfl, rfl, rfl, fun _ => rfl⟩
  | some payload =>
    refine ⟨⟨action, gdpname, source, g, payload.length⟩, ?_, rfl, rfl, fun _ => rfl⟩
    simp [writerArm, GDPPacket.getHeader]

section Packet

variable (description) (hround : json.RoundTrips) (hnul : json.NoNul)

include hround hnul

/-- The read of a header alone. -/
theorem readArm_header {st : ReaderState} (hst : st.needMoreDataForPreviousHeader = false)
    (header : GDPHeaderInTransit) :
    readArm json description st (headerBlock json header) =
      if 0 < header.length then (.running (st.carry (some (header, []))), {})
      else (.running (st.carry none), { rosTx := [packetOf description (header, [])] }) := by
  have hloop := parseLoop_header hround hnul header [] []
  rw [List.append_nil, List.length_nil] at hloop
  rw [readArm_fresh hst (headerBlock_ne_nil header) (headerBlock_ne_ping header), parseAndSend,
    parseHeaderPayloadPairs_of_ne json (headerBlock_ne_nil header), hloop]
  by_cases hpos : 0 < header.length
  · rw [if_pos hpos, if_pos (show header.length > 0 from hpos)]
    rfl
  · have hzero : header.length = 0 := by omega
    rw [if_neg hpos, if_neg (show ¬ header.length > 0 from hpos), if_pos hzero]
    rfl

/-- The reads of a packet without a payload, or with an empty one. -/
theorem reads_empty {st : ReaderState} (hst : st.needMoreDataForPreviousHeader = false)
    {header : GDPHeaderInTransit} (hlen : header.length = 0) :
    ∃ st', st'.needMoreDataForPreviousHeader = false ∧
      Mealy.final (Reader.step json description) (.running st) [headerBlock json header] =
        .running st' ∧
      emitted json description (.running st) [headerBlock json header] =
        [packetOf description (header, [])] := by
  have hread := readArm_header description hround hnul hst header
  rw [if_neg (by omega)] at hread
  exact ⟨st.carry none, rfl, by simp [Reader.step, hread], by simp [Reader.step, hread]⟩

/-- The reads of a nonempty payload: the packet, unless the last fragment is a
keepalive and the body stays four bytes short. -/
theorem reads_payload {st : ReaderState} (hst : st.needMoreDataForPreviousHeader = false)
    {header : GDPHeaderInTransit} (haction : header.action ≠ .noop) {payload : Bytes}
    (hpayload : payload ≠ []) (hlen : header.length = payload.length) :
    ∃ st', Mealy.final (Reader.step json description) (.running st)
        (headerBlock json header :: payloadWrites payload 0) = .running st' ∧
      if EndsInPing payload then
        emitted json description (.running st)
          (headerBlock json header :: payloadWrites payload 0) = [] ∧
        ∃ got, Pending st' header got ∧ payload = got ++ ping
      else
        emitted json description (.running st)
          (headerBlock json header :: payloadWrites payload 0) =
            [packetOf description (header, payload)] ∧
        st'.needMoreDataForPreviousHeader = false := by
  have hpos : 0 < payload.length := List.length_pos_iff.2 hpayload
  obtain ⟨full, last, hwrites, hflat, hfull, hne, hle⟩ := payloadWrites_eq hpos
  rw [List.drop_zero] at hflat
  have hlastpos : 0 < last.length := List.length_pos_iff.2 hne
  have htotal : full.flatten.length + last.length = header.length := by
    rw [hlen, ← hflat, List.length_append]
  have hread := readArm_header description hround hnul hst header
  rw [if_pos (by omega)] at hread
  have hstep : Reader.step json description (.running st) (headerBlock json header) =
      (.running (st.carry (some (header, []))), {}) := hread
  have hpending : Pending (st.carry (some (header, []))) header [] := ⟨rfl, rfl, rfl⟩
  have hfullreads : ∀ read ∈ full, read ≠ [] ∧ read ≠ ping := by
    intro read hmem
    have := hfull read hmem
    constructor <;> rintro rfl <;> exact absurd this (by decide)
  obtain ⟨st₁, hst₁, hfinal, hemit⟩ := hpending.reads json description
    haction full hfullreads (by simp only [List.length_nil]; omega)
  rw [List.nil_append] at hst₁
  rw [hwrites]
  by_cases hping : EndsInPing payload
  · have hlast := (endsInPing_iff hflat hfull hne hle).1 hping
    subst hlast
    have hkeep : Reader.step json description (.running st₁) ping =
        (.running st₁, { written := [pong] }) := by
      simp [Reader.step, readArm, ping]
    refine ⟨st₁, ?_, ?_⟩
    · simp [hstep, Mealy.final_append, hfinal, hkeep]
    · rw [if_pos hping]
      refine ⟨?_, full.flatten, hst₁, hflat.symm⟩
      simp [hstep, emitted_append, hemit, hfinal, hkeep]
  · have hlast : last ≠ ping := fun h => hping ((endsInPing_iff hflat hfull hne hle).2 h)
    obtain ⟨st₂, hst₂, hread₂⟩ := hst₁.last json description haction hne
      hlast htotal
    have hstep₂ : Reader.step json description (.running st₁) last =
        (.running st₂, { rosTx := [packetOf description (header, full.flatten ++ last)] }) := hread₂
    refine ⟨st₂, ?_, ?_⟩
    · simp [hstep, Mealy.final_append, hfinal, hstep₂]
    · rw [if_neg hping]
      refine ⟨?_, hst₂⟩
      simp [hstep, emitted_append, hemit, hfinal, hstep₂, ← hflat]

end Packet

/-! ## Sequences of packets -/

section Packets

variable (hround : json.RoundTrips) (hnul : json.NoNul) (hbrace : json.OpensBrace)

theorem writerArms_nil : writerArms json recordJson randomName [] = some [] := rfl

theorem writerArms_cons {pkt : GDPPacket} {pkts : List GDPPacket} {writes later : List Bytes}
    (hpkt : writerArm json recordJson randomName pkt = some writes)
    (hpkts : writerArms json recordJson randomName pkts = some later) :
    writerArms json recordJson randomName (pkt :: pkts) = some (writes ++ later) := by
  obtain ⟨ws, hws, rfl⟩ := Option.map_eq_some_iff.1 hpkts
  simp [writerArms, List.mapM_cons, hpkt, hws]

variable (json recordJson randomName) in
/-- The writes of a list of packets begin with a header, if there are any. -/
theorem writerArms_sendable (pkts : List GDPPacket) (hpkts : ∀ pkt ∈ pkts, Sendable pkt) :
    ∃ writes, writerArms json recordJson randomName pkts = some writes ∧
      (writes = [] ∨ ∃ header later, writes = headerBlock json header :: later) := by
  induction pkts with
  | nil => exact ⟨[], rfl, .inl rfl⟩
  | cons pkt pkts ih =>
    obtain ⟨later, hlater, _⟩ := ih fun p hp => hpkts p (List.mem_cons_of_mem _ hp)
    obtain ⟨header, harm, _⟩ := writerArm_sendable json none recordJson randomName
      (hpkts pkt List.mem_cons_self)
    exact ⟨_, writerArms_cons harm hlater, .inr ⟨header, _, rfl⟩⟩

include hbrace in
variable (description) in
/-- A body that lacks the fragment `ping` does not get it back from the writes
of later packets. -/
theorem ping_lost {st : ReaderState} {header : GDPHeaderInTransit} {got : Bytes}
    (hst : Pending st header got) (haction : header.action ≠ .noop)
    (hlen : got.length < header.length) {writes : List Bytes}
    (hwrites : writes = [] ∨ ∃ h later, writes = headerBlock json h :: later)
    (later : List GDPPacket) :
    emitted json description (.running st) writes ≠
      packetOf description (header, got ++ ping) :: later := by
  rcases hwrites with rfl | ⟨h, rest, rfl⟩
  · simp
  · intro hemit
    have hhead : (headerBlock json h).head? = some 0x7b := by
      unfold headerBlock
      rw [List.head?_append, hbrace h]
      rfl
    obtain ⟨tail, htail⟩ := List.head?_eq_some_iff.1 hhead
    rw [htail] at hemit
    rcases hst.first_of_head json description haction hlen 0x7b tail
      (by rw [← htail]; exact headerBlock_ne_ping h) rest with hnil | ⟨body, later', hcons⟩
    · rw [hnil] at hemit
      cases hemit
    · rw [hcons] at hemit
      have hpkt := (List.cons.inj hemit).1
      have hpayload := Option.some.inj (congrArg GDPPacket.payload hpkt)
      have hbyte := (List.cons.inj (List.append_cancel_left hpayload)).1
      exact absurd hbyte (by decide)

include hround hnul hbrace

variable (description recordJson randomName) in
/-- One packet: the peer sends it and has read it to its end, or whatever is written after it
does not make the peer send it. -/
theorem relay_packet {pkt : GDPPacket} (hpkt : Sendable pkt) {st : ReaderState}
    (hst : st.needMoreDataForPreviousHeader = false) :
    ∃ writes, writerArm json recordJson randomName pkt = some writes ∧
      ((Deliverable pkt ∧ ∃ st', st'.needMoreDataForPreviousHeader = false ∧
          Mealy.final (Reader.step json description) (.running st) writes = .running st' ∧
          emitted json description (.running st) writes = [received description pkt]) ∨
        ¬ Deliverable pkt ∧ ∀ rest later,
          (rest = [] ∨ ∃ header later, rest = headerBlock json header :: later) →
          emitted json description (.running st) (writes ++ rest) ≠
            received description pkt :: later) := by
  obtain ⟨header, harm, haction, hlen, hbuilt⟩ := writerArm_sendable json description
    recordJson randomName hpkt
  have haction' : header.action ≠ .noop := by rw [haction]; exact hpkt.action_ne
  refine ⟨_, harm, ?_⟩
  rcases hpayload : pkt.payload with _ | payload
  · -- the peer builds an empty payload where the packet had none
    rw [hpayload] at hlen
    obtain ⟨st', -, -, hemit⟩ := reads_empty description hround hnul hst hlen
    have hne : packetOf description (header, []) ≠ received description pkt := by
      intro heq
      have := congrArg GDPPacket.payload ((hbuilt []).symm.trans heq)
      unfold received at this
      rw [hpayload] at this
      cases this
    have hnot : ¬ Deliverable pkt := by
      rintro ⟨payload, h, _⟩
      rw [hpayload] at h
      cases h
    refine .inr ⟨hnot, fun rest later _ heq => ?_⟩
    rw [Option.elim_none, emitted_append, hemit] at heq
    exact hne (List.cons.inj heq).1
  · rw [hpayload, Option.getD_some] at hlen
    have hsame : packetOf description (header, payload) = received description pkt := by
      rw [hbuilt, received, ← hpayload]
    rw [Option.elim_some]
    rcases eq_or_ne payload [] with rfl | hne
    · obtain ⟨st', hst', hfinal, hemit⟩ := reads_empty description hround hnul hst hlen
      have hyes : Deliverable pkt := ⟨[], hpayload, by decide⟩
      rw [payloadWrites_nil]
      exact .inl ⟨hyes, st', hst', hfinal, by rw [hemit, hsame]⟩
    · obtain ⟨st', hfinal, hsplit⟩ := reads_payload description hround hnul hst haction' hne hlen
      by_cases hping : EndsInPing payload
      · rw [if_pos hping] at hsplit
        obtain ⟨hemit, got, hpending, hgot⟩ := hsplit
        have hnot : ¬ Deliverable pkt := by
          rintro ⟨p, h, hp⟩
          rw [hpayload] at h
          cases h
          exact hp hping
        have hlt : got.length < header.length := by
          rw [hlen, hgot, List.length_append]
          exact Nat.lt_add_of_pos_right (by decide)
        refine .inr ⟨hnot, fun rest later hrest => ?_⟩
        rw [emitted_append, hemit, hfinal, List.nil_append, ← hsame, hgot]
        exact ping_lost description hbrace hpending haction' hlt hrest later
      · rw [if_neg hping] at hsplit
        obtain ⟨hemit, hst'⟩ := hsplit
        have hyes : Deliverable pkt := ⟨payload, hpayload, hping⟩
        exact .inl ⟨hyes, st', hst', hfinal, by rw [hemit, hsame]⟩

theorem relays_from (pkts : List GDPPacket) (hpkts : ∀ pkt ∈ pkts, Sendable pkt)
    {st : ReaderState} (hst : st.needMoreDataForPreviousHeader = false) :
    (writerArms json recordJson randomName pkts).map
        (emitted json description (.running st)) = some (pkts.map (received description)) ↔
      ∀ pkt ∈ pkts, Deliverable pkt := by
  induction pkts generalizing st with
  | nil => simp [writerArms_nil]
  | cons pkt pkts ih =>
    obtain ⟨hpkt, hlaters⟩ := List.forall_mem_cons.1 hpkts
    obtain ⟨later, hlater, hhead⟩ := writerArms_sendable json recordJson randomName pkts hlaters
    obtain ⟨writes, harm, hrelay⟩ :=
      relay_packet description recordJson randomName hround hnul hbrace hpkt hst
    rw [writerArms_cons harm hlater, Option.map_some, Option.some.injEq, List.map_cons,
      List.forall_mem_cons]
    rcases hrelay with ⟨hdeliverable, st', hst', hfinal, hemit⟩ | ⟨hdeliverable, hlost⟩
    · have hrest := ih hlaters hst'
      rw [hlater, Option.map_some, Option.some.injEq] at hrest
      rw [emitted_append, hemit, hfinal, List.singleton_append, List.cons.injEq, hrest]
      simp only [hdeliverable, true_and]
    · exact iff_of_false (hlost later _ hhead) fun h => hdeliverable h.1

/-- **Main result.**  The peer sends exactly the packets the writer took if and
only if each of them carries a payload and no payload ends in a `ping` fragment. -/
theorem relays_iff_deliverable (description : Option String) (recordJson : SerdeJson GDPNameRecord)
    (randomName : GDPName) (pkts : List GDPPacket) (hpkts : ∀ pkt ∈ pkts, Sendable pkt) :
    (writerArms json recordJson randomName pkts).map
        (emitted json description (.running initialReader)) =
          some (pkts.map (received description)) ↔
      ∀ pkt ∈ pkts, Deliverable pkt :=
  relays_from hround hnul hbrace pkts hpkts rfl

end Packets

theorem sendable_samplePacket (payload : Bytes) : Sendable (samplePacket payload) :=
  ⟨.inl rfl, rfl, rfl⟩

theorem relays_samplePackets :
    (writerArms headerJson unusedRecordJson ⟨#v[0, 0, 0, 0]⟩
        [samplePacket [], samplePacket [0x70]]).map
        (emitted headerJson none (.running initialReader)) =
      some ([samplePacket [], samplePacket [0x70]].map (received none)) := by
  refine (relays_iff_deliverable headerJson_roundTrips headerJson_noNul headerJson_opensBrace none
    unusedRecordJson ⟨#v[0, 0, 0, 0]⟩ [samplePacket [], samplePacket [0x70]] ?_).2 ?_
  · exact List.forall_mem_cons.2 ⟨sendable_samplePacket _, List.forall_mem_singleton.2
      (sendable_samplePacket _)⟩
  · exact List.forall_mem_cons.2 ⟨⟨[], rfl, by decide⟩, List.forall_mem_singleton.2
      ⟨[0x70], rfl, by decide⟩⟩

/-- A payload of the four bytes `ping` never arrives. -/
theorem ping_payload_not_relayed :
    Sendable (samplePacket ping) ∧
      (writerArms headerJson unusedRecordJson ⟨#v[0, 0, 0, 0]⟩ [samplePacket ping]).map
          (emitted headerJson none (.running initialReader)) ≠
        some ([samplePacket ping].map (received none)) := by
  have hsendable : ∀ pkt ∈ [samplePacket ping], Sendable pkt :=
    List.forall_mem_singleton.2 (sendable_samplePacket ping)
  refine ⟨sendable_samplePacket ping, fun h => ?_⟩
  obtain ⟨payload, hpayload, hping⟩ := (relays_from headerJson_roundTrips headerJson_noNul
    headerJson_opensBrace _ hsendable rfl).1 h _ List.mem_cons_self
  cases hpayload
  exact hping (by decide)

end RtFogros.Kcp
