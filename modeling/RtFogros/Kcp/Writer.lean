import RtFogros.Kcp.Reader
import RtFogros.Packet.Json

/-!
# The writer arm of a KCP stream

What the writer arm of `reader_and_writer` writes for one packet, each element
being one `write_all` that succeeds: the header with its NUL, the payload in
fragments of at most `udpBufferSize` bytes, the name record.

`constructed_written_iff_guid`: of the packets that the constructors build, the arm writes exactly
those with a guid.  `WritesPacket` states what is to be written without the arm: the fragments are
any cutting of the payload, and the header declares the length of all that follows.  `EndsInPing`
says of a payload when its last fragment is a keepalive.
-/

namespace RtFogros.Kcp

/-- The loop `while bytes_written < bytes_to_write`. -/
def payloadWrites (payload : Bytes) (bytesWritten : Nat) : List Bytes :=
  if bytesWritten < payload.length then
    if payload.length - bytesWritten > udpBufferSize then
      (payload.drop bytesWritten).take udpBufferSize ::
        payloadWrites payload (bytesWritten + udpBufferSize)
    else [(payload.drop bytesWritten).take (payload.length - bytesWritten)]
  else []
termination_by payload.length - bytesWritten
decreasing_by
  simp only [udpBufferSize] at *
  omega

section Arm

variable (json : SerdeJson GDPHeaderInTransit) (recordJson : SerdeJson GDPNameRecord)
  (randomName : GDPName)

/-- The writes of the writer arm; `none` is the panic of `get_header`. -/
def writerArm (pktToForward : GDPPacket) : Option (List Bytes) :=
  (pktToForward.getHeader recordJson randomName).map fun transitHeader =>
    [headerBlock json transitHeader] ++
    (match pktToForward.payload with
      | some payload => payloadWrites payload 0
      | none => []) ++
    (match pktToForward.nameRecord with
      | some nameRecord => [asBytes (recordJson.toString nameRecord)]
      | none => [])

/-- The writes for a list of packets taken one after the other. -/
def writerArms (pkts : List GDPPacket) : Option (List Bytes) :=
  (pkts.mapM (writerArm json recordJson randomName)).map List.flatten

end Arm

/-! ## The fragments of a payload -/

theorem payloadWrites_step {payload : Bytes} {bytesWritten : Nat}
    (h : payload.length - bytesWritten > udpBufferSize) :
    payloadWrites payload bytesWritten = (payload.drop bytesWritten).take udpBufferSize ::
      payloadWrites payload (bytesWritten + udpBufferSize) := by
  rw [payloadWrites, if_pos (by omega), if_pos h]

theorem payloadWrites_last {payload : Bytes} {bytesWritten : Nat}
    (hlt : bytesWritten < payload.length) (h : ¬ payload.length - bytesWritten > udpBufferSize) :
    payloadWrites payload bytesWritten = [payload.drop bytesWritten] := by
  unfold payloadWrites
  rw [if_pos hlt, if_neg h, List.take_of_length_le (by simp)]

@[simp] theorem payloadWrites_nil : payloadWrites [] 0 = [] := by
  unfold payloadWrites
  rw [if_neg (by simp)]

/-- Every fragment but the last is full, and the last is not empty. -/
theorem payloadWrites_eq {payload : Bytes} {bytesWritten : Nat}
    (hlt : bytesWritten < payload.length) :
    ∃ full last, payloadWrites payload bytesWritten = full ++ [last] ∧
      full.flatten ++ last = payload.drop bytesWritten ∧
      (∀ fragment ∈ full, fragment.length = udpBufferSize) ∧
      last ≠ [] ∧ last.length ≤ udpBufferSize := by
  induction bytesWritten using payloadWrites.induct payload with
  | case1 bytesWritten _ hmore ih =>
    obtain ⟨full, last, hwrites, hflat, hfull, hne, hle⟩ := ih (by omega)
    refine ⟨(payload.drop bytesWritten).take udpBufferSize :: full, last, ?_, ?_, ?_, hne, hle⟩
    · rw [payloadWrites_step hmore, hwrites, List.cons_append]
    · rw [List.flatten_cons, List.append_assoc, hflat, ← List.drop_drop, List.take_append_drop]
    · intro fragment hfragment
      rcases List.mem_cons.1 hfragment with rfl | hmem
      · rw [List.length_take, List.length_drop]
        omega
      · exact hfull fragment hmem
  | case2 bytesWritten _ hmore =>
    refine ⟨[], payload.drop bytesWritten, payloadWrites_last hlt hmore, rfl, by simp, ?_, ?_⟩
    · rw [ne_eq, List.drop_eq_nil_iff]
      omega
    · rw [List.length_drop]
      omega
  | case3 bytesWritten hge => exact absurd hlt hge

theorem flatten_payloadWrites (payload : Bytes) : (payloadWrites payload 0).flatten = payload := by
  by_cases hne : payload = []
  · rw [hne, payloadWrites_nil, List.flatten_nil]
  · obtain ⟨full, last, hwrites, hflat, -⟩ := payloadWrites_eq (List.length_pos_iff.2 hne)
    rw [hwrites, List.flatten_append, List.flatten_singleton, hflat, List.drop_zero]

theorem length_le_of_mem_payloadWrites {payload fragment : Bytes}
    (h : fragment ∈ payloadWrites payload 0) : fragment.length ≤ udpBufferSize := by
  have hne : payload ≠ [] := by
    rintro rfl
    rw [payloadWrites_nil] at h
    cases h
  obtain ⟨full, last, hwrites, -, hfull, -, hle⟩ := payloadWrites_eq (List.length_pos_iff.2 hne)
  rw [hwrites] at h
  rcases List.mem_append.1 h with hmem | hmem
  · exact Nat.le_of_eq (hfull fragment hmem)
  · rwa [List.mem_singleton.1 hmem]

/-! ## The frame of a packet -/

section Frame

variable (json : SerdeJson GDPHeaderInTransit) (recordJson : SerdeJson GDPNameRecord)

/-- What should be written for a packet: its header JSON and a NUL, then as many bytes as the
header declares: the payload, in fragments, and the JSON of the name record. -/
structure WritesPacket (pkt : GDPPacket) (header : GDPHeaderInTransit)
    (fragments record : List Bytes) : Prop where
  action : header.action = pkt.action
  destination : header.destination = pkt.gdpname
  source : header.source = pkt.source
  guid : ∀ guid ∈ pkt.guid, header.guid = guid
  fragments_le : ∀ fragment ∈ fragments, fragment.length ≤ udpBufferSize
  fragments_flatten : fragments.flatten = pkt.payload.getD []
  record_eq : record = (pkt.nameRecord.map fun nameRecord =>
    asBytes (recordJson.toString nameRecord)).toList
  length : (fragments ++ record).flatten.length = header.length

variable {json recordJson} {randomName : GDPName}

/-- The writer arm writes the frame of a packet unless it has neither a payload nor a guid. -/
theorem writerArm_writesPacket_iff {pkt : GDPPacket} :
    (∃ header fragments record, WritesPacket recordJson pkt header fragments record ∧
      writerArm json recordJson randomName pkt =
        some (headerBlock json header :: (fragments ++ record))) ↔
      pkt.payload.isSome ∨ pkt.guid.isSome := by
  constructor
  · rintro ⟨header, fragments, record, -, hwrites⟩
    unfold writerArm GDPPacket.getHeader at hwrites
    cases hpayload : pkt.payload with
    | some payload => exact .inl rfl
    | none =>
      cases hguid : pkt.guid with
      | some guid => exact .inr rfl
      | none => simp [hpayload, hguid] at hwrites
  · intro h
    obtain ⟨header, hheader, haction, hdestination, hsource, hguid, hlength⟩ :=
      getHeader_of_payload_or_guid recordJson randomName h
    refine ⟨header, (pkt.payload.map fun payload => payloadWrites payload 0).getD [],
      (pkt.nameRecord.map fun nameRecord => asBytes (recordJson.toString nameRecord)).toList,
      ⟨haction, hdestination, hsource, hguid, ?_, ?_, rfl, ?_⟩, ?_⟩
    · cases pkt.payload with
      | none => simp
      | some payload => exact fun fragment hfragment => length_le_of_mem_payloadWrites hfragment
    · cases pkt.payload with
      | none => rfl
      | some payload => exact flatten_payloadWrites payload
    · rw [hlength, List.flatten_append, List.length_append]
      cases pkt.payload <;> cases pkt.nameRecord <;> simp [flatten_payloadWrites]
    · rw [writerArm, hheader]
      cases pkt.payload <;> cases pkt.nameRecord <;> rfl

variable (json randomName) in
/-- **Main result.**  Of the packets that the constructors build, the writer arm writes
exactly those with a guid. -/
theorem constructed_written_iff_guid {pkt : GDPPacket} (h : Constructed recordJson pkt) :
    (∃ header fragments record, WritesPacket recordJson pkt header fragments record ∧
      writerArm json recordJson randomName pkt =
        some (headerBlock json header :: (fragments ++ record))) ↔
      pkt.guid.isSome := by
  rw [writerArm_writesPacket_iff, h.payload_isSome_iff, or_self]

end Frame

/-- A message with the given payload. -/
def samplePacket (payload : Bytes) : GDPPacket :=
  constructGdpForwardFromBytesWithGuid ⟨#v[1, 2, 3, 4]⟩ ⟨#v[5, 6, 7, 8]⟩ payload ⟨#v[9, 10, 11, 12]⟩

/-- No name record is serialized for a packet without one. -/
def unusedRecordJson : SerdeJson GDPNameRecord := ⟨fun _ => "null", fun _ => none⟩

theorem samplePacket_written :
    ∃ header fragments record,
      WritesPacket unusedRecordJson (samplePacket ping) header fragments record ∧
      writerArm headerJson unusedRecordJson ⟨#v[0, 0, 0, 0]⟩ (samplePacket ping) =
        some (headerBlock headerJson header :: (fragments ++ record)) :=
  (constructed_written_iff_guid headerJson ⟨#v[0, 0, 0, 0]⟩ (.forward _ _ _ _)).2 rfl

/-- The writer arm panics on an advertisement. -/
theorem advertisement_not_written :
    ∃ pkt, constructGdpAdvertisementFromBytes unusedRecordJson ⟨#v[1, 2, 3, 4]⟩ ⟨#v[5, 6, 7, 8]⟩
        [] = some pkt ∧
      writerArm headerJson unusedRecordJson ⟨#v[0, 0, 0, 0]⟩ pkt = none :=
  ⟨_, rfl, rfl⟩

/-! ## Fragments that are a keepalive -/

/-- The last fragment of a payload is the four bytes of a keepalive. -/
def EndsInPing (payload : Bytes) : Prop :=
  payload.length % udpBufferSize = 4 ∧ payload.drop (payload.length - 4) = ping

instance (payload : Bytes) : Decidable (EndsInPing payload) := inferInstanceAs (Decidable (_ ∧ _))

theorem length_flatten_full {full : List Bytes}
    (h : ∀ fragment ∈ full, fragment.length = udpBufferSize) :
    full.flatten.length = udpBufferSize * full.length := by
  induction full with
  | nil => rfl
  | cons fragment full ih =>
    rw [List.flatten_cons, List.length_append, h fragment List.mem_cons_self,
      ih fun g hg => h g (List.mem_cons_of_mem _ hg), List.length_cons, Nat.mul_succ, Nat.add_comm]

/-- The fragments of a payload end in a keepalive exactly when `EndsInPing` says
so: full fragments are too long to be one. -/
theorem endsInPing_iff {payload last : Bytes} {full : List Bytes}
    (hflat : full.flatten ++ last = payload)
    (hfull : ∀ fragment ∈ full, fragment.length = udpBufferSize) (hne : last ≠ [])
    (hle : last.length ≤ udpBufferSize) : EndsInPing payload ↔ last = ping := by
  have hpos : 0 < last.length := List.length_pos_iff.2 hne
  have hlen : payload.length = udpBufferSize * full.length + last.length := by
    rw [← hflat, List.length_append, length_flatten_full hfull]
  have hdrop : last.length = 4 → payload.drop (payload.length - 4) = last := by
    intro h4
    rw [← hflat, List.length_append, h4, Nat.add_sub_cancel, List.drop_left]
  constructor
  · rintro ⟨hmod, hping⟩
    rw [hlen, Nat.mul_add_mod] at hmod
    have h4 : last.length = 4 := by
      simp only [udpBufferSize] at hmod hle
      omega
    rw [← hdrop h4, hping]
  · rintro rfl
    refine ⟨?_, hdrop rfl⟩
    rw [hlen, Nat.mul_add_mod]
    rfl

end RtFogros.Kcp
