import RtFogros.Packet.Text

/-!
# Packets and headers in transit

The data of `packet_structs.rs`: names, actions, packets, name records, and
the header `GDPHeaderInTransit` a packet is announced with on a stream.
`serde_json` is a parameter of everything that serializes: `SerdeJson α`
carries the two functions the code calls for one type `α`.
-/

namespace RtFogros

/-! ## Names and actions -/

structure GDPName where
  bytes : Vector UInt8 4
deriving DecidableEq

inductive GdpAction where
  | noop
  | forward
  | advertise
  | advertiseResponse
  | ribGet
  | ribReply
  | nack
  | control
  | request
  | response
  | ping
  | pong
deriving DecidableEq

inductive GDPNameRecordType where
  | empty
  | info
  | query
  | update
  | merge
  | delete
deriving DecidableEq

structure GDPNameRecord where
  recordType : GDPNameRecordType
  gdpname : GDPName
  sourceGdpname : GDPName
  webrtcOffer : Option String
  ipAddress : Option String
  ros : Option (String × String)
  indirect : Option GDPName
deriving DecidableEq

/-! ## Packets -/

structure GDPPacket where
  action : GdpAction
  gdpname : GDPName
  payload : Option Bytes
  nameRecord : Option GDPNameRecord
  guid : Option GDPName
  source : GDPName
  description : Option String
deriving DecidableEq

structure GDPHeaderInTransit where
  action : GdpAction
  destination : GDPName
  source : GDPName
  guid : GDPName
  length : Nat
deriving DecidableEq

def constructGdpForwardFromBytesWithGuid (destination source : GDPName) (buffer : Bytes)
    (guid : GDPName) : GDPPacket :=
  { action := .forward, gdpname := destination, payload := some buffer, source, guid := some guid,
    nameRecord := none, description := none }

def constructGdpRequestWithGuid (destination source : GDPName) (buffer : Bytes)
    (guid : GDPName) : GDPPacket :=
  { action := .request, gdpname := destination, payload := some buffer, source, guid := some guid,
    nameRecord := none, description := none }

def constructGdpResponseWithGuid (destination source : GDPName) (buffer : Bytes)
    (guid : GDPName) : GDPPacket :=
  { action := .response, gdpname := destination, payload := some buffer, source, guid := some guid,
    nameRecord := none, description := none }

def constructGdpPacketWithGuid (action : GdpAction) (destination source : GDPName) (buffer : Bytes)
    (guid : GDPName) (description : Option String) : GDPPacket :=
  { action, gdpname := destination, payload := some buffer, source, guid := some guid,
    nameRecord := none, description }

/-! ## Names from digests -/

section Digest

-- the first four bytes of a SHA-256 digest
variable (digest : Bytes → Vector UInt8 4)

def getGdpNameFromTopic (topicName topicType : String) (cert : Bytes) : GDPName :=
  ⟨digest (asBytes topicName ++ asBytes topicType ++ cert)⟩

def generateGdpNameFromString (inputStr : String) : GDPName := ⟨digest (asBytes inputStr)⟩

end Digest

/-! ## Serialization -/

/-- `serde_json::to_string` and `serde_json::from_str` for one type. -/
structure SerdeJson (α : Type) where
  toString : α → String
  fromStr : String → Option α

/-! ## Packets without a guid -/

def constructGdpAdvertisementFromStructs (destination source : GDPName)
    (nameRecord : GDPNameRecord) : GDPPacket :=
  { action := .advertise, gdpname := destination, source, payload := none, guid := none,
    nameRecord := some nameRecord, description := none }

/-- `none` is the failed `unwrap` of bytes that are no name record. -/
def constructGdpAdvertisementFromBytes (recordJson : SerdeJson GDPNameRecord)
    (destination source : GDPName) (advertisementPacket : Bytes) : Option GDPPacket :=
  if advertisementPacket.length = 0 then
    some { action := .advertise, gdpname := destination, source, payload := none, guid := none,
           nameRecord := none, description := none }
  else do
    let text ← fromUtf8 advertisementPacket
    let nameRecord ← recordJson.fromStr text
    some { action := .advertise, gdpname := destination, source, payload := none,
           nameRecord := some nameRecord, guid := none, description := none }

def constructRibQueryFromBytes (destination source : GDPName) (nameRecord : GDPNameRecord) :
    GDPPacket :=
  { action := .ribGet, gdpname := destination, source, payload := none, guid := none,
    nameRecord := some nameRecord, description := none }

/-- The packets that the constructors build. -/
inductive Constructed (recordJson : SerdeJson GDPNameRecord) : GDPPacket → Prop where
  | forward (destination source : GDPName) (buffer : Bytes) (guid : GDPName) :
    Constructed recordJson
      (constructGdpForwardFromBytesWithGuid destination source buffer guid)
  | request (destination source : GDPName) (buffer : Bytes) (guid : GDPName) :
    Constructed recordJson (constructGdpRequestWithGuid destination source buffer guid)
  | response (destination source : GDPName) (buffer : Bytes) (guid : GDPName) :
    Constructed recordJson (constructGdpResponseWithGuid destination source buffer guid)
  | packet (action : GdpAction) (destination source : GDPName) (buffer : Bytes) (guid : GDPName)
      (description : Option String) :
    Constructed recordJson
      (constructGdpPacketWithGuid action destination source buffer guid description)
  | advertisement (destination source : GDPName) (nameRecord : GDPNameRecord) :
    Constructed recordJson (constructGdpAdvertisementFromStructs destination source nameRecord)
  | advertisementBytes {destination source : GDPName} {bytes : Bytes} {pkt : GDPPacket}
      (h : constructGdpAdvertisementFromBytes recordJson destination source bytes = some pkt) :
    Constructed recordJson pkt
  | ribQuery (destination source : GDPName) (nameRecord : GDPNameRecord) :
    Constructed recordJson (constructRibQueryFromBytes destination source nameRecord)

theorem constructGdpAdvertisementFromBytes_bare {recordJson : SerdeJson GDPNameRecord}
    {destination source : GDPName} {bytes : Bytes} {pkt : GDPPacket}
    (h : constructGdpAdvertisementFromBytes recordJson destination source bytes = some pkt) :
    pkt.payload = none ∧ pkt.guid = none := by
  unfold constructGdpAdvertisementFromBytes at h
  split at h
  · cases h
    exact ⟨rfl, rfl⟩
  · simp only [Option.bind_eq_bind, Option.bind_eq_some_iff] at h
    obtain ⟨text, -, nameRecord, -, h⟩ := h
    cases h
    exact ⟨rfl, rfl⟩

/-- A constructor sets the payload and the guid together. -/
theorem Constructed.payload_isSome_iff {recordJson : SerdeJson GDPNameRecord} {pkt : GDPPacket}
    (h : Constructed recordJson pkt) : pkt.payload.isSome ↔ pkt.guid.isSome := by
  cases h with
  | advertisementBytes h =>
    obtain ⟨hpayload, hguid⟩ := constructGdpAdvertisementFromBytes_bare h
    simp [hpayload, hguid]
  | _ => rfl

/-! ## What is assumed of `serde_json` -/

namespace SerdeJson

variable {α : Type}

/-- What was serialized is read back. -/
def RoundTrips (json : SerdeJson α) : Prop := ∀ a, json.fromStr (json.toString a) = some a

/-- JSON text escapes control characters, so it holds no NUL byte. -/
def NoNul (json : SerdeJson α) : Prop := ∀ a, 0 ∉ asBytes (json.toString a)

/-- A struct is serialized as a JSON object. -/
def OpensBrace (json : SerdeJson α) : Prop := ∀ a, (asBytes (json.toString a)).head? = some 0x7b

/-- The text of `α` is ASCII. -/
def WritesAscii (json : SerdeJson α) : Prop := ∀ a, Ascii (asBytes (json.toString a))

/-- A text that breaks off is refused. -/
def RejectsPrefix (json : SerdeJson α) : Prop :=
  ∀ a s t, t ≠ "" → s ++ t = json.toString a → json.fromStr s = none

/-- A text with another object after it is refused. -/
def RejectsTrailing (json : SerdeJson α) : Prop :=
  ∀ a t, json.fromStr (json.toString a ++ ("\x7b" ++ t)) = none

/-- What is assumed of the reader and the writer of a struct without text fields. -/
structure Strict (json : SerdeJson α) : Prop where
  roundTrips : json.RoundTrips
  opensBrace : json.OpensBrace
  writesAscii : json.WritesAscii
  rejectsPrefix : json.RejectsPrefix
  rejectsTrailing : json.RejectsTrailing

/-- The bytes of a text that breaks off are refused. -/
theorem fromStr_short {json : SerdeJson α} (hascii : json.WritesAscii)
    (htruncated : json.RejectsPrefix) {a : α} {read missing : Bytes} (hmissing : missing ≠ [])
    (h : read ++ missing = asBytes (json.toString a)) :
    json.fromStr (fromUtf8Lossy read) = none := by
  have htext := hascii a
  rw [← h] at htext
  have hread := asBytes_fromUtf8Lossy fun b hb => htext b (List.mem_append_left _ hb)
  have hrest := asBytes_fromUtf8Lossy fun b hb => htext b (List.mem_append_right _ hb)
  refine htruncated a _ (fromUtf8Lossy missing) (fun hnil => hmissing ?_) ?_
  · rw [← hrest, hnil]
    rfl
  · apply asBytes_injective
    rw [asBytes_append, hread, hrest]
    exact h

end SerdeJson

/-- `GDPPacket::get_header`.  `randomName` is what `generate_random_gdp_name`
returns; `none` is the failed `self.guid.unwrap()` of a packet that has neither
a payload nor a guid. -/
def GDPPacket.getHeader (recordJson : SerdeJson GDPNameRecord) (randomName : GDPName)
    (pkt : GDPPacket) : Option GDPHeaderInTransit :=
  let nameRecordLength := match pkt.nameRecord with
    | some nameRecord => (asBytes (recordJson.toString nameRecord)).length
    | none => 0
  let guid := pkt.guid.getD randomName
  match pkt.payload with
  | some payload => some
      { action := pkt.action, destination := pkt.gdpname, source := pkt.source, guid,
        length := payload.length + nameRecordLength }
  | none => pkt.guid.map fun guid =>
      { action := pkt.action, destination := pkt.gdpname, source := pkt.source, guid,
        length := nameRecordLength }

/-- A packet with a payload or a guid has a header, whose length counts what is written
after it. -/
theorem getHeader_of_payload_or_guid (recordJson : SerdeJson GDPNameRecord) (randomName : GDPName)
    {pkt : GDPPacket} (h : pkt.payload.isSome ∨ pkt.guid.isSome) :
    ∃ header, pkt.getHeader recordJson randomName = some header ∧
      header.action = pkt.action ∧ header.destination = pkt.gdpname ∧ header.source = pkt.source ∧
      (∀ guid ∈ pkt.guid, header.guid = guid) ∧
      header.length = (pkt.payload.getD []).length +
        (pkt.nameRecord.map fun nameRecord =>
          asBytes (recordJson.toString nameRecord)).toList.flatten.length := by
  unfold GDPPacket.getHeader
  cases hpayload : pkt.payload with
  | some payload =>
    refine ⟨_, rfl, rfl, rfl, rfl, fun guid hguid => by simp [Option.mem_def.1 hguid], ?_⟩
    cases pkt.nameRecord <;> simp
  | none =>
    cases hguid : pkt.guid with
    | none => simp [hpayload, hguid] at h
    | some guid =>
      refine ⟨_, rfl, rfl, rfl, rfl, fun _ h => Option.some.inj h, ?_⟩
      cases pkt.nameRecord <;> simp

end RtFogros
