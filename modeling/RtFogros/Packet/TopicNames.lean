import RtFogros.Packet.Structs
import Mathlib.Data.Set.Function

/-!
# The name of a topic

`get_gdp_name_from_topic` hashes the name of a topic, its type and the certificate one after
another, with nothing between them.

`gdpName_injOn_iff`: where the digest is injective on the texts of some topics, no two of them
share a name exactly if no two have the same text cut in different places.  The digest sees a topic
only through its text (`hashed`), and a text with its two cuts is the topic, so all that is lost is
the cuts.  `gdpName_chatter_eq` are two topics that lose them.
-/

namespace RtFogros

/-- What a topic is named after. -/
structure TopicTriple where
  topicName : String
  topicType : String
  cert : Bytes
deriving DecidableEq

namespace TopicTriple

def gdpName (digest : Bytes → Vector UInt8 4) (topic : TopicTriple) : GDPName :=
  getGdpNameFromTopic digest topic.topicName topic.topicType topic.cert

/-- The bytes that the hasher is updated with. -/
def hashed (topic : TopicTriple) : Bytes :=
  asBytes topic.topicName ++ asBytes topic.topicType ++ topic.cert

/-- The name and the type end at the same bytes. -/
structure CutAlike (topic other : TopicTriple) : Prop where
  topicName : (asBytes topic.topicName).length = (asBytes other.topicName).length
  topicType : (asBytes topic.topicType).length = (asBytes other.topicType).length

instance (topic other : TopicTriple) : Decidable (CutAlike topic other) :=
  decidable_of_iff
    ((asBytes topic.topicName).length = (asBytes other.topicName).length ∧
      (asBytes topic.topicType).length = (asBytes other.topicType).length)
    ⟨fun h => ⟨h.1, h.2⟩, fun h => ⟨h.1, h.2⟩⟩

variable {digest : Bytes → Vector UInt8 4} {topic other : TopicTriple}

theorem gdpName_of_hashed (h : topic.hashed = other.hashed) :
    topic.gdpName digest = other.gdpName digest :=
  congrArg (fun bytes => GDPName.mk (digest bytes)) h

/-- The same bytes cut in the same places are the same topic. -/
theorem CutAlike.eq (h : CutAlike topic other) (hhashed : topic.hashed = other.hashed) :
    topic = other := by
  obtain ⟨hname, hrest⟩ := List.append_inj (by simpa [hashed] using hhashed) h.topicName
  obtain ⟨htype, hcert⟩ := List.append_inj hrest h.topicType
  cases topic
  cases other
  obtain rfl := asBytes_injective hname
  obtain rfl := asBytes_injective htype
  obtain rfl := hcert
  rfl

/-- **Main result.**  Of topics whose texts the digest tells apart, no two share a name if and
only if no two have the same text cut in different places. -/
theorem gdpName_injOn_iff (digest : Bytes → Vector UInt8 4) (topics : Set TopicTriple)
    (hdigest : Set.InjOn digest (hashed '' topics)) :
    Set.InjOn (gdpName digest) topics ↔
      ∀ topic ∈ topics, ∀ other ∈ topics, topic.hashed = other.hashed → CutAlike topic other := by
  constructor
  · intro hinj topic htopic other hother hhashed
    obtain rfl := hinj htopic hother (gdpName_of_hashed hhashed)
    exact ⟨rfl, rfl⟩
  · intro hcut topic htopic other hother hname
    have hdigests : digest topic.hashed = digest other.hashed := congrArg GDPName.bytes hname
    have hhashed := hdigest (Set.mem_image_of_mem _ htopic) (Set.mem_image_of_mem _ hother) hdigests
    exact (hcut topic htopic other hother hhashed).eq hhashed

/-- `/chatter` of type `std_msgs/msg/String`. -/
def chatter : TopicTriple := ⟨"/chatter", "std_msgs/msg/String", []⟩

/-- `/chatters` of type `td_msgs/msg/String`: the same text, cut one letter later. -/
def chatters : TopicTriple := ⟨"/chatters", "td_msgs/msg/String", []⟩

/-- `/rosout` of type `rcl_interfaces/msg/Log`. -/
def rosout : TopicTriple := ⟨"/rosout", "rcl_interfaces/msg/Log", []⟩

theorem chatter_hashed : chatter.hashed = chatters.hashed := by decide +kernel

/-- The two topics share a name under every digest, one that tells all their texts apart
included. -/
theorem gdpName_chatter_eq :
    chatter ≠ chatters ∧ ∀ digest, Set.InjOn digest (hashed '' {chatter, chatters}) ∧
      chatter.gdpName digest = chatters.gdpName digest := by
  refine ⟨by decide, fun digest => ⟨?_, gdpName_of_hashed chatter_hashed⟩⟩
  rw [Set.image_pair, chatter_hashed, Set.pair_eq_singleton]
  exact Set.injOn_singleton _ _

/-- The first four bytes of the SHA-256 digest of the text of `/chatter`, and of that of
`/rosout`. -/
def sampleDigest (bytes : Bytes) : Vector UInt8 4 :=
  if bytes = chatter.hashed then #v[218, 71, 211, 255] else #v[38, 89, 88, 3]

theorem gdpName_rosout_injOn :
    Set.InjOn (gdpName sampleDigest) {chatter, rosout} ∧
      chatter.gdpName sampleDigest = ⟨#v[218, 71, 211, 255]⟩ ∧
      rosout.gdpName sampleDigest = ⟨#v[38, 89, 88, 3]⟩ := by
  refine ⟨(gdpName_injOn_iff _ _ ?_).2 ?_, by decide +kernel, by decide +kernel⟩
  · rw [Set.image_pair, Set.injOn_pair]
    decide +kernel
  · rintro _ (rfl | rfl) _ (rfl | rfl) hhashed
    · exact ⟨rfl, rfl⟩
    · exact absurd hhashed (by decide +kernel)
    · exact absurd hhashed (by decide +kernel)
    · exact ⟨rfl, rfl⟩

end TopicTriple

end RtFogros
