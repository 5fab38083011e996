import RtFogros.Fib.Abort

/-!
# The binding table

A bound interface lets a connection into the table if the text of the peer's address starts with
the bound text.  The address is the text of a socket address, an ip and a port, and the bound text
is an ip, so the two are compared only up to the length of the shorter one.

`bindsByIp_iff`: the table admits by ip exactly if no interface is bound to a text that `Confuses`
the address of a peer on it.  `Confuses` is worked out for both kinds of address: for IPv4 it is a
proper part of the ip, or the ip with a part of the port; for IPv6, whose text opens with a
bracket, it is the ip, which never matches, or a part of that text.
-/

namespace RtFogros

/-! ## Socket addresses -/

/-- The text of an `Ipv6Addr`. -/
structure Ipv6Addr where
  text : String
  nonempty : text.toList ≠ []
  chars : ∀ c ∈ text.toList, c ∈ "0123456789abcdef:.".toList
deriving DecidableEq

/-- A `SocketAddr`, its ip by its text. -/
inductive SocketAddr where
  | v4 (ip : String) (port : UInt16)
  | v6 (ip : Ipv6Addr) (port : UInt16)
deriving DecidableEq

namespace SocketAddr

def ip : SocketAddr → String
  | .v4 ip _ => ip
  | .v6 ip _ => ip.text

def toString : SocketAddr → String
  | .v4 ip port => ip ++ ":" ++ port.toNat.repr
  | .v6 ip port => "[" ++ ip.text ++ "]:" ++ port.toNat.repr

end SocketAddr

/-- What `handle_stream_sender` knows of its peer. -/
structure PeerStream (Tx : Type) where
  topicGdpName : GDPName
  connectionType : FibConnectionType
  localToNetTx : Tx
  description : String
  interface : String
  peerAddr : SocketAddr

namespace PeerStream

variable {Tx : Type} (stream : PeerStream Tx)

def channelUpdateMsg : FibStateChange Tx :=
  { action := .add, topicGdpName := stream.topicGdpName,
    connectionType := stream.connectionType,
    forwardDestination := some stream.localToNetTx, description := some stream.description,
    interface := some stream.interface, address := some stream.peerAddr.toString }

def event : FibEvent Tx := .update stream.channelUpdateMsg

/-- The connection that the handler makes of the update. -/
def connection : FibConnection Tx :=
  { state := .running, connectionType := stream.connectionType, tx := stream.localToNetTx,
    description := some stream.description, interface := some stream.interface,
    address := some stream.peerAddr.toString }

theorem channelUpdateMsg_complete : stream.channelUpdateMsg.Complete := ⟨rfl, rfl, rfl⟩

/-- The binding table has a say in the update. -/
def Checked : Prop := FibHandler.IsReceiver stream.connectionType ∧ stream.interface ≠ "ros"

end PeerStream

namespace FibHandler

/-! ## The bound text against the text of an address -/

theorem startsWith_iff {s pattern : String} :
    startsWith s pattern = true ↔ pattern.toList <+: s.toList := List.isPrefixOf_iff_prefix

/-- The bound text passes for another ip, or not for its own.  Of an IPv4 address it is a part
of the ip that is not all of it, or the ip and the first characters of the port; of an IPv6
address, whose text opens with a bracket, it is the ip or a part of that text. -/
def Confuses (bound : String) : SocketAddr → Prop
  | .v4 ip port =>
    bound.toList <+: ip.toList ∧ bound ≠ ip ∨
      (ip ++ ":").toList <+: bound.toList ∧
        bound.toList <+: (SocketAddr.v4 ip port).toString.toList
  | .v6 ip port =>
    bound = ip.text ∨ bound.toList <+: (SocketAddr.v6 ip port).toString.toList

theorem v4_startsWith_iff {bound ip : String} {port : UInt16} :
    startsWith (SocketAddr.v4 ip port).toString bound = true ↔
      bound = ip ∨ Confuses bound (.v4 ip port) := by
  have hip : (ip ++ ":").toList <+: (SocketAddr.v4 ip port).toString.toList := by
    simp only [SocketAddr.toString, String.toList_append]
    exact List.prefix_append _ _
  have hshort : ip.toList <+: (SocketAddr.v4 ip port).toString.toList := by
    rw [String.toList_append] at hip
    exact (List.prefix_append _ _).trans hip
  rw [startsWith_iff]
  unfold Confuses
  constructor
  · intro hbound
    by_cases heq : bound = ip
    · exact .inl heq
    · right
      rcases List.prefix_or_prefix_of_prefix hbound hip with hle | hge
      · rw [String.toList_append] at hle
        obtain hcolon | hle := List.prefix_concat_iff.1 hle
        · refine .inr ⟨?_, hbound⟩
          rw [String.toList_append]
          exact hcolon ▸ List.prefix_refl _
        · exact .inl ⟨hle, heq⟩
      · exact .inr ⟨hge, hbound⟩
  · rintro (rfl | ⟨hle, -⟩ | ⟨-, hbound⟩)
    · exact hshort
    · exact hle.trans hshort
    · exact hbound

theorem v4_ne_of_confuses {bound ip : String} {port : UInt16}
    (h : Confuses bound (.v4 ip port)) : bound ≠ ip := by
  rcases h with ⟨-, hne⟩ | ⟨hge, -⟩
  · exact hne
  · rintro rfl
    have hlength := hge.length_le
    rw [String.toList_append, List.length_append] at hlength
    exact absurd hlength (Nat.not_succ_le_self _)

/-- The text of an IPv6 address does not start with its ip. -/
theorem v6_not_startsWith (ip : Ipv6Addr) (port : UInt16) :
    ¬ startsWith (SocketAddr.v6 ip port).toString ip.text = true := by
  rw [startsWith_iff]
  intro hprefix
  have htext : (SocketAddr.v6 ip port).toString.toList =
      '[' :: (ip.text.toList ++ "]:".toList ++ port.toNat.repr.toList) := by
    simp [SocketAddr.toString, String.toList_append]
  rw [htext] at hprefix
  obtain ⟨first, rest, hfirst⟩ := List.exists_cons_of_ne_nil ip.nonempty
  rw [hfirst] at hprefix
  obtain ⟨rfl, -⟩ := List.cons_prefix_cons.1 hprefix
  have hchar := ip.chars '[' (by rw [hfirst]; exact List.mem_cons_self)
  exact absurd hchar (by decide)

/-- The test against the table compares the ip unless the bound text confuses the address. -/
theorem startsWith_iff_ip (bound : String) (addr : SocketAddr) :
    (startsWith addr.toString bound = true ↔ bound = addr.ip) ↔ ¬ Confuses bound addr := by
  cases addr with
  | v4 ip port =>
    rw [v4_startsWith_iff]
    constructor
    · intro hiff hconfuses
      exact v4_ne_of_confuses hconfuses (hiff.1 (.inr hconfuses))
    · intro hclear
      exact ⟨fun h => h.resolve_right hclear, .inl⟩
  | v6 ip port =>
    constructor
    · rintro hiff (hip | hbound)
      · exact v6_not_startsWith ip port (hip ▸ hiff.2 hip)
      · obtain rfl : bound = ip.text := hiff.1 (startsWith_iff.2 hbound)
        exact v6_not_startsWith ip port (startsWith_iff.2 hbound)
    · intro hclear
      constructor
      · intro hbound
        exact absurd (.inr (startsWith_iff.1 hbound)) hclear
      · intro hip
        exact absurd (.inl hip) hclear

/-! ## Runs -/

variable {Tx : Type} {table : String → Option String}

/-- The connections of a topic after the updates of some streams. -/
def receiversAfter (table : String → Option String) (streams : List (PeerStream Tx))
    (topic : GDPName) : List (FibConnection Tx) :=
  match Mealy.final (Fib.step (some table)) .initial (streams.map PeerStream.event) with
  | .running h => h.receiversOf topic
  | .aborted => []

theorem streams_running (table : String → Option String) (streams : List (PeerStream Tx)) :
    ∃ h, Mealy.final (Fib.step (some table)) .initial (streams.map PeerStream.event) =
      .running h := by
  have hfrom : ∀ (streams : List (PeerStream Tx)) (h : FibHandler Tx),
      ∃ h', Mealy.final (Fib.step (some table)) (.running h) (streams.map PeerStream.event) =
        .running h' := by
    intro streams
    induction streams with
    | nil => exact fun h => ⟨h, rfl⟩
    | cons stream streams ih =>
      intro h
      obtain ⟨h', hstep⟩ : ∃ h', h.updateArm (some table) stream.channelUpdateMsg = .running h' :=
        updateArm_of_complete stream.channelUpdateMsg_complete
      have hnext : (Fib.step (some table) (.running h) stream.event).1 = .running h' := hstep
      rw [List.map_cons, Mealy.final_cons, hnext]
      exact ih h'
  exact hfrom streams {}

theorem receiversAfter_eq (streams : List (PeerStream Tx)) (topic : GDPName) :
    receiversAfter table streams topic =
      registered (some table) (streams.map PeerStream.event) topic := by
  obtain ⟨h, hrun⟩ := streams_running table streams
  unfold receiversAfter
  rw [hrun]
  exact receiversOf_final hrun topic

theorem filtered_checked {stream : PeerStream Tx} (hros : stream.interface ≠ "ros") :
    filtered (some table) stream.interface stream.peerAddr.toString = false ↔
      ∃ bound, table stream.interface = some bound ∧
        startsWith stream.peerAddr.toString bound = true := by
  unfold filtered
  cases hbound : table stream.interface with
  | none => simp [hros, hbound]
  | some bound => simp [hros, hbound]

theorem receiversAfter_concat {stream : PeerStream Tx} (before : List (PeerStream Tx))
    (hchecked : stream.Checked) :
    receiversAfter table (before ++ [stream]) stream.topicGdpName =
      receiversAfter table before stream.topicGdpName ++
        if filtered (some table) stream.interface stream.peerAddr.toString = false then
          [stream.connection]
        else [] := by
  have hadmitted : admitted (some table) stream.event =
      if (.add : FibChangeAction) = .add ∧ IsReceiver stream.connectionType ∧
          filtered (some table) stream.interface stream.peerAddr.toString = false then
        some (stream.topicGdpName, stream.connection)
      else none := rfl
  rw [receiversAfter_eq, receiversAfter_eq, List.map_append, registered_append]
  congr 1
  unfold registered
  rw [List.map_singleton, List.filterMap_cons, hadmitted]
  by_cases hfiltered :
      filtered (some table) stream.interface stream.peerAddr.toString = false
  · rw [if_pos ⟨rfl, hchecked.1, hfiltered⟩, if_pos hfiltered]
    simp
  · rw [if_neg fun h => hfiltered h.2.2, if_neg hfiltered]
    rfl

/-! ## Admission by ip -/

theorem singleton_if_eq_iff {α : Type*} {p q : Prop} [Decidable p] [Decidable q] {x : α} :
    (if p then [x] else []) = (if q then [x] else []) ↔ (p ↔ q) := by
  by_cases hp : p <;> by_cases hq : q <;> simp [hp, hq]

/-- Every stream that the table has a say in is stored exactly if its interface is bound to
the ip of its peer. -/
def BindsByIp (table : String → Option String) (streams : List (PeerStream Tx)) : Prop :=
  ∀ before stream after, streams = before ++ stream :: after → stream.Checked →
    receiversAfter table (before ++ [stream]) stream.topicGdpName =
      receiversAfter table before stream.topicGdpName ++
        if table stream.interface = some stream.peerAddr.ip then [stream.connection] else []

/-- **Main result.**  The binding table admits by ip if and only if no interface is bound to a
text that confuses the address of a peer on it. -/
theorem bindsByIp_iff (table : String → Option String) (streams : List (PeerStream Tx)) :
    BindsByIp table streams ↔
      ∀ stream ∈ streams, stream.Checked → ∀ bound, table stream.interface = some bound →
        ¬ Confuses bound stream.peerAddr := by
  have hstream : ∀ before (stream : PeerStream Tx), stream.Checked →
      (receiversAfter table (before ++ [stream]) stream.topicGdpName =
        receiversAfter table before stream.topicGdpName ++
          (if table stream.interface = some stream.peerAddr.ip then [stream.connection] else []) ↔
      ∀ bound, table stream.interface = some bound → ¬ Confuses bound stream.peerAddr) := by
    intro before stream hchecked
    rw [receiversAfter_concat before hchecked, List.append_cancel_left_eq,
      singleton_if_eq_iff, filtered_checked hchecked.2]
    cases table stream.interface with
    | none => simp
    | some bound => simpa using startsWith_iff_ip bound stream.peerAddr
  constructor
  · intro h stream hmem hchecked
    obtain ⟨before, after, heq⟩ := List.append_of_mem hmem
    exact (hstream before stream hchecked).1 (h before stream after heq hchecked)
  · rintro h before stream after rfl hchecked
    exact (hstream before stream hchecked).2 (h stream (by simp) hchecked)

/-- A receiver on `eth0` whose peer is at `10.0.0.12`. -/
def neighbour : PeerStream Nat :=
  { topicGdpName := sampleName 1, connectionType := .receiver, localToNetTx := 7,
    description := "udp stream", interface := "eth0", peerAddr := .v4 "10.0.0.12" 7000 }

/-- It is stored although `eth0` is bound to `10.0.0.1`. -/
theorem neighbour_admitted :
    ¬ BindsByIp (fun _ => some "10.0.0.1") [neighbour] ∧
      receiversAfter (fun _ => some "10.0.0.1") [neighbour] (sampleName 1) =
        [neighbour.connection] := by
  have hstored : receiversAfter (fun _ => some "10.0.0.1") [neighbour] (sampleName 1) =
      [neighbour.connection] := by decide +kernel
  refine ⟨fun h => ?_, hstored⟩
  have hempty := h [] neighbour [] rfl ⟨.inl rfl, by decide⟩
  exact absurd hempty (by decide +kernel)

end FibHandler

end RtFogros
