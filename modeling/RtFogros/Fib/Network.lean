import RtFogros.Lib.Interleaving
import RtFogros.Fib.Abort
import RtFogros.Kcp.Relay

/-!
# Networks of handlers

Any number of handlers whose table entries lead to other handlers or to local ROS queues.  An
entry's channel is made for it by the sender of its update, so it is fresh; what is on a channel is
delivered in any order, duplicated or lost.

`oneWay_at_most_once`: for each guid a handler makes at most one round of Forward or Response
packets, and a queue gets at most one of them.  A handler sends such a packet only while the guid
is new to it, and its turns are those of its own run (`Lib.Interleaving`), so neither cycles nor
what happens to packets on the way matter.
-/

namespace RtFogros

open FibHandler

inductive Lead (Node : Type) where
  | handler (n : Node)
  | localQueue
deriving DecidableEq

structure Network (Node : Type) where
  log : Mealy.Log Node (Fib Nat) (FibEvent Nat) (FibOutput Nat)
  channels : List (Lead Node) := []
  inFlight : List (Nat × GDPPacket) := []

namespace Network

variable {Node : Type} [DecidableEq Node] (bindingTable : Node → BindingTable)

def initial : Network Node where
  log := ⟨fun _ => .initial, []⟩

/-- The handler of node `n` takes its next packet or update. -/
def turn (net : Network Node) (n : Node) (event : FibEvent Nat) : Network Node :=
  { net with
    log := net.log.turn (fun n => Fib.step (bindingTable n)) n event
    inFlight := net.inFlight ++
      (Fib.step (bindingTable n) (net.log.states n) event).2.sends.map
        fun sent => (sent.dst.tx, sent.pkt) }

inductive Step : Network Node → Network Node → Prop
  -- an update whose channel, if it has one, is new and leads somewhere
  | update (net : Network Node) (n : Node) (update : FibStateChange Nat) (lead : Lead Node)
      (hfresh : ∀ tx, update.forwardDestination = some tx → tx = net.channels.length) :
      Step net { net.turn bindingTable n (.update update) with channels := net.channels ++ [lead] }
  -- a packet from a local ROS handler
  | publish (net : Network Node) (n : Node) (reading : Reading) (pkt : GDPPacket) :
      Step net (net.turn bindingTable n (.packet reading pkt))
  -- a packet that reaches the handler its channel leads to
  | deliver (net : Network Node) (before after : List (Nat × GDPPacket)) (channel : Nat)
      (pkt : GDPPacket) (n : Node) (reading : Reading) (description : Option String)
      (hinFlight : net.inFlight = before ++ (channel, pkt) :: after)
      (hlead : net.channels[channel]? = some (.handler n)) :
      Step net ({ net with inFlight := before ++ after }.turn bindingTable n
        (.packet reading (Kcp.received description pkt)))
  | duplicate (net : Network Node) (message : Nat × GDPPacket) (hmem : message ∈ net.inFlight) :
      Step net { net with inFlight := message :: net.inFlight }
  -- a packet is lost, or taken from a local queue
  | remove (net : Network Node) (before after : List (Nat × GDPPacket)) (message : Nat × GDPPacket)
      (hinFlight : net.inFlight = before ++ message :: after) :
      Step net { net with inFlight := before ++ after }

inductive Reachable : Network Node → Prop
  | initial : Reachable initial
  | step {net net' : Network Node} : Reachable net → Step bindingTable net net' → Reachable net'

def sends (net : Network Node) : List (Node × Sent Nat) :=
  net.log.history.flatMap fun (n, turn) => turn.output.sends.map (n, ·)

/-- The table of node `n` as the history of its updates. -/
def entries (net : Network Node) (n : Node) (topic : GDPName) : List (FibConnection Nat) :=
  registered (bindingTable n) (net.log.inputs n) topic

/-- The packets that a handler forwards at most once. -/
def OneWay (action : GdpAction) : Prop := action = .forward ∨ action = .response

instance (action : GdpAction) : Decidable (OneWay action) := inferInstanceAs (Decidable (_ ∨ _))

/-- A turn that sends a Forward or Response packet with the guid. -/
def isRound (guid : Option GDPName) (turn : Turn Nat) : Bool :=
  match turn.input with
  | .packet _ pkt => OneWay pkt.action && pkt.guid = guid && !turn.output.sends.isEmpty
  | .update _ => false

/-! ## One handler -/

section Handler

variable {table : BindingTable} {events : List (FibEvent Nat)}

theorem exists_of_isRound {guid : Option GDPName} {turn : Turn Nat}
    (hturn : turn ∈ Mealy.trace (Fib.step table) .initial events) (hround : isRound guid turn) :
    ∃ h reading pkt, turn.before = .running h ∧ turn.input = .packet reading pkt ∧
      OneWay pkt.action ∧ pkt.guid = guid ∧ (h.packetArm reading pkt).2.sends ≠ [] := by
  unfold isRound at hround
  split at hround
  · rename_i reading pkt hinput
    simp only [Bool.and_eq_true, decide_eq_true_eq, Bool.not_eq_true', List.isEmpty_eq_false_iff]
      at hround
    obtain ⟨⟨haction, hguid⟩, hsends⟩ := hround
    obtain ⟨sent, hsent⟩ := List.exists_mem_of_ne_nil _ hsends
    obtain ⟨h, reading', pkt', hbefore, hinput', hsent'⟩ := Turn.exists_packet hturn hsent
    rw [hinput] at hinput'
    cases hinput'
    exact ⟨h, reading, pkt, hbefore, hinput, haction, hguid, List.ne_nil_of_mem hsent'⟩
  · cases hround

theorem rounds_pairwise (table : BindingTable) (events : List (FibEvent Nat)) :
    (Mealy.trace (Fib.step table) .initial events).Pairwise fun v w =>
      ∀ guid, ¬ (isRound guid v ∧ isRound guid w) := by
  apply (trace_extends events).imp_of_mem
  rintro v w hv hw hextends guid ⟨hround, hagain⟩
  obtain ⟨h, reading, pkt, hbefore, hinput, haction, hguid, hsends⟩ := exists_of_isRound hv hround
  obtain ⟨h', reading', pkt', hbefore', hinput', -, hguid', hsends'⟩ := exists_of_isRound hw hagain
  obtain ⟨next, hnext, -, hprocessed⟩ := hextends h' hbefore'
  rw [hbefore, hinput] at hnext
  have hmem := (packetArm_round haction hsends).2 next hnext
  rw [hguid, ← hguid'] at hmem
  exact hsends' (packetArm_dup (hprocessed hmem))

theorem isRound_of_mem_keys {turn : Turn Nat} {key : SendKey}
    (hturn : turn ∈ Mealy.trace (Fib.step table) .initial events)
    (hkey : key ∈ turn.keys (OneWay ·)) : isRound key.1 turn := by
  obtain ⟨h, reading, pkt, sent, hbefore, hinput, haction, hsent, rfl⟩ :=
    (Turn.mem_keys hturn).1 hkey
  have houtput := Mealy.output_of_mem_trace hturn
  rw [hbefore, hinput] at houtput
  have hsends : turn.output.sends ≠ [] := by
    rw [houtput]
    exact List.ne_nil_of_mem hsent
  unfold isRound
  rw [hinput, sendKey, packetArm_pkt hsent]
  simpa [hsends] using haction

/-- A handler sends a Forward or Response packet at most once on an entry. -/
theorem oneWay_keys_nodup (table : BindingTable) (events : List (FibEvent Nat)) :
    ((Mealy.trace (Fib.step table) .initial events).flatMap (Turn.keys (OneWay ·))).Nodup := by
  refine List.nodup_flatMap.2 ⟨fun turn hturn => Turn.keys_nodup hturn _, ?_⟩
  apply (rounds_pairwise table events).imp_of_mem
  intro v w hv hw hno key hkey hkey'
  exact hno key.1 ⟨isRound_of_mem_keys hv hkey, isRound_of_mem_keys hw hkey'⟩

end Handler

/-! ## Channels -/

variable {bindingTable}

/-- What holds of every reachable network: each node has run its own events, and a
channel belongs to one entry. -/
structure Sound (bindingTable : Node → BindingTable) (net : Network Node) : Prop where
  isLocal : net.log.Local (fun n => Fib.step (bindingTable n)) (fun _ => Fib.initial)
  fresh : ∀ {n topic} {slot : Nat} {dst : FibConnection Nat},
    (net.entries bindingTable n topic)[slot]? = some dst →
    dst.tx < net.channels.length
  unique : ∀ {n n' topic topic'} {slot slot' : Nat} {dst dst' : FibConnection Nat},
    (net.entries bindingTable n topic)[slot]? = some dst →
    (net.entries bindingTable n' topic')[slot']? = some dst' → dst.tx = dst'.tx →
    n = n' ∧ topic = topic' ∧ slot = slot'

theorem entries_turn_packet (net : Network Node) (n : Node) (reading : Reading) (pkt : GDPPacket)
    (m : Node) (topic : GDPName) :
    (net.turn bindingTable n (.packet reading pkt)).entries bindingTable m topic =
      net.entries bindingTable m topic := by
  unfold entries turn
  by_cases hm : n = m
  · subst hm
    rw [Mealy.Log.inputs_turn_self, registered_append]
    exact List.append_nil _
  · rw [Mealy.Log.inputs_turn_of_ne _ hm]

/-- The entries of a node after an update: those before, and possibly a last one with
the update's channel. -/
theorem entries_turn_update (net : Network Node) (n : Node) (update : FibStateChange Nat)
    {m : Node} {topic : GDPName} {slot : Nat} {dst : FibConnection Nat}
    (hdst : ((net.turn bindingTable n (.update update)).entries bindingTable m topic)[slot]? =
      some dst) :
    (net.entries bindingTable m topic)[slot]? = some dst ∨
      (m = n ∧ topic = update.topicGdpName ∧ slot = (net.entries bindingTable m topic).length ∧
        update.forwardDestination = some dst.tx) := by
  unfold entries turn at hdst
  by_cases hm : n = m
  · subst hm
    rw [Mealy.Log.inputs_turn_self, registered_append, ← entries] at hdst
    rcases registered_singleton (bindingTable n) (.update update) topic with
      hnone | ⟨update', dst', hevent, htx, -, htopic, hone⟩
    · rw [hnone, List.append_nil] at hdst
      exact .inl hdst
    · cases hevent
      rw [hone] at hdst
      rcases Nat.lt_or_ge slot (net.entries bindingTable n topic).length with hlt | hge
      · rw [List.getElem?_append_left hlt] at hdst
        exact .inl hdst
      · rw [List.getElem?_append_right hge] at hdst
        obtain ⟨hslot, hdst⟩ := List.getElem?_eq_some_iff.1 hdst
        rw [List.length_singleton] at hslot
        rw [List.getElem_singleton] at hdst
        exact .inr ⟨rfl, htopic.symm, by omega, hdst ▸ htx⟩
  · rw [Mealy.Log.inputs_turn_of_ne _ hm] at hdst
    exact .inl hdst

theorem Sound.turn_packet {net : Network Node} (h : Sound bindingTable net) (n : Node)
    (reading : Reading) (pkt : GDPPacket) :
    Sound bindingTable (net.turn bindingTable n (.packet reading pkt)) := by
  refine ⟨h.isLocal.turn n _, ?_, ?_⟩
  · intro m topic slot dst hdst
    rw [entries_turn_packet] at hdst
    exact h.fresh hdst
  · intro m m' topic topic' slot slot' dst dst' hdst hdst'
    rw [entries_turn_packet] at hdst hdst'
    exact h.unique hdst hdst'

theorem Sound.turn_update {net : Network Node} (h : Sound bindingTable net) (n : Node)
    (update : FibStateChange Nat) (lead : Lead Node)
    (hfresh : ∀ tx, update.forwardDestination = some tx → tx = net.channels.length) :
    Sound bindingTable
      { net.turn bindingTable n (.update update) with channels := net.channels ++ [lead] } := by
  refine ⟨h.isLocal.turn n _, ?_, ?_⟩
  · intro m topic slot dst hdst
    rw [List.length_append, List.length_singleton]
    rcases entries_turn_update net n update hdst with hold | ⟨-, -, -, htx⟩
    · apply Nat.lt_succ_of_lt
      exact h.fresh hold
    · exact (hfresh _ htx).le.trans_lt (Nat.lt_succ_self _)
  · intro m m' topic topic' slot slot' dst dst' hdst hdst' htx
    rcases entries_turn_update net n update hdst with hold | ⟨rfl, rfl, rfl, hnew⟩ <;>
      rcases entries_turn_update net _ update hdst' with hold' | ⟨rfl, rfl, rfl, hnew'⟩
    · exact h.unique hold hold' htx
    · exact absurd (h.fresh hold) (by rw [htx, hfresh _ hnew']; exact Nat.lt_irrefl _)
    · exact absurd (h.fresh hold') (by rw [← htx, hfresh _ hnew]; exact Nat.lt_irrefl _)
    · exact ⟨rfl, rfl, rfl⟩

theorem Sound.of_inFlight {net : Network Node} (h : Sound bindingTable net)
    (inFlight : List (Nat × GDPPacket)) : Sound bindingTable { net with inFlight } :=
  ⟨h.isLocal, h.fresh, h.unique⟩

theorem Sound.start : Sound bindingTable (initial : Network Node) := by
  refine ⟨Mealy.Log.Local.start, ?_, ?_⟩
  · intro n topic slot dst hdst
    cases hdst
  · intro n n' topic topic' slot slot' dst dst' hdst
    cases hdst

theorem Sound.step {net net' : Network Node} (h : Sound bindingTable net)
    (hstep : Step bindingTable net net') : Sound bindingTable net' := by
  cases hstep with
  | update n update lead hfresh => exact h.turn_update n update lead hfresh
  | publish n reading pkt => exact h.turn_packet n reading pkt
  | deliver before after channel pkt n reading description =>
    exact (h.of_inFlight _).turn_packet n reading _
  | duplicate => exact h.of_inFlight _
  | remove => exact h.of_inFlight _

theorem Sound.reachable {net : Network Node} (h : Reachable bindingTable net) :
    Sound bindingTable net := by
  induction h with
  | initial => exact .start
  | step _ hstep ih => exact ih.step hstep

/-! ## Any number of handlers -/

section Bounds

variable {net : Network Node} (h : Sound bindingTable net)

include h

theorem rounds_le_one (n : Node) (guid : Option GDPName) :
    (net.log.visits n).countP (isRound guid) ≤ 1 := by
  rw [h.isLocal.visits]
  exact Mealy.countP_le_one ((rounds_pairwise _ _).imp fun hno => hno guid)

theorem oneWay_sends_le_one (n : Node) (key : SendKey) :
    net.sends.countP (fun x => x.1 = n && (OneWay x.2.pkt.action && sendKey x.2 = key)) ≤ 1 := by
  have hnodup := oneWay_keys_nodup (bindingTable n) (net.log.inputs n)
  rw [← h.isLocal.visits n] at hnodup
  have hcount := List.nodup_iff_count_le_one.1 hnodup key
  have hkeys : (net.log.visits n).flatMap (Turn.keys (OneWay ·)) =
      (((net.log.visits n).flatMap (·.output.sends)).filter (OneWay ·.pkt.action)).map sendKey := by
    rw [List.filter_flatMap, List.map_flatMap]
    rfl
  rw [hkeys, List.count, List.countP_map, List.countP_filter] at hcount
  have hvisits := Mealy.Log.countP_visits (fun turn : Turn Nat => turn.output.sends) net.log n
    fun sent => OneWay sent.pkt.action && sendKey sent = key
  refine le_trans (le_of_eq (hvisits.trans ?_)) hcount
  congr 1
  funext sent
  rw [Bool.eq_iff_iff]
  simp [and_comm]

/-- A packet is sent on the channel of the entry that stands at its index. -/
theorem entry_of_mem_sends {n : Node} {sent : Sent Nat} (hsent : (n, sent) ∈ net.sends) :
    (net.entries bindingTable n sent.pkt.gdpname)[sent.slot]? = some sent.dst ∧
      ∃ d, Served d sent.pkt.action (sent.dst, sent.slot) := by
  obtain ⟨⟨m, turn⟩, hturn, hmem⟩ := List.mem_flatMap.1 hsent
  obtain ⟨sent', hsent', heq⟩ := List.mem_map.1 hmem
  cases heq
  have htrace := h.isLocal.mem_trace hturn
  refine ⟨Turn.sent_registered htrace hsent', ?_⟩
  obtain ⟨state, reading, pkt, -, -, hmem⟩ := Turn.exists_packet htrace hsent'
  obtain ⟨entry, -, hserved, rfl⟩ := mem_serve.1 ((packetArm_sublist state reading pkt).subset hmem)
  exact ⟨_, hserved⟩

end Bounds

def queued (net : Network Node) (channel : Nat) : List GDPPacket :=
  (net.sends.filter (·.2.dst.tx = channel)).map (·.2.pkt)

/-- A subscriber's or a caller's own queue: the channel of an entry for Forward or for
Response packets. -/
def IsOneWayQueue (bindingTable : Node → BindingTable) (net : Network Node) (channel : Nat) :
    Prop :=
  ∃ n topic, ∃ dst ∈ net.entries bindingTable n topic, dst.tx = channel ∧
    (dst.connectionType = .receiver ∨ dst.connectionType = .responseReceiver)

theorem oneWay_of_served {d : String} {action : GdpAction} {entry : FibConnection Nat × Nat}
    (hserved : Served d action entry)
    (htype : entry.1.connectionType = .receiver ∨ entry.1.connectionType = .responseReceiver) :
    OneWay action := by
  cases action with
  | forward => exact .inl rfl
  | response => exact .inr rfl
  | request =>
    rw [hserved.1.2] at htype
    rcases htype with htype | htype <;> cases htype
  | _ => exact hserved.elim

theorem queued_le_one {net : Network Node} (h : Sound bindingTable net) {channel : Nat}
    (hchannel : IsOneWayQueue bindingTable net channel) (guid : Option GDPName) :
    (net.queued channel).countP (·.guid = guid) ≤ 1 := by
  obtain ⟨n, topic, dst, hdst, rfl, htype⟩ := hchannel
  obtain ⟨slot, hslot⟩ := List.mem_iff_getElem?.1 hdst
  refine le_trans ?_ (oneWay_sends_le_one h n (guid, topic, slot))
  unfold queued
  rw [List.countP_map, List.countP_filter]
  apply List.countP_mono_left
  rintro ⟨m, sent⟩ hsent hcond
  simp only [Function.comp_apply, Bool.and_eq_true, decide_eq_true_eq] at hcond
  obtain ⟨hguid, htx⟩ := hcond
  obtain ⟨hentry, d, hserved⟩ := entry_of_mem_sends h hsent
  obtain ⟨rfl, hname, hindex⟩ := h.unique hentry hslot htx
  have hsame : sent.dst = dst := by
    rw [hname, hindex, hslot] at hentry
    exact (Option.some.inj hentry).symm
  have haction := oneWay_of_served hserved (by rw [hsame]; exact htype)
  simp [sendKey, hguid, hname, hindex, haction]

/-- **Main result.**  In every reachable network and for each guid, a handler makes at
most one round of Forward or Response packets, an entry is sent at most one of them,
and a local queue for them gets the guid at most once. -/
theorem oneWay_at_most_once (bindingTable : Node → BindingTable) {net : Network Node}
    (hreach : Reachable bindingTable net) (guid : Option GDPName) :
    (∀ n, (net.log.visits n).countP (isRound guid) ≤ 1) ∧
    (∀ n topic slot, net.sends.countP (fun x => x.1 = n &&
      (OneWay x.2.pkt.action && sendKey x.2 = (guid, topic, slot))) ≤ 1) ∧
    ∀ channel, IsOneWayQueue bindingTable net channel →
      (net.queued channel).countP (·.guid = guid) ≤ 1 := by
  have h := Sound.reachable hreach
  exact ⟨fun n => rounds_le_one h n guid,
    fun n topic slot => oneWay_sends_le_one h n (guid, topic, slot),
    fun channel hchannel => queued_le_one h hchannel guid⟩

def sampleLink (tx : Nat) : FibStateChange Nat :=
  { action := .add, connectionType := .receiver, topicGdpName := sampleName 1,
    forwardDestination := some tx, interface := some "eth0", address := some "10.0.0.2:7000",
    description := none }

/-- Two handlers that forward to each other: a message goes round once. -/
theorem sampleCycle_at_most_once :
    ∃ net : Network (Fin 2), Reachable (fun _ => none) net ∧
      net.sends.map (fun x => (x.1, x.2.dst.tx)) = [(0, 0), (1, 1)] ∧
      (∀ n, (net.log.visits n).countP (isRound sampleForward.guid) ≤ 1) ∧
      (∀ n topic slot, net.sends.countP (fun x => x.1 = n &&
        (OneWay x.2.pkt.action && sendKey x.2 = (sampleForward.guid, topic, slot))) ≤ 1) ∧
      ∀ channel, IsOneWayQueue (fun _ => none) net channel →
        (net.queued channel).countP (·.guid = sampleForward.guid) ≤ 1 := by
  have hstart : Reachable (fun _ : Fin 2 => none) initial := .initial
  have hto := hstart.step
    (.update _ 0 (sampleLink 0) (.handler 1) fun _ h => (Option.some.inj h).symm)
  have hfro := hto.step
    (.update _ 1 (sampleLink 1) (.handler 0) fun _ h => (Option.some.inj h).symm)
  have hsent := hfro.step (.publish _ 0 ⟨0, some "eth0"⟩ sampleForward)
  have hthere := hsent.step (.deliver _ [] [] 0 sampleForward 1 ⟨1, some "eth0"⟩ none rfl rfl)
  have hback := hthere.step (.deliver _ [] [] 1 sampleForward 0 ⟨2, some "eth0"⟩ none rfl rfl)
  exact ⟨_, hback, by decide, oneWay_at_most_once (fun _ => none) hback sampleForward.guid⟩

end Network

end RtFogros
