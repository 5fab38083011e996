import RtFogros.Fib.Arms

/-!
# The table is the history of its updates

The abstract table of a topic is the list of its admitted ADD updates.  The handler's table is that
list after every run, so a packet is sent exactly to the registrations it is meant for
(`sends_eq_registered`).

The list is a function of the inputs alone (`registered`), so a statement with it says nothing of
the handler's state, and a network of handlers can speak of the entries of a machine by what it was
told.  `Registered` relates the two and is kept by an update that is admitted, one that is refused,
and every packet.
-/

namespace RtFogros

namespace FibHandler

variable {Tx : Type}

/-! ## Registrations -/

def IsReceiver (type : FibConnectionType) : Prop :=
  type = .receiver ∨ type = .requestReceiver ∨ type = .responseReceiver

instance (type : FibConnectionType) : Decidable (IsReceiver type) :=
  inferInstanceAs (Decidable (_ ∨ _))

/-- The topic and the connection an update registers: an ADD of a receiver type that
the binding table lets pass. -/
def admitted (bindingTable : BindingTable) : FibEvent Tx → Option (GDPName × FibConnection Tx)
  | .packet _ _ => none
  | .update update =>
    match update.interface, update.address, update.forwardDestination with
    | some interface, some address, some tx =>
      if update.action = .add ∧ IsReceiver update.connectionType ∧
          filtered bindingTable interface address = false then
        some (update.topicGdpName,
          { state := .running, connectionType := update.connectionType, tx,
            description := update.description, interface := update.interface,
            address := update.address })
      else none
    | _, _, _ => none

/-- The connections registered for a topic, in the order of their updates. -/
def registered (bindingTable : BindingTable) (events : List (FibEvent Tx)) (topic : GDPName) :
    List (FibConnection Tx) :=
  events.filterMap fun event =>
    (admitted bindingTable event).bind fun (name, dst) => if name = topic then some dst else none

/-- The registrations a packet is meant for, `defaultInterface` being the default
network interface. -/
def Meant (defaultInterface : String) (action : GdpAction) (dst : FibConnection Tx) : Prop :=
  match action with
  | .forward => dst.connectionType = .receiver
  | .request => dst.connectionType = .requestReceiver ∧
      (dst.interface = some "ros" ∨ dst.interface = some defaultInterface)
  | .response => dst.connectionType = .responseReceiver
  | _ => False

instance (defaultInterface : String) (action : GdpAction) (dst : FibConnection Tx) :
    Decidable (Meant defaultInterface action dst) := by
  cases action <;> unfold Meant <;> infer_instance

variable {bindingTable : BindingTable}

theorem registered_append (before after : List (FibEvent Tx)) (topic : GDPName) :
    registered bindingTable (before ++ after) topic =
      registered bindingTable before topic ++ registered bindingTable after topic :=
  List.filterMap_append

theorem registered_cons (event : FibEvent Tx) (events : List (FibEvent Tx)) (topic : GDPName) :
    registered bindingTable (event :: events) topic =
      registered bindingTable [event] topic ++ registered bindingTable events topic :=
  registered_append [event] events topic

structure Registered (dst : FibConnection Tx) : Prop where
  state : dst.state = .running
  type : IsReceiver dst.connectionType
  interface : dst.interface.isSome

theorem registered_of_admitted {event : FibEvent Tx} {topic : GDPName} {dst : FibConnection Tx}
    (h : admitted bindingTable event = some (topic, dst)) : Registered dst := by
  cases event with
  | packet => cases h
  | update update =>
    rw [admitted] at h
    split at h
    · rename_i hinterface _ _
      split at h
      · rename_i hadmit
        cases h
        exact ⟨rfl, hadmit.2.1, Option.isSome_of_eq_some hinterface⟩
      · cases h
    · cases h

theorem registered_of_mem {events : List (FibEvent Tx)} {topic : GDPName} {dst : FibConnection Tx}
    (h : dst ∈ registered bindingTable events topic) : Registered dst := by
  obtain ⟨event, _, hevent⟩ := List.mem_filterMap.1 h
  obtain ⟨⟨name, dst'⟩, hadmitted, hname⟩ := Option.bind_eq_some_iff.1 hevent
  dsimp only at hname
  split at hname
  · cases hname
    exact registered_of_admitted hadmitted
  · cases hname

theorem update_of_admitted {event : FibEvent Tx} {topic : GDPName} {dst : FibConnection Tx}
    (h : admitted bindingTable event = some (topic, dst)) :
    ∃ update, event = .update update ∧ update.forwardDestination = some dst.tx ∧
      update.connectionType = dst.connectionType ∧ update.topicGdpName = topic := by
  cases event with
  | packet => cases h
  | update update =>
    rw [admitted] at h
    split at h
    · rename_i htx
      split at h
      · cases h
        exact ⟨update, rfl, htx, rfl, rfl⟩
      · cases h
    · cases h

variable (bindingTable) in
/-- One event registers at most one connection, with the channel of its update. -/
theorem registered_singleton (event : FibEvent Tx) (topic : GDPName) :
    registered bindingTable [event] topic = [] ∨
      ∃ update dst, event = .update update ∧ update.forwardDestination = some dst.tx ∧
        update.connectionType = dst.connectionType ∧ update.topicGdpName = topic ∧
        registered bindingTable [event] topic = [dst] := by
  rcases hadmitted : admitted bindingTable event with _ | ⟨name, dst⟩
  · left
    simp [registered, hadmitted]
  · obtain ⟨update, hevent, htx, htype, hname⟩ := update_of_admitted hadmitted
    by_cases htopic : name = topic
    · right
      exact ⟨update, dst, hevent, htx, htype, hname.trans htopic,
        by simp [registered, hadmitted, htopic]⟩
    · left
      simp [registered, hadmitted, htopic]

/-! ## The update arm -/

theorem receiversOf_push (h : FibHandler Tx) (topic name : GDPName) (dst : FibConnection Tx) :
    (h.push topic dst).receiversOf name =
      h.receiversOf name ++ if topic = name then [dst] else [] := by
  unfold push receiversOf
  by_cases hname : topic = name
  · subst hname
    rw [if_pos rfl]
    cases h.ribStateTable topic <;> simp
  · rw [if_neg hname, List.append_nil]
    dsimp only
    rw [Function.update_of_ne (Ne.symm hname)]

/-- An update changes the table by its own registration, and nothing else. -/
theorem updateArm_running {h h' : FibHandler Tx} {update : FibStateChange Tx}
    (hrun : h.updateArm bindingTable update = .running h') :
    (∀ topic, h'.receiversOf topic =
        h.receiversOf topic ++ registered bindingTable [.update update] topic) ∧
      h'.processedRequests = h.processedRequests ∧
      h'.requestLatencyTable = h.requestLatencyTable := by
  have hsame : admitted bindingTable (.update update) = none → h' = h →
      (∀ topic, h'.receiversOf topic =
        h.receiversOf topic ++ registered bindingTable [.update update] topic) ∧
      h'.processedRequests = h.processedRequests ∧
      h'.requestLatencyTable = h.requestLatencyTable := by
    rintro hnone rfl
    refine ⟨fun topic => ?_, rfl, rfl⟩
    simp [registered, hnone]
  unfold updateArm at hrun
  split at hrun
  · rename_i hadd
    split at hrun
    · rename_i htype
      split at hrun
      · cases hrun
      · cases hrun
      · rename_i interface address hinterface haddress
        split at hrun
        · rename_i hfiltered
          cases hrun
          refine hsame ?_ rfl
          rw [admitted, hinterface, haddress]
          cases update.forwardDestination <;> simp [hfiltered]
        · rename_i hpass
          split at hrun
          · cases hrun
          · rename_i tx htx
            cases hrun
            refine ⟨fun topic => ?_, rfl, rfl⟩
            have hadmit : update.action = .add ∧ IsReceiver update.connectionType ∧
                filtered bindingTable interface address = false :=
              ⟨hadd, htype, by simpa using hpass⟩
            rw [receiversOf_push, registered, List.filterMap_cons, admitted, hinterface, haddress,
              htx]
            dsimp only
            rw [if_pos hadmit]
            dsimp only [Option.bind]
            split <;> rfl
    · rename_i htype
      cases hrun
      refine hsame ?_ rfl
      rw [admitted]
      split
      · exact if_neg fun h => htype h.2.1
      · rfl
  · rename_i hadd
    cases hrun
    refine hsame ?_ rfl
    rw [admitted]
    split
    · exact if_neg fun h => hadd h.1
    · rfl

/-! ## Runs -/

/-- One turn appends the registration of its event to the table and forgets no
processed guid. -/
theorem step_running {h h' : FibHandler Tx} {event : FibEvent Tx}
    (hrun : (Fib.step bindingTable (.running h) event).1 = .running h') :
    (∀ topic, h'.receiversOf topic =
        h.receiversOf topic ++ registered bindingTable [event] topic) ∧
      h.processedRequests ⊆ h'.processedRequests := by
  cases event with
  | packet reading pkt =>
    obtain ⟨htable, hprocessed, -⟩ := packetArm_running hrun
    refine ⟨fun topic => ?_, hprocessed⟩
    unfold receiversOf
    rw [htable]
    exact (List.append_nil _).symm
  | update update =>
    obtain ⟨htable, hprocessed, -⟩ := updateArm_running hrun
    exact ⟨htable, hprocessed.symm.subset⟩

theorem final_aborted (events : List (FibEvent Tx)) :
    Mealy.final (Fib.step bindingTable) .aborted events = .aborted := by
  induction events with
  | nil => rfl
  | cons event events ih => exact ih

theorem final_running {h h' : FibHandler Tx} {events : List (FibEvent Tx)}
    (hrun : Mealy.final (Fib.step bindingTable) (.running h) events = .running h') :
    (∀ topic, h'.receiversOf topic =
        h.receiversOf topic ++ registered bindingTable events topic) ∧
      h.processedRequests ⊆ h'.processedRequests := by
  induction events generalizing h with
  | nil =>
    cases hrun
    exact ⟨fun topic => (List.append_nil _).symm, subset_rfl⟩
  | cons event events ih =>
    rw [Mealy.final_cons] at hrun
    rcases hnext : (Fib.step bindingTable (.running h) event).1 with next | _
    · rw [hnext] at hrun
      obtain ⟨htable, hprocessed⟩ := step_running hnext
      obtain ⟨htables, hprocesseds⟩ := ih hrun
      refine ⟨fun topic => ?_, hprocessed.trans hprocesseds⟩
      rw [htables, htable, registered_cons event events, List.append_assoc]
    · rw [hnext, final_aborted] at hrun
      cases hrun

theorem receiversOf_final {h : FibHandler Tx} {events : List (FibEvent Tx)}
    (hrun : Mealy.final (Fib.step bindingTable) .initial events = .running h) (topic : GDPName) :
    h.receiversOf topic = registered bindingTable events topic :=
  (final_running hrun).1 topic

def TableRegistered (s : Fib Tx) : Prop :=
  ∀ h, s = .running h → ∀ topic, ∀ dst ∈ h.receiversOf topic, Registered dst

theorem tableRegistered_initial : TableRegistered (Fib.initial : Fib Tx) := by
  intro h hrun topic dst hdst
  cases hrun
  cases hdst

theorem tableRegistered_step (s : Fib Tx) (event : FibEvent Tx) (hs : TableRegistered s) :
    TableRegistered (Fib.step bindingTable s event).1 := by
  intro h' hrun topic dst hdst
  cases s with
  | aborted => cases hrun
  | running h =>
    rw [(step_running hrun).1, List.mem_append] at hdst
    rcases hdst with hdst | hdst
    · exact hs h rfl topic dst hdst
    · exact registered_of_mem hdst

/-- The table of `t` continues that of `s`, and `t` remembers what `s` has processed. -/
def Extends (s t : Fib Tx) : Prop :=
  ∀ h', t = .running h' → ∃ h, s = .running h ∧
    (∀ topic, h.receiversOf topic <+: h'.receiversOf topic) ∧
    h.processedRequests ⊆ h'.processedRequests

theorem extends_refl (s : Fib Tx) : Extends s s := fun h hs =>
  ⟨h, hs, fun _ => List.prefix_refl _, subset_rfl⟩

theorem extends_trans {s t u : Fib Tx} (hst : Extends s t) (htu : Extends t u) : Extends s u := by
  intro h' hu
  obtain ⟨h₁, ht, htable₁, hprocessed₁⟩ := htu h' hu
  obtain ⟨h, hs, htable, hprocessed⟩ := hst h₁ ht
  exact ⟨h, hs, fun topic => (htable topic).trans (htable₁ topic), hprocessed.trans hprocessed₁⟩

theorem extends_step (s : Fib Tx) (event : FibEvent Tx) :
    Extends s (Fib.step bindingTable s event).1 := by
  intro h' hrun
  cases s with
  | aborted => cases hrun
  | running h =>
    obtain ⟨htable, hprocessed⟩ := step_running hrun
    exact ⟨h, rfl, fun topic => ⟨_, (htable topic).symm⟩, hprocessed⟩

/-- Between two turns of a run the table only grows. -/
theorem trace_extends (events : List (FibEvent Tx)) :
    (Mealy.trace (Fib.step bindingTable) .initial events).Pairwise fun v w =>
      Extends (Fib.step bindingTable v.before v.input).1 w.before :=
  Mealy.trace_pairwise extends_refl extends_trans extends_step _ _

/-! ## The sends of a turn -/

abbrev Turn (Tx : Type) := Mealy.Visit (Fib Tx) (FibEvent Tx) (FibOutput Tx)

/-- A guid and the table entry, topic and index, it is sent on. -/
abbrev SendKey := Option GDPName × GDPName × Nat

def sendKey (sent : Sent Tx) : SendKey := (sent.pkt.guid, sent.pkt.gdpname, sent.slot)

/-- The keys of the packets of some actions that a turn sends. -/
def Turn.keys (p : GdpAction → Bool) (turn : Turn Tx) : List SendKey :=
  (turn.output.sends.filter (p ·.pkt.action)).map sendKey

section Turn

variable {events : List (FibEvent Tx)} {turn : Turn Tx}
  (hturn : turn ∈ Mealy.trace (Fib.step bindingTable) .initial events)

include hturn

/-- Only a running handler that meets a packet sends. -/
theorem Turn.exists_packet {sent : Sent Tx} (hsent : sent ∈ turn.output.sends) :
    ∃ h reading pkt, turn.before = .running h ∧ turn.input = .packet reading pkt ∧
      sent ∈ (h.packetArm reading pkt).2.sends := by
  rw [Mealy.output_of_mem_trace hturn] at hsent
  rcases hbefore : turn.before with h | _
  · rcases hinput : turn.input with ⟨reading, pkt⟩ | update
    · rw [hbefore, hinput] at hsent
      exact ⟨h, reading, pkt, rfl, rfl, hsent⟩
    · rw [hbefore, hinput] at hsent
      cases hsent
  · rw [hbefore] at hsent
    cases hsent

theorem Turn.mem_keys {p : GdpAction → Bool} {key : SendKey} :
    key ∈ turn.keys p ↔ ∃ h reading pkt sent, turn.before = .running h ∧
      turn.input = .packet reading pkt ∧ p pkt.action ∧
      sent ∈ (h.packetArm reading pkt).2.sends ∧ sendKey sent = key := by
  constructor
  · intro hkey
    obtain ⟨sent, hmem, rfl⟩ := List.mem_map.1 hkey
    obtain ⟨hmem, haction⟩ := List.mem_filter.1 hmem
    obtain ⟨h, reading, pkt, hbefore, hinput, hsent⟩ := Turn.exists_packet hturn hmem
    rw [packetArm_pkt hsent] at haction
    exact ⟨h, reading, pkt, sent, hbefore, hinput, haction, hsent, rfl⟩
  · rintro ⟨h, reading, pkt, sent, hbefore, hinput, haction, hsent, rfl⟩
    refine List.mem_map_of_mem (List.mem_filter.2 ⟨?_, ?_⟩)
    · rw [Mealy.output_of_mem_trace hturn, hbefore, hinput]
      exact hsent
    · rwa [packetArm_pkt hsent]

theorem Turn.keys_nodup (p : GdpAction → Bool) : (turn.keys p).Nodup := by
  have hslots : ((turn.output.sends.map sendKey).map fun key => key.2.2).Nodup := by
    rw [List.map_map, Mealy.output_of_mem_trace hturn]
    rcases turn.before with h | _
    · rcases turn.input with ⟨reading, pkt⟩ | update
      · exact packetArm_slots h reading pkt
      · exact .nil
    · exact .nil
  exact .sublist (List.filter_sublist.map _) hslots.of_map

/-- A packet is sent to the registration that stands at its index. -/
theorem Turn.sent_registered {sent : Sent Tx} (hsent : sent ∈ turn.output.sends) :
    (registered bindingTable events sent.pkt.gdpname)[sent.slot]? = some sent.dst := by
  obtain ⟨h, reading, pkt, hbefore, -, hsent⟩ := Turn.exists_packet hturn hsent
  obtain ⟨pre, post, hevents, hfinal⟩ := Mealy.exists_split_of_mem_trace hturn
  obtain ⟨entry, hentry, -, rfl⟩ := mem_serve.1 ((packetArm_sublist h reading pkt).subset hsent)
  rw [receiversOf_final (hfinal.symm.trans hbefore), List.mem_zipIdx_iff_getElem?] at hentry
  rw [hevents, registered_append]
  exact List.getElem?_append_left (List.getElem?_eq_some_iff.1 hentry).1 ▸ hentry

end Turn

theorem served_iff_meant {d : String} {action : GdpAction} {entry : FibConnection Tx × Nat}
    (h : Registered entry.1) : Served d action entry ↔ Meant d action entry.1 := by
  cases action <;> simp [Served, Meant, Listens, h.state]

/-- **Main result.**  After every run the table holds the registrations of the run, in
their order, and a packet with a new guid is sent once, in that order, to each of
them that it is meant for. -/
theorem sends_eq_registered (events : List (FibEvent Tx)) {h : FibHandler Tx}
    (hrun : Mealy.final (Fib.step bindingTable) .initial events = .running h) :
    (∀ topic, h.receiversOf topic = registered bindingTable events topic) ∧
      ∀ (reading : Reading) (pkt : GDPPacket) (d : String) (h' : FibHandler Tx),
        reading.defaultInterface = some d → pkt.guid ∉ h.processedRequests →
        (Fib.step bindingTable (.running h) (.packet reading pkt)).1 = .running h' →
        (Fib.step bindingTable (.running h) (.packet reading pkt)).2.sends =
          ((registered bindingTable events pkt.gdpname).zipIdx.filter
            fun entry => Meant d pkt.action entry.1).map
              fun entry => { slot := entry.2, dst := entry.1, pkt } := by
  refine ⟨receiversOf_final hrun, fun reading pkt d h' hd hfresh hnext => ?_⟩
  have hsends : (h.packetArm reading pkt).2.sends = h.serve d pkt :=
    packetArm_complete hfresh hd hnext
  unfold Fib.step
  rw [hsends, serve, receiversOf_final hrun]
  congr 1
  apply List.filter_congr
  intro entry hentry
  have hregistered := registered_of_mem (List.fst_mem_of_mem_zipIdx hentry)
  apply decide_eq_decide.2
  exact served_iff_meant hregistered

def sampleName (byte : UInt8) : GDPName := ⟨#v[byte, byte, byte, byte]⟩

def sampleSubscriber : FibStateChange Nat :=
  rosTopicRemoteSubscriberUpdate (sampleName 1) "/chatter" 7

def sampleForward : GDPPacket :=
  constructGdpForwardFromBytesWithGuid (sampleName 1) (sampleName 2) [42] (sampleName 3)

theorem sampleForward_sent :
    ∃ h, Mealy.final (Fib.step none) .initial [.update sampleSubscriber] = .running h ∧
      (Fib.step none (.running h) (.packet ⟨0, some "eth0"⟩ sampleForward)).2.sends =
        [{ slot := 0
           dst := { state := .running, connectionType := .receiver, tx := 7
                    description := some "ros topic receive", interface := some "ros"
                    address := some "/chatter" }
           pkt := { action := .forward, gdpname := sampleName 1, payload := some [42]
                    source := sampleName 2, guid := some (sampleName 3), nameRecord := none
                    description := none } }] := by
  refine ⟨_, rfl, ?_⟩
  rw [(sends_eq_registered [.update sampleSubscriber] rfl).2 ⟨0, some "eth0"⟩ sampleForward "eth0" _
    rfl (by decide) rfl]
  decide

end FibHandler

end RtFogros
