import RtFogros.Lib.Run
import RtFogros.Ros.ServiceClient

/-!
# The handlers of local ROS topics and services

The four loops of `ROSManager` (`fogrs-ros`) over their requests.  Each makes a channel for a
request and tests whether the topic is new.  Two of them announce the channel to the FIB past the
test, the other two before it, so that a topic that exists is announced again with a channel whose
receiver is dropped.

`addedOnce_iff`: over a run each topic is announced once and with a channel that is read, exactly
if no topic is added again where that is announced and r2r creates the endpoint of each new one.
The loops are one of two programs, `testThenAnnounce` and `announceThenTest`, with the update and
the task of the handler, and a round is described once for the four (`RosRound`).
-/

namespace RtFogros

open FibHandler

structure RosHandler where
  existingTopics : List GDPName := []
  -- past a failed `expect`
  panicked : Bool := false
  -- the updates sent over `channel_tx`
  sent : List (FibStateChange Nat) := []
  -- the channels whose receiver a spawned task holds
  readers : List Nat := []
  nextTx : Nat := 0

/-- A request of `status_recv`; `created` says whether the node's mutex is free of poison and r2r
creates the endpoint of its topic, should the handler ask for it. -/
structure StatusEvent where
  request : TopicManagerRequest
  created : Bool

def StatusEvent.topic (digest : Bytes → Vector UInt8 4) (event : StatusEvent) : GDPName :=
  getGdpNameFromTopic digest event.request.topicName event.request.topicType
    event.request.certificate

namespace RosHandler

/-! ## The loops -/

/-- `channel_tx.send`. -/
def announce (c : RosHandler) (update : FibStateChange Nat) : RosHandler :=
  { c with sent := c.sent ++ [update] }

/-- The branch of a new topic, whose task takes the receiver `rosRx`, if any. -/
def create (c : RosHandler) (topicGdpName : GDPName) (created : Bool) (rosRx : Option Nat) :
    RosHandler :=
  let c := { c with existingTopics := c.existingTopics ++ [topicGdpName] }
  if created then { c with readers := c.readers ++ rosRx.toList } else { c with panicked := true }

section Bodies

variable (update : GDPName → String → Nat → FibStateChange Nat) (rosRx : Nat → Option Nat)
  (c : RosHandler) (topicGdpName : GDPName) (topicName : String) (created : Bool)

def testThenAnnounce : RosHandler :=
  let rosTx := c.nextTx
  let c := { c with nextTx := rosTx + 1 }
  if topicGdpName ∈ c.existingTopics then c
  else
    (c.announce (update topicGdpName topicName rosTx)).create topicGdpName created (rosRx rosTx)

def announceThenTest : RosHandler :=
  let rosTx := c.nextTx
  let c := { c with nextTx := rosTx + 1 }.announce (update topicGdpName topicName rosTx)
  if topicGdpName ∈ c.existingTopics then c else c.create topicGdpName created (some rosTx)

end Bodies

section Loops

variable (digest : Bytes → Vector UInt8 4)

/-- A round of a loop, whose body serves an ADD. -/
def round (body : RosHandler → GDPName → String → Bool → RosHandler) (c : RosHandler)
    (event : StatusEvent) : RosHandler :=
  if c.panicked then c
  else if event.request.action ≠ .add then c
  else body c (event.topic digest) event.request.topicName event.created

/-- The task of a topic does not take the receiver. -/
def handleRosTopicRemotePublisher : RosHandler → StatusEvent → RosHandler :=
  round digest (testThenAnnounce rosTopicRemotePublisherUpdate fun _ => none)

def handleRosTopicRemoteSubscriber : RosHandler → StatusEvent → RosHandler :=
  round digest (announceThenTest rosTopicRemoteSubscriberUpdate)

def handleLocalRosServiceCaller : RosHandler → StatusEvent → RosHandler :=
  round digest (announceThenTest localRosServiceCallerUpdate)

def handleRemoteRosService : RosHandler → StatusEvent → RosHandler :=
  round digest (testThenAnnounce remoteRosServiceUpdate some)

end Loops

end RosHandler

/-! ## The four roles -/

inductive RosRole where
  | remotePublisher
  | remoteSubscriber
  | localServiceCaller
  | remoteService
deriving DecidableEq

namespace RosRole

def handle (digest : Bytes → Vector UInt8 4) : RosRole → RosHandler → StatusEvent → RosHandler
  | remotePublisher => RosHandler.handleRosTopicRemotePublisher digest
  | remoteSubscriber => RosHandler.handleRosTopicRemoteSubscriber digest
  | localServiceCaller => RosHandler.handleLocalRosServiceCaller digest
  | remoteService => RosHandler.handleRemoteRosService digest

def update : RosRole → GDPName → String → Nat → FibStateChange Nat
  | remotePublisher => rosTopicRemotePublisherUpdate
  | remoteSubscriber => rosTopicRemoteSubscriberUpdate
  | localServiceCaller => localRosServiceCallerUpdate
  | remoteService => remoteRosServiceUpdate

def connectionType : RosRole → FibConnectionType
  | remotePublisher => .sender
  | remoteSubscriber => .receiver
  | localServiceCaller => .requestReceiver
  | remoteService => .responseReceiver

/-- The handler announces a topic before it tests whether it is new. -/
def announcesFirst : RosRole → Bool
  | remoteSubscriber | localServiceCaller => true
  | remotePublisher | remoteService => false

/-- What the task of a topic reads. -/
def rosRx : RosRole → Nat → Option Nat
  | remotePublisher, _ => none
  | remoteSubscriber, tx | localServiceCaller, tx | remoteService, tx => some tx

theorem isReceiver_iff (role : RosRole) :
    IsReceiver role.connectionType ↔ role ≠ remotePublisher := by
  cases role <;> decide

theorem isReceiver_of_announcesFirst {role : RosRole} (h : role.announcesFirst) :
    IsReceiver role.connectionType := by
  cases role <;> first | decide | cases h

theorem rosRx_of_isReceiver {role : RosRole} (h : IsReceiver role.connectionType) (tx : Nat) :
    role.rosRx tx = some tx := by
  cases role
  case remotePublisher => exact absurd h (by decide)
  all_goals rfl

theorem update_eq (role : RosRole) (topicGdpName : GDPName) (topicName : String) (tx : Nat) :
    ∃ description, role.update topicGdpName topicName tx =
      rosUpdate topicGdpName topicName tx role.connectionType description := by
  cases role <;> exact ⟨_, rfl⟩

@[simp] theorem update_connectionType (role : RosRole) (topicGdpName : GDPName)
    (topicName : String) (tx : Nat) :
    (role.update topicGdpName topicName tx).connectionType = role.connectionType := by
  cases role <;> rfl

@[simp] theorem update_forwardDestination (role : RosRole) (topicGdpName : GDPName)
    (topicName : String) (tx : Nat) :
    (role.update topicGdpName topicName tx).forwardDestination = some tx := by
  cases role <;> rfl

end RosRole

/-! ## A round -/

/-- What a handler does with a request. -/
inductive RosRound (digest : Bytes → Vector UInt8 4) (role : RosRole) (c : RosHandler)
    (event : StatusEvent) : RosHandler → Prop where
  | ignored (h : c.panicked = true ∨ event.request.action ≠ .add) :
      RosRound digest role c event c
  | repeated (hrunning : c.panicked = false) (hadd : event.request.action = .add)
      (htopic : event.topic digest ∈ c.existingTopics) :
      RosRound digest role c event
        { c with
          sent := c.sent ++ if role.announcesFirst then
            [role.update (event.topic digest) event.request.topicName c.nextTx] else []
          nextTx := c.nextTx + 1 }
  | created (hrunning : c.panicked = false) (hadd : event.request.action = .add)
      (htopic : event.topic digest ∉ c.existingTopics) (hcreated : event.created = true) :
      RosRound digest role c event
        { c with
          sent := c.sent ++ [role.update (event.topic digest) event.request.topicName c.nextTx]
          existingTopics := c.existingTopics ++ [event.topic digest]
          readers := c.readers ++ (role.rosRx c.nextTx).toList
          nextTx := c.nextTx + 1 }
  | failed (hrunning : c.panicked = false) (hadd : event.request.action = .add)
      (htopic : event.topic digest ∉ c.existingTopics) (hcreated : event.created = false) :
      RosRound digest role c event
        { c with
          sent := c.sent ++ [role.update (event.topic digest) event.request.topicName c.nextTx]
          existingTopics := c.existingTopics ++ [event.topic digest]
          panicked := true
          nextTx := c.nextTx + 1 }

section Round

variable {digest : Bytes → Vector UInt8 4} {role : RosRole} {c : RosHandler} {event : StatusEvent}

theorem RosHandler.round_ignored {body : RosHandler → GDPName → String → Bool → RosHandler}
    (h : c.panicked = true ∨ event.request.action ≠ .add) :
    RosHandler.round digest body c event = c := by
  unfold RosHandler.round
  rcases h with h | h
  · rw [if_pos h]
  · rw [if_pos h, ite_self]

theorem RosHandler.round_add {body : RosHandler → GDPName → String → Bool → RosHandler}
    (hrunning : c.panicked = false) (hadd : event.request.action = .add) :
    RosHandler.round digest body c event =
      body c (event.topic digest) event.request.topicName event.created := by
  unfold RosHandler.round
  rw [hrunning, if_neg Bool.false_ne_true, if_neg (not_not_intro hadd)]

theorem RosRole.handle_eq : role.handle digest = RosHandler.round digest
    (if role.announcesFirst then RosHandler.announceThenTest role.update
    else RosHandler.testThenAnnounce role.update role.rosRx) := by
  cases role <;> rfl

theorem RosRole.handle_ignored (h : c.panicked = true ∨ event.request.action ≠ .add) :
    role.handle digest c event = c := by
  rw [RosRole.handle_eq, RosHandler.round_ignored h]

theorem RosRole.handle_add (hrunning : c.panicked = false) (hadd : event.request.action = .add) :
    role.handle digest c event =
      if role.announcesFirst then
        c.announceThenTest role.update (event.topic digest) event.request.topicName event.created
      else
        c.testThenAnnounce role.update role.rosRx (event.topic digest) event.request.topicName
          event.created := by
  rw [RosRole.handle_eq, RosHandler.round_add hrunning hadd]
  split <;> rfl

variable (digest role c event) in
/-- Every round is of one of these kinds. -/
theorem rosRound_handle : RosRound digest role c event (role.handle digest c event) := by
  by_cases hignored : c.panicked = true ∨ event.request.action ≠ .add
  · rw [RosRole.handle_ignored hignored]
    exact .ignored hignored
  rw [not_or, not_not, Bool.not_eq_true] at hignored
  obtain ⟨hrunning, hadd⟩ := hignored
  rw [RosRole.handle_add hrunning hadd]
  unfold RosHandler.announceThenTest RosHandler.testThenAnnounce RosHandler.announce
    RosHandler.create
  dsimp only
  by_cases htopic : event.topic digest ∈ c.existingTopics
  · have hround : RosRound digest role c event _ := .repeated hrunning hadd htopic
    simp only [if_pos htopic]
    cases hfirst : role.announcesFirst with
    | true =>
      rw [hfirst] at hround
      exact hround
    | false =>
      rw [hfirst] at hround
      simpa using hround
  · simp only [if_neg htopic]
    cases hcreated : event.created with
    | true =>
      have hround : RosRound digest role c event _ := .created hrunning hadd htopic hcreated
      cases hfirst : role.announcesFirst with
      | true =>
        rw [RosRole.rosRx_of_isReceiver (RosRole.isReceiver_of_announcesFirst hfirst)] at hround
        exact hround
      | false => exact hround
    | false =>
      have hround : RosRound digest role c event _ := .failed hrunning hadd htopic hcreated
      split <;> exact hround

end Round

/-! ## Runs -/

section Runs

variable (digest : Bytes → Vector UInt8 4) (role : RosRole)

/-- The topics that a run adds, in the order of the requests. -/
def added (events : List StatusEvent) : List GDPName :=
  (events.filter (·.request.action = .add)).map (StatusEvent.topic digest)

def RosRole.after (events : List StatusEvent) : RosHandler :=
  Run.after (role.handle digest) {} events

/-- How often the handler has announced a topic. -/
def RosHandler.announced (c : RosHandler) (topic : GDPName) : Nat :=
  c.sent.countP fun update => update.action = .add ∧ update.topicGdpName = topic

/-- A spawned task reads the channel of the update. -/
def RosHandler.Reads (c : RosHandler) (update : FibStateChange Nat) : Prop :=
  ∃ tx ∈ c.readers, update.forwardDestination = some tx

/-- The ADD updates that a run of the FIB handler takes from the handler. -/
def RosRole.updates (fibEvents : List (FibEvent Nat)) : List (FibStateChange Nat) :=
  fibEvents.filterMap fun
    | .update update =>
      if update.interface = some "ros" ∧ update.connectionType = role.connectionType then
        some update
      else none
    | .packet _ _ => none

/-- The entries of the FIB for a topic that come from the handler. -/
def RosRole.entries (h : FibHandler Nat) (topic : GDPName) : List (FibConnection Nat) :=
  (h.receiversOf topic).filter fun dst =>
    dst.interface = some "ros" ∧ dst.connectionType = role.connectionType

/-- A topic is announced when it is first added, with a channel that is read if the FIB sends
packets to it, and the FIB has no other entries for the handler. -/
structure AddedOnce (events : List StatusEvent) : Prop where
  announced : ∀ topic ∈ added digest events, (role.after digest events).announced topic = 1
  read : ∀ update ∈ (role.after digest events).sent, IsReceiver update.connectionType →
    (role.after digest events).Reads update
  entries : ∀ bindingTable fibEvents h topic,
    role.updates fibEvents <+: (role.after digest events).sent →
    Mealy.final (Fib.step bindingTable) .initial fibEvents = .running h →
      (role.entries h topic).length ≤ 1 ∧
        ∀ dst ∈ role.entries h topic, dst.tx ∈ (role.after digest events).readers

/-- No topic is added again where that is announced, and r2r creates the endpoint of each new
topic.  For the publisher, whose channel nobody reads, it can fail when no new topic
follows. -/
structure AddsCleanly (events : List StatusEvent) : Prop where
  unrepeated : role.announcesFirst → (added digest events).Nodup
  created : ∀ pre event post, events = pre ++ event :: post → event.request.action = .add →
    event.topic digest ∉ added digest pre →
      event.created = true ∨ role = .remotePublisher ∧
        ∀ topic ∈ added digest post, topic ∈ added digest pre ∨ topic = event.topic digest

end Runs

section Runs

variable {digest : Bytes → Vector UInt8 4} {role : RosRole}

theorem RosRole.after_concat (events : List StatusEvent) (event : StatusEvent) :
    role.after digest (events ++ [event]) =
      role.handle digest (role.after digest events) event :=
  Run.after_concat ..

theorem added_append (events events' : List StatusEvent) :
    added digest (events ++ events') = added digest events ++ added digest events' := by
  unfold added
  rw [List.filter_append, List.map_append]

theorem added_cons (event : StatusEvent) (events : List StatusEvent) :
    added digest (event :: events) = added digest [event] ++ added digest events :=
  added_append [event] events

theorem added_of_add {event : StatusEvent} (hadd : event.request.action = .add) :
    added digest [event] = [event.topic digest] := by
  simp [added, hadd]

theorem added_of_not_add {event : StatusEvent} (hadd : event.request.action ≠ .add) :
    added digest [event] = [] := by
  simp [added, hadd]

theorem countP_update (topic topicGdpName : GDPName) (topicName : String) (tx : Nat) :
    [role.update topicGdpName topicName tx].countP
        (fun update => update.action = .add ∧ update.topicGdpName = topic) =
      if topicGdpName = topic then 1 else 0 := by
  obtain ⟨description, hupdate⟩ := role.update_eq topicGdpName topicName tx
  rw [hupdate]
  simp [rosUpdate, List.countP_cons]

/-! ## What holds in every run -/

theorem existingTopics_after {events : List StatusEvent}
    (hrunning : (role.after digest events).panicked = false) (topic : GDPName) :
    topic ∈ (role.after digest events).existingTopics ↔ topic ∈ added digest events := by
  induction events using List.reverseRecOn with
  | nil => exact Iff.rfl
  | append_singleton events event ih =>
    rw [RosRole.after_concat] at hrunning ⊢
    rw [added_append, List.mem_append]
    generalize role.after digest events = c at ih hrunning ⊢
    have hround := rosRound_handle digest role c event
    generalize role.handle digest c event = c' at hround hrunning ⊢
    cases hround with
    | ignored h =>
      have hadd := h.resolve_left (by simp [hrunning])
      rw [added_of_not_add hadd, ih hrunning]
      simp
    | repeated hbefore hadd htopic =>
      rw [added_of_add hadd, List.mem_singleton]
      dsimp only
      rw [ih hbefore, or_iff_left_of_imp]
      rintro rfl
      exact (ih hbefore).1 htopic
    | created hbefore hadd htopic hcreated =>
      rw [added_of_add hadd]
      dsimp only
      rw [List.mem_append, ih hbefore]
    | failed => cases hrunning

theorem announced_of_sent {c c' : RosHandler} {topicGdpName : GDPName} {topicName : String}
    {tx : Nat} (hsent : c'.sent = c.sent ++ [role.update topicGdpName topicName tx])
    (topic : GDPName) :
    c'.announced topic = c.announced topic + if topicGdpName = topic then 1 else 0 := by
  unfold RosHandler.announced
  rw [hsent, List.countP_append, countP_update]

variable (digest role) in
/-- A round announces the topic of its request or nothing. -/
theorem sent_handle (c : RosHandler) (event : StatusEvent) :
    (role.handle digest c event).sent = c.sent ∨
      event.request.action = .add ∧ (role.handle digest c event).sent =
        c.sent ++ [role.update (event.topic digest) event.request.topicName c.nextTx] := by
  have hround := rosRound_handle digest role c event
  generalize role.handle digest c event = c' at hround ⊢
  cases hround with
  | ignored => exact .inl rfl
  | repeated hrunning hadd =>
    cases role.announcesFirst with
    | false => exact .inl (List.append_nil _)
    | true => exact .inr ⟨hadd, rfl⟩
  | created hrunning hadd => exact .inr ⟨hadd, rfl⟩
  | failed hrunning hadd => exact .inr ⟨hadd, rfl⟩

/-- Only what was added is announced. -/
theorem announced_of_not_mem {events : List StatusEvent} {topic : GDPName}
    (h : topic ∉ added digest events) : (role.after digest events).announced topic = 0 := by
  induction events using List.reverseRecOn with
  | nil => rfl
  | append_singleton events event ih =>
    rw [added_append, List.mem_append, not_or] at h
    rw [RosRole.after_concat]
    rcases sent_handle digest role (role.after digest events) event with hsent | ⟨hadd, hsent⟩
    · unfold RosHandler.announced
      rw [hsent]
      exact ih h.1
    · rw [added_of_add hadd, List.mem_singleton] at h
      rw [announced_of_sent hsent, ih h.1, if_neg (Ne.symm h.2)]

/-- A handler that announces first announces every request. -/
theorem announced_of_announcesFirst (hfirst : role.announcesFirst = true)
    {events : List StatusEvent} (hrunning : (role.after digest events).panicked = false)
    (topic : GDPName) :
    (role.after digest events).announced topic = (added digest events).count topic := by
  induction events using List.reverseRecOn with
  | nil => rfl
  | append_singleton events event ih =>
    rw [RosRole.after_concat] at hrunning ⊢
    rw [added_append, List.count_append]
    generalize role.after digest events = c at ih hrunning ⊢
    have hround := rosRound_handle digest role c event
    generalize role.handle digest c event = c' at hround hrunning ⊢
    cases hround with
    | ignored h =>
      have hadd := h.resolve_left (by simp [hrunning])
      rw [added_of_not_add hadd, ih hrunning]
      rfl
    | repeated hbefore hadd htopic =>
      rw [hfirst, announced_of_sent rfl, ih hbefore, added_of_add hadd, List.count_singleton]
      simp
    | created hbefore hadd htopic hcreated =>
      rw [announced_of_sent rfl, ih hbefore, added_of_add hadd, List.count_singleton]
      simp
    | failed => cases hrunning

/-- A handler that panics has announced a channel that nobody reads. -/
structure Unread (role : RosRole) (c : RosHandler) : Prop where
  readers : ∀ tx ∈ c.readers, tx < c.nextTx
  unread : c.panicked = true →
    ∃ update ∈ c.sent, update.connectionType = role.connectionType ∧ ¬ c.Reads update

theorem RosRole.mem_rosRx {tx tx' : Nat} (h : tx ∈ (role.rosRx tx').toList) : tx = tx' := by
  cases role
  case remotePublisher => cases h
  all_goals exact List.mem_singleton.1 h

theorem Unread.handle {c : RosHandler} (hc : Unread role c) (event : StatusEvent) :
    Unread role (role.handle digest c event) := by
  have hround := rosRound_handle digest role c event
  generalize role.handle digest c event = c' at hround ⊢
  cases hround with
  | ignored => exact hc
  | repeated hrunning =>
    refine ⟨fun tx htx => Nat.lt_succ_of_lt (hc.readers tx htx), fun hpanicked => ?_⟩
    rw [hrunning] at hpanicked
    cases hpanicked
  | created hrunning =>
    refine ⟨fun tx htx => ?_, fun hpanicked => ?_⟩
    · rcases List.mem_append.1 htx with htx | htx
      · exact Nat.lt_succ_of_lt (hc.readers tx htx)
      · exact RosRole.mem_rosRx htx ▸ Nat.lt_succ_self _
    · rw [hrunning] at hpanicked
      cases hpanicked
  | failed =>
    refine ⟨fun tx htx => Nat.lt_succ_of_lt (hc.readers tx htx), fun _ => ?_⟩
    obtain ⟨description, hupdate⟩ :=
      role.update_eq (event.topic digest) event.request.topicName c.nextTx
    refine ⟨_, List.mem_append_right _ List.mem_cons_self, by rw [hupdate]; rfl, ?_⟩
    rintro ⟨tx, htx, hdestination⟩
    rw [RosRole.update_forwardDestination] at hdestination
    obtain rfl := Option.some.inj hdestination
    exact Nat.lt_irrefl _ (hc.readers _ htx)

theorem unread_after (events : List StatusEvent) : Unread role (role.after digest events) :=
  Run.invariant (fun _ event hc => hc.handle event) ⟨nofun, nofun⟩ events

/-- Nothing changes after a panic. -/
theorem after_of_panicked {events : List StatusEvent}
    (hpanicked : (role.after digest events).panicked = true) (post : List StatusEvent) :
    role.after digest (events ++ post) = role.after digest events := by
  rw [RosRole.after, Run.after_append, ← RosRole.after]
  induction post with
  | nil => rfl
  | cons event post ih =>
    rw [Run.after_cons, RosRole.handle_ignored (.inl hpanicked)]
    exact ih

/-! ## Runs that add cleanly -/

theorem RosHandler.Reads.mono {c c' : RosHandler} {update : FibStateChange Nat}
    (h : c.Reads update) (hreaders : c.readers ⊆ c'.readers) : c'.Reads update := by
  obtain ⟨tx, htx, hdestination⟩ := h
  exact ⟨tx, hreaders htx, hdestination⟩

/-- What holds in such a run when `post` is yet to come. -/
structure Kept (digest : Bytes → Vector UInt8 4) (role : RosRole) (pre post : List StatusEvent) :
    Prop where
  announced : ∀ topic ∈ added digest pre, (role.after digest pre).announced topic = 1
  read : ∀ update ∈ (role.after digest pre).sent, IsReceiver update.connectionType →
    (role.after digest pre).Reads update
  panicked : (role.after digest pre).panicked = true →
    role = .remotePublisher ∧ ∀ topic ∈ added digest post, topic ∈ added digest pre

/-- A request that announces nothing. -/
theorem Kept.same {pre post : List StatusEvent} {event : StatusEvent}
    (h : Kept digest role pre (event :: post))
    (hsent : (role.after digest (pre ++ [event])).sent = (role.after digest pre).sent)
    (hreaders : (role.after digest (pre ++ [event])).readers = (role.after digest pre).readers)
    (hpanicked : (role.after digest (pre ++ [event])).panicked = (role.after digest pre).panicked)
    (hadded : ∀ topic ∈ added digest [event], topic ∈ added digest pre) :
    Kept digest role (pre ++ [event]) post := by
  constructor
  · intro topic htopic
    rw [added_append, List.mem_append] at htopic
    unfold RosHandler.announced
    rw [hsent]
    exact h.announced topic (htopic.elim id (hadded topic))
  · rw [hsent]
    exact fun update hupdate htype => (h.read update hupdate htype).mono fun tx htx =>
      hreaders ▸ htx
  · rw [hpanicked]
    intro hbefore
    obtain ⟨hrole, hpost⟩ := h.panicked hbefore
    refine ⟨hrole, fun topic htopic => ?_⟩
    rw [added_cons] at hpost
    rw [added_append]
    exact List.mem_append_left _ (hpost topic (List.mem_append_right _ htopic))

/-- A new topic is announced once. -/
theorem Kept.announced_new {pre post : List StatusEvent} {event : StatusEvent} {tx : Nat}
    (h : Kept digest role pre post) (hadd : event.request.action = .add)
    (htopic : event.topic digest ∉ added digest pre)
    (hsent : (role.after digest (pre ++ [event])).sent = (role.after digest pre).sent ++
      [role.update (event.topic digest) event.request.topicName tx]) :
    ∀ topic ∈ added digest (pre ++ [event]),
      (role.after digest (pre ++ [event])).announced topic = 1 := by
  intro topic hmem
  rw [added_append, added_of_add hadd, List.mem_append, List.mem_singleton] at hmem
  rw [announced_of_sent hsent]
  rcases hmem with hmem | rfl
  · rw [h.announced topic hmem, if_neg (ne_of_mem_of_not_mem hmem htopic).symm]
  · rw [announced_of_not_mem htopic, if_pos rfl]

/-- The channel of a new topic is read if packets are sent to it. -/
theorem Kept.read_new {pre post : List StatusEvent} {c' : RosHandler} {topicGdpName : GDPName}
    {topicName : String} {tx : Nat} (h : Kept digest role pre post)
    (hsent : c'.sent = (role.after digest pre).sent ++ [role.update topicGdpName topicName tx])
    (hreaders : (role.after digest pre).readers ⊆ c'.readers)
    (hnew : IsReceiver role.connectionType → tx ∈ c'.readers) :
    ∀ update ∈ c'.sent, IsReceiver update.connectionType → c'.Reads update := by
  intro update hupdate htype
  rw [hsent, List.mem_append, List.mem_singleton] at hupdate
  rcases hupdate with hupdate | rfl
  · exact (h.read update hupdate htype).mono hreaders
  · rw [RosRole.update_connectionType] at htype
    exact ⟨tx, hnew htype, RosRole.update_forwardDestination ..⟩

/-- One round of such a run. -/
theorem AddsCleanly.kept_step {events pre post : List StatusEvent} {event : StatusEvent}
    (h : AddsCleanly digest role events) (hevents : events = pre ++ event :: post)
    (hkept : Kept digest role pre (event :: post)) : Kept digest role (pre ++ [event]) post := by
  have hround := rosRound_handle digest role (role.after digest pre) event
  rw [← RosRole.after_concat] at hround
  generalize hafter : role.after digest (pre ++ [event]) = c' at hround
  cases hround with
  | ignored hignored =>
    refine hkept.same (by rw [hafter]) (by rw [hafter]) (by rw [hafter]) fun topic htopic => ?_
    rcases hignored with hpanicked | hadd
    · have hpost := (hkept.panicked hpanicked).2
      rw [added_cons] at hpost
      exact hpost topic (List.mem_append_left _ htopic)
    · rw [added_of_not_add hadd] at htopic
      cases htopic
  | repeated hrunning hadd htopic =>
    rw [existingTopics_after hrunning] at htopic
    cases hfirst : role.announcesFirst with
    | false =>
      rw [hfirst] at hafter
      refine hkept.same (by rw [hafter]; exact List.append_nil _) (by rw [hafter])
        (by rw [hafter]) ?_
      rw [added_of_add hadd]
      exact List.forall_mem_singleton.2 htopic
    | true =>
      -- the topic would be announced again
      have hnodup := h.unrepeated hfirst
      rw [hevents, added_append, added_cons, added_of_add hadd] at hnodup
      exact absurd rfl ((List.nodup_append.1 hnodup).2.2 _ htopic _
        (List.mem_append_left _ (List.mem_singleton_self _)))
  | created hrunning hadd htopic hcreated =>
    rw [existingTopics_after hrunning] at htopic
    refine ⟨hkept.announced_new hadd htopic (by rw [hafter]), ?_, ?_⟩
    · rw [hafter]
      refine hkept.read_new rfl (List.subset_append_left ..) fun htype => ?_
      rw [RosRole.rosRx_of_isReceiver htype]
      exact List.mem_append_right _ List.mem_cons_self
    · rw [hafter]
      intro hpanicked
      rw [hrunning] at hpanicked
      cases hpanicked
  | failed hrunning hadd htopic hcreated =>
    rw [existingTopics_after hrunning] at htopic
    obtain ⟨hrole, hpost⟩ := (h.created pre event post hevents hadd htopic).resolve_left
      (by simp [hcreated])
    refine ⟨hkept.announced_new hadd htopic (by rw [hafter]), ?_, fun _ => ⟨hrole, ?_⟩⟩
    · rw [hafter]
      exact hkept.read_new rfl (List.Subset.refl _) fun htype =>
        absurd hrole ((RosRole.isReceiver_iff role).1 htype)
    · intro topic htopic'
      rw [added_append, added_of_add hadd, List.mem_append, List.mem_singleton]
      exact hpost topic htopic'

theorem AddsCleanly.kept {events : List StatusEvent} (h : AddsCleanly digest role events)
    {pre post : List StatusEvent} (hevents : events = pre ++ post) : Kept digest role pre post := by
  induction pre using List.reverseRecOn generalizing post with
  | nil => exact ⟨List.forall_mem_nil _, List.forall_mem_nil _, nofun⟩
  | append_singleton pre event ih =>
    rw [List.append_assoc, List.singleton_append] at hevents
    exact h.kept_step hevents (ih hevents)

/-! ## The entries of the FIB -/

theorem RosRole.updates_cons (event : FibEvent Nat) (fibEvents : List (FibEvent Nat)) :
    role.updates (event :: fibEvents) = role.updates [event] ++ role.updates fibEvents := by
  rw [← List.singleton_append]
  exact List.filterMap_append

theorem interface_of_admitted {bindingTable : BindingTable} {update : FibStateChange Nat}
    {topic : GDPName} {dst : FibConnection Nat}
    (h : admitted bindingTable (.update update) = some (topic, dst)) :
    dst.interface = update.interface := by
  rw [admitted] at h
  split at h
  · split at h
    · cases h
      rfl
    · cases h
  · cases h

/-- An entry of the handler comes from one of its updates. -/
theorem updates_of_registered {bindingTable : BindingTable} {event : FibEvent Nat} {topic : GDPName}
    {dst : FibConnection Nat} (hdst : dst ∈ registered bindingTable [event] topic)
    (hros : dst.interface = some "ros" ∧ dst.connectionType = role.connectionType) :
    ∃ update, role.updates [event] = [update] ∧ update.topicGdpName = topic ∧
      update.forwardDestination = some dst.tx := by
  obtain ⟨event', hevent, hregistered⟩ := List.mem_filterMap.1 hdst
  obtain rfl := List.mem_singleton.1 hevent
  obtain ⟨⟨name, dst'⟩, hadmitted, hname⟩ := Option.bind_eq_some_iff.1 hregistered
  obtain ⟨update, rfl, htx, htype, htopic⟩ := update_of_admitted hadmitted
  have hinterface := interface_of_admitted hadmitted
  dsimp only at hname
  split at hname
  · next hsame =>
    cases hname
    refine ⟨update, ?_, htopic.trans hsame, htx⟩
    rw [hinterface, ← htype] at hros
    simp [RosRole.updates, hros]
  · cases hname

theorem length_registered_le (bindingTable : BindingTable) (event : FibEvent Nat)
    (topic : GDPName) : (registered bindingTable [event] topic).length ≤ 1 := by
  rcases registered_singleton bindingTable event topic with h | ⟨_, _, _, _, _, _, h⟩
  · rw [h]
    exact Nat.zero_le _
  · rw [h]
    exact Nat.le_refl _

variable (role) in
/-- The FIB has no more entries of the handler for a topic than it took updates, and each with the
channel of one. -/
theorem entries_of_updates (bindingTable : BindingTable) (fibEvents : List (FibEvent Nat))
    (topic : GDPName) (p : FibConnection Nat → Bool)
    (hp : ∀ dst, p dst → dst.interface = some "ros" ∧ dst.connectionType = role.connectionType) :
    ((registered bindingTable fibEvents topic).filter p).length ≤
        (role.updates fibEvents).countP (·.topicGdpName = topic) ∧
      ∀ dst ∈ (registered bindingTable fibEvents topic).filter p,
        ∃ update ∈ role.updates fibEvents, update.forwardDestination = some dst.tx := by
  induction fibEvents with
  | nil => exact ⟨Nat.le_refl _, List.forall_mem_nil _⟩
  | cons event fibEvents ih =>
    rw [registered_cons, List.filter_append, RosRole.updates_cons, List.length_append,
      List.countP_append]
    have hevent {dst : FibConnection Nat}
        (hdst : dst ∈ (registered bindingTable [event] topic).filter p) :=
      updates_of_registered (List.mem_filter.1 hdst).1
        (hp dst (List.mem_filter.1 hdst).2)
    constructor
    · refine Nat.add_le_add ?_ ih.1
      cases hfilter : (registered bindingTable [event] topic).filter p with
      | nil => exact Nat.zero_le _
      | cons dst rest =>
        obtain ⟨update, hupdates, htopic, -⟩ := hevent (hfilter ▸ List.mem_cons_self)
        rw [hupdates, ← hfilter]
        refine (List.length_filter_le ..).trans ((length_registered_le ..).trans ?_)
        simp [htopic]
    · intro dst hdst
      rcases List.mem_append.1 hdst with hdst | hdst
      · obtain ⟨update, hupdates, -, hdestination⟩ := hevent hdst
        exact ⟨update, List.mem_append_left _ (hupdates ▸ List.mem_cons_self), hdestination⟩
      · obtain ⟨update, hupdate, hdestination⟩ := ih.2 dst hdst
        exact ⟨update, List.mem_append_right _ hupdate, hdestination⟩

/-! ## Main result -/

/-- What a handler sends are its own updates. -/
theorem sent_after (events : List StatusEvent) : ∀ update ∈ (role.after digest events).sent,
    ∃ topicGdpName topicName tx, update = role.update topicGdpName topicName tx := by
  induction events using List.reverseRecOn with
  | nil => exact List.forall_mem_nil _
  | append_singleton events event ih =>
    rw [RosRole.after_concat]
    rcases sent_handle digest role (role.after digest events) event with hsent | ⟨-, hsent⟩
    · rw [hsent]
      exact ih
    · rw [hsent, List.forall_mem_append]
      exact ⟨ih, List.forall_mem_singleton.2 ⟨_, _, _, rfl⟩⟩

theorem countP_sent (events : List StatusEvent) (topic : GDPName) :
    (role.after digest events).sent.countP (·.topicGdpName = topic) =
      (role.after digest events).announced topic := by
  refine List.countP_congr fun update hupdate => ?_
  obtain ⟨topicGdpName, topicName, tx, rfl⟩ := sent_after events update hupdate
  obtain ⟨description, hupdate⟩ := role.update_eq topicGdpName topicName tx
  rw [hupdate]
  simp only [rosUpdate, true_and, decide_eq_true_eq]
  exact decide_eq_true_iff

theorem announced_le_one {events : List StatusEvent}
    (h : ∀ topic ∈ added digest events, (role.after digest events).announced topic = 1)
    (topic : GDPName) : (role.after digest events).announced topic ≤ 1 := by
  by_cases htopic : topic ∈ added digest events
  · exact (h topic htopic).le
  · exact (announced_of_not_mem htopic).trans_le (Nat.zero_le _)

/-- An entry of the handler in the FIB is of a type that packets are sent to. -/
theorem isReceiver_of_entry {bindingTable : BindingTable} {fibEvents : List (FibEvent Nat)}
    {fib : FibHandler Nat}
    (hrun : Mealy.final (Fib.step bindingTable) .initial fibEvents = .running fib)
    {topic : GDPName} {dst : FibConnection Nat} (hdst : dst ∈ role.entries fib topic) :
    IsReceiver role.connectionType := by
  obtain ⟨hregistered, hros⟩ := List.mem_filter.1 hdst
  rw [decide_eq_true_iff] at hros
  rw [receiversOf_final hrun] at hregistered
  exact hros.2 ▸ (registered_of_mem hregistered).type

theorem AddsCleanly.addedOnce {events : List StatusEvent} (h : AddsCleanly digest role events) :
    AddedOnce digest role events := by
  have hkept := h.kept (List.append_nil events).symm
  refine ⟨hkept.announced, hkept.read, fun bindingTable fibEvents fib topic htaken hrun => ?_⟩
  obtain ⟨hlength, hdestination⟩ := entries_of_updates role bindingTable fibEvents topic
    (fun dst => dst.interface = some "ros" ∧ dst.connectionType = role.connectionType) (by simp)
  rw [← receiversOf_final hrun] at hlength hdestination
  constructor
  · calc (role.entries fib topic).length
      _ ≤ (role.updates fibEvents).countP (·.topicGdpName = topic) := hlength
      _ ≤ (role.after digest events).sent.countP (·.topicGdpName = topic) :=
        htaken.sublist.countP_le
      _ = (role.after digest events).announced topic := countP_sent events topic
      _ ≤ 1 := announced_le_one hkept.announced topic
  · intro dst hdst
    obtain ⟨update, hupdate, hforward⟩ := hdestination dst hdst
    have hsent := htaken.subset hupdate
    obtain ⟨topicGdpName, topicName, tx, rfl⟩ := sent_after events update hsent
    obtain ⟨tx', htx', hforward'⟩ := hkept.read _ hsent (by
      rw [RosRole.update_connectionType]
      exact isReceiver_of_entry hrun hdst)
    obtain rfl := Option.some.inj (hforward.symm.trans hforward')
    exact htx'

variable (role) in
theorem panicked_of_failed {pre : List StatusEvent} {event : StatusEvent}
    (hadd : event.request.action = .add) (htopic : event.topic digest ∉ added digest pre)
    (hcreated : event.created = false) :
    (role.after digest (pre ++ [event])).panicked = true := by
  rw [RosRole.after_concat]
  have hexisting : (role.after digest pre).panicked = false → _ := existingTopics_after
  generalize role.after digest pre = c at hexisting ⊢
  have hround := rosRound_handle digest role c event
  generalize role.handle digest c event = c' at hround ⊢
  cases hround with
  | ignored h => exact h.resolve_right (not_not_intro hadd)
  | repeated hrunning hadd hexists =>
    exact absurd ((hexisting hrunning _).1 hexists) htopic
  | created hrunning hadd hexists hcreated' =>
    rw [hcreated] at hcreated'
    cases hcreated'
  | failed => rfl

theorem AddedOnce.running {events : List StatusEvent} (h : AddedOnce digest role events)
    (hreceiver : IsReceiver role.connectionType) :
    (role.after digest events).panicked = false := by
  rw [← Bool.not_eq_true]
  intro hpanicked
  obtain ⟨update, hupdate, htype, hunread⟩ := (unread_after events).unread hpanicked
  exact hunread (h.read update hupdate (htype ▸ hreceiver))

theorem AddedOnce.addsCleanly {events : List StatusEvent} (h : AddedOnce digest role events) :
    AddsCleanly digest role events := by
  constructor
  · intro hfirst
    have hrunning := h.running (RosRole.isReceiver_of_announcesFirst hfirst)
    rw [List.nodup_iff_count_le_one]
    intro topic
    rw [← announced_of_announcesFirst hfirst hrunning]
    exact announced_le_one h.announced topic
  · intro pre event post hevents hadd htopic
    cases hcreated : event.created with
    | true => exact .inl rfl
    | false =>
      right
      have hpanicked := panicked_of_failed role hadd htopic hcreated
      have hrole : role = .remotePublisher := by
        by_contra hrole
        have hrunning := h.running ((RosRole.isReceiver_iff role).2 hrole)
        rw [hevents, List.append_cons, after_of_panicked hpanicked, hpanicked] at hrunning
        cases hrunning
      have hannounced {topic : GDPName} (hmem : topic ∈ added digest events) :
          topic ∈ added digest (pre ++ [event]) := by
        by_contra hnot
        have honce := h.announced topic hmem
        rw [hevents, List.append_cons, after_of_panicked hpanicked,
          announced_of_not_mem hnot] at honce
        cases honce
      refine ⟨hrole, fun topic hpost => ?_⟩
      have hmem : topic ∈ added digest events := by
        rw [hevents, added_append, added_cons]
        exact List.mem_append_right _ (List.mem_append_right _ hpost)
      have hpre := hannounced hmem
      rwa [added_append, added_of_add hadd, List.mem_append, List.mem_singleton] at hpre

/-- **Main result.**  Over a run each topic is announced once, and the announced channels are
read, if and only if no topic is added again where that is announced and the endpoint of each new
topic is created. -/
theorem addedOnce_iff (digest : Bytes → Vector UInt8 4) (role : RosRole)
    (events : List StatusEvent) :
    AddedOnce digest role events ↔ AddsCleanly digest role events :=
  ⟨AddedOnce.addsCleanly, AddsCleanly.addedOnce⟩

end Runs

def chatterAdded : StatusEvent :=
  ⟨⟨.add, "/chatter", "std_msgs/msg/String", []⟩, true⟩

/-- The second request for a topic is announced too, and nobody reads its channel. -/
theorem repeated_add_announced :
    ¬ AddedOnce (fun _ => #v[1, 1, 1, 1]) .remoteSubscriber [chatterAdded, chatterAdded] ∧
      ¬ AddedOnce (fun _ => #v[1, 1, 1, 1]) .localServiceCaller [chatterAdded, chatterAdded] :=
  ⟨fun h => absurd (h.announced ⟨#v[1, 1, 1, 1]⟩ List.mem_cons_self) (by decide),
    fun h => absurd (h.announced ⟨#v[1, 1, 1, 1]⟩ List.mem_cons_self) (by decide)⟩

/-! ## The loop of a machine that calls services -/

/-- What `handle_remote_ros_service` knows of a machine that calls services. -/
def ServiceClient.handler (c : ServiceClient) : RosHandler :=
  { existingTopics := c.existingTopics, nextTx := c.nextTx }

/-- The machine sends what the loop sends for a request whose endpoint is created. -/
theorem ServiceClient.status_handle (digest : Bytes → Vector UInt8 4) (c : ServiceClient)
    (request : TopicManagerRequest) :
    (c.status digest request).channelRx =
        c.channelRx ++ (RosRole.remoteService.handle digest c.handler ⟨request, true⟩).sent ∧
      (c.status digest request).existingTopics =
        (RosRole.remoteService.handle digest c.handler ⟨request, true⟩).existingTopics ∧
      (c.status digest request).nextTx =
        (RosRole.remoteService.handle digest c.handler ⟨request, true⟩).nextTx := by
  by_cases hadd : request.action = .add
  · have hround := rosRound_handle digest .remoteService c.handler ⟨request, true⟩
    generalize RosRole.remoteService.handle digest c.handler ⟨request, true⟩ = handler at hround ⊢
    rw [status, if_neg (not_not_intro hadd)]
    cases hround with
    | ignored h => exact absurd hadd (h.resolve_left Bool.false_ne_true)
    | repeated hrunning hadd' htopic =>
      rw [if_pos (by exact htopic)]
      exact ⟨(List.append_nil _).symm, rfl, rfl⟩
    | created hrunning hadd' htopic hcreated =>
      rw [if_neg (by exact htopic)]
      exact ⟨rfl, rfl, rfl⟩
    | failed hrunning hadd' htopic hcreated => cases hcreated
  · have hignored : RosRole.remoteService.handle digest c.handler ⟨request, true⟩ = c.handler :=
      RosRole.handle_ignored (.inr hadd)
    rw [hignored, status, if_pos hadd]
    exact ⟨(List.append_nil _).symm, rfl, rfl⟩

end RtFogros
