import RtFogros.Signaling.Progress
import RtFogros.Signaling.Replay
import RtFogros.Stream.Direction

/-!
# The rendezvous of a sender and a receiver

Each side of a stream subscribes to the signaling topic of the other and publishes its own
candidates.  As long as no entry of a log expires and no receiver lags, what a subscriber has not
found in the log it receives, so both are sent what the other published (`rendezvous_not_missed`).

The safety part is `Task.Served`: of a subscriber that has its clone of the log, all that was
broadcast on its topic it was sent or will be, whichever of the two it came by.  The rest is
progress: the tasks come to a halt (`Progress`), and where no task can go on nothing is left to be
sent.
-/

namespace RtFogros.Signaling

variable {Addr : Type}

/-! ## The requests of the two sides -/

def hexByte (b : UInt8) : String :=
  String.ofList [Nat.digitChar (b.toNat / 16), Nat.digitChar (b.toNat % 16)]

/-- `Display` of a name. -/
def nameText (name : GDPName) : String :=
  name.bytes.toList.foldl (fun text b => text ++ hexByte b) "GNAME0x"

/-- The first request of `register_stream_sender` and `register_stream_receiver`; `none` is
the panic of `flip_direction`. -/
def subscribeRequest (Addr : Type) (topicGdpName : GDPName) (direction : String) :
    Option (Message Addr) :=
  (flipDirection direction).map fun flipped =>
    { command := "SUBSCRIBE", topic := nameText topicGdpName ++ "-" ++ flipped, data := none }

def publishRequest (topicGdpName : GDPName) (direction : String)
    (candidateStruct : CandidateStruct Addr) : Message Addr :=
  { command := "PUBLISH", topic := nameText topicGdpName ++ "-" ++ direction,
    data := some candidateStruct }

/-- A side of a stream. -/
structure Side (Addr : Type) where
  topicGdpName : GDPName
  direction : String
  candidateStruct : CandidateStruct Addr

/-- The server has received both requests of a side, intact. -/
structure Connected (s : Server Addr) (side : Side Addr) (subscriber publisher : Nat) : Prop where
  subscribed : (s.tasks[subscriber]?).map Task.request =
    subscribeRequest Addr side.topicGdpName side.direction
  published : (s.tasks[publisher]?).map Task.request =
    some (publishRequest side.topicGdpName side.direction side.candidateStruct)

/-! ## Nothing is lost -/

def Phase.isPushed : Phase Addr → Bool
  | .pushed _ => true
  | _ => false

namespace Server

/-- No receiver of the topic has 100 messages pending. -/
def Room (s : Server Addr) (name : String) : Prop :=
  ∀ task ∈ s.tasks, task.request.topic = name → ∀ rx ∈ task.receiver?, rx.pending.length < 100

instance Room.decidable (s : Server Addr) (name : String) : Decidable (s.Room name) :=
  inferInstanceAs (Decidable (∀ task ∈ s.tasks, _ → ∀ rx ∈ task.receiver?, _ < _))

/-- A cleanup round removes no entry, and a broadcast overwrites none. -/
def Undisturbed (s : Server Addr) : Event Addr → Prop
  | .run i => ∀ task ∈ s.tasks[i]?, task.phase.isPushed = true → s.Room task.request.topic
  | .tick name =>
    ∀ topic ∈ s.topics name, ∀ entry ∈ topic.log, s.now - entry.2 < expirationDuration
  | _ => True

instance Undisturbed.decidable (s : Server Addr) :
    (event : Event Addr) → Decidable (s.Undisturbed event)
  | .run _ => inferInstanceAs (Decidable (∀ task ∈ _, _ → Room _ _))
  | .tick name => inferInstanceAs (Decidable (∀ topic ∈ s.topics name, ∀ entry ∈ topic.log, _ < _))
  | .connect _ | .disconnect _ | .elapse _ => .isTrue trivial

end Server

/-- Of a subscriber that has its clone of the log: all that was broadcast on its topic it
was sent or will be. -/
def Task.Served (s : Server Addr) (task : Task Addr) : Prop :=
  ∀ log rx, task.phase = .streaming log rx →
    ∀ publication ∈ s.broadcasted task.request.topic, publication ∈ task.delivery

structure Retained (s : Server Addr) : Prop where
  log : ∀ name topic, s.topics name = some topic → topic.log.map Prod.fst = topic.pushes
  served : ∀ (i : Nat) (task : Task Addr), s.tasks[i]? = some task → task.Served s

theorem retained_initial : Retained ({} : Server Addr) := by
  constructor
  · intro name topic htopic
    cases htopic
  · intro i task htask
    cases htask

theorem Task.served_of_not_streaming {s : Server Addr} {task : Task Addr}
    (h : ∀ log rx, task.phase ≠ .streaming log rx) : task.Served s :=
  fun log rx hphase => absurd hphase (h log rx)

/-- A subscriber sends on what it was going to send. -/
theorem Task.Served.of_delivery {s : Server Addr} {task task' : Task Addr} (h : task.Served s)
    {log : List (Publication Addr)} {rx : Receiver Addr} (hphase : task.phase = .streaming log rx)
    (hrequest : task'.request = task.request) (hdelivery : task'.delivery = task.delivery) :
    task'.Served s := by
  intro _ _ _ publication hpublication
  rw [hrequest] at hpublication
  rw [hdelivery]
  exact h log rx hphase publication hpublication

theorem Retained.frame {s s' : Server Addr} (h : Retained s)
    (hlog : ∀ name topic', s'.topics name = some topic' →
      topic'.log.map Prod.fst = topic'.pushes)
    (hbroadcasted : ∀ name, s'.broadcasted name = s.broadcasted name)
    (htasks : ∀ (i : Nat) (task' : Task Addr), s'.tasks[i]? = some task' →
      task'.Served s' ∨ s.tasks[i]? = some task') : Retained s' := by
  refine ⟨hlog, fun i task' htask' => ?_⟩
  rcases htasks i task' htask' with hserved | htask
  · exact hserved
  · intro log rx hphase
    rw [hbroadcasted]
    exact h.served i task' htask log rx hphase

/-- One task goes on. -/
theorem Retained.setTask {s s' : Server Addr} (h : Retained s) {i : Nat} {task : Task Addr}
    (task' : Task Addr) (htask : s.tasks[i]? = some task) (hs' : s'.tasks = s.tasks.set i task')
    (hlog : ∀ name topic', s'.topics name = some topic' →
      topic'.log.map Prod.fst = topic'.pushes)
    (hbroadcasted : ∀ name, s'.broadcasted name = s.broadcasted name)
    (hserved : task'.Served s') : Retained s' := by
  refine h.frame hlog hbroadcasted fun j other hother => ?_
  rw [hs', getElem?_setTask htask] at hother
  split at hother
  · cases hother
    exact .inl hserved
  · exact .inr hother

theorem Retained.ensureTopic_log {s : Server Addr} (h : Retained s) (name other : String)
    (topic' : Topic Addr) (htopic' : (s.ensureTopic name).topics other = some topic') :
    topic'.log.map Prod.fst = topic'.pushes := by
  unfold Server.ensureTopic at htopic'
  split at htopic'
  · exact h.log other topic' htopic'
  · by_cases hname : other = name
    · subst hname
      rw [Server.topics_setTopic_self] at htopic'
      cases htopic'
      rfl
    · rw [Server.topics_setTopic_of_ne _ hname] at htopic'
      exact h.log other topic' htopic'

theorem Retained.setTopic_log {s : Server Addr} (h : Retained s) {name : String}
    {topic : Topic Addr} (htopic : topic.log.map Prod.fst = topic.pushes) (other : String)
    (topic' : Topic Addr) (htopic' : (s.setTopic name topic).topics other = some topic') :
    topic'.log.map Prod.fst = topic'.pushes := by
  by_cases hname : other = name
  · subst hname
    rw [Server.topics_setTopic_self] at htopic'
    cases htopic'
    exact htopic
  · rw [Server.topics_setTopic_of_ne _ hname] at htopic'
    exact h.log other topic' htopic'

/-- A receiver with room takes the message. -/
theorem Receiver.push_of_room {capacity : Nat} {rx : Receiver Addr} (hcapacity : 100 ≤ capacity)
    (hroom : rx.pending.length < 100) (message : Publication Addr) :
    (rx.push capacity message).pending = rx.pending ++ [message] := by
  unfold Receiver.push
  rw [if_pos (Nat.lt_of_lt_of_le hroom hcapacity)]

theorem Retained.send {s : Server Addr} (h : Retained s) {capacity i : Nat} {task : Task Addr}
    {message : CandidateStruct Addr} {topic : Topic Addr} (hcapacity : 100 ≤ capacity)
    (hs : Sound s) (htask : s.tasks[i]? = some task) (hphase : task.phase = .pushed message)
    (htopic : s.topics task.request.topic = some topic) (hroom : s.Room task.request.topic) :
    Retained { ((s.broadcast capacity task.request.topic ⟨i, message⟩).setTopic task.request.topic
      { topic with locked := false }).setTask i { task with phase := .finished } with
      locked := false } := by
  have hpushes := hs.pushes_of_pushed htask hphase htopic
  refine ⟨h.setTopic_log (h.log _ topic htopic), fun j other hother => ?_⟩
  change ((s.tasks.map _).set i _)[j]? = some other at hother
  rw [getElem?_setTask (by rw [List.getElem?_map, htask]; rfl), List.getElem?_map] at hother
  split at hother
  · cases hother
    exact Task.served_of_not_streaming fun log rx h => by cases h
  obtain ⟨old, hold, rfl⟩ := Option.map_eq_some_iff.1 hother
  have hserved := h.served j old hold
  intro log rx hstreaming publication hpublication
  change publication ∈ Server.broadcasted (s.setTopic _ _) _ at hpublication
  rw [Server.broadcasted_setTopic, Topic.broadcasted_release] at hpublication
  by_cases hname : old.request.topic = task.request.topic
  · rw [if_pos hname] at hstreaming hpublication ⊢
    rw [Task.request_receive, if_pos hname, hpushes, ← Server.broadcasted_of_topic htopic,
      ← hname] at hpublication
    unfold Task.receive at hstreaming ⊢
    cases hold' : old.phase with
    | streaming log' rx' =>
      have hpending := Receiver.push_of_room hcapacity
        (hroom old (List.mem_of_getElem? hold) hname rx' (by simp [Task.receiver?, hold']))
        ⟨i, message⟩
      simp only [Task.delivery, hpending]
      rw [← List.append_assoc]
      rcases List.mem_append.1 hpublication with hmem | hmem
      · have hdelivery := hserved log' rx' hold' publication hmem
        rw [Task.delivery, hold'] at hdelivery
        exact List.mem_append_left _ hdelivery
      · exact List.mem_append_right _ hmem
    | _ => simp [hold'] at hstreaming
  · rw [if_neg hname] at hstreaming hpublication ⊢
    rw [if_neg hname] at hpublication
    exact hserved log rx hstreaming publication hpublication

theorem Retained.turn {s s' : Server Addr} {capacity : Nat} {event : Event Addr} (h : Retained s)
    (hcapacity : 100 ≤ capacity) (hs : Sound s) (hevent : s.Undisturbed event)
    (hturn : Server.Turn capacity s event s') : Retained s' := by
  have hsame : ∀ name, s.broadcasted name = s.broadcasted name := fun _ => rfl
  cases hturn with
  | idle => exact h
  | connect request =>
    refine h.frame h.log hsame fun i task htask => ?_
    rcases getElem?_concat_eq_some.1 htask with htask | ⟨-, rfl⟩
    · exact .inr htask
    · exact .inl (Task.served_of_not_streaming nofun)
  | finish htask =>
    exact h.setTask _ htask rfl h.log hsame (Task.served_of_not_streaming nofun)
  | panic htask =>
    exact h.setTask _ htask rfl h.log hsame (Task.served_of_not_streaming nofun)
  | @publish i task message htask =>
    exact h.setTask { task with phase := .publishing message } htask (by simp)
      (h.ensureTopic_log _) (s.broadcasted_ensureTopic _) (Task.served_of_not_streaming nofun)
  | @find i task htask =>
    exact h.setTask { task with phase := .found } htask (by simp)
      (h.ensureTopic_log _) (s.broadcasted_ensureTopic _) (Task.served_of_not_streaming nofun)
  | @push i task message topic htask _ htopic hfree =>
    refine h.setTask _ htask rfl (h.setTopic_log ?_)
      (Server.broadcasted_setTopic_of_eq _ htopic (Topic.broadcasted_push hfree ..))
      (Task.served_of_not_streaming nofun)
    rw [List.map_append, h.log _ topic htopic]
    rfl
  | @send i task message topic htask hphase htopic =>
    have hpushed : task.phase.isPushed = true := by rw [hphase]; rfl
    exact h.send hcapacity hs htask hphase htopic (hevent task htask hpushed)
  | subscribe htask =>
    exact h.setTask _ htask rfl h.log hsame (Task.served_of_not_streaming nofun)
  | @clone i task rx topic htask _ htopic hfree =>
    refine h.setTask _ htask rfl h.log hsame ?_
    intro log rx hphase publication hpublication
    cases hphase
    change publication ∈ s.broadcasted task.request.topic at hpublication
    rw [Server.broadcasted_of_topic htopic, Topic.broadcasted_of_free hfree,
      ← h.log _ topic htopic] at hpublication
    exact List.mem_append_left _ (List.mem_append_right _ hpublication)
  | replay htask hphase =>
    refine h.setTask _ htask rfl h.log hsame ((h.served _ _ htask).of_delivery hphase rfl ?_)
    simp [Task.delivery, hphase]
  | overflow htask hphase =>
    refine h.setTask _ htask rfl h.log hsame ((h.served _ _ htask).of_delivery hphase rfl ?_)
    simp [Task.delivery, hphase]
  | receive htask hphase _ hpending =>
    refine h.setTask _ htask rfl h.log hsame ((h.served _ _ htask).of_delivery hphase rfl ?_)
    simp [Task.delivery, hphase, hpending]
  | disconnect htask =>
    exact h.setTask _ htask rfl h.log hsame (Task.served_of_not_streaming nofun)
  | @tick name topic htopic cleanup =>
    have hretained : (topic.log.filter fun entry => s.now - entry.2 < expirationDuration) =
        topic.log := by
      rw [List.filter_eq_self]
      intro entry hentry
      simpa using hevent topic htopic entry hentry
    refine h.frame (h.setTopic_log ?_)
      (Server.broadcasted_setTopic_of_eq _ htopic (Topic.broadcasted_retain ..))
      fun i task htask => .inr htask
    rw [hretained]
    exact h.log name topic htopic
  | elapse duration => exact h.frame h.log hsame fun i task htask => .inr htask

/-! ## Who is still there -/

/-- The task subscribes, or is on its way to it. -/
def Phase.Listening : Phase Addr → Prop
  | .received | .found | .subscribed _ | .streaming _ _ => True
  | _ => False

/-- The subscriber served by the task at index `i` has not left. -/
def Stays (i : Nat) (s : Server Addr) : Prop :=
  ∀ task, s.tasks[i]? = some task → task.request.command = "SUBSCRIBE" → task.phase.Listening

theorem Stays.setTask {s s' : Server Addr} {i j : Nat} {task : Task Addr} (h : Stays i s)
    (task' : Task Addr) (htask : s.tasks[j]? = some task) (hs' : s'.tasks = s.tasks.set j task')
    (hlistening : i = j → task'.request.command = "SUBSCRIBE" → task'.phase.Listening) :
    Stays i s' := by
  intro other hother hcommand
  rw [hs', getElem?_setTask htask] at hother
  split at hother
  · rename_i hji
    cases hother
    exact hlistening hji.symm hcommand
  · exact h other hother hcommand

theorem Phase.listening_receive {capacity : Nat} {task : Task Addr}
    {message : Publication Addr} (h : task.phase.Listening) :
    (task.receive capacity message).phase.Listening := by
  unfold Task.receive
  split
  · trivial
  · trivial
  · exact h

theorem Stays.turn {s s' : Server Addr} {capacity i : Nat} {event : Event Addr} (h : Stays i s)
    (hevent : event ≠ .disconnect i) (hturn : Server.Turn capacity s event s') : Stays i s' := by
  have hpublishes : ("SUBSCRIBE" : String) ≠ "PUBLISH" := by decide
  cases hturn with
  | idle => exact h
  | connect request =>
    intro task htask hcommand
    rcases getElem?_concat_eq_some.1 htask with htask | ⟨-, rfl⟩
    · exact h task htask hcommand
    · trivial
  | finish htask _ _ hsubscribe =>
    exact h.setTask _ htask rfl fun _ hcommand => absurd hcommand hsubscribe
  | panic htask _ hpublish =>
    exact h.setTask _ htask rfl fun _ hcommand => absurd (hcommand.symm.trans hpublish) hpublishes
  | @publish j task message htask _ _ hpublish =>
    exact h.setTask { task with phase := .publishing message } htask (by simp) fun _ hcommand =>
      absurd (hcommand.symm.trans hpublish) hpublishes
  | @find j task htask =>
    exact h.setTask { task with phase := .found } htask (by simp) fun _ _ => trivial
  | @push j task message topic htask hphase =>
    refine h.setTask _ htask rfl fun hij hcommand => ?_
    have hlistening := h task (hij ▸ htask) hcommand
    rw [hphase] at hlistening
    exact hlistening.elim
  | @send j task message topic htask hphase =>
    intro other hother hcommand
    change ((s.tasks.map _).set j _)[i]? = some other at hother
    rw [getElem?_setTask (by rw [List.getElem?_map, htask]; rfl), List.getElem?_map] at hother
    split at hother
    · rename_i hji
      cases hother
      have hlistening := h task (hji ▸ htask) hcommand
      rw [hphase] at hlistening
      exact hlistening.elim
    · obtain ⟨old, hold, rfl⟩ := Option.map_eq_some_iff.1 hother
      by_cases hname : old.request.topic = task.request.topic
      · rw [if_pos hname] at hcommand ⊢
        rw [Task.request_receive] at hcommand
        exact Phase.listening_receive (h old hold hcommand)
      · rw [if_neg hname] at hcommand ⊢
        exact h old hold hcommand
  | subscribe htask => exact h.setTask _ htask rfl fun _ _ => trivial
  | clone htask => exact h.setTask _ htask rfl fun _ _ => trivial
  | replay htask => exact h.setTask _ htask rfl fun _ _ => trivial
  | overflow htask => exact h.setTask _ htask rfl fun _ _ => trivial
  | receive htask => exact h.setTask _ htask rfl fun _ _ => trivial
  | disconnect htask =>
    exact h.setTask _ htask rfl fun hij => absurd (congrArg Event.disconnect hij.symm) hevent
  | tick => exact h
  | elapse => exact h

/-! ## When no task can go on -/

/-- No task can go on. -/
def Quiet (capacity : Nat) (s : Server Addr) : Prop := ∀ i, s.run capacity i = s

theorem Quiet.phase_eq {capacity : Nat} {s : Server Addr} (h : Quiet capacity s) {i : Nat}
    {task : Task Addr} (task' : Task Addr) (htask : s.tasks[i]? = some task)
    (hrun : (s.run capacity i).tasks = s.tasks.set i task') : task'.phase = task.phase := by
  rw [h i] at hrun
  have hself := getElem?_setTask htask task' i
  rw [← hrun, htask, if_pos rfl] at hself
  rw [Option.some.inj hself]

theorem Quiet.not_pushed {capacity : Nat} {s : Server Addr} (h : Quiet capacity s)
    (hs : Sound s) {i : Nat} {task : Task Addr} (htask : s.tasks[i]? = some task)
    (message : CandidateStruct Addr) : task.phase ≠ .pushed message := by
  intro hphase
  obtain ⟨-, topic, (htopic : s.topics task.request.topic = some topic), -⟩ :=
    hs.atPhase htask hphase
  have hrun : s.run capacity i = s.send capacity i task message := by
    simp only [Server.run, htask, hphase]
  have hfinished : (s.tasks[i]?).map Task.phase = some .finished := by
    rw [← h i, hrun, Server.send_eq message htopic]
    change (((s.tasks.map _).set i _)[i]?).map Task.phase = _
    rw [getElem?_setTask (by rw [List.getElem?_map, htask]; rfl), if_pos rfl]
    rfl
  rw [htask, Option.map_some, hphase] at hfinished
  cases hfinished

theorem Quiet.free {capacity : Nat} {s : Server Addr} (h : Quiet capacity s) (hs : Sound s)
    {name : String} {topic : Topic Addr} (htopic : s.topics name = some topic) :
    topic.locked = false := by
  by_contra hlocked
  obtain ⟨publication, task, -, htask, hphase⟩ :=
    (hs.topic name topic htopic).inFlight (by simpa using hlocked)
  exact h.not_pushed hs htask _ hphase

theorem Quiet.not_publishing {capacity : Nat} {s : Server Addr} (h : Quiet capacity s)
    (hs : Sound s) {i : Nat} {task : Task Addr} (htask : s.tasks[i]? = some task)
    (message : CandidateStruct Addr) : task.phase ≠ .publishing message := by
  intro hphase
  obtain ⟨-, topic, htopic⟩ := hs.atPhase htask hphase
  have hsame := h.phase_eq { task with phase := .pushed message } htask (by
    simp only [Server.run, htask, hphase, Server.push, htopic, h.free hs htopic]
    rfl)
  rw [hphase] at hsame
  cases hsame

theorem Quiet.unlocked {capacity : Nat} {s : Server Addr} (h : Quiet capacity s) (hs : Sound s) :
    s.locked = false := by
  obtain ⟨holder, hlocked, -, hholder⟩ := hs.lock
  cases holder with
  | none => exact hlocked
  | some i =>
    obtain ⟨task, htask, hmap⟩ := hholder i rfl
    unfold Task.HoldsMap at hmap
    split at hmap
    · rename_i hphase
      exact absurd hphase (h.not_publishing hs htask _)
    · rename_i hphase
      exact absurd hphase (h.not_pushed hs htask _)
    · exact hmap.elim

/-- A request has been taken up. -/
theorem Quiet.not_received {capacity : Nat} {s : Server Addr} (h : Quiet capacity s)
    (hs : Sound s) {i : Nat} {task : Task Addr} (htask : s.tasks[i]? = some task) :
    task.phase ≠ .received := by
  intro hphase
  have hrun : s.run capacity i = s.lookup i task := by
    simp only [Server.run, htask, hphase]
  have hmoved : ∃ task', (s.run capacity i).tasks = s.tasks.set i task' ∧
      task'.phase ≠ .received := by
    rw [hrun]
    unfold Server.lookup
    rw [h.unlocked hs, if_neg Bool.false_ne_true]
    split
    · split
      · exact ⟨_, rfl, nofun⟩
      · rename_i message _
        exact ⟨{ task with phase := .publishing message }, by simp, by simp⟩
    · split
      · exact ⟨{ task with phase := .found }, by simp, by simp⟩
      · exact ⟨_, rfl, nofun⟩
  obtain ⟨task', htasks, hne⟩ := hmoved
  exact hne ((h.phase_eq task' htask htasks).trans hphase)

theorem Quiet.not_found {capacity : Nat} {s : Server Addr} (h : Quiet capacity s) {i : Nat}
    {task : Task Addr} (htask : s.tasks[i]? = some task) : task.phase ≠ .found := by
  intro hphase
  have hsame := h.phase_eq { task with phase := .subscribed {} } htask (by
    simp only [Server.run, htask, hphase, Server.tasks_setTask])
  rw [hphase] at hsame
  cases hsame

theorem Quiet.not_subscribed {capacity : Nat} {s : Server Addr} (h : Quiet capacity s)
    (hs : Sound s) {i : Nat} {task : Task Addr} (htask : s.tasks[i]? = some task)
    (rx : Receiver Addr) : task.phase ≠ .subscribed rx := by
  intro hphase
  obtain ⟨-, -, topic, htopic, -⟩ := hs.atPhase htask hphase
  have hsame := h.phase_eq { task with phase := .streaming (topic.log.map Prod.fst) rx } htask (by
    simp [Server.run, htask, hphase, Server.clone, htopic, h.free hs htopic])
  rw [hphase] at hsame
  cases hsame

/-- A subscriber has written all it was going to write. -/
theorem Quiet.written_eq {capacity : Nat} {s : Server Addr} (h : Quiet capacity s) {i : Nat}
    {task : Task Addr} (htask : s.tasks[i]? = some task) {log : List (Publication Addr)}
    {rx : Receiver Addr} (hphase : task.phase = .streaming log rx) :
    task.written = task.delivery := by
  have hrun : s.run capacity i = s.stream i task log rx := by
    simp only [Server.run, htask, hphase]
  unfold Server.stream at hrun
  split at hrun
  · rename_i message rest
    have hsame := h.phase_eq _ htask (congrArg Server.tasks hrun)
    simp [hphase] at hsame
  · split at hrun
    · rename_i hlagged
      have hsame := h.phase_eq _ htask (congrArg Server.tasks hrun)
      rw [hphase] at hsame
      injection hsame with _ hrx
      rw [← hrx] at hlagged
      cases hlagged
    · split at hrun
      · rename_i hpending
        simp [Task.delivery, hphase, hpending]
      · rename_i message pending hpending
        have hsame := h.phase_eq _ htask (congrArg Server.tasks hrun)
        rw [hphase] at hsame
        injection hsame with _ hrx
        rw [← hrx] at hpending
        simp at hpending

/-- The entry of a `PUBLISH` request is on its topic. -/
theorem Quiet.pushed {capacity : Nat} {s : Server Addr} (h : Quiet capacity s) (hs : Sound s)
    {i : Nat} {task : Task Addr} (htask : s.tasks[i]? = some task)
    (hcommand : task.request.command = "PUBLISH") {message : CandidateStruct Addr}
    (hdata : task.request.data = some message) :
    ⟨i, message⟩ ∈ s.broadcasted task.request.topic := by
  have hpublish : ("PUBLISH" : String) ≠ "SUBSCRIBE" := by decide
  rw [← hcommand] at hpublish
  cases hphase : task.phase with
  | received => exact absurd hphase (h.not_received hs htask)
  | publishing other => exact absurd hphase (h.not_publishing hs htask other)
  | pushed other => exact absurd hphase (h.not_pushed hs htask other)
  | found => exact absurd hphase (h.not_found htask)
  | subscribed rx => exact absurd hphase (h.not_subscribed hs htask rx)
  | streaming log rx =>
    obtain ⟨hsubscribe, -⟩ := hs.atPhase htask hphase
    exact absurd hsubscribe hpublish
  | finished =>
    obtain ⟨own, topic, hown, htopic, hmem⟩ := hs.atPhase htask hphase hcommand
    cases hdata.symm.trans hown
    rw [Server.broadcasted_of_topic htopic, Topic.broadcasted_of_free (h.free hs htopic)]
    exact hmem
  | panicked =>
    obtain ⟨-, hnone⟩ := hs.atPhase htask hphase
    cases hdata.symm.trans hnone

/-- A subscriber that has not left was sent all that is on its topic. -/
theorem Quiet.sent {capacity : Nat} {s : Server Addr} (h : Quiet capacity s) (hs : Sound s)
    (hretained : Retained s) {i : Nat} {task : Task Addr} (hstays : Stays i s)
    (htask : s.tasks[i]? = some task) (hcommand : task.request.command = "SUBSCRIBE")
    {publication : Publication Addr}
    (hmem : publication ∈ s.broadcasted task.request.topic) : publication ∈ task.written := by
  have hlistening := hstays task htask hcommand
  cases hphase : task.phase with
  | received => exact absurd hphase (h.not_received hs htask)
  | found => exact absurd hphase (h.not_found htask)
  | subscribed rx => exact absurd hphase (h.not_subscribed hs htask rx)
  | streaming log rx =>
    rw [h.written_eq htask hphase]
    exact hretained.served i task htask log rx hphase publication hmem
  | _ =>
    rw [hphase] at hlistening
    exact hlistening.elim

/-! ## Both sides -/

/-- The task served the client the struct `candidateStruct` that the task `publisher`
published. -/
def SentTo (s : Server Addr) (subscriber publisher : Nat)
    (candidateStruct : CandidateStruct Addr) : Prop :=
  ∃ task, s.tasks[subscriber]? = some task ∧ ⟨publisher, candidateStruct⟩ ∈ task.written

/-- One side is sent what the other published. -/
theorem Quiet.sentTo {capacity : Nat} {s : Server Addr} (h : Quiet capacity s) (hs : Sound s)
    (hretained : Retained s) {side peer : Side Addr} {i j k l : Nat}
    (hside : Connected s side i j) (hpeer : Connected s peer k l) (hstays : Stays i s)
    (hname : side.topicGdpName = peer.topicGdpName)
    (hflip : flipDirection side.direction = some peer.direction) :
    SentTo s i l peer.candidateStruct := by
  have hsubscribed := hside.subscribed
  rw [subscribeRequest, hflip, Option.map_some, Option.map_eq_some_iff] at hsubscribed
  obtain ⟨subscriber, hsubscriber, hrequest⟩ := hsubscribed
  obtain ⟨publisher, hpublisher, hpublish⟩ := Option.map_eq_some_iff.1 hpeer.published
  have htopic : subscriber.request.topic = publisher.request.topic := by
    rw [hrequest, hpublish, hname]
    rfl
  refine ⟨subscriber, hsubscriber, h.sent hs hretained hstays hsubscriber ?_ ?_⟩
  · rw [hrequest]
  · rw [htopic]
    refine h.pushed hs hpublisher ?_ ?_
    · rw [hpublish]
      rfl
    · rw [hpublish]
      rfl

/-- **Main result.**  In every run in which no log entry expires, no more than 100
broadcasts are pending and neither subscriber leaves, after the requests of both sides have
arrived: however the tasks go on, they come to a halt, and where no task can go on each
side was sent the struct of the other. -/
theorem rendezvous_not_missed {capacity : Nat} (hcapacity : 100 ≤ capacity)
    {events : List (Event Addr)}
    (hundisturbed : Run.Throughout (Server.step capacity) Server.Undisturbed {} events)
    {side peer : Side Addr} (hname : side.topicGdpName = peer.topicGdpName)
    (hflip : flipDirection side.direction = some peer.direction)
    (hflip' : flipDirection peer.direction = some side.direction) {i j k l : Nat}
    (hside : Connected (Server.after capacity events) side i j)
    (hpeer : Connected (Server.after capacity events) peer k l)
    (hleft : ∀ event ∈ events, event ≠ .disconnect i ∧ event ≠ .disconnect k) :
    (∀ turns, Busy capacity (Server.after capacity events) turns →
      turns.length ≤ (Server.after capacity events).remaining) ∧
    (Quiet capacity (Server.after capacity events) →
      SentTo (Server.after capacity events) i l peer.candidateStruct ∧
        SentTo (Server.after capacity events) k j side.candidateStruct) := by
  have hkept : Sound (Server.after capacity events) ∧ Retained (Server.after capacity events) :=
    hundisturbed.invariant (fun s => Sound s ∧ Retained s)
      (fun s event hs hevent =>
        have hturn := Server.turn_step capacity s event
        ⟨hs.1.turn hturn, hs.2.turn hcapacity hs.1 hevent hturn⟩)
      ⟨sound_initial, retained_initial⟩
  have hstays : ∀ n, (∀ event ∈ events, event ≠ .disconnect n) →
      Stays n (Server.after capacity events) := by
    intro n hn
    refine (Run.throughout_of_forall {} hn).invariant (Stays n) (fun s event hs hevent => ?_) ?_
    · exact hs.turn hevent (Server.turn_step capacity s event)
    · intro task htask
      cases htask
  refine ⟨fun turns hturns => hturns.length_le, fun hquiet => ⟨?_, ?_⟩⟩
  · exact hquiet.sentTo hkept.1 hkept.2 hside hpeer (hstays i fun event h => (hleft event h).1)
      hname hflip
  · exact hquiet.sentTo hkept.1 hkept.2 hpeer hside (hstays k fun event h => (hleft event h).2)
      hname.symm hflip'

def senderSide : Side SocketAddrV4 :=
  ⟨⟨#v[51, 52, 53, 54]⟩, "pubsub-sender", ⟨⟨#v[51, 52, 53, 54]⟩, [⟨#v[10, 0, 0, 4], 4003⟩]⟩⟩

def receiverSide : Side SocketAddrV4 :=
  ⟨⟨#v[51, 52, 53, 54]⟩, "pubsub-receiver", ⟨⟨#v[51, 52, 53, 54]⟩, [⟨#v[10, 0, 0, 5], 4004⟩]⟩⟩

/-- The sender's subscriber receives what is published; the receiver's comes late and finds
it in the log. -/
def bothSides : List (Event SocketAddrV4) :=
  ((subscribeRequest _ senderSide.topicGdpName senderSide.direction).toList.map .connect) ++
    [.connect (publishRequest senderSide.topicGdpName senderSide.direction
      senderSide.candidateStruct)] ++
    ((subscribeRequest _ receiverSide.topicGdpName receiverSide.direction).toList.map .connect) ++
    [.connect (publishRequest receiverSide.topicGdpName receiverSide.direction
      receiverSide.candidateStruct)] ++
    ([0, 0, 0, 3, 3, 3, 0, 1, 1, 1, 2, 2, 2, 2].map .run)

theorem bothSides_quiet : Quiet 100 (Server.after 100 bothSides) := by
  intro i
  rcases i with _ | _ | _ | _ | i
  · rfl
  · rfl
  · rfl
  · rfl
  · rfl

theorem bothSides_sent :
    SentTo (Server.after 100 bothSides) 0 3 receiverSide.candidateStruct ∧
      SentTo (Server.after 100 bothSides) 2 1 senderSide.candidateStruct := by
  have hsender : Connected (Server.after 100 bothSides) senderSide 0 1 := ⟨rfl, rfl⟩
  have hreceiver : Connected (Server.after 100 bothSides) receiverSide 2 3 := ⟨rfl, rfl⟩
  have hname : senderSide.topicGdpName = receiverSide.topicGdpName := rfl
  exact (rendezvous_not_missed (Nat.le_refl 100) (by decide) hname (by decide) (by decide)
    hsender hreceiver (by decide)).2 bothSides_quiet

end RtFogros.Signaling
