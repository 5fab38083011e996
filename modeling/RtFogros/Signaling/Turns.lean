import RtFogros.Signaling.Server

/-!
# What a step of the signaling server does

`Turn` lists the effects a step can have, with the guards under which it has them; later proofs go
by its cases.  `Sound` is what holds of the server in every state: which task holds which mutex,
and how the log of a topic, its channel and the history of its pushes hang together.

The log and the channel are both related to the history of pushes: the log is its end, as entries
expire at the front, and the channel has carried all of it but what the holder of the log's mutex
has yet to send (`Topic.broadcasted`).  So the two are related in every state, and not only when
the mutex is free.
-/

namespace RtFogros.Signaling

variable {Addr : Type}

/-- The task holds the mutex of the map. -/
def Task.HoldsMap (task : Task Addr) : Prop :=
  match task.phase with
  | .publishing _ | .pushed _ => True
  | _ => False

theorem Task.holdsMap_of_pushed {task : Task Addr} {message : CandidateStruct Addr}
    (h : task.phase = .pushed message) : task.HoldsMap := by
  simp [Task.HoldsMap, h]

namespace Server

section Fields

variable (s : Server Addr)

@[simp] theorem tasks_setTask (i : Nat) (task : Task Addr) :
    (s.setTask i task).tasks = s.tasks.set i task := rfl

@[simp] theorem topics_setTask (i : Nat) (task : Task Addr) :
    (s.setTask i task).topics = s.topics := rfl

@[simp] theorem tasks_setTopic (name : String) (topic : Topic Addr) :
    (s.setTopic name topic).tasks = s.tasks := rfl

theorem topics_setTopic_self (name : String) (topic : Topic Addr) :
    (s.setTopic name topic).topics name = some topic := Function.update_self ..

theorem topics_setTopic_of_ne {name other : String} (h : other ≠ name) (topic : Topic Addr) :
    (s.setTopic name topic).topics other = s.topics other := Function.update_of_ne h ..

@[simp] theorem tasks_ensureTopic (name : String) : (s.ensureTopic name).tasks = s.tasks := by
  unfold ensureTopic
  split <;> rfl

@[simp] theorem locked_ensureTopic (name : String) : (s.ensureTopic name).locked = s.locked := by
  unfold ensureTopic
  split <;> rfl

theorem exists_topic_ensureTopic (name : String) :
    ∃ topic, (s.ensureTopic name).topics name = some topic := by
  unfold ensureTopic
  split
  · rename_i topic htopic
    exact ⟨topic, htopic⟩
  · exact ⟨_, s.topics_setTopic_self ..⟩

end Fields

/-- The effects of a step. -/
inductive Turn (capacity : Nat) (s : Server Addr) : Event Addr → Server Addr → Prop where
  | idle {event : Event Addr} : Turn capacity s event s
  | connect (request : Message Addr) :
      Turn capacity s (.connect request) { s with tasks := s.tasks ++ [{ request }] }
  | finish {i : Nat} {task : Task Addr} (htask : s.tasks[i]? = some task)
      (hphase : task.phase = .received)
      (hpublish : task.request.command ≠ "PUBLISH")
      (hsubscribe : task.request.command ≠ "SUBSCRIBE") :
      Turn capacity s (.run i) (s.setTask i { task with phase := .finished })
  | panic {i : Nat} {task : Task Addr} (htask : s.tasks[i]? = some task)
      (hphase : task.phase = .received) (hcommand : task.request.command = "PUBLISH")
      (hdata : task.request.data = none) :
      Turn capacity s (.run i) (s.setTask i { task with phase := .panicked })
  | publish {i : Nat} {task : Task Addr} {message : CandidateStruct Addr}
      (htask : s.tasks[i]? = some task) (hphase : task.phase = .received)
      (hlocked : s.locked = false) (hcommand : task.request.command = "PUBLISH")
      (hdata : task.request.data = some message) :
      Turn capacity s (.run i) { (s.ensureTopic task.request.topic).setTask i
        { task with phase := .publishing message } with locked := true }
  | find {i : Nat} {task : Task Addr} (htask : s.tasks[i]? = some task)
      (hphase : task.phase = .received) (hlocked : s.locked = false)
      (hcommand : task.request.command = "SUBSCRIBE") :
      Turn capacity s (.run i)
        ((s.ensureTopic task.request.topic).setTask i { task with phase := .found })
  | push {i : Nat} {task : Task Addr} {message : CandidateStruct Addr} {topic : Topic Addr}
      (htask : s.tasks[i]? = some task) (hphase : task.phase = .publishing message)
      (htopic : s.topics task.request.topic = some topic) (hfree : topic.locked = false) :
      Turn capacity s (.run i) ((s.setTopic task.request.topic
        { topic with
          locked := true
          log := topic.log ++ [(⟨i, message⟩, s.now)]
          pushes := topic.pushes ++ [⟨i, message⟩] }).setTask i
        { task with phase := .pushed message })
  | send {i : Nat} {task : Task Addr} {message : CandidateStruct Addr} {topic : Topic Addr}
      (htask : s.tasks[i]? = some task) (hphase : task.phase = .pushed message)
      (htopic : s.topics task.request.topic = some topic) :
      Turn capacity s (.run i)
        { ((s.broadcast capacity task.request.topic ⟨i, message⟩).setTopic task.request.topic
            { topic with locked := false }).setTask i { task with phase := .finished } with
          locked := false }
  | subscribe {i : Nat} {task : Task Addr} (htask : s.tasks[i]? = some task)
      (hphase : task.phase = .found) :
      Turn capacity s (.run i) (s.setTask i { task with phase := .subscribed {} })
  | clone {i : Nat} {task : Task Addr} {rx : Receiver Addr} {topic : Topic Addr}
      (htask : s.tasks[i]? = some task) (hphase : task.phase = .subscribed rx)
      (htopic : s.topics task.request.topic = some topic) (hfree : topic.locked = false) :
      Turn capacity s (.run i) (s.setTask i
        { task with phase := .streaming (topic.log.map Prod.fst) rx })
  | replay {i : Nat} {task : Task Addr} {message : Publication Addr}
      {log : List (Publication Addr)} {rx : Receiver Addr} (htask : s.tasks[i]? = some task)
      (hphase : task.phase = .streaming (message :: log) rx) :
      Turn capacity s (.run i) (s.setTask i
        { task with phase := .streaming log rx, written := task.written ++ [message] })
  | overflow {i : Nat} {task : Task Addr} {rx : Receiver Addr} (htask : s.tasks[i]? = some task)
      (hphase : task.phase = .streaming [] rx) (hlagged : rx.lagged = true) :
      Turn capacity s (.run i) (s.setTask i
        { task with phase := .streaming [] { rx with lagged := false } })
  | receive {i : Nat} {task : Task Addr} {rx : Receiver Addr} {message : Publication Addr}
      {pending : List (Publication Addr)} (htask : s.tasks[i]? = some task)
      (hphase : task.phase = .streaming [] rx) (hlagged : rx.lagged = false)
      (hpending : rx.pending = message :: pending) :
      Turn capacity s (.run i) (s.setTask i
        { task with
          phase := .streaming [] { rx with pending }
          written := task.written ++ [message] })
  | disconnect {i : Nat} {task : Task Addr} {log : List (Publication Addr)} {rx : Receiver Addr}
      (htask : s.tasks[i]? = some task) (hphase : task.phase = .streaming log rx) :
      Turn capacity s (.disconnect i) (s.setTask i { task with phase := .finished })
  | tick {name : String} {topic : Topic Addr} (htopic : s.topics name = some topic)
      (cleanup : Option Instant) :
      Turn capacity s (.tick name) (s.setTopic name
        { topic with
          log := topic.log.filter fun entry => s.now - entry.2 < expirationDuration
          cleanup })
  | elapse (duration : Nat) :
      Turn capacity s (.elapse duration) { s with now := s.now + duration }

variable {capacity : Nat} {s : Server Addr}

theorem Turn.of_lookup {i : Nat} {task : Task Addr} (htask : s.tasks[i]? = some task)
    (hphase : task.phase = .received) : Turn capacity s (.run i) (s.lookup i task) := by
  unfold lookup
  split
  · exact .idle
  · rename_i hlocked
    rw [Bool.not_eq_true] at hlocked
    split
    · rename_i hcommand
      split
      · rename_i hdata
        exact .panic htask hphase hcommand hdata
      · rename_i message hdata
        exact .publish htask hphase hlocked hcommand hdata
    · rename_i hcommand
      split
      · rename_i hsubscribe
        exact .find htask hphase hlocked hsubscribe
      · rename_i hsubscribe
        exact .finish htask hphase hcommand hsubscribe

/-- Without a receiver the broadcast reaches nobody. -/
theorem broadcast_of_receiverCount {name : String} (message : Publication Addr)
    (h : ¬ 0 < s.receiverCount name) : s.broadcast capacity name message = s := by
  have hcount : ∀ task ∈ s.tasks, ¬ listens name task = true :=
    List.countP_eq_zero.1 (Nat.eq_zero_of_not_pos h)
  have hsame : (s.tasks.map fun task =>
      if task.request.topic = name then task.receive capacity message else task) = s.tasks := by
    conv_rhs => rw [← List.map_id s.tasks]
    apply List.map_congr_left
    intro task htask
    have hlistens := hcount task htask
    split
    · rename_i hname
      unfold Task.receive
      split
      all_goals first | rfl | simp_all [listens, Task.receiver?]
    · rfl
  unfold broadcast
  rw [hsame]

theorem send_eq {i : Nat} {task : Task Addr} (message : CandidateStruct Addr) {topic : Topic Addr}
    (htopic : s.topics task.request.topic = some topic) :
    s.send capacity i task message =
      { ((s.broadcast capacity task.request.topic ⟨i, message⟩).setTopic task.request.topic
          { topic with locked := false }).setTask i { task with phase := .finished } with
        locked := false } := by
  unfold Server.send
  rw [htopic]
  dsimp only
  split
  · rfl
  · rename_i hcount
    rw [broadcast_of_receiverCount _ hcount]

theorem Turn.of_send {i : Nat} {task : Task Addr} {message : CandidateStruct Addr}
    (htask : s.tasks[i]? = some task) (hphase : task.phase = .pushed message) :
    Turn capacity s (.run i) (s.send capacity i task message) := by
  cases htopic : s.topics task.request.topic with
  | none =>
    unfold Server.send
    rw [htopic]
    exact .idle
  | some topic =>
    rw [send_eq message htopic]
    exact .send htask hphase htopic

theorem Turn.of_stream {i : Nat} {task : Task Addr} {log : List (Publication Addr)}
    {rx : Receiver Addr} (htask : s.tasks[i]? = some task)
    (hphase : task.phase = .streaming log rx) :
    Turn capacity s (.run i) (s.stream i task log rx) := by
  unfold stream
  split
  · exact .replay htask hphase
  · split
    · rename_i hlagged
      exact .overflow htask hphase hlagged
    · rename_i hlagged
      rw [Bool.not_eq_true] at hlagged
      split
      · exact .idle
      · rename_i hpending
        exact .receive htask hphase hlagged hpending

theorem Turn.of_run (i : Nat) : Turn capacity s (.run i) (s.run capacity i) := by
  unfold run
  split
  · exact .idle
  · rename_i task htask
    split
    · rename_i hphase
      exact .of_lookup htask hphase
    · rename_i message hphase
      unfold Server.push
      split
      · exact .idle
      · rename_i topic htopic
        split
        · exact .idle
        · rename_i hfree
          exact .push htask hphase htopic (by simpa using hfree)
    · rename_i message hphase
      exact .of_send htask hphase
    · rename_i hphase
      exact .subscribe htask hphase
    · rename_i rx hphase
      unfold Server.clone
      split
      · exact .idle
      · rename_i topic htopic
        split
        · exact .idle
        · rename_i hfree
          exact .clone htask hphase htopic (by simpa using hfree)
    · rename_i log rx hphase
      exact .of_stream htask hphase
    · exact .idle
    · exact .idle

/-- Every step is one of the turns. -/
theorem turn_step (capacity : Nat) (s : Server Addr) (event : Event Addr) :
    Turn capacity s event (step capacity s event) := by
  cases event with
  | connect request => exact .connect request
  | run i => exact .of_run i
  | disconnect i =>
    unfold step disconnect
    dsimp only
    split
    · exact .idle
    · rename_i task htask
      split
      · rename_i hphase
        exact .disconnect htask hphase
      · exact .idle
  | tick name =>
    unfold step tick
    dsimp only
    split
    · exact .idle
    · rename_i topic htopic
      split
      · exact .idle
      · split
        · exact .idle
        · exact .tick htopic _
  | elapse duration => exact .elapse duration

end Server

/-! ## The invariant -/

/-- What the channel of a topic has carried: all that was pushed, except what the holder
of the log's mutex has yet to send. -/
def Topic.broadcasted (topic : Topic Addr) : List (Publication Addr) :=
  if topic.locked then topic.pushes.dropLast else topic.pushes

theorem Topic.broadcasted_of_free {topic : Topic Addr} (h : topic.locked = false) :
    topic.broadcasted = topic.pushes := by
  unfold Topic.broadcasted
  rw [h]
  rfl

/-- What holds of the task at index `i`. -/
def TaskSound (topics : String → Option (Topic Addr)) (i : Nat) (task : Task Addr) : Prop :=
  match task.phase with
  | .received => task.written = []
  | .publishing message =>
    task.request.data = some message ∧ ∃ topic, topics task.request.topic = some topic
  | .pushed message =>
    task.request.data = some message ∧ ∃ topic, topics task.request.topic = some topic ∧
      topic.locked = true ∧ topic.pushes.getLast? = some ⟨i, message⟩
  | .found =>
    task.request.command = "SUBSCRIBE" ∧ task.written = [] ∧
      ∃ topic, topics task.request.topic = some topic
  | .subscribed rx =>
    task.request.command = "SUBSCRIBE" ∧ task.written = [] ∧
      ∃ topic, topics task.request.topic = some topic ∧ rx.pending <:+ topic.broadcasted
  | .streaming _ _ =>
    task.request.command = "SUBSCRIBE" ∧ ∃ topic, topics task.request.topic = some topic
  | .finished =>
    task.request.command = "PUBLISH" → ∃ message topic, task.request.data = some message ∧
      topics task.request.topic = some topic ∧ ⟨i, message⟩ ∈ topic.pushes
  | .panicked => task.request.command = "PUBLISH" ∧ task.request.data = none

/-- What holds of the topic called `name`. -/
structure TopicSound (now : Instant) (tasks : List (Task Addr)) (name : String)
    (topic : Topic Addr) : Prop where
  log : topic.log.map Prod.fst <:+ topic.pushes
  ordered : topic.log.Pairwise fun entry later => entry.2 ≤ later.2
  past : ∀ entry ∈ topic.log, entry.2 ≤ now
  nodup : topic.pushes.Nodup
  published : ∀ publication ∈ topic.pushes, ∃ task, tasks[publication.publisher]? = some task ∧
    task.request.topic = name ∧
    (task.phase = .pushed publication.message ∨ task.phase = .finished)
  inFlight : topic.locked = true → ∃ publication task,
    topic.pushes.getLast? = some publication ∧ tasks[publication.publisher]? = some task ∧
    task.phase = .pushed publication.message

/-- The mutex of the map is locked while a task holds it, and one task at most does. -/
def LockSound (tasks : List (Task Addr)) (locked : Bool) : Prop :=
  ∃ holder : Option Nat, locked = holder.isSome ∧
    (∀ i task, tasks[i]? = some task → task.HoldsMap → holder = some i) ∧
    ∀ i, holder = some i → ∃ task, tasks[i]? = some task ∧ task.HoldsMap

structure Sound (s : Server Addr) : Prop where
  task : ∀ i task, s.tasks[i]? = some task → TaskSound s.topics i task
  topic : ∀ name topic, s.topics name = some topic → TopicSound s.now s.tasks name topic
  lock : LockSound s.tasks s.locked

theorem sound_initial : Sound ({} : Server Addr) := by
  refine ⟨fun i task h => ?_, fun name topic h => ?_, none, rfl, fun i task h => ?_, nofun⟩
  · cases h
  · cases h
  · cases h

/-! ### Frames -/

/-- A change of a topic that its tasks do not see. -/
structure Topic.Extends (topic topic' : Topic Addr) : Prop where
  pushes : topic.pushes <+: topic'.pushes
  broadcasted : topic'.broadcasted = topic.broadcasted
  inFlight : topic.locked = true → topic'.locked = true ∧ topic'.pushes = topic.pushes

theorem Topic.Extends.refl (topic : Topic Addr) : topic.Extends topic :=
  ⟨List.prefix_rfl, rfl, fun h => ⟨h, rfl⟩⟩

theorem TaskSound.extend {topics topics' : String → Option (Topic Addr)} {i : Nat}
    {task : Task Addr} (h : TaskSound topics i task)
    (hext : ∀ topic, topics task.request.topic = some topic →
      ∃ topic', topics' task.request.topic = some topic' ∧ topic.Extends topic') :
    TaskSound topics' i task := by
  unfold TaskSound at h ⊢
  split at h
  · exact h
  · obtain ⟨hdata, topic, htopic⟩ := h
    obtain ⟨topic', htopic', -⟩ := hext topic htopic
    exact ⟨hdata, topic', htopic'⟩
  · obtain ⟨hdata, topic, htopic, hlocked, hlast⟩ := h
    obtain ⟨topic', htopic', hextends⟩ := hext topic htopic
    obtain ⟨hlocked', hpushes⟩ := hextends.inFlight hlocked
    exact ⟨hdata, topic', htopic', hlocked', hpushes ▸ hlast⟩
  · obtain ⟨hcommand, hwritten, topic, htopic⟩ := h
    obtain ⟨topic', htopic', -⟩ := hext topic htopic
    exact ⟨hcommand, hwritten, topic', htopic'⟩
  · obtain ⟨hcommand, hwritten, topic, htopic, hpending⟩ := h
    obtain ⟨topic', htopic', hextends⟩ := hext topic htopic
    exact ⟨hcommand, hwritten, topic', htopic', hextends.broadcasted ▸ hpending⟩
  · obtain ⟨hcommand, topic, htopic⟩ := h
    obtain ⟨topic', htopic', -⟩ := hext topic htopic
    exact ⟨hcommand, topic', htopic'⟩
  · intro hcommand
    obtain ⟨message, topic, hdata, htopic, hmem⟩ := h hcommand
    obtain ⟨topic', htopic', hextends⟩ := hext topic htopic
    exact ⟨message, topic', hdata, htopic', hextends.pushes.subset hmem⟩
  · exact h

/-- The tasks that have published on the topic stay what they are. -/
theorem TopicSound.tasks {now now' : Instant} {tasks tasks' : List (Task Addr)} {name : String}
    {topic : Topic Addr} (h : TopicSound now tasks name topic) (hnow : now ≤ now')
    (htasks : ∀ (i : Nat) (task : Task Addr), tasks[i]? = some task → task.request.topic = name →
      ((∃ message, task.phase = .pushed message) ∨ task.phase = .finished) →
      tasks'[i]? = some task) :
    TopicSound now' tasks' name topic := by
  refine ⟨h.log, h.ordered, fun entry hentry => Nat.le_trans (h.past entry hentry) hnow, h.nodup,
    ?_, ?_⟩
  · intro publication hmem
    obtain ⟨task, htask, hname, hphase⟩ := h.published publication hmem
    exact ⟨task, htasks _ task htask hname (hphase.imp (fun h => ⟨_, h⟩) id), hname, hphase⟩
  · intro hlocked
    obtain ⟨publication, task, hlast, htask, hphase⟩ := h.inFlight hlocked
    obtain ⟨same, hsame, hname, -⟩ := h.published publication (List.mem_of_getLast? hlast)
    obtain rfl : same = task := Option.some.inj (hsame.symm.trans htask)
    exact ⟨publication, same, hlast, htasks _ same htask hname (.inl ⟨_, hphase⟩), hphase⟩

theorem getElem?_setTask {tasks : List (Task Addr)} {i : Nat} {task : Task Addr}
    (htask : tasks[i]? = some task) (task' : Task Addr) (j : Nat) :
    (tasks.set i task')[j]? = if i = j then some task' else tasks[j]? := by
  obtain ⟨hi, -⟩ := List.getElem?_eq_some_iff.1 htask
  by_cases hij : i = j
  · subst hij
    simp [hi]
  · rw [List.getElem?_set_ne hij, if_neg hij]

theorem getElem?_concat_eq_some {tasks : List (Task Addr)} {new task : Task Addr} {i : Nat} :
    (tasks ++ [new])[i]? = some task ↔
      tasks[i]? = some task ∨ (i = tasks.length ∧ task = new) := by
  rw [List.getElem?_append]
  grind

theorem LockSound.setTask {tasks : List (Task Addr)} {locked : Bool} (h : LockSound tasks locked)
    {i : Nat} {task task' : Task Addr} (htask : tasks[i]? = some task)
    (hholds : task'.HoldsMap ↔ task.HoldsMap) : LockSound (tasks.set i task') locked := by
  obtain ⟨holder, hlocked, honly, hholder⟩ := h
  refine ⟨holder, hlocked, fun j other hother hmap => ?_, fun j hj => ?_⟩
  · rw [getElem?_setTask htask] at hother
    split at hother
    · rename_i hij
      cases hother
      exact hij ▸ honly i task htask (hholds.1 hmap)
    · exact honly j other hother hmap
  · obtain ⟨other, hother, hmap⟩ := hholder j hj
    rw [getElem?_setTask htask]
    split
    · rename_i hij
      subst hij
      rw [htask] at hother
      cases hother
      exact ⟨task', rfl, hholds.2 hmap⟩
    · exact ⟨other, hother, hmap⟩

/-- A step of one task that has not published yet. -/
theorem Sound.setTaskLock {s : Server Addr} (hs : Sound s) {i : Nat} {task : Task Addr}
    (task' : Task Addr) (htask : s.tasks[i]? = some task)
    (hphase : ¬ ((∃ message, task.phase = .pushed message) ∨ task.phase = .finished))
    (hsound : TaskSound s.topics i task') {locked : Bool}
    (hlock : LockSound (s.tasks.set i task') locked) :
    Sound { s.setTask i task' with locked } := by
  refine ⟨fun j other hother => ?_, fun name topic htopic => ?_, hlock⟩
  · dsimp only [Server.tasks_setTask] at hother
    rw [getElem?_setTask htask] at hother
    split at hother
    · rename_i hij
      cases hother
      exact hij ▸ hsound
    · exact hs.task j other hother
  · refine (hs.topic name topic htopic).tasks (Nat.le_refl _) fun j other hother _ hpublished => ?_
    dsimp only [Server.tasks_setTask]
    rw [getElem?_setTask htask]
    split
    · rename_i hij
      subst hij
      rw [htask] at hother
      cases hother
      exact absurd hpublished hphase
    · exact hother

theorem Sound.setTask {s : Server Addr} (hs : Sound s) {i : Nat} {task task' : Task Addr}
    (htask : s.tasks[i]? = some task)
    (hphase : ¬ ((∃ message, task.phase = .pushed message) ∨ task.phase = .finished))
    (hholds : task'.HoldsMap ↔ task.HoldsMap) (hsound : TaskSound s.topics i task') :
    Sound (s.setTask i task') :=
  hs.setTaskLock task' htask hphase hsound (hs.lock.setTask htask hholds)

/-- What the invariant says of a task whose phase is known. -/
theorem Sound.atPhase {s : Server Addr} (hs : Sound s) {i : Nat} {task : Task Addr}
    {phase : Phase Addr} (htask : s.tasks[i]? = some task) (hphase : task.phase = phase) :
    TaskSound s.topics i { task with phase } := by
  subst hphase
  exact hs.task i task htask

/-- A task that has pushed its entry holds the mutex of the log, and the entry is the one
the channel has yet to carry. -/
theorem Sound.pushes_of_pushed {s : Server Addr} (hs : Sound s) {i : Nat} {task : Task Addr}
    {message : CandidateStruct Addr} {topic : Topic Addr} (htask : s.tasks[i]? = some task)
    (hphase : task.phase = .pushed message)
    (htopic : s.topics task.request.topic = some topic) :
    topic.pushes = topic.broadcasted ++ [⟨i, message⟩] := by
  obtain ⟨-, same, hsame, hlocked, hlast⟩ := hs.atPhase htask hphase
  obtain rfl : same = topic := Option.some.inj (hsame.symm.trans htopic)
  rw [Topic.broadcasted, if_pos hlocked]
  exact (List.dropLast_append_getLast? _ hlast).symm

/-! ### Every turn keeps the invariant -/

/-- Creating a topic changes no other. -/
theorem Sound.ensureTopic {s : Server Addr} (hs : Sound s) (name : String) :
    Sound (s.ensureTopic name) := by
  unfold Server.ensureTopic
  split
  · exact hs
  · rename_i hnone
    refine ⟨fun i task htask => ?_, fun other topic htopic => ?_, hs.lock⟩
    · refine (hs.task i task htask).extend fun topic htopic => ⟨topic, ?_, .refl topic⟩
      rw [Server.topics_setTopic_of_ne, htopic]
      intro hname
      rw [hname, hnone] at htopic
      cases htopic
    · by_cases hname : other = name
      · subst hname
        rw [Server.topics_setTopic_self] at htopic
        cases htopic
        refine ⟨List.nil_suffix, .nil, ?_, List.nodup_nil, ?_, fun h => absurd h nofun⟩
        · intro entry hentry
          cases hentry
        · intro publication hmem
          cases hmem
      · rw [Server.topics_setTopic_of_ne _ hname] at htopic
        exact hs.topic other topic htopic

/-- The entries young enough to be kept are the last ones. -/
theorem retained_suffix (now : Instant) {log : List (Publication Addr × Instant)}
    (h : log.Pairwise fun entry later => entry.2 ≤ later.2) :
    (log.filter fun entry => now - entry.2 < expirationDuration) <:+ log := by
  induction log with
  | nil => exact List.suffix_rfl
  | cons entry log ih =>
    obtain ⟨hentry, hlog⟩ := List.pairwise_cons.1 h
    by_cases hkeep : now - entry.2 < expirationDuration
    · have hall : ∀ later ∈ entry :: log, decide (now - later.2 < expirationDuration) = true := by
        intro later hlater
        rw [decide_eq_true_eq]
        rcases List.mem_cons.1 hlater with rfl | hlater
        · exact hkeep
        · exact Nat.lt_of_le_of_lt (Nat.sub_le_sub_left (hentry later hlater) now) hkeep
      simpa only [List.filter_eq_self.2 hall] using List.suffix_rfl
    · rw [List.filter_cons_of_neg (by simpa using hkeep)]
      exact (ih hlog).trans (List.suffix_cons ..)

/-- The topic of a task that appends its entry to the log, now. -/
theorem TopicSound.push {now : Instant} {tasks tasks' : List (Task Addr)} {name : String}
    {topic : Topic Addr} (h : TopicSound now tasks name topic)
    {publication : Publication Addr} {task : Task Addr}
    (hnew : publication ∉ topic.pushes)
    (htask : tasks'[publication.publisher]? = some task) (hname : task.request.topic = name)
    (hphase : task.phase = .pushed publication.message)
    (hkeep : ∀ (j : Nat) (old : Task Addr), tasks[j]? = some old →
      ((∃ message, old.phase = .pushed message) ∨ old.phase = .finished) →
      tasks'[j]? = some old) :
    TopicSound now tasks' name { topic with
      locked := true
      log := topic.log ++ [(publication, now)]
      pushes := topic.pushes ++ [publication] } where
  log := by
    rw [List.map_append]
    exact List.suffix_append_self_iff.2 h.log
  ordered := by
    refine List.pairwise_append.2 ⟨h.ordered, List.pairwise_singleton .., ?_⟩
    intro entry hentry later hlater
    cases List.mem_singleton.1 hlater
    exact h.past entry hentry
  past := by
    intro entry hentry
    rcases List.mem_append.1 hentry with hentry | hentry
    · exact h.past entry hentry
    · cases List.mem_singleton.1 hentry
      exact Nat.le_refl _
  nodup := by
    refine List.nodup_append.2 ⟨h.nodup, List.pairwise_singleton .., ?_⟩
    rintro other hother same hsame rfl
    cases List.mem_singleton.1 hsame
    exact hnew hother
  published := by
    intro other hmem
    rcases List.mem_append.1 hmem with hmem | hmem
    · obtain ⟨old, hold, holdname, hpublished⟩ := h.published other hmem
      exact ⟨old, hkeep _ old hold (hpublished.imp (fun h => ⟨_, h⟩) id), holdname, hpublished⟩
    · cases List.mem_singleton.1 hmem
      exact ⟨task, htask, hname, .inl hphase⟩
  inFlight _ := by
    refine ⟨publication, task, ?_, htask, hphase⟩
    rw [List.getLast?_append, List.getLast?_singleton]
    rfl

theorem Sound.push {s : Server Addr} (hs : Sound s) {i : Nat} {task : Task Addr}
    {message : CandidateStruct Addr} {topic : Topic Addr} (htask : s.tasks[i]? = some task)
    (hphase : task.phase = .publishing message)
    (htopic : s.topics task.request.topic = some topic) (hfree : topic.locked = false) :
    Sound ((s.setTopic task.request.topic
      { topic with
        locked := true
        log := topic.log ++ [(⟨i, message⟩, s.now)]
        pushes := topic.pushes ++ [⟨i, message⟩] }).setTask i
      { task with phase := .pushed message }) := by
  set topic' : Topic Addr := { topic with
    locked := true
    log := topic.log ++ [(⟨i, message⟩, s.now)]
    pushes := topic.pushes ++ [⟨i, message⟩] } with htopic'
  obtain ⟨hdata, -⟩ := hs.atPhase htask hphase
  have hset := fun j => getElem?_setTask htask { task with phase := .pushed message } j
  refine ⟨fun j other hother => ?_, fun name other hother => ?_, ?_⟩
  · rw [Server.tasks_setTask, Server.tasks_setTopic, hset] at hother
    rw [Server.topics_setTask]
    split at hother
    · rename_i hij
      cases hother
      subst hij
      refine ⟨hdata, topic', Server.topics_setTopic_self .., rfl, ?_⟩
      rw [htopic', List.getLast?_append, List.getLast?_singleton]
      rfl
    · refine (hs.task j other hother).extend fun t ht => ?_
      by_cases hname : other.request.topic = task.request.topic
      · rw [hname] at ht ⊢
        rw [htopic] at ht
        cases ht
        refine ⟨topic', Server.topics_setTopic_self .., List.prefix_append .., ?_, ?_⟩
        · rw [Topic.broadcasted_of_free hfree, Topic.broadcasted, if_pos rfl,
            List.dropLast_concat]
        · intro hlocked
          exact absurd (hfree.symm.trans hlocked) Bool.false_ne_true
      · exact ⟨t, (Server.topics_setTopic_of_ne _ hname _).trans ht, .refl t⟩
  · rw [Server.topics_setTask] at hother
    have hkeep : ∀ (j : Nat) (old : Task Addr), s.tasks[j]? = some old →
        ((∃ message, old.phase = .pushed message) ∨ old.phase = .finished) →
        (s.tasks.set i { task with phase := .pushed message })[j]? = some old := by
      intro j old hjold hpublished
      rw [hset, if_neg]
      · exact hjold
      · rintro rfl
        rw [htask] at hjold
        cases hjold
        simp [hphase] at hpublished
    by_cases hname : name = task.request.topic
    · subst hname
      rw [Server.topics_setTopic_self] at hother
      cases hother
      have hold := hs.topic _ topic htopic
      refine hold.push ?_ ((hset i).trans (if_pos rfl)) rfl rfl hkeep
      intro hmem
      obtain ⟨old, hjold, -, hpublished⟩ := hold.published _ hmem
      rw [htask] at hjold
      cases hjold
      simp [hphase] at hpublished
    · rw [Server.topics_setTopic_of_ne _ hname] at hother
      exact (hs.topic name other hother).tasks (Nat.le_refl _)
        fun j old hjold _ => hkeep j old hjold
  · exact hs.lock.setTask htask (by simp [Task.HoldsMap, hphase])

theorem Receiver.pending_push (capacity : Nat) (rx : Receiver Addr) (message : Publication Addr) :
    (rx.push capacity message).pending <:+ rx.pending ++ [message] := by
  unfold Receiver.push
  split
  · exact List.suffix_rfl
  · exact List.tail_suffix _

@[simp] theorem Task.request_receive (capacity : Nat) (task : Task Addr)
    (message : Publication Addr) : (task.receive capacity message).request = task.request := by
  unfold Task.receive
  split <;> rfl

/-- A message changes nothing but the receiver of a task. -/
theorem Task.receive_of_published {capacity : Nat} {task : Task Addr} {message : Publication Addr}
    (h : (∃ message, task.phase = .pushed message) ∨ task.phase = .finished) :
    task.receive capacity message = task := by
  unfold Task.receive
  rcases h with ⟨_, h⟩ | h
  · rw [h]
  · rw [h]

theorem Task.holdsMap_receive {capacity : Nat} {task : Task Addr} {message : Publication Addr}
    (h : (task.receive capacity message).HoldsMap) : task.HoldsMap := by
  unfold Task.receive at h
  split at h
  · exact h.elim
  · exact h.elim
  · exact h

theorem TaskSound.receive {topics : String → Option (Topic Addr)} {capacity i : Nat}
    {task : Task Addr} {message : Publication Addr} (h : TaskSound topics i task)
    (hpushed : ∀ message, task.phase ≠ .pushed message) {topic : Topic Addr}
    (htopic : topics task.request.topic = some topic)
    (hlast : topic.pushes = topic.broadcasted ++ [message]) :
    TaskSound
      (Function.update topics task.request.topic (some { topic with locked := false })) i
      (task.receive capacity message) := by
  unfold TaskSound at h
  unfold Task.receive
  split at h
  · rename_i hphase
    simpa [TaskSound, hphase] using h
  · rename_i hphase
    simpa [TaskSound, hphase] using h.1
  · rename_i hphase
    exact absurd hphase (hpushed _)
  · rename_i hphase
    simpa [TaskSound, hphase] using ⟨h.1, h.2.1⟩
  · rename_i rx hphase
    obtain ⟨hcommand, hwritten, old, hold, hpending⟩ := h
    rw [htopic] at hold
    cases hold
    rw [hphase]
    refine ⟨hcommand, hwritten, _, Function.update_self .., ?_⟩
    rw [Topic.broadcasted_of_free rfl]
    dsimp only
    rw [hlast]
    exact (rx.pending_push capacity message).trans (List.suffix_append_self_iff.2 hpending)
  · rename_i hphase
    simpa [TaskSound, hphase] using h.1
  · rename_i hphase
    rw [hphase]
    dsimp only
    unfold TaskSound
    rw [hphase]
    intro hcommand
    obtain ⟨own, old, hdata, hold, hmem⟩ := h hcommand
    rw [htopic] at hold
    cases hold
    exact ⟨own, _, hdata, Function.update_self .., hmem⟩
  · rename_i hphase
    simpa [TaskSound, hphase] using h

/-- The topic of a task that has sent its entry and releases the mutex of the log. -/
theorem TopicSound.release {now : Instant} {tasks tasks' : List (Task Addr)} {name : String}
    {topic : Topic Addr} (h : TopicSound now tasks name topic) {i : Nat} {task : Task Addr}
    (htask : tasks'[i]? = some task) (hname : task.request.topic = name)
    (hphase : task.phase = .finished)
    (hkeep : ∀ (j : Nat) (old : Task Addr), i ≠ j → tasks[j]? = some old →
      ((∃ message, old.phase = .pushed message) ∨ old.phase = .finished) →
      tasks'[j]? = some old) :
    TopicSound now tasks' name { topic with locked := false } := by
  refine ⟨h.log, h.ordered, h.past, h.nodup, fun publication hmem => ?_, fun h => absurd h nofun⟩
  obtain ⟨old, hold, holdname, hpublished⟩ := h.published publication hmem
  by_cases hij : i = publication.publisher
  · exact ⟨task, hij ▸ htask, hname, .inr hphase⟩
  · exact ⟨old, hkeep _ old hij hold (hpublished.imp (fun h => ⟨_, h⟩) id), holdname, hpublished⟩

theorem Sound.send {s : Server Addr} (hs : Sound s) {capacity i : Nat} {task : Task Addr}
    {message : CandidateStruct Addr} {topic : Topic Addr} (htask : s.tasks[i]? = some task)
    (hphase : task.phase = .pushed message)
    (htopic : s.topics task.request.topic = some topic) :
    Sound { ((s.broadcast capacity task.request.topic ⟨i, message⟩).setTopic task.request.topic
      { topic with locked := false }).setTask i { task with phase := .finished } with
      locked := false } := by
  obtain ⟨hdata, -⟩ := hs.atPhase htask hphase
  have hpushes := hs.pushes_of_pushed htask hphase htopic
  -- the other tasks, which may have received the message
  set f : Task Addr → Task Addr := fun other =>
    if other.request.topic = task.request.topic then other.receive capacity ⟨i, message⟩ else other
    with hf
  have hset : ∀ j, ((s.tasks.map f).set i { task with phase := .finished })[j]? =
      if i = j then some { task with phase := .finished } else s.tasks[j]?.map f := by
    intro j
    have hmap : (s.tasks.map f)[i]? = some (f task) := by rw [List.getElem?_map, htask]; rfl
    rw [getElem?_setTask hmap, List.getElem?_map]
  obtain ⟨holder, -, hholder, -⟩ := hs.lock
  have honly : ∀ j other, s.tasks[j]? = some other → other.HoldsMap → i = j := by
    intro j other hother hmap
    exact Option.some.inj ((hholder i task htask (Task.holdsMap_of_pushed hphase)).symm.trans
      (hholder j other hother hmap))
  have hkeep : ∀ (j : Nat) (old : Task Addr), i ≠ j → s.tasks[j]? = some old →
      ((∃ message, old.phase = .pushed message) ∨ old.phase = .finished) →
      ((s.tasks.map f).set i { task with phase := .finished })[j]? = some old := by
    intro j old hij hold hpublished
    rw [hset, if_neg hij, hold, Option.map_some, hf]
    dsimp only
    rw [Task.receive_of_published hpublished, ite_self]
  refine ⟨fun j other hother => ?_, fun name other hother => ?_, none, rfl, ?_, nofun⟩
  · have hother' := (hset j).symm.trans hother
    change TaskSound (Function.update s.topics task.request.topic
      (some { topic with locked := false })) j other
    split at hother'
    · rename_i hij
      cases hother'
      subst hij
      intro _
      refine ⟨message, _, hdata, Function.update_self .., ?_⟩
      rw [hpushes]
      exact List.mem_append_right _ List.mem_cons_self
    · rename_i hij
      obtain ⟨old, hold, rfl⟩ := Option.map_eq_some_iff.1 hother'
      have hsound := hs.task j old hold
      rw [hf]
      dsimp only
      split
      · rename_i hname
        rw [← hname] at htopic ⊢
        refine hsound.receive (fun other hpushed => ?_) htopic hpushes
        exact hij (honly j old hold (Task.holdsMap_of_pushed hpushed))
      · rename_i hname
        exact hsound.extend fun t ht => ⟨t, (Function.update_of_ne hname ..).trans ht, .refl t⟩
  · by_cases hname : name = task.request.topic
    · subst hname
      change Function.update s.topics task.request.topic (some { topic with locked := false })
        task.request.topic = some other at hother
      rw [Function.update_self] at hother
      cases hother
      exact (hs.topic _ topic htopic).release ((hset i).trans (if_pos rfl)) rfl rfl hkeep
    · change Function.update s.topics task.request.topic (some { topic with locked := false })
        name = some other at hother
      rw [Function.update_of_ne hname] at hother
      refine (hs.topic name other hother).tasks (Nat.le_refl _) fun j old hold holdname => ?_
      apply hkeep j old _ hold
      rintro rfl
      rw [htask] at hold
      cases hold
      exact hname holdname.symm
  · intro j other hother hmap
    have hother' := (hset j).symm.trans hother
    split at hother'
    · cases hother'
      exact hmap.elim
    · rename_i hij
      obtain ⟨old, hold, rfl⟩ := Option.map_eq_some_iff.1 hother'
      refine absurd (honly j old hold ?_) hij
      rw [hf] at hmap
      dsimp only at hmap
      split at hmap
      · exact Task.holdsMap_receive hmap
      · exact hmap

/-- The log of a topic loses its oldest entries. -/
theorem Sound.tick {s : Server Addr} (hs : Sound s) {name : String} {topic : Topic Addr}
    (htopic : s.topics name = some topic) (cleanup : Option Instant) :
    Sound (s.setTopic name
      { topic with
        log := topic.log.filter fun entry => s.now - entry.2 < expirationDuration
        cleanup }) := by
  have hold := hs.topic name topic htopic
  have hsuffix := retained_suffix s.now hold.ordered
  refine ⟨fun i task htask => ?_, fun other topic' htopic' => ?_, hs.lock⟩
  · refine (hs.task i task htask).extend fun t ht => ?_
    by_cases hname : task.request.topic = name
    · rw [hname, htopic] at ht
      cases ht
      rw [hname]
      exact ⟨_, s.topics_setTopic_self .., List.prefix_rfl, rfl, fun h => ⟨h, rfl⟩⟩
    · exact ⟨t, (s.topics_setTopic_of_ne hname _).trans ht, .refl t⟩
  · by_cases hname : other = name
    · subst hname
      rw [s.topics_setTopic_self] at htopic'
      cases htopic'
      exact ⟨(hsuffix.map Prod.fst).trans hold.log, hold.ordered.sublist hsuffix.sublist,
        fun entry hentry => hold.past entry (hsuffix.subset hentry), hold.nodup, hold.published,
        hold.inFlight⟩
    · rw [s.topics_setTopic_of_ne hname] at htopic'
      exact hs.topic other topic' htopic'

theorem Sound.connect {s : Server Addr} (hs : Sound s) (request : Message Addr) :
    Sound { s with tasks := s.tasks ++ [{ request }] } := by
  refine ⟨fun i task htask => ?_, fun name topic htopic => ?_, ?_⟩
  · rcases getElem?_concat_eq_some.1 htask with htask | ⟨-, rfl⟩
    · exact hs.task i task htask
    · rfl
  · refine (hs.topic name topic htopic).tasks (Nat.le_refl _) fun i task htask _ _ => ?_
    exact getElem?_concat_eq_some.2 (.inl htask)
  · obtain ⟨holder, hlocked, honly, hholder⟩ := hs.lock
    refine ⟨holder, hlocked, fun i task htask hmap => ?_, fun i hi => ?_⟩
    · rcases getElem?_concat_eq_some.1 htask with htask | ⟨-, rfl⟩
      · exact honly i task htask hmap
      · exact hmap.elim
    · obtain ⟨task, htask, hmap⟩ := hholder i hi
      exact ⟨task, getElem?_concat_eq_some.2 (.inl htask), hmap⟩

theorem Sound.publish {s : Server Addr} (hs : Sound s) {i : Nat} {task : Task Addr}
    {message : CandidateStruct Addr} (htask : s.tasks[i]? = some task)
    (hphase : task.phase = .received) (hlocked : s.locked = false)
    (hdata : task.request.data = some message) :
    Sound { (s.ensureTopic task.request.topic).setTask i
      { task with phase := .publishing message } with locked := true } := by
  have hs' := hs.ensureTopic task.request.topic
  have htask' : (s.ensureTopic task.request.topic).tasks[i]? = some task := by
    rw [Server.tasks_ensureTopic]
    exact htask
  refine hs'.setTaskLock { task with phase := .publishing message } htask' (by simp [hphase])
    ⟨hdata, s.exists_topic_ensureTopic _⟩
    ⟨some i, rfl, fun j other hother hmap => ?_, fun j hj => ?_⟩
  · rw [getElem?_setTask htask'] at hother
    split at hother
    · rename_i hij
      exact congrArg some hij
    · obtain ⟨holder, hholder, hholds, -⟩ := hs'.lock
      rw [Server.locked_ensureTopic, hlocked] at hholder
      rw [hholds j other hother hmap] at hholder
      cases hholder
  · cases hj
    rw [getElem?_setTask htask', if_pos rfl]
    exact ⟨_, rfl, trivial⟩

theorem Sound.turn {s s' : Server Addr} {capacity : Nat} {event : Event Addr} (hs : Sound s)
    (h : Server.Turn capacity s event s') : Sound s' := by
  cases h with
  | idle => exact hs
  | connect request => exact hs.connect request
  | finish htask hphase hcommand =>
    exact hs.setTask htask (by simp [hphase]) (by simp [Task.HoldsMap, hphase])
      fun h => absurd h hcommand
  | panic htask hphase hcommand hdata =>
    exact hs.setTask htask (by simp [hphase]) (by simp [Task.HoldsMap, hphase]) ⟨hcommand, hdata⟩
  | publish htask hphase hlocked _ hdata => exact hs.publish htask hphase hlocked hdata
  | @find i task htask hphase _ hcommand =>
    have hwritten := hs.atPhase htask hphase
    refine (hs.ensureTopic _).setTask ((congrArg (·[i]?) (s.tasks_ensureTopic _)).trans htask)
      (by simp [hphase]) (by simp [Task.HoldsMap, hphase]) ?_
    exact ⟨hcommand, hwritten, s.exists_topic_ensureTopic _⟩
  | push htask hphase htopic hfree => exact hs.push htask hphase htopic hfree
  | send htask hphase htopic => exact hs.send htask hphase htopic
  | @subscribe i task htask hphase =>
    obtain ⟨hcommand, hwritten, topic, htopic⟩ := hs.atPhase htask hphase
    exact hs.setTask htask (by simp [hphase]) (by simp [Task.HoldsMap, hphase])
      ⟨hcommand, hwritten, topic, htopic, List.nil_suffix⟩
  | @clone i task rx topic htask hphase htopic hfree =>
    obtain ⟨hcommand, -⟩ := hs.atPhase htask hphase
    exact hs.setTask htask (by simp [hphase]) (by simp [Task.HoldsMap, hphase])
      ⟨hcommand, topic, htopic⟩
  | @replay i task message log rx htask hphase =>
    have hself := hs.atPhase htask hphase
    exact hs.setTask htask (by simp [hphase]) (by simp [Task.HoldsMap, hphase]) hself
  | @overflow i task rx htask hphase _ =>
    have hself := hs.atPhase htask hphase
    exact hs.setTask htask (by simp [hphase]) (by simp [Task.HoldsMap, hphase]) hself
  | @receive i task rx message pending htask hphase _ _ =>
    have hself := hs.atPhase htask hphase
    exact hs.setTask htask (by simp [hphase]) (by simp [Task.HoldsMap, hphase]) hself
  | @disconnect i task log rx htask hphase =>
    obtain ⟨hsubscribe, -⟩ := hs.atPhase htask hphase
    refine hs.setTask htask (by simp [hphase]) (by simp [Task.HoldsMap, hphase]) fun hcommand => ?_
    exact absurd (hsubscribe.symm.trans hcommand) (by decide)
  | tick htopic cleanup => exact hs.tick htopic cleanup
  | elapse duration =>
    refine ⟨hs.task, fun name topic htopic => ?_, hs.lock⟩
    exact (hs.topic name topic htopic).tasks (Nat.le_add_right ..) fun _ _ htask _ _ => htask

theorem sound_after (capacity : Nat) (events : List (Event Addr)) :
    Sound (Server.after capacity events) :=
  Run.invariant (fun s event hs => hs.turn (Server.turn_step capacity s event)) sound_initial events

end RtFogros.Signaling
