import RtFogros.Signaling.Turns
import RtFogros.Signaling.Json

/-!
# Replay and broadcast

A subscriber makes its receiver first and clones the log after, so an entry that is broadcast in
between reaches it twice.  When none is, it is sent each entry at most once and in the order of the
pushes (`sent_once_in_order`).

What a subscriber was sent and is yet to be sent is one list, its clone of the log followed by what
its receiver took, and `Ordered` says that this list stays within what was pushed, in order.  The
log and the receiver overlap exactly in what was broadcast between the two steps, which is the
condition.
-/

namespace RtFogros.Signaling

variable {Addr : Type}

/-- What a subscriber was sent and is yet to be sent. -/
def Task.delivery (task : Task Addr) : List (Publication Addr) :=
  match task.phase with
  | .streaming log rx => task.written ++ log ++ rx.pending
  | _ => task.written

theorem Task.written_sublist_delivery (task : Task Addr) :
    task.written.Sublist task.delivery := by
  unfold Task.delivery
  split
  · rw [List.append_assoc]
    exact List.sublist_append_left ..
  · exact List.Sublist.refl _

/-- A subscriber that clones the log has received nothing yet, or the log is empty. -/
def Phase.Separate : Phase Addr → Option (Topic Addr) → Prop
  | .subscribed rx, some topic => topic.locked = false → rx.pending = [] ∨ topic.log = []
  | _, _ => True

instance Phase.Separate.decidable :
    (phase : Phase Addr) → (topic : Option (Topic Addr)) → Decidable (phase.Separate topic)
  | .subscribed _, some _ => inferInstanceAs (Decidable (_ → _ ∨ _))
  | .subscribed _, none | .received, _ | .publishing _, _ | .pushed _, _ | .found, _
  | .streaming _ _, _ | .finished, _ | .panicked, _ => .isTrue trivial

namespace Server

def pushes (s : Server Addr) (name : String) : List (Publication Addr) :=
  match s.topics name with
  | some topic => topic.pushes
  | none => []

def broadcasted (s : Server Addr) (name : String) : List (Publication Addr) :=
  match s.topics name with
  | some topic => topic.broadcasted
  | none => []

def Separate (s : Server Addr) : Event Addr → Prop
  | .run i => ∀ task ∈ s.tasks[i]?, task.phase.Separate (s.topics task.request.topic)
  | _ => True

instance Separate.decidable (s : Server Addr) : (event : Event Addr) → Decidable (s.Separate event)
  | .run _ => inferInstanceAs (Decidable (∀ task ∈ _, Phase.Separate _ _))
  | .connect _ | .disconnect _ | .tick _ | .elapse _ => .isTrue trivial

theorem Separate.clone {s : Server Addr} {i : Nat} {task : Task Addr} {rx : Receiver Addr}
    {topic : Topic Addr} (h : s.Separate (.run i)) (htask : s.tasks[i]? = some task)
    (hphase : task.phase = .subscribed rx) (htopic : s.topics task.request.topic = some topic)
    (hfree : topic.locked = false) : rx.pending = [] ∨ topic.log = [] := by
  have hseparate := h task htask
  rw [hphase, htopic] at hseparate
  exact hseparate hfree

theorem broadcasted_of_topic {s : Server Addr} {name : String} {topic : Topic Addr}
    (h : s.topics name = some topic) : s.broadcasted name = topic.broadcasted := by
  unfold broadcasted
  rw [h]

theorem broadcasted_sublist_pushes (s : Server Addr) (name : String) :
    (s.broadcasted name).Sublist (s.pushes name) := by
  unfold broadcasted pushes
  split
  · unfold Topic.broadcasted
    split
    · exact List.dropLast_sublist _
    · exact List.Sublist.refl _
  · exact List.Sublist.refl _

theorem broadcasted_setTopic (s : Server Addr) (name : String) (topic : Topic Addr)
    (other : String) :
    (s.setTopic name topic).broadcasted other =
      if other = name then topic.broadcasted else s.broadcasted other := by
  split
  · rename_i hname
    rw [hname, broadcasted_of_topic (s.topics_setTopic_self ..)]
  · rename_i hname
    unfold broadcasted
    rw [s.topics_setTopic_of_ne hname]

/-- Replacing a topic by one that has broadcast the same. -/
theorem broadcasted_setTopic_of_eq {s : Server Addr} {name : String} {topic : Topic Addr}
    (topic' : Topic Addr) (htopic : s.topics name = some topic)
    (hsame : topic'.broadcasted = topic.broadcasted) (other : String) :
    (s.setTopic name topic').broadcasted other = s.broadcasted other := by
  rw [broadcasted_setTopic]
  split
  · rename_i hname
    rw [hsame, hname, broadcasted_of_topic htopic]
  · rfl

@[simp] theorem broadcasted_ensureTopic (s : Server Addr) (name other : String) :
    (s.ensureTopic name).broadcasted other = s.broadcasted other := by
  unfold ensureTopic
  split
  · rfl
  · rename_i hnone
    rw [broadcasted_setTopic]
    split
    · rename_i hname
      unfold broadcasted
      rw [hname, hnone]
      rfl
    · rfl

end Server

theorem Sound.pushes_nodup {s : Server Addr} (hs : Sound s) (name : String) :
    (s.pushes name).Nodup := by
  unfold Server.pushes
  split
  · rename_i topic htopic
    exact (hs.topic name topic htopic).nodup
  · exact List.nodup_nil

/-- Once its log is released, all that was pushed is broadcast. -/
theorem Topic.broadcasted_release (topic : Topic Addr) :
    ({ topic with locked := false } : Topic Addr).broadcasted = topic.pushes :=
  Topic.broadcasted_of_free rfl

/-- An entry in the log is not broadcast yet. -/
theorem Topic.broadcasted_push {topic : Topic Addr} (hfree : topic.locked = false)
    (log : List (Publication Addr × Instant)) (publication : Publication Addr) :
    ({ topic with locked := true, log, pushes := topic.pushes ++ [publication] } :
      Topic Addr).broadcasted = topic.broadcasted := by
  rw [Topic.broadcasted_of_free hfree, Topic.broadcasted, if_pos rfl, List.dropLast_concat]

theorem Topic.broadcasted_retain (topic : Topic Addr) (log : List (Publication Addr × Instant))
    (cleanup : Option Instant) :
    ({ topic with log, cleanup } : Topic Addr).broadcasted = topic.broadcasted := rfl

/-- What a subscriber is sent stays within what was broadcast, in order. -/
def Ordered (s : Server Addr) : Prop :=
  ∀ (i : Nat) (task : Task Addr), s.tasks[i]? = some task →
    task.delivery.Sublist (s.broadcasted task.request.topic)

theorem ordered_initial : Ordered ({} : Server Addr) := by
  intro i task htask
  cases htask

/-- Each task is sent no more than before, unless its new delivery is in order. -/
theorem Ordered.frame {s s' : Server Addr} (h : Ordered s)
    (hgrows : ∀ name, (s.broadcasted name).Sublist (s'.broadcasted name))
    (htasks : ∀ (i : Nat) (task' : Task Addr), s'.tasks[i]? = some task' →
      task'.delivery.Sublist (s'.broadcasted task'.request.topic) ∨
      ∃ task, s.tasks[i]? = some task ∧ task'.request = task.request ∧
        task'.delivery.Sublist task.delivery) : Ordered s' := by
  intro i task' htask'
  rcases htasks i task' htask' with hordered | ⟨task, htask, hrequest, hdelivery⟩
  · exact hordered
  · rw [hrequest]
    exact hdelivery.trans ((h i task htask).trans (hgrows _))

theorem Ordered.setTask {s s' : Server Addr} (h : Ordered s) {i : Nat} {task : Task Addr}
    (task' : Task Addr) (htask : s.tasks[i]? = some task) (hs' : s'.tasks = s.tasks.set i task')
    (hgrows : ∀ name, (s.broadcasted name).Sublist (s'.broadcasted name))
    (hrequest : task'.request = task.request)
    (hdelivery : task'.delivery.Sublist (s'.broadcasted task.request.topic) ∨
      task'.delivery.Sublist task.delivery) : Ordered s' := by
  refine h.frame hgrows fun j other hother => ?_
  rw [hs', getElem?_setTask htask] at hother
  split at hother
  · rename_i hij
    cases hother
    subst hij
    rw [hrequest]
    rcases hdelivery with hdelivery | hdelivery
    · exact .inl hdelivery
    · exact .inr ⟨task, htask, rfl, hdelivery⟩
  · exact .inr ⟨other, hother, rfl, List.Sublist.refl _⟩

/-- A message goes behind what a task is yet to be sent. -/
theorem Task.delivery_receive (capacity : Nat) (task : Task Addr) (message : Publication Addr) :
    (task.receive capacity message).delivery.Sublist (task.delivery ++ [message]) := by
  unfold Task.receive Task.delivery
  cases hphase : task.phase with
  | streaming log rx =>
    dsimp only
    rw [List.append_assoc _ rx.pending]
    exact (rx.pending_push capacity message).sublist.append_left _
  | _ => simp [hphase]

theorem Ordered.send {s : Server Addr} (h : Ordered s) {capacity i : Nat} {task : Task Addr}
    {message : CandidateStruct Addr} {topic : Topic Addr} (hs : Sound s)
    (htask : s.tasks[i]? = some task) (hphase : task.phase = .pushed message)
    (htopic : s.topics task.request.topic = some topic) :
    Ordered { ((s.broadcast capacity task.request.topic ⟨i, message⟩).setTopic task.request.topic
      { topic with locked := false }).setTask i { task with phase := .finished } with
      locked := false } := by
  have hpushes := hs.pushes_of_pushed htask hphase htopic
  have hgrows : ∀ name, (s.broadcasted name).Sublist
      ((s.setTopic task.request.topic { topic with locked := false }).broadcasted name) := by
    intro name
    rw [Server.broadcasted_setTopic]
    split
    · rename_i hname
      rw [Topic.broadcasted_release, hpushes, hname, Server.broadcasted_of_topic htopic]
      exact List.sublist_append_left ..
    · exact List.Sublist.refl _
  refine h.frame hgrows fun j other hother => ?_
  change ((s.tasks.map _).set i _)[j]? = some other at hother
  rw [getElem?_setTask (by rw [List.getElem?_map, htask]; rfl), List.getElem?_map] at hother
  split at hother
  · rename_i hij
    cases hother
    subst hij
    refine .inr ⟨task, htask, rfl, ?_⟩
    simp [Task.delivery, hphase]
  · obtain ⟨old, hold, rfl⟩ := Option.map_eq_some_iff.1 hother
    split
    · rename_i hname
      left
      rw [Task.request_receive, hname]
      change List.Sublist _ (Server.broadcasted (s.setTopic _ _) _)
      rw [Server.broadcasted_setTopic, if_pos rfl, Topic.broadcasted_release, hpushes,
        ← Server.broadcasted_of_topic htopic, ← hname]
      exact (Task.delivery_receive capacity old _).trans ((h j old hold).append_right _)
    · exact .inr ⟨old, hold, rfl, List.Sublist.refl _⟩

theorem Ordered.turn {s s' : Server Addr} {capacity : Nat} {event : Event Addr} (h : Ordered s)
    (hs : Sound s) (hseparate : Server.Separate s event)
    (hturn : Server.Turn capacity s event s') : Ordered s' := by
  have hrefl : ∀ name, (s.broadcasted name).Sublist (s.broadcasted name) :=
    fun _ => List.Sublist.refl _
  cases hturn with
  | idle => exact h
  | connect request =>
    refine h.frame hrefl fun i task htask => ?_
    rcases getElem?_concat_eq_some.1 htask with htask | ⟨-, rfl⟩
    · exact .inr ⟨task, htask, rfl, List.Sublist.refl _⟩
    · exact .inl (List.nil_sublist _)
  | finish htask hphase =>
    exact h.setTask _ htask rfl hrefl rfl (.inr (by simp [Task.delivery, hphase]))
  | panic htask hphase =>
    exact h.setTask _ htask rfl hrefl rfl (.inr (by simp [Task.delivery, hphase]))
  | @publish i task message htask hphase =>
    refine h.setTask { task with phase := .publishing message } htask (by simp)
      (fun name => ?_) rfl (.inr (by simp [Task.delivery, hphase]))
    exact (s.broadcasted_ensureTopic ..).symm ▸ hrefl name
  | @find i task htask hphase =>
    refine h.setTask { task with phase := .found } htask (by simp)
      (fun name => ?_) rfl (.inr (by simp [Task.delivery, hphase]))
    exact (s.broadcasted_ensureTopic ..).symm ▸ hrefl name
  | push htask hphase htopic hfree =>
    refine h.setTask _ htask rfl (fun name => ?_) rfl (.inr (by simp [Task.delivery, hphase]))
    change List.Sublist _ ((s.setTopic _ _).broadcasted name)
    rw [Server.broadcasted_setTopic_of_eq _ htopic (Topic.broadcasted_push hfree ..)]
  | send htask hphase htopic => exact h.send hs htask hphase htopic
  | subscribe htask hphase =>
    exact h.setTask _ htask rfl hrefl rfl (.inr (by simp [Task.delivery, hphase]))
  | @clone i task rx topic htask hphase htopic hfree =>
    refine h.setTask _ htask rfl hrefl rfl (.inl ?_)
    obtain ⟨-, hwritten, same, hsame, hpending⟩ := hs.atPhase htask hphase
    obtain rfl : same = topic := Option.some.inj (hsame.symm.trans htopic)
    have hlog := (hs.topic _ same htopic).log
    change List.Sublist (task.written ++ same.log.map Prod.fst ++ rx.pending) (s.broadcasted _)
    rw [hwritten, Server.broadcasted_of_topic htopic, List.nil_append]
    rcases hseparate.clone htask hphase htopic hfree with hnone | hnone
    · rw [hnone, List.append_nil, Topic.broadcasted_of_free hfree]
      exact hlog.sublist
    · rw [hnone]
      exact hpending.sublist
  | replay htask hphase =>
    exact h.setTask _ htask rfl hrefl rfl (.inr (by simp [Task.delivery, hphase]))
  | overflow htask hphase =>
    exact h.setTask _ htask rfl hrefl rfl (.inr (by simp [Task.delivery, hphase]))
  | receive htask hphase _ hpending =>
    exact h.setTask _ htask rfl hrefl rfl (.inr (by simp [Task.delivery, hphase, hpending]))
  | disconnect htask hphase =>
    exact h.setTask _ htask rfl hrefl rfl (.inr (by simp [Task.delivery, hphase]))
  | tick htopic cleanup =>
    refine h.frame (fun name => ?_)
      fun i task htask => .inr ⟨task, htask, rfl, List.Sublist.refl _⟩
    rw [Server.broadcasted_setTopic_of_eq _ htopic (Topic.broadcasted_retain ..)]
  | elapse duration =>
    exact h.frame hrefl fun i task htask => .inr ⟨task, htask, rfl, List.Sublist.refl _⟩

/-- **Main result.**  In every run in which no publication is broadcast to a subscriber
between its `sender.subscribe()` and its clone of the log, unless the log has expired by
then, every subscriber is sent each published entry at most once, in the order of the
pushes. -/
theorem sent_once_in_order {capacity : Nat} {events : List (Event Addr)}
    (hseparate : Run.Throughout (Server.step capacity) Server.Separate {} events) {i : Nat}
    {task : Task Addr} (htask : (Server.after capacity events).tasks[i]? = some task) :
    task.written.Nodup ∧
      task.written.Sublist ((Server.after capacity events).pushes task.request.topic) := by
  have hordered : Sound (Server.after capacity events) ∧ Ordered (Server.after capacity events) :=
    hseparate.invariant (fun s => Sound s ∧ Ordered s)
      (fun s event hs hevent =>
        have hturn := Server.turn_step capacity s event
        ⟨hs.1.turn hturn, hs.2.turn hs.1 hevent hturn⟩)
      ⟨sound_initial, ordered_initial⟩
  have hsublist := (hordered.2 i task htask).trans (Server.broadcasted_sublist_pushes ..)
  have hwritten := task.written_sublist_delivery.trans hsublist
  exact ⟨(hordered.1.pushes_nodup _).sublist hwritten, hwritten⟩

def rendezvousTopic : String := "topic-PUB"

def entry : CandidateStruct SocketAddrV4 := ⟨⟨#v[41, 42, 43, 44]⟩, [⟨#v[10, 0, 0, 3], 4002⟩]⟩

/-- A subscriber finds the topic and one publisher comes. -/
def bothConnected : List (Event SocketAddrV4) :=
  [.connect ⟨"SUBSCRIBE", rendezvousTopic, none⟩, .connect ⟨"PUBLISH", rendezvousTopic, some entry⟩,
    .run 0, .run 0]

def published : List (Event SocketAddrV4) := [.run 1, .run 1, .run 1]

/-- The subscriber clones the log, then sends on what it received. -/
def streamed : List (Event SocketAddrV4) := [.run 0, .run 0, .run 0]

def timely : List (Event SocketAddrV4) := bothConnected ++ .run 0 :: published ++ streamed

def overlapping : List (Event SocketAddrV4) := bothConnected ++ published ++ streamed

/-- The subscriber at the end, having written `written`. -/
def subscriber (written : List (Publication SocketAddrV4)) : Task SocketAddrV4 :=
  ⟨⟨"SUBSCRIBE", rendezvousTopic, none⟩, .streaming [] {}, written⟩

theorem entry_sent_once :
    (subscriber [⟨1, entry⟩]).written.Nodup ∧ (subscriber [⟨1, entry⟩]).written.Sublist
      ((Server.after 100 timely).pushes rendezvousTopic) :=
  have htask : (Server.after 100 timely).tasks[0]? = some (subscriber [⟨1, entry⟩]) := rfl
  sent_once_in_order (by decide) htask

/-- The publisher comes between `sender.subscribe()` and the clone: its entry is replayed
and received. -/
theorem entry_sent_twice :
    (Server.after 100 overlapping).tasks[0]? = some (subscriber [⟨1, entry⟩, ⟨1, entry⟩]) ∧
      ¬ (subscriber [⟨1, entry⟩, ⟨1, entry⟩]).written.Nodup :=
  ⟨rfl, by decide⟩

end RtFogros.Signaling
