import RtFogros.Signaling.Turns
import Mathlib.Algebra.Order.BigOperators.Group.List
import Mathlib.Algebra.Order.Ring.Nat

/-!
# Progress of the signaling server

By themselves the tasks come to a halt: `Server.remaining` bounds the steps they can take until a
new request arrives.

A task on its own has few steps to its end, but a publication gives every subscriber one more
message to send on; so a task that is yet to publish is counted with a step for each of the tasks,
and what a subscriber holds with one step a message.  Each step that does something makes the sum
smaller, and a run in which the tasks go on whenever they can reaches a state where none can.
-/

namespace RtFogros.Signaling

variable {Addr : Type}

namespace Server

def logLength (s : Server Addr) (name : String) : Nat :=
  match s.topics name with
  | some topic => topic.log.length
  | none => 0

end Server

def Receiver.remaining (rx : Receiver Addr) : Nat := rx.pending.length + rx.lagged.toNat

/-- How many steps a task may take, by itself and, with its publication, by each of the
`tasks` tasks. -/
def Phase.remaining (tasks logLength : Nat) : Phase Addr → Nat
  | .received => 3 + 2 * tasks + logLength
  | .publishing _ => 2 + 2 * tasks
  | .pushed _ => 1 + tasks
  | .found => 2 + logLength
  | .subscribed rx => 1 + logLength + rx.remaining
  | .streaming log rx => log.length + rx.remaining
  | .finished | .panicked => 0

def Server.taskRemaining (s : Server Addr) (task : Task Addr) : Nat :=
  task.phase.remaining s.tasks.length (s.logLength task.request.topic)

def Server.remaining (s : Server Addr) : Nat := (s.tasks.map s.taskRemaining).sum

theorem sum_map_set {tasks : List (Task Addr)} {i : Nat} {task : Task Addr}
    (htask : tasks[i]? = some task) (f : Task Addr → Nat) (task' : Task Addr) :
    ((tasks.set i task').map f).sum + f task = (tasks.map f).sum + f task' := by
  induction tasks generalizing i with
  | nil => cases htask
  | cons first tasks ih =>
    cases i with
    | zero =>
      cases htask
      simp
      omega
    | succ i =>
      have hrest := ih (i := i) htask
      simp only [List.set_cons_succ, List.map_cons, List.sum_cons]
      omega

theorem sum_map_le {f g : Task Addr → Nat} (tasks : List (Task Addr))
    (h : ∀ task ∈ tasks, f task ≤ g task + 1) :
    (tasks.map f).sum ≤ (tasks.map g).sum + tasks.length := by
  have hsum := List.sum_le_sum h
  rw [List.sum_map_add] at hsum
  simpa using hsum

/-- A task goes on, and no other has more to do for it. -/
theorem Server.remaining_setTask {s s' : Server Addr} {i : Nat} {task : Task Addr}
    (task' : Task Addr) (htask : s.tasks[i]? = some task) (hs' : s'.tasks = s.tasks.set i task')
    (hlog : ∀ name, s'.logLength name = s.logLength name)
    (hless : s'.taskRemaining task' < s.taskRemaining task) : s'.remaining < s.remaining := by
  have hsame : s'.taskRemaining = s.taskRemaining := by
    funext other
    unfold taskRemaining
    rw [hlog, hs', List.length_set]
  have hsum := sum_map_set htask s.taskRemaining task'
  unfold remaining
  rw [hsame] at hless ⊢
  rw [hs']
  omega

/-- A task goes on, and every other may have one step more to do for it. -/
theorem Server.remaining_setTask_map {s s' : Server Addr} {i : Nat} {task : Task Addr}
    (g : Task Addr → Task Addr) (task' : Task Addr) (htask : s.tasks[i]? = some task)
    (hs' : s'.tasks = (s.tasks.map g).set i task')
    (hmore : ∀ other ∈ s.tasks, s'.taskRemaining (g other) ≤ s.taskRemaining other + 1)
    (hless : s'.taskRemaining task' + s.tasks.length < s'.taskRemaining (g task)) :
    s'.remaining < s.remaining := by
  have hmap : (s.tasks.map g)[i]? = some (g task) := by rw [List.getElem?_map, htask]; rfl
  have hset := sum_map_set hmap s'.taskRemaining task'
  have hsum := sum_map_le s.tasks hmore
  rw [List.map_map] at hset
  unfold remaining
  rw [hs']
  change (s.tasks.map (s'.taskRemaining ∘ g)).sum ≤ _ at hsum
  omega

@[simp] theorem Server.logLength_ensureTopic (s : Server Addr) (name other : String) :
    (s.ensureTopic name).logLength other = s.logLength other := by
  unfold ensureTopic
  split
  · rfl
  · rename_i hnone
    unfold logLength
    by_cases hname : other = name
    · subst hname
      rw [s.topics_setTopic_self, hnone]
      rfl
    · rw [s.topics_setTopic_of_ne hname]

theorem Server.logLength_setTopic (s : Server Addr) (name : String) (topic : Topic Addr)
    (other : String) :
    (s.setTopic name topic).logLength other =
      if other = name then topic.log.length else s.logLength other := by
  unfold logLength
  by_cases hname : other = name
  · rw [if_pos hname, hname, s.topics_setTopic_self]
  · rw [if_neg hname, s.topics_setTopic_of_ne hname]

@[simp] theorem Server.logLength_setTask (s : Server Addr) (i : Nat) (task : Task Addr)
    (name : String) : (s.setTask i task).logLength name = s.logLength name := rfl

theorem Server.logLength_of_topic {s : Server Addr} {name : String} {topic : Topic Addr}
    (h : s.topics name = some topic) : s.logLength name = topic.log.length := by
  unfold logLength
  rw [h]

theorem Phase.remaining_le (phase : Phase Addr) (tasks : Nat) {logLength logLength' : Nat}
    (h : logLength' ≤ logLength + 1) :
    phase.remaining tasks logLength' ≤ phase.remaining tasks logLength + 1 := by
  cases phase <;> simp [Phase.remaining] <;> omega

theorem Receiver.remaining_push (capacity : Nat) (rx : Receiver Addr)
    (message : Publication Addr) : (rx.push capacity message).remaining ≤ rx.remaining + 1 := by
  unfold Receiver.push Receiver.remaining
  split
  · simp
    omega
  · simp

theorem Phase.remaining_receive (capacity : Nat) (task : Task Addr) (message : Publication Addr)
    (tasks logLength : Nat) :
    (task.receive capacity message).phase.remaining tasks logLength ≤
      task.phase.remaining tasks logLength + 1 := by
  unfold Task.receive
  split
  · rename_i rx hphase
    have hpush := rx.remaining_push capacity message
    rw [hphase]
    simp only [Phase.remaining]
    omega
  · rename_i log rx hphase
    have hpush := rx.remaining_push capacity message
    rw [hphase]
    simp only [Phase.remaining]
    omega
  · omega

theorem Server.remaining_send (s : Server Addr) {capacity i : Nat} {task : Task Addr}
    {message : CandidateStruct Addr} {topic : Topic Addr} (htask : s.tasks[i]? = some task)
    (hphase : task.phase = .pushed message)
    (htopic : s.topics task.request.topic = some topic) :
    Server.remaining { ((s.broadcast capacity task.request.topic ⟨i, message⟩).setTopic
      task.request.topic { topic with locked := false }).setTask i
        { task with phase := .finished } with locked := false } < s.remaining := by
  set s' : Server Addr := { ((s.broadcast capacity task.request.topic ⟨i, message⟩).setTopic
    task.request.topic { topic with locked := false }).setTask i
      { task with phase := .finished } with locked := false } with hs'
  have hremaining : ∀ other, s'.taskRemaining other = s.taskRemaining other := by
    intro other
    have hlength : s'.tasks.length = s.tasks.length := by simp [hs', broadcast]
    have hlog : s'.logLength other.request.topic = s.logLength other.request.topic := by
      change (s.setTopic _ _).logLength _ = _
      rw [logLength_setTopic]
      split
      · rename_i hname
        rw [hname, logLength_of_topic htopic]
      · rfl
    unfold taskRemaining
    rw [hlength, hlog]
  refine remaining_setTask_map _ { task with phase := .finished } htask rfl (fun other _ => ?_) ?_
  · rw [hremaining]
    split
    · unfold taskRemaining
      rw [Task.request_receive]
      exact Phase.remaining_receive ..
    · exact Nat.le_succ _
  · rw [hremaining, hremaining, if_pos rfl, Task.receive_of_published (.inl ⟨_, hphase⟩)]
    simp only [taskRemaining, Phase.remaining, hphase]
    omega

/-- A step of a task that changes the server leaves less to do. -/
theorem Server.remaining_run {capacity : Nat} {s : Server Addr} {i : Nat}
    (h : s.run capacity i ≠ s) : (s.run capacity i).remaining < s.remaining := by
  have hturn := turn_step capacity s (.run i)
  change Turn capacity s (.run i) (s.run capacity i) at hturn
  generalize s.run capacity i = s' at h hturn
  have hsame : ∀ name, s.logLength name = s.logLength name := fun _ => rfl
  cases hturn with
  | idle => exact absurd rfl h
  | finish htask hphase =>
    refine s.remaining_setTask _ htask rfl hsame ?_
    simp only [taskRemaining, Phase.remaining, hphase]
    omega
  | panic htask hphase =>
    refine s.remaining_setTask _ htask rfl hsame ?_
    simp only [taskRemaining, Phase.remaining, hphase]
    omega
  | @publish _ task message htask hphase =>
    refine remaining_setTask { task with phase := .publishing message } htask (by simp)
      (s.logLength_ensureTopic _) ?_
    simp [taskRemaining, Phase.remaining, hphase]
    omega
  | @find _ task htask hphase =>
    refine remaining_setTask { task with phase := .found } htask (by simp)
      (s.logLength_ensureTopic _) ?_
    simp [taskRemaining, Phase.remaining, hphase]
    omega
  | @push i task message topic htask hphase htopic =>
    refine remaining_setTask_map id { task with phase := .pushed message } htask (by simp)
      (fun other _ => ?_) ?_
    · unfold taskRemaining
      rw [tasks_setTask, List.length_set]
      refine Phase.remaining_le _ _ ?_
      rw [logLength_setTask, logLength_setTopic]
      split
      · rename_i hname
        have htopic' : s.topics other.request.topic = some topic := by
          rw [← htopic]
          exact congrArg s.topics hname
        rw [List.length_append, logLength_of_topic htopic']
        exact Nat.le_refl _
      · exact Nat.le_succ _
    · simp [taskRemaining, Phase.remaining, hphase]
      omega
  | send htask hphase htopic => exact s.remaining_send htask hphase htopic
  | subscribe htask hphase =>
    refine s.remaining_setTask _ htask rfl hsame ?_
    simp only [taskRemaining, Phase.remaining, Receiver.remaining, hphase, logLength_setTask]
    simp
  | clone htask hphase htopic =>
    refine s.remaining_setTask _ htask rfl hsame ?_
    simp [taskRemaining, Phase.remaining, hphase, logLength_of_topic htopic]
  | replay htask hphase =>
    refine s.remaining_setTask _ htask rfl hsame ?_
    simp [taskRemaining, Phase.remaining, hphase]
  | overflow htask hphase hlagged =>
    refine s.remaining_setTask _ htask rfl hsame ?_
    simp [taskRemaining, Phase.remaining, Receiver.remaining, hphase, hlagged]
  | receive htask hphase hlagged hpending =>
    refine s.remaining_setTask _ htask rfl hsame ?_
    simp [taskRemaining, Phase.remaining, Receiver.remaining, hphase, hpending]

/-- The tasks at the indices `turns` go on one after the other, each doing something. -/
def Busy (capacity : Nat) (s : Server Addr) (turns : List Nat) : Prop :=
  Run.Throughout (fun s i => Server.run s capacity i) (fun s i => Server.run s capacity i ≠ s)
    s turns

theorem Busy.length_le {capacity : Nat} {s : Server Addr} {turns : List Nat}
    (h : Busy capacity s turns) : turns.length ≤ s.remaining := by
  induction turns generalizing s with
  | nil => exact Nat.zero_le _
  | cons i turns ih =>
    have hless := Server.remaining_run h.1
    have hrest := ih h.2
    change turns.length ≤ (s.run capacity i).remaining at hrest
    rw [List.length_cons]
    omega

end RtFogros.Signaling
