import RtFogros.Signaling.Replay
import Mathlib.Data.List.Induction

/-!
# Expiry

A cleanup task that is never late keeps the entries of its topic younger than the expiration plus
one period.  It ends when it meets an empty log and no receiver, and its topic stays in the map:
what is pushed from then on is never removed.

`replaysFresh_iff`: no subscriber replays an older entry exactly if no log is cloned so late after
a push that was made to it when its cleanup task had ended.  `Watched` bounds the entries by the
next tick and not by the present, since it is at a tick that they are looked at; an entry beyond
the bound was therefore pushed unwatched (`Unwatched`), and its push is a step of the run.
-/

namespace RtFogros.Signaling

variable {Addr : Type}

/-- The oldest an entry should get. -/
def replayAge : Nat := expirationDuration + cleanupPeriod

namespace Server

/-- The step pushes an entry to the log of `name`. -/
def Pushes (s : Server Addr) (event : Event Addr) (name : String) (topic : Topic Addr) : Prop :=
  ∃ i task message, event = .run i ∧ s.tasks[i]? = some task ∧ task.phase = .publishing message ∧
    task.request.topic = name ∧ s.topics name = some topic ∧ topic.locked = false

/-- The step pushes an entry to the log of a topic whose cleanup task has ended. -/
def PushesUnwatched (s : Server Addr) (event : Event Addr) (name : String) : Prop :=
  ∃ topic, s.Pushes event name topic ∧ topic.cleanup = none

/-- A subscriber clones the log of `name`. -/
def Clones (s : Server Addr) (event : Event Addr) (name : String) (topic : Topic Addr) : Prop :=
  ∃ i task rx, event = .run i ∧ s.tasks[i]? = some task ∧ task.phase = .subscribed rx ∧
    task.request.topic = name ∧ s.topics name = some topic ∧ topic.locked = false

/-- What a subscriber clones in the step, to replay it, is not too old. -/
def ReplaysFresh (s : Server Addr) (event : Event Addr) : Prop :=
  ∀ name topic, s.Clones event name topic → ∀ entry ∈ topic.log, s.now - entry.2 ≤ replayAge

/-- Time does not pass a tick that is due. -/
def Punctual (s : Server Addr) : Event Addr → Prop
  | .elapse duration => ∀ name topic due, s.topics name = some topic → topic.cleanup = some due →
      s.now + duration ≤ due
  | _ => True

/-! ## What a step does to a log -/

/-- The change of one topic in a step, as far as its log goes. -/
inductive LogStep (s : Server Addr) (event : Event Addr) (name : String) :
    Option (Topic Addr) → Option (Topic Addr) → Prop where
  | absent : LogStep s event name none none
  | create : LogStep s event name none (some { cleanup := some s.now })
  | keep {topic topic' : Topic Addr} (hlog : topic'.log = topic.log)
      (hcleanup : topic'.cleanup = topic.cleanup) :
      LogStep s event name (some topic) (some topic')
  | push {topic topic' : Topic Addr} (hpush : s.Pushes event name topic)
      (publication : Publication Addr) (hlog : topic'.log = topic.log ++ [(publication, s.now)])
      (hcleanup : topic'.cleanup = topic.cleanup) :
      LogStep s event name (some topic) (some topic')
  | tick {topic topic' : Topic Addr} {due : Instant} (hdue : topic.cleanup = some due)
      (hlog : topic'.log = topic.log.filter fun entry => s.now - entry.2 < expirationDuration)
      (hlate : due ≤ s.now)
      (hcleanup : topic'.cleanup = some (due + cleanupPeriod) ∨
        topic'.cleanup = none ∧ topic'.log = []) :
      LogStep s event name (some topic) (some topic')

theorem LogStep.same (s : Server Addr) (event : Event Addr) (name : String)
    (topic : Option (Topic Addr)) : LogStep s event name topic topic := by
  cases topic with
  | none => exact .absent
  | some topic => exact .keep rfl rfl

theorem LogStep.of_ensureTopic (s : Server Addr) (event : Event Addr) (created name : String) :
    LogStep s event name (s.topics name) ((s.ensureTopic created).topics name) := by
  unfold ensureTopic
  split
  · exact .same ..
  · next hnone =>
    by_cases hname : name = created
    · rw [hname, hnone, topics_setTopic_self]
      exact .create
    · rw [topics_setTopic_of_ne s hname]
      exact .same ..

theorem LogStep.of_setTopic (s : Server Addr) (event : Event Addr) {changed name : String}
    {topic topic' : Topic Addr} (htopic : s.topics changed = some topic)
    (hstep : LogStep s event changed (some topic) (some topic')) :
    LogStep s event name (s.topics name) ((s.setTopic changed topic').topics name) := by
  by_cases hname : name = changed
  · rw [hname, htopic, topics_setTopic_self]
    exact hstep
  · rw [topics_setTopic_of_ne s hname]
    exact .same ..

theorem logStep_tick (s : Server Addr) (ticking name : String) :
    LogStep s (.tick ticking) name (s.topics name) ((s.tick ticking).topics name) := by
  unfold tick
  split
  · exact .same ..
  · next topic htopic =>
    split
    · exact .same ..
    · next due hdue =>
      split
      · exact .same ..
      · next hfree =>
        rw [not_or, Nat.not_lt] at hfree
        refine .of_setTopic s _ htopic (.tick hdue rfl hfree.1 ?_)
        dsimp only
        split
        · next hempty => exact .inr ⟨rfl, hempty.1⟩
        · exact .inl rfl

/-- Every step changes a log in one of these ways. -/
theorem logStep_step (capacity : Nat) (s : Server Addr) (event : Event Addr) (name : String) :
    LogStep s event name (s.topics name) ((step capacity s event).topics name) := by
  by_cases htick : ∃ ticking, event = .tick ticking
  · obtain ⟨ticking, rfl⟩ := htick
    exact logStep_tick s ticking name
  have hturn := turn_step capacity s event
  generalize step capacity s event = s' at hturn
  cases hturn with
  | tick htopic cleanup => exact absurd ⟨_, rfl⟩ htick
  | publish => exact .of_ensureTopic ..
  | find => exact .of_ensureTopic ..
  | push htask hphase htopic hfree =>
    exact .of_setTopic s _ htopic
      (.push ⟨_, _, _, rfl, htask, hphase, rfl, htopic, hfree⟩ _ rfl rfl)
  | send htask hphase htopic => exact .of_setTopic s _ htopic (.keep rfl rfl)
  | _ => exact .same ..

@[simp] theorem now_ensureTopic (s : Server Addr) (name : String) :
    (s.ensureTopic name).now = s.now := by
  unfold ensureTopic
  split <;> rfl

theorem now_step {capacity : Nat} {s : Server Addr} {event : Event Addr}
    (h : ∀ duration, event ≠ .elapse duration) : (step capacity s event).now = s.now := by
  have hturn := turn_step capacity s event
  generalize step capacity s event = s' at hturn
  cases hturn with
  | elapse duration => exact absurd rfl (h duration)
  | publish => exact now_ensureTopic ..
  | find => exact now_ensureTopic ..
  | _ => rfl

/-! ## Topics whose cleanup task runs -/

/-- The cleanup task is not late, and when its next tick is due no entry is too old. -/
def Watched (now : Instant) (topic : Topic Addr) : Prop :=
  ∀ due, topic.cleanup = some due → now ≤ due ∧ due ≤ now + cleanupPeriod ∧
    ∀ entry ∈ topic.log, due < entry.2 + replayAge

theorem Watched.of_eq {now : Instant} {topic topic' : Topic Addr} (h : Watched now topic)
    (hlog : topic'.log = topic.log) (hcleanup : topic'.cleanup = topic.cleanup) :
    Watched now topic' := by
  intro due hdue
  rw [hlog]
  exact h due (hcleanup ▸ hdue)

/-- An entry that is pushed is fresh at the next tick. -/
theorem young_of_push {now due : Nat} (h : due ≤ now + cleanupPeriod) : due < now + replayAge := by
  simp only [replayAge, expirationDuration, cleanupPeriod, seconds] at h ⊢
  omega

/-- An entry that a tick keeps is fresh at the next one. -/
theorem young_of_tick {now time : Nat} (h : now - time < expirationDuration) :
    now + cleanupPeriod < time + replayAge := by
  simp only [replayAge, expirationDuration, cleanupPeriod, seconds] at h ⊢
  omega

theorem Watched.logStep {s : Server Addr} {event : Event Addr} {name : String}
    {before : Option (Topic Addr)} {topic' : Topic Addr}
    (hwatched : ∀ topic, before = some topic → Watched s.now topic)
    (hstep : LogStep s event name before (some topic')) : Watched s.now topic' := by
  cases hstep with
  | create =>
    rintro due ⟨rfl⟩
    exact ⟨Nat.le_refl _, Nat.le_add_right .., nofun⟩
  | keep hlog hcleanup => exact (hwatched _ rfl).of_eq hlog hcleanup
  | push hpush publication hlog hcleanup =>
    intro due hdue
    obtain ⟨hnow, hperiod, hlogs⟩ := hwatched _ rfl due (hcleanup ▸ hdue)
    refine ⟨hnow, hperiod, fun entry hentry => ?_⟩
    rw [hlog, List.mem_append, List.mem_singleton] at hentry
    rcases hentry with hentry | rfl
    · exact hlogs entry hentry
    · exact young_of_push hperiod
  | tick hdue hlog hlate hcleanup =>
    rintro due' hdue'
    obtain ⟨hnow, -, -⟩ := hwatched _ rfl _ hdue
    rcases hcleanup with hcleanup | ⟨hcleanup, -⟩
    · -- the tick comes when it is due
      obtain rfl := Nat.le_antisymm hlate hnow
      obtain rfl := Option.some.inj (hcleanup.symm.trans hdue')
      refine ⟨Nat.le_add_right .., Nat.le_refl _, fun entry hentry => ?_⟩
      rw [hlog, List.mem_filter, decide_eq_true_iff] at hentry
      exact young_of_tick hentry.2
    · rw [hcleanup] at hdue'
      cases hdue'

/-- What a punctual step keeps. -/
theorem watched_step {capacity : Nat} {s : Server Addr} {event : Event Addr}
    (hpunctual : s.Punctual event)
    (hwatched : ∀ name topic, s.topics name = some topic → Watched s.now topic) :
    ∀ name topic, (step capacity s event).topics name = some topic →
      Watched (step capacity s event).now topic := by
  intro name topic htopic
  by_cases helapse : ∃ duration, event = .elapse duration
  · obtain ⟨duration, rfl⟩ := helapse
    intro due hdue
    obtain ⟨-, hperiod, hlog⟩ := hwatched name topic htopic due hdue
    refine ⟨hpunctual name topic due htopic hdue, Nat.le_trans hperiod ?_, hlog⟩
    exact Nat.add_le_add_right (Nat.le_add_right ..) _
  · rw [now_step fun duration h => helapse ⟨duration, h⟩]
    have hstep := logStep_step capacity s event name
    rw [htopic] at hstep
    exact Watched.logStep (hwatched name) hstep

/-! ## Topics whose cleanup task has ended -/

/-- A step of the run has pushed the entry when the cleanup task had ended. -/
def PushedUnwatched (capacity : Nat) (events : List (Event Addr)) (name : String)
    (time : Instant) : Prop :=
  ∃ pre event post, events = pre ++ event :: post ∧
    (after capacity pre).PushesUnwatched event name ∧ (after capacity pre).now = time

theorem PushedUnwatched.concat {capacity : Nat} {events : List (Event Addr)} {name : String}
    {time : Instant} (h : PushedUnwatched capacity events name time) (event : Event Addr) :
    PushedUnwatched capacity (events ++ [event]) name time := by
  obtain ⟨pre, push, post, rfl, hpush, htime⟩ := h
  exact ⟨pre, push, post ++ [event], by simp, hpush, htime⟩

/-- The log of a topic without cleanup task was pushed after that task had ended. -/
theorem pushedUnwatched_of_mem (capacity : Nat) (events : List (Event Addr)) (name : String)
    {topic : Topic Addr} (htopic : (after capacity events).topics name = some topic)
    (hended : topic.cleanup = none) :
    ∀ entry ∈ topic.log, PushedUnwatched capacity events name entry.2 := by
  induction events using List.reverseRecOn generalizing topic with
  | nil => cases htopic
  | append_singleton events event ih =>
    have hstep := logStep_step capacity (after capacity events) event name
    have hafter : after capacity (events ++ [event]) =
        step capacity (after capacity events) event := Run.after_concat ..
    rw [hafter] at htopic
    rw [htopic] at hstep
    intro entry hentry
    generalize hbefore : (after capacity events).topics name = before at hstep
    cases hstep with
    | create => cases hended
    | keep hlog hcleanup =>
      exact (ih hbefore (hcleanup ▸ hended) entry (hlog ▸ hentry)).concat event
    | push hpush publication hlog hcleanup =>
      have hended' := hcleanup ▸ hended
      rw [hlog, List.mem_append, List.mem_singleton] at hentry
      rcases hentry with hentry | rfl
      · exact (ih hbefore hended' entry hentry).concat event
      · exact ⟨events, event, [], rfl, ⟨_, hpush, hended'⟩, rfl⟩
    | tick hdue hlog hlate hcleanup =>
      rcases hcleanup with hcleanup | ⟨-, hempty⟩
      · rw [hcleanup] at hended
        cases hended
      · rw [hempty] at hentry
        cases hentry

/-- The entry is in the log of a topic without cleanup task. -/
def Unwatched (s : Server Addr) (name : String) (time : Instant) : Prop :=
  ∃ topic, s.topics name = some topic ∧ topic.cleanup = none ∧ ∃ entry ∈ topic.log, entry.2 = time

theorem PushesUnwatched.unwatched {capacity : Nat} {s : Server Addr} {event : Event Addr}
    {name : String} (h : s.PushesUnwatched event name) :
    (step capacity s event).Unwatched name s.now := by
  obtain ⟨topic, ⟨i, task, message, rfl, htask, hphase, rfl, htopic, hfree⟩, hended⟩ := h
  have hstep : step capacity s (.run i) = s.push i task message := by
    rw [step, run, htask]
    dsimp only
    rw [hphase]
  rw [hstep, push, htopic]
  dsimp only
  rw [if_neg (by simp [hfree])]
  exact ⟨_, topics_setTopic_self .., hended, _, List.mem_append_right _ List.mem_cons_self, rfl⟩

/-- Nobody removes such an entry. -/
theorem Unwatched.step {capacity : Nat} {s : Server Addr} {name : String} {time : Instant}
    (h : s.Unwatched name time) (event : Event Addr) :
    (Server.step capacity s event).Unwatched name time := by
  obtain ⟨topic, htopic, hended, entry, hentry, rfl⟩ := h
  have hstep := logStep_step capacity s event name
  rw [htopic] at hstep
  generalize hafter : (Server.step capacity s event).topics name = topic' at hstep
  cases hstep with
  | keep hlog hcleanup => exact ⟨_, hafter, hcleanup.trans hended, entry, hlog ▸ hentry, rfl⟩
  | push hpush publication hlog hcleanup =>
    exact ⟨_, hafter, hcleanup.trans hended, entry, hlog ▸ List.mem_append_left _ hentry, rfl⟩
  | tick hdue =>
    rw [hended] at hdue
    cases hdue

/-! ## Runs -/

theorem watched_after {capacity : Nat} {events : List (Event Addr)}
    (hpunctual : Run.Throughout (step capacity) Punctual {} events) :
    ∀ name topic, (after capacity events).topics name = some topic →
      Watched (after capacity events).now topic :=
  hpunctual.invariant (fun s => ∀ name topic, s.topics name = some topic → Watched s.now topic)
    (fun _ _ hwatched hevent => watched_step hevent hwatched) (fun _ _ htopic => by cases htopic)

theorem unwatched_after {capacity : Nat} {s : Server Addr} {name : String} {time : Instant}
    (h : s.Unwatched name time) (events : List (Event Addr)) :
    (Run.after (step capacity) s events).Unwatched name time := by
  induction events generalizing s with
  | nil => exact h
  | cons event events ih => exact ih (h.step event)

/-- **Main result.**  With punctual cleanup tasks no subscriber replays an entry older than the
expiration plus one period, if and only if no log is cloned later than that after a push to it
when its cleanup task had ended. -/
theorem replaysFresh_iff (capacity : Nat) (events : List (Event Addr))
    (hpunctual : Run.Throughout (step capacity) Punctual {} events) :
    Run.Throughout (step capacity) ReplaysFresh {} events ↔
      ∀ pre push mid clone post, events = pre ++ push :: mid ++ clone :: post →
        ∀ name topic, (after capacity pre).PushesUnwatched push name →
          (after capacity (pre ++ push :: mid)).Clones clone name topic →
          (after capacity (pre ++ push :: mid)).now - (after capacity pre).now ≤ replayAge := by
  rw [Run.throughout_iff]
  constructor
  · intro hfresh pre push mid clone post hevents name topic hpush hclone
    have hunwatched : (after capacity (pre ++ push :: mid)).Unwatched name
        (after capacity pre).now := by
      rw [after, Run.after_append, Run.after_cons]
      exact unwatched_after hpush.unwatched mid
    obtain ⟨topic', htopic', -, entry, hentry, htime⟩ := hunwatched
    obtain rfl : topic' = topic := by
      obtain ⟨-, -, -, -, -, -, -, htopic, -⟩ := hclone
      exact Option.some.inj (htopic'.symm.trans htopic)
    rw [← htime]
    exact hfresh _ clone post hevents name topic' hclone entry hentry
  · intro hunwatched pre clone post hevents name topic hclone entry hentry
    obtain ⟨-, -, -, -, -, -, -, htopic, -⟩ := id hclone
    cases hcleanup : topic.cleanup with
    | some due =>
      rw [hevents, Run.throughout_append] at hpunctual
      obtain ⟨hnow, -, hlog⟩ := watched_after hpunctual.1 name topic htopic due hcleanup
      exact Nat.sub_le_of_le_add (Nat.le_trans hnow (by
        rw [Nat.add_comm]
        exact Nat.le_of_lt (hlog entry hentry)))
    | none =>
      obtain ⟨first, push, mid, hpre, hpush, htime⟩ :=
        pushedUnwatched_of_mem capacity pre name htopic hcleanup entry hentry
      rw [← htime, hpre]
      rw [hpre] at hclone hevents
      exact hunwatched first push mid clone post hevents name topic hpush hclone

/-- The server knows one topic, and its next tick is not passed. -/
theorem punctual_elapse {s : Server Addr} {name : String} {topic : Topic Addr} {duration : Nat}
    (htopics : s.topics = Function.update (fun _ => none) name (some topic))
    (hdue : ∀ due ∈ topic.cleanup, s.now + duration ≤ due) : s.Punctual (.elapse duration) := by
  intro name' topic' due htopic hcleanup
  rw [htopics] at htopic
  by_cases hname : name' = name
  · rw [hname, Function.update_self] at htopic
    obtain rfl := Option.some.inj htopic
    exact hdue due hcleanup
  · rw [Function.update_of_ne hname] at htopic
    cases htopic

def publisherConnects : List (Event SocketAddrV4) :=
  [.connect ⟨"PUBLISH", rendezvousTopic, some entry⟩, .run 0]

def subscriberComes : List (Event SocketAddrV4) :=
  [.connect ⟨"SUBSCRIBE", rendezvousTopic, none⟩, .run 1, .run 1]

/-- The first tick of the cleanup task comes after the push. -/
def pushedThenTicked : List (Event SocketAddrV4) :=
  publisherConnects ++ [.run 0, .run 0, .tick rendezvousTopic]

/-- The first tick of the cleanup task comes before the push. -/
def tickedThenPushed : List (Event SocketAddrV4) :=
  publisherConnects ++ [.tick rendezvousTopic, .run 0, .run 0]

/-- After `duration` a subscriber comes and clones the log. -/
def replayedAfter (events : List (Event SocketAddrV4)) (duration : Nat) :
    List (Event SocketAddrV4) :=
  events ++ .elapse duration :: subscriberComes ++ [.run 1]

theorem topics_pushedThenTicked :
    (after 100 pushedThenTicked).topics = Function.update (fun _ => none) rendezvousTopic
      (some ⟨[(⟨0, entry⟩, 0)], false, some (seconds 10), [⟨0, entry⟩]⟩) := by
  change Function.update (Function.update (Function.update (Function.update _ _ _) _ _) _ _) _ _ = _
  simp only [Function.update_idem]
  rfl

theorem topics_tickedThenPushed :
    (after 100 tickedThenPushed).topics = Function.update (fun _ => none) rendezvousTopic
      (some ⟨[(⟨0, entry⟩, 0)], false, none, [⟨0, entry⟩]⟩) := by
  change Function.update (Function.update (Function.update (Function.update _ _ _) _ _) _ _) _ _ = _
  simp only [Function.update_idem]
  rfl

theorem punctual_pushedThenTicked :
    Run.Throughout (step 100) Punctual {} (replayedAfter pushedThenTicked (seconds 10)) :=
  ⟨trivial, trivial, trivial, trivial, trivial, punctual_elapse topics_pushedThenTicked (by decide),
    trivial, trivial, trivial, trivial, trivial⟩

theorem punctual_tickedThenPushed :
    Run.Throughout (step 100) Punctual {} (replayedAfter tickedThenPushed (seconds 100)) :=
  ⟨trivial, trivial, trivial, trivial, trivial, punctual_elapse topics_tickedThenPushed (by decide),
    trivial, trivial, trivial, trivial, trivial⟩

theorem replaysFresh_pushedThenTicked :
    Run.Throughout (step 100) ReplaysFresh {} (replayedAfter pushedThenTicked (seconds 10)) := by
  have hnow : Run.Throughout (step 100) (fun s _ => s.now ≤ replayAge) {}
      (replayedAfter pushedThenTicked (seconds 10)) := by decide
  refine (replaysFresh_iff 100 _ punctual_pushedThenTicked).2 ?_
  intro pre push mid clone post hevents name topic _ _
  exact Nat.le_trans (Nat.sub_le ..) (Run.throughout_iff.1 hnow _ clone post hevents)

/-- The cleanup task has ended before the entry is pushed, and a subscriber is replayed the
entry 100 seconds later. -/
theorem replays_stale_entry :
    Run.Throughout (step 100) Punctual {} (replayedAfter tickedThenPushed (seconds 100)) ∧
      ¬ Run.Throughout (step 100) ReplaysFresh {}
        (replayedAfter tickedThenPushed (seconds 100)) := by
  refine ⟨punctual_tickedThenPushed, fun h => ?_⟩
  have hfresh := Run.throughout_iff.1 h
    (tickedThenPushed ++ .elapse (seconds 100) :: subscriberComes) (.run 1) [] rfl
  exact absurd (hfresh rendezvousTopic _ ⟨1, _, _, rfl, rfl, rfl, rfl, rfl, rfl⟩ (⟨0, entry⟩, 0)
    List.mem_cons_self) (by decide)

end Server

end RtFogros.Signaling
