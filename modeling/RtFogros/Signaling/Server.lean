import RtFogros.Lib.Run
import RtFogros.Signaling.Model
import Mathlib.Logic.Function.Basic

/-!
# The signaling server

`Server::handle_client` of `fogrs-signaling` with `Topic::publish`, `Topic::subscribe` and the
cleanup task of a topic.  One task serves each client; an event is what one task does next, up to
the point where another task can come between.

The map of topics and the log of a topic are behind a mutex each, and a task that waits for a mutex
does nothing in its turn.  A topic is in the map from its creation on: `PUBLISH` inserts a new
topic last, but holds the mutex of the map until then.
-/

namespace RtFogros.Signaling

variable {Addr : Type}

structure Message (Addr : Type) where
  command : String
  topic : String
  data : Option (CandidateStruct Addr)
deriving DecidableEq

/-- A struct that the task `publisher` published.  The source keeps the struct alone. -/
structure Publication (Addr : Type) where
  publisher : Nat
  message : CandidateStruct Addr
deriving DecidableEq

/-! ## The broadcast channel -/

/-- A receiver of a topic's broadcast channel: what it has not taken, and whether older
messages were overwritten, which its next `recv` reports as an error. -/
structure Receiver (Addr : Type) where
  pending : List (Publication Addr) := []
  lagged : Bool := false

/-- A message arrives; the channel retains the last `capacity` messages. -/
def Receiver.push (capacity : Nat) (rx : Receiver Addr) (message : Publication Addr) :
    Receiver Addr :=
  if rx.pending.length < capacity then { rx with pending := rx.pending ++ [message] }
  else { pending := (rx.pending ++ [message]).tail, lagged := true }

/-! ## Tasks and topics -/

/-- Where the task of a client stands. -/
inductive Phase (Addr : Type) where
  -- the request is read; waits for the map of topics
  | received
  -- in `publish`, the map locked; waits for the log
  | publishing (message : CandidateStruct Addr)
  -- the entry is in the log, map and log locked
  | pushed (message : CandidateStruct Addr)
  -- in `subscribe`, the map released
  | found
  -- `rx` is made; waits for the log
  | subscribed (rx : Receiver Addr)
  -- writes the rest of its clone of the log, then what `rx` receives
  | streaming (log : List (Publication Addr)) (rx : Receiver Addr)
  | finished
  | panicked

structure Task (Addr : Type) where
  request : Message Addr
  phase : Phase Addr := .received
  -- what it has written to its stream
  written : List (Publication Addr) := []

structure Topic (Addr : Type) where
  log : List (Publication Addr × Instant) := []
  locked : Bool := false
  -- when the next tick of its cleanup task is due, `none` past the `break`
  cleanup : Option Instant
  -- all that was ever pushed to the log
  pushes : List (Publication Addr) := []

structure Server (Addr : Type) where
  now : Instant := 0
  topics : String → Option (Topic Addr) := fun _ => none
  locked : Bool := false
  tasks : List (Task Addr) := []

inductive Event (Addr : Type) where
  -- a client's request arrives
  | connect (request : Message Addr)
  -- a task goes on
  | run (task : Nat)
  -- the write of a task fails
  | disconnect (task : Nat)
  -- the cleanup task of a topic ticks
  | tick (topic : String)
  | elapse (duration : Nat)
deriving DecidableEq

/-- Seconds, as `Instant` counts nanoseconds. -/
def seconds (n : Nat) : Nat := n * 1000000000

def expirationDuration : Nat := seconds 60

def cleanupPeriod : Nat := seconds 10

def Task.receiver? (task : Task Addr) : Option (Receiver Addr) :=
  match task.phase with
  | .subscribed rx | .streaming _ rx => some rx
  | _ => none

/-- Gives a message to the receiver the task holds. -/
def Task.receive (capacity : Nat) (task : Task Addr) (message : Publication Addr) : Task Addr :=
  match task.phase with
  | .subscribed rx => { task with phase := .subscribed (rx.push capacity message) }
  | .streaming log rx => { task with phase := .streaming log (rx.push capacity message) }
  | _ => task

namespace Server

variable (s : Server Addr)

def setTask (i : Nat) (task : Task Addr) : Server Addr :=
  { s with tasks := s.tasks.set i task }

def setTopic (name : String) (topic : Topic Addr) : Server Addr :=
  { s with topics := Function.update s.topics name (some topic) }

/-- `topics.get(name)`, or `Topic::new` and `insert`.  The first tick of an interval is
due at once. -/
def ensureTopic (name : String) : Server Addr :=
  match s.topics name with
  | some _ => s
  | none => s.setTopic name { cleanup := some s.now }

def listens (name : String) (task : Task Addr) : Bool :=
  task.request.topic = name && task.receiver?.isSome

def receiverCount (name : String) : Nat := s.tasks.countP (listens name)

/-- `self.sender.send(message)`. -/
def broadcast (capacity : Nat) (name : String) (message : Publication Addr) : Server Addr :=
  { s with
    tasks := s.tasks.map fun task =>
      if task.request.topic = name then task.receive capacity message else task }

/-! ## The steps of a task -/

/-- The match on the command, with the map of topics locked. -/
def lookup (i : Nat) (task : Task Addr) : Server Addr :=
  if s.locked then s
  else if task.request.command = "PUBLISH" then
    match task.request.data with
    | none => s.setTask i { task with phase := .panicked }
    | some message =>
      { (s.ensureTopic task.request.topic).setTask i { task with phase := .publishing message } with
        locked := true }
  else if task.request.command = "SUBSCRIBE" then
    (s.ensureTopic task.request.topic).setTask i { task with phase := .found }
  else s.setTask i { task with phase := .finished }

/-- `log.push_back`, with the log locked. -/
def push (i : Nat) (task : Task Addr) (message : CandidateStruct Addr) : Server Addr :=
  match s.topics task.request.topic with
  | none => s
  | some topic =>
    if topic.locked then s
    else
      (s.setTopic task.request.topic
        { topic with
          locked := true
          log := topic.log ++ [(⟨i, message⟩, s.now)]
          pushes := topic.pushes ++ [⟨i, message⟩] }).setTask i
        { task with phase := .pushed message }

/-- The rest of `publish`, after which both mutexes are released. -/
def send (capacity i : Nat) (task : Task Addr) (message : CandidateStruct Addr) : Server Addr :=
  match s.topics task.request.topic with
  | none => s
  | some topic =>
    let s :=
      if 0 < s.receiverCount task.request.topic then
        s.broadcast capacity task.request.topic ⟨i, message⟩
      else s
    { (s.setTopic task.request.topic { topic with locked := false }).setTask i
        { task with phase := .finished } with
      locked := false }

/-- `self.log.lock().await.clone()`. -/
def clone (i : Nat) (task : Task Addr) (rx : Receiver Addr) : Server Addr :=
  match s.topics task.request.topic with
  | none => s
  | some topic =>
    if topic.locked then s
    else s.setTask i { task with phase := .streaming (topic.log.map Prod.fst) rx }

/-- One round of the loops of `subscribe`. -/
def stream (i : Nat) (task : Task Addr) (log : List (Publication Addr)) (rx : Receiver Addr) :
    Server Addr :=
  match log with
  | message :: log =>
    s.setTask i
      { task with phase := .streaming log rx, written := task.written ++ [message] }
  | [] =>
    if rx.lagged then s.setTask i { task with phase := .streaming [] { rx with lagged := false } }
    else
      match rx.pending with
      | [] => s
      | message :: pending =>
        s.setTask i
          { task with
            phase := .streaming [] { rx with pending }
            written := task.written ++ [message] }

def run (capacity i : Nat) : Server Addr :=
  match s.tasks[i]? with
  | none => s
  | some task =>
    match task.phase with
    | .received => s.lookup i task
    | .publishing message => s.push i task message
    | .pushed message => s.send capacity i task message
    | .found => s.setTask i { task with phase := .subscribed {} }
    | .subscribed rx => s.clone i task rx
    | .streaming log rx => s.stream i task log rx
    | .finished | .panicked => s

/-- A write fails, so `subscribe` returns. -/
def disconnect (i : Nat) : Server Addr :=
  match s.tasks[i]? with
  | none => s
  | some task =>
    match task.phase with
    | .streaming _ _ => s.setTask i { task with phase := .finished }
    | _ => s

/-- A round of the cleanup task. -/
def tick (name : String) : Server Addr :=
  match s.topics name with
  | none => s
  | some topic =>
    match topic.cleanup with
    | none => s
    | some due =>
      if s.now < due ∨ topic.locked then s
      else
        let log := topic.log.filter fun entry => s.now - entry.2 < expirationDuration
        let cleanup :=
          if log = [] ∧ s.receiverCount name = 0 then none else some (due + cleanupPeriod)
        s.setTopic name { topic with log, cleanup }

def step (capacity : Nat) (s : Server Addr) : Event Addr → Server Addr
  | .connect request => { s with tasks := s.tasks ++ [{ request }] }
  | .run i => s.run capacity i
  | .disconnect i => s.disconnect i
  | .tick name => s.tick name
  | .elapse duration => { s with now := s.now + duration }

/-- The server after a run. -/
def after (capacity : Nat) (events : List (Event Addr)) : Server Addr :=
  Run.after (step capacity) {} events

end Server

end RtFogros.Signaling
