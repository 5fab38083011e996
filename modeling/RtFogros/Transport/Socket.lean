import RtFogros.Lib.Frame
import RtFogros.Lib.Waker
import RtFogros.Packet.Text

/-!
# The KCP socket

`KcpSocket` of `fogrs-kcp/src/skcp.rs` and the configurations of `config.rs`.  The `kcp` crate
is a parameter.  A method is a program on the socket and the tasks that sleep at it; a call of
the crate that fails may have changed its state.

Two facts hold of all operations.  What every call of the crate keeps of its state, every operation
keeps (`onKcp_step`), so that a law of the crate is lifted to the socket once; and the time of the
last activity does not go back behind a time that the clocks have passed (`le_lastUpdate_step`),
which is what decides whether the updater finds a session inactive.
-/

namespace RtFogros.Transport

/-! ## Configurations -/

structure KcpNoDelayConfig where
  nodelay : Bool
  interval : Int
  resend : Int
  nc : Bool
deriving DecidableEq

def KcpNoDelayConfig.fastest : KcpNoDelayConfig :=
  { nodelay := true, interval := 10, resend := 2, nc := true }

def KcpNoDelayConfig.normal : KcpNoDelayConfig :=
  { nodelay := false, interval := 40, resend := 0, nc := false }

/-- `session_expire` is in milliseconds. -/
structure KcpConfig where
  mtu : Nat
  nodelay : KcpNoDelayConfig
  wndSize : Nat × Nat
  sessionExpire : Nat
  flushWrite : Bool
  flushAcksInput : Bool
  stream : Bool
deriving DecidableEq

def toKcpConfig (config : String) : KcpConfig :=
  let fast : KcpConfig :=
    { mtu := 1400, nodelay := .fastest, wndSize := (256, 256), sessionExpire := 90000,
      flushWrite := true, flushAcksInput := true, stream := false }
  match config with
  | "fast" => fast
  | "slow" =>
    { mtu := 1400, nodelay := .normal, wndSize := (256, 256), sessionExpire := 90000,
      flushWrite := false, flushAcksInput := false, stream := false }
  | _ => fast

/-! ## The crate -/

/-- The errors of the crate that the socket tells apart, and that of a closed socket. -/
inductive KcpError where
  | convInconsistent (expected actual : UInt32)
  | recvQueueEmpty
  | expectingFragment
  | userBufTooSmall
  | brokenPipe
  | other (code : Nat)
deriving DecidableEq

/-- The functions of the `kcp` crate on its states.  `recv` has the length of the buffer and
returns the bytes written to its front. -/
structure Kcp (K : Type) where
  new : Bool → UInt32 → K
  applyConfig : KcpConfig → K → K
  inputConv : K → K
  input : Bytes → K → Except KcpError Unit × K
  flushAck : K → Except KcpError Unit × K
  send : Bytes → K → Except KcpError Nat × K
  recv : Nat → K → Except KcpError Bytes × K
  peeksize : K → Except KcpError Nat
  flush : K → Except KcpError Unit × K
  update : UInt32 → K → Except KcpError Unit × K
  check : UInt32 → K → UInt32
  waitSnd : K → Nat
  sndWnd : K → Nat
  rmtWnd : K → Nat
  mss : K → Nat
  waitingConv : K → Bool
  conv : K → UInt32
  setConv : UInt32 → K → K

/-! ## The socket -/

/-- A task, which stands for its waker. -/
abbrev Task := Nat

/-- `now_millis()` and `Instant::now()`. -/
structure Clock where
  millis : UInt32
  instant : Nat

structure KcpSocket (K : Type) where
  kcp : K
  lastUpdate : Nat
  flushWrite : Bool
  flushAckInput : Bool
  sentFirst : Bool := false
  pendingSender : Option Task := none
  pendingReceiver : Option Task := none
  closed : Bool := false

/-- The socket and the tasks that sleep: their last poll was pending, and they have not been
woken since. -/
structure Polled (K : Type) where
  socket : KcpSocket K
  sending : Finset Task := ∅
  receiving : Finset Task := ∅

abbrev SocketM (K : Type) := EStateM KcpError (Polled K)

/-- `Poll`, where the error of a ready poll is that of the program. -/
inductive Poll (α : Type) where
  | pending
  | ready (a : α)
deriving DecidableEq

section Socket

variable {K α : Type} (api : Kcp K)

/-- A call of the crate, with `?`. -/
def call (f : K → Except KcpError α × K) : SocketM K α := fun s =>
  match f s.socket.kcp with
  | (.ok a, kcp) => .ok a { s with socket.kcp := kcp }
  | (.error e, kcp) => .error e { s with socket.kcp := kcp }

/-- `waker.wake()` where there is a waker. -/
def wake (tasks : Option Task) (s : Polled K) : Polled K :=
  { s with
    sending := Waker.awaken tasks s.sending
    receiving := Waker.awaken tasks s.receiving }

namespace KcpSocket

def windowFull (socket : KcpSocket K) : Bool :=
  api.waitSnd socket.kcp ≥ api.sndWnd socket.kcp || api.waitSnd socket.kcp ≥ api.rmtWnd socket.kcp

def canSend (socket : KcpSocket K) : Bool :=
  !socket.windowFull api && !api.waitingConv socket.kcp

def canReceive (socket : KcpSocket K) : Bool :=
  match api.peeksize socket.kcp with
  | .ok peek => peek > 0
  | .error _ => false

def canClose (socket : KcpSocket K) : Bool := api.waitSnd socket.kcp = 0

def needFlush (socket : KcpSocket K) : Bool :=
  socket.windowFull api && !api.waitingConv socket.kcp

end KcpSocket

/-- `KcpSocket::new`; the first update's error is that of the program. -/
def KcpSocket.new (c : KcpConfig) (conv : UInt32) (time : Clock) :
    Except KcpError (KcpSocket K) :=
  let kcp := api.applyConfig c (api.new c.stream conv)
  let kcp := if conv = 0 then api.inputConv kcp else kcp
  match api.update time.millis kcp with
  | (.error e, _) => .error e
  | (.ok _, kcp) =>
    .ok { kcp, lastUpdate := time.instant, flushWrite := c.flushWrite,
          flushAckInput := c.flushAcksInput }

/-- A waker in the place of the sender that waits is woken if it is another's. -/
def registerSender (task : Task) (s : Polled K) : Polled K :=
  { wake (s.socket.pendingSender.filter (· ≠ task)) s with
    socket.pendingSender := some task }

def registerReceiver (task : Task) (s : Polled K) : Polled K :=
  { wake (s.socket.pendingReceiver.filter (· ≠ task)) s with
    socket.pendingReceiver := some task }

def wakeSender : SocketM K Bool := fun s =>
  if s.socket.pendingSender.isSome && s.socket.canSend api then
    .ok true { wake s.socket.pendingSender s with socket.pendingSender := none }
  else .ok false s

def wakeReceiver : SocketM K Bool := fun s =>
  if s.socket.pendingReceiver.isSome && s.socket.canReceive api then
    .ok true { wake s.socket.pendingReceiver s with socket.pendingReceiver := none }
  else .ok false s

def tryWakePendingWaker : SocketM K Bool := do
  let sender ← wakeSender api
  let receiver ← wakeReceiver api
  return sender || receiver

def touch (time : Clock) : SocketM K Unit :=
  modify fun s => { s with socket.lastUpdate := time.instant }

def flushAckInput : SocketM K Unit := do
  if (← get).socket.flushAckInput then call api.flushAck

/-- `input`, where a datagram of another conversation is ignored. -/
def input (time : Clock) (buf : Bytes) : SocketM K Bool := fun s =>
  match api.input buf s.socket.kcp with
  | (.error (.convInconsistent _ _), kcp) => .ok false { s with socket.kcp := kcp }
  | (.error e, kcp) => .error e { s with socket.kcp := kcp }
  | (.ok _, kcp) =>
    (do touch time; flushAckInput api; tryWakePendingWaker api) { s with socket.kcp := kcp }

/-- What `poll_send` gives to the crate: the first packet, which asks for a conversation, is
cut. -/
def sendable (socket : KcpSocket K) (buf : Bytes) : Bytes :=
  if !socket.sentFirst && api.waitingConv socket.kcp && buf.length > api.mss socket.kcp then
    buf.take (api.mss socket.kcp)
  else buf

def flushFull : SocketM K Unit := do
  if (← get).socket.windowFull api then call api.flush

def flushWritten : SocketM K Unit := do
  if (← get).socket.flushWrite then call api.flush

/-- The part of `poll_send` that sends. -/
def sendNow (time : Clock) (buf : Bytes) : SocketM K Nat := do
  let s ← get
  let n ← call (api.send (sendable api s.socket buf))
  modify fun s => { s with socket.sentFirst := true }
  flushFull api
  touch time
  flushWritten api
  return n

def pollSend (time : Clock) (task : Task) (buf : Bytes) : SocketM K (Poll Nat) := fun s =>
  if s.socket.closed then .error .brokenPipe s
  else if s.socket.sentFirst && (s.socket.windowFull api || api.waitingConv s.socket.kcp) then
    .ok .pending (registerSender task s)
  else (.ready <$> sendNow api time buf) s

/-- `poll_recv`, with the bytes written to the front of the buffer. -/
def pollRecv (time : Clock) (task : Task) (len : Nat) : SocketM K (Poll Bytes) := fun s =>
  if s.socket.closed then .ok (.ready []) s
  else match api.recv len s.socket.kcp with
    | (.ok [], kcp) | (.error .recvQueueEmpty, kcp) | (.error .expectingFragment, kcp) =>
      .ok .pending (registerReceiver task { s with socket.kcp := kcp })
    | (.error e, kcp) => .error e { s with socket.kcp := kcp }
    | (.ok bytes, kcp) =>
      .ok (.ready bytes) { s with socket := { s.socket with kcp, lastUpdate := time.instant } }

def flush (time : Clock) : SocketM K Unit := do
  call api.flush
  touch time

/-- `update`, with the instant of the next one. -/
def update (time : Clock) : SocketM K Nat := do
  call (api.update time.millis)
  let next := api.check time.millis (← get).socket.kcp
  let _ ← tryWakePendingWaker api
  return time.instant + next.toNat

def close : SocketM K Unit :=
  modify fun s =>
    { wake s.socket.pendingReceiver (wake s.socket.pendingSender s) with
      socket := { s.socket with closed := true, pendingSender := none, pendingReceiver := none } }

def setConv (conv : UInt32) : SocketM K Unit :=
  modify fun s => { s with socket.kcp := api.setConv conv s.socket.kcp }

end Socket

/-! ## Operations -/

/-- What is done with a socket, reads apart. -/
inductive IoOp where
  | input (time : Clock) (buf : Bytes)
  | pollSend (time : Clock) (task : Task) (buf : Bytes)
  | flush (time : Clock)
  | update (time : Clock)
  | close
  | setConv (conv : UInt32)

inductive SocketOp where
  | pollRecv (time : Clock) (task : Task) (len : Nat)
  | io (op : IoOp)

namespace Polled

variable {K : Type} (api : Kcp K)

/-- The poll of a task puts it to sleep if it is pending. -/
def settle {α : Type} (sleep awake : Polled K → Polled K) :
    EStateM.Result KcpError (Polled K) (Poll α) → Polled K
  | .ok .pending s => sleep s
  | .ok (.ready _) s | .error _ s => awake s

def io (s : Polled K) : IoOp → Polled K
  | .input time buf => (Transport.input api time buf s).state
  | .pollSend time task buf =>
    settle (fun s => { s with sending := insert task s.sending })
      (fun s => { s with sending := s.sending.erase task }) (Transport.pollSend api time task buf s)
  | .flush time => (Transport.flush api time s).state
  | .update time => (Transport.update api time s).state
  | .close => (Transport.close s).state
  | .setConv conv => (Transport.setConv api conv s).state

def step (s : Polled K) : SocketOp → Polled K
  | .pollRecv time task len =>
    settle (fun s => { s with receiving := insert task s.receiving })
      (fun s => { s with receiving := s.receiving.erase task })
      (Transport.pollRecv api time task len s)
  | .io op => s.io api op

end Polled

/-! ## What an operation does to the state of the crate -/

section Calls

variable {K α : Type} {api : Kcp K} {R : K → K → Prop}

/-- The states of the crate are related, and a closed socket stays closed. -/
structure OnKcp (R : K → K → Prop) (s s' : Polled K) : Prop where
  kcp : R s.socket.kcp s'.socket.kcp
  closed : s.socket.closed = true → s'.socket.closed = true

instance [IsPreorder K R] : IsPreorder (Polled K) (OnKcp R) where
  refl s := ⟨Std.Refl.refl s.socket.kcp, id⟩
  trans _ _ _ h h' := ⟨IsTrans.trans _ _ _ h.kcp h'.kcp, h'.closed ∘ h.closed⟩

/-- Every call of the crate in the operation takes a state to a related one. -/
def Calls (api : Kcp K) (R : K → K → Prop) : SocketOp → Prop
  | .pollRecv _ _ len => ∀ k, R k (api.recv len k).2
  | .io (.input _ buf) => (∀ k, R k (api.input buf k).2) ∧ ∀ k, R k (api.flushAck k).2
  | .io (.pollSend ..) => (∀ buf k, R k (api.send buf k).2) ∧ ∀ k, R k (api.flush k).2
  | .io (.flush _) => ∀ k, R k (api.flush k).2
  | .io (.update time) => ∀ k, R k (api.update time.millis k).2
  | .io .close => True
  | .io (.setConv conv) => ∀ k, R k (api.setConv conv k)

theorem onKcp_call {f : K → Except KcpError α × K} (hf : ∀ k, R k (f k).2) :
    EStateM.Respects (OnKcp R) (call f) := by
  constructor
  intro s
  have hk := hf s.socket.kcp
  unfold call
  split
  · rename_i heq
    rw [heq] at hk
    exact ⟨hk, id⟩
  · rename_i heq
    rw [heq] at hk
    exact ⟨hk, id⟩

variable [IsPreorder K R]

theorem OnKcp.of_eq {s s' : Polled K} (hkcp : s'.socket.kcp = s.socket.kcp)
    (hclosed : s.socket.closed = true → s'.socket.closed = true) : OnKcp R s s' :=
  ⟨hkcp ▸ Std.Refl.refl _, hclosed⟩

theorem onKcp_update {g : Polled K → Polled K} (hkcp : ∀ s, (g s).socket.kcp = s.socket.kcp)
    (hclosed : ∀ s, (g s).socket.closed = s.socket.closed) :
    EStateM.Respects (OnKcp R) (modify g : SocketM K PUnit) :=
  .update fun s => .of_eq (hkcp s) fun h => (hclosed s).trans h

theorem onKcp_tryWakePendingWaker :
    EStateM.Respects (OnKcp R) (tryWakePendingWaker api) := by
  have hsender : EStateM.Respects (OnKcp R) (wakeSender api) := by
    constructor
    intro s
    unfold wakeSender
    split <;> exact .of_eq rfl id
  have hreceiver : EStateM.Respects (OnKcp R) (wakeReceiver api) := by
    constructor
    intro s
    unfold wakeReceiver
    split <;> exact .of_eq rfl id
  exact .bind hsender fun _ => .bind hreceiver fun _ => .pure _

theorem onKcp_sendNow (hsend : ∀ buf k, R k (api.send buf k).2)
    (hflush : ∀ k, R k (api.flush k).2) (time : Clock) (buf : Bytes) :
    EStateM.Respects (OnKcp R) (sendNow api time buf) := by
  have hcall : EStateM.Respects (OnKcp R) (call api.flush) := onKcp_call hflush
  exact .bind .get fun s => .bind (onKcp_call (hsend _)) fun _ =>
    .bind (onKcp_update (fun _ => rfl) fun _ => rfl) fun _ =>
      .bind (.bind .get fun _ => .ite hcall (.pure _)) fun _ =>
        .bind (onKcp_update (fun _ => rfl) fun _ => rfl) fun _ =>
          .bind (.bind .get fun _ => .ite hcall (.pure _)) fun _ => .pure _

theorem onKcp_input {buf : Bytes} (hinput : ∀ k, R k (api.input buf k).2)
    (hack : ∀ k, R k (api.flushAck k).2) (time : Clock) :
    EStateM.Respects (OnKcp R) (input api time buf) := by
  constructor
  intro s
  have hk := hinput s.socket.kcp
  have hprogram : EStateM.Respects (OnKcp R)
      (do touch time; flushAckInput api; tryWakePendingWaker api) :=
    .bind (onKcp_update (fun _ => rfl) fun _ => rfl) fun _ =>
      .bind (.bind .get fun _ => .ite (onKcp_call hack) (.pure _)) fun _ =>
        onKcp_tryWakePendingWaker
  unfold input
  split
  · rename_i heq
    rw [heq] at hk
    exact ⟨hk, id⟩
  · rename_i heq
    rw [heq] at hk
    exact ⟨hk, id⟩
  · rename_i kcp heq
    rw [heq] at hk
    have hrest := hprogram.rel { s with socket.kcp := kcp }
    exact ⟨IsTrans.trans _ _ _ hk hrest.kcp, hrest.closed⟩

theorem onKcp_pollSend (hsend : ∀ buf k, R k (api.send buf k).2)
    (hflush : ∀ k, R k (api.flush k).2) (s : Polled K) (time : Clock) (task : Task)
    (buf : Bytes) : OnKcp R s (s.io api (.pollSend time task buf)) := by
  unfold Polled.io pollSend
  dsimp only
  split
  · exact .of_eq rfl id
  split
  · exact .of_eq rfl id
  · have hrun := (onKcp_sendNow hsend hflush time buf).rel s
    change OnKcp R s (Polled.settle _ _ (EStateM.map Poll.ready (sendNow api time buf) s))
    unfold EStateM.map
    cases hresult : sendNow api time buf s with
    | ok n s' =>
      rw [hresult] at hrun
      exact ⟨hrun.kcp, hrun.closed⟩
    | error e s' =>
      rw [hresult] at hrun
      exact ⟨hrun.kcp, hrun.closed⟩

theorem onKcp_pollRecv {len : Nat} (hrecv : ∀ k, R k (api.recv len k).2) (s : Polled K)
    (time : Clock) (task : Task) : OnKcp R s (s.step api (.pollRecv time task len)) := by
  have hk := hrecv s.socket.kcp
  unfold Polled.step pollRecv
  dsimp only
  split
  · exact .of_eq rfl id
  split
  all_goals
    rename_i heq
    rw [heq] at hk
    exact ⟨hk, id⟩

/-- What the calls keep, the operation keeps. -/
theorem onKcp_step (op : SocketOp) (h : Calls api R op) (s : Polled K) :
    OnKcp R s (s.step api op) := by
  match op, h with
  | .pollRecv time task len, h => exact onKcp_pollRecv h s time task
  | .io (.input time buf), h => exact (onKcp_input h.1 h.2 time).rel s
  | .io (.pollSend time task buf), h => exact onKcp_pollSend h.1 h.2 s time task buf
  | .io (.flush time), h =>
    have hflush : EStateM.Respects (OnKcp R) (flush api time) :=
      .bind (onKcp_call h) fun _ => onKcp_update (fun _ => rfl) fun _ => rfl
    exact hflush.rel s
  | .io (.update time), h =>
    have hupdate : EStateM.Respects (OnKcp R) (update api time) :=
      .bind (onKcp_call h) fun _ => .bind .get fun _ =>
        .bind onKcp_tryWakePendingWaker fun _ => .pure _
    exact hupdate.rel s
  | .io .close, _ => exact .of_eq rfl fun _ => rfl
  | .io (.setConv conv), h => exact ⟨h s.socket.kcp, id⟩

/-- A closed socket stays closed. -/
theorem closed_step (op : SocketOp) {s : Polled K} (h : s.socket.closed = true) :
    (s.step api op).socket.closed = true := by
  let R : K → K → Prop := fun _ _ => True
  have : IsPreorder K R := { refl := fun _ => trivial, trans := fun _ _ _ _ _ => trivial }
  have hcalls : Calls api R op := by
    match op with
    | .pollRecv .. | .io (.flush _) | .io (.update _) | .io (.setConv _) => exact fun _ => trivial
    | .io (.input ..) => exact ⟨fun _ => trivial, fun _ => trivial⟩
    | .io (.pollSend ..) => exact ⟨fun _ _ => trivial, fun _ => trivial⟩
    | .io .close => trivial
  exact (onKcp_step _ hcalls s).closed h

end Calls

/-! ## The time of the last activity -/

/-- The clock that an operation reads. -/
def SocketOp.time : SocketOp → Option Clock
  | .pollRecv time _ _ | .io (.input time _) | .io (.pollSend time _ _) | .io (.flush time)
  | .io (.update time) => some time
  | .io .close | .io (.setConv _) => none

section Activity

variable {K α : Type} {api : Kcp K} {R : Polled K → Polled K → Prop}
  (hidle : ∀ {s s' : Polled K}, s'.socket.lastUpdate = s.socket.lastUpdate → R s s')

include hidle

theorem idle_call (f : K → Except KcpError α × K) : EStateM.Respects R (call f) := by
  constructor
  intro s
  unfold call
  split <;> exact hidle rfl

variable [IsPreorder (Polled K) R]

theorem idle_tryWakePendingWaker : EStateM.Respects R (tryWakePendingWaker api) := by
  have hsender : EStateM.Respects R (wakeSender api) := by
    constructor
    intro s
    unfold wakeSender
    split <;> exact hidle rfl
  have hreceiver : EStateM.Respects R (wakeReceiver api) := by
    constructor
    intro s
    unfold wakeReceiver
    split <;> exact hidle rfl
  exact .bind hsender fun _ => .bind hreceiver fun _ => .pure _

theorem idle_update (time : Clock) : EStateM.Respects R (update api time) :=
  .bind (idle_call hidle _) fun _ => .bind .get fun _ =>
    .bind (idle_tryWakePendingWaker hidle) fun _ => .pure _

variable {time : Clock} (htouch : EStateM.Respects R (touch time))

include htouch

theorem active_input (buf : Bytes) : EStateM.Respects R (input api time buf) := by
  constructor
  intro s
  have hprogram : EStateM.Respects R
      (do touch time; flushAckInput api; tryWakePendingWaker api) :=
    .bind htouch fun _ => .bind (.bind .get fun _ => .ite (idle_call hidle _) (.pure _)) fun _ =>
      idle_tryWakePendingWaker hidle
  unfold input
  split
  · exact hidle rfl
  · exact hidle rfl
  · rename_i kcp _
    have hstart : R s { s with socket.kcp := kcp } := hidle rfl
    exact IsTrans.trans _ _ _ hstart (hprogram.rel _)

theorem active_sendNow (buf : Bytes) : EStateM.Respects R (sendNow api time buf) :=
  .bind .get fun _ => .bind (idle_call hidle _) fun _ =>
    .bind (.update fun _ => hidle rfl) fun _ =>
      .bind (.bind .get fun _ => .ite (idle_call hidle _) (.pure _)) fun _ =>
        .bind htouch fun _ =>
          .bind (.bind .get fun _ => .ite (idle_call hidle _) (.pure _)) fun _ => .pure _

theorem active_pollSend (s : Polled K) (task : Task) (buf : Bytes) :
    R s (s.io api (.pollSend time task buf)) := by
  unfold Polled.io pollSend
  dsimp only
  split
  · exact hidle rfl
  split
  · exact hidle rfl
  · have hsend : EStateM.Respects R (sendNow api time buf) := active_sendNow hidle htouch buf
    have hrun := hsend.rel s
    change R s (Polled.settle _ _ (EStateM.map Poll.ready (sendNow api time buf) s))
    unfold EStateM.map
    cases hresult : sendNow api time buf s with
    | ok n s' =>
      rw [hresult] at hrun
      exact IsTrans.trans _ _ _ hrun (hidle rfl)
    | error e s' =>
      rw [hresult] at hrun
      exact IsTrans.trans _ _ _ hrun (hidle rfl)

end Activity

/-- An update is no activity. -/
theorem lastUpdate_update {K : Type} {api : Kcp K} (time : Clock) (s : Polled K) :
    (s.io api (.update time)).socket.lastUpdate = s.socket.lastUpdate :=
  (idle_update (R := EStateM.Same fun s : Polled K => s.socket.lastUpdate) id time).rel s

/-- The time of the last activity does not go back behind one that no clock goes back behind. -/
theorem le_lastUpdate_step {K : Type} {api : Kcp K} {last : Nat} (op : SocketOp)
    (hclock : ∀ time ∈ op.time, last ≤ time.instant) {s : Polled K}
    (hs : last ≤ s.socket.lastUpdate) : last ≤ (s.step api op).socket.lastUpdate := by
  let R : Polled K → Polled K → Prop := EStateM.Keeps fun s => last ≤ s.socket.lastUpdate
  have hidle : ∀ {s s' : Polled K}, s'.socket.lastUpdate = s.socket.lastUpdate → R s s' :=
    fun heq hs => hs.trans heq.ge
  have htouch : ∀ {time : Clock}, last ≤ time.instant → EStateM.Respects R (touch time) :=
    fun htime => .update fun _ _ => htime
  have hstep : R s (s.step api op) := by
    match op, hclock with
    | .pollRecv time task len, hclock =>
      intro hs
      unfold Polled.step pollRecv
      dsimp only
      split
      · exact hs
      split
      · exact hs
      · exact hs
      · exact hs
      · exact hs
      · exact hclock time rfl
    | .io (.input time buf), hclock =>
      exact (active_input hidle (htouch (hclock time rfl)) buf).rel s
    | .io (.pollSend time task buf), hclock =>
      exact active_pollSend hidle (htouch (hclock time rfl)) s task buf
    | .io (.flush time), hclock =>
      have hflush : EStateM.Respects R (flush api time) :=
        .bind (idle_call hidle _) fun _ => htouch (hclock time rfl)
      exact hflush.rel s
    | .io (.update time), _ => exact (idle_update hidle time).rel s
    | .io .close, _ => exact id
    | .io (.setConv conv), _ => exact id
  exact hstep hs

end RtFogros.Transport
