import RtFogros.Lib.Run
import RtFogros.Transport.Socket

/-!
# No wake-up is lost at a socket

`no_lost_wakeup`: whatever is done with a socket, in any order and by any tasks, a task that sleeps
at it is the registered one, so that the next datagram or update that lets it go on wakes it, and
nobody sleeps at a closed socket.

`Covered` is the invariant.  It is kept by every part of an operation, also where a call of the
crate fails in the middle, and so by the operations that are composed of them; `Served`, that no
task sleeps that could go on, holds only at the end of those that call `try_wake_pending_waker`
without an error before it.
-/

namespace RtFogros.Transport

section Wakers

variable {K α : Type} {api : Kcp K} {s : Polled K}

/-- Every task that sleeps is registered, and nobody sleeps at a closed socket. -/
structure Covered (s : Polled K) : Prop where
  sending : Waker.Covers s.socket.pendingSender s.sending
  receiving : Waker.Covers s.socket.pendingReceiver s.receiving
  closed : s.socket.closed = true → s.sending = ∅ ∧ s.receiving = ∅

/-- No task that sleeps could go on. -/
structure Served (api : Kcp K) (s : Polled K) : Prop where
  sending : ∀ task ∈ s.sending, s.socket.canSend api = false
  receiving : ∀ task ∈ s.receiving, s.socket.canReceive api = false

abbrev KeepsCovered (x : SocketM K α) : Prop := EStateM.Respects (EStateM.Keeps Covered) x

theorem Covered.setSocket (h : Covered s) {socket : KcpSocket K}
    (hsender : socket.pendingSender = s.socket.pendingSender)
    (hreceiver : socket.pendingReceiver = s.socket.pendingReceiver)
    (hclosed : socket.closed = s.socket.closed) : Covered { s with socket } := by
  refine ⟨?_, ?_, fun hsocket => ?_⟩
  · rw [hsender]
    exact h.sending
  · rw [hreceiver]
    exact h.receiving
  · exact h.closed (hclosed.symm.trans hsocket)

/-- Fewer tasks sleep. -/
theorem Covered.mono (h : Covered s) {sending receiving : Finset Task}
    (hsending : sending ⊆ s.sending) (hreceiving : receiving ⊆ s.receiving) :
    Covered { s with sending, receiving } := by
  refine ⟨h.sending.mono hsending, h.receiving.mono hreceiving, fun hclosed => ?_⟩
  obtain ⟨hnone, hnone'⟩ := h.closed hclosed
  exact ⟨Finset.subset_empty.1 (hnone ▸ hsending), Finset.subset_empty.1 (hnone' ▸ hreceiving)⟩

theorem Covered.wake (h : Covered s) (tasks : Option Task) : Covered (wake tasks s) :=
  h.mono (Waker.awaken_subset ..) (Waker.awaken_subset ..)

/-! ### The programs without polls -/

theorem keepsCovered_call (f : K → Except KcpError α × K) : KeepsCovered (call f) := by
  constructor
  intro s h
  unfold call
  split <;> exact h.setSocket rfl rfl rfl

theorem keepsCovered_touch (time : Clock) : KeepsCovered (touch (K := K) time) :=
  .update fun _ h => h.setSocket rfl rfl rfl

theorem keepsCovered_setConv (conv : UInt32) : KeepsCovered (setConv api conv) :=
  .update fun _ h => h.setSocket rfl rfl rfl

theorem keepsCovered_flush (time : Clock) : KeepsCovered (flush api time) :=
  .bind (keepsCovered_call _) fun _ => keepsCovered_touch time

theorem keepsCovered_flushAckInput : KeepsCovered (flushAckInput api) :=
  .bind .get fun _ => .ite (keepsCovered_call _) (.pure _)

theorem keepsCovered_flushFull : KeepsCovered (flushFull api) :=
  .bind .get fun _ => .ite (keepsCovered_call _) (.pure _)

theorem keepsCovered_flushWritten : KeepsCovered (flushWritten api) :=
  .bind .get fun _ => .ite (keepsCovered_call _) (.pure _)

variable (api) in
theorem keepsCovered_sendNow (time : Clock) (buf : Bytes) : KeepsCovered (sendNow api time buf) :=
  .bind .get fun _ => .bind (keepsCovered_call _) fun _ =>
    .bind (.update fun _ h => h.setSocket rfl rfl rfl) fun _ =>
      .bind keepsCovered_flushFull fun _ => .bind (keepsCovered_touch time) fun _ =>
        .bind keepsCovered_flushWritten fun _ => .pure _

theorem keepsCovered_close : KeepsCovered (close (K := K)) := by
  refine .update fun s h => ?_
  have hsending : Waker.awaken s.socket.pendingReceiver
      (Waker.awaken s.socket.pendingSender s.sending) = ∅ := by
    rw [h.sending.awaken_registered, Waker.awaken_empty]
  have hreceiving : Waker.awaken s.socket.pendingReceiver
      (Waker.awaken s.socket.pendingSender s.receiving) = ∅ :=
    (h.wake s.socket.pendingSender).receiving.awaken_registered
  refine ⟨?_, ?_, fun _ => ⟨hsending, hreceiving⟩⟩
  · change Waker.Covers none (Waker.awaken _ (Waker.awaken _ s.sending))
    rw [hsending]
    exact Waker.covers_empty none
  · change Waker.Covers none (Waker.awaken _ (Waker.awaken _ s.receiving))
    rw [hreceiving]
    exact Waker.covers_empty none

/-! ### Wake-ups -/

variable (api) in
/-- The registered sender is woken where it could send. -/
theorem wakeSender_served (h : Covered s) :
    ∃ waked s', wakeSender api s = .ok waked s' ∧ Covered s' ∧
      ∀ task ∈ s'.sending, s'.socket.canSend api = false := by
  by_cases hwake : (s.socket.pendingSender.isSome && s.socket.canSend api) = true
  · have hnone := h.sending.awaken_registered
    refine ⟨true, { wake s.socket.pendingSender s with
      socket.pendingSender := none }, ?_, ?_, fun task htask => ?_⟩
    · exact if_pos hwake
    · refine ⟨?_, (h.wake _).receiving, (h.wake _).closed⟩
      change Waker.Covers none (Waker.awaken _ s.sending)
      rw [hnone]
      exact Waker.covers_empty none
    · change task ∈ Waker.awaken _ s.sending at htask
      rw [hnone] at htask
      cases htask
  · refine ⟨false, s, ?_, h, fun task htask => ?_⟩
    · exact if_neg hwake
    · rw [h.sending task htask] at hwake
      simpa using hwake

/-- The registered receiver is woken where it could receive. -/
theorem wakeReceiver_served (h : Covered s)
    (hsending : ∀ task ∈ s.sending, s.socket.canSend api = false) :
    ∃ waked s', wakeReceiver api s = .ok waked s' ∧ Covered s' ∧ Served api s' := by
  by_cases hwake : (s.socket.pendingReceiver.isSome && s.socket.canReceive api) = true
  · have hnone := h.receiving.awaken_registered
    refine ⟨true, { wake s.socket.pendingReceiver s with
      socket.pendingReceiver := none }, ?_, ?_, fun task htask => ?_, fun task htask => ?_⟩
    · exact if_pos hwake
    · refine ⟨(h.wake _).sending, ?_, (h.wake _).closed⟩
      change Waker.Covers none (Waker.awaken _ s.receiving)
      rw [hnone]
      exact Waker.covers_empty none
    · exact hsending task (Waker.awaken_subset _ _ htask)
    · change task ∈ Waker.awaken _ s.receiving at htask
      rw [hnone] at htask
      cases htask
  · refine ⟨false, s, ?_, h, hsending, fun task htask => ?_⟩
    · exact if_neg hwake
    · rw [h.receiving task htask] at hwake
      simpa using hwake

variable (api) in
/-- `try_wake_pending_waker` leaves no task asleep that could go on. -/
theorem tryWakePendingWaker_served (h : Covered s) :
    ∃ waked s', tryWakePendingWaker api s = .ok waked s' ∧ Covered s' ∧ Served api s' := by
  obtain ⟨sender, s₁, hsender, hcovered, hsending⟩ := wakeSender_served api h
  obtain ⟨receiver, s₂, hreceiver, hcovered', hserved⟩ := wakeReceiver_served hcovered hsending
  refine ⟨sender || receiver, s₂, ?_, hcovered', hserved⟩
  exact EStateM.bind_eq_ok.2
    ⟨sender, s₁, hsender, EStateM.bind_eq_ok.2 ⟨receiver, s₂, hreceiver, rfl⟩⟩

theorem keepsCovered_tryWakePendingWaker : KeepsCovered (tryWakePendingWaker api) := by
  constructor
  intro s h
  obtain ⟨waked, s', hrun, hcovered, -⟩ := tryWakePendingWaker_served api h
  rw [hrun]
  exact hcovered

/-! ### Updates and datagrams -/

theorem keepsCovered_update (time : Clock) : KeepsCovered (update api time) :=
  .bind (keepsCovered_call _) fun _ => .bind .get fun _ =>
    .bind keepsCovered_tryWakePendingWaker fun _ => .pure _

theorem served_of_update {time : Clock} {next : Nat} {s' : Polled K} (h : Covered s)
    (hrun : update api time s = .ok next s') : Served api s' := by
  obtain ⟨_, s₁, hcall, hrun⟩ := EStateM.bind_eq_ok.1 hrun
  obtain ⟨s₁', s₂, hget, hrun⟩ := EStateM.bind_eq_ok.1 hrun
  cases hget
  obtain ⟨waked, s₂, hwake, hrun⟩ := EStateM.bind_eq_ok.1 hrun
  cases hrun
  obtain ⟨waked', s₂', hwake', -, hserved⟩ :=
    tryWakePendingWaker_served api ((keepsCovered_call _).of_ok hcall h)
  rw [hwake] at hwake'
  cases hwake'
  exact hserved

theorem keepsCovered_accepted (time : Clock) :
    KeepsCovered (do touch time; flushAckInput api; tryWakePendingWaker api) :=
  .bind (keepsCovered_touch time) fun _ =>
    .bind keepsCovered_flushAckInput fun _ => keepsCovered_tryWakePendingWaker

theorem keepsCovered_input (time : Clock) (buf : Bytes) : KeepsCovered (input api time buf) := by
  constructor
  intro s h
  unfold input
  split
  · exact h.setSocket rfl rfl rfl
  · exact h.setSocket rfl rfl rfl
  · exact (keepsCovered_accepted time).rel _ (h.setSocket rfl rfl rfl)

theorem served_of_input {time : Clock} {buf : Bytes} {waked : Bool} {s' : Polled K}
    (h : Covered s) (haccepted : (api.input buf s.socket.kcp).1 = .ok ())
    (hrun : input api time buf s = .ok waked s') : Served api s' := by
  obtain ⟨kcp, heq⟩ : ∃ kcp, api.input buf s.socket.kcp = (.ok (), kcp) :=
    ⟨_, Prod.ext haccepted rfl⟩
  unfold input at hrun
  rw [heq] at hrun
  obtain ⟨_, s₁, htouch, hrun⟩ := EStateM.bind_eq_ok.1 hrun
  obtain ⟨_, s₂, hflush, hrun⟩ := EStateM.bind_eq_ok.1 hrun
  have h₁ := (keepsCovered_touch time).of_ok htouch (h.setSocket rfl rfl rfl)
  obtain ⟨waked', s₃, hwake, -, hserved⟩ :=
    tryWakePendingWaker_served api (keepsCovered_flushAckInput.of_ok hflush h₁)
  rw [hwake] at hrun
  cases hrun
  exact hserved

/-! ### Polls -/

/-- A task that goes to sleep has taken the place of the one that slept. -/
theorem Covered.registerSender (h : Covered s) (hclosed : s.socket.closed = false) (task : Task) :
    Covered { registerSender task s with
      sending := insert task (Transport.registerSender task s).sending } := by
  refine ⟨h.sending.park task, (h.wake _).receiving, fun hopen => ?_⟩
  exact absurd (hopen.symm.trans hclosed) (by decide)

theorem Covered.registerReceiver (h : Covered s) (hclosed : s.socket.closed = false)
    (task : Task) :
    Covered { registerReceiver task s with
      receiving := insert task (Transport.registerReceiver task s).receiving } := by
  refine ⟨(h.wake _).sending, h.receiving.park task, fun hopen => ?_⟩
  exact absurd (hopen.symm.trans hclosed) (by decide)

theorem Covered.pollSend (h : Covered s) (time : Clock) (task : Task) (buf : Bytes) :
    Covered (s.io api (.pollSend time task buf)) := by
  have hawake : ∀ t : Polled K, Covered t → Covered { t with sending := t.sending.erase task } :=
    fun t ht => ht.mono (Finset.erase_subset ..) (Finset.Subset.refl _)
  unfold Polled.io Transport.pollSend
  dsimp only
  by_cases hclosed : s.socket.closed = true
  · rw [if_pos hclosed]
    exact hawake s h
  · rw [if_neg hclosed]
    split
    · exact h.registerSender (by simpa using hclosed) task
    · have hrun := (keepsCovered_sendNow api time buf).rel s h
      change Covered (Polled.settle _ _ (EStateM.map Poll.ready (sendNow api time buf) s))
      unfold EStateM.map
      cases hresult : sendNow api time buf s with
      | ok n s' =>
        rw [hresult] at hrun
        exact hawake s' hrun
      | error e s' =>
        rw [hresult] at hrun
        exact hawake s' hrun

theorem Covered.pollRecv (h : Covered s) (time : Clock) (task : Task) (len : Nat) :
    Covered (Polled.step api s (.pollRecv time task len)) := by
  have hawake : ∀ t : Polled K, Covered t →
      Covered { t with receiving := t.receiving.erase task } :=
    fun t ht => ht.mono (Finset.Subset.refl _) (Finset.erase_subset ..)
  have hkcp : ∀ kcp, Covered { s with socket.kcp := kcp } := fun kcp => h.setSocket rfl rfl rfl
  unfold Polled.step Transport.pollRecv
  dsimp only
  by_cases hclosed : s.socket.closed = true
  · rw [if_pos hclosed]
    exact hawake s h
  · rw [if_neg hclosed]
    split
    · exact (hkcp _).registerReceiver (by simpa using hclosed) task
    · exact (hkcp _).registerReceiver (by simpa using hclosed) task
    · exact (hkcp _).registerReceiver (by simpa using hclosed) task
    · exact hawake _ (hkcp _)
    · exact hawake _ (h.setSocket rfl rfl rfl)

theorem Covered.io (h : Covered s) (op : IoOp) : Covered (s.io api op) := by
  cases op with
  | input time buf => exact (keepsCovered_input time buf).rel s h
  | pollSend time task buf => exact h.pollSend time task buf
  | flush time => exact (keepsCovered_flush time).rel s h
  | update time => exact (keepsCovered_update time).rel s h
  | close => exact keepsCovered_close.rel s h
  | setConv conv => exact (keepsCovered_setConv conv).rel s h

theorem Covered.step (h : Covered s) (op : SocketOp) : Covered (s.step api op) := by
  cases op with
  | pollRecv time task len => exact h.pollRecv time task len
  | io op => exact h.io op

theorem Covered.start (socket : KcpSocket K) : Covered ({ socket } : Polled K) :=
  ⟨Waker.covers_empty _, Waker.covers_empty _, fun _ => ⟨rfl, rfl⟩⟩

/-- **Main result.**  Whatever is done with a socket, every task that sleeps at it is
registered and none sleeps once it is closed; and after an update that succeeds, or an input that
succeeds with a datagram that the crate accepts, no task sleeps that could go on. -/
theorem no_lost_wakeup (api : Kcp K) (socket : KcpSocket K) (ops : List SocketOp) :
    let s := Run.after (Polled.step api) { socket } ops
    Covered s ∧
      (∀ time next s', update api time s = .ok next s' → Served api s') ∧
      ∀ time buf waked s', (api.input buf s.socket.kcp).1 = .ok () →
        input api time buf s = .ok waked s' → Served api s' := by
  intro s
  have h : Covered s := Run.invariant (fun s op hs => hs.step op) (.start socket) ops
  exact ⟨h, fun time next s' hrun => served_of_update h hrun,
    fun time buf waked s' haccepted hrun => served_of_input h haccepted hrun⟩

end Wakers

end RtFogros.Transport
