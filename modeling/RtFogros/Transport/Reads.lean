import RtFogros.Transport.Stream

/-!
# What is read from a KCP stream

`reads_arrived`: polls with buffers of any sizes return what arrived, byte for byte and in order,
whatever else is done with the socket between them; none fails, and one that is pending had nothing
to return.  `read_is_message`: where no buffer is smaller than a message that waits, a read is a
message.

`Polls` says what one poll does: the bytes that it returns, followed by those that it leaves in the
buffer and in the crate's queue, are the bytes that there were.  It is proved by induction on the
queue, since the poll's loop goes on past empty messages, and carried through the run by `Flows`
and `Whole`.
-/

namespace RtFogros.Transport

/-! ## Runs -/

inductive StreamOp where
  | pollRecv (time : Clock) (task : Task) (len : Nat)
  | io (op : IoOp)

/-- A stream with the messages that arrived at it and what its polls returned.  Who sleeps in a
poll of the stream is not followed here. -/
structure Tapped (K : Type) where
  stream : KcpStream K
  arrived : List Bytes
  reads : List Bytes := []

def Poll.bytes : Poll (Except KcpError Bytes) → List Bytes
  | .ready (.ok bytes) => [bytes]
  | _ => []

/-- The messages that are not empty. -/
def solid (messages : List Bytes) : List Bytes := messages.filter (· ≠ [])

namespace Tapped

variable {K : Type} (api : Kcp K) (queue : K → List Bytes)

/-- A stream on a socket that was just made. -/
def initial (socket : KcpSocket K) : Tapped K where
  stream := { session := { socket } }
  arrived := queue socket.kcp

def step (t : Tapped K) : StreamOp → Tapped K
  | .pollRecv time task len =>
    let (poll, stream) := t.stream.pollRecv api time task len
    { t with stream, reads := t.reads ++ poll.bytes }
  | .io op =>
    let session := t.stream.session.io api op
    { t with
      stream.session := session
      arrived := t.arrived ++
        (queue session.socket.kcp).drop (queue t.stream.session.socket.kcp).length }

end Tapped

/-! ## One poll -/

namespace KcpStream

variable {K : Type} {api : Kcp K} {mode : K → Prop} {queue : K → List Bytes}
  {stream : KcpStream K} {len : Nat}

/-- The positions are in the buffer. -/
structure Sound (mode : K → Prop) (stream : KcpStream K) : Prop where
  mode : mode stream.session.socket.kcp
  pos_le : stream.recvBufferPos ≤ stream.recvBufferCap
  cap_le : stream.recvBufferCap ≤ stream.recvBuffer.length

/-- What a poll returns, followed by what it leaves. -/
structure Polls (queue : K → List Bytes) (stream : KcpStream K)
    (result : Poll (Except KcpError Bytes) × KcpStream K) (len : Nat) : Prop where
  flow : result.1.bytes.flatten ++ result.2.buffered ++
      (queue result.2.session.socket.kcp).flatten =
    stream.buffered ++ (queue stream.session.socket.kcp).flatten
  closed : result.2.session.socket.closed = stream.session.socket.closed
  no_error : ∀ e, result.1 ≠ .ready (.error e)
  pending : result.1 = .pending → stream.buffered = [] ∧
    (queue stream.session.socket.kcp).head?.getD [] = []
  empty : result.1 = .ready (.ok []) → 0 < len → stream.session.socket.closed = true
  whole : stream.buffered = [] →
    (∀ message ∈ queue stream.session.socket.kcp, message.length ≤ len) →
    result.2.buffered = [] ∧
      solid (result.1.bytes ++ queue result.2.session.socket.kcp) =
        solid (queue stream.session.socket.kcp)

theorem buffered_eq_nil (h : ¬ stream.recvBufferPos < stream.recvBufferCap) :
    stream.buffered = [] := by
  unfold buffered
  rw [Nat.sub_eq_zero_of_le (Nat.le_of_not_lt h), List.take_zero]

theorem copyBuffered_append (stream : KcpStream K) (len : Nat) :
    (stream.copyBuffered len).1 ++ (stream.copyBuffered len).2.buffered = stream.buffered := by
  unfold copyBuffered buffered
  dsimp only
  rw [← List.drop_drop, Nat.sub_add_eq]
  generalize stream.recvBuffer.drop stream.recvBufferPos = bytes
  generalize stream.recvBufferCap - stream.recvBufferPos = remaining
  have htake :
      (bytes.take remaining).take (min remaining len) = bytes.take (min remaining len) := by
    rw [List.take_take, Nat.min_eq_left (Nat.min_le_left _ _)]
  have hdrop : (bytes.take remaining).drop (min remaining len) =
      (bytes.drop (min remaining len)).take (remaining - min remaining len) := List.drop_take ..
  rw [← htake, ← hdrop, List.take_append_drop]

theorem Sound.copyBuffered (h : stream.Sound mode) (len : Nat) :
    (stream.copyBuffered len).2.Sound mode := by
  refine ⟨h.mode, ?_, h.cap_le⟩
  have hpos := h.pos_le
  unfold KcpStream.copyBuffered
  dsimp only
  omega

/-- A copy with room for a byte is not empty. -/
theorem copyBuffered_ne_nil (h : stream.Sound mode)
    (hlt : stream.recvBufferPos < stream.recvBufferCap) (hlen : 0 < len) :
    (stream.copyBuffered len).1 ≠ [] := by
  have hcap := h.cap_le
  rw [← List.length_pos_iff]
  unfold copyBuffered
  dsimp only
  rw [List.length_take, List.length_drop]
  omega

/-- All is copied where there is room. -/
theorem copyBuffered_whole (hlen : stream.buffered.length ≤ len) (h : stream.Sound mode) :
    (stream.copyBuffered len).1 = stream.buffered ∧ (stream.copyBuffered len).2.buffered = [] := by
  have hcap := h.cap_le
  have hpos := h.pos_le
  unfold buffered at hlen ⊢
  rw [List.length_take, List.length_drop] at hlen
  unfold copyBuffered
  dsimp only
  rw [Nat.min_eq_left (by omega)]
  refine ⟨rfl, ?_⟩
  rw [Nat.sub_eq_zero_of_le (by omega), List.take_zero]

section Spec

variable (hmode : MessageMode api mode queue)

include hmode

/-- A poll into the buffer, which has room for the first message. -/
theorem fillBuffer_polls (h : stream.Sound mode)
    (hempty : ¬ stream.recvBufferPos < stream.recvBufferCap) (time : Clock) (task : Task)
    {requiredSize : Nat} (len : Nat)
    (hsize : ∀ message rest, queue stream.session.socket.kcp = message :: rest →
      message.length ≤ requiredSize) :
    (stream.fillBuffer api time task requiredSize len).2.Sound mode ∧
      Polls queue stream (stream.fillBuffer api time task requiredSize len) len := by
  have hbuffered := buffered_eq_nil hempty
  have hcap := h.cap_le
  set room := stream.recvBuffer ++ List.replicate (requiredSize - stream.recvBuffer.length) 0
    with hroom
  have hlong : requiredSize ≤ room.length ∧ stream.recvBuffer.length ≤ room.length := by
    rw [hroom, List.length_append, List.length_replicate]
    omega
  unfold fillBuffer
  dsimp only
  rw [← hroom]
  by_cases hclosed : stream.session.socket.closed = true
  · have hpoll : Transport.pollRecv api time task room.length stream.session =
        .ok (.ready []) stream.session := by
      unfold Transport.pollRecv
      rw [if_pos hclosed]
    have hsame : KcpStream.buffered { stream with recvBuffer := room } = [] :=
      buffered_eq_nil hempty
    rw [hpoll]
    refine ⟨⟨h.mode, h.pos_le, hcap.trans hlong.2⟩, ?_, rfl, nofun, nofun, fun _ _ => hclosed,
      fun _ _ => ⟨hsame, rfl⟩⟩
    dsimp only
    rw [hsame, hbuffered]
    rfl
  · obtain ⟨s', hpoll, hs', hopen', hqueue⟩ | ⟨message, rest, hqueue, hlt, -⟩ |
      ⟨message, s', hne, hpoll, hs', hopen', hqueue, hle⟩ :=
      pollRecv_cases hmode stream.session time task room.length h.mode (by simpa using hclosed)
    · have hsame : KcpStream.buffered { stream with session := s', recvBuffer := room } = [] :=
        buffered_eq_nil hempty
      rw [hpoll]
      refine ⟨⟨hs', h.pos_le, hcap.trans hlong.2⟩, ?_, ?_, nofun, fun _ => ⟨hbuffered, ?_⟩, nofun,
        fun _ _ => ⟨hsame, ?_⟩⟩
      · dsimp only
        rw [hsame, hbuffered]
        rcases hqueue with ⟨hqueue, -⟩ | hqueue <;> rw [hqueue] <;> rfl
      · exact hopen'.trans (by simpa using hclosed)
      · rcases hqueue with ⟨-, hqueue⟩ | hqueue <;> rw [hqueue] <;> rfl
      · rcases hqueue with ⟨hqueue, -⟩ | hqueue <;> rw [hqueue] <;> rfl
    · exact absurd (hsize message rest hqueue) (by omega)
    · obtain ⟨byte, bytes, rfl⟩ := List.exists_cons_of_ne_nil hne
      rw [hpoll]
      set filled : KcpStream K :=
        { stream with
          session := s'
          recvBuffer := (byte :: bytes) ++ room.drop (byte :: bytes).length
          recvBufferPos := 0
          recvBufferCap := (byte :: bytes).length } with hfilled
      have hsound : filled.Sound mode := by
        refine ⟨hs', Nat.zero_le _, ?_⟩
        rw [hfilled, List.length_append]
        exact Nat.le_add_right ..
      have hheld : filled.buffered = byte :: bytes := by
        simp [hfilled, buffered]
      refine ⟨hsound.copyBuffered len, ?_, ?_, nofun, nofun, fun hnil hlen => ?_, fun _ hfits => ?_⟩
      · change [(filled.copyBuffered len).1].flatten ++ (filled.copyBuffered len).2.buffered ++
          (queue s'.socket.kcp).flatten = _
        rw [List.flatten_singleton, copyBuffered_append, hheld, hbuffered, hqueue]
        rfl
      · exact hopen'.trans (by simpa using hclosed)
      · have hcopied : (filled.copyBuffered len).1 = [] := Except.ok.inj (Poll.ready.inj hnil)
        exact absurd hcopied (copyBuffered_ne_nil hsound (Nat.succ_pos _) hlen)
      · rw [hqueue] at hfits
        obtain ⟨hall, hnone⟩ := copyBuffered_whole
          (hheld.symm ▸ hfits _ List.mem_cons_self) hsound
        refine ⟨hnone, ?_⟩
        change solid ([(filled.copyBuffered len).1] ++ queue s'.socket.kcp) = _
        rw [hall, hheld, hqueue]
        rfl

theorem pollRecv_polls (h : stream.Sound mode) (time : Clock) (task : Task) (len : Nat) :
    (stream.pollRecv api time task len).2.Sound mode ∧
      Polls queue stream (stream.pollRecv api time task len) len := by
  unfold KcpStream.pollRecv
  by_cases hheld : stream.recvBufferPos < stream.recvBufferCap
  · rw [if_pos hheld]
    refine ⟨h.copyBuffered len, ?_, rfl, nofun, nofun, fun hnil hlen => ?_, fun hnone => ?_⟩
    · change [(stream.copyBuffered len).1].flatten ++ (stream.copyBuffered len).2.buffered ++
        (queue stream.session.socket.kcp).flatten = _
      rw [List.flatten_singleton, copyBuffered_append]
    · have hcopied : (stream.copyBuffered len).1 = [] := Except.ok.inj (Poll.ready.inj hnil)
      exact absurd hcopied (copyBuffered_ne_nil h hheld hlen)
    · have happend := copyBuffered_append stream 1
      rw [hnone, List.append_eq_nil_iff] at happend
      exact absurd happend.1 (copyBuffered_ne_nil h hheld Nat.one_pos)
  rw [if_neg hheld]
  cases hqueue : queue stream.session.socket.kcp with
  | nil =>
    obtain ⟨e, hpeek⟩ := hmode.peek_nil h.mode hqueue
    rw [hpeek]
    refine fillBuffer_polls hmode h hheld time task len fun message rest hcons => ?_
    rw [hqueue] at hcons
    cases hcons
  | cons message rest =>
    rw [hmode.peek_cons h.mode hqueue]
    dsimp only
    by_cases hfits : (message.length > 0 && message.length ≤ len) = true
    · rw [if_pos hfits]
      simp only [Bool.and_eq_true, decide_eq_true_eq] at hfits
      have hbuffered := buffered_eq_nil hheld
      by_cases hclosed : stream.session.socket.closed = true
      · have hpoll : Transport.pollRecv api time task len stream.session =
            .ok (.ready []) stream.session := by
          unfold Transport.pollRecv
          rw [if_pos hclosed]
        rw [hpoll]
        exact ⟨h, rfl, rfl, nofun, nofun, fun _ _ => hclosed, fun hnone _ => ⟨hnone, rfl⟩⟩
      · obtain ⟨s', hpoll, hs', hopen', hshort⟩ | ⟨message', rest', hcons, hlt, -⟩ |
          ⟨message', s', hne, hpoll, hs', hopen', hcons, -⟩ :=
          pollRecv_cases hmode stream.session time task len h.mode (by simpa using hclosed)
        · -- the first message is not empty
          rw [hqueue] at hshort
          rcases hshort with ⟨-, hnil⟩ | hnil
          · cases hnil
          · rw [(List.cons.inj hnil).1] at hfits
            exact absurd hfits.1 (Nat.lt_irrefl 0)
        · rw [hqueue] at hcons
          rw [(List.cons.inj hcons).1] at hfits
          exact absurd hfits.2 (by omega)
        · rw [hpoll]
          refine ⟨⟨hs', h.pos_le, h.cap_le⟩, ?_, ?_, nofun, nofun, fun hnil => ?_,
            fun hnone _ => ⟨hnone, ?_⟩⟩
          · have hsame : KcpStream.buffered { stream with session := s' } = [] := hbuffered
            change [message'].flatten ++ KcpStream.buffered { stream with session := s' } ++
              (queue s'.socket.kcp).flatten = _
            rw [hsame, hbuffered, hcons]
            simp
          · exact hopen'.trans (by simpa using hclosed)
          · exact absurd (Except.ok.inj (Poll.ready.inj hnil)) hne
          · rw [hcons]
            rfl
    · rw [if_neg hfits]
      refine fillBuffer_polls hmode h hheld time task len fun message' rest' hcons => ?_
      rw [hqueue] at hcons
      exact Nat.le_of_eq (congrArg List.length (List.cons.inj hcons).1.symm)

end Spec

end KcpStream

/-! ## Every run -/

namespace Tapped

variable {K : Type} {api : Kcp K} {mode : K → Prop} {queue : K → List Bytes} {t : Tapped K}

/-- What was read and what can still be read is what arrived. -/
structure Flows (mode : K → Prop) (queue : K → List Bytes) (t : Tapped K) : Prop where
  sound : t.stream.Sound mode
  flow : t.reads.flatten ++ t.stream.buffered ++
    (queue t.stream.session.socket.kcp).flatten = t.arrived.flatten

/-- With nothing in the buffer, the messages too are those that arrived. -/
structure Whole (mode : K → Prop) (queue : K → List Bytes) (t : Tapped K) : Prop where
  sound : t.stream.Sound mode
  buffered : t.stream.buffered = []
  messages : solid (t.reads ++ queue t.stream.session.socket.kcp) = solid t.arrived

/-- A poll has room for every message that waits. -/
def Roomy (queue : K → List Bytes) (t : Tapped K) : StreamOp → Prop
  | .pollRecv _ _ len =>
    ∀ message ∈ queue t.stream.session.socket.kcp, message.length ≤ len
  | .io _ => True

theorem solid_append (messages messages' : List Bytes) :
    solid (messages ++ messages') = solid messages ++ solid messages' := List.filter_append ..

section Runs

variable (hmode : MessageMode api mode queue)

include hmode

theorem sound_initial {c : KcpConfig} (hstream : c.stream = false) {conv : UInt32} {time : Clock}
    {socket : KcpSocket K} (hnew : KcpSocket.new api c conv time = .ok socket) :
    (initial queue socket).stream.Sound mode :=
  ⟨mode_new hmode hstream hnew, Nat.le_refl 0, Nat.le_refl 0⟩

/-- What arrives during an operation on the socket. -/
theorem queue_io (h : t.stream.Sound mode) (op : IoOp) :
    (t.step api queue (.io op)).stream.Sound mode ∧
      ∃ more, queue (t.step api queue (.io op)).stream.session.socket.kcp =
          queue t.stream.session.socket.kcp ++ more ∧
        (t.step api queue (.io op)).arrived = t.arrived ++ more := by
  obtain ⟨hk, more, hmore⟩ := grows_io hmode t.stream.session op h.mode
  refine ⟨⟨hk, h.pos_le, h.cap_le⟩, more, hmore.symm, ?_⟩
  unfold step
  dsimp only
  rw [← hmore, List.drop_left]

theorem Flows.step (h : t.Flows mode queue) (op : StreamOp) :
    (t.step api queue op).Flows mode queue := by
  cases op with
  | pollRecv time task len =>
    obtain ⟨hsound, hpolls⟩ := KcpStream.pollRecv_polls hmode h.sound time task len
    refine ⟨hsound, ?_⟩
    calc (t.reads ++ (t.stream.pollRecv api time task len).1.bytes).flatten ++
          (t.stream.pollRecv api time task len).2.buffered ++
          (queue (t.stream.pollRecv api time task len).2.session.socket.kcp).flatten
        = t.reads.flatten ++ ((t.stream.pollRecv api time task len).1.bytes.flatten ++
            (t.stream.pollRecv api time task len).2.buffered ++
            (queue (t.stream.pollRecv api time task len).2.session.socket.kcp).flatten) := by
          rw [List.flatten_append]
          simp only [List.append_assoc]
      _ = t.arrived.flatten := by rw [hpolls.flow, ← List.append_assoc, h.flow]
  | io op =>
    obtain ⟨hsound, more, hqueue, harrived⟩ := queue_io hmode h.sound op
    refine ⟨hsound, ?_⟩
    rw [hqueue, harrived, List.flatten_append, List.flatten_append, ← List.append_assoc, ← h.flow]
    rfl

theorem Whole.step (h : t.Whole mode queue) (op : StreamOp) (hroomy : t.Roomy queue op) :
    (t.step api queue op).Whole mode queue := by
  cases op with
  | pollRecv time task len =>
    obtain ⟨hsound, hpolls⟩ := KcpStream.pollRecv_polls hmode h.sound time task len
    obtain ⟨hnone, hwhole⟩ := hpolls.whole h.buffered hroomy
    refine ⟨hsound, hnone, ?_⟩
    calc solid ((t.reads ++ (t.stream.pollRecv api time task len).1.bytes) ++
          queue (t.stream.pollRecv api time task len).2.session.socket.kcp)
        = solid t.reads ++ solid ((t.stream.pollRecv api time task len).1.bytes ++
            queue (t.stream.pollRecv api time task len).2.session.socket.kcp) := by
          rw [List.append_assoc, solid_append]
      _ = solid t.arrived := by rw [hwhole, ← solid_append, h.messages]
  | io op =>
    obtain ⟨hsound, more, hqueue, harrived⟩ := queue_io hmode h.sound op
    refine ⟨hsound, h.buffered, ?_⟩
    rw [hqueue, harrived, solid_append t.arrived, ← h.messages, ← solid_append, List.append_assoc]
    rfl

/-- **Main result.**  Whatever the sizes of the buffers of the polls and whatever is done with
the socket between them, the bytes read are those that arrived, in order, none missing and
none twice; a poll does not fail, it is pending only where there is nothing to read up to the
end of an empty message, and it reads nothing into a buffer only where the socket is
closed. -/
theorem reads_arrived {c : KcpConfig} (hstream : c.stream = false) {conv : UInt32} {time : Clock}
    {socket : KcpSocket K} (hnew : KcpSocket.new api c conv time = .ok socket)
    (ops : List StreamOp) :
    let t := Run.after (step api queue) (initial queue socket) ops
    t.reads.flatten ++ t.stream.buffered ++ (queue t.stream.session.socket.kcp).flatten =
        t.arrived.flatten ∧
      ∀ time task len, let poll := (t.stream.pollRecv api time task len).1
        (∀ e, poll ≠ .ready (.error e)) ∧
        (poll = .pending → t.stream.buffered = [] ∧
          (queue t.stream.session.socket.kcp).head?.getD [] = []) ∧
        (poll = .ready (.ok []) → 0 < len → t.stream.session.socket.closed = true) := by
  intro t
  have hstart : (initial queue socket).Flows mode queue :=
    ⟨sound_initial hmode hstream hnew, rfl⟩
  have h : t.Flows mode queue := Run.invariant (fun _ op h => h.step hmode op) hstart ops
  refine ⟨h.flow, fun time task len => ?_⟩
  have hpolls := (KcpStream.pollRecv_polls hmode h.sound time task len).2
  exact ⟨hpolls.no_error, hpolls.pending, hpolls.empty⟩

omit hmode in
/-- A message that is read in two parts, and then a poll that waits. -/
theorem reads_arrived_split :
    let t := Run.after (step mailbox Prod.snd)
      (initial Prod.snd
        { kcp := (1, []), lastUpdate := 0, flushWrite := true, flushAckInput := true })
      [.io (.input ⟨1, 1⟩ (segment 1 0 [5, 6, 7])), .pollRecv ⟨2, 2⟩ 0 2,
        .pollRecv ⟨3, 3⟩ 0 2, .pollRecv ⟨4, 4⟩ 0 2]
    t.reads = [[5, 6], [7]] ∧ t.reads.flatten ++ t.stream.buffered ++
      t.stream.session.socket.kcp.2.flatten = t.arrived.flatten :=
  have hnew : KcpSocket.new mailbox (toKcpConfig "fast") 1 ⟨0, 0⟩ = .ok _ := rfl
  ⟨by decide, (reads_arrived mailbox_messageMode rfl hnew _).1⟩

/-- **Main result.**  If no poll's buffer is smaller than a message that waits, a read is a
message: up to empty ones, the reads and the messages that wait are those that arrived. -/
theorem read_is_message {c : KcpConfig} (hstream : c.stream = false) {conv : UInt32}
    {time : Clock} {socket : KcpSocket K} (hnew : KcpSocket.new api c conv time = .ok socket)
    {ops : List StreamOp}
    (hroomy : Run.Throughout (step api queue) (Roomy queue) (initial queue socket) ops) :
    let t := Run.after (step api queue) (initial queue socket) ops
    solid (t.reads ++ queue t.stream.session.socket.kcp) = solid t.arrived := by
  intro t
  have hstart : (initial queue socket).Whole mode queue :=
    ⟨sound_initial hmode hstream hnew, rfl, rfl⟩
  have h : t.Whole mode queue :=
    hroomy.invariant _ (fun _ op h hroomy => h.step hmode op hroomy) hstart
  exact h.messages

omit hmode in
/-- Messages of three bytes and of one. -/
theorem read_is_message_three :
    let t := Run.after (step mailbox Prod.snd)
      (initial Prod.snd
        { kcp := (1, []), lastUpdate := 0, flushWrite := true, flushAckInput := true })
      [.io (.input ⟨1, 1⟩ (segment 1 0 [5, 6, 7])), .io (.input ⟨2, 2⟩ (segment 1 1 [8])),
        .pollRecv ⟨3, 3⟩ 0 3, .pollRecv ⟨4, 4⟩ 0 3]
    t.reads = [[5, 6, 7], [8]] ∧
      solid (t.reads ++ t.stream.session.socket.kcp.2) = solid t.arrived := by
  have hnew : KcpSocket.new mailbox (toKcpConfig "fast") 1 ⟨0, 0⟩ = .ok _ := rfl
  refine ⟨by decide, read_is_message mailbox_messageMode rfl hnew
    ⟨trivial, trivial, ?_, ?_, trivial⟩⟩
  · unfold Roomy
    decide
  · unfold Roomy
    decide

end Runs

end Tapped

end RtFogros.Transport
