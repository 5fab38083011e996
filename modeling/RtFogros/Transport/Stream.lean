import RtFogros.Lib.Run
import RtFogros.Transport.Socket
import Mathlib.Data.Nat.Digits.Defs

/-!
# The KCP stream

`KcpStream` of `fogrs-kcp/src/stream.rs`: a socket and the rest of a message that did not fit
in the buffer of a poll.  The loop of `poll_recv` copies from the rest, and polls the socket only
when nothing is left; `pollRecv_cases` says what one poll of the socket takes and returns.

`MessageMode` is what the crate promises where it is not in stream mode: messages wait in a queue
and `recv` takes the first one whole.  `mailbox` is a crate that keeps the promise, with segments
laid out as the crate lays them out, so that the samples run on datagrams that a peer could send.
-/

namespace RtFogros.Transport

/-! ## The stream -/

structure KcpStream (K : Type) where
  session : Polled K
  recvBuffer : Bytes := []
  recvBufferPos : Nat := 0
  recvBufferCap : Nat := 0

namespace KcpStream

variable {K : Type} (api : Kcp K)

/-- The copy at the head of the loop of `poll_recv`, with the bytes copied. -/
def copyBuffered (stream : KcpStream K) (len : Nat) : Bytes × KcpStream K :=
  let remaining := stream.recvBufferCap - stream.recvBufferPos
  let copyLength := min remaining len
  ((stream.recvBuffer.drop stream.recvBufferPos).take copyLength,
    { stream with recvBufferPos := stream.recvBufferPos + copyLength })

/-- A poll of the socket into `recv_buffer`.  What it gets is copied in the next round of the
loop. -/
def fillBuffer (stream : KcpStream K) (time : Clock) (task : Task) (requiredSize len : Nat) :
    Poll (Except KcpError Bytes) × KcpStream K :=
  let recvBuffer := stream.recvBuffer ++
    List.replicate (requiredSize - stream.recvBuffer.length) 0
  match Transport.pollRecv api time task recvBuffer.length stream.session with
  | .ok .pending session => (.pending, { stream with session, recvBuffer })
  | .error e session => (.ready (.error e), { stream with session, recvBuffer })
  | .ok (.ready []) session => (.ready (.ok []), { stream with session, recvBuffer })
  | .ok (.ready bytes) session =>
    let (copied, stream) := copyBuffered
      { stream with
        session
        recvBuffer := bytes ++ recvBuffer.drop bytes.length
        recvBufferPos := 0
        recvBufferCap := bytes.length } len
    (.ready (.ok copied), stream)

/-- `poll_recv` with a buffer of `len` bytes, and the bytes written to its front. -/
def pollRecv (stream : KcpStream K) (time : Clock) (task : Task) (len : Nat) :
    Poll (Except KcpError Bytes) × KcpStream K :=
  if stream.recvBufferPos < stream.recvBufferCap then
    let (copied, stream) := stream.copyBuffered len
    (.ready (.ok copied), stream)
  else
    let peekSize := match api.peeksize stream.session.socket.kcp with
      | .ok n => n
      | .error _ => 0
    if peekSize > 0 && peekSize ≤ len then
      match Transport.pollRecv api time task len stream.session with
      | .ok .pending session => (.pending, { stream with session })
      | .ok (.ready bytes) session => (.ready (.ok bytes), { stream with session })
      | .error .userBufTooSmall session =>
        { stream with session }.fillBuffer api time task peekSize len
      | .error e session => (.ready (.error e), { stream with session })
    else stream.fillBuffer api time task peekSize len

/-- What the buffer still holds. -/
def buffered (stream : KcpStream K) : Bytes :=
  (stream.recvBuffer.drop stream.recvBufferPos).take
    (stream.recvBufferCap - stream.recvBufferPos)

end KcpStream

/-! ## The crate in message mode -/

/-- What the crate promises of the states of a `Kcp` that is not in stream mode: `queue` holds
the messages that can be received, and `recv` takes the first one whole. -/
structure MessageMode {K : Type} (api : Kcp K) (mode : K → Prop) (queue : K → List Bytes) :
    Prop where
  new : ∀ conv, mode (api.new false conv)
  applyConfig : ∀ {k} c, mode k → mode (api.applyConfig c k)
  inputConv : ∀ {k}, mode k → mode (api.inputConv k)
  setConv : ∀ {k} conv, mode k → mode (api.setConv conv k) ∧ queue k <+: queue (api.setConv conv k)
  input : ∀ {k} buf, mode k → mode (api.input buf k).2 ∧ queue k <+: queue (api.input buf k).2
  flushAck : ∀ {k}, mode k → mode (api.flushAck k).2 ∧ queue k <+: queue (api.flushAck k).2
  flush : ∀ {k}, mode k → mode (api.flush k).2 ∧ queue k <+: queue (api.flush k).2
  update : ∀ {k} now, mode k → mode (api.update now k).2 ∧ queue k <+: queue (api.update now k).2
  send : ∀ {k} buf, mode k → mode (api.send buf k).2 ∧ queue k <+: queue (api.send buf k).2
  peek_nil : ∀ {k}, mode k → queue k = [] → ∃ e, api.peeksize k = .error e
  peek_cons : ∀ {k message rest}, mode k → queue k = message :: rest →
    api.peeksize k = .ok message.length
  recv_nil : ∀ {k} len, mode k → queue k = [] →
    ∃ e, (e = .recvQueueEmpty ∨ e = .expectingFragment) ∧ api.recv len k = (.error e, k)
  recv_small : ∀ {k len message rest}, mode k → queue k = message :: rest → len < message.length →
    api.recv len k = (.error .userBufTooSmall, k)
  recv_cons : ∀ {k len message rest}, mode k → queue k = message :: rest → message.length ≤ len →
    ∃ k', api.recv len k = (.ok message, k') ∧ mode k' ∧ queue k' = rest

/-! ### Segments, and a crate -/

def fromLittleEndian (bytes : Bytes) : UInt32 :=
  .ofNat (Nat.ofDigits 256 (bytes.map UInt8.toNat))

def toLittleEndian (n : UInt32) : Bytes :=
  [.ofNat n.toNat, .ofNat (n.toNat / 256), .ofNat (n.toNat / 65536), .ofNat (n.toNat / 16777216)]

theorem fromLittleEndian_toLittleEndian (n : UInt32) :
    fromLittleEndian (toLittleEndian n) = n := by
  have hlt := n.toNat_lt
  apply UInt32.toNat_inj.1
  simp only [fromLittleEndian, toLittleEndian, List.map, Nat.ofDigits_cons, Nat.ofDigits_nil,
    UInt8.toNat_ofNat', UInt32.toNat_ofNat']
  omega

/-- A PUSH segment as the crate lays it out: the conversation, the command, the fragment, the
window, the time, the number, the next number awaited, and the length of the payload. -/
def segment (conv sn : UInt32) (payload : Bytes) : Bytes :=
  toLittleEndian conv ++ [81, 0, 0, 1] ++ [0, 0, 0, 0] ++ toLittleEndian sn ++ [0, 0, 0, 0] ++
    toLittleEndian (.ofNat payload.length) ++ payload

/-- A crate at the end of a link that keeps order and sends each message as one PUSH segment.  A
segment of another conversation, with another command or not of its length is refused. -/
def mailbox : Kcp (UInt32 × List Bytes) where
  new _ conv := (conv, [])
  applyConfig _ k := k
  inputConv k := k
  input buf k :=
    let conv := fromLittleEndian (buf.take 4)
    if buf.length < 24 then (.error (.other buf.length), k)
    else if conv ≠ k.1 then (.error (.convInconsistent k.1 conv), k)
    else if buf[4]? ≠ some 81 ∨
        (fromLittleEndian ((buf.drop 20).take 4)).toNat ≠ (buf.drop 24).length then
      (.error (.other 81), k)
    else (.ok (), (k.1, k.2 ++ [buf.drop 24]))
  flushAck k := (.ok (), k)
  send buf k := (.ok buf.length, k)
  recv len
    | (conv, []) => (.error .recvQueueEmpty, (conv, []))
    | (conv, message :: rest) =>
      if len < message.length then (.error .userBufTooSmall, (conv, message :: rest))
      else (.ok message, (conv, rest))
  peeksize
    | (_, []) => .error .recvQueueEmpty
    | (_, message :: _) => .ok message.length
  flush k := (.ok (), k)
  update _ k := (.ok (), k)
  check _ _ := 10
  waitSnd _ := 0
  sndWnd _ := 256
  rmtWnd _ := 256
  mss _ := 1376
  waitingConv _ := false
  conv k := k.1
  setConv conv k := (conv, k.2)

/-- A segment is refused, or its payload is a message. -/
theorem mailbox_input (buf : Bytes) (k : UInt32 × List Bytes) :
    (∃ e, mailbox.input buf k = (.error e, k)) ∨
      mailbox.input buf k = (.ok (), (k.1, k.2 ++ [buf.drop 24])) := by
  unfold mailbox
  dsimp only
  split
  · exact .inl ⟨_, rfl⟩
  split
  · exact .inl ⟨_, rfl⟩
  split
  · exact .inl ⟨_, rfl⟩
  · exact .inr rfl

theorem mailbox_messageMode : MessageMode mailbox (fun _ => True) Prod.snd where
  new _ := trivial
  applyConfig _ _ := trivial
  inputConv _ := trivial
  setConv _ _ := ⟨trivial, List.prefix_rfl⟩
  input := by
    rintro k buf -
    refine ⟨trivial, ?_⟩
    obtain ⟨e, h⟩ | h := mailbox_input buf k
    · rw [h]
    · rw [h]
      exact List.prefix_append ..
  flushAck _ := ⟨trivial, List.prefix_rfl⟩
  flush _ := ⟨trivial, List.prefix_rfl⟩
  update _ _ := ⟨trivial, List.prefix_rfl⟩
  send _ _ := ⟨trivial, List.prefix_rfl⟩
  peek_nil := by
    rintro ⟨conv, messages⟩ - rfl
    exact ⟨_, rfl⟩
  peek_cons := by
    rintro ⟨conv, messages⟩ message rest - rfl
    rfl
  recv_nil := by
    rintro ⟨conv, messages⟩ len - rfl
    exact ⟨_, .inl rfl, rfl⟩
  recv_small := by
    rintro ⟨conv, messages⟩ len message rest - rfl hlt
    exact if_pos hlt
  recv_cons := by
    rintro ⟨conv, messages⟩ len message rest - rfl hle
    exact ⟨(conv, rest), if_neg (Nat.not_lt.2 hle), trivial, rfl⟩

section Mode

variable {K : Type} {api : Kcp K} {mode : K → Prop} {queue : K → List Bytes}
  (hmode : MessageMode api mode queue)

include hmode

/-- A socket that is not in stream mode starts in message mode. -/
theorem mode_new {c : KcpConfig} (hstream : c.stream = false) {conv : UInt32} {time : Clock}
    {socket : KcpSocket K} (hnew : KcpSocket.new api c conv time = .ok socket) :
    mode socket.kcp := by
  have hconfig : mode (api.applyConfig c (api.new c.stream conv)) := by
    rw [hstream]
    exact hmode.applyConfig c (hmode.new conv)
  have hconv : mode (if conv = 0 then api.inputConv (api.applyConfig c (api.new c.stream conv))
      else api.applyConfig c (api.new c.stream conv)) := by
    split
    · exact hmode.inputConv hconfig
    · exact hconfig
  have hupdate := (hmode.update time.millis hconv).1
  unfold KcpSocket.new at hnew
  dsimp only at hnew
  split at hnew
  · cases hnew
  · rename_i kcp heq
    cases hnew
    rwa [heq] at hupdate

/-- A poll of the socket: what it takes from the queue and what it returns. -/
theorem pollRecv_cases (s : Polled K) (time : Clock) (task : Task) (len : Nat)
    (hs : mode s.socket.kcp) (hopen : s.socket.closed = false) :
    (∃ s', pollRecv api time task len s = .ok .pending s' ∧ mode s'.socket.kcp ∧
      s'.socket.closed = false ∧
      (queue s.socket.kcp = queue s'.socket.kcp ∧ queue s.socket.kcp = [] ∨
        queue s.socket.kcp = [] :: queue s'.socket.kcp)) ∨
    (∃ message rest, queue s.socket.kcp = message :: rest ∧ len < message.length ∧
      pollRecv api time task len s = .error .userBufTooSmall s) ∨
    ∃ message s', message ≠ [] ∧ pollRecv api time task len s = .ok (.ready message) s' ∧
      mode s'.socket.kcp ∧ s'.socket.closed = false ∧
      queue s.socket.kcp = message :: queue s'.socket.kcp ∧ message.length ≤ len := by
  unfold pollRecv
  rw [hopen]
  cases hqueue : queue s.socket.kcp with
  | nil =>
    obtain ⟨e, he, hrecv⟩ := hmode.recv_nil len hs hqueue
    refine .inl ⟨registerReceiver task s, ?_, hs, hopen, .inl ⟨hqueue.symm, rfl⟩⟩
    rcases he with rfl | rfl
    · simp [hrecv]
    · simp [hrecv]
  | cons message rest =>
    by_cases hlen : message.length ≤ len
    · obtain ⟨k', hrecv, hk', hrest⟩ := hmode.recv_cons hs hqueue hlen
      cases message with
      | nil =>
        refine .inl ⟨registerReceiver task { s with socket.kcp := k' }, ?_, hk', hopen, .inr ?_⟩
        · simp [hrecv]
        · exact congrArg ([] :: ·) hrest.symm
      | cons byte bytes =>
        refine .inr (.inr ⟨byte :: bytes,
          { s with socket := { s.socket with kcp := k', lastUpdate := time.instant } },
          List.cons_ne_nil _ _, ?_, hk', hopen, ?_, hlen⟩)
        · simp [hrecv]
        · exact congrArg ((byte :: bytes) :: ·) hrest.symm
    · have hrecv := hmode.recv_small hs hqueue (Nat.lt_of_not_le hlen)
      refine .inr (.inl ⟨message, rest, rfl, Nat.lt_of_not_le hlen, ?_⟩)
      simp [hrecv]

/-! ## What the other operations do to the queue -/

omit hmode in
/-- Messages are only added to the queue. -/
def Grows (mode : K → Prop) (queue : K → List Bytes) (k k' : K) : Prop :=
  mode k → mode k' ∧ queue k <+: queue k'

omit hmode in
instance : IsPreorder K (Grows mode queue) where
  refl _ hk := ⟨hk, List.prefix_rfl⟩
  trans _ _ _ h h' hk := by
    obtain ⟨hk', hinitial⟩ := h hk
    obtain ⟨hk'', hinitial'⟩ := h' hk'
    exact ⟨hk'', hinitial.trans hinitial'⟩

theorem grows_io (s : Polled K) (op : IoOp) :
    Grows mode queue s.socket.kcp (s.io api op).socket.kcp := by
  refine (onKcp_step (.io op) ?_ s).kcp
  cases op with
  | input time buf => exact ⟨fun _ => hmode.input buf, fun _ => hmode.flushAck⟩
  | pollSend time task buf => exact ⟨fun buf _ => hmode.send buf, fun _ => hmode.flush⟩
  | flush time => exact fun _ => hmode.flush
  | update time => exact fun _ => hmode.update _
  | close => trivial
  | setConv conv => exact fun _ => hmode.setConv conv

end Mode

end RtFogros.Transport
