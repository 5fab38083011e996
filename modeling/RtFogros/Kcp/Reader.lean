import RtFogros.Lib.Mealy
import RtFogros.Packet.Structs

/-!
# The read arm of a KCP stream

`parse_header_payload_pairs` and the read arm of `reader_and_writer` (`network/kcp.rs`).  A frame
on the wire is the JSON of its header, one NUL and `header.length` body bytes; four bytes `ping`
are a keepalive.  The reader is a machine on `Reader` whose input is one read; it stops when the
connection is closed and when an `unwrap`, an index, a slice or a subtraction fails.

Later modules do not unfold the arm.  They use what it does with a read in a fresh state and with
one in a pending state (`readArm_fresh`, `readArm_pending`, `readArm_noop`), and of the parser's
loop the turn on a buffer that starts with a whole header (`parseLoop_header`).
-/

namespace RtFogros.Kcp

abbrev HeaderPayload := GDPHeaderInTransit × Bytes

def udpBufferSize : Nat := 65535

def ping : Bytes := [0x70, 0x69, 0x6e, 0x67]

def pong : Bytes := [0x70, 0x6f, 0x6e, 0x67]

def defaultGdpHeader : GDPHeaderInTransit :=
  let zero : GDPName := ⟨#v[0, 0, 0, 0]⟩
  { action := .noop, destination := zero, source := zero, guid := zero, length := 0 }

inductive Panic where
  | utf8Error
  | indexOutOfRange
  | sliceOutOfRange
  | subtractOverflow
deriving DecidableEq

/-! ## Parsing -/

/-- `buffer.splitn(2, |c| c == &0)`: the piece before the first NUL, and the
piece after it if there is a NUL. -/
def splitNul : Bytes → Bytes × Option Bytes
  | [] => ([], none)
  | b :: rest =>
    if b = 0 then ([], some rest) else (b :: (splitNul rest).1, (splitNul rest).2)

theorem splitNul_lt {buffer remaining : Bytes} (h : (splitNul buffer).2 = some remaining) :
    remaining.length < buffer.length := by
  induction buffer with
  | nil => cases h
  | cons b rest ih =>
    unfold splitNul at h
    split at h
    · cases h
      exact Nat.lt_succ_self _
    · apply Nat.lt_succ_of_lt
      exact ih h

@[simp] theorem splitNul_append {header : Bytes} (h : 0 ∉ header) (rest : Bytes) :
    splitNul (header ++ 0 :: rest) = (header, some rest) := by
  induction header with
  | nil => rfl
  | cons b header ih =>
    rw [List.mem_cons, not_or] at h
    rw [List.cons_append, splitNul, if_neg (Ne.symm h.1), ih h.2]

variable (json : SerdeJson GDPHeaderInTransit)

/-- The `loop` of `parse_header_payload_pairs` with its accumulator
`header_payload_pairs`.  Without a NUL in the buffer, `header_and_remaining[1]`
is out of range. -/
def parseLoop (buffer : Bytes) (pairs : List HeaderPayload) :
    Except Panic (List HeaderPayload × Option HeaderPayload) :=
  match fromUtf8 (splitNul buffer).1 with
  | none => .error .utf8Error
  | some header =>
    match json.fromStr header with
    | none => .ok (pairs, some (defaultGdpHeader, (splitNul buffer).1))
    | some gdpHeader =>
      match _h : (splitNul buffer).2 with
      | none => .error .indexOutOfRange
      | some remaining =>
        if gdpHeader.length > remaining.length then
          .ok (pairs, some (gdpHeader, remaining))
        else if gdpHeader.length = remaining.length then
          .ok (pairs ++ [(gdpHeader, remaining)], none)
        else
          parseLoop (remaining.drop gdpHeader.length)
            (pairs ++ [(gdpHeader, remaining.take gdpHeader.length)])
termination_by buffer.length
decreasing_by
  have := splitNul_lt _h
  rw [List.length_drop]
  omega

def parseHeaderPayloadPairs (buffer : Bytes) :
    Except Panic (List HeaderPayload × Option HeaderPayload) :=
  if buffer.length = 0 then .ok ([], none) else parseLoop json buffer []

@[simp] theorem parseHeaderPayloadPairs_nil :
    parseHeaderPayloadPairs json [] = .ok ([], none) := rfl

theorem parseHeaderPayloadPairs_of_ne {buffer : Bytes} (h : buffer ≠ []) :
    parseHeaderPayloadPairs json buffer = parseLoop json buffer [] := by
  unfold parseHeaderPayloadPairs
  rw [if_neg (by simpa using h)]

def headerBlock (header : GDPHeaderInTransit) : Bytes := asBytes (json.toString header) ++ [0]

variable {json}

theorem headerBlock_ne_nil (header : GDPHeaderInTransit) : headerBlock json header ≠ [] := by
  simp [headerBlock]

/-- A header is never taken for a keepalive. -/
theorem headerBlock_ne_ping (header : GDPHeaderInTransit) : headerBlock json header ≠ ping := by
  intro h
  have hlast := congrArg List.getLast? h
  unfold headerBlock at hlast
  rw [List.getLast?_append, List.getLast?_singleton] at hlast
  cases hlast

/-- On a buffer that starts with a whole header, the loop compares the declared
length with what follows the NUL. -/
theorem parseLoop_header (hround : json.RoundTrips) (hnul : json.NoNul)
    (header : GDPHeaderInTransit) (remaining : Bytes) (pairs : List HeaderPayload) :
    parseLoop json (headerBlock json header ++ remaining) pairs =
      if header.length > remaining.length then .ok (pairs, some (header, remaining))
      else if header.length = remaining.length then .ok (pairs ++ [(header, remaining)], none)
      else parseLoop json (remaining.drop header.length)
        (pairs ++ [(header, remaining.take header.length)]) := by
  unfold headerBlock
  rw [List.append_assoc, List.singleton_append, parseLoop,
    splitNul_append (hnul header)]
  simp only [fromUtf8_asBytes, hround header]

/-! ## The reader -/

/-- The variables `reader_and_writer` keeps between two reads. -/
structure ReaderState where
  needMoreDataForPreviousHeader : Bool := false
  remainingGdpHeader : GDPHeaderInTransit := defaultGdpHeader
  remainingGdpPayload : Bytes := []
  resetCounter : Nat := 0

def initialReader : ReaderState := {}

/-- The reading task: in its loop, past the `break` of a closed connection, or
aborted. -/
inductive Reader where
  | running (st : ReaderState)
  | closed
  | panicked (p : Panic)

/-- What one read makes the task do: packets sent on `ros_tx` and bytes written
back to the stream. -/
structure ReadOutput where
  rosTx : List GDPPacket := []
  written : List Bytes := []

/-- How the branches for a previous header end: with `continue`, or with pairs
and a buffer to go on with. -/
inductive Resume where
  | next (st : ReaderState)
  | parse (st : ReaderState) (pairs : List HeaderPayload) (receivingBuf : Bytes)

/-- The branches under `if need_more_data_for_previous_header`. -/
def resume (st : ReaderState) (receivingBuf : Bytes) : Except Panic Resume :=
  let readPayloadSize := st.remainingGdpPayload.length + receivingBuf.length
  let payload := st.remainingGdpPayload ++ receivingBuf
  if st.remainingGdpHeader.action = .noop then
    if st.resetCounter + 1 > 5 then
      .ok (.parse { st with remainingGdpPayload := [], resetCounter := 0 } [] [])
    else
      .ok (.parse { st with remainingGdpPayload := payload, resetCounter := st.resetCounter + 1 }
        [] payload)
  else if readPayloadSize < st.remainingGdpHeader.length then
    .ok (.next { st with remainingGdpPayload := payload })
  else if readPayloadSize = st.remainingGdpHeader.length then
    .ok (.parse { st with remainingGdpPayload := payload } [(st.remainingGdpHeader, payload)] [])
  else if st.remainingGdpHeader.length < st.remainingGdpPayload.length then
    .error .subtractOverflow
  else
    let numRemaining := st.remainingGdpHeader.length - st.remainingGdpPayload.length
    if receivingBuf.length < numRemaining then .error .sliceOutOfRange
    else
      let payload := st.remainingGdpPayload ++ receivingBuf.take numRemaining
      .ok (.parse { st with remainingGdpPayload := payload } [(st.remainingGdpHeader, payload)]
        (receivingBuf.drop numRemaining))

/-- The update from `processed_remaining_header` at the end of the read arm. -/
def ReaderState.carry (st : ReaderState) : Option HeaderPayload → ReaderState
  | some (header, payload) =>
    { st with remainingGdpHeader := header, remainingGdpPayload := payload,
              needMoreDataForPreviousHeader := true }
  | none => { st with needMoreDataForPreviousHeader := false, remainingGdpPayload := [] }

def packetOf (description : Option String) (pair : HeaderPayload) : GDPPacket :=
  constructGdpPacketWithGuid pair.1.action pair.1.destination pair.1.source pair.2 pair.1.guid
    description

variable (json) (description : Option String)

/-- The end of the read arm: parse, send every pair, keep what is incomplete. -/
def parseAndSend (st : ReaderState) (pairs : List HeaderPayload) (receivingBuf : Bytes) :
    Reader × ReadOutput :=
  match parseHeaderPayloadPairs json receivingBuf with
  | .error p => (.panicked p, {})
  | .ok (processed, remaining) =>
    (.running (st.carry remaining), { rosTx := (pairs ++ processed).map (packetOf description) })

def readArm (st : ReaderState) (read : Bytes) : Reader × ReadOutput :=
  if read.length = 0 then (.closed, {})
  else if read = ping then (.running st, { written := [pong] })
  else if st.needMoreDataForPreviousHeader then
    match resume st read with
    | .error p => (.panicked p, {})
    | .ok (.next st') => (.running st', {})
    | .ok (.parse st' pairs receivingBuf) => parseAndSend json description st' pairs receivingBuf
  else parseAndSend json description st [] read

def Reader.step : Reader → Bytes → Reader × ReadOutput
  | .running st, read => readArm json description st read
  | r, _ => (r, {})

def emitted (r : Reader) (reads : List Bytes) : List GDPPacket :=
  (Mealy.outputs (Reader.step json description) r reads).flatMap ReadOutput.rosTx

@[simp] theorem emitted_nil (r : Reader) : emitted json description r [] = [] := rfl

@[simp] theorem emitted_cons (r : Reader) (read : Bytes) (reads : List Bytes) :
    emitted json description r (read :: reads) =
      (r.step json description read).2.rosTx ++
        emitted json description (r.step json description read).1 reads := by
  simp [emitted]

theorem emitted_stopped {r : Reader} (h : ∀ read, r.step json description read = (r, {}))
    (reads : List Bytes) : emitted json description r reads = [] := by
  induction reads with
  | nil => rfl
  | cons read reads ih =>
    rw [emitted_cons, h read]
    exact ih

theorem emitted_append (r : Reader) (reads later : List Bytes) :
    emitted json description r (reads ++ later) = emitted json description r reads ++
      emitted json description (Mealy.final (Reader.step json description) r reads) later := by
  simp [emitted, Mealy.outputs_append]

theorem parseAndSend_written (st : ReaderState) (pairs : List HeaderPayload)
    (receivingBuf : Bytes) :
    (parseAndSend json description st pairs receivingBuf).2.written = [] := by
  unfold parseAndSend
  split <;> rfl

variable {json}

/-- Only a keepalive is answered. -/
theorem readArm_written (st : ReaderState) {read : Bytes} (hping : read ≠ ping) :
    (readArm json description st read).2.written = [] := by
  unfold readArm
  rw [if_neg hping]
  split
  · rfl
  · split
    · split
      · rfl
      · rfl
      · exact parseAndSend_written ..
    · exact parseAndSend_written ..

variable {description}

theorem Reader.step_written (r : Reader) {read : Bytes} (hping : read ≠ ping) :
    (r.step json description read).2.written = [] := by
  cases r with
  | running st => exact readArm_written description st hping
  | closed => rfl
  | panicked p => rfl

theorem readArm_fresh {st : ReaderState} (hst : st.needMoreDataForPreviousHeader = false)
    {read : Bytes} (hne : read ≠ []) (hping : read ≠ ping) :
    readArm json description st read = parseAndSend json description st [] read := by
  unfold readArm
  rw [if_neg (by simpa using hne), if_neg hping, if_neg (by simp [hst])]

/-- The reads of a pending body: too short they are kept, otherwise the body is
completed and the rest of the read is parsed. -/
theorem readArm_pending {st : ReaderState} (hst : st.needMoreDataForPreviousHeader = true)
    (haction : st.remainingGdpHeader.action ≠ .noop)
    (hlen : st.remainingGdpPayload.length < st.remainingGdpHeader.length)
    {read : Bytes} (hne : read ≠ []) (hping : read ≠ ping) :
    readArm json description st read =
      if st.remainingGdpPayload.length + read.length < st.remainingGdpHeader.length then
        (.running { st with remainingGdpPayload := st.remainingGdpPayload ++ read }, {})
      else
        let missing := st.remainingGdpHeader.length - st.remainingGdpPayload.length
        let payload := st.remainingGdpPayload ++ read.take missing
        parseAndSend json description { st with remainingGdpPayload := payload }
          [(st.remainingGdpHeader, payload)] (read.drop missing) := by
  unfold readArm
  rw [if_neg (by simpa using hne), if_neg hping, if_pos hst]
  by_cases hshort : st.remainingGdpPayload.length + read.length < st.remainingGdpHeader.length
  · simp [resume, haction, hshort]
  by_cases hexact : st.remainingGdpPayload.length + read.length = st.remainingGdpHeader.length
  · have hmissing : st.remainingGdpHeader.length - st.remainingGdpPayload.length = read.length := by
      omega
    simp [resume, haction, hexact, hmissing]
  · have hno : ¬ st.remainingGdpHeader.length < st.remainingGdpPayload.length := by omega
    have hslice : ¬ read.length <
        st.remainingGdpHeader.length - st.remainingGdpPayload.length := by omega
    simp only [resume, haction, hshort, hexact, hno, hslice, if_false]

/-- The sixth continuation discards the piece and the read; the others parse them together. -/
theorem readArm_noop {st : ReaderState} (hst : st.needMoreDataForPreviousHeader = true)
    (haction : st.remainingGdpHeader.action = .noop) {read : Bytes} (hne : read ≠ [])
    (hping : read ≠ ping) :
    readArm json description st read =
      if st.resetCounter + 1 > 5 then
        (.running (ReaderState.carry { st with resetCounter := 0 } none), {})
      else
        parseAndSend json description
          { st with
            remainingGdpPayload := st.remainingGdpPayload ++ read
            resetCounter := st.resetCounter + 1 } []
          (st.remainingGdpPayload ++ read) := by
  unfold readArm
  rw [if_neg (by simpa using hne), if_neg hping, if_pos hst]
  by_cases hreset : st.resetCounter + 1 > 5
  · rw [if_pos hreset]
    simp only [resume, haction, hreset, if_true]
    rfl
  · rw [if_neg hreset]
    simp only [resume, haction, hreset, if_true, if_false]

end RtFogros.Kcp
