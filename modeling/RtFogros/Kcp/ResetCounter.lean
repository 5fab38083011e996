import RtFogros.Kcp.SplitHeader

/-!
# The reset counter

Reads that end inside the JSON of a header, any number of them on one connection.
`emitsWithoutDiscard_iff_headerCuts`: the reader emits exactly the frames and discards nothing,
exactly if at most five reads end inside a header.

`Reached` extends the simulation of `Kcp.Reassembly` by the places inside a header: the reader
holds the piece of the header under a Noop header, and the next read is a continuation that
`reset_counter` counts.  The counter is never taken back, so it grows by the headers that the reads
cut (`headerCuts`), and the sixth continuation is the one that discards (`discards_iff`).
-/

namespace RtFogros.Kcp

variable {json : SerdeJson GDPHeaderInTransit} {description : Option String}

/-! ## Cuts inside headers -/

variable (json) in
/-- A cut between the JSON of a header and its NUL. -/
def CutBeforeNul (fs : List Frame) (c : Nat) : Prop :=
  ∃ before f after, fs = before ++ f :: after ∧
    c = (encode json before).length + (headerText json f.header).length

theorem CutBeforeNul.append_left {fs : List Frame} {c : Nat} (done : List Frame)
    (h : CutBeforeNul json fs c) :
    CutBeforeNul json (done ++ fs) ((encode json done).length + c) := by
  obtain ⟨before, f, after, rfl, rfl⟩ := h
  refine ⟨done ++ before, f, after, by simp, ?_⟩
  rw [encode_append, List.length_append, Nat.add_assoc]

theorem not_cutInsideHeader_nil (c : Nat) : ¬ CutInsideHeader json [] c := by
  rintro ⟨before, f, after, h, -⟩
  simp at h

theorem cutInsideHeader_cons {f : Frame} {fs : List Frame} {c : Nat} :
    CutInsideHeader json (f :: fs) c ↔
      0 < c ∧ c < (headerBlock json f.header).length ∨
      (encodeFrame json f).length ≤ c ∧
        CutInsideHeader json fs (c - (encodeFrame json f).length) := by
  have hencode (before : List Frame) : (encode json (f :: before)).length =
      (encodeFrame json f).length + (encode json before).length := by
    rw [← List.singleton_append, encode_append, List.length_append]
    simp [encodeFrame]
  constructor
  · rintro ⟨before, g, after, h, hlo, hhi⟩
    cases before with
    | nil =>
      obtain ⟨rfl, rfl⟩ := List.cons.inj h
      exact .inl ⟨hlo, by simpa using hhi⟩
    | cons f' before =>
      obtain ⟨rfl, rfl⟩ := List.cons.inj h
      rw [hencode] at hlo hhi
      exact .inr ⟨by omega, before, g, after, rfl, by omega, by omega⟩
  · rintro (⟨hlo, hhi⟩ | ⟨hle, before, g, after, rfl, hlo, hhi⟩)
    · exact ⟨[], f, fs, rfl, hlo, by simpa using hhi⟩
    · refine ⟨f :: before, g, after, rfl, ?_, ?_⟩ <;> rw [hencode] <;> omega

theorem not_cutInsideHeader_zero (fs : List Frame) : ¬ CutInsideHeader json fs 0 := by
  rintro ⟨before, f, after, -, hlo, -⟩
  exact absurd hlo (Nat.not_lt_zero _)

theorem cutInsideHeader_append (done fs : List Frame) (c : Nat) :
    CutInsideHeader json (done ++ fs) ((encode json done).length + c) ↔
      CutInsideHeader json fs c := by
  induction done with
  | nil => simp
  | cons f done ih =>
    have hblock : (headerBlock json f.header).length ≤ (encodeFrame json f).length := by
      rw [encodeFrame, List.length_append]
      omega
    have hencode : (encode json (f :: done)).length =
        (encodeFrame json f).length + (encode json done).length := by
      simp [encodeFrame, Nat.add_assoc]
    rw [List.cons_append, cutInsideHeader_cons, hencode, ← ih]
    constructor
    · rintro (h | h)
      · omega
      · rw [Nat.add_assoc, Nat.add_sub_cancel_left] at h
        exact h.2
    · intro h
      refine .inr ⟨by omega, ?_⟩
      rwa [Nat.add_assoc, Nat.add_sub_cancel_left]

instance decidableCutInsideHeader :
    (fs : List Frame) → (c : Nat) → Decidable (CutInsideHeader json fs c)
  | [], c => isFalse (not_cutInsideHeader_nil c)
  | f :: fs, c =>
    have := decidableCutInsideHeader fs (c - (encodeFrame json f).length)
    decidable_of_iff _ cutInsideHeader_cons.symm

variable (json) in
/-- How many of the reads, after `n` bytes of the stream, end inside a header. -/
def headerCuts (frames : List Frame) : Nat → List Bytes → Nat
  | _, [] => 0
  | n, read :: reads =>
    (if CutInsideHeader json frames (n + read.length) then 1 else 0) +
      headerCuts frames (n + read.length) reads

/-! ## The spot the reads have reached -/

/-- A place outside the headers, or inside the JSON of a header. -/
inductive Spot where
  | place (p : Place)
  | header (f : Frame) (piece missing : Bytes)

namespace Spot

def bytes : Spot → Bytes
  | place p => p.bytes
  | header f _ missing => missing ++ 0 :: f.body

def frames : Spot → List Frame
  | place p => p.frames
  | header f _ _ => [f]

/-- How many continuations the next read is. -/
def continues : Spot → Nat
  | place _ => 0
  | header _ _ _ => 1

end Spot

variable (json) in
/-- The reader has consumed the stream up to a spot. -/
def Reached (st : ReaderState) : Spot → Prop
  | .place p => Waiting st p
  | .header f piece missing => st.needMoreDataForPreviousHeader = true ∧
      st.remainingGdpHeader = defaultGdpHeader ∧ st.remainingGdpPayload = piece ∧ piece ≠ [] ∧
      missing ≠ [] ∧ piece ++ missing = headerText json f.header

/-- A read has ended inside a header exactly if the next one is a continuation. -/
theorem Reached.continues_eq {st : ReaderState} {spot : Spot} (h : Reached json st spot)
    (before later : List Frame) {n : Nat}
    (hn : n + spot.bytes.length = (encode json (before ++ spot.frames)).length) :
    (if CutInsideHeader json (before ++ spot.frames ++ later) n then 1 else 0) =
      spot.continues := by
  rw [encode_append, List.length_append] at hn
  rw [List.append_assoc]
  cases spot with
  | place p =>
    refine if_neg ?_
    cases p with
    | between =>
      obtain rfl : n = (encode json before).length + 0 := by
        simpa [Spot.bytes, Spot.frames, Place.bytes, Place.frames] using hn
      rw [cutInsideHeader_append]
      exact not_cutInsideHeader_zero _
    | inside f q =>
      obtain ⟨-, -, hbody, hq⟩ := h
      have hqpos : 0 < q.length := List.length_pos_iff.2 hq
      have hlen := congrArg List.length hbody
      simp only [Spot.bytes, Spot.frames, Place.bytes, Place.frames, encode_cons, encode_nil,
        List.append_nil, List.length_append] at hn hlen
      obtain ⟨c, rfl⟩ : ∃ c, n = (encode json before).length + c :=
        ⟨n - (encode json before).length, by omega⟩
      simp only [cutInsideHeader_append, Spot.frames, Place.frames, List.singleton_append,
        cutInsideHeader_cons, encodeFrame, List.length_append]
      omega
  | header f piece missing =>
    refine if_pos ?_
    obtain ⟨-, -, -, hpiece, -, htext⟩ := h
    have hpos : 0 < piece.length := List.length_pos_iff.2 hpiece
    have hlen := congrArg List.length htext
    simp only [Spot.bytes, Spot.frames, encode_cons, encode_nil, List.append_nil, headerBlock_eq,
      List.length_append, List.length_cons, List.length_nil] at hn hlen
    obtain rfl : n = (encode json before).length + piece.length := by omega
    rw [cutInsideHeader_append, Spot.frames, List.singleton_append, cutInsideHeader_cons,
      headerBlock_eq, List.length_append, List.length_singleton]
    exact .inl ⟨hpos, by omega⟩

/-! ## One read -/

@[simp] theorem carry_resetCounter (st : ReaderState) (remaining : Option HeaderPayload) :
    (st.carry remaining).resetCounter = st.resetCounter := by
  cases remaining <;> rfl

theorem parseAndSend_resetCounter {st st' : ReaderState} {pairs : List HeaderPayload}
    {buffer : Bytes} {out : ReadOutput}
    (h : parseAndSend json description st pairs buffer = (.running st', out)) :
    st'.resetCounter = st.resetCounter := by
  unfold parseAndSend at h
  split at h
  · cases h
  · cases h
    exact carry_resetCounter ..

section Parse

variable (hround : json.RoundTrips) (hnul : json.NoNul) (hascii : json.WritesAscii)
  (htruncated : json.RejectsPrefix)

include hround hnul hascii htruncated

variable (description) in
/-- The end of the read arm on a buffer that starts with a frame. -/
theorem parseAndSend_spot (fs : List Frame) (st : ReaderState) (pairs : List HeaderPayload)
    {buffer rest : Bytes} (hstream : buffer ++ rest = encode json fs)
    (hcut : ¬ CutBeforeNul json fs buffer.length) :
    ∃ done spot later st', fs = done ++ Spot.frames spot ++ later ∧
      rest = spot.bytes ++ encode json later ∧ Reached json st' spot ∧
      st'.resetCounter = st.resetCounter ∧
      parseAndSend json description st pairs buffer =
        (.running st', { rosTx := (pairs ++ done.map Frame.pair).map (packetOf description) }) := by
  by_cases hinside : CutInsideHeader json fs buffer.length
  · -- the buffer ends inside the JSON of `f`
    obtain ⟨done, f, later, rfl, hlo, hhi⟩ := hinside
    have hne : buffer.length ≠
        (encode json done).length + (headerText json f.header).length :=
      fun h => hcut ⟨done, f, later, rfl, h⟩
    rw [headerBlock_eq, List.length_append, List.length_singleton] at hhi
    rw [encode_append, encode_cons, headerBlock_eq, List.append_assoc, List.singleton_append]
      at hstream
    obtain ⟨piece, rfl⟩ : encode json done <+: buffer :=
      List.prefix_of_prefix_length_le ⟨_, rfl⟩ (hstream ▸ List.prefix_append buffer rest)
        (Nat.le_of_lt hlo)
    rw [List.append_assoc, List.append_cancel_left_eq] at hstream
    rw [List.length_append] at hlo hhi hne
    obtain ⟨missing, hmissing⟩ : piece <+: headerText json f.header :=
      List.prefix_of_prefix_length_le (hstream ▸ List.prefix_append piece rest) ⟨_, rfl⟩ (by omega)
    have hlen := congrArg List.length hmissing
    rw [List.length_append] at hlen
    have hpiece : piece ≠ [] := List.length_pos_iff.1 (by omega)
    have hrest : missing ≠ [] := List.length_pos_iff.1 (by omega)
    have hbuffer : encode json done ++ piece ≠ [] := List.append_ne_nil_of_right_ne_nil _ hpiece
    refine ⟨done, .header f piece missing, later, st.carry (some (defaultGdpHeader, piece)),
      by simp [Spot.frames], ?_, ⟨rfl, rfl, rfl, hpiece, hrest, hmissing⟩,
      carry_resetCounter .., ?_⟩
    · rw [← hmissing, List.append_assoc, List.append_cancel_left_eq] at hstream
      rw [hstream]
      simp [Spot.bytes]
    · rw [parseAndSend, parseHeaderPayloadPairs_of_ne json hbuffer,
        parseLoop_frames hround hnul done hpiece,
        parseLoop_piece hnul hascii htruncated hrest hmissing]
      rfl
  · obtain ⟨done, place, later, st', hfs, hrest, hwait, hparse⟩ :=
      parseAndSend_stream description hround hnul fs st pairs hstream hinside
    exact ⟨done, .place place, later, st', hfs, hrest, hwait, parseAndSend_resetCounter hparse,
      hparse⟩

variable (description) in
/-- **One read of the reader** from a spot of the stream to a later one, unless it is the
sixth continuation. -/
theorem readArm_spot {st : ReaderState} {spot : Spot} (hspot : Reached json st spot)
    (hcounter : st.resetCounter + spot.continues ≤ 5) (fs : List Frame) {read rest : Bytes}
    (hne : read ≠ []) (hping : read ≠ ping) (hstream : read ++ rest = spot.bytes ++ encode json fs)
    (hcut : ∀ c, c + spot.bytes.length = (encode json spot.frames).length + read.length →
      ¬ CutBeforeNul json (spot.frames ++ fs) c) :
    ∃ done spot' later st', spot.frames ++ fs = done ++ Spot.frames spot' ++ later ∧
      rest = spot'.bytes ++ encode json later ∧ Reached json st' spot' ∧
      st'.resetCounter = st.resetCounter + spot.continues ∧
      readArm json description st read =
        (.running st', { rosTx := done.map (packetOf description ∘ Frame.pair) }) := by
  match spot, hspot with
  | .place .between, ⟨hneed, _⟩ =>
    obtain ⟨done, spot', later, st', hfs, hrest, hspot', hcounter', hparse⟩ :=
      parseAndSend_spot description hround hnul hascii htruncated fs st [] hstream
        (hcut _ (by simp [Spot.bytes, Spot.frames, Place.bytes, Place.frames]))
    refine ⟨done, spot', later, st', hfs, hrest, hspot', hcounter', ?_⟩
    rw [readArm_fresh hneed hne hping, hparse]
    simp
  | .place (.inside f q), hwait =>
    rcases readArm_inside hwait hne hping hstream with ⟨q', hrest, hwait', hread⟩ | hnext
    · exact ⟨[], .place (.inside f q'), fs, _, rfl, hrest, hwait', rfl, hread⟩
    · obtain ⟨next, rfl, hnext, hread⟩ := hnext
      have hcut' : ¬ CutBeforeNul json fs next.length := by
        intro h
        refine hcut _ ?_ (h.append_left [f])
        simp only [Spot.bytes, Spot.frames, Place.bytes, Place.frames, List.length_append]
        omega
      obtain ⟨done, spot', later, st', rfl, hrest, hspot', hcounter', hparse⟩ :=
        parseAndSend_spot description hround hnul hascii htruncated fs
          { st with remainingGdpPayload := f.body } [f.pair] hnext hcut'
      refine ⟨f :: done, spot', later, st', rfl, hrest, hspot', hcounter', ?_⟩
      rw [hread, hparse]
      simp
  | .header f piece missing, ⟨hneed, hheader, hpayload, hpiece, hmissing, htext⟩ =>
    have hbuffer : (piece ++ read) ++ rest = encode json (f :: fs) := by
      rw [List.append_assoc, hstream, encode_cons, headerBlock_eq, ← htext]
      simp [Spot.bytes]
    have hcut' : ¬ CutBeforeNul json (f :: fs) (piece ++ read).length := by
      refine hcut _ ?_
      have hlen := congrArg List.length htext
      simp only [Spot.bytes, Spot.frames, encode_cons, encode_nil, headerBlock_eq, List.append_nil,
        List.length_append, List.length_cons, List.length_nil] at hlen ⊢
      omega
    obtain ⟨done, spot', later, st', hfs, hrest, hspot', hcounter', hparse⟩ :=
      parseAndSend_spot description hround hnul hascii htruncated (f :: fs)
        { st with
          remainingGdpPayload := piece ++ read
          resetCounter := st.resetCounter + 1 } [] hbuffer hcut'
    refine ⟨done, spot', later, st', hfs, hrest, hspot', hcounter', ?_⟩
    rw [readArm_noop hneed (by rw [hheader]; rfl) hne hping,
      if_neg (show ¬ st.resetCounter + 1 > 5 from Nat.not_lt.2 hcounter), hpayload, hparse]
    simp

end Parse

/-! ## Discarded bytes -/

/-- The read arm throws away what is buffered, the read included: it goes on with nothing
to emit and nothing to parse. -/
def Discards : Reader → Bytes → Prop
  | .running st, read => read ≠ [] ∧ read ≠ ping ∧ st.needMoreDataForPreviousHeader = true ∧
      ∃ st', resume st read = .ok (.parse st' [] [])
  | _, _ => False

theorem resume_discards_iff {st : ReaderState} {read : Bytes} (hne : read ≠ []) :
    (∃ st', resume st read = .ok (.parse st' [] [])) ↔
      st.remainingGdpHeader.action = .noop ∧ 5 < st.resetCounter + 1 := by
  unfold resume
  by_cases haction : st.remainingGdpHeader.action = .noop
  · by_cases hreset : st.resetCounter + 1 > 5
    · simp [haction, hreset]
    · simp [haction, hreset, hne]
  · simp only [haction, if_false, false_and, iff_false]
    rintro ⟨st', h⟩
    split_ifs at h
    all_goals simp at h

/-- Exactly the sixth continuation discards. -/
theorem discards_iff {st : ReaderState} {spot : Spot} (hspot : Reached json st spot)
    (hcounter : st.resetCounter ≤ 5) {read : Bytes} (hne : read ≠ []) (hping : read ≠ ping) :
    Discards (.running st) read ↔ 5 < st.resetCounter + spot.continues := by
  rw [Discards, resume_discards_iff hne]
  match spot, hspot with
  | .place .between, ⟨hneed, _⟩ =>
    rw [hneed]
    exact ⟨fun h => absurd h.2.2.1 (by decide), fun h => absurd h (Nat.not_lt.2 hcounter)⟩
  | .place (.inside f q), ⟨_, hheader, _⟩ =>
    refine ⟨fun h => absurd ?_ f.action_ne, fun h => absurd h (Nat.not_lt.2 hcounter)⟩
    rw [← hheader]
    exact h.2.2.2.1
  | .header f piece missing, ⟨hneed, hheader, _⟩ =>
    exact ⟨fun h => h.2.2.2.2, fun h => ⟨hne, hping, hneed, by rw [hheader]; rfl, h⟩⟩

/-! ## All reads -/

variable (json description) in
/-- The run emits the packets and discards nothing on the way. -/
def EmitsWithoutDiscard (r : Reader) (reads : List Bytes) (packets : List GDPPacket) : Prop :=
  emitted json description r reads = packets ∧
    ∀ v ∈ Mealy.trace (Reader.step json description) r reads, ¬ Discards v.before v.input

theorem emitsWithoutDiscard_cons {r : Reader} {read : Bytes} {reads : List Bytes}
    {sent later : List GDPPacket}
    (hsent : (Reader.step json description r read).2.rosTx = sent) :
    EmitsWithoutDiscard json description r (read :: reads) (sent ++ later) ↔
      ¬ Discards r read ∧
        EmitsWithoutDiscard json description (Reader.step json description r read).1 reads
          later := by
  simp only [EmitsWithoutDiscard, emitted_cons, hsent, List.append_cancel_left_eq,
    Mealy.trace_cons, List.forall_mem_cons]
  tauto

section Runs

variable (hround : json.RoundTrips) (hnul : json.NoNul) (hascii : json.WritesAscii)
  (htruncated : json.RejectsPrefix)

include hround hnul hascii htruncated

variable (description) in
/-- The reads from a spot of the stream to its end.  `before` are the frames the earlier
reads, of `n` bytes together, have emitted; the counter has grown by the headers they cut. -/
theorem reads_spot (reads : List Bytes) {st : ReaderState} {spot : Spot}
    (hspot : Reached json st spot) (hcounter : st.resetCounter ≤ 5) (before fs : List Frame)
    (n : Nat) (hn : n + spot.bytes.length = (encode json (before ++ spot.frames)).length)
    (hreads : ∀ read ∈ reads, read ≠ [] ∧ read ≠ ping)
    (hstream : reads.flatten = spot.bytes ++ encode json fs)
    (hcut : ∀ pre post, reads = pre ++ post →
      ¬ CutBeforeNul json (before ++ spot.frames ++ fs) (n + pre.flatten.length)) :
    EmitsWithoutDiscard json description (.running st) reads
        ((spot.frames ++ fs).map (packetOf description ∘ Frame.pair)) ↔
      st.resetCounter + spot.continues +
        headerCuts json (before ++ spot.frames ++ fs) n reads ≤ 5 := by
  induction reads generalizing st spot before fs n with
  | nil =>
    rw [List.flatten_nil, eq_comm, List.append_eq_nil_iff] at hstream
    obtain rfl := eq_nil_of_encode hstream.2
    match spot, hspot with
    | .place .between, _ => exact iff_of_true ⟨rfl, by simp⟩ (by simpa [Spot.continues, headerCuts])
    | .place (.inside f q), hwait => exact absurd hstream.1 hwait.2.2.2
    | .header f piece missing, _ => simp [Spot.bytes] at hstream
  | cons read reads ih =>
    rw [List.flatten_cons] at hstream
    obtain ⟨hne, hping⟩ := hreads read List.mem_cons_self
    have hdiscards := discards_iff hspot hcounter hne hping
    by_cases hsix : 5 < st.resetCounter + spot.continues
    · refine iff_of_false ?_ (by omega)
      rintro ⟨-, hno⟩
      exact hno ⟨.running st, read, _⟩ (by rw [Mealy.trace_cons]; exact List.mem_cons_self)
        (hdiscards.2 hsix)
    · have hfirst : ∀ c, c + spot.bytes.length = (encode json spot.frames).length + read.length →
          ¬ CutBeforeNul json (spot.frames ++ fs) c := by
        intro c hc h
        apply hcut [read] reads rfl
        have := h.append_left before
        rw [encode_append, List.length_append] at hn
        rwa [← List.append_assoc, show (encode json before).length + c = n + read.length by omega,
          ← List.flatten_singleton (l := read)] at this
      obtain ⟨done, spot', later, st', hfs, hrest, hspot', hcounter', hread⟩ :=
        readArm_spot description hround hnul hascii htruncated hspot (Nat.not_lt.1 hsix) fs hne
          hping hstream hfirst
      have hstep : Reader.step json description (.running st) read =
          (.running st', { rosTx := done.map (packetOf description ∘ Frame.pair) }) := hread
      have hframes : before ++ spot.frames ++ fs = before ++ done ++ spot'.frames ++ later := by
        rw [List.append_assoc, hfs]
        simp
      have hcount : n + read.length + spot'.bytes.length =
          (encode json (before ++ done ++ spot'.frames)).length := by
        have htotal := congrArg (fun gs => (encode json gs).length) hframes
        have hlengths := congrArg List.length hstream
        rw [hrest] at hlengths
        simp only [encode_append, List.length_append] at htotal hlengths hn ⊢
        omega
      have hih := ih hspot' (by omega) (before ++ done) later (n + read.length) hcount
        (fun r hr => hreads r (List.mem_cons_of_mem _ hr)) hrest (by
          intro pre post hpre
          have := hcut (read :: pre) post (by rw [hpre, List.cons_append])
          rwa [hframes, List.flatten_cons, List.length_append, ← Nat.add_assoc] at this)
      rw [hfs, List.append_assoc, List.map_append,
        emitsWithoutDiscard_cons (congrArg (fun out => out.2.rosTx) hstep), hstep, hih, hdiscards,
        headerCuts, hframes, hspot'.continues_eq _ later hcount, hcounter', Nat.add_assoc]
      exact and_iff_right hsix

end Runs

variable (description) in
/-- **Main result.**  On a stream of frames whose headers may be cut inside their JSON, the
reader emits exactly the frames and discards nothing, exactly if at most five reads end
inside a header. -/
theorem emitsWithoutDiscard_iff_headerCuts (hround : json.RoundTrips) (hnul : json.NoNul)
    (hascii : json.WritesAscii) (htruncated : json.RejectsPrefix)
    (frames : List Frame) (reads : List Bytes)
    (hnonempty : ∀ read ∈ reads, read ≠ []) (hping : ∀ read ∈ reads, read ≠ ping)
    (hstream : reads.flatten = encode json frames)
    (hcut : ∀ pre post, reads = pre ++ post → ¬ CutBeforeNul json frames pre.flatten.length) :
    EmitsWithoutDiscard json description (.running initialReader) reads
        (frames.map fun f => packetOf description (f.header, f.body)) ↔
      headerCuts json frames 0 reads ≤ 5 := by
  have hspot : Reached json initialReader (.place .between) := ⟨rfl, rfl⟩
  have hreads := reads_spot description hround hnul hascii htruncated reads hspot
    (by decide) [] frames 0 rfl (fun read hr => ⟨hnonempty read hr, hping read hr⟩) hstream
    (by simpa [Spot.frames, Place.frames] using hcut)
  simp only [Spot.frames, Place.frames, Spot.continues, initialReader, List.nil_append,
    Nat.zero_add] at hreads
  exact hreads

/-- The two reads of a frame whose header is cut after its opening brace. -/
def sampleSplit : List Bytes :=
  [(headerText headerJson sampleFrame.header).take 1,
    (headerText headerJson sampleFrame.header).drop 1 ++ 0 :: sampleFrame.body]

theorem flatten_sampleSplit : sampleSplit.flatten = encodeFrame headerJson sampleFrame := by
  rw [sampleSplit, List.flatten_cons, List.flatten_singleton, ← List.append_assoc,
    List.take_append_drop, encodeFrame, headerBlock_eq, List.append_assoc]
  rfl

theorem length_sampleText : 1 < (headerText headerJson sampleFrame.header).length := by
  rw [length_headerText]
  decide

theorem take_sampleText_ne_nil : (headerText headerJson sampleFrame.header).take 1 ≠ [] := by
  have htext := length_sampleText
  rw [← List.length_pos_iff, List.length_take]
  omega

theorem drop_sampleText_ne_nil : (headerText headerJson sampleFrame.header).drop 1 ≠ [] := by
  have htext := length_sampleText
  rw [← List.length_pos_iff, List.length_drop]
  omega

theorem emitsWithoutDiscard_sampleSplit :
    EmitsWithoutDiscard headerJson none (.running initialReader) sampleSplit
      ([sampleFrame].map fun f => packetOf none (f.header, f.body)) := by
  have htext := length_sampleText
  have hzero : 0 ∈ (headerText headerJson sampleFrame.header).drop 1 ++ 0 :: sampleFrame.body :=
    List.mem_append_right _ List.mem_cons_self
  have hstream : sampleSplit.flatten = encode headerJson [sampleFrame] := by
    rw [flatten_sampleSplit, encode, List.flatMap_singleton]
  refine (emitsWithoutDiscard_iff_headerCuts none headerJson_roundTrips headerJson_noNul
    headerJson_writesAscii headerJson_rejectsPrefix [sampleFrame] sampleSplit ?_ ?_ hstream ?_).2 ?_
  · intro read hread
    rcases List.mem_pair.1 hread with rfl | rfl
    · exact take_sampleText_ne_nil
    · exact List.ne_nil_of_mem hzero
  · intro read hread
    rcases List.mem_pair.1 hread with rfl | rfl
    · exact piece_ne_ping headerJson_opensBrace take_sampleText_ne_nil (List.take_append_drop ..)
    · exact ne_ping_of_zero hzero
  · rintro pre post hpre ⟨before, f, after, hfs, hcut⟩
    obtain ⟨rfl, rfl, -⟩ : before = [] ∧ f = sampleFrame ∧ after = [] := by
      cases before with
      | nil => exact ⟨rfl, (List.cons.inj hfs).1.symm, (List.cons.inj hfs).2.symm⟩
      | cons g before => simpa using (List.cons.inj hfs).2
    rw [encode_nil, List.length_nil, Nat.zero_add] at hcut
    rcases pre with _ | ⟨read, _ | ⟨read', _ | ⟨read'', pre⟩⟩⟩
    · simp at hcut
      omega
    · obtain ⟨rfl, -⟩ := List.cons.inj hpre
      simp at hcut
      omega
    · obtain ⟨rfl, h⟩ := List.cons.inj hpre
      obtain ⟨rfl, -⟩ := List.cons.inj h
      simp at hcut
      omega
    · simp [sampleSplit] at hpre
  · simp only [sampleSplit, headerCuts]
    split_ifs <;> decide

/-- Six frames, each header cut once: the sixth frame is discarded. -/
theorem sixth_split_discarded :
    (List.replicate 6 sampleSplit).flatten.flatten =
      encode headerJson (List.replicate 6 sampleFrame) ∧
    emitted headerJson none (.running initialReader) (List.replicate 6 sampleSplit).flatten ≠
      (List.replicate 6 sampleFrame).map fun f => packetOf none (f.header, f.body) := by
  have hsplit (n : Nat) :
      Mealy.final (Reader.step headerJson none) (.running { resetCounter := n }) sampleSplit =
        .running { resetCounter := if n + 1 > 5 then 0 else n + 1 } ∧
      emitted headerJson none (.running { resetCounter := n }) sampleSplit =
        if n + 1 > 5 then [] else [packetOf none sampleFrame.pair] := by
    exact reads_split none headerJson_roundTrips headerJson_noNul headerJson_opensBrace
      headerJson_writesAscii headerJson_rejectsPrefix rfl take_sampleText_ne_nil
      drop_sampleText_ne_nil (List.take_append_drop ..)
  constructor
  · simp [List.replicate, flatten_sampleSplit, encode]
  · intro h
    have hlength := congrArg List.length h
    simp [List.replicate, emitted_append, initialReader, hsplit] at hlength

end RtFogros.Kcp
