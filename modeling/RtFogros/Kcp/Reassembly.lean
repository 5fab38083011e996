import RtFogros.Kcp.Reader
import RtFogros.Packet.Json

/-!
# Reassembly of frames

`reassembles_frames`: the reader simulates the grammar of frames on every cutting of the byte
stream that leaves headers whole; it emits a packet for each frame, in order, and ends between two.

`Waiting` relates a reader state to the place the reads have reached: between two frames, or inside
the body of one.  `readArm_stream` moves from one place of the stream to a later one by one read,
and the run lemma is an induction on the reads with the frames emitted so far.  That no read is a
keepalive is a condition, since the reader answers one wherever it comes.
-/

namespace RtFogros.Kcp

variable (json : SerdeJson GDPHeaderInTransit) (description : Option String)

/-- A frame other than a Noop: a header and as many body bytes as it declares. -/
structure Frame where
  header : GDPHeaderInTransit
  body : Bytes
  length_eq : body.length = header.length
  action_ne : header.action ≠ .noop

def Frame.pair (f : Frame) : HeaderPayload := (f.header, f.body)

def encodeFrame (f : Frame) : Bytes := headerBlock json f.header ++ f.body

def encode (fs : List Frame) : Bytes := fs.flatMap (encodeFrame json)

/-- A cut after `c` bytes of the stream falls strictly inside the header, NUL
included, of some frame. -/
def CutInsideHeader (fs : List Frame) (c : Nat) : Prop :=
  ∃ before f after, fs = before ++ f :: after ∧ (encode json before).length < c ∧
    c < (encode json before).length + (headerBlock json f.header).length

variable {json}

@[simp] theorem encode_nil : encode json [] = [] := rfl

@[simp] theorem encode_cons (f : Frame) (fs : List Frame) :
    encode json (f :: fs) = headerBlock json f.header ++ (f.body ++ encode json fs) := by
  simp [encode, encodeFrame]

@[simp] theorem encode_append (fs gs : List Frame) :
    encode json (fs ++ gs) = encode json fs ++ encode json gs := by
  simp [encode]

theorem eq_nil_of_encode {fs : List Frame} (h : encode json fs = []) : fs = [] := by
  cases fs with
  | nil => rfl
  | cons f fs =>
    rw [encode_cons, List.append_eq_nil_iff] at h
    exact absurd h.1 (headerBlock_ne_nil f.header)

theorem CutInsideHeader.append_left {fs : List Frame} {c : Nat} (done : List Frame)
    (h : CutInsideHeader json fs c) :
    CutInsideHeader json (done ++ fs) ((encode json done).length + c) := by
  obtain ⟨before, f, after, rfl, hlo, hhi⟩ := h
  refine ⟨done ++ before, f, after, by simp, ?_, ?_⟩ <;>
    rw [encode_append, List.length_append] <;> omega

/-- A cut that spares the first header of a stream lies at its start or after
that header. -/
theorem header_prefix {f : Frame} {fs : List Frame} {read rest : Bytes} (hne : read ≠ [])
    (hstream : read ++ rest = encode json (f :: fs))
    (hcut : ¬ CutInsideHeader json (f :: fs) read.length) :
    ∃ tail, read = headerBlock json f.header ++ tail ∧ tail ++ rest = f.body ++ encode json fs := by
  have hpos : 0 < read.length := List.length_pos_iff.2 hne
  have hlen : (headerBlock json f.header).length ≤ read.length := by
    by_contra hlt
    exact hcut ⟨[], f, fs, rfl, by simpa using hpos, by simpa using hlt⟩
  rw [encode_cons] at hstream
  obtain ⟨tail, rfl⟩ : headerBlock json f.header <+: read :=
    List.prefix_of_prefix_length_le ⟨_, rfl⟩ (hstream ▸ List.prefix_append read rest) hlen
  rw [List.append_assoc, List.append_cancel_left_eq] at hstream
  exact ⟨tail, rfl, hstream⟩

/-! ## The place the reads have reached -/

/-- Inside the body of `f` with the bytes `q ≠ []` of it still to come, or
between two frames. -/
inductive Place where
  | between
  | inside (f : Frame) (q : Bytes)

namespace Place

def bytes : Place → Bytes
  | between => []
  | inside _ q => q

def frames : Place → List Frame
  | between => []
  | inside f _ => [f]

end Place

/-- The reader has consumed the stream up to a place. -/
def Waiting (st : ReaderState) : Place → Prop
  | .between => st.needMoreDataForPreviousHeader = false ∧ st.remainingGdpPayload = []
  | .inside f q => st.needMoreDataForPreviousHeader = true ∧ st.remainingGdpHeader = f.header ∧
      f.body = st.remainingGdpPayload ++ q ∧ q ≠ []

theorem waiting_carry (st : ReaderState) {f : Frame} {p q : Bytes} (hbody : f.body = p ++ q)
    (hq : q ≠ []) : Waiting (st.carry (some (f.header, p))) (.inside f q) :=
  ⟨rfl, rfl, hbody, hq⟩

variable {description} in
/-- One read inside the body of `f`: it stays there, or it completes the body and is parsed
on. -/
theorem readArm_inside {st : ReaderState} {f : Frame} {q : Bytes} (hwait : Waiting st (.inside f q))
    {read rest tail : Bytes} (hne : read ≠ []) (hping : read ≠ ping)
    (hstream : read ++ rest = q ++ tail) :
    (∃ q', rest = q' ++ tail ∧
      Waiting { st with remainingGdpPayload := st.remainingGdpPayload ++ read } (.inside f q') ∧
      readArm json description st read =
        (.running { st with remainingGdpPayload := st.remainingGdpPayload ++ read }, {})) ∨
    ∃ next, read = q ++ next ∧ next ++ rest = tail ∧
      readArm json description st read =
        parseAndSend json description { st with remainingGdpPayload := f.body } [f.pair] next := by
  obtain ⟨hneed, hheader, hbody, hq⟩ := hwait
  have hlen : st.remainingGdpPayload.length + q.length = st.remainingGdpHeader.length := by
    rw [hheader, ← f.length_eq, hbody, List.length_append]
  have hqpos : 0 < q.length := List.length_pos_iff.2 hq
  rw [readArm_pending hneed (by rw [hheader]; exact f.action_ne) (by omega) hne hping]
  by_cases hshort : read.length < q.length
  · -- the read stays inside the body
    obtain ⟨q', rfl⟩ : read <+: q :=
      List.prefix_of_prefix_length_le (hstream ▸ List.prefix_append read rest) ⟨_, rfl⟩
        (Nat.le_of_lt hshort)
    rw [if_pos (by omega)]
    refine .inl ⟨q', by simpa using hstream, ⟨hneed, hheader, ?_, ?_⟩, rfl⟩
    · rw [hbody, List.append_assoc]
    · rintro rfl
      simp at hshort
  · -- the read completes the body
    obtain ⟨next, rfl⟩ : q <+: read :=
      List.prefix_of_prefix_length_le (hstream ▸ List.prefix_append q _)
        (List.prefix_append read rest) (by omega)
    rw [List.append_assoc, List.append_cancel_left_eq] at hstream
    refine .inr ⟨next, rfl, hstream, ?_⟩
    rw [if_neg (by rw [List.length_append]; omega),
      show st.remainingGdpHeader.length - st.remainingGdpPayload.length = q.length by omega]
    simp only [List.take_left, List.drop_left, ← hbody, hheader, Frame.pair]

section Parse

variable (hround : json.RoundTrips) (hnul : json.NoNul)

include hround hnul

/-- The parse loop on the part of a stream that a read holds: it accumulates
the whole frames and returns the started one. -/
theorem parseLoop_stream (fs : List Frame) (pairs : List HeaderPayload) {buffer rest : Bytes}
    (hne : buffer ≠ []) (hstream : buffer ++ rest = encode json fs)
    (hcut : ¬ CutInsideHeader json fs buffer.length) :
    ∃ done place later, fs = done ++ Place.frames place ++ later ∧
      rest = place.bytes ++ encode json later ∧
      ∃ remaining, parseLoop json buffer pairs = .ok (pairs ++ done.map Frame.pair, remaining) ∧
        ∀ st : ReaderState, Waiting (st.carry remaining) place := by
  induction fs generalizing pairs buffer with
  | nil =>
    rw [encode_nil, List.append_eq_nil_iff] at hstream
    exact absurd hstream.1 hne
  | cons f fs ih =>
    obtain ⟨tail, rfl, htail⟩ := header_prefix hne hstream hcut
    have hloop := parseLoop_header hround hnul f.header tail pairs
    rcases Nat.lt_trichotomy tail.length f.header.length with hlt | heq | hgt
    · -- the read ends inside the body
      rw [if_pos hlt] at hloop
      obtain ⟨q, hq⟩ : tail <+: f.body :=
        List.prefix_of_prefix_length_le (htail ▸ List.prefix_append tail rest) ⟨_, rfl⟩
          (by rw [f.length_eq]; omega)
      have hqne : q ≠ [] := by
        rintro rfl
        rw [List.append_nil] at hq
        rw [hq, f.length_eq] at hlt
        exact Nat.lt_irrefl _ hlt
      refine ⟨[], .inside f q, fs, rfl, ?_, _, by simpa using hloop,
        fun st => waiting_carry st hq.symm hqne⟩
      rw [← hq, List.append_assoc, List.append_cancel_left_eq] at htail
      exact htail
    · -- the read ends with the frame
      rw [if_neg (by omega), if_pos heq.symm] at hloop
      obtain ⟨rfl, rfl⟩ := List.append_inj htail (by rw [f.length_eq, heq])
      exact ⟨[f], .between, fs, rfl, rfl, none, hloop, fun st => ⟨rfl, rfl⟩⟩
    · -- the read goes on after the frame
      rw [if_neg (by omega), if_neg (by omega)] at hloop
      obtain ⟨next, rfl⟩ : f.body <+: tail :=
        List.prefix_of_prefix_length_le (htail ▸ List.prefix_append f.body _)
          (List.prefix_append tail rest) (by rw [f.length_eq]; omega)
      rw [List.append_assoc, List.append_cancel_left_eq] at htail
      have hnext : next ≠ [] := by
        rintro rfl
        rw [List.append_nil, f.length_eq] at hgt
        exact Nat.lt_irrefl _ hgt
      rw [← f.length_eq, List.drop_left, List.take_left] at hloop
      have hcut' : ¬ CutInsideHeader json fs next.length := by
        intro h
        have := h.append_left [f]
        rw [List.singleton_append, encode_cons] at this
        apply hcut
        simpa [Nat.add_assoc] using this
      obtain ⟨done, place, later, rfl, hrest, remaining, hparse, hwait⟩ :=
        ih (pairs ++ [(f.header, f.body)]) hnext htail hcut'
      refine ⟨f :: done, place, later, rfl, hrest, remaining, ?_, hwait⟩
      rw [hloop, hparse]
      simp [Frame.pair]

/-- One read at the start of a stream of frames. -/
theorem parseAndSend_stream (fs : List Frame) (st : ReaderState) (pairs : List HeaderPayload)
    {buffer rest : Bytes} (hstream : buffer ++ rest = encode json fs)
    (hcut : ¬ CutInsideHeader json fs buffer.length) :
    ∃ done place later st', fs = done ++ Place.frames place ++ later ∧
      rest = place.bytes ++ encode json later ∧ Waiting st' place ∧
      parseAndSend json description st pairs buffer =
        (.running st', { rosTx := (pairs ++ done.map Frame.pair).map (packetOf description) }) := by
  by_cases hne : buffer = []
  · subst hne
    exact ⟨[], .between, fs, st.carry none, rfl, hstream, ⟨rfl, rfl⟩, by simp [parseAndSend]⟩
  · obtain ⟨done, place, later, hfs, hrest, remaining, hparse, hwait⟩ :=
      parseLoop_stream hround hnul fs [] hne hstream hcut
    refine ⟨done, place, later, st.carry remaining, hfs, hrest, hwait st, ?_⟩
    unfold parseAndSend
    rw [parseHeaderPayloadPairs_of_ne json hne, hparse]
    rfl

/-- **One read of the reader** from a place of the stream to a later one. -/
theorem readArm_stream {st : ReaderState} {place : Place} (hwait : Waiting st place)
    (fs : List Frame) {read rest : Bytes} (hne : read ≠ []) (hping : read ≠ ping)
    (hstream : read ++ rest = place.bytes ++ encode json fs)
    (hcut : ∀ c, read.length = place.bytes.length + c → ¬ CutInsideHeader json fs c) :
    ∃ done place' later st', place.frames ++ fs = done ++ place'.frames ++ later ∧
      rest = place'.bytes ++ encode json later ∧ Waiting st' place' ∧
      readArm json description st read =
        (.running st', { rosTx := done.map (packetOf description ∘ Frame.pair) }) := by
  cases place with
  | between =>
    obtain ⟨hneed, -⟩ := hwait
    obtain ⟨done, place', later, st', hfs, hrest, hwait', hparse⟩ :=
      parseAndSend_stream description hround hnul fs st [] hstream (hcut _ (by simp [Place.bytes]))
    refine ⟨done, place', later, st', hfs, hrest, hwait', ?_⟩
    rw [readArm_fresh hneed hne hping, hparse]
    simp
  | inside f q =>
    rcases readArm_inside hwait hne hping hstream with ⟨q', hrest, hwait', hread⟩ | hnext
    · exact ⟨[], .inside f q', fs, _, rfl, hrest, hwait', hread⟩
    · obtain ⟨next, rfl, hnext, hread⟩ := hnext
      obtain ⟨done, place', later, st', rfl, hrest, hwait', hparse⟩ :=
        parseAndSend_stream description hround hnul fs { st with remainingGdpPayload := f.body }
          [f.pair] hnext (hcut _ (by simp [Place.bytes]))
      refine ⟨f :: done, place', later, st', rfl, hrest, hwait', ?_⟩
      rw [hread, hparse]
      simp

/-! ## All reads -/

/-- The reads from a place of the stream to its end.  `before` are the frames
the earlier reads, of `n` bytes together, have emitted. -/
theorem reads_stream (reads : List Bytes) {st : ReaderState} {place : Place}
    (hwait : Waiting st place) (before fs : List Frame) (n : Nat)
    (hn : n + place.bytes.length = (encode json (before ++ place.frames)).length)
    (hreads : ∀ read ∈ reads, read ≠ [] ∧ read ≠ ping)
    (hstream : reads.flatten = place.bytes ++ encode json fs)
    (hcut : ∀ pre post, reads = pre ++ post →
      ¬ CutInsideHeader json (before ++ place.frames ++ fs) (n + pre.flatten.length)) :
    ∃ st', Waiting st' .between ∧
      Mealy.final (Reader.step json description) (.running st) reads = .running st' ∧
      emitted json description (.running st) reads =
        (place.frames ++ fs).map (packetOf description ∘ Frame.pair) := by
  induction reads generalizing st place before fs n with
  | nil =>
    rw [List.flatten_nil, eq_comm, List.append_eq_nil_iff] at hstream
    obtain rfl := eq_nil_of_encode hstream.2
    cases place with
    | between => exact ⟨st, hwait, rfl, rfl⟩
    | inside f q => exact absurd hstream.1 hwait.2.2.2
  | cons read reads ih =>
    rw [List.flatten_cons] at hstream
    obtain ⟨hne, hping⟩ := hreads read List.mem_cons_self
    have hfirst : ∀ c, read.length = place.bytes.length + c → ¬ CutInsideHeader json fs c := by
      intro c hc h
      apply hcut [read] reads rfl
      have := h.append_left (before ++ place.frames)
      rwa [← hn, Nat.add_assoc, ← hc, ← List.flatten_singleton (l := read)] at this
    obtain ⟨done, place', later, st', hfs, hrest, hwait', hread⟩ :=
      readArm_stream description hround hnul hwait fs hne hping hstream hfirst
    have hstep : Reader.step json description (.running st) read =
        (.running st', { rosTx := done.map (packetOf description ∘ Frame.pair) }) := hread
    have hframes : before ++ place.frames ++ fs = before ++ done ++ place'.frames ++ later := by
      rw [List.append_assoc, hfs]
      simp
    have hcount : n + read.length + place'.bytes.length =
        (encode json (before ++ done ++ place'.frames)).length := by
      have htotal := congrArg (fun gs => (encode json gs).length) hframes
      have hlengths := congrArg List.length hstream
      rw [hrest] at hlengths
      simp only [encode_append, List.length_append] at htotal hlengths hn ⊢
      omega
    obtain ⟨last, hlast, hfinal, hemit⟩ := ih hwait' (before ++ done) later (n + read.length) hcount
      (fun r hr => hreads r (List.mem_cons_of_mem _ hr)) hrest (by
        intro pre post hpre
        have := hcut (read :: pre) post (by rw [hpre, List.cons_append])
        rwa [hframes, List.flatten_cons, List.length_append, ← Nat.add_assoc] at this)
    refine ⟨last, hlast, ?_, ?_⟩
    · rw [Mealy.final_cons, hstep, hfinal]
    · rw [emitted_cons, hstep, hemit, hfs]
      simp

end Parse

/-- **Reassembly.** Whatever the cutting of a stream of frames into reads, as
long as headers stay whole and no read is a keepalive, the reader emits a packet for
each frame, with the fields of its header and its body, in order, and ends between two frames. -/
theorem reassembles_frames (hround : json.RoundTrips) (hnul : json.NoNul)
    (frames : List Frame) (reads : List Bytes)
    (hnonempty : ∀ read ∈ reads, read ≠ []) (hping : ∀ read ∈ reads, read ≠ ping)
    (hstream : reads.flatten = encode json frames)
    (hheaders : ∀ pre post, reads = pre ++ post →
      ¬ CutInsideHeader json frames pre.flatten.length) :
    ∃ st, Mealy.final (Reader.step json description) (.running initialReader) reads = .running st ∧
      emitted json description (.running initialReader) reads =
        frames.map (fun f =>
          { action := f.header.action, gdpname := f.header.destination, payload := some f.body,
            source := f.header.source, guid := some f.header.guid, nameRecord := none,
            description }) ∧
      st.needMoreDataForPreviousHeader = false ∧ st.remainingGdpPayload = [] := by
  have hstart : Waiting initialReader .between := ⟨rfl, rfl⟩
  obtain ⟨st, hwait, hfinal, hemit⟩ := reads_stream description hround hnul reads hstart [] frames 0
    rfl (fun read hr => ⟨hnonempty read hr, hping read hr⟩) hstream
    (by simpa [Place.frames] using hheaders)
  exact ⟨st, hfinal, hemit, hwait.1, hwait.2⟩

/-- A frame whose body holds a NUL and an opening brace. -/
def sampleFrame : Frame where
  header := { defaultGdpHeader with action := .forward, length := 3 }
  body := [0, 0x7b, 1]
  length_eq := rfl
  action_ne := by decide

theorem reassembles_sampleFrame :
    ∃ st, Mealy.final (Reader.step headerJson none) (.running initialReader)
        [headerBlock headerJson sampleFrame.header ++ [0], [0x7b, 1]] = .running st ∧
      emitted headerJson none (.running initialReader)
          [headerBlock headerJson sampleFrame.header ++ [0], [0x7b, 1]] =
        [{ action := .forward, gdpname := sampleFrame.header.destination
           payload := some [0, 0x7b, 1], source := sampleFrame.header.source
           guid := some sampleFrame.header.guid, nameRecord := none, description := none }] ∧
      st.needMoreDataForPreviousHeader = false ∧ st.remainingGdpPayload = [] := by
  refine reassembles_frames none headerJson_roundTrips headerJson_noNul [sampleFrame] _
    (by simp) ?_ (by simp [sampleFrame]) ?_
  · intro read hread
    rcases List.mem_pair.1 hread with rfl | rfl
    · intro h
      have hlast := congrArg List.getLast? h
      rw [List.getLast?_append] at hlast
      cases hlast
    · decide
  · rintro pre post hpre ⟨before, f, after, hfs, hlo, hhi⟩
    obtain ⟨rfl, rfl, -⟩ : before = [] ∧ f = sampleFrame ∧ after = [] := by
      cases before with
      | nil => exact ⟨rfl, (List.cons.inj hfs).1.symm, (List.cons.inj hfs).2.symm⟩
      | cons g before => simpa using (List.cons.inj hfs).2
    rw [encode_nil] at hlo hhi
    cases pre with
    | nil => exact absurd hlo (Nat.lt_irrefl 0)
    | cons read pre =>
      obtain ⟨rfl, -⟩ := List.cons.inj hpre
      simp only [List.flatten_cons, List.length_append, List.length_nil] at hhi
      omega

end RtFogros.Kcp
