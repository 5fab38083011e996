import RtFogros.Kcp.Reader
import RtFogros.Packet.Json

/-!
# Bytes of an untrusted peer

What the read arm does on any bytes in any chunking.

* `reads_inRange`: the slices and the subtraction never fail, since a pending body stays shorter
  than its header declares.
* `running_iff_delimited`: `from_utf8(..).unwrap()` and `header_and_remaining[1]` do fail, and
  exactly on reads that leave bytes which are not `Delimited`.  `Delimited` is a condition on the
  bytes in terms of the wire format: after any number of whole frames, UTF-8 up to the first NUL,
  and a NUL if the JSON of a header comes first.  `delimited_iff` follows the parser's loop, one
  accepted frame a turn.
-/

namespace RtFogros.Kcp

variable {json : SerdeJson GDPHeaderInTransit} {description : Option String}

/-! ## The wire format -/

variable (json) in
/-- A header that parses, its NUL, and a body of the declared length. -/
def Accepted (bytes : Bytes) : Prop :=
  ∃ head text header body, bytes = head ++ 0 :: body ∧ 0 ∉ head ∧ fromUtf8 head = some text ∧
    json.fromStr text = some header ∧ body.length = header.length

variable (json) in
/-- What follows any number of accepted frames is UTF-8 up to its first NUL, and has a NUL
if it starts with the JSON of a header. -/
def Delimited (buffer : Bytes) : Prop :=
  ∀ (frames : List Bytes) (rest : Bytes), (∀ frame ∈ frames, Accepted json frame) →
    buffer = frames.flatten ++ rest → rest ≠ [] →
    ∃ text, fromUtf8 (splitNul rest).1 = some text ∧ (json.fromStr text ≠ none → 0 ∈ rest)

theorem delimited_nil : Delimited json [] := by
  intro frames rest _ h hrest
  rw [eq_comm, List.append_eq_nil_iff] at h
  exact absurd h.2 hrest

theorem splitNul_eq_none {buffer : Bytes} (h : (splitNul buffer).2 = none) : 0 ∉ buffer := by
  induction buffer with
  | nil => exact List.not_mem_nil
  | cons b rest ih =>
    unfold splitNul at h
    split at h
    · cases h
    · next hb => exact List.not_mem_cons_of_ne_of_not_mem (Ne.symm hb) (ih h)

theorem splitNul_eq_some {buffer remaining : Bytes} (h : (splitNul buffer).2 = some remaining) :
    buffer = (splitNul buffer).1 ++ 0 :: remaining ∧ 0 ∉ (splitNul buffer).1 := by
  induction buffer with
  | nil => cases h
  | cons b rest ih =>
    unfold splitNul at h ⊢
    split at h
    · next hb =>
      cases h
      simp [hb]
    · next hb =>
      obtain ⟨hrest, hmem⟩ := ih h
      simp only [if_neg hb, List.cons_append]
      exact ⟨congrArg (b :: ·) hrest, List.not_mem_cons_of_ne_of_not_mem (Ne.symm hb) hmem⟩

/-- The parser's own cut of a buffer that starts with an accepted frame. -/
theorem Accepted.splitNul {frame : Bytes} (h : Accepted json frame) (tail : Bytes) :
    ∃ text header body, fromUtf8 (splitNul (frame ++ tail)).1 = some text ∧
      json.fromStr text = some header ∧ body.length = header.length ∧
      (splitNul (frame ++ tail)).2 = some (body ++ tail) := by
  obtain ⟨head, text, header, body, rfl, hhead, htext, hheader, hbody⟩ := h
  rw [List.append_assoc, List.cons_append, splitNul_append hhead]
  exact ⟨text, header, body, htext, hheader, hbody, rfl⟩

/-- One turn of the loop: what it needs of the buffer, and of what it goes on with. -/
theorem delimited_iff {buffer : Bytes} (hne : buffer ≠ []) :
    Delimited json buffer ↔
      ∃ text, fromUtf8 (splitNul buffer).1 = some text ∧
        ∀ header, json.fromStr text = some header →
          ∃ remaining, (splitNul buffer).2 = some remaining ∧
            (header.length ≤ remaining.length →
              Delimited json (remaining.drop header.length)) := by
  constructor
  · intro h
    obtain ⟨text, htext, hnul⟩ := h [] buffer (by simp) rfl hne
    refine ⟨text, htext, fun header hheader => ?_⟩
    have hzero : 0 ∈ buffer := hnul (by rw [hheader]; exact Option.some_ne_none _)
    cases hsplit : (splitNul buffer).2 with
    | none => exact absurd hzero (splitNul_eq_none hsplit)
    | some remaining =>
      refine ⟨remaining, rfl, fun hle frames rest hframes hrest => ?_⟩
      obtain ⟨hbuffer, hhead⟩ := splitNul_eq_some hsplit
      have hfirst : Accepted json ((splitNul buffer).1 ++ 0 :: remaining.take header.length) :=
        ⟨_, text, header, _, rfl, hhead, htext, hheader, List.length_take_of_le hle⟩
      refine h (_ :: frames) rest (List.forall_mem_cons.2 ⟨hfirst, hframes⟩) ?_
      conv_lhs => rw [hbuffer, ← List.take_append_drop header.length remaining, hrest]
      simp
  · rintro ⟨text, htext, hloop⟩ frames rest hframes hbuffer hrest
    cases frames with
    | nil =>
      obtain rfl : buffer = rest := hbuffer
      refine ⟨text, htext, fun hsome => ?_⟩
      obtain ⟨header, hheader⟩ := Option.ne_none_iff_exists'.1 hsome
      obtain ⟨remaining, hsplit, -⟩ := hloop header hheader
      rw [(splitNul_eq_some hsplit).1]
      simp
    | cons frame frames =>
      rw [List.forall_mem_cons] at hframes
      rw [List.flatten_cons, List.append_assoc] at hbuffer
      obtain ⟨text', header, body, htext', hheader, hbody, hsplit⟩ :=
        hframes.1.splitNul (frames.flatten ++ rest)
      rw [← hbuffer] at htext' hsplit
      obtain rfl : text = text' := Option.some.inj (htext.symm.trans htext')
      obtain ⟨remaining, hremaining, hgo⟩ := hloop header hheader
      obtain rfl : body ++ (frames.flatten ++ rest) = remaining :=
        Option.some.inj (hsplit.symm.trans hremaining)
      have hdrop := hgo (by rw [List.length_append]; omega)
      rw [← hbody, List.drop_left] at hdrop
      exact hdrop frames rest hframes.2 rfl hrest

/-! ## The loop -/

/-- The loop returns exactly on delimited bytes. -/
theorem parseLoop_ok_iff (buffer : Bytes) (pairs : List HeaderPayload) (hne : buffer ≠ []) :
    (∃ parsed, parseLoop json buffer pairs = .ok parsed) ↔ Delimited json buffer := by
  rw [delimited_iff hne]
  fun_induction parseLoop json buffer pairs with
  | case1 buffer pairs h => simp [h]
  | case2 buffer pairs text h hnone => simp [h, hnone]
  | case3 buffer pairs text h header hheader hsplit => simp [h, hheader, hsplit]
  | case4 buffer pairs text h header hheader remaining hsplit hlt =>
    simp [h, hheader, hsplit, Nat.not_le.2 hlt]
  | case5 buffer pairs text h header hheader remaining hsplit hlt heq =>
    simp [h, hheader, hsplit, heq, delimited_nil]
  | case6 buffer pairs text h header hheader remaining hsplit hlt heq ih =>
    have hrest : remaining.drop header.length ≠ [] := by
      rw [ne_eq, List.drop_eq_nil_iff]
      omega
    rw [ih hrest, ← delimited_iff hrest]
    simp [h, hheader, hsplit, Nat.not_lt.1 hlt]

/-- An incomplete body is shorter than its header declares. -/
theorem parseLoop_remaining {buffer : Bytes} {pairs parsed : List HeaderPayload}
    {header : GDPHeaderInTransit} {payload : Bytes}
    (h : parseLoop json buffer pairs = .ok (parsed, some (header, payload)))
    (haction : header.action ≠ .noop) : payload.length < header.length := by
  fun_induction parseLoop json buffer pairs with
  | case1 => cases h
  | case2 =>
    cases h
    exact absurd rfl haction
  | case3 => cases h
  | case4 buffer pairs text htext header' hheader remaining hsplit hlt =>
    cases h
    exact hlt
  | case5 => cases h
  | case6 buffer pairs text htext header' hheader remaining hsplit hlt heq ih => exact ih h

/-! ## The read arm -/

/-- The bytes that a read leaves to parse. -/
def toParse (st : ReaderState) (read : Bytes) : Bytes :=
  if read = [] ∨ read = ping then []
  else if st.needMoreDataForPreviousHeader then
    if st.remainingGdpHeader.action = .noop then
      if st.resetCounter + 1 > 5 then [] else st.remainingGdpPayload ++ read
    else read.drop (st.remainingGdpHeader.length - st.remainingGdpPayload.length)
  else read

/-- A pending body is incomplete, so that no slice and no subtraction fails. -/
def Incomplete (st : ReaderState) : Prop :=
  st.needMoreDataForPreviousHeader = true → st.remainingGdpHeader.action ≠ .noop →
    st.remainingGdpPayload.length < st.remainingGdpHeader.length

theorem parseAndSend_running_iff (st : ReaderState) (pairs : List HeaderPayload)
    (buffer : Bytes) :
    (∃ st', (parseAndSend json description st pairs buffer).1 = .running st') ↔
      Delimited json buffer := by
  by_cases hne : buffer = []
  · subst hne
    exact iff_of_true ⟨_, rfl⟩ delimited_nil
  · rw [← parseLoop_ok_iff buffer [] hne, parseAndSend, parseHeaderPayloadPairs_of_ne json hne]
    cases parseLoop json buffer [] with
    | error p => simp
    | ok parsed => simp

theorem parseAndSend_incomplete {st st' : ReaderState} {pairs : List HeaderPayload}
    {buffer : Bytes} (h : (parseAndSend json description st pairs buffer).1 = .running st') :
    Incomplete st' := by
  by_cases hne : buffer = []
  · subst hne
    obtain rfl : st.carry none = st' := Reader.running.inj h
    intro hneed
    cases hneed
  · rw [parseAndSend, parseHeaderPayloadPairs_of_ne json hne] at h
    split at h
    · cases h
    · next processed remaining hparse =>
      obtain rfl : st.carry remaining = st' := Reader.running.inj h
      intro hneed haction
      cases remaining with
      | none => cases hneed
      | some pair => exact parseLoop_remaining hparse haction

theorem toParse_eq {st : ReaderState} {read : Bytes} (hne : read ≠ []) (hping : read ≠ ping) :
    toParse st read =
      if st.needMoreDataForPreviousHeader then
        if st.remainingGdpHeader.action = .noop then
          if st.resetCounter + 1 > 5 then [] else st.remainingGdpPayload ++ read
        else read.drop (st.remainingGdpHeader.length - st.remainingGdpPayload.length)
      else read := by
  unfold toParse
  rw [if_neg (not_or.2 ⟨hne, hping⟩)]

variable (json description) in
/-- The read arm keeps the read, or ends in the parser. -/
theorem readArm_cases {st : ReaderState} (hst : Incomplete st) {read : Bytes} (hne : read ≠ []) :
    (∃ st', Incomplete st' ∧ (readArm json description st read).1 = .running st' ∧
      toParse st read = []) ∨
    ∃ st' pairs, readArm json description st read =
      parseAndSend json description st' pairs (toParse st read) := by
  by_cases hping : read = ping
  · subst hping
    exact .inl ⟨st, hst, rfl, rfl⟩
  rw [toParse_eq hne hping]
  cases hneed : st.needMoreDataForPreviousHeader with
  | false => exact .inr ⟨st, [], readArm_fresh hneed hne hping⟩
  | true =>
    by_cases haction : st.remainingGdpHeader.action = .noop
    · rw [readArm_noop hneed haction hne hping, if_pos rfl, if_pos haction]
      split
      · exact .inl ⟨_, fun h => absurd h Bool.false_ne_true, rfl, rfl⟩
      · exact .inr ⟨_, _, rfl⟩
    · have hlt := hst hneed haction
      rw [readArm_pending hneed haction hlt hne hping, if_pos rfl, if_neg haction]
      split
      · next hshort =>
        refine .inl ⟨_, fun _ _ => ?_, rfl, List.drop_eq_nil_iff.2 (by omega)⟩
        rw [List.length_append]
        exact hshort
      · exact .inr ⟨_, _, rfl⟩

variable (json description) in
/-- **One read.**  In an incomplete state the read arm returns exactly if the bytes left to
parse are delimited. -/
theorem readArm_running_iff {st : ReaderState} (hst : Incomplete st) {read : Bytes}
    (hne : read ≠ []) :
    (∃ st', (readArm json description st read).1 = .running st') ↔
      Delimited json (toParse st read) := by
  rcases readArm_cases json description hst hne with
    ⟨st', -, hrun, hparse⟩ | ⟨st', pairs, hread⟩
  · rw [hparse]
    exact iff_of_true ⟨st', hrun⟩ delimited_nil
  · rw [hread, parseAndSend_running_iff]

theorem readArm_incomplete {st st' : ReaderState} (hst : Incomplete st) {read : Bytes}
    (hne : read ≠ []) (h : (readArm json description st read).1 = .running st') :
    Incomplete st' := by
  rcases readArm_cases json description hst hne with
    ⟨st₁, hst₁, hrun, -⟩ | ⟨st₁, pairs, hread⟩
  · rw [hrun] at h
    rwa [← Reader.running.inj h]
  · rw [hread] at h
    exact parseAndSend_incomplete h

/-! ## All reads -/

theorem final_stopped {r : Reader} (h : ∀ st, r ≠ .running st) (reads : List Bytes) :
    Mealy.final (Reader.step json description) r reads = r := by
  induction reads with
  | nil => rfl
  | cons read reads ih =>
    cases r with
    | running st => exact absurd rfl (h st)
    | closed => exact ih
    | panicked p => exact ih

theorem running_iff_delimited_from {st : ReaderState} (hst : Incomplete st) (reads : List Bytes)
    (hnonempty : ∀ read ∈ reads, read ≠ []) :
    (∃ st', Mealy.final (Reader.step json description) (.running st) reads = .running st') ↔
    ∀ v ∈ Mealy.trace (Reader.step json description) (.running st) reads,
      ∀ st', v.before = .running st' → Delimited json (toParse st' v.input) := by
  induction reads generalizing st with
  | nil => simp
  | cons read reads ih =>
    rw [List.forall_mem_cons] at hnonempty
    rw [Mealy.final_cons, Mealy.trace_cons, List.forall_mem_cons]
    have hone := readArm_running_iff json description hst hnonempty.1
    by_cases hrun : ∃ st', (readArm json description st read).1 = .running st'
    · obtain ⟨st₁, hst₁⟩ := hrun
      rw [Reader.step, hst₁, ih (readArm_incomplete hst hnonempty.1 hst₁) hnonempty.2]
      refine (and_iff_right ?_).symm
      rintro st' ⟨rfl⟩
      exact hone.1 ⟨st₁, hst₁⟩
    · refine iff_of_false ?_ fun h => hrun (hone.2 (h.1 st rfl))
      rintro ⟨st', hfinal⟩
      rw [Reader.step, final_stopped fun st₁ hst₁ => hrun ⟨st₁, hst₁⟩] at hfinal
      exact hrun ⟨st', hfinal⟩

variable (json description) in
/-- **Main result.**  On reads of any bytes the reader keeps running exactly if every read it
takes leaves delimited bytes to parse. -/
theorem running_iff_delimited (reads : List Bytes) (hnonempty : ∀ read ∈ reads, read ≠ []) :
    (∃ st, Mealy.final (Reader.step json description) (.running initialReader) reads =
      .running st) ↔
    ∀ v ∈ Mealy.trace (Reader.step json description) (.running initialReader) reads,
      ∀ st, v.before = .running st → Delimited json (toParse st v.input) :=
  running_iff_delimited_from (fun hneed => absurd hneed (by decide)) reads hnonempty

/-! ## Slices -/

/-- The branch of a read that goes past the end of a pending body. -/
def Overflows (st : ReaderState) (read : Bytes) : Prop :=
  read ≠ ping ∧ st.needMoreDataForPreviousHeader = true ∧ st.remainingGdpHeader.action ≠ .noop ∧
    st.remainingGdpHeader.length < st.remainingGdpPayload.length + read.length

variable (json description) in
/-- What a read relies on: `num_remaining` can be computed, is no more than the read, and both
slices of `receiving_buf` at it are taken. -/
structure InRange (st : ReaderState) (read : Bytes) : Prop where
  incomplete : Incomplete st
  subtraction : Overflows st read →
    st.remainingGdpPayload.length ≤ st.remainingGdpHeader.length
  slices : Overflows st read →
    st.remainingGdpHeader.length - st.remainingGdpPayload.length ≤ read.length
  parserPanics : ∀ p, (readArm json description st read).1 = .panicked p →
    p = .utf8Error ∨ p = .indexOutOfRange

theorem parseLoop_error {buffer : Bytes} {pairs : List HeaderPayload} {p : Panic}
    (h : parseLoop json buffer pairs = .error p) : p = .utf8Error ∨ p = .indexOutOfRange := by
  fun_induction parseLoop json buffer pairs with
  | case1 =>
    cases h
    exact .inl rfl
  | case2 => cases h
  | case3 =>
    cases h
    exact .inr rfl
  | case4 => cases h
  | case5 => cases h
  | case6 buffer pairs text htext header hheader remaining hsplit hlt heq ih => exact ih h

theorem parseAndSend_error {st : ReaderState} {pairs : List HeaderPayload} {buffer : Bytes}
    {p : Panic} (h : (parseAndSend json description st pairs buffer).1 = .panicked p) :
    p = .utf8Error ∨ p = .indexOutOfRange := by
  by_cases hne : buffer = []
  · subst hne
    cases h
  · rw [parseAndSend, parseHeaderPayloadPairs_of_ne json hne] at h
    split at h
    · next hparse =>
      cases h
      exact parseLoop_error hparse
    · cases h

theorem Incomplete.inRange {st : ReaderState} (hst : Incomplete st) (read : Bytes) :
    InRange json description st read := by
  refine ⟨hst, fun h => Nat.le_of_lt (hst h.2.1 h.2.2.1), fun h => ?_, fun p hp => ?_⟩
  · have hover := h.2.2.2
    omega
  · by_cases hne : read = []
    · subst hne
      cases hp
    · rcases readArm_cases json description hst hne with ⟨st', -, hrun, -⟩ | ⟨st', pairs, hread⟩
      · rw [hrun] at hp
        cases hp
      · rw [hread] at hp
        exact parseAndSend_error hp

/-- One step of the reader keeps the invariant, whatever is read. -/
theorem Reader.step_incomplete {r : Reader} (hr : ∀ st, r = .running st → Incomplete st)
    (read : Bytes) (st' : ReaderState) (h : (r.step json description read).1 = .running st') :
    Incomplete st' := by
  cases r with
  | running st =>
    by_cases hne : read = []
    · subst hne
      cases h
    · exact readArm_incomplete (hr st rfl) hne h
  | closed => cases h
  | panicked p => cases h

variable (json description) in
/-- **Main result.**  On any reads a pending body stays shorter than its header declares, and so
every read that goes past its end is cut in range. -/
theorem reads_inRange (reads : List Bytes) :
    (∀ st, Mealy.final (Reader.step json description) (.running initialReader) reads =
      .running st → Incomplete st) ∧
    ∀ v ∈ Mealy.trace (Reader.step json description) (.running initialReader) reads,
      ∀ st, v.before = .running st → InRange json description st v.input := by
  have hinitial : ∀ st, Reader.running initialReader = .running st → Incomplete st := by
    rintro st ⟨rfl⟩ hneed
    cases hneed
  have hstep : ∀ r read, (∀ st, r = .running st → Incomplete st) →
      ∀ st, (Reader.step json description r read).1 = .running st → Incomplete st :=
    fun r read hr => Reader.step_incomplete hr read
  refine ⟨Mealy.final_invariant hstep hinitial reads, fun v hv st hst => ?_⟩
  exact (Mealy.trace_invariant hstep hinitial reads v hv st hst).inRange v.input

theorem fromUtf8_invalid : fromUtf8 [0xff] = none := by decide

/-- A read of four bytes that are no header. -/
theorem running_sampleRead :
    ∃ st, Mealy.final (Reader.step headerJson none) (.running initialReader) [[0x7b, 0, 0, 0x78]] =
      .running st := by
  refine (running_iff_delimited headerJson none _ (by simp)).2 ?_
  simp only [Mealy.trace_cons, Mealy.trace_nil, List.forall_mem_singleton]
  rintro st ⟨rfl⟩
  have hparse : toParse initialReader [0x7b, 0, 0, 0x78] = [0x7b, 0, 0, 0x78] := rfl
  have hsplit : (splitNul [0x7b, 0, 0, 0x78]).1 = asBytes "\x7b" := rfl
  rw [hparse, delimited_iff (by simp), hsplit, fromUtf8_asBytes]
  refine ⟨_, rfl, fun header hheader => ?_⟩
  rw [show headerJson.fromStr "\x7b" = none by decide] at hheader
  cases hheader

/-- A lone byte that starts no UTF-8 character. -/
theorem invalid_utf8_panics :
    Mealy.final (Reader.step headerJson none) (.running initialReader) [[0xff]] =
      .panicked .utf8Error := by
  have hloop : parseLoop headerJson [0xff] [] = .error .utf8Error := by
    rw [parseLoop, show (splitNul [0xff]).1 = [0xff] from rfl, fromUtf8_invalid]
  rw [Mealy.final_cons, Mealy.final_nil, Reader.step, readArm_fresh rfl (by decide) (by decide),
    parseAndSend, parseHeaderPayloadPairs_of_ne headerJson (by decide), hloop]

end RtFogros.Kcp
