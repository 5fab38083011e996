import RtFogros.Kcp.Reassembly

/-!
# Headers that are split

A read that ends inside the JSON of a header leaves its piece pending under a Noop header, and the
next read is appended to it.  `reset_counter` counts these continuations over the whole life of the
connection; the sixth discards what is buffered.  A read that ends between the JSON and its NUL is
taken for a header without a body and panics.

`split_read_alike_iff`: so a frame that is cut inside its header is read in two reads as it is in
one, exactly if the cut is not that one.  What is used of `serde_json` is named in hypotheses: what
is written is read back, it is ASCII without a NUL and opens with a brace, and a text that breaks
off is refused.
-/

namespace RtFogros.Kcp

variable {json : SerdeJson GDPHeaderInTransit} {description : Option String}

/-! ## The parser on a stream that breaks off -/

abbrev headerText (json : SerdeJson GDPHeaderInTransit) (header : GDPHeaderInTransit) : Bytes :=
  asBytes (json.toString header)

theorem headerBlock_eq (header : GDPHeaderInTransit) :
    headerBlock json header = headerText json header ++ [0] := rfl

theorem splitNul_of_not_mem {piece : Bytes} (h : 0 ∉ piece) : splitNul piece = (piece, none) := by
  induction piece with
  | nil => rfl
  | cons b piece ih =>
    rw [List.mem_cons, not_or] at h
    rw [splitNul, if_neg (Ne.symm h.1), ih h.2]

section Pieces

variable (hround : json.RoundTrips) (hnul : json.NoNul) (hascii : json.WritesAscii)
  (htruncated : json.RejectsPrefix)

include hround hnul in
/-- Whole frames at the start of a buffer are accumulated. -/
theorem parseLoop_frames (done : List Frame) {tail : Bytes} (htail : tail ≠ [])
    (pairs : List HeaderPayload) :
    parseLoop json (encode json done ++ tail) pairs =
      parseLoop json tail (pairs ++ done.map Frame.pair) := by
  induction done generalizing pairs with
  | nil => simp
  | cons f done ih =>
    have hpos : 0 < tail.length := List.length_pos_iff.2 htail
    have hlength := f.length_eq
    rw [encode_cons, List.append_assoc, List.append_assoc, parseLoop_header hround hnul,
      if_neg (by simp only [List.length_append]; omega),
      if_neg (by simp only [List.length_append]; omega), ← hlength, List.drop_left, List.take_left,
      ih]
    simp [Frame.pair]

include hnul hascii htruncated in
/-- A piece of a header that lacks the end of its JSON is kept under a Noop header. -/
theorem parseLoop_piece {header : GDPHeaderInTransit} {piece missing : Bytes}
    (hmissing : missing ≠ []) (h : piece ++ missing = headerText json header)
    (pairs : List HeaderPayload) :
    parseLoop json piece pairs = .ok (pairs, some (defaultGdpHeader, piece)) := by
  have htext : 0 ∉ headerText json header ∧ Ascii (headerText json header) :=
    ⟨hnul header, hascii header⟩
  rw [← h] at htext
  have hpiece : 0 ∉ piece := fun hmem => htext.1 (List.mem_append_left _ hmem)
  have hread : Ascii piece := fun b hb => htext.2 b (List.mem_append_left _ hb)
  rw [parseLoop, splitNul_of_not_mem hpiece]
  simp only [fromUtf8_of_ascii hread, SerdeJson.fromStr_short hascii htruncated hmissing h]

include hround hnul in
/-- The JSON of a header without its NUL makes the parser index out of range. -/
theorem parseLoop_text (header : GDPHeaderInTransit) (pairs : List HeaderPayload) :
    parseLoop json (headerText json header) pairs = .error .indexOutOfRange := by
  rw [parseLoop, splitNul_of_not_mem (hnul header)]
  simp only [fromUtf8_asBytes, hround header]

end Pieces

/-! ## Reads that are no keepalive -/

theorem ne_ping_of_zero {read : Bytes} (h : 0 ∈ read) : read ≠ ping := by
  rintro rfl
  revert h
  decide

theorem ne_ping_of_brace {read : Bytes} (h : read.head? = some 0x7b) : read ≠ ping := by
  rintro rfl
  cases h

/-! ## One frame in two reads -/

/-- The header and the payload that wait for more data. -/
def ReaderState.pending (st : ReaderState) : Option HeaderPayload :=
  if st.needMoreDataForPreviousHeader then some (st.remainingGdpHeader, st.remainingGdpPayload)
  else none

variable (json description) in
/-- Both readings emit the same packets and end with the same pending header and payload. -/
structure ReadsAlike (st : ReaderState) (reads reads' : List Bytes) : Prop where
  emitted : emitted json description (.running st) reads =
    emitted json description (.running st) reads'
  pending : ∃ st₁ st₂,
    Mealy.final (Reader.step json description) (.running st) reads = .running st₁ ∧
    Mealy.final (Reader.step json description) (.running st) reads' = .running st₂ ∧
    st₁.pending = st₂.pending

section Split

variable (hround : json.RoundTrips) (hnul : json.NoNul)

include hround hnul in
theorem parseAndSend_frame (f : Frame) (st : ReaderState) :
    parseAndSend json description st [] (encodeFrame json f) =
      (.running (st.carry none), { rosTx := [packetOf description f.pair] }) := by
  have hne : encodeFrame json f ≠ [] := by
    simp [encodeFrame, headerBlock_ne_nil]
  have hloop := parseLoop_header hround hnul f.header f.body []
  rw [if_neg (by rw [f.length_eq]; omega), if_pos f.length_eq.symm] at hloop
  rw [parseAndSend, parseHeaderPayloadPairs_of_ne json hne, encodeFrame, hloop]
  rfl

include hround hnul in
/-- The read that brings the rest of a frame whose header was cut. -/
theorem readArm_rest {st : ReaderState} (hst : st.needMoreDataForPreviousHeader = true)
    (haction : st.remainingGdpHeader.action = .noop) {f : Frame} {missing : Bytes}
    (hzero : 0 ∈ missing) (h : st.remainingGdpPayload ++ missing = encodeFrame json f) :
    readArm json description st missing =
      if st.resetCounter + 1 > 5 then
        (.running (ReaderState.carry { st with resetCounter := 0 } none), {})
      else
        (.running (ReaderState.carry { st with resetCounter := st.resetCounter + 1 } none),
          { rosTx := [packetOf description f.pair] }) := by
  rw [readArm_noop hst haction (List.ne_nil_of_mem hzero) (ne_ping_of_zero hzero), h,
    parseAndSend_frame hround hnul]
  rfl

variable (hbrace : json.OpensBrace)

include hbrace in
theorem headerText_ne_nil (header : GDPHeaderInTransit) : headerText json header ≠ [] := by
  intro h
  have hhead := hbrace header
  rw [← headerText, h] at hhead
  cases hhead

include hbrace in
/-- The piece of a header is never taken for a keepalive. -/
theorem piece_ne_ping {header : GDPHeaderInTransit} {piece missing : Bytes} (hne : piece ≠ [])
    (h : piece ++ missing = headerText json header) : piece ≠ ping := by
  apply ne_ping_of_brace
  rw [← hbrace header, ← headerText, ← h, List.head?_append_of_ne_nil _ hne]

include hround hnul hbrace in
/-- A read that ends between the JSON and the NUL. -/
theorem readArm_text {st : ReaderState} (hclean : st.needMoreDataForPreviousHeader = false)
    (header : GDPHeaderInTransit) :
    readArm json description st (headerText json header) = (.panicked .indexOutOfRange, {}) := by
  have hne := headerText_ne_nil hbrace header
  rw [readArm_fresh hclean hne (piece_ne_ping hbrace hne (List.append_nil _)), parseAndSend,
    parseHeaderPayloadPairs_of_ne json hne, parseLoop_text hround hnul]

variable (hascii : json.WritesAscii) (htruncated : json.RejectsPrefix)

include hnul hascii htruncated hbrace in
/-- A read that ends inside the JSON. -/
theorem readArm_piece {st : ReaderState} (hclean : st.needMoreDataForPreviousHeader = false)
    {header : GDPHeaderInTransit} {piece missing : Bytes} (hne : piece ≠ [])
    (hmissing : missing ≠ []) (h : piece ++ missing = headerText json header) :
    readArm json description st piece =
      (.running (st.carry (some (defaultGdpHeader, piece))), {}) := by
  rw [readArm_fresh hclean hne (piece_ne_ping hbrace hne h), parseAndSend,
    parseHeaderPayloadPairs_of_ne json hne, parseLoop_piece hnul hascii htruncated hmissing h]
  rfl

include hround hnul hascii htruncated hbrace

variable (description) in
/-- A frame whose header is cut, between two other frames of the connection. -/
theorem reads_split {st : ReaderState} (hclean : st.needMoreDataForPreviousHeader = false)
    {f : Frame} {piece missing : Bytes} (hne : piece ≠ []) (hmissing : missing ≠ [])
    (h : piece ++ missing = headerText json f.header) :
    Mealy.final (Reader.step json description) (.running st) [piece, missing ++ 0 :: f.body] =
      .running { resetCounter := if st.resetCounter + 1 > 5 then 0 else st.resetCounter + 1 } ∧
    emitted json description (.running st) [piece, missing ++ 0 :: f.body] =
      if st.resetCounter + 1 > 5 then [] else [packetOf description f.pair] := by
  have hfirst : Reader.step json description (.running st) piece =
      (.running (st.carry (some (defaultGdpHeader, piece))), {}) :=
    readArm_piece hnul hbrace hascii htruncated hclean hne hmissing h
  have hjoin : piece ++ (missing ++ 0 :: f.body) = encodeFrame json f := by
    rw [← List.append_assoc, h, encodeFrame, headerBlock_eq, List.append_assoc]
    rfl
  have hsecond : Reader.step json description (.running (st.carry (some (defaultGdpHeader, piece))))
      (missing ++ 0 :: f.body) =
        if st.resetCounter + 1 > 5 then (.running {}, {})
        else (.running { resetCounter := st.resetCounter + 1 },
          { rosTx := [packetOf description f.pair] }) :=
    readArm_rest hround hnul rfl rfl (List.mem_append_right missing List.mem_cons_self) hjoin
  by_cases hreset : st.resetCounter + 1 > 5
  · rw [if_pos hreset] at hsecond
    simp [hfirst, hsecond, hreset]
  · rw [if_neg hreset] at hsecond
    simp [hfirst, hsecond, hreset]

variable (description) in
/-- **Main result.**  A frame that is cut inside its header, NUL included, is read in two
reads as it is in one, exactly if the cut does not lie between the JSON and the NUL. -/
theorem split_read_alike_iff (f : Frame) {st : ReaderState}
    (hclean : st.needMoreDataForPreviousHeader = false) (hcounter : st.resetCounter = 0)
    {c : Nat} (hpos : 0 < c) (hlt : c < (headerBlock json f.header).length) :
    ReadsAlike json description st [(encodeFrame json f).take c, (encodeFrame json f).drop c]
        [encodeFrame json f] ↔
      c ≠ (headerText json f.header).length := by
  rw [headerBlock_eq, List.length_append, List.length_singleton] at hlt
  have htext : encodeFrame json f = headerText json f.header ++ 0 :: f.body := by
    rw [encodeFrame, headerBlock_eq, List.append_assoc]
    rfl
  have htake : (encodeFrame json f).take c = (headerText json f.header).take c := by
    rw [htext, List.take_append_of_le_length (by omega)]
  have hdrop : (encodeFrame json f).drop c = (headerText json f.header).drop c ++ 0 :: f.body := by
    rw [htext, List.drop_append_of_le_length (by omega)]
  rw [htake, hdrop]
  constructor
  · rintro ⟨-, st₁, st₂, hfinal, -, -⟩ rfl
    rw [List.take_length, Mealy.final_cons, Reader.step,
      readArm_text hround hnul hbrace hclean] at hfinal
    cases hfinal
  · intro hne
    have hzero : 0 ∈ encodeFrame json f := by simp [htext]
    have hone : Reader.step json description (.running st) (encodeFrame json f) =
        (.running (st.carry none), { rosTx := [packetOf description f.pair] }) := by
      rw [Reader.step, readArm_fresh hclean (List.ne_nil_of_mem hzero) (ne_ping_of_zero hzero),
        parseAndSend_frame hround hnul]
    have hpiece : (headerText json f.header).take c ≠ [] := by
      rw [ne_eq, List.take_eq_nil_iff]
      rintro (h | h)
      · omega
      · exact headerText_ne_nil hbrace f.header h
    have hmissing : (headerText json f.header).drop c ≠ [] := by
      rw [ne_eq, List.drop_eq_nil_iff]
      omega
    obtain ⟨hfinal, hemitted⟩ := reads_split description hround hnul hbrace hascii htruncated
      hclean hpiece hmissing (List.take_append_drop ..)
    rw [if_neg (by omega)] at hfinal hemitted
    refine ⟨by rw [hemitted, emitted_cons, hone]; rfl, _, st.carry none, hfinal, ?_, rfl⟩
    rw [Mealy.final_cons, hone, Mealy.final_nil]

end Split

theorem headerJson_writesAscii : headerJson.WritesAscii :=
  SerdeJson.ofCodec_writesAscii over_headerCodec

theorem headerJson_rejectsPrefix : headerJson.RejectsPrefix := SerdeJson.ofCodec_rejectsPrefix _

theorem length_headerText (header : GDPHeaderInTransit) :
    (headerText headerJson header).length = (headerCodec.print header).length := by
  rw [headerText, headerJson, SerdeJson.ofCodec, asBytes_ofList fun c hc =>
    (over_headerCodec header c hc).2, List.length_map]

theorem split_read_sampleFrame :
    ReadsAlike headerJson none initialReader
      [(encodeFrame headerJson sampleFrame).take 1, (encodeFrame headerJson sampleFrame).drop 1]
      [encodeFrame headerJson sampleFrame] := by
  refine (split_read_alike_iff none headerJson_roundTrips headerJson_noNul headerJson_opensBrace
    headerJson_writesAscii headerJson_rejectsPrefix sampleFrame rfl rfl Nat.one_pos ?_).2 ?_
  · rw [headerBlock_eq, List.length_append, length_headerText]
    decide
  · rw [length_headerText]
    decide

/-- The first read ends between the JSON and the NUL: the reader panics. -/
theorem split_before_nul_panics :
    Mealy.final (Reader.step headerJson none) (.running initialReader)
        [headerText headerJson sampleFrame.header, 0 :: sampleFrame.body] =
      .panicked .indexOutOfRange ∧
    ¬ ReadsAlike headerJson none initialReader
      [headerText headerJson sampleFrame.header, 0 :: sampleFrame.body]
      [encodeFrame headerJson sampleFrame] := by
  have hfirst : Reader.step headerJson none (.running initialReader)
      (headerText headerJson sampleFrame.header) = (.panicked .indexOutOfRange, {}) :=
    readArm_text headerJson_roundTrips headerJson_noNul headerJson_opensBrace rfl _
  refine ⟨by rw [Mealy.final_cons, hfirst]; rfl, ?_⟩
  rintro ⟨-, st₁, st₂, hfinal, -, -⟩
  rw [Mealy.final_cons, hfirst] at hfinal
  cases hfinal

end RtFogros.Kcp
