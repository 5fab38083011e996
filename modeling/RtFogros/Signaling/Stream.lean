import RtFogros.Signaling.Json

/-!
# Entries on an undelimited stream

A signaling loop takes every read for one entry.  It decodes the entries sent exactly if the reads
are the server's writes (`decodes_iff_reads_eq_writes`).

The texts of entries are self-delimiting as texts, but the loop does not use that: a read that is a
part of one, or more than one, fails to parse and the loop panics.  The proof goes along the reads,
each of which is the next write or is refused by the strict reader.
-/

namespace RtFogros.Signaling

variable {Addr Tx : Type} {json : SerdeJson (CandidateStruct Addr)}
  {actions : CandidateStruct Addr → List (Action Addr Tx)}

/-! ## One read -/

theorem response_ne_nil (hjson : json.Strict) (msg : CandidateStruct Addr) :
    response json msg ≠ [] := by
  intro h
  have hbrace := hjson.opensBrace msg
  unfold response at h
  rw [h] at hbrace
  cases hbrace

variable (actions) in
theorem step_response (hjson : json.Strict) (msg : CandidateStruct Addr) :
    Client.step json actions .running (response json msg) = (.running, [(msg, actions msg)]) := by
  have hlength := List.length_eq_zero_iff.not.2 (response_ne_nil hjson msg)
  have hstr := hjson.roundTrips msg
  rw [← fromUtf8Lossy_asBytes (hjson.writesAscii msg)] at hstr
  rw [Client.step, if_neg hlength, response, hstr]

/-- A read that goes on into the next entry is refused. -/
theorem fromStr_long (hjson : json.Strict) (msg : CandidateStruct Addr) {more : Bytes}
    (hascii : Ascii more) (hbrace : more.head? = some 0x7b) :
    json.fromStr (fromUtf8Lossy (response json msg ++ more)) = none := by
  obtain ⟨tail, rfl⟩ := List.head?_eq_some_iff.1 hbrace
  have htail := asBytes_fromUtf8Lossy (List.forall_mem_cons.1 hascii).2
  have hread : fromUtf8Lossy (response json msg ++ 0x7b :: tail) =
      json.toString msg ++ ("\x7b" ++ fromUtf8Lossy tail) := by
    apply asBytes_injective
    rw [asBytes_fromUtf8Lossy, asBytes_append, asBytes_append, htail]
    · rfl
    · intro b hb
      rcases List.mem_append.1 hb with hb | hb
      · exact hjson.writesAscii msg b hb
      · exact hascii b hb
  rw [hread]
  exact hjson.rejectsTrailing msg _

/-! ## All reads -/

theorem final_stopped (client : Client) (h : client ≠ .running) (reads : List Bytes) :
    Mealy.final (Client.step json actions) client reads = client := by
  induction reads with
  | nil => rfl
  | cons read reads ih =>
    have hstep : Client.step json actions client read = (client, []) := by
      cases client with
      | running => exact absurd rfl h
      | closed => rfl
      | panicked => rfl
    rw [Mealy.final_cons, hstep]
    exact ih

theorem DecodesExactly.first {read : Bytes} {reads : List Bytes}
    {msgs : List (CandidateStruct Addr)}
    (h : DecodesExactly (Client.step json actions) (read :: reads) msgs) :
    ∃ msg rest, json.fromStr (fromUtf8Lossy read) = some msg ∧ msgs = msg :: rest ∧
      DecodesExactly (Client.step json actions) reads rest := by
  obtain ⟨hdecoded, hrunning⟩ := h
  rw [Mealy.outputs_cons, Client.step] at hdecoded
  rw [Mealy.final_cons, Client.step] at hrunning
  split at hrunning
  · cases (final_stopped .closed nofun reads).symm.trans hrunning
  · rename_i hlength
    rw [if_neg hlength] at hdecoded
    cases hstr : json.fromStr (fromUtf8Lossy read) with
    | none =>
      rw [hstr] at hrunning
      cases (final_stopped .panicked nofun reads).symm.trans hrunning
    | some msg =>
      rw [hstr] at hrunning hdecoded
      exact ⟨msg, _, rfl, hdecoded.symm, ⟨rfl, hrunning⟩⟩

theorem decodes_of_writes (hjson : json.Strict) (msgs : List (CandidateStruct Addr)) :
    DecodesExactly (Client.step json actions) (msgs.map (response json)) msgs := by
  induction msgs with
  | nil => exact ⟨rfl, rfl⟩
  | cons msg msgs ih =>
    have hstep := step_response actions hjson msg
    constructor
    · rw [List.map_cons, Mealy.outputs_cons, hstep, List.flatten_cons, List.map_append, ih.decoded]
      rfl
    · rw [List.map_cons, Mealy.final_cons, hstep]
      exact ih.running

theorem ascii_stream (hjson : json.Strict) (msgs : List (CandidateStruct Addr)) :
    Ascii (msgs.map (response json)).flatten := by
  intro b hb
  obtain ⟨text, htext, hb⟩ := List.mem_flatten.1 hb
  obtain ⟨msg, -, rfl⟩ := List.mem_map.1 htext
  exact hjson.writesAscii msg b hb

theorem head?_stream (hjson : json.Strict) (msgs : List (CandidateStruct Addr))
    (hne : (msgs.map (response json)).flatten ≠ []) :
    (msgs.map (response json)).flatten.head? = some 0x7b := by
  cases msgs with
  | nil => exact absurd rfl hne
  | cons msg msgs =>
    rw [List.map_cons, List.flatten_cons, List.head?_append, response, hjson.opensBrace msg]
    rfl

theorem writes_of_decodes (hjson : json.Strict) {reads : List Bytes}
    {msgs : List (CandidateStruct Addr)}
    (hstream : reads.flatten = (msgs.map (response json)).flatten)
    (hdecodes : DecodesExactly (Client.step json actions) reads msgs) :
    reads = msgs.map (response json) := by
  induction reads generalizing msgs with
  | nil =>
    rw [← hdecodes.decoded]
    rfl
  | cons read reads ih =>
    obtain ⟨msg, rest, hstr, rfl, hrest⟩ := hdecodes.first
    rw [List.flatten_cons, List.map_cons, List.flatten_cons] at hstream
    have hread : read = response json msg := by
      rcases List.append_eq_append_iff.1 hstream with ⟨missing, hresponse, -⟩ | ⟨more, rfl, hmore⟩
      · by_cases hmissing : missing = []
        · rw [hresponse, hmissing, List.append_nil]
        · rw [SerdeJson.fromStr_short hjson.writesAscii hjson.rejectsPrefix hmissing
            hresponse.symm] at hstr
          cases hstr
      · by_cases hnil : more = []
        · rw [hnil, List.append_nil]
        · have hascii := ascii_stream hjson rest
          have hhead := head?_stream hjson rest (by simp [hmore, hnil])
          rw [hmore] at hascii hhead
          rw [List.head?_append_of_ne_nil _ hnil] at hhead
          have hmoreAscii : Ascii more := fun b hb => hascii b (List.mem_append_left _ hb)
          rw [fromStr_long hjson msg hmoreAscii hhead] at hstr
          cases hstr
    subst hread
    rw [List.map_cons, ih (List.append_cancel_left hstream) hrest]

/-- **Main result.**  Of every stream that a subscriber is sent and every way it is cut
into reads, each of the two loops decodes exactly the entries sent, and goes on, if and
only if every read is one entry. -/
theorem decodes_iff_reads_eq_writes (hjson : json.Strict)
    (log : List (CandidateStruct Addr × Instant)) (received : List (Option (CandidateStruct Addr)))
    {reads : List Bytes} (hreads : TcpReads (subscribe json log received).flatten reads)
    (topicGdpName : GDPName) (connectionType : FibConnectionType)
    (candidateInterfaces : List String) (addressText : Addr → String)
    (description : Addr → String → String) (localToNetTx : Addr → String → Tx) :
    (DecodesExactly (registerStreamSender Tx json candidateInterfaces) reads
        (sent log received) ↔ reads = subscribe json log received) ∧
      (DecodesExactly (registerStreamReceiver json topicGdpName connectionType candidateInterfaces
        addressText description localToNetTx) reads (sent log received) ↔
        reads = subscribe json log received) := by
  have hstream := hreads.flatten
  rw [subscribe_eq] at hstream ⊢
  have hloop : ∀ actions : CandidateStruct Addr → List (Action Addr Tx),
      DecodesExactly (Client.step json actions) reads (sent log received) ↔
        reads = (sent log received).map (response json) := by
    intro actions
    refine ⟨writes_of_decodes hjson hstream, fun h => ?_⟩
    rw [h]
    exact decodes_of_writes hjson _
  exact ⟨hloop _, hloop _⟩

def firstClient : CandidateStruct SocketAddrV4 :=
  ⟨⟨#v[21, 22, 23, 24]⟩, [⟨#v[10, 0, 0, 1], 4000⟩]⟩

def secondClient : CandidateStruct SocketAddrV4 :=
  ⟨⟨#v[31, 32, 33, 34]⟩, [⟨#v[10, 0, 0, 2], 4001⟩]⟩

def bothEntries : Bytes := response candidateJson firstClient ++ response candidateJson secondClient

theorem bothEntries_length : bothEntries.length ≤ 1024 := by
  have hlength : ∀ msg,
      (response candidateJson msg).length = (candidateCodec.print msg).length := by
    intro msg
    unfold response
    rw [candidateJson, SerdeJson.ofCodec,
      asBytes_ofList fun c hc => (over_candidateCodec msg c hc).2, List.length_map]
  unfold bothEntries
  rw [List.length_append, hlength, hlength]
  decide

theorem decodes_separate_entries :
    (DecodesExactly (registerStreamSender Unit candidateJson ["eth0"])
        [response candidateJson firstClient, response candidateJson secondClient]
        (sent [(firstClient, 0)] [some secondClient]) ↔
      [response candidateJson firstClient, response candidateJson secondClient] =
        subscribe candidateJson [(firstClient, 0)] [some secondClient]) ∧
    (DecodesExactly (registerStreamReceiver candidateJson ⟨#v[0, 0, 0, 1]⟩ .sender ["eth0"]
          (fun _ => "") (fun _ _ => "") fun _ _ => ())
        [response candidateJson firstClient, response candidateJson secondClient]
        (sent [(firstClient, 0)] [some secondClient]) ↔
      [response candidateJson firstClient, response candidateJson secondClient] =
        subscribe candidateJson [(firstClient, 0)] [some secondClient]) := by
  have hreads : TcpReads
      (subscribe candidateJson [(firstClient, 0)] [some secondClient]).flatten
      [response candidateJson firstClient, response candidateJson secondClient] := by
    refine ⟨rfl, ?_⟩
    have hlength := bothEntries_length
    unfold bothEntries at hlength
    rw [List.length_append] at hlength
    have hfirst := List.length_pos_iff.2 (response_ne_nil candidateJson_strict firstClient)
    have hsecond := List.length_pos_iff.2 (response_ne_nil candidateJson_strict secondClient)
    simp only [List.forall_mem_cons, List.not_mem_nil, false_implies, implies_true, and_true]
    omega
  exact decodes_iff_reads_eq_writes candidateJson_strict _ _ hreads _ _ _ _ _ _

/-- Two entries of the log that one read returns abort both loops. -/
theorem coalesced_entries_panic :
    TcpReads (subscribe candidateJson [(firstClient, 0), (secondClient, 0)] []).flatten
        [bothEntries] ∧
      ¬ DecodesExactly (registerStreamSender Unit candidateJson ["eth0"]) [bothEntries]
        (sent [(firstClient, 0), (secondClient, 0)] []) ∧
      ¬ DecodesExactly (registerStreamReceiver candidateJson ⟨#v[0, 0, 0, 1]⟩ .sender ["eth0"]
          (fun _ => "") (fun _ _ => "") fun _ _ => ()) [bothEntries]
        (sent [(firstClient, 0), (secondClient, 0)] []) := by
  have hpos := List.length_pos_iff.2 (response_ne_nil candidateJson_strict firstClient)
  have hrefused : candidateJson.fromStr (fromUtf8Lossy bothEntries) = none :=
    fromStr_long candidateJson_strict firstClient (candidateJson_strict.writesAscii secondClient)
      (candidateJson_strict.opensBrace secondClient)
  have hpanics : ∀ actions : CandidateStruct SocketAddrV4 → List (Action SocketAddrV4 Unit),
      ¬ DecodesExactly (Client.step candidateJson actions) [bothEntries]
        (sent [(firstClient, 0), (secondClient, 0)] []) := by
    intro actions h
    obtain ⟨msg, rest, hstr, -, -⟩ := h.first
    rw [hrefused] at hstr
    cases hstr
  refine ⟨⟨by simp [subscribe, bothEntries], ?_⟩, hpanics _, hpanics _⟩
  intro read hread
  rw [List.mem_singleton.1 hread]
  refine ⟨?_, bothEntries_length⟩
  unfold bothEntries
  rw [List.length_append]
  omega

end RtFogros.Signaling
