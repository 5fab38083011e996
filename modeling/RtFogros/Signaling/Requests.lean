import RtFogros.Signaling.MessageJson
import Mathlib.Data.List.DropRight

/-!
# The one read of a request

`Server::handle_client` reads once, into a buffer of 1024 zeros, and takes what it got for the
whole request.  `handleClient_iff`: the command of a message is performed exactly if that read
returns all of it.

The buffer is decoded lossily and trimmed of zeros, so a read that breaks off inside a character
gives a text that ends with U+FFFD; that neither it nor a shorter text is read as the message is
what is assumed of `serde_json` in `MessageJson`.
-/

namespace RtFogros.Signaling

variable {Addr : Type} {json : SerdeJson (Message Addr)}

/-! ## `handle_client` up to the match on the command -/

/-- `buffer` after a read. -/
def buffered (read : Bytes) : Bytes := read ++ List.replicate (1024 - read.length) 0

def trimMatches (s : String) (pat : Char) : String :=
  .ofList ((s.toList.dropWhile (· = pat)).rdropWhile (· = pat))

/-- What the task of a client does first: the event of a request that it parsed, or nothing
if it returns.  A stream that ends before any byte reads as no bytes. -/
def handleClient (json : SerdeJson (Message Addr)) (reads : List Bytes) : List (Event Addr) :=
  let request := trimMatches (fromUtf8Lossy (buffered (reads.headD []))) '\x00'
  if request = "" then []
  else
    match json.fromStr request with
    | none => []
    | some message => [.connect message]

/-- The bytes that a client writes for its request. -/
def request (json : SerdeJson (Message Addr)) (msg : Message Addr) : Bytes :=
  asBytes (json.toString msg)

/-! ## The text of a read -/

theorem rdropWhile_padded {cs : List Char} {pat : Char} (h : pat ∉ cs) (n : Nat) :
    (cs ++ List.replicate n pat).rdropWhile (· = pat) = cs := by
  induction n with
  | zero =>
    rw [List.replicate_zero, List.append_nil, List.rdropWhile_eq_self_iff]
    intro hne hlast
    exact h (of_decide_eq_true hlast ▸ List.getLast_mem hne)
  | succ n ih =>
    rw [List.replicate_succ', ← List.append_assoc,
      List.rdropWhile_concat_pos (fun c => decide (c = pat)) _ pat (decide_eq_true rfl), ih]

/-- The zeros after a text are trimmed away. -/
theorem trimMatches_padded {cs : List Char} {pat : Char} (h : pat ∉ cs) (n : Nat) :
    trimMatches (.ofList (cs ++ List.replicate n pat)) pat = .ofList cs := by
  unfold trimMatches
  rw [String.toList_ofList]
  cases cs with
  | nil => rw [List.nil_append, List.dropWhile_replicate_eq_filter_not]; simp
  | cons c cs =>
    have hc : ¬ decide (c = pat) = true := by
      intro heq
      exact h (of_decide_eq_true heq ▸ List.mem_cons_self)
    rw [List.cons_append, List.dropWhile_cons_of_neg (p := fun c => decide (c = pat)) hc,
      ← List.cons_append, rdropWhile_padded h]

theorem nul_not_mem (hnul : json.NoNul) (msg : Message Addr) :
    '\x00' ∉ (json.toString msg).toList := by
  intro hmem
  apply hnul msg
  rw [asBytes_eq_flatMap]
  exact List.mem_flatMap.2 ⟨'\x00', hmem, by decide⟩

/-- The beginning of a request is read as whole characters, with U+FFFD after them if it ends
inside of one. -/
theorem requestText_of_prefix (hnul : json.NoNul) {msg : Message Addr} {read missing : Bytes}
    (h : read ++ missing = request json msg) :
    ∃ before after, (json.toString msg).toList = before ++ after ∧
      (read = before.flatMap String.utf8EncodeChar ∧
          trimMatches (fromUtf8Lossy (buffered read)) '\x00' = .ofList before ∨
        trimMatches (fromUtf8Lossy (buffered read)) '\x00' =
          .ofList (before ++ ['\uFFFD'])) := by
  have hfree := nul_not_mem hnul msg
  rw [request, asBytes_eq_flatMap] at h
  obtain ⟨before, after, htext, hread⟩ := Utf8.encoded_prefix h
  rw [htext, List.mem_append, not_or] at hfree
  refine ⟨before, after, htext, ?_⟩
  unfold fromUtf8Lossy buffered
  rcases hread with rfl | ⟨c, rest, cut, missed, -, hcut, hmissed, hchar, rfl⟩
  · left
    rw [Utf8.decodeLossy_encoded, Utf8.decodeLossy_zeros, trimMatches_padded hfree.1]
    exact ⟨rfl, rfl⟩
  · right
    rw [List.append_assoc, Utf8.decodeLossy_encoded, Utf8.decodeLossy_cut hcut hmissed hchar,
      List.append_cons, trimMatches_padded]
    rw [List.mem_append, not_or]
    exact ⟨hfree.1, by decide⟩

/-! ## Whole requests and parts of them -/

theorem handleClient_eq (json : SerdeJson (Message Addr)) (read : Bytes) (reads : List Bytes) :
    handleClient json (read :: reads) =
      if trimMatches (fromUtf8Lossy (buffered read)) '\x00' = "" then []
      else
        match json.fromStr (trimMatches (fromUtf8Lossy (buffered read)) '\x00') with
        | none => []
        | some message => [.connect message] := rfl

theorem request_ne_nil (hjson : ReadsRequests json) (msg : Message Addr) :
    request json msg ≠ [] := by
  intro hnil
  have hempty : json.toString msg = "" := asBytes_injective hnil
  obtain ⟨c, -, hlast⟩ := hjson.endsClosed (json.toString msg) msg (hjson.roundTrips msg)
  rw [hempty] at hlast
  cases hlast

/-- A request that is read as a whole is served. -/
theorem handleClient_whole (hjson : ReadsRequests json) (msg : Message Addr)
    (reads : List Bytes) : handleClient json (request json msg :: reads) = [.connect msg] := by
  have hne : json.toString msg ≠ "" := fun hempty =>
    request_ne_nil hjson msg (congrArg asBytes hempty)
  have hrequest :
      trimMatches (fromUtf8Lossy (buffered (request json msg))) '\x00' = json.toString msg := by
    have hencoded : buffered (request json msg) =
        (json.toString msg).toList.flatMap String.utf8EncodeChar ++
          List.replicate (1024 - (request json msg).length) 0 := by
      rw [buffered, request, ← asBytes_eq_flatMap]
    rw [hencoded, fromUtf8Lossy, Utf8.decodeLossy_encoded, Utf8.decodeLossy_zeros,
      trimMatches_padded (nul_not_mem hjson.noNul msg), String.ofList_toList]
  rw [handleClient_eq, hrequest, if_neg hne, hjson.roundTrips]

/-- A request that is read in part is not. -/
theorem handleClient_part (hjson : ReadsRequests json) {msg : Message Addr}
    {read missing : Bytes} (h : read ++ missing = request json msg) (hmissing : missing ≠ [])
    (reads : List Bytes) : handleClient json (read :: reads) = [] := by
  rw [handleClient_eq]
  split
  · rfl
  · obtain ⟨before, after, htext, ⟨hread, hrequest⟩ | hrequest⟩ :=
      requestText_of_prefix hjson.noNul h
    · have hrefused : json.fromStr (.ofList before) = none := by
        refine hjson.rejectsPrefix msg _ (.ofList after) (fun hempty => hmissing ?_) ?_
        · have hafter : after = [] := by
            rw [← String.toList_ofList (l := after), hempty]
            rfl
          rw [request, asBytes_eq_flatMap, htext, hafter, List.append_nil, ← hread] at h
          exact List.append_right_eq_self.1 h
        · rw [← String.ofList_append, ← htext, String.ofList_toList]
      rw [hrequest, hrefused]
    · -- the last character is U+FFFD, which closes no JSON text
      have hrefused : json.fromStr (.ofList (before ++ ['\uFFFD'])) = none := by
        cases hread : json.fromStr (.ofList (before ++ ['\uFFFD'])) with
        | none => rfl
        | some message =>
          obtain ⟨c, hc, hlast⟩ := hjson.endsClosed _ _ hread
          rw [String.toList_ofList, List.getLast?_concat] at hlast
          obtain rfl := Option.some.inj hlast
          exact absurd hc (by decide)
      rw [hrequest, hrefused]

/-- **Main result.**  However the bytes of a message are cut into reads, its command is
performed if and only if they come in one read, as only 1024 bytes or less can. -/
theorem handleClient_iff (hjson : ReadsRequests json) (msg : Message Addr) {reads : List Bytes}
    (hreads : TcpReads (request json msg) reads) :
    handleClient json reads = [.connect msg] ↔ reads = [request json msg] := by
  obtain ⟨read, rest, rfl⟩ : ∃ read rest, reads = read :: rest := by
    cases reads with
    | nil => exact absurd hreads.flatten.symm (request_ne_nil hjson msg)
    | cons read rest => exact ⟨read, rest, rfl⟩
  have hstream : read ++ rest.flatten = request json msg := hreads.flatten
  constructor
  · intro hserved
    by_cases hrest : rest.flatten = []
    · have hnil : rest = [] := by
        cases rest with
        | nil => rfl
        | cons next rest =>
          have hsize := (hreads.size next (by simp)).1
          rw [List.flatten_cons, List.append_eq_nil_iff] at hrest
          rw [hrest.1] at hsize
          exact absurd hsize (by decide)
      rw [hnil, ← hstream, hrest, List.append_nil]
    · rw [handleClient_part hjson hstream hrest] at hserved
      cases hserved
  · intro hone
    rw [hone]
    exact handleClient_whole hjson msg []

/-! ## Two requests -/

def shortRequest : Message SocketAddrV4 := ⟨"SUBSCRIBE", "/chatter-pub", none⟩

/-- A host with sixty interfaces publishes its addresses. -/
def longRequest : Message SocketAddrV4 :=
  ⟨"PUBLISH", "/chatter-sub",
    some ⟨⟨#v[61, 62, 63, 64]⟩, List.replicate 60 ⟨#v[192, 168, 100, 100], 40000⟩⟩⟩

theorem request_length {msg : Message SocketAddrV4}
    (hascii : (messageCodec.print msg).all fun c => c.toNat < 0x80) :
    (request messageJson msg).length = (messageCodec.print msg).length := by
  unfold request messageJson SerdeJson.ofCodec
  rw [asBytes_ofList (List.all_iff_forall_prop.1 hascii), List.length_map]

theorem shortRequest_reads : TcpReads (request messageJson shortRequest)
    [request messageJson shortRequest] := by
  refine ⟨List.flatten_singleton, ?_⟩
  intro read hread
  rw [List.mem_singleton.1 hread, request_length (by decide +kernel)]
  decide +kernel

theorem shortRequest_served :
    handleClient messageJson [request messageJson shortRequest] = [.connect shortRequest] ↔
      [request messageJson shortRequest] = [request messageJson shortRequest] :=
  handleClient_iff messageJson_readsRequests shortRequest shortRequest_reads

/-- Two reads of a message are one too many. -/
theorem cut_dropped (hjson : ReadsRequests json) {msg : Message Addr} {n : Nat} (hpos : 0 < n)
    (hsize : n ≤ 1024) (hlong : n < (request json msg).length)
    (hrest : (request json msg).length ≤ n + 1024) :
    ∃ reads, TcpReads (request json msg) reads ∧ handleClient json reads = [] := by
  refine ⟨[(request json msg).take n, (request json msg).drop n], ⟨?_, ?_⟩, ?_⟩
  · simp
  · simp only [List.forall_mem_cons, List.length_take, List.length_drop]
    refine ⟨by omega, by omega, List.forall_mem_nil _⟩
  · refine handleClient_part hjson (List.take_append_drop n _) ?_ _
    exact List.ne_nil_of_length_pos (by rw [List.length_drop]; omega)

/-- The long request does not fit the buffer and is dropped, and so is the short one if only
its first byte is there when the server reads. -/
theorem requests_dropped :
    (∃ reads, TcpReads (request messageJson longRequest) reads ∧
      handleClient messageJson reads = []) ∧
      ∃ reads, TcpReads (request messageJson shortRequest) reads ∧
        handleClient messageJson reads = [] := by
  have hlong : 1024 < (messageCodec.print longRequest).length ∧
      (messageCodec.print longRequest).length ≤ 2048 := by decide +kernel
  have hshort : 1 < (messageCodec.print shortRequest).length ∧
      (messageCodec.print shortRequest).length ≤ 1025 := by decide +kernel
  rw [← request_length (by decide +kernel)] at hlong hshort
  constructor
  · exact cut_dropped messageJson_readsRequests (n := 1024) (by decide) (by decide) hlong.1 hlong.2
  · exact cut_dropped messageJson_readsRequests (n := 1) (by decide) (by decide) hshort.1 hshort.2

end RtFogros.Signaling
