import RtFogros.Signaling.Json
import RtFogros.Signaling.Server

/-!
# The JSON of a request

What is assumed of `serde_json` on a `Message`, and a `SerdeJson` that has it.  A message holds
texts of its client, so its JSON is not ASCII, and a buffer that cuts it may cut a character.

`ReadsRequests` asks that what was written is read back and holds no NUL, that a text that breaks
off is refused, and that what is read as a struct ends with a bracket or white space after it,
which no replacement character is.
-/

namespace RtFogros.Signaling

variable {Addr : Type}

/-- What is read as a struct ends with the bracket of an object or an array, or with white
space after it. -/
def EndsClosed (json : SerdeJson (Message Addr)) : Prop :=
  ∀ s msg, json.fromStr s = some msg → ∃ c ∈ "\x7d] \t\n\r".toList, s.toList.getLast? = some c

structure ReadsRequests (json : SerdeJson (Message Addr)) : Prop where
  roundTrips : json.RoundTrips
  noNul : json.NoNul
  rejectsPrefix : json.RejectsPrefix
  endsClosed : EndsClosed json

/-! ## Texts with escapes -/

/-- The character has to be escaped in a JSON string. -/
def Special (c : Char) : Prop := c = '"' ∨ c = '\\' ∨ c.toNat < 0x20

instance (c : Char) : Decidable (Special c) := inferInstanceAs (Decidable (_ ∨ _))

def hexDigits : List Char := "0123456789abcdef".toList

def hexValue (c : Char) : Nat := hexDigits.idxOf c

def escapeChar (c : Char) : List Char :=
  if Special c then
    ['\\', 'u', '0', '0', Nat.digitChar (c.toNat / 16), Nat.digitChar (c.toNat % 16)]
  else [c]

def escape (s : String) : List Char := s.toList.flatMap escapeChar

def unescape : List Char → List Char
  | '\\' :: 'u' :: '0' :: '0' :: a :: b :: rest =>
    .ofNat (hexValue a * 16 + hexValue b) :: unescape rest
  | c :: rest => c :: unescape rest
  | [] => []

theorem hexValue_digitChar {n : Nat} (h : n < 16) : hexValue (Nat.digitChar n) = n := by
  have hall : ∀ n < 16, hexValue (Nat.digitChar n) = n := by decide
  exact hall n h

theorem toNat_of_special {c : Char} (h : Special c) : c.toNat < 0x60 := by
  rcases h with rfl | rfl | h
  · decide
  · decide
  · omega

theorem unescape_escapeChar (c : Char) (rest : List Char) :
    unescape (escapeChar c ++ rest) = c :: unescape rest := by
  unfold escapeChar
  split
  · next h =>
    have hlt := toNat_of_special h
    have hvalue : hexValue (Nat.digitChar (c.toNat / 16)) * 16 +
        hexValue (Nat.digitChar (c.toNat % 16)) = c.toNat := by
      rw [hexValue_digitChar (by omega), hexValue_digitChar (by omega)]
      omega
    simp only [List.cons_append, List.nil_append, unescape]
    rw [hvalue, Char.ofNat_toNat]
  · next h =>
    have hplain : c ≠ '\\' := fun hc => h (.inr (.inl hc))
    rw [List.singleton_append]
    exact unescape.eq_2 c rest (fun _ _ _ hc _ => hplain hc)

theorem unescape_escape (s : String) : unescape (escape s) = s.toList := by
  unfold escape
  induction s.toList with
  | nil => rfl
  | cons c cs ih => rw [List.flatMap_cons, unescape_escapeChar, ih]

/-- Escapes are printable, and the other characters are no controls. -/
theorem escape_over {s : String} {x : Char} (hx : x ∈ escape s) : x ≠ '"' ∧ x ≠ '\x00' := by
  obtain ⟨c, -, hx⟩ := List.mem_flatMap.1 hx
  unfold escapeChar at hx
  split at hx
  · next h =>
    have hlt := toNat_of_special h
    have hdigit : ∀ n < 16, Nat.digitChar n ≠ '"' ∧ Nat.digitChar n ≠ '\x00' := by decide
    simp only [List.mem_cons, List.not_mem_nil, or_false] at hx
    rcases hx with rfl | rfl | rfl | rfl | rfl | rfl
    · decide
    · decide
    · decide
    · decide
    · exact hdigit _ (by omega)
    · exact hdigit _ (by omega)
  · next h =>
    obtain rfl := List.mem_singleton.1 hx
    refine ⟨fun hc => h (.inl hc), ?_⟩
    rintro rfl
    exact h (.inr (.inr (by decide)))

/-- A string up to its closing quote. -/
def textCodec : Codec Char String :=
  .upTo '"' escape (fun cs => .ofList (unescape cs)) (fun _ h => (escape_over h).1 rfl)
    (fun s => by rw [unescape_escape, String.ofList_toList])

/-! ## Messages -/

theorem not_null_prefix (msg : CandidateStruct SocketAddrV4) (rest : List Char) :
    ¬ "null".toList <+: candidateCodec.print msg ++ rest := by
  intro h
  have hhead : candidateCodec.print msg ++ rest =
      '\x7b' :: ((candidateCodec.print msg).tail ++ rest) := rfl
  rw [hhead] at h
  exact absurd (List.cons_prefix_cons.1 h).1 (by decide)

def messageCodec : Codec Char (Message SocketAddrV4) :=
  .iso
    (.seq (.after "\x7b\"command\":\"".toList textCodec)
      (.seq (.after ",\"topic\":\"".toList textCodec)
        (.seq (.after ",\"data\":".toList (.orLit "null".toList candidateCodec not_null_prefix))
          (.lit "\x7d".toList))))
    (fun (command, topic, data, _) => ⟨command, topic, data⟩)
    (fun msg => (msg.command, msg.topic, msg.data, ()))
    (fun _ => rfl) (fun _ => rfl)

theorem over_textCodec : textCodec.Over (· ≠ '\x00') :=
  .upTo (by decide) fun _ _ hx => (escape_over hx).2

theorem over_messageCodec : messageCodec.Over (· ≠ '\x00') := by
  have hcandidate : candidateCodec.Over (· ≠ '\x00') := by
    refine over_candidateCodec.mono ?_
    rintro _ hprintable rfl
    exact absurd hprintable (by decide)
  exact .iso (.seq (.after (List.all_iff_forall_prop.1 (by decide)) over_textCodec)
    (.seq (.after (List.all_iff_forall_prop.1 (by decide)) over_textCodec)
      (.seq (.after (List.all_iff_forall_prop.1 (by decide))
          (.orLit (List.all_iff_forall_prop.1 (by decide)) hcandidate))
        (.lit (List.all_iff_forall_prop.1 (by decide))))))

theorem messageCodec_getLast? (msg : Message SocketAddrV4) :
    (messageCodec.print msg).getLast? = some '\x7d' :=
  Codec.getLast?_seq (Codec.getLast?_seq (Codec.getLast?_seq rfl))

def messageJson : SerdeJson (Message SocketAddrV4) := .ofCodec messageCodec

theorem messageJson_readsRequests : ReadsRequests messageJson where
  roundTrips := SerdeJson.ofCodec_roundTrips _
  noNul msg h := by
    rw [asBytes_eq_flatMap] at h
    obtain ⟨c, hc, hzero⟩ := List.mem_flatMap.1 h
    have hc : c ∈ (String.ofList (messageCodec.print msg)).toList := hc
    rw [String.toList_ofList] at hc
    exact over_messageCodec msg c hc (Utf8.eq_nul_of_zero_mem hzero)
  rejectsPrefix := SerdeJson.ofCodec_rejectsPrefix _
  endsClosed s msg h := by
    refine ⟨'\x7d', by decide, ?_⟩
    have hprint : s.toList = messageCodec.print msg := messageCodec.decode_eq_some_iff.1 h
    rw [hprint, messageCodec_getLast?]

end RtFogros.Signaling
