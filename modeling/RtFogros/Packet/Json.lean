import RtFogros.Lib.Codec
import RtFogros.Packet.Structs

/-!
# The compact JSON of a header

A concrete `SerdeJson GDPHeaderInTransit`: the text `serde_json::to_string` writes for the derived
`Serialize`, read back strictly.  It has the fields in the order of the struct, names and guids as
arrays of four numbers, and no white space.

It shows that the assumptions made on `serde_json` hold together: `headerJson_roundTrips`,
`headerJson_noNul` and `headerJson_opensBrace` here, the refusal of texts that break off or go on
by the laws of the codec.  The samples of the whole development run with it.
-/

namespace RtFogros

/-! ## Text over the ASCII range -/

def Printable (c : Char) : Prop := 0x20 ≤ c.toNat ∧ c.toNat < 0x80

instance (c : Char) : Decidable (Printable c) := inferInstanceAs (Decidable (_ ∧ _))

theorem zero_not_mem_asBytes {cs : List Char} (h : ∀ c ∈ cs, Printable c) :
    0 ∉ asBytes (String.ofList cs) := by
  rw [asBytes_ofList fun c hc => (h c hc).2]
  intro hmem
  obtain ⟨c, hc, hzero⟩ := List.mem_map.1 hmem
  obtain ⟨hlo, hhi⟩ := h c hc
  have hnat := congrArg UInt8.toNat hzero
  rw [UInt32.toNat_toUInt8] at hnat
  have hval : c.val.toNat = c.toNat := rfl
  rw [hval, Nat.mod_eq_of_lt (by omega)] at hnat
  change c.toNat = 0 at hnat
  omega

/-! ## The parts of a header -/

def decimalText (n : Nat) : List Char := Nat.toDigits 10 n

theorem decimalText_isDigit {n : Nat} {c : Char} (h : c ∈ decimalText n) : c.isDigit = true :=
  Nat.isDigit_of_mem_toDigits (by decide) (by decide) h

theorem printable_of_isDigit {c : Char} (h : c.isDigit = true) : Printable c := by
  rw [Char.isDigit, Bool.and_eq_true, decide_eq_true_eq, decide_eq_true_eq] at h
  obtain ⟨hlo, hhi⟩ := h
  have hlo : 48 ≤ c.toNat := hlo
  have hhi : c.toNat ≤ 57 := hhi
  exact ⟨by omega, by omega⟩

def natCodec (stop : Char) (hstop : stop.isDigit = false) : Codec Char Nat :=
  .upTo stop decimalText (Nat.ofDigitChars 10 · 0)
    (fun n h => by simp [decimalText_isDigit h] at hstop)
    (fun _ => Nat.ofDigitChars_ten_toDigits)

def byteCodec (stop : Char) (hstop : stop.isDigit = false) : Codec Char UInt8 :=
  .upTo stop (fun b => decimalText b.toNat) (fun cs => UInt8.ofNat (Nat.ofDigitChars 10 cs 0))
    (fun n h => by simp [decimalText_isDigit h] at hstop)
    (fun b => by simp only [decimalText, Nat.ofDigitChars_ten_toDigits, UInt8.ofNat_toNat])

def GdpAction.text : GdpAction → List Char
  | noop => "Noop".toList
  | forward => "Forward".toList
  | advertise => "Advertise".toList
  | advertiseResponse => "AdvertiseResponse".toList
  | ribGet => "RibGet".toList
  | ribReply => "RibReply".toList
  | nack => "Nack".toList
  | control => "Control".toList
  | request => "Request".toList
  | response => "Response".toList
  | ping => "PING".toList
  | pong => "PONG".toList

def GdpAction.all : List GdpAction :=
  [noop, forward, advertise, advertiseResponse, ribGet, ribReply, nack, control, request, response,
    ping, pong]

def GdpAction.ofText (cs : List Char) : GdpAction := (all.find? (·.text = cs)).getD .noop

def actionCodec : Codec Char GdpAction :=
  .upTo '"' GdpAction.text GdpAction.ofText (by intro a; cases a <;> decide)
    (by intro a; cases a <;> decide)

/-- Four bytes with `sep` between them and `stop` at the end. -/
def fourBytes (sep stop : Char) (hsep : sep.isDigit = false) (hstop : stop.isDigit = false) :
    Codec Char (Vector UInt8 4) :=
  .iso (.seq (byteCodec sep hsep) (.seq (byteCodec sep hsep)
      (.seq (byteCodec sep hsep) (byteCodec stop hstop))))
    (fun (a, b, c, d) => #v[a, b, c, d])
    (fun bytes => (bytes[0], bytes[1], bytes[2], bytes[3]))
    (fun ⟨⟨[_, _, _, _]⟩, _⟩ => rfl)
    (fun _ => rfl)

def nameCodec : Codec Char GDPName :=
  .iso (fourBytes ',' ']' rfl rfl) GDPName.mk GDPName.bytes (fun _ => rfl) (fun _ => rfl)

def headerCodec : Codec Char GDPHeaderInTransit :=
  .iso
    (.seq (.after "\x7b\"action\":\"".toList actionCodec)
      (.seq (.after ",\"destination\":[".toList nameCodec)
        (.seq (.after ",\"source\":[".toList nameCodec)
          (.seq (.after ",\"guid\":[".toList nameCodec)
            (.after ",\"length\":".toList (natCodec '}' rfl))))))
    (fun (action, destination, source, guid, length) =>
      { action, destination, source, guid, length })
    (fun header => (header.action, header.destination, header.source, header.guid, header.length))
    (fun _ => rfl) (fun _ => rfl)

theorem over_natCodec {stop : Char} {hstop : stop.isDigit = false} (h : Printable stop) :
    (natCodec stop hstop).Over Printable :=
  .upTo h fun _ _ hx => printable_of_isDigit (decimalText_isDigit hx)

theorem over_byteCodec {stop : Char} {hstop : stop.isDigit = false} (h : Printable stop) :
    (byteCodec stop hstop).Over Printable :=
  .upTo h fun _ _ hx => printable_of_isDigit (decimalText_isDigit hx)

theorem over_actionCodec : actionCodec.Over Printable :=
  .upTo (by decide) (by intro a; cases a <;> exact List.all_iff_forall_prop.1 (by decide))

theorem over_fourBytes {sep stop : Char} {hsep : sep.isDigit = false} {hstop : stop.isDigit = false}
    (h : Printable sep) (h' : Printable stop) : (fourBytes sep stop hsep hstop).Over Printable :=
  .iso (.seq (over_byteCodec h) (.seq (over_byteCodec h)
    (.seq (over_byteCodec h) (over_byteCodec h'))))

theorem over_nameCodec : nameCodec.Over Printable :=
  .iso (over_fourBytes (by decide) (by decide))

theorem over_headerCodec : headerCodec.Over Printable :=
  .iso (.seq (.after (List.all_iff_forall_prop.1 (by decide)) over_actionCodec)
    (.seq (.after (List.all_iff_forall_prop.1 (by decide)) over_nameCodec)
      (.seq (.after (List.all_iff_forall_prop.1 (by decide)) over_nameCodec)
        (.seq (.after (List.all_iff_forall_prop.1 (by decide)) over_nameCodec)
          (.after (List.all_iff_forall_prop.1 (by decide)) (over_natCodec (by decide)))))))

/-! ## Strict readers -/

/-- The serializer and the strict reader of a codec. -/
def SerdeJson.ofCodec {α : Type} (c : Codec Char α) : SerdeJson α where
  toString a := String.ofList (c.print a)
  fromStr s := c.decode s.toList

theorem SerdeJson.ofCodec_roundTrips {α : Type} (c : Codec Char α) :
    (SerdeJson.ofCodec c).RoundTrips := by
  intro a
  simp [SerdeJson.ofCodec]

theorem SerdeJson.ofCodec_noNul {α : Type} {c : Codec Char α} (h : c.Over Printable) :
    (SerdeJson.ofCodec c).NoNul :=
  fun a => zero_not_mem_asBytes (h a)

theorem SerdeJson.ofCodec_writesAscii {α : Type} {c : Codec Char α} (h : c.Over Printable) :
    (SerdeJson.ofCodec c).WritesAscii := by
  intro a b hb
  unfold SerdeJson.ofCodec at hb
  rw [asBytes_ofList fun c hc => (h a c hc).2] at hb
  obtain ⟨c, hc, rfl⟩ := List.mem_map.1 hb
  have hlt : c.val.toNat < 0x80 := (h a c hc).2
  rw [UInt8.lt_iff_toNat_lt, UInt32.toNat_toUInt8, Nat.mod_eq_of_lt (by omega)]
  exact hlt

theorem SerdeJson.ofCodec_rejectsPrefix {α : Type} (c : Codec Char α) :
    (SerdeJson.ofCodec c).RejectsPrefix := by
  intro a s t ht h
  apply c.decode_prefix (a := a) (t := t.toList) (fun hnil => ht (String.toList_inj.1 hnil))
  rw [← String.toList_append, h]
  exact String.toList_ofList

theorem SerdeJson.ofCodec_rejectsTrailing {α : Type} (c : Codec Char α) :
    (SerdeJson.ofCodec c).RejectsTrailing := by
  intro a t
  have h := c.decode_trailing a (t := ("\x7b" ++ t).toList)
    (by rw [String.toList_append]; exact List.cons_ne_nil _ _)
  unfold SerdeJson.ofCodec
  dsimp only
  rw [String.toList_append, String.toList_ofList]
  exact h

def headerJson : SerdeJson GDPHeaderInTransit := .ofCodec headerCodec

theorem headerJson_roundTrips : headerJson.RoundTrips := SerdeJson.ofCodec_roundTrips _

theorem headerJson_noNul : headerJson.NoNul := SerdeJson.ofCodec_noNul over_headerCodec

theorem headerJson_opensBrace : headerJson.OpensBrace := by
  intro header
  unfold headerJson SerdeJson.ofCodec
  rw [asBytes_ofList fun c hc => (over_headerCodec header c hc).2]
  rfl

end RtFogros
