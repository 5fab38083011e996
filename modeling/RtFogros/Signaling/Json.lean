import RtFogros.Packet.Json
import RtFogros.Signaling.Model

/-!
# The compact JSON of candidate structs

A concrete `SerdeJson` for candidates with IPv4 addresses, which are written as
strings `ip:port`.  It is built with the combinators of `Lib.Codec`, so that it reads back what it
writes and refuses texts that break off or go on; that is what the loops of the clients rely on.
-/

namespace RtFogros.Signaling

structure SocketAddrV4 where
  ip : Vector UInt8 4
  port : UInt16
deriving DecidableEq

def portCodec (stop : Char) (hstop : stop.isDigit = false) : Codec Char UInt16 :=
  .upTo stop (fun port => decimalText port.toNat)
    (fun cs => UInt16.ofNat (Nat.ofDigitChars 10 cs 0))
    (fun n h => by simp [decimalText_isDigit h] at hstop)
    (fun port => by simp only [decimalText, Nat.ofDigitChars_ten_toDigits, UInt16.ofNat_toNat])

def addrCodec : Codec Char SocketAddrV4 :=
  .iso (.after "\"".toList (.seq (fourBytes '.' ':' rfl rfl) (portCodec '"' rfl)))
    (fun (ip, port) => ⟨ip, port⟩) (fun addr => (addr.ip, addr.port))
    (fun _ => rfl) (fun _ => rfl)

def candidateCodec : Codec Char (CandidateStruct SocketAddrV4) :=
  .iso
    (.seq (.after "\x7b\"thread_gdp_name\":[".toList nameCodec)
      (.seq (.after ",\"candidates\":[".toList
          (.list addrCodec ',' ']' (by decide) fun _ => ⟨'"', _, rfl, by decide⟩))
        (.lit "\x7d".toList)))
    (fun (threadGdpName, candidates, _) => ⟨threadGdpName, candidates⟩)
    (fun msg => (msg.threadGdpName, msg.candidates, ()))
    (fun _ => rfl) (fun _ => rfl)

theorem over_portCodec {stop : Char} {hstop : stop.isDigit = false} (h : Printable stop) :
    (portCodec stop hstop).Over Printable :=
  .upTo h fun _ _ hx => printable_of_isDigit (decimalText_isDigit hx)

theorem over_addrCodec : addrCodec.Over Printable :=
  .iso (.after (List.all_iff_forall_prop.1 (by decide))
    (.seq (over_fourBytes (by decide) (by decide)) (over_portCodec (by decide))))

theorem over_candidateCodec : candidateCodec.Over Printable :=
  .iso (.seq (.after (List.all_iff_forall_prop.1 (by decide)) over_nameCodec)
    (.seq
      (.after (List.all_iff_forall_prop.1 (by decide))
        (.list (by decide) (by decide) over_addrCodec))
      (.lit (List.all_iff_forall_prop.1 (by decide)))))

def candidateJson : SerdeJson (CandidateStruct SocketAddrV4) := .ofCodec candidateCodec

theorem candidateJson_strict : candidateJson.Strict where
  roundTrips := SerdeJson.ofCodec_roundTrips _
  opensBrace msg := by
    unfold candidateJson
    rw [SerdeJson.ofCodec,
      asBytes_ofList fun c hc => (over_candidateCodec msg c hc).2]
    rfl
  writesAscii := SerdeJson.ofCodec_writesAscii over_candidateCodec
  rejectsPrefix := SerdeJson.ofCodec_rejectsPrefix _
  rejectsTrailing := SerdeJson.ofCodec_rejectsTrailing _

end RtFogros.Signaling
