import RtFogros.Lib.Utf8

/-!
# Strings and their bytes

`str::as_bytes`, `std::str::from_utf8` and `String::from_utf8_lossy`.  The two readers agree on
what was written from a string; on the bytes of an untrusted peer the one fails and the other
replaces.
-/

namespace RtFogros

abbrev Bytes := List UInt8

/-- `str::as_bytes`. -/
def asBytes (s : String) : Bytes := s.toByteArray.data.toList

/-- `std::str::from_utf8`, `none` being its error. -/
def fromUtf8 (bytes : Bytes) : Option String := String.fromUTF8? ⟨bytes.toArray⟩

/-- `String::from_utf8_lossy`. -/
def fromUtf8Lossy (bytes : Bytes) : String := .ofList (Utf8.decodeLossy 0 bytes)

@[simp] theorem fromUtf8_asBytes (s : String) : fromUtf8 (asBytes s) = some s := by
  have hvalid : (⟨s.toByteArray.data.toList.toArray⟩ : ByteArray).IsValidUTF8 := by
    simpa using s.isValidUTF8
  unfold fromUtf8
  rw [String.fromUTF8?, asBytes, dif_pos hvalid]
  congr 1

@[simp] theorem asBytes_append (s t : String) : asBytes (s ++ t) = asBytes s ++ asBytes t := by
  simp [asBytes]

theorem asBytes_injective {s t : String} (h : asBytes s = asBytes t) : s = t := by
  have : some s = some t := by rw [← fromUtf8_asBytes s, h, fromUtf8_asBytes]
  exact Option.some.inj this

/-- The bytes of a string are those of its characters. -/
theorem asBytes_eq_flatMap (s : String) : asBytes s = s.toList.flatMap String.utf8EncodeChar := by
  have hlist : s = String.ofList s.toList := String.ofList_toList.symm
  unfold asBytes
  conv_lhs => rw [hlist]
  rw [String.toByteArray_ofList]
  exact List.toList_data_toByteArray

/-! ## ASCII -/

theorem asBytes_ofList {cs : List Char} (h : ∀ c ∈ cs, c.toNat < 0x80) :
    asBytes (String.ofList cs) = cs.map fun c => c.val.toUInt8 := by
  induction cs with
  | nil => rfl
  | cons c cs ih =>
    have hc : c.utf8Size = 1 := by
      have hlt : c.toNat < 0x80 := h c List.mem_cons_self
      have hle : c.val ≤ 0x7f := by
        rw [UInt32.le_iff_toNat_le]
        exact Nat.le_of_lt_succ hlt
      rw [Char.utf8Size]
      exact if_pos hle
    have ih' := ih fun d hd => h d (List.mem_cons_of_mem _ hd)
    unfold asBytes at ih' ⊢
    rw [String.toByteArray_ofList] at ih' ⊢
    rw [List.utf8Encode_cons, List.utf8Encode_singleton, String.utf8EncodeChar_eq_singleton hc]
    simp [ih']

def Ascii (bytes : Bytes) : Prop := ∀ b ∈ bytes, b < 0x80

theorem toNat_ofNat_of_ascii {b : UInt8} (h : b < 0x80) : (Char.ofNat b.toNat).toNat = b.toNat := by
  have hlt : b.toNat < 0x80 := h
  have hvalid : b.toNat.isValidChar := .inl (by omega)
  rw [Char.ofNat, dif_pos hvalid]
  rfl

/-- A lossy reading of ASCII bytes loses nothing. -/
theorem asBytes_fromUtf8Lossy {bytes : Bytes} (h : Ascii bytes) :
    asBytes (fromUtf8Lossy bytes) = bytes := by
  unfold fromUtf8Lossy
  rw [Utf8.decodeLossy_ascii h, asBytes_ofList, List.map_map]
  · refine (List.map_congr_left fun b hb => ?_).trans (List.map_id bytes)
    have hnat := toNat_ofNat_of_ascii (h b hb)
    apply UInt8.toNat_inj.1
    rw [Function.comp_apply, UInt32.toNat_toUInt8]
    change (Char.ofNat b.toNat).toNat % 2 ^ 8 = b.toNat
    rw [hnat]
    exact Nat.mod_eq_of_lt b.toNat_lt
  · intro c hc
    obtain ⟨b, hb, rfl⟩ := List.mem_map.1 hc
    rw [toNat_ofNat_of_ascii (h b hb)]
    exact h b hb

/-- ASCII bytes are UTF-8. -/
theorem fromUtf8_of_ascii {bytes : Bytes} (h : Ascii bytes) :
    fromUtf8 bytes = some (fromUtf8Lossy bytes) := by
  have hread := fromUtf8_asBytes (fromUtf8Lossy bytes)
  rwa [asBytes_fromUtf8Lossy h] at hread

theorem fromUtf8Lossy_asBytes {s : String} (h : Ascii (asBytes s)) :
    fromUtf8Lossy (asBytes s) = s :=
  asBytes_injective (asBytes_fromUtf8Lossy h)

end RtFogros
