import Mathlib.Data.Bool.AllAny
import Mathlib.Data.List.Basic
import Mathlib.Tactic.IntervalCases

/-!
# Lossy UTF-8 decoding

A byte sequence is read as UTF-8 with U+FFFD in place of every maximal part that begins
no character or breaks off inside one.  An encoded text is read back (`decodeLossy_encoded`),
and one that breaks off is read up to the break (`encoded_prefix`, `decodeLossy_cut`).
-/

namespace Utf8

/-- The ranges of the bytes that follow `lead` in a character of several bytes; none if
no such character starts with `lead`. -/
def followers (lead : UInt8) : List (UInt8 × UInt8) :=
  if 0xc2 ≤ lead ∧ lead ≤ 0xdf then [(0x80, 0xbf)]
  else if lead = 0xe0 then [(0xa0, 0xbf), (0x80, 0xbf)]
  else if lead = 0xed then [(0x80, 0x9f), (0x80, 0xbf)]
  else if 0xe1 ≤ lead ∧ lead ≤ 0xef then [(0x80, 0xbf), (0x80, 0xbf)]
  else if lead = 0xf0 then [(0x90, 0xbf), (0x80, 0xbf), (0x80, 0xbf)]
  else if 0xf1 ≤ lead ∧ lead ≤ 0xf3 then [(0x80, 0xbf), (0x80, 0xbf), (0x80, 0xbf)]
  else if lead = 0xf4 then [(0x80, 0x8f), (0x80, 0xbf), (0x80, 0xbf)]
  else []

/-- The longest prefix of a byte list that lies in the ranges. -/
def within : List (UInt8 × UInt8) → List UInt8 → List UInt8
  | (low, high) :: ranges, b :: bytes =>
    if low ≤ b ∧ b ≤ high then b :: within ranges bytes else []
  | _, _ => []

/-- The character of a lead byte and its followers. -/
def character (lead : UInt8) (rest : List UInt8) : Char :=
  .ofNat (rest.foldl (fun n b => n * 64 + b.toNat % 64) (lead.toNat % (64 >>> rest.length)))

/-- Decode after dropping `skip` bytes. -/
def decodeLossy : Nat → List UInt8 → List Char
  | _, [] => []
  | skip + 1, _ :: bytes => decodeLossy skip bytes
  | 0, b :: bytes =>
    if b < 0x80 then .ofNat b.toNat :: decodeLossy 0 bytes
    else
      let ranges := followers b
      let rest := within ranges bytes
      if ranges ≠ [] ∧ rest.length = ranges.length then
        character b rest :: decodeLossy rest.length bytes
      else .ofNat 0xfffd :: decodeLossy rest.length bytes

theorem decodeLossy_ascii {bytes : List UInt8} (h : ∀ b ∈ bytes, b < 0x80) :
    decodeLossy 0 bytes = bytes.map fun b => .ofNat b.toNat := by
  induction bytes with
  | nil => rfl
  | cons b bytes ih =>
    obtain ⟨hb, hbytes⟩ := List.forall_mem_cons.1 h
    unfold decodeLossy
    rw [if_pos hb, ih hbytes, List.map_cons]

-- a euro sign, one cut short, and a byte that starts no character
example : decodeLossy 0 [0xe2, 0x82, 0xac, 0xe2, 0x82, 0x41, 0xff] =
    ['€', '\uFFFD', 'A', '\uFFFD'] := by decide

/-! ## The bytes of a character -/

theorem toNat_ofNat_of_lt {n : Nat} (h : n < 256) : (UInt8.ofNat n).toNat = n := by
  rw [UInt8.toNat_ofNat']
  exact Nat.mod_eq_of_lt h

/-- The follower that carries the last six bits of `n`. -/
def follower (n : Nat) : UInt8 := .ofNat (n % 64 + 0x80)

theorem toNat_follower (n : Nat) : (follower n).toNat = n % 64 + 0x80 :=
  toNat_ofNat_of_lt (by omega)

theorem within_follower {low high : UInt8} {ranges : List (UInt8 × UInt8)} {bytes : List UInt8}
    {n : Nat} (hlow : low.toNat ≤ n % 64 + 0x80) (hhigh : n % 64 + 0x80 ≤ high.toNat) :
    within ((low, high) :: ranges) (follower n :: bytes) = follower n :: within ranges bytes := by
  refine if_pos ⟨UInt8.le_iff_toNat_le.2 ?_, UInt8.le_iff_toNat_le.2 ?_⟩
  · rw [toNat_follower]
    exact hlow
  · rw [toNat_follower]
    exact hhigh

theorem within_any {ranges : List (UInt8 × UInt8)} {bytes : List UInt8} (n : Nat) :
    within ((0x80, 0xbf) :: ranges) (follower n :: bytes) = follower n :: within ranges bytes :=
  within_follower (Nat.le_add_left _ _) (show _ ≤ 0xbf by omega)

theorem followers_two {n : Nat} (hlow : 0xc2 ≤ n) (hhigh : n ≤ 0xdf) :
    followers (.ofNat n) = [(0x80, 0xbf)] := by
  interval_cases n <;> rfl

theorem followers_three {n : Nat} (hlow : 0xe0 ≤ n) (hhigh : n ≤ 0xef) :
    followers (.ofNat n) =
      [(if n = 0xe0 then 0xa0 else 0x80, if n = 0xed then 0x9f else 0xbf), (0x80, 0xbf)] := by
  interval_cases n <;> rfl

theorem followers_four {n : Nat} (hlow : 0xf0 ≤ n) (hhigh : n ≤ 0xf4) :
    followers (.ofNat n) =
      [(if n = 0xf0 then 0x90 else 0x80, if n = 0xf4 then 0x8f else 0xbf), (0x80, 0xbf),
        (0x80, 0xbf)] := by
  interval_cases n <;> rfl

/-- The bytes of a character of several bytes. -/
structure Encodes (lead : UInt8) (rest : List UInt8) (c : Char) : Prop where
  lead_ge : ¬ lead < 0x80
  rest_ne : rest ≠ []
  length_eq : rest.length = (followers lead).length
  within_eq : within (followers lead) rest = rest
  character_eq : character lead rest = c

theorem lead_ge {n : Nat} (hlow : 0x80 ≤ n) (hhigh : n < 256) : ¬ UInt8.ofNat n < 0x80 := by
  rw [UInt8.lt_iff_toNat_lt, toNat_ofNat_of_lt hhigh]
  exact Nat.not_lt.2 hlow

theorem encodes_two {c : Char} (hlow : 0x7f < c.toNat) (hhigh : c.toNat ≤ 0x7ff) :
    Encodes (.ofNat (c.toNat / 64 % 0x20 + 0xc0)) [follower c.toNat] c := by
  have hfollowers := followers_two (n := c.toNat / 64 % 0x20 + 0xc0) (by omega) (by omega)
  refine ⟨lead_ge (by omega) (by omega), List.cons_ne_nil _ _, ?_, ?_, ?_⟩
  · rw [hfollowers]
    rfl
  · rw [hfollowers, within_any]
    rfl
  · have hvalue : (c.toNat / 64 % 0x20 + 0xc0) % 32 * 64 + (c.toNat % 64 + 0x80) % 64 =
        c.toNat := by omega
    unfold character
    simp only [List.foldl_cons, List.foldl_nil, toNat_follower, List.length_singleton]
    rw [toNat_ofNat_of_lt (by omega)]
    change Char.ofNat ((c.toNat / 64 % 0x20 + 0xc0) % 32 * 64 + (c.toNat % 64 + 0x80) % 64) = c
    rw [hvalue, Char.ofNat_toNat]

theorem encodes_three {c : Char} (hlow : 0x7ff < c.toNat) (hhigh : c.toNat ≤ 0xffff) :
    Encodes (.ofNat (c.toNat / 4096 % 0x10 + 0xe0)) [follower (c.toNat / 64), follower c.toNat]
      c := by
  have hvalid : c.toNat < 0xd800 ∨ 0xdfff < c.toNat ∧ c.toNat < 0x110000 := c.valid
  have hfollowers := followers_three (n := c.toNat / 4096 % 0x10 + 0xe0) (by omega) (by omega)
  refine ⟨lead_ge (by omega) (by omega), List.cons_ne_nil _ _, ?_, ?_, ?_⟩
  · rw [hfollowers]
    rfl
  · rw [hfollowers, within_follower, within_any]
    · rfl
    · split
      · change 0xa0 ≤ _
        omega
      · exact Nat.le_add_left _ _
    · split
      · change _ ≤ 0x9f
        omega
      · change _ ≤ 0xbf
        omega
  · have hvalue : ((c.toNat / 4096 % 0x10 + 0xe0) % 16 * 64 + (c.toNat / 64 % 64 + 0x80) % 64) * 64
        + (c.toNat % 64 + 0x80) % 64 = c.toNat := by omega
    unfold character
    simp only [List.foldl_cons, List.foldl_nil, toNat_follower, List.length_cons, List.length_nil]
    rw [toNat_ofNat_of_lt (by omega)]
    change Char.ofNat (((c.toNat / 4096 % 0x10 + 0xe0) % 16 * 64 +
      (c.toNat / 64 % 64 + 0x80) % 64) * 64 + (c.toNat % 64 + 0x80) % 64) = c
    rw [hvalue, Char.ofNat_toNat]

theorem encodes_four {c : Char} (hlow : 0xffff < c.toNat) :
    Encodes (.ofNat (c.toNat / 262144 % 0x08 + 0xf0))
      [follower (c.toNat / 4096), follower (c.toNat / 64), follower c.toNat] c := by
  have hvalid : c.toNat < 0xd800 ∨ 0xdfff < c.toNat ∧ c.toNat < 0x110000 := c.valid
  have hfollowers := followers_four (n := c.toNat / 262144 % 0x08 + 0xf0) (by omega) (by omega)
  refine ⟨lead_ge (by omega) (by omega), List.cons_ne_nil _ _, ?_, ?_, ?_⟩
  · rw [hfollowers]
    rfl
  · rw [hfollowers, within_follower, within_any, within_any]
    · rfl
    · split
      · change 0x90 ≤ _
        omega
      · exact Nat.le_add_left _ _
    · split
      · change _ ≤ 0x8f
        omega
      · change _ ≤ 0xbf
        omega
  · have hvalue : (((c.toNat / 262144 % 0x08 + 0xf0) % 8 * 64 + (c.toNat / 4096 % 64 + 0x80) % 64) *
        64 + (c.toNat / 64 % 64 + 0x80) % 64) * 64 + (c.toNat % 64 + 0x80) % 64 = c.toNat := by
      omega
    unfold character
    simp only [List.foldl_cons, List.foldl_nil, toNat_follower, List.length_cons, List.length_nil]
    rw [toNat_ofNat_of_lt (by omega)]
    change Char.ofNat ((((c.toNat / 262144 % 0x08 + 0xf0) % 8 * 64 +
      (c.toNat / 4096 % 64 + 0x80) % 64) * 64 + (c.toNat / 64 % 64 + 0x80) % 64) * 64 +
        (c.toNat % 64 + 0x80) % 64) = c
    rw [hvalue, Char.ofNat_toNat]

theorem utf8EncodeChar_eq (c : Char) :
    String.utf8EncodeChar c =
      if c.toNat ≤ 0x7f then [.ofNat c.toNat]
      else if c.toNat ≤ 0x7ff then
        [.ofNat (c.toNat / 64 % 0x20 + 0xc0), follower c.toNat]
      else if c.toNat ≤ 0xffff then
        [.ofNat (c.toNat / 4096 % 0x10 + 0xe0), follower (c.toNat / 64), follower c.toNat]
      else
        [.ofNat (c.toNat / 262144 % 0x08 + 0xf0), follower (c.toNat / 4096),
          follower (c.toNat / 64), follower c.toNat] := rfl

/-- A character is one byte below 0x80, or a lead byte and its followers. -/
theorem utf8EncodeChar_cases (c : Char) :
    (c.toNat < 0x80 ∧ String.utf8EncodeChar c = [.ofNat c.toNat]) ∨
      ∃ lead rest, String.utf8EncodeChar c = lead :: rest ∧ Encodes lead rest c := by
  rw [utf8EncodeChar_eq]
  split
  · exact .inl ⟨by omega, rfl⟩
  · right
    split
    · exact ⟨_, _, rfl, encodes_two (by omega) ‹_›⟩
    · split
      · exact ⟨_, _, rfl, encodes_three (by omega) ‹_›⟩
      · exact ⟨_, _, rfl, encodes_four (by omega)⟩

/-! ## Decoding what was encoded -/

theorem decodeLossy_skip (skipped bytes : List UInt8) :
    decodeLossy skipped.length (skipped ++ bytes) = decodeLossy 0 bytes := by
  induction skipped with
  | nil => rfl
  | cons b skipped ih => exact ih

/-- Followers are recognized as far as they go. -/
theorem within_append {ranges : List (UInt8 × UInt8)} {rest : List UInt8}
    (h : within ranges rest = rest) (tail : List UInt8) :
    within ranges (rest ++ tail) = rest ++ within (ranges.drop rest.length) tail := by
  induction rest generalizing ranges with
  | nil => rfl
  | cons b rest ih =>
    cases ranges with
    | nil => cases h
    | cons range ranges =>
      unfold within at h
      split at h
      · next hb =>
        rw [List.cons_append, within, if_pos hb, ih (List.cons.inj h).2]
        rfl
      · cases h

theorem decodeLossy_char (c : Char) (tail : List UInt8) :
    decodeLossy 0 (String.utf8EncodeChar c ++ tail) = c :: decodeLossy 0 tail := by
  rcases utf8EncodeChar_cases c with ⟨hascii, hbytes⟩ | ⟨lead, rest, hbytes, henc⟩
  · have hb : (UInt8.ofNat c.toNat).toNat = c.toNat := toNat_ofNat_of_lt (by omega)
    have hlt : UInt8.ofNat c.toNat < 0x80 := by
      rw [UInt8.lt_iff_toNat_lt, hb]
      exact hascii
    rw [hbytes, List.singleton_append, decodeLossy, if_pos hlt, hb, Char.ofNat_toNat]
  · have hrest : within (followers lead) (rest ++ tail) = rest := by
      rw [within_append henc.within_eq, henc.length_eq, List.drop_length]
      exact List.append_nil _
    have hfull : followers lead ≠ [] ∧ rest.length = (followers lead).length :=
      ⟨fun hnil => henc.rest_ne (List.length_eq_zero_iff.1 (henc.length_eq.trans (hnil ▸ rfl))),
        henc.length_eq⟩
    rw [hbytes, List.cons_append, decodeLossy, if_neg henc.lead_ge]
    dsimp only
    rw [hrest, if_pos hfull, henc.character_eq, decodeLossy_skip]

/-- What was encoded is decoded, whatever follows it. -/
theorem decodeLossy_encoded (cs : List Char) (tail : List UInt8) :
    decodeLossy 0 (cs.flatMap String.utf8EncodeChar ++ tail) = cs ++ decodeLossy 0 tail := by
  induction cs with
  | nil => rfl
  | cons c cs ih =>
    rw [List.flatMap_cons, List.append_assoc, decodeLossy_char, ih]
    rfl

theorem decodeLossy_zeros (n : Nat) :
    decodeLossy 0 (List.replicate n 0) = List.replicate n '\x00' := by
  rw [decodeLossy_ascii fun b hb => (List.eq_of_mem_replicate hb) ▸ by decide, List.map_replicate]
  rfl

theorem followers_low {lead : UInt8} {range : UInt8 × UInt8} (h : range ∈ followers lead) :
    ¬ range.1 ≤ 0 := by
  have hall : ∀ range ∈ followers lead, 0 < range.1 := by
    unfold followers
    repeat' split
    all_goals exact List.all_iff_forall_prop.1 (by decide)
  exact UInt8.not_le.2 (hall range h)

theorem mem_within {ranges : List (UInt8 × UInt8)} {bytes : List UInt8} {b : UInt8}
    (h : b ∈ within ranges bytes) : ∃ range ∈ ranges, range.1 ≤ b := by
  induction ranges generalizing bytes with
  | nil => cases h
  | cons range ranges ih =>
    cases bytes with
    | nil => cases h
    | cons b' bytes =>
      unfold within at h
      split at h
      · next hb =>
        rcases List.mem_cons.1 h with rfl | h
        · exact ⟨range, List.mem_cons_self, hb.1⟩
        · obtain ⟨range', hmem, hlow⟩ := ih h
          exact ⟨range', List.mem_cons_of_mem _ hmem, hlow⟩
      · cases h

/-- Only NUL is encoded with a zero byte. -/
theorem eq_nul_of_zero_mem {c : Char} (h : 0 ∈ String.utf8EncodeChar c) : c = '\x00' := by
  rcases utf8EncodeChar_cases c with ⟨hascii, hbytes⟩ | ⟨lead, rest, hbytes, henc⟩
  · rw [hbytes, List.mem_singleton] at h
    have hzero := congrArg UInt8.toNat h
    rw [toNat_ofNat_of_lt (by omega)] at hzero
    apply Char.toNat_inj.1
    exact hzero.symm
  · rw [hbytes, ← henc.within_eq] at h
    rcases List.mem_cons.1 h with hlead | hrest
    · exact absurd (hlead ▸ by decide) henc.lead_ge
    · obtain ⟨range, hmem, hlow⟩ := mem_within hrest
      exact absurd hlow (followers_low hmem)

/-- A zero is no follower. -/
theorem within_zeros (lead : UInt8) (k n : Nat) :
    within ((followers lead).drop k) (List.replicate n 0) = [] := by
  cases hranges : (followers lead).drop k with
  | nil => rfl
  | cons range ranges =>
    cases n with
    | zero => rfl
    | succ n =>
      have hmem : range ∈ followers lead :=
        List.mem_of_mem_drop (hranges ▸ List.mem_cons_self : range ∈ (followers lead).drop k)
      rw [List.replicate_succ, within, if_neg fun h => followers_low hmem h.1]

theorem within_of_append {ranges : List (UInt8 × UInt8)} {part missing : List UInt8}
    (h : within ranges (part ++ missing) = part ++ missing) : within ranges part = part := by
  induction part generalizing ranges with
  | nil =>
    cases ranges <;> rfl
  | cons b part ih =>
    cases ranges with
    | nil => cases h
    | cons range ranges =>
      rw [List.cons_append, within] at h
      split at h
      · next hb => rw [within, if_pos hb, ih (List.cons.inj h).2]
      · cases h

/-- A character that breaks off before zeros is one U+FFFD. -/
theorem decodeLossy_cut {c : Char} {part missing : List UInt8} (hpart : part ≠ [])
    (hmissing : missing ≠ []) (h : part ++ missing = String.utf8EncodeChar c) (n : Nat) :
    decodeLossy 0 (part ++ List.replicate n 0) = '\uFFFD' :: List.replicate n '\x00' := by
  obtain ⟨b, part, rfl⟩ := List.exists_cons_of_ne_nil hpart
  rcases utf8EncodeChar_cases c with ⟨-, hbytes⟩ | ⟨lead, rest, hbytes, henc⟩
  · rw [hbytes, List.cons_append] at h
    exact absurd (List.append_eq_nil_iff.1 (List.cons.inj h).2).2 hmissing
  · rw [hbytes, List.cons_append] at h
    obtain ⟨rfl, hrest⟩ := List.cons.inj h
    have hwithin := henc.within_eq
    rw [← hrest] at hwithin
    have hread : within (followers b) (part ++ List.replicate n 0) = part := by
      rw [within_append (within_of_append hwithin), within_zeros, List.append_nil]
    have hshort : ¬ (followers b ≠ [] ∧ part.length = (followers b).length) := by
      rintro ⟨-, hlength⟩
      rw [← henc.length_eq, ← hrest, List.length_append] at hlength
      have hpos := List.length_pos_iff.2 hmissing
      omega
    rw [List.cons_append, decodeLossy, if_neg henc.lead_ge]
    dsimp only
    rw [hread, if_neg hshort, decodeLossy_skip, decodeLossy_zeros]

/-- The beginning of an encoded text ends between two characters or inside one. -/
theorem encoded_prefix {cs : List Char} {part missing : List UInt8}
    (h : part ++ missing = cs.flatMap String.utf8EncodeChar) :
    ∃ before after, cs = before ++ after ∧
      (part = before.flatMap String.utf8EncodeChar ∨
        ∃ c rest cut missed, after = c :: rest ∧ cut ≠ [] ∧ missed ≠ [] ∧
          cut ++ missed = String.utf8EncodeChar c ∧
          part = before.flatMap String.utf8EncodeChar ++ cut) := by
  induction cs generalizing part with
  | nil =>
    obtain ⟨rfl, -⟩ := List.append_eq_nil_iff.1 h
    exact ⟨[], [], rfl, .inl rfl⟩
  | cons c cs ih =>
    rw [List.flatMap_cons] at h
    rcases List.append_eq_append_iff.1 h with ⟨missed, hchar, -⟩ | ⟨more, rfl, hmore⟩
    · by_cases hpart : part = []
      · subst hpart
        exact ⟨[], c :: cs, rfl, .inl rfl⟩
      · by_cases hmissed : missed = []
        · refine ⟨[c], cs, rfl, .inl ?_⟩
          rw [List.flatMap_singleton, hchar, hmissed, List.append_nil]
        · exact ⟨[], c :: cs, rfl, .inr ⟨c, cs, part, missed, rfl, hpart, hmissed, hchar.symm, rfl⟩⟩
    · obtain ⟨before, after, rfl, hcut⟩ := ih hmore.symm
      refine ⟨c :: before, after, rfl, ?_⟩
      rcases hcut with rfl | ⟨d, rest, cut, missed, hafter, hcut, hmissed, hchar, rfl⟩
      · exact .inl (List.flatMap_cons ..).symm
      · refine .inr ⟨d, rest, cut, missed, hafter, hcut, hmissed, hchar, ?_⟩
        rw [List.flatMap_cons, List.append_assoc]

end Utf8
