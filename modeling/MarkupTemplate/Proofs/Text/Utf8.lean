import Mathlib.Data.List.Basic
import MarkupTemplate.Text.Utf8

/-!
# Octets read back

The octets of a text are those of its characters, one after another (`encodeUtf8_eq_flatMap`), and the
reader takes a character off them whole (`decodeUtf8From_char`); so a text is read back from its octets
(`decodeUtf8_encodeUtf8`).
-/

namespace MarkupTemplate.Text

theorem toList_loop (octets : ByteArray) (i : Nat) (taken : List UInt8) :
    ByteArray.toList.loop octets i taken = taken.reverse ++ octets.data.toList.drop i := by
  fun_induction ByteArray.toList.loop octets i taken with
  | case1 i taken h ih =>
    have hi : i < octets.data.toList.length := h
    have hget : octets.get! i = octets.data.toList[i] := getElem!_pos octets.data i h
    rw [ih, List.drop_eq_getElem_cons hi, List.reverse_cons, List.append_assoc, hget,
      List.singleton_append]
  | case2 i taken h =>
    have hi : octets.data.toList.length ≤ i := Nat.le_of_not_lt h
    rw [List.drop_eq_nil_of_le hi, List.append_nil]

theorem encodeUtf8_eq (s : String) : encodeUtf8 s = s.toByteArray.data.toList :=
  toList_loop _ 0 []

theorem encodeUtf8_inj {s t : String} (h : encodeUtf8 s = encodeUtf8 t) : s = t := by
  rw [encodeUtf8_eq, encodeUtf8_eq] at h
  exact String.toByteArray_inj.1 (ByteArray.ext (Array.ext' h))

theorem encodeUtf8_eq_flatMap (s : String) : encodeUtf8 s = s.toList.flatMap String.utf8EncodeChar := by
  rw [encodeUtf8_eq, ← String.utf8Encode_toList, List.utf8Encode, List.toList_data_toByteArray]

/-! ### One character -/

variable {index b low high taken owed bits : Nat} {rest : List UInt8}

theorem toNat_ofNat_of_lt (h : b < 256) : (UInt8.ofNat b).toNat = b := by
  rw [UInt8.toNat_ofNat', Nat.mod_eq_of_lt h]

theorem decodeUtf8From_ascii (h : b < 0x80) :
    decodeUtf8From index none (UInt8.ofNat b :: rest) =
      (Char.ofNat b :: ·) <$> decodeUtf8From (index + 1) none rest := by
  rw [decodeUtf8From, toNat_ofNat_of_lt (by omega), if_pos h]

theorem decodeUtf8From_lead {pending : Utf8Pending} (hb : 0x80 ≤ b) (hlt : b < 256)
    (h : utf8Lead? b = some pending) :
    decodeUtf8From index none (UInt8.ofNat b :: rest) = decodeUtf8From index (some pending) rest := by
  rw [decodeUtf8From, toNat_ofNat_of_lt hlt, if_neg (by omega), h]

theorem decodeUtf8From_next (hlow : low ≤ b) (hhigh : b ≤ high) (hlt : b < 256) (ho : 1 < owed) :
    decodeUtf8From index (some ⟨taken, owed, low, high, bits⟩) (UInt8.ofNat b :: rest) =
      decodeUtf8From index (some ⟨taken + 1, owed - 1, 0x80, 0xbf, bits * 64 + (b - 0x80)⟩) rest := by
  rw [decodeUtf8From, toNat_ofNat_of_lt hlt, if_pos ⟨hlow, hhigh⟩]
  exact if_neg (Nat.not_le.2 ho)

theorem decodeUtf8From_last (hlow : low ≤ b) (hhigh : b ≤ high) (hlt : b < 256) :
    decodeUtf8From index (some ⟨taken, 1, low, high, bits⟩) (UInt8.ofNat b :: rest) =
      (Char.ofNat (bits * 64 + (b - 0x80)) :: ·) <$> decodeUtf8From (index + taken + 1) none rest := by
  rw [decodeUtf8From, toNat_ofNat_of_lt hlt, if_pos ⟨hlow, hhigh⟩]
  rfl

/-- What the first of three octets announces fits the second one: no character is written longer than need
be, and none is half of a pair. -/
theorem utf8Lead?_three {v : Nat} (hv : 0x800 ≤ v) (hlt : v ≤ 0xffff)
    (hchar : v < 0xd800 ∨ 0xdfff < v) : ∃ low high, utf8Lead? (v / 4096 + 224) =
      some ⟨1, 2, low, high, v / 4096⟩ ∧ low ≤ v / 64 % 64 + 128 ∧ v / 64 % 64 + 128 ≤ high := by
  unfold utf8Lead?
  rw [if_neg (by omega)]
  by_cases h0 : v / 4096 = 0
  · rw [if_pos (by omega), h0]
    exact ⟨0xa0, 0xbf, rfl, by omega, by omega⟩
  · rw [if_neg (by omega)]
    by_cases hd : v / 4096 = 13
    · rw [if_pos (by omega), hd]
      exact ⟨0x80, 0x9f, rfl, by omega, by omega⟩
    · rw [if_neg (by omega), if_pos (by omega), Nat.add_sub_cancel]
      exact ⟨0x80, 0xbf, rfl, by omega, by omega⟩

theorem utf8Lead?_four {v : Nat} (hv : 0x10000 ≤ v) (hlt : v < 0x110000) : ∃ low high,
    utf8Lead? (v / 262144 + 240) = some ⟨1, 3, low, high, v / 262144⟩ ∧
      low ≤ v / 4096 % 64 + 128 ∧ v / 4096 % 64 + 128 ≤ high := by
  unfold utf8Lead?
  rw [if_neg (by omega), if_neg (by omega), if_neg (by omega), if_neg (by omega)]
  by_cases h0 : v / 262144 = 0
  · rw [if_pos (by omega), h0]
    exact ⟨0x90, 0xbf, rfl, by omega, by omega⟩
  · rw [if_neg (by omega)]
    by_cases h4 : v / 262144 = 4
    · rw [if_pos (by omega), h4]
      exact ⟨0x80, 0x8f, rfl, by omega, by omega⟩
    · rw [if_neg (by omega), if_pos (by omega), Nat.add_sub_cancel]
      exact ⟨0x80, 0xbf, rfl, by omega, by omega⟩

theorem decodeUtf8From_char (index : Nat) (c : Char) (rest : List UInt8) : ∃ behind,
    decodeUtf8From index none (String.utf8EncodeChar c ++ rest) =
      (c :: ·) <$> decodeUtf8From behind none rest := by
  have hvalid : c.toNat < 0xd800 ∨ 0xdfff < c.toNat ∧ c.toNat < 0x110000 := c.valid
  have hc (n : Nat) (h : n = c.toNat) : Char.ofNat n = c := by rw [h, Char.ofNat_toNat]
  have hval : c.val.toNat = c.toNat := rfl
  unfold String.utf8EncodeChar
  dsimp only
  split
  · refine ⟨index + 1, ?_⟩
    show decodeUtf8From index none (UInt8.ofNat c.toNat :: rest) = _
    rw [decodeUtf8From_ascii (by omega), hc _ rfl]
  · split
    · refine ⟨index + 1 + 1, ?_⟩
      show decodeUtf8From index none (UInt8.ofNat (c.toNat / 64 % 32 + 192) ::
        UInt8.ofNat (c.toNat % 64 + 128) :: rest) = _
      have hlead : utf8Lead? (c.toNat / 64 % 32 + 192) =
          some ⟨1, 1, 0x80, 0xbf, c.toNat / 64 % 32 + 192 - 0xc0⟩ := by
        unfold utf8Lead?
        rw [if_pos (by omega)]
      rw [decodeUtf8From_lead (by omega) (by omega) hlead,
        decodeUtf8From_last (by omega) (by omega) (by omega), hc _ (by omega)]
    · split
      · refine ⟨index + 2 + 1, ?_⟩
        show decodeUtf8From index none (UInt8.ofNat (c.toNat / 4096 % 16 + 224) ::
          UInt8.ofNat (c.toNat / 64 % 64 + 128) :: UInt8.ofNat (c.toNat % 64 + 128) :: rest) = _
        obtain ⟨low, high, hlead, hlow, hhigh⟩ :=
          utf8Lead?_three (v := c.toNat) (by omega) (by omega) (by omega)
        rw [show c.toNat / 4096 % 16 = c.toNat / 4096 by omega,
          decodeUtf8From_lead (by omega) (by omega) hlead,
          decodeUtf8From_next hlow hhigh (by omega) (by omega),
          decodeUtf8From_last (by omega) (by omega) (by omega), hc _ (by omega)]
      · refine ⟨index + 3 + 1, ?_⟩
        show decodeUtf8From index none (UInt8.ofNat (c.toNat / 262144 % 8 + 240) ::
          UInt8.ofNat (c.toNat / 4096 % 64 + 128) :: UInt8.ofNat (c.toNat / 64 % 64 + 128) ::
            UInt8.ofNat (c.toNat % 64 + 128) :: rest) = _
        obtain ⟨low, high, hlead, hlow, hhigh⟩ :=
          utf8Lead?_four (v := c.toNat) (by omega) (by omega)
        rw [show c.toNat / 262144 % 8 = c.toNat / 262144 by omega,
          decodeUtf8From_lead (by omega) (by omega) hlead,
          decodeUtf8From_next hlow hhigh (by omega) (by omega),
          decodeUtf8From_next (by omega) (by omega) (by omega) (by omega),
          decodeUtf8From_last (by omega) (by omega) (by omega), hc _ (by omega)]

/-! ### Texts -/

theorem decodeUtf8From_flatMap (index : Nat) (cs : List Char) :
    decodeUtf8From index none (cs.flatMap String.utf8EncodeChar) = .ok cs := by
  induction cs generalizing index with
  | nil => rfl
  | cons c cs ih =>
    rw [List.flatMap_cons]
    obtain ⟨behind, h⟩ := decodeUtf8From_char index c (cs.flatMap String.utf8EncodeChar)
    rw [h, ih]
    rfl

theorem decodeUtf8_encodeUtf8 (s : String) : decodeUtf8 (encodeUtf8 s) = .ok s := by
  rw [decodeUtf8, encodeUtf8_eq_flatMap, decodeUtf8From_flatMap]
  show Except.ok (String.ofList s.toList) = _
  rw [String.ofList_toList]

end MarkupTemplate.Text
