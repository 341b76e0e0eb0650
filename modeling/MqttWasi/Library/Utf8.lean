import Mathlib.Data.List.Basic

-- The bytes of a string whose characters take one byte each, and that no other string has such bytes.

namespace Utf8

variable {s : String}

theorem bytes_eq_flatMap : s.toByteArray.data.toList = s.toList.flatMap String.utf8EncodeChar := by
  rw [← String.utf8Encode_toList, List.utf8Encode, List.data_toByteArray]

theorem bytes_eq_map (h : ∀ c ∈ s.toList, c.utf8Size = 1) :
    s.toByteArray.data.toList = s.toList.map Char.toUInt8 := by
  rw [bytes_eq_flatMap, List.map_eq_flatMap]
  exact List.flatMap_congr fun c hc => String.utf8EncodeChar_eq_singleton (h c hc)

theorem toNat_toUInt8 {c : Char} (h : c.utf8Size = 1) : c.toUInt8.toNat = c.toNat := by
  have hc : c.val.toNat ≤ 127 := by
    simpa [UInt32.le_iff_toNat_le] using Char.utf8Size_eq_one_iff.mp h
  rw [← Char.toUInt8_val, UInt32.toNat_toUInt8]
  exact Nat.mod_eq_of_lt (by omega)

theorem le_or_of_le {b m : UInt8} (h : 128 ≤ m) : 128 ≤ b ||| m := by
  simp only [UInt8.le_iff_toNat_le, UInt8.toNat_or] at h ⊢
  exact Nat.le_trans h Nat.right_le_or

-- Every longer character starts with a byte that has its top bit set.
theorem exists_mem_utf8EncodeChar {c : Char} (h : c.utf8Size ≠ 1) :
    ∃ b ∈ String.utf8EncodeChar c, 128 ≤ b := by
  obtain he | he | he | he := c.utf8Size_eq
  case inl => contradiction
  case inr.inl =>
    rw [String.utf8EncodeChar_eq_cons_cons he]
    exact ⟨_, .head _, le_or_of_le (by decide)⟩
  case inr.inr.inl =>
    rw [String.utf8EncodeChar_eq_cons_cons_cons he]
    exact ⟨_, .head _, le_or_of_le (by decide)⟩
  case inr.inr.inr =>
    rw [String.utf8EncodeChar_eq_cons_cons_cons_cons he]
    exact ⟨_, .head _, le_or_of_le (by decide)⟩

theorem utf8Size_of_bytes (h : ∀ b ∈ s.toByteArray.data.toList, b < 128) :
    ∀ c ∈ s.toList, c.utf8Size = 1 := by
  intro c hc
  by_contra hn
  obtain ⟨b, hb, hle⟩ := exists_mem_utf8EncodeChar hn
  have hm : b ∈ s.toByteArray.data.toList := by
    rw [bytes_eq_flatMap]
    exact List.mem_flatMap.mpr ⟨c, hc, hb⟩
  exact UInt8.not_lt.mpr hle (h b hm)

end Utf8
