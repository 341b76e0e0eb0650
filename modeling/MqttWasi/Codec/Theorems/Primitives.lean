import Mathlib.Tactic.Ring
import MqttWasi.Library.Base128
import MqttWasi.Codec.Encode

namespace MqttWasi

-- Integers in big-endian order and strings in UTF-8.

theorem u16FromBeBytes_toBeBytes (v : UInt16) :
    u16FromBeBytes (.ofNat (v.toNat / 256)) v.toUInt8 = v := by
  have := v.toNat_lt
  apply UInt16.toNat_inj.mp
  simp [u16FromBeBytes]
  omega

theorem u32FromBeBytes_toBeBytes (v : UInt32) :
    u32FromBeBytes (.ofNat (v.toNat / 256 / 256 / 256)) (.ofNat (v.toNat / 256 / 256))
      (.ofNat (v.toNat / 256)) v.toUInt8 = v := by
  have := v.toNat_lt
  apply UInt32.toNat_inj.mp
  simp [u32FromBeBytes]
  omega

@[simp]
theorem fromUtf8_utf8 (s : String) : fromUtf8 (utf8 s) = some s := by
  have h : (⟨(utf8 s).toArray⟩ : ByteArray) = s.toByteArray := by simp [utf8]
  simp [fromUtf8, h, String.fromUTF8?, s.isValidUTF8, String.fromUTF8]

-- A cursor in front of `s` that has already passed `pre`.
def Cursor.at (pre s : Bytes) : Cursor :=
  { buf := pre ++ s, pos := pre.length }

namespace Cursor

@[simp]
theorem at_buf (pre s : Bytes) : (Cursor.at pre s).buf = pre ++ s :=
  rfl

@[simp]
theorem at_pos (pre s : Bytes) : (Cursor.at pre s).pos = pre.length :=
  rfl

theorem at_nil (s : Bytes) : Cursor.at [] s = { buf := s } :=
  rfl

@[simp]
theorem at_remaining (pre s : Bytes) : (Cursor.at pre s).remaining = s.length := by
  simp [remaining]

@[simp]
theorem at_remainingBytes (pre s : Bytes) : (Cursor.at pre s).remainingBytes = s := by
  simp [remainingBytes]

theorem at_advance (pre s t : Bytes) :
    (Cursor.at pre (s ++ t)).advance s.length = Cursor.at (pre ++ s) t := by
  simp [Cursor.at, advance]

-- A decoder reads `bytes` as `a` if it does so wherever they stand and whatever follows them.
def Reads (x : CursorM α) (bytes : Bytes) (a : α) : Prop :=
  ∀ pre rest, x (.at pre (bytes ++ rest)) = .ok a (.at (pre ++ bytes) rest)

namespace Reads

theorem pure (a : α) : Reads (pure a) [] a := by
  simp [Reads]

theorem bind {x : CursorM α} {f : α → CursorM β} (hx : Reads x s a) (hf : Reads (f a) t b) :
    Reads (x >>= f) (s ++ t) b := by
  intro pre rest
  rw [List.append_assoc, EStateM.bind_ok (hx pre (t ++ rest)), hf (pre ++ s) rest]
  simp

-- The last read of a decoder is followed by checks that consume nothing.
theorem bind_checks {x : CursorM α} {f : α → CursorM β} (hx : Reads x s a) (hf : Reads (f a) [] b) :
    Reads (x >>= f) s b := by
  simpa using hx.bind hf

theorem map {x : CursorM α} (hx : Reads x s a) (f : α → β) : Reads (f <$> x) s (f a) := by
  intro pre rest
  have := hx pre rest
  simp [EStateM.map_apply, this]

end Reads

theorem ensure_at (h : n ≤ s.length) : ensure n (.at pre s) = .ok () (.at pre s) := by
  have : ¬s.length < n := by omega
  simp [ensure, EStateM.bind_apply, this]

theorem ensure_error (h : s.length < n) :
    ensure n (.at pre s) = .error (.malformedPacket "unexpected end of data") (.at pre s) := by
  simp [ensure, EStateM.bind_apply, h]

theorem readU8_reads (b : UInt8) : Reads readU8 [b] b := by
  intro pre rest
  have h : 1 ≤ (b :: rest).length := by simp
  simp [readU8, EStateM.bind_ok (ensure_at h), EStateM.bind_apply, EStateM.map_apply, ← at_advance]

theorem readU16_reads (v : UInt16) : Reads readU16 (u16ToBeBytes v) v := by
  intro pre rest
  have h : 2 ≤ (u16ToBeBytes v ++ rest).length := by simp [u16ToBeBytes]
  simp [readU16, EStateM.bind_ok (ensure_at h), EStateM.bind_apply, EStateM.map_apply,
    ← at_advance]
  simp [u16ToBeBytes, u16FromBeBytes_toBeBytes]

theorem readU32_reads (v : UInt32) : Reads readU32 (u32ToBeBytes v) v := by
  intro pre rest
  have h : 4 ≤ (u32ToBeBytes v ++ rest).length := by simp [u32ToBeBytes]
  simp [readU32, EStateM.bind_ok (ensure_at h), EStateM.bind_apply, EStateM.map_apply,
    ← at_advance]
  simp [u32ToBeBytes, u32FromBeBytes_toBeBytes]

theorem readBytes_reads (bytes : Bytes) : Reads (readBytes bytes.length) bytes bytes := by
  intro pre rest
  have h : bytes.length ≤ (bytes ++ rest).length := by simp
  simp [readBytes, EStateM.bind_ok (ensure_at h), EStateM.bind_apply, EStateM.map_apply,
    ← at_advance]

theorem toUInt32_and_127 (h : n < 128) :
    (UInt8.ofNat n).toUInt32 &&& 0x7F = UInt32.ofNat n ∧
      (UInt8.ofNat (n + 128)).toUInt32 &&& 0x7F = UInt32.ofNat n := by
  constructor <;> apply UInt32.toNat_inj.mp <;> rw [UInt32.toNat_and_127] <;> simp <;> omega

theorem readVariableInt_go_reads_of_lt {n rounds value multiplier : Nat} (h : n < 128) :
    Reads (readVariableInt.go (rounds + 1) (.ofNat value) (.ofNat multiplier)) (Base128.encode n)
      (.ofNat (value + n * multiplier)) := by
  have hb : UInt8.ofNat n &&& 0x80 = 0 := by rw [UInt8.and_128_eq_zero_iff]; simp; omega
  rw [Base128.encode_of_lt h, readVariableInt.go]
  refine .bind_checks (readU8_reads _) ?_
  simp [hb, (toUInt32_and_127 h).left, Reads]

-- Before the last of `rounds + 1` rounds the multiplier is still below its bound.
theorem readVariableInt_go_reads {n rounds value multiplier : Nat}
    (hn : n < 128 ^ (rounds + 1)) (hm : multiplier * 128 ^ (rounds + 1) = 128 ^ 4) :
    Reads (readVariableInt.go (rounds + 1) (.ofNat value) (.ofNat multiplier)) (Base128.encode n)
      (.ofNat (value + n * multiplier)) := by
  induction rounds generalizing n value multiplier
  case zero => exact readVariableInt_go_reads_of_lt (by simpa using hn)
  case succ rounds ih =>
    by_cases h : n < 128
    case pos => exact readVariableInt_go_reads_of_lt h
    case neg =>
      have hb : ¬UInt8.ofNat (n % 128 + 128) &&& 0x80 = 0 := by
        rw [UInt8.and_128_eq_zero_iff]; simp; omega
      have hk : multiplier * 128 * 128 ^ (rounds + 1) = 128 ^ 4 := by rw [← hm]; ring
      have hm' : multiplier * 128 ≤ 128 ^ 3 := by
        have := Nat.mul_le_mul_left (multiplier * 128) (Nat.pow_le_pow_right (by decide : 0 < 128)
          (by omega : 1 ≤ rounds + 1))
        omega
      have hc : ¬2097152 < UInt32.ofNat multiplier * 128 := by
        rw [UInt32.lt_iff_toNat_lt]; simp; omega
      have hr : Reads
          (readVariableInt.go (rounds + 1) (.ofNat (value + n % 128 * multiplier))
            (.ofNat (multiplier * 128)))
          (Base128.encode (n / 128))
          (.ofNat (value + n % 128 * multiplier + n / 128 * (multiplier * 128))) :=
        ih (by rw [Nat.pow_succ] at hn; omega) hk
      have he : value + n % 128 * multiplier + n / 128 * (multiplier * 128) = value + n * multiplier := by
        calc
          _ = value + (128 * (n / 128) + n % 128) * multiplier := by ring
          _ = _ := by rw [Nat.div_add_mod]
      rw [he] at hr
      rw [Base128.encode_of_le (by omega), readVariableInt.go]
      refine .bind (s := [_]) (readU8_reads _) ?_
      simp only [hb, if_false, (toUInt32_and_127 (Nat.mod_lt n (by decide))).right]
      simp at hr
      simp
      rwa [if_neg hc]

theorem readVariableInt_reads (h : n ≤ 268435455) :
    Reads readVariableInt (Base128.encode n) (.ofNat n) := by
  have hr : Reads (readVariableInt.go 4 (.ofNat 0) (.ofNat 1)) (Base128.encode n) (.ofNat (0 + n * 1)) :=
    readVariableInt_go_reads (by omega) rfl
  rwa [Nat.zero_add, Nat.mul_one] at hr

theorem readString_reads (hl : (utf8 s).length ≤ 65535) (h0 : 0 ∉ utf8 s) :
    Reads readString (u16ToBeBytes (.ofNat (utf8 s).length) ++ utf8 s) s := by
  refine .bind (readU16_reads _) ?_
  have hn : (UInt16.ofNat (utf8 s).length).toNat = (utf8 s).length := by simp; omega
  rw [hn]
  refine .bind_checks (readBytes_reads _) ?_
  simp [h0, Reads]

theorem readBinary_reads (hl : data.length ≤ 65535) :
    Reads readBinary (u16ToBeBytes (.ofNat data.length) ++ data) data := by
  refine .bind (readU16_reads _) ?_
  have hn : (UInt16.ofNat data.length).toNat = data.length := by simp; omega
  rw [hn]
  exact readBytes_reads data

end Cursor
end MqttWasi
