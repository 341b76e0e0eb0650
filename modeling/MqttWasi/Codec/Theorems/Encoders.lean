import MqttWasi.Codec.Theorems.Primitives

namespace MqttWasi

-- When each of the basic encoders succeeds, and what it appends.

@[simp]
theorem check_ok (a : α) (s : σ) : check (.ok a) s = .ok a s :=
  rfl

@[simp]
theorem check_error (e : Error) (s : σ) : (check (.error e) : EStateM Error σ α) s = .error e s :=
  rfl

theorem check_eq_ok {r : Except Error α} {s s' : σ} :
    check r s = .ok a s' ↔ r = .ok a ∧ s' = s := by
  cases r <;> simp [check, eq_comm]

theorem check_eq_error {r : Except Error α} {s s' : σ} :
    check r s = .error e s' ↔ r = .error e ∧ s' = s := by
  cases r <;> simp [check, eq_comm]

@[simp]
theorem extend_apply (bytes buf : Bytes) : extend bytes buf = .ok ⟨⟩ (buf ++ bytes) :=
  rfl

theorem EncodeM.bytes_eq_ok {e : EncodeM Unit} : e.bytes = .ok b ↔ e [] = .ok ⟨⟩ b := by
  unfold EncodeM.bytes
  split <;> simp_all

theorem encodeVariableInt_go_apply {v : UInt32} {rounds : Nat} (h : v.toNat < 128 ^ rounds)
    (hr : 0 < rounds) (buf : Bytes) :
    encodeVariableInt.go rounds v buf = .ok ⟨⟩ (buf ++ Base128.encode v.toNat) := by
  induction rounds generalizing v buf
  case zero => omega
  case succ rounds ih =>
    have hs := UInt32.toNat_shiftRight_7 v
    have hb : (v &&& 0x7F).toUInt8 = UInt8.ofNat (v.toNat % 128) := by
      apply UInt8.toNat_inj.mp
      rw [UInt32.toNat_toUInt8, UInt32.toNat_and_127, UInt8.toNat_ofNat']
    by_cases hv : v.toNat < 128
    case pos =>
      have hz : v >>> 7 = 0 := UInt32.toNat_inj.mp (by simp [hs]; omega)
      have hm : v.toNat % 128 = v.toNat := by omega
      simp [encodeVariableInt.go, hz, Base128.encode_of_lt hv, hb, hm]
    case neg =>
      have hz : v >>> 7 ≠ 0 := by intro hc; simp [hc] at hs; omega
      have hp : (0 : UInt32) < v >>> 7 := by rw [UInt32.lt_iff_toNat_lt, hs]; simp; omega
      cases rounds
      case zero => omega
      case succ rounds =>
        have hl : (v >>> 7).toNat < 128 ^ (rounds + 1) := by rw [hs]; rw [Nat.pow_succ] at h; omega
        have hor := UInt8.or_128_of_lt (Nat.mod_lt v.toNat (by decide : 0 < 128))
        rw [encodeVariableInt.go]
        simp [hz, hp, EStateM.bind_apply, Base128.encode_of_le (Nat.not_lt.mp hv), hb]
        rw [ih hl (by omega), hs]
        simp at hor
        simp [hor]

theorem encodeVariableInt_eq_ok {v : UInt32} {buf buf' : Bytes} :
    encodeVariableInt v buf = .ok u buf' ↔
      v.toNat ≤ 268435455 ∧ buf' = buf ++ Base128.encode v.toNat := by
  have hc : v > variableIntMax ↔ 268435455 < v.toNat := by
    simp [variableIntMax, UInt32.lt_iff_toNat_lt]
  unfold encodeVariableInt
  by_cases h : v > variableIntMax <;> simp [h, EStateM.bind_apply] <;> rw [hc] at h
  case pos => omega
  case neg =>
    rw [encodeVariableInt_go_apply (by omega) (by omega)]
    simp [eq_comm]
    omega

theorem encodeString_eq_ok {s : String} {buf buf' : Bytes} :
    encodeString s buf = .ok u buf' ↔ (utf8 s).length ≤ 65535 ∧ 0 ∉ utf8 s ∧
      buf' = buf ++ (u16ToBeBytes (.ofNat (utf8 s).length) ++ utf8 s) := by
  unfold encodeString
  by_cases h : (utf8 s).length > 65535 <;> by_cases h0 : 0 ∈ utf8 s
    <;> simp [h, h0, EStateM.bind_apply, eq_comm]
  omega

theorem encodeBinary_eq_ok {data buf buf' : Bytes} :
    encodeBinary data buf = .ok u buf' ↔ data.length ≤ 65535 ∧
      buf' = buf ++ (u16ToBeBytes (.ofNat data.length) ++ data) := by
  unfold encodeBinary
  by_cases h : data.length > 65535 <;> simp [h, EStateM.bind_apply, eq_comm]
  omega

@[simp]
theorem encodeU16_apply (v : UInt16) (buf : Bytes) :
    encodeU16 v buf = .ok ⟨⟩ (buf ++ u16ToBeBytes v) :=
  rfl

theorem encodeFixedHeader_eq_ok {t : PacketType} {flags : UInt8} {len : UInt32} {buf buf' : Bytes} :
    encodeFixedHeader t flags len buf = .ok u buf' ↔
      flags ≤ 0x0F ∧ validateFixedHeader ⟨t, flags, len⟩ = .ok () ∧ len.toNat ≤ 268435455 ∧
        buf' = buf ++ ((t.toU8 <<< 4 ||| flags) :: Base128.encode len.toNat) := by
  unfold encodeFixedHeader
  by_cases h : flags > 0x0F
  case pos =>
    have : ¬flags ≤ 0x0F := UInt8.not_le.mpr h
    simp [h, this, EStateM.bind_apply]
  case neg =>
    have : flags ≤ 0x0F := UInt8.not_lt.mp h
    cases hv : validateFixedHeader ⟨t, flags, len⟩
      <;> simp [h, this, EStateM.bind_apply, encodeVariableInt_eq_ok]

theorem withFixedHeader_eq_ok {t : PacketType} {flags : UInt8} {body buf buf' : Bytes} :
    withFixedHeader t flags body buf = .ok u buf' ↔
      flags ≤ 0x0F ∧ validateFixedHeader ⟨t, flags, .ofNat body.length⟩ = .ok () ∧
        body.length % 2 ^ 32 ≤ 268435455 ∧
        buf' = buf ++ ((t.toU8 <<< 4 ||| flags) :: Base128.encode (body.length % 2 ^ 32) ++ body) := by
  simp [withFixedHeader, EStateM.bind_eq_ok, encodeFixedHeader_eq_ok, and_assoc]
  simp [eq_comm]

end MqttWasi
