import MqttWasi.Codec.Theorems.Grammar
import MqttWasi.Codec.Theorems.Packets
import MqttWasi.Frame.Reader

-- What is encoded is as long as it is said to be, and is decoded again.

namespace MqttWasi

open Cursor (Reads)

theorem variableIntLen_eq {v : UInt32} (h : v.toNat ≤ 268435455) :
    variableIntLen v = (Base128.encode v.toNat).length := by
  have hl {n : Nat} (hn : 128 ≤ n) : (Base128.encode n).length = (Base128.encode (n / 128)).length + 1 := by
    rw [Base128.encode_of_le hn, List.length_cons]
  have h1 {n : Nat} (hn : n < 128) : (Base128.encode n).length = 1 := by
    rw [Base128.encode_of_lt hn, List.length_singleton]
  have hc : (v ≤ 127 ↔ v.toNat ≤ 127) ∧ (v ≤ 16383 ↔ v.toNat ≤ 16383) ∧
      (v ≤ 2097151 ↔ v.toNat ≤ 2097151) :=
    ⟨UInt32.le_iff_toNat_le, UInt32.le_iff_toNat_le, UInt32.le_iff_toNat_le⟩
  simp only [variableIntLen, hc]
  split
  case isTrue => rw [h1 (by omega)]
  case isFalse =>
    rw [hl (by omega)]
    split
    case isTrue => rw [h1 (by omega)]
    case isFalse =>
      rw [hl (by omega)]
      split
      case isTrue => rw [h1 (by omega)]
      case isFalse => rw [hl (by omega), h1 (by omega)]

namespace Properties

theorem valLen_eq {val : PropertyValue} (he : val.encode buf = .ok u buf') :
    buf'.length = buf.length + bodyLen.valLen val := by
  cases val <;> simp only [PropertyValue.encode, EStateM.bind_eq_ok, extend_apply, encodeU16_apply,
    encodeString_eq_ok, encodeBinary_eq_ok, EStateM.Result.ok.injEq] at he
  case byte b => simp [← he.right, bodyLen.valLen]
  case u16 v => simp [← he.right, bodyLen.valLen, u16ToBeBytes]
  case u32 v => simp [← he.right, bodyLen.valLen, u32ToBeBytes]
  case str s =>
    obtain ⟨_, _, hb⟩ := he
    simp [hb, bodyLen.valLen, stringLen, u16ToBeBytes]
    omega
  case binary data =>
    obtain ⟨_, hb⟩ := he
    simp [hb, bodyLen.valLen, binaryLen, u16ToBeBytes]
    omega
  case stringPair k v =>
    obtain ⟨_, _, ⟨_, _, hk⟩, _, _, hv⟩ := he
    simp [hv, hk, bodyLen.valLen, stringLen, u16ToBeBytes]
    omega

theorem encodeEntry_length {id : PropertyId} {val : PropertyValue}
    (he : encodeEntry context previous id val buf = .ok u buf') :
    buf'.length = buf.length + (variableIntLen id.toU8.toUInt32 + bodyLen.valLen val) := by
  unfold encodeEntry at he
  rw [EStateM.guarded_eq_ok] at he
  have ⟨_, _, hc, hd⟩ := EStateM.bind_eq_ok.mp he.right
  obtain ⟨_, rfl⟩ := check_eq_ok.mp hc
  dsimp only at hd
  rw [EStateM.guarded_eq_ok] at hd
  have ⟨_, _, hi, hv⟩ := EStateM.bind_eq_ok.mp hd.right
  obtain ⟨hm, rfl⟩ := encodeVariableInt_eq_ok.mp hi
  rw [valLen_eq hv, variableIntLen_eq hm, List.length_append, Nat.add_assoc]

theorem encodeEntries_length {entries previous : List (PropertyId × PropertyValue)}
    (he : encodeEntries context previous entries buf = .ok u buf') :
    buf'.length = buf.length + bodyLen ⟨entries⟩ := by
  induction entries generalizing previous buf
  case nil => cases he; simp [bodyLen]
  case cons entry entries ih =>
    have ⟨_, _, h₁, h₂⟩ := EStateM.bind_eq_ok.mp he
    rw [ih h₂, encodeEntry_length h₁]
    simp [bodyLen]
    omega

theorem encodeInner_length {props : Properties} (he : props.encodeInner context buf = .ok u buf') :
    buf'.length = buf.length + props.encodedLen := by
  have ⟨body, _, hc, he'⟩ := EStateM.bind_eq_ok.mp he
  obtain ⟨hb, rfl⟩ := check_eq_ok.mp hc
  have hl := encodeEntries_length (EncodeM.bytes_eq_ok.mp hb)
  have ⟨_, _, hv, hx⟩ := EStateM.bind_eq_ok.mp he'
  obtain ⟨hm, rfl⟩ := encodeVariableInt_eq_ok.mp hv
  cases hx
  rw [List.length_nil, Nat.zero_add] at hl
  rw [encodedLen, ← hl, variableIntLen_eq hm]
  simp

-- Properties that can be encoded for a context take as many bytes as their length says, and are
-- decoded for the same context unless they are longer than any packet.
theorem encodeInner_roundTrip {props : Properties}
    (he : props.encodeInner context buf = .ok u buf') :
    ∃ bytes, buf' = buf ++ bytes ∧ bytes.length = props.encodedLen ∧
      (bytes.length ≤ mqttMaxPacketSize → ∀ pre rest,
        decodeInner context (.at pre (bytes ++ rest)) = .ok props (.at (pre ++ bytes) rest)) := by
  have ⟨bytes, hb, hr⟩ := encodeInner_reads he
  refine ⟨bytes, hb, ?_, fun hl => hr ?_⟩
  case refine_1 =>
    have hl := encodeInner_length he
    rw [hb, List.length_append] at hl
    omega
  case refine_2 =>
    rw [mqttMaxPacketSize] at hl
    omega

-- The key of a user property may come twice.
theorem encodeInner_roundTrip_userProperties :
    let props := (((({} : Properties).push .sessionExpiryInterval (.u32 3600)).push .receiveMaximum (.u16 5)).user
      "k" "1").user "k" "2"
    let bytes' := [0x16, 0x11, 0x00, 0x00, 0x0E, 0x10, 0x21, 0x00, 0x05,
      0x26, 0x00, 0x01, 0x6B, 0x00, 0x01, 0x31, 0x26, 0x00, 0x01, 0x6B, 0x00, 0x01, 0x32]
    ∃ bytes, [0x3C] ++ bytes' = [0x3C] ++ bytes ∧ bytes.length = props.encodedLen ∧
      (bytes.length ≤ mqttMaxPacketSize → ∀ pre rest,
        decodeInner (some .connect) (.at pre (bytes ++ rest)) =
          .ok props (.at (pre ++ bytes) rest)) :=
  encodeInner_roundTrip (u := ()) rfl

end Properties
end MqttWasi
