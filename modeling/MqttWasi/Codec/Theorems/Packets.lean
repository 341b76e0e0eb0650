import MqttWasi.Codec.Packet
import MqttWasi.Codec.Theorems.Properties
import MqttWasi.Codec.Theorems.FixedHeader

namespace MqttWasi

open Cursor (Reads readU8_reads readU16_reads readString_reads)

namespace PublishPacket

theorem flags_decoded (packet : PublishPacket) :
    packet.flags ≤ 0x0F ∧ ((packet.flags >>> 1) &&& 0x03 = packet.qos.toU8) ∧
      (decide (packet.flags &&& 0x08 ≠ 0) = packet.dup) ∧
      (decide (packet.flags &&& 0x01 ≠ 0) = packet.retain) := by
  have ⟨_, _, _, qos, retain, dup, _⟩ := packet
  cases qos <;> cases retain <;> cases dup <;> simp [flags, QoS.toU8] <;> decide

-- The packet identifiers that an encoder accepts for a quality of service.
def HasValidId (packet : PublishPacket) : Prop :=
  match packet.qos, packet.packetId with
  | .atMostOnce, none     => True
  | .atLeastOnce, some id => id ≠ 0
  | _, _                  => False

theorem encode_eq_ok {packet : PublishPacket} :
    packet.encode = .ok bytes ↔ packet.HasValidId ∧
      ∃ body, packet.encodeBody [] = .ok ⟨⟩ body ∧
        withFixedHeader .publish packet.flags body [] = .ok ⟨⟩ bytes := by
  simp only [← EncodeM.bytes_eq_ok, ← Except.bind_eq_ok]
  unfold encode HasValidId
  cases packet.qos <;> cases packet.packetId
  case atLeastOnce.some id =>
    by_cases h0 : id = 0
    case pos => subst h0; simp
    case neg => simp [h0]
  all_goals simp

-- The bytes between the topic and the properties.
def idBytes (packet : PublishPacket) : Bytes :=
  packet.packetId.elim [] u16ToBeBytes

theorem decodePacketId_reads {packet : PublishPacket} (h : packet.HasValidId) :
    Reads (decode.decodePacketId packet.qos) packet.idBytes packet.packetId := by
  unfold HasValidId at h
  unfold idBytes decode.decodePacketId
  cases hq : packet.qos <;> cases hi : packet.packetId <;> simp [hq, hi] at h ⊢
  case atMostOnce.none => exact .pure none
  case atLeastOnce.some id =>
    refine .bind_checks (readU16_reads id) ?_
    simp [h, Reads]

theorem encodeBody_decoded {packet : PublishPacket} (hi : packet.HasValidId)
    (he : packet.encodeBody [] = .ok u body) (hl : body.length < 2 ^ 32) :
    decode packet.flags body = .ok packet := by
  simp only [encodeBody, EStateM.bind_eq_ok, check_eq_ok, encodeString_eq_ok] at he
  obtain ⟨_, _, ⟨ht, rfl⟩, _, _, ⟨htl, ht0, rfl⟩, he⟩ := he
  have htopic := readString_reads htl ht0
  generalize u16ToBeBytes (.ofNat (utf8 packet.topic).length) ++ utf8 packet.topic = topic at *
  have he : (do packet.properties.encodeFor .publish; extend packet.payload) (topic ++ packet.idBytes)
      = .ok u body := by
    cases hid : packet.packetId <;> simpa [hid, idBytes, EStateM.bind_apply] using he
  obtain ⟨_, _, hp, hb⟩ := EStateM.bind_eq_ok.mp he
  obtain ⟨props, hpb, hpr⟩ := Properties.encodeInner_reads hp
  have hbody : body = topic ++ (packet.idBytes ++ (props ++ packet.payload)) := by
    simp at hb; simp [← hb, hpb]
  have hprops := hpr (by simp [hbody] at hl; omega)
  obtain ⟨_, hq, hdup, hret⟩ := packet.flags_decoded
  rw [decode, ← Cursor.at_nil, hbody, decode.go, hq, QoS.fromU8_toU8, EStateM.bind_ok (check_ok _ _),
    EStateM.bind_ok (htopic _ _), ht, EStateM.bind_ok (check_ok _ _),
    EStateM.bind_ok (decodePacketId_reads hi _ _), Properties.decodeFor,
    EStateM.bind_ok (hprops _ _)]
  simp [EStateM.bind_apply]
  simp at hdup hret
  simp [hdup, hret]

-- What is decoded has an identifier exactly if it needs one.
theorem decode_hasValidId {packet : PublishPacket} {flags : UInt8}
    (h : decode flags body = .ok packet) :
    packet.HasValidId := by
  unfold decode at h
  cases hg : decode.go flags { buf := body } <;> simp [hg] at h
  subst h
  simp only [decode.go, EStateM.bind_eq_ok] at hg
  have ⟨qos, _, _, _, _, _, _, _, _, packetId, _, hi, _, _, _, _, _, _, hp⟩ := hg
  simp only [EStateM.pure_apply, EStateM.Result.ok.injEq] at hp
  cases hp.left
  unfold HasValidId
  cases qos
  case atMostOnce =>
    simp [decode.decodePacketId] at hi
    simp [← hi.left]
  case atLeastOnce =>
    simp only [decode.decodePacketId, EStateM.bind_eq_ok, ne_eq, reduceCtorEq, not_false_eq_true,
      if_true] at hi
    have ⟨id, _, _, hi⟩ := hi
    by_cases h0 : id = 0 <;> simp [h0, EStateM.bind_apply] at hi
    simp [← hi.left, h0]

end PublishPacket

namespace PubAckPacket

theorem encode_eq_ok {packet : PubAckPacket} (he : packet.encode = .ok bytes) :
    packet.packetId ≠ 0 ∧ isPubackReasonCode packet.reasonCode ∧
      withFixedHeader .pubAck 0 (u16ToBeBytes packet.packetId ++
        if packet.reasonCode = 0 then [] else [packet.reasonCode]) [] = .ok ⟨⟩ bytes := by
  unfold encode at he
  by_cases h0 : packet.packetId = 0 <;> by_cases hr : isPubackReasonCode packet.reasonCode
    <;> simp [h0, hr] at he
  refine ⟨h0, hr, ?_⟩
  have he := EncodeM.bytes_eq_ok.mp he
  by_cases hc : packet.reasonCode = 0 <;> simp only [hc, if_true, if_false] at he
  case pos => simpa [hc, withFixedHeader, u16ToBeBytes, EStateM.bind_apply] using he
  case neg => simpa [hc, withFixedHeader, u16ToBeBytes, EStateM.bind_apply] using he

theorem encode_success {packetId : UInt16} (h : packetId ≠ 0) :
    encode { packetId, reasonCode := 0x00 } = .ok (0x40 :: 0x02 :: u16ToBeBytes packetId) := by
  have hr : isPubackReasonCode 0 = true := rfl
  have hb : Base128.encode 2 = [2] := Base128.encode_of_lt (by decide)
  have hf : encodeFixedHeader .pubAck 0 2 [] = .ok ⟨⟩ [0x40, 0x02] :=
    encodeFixedHeader_eq_ok.mpr ⟨by decide, rfl, by decide, by simp [hb]; decide⟩
  simp [encode, h, hr, EncodeM.bytes_eq_ok, EStateM.bind_ok hf]

theorem decode_body {packet : PubAckPacket} (h0 : packet.packetId ≠ 0)
    (hr : isPubackReasonCode packet.reasonCode) :
    decode (u16ToBeBytes packet.packetId ++
      if packet.reasonCode = 0 then [] else [packet.reasonCode]) = .ok packet := by
  have hid := readU16_reads packet.packetId [] (if packet.reasonCode = 0 then [] else [packet.reasonCode])
  rw [decode, ← Cursor.at_nil, decode.go, EStateM.bind_ok hid]
  by_cases hc : packet.reasonCode = 0
  case pos =>
    rw [hc] at hr
    simp [hc, h0, hr, EStateM.bind_apply]
    simp [← hc]
  case neg =>
    have hrc := readU8_reads packet.reasonCode (u16ToBeBytes packet.packetId) []
    simp at hrc
    simp [hc, h0, hr, hrc, EStateM.bind_apply]

end PubAckPacket

namespace DisconnectPacket

theorem encode_eq_ok {packet : DisconnectPacket} (he : packet.encode = .ok bytes) :
    isDisconnectReasonCode packet.reasonCode ∧
      withFixedHeader .disconnect 0 (if packet.reasonCode = 0 then [] else [packet.reasonCode]) [] =
        .ok ⟨⟩ bytes := by
  unfold encode at he
  by_cases hr : isDisconnectReasonCode packet.reasonCode <;> simp [hr] at he
  refine ⟨hr, ?_⟩
  have he := EncodeM.bytes_eq_ok.mp he
  by_cases hc : packet.reasonCode = 0 <;> simp only [hc, if_true, if_false] at he
  case pos =>
    have he := encodeFixedHeader_eq_ok.mp he
    simpa [hc, withFixedHeader_eq_ok, eq_comm] using he
  case neg => simpa [hc, withFixedHeader, EStateM.bind_apply] using he

theorem decode_body {packet : DisconnectPacket} (hr : isDisconnectReasonCode packet.reasonCode) :
    decode (if packet.reasonCode = 0 then [] else [packet.reasonCode]) = .ok packet := by
  rw [decode, ← Cursor.at_nil, decode.go]
  by_cases hc : packet.reasonCode = 0
  case pos =>
    rw [hc] at hr
    simp [hc, hr, EStateM.bind_apply]
    simp [← hc]
  case neg =>
    have hrc := readU8_reads packet.reasonCode [] []
    simp at hrc
    simp [hc, hr, hrc, EStateM.bind_apply]

end DisconnectPacket

namespace Packet

-- What a decoder of the stream needs to get a packet of which an encoding arrives.
theorem Encodes.decoded (h : Encodes packet bytes) (hl : bytes.length < 2 ^ 32) :
    ∃ header headerLen, headerLen + header.remainingLength.toNat = bytes.length ∧
      (∀ rest, decodeFixedHeader (bytes ++ rest) = .ok (header, headerLen)) ∧
      decode header (bytes.drop headerLen) = .ok packet := by
  cases h
  case publish packet he =>
    have ⟨hi, body, hb, hw⟩ := PublishPacket.encode_eq_ok.mp he
    have ⟨headerLen, hlen, hdrop, hdec, hv, hn⟩ := withFixedHeader_decoded hw hl
    refine ⟨_, headerLen, by rw [hn, hlen], hdec, ?_⟩
    have hbody := PublishPacket.encodeBody_decoded hi hb (by omega)
    rw [hdrop, decode, hv]
    simp [hn, hbody]
  case pubAck packet he =>
    have ⟨h0, hr, hw⟩ := PubAckPacket.encode_eq_ok he
    have ⟨headerLen, hlen, hdrop, hdec, hv, hn⟩ := withFixedHeader_decoded hw hl
    refine ⟨_, headerLen, by rw [hn, hlen], hdec, ?_⟩
    have hbody := PubAckPacket.decode_body h0 hr
    rw [hdrop, decode, hv, hbody]
    simp only [hn, ne_eq, not_true, if_false]
    rfl
  case disconnect packet he =>
    have ⟨hr, hw⟩ := DisconnectPacket.encode_eq_ok he
    have ⟨headerLen, hlen, hdrop, hdec, hv, hn⟩ := withFixedHeader_decoded hw hl
    refine ⟨_, headerLen, by rw [hn, hlen], hdec, ?_⟩
    have hbody := DisconnectPacket.decode_body hr
    rw [hdrop, decode, hv, hbody]
    simp only [hn, ne_eq, not_true, if_false]
    rfl

theorem decode_publish {packet : PublishPacket} (h : decode header body = .ok (.publish packet)) :
    packet.HasValidId := by
  simp only [decode, Except.bind_eq_ok] at h
  have ⟨_, _, h⟩ := h
  split at h
  case isTrue => simp at h
  case isFalse =>
    split at h
    case h_2 =>
      have ⟨packet', hd, hp⟩ := Except.bind_eq_ok.mp h
      cases hp
      exact PublishPacket.decode_hasValidId hd
    case h_6 | h_8 => split at h <;> simp [pure, Except.pure] at h
    all_goals simp [Except.bind_eq_ok, pure, Except.pure] at h

end Packet
end MqttWasi
