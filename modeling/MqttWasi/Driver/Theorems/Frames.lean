import MqttWasi.Driver.Broker
import MqttWasi.Codec.Theorems.Sizes

-- What a broker makes of the frames that the driver puts in its queue.

namespace MqttWasi

theorem splitFrame_withFixedHeader (h : withFixedHeader t flags body [] = .ok u bytes)
    (hl : bytes.length < 2 ^ 32) :
    splitFrame bytes = some (⟨t, flags, .ofNat body.length⟩, body) := by
  have ⟨headerLen, hlen, hdrop, hdec, _, hn⟩ := withFixedHeader_decoded h hl
  have hdec := hdec []
  rw [List.append_nil] at hdec
  simp only [splitFrame, hdec, hn, hlen, if_true, hdrop]

theorem expectedAck_of_split (h : splitFrame bytes = some (header, body))
    (ht : header.packetType ≠ .publish ∧ header.packetType ≠ .subscribe ∧
      header.packetType ≠ .unsubscribe) : expectedAck bytes = none := by
  simp only [expectedAck, h, Option.bind_some]
  split
  case h_1 he => exact absurd he ht.left
  case h_2 he => exact absurd he ht.right.left
  case h_3 he => exact absurd he ht.right.right
  case h_4 => rfl

theorem pubackId_of_type (h : packetTypeOf bytes = some t) (ht : t ≠ .pubAck) :
    pubackId bytes = none := by
  have ⟨_, hs, he⟩ := Option.map_eq_some_iff.mp h
  simp only [pubackId, hs, Option.bind_some, he, if_neg ht]

theorem leadingId_u16 (packetId : UInt16) (rest : Bytes) :
    expectedAck.leadingId (u16ToBeBytes packetId ++ rest) = some packetId := by
  have h := Cursor.readU16_reads packetId [] rest
  rw [Cursor.at_nil] at h
  rw [expectedAck.leadingId, h]
  rfl

-- A frame that is a packet of a certain type and asks for a certain acknowledgement, or for none.
structure Asks (bytes : Bytes) (t : PacketType) (ack : Option (AckClass × UInt16)) : Prop where
  typed : packetTypeOf bytes = some t
  ne_nil : bytes ≠ []
  asks : expectedAck bytes = ack

theorem Asks.of_withFixedHeader {ack : Option (AckClass × UInt16)}
    (h : withFixedHeader t flags body [] = .ok u bytes)
    (hl : bytes.length < 2 ^ 32) (ha : expectedAck bytes = ack) : Asks bytes t ack where
  typed := by simp [packetTypeOf, splitFrame_withFixedHeader h hl]
  ne_nil := List.ne_nil_of_length_pos (by have := withFixedHeader_length h; omega)
  asks := ha

theorem PublishPacket.asks {packet : PublishPacket} (h : packet.encode = .ok bytes)
    (hl : bytes.length < 2 ^ 32) : Asks bytes .publish (packet.packetId.map (.publish, ·)) := by
  have ⟨hi, body, hb, hw⟩ := encode_eq_ok.mp h
  have hlen := withFixedHeader_length hw
  have hd := encodeBody_decoded hi hb (by omega)
  refine .of_withFixedHeader hw hl ?_
  simp [expectedAck, splitFrame_withFixedHeader hw hl, expectedAck.publishId, hd]
  rfl

theorem SubscribePacket.asks {packet : SubscribePacket} (h : packet.encode = .ok bytes)
    (hl : bytes.length < 2 ^ 32) : Asks bytes .subscribe (some (.subscribe, packet.packetId)) := by
  have ⟨rest, hw⟩ := encode_eq_ok h
  refine .of_withFixedHeader hw hl ?_
  simp [expectedAck, splitFrame_withFixedHeader hw hl, leadingId_u16]

theorem UnsubscribePacket.asks {packet : UnsubscribePacket} (h : packet.encode = .ok bytes)
    (hl : bytes.length < 2 ^ 32) :
    Asks bytes .unsubscribe (some (.unsubscribe, packet.packetId)) := by
  have ⟨rest, hw⟩ := encode_eq_ok h
  refine .of_withFixedHeader hw hl ?_
  simp [expectedAck, splitFrame_withFixedHeader hw hl, leadingId_u16]

theorem pingreqBytes_asks : Asks pingreqBytes .pingReq none := by
  have hs : splitFrame pingreqBytes = some (⟨.pingReq, 0, 0⟩, []) := by decide
  exact ⟨by simp [packetTypeOf, hs], by decide, expectedAck_of_split hs (by decide)⟩

-- `DisconnectPacket { reason_code: 0x00 }.encode()`
def disconnectBytes : Bytes := [0xE0, 0x00]

theorem DisconnectPacket.encode_normal : encode { reasonCode := 0x00 } = .ok disconnectBytes := by
  decide

theorem disconnectBytes_asks : Asks disconnectBytes .disconnect none := by
  have hs : splitFrame disconnectBytes = some (⟨.disconnect, 0, 0⟩, []) := by decide
  exact ⟨by simp [packetTypeOf, hs], by decide, expectedAck_of_split hs (by decide)⟩

theorem PubAckPacket.asks {packet : PubAckPacket} (h : packet.encode = .ok bytes)
    (hl : bytes.length < 2 ^ 32) : Asks bytes .pubAck none := by
  have ⟨_, _, hw⟩ := encode_eq_ok h
  exact .of_withFixedHeader hw hl
    (expectedAck_of_split (splitFrame_withFixedHeader hw hl) ⟨nofun, nofun, nofun⟩)

theorem PubAckPacket.pubackId_encoded {packet : PubAckPacket} (h : packet.encode = .ok bytes)
    (hl : bytes.length < 2 ^ 32) : pubackId bytes = some packet.packetId := by
  have ⟨h0, hr, hw⟩ := encode_eq_ok h
  simp only [pubackId, splitFrame_withFixedHeader hw hl, Option.bind_some, if_true,
    decode_body h0 hr]
  rfl

-- A broker reads the topic filter that was written.

theorem readFilter_apply {props : Bytes} (hp : props.length < 2 ^ 32 →
      Cursor.Reads (Properties.decodeInner (some context)) props {})
    (hl : props.length < 2 ^ 32) (hs : (utf8 filter).length ≤ 65535) (h0 : 0 ∉ utf8 filter)
    (packetId : UInt16) (rest : Bytes) :
    (topicFilter.readFilter context rest.length { buf := u16ToBeBytes packetId ++ (props ++
      (u16ToBeBytes (.ofNat (utf8 filter).length) ++ utf8 filter ++ rest)) }).value =
        .ok filter := by
  rw [← Cursor.at_nil, topicFilter.readFilter,
    EStateM.bind_ok (EStateM.discard_ok (Cursor.readU16_reads packetId _ _)),
    Properties.decodeFor, EStateM.bind_ok (EStateM.discard_ok (hp hl _ _)),
    EStateM.bind_ok (Cursor.readString_reads hs h0 _ _), EStateM.bind_ok (EStateM.get_apply _)]
  simp [EStateM.Result.value]

theorem SubscribePacket.topicFilter_encoded {packetId : UInt16} {qos : QoS}
    (h : encode { packetId, filters := [(filter, qos)], properties := {} } = .ok bytes)
    (hl : bytes.length < 2 ^ 32) : topicFilter bytes = some filter := by
  unfold encode at h
  split at h <;> try split at h
  case isFalse.isFalse =>
    have ⟨body, hb, hw⟩ := Except.bind_eq_ok.mp h
    have hw := EncodeM.bytes_eq_ok.mp hw
    have hb := EncodeM.bytes_eq_ok.mp hb
    simp only [encodeBody, encodeFilters, EStateM.bind_eq_ok, check_eq_ok, encodeString_eq_ok] at hb
    have ⟨_, _, hi, _, _, hp, _, _, ⟨_, rfl⟩, _, _, ⟨hs, h0, rfl⟩, _, _, hx, hr⟩ := hb
    cases hi
    cases hx
    cases hr
    have ⟨props, he, hread⟩ := Properties.encodeInner_reads hp
    subst he
    have hlen := withFixedHeader_length hw
    have hpl : props.length < 2 ^ 32 := by simp at hlen; omega
    have hf := readFilter_apply hread hpl hs h0 packetId [qos.toU8]
    simp only [topicFilter, splitFrame_withFixedHeader hw hl, Option.bind_some]
    simp only [List.append_assoc, List.nil_append, List.length_singleton] at hf ⊢
    rw [hf]
    rfl
  all_goals cases h

-- A frame asks for nothing that a broker with these capabilities does not support.
structure Allowed (capabilities : ServerCapabilities) (bytes : Bytes) : Prop where
  publish : packetTypeOf bytes = some .publish → ∃ packet, messageOf bytes = some packet ∧
    capabilities.validatePublish packet.qos packet.retain = .ok ()
  subscribe : packetTypeOf bytes = some .subscribe → ∃ filter, topicFilter bytes = some filter ∧
    (hasWildcard filter.toList = true → capabilities.wildcardSubscriptionsAvailable = true) ∧
    (sharePrefix.isPrefixOf filter.toList = true → capabilities.sharedSubscriptionsAvailable = true)

theorem Allowed.of_type (h : packetTypeOf bytes = some t) (hp : t ≠ .publish)
    (hs : t ≠ .subscribe) (capabilities) : Allowed capabilities bytes where
  publish ht := absurd (Option.some.inj (h.symm.trans ht)) hp
  subscribe ht := absurd (Option.some.inj (h.symm.trans ht)) hs

theorem PublishPacket.messageOf_encoded {packet : PublishPacket} (h : packet.encode = .ok bytes)
    (hl : bytes.length < 2 ^ 32) : messageOf bytes = some packet := by
  have ⟨hi, body, hb, hw⟩ := encode_eq_ok.mp h
  have hlen := withFixedHeader_length hw
  have hd := encodeBody_decoded hi hb (by omega)
  simp [messageOf, splitFrame_withFixedHeader hw hl, hd]
  rfl

theorem PublishPacket.allowed {packet : PublishPacket} (h : packet.encode = .ok bytes)
    (hl : bytes.length < 2 ^ 32)
    (hv : ServerCapabilities.validatePublish capabilities packet.qos packet.retain = .ok ()) :
    Allowed capabilities bytes where
  publish _ := ⟨packet, messageOf_encoded h hl, hv⟩
  subscribe ht := nomatch (asks h hl).typed.symm.trans ht

theorem SubscribePacket.allowed {packetId : UInt16} {qos : QoS} {capabilities : ServerCapabilities}
    (h : encode { packetId, filters := [(filter, qos)], properties := {} } = .ok bytes)
    (hl : bytes.length < 2 ^ 32)
    (hw : hasWildcard filter.toList = true → capabilities.wildcardSubscriptionsAvailable = true)
    (hs : sharePrefix.isPrefixOf filter.toList = true →
      capabilities.sharedSubscriptionsAvailable = true) : Allowed capabilities bytes where
  publish ht := nomatch (asks h hl).typed.symm.trans ht
  subscribe _ := ⟨filter, topicFilter_encoded h hl, hw, hs⟩

theorem ServerCapabilities.validateSubscriptionFilter_ok {capabilities : ServerCapabilities}
    (h : capabilities.validateSubscriptionFilter filter = .ok ()) :
    (hasWildcard filter.toList = true → capabilities.wildcardSubscriptionsAvailable = true) ∧
    (sharePrefix.isPrefixOf filter.toList = true →
      capabilities.sharedSubscriptionsAvailable = true) := by
  unfold validateSubscriptionFilter at h
  have ⟨_, _, h⟩ := Except.bind_eq_ok.mp h
  split at h
  case isTrue => split at h <;> cases h
  case isFalse hw =>
    split at h
    case isTrue => cases h
    case isFalse hs =>
      refine ⟨fun he => ?_, fun he => ?_⟩
      case refine_1 => simpa [he] using hw
      case refine_2 => simpa [he] using hs

end MqttWasi
