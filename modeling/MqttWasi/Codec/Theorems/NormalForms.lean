import MqttWasi.Codec.Theorems.RoundTrips

-- A PUBLISH that has been decoded can be encoded again.

namespace MqttWasi

open Base128 (Number)
open Cursor (Accepts)

-- A smaller number takes no more groups.
theorem VariableInt.length_encode_le (hn : VariableInt bytes len) (h : n ≤ len.toNat) :
    n ≤ 268435455 ∧ (Base128.encode n).length ≤ bytes.length := by
  have hlt := hn.right.lt
  have hpow : 128 ^ bytes.length ≤ 128 ^ 4 := Nat.pow_le_pow_right (by decide) hn.left
  obtain ⟨k, hk⟩ := Nat.exists_eq_succ_of_ne_zero (List.length_pos_iff.mpr hn.right.ne_nil).ne'
  refine ⟨by omega, ?_⟩
  rw [hk] at hlt ⊢
  exact Base128.length_encode_le_of_lt (Nat.lt_of_le_of_lt h hlt)

-- The layout of a fixed header.
structure HeaderLayout (data : Bytes) (header : FixedHeader) (headerLen : Nat) : Prop where
  split : ∃ first lenBytes rest, data = first :: (lenBytes ++ rest) ∧
    PacketType.fromU8 (first >>> 4) = .ok header.packetType ∧ header.flags = first &&& 0x0F ∧
    VariableInt lenBytes header.remainingLength ∧ headerLen = 1 + lenBytes.length
  valid : validateFixedHeader header = .ok ()

theorem decodeFixedHeader_eq_ok :
    decodeFixedHeader data = .ok (header, headerLen) ↔ HeaderLayout data header headerLen := by
  have hr {r : EStateM.Result Error Cursor (FixedHeader × Nat)} :
      r.value = .ok (header, headerLen) ↔ ∃ cur, r = .ok (header, headerLen) cur := by
    cases r <;> simp
  rw [decodeFixedHeader, hr, decodeFixedHeader.go, ← Cursor.at_nil]
  constructor
  case mp =>
    rintro ⟨cur, h⟩
    obtain ⟨_, _, first, rfl, rfl, ht⟩ := Cursor.readU8_accepts.bind_ok.mp h
    obtain ⟨t, _, hc, hl⟩ := EStateM.bind_eq_ok.mp ht
    obtain ⟨hpt, rfl⟩ := check_eq_ok.mp hc
    obtain ⟨lenBytes, rest, len, rfl, hn, hf⟩ := Cursor.readVariableInt_accepts.bind_ok.mp hl
    obtain ⟨_, _, hc', hp⟩ := EStateM.bind_eq_ok.mp hf
    obtain ⟨hvalid, rfl⟩ := check_eq_ok.mp hc'
    cases hp
    exact ⟨⟨first, lenBytes, rest, rfl, hpt, rfl, hn, by simp [Nat.add_comm]⟩, hvalid⟩
  case mpr =>
    rintro ⟨⟨first, lenBytes, rest, rfl, ht, hf, hn, rfl⟩, hv⟩
    obtain ⟨t, flags, len⟩ := header
    refine ⟨.at ([first] ++ lenBytes) rest, Cursor.readU8_accepts.bind_ok.mpr
      ⟨[first], lenBytes ++ rest, first, rfl, rfl, ?_⟩⟩
    rw [ht, EStateM.bind_ok (check_ok _ _), Cursor.readVariableInt_accepts.bind_ok]
    refine ⟨lenBytes, rest, len, rfl, hn, ?_⟩
    dsimp only at hf ⊢
    rw [← hf, hv, EStateM.bind_ok (check_ok _ _)]
    simp [EStateM.bind_apply, Nat.add_comm]

-- A value is written as it was read.
theorem WireValue.Written.encode {value : PropertyValue} (h : WireValue.Written t bytes (.typed value))
    (buf : Bytes) : value.encode buf = .ok () (buf ++ bytes) := by
  cases h
  case byte v => simp [PropertyValue.encode]
  case u16 v => simp [PropertyValue.encode]
  case u32 v => simp [PropertyValue.encode]
  case str hs => exact encodeString_eq_ok.mpr ⟨hs.left, hs.right.left, by rw [hs.right.right]⟩
  case binary hd => exact encodeBinary_eq_ok.mpr ⟨hd.left, by rw [hd.right]⟩
  case stringPair hk hv =>
    rw [PropertyValue.encode, EStateM.bind_eq_ok]
    refine ⟨(), _, encodeString_eq_ok.mpr ⟨hk.left, hk.right.left, rfl⟩, ?_⟩
    exact encodeString_eq_ok.mpr ⟨hv.left, hv.right.left, by simp [hk.right.right, hv.right.right]⟩

namespace Properties

theorem typed?_eq_some {id : PropertyId} {entry : WireEntry} (h : entry.typed? = some (id, val)) :
    entry.id = id.toU8 ∧ entry.value = .typed val := by
  unfold WireEntry.typed? at h
  split at h
  case h_1 hi hv =>
    cases h
    exact ⟨PropertyId.toU8_of_fromU8 hi, hv⟩
  case h_2 => cases h

theorem not_repeatable {id : PropertyId} (h : id ≠ .userProperty) :
    ¬Repeatable context id.toU8 := by
  cases id <;> simp [Repeatable, PropertyId.toU8] at h ⊢

-- An entry that has been decoded is encoded again, with an identifier of one byte.
theorem encodeEntry_written {id : PropertyId} {entry : WireEntry} {seen : Bytes}
    (h : entry.Written context bytes) (ht : entry.typed? = some (id, val))
    (hu : entry.id ∈ seen → Repeatable context entry.id)
    (hs : ∀ e ∈ previous, e.1.toU8 ∈ seen) (buf) :
    ∃ bytes', encodeEntry context previous id val buf = .ok () (buf ++ bytes') ∧
      bytes'.length ≤ bytes.length := by
  have ⟨hid, hval⟩ := typed?_eq_some ht
  obtain ⟨⟨idBytes, valueBytes, t, rfl, hi, hw, hv⟩, hn, ha, hl⟩ := h
  rw [hid] at hw hi ha hl hu
  rw [hval] at hv hl
  have hlt : id.toU8.toUInt32.toNat < 128 := by cases id <;> decide
  have hd : ¬(id ≠ .userProperty ∧ previous.any (·.1 = id)) := by
    rintro ⟨hne, hany⟩
    simp only [List.any_eq_true, decide_eq_true_eq] at hany
    have ⟨e, hm, he⟩ := hany
    exact not_repeatable hne (hu (he ▸ hs e hm))
  refine ⟨Base128.encode id.toU8.toUInt32.toNat ++ valueBytes, ?_, ?_⟩
  case refine_1 =>
    unfold encodeEntry
    rw [EStateM.guarded_eq_ok, (validateProperty_eq_ok (u := ()) (hv.hasTypeOf hw)).mpr hl,
      EStateM.bind_ok (check_ok _ _)]
    refine ⟨allows_iff.mpr ha, ?_⟩
    dsimp only
    rw [EStateM.guarded_eq_ok, EStateM.bind_ok (encodeVariableInt_eq_ok (u := ()).mpr ⟨by omega, rfl⟩)]
    exact ⟨hd, by rw [hv.encode, List.append_assoc]⟩
  case refine_2 =>
    have := List.length_pos_iff.mpr hi.right.ne_nil
    rw [Base128.encode_of_lt hlt, List.length_append, List.length_append, List.length_singleton]
    omega

theorem encodeEntries_written {entries : List WireEntry} (he : Entries context bytes entries)
    (hu : Unrepeated context seen entries) (hs : ∀ e ∈ previous, e.1.toU8 ∈ seen) (buf) :
    ∃ bytes', encodeEntries context previous (entries.filterMap WireEntry.typed?) buf =
      .ok () (buf ++ bytes') ∧ bytes'.length ≤ bytes.length := by
  induction he generalizing previous seen buf
  case nil => exact ⟨[], by simp [encodeEntries], by simp⟩
  case cons bytes₁ entry bytes₂ entries hw _ ih =>
    obtain ⟨hu₁, hu₂⟩ := Unrepeated.cons_iff.mp hu
    cases ht : entry.typed?
    case none =>
      have hs' : ∀ e ∈ previous, e.1.toU8 ∈ seen ++ [entry.id] := fun e hm => by simp [hs e hm]
      obtain ⟨bytes', hb, hl⟩ := ih hu₂ hs' buf
      exact ⟨bytes', by rw [List.filterMap_cons_none ht, hb], by simp; omega⟩
    case some e =>
      obtain ⟨id, val⟩ := e
      obtain ⟨bytes₁', hb₁, hl₁⟩ := encodeEntry_written hw ht hu₁ hs buf
      have hid := (typed?_eq_some ht).left
      have hs' : ∀ e ∈ previous ++ [(id, val)], e.1.toU8 ∈ seen ++ [entry.id] := by
        intro e hm
        cases List.mem_append.mp hm
        case inl hm => simp [hs e hm]
        case inr hm => simp [List.mem_singleton.mp hm, hid]
      obtain ⟨bytes₂', hb₂, hl₂⟩ := ih hu₂ hs' (buf ++ bytes₁')
      refine ⟨bytes₁' ++ bytes₂', ?_, by simp; omega⟩
      rw [List.filterMap_cons_some ht, encodeEntries, EStateM.bind_ok hb₁, hb₂, List.append_assoc]

-- The properties of a section are encoded again, in no more bytes.
theorem encodeInner_written (h : PrefixedSection context bytes props) (buf) :
    ∃ bytes', props.encodeInner context buf = .ok () (buf ++ bytes') ∧
      bytes'.length ≤ bytes.length := by
  obtain ⟨lenBytes, body, len, entries, rfl, hv, hl, hs, hp⟩ := h
  have ⟨he, hu⟩ := Unrepeated.iff_section.mpr hs
  have hnone : ∀ e ∈ ([] : List (PropertyId × PropertyValue)), e.1.toU8 ∈ ([] : Bytes) := by simp
  have ⟨body', hb, hle⟩ := encodeEntries_written he hu hnone []
  rw [← hp, List.nil_append] at hb
  have ⟨hm, hlen⟩ := hv.length_encode_le (hl ▸ hle)
  have hto : (UInt32.ofNat body'.length).toNat = body'.length := by simp; omega
  refine ⟨Base128.encode body'.length ++ body', ?_, by simp; omega⟩
  rw [← hto] at hm
  rw [encodeInner, EncodeM.bytes_eq_ok.mpr hb, EStateM.bind_ok (check_ok _ _),
    EStateM.bind_ok (encodeVariableInt_eq_ok (u := ()).mpr ⟨hm, rfl⟩), hto]
  simp

end Properties

theorem QoS.toU8_of_fromU8 {val : UInt8} (h : fromU8 val = .ok qos) : val = qos.toU8 := by
  unfold fromU8 at h
  split at h <;> cases h <;> rfl

namespace PublishPacket

theorem decodePacketId_accepts (qos : QoS) : Accepts (decode.decodePacketId qos) fun bytes packetId =>
    bytes = packetId.elim [] u16ToBeBytes ∧
      (qos = .atMostOnce ∧ packetId = none ∨ qos = .atLeastOnce ∧ ∃ id ≠ 0, packetId = some id) := by
  cases qos
  case atMostOnce =>
    refine (Accepts.pure none).congr fun bytes packetId => ?_
    simp
    rintro rfl
    simp
  case atLeastOnce =>
    refine (Cursor.readU16_accepts.bind fun id => (Accepts.guarded (Accepts.pure (some id)))).congr
      fun bytes packetId => ⟨?_, ?_⟩
    case refine_1 =>
      rintro ⟨id, xs, ys, rfl, rfl, h0, rfl, rfl⟩
      exact ⟨by simp, .inr ⟨rfl, id, h0, rfl⟩⟩
    case refine_2 =>
      rintro ⟨rfl, h⟩
      obtain ⟨h, _⟩ | ⟨_, id, h0, rfl⟩ := h
      · cases h
      · exact ⟨id, _, [], by simp, rfl, h0, rfl, rfl⟩

-- What a body that is decoded consists of.
theorem decode_layout {flags : UInt8} {packet : PublishPacket} (h : decode flags body = .ok packet) :
    ∃ topicBytes propBytes, body = topicBytes ++ (packet.idBytes ++ (propBytes ++ packet.payload)) ∧
      Utf8String topicBytes packet.topic ∧ validateTopicName packet.topic = .ok () ∧
      PrefixedSection (some .publish) propBytes packet.properties ∧
      QoS.fromU8 ((flags >>> 1) &&& 0x03) = .ok packet.qos ∧
      packet.dup = decide (flags &&& 0x08 ≠ 0) := by
  have ⟨cur, hg⟩ : ∃ cur, decode.go flags (.at [] body) = .ok packet cur := by
    unfold decode at h
    cases hg : decode.go flags { buf := body } <;> simp [hg] at h
    exact ⟨_, h ▸ hg⟩
  obtain ⟨qos, _, hc, hg⟩ := EStateM.bind_eq_ok.mp hg
  obtain ⟨hq, rfl⟩ := check_eq_ok.mp hc
  obtain ⟨topicBytes, _, topic, rfl, ht, hg⟩ := Cursor.readString_accepts.bind_ok.mp hg
  obtain ⟨_, _, hc', hg⟩ := EStateM.bind_eq_ok.mp hg
  obtain ⟨hv, rfl⟩ := check_eq_ok.mp hc'
  obtain ⟨_, _, packetId, rfl, hi, hg⟩ := (decodePacketId_accepts qos).bind_ok.mp hg
  obtain ⟨propBytes, payload, props, rfl, hp, hg⟩ :=
    (decodeInner_accepts (some .publish)).bind_ok.mp hg
  cases hg
  refine ⟨topicBytes, propBytes, ?_, ht, hv, hp, hq, rfl⟩
  simp [idBytes, hi.left]

theorem encode_decoded_body {packet : PublishPacket} {flags : UInt8}
    (h : decode flags body = .ok packet) :
    ∃ body', packet.encodeBody [] = .ok () body' ∧ body'.length ≤ body.length := by
  obtain ⟨topicBytes, propBytes, rfl, ht, hv, hp, _⟩ := decode_layout h
  have ⟨propBytes', he, hl⟩ := Properties.encodeInner_written hp (topicBytes ++ packet.idBytes)
  refine ⟨topicBytes ++ (packet.idBytes ++ (propBytes' ++ packet.payload)), ?_, by simp; omega⟩
  have hs : encodeString packet.topic [] = .ok () topicBytes :=
    encodeString_eq_ok.mpr ⟨ht.left, ht.right.left, by rw [List.nil_append, ht.right.right]⟩
  rw [encodeBody, hv, EStateM.bind_ok (check_ok _ _), EStateM.bind_ok hs]
  rw [Properties.encodeFor, idBytes]
  cases hi : packet.packetId
  case none =>
    simp only [idBytes, hi, Option.elim_none, List.append_nil] at he
    simp [EStateM.bind_ok he]
  case some id =>
    simp only [idBytes, hi, Option.elim_some] at he
    simp [EStateM.bind_ok (encodeU16_apply _ _), EStateM.bind_ok he]

theorem validateFixedHeader_flags {header : FixedHeader} {packet : PublishPacket}
    (ht : header.packetType = .publish) (hv : validateFixedHeader header = .ok ())
    (h : decode header.flags body = .ok packet) (len : UInt32) :
    validateFixedHeader ⟨.publish, packet.flags, len⟩ = .ok () := by
  obtain ⟨_, _, _, _, _, _, hq, hd⟩ := decode_layout h
  have ⟨_, hq', hd', _⟩ := packet.flags_decoded
  have hqos : (header.flags >>> 1) &&& 0x03 = packet.qos.toU8 := QoS.toU8_of_fromU8 hq
  simp only [validateFixedHeader, ht, hqos] at hv
  simp only [validateFixedHeader, hq']
  have hdup : header.flags &&& 0x08 = 0 ↔ packet.flags &&& 0x08 = 0 := by
    rw [hd] at hd'
    simpa using hd'.symm
  simpa only [ne_eq, hdup] using hv

end PublishPacket

theorem Packet.decode_publish_eq_ok {packet : PublishPacket}
    (h : decode header body = .ok (.publish packet)) :
    header.packetType = .publish ∧ validateFixedHeader header = .ok () ∧
      body.length = header.remainingLength.toNat ∧
      PublishPacket.decode header.flags body = .ok packet := by
  simp only [decode, Except.bind_eq_ok] at h
  obtain ⟨_, hv, h⟩ := h
  split at h
  case isTrue => simp at h
  case isFalse hl =>
    split at h
    case h_2 ht =>
      obtain ⟨packet', hd, hp⟩ := Except.bind_eq_ok.mp h
      cases hp
      exact ⟨ht, hv, not_not.mp hl, hd⟩
    case h_6 | h_8 => split at h <;> simp [pure, Except.pure] at h
    all_goals simp [Except.bind_eq_ok, pure, Except.pure] at h

-- A PUBLISH that has been decoded is encoded in at most as many bytes as it came in, and what is
-- encoded is decoded as the same packet.
theorem Packet.decode_publish_normalForm {packet : PublishPacket}
    (hh : decodeFixedHeader data = .ok (header, headerLen))
    (hb : decode header body = .ok (.publish packet)) :
    ∃ bytes, packet.encode = .ok bytes ∧ bytes.length ≤ headerLen + body.length ∧
      ∃ header' headerLen', decodeFixedHeader bytes = .ok (header', headerLen') ∧
        decode header' (bytes.drop headerLen') = .ok (.publish packet) := by
  obtain ⟨⟨_, lenBytes, _, _, _, _, hn, rfl⟩, _⟩ := decodeFixedHeader_eq_ok.mp hh
  have ⟨ht, hv, hl, hd⟩ := decode_publish_eq_ok hb
  have ⟨body', hb', hle⟩ := PublishPacket.encode_decoded_body hd
  have ⟨hk, hlen⟩ := hn.length_encode_le (hl ▸ hle)
  have hv' := PublishPacket.validateFixedHeader_flags ht hv hd (.ofNat body'.length)
  have hf := packet.flags_decoded.left
  have hl₄ := hn.left
  have hto : body'.length % 2 ^ 32 = body'.length := by omega
  have hw : withFixedHeader .publish packet.flags body' [] = .ok () (((PacketType.publish.toU8 <<< 4)
      ||| packet.flags) :: Base128.encode body'.length ++ body') :=
    withFixedHeader_eq_ok.mpr ⟨hf, hv', by rwa [hto], by rw [hto, List.nil_append]⟩
  have he := PublishPacket.encode_eq_ok.mpr ⟨PublishPacket.decode_hasValidId hd, body', hb', hw⟩
  refine ⟨_, he, ?_, ?_⟩
  case refine_1 => simp; omega
  case refine_2 =>
    have ⟨header', headerLen', _, hdec, hpkt⟩ := (Encodes.publish he).decoded (by simp; omega)
    exact ⟨header', headerLen', by simpa using hdec [], hpkt⟩

-- Two lengths have a byte too many, and the packet is two bytes shorter when it is encoded.
theorem Packet.decode_publish_normalForm_qos1 :
    let packet : PublishPacket :=
      ⟨"a/b", some 10, [7, 8], .atLeastOnce, true, true, (({} : Properties).user "k" "1").user "k" "2"⟩
    let body : Bytes := [0x00, 0x03, 0x61, 0x2F, 0x62, 0x00, 0x0A, 0x8E, 0x00, 0x26, 0x00, 0x01, 0x6B, 0x00, 0x01, 0x31,
      0x26, 0x00, 0x01, 0x6B, 0x00, 0x01, 0x32, 0x07, 0x08]
    ∃ bytes, packet.encode = .ok bytes ∧ bytes.length ≤ 3 + body.length ∧
      ∃ header' headerLen', decodeFixedHeader bytes = .ok (header', headerLen') ∧
        decode header' (bytes.drop headerLen') = .ok (.publish packet) := by
  intro packet body
  have hh : decodeFixedHeader [0x3B, 0x99, 0x00] = .ok (⟨.publish, 0x0B, 25⟩, 3) := rfl
  have hb : decode ⟨.publish, 0x0B, 25⟩ body = .ok (.publish packet) := by decide +kernel
  exact decode_publish_normalForm hh hb

end MqttWasi
