import MqttWasi.Codec.ClientReader
import MqttWasi.Codec.Theorems.ClientPackets

namespace MqttWasi

open Cursor (Reads readU8_reads readU16_reads readString_accepts readBinary_accepts)

theorem Utf8String.ne_nil (h : Utf8String bytes s) : bytes ≠ [] := by
  obtain ⟨_, _, rfl⟩ := h
  simp [u16ToBeBytes]

theorem Cursor.at_end (pre : Bytes) : Cursor.at pre [] = { buf := pre, pos := pre.length } := by
  simp [Cursor.at]

-- A reader that is in front of everything it reads leaves nothing.
theorem Cursor.Reads.whole {x : CursorM α} (h : Reads x bytes a) :
    x { buf := bytes } = .ok a { buf := bytes, pos := bytes.length } := by
  have h := h [] []
  rwa [List.append_nil, List.nil_append, Cursor.at_end] at h

theorem readIf_reads {x : CursorM α} {L : α → Bytes → Prop} (hx : ∀ a bytes, L a bytes → Reads x bytes a)
    {o : Option α} (hf : flag = true ↔ o.isSome) (h : o.elim (· = []) L bytes) :
    Reads (readConnect.readIf flag x) bytes o := by
  cases o <;> cases flag <;> simp at hf
  case none.false =>
    cases h
    exact .pure none
  case some.true a => exact (hx a bytes h).map some

theorem readAll_reads {R : Bytes → α → Prop} {x : CursorM α} (hs : Sequence R bytes as)
    (hr : ∀ bytes a, R bytes a → bytes ≠ [] ∧ Reads x bytes a) (hl : bytes.length ≤ rounds) (pre) :
    readAll x rounds (.at pre bytes) = .ok as (.at (pre ++ bytes) []) := by
  induction hs generalizing rounds pre
  case nil => cases rounds <;> simp [readAll, EStateM.bind_apply]
  case cons bytes a bytes' as ha _ ih =>
    have ⟨hne, hx⟩ := hr bytes a ha
    have hpos := List.length_pos_iff.mpr hne
    rw [List.length_append] at hl
    cases rounds
    case zero => omega
    case succ rounds =>
      have hz : ¬(Cursor.at pre (bytes ++ bytes')).remaining = 0 := by
        rw [Cursor.at_remaining, List.length_append]
        omega
      rw [readAll, EStateM.bind_ok (EStateM.get_apply _), if_neg hz, EStateM.bind_ok (hx pre bytes'),
        EStateM.bind_ok (ih (by omega) _)]
      simp

-- An identifier and properties in front of a list up to the end.
theorem listPacket_read {R : Bytes → α → Prop} {x : CursorM α} {f : UInt16 → Properties → List α → β}
    (hp : Reads (Properties.decodeInner context) propBytes props) (hs : Sequence R bytes as)
    (hr : ∀ bytes a, R bytes a → bytes ≠ [] ∧ Reads x bytes a) (packetId : UInt16) :
    (do
      let packetId ← Cursor.readU16
      let properties ← Properties.decodeInner context
      let as ← readAll x (← get).remaining
      return f packetId properties as : CursorM β)
        (.at [] (u16ToBeBytes packetId ++ (propBytes ++ bytes))) =
      .ok (f packetId props as) (.at (u16ToBeBytes packetId ++ (propBytes ++ bytes)) []) := by
  have ha := readAll_reads hs hr le_rfl (u16ToBeBytes packetId ++ propBytes)
  rw [EStateM.bind_ok (readU16_reads packetId [] _), EStateM.bind_ok (hp _ _),
    EStateM.bind_ok (EStateM.get_apply _), Cursor.at_remaining, List.nil_append, EStateM.bind_ok ha]
  simp

-- The properties that an encoder wrote are read as those it got.
theorem properties_reads {props : Properties} {entries : Bytes}
    (he : (Properties.encodeEntries context [] props.entries).bytes = .ok entries)
    (hm : entries.length % 2 ^ 32 ≤ 268435455)
    (hl : (Base128.encode (entries.length % 2 ^ 32) ++ entries).length < 2 ^ 32) :
    Reads (Properties.decodeInner context) (Base128.encode (entries.length % 2 ^ 32) ++ entries)
      props := by
  have hto : (UInt32.ofNat entries.length).toNat = entries.length % 2 ^ 32 := by simp
  have hv : encodeVariableInt (.ofNat entries.length) [] =
      .ok () (Base128.encode (entries.length % 2 ^ 32)) :=
    encodeVariableInt_eq_ok.mpr ⟨by rwa [hto], by rw [hto, List.nil_append]⟩
  have hi : props.encodeInner context [] =
      .ok () (Base128.encode (entries.length % 2 ^ 32) ++ entries) := by
    rw [Properties.encodeInner, he, EStateM.bind_ok (check_ok _ _), EStateM.bind_ok hv, extend_apply]
  obtain ⟨bytes, hb, hr⟩ := Properties.encodeInner_reads hi
  rw [List.nil_append] at hb
  subst hb
  exact hr hl

theorem ConnectPacket.flags_bits (packet : ConnectPacket) :
    (packet.flags &&& 0x02 ≠ 0 ↔ packet.cleanStart) ∧
    (packet.flags &&& 0x40 ≠ 0 ↔ packet.password.isSome) ∧
    (packet.flags &&& 0x80 ≠ 0 ↔ packet.username.isSome) ∧ packet.flags &&& 0x3D = 0 := by
  have ⟨_, cleanStart, _, _, username, password, _⟩ := packet
  cases cleanStart <;> cases username <;> cases password <;> simp [flags] <;> decide

namespace ClientPacket

-- The body, which is read field by field in the order in which it has been written.
theorem encodeBody_recovered {packet : ClientPacket} (hc : packet.Checked)
    (hb : packet.encodeBody [] = .ok u body) (hl : body.length < 2 ^ 32) : packet.Recovered body := by
  obtain ⟨_, hb', front, entries, back, hf, hk, he, hm, rfl⟩ := packet.encodeBody_writes hb
  rw [List.nil_append] at hb'
  subst hb'
  have hp := properties_reads he hm (by simp at hl ⊢; omega)
  generalize Base128.encode (entries.length % 2 ^ 32) ++ entries = props at *
  cases packet
  case connect packet =>
    obtain ⟨name, hn, rfl⟩ := hf
    obtain ⟨clientId, username, password, rfl, hi, hu, hw⟩ := hk
    have ⟨hcs, hpw, hun, hz⟩ := packet.flags_bits
    refine ⟨packet.flags, ?_, hcs, hpw, hun, hz⟩
    have hr : Reads readConnect (name ++ ([packet.protocolVersion] ++ ([packet.flags] ++
        (u16ToBeBytes packet.keepAlive ++ (props ++ (clientId ++ (username ++ password)))))))
        ⟨"MQTT", packet.protocolVersion, packet.flags, packet.keepAlive, packet.properties,
          packet.clientId, packet.username, packet.password⟩ := by
      have hu := readIf_reads (fun _ _ h => readString_accepts.reads h) (decide_eq_true_iff.trans hun) hu
      have hw := readIf_reads (fun _ _ h => readBinary_accepts.reads h) (decide_eq_true_iff.trans hpw) hw
      exact (readString_accepts.reads hn).bind <| (readU8_reads _).bind <| (readU8_reads _).bind <|
        (readU16_reads _).bind <| hp.bind <| (readString_accepts.reads hi).bind <| hu.bind <|
        hw.bind_checks (.pure _)
    have hv : packet.protocolVersion = 5 := hc
    simpa [hv] using hr.whole
  case publish packet =>
    exact PublishPacket.encodeBody_decoded hc (publish_encodeBody packet ▸ hb) hl
  case subscribe packet =>
    cases hf
    have hr : ∀ bytes filter, SubscribePacket.Filter bytes filter →
        bytes ≠ [] ∧ Reads readSubscribe.readFilter bytes filter := by
      rintro _ ⟨filter, qos⟩ ⟨name, rfl, hn⟩
      refine ⟨by simp, (readString_accepts.reads hn).bind <| (readU8_reads _).bind_checks ?_⟩
      simp [Reads, EStateM.bind_apply]
    have hl := listPacket_read (f := fun id properties filters => SubscribePacket.mk id filters properties)
      hp hk hr packet.packetId
    rw [Cursor.at_end] at hl
    exact ⟨hc.left, hl⟩
  case unsubscribe packet =>
    cases hf
    have hr : ∀ bytes filter, Utf8String bytes filter → bytes ≠ [] ∧ Reads Cursor.readString bytes filter :=
      fun _ _ h => ⟨h.ne_nil, readString_accepts.reads h⟩
    have hl := listPacket_read (f := fun id properties filters => UnsubscribePacket.mk id filters properties)
      hp hk hr packet.packetId
    rw [Cursor.at_end] at hl
    exact ⟨hc.left, hl⟩

-- Packets with the same first byte and the same body are the same.
theorem Recovered.unique {packet packet' : ClientPacket} (ht : packet.packetType = packet'.packetType)
    (hf : packet.flags = packet'.flags) (hc : packet.Checked) (hc' : packet'.Checked)
    (h : packet.Recovered body) (h' : packet'.Recovered body) : packet = packet' := by
  cases packet <;> cases packet' <;> try cases ht
  case connect.connect packet packet' =>
    obtain ⟨flags, hr, hcs, -⟩ := h
    obtain ⟨flags', hr', hcs', -⟩ := h'
    have hf := hr.symm.trans hr'
    simp only [EStateM.Result.ok.injEq, ConnectFields.mk.injEq] at hf
    obtain ⟨⟨-, -, rfl, hk, hp, hi, hu, hw⟩, -⟩ := hf
    have hv : packet.protocolVersion = packet'.protocolVersion := hc.trans hc'.symm
    have hs : packet.cleanStart = packet'.cleanStart := Bool.eq_iff_iff.mpr (hcs.symm.trans hcs')
    have ⟨_, _, _, _, _, _, _⟩ := packet
    simp_all
  case publish.publish packet packet' =>
    have hr : PublishPacket.decode packet.flags body = .ok packet := h
    have hr' : PublishPacket.decode packet'.flags body = .ok packet' := h'
    have hf : packet.flags = packet'.flags := hf
    rw [hf, hr'] at hr
    cases hr
    rfl
  case subscribe.subscribe packet packet' =>
    have hr := h.right.symm.trans h'.right
    cases hr
    rfl
  case unsubscribe.unsubscribe packet packet' =>
    have hr := h.right.symm.trans h'.right
    cases hr
    rfl

theorem encode_framed {packet : ClientPacket} (h : packet.encode = .ok bytes)
    (hl : bytes.length ≤ mqttMaxPacketSize) :
    ∃ len headerLen, packet.Checked ∧
      decodeFixedHeader bytes = .ok (⟨packet.packetType, packet.flags, len⟩, headerLen) ∧
      bytes.length = headerLen + len.toNat ∧ packet.Recovered (bytes.drop headerLen) := by
  obtain ⟨hc, body, hb, hw⟩ := encode_eq_ok.mp h
  have hl : bytes.length < 2 ^ 32 := by rw [mqttMaxPacketSize] at hl; omega
  obtain ⟨headerLen, hlen, hdrop, hdec, -, hn⟩ := withFixedHeader_decoded hw hl
  have hd := hdec []
  rw [List.append_nil] at hd
  exact ⟨_, headerLen, hc, hd, by omega, hdrop ▸ encodeBody_recovered hc hb (by omega)⟩

-- What is encoded is framed, its fields are found again in the layout of MQTT v5, and no other packet
-- is encoded in the same way.
theorem encode_recovered {packet : ClientPacket} (h : packet.encode = .ok bytes)
    (hl : bytes.length ≤ mqttMaxPacketSize) :
    (∃ header headerLen, decodeFixedHeader bytes = .ok (header, headerLen) ∧
      header.packetType = packet.packetType ∧
      bytes.length = headerLen + header.remainingLength.toNat ∧
      packet.Recovered (bytes.drop headerLen)) ∧
    ∀ packet' : ClientPacket, packet'.encode = .ok bytes → packet' = packet := by
  obtain ⟨len, headerLen, hc, hd, hlen, hr⟩ := encode_framed h hl
  refine ⟨⟨_, headerLen, hd, rfl, hlen, hr⟩, fun packet' h' => ?_⟩
  obtain ⟨len', headerLen', hc', hd', -, hr'⟩ := encode_framed h' hl
  have he := hd'.symm.trans hd
  simp only [Except.ok.injEq, Prod.mk.injEq, FixedHeader.mk.injEq] at he
  obtain ⟨⟨ht, hf, -⟩, rfl⟩ := he
  exact hr'.unique ht hf hc' hc hr

theorem encode_recovered_subscribe :
    let packet := subscribe ⟨1, [("a", .atLeastOnce)], {}⟩
    let bytes := [0x82, 0x07, 0x00, 0x01, 0x00, 0x00, 0x01, 0x61, 0x01]
    (∃ header headerLen, decodeFixedHeader bytes = .ok (header, headerLen) ∧
      header.packetType = packet.packetType ∧
      bytes.length = headerLen + header.remainingLength.toNat ∧
      packet.Recovered (bytes.drop headerLen)) ∧
    ∀ packet' : ClientPacket, packet'.encode = .ok bytes → packet' = packet :=
  encode_recovered rfl (by decide)

end ClientPacket
end MqttWasi
