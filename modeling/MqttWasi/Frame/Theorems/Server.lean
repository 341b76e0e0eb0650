import MqttWasi.Codec.Theorems.ClientReader
import MqttWasi.Frame.Server

-- What a server gets from what a client sends.

namespace MqttWasi

theorem readWhole_ok {x : CursorM α} (h : x { buf := body } = .ok a { buf := body, pos := body.length }) :
    readWhole x body = .ok a := by
  simp [readWhole, readWhole.go, EStateM.bind_apply, h, Cursor.remaining]

theorem requireId_ok (h : packetId ≠ 0) : requireId packetId = .ok () :=
  if_neg h

theorem nextHeader_of_ok (h : decodeFixedHeader xs = .ok (header, headerLen)) :
    headerFraming.next xs = .item header headerLen := by
  change nextHeader xs = _
  simp only [nextHeader, h]

-- A connection request says again what it was made from.
theorem ConnectFields.packet_recovered {packet : ConnectPacket} (hv : packet.protocolVersion = protocolVersion5)
    (h : (ClientPacket.connect packet).Recovered body) : ∃ fields,
      readConnect { buf := body } = .ok fields { buf := body, pos := body.length } ∧
      fields.packet = .ok packet := by
  obtain ⟨flags, hr, hc, _, _, hz⟩ := h
  refine ⟨_, hr, ?_⟩
  have hs : decide (flags &&& 0x02 ≠ 0) = packet.cleanStart := by
    rw [Bool.eq_iff_iff, decide_eq_true_iff]
    exact hc
  obtain ⟨version, _, _, _, _, _, _⟩ := packet
  cases hv
  simp only [ConnectFields.packet, protocolName, protocolVersion5, hz]
  simpa using hs

namespace SentPacket

-- The body of a packet is decoded as the packet.
theorem decode_recovered {packet : ClientPacket} (hc : packet.Checked) (h : packet.Recovered body) (len) :
    decode ⟨packet.packetType, packet.flags, len⟩ body = .ok (.client packet) := by
  cases packet
  case connect packet =>
    obtain ⟨fields, hr, hp⟩ := ConnectFields.packet_recovered hc h
    simp [decode, ClientPacket.packetType, readWhole_ok hr, hp]
  case publish packet =>
    have hd : PublishPacket.decode packet.flags body = .ok packet := h
    simp [decode, ClientPacket.packetType, ClientPacket.flags, hd]
  case subscribe packet =>
    simp [decode, ClientPacket.packetType, readWhole_ok h.right, requireId_ok h.left]
  case unsubscribe packet =>
    simp [decode, ClientPacket.packetType, readWhole_ok h.right, requireId_ok h.left]

theorem next_of_withFixedHeader (hw : withFixedHeader t flags body [] = .ok u bytes)
    (hl : bytes.length < 2 ^ 32) (hd : ∀ len, decode ⟨t, flags, len⟩ body = .ok packet) :
    serverFraming.next bytes = .item packet bytes.length := by
  obtain ⟨headerLen, hlen, hdrop, hdec, -, hn⟩ := withFixedHeader_decoded hw hl
  have hh := hdec []
  rw [List.append_nil] at hh
  refine Framing.withBody_item (nextHeader_of_ok hh) ?_ ?_
  case refine_1 => dsimp only; omega
  case refine_2 => rw [hdrop]; exact hd _

theorem pingReq_next : serverFraming.next pingreqBytes = .item .pingReq pingreqBytes.length :=
  rfl

-- What is encoded is cut off the stream and decoded as what it was made from.
theorem encode_next {packet : SentPacket} (h : packet.encode = .ok bytes)
    (hl : bytes.length < 2 ^ 32) : serverFraming.next bytes = .item packet bytes.length := by
  cases packet
  case client packet =>
    obtain ⟨hc, body, hb, hw⟩ := ClientPacket.encode_eq_ok.mp h
    obtain ⟨_, hlen, -⟩ := withFixedHeader_decoded hw hl
    have hr := ClientPacket.encodeBody_recovered hc hb (by omega)
    exact next_of_withFixedHeader hw hl (decode_recovered hc hr)
  case pubAck packet =>
    obtain ⟨h0, hr, hw⟩ := PubAckPacket.encode_eq_ok h
    refine next_of_withFixedHeader hw hl fun len => ?_
    simp [decode, PubAckPacket.decode_body h0 hr]
  case pingReq =>
    cases h
    exact pingReq_next
  case disconnect packet =>
    obtain ⟨hr, hw⟩ := DisconnectPacket.encode_eq_ok h
    refine next_of_withFixedHeader hw hl fun len => ?_
    simp [decode, DisconnectPacket.decode_body hr]

end SentPacket
end MqttWasi
