import MqttWasi.Codec.Properties

namespace MqttWasi

def pingreqBytes : Bytes := [0xC0, 0x00]

def isDisconnectReasonCode (code : UInt8) : Bool :=
  [0x00, 0x04, 0x80, 0x81, 0x82, 0x83, 0x87, 0x89, 0x8B, 0x8D, 0x8E, 0x8F, 0x90, 0x93, 0x94, 0x95,
    0x96, 0x97, 0x98, 0x99, 0x9A, 0x9B, 0x9C, 0x9D, 0x9E, 0x9F, 0xA0, 0xA1, 0xA2].contains code

namespace DisconnectPacket

def encode (packet : DisconnectPacket) : Except Error Bytes := do
  if !isDisconnectReasonCode packet.reasonCode then
    throw (.invalidReasonCode packet.reasonCode)
  EncodeM.bytes do
    if packet.reasonCode = 0x00 then
      encodeFixedHeader .disconnect 0 0
    else
      encodeFixedHeader .disconnect 0 1
      extend [packet.reasonCode]

def decode (body : Bytes) : Except Error DisconnectPacket :=
  (go { buf := body }).value
where
  go : CursorM DisconnectPacket := do
    let reasonCode ← if body.isEmpty then pure 0x00 else Cursor.readU8
    if !isDisconnectReasonCode reasonCode then
      throw (.invalidReasonCode reasonCode)
    if (← get).remaining > 0 then
      discard (Properties.decodeFor .disconnect)
    if (← get).remaining ≠ 0 then
      throw (.malformedPacket "trailing DISCONNECT bytes")
    return { reasonCode }

end DisconnectPacket
end MqttWasi
