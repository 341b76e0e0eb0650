import MqttWasi.Codec.Properties

namespace MqttWasi

namespace PublishPacket

def encodeBody (packet : PublishPacket) : EncodeM Unit := do
  check (validateTopicName packet.topic)
  encodeString packet.topic
  if let some id := packet.packetId then
    encodeU16 id
  packet.properties.encodeFor .publish
  extend packet.payload

-- DUP is bit 3, QoS bits 2 and 1, RETAIN bit 0.
def flags (packet : PublishPacket) : UInt8 :=
  let dup : UInt8 := if packet.dup then 0x08 else 0
  let retain : UInt8 := if packet.retain then 0x01 else 0
  dup ||| (packet.qos.toU8 <<< 1) ||| retain

def encode (packet : PublishPacket) : Except Error Bytes := do
  match packet.qos, packet.packetId with
  | .atMostOnce, none => pure ()
  | .atMostOnce, some _ => throw (.malformedPacket "QoS 0 PUBLISH has packet identifier")
  | .atLeastOnce, some 0 | .atLeastOnce, none =>
    throw (.malformedPacket "QoS 1 PUBLISH needs non-zero packet identifier")
  | .atLeastOnce, some _ => pure ()
  let body ← packet.encodeBody.bytes
  (withFixedHeader .publish packet.flags body).bytes

def decode (flags : UInt8) (body : Bytes) : Except Error PublishPacket :=
  (go { buf := body }).value
where
  go : CursorM PublishPacket := do
    let dup := flags &&& 0x08 ≠ 0
    let qos ← check (QoS.fromU8 ((flags >>> 1) &&& 0x03))
    let retain := flags &&& 0x01 ≠ 0
    let topic ← Cursor.readString
    check (validateTopicName topic)
    let packetId ← decodePacketId qos
    let properties ← Properties.decodeFor .publish
    let payload := (← get).remainingBytes
    return { topic, packetId, payload, qos, retain, dup, properties }
  decodePacketId (qos : QoS) : CursorM (Option UInt16) := do
    if qos ≠ .atMostOnce then
      let packetId ← Cursor.readU16
      if packetId = 0 then
        throw (.malformedPacket "PUBLISH packet identifier is zero")
      return some packetId
    else
      return none

end PublishPacket

def isPubackReasonCode (code : UInt8) : Bool :=
  [0x00, 0x10, 0x80, 0x83, 0x87, 0x90, 0x91, 0x97, 0x99].contains code

namespace PubAckPacket

-- Success is encoded without its reason code.
def encode (packet : PubAckPacket) : Except Error Bytes := do
  if packet.packetId = 0 then
    throw (.malformedPacket "PUBACK packet identifier is zero")
  if !isPubackReasonCode packet.reasonCode then
    throw (.invalidReasonCode packet.reasonCode)
  EncodeM.bytes do
    if packet.reasonCode = 0x00 then
      encodeFixedHeader .pubAck 0 2
      encodeU16 packet.packetId
    else
      encodeFixedHeader .pubAck 0 3
      encodeU16 packet.packetId
      extend [packet.reasonCode]

def decode (body : Bytes) : Except Error PubAckPacket :=
  (go { buf := body }).value
where
  go : CursorM PubAckPacket := do
    let packetId ← Cursor.readU16
    if packetId = 0 then
      throw (.malformedPacket "PUBACK packet identifier is zero")
    let reasonCode ← if (← get).remaining > 0 then Cursor.readU8 else pure 0x00
    if !isPubackReasonCode reasonCode then
      throw (.invalidReasonCode reasonCode)
    if (← get).remaining > 0 then
      discard (Properties.decodeFor .pubAck)
    if (← get).remaining ≠ 0 then
      throw (.malformedPacket "trailing PUBACK bytes")
    return { packetId, reasonCode }

end PubAckPacket
end MqttWasi
