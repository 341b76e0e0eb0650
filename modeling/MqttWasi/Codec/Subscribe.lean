import MqttWasi.Codec.Properties

namespace MqttWasi

def validateSubackCodes (reasonCodes : Bytes) (requestedQos : List QoS) : Except Error Unit :=
  if reasonCodes.length ≠ requestedQos.length then
    .error (.malformedPacket "ack reason code count mismatch")
  else
    go (reasonCodes.zip requestedQos)
where
  go : List (UInt8 × QoS) → Except Error Unit
    | [] => .ok ()
    | (granted, requested) :: rest =>
      if granted ≥ 0x80 then
        .error (.ackRejected "SUBACK" granted)
      else if granted = 2 ∨ granted > requested.toU8 then
        .error (.malformedPacket "SUBACK granted unsupported or unrequested QoS")
      else
        go rest

def isSubackReasonCode (code : UInt8) : Bool :=
  [0x00, 0x01, 0x02, 0x80, 0x83, 0x87, 0x8F, 0x91, 0x97, 0x9E, 0xA1, 0xA2].contains code

def isUnsubackReasonCode (code : UInt8) : Bool :=
  [0x00, 0x11, 0x80, 0x83, 0x87, 0x8F, 0x91].contains code

namespace SubscribePacket

def encodeFilters : List (String × QoS) → EncodeM Unit
  | [] => return
  | (filter, qos) :: rest => do
    check (validateTopicFilter filter)
    encodeString filter
    extend [qos.toU8]
    encodeFilters rest

def encodeBody (packet : SubscribePacket) : EncodeM Unit := do
  encodeU16 packet.packetId
  packet.properties.encodeFor .subscribe
  encodeFilters packet.filters

def encode (packet : SubscribePacket) : Except Error Bytes := do
  if packet.packetId = 0 then
    throw (.malformedPacket "SUBSCRIBE packet identifier is zero")
  if packet.filters.isEmpty then
    throw (.malformedPacket "SUBSCRIBE has no filters")
  let body ← packet.encodeBody.bytes
  (withFixedHeader .subscribe 0x02 body).bytes

end SubscribePacket

namespace UnsubscribePacket

def encodeFilters : List String → EncodeM Unit
  | [] => return
  | filter :: rest => do
    check (validateTopicFilter filter)
    encodeString filter
    encodeFilters rest

def encodeBody (packet : UnsubscribePacket) : EncodeM Unit := do
  encodeU16 packet.packetId
  packet.properties.encodeFor .unsubscribe
  encodeFilters packet.filters

def encode (packet : UnsubscribePacket) : Except Error Bytes := do
  if packet.packetId = 0 then
    throw (.malformedPacket "UNSUBSCRIBE packet identifier is zero")
  if packet.filters.isEmpty then
    throw (.malformedPacket "UNSUBSCRIBE has no filters")
  let body ← packet.encodeBody.bytes
  (withFixedHeader .unsubscribe 0x02 body).bytes

end UnsubscribePacket

-- SUBACK and UNSUBACK have the same layout and differ in their name, the context of their
-- properties and their legal reason codes.
def decodeAckBody (name : String) (context : PropertyContext) (isReasonCode : UInt8 → Bool) :
    CursorM (UInt16 × Bytes) := do
  let packetId ← Cursor.readU16
  if packetId = 0 then
    throw (.malformedPacket (name ++ " packet identifier is zero"))
  discard (Properties.decodeFor context)
  let reasonCodes := (← get).remainingBytes
  if reasonCodes.isEmpty then
    throw (.malformedPacket (name ++ " has no reason codes"))
  if let some invalid := reasonCodes.find? (!isReasonCode ·) then
    throw (.invalidReasonCode invalid)
  return (packetId, reasonCodes)

def SubAckPacket.decode (body : Bytes) : Except Error SubAckPacket := do
  let (packetId, reasonCodes) ←
    (decodeAckBody "SUBACK" .subAck isSubackReasonCode { buf := body }).value
  return { packetId, reasonCodes }

def UnsubAckPacket.decode (body : Bytes) : Except Error UnsubAckPacket := do
  let (packetId, reasonCodes) ←
    (decodeAckBody "UNSUBACK" .unsubAck isUnsubackReasonCode { buf := body }).value
  return { packetId, reasonCodes }

end MqttWasi
