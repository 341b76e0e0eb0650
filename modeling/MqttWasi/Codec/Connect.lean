import MqttWasi.Codec.Properties

namespace MqttWasi

def protocolName : String := "MQTT"

def protocolVersion5 : UInt8 := 5

namespace ConnectPacket

def flags (packet : ConnectPacket) : UInt8 :=
  let cleanStart : UInt8 := if packet.cleanStart then 0x02 else 0
  let password : UInt8 := if packet.password.isSome then 0x40 else 0
  let username : UInt8 := if packet.username.isSome then 0x80 else 0
  cleanStart ||| password ||| username

def encodeBody (packet : ConnectPacket) : EncodeM Unit := do
  encodeString protocolName
  extend [packet.protocolVersion]
  extend [packet.flags]
  encodeU16 packet.keepAlive
  if packet.protocolVersion ≥ protocolVersion5 then
    packet.properties.encodeFor .connect
  encodeString packet.clientId
  if let some username := packet.username then
    encodeString username
  if let some password := packet.password then
    encodeBinary password

def encode (packet : ConnectPacket) : Except Error Bytes := do
  if packet.protocolVersion ≠ protocolVersion5 then
    throw (.malformedPacket "only MQTT v5 is supported")
  let body ← packet.encodeBody.bytes
  (withFixedHeader .connect 0 body).bytes

end ConnectPacket

def isConnackReasonCode (code : UInt8) : Bool :=
  [0x00, 0x80, 0x81, 0x82, 0x83, 0x84, 0x85, 0x86, 0x87, 0x88, 0x89, 0x8A, 0x8C, 0x90, 0x95, 0x97,
    0x99, 0x9A, 0x9B, 0x9C, 0x9D, 0x9F].contains code

def ConnAckPacket.decode (body : Bytes) : Except Error ConnAckPacket :=
  (go { buf := body }).value
where
  go : CursorM ConnAckPacket := do
    let ackFlags ← Cursor.readU8
    if ackFlags &&& 0xFE ≠ 0 then
      throw (.malformedPacket "CONNACK has reserved acknowledge flags")
    let sessionPresent := ackFlags &&& 0x01 ≠ 0
    let reasonCode ← Cursor.readU8
    if !isConnackReasonCode reasonCode then
      throw (.invalidReasonCode reasonCode)
    if sessionPresent ∧ reasonCode ≠ 0x00 then
      throw (.malformedPacket "refused CONNACK has session present")
    let properties ← Properties.decodeFor .connAck
    if (← get).remaining ≠ 0 then
      throw (.malformedPacket "trailing CONNACK bytes")
    return { sessionPresent, reasonCode, properties }

def validateConnack (requestedClientId : String) (cleanStart : Bool) (connack : ConnAckPacket) :
    Except Error Unit :=
  if cleanStart ∧ connack.sessionPresent then
    .error (.malformedPacket "CONNACK has session present after clean start")
  else if requestedClientId.isEmpty ∧ connack.sessionPresent then
    .error (.malformedPacket
      "CONNACK has session present for a newly assigned client identifier")
  else if requestedClientId.isEmpty ∧
      !(connack.properties.getString .assignedClientIdentifier).any (!·.isEmpty) then
    .error (.malformedPacket "CONNACK omitted a non-empty assigned client identifier")
  else
    .ok ()

-- What the broker said in its CONNACK that it supports.
structure ServerCapabilities where
  maximumQos : QoS := .atLeastOnce
  retainAvailable : Bool := true
  wildcardSubscriptionsAvailable : Bool := true
  sharedSubscriptionsAvailable : Bool := true
  deriving DecidableEq, Repr

namespace ServerCapabilities

-- The decoder of the properties rejects a maximum QoS above one.
def fromConnack (connack : ConnAckPacket) : ServerCapabilities where
  maximumQos := if connack.properties.getByte .maximumQoS = some 0 then .atMostOnce else .atLeastOnce
  retainAvailable := available .retainAvailable
  wildcardSubscriptionsAvailable := available .wildcardSubscriptionAvailable
  sharedSubscriptionsAvailable := available .sharedSubscriptionAvailable
where
  available (id : PropertyId) : Bool :=
    (connack.properties.getByte id).getD 1 ≠ 0

def validatePublish (capabilities : ServerCapabilities) (qos : QoS) (retain : Bool) :
    Except Error Unit :=
  if qos.toU8 > capabilities.maximumQos.toU8 then
    .error (.invalidOptions "broker does not support QoS 1 publishing")
  else if retain ∧ ¬capabilities.retainAvailable then
    .error (.invalidOptions "broker does not support retained publishing")
  else
    .ok ()

def validateSubscriptionFilter (capabilities : ServerCapabilities) (filter : String) :
    Except Error Unit := do
  validateTopicFilter filter
  if sharePrefix.isPrefixOf filter.toList ∧ ¬capabilities.sharedSubscriptionsAvailable then
    throw (.invalidOptions "broker does not support shared subscriptions")
  if hasWildcard filter.toList ∧ ¬capabilities.wildcardSubscriptionsAvailable then
    throw (.invalidOptions "broker does not support wildcard subscriptions")

end ServerCapabilities
end MqttWasi
