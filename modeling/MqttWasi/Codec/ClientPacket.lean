import MqttWasi.Codec.Packet

-- The packets with properties that a client sends.

namespace MqttWasi

inductive ClientPacket
  | connect (packet : ConnectPacket)
  | publish (packet : PublishPacket)
  | subscribe (packet : SubscribePacket)
  | unsubscribe (packet : UnsubscribePacket)
  deriving DecidableEq

namespace ClientPacket

def packetType : ClientPacket → PacketType
  | connect _     => .connect
  | publish _     => .publish
  | subscribe _   => .subscribe
  | unsubscribe _ => .unsubscribe

def context : ClientPacket → PropertyContext
  | connect _     => .connect
  | publish _     => .publish
  | subscribe _   => .subscribe
  | unsubscribe _ => .unsubscribe

def flags : ClientPacket → UInt8
  | connect _                   => 0
  | publish packet              => packet.flags
  | subscribe _ | unsubscribe _ => 0x02

def properties : ClientPacket → Properties
  | connect packet | publish packet | subscribe packet | unsubscribe packet => packet.properties

def encode : ClientPacket → Except Error Bytes
  | connect packet | publish packet | subscribe packet | unsubscribe packet => packet.encode

-- What an encoder puts in the body in front of the properties and behind them.

def encodeFront : ClientPacket → EncodeM Unit
  | connect packet => do
    encodeString protocolName
    extend [packet.protocolVersion]
    extend [packet.flags]
    encodeU16 packet.keepAlive
  | publish packet => do
    check (validateTopicName packet.topic)
    encodeString packet.topic
    packet.packetId.elim (pure ()) encodeU16
  | subscribe packet   => encodeU16 packet.packetId
  | unsubscribe packet => encodeU16 packet.packetId

def encodeBack : ClientPacket → EncodeM Unit
  | connect packet => do
    encodeString packet.clientId
    packet.username.elim (pure ()) encodeString
    packet.password.elim (pure ()) encodeBinary
  | publish packet     => extend packet.payload
  | subscribe packet   => SubscribePacket.encodeFilters packet.filters
  | unsubscribe packet => UnsubscribePacket.encodeFilters packet.filters

def encodeBody (packet : ClientPacket) : EncodeM Unit := do
  packet.encodeFront
  packet.properties.encodeFor packet.context
  packet.encodeBack

-- The sizes of these parts.

def frontSize : ClientPacket → Nat
  | connect _      => stringLen protocolName + 4
  | publish packet => stringLen packet.topic + packet.packetId.elim 0 fun _ => 2
  | subscribe _    => 2
  | unsubscribe _  => 2

def backSize : ClientPacket → Nat
  | connect packet =>
    stringLen packet.clientId + packet.username.elim 0 stringLen + packet.password.elim 0 binaryLen
  | publish packet     => packet.payload.length
  | subscribe packet   => (packet.filters.map fun (filter, _) => stringLen filter + 1).sum
  | unsubscribe packet => (packet.filters.map stringLen).sum

def bodySize (packet : ClientPacket) : Nat :=
  packet.frontSize + packet.properties.encodedLen + packet.backSize

end ClientPacket
end MqttWasi
