import MqttWasi.Codec.Publish
import MqttWasi.Codec.Subscribe
import MqttWasi.Codec.Connect
import MqttWasi.Codec.Ping

namespace MqttWasi.Packet

def decode (header : FixedHeader) (body : Bytes) : Except Error Packet := do
  validateFixedHeader header
  if body.length ≠ header.remainingLength.toNat then
    throw (.malformedPacket "body length does not match header")
  match header.packetType with
  | .connAck    => return .connAck (← ConnAckPacket.decode body)
  | .publish    => return .publish (← PublishPacket.decode header.flags body)
  | .pubAck     => return .pubAck (← PubAckPacket.decode body)
  | .subAck     => return .subAck (← SubAckPacket.decode body)
  | .unsubAck   => return .unsubAck (← UnsubAckPacket.decode body)
  | .pingResp   =>
    if body.isEmpty then return .pingResp
    else throw (.malformedPacket "PINGRESP body must be empty")
  | .disconnect => return .disconnect (← DisconnectPacket.decode body)
  | .pingReq    =>
    if body.isEmpty then return .pingReq
    else throw (.malformedPacket "PINGREQ body must be empty")
  | .pubRec | .pubRel | .pubComp => throw (.unexpectedPacket "QoS 2 not supported")
  | .auth                        => throw (.unexpectedPacket "AUTH not supported")
  | .connect | .subscribe | .unsubscribe => throw (.unexpectedPacket "client-to-server packet type")

-- The packets that a client can both encode and decode, with their encoding.
inductive Encodes : Packet → Bytes → Prop
  | publish {packet : PublishPacket} : (packet.encode = .ok bytes) → Encodes (.publish packet) bytes
  | pubAck {packet : PubAckPacket} : (packet.encode = .ok bytes) → Encodes (.pubAck packet) bytes
  | disconnect {packet : DisconnectPacket} :
    (packet.encode = .ok bytes) → Encodes (.disconnect packet) bytes

end MqttWasi.Packet
