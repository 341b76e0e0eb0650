import MqttWasi.Codec.Error

namespace MqttWasi

abbrev Bytes := List UInt8

-- The control packet types, in the order of the four-bit values `1, …, 15` they have on the wire.
inductive PacketType
  | connect
  | connAck
  | publish
  | pubAck
  | pubRec
  | pubRel
  | pubComp
  | subscribe
  | subAck
  | unsubscribe
  | unsubAck
  | pingReq
  | pingResp
  | disconnect
  | auth
  deriving DecidableEq, Repr

namespace PacketType

def toU8 : PacketType → UInt8
  | connect     => 1
  | connAck     => 2
  | publish     => 3
  | pubAck      => 4
  | pubRec      => 5
  | pubRel      => 6
  | pubComp     => 7
  | subscribe   => 8
  | subAck      => 9
  | unsubscribe => 10
  | unsubAck    => 11
  | pingReq     => 12
  | pingResp    => 13
  | disconnect  => 14
  | auth        => 15

def fromU8 (val : UInt8) : Except Error PacketType :=
  match val with
  | 1  => .ok connect
  | 2  => .ok connAck
  | 3  => .ok publish
  | 4  => .ok pubAck
  | 5  => .ok pubRec
  | 6  => .ok pubRel
  | 7  => .ok pubComp
  | 8  => .ok subscribe
  | 9  => .ok subAck
  | 10 => .ok unsubscribe
  | 11 => .ok unsubAck
  | 12 => .ok pingReq
  | 13 => .ok pingResp
  | 14 => .ok disconnect
  | 15 => .ok auth
  | _  => .error (.invalidPacketType val)

@[simp]
theorem fromU8_toU8 (t : PacketType) : fromU8 t.toU8 = .ok t := by
  cases t <;> rfl

end PacketType

-- QoS 2 is not supported.
inductive QoS
  | atMostOnce
  | atLeastOnce
  deriving DecidableEq, Repr

namespace QoS

def toU8 : QoS → UInt8
  | atMostOnce  => 0
  | atLeastOnce => 1

def fromU8 (val : UInt8) : Except Error QoS :=
  match val with
  | 0 => .ok atMostOnce
  | 1 => .ok atLeastOnce
  | _ => .error (.invalidQoS val)

@[simp]
theorem fromU8_toU8 (q : QoS) : fromU8 q.toU8 = .ok q := by
  cases q <;> rfl

end QoS

structure FixedHeader where
  packetType : PacketType
  flags : UInt8
  remainingLength : UInt32
  deriving DecidableEq, Repr

-- The property identifiers with a typed interface. The identifiers of other legal properties are
-- only skipped over while decoding.
inductive PropertyId
  | responseTopic
  | correlationData
  | sessionExpiryInterval
  | assignedClientIdentifier
  | serverKeepAlive
  | reasonString
  | receiveMaximum
  | topicAliasMaximum
  | maximumQoS
  | retainAvailable
  | maximumPacketSize
  | wildcardSubscriptionAvailable
  | userProperty
  | sharedSubscriptionAvailable
  deriving DecidableEq, Repr

namespace PropertyId

def toU8 : PropertyId → UInt8
  | responseTopic                 => 0x08
  | correlationData               => 0x09
  | sessionExpiryInterval         => 0x11
  | assignedClientIdentifier      => 0x12
  | serverKeepAlive               => 0x13
  | reasonString                  => 0x1F
  | receiveMaximum                => 0x21
  | topicAliasMaximum             => 0x22
  | maximumQoS                    => 0x24
  | retainAvailable               => 0x25
  | maximumPacketSize             => 0x27
  | wildcardSubscriptionAvailable => 0x28
  | userProperty                  => 0x26
  | sharedSubscriptionAvailable   => 0x2A

def fromU8 (val : UInt8) : Option PropertyId :=
  match val with
  | 0x08 => some responseTopic
  | 0x09 => some correlationData
  | 0x11 => some sessionExpiryInterval
  | 0x12 => some assignedClientIdentifier
  | 0x13 => some serverKeepAlive
  | 0x1F => some reasonString
  | 0x21 => some receiveMaximum
  | 0x22 => some topicAliasMaximum
  | 0x24 => some maximumQoS
  | 0x25 => some retainAvailable
  | 0x26 => some userProperty
  | 0x27 => some maximumPacketSize
  | 0x28 => some wildcardSubscriptionAvailable
  | 0x2A => some sharedSubscriptionAvailable
  | _    => none

@[simp]
theorem fromU8_toU8 (id : PropertyId) : fromU8 id.toU8 = some id := by
  cases id <;> rfl

theorem toU8_injective : Function.Injective toU8 := by
  intro a b h
  have := congrArg fromU8 h
  simpa using this

@[simp]
theorem toU8_inj {a b : PropertyId} : a.toU8 = b.toU8 ↔ a = b :=
  toU8_injective.eq_iff

end PropertyId

inductive PropertyValue
  | byte (value : UInt8)
  | u16 (value : UInt16)
  | u32 (value : UInt32)
  | str (value : String)
  | binary (value : Bytes)
  | stringPair (key value : String)
  deriving DecidableEq

structure Properties where
  entries : List (PropertyId × PropertyValue) := []
  deriving DecidableEq

structure ConnectPacket where
  protocolVersion : UInt8
  cleanStart : Bool
  keepAlive : UInt16
  clientId : String
  username : Option String
  password : Option Bytes
  properties : Properties
  deriving DecidableEq

structure ConnAckPacket where
  sessionPresent : Bool
  reasonCode : UInt8
  properties : Properties
  deriving DecidableEq

structure PublishPacket where
  topic : String
  packetId : Option UInt16
  payload : Bytes
  qos : QoS
  retain : Bool
  dup : Bool
  properties : Properties
  deriving DecidableEq

structure PubAckPacket where
  packetId : UInt16
  reasonCode : UInt8
  deriving DecidableEq, Repr

structure SubscribePacket where
  packetId : UInt16
  filters : List (String × QoS)
  properties : Properties
  deriving DecidableEq

structure SubAckPacket where
  packetId : UInt16
  reasonCodes : Bytes
  deriving DecidableEq, Repr

structure UnsubscribePacket where
  packetId : UInt16
  filters : List String
  properties : Properties
  deriving DecidableEq

structure UnsubAckPacket where
  packetId : UInt16
  reasonCodes : Bytes
  deriving DecidableEq, Repr

structure DisconnectPacket where
  reasonCode : UInt8
  deriving DecidableEq, Repr

inductive Packet
  | connect (packet : ConnectPacket)
  | connAck (packet : ConnAckPacket)
  | publish (packet : PublishPacket)
  | pubAck (packet : PubAckPacket)
  | subscribe (packet : SubscribePacket)
  | subAck (packet : SubAckPacket)
  | unsubscribe (packet : UnsubscribePacket)
  | unsubAck (packet : UnsubAckPacket)
  | pingReq
  | pingResp
  | disconnect (packet : DisconnectPacket)
  deriving DecidableEq

end MqttWasi
