import MqttWasi.Library.Panics
import MqttWasi.Codec.Packet

-- The decoders once more, with what Rust checks while they run: an index or a slice out of range
-- panics, and so does an addition or a multiplication that overflows. Every read also panics unless
-- the cursor is in its buffer before and after it, and so does a loop that goes round without reading.

namespace MqttWasi.Checked

open Panics (require lift within)

abbrev CursorM := Panics.Checked Error Cursor

namespace Cursor

def InBuffer (cur : Cursor) : Prop :=
  cur.pos ≤ cur.buf.length

instance : DecidablePred InBuffer :=
  fun cur => inferInstanceAs (Decidable (cur.pos ≤ cur.buf.length))

-- `self.buf[i]`
def index (i : Nat) : CursorM UInt8 := do
  let cur ← get
  match cur.buf[i]? with
  | some b => return b
  | none   => throw .panic

-- `&self.buf[start..stop]`
def slice (start stop : Nat) : CursorM Bytes := do
  let cur ← get
  require (start ≤ stop ∧ stop ≤ cur.buf.length)
  return (cur.buf.drop start).take (stop - start)

-- `self.pos += n`. A position that is not behind the end of the buffer fits into a `usize`, as the
-- length of the buffer does.
def advance (n : Nat) : CursorM Unit := do
  let cur ← get
  require (cur.pos + n ≤ cur.buf.length)
  set (cur.advance n)

def remainingBytes : CursorM Bytes := do
  let cur ← get
  slice cur.pos cur.buf.length

def ensure (n : Nat) : CursorM Unit := do
  if (← get).remaining < n then
    throw (.error (.malformedPacket "unexpected end of data"))

def readU8 : CursorM UInt8 := within InBuffer do
  ensure 1
  let pos := (← get).pos
  let val ← index pos
  advance 1
  return val

def readU16 : CursorM UInt16 := within InBuffer do
  ensure 2
  let pos := (← get).pos
  let b₀ ← index pos
  let b₁ ← index (pos + 1)
  advance 2
  return u16FromBeBytes b₀ b₁

def readU32 : CursorM UInt32 := within InBuffer do
  ensure 4
  let pos := (← get).pos
  let b₀ ← index pos
  let b₁ ← index (pos + 1)
  let b₂ ← index (pos + 2)
  let b₃ ← index (pos + 3)
  advance 4
  return u32FromBeBytes b₀ b₁ b₂ b₃

def readBytes (n : Nat) : CursorM Bytes := within InBuffer do
  ensure n
  let pos := (← get).pos
  let bytes ← slice pos (pos + n)
  advance n
  return bytes

def addU32 (a b : UInt32) : CursorM UInt32 := do
  require (a.toNat + b.toNat < 2 ^ 32)
  return a + b

def mulU32 (a b : UInt32) : CursorM UInt32 := do
  require (a.toNat * b.toNat < 2 ^ 32)
  return a * b

def readVariableInt : CursorM UInt32 := within InBuffer (go 4 0 1)
where
  -- Out of rounds, the loop of the source would go on.
  go : Nat → UInt32 → UInt32 → CursorM UInt32
    | 0, _, _ => throw .panic
    | rounds + 1, value, multiplier => do
      let byte ← readU8
      let value ← addU32 value (← mulU32 (byte.toUInt32 &&& 0x7F) multiplier)
      if byte &&& 0x80 = 0 then
        return value
      let multiplier ← mulU32 multiplier 128
      if multiplier > 128 * 128 * 128 then
        throw (.error (.malformedPacket "variable int too long"))
      go rounds value multiplier

def readString : CursorM String := within InBuffer do
  let len ← readU16
  let bytes ← readBytes len.toNat
  if bytes.contains 0 then
    throw (.error (.malformedPacket "MQTT string contains null"))
  match fromUtf8 bytes with
  | some s => return s
  | none   => throw (.error (.malformedPacket "invalid UTF-8"))

def readBinary : CursorM Bytes := within InBuffer do
  let len ← readU16
  readBytes len.toNat

end Cursor

def decodeFixedHeader : CursorM (FixedHeader × Nat) := do
  let firstByte ← Cursor.readU8
  let packetType ← lift (PacketType.fromU8 (firstByte >>> 4))
  let flags := firstByte &&& 0x0F
  let remainingLength ← Cursor.readVariableInt
  let header : FixedHeader := { packetType, flags, remainingLength }
  lift (validateFixedHeader header)
  return (header, (← get).pos)

def PropertyValue.decode (id : PropertyId) : CursorM PropertyValue :=
  match id with
  | .maximumQoS | .retainAvailable | .wildcardSubscriptionAvailable
  | .sharedSubscriptionAvailable => return .byte (← Cursor.readU8)
  | .receiveMaximum | .serverKeepAlive | .topicAliasMaximum => return .u16 (← Cursor.readU16)
  | .sessionExpiryInterval | .maximumPacketSize => return .u32 (← Cursor.readU32)
  | .responseTopic | .assignedClientIdentifier | .reasonString => return .str (← Cursor.readString)
  | .correlationData => return .binary (← Cursor.readBinary)
  | .userProperty => do
    let k ← Cursor.readString
    let v ← Cursor.readString
    return .stringPair k v

def skipPropertyValue (id : UInt8) : CursorM Unit := do
  if id = 0x01 then
    if (← Cursor.readU8) > 1 then
      throw (.error (.malformedPacket "payload format indicator must be zero or one"))
  else if id = 0x29 then
    if (← Cursor.readU8) > 1 then
      throw (.error (.malformedPacket "subscription identifiers available must be zero or one"))
  else if id ∈ [0x17, 0x19, 0x24] then
    discard Cursor.readU8
  else if id ∈ [0x13, 0x21, 0x22] then
    discard Cursor.readU16
  else if id ∈ [0x02, 0x11, 0x18, 0x27] then
    discard Cursor.readU32
  else if id = 0x0B then
    if (← Cursor.readVariableInt) = 0 then
      throw (.error (.malformedPacket "subscription identifier must be non-zero"))
  else if id ∈ [0x03, 0x08, 0x12, 0x15, 0x1A, 0x1C, 0x1F] then
    discard Cursor.readString
  else if id ∈ [0x09, 0x16] then
    discard Cursor.readBinary
  else if id = 0x26 then
    discard Cursor.readString
    discard Cursor.readString
  else
    throw (.error (.malformedPacket "unknown property id"))

namespace Properties

def decodeEntry (context : Option PropertyContext) (stop : Nat) (seenIds : Bytes) :
    CursorM (Bytes × Option (PropertyId × PropertyValue)) := do
  let rawId ← Cursor.readVariableInt
  if rawId > 0xFF then
    throw (.error (.malformedPacket "property id exceeds one byte"))
  let idByte := rawId.toUInt8
  if idByte = 0x23 then
    throw (.error (.malformedPacket "topic alias is not supported"))
  if context.any (!·.allows idByte) then
    throw (.error (.malformedPacket "property is not allowed in this packet"))
  let seenIds ← lift (registerPropertyId seenIds idByte context)
  match PropertyId.fromU8 idByte with
  | none =>
    skipPropertyValue idByte
    if (← get).pos > stop then
      throw (.error (.malformedPacket "property exceeded declared length"))
    return (seenIds, none)
  | some id =>
    let value ← PropertyValue.decode id
    if (← get).pos > stop then
      throw (.error (.malformedPacket "property exceeded declared length"))
    lift (validateProperty id value)
    return (seenIds, some (id, value))

def decodeEntries (context : Option PropertyContext) (stop : Nat) :
    Nat → Bytes → Properties → CursorM Properties
  | 0, _, props => do
    require (stop ≤ (← get).pos)
    return props
  | rounds + 1, seenIds, props => do
    let start := (← get).pos
    if start < stop then
      let (seenIds, entry) ← decodeEntry context stop seenIds
      require (start < (← get).pos)
      match entry with
      | none           => decodeEntries context stop rounds seenIds props
      | some (id, val) => decodeEntries context stop rounds seenIds (props.push id val)
    else
      return props

def decodeInner (context : Option PropertyContext) : CursorM Properties := do
  let propLen ← Cursor.readVariableInt
  if propLen = 0 then
    return {}
  if (← get).remaining < propLen.toNat then
    throw (.error (.malformedPacket "property length exceeds packet"))
  let stop := (← get).pos + propLen.toNat
  let props ← decodeEntries context stop propLen.toNat [] {}
  if (← get).pos ≠ stop then
    throw (.error (.malformedPacket "property length mismatch"))
  return props

def decodeFor (context : PropertyContext) : CursorM Properties :=
  decodeInner (some context)

end Properties

def ConnAckPacket.decode : CursorM ConnAckPacket := do
  let ackFlags ← Cursor.readU8
  if ackFlags &&& 0xFE ≠ 0 then
    throw (.error (.malformedPacket "CONNACK has reserved acknowledge flags"))
  let sessionPresent := ackFlags &&& 0x01 ≠ 0
  let reasonCode ← Cursor.readU8
  if !isConnackReasonCode reasonCode then
    throw (.error (.invalidReasonCode reasonCode))
  if sessionPresent ∧ reasonCode ≠ 0x00 then
    throw (.error (.malformedPacket "refused CONNACK has session present"))
  let properties ← Properties.decodeFor .connAck
  if (← get).remaining ≠ 0 then
    throw (.error (.malformedPacket "trailing CONNACK bytes"))
  return { sessionPresent, reasonCode, properties }

namespace PublishPacket

def decode (flags : UInt8) : CursorM PublishPacket := do
  let dup := flags &&& 0x08 ≠ 0
  let qos ← lift (QoS.fromU8 ((flags >>> 1) &&& 0x03))
  let retain := flags &&& 0x01 ≠ 0
  let topic ← Cursor.readString
  lift (validateTopicName topic)
  let packetId ← decodePacketId qos
  let properties ← Properties.decodeFor .publish
  let payload ← Cursor.remainingBytes
  return { topic, packetId, payload, qos, retain, dup, properties }
where
  decodePacketId (qos : QoS) : CursorM (Option UInt16) := do
    if qos ≠ .atMostOnce then
      let packetId ← Cursor.readU16
      if packetId = 0 then
        throw (.error (.malformedPacket "PUBLISH packet identifier is zero"))
      return some packetId
    else
      return none

end PublishPacket

def PubAckPacket.decode : CursorM PubAckPacket := do
  let packetId ← Cursor.readU16
  if packetId = 0 then
    throw (.error (.malformedPacket "PUBACK packet identifier is zero"))
  let reasonCode ← if (← get).remaining > 0 then Cursor.readU8 else pure 0x00
  if !isPubackReasonCode reasonCode then
    throw (.error (.invalidReasonCode reasonCode))
  if (← get).remaining > 0 then
    discard (Properties.decodeFor .pubAck)
  if (← get).remaining ≠ 0 then
    throw (.error (.malformedPacket "trailing PUBACK bytes"))
  return { packetId, reasonCode }

def decodeAckBody (name : String) (context : PropertyContext) (isReasonCode : UInt8 → Bool) :
    CursorM (UInt16 × Bytes) := do
  let packetId ← Cursor.readU16
  if packetId = 0 then
    throw (.error (.malformedPacket (name ++ " packet identifier is zero")))
  discard (Properties.decodeFor context)
  let reasonCodes ← Cursor.remainingBytes
  if reasonCodes.isEmpty then
    throw (.error (.malformedPacket (name ++ " has no reason codes")))
  if let some invalid := reasonCodes.find? (!isReasonCode ·) then
    throw (.error (.invalidReasonCode invalid))
  return (packetId, reasonCodes)

def DisconnectPacket.decode (body : Bytes) : CursorM DisconnectPacket := do
  let reasonCode ← if body.isEmpty then pure 0x00 else Cursor.readU8
  if !isDisconnectReasonCode reasonCode then
    throw (.error (.invalidReasonCode reasonCode))
  if (← get).remaining > 0 then
    discard (Properties.decodeFor .disconnect)
  if (← get).remaining ≠ 0 then
    throw (.error (.malformedPacket "trailing DISCONNECT bytes"))
  return { reasonCode }

-- A decoder on a cursor of its own.
def fresh (decoder : CursorM α) (body : Bytes) : Except (Panics.Fault Error) α :=
  (decoder { buf := body }).value

def Packet.decode (header : FixedHeader) (body : Bytes) : Except (Panics.Fault Error) Packet := do
  match validateFixedHeader header with
  | .error e => throw (.error e)
  | .ok _ =>
  if body.length ≠ header.remainingLength.toNat then
    throw (.error (.malformedPacket "body length does not match header"))
  match header.packetType with
  | .connAck    => return .connAck (← fresh ConnAckPacket.decode body)
  | .publish    => return .publish (← fresh (PublishPacket.decode header.flags) body)
  | .pubAck     => return .pubAck (← fresh PubAckPacket.decode body)
  | .subAck     =>
    let (packetId, reasonCodes) ← fresh (decodeAckBody "SUBACK" .subAck isSubackReasonCode) body
    return .subAck { packetId, reasonCodes }
  | .unsubAck   =>
    let (packetId, reasonCodes) ← fresh (decodeAckBody "UNSUBACK" .unsubAck isUnsubackReasonCode) body
    return .unsubAck { packetId, reasonCodes }
  | .pingResp   =>
    if body.isEmpty then return .pingResp
    else throw (.error (.malformedPacket "PINGRESP body must be empty"))
  | .disconnect => return .disconnect (← fresh (DisconnectPacket.decode body) body)
  | .pingReq    =>
    if body.isEmpty then return .pingReq
    else throw (.error (.malformedPacket "PINGREQ body must be empty"))
  | .pubRec | .pubRel | .pubComp => throw (.error (.unexpectedPacket "QoS 2 not supported"))
  | .auth                        => throw (.error (.unexpectedPacket "AUTH not supported"))
  | .connect | .subscribe | .unsubscribe =>
    throw (.error (.unexpectedPacket "client-to-server packet type"))

end MqttWasi.Checked
