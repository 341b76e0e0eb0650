import MqttWasi.Codec.Encode
import MqttWasi.Codec.Topic

namespace MqttWasi

-- The packet type whose property set is encoded or decoded.
inductive PropertyContext
  | connect
  | connAck
  | publish
  | pubAck
  | subscribe
  | subAck
  | unsubscribe
  | unsubAck
  | disconnect
  deriving DecidableEq, Repr

namespace PropertyContext

def allowlist : PropertyContext → Bytes
  | connect                    => [0x11, 0x21, 0x22, 0x26, 0x27]
  | connAck                    => [0x11, 0x12, 0x13, 0x15, 0x16, 0x1A, 0x1C, 0x1F, 0x21, 0x22, 0x24,
                                   0x25, 0x26, 0x27, 0x28, 0x29, 0x2A]
  | publish                    => [0x01, 0x02, 0x03, 0x08, 0x09, 0x0B, 0x23, 0x26]
  | pubAck | subAck | unsubAck => [0x1F, 0x26]
  | subscribe                  => [0x0B, 0x26]
  | unsubscribe                => [0x26]
  | disconnect                 => [0x1C, 0x1F, 0x26]

def allows (context : PropertyContext) (id : UInt8) : Bool :=
  context.allowlist.contains id

end PropertyContext

namespace PropertyValue

-- Whether the value has the wire type of the property.
def hasTypeOf : PropertyValue → PropertyId → Bool
  | str _, .responseTopic | str _, .assignedClientIdentifier | str _, .reasonString
  | binary _, .correlationData
  | u32 _, .sessionExpiryInterval | u32 _, .maximumPacketSize
  | u16 _, .serverKeepAlive | u16 _, .receiveMaximum | u16 _, .topicAliasMaximum
  | byte _, .maximumQoS | byte _, .retainAvailable | byte _, .wildcardSubscriptionAvailable
  | byte _, .sharedSubscriptionAvailable
  | stringPair _ _, .userProperty => true
  | _, _ => false

def encode : PropertyValue → EncodeM Unit
  | byte b         => extend [b]
  | u16 v          => encodeU16 v
  | u32 v          => extend (u32ToBeBytes v)
  | str s          => encodeString s
  | binary bytes   => encodeBinary bytes
  | stringPair k v => do
    encodeString k
    encodeString v

def decode (id : PropertyId) : CursorM PropertyValue :=
  match id with
  | .maximumQoS | .retainAvailable | .wildcardSubscriptionAvailable
  | .sharedSubscriptionAvailable => return byte (← Cursor.readU8)
  | .receiveMaximum | .serverKeepAlive | .topicAliasMaximum => return u16 (← Cursor.readU16)
  | .sessionExpiryInterval | .maximumPacketSize => return u32 (← Cursor.readU32)
  | .responseTopic | .assignedClientIdentifier | .reasonString => return str (← Cursor.readString)
  | .correlationData => return binary (← Cursor.readBinary)
  | .userProperty => do
    let k ← Cursor.readString
    let v ← Cursor.readString
    return stringPair k v

end PropertyValue

def validateProperty (id : PropertyId) (value : PropertyValue) : Except Error Unit :=
  if !value.hasTypeOf id then
    .error (.malformedPacket "property value has wrong wire type")
  else
    match id, value with
    | .responseTopic, .str topic => validateTopicName topic
    | .assignedClientIdentifier, .str identifier =>
      if identifier.isEmpty then
        .error (.malformedPacket "assigned client identifier must be non-empty")
      else
        .ok ()
    | .receiveMaximum, .u16 value =>
      if value = 0 then .error (.malformedPacket "receive maximum must be non-zero") else .ok ()
    | .maximumPacketSize, .u32 value =>
      if value = 0 then .error (.malformedPacket "maximum packet size must be non-zero") else .ok ()
    | .maximumQoS, .byte value =>
      if value > 1 then .error (.malformedPacket "maximum QoS exceeds one") else .ok ()
    | .retainAvailable, .byte value
    | .wildcardSubscriptionAvailable, .byte value
    | .sharedSubscriptionAvailable, .byte value =>
      if value > 1 then
        .error (.malformedPacket "availability property must be zero or one")
      else
        .ok ()
    | _, _ => .ok ()

-- Consumes the value of a legal property without a typed interface.
def skipPropertyValue (id : UInt8) : CursorM Unit := do
  if id = 0x01 then
    if (← Cursor.readU8) > 1 then
      throw (.malformedPacket "payload format indicator must be zero or one")
  else if id = 0x29 then
    if (← Cursor.readU8) > 1 then
      throw (.malformedPacket "subscription identifiers available must be zero or one")
  else if id ∈ [0x17, 0x19, 0x24] then
    discard Cursor.readU8
  else if id ∈ [0x13, 0x21, 0x22] then
    discard Cursor.readU16
  else if id ∈ [0x02, 0x11, 0x18, 0x27] then
    discard Cursor.readU32
  else if id = 0x0B then
    if (← Cursor.readVariableInt) = 0 then
      throw (.malformedPacket "subscription identifier must be non-zero")
  else if id ∈ [0x03, 0x08, 0x12, 0x15, 0x1A, 0x1C, 0x1F] then
    discard Cursor.readString
  else if id ∈ [0x09, 0x16] then
    discard Cursor.readBinary
  else if id = 0x26 then
    discard Cursor.readString
    discard Cursor.readString
  else
    throw (.malformedPacket "unknown property id")

-- The identifiers seen so far, with this one added unless it repeats a singleton.
def registerPropertyId (seenIds : Bytes) (id : UInt8) (context : Option PropertyContext) :
    Except Error Bytes :=
  let repeatable := id == PropertyId.userProperty.toU8 ||
    (id == 0x0B && (context == none || context == some .publish))
  if !repeatable && seenIds.contains id then
    .error (.malformedPacket "duplicate singleton property")
  else
    .ok (seenIds ++ [id])

namespace Properties

def push (props : Properties) (id : PropertyId) (value : PropertyValue) : Properties :=
  { entries := props.entries ++ [(id, value)] }

def user (props : Properties) (key value : String) : Properties :=
  props.push .userProperty (.stringPair key value)

def replaceSingle (props : Properties) (id : PropertyId) (value : PropertyValue) : Properties :=
  { entries := props.entries.filter (·.1 ≠ id) ++ [(id, value)] }

def setResponseTopic (props : Properties) (topic : String) : Properties :=
  props.replaceSingle .responseTopic (.str topic)

def setCorrelationData (props : Properties) (data : Bytes) : Properties :=
  props.replaceSingle .correlationData (.binary data)

-- The first value under an identifier that a projection accepts.
def find (props : Properties) (id : PropertyId) (proj : PropertyValue → Option α) : Option α :=
  props.entries.findSome? fun (pid, val) => if pid = id then proj val else none

def getByte (props : Properties) (id : PropertyId) : Option UInt8 :=
  props.find id fun | .byte b => some b | _ => none

def getU16 (props : Properties) (id : PropertyId) : Option UInt16 :=
  props.find id fun | .u16 v => some v | _ => none

def getU32 (props : Properties) (id : PropertyId) : Option UInt32 :=
  props.find id fun | .u32 v => some v | _ => none

def getString (props : Properties) (id : PropertyId) : Option String :=
  props.find id fun | .str s => some s | _ => none

def getBinary (props : Properties) (id : PropertyId) : Option Bytes :=
  props.find id fun | .binary bytes => some bytes | _ => none

-- Appends one entry, where `previous` are the entries in front of it.
def encodeEntry (context : Option PropertyContext) (previous : List (PropertyId × PropertyValue))
    (id : PropertyId) (val : PropertyValue) : EncodeM Unit := do
  if context.any (!·.allows id.toU8) then
    throw (.malformedPacket "property is not allowed in this packet")
  check (validateProperty id val)
  if id ≠ .userProperty ∧ previous.any (·.1 = id) then
    throw (.malformedPacket "duplicate singleton property")
  encodeVariableInt id.toU8.toUInt32
  val.encode

def encodeEntries (context : Option PropertyContext) (previous : List (PropertyId × PropertyValue)) :
    List (PropertyId × PropertyValue) → EncodeM Unit
  | [] => return
  | (id, val) :: rest => do
    encodeEntry context previous id val
    encodeEntries context (previous ++ [(id, val)]) rest

def encodeInner (props : Properties) (context : Option PropertyContext) : EncodeM Unit := do
  let body ← check (encodeEntries context [] props.entries).bytes
  encodeVariableInt (.ofNat body.length)
  extend body

def encode (props : Properties) : EncodeM Unit :=
  props.encodeInner none

def encodeFor (props : Properties) (context : PropertyContext) : EncodeM Unit :=
  props.encodeInner (some context)

def bodyLen (props : Properties) : Nat :=
  props.entries.map (fun (id, val) => variableIntLen id.toU8.toUInt32 + valLen val) |>.sum
where
  valLen : PropertyValue → Nat
    | .byte _         => 1
    | .u16 _          => 2
    | .u32 _          => 4
    | .str s          => stringLen s
    | .binary bytes   => binaryLen bytes
    | .stringPair k v => stringLen k + stringLen v

def encodedLen (props : Properties) : Nat :=
  variableIntLen (.ofNat props.bodyLen) + props.bodyLen

-- Reads one property that has to end at `stop` or before it. Properties without a typed interface
-- are validated and dropped.
def decodeEntry (context : Option PropertyContext) (stop : Nat) (seenIds : Bytes) :
    CursorM (Bytes × Option (PropertyId × PropertyValue)) := do
  let rawId ← Cursor.readVariableInt
  if rawId > 0xFF then
    throw (.malformedPacket "property id exceeds one byte")
  let idByte := rawId.toUInt8
  if idByte = 0x23 then
    throw (.malformedPacket "topic alias is not supported")
  if context.any (!·.allows idByte) then
    throw (.malformedPacket "property is not allowed in this packet")
  let seenIds ← check (registerPropertyId seenIds idByte context)
  match PropertyId.fromU8 idByte with
  | none =>
    skipPropertyValue idByte
    if (← get).pos > stop then
      throw (.malformedPacket "property exceeded declared length")
    return (seenIds, none)
  | some id =>
    let value ← PropertyValue.decode id
    if (← get).pos > stop then
      throw (.malformedPacket "property exceeded declared length")
    check (validateProperty id value)
    return (seenIds, some (id, value))

-- Every round of the loop consumes at least one byte, so the declared length bounds the rounds.
def decodeEntries (context : Option PropertyContext) (stop : Nat) :
    Nat → Bytes → Properties → CursorM Properties
  | 0, _, props => return props
  | rounds + 1, seenIds, props => do
    if (← get).pos < stop then
      let (seenIds, entry) ← decodeEntry context stop seenIds
      match entry with
      | none           => decodeEntries context stop rounds seenIds props
      | some (id, val) => decodeEntries context stop rounds seenIds (props.push id val)
    else
      return props

def decodeInner (context : Option PropertyContext) : CursorM Properties := do
  let propLen ← Cursor.readVariableInt
  if propLen = 0 then
    return {}
  if (← get).remaining < propLen.toNat then
    throw (.malformedPacket "property length exceeds packet")
  let stop := (← get).pos + propLen.toNat
  let props ← decodeEntries context stop propLen.toNat [] {}
  if (← get).pos ≠ stop then
    throw (.malformedPacket "property length mismatch")
  return props

def decode : CursorM Properties :=
  decodeInner none

def decodeFor (context : PropertyContext) : CursorM Properties :=
  decodeInner (some context)

end Properties
end MqttWasi
