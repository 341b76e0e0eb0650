import MqttWasi.Codec.Decode

namespace MqttWasi

-- Encoders append to the buffer they are given.
abbrev EncodeM := EStateM Error Bytes

-- `u16::to_be_bytes`
def u16ToBeBytes (val : UInt16) : Bytes :=
  [.ofNat (val.toNat / 256), .ofNat val.toNat]

-- `u32::to_be_bytes`
def u32ToBeBytes (val : UInt32) : Bytes :=
  [.ofNat (val.toNat / 256 / 256 / 256), .ofNat (val.toNat / 256 / 256), .ofNat (val.toNat / 256),
    .ofNat val.toNat]

def variableIntMax : UInt32 := 268435455

def extend (bytes : Bytes) : EncodeM Unit :=
  modify (· ++ bytes)

-- A `u32` has at most five groups of seven bits.
def encodeVariableInt (value : UInt32) : EncodeM Unit := do
  if value > variableIntMax then
    throw (.packetTooLarge value.toNat variableIntMax.toNat)
  go 5 value
where
  go : Nat → UInt32 → EncodeM Unit
    | 0, _ => return
    | rounds + 1, value => do
      let byte := (value &&& 0x7F).toUInt8
      let value := value >>> 7
      extend [if value > 0 then byte ||| 0x80 else byte]
      if value ≠ 0 then
        go rounds value

def variableIntLen (value : UInt32) : Nat :=
  if value ≤ 127 then 1
  else if value ≤ 16383 then 2
  else if value ≤ 2097151 then 3
  else 4

def encodeString (s : String) : EncodeM Unit := do
  let len := (utf8 s).length
  if len > 65535 then
    throw (.stringTooLong len)
  if (utf8 s).contains 0 then
    throw (.malformedPacket "MQTT string contains null")
  extend (u16ToBeBytes (.ofNat len))
  extend (utf8 s)

def encodeBinary (data : Bytes) : EncodeM Unit := do
  let len := data.length
  if len > 65535 then
    throw (.binaryTooLong len)
  extend (u16ToBeBytes (.ofNat len))
  extend data

def encodeU16 (val : UInt16) : EncodeM Unit :=
  extend (u16ToBeBytes val)

def encodeFixedHeader (packetType : PacketType) (flags : UInt8) (remainingLength : UInt32) :
    EncodeM Unit := do
  if flags > 0x0F then
    throw (.malformedPacket "fixed-header flags exceed four bits")
  check (validateFixedHeader { packetType, flags, remainingLength })
  extend [(packetType.toU8 <<< 4) ||| flags]
  encodeVariableInt remainingLength

def stringLen (s : String) : Nat :=
  2 + (utf8 s).length

def binaryLen (data : Bytes) : Nat :=
  2 + data.length

-- The packet encoders build the body in a buffer of its own and put the fixed header, with the
-- length of the body truncated to a `u32`, in front of it.
def withFixedHeader (packetType : PacketType) (flags : UInt8) (body : Bytes) : EncodeM Unit := do
  encodeFixedHeader packetType flags (.ofNat body.length)
  extend body

-- What an encoder puts in an empty buffer.
def EncodeM.bytes (encoder : EncodeM Unit) : Except Error Bytes :=
  match encoder [] with
  | .ok _ buf  => .ok buf
  | .error e _ => .error e

end MqttWasi
