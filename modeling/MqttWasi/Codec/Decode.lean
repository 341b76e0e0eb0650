import MqttWasi.Library.Action
import MqttWasi.Codec.Types

namespace MqttWasi

-- The UTF-8 bytes of a string. Rust's `str` and Lean's `String` both are sequences of Unicode
-- scalar values that are stored in this form.
def utf8 (s : String) : Bytes :=
  s.toByteArray.data.toList

-- `String::from_utf8`
def fromUtf8 (bytes : Bytes) : Option String :=
  String.fromUTF8? ⟨bytes.toArray⟩

-- `u16::from_be_bytes`
def u16FromBeBytes (b₀ b₁ : UInt8) : UInt16 :=
  .ofNat (b₀.toNat * 256 + b₁.toNat)

-- `u32::from_be_bytes`
def u32FromBeBytes (b₀ b₁ b₂ b₃ : UInt8) : UInt32 :=
  .ofNat (((b₀.toNat * 256 + b₁.toNat) * 256 + b₂.toNat) * 256 + b₃.toNat)

structure Cursor where
  buf : Bytes
  pos : Nat := 0
  deriving DecidableEq

abbrev CursorM := EStateM Error Cursor

namespace Cursor

def remaining (cur : Cursor) : Nat :=
  cur.buf.length - cur.pos

def remainingBytes (cur : Cursor) : Bytes :=
  cur.buf.drop cur.pos

def advance (cur : Cursor) (n : Nat) : Cursor :=
  { cur with pos := cur.pos + n }

def ensure (n : Nat) : CursorM Unit := do
  if (← get).remaining < n then
    throw (.malformedPacket "unexpected end of data")

def readU8 : CursorM UInt8 := do
  ensure 1
  let cur ← get
  set (cur.advance 1)
  return cur.buf.getD cur.pos 0

def readU16 : CursorM UInt16 := do
  ensure 2
  let cur ← get
  set (cur.advance 2)
  return u16FromBeBytes (cur.buf.getD cur.pos 0) (cur.buf.getD (cur.pos + 1) 0)

def readU32 : CursorM UInt32 := do
  ensure 4
  let cur ← get
  set (cur.advance 4)
  return u32FromBeBytes (cur.buf.getD cur.pos 0) (cur.buf.getD (cur.pos + 1) 0)
    (cur.buf.getD (cur.pos + 2) 0) (cur.buf.getD (cur.pos + 3) 0)

def readBytes (n : Nat) : CursorM Bytes := do
  ensure n
  let cur ← get
  set (cur.advance n)
  return (cur.buf.drop cur.pos).take n

-- The loop ends by the check on the multiplier in its fourth round at the latest, so the bound on
-- the number of rounds is never what stops it.
def readVariableInt : CursorM UInt32 :=
  go 4 0 1
where
  go : Nat → UInt32 → UInt32 → CursorM UInt32
    | 0, _, _ => throw (.malformedPacket "variable int too long")
    | rounds + 1, value, multiplier => do
      let byte ← readU8
      let value := value + (byte.toUInt32 &&& 0x7F) * multiplier
      if byte &&& 0x80 = 0 then
        return value
      let multiplier := multiplier * 128
      if multiplier > 128 * 128 * 128 then
        throw (.malformedPacket "variable int too long")
      go rounds value multiplier

def readString : CursorM String := do
  let len ← readU16
  let bytes ← readBytes len.toNat
  if bytes.contains 0 then
    throw (.malformedPacket "MQTT string contains null")
  match fromUtf8 bytes with
  | some s => return s
  | none   => throw (.malformedPacket "invalid UTF-8")

def readBinary : CursorM Bytes := do
  let len ← readU16
  readBytes len.toNat

end Cursor

-- Only PUBLISH uses its flags. The flags of all other packets have one legal value.
def validateFixedHeader (header : FixedHeader) : Except Error Unit :=
  match header.packetType with
  | .publish =>
    let qos := (header.flags >>> 1) &&& 0x03
    if qos = 0x03 then
      .error (.invalidQoS qos)
    else if qos = 0 ∧ header.flags &&& 0x08 ≠ 0 then
      .error (.malformedPacket "QoS 0 PUBLISH has DUP flag")
    else
      .ok ()
  | .pubRel | .subscribe | .unsubscribe => expect 0x02
  | _                                   => expect 0x00
where
  expect (expected : UInt8) : Except Error Unit :=
    if header.flags ≠ expected then
      .error (.malformedPacket "invalid fixed-header flags")
    else
      .ok ()

-- Lifts a check that leaves the cursor alone.
def check (result : Except Error α) : EStateM Error σ α :=
  match result with
  | .ok a    => pure a
  | .error e => throw e

-- The header and the number of bytes it takes.
def decodeFixedHeader (data : Bytes) : Except Error (FixedHeader × Nat) :=
  (go { buf := data }).value
where
  go : CursorM (FixedHeader × Nat) := do
    let firstByte ← Cursor.readU8
    let packetType ← check (PacketType.fromU8 (firstByte >>> 4))
    let flags := firstByte &&& 0x0F
    let remainingLength ← Cursor.readVariableInt
    let header : FixedHeader := { packetType, flags, remainingLength }
    check (validateFixedHeader header)
    return (header, (← get).pos)

end MqttWasi
