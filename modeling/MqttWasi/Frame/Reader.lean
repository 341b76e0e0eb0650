import MqttWasi.Library.Framing
import MqttWasi.Codec.Packet

namespace MqttWasi

-- The largest control packet: a fixed header of five bytes and the maximal Remaining Length.
def mqttMaxPacketSize : Nat := 268435460

inductive FrameState
  | readingHeader
  | readingBody (header : FixedHeader) (headerLen totalLen : Nat)
  deriving DecidableEq

structure FrameReader where
  buf : Bytes := []
  state : FrameState := .readingHeader
  maxPacketSize : Nat
  overflowSize : Option Nat := none
  deriving DecidableEq

namespace FrameReader

def withMaxPacketSize (max : Nat) : FrameReader :=
  { maxPacketSize := max }

def remainingCapacity (reader : FrameReader) : Nat :=
  let target := match reader.state with
    | .readingHeader            => reader.maxPacketSize
    | .readingBody _ _ totalLen => totalLen
  target - reader.buf.length

def push (reader : FrameReader) (data : Bytes) : FrameReader :=
  let available := reader.remainingCapacity
  if data.length > available then
    let buf := reader.buf ++ data.take available
    { reader with buf, overflowSize := some (buf.length + (data.length - available)) }
  else
    { reader with buf := reader.buf ++ data }

-- Running out of data inside of the fixed header is told apart from a malformed header by the
-- message of the error.
def readHeader : EStateM Error FrameReader (Option (FixedHeader × Nat × Nat)) := do
  let reader ← get
  if reader.buf.isEmpty then
    return none
  match decodeFixedHeader reader.buf with
  | .ok (header, headerLen) =>
    let totalLen := headerLen + header.remainingLength.toNat
    if totalLen > reader.maxPacketSize then
      throw (.packetTooLarge totalLen reader.maxPacketSize)
    set { reader with state := .readingBody header headerLen totalLen }
    return some (header, headerLen, totalLen)
  | .error e =>
    if e = .malformedPacket "unexpected end of data" then
      return none
    else
      throw e

def readBody (header : FixedHeader) (headerLen totalLen : Nat) :
    EStateM Error FrameReader (Option Packet) := do
  let reader ← get
  if reader.buf.length < totalLen then
    return none
  let packet ← check (Packet.decode header ((reader.buf.take totalLen).drop headerLen))
  set { reader with buf := reader.buf.drop totalLen, state := .readingHeader }
  return some packet

-- The loop of the source goes round at most once, from the header to the body behind it.
def tryDecode : EStateM Error FrameReader (Option Packet) := do
  let reader ← get
  if let some size := reader.overflowSize then
    throw (.packetTooLarge size reader.maxPacketSize)
  match reader.state with
  | .readingHeader =>
    match ← readHeader with
    | none                              => return none
    | some (header, headerLen, totalLen) => readBody header headerLen totalLen
  | .readingBody header headerLen totalLen => readBody header headerLen totalLen

-- What a caller has got from a reader: the packets in order, and the error that stopped it if any.
structure Run where
  packets : List Packet
  error : Option Error
  reader : FrameReader
  deriving DecidableEq

-- Calls `tryDecode` until it asks for more data or fails. A packet takes at least one byte, so the
-- calls do not run out.
def drain (reader : FrameReader) : Option Run :=
  go (reader.buf.length + 1) reader
where
  go : Nat → FrameReader → Option Run
    | 0, _ => none
    | calls + 1, reader =>
      match tryDecode reader with
      | .ok none reader          => some { packets := [], error := none, reader }
      | .error e reader          => some { packets := [], error := some e, reader }
      | .ok (some packet) reader =>
        (go calls reader).map fun run => { run with packets := packet :: run.packets }

-- Pushes a stream chunk by chunk, draining the reader after each of them, up to the first error.
def feed : FrameReader → List Bytes → Option Run
  | reader, [] => some { packets := [], error := none, reader }
  | reader, chunk :: chunks =>
    (drain (reader.push chunk)).bind fun run =>
      if run.error.isSome then
        some run
      else
        (feed run.reader chunks).map fun rest =>
          { rest with packets := run.packets ++ rest.packets }

-- No chunk that is pushed exceeds the capacity of the reader at that time.
def Respects : FrameReader → List Bytes → Prop
  | _, [] => True
  | reader, chunk :: chunks =>
    chunk.length ≤ reader.remainingCapacity ∧
      ∀ run, drain (reader.push chunk) = some run → run.error = none → Respects run.reader chunks

end FrameReader

-- The reference parser of a stream: decodes a fixed header, rejects it if the packet it announces
-- is too large, and decodes exactly this packet.
def nextPacket (max : Nat) (stream : Bytes) : Framing.Verdict Error Packet :=
  match decodeFixedHeader stream with
  | .ok (header, headerLen) => body header headerLen (headerLen + header.remainingLength.toNat)
  | .error e =>
    if e = .malformedPacket "unexpected end of data" then .more else .fail e
where
  body (header : FixedHeader) (headerLen totalLen : Nat) : Framing.Verdict Error Packet :=
    if totalLen > max then
      .fail (.packetTooLarge totalLen max)
    else if stream.length < totalLen then
      .more
    else
      match Packet.decode header ((stream.take totalLen).drop headerLen) with
      | .ok packet => .item packet totalLen
      | .error e   => .fail e

end MqttWasi
