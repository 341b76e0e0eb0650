import MqttWasi.Client.Basic
import MqttWasi.Driver.Types

namespace MqttWasi

-- What the asynchronous client reads its CONNACK with, before there is a driver.
structure Handshake where
  stream : Transport
  clock : Clock

abbrev HandshakeM := EStateM Stop Handshake

def mapConnectIo (e : IoError) : Error :=
  if e.kind = .timedOut ∨ e.kind = .wouldBlock then .timeout "connect" else .io e

namespace Handshake

def fail (error : Error) : HandshakeM α :=
  throw (.failed error)

-- The `?` operator
def lift (result : Except Error α) : HandshakeM α :=
  match result with
  | .ok a    => pure a
  | .error e => fail e

def onStream (call : Transport → Option (Except IoError α × Transport)) :
    HandshakeM (Except IoError α) := do
  let handshake ← get
  match call handshake.stream with
  | none => throw .blocked
  | some (result, stream) =>
    set { handshake with stream }
    return result

-- `Instant::now`
def now : HandshakeM Instant := do
  let handshake ← get
  set { handshake with clock := handshake.clock.tick }
  return handshake.clock.now

def connectRemaining (deadline : Instant) : HandshakeM Duration := do
  let now ← now
  if now < deadline then
    return deadline - now
  else
    fail (.timeout "connect")

def setReadTimeout (_timeout : Duration) : HandshakeM Unit := do
  if let .error e ← onStream Transport.configure then
    fail (.io e)

-- The bytes that fill a buffer of this length. Every round but the last takes a result of `read`,
-- so the rounds are never too few.
def readExactUntil (len : Nat) (deadline : Instant) : HandshakeM Bytes := do
  go ((← get).stream.readable + 1) len
where
  go : Nat → Nat → HandshakeM Bytes
    | 0, _ => throw .blocked
    | rounds + 1, len =>
      if len = 0 then
        return []
      else do
        setReadTimeout (← connectRemaining deadline)
        match ← onStream (·.read len) with
        | .ok [] => fail .connectionClosed
        | .ok bytes =>
          let _ ← connectRemaining deadline
          return bytes ++ (← go rounds (len - bytes.length))
        | .error e =>
          if e.kind = .interrupted then go rounds len else fail (mapConnectIo e)

-- The loop ends by the check on the multiplier in its fourth round at the latest, so the bound on
-- the number of rounds is never what stops it.
def readHeaderBytes (deadline : Instant) : HandshakeM Bytes := do
  let first ← readExactUntil 1 deadline
  go 4 1 first
where
  go : Nat → UInt32 → Bytes → HandshakeM Bytes
    | 0, _, _ => fail (.malformedPacket "variable int too long")
    | rounds + 1, multiplier, headerBytes => do
      let byte ← readExactUntil 1 deadline
      let headerBytes := headerBytes ++ byte
      if byte.getD 0 0 &&& 0x80 = 0 then
        return headerBytes
      if multiplier = 128 * 128 * 128 then
        fail (.malformedPacket "variable int too long")
      go rounds (multiplier * 128) headerBytes

def readPacketBlocking (maxPacketSize : Nat) (deadline : Instant) : HandshakeM Packet := do
  let headerBytes ← readHeaderBytes deadline
  let (header, headerLen) ← lift (decodeFixedHeader headerBytes)
  let totalSize := headerLen + header.remainingLength.toNat
  if totalSize > maxPacketSize then
    fail (.packetTooLarge totalSize maxPacketSize)
  let body ← readExactUntil header.remainingLength.toNat deadline
  lift (Packet.decode header body)

-- `set_nonblocking`, `set_read_timeout` and `set_write_timeout` under the `?` operator
def configure : HandshakeM Unit := do
  if let .error e ← onStream Transport.configure then
    fail (.io e)

def connectDeadline (timeout : Duration) : HandshakeM Instant := do
  let start ← now
  match (← get).clock.checkedAdd start timeout with
  | some deadline => return deadline
  | none          => fail (.invalidOptions "connect timeout is too large")

def setConnectTimeouts (deadline : Instant) : HandshakeM Unit := do
  let _ ← connectRemaining deadline
  configure
  let _ ← connectRemaining deadline
  configure

-- Every round takes a result of `write`, so the rounds are never too few.
def writeAllUntil (bytes : Bytes) (deadline : Instant) : HandshakeM Unit := do
  go ((← get).stream.writes.length + 1) bytes
where
  go : Nat → Bytes → HandshakeM Unit
    | 0, _ => throw .blocked
    | rounds + 1, bytes =>
      if bytes = [] then
        return
      else do
        let _ ← connectRemaining deadline
        configure
        match ← onStream (·.write bytes) with
        | .ok 0       => fail (.io { kind := .writeZero })
        | .ok written =>
          let _ ← connectRemaining deadline
          go rounds (bytes.drop written)
        | .error e    =>
          if e.kind = .interrupted then go rounds bytes else fail (mapConnectIo e)

-- `AsyncMqttClient::connect_with`
def connectWith (options : ConnectOptions) : HandshakeM MqttConnection := do
  lift (options.validate (← get).clock)
  let _ ← now
  let deadline ← connectDeadline options.connectTimeout
  configure
  setConnectTimeouts deadline
  let connect := options.connectPacket options.eventCapacity
  writeAllUntil (← lift connect.encode) deadline
  let _ ← connectRemaining deadline
  configure
  if let .error e ← onStream Transport.flush then
    fail (mapConnectIo e)
  let _ ← connectRemaining deadline
  let .connAck connack ← readPacketBlocking options.maxPacketSize deadline
    | fail (.unexpectedPacket "expected CONNACK")
  if connack.reasonCode ≥ 0x80 then
    fail (.connectionRefused connack.reasonCode)
  let _ ← connectRemaining deadline
  lift (validateConnack connect.clientId connect.cleanStart connack)
  configure
  configure
  configure
  return .new options connack (← get).clock

end Handshake
end MqttWasi
