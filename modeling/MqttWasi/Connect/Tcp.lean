import MqttWasi.Client.Basic
import MqttWasi.Driver.Handshake
import MqttWasi.Connect.Address

-- Opening the TCP connections.

namespace MqttWasi

namespace Handshake

-- `AsyncMqttClient::connect_with_deadline`
def connectWithDeadline (options : ConnectOptions) (deadline : Instant) : HandshakeM MqttConnection := do
  configure
  setConnectTimeouts deadline
  let connect := options.connectPacket options.eventCapacity
  writeAllUntil (← lift connect.encode) deadline
  let _ ← connectRemaining deadline
  configure
  if let .error e ← onStream Transport.flush then
    fail (mapConnectIo e)
  let _ ← connectRemaining deadline
  let .connAck connack ← readPacketBlocking options.maxPacketSize deadline
    | fail (.unexpectedPacket "expected CONNACK")
  if connack.reasonCode ≥ 0x80 then
    fail (.connectionRefused connack.reasonCode)
  let _ ← connectRemaining deadline
  lift (validateConnack connect.clientId connect.cleanStart connack)
  configure
  configure
  configure
  return .new options connack (← get).clock

theorem connectWith_eq (options : ConnectOptions) : connectWith options = (do
    lift (options.validate (← get).clock)
    let _ ← now
    connectWithDeadline options (← connectDeadline options.connectTimeout)) :=
  rfl

end Handshake

-- `std::io::ErrorKind::ConnectionRefused` and `std::io::ErrorKind::NotConnected`
def ErrorKind.connectionRefused : ErrorKind :=
  .other 1

def ErrorKind.notConnected : ErrorKind :=
  .other 2

-- `std::io::ErrorKind::Other`
def ErrorKind.unspecified : ErrorKind :=
  .other 3

-- A call of `TcpStream::connect_timeout`
structure Attempt (Addr : Type) where
  addr : Addr
  start : Instant
  timeout : Duration
  result : Except IoError Transport

-- What the resolver returns, the results of the attempts that are still to come, and the attempts so
-- far. An attempt for which no result is left does not return.
structure Network (Addr : Type) where
  addresses : Except IoError (List Addr)
  connects : List (Except IoError Transport)
  clock : Clock
  attempts : List (Attempt Addr) := []

abbrev NetworkM (Addr : Type) := EStateM Stop (Network Addr)

namespace Network

variable {Addr : Type}

def fail (error : Error) : NetworkM Addr α :=
  throw (.failed error)

-- The `?` operator
def lift (result : Except Error α) : NetworkM Addr α :=
  match result with
  | .ok a    => pure a
  | .error e => fail e

-- `Instant::now`
def now : NetworkM Addr Instant := do
  let network ← get
  set { network with clock := network.clock.tick }
  return network.clock.now

-- `TcpStream::connect_timeout`
def connectTimeout (addr : Addr) (start : Instant) (timeout : Duration) :
    NetworkM Addr (Except IoError Transport) := do
  let network ← get
  match network.connects with
  | [] => throw .blocked
  | result :: connects =>
    set { network with connects, attempts := network.attempts ++ [Attempt.mk addr start timeout result] }
    return result

-- How the loop over the addresses ends.
inductive Dialled
  | connected (stream : Transport)
  | late
  | exhausted (attempted : Bool) (lastError : Option IoError)

-- The loop of `connect_tcp`, `connect_tcp_until` and `connect_tcp_with_deadline`. Each attempt may take
-- as long as is left.
def dial (deadline : Instant) : List Addr → Bool → Option IoError → NetworkM Addr Dialled
  | [], attempted, lastError => return .exhausted attempted lastError
  | addr :: addrs, _, _ => do
    let now ← now
    if now ≥ deadline then
      return .late
    match ← connectTimeout addr now (deadline - now) with
    | .ok stream => return .connected stream
    | .error e   => dial deadline addrs true (some e)

-- `connect_tcp`
def connectTcp (deadline : Instant) : NetworkM Addr (Except IoError Transport) := do
  match (← get).addresses with
  | .error e => return .error e
  | .ok addrs =>
    match ← dial deadline addrs false none with
    | .connected stream => return .ok stream
    | .late => return .error { kind := .timedOut, message := "TCP connect timed out" }
    | .exhausted false _ =>
      return .error { kind := .invalidInput, message := "address resolved to no socket addresses" }
    | .exhausted true lastError =>
      return .error (lastError.getD { kind := .connectionRefused, message := "TCP connect failed" })

def connectRemaining (deadline : Instant) : NetworkM Addr Duration := do
  let now ← now
  if now < deadline then
    return deadline - now
  else
    fail (.timeout "connect")

-- `connect_tcp_until`
def connectTcpUntil (deadline : Instant) : NetworkM Addr Transport := do
  let addresses := (← get).addresses
  let _ ← connectRemaining deadline
  let addrs ← lift (addresses.mapError .io)
  match ← dial deadline addrs false none with
  | .connected stream => return stream
  | .late => fail (.timeout "connect")
  | .exhausted attempted lastError =>
    let _ ← connectRemaining deadline
    if !attempted then
      fail (.io { kind := .invalidInput, message := "address resolved to no endpoints" })
    fail (mapConnectIo (lastError.getD { kind := .connectionRefused, message := "TCP connect failed" }))

-- `connect_tcp_with_deadline`
def connectTcpWithDeadline (timeout : Duration) : NetworkM Addr (Except IoError Transport) := do
  if timeout = 0 then
    return .error { kind := .invalidInput, message := "TLS connect timeout must be non-zero" }
  let start ← now
  match (← get).clock.checkedAdd start timeout with
  | none => return .error { kind := .invalidInput, message := "TLS connect timeout is too large" }
  | some deadline =>
    match (← get).addresses with
    | .error e => return .error e
    | .ok addrs =>
      match ← dial deadline addrs false none with
      | .connected stream => return .ok stream
      | .late => return .error { kind := .timedOut, message := "TLS TCP connection deadline elapsed" }
      | .exhausted false _ =>
        return .error { kind := .invalidInput, message := "address resolved to no endpoints" }
      | .exhausted true lastError =>
        return .error (lastError.getD
          { kind := .notConnected, message := "unable to connect to TLS endpoint" })

-- `MqttClient::connect`
def connect (options : ConnectOptions) : NetworkM Addr MqttClient := do
  lift (options.validate (← get).clock)
  let _ ← now
  let start ← now
  let deadline ← match (← get).clock.checkedAdd start options.connectTimeout with
    | some deadline => pure deadline
    | none          => fail (.invalidOptions "timeout is too large")
  let stream ← match ← connectTcp deadline with
    | .ok stream => pure stream
    | .error e   => if e.kind = .timedOut then fail (.timeout "connect") else fail (.io e)
  let now ← now
  if now < deadline then
    match MqttClient.connectWith stream (← get).clock { options with connectTimeout := deadline - now } with
    | .ok client  => return client
    | .error stop => throw stop
  else
    fail (.timeout "connect")

-- `AsyncMqttClient::connect`
def connectAsync (options : ConnectOptions) : NetworkM Addr MqttConnection := do
  lift (options.validate (← get).clock)
  let _ ← now
  let start ← now
  let deadline ← match (← get).clock.checkedAdd start options.connectTimeout with
    | some deadline => pure deadline
    | none          => fail (.invalidOptions "connect timeout is too large")
  let stream ← connectTcpUntil deadline
  match Handshake.connectWithDeadline options deadline { stream, clock := (← get).clock } with
  | .ok connection _ => return connection
  | .error stop _    => throw stop

-- `TlsTransport::connect_with_config_and_timeout`
def connectTls (serverName : String → Except String Name) (newConnection : Name → Except String Connection)
    (addr : String) (timeout : Duration) : NetworkM Addr (Except IoError (Connection × Transport)) := do
  match hostFromAddress addr with
  | .error e => return .error e
  | .ok host =>
    match serverName host with
    | .error e => return .error { kind := .invalidInput, message := e }
    | .ok name =>
      match ← connectTcpWithDeadline timeout with
      | .error e => return .error e
      | .ok tcp  => return (newConnection name).mapError (⟨.unspecified, ·⟩) |>.map (·, tcp)

end Network
end MqttWasi
