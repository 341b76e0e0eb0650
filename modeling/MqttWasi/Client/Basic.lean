import MqttWasi.Client.Transport

namespace MqttWasi

-- What a client does with messages and frames.
inductive ClientAction
  | queued (packet : PublishPacket)
  | handed (frame : Bytes)
  deriving DecidableEq

structure MqttClient where
  stream : Transport
  frameReader : FrameReader
  incoming : List PublishPacket := []
  maxIncomingMessages : Nat
  nextPacketId : UInt16 := 1
  keepAliveSecs : UInt16
  ackTimeout : Duration
  maxOutboundPacketSize : Nat := mqttMaxPacketSize
  serverCapabilities : ServerCapabilities := {}
  lastReadAt : Instant := 0
  lastWriteAt : Instant := 0
  pingSentAt : Option Instant := none
  connected : Bool := false
  clock : Clock
  -- What has happened so far: the packets that have been consumed from the stream, and the messages
  -- that have been queued and the frames that have been handed to the transport.
  decoded : List Packet := []
  history : List ClientAction := []

-- How a call ends that does not return a value. A call that waits for the transport forever does
-- not end at all.
inductive Stop
  | failed (error : Error)
  | blocked
  deriving DecidableEq

abbrev ClientM := EStateM Stop MqttClient

def validateAckCode (packet : String) (reasonCode : UInt8) : Except Error Unit :=
  if reasonCode ≥ 0x80 then .error (.ackRejected packet reasonCode) else .ok ()

def validateAckCodes (packet : String) (reasonCodes : Bytes) (expected : Nat) : Except Error Unit :=
  if reasonCodes.length ≠ expected then
    .error (.malformedPacket "ack reason code count mismatch")
  else
    reasonCodes.forM (validateAckCode packet)

def mapWriteResult (result : Except IoError Unit) (operation : String) : Except Error Unit :=
  match result with
  | .ok () => .ok ()
  | .error e =>
    if e.kind = .timedOut ∨ e.kind = .wouldBlock then .error (.timeout operation) else .error (.io e)

abbrev Deadline := Instant × String

namespace MqttClient

def fail (error : Error) : ClientM α :=
  throw (.failed error)

-- The `?` operator
def lift (result : Except Error α) : ClientM α :=
  match result with
  | .ok a    => pure a
  | .error e => fail e

-- `self.connected = false`
def setDisconnected : ClientM Unit :=
  modify ({ · with connected := false })

def failDisconnected (error : Error) : ClientM α := do
  setDisconnected
  fail error

def onStream (call : Transport → Option (Except IoError α × Transport)) :
    ClientM (Except IoError α) := do
  let client ← get
  match call client.stream with
  | none => throw .blocked
  | some (result, stream) =>
    set { client with stream }
    return result

-- `Instant::now`
def now : ClientM Instant := do
  let client ← get
  set { client with clock := client.clock.tick }
  return client.clock.now

def deadlineAfter (timeout : Duration) (operation : String) : ClientM Deadline := do
  let start ← now
  match (← get).clock.checkedAdd start timeout with
  | some deadline => return (deadline, operation)
  | none          => fail (.invalidOptions "timeout is too large")

def ensureConnected : ClientM Unit := do
  if !(← get).connected then
    fail .clientClosed

def record (action : ClientAction) : ClientM Unit :=
  modify fun client => { client with history := client.history ++ [action] }

def sendEncoded (bytes : Bytes) (operation : String) : ClientM Unit := do
  let client ← get
  if bytes.length > client.maxOutboundPacketSize then
    fail (.packetTooLarge bytes.length client.maxOutboundPacketSize)
  record (.handed bytes)
  if let .error e := mapWriteResult (← onStream (·.writeAll bytes)) operation then
    failDisconnected e
  if let .error e := mapWriteResult (← onStream Transport.flush) operation then
    failDisconnected e
  let lastWriteAt ← now
  modify ({ · with lastWriteAt })

def sendPuback (packetId : UInt16) : ClientM Unit := do
  let bytes ← lift (PubAckPacket.encode { packetId, reasonCode := 0x00 })
  sendEncoded bytes "PUBACK"

-- Zero is no packet identifier, so the counter skips it when it wraps around.
def takePacketId : ClientM UInt16 := do
  let client ← get
  let next := client.nextPacketId + 1
  set { client with nextPacketId := if next = 0 then 1 else next }
  return client.nextPacketId

def acceptPublish (packet : PublishPacket) : ClientM Unit := do
  let client ← get
  if client.incoming.length ≥ client.maxIncomingMessages then
    fail (.queueFull "incoming message")
  set { client with incoming := client.incoming ++ [packet] }
  record (.queued packet)
  if packet.qos = .atLeastOnce then
    match packet.packetId with
    | some packetId => sendPuback packetId
    | none          => fail (.malformedPacket "QoS 1 PUBLISH missing packet identifier")

def serviceTimers (deadline : Option Deadline) : ClientM Unit := do
  let now₁ ← now
  if let some (at', operation) := deadline then
    if now₁ ≥ at' then
      fail (.timeout operation)
  keepAlive now₁
where
  keepAlive (now₁ : Instant) : ClientM Unit := do
    let client ← get
    if !client.connected then
      return
    match client.pingSentAt, pingInterval client.keepAliveSecs with
    | some sentAt, _ =>
      if now₁ - sentAt ≥ client.ackTimeout then
        failDisconnected .keepAliveTimeout
    | none, some interval =>
      if now₁ - client.lastWriteAt ≥ interval then
        sendEncoded pingreqBytes "keepalive"
        let sentAt ← now
        modify ({ · with pingSentAt := some sentAt })
    | none, none => return

def nextReadTimeout (deadline : Option Deadline) : ClientM (Option Duration) := do
  let now₁ ← now
  let client ← get
  let timerAt := if client.connected then
      match client.pingSentAt with
      | some sentAt => client.clock.checkedAdd sentAt client.ackTimeout
      | none => (pingInterval client.keepAliveSecs).bind (client.clock.checkedAdd client.lastWriteAt)
    else
      none
  let wakeAt := match deadline.map (·.1), timerAt with
    | some at', some timer => some (min at' timer)
    | some at', none       => some at'
    | none, timer          => timer
  return wakeAt.map fun at' => max (at' - now₁) (.fromMillis 1)

-- One round of the loop in `readPacketUntil`: the packet, or nothing after a read.
def readPacketRound (deadline : Option Deadline) : ClientM (Option Packet) := do
  let client ← get
  match FrameReader.tryDecode client.frameReader with
  | .error e frameReader =>
    set { client with frameReader }
    failDisconnected e
  | .ok (some packet) frameReader =>
    set { client with frameReader, decoded := client.decoded ++ [packet] }
    let lastReadAt ← now
    modify ({ · with lastReadAt })
    if packet = .pingResp then
      modify ({ · with pingSentAt := none })
    return some packet
  | .ok none frameReader =>
    set { client with frameReader }
    serviceTimers deadline
    let _timeout ← nextReadTimeout deadline
    if let .error e ← onStream Transport.configure then
      failDisconnected (.io e)
    let frameReader := (← get).frameReader
    let capacity := frameReader.remainingCapacity
    if capacity = 0 then
      failDisconnected (.packetTooLarge (frameReader.maxPacketSize + 1) frameReader.maxPacketSize)
    match ← onStream (·.read (min capacity 8192)) with
    | .ok [] => failDisconnected .connectionClosed
    | .ok bytes =>
      let lastReadAt ← now
      modify fun client => { client with lastReadAt, frameReader := client.frameReader.push bytes }
      return none
    | .error e =>
      if e.kind = .interrupted ∨ e.kind = .timedOut ∨ e.kind = .wouldBlock then
        return none
      else
        failDisconnected (.io e)

-- Every round that does not return takes a result of `read`, so these rounds are never too few.
def readPacketUntil (deadline : Option Deadline) : ClientM Packet := do
  go ((← get).stream.readable + 1)
where
  go : Nat → ClientM Packet
    | 0 => throw .blocked
    | rounds + 1 => do
      match ← readPacketRound deadline with
      | some packet => return packet
      | none        => go rounds

-- Runs an action and marks the client as disconnected if it fails with one of these errors.
def disconnectOn (errors : Error → Bool) (action : ClientM α) : ClientM α := fun client =>
  match action client with
  | .error (.failed e) client =>
    .error (.failed e) (if errors e then { client with connected := false } else client)
  | result => result

def readAckPacket (deadline : Deadline) : ClientM Packet :=
  disconnectOn (fun | .timeout _ => true | _ => false) (readPacketUntil (some deadline))

def acceptPublishDuringAck (packet : PublishPacket) : ClientM Unit :=
  disconnectOn (fun | .queueFull _ => true | _ => false) (acceptPublish packet)

def protocolFailure (message : String) : ClientM α :=
  failDisconnected (.unexpectedPacket message)

def serverDisconnect (packet : DisconnectPacket) : ClientM Unit :=
  failDisconnected <|
    if packet.reasonCode = 0x00 then .connectionClosed else .serverDisconnected packet.reasonCode

def ackDeadline (packet : String) : ClientM Deadline := do
  deadlineAfter (← get).ackTimeout packet

-- The number of packets that can still be decoded is at most this.
def pending (client : MqttClient) : Nat :=
  client.frameReader.buf.length + client.stream.readable

-- The loop of `wait_for_puback`, `wait_for_suback` and `wait_for_unsuback`. The acknowledgement
-- that ends it is the packet for which `finish` has something to do.
def waitForAck (name : String) (finish : Packet → Option (ClientM Unit)) : ClientM Unit := do
  let deadline ← ackDeadline name
  go deadline ((← get).pending + 1)
where
  go (deadline : Deadline) : Nat → ClientM Unit
    | 0 => throw .blocked
    | rounds + 1 => do
      let packet ← readAckPacket deadline
      match finish packet with
      | some result => result
      | none =>
        match packet with
        | .publish packet => do
          acceptPublishDuringAck packet
          go deadline rounds
        | .disconnect packet => serverDisconnect packet
        | .pingResp          => go deadline rounds
        | _                  => protocolFailure ("unexpected packet while awaiting " ++ name)

def waitForPuback (packetId : UInt16) : ClientM Unit :=
  waitForAck "PUBACK" fun
    | .pubAck ack =>
      if ack.packetId = packetId then
        some (lift (validateAckCode "PUBACK" ack.reasonCode))
      else
        none
    | _ => none

-- The codes of a SUBACK or an UNSUBACK can be malformed.
def finishAck (result : Except Error Unit) : ClientM Unit :=
  disconnectOn (fun | .malformedPacket _ => true | _ => false) (lift result)

def waitForSuback (packetId : UInt16) (requestedQos : QoS) : ClientM Unit :=
  waitForAck "SUBACK" fun
    | .subAck ack =>
      if ack.packetId = packetId then
        some (finishAck (validateSubackCodes ack.reasonCodes [requestedQos]))
      else
        none
    | _ => none

def waitForUnsuback (packetId : UInt16) : ClientM Unit :=
  waitForAck "UNSUBACK" fun
    | .unsubAck ack =>
      if ack.packetId = packetId then
        some (finishAck (validateAckCodes "UNSUBACK" ack.reasonCodes 1))
      else
        none
    | _ => none

def publish (topic : String) (payload : Bytes) (options : PublishOptions) : ClientM Unit := do
  ensureConnected
  lift (validateTopicName topic)
  lift ((← get).serverCapabilities.validatePublish options.qos options.retain)
  match options.qos with
  | .atMostOnce  => send none
  | .atLeastOnce => do
    let packetId ← takePacketId
    send (some packetId)
    waitForPuback packetId
where
  send (packetId : Option UInt16) : ClientM Unit := do
    let bytes ← lift <| PublishPacket.encode
      { topic, packetId, payload, qos := options.qos, retain := options.retain, dup := false
        properties := options.properties }
    sendEncoded bytes "publish"

def subscribe (filter : String) (qos : QoS) : ClientM Unit := do
  ensureConnected
  lift ((← get).serverCapabilities.validateSubscriptionFilter filter)
  let packetId ← takePacketId
  let bytes ← lift (SubscribePacket.encode { packetId, filters := [(filter, qos)], properties := {} })
  sendEncoded bytes "subscribe"
  waitForSuback packetId qos

def unsubscribe (filter : String) : ClientM Unit := do
  ensureConnected
  lift (validateTopicFilter filter)
  let packetId ← takePacketId
  let bytes ← lift (UnsubscribePacket.encode { packetId, filters := [filter], properties := {} })
  sendEncoded bytes "unsubscribe"
  waitForUnsuback packetId

-- `self.incoming.pop_front()`
def popIncoming : ClientM (Option PublishPacket) := do
  let client ← get
  set { client with incoming := client.incoming.tail }
  return client.incoming.head?

def recv : ClientM (Option PublishPacket) := do
  ensureConnected
  match ← popIncoming with
  | some message => return some message
  | none         => go ((← get).pending + 1)
where
  go : Nat → ClientM (Option PublishPacket)
    | 0 => throw .blocked
    | rounds + 1 => do
      match ← readPacketUntil none with
      | .publish packet =>
        acceptPublish packet
        popIncoming
      | .disconnect packet =>
        setDisconnected
        if packet.reasonCode = 0x00 then
          return none
        else
          fail (.serverDisconnected packet.reasonCode)
      | .pingResp => go rounds
      | _         => protocolFailure "unexpected packet while receiving"

-- `set_nonblocking`, `set_read_timeout` and `set_write_timeout` under the `?` operator
def configure : ClientM Unit := do
  if let .error e ← onStream Transport.configure then
    fail (.io e)

def disconnect : ClientM Unit := do
  if (← get).connected then
    let bytes ← lift (DisconnectPacket.encode { reasonCode := 0x00 })
    sendEncoded bytes "disconnect"
    setDisconnected
  if let .error e ← onStream Transport.shutdown then
    fail (.io e)

def negotiate (ack : ConnAckPacket) : ClientM Unit := do
  modify fun client =>
    { client with
      serverCapabilities := .fromConnack ack
      keepAliveSecs := (ack.properties.getU16 .serverKeepAlive).getD client.keepAliveSecs }
  match ack.properties.getU32 .maximumPacketSize with
  | none => return
  | some serverMaximum =>
    if serverMaximum = 0 then
      fail (.malformedPacket "server maximum packet size must be non-zero")
    else
      modify ({ · with maxOutboundPacketSize := serverMaximum.toNat })

def handshake (options : ConnectOptions) : ClientM Unit := do
  lift (options.validate (← get).clock)
  let _ ← now
  let deadline ← deadlineAfter options.connectTimeout "connect"
  configure
  configure
  configure
  let start ← now
  modify ({ · with lastReadAt := start, lastWriteAt := start })
  let bytes ← lift (options.connectPacket options.maxIncomingMessages).encode
  sendEncoded bytes "connect"
  let .connAck ack ← readPacketUntil (some deadline)
    | fail (.unexpectedPacket "expected CONNACK")
  if ack.reasonCode ≠ 0x00 then
    fail (.connectionRefused ack.reasonCode)
  lift (validateConnack options.clientId options.cleanStart ack)
  negotiate ack
  modify ({ · with connected := true })
  configure
  configure

def connectWith (stream : Transport) (clock : Clock) (options : ConnectOptions) :
    Except Stop MqttClient :=
  let client : MqttClient :=
    { stream, clock, frameReader := .withMaxPacketSize options.maxPacketSize
      maxIncomingMessages := options.maxIncomingMessages, keepAliveSecs := options.keepAliveSecs
      ackTimeout := options.ackTimeout }
  match handshake options client with
  | .ok _ client => .ok client
  | .error e _   => .error e

end MqttClient
end MqttWasi
