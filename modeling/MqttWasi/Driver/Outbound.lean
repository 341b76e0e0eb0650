import MqttWasi.Driver.Types

namespace MqttWasi.MqttConnection

abbrev DriverM := EStateM Error MqttConnection

-- A call whose error is looked at by its caller.
def attempt (action : DriverM α) : DriverM (Except Error α) := fun connection =>
  match action connection with
  | .ok a connection    => .ok (.ok a) connection
  | .error e connection => .ok (.error e) connection

-- `Instant::now`
def now : DriverM Instant := do
  let connection ← get
  set { connection with clock := connection.clock.tick }
  return connection.clock.now

-- `oneshot::Sender::send`
def send (result : Sender) (reply : Reply) : DriverM Unit :=
  modify fun connection => { connection with replies := connection.replies ++ [(result, reply)] }

-- `oneshot::Sender::is_closed`
def isClosed (connection : MqttConnection) (result : Sender) : Bool :=
  result ∈ connection.droppedReceivers

-- `events.try_send`
def trySend (event : Event) : DriverM (Except Error Unit) := do
  let connection ← get
  if connection.handlesDropped then
    return .error .clientClosed
  else if connection.events.length ≥ connection.eventCapacity then
    return .error (.queueFull "event")
  else
    set { connection with
          events := connection.events ++ [event], emitted := connection.emitted ++ [event] }
    return .ok ()

-- `PendingAckKind::fail`, for a result that somebody may wait for
def failResult (result : Option Sender) (error : Error) : DriverM Unit :=
  match result with
  | some result => send result (.error error)
  | none        => return

-- `WrittenAction::fail`
def failAction (action : WrittenAction) (error : Error) : DriverM Unit :=
  match action with
  | .publishQos0 result | .disconnect result    => send result (.error error)
  | .none | .pingReq | .abandonedDisconnect => return

-- A tombstone may count as well, so the count is one of packet identifiers in use.
def outgoingQos1Count (connection : MqttConnection) : Nat :=
  connection.pendingAcks.values.countP (·.kind.isQos1Publish)

def nextPacketIdAfter (packetId : UInt16) : UInt16 :=
  if packetId + 1 = 0 then 1 else packetId + 1

def reservePacketId : DriverM (Except Error UInt16) :=
  go 65535
where
  go : Nat → DriverM (Except Error UInt16)
    | 0 => return .error (.queueFull "packet identifiers")
    | rounds + 1 => do
      let connection ← get
      let packetId := connection.nextPacketId
      set { connection with nextPacketId := nextPacketIdAfter packetId }
      if packetId ∈ connection.pendingAcks then
        go rounds
      else
        return .ok packetId

def insertPendingAck (packetId : UInt16) (kind : PendingAckKind) (timeoutLabel : String)
    (origin : Origin) : DriverM (Except PendingInsertError Unit) := do
  let connection ← get
  if connection.pendingAcks.entries.length ≥ connection.maxPendingOperations then
    return .error { error := .queueFull "pending operation", kind }
  else
    let start ← now
    modify fun connection =>
      { connection with
        pendingAcks := connection.pendingAcks.insert packetId
          { deadline := start + connection.ackTimeout, timeoutLabel, kind, origin } }
    return .ok ()

-- `self.pending_acks.remove(&packet_id)`
def removePendingAck (packetId : UInt16) : DriverM (Option PendingAck) := do
  let connection ← get
  set { connection with pendingAcks := connection.pendingAcks.erase packetId }
  return connection.pendingAcks.lookup packetId

-- The sum of the sizes of the queued frames is the size of data in memory, so it does not overflow.
def enqueueWithAction (bytes : Bytes) (action : WrittenAction) (requestCorrelation : Option Bytes)
    (origin : Origin) : DriverM (Except (Error × WrittenAction) Unit) := do
  let connection ← get
  if bytes.length > connection.peerMaxPacketSize then
    return .error (.packetTooLarge bytes.length connection.peerMaxPacketSize, action)
  else if connection.outboundBytes + bytes.length > connection.maxOutboundQueueBytes then
    return .error (.queueFull "outbound bytes", action)
  else
    let frame : OutboundFrame := { bytes, action, requestCorrelation, origin }
    set { connection with
          outboundBytes := connection.outboundBytes + bytes.length
          outbound := connection.outbound ++ [frame]
          enqueued := connection.enqueued ++ [frame] }
    return .ok ()

def enqueue (bytes : Bytes) (action : WrittenAction) (requestCorrelation : Option Bytes)
    (origin : Origin) : DriverM (Except Error Unit) := do
  return (← enqueueWithAction bytes action requestCorrelation origin).mapError (·.1)

def completeWritten (action : WrittenAction) : DriverM Unit :=
  match action with
  | .none => return
  | .publishQos0 result => send result (.ok (.publish { packetId := none, reasonCode := none }))
  | .pingReq => do
    let sentAt ← now
    modify ({ · with pingQueued := false, pingOutstandingSince := some sentAt })
  | .disconnect result => do
    send result (.ok .disconnect)
    discard (trySend (.disconnected .clientInitiated))
    modify ({ · with terminalEventSent := true })
  | .abandonedDisconnect => return

-- Flushes the bytes that the transport has accepted. The transport may remain backpressured, in
-- which case nothing more may be written.
def flushAccepted (flushed : Except IoError Unit) : DriverM Bool :=
  match flushed with
  | .ok () => do
    modify ({ · with needsFlush := false })
    complete ((← get).flushActions)
    return true
  | .error e =>
    if e.kind = .interrupted ∨ e.kind = .wouldBlock then return false else throw (.io e)
where
  complete : List PendingFlush → DriverM Unit
    | [] => return
    | flush :: rest => do
      modify fun connection =>
        { connection with
          flushActions := rest, outboundBytes := connection.outboundBytes - flush.bytes }
      completeWritten flush.action
      complete rest

-- One round of the loop in `flush_outbound` for the frame in front of the queue, and whether there
-- is another one. Nothing is known of the bytes that a transport accepts which claims to have
-- accepted more than it was given.
def writeFront (frame : OutboundFrame) (rest : List OutboundFrame) (written : Except IoError Nat) :
    DriverM Bool :=
  match written with
  | .ok 0 => throw (.io { kind := .writeZero })
  | .ok written =>
    if written > frame.bytes.length - frame.offset then
      throw (.io { kind := .invalidData, message := "transport reported an oversized write" })
    else do
      let lastWriteAt ← now
      let accepted := (frame.bytes.drop frame.offset).take written
      let front := { frame with offset := frame.offset + written }
      modify fun connection =>
        { connection with
          lastWriteAt, needsFlush := true, outbound := front :: rest
          wire := connection.wire ++ accepted }
      if front.offset = front.bytes.length then
        modify fun connection =>
          { connection with
            outbound := rest, written := connection.written ++ [front]
            flushActions := connection.flushActions ++
              [{ bytes := front.bytes.length, action := front.action }] }
      return true
  | .error e =>
    if e.kind = .interrupted then return true
    else if e.kind = .wouldBlock then return false
    else throw (.io e)

end MqttWasi.MqttConnection
