import MqttWasi.Driver.Requests

namespace MqttWasi.MqttConnection

def takePendingAck (packetId : UInt16) (received : AckClass) : DriverM (Option PendingAck) := do
  match (← get).pendingAcks.lookup packetId with
  | none => return none
  | some pending =>
    if pending.kind.ackClass ≠ received then
      throw (.unexpectedPacket "acknowledgement type does not match pending packet id")
    else
      removePendingAck packetId

-- The PUBACK is queued before the message is handed over.
def acknowledgePublish (packet : PublishPacket) : DriverM Unit := do
  if packet.qos = .atLeastOnce then
    match packet.packetId with
    | none => throw (.malformedPacket "QoS 1 PUBLISH missing packet id")
    | some packetId =>
      let ack ← check (PubAckPacket.encode { packetId, reasonCode := 0x00 })
      check (← enqueue ack .none none .driver)

def dispatchPublish (packet : PublishPacket) : DriverM Unit := do
  acknowledgePublish packet
  if ← tryCompleteRequest packet then
    return
  else
    check (← trySend (.publish packet))

def pubackReply (ack : PubAckPacket) : Reply :=
  if ack.reasonCode ≥ 0x80 then
    .error (.ackRejected "PUBACK" ack.reasonCode)
  else
    .ok (.publish { packetId := some ack.packetId, reasonCode := some ack.reasonCode })

def dispatchPuback (ack : PubAckPacket) : DriverM Unit := do
  match ← takePendingAck ack.packetId .publish with
  | none => return
  | some pending =>
    match pending.kind with
    | .publish result => send result (pubackReply ack)
    | .requestPublish correlationData =>
      if ack.reasonCode ≥ 0x80 then
        failRequest correlationData (.ackRejected "PUBACK" ack.reasonCode)
    | other => failResult other.result? (.unexpectedPacket "PUBACK packet id type mismatch")

def completeSubscribe (ack : SubAckPacket) (requestedQos : QoS) (result : Sender) :
    DriverM Unit := do
  match validateSubackCodes ack.reasonCodes [requestedQos] with
  | .ok () =>
    send result (.ok (.subscription { packetId := ack.packetId, reasonCodes := ack.reasonCodes }))
  | .error (.ackRejected packet reasonCode) =>
    send result (.error (.ackRejected packet reasonCode))
  | .error e =>
    send result (.error e)
    throw e

def completeResponseSubscribe (ack : SubAckPacket) (responseTopic : String) : DriverM Unit := do
  match validateSubackCodes ack.reasonCodes [.atLeastOnce] with
  | .ok () =>
    setResponseSubscription responseTopic .ready
    publishWaitingRequests responseTopic
  | .error (.ackRejected packet reasonCode) =>
    removeResponseSubscription responseTopic
    failRequestsForTopic responseTopic (.ackRejected packet reasonCode)
  | .error e =>
    removeResponseSubscription responseTopic
    failRequestsForTopic responseTopic e
    throw e

def dispatchSuback (ack : SubAckPacket) : DriverM Unit := do
  match ← takePendingAck ack.packetId .subscribe with
  | none => return
  | some pending =>
    match pending.kind with
    | .subscribe requestedQos result    => completeSubscribe ack requestedQos result
    | .responseSubscribe responseTopic => completeResponseSubscribe ack responseTopic
    | other => failResult other.result? (.unexpectedPacket "SUBACK packet id type mismatch")

def unsubackReply (ack : UnsubAckPacket) : Reply :=
  (validateReasonCodes "UNSUBACK" ack.reasonCodes 1).map fun _ =>
    .subscription { packetId := ack.packetId, reasonCodes := ack.reasonCodes }

def dispatchUnsuback (ack : UnsubAckPacket) : DriverM Unit := do
  match ← takePendingAck ack.packetId .unsubscribe with
  | none => return
  | some pending =>
    match pending.kind with
    | .unsubscribe filter result =>
      if (unsubackReply ack).isOk then
        removeResponseSubscription filter
      send result (unsubackReply ack)
    | other => failResult other.result? (.unexpectedPacket "UNSUBACK packet id type mismatch")

def failPending : DriverM Unit := do
  failAcks
  failFrames
  failFlushes
  modify ({ · with outboundBytes := 0 })
  failRequests
where
  failAcks : DriverM Unit := do
    let connection ← get
    set { connection with pendingAcks := ∅ }
    connection.pendingAcks.values.forM fun pending =>
      failResult pending.kind.result? .connectionClosed
  failFrames : DriverM Unit := do
    let connection ← get
    set { connection with outbound := [] }
    connection.outbound.forM fun frame => failAction frame.action .connectionClosed
  failFlushes : DriverM Unit := do
    let connection ← get
    set { connection with flushActions := [] }
    connection.flushActions.forM fun flush => failAction flush.action .connectionClosed
  failRequests : DriverM Unit := do
    let connection ← get
    set { connection with pendingRequests := ∅ }
    connection.pendingRequests.entries.forM fun e => do
      finishRequestLifecycle e.fst
      send e.snd.result (.error .connectionClosed)

def dispatchPacket (packet : Packet) : DriverM Unit :=
  match packet with
  | .publish packet => dispatchPublish packet
  | .pubAck ack     => dispatchPuback ack
  | .subAck ack     => dispatchSuback ack
  | .unsubAck ack   => dispatchUnsuback ack
  | .pingResp       => modify ({ · with pingOutstandingSince := none })
  | .disconnect disconnect => do
    failPending
    discard (trySend (.disconnected (.server disconnect.reasonCode)))
    modify ({ · with terminalEventSent := true })
    throw (.serverDisconnected disconnect.reasonCode)
  | .pingReq    => throw (.unexpectedPacket "broker sent PINGREQ")
  | .connAck _  => throw (.unexpectedPacket "duplicate CONNACK")
  | .connect _ | .subscribe _ | .unsubscribe _ =>
    throw (.unexpectedPacket "server sent client-only packet")

-- One round of the loop in `decode_and_dispatch`, and whether there is another one.
def decodeNext : DriverM Bool := do
  let connection ← get
  match FrameReader.tryDecode connection.frameReader with
  | .error e frameReader =>
    set { connection with frameReader }
    throw e
  | .ok none frameReader =>
    set { connection with frameReader }
    return false
  | .ok (some packet) frameReader =>
    set { connection with frameReader, dispatched := connection.dispatched ++ [packet] }
    dispatchPacket packet
    return true

-- The number of bytes that `read_available` asks for.
def readCapacity (connection : MqttConnection) : Nat :=
  min connection.frameReader.remainingCapacity 8192

-- One round of the loop in `read_available`, and whether there is another one.
def readNext (result : Except IoError Bytes) : DriverM Bool :=
  match result with
  | .ok [] => do
    discard (trySend (.disconnected .transportClosed))
    modify ({ · with terminalEventSent := true })
    throw .connectionClosed
  | .ok bytes => do
    modify fun connection =>
      { connection with
        frameReader := connection.frameReader.push bytes, received := connection.received ++ bytes }
    return true
  | .error e =>
    if e.kind = .interrupted then return true
    else if e.kind = .wouldBlock then return false
    else throw (.io e)

end MqttWasi.MqttConnection
