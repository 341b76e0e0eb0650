import MqttWasi.Driver.Outbound

namespace MqttWasi.MqttConnection

def finishRequestLifecycle (correlationData : Bytes) : DriverM Unit :=
  modify fun connection =>
    { connection with requestLifecycle := connection.requestLifecycle.finish correlationData }

-- A frame of the request that has not been started.
def isUnsentFrameOf (correlationData : Bytes) (frame : OutboundFrame) : Bool :=
  frame.offset = 0 ∧ frame.requestCorrelation = some correlationData

-- The loop in `remove_request`, with the number of bytes it takes out of the queue.
def retainFrames (correlationData : Bytes) (connection : MqttConnection) : MqttConnection :=
  let unsent := connection.outbound.filter (isUnsentFrameOf correlationData)
  { connection with
    outbound := connection.outbound.filter (!isUnsentFrameOf correlationData ·)
    outboundBytes := unsent.foldl (fun bytes frame => bytes - frame.bytes.length)
      connection.outboundBytes }

-- Once any prefix of a frame is written, its remainder must stay queued, and so must the packet
-- identifier stay taken.
def releasePacketId (packetId : UInt16) (removedUnsentPublish : Bool)
    (connection : MqttConnection) : MqttConnection :=
  { connection with
    pendingAcks :=
      if removedUnsentPublish then
        connection.pendingAcks.erase packetId
      else
        connection.pendingAcks.adjust packetId ({ · with kind := .tombstone .publish true }) }

def removeRequest (correlationData : Bytes) : DriverM (Option PendingRequest) := do
  let connection ← get
  match connection.pendingRequests.lookup correlationData with
  | none => return none
  | some pending =>
    set { connection with pendingRequests := connection.pendingRequests.erase correlationData }
    finishRequestLifecycle correlationData
    let removedUnsentPublish := connection.outbound.any (isUnsentFrameOf correlationData)
    modify (retainFrames correlationData)
    if let some packetId := pending.publishPacketId then
      modify (releasePacketId packetId removedUnsentPublish)
    return some pending

def failRequest (correlationData : Bytes) (error : Error) : DriverM Unit := do
  match ← removeRequest correlationData with
  | some pending => send pending.result (.error error)
  | none         => return

-- The keys of the requests with some property, in the order of the map.
def requestsWhere (connection : MqttConnection) (p : PendingRequest → Bool) : List Bytes :=
  (connection.pendingRequests.entries.filter (p ·.snd)).map (·.fst)

def failRequestsForTopic (responseTopic : String) (error : Error) : DriverM Unit := do
  let correlations := (← get).requestsWhere (·.responseTopic = responseTopic)
  correlations.forM (failRequest · error)

def tryCompleteRequest (packet : PublishPacket) : DriverM Bool := do
  match packet.properties.getBinary .correlationData with
  | none => return false
  | some correlationData =>
    let found := (← get).pendingRequests.lookup correlationData
    if found.any (·.responseTopic = packet.topic) then
      if let some pending ← removeRequest correlationData then
        send pending.result (.ok (.response packet))
      return true
    else
      return false

-- The packet identifier of the PUBLISH for a request.
def requestPacketId (qos : QoS) : DriverM (Option UInt16) := do
  match qos with
  | .atMostOnce => return none
  | .atLeastOnce =>
    let connection ← get
    if connection.outgoingQos1Count ≥ connection.peerReceiveMaximum.toNat then
      throw (.queueFull "broker receive maximum")
    else
      return some (← check (← reservePacketId))

def requestPacket (pending : PendingRequest) (packetId : Option UInt16) : PublishPacket where
  topic := pending.topic
  packetId := packetId
  payload := pending.payload
  qos := pending.qos
  retain := false
  dup := false
  properties := pending.properties

-- The end of `publish_request`: the packet identifier is taken before the frame is queued, and given
-- back if the queue has no room for the frame.
def queueRequest (correlationData : Bytes) (result : Sender) (packetId : Option UInt16)
    (bytes : Bytes) : DriverM Unit := do
  take packetId
  match ← enqueue bytes .none (some correlationData) (.request result) with
  | .error e => do
    giveBack packetId
    throw e
  | .ok () =>
    modify fun connection =>
      { connection with
        pendingRequests := connection.pendingRequests.adjust correlationData
          ({ · with published := true, publishPacketId := packetId }) }
where
  take : Option UInt16 → DriverM Unit
    | none => return
    | some packetId => do
      check <| (← insertPendingAck packetId (.requestPublish correlationData)
        "request publish acknowledgement" (.request result)).mapError (·.error)
  giveBack : Option UInt16 → DriverM Unit
    | none          => return
    | some packetId => discard (removePendingAck packetId)

def publishRequest (correlationData : Bytes) : DriverM Unit := do
  match (← get).pendingRequests.lookup correlationData with
  | none => return
  | some pending =>
    if pending.published then
      return
    else
      let packetId ← requestPacketId pending.qos
      let bytes ← check (requestPacket pending packetId).encode
      queueRequest correlationData pending.result packetId bytes

def publishWaitingRequests (responseTopic : String) : DriverM Unit := do
  let correlations := (← get).requestsWhere fun pending =>
    !pending.published && pending.responseTopic = responseTopic
  correlations.forM fun correlationData => do
    if let .error e ← attempt (publishRequest correlationData) then
      failRequest correlationData e

def setResponseSubscription (responseTopic : String) (state : ResponseSubscription) :
    DriverM Unit :=
  modify fun connection =>
    { connection with
      responseSubscriptions := connection.responseSubscriptions.insert responseTopic state }

def removeResponseSubscription (responseTopic : String) : DriverM Unit :=
  modify fun connection =>
    { connection with
      responseSubscriptions := connection.responseSubscriptions.erase responseTopic }

def subscribeForResponses (responseTopic : String) : DriverM Unit := do
  let packetId ← check (← reservePacketId)
  let bytes ← check <| SubscribePacket.encode
    { packetId, filters := [(responseTopic, .atLeastOnce)], properties := {} }
  check <| (← insertPendingAck packetId (.responseSubscribe responseTopic)
    "request subscription acknowledgement" (.subscription responseTopic)).mapError (·.error)
  setResponseSubscription responseTopic .subscribing
  match ← enqueue bytes .none none (.subscription responseTopic) with
  | .error e =>
    discard (removePendingAck packetId)
    removeResponseSubscription responseTopic
    throw e
  | .ok () => return

-- The checks of `begin_request` on the request itself.
def validateRequest (connection : MqttConnection) (request : RequestCommand) :
    Except Error Unit := do
  if request.timeout = 0 then
    throw (.invalidOptions "request timeout must be non-zero")
  validateTopicName request.topic
  connection.serverCapabilities.validatePublish request.qos false
  if connection.pendingRequests.entries.length ≥ connection.maxPendingOperations then
    throw (.queueFull "pending request")
  if request.correlationData ∈ connection.pendingRequests then
    throw (.malformedPacket "duplicate request correlation data")

def refuseRequest (request : RequestCommand) (result : Sender) (error : Error) : DriverM Unit := do
  finishRequestLifecycle request.correlationData
  send result (.error error)

-- `self.pending_requests.insert`
def admitRequest (request : RequestCommand) (result : Sender) (deadline : Instant) : DriverM Unit :=
  modify fun connection =>
    { connection with
      pendingRequests := connection.pendingRequests.insert request.correlationData
        { topic := request.topic, payload := request.payload
          responseTopic := request.responseTopic, qos := request.qos
          properties := request.properties, deadline, result
          publishPacketId := none, published := false } }

-- What is next for a request that is waiting to be published.
def startRequest (correlationData : Bytes) (responseTopic : String) : DriverM Unit := do
  let connection ← get
  match connection.responseSubscriptions.lookup responseTopic with
  | some .ready       => publishRequest correlationData
  | some .subscribing => return
  | none =>
    if connection.responseSubscriptions.entries.length ≥ connection.maxPendingOperations then
      throw (.queueFull "response subscriptions")
    else
      subscribeForResponses responseTopic

-- `consume_cancellation`
def consumeCancellation (correlationData : Bytes) : DriverM Bool := do
  let connection ← get
  let (cancelled, requestLifecycle) :=
    connection.requestLifecycle.consumeCancellation correlationData
  set { connection with requestLifecycle }
  return cancelled

def beginRequest (request : RequestCommand) (result : Sender) : DriverM Unit := do
  if ← consumeCancellation request.correlationData then
    return
  else
    match (← get).validateRequest request with
    | .error e => refuseRequest request result e
    | .ok () =>
      let start ← now
      match (← get).clock.checkedAdd start request.timeout with
      | none => refuseRequest request result (.invalidOptions "request timeout is too large")
      | some deadline =>
        admitRequest request result deadline
        startRequest request.correlationData request.responseTopic

def drainCancellations : DriverM Unit := do
  let connection ← get
  let cancellations := connection.requestLifecycle.cancelled.filter (· ∈ connection.pendingRequests)
  cancellations.forM fun correlationData => discard (removeRequest correlationData)

end MqttWasi.MqttConnection
