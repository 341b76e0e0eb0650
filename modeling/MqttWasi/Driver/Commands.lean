import MqttWasi.Driver.Requests

namespace MqttWasi.MqttConnection

-- The end of `begin_publish`, `begin_subscribe` and `begin_unsubscribe`: the packet identifier is
-- taken before the frame is queued, and given back if the queue has no room for the frame.
def awaitAck (packetId : UInt16) (kind : PendingAckKind) (timeoutLabel : String) (bytes : Bytes)
    (origin : Origin) : DriverM Unit := do
  match ← insertPendingAck packetId kind timeoutLabel origin with
  | .error e => failResult e.kind.result? e.error
  | .ok () =>
    match ← enqueue bytes .none none origin with
    | .error e =>
      match ← removePendingAck packetId with
      | some pending => failResult pending.kind.result? e
      | none         => return
    | .ok () => return

-- The end of `begin_publish` for QoS 0 and of `begin_disconnect`: whether the frame was queued.
def awaitWritten (bytes : Bytes) (action : WrittenAction) (origin : Origin) : DriverM Bool := do
  match ← enqueueWithAction bytes action none origin with
  | .error (e, action) =>
    failAction action e
    return false
  | .ok () => return true

def validateMessage (connection : MqttConnection) (topic : String) (options : PublishOptions) :
    Except Error Unit := do
  validateTopicName topic
  connection.serverCapabilities.validatePublish options.qos options.retain

def beginPublish (topic : String) (payload : Bytes) (options : PublishOptions) (result : Sender) :
    DriverM Unit := do
  match (← get).validateMessage topic options with
  | .error e => send result (.error e)
  | .ok () =>
    match options.qos with
    | .atMostOnce  => beginQos0
    | .atLeastOnce => beginQos1
where
  packet (packetId : Option UInt16) : PublishPacket :=
    { topic, packetId, payload, qos := options.qos, retain := options.retain, dup := false
      properties := options.properties }
  beginQos0 : DriverM Unit :=
    match (packet none).encode with
    | .error e  => send result (.error e)
    | .ok bytes => discard (awaitWritten bytes (.publishQos0 result) (.command result))
  beginQos1 : DriverM Unit := do
    match ← reservePacketId with
    | .error e => send result (.error e)
    | .ok packetId =>
      match (packet (some packetId)).encode with
      | .error e => send result (.error e)
      | .ok bytes =>
        let connection ← get
        if connection.outgoingQos1Count ≥ connection.peerReceiveMaximum.toNat then
          send result (.error (.queueFull "broker receive maximum"))
        else
          awaitAck packetId (.publish result) "publish acknowledgement" bytes (.command result)

def beginSubscribe (filter : String) (qos : QoS) (result : Sender) : DriverM Unit := do
  match (← get).serverCapabilities.validateSubscriptionFilter filter with
  | .error e => send result (.error e)
  | .ok () =>
    match ← reservePacketId with
    | .error e => send result (.error e)
    | .ok packetId =>
      match SubscribePacket.encode { packetId, filters := [(filter, qos)], properties := {} } with
      | .error e => send result (.error e)
      | .ok bytes =>
        awaitAck packetId (.subscribe qos result) "subscription acknowledgement" bytes
          (.command result)

def beginUnsubscribe (filter : String) (result : Sender) : DriverM Unit := do
  match validateTopicFilter filter with
  | .error e => send result (.error e)
  | .ok () =>
    match ← reservePacketId with
    | .error e => send result (.error e)
    | .ok packetId =>
      match UnsubscribePacket.encode { packetId, filters := [filter], properties := {} } with
      | .error e => send result (.error e)
      | .ok bytes =>
        awaitAck packetId (.unsubscribe filter result) "unsubscribe acknowledgement" bytes
          (.command result)

def beginDisconnect (result : Sender) : DriverM Unit := do
  modify ({ · with closing := true })
  let bytes ← check (DisconnectPacket.encode { reasonCode := 0x00 })
  if !(← awaitWritten bytes (.disconnect result) (.command result)) then
    modify ({ · with closing := false })

def beginAbandonedDisconnect : DriverM Unit := do
  let connection ← get
  if connection.closing ∨ !connection.commandChannelClosed then
    return
  else
    set { connection with closing := true }
    let bytes ← check (DisconnectPacket.encode { reasonCode := 0x00 })
    check (← enqueue bytes .abandonedDisconnect none .driver)

def processCommand (command : Command) : DriverM Unit := do
  if (← get).closing then
    send command.result (.error .clientClosed)
  else
    match command with
    | .publish topic payload options result => beginPublish topic payload options result
    | .subscribe filter qos result          => beginSubscribe filter qos result
    | .unsubscribe filter result            => beginUnsubscribe filter result
    | .disconnect result                    => beginDisconnect result
    | .request request result               =>
      if let .error e ← attempt (beginRequest request result) then
        failRequest request.correlationData e

-- `self.command_channel_closed = true; self.begin_abandoned_disconnect()?`
def abandonCommands : DriverM Unit := do
  modify ({ · with commandChannelClosed := true })
  beginAbandonedDisconnect

end MqttWasi.MqttConnection
