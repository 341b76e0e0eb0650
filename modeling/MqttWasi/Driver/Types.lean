import MqttWasi.Library.Map
import MqttWasi.Options

namespace MqttWasi

inductive DisconnectReason
  | clientInitiated
  | server (reasonCode : UInt8)
  | transportClosed
  deriving DecidableEq

inductive Event
  | publish (packet : PublishPacket)
  | disconnected (reason : DisconnectReason)
  deriving DecidableEq

structure PublishAck where
  packetId : Option UInt16
  reasonCode : Option UInt8
  deriving DecidableEq

structure SubscriptionAck where
  packetId : UInt16
  reasonCodes : Bytes
  deriving DecidableEq

-- The sending half of a `oneshot` channel. Every channel has a number of its own.
abbrev Sender := Nat

inductive Completion
  | publish (ack : PublishAck)
  | subscription (ack : SubscriptionAck)
  | disconnect
  | response (packet : PublishPacket)
  deriving DecidableEq

abbrev Reply := Except Error Completion

structure RequestCommand where
  topic : String
  payload : Bytes
  responseTopic : String
  correlationData : Bytes
  qos : QoS
  timeout : Duration
  properties : Properties
  deriving DecidableEq

inductive Command
  | publish (topic : String) (payload : Bytes) (options : PublishOptions) (result : Sender)
  | subscribe (filter : String) (qos : QoS) (result : Sender)
  | unsubscribe (filter : String) (result : Sender)
  | disconnect (result : Sender)
  | request (request : RequestCommand) (result : Sender)
  deriving DecidableEq

def Command.result : Command → Sender
  | publish _ _ _ result | subscribe _ _ result | unsubscribe _ result => result
  | disconnect result | request _ result => result

-- The operation that a frame was queued for or that an acknowledgement is awaited for. This is
-- only recorded: the driver never looks at it.
inductive Origin
  | command (result : Sender)
  | request (result : Sender)
  | subscription (responseTopic : String)
  | driver
  deriving DecidableEq

inductive WrittenAction
  | none
  | publishQos0 (result : Sender)
  | pingReq
  | disconnect (result : Sender)
  | abandonedDisconnect
  deriving DecidableEq

structure OutboundFrame where
  bytes : Bytes
  offset : Nat := 0
  action : WrittenAction
  requestCorrelation : Option Bytes
  origin : Origin
  deriving DecidableEq

structure PendingFlush where
  bytes : Nat
  action : WrittenAction
  deriving DecidableEq

inductive AckClass
  | publish
  | subscribe
  | unsubscribe
  deriving DecidableEq

inductive PendingAckKind
  | publish (result : Sender)
  | subscribe (requestedQos : QoS) (result : Sender)
  | unsubscribe (filter : String) (result : Sender)
  | requestPublish (correlationData : Bytes)
  | responseSubscribe (responseTopic : String)
  | tombstone (expectedAck : AckClass) (countsTowardReceiveMaximum : Bool)
  deriving DecidableEq

namespace PendingAckKind

-- The waiter that the acknowledgement is for.
def result? : PendingAckKind → Option Sender
  | publish result | subscribe _ result | unsubscribe _ result => some result
  | requestPublish _ | responseSubscribe _ | tombstone _ _ => none

def isTombstone : PendingAckKind → Bool
  | tombstone _ _ => true
  | _             => false

def ackClass : PendingAckKind → AckClass
  | publish _ | requestPublish _        => .publish
  | subscribe _ _ | responseSubscribe _ => .subscribe
  | unsubscribe _ _                     => .unsubscribe
  | tombstone expectedAck _             => expectedAck

def isQos1Publish : PendingAckKind → Bool
  | publish _ | requestPublish _ | tombstone _ true => true
  | _                                               => false

-- What takes the place of an operation nobody waits for any more.
def bury (kind : PendingAckKind) : PendingAckKind :=
  tombstone kind.ackClass kind.isQos1Publish

end PendingAckKind

structure PendingAck where
  deadline : Instant
  timeoutLabel : String
  kind : PendingAckKind
  origin : Origin
  deriving DecidableEq

def PendingAck.bury (pending : PendingAck) : PendingAck :=
  { pending with kind := pending.kind.bury }

structure PendingInsertError where
  error : Error
  kind : PendingAckKind

structure PendingRequest where
  topic : String
  payload : Bytes
  responseTopic : String
  qos : QoS
  properties : Properties
  deadline : Instant
  result : Sender
  publishPacketId : Option UInt16
  published : Bool
  deriving DecidableEq

inductive ResponseSubscription
  | subscribing
  | ready
  deriving DecidableEq

-- The requests that are known to both the handles and the driver.
structure RequestLifecycle where
  active : List Bytes := []
  cancelled : List Bytes := []
  maxActive : Nat
  deriving DecidableEq

namespace RequestLifecycle

def register (lifecycle : RequestLifecycle) (correlationData : Bytes) :
    Except Error RequestLifecycle :=
  if lifecycle.active.length ≥ lifecycle.maxActive then
    .error (.queueFull "pending request")
  else if correlationData ∈ lifecycle.active then
    .error (.invalidOptions "duplicate request correlation data")
  else
    .ok { lifecycle with active := lifecycle.active.insert correlationData }

-- Whether a cancellation leaves a mark.
def marks (lifecycle : RequestLifecycle) (correlationData : Bytes) : Bool :=
  correlationData ∈ lifecycle.active

def cancel (lifecycle : RequestLifecycle) (correlationData : Bytes) : RequestLifecycle :=
  if correlationData ∈ lifecycle.active then
    { lifecycle with cancelled := lifecycle.cancelled.insert correlationData }
  else
    lifecycle

def consumeCancellation (lifecycle : RequestLifecycle) (correlationData : Bytes) :
    Bool × RequestLifecycle :=
  if correlationData ∈ lifecycle.cancelled then
    (true, { lifecycle with
             cancelled := lifecycle.cancelled.erase correlationData
             active := lifecycle.active.erase correlationData })
  else
    (false, lifecycle)

def finish (lifecycle : RequestLifecycle) (correlationData : Bytes) : RequestLifecycle :=
  { lifecycle with
    active := lifecycle.active.erase correlationData
    cancelled := lifecycle.cancelled.erase correlationData }

end RequestLifecycle

structure MqttConnection where
  frameReader : FrameReader
  commands : List Command := []
  events : List Event := []
  requestLifecycle : RequestLifecycle
  outbound : List OutboundFrame := []
  outboundBytes : Nat := 0
  pendingAcks : AList (fun _ : UInt16 => PendingAck) := ∅
  nextPacketId : UInt16 := 1
  lastWriteAt : Instant
  pingOutstandingSince : Option Instant := none
  keepAliveSecs : UInt16
  peerMaxPacketSize : Nat
  peerReceiveMaximum : UInt16
  serverCapabilities : ServerCapabilities
  maxOutboundQueueBytes : Nat
  maxPendingOperations : Nat
  ackTimeout : Duration
  pollInterval : Duration
  closing : Bool := false
  commandChannelClosed : Bool := false
  needsFlush : Bool := false
  flushActions : List PendingFlush := []
  pingQueued : Bool := false
  terminalEventSent : Bool := false
  pendingRequests : AList (fun _ : Bytes => PendingRequest) := ∅
  responseSubscriptions : AList (fun _ : String => ResponseSubscription) := ∅
  clock : Clock
  -- The capacities of the channels, and what the other side has done to them: whether all handles
  -- are gone, the number of the next result channel, and the result channels nobody listens to.
  commandCapacity : Nat
  eventCapacity : Nat
  handlesDropped : Bool := false
  nextSender : Sender := 0
  droppedReceivers : List Sender := []
  -- What has happened so far: the commands that were taken from the channel, the replies that were
  -- sent, the events that were emitted, the frames that were queued and those of them that have
  -- been written, the bytes that the transport has accepted and those that it has returned, and
  -- the packets that were decoded from them.
  taken : List Command := []
  replies : List (Sender × Reply) := []
  emitted : List Event := []
  enqueued : List OutboundFrame := []
  written : List OutboundFrame := []
  wire : Bytes := []
  received : Bytes := []
  dispatched : List Packet := []

def keepAliveInterval (keepAliveSecs : UInt16) : Option Duration :=
  if keepAliveSecs ≠ 0 then some (.fromSecs (max (keepAliveSecs.toNat / 2) 1)) else none

def validateReasonCodes (packet : String) (reasonCodes : Bytes) (expected : Nat) :
    Except Error Unit :=
  if reasonCodes.length ≠ expected then
    .error (.malformedPacket "ack reason code count mismatch")
  else
    match reasonCodes.find? (· ≥ 0x80) with
    | some reasonCode => .error (.ackRejected packet reasonCode)
    | none            => .ok ()

namespace MqttConnection

-- The connection that `connect_with_deadline` returns after the handshake.
def new (options : ConnectOptions) (connack : ConnAckPacket) (clock : Clock) : MqttConnection where
  frameReader := .withMaxPacketSize options.maxPacketSize
  requestLifecycle := { maxActive := options.commandCapacity }
  lastWriteAt := clock.now
  keepAliveSecs := (connack.properties.getU16 .serverKeepAlive).getD options.keepAliveSecs
  peerMaxPacketSize :=
    ((connack.properties.getU32 .maximumPacketSize).map (·.toNat)).getD 268435460
  peerReceiveMaximum := (connack.properties.getU16 .receiveMaximum).getD 65535
  serverCapabilities := .fromConnack connack
  maxOutboundQueueBytes := options.maxOutboundQueueBytes
  maxPendingOperations := options.commandCapacity
  ackTimeout := options.ackTimeout
  pollInterval := options.pollInterval
  clock := clock.tick
  commandCapacity := options.commandCapacity
  eventCapacity := options.eventCapacity

end MqttConnection
end MqttWasi
