import MqttWasi.Library.Transition
import MqttWasi.Driver.Theorems.Frames
import MqttWasi.Codec.Theorems.Errors

-- What the parts of the driver can do to a connection, as sequences of a few elementary moves. All
-- invariants of the driver are derived from these.

namespace MqttWasi

-- The frame of the PUBLISH for a request.
def PendingRequest.frame (pending : PendingRequest) (correlationData bytes : Bytes) :
    OutboundFrame where
  bytes := bytes
  action := .none
  requestCorrelation := some correlationData
  origin := .request pending.result

-- What is remembered of a request.
def RequestCommand.pending (request : RequestCommand) (result : Sender)
    (deadline : Instant) : PendingRequest where
  topic := request.topic
  payload := request.payload
  responseTopic := request.responseTopic
  qos := request.qos
  properties := request.properties
  deadline := deadline
  result := result
  publishPacketId := none
  published := false

namespace MqttConnection

open EStateM (Leads)
open Relation (ReflTransGen)

-- What `remove_request` leaves behind.
def withoutRequest (c : MqttConnection) (correlationData : Bytes) (pending : PendingRequest) :
    MqttConnection :=
  let unsent := c.outbound.any (isUnsentFrameOf correlationData)
  let retained := retainFrames correlationData
    { c with
      pendingRequests := c.pendingRequests.erase correlationData
      requestLifecycle := c.requestLifecycle.finish correlationData }
  match pending.publishPacketId with
  | some packetId => releasePacketId packetId unsent retained
  | none          => retained

def reply (c : MqttConnection) (result : Sender) (reply : Option Reply) : MqttConnection :=
  { c with replies := c.replies ++ (reply.map (result, ·)).toList }

def emit (c : MqttConnection) (event : Event) : MqttConnection :=
  { c with events := c.events ++ [event], emitted := c.emitted ++ [event] }

def push (c : MqttConnection) (frame : OutboundFrame) : MqttConnection :=
  { c with
    outboundBytes := c.outboundBytes + frame.bytes.length
    outbound := c.outbound ++ [frame]
    enqueued := c.enqueued ++ [frame] }

def await (c : MqttConnection) (packetId : UInt16) (entry : PendingAck) : MqttConnection :=
  { c with pendingAcks := c.pendingAcks.insert packetId entry }

def markPublished (c : MqttConnection) (correlationData : Bytes) (packetId : Option UInt16) :
    MqttConnection :=
  { c with
    pendingRequests := c.pendingRequests.adjust correlationData
      ({ · with published := true, publishPacketId := packetId }) }

-- The response topic is being subscribed to.
def subscribing (c : MqttConnection) (responseTopic : String) : MqttConnection :=
  { c with
    responseSubscriptions := c.responseSubscriptions.insert responseTopic .subscribing }

def admitted (c : MqttConnection) (correlationData : Bytes) (pending : PendingRequest) :
    MqttConnection :=
  { c with pendingRequests := c.pendingRequests.insert correlationData pending }

-- The driver knows that all handles are gone.
def deserted (c : MqttConnection) : MqttConnection :=
  { c with commandChannelClosed := true }

def finished (c : MqttConnection) (correlationData : Bytes) : MqttConnection :=
  { c with requestLifecycle := c.requestLifecycle.finish correlationData }

def HasRoom (c : MqttConnection) (bytes : Bytes) : Prop :=
  bytes.length ≤ c.peerMaxPacketSize ∧ c.outboundBytes + bytes.length ≤ c.maxOutboundQueueBytes

-- The queue has room for a frame that asks for a certain acknowledgement.
structure Fits (c : MqttConnection) (bytes : Bytes) (t : PacketType)
    (ack : Option (AckClass × UInt16)) : Prop where
  le_max : bytes.length ≤ c.peerMaxPacketSize
  room : c.outboundBytes + bytes.length ≤ c.maxOutboundQueueBytes
  asks : bytes.length < 2 ^ 32 → Asks bytes t ack

-- A packet identifier is free and may be used.
structure Free (c : MqttConnection) (packetId : UInt16) : Prop where
  fresh : packetId ∉ c.pendingAcks
  bound : c.pendingAcks.entries.length < c.maxPendingOperations

-- Changes that concern nobody but the driver.
inductive Quiet : MqttConnection → MqttConnection → Prop
  | mk (nextPacketId clock) : (c.nextPacketId ≠ 0 → nextPacketId ≠ 0) →
    Quiet c { c with nextPacketId, clock }

-- The moves that do not add to the queue.
inductive Shift : MqttConnection → MqttConnection → Prop
  | quiet : Quiet c c' → Shift c c'
  | sweep :
    Shift c
      { c with
        pendingAcks := c.pendingAcks.mapValues fun pending =>
          if pending.kind.result?.any c.isClosed then pending.bury else pending }
  | bury : (c.pendingAcks.lookup packetId = some pending) →
    (∀ responseTopic, pending.kind ≠ .responseSubscribe responseTopic) →
    Shift c
      { c with
        pendingAcks := c.pendingAcks.adjust packetId PendingAck.bury
        replies := c.replies ++
          (pending.kind.result?.map (·, .error (.timeout pending.timeoutLabel))).toList }
  | forget : (c.pendingAcks.lookup packetId = some pending) →
    (pending.kind = .responseSubscribe responseTopic) →
    Shift c
      { c with
        pendingAcks := c.pendingAcks.adjust packetId PendingAck.bury
        responseSubscriptions := c.responseSubscriptions.erase responseTopic }
  | remove (e : Option Error) : (c.pendingRequests.lookup correlationData = some pending) →
    Shift c ((c.withoutRequest correlationData pending).reply pending.result (e.map .error))

-- A request is published.

structure Publishes (c : MqttConnection) (correlationData : Bytes) (pending : PendingRequest)
    (packetId : UInt16) (entry : PendingAck) (bytes : Bytes) : Prop where
  lookup : c.pendingRequests.lookup correlationData = some pending
  unpublished : pending.published = false
  quota : c.outgoingQos1Count < c.peerReceiveMaximum.toNat
  free : c.Free packetId
  kind : entry.kind = .requestPublish correlationData
  origin : entry.origin = .request pending.result
  encoded : (requestPacket pending (some packetId)).encode = .ok bytes
  room : c.HasRoom bytes

structure PublishesQos0 (c : MqttConnection) (correlationData : Bytes) (pending : PendingRequest)
    (bytes : Bytes) : Prop where
  lookup : c.pendingRequests.lookup correlationData = some pending
  unpublished : pending.published = false
  encoded : (requestPacket pending none).encode = .ok bytes
  room : c.HasRoom bytes

inductive Publish : MqttConnection → MqttConnection → Prop
  | quiet : Quiet c c' → Publish c c'
  | qos1 : (c.Publishes correlationData pending packetId entry bytes) →
    Publish c (((c.await packetId entry).push (pending.frame correlationData bytes)).markPublished
      correlationData (some packetId))
  | qos0 : (c.PublishesQos0 correlationData pending bytes) →
    Publish c ((c.push (pending.frame correlationData bytes)).markPublished correlationData none)

-- The moves that a packet from the broker can lead to: requests that waited are published.
inductive Move : MqttConnection → MqttConnection → Prop
  | shift : Shift c c' → Move c c'
  | publish : Publish c c' → Move c c'

theorem Shift.move : ∀ c c', Shift c c' → Move c c' :=
  fun _ _ => .shift

theorem Publish.move : ∀ c c', Publish c c' → Move c c' :=
  fun _ _ => .publish

-- What is sent for an operation that is acknowledged.
inductive Carries (c : MqttConnection) (packetId : UInt16) : PendingAckKind → Bytes → Prop
  | publish (packet : PublishPacket) : (packet.packetId = some packetId) →
    (packet.qos = .atLeastOnce) →
    (c.serverCapabilities.validatePublish packet.qos packet.retain = .ok ()) →
    (c.outgoingQos1Count < c.peerReceiveMaximum.toNat) → (packet.encode = .ok bytes) →
    Carries c packetId (.publish result) bytes
  | subscribe : (c.serverCapabilities.validateSubscriptionFilter filter = .ok ()) →
    (SubscribePacket.encode { packetId, filters := [(filter, qos)], properties := {} } = .ok bytes) →
    Carries c packetId (.subscribe qos result) bytes
  | unsubscribe :
    (UnsubscribePacket.encode { packetId, filters := [filter], properties := {} } = .ok bytes) →
    Carries c packetId (.unsubscribe filter result) bytes

structure Awaits (c : MqttConnection) (packetId : UInt16) (entry : PendingAck) (result : Sender)
    (bytes : Bytes) : Prop where
  free : c.Free packetId
  waiter : entry.kind.result? = some result
  origin : entry.origin = .command result
  carries : c.Carries packetId entry.kind bytes
  room : c.HasRoom bytes

-- The frame of a command that is acknowledged.
def ackedFrame (result : Sender) (bytes : Bytes) : OutboundFrame where
  bytes := bytes
  action := .none
  requestCorrelation := none
  origin := .command result

-- What `subscribe_for_responses` does.
structure Subscribes (c : MqttConnection) (responseTopic : String) (packetId : UInt16)
    (entry : PendingAck) (bytes : Bytes) : Prop where
  absent : c.responseSubscriptions.lookup responseTopic = none
  bound : c.responseSubscriptions.entries.length < c.maxPendingOperations
  free : c.Free packetId
  kind : entry.kind = .responseSubscribe responseTopic
  origin : entry.origin = .subscription responseTopic
  encoded : SubscribePacket.encode
    { packetId, filters := [(responseTopic, .atLeastOnce)], properties := {} } = .ok bytes
  room : c.HasRoom bytes

def subscriptionFrame (responseTopic : String) (bytes : Bytes) : OutboundFrame where
  bytes := bytes
  action := .none
  requestCorrelation := none
  origin := .subscription responseTopic

-- A message that is not acknowledged.
structure Queues (c : MqttConnection) (packet : PublishPacket) (bytes : Bytes) : Prop where
  unidentified : packet.packetId = none
  valid : c.serverCapabilities.validatePublish packet.qos packet.retain = .ok ()
  encoded : packet.encode = .ok bytes
  room : c.HasRoom bytes

def messageFrame (result : Sender) (bytes : Bytes) : OutboundFrame where
  bytes := bytes
  action := .publishQos0 result
  requestCorrelation := none
  origin := .command result

def pingFrame : OutboundFrame where
  bytes := pingreqBytes
  action := .pingReq
  requestCorrelation := none
  origin := .driver

-- The moves that a command other than DISCONNECT can lead to.
inductive Begin : MqttConnection → MqttConnection → Prop
  | publish : Publish c c' → Begin c c'
  | refuse (result e) : (¬e.IsRejection) →
    Begin c (c.reply result (some (.error e)))
  | consume (correlationData) :
    Begin c
      { c with
        requestLifecycle := (c.requestLifecycle.consumeCancellation correlationData).2 }
  | finish (correlationData) : Begin c (c.finished correlationData)
  | await : (c.Awaits packetId entry result bytes) →
    Begin c ((c.await packetId entry).push (ackedFrame result bytes))
  | subscribe : (c.Subscribes responseTopic packetId entry bytes) →
    Begin c (((c.await packetId entry).subscribing responseTopic).push
      (subscriptionFrame responseTopic bytes))
  | queue (result) : (c.Queues packet bytes) → Begin c (c.push (messageFrame result bytes))
  | ping : (c.pingOutstandingSince = none) → (c.pingQueued = false) → (c.HasRoom pingreqBytes) →
    Begin c { c.push pingFrame with pingQueued := true }
  | register (result deadline) : (Command.request request result ∈ c.taken) →
    (c.validateRequest request = .ok ()) →
    Begin c (c.admitted request.correlationData (request.pending result deadline))
  | withdraw (e : Error) : (c.pendingRequests.lookup correlationData = some pending) →
    (pending.publishPacketId = none) →
    Begin c ((c.withoutRequest correlationData pending).reply pending.result (some (.error e)))

def disconnectFrame (result : Sender) : OutboundFrame where
  bytes := disconnectBytes
  action := .disconnect result
  requestCorrelation := none
  origin := .command result

-- Once all handles are gone, the driver disconnects.
def abandonedDisconnect : OutboundFrame where
  bytes := disconnectBytes
  action := .abandonedDisconnect
  requestCorrelation := none
  origin := .driver

-- The moves that a command, or the lack of one, can lead to.
inductive Enter : MqttConnection → MqttConnection → Prop
  | begin : Begin c c' → Enter c c'
  | desert : Enter c c.deserted
  | disconnect (result) : (c.closing = false) → (c.HasRoom disconnectBytes) →
    Enter c ({ c with closing := true }.push (disconnectFrame result))
  | abandon : (c.closing = false) → (c.HasRoom disconnectBytes) →
    Enter c ({ c with closing := true }.push abandonedDisconnect)

variable {c c' : MqttConnection}

theorem Quiet.refl : Quiet c c :=
  .mk _ _ id

theorem Quiet.trans (h : Quiet c c₁) (h' : Quiet c₁ c₂) : Quiet c c₂ := by
  cases h
  case mk nextPacketId clock hn =>
    cases h'
    case mk _ _ hn' => exact .mk _ _ fun hc => hn' (hn hc)

theorem Quiet.pendingAcks (h : Quiet c c') : c'.pendingAcks = c.pendingAcks := by
  cases h; rfl

theorem Quiet.pendingRequests (h : Quiet c c') : c'.pendingRequests = c.pendingRequests := by
  cases h; rfl

theorem Quiet.closing (h : Quiet c c') : c'.closing = c.closing := by
  cases h; rfl

theorem Quiet.hasRoom (h : Quiet c c') : c'.HasRoom bytes ↔ c.HasRoom bytes := by
  cases h; rfl

theorem HasRoom.fits (h : c.HasRoom bytes) {asked : Option (AckClass × UInt16)}
    (ha : bytes.length < 2 ^ 32 → Asks bytes t asked) : c.Fits bytes t asked :=
  ⟨h.left, h.right, ha⟩

-- The frames that the moves add to the queue, as a broker sees them.

theorem Publishes.fits (h : c.Publishes correlationData pending packetId entry bytes) :
    c.Fits bytes .publish (some (.publish, packetId)) :=
  h.room.fits fun hl => PublishPacket.asks h.encoded hl

theorem PublishesQos0.fits (h : c.PublishesQos0 correlationData pending bytes) :
    c.Fits bytes .publish none :=
  h.room.fits fun hl => PublishPacket.asks h.encoded hl

theorem Carries.asks (h : c.Carries packetId kind bytes) (hl : bytes.length < 2 ^ 32) :
    Asks bytes kind.ackClass.packetType (some (kind.ackClass, packetId)) := by
  cases h
  case publish packet hi _ _ _ he =>
    have ha := PublishPacket.asks he hl
    rwa [hi] at ha
  case subscribe he => exact SubscribePacket.asks he hl
  case unsubscribe he => exact UnsubscribePacket.asks he hl

theorem Awaits.fits (h : c.Awaits packetId entry result bytes) :
    c.Fits bytes entry.kind.ackClass.packetType (some (entry.kind.ackClass, packetId)) :=
  h.room.fits h.carries.asks

theorem Subscribes.fits (h : c.Subscribes responseTopic packetId entry bytes) :
    c.Fits bytes .subscribe (some (.subscribe, packetId)) :=
  h.room.fits fun hl => SubscribePacket.asks h.encoded hl

theorem Queues.fits (h : c.Queues packet bytes) : c.Fits bytes .publish none :=
  h.room.fits fun hl => by
    have ha := PublishPacket.asks h.encoded hl
    rwa [h.unidentified] at ha

theorem HasRoom.ping (h : c.HasRoom pingreqBytes) : c.Fits pingreqBytes .pingReq none :=
  h.fits fun _ => pingreqBytes_asks

theorem HasRoom.disconnect (h : c.HasRoom disconnectBytes) :
    c.Fits disconnectBytes .disconnect none :=
  h.fits fun _ => disconnectBytes_asks

-- What each of the basic operations does.

theorem now_apply : ∃ c', now c = .ok c.clock.now c' ∧ Quiet c c' :=
  ⟨_, rfl, .mk _ _ id⟩

theorem nextPacketIdAfter_ne_zero (packetId : UInt16) : nextPacketIdAfter packetId ≠ 0 := by
  rw [nextPacketIdAfter]
  split
  case isTrue => simp
  case isFalse h => exact h

theorem reservePacketId_go_apply (rounds : Nat) : ∃ r c',
    reservePacketId.go rounds c = .ok r c' ∧ Quiet c c' ∧
      ∀ packetId, r = .ok packetId → packetId ∉ c'.pendingAcks := by
  induction rounds generalizing c
  case zero => exact ⟨_, c, rfl, .refl, by simp⟩
  case succ rounds ih =>
    rw [reservePacketId.go, EStateM.bind_ok (EStateM.get_apply _),
      EStateM.bind_ok (EStateM.set_apply _ _)]
    have hq : Quiet c { c with nextPacketId := nextPacketIdAfter c.nextPacketId } :=
      .mk _ _ fun _ => nextPacketIdAfter_ne_zero _
    by_cases h : c.nextPacketId ∈ c.pendingAcks
    case pos =>
      rw [if_pos h]
      have ⟨r, c', h, hq', hr⟩ :=
        ih (c := { c with nextPacketId := nextPacketIdAfter c.nextPacketId })
      exact ⟨r, c', h, hq.trans hq', hr⟩
    case neg =>
      rw [if_neg h]
      exact ⟨_, _, rfl, hq, fun packetId hp => by cases hp; exact h⟩

theorem reservePacketId_apply : ∃ r c', reservePacketId c = .ok r c' ∧ Quiet c c' ∧
    ∀ packetId, r = .ok packetId → packetId ∉ c'.pendingAcks :=
  reservePacketId_go_apply _

theorem reservePacketId_go_error {rounds : Nat} (h : reservePacketId.go rounds c = .ok (.error e) c') :
    e = .queueFull "packet identifiers" := by
  induction rounds generalizing c
  case zero => cases h; rfl
  case succ rounds ih =>
    rw [reservePacketId.go, EStateM.bind_ok (EStateM.get_apply _),
      EStateM.bind_ok (EStateM.set_apply _ _)] at h
    split at h
    case isTrue => exact ih h
    case isFalse => cases h

theorem reservePacketId_error (h : reservePacketId c = .ok (.error e) c') : ¬e.IsRejection := by
  rw [reservePacketId_go_error h]
  nofun

theorem insertPendingAck_cases (packetId kind timeoutLabel origin) :
    (insertPendingAck packetId kind timeoutLabel origin c =
      .ok (.error { error := .queueFull "pending operation", kind }) c) ∨
    ∃ c' entry, Quiet c c' ∧ c'.pendingAcks.entries.length < c'.maxPendingOperations ∧
      entry.kind = kind ∧ entry.origin = origin ∧
      insertPendingAck packetId kind timeoutLabel origin c =
        .ok (.ok ()) (c'.await packetId entry) := by
  rw [insertPendingAck, EStateM.bind_ok (EStateM.get_apply _)]
  split
  case isTrue => exact .inl rfl
  case isFalse hl =>
    exact .inr ⟨{ c with clock := c.clock.tick }, _, .mk _ _ id, Nat.lt_of_not_ge hl, rfl, rfl, rfl⟩

-- An entry that was just made is taken back without a trace.
theorem removePendingAck_await (h : packetId ∉ c.pendingAcks) (entry : PendingAck) :
    removePendingAck packetId (c.await packetId entry) = .ok (some entry) c := by
  have he : (c.await packetId entry).pendingAcks.erase packetId = c.pendingAcks :=
    AList.erase_insert_of_notMem h entry
  have hl : (c.await packetId entry).pendingAcks.lookup packetId = some entry :=
    AList.lookup_insert _
  rw [removePendingAck, EStateM.bind_ok (EStateM.get_apply _),
    EStateM.bind_ok (EStateM.set_apply _ _), he, hl]
  rfl

theorem enqueueWithAction_cases (bytes action requestCorrelation origin) :
    (∃ e, enqueueWithAction bytes action requestCorrelation origin c = .ok (.error (e, action)) c ∧
      ¬e.IsRejection) ∨
    (c.HasRoom bytes ∧
      enqueueWithAction bytes action requestCorrelation origin c =
        .ok (.ok ()) (c.push { bytes, action, requestCorrelation, origin })) := by
  rw [enqueueWithAction, EStateM.bind_ok (EStateM.get_apply _)]
  split
  case isTrue => exact .inl ⟨_, rfl, nofun⟩
  case isFalse hm =>
    split
    case isTrue => exact .inl ⟨_, rfl, nofun⟩
    case isFalse hr => exact .inr ⟨⟨by omega, by omega⟩, rfl⟩

theorem enqueue_cases (bytes action requestCorrelation origin) :
    (∃ e, enqueue bytes action requestCorrelation origin c = .ok (.error e) c ∧
      ¬e.IsRejection) ∨
    (c.HasRoom bytes ∧
      enqueue bytes action requestCorrelation origin c =
        .ok (.ok ()) (c.push { bytes, action, requestCorrelation, origin })) := by
  rcases enqueueWithAction_cases (c := c) bytes action requestCorrelation origin with
    ⟨e, h, he⟩ | ⟨hr, h⟩
  case inl => exact .inl ⟨e, by rw [enqueue, EStateM.bind_ok h]; rfl, he⟩
  case inr => exact .inr ⟨hr, by rw [enqueue, EStateM.bind_ok h]; rfl⟩

theorem trySend_cases (event) :
    (∃ e, trySend event c = .ok (.error e) c) ∨ trySend event c = .ok (.ok ()) (c.emit event) := by
  rw [trySend, EStateM.bind_ok (EStateM.get_apply _)]
  split
  case isTrue => exact .inl ⟨_, rfl⟩
  case isFalse =>
    split
    case isTrue => exact .inl ⟨_, rfl⟩
    case isFalse => exact .inr rfl

theorem removeRequest_of_none (h : c.pendingRequests.lookup correlationData = none) :
    removeRequest correlationData c = .ok none c := by
  rw [removeRequest, EStateM.bind_ok (EStateM.get_apply _), h]
  rfl

theorem removeRequest_of_some (h : c.pendingRequests.lookup correlationData = some pending) :
    removeRequest correlationData c =
      .ok (some pending) (c.withoutRequest correlationData pending) := by
  rw [removeRequest, EStateM.bind_ok (EStateM.get_apply _), h, withoutRequest]
  dsimp only
  cases pending.publishPacketId <;> rfl

end MqttConnection
end MqttWasi
