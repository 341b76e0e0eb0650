import MqttWasi.Driver.Theorems.Steps

-- What becomes of a packet from the broker.

namespace MqttWasi

-- The operation that a packet acknowledges.
def Packet.acknowledges : Packet → Option (AckClass × UInt16)
  | .pubAck ack   => some (.publish, ack.packetId)
  | .subAck ack   => some (.subscribe, ack.packetId)
  | .unsubAck ack => some (.unsubscribe, ack.packetId)
  | _             => none

def Packet.publish? : Packet → Option PublishPacket
  | .publish packet => some packet
  | _               => none

-- What a waiter can be told because of an acknowledgement.
inductive Verdict : Packet → Reply → Prop
  | puback (ack) : Verdict (.pubAck ack) (MqttConnection.pubackReply ack)
  | suback (ack) : Verdict (.subAck ack)
    (.ok (.subscription { packetId := ack.packetId, reasonCodes := ack.reasonCodes }))
  | refused (ack e) : (∃ qos, validateSubackCodes ack.reasonCodes [qos] = .error e) →
    Verdict (.subAck ack) (.error e)
  | unsuback (ack) : Verdict (.unsubAck ack) (MqttConnection.unsubackReply ack)

namespace MqttConnection

open EStateM (Leads)
open Relation (ReflTransGen)

-- What the acknowledgement of an operation means for the response topics.
def subscriptionsAfter (packet : Packet) (kind : PendingAckKind)
    (subscriptions : AList fun _ : String => ResponseSubscription) :
    AList fun _ : String => ResponseSubscription :=
  match packet, kind with
  | .subAck ack, .responseSubscribe responseTopic =>
    if (validateSubackCodes ack.reasonCodes [.atLeastOnce]).isOk then
      subscriptions.insert responseTopic .ready
    else
      subscriptions.erase responseTopic
  | .unsubAck ack, .unsubscribe filter _ =>
    if (unsubackReply ack).isOk then subscriptions.erase filter else subscriptions
  | _, _ => subscriptions

-- The entry of an acknowledged operation is gone, and its waiter has been told.
def acknowledged (c : MqttConnection) (packetId : UInt16) (packet : Packet) (kind : PendingAckKind)
    (replies : List (Sender × Reply)) : MqttConnection :=
  { c with
    pendingAcks := c.pendingAcks.erase packetId, replies := c.replies ++ replies
    responseSubscriptions := subscriptionsAfter packet kind c.responseSubscriptions }

-- The entry is gone and nothing else has happened yet.
def released (c : MqttConnection) (packetId : UInt16) : MqttConnection :=
  { c with pendingAcks := c.pendingAcks.erase packetId }

def pubackFrame (bytes : Bytes) : OutboundFrame where
  bytes := bytes
  action := .none
  requestCorrelation := none
  origin := .driver

-- What the waiter of an operation has been told when it is acknowledged.
inductive Told (packet : Packet) (kind : PendingAckKind) : List (Sender × Reply) → Prop
  | nobody : (kind.result? = none) → Told packet kind []
  | waiter : (kind.result? = some result) → (Verdict packet r) → Told packet kind [(result, r)]

-- All that a packet which is neither a PUBLISH nor a DISCONNECT can lead to.
inductive Resolve : MqttConnection → MqttConnection → Prop
  | move : Move c c' → Resolve c c'
  | take : (c.pendingAcks.lookup packetId = some pending) →
    (packet.acknowledges = some (pending.kind.ackClass, packetId)) →
    (Told packet pending.kind told) →
    Resolve c (c.acknowledged packetId packet pending.kind told)
  | pong : Resolve c { c with pingOutstandingSince := none }

-- All that a packet other than DISCONNECT can lead to.
inductive Arrive : MqttConnection → MqttConnection → Prop
  | resolve : Resolve c c' → Arrive c c'
  | acknowledge : (c.Fits bytes .pubAck none) → Arrive c (c.push (pubackFrame bytes))
  | respond (packet) : (c.pendingRequests.lookup correlationData = some pending) →
    Arrive c ((c.withoutRequest correlationData pending).reply pending.result
      (some (.ok (.response packet))))
  | deliver (packet) : Arrive c (c.emit (.publish packet))

variable {c c' : MqttConnection}

theorem withoutRequest_eq (c : MqttConnection) (correlationData : Bytes)
    (pending : PendingRequest) : ∃ outboundBytes pendingAcks requestLifecycle,
      c.withoutRequest correlationData pending =
        { c with
          outbound := c.outbound.filter (!isUnsentFrameOf correlationData ·)
          pendingRequests := c.pendingRequests.erase correlationData
          outboundBytes, pendingAcks, requestLifecycle } := by
  unfold withoutRequest
  cases pending.publishPacketId <;> exact ⟨_, _, _, rfl⟩

theorem takePendingAck_of_none (h : c.pendingAcks.lookup packetId = none) :
    takePendingAck packetId k c = .ok none c := by
  rw [takePendingAck, EStateM.bind_ok (EStateM.get_apply _), h]
  rfl

theorem takePendingAck_of_some (h : c.pendingAcks.lookup packetId = some pending)
    (hk : pending.kind.ackClass = k) :
    takePendingAck packetId k c = .ok (some pending) (c.released packetId) := by
  rw [takePendingAck, EStateM.bind_ok (EStateM.get_apply _), h]
  simp only [hk, ne_eq, not_true, if_false]
  rw [removePendingAck, EStateM.bind_ok (EStateM.get_apply _),
    EStateM.bind_ok (EStateM.set_apply _ _), h]
  rfl

theorem takePendingAck_of_mismatch (h : c.pendingAcks.lookup packetId = some pending)
    (hk : pending.kind.ackClass ≠ k) :
    takePendingAck packetId k c =
      .error (.unexpectedPacket "acknowledgement type does not match pending packet id") c := by
  rw [takePendingAck, EStateM.bind_ok (EStateM.get_apply _), h]
  simp only [hk, ne_eq, not_false_iff, if_true]
  rfl

-- How an acknowledgement is dispatched if it is for an operation of its class: the entry is taken
-- and the waiter told, and what is left to do concerns requests.
def Settles (M : MqttConnection → MqttConnection → Prop) (packet : Packet) (packetId : UInt16)
    (kind : PendingAckKind) (c c' : MqttConnection) : Prop :=
  ∃ replies, Told packet kind replies ∧
    ReflTransGen M (c.acknowledged packetId packet kind replies) c'

variable {M : MqttConnection → MqttConnection → Prop}

theorem Settles.moves (h : Settles Shift packet packetId kind c c') :
    Settles Move packet packetId kind c c' :=
  have ⟨replies, ht, hm⟩ := h
  ⟨replies, ht, ReflTransGen.mono Shift.move _ _ hm⟩

-- Most acknowledgements do not concern response topics.
theorem acknowledged_eq
    (h : subscriptionsAfter packet kind c.responseSubscriptions = c.responseSubscriptions)
    (replies : List (Sender × Reply)) : c.acknowledged packetId packet kind replies =
      { c.released packetId with replies := c.replies ++ replies } := by
  rw [acknowledged, h]
  rfl

theorem Settles.of_reply (hk : kind.result? = some result) (hv : Verdict packet r)
    (hs : subscriptionsAfter packet kind c.responseSubscriptions = c.responseSubscriptions)
    (h : c' = (c.released packetId).reply result (some r)) :
    Settles M packet packetId kind c c' := by
  refine ⟨[(result, r)], .waiter hk hv, ?_⟩
  rw [h, acknowledged_eq hs]
  exact .refl

theorem Settles.of_nobody (hk : kind.result? = none)
    (hs : subscriptionsAfter packet kind c.responseSubscriptions = c.responseSubscriptions)
    (h : ReflTransGen M (c.released packetId) c') : Settles M packet packetId kind c c' := by
  refine ⟨[], .nobody hk, ?_⟩
  rw [acknowledged_eq hs, List.append_nil]
  exact h

theorem dispatchPuback_settles {ack : PubAckPacket}
    (h : c.pendingAcks.lookup ack.packetId = some pending)
    (hk : pending.kind.ackClass = .publish) :
    Settles Shift (.pubAck ack) ack.packetId pending.kind c (dispatchPuback ack c).state := by
  rw [dispatchPuback, EStateM.bind_ok (takePendingAck_of_some h hk)]
  dsimp only
  cases hp : pending.kind <;> rw [hp] at hk <;> try cases hk
  case publish result => exact .of_reply rfl (.puback ack) rfl rfl
  case requestPublish correlationData =>
    refine .of_nobody rfl rfl ?_
    dsimp only
    rw [EStateM.ite_apply]
    split
    case isTrue => exact failRequest_shifts
    case isFalse => exact .refl
  case tombstone => exact .of_nobody rfl rfl .refl

theorem completeSubscribe_state (c : MqttConnection) (ack requestedQos result) :
    ∃ r, Verdict (.subAck ack) r ∧
    (completeSubscribe ack requestedQos result c).state = c.reply result (some r) := by
  rw [completeSubscribe]
  cases hv : validateSubackCodes ack.reasonCodes [requestedQos]
  case ok => exact ⟨_, .suback ack, rfl⟩
  case error e =>
    refine ⟨_, .refused ack e ⟨requestedQos, hv⟩, ?_⟩
    cases e <;> rfl

-- Whether requests are waiting for the subscription to their response topic.
def HasWaiting (c : MqttConnection) (responseTopic : String) : Prop :=
  c.requestsWhere (fun pending => !pending.published && pending.responseTopic = responseTopic) ≠ []

-- The subscription has been granted, or refused.
theorem completeResponseSubscribe_cases (c : MqttConnection) (packetId ack responseTopic) :
    (validateSubackCodes ack.reasonCodes [.atLeastOnce] = .ok () ∧
      completeResponseSubscribe ack responseTopic (c.released packetId) =
        publishWaitingRequests responseTopic
          (c.acknowledged packetId (.subAck ack) (.responseSubscribe responseTopic) [])) ∨
    ReflTransGen Shift (c.acknowledged packetId (.subAck ack) (.responseSubscribe responseTopic) [])
      (completeResponseSubscribe ack responseTopic (c.released packetId)).state := by
  rw [completeResponseSubscribe, acknowledged, subscriptionsAfter, List.append_nil]
  cases validateSubackCodes ack.reasonCodes [.atLeastOnce]
  case ok => exact .inl ⟨rfl, rfl⟩
  case error e =>
    refine .inr ?_
    have hr : removeResponseSubscription responseTopic (c.released packetId) = .ok ()
        { c.released packetId with
          responseSubscriptions := c.responseSubscriptions.erase responseTopic } := rfl
    cases e
    case ackRejected =>
      dsimp only
      rw [EStateM.bind_ok hr]
      exact failRequestsForTopic_shifts
    all_goals
      dsimp only
      rw [EStateM.bind_ok hr]
      exact failRequestsForTopic_shifts.bind_any fun _ _ => .throw _

theorem publishWaitingRequests_of_none (h : ¬c.HasWaiting responseTopic) :
    publishWaitingRequests responseTopic c = .ok () c := by
  rw [publishWaitingRequests, EStateM.bind_ok (EStateM.get_apply _), not_not.mp h]
  rfl

-- What is left to do after the acknowledgement of a subscription to a response topic.
def Completes (M : MqttConnection → MqttConnection → Prop) (c : MqttConnection) (ack : SubAckPacket)
    (responseTopic : String) : Prop :=
  ReflTransGen M
    (c.acknowledged ack.packetId (.subAck ack) (.responseSubscribe responseTopic) [])
    (completeResponseSubscribe ack responseTopic (c.released ack.packetId)).state

theorem completeResponseSubscribe_moves {ack : SubAckPacket} :
    Completes Move c ack responseTopic := by
  unfold Completes
  rcases completeResponseSubscribe_cases c ack.packetId ack responseTopic with ⟨_, h⟩ | h
  case inl => rw [h]; exact publishWaitingRequests_moves
  case inr => exact ReflTransGen.mono Shift.move _ _ h

theorem completeResponseSubscribe_shifts {ack : SubAckPacket}
    (hn : validateSubackCodes ack.reasonCodes [.atLeastOnce] = .ok () →
      ¬c.HasWaiting responseTopic) : Completes Shift c ack responseTopic := by
  unfold Completes
  rcases completeResponseSubscribe_cases c ack.packetId ack responseTopic with ⟨hv, h⟩ | h
  case inl =>
    have hn : ¬(c.acknowledged ack.packetId (.subAck ack) (.responseSubscribe responseTopic)
      []).HasWaiting responseTopic := hn hv
    rw [h, publishWaitingRequests_of_none hn]
    exact .refl
  case inr => exact h

theorem dispatchSuback_settles' {ack : SubAckPacket}
    (hr : ∀ responseTopic, pending.kind = .responseSubscribe responseTopic →
      Completes M c ack responseTopic)
    (h : c.pendingAcks.lookup ack.packetId = some pending)
    (hk : pending.kind.ackClass = .subscribe) :
    Settles M (.subAck ack) ack.packetId pending.kind c (dispatchSuback ack c).state := by
  rw [dispatchSuback, EStateM.bind_ok (takePendingAck_of_some h hk)]
  dsimp only
  cases hp : pending.kind <;> rw [hp] at hk <;> try cases hk
  case subscribe requestedQos result =>
    have ⟨r, hv, hr⟩ := completeSubscribe_state (c.released ack.packetId) ack requestedQos result
    exact .of_reply rfl hv rfl hr
  case responseSubscribe responseTopic => exact ⟨[], .nobody rfl, hr responseTopic hp⟩
  case tombstone => exact .of_nobody rfl rfl .refl

theorem dispatchSuback_settles {ack : SubAckPacket}
    (h : c.pendingAcks.lookup ack.packetId = some pending)
    (hk : pending.kind.ackClass = .subscribe) :
    Settles Move (.subAck ack) ack.packetId pending.kind c (dispatchSuback ack c).state :=
  dispatchSuback_settles' (fun _ _ => completeResponseSubscribe_moves) h hk

theorem dispatchUnsuback_settles {ack : UnsubAckPacket}
    (h : c.pendingAcks.lookup ack.packetId = some pending)
    (hk : pending.kind.ackClass = .unsubscribe) :
    Settles Shift (.unsubAck ack) ack.packetId pending.kind c (dispatchUnsuback ack c).state := by
  rw [dispatchUnsuback, EStateM.bind_ok (takePendingAck_of_some h hk)]
  dsimp only
  cases hp : pending.kind <;> rw [hp] at hk <;> try cases hk
  case unsubscribe filter result =>
    refine ⟨[(result, unsubackReply ack)], .waiter rfl (.unsuback ack), ?_⟩
    rw [acknowledged, subscriptionsAfter]
    dsimp only
    split <;> exact .refl
  case tombstone => exact .of_nobody rfl rfl .refl

-- A PUBLISH.

-- The connection after the PUBACK for a message, if it needs one, has been queued.
inductive Acked (packet : PublishPacket) (c : MqttConnection) : MqttConnection → Prop
  | qos0 : (packet.qos = .atMostOnce) → Acked packet c c
  | qos1 : (packet.qos = .atLeastOnce) → (packet.packetId = some packetId) →
    (PubAckPacket.encode { packetId, reasonCode := 0x00 } = .ok bytes) →
    (c.Fits bytes .pubAck none) → Acked packet c (c.push (pubackFrame bytes))

theorem acknowledgePublish_cases (c : MqttConnection) (packet : PublishPacket) :
    (∃ e, acknowledgePublish packet c = .error e c) ∨
    ∃ c', acknowledgePublish packet c = .ok () c' ∧ Acked packet c c' := by
  rw [acknowledgePublish]
  cases hq : packet.qos
  case atMostOnce => exact .inr ⟨c, rfl, .qos0 hq⟩
  case atLeastOnce =>
    simp only [if_true]
    cases hi : packet.packetId <;> dsimp only
    case none => exact .inl ⟨_, rfl⟩
    case some packetId =>
      cases he : PubAckPacket.encode { packetId, reasonCode := 0x00 }
      case error e => exact .inl ⟨e, rfl⟩
      case ok bytes =>
        rw [EStateM.bind_ok (check_ok _ _)]
        rcases enqueue_cases (c := c) bytes .none none .driver with ⟨e, hw, _⟩ | ⟨hr, hw⟩
        case inl =>
          rw [EStateM.bind_ok hw]
          exact .inl ⟨e, rfl⟩
        case inr =>
          rw [EStateM.bind_ok hw]
          exact .inr ⟨_, rfl, .qos1 hq hi he (hr.fits fun hl => PubAckPacket.asks he hl)⟩

-- The request that a message is the response to.
def Responds (c : MqttConnection) (packet : PublishPacket) (correlationData : Bytes)
    (pending : PendingRequest) : Prop :=
  packet.properties.getBinary .correlationData = some correlationData ∧
    c.pendingRequests.lookup correlationData = some pending ∧
      pending.responseTopic = packet.topic

theorem tryCompleteRequest_cases (c : MqttConnection) (packet : PublishPacket) :
    (tryCompleteRequest packet c = .ok false c ∧ ∀ correlationData pending,
      ¬c.Responds packet correlationData pending) ∨
    ∃ correlationData pending, c.Responds packet correlationData pending ∧
      tryCompleteRequest packet c = .ok true
        ((c.withoutRequest correlationData pending).reply pending.result
          (some (.ok (.response packet)))) := by
  rw [tryCompleteRequest]
  cases hc : packet.properties.getBinary .correlationData <;> dsimp only
  case none => exact .inl ⟨rfl, fun _ _ h => by rw [Responds, hc] at h; cases h.left⟩
  case some correlationData =>
    rw [EStateM.bind_ok (EStateM.get_apply _)]
    cases hp : c.pendingRequests.lookup correlationData
    case none =>
      refine .inl ⟨rfl, fun _ _ h => ?_⟩
      have ⟨h₁, h₂, _⟩ := h
      rw [hc, Option.some.injEq] at h₁
      rw [← h₁, hp] at h₂
      cases h₂
    case some pending =>
      by_cases ht : pending.responseTopic = packet.topic
      case pos =>
        refine .inr ⟨correlationData, pending, ⟨hc, hp, ht⟩, ?_⟩
        simp only [Option.any_some, ht, decide_true, if_true]
        rw [EStateM.bind_ok (removeRequest_of_some hp)]
        rfl
      case neg =>
        simp only [Option.any_some, ht, decide_false, Bool.false_eq_true, if_false]
        refine .inl ⟨rfl, fun _ _ h => ?_⟩
        have ⟨h₁, h₂, h₃⟩ := h
        rw [hc, Option.some.injEq] at h₁
        rw [← h₁, hp, Option.some.injEq] at h₂
        exact ht (h₂ ▸ h₃)

-- The three ways in which a message can be handled.
inductive Handled (packet : PublishPacket) (c : MqttConnection) :
    EStateM.Result Error MqttConnection Unit → Prop
  | response : (Acked packet c c₁) → (c₁.Responds packet correlationData pending) →
    Handled packet c (.ok () ((c₁.withoutRequest correlationData pending).reply pending.result
      (some (.ok (.response packet)))))
  | event : (Acked packet c c₁) → (∀ correlationData pending,
    ¬c₁.Responds packet correlationData pending) → Handled packet c (.ok () (c₁.emit (.publish packet)))
  | error : (c₁ = c ∨ Acked packet c c₁) → Handled packet c (.error e c₁)

theorem dispatchPublish_handled (c : MqttConnection) (packet : PublishPacket) :
    Handled packet c (dispatchPublish packet c) := by
  rw [dispatchPublish]
  rcases acknowledgePublish_cases c packet with ⟨e, ha⟩ | ⟨c₁, ha, hc⟩
  case inl =>
    rw [EStateM.bind_error ha]
    exact .error (.inl rfl)
  case inr =>
    rw [EStateM.bind_ok ha]
    rcases tryCompleteRequest_cases c₁ packet with ⟨ht, hn⟩ | ⟨correlationData, pending, hr, ht⟩
    case inl =>
      rw [EStateM.bind_ok ht]
      simp only [Bool.false_eq_true, if_false]
      rcases trySend_cases (c := c₁) (.publish packet) with ⟨e, hs⟩ | hs
      case inl =>
        rw [EStateM.bind_ok hs]
        exact .error (.inr hc)
      case inr =>
        rw [EStateM.bind_ok hs]
        exact .event hc hn
    case inr =>
      rw [EStateM.bind_ok ht]
      exact .response hc hr

theorem Move.resolve : ∀ c c', Move c c' → Resolve c c' :=
  fun _ _ => .move

theorem Resolve.arrive : ∀ c c', Resolve c c' → Arrive c c' :=
  fun _ _ => .resolve

theorem Acked.arrive (h : Acked packet c c') : ReflTransGen Arrive c c' := by
  cases h
  case qos0 => exact .refl
  case qos1 hf => exact .single (.acknowledge hf)

theorem Handled.arrives (h : Handled packet c r) : ReflTransGen Arrive c r.state := by
  cases h
  case response ha hr => exact ha.arrive.tail (.respond packet hr.right.left)
  case event ha _ => exact ha.arrive.tail (.deliver packet)
  case error ha =>
    rcases ha with rfl | ha
    case inl => exact .refl
    case inr => exact ha.arrive

-- An acknowledgement is ignored, refused or settles an operation.
inductive Acknowledges (M : MqttConnection → MqttConnection → Prop) (packet : Packet) (k : AckClass)
    (packetId : UInt16) (c : MqttConnection) : EStateM.Result Error MqttConnection Unit → Prop
  | ignored : (c.pendingAcks.lookup packetId = none) → Acknowledges M packet k packetId c (.ok () c)
  | refused (e) : (c.pendingAcks.lookup packetId = some pending) → (pending.kind.ackClass ≠ k) →
    Acknowledges M packet k packetId c (.error e c)
  | settled : (c.pendingAcks.lookup packetId = some pending) → (pending.kind.ackClass = k) →
    (Settles M packet packetId pending.kind c r.state) → Acknowledges M packet k packetId c r

theorem dispatch_ack_cases {x : DriverM Unit} {f : Option PendingAck → DriverM Unit}
    (hx : x = takePendingAck packetId k >>= f) (hn : f none = pure ())
    (hs : ∀ pending, c.pendingAcks.lookup packetId = some pending → pending.kind.ackClass = k →
      Settles M packet packetId pending.kind c (x c).state) :
    Acknowledges M packet k packetId c (x c) := by
  cases hl : c.pendingAcks.lookup packetId
  case none =>
    rw [hx, EStateM.bind_ok (takePendingAck_of_none hl), hn]
    exact .ignored hl
  case some pending =>
    by_cases hk : pending.kind.ackClass = k
    case pos => exact .settled hl hk (hs pending hl hk)
    case neg =>
      rw [hx, EStateM.bind_error (takePendingAck_of_mismatch hl hk)]
      exact .refused _ hl hk

theorem dispatchPacket_acknowledges (h : packet.acknowledges = some (k, packetId)) :
    Acknowledges Move packet k packetId c (dispatchPacket packet c) := by
  cases packet <;> cases h
  case pubAck ack =>
    exact dispatch_ack_cases rfl rfl fun _ h hk => (dispatchPuback_settles h hk).moves
  case subAck ack => exact dispatch_ack_cases rfl rfl fun _ h hk => dispatchSuback_settles h hk
  case unsubAck ack =>
    exact dispatch_ack_cases rfl rfl fun _ h hk => (dispatchUnsuback_settles h hk).moves

theorem Acknowledges.resolves (h : Acknowledges Move packet k packetId c r)
    (hp : packet.acknowledges = some (k, packetId)) : ReflTransGen Resolve c r.state := by
  cases h
  case ignored => exact .refl
  case refused => exact .refl
  case settled hl hk hs =>
    have ⟨_, ht, hm⟩ := hs
    exact .head (.take hl (by rw [hk]; exact hp) ht) (ReflTransGen.mono Move.resolve _ _ hm)

theorem dispatchPacket_resolves (hp : packet.publish? = none)
    (hd : ∀ disconnect, packet ≠ .disconnect disconnect) :
    ReflTransGen Resolve c (dispatchPacket packet c).state := by
  cases packet
  case publish packet => cases hp
  case pubAck ack => exact (dispatchPacket_acknowledges rfl).resolves rfl
  case subAck ack => exact (dispatchPacket_acknowledges rfl).resolves rfl
  case unsubAck ack => exact (dispatchPacket_acknowledges rfl).resolves rfl
  case pingResp => exact .single .pong
  case disconnect disconnect => exact absurd rfl (hd disconnect)
  all_goals exact .refl

theorem dispatchPacket_arrives (hd : ∀ disconnect, packet ≠ .disconnect disconnect) :
    ReflTransGen Arrive c (dispatchPacket packet c).state := by
  by_cases hp : packet.publish? = none
  case pos => exact ReflTransGen.mono Resolve.arrive _ _ (dispatchPacket_resolves hp hd)
  case neg =>
    cases packet
    case publish packet => exact (dispatchPublish_handled c packet).arrives
    all_goals exact absurd rfl hp

end MqttConnection
end MqttWasi
