import MqttWasi.Driver.Theorems.Framing

-- The connection as far as acknowledgements are concerned: what the driver waits for, and what it has
-- sent.

namespace MqttWasi

-- Some of the operations that satisfy `p` are not waited for any more.
def Fades (p : PendingAckKind → Prop) (m m' : AList fun _ : UInt16 => PendingAck) : Prop :=
  ∀ packetId, m'.lookup packetId = m.lookup packetId ∨
    ∃ pending, m.lookup packetId = some pending ∧ p pending.kind ∧
      m'.lookup packetId = some pending.bury

namespace PendingAckKind

-- Nothing but the response topics depends on these.
def IsSubscription (kind : PendingAckKind) : Prop :=
  ∃ responseTopic, kind = responseSubscribe responseTopic

instance : (kind : PendingAckKind) → Decidable kind.IsSubscription
  | responseSubscribe responseTopic => isTrue ⟨responseTopic, rfl⟩
  | publish _ | subscribe _ _ | unsubscribe _ _ | requestPublish _ | tombstone _ _ =>
    isFalse nofun

end PendingAckKind

theorem Fades.adjust_id (p) (m : AList fun _ : UInt16 => PendingAck) (packetId) :
    Fades p m (m.adjust packetId id) := by
  intro packetId'
  rw [AList.lookup_adjust_id]
  exact .inl rfl

theorem Fades.adjust_bury {p : PendingAckKind → Prop} {m : AList fun _ : UInt16 => PendingAck}
    (h : m.lookup packetId = some pending) (hp : p pending.kind) :
    Fades p m (m.adjust packetId PendingAck.bury) := by
  intro packetId'
  by_cases he : packetId' = packetId
  case pos =>
    subst he
    exact .inr ⟨pending, h, hp, by rw [AList.lookup_adjust, h]; rfl⟩
  case neg => rw [AList.lookup_adjust_ne he]; exact .inl rfl

theorem Fades.sweep (m : AList fun _ : UInt16 => PendingAck) (closed : Sender → Bool) :
    Fades (¬·.IsSubscription) m
      (m.mapValues fun pending => if pending.kind.result?.any closed then pending.bury else pending) := by
  intro packetId
  rw [AList.lookup_mapValues]
  cases h : m.lookup packetId
  case none => exact .inl rfl
  case some pending =>
    rw [Option.map_some]
    split
    case isTrue hr =>
      refine .inr ⟨pending, rfl, fun ⟨responseTopic, hk⟩ => ?_, rfl⟩
      rw [hk] at hr
      cases hr
    case isFalse => exact .inl rfl

namespace MqttConnection

open Relation (ReflTransGen)

inductive Ledger : MqttConnection → MqttConnection → Prop
  | other (frameReader received commands taken events emitted requestLifecycle nextPacketId
      outboundBytes enqueued flushActions needsFlush pingQueued pingOutstandingSince closing
      terminalEventSent commandChannelClosed clock handlesDropped nextSender droppedReceivers
      replies) :
    Ledger c
      { c with
        frameReader, received, commands, taken, events, emitted, requestLifecycle, nextPacketId
        outboundBytes, enqueued, flushActions, needsFlush, pingQueued, pingOutstandingSince, closing
        terminalEventSent, commandChannelClosed, clock, handlesDropped, nextSender
        droppedReceivers, replies }
  | fade (pendingAcks) : (Fades (¬·.IsSubscription) c.pendingAcks pendingAcks) →
    Ledger c { c with pendingAcks }
  | forget : (c.pendingAcks.lookup packetId = some pending) →
    (pending.kind = .responseSubscribe responseTopic) →
    Ledger c
      { c with
        pendingAcks := c.pendingAcks.adjust packetId PendingAck.bury
        responseSubscriptions := c.responseSubscriptions.erase responseTopic }
  | reorder (correlationData) :
    Ledger c { c with pendingRequests := c.pendingRequests.adjust correlationData id }
  | register (pending) : (correlationData ∉ c.pendingRequests) → (pending.published = false) →
    (pending.publishPacketId = none) → Ledger c (c.admitted correlationData pending)
  | remove : (c.pendingRequests.lookup correlationData = some pending) →
    Ledger c (c.withoutRequest correlationData pending)
  | publish : (c.Publishes correlationData pending packetId entry bytes) →
    Ledger c (((c.await packetId entry).push (pending.frame correlationData bytes)).markPublished
      correlationData (some packetId))
  | publishQos0 : (c.PublishesQos0 correlationData pending bytes) →
    Ledger c ((c.push (pending.frame correlationData bytes)).markPublished correlationData none)
  | await : (c.Awaits packetId entry result bytes) →
    Ledger c ((c.await packetId entry).push (ackedFrame result bytes))
  | subscribe : (c.Subscribes responseTopic packetId entry bytes) →
    Ledger c (((c.await packetId entry).subscribing responseTopic).push
      (subscriptionFrame responseTopic bytes))
  | plain (frame) : (frame.requestCorrelation = none) → (frame.offset = 0) →
    (c.Fits frame.bytes t none) → Ledger c (c.push frame)
  | write : (c.outbound = frame :: rest) → (Write frame rest c c') → Ledger c c'

-- What the acknowledgement of an operation does to its entry. The rest of what it leads to concerns
-- requests.
inductive Receipt (packet : Packet) (k : AckClass) (packetId : UInt16) (c : MqttConnection) :
    MqttConnection → Prop
  | unknown : (c.pendingAcks.lookup packetId = none) → Receipt packet k packetId c c
  | mismatched : (c.pendingAcks.lookup packetId = some pending) → (pending.kind.ackClass ≠ k) →
    Receipt packet k packetId c c
  | taken : (c.pendingAcks.lookup packetId = some pending) → (pending.kind.ackClass = k) →
    (Told packet pending.kind answers) →
    Receipt packet k packetId c (c.acknowledged packetId packet pending.kind answers)

variable {c c' : MqttConnection}

theorem Shift.ledger (h : Shift c c') : ReflTransGen Ledger c c' := by
  cases h
  case quiet hq => cases hq; exact .single (.other ..)
  case sweep => exact .single (.fade _ (.sweep _ c.isClosed))
  case bury hn hl =>
    have hp : ¬PendingAckKind.IsSubscription _ := fun ⟨responseTopic, hk⟩ => hn responseTopic hk
    exact .head (.fade _ (.adjust_bury hl hp)) (.single (.other ..))
  case forget hk hl => exact .single (.forget hl hk)
  case remove hl => exact .head (.remove hl) (.single (.other ..))

theorem Publish.ledger (h : Publish c c') : ReflTransGen Ledger c c' := by
  cases h
  case quiet hq => cases hq; exact .single (.other ..)
  case qos1 hp => exact .single (.publish hp)
  case qos0 hp => exact .single (.publishQos0 hp)

theorem Move.ledger (h : Move c c') : ReflTransGen Ledger c c' := by
  cases h
  case shift hs => exact hs.ledger
  case publish hp => exact hp.ledger

theorem Begin.ledger (h : Begin c c') : ReflTransGen Ledger c c' := by
  cases h
  case publish hp => exact hp.ledger
  case await ha => exact .single (.await ha)
  case subscribe hs => exact .single (.subscribe hs)
  case queue hq => exact .single (.plain _ rfl rfl hq.fits)
  case ping hr => exact .head (.plain pingFrame rfl rfl hr.ping) (.single (.other ..))
  case register hv => exact .single (.register _ (validateRequest_ok hv) rfl rfl)
  case withdraw _ hl => exact .head (.remove hl) (.single (.other ..))
  all_goals exact .single (.other ..)

theorem Enter.ledger (h : Enter c c') : ReflTransGen Ledger c c' := by
  cases h
  case begin hb => exact hb.ledger
  case desert => exact .single (.other ..)
  case disconnect hr =>
    exact .head (.other ..) (.single (.plain _ rfl rfl (HasRoom.disconnect hr)))
  case abandon hr =>
    exact .head (.other ..) (.single (.plain _ rfl rfl (HasRoom.disconnect hr)))

theorem Outside.ledger (h : Outside c input c') : ReflTransGen Ledger c c' := by
  cases h
  case reorder packetId correlationData =>
    exact .head (.fade _ (.adjust_id _ _ packetId)) (.single (.reorder correlationData))
  all_goals exact .single (.other ..)

theorem Announce.ledger (h : Announce reason c c') : Ledger c c' := by
  cases h <;> exact .other ..

theorem Flush.ledger (h : Flush c c') : ReflTransGen Ledger c c' := by
  cases h
  case accept => exact .single (.other ..)
  case complete flush _ _ hp =>
    generalize flush.action = action at hp
    cases hp
    case disconnect ha => exact .head (.other ..) (.single ha.ledger)
    all_goals exact .single (.other ..)

theorem Act.ledger (h : Act c c') : ReflTransGen Ledger c c' := by
  cases h
  case shift hs => exact hs.ledger
  case enter he => exact he.ledger
  case write ho hw => exact .single (.write ho hw)
  case flush hf => exact hf.ledger
  case announce ha => exact .single ha.ledger
  case outside ho => exact ho.ledger
  all_goals exact .single (.other ..)

theorem ledger_of {M : MqttConnection → MqttConnection → Prop} (h : ReflTransGen M c c')
    (hm : ∀ {c c'}, M c c' → ReflTransGen Ledger c c') : ReflTransGen Ledger c c' :=
  h.preserves (P := ReflTransGen Ledger c) (fun _ _ hs h => h.trans (hm hs)) .refl

theorem Acked.ledger (h : Acked packet c c') : ReflTransGen Ledger c c' := by
  cases h
  case qos0 => exact .refl
  case qos1 hf => exact .single (.plain _ rfl rfl hf)

theorem Handled.ledger (h : Handled packet c r) : ReflTransGen Ledger c r.state := by
  cases h
  case response ha hr => exact (ha.ledger.tail (.remove hr.right.left)).tail (.other ..)
  case event ha _ => exact ha.ledger.tail (.other ..)
  case error ha =>
    rcases ha with rfl | ha
    case inl => exact .refl
    case inr => exact ha.ledger

-- What a packet that is not an acknowledgement leads to.
theorem dispatchPacket_ledger (hd : ∀ disconnect, packet ≠ .disconnect disconnect)
    (hn : packet.acknowledges = none) : ReflTransGen Ledger c (dispatchPacket packet c).state := by
  cases packet
  case publish packet => exact (dispatchPublish_handled c packet).ledger
  case pingResp => exact .single (.other ..)
  case disconnect disconnect => exact absurd rfl (hd disconnect)
  case pubAck => cases hn
  case subAck => cases hn
  case unsubAck => cases hn
  all_goals exact .refl

theorem Acknowledges.receipt (h : Acknowledges Move packet k packetId c r) :
    ∃ c', Receipt packet k packetId c c' ∧ ReflTransGen Move c' r.state := by
  cases h
  case ignored hl => exact ⟨c, .unknown hl, .refl⟩
  case refused hl hk => exact ⟨c, .mismatched hl hk, .refl⟩
  case settled hl hk hs =>
    have ⟨_, ht, hm⟩ := hs
    exact ⟨_, .taken hl hk ht, hm⟩

end MqttConnection

namespace Driver

open MqttConnection

-- A property of the ledger that holds until the connection has ended, and one that holds from then
-- on, in the runs that meet a condition. Only the acknowledgements may need it.
theorem run_ledger {P Q : MqttConnection → Prop} {C : Driver → Input → Prop}
    {driver driver' : Driver} (hl : ∀ c c', Ledger c c' → P c → P c')
    (hr : ∀ c packet reader, packet.acknowledges = none → P c → P (c.arrived reader packet))
    (hk : ∀ c c' packet reader k packetId, packet.acknowledges = some (k, packetId) →
      dispatches ⟨c, .decodeAndDispatch⟩ .proceed = some packet →
      C ⟨c, .decodeAndDispatch⟩ .proceed → P c →
      Receipt packet k packetId (c.arrived reader packet) c' → P c')
    (he : ∀ c c', Ends c c' → P c ∨ Q c → Q c') (ho : ∀ c input c', Outside c input c' → Q c → Q c')
    (hp : P driver.connection) (hc : driver.Throughout inputs C)
    (h : driver.run inputs = some driver') :
    P driver'.connection ∨ (driver'.phase.terminated = true ∧ Q driver'.connection) := by
  refine run_live (fun _ _ ha h => ha.ledger.preserves hl h)
    (fun c reader _ h => hr c _ reader rfl h) ?_ he ho hp hc h
  intro c packet reader hd hc hn h
  cases ha : packet.acknowledges
  case none => exact (dispatchPacket_ledger hn ha).preserves hl (hr c packet reader ha h)
  case some asked =>
    have ⟨c', hr, hm⟩ := (dispatchPacket_acknowledges (c := c.arrived reader packet) ha).receipt
    exact (ledger_of hm Move.ledger).preserves hl
      (hk c c' packet reader _ _ ha (dispatches_of_decoded hd) hc h hr)

end Driver
end MqttWasi
