import MqttWasi.Driver.Theorems.Runs

-- The connection as far as the frames in its queues are concerned.

namespace MqttWasi

-- A frame that has just been queued, and what it is.
structure OutboundFrame.Proper (frame : OutboundFrame) (t : PacketType) : Prop where
  unstarted : frame.offset = 0
  ping : frame.action = .pingReq ↔ t = .pingReq
  disconnect : (∃ result, frame.action = .disconnect result) → t = .disconnect

namespace MqttConnection

open Relation (ReflTransGen)

inductive Traffic : MqttConnection → MqttConnection → Prop
  -- Everything that has nothing to do with the queues.
  | other (frameReader received commands taken events requestLifecycle pendingAcks nextPacketId
      commandChannelClosed pendingRequests responseSubscriptions clock handlesDropped nextSender
      droppedReceivers replies) :
    Traffic c
      { c with
        frameReader, received, commands, taken, events, requestLifecycle, pendingAcks, nextPacketId
        commandChannelClosed, pendingRequests, responseSubscriptions, clock, handlesDropped
        nextSender, droppedReceivers, replies }
  | close : Traffic c { c with closing := true }
  | push (frame) : (frame.Proper t) → (t ≠ .pingReq) → (t ≠ .disconnect) →
    (c.Fits frame.bytes t asked) → Traffic c (c.push frame)
  | disconnect (frame) : (frame.Proper .disconnect) → (c.closing = false) →
    (c.Fits frame.bytes .disconnect none) → Traffic c ({ c with closing := true }.push frame)
  | ping : (c.pingOutstandingSince = none) → (c.pingQueued = false) → (c.HasRoom pingreqBytes) →
    Traffic c { c.push pingFrame with pingQueued := true }
  | withdraw (correlationData) : Traffic c (retainFrames correlationData c)
  | write : (c.outbound = frame :: rest) → (Write frame rest c c') → Traffic c c'
  | accept : Traffic c { c with needsFlush := false }
  | complete : (c.flushActions = flush :: rest) →
    (Performs flush.action (c.dropFlush flush rest) c') → Traffic c c'
  | announce : Announce reason c c' → Traffic c c'
  | deliver (packet) : Traffic c (c.emit (.publish packet))

variable {c c' : MqttConnection}

theorem Proper.plain {frame : OutboundFrame} {t : PacketType} (ho : frame.offset = 0)
    (ha : frame.action = .none) (ht : t ≠ .pingReq) :
    frame.Proper t where
  unstarted := ho
  ping := by rw [ha]; exact ⟨nofun, fun h => absurd h ht⟩
  disconnect := by rw [ha]; nofun

theorem PendingRequest.frame_proper (pending : PendingRequest) (correlationData bytes) :
    (pending.frame correlationData bytes).Proper .publish where
  unstarted := rfl
  ping := ⟨nofun, nofun⟩
  disconnect := nofun

theorem messageFrame_proper (result bytes) : (messageFrame result bytes).Proper .publish where
  unstarted := rfl
  ping := ⟨nofun, nofun⟩
  disconnect := nofun

theorem disconnectFrame_proper (result) : (disconnectFrame result).Proper .disconnect where
  unstarted := rfl
  ping := ⟨nofun, nofun⟩
  disconnect _ := rfl

theorem abandonedDisconnect_proper : abandonedDisconnect.Proper .disconnect where
  unstarted := rfl
  ping := ⟨nofun, nofun⟩
  disconnect _ := rfl

theorem Traffic.withoutRequest (c : MqttConnection) (correlationData pending) :
    ReflTransGen Traffic c (c.withoutRequest correlationData pending) := by
  unfold MqttConnection.withoutRequest
  cases pending.publishPacketId <;>
    exact .head (.other ..) (.head (.withdraw correlationData) (.single (.other ..)))

theorem Shift.traffic (h : Shift c c') : ReflTransGen Traffic c c' := by
  cases h
  case quiet hq => cases hq; exact .single (.other ..)
  case remove pending correlationData e _ =>
    exact (Traffic.withoutRequest c correlationData pending).tail (.other ..)
  all_goals exact .single (.other ..)

-- An entry is made and a frame queued.
theorem Traffic.await (packetId entry frame) (hp : frame.Proper t) (ht : t ≠ .pingReq)
    (hd : t ≠ .disconnect) (hf : c.Fits frame.bytes t asked) :
    ReflTransGen Traffic c ((c.await packetId entry).push frame) :=
  .head (.other ..) (.single (.push frame hp ht hd ⟨hf.le_max, hf.room, hf.asks⟩))

theorem Publish.traffic (h : Publish c c') : ReflTransGen Traffic c c' := by
  cases h
  case quiet hq => cases hq; exact .single (.other ..)
  case qos1 hp =>
    exact (Traffic.await _ _ _ (PendingRequest.frame_proper ..) nofun nofun hp.fits).tail (.other ..)
  case qos0 hp =>
    exact .head (.push _ (PendingRequest.frame_proper ..) nofun nofun hp.fits) (.single (.other ..))

theorem Move.traffic (h : Move c c') : ReflTransGen Traffic c c' := by
  cases h
  case shift hs => exact hs.traffic
  case publish hp => exact hp.traffic

theorem ackClass_packetType_ne (k : AckClass) :
    k.packetType ≠ .pingReq ∧ k.packetType ≠ .disconnect := by
  cases k <;> exact ⟨nofun, nofun⟩

theorem Begin.traffic (h : Begin c c') : ReflTransGen Traffic c c' := by
  cases h
  case publish hp => exact hp.traffic
  case await entry _ _ ha =>
    have ⟨hp, hd⟩ := ackClass_packetType_ne entry.kind.ackClass
    exact Traffic.await _ _ _ (Proper.plain rfl rfl hp) hp hd ha.fits
  case subscribe packetId entry responseTopic bytes hs =>
    have ht := Traffic.await (t := .subscribe) packetId entry (subscriptionFrame responseTopic bytes)
      (Proper.plain rfl rfl nofun) nofun nofun hs.fits
    exact ht.tail (.other ..)
  case queue hq => exact .single (.push _ (messageFrame_proper ..) nofun nofun hq.fits)
  case ping ho hq hr => exact .single (.ping ho hq hr)
  case withdraw pending correlationData e _ _ =>
    exact (Traffic.withoutRequest c correlationData pending).tail (.other ..)
  all_goals exact .single (.other ..)

theorem Enter.traffic (h : Enter c c') : ReflTransGen Traffic c c' := by
  cases h
  case begin hb => exact hb.traffic
  case desert => exact .single (.other ..)
  case disconnect hc hr => exact .single (.disconnect _ (disconnectFrame_proper _) hc hr.disconnect)
  case abandon hc hr => exact .single (.disconnect _ abandonedDisconnect_proper hc hr.disconnect)

theorem Outside.traffic (h : Outside c input c') : Traffic c c' := by
  cases h <;> exact .other ..

theorem Act.traffic (h : Act c c') : ReflTransGen Traffic c c' := by
  cases h
  case shift hs => exact hs.traffic
  case enter he => exact he.traffic
  case close => exact .single .close
  case write ho hw => exact .single (.write ho hw)
  case flush hf =>
    cases hf
    case accept => exact .single .accept
    case complete hc hp => exact .single (.complete hc hp)
  case announce ha => exact .single (.announce ha)
  case outside ho => exact .single ho.traffic
  all_goals exact .single (.other ..)

theorem traffic_of {M : MqttConnection → MqttConnection → Prop} (h : ReflTransGen M c c')
    (hm : ∀ {c c'}, M c c' → ReflTransGen Traffic c c') : ReflTransGen Traffic c c' :=
  h.preserves (P := ReflTransGen Traffic c) (fun _ _ hs h => h.trans (hm hs)) .refl

theorem Acknowledges.traffic (h : Acknowledges Move packet k packetId c r) :
    ReflTransGen Traffic c r.state := by
  cases h
  case ignored => exact .refl
  case refused => exact .refl
  case settled hs =>
    have ⟨_, _, hm⟩ := hs
    have ht := traffic_of hm Move.traffic
    exact .head (.other ..) ht

theorem Acked.traffic (h : Acked packet c c') : ReflTransGen Traffic c c' := by
  cases h
  case qos0 => exact .refl
  case qos1 hf =>
    exact .single (.push (t := .pubAck) _ (Proper.plain rfl rfl nofun) nofun nofun hf)

theorem Handled.traffic (h : Handled packet c r) : ReflTransGen Traffic c r.state := by
  cases h
  case response correlationData pending ha _ =>
    exact (ha.traffic.trans (Traffic.withoutRequest _ correlationData pending)).tail (.other ..)
  case event ha _ => exact ha.traffic.tail (.deliver packet)
  case error ha =>
    rcases ha with rfl | ha
    case inl => exact .refl
    case inr => exact ha.traffic

-- What a packet other than PINGRESP leads to.
theorem dispatchPacket_traffic (hd : ∀ disconnect, packet ≠ .disconnect disconnect)
    (hn : packet ≠ .pingResp) : ReflTransGen Traffic c (dispatchPacket packet c).state := by
  cases packet
  case publish packet => exact (dispatchPublish_handled c packet).traffic
  case pubAck ack => exact (dispatchPacket_acknowledges rfl).traffic
  case subAck ack => exact (dispatchPacket_acknowledges rfl).traffic
  case unsubAck ack => exact (dispatchPacket_acknowledges rfl).traffic
  case pingResp => exact absurd rfl hn
  case disconnect disconnect => exact absurd rfl (hd disconnect)
  all_goals exact .refl

end MqttConnection

namespace Driver

open MqttConnection

-- A property of the queues that holds until the connection has ended, and one that holds from then
-- on. Only a PINGRESP may need a condition.
theorem run_traffic {P Q : MqttConnection → Prop} {C : Driver → Input → Prop}
    {driver driver' : Driver} (ht : ∀ c c', Traffic c c' → P c → P c')
    (hr : ∀ c packet reader, packet ≠ .pingResp → P c → P (c.arrived reader packet))
    (hg : ∀ c reader, FrameReader.tryDecode c.frameReader = .ok (some .pingResp) reader →
      C ⟨c, .decodeAndDispatch⟩ .proceed → P c →
      P { c.arrived reader .pingResp with pingOutstandingSince := none })
    (he : ∀ c c', Ends c c' → P c ∨ Q c → Q c') (ho : ∀ c input c', Outside c input c' → Q c → Q c')
    (hp : P driver.connection) (hc : driver.Throughout inputs C)
    (h : driver.run inputs = some driver') :
    P driver'.connection ∨ (driver'.phase.terminated = true ∧ Q driver'.connection) := by
  refine run_live (fun _ _ ha h => ha.traffic.preserves ht h)
    (fun c reader _ h => hr c _ reader nofun h) ?_ he ho hp hc h
  intro c packet reader hd hc hn h
  by_cases hx : packet = .pingResp
  case pos =>
    subst hx
    exact hg c reader hd hc h
  case neg => exact (dispatchPacket_traffic hn hx).preserves ht (hr c packet reader hx h)

end Driver
end MqttWasi
