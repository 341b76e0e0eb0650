import MqttWasi.Client.Theorems.Order
import MqttWasi.Driver.Theorems.Requests

-- What the broker has allowed for in its CONNACK.

namespace MqttWasi

-- The maximum packet size of a broker.
def ConnAckPacket.packetSizeLimit (connack : ConnAckPacket) : Nat :=
  ((connack.properties.getU32 .maximumPacketSize).map (·.toNat)).getD 268435460

-- A frame that keeps to the limits of a CONNACK.
structure Respects (connack : ConnAckPacket) (bytes : Bytes) : Prop where
  size : bytes.length ≤ connack.packetSizeLimit
  publish : packetTypeOf bytes = some .publish → ∃ packet, messageOf bytes = some packet ∧
    (connack.properties.getByte .maximumQoS = some 0 → packet.qos ≠ .atLeastOnce) ∧
    (connack.properties.getByte .retainAvailable = some 0 → packet.retain = false)
  subscribe : packetTypeOf bytes = some .subscribe → ∃ filter, topicFilter bytes = some filter ∧
    (connack.properties.getByte .wildcardSubscriptionAvailable = some 0 →
      hasWildcard filter.toList = false) ∧
    (connack.properties.getByte .sharedSubscriptionAvailable = some 0 →
      sharePrefix.isPrefixOf filter.toList = false)

theorem ServerCapabilities.available_of_zero {connack : ConnAckPacket} {id : PropertyId}
    (h : connack.properties.getByte id = some 0) : fromConnack.available connack id = false := by
  rw [fromConnack.available, h]
  rfl

theorem ServerCapabilities.validatePublish_fromConnack
    (h : (fromConnack connack).validatePublish qos retain = .ok ()) :
    (connack.properties.getByte .maximumQoS = some 0 → qos ≠ .atLeastOnce) ∧
    (connack.properties.getByte .retainAvailable = some 0 → retain = false) := by
  unfold validatePublish at h
  split at h <;> try split at h
  case isFalse.isFalse hq hr =>
    refine ⟨fun hc he => hq ?_, fun hc => ?_⟩
    case refine_1 =>
      simp only [he, fromConnack, if_pos hc]
      decide
    case refine_2 =>
      have ha : (fromConnack connack).retainAvailable = false := available_of_zero hc
      simpa [ha] using hr
  all_goals cases h

theorem ConnAckPacket.packetSizeLimit_lt (connack : ConnAckPacket) :
    connack.packetSizeLimit < 2 ^ 32 := by
  unfold packetSizeLimit
  cases connack.properties.getU32 .maximumPacketSize
  case none => decide
  case some size => exact size.toNat_lt

theorem Respects.of_allowed (hl : bytes.length ≤ connack.packetSizeLimit)
    (ha : Allowed (.fromConnack connack) bytes) : Respects connack bytes where
  size := hl
  publish ht :=
    have ⟨packet, hm, hv⟩ := ha.publish ht
    ⟨packet, hm, ServerCapabilities.validatePublish_fromConnack hv⟩
  subscribe ht := by
    have ⟨filter, hf, hw, hs⟩ := ha.subscribe ht
    refine ⟨filter, hf, fun hz => eq_false_of_ne_true fun he => ?_,
      fun hz => eq_false_of_ne_true fun he => ?_⟩
    case refine_1 => cases (ServerCapabilities.available_of_zero hz).symm.trans (hw he)
    case refine_2 => cases (ServerCapabilities.available_of_zero hz).symm.trans (hs he)

namespace MqttConnection

open Relation (ReflTransGen)

-- All that has been queued is what the broker allows for, and all that may still be.
structure Compliant (connack : ConnAckPacket) (c : MqttConnection) : Prop where
  size : c.peerMaxPacketSize = connack.packetSizeLimit
  capabilities : c.serverCapabilities = .fromConnack connack
  commands : ∀ command ∈ c.commands, command.Issued
  pending : ∀ correlationData pending, c.pendingRequests.lookup correlationData = some pending →
    c.serverCapabilities.validatePublish pending.qos false = .ok ()
  enqueued : ∀ frame ∈ c.enqueued, c.Lawful frame.bytes

variable {connack : ConnAckPacket} {c c' : MqttConnection}

-- Nothing else matters.
def agenda (c : MqttConnection) :
    Nat × ServerCapabilities × List Command × List OutboundFrame :=
  (c.peerMaxPacketSize, c.serverCapabilities, c.commands, c.enqueued)

theorem Lawful.same (h : c.Lawful bytes) (hl : c'.agenda = c.agenda) : c'.Lawful bytes := by
  simp only [agenda, Prod.mk.injEq] at hl
  exact ⟨hl.left ▸ h.le_max, hl.right.left ▸ h.allowed⟩

theorem Compliant.same (h : c.Compliant connack) (hl : c'.agenda = c.agenda)
    (hp : ∀ correlationData pending, c'.pendingRequests.lookup correlationData = some pending →
      c.serverCapabilities.validatePublish pending.qos false = .ok ()) : c'.Compliant connack := by
  have hs := fun {bytes} (h : c.Lawful bytes) => h.same hl
  simp only [agenda, Prod.mk.injEq] at hl
  have ⟨hm, hc, hn, he⟩ := hl
  refine ⟨hm ▸ h.size, hc ▸ h.capabilities, hn ▸ h.commands, hc ▸ hp, ?_⟩
  rw [he]
  exact fun frame hm => hs (h.enqueued frame hm)

theorem Compliant.push (h : c.Compliant connack) (hl : c.Lawful frame.bytes) :
    (c.push frame).Compliant connack where
  size := h.size
  capabilities := h.capabilities
  commands := h.commands
  pending := h.pending
  enqueued frame' hm := by
    have hs : ∀ {bytes}, c.Lawful bytes → (c.push frame).Lawful bytes := fun h => ⟨h.le_max, h.allowed⟩
    rcases List.mem_append.mp hm with hm | hm
    case inl => exact hs (h.enqueued frame' hm)
    case inr => exact List.mem_singleton.mp hm ▸ hs hl

theorem Compliant.markPublished (h : c.Compliant connack) (correlationData packetId) :
    (c.markPublished correlationData packetId).Compliant connack := by
  refine h.same rfl fun correlationData' pending hl => ?_
  by_cases he : correlationData' = correlationData
  case neg =>
    rw [MqttConnection.markPublished, AList.lookup_adjust_ne he] at hl
    exact h.pending _ _ hl
  case pos =>
    subst he
    rw [MqttConnection.markPublished, AList.lookup_adjust] at hl
    have ⟨pending', hl, hp⟩ := Option.map_eq_some_iff.mp hl
    have hv := h.pending _ _ hl
    rwa [← hp]

theorem Compliant.withoutRequest (h : c.Compliant connack) (correlationData pending) :
    (c.withoutRequest correlationData pending).Compliant connack := by
  have ⟨_, _, _, he⟩ := withoutRequest_eq c correlationData pending
  rw [he]
  refine h.same rfl fun correlationData' pending' hl => ?_
  by_cases he : correlationData' = correlationData
  case pos =>
    subst he
    rw [AList.lookup_erase] at hl
    cases hl
  case neg =>
    rw [AList.lookup_erase_ne he] at hl
    exact h.pending _ _ hl

theorem Compliant.dequeued (h : c.Compliant connack) (hq : c.commands = command :: rest) :
    (c.dequeued command rest).Compliant connack where
  size := h.size
  capabilities := h.capabilities
  commands command' hm := h.commands command' (hq ▸ List.mem_cons_of_mem command hm)
  pending := h.pending
  enqueued frame hm := ⟨(h.enqueued frame hm).le_max, (h.enqueued frame hm).allowed⟩

theorem Write.agenda (h : Write frame rest c c') :
    c'.agenda = c.agenda ∧ c'.pendingRequests = c.pendingRequests := by
  cases h <;> exact ⟨rfl, rfl⟩

theorem Compliant.step (hc : Course c c') (h : c.Compliant connack) : c'.Compliant connack := by
  have hpublish : ∀ {correlationData pending packetId bytes},
      c.pendingRequests.lookup correlationData = some pending →
      (requestPacket pending packetId).encode = .ok bytes → c.HasRoom bytes → c.Lawful bytes :=
    fun hl he hr => ⟨hr.left, fun hb => PublishPacket.allowed he hb (h.pending _ _ hl)⟩
  cases hc
  case other => exact h.same rfl h.pending
  case dequeue hq => exact h.dequeued hq
  case remove => exact h.withoutRequest _ _
  case publish packetId entry _ _ _ hp =>
    have hl := hpublish hp.lookup hp.encoded hp.room
    have ha : (c.await packetId entry).Compliant connack := h.same rfl h.pending
    refine Compliant.markPublished (ha.push ?_) _ _
    exact hl.same rfl
  case publishQos0 hp =>
    exact (h.push (hpublish hp.lookup hp.encoded hp.room)).markPublished _ _
  case push hl => exact h.push hl
  case write hw =>
    have ⟨ha, hp⟩ := hw.agenda
    exact h.same ha (hp ▸ h.pending)

theorem Compliant.quiet (h : c.Compliant connack) (hq : Quiet c c') : c'.Compliant connack := by
  cases hq
  exact h.same rfl h.pending

theorem validateRequest_publish (h : c.validateRequest request = .ok ()) :
    c.serverCapabilities.validatePublish request.qos false = .ok () := by
  unfold validateRequest at h
  by_cases ht : request.timeout = 0
  case pos =>
    rw [if_pos ht] at h
    cases h
  case neg =>
    rw [if_neg ht] at h
    have ⟨_, _, h⟩ := Except.bind_eq_ok.mp h
    have ⟨_, hv, _⟩ := Except.bind_eq_ok.mp h
    exact hv

theorem Compliant.admitted (h : c.Compliant connack) (hq : c.Qualifies request c₁) (result deadline) :
    (c₁.admitted request.correlationData (request.pending result deadline)).Compliant connack := by
  have hv := (hq.quiet.validateRequest request).trans hq.valid
  refine (h.quiet hq.quiet).same rfl fun correlationData pending hl => ?_
  by_cases he : correlationData = request.correlationData
  case pos =>
    subst he
    rw [MqttConnection.admitted, AList.lookup_insert] at hl
    cases hl
    exact validateRequest_publish hv
  case neg =>
    rw [MqttConnection.admitted, AList.lookup_insert_ne he] at hl
    exact (h.quiet hq.quiet).pending _ _ hl

-- The response topic of a request is not checked again when it is subscribed to.
theorem Compliant.launch (ht : RequestCommand.Complete request)
    (hl : Launch request.responseTopic c c') (h : c.Compliant connack) : c'.Compliant connack := by
  cases hl
  case publish hp => exact hp.course.preserves (fun _ _ hc h => h.step hc) h
  case subscribe packetId entry bytes hs =>
    have hl : c.Lawful bytes := by
      refine ⟨hs.room.left, fun hb => SubscribePacket.allowed hs.encoded hb ?_ ?_⟩
      case refine_1 => rw [ht.concrete]; nofun
      case refine_2 => rw [ht.unshared]; nofun
    have ha : ((c.await packetId entry).subscribing request.responseTopic).Compliant connack :=
      h.same rfl h.pending
    exact ha.push (hl.same rfl)

theorem Compliant.takesUp (ht : RequestCommand.Complete request)
    (hx : TakesUp request result c c') (h : c.Compliant connack) : c'.Compliant connack := by
  cases hx
  case closing => exact h.same rfl h.pending
  case cancelled => exact h.same rfl h.pending
  case refused hq =>
    have h := h.quiet hq
    exact h.same rfl h.pending
  case started deadline hq hm =>
    exact hm.preserves (fun _ _ hl h => h.launch ht hl) (h.admitted hq result deadline)
  case withdrawn deadline hq hs =>
    have h := ((h.admitted hq result deadline).quiet hs).withoutRequest request.correlationData
      (request.pending result deadline)
    exact h.same rfl h.pending

theorem Compliant.closed (h : c.Compliant connack) : c.closed.Compliant connack :=
  h.same rfl nofun

theorem Compliant.ends (he : Ends c c') (h : c.Compliant connack) : c'.Compliant connack := by
  cases he <;> exact h.closed.same rfl h.closed.pending

theorem Compliant.outside (ho : Outside c input c')
    (hi : ∀ command, input = .submit command → command.Issued) (h : c.Compliant connack) :
    c'.Compliant connack := by
  cases ho
  case submit command _ _ =>
    refine ⟨h.size, h.capabilities, fun command' hm => ?_, h.pending,
      fun frame hm => ⟨(h.enqueued frame hm).le_max, (h.enqueued frame hm).allowed⟩⟩
    rcases List.mem_append.mp hm with hm | hm
    case inl => exact h.commands command' hm
    case inr => exact List.mem_singleton.mp hm ▸ hi command rfl
  case reorder packetId correlationData =>
    refine h.same rfl fun correlationData' pending hl => ?_
    rw [AList.lookup_adjust_id] at hl
    exact h.pending _ _ hl
  all_goals exact h.same rfl h.pending

end MqttConnection

namespace Driver

open MqttConnection

theorem Proceeds.compliant {driver driver' : Driver} (hp : Proceeds driver input driver')
    (hi : ∀ command, input = .submit command → command.Issued)
    (h : driver.connection.Compliant connack) : driver'.connection.Compliant connack := by
  cases hp
  case course hc => exact hc.preserves (fun _ _ hc h => h.step hc) h
  case request hq ht =>
    have hc := (h.commands _ (hq ▸ List.mem_cons_self)).complete
    exact (h.dequeued hq).takesUp hc ht
  case arrives packet reader c next _ =>
    have h : (c.arrived reader packet).Compliant connack := h.same rfl h.pending
    rw [perform_connection]
    by_cases hd : ∃ disconnect, packet = .disconnect disconnect
    case pos =>
      obtain ⟨disconnect, rfl⟩ := hd
      have ⟨c', hx, ha⟩ :=
        dispatchPacket_disconnect (c.arrived reader (.disconnect disconnect)) disconnect
      rw [hx]
      exact h.ends ha.ends
    case neg =>
      have hc := dispatchPacket_course (c := c.arrived reader packet)
        fun disconnect he => hd ⟨disconnect, he⟩
      exact hc.preserves (fun _ _ hc h => h.step hc) h
  case ends he => exact h.ends he
  case outside ho => exact h.outside ho hi

theorem start_compliant (options connack clock) :
    (start options connack clock).connection.Compliant connack where
  size := rfl
  capabilities := rfl
  commands := nofun
  pending := nofun
  enqueued := nofun

theorem run_compliant {driver driver' : Driver} (hi : ∀ command, .submit command ∈ inputs →
    command.Issued) (hc : driver.connection.Compliant connack) (h : driver.run inputs = some driver') :
    driver'.connection.Compliant connack := by
  refine run_preserves_if (P := fun driver => driver.connection.Compliant connack)
    (C := fun _ input => ∀ command, input = .submit command → command.Issued) ?_ hc ?_ h
  case refine_1 => exact fun _ _ _ _ _ hc hi hs => (step_does hs).proceeds.compliant hi hc
  case refine_2 =>
    rintro _ _ _ hp _ command rfl
    exact hi command (hp.subset (by simp))

end Driver

-- A client between calls, while a call is waiting for the transport, or after `disconnect`.
inductive Outcome (c₀ : MqttClient) : MqttClient → Prop
  | visit : Visit c₀ ms c → Outcome c₀ c
  | disconnected : Session c₀ xs ms c → Outcome c₀ (MqttClient.disconnect c).state

theorem Outcome.bounded {c₀ c : MqttClient} (hn : 0 < c₀.maxIncomingMessages)
    (h₀ : c₀.Live [] [] [] c₀) (h : Outcome c₀ c) : ∃ ms, c₀.Bounded ms c := by
  cases h
  case visit hv => exact ⟨_, hv.bounded hn h₀⟩
  case disconnected ms c hs =>
    have hd := MqttClient.disconnect_bounded c (hs.consistent hn h₀)
    refine ⟨ms, ?_⟩
    cases hx : MqttClient.disconnect c <;> rw [hx] at hd <;> exact hd

-- Whatever is done with either client, the broker gets nothing but what it allows for.
theorem limits_respected :
    (∀ (stream : Transport) (clock : Clock) (options : ConnectOptions) (c₀ c : MqttClient),
      MqttClient.connectWith stream clock options = .ok c₀ → Outcome c₀ c →
      ∃ connack log, c₀.decoded = [.connAck connack] ∧ c.history = c₀.history ++ log ∧
        ∀ frame ∈ handedIn log, Respects connack frame) ∧
    ∀ (options : ConnectOptions) (connack : ConnAckPacket) (clock : Clock) (inputs : List Input)
      (driver : Driver), (Driver.start options connack clock).run inputs = some driver →
      (∀ command, .submit command ∈ inputs → command.Issued) →
      ∀ frame ∈ driver.connection.enqueued, Respects connack frame.bytes := by
  refine ⟨fun stream clock options c₀ c h₀ h => ?_, fun options connack clock inputs driver h hi => ?_⟩
  case refine_1 =>
    have ⟨hn, hl⟩ := MqttClient.live_start h₀
    have ⟨_, connack, hg⟩ := MqttClient.connectWith_greeted h₀
    have ⟨_, _, _, hk⟩ := h.bounded hn hl
    have ⟨hd, hc, hm⟩ := hg
    refine ⟨connack, _, hd, (List.prefix_iff_eq_append.mp hk.history).symm, fun frame hf => ?_⟩
    have hp := hk.permitted frame hf
    have hl : frame.length ≤ connack.packetSizeLimit := hp.le_max.trans_eq hm
    exact .of_allowed hl (hc ▸ hp.allowed)
  case refine_2 =>
    have hc := Driver.run_compliant hi (Driver.start_compliant options connack clock) h
    intro frame hf
    have hl := hc.enqueued frame hf
    have hs := hc.size ▸ hl.le_max
    have ha := hl.allowed (Nat.lt_of_le_of_lt hs connack.packetSizeLimit_lt)
    exact .of_allowed hs (hc.capabilities ▸ ha)

-- A request whose response topic has to be subscribed to.
def plainRequest : RequestCommand where
  topic := "a"
  payload := []
  responseTopic := "b"
  correlationData := [0x07]
  qos := .atLeastOnce
  timeout := .fromSecs 30
  properties := { entries := [(.responseTopic, .str "b"), (.correlationData, .binary [0x07])] }

theorem plainRequest_issued (result : Sender) : (Command.request plainRequest result).Issued :=
  ⟨"a", [], { responseTopic := "b" }, [0x07], Driver.stillClock, by decide +kernel⟩

theorem limits_respected_plainly :
    (∃ c₀ c connack log, MqttClient.connectWith MqttClient.answeringBroker MqttClient.steadyClock
        { clientId := "x" } = .ok c₀ ∧ MqttClient.subscribe "b" .atMostOnce c₀ = .ok () c ∧
      c₀.decoded = [.connAck connack] ∧ c.history = c₀.history ++ log ∧
        ∀ frame ∈ handedIn log, Respects connack frame) ∧
    ∃ driver, (Driver.start Driver.plainOptions Driver.plainConnack Driver.stillClock).run
        [.submit (.request plainRequest 0), .proceed, .proceed] = some driver ∧
      driver.connection.enqueued.length = 1 ∧
      ∀ frame ∈ driver.connection.enqueued, Respects Driver.plainConnack frame.bytes := by
  have ⟨hblocking, hasync⟩ := limits_respected
  have ⟨c₀, h₀, c, hc, _, _⟩ := MqttClient.answeringBroker_run
  have hs : Session c₀ [⟨.subscribe "b" .atMostOnce, c₀, .ok (), c⟩] [] c := .returned .start hc
  have ⟨connack, log, h⟩ := hblocking _ _ _ c₀ c h₀ (.visit (.idle hs))
  have ⟨driver, hr, hl⟩ := Driver.exists_run
    (Driver.start Driver.plainOptions Driver.plainConnack Driver.stillClock)
    [.submit (.request plainRequest 0), .proceed, .proceed]
    (fun driver => driver.connection.enqueued.length = 1) (by decide +kernel)
  have hi : ∀ command, .submit command ∈
      [.submit (.request plainRequest 0), Input.proceed, .proceed] → command.Issued := by
    intro command hm
    simp only [List.mem_cons, List.not_mem_nil, Input.submit.injEq, reduceCtorEq, or_false] at hm
    exact hm ▸ plainRequest_issued 0
  exact ⟨⟨c₀, c, connack, log, h₀, hc, h⟩, driver, hr, hl, hasync _ _ _ _ driver hr hi⟩

end MqttWasi
