import MqttWasi.Frame.Theorems.Server
import MqttWasi.Driver.Theorems.Contents

-- What a server reads from the driver.

namespace MqttWasi

-- What a command asks to be sent. The packet identifier is up to the driver.
def Command.Asks (command : Command) (packet : SentPacket) : Prop :=
  match command with
  | .publish topic payload options _ => ∃ packetId, packet = .client (.publish
      { topic, packetId, payload, qos := options.qos, retain := options.retain, dup := false
        properties := options.properties })
  | .subscribe filter qos _ => ∃ packetId, packet = .client (.subscribe
      { packetId, filters := [(filter, qos)], properties := {} })
  | .unsubscribe filter _ => ∃ packetId, packet = .client (.unsubscribe
      { packetId, filters := [filter], properties := {} })
  | .disconnect _ => packet = .disconnect { reasonCode := 0x00 }
  | .request command _ => ∃ packetId, packet = .client (.publish (command.packet packetId))

-- A message that asks for a PUBACK has been received.
def Packet.AsksForAck (packets : List Packet) (packetId : UInt16) : Prop :=
  ∃ packet : PublishPacket, .publish packet ∈ packets ∧ packet.qos = .atLeastOnce ∧
    packet.packetId = some packetId

namespace MqttConnection

open Relation (ReflTransGen)

-- The packet is what the operation that it is sent for asks for.
inductive Means (c : MqttConnection) : Origin → SentPacket → Prop
  | command : command ∈ c.taken → (∀ request result, command ≠ .request request result) →
    command.Asks packet → Means c (.command command.result) packet
  | request : .request request result ∈ c.taken → (Command.request request result).Asks packet →
    Means c (.request result) packet
  | subscription (packetId) : .request request result ∈ c.taken →
    Means c (.subscription request.responseTopic) (.client (.subscribe
      { packetId, filters := [(request.responseTopic, .atLeastOnce)], properties := {} }))
  | pubAck : Packet.AsksForAck c.dispatched packetId →
    Means c .driver (.pubAck { packetId, reasonCode := 0x00 })
  | pingReq : Means c .driver .pingReq
  | disconnect : Means c .driver (.disconnect { reasonCode := 0x00 })

-- The frame says what it was queued for.
def Says (c : MqttConnection) (frame : OutboundFrame) : Prop :=
  ∃ packet : SentPacket, packet.encode = .ok frame.bytes ∧ c.Means frame.origin packet

-- The commands, the packets and the frames so far
def record (c : MqttConnection) : List Command × List Packet × List OutboundFrame :=
  (c.taken, c.dispatched, c.enqueued)

-- Frames of some kind are queued, and nothing else is recorded.
inductive Utters (P : OutboundFrame → Prop) (c c' : MqttConnection) : Prop
  | mk (frames) : (c'.record = (c.taken, c.dispatched, c.enqueued ++ frames)) →
    (∀ frame ∈ frames, P frame) → Utters P c c'

-- The frames of requests
def OfRequest (frame : OutboundFrame) : Prop :=
  ∃ result, frame.origin = .request result

-- A SUBSCRIBE for the responses to requests
def OfSubscription (responseTopic : String) (frame : OutboundFrame) : Prop :=
  frame.origin = .subscription responseTopic ∧ ∃ packetId, SubscribePacket.encode
    { packetId, filters := [(responseTopic, .atLeastOnce)], properties := {} } = .ok frame.bytes

-- What other commands queue
def OfCommand (command : Command) (frame : OutboundFrame) : Prop :=
  frame.origin = .command command.result ∧
    ∃ packet : SentPacket, command.Asks packet ∧ packet.encode = .ok frame.bytes

-- What the driver queues by itself
def OfDriver (packet : SentPacket) (frame : OutboundFrame) : Prop :=
  frame.origin = .driver ∧ packet.encode = .ok frame.bytes

-- What is queued because of a packet
def OfPacket (packet : Packet) (frame : OutboundFrame) : Prop :=
  OfRequest frame ∨ ∃ packetId, Packet.AsksForAck [packet] packetId ∧
    OfDriver (.pubAck { packetId, reasonCode := 0x00 }) frame

-- What a step of the driver queues
inductive Expresses (c : MqttConnection) : MqttConnection → Prop
  | silent : (c'.record = c.record) → Expresses c c'
  | command (rest) : (c.commands = command :: rest) →
    (∀ request result, command ≠ .request request result) →
    (Accepts command (c.dequeued command rest) c') →
    (Utters (OfCommand command) (c.dequeued command rest) c') → Expresses c c'
  | request (rest) : (c.commands = .request request result :: rest) →
    (TakesUp request result (c.dequeued (.request request result) rest) c') → Expresses c c'
  | own : (Utters (OfDriver packet) c c') →
    (packet = .pingReq ∨ packet = .disconnect { reasonCode := 0x00 }) → Expresses c c'
  | packet (packet reader) : (Utters (OfPacket packet) (c.arrived reader packet) c') → Expresses c c'

variable {P P' : OutboundFrame → Prop} {c c' c'' : MqttConnection}

namespace Utters

theorem silent (h : c'.record = c.record) : Utters P c c' :=
  ⟨[], by rw [h, List.append_nil]; rfl, nofun⟩

theorem trans (h : Utters P c c') (h' : Utters P c' c'') : Utters P c c'' := by
  obtain ⟨frames, hr, hp⟩ := h
  obtain ⟨frames', hr', hp'⟩ := h'
  simp only [record, Prod.mk.injEq] at hr hr'
  obtain ⟨ht, hd, he⟩ := hr
  obtain ⟨ht', hd', he'⟩ := hr'
  refine ⟨frames ++ frames', ?_, fun frame hf => ?_⟩
  case refine_1 => simp only [record, ht', ht, hd', hd, he', he, List.append_assoc]
  case refine_2 => exact (List.mem_append.mp hf).elim (hp frame) (hp' frame)

theorem after (h : Utters P c' c'') (h' : c'.record = c.record) : Utters P c c'' :=
  (silent h').trans h

theorem before (h : Utters P c c') (h' : c''.record = c'.record) : Utters P c c'' :=
  h.trans (silent h')

theorem mono (h : Utters P c c') (hp : ∀ frame, P frame → P' frame) : Utters P' c c' :=
  have ⟨frames, hr, hf⟩ := h
  ⟨frames, hr, fun frame hm => hp frame (hf frame hm)⟩

theorem push {d : MqttConnection} {f : OutboundFrame} (h : d.record = c.record) (hp : P f) :
    Utters P c (d.push f) := by
  refine ⟨[f], ?_, fun _ hm => List.mem_singleton.mp hm ▸ hp⟩
  simp only [record, Prod.mk.injEq] at h ⊢
  obtain ⟨ht, hd, he⟩ := h
  exact ⟨ht, hd, congrArg (· ++ [f]) he⟩

-- The relation is transitive already.
theorem of_steps (h : ReflTransGen (Utters P) c c') : Utters P c c' := by
  induction h
  case refl => exact .silent rfl
  case tail h ih => exact ih.trans h

theorem of {M : MqttConnection → MqttConnection → Prop} (h : ReflTransGen M c c')
    (hm : ∀ {c c'}, M c c' → Utters P c c') : Utters P c c' :=
  of_steps (ReflTransGen.mono (fun _ _ => hm) _ _ h)

end Utters

-- The parts of the driver that queue nothing.

theorem Quiet.utters (h : Quiet c c') : Utters P c c' := by
  cases h; exact .silent rfl

theorem record_withoutRequest (c : MqttConnection) (correlationData pending) :
    (c.withoutRequest correlationData pending).record = c.record := by
  have ⟨_, _, _, he⟩ := withoutRequest_eq c correlationData pending
  rw [he]
  rfl

theorem Shift.utters (h : Shift c c') : Utters P c c' := by
  cases h
  case quiet hq => exact hq.utters
  case remove => exact .silent (record_withoutRequest ..)
  all_goals exact .silent rfl

theorem Announce.utters (h : Announce reason c c') : Utters P c c' := by
  cases h <;> exact .silent rfl

theorem Flush.utters (h : Flush c c') : Utters P c c' := by
  cases h
  case accept => exact .silent rfl
  case complete flush _ _ hp =>
    generalize flush.action = action at hp
    cases hp
    case disconnect ha => exact ha.utters.after rfl
    all_goals exact .silent rfl

theorem Write.utters (h : Write frame rest c c') : Utters P c c' := by
  cases h <;> exact .silent rfl

theorem Ends.utters (h : Ends c c') : Utters P c c' := by
  cases h <;> exact .silent rfl

theorem failResult_utters (result e) : Utters P c (failResult result e c).state := by
  cases result <;> exact .silent rfl

theorem Publish.utters (h : Publish c c') : Utters OfRequest c c' := by
  cases h
  case quiet hq => exact hq.utters
  case qos1 hp => exact (Utters.push rfl ⟨_, rfl⟩).before rfl
  case qos0 hp => exact (Utters.push rfl ⟨_, rfl⟩).before rfl

theorem Move.utters (h : Move c c') : Utters OfRequest c c' := by
  cases h
  case shift hs => exact hs.utters
  case publish hp => exact hp.utters

theorem Launch.utters (h : Launch responseTopic c c') :
    Utters (fun frame => OfRequest frame ∨ OfSubscription responseTopic frame) c c' := by
  cases h
  case publish hp => exact hp.utters.mono fun _ => .inl
  case subscribe packetId entry bytes hs => exact .push rfl (.inr ⟨rfl, packetId, hs.encoded⟩)

theorem TakesUp.utters (h : TakesUp request result c c') : Utters
    (fun frame => OfRequest frame ∨ OfSubscription request.responseTopic frame) c c' := by
  cases h
  case closing => exact .silent rfl
  case cancelled => exact .silent rfl
  case refused hq => exact hq.utters.before rfl
  case started hc hl =>
    have hl := Utters.of (M := Launch request.responseTopic) hl Launch.utters
    exact hc.quiet.utters.trans (hl.after rfl)
  case withdrawn c₁ c₂ e deadline hc hs =>
    have hr := record_withoutRequest c₂ request.correlationData (request.pending result deadline)
    exact hc.quiet.utters.trans (.after (hs.utters.trans (.silent hr)) rfl)

variable {command : Command}

theorem awaitAck_utters (command : Command) {packet : SentPacket} (ha : command.Asks packet)
    (he : packet.encode = .ok bytes) (packetId kind timeoutLabel) : Utters (OfCommand command) c
      (awaitAck packetId kind timeoutLabel bytes (.command command.result) c).state := by
  rw [awaitAck]
  rcases insertPendingAck_cases (c := c) packetId kind timeoutLabel (.command command.result) with
    hn | ⟨c₁, entry, hq, _, _, _, hn⟩
  case inl =>
    rw [EStateM.bind_ok hn]
    exact failResult_utters _ _
  case inr =>
    rw [EStateM.bind_ok hn]
    refine hq.utters.trans ?_
    dsimp only
    rcases enqueue_cases (c := c₁.await packetId entry) bytes .none none (.command command.result)
      with ⟨e, hw, _⟩ | ⟨_, hw⟩ <;> rw [EStateM.bind_ok hw]
    case inl =>
      have hr : removePendingAck packetId (c₁.await packetId entry) = .ok (some entry)
          { c₁ with pendingAcks := (c₁.await packetId entry).pendingAcks.erase packetId } := by
        rw [removePendingAck, EStateM.bind_ok (EStateM.get_apply _),
          EStateM.bind_ok (EStateM.set_apply _ _), await, AList.lookup_insert]
        rfl
      dsimp only
      rw [EStateM.bind_ok hr]
      exact (failResult_utters _ _).after rfl
    case inr => exact .push rfl ⟨rfl, packet, ha, he⟩

theorem reserve_utters {f : Except Error UInt16 → DriverM Unit}
    (hf : ∀ c' r, Utters P c' (f r c').state) : Utters P c ((reservePacketId >>= f) c).state := by
  have ⟨r, c', h, hq, _⟩ := reservePacketId_apply (c := c)
  rw [EStateM.bind_ok h]
  exact hq.utters.trans (hf c' r)

theorem beginPublish_utters (topic payload options result) :
    Utters (OfCommand (.publish topic payload options result)) c
      (beginPublish topic payload options result c).state := by
  have ha (packetId) : (Command.publish topic payload options result).Asks
      (.client (.publish (beginPublish.packet topic payload options packetId))) := ⟨packetId, rfl⟩
  rw [beginPublish, EStateM.bind_ok (EStateM.get_apply _)]
  cases c.validateMessage topic options <;> dsimp only
  case error e => exact .silent rfl
  case ok =>
    cases options.qos <;> dsimp only
    case atMostOnce =>
      rw [beginPublish.beginQos0]
      cases he : (beginPublish.packet topic payload options none).encode <;> dsimp only
      case error => exact .silent rfl
      case ok bytes =>
        rcases awaitWritten_cases (c := c) bytes (.publishQos0 result) (.command result) with
          ⟨e, hw, _⟩ | ⟨_, hw⟩ <;> rw [EStateM.discard_ok hw]
        case inl => exact .silent rfl
        case inr => exact .push rfl ⟨rfl, _, ha none, he⟩
    case atLeastOnce =>
      refine reserve_utters fun c' r => ?_
      cases r <;> dsimp only
      case error => exact .silent rfl
      case ok packetId =>
        cases he : (beginPublish.packet topic payload options (some packetId)).encode <;> dsimp only
        case error => exact .silent rfl
        case ok bytes =>
          rw [EStateM.bind_ok (EStateM.get_apply _), EStateM.ite_apply]
          split
          case isTrue => exact .silent rfl
          case isFalse => exact awaitAck_utters _ (ha _) he _ _ _

theorem beginSubscribe_utters (filter qos result) :
    Utters (OfCommand (.subscribe filter qos result)) c (beginSubscribe filter qos result c).state := by
  rw [beginSubscribe, EStateM.bind_ok (EStateM.get_apply _)]
  cases c.serverCapabilities.validateSubscriptionFilter filter <;> dsimp only
  case error => exact .silent rfl
  case ok =>
    refine reserve_utters fun c' r => ?_
    cases r <;> dsimp only
    case error => exact .silent rfl
    case ok packetId =>
      cases he : SubscribePacket.encode { packetId, filters := [(filter, qos)], properties := {} }
        <;> dsimp only
      case error => exact .silent rfl
      case ok bytes => exact awaitAck_utters (.subscribe filter qos result) ⟨packetId, rfl⟩ he _ _ _

theorem beginUnsubscribe_utters (filter result) :
    Utters (OfCommand (.unsubscribe filter result)) c (beginUnsubscribe filter result c).state := by
  rw [beginUnsubscribe]
  cases validateTopicFilter filter <;> dsimp only
  case error => exact .silent rfl
  case ok =>
    refine reserve_utters fun c' r => ?_
    cases r <;> dsimp only
    case error => exact .silent rfl
    case ok packetId =>
      cases he : UnsubscribePacket.encode { packetId, filters := [filter], properties := {} }
        <;> dsimp only
      case error => exact .silent rfl
      case ok bytes => exact awaitAck_utters (.unsubscribe filter result) ⟨packetId, rfl⟩ he _ _ _

theorem beginDisconnect_utters (result) :
    Utters (OfCommand (.disconnect result)) c (beginDisconnect result c).state := by
  have he : (SentPacket.disconnect { reasonCode := 0x00 }).encode = .ok disconnectBytes :=
    DisconnectPacket.encode_normal
  rw [beginDisconnect, EStateM.bind_ok (EStateM.modify_apply _ _), DisconnectPacket.encode_normal,
    EStateM.bind_ok (check_ok _ _)]
  rcases awaitWritten_cases (c := { c with closing := true }) disconnectBytes (.disconnect result)
    (.command result) with ⟨e, hw, _⟩ | ⟨_, hw⟩ <;> rw [EStateM.bind_ok hw]
  case inl => exact .silent rfl
  case inr => exact .push (d := { c with closing := true }) rfl ⟨rfl, _, rfl, he⟩

theorem processCommand_utters (h : ∀ request result, command ≠ .request request result) :
    Utters (OfCommand command) c (processCommand command c).state := by
  rw [processCommand.eq_def, EStateM.bind_ok (EStateM.get_apply _), EStateM.ite_apply]
  split
  case isTrue => exact .silent rfl
  case isFalse =>
    cases command
    case publish => exact beginPublish_utters _ _ _ _
    case subscribe => exact beginSubscribe_utters _ _ _
    case unsubscribe => exact beginUnsubscribe_utters _ _
    case disconnect => exact beginDisconnect_utters _
    case request request result => exact absurd rfl (h request result)

theorem abandonCommands_utters :
    Utters (OfDriver (.disconnect { reasonCode := 0x00 })) c (abandonCommands c).state := by
  have he : (SentPacket.disconnect { reasonCode := 0x00 }).encode = .ok disconnectBytes :=
    DisconnectPacket.encode_normal
  cases hc : c.closing
  case true =>
    rw [abandonCommands_of_closing hc]
    exact .silent rfl
  case false =>
    rcases abandonCommands_of_open hc with ⟨e, ha⟩ | ⟨_, ha⟩ <;> rw [ha]
    case inl => exact .silent rfl
    case inr => exact .push (d := { c.deserted with closing := true }) rfl ⟨rfl, he⟩

theorem maintainKeepAlive_utters : Utters (OfDriver .pingReq) c (maintainKeepAlive c).state := by
  rcases (maintainKeepAlive_cases (c := c)).right with hq | ⟨_, c₁, hq, _, _, _, h⟩
  case inl => exact hq.utters
  case inr =>
    rw [h]
    exact hq.utters.trans (.before (.push (f := pingFrame) rfl ⟨rfl, rfl⟩) rfl)

theorem Acked.utters (h : Acked packet c c') :
    Utters (fun frame => ∃ packetId, packet.qos = .atLeastOnce ∧ packet.packetId = some packetId ∧
      OfDriver (.pubAck { packetId, reasonCode := 0x00 }) frame) c c' := by
  cases h
  case qos0 => exact .silent rfl
  case qos1 packetId bytes hq hi he _ => exact .push rfl ⟨packetId, hq, hi, rfl, he⟩

theorem Acked.utters_packet (h : Acked packet c c') : Utters (OfPacket (.publish packet)) c c' :=
  h.utters.mono fun _ ⟨packetId, hq, hi, hf⟩ =>
    .inr ⟨packetId, ⟨packet, List.mem_singleton_self _, hq, hi⟩, hf⟩

theorem Handled.utters (h : Handled packet c r) : Utters (OfPacket (.publish packet)) c r.state := by
  cases h
  case response ha _ => exact ha.utters_packet.trans (.silent (record_withoutRequest ..))
  case event ha _ => exact ha.utters_packet.before rfl
  case error ha =>
    rcases ha with rfl | ha
    case inl => exact .silent rfl
    case inr => exact ha.utters_packet

theorem Acknowledges.utters (h : Acknowledges Move packet k packetId c r) :
    Utters OfRequest c r.state := by
  cases h
  case ignored => exact .silent rfl
  case refused => exact .silent rfl
  case settled hs =>
    have ⟨_, _, hm⟩ := hs
    exact .after (.of hm Move.utters) rfl

theorem dispatchPacket_utters (packet : Packet) :
    Utters (OfPacket packet) c (dispatchPacket packet c).state := by
  cases packet
  case publish packet => exact (dispatchPublish_handled c packet).utters
  case pubAck ack => exact (dispatchPacket_acknowledges rfl).utters.mono fun _ => .inl
  case subAck ack => exact (dispatchPacket_acknowledges rfl).utters.mono fun _ => .inl
  case unsubAck ack => exact (dispatchPacket_acknowledges rfl).utters.mono fun _ => .inl
  case disconnect disconnect =>
    have ⟨c', hd, ha⟩ := dispatchPacket_disconnect c disconnect
    rw [hd]
    exact ha.ends.utters
  all_goals exact .silent rfl

theorem Utters.record (h : Utters (fun _ => False) c c') : c'.record = c.record := by
  obtain ⟨frames, hr, hf⟩ := h
  rw [List.eq_nil_iff_forall_not_mem.mpr hf, List.append_nil] at hr
  exact hr

theorem Outside.record (h : Outside c input c') : c'.record = c.record := by
  cases h <;> rfl

-- What is said

theorem Means.mono (h : c.Means origin packet) (ht : c.taken ⊆ c'.taken)
    (hd : c.dispatched ⊆ c'.dispatched) : c'.Means origin packet := by
  cases h
  case command hm hn ha => exact .command (ht hm) hn ha
  case request hm ha => exact .request (ht hm) ha
  case subscription packetId hm => exact .subscription packetId (ht hm)
  case pubAck ha =>
    obtain ⟨packet, hm, hp⟩ := ha
    exact .pubAck ⟨packet, hd hm, hp⟩
  case pingReq => exact .pingReq
  case disconnect => exact .disconnect

theorem Says.mono (h : c.Says frame) (ht : c.taken ⊆ c'.taken) (hd : c.dispatched ⊆ c'.dispatched) :
    c'.Says frame :=
  have ⟨packet, he, hm⟩ := h
  ⟨packet, he, hm.mono ht hd⟩

theorem says_of_command (hm : command ∈ c.taken)
    (hn : ∀ request result, command ≠ .request request result) (h : OfCommand command frame) :
    c.Says frame := by
  obtain ⟨ho, packet, ha, he⟩ := h
  exact ⟨packet, he, ho ▸ .command hm hn ha⟩

theorem says_of_subscription {request : RequestCommand} (hm : .request request result ∈ c.taken)
    (h : OfSubscription request.responseTopic frame) : c.Says frame := by
  obtain ⟨ho, packetId, he⟩ := h
  exact ⟨.client (.subscribe ⟨packetId, [(request.responseTopic, .atLeastOnce)], {}⟩), he,
    ho ▸ .subscription packetId hm⟩

theorem says_of_driver (hm : c.Means .driver packet) (h : OfDriver packet frame) : c.Says frame :=
  ⟨packet, h.right, h.left ▸ hm⟩

-- Every frame that was queued says what it is for. The frames of requests are known already.
def Speaks (c : MqttConnection) : Prop :=
  ∀ frame ∈ c.enqueued, OfRequest frame ∨ c.Says frame

namespace Speaks

theorem same (h : c.Speaks) (ht : c.taken ⊆ c'.taken) (hd : c.dispatched ⊆ c'.dispatched)
    (he : c'.enqueued = c.enqueued) : c'.Speaks :=
  fun frame hm => (h frame (he ▸ hm)).imp_right fun hs => hs.mono ht hd

theorem utters (h : c.Speaks) (hu : Utters P c c')
    (hp : ∀ frame, P frame → OfRequest frame ∨ c.Says frame) : c'.Speaks := by
  obtain ⟨frames, hr, hf⟩ := hu
  simp only [record, Prod.mk.injEq] at hr
  obtain ⟨ht, hd, he⟩ := hr
  intro frame hm
  have hs : OfRequest frame ∨ c.Says frame := by
    rw [he] at hm
    exact (List.mem_append.mp hm).elim (h frame) fun hm => hp frame (hf frame hm)
  exact hs.imp_right fun hs => hs.mono (by rw [ht]; exact List.Subset.refl _)
    (by rw [hd]; exact List.Subset.refl _)

theorem silent (h : c.Speaks) (hr : c'.record = c.record) : c'.Speaks :=
  h.utters (P := fun _ => False) (.silent hr) nofun

end Speaks

end MqttConnection

namespace Driver

open MqttConnection

variable {driver driver' : Driver} {options : ConnectOptions} {clock : Clock}

theorem Does.expresses (h : Does driver input driver') :
    driver.connection.Expresses driver'.connection := by
  cases h
  case pass => exact .silent rfl
  case wake => exact .silent rfl
  case shift hs => exact .silent (Utters.of hs Shift.utters).record
  case command command rest c p next hp hc =>
    rw [perform_connection]
    by_cases hn : ∀ request result, command ≠ .request request result
    case pos => exact .command rest hc hn (processCommand_accepts hn) (processCommand_utters hn)
    case neg =>
      simp only [ne_eq, not_forall, not_not] at hn
      obtain ⟨request, result, rfl⟩ := hn
      have ⟨_, hp, ht⟩ := processCommand_takesUp (c.dequeued (.request request result) rest)
        request result
      rw [hp]
      exact .request rest hc ht
  case abandon =>
    rw [perform_connection]
    exact .own abandonCommands_utters (.inr rfl)
  case keepAlive =>
    rw [perform_connection]
    exact .own maintainKeepAlive_utters (.inl rfl)
  case write frame rest result c _ _ _ _ =>
    rw [perform_connection]
    exact .silent (writeFront_writes ..).utters.record
  case flush =>
    rw [perform_connection]
    exact .silent (Utters.of flushAccepted_flushes Flush.utters).record
  case read result c _ _ _ =>
    rw [perform_connection]
    have hr := readNext_receives (c := c) result
    generalize (readNext result c).state = c' at hr ⊢
    cases hr
    case idle => exact .silent rfl
    case close ha => exact .silent ha.utters.record
    case receive => exact .silent rfl
  case decode c next =>
    rcases perform_decodeNext_cases c next with ⟨reader, p, _, hx⟩ | ⟨packet, reader, hd, hx⟩ <;> rw [hx]
    case inl => exact .silent rfl
    case inr =>
      rw [perform_connection]
      exact .packet packet reader (dispatchPacket_utters packet)
  case finish c result =>
    have ⟨c', hf, he⟩ := finish_ends c result
    rw [perform_ok hf]
    exact .silent he.utters.record
  case outside ho => exact .silent ho.record

theorem speaks_step (h : driver.connection.Speaks) (hd : Does driver input driver') :
    driver'.connection.Speaks := by
  replace hd := hd.expresses
  cases hd
  case silent hr => exact h.silent hr
  case command command rest _ hn _ hu =>
    have hs : (driver.connection.dequeued command rest).Speaks :=
      h.same (List.subset_append_left _ _) (List.Subset.refl _) rfl
    have hm := mem_taken_dequeued driver.connection command rest
    exact hs.utters hu fun _ hf => .inr (says_of_command hm hn hf)
  case request request result rest _ ht =>
    have hs : (driver.connection.dequeued (.request request result) rest).Speaks :=
      h.same (List.subset_append_left _ _) (List.Subset.refl _) rfl
    have hm := mem_taken_dequeued driver.connection (.request request result) rest
    exact hs.utters ht.utters fun _ => Or.imp_right (says_of_subscription hm)
  case own hp hu =>
    refine h.utters hu fun _ hf => .inr (says_of_driver ?_ hf)
    rcases hp with rfl | rfl
    case inl => exact .pingReq
    case inr => exact .disconnect
  case packet packet reader hu =>
    have hs : (driver.connection.arrived reader packet).Speaks :=
      h.same (List.Subset.refl _) (List.subset_append_left _ _) rfl
    refine hs.utters hu fun frame => Or.imp_right ?_
    rintro ⟨packetId, ⟨publish, hp, hq⟩, hf⟩
    obtain rfl := List.mem_singleton.mp hp
    have hm := List.mem_append_right driver.connection.dispatched (List.mem_singleton_self (Packet.publish publish))
    exact says_of_driver (.pubAck ⟨publish, hm, hq⟩) hf

theorem speaks_run (h : (start options connack clock).run inputs = some driver) :
    driver.connection.Speaks :=
  run_preserves (P := fun driver => driver.connection.Speaks) (fun _ _ _ h hd => speaks_step h hd)
    (fun _ hm => by cases hm) h

-- Every frame says what it is for, those of requests included.
theorem says_run (h : (start options connack clock).run inputs = some driver)
    (hi : ∀ command, .submit command ∈ inputs → command.Issued) :
    ∀ frame ∈ driver.connection.enqueued, driver.connection.Says frame := by
  intro frame hm
  rcases speaks_run h frame hm with ⟨result, ho⟩ | hs
  case inl =>
    obtain ⟨request, packetId, ht, _, he⟩ := (contents_run h hi).enqueued frame hm result ho
    exact ⟨.client (.publish (request.packet packetId)), he, ho ▸ .request ht ⟨packetId, rfl⟩⟩
  case inr => exact hs

end Driver
end MqttWasi
