import MqttWasi.Client.Theorems.Operations
import MqttWasi.Driver.Theorems.Dispatch

-- What the two clients make of the same acknowledgement.

namespace MqttWasi

open MqttClient (waitForAck readAckPacket acceptPublishDuringAck ackDeadline lift fail finishAck
  disconnectOn Malformed validateAckCode_error validateAckCodes_error validateSubackCodes_error)
open MqttConnection (takePendingAck_of_some dispatchPuback dispatchSuback dispatchUnsuback
  completeSubscribe send pubackReply unsubackReply removeResponseSubscription)

-- The operations that both clients wait for.
inductive Awaited
  | publish
  | subscribe (requestedQos : QoS)
  | unsubscribe

namespace Awaited

-- The acknowledgements whose type and packet identifier match an operation.
inductive Matches (packetId : UInt16) : Awaited → Packet → Prop
  | puback {ack : PubAckPacket} : (ack.packetId = packetId) → Matches packetId publish (.pubAck ack)
  | suback {ack : SubAckPacket} :
    (ack.packetId = packetId) → Matches packetId (subscribe requestedQos) (.subAck ack)
  | unsuback {ack : UnsubAckPacket} :
    (ack.packetId = packetId) → Matches packetId unsubscribe (.unsubAck ack)

-- How the blocking client waits for an operation.
def wait (packetId : UInt16) : Awaited → ClientM Unit
  | publish                => MqttClient.waitForPuback packetId
  | subscribe requestedQos => MqttClient.waitForSuback packetId requestedQos
  | unsubscribe            => MqttClient.waitForUnsuback packetId

-- What the driver keeps for an operation.
def pendingKind (filter : String) (result : Sender) : Awaited → PendingAckKind
  | publish                => .publish result
  | subscribe requestedQos => .subscribe requestedQos result
  | unsubscribe            => .unsubscribe filter result

-- The loop of a wait reads packets up to one that matches.
inductive Reads (op : Awaited) (packetId : UInt16) (deadline : Deadline) :
    Nat → MqttClient → Packet → MqttClient → Prop
  | last : (readAckPacket deadline c = .ok packet c') → (op.Matches packetId packet) →
    Reads op packetId deadline (rounds + 1) c packet c'
  | message : (readAckPacket deadline c = .ok (.publish message) c₁) →
    (acceptPublishDuringAck message c₁ = .ok () c₂) → Reads op packetId deadline rounds c₂ packet c' →
    Reads op packetId deadline (rounds + 1) c packet c'
  | pingResp : (readAckPacket deadline c = .ok .pingResp c₁) →
    Reads op packetId deadline rounds c₁ packet c' →
    Reads op packetId deadline (rounds + 1) c packet c'

-- The name of an acknowledgement in errors.
def ackName : Awaited → String
  | publish     => "PUBACK"
  | subscribe _ => "SUBACK"
  | unsubscribe => "UNSUBACK"

-- A wait that has been started in one state has its acknowledgement in hand in another one, where
-- the session is still alive.
def Receives (op : Awaited) (packetId : UInt16) (c : MqttClient) (packet : Packet)
    (c' : MqttClient) : Prop :=
  c'.connected = true ∧ ∃ deadline c₁, ackDeadline op.ackName c = .ok deadline c₁ ∧
    op.Reads packetId deadline (c₁.pending + 1) c₁ packet c'

-- What a wait does with its acknowledgement.
def conclude : Awaited → Packet → ClientM Unit
  | publish, .pubAck ack => lift (validateAckCode "PUBACK" ack.reasonCode)
  | subscribe requestedQos, .subAck ack =>
    finishAck (validateSubackCodes ack.reasonCodes [requestedQos])
  | unsubscribe, .unsubAck ack =>
    finishAck (validateAckCodes "UNSUBACK" ack.reasonCodes 1)
  | _, _ => pure ()

theorem waitForAck_go_of_reads {finish : Packet → Option (ClientM Unit)} {op : Awaited}
    (h : op.Reads packetId deadline rounds c packet c')
    (hf : ∀ packet, op.Matches packetId packet → finish packet = some (op.conclude packet))
    (hm : ∀ message, finish (.publish message) = none) (hp : finish .pingResp = none) :
    waitForAck.go name finish deadline rounds c = op.conclude packet c' := by
  induction h
  case last hr hmatch =>
    rw [waitForAck.go, EStateM.bind_ok hr, hf _ hmatch]
  case message message _ _ _ _ _ hr ha _ ih =>
    rw [waitForAck.go, EStateM.bind_ok hr, hm]
    dsimp only
    rw [EStateM.bind_ok ha, ih]
  case pingResp hr _ ih =>
    rw [waitForAck.go, EStateM.bind_ok hr, hp]
    exact ih

theorem waitForAck_of_receives {finish : Packet → Option (ClientM Unit)} {op : Awaited}
    (h : op.Receives packetId c packet c')
    (hf : ∀ packet, op.Matches packetId packet → finish packet = some (op.conclude packet))
    (hm : ∀ message, finish (.publish message) = none) (hp : finish .pingResp = none) :
    waitForAck op.ackName finish c = op.conclude packet c' := by
  obtain ⟨_, deadline, c₁, hd, hr⟩ := h
  rw [waitForAck, EStateM.bind_ok hd]
  exact waitForAck_go_of_reads hr hf hm hp

theorem wait_of_receives {op : Awaited} (h : op.Receives packetId c packet c') :
    op.wait packetId c = op.conclude packet c' := by
  cases op
  case publish =>
    refine waitForAck_of_receives h (fun packet hm => ?_) (fun _ => rfl) rfl
    cases hm
    case puback hi => exact if_pos hi
  case subscribe requestedQos =>
    refine waitForAck_of_receives h (fun packet hm => ?_) (fun _ => rfl) rfl
    cases hm
    case suback hi => exact if_pos hi
  case unsubscribe =>
    refine waitForAck_of_receives h (fun packet hm => ?_) (fun _ => rfl) rfl
    cases hm
    case unsuback hi => exact if_pos hi

end Awaited

-- The two validations of a list of reason codes are the same function.
theorem validateReasonCodes_eq (packet : String) (reasonCodes : Bytes) (expected : Nat) :
    validateReasonCodes packet reasonCodes expected =
      validateAckCodes packet reasonCodes expected := by
  rw [validateReasonCodes, validateAckCodes]
  congr 1
  induction reasonCodes
  case nil => rfl
  case cons reasonCode reasonCodes ih =>
    have hf : (reasonCode :: reasonCodes).forM (validateAckCode packet) =
        validateAckCode packet reasonCode >>= fun _ => reasonCodes.forM (validateAckCode packet) := rfl
    rw [hf, List.find?_cons, validateAckCode]
    by_cases hc : reasonCode ≥ 0x80
    case pos => simp [hc]
    case neg => simpa [hc] using ih

namespace Awaited

-- What an acknowledgement says about an operation.
def verdict : Awaited → Packet → Except Error Unit
  | publish, .pubAck ack => validateAckCode "PUBACK" ack.reasonCode
  | subscribe requestedQos, .subAck ack => validateSubackCodes ack.reasonCodes [requestedQos]
  | unsubscribe, .unsubAck ack => validateAckCodes "UNSUBACK" ack.reasonCodes 1
  | _, _ => .ok ()

-- The blocking client ends the session for a malformed acknowledgement.
theorem conclude_eq {op : Awaited} (hm : op.Matches packetId packet) (hc : c.connected = true) :
    (op.conclude packet c).value = (op.verdict packet).mapError .failed ∧
      ((op.conclude packet c).state.connected = false ↔
        ∃ e, op.verdict packet = .error e ∧ Malformed e) := by
  have hf (r : Except Error Unit) : (finishAck r c).value = r.mapError .failed ∧
      ((finishAck r c).state.connected = false ↔ ∃ e, r = .error e ∧ Malformed e) := by
    cases r
    case ok => simp [finishAck, disconnectOn, lift, Except.mapError, hc]
    case error e =>
      cases e <;> simp [finishAck, disconnectOn, lift, fail, Except.mapError, Malformed, hc]
  cases hm
  case puback ack hi =>
    cases hv : validateAckCode "PUBACK" ack.reasonCode
    case ok => simp [conclude, verdict, hv, lift, Except.mapError, hc]
    case error e =>
      obtain ⟨packet, reasonCode, rfl⟩ := validateAckCode_error hv
      simp [conclude, verdict, hv, lift, fail, Except.mapError, Malformed, hc]
  case suback => exact hf _
  case unsuback => exact hf _

-- The driver tells the waiter the same.
theorem dispatchPacket_eq {op : Awaited} {connection : MqttConnection}
    (hm : op.Matches packetId packet) (hl : connection.pendingAcks.lookup packetId = some pending)
    (hk : pending.kind = op.pendingKind filter result) :
    (∃ reply, (MqttConnection.dispatchPacket packet connection).state.replies =
        connection.replies ++ [(result, reply)] ∧ reply.map (fun _ => ()) = op.verdict packet) ∧
      ((∃ e, (MqttConnection.dispatchPacket packet connection).value = .error e) ↔
        (∃ requestedQos, op = subscribe requestedQos) ∧
          ∃ e, op.verdict packet = .error e ∧ Malformed e) := by
  rw [MqttConnection.dispatchPacket.eq_def]
  cases hm
  case puback ack hi =>
    subst hi
    have ht := takePendingAck_of_some hl (k := .publish) (by rw [hk]; rfl)
    dsimp only
    rw [dispatchPuback, EStateM.bind_ok ht]
    simp only [hk, pendingKind]
    refine ⟨⟨_, rfl, ?_⟩, by simp [send]⟩
    rw [verdict, validateAckCode, pubackReply]
    split <;> rfl
  case suback requestedQos ack hi =>
    subst hi
    have ht := takePendingAck_of_some hl (k := .subscribe) (by rw [hk]; rfl)
    dsimp only
    rw [dispatchSuback, EStateM.bind_ok ht]
    simp only [hk, pendingKind]
    rw [completeSubscribe, verdict]
    cases hv : validateSubackCodes ack.reasonCodes [requestedQos]
    case ok => exact ⟨⟨_, rfl, rfl⟩, by simp [send]⟩
    case error e =>
      cases validateSubackCodes_error hv
      case inl hr =>
        obtain ⟨packet, reasonCode, rfl⟩ := hr
        exact ⟨⟨_, rfl, rfl⟩, by simp [send, Malformed]⟩
      case inr hr =>
        obtain ⟨message, rfl⟩ := hr
        refine ⟨⟨_, rfl, rfl⟩, ?_⟩
        simp [send, Malformed, EStateM.bind_apply]
  case unsuback ack hi =>
    subst hi
    have ht := takePendingAck_of_some hl (k := .unsubscribe) (by rw [hk]; rfl)
    dsimp only
    rw [dispatchUnsuback, EStateM.bind_ok ht]
    simp only [hk, pendingKind]
    have hv : (unsubackReply ack).map (fun _ => ()) = unsubscribe.verdict (.unsubAck ack) := by
      rw [verdict, ← validateReasonCodes_eq, unsubackReply]
      cases validateReasonCodes "UNSUBACK" ack.reasonCodes 1 <;> rfl
    rw [← hv]
    cases unsubackReply ack
    all_goals
      refine ⟨⟨_, rfl, rfl⟩, ?_, by simp⟩
      rintro ⟨e, he⟩
      cases he

end Awaited

-- Both clients give an operation the same result, and the session ends in one of them if and only
-- if it ends in the other one.
structure Agree (result : Sender) (connection : MqttConnection)
    (blocking : EStateM.Result Stop MqttClient Unit)
    (async : EStateM.Result Error MqttConnection Unit) : Prop where
  result : ∃ reply, async.state.replies = connection.replies ++ [(result, reply)] ∧
    blocking.value = (reply.map fun _ => ()).mapError .failed
  ends : blocking.state.connected = false ↔ ∃ e, async.value = .error e

-- An UNSUBACK answers one topic filter.
def SingleUnsuback (packet : Packet) : Prop :=
  ∀ ack, packet = .unsubAck ack → ack.reasonCodes.length = 1

theorem Awaited.malformed_unsuback_iff {ack : UnsubAckPacket} :
    (∃ e, unsubscribe.verdict (.unsubAck ack) = .error e ∧ Malformed e) ↔
      ¬SingleUnsuback (.unsubAck ack) := by
  have hs : SingleUnsuback (.unsubAck ack) ↔ ack.reasonCodes.length = 1 := by simp [SingleUnsuback]
  rw [hs, verdict, validateAckCodes]
  by_cases hl : ack.reasonCodes.length = 1
  case neg => simp [hl, Malformed]
  case pos =>
    obtain ⟨reasonCode, hc⟩ := List.length_eq_one_iff.mp hl
    have hf : [reasonCode].forM (validateAckCode "UNSUBACK") =
        validateAckCode "UNSUBACK" reasonCode >>= fun _ => .ok () := rfl
    simp only [hc, List.length_singleton, ne_eq, not_true, if_false, hf]
    rw [iff_false]
    rintro ⟨e, he, message, rfl⟩
    cases hv : validateAckCode "UNSUBACK" reasonCode
    case ok => simp [hv] at he
    case error =>
      obtain ⟨_, _, rfl⟩ := validateAckCode_error hv
      simp [hv] at he

-- The clients disagree about a malformed acknowledgement unless it is a SUBACK.
theorem agree_iff {op : Awaited} {connection : MqttConnection} {pending : PendingAck}
    (hm : op.Matches packetId packet) (hr : op.Receives packetId c packet c')
    (hl : connection.pendingAcks.lookup packetId = some pending)
    (hk : pending.kind = op.pendingKind filter result) :
    Agree result connection (op.wait packetId c) (MqttConnection.dispatchPacket packet connection) ↔
      ((∃ e, op.verdict packet = .error e ∧ Malformed e) →
        ∃ requestedQos, op = .subscribe requestedQos) := by
  have ⟨hb, hbe⟩ := Awaited.conclude_eq hm hr.left
  have ⟨⟨reply, ha, hv⟩, hae⟩ := Awaited.dispatchPacket_eq hm hl hk
  rw [Awaited.wait_of_receives hr]
  constructor
  case mp => exact fun h he => (hae.mp (h.ends.mp (hbe.mpr he))).left
  case mpr =>
    intro h
    refine ⟨⟨reply, ha, by rw [hb, hv]⟩, ?_⟩
    rw [hbe, hae]
    exact ⟨fun he => ⟨h he, he⟩, fun he => he.right⟩

-- The clients agree on every acknowledgement except for an UNSUBACK that does not have exactly one
-- reason code: it ends the session of the blocking client only.
theorem acknowledged_alike_iff (op : Awaited) (packetId : UInt16) (packet : Packet) (filter : String)
    (result : Sender) (c c' : MqttClient) (connection : MqttConnection) (pending : PendingAck)
    (hm : op.Matches packetId packet) (hr : op.Receives packetId c packet c')
    (hl : connection.pendingAcks.lookup packetId = some pending)
    (hk : pending.kind = op.pendingKind filter result) :
    Agree result connection (op.wait packetId c) (MqttConnection.dispatchPacket packet connection) ↔
      SingleUnsuback packet := by
  rw [agree_iff hm hr hl hk]
  cases hm
  case puback ack _ =>
    have hv : ¬∃ e, Awaited.publish.verdict (.pubAck ack) = .error e ∧ Malformed e := by
      rintro ⟨e, he, message, rfl⟩
      obtain ⟨_, _, hr⟩ := validateAckCode_error he
      cases hr
    simp [hv, SingleUnsuback]
  case suback => simp [SingleUnsuback]
  case unsuback ack _ =>
    rw [Awaited.malformed_unsuback_iff]
    simp

-- Clients that wait for the packet with identifier 7.
def awaitingBlocking (bytes : Bytes) : MqttClient where
  stream := { reads := [.ok bytes], settings := [.ok ()] }
  frameReader := .withMaxPacketSize 16
  maxIncomingMessages := 1
  keepAliveSecs := 0
  ackTimeout := 10
  connected := true
  clock := { readings := fun _ => 0, latest := 100 }

def awaitingAsync (pending : PendingAck) : MqttConnection :=
  { MqttConnection.new {} { sessionPresent := false, reasonCode := 0, properties := {} }
      { readings := fun _ => 0, latest := 100 } with
    pendingAcks := (∅ : AList fun _ : UInt16 => PendingAck).insert 7 pending }

theorem receives_first {op : Awaited} (hm : op.Matches packetId packet)
    (hr : ((ackDeadline op.ackName >>= readAckPacket) c).value = .ok packet)
    (hc : ((ackDeadline op.ackName >>= readAckPacket) c).state.connected = true) :
    ∃ c', op.Receives packetId c packet c' := by
  obtain ⟨deadline, c₁, hd, hp⟩ := EStateM.bind_eq_ok.mp (EStateM.Result.eq_ok hr)
  exact ⟨_, hc, deadline, c₁, hd, .last hp hm⟩

theorem awaitingAsync_lookup (pending : PendingAck) :
    (awaitingAsync pending).pendingAcks.lookup 7 = some pending :=
  AList.lookup_insert _

theorem acknowledged_alike_suback :
    Agree 3 (awaitingAsync ⟨10, "SUBACK", .subscribe .atLeastOnce 3, .command 3⟩)
      ((Awaited.subscribe .atLeastOnce).wait 7 (awaitingBlocking [0x90, 4, 0, 7, 0, 2]))
      (MqttConnection.dispatchPacket (.subAck { packetId := 7, reasonCodes := [2] })
        (awaitingAsync ⟨10, "SUBACK", .subscribe .atLeastOnce 3, .command 3⟩)) := by
  have hr : ∃ c', (Awaited.subscribe .atLeastOnce).Receives 7
      (awaitingBlocking [0x90, 4, 0, 7, 0, 2]) (.subAck { packetId := 7, reasonCodes := [2] }) c' :=
    receives_first (.suback rfl) (by decide +kernel) (by decide +kernel)
  obtain ⟨c', hr⟩ := hr
  exact (acknowledged_alike_iff (.subscribe .atLeastOnce) 7 _ "a" 3 _ c' _ _ (.suback rfl) hr
    (awaitingAsync_lookup _) rfl).mpr (by simp [SingleUnsuback])

-- The broker answers an UNSUBSCRIBE for one topic filter with two reason codes.
theorem acknowledged_differently :
    Packet.decode { packetType := .unsubAck, flags := 0, remainingLength := 5 } [0, 7, 0, 0, 0] =
        .ok (.unsubAck { packetId := 7, reasonCodes := [0, 0] }) ∧
      (∃ c', Awaited.unsubscribe.Receives 7 (awaitingBlocking [0xB0, 5, 0, 7, 0, 0, 0])
        (.unsubAck { packetId := 7, reasonCodes := [0, 0] }) c') ∧
      ¬Agree 3 (awaitingAsync ⟨10, "UNSUBACK", .unsubscribe "a" 3, .command 3⟩)
        (Awaited.unsubscribe.wait 7 (awaitingBlocking [0xB0, 5, 0, 7, 0, 0, 0]))
        (MqttConnection.dispatchPacket (.unsubAck { packetId := 7, reasonCodes := [0, 0] })
          (awaitingAsync ⟨10, "UNSUBACK", .unsubscribe "a" 3, .command 3⟩)) := by
  have hm : Awaited.unsubscribe.Matches 7 (.unsubAck { packetId := 7, reasonCodes := [0, 0] }) :=
    .unsuback rfl
  have hr : ∃ c', Awaited.unsubscribe.Receives 7 (awaitingBlocking [0xB0, 5, 0, 7, 0, 0, 0])
      (.unsubAck { packetId := 7, reasonCodes := [0, 0] }) c' :=
    receives_first hm (by decide +kernel) (by decide +kernel)
  have hv : ∃ e, Awaited.unsubscribe.verdict (.unsubAck { packetId := 7, reasonCodes := [0, 0] }) =
      .error e ∧ Malformed e := Awaited.malformed_unsuback_iff.mpr (by simp [SingleUnsuback])
  refine ⟨by decide +kernel, hr, fun h => ?_⟩
  obtain ⟨c', hr⟩ := hr
  have ⟨_, hs⟩ := (agree_iff hm hr (awaitingAsync_lookup _) rfl).mp h hv
  cases hs

end MqttWasi
