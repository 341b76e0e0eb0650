import MqttWasi.Codec.Theorems.Sizes
import MqttWasi.Client.Theorems.Specs

namespace MqttWasi

-- The calls of the blocking client that send a packet on behalf of the caller.
inductive Operation
  | publish (topic : String) (payload : Bytes) (options : PublishOptions)
  | subscribe (filter : String) (qos : QoS)
  | unsubscribe (filter : String)

namespace Operation

def call : Operation → ClientM Unit
  | publish topic payload options => MqttClient.publish topic payload options
  | subscribe filter qos          => MqttClient.subscribe filter qos
  | unsubscribe filter            => MqttClient.unsubscribe filter

-- The packet identifier of the operation when it is called in the given state.
def packetId : Operation → MqttClient → Option UInt16
  | publish _ _ options, c => if options.qos = .atMostOnce then none else some c.nextPacketId
  | _, c                   => some c.nextPacketId

-- Whether the packet acknowledges an operation of this kind with the given identifier.
def AcknowledgedBy (op : Operation) (id : UInt16) (packet : Packet) : Prop :=
  match op, packet with
  | publish .., .pubAck ack       => ack.packetId = id
  | subscribe .., .subAck ack     => ack.packetId = id
  | unsubscribe .., .unsubAck ack => ack.packetId = id
  | _, _                          => False

end Operation

namespace MqttClient

open EStateM (Meets)

variable {c : MqttClient}

-- As before, except for the packet identifier to use next.
def Untouched (c c' : MqttClient) : Prop :=
  c' = { c with nextPacketId := c'.nextPacketId }

theorem Untouched.refl (c : MqttClient) : Untouched c c :=
  rfl

theorem Untouched.settled (h : Untouched c c') : Settled c [] c' := by
  rw [h]
  exact { At.refl c with }

theorem lift_meets {P : MqttClient → Prop} (hp : ∀ c', P c' → Untouched c c') (r : Except Error α) :
    Meets P (lift r) (fun a c' => r = .ok a ∧ P c') (Stopped c fun _ => Untouched c) := by
  intro c' h
  cases r
  case ok => exact ⟨rfl, h⟩
  case error e => exact .softly (hp c' h).settled.toSame (hp c' h)

theorem ensureConnected_meets :
    Meets (· = c) ensureConnected (fun _ => (· = c)) (Stopped c fun _ => Untouched c) := by
  refine .get fun c' h => .ite (fun _ => .throw ?_) fun _ => .pure fun _ hs => hs ▸ h
  rintro _ rfl
  subst h
  exact .softly (Untouched.refl _).settled.toSame (.refl _)

theorem takePacketId_meets (E : Stop → MqttClient → Prop) :
    Meets (· = c) takePacketId (fun packetId c' => packetId = c.nextPacketId ∧ Untouched c c') E := by
  rintro _ rfl
  exact ⟨rfl, rfl⟩

theorem sendEncoded_untouched (bytes : Bytes) (operation : String) :
    Meets (Untouched c) (sendEncoded bytes operation)
      (fun _ c' => bytes.length ≤ c.maxOutboundPacketSize ∧ Settled c [] c')
      (Stopped c fun _ => Untouched c) := by
  intro c' h
  by_cases hl : bytes.length > c'.maxOutboundPacketSize
  case pos =>
    have hs : sendEncoded bytes operation c' =
        .error (.failed (.packetTooLarge bytes.length c'.maxOutboundPacketSize)) c' := by
      simp [sendEncoded, EStateM.bind_apply, fail, hl]
    rw [hs]
    exact .softly h.settled.toSame h
  case neg =>
    rw [h.settled.maxOutboundPacketSize] at hl
    have hs := sendEncoded_meets bytes operation c' h.settled
    split <;> rename_i heq <;> rw [heq] at hs
    · exact hs.symm
    · exact hs.imp fun _ hs => absurd hs.right hl

theorem validateAckCode_error (h : validateAckCode name code = .error e) : Rejected e := by
  unfold validateAckCode at h
  split at h <;> cases h
  exact ⟨_, _, rfl⟩

def Malformed (e : Error) : Prop :=
  ∃ message, e = .malformedPacket message

theorem validateAckCodes_error (h : validateAckCodes name codes n = .error e) :
    Rejected e ∨ Malformed e := by
  unfold validateAckCodes at h
  split at h
  case isTrue =>
    cases h
    exact .inr ⟨_, rfl⟩
  case isFalse hn =>
    clear hn
    induction codes
    case nil => cases h
    case cons code codes ih =>
      rw [List.forM] at h
      cases hc : validateAckCode name code <;> rw [hc] at h
      case error =>
        cases h
        exact .inl (validateAckCode_error hc)
      case ok => exact ih h

theorem validateSubackCodes_error (h : validateSubackCodes codes qos = .error e) :
    Rejected e ∨ Malformed e := by
  unfold validateSubackCodes at h
  split at h
  case isTrue =>
    cases h
    exact .inr ⟨_, rfl⟩
  case isFalse =>
    generalize codes.zip qos = pairs at h
    induction pairs
    case nil => cases h
    case cons pair pairs ih =>
      rw [validateSubackCodes.go] at h
      split at h <;> try split at h
      case isTrue => cases h; exact .inl ⟨_, _, rfl⟩
      case isTrue => cases h; exact .inr ⟨_, rfl⟩
      case isFalse => exact ih h

theorem lift_at (r : Except Error α) (ds ms) :
    Meets (At c ds ms) (lift r) (fun _ => At c ds ms)
      (Stopped c fun e c' => r = .error e ∧ At c ds ms c') := by
  intro c' h
  cases r
  case ok => exact h
  case error e => exact .softly h.toSame ⟨rfl, h⟩

theorem finishAck_at (h : ∀ e, r = .error e → Rejected e ∨ Malformed e) (ds ms) :
    Meets (At c ds ms) (finishAck r) (fun _ => At c ds ms)
      (Stopped c fun e c' => Rejected e ∧ At c ds ms c') := by
  refine soften (disconnectOn_meets (lift_at r ds ms) _) fun e c' ⟨he, hr, ha⟩ =>
    ⟨(h e hr).resolve_right ?_, ha⟩
  rintro ⟨message, rfl⟩
  cases he

-- The end of a call that waited for the acknowledgement of its own packet.
def Answered (c : MqttClient) (op : Operation) (packetId : UInt16) : MqttClient → Prop :=
  Acked c (op.AcknowledgedBy packetId)

-- The end of a wait that failed without closing the client.
def Unanswered (c : MqttClient) (op : Operation) (packetId : UInt16) (e : Error) (c' : MqttClient) :
    Prop :=
  (Overdue c ∧ Settled c [] c') ∨ (Rejected e ∧ Answered c op packetId c')

theorem waitForPuback_meets (ht : ¬Tight c) :
    Meets (Settled c []) (waitForPuback packetId)
      (fun _ => Answered c (.publish topic payload options) packetId)
      (Stopped c (Unanswered c (.publish topic payload options) packetId)) := by
  refine soften (waitForAck_meets ?_) fun _ _ h => h.resolve_left ht
  intro packet action h
  cases packet <;> simp only [Option.ite_none_right_eq_some, Option.some.injEq, reduceCtorEq] at h
  case pubAck ack =>
    have ⟨hi, ha⟩ := h
    refine ⟨hi, rfl, fun ds ms => ha ▸ ?_⟩
    exact soften (lift_at _ ds ms) fun _ _ ⟨he, ha⟩ => ⟨validateAckCode_error he, ha⟩

theorem waitForSuback_meets (ht : ¬Tight c) :
    Meets (Settled c []) (waitForSuback packetId requested)
      (fun _ => Answered c (.subscribe filter qos) packetId)
      (Stopped c (Unanswered c (.subscribe filter qos) packetId)) := by
  refine soften (waitForAck_meets ?_) fun _ _ h => h.resolve_left ht
  intro packet action h
  cases packet <;> simp only [Option.ite_none_right_eq_some, Option.some.injEq, reduceCtorEq] at h
  case subAck ack =>
    have ⟨hi, ha⟩ := h
    exact ⟨hi, rfl, fun ds ms => ha ▸ finishAck_at (fun _ => validateSubackCodes_error) ds ms⟩

theorem waitForUnsuback_meets (ht : ¬Tight c) :
    Meets (Settled c []) (waitForUnsuback packetId)
      (fun _ => Answered c (.unsubscribe filter) packetId)
      (Stopped c (Unanswered c (.unsubscribe filter) packetId)) := by
  refine soften (waitForAck_meets ?_) fun _ _ h => h.resolve_left ht
  intro packet action h
  cases packet <;> simp only [Option.ite_none_right_eq_some, Option.some.injEq, reduceCtorEq] at h
  case unsubAck ack =>
    have ⟨hi, ha⟩ := h
    exact ⟨hi, rfl, fun ds ms => ha ▸ finishAck_at (fun _ => validateAckCodes_error) ds ms⟩

-- A call has returned.
def Completed (c : MqttClient) (op : Operation) (c' : MqttClient) : Prop :=
  match op.packetId c with
  | some packetId => Answered c op packetId c'
  | none          => Settled c [] c'

-- A call has failed without closing the client.
def Excused (c : MqttClient) (op : Operation) (e : Error) (c' : MqttClient) : Prop :=
  Untouched c c' ∨ (∃ packetId, op.packetId c = some packetId ∧ Unanswered c op packetId e c')

theorem Completed.settled (h : Completed c op c') : ∃ ds, Settled c ds c' := by
  unfold Completed at h
  split at h
  case h_1 =>
    have ⟨ds, ack, _, hs⟩ := h
    exact ⟨_, hs⟩
  case h_2 => exact ⟨_, h⟩

theorem Excused.settled (h : Excused c op e c') : ∃ ds, Settled c ds c' := by
  obtain h | ⟨_, _, ⟨_, h⟩ | ⟨_, _, _, _, h⟩⟩ := h
  · exact ⟨_, h.settled⟩
  · exact ⟨_, h⟩
  · exact ⟨_, h⟩

theorem call_untouched {op : Operation} {P : MqttClient → Prop} {Q : α → MqttClient → Prop}
    (h : Meets P x Q (Stopped c fun _ => Untouched c)) : Meets P x Q (Stopped c (Excused c op)) :=
  soften h fun _ _ => .inl

-- After the packet has been sent, the client waits for its acknowledgement.
theorem exchange_meets {op : Operation} {bytes : Bytes} {wait : ClientM Unit}
    (hid : op.packetId c = some packetId) (hl : 4 ≤ bytes.length)
    (hw : ¬Tight c → Meets (Settled c []) wait (fun _ => Answered c op packetId)
      (Stopped c (Unanswered c op packetId))) :
    Meets (Untouched c) (sendEncoded bytes name >>= fun _ => wait) (fun _ => Completed c op)
      (Stopped c (Excused c op)) := by
  refine (call_untouched (sendEncoded_untouched bytes name)).bind fun _ c' ⟨hm, h⟩ => ?_
  have ht : ¬Tight c := Nat.not_lt.mpr (Nat.le_trans hl hm)
  refine (hw ht).imp (fun _ h => h) (fun _ c' h => ?_) (fun _ c' h => ?_) c' h
  · rwa [Completed, hid]
  · exact h.imp fun _ h => .inr ⟨packetId, hid, h⟩

theorem lift_eq_meets (r : Except Error α) :
    Meets (· = c) (lift r) (fun _ => (· = c)) (Stopped c fun _ => Untouched c) := by
  refine (lift_meets (fun _ h => ?_) r).imp (fun _ h => h) (fun _ _ h => h.right) fun _ _ h => h
  exact h ▸ .refl _

theorem subscribe_meets :
    Meets (· = c) (subscribe filter qos) (fun _ => Completed c (.subscribe filter qos))
      (Stopped c (Excused c (.subscribe filter qos))) := by
  refine .bind (call_untouched ensureConnected_meets) fun _ => .get_eq ?_
  refine .bind (call_untouched (lift_eq_meets _)) fun _ => ?_
  refine .bind (takePacketId_meets _) fun packetId => ?_
  refine .bind (call_untouched (lift_meets (fun _ h => h.right) _)) fun bytes => ?_
  intro c' ⟨hb, hid, h⟩
  exact exchange_meets (hid ▸ rfl) (SubscribePacket.encode_length hb) waitForSuback_meets c' h

theorem unsubscribe_meets :
    Meets (· = c) (unsubscribe filter) (fun _ => Completed c (.unsubscribe filter))
      (Stopped c (Excused c (.unsubscribe filter))) := by
  refine .bind (call_untouched ensureConnected_meets) fun _ => ?_
  refine .bind (call_untouched (lift_eq_meets _)) fun _ => ?_
  refine .bind (takePacketId_meets _) fun packetId => ?_
  refine .bind (call_untouched (lift_meets (fun _ h => h.right) _)) fun bytes => ?_
  intro c' ⟨hb, hid, h⟩
  exact exchange_meets (hid ▸ rfl) (UnsubscribePacket.encode_length hb) waitForUnsuback_meets c' h

theorem publish_meets :
    Meets (· = c) (publish topic payload options)
      (fun _ => Completed c (.publish topic payload options))
      (Stopped c (Excused c (.publish topic payload options))) := by
  refine .bind (call_untouched ensureConnected_meets) fun _ => ?_
  refine .bind (call_untouched (lift_eq_meets _)) fun _ => .get_eq ?_
  refine .bind (call_untouched (lift_eq_meets _)) fun _ => ?_
  split
  case h_1 hq =>
    refine .bind (call_untouched (lift_meets (fun _ h => h ▸ .refl _) _)) fun bytes => ?_
    refine .imp (call_untouched (sendEncoded_untouched _ _)) (fun _ h => h.right ▸ .refl _)
      (fun _ c' h => ?_) fun _ _ h => h
    simpa [Completed, Operation.packetId, hq] using h.right
  case h_2 hq =>
    refine .bind (takePacketId_meets _) fun packetId => ?_
    rw [publish.send, bind_assoc]
    refine .bind (call_untouched (lift_meets (fun _ h => h.right) _)) fun bytes => ?_
    intro c' ⟨hb, hid, h⟩
    have hp : Operation.packetId (.publish topic payload options) c = some packetId := by
      simp [Operation.packetId, hq, hid]
    exact exchange_meets hp (PublishPacket.encode_length hb) waitForPuback_meets c' h

theorem call_meets (op : Operation) :
    Meets (· = c) op.call (fun _ => Completed c op) (Stopped c (Excused c op)) :=
  match op with
  | .publish ..     => publish_meets
  | .subscribe ..   => subscribe_meets
  | .unsubscribe .. => unsubscribe_meets

end MqttClient
end MqttWasi
