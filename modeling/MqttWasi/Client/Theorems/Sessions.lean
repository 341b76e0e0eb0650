import MqttWasi.Client.Theorems.Operations

namespace MqttWasi

namespace MqttClient

open EStateM (Meets)

variable {c : MqttClient}

-- The messages `ms` have been given to the caller, and those that were queued or consumed since `c`
-- and are not among them are still queued, in order.
def Delivered (c : MqttClient) (ms : List PublishPacket) (c' : MqttClient) : Prop :=
  ∃ ds, c'.decoded = c.decoded ++ ds ∧ c.incoming ++ messages ds = ms ++ c'.incoming

theorem Settled.delivered (h : Settled c ds c') : Delivered c [] c' :=
  ⟨ds, h.decoded, by rw [List.nil_append, h.incoming]⟩

theorem popIncoming_meets {E : Stop → MqttClient → Prop} (hi : c.incoming = []) :
    Meets (At c ds [packet]) popIncoming
      (fun message c' => message = some packet ∧ At c ds [] c') E := by
  intro c' h
  have hq := h.incoming
  rw [hi, List.nil_append] at hq
  refine ⟨by rw [hq]; rfl, { h with incoming := ?_ }⟩
  simp [hq, hi]

-- Whether or not it fails, a call of `recv` with an empty queue delivers all messages it consumes.
theorem recv_go_meets (hi : c.incoming = []) (hd : messages ds = []) :
    Meets (At c ds []) (recv.go rounds) (fun message c' => Same c c' ∧ Delivered c message.toList c')
      (Stopped c fun _ c' => 0 < c.maxIncomingMessages → Delivered c [] c') := by
  induction rounds generalizing ds
  case zero => exact .throw fun _ h => .blocked h.toSame
  case succ rounds ih =>
    have hsettled : ∀ {ds c'}, messages ds = [] → At c ds [] c' → Delivered c [] c' :=
      fun hd h => Settled.delivered (by rwa [Settled, hd])
    refine .bind (soften (readPacketUntil_meets none) fun _ _ h _ => hsettled hd h.right)
      fun packet => ?_
    split
    case h_1 packet =>
      rintro c' ⟨⟨_, _, hp⟩, h⟩
      have hm : messages (ds ++ [.publish packet]) = [packet] := by
        rw [messages_append_publish, hd, List.nil_append]
      refine Meets.bind (soften (acceptPublish_meets (Packet.decode_publish hp)) fun _ c' h hm' => ?_)
        (fun _ => (popIncoming_meets hi).imp (fun _ h => h) (fun _ c' h => ?_) fun _ _ h => h) c' h
      case refine_1 =>
        cases h
        case inl h => exact Settled.delivered (by rw [Settled, hm]; exact h.right)
        case inr h => simp [hi] at h; omega
      case refine_2 =>
        refine ⟨h.right.toSame, _, h.right.decoded, ?_⟩
        simp [hm, h.left, h.right.incoming, hi]
    case h_2 packet =>
      have hm : messages (ds ++ [.disconnect packet]) = [] := by
        rw [messages_append_of_none rfl, hd]
      refine .bind (setDisconnected_meets.pre fun _ h => h.right) fun _ => .ite (fun _ => ?_) fun _ => ?_
      · exact .pure fun _ h => ⟨h.left.toSame, hsettled hm h.left⟩
      · exact .throw fun _ h => .closed h.left.toSame h.right
    case h_3 => exact (ih (by rw [messages_append_of_none rfl, hd])).pre fun _ h => h.right
    case h_4 => exact (failDisconnected_meets _).pre fun _ h => h.right

theorem recv_of_closed (h : c.connected = false) : recv c = .error (.failed .clientClosed) c := by
  simp [recv, ensureConnected, EStateM.bind_apply, h, fail]

theorem recv_of_queued (h : c.connected = true) (hi : c.incoming = message :: rest) :
    recv c = .ok (some message) { c with incoming := rest } := by
  simp [recv, ensureConnected, popIncoming, EStateM.bind_apply, h, hi]

theorem recv_of_empty (h : c.connected = true) (hi : c.incoming = []) :
    recv c = recv.go (c.pending + 1) c := by
  have hp : popIncoming c = .ok none c := by
    have : { c with incoming := [] } = c := by rw [← hi]
    simp [popIncoming, EStateM.bind_apply, EStateM.map_apply, hi, this]
  simp [recv, ensureConnected, EStateM.bind_apply, h, hp]

theorem recv_meets :
    Meets (· = c) recv (fun message c' => Same c c' ∧ Delivered c message.toList c')
      (Stopped c fun _ c' => 0 < c.maxIncomingMessages → Delivered c [] c') := by
  rintro c rfl
  cases hc : c.connected
  case false =>
    rw [recv_of_closed hc]
    exact .closed (At.refl c).toSame hc
  case true =>
    cases hi : c.incoming
    case cons message rest =>
      rw [recv_of_queued hc hi]
      exact ⟨{ (At.refl c).toSame with }, [], by simp, by simp [messages, hi]⟩
    case nil =>
      rw [recv_of_empty hc hi]
      exact recv_go_meets hi rfl c (.refl c)

theorem call_of_closed (h : c.connected = false) (op : Operation) :
    op.call c = .error (.failed .clientClosed) c := by
  cases op <;> simp [Operation.call, publish, subscribe, unsubscribe, ensureConnected,
    EStateM.bind_apply, h, fail]

end MqttClient

-- A call of an operation that has returned or failed.
structure Exchange where
  op : Operation
  before : MqttClient
  result : Except Error Unit
  after : MqttClient

-- The last packet that the call has consumed acknowledges the packet it has sent.
def Exchange.Consumes (x : Exchange) (packetId : UInt16) : Prop :=
  ∃ ds ack, x.op.AcknowledgedBy packetId ack ∧ x.after.decoded = x.before.decoded ++ (ds ++ [ack])

-- A client after some calls, with the operations among them and the messages that were received.
inductive Session (c₀ : MqttClient) : List Exchange → List PublishPacket → MqttClient → Prop
  | start : Session c₀ [] [] c₀
  | returned :
    (Session c₀ xs ms c) → (op.call c = .ok () c') → Session c₀ (xs ++ [⟨op, c, .ok (), c'⟩]) ms c'
  | failed :
    (Session c₀ xs ms c) → (op.call c = .error (.failed e) c') →
    Session c₀ (xs ++ [⟨op, c, .error e, c'⟩]) ms c'
  | received :
    (Session c₀ xs ms c) → (c.recv = .ok message c') → Session c₀ xs (ms ++ message.toList) c'
  | recvFailed : (Session c₀ xs ms c) → (c.recv = .error (.failed e) c') → Session c₀ xs ms c'

namespace Session

open MqttClient

variable {c₀ c : MqttClient} {op : Operation}

-- Once a client is closed, it stays closed.
theorem connected_of_call (h : (op.call c).state.connected = true) : c.connected = true := by
  cases hc : c.connected
  case true => rfl
  case false =>
    rw [call_of_closed hc] at h
    exact hc.symm.trans h

theorem connected_of_recv (h : c.recv.state.connected = true) : c.connected = true := by
  cases hc : c.connected
  case true => rfl
  case false =>
    rw [recv_of_closed hc] at h
    exact hc.symm.trans h

theorem connected_of_mem (h : Session c₀ xs ms c) (hc : c.connected = true) (hx : x ∈ xs) :
    x.after.connected = true := by
  induction h
  case start => cases hx
  case returned hcall ih | failed hcall ih =>
    cases List.mem_append.mp hx
    case inl hx => exact ih (connected_of_call (by rw [hcall]; exact hc)) hx
    case inr hx => exact List.mem_singleton.mp hx ▸ hc
  case received hrecv ih | recvFailed hrecv ih =>
    exact ih (connected_of_recv (by rw [hrecv]; exact hc)) hx

theorem same (h : Session c₀ xs ms c) : Same c₀ c := by
  induction h
  case start => exact (At.refl c₀).toSame
  case returned hcall ih =>
    have ⟨_, hs⟩ := ((call_meets _).of_ok rfl hcall).settled
    exact ih.trans hs.toSame
  case failed hcall ih => exact ih.trans ((call_meets _).of_error rfl hcall).left
  case received hrecv ih => exact ih.trans (recv_meets.of_ok rfl hrecv).left
  case recvFailed hrecv ih => exact ih.trans (recv_meets.of_error rfl hrecv).left

-- How the operations of a session have ended.
theorem ended (h : Session c₀ xs ms c) (hx : x ∈ xs) :
    Same c₀ x.before ∧ ((x.result = .ok () ∧ Completed x.before x.op x.after) ∨
      ∃ e, x.result = .error e ∧
        (x.after.connected = false ∨ Excused x.before x.op e x.after)) := by
  induction h
  case start => cases hx
  case returned hs hcall ih =>
    cases List.mem_append.mp hx
    case inl hx => exact ih hx
    case inr hx =>
      cases List.mem_singleton.mp hx
      exact ⟨hs.same, .inl ⟨rfl, (call_meets _).of_ok rfl hcall⟩⟩
  case failed hs hcall ih =>
    cases List.mem_append.mp hx
    case inl hx => exact ih hx
    case inr hx =>
      cases List.mem_singleton.mp hx
      have he := (call_meets _).of_error rfl hcall
      exact ⟨hs.same, .inr ⟨_, rfl, he.right _ rfl⟩⟩
  case received ih | recvFailed ih => exact ih hx

end Session

namespace Exchange

open MqttClient

variable {x : Exchange}

theorem consumes_of_answered (h : Answered x.before x.op packetId x.after) : x.Consumes packetId := by
  have ⟨ds, ack, hack, hs⟩ := h
  exact ⟨ds, ack, hack, hs.decoded⟩

theorem consumes_of_completed (h : Completed x.before x.op x.after)
    (hid : x.op.packetId x.before = some packetId) : x.Consumes packetId := by
  rw [Completed, hid] at h
  exact consumes_of_answered h

-- A deadline can be set if the clock is in range.
theorem excused_cases (h : Excused x.before x.op e x.after)
    (hr : x.before.clock.InRange x.before.ackTimeout) :
    Untouched x.before x.after ∨ (Rejected e ∧
      ∃ packetId, x.op.packetId x.before = some packetId ∧ x.Consumes packetId) := by
  obtain h | ⟨packetId, hid, ⟨ho, _⟩ | ⟨he, h⟩⟩ := h
  · exact .inl h
  · exact absurd hr ho
  · exact .inr ⟨he, packetId, hid, consumes_of_answered h⟩

end Exchange

-- Whatever a client does, a packet identifier of which a byte was sent is acknowledged or the
-- client is closed.
theorem Session.unambiguous (c₀ c : MqttClient) (xs : List Exchange) (ms : List PublishPacket)
    (hr : c₀.clock.InRange c₀.ackTimeout) (h : Session c₀ xs ms c) :
    (∀ x ∈ xs, ∀ e, x.result = .error e →
      x.after = { x.before with nextPacketId := x.after.nextPacketId } ∨
      (∃ packet reasonCode packetId, e = .ackRejected packet reasonCode ∧
        x.op.packetId x.before = some packetId ∧ x.Consumes packetId) ∨
      x.after.connected = false) ∧
    (c.connected = true → ∀ x ∈ xs, x.after.stream.wire ≠ x.before.stream.wire →
      ∀ packetId, x.op.packetId x.before = some packetId → x.Consumes packetId) ∧
    (∀ x ∈ xs, x.result = .ok () →
      ∀ packetId, x.op.packetId x.before = some packetId → x.Consumes packetId) := by
  have hrange : ∀ x ∈ xs, x.before.clock.InRange x.before.ackTimeout := by
    intro x hx n
    have hs := (h.ended hx).left
    rw [hs.readings, hs.latest, hs.ackTimeout]
    exact hr n
  refine ⟨fun x hx e he => ?_, fun hc x hx hw packetId hid => ?_, fun x hx ho packetId hid => ?_⟩
  case refine_1 =>
    obtain ⟨hok, _⟩ | ⟨e', he', hclosed | hx'⟩ := (h.ended hx).right
    · cases he.symm.trans hok
    · exact .inr (.inr hclosed)
    · cases he.symm.trans he'
      obtain hu | ⟨⟨packet, reasonCode, hrej⟩, packetId, hid, hcon⟩ :=
        Exchange.excused_cases hx' (hrange x hx)
      · exact .inl hu
      · exact .inr (.inl ⟨packet, reasonCode, packetId, hrej, hid, hcon⟩)
  case refine_2 =>
    have hconn := h.connected_of_mem hc hx
    obtain ⟨_, hok⟩ | ⟨e', _, hclosed | hx'⟩ := (h.ended hx).right
    · exact Exchange.consumes_of_completed hok hid
    · cases hconn.symm.trans hclosed
    · obtain hu | ⟨_, packetId', hid', hcon⟩ := Exchange.excused_cases hx' (hrange x hx)
      · rw [hu] at hw
        contradiction
      · cases hid.symm.trans hid'
        exact hcon
  case refine_3 =>
    obtain ⟨_, hok⟩ | ⟨e', he', _⟩ := (h.ended hx).right
    · exact Exchange.consumes_of_completed hok hid
    · cases ho.symm.trans he'

namespace MqttClient

-- After the CONNACK, the broker sends a message with QoS 1 and a SUBACK.
def answeringBroker : Transport where
  reads := [.ok [0x20, 0x03, 0x00, 0x00, 0x00],
    .ok [0x32, 0x07, 0x00, 0x01, 0x61, 0x00, 0x09, 0x00, 0x07],
    .ok [0x90, 0x04, 0x00, 0x01, 0x00, 0x00]]
  writes := List.replicate 3 (.ok 64)
  flushes := List.replicate 3 (.ok ())
  settings := List.replicate 8 (.ok ())

def brokerMessage : PublishPacket where
  topic := "a"
  packetId := some 9
  payload := [0x07]
  qos := .atLeastOnce
  retain := false
  dup := false
  properties := {}

def steadyClock : Clock where
  readings _ := 0
  latest := 2 ^ 64

theorem answeringBroker_run :
    ∃ c₀, connectWith answeringBroker steadyClock { clientId := "x" } = .ok c₀ ∧
      ∃ c, subscribe "b" .atMostOnce c₀ = .ok () c ∧ c.incoming = [brokerMessage] ∧
        c.connected = true := by
  have h : (match connectWith answeringBroker steadyClock { clientId := "x" } with
      | .ok c₀ => match subscribe "b" .atMostOnce c₀ with
        | .ok _ c => decide (c.incoming = [brokerMessage] ∧ c.connected = true)
        | _ => false
      | _ => false) = true := by decide +kernel
  split at h
  case h_1 c₀ h₀ =>
    split at h
    case h_1 c hc => exact ⟨c₀, h₀, c, hc, of_decide_eq_true h⟩
    case h_2 => cases h
  case h_2 => cases h

def openClient : MqttClient where
  stream := { answeringBroker with reads := answeringBroker.reads.tail }
  frameReader := .withMaxPacketSize 64
  maxIncomingMessages := 1
  keepAliveSecs := 60
  ackTimeout := .fromSecs 10
  connected := true
  clock := steadyClock

end MqttClient

theorem subscribe_unambiguous :
    ∃ c, MqttClient.subscribe "b" .atMostOnce MqttClient.openClient = .ok () c ∧
      (⟨.subscribe "b" .atMostOnce, MqttClient.openClient, .ok (), c⟩ : Exchange).Consumes 1 := by
  have hv : ((Operation.subscribe "b" .atMostOnce).call MqttClient.openClient).value = .ok () := by
    decide +kernel
  have hcall := EStateM.Result.eq_ok hv
  have hr : MqttClient.openClient.clock.InRange MqttClient.openClient.ackTimeout := by
    have hl : 0 + MqttClient.openClient.ackTimeout ≤ MqttClient.openClient.clock.latest := by decide
    exact fun _ => hl
  have h := Session.unambiguous MqttClient.openClient _ _ [] hr (.returned .start hcall)
  exact ⟨_, hcall, h.right.right _ (by simp) rfl 1 rfl⟩

end MqttWasi
