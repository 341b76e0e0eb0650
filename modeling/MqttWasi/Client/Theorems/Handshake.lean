import MqttWasi.Client.Theorems.Delivery

-- What the handshake has agreed on.

namespace MqttWasi

namespace MqttClient

open EStateM (Meets)

variable {c : MqttClient}

def Greeted (ack : ConnAckPacket) (c : MqttClient) : Prop :=
  c.decoded = [.connAck ack] ∧ c.serverCapabilities = .fromConnack ack ∧
    c.maxOutboundPacketSize =
      ((ack.properties.getU32 .maximumPacketSize).map (·.toNat)).getD mqttMaxPacketSize

-- Nothing has been consumed yet.
def Silent (c : MqttClient) : Prop :=
  c.decoded = [] ∧ c.maxOutboundPacketSize = mqttMaxPacketSize

theorem silent_of_at {x : ClientM α} {E : MqttClient → Stop → MqttClient → Prop}
    (h : ∀ c, Meets (At c [] []) x (fun _ => At c [] []) (E c)) :
    Meets Silent x (fun _ => Silent) fun _ _ => True := by
  intro c ⟨hd, hm⟩
  have h := h c c (.refl c)
  cases hx : x c <;> rw [hx] at h
  case error => trivial
  case ok a c' => exact ⟨by rw [h.decoded, hd]; rfl, h.maxOutboundPacketSize.trans hm⟩

theorem sendEncoded_silent (frame : Bytes) (operation : String) :
    Meets Silent (sendEncoded frame operation) (fun _ => Silent) fun _ _ => True :=
  silent_of_at fun _ => (sendEncoded_meets frame operation).imp (fun _ h => h) (fun _ _ h => h.left)
    fun _ _ h => h

theorem readPacketUntil_silent (deadline : Option Deadline) :
    Meets Silent (readPacketUntil deadline)
      (fun packet c => c.decoded = [packet] ∧ c.maxOutboundPacketSize = mqttMaxPacketSize)
      fun _ _ => True := by
  intro c ⟨hd, hm⟩
  have h := readPacketUntil_meets deadline c (.refl c)
  cases hx : readPacketUntil deadline c <;> rw [hx] at h
  case error => trivial
  case ok packet c' => exact ⟨by rw [h.right.decoded, hd]; rfl, h.right.maxOutboundPacketSize.trans hm⟩

theorem negotiate_greeted (ack : ConnAckPacket) :
    Meets (fun c => c.decoded = [.connAck ack] ∧ c.maxOutboundPacketSize = mqttMaxPacketSize)
      (negotiate ack) (fun _ => Greeted ack) fun _ _ => True := by
  refine .bind (Q := fun _ c => c.decoded = [.connAck ack] ∧
    c.serverCapabilities = .fromConnack ack ∧ c.maxOutboundPacketSize = mqttMaxPacketSize)
    (fun _ h => ⟨h.left, rfl, h.right⟩) fun _ => ?_
  split
  case h_1 hn => exact .pure fun c h => by rw [Greeted, hn]; exact h
  case h_2 size hs =>
    refine .ite (fun _ => .throw fun _ _ => trivial) fun _ => .modify fun c h => ?_
    rw [Greeted, hs]
    exact ⟨h.left, h.right.left, rfl⟩

theorem configure_greeted (ack : ConnAckPacket) :
    Meets (fun c => Greeted ack c ∧ c.connected = true) configure
      (fun _ c => Greeted ack c ∧ c.connected = true) fun _ _ => True := by
  refine .bind (Q := fun _ c => Greeted ack c ∧ c.connected = true) (.get fun c h => ?_)
    fun result => ?_
  case refine_2 =>
    cases result
    case error => exact .throw fun _ _ => trivial
    case ok => exact .pure fun _ h => h
  case refine_1 =>
    cases Transport.configure c.stream
    case none => exact .throw fun _ _ => trivial
    case some r =>
      rintro _ rfl
      exact h

theorem handshake_greeted (options : ConnectOptions) :
    Meets Silent (handshake options)
      (fun _ c => c.connected = true ∧ ∃ ack, Greeted ack c) fun _ _ => True := by
  have hlift : ∀ {α} (r : Except Error α), Meets Silent (lift r) (fun _ => Silent) fun _ _ => True := by
    intro α r c h
    cases r
    case ok => exact h
    case error => trivial
  have hnow : Meets Silent now (fun _ => Silent) fun _ _ => True := fun _ h => h
  have hset : Meets Silent configure (fun _ => Silent) fun _ _ => True :=
    silent_of_at fun _ => configure_at
  refine .get fun c h => .of_eq ?_ h
  refine (hlift _).bind fun _ => hnow.bind fun _ => ?_
  refine (silent_of_at fun _ => deadlineAfter_at).bind fun deadline => ?_
  refine hset.bind fun _ => hset.bind fun _ => hset.bind fun _ => hnow.bind fun _ => ?_
  refine .bind (Q := fun _ => Silent) (fun _ h => h) fun _ => (hlift _).bind fun frame => ?_
  refine (sendEncoded_silent frame _).bind fun _ => (readPacketUntil_silent _).bind fun packet => ?_
  split
  case h_2 => exact .throw fun _ _ => trivial
  case h_1 ack =>
    refine .ite (fun _ => .throw_bind fun _ _ => trivial) fun _ => ?_
    refine .bind (fun c h => ?_) fun _ => (negotiate_greeted ack).bind fun _ => ?_
    case refine_1 =>
      cases validateConnack options.clientId options.cleanStart ack
      case error => trivial
      case ok => exact h
    case refine_2 =>
      refine .bind (Q := fun _ c => Greeted ack c ∧ c.connected = true) (fun _ h => ⟨h, rfl⟩) fun _ => ?_
      refine (configure_greeted ack).bind fun _ => ?_
      exact (configure_greeted ack).imp (fun _ h => h) (fun _ _ h => ⟨h.right, ack, h.left⟩)
        fun _ _ h => h

theorem connectWith_greeted {stream : Transport} {clock : Clock}
    (h : connectWith stream clock options = .ok c) : c.connected = true ∧ ∃ ack, Greeted ack c := by
  unfold connectWith at h
  dsimp only at h
  split at h
  case h_1 hs =>
    cases h
    exact (handshake_greeted options).of_ok ⟨rfl, rfl⟩ hs
  case h_2 => cases h

theorem Greeted.max_lt {ack : ConnAckPacket} (h : Greeted ack c) : c.maxOutboundPacketSize < 2 ^ 32 := by
  rw [h.right.right]
  cases ack.properties.getU32 .maximumPacketSize
  case none => decide
  case some size => exact size.toNat_lt

end MqttClient
end MqttWasi
