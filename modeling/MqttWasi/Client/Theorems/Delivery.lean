import MqttWasi.Client.Theorems.Sessions

-- What becomes of the messages that a client has queued.

namespace MqttWasi

namespace MqttClient

open EStateM (Meets)

variable {c : MqttClient}

-- A client right after its handshake: nothing but the CONNACK has been consumed.
def Fresh (n : Nat) (c : MqttClient) : Prop :=
  c.incoming = [] ∧ messages c.decoded = [] ∧ c.maxIncomingMessages = n

theorem fresh_of_at {x : ClientM α} {E : MqttClient → Stop → MqttClient → Prop}
    (h : ∀ c, Meets (At c [] []) x (fun _ => At c [] []) (E c)) (n : Nat) :
    Meets (Fresh n) x (fun _ => Fresh n) fun _ _ => True := by
  intro c ⟨hi, hd, hn⟩
  have h := h c c (.refl c)
  cases hx : x c
  case error => trivial
  case ok a c' =>
    rw [hx] at h
    refine ⟨h.incoming.trans ?_, ?_, h.maxIncomingMessages.trans hn⟩
    · rw [hi, List.append_nil]
    · rw [h.decoded, List.append_nil, hd]

-- Any failure of the handshake is one of these.
def Refused (c : MqttClient) : Stop → MqttClient → Prop :=
  Stopped c fun _ _ => True

theorem deadlineAfter_at :
    Meets (At c ds ms) (deadlineAfter timeout name) (fun _ => At c ds ms) (Refused c) := by
  refine now_meets.bind fun start => .get fun c' h => .of_eq ?_ h
  cases c'.clock.checkedAdd start timeout
  case none => exact .throw fun _ h => .softly h.toSame trivial
  case some => exact .pure fun _ h => h

theorem configure_at : Meets (At c ds ms) configure (fun _ => At c ds ms) (Refused c) := by
  refine (onStream_meets _).bind fun result => ?_
  cases result
  case error => exact .throw fun _ h => .softly h.toSame trivial
  case ok => exact .pure fun _ h => h

theorem lift_fresh (r : Except Error α) (n : Nat) :
    Meets (Fresh n) (lift r) (fun a c => r = .ok a ∧ Fresh n c) fun _ _ => True := by
  intro c h
  cases r
  case error => trivial
  case ok => exact ⟨rfl, h⟩

theorem update_fresh {f : MqttClient → MqttClient} (h : ∀ c, Fresh n c → Fresh n (f c)) :
    Meets (Fresh n) (modify f : ClientM PUnit) (fun _ => Fresh n) fun _ _ => True :=
  h

theorem negotiate_fresh (ack : ConnAckPacket) (n : Nat) :
    Meets (Fresh n) (negotiate ack) (fun _ => Fresh n) fun _ _ => True := by
  refine .bind (update_fresh fun _ h => h) fun _ => ?_
  split
  case h_1 => exact .pure fun _ h => h
  case h_2 => exact .ite (fun _ => .throw fun _ _ => trivial) fun _ => update_fresh fun _ h => h

theorem validate_capacity {options : ConnectOptions} {clock : Clock} (h : options.validate clock = .ok u) :
    0 < options.maxIncomingMessages := by
  by_contra hc
  have hz : options.maxIncomingMessages = 0 := by omega
  unfold ConnectOptions.validate at h
  simp only [hz, true_or, if_true] at h
  split at h <;> try split at h <;> try split at h <;> try split at h
  all_goals cases h

theorem now_fresh (n : Nat) : Meets (Fresh n) now (fun _ => Fresh n) fun _ _ => True :=
  fun _ h => h

theorem configure_fresh (n : Nat) : Meets (Fresh n) configure (fun _ => Fresh n) fun _ _ => True :=
  fresh_of_at (fun _ => configure_at) n

theorem sendEncoded_fresh (bytes : Bytes) (operation : String) (n : Nat) :
    Meets (Fresh n) (sendEncoded bytes operation) (fun _ => Fresh n) fun _ _ => True :=
  fresh_of_at (fun _ => (sendEncoded_meets bytes operation).imp (fun _ h => h) (fun _ _ h => h.left)
    fun _ _ h => h) n

theorem readPacketUntil_fresh (deadline : Option Deadline) (n : Nat) :
    Meets (Fresh n) (readPacketUntil deadline) (fun packet c => packet.message? = none → Fresh n c)
      fun _ _ => True := by
  intro c ⟨hi, hd, hn⟩
  have h := readPacketUntil_meets deadline c (.refl c)
  cases hx : readPacketUntil deadline c
  case error => trivial
  case ok packet c' =>
    rw [hx] at h
    refine fun hp => ⟨h.right.incoming.trans ?_, ?_, h.right.maxIncomingMessages.trans hn⟩
    · rw [hi, List.append_nil]
    · rw [h.right.decoded, List.nil_append, messages_append_of_none hp, hd]

theorem handshake_fresh (options : ConnectOptions) (n : Nat) :
    Meets (Fresh n) (handshake options) (fun _ c => 0 < options.maxIncomingMessages ∧ Fresh n c)
      fun _ _ => True := by
  refine .get fun c h => .of_eq ?_ h
  refine (lift_fresh _ n).bind fun _ c ⟨hv, h⟩ => ?_
  have hpos := validate_capacity hv
  refine Meets.imp (P := Fresh n) (Q := fun _ => Fresh n) ?_ (fun _ h => h) (fun _ _ h => ⟨hpos, h⟩)
    (fun _ _ h => h) c h
  refine (now_fresh n).bind fun _ => (fresh_of_at (fun _ => deadlineAfter_at) n).bind fun deadline => ?_
  refine (configure_fresh n).bind fun _ => (configure_fresh n).bind fun _ => ?_
  refine (configure_fresh n).bind fun _ => (now_fresh n).bind fun _ => ?_
  refine .bind (update_fresh fun _ h => h) fun _ => (lift_fresh _ n).bind fun bytes => ?_
  refine ((sendEncoded_fresh bytes _ n).pre fun _ h => h.right).bind fun _ => ?_
  refine (readPacketUntil_fresh _ n).bind fun packet => ?_
  split
  case h_2 => exact .throw fun _ _ => trivial
  case h_1 ack =>
    refine .ite (fun _ => .throw_bind fun _ _ => trivial) fun _ => ?_
    refine ((lift_fresh _ n).pre fun _ h => h rfl).bind fun _ => ?_
    refine ((negotiate_fresh ack n).pre fun _ h => h.right).bind fun _ => ?_
    refine .bind (update_fresh fun _ h => h) fun _ => (configure_fresh n).bind fun _ => ?_
    exact configure_fresh n

theorem connectWith_fresh {stream : Transport} {clock : Clock} (h : connectWith stream clock options = .ok c) :
    0 < options.maxIncomingMessages ∧ Fresh options.maxIncomingMessages c := by
  unfold connectWith at h
  dsimp only at h
  split at h
  case h_1 hs =>
    cases h
    exact (handshake_fresh options _).of_ok ⟨rfl, rfl, rfl⟩ hs
  case h_2 => cases h

theorem Delivered.messages (h : Delivered c ms c') (hm : messages c.decoded = ms₀ ++ c.incoming) :
    MqttClient.messages c'.decoded = ms₀ ++ ms ++ c'.incoming := by
  have ⟨ds, hd, hi⟩ := h
  have happ : MqttClient.messages c'.decoded = MqttClient.messages c.decoded ++ MqttClient.messages ds := by
    rw [hd, MqttClient.messages, List.filterMap_append]
    rfl
  rw [happ, hm, List.append_assoc, hi, List.append_assoc]

-- Calls `recv` a number of times.
def recvs : Nat → ClientM (List PublishPacket)
  | 0     => return []
  | n + 1 => do
    let message ← recv
    let messages ← recvs n
    return message.toList ++ messages

theorem recvs_of_queued (h : c.connected = true) (hi : c.incoming = ms) :
    recvs ms.length c = .ok ms { c with incoming := [] } := by
  induction ms generalizing c
  case nil =>
    have : { c with incoming := [] } = c := by rw [← hi]
    rw [this]
    rfl
  case cons message ms ih =>
    have hr := ih (c := { c with incoming := ms }) h rfl
    rw [List.length_cons, recvs, EStateM.bind_ok (recv_of_queued h hi), EStateM.bind_ok hr]
    rfl

end MqttClient

namespace Session

open MqttClient

variable {c₀ c : MqttClient}

-- In an open session no message is lost.
theorem delivered (h : Session c₀ xs ms c) (hf : Fresh n c₀) (hn : 0 < n) (hc : c.connected = true) :
    messages c.decoded = ms ++ c.incoming := by
  induction h
  case start =>
    have ⟨hi, hd, _⟩ := hf
    rw [hi, hd]
    rfl
  case returned hcall ih =>
    have ⟨_, hs⟩ := ((call_meets _).of_ok rfl hcall).settled
    have hm := hs.delivered.messages (ih (connected_of_call (by rw [hcall]; exact hc)))
    rwa [List.append_nil] at hm
  case failed hcall ih =>
    have he := ((call_meets _).of_error rfl hcall).right _ rfl
    have ⟨_, hs⟩ := (he.resolve_left (by simp [hc])).settled
    have hm := hs.delivered.messages (ih (connected_of_call (by rw [hcall]; exact hc)))
    rwa [List.append_nil] at hm
  case received hrecv ih =>
    exact (recv_meets.of_ok rfl hrecv).right.messages (ih (connected_of_recv (by rw [hrecv]; exact hc)))
  case recvFailed hs hrecv ih =>
    have he := (recv_meets.of_error rfl hrecv).right _ rfl
    have hd := he.resolve_left (by simp [hc]) (hs.same.maxIncomingMessages ▸ hf.right.right ▸ hn)
    have hm := hd.messages (ih (connected_of_recv (by rw [hrecv]; exact hc)))
    rwa [List.append_nil] at hm

end Session

-- The next call of `recv` returns the oldest queued message.
def MqttClient.ReturnsOldest (c : MqttClient) : Prop :=
  ∀ message rest, c.incoming = message :: rest →
    c.recv = .ok (some message) { c with incoming := rest }

-- Queued messages can be received exactly as long as the connection is up. Up to then, all messages
-- that were consumed are received, in order.
theorem Session.returnsOldest_iff_connected (stream : Transport) (clock : Clock)
    (options : ConnectOptions) (c₀ c : MqttClient) (xs : List Exchange) (ms : List PublishPacket)
    (h₀ : MqttClient.connectWith stream clock options = .ok c₀) (h : Session c₀ xs ms c) :
    (c.ReturnsOldest ↔ c.incoming = [] ∨ c.connected = true) ∧
    (c.connected = true → MqttClient.messages c.decoded = ms ++ c.incoming ∧
      c.recvs c.incoming.length = .ok c.incoming { c with incoming := [] }) := by
  have ⟨hn, hf⟩ := MqttClient.connectWith_fresh h₀
  refine ⟨⟨fun hr => ?_, fun hc message rest hi => ?_⟩, fun hc => ⟨h.delivered hf hn hc, ?_⟩⟩
  case refine_1 =>
    cases hc : c.connected
    case true => exact .inr rfl
    case false =>
      cases hi : c.incoming
      case nil => exact .inl rfl
      case cons message rest =>
        have hr := hr message rest hi
        rw [MqttClient.recv_of_closed hc] at hr
        cases hr
  case refine_2 =>
    cases hc
    case inl hc => simp [hi] at hc
    case inr hc => exact MqttClient.recv_of_queued hc hi
  case refine_3 => exact MqttClient.recvs_of_queued hc rfl

theorem returnsOldest_after_subscribe :
    ∃ c₀ c, MqttClient.connectWith MqttClient.answeringBroker MqttClient.steadyClock
        { clientId := "x" } = .ok c₀ ∧
      MqttClient.subscribe "b" .atMostOnce c₀ = .ok () c ∧ c.connected = true ∧
      c.incoming = [MqttClient.brokerMessage] ∧ c.ReturnsOldest := by
  have ⟨c₀, h₀, c, hc, hi, hconn⟩ := MqttClient.answeringBroker_run
  have hcall : (Operation.subscribe "b" .atMostOnce).call c₀ = .ok () c := hc
  have hs : Session c₀ _ [] c := .returned .start hcall
  have h := Session.returnsOldest_iff_connected _ _ _ c₀ c _ [] h₀ hs
  exact ⟨c₀, c, h₀, hc, hconn, hi, h.left.mpr (.inr hconn)⟩

-- The broker closes the connection while the client waits for a SUBACK. The client has sent a
-- PUBACK for a message that it does not give out any more.
def MqttClient.closingBroker : Transport :=
  { answeringBroker with
    reads := [.ok [0x20, 0x03, 0x00, 0x00, 0x00],
      .ok [0x32, 0x07, 0x00, 0x01, 0x61, 0x00, 0x09, 0x00, 0x07], .ok [0xE0, 0x00]] }

theorem MqttClient.closingBroker_run :
    ∃ c₀, connectWith closingBroker steadyClock { clientId := "x" } = .ok c₀ ∧
      ∃ c, subscribe "b" .atMostOnce c₀ = .error (.failed .connectionClosed) c ∧
        c.incoming = [brokerMessage] ∧ c.connected = false ∧
        [0x40, 0x02, 0x00, 0x09] <:+ c.stream.wire := by
  let subscribed c₀ := subscribe "b" .atMostOnce c₀
  have h : (connectWith closingBroker steadyClock { clientId := "x" }).toOption.any (fun c₀ =>
      decide ((subscribed c₀).value = .error (.failed .connectionClosed) ∧
        (subscribed c₀).state.incoming = [brokerMessage] ∧
        (subscribed c₀).state.connected = false ∧
        [0x40, 0x02, 0x00, 0x09] <:+ (subscribed c₀).state.stream.wire)) = true := by decide +kernel
  cases h₀ : connectWith closingBroker steadyClock { clientId := "x" } <;> rw [h₀] at h
  case error => cases h
  case ok c₀ =>
    obtain ⟨hv, hc⟩ := of_decide_eq_true h
    exact ⟨c₀, rfl, _, EStateM.Result.eq_error hv, hc⟩

theorem acknowledged_message_lost :
    ∃ c₀ c xs, MqttClient.connectWith MqttClient.closingBroker MqttClient.steadyClock
        { clientId := "x" } = .ok c₀ ∧ Session c₀ xs [] c ∧
      c.incoming = [MqttClient.brokerMessage] ∧ MqttClient.brokerMessage.packetId = some 9 ∧
      [0x40, 0x02, 0x00, 0x09] <:+ c.stream.wire ∧
      c.recv = .error (.failed .clientClosed) c ∧ ¬c.ReturnsOldest := by
  have ⟨c₀, h₀, c, hc, hi, hconn, hw⟩ := MqttClient.closingBroker_run
  have hcall : (Operation.subscribe "b" .atMostOnce).call c₀ = .error (.failed .connectionClosed) c :=
    hc
  have hr := MqttClient.recv_of_closed hconn
  refine ⟨c₀, c, _, h₀, .failed .start hcall, hi, rfl, hw, hr, ?_⟩
  intro ho
  cases hr.symm.trans (ho _ _ hi)

end MqttWasi
