import MqttWasi.Library.Hoare
import MqttWasi.Codec.Theorems.Packets
import MqttWasi.Client.Basic

-- What the parts of a call do, as pre- and postconditions. They are about what has been consumed
-- from the stream, about the queue of incoming messages, and about how a client fails.

namespace MqttWasi

def Packet.message? : Packet → Option PublishPacket
  | .publish packet => some packet
  | _               => none

namespace MqttClient

-- What calls never change.
structure Same (c₀ c : MqttClient) : Prop where
  ackTimeout : c.ackTimeout = c₀.ackTimeout
  readings : c.clock.readings = c₀.clock.readings
  latest : c.clock.latest = c₀.clock.latest
  maxOutboundPacketSize : c.maxOutboundPacketSize = c₀.maxOutboundPacketSize
  maxIncomingMessages : c.maxIncomingMessages = c₀.maxIncomingMessages

theorem Same.trans {c₀ c c' : MqttClient} (h₁ : Same c₀ c) (h₂ : Same c c') : Same c₀ c' where
  ackTimeout := h₂.ackTimeout.trans h₁.ackTimeout
  readings := h₂.readings.trans h₁.readings
  latest := h₂.latest.trans h₁.latest
  maxOutboundPacketSize := h₂.maxOutboundPacketSize.trans h₁.maxOutboundPacketSize
  maxIncomingMessages := h₂.maxIncomingMessages.trans h₁.maxIncomingMessages

-- Since `c₀`, the packets `ds` have been consumed and the messages `ms` have been queued.
structure At (c₀ : MqttClient) (ds : List Packet) (ms : List PublishPacket) (c : MqttClient) : Prop
    extends Same c₀ c where
  decoded : c.decoded = c₀.decoded ++ ds
  incoming : c.incoming = c₀.incoming ++ ms

theorem At.refl (c : MqttClient) : At c [] [] c where
  ackTimeout := rfl
  readings := rfl
  latest := rfl
  maxOutboundPacketSize := rfl
  maxIncomingMessages := rfl
  decoded := (List.append_nil _).symm
  incoming := (List.append_nil _).symm

-- A call has failed. Either the client is closed by that or the error is one of the `soft` ones.
def Stopped (c₀ : MqttClient) (soft : Error → MqttClient → Prop) (stop : Stop) (c : MqttClient) :
    Prop :=
  Same c₀ c ∧ ∀ e, stop = .failed e → c.connected = false ∨ soft e c

namespace Stopped

variable {c₀ c : MqttClient} {soft soft' : Error → MqttClient → Prop}

theorem blocked (h : Same c₀ c) : Stopped c₀ soft .blocked c :=
  ⟨h, by simp⟩

theorem closed (h : Same c₀ c) (hc : c.connected = false) : Stopped c₀ soft stop c :=
  ⟨h, fun _ _ => .inl hc⟩

theorem softly (h : Same c₀ c) (hs : soft e c) : Stopped c₀ soft (.failed e) c :=
  ⟨h, fun _ he => .inr (Stop.failed.inj he ▸ hs)⟩

theorem imp (h : Stopped c₀ soft stop c) (hs : ∀ e, soft e c → soft' e c) :
    Stopped c₀ soft' stop c :=
  ⟨h.left, fun e he => (h.right e he).imp_right (hs e)⟩

end Stopped

open EStateM (Meets)

variable {c₀ : MqttClient} {ds : List Packet} {ms : List PublishPacket}
  {soft : Error → MqttClient → Prop}

theorem soften {P : MqttClient → Prop} {x : ClientM α} {Q : α → MqttClient → Prop}
    {soft soft' : Error → MqttClient → Prop} (h : Meets P x Q (Stopped c₀ soft))
    (hs : ∀ e c, soft e c → soft' e c) : Meets P x Q (Stopped c₀ soft') :=
  h.imp (fun _ h => h) (fun _ _ h => h) fun _ c h => h.imp fun e => hs e c

theorem now_apply (c : MqttClient) : now c = .ok c.clock.now { c with clock := c.clock.tick } :=
  rfl

theorem now_meets : Meets (At c₀ ds ms) now (fun _ => At c₀ ds ms) (Stopped c₀ soft) :=
  fun _ h => { h with }

theorem update_meets {f : MqttClient → MqttClient} (h : ∀ c, At c₀ ds ms c → At c₀ ds ms (f c)) :
    Meets (At c₀ ds ms) (modify f) (fun _ => At c₀ ds ms) (Stopped c₀ soft) :=
  h

theorem onStream_meets (call : Transport → Option (Except IoError α × Transport)) :
    Meets (At c₀ ds ms) (onStream call) (fun _ => At c₀ ds ms) (Stopped c₀ soft) := by
  refine .get fun c h => ?_
  cases call c.stream
  case none => exact .throw fun _ hs => hs ▸ .blocked h.toSame
  case some r =>
    rintro _ rfl
    exact { h with }

theorem setDisconnected_meets :
    Meets (At c₀ ds ms) setDisconnected (fun _ c => At c₀ ds ms c ∧ c.connected = false)
      (Stopped c₀ soft) :=
  fun _ h => ⟨{ h with }, rfl⟩

theorem failDisconnected_meets (Q : α → MqttClient → Prop) :
    Meets (At c₀ ds ms) (failDisconnected e) Q (Stopped c₀ soft) :=
  setDisconnected_meets.bind fun _ => .throw fun _ h => .closed h.left.toSame h.right

-- After a failure nothing follows.
theorem failDisconnected_bind_meets (f : α → ClientM β) (Q : β → MqttClient → Prop) :
    Meets (At c₀ ds ms) (failDisconnected e >>= f) Q (Stopped c₀ soft) :=
  (failDisconnected_meets fun _ _ => False).bind fun _ _ h => h.elim

-- A deadline after the next instants of the clock may have no representation.
def Overdue (c₀ : MqttClient) : Prop :=
  ¬c₀.clock.InRange c₀.ackTimeout

theorem ackDeadline_meets (name : String) :
    Meets (At c₀ ds ms) (ackDeadline name) (fun _ => At c₀ ds ms)
      (Stopped c₀ fun _ c => Overdue c₀ ∧ At c₀ ds ms c) := by
  refine .get fun c h => ?_
  rintro c rfl
  rw [deadlineAfter, EStateM.bind_ok (now_apply c), EStateM.bind_ok (EStateM.get_apply _)]
  dsimp only
  cases hc : c.clock.tick.checkedAdd c.clock.now c.ackTimeout
  case some => exact { h with }
  case none =>
    refine .softly { h with } ⟨fun hr => ?_, { h with }⟩
    have hr : c.clock.now + c.ackTimeout ≤ c.clock.tick.latest := by
      rw [Clock.now, h.ackTimeout, h.readings]
      exact h.latest ▸ hr _
    rw [Clock.checkedAdd, if_pos hr] at hc
    cases hc

theorem sendEncoded_meets (bytes : Bytes) (operation : String) :
    Meets (At c₀ ds ms) (sendEncoded bytes operation)
      (fun _ c => At c₀ ds ms c ∧ bytes.length ≤ c₀.maxOutboundPacketSize)
      (Stopped c₀ fun _ c => At c₀ ds ms c ∧ c₀.maxOutboundPacketSize < bytes.length) := by
  refine .get fun c h => .ite (fun hl => ?_) fun hl => ?_
  case refine_1 =>
    refine .throw_bind ?_
    rintro _ rfl
    exact .softly h.toSame ⟨h, h.maxOutboundPacketSize ▸ hl⟩
  case refine_2 =>
    have hl := Nat.not_lt.mp (h.maxOutboundPacketSize ▸ hl)
    refine .of_eq (.bind (update_meets fun _ h => { h with }) fun _ => ?_) h
    refine .bind (onStream_meets _) fun result => ?_
    split
    case h_1 => exact failDisconnected_bind_meets _ _
    case h_2 =>
      refine .bind (onStream_meets _) fun result => ?_
      dsimp only
      split
      case h_1 => exact failDisconnected_bind_meets _ _
      case h_2 => exact now_meets.bind fun _ => .modify fun _ h => ⟨{ h with }, hl⟩

-- A PINGREQ and a PUBACK fit in what a broker allows if any operation does.
def Tight (c₀ : MqttClient) : Prop :=
  c₀.maxOutboundPacketSize < 4

theorem sendPuback_meets (hi : packetId ≠ 0) :
    Meets (At c₀ ds ms) (sendPuback packetId) (fun _ => At c₀ ds ms)
      (Stopped c₀ fun _ c => Tight c₀ ∧ At c₀ ds ms c) := by
  rw [sendPuback, PubAckPacket.encode_success hi]
  refine (sendEncoded_meets _ _).imp (fun _ h => h) (fun _ _ h => h.left) fun _ _ h => ?_
  exact h.imp fun _ ⟨ha, hl⟩ => ⟨by simpa [Tight, u16ToBeBytes] using hl, ha⟩

theorem keepAlive_meets (start : Instant) :
    Meets (At c₀ ds ms) (serviceTimers.keepAlive start) (fun _ => At c₀ ds ms)
      (Stopped c₀ fun _ c => Tight c₀ ∧ At c₀ ds ms c) := by
  refine .get fun c h => .ite (fun _ => .pure fun _ hs => hs ▸ h) fun _ => .of_eq ?_ h
  split
  case h_1 => exact .ite (fun _ => failDisconnected_meets _) fun _ => .pure fun _ h => h
  case h_2 =>
    refine .ite (fun _ => ?_) fun _ => .pure fun _ h => h
    refine .bind (soften (sendEncoded_meets _ _) fun _ _ ⟨ha, hl⟩ => ?_) fun _ => ?_
    case refine_1 => exact ⟨Nat.lt_trans hl (by decide), ha⟩
    case refine_2 =>
      exact .bind (now_meets.pre fun _ h => h.left) fun _ => update_meets fun _ h => { h with }
  case h_3 => exact .pure fun _ h => h

-- The errors that pass through `readPacketUntil` without closing the client.
def Lapsed (c₀ : MqttClient) (e : Error) : Prop :=
  Tight c₀ ∨ ∃ operation, e = .timeout operation

theorem serviceTimers_meets (deadline : Option Deadline) :
    Meets (At c₀ ds ms) (serviceTimers deadline) (fun _ => At c₀ ds ms)
      (Stopped c₀ fun e c => Lapsed c₀ e ∧ At c₀ ds ms c) := by
  refine now_meets.bind fun start => ?_
  have hk : Meets (At c₀ ds ms) (serviceTimers.keepAlive start) (fun _ => At c₀ ds ms)
      (Stopped c₀ fun e c => Lapsed c₀ e ∧ At c₀ ds ms c) :=
    soften (keepAlive_meets start) fun _ _ ⟨ht, ha⟩ => ⟨.inl ht, ha⟩
  split
  case h_1 at' operation =>
    refine .ite (fun _ => .throw_bind fun _ h => ?_) fun _ => hk
    exact .softly h.toSame ⟨.inr ⟨_, rfl⟩, h⟩
  case h_2 => exact hk

theorem nextReadTimeout_meets (deadline : Option Deadline) :
    Meets (At c₀ ds ms) (nextReadTimeout deadline) (fun _ => At c₀ ds ms) (Stopped c₀ soft) :=
  now_meets.bind fun _ => .get fun _ h => .pure fun _ hs => hs ▸ h

-- A packet that has been decoded comes from its decoder.
def Decodable (packet : Packet) : Prop :=
  ∃ header body, Packet.decode header body = .ok packet

theorem check_decode_meets {P : FrameReader → Prop} (header : FixedHeader) (body : Bytes) :
    Meets P (check (Packet.decode header body)) (fun packet _ => Decodable packet) fun _ _ => True := by
  intro _ _
  cases hd : Packet.decode header body
  case error => trivial
  case ok => exact ⟨_, _, hd⟩

theorem readBody_decodable {P : FrameReader → Prop} (header : FixedHeader) (headerLen totalLen : Nat) :
    Meets P (FrameReader.readBody header headerLen totalLen)
      (fun packet _ => ∀ p ∈ packet, Decodable p) fun _ _ => True := by
  refine .get fun _ _ => .ite (fun _ => .pure fun _ _ => by simp) fun _ => ?_
  refine (check_decode_meets _ _).bind fun packet => ?_
  refine .bind (Q := fun _ _ => Decodable packet) (.set fun _ h => h) fun _ => .pure fun _ h => ?_
  simpa using h

theorem tryDecode_decodable (h : FrameReader.tryDecode reader = .ok (some packet) reader') :
    Decodable packet := by
  have ht : Meets (fun _ => True) FrameReader.tryDecode (fun packet _ => ∀ p ∈ packet, Decodable p)
      fun _ _ => True := by
    refine .get fun reader _ => ?_
    cases reader.overflowSize
    case some => exact .throw_bind fun _ _ => trivial
    case none =>
      dsimp only
      split
      case h_1 =>
        refine .bind (Q := fun _ _ => True) (fun s _ => by split <;> trivial) fun r => ?_
        split
        case h_1 => exact .pure fun _ _ => by simp
        case h_2 => exact readBody_decodable _ _ _
      case h_2 => exact readBody_decodable _ _ _
  exact ht.of_ok trivial h packet rfl

theorem readPacketRound_meets (deadline : Option Deadline) :
    Meets (At c₀ ds ms) (readPacketRound deadline)
      (fun packet c => match packet with
        | none        => At c₀ ds ms c
        | some packet => Decodable packet ∧ At c₀ (ds ++ [packet]) ms c)
      (Stopped c₀ fun e c => Lapsed c₀ e ∧ At c₀ ds ms c) := by
  refine .get fun c h => ?_
  split
  case h_1 =>
    refine .bind (Q := fun _ => At c₀ ds ms) (.set fun _ _ => { h with }) fun _ => ?_
    exact failDisconnected_meets _
  case h_2 packet frameReader hd =>
    have hd := tryDecode_decodable hd
    have hq : At c₀ (ds ++ [packet]) ms
        { c with frameReader, decoded := c.decoded ++ [packet] } :=
      { h with decoded := by simp [h.decoded] }
    refine .bind (Q := fun _ => At c₀ (ds ++ [packet]) ms) (.set fun _ _ => hq) fun _ => ?_
    refine now_meets.bind fun _ => .bind (update_meets fun _ h => { h with }) fun _ => ?_
    refine .ite (fun _ => ?_) fun _ => .pure fun _ h => ⟨hd, h⟩
    exact .bind (update_meets fun _ h => { h with }) fun _ => .pure fun _ h => ⟨hd, h⟩
  case h_3 =>
    refine .bind (Q := fun _ => At c₀ ds ms) (.set fun _ _ => { h with }) fun _ => ?_
    refine (serviceTimers_meets deadline).bind fun _ => ?_
    refine (nextReadTimeout_meets deadline).bind fun _ => ?_
    refine (onStream_meets _).bind fun _ => ?_
    split
    case h_1 => exact failDisconnected_bind_meets _ _
    case h_2 =>
      refine .get fun c h => ?_
      dsimp only
      refine .ite (fun _ => .of_eq (failDisconnected_bind_meets _ _) h) fun _ => .of_eq ?_ h
      refine (onStream_meets _).bind fun _ => ?_
      split
      case h_1 => exact failDisconnected_meets _
      case h_2 =>
        refine now_meets.bind fun _ => .bind (update_meets fun _ h => { h with }) fun _ => ?_
        exact .pure fun _ h => h
      case h_3 => exact .ite (fun _ => .pure fun _ h => h) fun _ => failDisconnected_meets _

theorem readPacketUntil_meets (deadline : Option Deadline) :
    Meets (At c₀ ds ms) (readPacketUntil deadline)
      (fun packet c => Decodable packet ∧ At c₀ (ds ++ [packet]) ms c)
      (Stopped c₀ fun e c => Lapsed c₀ e ∧ At c₀ ds ms c) := by
  refine .get fun c h => .of_eq ?_ h
  generalize c.stream.readable + 1 = rounds
  induction rounds
  case zero => exact .throw fun _ h => .blocked h.toSame
  case succ rounds ih =>
    refine (readPacketRound_meets deadline).bind fun packet => ?_
    cases packet
    case none => exact ih
    case some packet => exact .pure fun _ h => h

theorem disconnectOn_meets {P : MqttClient → Prop} {x : ClientM α} {Q : α → MqttClient → Prop}
    (h : Meets P x Q (Stopped c₀ soft)) (errors : Error → Bool) :
    Meets P (disconnectOn errors x) Q (Stopped c₀ fun e c => errors e = false ∧ soft e c) := by
  intro c hc
  have h := h c hc
  unfold disconnectOn
  cases hx : x c <;> rw [hx] at h
  case ok => exact h
  case error stop c' =>
    cases stop
    case blocked => exact .blocked h.left
    case failed e =>
      dsimp only
      cases he : errors e
      case true => exact .closed { h.left with } rfl
      case false =>
        refine ⟨h.left, fun e' he' => (h.right e' he').imp_right fun hs => ⟨?_, hs⟩⟩
        cases he'
        exact he

theorem acceptPublish_meets (hv : packet.HasValidId) :
    Meets (At c₀ ds ms) (acceptPublish packet) (fun _ => At c₀ ds (ms ++ [packet]))
      (Stopped c₀ fun e c => (Tight c₀ ∧ At c₀ ds (ms ++ [packet]) c) ∨
        ((∃ queue, e = .queueFull queue) ∧
          c₀.maxIncomingMessages ≤ (c₀.incoming ++ ms).length ∧ At c₀ ds ms c)) := by
  refine .get fun c h => .ite (fun hl => ?_) fun hl => ?_
  case refine_1 =>
    refine .throw_bind ?_
    rintro _ rfl
    rw [h.incoming, h.maxIncomingMessages] at hl
    exact .softly h.toSame (.inr ⟨⟨_, rfl⟩, hl, h⟩)
  case refine_2 =>
    have hq : At c₀ ds (ms ++ [packet]) { c with incoming := c.incoming ++ [packet] } :=
      { h with incoming := by simp [h.incoming] }
    refine .bind (Q := fun _ => At c₀ ds (ms ++ [packet])) (.set fun _ _ => hq) fun _ => ?_
    refine .bind (update_meets fun _ h => { h with }) fun _ => ?_
    refine .ite (fun hq => ?_) fun _ => .pure fun _ h => h
    cases hi : packet.packetId
    case none => simp [PublishPacket.HasValidId, hq, hi] at hv
    case some packetId =>
      simp only [PublishPacket.HasValidId, hq, hi] at hv
      exact soften (sendPuback_meets hv) fun _ _ h => .inl h

theorem readAckPacket_meets (deadline : Deadline) :
    Meets (At c₀ ds ms) (readAckPacket deadline)
      (fun packet c => Decodable packet ∧ At c₀ (ds ++ [packet]) ms c)
      (Stopped c₀ fun _ _ => Tight c₀) := by
  refine soften (disconnectOn_meets (readPacketUntil_meets _) _) fun e _ ⟨he, hl, _⟩ => ?_
  cases hl
  case inl ht => exact ht
  case inr hl =>
    have ⟨_, hl⟩ := hl
    simp [hl] at he

theorem acceptPublishDuringAck_meets (hv : packet.HasValidId) :
    Meets (At c₀ ds ms) (acceptPublishDuringAck packet) (fun _ => At c₀ ds (ms ++ [packet]))
      (Stopped c₀ fun _ _ => Tight c₀) := by
  refine soften (disconnectOn_meets (acceptPublish_meets hv) _) fun e _ ⟨he, hs⟩ => ?_
  cases hs
  case inl ht => exact ht.left
  case inr hq =>
    have ⟨⟨_, hq⟩, _⟩ := hq
    simp [hq] at he

-- The messages among the packets that have been consumed.
def messages (ds : List Packet) : List PublishPacket :=
  ds.filterMap Packet.message?

theorem messages_append_of_none (h : packet.message? = none) :
    messages (ds ++ [packet]) = messages ds := by
  simp [messages, h]

theorem messages_append_publish (packet : PublishPacket) :
    messages (ds ++ [.publish packet]) = messages ds ++ [packet] := by
  simp [messages, Packet.message?]

-- All messages that have been consumed since `c₀` have been queued.
def Settled (c₀ : MqttClient) (ds : List Packet) : MqttClient → Prop :=
  At c₀ ds (messages ds)

-- The end of a wait for an acknowledgement: the last packet that was consumed is this one.
def Acked (c₀ : MqttClient) (own : Packet → Prop) (c : MqttClient) : Prop :=
  ∃ ds ack, own ack ∧ Settled c₀ (ds ++ [ack]) c

def Rejected (e : Error) : Prop :=
  ∃ packet reasonCode, e = .ackRejected packet reasonCode

theorem waitForAck_go_meets {own : Packet → Prop} {finish : Packet → Option (ClientM Unit)}
    (hf : ∀ {packet action}, finish packet = some action → own packet ∧ packet.message? = none ∧
      ∀ ds ms, Meets (At c₀ ds ms) action (fun _ => At c₀ ds ms)
        (Stopped c₀ fun e c => Rejected e ∧ At c₀ ds ms c)) :
    Meets (Settled c₀ ds) (waitForAck.go name finish deadline rounds) (fun _ => Acked c₀ own)
      (Stopped c₀ fun e c => Tight c₀ ∨ (Rejected e ∧ Acked c₀ own c)) := by
  induction rounds generalizing ds
  case zero => exact .throw fun _ h => .blocked h.toSame
  case succ rounds ih =>
    refine .bind (soften (readAckPacket_meets deadline) fun _ _ ht => .inl ht) fun packet => ?_
    cases hfin : finish packet <;> dsimp only
    case some action =>
      have ⟨hown, hmsg, haction⟩ := hf hfin
      have hacked : ∀ c, At c₀ (ds ++ [packet]) (messages ds) c → Acked c₀ own c :=
        fun c h => ⟨ds, packet, hown, by rwa [Settled, messages_append_of_none hmsg]⟩
      exact (haction _ _).imp (fun _ h => h.right) (fun _ c h => hacked c h)
        fun _ c h => h.imp fun _ ⟨hr, ha⟩ => .inr ⟨hr, hacked c ha⟩
    case none =>
      have hnext : packet.message? = none →
          ∀ c, Decodable packet ∧ At c₀ (ds ++ [packet]) (messages ds) c → Settled c₀ (ds ++ [packet]) c :=
        fun hmsg c h => by rw [Settled, messages_append_of_none hmsg]; exact h.right
      split
      case h_1 packet =>
        refine .bind (Q := fun _ => Settled c₀ (ds ++ [.publish packet])) ?_ fun _ => ih
        intro c ⟨⟨_, _, hd⟩, h⟩
        have ha := acceptPublishDuringAck_meets (Packet.decode_publish hd) c h
        rw [Settled, messages_append_publish]
        split <;> rename_i heq <;> rw [heq] at ha
        · exact ha
        · exact ha.imp fun _ ht => .inl ht
      case h_2 => exact (failDisconnected_meets _).pre fun _ h => h.right
      case h_3 => exact ih.pre (hnext rfl)
      case h_4 => exact (failDisconnected_meets _).pre fun _ h => h.right

theorem waitForAck_meets {own : Packet → Prop} {finish : Packet → Option (ClientM Unit)}
    (hf : ∀ {packet action}, finish packet = some action → own packet ∧ packet.message? = none ∧
      ∀ ds ms, Meets (At c₀ ds ms) action (fun _ => At c₀ ds ms)
        (Stopped c₀ fun e c => Rejected e ∧ At c₀ ds ms c)) :
    Meets (Settled c₀ ds) (waitForAck name finish) (fun _ => Acked c₀ own)
      (Stopped c₀ fun e c => Tight c₀ ∨ (Overdue c₀ ∧ Settled c₀ ds c) ∨
        (Rejected e ∧ Acked c₀ own c)) := by
  refine .bind (soften (ackDeadline_meets name) fun _ _ h => .inr (.inl h)) fun deadline => ?_
  refine .get fun c h => .of_eq (soften (waitForAck_go_meets hf) fun _ _ h => ?_) h
  exact h.imp_right .inr

end MqttClient
end MqttWasi
