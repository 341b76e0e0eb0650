import MqttWasi.Driver.Theorems.Frames
import MqttWasi.Client.Theorems.Capacity
import MqttWasi.Client.Theorems.Handshake

-- The order in which messages are queued and acknowledged, and what is handed to the transport.

namespace MqttWasi

namespace ClientAction

def queued? : ClientAction → Option PublishPacket
  | queued packet => some packet
  | handed _      => none

def handed? : ClientAction → Option Bytes
  | queued _     => none
  | handed frame => some frame

end ClientAction

-- The messages that have been queued, the frames that have been handed to the transport, and the
-- packet identifiers of the PUBACKs among them.

def queuedIn (log : List ClientAction) : List PublishPacket :=
  log.filterMap (·.queued?)

def handedIn (log : List ClientAction) : List Bytes :=
  log.filterMap (·.handed?)

def acksIn (log : List ClientAction) : List UInt16 :=
  (handedIn log).filterMap pubackId

-- The PUBACKs are those for the first messages that have been queued.
def AcksFirst (log : List ClientAction) : Prop :=
  acksIn log <+: (queuedIn log).filterMap (·.ackId)

-- A frame that a client may send.
structure Permitted (c₀ : MqttClient) (frame : Bytes) : Prop where
  le_max : frame.length ≤ c₀.maxOutboundPacketSize
  allowed : Allowed c₀.serverCapabilities frame

namespace MqttClient

open EStateM (Meets)

-- What has happened since `c₀`.
def since (c₀ c : MqttClient) : List ClientAction :=
  c.history.drop c₀.history.length

-- Since `c₀`, the messages `ms` have been received, those of `limbo` have been consumed and not been
-- queued, and the PUBACKs of `due` have not been sent for messages that have been.
structure Kept (c₀ : MqttClient) (ms limbo : List PublishPacket) (due : List UInt16)
    (c : MqttClient) : Prop extends Same c₀ c where
  capabilities : c.serverCapabilities = c₀.serverCapabilities
  max_lt : c₀.maxOutboundPacketSize < 2 ^ 32
  decoded : messages c.decoded = ms ++ c.incoming ++ limbo
  bound : c.incoming.length ≤ c.maxIncomingMessages
  history : c₀.history <+: c.history
  queued : queuedIn (since c₀ c) = ms ++ c.incoming
  acksFirst : ∀ log, log <+: since c₀ c → AcksFirst log
  tight : Tight c₀ → acksIn (since c₀ c) = []
  acked : ¬Tight c₀ → (queuedIn (since c₀ c)).filterMap (·.ackId) = acksIn (since c₀ c) ++ due
  permitted : ∀ frame ∈ handedIn (since c₀ c), Permitted c₀ frame
  wire : c.stream.wire <+: c₀.stream.wire ++ (handedIn (since c₀ c)).flatten

def Bounded (c₀ : MqttClient) (ms : List PublishPacket) (c : MqttClient) : Prop :=
  ∃ limbo due, Kept c₀ ms limbo due c

-- As long as the client is open, the frames have been written as a whole.
structure Live (c₀ : MqttClient) (ms limbo : List PublishPacket) (due : List UInt16)
    (c : MqttClient) : Prop extends Kept c₀ ms limbo due c where
  connected : c.connected = true
  whole : c.stream.wire = c₀.stream.wire ++ (handedIn (since c₀ c)).flatten

-- A call has failed or is waiting for the transport. If it has failed, either the client is closed
-- by that or the error is one of the `soft` ones.
def Halted (c₀ : MqttClient) (ms : List PublishPacket) (soft : Error → MqttClient → Prop)
    (stop : Stop) (c : MqttClient) : Prop :=
  Bounded c₀ ms c ∧ ∀ e, stop = .failed e → c.connected = false ∨ soft e c

variable {c₀ c : MqttClient} {ms limbo : List PublishPacket} {due : List UInt16}
  {ack : Option UInt16}
  {soft soft' : Error → MqttClient → Prop}

namespace Halted

theorem blocked (h : Kept c₀ ms limbo due c) : Halted c₀ ms soft .blocked c :=
  ⟨⟨limbo, due, h⟩, nofun⟩

theorem closed (h : Kept c₀ ms limbo due c) (hc : c.connected = false) :
    Halted c₀ ms soft stop c :=
  ⟨⟨limbo, due, h⟩, fun _ _ => .inl hc⟩

theorem softly (h : Kept c₀ ms limbo due c) (hs : soft e c) : Halted c₀ ms soft (.failed e) c :=
  ⟨⟨limbo, due, h⟩, fun _ he => .inr (Stop.failed.inj he ▸ hs)⟩

theorem imp (h : Halted c₀ ms soft stop c) (hs : ∀ e, soft e c → soft' e c) :
    Halted c₀ ms soft' stop c :=
  ⟨h.left, fun e he => (h.right e he).imp_right (hs e)⟩

end Halted

theorem ease {P : MqttClient → Prop} {x : ClientM α} {Q : α → MqttClient → Prop}
    (h : Meets P x Q (Halted c₀ ms soft)) (hs : ∀ e c, soft e c → soft' e c) :
    Meets P x Q (Halted c₀ ms soft') :=
  h.imp (fun _ h => h) (fun _ _ h => h) fun _ c h => h.imp fun e => hs e c

theorem now_live : Meets (Live c₀ ms limbo due) now (fun _ => Live c₀ ms limbo due)
    (Halted c₀ ms soft) :=
  fun _ h => { h with }

theorem update_live {f : MqttClient → MqttClient}
    (h : ∀ c, Live c₀ ms limbo due c → Live c₀ ms limbo due (f c)) :
    Meets (Live c₀ ms limbo due) (modify f) (fun _ => Live c₀ ms limbo due) (Halted c₀ ms soft) :=
  h

theorem setDisconnected_live :
    Meets (Live c₀ ms limbo due) setDisconnected
      (fun _ c => Kept c₀ ms limbo due c ∧ c.connected = false) (Halted c₀ ms soft) :=
  fun _ h => ⟨{ h.toKept with }, rfl⟩

theorem failDisconnected_live (Q : α → MqttClient → Prop) :
    Meets (Live c₀ ms limbo due) (failDisconnected e) Q (Halted c₀ ms soft) :=
  setDisconnected_live.bind fun _ => .throw fun _ h => .closed h.left h.right

theorem failDisconnected_bind_live (f : α → ClientM β) (Q : β → MqttClient → Prop) :
    Meets (Live c₀ ms limbo due) (failDisconnected e >>= f) Q (Halted c₀ ms soft) :=
  (failDisconnected_live fun _ _ => False).bind fun _ _ h => h.elim

-- The calls of the transport other than `write_all`.
theorem onStream_live {call : Transport → Option (Except IoError α × Transport)}
    (hw : ∀ transport result transport', call transport = some (result, transport') →
      transport'.wire = transport.wire) :
    Meets (Live c₀ ms limbo due) (onStream call) (fun _ => Live c₀ ms limbo due)
      (Halted c₀ ms soft) := by
  refine .get fun c h => ?_
  cases hc : call c.stream
  case none => exact .throw fun _ hs => .blocked (hs ▸ h.toKept)
  case some r =>
    have hw := hw _ _ _ hc
    rintro _ rfl
    exact { h with wire := by rw [hw]; exact h.wire, whole := by rw [hw]; exact h.whole }

theorem flush_wire (h : Transport.flush transport = some (result, transport')) :
    transport'.wire = transport.wire := by
  unfold Transport.flush at h
  split at h <;> cases h
  rfl

theorem configure_wire (h : Transport.configure transport = some (result, transport')) :
    transport'.wire = transport.wire := by
  unfold Transport.configure at h
  split at h <;> cases h
  rfl

theorem shutdown_wire (h : Transport.shutdown transport = some (result, transport')) :
    transport'.wire = transport.wire := by
  unfold Transport.shutdown at h
  split at h <;> cases h
  rfl

theorem read_wire (h : Transport.read transport capacity = some (result, transport')) :
    transport'.wire = transport.wire := by
  unfold Transport.read at h
  split at h <;> cases h <;> rfl

-- Some bytes of the buffer have been accepted, or all of them.
def Accepts (transport : Transport) (buf : Bytes) (result : Except IoError Unit)
    (transport' : Transport) : Prop :=
  ∃ n, transport'.wire = transport.wire ++ buf.take n ∧ (result = .ok () → buf.take n = buf)

theorem writeAll_go_accepts (h : Transport.writeAll.go calls transport buf =
    some (result, transport')) : Accepts transport buf result transport' := by
  induction calls generalizing transport buf
  case zero => cases h
  case succ calls ih =>
    rw [Transport.writeAll.go] at h
    split at h
    case isTrue hb =>
      cases h
      exact ⟨0, by simp, fun _ => by simp [hb]⟩
    case isFalse =>
      have ⟨⟨result', transport₁⟩, hw, h⟩ := Option.bind_eq_some_iff.mp h
      dsimp only at h
      unfold Transport.write at hw
      split at hw
      case h_1 => cases hw
      case h_2 n writes _ =>
        cases hw
        split at h
        case h_1 hn =>
          cases h
          exact ⟨0, by simp [Except.ok.inj hn], nofun⟩
        case h_2 written _ hn =>
          cases hn
          have ⟨m, hm, hr⟩ := ih h
          refine ⟨min n buf.length + m, ?_, fun hok => ?_⟩
          case refine_1 => rw [hm, List.append_assoc, List.take_add]
          case refine_2 => rw [List.take_add, hr hok, List.take_append_drop]
        case h_3 hn => cases hn
      case h_3 e writes _ =>
        cases hw
        dsimp only at h
        split at h
        case isTrue =>
          have hi := ih h
          exact hi
        case isFalse =>
          cases h
          exact ⟨0, by simp, nofun⟩

theorem writeAll_accepts (h : Transport.writeAll transport buf = some (result, transport')) :
    Accepts transport buf result transport' :=
  writeAll_go_accepts h

theorem since_append (h : c₀.history.length ≤ c.history.length) (action) :
    since c₀ { c with history := c.history ++ [action] } = since c₀ c ++ [action] :=
  List.drop_append_of_le_length h

theorem queuedIn_handed (log frame) : queuedIn (log ++ [.handed frame]) = queuedIn log := by
  simp [queuedIn, ClientAction.queued?]

theorem handedIn_handed (log frame) :
    handedIn (log ++ [.handed frame]) = handedIn log ++ [frame] := by
  simp [handedIn, ClientAction.handed?]

theorem acksIn_handed (log) (h : pubackId frame = ack) :
    acksIn (log ++ [.handed frame]) = acksIn log ++ ack.toList := by
  rw [acksIn, handedIn_handed, List.filterMap_append, acksIn]
  cases ack <;> simp [h]

theorem queuedIn_queued (log packet) :
    queuedIn (log ++ [.queued packet]) = queuedIn log ++ [packet] := by
  simp [queuedIn, ClientAction.queued?]

theorem handedIn_queued (log packet) : handedIn (log ++ [.queued packet]) = handedIn log := by
  simp [handedIn, ClientAction.handed?]

theorem acksIn_queued (log packet) : acksIn (log ++ [.queued packet]) = acksIn log := by
  rw [acksIn, handedIn_queued, acksIn]

-- A frame that fits, and is the PUBACK that is due if it is one.
structure Suits (c₀ : MqttClient) (frame : Bytes) (ack : Option UInt16) : Prop where
  pubackId : frame.length < 2 ^ 32 → pubackId frame = ack
  allowed : frame.length < 2 ^ 32 → Allowed c₀.serverCapabilities frame
  long : ack ≠ none → 4 ≤ frame.length

theorem Kept.hand (h : Kept c₀ ms limbo (ack.toList ++ due) c) (hs : Suits c₀ frame ack)
    (hl : frame.length ≤ c₀.maxOutboundPacketSize) :
    Kept c₀ ms limbo due { c with history := c.history ++ [.handed frame] } := by
  have he := since_append h.history.length_le (.handed frame)
  have hlt := Nat.lt_of_le_of_lt hl h.max_lt
  have ha := acksIn_handed (since c₀ c) (hs.pubackId hlt)
  have hq := queuedIn_handed (since c₀ c) frame
  have ht : Tight c₀ → ack = none := by
    intro ht
    by_contra hn
    exact absurd ht (Nat.not_lt.mpr ((hs.long hn).trans hl))
  refine { h with
    history := ?_, queued := ?_, acksFirst := ?_, tight := ?_, acked := ?_, permitted := ?_, wire := ?_ }
  case refine_1 => exact h.history.trans (List.prefix_append _ _)
  case refine_2 =>
    rw [he, hq]
    exact h.queued
  case refine_3 =>
    rw [he]
    intro log hp
    rcases List.prefix_concat_iff.mp hp with rfl | hp
    case inr => exact h.acksFirst log hp
    case inl =>
      rw [AcksFirst, ha, hq]
      by_cases hc : Tight c₀
      case pos => simp [h.tight hc, ht hc]
      case neg =>
        rw [h.acked hc, ← List.append_assoc]
        exact List.prefix_append _ _
  case refine_4 =>
    intro hc
    rw [he, ha, h.tight hc, ht hc]
    rfl
  case refine_5 =>
    intro hc
    rw [he, ha, hq, h.acked hc, List.append_assoc]
  case refine_6 =>
    rw [he, handedIn_handed]
    intro frame' hm
    rcases List.mem_append.mp hm with hm | hm
    case inl => exact h.permitted frame' hm
    case inr => rw [List.mem_singleton.mp hm]; exact ⟨hl, hs.allowed hlt⟩
  case refine_7 =>
    rw [he, handedIn_handed, List.flatten_append, ← List.append_assoc]
    exact h.wire.trans (List.prefix_append _ _)

-- The frame has been handed to the transport, which has not accepted any of it.
def Handing (c₀ : MqttClient) (ms limbo : List PublishPacket) (due : List UInt16) (frame : Bytes)
    (c : MqttClient) : Prop :=
  Kept c₀ ms limbo due c ∧ c.connected = true ∧
    c.stream.wire ++ frame = c₀.stream.wire ++ (handedIn (since c₀ c)).flatten

theorem record_handing (hs : Suits c₀ frame ack) (hl : frame.length ≤ c₀.maxOutboundPacketSize) :
    Meets (Live c₀ ms limbo (ack.toList ++ due)) (record (.handed frame))
      (fun _ => Handing c₀ ms limbo due frame) (Halted c₀ ms soft) := by
  intro c h
  refine ⟨h.toKept.hand hs hl, h.connected, ?_⟩
  change c.stream.wire ++ frame = _
  rw [since_append h.history.length_le, handedIn_handed, List.flatten_append, ← List.append_assoc, ← h.whole]
  simp

theorem writeAll_handing :
    Meets (Handing c₀ ms limbo due frame) (onStream (·.writeAll frame))
      (fun result c => Kept c₀ ms limbo due c ∧ (result = .ok () → Live c₀ ms limbo due c))
      (Halted c₀ ms soft) := by
  refine .get fun c ⟨h, hc, hw⟩ => ?_
  dsimp only
  cases ha : c.stream.writeAll frame
  case none => exact .throw fun _ hs => .blocked (hs ▸ h)
  case some r =>
    have ⟨n, hn, hr⟩ := writeAll_accepts ha
    have hk : Kept c₀ ms limbo due { c with stream := r.2 } := by
      refine { h with wire := ?_ }
      change r.2.wire <+: c₀.stream.wire ++ (handedIn (since c₀ c)).flatten
      rw [hn, ← hw]
      exact (List.prefix_append_right_inj _).mpr (List.take_prefix n frame)
    rintro _ rfl
    refine ⟨hk, fun ho => { hk with connected := hc, whole := ?_ }⟩
    change r.2.wire = _
    rw [hn, hr ho]
    exact hw

theorem mapWriteResult_error (e : IoError) (operation) :
    ∃ e', mapWriteResult (.error e) operation = .error e' := by
  simp only [mapWriteResult]
  split <;> exact ⟨_, rfl⟩

theorem sendEncoded_live (hs : Suits c₀ frame ack) (operation) :
    Meets (Live c₀ ms limbo (ack.toList ++ due)) (sendEncoded frame operation)
      (fun _ => Live c₀ ms limbo due)
      (Halted c₀ ms fun _ c => c₀.maxOutboundPacketSize < frame.length ∧
        Live c₀ ms limbo (ack.toList ++ due) c) := by
  refine .get fun c h => .ite (fun hl => ?_) fun hl => ?_
  case refine_1 =>
    refine .throw_bind ?_
    rintro _ rfl
    exact .softly h.toKept ⟨h.maxOutboundPacketSize ▸ hl, h⟩
  case refine_2 =>
    have hl := Nat.not_lt.mp (h.maxOutboundPacketSize ▸ hl)
    refine .of_eq (.bind (record_handing hs hl) fun _ => writeAll_handing.bind fun result => ?_) h
    cases result
    case error e =>
      have ⟨e, he⟩ := mapWriteResult_error e operation
      rw [he]
      exact fun c h => .closed (c := { c with connected := false }) { h.left with } rfl
    case ok =>
      refine .bind (Q := fun _ => Live c₀ ms limbo due) ?_ fun result => ?_
      case refine_1 => exact (onStream_live fun _ _ _ => flush_wire).pre fun _ h => h.right rfl
      case refine_2 =>
        cases result
        case error e =>
          have ⟨e, he⟩ := mapWriteResult_error e operation
          rw [he]
          exact failDisconnected_bind_live _ _
        case ok => exact now_live.bind fun _ => update_live fun _ h => { h with }

-- A broker that allows for no PUBACKs does not get any.
theorem Live.of_tight (h : Live c₀ ms limbo due c) (ht : Tight c₀) (due') :
    Live c₀ ms limbo due' c :=
  { h with acked := fun hn => absurd ht hn }

theorem Suits.puback (h : PubAckPacket.encode { packetId, reasonCode := 0x00 } = .ok frame) :
    Suits c₀ frame (some packetId) where
  pubackId hl := PubAckPacket.pubackId_encoded h hl
  allowed hl := .of_type (PubAckPacket.asks h hl).typed nofun nofun _
  long _ := by
    have ⟨_, _, hw⟩ := PubAckPacket.encode_eq_ok h
    have := withFixedHeader_length hw
    simp [u16ToBeBytes] at this
    omega

theorem Suits.of_asks {ack : Option (AckClass × UInt16)}
    (ha : frame.length < 2 ^ 32 → Asks frame t ack) (hn : t ≠ .pubAck)
    (hc : frame.length < 2 ^ 32 → Allowed c₀.serverCapabilities frame) : Suits c₀ frame none where
  pubackId hl := pubackId_of_type (ha hl).typed hn
  allowed := hc
  long h := absurd rfl h

theorem sendPuback_live (hi : packetId ≠ 0) :
    Meets (Live c₀ ms limbo (packetId :: due)) (sendPuback packetId)
      (fun _ => Live c₀ ms limbo due) (Halted c₀ ms fun _ => Live c₀ ms limbo due) := by
  have he := PubAckPacket.encode_success hi
  rw [sendPuback, he]
  refine ease (sendEncoded_live (.puback he) _) fun _ _ hs => hs.right.of_tight ?_ due
  simpa [Tight, u16ToBeBytes] using hs.left

-- The message is queued.
theorem Live.queue (h : Live c₀ ms [packet] [] c)
    (hl : c.incoming.length < c.maxIncomingMessages) :
    Live c₀ ms [] packet.ackId.toList
      { c with
        incoming := c.incoming ++ [packet], history := c.history ++ [.queued packet] } := by
  have he : since c₀
      { c with
        incoming := c.incoming ++ [packet], history := c.history ++ [.queued packet] } =
      since c₀ c ++ [.queued packet] := List.drop_append_of_le_length h.history.length_le
  have hq := queuedIn_queued (since c₀ c) packet
  have ha := acksIn_queued (since c₀ c) packet
  have hh := handedIn_queued (since c₀ c) packet
  refine { h with
    decoded := ?_, bound := ?_, history := ?_, queued := ?_, acksFirst := ?_, tight := ?_, acked := ?_
    permitted := ?_, wire := ?_, whole := ?_ }
  case refine_1 => simpa using h.decoded
  case refine_2 => simpa using Nat.succ_le_of_lt hl
  case refine_3 => exact h.history.trans (List.prefix_append _ _)
  case refine_4 => rw [he, hq, h.queued, List.append_assoc]
  case refine_5 =>
    rw [he]
    intro log hp
    rcases List.prefix_concat_iff.mp hp with rfl | hp
    case inr => exact h.acksFirst log hp
    case inl =>
      rw [AcksFirst, ha, hq, List.filterMap_append]
      exact (h.acksFirst _ (List.prefix_refl _)).trans (List.prefix_append _ _)
  case refine_6 =>
    intro ht
    rw [he, ha, h.tight ht]
  case refine_7 =>
    intro ht
    rw [he, ha, hq, List.filterMap_append, h.acked ht]
    cases hi : packet.ackId <;> simp [hi]
  case refine_8 =>
    rw [he, hh]
    exact h.permitted
  case refine_9 =>
    rw [he, hh]
    exact h.wire
  case refine_10 =>
    rw [he, hh]
    exact h.whole

theorem acceptPublish_room (hv : packet.HasValidId) :
    Meets (fun c => Live c₀ ms [packet] [] c ∧ c.incoming.length < c.maxIncomingMessages)
      (acceptPublish packet) (fun _ => Live c₀ ms [] [])
      (Halted c₀ ms fun _ => Live c₀ ms [] []) := by
  refine .get fun c ⟨h, hl⟩ => .ite (fun hf => absurd hl (Nat.not_lt.mpr hf)) fun _ => ?_
  refine .bind (Q := fun _ => (· = { c with incoming := c.incoming ++ [packet] }))
    (.set fun _ _ => rfl) fun _ => ?_
  refine .bind (Q := fun _ => Live c₀ ms [] packet.ackId.toList)
    (by rintro _ rfl; exact h.queue hl) fun _ => ?_
  refine .ite (fun hq => ?_) fun hq => .pure fun _ h => ?_
  case refine_2 =>
    rw [PublishPacket.ackId, if_neg hq] at h
    exact h
  case refine_1 =>
    cases hi : packet.packetId
    case none => simp [PublishPacket.HasValidId, hq, hi] at hv
    case some packetId =>
      simp only [PublishPacket.HasValidId, hq, hi] at hv
      rw [PublishPacket.ackId, if_pos hq, hi]
      exact sendPuback_live hv

theorem acceptPublish_full (h : c.maxIncomingMessages ≤ c.incoming.length) (packet) :
    acceptPublish packet c = .error (.failed (.queueFull "incoming message")) c := by
  simp [acceptPublish, EStateM.bind_apply, fail, h]

theorem acceptPublish_live (hv : packet.HasValidId) :
    Meets (Live c₀ ms [packet] []) (acceptPublish packet) (fun _ => Live c₀ ms [] [])
      (Halted c₀ ms fun e c => Live c₀ ms [] [] c ∨ (e.IsFull ∧ Live c₀ ms [packet] [] c)) := by
  intro c h
  by_cases hf : c.maxIncomingMessages ≤ c.incoming.length
  case pos =>
    rw [acceptPublish_full hf]
    exact .softly h.toKept (.inr ⟨⟨_, rfl⟩, h⟩)
  case neg => exact ease (acceptPublish_room hv) (fun _ _ h => .inl h) c ⟨h, Nat.lt_of_not_le hf⟩

theorem keepAlive_live (start : Instant) :
    Meets (Live c₀ ms [] []) (serviceTimers.keepAlive start) (fun _ => Live c₀ ms [] [])
      (Halted c₀ ms fun _ => Live c₀ ms [] []) := by
  refine .get fun c h => .ite (fun _ => .pure fun _ hs => hs ▸ h) fun _ => .of_eq ?_ h
  split
  case h_1 => exact .ite (fun _ => failDisconnected_live _) fun _ => .pure fun _ h => h
  case h_2 =>
    refine .ite (fun _ => ?_) fun _ => .pure fun _ h => h
    have hs : Suits c₀ pingreqBytes none :=
      .of_asks (fun _ => pingreqBytes_asks) nofun
        fun _ => .of_type pingreqBytes_asks.typed nofun nofun _
    refine .bind (ease (sendEncoded_live hs _) fun _ _ h => h.right) fun _ => ?_
    exact now_live.bind fun _ => update_live fun _ h => { h with }
  case h_3 => exact .pure fun _ h => h

theorem serviceTimers_live (deadline : Option Deadline) :
    Meets (Live c₀ ms [] []) (serviceTimers deadline) (fun _ => Live c₀ ms [] [])
      (Halted c₀ ms fun _ => Live c₀ ms [] []) := by
  refine now_live.bind fun start => ?_
  split
  case h_1 => exact .ite (fun _ => .throw_bind fun _ h => .softly h.toKept h) fun _ => keepAlive_live start
  case h_2 => exact keepAlive_live start

theorem nextReadTimeout_live (deadline : Option Deadline) :
    Meets (Live c₀ ms limbo due) (nextReadTimeout deadline) (fun _ => Live c₀ ms limbo due)
      (Halted c₀ ms soft) :=
  now_live.bind fun _ => .get fun _ h => .pure fun _ hs => hs ▸ h

theorem messages_append (ds : List Packet) (packet : Packet) :
    messages (ds ++ [packet]) = messages ds ++ packet.message?.toList := by
  cases h : packet.message? <;> simp [messages, h]

-- A packet has been read.
def Read (c₀ : MqttClient) (ms : List PublishPacket) (packet : Packet) (c : MqttClient) : Prop :=
  Decodable packet ∧ Live c₀ ms packet.message?.toList [] c

theorem readPacketRound_live (deadline : Option Deadline) :
    Meets (Live c₀ ms [] []) (readPacketRound deadline)
      (fun packet => packet.elim (Live c₀ ms [] []) (Read c₀ ms))
      (Halted c₀ ms fun _ => Live c₀ ms [] []) := by
  refine .get fun c h => ?_
  split
  case h_1 =>
    refine .bind (Q := fun _ => Live c₀ ms [] []) (.set fun _ _ => { h with }) fun _ => ?_
    exact failDisconnected_live _
  case h_2 packet frameReader hd =>
    have hd := tryDecode_decodable hd
    have hq : Live c₀ ms packet.message?.toList []
        { c with frameReader, decoded := c.decoded ++ [packet] } := by
      refine { h with decoded := ?_ }
      rw [messages_append, h.decoded, List.append_nil]
    refine .bind (Q := fun _ => Live c₀ ms packet.message?.toList []) (.set fun _ _ => hq) fun _ => ?_
    refine now_live.bind fun _ => .bind (update_live fun _ h => { h with }) fun _ => ?_
    refine .ite (fun _ => ?_) fun _ => .pure fun _ h => ⟨hd, h⟩
    exact .bind (update_live fun _ h => { h with }) fun _ => .pure fun _ h => ⟨hd, h⟩
  case h_3 =>
    refine .bind (Q := fun _ => Live c₀ ms [] []) (.set fun _ _ => { h with }) fun _ => ?_
    refine (serviceTimers_live deadline).bind fun _ => ?_
    refine (nextReadTimeout_live deadline).bind fun _ => ?_
    refine (onStream_live fun _ _ _ => configure_wire).bind fun _ => ?_
    split
    case h_1 => exact failDisconnected_bind_live _ _
    case h_2 =>
      refine .get fun c h => ?_
      dsimp only
      refine .ite (fun _ => .of_eq (failDisconnected_bind_live _ _) h) fun _ => .of_eq ?_ h
      refine (onStream_live fun _ _ _ => read_wire).bind fun _ => ?_
      split
      case h_1 => exact failDisconnected_live _
      case h_2 =>
        refine now_live.bind fun _ => .bind (update_live fun _ h => { h with }) fun _ => ?_
        exact .pure fun _ h => h
      case h_3 => exact .ite (fun _ => .pure fun _ h => h) fun _ => failDisconnected_live _

theorem readPacketUntil_live (deadline : Option Deadline) :
    Meets (Live c₀ ms [] []) (readPacketUntil deadline) (Read c₀ ms)
      (Halted c₀ ms fun _ => Live c₀ ms [] []) := by
  refine .get fun c h => .of_eq ?_ h
  generalize c.stream.readable + 1 = rounds
  induction rounds
  case zero => exact .throw fun _ h => .blocked h.toKept
  case succ rounds ih =>
    refine (readPacketRound_live deadline).bind fun packet => ?_
    cases packet
    case none => exact ih
    case some packet => exact .pure fun _ h => h

theorem disconnectOn_live {P : MqttClient → Prop} {x : ClientM α} {Q : α → MqttClient → Prop}
    (h : Meets P x Q (Halted c₀ ms soft)) (errors : Error → Bool) :
    Meets P (disconnectOn errors x) Q (Halted c₀ ms fun e c => errors e = false ∧ soft e c) := by
  intro c hc
  have h := h c hc
  unfold disconnectOn
  cases hx : x c <;> rw [hx] at h
  case ok => exact h
  case error stop c' =>
    have ⟨⟨limbo, due, hk⟩, hs⟩ := h
    cases stop
    case blocked => exact .blocked hk
    case failed e =>
      dsimp only
      cases he : errors e
      case true => exact .closed (c := { c' with connected := false }) { hk with } rfl
      case false =>
        refine ⟨h.left, fun e' he' => (hs e' he').imp_right fun hs => ⟨?_, hs⟩⟩
        cases he'
        exact he

theorem readAckPacket_live (deadline : Deadline) :
    Meets (Live c₀ ms [] []) (readAckPacket deadline) (Read c₀ ms)
      (Halted c₀ ms fun _ => Live c₀ ms [] []) :=
  ease (disconnectOn_live (readPacketUntil_live _) _) fun _ _ h => h.right

theorem acceptPublishDuringAck_live (hv : packet.HasValidId) :
    Meets (Live c₀ ms [packet] []) (acceptPublishDuringAck packet) (fun _ => Live c₀ ms [] [])
      (Halted c₀ ms fun _ => Live c₀ ms [] []) := by
  refine ease (disconnectOn_live (acceptPublish_live hv) _) fun e _ ⟨he, h⟩ => ?_
  rcases h with h | ⟨⟨_, hf⟩, _⟩
  case inl => exact h
  case inr => rw [hf] at he; cases he

theorem ackDeadline_live (name : String) :
    Meets (Live c₀ ms [] []) (ackDeadline name) (fun _ => Live c₀ ms [] [])
      (Halted c₀ ms fun _ => Live c₀ ms [] []) := by
  refine .get fun c h => .of_eq ?_ h
  refine now_live.bind fun start => .get fun c' h => .of_eq ?_ h
  cases c'.clock.checkedAdd start c.ackTimeout
  case none => exact .throw fun _ h => .softly h.toKept h
  case some => exact .pure fun _ h => h

theorem waitForAck_live {finish : Packet → Option (ClientM Unit)}
    (hf : ∀ {packet action}, finish packet = some action → packet.message? = none ∧
      Meets (Live c₀ ms [] []) action (fun _ => Live c₀ ms [] [])
        (Halted c₀ ms fun _ => Live c₀ ms [] [])) :
    Meets (Live c₀ ms [] []) (waitForAck name finish) (fun _ => Live c₀ ms [] [])
      (Halted c₀ ms fun _ => Live c₀ ms [] []) := by
  refine (ackDeadline_live name).bind fun deadline => .get fun c h => .of_eq ?_ h
  generalize c.pending + 1 = rounds
  induction rounds
  case zero => exact .throw fun _ h => .blocked h.toKept
  case succ rounds ih =>
    refine (readAckPacket_live deadline).bind fun packet => ?_
    cases hfin : finish packet <;> dsimp only
    case some action =>
      have ⟨hm, ha⟩ := hf hfin
      refine ha.pre fun c h => ?_
      have h := h.right
      rwa [hm] at h
    case none =>
      split
      case h_1 packet =>
        refine .bind (Q := fun _ => Live c₀ ms [] []) ?_ fun _ => ih
        exact fun c ⟨⟨_, _, hd⟩, h⟩ => acceptPublishDuringAck_live (Packet.decode_publish hd) c h
      case h_2 => exact (failDisconnected_live _).pre fun _ h => h.right
      case h_3 => exact ih.pre fun _ h => h.right
      case h_4 => exact (failDisconnected_live _).pre fun _ h => h.right

theorem lift_live (r : Except Error α) :
    Meets (Live c₀ ms limbo due) (lift r) (fun a c => r = .ok a ∧ Live c₀ ms limbo due c)
      (Halted c₀ ms fun _ => Live c₀ ms limbo due) := by
  intro c h
  cases r
  case ok => exact ⟨rfl, h⟩
  case error => exact .softly h.toKept h

theorem finishAck_live (r : Except Error Unit) :
    Meets (Live c₀ ms [] []) (finishAck r) (fun _ => Live c₀ ms [] [])
      (Halted c₀ ms fun _ => Live c₀ ms [] []) := by
  have hl : Meets (Live c₀ ms [] []) (lift r) (fun _ => Live c₀ ms [] [])
      (Halted c₀ ms fun _ => Live c₀ ms [] []) :=
    (lift_live r).imp (fun _ h => h) (fun _ _ h => h.right) fun _ _ h => h
  exact ease (disconnectOn_live hl _) fun _ _ h => h.right

theorem waitForPuback_live (packetId : UInt16) :
    Meets (Live c₀ ms [] []) (waitForPuback packetId) (fun _ => Live c₀ ms [] [])
      (Halted c₀ ms fun _ => Live c₀ ms [] []) := by
  refine waitForAck_live fun {packet action} h => ?_
  cases packet <;> simp only [Option.ite_none_right_eq_some, Option.some.injEq, reduceCtorEq] at h
  case pubAck ack =>
    refine ⟨rfl, h.right ▸ ?_⟩
    exact (lift_live _).imp (fun _ h => h) (fun _ _ h => h.right) fun _ _ h => h

theorem waitForSuback_live (packetId : UInt16) (requested : QoS) :
    Meets (Live c₀ ms [] []) (waitForSuback packetId requested) (fun _ => Live c₀ ms [] [])
      (Halted c₀ ms fun _ => Live c₀ ms [] []) := by
  refine waitForAck_live fun {packet action} h => ?_
  cases packet <;> simp only [Option.ite_none_right_eq_some, Option.some.injEq, reduceCtorEq] at h
  case subAck ack => exact ⟨rfl, h.right ▸ finishAck_live _⟩

theorem waitForUnsuback_live (packetId : UInt16) :
    Meets (Live c₀ ms [] []) (waitForUnsuback packetId) (fun _ => Live c₀ ms [] [])
      (Halted c₀ ms fun _ => Live c₀ ms [] []) := by
  refine waitForAck_live fun {packet action} h => ?_
  cases packet <;> simp only [Option.ite_none_right_eq_some, Option.some.injEq, reduceCtorEq] at h
  case unsubAck ack => exact ⟨rfl, h.right ▸ finishAck_live _⟩

theorem ensureConnected_live :
    Meets (Live c₀ ms [] []) ensureConnected (fun _ => Live c₀ ms [] [])
      (Halted c₀ ms fun _ => Live c₀ ms [] []) := by
  refine .get fun c h => .of_eq (.ite (fun _ => .throw fun _ h => .softly h.toKept h) fun _ => ?_) h
  exact .pure fun _ h => h

theorem takePacketId_live :
    Meets (Live c₀ ms [] []) takePacketId (fun _ => Live c₀ ms [] [])
      (Halted c₀ ms fun _ => Live c₀ ms [] []) :=
  fun _ h => { h with }

-- A packet is encoded and sent.
theorem transmit_live (encoded : Except Error Bytes) (operation)
    (hs : ∀ frame, encoded = .ok frame → Suits c₀ frame none) :
    Meets (Live c₀ ms [] []) (lift encoded >>= fun frame => sendEncoded frame operation)
      (fun _ => Live c₀ ms [] []) (Halted c₀ ms fun _ => Live c₀ ms [] []) := by
  refine (lift_live encoded).bind fun frame => .assume fun he => ?_
  exact ease (sendEncoded_live (hs frame he) operation) fun _ _ h => h.right

theorem publish_live (topic : String) (payload : Bytes) (options : PublishOptions) :
    Meets (Live c₀ ms [] []) (publish topic payload options) (fun _ => Live c₀ ms [] [])
      (Halted c₀ ms fun _ => Live c₀ ms [] []) := by
  refine ensureConnected_live.bind fun _ => ?_
  refine .bind (lift_live _) fun _ => .get fun c ⟨_, h⟩ => .of_eq ?_ h
  refine (lift_live _).bind fun _ => .assume fun hv => ?_
  rw [h.capabilities] at hv
  have hsend : ∀ packetId, Meets (Live c₀ ms [] []) (publish.send topic payload options packetId)
      (fun _ => Live c₀ ms [] []) (Halted c₀ ms fun _ => Live c₀ ms [] []) := by
    refine fun packetId => transmit_live _ _ fun frame he => ?_
    exact .of_asks (PublishPacket.asks he) nofun fun hl => PublishPacket.allowed he hl hv
  split
  case h_1 => exact hsend none
  case h_2 =>
    refine takePacketId_live.bind fun packetId => (hsend (some packetId)).bind fun _ => ?_
    exact waitForPuback_live packetId

theorem subscribe_live (filter : String) (qos : QoS) :
    Meets (Live c₀ ms [] []) (subscribe filter qos) (fun _ => Live c₀ ms [] [])
      (Halted c₀ ms fun _ => Live c₀ ms [] []) := by
  refine ensureConnected_live.bind fun _ => .get fun c h => .of_eq ?_ h
  refine (lift_live _).bind fun _ => .assume fun hv => ?_
  rw [h.capabilities] at hv
  have ⟨hw, hs⟩ := ServerCapabilities.validateSubscriptionFilter_ok hv
  refine takePacketId_live.bind fun packetId => ?_
  have hs : ∀ frame, SubscribePacket.encode
      { packetId, filters := [(filter, qos)], properties := {} } = .ok frame → Suits c₀ frame none :=
    fun frame he => .of_asks (SubscribePacket.asks he) nofun fun hl =>
      SubscribePacket.allowed he hl hw hs
  have h : Meets (Live c₀ ms [] []) _ _ (Halted c₀ ms fun _ => Live c₀ ms [] []) :=
    (transmit_live _ "subscribe" hs).bind fun _ => waitForSuback_live packetId qos
  rwa [bind_assoc] at h

theorem unsubscribe_live (filter : String) :
    Meets (Live c₀ ms [] []) (unsubscribe filter) (fun _ => Live c₀ ms [] [])
      (Halted c₀ ms fun _ => Live c₀ ms [] []) := by
  refine ensureConnected_live.bind fun _ => (lift_live _).bind fun _ => ?_
  refine .bind (takePacketId_live.pre fun _ h => h.right) fun packetId => ?_
  have hs : ∀ frame, UnsubscribePacket.encode { packetId, filters := [filter], properties := {} } =
      .ok frame → Suits c₀ frame none :=
    fun frame he => .of_asks (UnsubscribePacket.asks he) nofun fun hl =>
      .of_type (UnsubscribePacket.asks he hl).typed nofun nofun _
  have h : Meets (Live c₀ ms [] []) _ _ (Halted c₀ ms fun _ => Live c₀ ms [] []) :=
    (transmit_live _ "unsubscribe" hs).bind fun _ => waitForUnsuback_live packetId
  rwa [bind_assoc] at h

theorem call_live (op : Operation) :
    Meets (Live c₀ ms [] []) op.call (fun _ => Live c₀ ms [] [])
      (Halted c₀ ms fun _ => Live c₀ ms [] []) :=
  match op with
  | .publish ..     => publish_live _ _ _
  | .subscribe ..   => subscribe_live _ _
  | .unsubscribe .. => unsubscribe_live _

-- Between calls, a client is either open, or closed and will not do anything any more.
def Consistent (c₀ : MqttClient) (ms : List PublishPacket) (c : MqttClient) : Prop :=
  Live c₀ ms [] [] c ∨ (c.connected = false ∧ Bounded c₀ ms c)

theorem Consistent.bounded (h : Consistent c₀ ms c) : Bounded c₀ ms c :=
  h.elim (fun h => ⟨[], [], h.toKept⟩) (·.right)

theorem shutdown_bounded :
    Meets (Bounded c₀ ms) (onStream Transport.shutdown) (fun _ => Bounded c₀ ms)
      fun _ => Bounded c₀ ms := by
  refine .get fun c ⟨limbo, due, h⟩ => ?_
  cases hc : c.stream.shutdown
  case none => exact .throw fun _ hs => ⟨limbo, due, hs ▸ h⟩
  case some r =>
    have hw := shutdown_wire hc
    rintro _ rfl
    exact ⟨limbo, due, { h with wire := by rw [hw]; exact h.wire }⟩

theorem shutdown_bind_bounded {f : Except IoError Unit → ClientM Unit}
    (he : ∀ e, ∃ e', f (.error e) = fail e') (hk : f (.ok ()) = pure ()) :
    Meets (Bounded c₀ ms) (onStream Transport.shutdown >>= f) (fun _ => Bounded c₀ ms)
      fun _ => Bounded c₀ ms := by
  refine shutdown_bounded.bind fun result => ?_
  cases result
  case error e =>
    obtain ⟨e', he⟩ := he e
    rw [he]
    exact .throw fun _ h => h
  case ok =>
    rw [hk]
    exact .pure fun _ h => h

theorem disconnect_bounded :
    Meets (Consistent c₀ ms) disconnect (fun _ => Bounded c₀ ms) fun _ => Bounded c₀ ms := by
  have hs : Suits c₀ disconnectBytes none :=
    .of_asks (fun _ => disconnectBytes_asks) (by decide)
      fun _ => .of_type disconnectBytes_asks.typed (by decide) (by decide) _
  refine .get fun c h => .ite (fun hc => ?_) fun _ => .of_eq (shutdown_bind_bounded
    (fun _ => ⟨_, rfl⟩) rfl) h.bounded
  rcases h with h | ⟨hn, _⟩
  case inr => cases hn.symm.trans hc
  case inl =>
    rw [DisconnectPacket.encode_normal]
    refine .of_eq ?_ h
    refine .bind (Q := fun frame c => frame = disconnectBytes ∧ Live c₀ ms [] [] c) (fun _ h => ⟨rfl, h⟩)
      fun _ => .assume fun he => ?_
    subst he
    refine .bind (Q := fun _ => Live c₀ ms [] []) ?_ fun _ => ?_
    case refine_1 =>
      exact (sendEncoded_live hs _).imp (fun _ h => h) (fun _ _ h => h) fun _ _ h => h.left
    refine .bind (Q := fun _ => Bounded c₀ ms) (.modify fun c h => ?_) fun _ =>
      shutdown_bind_bounded (fun _ => ⟨_, rfl⟩) rfl
    exact ⟨[], [], { h.toKept with }⟩

theorem Halted.consistent (h : Halted c₀ ms (fun _ => Live c₀ ms [] []) (.failed e) c) :
    Consistent c₀ ms c :=
  (h.right e rfl).elim (fun hc => .inr ⟨hc, h.left⟩) .inl

theorem Live.pop (h : Live c₀ ms [] [] c) (hi : c.incoming = message :: rest) :
    Live c₀ (ms ++ [message]) [] [] { c with incoming := rest } := by
  refine { h with decoded := ?_, bound := ?_, queued := ?_ }
  case refine_1 => rw [h.decoded, hi]; simp
  case refine_2 =>
    have hb := h.bound
    rw [hi, List.length_cons] at hb
    exact Nat.le_of_succ_le hb
  case refine_3 =>
    change queuedIn (since c₀ c) = _
    rw [h.queued, hi]
    simp

theorem popIncoming_live {E : Stop → MqttClient → Prop} :
    Meets (Live c₀ ms [] []) popIncoming (fun message => Consistent c₀ (ms ++ message.toList)) E := by
  intro c h
  refine .inl ?_
  cases hi : c.incoming
  case nil =>
    have hp : { c with incoming := [] } = c := by rw [← hi]
    change Live c₀ (ms ++ []) [] [] { c with incoming := [] }
    rw [hp, List.append_nil]
    exact h
  case cons message rest => exact h.pop hi

theorem recv_go_live (rounds : Nat) :
    Meets (fun c => Live c₀ ms [] [] c ∧ Vacant c) (recv.go rounds)
      (fun message => Consistent c₀ (ms ++ message.toList))
      (Halted c₀ ms fun _ => Live c₀ ms [] []) := by
  induction rounds
  case zero => exact .throw fun _ h => .blocked h.left.toKept
  case succ rounds ih =>
    refine .bind (Q := fun packet c => Read c₀ ms packet c ∧ Vacant c) ?_ fun packet => ?_
    case refine_1 =>
      exact ((readPacketUntil_live none).and (readPacketUntil_vacant none)).imp (fun _ h => h)
        (fun _ _ h => ⟨h.left, h.right.right⟩) fun _ _ h => h.left
    case refine_2 =>
      split
      case h_1 packet =>
        refine .bind (Q := fun _ => Live c₀ ms [] []) (fun c ⟨⟨⟨_, _, hd⟩, h⟩, hv⟩ => ?_) fun _ =>
          popIncoming_live
        exact acceptPublish_room (Packet.decode_publish hd) c ⟨h, hv.room⟩
      case h_2 packet =>
        refine .bind (setDisconnected_live.pre fun _ h => h.left.right) fun _ => ?_
        refine .ite (fun _ => .pure fun _ h => .inr ⟨h.right, [], [], ?_⟩) fun _ => ?_
        case refine_1 =>
          rw [Option.toList_none, List.append_nil]
          exact h.left
        case refine_2 => exact .throw fun _ h => .closed h.left h.right
      case h_3 => exact ih.pre fun _ h => ⟨h.left.right, h.right⟩
      case h_4 => exact (failDisconnected_live _).pre fun _ h => h.left.right

theorem recv_live (hn : 0 < c₀.maxIncomingMessages) :
    Meets (Live c₀ ms [] []) recv (fun message => Consistent c₀ (ms ++ message.toList))
      (Halted c₀ ms fun _ => Live c₀ ms [] []) := by
  intro c h
  cases hi : c.incoming
  case cons message rest =>
    rw [recv_of_queued h.connected hi]
    exact .inl (h.pop hi)
  case nil =>
    rw [recv_of_empty h.connected hi]
    exact recv_go_live _ c ⟨h, hi, h.maxIncomingMessages ▸ hn⟩

theorem live_start {stream : Transport} {clock : Clock}
    (h : connectWith stream clock options = .ok c) :
    0 < c.maxIncomingMessages ∧ Live c [] [] [] c := by
  have ⟨hn, hi, hd, hm⟩ := connectWith_fresh h
  have ⟨hc, ack, hg⟩ := connectWith_greeted h
  have he : since c c = [] := List.drop_length
  refine ⟨hm ▸ hn, { (At.refl c).toSame with
    capabilities := rfl, max_lt := hg.max_lt, decoded := ?_, bound := ?_, history := List.prefix_refl _
    queued := ?_, acksFirst := ?_, tight := ?_, acked := ?_, permitted := ?_, wire := ?_
    connected := hc, whole := ?_ }⟩
  case refine_1 => rw [hd, hi]; rfl
  case refine_2 => rw [hi]; exact Nat.zero_le _
  case refine_3 => rw [he, hi]; rfl
  case refine_4 =>
    rw [he]
    intro log hl
    rw [List.prefix_nil.mp hl]
    exact List.prefix_refl _
  case refine_5 => exact fun _ => by rw [he]; rfl
  case refine_6 => exact fun _ => by rw [he]; rfl
  case refine_7 => rw [he]; nofun
  case refine_8 => rw [he]; simp [handedIn]
  case refine_9 => rw [he]; simp [handedIn]

end MqttClient

-- A client between calls, or while a call is waiting for the transport.
inductive Visit (c₀ : MqttClient) (ms : List PublishPacket) : MqttClient → Prop
  | idle : (Session c₀ xs ms c) → Visit c₀ ms c
  | calling {op : Operation} :
    (Session c₀ xs ms c) → (op.call c = .error .blocked c') → Visit c₀ ms c'
  | receiving : (Session c₀ xs ms c) → (c.recv = .error .blocked c') → Visit c₀ ms c'

namespace Session

open MqttClient

variable {c₀ c c' : MqttClient} {op : Operation}

theorem consistent (hn : 0 < c₀.maxIncomingMessages) (h₀ : Live c₀ [] [] [] c₀)
    (h : Session c₀ xs ms c) : Consistent c₀ ms c := by
  induction h
  case start => exact .inl h₀
  case returned hcall ih =>
    rcases ih with ih | ⟨hc, _⟩
    case inl => exact .inl ((call_live _).of_ok ih hcall)
    case inr => cases (call_of_closed hc _).symm.trans hcall
  case failed e _ _ hcall ih =>
    rcases ih with ih | ⟨hc, hk⟩
    case inl => exact ((call_live _).of_error ih hcall).consistent
    case inr =>
      cases (call_of_closed hc _).symm.trans hcall
      exact .inr ⟨hc, hk⟩
  case received hrecv ih =>
    rcases ih with ih | ⟨hc, _⟩
    case inl => exact (recv_live hn).of_ok ih hrecv
    case inr => cases (recv_of_closed hc).symm.trans hrecv
  case recvFailed hrecv ih =>
    rcases ih with ih | ⟨hc, hk⟩
    case inl => exact ((recv_live hn).of_error ih hrecv).consistent
    case inr =>
      cases (recv_of_closed hc).symm.trans hrecv
      exact .inr ⟨hc, hk⟩

end Session

theorem Visit.bounded {c₀ c : MqttClient} (hn : 0 < c₀.maxIncomingMessages)
    (h₀ : c₀.Live [] [] [] c₀) (h : Visit c₀ ms c) : c₀.Bounded ms c := by
  cases h
  case idle hs => exact (hs.consistent hn h₀).bounded
  case calling hs hcall =>
    rcases hs.consistent hn h₀ with h | h
    case inl => exact ((MqttClient.call_live _).of_error h hcall).left
    case inr => cases (MqttClient.call_of_closed h.left _).symm.trans hcall
  case receiving hs hrecv =>
    rcases hs.consistent hn h₀ with h | h
    case inl => exact ((MqttClient.recv_live hn).of_error h hrecv).left
    case inr => cases (MqttClient.recv_of_closed h.left).symm.trans hrecv

-- Messages are received in the order in which they arrive, and acknowledged in that order once they
-- have been queued.
theorem Visit.fifo (stream : Transport) (clock : Clock) (options : ConnectOptions)
    (c₀ c : MqttClient) (ms : List PublishPacket)
    (h₀ : MqttClient.connectWith stream clock options = .ok c₀) (h : Visit c₀ ms c) :
    ms <+: MqttClient.messages c.decoded ∧
    (∃ log, c.history = c₀.history ++ log ∧
      c.stream.wire <+: c₀.stream.wire ++ (handedIn log).flatten ∧
      queuedIn log = ms ++ c.incoming ∧ queuedIn log <+: MqttClient.messages c.decoded ∧
      ∀ log', log' <+: log → acksIn log' <+: (queuedIn log').filterMap (·.ackId)) ∧
    c.incoming.length ≤ options.maxIncomingMessages ∧
    ∀ e c', c.recv = .error (.failed e) c' → ∀ queue, e ≠ .queueFull queue := by
  have ⟨hn, hl⟩ := MqttClient.live_start h₀
  have ⟨_, _, hk⟩ := h.bounded hn hl
  have hd := hk.decoded
  rw [← hk.queued] at hd
  refine ⟨?_, ⟨_, ?_, hk.wire, hk.queued, ?_, hk.acksFirst⟩, ?_, fun e c' he queue hq => ?_⟩
  case refine_1 =>
    rw [hk.decoded, List.append_assoc]
    exact List.prefix_append _ _
  case refine_2 => exact (List.prefix_iff_eq_append.mp hk.history).symm
  case refine_3 =>
    rw [hd]
    exact List.prefix_append _ _
  case refine_4 =>
    have hb := hk.bound
    rwa [hk.maxIncomingMessages, (MqttClient.connectWith_fresh h₀).right.right.right] at hb
  case refine_5 =>
    have hn : 0 < c.maxIncomingMessages := hk.maxIncomingMessages ▸ hn
    exact MqttClient.recv_patient hn he ⟨queue, hq⟩

-- The message arrives while the client waits for the SUBACK.
theorem answeringBroker_fifo :
    ∃ c₀ c, MqttClient.connectWith MqttClient.answeringBroker MqttClient.steadyClock
        { clientId := "x" } = .ok c₀ ∧
      Visit c₀ [MqttClient.brokerMessage] c ∧
      [MqttClient.brokerMessage] <+: MqttClient.messages c.decoded := by
  have ⟨c₀, h₀, c, hc, hi, hl⟩ := MqttClient.answeringBroker_run
  have hr := MqttClient.recv_of_queued hl hi
  have hs : Session c₀ [⟨.subscribe "b" .atMostOnce, c₀, .ok (), c⟩] [] c := .returned .start hc
  have hv : Visit c₀ [MqttClient.brokerMessage] { c with incoming := [] } := .idle (.received hs hr)
  exact ⟨c₀, _, h₀, hv, (Visit.fifo _ _ _ _ _ _ h₀ hv).left⟩

end MqttWasi
