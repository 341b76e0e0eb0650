import MqttWasi.Client.Theorems.Speech

-- What a server reads from the blocking client.

namespace MqttWasi

-- How a client introduces itself
def ConnectOptions.introduction (options : ConnectOptions) : SentPacket :=
  .client (.connect (options.connectPacket options.maxIncomingMessages))

namespace MqttClient

open EStateM (Meets)

variable {c : MqttClient} {wire : Bytes} {frames : List Bytes}

-- Before the CONNACK, a client sends nothing by itself.
structure Mute (wire : Bytes) (frames : List Bytes) (c : MqttClient) : Prop where
  closed : c.connected = false
  sent : c.stream.wire = wire
  frames : c.handed = frames
  size : c.maxOutboundPacketSize = mqttMaxPacketSize

abbrev Keeps (P : MqttClient → Prop) (x : ClientM α) : Prop :=
  Meets P x (fun _ => P) fun _ _ => True

namespace Keeps

theorem lift (r : Except Error α) {P : MqttClient → Prop} :
    Meets P (lift r) (fun a c => r = .ok a ∧ P c) fun _ _ => True := by
  intro c h
  cases r
  case ok => exact ⟨rfl, h⟩
  case error => trivial

theorem onStream {P : MqttClient → Prop} {call : Transport → Option (Except IoError α × Transport)}
    (hc : ∀ transport result transport', call transport = some (result, transport') →
      transport'.wire = transport.wire)
    (hp : ∀ c stream, P c → stream.wire = c.stream.wire → P { c with stream }) :
    Keeps P (onStream call) := by
  refine .get fun c h => ?_
  cases hs : call c.stream
  case none => exact .throw fun _ _ => trivial
  case some r =>
    rintro _ rfl
    exact hp _ _ h (hc _ _ _ hs)

end Keeps

theorem Mute.stream (h : Mute wire frames c) {stream : Transport} (hw : stream.wire = c.stream.wire) :
    Mute wire frames { c with stream } :=
  { h with sent := hw.trans h.sent }

theorem now_mute : Keeps (Mute wire frames) now :=
  fun _ h => { h with }

theorem update_mute {f : MqttClient → MqttClient}
    (h : ∀ c, Mute wire frames c → Mute wire frames (f c)) : Keeps (Mute wire frames) (modify f) :=
  h

theorem serviceTimers_mute (deadline) : Keeps (Mute wire frames) (serviceTimers deadline) := by
  have hk (start) : Keeps (Mute wire frames) (serviceTimers.keepAlive start) := by
    intro c h
    simp only [serviceTimers.keepAlive, EStateM.bind_apply, EStateM.get_apply, h.closed]
    exact h
  refine now_mute.bind fun start => ?_
  split
  case h_1 => exact .ite (fun _ => .throw_bind fun _ _ => trivial) fun _ => hk start
  case h_2 => exact hk start

theorem readPacketRound_mute (deadline) : Keeps (Mute wire frames) (readPacketRound deadline) := by
  refine .get fun c h => ?_
  split
  case h_1 => exact fun _ _ => trivial
  case h_2 =>
    refine .bind (Q := fun _ => Mute wire frames) (.set fun _ _ => { h with }) fun _ => ?_
    refine now_mute.bind fun _ => .bind (update_mute fun _ h => { h with }) fun _ => ?_
    refine .ite (fun _ => ?_) fun _ => .pure fun _ h => h
    exact .bind (update_mute fun _ h => { h with }) fun _ => .pure fun _ h => h
  case h_3 =>
    refine .bind (Q := fun _ => Mute wire frames) (.set fun _ _ => { h with }) fun _ => ?_
    refine (serviceTimers_mute deadline).bind fun _ => ?_
    refine .bind (Q := fun _ => Mute wire frames)
      (now_mute.bind fun _ => .get fun _ h => .pure fun _ hs => hs ▸ h) fun _ => ?_
    refine (Keeps.onStream (fun _ _ _ => configure_wire) fun _ _ h => h.stream).bind fun _ => ?_
    split
    case h_1 => exact fun _ _ => trivial
    case h_2 =>
      refine .get fun c h => .of_eq ?_ h
      dsimp only
      refine .ite (fun _ _ _ => trivial) fun _ => ?_
      refine (Keeps.onStream (fun _ _ _ => read_wire) fun _ _ h => h.stream).bind fun _ => ?_
      split
      case h_1 => exact fun _ _ => trivial
      case h_2 =>
        refine now_mute.bind fun _ => .bind (update_mute fun _ h => { h with }) fun _ => ?_
        exact .pure fun _ h => h
      case h_3 => exact .ite (fun _ => .pure fun _ h => h) fun _ _ _ => trivial

theorem readPacketUntil_mute (deadline) : Keeps (Mute wire frames) (readPacketUntil deadline) := by
  refine .get fun c h => .of_eq ?_ h
  generalize c.stream.readable + 1 = rounds
  induction rounds
  case zero => exact .throw fun _ _ => trivial
  case succ rounds ih =>
    refine (readPacketRound_mute deadline).bind fun packet => ?_
    cases packet
    case none => exact ih
    case some packet => exact .pure fun _ h => h

theorem sendEncoded_mute (frame operation) :
    Meets (Mute wire frames) (sendEncoded frame operation)
      (fun _ c => frame.length ≤ mqttMaxPacketSize ∧ Mute (wire ++ frame) (frames ++ [frame]) c)
      fun _ _ => True := by
  refine .get fun c h => .ite (fun _ => .throw_bind fun _ _ => trivial) fun hl => .of_eq ?_ h
  have hl := Nat.not_lt.mp (h.size ▸ hl)
  refine .bind (Q := fun _ => Mute wire (frames ++ [frame])) (.modify fun c h => ?_) fun _ => ?_
  case refine_1 => exact { h with frames := (handedIn_handed c.history frame).trans (h.frames ▸ rfl) }
  have hw : Meets (Mute wire (frames ++ [frame])) (onStream (·.writeAll frame))
      (fun result c => result = .ok () → Mute (wire ++ frame) (frames ++ [frame]) c)
      fun _ _ => True := by
    refine .get fun c h => ?_
    dsimp only
    cases hs : c.stream.writeAll frame
    case none => exact .throw fun _ _ => trivial
    case some r =>
      obtain ⟨n, hn, hr⟩ := writeAll_accepts hs
      rintro _ rfl ho
      exact { h with sent := by rw [← h.sent, hn, hr ho] }
  refine hw.bind fun result => ?_
  cases result
  case error e =>
    obtain ⟨e, he⟩ := mapWriteResult_error e operation
    rw [he]
    exact fun _ _ => trivial
  case ok =>
    refine .bind (.pre (Keeps.onStream (fun _ _ _ => flush_wire) fun _ _ h => h.stream)
      fun _ h => h rfl) fun result => ?_
    cases result
    case error e =>
      obtain ⟨e, he⟩ := mapWriteResult_error e operation
      rw [he]
      exact fun _ _ => trivial
    case ok =>
      exact now_mute.bind fun _ => .modify fun _ h => ⟨hl, { h with }⟩

-- The connection request, and nothing else
structure Introduced (packet : SentPacket) (wire : Bytes) (frame : Bytes) (c : MqttClient) : Prop where
  encoded : packet.encode = .ok frame
  size : frame.length ≤ mqttMaxPacketSize
  sent : c.stream.wire = wire ++ frame
  frames : c.handed = [frame]

theorem Introduced.stream {packet : SentPacket} (h : Introduced packet wire frame c)
    {stream : Transport} (hw : stream.wire = c.stream.wire) :
    Introduced packet wire frame { c with stream } :=
  { h with sent := hw.trans h.sent }

theorem negotiate_introduced {packet : SentPacket} {frame : Bytes} (ack : ConnAckPacket) :
    Keeps (Introduced packet wire frame) (negotiate ack) := by
  refine .bind (Q := fun _ => Introduced packet wire frame) (fun _ h => { h with }) fun _ => ?_
  split
  case h_1 => exact .pure fun _ h => h
  case h_2 => exact .ite (fun _ => .throw fun _ _ => trivial) fun _ => .modify fun _ h => { h with }

theorem configure_keeps {P : MqttClient → Prop}
    (hp : ∀ c stream, P c → stream.wire = c.stream.wire → P { c with stream }) : Keeps P configure := by
  refine (Keeps.onStream (fun _ _ _ => configure_wire) hp).bind fun result => ?_
  cases result
  case error => exact .throw fun _ _ => trivial
  case ok => exact .pure fun _ h => h

theorem handshake_introduced (options : ConnectOptions) : Meets (Mute wire []) (handshake options)
    (fun _ c => ∃ frame, Introduced options.introduction wire frame c) fun _ _ => True := by
  have hc : Keeps (Mute wire []) configure := configure_keeps fun _ _ h => h.stream
  refine .get fun c h => .of_eq ?_ h
  refine (Keeps.lift _).bind fun _ => .assume fun _ => now_mute.bind fun _ => ?_
  refine .bind (Q := fun _ => Mute wire []) ?_ fun deadline => ?_
  case refine_1 =>
    refine now_mute.bind fun start => .get fun c h => .of_eq ?_ h
    cases c.clock.checkedAdd start options.connectTimeout
    case none => exact .throw fun _ _ => trivial
    case some => exact .pure fun _ h => h
  case refine_2 =>
    refine hc.bind fun _ => hc.bind fun _ => hc.bind fun _ => now_mute.bind fun _ => ?_
    refine .bind (Q := fun _ => Mute wire []) (fun _ h => { h with }) fun _ => ?_
    refine (Keeps.lift _).bind fun frame => .assume fun he => ?_
    refine (sendEncoded_mute frame _).bind fun _ => .assume fun hl => ?_
    refine (readPacketUntil_mute _).bind fun packet => ?_
    have hi : Keeps (Introduced options.introduction wire frame) configure :=
      configure_keeps fun _ _ h => h.stream
    split
    case h_2 => exact .throw fun _ _ => trivial
    case h_1 ack =>
      refine .ite (fun _ => .throw_bind fun _ _ => trivial) fun _ => ?_
      refine (Keeps.lift _).bind fun _ => .assume fun _ => ?_
      refine .bind (Q := fun _ => Introduced options.introduction wire frame) ?_ fun _ => ?_
      case refine_1 => exact (negotiate_introduced ack).pre fun c h => ⟨he, hl, h.sent, h.frames⟩
      case refine_2 =>
        refine .bind (Q := fun _ => Introduced _ wire frame) (fun _ h => { h with }) fun _ => ?_
        exact hi.bind fun _ => hi.imp (fun _ h => h) (fun _ _ h => ⟨frame, h⟩) fun _ _ h => h

theorem connectWith_introduced {stream : Transport} {clock : Clock}
    (h : connectWith stream clock options = .ok c) :
    ∃ frame, Introduced options.introduction stream.wire frame c := by
  unfold connectWith at h
  dsimp only at h
  split at h
  case h_1 hs =>
    cases h
    exact (handshake_introduced options).of_ok ⟨rfl, rfl, rfl, rfl⟩ hs
  case h_2 => cases h

variable {c₀ : MqttClient} {ms : List PublishPacket}

theorem shutdown_gone {f : Except IoError Unit → ClientM Unit}
    (he : ∀ e, ∃ e', f (.error e) = fail e') (hk : f (.ok ()) = pure ()) :
    Meets (fun c => c.connected = false ∧ Bounded c₀ ms c) (onStream Transport.shutdown >>= f)
      (fun _ => Consistent c₀ ms) (Halted c₀ ms fun _ => Live c₀ ms [] []) := by
  refine .bind (Q := fun _ c => c.connected = false ∧ Bounded c₀ ms c) ?_ fun result => ?_
  case refine_1 =>
    refine .get fun c ⟨hc, limbo, due, h⟩ => ?_
    cases hs : c.stream.shutdown
    case none => exact .throw fun _ hs => .blocked (hs ▸ h)
    case some r =>
      have hw := shutdown_wire hs
      rintro _ rfl
      exact ⟨hc, limbo, due, { h with wire := by rw [hw]; exact h.wire }⟩
  case refine_2 =>
    cases result
    case error e =>
      obtain ⟨e', he⟩ := he e
      rw [he]
      exact .throw fun _ h => ⟨h.right, fun _ _ => .inl h.left⟩
    case ok =>
      rw [hk]
      exact .pure fun _ h => .inr h

theorem disconnect_consistent : Meets (Consistent c₀ ms) disconnect (fun _ => Consistent c₀ ms)
    (Halted c₀ ms fun _ => Live c₀ ms [] []) := by
  have hs : Suits c₀ disconnectBytes none :=
    .of_asks (fun _ => disconnectBytes_asks) (by decide)
      fun _ => .of_type disconnectBytes_asks.typed (by decide) (by decide) _
  refine .get fun c h => .ite (fun hc => ?_) fun hc => ?_
  case refine_2 =>
    exact .of_eq (shutdown_gone (fun _ => ⟨_, rfl⟩) rfl) ⟨by simpa using hc, h.bounded⟩
  case refine_1 =>
    rcases h with h | ⟨hn, _⟩
    case inr => cases hn.symm.trans hc
    case inl =>
      rw [DisconnectPacket.encode_normal]
      refine .of_eq ?_ h
      refine .bind (Q := fun frame c => frame = disconnectBytes ∧ Live c₀ ms [] [] c)
        (fun _ h => ⟨rfl, h⟩) fun _ => .assume fun he => ?_
      subst he
      refine .bind (ease (sendEncoded_live hs _) fun _ _ h => h.right) fun _ => ?_
      refine .bind (setDisconnected_live.imp (fun _ h => h) (fun _ _ h => ⟨h.right, [], [], h.left⟩)
        fun _ _ h => h) fun _ => shutdown_gone (fun _ => ⟨_, rfl⟩) rfl

end MqttClient

-- The packet that a PUBACK acknowledges
def SentPacket.ackId : SentPacket → Option UInt16
  | pubAck packet => some packet.packetId
  | _             => none

theorem SentPacket.pubackId_encoded {packet : SentPacket} (h : packet.encode = .ok frame)
    (hl : frame.length < 2 ^ 32) : pubackId frame = packet.ackId := by
  cases packet
  case client packet =>
    obtain ⟨_, body, _, hw⟩ := ClientPacket.encode_eq_ok.mp h
    refine pubackId_of_type (t := packet.packetType) ?_ ?_
    case refine_1 => simp [packetTypeOf, splitFrame_withFixedHeader hw hl]
    case refine_2 => cases packet <;> exact fun h => by cases h
  case pubAck packet => exact PubAckPacket.pubackId_encoded h hl
  case pingReq =>
    cases h
    exact pubackId_of_type pingreqBytes_asks.typed (by decide)
  case disconnect packet =>
    obtain ⟨_, hw⟩ := DisconnectPacket.encode_eq_ok h
    refine pubackId_of_type (t := .disconnect) ?_ (by decide)
    simp [packetTypeOf, splitFrame_withFixedHeader hw hl]

namespace MqttClient

open EStateM (Meets)

variable {c₀ c c' : MqttClient}

-- Each call leaves an open client with all frames written, or closes it.
theorem perform_consistent (hn : 0 < c₀.maxIncomingMessages) (call : Call) :
    Meets (Consistent c₀ ms) call.perform (fun _ c => ∃ ms, Consistent c₀ ms c)
      (Halted c₀ ms fun _ => Live c₀ ms [] []) := by
  have hc {x : ClientM Unit} {c : MqttClient} (h : c.connected = false ∧ Bounded c₀ ms c)
      (hx : x c = .error (.failed .clientClosed) c) :
      Meets (· = c) x (fun _ c => ∃ ms, Consistent c₀ ms c) (Halted c₀ ms fun _ => Live c₀ ms [] []) := by
    rintro _ rfl
    rw [hx]
    exact ⟨h.right, fun _ _ => .inl h.left⟩
  cases call
  case operation op =>
    rintro c (h | h)
    case inl => exact (call_live op).imp (fun _ h => h) (fun _ _ h => ⟨ms, .inl h⟩) (fun _ _ h => h) c h
    case inr => exact hc h (call_of_closed h.left op) c rfl
  case recv =>
    rintro c (h | h)
    case inl =>
      have hr : Meets (Live c₀ ms [] []) recv (fun _ c => ∃ ms, Consistent c₀ ms c)
          (Halted c₀ ms fun _ => Live c₀ ms [] []) :=
        (recv_live hn).imp (fun _ h => h) (fun _ _ h => ⟨_, h⟩) fun _ _ h => h
      exact hr.discard c h
    case inr => exact hc h (EStateM.discard_error (recv_of_closed h.left)) c rfl
  case disconnect =>
    exact disconnect_consistent.imp (fun _ h => h) (fun _ _ h => ⟨ms, h⟩) fun _ _ h => h

end MqttClient

-- A client between calls, with the calls so far
inductive Talk (c₀ : MqttClient) : List Turn → MqttClient → Prop
  | start : Talk c₀ [] c₀
  | returned :
    (Talk c₀ turns c) → (call.perform c = .ok () c') →
    Talk c₀ (turns ++ [⟨call, c.connected, true⟩]) c'
  | failed :
    (Talk c₀ turns c) → (call.perform c = .error (.failed e) c') →
    Talk c₀ (turns ++ [⟨call, c.connected, false⟩]) c'

-- The last call may still be waiting for the transport.
inductive Conversation (c₀ : MqttClient) : List Turn → MqttClient → Prop
  | idle : (Talk c₀ turns c) → Conversation c₀ turns c
  | waiting :
    (Talk c₀ turns c) → (call.perform c = .error .blocked c') →
    Conversation c₀ (turns ++ [⟨call, c.connected, false⟩]) c'

-- What the calls send, one after the other
def speeches (turns : List Turn) : Language SentPacket :=
  (turns.map Turn.speech).prod

theorem speeches_append (turns : List Turn) (turn : Turn) :
    encoded (speeches turns) * encoded turn.speech ≤ encoded (speeches (turns ++ [turn])) := by
  have h := encoded_mul (speeches turns) turn.speech
  simpa [speeches] using h

open MqttClient

variable {c₀ c : MqttClient}

theorem Talk.consistent (hn : 0 < c₀.maxIncomingMessages) (h₀ : Live c₀ [] [] [] c₀)
    (h : Talk c₀ turns c) : ∃ ms, Consistent c₀ ms c := by
  induction h
  case start => exact ⟨[], .inl h₀⟩
  case returned hc ih =>
    obtain ⟨ms, ih⟩ := ih
    exact (perform_consistent hn _).of_ok ih hc
  case failed hc ih =>
    obtain ⟨ms, ih⟩ := ih
    exact ⟨ms, ((perform_consistent hn _).of_error ih hc).consistent⟩

theorem Conversation.bounded (hn : 0 < c₀.maxIncomingMessages) (h₀ : Live c₀ [] [] [] c₀)
    (h : Conversation c₀ turns c) : ∃ ms, Bounded c₀ ms c := by
  cases h
  case idle ht =>
    obtain ⟨ms, h⟩ := ht.consistent hn h₀
    exact ⟨ms, h.bounded⟩
  case waiting ht hc =>
    obtain ⟨ms, h⟩ := ht.consistent hn h₀
    exact ⟨ms, ((perform_consistent hn _).of_error h hc).left⟩

theorem Talk.appends (h : Talk c₀ turns c) :
    EStateM.Appends handed (encoded (speeches turns)) c₀ c := by
  induction h
  case start => exact .same rfl (nil_encoded rfl)
  case returned hc ih =>
    exact (ih.trans ((Turn.emits _).of_ok hc)).mono (speeches_append _ _)
  case failed hc ih =>
    exact (ih.trans ((Turn.emits _).of_error hc)).mono (speeches_append _ _)

theorem Conversation.appends (h : Conversation c₀ turns c) :
    EStateM.Appends handed (encoded (speeches turns)) c₀ c := by
  cases h
  case idle ht => exact ht.appends
  case waiting ht hc =>
    exact (ht.appends.trans ((Turn.emits _).of_error hc)).mono (speeches_append _ _)

theorem grown {call : Call} {x' : MqttClient} (h : c₀.stream.wire <+: c.stream.wire)
    (hx : (call.perform c).state = x') : c₀.stream.wire <+: x'.stream.wire := by
  have hg := call.perform_grows (c := c)
  rw [Grows, EStateM.Emits] at hg
  cases hc : call.perform c <;> rw [hc] at hg hx <;> subst hx
  all_goals
    obtain ⟨bytes, _, he⟩ := hg
    exact h.trans ⟨bytes, he.symm⟩

theorem Talk.grows (h : Talk c₀ turns c) : c₀.stream.wire <+: c.stream.wire := by
  induction h
  case start => exact List.prefix_rfl
  case returned hc ih => exact grown ih (congrArg (·.state) hc)
  case failed hc ih => exact grown ih (congrArg (·.state) hc)

theorem Conversation.grows (h : Conversation c₀ turns c) : c₀.stream.wire <+: c.stream.wire := by
  cases h
  case idle ht => exact ht.grows
  case waiting ht hc => exact grown ht.grows (congrArg (·.state) hc)

-- The frames that have been handed to the transport since `c₀`
theorem MqttClient.Kept.handed_eq {frames : List Bytes} (h : Kept c₀ ms limbo due c)
    (he : c.handed = c₀.handed ++ frames) : handedIn (since c₀ c) = frames := by
  have hs : c₀.history ++ since c₀ c = c.history := List.prefix_iff_eq_append.mp h.history
  rw [handed, ← hs, handedIn, List.filterMap_append] at he
  exact List.append_cancel_left he

theorem filterMap_ackId {packets : List SentPacket} {frames : List Bytes}
    (h : List.Forall₂ (fun frame packet => frame.length < 2 ^ 32 ∧ packet.encode = .ok frame) frames packets) :
    frames.filterMap pubackId = packets.filterMap (·.ackId) := by
  induction h
  case nil => rfl
  case cons h _ ih => rw [List.filterMap_cons, List.filterMap_cons, SentPacket.pubackId_encoded h.right h.left, ih]

-- The PUBACKs are for messages that have arrived.
theorem MqttClient.Kept.acks (h : Kept c₀ ms limbo due c) :
    acksIn (since c₀ c) <+: (messages c.decoded).filterMap (·.ackId) := by
  have hq : queuedIn (since c₀ c) <+: messages c.decoded := by
    rw [h.queued, h.decoded]
    exact List.prefix_append _ _
  exact (h.acksFirst _ List.prefix_rfl).trans (hq.filterMap _)

-- Whatever the transport has accepted, a server reads from it the connection request and then the
-- packets that the calls ask for, one call after the other, and waits for the rest of a frame. It
-- has read all of them as long as the client is open, and the PUBACKs among them are for the first
-- messages that have arrived, in order.
theorem Conversation.heard (stream : Transport) (clock : Clock) (options : ConnectOptions)
    (c₀ c : MqttClient) (turns : List Turn) (h₀ : connectWith stream clock options = .ok c₀)
    (h : Conversation c₀ turns c) :
    ∃ sent packets word part, c.stream.wire = stream.wire ++ sent ∧
      serverFraming.parse sent = { items := options.introduction :: packets, rest := .ok part } ∧
      word ∈ speeches turns ∧ packets <+: word ∧
      (Talk c₀ turns c → c.connected = true → packets = word ∧ part = []) ∧
      packets.filterMap (·.ackId) <+: (messages c.decoded).filterMap (·.ackId) := by
  obtain ⟨hn, hl⟩ := live_start h₀
  obtain ⟨frame₀, hi⟩ := connectWith_introduced h₀
  obtain ⟨ms, limbo, due, hk⟩ := h.bounded hn hl
  obtain ⟨frames, ⟨word, hw, hf⟩, he⟩ := h.appends
  obtain ⟨sent, hs⟩ := h.grows
  replace he := hk.handed_eq he
  have hsize : ∀ frame ∈ frames, frame.length < 2 ^ 32 := by
    intro frame hm
    have hp := (hk.permitted frame (he ▸ hm)).le_max
    exact Nat.lt_of_le_of_lt hp hk.max_lt
  have hf : List.Forall₂ (fun frame packet => SentPacket.encode packet = .ok frame) frames word := .flip hf
  have hb := (List.forall₂_and_left frames word).mpr ⟨hsize, hf⟩
  have hr : List.Forall₂ (fun packet frame => serverFraming.next frame = .item packet frame.length)
      word frames := .flip (hb.imp fun _ _ h => SentPacket.encode_next h.right h.left)
  have hd : serverFraming.parse frame₀ = { items := [options.introduction], rest := .ok [] } := by
    refine Framing.parse_eq_item.mpr (SentPacket.encode_next hi.encoded ?_)
    exact Nat.lt_of_le_of_lt hi.size (by decide)
  have hp : sent <+: frames.flatten := by
    have hw := hk.wire
    rw [he, ← hs] at hw
    exact (List.prefix_append_right_inj _).mp hw
  obtain ⟨packets, part, hx, hy⟩ := Framing.parse_part hr hp
  refine ⟨frame₀ ++ sent, packets, word, part, ?_, ?_, hw, hx, fun ht hc => ?_, ?_⟩
  case refine_1 => rw [← hs, hi.sent, List.append_assoc]
  case refine_2 => rw [Framing.parse_append_of_rest hd, hy]; rfl
  case refine_3 =>
    obtain ⟨ms, hl | ⟨hn, _⟩⟩ := ht.consistent hn hl
    case inr => cases hn.symm.trans hc
    case inl =>
      have hw := hl.whole
      rw [he, ← hs] at hw
      rw [List.append_cancel_left hw, Framing.parse_flatten hr, Framing.Outcome.mk.injEq,
        Except.ok.injEq] at hy
      exact ⟨hy.left.symm, hy.right.symm⟩
  case refine_4 =>
    have ha := hk.acks
    rw [acksIn, he, filterMap_ackId hb] at ha
    exact (hx.filterMap _).trans ha

-- A SUBSCRIBE, and the PUBACK of a message that arrives before the SUBACK
theorem answeringBroker_heard :
    ∃ c₀ c packets, connectWith answeringBroker steadyClock { clientId := "x" } = .ok c₀ ∧
      Conversation c₀ [⟨.operation (.subscribe "b" .atMostOnce), c₀.connected, true⟩] c ∧
      serverFraming.parse c.stream.wire =
        { items := ConnectOptions.introduction { clientId := "x" } :: packets, rest := .ok [] } ∧
      packets ∈ speeches [⟨.operation (.subscribe "b" .atMostOnce), c₀.connected, true⟩] := by
  obtain ⟨c₀, h₀, c, hc, _, hl⟩ := answeringBroker_run
  have ht : Talk c₀ [⟨.operation (.subscribe "b" .atMostOnce), c₀.connected, true⟩] c :=
    .returned .start hc
  obtain ⟨sent, packets, word, part, hs, hp, hw, _, ho, _⟩ := Conversation.heard _ _ _ _ _ _ h₀ (.idle ht)
  obtain ⟨rfl, rfl⟩ := ho ht hl
  have hs : c.stream.wire = sent := hs
  exact ⟨c₀, c, packets, h₀, .idle ht, hs ▸ hp, hw⟩

end MqttWasi
