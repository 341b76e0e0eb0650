import MqttWasi.Library.Emission
import MqttWasi.Frame.Theorems.Server
import MqttWasi.Client.Theorems.Order

-- What the calls of the blocking client send, as languages of packets.

namespace MqttWasi

open scoped Computability

-- A single packet
def said (P : SentPacket → Prop) : Language SentPacket :=
  {packets | ∃ packet, P packet ∧ packets = [packet]}

-- What is sent while a call waits: acknowledgements and pings
def SentPacket.Background (packet : SentPacket) : Prop :=
  packet = .pingReq ∨ ∃ packetId, packet = .pubAck { packetId, reasonCode := 0x00 }

def background : Language SentPacket :=
  (said SentPacket.Background)∗

-- What an operation asks to be sent. The packet identifier is up to the client.
def Operation.Asks (op : Operation) (packet : SentPacket) : Prop :=
  match op with
  | .publish topic payload options => ∃ packetId, packet = .client (.publish
      { topic, packetId, payload, qos := options.qos, retain := options.retain, dup := false
        properties := options.properties })
  | .subscribe filter qos => ∃ packetId, packet = .client (.subscribe
      { packetId, filters := [(filter, qos)], properties := {} })
  | .unsubscribe filter => ∃ packetId, packet = .client (.unsubscribe
      { packetId, filters := [filter], properties := {} })

-- The calls of the blocking client. `disconnect` takes the client, so that nothing follows it.
inductive Call
  | operation (op : Operation)
  | recv
  | disconnect

def Call.perform : Call → ClientM Unit
  | operation op => op.call
  | recv         => discard MqttClient.recv
  | disconnect   => MqttClient.disconnect

-- A call, whether the client was open before it, and whether it has returned.
structure Turn where
  call : Call
  opened : Bool
  returned : Bool

def Turn.speech : Turn → Language SentPacket
  | ⟨_, false, _⟩                => 1
  | ⟨.operation op, true, true⟩  => said op.Asks * background
  | ⟨.operation op, true, false⟩ => 1 + said op.Asks * background
  | ⟨.recv, true, _⟩             => background
  | ⟨.disconnect, true, true⟩    => said (· = .disconnect { reasonCode := 0x00 })
  | ⟨.disconnect, true, false⟩   => 1 + said (· = .disconnect { reasonCode := 0x00 })

-- The frames of the packets
def encoded (L : Language SentPacket) : Language Bytes :=
  {frames | ∃ packets ∈ L, List.Forall₂ (fun packet frame => packet.encode = .ok frame) packets frames}

variable {L L' M : Language SentPacket}

theorem said_singleton {P : SentPacket → Prop} (h : P packet) : [packet] ∈ said P :=
  ⟨packet, h, rfl⟩

theorem nil_background : [] ∈ background :=
  Language.nil_mem_kstar _

theorem background_mul : background * background = background :=
  kstar_mul_kstar _

theorem said_background : said SentPacket.Background ≤ background :=
  le_kstar

theorem encoded_mono (h : L ≤ L') : encoded L ≤ encoded L' := by
  rintro frames ⟨packets, hp, hf⟩
  exact ⟨packets, h hp, hf⟩

theorem nil_encoded (h : [] ∈ L) : [] ∈ encoded L :=
  ⟨[], h, .nil⟩

theorem encoded_mul (L M) : encoded L * encoded M ≤ encoded (L * M) := by
  rintro _ ⟨frames, ⟨packets, hp, hf⟩, frames', ⟨packets', hp', hf'⟩, rfl⟩
  exact ⟨packets ++ packets', Language.append_mem_mul hp hp', List.rel_append hf hf'⟩

theorem encoded_background : encoded background * encoded background ≤ encoded background := by
  have h := encoded_mul background background
  rwa [background_mul] at h

namespace MqttClient

open EStateM (Emits)

variable {c c' : MqttClient}

-- The frames that have been handed to the transport
def handed (c : MqttClient) : List Bytes :=
  handedIn c.history

-- What the transport has been given and what it has accepted
def progress (c : MqttClient) : List Bytes × Bytes :=
  (c.handed, c.stream.wire)

-- The transport keeps what it has accepted.
def Grows (c : MqttClient) (x : ClientM α) : Prop :=
  Emits (·.stream.wire) ⊤ ⊤ c x

theorem Grows.silent {x : ClientM α} (h : (x c).state.stream.wire = c.stream.wire) : Grows c x :=
  Emits.silent h trivial trivial

theorem Grows.bind {x : ClientM α} {f : α → ClientM β} (hx : Grows c x) (hf : ∀ a c', Grows c' (f a)) :
    Grows c (x >>= f) :=
  Emits.seq le_top hx hf

-- An action that sends what a client sends by itself.
structure Hums (c : MqttClient) (x : ClientM α) : Prop where
  sends : Emits handed (encoded background) (encoded background) c x
  grows : Grows c x

namespace Hums

theorem silent {x : ClientM α} (h : progress (x c).state = c.progress) : Hums c x := by
  rw [progress, progress, Prod.mk.injEq] at h
  have hn := nil_encoded nil_background
  exact ⟨.silent h.left hn hn, .silent h.right⟩

theorem pure (a : α) : Hums c (pure a) :=
  silent rfl

theorem fail (e : Error) : Hums c (fail e : ClientM α) :=
  silent rfl

theorem fail_bind (e : Error) (f : α → ClientM β) : Hums c (MqttClient.fail e >>= f) :=
  silent rfl

theorem failDisconnected (e : Error) : Hums c (failDisconnected e : ClientM α) :=
  silent rfl

theorem failDisconnected_bind (e : Error) (f : α → ClientM β) :
    Hums c (MqttClient.failDisconnected e >>= f) :=
  silent rfl

theorem bind {x : ClientM α} {f : α → ClientM β} (hx : Hums c x) (hf : ∀ a c', Hums c' (f a)) :
    Hums c (x >>= f) where
  sends := .seq encoded_background hx.sends fun a c' => (hf a c').sends
  grows := hx.grows.bind fun a c' => (hf a c').grows

theorem get {f : MqttClient → ClientM β} (h : Hums c (f c)) : Hums c (get >>= f) :=
  ⟨h.sends, h.grows⟩

theorem ite {p : Prop} [Decidable p] {x y : ClientM α} (hx : Hums c x) (hy : Hums c y) :
    Hums c (if p then x else y) := by
  split
  case isTrue => exact hx
  case isFalse => exact hy

theorem discard {x : ClientM α} (h : Hums c x) : Hums c (discard x) :=
  ⟨h.sends.discard, Emits.discard h.grows⟩

end Hums

theorem lift_progress (r : Except Error α) : progress ((lift r) c).state = c.progress := by
  cases r <;> rfl

theorem ensureConnected_progress : progress (ensureConnected c).state = c.progress := by
  rw [ensureConnected, EStateM.bind_ok (EStateM.get_apply _), EStateM.ite_apply]
  split <;> rfl

-- The calls of the transport other than `write_all`
theorem onStream_progress {call : Transport → Option (Except IoError α × Transport)}
    (hw : ∀ transport result transport', call transport = some (result, transport') →
      transport'.wire = transport.wire) : progress ((onStream call) c).state = c.progress := by
  rw [onStream, EStateM.bind_ok (EStateM.get_apply _)]
  cases hc : call c.stream
  case none => rfl
  case some r =>
    change (c.handed, r.2.wire) = (c.handed, c.stream.wire)
    rw [hw _ _ _ hc]

theorem writeAll_grows (frame) : Grows c (onStream (·.writeAll frame)) := by
  rw [Grows, onStream]
  refine .get ?_
  cases hc : c.stream.writeAll frame
  case none => exact .throw trivial
  case some r =>
    obtain ⟨n, hn, _⟩ := writeAll_accepts hc
    exact ⟨frame.take n, trivial, hn⟩

theorem handed_onStream (call : Transport → Option (Except IoError α × Transport)) :
    handed ((onStream call) c).state = c.handed := by
  rw [onStream, EStateM.bind_ok (EStateM.get_apply _)]
  cases call c.stream <;> rfl

theorem sendEncoded_grows (frame operation) : Grows c (sendEncoded frame operation) := by
  refine Emits.get (Emits.ite (fun _ => Emits.throw_bind trivial) fun _ => ?_)
  refine Grows.bind (.silent rfl) fun _ c => Grows.bind (writeAll_grows frame) fun result c => ?_
  split
  case h_1 => exact .silent rfl
  case h_2 =>
    have hf (c) := onStream_progress (c := c) fun _ _ _ => flush_wire
    refine Grows.bind (.silent (Prod.mk.inj (hf c)).right) fun result c => ?_
    dsimp only
    split
    case h_1 => exact .silent rfl
    case h_2 => exact .silent rfl

-- A frame is handed to the transport as a whole, or an error is returned before that.
theorem sendEncoded_emits {P : SentPacket → Prop} (hp : P packet) (he : packet.encode = .ok frame)
    (operation) : Emits handed (encoded (said P)) (encoded (1 + said P)) c
      (sendEncoded frame operation) := by
  have hr (c) : Emits handed (encoded (said P)) (encoded (1 + said P)) c (record (.handed frame)) :=
    ⟨[frame], ⟨[packet], said_singleton hp, .cons he .nil⟩, handedIn_handed c.history frame⟩
  have hn : [] ∈ encoded (1 + said P) := nil_encoded (.inl rfl)
  have hs : [] ∈ (1 : Language Bytes) := Language.nil_mem_one
  have hl : encoded (said P) * 1 ≤ encoded (1 + said P) := by
    rw [mul_one]
    exact encoded_mono fun _ => .inr
  refine .get (.ite (fun _ => .throw_bind hn) fun _ => ?_)
  rw [← mul_one (encoded (said P))]
  refine (hr c).bind (fun _ c _ => .after (handed_onStream _) (fun result c _ => ?_) hs) hl
  split
  case h_1 => exact .silent rfl hs hs
  case h_2 =>
    refine .after (handed_onStream _) (fun result c _ => ?_) hs
    dsimp only
    split
    case h_1 => exact .silent rfl hs hs
    case h_2 => exact .silent rfl hs hs

theorem sendEncoded_hums {packet : SentPacket} (hp : packet.Background) (he : packet.encode = .ok frame) (operation) :
    Hums c (sendEncoded frame operation) where
  sends := (sendEncoded_emits hp he operation).mono (encoded_mono said_background)
    (encoded_mono (sup_le (one_le_kstar) said_background))
  grows := sendEncoded_grows frame operation

theorem sendPuback_hums (packetId) : Hums c (sendPuback packetId) := by
  rw [sendPuback]
  cases he : PubAckPacket.encode { packetId, reasonCode := 0x00 }
  case error => exact .silent rfl
  case ok frame =>
    have hp : SentPacket.Background (.pubAck { packetId, reasonCode := 0x00 }) := .inr ⟨packetId, rfl⟩
    exact sendEncoded_hums hp he _

theorem acceptPublish_hums (packet) : Hums c (acceptPublish packet) := by
  refine .get (.ite (.fail_bind _ _) (.bind (.silent rfl) fun _ c => ?_))
  have hq (c : MqttClient) : progress (record (.queued packet) c).state = c.progress :=
    Prod.ext (handedIn_queued c.history packet) rfl
  refine .bind (.silent (hq c)) fun _ c => .ite ?_ (.pure _)
  split
  case h_1 packetId _ => exact sendPuback_hums packetId
  case h_2 => exact .fail _

theorem keepAlive_hums (start) : Hums c (serviceTimers.keepAlive start) := by
  refine .get (.ite (.pure _) ?_)
  split
  case h_1 => exact .ite (.failDisconnected _) (.pure _)
  case h_2 =>
    have hp : SentPacket.Background .pingReq := .inl rfl
    exact .ite (.bind (sendEncoded_hums hp rfl _) fun _ _ => .bind (.silent rfl) fun _ _ => .silent rfl) (.pure _)
  case h_3 => exact .pure _

theorem serviceTimers_hums (deadline) : Hums c (serviceTimers deadline) := by
  refine .bind (.silent rfl) fun start c => ?_
  split
  case h_1 => exact .ite (.fail_bind _ _) (keepAlive_hums start)
  case h_2 => exact keepAlive_hums start

theorem readPacketRound_hums (deadline) : Hums c (readPacketRound deadline) := by
  refine .get ?_
  split
  case h_1 => exact .bind (.silent rfl) fun _ _ => .failDisconnected _
  case h_2 =>
    refine .bind (.silent rfl) fun _ _ => .bind (.silent rfl) fun _ _ => .bind (.silent rfl) fun _ _ => ?_
    exact .ite (.bind (.silent rfl) fun _ _ => .pure _) (.pure _)
  case h_3 =>
    refine .bind (.silent rfl) fun _ _ => .bind (serviceTimers_hums deadline) fun _ _ => ?_
    refine .bind (.silent rfl) fun _ _ => ?_
    refine .bind (.silent (onStream_progress fun _ _ _ => configure_wire)) fun _ c => ?_
    split
    case h_1 => exact .failDisconnected_bind _ _
    case h_2 =>
      refine .get ?_
      dsimp only
      refine .ite (.failDisconnected_bind _ _) ?_
      refine .bind (.silent (onStream_progress fun _ _ _ => read_wire)) fun _ c => ?_
      split
      case h_1 => exact .failDisconnected _
      case h_2 => exact .bind (.silent rfl) fun _ _ => .bind (.silent rfl) fun _ _ => .pure _
      case h_3 => exact .ite (.pure _) (.failDisconnected _)

theorem readPacketUntil_hums (deadline) : Hums c (readPacketUntil deadline) := by
  refine .get ?_
  generalize c.stream.readable + 1 = rounds
  induction rounds generalizing c
  case zero => exact .silent rfl
  case succ rounds ih =>
    refine .bind (readPacketRound_hums deadline) fun packet c => ?_
    cases packet
    case none => exact ih
    case some packet => exact .pure _

theorem Hums.disconnectOn {x : ClientM α} (h : Hums c x) (errors) : Hums c (disconnectOn errors x) := by
  obtain ⟨hs, hg⟩ := h
  rw [Grows] at hg
  rw [Emits] at hs hg
  have hd : Emits handed (encoded background) (encoded background) c (MqttClient.disconnectOn errors x) ∧
      Emits (·.stream.wire) ⊤ ⊤ c (MqttClient.disconnectOn errors x) := by
    rw [Emits, Emits, MqttClient.disconnectOn]
    cases hx : x c <;> rw [hx] at hs hg
    case ok => exact ⟨hs, hg⟩
    case error stop c' =>
      cases stop
      case blocked => exact ⟨hs, hg⟩
      case failed e =>
        dsimp only
        cases errors e <;> exact ⟨hs, hg⟩
  exact ⟨hd.left, hd.right⟩

theorem deadlineAfter_hums (timeout operation) : Hums c (deadlineAfter timeout operation) := by
  refine .bind (.silent rfl) fun start c => .get ?_
  cases c.clock.checkedAdd start timeout
  case none => exact .fail _
  case some => exact .pure _

theorem waitForAck_hums {finish : Packet → Option (ClientM Unit)}
    (hf : ∀ packet action c, finish packet = some action → Hums c action) (name) :
    Hums c (waitForAck name finish) := by
  refine .bind (.get (deadlineAfter_hums _ _)) fun deadline c => .get ?_
  generalize c.pending + 1 = rounds
  induction rounds generalizing c
  case zero => exact .silent rfl
  case succ rounds ih =>
    refine .bind ((readPacketUntil_hums _).disconnectOn _) fun packet c => ?_
    cases h : finish packet <;> dsimp only
    case some action => exact hf packet action c h
    case none =>
      split
      case h_1 packet => exact .bind ((acceptPublish_hums packet).disconnectOn _) fun _ _ => ih _
      case h_2 => exact .failDisconnected _
      case h_3 => exact ih c
      case h_4 => exact .failDisconnected _

theorem finishAck_hums (r) : Hums c (finishAck r) :=
  Hums.disconnectOn (.silent (lift_progress r)) _

theorem waitForPuback_hums (packetId) : Hums c (waitForPuback packetId) := by
  refine waitForAck_hums (fun packet action c h => ?_) _
  cases packet <;> simp only [Option.ite_none_right_eq_some, Option.some.injEq, reduceCtorEq] at h
  case pubAck => exact h.right ▸ .silent (lift_progress _)

theorem waitForSuback_hums (packetId requested) : Hums c (waitForSuback packetId requested) := by
  refine waitForAck_hums (fun packet action c h => ?_) _
  cases packet <;> simp only [Option.ite_none_right_eq_some, Option.some.injEq, reduceCtorEq] at h
  case subAck => exact h.right ▸ finishAck_hums _

theorem waitForUnsuback_hums (packetId) : Hums c (waitForUnsuback packetId) := by
  refine waitForAck_hums (fun packet action c h => ?_) _
  cases packet <;> simp only [Option.ite_none_right_eq_some, Option.some.injEq, reduceCtorEq] at h
  case unsubAck => exact h.right ▸ finishAck_hums _

theorem recv_hums : Hums c recv := by
  have hp (c) : Hums c popIncoming := .silent rfl
  refine .bind (.get (.ite (.fail _) (.pure _))) fun _ c => .bind (hp c) fun message c => ?_
  cases message
  case some message => exact .pure _
  case none =>
    refine .get ?_
    generalize c.pending + 1 = rounds
    induction rounds generalizing c
    case zero => exact .silent rfl
    case succ rounds ih =>
      refine .bind (readPacketUntil_hums none) fun packet c => ?_
      split
      case h_1 packet => exact .bind (acceptPublish_hums packet) fun _ c => hp c
      case h_2 => exact .bind (.silent rfl) fun _ _ => .ite (.pure _) (.fail _)
      case h_3 => exact ih c
      case h_4 => exact .failDisconnected _

-- An action that sends what the operation asks for, and then what a client sends by itself. If it
-- fails, it may have sent nothing.
structure Voices (op : Operation) (c : MqttClient) (x : ClientM α) : Prop where
  sends : Emits handed (encoded (said op.Asks * background)) (encoded (1 + said op.Asks * background)) c x
  grows : Grows c x

namespace Voices

variable {op : Operation}

theorem after {x : ClientM α} {f : α → ClientM β} (h : progress (x c).state = c.progress)
    (hf : ∀ a c', Voices op c' (f a)) : Voices op c (x >>= f) := by
  rw [progress, progress, Prod.mk.injEq] at h
  exact ⟨.after h.left (fun a c' _ => (hf a c').sends) (nil_encoded (.inl rfl)),
    Grows.bind (.silent h.right) fun a c' => (hf a c').grows⟩

theorem get {f : MqttClient → ClientM β} (h : Voices op c (f c)) : Voices op c (get >>= f) :=
  ⟨h.sends, h.grows⟩

-- The packet is encoded and sent, and the answer is waited for.
theorem exchange {packet : SentPacket} {wait : ClientM α} (hp : op.Asks packet) (operation)
    (hw : ∀ c, Hums c wait) : Voices op c
      (lift packet.encode >>= fun frame => sendEncoded frame operation >>= fun _ => wait) := by
  cases he : packet.encode
  case error => exact ⟨.throw_bind (nil_encoded (.inl rfl)), .silent rfl⟩
  case ok frame =>
    have hs : said op.Asks ≤ said op.Asks * background :=
      fun packets hp => ⟨packets, hp, [], nil_background, List.append_nil packets⟩
    have hl := encoded_mul (said op.Asks) background
    have hx : Emits handed (encoded (said op.Asks)) (encoded (1 + said op.Asks * background)) c
        (sendEncoded frame operation) :=
      (sendEncoded_emits hp he operation).mono le_rfl (encoded_mono (add_le_add_right hs 1))
    have h := hx.bind (fun _ c _ => (hw c).sends) (hl.trans (encoded_mono le_add_self))
    exact ⟨h.mono hl le_rfl, (sendEncoded_grows frame operation).bind fun _ c => (hw c).grows⟩

-- Nothing is waited for.
theorem send {packet : SentPacket} (hp : op.Asks packet) (operation) :
    Voices op c (lift packet.encode >>= fun frame => sendEncoded frame operation) := by
  have h := exchange (c := c) hp operation fun _ => .pure ()
  rwa [← bind_assoc, bind_pure] at h

end Voices

theorem publish_voices (topic payload options) :
    Voices (.publish topic payload options) c (publish topic payload options) := by
  have hp (packetId) : (Operation.publish topic payload options).Asks (.client (.publish
      { topic, packetId, payload, qos := options.qos, retain := options.retain, dup := false
        properties := options.properties })) := ⟨packetId, rfl⟩
  refine .after ensureConnected_progress fun _ c => .after (lift_progress _) fun _ c => .get ?_
  refine .after (lift_progress _) fun _ c => ?_
  split
  case h_1 => exact .send (hp none) _
  case h_2 =>
    refine .after rfl fun packetId c => ?_
    rw [publish.send, bind_assoc]
    exact .exchange (hp (some packetId)) _ fun _ => waitForPuback_hums packetId

theorem subscribe_voices (filter qos) : Voices (.subscribe filter qos) c (subscribe filter qos) := by
  refine .after ensureConnected_progress fun _ c => .get ?_
  refine .after (lift_progress _) fun _ c => .after rfl fun packetId c => ?_
  have hp : (Operation.subscribe filter qos).Asks (.client (.subscribe
      { packetId, filters := [(filter, qos)], properties := {} })) := ⟨packetId, rfl⟩
  exact .exchange hp _ fun _ => waitForSuback_hums packetId qos

theorem unsubscribe_voices (filter) : Voices (.unsubscribe filter) c (unsubscribe filter) := by
  refine .after ensureConnected_progress fun _ c => .after (lift_progress _) fun _ c => ?_
  refine .after rfl fun packetId c => ?_
  have hp : (Operation.unsubscribe filter).Asks (.client (.unsubscribe
      { packetId, filters := [filter], properties := {} })) := ⟨packetId, rfl⟩
  exact .exchange hp _ fun _ => waitForUnsuback_hums packetId

theorem call_voices (op : Operation) : Voices op c op.call :=
  match op with
  | .publish ..     => publish_voices _ _ _
  | .subscribe ..   => subscribe_voices _ _
  | .unsubscribe .. => unsubscribe_voices _

theorem shutdown_progress {f : Except IoError Unit → ClientM Unit}
    (hf : ∀ result c, progress (f result c).state = c.progress) :
    progress ((onStream Transport.shutdown >>= f) c).state = c.progress := by
  have hs := onStream_progress (c := c) fun _ _ _ => shutdown_wire
  cases hx : onStream Transport.shutdown c <;> rw [hx] at hs
  case ok result c' =>
    rw [EStateM.bind_ok hx]
    exact (hf result c').trans hs
  case error =>
    rw [EStateM.bind_error hx]
    exact hs

theorem disconnect_closed (h : c.connected = false) : progress (disconnect c).state = c.progress := by
  rw [disconnect, EStateM.bind_ok (EStateM.get_apply _), if_neg (by simp [h])]
  exact shutdown_progress fun result c => by cases result <;> rfl

theorem disconnect_emits (h : c.connected = true) :
    Emits handed (encoded (said (· = .disconnect { reasonCode := 0x00 })))
      (encoded (1 + said (· = .disconnect { reasonCode := 0x00 }))) c disconnect := by
  have he : (SentPacket.disconnect { reasonCode := 0x00 }).encode = .ok disconnectBytes :=
    DisconnectPacket.encode_normal
  have hs : [] ∈ (1 : Language Bytes) := Language.nil_mem_one
  rw [disconnect]
  refine .get ?_
  rw [if_pos h, DisconnectPacket.encode_normal, ← mul_one (encoded (said _))]
  refine .after rfl (fun frame c hf => ?_) (nil_encoded (.inl rfl))
  cases hf
  refine (sendEncoded_emits (P := (· = .disconnect { reasonCode := 0x00 })) rfl he _).bind
    (fun _ c _ => ?_) ((mul_one _).le.trans (encoded_mono fun _ => .inr))
  refine .after rfl (fun _ c _ => .silent ?_ hs hs) hs
  exact (Prod.mk.inj (shutdown_progress fun result c => by cases result <;> rfl)).left

theorem disconnect_grows (h : c.connected = true) : Grows c disconnect := by
  rw [disconnect]
  refine Emits.get ?_
  rw [if_pos h, DisconnectPacket.encode_normal]
  refine Grows.bind (.silent rfl) fun frame c => Grows.bind (sendEncoded_grows frame _) fun _ c => ?_
  refine Grows.bind (.silent rfl) fun _ c => .silent ?_
  exact (Prod.mk.inj (shutdown_progress fun result c => by cases result <;> rfl)).right

end MqttClient

open MqttClient

variable {c c' : MqttClient}

theorem Call.perform_closed (call : Call) (h : c.connected = false) :
    progress (call.perform c).state = c.progress := by
  cases call
  case operation op => rw [perform, call_of_closed h]; rfl
  case recv => rw [perform, EStateM.discard_error (recv_of_closed h)]; rfl
  case disconnect => exact disconnect_closed h

-- What a call sends
theorem Turn.emits (call : Call) : EStateM.Emits handed (encoded (Turn.speech ⟨call, c.connected, true⟩))
    (encoded (Turn.speech ⟨call, c.connected, false⟩)) c call.perform := by
  cases hc : c.connected
  case false =>
    have hn : [] ∈ encoded 1 := nil_encoded rfl
    exact .silent (Prod.mk.inj (call.perform_closed hc)).left hn hn
  case true =>
    cases call
    case operation op => exact (call_voices op).sends
    case recv => exact recv_hums.discard.sends
    case disconnect => exact disconnect_emits hc

theorem Call.perform_grows (call : Call) : Grows c call.perform := by
  cases hc : c.connected
  case false => exact .silent (Prod.mk.inj (call.perform_closed hc)).right
  case true =>
    cases call
    case operation op => exact (call_voices op).grows
    case recv => exact recv_hums.discard.grows
    case disconnect => exact disconnect_grows hc

end MqttWasi
