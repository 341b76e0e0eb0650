import MqttWasi.Client.Theorems.Transcript
import MqttWasi.Frame.Theorems.Streams
import MqttWasi.Client.Theorems.Reading

-- What the blocking client hears, of the bytes that its transport has in store.

namespace MqttWasi

open Framing (parse Cut)
open Relation (ReflTransGen)

-- However much of the frames of some packets has arrived, the first of the packets come out of it.
theorem parse_encoded_part {max : Nat} (he : List.Forall₂ Packet.Encodes packets frames)
    (hl : ∀ frame ∈ frames, frame.length ≤ max) (hm : max ≤ mqttMaxPacketSize) (hp : xs <+: frames.flatten) :
    (parse (packetFraming max) xs).items <+: packets := by
  have hn : List.Forall₂ (fun packet frame => (packetFraming max).next frame = .item packet frame.length)
      packets frames := by
    induction he generalizing xs
    case nil => exact .nil
    case cons he _ ih =>
      obtain ⟨hl₁, hl₂⟩ := List.forall_mem_cons.mp hl
      exact .cons (he.next hl₁ hm) (ih hl₂ List.nil_prefix)
  obtain ⟨items, part, hi, hx⟩ := Framing.parse_part hn hp
  rwa [hx]

namespace Transport

-- All bytes that can still be read, whatever fails in between
def ahead (transport : Transport) : Bytes :=
  (transport.reads.map (·.toOption.getD [])).flatten

variable {transport transport' : Transport}

theorem read_ahead (h : transport.read n = some (result, transport')) :
    transport.ahead = result.toOption.getD [] ++ transport'.ahead := by
  unfold read at h
  split at h <;> cases h
  case h_3 hr => simp [ahead, hr, Except.toOption]
  case h_2 bytes reads hr =>
    by_cases hl : bytes.length ≤ n
    case pos => simp [ahead, hr, Except.toOption, hl, List.take_of_length_le hl]
    case neg => simp [ahead, hr, Except.toOption, hl, ← List.append_assoc]

theorem write_ahead (h : transport.write buf = some (result, transport')) :
    transport'.ahead = transport.ahead := by
  unfold write at h
  split at h <;> cases h <;> rfl

theorem writeAll_ahead (h : transport.writeAll buf = some (result, transport')) :
    transport'.ahead = transport.ahead := by
  rw [writeAll] at h
  generalize transport.writes.length + 1 = calls at h
  induction calls generalizing transport buf
  case zero => cases h
  case succ calls ih =>
    rw [writeAll.go] at h
    split at h
    case isTrue => cases h; rfl
    case isFalse =>
      obtain ⟨⟨result', between⟩, hw, h⟩ := Option.bind_eq_some_iff.mp h
      have ha := write_ahead hw
      dsimp only at h
      split at h
      case h_1 => cases h; exact ha
      case h_2 => exact (ih h).trans ha
      case h_3 =>
        split at h
        case isTrue => exact (ih h).trans ha
        case isFalse => cases h; exact ha

theorem flush_ahead (h : transport.flush = some (result, transport')) :
    transport'.ahead = transport.ahead := by
  unfold flush at h
  split at h <;> cases h
  rfl

theorem configure_ahead (h : transport.configure = some (result, transport')) :
    transport'.ahead = transport.ahead := by
  unfold configure at h
  split at h <;> cases h
  rfl

theorem shutdown_ahead (h : transport.shutdown = some (result, transport')) :
    transport'.ahead = transport.ahead := by
  unfold shutdown at h
  split at h <;> cases h
  rfl

end Transport

theorem ConnectOptions.limit_of_validate (options : ConnectOptions) {clock : Clock}
    (h : options.validate clock = .ok ()) : options.maxPacketSize ≤ mqttMaxPacketSize := by
  unfold validate at h
  by_cases hm : options.maxPacketSize ≤ mqttMaxPacketSize
  case pos => exact hm
  case neg =>
    rw [if_pos (fun hb => hm hb.right : ¬(2 ≤ options.maxPacketSize ∧ options.maxPacketSize ≤ 268435460))] at h
    split at h <;> try split at h <;> try split at h
    all_goals cases h

namespace MqttClient

open EStateM (Leads)

theorem onStream_some {c : MqttClient} {stream : Transport} {call : Transport → Option (Except IoError α × Transport)}
    (h : call c.stream = some (result, stream)) : onStream call c = .ok result { c with stream } := by
  rw [onStream, EStateM.bind_ok (EStateM.get_apply _), h]
  rfl

theorem onStream_none {c : MqttClient} {call : Transport → Option (Except IoError α × Transport)}
    (h : call c.stream = none) : onStream call c = .error .blocked c := by
  rw [onStream, EStateM.bind_ok (EStateM.get_apply _), h]
  rfl

-- What a client knows of the stream, what is still to come, and what has been agreed on.
def intake (c : MqttClient) : FrameReader × List Packet × Bytes × UInt16 :=
  (c.frameReader, c.decoded, c.stream.ahead, c.keepAliveSecs)

-- What a call can do about the stream.
inductive Listen (c : MqttClient) : MqttClient → Prop
  | aside : (c'.intake = c.intake) → Listen c c'
  | refuse :
    (FrameReader.tryDecode c.frameReader = .error e reader) → Listen c { c with frameReader := reader }
  | wait :
    (FrameReader.tryDecode c.frameReader = .ok none reader) → Listen c { c with frameReader := reader }
  | item :
    (FrameReader.tryDecode c.frameReader = .ok (some packet) reader) →
    Listen c { c with frameReader := reader, decoded := c.decoded ++ [packet] }
  | receive {stream : Transport} {clock : Clock} {lastReadAt : Instant} :
    (bytes.length ≤ c.frameReader.remainingCapacity) → (c.stream.ahead = bytes ++ stream.ahead) →
    Listen c { c with stream, lastReadAt, clock, frameReader := c.frameReader.push bytes }

abbrev Listens (x : ClientM α) : Prop :=
  ∀ c, Leads Listen c x

namespace Listens

theorem aside {x : ClientM α} (h : ∀ c, (x c).state.intake = c.intake) : Listens x :=
  fun c => .single (.aside (h c))

theorem pure (a : α) : Listens (pure a) :=
  fun _ => .pure a

theorem fail (e : Error) : Listens (fail e : ClientM α) :=
  fun _ => .throw _

theorem fail_bind (e : Error) (f : α → ClientM β) : Listens (MqttClient.fail e >>= f) :=
  fun _ => .refl

theorem failDisconnected (e : Error) : Listens (failDisconnected e : ClientM α) :=
  .aside fun _ => rfl

theorem failDisconnected_bind (e : Error) (f : α → ClientM β) :
    Listens (MqttClient.failDisconnected e >>= f) :=
  .aside fun _ => rfl

theorem lift (r : Except Error α) : Listens (lift r) := by
  cases r
  case ok a => exact .pure a
  case error e => exact .fail e

theorem now : Listens now :=
  .aside fun _ => rfl

theorem get : Listens (get : ClientM MqttClient) :=
  .aside fun _ => rfl

theorem bind {x : ClientM α} {f : α → ClientM β} (hx : Listens x) (hf : ∀ a, Listens (f a)) :
    Listens (x >>= f) :=
  fun c => (hx c).bind_any hf

theorem ite {p : Prop} [Decidable p] {x y : ClientM α} (hx : Listens x) (hy : Listens y) :
    Listens (if p then x else y) :=
  fun c => .ite (fun _ => hx c) fun _ => hy c

theorem onStream {call : Transport → Option (Except IoError α × Transport)}
    (hc : ∀ transport result transport', call transport = some (result, transport') →
      transport'.ahead = transport.ahead) : Listens (onStream call) := by
  refine .aside fun c => ?_
  rw [MqttClient.onStream, EStateM.bind_ok (EStateM.get_apply _)]
  cases h : call c.stream
  case none => rfl
  case some r =>
    change (_, _, r.2.ahead, _) = c.intake
    rw [hc _ _ _ h]
    rfl

theorem disconnectOn {x : ClientM α} (hx : Listens x) (errors) : Listens (disconnectOn errors x) := by
  intro c
  have h := hx c
  rw [Leads] at h ⊢
  rw [MqttClient.disconnectOn]
  cases hr : x c <;> rw [hr] at h
  case ok => exact h
  case error stop c' =>
    cases stop
    case blocked => exact h
    case failed e =>
      refine h.tail (.aside ?_)
      dsimp only [EStateM.Result.state]
      split <;> rfl

theorem sendEncoded (frame operation) : Listens (sendEncoded frame operation) := by
  refine .bind .get fun _ => .ite (.fail_bind _ _) (.bind (.aside fun _ => rfl) fun _ => ?_)
  refine .bind (.onStream fun _ _ _ => Transport.writeAll_ahead) fun result => ?_
  split
  case h_1 => exact .failDisconnected_bind _ _
  case h_2 =>
    refine .bind (.onStream fun _ _ _ => Transport.flush_ahead) fun result => ?_
    dsimp only
    split
    case h_1 => exact .failDisconnected_bind _ _
    case h_2 => exact .aside fun _ => rfl

theorem serviceTimers (deadline) : Listens (serviceTimers deadline) := by
  have hk (start) : Listens (serviceTimers.keepAlive start) := by
    refine .bind .get fun c => .ite (.pure _) ?_
    split
    case h_1 => exact .ite (.failDisconnected _) (.pure _)
    case h_2 => exact .ite (.bind (.sendEncoded _ _) fun _ => .aside fun _ => rfl) (.pure _)
    case h_3 => exact .pure _
  refine .bind .now fun start => ?_
  split
  case h_1 => exact .ite (.fail_bind _ _) (hk start)
  case h_2 => exact hk start

theorem configure : Listens configure := by
  refine .bind (.onStream fun _ _ _ => Transport.configure_ahead) fun result => ?_
  split
  case h_1 => exact .fail _
  case h_2 => exact .pure _

theorem readPacketRound (deadline) : Listens (readPacketRound deadline) := by
  intro c
  apply Leads.get
  split
  case h_1 hd => exact .bind_any (.set (.refuse hd)) fun _ => failDisconnected _
  case h_2 hd =>
    refine .bind_any (.set (.item hd)) fun _ => Listens.bind .now fun _ => .bind (.aside fun _ => rfl) fun _ => ?_
    exact .ite (.bind (.aside fun _ => rfl) fun _ => .pure _) (.pure _)
  case h_3 hd =>
    refine .bind_any (.set (.wait hd)) fun _ => Listens.bind (.serviceTimers deadline) fun _ => ?_
    refine .bind (.bind .now fun _ => .bind .get fun _ => .pure _) fun _ => ?_
    refine .bind (.onStream fun _ _ _ => Transport.configure_ahead) fun result => ?_
    split
    case h_1 => exact .failDisconnected_bind _ _
    case h_2 =>
      intro c
      apply Leads.get
      dsimp only
      refine .ite (fun _ => failDisconnected_bind _ _ c) fun _ => ?_
      -- What is read is pushed at once.
      cases hr : c.stream.read (min c.frameReader.remainingCapacity 8192)
      case none =>
        rw [Leads, EStateM.bind_error (onStream_none hr)]
        exact .refl
      case some r =>
        obtain ⟨result, stream⟩ := r
        have ha := Transport.read_ahead hr
        rw [Leads, EStateM.bind_ok (onStream_some hr)]
        cases result
        case error e =>
          refine .head (.aside ?_) (Listens.ite (.pure _) (.failDisconnected _) _)
          rw [intake, intake, ha]
          rfl
        case ok bytes =>
          have hl := (Transport.read_length hr).trans (Nat.min_le_left _ _)
          cases bytes
          case nil => exact .single (.aside (by rw [intake, intake, ha]; rfl))
          case cons => exact .single (.receive hl ha)

theorem readPacketUntil (deadline) : Listens (readPacketUntil deadline) := by
  refine .bind .get fun c => ?_
  generalize c.stream.readable + 1 = rounds
  induction rounds
  case zero => exact fun _ => .throw _
  case succ rounds ih =>
    refine .bind (.readPacketRound deadline) fun packet => ?_
    cases packet
    case none => exact ih
    case some packet => exact .pure _

theorem acceptPublish (packet) : Listens (acceptPublish packet) := by
  intro c
  refine .get (.ite (fun _ => fail_bind _ _ c) fun _ => ?_)
  refine .bind_any (.set (.aside rfl)) fun _ => Listens.bind (.aside fun _ => rfl) fun _ => .ite ?_ (.pure _)
  cases packet.packetId
  case none => exact .fail _
  case some packetId => exact .bind (.lift _) fun _ => .sendEncoded _ _

theorem deadlineAfter (timeout operation) : Listens (deadlineAfter timeout operation) := by
  refine .bind .now fun start => .bind .get fun c => ?_
  cases c.clock.checkedAdd start timeout
  case none => exact .fail _
  case some => exact .pure _

theorem waitForAck {finish : Packet → Option (ClientM Unit)} (name : String)
    (hf : ∀ packet x, finish packet = some x → Listens x) : Listens (waitForAck name finish) := by
  refine .bind (.bind .get fun _ => .deadlineAfter _ _) fun deadline => .bind .get fun c => ?_
  generalize c.pending + 1 = rounds
  induction rounds
  case zero => exact fun _ => .throw _
  case succ rounds ih =>
    refine .bind (.disconnectOn (.readPacketUntil _) _) fun packet => ?_
    cases h : finish packet <;> dsimp only
    case some x => exact hf packet x h
    case none =>
      split
      case h_1 => exact .bind (.disconnectOn (.acceptPublish _) _) fun _ => ih
      case h_2 => exact .failDisconnected _
      case h_3 => exact ih
      case h_4 => exact .failDisconnected _

theorem waitForPuback (packetId) : Listens (waitForPuback packetId) := by
  refine .waitForAck _ fun packet x h => ?_
  cases packet <;> simp only [Option.ite_none_right_eq_some, Option.some.injEq, reduceCtorEq] at h
  case pubAck => exact h.right ▸ .lift _

theorem waitForSuback (packetId requested) : Listens (waitForSuback packetId requested) := by
  refine .waitForAck _ fun packet x h => ?_
  cases packet <;> simp only [Option.ite_none_right_eq_some, Option.some.injEq, reduceCtorEq] at h
  case subAck => exact h.right ▸ .disconnectOn (.lift _) _

theorem waitForUnsuback (packetId) : Listens (waitForUnsuback packetId) := by
  refine .waitForAck _ fun packet x h => ?_
  cases packet <;> simp only [Option.ite_none_right_eq_some, Option.some.injEq, reduceCtorEq] at h
  case unsubAck => exact h.right ▸ .disconnectOn (.lift _) _

theorem call (op : Operation) : Listens op.call := by
  have hc : Listens ensureConnected := .bind .get fun _ => .ite (.fail _) (.pure _)
  have ht : Listens takePacketId := .aside fun _ => rfl
  cases op
  case publish topic payload options =>
    have hs (packetId) : Listens (publish.send topic payload options packetId) :=
      .bind (.lift _) fun _ => .sendEncoded _ _
    refine .bind hc fun _ => .bind (.lift _) fun _ => .bind .get fun _ => .bind (.lift _) fun _ => ?_
    cases options.qos
    case atMostOnce => exact hs none
    case atLeastOnce => exact .bind ht fun packetId => .bind (hs packetId) fun _ => .waitForPuback packetId
  case subscribe filter qos =>
    refine .bind hc fun _ => .bind .get fun _ => .bind (.lift _) fun _ => .bind ht fun packetId => ?_
    exact .bind (.lift _) fun _ => .bind (.sendEncoded _ _) fun _ => .waitForSuback packetId qos
  case unsubscribe filter =>
    refine .bind hc fun _ => .bind (.lift _) fun _ => .bind ht fun packetId => ?_
    exact .bind (.lift _) fun _ => .bind (.sendEncoded _ _) fun _ => .waitForUnsuback packetId

theorem recv : Listens recv := by
  have hc : Listens ensureConnected := .bind .get fun _ => .ite (.fail _) (.pure _)
  have hp : Listens popIncoming := .aside fun _ => rfl
  refine .bind hc fun _ => .bind hp fun message => ?_
  cases message
  case some message => exact .pure _
  case none =>
    refine .bind .get fun c => ?_
    generalize c.pending + 1 = rounds
    induction rounds
    case zero => exact fun _ => .throw _
    case succ rounds ih =>
      refine .bind (.readPacketUntil none) fun packet => ?_
      split
      case h_1 => exact .bind (.acceptPublish _) fun _ => hp
      case h_2 => exact .bind (.aside fun _ => rfl) fun _ => .ite (.pure _) (.fail _)
      case h_3 => exact ih
      case h_4 => exact .failDisconnected _

theorem shutdown_bind {f : Except IoError Unit → ClientM Unit}
    (he : ∀ e, ∃ e', f (.error e) = MqttClient.fail e') (hk : f (.ok ()) = Pure.pure ()) :
    Listens (MqttClient.onStream Transport.shutdown >>= f) := by
  refine .bind (.onStream fun _ _ _ => Transport.shutdown_ahead) fun result => ?_
  cases result
  case error e =>
    obtain ⟨e', he⟩ := he e
    rw [he]
    exact .fail e'
  case ok =>
    rw [hk]
    exact .pure ()

theorem disconnect : Listens disconnect := by
  refine .bind .get fun _ => .ite (.bind (.lift _) fun _ => .bind (.sendEncoded _ _) fun _ => ?_)
    (.shutdown_bind (fun _ => ⟨_, rfl⟩) rfl)
  exact .bind (.aside fun _ => rfl) fun _ => .shutdown_bind (fun _ => ⟨_, rfl⟩) rfl

theorem perform (call : Call) : Listens call.perform := by
  cases call
  case operation op => exact .call op
  case recv => exact fun c => (Listens.recv c).discard
  case disconnect => exact .disconnect

end Listens

open EStateM (Meets)

-- The packets that were decoded have been cut off the front of the stream, and the rest of it is in
-- the frame reader or still to come.
structure Hears (max : Nat) (stream : Bytes) (keepAliveSecs : UInt16) (c : MqttClient) : Prop where
  clean : c.frameReader.Clean max
  keepAlive : c.keepAliveSecs = keepAliveSecs
  cut : ∃ heard, stream = heard ++ c.stream.ahead ∧
    (packetFraming max).Cut heard c.decoded c.frameReader.buf

variable {max : Nat} {stream : Bytes} {keepAliveSecs : UInt16} {c c' : MqttClient}

theorem Hears.step (h : Hears max stream keepAliveSecs c) (hl : Listen c c') :
    Hears max stream keepAliveSecs c' := by
  obtain ⟨hc, hk, heard, hs, hcut⟩ := h
  have ht := hc.step .tryDecode
  have hb := FrameReader.tryDecode_leaves hc.sound hc.overflow
  cases hl
  case aside hi =>
    simp only [intake, Prod.mk.injEq] at hi
    obtain ⟨hf, hd, ha, hk'⟩ := hi
    exact ⟨hf ▸ hc, hk'.trans hk, heard, by rw [ha, hs], by rw [hd, hf]; exact hcut⟩
  case refuse hd =>
    rw [hd] at ht hb
    cases hb
    case fail hb => exact ⟨ht, hk, heard, hs, hb.buf ▸ hcut⟩
  case wait hd =>
    rw [hd] at ht hb
    cases hb
    case more hb => exact ⟨ht, hk, heard, hs, hb.buf ▸ hcut⟩
  case item hd =>
    have ha := hc.answers
    rw [hd] at ht ha
    cases ha
    case item hn _ hb _ => exact ⟨ht, hk, heard, hs, hb ▸ hcut.item hn⟩
  case receive bytes transport _ _ hl ha =>
    refine ⟨hc.step (.push hl), hk, heard ++ bytes, ?_, ?_⟩
    case refine_1 => rw [hs, ha, List.append_assoc]
    case refine_2 =>
      rw [FrameReader.push, if_neg (Nat.not_lt.mpr hl)]
      exact hcut.append bytes

theorem Hears.leads {x : ClientM α} (h : Hears max stream keepAliveSecs c) (hx : Listens x) :
    Hears max stream keepAliveSecs (x c).state :=
  (hx c).preserves (fun _ _ hl h => h.step hl) h

theorem Hears.ok {x : ClientM α} (h : Hears max stream keepAliveSecs c) (hx : Listens x)
    (hr : x c = .ok a c') : Hears max stream keepAliveSecs c' := by
  have h := h.leads hx
  rwa [hr] at h

theorem Hears.error {x : ClientM α} (h : Hears max stream keepAliveSecs c) (hx : Listens x)
    (hr : x c = .error e c') : Hears max stream keepAliveSecs c' := by
  have h := h.leads hx
  rwa [hr] at h

-- A client between the packets of its handshake
structure Greeting (max : Nat) (stream : Bytes) (packets : List Packet) (keepAliveSecs : UInt16) (c : MqttClient) :
    Prop where
  decoded : c.decoded = packets
  hears : Hears max stream keepAliveSecs c

variable {packets : List Packet}

theorem Rests.greeting {x : ClientM α} (hr : Rests x) (hl : Listens x) :
    Keeps (Greeting max stream packets keepAliveSecs) x := by
  intro c h
  have hd := (hr c).right
  have hh := h.hears.leads hl
  cases hx : x c <;> rw [hx] at hd hh
  case ok => exact ⟨hd.trans h.decoded, hh⟩
  case error => trivial

theorem readPacketUntil_greeting (deadline) :
    Meets (Greeting max stream [] keepAliveSecs) (readPacketUntil deadline)
      (fun packet => Greeting max stream [packet] keepAliveSecs) fun _ _ => True := by
  intro c h
  have hd := readPacketUntil_meets deadline c (.refl c)
  have hh := h.hears.leads (.readPacketUntil deadline)
  cases hx : readPacketUntil deadline c <;> rw [hx] at hd hh
  case ok => exact ⟨by rw [hd.right.decoded, h.decoded]; rfl, hh⟩
  case error => trivial

theorem negotiate_greeting (ack : ConnAckPacket) :
    Meets (Greeting max stream packets keepAliveSecs) (negotiate ack)
      (fun _ => Greeting max stream packets ((ack.properties.getU16 .serverKeepAlive).getD keepAliveSecs))
      fun _ _ => True := by
  refine .bind (Q := fun _ => Greeting max stream packets
    ((ack.properties.getU16 .serverKeepAlive).getD keepAliveSecs)) (fun c h => ?_) fun _ => ?_
  case refine_1 =>
    have hk := congrArg (ack.properties.getU16 .serverKeepAlive).getD h.hears.keepAlive
    exact ⟨h.decoded, ⟨h.hears.clean, hk, h.hears.cut⟩⟩
  case refine_2 =>
    split
    case h_1 => exact .pure fun _ h => h
    case h_2 =>
      refine .ite (fun _ => .throw fun _ _ => trivial) fun _ => .modify fun c h => ?_
      exact ⟨h.decoded, ⟨h.hears.clean, h.hears.keepAlive, h.hears.cut⟩⟩

-- A client that has got its CONNACK, and what it has taken from it
structure Agreed (options : ConnectOptions) (stream : Bytes) (ack : ConnAckPacket) (c : MqttClient) : Prop where
  limit : options.maxPacketSize ≤ mqttMaxPacketSize
  accepted : ack.reasonCode = 0
  greeting : Greeting options.maxPacketSize stream [.connAck ack]
    ((ack.properties.getU16 .serverKeepAlive).getD options.keepAliveSecs) c

theorem handshake_agreed (options : ConnectOptions) :
    Meets (Greeting options.maxPacketSize stream [] options.keepAliveSecs) (handshake options)
      (fun _ c => ∃ ack, Agreed options stream ack c) fun _ _ => True := by
  have hc {packets keepAliveSecs} :
      Keeps (Greeting options.maxPacketSize stream packets keepAliveSecs) configure :=
    Rests.configure.greeting .configure
  refine .get fun c h => .of_eq ?_ h
  refine (Keeps.lift _).bind fun _ => .assume fun hl => (Rests.now.greeting .now).bind fun _ => ?_
  refine ((Rests.deadlineAfter _ _).greeting (.deadlineAfter _ _)).bind fun deadline => ?_
  refine hc.bind fun _ => hc.bind fun _ => hc.bind fun _ => (Rests.now.greeting .now).bind fun start => ?_
  have hm : Rests (modify ({ · with lastReadAt := start, lastWriteAt := start }) : ClientM PUnit) :=
    .modify (fun _ => rfl) fun _ => rfl
  refine (hm.greeting (.aside fun _ => rfl)).bind fun _ => ?_
  refine ((Rests.lift _).greeting (.lift _)).bind fun frame => ?_
  refine ((Rests.sendEncoded frame _).greeting (.sendEncoded frame _)).bind fun _ => ?_
  refine (readPacketUntil_greeting _).bind fun packet => ?_
  split
  case h_2 => exact .throw fun _ _ => trivial
  case h_1 ack =>
    refine .ite (fun _ => .throw_bind fun _ _ => trivial) fun ha => ?_
    refine ((Rests.lift _).greeting (.lift _)).bind fun _ => (negotiate_greeting ack).bind fun _ => ?_
    have hm : Rests (modify ({ · with connected := true }) : ClientM PUnit) :=
      .modify (fun _ => rfl) fun _ => rfl
    refine (hm.greeting (.aside fun _ => rfl)).bind fun _ => hc.bind fun _ => ?_
    exact hc.imp (fun _ h => h) (fun _ _ h => ⟨ack, options.limit_of_validate hl, not_not.mp ha, h⟩) fun _ _ h => h

theorem connectWith_agreed {transport : Transport} {clock : Clock}
    (h : connectWith transport clock options = .ok c) : ∃ ack, Agreed options transport.ahead ack c := by
  unfold connectWith at h
  dsimp only at h
  split at h
  case h_1 hs =>
    cases h
    exact (handshake_agreed options).of_ok ⟨rfl, .withMaxPacketSize _, rfl, [], rfl, .nil⟩ hs
  case h_2 => cases h

end MqttClient

open MqttClient

variable {c₀ c : MqttClient} {max : Nat} {stream : Bytes} {keepAliveSecs : UInt16}

theorem Talk.hears (h₀ : Hears max stream keepAliveSecs c₀) (h : Talk c₀ turns c) :
    Hears max stream keepAliveSecs c := by
  induction h
  case start => exact h₀
  case returned hc ih => exact ih.ok (.perform _) hc
  case failed hc ih => exact ih.error (.perform _) hc

theorem Conversation.hears (h₀ : Hears max stream keepAliveSecs c₀) (h : Conversation c₀ turns c) :
    Hears max stream keepAliveSecs c := by
  cases h
  case idle ht => exact ht.hears h₀
  case waiting ht hc => exact (ht.hears h₀).error (.perform _) hc

theorem Session.hears (h₀ : Hears max stream keepAliveSecs c₀) (h : Session c₀ xs ms c) :
    Hears max stream keepAliveSecs c := by
  induction h
  case start => exact h₀
  case returned hc ih => exact ih.ok (.call _) hc
  case failed hc ih => exact ih.error (.call _) hc
  case received hc ih => exact ih.ok .recv hc
  case recvFailed hc ih => exact ih.error .recv hc

theorem Visit.hears (h₀ : Hears max stream keepAliveSecs c₀) (h : Visit c₀ ms c) :
    Hears max stream keepAliveSecs c := by
  cases h
  case idle hs => exact hs.hears h₀
  case calling hs hc => exact (hs.hears h₀).error (.call _) hc
  case receiving hs hc => exact (hs.hears h₀).error .recv hc

-- The parse of a stream is what has been decoded, and the parse of what is left.
theorem MqttClient.Hears.parse_eq (h : Hears max stream keepAliveSecs c) :
    let rest := parse (packetFraming max) (c.frameReader.buf ++ c.stream.ahead)
    parse (packetFraming max) stream = { rest with items := c.decoded ++ rest.items } := by
  obtain ⟨heard, rfl, hc⟩ := h.cut
  exact hc c.stream.ahead

theorem MqttClient.Hears.decoded (h : Hears max stream keepAliveSecs c) :
    c.decoded <+: (parse (packetFraming max) stream).items := by
  rw [h.parse_eq]
  exact List.prefix_append _ _

theorem Visit.prefix_decoded {transport : Transport} {clock : Clock} {options : ConnectOptions}
    (h₀ : connectWith transport clock options = .ok c₀) (h : Visit c₀ ms c) : ms <+: messages c.decoded := by
  obtain ⟨hn, hl⟩ := live_start h₀
  obtain ⟨limbo, due, hk⟩ := h.bounded hn hl
  rw [hk.decoded, List.append_assoc]
  exact List.prefix_append _ _

-- As long as the client is open, it has all messages of the stream that no longer is a whole packet.
theorem Session.complete {transport : Transport} {clock : Clock} {options : ConnectOptions}
    (h₀ : connectWith transport clock options = .ok c₀) (h : Session c₀ xs ms c) (hc : c.connected = true)
    (hr : (parse (packetFraming options.maxPacketSize) (c.frameReader.buf ++ c.stream.ahead)).items = []) :
    ms ++ c.incoming = messages (parse (packetFraming options.maxPacketSize) transport.ahead).items := by
  obtain ⟨ack, ha⟩ := connectWith_agreed h₀
  obtain ⟨hn, hf⟩ := connectWith_fresh h₀
  have he := (h.hears ha.greeting.hears).parse_eq
  dsimp only at he
  rw [hr, List.append_nil] at he
  rw [he, h.delivered hf hn hc]

-- The messages that an application receives are the messages that the broker sends, in order: however
-- the bytes arrive, whatever else is called, and whatever fails in between.
theorem Visit.messages_heard (transport : Transport) (clock : Clock) (options : ConnectOptions)
    (c₀ c : MqttClient) (ms : List PublishPacket) (h₀ : connectWith transport clock options = .ok c₀)
    (h : Visit c₀ ms c) :
    let F := packetFraming options.maxPacketSize
    ms <+: messages (parse F transport.ahead).items ∧
    (∀ packets frames, List.Forall₂ Packet.Encodes packets frames →
      (∀ frame ∈ frames, frame.length ≤ options.maxPacketSize) → transport.ahead <+: frames.flatten →
        c.decoded <+: packets ∧ ms <+: messages packets) ∧
    (∃ heard, transport.ahead = heard ++ c.stream.ahead ∧ F.Cut heard c.decoded c.frameReader.buf) ∧
    ∀ xs, Session c₀ xs ms c → c.connected = true →
      (parse F (c.frameReader.buf ++ c.stream.ahead)).items = [] →
        ms ++ c.incoming = messages (parse F transport.ahead).items := by
  obtain ⟨ack, ha⟩ := connectWith_agreed h₀
  have hh := h.hears ha.greeting.hears
  have hd := h.prefix_decoded h₀
  refine ⟨hd.trans (hh.decoded.filterMap _), fun packets frames he hs hp => ?_, hh.cut, fun xs hx hc hr => ?_⟩
  case refine_1 =>
    have hp := hh.decoded.trans (parse_encoded_part he hs ha.limit hp)
    exact ⟨hp, hd.trans (hp.filterMap _)⟩
  case refine_2 => exact hx.complete h₀ hc hr

-- The message arrives before the SUBACK.
theorem answeringBroker_messages :
    ∃ c₀ c, connectWith answeringBroker steadyClock { clientId := "x" } = .ok c₀ ∧
      Visit c₀ [brokerMessage] c ∧
      [brokerMessage] <+: messages (parse (packetFraming (1024 * 1024)) answeringBroker.ahead).items := by
  obtain ⟨c₀, h₀, c, hc, hi, hl⟩ := answeringBroker_run
  have hr := recv_of_queued hl hi
  have hs : Session c₀ [⟨.subscribe "b" .atMostOnce, c₀, .ok (), c⟩] [] c := .returned .start hc
  have hv : Visit c₀ [brokerMessage] { c with incoming := [] } := .idle (.received hs hr)
  exact ⟨c₀, _, h₀, hv, (Visit.messages_heard _ _ _ _ _ _ h₀ hv).left⟩

end MqttWasi
