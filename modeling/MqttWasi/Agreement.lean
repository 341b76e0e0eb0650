import MqttWasi.Library.Consumption
import MqttWasi.Client.Theorems.Listening
import MqttWasi.Driver.Theorems.Reading
import MqttWasi.Driver.Theorems.Handshake

-- Both clients hear the same from a broker.

namespace MqttWasi

open Base128 (Number)
open Framing (parse)

namespace Handshake

open EStateM (Draws)

-- What an action takes off the stream.
abbrev Takes (L : Bytes → α → Prop) (x : HandshakeM α) : Prop :=
  Draws (·.stream.ahead) L x

-- An action that takes nothing.
abbrev Abstains (x : HandshakeM α) : Prop :=
  Takes (fun bytes _ => bytes = [] ∧ True) x

namespace Abstains

theorem of_state {x : HandshakeM α} (h : ∀ st, (x st).state.stream.ahead = st.stream.ahead) : Abstains x :=
  .silent h fun _ _ _ _ => ⟨rfl, trivial⟩

theorem before {x : HandshakeM α} {f : α → HandshakeM β} (hx : Abstains x) {L : Bytes → β → Prop}
    (hf : ∀ a, Takes L (f a)) : Takes L (x >>= f) :=
  .after hx fun a _ => hf a

theorem bind {x : HandshakeM α} {f : α → HandshakeM β} (hx : Abstains x) (hf : ∀ a, Abstains (f a)) :
    Abstains (x >>= f) :=
  hx.before hf

theorem onStream {call : Transport → Option (Except IoError α × Transport)}
    (hc : ∀ transport result transport', call transport = some (result, transport') →
      transport'.ahead = transport.ahead) : Abstains (onStream call) := by
  refine .of_state fun st => ?_
  rw [Handshake.onStream, EStateM.bind_ok (EStateM.get_apply _)]
  cases h : call st.stream
  case none => rfl
  case some r => exact hc _ _ _ h

theorem connectRemaining (deadline) : Abstains (connectRemaining deadline) := by
  refine .bind (.of_state fun _ => rfl) fun now => .ite (fun _ => .pure ⟨rfl, trivial⟩) fun _ => .throw _

theorem configure : Abstains configure := by
  refine .bind (.onStream fun _ _ _ => Transport.configure_ahead) fun result => ?_
  split
  case h_1 => exact .throw _
  case h_2 => exact .pure ⟨rfl, trivial⟩

theorem setConnectTimeouts (deadline) : Abstains (setConnectTimeouts deadline) :=
  .bind (.connectRemaining _) fun _ => .bind .configure fun _ => .bind (.connectRemaining _) fun _ => .configure

theorem connectDeadline (timeout) : Abstains (connectDeadline timeout) := by
  refine .bind (.of_state fun _ => rfl) fun start => .get fun st => ?_
  cases st.clock.checkedAdd start timeout
  case none => exact .throw _
  case some => exact .pure ⟨rfl, trivial⟩

theorem writeAllUntil (bytes deadline) : Abstains (writeAllUntil bytes deadline) := by
  refine .get fun st => ?_
  generalize st.stream.writes.length + 1 = rounds
  induction rounds generalizing bytes
  case zero => exact .throw _
  case succ rounds ih =>
    refine .ite (fun _ => .pure ⟨rfl, trivial⟩) fun _ => Abstains.bind (.connectRemaining _) fun _ => ?_
    refine .bind .configure fun _ => .bind (.onStream fun _ _ _ => Transport.write_ahead) fun result => ?_
    split
    case h_1 => exact .throw _
    case h_2 => exact .bind (.connectRemaining _) fun _ => ih _
    case h_3 => exact .ite (fun _ => ih _) fun _ => .throw _

end Abstains

theorem lift_takes (r : Except Error α) : Takes (fun bytes a => bytes = [] ∧ r = .ok a) (lift r) := by
  cases r
  case ok => exact .pure ⟨rfl, rfl⟩
  case error => exact .throw _

theorem onStream_takes (n : Nat) : Takes
    (fun bytes result => bytes = result.toOption.getD [] ∧ bytes.length ≤ n) (onStream (·.read n)) := by
  intro st result st' h
  rw [onStream, EStateM.bind_ok (EStateM.get_apply _)] at h
  cases hr : st.stream.read n <;> rw [hr] at h
  case none => cases h
  case some r =>
    obtain ⟨result, stream⟩ := r
    cases h
    refine ⟨_, ⟨rfl, ?_⟩, Transport.read_ahead hr⟩
    cases result
    case error => exact Nat.zero_le n
    case ok => exact Transport.read_length hr

theorem setReadTimeout_abstains (timeout) : Abstains (setReadTimeout timeout) := by
  refine .bind (.onStream fun _ _ _ => Transport.configure_ahead) fun result => ?_
  split
  case h_1 => exact .throw _
  case h_2 => exact .pure ⟨rfl, trivial⟩

theorem readExactUntil_takes (len : Nat) (deadline : Instant) :
    Takes (fun bytes a => bytes = a ∧ a.length = len) (readExactUntil len deadline) := by
  refine .get fun st => ?_
  generalize st.stream.readable + 1 = rounds
  induction rounds generalizing len
  case zero => exact .throw _
  case succ rounds ih =>
    refine .ite (fun hl => .pure ⟨rfl, hl.symm⟩) fun _ => ?_
    refine (Abstains.connectRemaining _).before fun remaining => (setReadTimeout_abstains remaining).before fun _ => ?_
    refine ((onStream_takes len).bind (M := fun result bytes a => (result.toOption.getD []).length ≤ len →
      result.toOption.getD [] ++ bytes = a ∧ a.length = len) fun result => ?_).mono ?_
    case refine_1 =>
      split
      case h_1 => exact .throw _
      case h_2 bytes _ =>
        refine (Abstains.connectRemaining _).before fun _ => ?_
        refine ((ih (len - bytes.length)).bind fun rest =>
          .pure (L := fun word a => word = [] ∧ a = bytes ++ rest) ⟨rfl, rfl⟩).mono ?_
        rintro _ _ ⟨rest, _, _, rfl, ⟨rfl, hl⟩, rfl, rfl⟩ hb
        refine ⟨by simp [Except.toOption], ?_⟩
        rw [List.length_append, hl]
        exact Nat.add_sub_of_le hb
      case h_3 e =>
        refine .ite (fun _ => (ih len).mono fun bytes a h _ => ?_) fun _ => .throw _
        exact ⟨h.left, h.right⟩
    case refine_2 =>
      rintro _ a ⟨result, _, back, rfl, ⟨rfl, hl⟩, h⟩
      exact h hl

-- The loop takes a number in base 128.
theorem readHeaderBytes_go_takes (deadline : Instant) (rounds : Nat) (multiplier : UInt32) (headerBytes : Bytes) :
    Takes (fun bytes a => bytes.length ≤ rounds ∧ (∃ n, Number bytes n) ∧ a = headerBytes ++ bytes)
      (readHeaderBytes.go deadline rounds multiplier headerBytes) := by
  induction rounds generalizing multiplier headerBytes
  case zero => exact .throw _
  case succ rounds ih =>
    refine ((readExactUntil_takes 1 deadline).bind (M := fun byte ys a =>
      ((byte.getD 0 0).toNat < 128 ∧ ys = [] ∧ a = headerBytes ++ byte) ∨
        (128 ≤ (byte.getD 0 0).toNat ∧ ys.length ≤ rounds ∧ (∃ n, Number ys n) ∧
          a = headerBytes ++ byte ++ ys)) fun byte => ?_).mono ?_
    case refine_1 =>
      dsimp only
      refine .ite (fun hb => ?_) fun hb => ?_
      case refine_1 => exact .pure (.inl ⟨(UInt8.and_128_eq_zero_iff _).mp hb, rfl, rfl⟩)
      case refine_2 =>
        have hb := Nat.le_of_not_lt fun hl => hb ((UInt8.and_128_eq_zero_iff _).mpr hl)
        refine .ite (fun _ => .throw_bind _) fun _ => (ih _ (headerBytes ++ byte)).mono fun ys a h => ?_
        exact .inr ⟨hb, h⟩
    case refine_2 =>
      rintro _ a ⟨byte, _, ys, rfl, ⟨rfl, hl⟩, h⟩
      obtain ⟨b, rfl⟩ := List.length_eq_one_iff.mp hl
      obtain ⟨hb, rfl, rfl⟩ | ⟨hb, hr, ⟨n, hn⟩, rfl⟩ := h
      case inl => exact ⟨by simp, ⟨_, .last hb⟩, by simp⟩
      case inr => exact ⟨by simp; omega, ⟨_, .more hb hn⟩, by simp⟩

theorem readHeaderBytes_takes (deadline : Instant) :
    Takes (fun bytes a => bytes = a ∧ ∃ first lenBytes n, a = first :: lenBytes ∧ Number lenBytes n)
      (readHeaderBytes deadline) := by
  refine ((readExactUntil_takes 1 deadline).bind fun first =>
    readHeaderBytes_go_takes deadline 4 1 first).mono ?_
  rintro _ a ⟨first, _, lenBytes, rfl, ⟨rfl, hl⟩, _, ⟨n, hn⟩, rfl⟩
  obtain ⟨b, rfl⟩ := List.length_eq_one_iff.mp hl
  exact ⟨rfl, b, lenBytes, n, rfl, hn⟩

-- However the reads go, the packet that is returned is the one that has been taken off the stream.
theorem readPacketBlocking_takes (max : Nat) (deadline : Instant) :
    Takes (Frame max) (readPacketBlocking max deadline) := by
  refine ((readHeaderBytes_takes deadline).bind (M := fun headerBytes ys packet => ∃ r,
    decodeFixedHeader headerBytes = .ok r ∧ r.2 + r.1.remainingLength.toNat ≤ max ∧
    ys.length = r.1.remainingLength.toNat ∧ Packet.decode r.1 ys = .ok packet) fun headerBytes => ?_).mono ?_
  case refine_1 =>
    refine .after (lift_takes (decodeFixedHeader headerBytes)) fun r hr => ?_
    refine .ite (fun _ => .throw_bind _) fun hm => ?_
    refine ((readExactUntil_takes _ deadline).bind fun body => lift_takes (Packet.decode r.1 body)).mono ?_
    rintro _ packet ⟨body, _, _, rfl, ⟨rfl, hl⟩, rfl, hp⟩
    rw [List.append_nil]
    exact ⟨r, hr, Nat.not_lt.mp hm, hl, hp⟩
  case refine_2 =>
    rintro _ packet ⟨headerBytes, _, body, rfl, ⟨rfl, first, lenBytes, n, rfl, hn⟩, r, hr, hm, hb, hp⟩
    obtain ⟨hlay, he⟩ := (decodeFixedHeader_headerLen hn).mp hr
    exact ⟨_, body, r.1, rfl, he ▸ hlay, hb, he ▸ hm, hp⟩

-- The connection that is returned has been set up by a CONNACK that has been taken off the stream.
theorem connectWith_takes (options : ConnectOptions) :
    Takes (fun bytes connection => ∃ ack clock, Frame options.maxPacketSize bytes (.connAck ack) ∧
      ¬ack.reasonCode ≥ 0x80 ∧ validateConnack options.clientId options.cleanStart ack = .ok () ∧
      connection = .new options ack clock) (connectWith options) := by
  refine .get fun st => .after (lift_takes _) fun _ _ => ?_
  refine (Abstains.of_state fun _ => rfl).before fun _ => (Abstains.connectDeadline _).before fun deadline => ?_
  refine Abstains.configure.before fun _ => (Abstains.setConnectTimeouts deadline).before fun _ => ?_
  refine .after (lift_takes _) fun frame _ => (Abstains.writeAllUntil frame deadline).before fun _ => ?_
  refine (Abstains.connectRemaining _).before fun _ => Abstains.configure.before fun _ => ?_
  refine (Abstains.onStream fun _ _ _ => Transport.flush_ahead).before fun result => ?_
  split
  case h_1 => exact .throw_bind _
  case h_2 =>
    refine (Abstains.connectRemaining _).before fun _ => ?_
    refine ((readPacketBlocking_takes _ deadline).bind (M := fun packet word connection => ∃ ack clock,
      packet = .connAck ack ∧ ¬ack.reasonCode ≥ 0x80 ∧ word = [] ∧
      validateConnack options.clientId options.cleanStart ack = .ok () ∧
      connection = .new options ack clock) fun packet => ?_).mono ?_
    case refine_1 =>
      split
      case h_2 => exact .throw _
      case h_1 ack =>
        refine .ite (fun _ => .throw_bind _) fun ha => (Abstains.connectRemaining _).before fun _ => ?_
        refine .after (lift_takes _) fun _ hv => Abstains.configure.before fun _ => ?_
        refine Abstains.configure.before fun _ => Abstains.configure.before fun _ => ?_
        exact .get fun st => .pure ⟨ack, st.clock, rfl, ha, rfl, hv, rfl⟩
    case refine_2 =>
      rintro _ connection ⟨_, bytes, _, rfl, hf, ack, clock, rfl, ha, rfl, hv, rfl⟩
      rw [List.append_nil]
      exact ⟨ack, clock, hf, ha, hv, rfl⟩

end Handshake

namespace MqttConnection

-- The packets that were decoded have been cut off the front of the stream, whether or not the reader
-- has failed since.
def Heard (max : Nat) (c : MqttConnection) : Prop :=
  ∃ rest, (packetFraming max).Cut c.received c.dispatched rest

variable {c c' : MqttConnection} {max : Nat}

theorem Reads.to_heard (h : Reads max c) : Heard max c :=
  ⟨_, h.cut⟩

theorem Heard.same (h : Heard max c) (hi : c'.inbound = c.inbound) : Heard max c' := by
  simp only [inbound, Prod.mk.injEq] at hi
  obtain ⟨_, hr, hd⟩ := hi
  rw [Heard, hr, hd]
  exact h

theorem Heard.unchanged {M : MqttConnection → MqttConnection → Prop} (h : Heard max c)
    (hl : Relation.ReflTransGen M c c') (hm : ∀ {c c'}, M c c' → c'.inbound = c.inbound) : Heard max c' :=
  h.same (MqttConnection.unchanged hl hm)

theorem Ends.inbound (h : Ends c c') : c'.inbound = c.inbound := by
  cases h <;> rfl

end MqttConnection

namespace Driver

open MqttConnection

variable {driver driver' : Driver} {max : Nat}

theorem heard_decode (h : Reads max c) (next) : Heard max (perform decodeNext next c).connection := by
  rcases perform_decodeNext_cases c next with ⟨reader, p, _, hp⟩ | ⟨packet, reader, hd, hp⟩
  case inl =>
    rw [hp]
    exact h.to_heard
  case inr =>
    have ha := FrameReader.tryDecode_answers h.valid
    rw [hd, h.max_eq] at ha
    cases ha
    case item n hn hv hb hm =>
      have h : Heard max (c.arrived reader packet) := ⟨_, h.cut.item hn⟩
      rw [hp, perform_connection]
      rcases dispatchPacket_cases (c.arrived reader packet) packet with ⟨_, c', _, hc, he⟩ | hs
      case inl =>
        rw [hc]
        exact h.same he.inbound
      case inr => exact h.unchanged (dispatchPacket_arrives hs) Arrive.inbound

theorem heard_step (hr : driver.phase.running = true → Reads max driver.connection)
    (h : Heard max driver.connection) (hd : Does driver input driver') : Heard max driver'.connection := by
  cases hd
  case pass => exact h
  case wake => exact h
  case shift hm => exact h.same (inbound_of_aside (unchanged hm Shift.aside))
  case command command rest c p next hp _ =>
    rw [perform_connection]
    have h : Heard max (c.dequeued command rest) := h
    exact h.unchanged (processCommand_enters (mem_taken_dequeued ..)) fun he => inbound_of_aside he.aside
  case abandon =>
    rw [perform_connection]
    exact h.same (inbound_of_aside abandonCommands_aside)
  case keepAlive =>
    rw [perform_connection]
    exact h.unchanged maintainKeepAlive_begins fun hb => inbound_of_aside hb.aside
  case write =>
    rw [perform_connection]
    exact h.same (inbound_of_aside (writeFront_writes ..).aside)
  case flush =>
    rw [perform_connection]
    exact h.unchanged flushAccepted_flushes Flush.inbound
  case read hc => exact (reads_read (hr rfl) hc _).to_heard
  case decode => exact heard_decode (hr rfl) _
  case finish c result =>
    obtain ⟨c', hf, he⟩ := finish_ends c result
    rw [perform_ok hf]
    exact h.same he.inbound
  case outside ho => exact h.same (inbound_of_aside ho.aside)

theorem heard_run {options : ConnectOptions} {clock : Clock}
    (h : (start options connack clock).run inputs = some driver) :
    Heard options.maxPacketSize driver.connection := by
  refine run_induction (P := fun _ driver => Heard options.maxPacketSize driver.connection) ?_ ?_ h
  case refine_1 => exact ⟨_, .nil⟩
  case refine_2 => exact fun _ _ _ _ hr h hs => heard_step (reads_run hr) h (step_does hs)

end Driver

open MqttClient (connectWith)

-- Both clients, with the same options, at the same broker: they have agreed on the same with it, and one
-- has decoded the packets that the other has decoded and perhaps more, in the same order. It does not
-- matter how the bytes arrive at each of them, what each of them is asked to do and what has failed.
theorem connected_alike (options : ConnectOptions) (transport : Transport) (clock : Clock)
    (c₀ c : MqttClient) (turns : List Turn) (handshake handshake' : Handshake) (connection : MqttConnection)
    (inputs : List Input) (driver : Driver) (h₀ : connectWith transport clock options = .ok c₀)
    (hc : Conversation c₀ turns c)
    (h₁ : Handshake.connectWith options handshake = .ok connection handshake')
    (hd : Driver.run { connection } inputs = some driver)
    (hs : transport.ahead = handshake.stream.ahead)
    (hr : driver.connection.received <+: handshake'.stream.ahead) :
    ∃ ack, c₀.decoded = [.connAck ack] ∧ ack.reasonCode = 0 ∧
      c₀.serverCapabilities = connection.serverCapabilities ∧
      c₀.keepAliveSecs = connection.keepAliveSecs ∧
      c₀.maxOutboundPacketSize = connection.peerMaxPacketSize ∧
      parse (packetFraming options.maxPacketSize) (c₀.frameReader.buf ++ c₀.stream.ahead) =
        parse (packetFraming options.maxPacketSize) handshake'.stream.ahead ∧
      c.decoded <+: (parse (packetFraming options.maxPacketSize) transport.ahead).items ∧
      .connAck ack :: driver.connection.dispatched <+:
        (parse (packetFraming options.maxPacketSize) transport.ahead).items := by
  let F := packetFraming options.maxPacketSize
  obtain ⟨ack, ha⟩ := MqttClient.connectWith_agreed h₀
  obtain ⟨_, ack₁, hg⟩ := MqttClient.connectWith_greeted h₀
  obtain ⟨bytes, ⟨ack₂, clock', hf, _, _, rfl⟩, hb⟩ := Handshake.connectWith_takes options _ _ _ h₁
  have hd₀ := ha.greeting.decoded
  obtain rfl : ack₁ = ack := by
    have h := hg.left.symm.trans hd₀
    simpa using h
  have hb : transport.ahead = bytes ++ handshake'.stream.ahead := hs.trans hb
  -- The stream starts with the CONNACK for both of them.
  have hp₀ := ha.greeting.hears.parse_eq
  have hn : F.next transport.ahead = .item (.connAck ack₂) bytes.length := by
    rw [hb]
    exact nextPacket_item_iff.mpr ⟨by simp, by rwa [List.take_left]⟩
  have hp₁ : parse F transport.ahead = (parse F handshake'.stream.ahead).cons (.connAck ack₂) := by
    rw [Framing.parse_of_item hn, hb, List.drop_left]
  have he := hp₀.symm.trans hp₁
  rw [hd₀, Framing.Outcome.cons, Framing.Outcome.mk.injEq, List.singleton_append, List.cons.injEq,
    Packet.connAck.injEq] at he
  obtain ⟨⟨rfl, hi⟩, hrest⟩ := he
  refine ⟨ack₁, hd₀, ha.accepted, hg.right.left, ha.greeting.hears.keepAlive, hg.right.right, ?_,
    (hc.hears ha.greeting.hears).decoded, ?_⟩
  case refine_1 => exact Framing.Outcome.mk.injEq .. ▸ ⟨hi, hrest⟩
  case refine_2 =>
    obtain ⟨rest, hcut⟩ := Driver.heard_run hd
    obtain ⟨later, hl⟩ := hr
    have hp : driver.connection.dispatched <+: (parse F handshake'.stream.ahead).items := by
      rw [← hl, hcut later]
      exact List.prefix_append _ _
    rw [hp₁]
    exact (List.prefix_cons_inj _).mpr hp

-- A broker that wants to hear from its clients more often, and the first bytes of what it sends next
def eagerBroker : Transport where
  reads := [.ok [0x20, 0x06], .error { kind := .interrupted }, .ok [0, 0, 3, 0x13, 0, 30], .ok [0xD0]]
  writes := [.ok 64]
  flushes := [.ok ()]
  settings := List.replicate 32 (.ok ())

theorem connected_alike_eager :
    ∃ client connection handshake,
      connectWith eagerBroker MqttClient.steadyClock { clientId := "x" } = .ok client ∧
      Handshake.connectWith { clientId := "x" } ⟨eagerBroker, MqttClient.steadyClock⟩ = .ok connection handshake ∧
      client.keepAliveSecs = connection.keepAliveSecs ∧
      client.maxOutboundPacketSize = connection.peerMaxPacketSize := by
  have hc : (connectWith eagerBroker MqttClient.steadyClock { clientId := "x" }).isOk = true := by
    decide +kernel
  have hd : (Handshake.connectWith { clientId := "x" } ⟨eagerBroker, MqttClient.steadyClock⟩).value.isOk = true := by
    decide +kernel
  cases h : connectWith eagerBroker MqttClient.steadyClock { clientId := "x" }
  case error =>
    rw [h] at hc
    cases hc
  case ok client =>
    cases h' : Handshake.connectWith { clientId := "x" } ⟨eagerBroker, MqttClient.steadyClock⟩
    case error =>
      rw [h'] at hd
      cases hd
    case ok connection handshake =>
      obtain ⟨_, ack, clock, rfl⟩ := (Handshake.connectWith_ends _).of_ok trivial h'
      obtain ⟨_, _, _, _, hk, hm, _⟩ := connected_alike _ _ _ client client [] _ handshake _ [] _ h
        (.idle .start) h' rfl rfl List.nil_prefix
      exact ⟨client, _, handshake, rfl, rfl, hk, hm⟩

end MqttWasi
