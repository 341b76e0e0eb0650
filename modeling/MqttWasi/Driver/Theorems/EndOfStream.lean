import MqttWasi.Frame.Theorems.Refinement
import MqttWasi.Driver.Theorems.Runs

-- What becomes of the packets that have arrived when the stream ends.

namespace MqttWasi

open Relation (ReflTransGen)
open Framing (parse)

namespace MqttConnection

variable {c c' : MqttConnection} {max : Nat}

theorem inbound_of_aside (h : c'.aside = c.aside) : c'.inbound = c.inbound :=
  congrArg (·.2.1) h

theorem Arrive.inbound (h : Arrive c c') : c'.inbound = c.inbound := by
  cases h
  case resolve hr =>
    cases hr
    case move hm => exact inbound_of_aside hm.aside
    all_goals rfl
  case respond pending correlationData _ _ =>
    exact inbound_of_aside (aside_withoutRequest c correlationData pending)
  all_goals rfl

theorem Announce.inbound (h : Announce reason c c') : c'.inbound = c.inbound := by
  cases h <;> rfl

theorem Performs.inbound (h : Performs action c c') : c'.inbound = c.inbound := by
  cases h
  case disconnect ha => exact ha.inbound
  all_goals rfl

theorem Flush.inbound (h : Flush c c') : c'.inbound = c.inbound := by
  cases h
  case accept => rfl
  case complete hp => exact hp.inbound

-- The packets that were decoded have been cut off the front of the stream.
structure Reads (max : Nat) (c : MqttConnection) : Prop where
  valid : c.frameReader.Valid
  max_eq : c.frameReader.maxPacketSize = max
  cut : (packetFraming max).Cut c.received c.dispatched c.frameReader.buf

theorem Reads.same (h : Reads max c) (hi : c'.inbound = c.inbound) : Reads max c' := by
  simp only [inbound, Prod.mk.injEq] at hi
  have ⟨hf, hr, hd⟩ := hi
  exact ⟨hf ▸ h.valid, hf ▸ h.max_eq, by rw [hf, hr, hd]; exact h.cut⟩

end MqttConnection

namespace Driver

open MqttConnection

variable {c c' : MqttConnection} {max : Nat}

theorem reads_perform {M : MqttConnection → MqttConnection → Prop} {x : DriverM α}
    (h : Reads max c) (hm : ∀ {c c'}, M c c' → c'.inbound = c.inbound)
    (hx : EStateM.Leads M c x) (next) : Reads max (perform x next c).connection := by
  rw [perform_connection]
  exact h.same (unchanged hx hm)

theorem reads_read (h : Reads max c)
    (hc : ∀ bytes, result = .ok bytes → bytes.length ≤ c.readCapacity) (next) :
    Reads max (perform (readNext result) next c).connection := by
  rw [perform_connection]
  have hr := readNext_receives (c := c) result
  generalize (readNext result c).state = c' at hr ⊢
  cases hr
  case idle => exact h
  case close ha => exact h.same ha.inbound
  case receive bytes hb =>
    have hl : bytes.length ≤ c.frameReader.remainingCapacity :=
      (hc bytes hb).trans (Nat.min_le_left _ _)
    have ⟨hv, hbuf, hm⟩ := h.valid.push hl
    exact ⟨hv, hm.trans h.max_eq, by simp only [hbuf]; exact h.cut.append bytes⟩

-- Unless decoding fails, which stops the driver.
theorem reads_decode (h : Reads max c) (next)
    (hr : (perform decodeNext next c).phase.running = true) :
    Reads max (perform decodeNext next c).connection := by
  have ha := FrameReader.tryDecode_answers h.valid
  cases hd : FrameReader.tryDecode c.frameReader <;> rw [hd, h.max_eq] at ha <;> cases ha
  case error.fail =>
    rw [perform_error (decodeNext_of_error hd)] at hr
    cases hr
  case ok.more reader hw hb =>
    rw [perform_ok (decodeNext_of_none hd)]
    exact ⟨hw.valid, hw.max_eq, by rw [hb]; exact h.cut⟩
  case ok.item reader packet n hn hv hb hm =>
    rw [perform_decodeNext hd] at hr ⊢
    have h : Reads max (c.arrived reader packet) :=
      ⟨hv, hm, by simp only [arrived, hb]; exact h.cut.item hn⟩
    rcases dispatchPacket_cases (c.arrived reader packet) packet with ⟨_, c', _, hc, _⟩ | hs
    case inl =>
      rw [perform_error hc] at hr
      cases hr
    case inr => exact reads_perform h Arrive.inbound (dispatchPacket_arrives hs) _

theorem reads_step {driver driver' : Driver}
    (h : driver.phase.running = true → Reads max driver.connection)
    (hd : Does driver input driver') (hr : driver'.phase.running = true) :
    Reads max driver'.connection := by
  cases hd
  case pass hp => exact h hp
  case wake => exact h rfl
  case shift hp hm => exact (h hp).same (inbound_of_aside (unchanged hm Shift.aside))
  case command command rest c p next hp _ =>
    have h : Reads max (c.dequeued command rest) := (h (Phase.running_of_takes hp)).same rfl
    exact reads_perform h (fun he => inbound_of_aside he.aside)
      (processCommand_enters (mem_taken_dequeued ..)) _
  case abandon c p next hp =>
    rw [perform_connection]
    exact (h hp).same (inbound_of_aside abandonCommands_aside)
  case keepAlive =>
    exact reads_perform (h rfl) (fun hb => inbound_of_aside hb.aside) maintainKeepAlive_begins _
  case write hp ho =>
    rw [perform_connection]
    exact (h hp).same (inbound_of_aside (writeFront_writes ..).aside)
  case flush hp => exact reads_perform (h hp) Flush.inbound flushAccepted_flushes _
  case read hc => exact reads_read (h rfl) hc _
  case decode => exact reads_decode (h rfl) _ hr
  case finish c result =>
    have ⟨c', hf, _⟩ := finish_ends c result
    rw [perform_ok hf] at hr
    cases hr
  case outside ho => exact (h hr).same (inbound_of_aside ho.aside)

theorem reads_run {options : ConnectOptions} {clock : Clock}
    (h : (start options connack clock).run inputs = some driver) :
    driver.phase.running = true → Reads options.maxPacketSize driver.connection := by
  refine run_preserves (P := fun driver => driver.phase.running = true →
    Reads options.maxPacketSize driver.connection) (fun _ _ _ h hd => reads_step h hd) ?_ h
  exact fun _ => ⟨.withMaxPacketSize _, rfl, .nil⟩

-- All packets that the received bytes start with have been dispatched.
def LosesNothing (max : Nat) (driver : Driver) : Prop :=
  driver.connection.dispatched = (parse (packetFraming max) driver.connection.received).items

-- When nothing more can be read for now, the driver does not dispatch anything else than `packets`
-- either before it goes on.
def DispatchesNoMore (driver : Driver) (packets : List Packet) : Prop :=
  ∀ e later last, e.kind = .wouldBlock → driver.step (.read (.error e)) = some later →
    later.step .proceed = some last →
      last.connection.dispatched = packets ∧ last.phase ≠ .decodeAndDispatch

-- Whether the bytes that have not been decoded start with a complete packet.
def HoldsPacket (max : Nat) (driver : Driver) : Prop :=
  ∃ packet n, nextPacket max driver.connection.frameReader.buf = .item packet n

theorem dispatchesNoMore (h : Reads max c)
    (hn : ∀ packet n, nextPacket max c.frameReader.buf ≠ .item packet n) (left) :
    DispatchesNoMore ⟨c, .readAvailable (left + 1)⟩ c.dispatched := by
  intro e later last he hl hp
  obtain ⟨_, _, rfl⟩ := step_read hl
  rw [perform_ok (readNext_wouldBlock he c)] at hp
  cases hp
  have ha := FrameReader.tryDecode_answers h.valid
  cases hd : FrameReader.tryDecode c.frameReader <;> rw [hd, h.max_eq] at ha <;> cases ha
  case error.fail =>
    rw [perform_error (decodeNext_of_error hd)]
    exact ⟨rfl, nofun⟩
  case ok.more =>
    rw [perform_ok (decodeNext_of_none hd)]
    exact ⟨rfl, nofun⟩
  case ok.item packet n hi _ _ _ => exact absurd hi (hn packet n)

-- When the stream ends, whatever is still in the buffer of the reader is not decoded any more. So the
-- packets in what was received have all been dispatched, whether or not the transport reported that
-- it had nothing more for now, exactly if there is no complete packet in the buffer.
theorem end_loses_nothing_iff (options : ConnectOptions) (connack : ConnAckPacket) (clock : Clock)
    (inputs : List Input) (driver last : Driver)
    (h : (start options connack clock).run inputs = some driver)
    (hl : driver.step (.read (.ok [])) = some last) :
    last.phase = .stopping (.error .connectionClosed) ∧
      (LosesNothing options.maxPacketSize last ∧
        DispatchesNoMore driver last.connection.dispatched ↔
      ¬HoldsPacket options.maxPacketSize driver) := by
  have ⟨c, p⟩ := driver
  obtain ⟨left, rfl, rfl⟩ := step_read hl
  have hr : Reads options.maxPacketSize c := reads_run h rfl
  have ⟨c', he, hs⟩ := readNext_end c
  rw [perform_error he]
  have hi : c'.inbound = c.inbound := hs.inbound
  simp only [inbound, Prod.mk.injEq] at hi
  have ⟨_, hrec, hdis⟩ := hi
  have hc := hr.cut.items_eq_iff
  refine ⟨rfl, ?_⟩
  simp only [LosesNothing, HoldsPacket, hrec, hdis, hc, not_exists]
  exact ⟨And.left, fun hn => ⟨hn, dispatchesNoMore hr hn left⟩⟩

-- The broker answers a SUBSCRIBE. Then it closes the connection in the middle of a message.
def endInPacket : List Input :=
  [.submit (.subscribe "a" .atMostOnce 0), .proceed, .proceed, .proceed, .proceed, .written (.ok 9),
    .proceed, .flushed (.ok ()), .read (.ok [0x90, 4, 0, 1, 0, 0, 0x30, 5, 0]),
    .read (.error { kind := .wouldBlock }), .proceed, .proceed, .proceed, .proceed, .proceed, .proceed,
    .proceed, .proceed, .elapsed, .proceed, .proceed, .proceed, .proceed, .proceed]

theorem endInPacket_loses_nothing :
    ∃ driver last, (start plainOptions plainConnack stillClock).run endInPacket = some driver ∧
      driver.step (.read (.ok [])) = some last ∧
      last.phase = .stopping (.error .connectionClosed) ∧
      last.connection.dispatched = [.subAck { packetId := 1, reasonCodes := [0] }] ∧
      LosesNothing plainOptions.maxPacketSize last ∧
      DispatchesNoMore driver last.connection.dispatched := by
  obtain ⟨driver, last, hr, hl, hb, hd⟩ := exists_run_step (start plainOptions plainConnack stillClock)
    endInPacket (.read (.ok [])) (·.connection.frameReader.buf = [0x30, 5, 0])
    (·.connection.dispatched = [.subAck { packetId := 1, reasonCodes := [0] }]) (by decide +kernel)
  have h := end_loses_nothing_iff plainOptions plainConnack stillClock endInPacket driver last hr hl
  refine ⟨driver, last, hr, hl, h.left, hd, h.right.mpr fun ⟨packet, n, hn⟩ => ?_⟩
  rw [hb] at hn
  cases hn

-- The broker answers a SUBSCRIBE and closes the connection.
def subackThenEnd : List Input :=
  [.submit (.subscribe "a" .atMostOnce 0), .proceed, .proceed, .proceed, .proceed,
    .written (.ok 9), .proceed, .flushed (.ok ()), .read (.ok [0x90, 4, 0, 1, 0, 0])]

-- The SUBACK is lost and the waiter told that the connection was closed, but not if the transport
-- reports in between that it has nothing more for now.
theorem suback_lost_at_end :
    (∃ driver last, (start plainOptions plainConnack stillClock).run subackThenEnd = some driver ∧
      driver.step (.read (.ok [])) = some last ∧
      last.phase = .stopping (.error .connectionClosed) ∧
      last.connection.dispatched = [] ∧
      (parse (packetFraming plainOptions.maxPacketSize) last.connection.received).items.length = 1 ∧
      ¬LosesNothing plainOptions.maxPacketSize last) ∧
    ((start plainOptions plainConnack stillClock).run
      (subackThenEnd ++ [.read (.ok []), .proceed])).map (·.connection.replies) =
        some [(0, .error .connectionClosed)] ∧
    ((start plainOptions plainConnack stillClock).run
      (subackThenEnd ++ [.read (.error { kind := .wouldBlock }), .proceed])).map
        (·.connection.replies) =
          some [(0, .ok (.subscription { packetId := 1, reasonCodes := [0] }))] := by
  refine ⟨⟨_, _, rfl, rfl, rfl, rfl, rfl, fun hl => ?_⟩, by decide +kernel, by decide +kernel⟩
  have := congrArg List.length hl
  cases this

end Driver
end MqttWasi
