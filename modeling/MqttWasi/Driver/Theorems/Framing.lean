import MqttWasi.Library.FrameQueue
import MqttWasi.Driver.Theorems.Traffic

-- The byte stream that the broker sees.

namespace MqttWasi

namespace OutboundFrame

def queue : FrameQueue OutboundFrame UInt8 where
  bytes := bytes
  offset := offset

-- The frame as it was queued.
def unstarted (frame : OutboundFrame) : OutboundFrame :=
  { frame with offset := 0 }

end OutboundFrame

-- The bytes are one control packet.
def Whole (bytes : Bytes) : Prop :=
  (packetTypeOf bytes).isSome

namespace MqttConnection

open Relation (ReflTransGen)

-- The frames that have been written or will be, as they were queued.
def frames (c : MqttConnection) : List OutboundFrame :=
  (c.written ++ c.outbound).map (·.unstarted)

structure Framed (c : MqttConnection) : Prop where
  wire : OutboundFrame.queue.Framed c.written c.outbound c.wire
  ordered : c.frames.Sublist c.enqueued
  whole : ∀ frame ∈ c.frames, Whole frame.bytes
  max_lt : c.peerMaxPacketSize < 2 ^ 32

variable {c c' : MqttConnection}

theorem frames_push (c : MqttConnection) (frame : OutboundFrame) :
    (c.push frame).frames = c.frames ++ [frame.unstarted] := by
  simp [frames, MqttConnection.push]

theorem frames_withoutRequest (c : MqttConnection) (correlationData pending) :
    (c.withoutRequest correlationData pending).frames.Sublist c.frames := by
  have ⟨_, _, _, he⟩ := withoutRequest_eq c correlationData pending
  rw [he]
  exact ((List.filter_sublist).append_left _).map _

-- Nothing else matters.
def outgoing (c : MqttConnection) :
    List OutboundFrame × List OutboundFrame × List OutboundFrame × Bytes × Nat :=
  (c.written, c.outbound, c.enqueued, c.wire, c.peerMaxPacketSize)

theorem Framed.same (h : c.Framed) (hc : c'.outgoing = c.outgoing) : c'.Framed := by
  simp only [outgoing, Prod.mk.injEq] at hc
  have ⟨hw, ho, he, hb, hm⟩ := hc
  have hf : c'.frames = c.frames := by rw [frames, hw, ho, frames]
  refine ⟨?_, ?_, ?_, hm ▸ h.max_lt⟩
  case refine_1 => rw [hw, ho, hb]; exact h.wire
  case refine_2 => rw [hf, he]; exact h.ordered
  case refine_3 => rw [hf]; exact h.whole

theorem Framed.push (h : c.Framed) (frame) (hf : c.Fits frame.bytes t asked)
    (ho : frame.offset = 0) : (c.push frame).Framed := by
  have ha := hf.asks (Nat.lt_of_le_of_lt hf.le_max h.max_lt)
  have hu : frame.unstarted = frame := by rw [OutboundFrame.unstarted, ← ho]
  have hp := frames_push c frame
  rw [hu] at hp
  refine ⟨h.wire.push ho ha.ne_nil, ?_, fun frame' hm => ?_, h.max_lt⟩
  case refine_1 =>
    rw [hp]
    exact h.ordered.append_right _
  case refine_2 =>
    rw [hp] at hm
    rcases List.mem_append.mp hm with hm | hm
    case inl => exact h.whole frame' hm
    case inr => rw [List.mem_singleton.mp hm, Whole, ha.typed]; rfl

-- Only frames that have not been started are taken out of the queue.
theorem Framed.withdraw (h : c.Framed) (correlationData) :
    (retainFrames correlationData c).Framed := by
  have hs : (retainFrames correlationData c).frames.Sublist c.frames :=
    ((List.filter_sublist).append_left _).map _
  refine ⟨h.wire.withdraw fun frame _ ho => ?_, hs.trans h.ordered,
    fun frame hm => h.whole frame (hs.subset hm), h.max_lt⟩
  simp [isUnsentFrameOf, Nat.ne_of_gt (show 0 < frame.offset from ho)]

theorem Announce.outgoing (h : Announce reason c c') : c'.outgoing = c.outgoing := by
  cases h <;> rfl

theorem Performs.outgoing (h : Performs action c c') : c'.outgoing = c.outgoing := by
  cases h
  case disconnect ha => exact ha.outgoing
  all_goals rfl

-- Whatever part of a frame is accepted, the sequence of frames remains the same.
theorem Write.frames (h : Write frame rest c c') (ho : c.outbound = frame :: rest) :
    c'.frames = c.frames := by
  cases h <;> simp [MqttConnection.frames, ho, OutboundFrame.unstarted]

theorem Framed.write (h : c.Framed) (ho : c.outbound = frame :: rest)
    (hw : Write frame rest c c') : c'.Framed := by
  have hq := h.wire
  rw [ho] at hq
  have hf := hw.frames ho
  cases hw
  case none => exact h
  case part hl =>
    exact ⟨hq.advance rfl rfl hl, by rw [hf]; exact h.ordered, by rw [hf]; exact h.whole, h.max_lt⟩
  case whole hl =>
    exact ⟨hq.pop rfl rfl hl, by rw [hf]; exact h.ordered, by rw [hf]; exact h.whole, h.max_lt⟩

theorem Framed.step (h : c.Framed) (ht : Traffic c c') : c'.Framed := by
  cases ht
  case push hp _ _ hf => exact h.push _ hf hp.unstarted
  case disconnect frame hp _ hf => exact (h.push frame hf hp.unstarted).same rfl
  case ping hr => exact (h.push pingFrame hr.ping rfl).same rfl
  case withdraw correlationData => exact h.withdraw correlationData
  case write ho hw => exact h.write ho hw
  case complete hp => exact h.same hp.outgoing
  case announce ha => exact h.same ha.outgoing
  all_goals exact h.same rfl

theorem Framed.traffic (h : c.Framed) (ht : ReflTransGen Traffic c c') : c'.Framed :=
  ht.preserves (fun _ _ ht h => h.step ht) h

theorem Framed.wire_prefix (h : c.Framed) : c.wire <+: c.frames.flatMap (·.bytes) := by
  rw [frames, List.flatMap_map]
  exact h.wire.wire_prefix

-- What has been sent is the beginning of a sequence of control packets.
def SendsPackets (c : MqttConnection) : Prop :=
  ∃ frames : List OutboundFrame, (∀ frame ∈ frames, Whole frame.bytes) ∧
    c.wire <+: frames.flatMap (·.bytes)

theorem Framed.sendsPackets (h : c.Framed) : c.SendsPackets :=
  ⟨c.frames, h.whole, h.wire_prefix⟩

theorem Ends.wire (h : Ends c c') : c'.wire = c.wire := by
  cases h <;> rfl

theorem Outside.wire (h : Outside c input c') : c'.wire = c.wire := by
  cases h <;> rfl

end MqttConnection

namespace Driver

open MqttConnection

def Framed (driver : Driver) : Prop :=
  driver.connection.Framed ∨ (driver.phase.terminated = true ∧ driver.connection.SendsPackets)

theorem Framed.sendsPackets {driver : Driver} (h : driver.Framed) :
    driver.connection.SendsPackets :=
  h.elim (·.sendsPackets) (·.right)

theorem framed_start (options connack clock) : (start options connack clock).connection.Framed := by
  refine ⟨.nil, .slnil, by simp [frames, start, new], ?_⟩
  change ((connack.properties.getU32 .maximumPacketSize).map (·.toNat)).getD 268435460 < 2 ^ 32
  cases connack.properties.getU32 .maximumPacketSize
  case none => decide
  case some size => exact size.toNat_lt

theorem framed_run {clock : Clock} (h : (start options connack clock).run inputs = some driver) :
    driver.Framed := by
  refine run_traffic (P := MqttConnection.Framed) (Q := SendsPackets) (fun _ _ ht h => h.step ht)
    (fun _ _ _ _ h => h.same rfl) (fun _ _ _ _ h => h.same rfl) ?_ ?_
    (framed_start options connack clock) (.trivial _ _) h
  case refine_1 =>
    intro c c' he h
    rw [SendsPackets, he.wire]
    exact h.elim (·.sendsPackets) id
  case refine_2 =>
    intro c input c' ho h
    rw [SendsPackets, ho.wire]
    exact h

-- As long as the driver has not emptied its queue, the bytes that the transport has accepted are the
-- frames that were completely written, in the order in which they were queued, and the part of the
-- frame in front of the queue that its offset says.
theorem wire_framed (options : ConnectOptions) (connack : ConnAckPacket) (clock : Clock)
    (inputs : List Input) (driver : Driver)
    (h : (start options connack clock).run inputs = some driver) :
    (driver.phase.terminated = false → driver.connection.Framed ∧
      ∀ correlationData, ∀ frame ∈ driver.connection.outbound, 0 < frame.offset →
        frame ∈ (removeRequest correlationData driver.connection).state.outbound) ∧
    driver.connection.SendsPackets := by
  have hf := framed_run h
  refine ⟨fun hp => ⟨?_, fun correlationData frame hm ho => ?_⟩, hf.sendsPackets⟩
  case refine_1 =>
    rcases hf with hf | ⟨ht, _⟩
    case inl => exact hf
    case inr => exact absurd (ht.symm.trans hp) nofun
  case refine_2 =>
    cases hr : driver.connection.pendingRequests.lookup correlationData
    case none => rw [removeRequest_of_none hr]; exact hm
    case some pending =>
      have ⟨_, _, _, he⟩ := withoutRequest_eq driver.connection correlationData pending
      rw [removeRequest_of_some hr, EStateM.Result.state, he]
      refine List.mem_filter.mpr ⟨hm, ?_⟩
      simp [isUnsentFrameOf, Nat.ne_of_gt ho]

-- The transport accepts a part of a SUBSCRIBE.
def partialWrite : List Input :=
  [.submit (.subscribe "a" .atMostOnce 0), .proceed, .proceed, .proceed, .proceed,
    .written (.ok 3)]

theorem wire_framed_partialWrite :
    ∃ driver, (start plainOptions plainConnack stillClock).run partialWrite = some driver ∧
      driver.connection.wire = [0x82, 7, 0] ∧ driver.phase.terminated = false ∧
      driver.connection.Framed :=
  ⟨_, rfl, rfl, rfl,
    ((wire_framed plainOptions plainConnack stillClock partialWrite _ rfl).left rfl).left⟩

end Driver
end MqttWasi
