import MqttWasi.Driver.Theorems.Traffic

-- The bytes that the driver holds for the transport.

namespace MqttWasi

def queuedBytes (frames : List OutboundFrame) : Nat :=
  (frames.map (·.bytes.length)).sum

def unflushedBytes (flushes : List PendingFlush) : Nat :=
  (flushes.map (·.bytes)).sum

theorem queuedBytes_append (frames frames' : List OutboundFrame) :
    queuedBytes (frames ++ frames') = queuedBytes frames + queuedBytes frames' := by
  simp [queuedBytes]

theorem queuedBytes_filter (p : OutboundFrame → Bool) (frames : List OutboundFrame) :
    queuedBytes (frames.filter p) + queuedBytes (frames.filter (!p ·)) = queuedBytes frames := by
  induction frames
  case nil => rfl
  case cons frame frames ih =>
    simp only [queuedBytes, List.filter_cons, List.map_cons, List.sum_cons] at ih ⊢
    cases p frame <;> simp <;> omega

-- Subtracting the sizes one by one, with saturation, is subtracting their sum.
theorem foldl_sub_bytes (frames : List OutboundFrame) (n : Nat) :
    frames.foldl (fun bytes frame => bytes - frame.bytes.length) n = n - queuedBytes frames := by
  induction frames generalizing n
  case nil => rfl
  case cons frame frames ih =>
    rw [List.foldl_cons, ih, queuedBytes, queuedBytes, List.map_cons, List.sum_cons, Nat.sub_sub]

namespace MqttConnection

structure Balanced (limit : Nat) (c : MqttConnection) : Prop where
  bytes : c.outboundBytes = queuedBytes c.outbound + unflushedBytes c.flushActions
  bound : c.outboundBytes ≤ limit
  limit : c.maxOutboundQueueBytes = limit

variable {c c' : MqttConnection} {limit : Nat}

-- Nothing else matters.
def account (c : MqttConnection) : Nat × List OutboundFrame × List PendingFlush × Nat :=
  (c.outboundBytes, c.outbound, c.flushActions, c.maxOutboundQueueBytes)

theorem Balanced.same (h : c.Balanced limit) (hc : c'.account = c.account) : c'.Balanced limit := by
  simp only [account, Prod.mk.injEq] at hc
  have ⟨hb, ho, hf, hm⟩ := hc
  exact ⟨by rw [hb, ho, hf, h.bytes], by rw [hb]; exact h.bound, by rw [hm, h.limit]⟩

theorem Balanced.push (h : c.Balanced limit) (frame) (hr : c.HasRoom frame.bytes) :
    (c.push frame).Balanced limit := by
  have hb := h.bytes
  have hr := hr.right
  rw [h.limit] at hr
  refine ⟨?_, hr, h.limit⟩
  simp only [MqttConnection.push, queuedBytes_append, hb]
  simp only [queuedBytes, List.map_cons, List.map_nil, List.sum_cons, List.sum_nil]
  omega

theorem Balanced.withdraw (h : c.Balanced limit) (correlationData) :
    (retainFrames correlationData c).Balanced limit := by
  have hs := queuedBytes_filter (isUnsentFrameOf correlationData) c.outbound
  have hb := h.bytes
  have hl := h.bound
  refine ⟨?_, ?_, h.limit⟩
  case refine_1 =>
    simp only [retainFrames, foldl_sub_bytes]
    omega
  case refine_2 =>
    simp only [retainFrames, foldl_sub_bytes]
    omega

-- A frame moves from one queue to the other.
theorem Balanced.write (h : c.Balanced limit) (ho : c.outbound = frame :: rest)
    (hw : Write frame rest c c') : c'.Balanced limit := by
  have hb := h.bytes
  rw [ho] at hb
  cases hw
  case none => exact h
  case part => exact ⟨hb, h.bound, h.limit⟩
  case whole =>
    refine ⟨?_, h.bound, h.limit⟩
    simp only [hb, queuedBytes, unflushedBytes, List.map_append, List.map_cons, List.map_nil,
      List.sum_append, List.sum_cons, List.sum_nil]
    omega

theorem Announce.account (h : Announce reason c c') : c'.account = c.account := by
  cases h <;> rfl

theorem Performs.account (h : Performs action c c') : c'.account = c.account := by
  cases h
  case disconnect ha => exact ha.account
  all_goals rfl

theorem Balanced.dropFlush (h : c.Balanced limit) (hf : c.flushActions = flush :: rest) :
    (c.dropFlush flush rest).Balanced limit := by
  have hb := h.bytes
  have hl := h.bound
  rw [hf, unflushedBytes, List.map_cons, List.sum_cons] at hb
  refine ⟨?_, ?_, h.limit⟩
  case refine_1 =>
    simp only [MqttConnection.dropFlush, unflushedBytes]
    omega
  case refine_2 =>
    simp only [MqttConnection.dropFlush]
    omega

theorem Balanced.step (h : c.Balanced limit) (ht : Traffic c c') : c'.Balanced limit := by
  cases ht
  case push hf => exact h.push _ ⟨hf.le_max, hf.room⟩
  case disconnect frame _ _ hf => exact (h.push frame ⟨hf.le_max, hf.room⟩).same rfl
  case ping hr => exact (h.push pingFrame hr).same rfl
  case withdraw correlationData => exact h.withdraw correlationData
  case write ho hw => exact h.write ho hw
  case complete hc hp => exact (h.dropFlush hc).same hp.account
  case announce ha => exact h.same ha.account
  all_goals exact h.same rfl

theorem Ends.balanced (he : Ends c c') (h : c.Balanced limit) : c'.Balanced limit := by
  cases he <;> exact ⟨rfl, Nat.zero_le _, h.limit⟩

end MqttConnection

namespace Driver

open MqttConnection

theorem balanced_run {options : ConnectOptions} {clock : Clock}
    (h : (start options connack clock).run inputs = some driver) :
    driver.connection.Balanced options.maxOutboundQueueBytes := by
  have := run_traffic (P := Balanced options.maxOutboundQueueBytes)
    (Q := Balanced options.maxOutboundQueueBytes) (fun _ _ ht h => h.step ht)
    (fun _ _ _ _ h => h.same rfl) (fun _ _ _ _ h => h.same rfl)
    (fun _ _ he h => he.balanced (h.elim id id)) (fun _ _ _ ho h => h.step ho.traffic)
    ⟨rfl, Nat.zero_le _, rfl⟩ (.trivial _ _) h
  exact this.elim id And.right

-- The counter of the bytes in the outbound queue is exact and never exceeds the limit. So what is
-- subtracted from it is never more than it.
theorem outbound_balanced (options : ConnectOptions) (connack : ConnAckPacket) (clock : Clock)
    (inputs : List Input) (driver : Driver)
    (h : (start options connack clock).run inputs = some driver) :
    driver.connection.outboundBytes = (driver.connection.outbound.map (·.bytes.length)).sum +
        (driver.connection.flushActions.map (·.bytes)).sum ∧
      driver.connection.outboundBytes ≤ options.maxOutboundQueueBytes ∧
      (driver.connection.flushActions.map (·.bytes)).sum ≤ driver.connection.outboundBytes ∧
      ∀ correlationData, ((driver.connection.outbound.filter
          (isUnsentFrameOf correlationData)).map (·.bytes.length)).sum ≤
        driver.connection.outboundBytes := by
  have hb := balanced_run h
  have he := hb.bytes
  refine ⟨he, hb.bound, ?_, fun correlationData => ?_⟩
  case refine_1 => exact he ▸ Nat.le_add_left _ _
  case refine_2 =>
    have hs := queuedBytes_filter (isUnsentFrameOf correlationData) driver.connection.outbound
    calc queuedBytes (driver.connection.outbound.filter (isUnsentFrameOf correlationData))
      _ ≤ queuedBytes driver.connection.outbound := by omega
      _ ≤ driver.connection.outboundBytes := he ▸ Nat.le_add_right _ _

-- A QoS 0 message has been written but not flushed, and another one waits behind it.
def backpressure : List Input :=
  [.submit (.publish "a" [] {} 0), .submit (.publish "a" [1] {} 1), .proceed, .proceed, .proceed,
    .proceed, .proceed, .written (.ok 6)]

theorem outbound_balanced_backpressure :
    ∃ driver, (start plainOptions plainConnack stillClock).run backpressure = some driver ∧
      driver.connection.outboundBytes = 13 ∧
      driver.connection.outbound.map (·.bytes.length) = [7] ∧
      driver.connection.flushActions.map (·.bytes) = [6] ∧
      driver.connection.outboundBytes ≤ plainOptions.maxOutboundQueueBytes :=
  ⟨_, rfl, rfl, rfl, rfl,
    (outbound_balanced plainOptions plainConnack stillClock backpressure _ rfl).right.left⟩

end Driver
end MqttWasi
