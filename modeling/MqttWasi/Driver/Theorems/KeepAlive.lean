import MqttWasi.Driver.Theorems.Framing

-- Whether the driver knows which of its PINGREQs have been answered.

namespace MqttWasi

def Packet.isPingResp : Packet → Bool
  | .pingResp => true
  | _         => false

namespace OutboundFrame

def isPingReq (frame : OutboundFrame) : Bool :=
  packetTypeOf frame.bytes = some .pingReq

def pings (frame : OutboundFrame) : Bool :=
  frame.action = .pingReq

theorem Proper.pings {frame : OutboundFrame} (h : frame.Proper t) (ht : t ≠ .pingReq) :
    frame.pings = false := by
  simp [OutboundFrame.pings, h.ping, ht]

end OutboundFrame

def PendingFlush.pings (flush : PendingFlush) : Bool :=
  flush.action = .pingReq

namespace MqttConnection

-- The PINGREQs that have been written and the PINGRESPs that have been dispatched.

def pingReqs (c : MqttConnection) : Nat :=
  c.written.countP (·.isPingReq)

def pingResps (c : MqttConnection) : Nat :=
  c.dispatched.countP (·.isPingResp)

-- The driver believes that a PINGREQ has not been answered only if one has not.
def Truthful (c : MqttConnection) : Prop :=
  c.pingOutstandingSince ≠ none → c.pingResps < c.pingReqs

-- At most one PINGREQ is on its way, and none while an answer is outstanding.
structure PingsOnce (c : MqttConnection) : Prop where
  -- The frames that can be withdrawn are not PINGREQs.
  requests : ∀ frame ∈ c.outbound, frame.requestCorrelation ≠ none → frame.pings = false
  queued : c.outbound.countP (·.pings) + c.flushActions.countP (·.pings) = c.pingQueued.toNat
  exclusive : c.pingQueued = true → c.pingOutstandingSince = none

structure KeepsAlive (c : MqttConnection) : Prop where
  framed : c.Framed
  typed : ∀ frame ∈ c.outbound, frame.pings = frame.isPingReq
  -- The frames that can be withdrawn are not PINGREQs.
  requests : ∀ frame ∈ c.outbound, frame.requestCorrelation ≠ none → frame.pings = false
  written : c.pingReqs = c.pingResps + c.flushActions.countP (·.pings) +
    c.pingOutstandingSince.toList.length
  queued : c.outbound.countP (·.pings) + c.flushActions.countP (·.pings) = c.pingQueued.toNat
  exclusive : c.pingQueued = true → c.pingOutstandingSince = none

variable {c c' : MqttConnection}

theorem KeepsAlive.truthful (h : c.KeepsAlive) : c.Truthful := by
  intro hp
  have hw := h.written
  cases ho : c.pingOutstandingSince
  case none => exact absurd ho hp
  case some =>
    rw [ho] at hw
    simp only [Option.toList_some, List.length_singleton] at hw
    omega

theorem KeepsAlive.once (h : c.KeepsAlive) : c.PingsOnce :=
  ⟨h.requests, h.queued, h.exclusive⟩

namespace PingsOnce

theorem push (h : c.PingsOnce) (frame) (hp : frame.pings = false) : (c.push frame).PingsOnce := by
  refine ⟨?_, ?_, h.exclusive⟩
  case refine_1 =>
    rw [MqttConnection.push, List.forall_mem_append, List.forall_mem_singleton]
    exact ⟨h.requests, fun _ => hp⟩
  case refine_2 =>
    rw [MqttConnection.push, List.countP_append, List.countP_singleton, hp]
    exact h.queued

theorem ping (h : c.PingsOnce) (ho : c.pingOutstandingSince = none) (hq : c.pingQueued = false) :
    PingsOnce { c.push pingFrame with pingQueued := true } := by
  have hn := h.queued
  rw [hq] at hn
  refine ⟨?_, ?_, fun _ => ho⟩
  case refine_1 =>
    rw [MqttConnection.push, List.forall_mem_append, List.forall_mem_singleton]
    exact ⟨h.requests, absurd rfl⟩
  case refine_2 =>
    simp only [MqttConnection.push, List.countP_append, List.countP_singleton]
    rw [show pingFrame.pings = true from rfl]
    simp only [Bool.toNat_false, if_true, Bool.toNat_true] at hn ⊢
    omega

theorem withdraw (h : c.PingsOnce) (correlationData) :
    (retainFrames correlationData c).PingsOnce := by
  refine ⟨fun frame hm => h.requests frame (List.mem_of_mem_filter hm), ?_, h.exclusive⟩
  have hk : (c.outbound.filter (!isUnsentFrameOf correlationData ·)).countP (·.pings) =
      c.outbound.countP (·.pings) := by
    rw [List.countP_filter]
    refine List.countP_congr fun frame hm => ?_
    have hr := h.requests frame hm
    simp only [isUnsentFrameOf, Bool.and_eq_true, Bool.not_eq_true', decide_eq_false_iff_not,
      not_and, and_iff_left_iff_imp]
    intro hp _ hc
    rw [hr (by simp [hc])] at hp
    cases hp
  have hq := h.queued
  rw [← hk] at hq
  exact hq

-- A frame that has been written waits to be flushed.
theorem write (h : c.PingsOnce) (ho : c.outbound = frame :: rest) (hw : Write frame rest c c') :
    c'.PingsOnce := by
  have hr := h.requests
  have hq := h.queued
  rw [ho, List.forall_mem_cons] at hr
  rw [ho, List.countP_cons] at hq
  cases hw
  case none => exact h
  case part =>
    refine ⟨List.forall_mem_cons.mpr hr, ?_, h.exclusive⟩
    rw [List.countP_cons]
    exact hq
  case whole =>
    refine ⟨hr.right, ?_, h.exclusive⟩
    have hl : PendingFlush.pings { bytes := frame.bytes.length, action := frame.action } =
        frame.pings := rfl
    simp only [List.countP_append, List.countP_singleton, hl]
    omega

theorem queued_of_flush (h : c.PingsOnce) (hf : c.flushActions = flush :: rest)
    (hp : flush.pings = true) :
    c.pingQueued = true ∧ c.outbound.countP (·.pings) = 0 ∧ rest.countP (·.pings) = 0 := by
  have hq := h.queued
  have hl := Bool.toNat_le c.pingQueued
  rw [hf, List.countP_cons, hp] at hq
  simp only [if_true] at hq
  refine ⟨?_, by omega, by omega⟩
  rw [← Bool.toNat_eq_one]
  omega

-- When the PINGREQ has been flushed, it counts as outstanding.
theorem complete (h : c.PingsOnce) (hf : c.flushActions = flush :: rest)
    (hp : Performs flush.action (c.dropFlush flush rest) c') : c'.PingsOnce := by
  have hn : flush.pings = false → (c.dropFlush flush rest).PingsOnce := by
    intro hn
    have hq := h.queued
    rw [hf, List.countP_cons, hn] at hq
    exact ⟨h.requests, hq, h.exclusive⟩
  unfold PendingFlush.pings at hn
  generalize ha : flush.action = action at hp
  cases hp
  case none => exact hn (by rw [ha]; rfl)
  case abandonedDisconnect => exact hn (by rw [ha]; rfl)
  case publishQos0 =>
    have h := hn (by rw [ha]; rfl)
    exact ⟨h.requests, h.queued, h.exclusive⟩
  case disconnect hs =>
    have h := hn (by rw [ha]; rfl)
    cases hs <;> exact ⟨h.requests, h.queued, h.exclusive⟩
  case pingReq =>
    have hl : flush.pings = true := by rw [PendingFlush.pings, ha]; rfl
    obtain ⟨_, ho, hr⟩ := h.queued_of_flush hf hl
    refine ⟨h.requests, ?_, nofun⟩
    simp only [MqttConnection.dropFlush, ho, hr, Bool.toNat_false]

theorem step (h : c.PingsOnce) (ht : Traffic c c') : c'.PingsOnce := by
  cases ht
  case push hp ht _ _ => exact h.push _ (hp.pings ht)
  case disconnect frame hp _ _ =>
    have h' := h.push frame (hp.pings nofun)
    exact ⟨h'.requests, h'.queued, h'.exclusive⟩
  case ping ho hq _ => exact h.ping ho hq
  case withdraw correlationData => exact h.withdraw correlationData
  case write ho hw => exact h.write ho hw
  case complete hc hp => exact h.complete hc hp
  case announce ha => cases ha <;> exact ⟨h.requests, h.queued, h.exclusive⟩
  all_goals exact ⟨h.requests, h.queued, h.exclusive⟩

end PingsOnce

-- Nothing else matters, as long as the frames are framed.
def pinging (c : MqttConnection) :
    List OutboundFrame × List OutboundFrame × List Packet × List PendingFlush × Bool ×
      Option Instant :=
  (c.outbound, c.written, c.dispatched, c.flushActions, c.pingQueued, c.pingOutstandingSince)

theorem KeepsAlive.same (h : c.KeepsAlive) (hf : c'.Framed) (hc : c'.pinging = c.pinging) :
    c'.KeepsAlive := by
  simp only [pinging, Prod.mk.injEq] at hc
  have ⟨ho, hw, hd, hl, hq, hp⟩ := hc
  exact {
    framed := hf
    typed := by rw [ho]; exact h.typed
    requests := by rw [ho]; exact h.requests
    written := by rw [pingReqs, pingResps, hw, hd, hl, hp]; exact h.written
    queued := by rw [ho, hl, hq]; exact h.queued
    exclusive := by rw [hq, hp]; exact h.exclusive
  }

theorem KeepsAlive.push (h : c.KeepsAlive) (frame) (hp : frame.Proper t) (ht : t ≠ .pingReq)
    (hf : c.Fits frame.bytes t asked) : (c.push frame).KeepsAlive := by
  have hy := (hf.asks (Nat.lt_of_le_of_lt hf.le_max h.framed.max_lt)).typed
  have hi : frame.isPingReq = false := by simp [OutboundFrame.isPingReq, hy, ht]
  have ho := h.once.push frame (hp.pings ht)
  refine ⟨h.framed.push frame hf hp.unstarted, ?_, ho.requests, h.written, ho.queued, ho.exclusive⟩
  rw [MqttConnection.push, List.forall_mem_append, List.forall_mem_singleton]
  exact ⟨h.typed, by rw [hp.pings ht, hi]⟩

theorem KeepsAlive.ping (h : c.KeepsAlive) (ho : c.pingOutstandingSince = none)
    (hq : c.pingQueued = false) (hr : c.HasRoom pingreqBytes) :
    KeepsAlive { c.push pingFrame with pingQueued := true } := by
  have hf : (c.push pingFrame).Framed := h.framed.push pingFrame hr.ping rfl
  have hi : pingFrame.isPingReq = true := by
    rw [OutboundFrame.isPingReq, pingFrame, pingreqBytes_asks.typed]
    rfl
  have ho := h.once.ping ho hq
  refine ⟨hf.same rfl, ?_, ho.requests, h.written, ho.queued, ho.exclusive⟩
  rw [MqttConnection.push, List.forall_mem_append, List.forall_mem_singleton]
  exact ⟨h.typed, hi.symm⟩

theorem KeepsAlive.withdraw (h : c.KeepsAlive) (correlationData) :
    (retainFrames correlationData c).KeepsAlive := by
  have ho := h.once.withdraw correlationData
  exact ⟨h.framed.withdraw correlationData, fun frame hm => h.typed frame (List.mem_of_mem_filter hm),
    ho.requests, h.written, ho.queued, ho.exclusive⟩

theorem KeepsAlive.write (h : c.KeepsAlive) (ho : c.outbound = frame :: rest)
    (hw : Write frame rest c c') : c'.KeepsAlive := by
  have hf := h.framed.write ho hw
  have hy := h.typed
  have h' := h.once.write ho hw
  rw [ho, List.forall_mem_cons] at hy
  cases hw
  case none => exact h
  case part =>
    exact ⟨hf, List.forall_mem_cons.mpr hy, h'.requests, h.written, h'.queued, h'.exclusive⟩
  case whole n _ _ _ _ =>
    refine ⟨hf, hy.right, h'.requests, ?_, h'.queued, h'.exclusive⟩
    have hw := h.written
    have hi : OutboundFrame.isPingReq { frame with offset := frame.offset + n } =
        frame.pings := hy.left.symm
    have hl : PendingFlush.pings { bytes := frame.bytes.length, action := frame.action } =
        frame.pings := rfl
    simp only [pingReqs, pingResps, List.countP_append, List.countP_singleton, hi, hl] at hw ⊢
    omega

theorem Announce.pinging (h : Announce reason c c') : c'.pinging = c.pinging := by
  cases h <;> rfl

theorem KeepsAlive.complete (h : c.KeepsAlive) (hf : c.flushActions = flush :: rest)
    (hp : Performs flush.action (c.dropFlush flush rest) c') : c'.KeepsAlive := by
  have h' := h.once.complete hf hp
  have hw := h.written
  rw [hf, List.countP_cons] at hw
  have hn : flush.pings = false → c'.Framed → c'.pinging = (c.dropFlush flush rest).pinging →
      c'.KeepsAlive := by
    intro hn hc he
    rw [hn] at hw
    simp only [pinging, Prod.mk.injEq] at he
    obtain ⟨ho, hr, hd, hl, hq, hg⟩ := he
    refine ⟨hc, ?_, h'.requests, ?_, h'.queued, h'.exclusive⟩
    case refine_1 => rw [ho]; exact h.typed
    case refine_2 => rw [pingReqs, pingResps, hr, hd, hl, hg]; exact hw
  unfold PendingFlush.pings at hn
  generalize ha : flush.action = action at hp
  cases hp
  case none => exact hn (by rw [ha]; rfl) (h.framed.same rfl) rfl
  case abandonedDisconnect => exact hn (by rw [ha]; rfl) (h.framed.same rfl) rfl
  case publishQos0 => exact hn (by rw [ha]; rfl) (h.framed.same rfl) rfl
  case disconnect hs => exact hn (by rw [ha]; rfl) (h.framed.same hs.outgoing) hs.pinging
  case pingReq =>
    have hl : flush.pings = true := by rw [PendingFlush.pings, ha]; rfl
    have hx := h.exclusive (h.once.queued_of_flush hf hl).left
    refine ⟨h.framed.same rfl, h.typed, h.requests, ?_, h'.queued, h'.exclusive⟩
    simp only [pingReqs, pingResps, MqttConnection.dropFlush, Option.toList_some,
      List.length_singleton, hl, hx, if_true, Option.toList_none, List.length_nil] at hw ⊢
    omega

theorem KeepsAlive.step (h : c.KeepsAlive) (ht : Traffic c c') : c'.KeepsAlive := by
  have hf := h.framed.step ht
  cases ht
  case push hp ht _ hr => exact h.push _ hp ht hr
  case disconnect frame hp _ hr => exact (h.push frame hp nofun hr).same hf rfl
  case ping ho hq hr => exact h.ping ho hq hr
  case withdraw correlationData => exact h.withdraw correlationData
  case write ho hw => exact h.write ho hw
  case complete hc hp => exact h.complete hc hp
  case announce ha => exact h.same hf ha.pinging
  all_goals exact h.same hf rfl

theorem KeepsAlive.arrived (h : c.KeepsAlive) (hn : packet ≠ .pingResp) (reader) :
    (c.arrived reader packet).KeepsAlive := by
  have hd : (c.arrived reader packet).pingResps = c.pingResps := by
    have hp : packet.isPingResp = false := by cases packet <;> first | rfl | exact absurd rfl hn
    simp [pingResps, MqttConnection.arrived, hp]
  refine ⟨h.framed.same rfl, h.typed, h.requests, ?_, h.queued, h.exclusive⟩
  rw [hd]
  exact h.written

-- A PINGRESP that is the answer to a PINGREQ which has been flushed.
theorem KeepsAlive.pong (h : c.KeepsAlive) (ha : c.pingResps < c.pingReqs)
    (hn : ∀ flush ∈ c.flushActions, flush.action ≠ .pingReq) (reader) :
    KeepsAlive { c.arrived reader .pingResp with pingOutstandingSince := none } := by
  have hw := h.written
  have hz : c.flushActions.countP (·.pings) = 0 := by
    rw [List.countP_eq_zero]
    intro flush hm hp
    exact hn flush hm (of_decide_eq_true hp)
  refine ⟨h.framed.same rfl, h.typed, h.requests, ?_, h.queued, fun _ => rfl⟩
  have hl : c.pingOutstandingSince.toList.length ≤ 1 := by cases c.pingOutstandingSince <;> simp
  simp only [pingReqs, pingResps, MqttConnection.arrived, List.countP_append,
    List.countP_singleton, hz] at hw ha ⊢
  rw [show Packet.isPingResp .pingResp = true from rfl]
  simp only [if_true, Option.toList_none, List.length_nil]
  omega

-- A PINGREQ that cannot be queued leaves no trace.
theorem maintainKeepAlive_error (h : maintainKeepAlive c = .error e c') :
    (c'.outbound, c'.flushActions, c'.pingQueued, c'.pingOutstandingSince) =
      (c.outbound, c.flushActions, c.pingQueued, c.pingOutstandingSince) := by
  cases (maintainKeepAlive_cases (c := c)).right
  case inl hq =>
    rw [h] at hq
    cases hq
    rfl
  case inr hp =>
    obtain ⟨_, _, _, _, _, _, hp⟩ := hp
    rw [h] at hp
    cases hp

theorem Ends.truthful (he : Ends c c') (h : c.Truthful) : c'.Truthful := by
  cases he <;> exact h

theorem Outside.truthful (ho : Outside c input c') (h : c.Truthful) : c'.Truthful := by
  cases ho <;> exact h

end MqttConnection

namespace Driver

open MqttConnection

-- Every PINGRESP that is dispatched is the answer to a PINGREQ that has been written.
def AnswersPings (driver : Driver) (inputs : List Input) : Prop :=
  driver.Throughout inputs fun earlier input => earlier.dispatches input = some .pingResp →
    earlier.connection.pingResps < earlier.connection.pingReqs

-- No PINGRESP is dispatched while a PINGREQ has been written but not flushed.
def FlushesPingsFirst (driver : Driver) (inputs : List Input) : Prop :=
  driver.Throughout inputs fun earlier input => earlier.dispatches input = some .pingResp →
    ∀ flush ∈ earlier.connection.flushActions, flush.action ≠ .pingReq

theorem keepsAlive_start (options connack clock) :
    (start options connack clock).connection.KeepsAlive :=
  ⟨framed_start options connack clock, nofun, nofun, rfl, rfl, nofun⟩

theorem truthful_run {clock : Clock} (h : (start options connack clock).run inputs = some driver)
    (ha : (start options connack clock).AnswersPings inputs)
    (hf : (start options connack clock).FlushesPingsFirst inputs) : driver.connection.Truthful := by
  have := run_traffic (P := KeepsAlive) (Q := Truthful) (fun _ _ ht h => h.step ht)
    (fun _ _ reader hn h => h.arrived hn reader)
    (fun c reader hd hc h => h.pong (hc.left (dispatches_of_decoded hd))
      (hc.right (dispatches_of_decoded hd)) reader)
    (fun _ _ he h => he.truthful (h.elim (·.truthful) id)) (fun _ _ _ ho h => ho.truthful h)
    (keepsAlive_start options connack clock) (ha.and hf) h
  exact this.elim (·.truthful) And.right

theorem step_maintainKeepAlive {driver driver' : Driver} (hp : driver.phase = .maintainKeepAlive)
    (hs : driver.step .proceed = some driver')
    (ht : driver'.phase = .stopping (.error .keepAliveTimeout)) :
    driver.connection.pingOutstandingSince ≠ none := by
  have ⟨c, p⟩ := driver
  cases hp
  cases hs
  refine (maintainKeepAlive_cases (c := c)).left ?_
  cases hm : MqttConnection.maintainKeepAlive c
  case ok => rw [perform_ok hm] at ht; cases ht
  case error => rw [perform_error hm] at ht; cases ht; rfl

-- As long as every PINGRESP is the answer to a PINGREQ which has been flushed, the driver waits for
-- an answer, and gives up waiting, only if there is a PINGREQ without one.
theorem keepAlive_truthful (options : ConnectOptions) (connack : ConnAckPacket) (clock : Clock)
    (inputs : List Input) (driver : Driver)
    (h : (start options connack clock).run inputs = some driver)
    (ha : (start options connack clock).AnswersPings inputs)
    (hf : (start options connack clock).FlushesPingsFirst inputs) :
    driver.connection.Truthful ∧
      ∀ driver', driver.phase = .maintainKeepAlive → driver.step .proceed = some driver' →
        driver'.phase = .stopping (.error .keepAliveTimeout) →
        driver.connection.pingResps < driver.connection.pingReqs := by
  have ht := truthful_run h ha hf
  exact ⟨ht, fun driver' hp hs he => ht (step_maintainKeepAlive hp hs he)⟩

theorem pingsOnce_run {clock : Clock} (h : (start options connack clock).run inputs = some driver)
    (ht : driver.phase.terminated = false) : driver.connection.PingsOnce := by
  have h' := run_traffic (P := PingsOnce) (Q := fun _ => True) (C := fun _ _ => True)
    (fun _ _ ht h => h.step ht) (fun _ _ _ _ h => ⟨h.requests, h.queued, h.exclusive⟩)
    (fun _ _ _ _ h => ⟨h.requests, h.queued, fun _ => rfl⟩) (fun _ _ _ _ => True.intro)
    (fun _ _ _ _ _ => True.intro) (keepsAlive_start options connack clock).once
    (Throughout.trivial _ inputs) h
  refine h'.resolve_right fun hq => ?_
  rw [ht] at hq
  cases hq.left

-- Whether a PINGREQ is in the queues can be told from `ping_queued`.
theorem pings_once (options : ConnectOptions) (connack : ConnAckPacket) (clock : Clock)
    (inputs : List Input) (driver : Driver)
    (h : (start options connack clock).run inputs = some driver)
    (ht : driver.phase.terminated = false) :
    driver.connection.outbound.countP (·.pings) + driver.connection.flushActions.countP (·.pings) =
        (if driver.connection.pingQueued then 1 else 0) ∧
      ¬(driver.connection.pingQueued = true ∧ driver.connection.pingOutstandingSince ≠ none) ∧
      ∀ e c', MqttConnection.maintainKeepAlive driver.connection = .error e c' →
        (c'.outbound, c'.flushActions, c'.pingQueued, c'.pingOutstandingSince) =
          (driver.connection.outbound, driver.connection.flushActions, driver.connection.pingQueued,
            driver.connection.pingOutstandingSince) := by
  have h' := pingsOnce_run h ht
  refine ⟨?_, fun hp => hp.right (h'.exclusive hp.left), fun _ _ => maintainKeepAlive_error⟩
  rw [h'.queued]
  cases driver.connection.pingQueued <;> rfl

def pingOptions : ConnectOptions :=
  { clientId := "a", keepAliveSecs := 2 }

-- Every reading is a second later than the one before.
def steadyClock : Clock :=
  { readings := fun n => Duration.fromSecs n, latest := Duration.fromSecs 1000 }

-- The driver sends a PINGREQ, and it takes the transport some time to accept a part of it.
def pinging : List Input :=
  [.proceed, .proceed, .proceed, .proceed, .proceed, .read (.error { kind := .wouldBlock }),
    .proceed, .proceed, .proceed, .proceed, .written (.ok 2)]

theorem pings_once_pinging :
    ∃ driver, (start pingOptions plainConnack steadyClock).run pinging = some driver ∧
      driver.connection.pingQueued = true ∧
      driver.connection.outbound.countP (·.pings) + driver.connection.flushActions.countP (·.pings) =
        1 := by
  obtain ⟨driver, hr, hq, ht⟩ := exists_run (start pingOptions plainConnack steadyClock) pinging
    (fun driver => driver.connection.pingQueued = true ∧ driver.phase.terminated = false)
    (by decide +kernel)
  have hp := (pings_once pingOptions plainConnack steadyClock pinging driver hr ht).left
  rw [hq, if_pos rfl] at hp
  exact ⟨driver, hr, hq, hp⟩

-- The answer arrives after the PINGREQ has been flushed.
def pong : List Input :=
  pinging ++
    [.proceed, .flushed (.ok ()), .proceed, .elapsed, .proceed, .proceed, .proceed, .proceed,
      .proceed, .read (.ok [0xD0, 0]), .read (.error { kind := .wouldBlock })]

-- It is taken in, and the next PINGREQ is sent. That one has no answer.
def silence : List Input :=
  pong ++
    ([.proceed, .proceed, .proceed, .proceed, .proceed, .written (.ok 2), .proceed, .flushed (.ok ()),
      .proceed, .elapsed, .proceed, .proceed, .proceed, .proceed, .proceed,
      .read (.error { kind := .wouldBlock }), .proceed, .proceed] : List Input)

theorem keepAlive_truthful_silence :
    ∃ driver driver', (start pingOptions plainConnack steadyClock).run silence = some driver ∧
      driver.connection.pingOutstandingSince ≠ none ∧ driver.connection.Truthful ∧
      driver.connection.pingResps = 1 ∧ driver.step .proceed = some driver' ∧
      driver'.phase = .stopping (.error .keepAliveTimeout) ∧
      driver.connection.pingResps < driver.connection.pingReqs := by
  obtain ⟨driver, driver', hr, hs, ⟨ho, hn, hp⟩, he⟩ := exists_run_step
    (start pingOptions plainConnack steadyClock) silence .proceed
    (fun driver => driver.connection.pingOutstandingSince ≠ none ∧ driver.connection.pingResps = 1 ∧
      driver.phase = .maintainKeepAlive)
    (·.phase = .stopping (.error .keepAliveTimeout)) (by decide +kernel)
  have ha : (start pingOptions plainConnack steadyClock).AnswersPings silence := by
    unfold AnswersPings
    decide +kernel
  have hf : (start pingOptions plainConnack steadyClock).FlushesPingsFirst silence := by
    unfold FlushesPingsFirst
    decide +kernel
  have ⟨ht, hl⟩ := keepAlive_truthful pingOptions plainConnack steadyClock silence driver hr ha hf
  exact ⟨driver, driver', hr, ho, ht, hn, hs, he, hl driver' hp hs he⟩

-- The answer arrives before the flush of the PINGREQ is reported.
def earlyPong : List Input :=
  pinging ++
    [.proceed, .flushed (.error { kind := .wouldBlock }), .proceed, .elapsed, .proceed, .proceed,
      .flushed (.error { kind := .wouldBlock }), .read (.ok [0xD0, 0]),
      .read (.error { kind := .wouldBlock }), .proceed, .proceed, .proceed, .proceed,
      .flushed (.ok ())]

theorem answered_but_outstanding :
    ∃ driver, (start pingOptions plainConnack steadyClock).run earlyPong = some driver ∧
      (start pingOptions plainConnack steadyClock).AnswersPings earlyPong ∧
      driver.connection.pingReqs = 1 ∧ driver.connection.pingResps = 1 ∧
      ¬driver.connection.Truthful := by
  refine ⟨_, rfl, ?_, by decide +kernel, by decide +kernel, ?_⟩
  case refine_1 => unfold AnswersPings; decide +kernel
  case refine_2 => exact fun h => absurd (h (by decide +kernel)) (by decide +kernel)

end Driver
end MqttWasi
