import MqttWasi.Driver.Theorems.Disconnect

-- The last event of a connection.

namespace MqttWasi

def Event.isDisconnected : Event → Bool
  | .disconnected _ => true
  | .publish _      => false

def WrittenAction.isDisconnect : WrittenAction → Bool
  | .disconnect _ => true
  | _             => false

namespace MqttConnection

open EStateM (Leads)
open Relation (ReflTransGen)

-- Nothing is said after the connection has been said to have ended.
def DisconnectedLast (c : MqttConnection) : Prop :=
  ∀ before reason after, c.emitted = before ++ .disconnected reason :: after → after = []

-- The connection has not been said to have ended.
def Unannounced (c : MqttConnection) : Prop :=
  ∀ event ∈ c.emitted, event.isDisconnected = false

-- The DISCONNECTs of the handles that have been queued but not flushed.
def partings (c : MqttConnection) : Nat :=
  c.outbound.countP (·.action.isDisconnect) + c.flushActions.countP (·.action.isDisconnect)

def PartsOnce (c : MqttConnection) : Prop :=
  c.partings ≤ c.closing.toNat

variable {c c' : MqttConnection}

theorem Unannounced.same (h : c.Unannounced) (hv : c'.voice = c.voice) : c'.Unannounced := by
  have he : c'.emitted = c.emitted := congrArg (·.1) hv
  rw [Unannounced, he]
  exact h

-- One more event may be any.
theorem Unannounced.last {events : List Event} (h : c.Unannounced)
    (he : c'.emitted = c.emitted ++ events) (hl : events.length ≤ 1) : c'.DisconnectedLast := by
  intro before reason after ha
  rw [he] at ha
  rcases List.append_eq_append_iff.mp ha with ⟨events', _, ht⟩ | ⟨events', hb, ht⟩
  case inl =>
    rw [ht] at hl
    simp only [List.length_append, List.length_cons] at hl
    exact List.eq_nil_of_length_eq_zero (by omega)
  case inr =>
    cases events'
    case nil =>
      rw [List.nil_append] at ht
      rw [← ht, List.length_cons] at hl
      exact List.eq_nil_of_length_eq_zero (by omega)
    case cons event events' =>
      cases ht
      have hn := h (.disconnected reason) (by rw [hb]; simp)
      cases hn

theorem Unannounced.disconnectedLast (h : c.Unannounced) : c.DisconnectedLast :=
  h.last (List.append_nil _).symm (Nat.zero_le _)

theorem Announce.emitted (h : Announce reason c c') :
    ∃ events, c'.emitted = c.emitted ++ events ∧ events.length ≤ 1 := by
  cases h
  case silent => exact ⟨[], (List.append_nil _).symm, Nat.zero_le _⟩
  case event => exact ⟨[_], rfl, Nat.le_refl _⟩

theorem Announce.sent (h : Announce reason c c') : c'.terminalEventSent = true := by
  cases h <;> rfl

-- The messages that arrive are not the end.
theorem Unannounced.arrive (h : c.Unannounced) (ha : Arrive c c') : c'.Unannounced := by
  cases ha
  case resolve hr =>
    cases hr
    case move hm => exact h.same (congrArg (·.2.2) hm.aside)
    all_goals exact h
  case respond pending correlationData _ _ =>
    exact h.same (congrArg (·.2.2) (aside_withoutRequest c correlationData pending))
  case acknowledge => exact h
  case deliver packet =>
    intro event hm
    rcases List.mem_append.mp hm with hm | hm
    case inl => exact h event hm
    case inr => rw [List.mem_singleton.mp hm]; rfl

-- A handle disconnects only once.

theorem PartsOnce.same (h : c.PartsOnce) (ho : c'.outbound = c.outbound)
    (hf : c'.flushActions = c.flushActions) (hc : c'.closing = c.closing) : c'.PartsOnce := by
  rw [PartsOnce, partings, ho, hf, hc]
  exact h

theorem PartsOnce.push (h : c.PartsOnce) (frame) (hf : frame.action.isDisconnect = false) :
    (c.push frame).PartsOnce := by
  have hn : (c.push frame).partings = c.partings := by
    simp [partings, MqttConnection.push, List.countP_append, hf]
  rw [PartsOnce, hn]
  exact h

theorem Proper.not_isDisconnect {frame : OutboundFrame} (h : frame.Proper t)
    (ht : t ≠ .disconnect) : frame.action.isDisconnect = false := by
  have hd := h.disconnect
  cases ha : frame.action
  case disconnect result => exact absurd (hd ⟨result, ha⟩) ht
  all_goals rfl

theorem PartsOnce.disconnect (h : c.PartsOnce) (hc : c.closing = false) (frame) :
    ({ c with closing := true }.push frame).PartsOnce := by
  have h0 : c.partings = 0 := by
    rw [PartsOnce, hc] at h
    exact Nat.le_zero.mp h
  have hl : [frame].countP (·.action.isDisconnect) ≤ 1 := List.countP_le_length
  simp only [partings] at h0
  simp only [PartsOnce, partings, MqttConnection.push, List.countP_append, Bool.toNat_true]
  omega

theorem PartsOnce.withdraw (h : c.PartsOnce) (correlationData) :
    (retainFrames correlationData c).PartsOnce := by
  have hl : (c.outbound.filter (!isUnsentFrameOf correlationData ·)).countP
      (·.action.isDisconnect) ≤ c.outbound.countP (·.action.isDisconnect) :=
    List.filter_sublist.countP_le
  exact Nat.le_trans (Nat.add_le_add_right hl _) h

theorem PartsOnce.write (h : c.PartsOnce) (ho : c.outbound = frame :: rest)
    (hw : Write frame rest c c') : c'.PartsOnce := by
  rw [PartsOnce, partings, ho, List.countP_cons] at h
  cases hw
  case none => rw [PartsOnce, partings, ho, List.countP_cons]; exact h
  case part => rw [PartsOnce, partings, List.countP_cons]; exact h
  case whole =>
    simp only [PartsOnce, partings, List.countP_append, List.countP_singleton]
    omega

theorem Announce.parting (h : Announce reason c c') :
    c'.outbound = c.outbound ∧ c'.flushActions = c.flushActions ∧ c'.closing = c.closing ∧
      c'.needsFlush = c.needsFlush := by
  cases h <;> exact ⟨rfl, rfl, rfl, rfl⟩

theorem Performs.parting (h : Performs action c c') :
    c'.outbound = c.outbound ∧ c'.flushActions = c.flushActions ∧ c'.closing = c.closing ∧
      c'.needsFlush = c.needsFlush := by
  cases h
  case disconnect ha => exact ha.parting
  all_goals exact ⟨rfl, rfl, rfl, rfl⟩

theorem PartsOnce.complete (h : c.PartsOnce) (hf : c.flushActions = flush :: rest)
    (hp : Performs flush.action (c.dropFlush flush rest) c') : c'.PartsOnce := by
  have ⟨ho, hl, hc, _⟩ := hp.parting
  have h : (c.dropFlush flush rest).PartsOnce := by
    rw [PartsOnce, partings, hf, List.countP_cons] at h
    rw [PartsOnce, partings]
    simp only [dropFlush]
    omega
  exact h.same ho hl hc

theorem PartsOnce.step (h : c.PartsOnce) (ht : Traffic c c') : c'.PartsOnce := by
  cases ht
  case close => exact Nat.le_trans h (Bool.toNat_le _)
  case push hp _ hd _ => exact h.push _ (Proper.not_isDisconnect hp hd)
  case disconnect frame _ hc _ => exact h.disconnect hc frame
  case ping => exact (h.push pingFrame rfl).same rfl rfl rfl
  case withdraw correlationData => exact h.withdraw correlationData
  case write ho hw => exact h.write ho hw
  case complete hf hp => exact h.complete hf hp
  case announce ha => exact h.same ha.parting.left ha.parting.right.left ha.parting.right.right.left
  all_goals exact h.same rfl rfl rfl

-- A flush that succeeds says as much as there are DISCONNECTs to be flushed.

theorem Performs.emitted (h : Performs action c c') : ∃ events, c'.emitted = c.emitted ++ events ∧
    events.length ≤ action.isDisconnect.toNat := by
  cases h
  case disconnect ha => exact ha.emitted
  all_goals exact ⟨[], (List.append_nil _).symm, Nat.zero_le _⟩

structure Flushed (c c' : MqttConnection) (flushes : List PendingFlush) : Prop where
  outbound : c'.outbound = c.outbound
  closing : c'.closing = c.closing
  needsFlush : c'.needsFlush = c.needsFlush
  emitted : ∃ events, c'.emitted = c.emitted ++ events ∧
    events.length ≤ flushes.countP (·.action.isDisconnect)

theorem complete_apply (c : MqttConnection) (flushes) :
    ∃ c', flushAccepted.complete flushes c = .ok () c' ∧ Flushed c c' flushes := by
  induction flushes generalizing c
  case nil => exact ⟨c, rfl, rfl, rfl, rfl, [], (List.append_nil _).symm, Nat.zero_le _⟩
  case cons flush rest ih =>
    have ⟨c₁, hc, hp⟩ := completeWritten_performs (c.dropFlush flush rest) flush.action
    have ⟨ho, _, hl, hn⟩ := hp.parting
    have ⟨events₁, he₁, hl₁⟩ := hp.emitted
    have ⟨c₂, hr, h⟩ := ih c₁
    have ⟨events₂, he₂, hl₂⟩ := h.emitted
    refine ⟨c₂, ?_, h.outbound.trans ho, h.closing.trans hl, h.needsFlush.trans hn,
      events₁ ++ events₂, ?_, ?_⟩
    case refine_1 =>
      rw [flushAccepted.complete, EStateM.bind_ok (EStateM.modify_apply _ _)]
      exact (EStateM.bind_ok hc).trans hr
    case refine_2 =>
      rw [he₂, he₁, List.append_assoc]
      rfl
    case refine_3 =>
      rw [List.length_append, List.countP_cons]
      rw [Bool.toNat, Bool.cond_eq_ite] at hl₁
      omega

end MqttConnection

namespace Driver

open MqttConnection

-- The driver will not say anything more.
inductive Concluded : Driver → Prop
  | flushed (pass) : (stage ≠ .before) → (c.closing = true) → (c.outbound = []) →
    (c.needsFlush = false) → Concluded ⟨c, .flushOutbound pass stage⟩
  | stopping : (c.terminalEventSent = true ∨ result = .ok ()) → Concluded ⟨c, .stopping result⟩
  | stopped (c result) : Concluded ⟨c, .stopped result⟩

variable {c c' : MqttConnection}

theorem Concluded.outside (h : Concluded ⟨c, p⟩) (ho : Outside c input c') : Concluded ⟨c', p⟩ := by
  cases h
  case flushed pass hs hc hb hn => cases ho <;> exact .flushed pass hs hc hb hn
  case stopping ht => cases ho <;> exact .stopping ht
  case stopped => exact .stopped _ _

theorem step_flushed (h : Driver.step ⟨c, p⟩ (.flushed result) = some driver) : ∃ pass stage,
    c.needsFlush = true ∧ stage ≠ .writing ∧ p = .flushOutbound pass stage ∧
    driver = perform (flushAccepted result) (fun accepted connection =>
      if accepted ∧ stage = .before then .flushOutbound pass .writing
      else afterFlush pass connection) c := by
  rw [step, flushed] at h
  dsimp only at h
  split at h
  case isTrue => cases h
  case isFalse hn =>
    have hn : c.needsFlush = true := by simpa using hn
    split at h <;> cases h
    case h_1 pass => exact ⟨pass, .before, hn, by simp, rfl, by simp⟩
    case h_2 pass => exact ⟨pass, .after, hn, by simp, rfl, by simp⟩

theorem afterFlush_of_closing (hc : c.closing = true) (ho : c.outbound = [])
    (hn : c.needsFlush = false) (pass) : afterFlush pass c = .stopping (.ok ()) := by
  simp [afterFlush, hc, ho, hn]

-- With nothing left to be written or flushed, the only way is the end.
theorem proceed_of_flushed {pass : Pass} (hg : stage ≠ .before) (hc : c.closing = true)
    (ho : c.outbound = []) (hn : c.needsFlush = false)
    (h : proceed ⟨c, .flushOutbound pass stage⟩ = some driver) :
    driver.connection = c ∧ driver.Concluded := by
  cases stage
  case before => exact absurd rfl hg
  case writing =>
    simp only [proceed, ho, List.isEmpty_nil, if_true] at h
    cases h
    exact ⟨rfl, .flushed pass nofun hc ho hn⟩
  case after =>
    simp only [proceed, hn, Bool.false_eq_true, if_false, afterFlush_of_closing hc ho hn] at h
    cases h
    exact ⟨rfl, .stopping (.inr rfl)⟩

theorem Concluded.step {driver driver' : Driver} (h : driver.Concluded)
    (hs : driver.step input = some driver') :
    driver'.Concluded ∧ driver'.connection.emitted = driver.connection.emitted := by
  have hd := step_does hs
  cases h
  case flushed stage c pass hg hc hb hn =>
    cases hd
    case outside ho => exact ⟨.outside (.flushed pass hg hc hb hn) ho, congrArg (·.2.2.1) ho.aside⟩
    case write ho _ => rw [hb] at ho; cases ho
    case flush =>
      have ⟨_, _, hf, _⟩ := step_flushed hs
      rw [hn] at hf
      cases hf
    all_goals
      have ⟨he, hc⟩ := proceed_of_flushed hg hc hb hn hs
      exact ⟨hc, by rw [he]⟩
  case stopping result c ht =>
    cases hd
    case finish =>
      rcases finish_cases c result with hf | ⟨⟨e, he⟩, hn, hf⟩
      case inl => rw [perform_ok hf]; exact ⟨.stopped _ _, rfl⟩
      case inr => simp [he, hn] at ht
    case outside ho => exact ⟨.outside (.stopping ht) ho, congrArg (·.2.2.1) ho.aside⟩
    all_goals contradiction
  case stopped c result =>
    cases hd
    case outside ho => exact ⟨.stopped _ _, congrArg (·.2.2.1) ho.aside⟩
    all_goals contradiction

-- Either nothing has been said about the end, or it has been said last and nothing will follow.
def Disciplined (driver : Driver) : Prop :=
  driver.connection.Unannounced ∨ (driver.Concluded ∧ driver.connection.DisconnectedLast)

theorem Disciplined.disconnectedLast {driver : Driver} (h : driver.Disciplined) :
    driver.connection.DisconnectedLast :=
  h.elim (·.disconnectedLast) And.right

theorem flushAccepted_error (c : MqttConnection) (e : IoError) :
    (flushAccepted (.error e) c).state = c := by
  rw [flushAccepted, EStateM.ite_apply]
  split <;> rfl

theorem flushAccepted_ok (c : MqttConnection) : ∃ c', flushAccepted (.ok ()) c = .ok true c' ∧
    Flushed { c with needsFlush := false } c' c.flushActions := by
  have ⟨c', hc, hf⟩ := complete_apply { c with needsFlush := false } c.flushActions
  refine ⟨c', ?_, hf⟩
  rw [flushAccepted, EStateM.bind_ok (EStateM.modify_apply _ _), EStateM.bind_ok (EStateM.get_apply _)]
  exact EStateM.bind_ok hc

theorem disciplined_flush (h : c.Unannounced) (hp : p.running = true → c.PartsOnce)
    (hc : result = .ok () → (∃ flush ∈ c.flushActions, flush.action.isDisconnect = true) →
      c.outbound = []) (hs : Driver.step ⟨c, p⟩ (.flushed result) = some driver) :
    driver.Disciplined := by
  obtain ⟨pass, stage, _, _, rfl, rfl⟩ := step_flushed hs
  cases result
  case error e =>
    refine .inl ?_
    rw [perform_connection, flushAccepted_error]
    exact h
  case ok =>
    have ⟨c', hf, hd⟩ := flushAccepted_ok c
    have ⟨events, he, hl⟩ := hd.emitted
    rw [perform_ok hf]
    by_cases hn : c.flushActions.countP (·.action.isDisconnect) = 0
    case pos =>
      rw [hn, Nat.le_zero, List.length_eq_zero_iff] at hl
      rw [hl, List.append_nil] at he
      refine .inl fun event hm => h event ?_
      rw [← show c'.emitted = c.emitted from he]
      exact hm
    case neg =>
      have ho := hc rfl (List.countP_pos_iff.mp (Nat.pos_of_ne_zero hn))
      have hp : c.partings ≤ c.closing.toNat := hp rfl
      have h1 := Bool.toNat_le c.closing
      rw [partings] at hp
      have hc : c.closing = true := by
        by_contra hf
        rw [Bool.eq_false_of_not_eq_true hf, Bool.toNat_false] at hp
        omega
      have ho : c'.outbound = [] := hd.outbound.trans ho
      have hc : c'.closing = true := hd.closing.trans hc
      refine .inr ⟨?_, h.last he (by omega)⟩
      by_cases hb : stage = .before
      case pos =>
        simp only [hb, and_true, if_true]
        exact .flushed pass nofun hc ho hd.needsFlush
      case neg =>
        simp only [hb, and_false, if_false, afterFlush_of_closing hc ho hd.needsFlush]
        exact .stopping (.inr rfl)

theorem disciplined_read (h : c.Unannounced) (result next) :
    (perform (readNext result) next c).Disciplined := by
  rcases readNext_cases (c := c) result with
    ⟨e, hr⟩ | ⟨again, hr⟩ | ⟨c', hr, hs⟩ | ⟨bytes, _, hr⟩
  case inl => rw [perform_error hr]; exact .inl h
  case inr.inl => rw [perform_ok hr]; exact .inl h
  case inr.inr.inl =>
    rw [perform_error hr]
    have ⟨events, he, hl⟩ := hs.emitted
    exact .inr ⟨.stopping (.inl hs.sent), h.last he hl⟩
  case inr.inr.inr => rw [perform_ok hr]; exact .inl h

theorem disciplined_dispatch (h : c.Unannounced) (packet next) :
    (perform (dispatchPacket packet) next c).Disciplined := by
  by_cases hs : ∃ disconnect, packet = .disconnect disconnect
  case pos =>
    obtain ⟨disconnect, rfl⟩ := hs
    have ⟨c', hc, ha⟩ := dispatchPacket_disconnect c disconnect
    rw [perform_error hc]
    have ⟨events, he, hl⟩ := ha.emitted
    exact .inr ⟨.stopping (.inl ha.sent), h.last he hl⟩
  case neg =>
    refine .inl ?_
    rw [perform_connection]
    exact (dispatchPacket_arrives fun disconnect he => hs ⟨disconnect, he⟩).preserves
      (fun _ _ ha h => h.arrive ha) h

theorem disciplined_decode (h : c.Unannounced) (next) : (perform decodeNext next c).Disciplined := by
  rcases perform_decodeNext_cases c next with ⟨reader, p, _, hx⟩ | ⟨packet, reader, _, hx⟩ <;> rw [hx]
  case inl => exact .inl h
  case inr => exact disciplined_dispatch (c := c.arrived reader packet) h packet _

theorem disciplined_finish (h : c.Unannounced) (result) :
    (perform (MqttConnection.finish result) (fun _ _ => .stopped result) c).Disciplined := by
  rcases finish_cases c result with hf | ⟨_, _, hf⟩
  case inl => rw [perform_ok hf]; exact .inl h
  case inr =>
    rw [perform_ok hf]
    have hl : (c.closed.emit (.disconnected .transportClosed)).DisconnectedLast :=
      h.last rfl (Nat.le_refl _)
    exact .inr ⟨.stopped _ _, hl⟩

-- No other step says anything.
theorem disciplined_silent {x : MqttConnection.DriverM α} (h : c.Unannounced)
    (hv : (x c).state.aside = c.aside) (next) : (perform x next c).Disciplined := by
  refine .inl ?_
  rw [perform_connection]
  exact h.same (congrArg (·.2.2) hv)

-- No handle's DISCONNECT is flushed while there are frames behind it.
def DisconnectsLast (driver : Driver) (inputs : List Input) : Prop :=
  driver.Throughout inputs fun earlier input => input = .flushed (.ok ()) →
    (∃ flush ∈ earlier.connection.flushActions, flush.action.isDisconnect = true) →
      earlier.connection.outbound = []

theorem Disciplined.step {driver driver' : Driver} (h : driver.Disciplined)
    (hp : driver.phase.running = true → driver.connection.PartsOnce)
    (hc : input = .flushed (.ok ()) →
      (∃ flush ∈ driver.connection.flushActions, flush.action.isDisconnect = true) →
        driver.connection.outbound = [])
    (hs : driver.step input = some driver') : driver'.Disciplined := by
  rcases h with h | ⟨hd, h⟩
  case inl =>
    have hd := step_does hs
    cases hd
    case pass => exact .inl h
    case wake => exact .inl h
    case shift hm => exact .inl (h.same (congrArg (·.2.2) (unchanged hm Shift.aside)))
    case command command rest c _ _ _ _ =>
      have hv := unchanged (processCommand_enters (mem_taken_dequeued c command rest)) Enter.aside
      exact disciplined_silent (c := c.dequeued command rest) h hv _
    case abandon => exact disciplined_silent h abandonCommands_aside _
    case keepAlive => exact disciplined_silent h (unchanged maintainKeepAlive_begins Begin.aside) _
    case write => exact disciplined_silent h (writeFront_writes ..).aside _
    case flush => exact disciplined_flush h hp (fun hr => hc (by rw [hr])) hs
    case read => exact disciplined_read h _ _
    case decode => exact disciplined_decode h _
    case finish => exact disciplined_finish h _
    case outside ho => exact .inl (h.same (congrArg (·.2.2) ho.aside))
  case inr =>
    have ⟨hd, he⟩ := hd.step hs
    exact .inr ⟨hd, by rw [DisconnectedLast, he]; exact h⟩

theorem partsOnce_run {clock : Clock} (h : (start options connack clock).run inputs = some driver)
    (hr : driver.phase.running = true) : driver.connection.PartsOnce := by
  have hs : (start options connack clock).connection.PartsOnce := Nat.le_refl 0
  have := run_traffic (P := PartsOnce) (Q := fun _ => True) (fun _ _ ht h => h.step ht)
    (fun _ _ _ _ h => h) (fun _ _ _ _ h => h) (fun _ _ _ _ => True.intro)
    (fun _ _ _ _ _ => True.intro) hs (.trivial _ _) h
  rcases this with h | ⟨ht, _⟩
  case inl => exact h
  case inr => exact absurd (hr.symm.trans (Phase.running_of_terminated ht)) nofun

-- The event that the connection has ended comes once and last, as long as there is nothing behind a
-- DISCONNECT when it is flushed.
theorem disconnected_last (options : ConnectOptions) (connack : ConnAckPacket) (clock : Clock)
    (inputs : List Input) (driver : Driver)
    (h : (start options connack clock).run inputs = some driver)
    (hl : (start options connack clock).DisconnectsLast inputs) :
    driver.connection.DisconnectedLast := by
  have hd : driver.Disciplined := by
    have hd : (start options connack clock).Disciplined := .inl (List.forall_mem_nil _)
    refine run_preserves_if (P := Disciplined) ?_ hd hl h
    intro inputs earlier input next hr hd hc hs
    exact hd.step (partsOnce_run hr) hc hs
  exact hd.disconnectedLast

-- A handle's DISCONNECT is flushed, and nothing is behind it.
def parting : List Input :=
  disconnecting ++ [.proceed, .proceed, .written (.ok 2), .proceed, .flushed (.ok ()), .proceed]

theorem disconnected_last_parting :
    ∃ driver, (start plainOptions plainConnack stillClock).run parting = some driver ∧
      driver.connection.emitted = [.disconnected .clientInitiated] ∧
      driver.connection.DisconnectedLast := by
  refine ⟨_, rfl, by decide +kernel,
    disconnected_last plainOptions plainConnack stillClock parting _ rfl ?_⟩
  unfold DisconnectsLast
  decide +kernel

-- While the DISCONNECT cannot be written, a QoS 1 message arrives. Its PUBACK is still in the queue
-- when the DISCONNECT is flushed, so the driver goes on and finds that the broker has left.
def leftBehind : List Input :=
  disconnecting ++
    [.proceed, .proceed, .written (.error { kind := .wouldBlock }), .proceed,
      .read (.ok [0x32, 6, 0, 1, 97, 0, 7, 0]), .read (.error { kind := .wouldBlock }),
      .proceed, .proceed, .proceed, .proceed, .proceed, .written (.ok 2),
      .written (.error { kind := .wouldBlock }), .flushed (.ok ()), .proceed, .elapsed, .proceed,
      .proceed, .proceed, .written (.error { kind := .wouldBlock }), .proceed, .read (.ok [])]

theorem disconnected_twice :
    ∃ driver, (start plainOptions plainConnack stillClock).run leftBehind = some driver ∧
      driver.connection.emitted.drop 1 =
        [.disconnected .clientInitiated, .disconnected .transportClosed] ∧
      ¬driver.connection.DisconnectedLast := by
  have ⟨driver, hr, he⟩ := exists_run (start plainOptions plainConnack stillClock) leftBehind
    (fun driver => driver.connection.emitted.drop 1 =
      [.disconnected .clientInitiated, .disconnected .transportClosed]) (by decide +kernel)
  refine ⟨driver, hr, he, fun h => ?_⟩
  cases h _ _ _ ((List.take_append_drop 1 _).symm.trans (congrArg _ he))

end Driver
end MqttWasi
