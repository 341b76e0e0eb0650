import MqttWasi.Driver.Theorems.Framing

-- What follows a DISCONNECT.

namespace MqttWasi

def OutboundFrame.IsDisconnect (frame : OutboundFrame) : Prop :=
  packetTypeOf frame.bytes = some .disconnect

namespace MqttConnection

open Relation (ReflTransGen)
open EStateM (Leads)

-- Whether the driver answers a packet with another one: a QoS 1 message with a PUBACK, and the SUBACK
-- that a request waits for with the request.
def Provokes (c : MqttConnection) : Packet → Prop
  | .publish packet => packet.qos = .atLeastOnce ∧ ∃ packetId bytes,
    packet.packetId = some packetId ∧
      PubAckPacket.encode { packetId, reasonCode := 0x00 } = .ok bytes ∧ c.HasRoom bytes
  | .subAck ack => ∃ pending responseTopic, c.pendingAcks.lookup ack.packetId = some pending ∧
    pending.kind = .responseSubscribe responseTopic ∧
      validateSubackCodes ack.reasonCodes [.atLeastOnce] = .ok () ∧ c.HasWaiting responseTopic
  | _ => False

-- A DISCONNECT can only be the last frame.
def DisconnectFinal (c : MqttConnection) : Prop :=
  ∀ before frame after, c.frames = before ++ frame :: after → frame.IsDisconnect → after = []

structure Final (c : MqttConnection) : Prop where
  final : ∀ frame ∈ c.frames.dropLast, ¬frame.IsDisconnect
  closing : ∀ frame ∈ c.frames, frame.IsDisconnect → c.closing = true

variable {c c' : MqttConnection}

theorem Final.disconnectFinal (h : c.Final) : c.DisconnectFinal := by
  intro before frame after hf hd
  by_contra ha
  refine h.final frame ?_ hd
  rw [hf, List.dropLast_append_of_ne_nil (List.cons_ne_nil _ _), List.dropLast_cons_of_ne_nil ha]
  simp

theorem dropLast_sublist_dropLast {l l' : List α} (h : l.Sublist l') :
    l.dropLast.Sublist l'.dropLast := by
  rw [← List.reverse_sublist, ← List.tail_reverse, ← List.tail_reverse]
  exact h.reverse.tail

theorem Final.of_sublist (h : c.Final) (hs : c'.frames.Sublist c.frames)
    (hc : c'.closing = c.closing) : c'.Final where
  final frame hm := h.final frame ((dropLast_sublist_dropLast hs).subset hm)
  closing frame hm hd := hc ▸ h.closing frame (hs.subset hm) hd

-- As long as the driver is not closing, no frame is a DISCONNECT.
theorem Final.push (h : c.Final) (hc : c.closing = false)
    (hn : frame.IsDisconnect → c'.closing = true) (hf : c'.frames = c.frames ++ [frame]) :
    c'.Final := by
  have hno : ∀ frame ∈ c.frames, ¬frame.IsDisconnect := fun frame hm hd =>
    absurd ((h.closing frame hm hd).symm.trans hc) nofun
  refine ⟨fun frame' hm => ?_, fun frame' hm hd => ?_⟩
  case refine_1 =>
    rw [hf, List.dropLast_concat] at hm
    exact hno frame' hm
  case refine_2 =>
    rw [hf] at hm
    rcases List.mem_append.mp hm with hm | hm
    case inl => exact absurd hd (hno frame' hm)
    case inr => exact hn (List.mem_singleton.mp hm ▸ hd)

theorem Shift.closing (h : Shift c c') : c'.closing = c.closing := by
  cases h
  case quiet hq => exact hq.closing
  case remove pending correlationData e _ =>
    have ⟨_, _, _, he⟩ := withoutRequest_eq c correlationData pending
    rw [reply, he]
  all_goals rfl

theorem Shift.frames (h : Shift c c') : c'.frames.Sublist c.frames := by
  cases h
  case quiet hq => cases hq; exact .refl _
  case remove pending correlationData e _ => exact frames_withoutRequest c correlationData pending
  all_goals exact .refl _

theorem Final.shift (h : c.Final) (hs : Shift c c') : c'.Final :=
  h.of_sublist hs.frames hs.closing

theorem Announce.calm (h : Announce reason c c') :
    c'.frames.Sublist c.frames ∧ c'.closing = c.closing := by
  cases h <;> exact ⟨.refl _, rfl⟩

theorem Performs.calm (h : Performs action c c') :
    c'.frames.Sublist c.frames ∧ c'.closing = c.closing := by
  cases h
  case disconnect ha => exact ha.calm
  all_goals exact ⟨.refl _, rfl⟩

theorem Final.flush (h : c.Final) (hf : Flush c c') : c'.Final := by
  cases hf
  case accept => exact h.of_sublist (.refl _) rfl
  case complete hp => exact h.of_sublist hp.calm.left hp.calm.right

theorem Final.write (h : c.Final) (hw : Write frame rest c c') (ho : c.outbound = frame :: rest) :
    c'.Final := by
  refine h.of_sublist ?_ (by cases hw <;> rfl)
  rw [hw.frames ho]

-- A connection that is not closing.

structure Opened (c : MqttConnection) : Prop where
  framed : c.Framed
  closing : c.closing = false
  unsent : ∀ frame ∈ c.frames, ¬frame.IsDisconnect

theorem Opened.final (h : c.Opened) : c.Final where
  final frame hm := h.unsent frame (List.dropLast_subset _ hm)
  closing frame hm hd := absurd hd (h.unsent frame hm)

theorem Final.opened (h : c.Final) (hf : c.Framed) (hc : c.closing = false) : c.Opened where
  framed := hf
  closing := hc
  unsent frame hm hd := absurd ((h.closing frame hm hd).symm.trans hc) nofun

theorem Opened.of_sublist (h : c.Opened) (hf : c'.Framed) (hc : c'.closing = c.closing)
    (hs : c'.frames.Sublist c.frames) : c'.Opened where
  framed := hf
  closing := hc.trans h.closing
  unsent frame hm := h.unsent frame (hs.subset hm)

theorem Opened.same (h : c.Opened) (hc : c'.closing = c.closing)
    (ho : c'.outgoing = c.outgoing) : c'.Opened := by
  have hf := h.framed.same ho
  simp only [outgoing, Prod.mk.injEq] at ho
  exact h.of_sublist hf hc (by rw [frames, ho.left, ho.right.left]; exact .refl _)

theorem Opened.push (h : c.Opened) (frame) (hf : c.Fits frame.bytes t asked) (ht : t ≠ .disconnect)
    (ho : frame.offset = 0) : (c.push frame).Opened := by
  have ha := hf.asks (Nat.lt_of_le_of_lt hf.le_max h.framed.max_lt)
  refine ⟨h.framed.push frame hf ho, h.closing, fun frame' hm => ?_⟩
  rw [frames_push] at hm
  rcases List.mem_append.mp hm with hm | hm
  case inl => exact h.unsent frame' hm
  case inr =>
    rw [List.mem_singleton.mp hm, OutboundFrame.IsDisconnect]
    exact fun hd => ht (Option.some.inj (ha.typed.symm.trans hd))

theorem Opened.shift (h : c.Opened) (hs : Shift c c') : c'.Opened :=
  h.of_sublist (h.framed.traffic hs.traffic) hs.closing hs.frames

theorem Opened.await (h : c.Opened) (packetId entry frame) (hf : c.Fits frame.bytes t asked)
    (ht : t ≠ .disconnect) (ho : frame.offset = 0) :
    ((c.await packetId entry).push frame).Opened := by
  have h : (c.await packetId entry).Opened := h.same rfl rfl
  exact h.push frame ⟨hf.le_max, hf.room, hf.asks⟩ ht ho

theorem Opened.publish (h : c.Opened) (hp : Publish c c') : c'.Opened := by
  cases hp
  case quiet hq => exact h.shift (.quiet hq)
  case qos1 hp => exact (h.await (t := .publish) _ _ _ hp.fits nofun rfl).same rfl rfl
  case qos0 hp => exact (h.push (t := .publish) _ hp.fits nofun rfl).same rfl rfl

theorem Opened.move (h : c.Opened) (hm : Move c c') : c'.Opened := by
  cases hm
  case shift hs => exact h.shift hs
  case publish hp => exact h.publish hp

theorem Opened.withoutRequest (h : c.Opened)
    (hl : c.pendingRequests.lookup correlationData = some pending) :
    (c.withoutRequest correlationData pending).Opened :=
  h.shift (.withoutRequest hl)

theorem Opened.begin (h : c.Opened) (hb : Begin c c') : c'.Opened := by
  cases hb
  case publish hp => exact h.publish hp
  case await entry _ _ ha =>
    exact h.await _ _ _ ha.fits (by cases entry.kind.ackClass <;> nofun) rfl
  case subscribe packetId entry _ _ hs =>
    exact (h.await (t := .subscribe) packetId entry _ hs.fits nofun rfl).same rfl rfl
  case queue hq => exact h.push (t := .publish) _ hq.fits nofun rfl
  case ping hr => exact (h.push (t := .pingReq) pingFrame hr.ping nofun rfl).same rfl rfl
  case withdraw hl => exact (h.withoutRequest hl).same rfl rfl
  all_goals exact h.same rfl rfl

theorem Opened.disconnect (h : c.Opened) (frame) :
    ({ c with closing := true }.push frame).Final :=
  h.final.push h.closing (fun _ => rfl) (frames_push _ frame)

theorem Opened.enter (h : c.Opened) (he : Enter c c') : c'.Final := by
  cases he
  case begin hb => exact (h.begin hb).final
  case desert => exact Opened.final (h.same rfl rfl)
  case disconnect => exact h.disconnect _
  case abandon => exact h.disconnect _

theorem Opened.arrive (h : c.Opened) (ha : Arrive c c') : c'.Opened := by
  cases ha
  case resolve hr =>
    cases hr
    case move hm => exact h.move hm
    all_goals exact h.same rfl rfl
  case acknowledge hf => exact h.push _ hf nofun rfl
  case respond hl => exact (h.withoutRequest hl).same rfl rfl
  case deliver => exact h.same rfl rfl

-- A connection that is closing.

-- Nothing is added to the queue.
def Calm (c c' : MqttConnection) : Prop :=
  c'.frames.Sublist c.frames ∧ c'.closing = c.closing

theorem Calm.refl : Calm c c :=
  ⟨.refl _, rfl⟩

theorem Calm.trans (h : Calm c c₁) (h' : Calm c₁ c₂) : Calm c c₂ :=
  ⟨h'.left.trans h.left, h'.right.trans h.right⟩

theorem Calm.shifts (h : ReflTransGen Shift c c') : Calm c c' :=
  h.preserves (P := Calm c) (fun _ _ hs h => h.trans ⟨hs.frames, hs.closing⟩) .refl

theorem Ends.calm (h : Ends c c') : Calm c c' := by
  have hs : c.closed.frames.Sublist c.frames := ((List.nil_sublist _).append_left _).map _
  cases h <;> exact ⟨hs, rfl⟩

theorem Final.calm (h : c.Final) (hc : Calm c c') : c'.Final :=
  h.of_sublist hc.left hc.right

theorem Settles.calm (h : Settles Shift packet packetId kind c c') : Calm c c' :=
  have ⟨_, _, hs⟩ := h
  have ht := Calm.shifts hs
  ⟨ht.left, ht.right⟩

theorem Acknowledges.calm (h : Acknowledges Shift packet k packetId c r) : Calm c r.state := by
  cases h
  case ignored => exact .refl
  case refused => exact .refl
  case settled hs => exact hs.calm

theorem Handled.calm (h : Handled packet c r) (hn : ¬c.Provokes (.publish packet)) :
    Calm c r.state := by
  have ha : ∀ {c₁}, Acked packet c c₁ → c₁ = c := by
    intro c₁ ha
    cases ha
    case qos0 => rfl
    case qos1 hq hi he hf =>
      exact absurd ⟨hq, _, _, hi, he, hf.le_max, hf.room⟩ hn
  cases h
  case response h hr =>
    obtain rfl := ha h
    have hs := Shift.withoutRequest hr.right.left
    exact ⟨hs.frames, hs.closing⟩
  case event h _ =>
    obtain rfl := ha h
    exact ⟨.refl _, rfl⟩
  case error h =>
    rcases h with rfl | h
    case inl => exact .refl
    case inr => obtain rfl := ha h; exact .refl

-- Only the packets that provoke an answer add anything to the queue.
theorem dispatchPacket_calm (hn : ¬c.Provokes packet)
    (hd : ∀ disconnect, packet ≠ .disconnect disconnect) :
    Calm c (dispatchPacket packet c).state := by
  cases packet
  case publish packet => exact (dispatchPublish_handled c packet).calm hn
  case pubAck ack =>
    exact (dispatch_ack_cases rfl rfl fun _ h hk => dispatchPuback_settles h hk).calm
  case subAck ack =>
    refine (dispatch_ack_cases rfl rfl fun pending h hk =>
      dispatchSuback_settles' (fun responseTopic ht => ?_) h hk).calm
    exact completeResponseSubscribe_shifts fun hv hw =>
      hn ⟨pending, responseTopic, h, ht, hv, hw⟩
  case unsubAck ack =>
    exact (dispatch_ack_cases rfl rfl fun _ h hk => dispatchUnsuback_settles h hk).calm
  case disconnect disconnect => exact absurd rfl (hd disconnect)
  all_goals exact ⟨.refl _, rfl⟩

end MqttConnection

namespace Driver

open MqttConnection

variable {c c' : MqttConnection}

-- The driver is closing but about to queue another frame all the same.
def Relapses (driver : Driver) : Prop :=
  driver.connection.closing = true ∧
    ((driver.phase = .maintainKeepAlive ∧ driver.connection.pings = true ∧
        driver.connection.HasRoom pingreqBytes) ∨
      (driver.phase = .decodeAndDispatch ∧ ∃ packet reader,
        FrameReader.tryDecode driver.connection.frameReader = .ok (some packet) reader ∧
          driver.connection.Provokes packet))

theorem Framed.connection {driver : Driver} (h : driver.Framed)
    (hr : driver.phase.running = true) : driver.connection.Framed := by
  rcases h with h | ⟨ht, _⟩
  case inl => exact h
  case inr => exact absurd (hr.symm.trans (Phase.running_of_terminated ht)) nofun

theorem final_command (h : c.Final) (hf : c.Framed) (ht : command ∈ c.taken) :
    (processCommand command c).state.Final := by
  cases hc : c.closing
  case true =>
    rw [processCommand_of_closing hc]
    exact h.of_sublist (.refl _) rfl
  case false =>
    have ho := h.opened hf hc
    by_cases hq : ∀ request result, command ≠ .request request result
    case pos =>
      have ⟨c₁, hs, ht⟩ := processCommand_accepts (c := c) hq
      exact (ho.shift (.quiet hs)).enter ht.enter
    case neg =>
      simp only [ne_eq, not_forall, not_not] at hq
      obtain ⟨request, result, rfl⟩ := hq
      exact (Relation.ReflTransGen.preserves (processCommand_request ht)
        (fun _ _ hb h => h.begin hb) ho).final

theorem final_abandon (h : c.Final) (hf : c.Framed) : (abandonCommands c).state.Final := by
  cases hc : c.closing
  case true =>
    rw [abandonCommands_of_closing hc]
    exact ⟨h.final, h.closing⟩
  case false =>
    have ho : c.deserted.Opened := (h.opened hf hc).same rfl rfl
    rcases abandonCommands_of_open hc with ⟨e, ha⟩ | ⟨_, ha⟩
    case inl =>
      rw [ha]
      exact ⟨ho.final.final, fun frame hm hd => absurd hd (ho.unsent frame hm)⟩
    case inr =>
      rw [ha]
      exact ho.disconnect _

theorem final_keepAlive (h : c.Final) (hf : c.Framed)
    (hn : ¬Relapses ⟨c, .maintainKeepAlive⟩) :
    (MqttConnection.maintainKeepAlive c).state.Final := by
  rcases (maintainKeepAlive_cases (c := c)).right with hq | ⟨hp, c₁, hq, _, _, hr, he⟩
  case inl => exact h.shift (.quiet hq)
  case inr =>
    cases hc : c.closing
    case true => exact absurd ⟨hc, .inl ⟨rfl, hp, hq.hasRoom.mp hr⟩⟩ hn
    case false =>
      exact (Relation.ReflTransGen.preserves maintainKeepAlive_begins (fun _ _ hb h => h.begin hb)
        (h.opened hf hc)).final

theorem final_decode (h : c.Final) (hf : c.Framed) (hn : ¬Relapses ⟨c, .decodeAndDispatch⟩)
    (next) : (perform decodeNext next c).connection.Final := by
  rcases perform_decodeNext_cases c next with ⟨reader, p, _, hx⟩ | ⟨packet, reader, hd, hx⟩ <;> rw [hx]
  case inl => exact h.of_sublist (.refl _) rfl
  case inr =>
    rw [perform_connection]
    have h : (c.arrived reader packet).Final := h.of_sublist (.refl _) rfl
    rcases dispatchPacket_cases (c.arrived reader packet) packet with ⟨_, c', _, hc, he⟩ | hs
    case inl =>
      rw [hc]
      exact h.calm he.calm
    case inr =>
      cases hc : c.closing
      case true =>
        refine h.calm (dispatchPacket_calm (fun hp => hn ?_) hs)
        exact ⟨hc, .inr ⟨rfl, packet, reader, hd, by cases packet <;> exact hp⟩⟩
      case false =>
        have hf : (c.arrived reader packet).Framed := hf.same rfl
        exact ((dispatchPacket_arrives hs).preserves (fun _ _ ha h => h.arrive ha)
          (h.opened hf hc)).final

theorem final_step {driver driver' : Driver} (h : driver.connection.Final) (hf : driver.Framed)
    (hn : input = .proceed → ¬driver.Relapses) (hd : Does driver input driver') :
    driver'.connection.Final := by
  cases hd
  case pass => exact h
  case wake => exact h
  case shift hm => exact h.calm (.shifts hm)
  case command command rest c _ _ hp _ =>
    rw [perform_connection]
    have h : (c.dequeued command rest).Final := h.of_sublist (.refl _) rfl
    exact final_command h ((hf.connection (Phase.running_of_takes hp)).same rfl) (mem_taken_dequeued ..)
  case abandon hp =>
    rw [perform_connection]
    exact final_abandon h (hf.connection hp)
  case keepAlive =>
    rw [perform_connection]
    exact final_keepAlive h (hf.connection rfl) (hn rfl)
  case write hp ho =>
    rw [perform_connection]
    exact h.write (writeFront_writes ..) ho
  case flush =>
    rw [perform_connection]
    exact Relation.ReflTransGen.preserves flushAccepted_flushes (fun _ _ hf h => h.flush hf) h
  case read result c _ _ _ =>
    rw [perform_connection]
    have hr := readNext_receives (c := c) result
    generalize (readNext result c).state = c' at hr ⊢
    cases hr
    case idle => exact h
    case close ha => exact h.of_sublist ha.calm.left ha.calm.right
    case receive => exact h.of_sublist (.refl _) rfl
  case decode => exact final_decode h (hf.connection rfl) (hn rfl) _
  case finish c result =>
    have ⟨c', hc, he⟩ := finish_ends c result
    rw [perform_ok hc]
    exact h.calm he.calm
  case outside ho => cases ho <;> exact h.of_sublist (.refl _) rfl

-- No step of the run is one at which the driver relapses.
def Undisturbed (driver : Driver) (inputs : List Input) : Prop :=
  ∀ inputs' earlier, inputs' ++ [.proceed] <+: inputs → driver.run inputs' = some earlier →
    ¬earlier.Relapses

-- Once a DISCONNECT has been queued, it stays the last frame as long as the driver receives nothing
-- that it answers and does not become due to send a PINGREQ.
theorem disconnect_final (options : ConnectOptions) (connack : ConnAckPacket) (clock : Clock)
    (inputs : List Input) (driver : Driver)
    (h : (start options connack clock).run inputs = some driver)
    (hu : (start options connack clock).Undisturbed inputs) :
    driver.connection.DisconnectFinal ∧
      (driver.phase.terminated = false →
        driver.connection.wire <+: driver.connection.frames.flatMap (·.bytes)) := by
  have hf : driver.connection.Final := by
    refine run_induction (P := fun inputs driver => Undisturbed _ inputs →
      driver.connection.Final) ?_ ?_ h hu
    case refine_1 => exact fun _ => ⟨nofun, nofun⟩
    case refine_2 =>
      intro inputs earlier input next hr hp hd hu
      refine final_step (hp fun inputs' earlier hi => ?_) (framed_run hr) (fun hi => ?_)
        (step_does hd)
      case refine_1 => exact hu inputs' earlier (hi.trans (List.prefix_append _ _))
      case refine_2 =>
        rw [hi] at hu
        exact hu inputs earlier List.prefix_rfl hr
  refine ⟨hf.disconnectFinal, fun ht => ?_⟩
  rcases framed_run h with hf | ⟨ht', _⟩
  case inl => exact hf.wire_prefix
  case inr => exact absurd (ht'.symm.trans ht) nofun

-- A handle asks the driver to disconnect.
def disconnecting : List Input :=
  [.submit (.disconnect 0), .proceed, .proceed]

-- For example, while it is closing the driver sends no PINGREQs and gets nothing but QoS 0 messages.
theorem undisturbed_of_quiet {driver : Driver}
    (h : driver.Throughout inputs fun earlier input => earlier.connection.closing = true →
      earlier.connection.pings = false ∧ ∀ packet ∈ earlier.dispatches input,
        ∃ message ∈ packet.publish?, message.qos = .atMostOnce) :
    driver.Undisturbed inputs := by
  rintro inputs' ⟨c, phase⟩ hp hr ⟨hc, hv⟩
  have ⟨hn, hd⟩ := h inputs' .proceed _ hp hr hc
  rcases hv with ⟨_, hs, _⟩ | ⟨rfl, packet, reader, ht, hv⟩
  case inl => cases hn.symm.trans hs
  case inr =>
    obtain ⟨message, hm, hq⟩ := hd packet (dispatches_of_decoded ht)
    cases packet
    case publish => cases hm; cases hq.symm.trans hv.left
    all_goals cases hm

-- The DISCONNECT cannot be written at first. Meanwhile a QoS 0 message arrives.
def lingering : List Input :=
  disconnecting ++
    ([.proceed, .proceed, .written (.error { kind := .wouldBlock }), .proceed,
      .read (.ok [0x30, 4, 0, 1, 97, 0]), .read (.error { kind := .wouldBlock }),
      .proceed, .proceed, .proceed, .proceed, .proceed, .written (.ok 1), .written (.ok 1), .proceed,
      .flushed (.ok ()), .proceed] : List Input)

theorem disconnect_final_lingering :
    ∃ driver, (start plainOptions plainConnack stillClock).run lingering = some driver ∧
      driver.connection.wire = disconnectBytes ∧ driver.connection.dispatched.length = 1 ∧
      driver.phase.terminated = true ∧ driver.connection.DisconnectFinal := by
  obtain ⟨driver, hr, hw, hd, ht⟩ := exists_run (start plainOptions plainConnack stillClock) lingering
    (fun driver => driver.connection.wire = disconnectBytes ∧
      driver.connection.dispatched.length = 1 ∧ driver.phase.terminated = true) (by decide +kernel)
  refine ⟨driver, hr, hw, hd, ht, ?_⟩
  exact (disconnect_final plainOptions plainConnack stillClock lingering driver hr
    (undisturbed_of_quiet (by decide +kernel))).left

-- While the DISCONNECT cannot be written, a QoS 1 message arrives.
def messageWhileClosing : List Input :=
  disconnecting ++
    [.proceed, .proceed, .written (.error { kind := .wouldBlock }), .proceed,
      .read (.ok [0x32, 6, 0, 1, 97, 0, 7, 0]), .read (.error { kind := .wouldBlock }),
      .proceed, .proceed, .proceed, .proceed, .proceed, .written (.ok 2), .written (.ok 4)]

theorem puback_after_disconnect :
    ∃ driver, (start plainOptions plainConnack stillClock).run messageWhileClosing = some driver ∧
      driver.connection.wire = [0xE0, 0, 0x40, 2, 0, 7] ∧ ¬driver.connection.DisconnectFinal :=
  ⟨_, rfl, rfl, fun h => nomatch h [] _ [_] rfl rfl⟩

end Driver
end MqttWasi
