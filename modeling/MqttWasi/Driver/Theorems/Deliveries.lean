import MqttWasi.Driver.Theorems.Framing

-- Messages from the broker: each is handed over once, and only those that have been are acknowledged.

namespace MqttWasi

-- The ways in which a message is handed over.
inductive Handover
  | response (packet : PublishPacket) (correlationData : Bytes) (result : Sender)
  | event (packet : PublishPacket)

namespace Handover

def packet : Handover → PublishPacket
  | response packet _ _ | event packet => packet

def response? : Handover → Option (Sender × PublishPacket)
  | response packet _ result => some (result, packet)
  | event _                  => none

def event? : Handover → Option PublishPacket
  | response _ _ _ => none
  | event packet   => some packet

end Handover

def Event.publish? : Event → Option PublishPacket
  | .publish packet => some packet
  | .disconnected _ => none

def Reply.response? : Sender × Reply → Option (Sender × PublishPacket)
  | (result, .ok (.response packet)) => some (result, packet)
  | _                                => none

def ackIds (handovers : List Handover) : List UInt16 :=
  handovers.filterMap (·.packet.ackId)

-- The packet identifiers of the PUBACKs among some frames.
def pubackIds (frames : List OutboundFrame) : List UInt16 :=
  frames.filterMap (pubackId ·.bytes)

namespace MqttConnection

open Relation (ReflTransGen)

-- The packets that were decoded, the PUBACKs that were queued for them, and what was done with them.
structure Balance (c : MqttConnection) (packets : List PublishPacket) (acks : List UInt16)
    (handovers : List Handover) : Prop where
  dispatched : c.dispatched.filterMap (·.publish?) = packets
  responses : c.replies.filterMap Reply.response? = handovers.filterMap (·.response?)
  events : c.emitted.filterMap (·.publish?) = handovers.filterMap (·.event?)
  enqueued : pubackIds c.enqueued = acks
  frames : pubackIds c.frames = acks
  -- The frames that can be withdrawn are not PUBACKs.
  requests : ∀ frame ∈ c.outbound, frame.requestCorrelation ≠ none → pubackId frame.bytes = none
  framed : c.Framed

variable {c c' : MqttConnection}

-- What has happened to messages so far.
def history (c : MqttConnection) :
    List Packet × List (Sender × PublishPacket) × List PublishPacket × List OutboundFrame × Bytes :=
  (c.dispatched, c.replies.filterMap Reply.response?, c.emitted.filterMap (·.publish?), c.enqueued,
    c.wire)

theorem Balance.same (h : c.Balance packets acks handovers) (hf : c'.Framed)
    (hh : c'.history = c.history) (ho : c'.outbound = c.outbound) (hw : c'.written = c.written) :
    c'.Balance packets acks handovers := by
  simp only [history, Prod.mk.injEq] at hh
  have ⟨hd, hr, he, hq, _⟩ := hh
  exact {
    dispatched := by rw [hd, h.dispatched]
    responses := by rw [hr, h.responses]
    events := by rw [he, h.events]
    enqueued := by rw [hq, h.enqueued]
    frames := by rw [MqttConnection.frames, ho, hw]; exact h.frames
    requests := by rw [ho]; exact h.requests
    framed := hf
  }

theorem Balance.push (h : c.Balance packets acks handovers) (frame)
    (hf : c.Fits frame.bytes t asked) (ht : t ≠ .pubAck) (ho : frame.offset = 0) :
    (c.push frame).Balance packets acks handovers := by
  have ha := hf.asks (Nat.lt_of_le_of_lt hf.le_max h.framed.max_lt)
  have hn : pubackId frame.bytes = none := pubackId_of_type ha.typed ht
  have hp : ∀ frames, pubackIds (frames ++ [frame]) = pubackIds frames := by
    intro frames
    simp [pubackIds, hn]
  refine ⟨h.dispatched, h.responses, h.events, ?_, ?_, fun frame' hm hr => ?_,
    h.framed.push frame hf ho⟩
  case refine_1 => exact (hp _).trans h.enqueued
  case refine_2 =>
    rw [frames_push, show frame.unstarted = frame by rw [OutboundFrame.unstarted, ← ho], hp]
    exact h.frames
  case refine_3 =>
    rcases List.mem_append.mp hm with hm | hm
    case inl => exact h.requests frame' hm hr
    case inr => rw [List.mem_singleton.mp hm]; exact hn

theorem pubackIds_unstarted (frames : List OutboundFrame) :
    pubackIds (frames.map (·.unstarted)) = pubackIds frames := by
  rw [pubackIds, List.filterMap_map]
  rfl

theorem Balance.withoutRequest (h : c.Balance packets acks handovers) (correlationData pending) :
    (c.withoutRequest correlationData pending).Balance packets acks handovers := by
  have hf := h.framed.traffic (Traffic.withoutRequest c correlationData pending)
  have ⟨_, _, _, he⟩ := withoutRequest_eq c correlationData pending
  rw [he] at hf ⊢
  refine ⟨h.dispatched, h.responses, h.events, h.enqueued, ?_, fun frame hm => ?_, hf⟩
  case refine_1 =>
    have hk : pubackIds (c.outbound.filter (!isUnsentFrameOf correlationData ·)) =
        pubackIds c.outbound := by
      rw [pubackIds, List.filterMap_filter]
      refine List.filterMap_congr fun frame hm => ?_
      split
      case isTrue => rfl
      case isFalse hu =>
        refine (h.requests frame hm fun hr => hu ?_).symm
        simp [isUnsentFrameOf, hr]
    rw [← h.frames, MqttConnection.frames, MqttConnection.frames, pubackIds_unstarted,
      pubackIds_unstarted, pubackIds, List.filterMap_append, pubackIds, List.filterMap_append]
    exact congrArg _ hk
  case refine_2 => exact h.requests frame (List.mem_of_mem_filter hm)

theorem response?_error (result : Sender) (e : Option Error) :
    ((e.map fun e => (Except.error e : Reply)).map (result, ·)).toList.filterMap Reply.response? =
      [] := by
  cases e <;> rfl

theorem response?_told (results : List Sender) (e : Error) :
    (results.map fun result => (result, (Except.error e : Reply))).filterMap Reply.response? =
      [] := by
  rw [List.filterMap_map]
  exact List.filterMap_eq_nil_iff.mpr fun _ _ => rfl

theorem response?_verdict (h : Verdict packet r) (result) : Reply.response? (result, r) = none := by
  cases h
  case puback ack =>
    rw [pubackReply]
    split <;> rfl
  case suback => rfl
  case refused => rfl
  case unsuback ack =>
    rw [unsubackReply]
    cases validateReasonCodes "UNSUBACK" ack.reasonCodes 1 <;> rfl

theorem response?_settled (h : Told packet kind l) : l.filterMap Reply.response? = [] := by
  cases h
  case nobody => rfl
  case waiter hv => simp [response?_verdict hv]

theorem Balance.replied (h : c.Balance packets acks handovers) (hl : l.filterMap Reply.response? = []) :
    Balance { c with replies := c.replies ++ l } packets acks handovers := by
  refine h.same (h.framed.same rfl) ?_ rfl rfl
  simp only [history, List.filterMap_append, hl, List.append_nil]

theorem Balance.shift (h : c.Balance packets acks handovers) (hs : Shift c c') :
    c'.Balance packets acks handovers := by
  have hf := h.framed.traffic hs.traffic
  cases hs
  case quiet hq => cases hq; exact h.same hf rfl rfl rfl
  case sweep => exact h.same hf rfl rfl rfl
  case bury pending _ _ _ =>
    have h := h.replied (l := (pending.kind.result?.map
      (·, .error (.timeout pending.timeoutLabel))).toList) (by cases pending.kind.result? <;> rfl)
    exact h.same (h.framed.same rfl) rfl rfl rfl
  case forget => exact h.same hf rfl rfl rfl
  case remove pending correlationData e _ =>
    exact (h.withoutRequest correlationData pending).replied (response?_error _ _)

theorem Balance.await (h : c.Balance packets acks handovers) (packetId entry frame)
    (hf : c.Fits frame.bytes t asked) (ht : t ≠ .pubAck) (ho : frame.offset = 0) :
    ((c.await packetId entry).push frame).Balance packets acks handovers := by
  have h : (c.await packetId entry).Balance packets acks handovers :=
    h.same (h.framed.same rfl) rfl rfl rfl
  exact h.push frame ⟨hf.le_max, hf.room, hf.asks⟩ ht ho

theorem Balance.publish (h : c.Balance packets acks handovers) (hp : Publish c c') :
    c'.Balance packets acks handovers := by
  have hf := h.framed.traffic hp.traffic
  cases hp
  case quiet hq => exact h.shift (.quiet hq)
  case qos1 hp => exact (h.await (t := .publish) _ _ _ hp.fits nofun rfl).same hf rfl rfl rfl
  case qos0 hp => exact (h.push (t := .publish) _ hp.fits nofun rfl).same hf rfl rfl rfl

theorem Balance.move (h : c.Balance packets acks handovers) (hm : Move c c') :
    c'.Balance packets acks handovers := by
  cases hm
  case shift hs => exact h.shift hs
  case publish hp => exact h.publish hp

theorem Balance.begin (h : c.Balance packets acks handovers) (hb : Begin c c') :
    c'.Balance packets acks handovers := by
  have hf := h.framed.traffic hb.traffic
  cases hb
  case publish hp => exact h.publish hp
  case refuse => exact h.replied rfl
  case await entry _ _ ha =>
    exact h.await _ _ _ ha.fits (by cases entry.kind.ackClass <;> nofun) rfl
  case subscribe packetId entry _ _ hs =>
    exact (h.await (t := .subscribe) packetId entry _ hs.fits nofun rfl).same hf rfl rfl rfl
  case queue hq => exact h.push _ hq.fits nofun rfl
  case ping hr => exact (h.push pingFrame hr.ping nofun rfl).same hf rfl rfl rfl
  case withdraw pending correlationData e _ _ =>
    exact (h.withoutRequest correlationData pending).replied rfl
  all_goals exact h.same hf rfl rfl rfl

theorem Balance.disconnect (h : c.Balance packets acks handovers) (frame)
    (hf : c.Fits frame.bytes .disconnect none) (ho : frame.offset = 0) :
    ({ c with closing := true }.push frame).Balance packets acks handovers := by
  have h : Balance { c with closing := true } packets acks handovers :=
    h.same (h.framed.same rfl) rfl rfl rfl
  exact h.push frame ⟨hf.le_max, hf.room, hf.asks⟩ nofun ho

theorem Balance.enter (h : c.Balance packets acks handovers) (he : Enter c c') :
    c'.Balance packets acks handovers := by
  cases he
  case begin hb => exact h.begin hb
  case desert => exact h.same (h.framed.same rfl) rfl rfl rfl
  case disconnect hr => exact h.disconnect _ hr.disconnect rfl
  case abandon hr => exact h.disconnect _ hr.disconnect rfl

theorem Announce.history (h : Announce reason c c') : c'.history = c.history := by
  cases h <;> simp [MqttConnection.history, emit, Event.publish?]

theorem Balance.announce (h : c.Balance packets acks handovers) (ha : Announce reason c c') :
    c'.Balance packets acks handovers :=
  h.same (h.framed.same ha.outgoing) ha.history (by cases ha <;> rfl) (by cases ha <;> rfl)

theorem Balance.performs (h : c.Balance packets acks handovers) (hp : Performs action c c') :
    c'.Balance packets acks handovers := by
  cases hp
  case publishQos0 => exact h.replied rfl
  case pingReq => exact h.same (h.framed.same rfl) rfl rfl rfl
  case disconnect ha => exact (h.replied rfl).announce ha
  all_goals exact h

theorem Balance.flush (h : c.Balance packets acks handovers) (hf : Flush c c') :
    c'.Balance packets acks handovers := by
  cases hf
  case accept => exact h.same (h.framed.same rfl) rfl rfl rfl
  case complete flush rest _ hp =>
    have h : (c.dropFlush flush rest).Balance packets acks handovers :=
      h.same (h.framed.same rfl) rfl rfl rfl
    exact h.performs hp

theorem Balance.write (h : c.Balance packets acks handovers) (ho : c.outbound = frame :: rest)
    (hw : Write frame rest c c') : c'.Balance packets acks handovers := by
  have hf := h.framed.write ho hw
  have hs := hw.frames ho
  have hr := h.requests
  rw [ho, List.forall_mem_cons] at hr
  cases hw
  case none => exact h
  case part =>
    exact ⟨h.dispatched, h.responses, h.events, h.enqueued, by rw [hs, h.frames],
      List.forall_mem_cons.mpr hr, hf⟩
  case whole =>
    exact ⟨h.dispatched, h.responses, h.events, h.enqueued, by rw [hs, h.frames], hr.right, hf⟩

theorem Balance.act (h : c.Balance packets acks handovers) (ha : Act c c') :
    c'.Balance packets acks handovers := by
  have hf := h.framed.traffic ha.traffic
  cases ha
  case shift hs => exact h.shift hs
  case enter he => exact h.enter he
  case write ho hw => exact h.write ho hw
  case flush hf => exact h.flush hf
  case announce hs => exact h.announce hs
  case outside ho => cases ho <;> exact h.same hf rfl rfl rfl
  all_goals exact h.same hf rfl rfl rfl

theorem Balance.resolve (h : c.Balance packets acks handovers) (hr : Resolve c c') :
    c'.Balance packets acks handovers := by
  cases hr
  case move hm => exact h.move hm
  case take ht _ =>
    have h := h.replied (response?_settled ht)
    exact h.same (h.framed.same rfl) rfl rfl rfl
  case pong => exact h.same (h.framed.same rfl) rfl rfl rfl

-- A message arrives. The PUBACK for it, if it needs one, is queued before it is handed over.

theorem Acked.balance (ha : Acked packet (c.arrived reader (.publish packet)) c')
    (h : c.Balance packets acks handovers) :
    c'.Balance (packets ++ [packet]) (acks ++ packet.ackId.toList) handovers ∧
      (packet.qos = .atLeastOnce → packet.packetId ≠ none) := by
  have hd : (c.dispatched ++ [Packet.publish packet]).filterMap (·.publish?) =
      packets ++ [packet] := by
    rw [List.filterMap_append, h.dispatched]
    rfl
  have hf' : (c.arrived reader (.publish packet)).Framed := h.framed.same rfl
  cases ha
  case qos0 hq =>
    have hi : packet.ackId = none := by rw [PublishPacket.ackId, hq]; rfl
    rw [hi, Option.toList_none, List.append_nil]
    exact ⟨⟨hd, h.responses, h.events, h.enqueued, h.frames, h.requests, hf'⟩, by simp [hq]⟩
  case qos1 packetId bytes hq hi he hf =>
    have hl : bytes.length < 2 ^ 32 := Nat.lt_of_le_of_lt hf.le_max h.framed.max_lt
    have hp : ∀ frames, pubackIds (frames ++ [pubackFrame bytes]) =
        pubackIds frames ++ [packetId] := by
      intro frames
      simp [pubackIds, pubackFrame, PubAckPacket.pubackId_encoded he hl]
    rw [PublishPacket.ackId, if_pos hq, hi, Option.toList_some]
    refine ⟨⟨hd, h.responses, h.events, ?_, ?_, fun frame hm hr => ?_, hf'.push _ hf rfl⟩, nofun⟩
    case refine_1 => rw [← h.enqueued]; exact hp _
    case refine_2 => rw [← h.frames, frames_push]; exact hp _
    case refine_3 =>
      rcases List.mem_append.mp hm with hm | hm
      case inl => exact h.requests frame hm hr
      case inr =>
        rw [List.mem_singleton.mp hm] at hr
        exact absurd rfl hr

theorem Balance.event (h : c.Balance packets acks handovers) (packet) :
    (c.emit (.publish packet)).Balance packets acks (handovers ++ [.event packet]) := by
  refine ⟨h.dispatched, ?_, ?_, h.enqueued, h.frames, h.requests, h.framed.same rfl⟩
  case refine_1 =>
    rw [List.filterMap_append, ← h.responses]
    exact (List.append_nil _).symm
  case refine_2 =>
    rw [List.filterMap_append, ← h.events, emit, List.filterMap_append]
    rfl

theorem Balance.response (h : c.Balance packets acks handovers) (packet correlationData pending) :
    ((c.withoutRequest correlationData pending).reply pending.result
      (some (.ok (.response packet)))).Balance packets acks
        (handovers ++ [.response packet correlationData pending.result]) := by
  have h := h.withoutRequest correlationData pending
  refine ⟨h.dispatched, ?_, ?_, h.enqueued, h.frames, h.requests, h.framed.same rfl⟩
  case refine_1 =>
    rw [List.filterMap_append, ← h.responses, reply, List.filterMap_append]
    rfl
  case refine_2 =>
    rw [List.filterMap_append, ← h.events]
    exact (List.append_nil _).symm

theorem Outside.history (h : Outside c input c') : c'.history = c.history := by
  cases h <;> rfl

theorem closed_history (c : MqttConnection) : c.closed.history = c.history := by
  simp only [MqttConnection.history, closed, told, List.filterMap_append, response?_told,
    List.append_nil]

theorem Ends.history (h : Ends c c') : c'.history = c.history := by
  cases h
  case silent => exact closed_history c
  case event =>
    rw [← closed_history c]
    simp [MqttConnection.history, emit, Event.publish?]

end MqttConnection

-- Why a message was handed over in this way: it was the response to a pending request, or to none.
def Handover.Justified (c : MqttConnection) : Handover → Prop
  | response packet correlationData result =>
    ∃ pending, c.Responds packet correlationData pending ∧ pending.result = result
  | event packet => ∀ correlationData pending, ¬c.Responds packet correlationData pending

namespace Driver

open MqttConnection
open Relation (ReflTransGen)

-- What the driver has done with the messages it has received, up to the one that it failed at.
structure Accounts (driver : Driver) (handovers : List Handover) (failed : Option PublishPacket) :
    Prop where
  dispatched : driver.connection.dispatched.filterMap (·.publish?) =
    handovers.map (·.packet) ++ failed.toList
  responses : driver.connection.replies.filterMap Reply.response? =
    handovers.filterMap (·.response?)
  events : driver.connection.emitted.filterMap (·.publish?) = handovers.filterMap (·.event?)
  identified : ∀ handover ∈ handovers, handover.packet.qos = .atLeastOnce →
    handover.packet.packetId ≠ none
  enqueued : pubackIds driver.connection.enqueued = ackIds handovers ∨
    ∃ packet, failed = some packet ∧
      pubackIds driver.connection.enqueued = ackIds handovers ++ packet.ackId.toList
  sent : ∃ frames : List OutboundFrame, frames.Sublist driver.connection.enqueued ∧
    (∀ frame ∈ frames, Whole frame.bytes) ∧ pubackIds frames = ackIds handovers ∧
    driver.connection.wire <+: frames.flatMap (·.bytes)
  stopped : failed ≠ none →
    ∃ e, driver.phase = .stopping (.error e) ∨ driver.phase = .stopped (.error e)

def Identified (handovers : List Handover) : Prop :=
  ∀ handover ∈ handovers, handover.packet.qos = .atLeastOnce → handover.packet.packetId ≠ none

-- Nothing has failed so far.
def Tally (c : MqttConnection) (handovers : List Handover) : Prop :=
  c.Balance (handovers.map (·.packet)) (ackIds handovers) handovers ∧ Identified handovers

theorem Tally.accounts (h : Tally c handovers) (p) : Accounts ⟨c, p⟩ handovers none where
  dispatched := by rw [Option.toList_none, List.append_nil]; exact h.left.dispatched
  responses := h.left.responses
  events := h.left.events
  identified := h.right
  enqueued := .inl h.left.enqueued
  sent := ⟨c.frames, h.left.framed.ordered, h.left.framed.whole, h.left.frames,
    h.left.framed.wire_prefix⟩
  stopped := by simp

theorem Accounts.same {driver driver' : Driver} (h : Accounts driver handovers failed)
    (hh : driver'.connection.history = driver.connection.history)
    (hs : failed ≠ none →
      ∃ e, driver'.phase = .stopping (.error e) ∨ driver'.phase = .stopped (.error e)) :
    Accounts driver' handovers failed := by
  simp only [history, Prod.mk.injEq] at hh
  have ⟨hd, hr, he, hq, hw⟩ := hh
  exact {
    dispatched := by rw [hd, h.dispatched]
    responses := by rw [hr, h.responses]
    events := by rw [he, h.events]
    identified := h.identified
    enqueued := by rw [hq]; exact h.enqueued
    sent := by rw [hq, hw]; exact h.sent
    stopped := hs
  }

-- A driver that has stopped does nothing about messages any more.
theorem Accounts.stop {driver driver' : Driver} (h : Accounts driver handovers failed)
    (hr : driver.phase.running = false) (hd : Does driver input driver') :
    Accounts driver' handovers failed ∧ driver'.phase.running = false := by
  rcases hd.of_not_running hr with ⟨result, hp, hp', he⟩ | ⟨hp, ho⟩
  case inl =>
    refine ⟨h.same he.history fun hf => ?_, by rw [hp']; rfl⟩
    have ⟨e, he⟩ := h.stopped hf
    rw [hp] at he
    rcases he with he | he
    case inl => cases he; exact ⟨e, .inr hp'⟩
    case inr => cases he
  case inr => exact ⟨h.same ho.history (by rw [hp]; exact h.stopped), by rw [hp]; exact hr⟩

def Tallied (driver : Driver) (handovers : List Handover) (failed : Option PublishPacket) : Prop :=
  (failed = none ∧ Tally driver.connection handovers) ∨
    (driver.phase.running = false ∧ Accounts driver handovers failed)

theorem Tallied.accounts {driver : Driver} (h : Tallied driver handovers failed) :
    Accounts driver handovers failed := by
  rcases h with ⟨rfl, h⟩ | ⟨_, h⟩
  case inl => exact h.accounts driver.phase
  case inr => exact h

-- A step hands over at most one message.
inductive Extends (c : MqttConnection) (handovers : List Handover) : List Handover → Prop
  | same : Extends c handovers handovers
  | next (handover) : (c.dispatched.filterMap (·.publish?) = handovers.map (·.packet)) →
    (handover.Justified c) → Extends c handovers (handovers ++ [handover])

variable {c c' : MqttConnection}

theorem Tally.append (h : c.Balance (handovers.map (·.packet) ++ [handover.packet])
      (ackIds handovers ++ handover.packet.ackId.toList) (handovers ++ [handover]))
    (hi : Identified handovers)
    (hn : handover.packet.qos = .atLeastOnce → handover.packet.packetId ≠ none) :
    Tally c (handovers ++ [handover]) := by
  refine ⟨?_, fun handover' hm => ?_⟩
  case refine_1 =>
    have ha : ackIds (handovers ++ [handover]) =
        ackIds handovers ++ handover.packet.ackId.toList := by
      rw [ackIds, List.filterMap_append, ackIds]
      cases ha : handover.packet.ackId <;> simp [ha]
    rw [List.map_append, ha]
    exact h
  case refine_2 =>
    rcases List.mem_append.mp hm with hm | hm
    case inl => exact hi handover' hm
    case inr => rw [List.mem_singleton.mp hm]; exact hn

-- A message that cannot be handed over stops the driver before anything more is written.
theorem Tally.failed (h : Tally c handovers)
    (ha : c' = c.arrived reader (.publish packet) ∨
      Acked packet (c.arrived reader (.publish packet)) c') (e) :
    Accounts ⟨c', .stopping (.error e)⟩ handovers (some packet) := by
  have hs : ∀ c' : MqttConnection, c'.wire = c.wire → c.enqueued.Sublist c'.enqueued →
      ∃ frames : List OutboundFrame, frames.Sublist c'.enqueued ∧
        (∀ frame ∈ frames, Whole frame.bytes) ∧ pubackIds frames = ackIds handovers ∧
        c'.wire <+: frames.flatMap (·.bytes) := fun c' hw hq =>
    ⟨c.frames, h.left.framed.ordered.trans hq, h.left.framed.whole, h.left.frames,
      hw ▸ h.left.framed.wire_prefix⟩
  rcases ha with rfl | ha
  case inl =>
    refine ⟨?_, h.left.responses, h.left.events, h.right, .inl h.left.enqueued,
      hs _ rfl (.refl _), fun _ => ⟨e, .inl rfl⟩⟩
    change (c.dispatched ++ [Packet.publish packet]).filterMap (·.publish?) = _
    rw [List.filterMap_append, h.left.dispatched]
    rfl
  case inr =>
    have ⟨hb, _⟩ := ha.balance h.left
    refine ⟨hb.dispatched, hb.responses, hb.events, h.right, .inr ⟨packet, rfl, hb.enqueued⟩,
      hs _ ?_ ?_, fun _ => ⟨e, .inl rfl⟩⟩
    case refine_1 => cases ha <;> rfl
    case refine_2 => cases ha <;> simp [MqttConnection.push, arrived]

theorem tally_publish (h : Tally c handovers) (reader packet next) : ∃ handovers' failed,
    Extends c handovers handovers' ∧
      Tallied (perform (dispatchPublish packet) next (c.arrived reader (.publish packet)))
        handovers' failed := by
  have hr := dispatchPublish_handled (c.arrived reader (.publish packet)) packet
  cases hd : dispatchPublish packet (c.arrived reader (.publish packet)) <;> rw [hd] at hr
  case ok =>
    rw [perform_ok hd]
    cases hr
    case response c₁ correlationData pending ha hr =>
      have ⟨hb, hi⟩ := ha.balance h.left
      refine ⟨_, none, .next (.response packet correlationData pending.result)
        h.left.dispatched ⟨pending, ?_, rfl⟩, .inl ⟨rfl, ?_⟩⟩
      case refine_1 => cases ha <;> exact hr
      case refine_2 => exact Tally.append (hb.response packet correlationData pending) h.right hi
    case event c₁ ha hr =>
      have ⟨hb, hi⟩ := ha.balance h.left
      refine ⟨_, none, .next (.event packet) h.left.dispatched ?_, .inl ⟨rfl, ?_⟩⟩
      case refine_1 => cases ha <;> exact hr
      case refine_2 => exact Tally.append (hb.event packet) h.right hi
  case error e c₁ =>
    rw [perform_error hd]
    cases hr
    case error ha => exact ⟨handovers, some packet, .same, .inr ⟨rfl, h.failed ha e⟩⟩

theorem Tally.preserves {M : MqttConnection → MqttConnection → Prop} (h : Tally c handovers)
    (hc : ReflTransGen M c c') (hm : ∀ c c' packets acks, M c c' →
      c.Balance packets acks handovers → c'.Balance packets acks handovers) : Tally c' handovers :=
  ⟨hc.preserves (P := (Balance · _ _ handovers)) (fun c c' => hm c c' _ _) h.left, h.right⟩

theorem tally_arrived (h : Tally c handovers) (reader) (hp : packet.publish? = none) :
    Tally (c.arrived reader packet) handovers := by
  refine ⟨⟨?_, h.left.responses, h.left.events, h.left.enqueued, h.left.frames, h.left.requests,
    h.left.framed.same rfl⟩, h.right⟩
  rw [arrived, List.filterMap_append, h.left.dispatched]
  simp [hp]

theorem tally_arrives (h : Tally c handovers) (reader packet next) : ∃ handovers' failed,
    Extends c handovers handovers' ∧
      Tallied (perform (dispatchPacket packet) next (c.arrived reader packet)) handovers'
        failed := by
  cases hp : packet.publish?
  case some message =>
    cases packet <;> cases hp
    exact tally_publish h reader message _
  case none =>
    have h := tally_arrived h reader hp
    refine ⟨handovers, none, .same, ?_⟩
    rcases dispatchPacket_cases (c.arrived reader packet) packet with ⟨_, c', _, hc, he⟩ | hs
    case inl =>
      rw [perform_error hc]
      exact .inr ⟨rfl, (h.accounts .wait).same he.history (by simp)⟩
    case inr =>
      refine .inl ⟨rfl, ?_⟩
      rw [perform_connection]
      exact h.preserves (dispatchPacket_resolves hp hs) fun _ _ _ _ hr h => h.resolve hr

theorem tally_step {driver driver' : Driver} (h : Tally driver.connection handovers)
    (hd : Does driver input driver') : ∃ handovers' failed,
      Extends driver.connection handovers handovers' ∧ Tallied driver' handovers' failed := by
  replace hd := hd.happens
  cases hd
  case acts ha =>
    exact ⟨handovers, none, .same, .inl ⟨rfl, h.preserves ha fun _ _ _ _ ha h => h.act ha⟩⟩
  case arrives => exact tally_arrives h _ _ _
  case ends he =>
    exact ⟨handovers, none, .same, .inr ⟨rfl, (h.accounts .wait).same he.history (by simp)⟩⟩

theorem tallied_step {driver driver' : Driver} (h : Tallied driver handovers failed)
    (hd : Does driver input driver') : ∃ handovers' failed',
      Extends driver.connection handovers handovers' ∧ Tallied driver' handovers' failed' := by
  rcases h with ⟨_, h⟩ | ⟨hr, h⟩
  case inl => exact tally_step h hd
  case inr =>
    have ⟨h, hr⟩ := h.stop hr hd
    exact ⟨handovers, failed, .same, .inr ⟨hr, h⟩⟩

-- Each message was handed over as it was for a good reason at the time, in the order of arrival.
def Traced (driver : Driver) (inputs : List Input) (handovers : List Handover) : Prop :=
  ∀ before handover after, handovers = before ++ handover :: after →
    ∃ inputs' earlier, inputs' <+: inputs ∧ driver.run inputs' = some earlier ∧
      earlier.connection.dispatched.filterMap (·.publish?) = before.map (·.packet) ∧
      handover.Justified earlier.connection

theorem Traced.step {driver earlier : Driver} (h : Traced driver inputs handovers)
    (hr : driver.run inputs = some earlier)
    (he : Extends earlier.connection handovers handovers') (input) :
    Traced driver (inputs ++ [input]) handovers' := by
  have hold : Traced driver (inputs ++ [input]) handovers := by
    intro before handover after ha
    have ⟨inputs', earlier', hp, h⟩ := h before handover after ha
    exact ⟨inputs', earlier', hp.trans (List.prefix_append _ _), h⟩
  cases he
  case same => exact hold
  case next handover hd hj =>
    intro before handover' after ha
    rcases List.eq_nil_or_concat' after with rfl | ⟨after', last, rfl⟩
    case inl =>
      have ⟨hb, hl⟩ := List.append_inj' ha rfl
      cases hl
      exact ⟨inputs, earlier, List.prefix_append _ _, hr, hb ▸ hd, hj⟩
    case inr =>
      rw [← List.cons_append, ← List.append_assoc] at ha
      exact hold before handover' after' (List.append_inj' ha rfl).left

-- Every message that the driver has decoded was handed over to the one request that it is the
-- response to, or as an event if there is no such request, unless the driver has stopped at it. A
-- PUBACK is queued for each of the messages handed over that need one, in their order, and no byte
-- of any other PUBACK is ever sent.
theorem publishes_handled (options : ConnectOptions) (connack : ConnAckPacket) (clock : Clock)
    (inputs : List Input) (driver : Driver)
    (h : (start options connack clock).run inputs = some driver) :
    ∃ handovers failed, Accounts driver handovers failed ∧
      Traced (start options connack clock) inputs handovers := by
  have hq : ∃ handovers failed, Tallied driver handovers failed ∧
      Traced (start options connack clock) inputs handovers := by
    refine run_induction (P := fun inputs driver => ∃ handovers failed,
      Tallied driver handovers failed ∧ Traced _ inputs handovers) ?_ ?_ h
    case refine_1 =>
      have hf := framed_start options connack clock
      refine ⟨[], none, .inl ⟨rfl, ⟨rfl, rfl, rfl, rfl, rfl, nofun, hf⟩, nofun⟩, ?_⟩
      intro before handover after ha
      cases before <;> cases ha
    case refine_2 =>
      intro inputs earlier input next hr ⟨handovers, failed, ht, htr⟩ hd
      have ⟨handovers', failed', he, ht⟩ := tallied_step ht (step_does hd)
      exact ⟨handovers', failed', ht, htr.step hr he input⟩
  have ⟨handovers, failed, ht, htr⟩ := hq
  exact ⟨handovers, failed, ht.accounts, htr⟩

-- The broker sends a QoS 1 message with the packet identifier 7.
def oneMessage : List Input :=
  [.proceed, .proceed, .proceed, .proceed, .proceed,
    .read (.ok [0x32, 6, 0, 1, 97, 0, 7, 0]), .read (.error { kind := .wouldBlock }), .proceed]

theorem publishes_handled_oneMessage :
    ∃ driver, (start plainOptions plainConnack stillClock).run oneMessage = some driver ∧
      (driver.connection.emitted.filterMap (·.publish?)).map (·.packetId) = [some 7] ∧
      pubackIds driver.connection.enqueued = [7] ∧
      ∃ handovers failed, Accounts driver handovers failed ∧
        Traced (start plainOptions plainConnack stillClock) oneMessage handovers :=
  ⟨_, rfl, rfl, rfl, publishes_handled plainOptions plainConnack stillClock oneMessage _ rfl⟩

end Driver
end MqttWasi
