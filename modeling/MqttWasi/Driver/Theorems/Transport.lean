import MqttWasi.Driver.Theorems.Commands
import MqttWasi.Driver.Theorems.Dispatch

-- What the calls of the transport lead to, and what a step of the driver is.

namespace MqttWasi

-- What somebody is told when a frame has been written and flushed.
def WrittenAction.reply? : WrittenAction → Option (Sender × Reply)
  | .publishQos0 result =>
    some (result, .ok (.publish { packetId := Option.none, reasonCode := Option.none }))
  | .disconnect result => some (result, .ok .disconnect)
  | .none | .pingReq | .abandonedDisconnect => Option.none

namespace MqttConnection

open EStateM (Leads)
open Relation (ReflTransGen)

-- The end of the connection is announced, provided that there is room for the event.
inductive Announce (reason : DisconnectReason) (c : MqttConnection) : MqttConnection → Prop
  | silent : Announce reason c { c with terminalEventSent := true }
  | event : Announce reason c { c.emit (.disconnected reason) with terminalEventSent := true }

-- What `complete_written` does.
inductive Performs : WrittenAction → MqttConnection → MqttConnection → Prop
  | none : Performs .none c c
  | publishQos0 : Performs (.publishQos0 result) c
    (c.reply result (some (.ok (.publish { packetId := .none, reasonCode := .none }))))
  | pingReq (clock sentAt) :
    Performs .pingReq c { c with clock, pingQueued := false, pingOutstandingSince := some sentAt }
  | disconnect : (Announce .clientInitiated (c.reply result (some (.ok .disconnect))) c') →
    Performs (.disconnect result) c c'
  | abandonedDisconnect : Performs .abandonedDisconnect c c

-- A frame has been flushed and its bytes do not count any more.
def dropFlush (c : MqttConnection) (flush : PendingFlush) (rest : List PendingFlush) :
    MqttConnection :=
  { c with flushActions := rest, outboundBytes := c.outboundBytes - flush.bytes }

-- All that a flush can lead to.
inductive Flush : MqttConnection → MqttConnection → Prop
  | accept : Flush c { c with needsFlush := false }
  | complete : (c.flushActions = flush :: rest) → (Performs flush.action (c.dropFlush flush rest) c') →
    Flush c c'

-- What a write leads to if `frame` is in front of the queue.
inductive Write (frame : OutboundFrame) (rest : List OutboundFrame) (c : MqttConnection) :
    MqttConnection → Prop
  | none : Write frame rest c c
  | part (lastWriteAt clock) : (0 < n) → (frame.offset + n < frame.bytes.length) →
    Write frame rest c
      { c with
        lastWriteAt, clock, needsFlush := true
        outbound := { frame with offset := frame.offset + n } :: rest
        wire := c.wire ++ (frame.bytes.drop frame.offset).take n }
  | whole (lastWriteAt clock) : (0 < n) → (frame.offset + n = frame.bytes.length) →
    Write frame rest c
      { c with
        lastWriteAt, clock, needsFlush := true
        outbound := rest
        written := c.written ++ [{ frame with offset := frame.offset + n }]
        wire := c.wire ++ (frame.bytes.drop frame.offset).take n
        flushActions := c.flushActions ++
          [{ bytes := frame.bytes.length, action := frame.action }] }

-- All that a read can lead to.
inductive Receives (result : Except IoError Bytes) (c : MqttConnection) : MqttConnection → Prop
  | idle : Receives result c c
  | close : Announce .transportClosed c c' → Receives result c c'
  | receive (bytes) : (result = .ok bytes) →
    Receives result c
      { c with
        frameReader := c.frameReader.push bytes, received := c.received ++ bytes }

variable {c c' : MqttConnection}

theorem announce_bind (c : MqttConnection) (reason) (f : PUnit → DriverM α) : ∃ c',
    Announce reason c c' ∧ (discard (trySend (.disconnected reason)) >>= fun _ =>
      modify ({ · with terminalEventSent := true }) >>= f) c = f ⟨⟩ c' := by
  rcases trySend_cases (c := c) (.disconnected reason) with ⟨e, ht⟩ | ht
  case inl => exact ⟨_, .silent, by rw [EStateM.bind_ok (EStateM.discard_ok ht)]; rfl⟩
  case inr => exact ⟨_, .event, by rw [EStateM.bind_ok (EStateM.discard_ok ht)]; rfl⟩

theorem completeWritten_performs (c : MqttConnection) (action) :
    ∃ c', completeWritten action c = .ok () c' ∧ Performs action c c' := by
  cases action
  case none => exact ⟨_, rfl, .none⟩
  case publishQos0 result => exact ⟨_, rfl, .publishQos0⟩
  case pingReq => exact ⟨_, rfl, .pingReq ..⟩
  case disconnect result =>
    have ⟨c', ha, he⟩ := announce_bind (c.reply result (some (.ok .disconnect))) .clientInitiated pure
    rw [bind_pure] at he
    exact ⟨c', he, .disconnect ha⟩
  case abandonedDisconnect => exact ⟨_, rfl, .abandonedDisconnect⟩

theorem Performs.flushActions (h : Performs action c c') : c'.flushActions = c.flushActions := by
  cases h
  case disconnect ha => cases ha <;> rfl
  all_goals rfl

theorem complete_flushes (h : c.flushActions = flushes) :
    Leads Flush c (flushAccepted.complete flushes) := by
  induction flushes generalizing c
  case nil => exact .pure _
  case cons flush rest ih =>
    have ⟨c', hc, hp⟩ := completeWritten_performs (c.dropFlush flush rest) flush.action
    unfold Leads
    rw [flushAccepted.complete, EStateM.bind_ok (EStateM.modify_apply _ _)]
    change ReflTransGen Flush c ((completeWritten flush.action >>= fun _ =>
      flushAccepted.complete rest) (c.dropFlush flush rest)).state
    rw [EStateM.bind_ok hc]
    exact .head (.complete h hp) (ih hp.flushActions)

theorem flushAccepted_flushes : Leads Flush c (flushAccepted result) := by
  rw [flushAccepted.eq_def]
  split
  case h_1 =>
    refine (Leads.modify .accept).bind_any fun _ c => .get ?_
    exact (complete_flushes rfl).bind_any fun _ _ => .pure _
  case h_2 => exact .ite (fun _ => .pure _) fun _ => .throw _

theorem writeFront_writes (c : MqttConnection) (frame rest result) :
    Write frame rest c (writeFront frame rest result c).state := by
  rw [writeFront.eq_def]
  split
  case h_1 => exact .none
  case h_2 n hn =>
    rw [EStateM.ite_apply]
    split
    case isTrue => exact .none
    case isFalse hl =>
      have hn : 0 < n := Nat.pos_of_ne_zero fun h0 => hn (by rw [h0])
      rw [EStateM.bind_ok (show now c = .ok c.clock.now { c with clock := c.clock.tick } from rfl),
        EStateM.bind_ok (EStateM.modify_apply _ _)]
      dsimp only
      split
      case isTrue hw => exact .whole _ _ hn hw
      case isFalse hw => exact .part _ _ hn (by omega)
  case h_3 e =>
    rw [EStateM.ite_apply]
    split
    case isTrue => exact .none
    case isFalse =>
      rw [EStateM.ite_apply]
      split <;> exact .none

-- At the end of the stream.
theorem readNext_end (c : MqttConnection) : ∃ c', readNext (.ok []) c = .error .connectionClosed c' ∧
    Announce .transportClosed c c' := by
  have ⟨c', ha, he⟩ := announce_bind c .transportClosed
    fun _ => (throw .connectionClosed : DriverM Bool)
  exact ⟨c', he, ha⟩

theorem readNext_wouldBlock {e : IoError} (h : e.kind = .wouldBlock) (c : MqttConnection) :
    readNext (.error e) c = .ok false c := by
  simp only [readNext, h, if_true]
  rfl

theorem readNext_cases (result) :
    (∃ e, readNext result c = .error e c) ∨ (∃ again, readNext result c = .ok again c) ∨
    (∃ c', readNext result c = .error .connectionClosed c' ∧ Announce .transportClosed c c') ∨
    ∃ bytes, result = .ok bytes ∧ readNext result c = .ok true
      { c with
        frameReader := c.frameReader.push bytes, received := c.received ++ bytes } := by
  rw [readNext.eq_def]
  split
  case h_1 => exact .inr (.inr (.inl (readNext_end c)))
  case h_2 bytes hb => exact .inr (.inr (.inr ⟨bytes, rfl, rfl⟩))
  case h_3 e =>
    rw [EStateM.ite_apply]
    split
    case isTrue => exact .inr (.inl ⟨true, rfl⟩)
    case isFalse =>
      rw [EStateM.ite_apply]
      split
      case isTrue => exact .inr (.inl ⟨false, rfl⟩)
      case isFalse => exact .inl ⟨_, rfl⟩

theorem readNext_receives (result) : Receives result c (readNext result c).state := by
  rcases readNext_cases (c := c) result with
    ⟨e, hr⟩ | ⟨again, hr⟩ | ⟨c', hr, ha⟩ | ⟨bytes, hb, hr⟩ <;> rw [hr]
  case inl => exact .idle
  case inr.inl => exact .idle
  case inr.inr.inl => exact .close ha
  case inr.inr.inr => exact .receive bytes hb

end MqttConnection
end MqttWasi
