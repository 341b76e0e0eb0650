import MqttWasi.Driver.Theorems.Exchange

-- How many QoS 1 messages the broker may have to keep track of.

namespace MqttWasi

namespace MqttConnection

open Relation (ReflTransGen)

variable {c c' : MqttConnection} {K : AckClass → Bool}

def publishes (k : AckClass) : Bool :=
  k = .publish

-- A frame is only queued if the broker allows for it.
inductive Admits (K : AckClass → Bool) (c c' : MqttConnection) : Prop
  | less : ((c'.inFlight K).Sublist (c.inFlight K)) → Admits K c c'
  | more : (c'.inFlight K = c.inFlight K ++ [frame]) →
    (frame.asks K = true) → (expectedAck frame.bytes = some (k, packetId)) →
    (k = .publish → c.outgoingQos1Count < c.peerReceiveMaximum.toNat) → Admits K c c'

theorem Admits.same (h : c'.traffic = c.traffic) : Admits K c c' := by
  refine .less ?_
  rw [(inFlight_congr h).right.right]

theorem Admits.push (frame) (hi : c'.inFlight K = (c.push frame).inFlight K)
    (ha : expectedAck frame.bytes = some (k, packetId))
    (hq : k = .publish → c.outgoingQos1Count < c.peerReceiveMaximum.toNat) : Admits K c c' := by
  rw [inFlight_push] at hi
  split at hi
  case isTrue h => exact .more hi h ha hq
  case isFalse h =>
    refine .less ?_
    rw [hi, List.append_nil]

theorem Admits.plain (frame) (hi : c'.inFlight K = (c.push frame).inFlight K)
    (ha : expectedAck frame.bytes = none) : Admits K c c' := by
  refine .less ?_
  rw [hi, inFlight_push, OutboundFrame.asks_of_none ha]
  simp

theorem Carries.quota (h : c.Carries packetId kind bytes) (hk : kind.ackClass = .publish) :
    c.outgoingQos1Count < c.peerReceiveMaximum.toNat := by
  cases h
  case publish hq _ => exact hq
  case subscribe => cases hk
  case unsubscribe => cases hk

theorem inFlight_withoutRequest (correlationData pending) :
    ((c.withoutRequest correlationData pending).inFlight K).Sublist (c.inFlight K) := by
  unfold withoutRequest
  cases pending.publishPacketId <;> exact inFlight_unqueued correlationData

theorem Ledger.admits (h : Ledger c c') (ho : c.Orderly K) : Admits K c c' := by
  cases h
  case remove => exact .less (inFlight_withoutRequest _ _)
  case publish packetId entry correlationData pending bytes hp =>
    exact .push (pending.frame correlationData bytes) rfl (ho.asks hp.fits) fun _ => hp.quota
  case publishQos0 correlationData pending bytes hp =>
    exact .plain (pending.frame correlationData bytes) rfl (ho.asks hp.fits)
  case await packetId entry result bytes ha =>
    exact .push (ackedFrame result bytes) rfl (ho.asks ha.fits) ha.carries.quota
  case subscribe packetId entry responseTopic bytes hs =>
    exact .push (subscriptionFrame responseTopic bytes) rfl (ho.asks hs.fits) nofun
  case plain frame _ _ hf => exact .plain frame rfl (ho.asks hf)
  case write hb hw =>
    refine .less ?_
    rw [(hw.inFlight hb ho.matched).right]
  all_goals exact .same rfl

theorem Held.isQos1Publish (h : c.Held .publish packetId origin) :
    ∃ entry, c.pendingAcks.lookup packetId = some entry ∧ entry.kind.isQos1Publish = true := by
  have ⟨entry, hl, _, hk⟩ := h
  refine ⟨entry, hl, ?_⟩
  rcases hk with hk | hk
  case inl => exact hk.right rfl
  case inr => rw [hk]; rfl

-- Every message in flight has an entry of its own that counts.
theorem Orderly.length_le (h : c.Orderly publishes) :
    (c.inFlight publishes).length ≤ c.outgoingQos1Count := by
  have hs : (c.inFlight publishes).filterMap (·.askedId) ⊆
      (c.pendingAcks.entries.filter (·.snd.kind.isQos1Publish)).map (·.fst) := by
    intro packetId hm
    have ⟨frame, hm, hi⟩ := List.mem_filterMap.mp hm
    have ⟨k, packetId', he, hk⟩ := OutboundFrame.exists_of_asks (asks_of_mem_inFlight hm)
    rw [OutboundFrame.askedId_eq he, Option.some.injEq] at hi
    rw [of_decide_eq_true hk, hi] at he
    have ⟨entry, hl, hq⟩ := (h.held frame hm _ _ he).isQos1Publish
    exact List.mem_map.mpr ⟨⟨packetId, entry⟩,
      List.mem_filter.mpr ⟨AList.mem_lookup_iff.mp hl, hq⟩, rfl⟩
  have hl : ((c.inFlight publishes).filterMap (·.askedId)).length =
      (c.inFlight publishes).length := by
    rw [List.length_filterMap_eq_countP, List.countP_eq_length]
    intro frame hm
    have ⟨_, _, he, _⟩ := OutboundFrame.exists_of_asks (asks_of_mem_inFlight hm)
    rw [OutboundFrame.askedId_eq he]
    rfl
  have hc := (List.subperm_of_subset h.nodup hs).length_le
  rw [hl, List.length_map, ← List.countP_eq_length_filter] at hc
  rw [outgoingQos1Count, AList.values, List.countP_map]
  exact hc

structure Moderate (c : MqttConnection) : Prop where
  orderly : c.Orderly publishes
  bound : (c.inFlight publishes).length ≤ c.peerReceiveMaximum.toNat

theorem Ledger.limits (h : Ledger c c') : c'.limits = c.limits := by
  cases h
  case remove => exact congrArg (·.1) (aside_withoutRequest c _ _)
  case write hw => exact congrArg (·.1) hw.aside
  all_goals rfl

theorem Moderate.step (h : c.Moderate) (hs : Ledger c c') : c'.Moderate := by
  have hl : c'.peerReceiveMaximum = c.peerReceiveMaximum := congrArg (·.2.1) hs.limits
  refine ⟨h.orderly.step rfl hs, ?_⟩
  rw [hl]
  cases hs.admits h.orderly
  case less hs => exact hs.length_le.trans h.bound
  case more frame k packetId hi hk ha hq =>
    have hk : k = .publish := by
      rw [OutboundFrame.asks_eq _ ha] at hk
      exact of_decide_eq_true hk
    have hc := h.orderly.length_le
    have hq := hq hk
    rw [hi, List.length_append, List.length_singleton]
    omega

theorem Moderate.arrived (h : c.Moderate) (hn : packet.acknowledges = none) (reader) :
    (c.arrived reader packet).Moderate where
  orderly := h.orderly.arrived (by rw [hn]; rfl) reader
  bound := (inFlight_arrived_sublist packet reader).length_le.trans h.bound

theorem Receipt.limits (h : Receipt packet k packetId c c') : c'.limits = c.limits := by
  cases h <;> rfl

theorem Moderate.receipt (h : c.Moderate) (ha : packet.acknowledges = some (k, packetId))
    (hb : c.Answers publishes packet)
    (hr : Receipt packet k packetId (c.arrived reader packet) c') : c'.Moderate where
  orderly := h.orderly.receipt rfl ha hb hr
  bound := by
    have hl : c'.peerReceiveMaximum = c.peerReceiveMaximum := congrArg (·.2.1) hr.limits
    rw [hr.inFlight, hl]
    exact (inFlight_arrived_sublist packet reader).length_le.trans h.bound

-- Once the connection has ended, only the number remains.
def WithinQuota (c : MqttConnection) : Prop :=
  (c.inFlight publishes).length ≤ c.peerReceiveMaximum.toNat

theorem Ends.withinQuota (he : Ends c c') (h : c.WithinQuota) : c'.WithinQuota := by
  have hl : c'.peerReceiveMaximum = c.peerReceiveMaximum := by cases he <;> rfl
  rw [WithinQuota, hl]
  exact he.inFlight.length_le.trans h

theorem Outside.withinQuota (ho : Outside c input c') (h : c.WithinQuota) : c'.WithinQuota := by
  have hl : c'.peerReceiveMaximum = c.peerReceiveMaximum := congrArg (·.1.2.1) ho.aside
  rw [WithinQuota, hl, ho.inFlight]
  exact h

end MqttConnection

namespace Driver

open MqttConnection

-- The QoS 1 messages that are queued or written and not acknowledged never exceed what the broker is
-- ready to receive, whatever has become of those who sent them.
theorem receive_maximum_respected (options : ConnectOptions) (connack : ConnAckPacket)
    (clock : Clock) (inputs : List Input) (driver : Driver)
    (h : (start options connack clock).run inputs = some driver)
    (hb : (start options connack clock).AnswersFrames publishes inputs) :
    driver.connection.WithinQuota := by
  have hm : (start options connack clock).connection.Moderate :=
    ⟨orderly_start options connack clock publishes, Nat.zero_le _⟩
  have := run_ledger (P := Moderate) (Q := WithinQuota) (fun _ _ hs h => h.step hs)
    (fun _ _ reader hn h => h.arrived hn reader)
    (fun _ _ packet _ _ _ ha hd hc h hr => h.receipt ha (hc packet hd) hr)
    (fun _ _ he h => he.withinQuota (h.elim (·.bound) id)) (fun _ _ _ ho h => ho.withinQuota h)
    hm hb h
  exact this.elim (·.bound) And.right

-- The broker allows for one message at a time. The second one is refused as long as the first one has
-- not been acknowledged.

def quotaConnack : ConnAckPacket :=
  { sessionPresent := false, reasonCode := 0
    properties := { entries := [(.receiveMaximum, .u16 1)] } }

def twoMessages : List Input :=
  [.submit (.publish "a" [] { qos := .atLeastOnce } 0),
    .submit (.publish "a" [] { qos := .atLeastOnce } 1), .proceed, .proceed, .proceed, .proceed,
    .proceed, .written (.ok 8), .proceed, .flushed (.ok ()), .read (.ok [0x40, 2, 0, 1]),
    .read (.error { kind := .wouldBlock }), .proceed]

theorem receive_maximum_respected_twoMessages :
    ∃ driver, (start plainOptions quotaConnack stillClock).run twoMessages = some driver ∧
      driver.connection.replies.map (·.1) = [1, 0] ∧ driver.connection.WithinQuota := by
  have ⟨driver, hr, he⟩ := exists_run (start plainOptions quotaConnack stillClock) twoMessages
    (fun driver => driver.connection.replies.map (·.1) = [1, 0]) (by decide +kernel)
  refine ⟨driver, hr, he,
    receive_maximum_respected plainOptions quotaConnack stillClock twoMessages driver hr ?_⟩
  unfold AnswersFrames
  decide +kernel

end Driver
end MqttWasi
