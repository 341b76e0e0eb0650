import MqttWasi.Driver.Theorems.Moves

-- Every part of the driver makes only the moves that it should.

namespace MqttWasi.MqttConnection

open EStateM (Leads)
open Relation (ReflTransGen)

variable {c c' : MqttConnection}

@[simp]
theorem reply_none (c : MqttConnection) (result : Sender) : c.reply result none = c := by
  simp [reply]

theorem Leads.quiet {x : DriverM α} (h : Quiet c (x c).state) : Leads Shift c x :=
  .single (.quiet h)

-- Parts that add nothing to the queue.

theorem Shift.withoutRequest (h : c.pendingRequests.lookup correlationData = some pending) :
    Shift c (c.withoutRequest correlationData pending) := by
  have := Shift.remove none h
  rwa [Option.map_none, reply_none] at this

theorem removeRequest_shifts : Leads Shift c (removeRequest correlationData) := by
  unfold Leads
  cases h : c.pendingRequests.lookup correlationData
  case none => rw [removeRequest_of_none h]; exact .refl
  case some pending =>
    rw [removeRequest_of_some h]
    exact .single (.withoutRequest h)

theorem failRequest_shifts : Leads Shift c (failRequest correlationData e) := by
  unfold Leads
  rw [failRequest]
  cases h : c.pendingRequests.lookup correlationData
  case none => rw [EStateM.bind_ok (removeRequest_of_none h)]; exact .refl
  case some pending =>
    rw [EStateM.bind_ok (removeRequest_of_some h)]
    exact .single (.remove (some e) h)

theorem failRequestsForTopic_shifts : Leads Shift c (failRequestsForTopic responseTopic e) :=
  .get (.forM fun _ _ => failRequest_shifts)

theorem drainCancellations_shifts : Leads Shift c drainCancellations :=
  .get (.forM fun _ _ => .discard removeRequest_shifts)

-- An entry that nobody waits for is buried without a reply.
theorem Shift.bury_silent (h : c.pendingAcks.lookup packetId = some pending)
    (hn : ∀ responseTopic, pending.kind ≠ .responseSubscribe responseTopic)
    (hk : pending.kind.result? = none) :
    Shift c { c with pendingAcks := c.pendingAcks.adjust packetId PendingAck.bury } := by
  have := Shift.bury h hn
  simpa only [hk, Option.map_none, Option.toList_none, List.append_nil] using this

theorem expireAck_shifts : Leads Shift c (expireAck packetId) := by
  rw [expireAck]
  refine .get ?_
  split
  case h_1 => exact .pure _
  case h_2 pending h =>
    split
    case h_1 responseTopic hk => exact .head (.forget h hk) failRequestsForTopic_shifts
    case h_2 hk =>
      exact (Leads.set (.bury_silent h (by rw [hk]; nofun) (by rw [hk]; rfl))).bind_any
        fun _ _ => failRequest_shifts
    case h_3 hn _ =>
      have hb := Shift.bury h hn
      cases hr : pending.kind.result?
      case none => exact (Leads.set (.bury_silent h hn hr)).bind_any fun _ _ => .pure _
      case some result =>
        rw [hr] at hb
        exact .single hb

theorem expireRequest_shifts : Leads Shift c (expireRequest correlationData) :=
  .get (.ite (fun _ => .discard removeRequest_shifts) fun _ => failRequest_shifts)

theorem expireOperations_shifts : Leads Shift c expireOperations :=
  (Leads.quiet (.mk _ _ id)).bind_any fun _ _ =>
    (Leads.modify .sweep).bind_any fun _ _ =>
      .get <| (Leads.forM fun _ _ => expireAck_shifts).bind_any fun _ _ =>
        .get <| .forM fun _ _ => expireRequest_shifts

-- Parts that may publish requests.

theorem attempt_apply (x : DriverM α) (c : MqttConnection) :
    (attempt x c).state = (x c).state := by
  rw [attempt]
  cases x c <;> rfl

theorem Leads.attempt {M : MqttConnection → MqttConnection → Prop} {x : DriverM α}
    (h : Leads M c x) : Leads M c (attempt x) := by
  unfold Leads at h ⊢
  rwa [attempt_apply]

theorem requestPacketId_cases :
    (∃ e c', requestPacketId .atLeastOnce c = .error e c' ∧ Quiet c c') ∨
    ∃ packetId c', requestPacketId .atLeastOnce c = .ok (some packetId) c' ∧ Quiet c c' ∧
      packetId ∉ c'.pendingAcks ∧ c'.outgoingQos1Count < c'.peerReceiveMaximum.toNat := by
  simp only [requestPacketId]
  rw [EStateM.bind_ok (EStateM.get_apply _)]
  split
  case isTrue => exact .inl ⟨_, _, rfl, .refl⟩
  case isFalse hl =>
    have ⟨r, c', h, hq, hr⟩ := reservePacketId_apply (c := c)
    rw [EStateM.bind_ok h]
    cases r
    case error e => exact .inl ⟨e, c', rfl, hq⟩
    case ok packetId =>
      refine .inr ⟨packetId, c', rfl, hq, hr packetId rfl, ?_⟩
      cases hq
      exact Nat.lt_of_not_ge hl

-- Failing to publish a request leaves no trace of the attempt.
def Attempts (c : MqttConnection) (x : DriverM Unit) : Prop :=
  (∃ e c', x c = .error e c' ∧ Quiet c c') ∨ ∃ c', x c = .ok () c' ∧ ReflTransGen Publish c c'

theorem Attempts.leads {x : DriverM Unit} (h : c.Attempts x) : Leads Publish c x := by
  unfold Leads
  rcases h with ⟨e, c', h, hq⟩ | ⟨c', h, hp⟩
  case inl => rw [h]; exact .single (.quiet hq)
  case inr => rw [h]; exact hp

theorem Attempts.of_quiet {x : DriverM Unit} (hq : Quiet c c') (h : c'.Attempts x) :
    (∃ e c₁, x c' = .error e c₁ ∧ Quiet c c₁) ∨
      ∃ c₁, x c' = .ok () c₁ ∧ ReflTransGen Publish c c₁ := by
  rcases h with ⟨e, c₁, h, hq'⟩ | ⟨c₁, h, hp⟩
  case inl => exact .inl ⟨e, c₁, h, hq.trans hq'⟩
  case inr => exact .inr ⟨c₁, h, .head (.quiet hq) hp⟩

theorem queueRequest_qos0_attempts (h : c.pendingRequests.lookup correlationData = some pending)
    (hp : pending.published = false) (hq : pending.qos = .atMostOnce)
    (he : (requestPacket pending none).encode = .ok bytes) :
    c.Attempts (queueRequest correlationData pending.result none bytes) := by
  have ht : queueRequest.take correlationData pending.result none c = .ok () c := rfl
  unfold Attempts
  rw [queueRequest, EStateM.bind_ok ht]
  rcases enqueue_cases (c := c) bytes .none (some correlationData) (.request pending.result) with
    ⟨e, hw, _⟩ | ⟨hr, hw⟩
  case inl =>
    rw [EStateM.bind_ok hw]
    exact .inl ⟨e, c, rfl, .refl⟩
  case inr =>
    rw [EStateM.bind_ok hw]
    exact .inr ⟨_, rfl, .single (.qos0 ⟨h, hp, he, hr⟩)⟩

theorem queueRequest_qos1_attempts (h : c.pendingRequests.lookup correlationData = some pending)
    (hp : pending.published = false) (hq : pending.qos = .atLeastOnce)
    (hi : packetId ∉ c.pendingAcks) (hl : c.outgoingQos1Count < c.peerReceiveMaximum.toNat)
    (he : (requestPacket pending (some packetId)).encode = .ok bytes) :
    c.Attempts (queueRequest correlationData pending.result (some packetId) bytes) := by
  rcases insertPendingAck_cases (c := c) packetId (.requestPublish correlationData)
    "request publish acknowledgement" (.request pending.result) with
    hn | ⟨c₁, entry, hs, hb, hk, ho, hn⟩
  case inl =>
    have ht : queueRequest.take correlationData pending.result (some packetId) c =
        .error (.queueFull "pending operation") c := EStateM.bind_ok hn
    exact .inl ⟨_, c, EStateM.bind_error ht, .refl⟩
  case inr =>
    have ht : queueRequest.take correlationData pending.result (some packetId) c =
        .ok () (c₁.await packetId entry) := EStateM.bind_ok hn
    unfold Attempts
    rw [queueRequest, EStateM.bind_ok ht]
    rcases enqueue_cases (c := c₁.await packetId entry) bytes .none (some correlationData)
      (.request pending.result) with ⟨e, hw, _⟩ | ⟨hr, hw⟩
    case inl =>
      rw [← hs.pendingAcks] at hi
      have hg : queueRequest.giveBack (some packetId) (c₁.await packetId entry) = .ok () c₁ :=
        EStateM.discard_ok (removePendingAck_await hi entry)
      rw [EStateM.bind_ok hw]
      dsimp only
      rw [EStateM.bind_ok hg]
      exact .inl ⟨e, c₁, rfl, hs⟩
    case inr =>
      rw [EStateM.bind_ok hw]
      refine .inr ⟨_, rfl, .head (.quiet hs) (.single (.qos1 ⟨?_, hp, ?_, ?_, hk, ho, he, hr⟩))⟩
      case refine_1 => rw [hs.pendingRequests]; exact h
      case refine_2 => cases hs; exact hl
      case refine_3 => exact ⟨by rw [hs.pendingAcks]; exact hi, hb⟩

theorem publishRequest_attempts : c.Attempts (publishRequest correlationData) := by
  cases h : c.pendingRequests.lookup correlationData
  case none =>
    refine .inr ⟨c, ?_, .refl⟩
    rw [publishRequest, EStateM.bind_ok (EStateM.get_apply _), h]
    rfl
  case some pending =>
    by_cases hp : pending.published
    case pos =>
      refine .inr ⟨c, ?_, .refl⟩
      rw [publishRequest, EStateM.bind_ok (EStateM.get_apply _), h]
      simp only [hp, if_true]
      rfl
    case neg =>
      unfold Attempts
      rw [publishRequest, EStateM.bind_ok (EStateM.get_apply _), h]
      dsimp only
      rw [if_neg hp]
      have hp := Bool.eq_false_of_not_eq_true hp
      cases hq : pending.qos
      case atMostOnce =>
        have hn : requestPacketId .atMostOnce c = .ok none c := rfl
        rw [EStateM.bind_ok hn]
        cases he : (requestPacket pending none).encode
        case error e => exact .inl ⟨e, c, rfl, .refl⟩
        case ok bytes => exact queueRequest_qos0_attempts h hp hq he
      case atLeastOnce =>
        rcases requestPacketId_cases (c := c) with ⟨e, c', hr, hs⟩ | ⟨packetId, c', hr, hs, hi, hl⟩
        case inl => exact .inl ⟨e, c', EStateM.bind_error hr, hs⟩
        case inr =>
          rw [EStateM.bind_ok hr]
          rw [← hs.pendingRequests] at h
          cases he : (requestPacket pending (some packetId)).encode
          case error e => exact .inl ⟨e, c', rfl, hs⟩
          case ok bytes => exact (queueRequest_qos1_attempts h hp hq hi hl he).of_quiet hs

theorem publishWaitingRequests_moves : Leads Move c (publishWaitingRequests responseTopic) := by
  rw [publishWaitingRequests]
  refine .get (.forM fun correlationData c => ?_)
  refine (Leads.attempt (publishRequest_attempts.leads.mono Publish.move)).bind_any fun r c => ?_
  cases r
  case error e => exact failRequest_shifts.mono Shift.move
  case ok => exact .pure _

end MqttWasi.MqttConnection
