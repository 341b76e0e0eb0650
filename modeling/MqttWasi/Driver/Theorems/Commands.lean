import MqttWasi.Driver.Theorems.Steps

-- What becomes of a command.

namespace MqttWasi

-- A message that is not acknowledged, and a DISCONNECT, are done with as soon as they have been sent.
def Command.action? : Command → Option WrittenAction
  | publish _ _ options result =>
    if options.qos = .atMostOnce then some (.publishQos0 result) else none
  | disconnect result => some (.disconnect result)
  | subscribe .. | unsubscribe .. | request .. => none

namespace MqttConnection

open EStateM (Leads)
open Relation (ReflTransGen)

-- A command that is not a request is refused at once, or its result is kept together with a frame.
inductive Takes (command : Command) : MqttConnection → MqttConnection → Prop
  | refuse (e) : (¬e.IsRejection) → Takes command c (c.reply command.result (some (.error e)))
  | await : (command.action? = none) → (c.Awaits packetId entry command.result bytes) →
    Takes command c ((c.await packetId entry).push (ackedFrame command.result bytes))
  | queue : (command.action? = some (.publishQos0 command.result)) → (c.Queues packet bytes) →
    Takes command c (c.push (messageFrame command.result bytes))
  | disconnect : (command.action? = some (.disconnect command.result)) → (c.closing = false) →
    (c.HasRoom disconnectBytes) →
    Takes command c ({ c with closing := true }.push (disconnectFrame command.result))

-- The same up to bookkeeping of the driver.
def Accepts (command : Command) (c c' : MqttConnection) : Prop :=
  ∃ c₁, Quiet c c₁ ∧ Takes command c₁ c'

-- What is done for a request that waits to be published.
inductive Launch (responseTopic : String) : MqttConnection → MqttConnection → Prop
  | publish : Publish c c' → Launch responseTopic c c'
  | subscribe : (c.Subscribes responseTopic packetId entry bytes) →
    Launch responseTopic c (((c.await packetId entry).subscribing responseTopic).push
      (subscriptionFrame responseTopic bytes))

-- The driver admits a request.
structure Qualifies (c : MqttConnection) (request : RequestCommand) (c' : MqttConnection) : Prop where
  opened : c.closing = false
  uncancelled : request.correlationData ∉ c.requestLifecycle.cancelled
  valid : c.validateRequest request = .ok ()
  quiet : Quiet c c'

-- What becomes of a request: it is refused, its cancellation is noticed, or it is admitted. One that
-- cannot be started is withdrawn again.
inductive TakesUp (request : RequestCommand) (result : Sender) (c : MqttConnection) :
    MqttConnection → Prop
  | closing : (c.closing = true) →
    TakesUp request result c (c.reply result (some (.error .clientClosed)))
  | cancelled : (request.correlationData ∈ c.requestLifecycle.cancelled) →
    TakesUp request result c
      { c with
        requestLifecycle :=
          (c.requestLifecycle.consumeCancellation request.correlationData).2 }
  | refused (e) : (¬e.IsRejection) → (Quiet c c₁) →
    TakesUp request result c
      ((c₁.finished request.correlationData).reply result (some (.error e)))
  | started (deadline) : (c.Qualifies request c₁) →
    (ReflTransGen (Launch request.responseTopic)
      (c₁.admitted request.correlationData (request.pending result deadline)) c') →
    TakesUp request result c c'
  | withdrawn (e : Error) (deadline) : (c.Qualifies request c₁) →
    (Quiet (c₁.admitted request.correlationData (request.pending result deadline)) c₂) →
    TakesUp request result c
      ((c₂.withoutRequest request.correlationData (request.pending result deadline)).reply result
        (some (.error e)))

variable {c c' : MqttConnection}

theorem Takes.enter (h : Takes command c c') : Enter c c' := by
  cases h
  case refuse e he => exact .begin (.refuse command.result e he)
  case await ha => exact .begin (.await ha)
  case queue hq => exact .begin (.queue command.result hq)
  case disconnect hc hr => exact .disconnect command.result hc hr

theorem Quiet.begin (h : Quiet c c') : Begin c c' :=
  .publish (.quiet h)

theorem Accepts.enters (h : Accepts command c c') : ReflTransGen Enter c c' :=
  have ⟨_, hq, ht⟩ := h
  .head (.begin hq.begin) (.single ht.enter)

theorem Accepts.of_quiet (hq : Quiet c c₁) (h : Accepts command c₁ c') : Accepts command c c' :=
  have ⟨c₂, hq', ht⟩ := h
  ⟨c₂, hq.trans hq', ht⟩

theorem send_accepts (h : ¬e.IsRejection) :
    Accepts command c (send command.result (.error e) c).state :=
  ⟨c, .refl, .refuse e h⟩

theorem Quiet.carries (h : Quiet c c') (hc : c.Carries packetId kind bytes) :
    c'.Carries packetId kind bytes := by
  cases h
  cases hc
  case publish packet hi hq hv hl he => exact .publish packet hi hq hv hl he
  case subscribe hv he => exact .subscribe hv he
  case unsubscribe he => exact .unsubscribe he

theorem awaitAck_accepts (hd : command.action? = none) (hi : packetId ∉ c.pendingAcks)
    (hk : kind.result? = some command.result) (hc : c.Carries packetId kind bytes) : Accepts command c
      (awaitAck packetId kind timeoutLabel bytes (.command command.result) c).state := by
  rw [awaitAck]
  rcases insertPendingAck_cases (c := c) packetId kind timeoutLabel (.command command.result) with
    hn | ⟨c₁, entry, hq, hl, rfl, ho, hn⟩
  case inl =>
    rw [EStateM.bind_ok hn]
    dsimp only
    rw [hk]
    exact send_accepts nofun
  case inr =>
    rw [EStateM.bind_ok hn]
    refine .of_quiet hq ?_
    rw [← hq.pendingAcks] at hi
    rcases enqueue_cases (c := c₁.await packetId entry) bytes .none none (.command command.result)
      with ⟨e, he, hr⟩ | ⟨hr, he⟩
    case inl =>
      dsimp only
      rw [EStateM.bind_ok he]
      dsimp only
      rw [EStateM.bind_ok (removePendingAck_await hi entry)]
      dsimp only
      rw [hk]
      exact send_accepts hr
    case inr =>
      dsimp only
      rw [EStateM.bind_ok he]
      exact ⟨c₁, .refl, .await hd ⟨⟨hi, hl⟩, hk, ho, hq.carries hc, hr⟩⟩

-- An operation that needs a packet identifier.
theorem reserve_accepts {f : Except Error UInt16 → DriverM Unit}
    (he : ∀ e, f (.error e) = send command.result (.error e))
    (hf : ∀ c' packetId, Quiet c c' → packetId ∉ c'.pendingAcks →
      Accepts command c' (f (.ok packetId) c').state) :
    Accepts command c ((reservePacketId >>= f) c).state := by
  have ⟨r, c', h, hq, hr⟩ := reservePacketId_apply (c := c)
  rw [EStateM.bind_ok h]
  refine .of_quiet hq ?_
  cases r
  case error e =>
    rw [he]
    exact send_accepts (reservePacketId_error h)
  case ok packetId => exact hf c' packetId hq (hr packetId rfl)

theorem awaitWritten_cases (bytes action origin) :
    (∃ e, awaitWritten bytes action origin c = .ok false (failAction action e c).state ∧
      ¬e.IsRejection) ∨
    (c.HasRoom bytes ∧
      awaitWritten bytes action origin c =
        .ok true (c.push { bytes, action, requestCorrelation := none, origin })) := by
  rcases enqueueWithAction_cases (c := c) bytes action none origin with ⟨e, he, hr⟩ | ⟨hr, he⟩
  case inl =>
    refine .inl ⟨e, ?_, hr⟩
    rw [awaitWritten, EStateM.bind_ok he]
    cases action <;> rfl
  case inr => exact .inr ⟨hr, by rw [awaitWritten, EStateM.bind_ok he]; rfl⟩

theorem validateMessage_ok (h : c.validateMessage topic options = .ok u) :
    c.serverCapabilities.validatePublish options.qos options.retain = .ok () :=
  have ⟨_, _, hv⟩ := Except.bind_eq_ok.mp h
  hv

theorem Quiet.serverCapabilities (h : Quiet c c') : c'.serverCapabilities = c.serverCapabilities := by
  cases h; rfl

theorem beginPublish_accepts : Accepts (.publish topic payload options result) c
    (beginPublish topic payload options result c).state := by
  rw [beginPublish, EStateM.bind_ok (EStateM.get_apply _)]
  have hv : Accepting (c.validateMessage topic options) :=
    (Accepting.validateTopicName topic).bind fun _ => .validatePublish _ _ _
  cases h : c.validateMessage topic options <;> dsimp only
  case error e => exact send_accepts (hv e h)
  case ok =>
    have hv := validateMessage_ok h
    cases hq : options.qos <;> dsimp only
    case atMostOnce =>
      rw [beginPublish.beginQos0]
      cases he : (beginPublish.packet topic payload options none).encode <;> dsimp only
      case error e => exact send_accepts (Accepting.publish _ e he)
      case ok bytes =>
        rcases awaitWritten_cases (c := c) bytes (.publishQos0 result) (.command result) with
          ⟨e, hw, hr⟩ | ⟨hr, hw⟩
        case inl =>
          rw [EStateM.discard_ok hw]
          exact send_accepts hr
        case inr =>
          rw [EStateM.discard_ok hw]
          exact ⟨c, .refl, .queue (if_pos hq) ⟨rfl, hv, he, hr⟩⟩
    case atLeastOnce =>
      refine reserve_accepts (fun _ => rfl) fun c' packetId hs hi => ?_
      dsimp only
      cases he : (beginPublish.packet topic payload options (some packetId)).encode <;> dsimp only
      case error e => exact send_accepts (Accepting.publish _ e he)
      case ok bytes =>
        rw [EStateM.bind_ok (EStateM.get_apply _), EStateM.ite_apply]
        split
        case isTrue => exact send_accepts nofun
        case isFalse hl =>
          rw [← hs.serverCapabilities] at hv
          have hd : options.qos ≠ .atMostOnce := by simp [hq]
          exact awaitAck_accepts (if_neg hd) hi rfl (.publish _ rfl hq hv (Nat.lt_of_not_ge hl) he)

theorem beginSubscribe_accepts :
    Accepts (.subscribe filter qos result) c (beginSubscribe filter qos result c).state := by
  rw [beginSubscribe, EStateM.bind_ok (EStateM.get_apply _)]
  cases h : c.serverCapabilities.validateSubscriptionFilter filter <;> dsimp only
  case error e => exact send_accepts (Accepting.validateSubscriptionFilter _ _ e h)
  case ok =>
    refine reserve_accepts (fun _ => rfl) fun c' packetId hs hi => ?_
    dsimp only
    cases he : SubscribePacket.encode { packetId, filters := [(filter, qos)], properties := {} }
      <;> dsimp only
    case error e => exact send_accepts (Accepting.subscribe _ e he)
    case ok bytes =>
      rw [← hs.serverCapabilities] at h
      exact awaitAck_accepts rfl hi rfl (.subscribe h he)

theorem beginUnsubscribe_accepts :
    Accepts (.unsubscribe filter result) c (beginUnsubscribe filter result c).state := by
  rw [beginUnsubscribe]
  cases h : validateTopicFilter filter <;> dsimp only
  case error e => exact send_accepts (Accepting.validateTopicFilter _ e h)
  case ok =>
    refine reserve_accepts (fun _ => rfl) fun c' packetId _ hi => ?_
    dsimp only
    cases he : UnsubscribePacket.encode { packetId, filters := [filter], properties := {} }
      <;> dsimp only
    case error e => exact send_accepts (Accepting.unsubscribe _ e he)
    case ok bytes => exact awaitAck_accepts rfl hi rfl (.unsubscribe he)

theorem beginDisconnect_accepts (hc : c.closing = false) :
    Accepts (.disconnect result) c (beginDisconnect result c).state := by
  rw [beginDisconnect, EStateM.bind_ok (EStateM.modify_apply _ _), DisconnectPacket.encode_normal,
    EStateM.bind_ok (check_ok _ _)]
  rcases awaitWritten_cases (c := { c with closing := true }) disconnectBytes (.disconnect result)
    (.command result) with ⟨e, hw, hr⟩ | ⟨hr, hw⟩
  case inl =>
    rw [EStateM.bind_ok hw]
    have hs : { c with closing := false } = c := by rw [← hc]
    exact ⟨{ c with closing := false }, by rw [hs]; exact .refl, .refuse e hr⟩
  case inr =>
    rw [EStateM.bind_ok hw]
    exact ⟨c, .refl, .disconnect rfl hc hr⟩

theorem processCommand_accepts (h : ∀ request result, command ≠ .request request result) :
    Accepts command c (processCommand command c).state := by
  rw [processCommand.eq_def, EStateM.bind_ok (EStateM.get_apply _), EStateM.ite_apply]
  split
  case isTrue => exact send_accepts nofun
  case isFalse hc =>
    cases command
    case publish => exact beginPublish_accepts
    case subscribe => exact beginSubscribe_accepts
    case unsubscribe => exact beginUnsubscribe_accepts
    case disconnect => exact beginDisconnect_accepts (Bool.eq_false_of_not_eq_true hc)
    case request request result => exact absurd rfl (h request result)

-- When the driver is closing, every command is refused.
theorem processCommand_of_closing (h : c.closing = true) :
    processCommand command c = .ok () (c.reply command.result (some (.error .clientClosed))) := by
  rw [processCommand.eq_def, EStateM.bind_ok (EStateM.get_apply _), if_pos h]
  rfl

-- Requests.

theorem validateRequest_accepting : Accepting (c.validateRequest request) := by
  unfold validateRequest
  refine .guarded ?_ fun _ => (Accepting.validateTopicName _).bind fun _ =>
    (Accepting.validatePublish _ _ _).bind fun _ => .guarded ?_ fun _ => ?_
  case refine_3 => split <;> first | exact .error nofun | exact .ok _
  all_goals nofun

theorem Launch.begin (responseTopic) : ∀ c c', Launch responseTopic c c' → Begin c c'
  | _, _, .publish hp => .publish hp
  | _, _, .subscribe hs => .subscribe hs

theorem removeResponseSubscription_subscribing
    (h : c.responseSubscriptions.lookup responseTopic = none) :
    removeResponseSubscription responseTopic (c.subscribing responseTopic) = .ok () c := by
  have he : (c.subscribing responseTopic).responseSubscriptions.erase responseTopic =
      c.responseSubscriptions :=
    AList.erase_insert_of_notMem (AList.lookup_eq_none.mp h) _
  rw [removeResponseSubscription, EStateM.modify_apply, he]
  rfl

-- Failing to subscribe to the response topic leaves no trace of the attempt.
theorem subscribeForResponses_cases (h : c.responseSubscriptions.lookup responseTopic = none)
    (hb : c.responseSubscriptions.entries.length < c.maxPendingOperations) :
    (∃ e c', subscribeForResponses responseTopic c = .error e c' ∧ Quiet c c') ∨
      ∃ c₁ c', subscribeForResponses responseTopic c = .ok () c' ∧ Quiet c c₁ ∧
        Launch responseTopic c₁ c' := by
  rw [subscribeForResponses]
  have ⟨r, c₁, hr, hq, hi⟩ := reservePacketId_apply (c := c)
  rw [EStateM.bind_ok hr]
  cases r
  case error e => exact .inl ⟨e, c₁, rfl, hq⟩
  case ok packetId =>
    have hi := hi packetId rfl
    rw [EStateM.bind_ok (check_ok _ _)]
    cases he : SubscribePacket.encode
      { packetId, filters := [(responseTopic, .atLeastOnce)], properties := {} }
    case error e => exact .inl ⟨e, c₁, rfl, hq⟩
    case ok bytes =>
      rw [EStateM.bind_ok (check_ok _ _)]
      rcases insertPendingAck_cases (c := c₁) packetId (.responseSubscribe responseTopic)
        "request subscription acknowledgement" (.subscription responseTopic) with
        hn | ⟨c₂, entry, hq', hl, hk, ho, hn⟩
      case inl =>
        rw [EStateM.bind_ok hn]
        exact .inl ⟨_, c₁, rfl, hq⟩
      case inr =>
        rw [EStateM.bind_ok hn]
        rw [← hq'.pendingAcks] at hi
        have hq := hq.trans hq'
        have hc : check (Except.mapError (·.error) (.ok () : Except PendingInsertError Unit))
            (c₂.await packetId entry) = .ok () (c₂.await packetId entry) := rfl
        have hset : setResponseSubscription responseTopic .subscribing (c₂.await packetId entry) =
            .ok () ((c₂.await packetId entry).subscribing responseTopic) := rfl
        have ha : c₂.responseSubscriptions.lookup responseTopic = none := by cases hq; exact h
        have hb : c₂.responseSubscriptions.entries.length < c₂.maxPendingOperations := by
          cases hq; exact hb
        rw [EStateM.bind_ok hc, EStateM.bind_ok hset]
        rcases enqueue_cases (c := (c₂.await packetId entry).subscribing responseTopic) bytes .none
          none (.subscription responseTopic) with ⟨e, hw, _⟩ | ⟨hr, hw⟩
        case inl =>
          have hrm : removePendingAck packetId ((c₂.await packetId entry).subscribing responseTopic)
              = .ok (some entry) (c₂.subscribing responseTopic) :=
            removePendingAck_await (c := c₂.subscribing responseTopic) hi entry
          rw [EStateM.bind_ok hw]
          dsimp only
          rw [EStateM.bind_ok (EStateM.discard_ok hrm),
            EStateM.bind_ok (removeResponseSubscription_subscribing ha)]
          exact .inl ⟨e, c₂, rfl, hq⟩
        case inr =>
          rw [EStateM.bind_ok hw]
          exact .inr ⟨c₂, _, rfl, hq, .subscribe ⟨ha, hb, ⟨hi, hl⟩, hk, ho, he, hr⟩⟩

theorem startRequest_cases (c : MqttConnection) (correlationData responseTopic) :
    (∃ e c', startRequest correlationData responseTopic c = .error e c' ∧ Quiet c c') ∨
      ∃ c', startRequest correlationData responseTopic c = .ok () c' ∧
        ReflTransGen (Launch responseTopic) c c' := by
  rw [startRequest, EStateM.bind_ok (EStateM.get_apply _)]
  rcases hn : c.responseSubscriptions.lookup responseTopic with _ | _ | _ <;> dsimp only
  case some.ready =>
    have hp := @publishRequest_attempts c correlationData
    rcases hp with h | ⟨c', h, hp⟩
    case inl => exact .inl h
    case inr => exact .inr ⟨c', h, ReflTransGen.mono (fun _ _ => Launch.publish) _ _ hp⟩
  case some.subscribing => exact .inr ⟨c, rfl, .refl⟩
  case none =>
    rw [EStateM.ite_apply]
    split
    case isTrue => exact .inl ⟨_, c, rfl, .refl⟩
    case isFalse hb =>
      rcases subscribeForResponses_cases hn (Nat.lt_of_not_ge hb) with h | ⟨c₁, c', h, hq, hs⟩
      case inl => exact .inl h
      case inr => exact .inr ⟨c', h, .head (.publish (.quiet hq)) (.single hs)⟩

theorem validateRequest_ok (h : c.validateRequest request = .ok u) :
    request.correlationData ∉ c.pendingRequests := by
  intro hm
  unfold validateRequest at h
  simp only [hm, if_true] at h
  split at h
  case isTrue => cases h
  case isFalse =>
    have ⟨_, _, h⟩ := Except.bind_eq_ok.mp h
    have ⟨_, _, h⟩ := Except.bind_eq_ok.mp h
    split at h <;> cases h

theorem consumeCancellation_cases (c : MqttConnection) (correlationData : Bytes) :
    (correlationData ∈ c.requestLifecycle.cancelled ∧ consumeCancellation correlationData c =
      .ok true
        { c with
          requestLifecycle := (c.requestLifecycle.consumeCancellation correlationData).2 }) ∨
    (correlationData ∉ c.requestLifecycle.cancelled ∧ consumeCancellation correlationData c =
      .ok false c) := by
  by_cases h : correlationData ∈ c.requestLifecycle.cancelled
  case pos =>
    refine .inl ⟨h, ?_⟩
    rw [consumeCancellation, EStateM.bind_ok (EStateM.get_apply _)]
    simp only [RequestLifecycle.consumeCancellation, if_pos h]
    rfl
  case neg =>
    refine .inr ⟨h, ?_⟩
    rw [consumeCancellation, EStateM.bind_ok (EStateM.get_apply _)]
    simp only [RequestLifecycle.consumeCancellation, if_neg h]
    rfl

theorem Quiet.validateRequest (h : Quiet c c') (request : RequestCommand) :
    c'.validateRequest request = c.validateRequest request := by
  cases h; rfl

theorem beginRequest_cases (request result) (hc : c.closing = false) :
    (∃ c', beginRequest request result c = .ok () c' ∧ TakesUp request result c c') ∨
      ∃ e c₁ c₂ deadline, beginRequest request result c = .error e c₂ ∧ c.Qualifies request c₁ ∧
        Quiet (c₁.admitted request.correlationData (request.pending result deadline)) c₂ := by
  rw [beginRequest]
  rcases consumeCancellation_cases c request.correlationData with ⟨hm, h⟩ | ⟨hm, h⟩
  case inl =>
    rw [EStateM.bind_ok h]
    exact .inl ⟨_, rfl, .cancelled hm⟩
  case inr =>
    rw [EStateM.bind_ok h, EStateM.ite_apply, if_neg Bool.false_ne_true,
      EStateM.bind_ok (EStateM.get_apply _)]
    cases hv : c.validateRequest request <;> dsimp only
    case error e => exact .inl ⟨_, rfl, .refused e (validateRequest_accepting e hv) .refl⟩
    case ok =>
      have ⟨c₁, hn, hq⟩ := now_apply (c := c)
      rw [EStateM.bind_ok hn, EStateM.bind_ok (EStateM.get_apply _)]
      cases c₁.clock.checkedAdd c.clock.now request.timeout <;> dsimp only
      case none => exact .inl ⟨_, rfl, .refused _ nofun hq⟩
      case some deadline =>
        have hqual : c.Qualifies request c₁ := ⟨hc, hm, hv, hq⟩
        have ha : admitRequest request result deadline c₁ = .ok ()
          (c₁.admitted request.correlationData (request.pending result deadline)) := rfl
        rw [EStateM.bind_ok ha]
        rcases startRequest_cases
          (c₁.admitted request.correlationData (request.pending result deadline))
          request.correlationData request.responseTopic with ⟨e, c₂, hs, hq⟩ | ⟨c', hs, hm⟩
        case inl => exact .inr ⟨e, c₁, c₂, deadline, hs, hqual, hq⟩
        case inr => exact .inl ⟨c', hs, .started deadline hqual hm⟩

theorem processCommand_takesUp (c : MqttConnection) (request : RequestCommand) (result : Sender) :
    ∃ c', processCommand (.request request result) c = .ok () c' ∧ TakesUp request result c c' := by
  cases hc : c.closing
  case true => exact ⟨_, processCommand_of_closing hc, .closing hc⟩
  case false =>
    rw [processCommand.eq_def, EStateM.bind_ok (EStateM.get_apply _), if_neg (by simp [hc])]
    dsimp only
    rcases beginRequest_cases request result hc with
      ⟨c', hb, hr⟩ | ⟨e, c₁, c₂, deadline, hb, ha, hq⟩
    case inl =>
      have hb : attempt (beginRequest request result) c = .ok (.ok ()) c' := by rw [attempt, hb]
      rw [EStateM.bind_ok hb]
      exact ⟨c', rfl, hr⟩
    case inr =>
      have hb : attempt (beginRequest request result) c = .ok (.error e) c₂ := by rw [attempt, hb]
      have hl : c₂.pendingRequests.lookup request.correlationData =
          some (request.pending result deadline) := by
        rw [hq.pendingRequests]
        exact AList.lookup_insert _
      rw [EStateM.bind_ok hb]
      dsimp only
      rw [failRequest, EStateM.bind_ok (removeRequest_of_some hl)]
      exact ⟨_, rfl, .withdrawn e deadline ha hq⟩

theorem Qualifies.begins (h : c.Qualifies request c') (ht : Command.request request result ∈ c.taken)
    (deadline) : ReflTransGen Begin c
      (c'.admitted request.correlationData (request.pending result deadline)) := by
  have ht : Command.request request result ∈ c'.taken := by cases h.quiet; exact ht
  have hv := (h.quiet.validateRequest request).trans h.valid
  exact .head h.quiet.begin (.single (.register result deadline ht hv))

theorem TakesUp.begins (h : TakesUp request result c c')
    (ht : Command.request request result ∈ c.taken) : ReflTransGen Begin c c' := by
  cases h
  case closing => exact .single (.refuse result .clientClosed nofun)
  case cancelled => exact .single (.consume request.correlationData)
  case refused e hn hq =>
    exact .head hq.begin (.head (.finish request.correlationData) (.single (.refuse result e hn)))
  case started deadline ha hm =>
    exact (ha.begins ht deadline).trans (ReflTransGen.mono (Launch.begin _) _ _ hm)
  case withdrawn e deadline ha hq =>
    refine (ha.begins ht deadline).tail hq.begin |>.tail (.withdraw e ?_ rfl)
    rw [hq.pendingRequests]
    exact AList.lookup_insert _

theorem Begin.enter : ∀ c c', Begin c c' → Enter c c' :=
  fun _ _ => .begin

theorem processCommand_request (ht : Command.request request result ∈ c.taken) :
    Leads Begin c (processCommand (.request request result)) := by
  have ⟨c', hp, hr⟩ := processCommand_takesUp c request result
  rw [Leads, hp]
  exact hr.begins ht

theorem processCommand_enters (ht : command ∈ c.taken) : Leads Enter c (processCommand command) := by
  by_cases h : ∀ request result, command ≠ .request request result
  case pos => exact (processCommand_accepts h).enters
  case neg =>
    simp only [ne_eq, not_forall, not_not] at h
    obtain ⟨request, result, rfl⟩ := h
    exact (processCommand_request ht).mono Begin.enter

-- Once all handles are gone, the driver disconnects unless it already does, or fails.

theorem abandonCommands_of_closing (h : c.closing = true) : abandonCommands c = .ok () c.deserted := by
  rw [abandonCommands, EStateM.bind_ok (EStateM.modify_apply _ _), beginAbandonedDisconnect,
    EStateM.bind_ok (EStateM.get_apply _), if_pos (.inl h)]
  rfl

theorem abandonCommands_of_open (h : c.closing = false) :
    (∃ e, abandonCommands c = .error e { c.deserted with closing := true }) ∨
      (c.deserted.HasRoom disconnectBytes ∧
        abandonCommands c = .ok () ({ c.deserted with closing := true }.push abandonedDisconnect)) := by
  rw [abandonCommands, EStateM.bind_ok (EStateM.modify_apply _ _), beginAbandonedDisconnect,
    EStateM.bind_ok (EStateM.get_apply _), if_neg (by simp [h]),
    EStateM.bind_ok (EStateM.set_apply _ _), DisconnectPacket.encode_normal,
    EStateM.bind_ok (check_ok _ _)]
  rcases enqueue_cases (c := { c with commandChannelClosed := true, closing := true })
    disconnectBytes .abandonedDisconnect none .driver with ⟨e, he, _⟩ | ⟨hr, he⟩
  case inl =>
    rw [EStateM.bind_ok he]
    exact .inl ⟨e, rfl⟩
  case inr =>
    rw [EStateM.bind_ok he]
    exact .inr ⟨hr, rfl⟩

theorem abandonCommands_enters : Leads Enter c abandonCommands ∨
    ∃ e, abandonCommands c = .error e { c.deserted with closing := true } := by
  cases hc : c.closing
  case true =>
    refine .inl ?_
    rw [Leads, abandonCommands_of_closing hc]
    exact .single .desert
  case false =>
    rcases abandonCommands_of_open hc with ha | ⟨hf, ha⟩
    case inl => exact .inr ha
    case inr =>
      refine .inl ?_
      rw [Leads, ha]
      exact .head .desert (.single (.abandon hc hf))

-- Whether `maintain_keep_alive` is about to queue a PINGREQ.
def pings (c : MqttConnection) : Bool :=
  (keepAliveInterval c.keepAliveSecs).any fun interval =>
    c.pingOutstandingSince.isNone && c.pingDue c.clock.now interval

theorem enqueue_error (h : enqueue bytes action requestCorrelation origin c = .ok (.error e) c') :
    (∃ size limit, e = .packetTooLarge size limit) ∨ e = .queueFull "outbound bytes" := by
  rw [enqueue, enqueueWithAction, bind_assoc, EStateM.bind_ok (EStateM.get_apply _)] at h
  split at h
  case isTrue => cases h; exact .inl ⟨_, _, rfl⟩
  case isFalse =>
    split at h
    case isTrue => cases h; exact .inr rfl
    case isFalse => cases h

-- Nothing is due, an answer to a PINGREQ is overdue, a PINGREQ cannot be queued, or it is queued.
theorem servicePing_cases (now interval) :
    servicePing now interval c = .ok () c ∨
    (c.pingOutstandingSince ≠ none ∧ servicePing now interval c = .error .keepAliveTimeout c) ∨
    (∃ e, e ≠ .keepAliveTimeout ∧ servicePing now interval c = .error e c) ∨
    (c.pingOutstandingSince = none ∧ c.pingDue now interval = true ∧ c.HasRoom pingreqBytes ∧
      servicePing now interval c = .ok () { c.push pingFrame with pingQueued := true }) := by
  rw [servicePing, EStateM.bind_ok (EStateM.get_apply _)]
  cases hp : c.pingOutstandingSince <;> dsimp only
  case some sentAt =>
    rw [EStateM.ite_apply]
    split
    case isTrue => exact .inr (.inl ⟨nofun, rfl⟩)
    case isFalse => exact .inl rfl
  case none =>
    rw [EStateM.ite_apply]
    split
    case isFalse => exact .inl rfl
    case isTrue hd =>
      rcases enqueue_cases (c := c) pingreqBytes .pingReq none .driver with ⟨e, he, _⟩ | ⟨hr, he⟩
      case inl =>
        have hn : e ≠ .keepAliveTimeout := by
          rcases enqueue_error he with ⟨_, _, rfl⟩ | rfl <;> nofun
        rw [EStateM.bind_ok he]
        exact .inr (.inr (.inl ⟨e, hn, rfl⟩))
      case inr =>
        rw [EStateM.bind_ok he]
        exact .inr (.inr (.inr ⟨rfl, hd, hr, rfl⟩))

theorem maintainKeepAlive_cases :
    ((maintainKeepAlive c).value = .error .keepAliveTimeout → c.pingOutstandingSince ≠ none) ∧
    (Quiet c (maintainKeepAlive c).state ∨
      (c.pings = true ∧ ∃ c₁, Quiet c c₁ ∧ c₁.pingOutstandingSince = none ∧
        c₁.pingQueued = false ∧ c₁.HasRoom pingreqBytes ∧
        maintainKeepAlive c = .ok () { c₁.push pingFrame with pingQueued := true })) := by
  rw [maintainKeepAlive, EStateM.bind_ok (EStateM.get_apply _)]
  cases hi : keepAliveInterval c.keepAliveSecs <;> dsimp only
  case none => exact ⟨nofun, .inl .refl⟩
  case some interval =>
    have hn : now c = .ok c.clock.now { c with clock := c.clock.tick } := rfl
    have hq : Quiet c { c with clock := c.clock.tick } := .mk _ _ id
    rw [EStateM.bind_ok hn]
    rcases servicePing_cases (c := { c with clock := c.clock.tick }) c.clock.now interval with
      h | ⟨hp, h⟩ | ⟨e, he, h⟩ | ⟨hp, hd, hr, h⟩ <;> rw [h]
    case inl => exact ⟨nofun, .inl hq⟩
    case inr.inl => exact ⟨fun _ => hp, .inl hq⟩
    case inr.inr.inl => exact ⟨fun hf => absurd (Except.error.inj hf) he, .inl hq⟩
    case inr.inr.inr =>
      refine ⟨nofun, .inr ⟨?_, _, hq, hp, ?_, hr, rfl⟩⟩
      case refine_1 =>
        rw [pings, hi, Option.any_some, show c.pingOutstandingSince = none from hp]
        exact hd
      case refine_2 =>
        simp only [pingDue, Bool.and_eq_true, Bool.not_eq_true'] at hd
        exact hd.left

theorem maintainKeepAlive_begins : Leads Begin c maintainKeepAlive := by
  unfold Leads
  rcases (maintainKeepAlive_cases (c := c)).right with hq | ⟨_, c₁, hq, hp, hn, hr, h⟩
  case inl => exact .single hq.begin
  case inr =>
    rw [h]
    exact .head hq.begin (.single (.ping hp hn hr))

end MqttConnection
end MqttWasi
