import MqttWasi.Driver.Theorems.Quota
import MqttWasi.Driver.Theorems.ResponseTopics

-- The subscriptions that the broker holds, and those that the driver takes it to hold.

namespace MqttWasi

-- Whether the broker has done what a SUBSCRIBE or an UNSUBSCRIBE of one topic filter asked for.
def Packet.granted? : Packet → Option Bool
  | .subAck ack   => some (success ack.reasonCodes)
  | .unsubAck ack => some (success ack.reasonCodes)
  | _             => none
where
  success : Bytes → Bool
    | [reasonCode] => reasonCode < 0x80
    | _            => false

-- What a frame that the broker has processed makes of its subscription to a topic filter.
def OutboundFrame.process (filter : String) (held : Bool) : OutboundFrame × Bool → Bool
  | (frame, granted) =>
    if granted ∧ topicFilter frame.bytes = some filter then
      frame.asks (· = .subscribe)
    else
      held

namespace MqttConnection

open Answering (InOrder)
open Relation (ReflTransGen)

def grants (c : MqttConnection) : List Bool :=
  c.dispatched.filterMap (·.granted?)

-- Whether the broker holds a subscription after the frames that it has acknowledged. It processes
-- the frames in the order in which they were written, and acknowledges them in this order.
def holds (c : MqttConnection) (filter : String) : Bool :=
  ((c.sent subscribes).zip c.grants).foldl (OutboundFrame.process filter) false

-- Whether it holds a subscription if it has processed further frames, with these outcomes, and its
-- acknowledgements are still on their way.
def holdsAfter (c : MqttConnection) (further : List Bool) (filter : String) : Bool :=
  ((c.sent subscribes).zip (c.grants ++ further)).foldl (OutboundFrame.process filter) false

-- The driver takes the broker to hold a subscription.
def Ready (c : MqttConnection) (filter : String) : Prop :=
  c.responseSubscriptions.lookup filter = some .ready

structure Reflected (c : MqttConnection) : Prop where
  orderly : c.Orderly fun _ => true
  inOrder : InOrder OutboundFrame.answeredBy (c.sent subscribes) (c.acks subscribes)
  entries : ∀ packetId pending responseTopic, c.pendingAcks.lookup packetId = some pending →
    pending.kind = .responseSubscribe responseTopic → pending.origin = .subscription responseTopic
  frames : ∀ frame ∈ c.inFlight fun _ => true, ∀ responseTopic,
    frame.origin = .subscription responseTopic → topicFilter frame.bytes = some responseTopic
  ready : ∀ filter, c.Ready filter → c.holds filter = true

variable {c c' : MqttConnection} {K : AckClass → Bool}

theorem length_grants : c.grants.length = (c.acks subscribes).length := by
  rw [grants, acks]
  induction c.dispatched
  case nil => rfl
  case cons packet packets ih =>
    cases packet
    case subAck => simpa [Packet.granted?, Packet.acknowledges, subscribes] using ih
    case unsubAck => simpa [Packet.granted?, Packet.acknowledges, subscribes] using ih
    case pubAck =>
      simpa [List.filterMap_cons, Packet.granted?, Packet.acknowledges, subscribes] using ih
    all_goals exact ih

-- What the broker holds does not depend on what it has not acknowledged.
theorem holds_append (h : InOrder OutboundFrame.answeredBy (c.sent subscribes) (c.acks subscribes))
    (hs : c'.sent subscribes = c.sent subscribes ++ more) (hd : c'.dispatched = c.dispatched)
    (filter) : c'.holds filter = c.holds filter := by
  have ⟨answered, left, hr, ha⟩ := h
  have hl : answered.length = c.grants.length := by rw [length_grants]; exact ha.length_eq.symm
  have hz : ∀ left, (answered ++ left).zip c.grants = answered.zip c.grants := by
    intro left
    have hz : (answered ++ left).zip (c.grants ++ []) = answered.zip c.grants ++ left.zip [] :=
      List.zip_append hl
    rwa [List.append_nil, List.zip_nil_right, List.append_nil] at hz
  have hg : c'.grants = c.grants := by rw [grants, hd, grants]
  rw [holds, holds, hg, hs, hr, List.append_assoc, hz, hz]

-- What the broker holds once it has acknowledged one more frame.
theorem holds_arrived {ack : AckClass × UInt16}
    (h : InOrder OutboundFrame.answeredBy (c.sent subscribes) (c.acks subscribes))
    (hm : frame ∈ (c.unanswered subscribes).head?) (hf : frame.answeredBy ack = true)
    (hg : packet.granted? = some granted) (reader filter) :
    (c.arrived reader packet).holds filter =
      OutboundFrame.process filter (c.holds filter) (frame, granted) := by
  have ⟨answered, left, hr, hl, _⟩ := h.answer hm hf
  rw [← length_grants] at hl
  have hs : (c.arrived reader packet).sent subscribes = answered ++ frame :: left := hr
  have hd : (c.arrived reader packet).grants = c.grants ++ [granted] := by
    rw [grants, arrived, List.filterMap_append, List.filterMap_cons_some hg]
    rfl
  have hz : (answered ++ frame :: left).zip (c.grants ++ [granted]) =
      answered.zip c.grants ++ [(frame, granted)] := by
    rw [List.zip_append hl, List.zip_cons_cons, List.zip_nil_right]
  have hz' : (answered ++ frame :: left).zip (c.grants ++ []) = answered.zip c.grants := by
    rw [List.zip_append hl, List.zip_nil_right, List.append_nil]
  rw [List.append_nil] at hz'
  rw [holds, hs, hd, hz, List.foldl_append, holds, hr, hz']
  rfl

-- An entry that the removal of a request leaves was there before, or is a tombstone.
theorem acks_withoutRequest
    (h : (c.withoutRequest correlationData pending).pendingAcks.lookup packetId = some entry) :
    c.pendingAcks.lookup packetId = some entry ∨ entry.kind = .tombstone .publish true := by
  rw [withoutRequest] at h
  cases hi : pending.publishPacketId
  case none =>
    rw [hi] at h
    exact .inl h
  case some packetId' =>
    rw [hi] at h
    simp only [releasePacketId] at h
    by_cases he : packetId = packetId'
    case pos =>
      subst he
      split at h
      case isTrue => rw [AList.lookup_erase] at h; cases h
      case isFalse =>
        rw [AList.lookup_adjust] at h
        obtain ⟨_, _, h⟩ := Option.map_eq_some_iff.mp h
        exact .inr (by rw [← h])
    case neg =>
      split at h
      case isTrue => exact .inl (by rwa [AList.lookup_erase_ne he] at h)
      case isFalse => exact .inl (by rwa [AList.lookup_adjust_ne he] at h)

-- The entries for response topics are those of their subscriptions.
theorem Ledger.entries (h : Ledger c c') (hl : c'.pendingAcks.lookup packetId = some pending)
    (hk : pending.kind = .responseSubscribe responseTopic) :
    c.pendingAcks.lookup packetId = some pending ∨ pending.origin = .subscription responseTopic := by
  have hi : ∀ {packetId' entry}, (c.pendingAcks.insert packetId' entry).lookup packetId =
      some pending → c.pendingAcks.lookup packetId = some pending ∨ pending = entry := by
    intro packetId' entry hl
    by_cases he : packetId = packetId'
    case pos =>
      rw [he, AList.lookup_insert] at hl
      cases hl
      exact .inr rfl
    case neg => exact .inl (by rwa [AList.lookup_insert_ne he] at hl)
  have hf : ∀ {p pendingAcks}, Fades p c.pendingAcks pendingAcks →
      pendingAcks.lookup packetId = some pending → c.pendingAcks.lookup packetId = some pending := by
    intro p pendingAcks hf hl
    rcases hf packetId with he | ⟨_, _, _, he⟩
    case inl => rw [← he, hl]
    case inr =>
      rw [hl] at he
      cases he
      cases hk
  cases h
  case fade hc => exact .inl (hf hc hl)
  case forget hp => exact .inl (hf (Fades.adjust_bury (p := fun _ => True) hp True.intro) hl)
  case remove =>
    rcases acks_withoutRequest hl with hl | ht
    case inl => exact .inl hl
    case inr => rw [ht] at hk; cases hk
  case publish hp =>
    rcases hi hl with hl | rfl
    case inl => exact .inl hl
    case inr => rw [hp.kind] at hk; cases hk
  case await ha =>
    rcases hi hl with hl | rfl
    case inl => exact .inl hl
    case inr =>
      have hw := ha.waiter
      rw [hk] at hw
      cases hw
  case subscribe hs =>
    rcases hi hl with hl | rfl
    case inl => exact .inl hl
    case inr =>
      rw [hs.kind] at hk
      cases hk
      exact .inr hs.origin
  case write hw => exact .inl (by rwa [hw.pendingAcks] at hl)
  all_goals exact .inl hl

-- The frames for response topics are those that subscribe to them.
theorem Ledger.frames (h : Ledger c c') (ho : c.Orderly K) (hm : frame ∈ c'.inFlight K)
    (hf : frame.origin = .subscription responseTopic) :
    frame ∈ c.inFlight K ∨ topicFilter frame.bytes = some responseTopic := by
  have hp : ∀ frame', frame ∈ (c.push frame').inFlight K →
      frame ∈ c.inFlight K ∨ frame = frame'.unstarted := by
    intro frame' hm
    rw [inFlight_push] at hm
    rcases List.mem_append.mp hm with hm | hm
    case inl => exact .inl hm
    case inr =>
      split at hm
      case isTrue => exact .inr (List.mem_singleton.mp hm)
      case isFalse => cases hm
  cases h
  case remove => exact .inl ((inFlight_withoutRequest _ _).subset hm)
  case publish correlationData pending bytes _ =>
    rcases hp (pending.frame correlationData bytes) hm with hm | rfl
    case inl => exact .inl hm
    case inr => cases hf
  case publishQos0 correlationData pending bytes _ =>
    rcases hp (pending.frame correlationData bytes) hm with hm | rfl
    case inl => exact .inl hm
    case inr => cases hf
  case await result bytes _ =>
    rcases hp (ackedFrame result bytes) hm with hm | rfl
    case inl => exact .inl hm
    case inr => cases hf
  case subscribe responseTopic bytes hs =>
    rcases hp (subscriptionFrame responseTopic bytes) hm with hm | rfl
    case inl => exact .inl hm
    case inr =>
      cases hf
      have hl : bytes.length < 2 ^ 32 := Nat.lt_of_le_of_lt hs.room.left ho.max_lt
      exact .inr (SubscribePacket.topicFilter_encoded hs.encoded hl)
  case plain frame' _ _ hf =>
    have hi : (c.push frame').inFlight K = c.inFlight K := by
      rw [inFlight_push, OutboundFrame.asks_of_none (ho.asks hf)]
      simp
    rw [hi] at hm
    exact .inl hm
  case write hb hw => exact .inl (by rwa [(hw.inFlight hb ho.matched).right] at hm)
  all_goals exact .inl hm

theorem Write.sent (h : Write frame rest c c') : ∃ more, c'.sent K = c.sent K ++ more := by
  cases h
  case whole =>
    simp only [MqttConnection.sent, List.map_append, List.filter_append]
    exact ⟨_, rfl⟩
  all_goals exact ⟨[], (List.append_nil _).symm⟩

theorem Ledger.sent (h : Ledger c c') : ∃ more, c'.sent K = c.sent K ++ more := by
  cases h
  case write hw => exact hw.sent
  case remove pending correlationData _ =>
    have ⟨_, _, _, he⟩ := withoutRequest_eq c correlationData pending
    rw [he]
    exact ⟨[], (List.append_nil _).symm⟩
  all_goals exact ⟨[], (List.append_nil _).symm⟩

theorem Ledger.dispatched (h : Ledger c c') : c'.dispatched = c.dispatched := by
  cases h
  case write hw => exact congrArg (·.2.1.2.2) hw.aside
  case remove => exact congrArg (·.2.1.2.2) (aside_withoutRequest c _ _)
  all_goals rfl

-- Nothing that does not come from the broker makes the driver take a subscription for granted.
theorem Ledger.ready (h : Ledger c c') (hr : c'.Ready filter) : c.Ready filter := by
  have he : ∀ {responseTopic}, (c.responseSubscriptions.erase responseTopic).lookup filter =
      some .ready → c.Ready filter := by
    intro responseTopic hr
    by_cases hn : filter = responseTopic
    case pos => rw [hn, AList.lookup_erase] at hr; cases hr
    case neg => rwa [AList.lookup_erase_ne hn] at hr
  cases h
  case forget => exact he hr
  case remove pending correlationData _ =>
    have ht : (c.withoutRequest correlationData pending).responseSubscriptions =
      c.responseSubscriptions := congrArg (·.1) (topics_withoutRequest correlationData pending)
    rwa [Ready, ht] at hr
  case subscribe responseTopic _ _ =>
    have hr : (c.responseSubscriptions.insert responseTopic .subscribing).lookup filter =
      some .ready := hr
    by_cases hn : filter = responseTopic
    case pos => rw [hn, AList.lookup_insert] at hr; cases hr
    case neg => rwa [AList.lookup_insert_ne hn] at hr
  case write hw =>
    have ht : c'.responseSubscriptions = c.responseSubscriptions :=
      congrArg (·.2.1) hw.subscriptions
    rwa [Ready, ht] at hr
  all_goals exact hr

theorem Reflected.step (h : c.Reflected) (hs : Ledger c c') : c'.Reflected := by
  have ⟨more, hm⟩ := hs.sent (K := subscribes)
  have hd := hs.dispatched
  have ha : c'.acks subscribes = c.acks subscribes := by rw [acks, hd, acks]
  refine ⟨h.orderly.step rfl hs, ?_, ?_, ?_, ?_⟩
  case refine_1 =>
    rw [hm, ha]
    exact h.inOrder.append more
  case refine_2 =>
    intro packetId pending responseTopic hl hk
    rcases hs.entries hl hk with hl | ho
    case inl => exact h.entries packetId pending responseTopic hl hk
    case inr => exact ho
  case refine_3 =>
    intro frame hf responseTopic ho
    rcases hs.frames h.orderly hf ho with hf | ht
    case inl => exact h.frames frame hf responseTopic ho
    case inr => exact ht
  case refine_4 =>
    intro filter hr
    rw [holds_append h.inOrder hm hd]
    exact h.ready filter (hs.ready hr)

-- Every SUBSCRIBE and UNSUBSCRIBE that is not acknowledged is among the frames that are not.
theorem unanswered_subscribes_sublist :
    (c.unanswered subscribes).Sublist (c.unanswered fun _ => true) := by
  have hs : c.sent subscribes = (c.sent fun _ => true).filter (·.asks subscribes) := by
    rw [sent, sent, List.filter_filter]
    refine List.filter_congr fun frame _ => ?_
    cases h : frame.asks subscribes
    case false => rfl
    case true =>
      obtain ⟨k, packetId, he, _⟩ := OutboundFrame.exists_of_asks h
      rw [OutboundFrame.asks_eq _ he]
      rfl
  have ha : c.acks subscribes = (c.acks fun _ => true).filter (subscribes ·.1) := by
    rw [acks, acks, List.filter_true]
  have hk : ∀ ack (frame : OutboundFrame), frame.answeredBy ack = true →
      frame.asks subscribes = subscribes ack.1 :=
    fun ack frame hf => OutboundFrame.asks_eq _ (of_decide_eq_true hf)
  rw [unanswered, hs, ha, ← Answering.unanswered_filter hk, unanswered]
  exact List.filter_sublist

-- A successful UNSUBACK for a response topic finds somebody who waits for it.
def ConfirmsToWaiter (c : MqttConnection) : Packet → Prop
  | .unsubAck ack => Packet.granted?.success ack.reasonCodes = true →
    ∀ frame ∈ (c.unanswered subscribes).head?, ∀ filter ∈ topicFilter frame.bytes,
      c.Ready filter →
        ∃ pending ∈ c.pendingAcks.lookup ack.packetId, pending.kind.filter? = some filter
  | _ => True

instance : Decidable (c.Ready filter) :=
  inferInstanceAs (Decidable (c.responseSubscriptions.lookup filter = some .ready))

instance : (packet : Packet) → Decidable (c.ConfirmsToWaiter packet)
  | .unsubAck ack => inferInstanceAs (Decidable (Packet.granted?.success ack.reasonCodes = true →
    ∀ frame ∈ (c.unanswered subscribes).head?, ∀ filter ∈ topicFilter frame.bytes,
      c.Ready filter →
        ∃ pending ∈ c.pendingAcks.lookup ack.packetId, pending.kind.filter? = some filter))
  | .connect _ | .connAck _ | .publish _ | .pubAck _ | .subscribe _ | .subAck _ | .unsubscribe _
  | .pingReq | .pingResp | .disconnect _ => isTrue trivial

theorem granted_of_validateSubackCodes (h : (validateSubackCodes reasonCodes [qos]).isOk = true) :
    Packet.granted?.success reasonCodes = true := by
  unfold validateSubackCodes at h
  split at h
  case isTrue => cases h
  case isFalse hl =>
    have ⟨reasonCode, hr⟩ := List.length_eq_one_iff.mp (not_not.mp hl)
    subst hr
    simp only [List.zip_cons_cons, validateSubackCodes.go] at h
    split at h
    case isTrue => cases h
    case isFalse hn => simpa [Packet.granted?.success] using hn

theorem granted_of_unsubackReply {ack : UnsubAckPacket} :
    (unsubackReply ack).isOk = Packet.granted?.success ack.reasonCodes := by
  unfold unsubackReply validateReasonCodes
  split
  case isTrue hl =>
    unfold Packet.granted?.success
    split
    case h_1 he => rw [he] at hl; exact absurd rfl hl
    case h_2 => rfl
  case isFalse hl =>
    have ⟨reasonCode, hr⟩ := List.length_eq_one_iff.mp (not_not.mp hl)
    rw [hr]
    by_cases hc : reasonCode < 0x80
    case pos =>
      have hn : ¬0x80 ≤ reasonCode := UInt8.not_le.mpr hc
      simp [Packet.granted?.success, hc, hn, Except.map, Except.isOk, Except.toBool]
    case neg =>
      have hn : 0x80 ≤ reasonCode := UInt8.not_lt.mp hc
      simp [Packet.granted?.success, hc, hn, Except.map, Except.isOk, Except.toBool]

theorem Reflected.arrived (h : c.Reflected) (hn : packet.acknowledges = none) (reader) :
    (c.arrived reader packet).Reflected := by
  have hg : packet.granted? = none := by cases packet <;> first | rfl | cases hn
  have ha : (c.arrived reader packet).acks subscribes = c.acks subscribes := by
    rw [acks_arrived, hn]
    exact List.append_nil _
  have hd : (c.arrived reader packet).grants = c.grants := by
    rw [grants, MqttConnection.arrived, List.filterMap_append, List.filterMap_cons_none hg]
    exact List.append_nil _
  refine ⟨h.orderly.arrived (by rw [hn]; rfl) reader, ?_, h.entries, ?_, ?_⟩
  case refine_1 =>
    rw [ha]
    exact h.inOrder
  case refine_2 => exact fun frame hm => h.frames frame ((inFlight_arrived_sublist _ _).subset hm)
  case refine_3 =>
    intro filter hr
    rw [holds, hd]
    exact h.ready filter hr

theorem Receipt.holds (h : Receipt packet k packetId c c') (filter) :
    c'.holds filter = c.holds filter := by
  cases h <;> rfl

-- An acknowledgement that is none for a response topic does not concern the driver's view of them.
theorem Receipt.ready (h : Receipt packet k packetId c c') (hr : c'.Ready filter) :
    c.Ready filter ∨ ∃ ack pending, packet = .subAck ack ∧
      c.pendingAcks.lookup packetId = some pending ∧ pending.kind = .responseSubscribe filter ∧
        (validateSubackCodes ack.reasonCodes [.atLeastOnce]).isOk = true := by
  cases h
  case unknown => exact .inl hr
  case mismatched => exact .inl hr
  case taken pending _ hl _ ht =>
    clear ht
    replace hr : (subscriptionsAfter packet pending.kind c.responseSubscriptions).lookup filter =
      some .ready := hr
    unfold subscriptionsAfter at hr
    split at hr
    case h_1 ack responseTopic hk =>
      by_cases he : filter = responseTopic
      case pos =>
        subst he
        split at hr
        case isTrue hv => exact .inr ⟨ack, pending, rfl, hl, hk, hv⟩
        case isFalse => rw [AList.lookup_erase] at hr; cases hr
      case neg =>
        split at hr
        case isTrue => exact .inl (by rwa [AList.lookup_insert_ne he] at hr)
        case isFalse => exact .inl (by rwa [AList.lookup_erase_ne he] at hr)
    case h_2 responseTopic _ _ =>
      split at hr
      case isTrue =>
        by_cases he : filter = responseTopic
        case pos => rw [he, AList.lookup_erase] at hr; cases hr
        case neg => exact .inl (by rwa [AList.lookup_erase_ne he] at hr)
      case isFalse => exact .inl hr
    case h_3 => exact .inl hr

-- A successful UNSUBACK that finds its waiter is noticed.
theorem Receipt.dropped {ack : UnsubAckPacket}
    (h : Receipt (.unsubAck ack) .unsubscribe ack.packetId c c')
    (hg : Packet.granted?.success ack.reasonCodes = true)
    (hl : c.pendingAcks.lookup ack.packetId = some pending)
    (hf : pending.kind.filter? = some filter) : ¬c'.Ready filter := by
  have ⟨result, hk⟩ : ∃ result, pending.kind = .unsubscribe filter result := by
    cases hk : pending.kind <;> rw [hk] at hf <;> cases hf
    exact ⟨_, rfl⟩
  cases h
  case unknown hn => rw [hn] at hl; cases hl
  case mismatched hl' hn =>
    rw [hl'] at hl
    cases hl
    rw [hk] at hn
    exact absurd rfl hn
  case taken hl' _ _ =>
    rw [hl'] at hl
    cases hl
    intro hr
    have hr : (subscriptionsAfter (.unsubAck ack) pending.kind c.responseSubscriptions).lookup
      filter = some .ready := hr
    rw [hk, subscriptionsAfter, granted_of_unsubackReply, if_pos hg, AList.lookup_erase] at hr
    cases hr

-- The entry for a response topic is that of the SUBSCRIBE which is acknowledged next.
theorem Reflected.filter_eq (h : c.Reflected) (hm : frame ∈ (c.unanswered subscribes).head?)
    (he : expectedAck frame.bytes = some (k, packetId))
    (hl : c.pendingAcks.lookup packetId = some pending)
    (hk : pending.kind = .responseSubscribe responseTopic) :
    topicFilter frame.bytes = some responseTopic := by
  have hf : frame ∈ c.inFlight fun _ => true :=
    List.mem_append_left _ (unanswered_subscribes_sublist.subset (List.mem_of_mem_head? hm))
  have ⟨entry, hl', ho, _⟩ := h.orderly.held frame hf k packetId he
  rw [hl] at hl'
  cases hl'
  refine h.frames frame hf responseTopic ?_
  rw [← ho]
  exact h.entries packetId pending responseTopic hl hk

theorem Reflected.ready_receipt (h : c.Reflected) (ha : packet.acknowledges = some (k, packetId))
    (hn : c.AnswersNext packet) (hw : c.ConfirmsToWaiter packet)
    (hr : Receipt packet k packetId (c.arrived reader packet) c') (hf : c'.Ready filter) :
    c'.holds filter = true := by
  rw [hr.holds]
  cases packet <;> cases ha
  case pubAck ack =>
    rcases hr.ready hf with hf | ⟨_, _, he, _⟩
    case inr => cases he
    case inl =>
      have hd : (c.arrived reader (.pubAck ack)).grants = c.grants := by
        rw [grants, MqttConnection.arrived, List.filterMap_append]
        exact List.append_nil _
      rw [holds, hd]
      exact h.ready filter hf
  case subAck ack =>
    obtain ⟨frame, hm, he⟩ := hn _ rfl rfl
    rw [holds_arrived h.inOrder hm (decide_eq_true he) rfl, OutboundFrame.process]
    rw [OutboundFrame.asks_eq _ he]
    split
    case isTrue => rfl
    case isFalse hx =>
      rcases hr.ready hf with hf | ⟨_, pending, hp, hl, hk, hv⟩
      case inl => exact h.ready filter hf
      case inr =>
        cases hp
        exact absurd ⟨granted_of_validateSubackCodes hv, h.filter_eq hm he hl hk⟩ hx
  case unsubAck ack =>
    obtain ⟨frame, hm, he⟩ := hn _ rfl rfl
    rw [holds_arrived h.inOrder hm (decide_eq_true he) rfl, OutboundFrame.process]
    have hf' : c.Ready filter := by
      rcases hr.ready hf with hf | ⟨_, _, hp, _⟩
      case inl => exact hf
      case inr => cases hp
    split
    case isTrue hx =>
      obtain ⟨pending, hl, hk⟩ := hw hx.left frame hm filter hx.right hf'
      exact absurd hf (hr.dropped hx.left hl hk)
    case isFalse => exact h.ready filter hf'

theorem Reflected.receipt (h : c.Reflected) (ha : packet.acknowledges = some (k, packetId))
    (hb : c.Answers (fun _ => true) packet) (hn : c.AnswersNext packet)
    (hw : c.ConfirmsToWaiter packet)
    (hr : Receipt packet k packetId (c.arrived reader packet) c') : c'.Reflected := by
  refine ⟨h.orderly.receipt rfl ha hb hr, ?_, ?_, ?_, fun filter => h.ready_receipt ha hn hw hr⟩
  case refine_1 =>
    have hs : c'.sent subscribes = c.sent subscribes := by cases hr <;> rfl
    have hd : c'.acks subscribes = (c.arrived reader packet).acks subscribes := by
      cases hr <;> rfl
    rw [hs, hd]
    by_cases hk : subscribes k = true
    case pos =>
      have ⟨frame, hm, he⟩ := hn _ ha hk
      have ⟨_, _, _, _, hi⟩ := h.inOrder.answer hm (decide_eq_true he)
      rw [acks_answered ha hk]
      exact hi
    case neg =>
      rw [acks_arrived, ha]
      simpa [hk] using h.inOrder
  case refine_2 =>
    intro packetId' pending responseTopic hl hk
    refine h.entries packetId' pending responseTopic ?_ hk
    cases hr
    case unknown => exact hl
    case mismatched => exact hl
    case taken =>
      replace hl : (c.pendingAcks.erase packetId).lookup packetId' = some pending := hl
      by_cases he : packetId' = packetId
      case pos => rw [he, AList.lookup_erase] at hl; cases hl
      case neg => rwa [AList.lookup_erase_ne he] at hl
  case refine_3 =>
    intro frame hf
    rw [hr.inFlight] at hf
    exact h.frames frame ((inFlight_arrived_sublist packet reader).subset hf)

theorem foldl_process_of_ne {frames : List (OutboundFrame × Bool)}
    (h : ∀ e ∈ frames, topicFilter e.1.bytes ≠ some filter) (held : Bool) :
    frames.foldl (OutboundFrame.process filter) held = held := by
  induction frames
  case nil => rfl
  case cons e frames ih =>
    have hp : OutboundFrame.process filter held e = held :=
      if_neg fun hg => h e List.mem_cons_self hg.right
    rw [List.foldl_cons, hp]
    exact ih fun e he => h e (List.mem_cons_of_mem _ he)

-- What is on its way does not concern a topic filter that nothing unacknowledged is for.
theorem holdsAfter_eq (h : InOrder OutboundFrame.answeredBy (c.sent subscribes) (c.acks subscribes))
    (hn : ∀ frame ∈ c.unanswered subscribes, topicFilter frame.bytes ≠ some filter)
    (further) : c.holdsAfter further filter = c.holds filter := by
  have ⟨answered, left, hr, ha⟩ := h
  have hl : answered.length = c.grants.length := by rw [length_grants]; exact ha.length_eq.symm
  rw [unanswered, hr, Answering.unanswered_of_forall₂ ha] at hn
  have hz : (answered ++ left).zip (c.grants ++ []) = answered.zip c.grants := by
    rw [List.zip_append hl, List.zip_nil_right, List.append_nil]
  rw [List.append_nil] at hz
  rw [holdsAfter, holds, hr, List.zip_append hl, List.foldl_append, hz]
  refine foldl_process_of_ne (fun e he => hn e.1 ?_) _
  exact (List.of_mem_zip he).left

-- The broker holds a subscription, and the reply that it forwards reaches the request.
structure Serves (c : MqttConnection) (filter : String) : Prop where
  held : ∀ further, c.holdsAfter further filter = true
  replies : ∀ packet correlationData pending, packet.topic = filter → packet.qos = .atMostOnce →
    c.Responds packet correlationData pending →
      (pending.result, .ok (.response packet)) ∈ (dispatchPublish packet c).state.replies

theorem dispatchPublish_responds (hq : packet.qos = .atMostOnce)
    (h : c.Responds packet correlationData pending) :
    (pending.result, .ok (.response packet)) ∈ (dispatchPublish packet c).state.replies := by
  have ha : acknowledgePublish packet c = .ok () c := by simp [acknowledgePublish, hq]
  rw [dispatchPublish, EStateM.bind_ok ha]
  rcases tryCompleteRequest_cases c packet with ⟨_, hn⟩ | ⟨correlationData', pending', h', ht⟩
  case inl => exact absurd h (hn _ _)
  case inr =>
    obtain ⟨hc, hl, _⟩ := h
    obtain ⟨hc', hl', _⟩ := h'
    rw [hc, Option.some.injEq] at hc'
    rw [← hc', hl, Option.some.injEq] at hl'
    subst hl'
    rw [EStateM.bind_ok ht]
    exact List.mem_append_right _ List.mem_cons_self

-- What remains to be said once the connection has ended.
structure Settled (c : MqttConnection) : Prop where
  inOrder : InOrder OutboundFrame.answeredBy (c.sent subscribes) (c.acks subscribes)
  ready : ∀ filter, c.Ready filter → c.holds filter = true

theorem Reflected.settled (h : c.Reflected) : c.Settled :=
  ⟨h.inOrder, h.ready⟩

theorem Ends.settled (he : Ends c c') (h : c.Settled) : c'.Settled := by
  cases he <;> exact ⟨h.inOrder, h.ready⟩

theorem Outside.settled (ho : Outside c input c') (h : c.Settled) : c'.Settled := by
  cases ho <;> exact ⟨h.inOrder, h.ready⟩

theorem Settled.serves (h : c.Settled) (hr : c.Ready filter)
    (hn : ∀ frame ∈ c.unanswered subscribes, topicFilter frame.bytes ≠ some filter) :
    c.Serves filter where
  held further := by
    rw [holdsAfter_eq h.inOrder hn]
    exact h.ready filter hr
  replies _ _ _ _ hq h := dispatchPublish_responds hq h

end MqttConnection

namespace Driver

open MqttConnection

-- The UNSUBACKs for response topics find those who wait for them: nobody has dropped the result of
-- an UNSUBSCRIBE, and none has timed out, before it succeeds.
def ConfirmsToWaiters (driver : Driver) (inputs : List Input) : Prop :=
  driver.Throughout inputs fun earlier input =>
    ∀ packet ∈ earlier.dispatches input, earlier.connection.ConfirmsToWaiter packet

theorem reflected_start (options connack clock) :
    (start options connack clock).connection.Reflected :=
  ⟨orderly_start options connack clock _, .nil, nofun, nofun, nofun⟩

-- Under this condition, the broker serves the response topics that the driver takes it to serve.
theorem ready_topics_served (options : ConnectOptions) (connack : ConnAckPacket) (clock : Clock)
    (inputs : List Input) (driver : Driver)
    (h : (start options connack clock).run inputs = some driver)
    (hb : (start options connack clock).AnswersFrames (fun _ => true) inputs)
    (ho : (start options connack clock).AnswersInOrder inputs)
    (hw : (start options connack clock).ConfirmsToWaiters inputs) :
    ∀ filter, driver.connection.Ready filter →
      (∀ frame ∈ driver.connection.unanswered subscribes, topicFilter frame.bytes ≠ some filter) →
        driver.connection.Serves filter := by
  have hs := run_ledger (P := Reflected) (Q := Settled) (fun _ _ hs h => h.step hs)
    (fun _ _ reader hn h => h.arrived hn reader)
    (fun _ _ packet _ _ _ ha hd hc h hr =>
      h.receipt ha (hc.left packet hd) (hc.right.left packet hd) (hc.right.right packet hd) hr)
    (fun _ _ he h => he.settled (h.elim (·.settled) id)) (fun _ _ _ ho h => ho.settled h)
    (reflected_start options connack clock) (hb.and (ho.and hw)) h
  have hs : driver.connection.Settled := hs.elim (·.settled) And.right
  exact fun filter hr hn => hs.serves hr hn

-- The second subscription to the response topic is granted as well.
def granting : List Input :=
  resubscribing ++ [.read (.ok [0x90, 4, 0, 4, 0, 1]), .read (.error { kind := .wouldBlock }), .proceed]

theorem ready_topics_served_granting :
    ∃ driver, (start plainOptions plainConnack stillClock).run granting = some driver ∧
      driver.connection.Ready "t" ∧ driver.connection.Serves "t" := by
  have ⟨driver, hr, ht, hs⟩ := exists_run (start plainOptions plainConnack stillClock) granting
    (fun driver => driver.connection.Ready "t" ∧ driver.connection.unanswered subscribes = [])
    (by decide +kernel)
  refine ⟨driver, hr, ht, ready_topics_served plainOptions plainConnack stillClock granting driver hr
    (by unfold AnswersFrames; decide +kernel) (by unfold AnswersInOrder; decide +kernel)
    (by unfold ConfirmsToWaiters; decide +kernel) "t" ht ?_⟩
  rw [hs]
  nofun

-- A response topic is subscribed to and unsubscribed from by somebody who does not wait for it.
def unsubscribing : List Input :=
  [.submit (.request plainRequest 0), .submit (.unsubscribe "t" 1), .proceed, .proceed, .proceed,
    .proceed, .proceed, .written (.ok 9), .written (.ok 8), .proceed, .flushed (.ok ()),
    .read (.ok [0x90, 4, 0, 1, 0, 0]), .read (.error { kind := .wouldBlock }), .proceed,
    .dropReceiver 1, .proceed, .proceed, .proceed, .proceed, .written (.ok 6), .proceed,
    .flushed (.ok ()), .proceed, .elapsed, .proceed, .proceed, .proceed, .proceed, .proceed,
    .read (.ok [0xB0, 4, 0, 2, 0, 0]), .read (.error { kind := .wouldBlock }), .proceed]

theorem ready_topic_dropped :
    ∃ driver, (start plainOptions plainConnack stillClock).run unsubscribing = some driver ∧
      (start plainOptions plainConnack stillClock).AnswersFrames (fun _ => true) unsubscribing ∧
      (start plainOptions plainConnack stillClock).AnswersInOrder unsubscribing ∧
      driver.phase.terminated = false ∧
      ¬∀ filter, driver.connection.Ready filter →
        (∀ frame ∈ driver.connection.unanswered subscribes,
          topicFilter frame.bytes ≠ some filter) → driver.connection.Serves filter := by
  have ⟨driver, hr, ht, hd, hs, hh⟩ := exists_run (start plainOptions plainConnack stillClock)
    unsubscribing
    (fun driver => driver.phase.terminated = false ∧ driver.connection.Ready "t" ∧
      driver.connection.unanswered subscribes = [] ∧
        driver.connection.holdsAfter [] "t" = false) (by decide +kernel)
  refine ⟨driver, hr, by unfold AnswersFrames; decide +kernel,
    by unfold AnswersInOrder; decide +kernel, ht, fun h => ?_⟩
  have hn := (h "t" hd (by rw [hs]; nofun)).held []
  rw [hh] at hn
  cases hn

end Driver
end MqttWasi
