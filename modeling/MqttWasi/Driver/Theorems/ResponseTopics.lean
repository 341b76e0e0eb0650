import MqttWasi.Driver.Theorems.Exchange

-- The response topics that the driver has subscribed to.

namespace MqttWasi

-- What an UNSUBACK is awaited for.
def PendingAckKind.filter? : PendingAckKind → Option String
  | unsubscribe filter _ => some filter
  | _                    => none

namespace MqttConnection

open EStateM (Leads)
open Relation (ReflTransGen)

-- The entry with this packet identifier is for the subscription to a response topic.
def Subscribing (c : MqttConnection) (responseTopic : String) (packetId : UInt16) : Prop :=
  ∃ pending, c.pendingAcks.lookup packetId = some pending ∧
    pending.kind = .responseSubscribe responseTopic

structure Coherent (c : MqttConnection) : Prop where
  subscribing : ∀ responseTopic, c.responseSubscriptions.lookup responseTopic = some .subscribing ↔
    ∃ packetId, c.Subscribing responseTopic packetId
  unique : ∀ responseTopic packetId packetId', c.Subscribing responseTopic packetId →
    c.Subscribing responseTopic packetId' → packetId = packetId'
  bound : c.responseSubscriptions.entries.length ≤ c.maxPendingOperations

-- The packet identifier of a request that has been published is not that of a subscription.
def NoStaleId (c : MqttConnection) : Prop :=
  ∀ correlationData pending packetId, c.pendingRequests.lookup correlationData = some pending →
    pending.publishPacketId = some packetId → ∀ responseTopic, ¬c.Subscribing responseTopic packetId

variable {c c' : MqttConnection}

theorem subscribing_iff : c.Subscribing responseTopic packetId ↔
    ∃ pending ∈ c.pendingAcks.lookup packetId, pending.kind = .responseSubscribe responseTopic :=
  .rfl

instance : Decidable (c.Subscribing responseTopic packetId) :=
  decidable_of_iff _ subscribing_iff.symm

theorem noStaleId_iff : c.NoStaleId ↔ ∀ e ∈ c.pendingRequests.entries,
    ∀ packetId ∈ e.snd.publishPacketId, ∀ pending ∈ c.pendingAcks.lookup packetId,
      ¬pending.kind.IsSubscription := by
  refine ⟨fun h e he packetId hi pending hl ⟨responseTopic, hk⟩ => ?_, fun h => ?_⟩
  case refine_1 =>
    exact h e.fst e.snd packetId (AList.mem_lookup_iff.mpr he) hi responseTopic ⟨pending, hl, hk⟩
  case refine_2 =>
    intro correlationData pending packetId hp hi responseTopic ⟨entry, hl, hk⟩
    exact h ⟨correlationData, pending⟩ (AList.mem_lookup_iff.mp hp) packetId hi entry hl
      ⟨responseTopic, hk⟩

instance : Decidable c.NoStaleId :=
  -- Not by going through all packet identifiers.
  have (e : (_ : Bytes) × PendingRequest) : Decidable (∀ packetId ∈ e.snd.publishPacketId,
      ∀ pending ∈ c.pendingAcks.lookup packetId, ¬pending.kind.IsSubscription) :=
    Option.decidableForallMem _
  decidable_of_iff _ noStaleId_iff.symm

-- The entries that were changed are not for subscriptions, and have not become so.
def SameSubscriptions (c c' : MqttConnection) : Prop :=
  ∀ packetId, c'.pendingAcks.lookup packetId = c.pendingAcks.lookup packetId ∨
    ∀ responseTopic, ¬c.Subscribing responseTopic packetId ∧ ¬c'.Subscribing responseTopic packetId

theorem SameSubscriptions.iff (h : SameSubscriptions c c') (responseTopic packetId) :
    c'.Subscribing responseTopic packetId ↔ c.Subscribing responseTopic packetId := by
  rcases h packetId with h | h
  case inl => rw [Subscribing, h, Subscribing]
  case inr => exact iff_of_false (h responseTopic).right (h responseTopic).left

theorem SameSubscriptions.of_eq (h : c'.pendingAcks = c.pendingAcks) : SameSubscriptions c c' :=
  fun _ => .inl (by rw [h])

theorem not_subscribing_of_lookup (h : c.pendingAcks.lookup packetId = some pending)
    (hk : ¬pending.kind.IsSubscription) (responseTopic) : ¬c.Subscribing responseTopic packetId := by
  intro ⟨pending', hl, hs⟩
  rw [h] at hl
  cases hl
  exact hk ⟨responseTopic, hs⟩

theorem not_subscribing_of_none (h : c.pendingAcks.lookup packetId = none) (responseTopic) :
    ¬c.Subscribing responseTopic packetId := by
  intro ⟨pending, hl, _⟩
  rw [h] at hl
  cases hl

theorem bury_not_isSubscription (kind : PendingAckKind) : ¬kind.bury.IsSubscription :=
  fun ⟨_, h⟩ => nomatch h

theorem SameSubscriptions.fade (h : Fades (¬·.IsSubscription) c.pendingAcks c'.pendingAcks) :
    SameSubscriptions c c' := by
  intro packetId
  rcases h packetId with h | ⟨pending, hl, hk, hl'⟩
  case inl => exact .inl h
  case inr =>
    refine .inr fun responseTopic => ⟨not_subscribing_of_lookup hl hk responseTopic, ?_⟩
    exact not_subscribing_of_lookup hl' (bury_not_isSubscription _) responseTopic

theorem SameSubscriptions.insert (hf : packetId ∉ c.pendingAcks) (hk : ¬entry.kind.IsSubscription)
    (hp : c'.pendingAcks = c.pendingAcks.insert packetId entry) : SameSubscriptions c c' := by
  intro packetId'
  by_cases he : packetId' = packetId
  case pos =>
    subst he
    refine .inr fun responseTopic => ⟨?_, ?_⟩
    case refine_1 => exact not_subscribing_of_none (AList.lookup_eq_none.mpr hf) responseTopic
    case refine_2 =>
      exact not_subscribing_of_lookup (by rw [hp]; exact AList.lookup_insert _) hk responseTopic
  case neg => exact .inl (by rw [hp]; exact AList.lookup_insert_ne he)

theorem SameSubscriptions.erase (hn : ∀ responseTopic, ¬c.Subscribing responseTopic packetId)
    (hp : c'.pendingAcks = c.pendingAcks.erase packetId) : SameSubscriptions c c' := by
  intro packetId'
  by_cases he : packetId' = packetId
  case pos =>
    subst he
    refine .inr fun responseTopic => ⟨hn responseTopic, ?_⟩
    exact not_subscribing_of_none (by rw [hp]; exact AList.lookup_erase _ _) responseTopic
  case neg => exact .inl (by rw [hp]; exact AList.lookup_erase_ne he)

theorem SameSubscriptions.tombstone (hn : ∀ responseTopic, ¬c.Subscribing responseTopic packetId)
    (hp : c'.pendingAcks = c.pendingAcks.adjust packetId ({ · with kind := .tombstone k q })) :
    SameSubscriptions c c' := by
  intro packetId'
  by_cases he : packetId' = packetId
  case pos =>
    subst he
    refine .inr fun responseTopic => ⟨hn responseTopic, fun ⟨pending, hl, hk⟩ => ?_⟩
    rw [hp, AList.lookup_adjust] at hl
    have ⟨_, _, hl⟩ := Option.map_eq_some_iff.mp hl
    rw [← hl] at hk
    cases hk
  case neg => exact .inl (by rw [hp]; exact AList.lookup_adjust_ne he _ _)

-- What the response topics depend on.
def topics (c : MqttConnection) : (AList fun _ : String => ResponseSubscription) × Nat :=
  (c.responseSubscriptions, c.maxPendingOperations)

theorem Coherent.same (h : c.Coherent) (hs : SameSubscriptions c c') (ht : c'.topics = c.topics) :
    c'.Coherent := by
  simp only [topics, Prod.mk.injEq] at ht
  have ⟨hr, hm⟩ := ht
  refine ⟨fun responseTopic => ?_, fun responseTopic packetId packetId' hp hp' => ?_, ?_⟩
  case refine_1 =>
    rw [hr]
    refine (h.subscribing responseTopic).trans (exists_congr fun packetId => ?_)
    exact (hs.iff responseTopic packetId).symm
  case refine_2 =>
    exact h.unique responseTopic packetId packetId' ((hs.iff _ _).mp hp) ((hs.iff _ _).mp hp')
  case refine_3 => rw [hr, hm]; exact h.bound

-- The packet identifiers of requests are not those of subscriptions unless they become so.
theorem NoStaleId.mono (h : c.NoStaleId)
    (hs : ∀ responseTopic packetId, c'.Subscribing responseTopic packetId →
      c.Subscribing responseTopic packetId)
    (hr : ∀ correlationData pending, c'.pendingRequests.lookup correlationData = some pending →
      c.pendingRequests.lookup correlationData = some pending) : c'.NoStaleId :=
  fun correlationData pending packetId hl hi responseTopic hp =>
    h correlationData pending packetId (hr correlationData pending hl) hi responseTopic
      (hs responseTopic packetId hp)

theorem SameSubscriptions.withoutRequest (correlationData pending)
    (hn : ∀ packetId, pending.publishPacketId = some packetId →
      ∀ responseTopic, ¬c.Subscribing responseTopic packetId) :
    SameSubscriptions c (c.withoutRequest correlationData pending) := by
  unfold MqttConnection.withoutRequest
  cases hi : pending.publishPacketId <;> dsimp only
  case none => exact .of_eq rfl
  case some packetId =>
    cases c.outbound.any (isUnsentFrameOf correlationData)
    case true => exact .erase (hn packetId hi) rfl
    case false => exact .tombstone (hn packetId hi) rfl

theorem topics_withoutRequest (correlationData pending) :
    (c.withoutRequest correlationData pending).topics = c.topics := by
  have ⟨_, _, _, he⟩ := withoutRequest_eq c correlationData pending
  rw [he]
  rfl

theorem lookup_withoutRequest
    (h : (c.withoutRequest correlationData pending).pendingRequests.lookup correlationData' =
      some pending') : c.pendingRequests.lookup correlationData' = some pending' := by
  have ⟨_, _, _, he⟩ := withoutRequest_eq c correlationData pending
  rw [he] at h
  by_cases hc : correlationData' = correlationData
  case pos =>
    rw [hc, AList.lookup_erase] at h
    cases h
  case neg => rwa [AList.lookup_erase_ne hc] at h

-- A subscription is not waited for any more.

theorem subscribing_bury (hp : c'.pendingAcks = c.pendingAcks.adjust packetId PendingAck.bury)
    (responseTopic packetId') : c'.Subscribing responseTopic packetId' ↔
      c.Subscribing responseTopic packetId' ∧ packetId' ≠ packetId := by
  by_cases he : packetId' = packetId
  case pos =>
    subst he
    refine iff_of_false (fun ⟨pending, hl, hk⟩ => ?_) fun h => h.right rfl
    rw [hp, AList.lookup_adjust] at hl
    have ⟨_, _, hl⟩ := Option.map_eq_some_iff.mp hl
    rw [← hl] at hk
    cases hk
  case neg =>
    rw [Subscribing, hp, AList.lookup_adjust_ne he]
    exact (and_iff_left he).symm

theorem subscribing_erase (hp : c'.pendingAcks = c.pendingAcks.erase packetId)
    (responseTopic packetId') : c'.Subscribing responseTopic packetId' ↔
      c.Subscribing responseTopic packetId' ∧ packetId' ≠ packetId := by
  by_cases he : packetId' = packetId
  case pos =>
    subst he
    refine iff_of_false (not_subscribing_of_none ?_ responseTopic) fun h => h.right rfl
    rw [hp, AList.lookup_erase]
  case neg =>
    rw [Subscribing, hp, AList.lookup_erase_ne he]
    exact (and_iff_left he).symm

theorem Coherent.settle (h : c.Coherent) (hs : c.Subscribing responseTopic packetId)
    (hp : ∀ responseTopic packetId', c'.Subscribing responseTopic packetId' ↔
      c.Subscribing responseTopic packetId' ∧ packetId' ≠ packetId)
    (ho : ∀ responseTopic', responseTopic' ≠ responseTopic →
      c'.responseSubscriptions.lookup responseTopic' = c.responseSubscriptions.lookup responseTopic')
    (hn : c'.responseSubscriptions.lookup responseTopic ≠ some .subscribing)
    (hb : c'.responseSubscriptions.entries.length ≤ c'.maxPendingOperations) : c'.Coherent := by
  refine ⟨fun responseTopic' => ?_, fun responseTopic' packetId' packetId'' h' h'' => ?_, hb⟩
  case refine_1 =>
    by_cases he : responseTopic' = responseTopic
    case pos =>
      subst he
      refine iff_of_false hn fun ⟨packetId', h'⟩ => ?_
      have ⟨h', hne⟩ := (hp _ _).mp h'
      exact hne (h.unique _ _ _ h' hs)
    case neg =>
      rw [ho responseTopic' he, h.subscribing]
      refine exists_congr fun packetId' => ?_
      rw [hp]
      refine (and_iff_left_of_imp fun h' hi => he ?_).symm
      subst hi
      have ⟨_, hl, hk⟩ := hs
      have ⟨_, hl', hk'⟩ := h'
      rw [hl] at hl'
      cases hl'
      rw [hk] at hk'
      cases hk'
      rfl
  case refine_2 => exact h.unique _ _ _ ((hp _ _).mp h').left ((hp _ _).mp h'').left

theorem Coherent.forget (h : c.Coherent) (hs : c.Subscribing responseTopic packetId) :
    MqttConnection.Coherent
      { c with
        pendingAcks := c.pendingAcks.adjust packetId PendingAck.bury
        responseSubscriptions := c.responseSubscriptions.erase responseTopic } := by
  refine h.settle hs (subscribing_bury rfl) (fun _ hn => AList.lookup_erase_ne hn) ?_ ?_
  case refine_1 => rw [AList.lookup_erase]; nofun
  case refine_2 => exact (AList.length_erase_le _ _).trans h.bound

theorem Coherent.shift (h : c.Coherent) (hn : c.NoStaleId) (hs : Shift c c') :
    c'.Coherent ∧ c'.NoStaleId := by
  cases hs
  case quiet hq => cases hq; exact ⟨h.same (.of_eq rfl) rfl, hn⟩
  case sweep =>
    have hs : SameSubscriptions c { c with pendingAcks := _ } := .fade (.sweep _ c.isClosed)
    exact ⟨h.same hs rfl, hn.mono (fun _ _ => (hs.iff _ _).mp) fun _ _ hl => hl⟩
  case bury pending packetId hk hl =>
    have hs : SameSubscriptions c
        { c with pendingAcks := c.pendingAcks.adjust packetId PendingAck.bury } :=
      .fade (.adjust_bury hl fun ⟨responseTopic, hr⟩ => hk responseTopic hr)
    exact ⟨h.same hs rfl, hn.mono (fun _ _ => (hs.iff _ _).mp) fun _ _ hl => hl⟩
  case forget hk hl =>
    refine ⟨h.forget ⟨_, hl, hk⟩, hn.mono (fun _ _ hs => ?_) fun _ _ hl => hl⟩
    exact ((subscribing_bury rfl _ _).mp hs).left
  case remove pending correlationData e hl =>
    have hs := SameSubscriptions.withoutRequest (c := c) correlationData pending
      fun packetId hi => hn correlationData pending packetId hl hi
    refine ⟨?_, ?_⟩
    case refine_1 =>
      have h := h.same hs (topics_withoutRequest correlationData pending)
      exact h.same (.of_eq rfl) rfl
    case refine_2 => exact hn.mono (fun _ _ => (hs.iff _ _).mp) fun _ _ hl => lookup_withoutRequest hl

-- A request is published.
theorem SameSubscriptions.publish (h : Publish c c') : SameSubscriptions c c' := by
  cases h
  case quiet hq => exact .of_eq hq.pendingAcks
  case qos1 entry _ _ _ hp =>
    have hk : ¬entry.kind.IsSubscription := fun ⟨_, h⟩ => by rw [hp.kind] at h; cases h
    exact .insert hp.free.fresh hk rfl
  case qos0 => exact .of_eq rfl

theorem Publish.topics (h : Publish c c') : c'.topics = c.topics := by
  cases h
  case quiet hq => cases hq; rfl
  all_goals rfl

theorem Coherent.publish (h : c.Coherent) (hp : Publish c c') : c'.Coherent :=
  h.same (.publish hp) hp.topics

theorem NoStaleId.mark (h : c.NoStaleId)
    (hs : SameSubscriptions c c') (packetId : Option UInt16)
    (hp : c'.pendingRequests = c.pendingRequests.adjust correlationData
      ({ · with published := true, publishPacketId := packetId }))
    (hn : ∀ packetId' responseTopic, packetId = some packetId' →
      ¬c'.Subscribing responseTopic packetId') : c'.NoStaleId := by
  intro correlationData' pending packetId' hl hi responseTopic
  rw [hp] at hl
  by_cases hc : correlationData' = correlationData
  case pos =>
    rw [hc, AList.lookup_adjust] at hl
    have ⟨_, _, hl⟩ := Option.map_eq_some_iff.mp hl
    rw [← hl] at hi
    exact hn packetId' responseTopic hi
  case neg =>
    rw [AList.lookup_adjust_ne hc] at hl
    rw [hs.iff]
    exact h correlationData' pending packetId' hl hi responseTopic

theorem NoStaleId.publish (h : c.NoStaleId) (hp : Publish c c') : c'.NoStaleId := by
  have hs := SameSubscriptions.publish hp
  cases hp
  case quiet hq => cases hq; exact h
  case qos1 packetId entry _ _ _ hp =>
    refine h.mark hs (some packetId) rfl fun packetId' responseTopic he => ?_
    cases he
    refine not_subscribing_of_lookup (AList.lookup_insert _) (fun ⟨_, hk⟩ => ?_) responseTopic
    rw [hp.kind] at hk
    cases hk
  case qos0 => exact h.mark hs none rfl nofun

theorem Coherent.move (h : c.Coherent) (hn : c.NoStaleId) (hm : Move c c') :
    c'.Coherent ∧ c'.NoStaleId := by
  cases hm
  case shift hs => exact h.shift hn hs
  case publish hp => exact ⟨h.publish hp, hn.publish hp⟩

-- A response topic is subscribed to for the first time.
theorem Coherent.subscribe (h : c.Coherent)
    (hs : c.Subscribes responseTopic packetId entry bytes) :
    (((c.await packetId entry).subscribing responseTopic).push
      (subscriptionFrame responseTopic bytes)).Coherent := by
  have hno : ∀ packetId', ¬c.Subscribing responseTopic packetId' := by
    intro packetId' h'
    have hc := (h.subscribing responseTopic).mpr ⟨packetId', h'⟩
    rw [hs.absent] at hc
    cases hc
  generalize hc : MqttConnection.push _ _ = c'
  have hp : c'.pendingAcks = c.pendingAcks.insert packetId entry := by subst hc; rfl
  have hr : c'.responseSubscriptions =
      c.responseSubscriptions.insert responseTopic .subscribing := by subst hc; rfl
  have hm : c'.maxPendingOperations = c.maxPendingOperations := by subst hc; rfl
  have hi : ∀ responseTopic' packetId', c'.Subscribing responseTopic' packetId' ↔
      c.Subscribing responseTopic' packetId' ∨
        (responseTopic' = responseTopic ∧ packetId' = packetId) := by
    intro responseTopic' packetId'
    by_cases he : packetId' = packetId
    case pos =>
      subst he
      have hf := not_subscribing_of_none (AList.lookup_eq_none.mpr hs.free.fresh) responseTopic'
      rw [Subscribing, hp, AList.lookup_insert, or_iff_right hf, and_iff_left rfl]
      refine ⟨fun ⟨_, hl, hk⟩ => ?_, fun he => ⟨entry, rfl, by rw [hs.kind, he]⟩⟩
      cases hl
      rw [hs.kind] at hk
      cases hk
      rfl
    case neg =>
      rw [Subscribing, hp, AList.lookup_insert_ne he, or_iff_left fun h => he h.right]
      rfl
  refine ⟨fun responseTopic' => ?_, fun responseTopic' packetId' packetId'' h' h'' => ?_, ?_⟩
  case refine_1 =>
    rw [hr]
    by_cases he : responseTopic' = responseTopic
    case pos =>
      rw [he, AList.lookup_insert]
      exact iff_of_true rfl ⟨packetId, (hi _ _).mpr (.inr ⟨rfl, rfl⟩)⟩
    case neg =>
      rw [AList.lookup_insert_ne he, h.subscribing]
      refine exists_congr fun packetId' => ?_
      rw [hi, or_iff_left fun h => he h.left]
  case refine_2 =>
    rcases (hi _ _).mp h' with h' | ⟨he', hp'⟩ <;> rcases (hi _ _).mp h'' with h'' | ⟨he'', hp''⟩
    case inl.inl => exact h.unique _ _ _ h' h''
    case inl.inr => exact absurd (he'' ▸ h') (hno _)
    case inr.inl => exact absurd (he' ▸ h'') (hno _)
    case inr.inr => rw [hp', hp'']
  case refine_3 =>
    rw [hr, hm, AList.length_insert_of_notMem (AList.lookup_eq_none.mp hs.absent)]
    exact hs.bound

theorem Coherent.begin (h : c.Coherent) (hb : Begin c c') : c'.Coherent := by
  cases hb
  case publish hp => exact h.publish hp
  case await entry _ _ ha =>
    have hk : ¬entry.kind.IsSubscription := fun ⟨_, hk⟩ => by
      have hw := ha.waiter
      rw [hk] at hw
      cases hw
    exact h.same (.insert ha.free.fresh hk rfl) rfl
  case subscribe hs => exact h.subscribe hs
  case withdraw pending correlationData e hi _ =>
    have hs := SameSubscriptions.withoutRequest (c := c) correlationData pending
      fun packetId hp => by rw [hi] at hp; cases hp
    have h := h.same hs (topics_withoutRequest correlationData pending)
    exact h.same (.of_eq rfl) rfl
  all_goals exact h.same (.of_eq rfl) rfl

theorem Coherent.enter (h : c.Coherent) (he : Enter c c') : c'.Coherent := by
  cases he
  case begin hb => exact h.begin hb
  all_goals exact h.same (.of_eq rfl) rfl

-- An acknowledgement arrives.

-- The success of an UNSUBSCRIBE for a topic that is being subscribed to.
def Unsubscribes (c : MqttConnection) : Packet → Prop
  | .unsubAck ack => (unsubackReply ack).isOk = true ∧
    ∃ pending ∈ c.pendingAcks.lookup ack.packetId, ∃ filter ∈ pending.kind.filter?,
      c.responseSubscriptions.lookup filter = some .subscribing
  | _ => False

instance : (packet : Packet) → Decidable (c.Unsubscribes packet)
  | .unsubAck ack => inferInstanceAs (Decidable ((unsubackReply ack).isOk = true ∧
    ∃ pending ∈ c.pendingAcks.lookup ack.packetId, ∃ filter ∈ pending.kind.filter?,
      c.responseSubscriptions.lookup filter = some .subscribing))
  | .connect _ | .connAck _ | .publish _ | .pubAck _ | .subscribe _ | .subAck _ | .unsubscribe _
  | .pingReq | .pingResp | .disconnect _ => isFalse nofun

theorem subscriptionsAfter_of_other (packet) (hs : ¬kind.IsSubscription)
    (hu : ∀ filter result, kind ≠ .unsubscribe filter result) (subscriptions) :
    subscriptionsAfter packet kind subscriptions = subscriptions := by
  cases kind
  case responseSubscribe responseTopic => exact absurd ⟨responseTopic, rfl⟩ hs
  case unsubscribe filter result => exact absurd rfl (hu filter result)
  all_goals cases packet <;> rfl

theorem Coherent.arrived (h : c.Coherent) (reader packet) : (c.arrived reader packet).Coherent :=
  h.same (.of_eq rfl) rfl

theorem Coherent.granted (h : c.Coherent) (hl : c.pendingAcks.lookup packetId = some pending)
    (hk : pending.kind = .responseSubscribe responseTopic)
    (ha : packet.acknowledges = some (.subscribe, packetId)) (replies) :
    (c.acknowledged packetId packet pending.kind replies).Coherent := by
  have hs : c.Subscribing responseTopic packetId := ⟨pending, hl, hk⟩
  have hm : responseTopic ∈ c.responseSubscriptions := by
    refine AList.lookup_isSome.mp ?_
    rw [(h.subscribing responseTopic).mpr ⟨packetId, hs⟩]
    rfl
  cases packet <;> cases ha
  case subAck ack =>
    rw [hk, acknowledged, subscriptionsAfter]
    split
    case isTrue =>
      refine h.settle hs (subscribing_erase rfl) (fun _ hn => AList.lookup_insert_ne hn) ?_ ?_
      case refine_1 => simp [AList.lookup_insert]
      case refine_2 => exact (AList.length_insert_of_mem hm _).trans_le h.bound
    case isFalse =>
      refine h.settle hs (subscribing_erase rfl) (fun _ hn => AList.lookup_erase_ne hn) ?_ ?_
      case refine_1 => simp [AList.lookup_erase]
      case refine_2 => exact (AList.length_erase_le _ _).trans h.bound

theorem Coherent.dropped (h : c.Coherent)
    (hn : c.responseSubscriptions.lookup filter ≠ some .subscribing) (hs : SameSubscriptions c c')
    (hr : c'.responseSubscriptions = c.responseSubscriptions.erase filter)
    (hm : c'.maxPendingOperations = c.maxPendingOperations) : c'.Coherent := by
  refine ⟨fun responseTopic => ?_, ?_, ?_⟩
  case refine_1 =>
    rw [exists_congr (hs.iff responseTopic), ← h.subscribing, hr]
    by_cases he : responseTopic = filter
    case pos =>
      subst he
      rw [AList.lookup_erase]
      exact iff_of_false nofun hn
    case neg => rw [AList.lookup_erase_ne he]
  case refine_2 =>
    intro responseTopic packetId packetId' h' h''
    exact h.unique _ _ _ ((hs.iff _ _).mp h') ((hs.iff _ _).mp h'')
  case refine_3 =>
    rw [hr, hm]
    exact (AList.length_erase_le _ _).trans h.bound

theorem Coherent.unsubscribed (h : c.Coherent) (hl : c.pendingAcks.lookup packetId = some pending)
    (hk : pending.kind = .unsubscribe filter result)
    (ha : packet.acknowledges = some (.unsubscribe, packetId)) (hn : ¬c.Unsubscribes packet)
    (replies) : (c.acknowledged packetId packet pending.kind replies).Coherent := by
  have hs : ∀ c' : MqttConnection, c'.pendingAcks = c.pendingAcks.erase packetId →
      SameSubscriptions c c' := fun c' => .erase <|
    not_subscribing_of_lookup hl fun ⟨_, hr⟩ => by rw [hk] at hr; cases hr
  cases packet <;> cases ha
  case unsubAck ack =>
    rw [hk, acknowledged, subscriptionsAfter]
    split
    case isTrue ho =>
      refine h.dropped (fun hr => hn ?_) (hs _ rfl) rfl rfl
      exact ⟨ho, pending, hl, filter, by rw [hk]; rfl, hr⟩
    case isFalse => exact h.same (hs _ rfl) rfl

theorem Coherent.receipt (h : c.Coherent) (hn : ¬c.Unsubscribes packet)
    (ha : packet.acknowledges = some (k, packetId)) (hr : Receipt packet k packetId c c') :
    c'.Coherent := by
  cases hr
  case unknown => exact h
  case mismatched => exact h
  case taken pending replies hl hk _ =>
    by_cases hs : pending.kind.IsSubscription
    case pos =>
      have ⟨responseTopic, hs⟩ := hs
      rw [hs] at hk
      exact h.granted hl hs (by rw [ha, ← hk]; rfl) replies
    case neg =>
      by_cases hu : ∃ filter result, pending.kind = .unsubscribe filter result
      case pos =>
        have ⟨filter, result, hu⟩ := hu
        rw [hu] at hk
        exact h.unsubscribed hl hu (by rw [ha, ← hk]; rfl) hn replies
      case neg =>
        have hu : ∀ filter result, pending.kind ≠ .unsubscribe filter result :=
          fun filter result he => hu ⟨filter, result, he⟩
        refine h.same (.erase (not_subscribing_of_lookup hl hs) rfl) ?_
        rw [topics, acknowledged, subscriptionsAfter_of_other packet hs hu]
        rfl

theorem NoStaleId.receipt (h : c.NoStaleId) (hr : Receipt packet k packetId c c') : c'.NoStaleId := by
  cases hr
  case unknown => exact h
  case mismatched => exact h
  case taken =>
    exact h.mono (fun _ _ hs => ((subscribing_erase rfl _ _).mp hs).left) fun _ _ hl => hl

-- A message arrives.
theorem Handled.coherent (h : c.Coherent) (hn : c.NoStaleId) (hh : Handled packet c r) :
    r.state.Coherent := by
  have ha : ∀ {c₁}, Acked packet c c₁ → c₁.Coherent ∧ c₁.NoStaleId := by
    intro c₁ ha
    cases ha
    case qos0 => exact ⟨h, hn⟩
    case qos1 => exact ⟨h.same (.of_eq rfl) rfl, hn⟩
  cases hh
  case response correlationData pending hc hr =>
    have ⟨h, hn⟩ := ha hc
    have ⟨h, _⟩ := h.shift hn (.remove none hr.right.left)
    exact h.same (.of_eq rfl) rfl
  case event hc _ => exact (ha hc).left.same (.of_eq rfl) rfl
  case error hc =>
    rcases hc with rfl | hc
    case inl => exact h
    case inr => exact (ha hc).left

theorem Coherent.dispatch (h : c.Coherent) (hn : c.NoStaleId) (hu : ¬c.Unsubscribes packet)
    (hd : ∀ disconnect, packet ≠ .disconnect disconnect) :
    (dispatchPacket packet c).state.Coherent := by
  cases ha : packet.acknowledges
  case some asked =>
    have ⟨c', hr, hm⟩ := (dispatchPacket_acknowledges (c := c) ha).receipt
    have hp : c'.Coherent ∧ c'.NoStaleId := ⟨h.receipt hu ha hr, hn.receipt hr⟩
    exact (hm.preserves (P := fun c => c.Coherent ∧ c.NoStaleId)
      (fun _ _ hm h => h.left.move h.right hm) hp).left
  case none =>
    cases packet
    case publish packet => exact (dispatchPublish_handled c packet).coherent h hn
    case pingResp => exact h.same (.of_eq rfl) rfl
    case disconnect disconnect => exact absurd rfl (hd disconnect)
    case pubAck => cases ha
    case subAck => cases ha
    case unsubAck => cases ha
    all_goals exact h

theorem Coherent.shifts (h : c.Coherent) (hn : c.NoStaleId) (hs : ReflTransGen Shift c c') :
    c'.Coherent :=
  (hs.preserves (P := fun c => c.Coherent ∧ c.NoStaleId) (fun _ _ hs h => h.left.shift h.right hs)
    ⟨h, hn⟩).left

theorem Coherent.outside (h : c.Coherent) (ho : Outside c input c') : c'.Coherent := by
  cases ho
  case reorder packetId _ => exact h.same (.fade (.adjust_id _ _ packetId)) rfl
  all_goals exact h.same (.of_eq rfl) rfl

-- The transport has nothing to do with it.

def subscriptions (c : MqttConnection) :=
  (c.pendingAcks, c.topics)

theorem Coherent.apart (h : c.Coherent) (hs : c'.subscriptions = c.subscriptions) : c'.Coherent :=
  h.same (.of_eq (congrArg (·.1) hs)) (congrArg (·.2) hs)

theorem Announce.subscriptions (h : Announce reason c c') : c'.subscriptions = c.subscriptions := by
  cases h <;> rfl

theorem Write.subscriptions (h : Write frame rest c c') : c'.subscriptions = c.subscriptions := by
  cases h <;> rfl

theorem Flush.subscriptions (h : Flush c c') : c'.subscriptions = c.subscriptions := by
  cases h
  case accept => rfl
  case complete flush _ _ hp =>
    generalize flush.action = action at hp
    cases hp
    case disconnect ha => exact ha.subscriptions
    all_goals rfl

-- What remains to be said once the connection has ended.
structure Bounded (c : MqttConnection) : Prop where
  unique : ∀ responseTopic packetId packetId', c.Subscribing responseTopic packetId →
    c.Subscribing responseTopic packetId' → packetId = packetId'
  bound : c.responseSubscriptions.entries.length ≤ c.maxPendingOperations

theorem Coherent.bounded (h : c.Coherent) : c.Bounded :=
  ⟨h.unique, h.bound⟩

theorem Ends.bounded (he : Ends c c') (h : c.Bounded) : c'.Bounded := by
  have hp : c'.pendingAcks = ∅ := by cases he <;> rfl
  have ht : c'.topics = c.topics := by cases he <;> rfl
  simp only [topics, Prod.mk.injEq] at ht
  refine ⟨fun responseTopic packetId _ hs => ?_, by rw [ht.left, ht.right]; exact h.bound⟩
  exact absurd hs (not_subscribing_of_none (by rw [hp]; rfl) responseTopic)

theorem Bounded.outside (h : c.Bounded) (ho : Outside c input c') : c'.Bounded := by
  have hs : SameSubscriptions c c' := by
    cases ho
    case reorder packetId _ => exact .fade (.adjust_id _ _ packetId)
    all_goals exact .of_eq rfl
  have ht : c'.topics = c.topics := by cases ho <;> rfl
  simp only [topics, Prod.mk.injEq] at ht
  refine ⟨fun _ _ _ h' h'' => ?_, by rw [ht.left, ht.right]; exact h.bound⟩
  exact h.unique _ _ _ ((hs.iff _ _).mp h') ((hs.iff _ _).mp h'')

end MqttConnection

namespace Driver

open MqttConnection

variable {c c' : MqttConnection}

-- Until the connection has ended, the response topics that are being subscribed to are those for
-- which a SUBACK is awaited.
def KeepsTopics (driver : Driver) : Prop :=
  driver.connection.Coherent ∨ (driver.phase.terminated = true ∧ driver.connection.Bounded)

theorem KeepsTopics.bounded {driver : Driver} (h : driver.KeepsTopics) :
    driver.connection.Bounded :=
  h.elim (·.bounded) And.right

theorem coherent_perform {M : MqttConnection → MqttConnection → Prop} {x : DriverM α}
    (h : c.Coherent) (hm : ∀ {c c'}, M c c' → c.Coherent → c'.Coherent)
    (hx : EStateM.Leads M c x) (next) : (perform x next c).KeepsTopics := by
  refine .inl ?_
  rw [perform_connection]
  exact Relation.ReflTransGen.preserves hx (fun _ _ => hm) h

theorem keepsTopics_decode (h : c.Coherent) (hn : c.NoStaleId)
    (hu : ∀ packet, dispatches ⟨c, .decodeAndDispatch⟩ .proceed = some packet →
      ¬c.Unsubscribes packet) (next) : (perform decodeNext next c).KeepsTopics := by
  rcases perform_decodeNext_cases c next with ⟨reader, p, _, hx⟩ | ⟨packet, reader, hd, hx⟩ <;> rw [hx]
  case inl => exact .inl (h.same (.of_eq rfl) rfl)
  case inr =>
    have ha := h.arrived reader packet
    rcases dispatchPacket_cases (c.arrived reader packet) packet with ⟨_, c', _, hc, he⟩ | hs
    case inl =>
      rw [perform_error hc]
      exact .inr ⟨rfl, he.bounded ha.bounded⟩
    case inr =>
      refine .inl ?_
      rw [perform_connection]
      exact ha.dispatch hn (hu packet (dispatches_of_decoded hd)) hs

theorem KeepsTopics.step {driver driver' : Driver} (h : driver.KeepsTopics)
    (hn : driver.connection.NoStaleId)
    (hu : ∀ packet, driver.dispatches input = some packet →
      ¬driver.connection.Unsubscribes packet)
    (hs : Does driver input driver') : driver'.KeepsTopics := by
  rcases h with h | ⟨ht, h⟩
  case inl =>
    cases hs
    case pass => exact .inl h
    case wake => exact .inl h
    case shift hm => exact .inl (h.shifts hn hm)
    case command command rest c _ _ _ _ =>
      have h : (c.dequeued command rest).Coherent := h.same (.of_eq rfl) rfl
      exact coherent_perform h (fun he h => h.enter he)
        (processCommand_enters (mem_taken_dequeued ..)) _
    case abandon c _ _ _ =>
      rcases abandonCommands_enters (c := c) with ha | ⟨e, ha⟩
      case inl => exact coherent_perform h (fun he h => h.enter he) ha _
      case inr =>
        rw [perform_error ha]
        exact .inl (h.same (.of_eq rfl) rfl)
    case keepAlive =>
      exact coherent_perform h (fun hb h => h.begin hb) maintainKeepAlive_begins _
    case write =>
      refine .inl ?_
      rw [perform_connection]
      exact h.apart (writeFront_writes ..).subscriptions
    case flush =>
      exact coherent_perform h (fun hf h => h.apart hf.subscriptions) flushAccepted_flushes _
    case read result c _ _ _ =>
      refine .inl ?_
      rw [perform_connection]
      have hr := readNext_receives (c := c) result
      generalize (readNext result c).state = c' at hr ⊢
      cases hr
      case idle => exact h
      case close ha => exact h.apart ha.subscriptions
      case receive => exact h.same (.of_eq rfl) rfl
    case decode => exact keepsTopics_decode h hn hu _
    case finish c result =>
      have ⟨c', hf, he⟩ := finish_ends c result
      rw [perform_ok hf]
      exact .inr ⟨rfl, he.bounded h.bounded⟩
    case outside ho => exact .inl (h.outside ho)
  case inr =>
    refine .inr ?_
    rcases hs.of_not_running (Phase.running_of_terminated ht) with ⟨_, _, hp, hm⟩ | ⟨hp, hm⟩
    case inl => exact ⟨by rw [hp]; rfl, hm.bounded h⟩
    case inr => exact ⟨by rw [hp]; exact ht, h.outside hm⟩

-- No request holds on to a packet identifier that has been given to a subscription.
def KeepsIds (driver : Driver) (inputs : List Input) : Prop :=
  driver.Throughout inputs fun earlier _ => earlier.connection.NoStaleId

-- No UNSUBSCRIBE for a response topic succeeds while the driver is waiting for its SUBACK.
def UnsubscribesFirst (driver : Driver) (inputs : List Input) : Prop :=
  driver.Throughout inputs fun earlier input =>
    ∀ packet ∈ earlier.dispatches input, ¬earlier.connection.Unsubscribes packet

theorem coherent_start (options connack clock) :
    (start options connack clock).connection.Coherent := by
  have hn : ∀ responseTopic packetId,
      ¬(start options connack clock).connection.Subscribing responseTopic packetId :=
    fun responseTopic packetId => not_subscribing_of_none rfl responseTopic
  refine ⟨fun responseTopic => iff_of_false nofun fun ⟨packetId, h⟩ => hn _ _ h, ?_, Nat.zero_le _⟩
  exact fun _ _ _ h => absurd h (hn _ _)

theorem keepsTopics_run {clock : Clock} (h : (start options connack clock).run inputs = some driver)
    (hi : (start options connack clock).KeepsIds inputs)
    (hu : (start options connack clock).UnsubscribesFirst inputs) : driver.KeepsTopics := by
  have hs : (start options connack clock).KeepsTopics := .inl (coherent_start options connack clock)
  refine run_preserves_if (P := KeepsTopics) ?_ hs (hi.and hu) h
  exact fun _ _ _ _ _ h hc hs => h.step hc.left hc.right (step_does hs)

-- Under these conditions, the driver knows which SUBACKs for response topics it is waiting for, waits
-- for one for each topic at most, and does not remember more topics than it may.
theorem response_topics_coherent (options : ConnectOptions) (connack : ConnAckPacket)
    (clock : Clock) (inputs : List Input) (driver : Driver)
    (h : (start options connack clock).run inputs = some driver)
    (hi : (start options connack clock).KeepsIds inputs)
    (hu : (start options connack clock).UnsubscribesFirst inputs) :
    (driver.phase.terminated = false → ∀ responseTopic,
      driver.connection.responseSubscriptions.lookup responseTopic = some .subscribing ↔
        ∃! packetId, driver.connection.Subscribing responseTopic packetId) ∧
      driver.connection.Bounded := by
  have hk := keepsTopics_run h hi hu
  refine ⟨fun ht responseTopic => ?_, hk.bounded⟩
  rcases hk with hk | ⟨ht', _⟩
  case inr => exact absurd (ht'.symm.trans ht) nofun
  case inl =>
    rw [hk.subscribing]
    refine ⟨fun ⟨packetId, hs⟩ => ⟨packetId, hs, fun packetId' hs' => ?_⟩, fun h => h.exists⟩
    exact hk.unique responseTopic packetId' packetId hs' hs

-- A request subscribes to its response topic and is published.
def subscribedAndPublished : List Input :=
  [.submit (.request { plainRequest with qos := .atLeastOnce } 0), .proceed, .proceed, .proceed,
    .proceed, .written (.ok 9), .proceed, .flushed (.ok ()), .read (.ok [0x90, 4, 0, 1, 0, 1]),
    .read (.error { kind := .wouldBlock }), .proceed, .proceed, .proceed, .proceed, .proceed,
    .written (.ok 8), .proceed, .flushed (.ok ()), .proceed]

-- The topic is unsubscribed from by somebody who waits for it, and another request subscribes to it
-- again.
def resubscribing : List Input :=
  subscribedAndPublished ++
    ([.submit (.unsubscribe "t" 1), .proceed, .proceed, .proceed, .proceed, .written (.ok 8), .proceed,
      .flushed (.ok ()), .read (.ok [0xB0, 4, 0, 3, 0, 0]), .read (.error { kind := .wouldBlock }),
      .proceed, .proceed, .proceed, .proceed, .proceed, .proceed, .proceed, .proceed,
      .submit (.request { plainRequest with correlationData := [2] } 2), .proceed, .proceed,
      .proceed, .proceed, .written (.ok 9), .proceed, .flushed (.ok ())] : List Input)

theorem response_topics_coherent_resubscribing :
    ∃ driver, (start plainOptions plainConnack stillClock).run resubscribing = some driver ∧
      driver.connection.replies = [(1, .ok (.subscription { packetId := 3, reasonCodes := [0] }))] ∧
      driver.connection.Subscribing "t" 4 ∧
      driver.connection.responseSubscriptions.lookup "t" = some .subscribing := by
  have ⟨driver, hr, ht, ha, hs⟩ := exists_run (start plainOptions plainConnack stillClock)
    resubscribing (fun driver => driver.phase.terminated = false ∧
      driver.connection.replies = [(1, .ok (.subscription { packetId := 3, reasonCodes := [0] }))] ∧
      driver.connection.Subscribing "t" 4) (by decide +kernel)
  have h := response_topics_coherent plainOptions plainConnack stillClock resubscribing driver hr
    (by unfold KeepsIds; decide +kernel) (by unfold UnsubscribesFirst; decide +kernel)
  refine ⟨driver, hr, ha, hs, (h.left ht "t").mpr ⟨4, hs, fun packetId hp => ?_⟩⟩
  exact h.right.unique "t" packetId 4 hp hs

-- The response topic is unsubscribed from just before a request subscribes to it.
def unsubscribingFirst : List Input :=
  [.submit (.unsubscribe "t" 0), .submit (.request plainRequest 1), .proceed, .proceed, .proceed,
    .proceed, .proceed, .written (.ok 8), .written (.ok 9), .proceed, .flushed (.ok ()),
    .read (.ok [0xB0, 4, 0, 1, 0, 0]), .read (.error { kind := .wouldBlock }), .proceed]

theorem subscription_forgotten :
    ∃ driver, (start plainOptions plainConnack stillClock).run unsubscribingFirst = some driver ∧
      (start plainOptions plainConnack stillClock).AnswersFrames (fun _ => true)
        unsubscribingFirst ∧
      (start plainOptions plainConnack stillClock).AnswersInOrder unsubscribingFirst ∧
      driver.phase.terminated = false ∧
      ¬∀ responseTopic, driver.connection.responseSubscriptions.lookup responseTopic =
        some .subscribing ↔ ∃! packetId, driver.connection.Subscribing responseTopic packetId := by
  have ⟨driver, hr, ht, hs, hk⟩ := exists_run (start plainOptions plainConnack stillClock)
    unsubscribingFirst
    (fun driver => driver.phase.terminated = false ∧
      driver.connection.responseSubscriptions.lookup "t" = none ∧
        driver.connection.pendingAcks.keys = [2] ∧ driver.connection.Subscribing "t" 2)
    (by decide +kernel)
  refine ⟨driver, hr, by unfold AnswersFrames; decide +kernel,
    by unfold AnswersInOrder; decide +kernel, ht, fun h => ?_⟩
  have hc := (h "t").mpr ⟨2, hk.right, fun packetId ⟨_, hl, _⟩ => ?_⟩
  case refine_1 =>
    have hm : packetId ∈ driver.connection.pendingAcks := AList.lookup_isSome.mp (by rw [hl]; rfl)
    rw [AList.mem_keys, hk.left] at hm
    exact List.mem_singleton.mp hm
  rw [hs] at hc
  cases hc

end Driver
end MqttWasi
