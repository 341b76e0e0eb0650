import MqttWasi.Driver.Theorems.Deeds
import MqttWasi.Driver.Theorems.Exchange

-- Where the acknowledgements go, and what becomes of the operations, as long as nobody makes requests.

namespace MqttWasi

-- Whether the broker has accepted or rejected an operation.
def Decides (reply : Reply) : Prop :=
  ∀ e, reply = .error e → e.IsRejection

theorem not_decides_of_error {e : Error} (h : ¬e.IsRejection) : ¬Decides (.error e) :=
  fun hd => h (hd e rfl)

theorem filterMap_cons_toList (f : α → Option β) (a : α) (l : List α) :
    (a :: l).filterMap f = (f a).toList ++ l.filterMap f := by
  rw [List.filterMap_cons]
  cases f a <;> rfl

-- Where there are no duplicates, equal values come from the same place.
theorem eq_of_nodup_filterMap {f : α → Option β} {l : List α} (h : (l.filterMap f).Nodup)
    (ha : a ∈ l) (ha' : a' ∈ l) (hf : f a = some b) (hf' : f a' = some b) : a = a' := by
  induction l
  case nil => cases ha
  case cons d l ih =>
    rw [filterMap_cons_toList] at h
    obtain ⟨_, hl, hd⟩ := List.nodup_append.mp h
    cases List.mem_cons.mp ha
    case inl he =>
      subst he
      cases List.mem_cons.mp ha'
      case inl he => exact he.symm
      case inr hm => exact absurd rfl (hd b (by simp [hf]) b (List.mem_filterMap.mpr ⟨a', hm, hf'⟩))
    case inr hm =>
      cases List.mem_cons.mp ha'
      case inl he =>
        subst he
        exact absurd rfl (hd b (by simp [hf']) b (List.mem_filterMap.mpr ⟨a, hm, hf⟩))
      case inr hm' => exact ih hl hm hm'

-- Those who are not listened to any more are not waited for.
theorem sweep_perm (closed : Sender → Bool) (l : List PendingAck) :
    (l.filterMap (·.kind.result?)).Perm
      ((l.map fun pending => if pending.kind.result?.any closed then pending.bury else pending).filterMap
        (·.kind.result?) ++ (l.filterMap (·.kind.result?)).filter closed) := by
  induction l
  case nil => exact .refl _
  case cons pending l ih =>
    rw [List.map_cons, filterMap_cons_toList, filterMap_cons_toList]
    cases hr : pending.kind.result?
    case none => simpa [hr] using ih
    case some result =>
      rw [List.perm_iff_count] at ih ⊢
      intro other
      have ih := ih other
      have hb : pending.bury.kind.result? = none := rfl
      cases hc : closed result <;> simp [hr, hc, hb, List.count_cons] at ih ⊢ <;> omega

namespace MqttConnection

open Relation (ReflTransGen)

-- Every operation that has been taken up is waited for once, or has been answered once, or its
-- receiver was dropped.
def Accounted (c : MqttConnection) : Prop :=
  ∃ dropped, (∀ result ∈ dropped, result ∈ c.droppedReceivers) ∧
    (c.taken.map (·.result)).Perm (c.replies.map (·.1) ++ c.waiting ++ dropped)

-- Who starts to wait, who is told, and who is given up.
structure Balances (c : MqttConnection) (started answered dropped : List Sender) (c' : MqttConnection) :
    Prop where
  taken : c'.taken.map (·.result) = c.taken.map (·.result) ++ started
  replies : c'.replies.map (·.1) = c.replies.map (·.1) ++ answered
  waiting : (c.waiting ++ started).Perm (answered ++ c'.waiting ++ dropped)
  closed : ∀ result ∈ dropped, result ∈ c'.droppedReceivers
  kept : ∀ result ∈ c.droppedReceivers, result ∈ c'.droppedReceivers

-- Somebody who waits for an acknowledgement waits for that of his own command.
def Named (c : MqttConnection) : Prop :=
  ∀ packetId entry result, c.pendingAcks.lookup packetId = some entry →
    entry.kind.result? = some result → entry.origin = .command result

-- Every entry is there for a frame that is queued or written and not acknowledged.
def Backed (c : MqttConnection) : Prop :=
  ∀ packetId entry, c.pendingAcks.lookup packetId = some entry →
    ∃ frame ∈ c.inFlight fun _ => true,
      expectedAck frame.bytes = some (entry.kind.ackClass, packetId) ∧ frame.origin = entry.origin

-- Entries are not changed unless their operations are given up, or there is a new one for a new frame.
-- No frame stops to be in flight.
inductive Issues (c : MqttConnection) : MqttConnection → Prop
  | fades : (Fades (fun _ => True) c.pendingAcks c'.pendingAcks) →
    (c.inFlight (fun _ => true) ⊆ c'.inFlight fun _ => true) → Issues c c'
  | awaits {c₁ : MqttConnection} : (c₁.pendingAcks = c.pendingAcks) →
    (c₁.inFlight (fun _ => true) = c.inFlight fun _ => true) →
    (c₁.peerMaxPacketSize = c.peerMaxPacketSize) → (c₁.Awaits packetId entry result bytes) →
    Issues c ((c₁.await packetId entry).push (ackedFrame result bytes))

-- While the connection lasts, the entries and the frames in flight belong together.
structure Routed (c : MqttConnection) : Prop where
  orderly : c.Orderly fun _ => true
  backed : c.Backed
  named : c.Named

variable {c c' c₁ : MqttConnection}

theorem Accounted.balances (h : c.Accounted) (hs : c.Balances started answered dropped c') : c'.Accounted := by
  obtain ⟨dropped', hd, hp⟩ := h
  refine ⟨dropped ++ dropped', fun result hm => ?_, ?_⟩
  case refine_1 =>
    cases List.mem_append.mp hm
    case inl hm => exact hs.closed result hm
    case inr hm => exact hs.kept result (hd result hm)
  case refine_2 =>
    have hw := hs.waiting
    rw [hs.taken, hs.replies]
    rw [List.perm_iff_count] at hp hw ⊢
    intro result
    have hp := hp result
    have hw := hw result
    simp only [List.count_append] at hp hw ⊢
    omega

-- Nobody is told anything.
theorem Balances.silent (ht : c'.taken = c.taken) (hr : c'.replies = c.replies)
    (hw : c.waiting.Perm c'.waiting)
    (hd : ∀ result ∈ c.droppedReceivers, result ∈ c'.droppedReceivers) : c.Balances [] [] [] c' :=
  ⟨by rw [ht, List.append_nil], by rw [hr, List.append_nil], by simpa using hw, by simp, hd⟩

-- The operations whose acknowledgement is awaited
def ackWaiters (m : AList fun _ : UInt16 => PendingAck) : List Sender :=
  m.values.filterMap (·.kind.result?)

-- Everybody else who waits
def otherWaiters (c : MqttConnection) : List Sender :=
  c.outbound.filterMap (·.action.result?) ++ c.flushActions.filterMap (·.action.result?) ++
    c.pendingRequests.values.map (·.result)

theorem waiting_eq (c : MqttConnection) : c.waiting = ackWaiters c.pendingAcks ++ c.otherWaiters := by
  simp only [waiting, ackWaiters, otherWaiters, List.append_assoc]

-- The waiter of one operation, and the others
theorem ackWaiters_perm {m : AList fun _ : UInt16 => PendingAck} (h : m.lookup packetId = some pending) :
    (ackWaiters m).Perm (pending.kind.result?.toList ++ ackWaiters (m.erase packetId)) := by
  have hp := (AList.values_perm h).filterMap (·.kind.result?)
  rwa [filterMap_cons_toList] at hp

theorem ackWaiters_insert {m : AList fun _ : UInt16 => PendingAck} (h : packetId ∉ m) (entry) :
    ackWaiters (m.insert packetId entry) = entry.kind.result?.toList ++ ackWaiters m := by
  rw [ackWaiters, AList.values_insert_of_notMem h, filterMap_cons_toList]
  rfl

theorem ackWaiters_adjust {m : AList fun _ : UInt16 => PendingAck} (h : m.lookup packetId = some pending)
    (f : PendingAck → PendingAck) : ackWaiters (m.adjust packetId f) =
      (f pending).kind.result?.toList ++ ackWaiters (m.erase packetId) := by
  rw [ackWaiters, AList.values_adjust h, filterMap_cons_toList]
  rfl

theorem ackWaiters_reorder (m : AList fun _ : UInt16 => PendingAck) (packetId) :
    (ackWaiters m).Perm (ackWaiters (m.adjust packetId id)) := by
  cases hl : m.lookup packetId
  case none => rw [AList.adjust, hl]
  case some pending =>
    rw [ackWaiters_adjust hl]
    exact ackWaiters_perm hl

-- Only the entries are changed.
theorem Balances.acks (ht : c'.taken = c.taken) (hr : c'.replies.map (·.1) = c.replies.map (·.1) ++ answered)
    (ho : c'.otherWaiters = c.otherWaiters)
    (hw : (ackWaiters c.pendingAcks).Perm (answered ++ ackWaiters c'.pendingAcks ++ dropped))
    (hd : c'.droppedReceivers = c.droppedReceivers)
    (hc : ∀ result ∈ dropped, result ∈ c.droppedReceivers) : c.Balances [] answered dropped c' where
  taken := by rw [ht, List.append_nil]
  replies := hr
  waiting := by
    rw [waiting_eq, waiting_eq, ho, List.perm_iff_count]
    rw [List.perm_iff_count] at hw
    intro result
    have hw := hw result
    simp only [List.count_append, List.count_nil] at hw ⊢
    omega
  closed := by rw [hd]; exact hc
  kept := by rw [hd]; exact fun _ => id

theorem Balances.outside (ho : Outside c input c') (hp : c.Plain) : c.Balances [] [] [] c' := by
  cases ho
  case dropReceiver => exact .silent rfl rfl (.refl _) fun _ hm => List.mem_cons_of_mem _ hm
  case reorder packetId correlationData =>
    have hr : c.pendingRequests.adjust correlationData id = c.pendingRequests := by
      rw [AList.adjust, hp.lookup correlationData]
    refine .acks rfl (List.append_nil _).symm ?_ ?_ rfl (by simp)
    case refine_1 => rw [otherWaiters, otherWaiters, hr]
    case refine_2 =>
      rw [List.nil_append, List.append_nil]
      exact ackWaiters_reorder c.pendingAcks packetId
  all_goals exact .silent rfl rfl (.refl _) fun _ => id

theorem Balances.sweep (c : MqttConnection) : c.Balances [] [] ((ackWaiters c.pendingAcks).filter c.isClosed)
    { c with
      pendingAcks := c.pendingAcks.mapValues fun pending =>
        if pending.kind.result?.any c.isClosed then pending.bury else pending } := by
  refine .acks rfl (List.append_nil _).symm rfl ?_ rfl fun result hm => ?_
  case refine_1 =>
    have hs := sweep_perm c.isClosed c.pendingAcks.values
    rwa [← AList.values_mapValues] at hs
  case refine_2 => simpa [isClosed] using (List.mem_filter.mp hm).right

theorem Balances.bury (hl : c.pendingAcks.lookup packetId = some pending)
    (hr : c'.replies.map (·.1) = c.replies.map (·.1) ++ pending.kind.result?.toList)
    (ht : c'.taken = c.taken) (ho : c'.otherWaiters = c.otherWaiters)
    (hp : c'.pendingAcks = c.pendingAcks.adjust packetId PendingAck.bury)
    (hd : c'.droppedReceivers = c.droppedReceivers) :
    c.Balances [] pending.kind.result?.toList [] c' := by
  refine .acks ht hr ho ?_ hd (by simp)
  have hb : pending.bury.kind.result? = none := rfl
  rw [hp, ackWaiters_adjust hl, hb, List.append_nil]
  exact ackWaiters_perm hl

theorem Balances.receipt (hr : Receipt packet k packetId c c') : ∃ answered, c.Balances [] answered [] c' := by
  cases hr
  case unknown => exact ⟨[], .silent rfl rfl (.refl _) fun _ => id⟩
  case mismatched => exact ⟨[], .silent rfl rfl (.refl _) fun _ => id⟩
  case taken pending answers hl hk ht =>
    have ha : answers.map (·.1) = pending.kind.result?.toList := by
      cases ht
      case nobody hn => rw [hn]; rfl
      case waiter hw _ => rw [hw]; rfl
    refine ⟨_, .acks rfl (by rw [acknowledged, List.map_append, ha]) rfl ?_ rfl (by simp)⟩
    rw [List.append_nil]
    exact ackWaiters_perm hl

theorem Balances.ends (he : Ends c c') : c.Balances [] c.waiting [] c' := by
  have hr : (c.closed).replies.map (·.1) = c.replies.map (·.1) ++ c.waiting := by
    simp [MqttConnection.closed, MqttConnection.told, Function.comp_def]
  have hw : c'.waiting = [] := by cases he <;> rfl
  have hk : c'.taken = c.taken ∧ c'.droppedReceivers = c.droppedReceivers ∧
      c'.replies = c.closed.replies := by cases he <;> exact ⟨rfl, rfl, rfl⟩
  refine ⟨?_, ?_, ?_, by simp, ?_⟩
  case refine_1 => rw [hk.left, List.append_nil]
  case refine_2 => rw [hk.right.right, hr]
  case refine_3 => rw [hw, List.append_nil, List.append_nil]
  case refine_4 => rw [hk.right.left]; exact fun _ => id

theorem Balances.write (ho : c.outbound = frame :: rest) (hw : Write frame rest c c') :
    c.Balances [] [] [] c' := by
  cases hw
  case none => exact .silent rfl rfl (.refl _) fun _ => id
  case part =>
    refine .silent rfl rfl ?_ fun _ => id
    rw [waiting_eq, waiting_eq, otherWaiters, ho]
    rfl
  case whole =>
    refine .silent rfl rfl ?_ fun _ => id
    rw [waiting_eq, waiting_eq, otherWaiters, otherWaiters, ho, filterMap_cons_toList,
      List.filterMap_append, filterMap_cons_toList, List.filterMap_nil, List.perm_iff_count]
    intro result
    simp only [List.count_append, List.count_nil]
    omega

theorem Balances.flush (hf : Flush c c') : ∃ answered, c.Balances [] answered [] c' := by
  cases hf
  case accept => exact ⟨[], .silent rfl rfl (.refl _) fun _ => id⟩
  case complete flush rest hf hp =>
    -- Nobody but the waiter of the frame stops to wait.
    have hs (c' : MqttConnection) (ht : c'.taken = c.taken)
        (hr : c'.replies.map (·.1) = c.replies.map (·.1) ++ flush.action.result?.toList)
        (ho : c'.outbound = c.outbound) (hl : c'.flushActions = rest)
        (ha : c'.pendingAcks = c.pendingAcks) (hq : c'.pendingRequests = c.pendingRequests)
        (hd : c'.droppedReceivers = c.droppedReceivers) :
        ∃ answered, c.Balances [] answered [] c' := by
      refine ⟨_, by rw [ht, List.append_nil], hr, ?_, by simp, by rw [hd]; exact fun _ => id⟩
      rw [waiting_eq, waiting_eq, otherWaiters, otherWaiters, ho, hl, ha, hq, hf,
        filterMap_cons_toList, List.perm_iff_count]
      intro result
      simp only [List.count_append, List.count_nil]
      omega
    generalize flush.action = action at hp hs
    cases hp
    case none => exact hs _ rfl (List.append_nil _).symm rfl rfl rfl rfl rfl
    case publishQos0 => exact hs _ rfl (List.map_append ..) rfl rfl rfl rfl rfl
    case pingReq => exact hs _ rfl (List.append_nil _).symm rfl rfl rfl rfl rfl
    case disconnect ha =>
      cases ha <;> exact hs _ rfl (List.map_append ..) rfl rfl rfl rfl rfl
    case abandonedDisconnect => exact hs _ rfl (List.append_nil _).symm rfl rfl rfl rfl rfl

theorem Balances.push (c : MqttConnection) (frame) :
    (c.waiting ++ frame.action.result?.toList).Perm (c.push frame).waiting := by
  rw [waiting_eq, waiting_eq, otherWaiters, otherWaiters, MqttConnection.push, List.filterMap_append,
    filterMap_cons_toList, List.filterMap_nil, List.perm_iff_count]
  intro result
  simp only [List.count_append, List.count_nil]
  omega

-- A command is refused, or somebody waits for what becomes of it.
theorem Takes.balances (ht : Takes command c c') : ∃ answered,
    c'.replies.map (·.1) = c.replies.map (·.1) ++ answered ∧
      (c.waiting ++ [command.result]).Perm (answered ++ c'.waiting) := by
  cases ht
  case refuse => exact ⟨[command.result], List.map_append .., List.perm_append_comm⟩
  case await packetId entry bytes _ ha =>
    have hw := Balances.push (c.await packetId entry) (ackedFrame command.result bytes)
    refine ⟨[], (List.append_nil _).symm, .trans ?_ hw⟩
    rw [waiting_eq, waiting_eq, MqttConnection.await, ackWaiters_insert ha.free.fresh, ha.waiter,
      List.perm_iff_count]
    intro result
    simp only [List.count_append, otherWaiters, ackedFrame, WrittenAction.result?, WrittenAction.reply?,
      Option.map_none, Option.toList_none, Option.toList_some, List.count_nil]
    omega
  case queue => exact ⟨[], (List.append_nil _).symm, Balances.push c (messageFrame command.result _)⟩
  case disconnect => exact ⟨[], (List.append_nil _).symm, Balances.push c (disconnectFrame command.result)⟩

theorem Balances.take (ha : Accepts command (c.dequeued command rest) c') :
    ∃ answered, c.Balances [command.result] answered [] c' := by
  obtain ⟨c₁, hq, ht⟩ := ha
  have hc : c₁.taken = c.taken ++ [command] ∧ c₁.replies = c.replies ∧ c₁.waiting = c.waiting ∧
      c₁.droppedReceivers = c.droppedReceivers := by
    cases hq
    exact ⟨rfl, rfl, rfl, rfl⟩
  obtain ⟨htk, hr, hw, hd⟩ := hc
  obtain ⟨answered, hr', hw'⟩ := ht.balances
  have hk : c'.taken = c₁.taken ∧ c'.droppedReceivers = c₁.droppedReceivers := by
    cases ht <;> exact ⟨rfl, rfl⟩
  refine ⟨answered, ?_, ?_, ?_, by simp, ?_⟩
  case refine_1 => rw [hk.left, htk, List.map_append]; rfl
  case refine_2 => rw [hr', hr]
  case refine_3 => rw [← hw, List.append_nil]; exact hw'
  case refine_4 => rw [hk.right, hd]; exact fun _ => id

theorem Deed.balances (hd : Deed c c') (hp : c.Plain) :
    ∃ started answered dropped, c.Balances started answered dropped c' := by
  cases hd
  case other => exact ⟨[], [], [], .silent rfl rfl (.refl _) fun _ => id⟩
  case outside ho => exact ⟨[], [], [], .outside ho hp⟩
  case sweep => exact ⟨[], [], _, .sweep c⟩
  case expire pending packetId _ hl =>
    refine ⟨[], _, [], .bury hl ?_ rfl rfl rfl rfl⟩
    cases hr : pending.kind.result? <;> simp
  case forget hk hl =>
    refine ⟨[], _, [], .bury hl ?_ rfl rfl rfl rfl⟩
    rw [hk]
    exact (List.append_nil _).symm
  case take ha =>
    obtain ⟨answered, hs⟩ := Balances.take ha
    exact ⟨_, answered, [], hs⟩
  case push frame hn _ _ _ =>
    have hw := Balances.push c frame
    rw [WrittenAction.result?, hn, Option.map_none, Option.toList_none, List.append_nil] at hw
    exact ⟨[], [], [], .silent rfl rfl hw fun _ => id⟩
  case write ho hw => exact ⟨[], [], [], .write ho hw⟩
  case flush hf =>
    obtain ⟨answered, hs⟩ := Balances.flush hf
    exact ⟨[], answered, [], hs⟩
  case arrive => exact ⟨[], [], [], .silent rfl rfl (.refl _) fun _ => id⟩

theorem Deed.accounted (hd : Deed c c') (hp : c.Plain) (h : c.Accounted) : c'.Accounted := by
  obtain ⟨_, _, _, hs⟩ := hd.balances hp
  exact h.balances hs

theorem Issues.same (hp : c'.pendingAcks = c.pendingAcks)
    (hi : c.inFlight (fun _ => true) ⊆ c'.inFlight fun _ => true) : Issues c c' :=
  .fades (fun _ => .inl (by rw [hp])) hi

theorem inFlight_subset_push (frame) :
    c.inFlight (fun _ => true) ⊆ (c.push frame).inFlight fun _ => true := by
  rw [inFlight_push]
  exact List.subset_append_left _ _

theorem Issues.quiet (hq : Quiet c c₁) (h : Issues c₁ c') : Issues c c' := by
  cases hq
  cases h
  case fades hf hi => exact .fades hf hi
  case awaits hp hi hm ha => exact .awaits hp hi hm ha

theorem Takes.issues (ht : Takes command c c') : Issues c c' := by
  cases ht
  case refuse => exact .same rfl fun _ => id
  case await ha => exact .awaits rfl rfl rfl ha
  case queue => exact .same rfl (inFlight_subset_push _)
  case disconnect => exact .same rfl (inFlight_subset_push (disconnectFrame command.result))

theorem Deed.issues (hd : Deed c c') (h : c.Orderly fun _ => true) : Issues c c' := by
  cases hd
  case other => exact .same rfl fun _ => id
  case outside ho =>
    cases ho
    case reorder packetId _ _ => exact .fades (.adjust_id _ c.pendingAcks packetId) fun _ => id
    all_goals exact .same rfl fun _ => id
  case sweep =>
    refine .fades (fun packetId => ?_) fun _ => id
    exact (Fades.sweep c.pendingAcks c.isClosed packetId).imp_right fun ⟨pending, hl, _, hb⟩ =>
      ⟨pending, hl, True.intro, hb⟩
  case expire hl => exact .fades (Fades.adjust_bury hl True.intro) fun _ => id
  case forget hl => exact .fades (Fades.adjust_bury hl True.intro) fun _ => id
  case take ha =>
    obtain ⟨_, hq, ht⟩ := ha
    cases ht.issues.quiet hq
    case fades hf hi => exact .fades hf hi
    case awaits hp hi hm ha => exact .awaits hp hi hm ha
  case push frame _ _ _ _ => exact .same rfl (inFlight_subset_push frame)
  case write ho hw =>
    refine .same hw.pendingAcks ?_
    rw [(hw.inFlight ho h.matched).right]
    exact fun _ => id
  case flush hf =>
    cases hf
    case accept => exact .same rfl fun _ => id
    case complete flush _ _ hp =>
      generalize flush.action = action at hp
      cases hp
      case disconnect ha => cases ha <;> exact .same rfl fun _ => id
      all_goals exact .same rfl fun _ => id
  case arrive packet reader hn =>
    refine .same rfl fun _ hm => ?_
    rw [inFlight, unanswered, acks_arrived, hn, Option.toList_none, List.filter_nil, List.append_nil]
    exact hm

theorem Named.issues (h : c.Named) (hs : Issues c c') : c'.Named := by
  intro packetId entry result hl hr
  cases hs
  case fades hf _ =>
    rcases hf packetId with hl' | ⟨pending, _, _, hl'⟩
    case inl => exact h packetId entry result (hl'.symm.trans hl) hr
    case inr =>
      rw [hl', Option.some.injEq] at hl
      rw [← hl] at hr
      cases hr
  case awaits packetId' entry' result' bytes c₁ hp _ _ ha =>
    by_cases he : packetId = packetId'
    case pos =>
      subst he
      obtain rfl : entry' = entry := Option.some.inj ((AList.lookup_insert _).symm.trans hl)
      rw [ha.waiter, Option.some.injEq] at hr
      exact hr ▸ ha.origin
    case neg =>
      have hl' := (AList.lookup_insert_ne he).symm.trans hl
      rw [hp] at hl'
      exact h packetId entry result hl' hr

theorem Backed.issues (h : c.Backed) (hs : Issues c c') (ho : c.Orderly fun _ => true) : c'.Backed := by
  intro packetId entry hl
  cases hs
  case fades hf hi =>
    rcases hf packetId with hl' | ⟨pending, hp, _, hl'⟩
    case inl =>
      obtain ⟨frame, hm, he⟩ := h packetId entry (hl'.symm.trans hl)
      exact ⟨frame, hi hm, he⟩
    case inr =>
      rw [hl', Option.some.injEq] at hl
      obtain ⟨frame, hm, he⟩ := h packetId pending hp
      rw [← hl]
      exact ⟨frame, hi hm, he⟩
  case awaits packetId' entry' result' bytes c₁ hp hi hmax ha =>
    have hx : expectedAck bytes = some (entry'.kind.ackClass, packetId') := by
      have hlt := Nat.lt_of_le_of_lt ha.fits.le_max (hmax ▸ ho.max_lt)
      exact (ha.fits.asks hlt).asks
    have hf : ((c₁.await packetId' entry').push (ackedFrame result' bytes)).inFlight (fun _ => true) =
        c.inFlight (fun _ => true) ++ [ackedFrame result' bytes] := by
      have hask : (ackedFrame result' bytes).asks (fun _ => true) = true := OutboundFrame.asks_eq _ hx
      rw [inFlight_push, hask, if_pos rfl, ← hi]
      rfl
    rw [hf]
    by_cases he : packetId = packetId'
    case pos =>
      subst he
      obtain rfl : entry' = entry := Option.some.inj ((AList.lookup_insert _).symm.trans hl)
      exact ⟨_, List.mem_append_right _ (List.mem_singleton_self _), hx, ha.origin.symm⟩
    case neg =>
      have hl' := (AList.lookup_insert_ne he).symm.trans hl
      rw [hp] at hl'
      obtain ⟨frame, hm, hx'⟩ := h packetId entry hl'
      exact ⟨frame, List.mem_append_left _ hm, hx'⟩

theorem Deed.orderly (hd : Deed c c') (h : c.Orderly fun _ => true) : c'.Orderly fun _ => true := by
  have hs {c c'} (hs : ReflTransGen Ledger c c') (h : c.Orderly fun _ => true) :
      c'.Orderly fun _ => true := hs.preserves (fun _ _ hs h => h.step rfl hs) h
  cases hd
  case other => exact h.same rfl rfl rfl
  case outside ho => exact hs ho.ledger h
  case sweep => exact hs Shift.sweep.ledger h
  case expire hn hl => exact hs (Shift.bury hl hn).ledger h
  case forget hk hl => exact hs (Shift.forget hl hk).ledger h
  case take ha => exact hs (ledger_of ha.enters Enter.ledger) (h.same rfl rfl rfl)
  case push frame _ hr hz hf => exact hs (.single (.plain frame hr hz hf)) h
  case write ho hw => exact hs (.single (.write ho hw)) h
  case flush hf => exact hs hf.ledger h
  case arrive reader hn => exact h.arrived (by rw [hn]; rfl) reader

theorem Routed.deed (h : c.Routed) (hd : Deed c c') : c'.Routed :=
  have hs := hd.issues h.orderly
  ⟨hd.orderly h.orderly, h.backed.issues hs h.orderly, h.named.issues hs⟩

-- The entry for a frame is of its class.
theorem Routed.claimed (h : c.Routed) (hm : frame ∈ c.inFlight fun _ => true)
    (ha : expectedAck frame.bytes = some (k, packetId)) :
    ∃ entry, c.pendingAcks.lookup packetId = some entry ∧ entry.kind.ackClass = k ∧
      entry.origin = frame.origin := by
  obtain ⟨entry, hl, ho, _⟩ := h.orderly.held frame hm k packetId ha
  obtain ⟨frame', hm', ha', _⟩ := h.backed packetId entry hl
  obtain rfl : frame = frame' := eq_of_nodup_filterMap h.orderly.nodup hm hm'
    (OutboundFrame.askedId_eq ha) (OutboundFrame.askedId_eq ha')
  rw [ha, Option.some.injEq, Prod.mk.injEq] at ha'
  exact ⟨entry, hl, ha'.left.symm, ho⟩

theorem Named.receipt (h : c.Named)
    (hr : Receipt packet k packetId (c.arrived reader packet) c') : c'.Named := by
  cases hr
  case unknown => exact h
  case mismatched => exact h
  case taken => exact fun packetId' entry result hl => h packetId' entry result (AList.lookup_of_lookup_erase hl)

theorem Routed.receipt (h : c.Routed) (ha : packet.acknowledges = some (k, packetId))
    (hb : c.Answers (fun _ => true) packet)
    (hr : Receipt packet k packetId (c.arrived reader packet) c') : c'.Routed := by
  refine ⟨h.orderly.receipt rfl ha hb hr, fun packetId' entry hl => ?_, h.named.receipt hr⟩
  obtain ⟨answered, hm, hx⟩ := hb (k, packetId) ha rfl
  obtain ⟨own, ho, hk, _⟩ := h.claimed (List.mem_append_left _ hm) hx
  cases hr
  case unknown hn =>
    rw [show c.pendingAcks.lookup packetId = none from hn] at ho
    cases ho
  case mismatched hn hne =>
    rw [show c.pendingAcks.lookup packetId = _ from hn, Option.some.injEq] at ho
    exact absurd (ho ▸ hk) hne
  case taken =>
    have hne : packetId' ≠ packetId := by
      rintro rfl
      cases (AList.lookup_erase packetId' c.pendingAcks).symm.trans hl
    have hl' : c.pendingAcks.lookup packetId' = some entry := (AList.lookup_erase_ne hne).symm.trans hl
    obtain ⟨frame, hm, hx', ho'⟩ := h.backed packetId' entry hl'
    refine ⟨frame, ?_, hx', ho'⟩
    have hn : ¬OutboundFrame.answeredBy (k, packetId) frame = true := by
      intro he
      have he := of_decide_eq_true he
      rw [hx', Option.some.injEq, Prod.mk.injEq] at he
      exact hne he.right
    change frame ∈ (c.arrived reader packet).inFlight fun _ => true
    rw [inFlight_arrived ha rfl reader]
    exact List.mem_append.mpr ((List.mem_append.mp hm).imp_left (List.mem_eraseP_of_neg hn).mpr)

-- Who is told what.

theorem Deed.owned (hd : Deed c c') (h : c.Owned) : c'.Owned := by
  cases hd
  case other => exact ⟨h.numbered, h.waits, h.pends, h.tells⟩
  case outside ho => exact h.outside ho
  case sweep => exact h.attends Shift.sweep.attends
  case expire hn hl => exact h.attends (Shift.bury hl hn).attends
  case forget hk hl => exact h.attends (Shift.forget hl hk).attends
  case take command rest _ hc ha =>
    obtain ⟨_, hq, ht⟩ := ha
    have hm := mem_taken_dequeued c command rest
    exact ((h.dequeued hc).attends hq.attends).takes (hq.attends.taken ▸ hm) ht
  case push frame hn _ _ _ => exact h.attends (.push c frame hn)
  case write ho hw => exact h.attends (hw.attends ho)
  case flush hf => exact h.attends hf.attends
  case arrive => exact ⟨h.numbered, h.waits, h.pends, h.tells⟩

theorem Receipt.owned (hr : Receipt packet k packetId c c')
    (ha : packet.acknowledges = some (k, packetId)) (h : c.Owned) : c'.Owned := by
  cases hr
  case unknown => exact h
  case mismatched => exact h
  case taken hl hk ht =>
    exact h.attends (Arrive.attends (.resolve (.take hl (by rw [hk]; exact ha) ht)))

theorem Deed.taken_subset (hd : Deed c c') : c.taken ⊆ c'.taken := by
  cases hd
  case outside ho => cases ho <;> exact fun _ => id
  case take ha =>
    obtain ⟨_, hq, ht⟩ := ha
    intro command hm
    cases hq
    cases ht <;> exact List.mem_append_left _ hm
  case write hw => cases hw <;> exact fun _ => id
  case flush hf => rw [hf.attends.taken]; exact fun _ => id
  all_goals exact fun _ => id

-- Without an acknowledgement, a decision can only be that a frame has been sent.
theorem Deed.answers (hd : Deed c c') : ∃ answers, c'.replies = c.replies ++ answers ∧
    ∀ result reply, (result, reply) ∈ answers → Decides reply → c.Pends (result, reply) := by
  have hn (c' : MqttConnection) (hr : c'.replies = c.replies) : ∃ answers,
      c'.replies = c.replies ++ answers ∧
        ∀ result reply, (result, reply) ∈ answers → Decides reply → c.Pends (result, reply) :=
    ⟨[], by rw [hr, List.append_nil], fun _ _ hm => by cases hm⟩
  cases hd
  case outside ho => cases ho <;> exact hn _ rfl
  case expire pending packetId _ hl =>
    refine ⟨_, rfl, fun result reply hm hd => ?_⟩
    cases hr : pending.kind.result?
    case none => rw [hr] at hm; cases hm
    case some result' =>
      rw [hr] at hm
      cases List.mem_singleton.mp hm
      obtain ⟨_, _, he⟩ := hd _ rfl
      cases he
  case take command rest hc ha =>
    obtain ⟨_, hq, ht⟩ := ha
    cases hq
    cases ht
    case refuse e hn =>
      refine ⟨_, rfl, fun result reply hm hd => ?_⟩
      cases List.mem_singleton.mp hm
      exact absurd hd (not_decides_of_error hn)
    all_goals exact hn _ rfl
  case write hw => cases hw <;> exact hn _ rfl
  case flush hf =>
    cases hf
    case accept => exact hn _ rfl
    case complete flush rest hf hp =>
      have ha (answer) (hr : flush.action.reply? = some answer) (c' : MqttConnection)
          (hc : c'.replies = c.replies ++ [answer]) : ∃ answers, c'.replies = c.replies ++ answers ∧
            ∀ result reply, (result, reply) ∈ answers → Decides reply → c.Pends (result, reply) := by
        refine ⟨[answer], hc, fun result reply hm _ => .inr ⟨flush, hf ▸ List.mem_cons_self, ?_⟩⟩
        rw [List.mem_singleton.mp hm]
        exact hr
      generalize flush.action = action at hp ha
      cases hp
      case publishQos0 => exact ha _ rfl _ rfl
      case disconnect hs => cases hs <;> exact ha _ rfl _ rfl
      all_goals exact hn _ rfl
  all_goals exact hn _ rfl

theorem deeds_answer (h : ReflTransGen Deed c c') (ho : c.Owned) :
    c'.Owned ∧ ∃ answers, c'.replies = c.replies ++ answers ∧
      ∀ result reply, (result, reply) ∈ answers → Decides reply →
        ∃ command ∈ c'.taken, command.action?.bind (·.reply?) = some (result, reply) := by
  refine h.preserves (P := fun c' => c'.Owned ∧ ∃ answers, c'.replies = c.replies ++ answers ∧
    ∀ result reply, (result, reply) ∈ answers → Decides reply →
      ∃ command ∈ c'.taken, command.action?.bind (·.reply?) = some (result, reply)) ?_
    ⟨ho, [], (List.append_nil _).symm, fun _ _ hm => by cases hm⟩
  intro c₁ c₂ hd ⟨ho, answers, hr, ha⟩
  obtain ⟨more, hr', ha'⟩ := hd.answers
  refine ⟨hd.owned ho, answers ++ more, by rw [hr', hr, List.append_assoc], fun result reply hm hx => ?_⟩
  have hf : ∃ command ∈ c₁.taken, command.action?.bind (·.reply?) = some (result, reply) := by
    cases List.mem_append.mp hm
    case inl hm => exact ha result reply hm hx
    case inr hm => exact ho.pends _ (ha' result reply hm hx)
  obtain ⟨command, hm, he⟩ := hf
  exact ⟨command, hd.taken_subset hm, he⟩

-- An operation that is not done with when its frame has been sent is not told so.
theorem Owned.not_sent {reply : Reply} (h : c.Owned) (hm : command ∈ c.taken) (hn : command.action? = none)
    (hm' : command' ∈ c.taken) (ha : command'.action?.bind (·.reply?) = some (command.result, reply)) :
    False := by
  obtain ⟨action, hd, hr⟩ := Option.bind_eq_some_iff.mp ha
  obtain ⟨done, hr'⟩ := Command.action?_reply? hd
  rw [hr, Option.some.injEq, Prod.mk.injEq] at hr'
  rw [h.unique hm hm' hr'.left, hd] at hn
  cases hn

-- A connection that has ended
structure Over (c : MqttConnection) : Prop where
  nodup : ((c.inFlight fun _ => true).filterMap (·.askedId)).Nodup
  lookup : ∀ packetId, c.pendingAcks.lookup packetId = none

theorem Ends.over (he : Ends c c')
    (hn : ((c.inFlight fun _ => true).filterMap (·.askedId)).Nodup) : c'.Over where
  nodup := (he.inFlight.filterMap _).nodup hn
  lookup := by cases he <;> exact fun _ => rfl

theorem Outside.over (ho : Outside c input c') (h : c.Over) : c'.Over where
  nodup := by
    rw [ho.inFlight]
    exact h.nodup
  lookup packetId := by
    cases ho
    case reorder packetId' _ => exact (AList.lookup_adjust_id ..).trans (h.lookup packetId)
    all_goals exact h.lookup packetId

theorem Ends.waiting (he : Ends c c') : c'.waiting = [] := by
  cases he <;> rfl

theorem Outside.waiting (ho : Outside c input c') (hp : c.Plain) (h : c.waiting = []) :
    c'.waiting = [] := by
  have hw := (Balances.outside ho hp).waiting
  rw [h] at hw
  simpa using hw

theorem Accounted.receipt (hr : Receipt packet k packetId c c') (h : c.Accounted) : c'.Accounted := by
  obtain ⟨_, hs⟩ := Balances.receipt hr
  exact h.balances hs

end MqttConnection

namespace Driver

open MqttConnection
open Relation (ReflTransGen)

-- What is true of a driver without requests.
structure Sound (driver : Driver) : Prop where
  plain : driver.connection.Plain
  owned : driver.connection.Owned
  accounted : driver.connection.Accounted
  routed : driver.connection.Routed ∨
    (driver.phase.terminated = true ∧ driver.connection.Over)
  settled : ∀ result, driver.phase = .stopped result → driver.connection.waiting = []

variable {driver driver' : Driver}


theorem Advances.accounted (h : driver.Advances input driver') (hp : driver.connection.Plain)
    (ha : driver.connection.Accounted) : driver'.connection.Accounted := by
  refine (h.preserves (P := fun c => c.Plain ∧ c.Accounted) ?_ ?_ ?_ ?_ ⟨hp, ha⟩).right
  case refine_1 => exact fun _ _ hd h => ⟨hd.plain h.left, hd.accounted h.left h.right⟩
  case refine_2 => exact fun _ _ _ h => ⟨h.left.congr rfl rfl, h.right⟩
  case refine_3 => exact fun _ _ _ _ _ _ hr h => ⟨hr.plain h.left, h.right.receipt hr⟩
  case refine_4 => exact fun _ _ he h => ⟨he.plain h.left, h.right.balances (.ends he)⟩

theorem Advances.routed (h : driver.Advances input driver') (hr : driver.connection.Routed)
    (hb : ∀ packet ∈ driver.dispatches input, driver.connection.Answers (fun _ => true) packet) :
    driver'.connection.Routed ∨ (driver'.phase.terminated = true ∧ driver'.connection.Over) := by
  have hd {c c'} (hs : ReflTransGen Deed c c') (hr : c.Routed) : c'.Routed :=
    hs.preserves (fun _ _ hd h => h.deed hd) hr
  cases h
  case deeds hs => exact .inl (hd hs hr)
  case acknowledged hn ha hx hs =>
    exact .inl (hd hs (hr.receipt ha (hb _ (dispatches_of_decoded hn)) hx))
  case ends hs he ht => exact .inr ⟨ht, he.over (hd hs hr).orderly.nodup⟩

theorem Sound.step (h : driver.Sound) (hi : input.plain = true)
    (hb : ∀ packet ∈ driver.dispatches input, driver.connection.Answers (fun _ => true) packet)
    (hs : driver.step input = some driver') : driver'.Sound := by
  have hd := step_does hs
  have ha := hd.advances hi h.plain
  refine ⟨ha.plain h.plain, owned_step h.owned hd, ha.accounted h.plain h.accounted, ?_, ?_⟩
  case refine_1 =>
    rcases h.routed with hr | ⟨ht, ho⟩
    case inl => exact ha.routed hr hb
    case inr =>
      rcases hd.of_not_running (Phase.running_of_terminated ht) with ⟨_, _, hp, he⟩ | ⟨hp, hm⟩
      case inl => exact .inr ⟨by rw [hp]; rfl, he.over ho.nodup⟩
      case inr => exact .inr ⟨by rw [hp]; exact ht, hm.over ho⟩
  case refine_2 =>
    intro result hp
    rcases step_stopped hs hp with hp | he
    case inl =>
      rcases hd.of_not_running (by rw [hp]; rfl) with ⟨_, _, _, he⟩ | ⟨_, hm⟩
      case inl => exact he.waiting
      case inr => exact hm.waiting h.plain (h.settled result hp)
    case inr => exact he.waiting

theorem sound_start (options connack clock) : (start options connack clock).Sound where
  plain := ⟨fun _ hm => (List.not_mem_nil hm).elim, rfl⟩
  owned :=
    have h : (start options connack clock).run [] = some (start options connack clock) := rfl
    owned_run h
  accounted := ⟨[], by simp, .refl _⟩
  routed := .inl ⟨orderly_start options connack clock _, fun _ _ hl => (by cases hl),
    fun _ _ _ hl => by cases hl⟩
  settled := fun _ hp => by cases hp

theorem sound_run {options : ConnectOptions} {clock : Clock}
    (h : (start options connack clock).run inputs = some driver)
    (hn : ∀ input ∈ inputs, input.plain = true)
    (hb : (start options connack clock).AnswersFrames (fun _ => true) inputs) : driver.Sound := by
  have hc : (start options connack clock).Throughout inputs fun _ input => input.plain = true :=
    fun _ input _ hp _ => hn input (hp.subset (by simp))
  exact run_preserves_if (P := Sound) (fun _ _ _ _ _ h hc hs => h.step hc.right hc.left hs)
    (sound_start options connack clock) (hb.and hc) h

-- The acknowledgement that is about to be dispatched is for a frame of this operation, and it says
-- what the operation is told.
def Confirms (driver : Driver) (input : Input) (result : Sender) (reply : Reply) : Prop :=
  ∃ packet ∈ driver.dispatches input, ∃ k packetId, packet.acknowledges = some (k, packetId) ∧
    Verdict packet reply ∧ ∃ frame ∈ driver.connection.unanswered fun _ => true,
      expectedAck frame.bytes = some (k, packetId) ∧ frame.origin = .command result

-- What a step tells those who wait for an acknowledgement.
def Informs (driver : Driver) (input : Input) (driver' : Driver) : Prop :=
  ∃ answers, driver'.connection.replies = driver.connection.replies ++ answers ∧
    ∀ result reply, (result, reply) ∈ answers → Decides reply →
      ∀ command ∈ driver'.connection.taken, command.result = result → command.action? = none →
        driver.Confirms input result reply

theorem confirms_of_told {reply : Reply} (h : c.Routed) (hb : c.Answers (fun _ => true) packet)
    (hd : FrameReader.tryDecode c.frameReader = .ok (some packet) reader)
    (ha : packet.acknowledges = some (k, packetId))
    (hl : c.pendingAcks.lookup packetId = some pending) (ht : Told packet pending.kind answers)
    (hm : (result, reply) ∈ answers) :
    Confirms ⟨c, .decodeAndDispatch⟩ .proceed result reply := by
  obtain ⟨frame, hf, hx⟩ := hb (k, packetId) ha rfl
  obtain ⟨entry, hl', _, ho⟩ := h.claimed (List.mem_append_left _ hf) hx
  rw [hl, Option.some.injEq] at hl'
  subst hl'
  generalize hk : pending.kind = kind at ht
  cases ht
  case nobody => cases hm
  case waiter hw hv =>
    cases List.mem_singleton.mp hm
    exact ⟨packet, dispatches_of_decoded hd, k, packetId, ha, hv, frame, hf, hx,
      ho.symm.trans (h.named packetId pending result hl (hk ▸ hw))⟩

theorem Advances.informs (h : driver.Advances input driver') (ho : driver.connection.Owned)
    (hr : driver.phase.running = true → driver.connection.Routed)
    (hb : ∀ packet ∈ driver.dispatches input, driver.connection.Answers (fun _ => true) packet) :
    driver.Informs input driver' := by
  cases h
  case deeds hs =>
    obtain ⟨ho, answers, he, ha⟩ := deeds_answer hs ho
    refine ⟨answers, he, fun result reply hm hx command hc hres hn => ?_⟩
    obtain ⟨command', hc', hr'⟩ := ha result reply hm hx
    exact (ho.not_sent hc hn hc' (hres ▸ hr')).elim
  case acknowledged packet reader k packetId c₁ c' c p' hd ha hx hs =>
    have hb := hb packet (dispatches_of_decoded hd)
    have ho' : (c.arrived reader packet).Owned := ⟨ho.numbered, ho.waits, ho.pends, ho.tells⟩
    obtain ⟨ho', answers, he, hf⟩ := deeds_answer hs (hx.owned ha ho')
    -- What is told because of the acknowledgement
    have hc : ∃ answers, c₁.replies = c.replies ++ answers ∧ ∀ result reply,
        (result, reply) ∈ answers → Confirms ⟨c, .decodeAndDispatch⟩ .proceed result reply := by
      cases hx
      case unknown => exact ⟨[], (List.append_nil _).symm, fun _ _ hm => by cases hm⟩
      case mismatched => exact ⟨[], (List.append_nil _).symm, fun _ _ hm => by cases hm⟩
      case taken hl _ ht =>
        exact ⟨_, rfl, fun _ _ hm => confirms_of_told (hr rfl) hb hd ha hl ht hm⟩
    obtain ⟨first, hfirst, hc⟩ := hc
    refine ⟨first ++ answers, ?_, fun result reply hm hd command hk hres hn => ?_⟩
    case refine_1 => rw [he, hfirst, List.append_assoc]
    case refine_2 =>
      cases List.mem_append.mp hm
      case inl hm => exact hc result reply hm
      case inr hm =>
        obtain ⟨command', hc', hr'⟩ := hf result reply hm hd
        exact (ho'.not_sent hk hn hc' (hres ▸ hr')).elim
  case ends c c₁ c' p' p hs he _ =>
    obtain ⟨ho', answers, hr, hf⟩ := deeds_answer hs ho
    have hc : c'.replies = c₁.replies ++ c₁.waiting.map (·, .error .connectionClosed) ∧
        c'.taken = c₁.taken := by
      cases he <;> exact ⟨rfl, rfl⟩
    refine ⟨answers ++ c₁.waiting.map (·, .error .connectionClosed), ?_,
      fun result reply hm hd command hk hres hn => ?_⟩
    case refine_1 => rw [hc.left, hr, List.append_assoc]
    case refine_2 =>
      cases List.mem_append.mp hm
      case inl hm =>
        obtain ⟨command', hc', hr'⟩ := hf result reply hm hd
        exact (ho'.not_sent (hc.right ▸ hk) hn hc' (hres ▸ hr')).elim
      case inr hm =>
        obtain ⟨_, _, he⟩ := List.mem_map.mp hm
        cases he
        obtain ⟨_, _, he⟩ := hd _ rfl
        cases he

theorem phase_of_dispatches (h : packet ∈ driver.dispatches input) :
    driver.phase = .decodeAndDispatch := by
  rw [dispatches.eq_def] at h
  split at h
  case h_1 hp => exact hp
  case h_2 => cases h

-- Every identifier in flight is there once, and its entry is of the class of its frame; every
-- operation is accounted for, and nobody waits for a driver that has stopped.
structure Routes (driver : Driver) : Prop where
  distinct : ((driver.connection.inFlight fun _ => true).filterMap (·.askedId)).Nodup
  backed : driver.connection.Backed
  claimed : driver.phase.terminated = false → ∀ frame ∈ driver.connection.inFlight fun _ => true,
    ∀ k packetId, expectedAck frame.bytes = some (k, packetId) →
      ∃ entry, driver.connection.pendingAcks.lookup packetId = some entry ∧ entry.kind.ackClass = k ∧
        entry.origin = frame.origin
  numbered : (driver.connection.taken.map (·.result)).Nodup
  accounted : driver.connection.Accounted
  settled : ∀ result, driver.phase = .stopped result → driver.connection.waiting = []

-- An acknowledgement always finds an entry of its class, and nothing else decides what becomes of an
-- operation that is acknowledged.
structure Forwards (driver : Driver) (input : Input) (driver' : Driver) : Prop where
  takes : ∀ packet ∈ driver.dispatches input, ∀ k packetId,
    packet.acknowledges = some (k, packetId) → ∀ reader, ∃ entry c',
      takePendingAck packetId k (driver.connection.arrived reader packet) = .ok (some entry) c'
  informs : driver.Informs input driver'

theorem Sound.routes (h : driver.Sound) : driver.Routes where
  distinct := by
    rcases h.routed with hr | ⟨_, ho⟩
    case inl => exact hr.orderly.nodup
    case inr => exact ho.nodup
  backed := by
    rcases h.routed with hr | ⟨_, ho⟩
    case inl => exact hr.backed
    case inr =>
      intro packetId entry hl
      rw [ho.lookup packetId] at hl
      cases hl
  claimed ht frame hm k packetId ha := by
    rcases h.routed with hr | ⟨hn, _⟩
    case inl => exact hr.claimed hm ha
    case inr => rw [ht] at hn; cases hn
  numbered := by
    have hn := List.nodup_range (n := driver.connection.nextSender)
    rw [← h.owned.numbered, List.map_append] at hn
    exact hn.of_append_left
  accounted := h.accounted
  settled := h.settled

theorem Sound.forwards (h : driver.Sound) (hi : input.plain = true)
    (hb : ∀ packet ∈ driver.dispatches input, driver.connection.Answers (fun _ => true) packet)
    (hs : driver.step input = some driver') : driver.Forwards input driver' := by
  have hr (hp : driver.phase.running = true) : driver.connection.Routed := by
    rcases h.routed with hr | ⟨ht, _⟩
    case inl => exact hr
    case inr => rw [Phase.running_of_terminated ht] at hp; cases hp
  refine ⟨fun packet hm k packetId ha reader => ?_, ?_⟩
  case refine_1 =>
    have hr := hr (by rw [phase_of_dispatches hm]; rfl)
    obtain ⟨frame, hf, hx⟩ := hb packet hm (k, packetId) ha rfl
    obtain ⟨entry, hl, hk, _⟩ := hr.claimed (List.mem_append_left _ hf) hx
    exact ⟨entry, _, takePendingAck_of_some hl hk⟩
  case refine_2 => exact ((step_does hs).advances hi h.plain).informs h.owned hr hb

-- As long as no requests are made, every acknowledgement reaches the operation whose frame it is for.
theorem acknowledgements_routed (options : ConnectOptions) (connack : ConnAckPacket) (clock : Clock)
    (inputs : List Input) (driver : Driver)
    (h : (start options connack clock).run inputs = some driver)
    (hn : ∀ input ∈ inputs, input.plain = true)
    (hb : (start options connack clock).AnswersFrames (fun _ => true) inputs) :
    driver.Routes ∧ ∀ input driver', input.plain = true →
      (∀ packet ∈ driver.dispatches input, driver.connection.Answers (fun _ => true) packet) →
      driver.step input = some driver' → driver.Forwards input driver' := by
  have hs := sound_run h hn hb
  exact ⟨hs.routes, fun _ _ hi hb hd => hs.forwards hi hb hd⟩

-- A message and a subscription are sent, and the message is acknowledged.
def messageAndSubscription : List Input :=
  [.submit (.publish "a" [] { qos := .atLeastOnce } 0), .submit (.subscribe "b" .atLeastOnce 1),
    .proceed, .proceed, .proceed, .proceed, .proceed, .written (.ok 8), .written (.ok 9), .proceed,
    .flushed (.ok ()), .read (.ok [0x40, 2, 0, 1]), .read (.error { kind := .wouldBlock })]

theorem acknowledgements_routed_messageAndSubscription : ∃ driver driver',
    (start plainOptions plainConnack stillClock).run messageAndSubscription = some driver ∧
      driver.step .proceed = some driver' ∧ driver'.connection.replies.map (·.1) = [0] ∧
      driver.Routes ∧ driver.Forwards .proceed driver' := by
  obtain ⟨driver, hr, hs⟩ := exists_run (start plainOptions plainConnack stillClock)
    messageAndSubscription (fun driver => (driver.step .proceed).any fun driver' =>
      driver'.connection.replies.map (·.1) = [0]) (by decide +kernel)
  obtain ⟨driver', hd, hs⟩ := (Option.any_eq_true ..).mp hs
  have hb : (start plainOptions plainConnack stillClock).AnswersFrames (fun _ => true)
      (messageAndSubscription ++ [.proceed]) := by
    unfold AnswersFrames
    decide +kernel
  have hr' := acknowledgements_routed plainOptions plainConnack stillClock messageAndSubscription driver
    hr (by decide) fun inputs' input earlier hp =>
      hb inputs' input earlier (hp.trans (List.prefix_append _ _))
  exact ⟨driver, driver', hr, hd, of_decide_eq_true hs, hr'.left,
    hr'.right .proceed driver' rfl (hb messageAndSubscription .proceed driver List.prefix_rfl hr) hd⟩

end Driver
end MqttWasi
