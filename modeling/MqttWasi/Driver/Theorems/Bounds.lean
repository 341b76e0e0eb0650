import MqttWasi.Codec.Theorems.ClientPackets
import MqttWasi.Driver.Theorems.Exchange
import MqttWasi.Driver.Theorems.Requests

-- The maps of the driver stay small, whatever the broker and the callers do.

namespace MqttWasi

open Relation (ReflTransGen)

theorem PublishPacket.packetId_ne_zero {packet : PublishPacket} {packetId : UInt16}
    (h : packet.encode = .ok bytes) (hi : packet.packetId = some packetId) : packetId ≠ 0 := by
  have hv := (PublishPacket.encode_eq_ok.mp h).left
  rw [PublishPacket.HasValidId, hi] at hv
  cases hq : packet.qos <;> rw [hq] at hv
  case atMostOnce => exact absurd hv id
  case atLeastOnce => exact hv

theorem SubscribePacket.packetId_ne_zero {packet : SubscribePacket}
    (h : packet.encode = .ok bytes) : packet.packetId ≠ 0 :=
  ((@ClientPacket.encode_eq_ok _ (.subscribe packet)).mp h).left.left

theorem UnsubscribePacket.packetId_ne_zero {packet : UnsubscribePacket}
    (h : packet.encode = .ok bytes) : packet.packetId ≠ 0 :=
  ((@ClientPacket.encode_eq_ok _ (.unsubscribe packet)).mp h).left.left

namespace MqttConnection

-- What the driver waits for.
structure Accountable (limit : Nat) (c : MqttConnection) : Prop where
  bound : c.pendingAcks.entries.length ≤ limit
  nonzero : 0 ∉ c.pendingAcks
  limit : c.maxPendingOperations = limit

variable {c c' : MqttConnection} {limit : Nat}

theorem Accountable.same (h : c.Accountable limit)
    (hk : ∀ packetId, packetId ∈ c'.pendingAcks ↔ packetId ∈ c.pendingAcks)
    (hl : c'.maxPendingOperations = c.maxPendingOperations) : c'.Accountable limit where
  bound := AList.length_of_mem_iff hk ▸ h.bound
  nonzero hm := h.nonzero ((hk 0).mp hm)
  limit := hl.trans h.limit

theorem Accountable.erase (h : c.Accountable limit) (packetId)
    (hp : c'.pendingAcks = c.pendingAcks.erase packetId)
    (hl : c'.maxPendingOperations = c.maxPendingOperations) : c'.Accountable limit where
  bound := hp ▸ (AList.length_erase_le _ _).trans h.bound
  nonzero hm := h.nonzero (AList.mem_erase.mp (hp ▸ hm)).right
  limit := hl.trans h.limit

theorem Accountable.await (h : c.Accountable limit) (hf : c.Free packetId) (h₀ : packetId ≠ 0)
    (hp : c'.pendingAcks = c.pendingAcks.insert packetId entry)
    (hl : c'.maxPendingOperations = c.maxPendingOperations) : c'.Accountable limit where
  bound := by
    rw [hp, AList.length_insert_of_notMem hf.fresh]
    exact h.limit ▸ hf.bound
  nonzero hm := by
    rw [hp, AList.mem_insert] at hm
    cases hm
    case inl he => exact h₀ he.symm
    case inr hm => exact h.nonzero hm
  limit := hl.trans h.limit

theorem Carries.packetId_ne_zero (h : c.Carries packetId kind bytes) : packetId ≠ 0 := by
  cases h
  case publish packet hi _ _ _ he => exact PublishPacket.packetId_ne_zero he hi
  case subscribe he => exact SubscribePacket.packetId_ne_zero he
  case unsubscribe he => exact UnsubscribePacket.packetId_ne_zero he

theorem Accountable.withoutRequest (h : c.Accountable limit) (correlationData pending) :
    (c.withoutRequest correlationData pending).Accountable limit := by
  unfold MqttConnection.withoutRequest
  cases pending.publishPacketId
  case none => exact h.same (fun _ => .rfl) rfl
  case some packetId =>
    dsimp only [releasePacketId]
    split
    case isTrue => exact h.erase packetId rfl rfl
    case isFalse => exact h.same (fun packetId' => AList.mem_adjust packetId packetId' _) rfl

theorem Accountable.step (h : c.Accountable limit) (hs : Ledger c c') : c'.Accountable limit := by
  cases hs
  case fade pendingAcks hf =>
    refine h.same (fun packetId => ?_) rfl
    rw [← AList.lookup_isSome, ← AList.lookup_isSome]
    cases hf packetId
    case inl he => simp [he]
    case inr he =>
      obtain ⟨pending, hl, _, hb⟩ := he
      simp [hl, hb]
  case forget => exact h.same (fun packetId => AList.mem_adjust _ packetId _) rfl
  case remove => exact h.withoutRequest _ _
  case publish hp => exact h.await hp.free (PublishPacket.packetId_ne_zero hp.encoded rfl) rfl rfl
  case await ha => exact h.await ha.free ha.carries.packetId_ne_zero rfl rfl
  case subscribe hs => exact h.await hs.free (SubscribePacket.packetId_ne_zero hs.encoded) rfl rfl
  case write hw =>
    cases hw
    all_goals exact h.same (fun _ => .rfl) rfl
  all_goals exact h.same (fun _ => .rfl) rfl

theorem Accountable.receipt (h : c.Accountable limit) (hr : Receipt packet k packetId c c') :
    c'.Accountable limit := by
  cases hr
  case unknown => exact h
  case mismatched => exact h
  case taken => exact h.erase packetId rfl rfl

theorem Accountable.ends (h : c.Accountable limit) (he : Ends c c') : c'.Accountable limit := by
  cases he <;> exact ⟨Nat.zero_le _, AList.notMem_empty _, h.limit⟩

end MqttConnection

theorem RequestLifecycle.register_eq_ok {lifecycle lifecycle' : RequestLifecycle}
    (h : lifecycle.register correlationData = .ok lifecycle') :
    lifecycle.active.length < lifecycle.maxActive ∧ correlationData ∉ lifecycle.active ∧
      lifecycle' = { lifecycle with active := lifecycle.active.insert correlationData } := by
  rw [register] at h
  split at h
  case isTrue => cases h
  case isFalse hl =>
    split at h <;> cases h
    case isFalse hm => exact ⟨Nat.not_le.mp hl, hm, rfl⟩

theorem RequestLifecycle.cancel_active (lifecycle : RequestLifecycle) (correlationData) :
    (lifecycle.cancel correlationData).active = lifecycle.active := by
  rw [cancel]
  split <;> rfl

-- What the handles and the driver share.
structure RequestLifecycle.Bounded (limit : Nat) (lifecycle : RequestLifecycle) : Prop where
  maxActive : lifecycle.maxActive = limit
  bound : lifecycle.active.length ≤ limit
  active : lifecycle.active.Nodup
  cancelled : lifecycle.cancelled.Nodup
  subset : lifecycle.cancelled ⊆ lifecycle.active

namespace RequestLifecycle.Bounded

variable {lifecycle lifecycle' : RequestLifecycle} {limit : Nat}

theorem register (h : lifecycle.Bounded limit)
    (hr : lifecycle.register correlationData = .ok lifecycle') : lifecycle'.Bounded limit := by
  obtain ⟨hl, hm, rfl⟩ := RequestLifecycle.register_eq_ok hr
  refine ⟨h.maxActive, ?_, h.active.insert, h.cancelled, fun key hk => ?_⟩
  case refine_1 =>
    rw [List.length_insert_of_not_mem hm]
    exact h.maxActive ▸ hl
  case refine_2 => exact List.mem_insert_of_mem (h.subset hk)

theorem cancel (h : lifecycle.Bounded limit) (correlationData : Bytes) :
    (lifecycle.cancel correlationData).Bounded limit := by
  rw [RequestLifecycle.cancel]
  split
  case isFalse => exact h
  case isTrue hm =>
    refine ⟨h.maxActive, h.bound, h.active, h.cancelled.insert, fun key hk => ?_⟩
    cases List.mem_insert_iff.mp hk
    case inl he => exact he ▸ hm
    case inr hk => exact h.subset hk

theorem finish (h : lifecycle.Bounded limit) (correlationData : Bytes) :
    (lifecycle.finish correlationData).Bounded limit where
  maxActive := h.maxActive
  bound := (List.length_erase_le ..).trans h.bound
  active := h.active.erase _
  cancelled := h.cancelled.erase _
  subset key hk := by
    obtain ⟨hn, hk⟩ := h.cancelled.mem_erase_iff.mp hk
    exact h.active.mem_erase_iff.mpr ⟨hn, h.subset hk⟩

theorem mem_active_finish (h : lifecycle.Bounded limit) :
    key ∈ (lifecycle.finish correlationData).active ↔ key ≠ correlationData ∧ key ∈ lifecycle.active :=
  h.active.mem_erase_iff

theorem mem_cancelled_finish (h : lifecycle.Bounded limit) :
    key ∈ (lifecycle.finish correlationData).cancelled ↔
      key ≠ correlationData ∧ key ∈ lifecycle.cancelled :=
  h.cancelled.mem_erase_iff

theorem consumeCancellation (h : lifecycle.Bounded limit) (correlationData : Bytes) :
    (lifecycle.consumeCancellation correlationData).2.Bounded limit := by
  rw [RequestLifecycle.consumeCancellation]
  split
  case isTrue => exact h.finish correlationData
  case isFalse => exact h

end RequestLifecycle.Bounded

namespace MqttConnection

-- The requests that the driver has admitted, and those that are registered.
structure Limited (limit : Nat) (c : MqttConnection) : Prop where
  requests : c.pendingRequests.entries.length ≤ limit
  lifecycle : c.requestLifecycle.Bounded limit
  limit : c.maxPendingOperations = limit

variable {c c' : MqttConnection} {limit : Nat}

theorem Limited.same (h : c.Limited limit) (hr : c'.pendingRequests = c.pendingRequests)
    (hl : c'.requestLifecycle = c.requestLifecycle)
    (hm : c'.maxPendingOperations = c.maxPendingOperations) : c'.Limited limit where
  requests := hr ▸ h.requests
  lifecycle := hl ▸ h.lifecycle
  limit := hm.trans h.limit

theorem Limited.withoutRequest (h : c.Limited limit) (correlationData pending) :
    (c.withoutRequest correlationData pending).Limited limit := by
  have hr := (AList.length_erase_le c.pendingRequests correlationData).trans h.requests
  have hl := h.lifecycle.finish correlationData
  unfold MqttConnection.withoutRequest
  cases pending.publishPacketId
  case none => exact ⟨hr, hl, h.limit⟩
  case some => exact ⟨hr, hl, h.limit⟩

theorem Limited.step (h : c.Limited limit) (hs : Course c c') : c'.Limited limit := by
  cases hs
  case remove => exact h.withoutRequest _ _
  case publish => exact ⟨(AList.length_adjust ..).trans_le h.requests, h.lifecycle, h.limit⟩
  case publishQos0 => exact ⟨(AList.length_adjust ..).trans_le h.requests, h.lifecycle, h.limit⟩
  case write hw =>
    cases hw
    all_goals exact h.same rfl rfl rfl
  all_goals exact h.same rfl rfl rfl

theorem Limited.course (h : c.Limited limit) (hs : ReflTransGen Course c c') : c'.Limited limit :=
  hs.preserves (fun _ _ hs h => h.step hs) h

theorem validateRequest_bound (h : c.validateRequest request = .ok u) :
    c.pendingRequests.entries.length < c.maxPendingOperations := by
  by_contra hn
  unfold validateRequest at h
  simp only [Nat.not_lt.mp hn, if_true] at h
  split at h
  case isTrue => cases h
  case isFalse =>
    obtain ⟨_, _, h⟩ := Except.bind_eq_ok.mp h
    obtain ⟨_, _, h⟩ := Except.bind_eq_ok.mp h
    cases h

theorem Quiet.limited (hq : Quiet c c') (h : c.Limited limit) : c'.Limited limit :=
  h.course (Shift.quiet hq).course

theorem Qualifies.limited (hq : c.Qualifies request c') (h : c.Limited limit) (result deadline) :
    (c'.admitted request.correlationData (request.pending result deadline)).Limited limit := by
  have h' := hq.quiet.limited h
  refine ⟨?_, h'.lifecycle, h'.limit⟩
  have hn := validateRequest_ok hq.valid
  rw [← hq.quiet.pendingRequests] at hn
  have hb := validateRequest_bound hq.valid
  rw [admitted, AList.length_insert_of_notMem hn, hq.quiet.pendingRequests]
  exact h.limit ▸ hb

theorem Launch.limited (hs : Launch responseTopic c c') (h : c.Limited limit) : c'.Limited limit := by
  cases hs
  case publish hp => exact h.course hp.course
  case subscribe => exact h.same rfl rfl rfl

theorem TakesUp.limited (ht : TakesUp request result c c') (h : c.Limited limit) : c'.Limited limit := by
  cases ht
  case closing => exact h.same rfl rfl rfl
  case cancelled =>
    exact ⟨h.requests, h.lifecycle.consumeCancellation request.correlationData, h.limit⟩
  case refused hq =>
    have h' := hq.limited h
    exact ⟨h'.requests, h'.lifecycle.finish request.correlationData, h'.limit⟩
  case started deadline hq hm =>
    exact hm.preserves (fun _ _ hs h => hs.limited h) (hq.limited h result deadline)
  case withdrawn e deadline hq hs =>
    exact ((hs.limited (hq.limited h result deadline)).withoutRequest _ _).same rfl rfl rfl

theorem Limited.ends (h : c.Limited limit) (he : Ends c c') : c'.Limited limit := by
  have hl (keys : List Bytes) (lifecycle : RequestLifecycle) (hl : lifecycle.Bounded limit) :
      (keys.foldl .finish lifecycle).Bounded limit := by
    induction keys generalizing lifecycle
    case nil => exact hl
    case cons key keys ih => exact ih _ (hl.finish key)
  cases he <;> exact ⟨Nat.zero_le _, hl _ _ h.lifecycle, h.limit⟩

theorem Limited.outside (h : c.Limited limit) (ho : Outside c input c') : c'.Limited limit := by
  cases ho
  case submit lifecycle command hs hr =>
    refine ⟨h.requests, ?_, h.limit⟩
    cases command
    case request => exact h.lifecycle.register hr
    all_goals
      cases hr
      exact h.lifecycle
  case cancelRequest correlationData =>
    exact ⟨h.requests, h.lifecycle.cancel correlationData, h.limit⟩
  case finishRequest correlationData =>
    exact ⟨h.requests, h.lifecycle.finish correlationData, h.limit⟩
  case reorder => exact ⟨(AList.length_adjust ..).trans_le h.requests, h.lifecycle, h.limit⟩
  all_goals exact h.same rfl rfl rfl

end MqttConnection

namespace Driver

open MqttConnection

variable {driver driver' : Driver} {limit : Nat}

theorem limited_step (h : driver.connection.Limited limit) (hd : Does driver input driver') :
    driver'.connection.Limited limit := by
  cases hd.proceeds
  case course hs => exact h.course hs
  case request ht => exact ht.limited (h.same rfl rfl rfl)
  case arrives packet reader c next _ =>
    have h : (c.arrived reader packet).Limited limit := h.same rfl rfl rfl
    rw [perform_connection]
    rcases dispatchPacket_cases (c.arrived reader packet) packet with ⟨_, c', _, hx, he⟩ | hp
    case inl =>
      rw [hx]
      exact h.ends he
    case inr => exact h.course (dispatchPacket_course hp)
  case ends he => exact h.ends he
  case outside ho => exact h.outside ho

theorem limited_run {options : ConnectOptions} {clock : Clock}
    (h : (start options connack clock).run inputs = some driver) :
    driver.connection.Limited options.commandCapacity := by
  refine run_preserves (P := fun driver => driver.connection.Limited options.commandCapacity)
    (fun _ _ _ h hd => limited_step h hd) ?_ h
  exact ⟨Nat.zero_le _, ⟨rfl, Nat.zero_le _, .nil, .nil, List.nil_subset _⟩, rfl⟩

theorem accountable_run {options : ConnectOptions} {clock : Clock}
    (h : (start options connack clock).run inputs = some driver) :
    driver.connection.Accountable options.commandCapacity := by
  have := run_ledger (P := Accountable options.commandCapacity)
    (Q := Accountable options.commandCapacity) (C := fun _ _ => True)
    (fun _ _ hl h => h.step hl) (fun _ _ _ _ h => h.same (fun _ => .rfl) rfl)
    (fun c _ packet reader _ _ _ _ _ h hr =>
      Accountable.receipt (c := c.arrived reader packet) (h.same (fun _ => .rfl) rfl) hr)
    (fun _ _ he h => (h.elim id id).ends he)
    (fun _ _ _ ho h => ho.ledger.preserves (fun _ _ hl h => h.step hl) h)
    ⟨Nat.zero_le _, AList.notMem_empty _, rfl⟩ (.trivial _ _) h
  exact this.elim id And.right

-- A tombstone takes up as much room as an operation that somebody waits for.
theorem collections_bounded (options : ConnectOptions) (connack : ConnAckPacket) (clock : Clock)
    (inputs : List Input) (driver : Driver)
    (h : (start options connack clock).run inputs = some driver) :
    let c := driver.connection
    c.pendingAcks.entries.length ≤ c.maxPendingOperations ∧
    c.pendingAcks.values.countP (·.kind.isTombstone) +
      c.pendingAcks.values.countP (!·.kind.isTombstone) = c.pendingAcks.entries.length ∧
    0 ∉ c.pendingAcks ∧
    c.pendingRequests.entries.length ≤ c.maxPendingOperations ∧
    c.requestLifecycle.active.Nodup ∧
    c.requestLifecycle.active.length ≤ c.requestLifecycle.maxActive ∧
    c.requestLifecycle.cancelled ⊆ c.requestLifecycle.active ∧
    c.maxPendingOperations = options.commandCapacity ∧
    c.requestLifecycle.maxActive = options.commandCapacity := by
  have ha := accountable_run h
  have hl := limited_run h
  refine ⟨ha.limit ▸ ha.bound, ?_, ha.nonzero, hl.limit ▸ hl.requests, hl.lifecycle.active,
    hl.lifecycle.maxActive ▸ hl.lifecycle.bound, hl.lifecycle.subset, hl.limit, hl.lifecycle.maxActive⟩
  have hv : driver.connection.pendingAcks.values.length = driver.connection.pendingAcks.entries.length :=
    List.length_map _
  rw [← hv, List.length_eq_countP_add_countP (·.kind.isTombstone)]
  simp

-- Nobody waits for the SUBACK any more, and there is room for one operation only.

def smallOptions : ConnectOptions :=
  { plainOptions with commandCapacity := 1 }

def abandonedSubscribe : List Input :=
  [.submit (.subscribe "a" .atMostOnce 0), .proceed, .proceed, .proceed, .proceed,
    .written (.error { kind := .wouldBlock }), .proceed, .read (.error { kind := .wouldBlock }), .proceed,
    .dropReceiver 0, .proceed]

theorem collections_bounded_abandoned :
    ∃ driver, (start smallOptions plainConnack stillClock).run abandonedSubscribe = some driver ∧
      (driver.connection.pendingAcks.lookup 1).map (·.kind) = some (.tombstone .subscribe false) ∧
      driver.connection.pendingAcks.entries.length ≤ driver.connection.maxPendingOperations :=
  ⟨_, rfl, rfl, (collections_bounded smallOptions plainConnack stillClock abandonedSubscribe _ rfl).left⟩

end Driver
end MqttWasi
