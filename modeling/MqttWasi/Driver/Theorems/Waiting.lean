import MqttWasi.Driver.Theorems.KeepAlive

-- When the driver waits for no time at all.

namespace MqttWasi
namespace MqttConnection

open EStateM (Leads)
open Relation (ReflTransGen)

variable {c c' : MqttConnection}

-- Nobody is waited for who was not waited for before, and nothing is put off.
structure Recedes (c c' : MqttConnection) : Prop where
  requests : ∀ {correlationData pending}, c'.pendingRequests.lookup correlationData = some pending →
    c.pendingRequests.lookup correlationData = some pending
  acks : ∀ {packetId entry'}, c'.pendingAcks.lookup packetId = some entry' →
    ∃ entry, c.pendingAcks.lookup packetId = some entry ∧ entry'.deadline = entry.deadline ∧
      (entry.kind.isTombstone = true → entry'.kind.isTombstone = true)

namespace Recedes

theorem refl (c : MqttConnection) : Recedes c c where
  requests h := h
  acks h := ⟨_, h, rfl, id⟩

theorem trans {c₁ c₂ c₃ : MqttConnection} (h : Recedes c₁ c₂) (h' : Recedes c₂ c₃) : Recedes c₁ c₃ where
  requests hl := h.requests (h'.requests hl)
  acks hl := by
    obtain ⟨e₂, hl₂, hd₂, ht₂⟩ := h'.acks hl
    obtain ⟨e₁, hl₁, hd₁, ht₁⟩ := h.acks hl₂
    exact ⟨e₁, hl₁, hd₂.trans hd₁, fun ht => ht₂ (ht₁ ht)⟩

-- Nothing else matters.
theorem of_eq (hr : c'.pendingRequests = c.pendingRequests) (ha : c'.pendingAcks = c.pendingAcks) :
    Recedes c c' where
  requests hl := hr ▸ hl
  acks hl := ⟨_, ha ▸ hl, rfl, id⟩

-- An entry is changed without being put off.
theorem adjust (hr : c'.pendingRequests = c.pendingRequests)
    (ha : c'.pendingAcks = c.pendingAcks.adjust packetId f)
    (hf : ∀ entry, (f entry).deadline = entry.deadline ∧ (f entry).kind.isTombstone = true) :
    Recedes c c' where
  requests hl := hr ▸ hl
  acks {packetId' entry'} hl := by
    rw [ha] at hl
    by_cases he : packetId' = packetId
    case pos =>
      rw [he, AList.lookup_adjust, Option.map_eq_some_iff] at hl
      obtain ⟨entry, hl, rfl⟩ := hl
      exact ⟨entry, he ▸ hl, (hf entry).left, fun _ => (hf entry).right⟩
    case neg =>
      rw [AList.lookup_adjust_ne he] at hl
      exact ⟨entry', hl, rfl, id⟩

theorem withoutRequest (c : MqttConnection) (correlationData pending) :
    Recedes c (c.withoutRequest correlationData pending) := by
  unfold MqttConnection.withoutRequest
  have hq : Recedes c (retainFrames correlationData
      { c with
        pendingRequests := c.pendingRequests.erase correlationData
        requestLifecycle := c.requestLifecycle.finish correlationData }) :=
    ⟨AList.lookup_of_lookup_erase, fun hl => ⟨_, hl, rfl, id⟩⟩
  cases pending.publishPacketId
  case none => exact hq
  case some packetId =>
    dsimp only
    cases c.outbound.any (isUnsentFrameOf correlationData)
    case true => exact ⟨hq.requests, fun hl => ⟨_, AList.lookup_of_lookup_erase hl, rfl, id⟩⟩
    case false => exact hq.trans (adjust rfl rfl fun _ => ⟨rfl, rfl⟩)

end Recedes

theorem Shift.recedes (h : Shift c c') : Recedes c c' := by
  cases h
  case quiet hq => cases hq; exact .of_eq rfl rfl
  case bury => exact .adjust rfl rfl fun _ => ⟨rfl, rfl⟩
  case forget => exact .adjust rfl rfl fun _ => ⟨rfl, rfl⟩
  case remove pending correlationData e _ =>
    exact (Recedes.withoutRequest c correlationData pending).trans (.of_eq rfl rfl)
  case sweep =>
    refine ⟨id, fun hl => ?_⟩
    rw [AList.lookup_mapValues, Option.map_eq_some_iff] at hl
    obtain ⟨entry, hl, rfl⟩ := hl
    refine ⟨entry, hl, ?_⟩
    split
    case isTrue => exact ⟨rfl, fun _ => rfl⟩
    case isFalse => exact ⟨rfl, id⟩

theorem recedes_of_shifts (h : ReflTransGen Shift c c') : Recedes c c' :=
  h.preserves (P := Recedes c) (fun _ _ hs h => h.trans hs.recedes) (.refl c)

theorem Recedes.of_leads {x : DriverM α} (hx : Leads Shift c x) (h : x c = .ok a c') :
    Recedes c c' := by
  unfold Leads at hx
  rw [h] at hx
  exact recedes_of_shifts hx

-- There is nothing left for a packet identifier but a tombstone.
def Buried (packetId : UInt16) (c : MqttConnection) : Prop :=
  ∀ entry, c.pendingAcks.lookup packetId = some entry → entry.kind.isTombstone = true

def Removed (correlationData : Bytes) (c : MqttConnection) : Prop :=
  c.pendingRequests.lookup correlationData = none

theorem Buried.recedes (h : Buried packetId c) (hr : Recedes c c') : Buried packetId c' := by
  intro entry' hl'
  obtain ⟨entry, hl, _, ht⟩ := hr.acks hl'
  exact ht (h entry hl)

theorem Removed.recedes (h : Removed correlationData c) (hr : Recedes c c') :
    Removed correlationData c' := by
  unfold Removed at h ⊢
  rw [Option.eq_none_iff_forall_ne_some] at h ⊢
  exact fun pending hl => h pending (hr.requests hl)

theorem expireAck_buries (h : expireAck packetId c = .ok () c') : Buried packetId c' := by
  rw [expireAck, EStateM.bind_ok (EStateM.get_apply _)] at h
  cases hl : c.pendingAcks.lookup packetId <;> rw [hl] at h
  case none =>
    cases h
    simp [Buried, hl]
  case some pending =>
    dsimp only at h
    rw [EStateM.bind_ok (EStateM.set_apply _ _)] at h
    generalize hc : { c with pendingAcks := c.pendingAcks.adjust packetId PendingAck.bury } = c₁ at h
    have hb : c₁.pendingAcks.lookup packetId = some pending.bury := by simp [← hc, hl]
    have hr : Recedes c₁ c' := by
      generalize pending.kind = kind at h
      cases kind
      case responseSubscribe responseTopic =>
        have hs := EStateM.modify_apply (ε := Error) (fun connection : MqttConnection =>
          { connection with
            responseSubscriptions := connection.responseSubscriptions.erase responseTopic }) c₁
        dsimp only at h
        rw [removeResponseSubscription, EStateM.bind_ok hs] at h
        refine .trans ?_ (.of_leads failRequestsForTopic_shifts h)
        exact .of_eq rfl rfl
      case requestPublish => exact .of_leads failRequest_shifts h
      all_goals
        cases h
        exact .of_eq rfl rfl
    intro entry he
    obtain ⟨entry', hl', _, ht⟩ := hr.acks he
    rw [hb] at hl'
    cases hl'
    exact ht rfl

theorem expireRequest_removes (h : expireRequest correlationData c = .ok () c') :
    Removed correlationData c' := by
  have hw (pending) : (c.withoutRequest correlationData pending).pendingRequests.lookup
      correlationData = none := by
    obtain ⟨_, _, _, he⟩ := withoutRequest_eq c correlationData pending
    rw [he, AList.lookup_erase]
  rw [expireRequest, EStateM.bind_ok (EStateM.get_apply _), EStateM.ite_apply] at h
  cases hl : c.pendingRequests.lookup correlationData
  case none =>
    have hn := removeRequest_of_none hl
    rw [EStateM.discard_ok hn, failRequest, EStateM.bind_ok hn] at h
    split at h <;> cases h <;> exact hl
  case some pending =>
    have hs := removeRequest_of_some hl
    rw [EStateM.discard_ok hs, failRequest, EStateM.bind_ok hs] at h
    split at h <;> cases h <;> exact hw pending

-- What has been given up is a tombstone at most.
theorem expireOperations_expires (h : expireOperations c = .ok () c') :
    (∀ correlationData pending, c'.pendingRequests.lookup correlationData = some pending →
      c.clock.now < pending.deadline) ∧
    (∀ packetId entry, c'.pendingAcks.lookup packetId = some entry →
      c.clock.now < entry.deadline ∨ entry.kind.isTombstone = true) := by
  obtain ⟨_, c₀, hn, h⟩ := EStateM.bind_eq_ok.mp h
  cases hn
  obtain ⟨_, c₁, _, h⟩ := EStateM.bind_eq_ok.mp h
  rw [EStateM.bind_ok (EStateM.get_apply _)] at h
  obtain ⟨_, c₂, ha, h⟩ := EStateM.bind_eq_ok.mp h
  rw [EStateM.bind_ok (EStateM.get_apply _)] at h
  have hra : Recedes c₁ c₂ := .of_leads (.forM fun _ _ => expireAck_shifts) ha
  have hrr : Recedes c₂ c' := .of_leads (.forM fun _ _ => expireRequest_shifts) h
  have hb : ∀ packetId ∈ c₁.expiredAcks c.clock.now, Buried packetId c₂ :=
    EStateM.forM_establishes (f := expireAck) (fun _ _ _ => expireAck_buries)
      (fun _ _ _ _ hs hb => hb.recedes (.of_leads expireAck_shifts hs)) ha
  have hn : ∀ correlationData ∈ c₂.expiredRequests c.clock.now, Removed correlationData c' :=
    EStateM.forM_establishes (f := expireRequest) (fun _ _ _ => expireRequest_removes)
      (fun _ _ _ _ hs hn => hn.recedes (.of_leads expireRequest_shifts hs)) h
  refine ⟨fun correlationData pending hl => ?_, fun packetId entry hl => ?_⟩
  case refine_1 =>
    by_contra hd
    have hm : correlationData ∈ c₂.expiredRequests c.clock.now := by
      rw [expiredRequests, requestsWhere, List.mem_map]
      refine ⟨⟨correlationData, pending⟩, List.mem_filter.mpr ⟨?_, ?_⟩, rfl⟩
      case refine_1 => exact AList.mem_lookup_iff.mp (hrr.requests hl)
      case refine_2 => simp [Nat.not_lt.mp hd]
    rw [hn _ hm] at hl
    cases hl
  case refine_2 =>
    by_contra hd
    rw [not_or, Nat.not_lt, Bool.not_eq_true] at hd
    obtain ⟨e₂, hl₂, hd₂, ht₂⟩ := hrr.acks hl
    obtain ⟨e₁, hl₁, hd₁, ht₁⟩ := hra.acks hl₂
    have hl₂' : e₂.kind.isTombstone = false := by
      by_contra ht
      rw [ht₂ (Bool.eq_true_of_not_eq_false ht)] at hd
      cases hd.right
    have hm : packetId ∈ c₁.expiredAcks c.clock.now := by
      rw [expiredAcks, List.mem_map]
      refine ⟨⟨packetId, e₁⟩, List.mem_filter.mpr ⟨AList.mem_lookup_iff.mp hl₁, ?_⟩, rfl⟩
      have hl₁' : e₁.kind.isTombstone = false := by
        by_contra ht
        rw [ht₁ (Bool.eq_true_of_not_eq_false ht)] at hl₂'
        cases hl₂'
      simp [hl₁', ← hd₁, ← hd₂, hd.left]
    rw [hb _ hm _ hl₂] at hl₂'
    cases hl₂'

-- No PINGREQ has to be queued and no PINGRESP is overdue.
structure Dormant (now : Instant) (c : MqttConnection) (interval : Duration) : Prop where
  outstanding : ∀ {sent}, c.pingOutstandingSince = some sent →
    now < sent + Duration.fromSecs c.keepAliveSecs.toNat
  idle : c.pingOutstandingSince = none → c.pingQueued = false → now < c.lastWriteAt + interval

-- What is waited for apart from a PINGRESP.
def awaited (c : MqttConnection) : AList (fun _ : UInt16 => PendingAck) ×
    AList (fun _ : Bytes => PendingRequest) × Duration × UInt16 :=
  (c.pendingAcks, c.pendingRequests, c.pollInterval, c.keepAliveSecs)

theorem servicePing_calm (h : servicePing start interval c = .ok () c') :
    c'.awaited = c.awaited ∧ Dormant start c' interval := by
  rw [servicePing, EStateM.bind_ok (EStateM.get_apply _)] at h
  cases hp : c.pingOutstandingSince <;> simp only [hp] at h
  case some sentAt =>
    rw [EStateM.ite_apply] at h
    split at h <;> cases h
    case isFalse hn =>
      refine ⟨rfl, fun hs => ?_, fun hs => ?_⟩ <;> rw [hp] at hs <;> cases hs
      exact lt_add_of_tsub_lt_left (Nat.not_le.mp hn)
  case none =>
    rw [EStateM.ite_apply] at h
    split at h
    case isFalse hd =>
      cases h
      refine ⟨rfl, fun hs => ?_, fun _ hq => ?_⟩
      case refine_1 =>
        rw [hp] at hs
        cases hs
      case refine_2 =>
        simp only [pingDue, hq, Bool.not_false, Bool.true_and, decide_eq_true_eq] at hd
        exact lt_add_of_tsub_lt_left (Nat.not_le.mp hd)
    case isTrue =>
      rcases enqueue_cases (c := c) pingreqBytes .pingReq none .driver with ⟨e, he, _⟩ | ⟨_, he⟩
      case inl =>
        rw [EStateM.bind_ok he] at h
        cases h
      case inr =>
        rw [EStateM.bind_ok he] at h
        cases h
        refine ⟨rfl, fun hs => ?_, fun _ hq => ?_⟩
        case refine_1 => cases hp.symm.trans hs
        case refine_2 => cases hq

theorem maintainKeepAlive_calm (h : maintainKeepAlive c = .ok () c') :
    c'.awaited = c.awaited ∧
      ∀ interval, keepAliveInterval c'.keepAliveSecs = some interval → Dormant c.clock.now c' interval := by
  rw [maintainKeepAlive, EStateM.bind_ok (EStateM.get_apply _)] at h
  cases hi : keepAliveInterval c.keepAliveSecs <;> rw [hi] at h <;> dsimp only at h
  case none =>
    cases h
    exact ⟨rfl, fun interval hs => by rw [hi] at hs; cases hs⟩
  case some interval =>
    have hn : now c = .ok c.clock.now { c with clock := c.clock.tick } := rfl
    rw [EStateM.bind_ok hn] at h
    obtain ⟨ha, hc⟩ := servicePing_calm h
    refine ⟨ha, fun interval' hs => ?_⟩
    have hk : c'.keepAliveSecs = c.keepAliveSecs := congrArg (·.2.2.2) ha
    rw [hk, hi] at hs
    cases hs
    exact hc

theorem foldl_min_pos {f : α → Nat} {xs : List α} {n : Nat} :
    0 < xs.foldl (fun wait a => min wait (f a)) n ↔ 0 < n ∧ ∀ a ∈ xs, 0 < f a := by
  induction xs generalizing n
  case nil => simp
  case cons a xs ih => rw [List.foldl_cons, ih, List.forall_mem_cons, lt_min_iff, and_assoc]

-- The wait is cut short for acknowledgements and requests only.
theorem nextWaitDuration_pos (hk : ∀ interval, keepAliveInterval c.keepAliveSecs = some interval →
      Dormant c.clock.now c interval) (h : nextWaitDuration c = .ok wait c') :
    0 < wait ↔ 0 < c.pollInterval ∧ (∀ entry ∈ c.pendingAcks.values, c.clock.now < entry.deadline) ∧
      ∀ pending ∈ c.pendingRequests.values, c.clock.now < pending.deadline := by
  have hn : now c = .ok c.clock.now { c with clock := c.clock.tick } := rfl
  rw [nextWaitDuration, EStateM.bind_ok hn, EStateM.bind_ok (EStateM.get_apply _)] at h
  dsimp only at h
  have hw : 0 < c.pendingRequests.values.foldl
      (fun wait pending => min wait (pending.deadline - c.clock.now))
      (c.pendingAcks.values.foldl (fun wait pending => min wait (pending.deadline - c.clock.now))
        c.pollInterval) ↔ 0 < c.pollInterval ∧
      (∀ entry ∈ c.pendingAcks.values, c.clock.now < entry.deadline) ∧
      ∀ pending ∈ c.pendingRequests.values, c.clock.now < pending.deadline := by
    rw [foldl_min_pos, foldl_min_pos]
    simp only [Nat.sub_pos_iff_lt, and_assoc]
  rw [← hw]
  generalize c.pendingRequests.values.foldl
    (fun wait pending => min wait (pending.deadline - c.clock.now)) _ = wait₀ at h ⊢
  cases hi : keepAliveInterval c.keepAliveSecs <;> rw [hi] at h
  case none =>
    cases h
    rfl
  case some interval =>
    have hc := hk interval hi
    cases hs : c.pingOutstandingSince <;> simp only [hs] at h
    case some sent =>
      cases h
      rw [lt_min_iff, and_iff_left (Nat.sub_pos_of_lt (hc.outstanding hs))]
    case none =>
      cases hq : c.pingQueued <;> simp only [hq] at h <;> cases h
      case true => rfl
      case false =>
        rw [lt_min_iff, and_iff_left (Nat.sub_pos_of_lt (hc.idle hs hq))]

theorem Traffic.pollInterval (h : Traffic c c') : c'.pollInterval = c.pollInterval := by
  cases h
  case write hw => cases hw <;> rfl
  case complete flush _ _ hp =>
    generalize flush.action = action at hp
    cases hp
    case disconnect ha => cases ha <;> rfl
    all_goals rfl
  case announce ha => cases ha <;> rfl
  all_goals rfl

theorem expireOperations_pollInterval (h : expireOperations c = .ok () c') :
    c'.pollInterval = c.pollInterval := by
  have hs := expireOperations_shifts (c := c)
  unfold Leads at hs
  rw [h] at hs
  exact (traffic_of hs Shift.traffic).preserves (P := fun c' => c'.pollInterval = c.pollInterval)
    (fun _ _ ht h => ht.pollInterval.trans h) rfl

end MqttConnection

namespace Driver

open MqttConnection

theorem pollInterval_run {clock : Clock} (h : (start options connack clock).run inputs = some driver) :
    driver.connection.pollInterval = options.pollInterval := by
  have ht {c c' : MqttConnection} (ht : Traffic c c') (h : c.pollInterval = options.pollInterval) :
      c'.pollInterval = options.pollInterval := ht.pollInterval.trans h
  have hr := run_traffic (P := fun c => c.pollInterval = options.pollInterval)
    (Q := fun c => c.pollInterval = options.pollInterval) (C := fun _ _ => True) (fun _ _ => ht)
    (fun _ _ _ _ h => h) (fun _ _ _ _ h => h) (fun _ _ he h => by cases he <;> exact h.elim id id)
    (fun _ _ _ ho h => ht ho.traffic h) rfl (.trivial _ _) h
  exact hr.elim id And.right

theorem pollInterval_pos {options : ConnectOptions} {clock : Clock} (h : options.validate clock = .ok ()) :
    0 < options.pollInterval := by
  unfold ConnectOptions.validate at h
  by_contra hp
  simp [Nat.eq_zero_of_not_pos hp] at h
  split at h <;> try split at h
  all_goals cases h

-- After the expiry and the service of the PINGREQs, the driver waits for some time exactly if it
-- holds no tombstone whose deadline has passed.
theorem nextWaitDuration_pos_iff (options : ConnectOptions) (connack : ConnAckPacket)
    (clock clock' : Clock) (inputs : List Input) (driver : Driver) (now : Instant)
    (c₁ c₂ c₃ : MqttConnection) (wait : Duration) (hv : options.validate clock' = .ok ())
    (h : (start options connack clock).run inputs = some driver)
    (he : MqttConnection.expireOperations driver.connection = .ok () c₁)
    (hk : MqttConnection.maintainKeepAlive c₁ = .ok () c₂)
    (hw : nextWaitDuration c₂ = .ok wait c₃)
    (h₀ : driver.connection.clock.now = now) (h₁ : c₁.clock.now = now) (h₂ : c₂.clock.now = now) :
    0 < wait ↔ ∀ packetId entry, c₂.pendingAcks.lookup packetId = some entry →
      entry.kind.isTombstone = true → now < entry.deadline := by
  obtain ⟨hr, ha⟩ := expireOperations_expires he
  obtain ⟨hs, hc⟩ := maintainKeepAlive_calm hk
  have hp : c₂.pollInterval = options.pollInterval := by
    have hp : c₂.pollInterval = c₁.pollInterval := congrArg (·.2.2.1) hs
    rw [hp, expireOperations_pollInterval he, pollInterval_run h]
  have hacks : c₂.pendingAcks = c₁.pendingAcks := congrArg (·.1) hs
  have hreqs : c₂.pendingRequests = c₁.pendingRequests := congrArg (·.2.1) hs
  rw [h₀] at hr ha
  rw [h₁, ← h₂] at hc
  rw [nextWaitDuration_pos hc hw, h₂, hp, AList.forall_values, AList.forall_values, hacks, hreqs]
  constructor
  case mp => exact fun h packetId entry hl _ => h.right.left packetId entry hl
  case mpr =>
    intro h
    refine ⟨pollInterval_pos hv, fun packetId entry hl => ?_, hr⟩
    exact (ha packetId entry hl).elim id (h packetId entry hl)

-- A SUBSCRIBE that the transport does not accept, up to the expiry of operations.
def unsent : List Input :=
  [.submit (.subscribe "a" .atMostOnce 0), .proceed, .proceed, .proceed, .proceed,
    .written (.error { kind := .wouldBlock }), .proceed, .read (.error { kind := .wouldBlock }),
    .proceed]

def unsentOptions : ConnectOptions :=
  { clientId := "a", keepAliveSecs := 0 }

-- All readings but the first two are this late.
def lateClock (time : Instant) : Clock :=
  { readings := fun n => if n < 2 then 0 else time, latest := Duration.fromSecs 1000 }

-- The driver after a run with this clock.
def lulled (time : Instant) (inputs : List Input) : Driver :=
  ((start unsentOptions plainConnack (lateClock time)).run inputs).getD
    (start unsentOptions plainConnack (lateClock time))

theorem run_lulled
    (h : ((start unsentOptions plainConnack (lateClock time)).run inputs).isSome = true) :
    (start unsentOptions plainConnack (lateClock time)).run inputs = some (lulled time inputs) := by
  unfold lulled
  obtain ⟨driver, hd⟩ := Option.isSome_iff_exists.mp h
  rw [hd, Option.getD_some]

-- The states after the expiry, after the service of the PINGREQs and after the wait.

def expired (driver : Driver) : MqttConnection :=
  (MqttConnection.expireOperations driver.connection).state

def serviced (driver : Driver) : MqttConnection :=
  (MqttConnection.maintainKeepAlive driver.expired).state

def waited (driver : Driver) : MqttConnection :=
  (nextWaitDuration driver.serviced).state

theorem nextWaitDuration_pos_cancelled :
    ∃ driver wait,
      (start unsentOptions plainConnack (lateClock 7)).run (unsent ++ [.dropReceiver 0]) = some driver ∧
      MqttConnection.expireOperations driver.connection = .ok () driver.expired ∧
      MqttConnection.maintainKeepAlive driver.expired = .ok () driver.serviced ∧
      nextWaitDuration driver.serviced = .ok wait driver.waited ∧
      (∃ entry ∈ driver.serviced.pendingAcks.values, entry.kind.isTombstone = true) ∧ 0 < wait := by
  have hr : (start unsentOptions plainConnack (lateClock 7)).run (unsent ++ [.dropReceiver 0]) =
      some (lulled 7 (unsent ++ [.dropReceiver 0])) := run_lulled (by decide +kernel)
  generalize hd : lulled 7 (unsent ++ [.dropReceiver 0]) = driver at hr
  have he : MqttConnection.expireOperations driver.connection = .ok () driver.expired :=
    EStateM.Result.eq_ok (by subst hd; decide +kernel)
  have hk : MqttConnection.maintainKeepAlive driver.expired = .ok () driver.serviced :=
    EStateM.Result.eq_ok (by subst hd; decide +kernel)
  have hw : nextWaitDuration driver.serviced = .ok (.fromMillis 2) driver.waited :=
    EStateM.Result.eq_ok (by subst hd; decide +kernel)
  have ht : ∀ entry ∈ driver.serviced.pendingAcks.values,
      entry.kind.isTombstone = true → 7 < entry.deadline := by subst hd; decide +kernel
  refine ⟨driver, _, hr, he, hk, hw, by subst hd; decide +kernel, ?_⟩
  refine (nextWaitDuration_pos_iff unsentOptions plainConnack (lateClock 7) (lateClock 7)
    (unsent ++ [.dropReceiver 0]) driver 7 driver.expired driver.serviced driver.waited _
    (by decide) hr he hk hw ?_ ?_ ?_).mpr (AList.forall_values.mp ht)
  all_goals subst hd; decide +kernel

-- The SUBSCRIBE has timed out, and its tombstone stays.
theorem busy_wait :
    ∃ driver,
      unsentOptions.validate (lateClock (Duration.fromSecs 20)) = .ok () ∧
      (start unsentOptions plainConnack (lateClock (Duration.fromSecs 20))).run unsent = some driver ∧
      driver.phase = .expireOperations ∧
      MqttConnection.expireOperations driver.connection = .ok () driver.expired ∧
      MqttConnection.maintainKeepAlive driver.expired = .ok () driver.serviced ∧
      nextWaitDuration driver.serviced = .ok 0 driver.waited ∧
      driver.connection.clock.now = Duration.fromSecs 20 ∧
      driver.expired.clock.now = Duration.fromSecs 20 ∧
      driver.serviced.clock.now = Duration.fromSecs 20 := by
  have hr : (start unsentOptions plainConnack (lateClock (Duration.fromSecs 20))).run unsent =
      some (lulled (Duration.fromSecs 20) unsent) := run_lulled (by decide +kernel)
  generalize hd : lulled (Duration.fromSecs 20) unsent = driver at hr
  have he : MqttConnection.expireOperations driver.connection = .ok () driver.expired :=
    EStateM.Result.eq_ok (by subst hd; decide +kernel)
  have hk : MqttConnection.maintainKeepAlive driver.expired = .ok () driver.serviced :=
    EStateM.Result.eq_ok (by subst hd; decide +kernel)
  have hw : nextWaitDuration driver.serviced = .ok 0 driver.waited :=
    EStateM.Result.eq_ok (by subst hd; decide +kernel)
  refine ⟨driver, by decide, hr, ?_, he, hk, hw, ?_, ?_, ?_⟩
  all_goals subst hd; decide +kernel

end Driver
end MqttWasi
