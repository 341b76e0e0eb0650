import MqttWasi.Driver.Theorems.Runs

-- How packet identifiers are chosen: round the circle 1, ..., 65535, to the first one that is free.

namespace MqttWasi

-- The identifiers in the order in which they are tried.
def packetIdFrom (start : UInt16) (k : Nat) : UInt16 :=
  .ofNat ((start.toNat - 1 + k) % 65535 + 1)

theorem toNat_packetIdFrom (start : UInt16) (k : Nat) :
    (packetIdFrom start k).toNat = (start.toNat - 1 + k) % 65535 + 1 := by
  rw [packetIdFrom, UInt16.toNat_ofNat']
  omega

theorem packetIdFrom_ne_zero (start : UInt16) (k : Nat) : packetIdFrom start k ≠ 0 := by
  intro h
  have := congrArg UInt16.toNat h
  rw [toNat_packetIdFrom] at this
  simp at this

theorem packetIdFrom_zero (h : start ≠ 0) : packetIdFrom start 0 = start := by
  have hs := start.toNat_lt
  have hn : start.toNat ≠ 0 := fun hc => h (UInt16.toNat_inj.mp hc)
  apply UInt16.toNat_inj.mp
  rw [toNat_packetIdFrom]
  omega

-- Once round the circle.
theorem packetIdFrom_all (h : start ≠ 0) : packetIdFrom start 65535 = start := by
  have hz := packetIdFrom_zero h
  rw [packetIdFrom, Nat.add_zero] at hz
  rwa [packetIdFrom, Nat.add_mod_right]

-- Every identifier is tried.
theorem exists_packetIdFrom (h : packetId ≠ 0) (start : UInt16) :
    ∃ k < 65535, packetIdFrom start k = packetId := by
  have hn : packetId.toNat ≠ 0 := fun hc => h (UInt16.toNat_inj.mp hc)
  have hl := packetId.toNat_lt
  refine ⟨(packetId.toNat + 65535 - 1 + 65535 - (start.toNat - 1)) % 65535, Nat.mod_lt _ (by decide), ?_⟩
  have hs := start.toNat_lt
  apply UInt16.toNat_inj.mp
  rw [toNat_packetIdFrom]
  omega

namespace MqttConnection

theorem toNat_nextPacketIdAfter (packetId : UInt16) :
    (nextPacketIdAfter packetId).toNat = packetId.toNat % 65535 + 1 := by
  have hl := packetId.toNat_lt
  have ha : (packetId + 1).toNat = (packetId.toNat + 1) % 65536 := UInt16.toNat_add ..
  rw [nextPacketIdAfter]
  split
  case isTrue h =>
    rw [h] at ha
    change 0 = _ at ha
    change 1 = _
    omega
  case isFalse h =>
    have hn : (packetId + 1).toNat ≠ 0 := fun hc => h (UInt16.toNat_inj.mp hc)
    omega

theorem nextPacketIdAfter_eq (packetId : UInt16) :
    nextPacketIdAfter packetId = if packetId = 65535 then 1 else packetId + 1 := by
  have h : packetId + 1 = 0 ↔ packetId = 65535 := by
    constructor
    case mp => intro h; exact eq_neg_of_add_eq_zero_left h
    case mpr => rintro rfl; rfl
  simp only [nextPacketIdAfter, h]

theorem packetIdFrom_succ (start : UInt16) (k : Nat) :
    nextPacketIdAfter (packetIdFrom start k) = packetIdFrom start (k + 1) := by
  apply UInt16.toNat_inj.mp
  rw [toNat_nextPacketIdAfter, toNat_packetIdFrom, toNat_packetIdFrom]
  omega

theorem packetIdFrom_next (h : start ≠ 0) (k : Nat) :
    packetIdFrom (nextPacketIdAfter start) k = packetIdFrom start (k + 1) := by
  have hn : start.toNat ≠ 0 := fun hc => h (UInt16.toNat_inj.mp hc)
  apply UInt16.toNat_inj.mp
  rw [toNat_packetIdFrom, toNat_packetIdFrom, toNat_nextPacketIdAfter]
  omega

variable {c c' : MqttConnection}

-- The first identifier that no operation uses, from the next one on.
def FirstFree (c : MqttConnection) (packetId : UInt16) : Prop :=
  ∃ k < 65535, packetIdFrom c.nextPacketId k = packetId ∧ packetId ∉ c.pendingAcks ∧
    ∀ j < k, packetIdFrom c.nextPacketId j ∈ c.pendingAcks

theorem FirstFree.unique (h : c.FirstFree packetId) (h' : c.FirstFree packetId') :
    packetId = packetId' := by
  obtain ⟨k, _, rfl, hn, hj⟩ := h
  obtain ⟨k', _, rfl, hn', hj'⟩ := h'
  rcases Nat.lt_trichotomy k k' with hk | rfl | hk
  case inl => exact absurd (hj' k hk) hn
  case inr.inl => rfl
  case inr.inr => exact absurd (hj k' hk) hn'

theorem reservePacketId_go_cases (rounds : Nat) (hc : c.nextPacketId ≠ 0) :
    (∃ k < rounds, packetIdFrom c.nextPacketId k ∉ c.pendingAcks ∧
      (∀ j < k, packetIdFrom c.nextPacketId j ∈ c.pendingAcks) ∧
      reservePacketId.go rounds c = .ok (.ok (packetIdFrom c.nextPacketId k))
        { c with nextPacketId := packetIdFrom c.nextPacketId (k + 1) }) ∨
    ((∀ k < rounds, packetIdFrom c.nextPacketId k ∈ c.pendingAcks) ∧
      reservePacketId.go rounds c = .ok (.error (.queueFull "packet identifiers"))
        { c with nextPacketId := packetIdFrom c.nextPacketId rounds }) := by
  induction rounds generalizing c
  case zero =>
    rw [packetIdFrom_zero hc]
    exact .inr ⟨nofun, rfl⟩
  case succ rounds ih =>
    have hz := packetIdFrom_zero hc
    have hs := packetIdFrom_next hc
    rw [reservePacketId.go, EStateM.bind_ok (EStateM.get_apply _),
      EStateM.bind_ok (EStateM.set_apply _ _)]
    by_cases hm : c.nextPacketId ∈ c.pendingAcks
    case neg =>
      rw [if_neg hm]
      refine .inl ⟨0, Nat.zero_lt_succ _, by rwa [hz], nofun, ?_⟩
      rw [← packetIdFrom_succ, hz]
      rfl
    case pos =>
      rw [if_pos hm]
      have hj {n : Nat} (h : ∀ j < n, packetIdFrom (nextPacketIdAfter c.nextPacketId) j ∈ c.pendingAcks) :
          ∀ j < n + 1, packetIdFrom c.nextPacketId j ∈ c.pendingAcks := by
        intro j hj
        cases j
        case zero => rwa [hz]
        case succ j => exact hs j ▸ h j (Nat.lt_of_succ_lt_succ hj)
      cases ih (c := { c with nextPacketId := nextPacketIdAfter c.nextPacketId })
        (nextPacketIdAfter_ne_zero _)
      case inl h =>
        obtain ⟨k, hk, hn, ht, hr⟩ := h
        refine .inl ⟨k + 1, Nat.succ_lt_succ hk, hs k ▸ hn, hj ht, ?_⟩
        rw [hr, ← hs, ← hs]
      case inr h =>
        obtain ⟨ht, hr⟩ := h
        refine .inr ⟨hj ht, ?_⟩
        rw [hr, ← hs]

-- An identifier is reserved, or all of them are in use.
theorem reservePacketId_cases (hc : c.nextPacketId ≠ 0) :
    (∃ packetId, c.FirstFree packetId ∧ reservePacketId c =
      .ok (.ok packetId) { c with nextPacketId := nextPacketIdAfter packetId }) ∨
    ((∀ packetId, packetId ≠ 0 → packetId ∈ c.pendingAcks) ∧
      reservePacketId c = .ok (.error (.queueFull "packet identifiers")) c) := by
  cases reservePacketId_go_cases 65535 hc
  case inl h =>
    obtain ⟨k, hk, hn, hj, hr⟩ := h
    refine .inl ⟨_, ⟨k, hk, rfl, hn, hj⟩, ?_⟩
    rw [packetIdFrom_succ]
    exact hr
  case inr h =>
    obtain ⟨ht, hr⟩ := h
    rw [packetIdFrom_all hc] at hr
    refine .inr ⟨fun packetId hp => ?_, hr⟩
    obtain ⟨k, hk, rfl⟩ := exists_packetIdFrom hp c.nextPacketId
    exact ht k hk

theorem FirstFree.ne_zero (h : c.FirstFree packetId) : packetId ≠ 0 := by
  obtain ⟨k, _, rfl, _⟩ := h
  exact packetIdFrom_ne_zero c.nextPacketId k

theorem FirstFree.unused (h : c.FirstFree packetId) : packetId ∉ c.pendingAcks := by
  obtain ⟨_, _, _, hn, _⟩ := h
  exact hn

-- What a sequence of calls returns, whatever operations are waiting at each of them.
def reservations (c : MqttConnection) :
    List (AList fun _ : UInt16 => PendingAck) → List (Except Error UInt16)
  | [] => []
  | pendingAcks :: calls =>
    match reservePacketId { c with pendingAcks } with
    | .ok r c'   => r :: c'.reservations calls
    | .error _ _ => []

theorem reservations_ne_zero (hc : c.nextPacketId ≠ 0) (hr : .ok packetId ∈ c.reservations calls) :
    packetId ≠ 0 := by
  induction calls generalizing c
  case nil => cases hr
  case cons pendingAcks calls ih =>
    rw [reservations] at hr
    cases reservePacketId_cases (c := { c with pendingAcks }) hc
    case inl h =>
      obtain ⟨packetId', hf, h⟩ := h
      rw [h] at hr
      cases List.mem_cons.mp hr
      case inl he => cases he; exact hf.ne_zero
      case inr hm => exact ih (nextPacketIdAfter_ne_zero _) hm
    case inr h =>
      rw [h.right] at hr
      cases List.mem_cons.mp hr
      case inl he => cases he
      case inr hm => exact ih (c := { c with pendingAcks }) hc hm

theorem reservePacketId_firstFree (c : MqttConnection) (hc : c.nextPacketId ≠ 0) :
    ∃ r c', reservePacketId c = .ok r c' ∧ c'.nextPacketId ≠ 0 ∧
      (∀ packetId, r = .ok packetId ↔ c.FirstFree packetId) ∧
      (∀ packetId, r = .ok packetId → packetId ≠ 0 ∧
        c' = { c with nextPacketId := if packetId = 65535 then 1 else packetId + 1 }) ∧
      (r = .error (.queueFull "packet identifiers") ↔
        ∀ packetId, packetId ≠ 0 → packetId ∈ c.pendingAcks) ∧
      (∀ e, r = .error e → e = .queueFull "packet identifiers" ∧ c' = c) ∧
      ∀ calls (packetId : UInt16), .ok packetId ∈ c.reservations calls → packetId ≠ 0 := by
  have hn (calls) (packetId : UInt16) (hr : .ok packetId ∈ c.reservations calls) : packetId ≠ 0 :=
    reservations_ne_zero hc hr
  cases reservePacketId_cases hc
  case inl h =>
    obtain ⟨packetId, hf, h⟩ := h
    refine ⟨_, _, h, nextPacketIdAfter_ne_zero _, fun packetId' => ⟨?_, ?_⟩, fun packetId' he => ?_,
      ⟨nofun, fun ht => ?_⟩, nofun, hn⟩
    case refine_1 => intro he; cases he; exact hf
    case refine_2 => intro hf'; rw [hf.unique hf']
    case refine_3 =>
      cases he
      rw [← nextPacketIdAfter_eq]
      exact ⟨hf.ne_zero, rfl⟩
    case refine_4 => exact absurd (ht packetId hf.ne_zero) hf.unused
  case inr h =>
    obtain ⟨ht, h⟩ := h
    refine ⟨_, _, h, hc, fun packetId => ⟨nofun, fun hf => ?_⟩, nofun, ⟨fun _ => ht, fun _ => rfl⟩,
      fun e he => ?_, hn⟩
    case refine_1 => exact absurd (ht packetId hf.ne_zero) hf.unused
    case refine_2 => cases he; exact ⟨rfl, rfl⟩

-- The next identifier and the one after it are in use.
def wrapping : MqttConnection :=
  let pending : PendingAck :=
    { deadline := Duration.fromSecs 1, timeoutLabel := "test", kind := .tombstone .publish false
      origin := .driver }
  { MqttConnection.new Driver.plainOptions Driver.plainConnack Driver.stillClock with
    nextPacketId := 65535
    pendingAcks := (AList.insert 65535 pending ∅).insert 1 pending }

theorem reservePacketId_firstFree_wrapping :
    wrapping.FirstFree 2 ∧ ∃ c', reservePacketId wrapping = .ok (.ok 2) c' ∧ c'.nextPacketId = 3 := by
  obtain ⟨r, c', hr, _, hf, hn, _⟩ := reservePacketId_firstFree wrapping (by decide)
  have h : wrapping.FirstFree 2 := ⟨2, by decide, by decide, by decide, by decide⟩
  obtain rfl := (hf 2).mpr h
  obtain ⟨_, rfl⟩ := hn 2 rfl
  exact ⟨h, _, hr, rfl⟩

end MqttConnection
end MqttWasi
