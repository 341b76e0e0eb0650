import MqttWasi.Connect.Tcp
import MqttWasi.Library.Transition

-- What is tried before a TCP connection is there.

namespace MqttWasi

namespace Clock

-- What a clock showed between two states of it
def Shown (clock clock' : Clock) (t : Instant) : Prop :=
  ∃ n, clock.ticks ≤ n ∧ n < clock'.ticks ∧ clock.readings n = t

structure Ahead (clock clock' : Clock) : Prop where
  readings : clock'.readings = clock.readings
  ticks : clock.ticks ≤ clock'.ticks

variable {clock between clock' clock'' : Clock}

theorem Ahead.refl (clock : Clock) : clock.Ahead clock :=
  ⟨rfl, le_rfl⟩

theorem Ahead.tick (h : Ahead clock.tick clock') : clock.Ahead clock' :=
  ⟨h.readings, Nat.le_of_succ_le h.ticks⟩

theorem Ahead.trans (h : clock.Ahead between) (h' : between.Ahead clock') : clock.Ahead clock' :=
  ⟨h'.readings.trans h.readings, h.ticks.trans h'.ticks⟩

theorem Ahead.shown (h : Ahead clock.tick clock') : clock.Shown clock' clock.now :=
  ⟨clock.ticks, le_rfl, h.ticks, rfl⟩

theorem Shown.now (clock : Clock) : clock.Shown clock.tick clock.now :=
  Ahead.shown (.refl _)

theorem Shown.mono (h : Shown between clock' t) (hb : clock.Ahead between) (hc : clock'.Ahead clock'') :
    clock.Shown clock'' t := by
  obtain ⟨n, hs, he, rfl⟩ := h
  exact ⟨n, hb.ticks.trans hs, he.trans_le hc.ticks, by rw [hb.readings]⟩

end Clock

-- Every attempt starts at a reading of the clock before the deadline, and it may take exactly the time that
-- is left then.
structure Attempt.Timely (Shown : Instant → Prop) (deadline : Instant) (attempt : Attempt Addr) : Prop where
  shown : Shown attempt.start
  early : attempt.start < deadline
  bounded : attempt.start + attempt.timeout = deadline

theorem Attempt.Timely.mono {Shown Shown' : Instant → Prop} {attempt : Attempt Addr}
    (h : attempt.Timely Shown deadline) (hi : ∀ t, Shown t → Shown' t) : attempt.Timely Shown' deadline :=
  { h with shown := hi _ h.shown }

def Attempt.Failed (attempt : Attempt Addr) : Prop :=
  ∃ e, attempt.result = .error e

-- How opening a connection ends, and why.
inductive Opening
  | connected (stream : Transport)
  | late
  | refused (error : IoError)
  | unresolved
  | unresolvable (error : IoError)

-- All attempts but a last that succeeds have failed. Only when every address was tried the error of the
-- last is what is reported.
inductive Opens {Addr : Type} (Shown : Instant → Prop) (deadline : Instant) :
    Except IoError (List Addr) → List (Attempt Addr) → Opening → Prop
  | connected {addrs : List Addr} (before) {attempt : Attempt Addr} :
    (∀ attempt ∈ before, attempt.Failed) → (attempt.result = .ok stream) →
    Opens Shown deadline (.ok addrs) (before ++ [attempt]) (.connected stream)
  | late {tries : List (Attempt Addr)} :
    (∀ attempt ∈ tries, attempt.Failed) → Shown t → (deadline ≤ t) →
    Opens Shown deadline addresses tries .late
  | refused (before) {attempt : Attempt Addr} :
    (∀ attempt ∈ before, attempt.Failed) → (attempt.result = .error e) →
    ((before ++ [attempt]).map (·.addr) = addrs) →
    Opens Shown deadline (.ok addrs) (before ++ [attempt]) (.refused e)
  | unresolved : Opens Shown deadline (.ok []) [] .unresolved
  | unresolvable : Opens Shown deadline (.error e) [] (.unresolvable e)

-- The attempts of a loop over some addresses, and how it ends.
inductive Dials {Addr : Type} (Shown : Instant → Prop) (deadline : Instant) :
    List Addr → Bool → Option IoError → List (Attempt Addr) → Network.Dialled → Prop
  | exhausted : Dials Shown deadline [] attempted lastError [] (.exhausted attempted lastError)
  | late :
    Shown t → (deadline ≤ t) → Dials Shown deadline (addr :: addrs) attempted lastError [] .late
  | connected :
    Shown start → (start < deadline) →
    Dials Shown deadline (addr :: addrs) attempted lastError [⟨addr, start, deadline - start, .ok stream⟩]
      (.connected stream)
  | next :
    Shown start → (start < deadline) → (Dials Shown deadline addrs true (some e) tries ending) →
    Dials Shown deadline (addr :: addrs) attempted lastError
      (⟨addr, start, deadline - start, .error e⟩ :: tries) ending

section

variable {Addr : Type} {Shown : Instant → Prop} {deadline : Instant} {addrs : List Addr}
  {tries : List (Attempt Addr)}

theorem Dials.mono {Shown' : Instant → Prop} (hi : ∀ t, Shown t → Shown' t)
    (h : Dials Shown deadline addrs attempted lastError tries ending) :
    Dials Shown' deadline addrs attempted lastError tries ending := by
  induction h
  case exhausted => exact .exhausted
  case late hs ht => exact .late (hi _ hs) ht
  case connected hs ht => exact .connected (hi _ hs) ht
  case next hs ht _ ih => exact .next (hi _ hs) ht ih

theorem Opens.mono {Shown' : Instant → Prop} {addresses : Except IoError (List Addr)}
    (hi : ∀ t, Shown t → Shown' t) (h : Opens Shown deadline addresses tries opening) :
    Opens Shown' deadline addresses tries opening := by
  cases h
  case connected hf hr => exact .connected _ hf hr
  case late hs hd hf => exact .late hf (hi _ hs) hd
  case refused hf hr ha => exact .refused _ hf hr ha
  case unresolved => exact .unresolved
  case unresolvable => exact .unresolvable

theorem Dials.order (h : Dials Shown deadline addrs attempted lastError tries ending) :
    tries.map (·.addr) <+: addrs := by
  induction h
  case next ih => exact (List.prefix_cons_inj _).mpr ih
  all_goals simp

theorem Dials.timely (h : Dials Shown deadline addrs attempted lastError tries ending) :
    ∀ attempt ∈ tries, attempt.Timely Shown deadline := by
  induction h
  case connected hs ht => simpa using ⟨hs, ht, Nat.add_sub_of_le ht.le⟩
  case next hs ht _ ih => exact List.forall_mem_cons.mpr ⟨⟨hs, ht, Nat.add_sub_of_le ht.le⟩, ih⟩
  all_goals simp

-- A failed attempt before the others
theorem Opens.cons {attempt : Attempt Addr} (hf : attempt.Failed)
    (h : Opens Shown deadline (.ok addrs) tries opening) (ho : opening ≠ .unresolved) :
    Opens Shown deadline (.ok (attempt.addr :: addrs)) (attempt :: tries) opening := by
  cases h
  case connected before _ hb hr =>
    exact .connected (attempt :: before) (List.forall_mem_cons.mpr ⟨hf, hb⟩) hr
  case late hs hd hb => exact .late (List.forall_mem_cons.mpr ⟨hf, hb⟩) hs hd
  case refused before _ hb hr ha =>
    exact .refused (attempt :: before) (List.forall_mem_cons.mpr ⟨hf, hb⟩) hr (by simp [ha])
  case unresolved => exact absurd rfl ho

theorem Opens.failed {addresses : Except IoError (List Addr)} (h : Opens Shown deadline addresses tries opening)
    (hn : ∀ stream, opening ≠ .connected stream) : ∀ attempt ∈ tries, attempt.Failed := by
  cases h
  case connected => exact absurd rfl (hn _)
  case late _ _ hf => exact hf
  case refused hf hr _ =>
    intro attempt' hm
    rcases List.mem_append.mp hm with hm | hm
    case inl => exact hf attempt' hm
    case inr =>
      obtain rfl := List.mem_singleton.mp hm
      exact ⟨_, hr⟩
  all_goals simp

-- What the ending of a loop over the addresses stands for.
def Dialled (Shown : Instant → Prop) (deadline : Instant) (addrs : List Addr) (attempted : Bool)
    (lastError : Option IoError) (tries : List (Attempt Addr)) : Network.Dialled → Prop
  | .connected stream => Opens Shown deadline (.ok addrs) tries (.connected stream)
  | .late => Opens Shown deadline (.ok addrs) tries .late
  | .exhausted attempted' lastError' =>
    (addrs = [] ∧ tries = [] ∧ attempted' = attempted ∧ lastError' = lastError) ∨
      ∃ e, attempted' = true ∧ lastError' = some e ∧ Opens Shown deadline (.ok addrs) tries (.refused e)

theorem Dials.opens (h : Dials Shown deadline addrs attempted lastError tries ending) :
    Dialled Shown deadline addrs attempted lastError tries ending := by
  induction h
  case exhausted => exact .inl ⟨rfl, rfl, rfl, rfl⟩
  case late hs hd => exact .late (by simp) hs hd
  case connected => exact .connected [] (by simp) rfl
  case next start _ e _ ending addr _ _ _ _ _ ih =>
    have hf : Attempt.Failed ⟨addr, start, deadline - start, .error e⟩ := ⟨e, rfl⟩
    cases ending
    case connected => exact Opens.cons hf ih (by simp)
    case late => exact Opens.cons hf ih (by simp)
    case exhausted =>
      rcases ih with ⟨rfl, rfl, rfl, rfl⟩ | ⟨e', rfl, rfl, ho⟩
      case inl => exact .inr ⟨e, rfl, rfl, .refused [] (by simp) rfl rfl⟩
      case inr => exact .inr ⟨e', rfl, rfl, ho.cons hf (by simp)⟩

end

namespace Network

variable {Addr : Type} {network network' : Network Addr} {deadline : Instant} {addrs : List Addr}
  {tries : List (Attempt Addr)} {Shown : Instant → Prop}

theorem now_apply (network : Network Addr) :
    now network = .ok network.clock.now { network with clock := network.clock.tick } :=
  rfl

theorem lift_ok (a : α) (network : Network Addr) : lift (.ok a) network = .ok a network :=
  rfl

theorem connectTimeout_ok (h : connectTimeout addr start timeout network = .ok result network') :
    network'.attempts = network.attempts ++ [.mk addr start timeout result] ∧
      network'.addresses = network.addresses ∧ network'.clock = network.clock := by
  rw [connectTimeout, EStateM.bind_ok (EStateM.get_apply _)] at h
  cases hc : network.connects <;> rw [hc] at h <;> cases h
  exact ⟨rfl, rfl, rfl⟩

theorem connectTimeout_error (h : connectTimeout addr start timeout network = .error stop network') :
    stop = .blocked := by
  rw [connectTimeout, EStateM.bind_ok (EStateM.get_apply _)] at h
  cases hc : network.connects <;> rw [hc] at h <;> cases h
  rfl

theorem dial_dials (h : dial deadline addrs attempted lastError network = .ok ending network') :
    network.clock.Ahead network'.clock ∧
    ∃ tries, network'.attempts = network.attempts ++ tries ∧
      Dials (network.clock.Shown network'.clock) deadline addrs attempted lastError tries ending := by
  induction addrs generalizing attempted lastError network
  case nil =>
    cases h
    exact ⟨.refl _, [], by simp, .exhausted⟩
  case cons addr addrs ih =>
    rw [dial, EStateM.bind_ok (now_apply network)] at h
    by_cases hd : network.clock.now ≥ deadline
    case pos =>
      rw [if_pos hd] at h
      cases h
      exact ⟨.tick (.refl _), [], by simp, .late (.now _) hd⟩
    case neg =>
      rw [if_neg hd] at h
      obtain ⟨result, between, hc, h⟩ := EStateM.bind_eq_ok.mp h
      obtain ⟨ha, _, hr⟩ := connectTimeout_ok hc
      have hd := Nat.lt_of_not_le hd
      cases result
      case ok stream =>
        cases h
        rw [hr]
        exact ⟨.tick (.refl _), _, ha, .connected (.now _) hd⟩
      case error e =>
        obtain ⟨hi, tries, ht, hs⟩ := ih h
        rw [hr] at hi hs
        refine ⟨hi.tick, _, ?_, .next hi.shown hd (hs.mono fun t hs => hs.mono (.tick (.refl _)) (.refl _))⟩
        rw [ht, ha, List.append_assoc]
        rfl

end Network

namespace Opening

-- What each of the three functions returns.
def tcp : Opening → Except IoError Transport
  | .connected stream => .ok stream
  | .late => .error { kind := .timedOut, message := "TCP connect timed out" }
  | .refused e => .error e
  | .unresolved => .error { kind := .invalidInput, message := "address resolved to no socket addresses" }
  | .unresolvable e => .error e

def tcpUntil : Opening → Except Error Transport
  | .connected stream => .ok stream
  | .late => .error (.timeout "connect")
  | .refused e => .error (mapConnectIo e)
  | .unresolved => .error (.io { kind := .invalidInput, message := "address resolved to no endpoints" })
  | .unresolvable e => .error (.io e)

def tls : Opening → Except IoError Transport
  | .connected stream => .ok stream
  | .late => .error { kind := .timedOut, message := "TLS TCP connection deadline elapsed" }
  | .refused e => .error e
  | .unresolved => .error { kind := .invalidInput, message := "address resolved to no endpoints" }
  | .unresolvable e => .error e

end Opening

namespace Network

variable {Addr : Type} {network network' : Network Addr} {deadline : Instant}

-- From one state of the network to another a connection is opened: the addresses are tried in their order,
-- each for the time that is left.
structure Opened (network network' : Network Addr) (deadline : Instant) (opening : Opening) : Prop where
  ahead : network.clock.Ahead network'.clock
  tried : ∃ tries, network'.attempts = network.attempts ++ tries ∧
    Opens (network.clock.Shown network'.clock) deadline network.addresses tries opening ∧
    (∀ addrs, network.addresses = .ok addrs → tries.map (·.addr) <+: addrs) ∧
    ∀ attempt ∈ tries, attempt.Timely (network.clock.Shown network'.clock) deadline

theorem opened_unresolvable (h : network.addresses = .error e) (ha : network'.attempts = network.attempts)
    (hc : network.clock.Ahead network'.clock) : Opened network network' deadline (.unresolvable e) :=
  ⟨hc, [], by simp [ha], h ▸ .unresolvable, by simp, by simp⟩

theorem opened_late (h : deadline ≤ network.clock.now) (ha : network'.attempts = network.attempts)
    (hc : Clock.Ahead network.clock.tick network'.clock) : Opened network network' deadline .late :=
  ⟨hc.tick, [], by simp [ha], .late (by simp) hc.shown h, by simp, by simp⟩

-- The ending of the loop over all addresses, as an opening.
inductive Means : Dialled → Opening → Prop
  | connected : Means (.connected stream) (.connected stream)
  | late : Means .late .late
  | refused : Means (.exhausted true (some e)) (.refused e)
  | unresolved : Means (.exhausted false none) .unresolved

theorem dial_opened (h : dial deadline addrs false none between = .ok ending network')
    (ha : network.addresses = .ok addrs) (ht : between.attempts = network.attempts)
    (hc : network.clock.Ahead between.clock) :
    ∃ opening, Opened network network' deadline opening ∧ Means ending opening := by
  obtain ⟨hs, tries, hn, hd⟩ := dial_dials h
  have hd := hd.mono fun t hs => hs.mono hc (.refl network'.clock)
  rw [ht] at hn
  have hi {opening} (ho : Opens (network.clock.Shown network'.clock) deadline (.ok addrs) tries opening) :
      Opened network network' deadline opening :=
    ⟨hc.trans hs, tries, hn, ha ▸ ho, fun _ he => by cases ha.symm.trans he; exact hd.order, hd.timely⟩
  have ho := hd.opens
  cases ending
  case connected => exact ⟨_, hi ho, .connected⟩
  case late => exact ⟨_, hi ho, .late⟩
  case exhausted =>
    rcases ho with ⟨rfl, rfl, rfl, rfl⟩ | ⟨e, rfl, rfl, ho⟩
    case inl => exact ⟨_, hi .unresolved, .unresolved⟩
    case inr => exact ⟨_, hi ho, .refused⟩

-- No more attempts are made once it is known how the loop ends.
theorem Opened.tick (h : Opened network between deadline opening) :
    Opened network { between with clock := between.clock.tick } deadline opening := by
  obtain ⟨tries, hn, ho, ha, ht⟩ := h.tried
  have hs (t) (h : network.clock.Shown between.clock t) : network.clock.Shown between.clock.tick t :=
    h.mono (.refl _) (.tick (.refl _))
  exact ⟨h.ahead.trans (.tick (.refl _)), tries, hn, ho.mono hs, ha, fun attempt hm => (ht attempt hm).mono hs⟩

-- Without a connection the deadline may still pass before that is reported.
theorem Opened.too_late (h : Opened network between deadline opening) (hm : Means (.exhausted attempted e) opening)
    (hd : deadline ≤ between.clock.now) :
    Opened network { between with clock := between.clock.tick } deadline .late := by
  obtain ⟨tries, hn, ho, ha, ht⟩ := h.tick.tried
  have hs : network.clock.Shown between.clock.tick between.clock.now :=
    Clock.Shown.mono (.now _) h.ahead (.refl _)
  exact ⟨h.tick.ahead, tries, hn, .late (ho.failed fun stream he => by subst he; cases hm) hs hd, ha, ht⟩

theorem connectTcp_opened (h : connectTcp deadline network = .ok result network') :
    ∃ opening, Opened network network' deadline opening ∧ result = opening.tcp := by
  rw [connectTcp, EStateM.bind_ok (EStateM.get_apply _)] at h
  cases ha : network.addresses <;> rw [ha] at h
  case error e =>
    cases h
    exact ⟨_, opened_unresolvable ha rfl (.refl _), rfl⟩
  case ok addrs =>
    obtain ⟨ending, between, hd, h⟩ := EStateM.bind_eq_ok.mp h
    obtain ⟨opening, ho, hm⟩ := dial_opened hd ha rfl (.refl _)
    cases hm <;> cases h
    all_goals exact ⟨_, ho, rfl⟩

theorem connectTcpWithDeadline_opened (h : connectTcpWithDeadline timeout network = .ok result network') :
    (∃ e, result = .error e ∧ network'.attempts = network.attempts) ∨
      ∃ opening, Opened network network' (network.clock.now + timeout) opening ∧ result = opening.tls := by
  rw [connectTcpWithDeadline] at h
  by_cases hz : timeout = 0
  case pos =>
    rw [if_pos hz] at h
    cases h
    exact .inl ⟨_, rfl, rfl⟩
  case neg =>
    rw [if_neg hz, EStateM.bind_ok (now_apply network), EStateM.bind_ok (EStateM.get_apply _)] at h
    cases hd : network.clock.tick.checkedAdd network.clock.now timeout <;> simp only [hd] at h
    case none =>
      cases h
      exact .inl ⟨_, rfl, rfl⟩
    case some deadline =>
      obtain rfl : network.clock.now + timeout = deadline :=
        Option.some.inj (Option.ite_none_right_eq_some.mp hd).right
      rw [EStateM.bind_ok (EStateM.get_apply _)] at h
      cases ha : network.addresses <;> rw [ha] at h
      case error e =>
        cases h
        exact .inl ⟨e, rfl, rfl⟩
      case ok addrs =>
        obtain ⟨ending, between, hd, h⟩ := EStateM.bind_eq_ok.mp h
        obtain ⟨opening, ho, hm⟩ := dial_opened hd ha rfl (.tick (.refl _))
        cases hm <;> cases h
        all_goals exact .inr ⟨_, ho, rfl⟩

theorem connectRemaining_apply (h : network.clock.now < deadline) :
    connectRemaining deadline network =
      .ok (deadline - network.clock.now) { network with clock := network.clock.tick } := by
  rw [connectRemaining, EStateM.bind_ok (now_apply network), if_pos h]
  rfl

theorem connectRemaining_late (h : deadline ≤ network.clock.now) :
    connectRemaining deadline network =
      .error (.failed (.timeout "connect")) { network with clock := network.clock.tick } := by
  rw [connectRemaining, EStateM.bind_ok (now_apply network), if_neg h.not_gt]
  rfl

-- The loop only stops where it waits for an attempt.
theorem dial_blocked (h : dial deadline addrs attempted lastError network = .error stop network') :
    stop = .blocked := by
  induction addrs generalizing attempted lastError network
  case nil => cases h
  case cons addr addrs ih =>
    rw [dial, EStateM.bind_ok (now_apply network)] at h
    by_cases hd : network.clock.now ≥ deadline
    case pos =>
      rw [if_pos hd] at h
      cases h
    case neg =>
      rw [if_neg hd] at h
      rcases EStateM.bind_eq_error.mp h with hc | ⟨result, between, _, h⟩
      case inl => exact connectTimeout_error hc
      case inr =>
        cases result
        case ok => cases h
        case error => exact ih h

inductive Returns : EStateM.Result Stop (Network Addr) α → Except Error α → Network Addr → Prop
  | ok {network : Network Addr} : Returns (.ok a network) (.ok a) network
  | failed {network : Network Addr} : Returns (.error (.failed e) network) (.error e) network

theorem connectTcpUntil_opened (h : Returns (connectTcpUntil deadline network) result network') :
    ∃ opening, Opened network network' deadline opening ∧ result = opening.tcpUntil := by
  rw [connectTcpUntil, EStateM.bind_ok (EStateM.get_apply _)] at h
  by_cases hl : deadline ≤ network.clock.now
  case pos =>
    rw [EStateM.bind_error (connectRemaining_late hl)] at h
    cases h
    exact ⟨_, opened_late hl rfl (.refl _), rfl⟩
  case neg =>
    rw [EStateM.bind_ok (connectRemaining_apply (Nat.lt_of_not_le hl))] at h
    cases ha : network.addresses <;> rw [ha] at h
    case error e =>
      cases h
      exact ⟨_, opened_unresolvable ha rfl (.tick (.refl _)), rfl⟩
    case ok addrs =>
      rw [show Except.mapError Error.io (.ok addrs) = .ok addrs from rfl, EStateM.bind_ok (lift_ok _ _)] at h
      cases hd : dial deadline addrs false none { network with clock := network.clock.tick }
      all_goals rw [ha] at hd
      case error stop between =>
        rw [EStateM.bind_error hd, dial_blocked hd] at h
        cases h
      case ok ending between =>
        rw [EStateM.bind_ok hd] at h
        obtain ⟨opening, ho, hm⟩ := dial_opened hd ha rfl (.tick (.refl _))
        cases ending
        case connected =>
          cases hm
          cases h
          exact ⟨_, ho, rfl⟩
        case late =>
          cases hm
          cases h
          exact ⟨_, ho, rfl⟩
        case exhausted attempted lastError =>
          by_cases hl : deadline ≤ between.clock.now
          case pos =>
            dsimp only at h
            rw [EStateM.bind_error (connectRemaining_late hl)] at h
            cases h
            exact ⟨_, ho.too_late hm hl, rfl⟩
          case neg =>
            dsimp only at h
            rw [EStateM.bind_ok (connectRemaining_apply (Nat.lt_of_not_le hl))] at h
            cases hm <;> cases h
            all_goals exact ⟨_, ho.tick, rfl⟩

theorem Returns.of_ok {x : NetworkM Addr α} (h : x network = .ok a network') :
    Returns (x network) (.ok a) network' := by
  rw [h]
  exact .ok

theorem Returns.bind {x : NetworkM Addr β} {f : β → NetworkM Addr α}
    (h : Returns ((x >>= f) network) result network') :
    (∃ e, Returns (x network) (.error e) network' ∧ result = .error e) ∨
      ∃ a between, x network = .ok a between ∧ Returns (f a between) result network' := by
  cases hx : x network
  case ok a between =>
    rw [EStateM.bind_ok hx] at h
    exact .inr ⟨a, between, rfl, h⟩
  case error stop between =>
    rw [EStateM.bind_error hx] at h
    cases h
    exact .inl ⟨_, .failed, rfl⟩

theorem Opened.of_ahead (h : Opened between network' deadline opening)
    (ha : between.addresses = network.addresses) (ht : between.attempts = network.attempts)
    (hc : network.clock.Ahead between.clock) : Opened network network' deadline opening := by
  obtain ⟨tries, hn, ho, hp, hs⟩ := h.tried
  have hm (t) (h : between.clock.Shown network'.clock t) : network.clock.Shown network'.clock t :=
    h.mono hc (.refl _)
  exact ⟨hc.trans h.ahead, tries, ht ▸ hn, ha ▸ ho.mono hm, ha ▸ hp, fun attempt ht => (hs attempt ht).mono hm⟩

theorem connectTcp_blocked (h : connectTcp deadline network = .error stop network') : stop = .blocked := by
  rw [connectTcp, EStateM.bind_ok (EStateM.get_apply _)] at h
  cases ha : network.addresses <;> rw [ha] at h
  case error e => cases h
  case ok addrs =>
    rcases EStateM.bind_eq_error.mp h with hd | ⟨ending, between, hd, h⟩
    case inl => exact dial_blocked hd
    case inr =>
      cases ending
      case exhausted attempted _ => cases attempted <;> cases h
      all_goals cases h

-- A client comes from the handshake over the stream of the last attempt, which has the time that is left.
-- An opening that fails decides the error.
structure ConnectEnds (options : ConnectOptions) (network network' : Network Addr)
    (result : Except Error MqttClient) (deadline : Instant) (opening : Opening) : Prop where
  opened : Opened network network' deadline opening
  client : ∀ client, result = .ok client → ∃ stream now clock, opening = .connected stream ∧
    network.clock.Shown network'.clock now ∧ now < deadline ∧
    MqttClient.connectWith stream clock { options with connectTimeout := deadline - now } = .ok client
  error : ∀ e, opening.tcp = .error e →
    result = .error (if e.kind = .timedOut then .timeout "connect" else .io e)

theorem tcp_eq_ok (h : Opening.tcp opening = .ok stream) : opening = .connected stream := by
  cases opening <;> cases h
  rfl

theorem connect_ends (h : Returns (connect options network) result network')
    (hv : options.validate network.clock = .ok ()) :
    (∃ message, result = .error (.invalidOptions message) ∧ network'.attempts = network.attempts) ∨
      ∃ opening, ConnectEnds options network network' result
        (network.clock.tick.now + options.connectTimeout) opening := by
  rw [connect, EStateM.bind_ok (EStateM.get_apply _), hv, EStateM.bind_ok (lift_ok _ _),
    EStateM.bind_ok (now_apply network), EStateM.bind_ok (now_apply _), EStateM.bind_ok (EStateM.get_apply _)] at h
  cases hd : network.clock.tick.tick.checkedAdd network.clock.tick.now options.connectTimeout <;>
    simp only [hd] at h
  case none =>
    cases h
    exact .inl ⟨_, rfl, rfl⟩
  case some deadline =>
    obtain rfl : network.clock.tick.now + options.connectTimeout = deadline :=
      Option.some.inj (Option.ite_none_right_eq_some.mp hd).right
    rw [EStateM.bind_ok (EStateM.pure_apply _ _)] at h
    rcases h.bind with ⟨e, he, rfl⟩ | ⟨connected, between, hc, h⟩
    case inl =>
      cases hc : connectTcp (network.clock.tick.now + options.connectTimeout)
        { network with clock := network.clock.tick.tick }
      all_goals rw [hc] at he
      case ok => cases he
      case error =>
        cases connectTcp_blocked hc
        cases he
    case inr =>
      obtain ⟨opening, ho, rfl⟩ := connectTcp_opened hc
      have ho : Opened network between _ opening := ho.of_ahead rfl rfl (.tick (.tick (.refl _)))
      refine .inr ⟨opening, ?_⟩
      cases ht : opening.tcp
      case error e =>
        rw [ht] at h
        dsimp only at h
        split at h
        case isTrue hk =>
          cases h
          exact ⟨ho, fun client he => by (cases he), fun e' he => by cases ht.symm.trans he; simp [hk]⟩
        case isFalse hk =>
          cases h
          exact ⟨ho, fun client he => by (cases he), fun e' he => by cases ht.symm.trans he; simp [hk]⟩
      case ok stream =>
        obtain rfl := tcp_eq_ok ht
        rw [ht] at h
        dsimp only at h
        rw [EStateM.bind_ok (EStateM.pure_apply _ _), EStateM.bind_ok (now_apply between)] at h
        by_cases hl : between.clock.now < network.clock.tick.now + options.connectTimeout
        case pos =>
          rw [if_pos hl, EStateM.bind_ok (EStateM.get_apply _)] at h
          generalize hw : MqttClient.connectWith _ _ _ = handshake at h
          cases handshake
          case ok client =>
            cases h
            refine ⟨ho.tick, fun client' he => ?_, fun e he => by cases he⟩
            cases he
            exact ⟨_, _, _, rfl, .mono (.now _) ho.ahead (.refl _), hl, hw⟩
          case error stop =>
            cases h
            exact ⟨ho.tick, fun client' he => by (cases he), fun e he => by cases he⟩
        case neg =>
          rw [if_neg hl] at h
          cases h
          exact ⟨ho.tick, fun client' he => by (cases he), fun e he => by cases he⟩

theorem tcpUntil_eq_ok (h : Opening.tcpUntil opening = .ok stream) : opening = .connected stream := by
  cases opening <;> cases h
  rfl

-- The handshake of the asynchronous client has the deadline of the opening.
structure ConnectAsyncEnds (options : ConnectOptions) (network network' : Network Addr)
    (result : Except Error MqttConnection) (deadline : Instant) (opening : Opening) : Prop where
  opened : Opened network network' deadline opening
  connection : ∀ connection, result = .ok connection → ∃ stream clock handshake, opening = .connected stream ∧
    Handshake.connectWithDeadline options deadline { stream, clock } = .ok connection handshake
  error : ∀ e, opening.tcpUntil = .error e → result = .error e

theorem connectAsync_ends (h : Returns (connectAsync options network) result network')
    (hv : options.validate network.clock = .ok ()) :
    (∃ message, result = .error (.invalidOptions message) ∧ network'.attempts = network.attempts) ∨
      ∃ opening, ConnectAsyncEnds options network network' result
        (network.clock.tick.now + options.connectTimeout) opening := by
  rw [connectAsync, EStateM.bind_ok (EStateM.get_apply _), hv, EStateM.bind_ok (lift_ok _ _),
    EStateM.bind_ok (now_apply network), EStateM.bind_ok (now_apply _), EStateM.bind_ok (EStateM.get_apply _)] at h
  cases hd : network.clock.tick.tick.checkedAdd network.clock.tick.now options.connectTimeout <;>
    simp only [hd] at h
  case none =>
    cases h
    exact .inl ⟨_, rfl, rfl⟩
  case some deadline =>
    obtain rfl : network.clock.tick.now + options.connectTimeout = deadline :=
      Option.some.inj (Option.ite_none_right_eq_some.mp hd).right
    rw [EStateM.bind_ok (EStateM.pure_apply _ _)] at h
    have hi {d between opening} (ho : Opened { network with clock := network.clock.tick.tick } between d opening) :
        Opened network between d opening :=
      ho.of_ahead rfl rfl (.tick (.tick (.refl _)))
    rcases h.bind with ⟨e, he, rfl⟩ | ⟨stream, between, hc, h⟩
    case inl =>
      obtain ⟨opening, ho, hr⟩ := connectTcpUntil_opened he
      exact .inr ⟨opening, hi ho, fun connection hc => by (cases hc), fun e' he => by cases hr.trans he; rfl⟩
    case inr =>
      have hs : Returns (connectTcpUntil _ _) (.ok stream) between := .of_ok hc
      obtain ⟨opening, ho, hr⟩ := connectTcpUntil_opened hs
      obtain rfl := tcpUntil_eq_ok hr.symm
      rw [EStateM.bind_ok (EStateM.get_apply _)] at h
      generalize hw : Handshake.connectWithDeadline _ _ _ = handshake at h
      cases handshake
      case ok connection handshake =>
        cases h
        refine .inr ⟨_, hi ho, fun connection' he => ?_, fun e he => by cases he⟩
        cases he
        exact ⟨stream, _, _, rfl, hw⟩
      case error stop handshake =>
        cases h
        exact .inr ⟨_, hi ho, fun connection' he => by (cases he), fun e he => by cases he⟩

theorem tls_eq_ok (h : Opening.tls opening = .ok stream) : opening = .connected stream := by
  cases opening <;> cases h
  rfl

-- The TLS session is with the host that the address names.
structure ConnectTlsEnds (serverName : String → Except String Name)
    (newConnection : Name → Except String Connection) (addr : String) (network network' : Network Addr)
    (result : Except IoError (Connection × Transport)) (deadline : Instant) (opening : Opening) : Prop where
  opened : Opened network network' deadline opening
  connection : ∀ connection tcp, result = .ok (connection, tcp) → ∃ host name, opening = .connected tcp ∧
    hostFromAddress addr = .ok host ∧ serverName host = .ok name ∧ newConnection name = .ok connection
  error : ∀ e, opening.tls = .error e → result = .error e

theorem connectTls_ends {serverName : String → Except String Name}
    {newConnection : Name → Except String Connection}
    (h : connectTls serverName newConnection addr timeout network = .ok result network') :
    (∃ e, result = .error e ∧ network'.attempts = network.attempts) ∨
      ∃ opening, ConnectTlsEnds serverName newConnection addr network network' result
        (network.clock.now + timeout) opening := by
  rw [connectTls] at h
  cases ha : hostFromAddress addr <;> simp only [ha] at h
  case error e =>
    cases h
    exact .inl ⟨e, rfl, rfl⟩
  case ok host =>
    cases hs : serverName host <;> simp only [hs] at h
    case error e =>
      cases h
      exact .inl ⟨_, rfl, rfl⟩
    case ok name =>
      obtain ⟨connected, between, hc, h⟩ := EStateM.bind_eq_ok.mp h
      rcases connectTcpWithDeadline_opened hc with ⟨e, rfl, hn⟩ | ⟨opening, ho, hr⟩
      case inl =>
        cases h
        exact .inl ⟨e, rfl, hn⟩
      case inr =>
        refine .inr ⟨opening, ?_⟩
        cases connected
        case error e =>
          cases h
          exact ⟨ho, fun connection tcp he => by (cases he), fun e' he => by cases hr.trans he; rfl⟩
        case ok tcp =>
          obtain rfl := tls_eq_ok hr.symm
          cases h
          refine ⟨ho, fun connection tcp' he => ?_, fun e he => by cases he⟩
          cases hn : newConnection name <;> rw [hn] at he <;> cases he
          exact ⟨host, name, rfl, ha, hs, hn⟩

-- Clients of all kinds try the addresses of their broker one after the other until an attempt succeeds, each
-- only before the deadline and for no longer than it. What follows is over the stream of the last attempt.
theorem connected_in_order (network : Network Addr) (options : ConnectOptions)
    (hv : options.validate network.clock = .ok ()) (serverName : String → Except String Name)
    (newConnection : Name → Except String Connection) (addr : String) (timeout : Duration) :
    (∀ result network', Returns (connect options network) result network' →
      (∃ message, result = .error (.invalidOptions message) ∧ network'.attempts = network.attempts) ∨
        ∃ opening, ConnectEnds options network network' result
          (network.clock.tick.now + options.connectTimeout) opening) ∧
    (∀ result network', Returns (connectAsync options network) result network' →
      (∃ message, result = .error (.invalidOptions message) ∧ network'.attempts = network.attempts) ∨
        ∃ opening, ConnectAsyncEnds options network network' result
          (network.clock.tick.now + options.connectTimeout) opening) ∧
    ∀ result network', connectTls serverName newConnection addr timeout network = .ok result network' →
      (∃ e, result = .error e ∧ network'.attempts = network.attempts) ∨
        ∃ opening, ConnectTlsEnds serverName newConnection addr network network' result
          (network.clock.now + timeout) opening :=
  ⟨fun _ _ h => connect_ends h hv, fun _ _ h => connectAsync_ends h hv, fun _ _ => connectTls_ends⟩

-- Two endpoints, of which the first refuses.
def twoEndpoints (second : Except IoError Transport) : Network String where
  addresses := .ok ["::1", "127.0.0.1"]
  connects := [.error { kind := .connectionRefused, message := "" }, second]
  clock := { readings := id, latest := 1000000000000 }

theorem twoEndpoints_connected :
    (∃ network' opening, ConnectEnds { clientId := "x", connectTimeout := 50 }
      (twoEndpoints (.error { kind := .timedOut, message := "" })) network' (.error (.timeout "connect")) 51
        opening) ∧
    ∃ network' opening, ConnectTlsEnds (fun host => .ok host) (fun name => .ok name.length) "localhost:8883"
      (twoEndpoints (.ok {})) network' (.ok (9, {})) 50 opening := by
  constructor
  case left =>
    obtain ⟨hc, _, _⟩ := connected_in_order (twoEndpoints (.error { kind := .timedOut, message := "" }))
      { clientId := "x", connectTimeout := 50 } (by decide) (fun host => .ok host)
      (fun name => .ok name.length) "localhost:8883" 50
    rcases hc (.error (.timeout "connect")) _ .failed with ⟨message, he, _⟩ | ⟨opening, ho⟩
    case inl => cases he
    case inr => exact ⟨_, opening, ho⟩
  case right =>
    obtain ⟨_, _, ht⟩ := connected_in_order (twoEndpoints (.ok {})) { clientId := "x" } (by decide)
      (fun host => .ok host) (fun name => .ok name.length) "localhost:8883" 50
    rcases ht (.ok (9, {})) _ rfl with ⟨e, he, _⟩ | ⟨opening, ho⟩
    case inl => cases he
    case inr => exact ⟨_, opening, ho⟩

end Network

end MqttWasi
