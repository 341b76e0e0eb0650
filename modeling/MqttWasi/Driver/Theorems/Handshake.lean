import MqttWasi.Driver.Handshake
import MqttWasi.Codec.Theorems.NormalForms
import MqttWasi.Frame.Theorems.Streams

-- The reader of the handshake takes exactly one packet off the stream, the one that the frame
-- reader would yield first.

namespace MqttWasi

open Base128 (Number)
open Framing (parse)

namespace Transport

-- The bytes that can still be read, up to the end of the stream or the first error for which a
-- reader stops.
def upcoming (transport : Transport) : Bytes :=
  go transport.reads
where
  go : List (Except IoError Bytes) → Bytes
    | []                  => []
    | .ok [] :: _         => []
    | .ok bytes :: reads  => bytes ++ go reads
    | .error e :: reads   => if e.kind = .interrupted then go reads else []

-- What a call of `read` can do to a reader that asks for something.
inductive Delivers (n : Nat) (transport : Transport) : Except IoError Bytes → Transport → Prop
  | closed : (transport.upcoming = []) → Delivers n transport (.ok []) transport'
  | bytes : (bytes ≠ []) → (bytes.length ≤ n) → (transport.upcoming = bytes ++ transport'.upcoming) →
    (transport'.readable < transport.readable) → (transport'.settings = transport.settings) →
    Delivers n transport (.ok bytes) transport'
  | interrupted {e} : (e.kind = .interrupted) → (transport'.upcoming = transport.upcoming) →
    (transport'.readable < transport.readable) → (transport'.settings = transport.settings) →
    Delivers n transport (.error e) transport'
  | failed {e} : (e.kind ≠ .interrupted) → (transport.upcoming = []) →
    Delivers n transport (.error e) transport'

theorem read_delivers {transport : Transport} (h : transport.read n = some (result, transport'))
    (hn : 0 < n) : Delivers n transport result transport' := by
  unfold read at h
  split at h
  case h_1 => cases h
  case h_3 e reads hr =>
    cases h
    by_cases he : e.kind = .interrupted
    case pos =>
      refine .interrupted he ?_ ?_ rfl
      case refine_1 => simp [upcoming, upcoming.go, hr, he]
      case refine_2 => simp [readable, hr]
    case neg => exact .failed he (by simp [upcoming, upcoming.go, hr, he])
  case h_2 bytes reads hr =>
    cases h
    by_cases hb : bytes = []
    case pos =>
      subst hb
      rw [List.take_nil]
      exact .closed (by simp [upcoming, upcoming.go, hr])
    case neg =>
      have hu : upcoming.go (.ok bytes :: reads) = bytes ++ upcoming.go reads := by
        cases bytes <;> simp [upcoming.go] at hb ⊢
      by_cases hl : bytes.length ≤ n
      case pos =>
        refine .bytes (by simp [hb]; omega) (by simp) ?_ ?_ rfl
        case refine_1 => simp [upcoming, hr, hl, hu, List.take_of_length_le hl]
        case refine_2 => simp [readable, hr, hl]
      case neg =>
        have hd : bytes.drop n ≠ [] := by simp; omega
        have hu' : upcoming.go (.ok (bytes.drop n) :: reads) = bytes.drop n ++ upcoming.go reads := by
          cases hx : bytes.drop n <;> simp [upcoming.go, hx] at hd ⊢
        refine .bytes (by simp [hb]; omega) (by simp) ?_ ?_ rfl
        case refine_1 => simp [upcoming, hr, hl, hu, hu', ← List.append_assoc]
        case refine_2 =>
          simp [readable, hr, hl]
          omega

theorem upcoming_of_read_none {transport : Transport} (h : transport.read n = none) :
    transport.upcoming = [] := by
  unfold read at h
  split at h <;> cases h
  case h_1 hr => simp [upcoming, upcoming.go, hr]

end Transport

namespace Handshake

variable {deadline : Instant} {st : Handshake}

-- The deadline is not reached, and the transport accepts a timeout for every call of `read`.
structure Healthy (deadline : Instant) (st : Handshake) : Prop where
  early : ∀ n, st.clock.readings n < deadline
  accepts : ∀ result ∈ st.stream.settings, result = .ok ()
  settings : st.stream.readable < st.stream.settings.length

-- An action ends well exactly if the stream starts with bytes of some language, and it takes them
-- off the stream and returns what the language takes them for.
structure Consumes (deadline : Instant) (st : Handshake) (x : HandshakeM α)
    (L : Bytes → α → Prop) : Prop where
  sound : ∀ {a st'}, x st = .ok a st' → Healthy deadline st' ∧
    ∃ bytes, L bytes a ∧ st.stream.upcoming = bytes ++ st'.stream.upcoming
  complete : ∀ {bytes a rest}, L bytes a → st.stream.upcoming = bytes ++ rest →
    ∃ st', x st = .ok a st' ∧ st'.stream.upcoming = rest

namespace Consumes

variable {x : HandshakeM α} {L : Bytes → α → Prop}

theorem congr (h : Consumes deadline st x L) {M : Bytes → α → Prop}
    (he : ∀ bytes a, L bytes a ↔ M bytes a) : Consumes deadline st x M where
  sound hx := by
    have ⟨hs, bytes, hl, hu⟩ := h.sound hx
    exact ⟨hs, bytes, (he _ _).mp hl, hu⟩
  complete hm := h.complete ((he _ _).mpr hm)

theorem pure (h : Healthy deadline st) (a : α) :
    Consumes deadline st (pure a) fun bytes a' => bytes = [] ∧ a' = a where
  sound hx := by
    cases hx
    exact ⟨h, [], ⟨rfl, rfl⟩, rfl⟩
  complete hl hu := by
    obtain ⟨rfl, rfl⟩ := hl
    exact ⟨st, rfl, hu⟩

theorem fail (e : Error) : Consumes deadline st (fail e : HandshakeM α) fun _ _ => False where
  sound hx := by cases hx
  complete hl := hl.elim

theorem lift (h : Healthy deadline st) (r : Except Error α) :
    Consumes deadline st (lift r) fun bytes a => bytes = [] ∧ r = .ok a := by
  cases r
  case ok a => exact (Consumes.pure h a).congr fun _ _ => by simp [eq_comm]
  case error e => exact (Consumes.fail e).congr fun _ _ => by simp

theorem bind (h : Consumes deadline st x L) {f : α → HandshakeM β} {M : α → Bytes → β → Prop}
    (hf : ∀ a st', Healthy deadline st' → Consumes deadline st' (f a) (M a)) :
    Consumes deadline st (x >>= f) fun bytes b => ∃ a xs ys, bytes = xs ++ ys ∧ L xs a ∧ M a ys b where
  sound hx := by
    obtain ⟨a, st₁, hx, hb⟩ := EStateM.bind_eq_ok.mp hx
    have ⟨h₁, xs, hl, hu⟩ := h.sound hx
    have ⟨h₂, ys, hm, hu'⟩ := (hf a st₁ h₁).sound hb
    exact ⟨h₂, xs ++ ys, ⟨a, xs, ys, rfl, hl, hm⟩, by rw [hu, hu', List.append_assoc]⟩
  complete hl hu := by
    obtain ⟨a, xs, ys, rfl, hl, hm⟩ := hl
    rw [List.append_assoc] at hu
    have ⟨st₁, hx, hu₁⟩ := h.complete hl hu
    have ⟨h₁, _⟩ := h.sound hx
    have ⟨st₂, hb, hu₂⟩ := (hf a st₁ h₁).complete hm hu₁
    exact ⟨st₂, EStateM.bind_eq_ok.mpr ⟨a, st₁, hx, hb⟩, hu₂⟩

-- The first bytes are taken off the stream by a first part of the action.
theorem after {y : HandshakeM α} {M : Bytes → α → Prop} (h : Consumes deadline st' y M)
    (hx : x st = y st') (hu : st.stream.upcoming = front ++ st'.stream.upcoming)
    (hm : ∀ {ys a}, M ys a → L (front ++ ys) a)
    (hl : ∀ {xs a s t}, L xs a → xs ++ s = front ++ t → ∃ ys, xs = front ++ ys ∧ M ys a) :
    Consumes deadline st x L where
  sound ho := by
    have ⟨hs, ys, hy, hu'⟩ := h.sound (hx ▸ ho)
    exact ⟨hs, front ++ ys, hm hy, by rw [hu, hu', List.append_assoc]⟩
  complete hb hr := by
    obtain ⟨ys, rfl, hy⟩ := hl hb (hr.symm.trans hu)
    rw [hu, List.append_assoc, List.append_cancel_left_eq] at hr
    have ⟨st₁, ho, hu₁⟩ := h.complete hy hr
    exact ⟨st₁, hx ▸ ho, hu₁⟩

-- There is nothing left to read.
theorem stopped {e : Stop} (hx : x st = .error e st') (hu : st.stream.upcoming = [])
    (hl : ∀ {a}, ¬L [] a) : Consumes deadline st x L where
  sound ho := by
    rw [hx] at ho
    cases ho
  complete hb hr := by
    rw [hu] at hr
    have ⟨hn, _⟩ := List.append_eq_nil_iff.mp hr.symm
    exact absurd (hn ▸ hb) hl

-- A check between two reads.
theorem guarded {c : Prop} [Decidable c] {e : Error} {f : Unit → HandshakeM α}
    (h : Consumes deadline st (f ()) L) :
    Consumes deadline st (if c then Handshake.fail e >>= f else f ()) fun bytes a => ¬c ∧ L bytes a where
  sound hx := by
    split at hx
    case isTrue => cases hx
    case isFalse hc =>
      have ⟨hs, bytes, hl, hu⟩ := h.sound hx
      exact ⟨hs, bytes, ⟨hc, hl⟩, hu⟩
  complete hl hu := by
    rw [if_neg hl.left]
    exact h.complete hl.right hu

end Consumes

theorem connectRemaining_ok (h : Healthy deadline st) :
    ∃ remaining st', connectRemaining deadline st = .ok remaining st' ∧ st'.stream = st.stream ∧
      Healthy deadline st' := by
  have hn : st.clock.now < deadline := h.early _
  refine ⟨deadline - st.clock.now, { st with clock := st.clock.tick }, ?_, rfl, ?_⟩
  case refine_1 => simp [connectRemaining, now, EStateM.bind_apply, EStateM.map_apply, hn]
  case refine_2 => exact ⟨h.early, h.accepts, h.settings⟩

-- Setting the timeout of a call of `read` leaves the stream as it is.
theorem setReadTimeout_ok (h : Healthy deadline st) (timeout : Duration) :
    ∃ st', setReadTimeout timeout st = .ok () st' ∧ st'.stream.upcoming = st.stream.upcoming ∧
      st'.stream.readable = st.stream.readable ∧
      ∀ stream, stream.readable < st.stream.readable → stream.settings = st'.stream.settings →
        Healthy deadline { st' with stream } := by
  have hlt := h.settings
  cases hs : st.stream.settings
  case nil => simp [hs] at hlt
  case cons result settings =>
    have hok : result = .ok () := h.accepts result (by simp [hs])
    subst hok
    refine ⟨{ st with stream := { st.stream with settings } }, ?_, rfl, rfl, ?_⟩
    case refine_1 =>
      simp [setReadTimeout, onStream, Transport.configure, EStateM.bind_apply, EStateM.map_apply, hs]
    case refine_2 =>
      intro stream hr he
      refine ⟨h.early, fun result hm => h.accepts result ?_, ?_⟩
      case refine_1 =>
        rw [he] at hm
        rw [hs]
        exact List.mem_cons_of_mem _ hm
      case refine_2 =>
        rw [hs, List.length_cons] at hlt
        rw [he]
        dsimp only
        omega

theorem readExactUntil_go_consumes (h : Healthy deadline st) (hr : st.stream.readable < rounds)
    (len : Nat) : Consumes deadline st (readExactUntil.go deadline rounds len)
      fun bytes a => bytes.length = len ∧ bytes = a := by
  induction rounds generalizing st len
  case zero => omega
  case succ rounds ih =>
    rw [readExactUntil.go]
    by_cases hl : len = 0
    case pos =>
      rw [if_pos hl]
      refine (Consumes.pure h []).congr fun bytes a => ?_
      rw [hl, List.length_eq_zero_iff, eq_comm (a := bytes) (b := a)]
      exact and_congr_right fun hb => by rw [hb]
    case neg =>
      rw [if_neg hl]
      obtain ⟨remaining, st₁, hc, hs₁, h₁⟩ := connectRemaining_ok h
      obtain ⟨st₂, ht, hu₂, hr₂, h₂⟩ := setReadTimeout_ok h₁ remaining
      rw [hs₁] at hu₂ hr₂ h₂
      have hne {a : Bytes} : ¬(([] : Bytes).length = len ∧ [] = a) := fun hb => hl hb.left.symm
      cases hread : st₂.stream.read len
      case none =>
        have hu := Transport.upcoming_of_read_none hread
        refine .stopped (?_ : _ = EStateM.Result.error .blocked st₂) (hu₂ ▸ hu) hne
        rw [EStateM.bind_ok hc, EStateM.bind_ok ht]
        simp [onStream, EStateM.bind_apply, hread]
      case some r =>
        obtain ⟨result, stream⟩ := r
        have hd := Transport.read_delivers hread (Nat.pos_of_ne_zero hl)
        have ho : onStream (·.read len) st₂ = .ok result { st₂ with stream } := by
          simp [onStream, EStateM.bind_apply, EStateM.map_apply, hread]
        cases hd
        case closed hu =>
          refine .stopped (?_ : _ = EStateM.Result.error (.failed .connectionClosed) { st₂ with stream }) (hu₂ ▸ hu) hne
          rw [EStateM.bind_ok hc, EStateM.bind_ok ht, EStateM.bind_ok ho]
          rfl
        case failed e he hu =>
          refine .stopped (?_ : _ = EStateM.Result.error (.failed (mapConnectIo e)) { st₂ with stream }) (hu₂ ▸ hu) hne
          rw [EStateM.bind_ok hc, EStateM.bind_ok ht, EStateM.bind_ok ho]
          simp [he, Handshake.fail]
        case interrupted e he hu hr' hs =>
          have h₃ := h₂ stream (hr₂ ▸ hr') hs
          refine (ih h₃ (by dsimp only; omega) len).after ?_ (by rw [← hu₂, ← hu]; rfl : _ = [] ++ _) ?_ ?_
          case refine_1 =>
            rw [EStateM.bind_ok hc, EStateM.bind_ok ht, EStateM.bind_ok ho]
            simp [he]
          case refine_2 => exact fun hm => hm
          case refine_3 => exact fun hm _ => ⟨_, rfl, hm⟩
        case bytes bytes hb hn hu hr' hs =>
          have h₃ := h₂ stream (hr₂ ▸ hr') hs
          obtain ⟨remaining', st₄, hc₄, hs₄, h₄⟩ := connectRemaining_ok h₃
          have hgo := (ih h₄ (by rw [hs₄]; dsimp only; omega) (len - bytes.length)).bind
            fun rest st' h' => Consumes.pure h' (bytes ++ rest)
          refine hgo.after ?_ (by rw [← hu₂, hu, hs₄] : _ = bytes ++ _) ?_ ?_
          case refine_1 =>
            rw [EStateM.bind_ok hc, EStateM.bind_ok ht, EStateM.bind_ok ho]
            cases bytes
            case nil => exact absurd rfl hb
            case cons => exact EStateM.bind_ok hc₄
          case refine_2 =>
            rintro ys a ⟨rest, xs, zs, rfl, ⟨hx, rfl⟩, rfl, rfl⟩
            simp [hx]
            omega
          case refine_3 =>
            rintro xs a s t ⟨hx, rfl⟩ he
            have hp : bytes <+: xs := List.prefix_of_prefix_length_le (he ▸ List.prefix_append bytes t)
              (List.prefix_append xs s) (by omega)
            obtain ⟨ys, rfl⟩ := hp
            refine ⟨ys, rfl, ys, ys, [], by simp, ⟨?_, rfl⟩, rfl, rfl⟩
            rw [← hx, List.length_append]
            omega

theorem readExactUntil_consumes (h : Healthy deadline st) (len : Nat) :
    Consumes deadline st (readExactUntil len deadline)
      fun bytes a => bytes.length = len ∧ bytes = a := by
  refine (readExactUntil_go_consumes h (Nat.lt_succ_self _) len).after rfl (rfl : _ = [] ++ _) ?_ ?_
  case refine_1 => exact fun hm => hm
  case refine_2 => exact fun hm _ => ⟨_, rfl, hm⟩

-- The loop takes a number in base 128 off the stream, of at most as many bytes as rounds are left.
theorem readHeaderBytes_go_consumes {rounds multiplier : Nat} (h : Healthy deadline st)
    (hm : multiplier * 128 ^ rounds = 128 ^ 4) (headerBytes : Bytes) :
    Consumes deadline st (readHeaderBytes.go deadline rounds (.ofNat multiplier) headerBytes)
      fun bytes a => bytes.length ≤ rounds ∧ (∃ n, Number bytes n) ∧ a = headerBytes ++ bytes := by
  induction rounds generalizing st multiplier headerBytes
  case zero =>
    refine (Consumes.fail _).congr fun bytes a => ?_
    simp
    rintro rfl n hn
    exact absurd rfl hn.ne_nil
  case succ rounds ih =>
    have hk : multiplier * 128 * 128 ^ rounds = 128 ^ 4 := by rw [← hm]; ring
    have ho : UInt32.ofNat multiplier * 128 = .ofNat (multiplier * 128) := by simp
    rw [readHeaderBytes.go]
    refine ((readExactUntil_consumes h 1).bind (M := fun byte ys a =>
      ((byte.getD 0 0).toNat < 128 ∧ ys = [] ∧ a = headerBytes ++ byte) ∨
        (128 ≤ (byte.getD 0 0).toNat ∧ ys.length ≤ rounds ∧ (∃ n, Number ys n) ∧
          a = headerBytes ++ byte ++ ys)) fun byte st' h' => ?_).congr fun bytes a => ?_
    case refine_1 =>
      dsimp only
      rw [ho]
      by_cases hb : (byte.getD 0 0).toNat < 128
      case pos =>
        rw [if_pos ((UInt8.and_128_eq_zero_iff _).mpr hb)]
        refine (Consumes.pure h' _).congr fun ys a => ?_
        have hb' := Nat.not_le.mpr hb
        simp only [hb, hb', true_and, false_and, or_false]
      case neg =>
        rw [if_neg fun hz => hb ((UInt8.and_128_eq_zero_iff _).mp hz)]
        have hb' := Nat.le_of_not_lt hb
        -- The check on the multiplier fails only if there is no round left.
        have hg : 0 < rounds → ¬UInt32.ofNat multiplier = 128 * 128 * 128 := by
          intro hr he
          have hp := Nat.pow_le_pow_right (by decide : 0 < 128) hr
          have hl := Nat.mul_le_mul_left (multiplier * 128) hp
          have hn := congrArg UInt32.toNat he
          simp at hn
          omega
        refine (Consumes.guarded (ih h' hk (headerBytes ++ byte))).congr fun ys a => ?_
        simp only [hb, hb', false_and, false_or, true_and]
        constructor
        case mp => exact fun hx => hx.right
        case mpr =>
          intro hx
          obtain ⟨hl, ⟨n, hn⟩, ha⟩ := hx
          have := List.length_pos_iff.mpr hn.ne_nil
          exact ⟨hg (by omega), hl, ⟨n, hn⟩, ha⟩
    case refine_2 =>
      constructor
      case mp =>
        rintro ⟨byte, xs, ys, rfl, ⟨hx, rfl⟩, hy⟩
        obtain ⟨b, rfl⟩ := List.length_eq_one_iff.mp hx
        cases hy
        case inl hy =>
          obtain ⟨hb, rfl, rfl⟩ := hy
          exact ⟨by simp, ⟨_, .last hb⟩, by simp⟩
        case inr hy =>
          obtain ⟨hb, hl, ⟨n, hn⟩, rfl⟩ := hy
          exact ⟨by simp; omega, ⟨_, .more hb hn⟩, by simp⟩
      case mpr =>
        rintro ⟨hl, ⟨n, hn⟩, rfl⟩
        cases hn
        case last b hb => exact ⟨[b], [b], [], rfl, ⟨rfl, rfl⟩, .inl ⟨hb, rfl, rfl⟩⟩
        case more ys n b hb hn =>
          exact ⟨[b], [b], ys, rfl, ⟨rfl, rfl⟩,
            .inr ⟨hb, Nat.le_of_succ_le_succ hl, ⟨n, hn⟩, by simp⟩⟩

theorem readHeaderBytes_consumes (h : Healthy deadline st) :
    Consumes deadline st (readHeaderBytes deadline) fun bytes a =>
      bytes = a ∧ ∃ first lenBytes n, a = first :: lenBytes ∧ lenBytes.length ≤ 4 ∧
        Number lenBytes n := by
  refine ((readExactUntil_consumes h 1).bind fun first st' h' =>
    readHeaderBytes_go_consumes h' rfl first).congr fun bytes a => ?_
  constructor
  case mp =>
    rintro ⟨first, xs, ys, rfl, ⟨hx, rfl⟩, hl, ⟨n, hn⟩, rfl⟩
    obtain ⟨b, rfl⟩ := List.length_eq_one_iff.mp hx
    exact ⟨rfl, b, ys, n, rfl, hl, hn⟩
  case mpr =>
    rintro ⟨rfl, first, lenBytes, n, rfl, hl, hn⟩
    exact ⟨[first], [first], lenBytes, rfl, ⟨rfl, rfl⟩, hl, ⟨n, hn⟩, rfl⟩

-- The bytes of one packet of at most the maximal size.
def Frame (max : Nat) (bytes : Bytes) (packet : Packet) : Prop :=
  ∃ headerBytes body header, bytes = headerBytes ++ body ∧
    HeaderLayout headerBytes header headerBytes.length ∧ body.length = header.remainingLength.toNat ∧
    headerBytes.length + header.remainingLength.toNat ≤ max ∧ Packet.decode header body = .ok packet

-- A fixed header ends where its length does.
theorem decodeFixedHeader_headerLen (hn : Number lenBytes n) :
    decodeFixedHeader (first :: lenBytes) = .ok (header, headerLen) ↔
      HeaderLayout (first :: lenBytes) header headerLen ∧ headerLen = (first :: lenBytes).length := by
  rw [decodeFixedHeader_eq_ok, iff_self_and]
  rintro ⟨⟨first', lenBytes', rest, he, _, _, hv, rfl⟩, _⟩
  have hs : lenBytes ++ [] = lenBytes' ++ rest := by rw [List.append_nil, (List.cons.inj he).right]
  obtain ⟨rfl, _, _⟩ := hn.unique hv.right hs
  simp [Nat.add_comm]

theorem readPacketBlocking_consumes (h : Healthy deadline st) (max : Nat) :
    Consumes deadline st (readPacketBlocking max deadline) (Frame max) := by
  refine ((readHeaderBytes_consumes h).bind (M := fun headerBytes ys packet => ∃ r,
    decodeFixedHeader headerBytes = .ok r ∧ ¬r.2 + r.1.remainingLength.toNat > max ∧
    ys.length = r.1.remainingLength.toNat ∧
    Packet.decode r.1 ys = .ok packet) fun headerBytes st' h' => ?_).congr fun bytes packet => ?_
  case refine_1 =>
    refine ((Consumes.lift h' (decodeFixedHeader headerBytes)).bind fun r st₁ h₁ =>
      .guarded ((readExactUntil_consumes h₁ r.1.remainingLength.toNat).bind fun body st₂ h₂ =>
        .lift h₂ (Packet.decode r.1 body))).congr fun bytes packet => ?_
    constructor
    case mp =>
      rintro ⟨r, xs, ys, rfl, ⟨rfl, hr⟩, hm, body, zs, ws, rfl, ⟨hl, rfl⟩, rfl, hp⟩
      exact ⟨r, hr, hm, by simpa using hl, by simpa using hp⟩
    case mpr =>
      rintro ⟨r, hr, hm, hl, hp⟩
      exact ⟨r, [], bytes, rfl, ⟨rfl, hr⟩, hm, bytes, bytes, [], by simp, ⟨hl, rfl⟩, rfl, hp⟩
  case refine_2 =>
    constructor
    case mp =>
      rintro ⟨_, _, body, rfl, ⟨rfl, first, lenBytes, n, rfl, hl, hn⟩, r, hr, hm, hb, hp⟩
      obtain ⟨hlay, he⟩ := (decodeFixedHeader_headerLen hn).mp hr
      exact ⟨_, body, r.1, rfl, he ▸ hlay, hb, he ▸ Nat.not_lt.mp hm, hp⟩
    case mpr =>
      rintro ⟨headerBytes, body, header, rfl, hlay, hb, hm, hp⟩
      obtain ⟨first, lenBytes, rest, he, _, _, hv, hl⟩ := hlay.split
      have hr : rest = [] := by
        rw [he] at hl
        apply List.length_eq_zero_iff.mp
        simp at hl
        omega
      rw [hr, List.append_nil] at he
      refine ⟨_, _, body, rfl, ⟨rfl, first, lenBytes, _, he, hv.left, hv.right⟩, (header, _),
        decodeFixedHeader_eq_ok.mpr hlay, Nat.not_lt.mpr hm, hb, hp⟩

end Handshake

variable {max : Nat}

theorem HeaderLayout.take (h : HeaderLayout data header headerLen) :
    headerLen ≤ data.length ∧ HeaderLayout (data.take headerLen) header headerLen := by
  obtain ⟨first, lenBytes, rest, rfl, ht, hf, hn, rfl⟩ := h.split
  refine ⟨by simp; omega, ⟨first, lenBytes, [], ?_, ht, hf, hn, rfl⟩, h.valid⟩
  simp [Nat.add_comm 1]

-- The parser finds the first packet of a stream exactly where its frame ends.
theorem nextPacket_item_iff : nextPacket max s = .item packet n ↔
    n ≤ s.length ∧ Handshake.Frame max (s.take n) packet := by
  constructor
  case mp =>
    intro h
    obtain ⟨header, headerLen, hd, rfl, hl⟩ := nextPacket_item h
    obtain ⟨hle, hlay⟩ := (decodeFixedHeader_eq_ok.mp hd).take
    rw [nextPacket_of_header max hd, nextPacket.body] at h
    split at h <;> try split at h <;> try split at h
    all_goals cases h
    rename_i hm _ _ hp
    have hh : (s.take headerLen).length = headerLen := by simp [hle]
    refine ⟨hl, s.take headerLen, _, header, ?_, by rwa [hh], ?_, ?_, hp⟩
    case refine_1 =>
      have ht : (s.take (headerLen + header.remainingLength.toNat)).take headerLen =
          s.take headerLen := by rw [List.take_take, min_eq_left (Nat.le_add_right _ _)]
      rw [← ht, List.take_append_drop]
    case refine_2 =>
      simp
      omega
    case refine_3 => omega
  case mpr =>
    rintro ⟨hn, headerBytes, body, header, hs, hlay, hb, hm, hp⟩
    have hl : n = headerBytes.length + header.remainingLength.toNat := by
      rw [← hb, ← List.length_append, ← hs, List.length_take_of_le hn]
    have hd := decodeFixedHeader.append_ok (body ++ s.drop n) (decodeFixedHeader_eq_ok.mpr hlay)
    rw [← List.append_assoc, ← hs, List.take_append_drop] at hd
    rw [nextPacket_of_header max hd, nextPacket.body, ← hl, if_neg (by omega), if_neg (by omega), hs,
      List.drop_left, hp]

namespace FrameReader

-- A frame reader that is given a stream yields this packet first, and it does so when it has been
-- given this number of bytes.
def Yields (max : Nat) (s : Bytes) (packet : Packet) (n : Nat) : Prop :=
  n ≤ s.length ∧ ∀ chunks, chunks.flatten = s.take n → Respects (withMaxPacketSize max) chunks →
    ∃ run, feed (withMaxPacketSize max) chunks = some run ∧ run.packets = [packet] ∧
      run.error = none ∧ run.reader.buf = []

theorem Run.outcome_eq_iff {run : Run} {packets : List Packet} {rest : Bytes} :
    run.outcome = { items := packets, rest := .ok rest } ↔
      run.packets = packets ∧ run.error = none ∧ run.reader.buf = rest := by
  rw [Run.outcome, Framing.Outcome.mk.injEq]
  cases run.error <;> simp

theorem yields_iff (hm : 5 ≤ max) : Yields max s packet n ↔ nextPacket max s = .item packet n := by
  have hp : n ≤ s.length → ((packetFraming max).next (s.take n) = .item packet (s.take n).length ↔
      nextPacket max s = .item packet n) := by
    intro hn
    change nextPacket max (s.take n) = .item packet (s.take n).length ↔ _
    rw [nextPacket_item_iff, nextPacket_item_iff, List.length_take_of_le hn, List.take_take, min_self]
    simp [hn]
  constructor
  case mp =>
    rintro ⟨hn, h⟩
    have hr : Respects (withMaxPacketSize max) ((s.take n).map ([·])) :=
      respects_singletons (.withMaxPacketSize max) hm _
    have hf : ((s.take n).map ([·])).flatten = s.take n := by
      rw [← List.flatMap_def, List.flatMap_singleton']
    obtain ⟨run, hrun, ho⟩ := h _ hf hr
    obtain ⟨run', hrun', ho'⟩ := feed_refines_parse max _ hr
    rw [hrun, Option.some.injEq] at hrun'
    rw [← hrun', Run.outcome_eq_iff.mpr ho, hf] at ho'
    exact (hp hn).mp (Framing.parse_eq_item.mp ho'.symm)
  case mpr =>
    intro h
    have hn := (nextPacket_item_iff.mp h).left
    refine ⟨hn, fun chunks hf hr => ?_⟩
    obtain ⟨run, hrun, ho⟩ := feed_refines_parse max _ hr
    rw [hf, Framing.parse_eq_item.mpr ((hp hn).mpr h), Run.outcome_eq_iff] at ho
    exact ⟨run, hrun, ho⟩

end FrameReader

namespace Handshake

-- The handshake ends well exactly if the stream starts with a packet, and what follows the packet
-- is left for the frame reader of the driver.
theorem readPacketBlocking_yields (deadline : Instant) (max : Nat) (st : Handshake) (packet : Packet)
    (n : Nat) (h : Healthy deadline st) (hm : 5 ≤ max) :
    ((∃ st', readPacketBlocking max deadline st = .ok packet st' ∧ n ≤ st.stream.upcoming.length ∧
      st'.stream.upcoming = st.stream.upcoming.drop n) ↔
        FrameReader.Yields max st.stream.upcoming packet n) ∧
    ∀ st', readPacketBlocking max deadline st = .ok packet st' → ∀ chunks behind : List Bytes,
      chunks.flatten = st.stream.upcoming → behind.flatten = st'.stream.upcoming →
      FrameReader.Respects (.withMaxPacketSize max) chunks →
      FrameReader.Respects (.withMaxPacketSize max) behind →
        ∃ run rest, FrameReader.feed (.withMaxPacketSize max) chunks = some run ∧
          FrameReader.feed (.withMaxPacketSize max) behind = some rest ∧
          run.outcome = rest.outcome.cons packet := by
  have hc := readPacketBlocking_consumes h max
  refine ⟨?_, fun st' hr chunks behind hs hb hrs hrb => ?_⟩
  case refine_1 =>
    rw [FrameReader.yields_iff hm, nextPacket_item_iff]
    constructor
    case mp =>
      rintro ⟨st', hr, hn, hd⟩
      obtain ⟨_, bytes, hf, hu⟩ := hc.sound hr
      have ht : st.stream.upcoming.take n ++ st'.stream.upcoming =
          bytes ++ st'.stream.upcoming := by rw [← hu, hd, List.take_append_drop]
      rw [List.append_cancel_right_eq] at ht
      exact ⟨hn, ht ▸ hf⟩
    case mpr =>
      rintro ⟨hn, hf⟩
      obtain ⟨st', hr, hd⟩ := hc.complete hf (List.take_append_drop n _).symm
      exact ⟨st', hr, hn, hd⟩
  case refine_2 =>
    obtain ⟨_, bytes, hf, hu⟩ := hc.sound hr
    have hn : nextPacket max st.stream.upcoming = .item packet bytes.length := by
      rw [nextPacket_item_iff, hu, List.take_left]
      exact ⟨by simp, hf⟩
    obtain ⟨run, hrun, ho⟩ := FrameReader.feed_refines_parse max chunks hrs
    obtain ⟨rest, hrest, ho'⟩ := FrameReader.feed_refines_parse max behind hrb
    refine ⟨run, rest, hrun, hrest, ?_⟩
    rw [ho, ho', hs, Framing.parse_of_item hn, hb, hu, List.drop_left]

-- A CONNACK that arrives in pieces, with a PINGRESP behind it.
def pipelined : Handshake where
  stream :=
    { reads := [.ok [0x20], .error { kind := .interrupted }, .ok [0x03, 0x01], .ok [0, 0, 0xD0, 0]]
      settings := List.replicate 12 (.ok ()) }
  clock := { readings := fun _ => 0, latest := 100 }

theorem readPacketBlocking_pipelined : FrameReader.Yields 16 [0x20, 0x03, 0x01, 0, 0, 0xD0, 0]
    (.connAck { sessionPresent := true, reasonCode := 0, properties := {} }) 5 :=
  (readPacketBlocking_yields 10 16 pipelined _ 5 ⟨fun _ => Nat.zero_lt_succ 9, by decide, by decide⟩
    (by decide)).left.mp ⟨_, EStateM.Result.eq_ok (by decide +kernel), by decide, by decide +kernel⟩

end Handshake
end MqttWasi
