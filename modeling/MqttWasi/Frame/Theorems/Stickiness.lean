import MqttWasi.Codec.Theorems.Checked
import MqttWasi.Frame.Checked
import MqttWasi.Frame.Theorems.Refinement

namespace MqttWasi.FrameReader

variable {max : Nat}

-- What a caller may do with a reader, also more than its capacity allows.
inductive Call
  | push (data : Bytes)
  | tryDecode

def step (reader : FrameReader) : Call → FrameReader
  | .push data  => reader.push data
  | .tryDecode  => (FrameReader.tryDecode reader).state

def after (reader : FrameReader) (calls : List Call) : FrameReader :=
  calls.foldl step reader

def Fails (reader : FrameReader) : Prop :=
  ∃ e reader', FrameReader.tryDecode reader = .error e reader'

-- A call from which the reader does not recover.
inductive Breaks (reader : FrameReader) : Call → Prop
  | overflow : (reader.remainingCapacity < data.length) → Breaks reader (.push data)
  | error : reader.Fails → Breaks reader .tryDecode

-- A reader that may have overflowed. It holds at most as much as it is allowed to.
structure Sound (max : Nat) (reader : FrameReader) : Prop where
  max_eq : reader.maxPacketSize = max
  bound : reader.buf.length ≤ max
  body : reader.state = .readingBody header headerLen totalLen →
    decodeFixedHeader reader.buf = .ok (header, headerLen) ∧
      totalLen = headerLen + header.remainingLength.toNat ∧ totalLen ≤ max

namespace Sound

variable {reader : FrameReader}

theorem withMaxPacketSize (max : Nat) : Sound max (.withMaxPacketSize max) where
  max_eq := rfl
  bound := Nat.zero_le _
  body h := by cases h

theorem valid (h : Sound max reader) (ho : reader.overflowSize = none) : reader.Valid where
  overflow := ho
  body hs := h.max_eq ▸ h.body hs

-- The capacity goes up to the maximum at most.
theorem capacity (h : Sound max reader) : reader.buf.length + reader.remainingCapacity ≤ max := by
  have hb := h.bound
  rw [remainingCapacity]
  cases hs : reader.state
  case readingHeader =>
    simp only [h.max_eq]
    omega
  case readingBody header headerLen totalLen =>
    have ht := (h.body hs).2.2
    dsimp only
    omega

theorem append {overflowSize : Option Nat} (h : Sound max reader)
    (hl : reader.buf.length + data.length ≤ max) :
    Sound max { reader with buf := reader.buf ++ data, overflowSize } where
  max_eq := h.max_eq
  bound := by simpa using hl
  body hs := ⟨decodeFixedHeader.append_ok data (h.body hs).1, (h.body hs).2⟩

theorem startBody {header : FixedHeader} (h : Sound max reader)
    (hd : decodeFixedHeader reader.buf = .ok (header, headerLen))
    (hm : headerLen + header.remainingLength.toNat ≤ max) : Sound max { reader with
      state := .readingBody header headerLen (headerLen + header.remainingLength.toNat) } where
  max_eq := h.max_eq
  bound := h.bound
  body hs := by
    cases hs
    exact ⟨hd, rfl, hm⟩

theorem push (h : Sound max reader) (data : Bytes) : Sound max (reader.push data) := by
  have hc := h.capacity
  rw [FrameReader.push]
  split
  case isTrue => exact h.append (by simp; omega)
  case isFalse => exact h.append (by omega)

end Sound

-- A reader with an overflow says so again and again.
theorem fails_of_overflow {reader : FrameReader} (h : reader.overflowSize = some size) :
    FrameReader.tryDecode reader = .error (.packetTooLarge size reader.maxPacketSize) reader := by
  rw [FrameReader.tryDecode, EStateM.bind_ok (EStateM.get_apply _), h]
  rfl

theorem fails_of_push {reader : FrameReader} (h : reader.remainingCapacity < data.length) :
    (reader.push data).Fails := by
  rw [FrameReader.push, if_pos h]
  exact ⟨_, _, fails_of_overflow rfl⟩

-- The same buffer, perhaps with its header decoded.
structure Stays (max : Nat) (reader reader' : FrameReader) : Prop where
  buf : reader'.buf = reader.buf
  overflow : reader'.overflowSize = reader.overflowSize
  sound : Sound max reader'

-- What `tryDecode` does to a reader without an overflow.
inductive Leaves (max : Nat) (reader : FrameReader) :
    EStateM.Result Error FrameReader (Option Packet) → Prop
  | more {reader'} : Stays max reader reader' → Leaves max reader (.ok none reader')
  | fail {reader'} : Stays max reader reader' → Leaves max reader (.error e reader')
  | item {reader'} :
    (reader'.buf = reader.buf.drop n) → (reader'.overflowSize = reader.overflowSize) →
    Sound max reader' → Leaves max reader (.ok (some packet) reader')

variable {reader : FrameReader}

theorem Stays.refl (h : Sound max reader) : Stays max reader reader where
  buf := rfl
  overflow := rfl
  sound := h

theorem Stays.leaves (h : Stays max reader reader') (hl : Leaves max reader' r) : Leaves max reader r := by
  cases hl
  case more hs => exact .more ⟨hs.buf.trans h.buf, hs.overflow.trans h.overflow, hs.sound⟩
  case fail hs => exact .fail ⟨hs.buf.trans h.buf, hs.overflow.trans h.overflow, hs.sound⟩
  case item hb ho hs => exact .item (h.buf ▸ hb) (ho.trans h.overflow) hs

theorem readBody_leaves (h : Sound max reader) :
    Leaves max reader (readBody header headerLen totalLen reader) := by
  rw [readBody, EStateM.bind_ok (EStateM.get_apply _), EStateM.ite_apply]
  split
  case isTrue => exact .more (.refl h)
  case isFalse =>
    cases hp : Packet.decode header ((reader.buf.take totalLen).drop headerLen)
    case error e =>
      rw [EStateM.bind_error (check_error _ _)]
      exact .fail (.refl h)
    case ok packet =>
      rw [EStateM.bind_ok (check_ok _ _)]
      refine .item (n := totalLen) rfl rfl ⟨h.max_eq, ?_, fun hs => by cases hs⟩
      exact (List.drop_sublist ..).length_le.trans h.bound

theorem tryDecode_leaves (h : Sound max reader) (ho : reader.overflowSize = none) :
    Leaves max reader (FrameReader.tryDecode reader) := by
  rw [FrameReader.tryDecode, EStateM.bind_ok (EStateM.get_apply _), ho]
  dsimp only
  cases hs : reader.state
  case readingBody header headerLen totalLen => exact readBody_leaves h
  case readingHeader =>
    dsimp only
    cases hd : decodeFixedHeader reader.buf
    case error e =>
      have hr := readHeader_of_error hd
      split at hr
      case isTrue =>
        rw [EStateM.bind_ok hr]
        exact .more (.refl h)
      case isFalse =>
        rw [EStateM.bind_error hr]
        exact .fail (.refl h)
    case ok r =>
      have hr := readHeader_of_ok hd
      dsimp only at hr
      split at hr
      case isTrue =>
        rw [EStateM.bind_error hr]
        exact .fail (.refl h)
      case isFalse hm =>
        rw [EStateM.bind_ok hr]
        have hv := h.startBody hd (h.max_eq ▸ Nat.not_lt.mp hm)
        refine Stays.leaves ?_ (readBody_leaves hv)
        exact ⟨rfl, rfl, hv⟩

theorem fails_iff (h : Sound max reader) (ho : reader.overflowSize = none) :
    reader.Fails ↔ ∃ e, nextPacket max reader.buf = .fail e := by
  have ha := tryDecode_answers (h.valid ho)
  rw [h.max_eq] at ha
  constructor
  case mp =>
    intro ⟨e, reader', he⟩
    rw [he] at ha
    cases ha
    case fail hn => exact ⟨e, hn⟩
  case mpr =>
    intro ⟨e, hn⟩
    cases ht : FrameReader.tryDecode reader
    case error e' reader' => exact ⟨e', reader', ht⟩
    case ok packet reader' =>
      rw [ht] at ha
      cases ha
      case more hw hb => simp [← hb, hw.more] at hn
      case item hi _ _ _ => simp [hi] at hn

-- More bytes do not help: the bytes that are there are what is wrong.
theorem Fails.push (h : Sound max reader) (hf : reader.Fails) (data : Bytes) :
    (reader.push data).Fails := by
  have hp := h.push data
  cases ho : reader.overflowSize
  case some size =>
    have ho' : ∃ size, (reader.push data).overflowSize = some size := by
      rw [FrameReader.push]
      split
      case isTrue => exact ⟨_, rfl⟩
      case isFalse => exact ⟨size, ho⟩
    exact ⟨_, _, fails_of_overflow ho'.choose_spec⟩
  case none =>
    obtain ⟨e, hn⟩ := (fails_iff h ho).mp hf
    by_cases hc : data.length > reader.remainingCapacity
    case pos => exact fails_of_push hc
    case neg =>
      have he : reader.push data = { reader with buf := reader.buf ++ data } := by
        rw [FrameReader.push, if_neg hc]
      rw [he] at hp ⊢
      refine (fails_iff hp ho).mpr ⟨e, ?_⟩
      rw [nextPacket_append (by simp [hn]), hn]

-- An error changes nothing that the next call looks at.
theorem Fails.tryDecode (h : Sound max reader) (hf : reader.Fails) :
    (FrameReader.tryDecode reader).state.Fails := by
  cases ho : reader.overflowSize
  case some size =>
    rw [fails_of_overflow ho]
    exact ⟨_, _, fails_of_overflow ho⟩
  case none =>
    obtain ⟨e, reader', he⟩ := hf
    have hl := tryDecode_leaves h ho
    obtain ⟨e', hn⟩ := (fails_iff h ho).mp ⟨e, reader', he⟩
    rw [he] at hl ⊢
    cases hl
    case fail hs =>
      exact (fails_iff hs.sound (hs.overflow.trans ho)).mpr ⟨e', by rw [hs.buf, hn]⟩

theorem Sound.tryDecode (h : Sound max reader) : Sound max (FrameReader.tryDecode reader).state := by
  cases ho : reader.overflowSize
  case some size =>
    rw [fails_of_overflow ho]
    exact h
  case none =>
    have hl := tryDecode_leaves h ho
    cases hr : FrameReader.tryDecode reader
    all_goals
      rw [hr] at hl
      cases hl
    case error.fail hs => exact hs.sound
    case ok.more hs => exact hs.sound
    case ok.item _ _ hs => exact hs

theorem Sound.step (h : Sound max reader) (call : Call) : Sound max (reader.step call) := by
  cases call
  case push data => exact h.push data
  case tryDecode => exact h.tryDecode

theorem Sound.after (h : Sound max reader) (calls : List Call) : Sound max (reader.after calls) := by
  induction calls generalizing reader
  case nil => exact h
  case cons call calls ih => exact ih (h.step call)

theorem Fails.step (h : Sound max reader) (hf : reader.Fails) (call : Call) : (reader.step call).Fails := by
  cases call
  case push data => exact hf.push h data
  case tryDecode => exact hf.tryDecode h

theorem Fails.after (h : Sound max reader) (hf : reader.Fails) (calls : List Call) :
    (reader.after calls).Fails := by
  induction calls generalizing reader
  case nil => exact hf
  case cons call calls ih => exact ih (h.step call) (hf.step h call)

theorem Breaks.fails (h : Sound max reader) (hb : Breaks reader call) : (reader.step call).Fails := by
  cases hb
  case overflow hc => exact fails_of_push hc
  case error hf => exact hf.tryDecode h

theorem push_checked (reader : FrameReader) (data : Bytes) :
    Checked.FrameReader.push data reader = .ok ⟨⟩ (reader.push data) := by
  rw [Checked.FrameReader.push, EStateM.bind_ok (EStateM.get_apply _), FrameReader.push]
  dsimp only
  split
  case isTrue h =>
    rw [Panics.require, if_pos (Nat.le_of_lt h)]
    rfl
  case isFalse => rfl

theorem loop_body_checked (rounds : Nat) (h : Sound max reader)
    (hs : reader.state = .readingBody header headerLen totalLen) :
    Checked.FrameReader.tryDecode.loop (rounds + 1) reader =
      Panics.fault (readBody header headerLen totalLen reader) := by
  rw [Checked.FrameReader.tryDecode.loop, EStateM.bind_ok (EStateM.get_apply _), hs, readBody,
    EStateM.bind_ok (EStateM.get_apply _)]
  dsimp only
  simp only [EStateM.ite_apply]
  split
  case isTrue => rfl
  case isFalse hl =>
    have ht := (h.body hs).2.1
    rw [Panics.require, if_pos (by omega), Checked.packet_decode_eq]
    cases Packet.decode header ((reader.buf.take totalLen).drop headerLen) <;> rfl

theorem tryDecode_checked (h : Sound max reader) :
    Checked.FrameReader.tryDecode reader = Panics.fault (FrameReader.tryDecode reader) := by
  rw [Checked.FrameReader.tryDecode, FrameReader.tryDecode, EStateM.bind_ok (EStateM.get_apply _),
    EStateM.bind_ok (EStateM.get_apply _)]
  cases ho : reader.overflowSize
  case some size => rfl
  case none =>
    dsimp only
    cases hs : reader.state
    case readingBody header headerLen totalLen => exact loop_body_checked 1 h hs
    case readingHeader =>
      rw [Checked.FrameReader.tryDecode.loop, EStateM.bind_ok (EStateM.get_apply _), hs]
      simp only [EStateM.ite_apply, Checked.fresh_decodeFixedHeader]
      cases hd : decodeFixedHeader reader.buf
      case error e =>
        have hr := readHeader_of_error hd
        have hb : reader.buf = [] → e = endOfData := by
          intro hb
          rw [hb, decodeFixedHeader.nil] at hd
          exact (Except.error.inj hd).symm
        by_cases he : e = endOfData
        case pos =>
          rw [if_pos he] at hr
          rw [EStateM.bind_ok hr]
          simp [Except.mapError, he, endOfData]
        case neg =>
          rw [if_neg he] at hr
          rw [EStateM.bind_error hr]
          have he' : e ≠ .malformedPacket "unexpected end of data" := he
          simp [Except.mapError, he', mt hb he]
      case ok r =>
        have hr := readHeader_of_ok hd
        have hb : reader.buf ≠ [] := by
          intro hb
          rw [hb, decodeFixedHeader.nil] at hd
          cases hd
        dsimp only at hr
        split at hr
        case isTrue hm =>
          rw [EStateM.bind_error hr]
          simp [Except.mapError, hb, hm]
          rfl
        case isFalse hm =>
          have hv := h.startBody hd (h.max_eq ▸ Nat.not_lt.mp hm)
          rw [EStateM.bind_ok hr]
          simp only [List.isEmpty_iff, hb, if_false, Except.mapError, if_neg hm]
          exact loop_body_checked 0 hv rfl

-- Whatever a caller does, the buffer stays within the limit and nothing panics, and a reader that is
-- broken once never yields a packet again.
theorem bounded_and_sticky (max : Nat) (calls : List Call) :
    let reader := (withMaxPacketSize max).after calls
    reader.buf.length ≤ max ∧
    (∀ data, Checked.FrameReader.push data reader = .ok ⟨⟩ (reader.push data)) ∧
    Checked.FrameReader.tryDecode reader = Panics.fault (FrameReader.tryDecode reader) ∧
    ∀ call, Breaks reader call → ∀ later, ((reader.step call).after later).Fails := by
  have hs := (Sound.withMaxPacketSize max).after calls
  refine ⟨hs.bound, push_checked _, tryDecode_checked hs, fun call hb later => ?_⟩
  exact (hb.fails hs).after (hs.step call) later

theorem bounded_and_sticky_overflow :
    (((withMaxPacketSize 2).step (.push [0xD0, 0x00, 0xD0])).after [.push [0x00], .tryDecode]).Fails :=
  (bounded_and_sticky 2 []).2.2.2 (.push [0xD0, 0x00, 0xD0]) (.overflow (by decide)) _

end MqttWasi.FrameReader
