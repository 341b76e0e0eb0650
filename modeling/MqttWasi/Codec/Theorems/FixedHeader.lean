import MqttWasi.Codec.Theorems.Encoders

namespace MqttWasi

open Cursor (readU8_reads readVariableInt_reads)

theorem PacketType.toU8_shiftLeft_or (t : PacketType) {flags : UInt8} (h : flags ≤ 0x0F) :
    (t.toU8 <<< 4 ||| flags) >>> 4 = t.toU8 ∧ (t.toU8 <<< 4 ||| flags) &&& 0x0F = flags := by
  have hs : ∀ n < 16, (t.toU8 <<< 4 ||| UInt8.ofNat n) >>> 4 = t.toU8 ∧
      (t.toU8 <<< 4 ||| UInt8.ofNat n) &&& 0x0F = UInt8.ofNat n := by
    cases t <;> decide
  have := hs flags.toNat (by have := UInt8.le_iff_toNat_le.mp h; simp at this; omega)
  simpa using this

-- An encoded fixed header is decoded whatever follows it.
theorem decodeFixedHeader_encoded {t : PacketType} {flags : UInt8} {len : UInt32}
    (hf : flags ≤ 0x0F) (hv : validateFixedHeader ⟨t, flags, len⟩ = .ok ())
    (hl : len.toNat ≤ 268435455) (rest : Bytes) :
    decodeFixedHeader ((t.toU8 <<< 4 ||| flags) :: Base128.encode len.toNat ++ rest) =
      .ok (⟨t, flags, len⟩, 1 + (Base128.encode len.toNat).length) := by
  have ⟨hs, ha⟩ := t.toU8_shiftLeft_or hf
  have h₁ := readU8_reads (t.toU8 <<< 4 ||| flags) [] (Base128.encode len.toNat ++ rest)
  have h₂ := readVariableInt_reads hl [t.toU8 <<< 4 ||| flags] rest
  rw [UInt32.ofNat_toNat] at h₂
  simp only [List.cons_append, List.nil_append] at h₁ h₂
  rw [decodeFixedHeader, ← Cursor.at_nil, decodeFixedHeader.go, List.cons_append,
    EStateM.bind_ok h₁, hs, PacketType.fromU8_toU8, EStateM.bind_ok (check_ok _ _),
    EStateM.bind_ok h₂, ha, hv, EStateM.bind_ok (check_ok _ _)]
  simp [EStateM.bind_apply, Nat.add_comm]

-- How a decoder of the stream takes apart what `withFixedHeader` put together.
theorem withFixedHeader_decoded {t : PacketType} {flags : UInt8} {body bytes : Bytes}
    (he : withFixedHeader t flags body [] = .ok u bytes) (hl : bytes.length < 2 ^ 32) :
    ∃ headerLen, headerLen + body.length = bytes.length ∧ bytes.drop headerLen = body ∧
      (∀ rest, decodeFixedHeader (bytes ++ rest) =
        .ok (⟨t, flags, .ofNat body.length⟩, headerLen)) ∧
      validateFixedHeader ⟨t, flags, .ofNat body.length⟩ = .ok () ∧
      (UInt32.ofNat body.length).toNat = body.length := by
  have ⟨hf, hv, hm, hb⟩ := withFixedHeader_eq_ok.mp he
  rw [List.nil_append] at hb
  have hlen : (UInt32.ofNat body.length).toNat = body.length := by
    simp [hb] at hl ⊢; omega
  have hmod : body.length % 2 ^ 32 = (UInt32.ofNat body.length).toNat := by simp
  rw [hmod] at hm hb
  refine ⟨1 + (Base128.encode (UInt32.ofNat body.length).toNat).length, ?_, ?_, ?_, hv, hlen⟩
  · simp [hb]; omega
  · simp [hb, Nat.add_comm 1]
  · intro rest
    have := decodeFixedHeader_encoded hf hv hm (body ++ rest)
    simpa [hb] using this

-- The error that a decoder of the stream takes as a request for more data.
def endOfData : Error :=
  .malformedPacket "unexpected end of data"

namespace Cursor

-- The same cursor after more of the stream has arrived.
def extend (cur : Cursor) (t : Bytes) : Cursor :=
  { cur with buf := cur.buf ++ t }

-- A decoder is stable if more data can only change its result when it ran out of data.
def Stable (x : CursorM α) : Prop :=
  ∀ cur t, match x cur with
    | .ok a cur'    => x (cur.extend t) = .ok a (cur'.extend t)
    | .error e cur' => e = endOfData ∨ x (cur.extend t) = .error e (cur'.extend t)

namespace Stable

theorem pure (a : α) : Stable (pure a) := by
  simp [Stable]

theorem throw (e : Error) : Stable (throw e : CursorM α) := by
  simp [Stable]

theorem check (r : Except Error α) : Stable (check r) := by
  cases r <;> simp [Stable]

theorem bind {x : CursorM α} {f : α → CursorM β} (hx : Stable x) (hf : ∀ a, Stable (f a)) :
    Stable (x >>= f) := by
  intro cur t
  have hx := hx cur t
  cases h : x cur <;> simp only [h] at hx
  case error e cur' =>
    rw [EStateM.bind_error h]
    exact hx.imp_right EStateM.bind_error
  case ok a cur' =>
    rw [EStateM.bind_ok h, EStateM.bind_ok hx]
    exact hf a cur' t

theorem ite {c : Prop} [Decidable c] {x y : CursorM α} (hx : Stable x) (hy : Stable y) :
    Stable (if c then x else y) := by
  split <;> assumption

theorem readU8 : Stable readU8 := by
  intro cur t
  by_cases h : cur.remaining = 0
  case pos => simp [Cursor.readU8, ensure, EStateM.bind_apply, h, endOfData]
  case neg =>
    have hp : cur.pos < cur.buf.length := by simp [remaining] at h; omega
    have he : (cur.extend t).remaining ≠ 0 := by simp [remaining, extend]; omega
    simp [Cursor.readU8, ensure, EStateM.bind_apply, EStateM.map_apply, h, he]
    simp [extend, advance, List.getElem?_append_left hp]

theorem readVariableInt : Stable readVariableInt :=
  go 4 0 1
where
  go (rounds : Nat) (value multiplier : UInt32) :
      Stable (readVariableInt.go rounds value multiplier) := by
    induction rounds generalizing value multiplier
    case zero => exact .throw _
    case succ rounds ih =>
      exact readU8.bind fun _ => .ite (.pure _) <| .ite (.bind (.throw _) fun _ => ih _ _) (ih _ _)

end Stable

theorem readU8_cases (cur : Cursor) :
    (cur.remaining = 0 ∧ readU8 cur = .error endOfData cur) ∨
      (0 < cur.remaining ∧ ∃ b, readU8 cur = .ok b (cur.advance 1)) := by
  by_cases h : cur.remaining = 0
  case pos => simp [readU8, ensure, EStateM.bind_apply, h, endOfData]
  case neg =>
    simp [readU8, ensure, EStateM.bind_apply, EStateM.map_apply, h]
    omega

theorem advance_remaining (cur : Cursor) (n : Nat) :
    (cur.advance n).remaining = cur.remaining - n := by
  simp [remaining, advance]
  omega

theorem readVariableInt_go_pos (h : readVariableInt.go rounds value multiplier cur = .ok a cur') :
    cur.pos < cur'.pos := by
  induction rounds generalizing value multiplier cur
  case zero => simp [readVariableInt.go] at h
  case succ rounds ih =>
    rw [readVariableInt.go] at h
    obtain ⟨-, hr⟩ | ⟨-, b, hr⟩ := readU8_cases cur
    case inl => simp [EStateM.bind_error hr] at h
    case inr =>
      have hc : cur.pos < (cur.advance 1).pos := by simp [advance]
      rw [EStateM.bind_ok hr] at h
      split at h
      case isTrue =>
        simp at h
        simp [← h.right, hc]
      case isFalse =>
        dsimp only at h
        split at h
        case isTrue => simp [EStateM.bind_apply] at h
        case isFalse => exact hc.trans (ih h)

-- What has been read has arrived.
theorem readVariableInt_go_le (h : readVariableInt.go rounds value multiplier cur = .ok a cur') :
    cur'.pos ≤ cur.buf.length := by
  induction rounds generalizing value multiplier cur
  case zero => simp [readVariableInt.go] at h
  case succ rounds ih =>
    rw [readVariableInt.go] at h
    obtain ⟨-, hr⟩ | ⟨hl, b, hr⟩ := readU8_cases cur
    case inl => simp [EStateM.bind_error hr] at h
    case inr =>
      rw [EStateM.bind_ok hr] at h
      split at h
      case isTrue =>
        cases h
        simp only [advance, remaining] at hl ⊢
        omega
      case isFalse =>
        dsimp only at h
        split at h
        case isTrue => simp [EStateM.bind_apply] at h
        case isFalse =>
          have hr := ih h
          exact hr

-- A variable integer takes at most four bytes.
theorem readVariableInt_go_endOfData
    (h : readVariableInt.go rounds value multiplier cur = .error endOfData cur') :
    cur.remaining < rounds := by
  induction rounds generalizing value multiplier cur
  case zero => simp [readVariableInt.go, endOfData] at h
  case succ rounds ih =>
    rw [readVariableInt.go] at h
    obtain ⟨hz, -⟩ | ⟨-, b, hr⟩ := readU8_cases cur
    case inl => omega
    case inr =>
      rw [EStateM.bind_ok hr] at h
      split at h
      case isTrue => simp at h
      case isFalse =>
        dsimp only at h
        split at h
        case isTrue => simp [EStateM.bind_apply, endOfData] at h
        case isFalse =>
          have := ih h
          rw [advance_remaining] at this
          omega

end Cursor

namespace decodeFixedHeader

theorem stable : Cursor.Stable go :=
  Cursor.Stable.readU8.bind fun _ => (Cursor.Stable.check _).bind fun _ =>
    Cursor.Stable.readVariableInt.bind fun _ => (Cursor.Stable.check _).bind fun _ _ _ => rfl

theorem append_ok (ys : Bytes) (h : decodeFixedHeader xs = .ok r) :
    decodeFixedHeader (xs ++ ys) = .ok r := by
  have hs := stable { buf := xs } ys
  unfold decodeFixedHeader at h ⊢
  cases hx : go { buf := xs } <;> simp [hx] at h hs
  simp [Cursor.extend] at hs
  simp [hs, h]

theorem append_error (ys : Bytes) (h : decodeFixedHeader xs = .error e) (he : e ≠ endOfData) :
    decodeFixedHeader (xs ++ ys) = .error e := by
  have hs := stable { buf := xs } ys
  unfold decodeFixedHeader at h ⊢
  cases hx : go { buf := xs } <;> simp [hx] at h hs
  simp [h, he, Cursor.extend] at hs
  simp [hs]

theorem nil : decodeFixedHeader [] = .error endOfData :=
  rfl

theorem headerLen_pos (h : decodeFixedHeader xs = .ok (header, headerLen)) : 0 < headerLen := by
  unfold decodeFixedHeader at h
  cases hx : go { buf := xs } <;> simp [hx] at h
  simp only [go, EStateM.bind_eq_ok, check_eq_ok] at hx
  have ⟨_, _, _, _, _, _, _, _, hv, _, _, _, _, _, hg, hp⟩ := hx
  have := Cursor.readVariableInt_go_pos hv
  simp_all
  omega

theorem headerLen_le (h : decodeFixedHeader xs = .ok (header, headerLen)) : headerLen ≤ xs.length := by
  unfold decodeFixedHeader at h
  cases hx : go { buf := xs } <;> simp [hx] at h
  simp only [go, EStateM.bind_eq_ok, check_eq_ok] at hx
  have ⟨_, c, hr, _, _, _, _, _, hv, _, _, _, _, _, hg, hp⟩ := hx
  have hc : c.buf = xs := by
    obtain ⟨-, hr'⟩ | ⟨-, _, hr'⟩ := Cursor.readU8_cases { buf := xs } <;> cases hr.symm.trans hr'
    rfl
  have := Cursor.readVariableInt_go_le hv
  simp_all

theorem fromU8_ne_endOfData (v : UInt8) : PacketType.fromU8 v ≠ .error endOfData := by
  unfold PacketType.fromU8
  split <;> simp [endOfData]

theorem validateFixedHeader_ne_endOfData (header : FixedHeader) :
    validateFixedHeader header ≠ .error endOfData := by
  unfold validateFixedHeader validateFixedHeader.expect
  split
  case h_1 =>
    dsimp only
    split <;> try split
    all_goals simp [endOfData]
  all_goals split <;> simp [endOfData]

-- A fixed header takes at most five bytes.
theorem length_lt_of_endOfData (h : decodeFixedHeader xs = .error endOfData) : xs.length < 5 := by
  unfold decodeFixedHeader at h
  cases hx : go { buf := xs } <;> simp [hx] at h
  subst h
  simp only [go, EStateM.bind_eq_error, check_eq_error, check_eq_ok, EStateM.get_apply] at hx
  obtain ⟨hz, hr⟩ | ⟨-, b, hr⟩ := Cursor.readU8_cases { buf := xs }
  case inl => simp [Cursor.remaining] at hz; simp [hz]
  case inr =>
    simp only [hr] at hx
    obtain hx | ⟨_, _, ⟨rfl, rfl⟩, ⟨hx, -⟩ | ⟨_, _, ⟨-, rfl⟩, hx | ⟨_, _, -, ⟨hx, -⟩ | hx⟩⟩⟩ := hx
    · cases hx
    · exact absurd hx (fromU8_ne_endOfData _)
    · have := Cursor.readVariableInt_go_endOfData hx
      simp [Cursor.advance, Cursor.remaining] at this
      omega
    · exact absurd hx (validateFixedHeader_ne_endOfData _)
    · simp at hx

end decodeFixedHeader
end MqttWasi
