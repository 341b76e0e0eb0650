import MqttWasi.Codec.Theorems.Checked
import MqttWasi.Codec.Theorems.FixedHeader
import MqttWasi.Codec.Theorems.RoundTrips

-- Variable integers: what is written, what is read, and which forms of a number are read.

namespace MqttWasi

open Base128 (Number)

-- The top bit of a byte says that there is more to come.
def Continues (b : UInt8) : Prop :=
  b &&& 0x80 ≠ 0

instance (b : UInt8) : Decidable (Continues b) :=
  inferInstanceAs (Decidable (_ ≠ _))

theorem continues_iff (b : UInt8) : Continues b ↔ 128 ≤ b.toNat := by
  rw [Continues, ne_eq, UInt8.and_128_eq_zero_iff, Nat.not_lt]

theorem VariableInt.le (h : VariableInt bytes v) : v.toNat ≤ 268435455 := by
  have hp := Nat.pow_le_pow_right (by decide : 0 < 128) h.left
  have := h.right.lt
  omega

theorem VariableInt.of_number (h : Number bytes n) (hl : bytes.length ≤ 4) :
    VariableInt bytes (.ofNat n) := by
  have hm : n < 2 ^ 32 := by
    have := Nat.pow_le_pow_right (by decide : 0 < 128) hl
    have := h.lt
    omega
  refine ⟨hl, ?_⟩
  rwa [UInt32.toNat_ofNat_of_lt' hm]

namespace Cursor

theorem readU8_at_nil (pre : Bytes) : readU8 (.at pre []) = .error endOfData (.at pre []) := by
  rw [readU8, EStateM.bind_error (ensure_error (by simp))]
  rfl

theorem readU8_at_cons (pre : Bytes) (b : UInt8) (s : Bytes) :
    readU8 (.at pre (b :: s)) = .ok b (.at (pre ++ [b]) s) :=
  readU8_reads b pre s

-- What one round of the loop makes of a byte after which there is more to come.
theorem readVariableInt_go_more (rounds : Nat) (value multiplier : UInt32) (pre s : Bytes)
    (hb : 128 ≤ b.toNat) :
    readVariableInt.go (rounds + 1) value multiplier (.at pre (b :: s)) =
      if multiplier * 128 > 128 * 128 * 128 then
        .error (.malformedPacket "variable int too long") (.at (pre ++ [b]) s)
      else
        readVariableInt.go rounds (value + (b.toUInt32 &&& 0x7F) * multiplier) (multiplier * 128)
          (.at (pre ++ [b]) s) := by
  have hc : ¬b &&& 0x80 = 0 := by rw [UInt8.and_128_eq_zero_iff]; omega
  rw [readVariableInt.go, EStateM.bind_ok (readU8_at_cons ..)]
  dsimp only
  rw [if_neg hc]
  split
  case isTrue  => rfl
  case isFalse => rfl

-- The product of the multiplier and the weight of the groups that are still to come stays the same.
theorem multiplier_next {multiplier : UInt32} (hm : multiplier.toNat * 128 ^ (rounds + 1) = 128 ^ 4) :
    (multiplier * 128).toNat * 128 ^ rounds = 128 ^ 4 ∧
      (multiplier * 128 > 128 * 128 * 128 ↔ rounds = 0) := by
  rw [Nat.pow_succ', ← Nat.mul_assoc] at hm
  have hp : 0 < 128 ^ rounds := Nat.pow_pos (by decide)
  have hle : multiplier.toNat * 128 ≤ 128 ^ 4 := by
    rw [← hm]
    exact Nat.le_mul_of_pos_right _ hp
  have ht : (multiplier * 128).toNat = multiplier.toNat * 128 := by
    rw [UInt32.toNat_mul]
    exact Nat.mod_eq_of_lt (show multiplier.toNat * 128 < 2 ^ 32 by omega)
  refine ⟨by rw [ht, hm], ?_⟩
  rw [gt_iff_lt, UInt32.lt_iff_toNat_lt, ht]
  have h3 : ((128 : UInt32) * 128 * 128).toNat = 128 ^ 3 := by decide
  rw [h3]
  cases rounds
  case zero => omega
  case succ rounds =>
    have hq : 0 < 128 ^ rounds := Nat.pow_pos (by decide)
    rw [Nat.pow_succ', ← Nat.mul_assoc] at hm
    have : multiplier.toNat * 128 * 128 ≤ 128 ^ 4 := by
      rw [← hm]
      exact Nat.le_mul_of_pos_right _ hq
    omega

theorem readVariableInt_go_unfinished {value multiplier : UInt32} (hl : s.length < rounds)
    (hs : ∀ b ∈ s, 128 ≤ b.toNat) (hm : multiplier.toNat * 128 ^ rounds = 128 ^ 4) :
    readVariableInt.go rounds value multiplier (.at pre s) = .error endOfData (.at (pre ++ s) []) := by
  obtain ⟨rounds, rfl⟩ := Nat.exists_eq_succ_of_ne_zero (Nat.ne_zero_of_lt hl)
  induction s generalizing pre rounds value multiplier
  case nil => rw [readVariableInt.go, EStateM.bind_error (readU8_at_nil pre), List.append_nil]
  case cons b s ih =>
    rw [List.forall_mem_cons] at hs
    obtain ⟨hm, hg⟩ := multiplier_next hm
    have hr : s.length < rounds := Nat.lt_of_succ_lt_succ hl
    have hz := Nat.ne_zero_of_lt hr
    obtain ⟨rounds, rfl⟩ := Nat.exists_eq_succ_of_ne_zero hz
    rw [readVariableInt_go_more _ _ _ _ _ hs.left, if_neg (hz ∘ hg.mp), ih hs.right rounds hr hm,
      List.append_assoc, List.singleton_append]

theorem readVariableInt_go_tooLong (value multiplier : UInt32) (pre rest : Bytes)
    (hs : ∀ b ∈ bytes, 128 ≤ UInt8.toNat b) (hn : bytes ≠ []) (hm : multiplier.toNat * 128 ^ bytes.length = 128 ^ 4) :
    readVariableInt.go bytes.length value multiplier (.at pre (bytes ++ rest)) =
      .error (.malformedPacket "variable int too long") (.at (pre ++ bytes) rest) := by
  induction bytes generalizing pre value multiplier
  case nil => exact absurd rfl hn
  case cons b bytes ih =>
    rw [List.forall_mem_cons] at hs
    obtain ⟨hm, hg⟩ := multiplier_next hm
    rw [List.length_cons, List.cons_append, readVariableInt_go_more _ _ _ _ _ hs.left]
    by_cases hz : bytes.length = 0
    case pos =>
      rw [if_pos (hg.mpr hz), List.length_eq_zero_iff.mp hz]
      rfl
    case neg =>
      rw [if_neg (hz ∘ hg.mp), ih _ _ _ hs.right (by simpa using hz) hm, List.append_assoc,
        List.singleton_append]

-- A number is read, the data end in the middle of one, or there are more than four groups.
theorem readVariableInt_cases (pre s : Bytes) :
    (∃ bytes rest v, s = bytes ++ rest ∧ VariableInt bytes v ∧
      readVariableInt (.at pre s) = .ok v (.at (pre ++ bytes) rest)) ∨
    ((s.length < 4 ∧ ∀ b ∈ s, Continues b) ∧
      readVariableInt (.at pre s) = .error endOfData (.at (pre ++ s) [])) ∨
    ∃ bytes rest, s = bytes ++ rest ∧ bytes.length = 4 ∧ (∀ b ∈ bytes, Continues b) ∧
      readVariableInt (.at pre s) =
        .error (.malformedPacket "variable int too long") (.at (pre ++ bytes) rest) := by
  simp only [continues_iff]
  rcases Number.trichotomy 4 s with ⟨bytes, n, rest, rfl, hn, hl⟩ | ⟨hl, hs⟩ | ⟨bytes, rest, rfl, hl, hs⟩
  case inl =>
    have hv := VariableInt.of_number hn hl
    exact .inl ⟨bytes, rest, _, rfl, hv, readVariableInt_accepts.reads hv pre rest⟩
  case inr.inl =>
    exact .inr (.inl ⟨⟨hl, hs⟩, readVariableInt_go_unfinished hl hs (by decide)⟩)
  case inr.inr =>
    have hr := readVariableInt_go_tooLong 0 1 pre rest hs (by rintro rfl; cases hl) (by rw [hl]; rfl)
    rw [hl] at hr
    exact .inr (.inr ⟨bytes, rest, rfl, hl, hs, hr⟩)

end Cursor

-- Bytes that end in the middle of a number are the beginning of what is written for one.
theorem unfinished_iff (s : Bytes) : (s.length < 4 ∧ ∀ b ∈ s, Continues b) ↔
    ∃ v t, v.toNat ≤ 268435455 ∧ t ≠ [] ∧ encodeVariableInt v [] = .ok ⟨⟩ (s ++ t) := by
  simp only [continues_iff, encodeVariableInt_eq_ok, List.nil_append]
  constructor
  case mp =>
    intro ⟨hl, hs⟩
    obtain ⟨n, hn⟩ := Number.of_split 1 (by decide) hs
    have hv := VariableInt.of_number hn (by simp; omega)
    refine ⟨_, [1], hv.le, by simp, hv.le, (hv.right.encode_eq_iff.mpr (.inr ?_)).symm⟩
    simp
  case mpr =>
    intro ⟨v, t, hv, ht, _, he⟩
    have hl := Base128.length_encode_le_of_lt (k := 3) (Nat.lt_succ_of_le hv)
    obtain ⟨more, last, hs, hm, _⟩ := (Number.encode v.toNat).split
    obtain ⟨t', last', rfl⟩ := (List.eq_nil_or_concat t).resolve_left ht
    rw [← he] at hs hl
    rw [List.concat_eq_append, ← List.append_assoc, List.append_singleton_inj] at hs
    refine ⟨?_, fun b hb => hm b ?_⟩
    case refine_1 => simp at hl; omega
    case refine_2 => rw [← hs.left]; exact List.mem_append_left _ hb

theorem encodeVariableInt_error {v : UInt32} (buf : Bytes) (h : 268435455 < v.toNat) :
    encodeVariableInt v buf = .error (.packetTooLarge v.toNat variableIntMax.toNat) buf := by
  have hc : v > variableIntMax := by rwa [gt_iff_lt, UInt32.lt_iff_toNat_lt]
  rw [encodeVariableInt, if_pos hc]
  rfl

theorem variableInt_codec :
    (∀ (v : UInt32) (buf : Bytes), v.toNat ≤ 268435455 → ∃ bytes,
      encodeVariableInt v buf = .ok ⟨⟩ (buf ++ bytes) ∧ bytes.length = variableIntLen v ∧
        ∀ pre rest, Cursor.readVariableInt (.at pre (bytes ++ rest)) = .ok v (.at (pre ++ bytes) rest)) ∧
    (∀ (v : UInt32) (buf : Bytes), 268435455 < v.toNat →
      ∃ e, encodeVariableInt v buf = .error e buf) ∧
    ∀ pre s : Bytes,
      Checked.Cursor.readVariableInt (.at pre s) =
        Panics.fault (Cursor.readVariableInt (.at pre s)) ∧
      (∃ bytes rest, s = bytes ++ rest ∧ bytes.length ≤ 4 ∧
        (Cursor.readVariableInt (.at pre s)).state = .at (pre ++ bytes) rest) ∧
      (∀ v cur, Cursor.readVariableInt (.at pre s) = .ok v cur → v.toNat ≤ 268435455) ∧
      ((∃ cur, Cursor.readVariableInt (.at pre s) =
          .error (.malformedPacket "unexpected end of data") cur) ↔
        s.length < 4 ∧ ∀ b ∈ s, b &&& 0x80 ≠ 0) ∧
      ((s.length < 4 ∧ ∀ b ∈ s, b &&& 0x80 ≠ 0) ↔
        ∃ v t, v.toNat ≤ 268435455 ∧ t ≠ [] ∧ encodeVariableInt v [] = .ok ⟨⟩ (s ++ t)) := by
  refine ⟨fun v buf hv => ?_, fun v buf hv => ⟨_, encodeVariableInt_error buf hv⟩,
    fun pre s => ⟨?_, ?_, fun v cur hr => ?_, ?_, unfinished_iff s⟩⟩
  case refine_1 =>
    refine ⟨Base128.encode v.toNat, encodeVariableInt_eq_ok.mpr ⟨hv, rfl⟩, (variableIntLen_eq hv).symm,
      fun pre rest => ?_⟩
    have hr := Cursor.readVariableInt_reads hv pre rest
    rwa [UInt32.ofNat_toNat] at hr
  case refine_2 =>
    have hw : Checked.Cursor.Within (pre ++ s) 0 (.at pre s) := ⟨rfl, Nat.zero_le _, by simp⟩
    exact Checked.Cursor.readVariableInt_reads.eq hw
  case refine_3 =>
    rcases Cursor.readVariableInt_cases pre s with
      ⟨bytes, rest, v, hs, hv, hr⟩ | ⟨⟨hl, _⟩, hr⟩ | ⟨bytes, rest, hs, hl, _, hr⟩
    case inl => exact ⟨bytes, rest, hs, hv.left, by rw [hr]; rfl⟩
    case inr.inl => exact ⟨s, [], (List.append_nil s).symm, Nat.le_of_lt hl, by rw [hr]; rfl⟩
    case inr.inr => exact ⟨bytes, rest, hs, Nat.le_of_eq hl, by rw [hr]; rfl⟩
  case refine_4 =>
    obtain ⟨bytes, _, _, hv, _⟩ := (Cursor.readVariableInt_accepts pre s v cur).mp hr
    exact hv.le
  case refine_5 =>
    rcases Cursor.readVariableInt_cases pre s with
      ⟨bytes, rest, v, rfl, hv, hr⟩ | ⟨hs, hr⟩ | ⟨bytes, rest, rfl, hl, _, hr⟩
    case inl =>
      obtain ⟨more, last, rfl, _, hb⟩ := hv.right.split
      refine ⟨fun ⟨cur, he⟩ => ?_, fun hs => ?_⟩
      case refine_1 => rw [hr] at he; cases he
      case refine_2 =>
        have hm := (continues_iff last).mp (hs.right last (by simp))
        omega
    case inr.inl => exact ⟨fun _ => hs, fun _ => ⟨_, hr⟩⟩
    case inr.inr =>
      refine ⟨fun ⟨cur, he⟩ => ?_, fun hs => ?_⟩
      case refine_1 =>
        rw [hr, EStateM.Result.error.injEq] at he
        exact absurd he.left (by decide)
      case refine_2 =>
        have := hs.left
        rw [List.length_append] at this
        omega

-- The last byte of the number is zero, which does not count, and is not its only one.
def Padded (s : Bytes) : Prop :=
  (s.dropWhile (Continues ·)).head? = some 0 ∧ s.head? ≠ some 0

instance (s : Bytes) : Decidable (Padded s) :=
  inferInstanceAs (Decidable (_ ∧ _))

theorem padded_iff (h : Number bytes n) (rest : Bytes) :
    Padded (bytes ++ rest) ↔ bytes.length ≠ 1 ∧ bytes.getLast? = some 0 := by
  obtain ⟨more, last, rfl, hm, hl⟩ := h.split
  have hc : ¬Continues last := by rw [continues_iff]; omega
  have hd : ((more ++ [last]) ++ rest).dropWhile (Continues ·) = last :: rest := by
    rw [List.append_assoc, List.dropWhile_append_of_pos
      fun b hb => decide_eq_true ((continues_iff b).mpr (hm b hb))]
    simp [hc]
  rw [Padded, hd, List.head?_cons, List.getLast?_append_of_ne_nil _ (by simp), List.getLast?_singleton]
  cases more
  case nil => simp
  case cons b more =>
    have hb := hm b List.mem_cons_self
    have hz : b ≠ 0 := by rintro rfl; cases hb
    simp [hz]

theorem readVariableInt_canonical_iff (pre s : Bytes) (v : UInt32) (cur : Cursor)
    (h : Cursor.readVariableInt (.at pre s) = .ok v cur) :
    ∃ bytes rest, s = bytes ++ rest ∧ cur = .at (pre ++ bytes) rest ∧
      (encodeVariableInt v [] = .ok ⟨⟩ bytes ↔ ¬Padded s) := by
  obtain ⟨bytes, rest, rfl, hv, rfl⟩ := (Cursor.readVariableInt_accepts pre s v cur).mp h
  refine ⟨bytes, rest, rfl, rfl, ?_⟩
  rw [encodeVariableInt_eq_ok, padded_iff hv.right, List.nil_append, eq_comm, hv.right.encode_eq_iff]
  have := hv.le
  tauto

theorem readVariableInt_canonical_iff_short :
    ∃ cur, Cursor.readVariableInt (.at [] [0x80, 0x01, 0xFF]) = .ok 128 cur ∧
      encodeVariableInt 128 [] = .ok ⟨⟩ [0x80, 0x01] := by
  have hr : Cursor.readVariableInt (.at [] [0x80, 0x01, 0xFF]) =
      .ok 128 (.at [0x80, 0x01] [0xFF]) := rfl
  obtain ⟨bytes, rest, hs, hc, hi⟩ := readVariableInt_canonical_iff _ _ _ _ hr
  have hl : [0x80, 0x01].length = bytes.length := congrArg Cursor.pos hc
  have hb : [0x80, 0x01] = bytes := List.append_inj_left hs hl
  exact ⟨_, hr, hb ▸ hi.mpr (by decide)⟩

-- Zero in two bytes.
theorem readVariableInt_overlong :
    Cursor.readVariableInt (.at [] [0x80, 0x00]) = .ok 0 (.at [0x80, 0x00] []) ∧
      encodeVariableInt 0 [] = .ok ⟨⟩ [0x00] ∧ Padded [0x80, 0x00] :=
  ⟨rfl, rfl, by decide⟩

end MqttWasi
