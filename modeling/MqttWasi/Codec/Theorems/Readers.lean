import MqttWasi.Codec.Grammar
import MqttWasi.Codec.Theorems.Encoders

namespace MqttWasi

open Base128 (Number)

theorem u16ToBeBytes_fromBeBytes (b₀ b₁ : UInt8) : u16ToBeBytes (u16FromBeBytes b₀ b₁) = [b₀, b₁] := by
  have h₀ := b₀.toNat_lt
  have h₁ := b₁.toNat_lt
  have h : (u16FromBeBytes b₀ b₁).toNat = b₀.toNat * 256 + b₁.toNat := by
    simp [u16FromBeBytes]
    omega
  have hd : (b₀.toNat * 256 + b₁.toNat) / 256 = b₀.toNat := by omega
  have hm : UInt8.ofNat (b₀.toNat * 256 + b₁.toNat) = b₁ := by
    apply UInt8.toNat_inj.mp
    simp
  simp [u16ToBeBytes, h, hd, hm]

theorem u32ToBeBytes_fromBeBytes (b₀ b₁ b₂ b₃ : UInt8) :
    u32ToBeBytes (u32FromBeBytes b₀ b₁ b₂ b₃) = [b₀, b₁, b₂, b₃] := by
  have h₀ := b₀.toNat_lt
  have h₁ := b₁.toNat_lt
  have h₂ := b₂.toNat_lt
  have h₃ := b₃.toNat_lt
  have h : (u32FromBeBytes b₀ b₁ b₂ b₃).toNat =
      ((b₀.toNat * 256 + b₁.toNat) * 256 + b₂.toNat) * 256 + b₃.toNat := by
    simp [u32FromBeBytes]
    omega
  simp only [u32ToBeBytes, h, List.cons.injEq, and_true]
  refine ⟨?_, ?_, ?_, ?_⟩ <;> apply UInt8.toNat_inj.mp <;> simp <;> omega

theorem u16FromBeBytes_eq_iff : u16FromBeBytes b₀ b₁ = v ↔ [b₀, b₁] = u16ToBeBytes v := by
  constructor
  case mp => rintro rfl; exact (u16ToBeBytes_fromBeBytes b₀ b₁).symm
  case mpr =>
    intro h
    simp only [u16ToBeBytes, List.cons.injEq, and_true] at h
    rw [h.left, h.right]
    exact u16FromBeBytes_toBeBytes v

theorem u32FromBeBytes_eq_iff :
    u32FromBeBytes b₀ b₁ b₂ b₃ = v ↔ [b₀, b₁, b₂, b₃] = u32ToBeBytes v := by
  constructor
  case mp => rintro rfl; exact (u32ToBeBytes_fromBeBytes b₀ b₁ b₂ b₃).symm
  case mpr =>
    intro h
    simp only [u32ToBeBytes, List.cons.injEq, and_true] at h
    rw [h.left, h.right.left, h.right.right.left, h.right.right.right]
    exact u32FromBeBytes_toBeBytes v

theorem fromUtf8_eq_some : fromUtf8 bytes = some s ↔ utf8 s = bytes := by
  constructor
  case mp =>
    intro h
    simp only [fromUtf8, String.fromUTF8?] at h
    split at h
    case isTrue => cases h; simp [utf8, String.fromUTF8]
    case isFalse => cases h
  case mpr =>
    intro h
    rw [← h]
    exact fromUtf8_utf8 s

namespace Cursor

-- A reader accepts exactly the byte strings of some language, wherever they stand and whatever
-- follows them, and reads them as what the language takes them for.
def Accepts (x : CursorM α) (L : Bytes → α → Prop) : Prop :=
  ∀ pre s a cur, x (.at pre s) = .ok a cur ↔
    ∃ bytes rest, s = bytes ++ rest ∧ L bytes a ∧ cur = .at (pre ++ bytes) rest

namespace Accepts

variable {x : CursorM α} {L : Bytes → α → Prop}

theorem congr (h : Accepts x L) {M : Bytes → α → Prop} (he : ∀ bytes a, L bytes a ↔ M bytes a) :
    Accepts x M := by
  intro pre s a cur
  simp [h pre s a cur, he]

theorem reads (h : Accepts x L) (hl : L bytes a) : Reads x bytes a :=
  fun pre rest => (h pre (bytes ++ rest) a _).mpr ⟨bytes, rest, rfl, hl, rfl⟩

theorem pure (a : α) : Accepts (pure a) fun bytes a' => bytes = [] ∧ a' = a := by
  intro pre s a' cur
  simp [eq_comm]

theorem throw (e : Error) : Accepts (throw e : CursorM α) fun _ _ => False := by
  intro pre s a cur
  simp

theorem bind_ok (h : Accepts x L) {f : α → CursorM β} : (x >>= f) (.at pre s) = .ok b cur ↔
    ∃ bytes rest a, s = bytes ++ rest ∧ L bytes a ∧ f a (.at (pre ++ bytes) rest) = .ok b cur := by
  rw [EStateM.bind_eq_ok]
  constructor
  case mp =>
    intro ⟨a, cur', hx, hf⟩
    have ⟨bytes, rest, hs, hl, hc⟩ := (h pre s a cur').mp hx
    exact ⟨bytes, rest, a, hs, hl, hc ▸ hf⟩
  case mpr =>
    intro ⟨bytes, rest, a, hs, hl, hf⟩
    exact ⟨a, _, (h pre s a _).mpr ⟨bytes, rest, hs, hl, rfl⟩, hf⟩

theorem bind (h : Accepts x L) {f : α → CursorM β} {M : α → Bytes → β → Prop}
    (hf : ∀ a, Accepts (f a) (M a)) :
    Accepts (x >>= f) fun bytes b => ∃ a xs ys, bytes = xs ++ ys ∧ L xs a ∧ M a ys b := by
  intro pre s b cur
  rw [h.bind_ok]
  constructor
  case mp =>
    intro ⟨xs, rest, a, hs, hl, hb⟩
    have ⟨ys, rest, hr, hm, hc⟩ := (hf a _ _ _ _).mp hb
    refine ⟨xs ++ ys, rest, ?_, ⟨a, xs, ys, rfl, hl, hm⟩, ?_⟩
    case refine_1 => simp [hs, hr]
    case refine_2 => simp [hc]
  case mpr =>
    intro ⟨_, rest, hs, ⟨a, xs, ys, hb, hl, hm⟩, hc⟩
    refine ⟨xs, ys ++ rest, a, ?_, hl, (hf a _ _ _ _).mpr ⟨ys, rest, rfl, hm, ?_⟩⟩
    case refine_1 => simp [hs, hb]
    case refine_2 => simp [hc, hb]

theorem map (h : Accepts x L) (f : α → β) :
    Accepts (f <$> x) fun bytes b => ∃ a, L bytes a ∧ b = f a := by
  have he := h.bind fun a => pure (f a)
  rw [← map_eq_pure_bind] at he
  exact he.congr fun bytes b => by simp

theorem of_map {f : α → β} {M : Bytes → β → Prop} (hf : Function.Injective f)
    (h : Accepts (f <$> x) M) : Accepts x fun bytes a => M bytes (f a) := by
  intro pre s a cur
  rw [← h pre s (f a) cur, EStateM.map_apply]
  cases x (.at pre s) <;> simp [hf.eq_iff]

theorem discard (h : Accepts x L) : Accepts (discard x) fun bytes _ => ∃ a, L bytes a :=
  (h.map fun _ => ()).congr fun _ _ => by simp

-- A check between two reads.
theorem guarded {c : Prop} [Decidable c] {e : Error} {f : Unit → CursorM α}
    (h : Accepts (f ()) L) : Accepts (if c then MonadExcept.throw e >>= f else f ())
      fun bytes a => ¬c ∧ L bytes a := by
  split
  case isTrue hc => exact (bind (throw e) fun _ => h).congr fun _ _ => by simp [hc]
  case isFalse hc => exact h.congr fun _ _ => by simp [hc]

theorem ite {c : Prop} [Decidable c] {y : CursorM α} {M : Bytes → α → Prop} (h : c → Accepts x L)
    (h' : ¬c → Accepts y M) :
    Accepts (if c then x else y) fun bytes a => (c ∧ L bytes a) ∨ (¬c ∧ M bytes a) := by
  split
  case isTrue hc => exact (h hc).congr fun _ _ => by simp [hc]
  case isFalse hc => exact (h' hc).congr fun _ _ => by simp [hc]

end Accepts

theorem ensure_bind_accepts {f : Unit → CursorM α} {L : Bytes → α → Prop}
    (h : ∀ pre bytes rest a cur, bytes.length = n → (f () (.at pre (bytes ++ rest)) = .ok a cur ↔
      L bytes a ∧ cur = .at (pre ++ bytes) rest)) :
    Accepts (ensure n >>= f) fun bytes a => bytes.length = n ∧ L bytes a := by
  intro pre s a cur
  by_cases hn : n ≤ s.length
  case pos =>
    rw [EStateM.bind_ok (ensure_at hn)]
    have hl : (s.take n).length = n := by simp [hn]
    have hf := h pre (s.take n) (s.drop n) a cur hl
    rw [List.take_append_drop] at hf
    rw [hf]
    constructor
    case mp =>
      intro ⟨ha, hc⟩
      exact ⟨s.take n, s.drop n, (List.take_append_drop n s).symm, ⟨hl, ha⟩, hc⟩
    case mpr =>
      intro ⟨bytes, rest, hs, ⟨hb, ha⟩, hc⟩
      subst hs hb
      simpa using ⟨ha, hc⟩
  case neg =>
    rw [EStateM.bind_error (ensure_error (Nat.lt_of_not_le hn))]
    constructor
    case mp => nofun
    case mpr =>
      intro ⟨bytes, rest, hs, ⟨hb, _⟩, _⟩
      rw [hs, List.length_append] at hn
      omega

theorem readU8_accepts : Accepts readU8 fun bytes b => bytes = [b] := by
  have h : Accepts readU8 fun bytes b => bytes.length = 1 ∧ bytes.head? = some b := by
    refine ensure_bind_accepts fun pre bytes rest b cur hl => ?_
    have ⟨b', hb⟩ := List.length_eq_one_iff.mp hl
    subst hb
    simp [EStateM.bind_apply, EStateM.map_apply, ← at_advance, eq_comm]
  refine h.congr fun bytes b => ?_
  cases bytes <;> simp [and_comm]

theorem readU16_accepts : Accepts readU16 fun bytes v => bytes = u16ToBeBytes v := by
  have h : Accepts readU16 fun bytes v => bytes.length = 2 ∧ bytes = u16ToBeBytes v := by
    refine ensure_bind_accepts fun pre bytes rest v cur hl => ?_
    have ⟨b₀, b₁, hb⟩ := List.length_eq_two.mp hl
    subst hb
    have hr : readU16 (.at pre ([b₀, b₁] ++ rest)) =
        .ok (u16FromBeBytes b₀ b₁) (.at (pre ++ [b₀, b₁]) rest) := by
      have := readU16_reads (u16FromBeBytes b₀ b₁) pre rest
      rwa [u16ToBeBytes_fromBeBytes] at this
    rw [readU16, EStateM.bind_ok (ensure_at (by simp))] at hr
    rw [hr, ← u16FromBeBytes_eq_iff]
    simp [eq_comm]
  refine h.congr fun bytes v => ?_
  simp only [and_iff_right_iff_imp]
  intro h
  simp [h, u16ToBeBytes]

theorem readU32_accepts : Accepts readU32 fun bytes v => bytes = u32ToBeBytes v := by
  have h : Accepts readU32 fun bytes v => bytes.length = 4 ∧ bytes = u32ToBeBytes v := by
    refine ensure_bind_accepts fun pre bytes rest v cur hl => ?_
    obtain ⟨b₀, b₁, b₂, b₃, rfl⟩ : ∃ b₀ b₁ b₂ b₃, bytes = [b₀, b₁, b₂, b₃] := by
      match bytes, hl with
      | [b₀, b₁, b₂, b₃], _ => exact ⟨b₀, b₁, b₂, b₃, rfl⟩
    have hr : readU32 (.at pre ([b₀, b₁, b₂, b₃] ++ rest)) =
        .ok (u32FromBeBytes b₀ b₁ b₂ b₃) (.at (pre ++ [b₀, b₁, b₂, b₃]) rest) := by
      have := readU32_reads (u32FromBeBytes b₀ b₁ b₂ b₃) pre rest
      rwa [u32ToBeBytes_fromBeBytes] at this
    rw [readU32, EStateM.bind_ok (ensure_at (by simp))] at hr
    rw [hr, ← u32FromBeBytes_eq_iff]
    simp [eq_comm]
  refine h.congr fun bytes v => ?_
  simp only [and_iff_right_iff_imp]
  intro h
  simp [h, u32ToBeBytes]

theorem readBytes_accepts (n : Nat) :
    Accepts (readBytes n) fun bytes a => bytes.length = n ∧ bytes = a := by
  refine ensure_bind_accepts fun pre bytes rest a cur hl => ?_
  subst hl
  simp [EStateM.bind_apply, EStateM.map_apply, ← at_advance, eq_comm]

theorem readVariableInt_go_accepts {rounds multiplier : Nat} (hm : multiplier * 128 ^ rounds = 128 ^ 4)
    (value : Nat) : Accepts (readVariableInt.go rounds (.ofNat value) (.ofNat multiplier))
      fun bytes v => bytes.length ≤ rounds ∧
        ∃ n, Number bytes n ∧ v = .ofNat (value + n * multiplier) := by
  induction rounds generalizing value multiplier
  case zero =>
    refine (Accepts.throw _).congr fun bytes v => ?_
    simp
    rintro rfl n hn
    exact absurd rfl hn.ne_nil
  case succ rounds ih =>
    have hk : multiplier * 128 * 128 ^ rounds = 128 ^ 4 := by rw [← hm]; ring
    have ho : UInt32.ofNat multiplier * 128 = .ofNat (multiplier * 128) := by simp
    have hv (b : UInt8) (multiplier : Nat) : UInt32.ofNat value + (b.toUInt32 &&& 0x7F) *
        .ofNat multiplier = .ofNat (value + b.toNat % 128 * multiplier) := by
      have hb : b.toUInt32 &&& 0x7F = .ofNat (b.toNat % 128) := by
        apply UInt32.toNat_inj.mp
        rw [UInt32.toNat_and_127]
        simp
        omega
      simp [hb]
    rw [readVariableInt.go]
    refine (readU8_accepts.bind (M := fun b ys v =>
      (b.toNat < 128 ∧ ys = [] ∧ v = .ofNat (value + b.toNat * multiplier)) ∨
        (128 ≤ b.toNat ∧ ys.length ≤ rounds ∧
          ∃ n, Number ys n ∧ v = .ofNat (value + (b.toNat % 128 + 128 * n) * multiplier)))
      fun b => ?_).congr fun bytes v => ?_
    case refine_1 =>
      dsimp only
      rw [hv, ho]
      refine (Accepts.ite (fun _ => .pure _) fun _ =>
        .guarded (ih hk (value + b.toNat % 128 * multiplier))).congr fun ys v => ?_
      rw [UInt8.and_128_eq_zero_iff]
      by_cases hb : b.toNat < 128
      case pos => simp [hb, Nat.mod_eq_of_lt hb]
      case neg =>
        have hn (n : Nat) : value + b.toNat % 128 * multiplier + n * (multiplier * 128) =
            value + (b.toNat % 128 + 128 * n) * multiplier := by ring
        -- The check on the multiplier fails only if there is no round left.
        have hg : 0 < rounds → ¬UInt32.ofNat (multiplier * 128) > 128 * 128 * 128 := by
          intro hr
          have hp := Nat.pow_le_pow_right (by decide : 0 < 128) hr
          have hl := Nat.mul_le_mul_left (multiplier * 128) hp
          rw [gt_iff_lt, UInt32.lt_iff_toNat_lt]
          simp
          omega
        have hs (n : Nat) (hl : ys.length ≤ rounds) (hy : Number ys n) : 0 < rounds :=
          Nat.lt_of_lt_of_le (List.length_pos_iff.mpr hy.ne_nil) hl
        have hb' := Nat.le_of_not_lt hb
        simp only [hb, hb', hn, false_and, false_or, not_false_eq_true, true_and]
        exact ⟨fun h => h.right, fun h => ⟨hg (hs _ h.left h.right.choose_spec.left), h⟩⟩
    case refine_2 =>
      constructor
      case mp =>
        rintro ⟨b, xs, ys, hs, hx, h⟩
        subst hs hx
        cases h
        case inl h =>
          obtain ⟨hb, rfl, hv⟩ := h
          exact ⟨by simp, b.toNat, .last hb, hv⟩
        case inr h =>
          obtain ⟨hb, hl, n, hn, hv⟩ := h
          exact ⟨by simp [hl], _, .more hb hn, hv⟩
      case mpr =>
        rintro ⟨hl, n, hn, hv⟩
        cases hn
        case last b hb => exact ⟨b, [b], [], rfl, rfl, .inl ⟨hb, rfl, hv⟩⟩
        case more ys n b hb hn =>
          exact ⟨b, [b], ys, rfl, rfl, .inr ⟨hb, Nat.le_of_succ_le_succ hl, n, hn, hv⟩⟩

theorem readVariableInt_accepts : Accepts readVariableInt VariableInt := by
  have h : Accepts readVariableInt fun bytes v => bytes.length ≤ 4 ∧
      ∃ n, Number bytes n ∧ v = .ofNat (0 + n * 1) := readVariableInt_go_accepts rfl 0
  refine h.congr fun bytes v => ?_
  rw [VariableInt, and_congr_right_iff]
  intro hl
  have hlt {n : Nat} (hn : Number bytes n) : n < 2 ^ 32 := by
    have := Nat.pow_le_pow_right (by decide : 0 < 128) hl
    have := hn.lt
    omega
  constructor
  case mp =>
    intro ⟨n, hn, hv⟩
    have he : v.toNat = n := by
      have := hlt hn
      simp [hv]
      omega
    rwa [he]
  case mpr =>
    intro hn
    exact ⟨v.toNat, hn, by simp⟩

theorem readString_accepts : Accepts readString Utf8String := by
  refine (readU16_accepts.bind (M := fun len ys s => ys.length = len.toNat ∧ 0 ∉ ys ∧
    utf8 s = ys) fun len => ?_).congr fun bytes s => ?_
  case refine_1 =>
    refine ((readBytes_accepts len.toNat).bind (M := fun bytes ys s =>
      0 ∉ bytes ∧ ys = [] ∧ utf8 s = bytes) fun bytes => ?_).congr fun ys s => ?_
    case refine_1 =>
      refine (Accepts.guarded (L := fun ys s => ys = [] ∧ utf8 s = bytes) ?_).congr ?_
      case refine_1 =>
        dsimp only
        simp only [← fromUtf8_eq_some]
        cases fromUtf8 bytes
        case none => exact (Accepts.throw _).congr fun _ _ => by simp
        case some s => exact (Accepts.pure s).congr fun _ _ => by simp [eq_comm]
      case refine_2 => simp
    case refine_2 =>
      constructor
      case mp =>
        intro ⟨bytes, xs, zs, hy, ⟨hl, hx⟩, h0, hz, hs⟩
        subst hx hz
        simp at hy
        exact ⟨hy ▸ hl, hy ▸ h0, hy ▸ hs⟩
      case mpr =>
        intro ⟨hl, h0, hs⟩
        exact ⟨ys, ys, [], by simp, ⟨hl, rfl⟩, h0, rfl, hs⟩
  case refine_2 =>
    constructor
    case mp =>
      intro ⟨len, xs, ys, hb, hx, hl, h0, hs⟩
      subst hs
      have hn : UInt16.ofNat (utf8 s).length = len := by rw [hl]; simp
      refine ⟨?_, h0, by rw [hn, hb, hx]⟩
      have := len.toNat_lt
      omega
    case mpr =>
      intro ⟨hl, h0, hb⟩
      exact ⟨_, _, _, hb, rfl, by simp; omega, h0, rfl⟩

theorem readBinary_accepts : Accepts readBinary BinaryData := by
  refine (readU16_accepts.bind fun len => readBytes_accepts len.toNat).congr fun bytes data => ?_
  constructor
  case mp =>
    intro ⟨len, xs, ys, hb, hx, hl, hd⟩
    subst hd
    have hn : UInt16.ofNat ys.length = len := by rw [hl]; simp
    refine ⟨?_, by rw [hn, hb, hx]⟩
    have := len.toNat_lt
    omega
  case mpr =>
    intro ⟨hl, hb⟩
    exact ⟨_, _, _, hb, rfl, by simp; omega, rfl⟩

end Cursor
end MqttWasi
