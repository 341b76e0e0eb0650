import Mathlib.Algebra.Group.Nat.Defs
import Mathlib.Data.Nat.Init

-- Numbers in base 128, least significant group first. All bytes but the last have their top bit set.

namespace Base128

def encode (n : Nat) : List UInt8 :=
  if n < 128 then [.ofNat n] else .ofNat (n % 128 + 128) :: encode (n / 128)

theorem encode_of_lt (h : n < 128) : encode n = [.ofNat n] := by
  rw [encode, if_pos h]

theorem encode_of_le (h : 128 ≤ n) : encode n = .ofNat (n % 128 + 128) :: encode (n / 128) := by
  rw [encode, if_neg (by omega)]

theorem length_encode_le_of_lt (h : n < 128 ^ (k + 1)) : (encode n).length ≤ k + 1 := by
  induction k generalizing n
  case zero => simp [encode_of_lt h]
  case succ k ih =>
    by_cases hn : n < 128
    case pos => simp [encode_of_lt hn]
    case neg =>
      rw [encode_of_le (Nat.not_lt.mp hn), List.length_cons]
      exact Nat.succ_le_succ (ih (by rw [Nat.pow_succ] at h; omega))

theorem encode_ne_nil (n : Nat) : encode n ≠ [] := by
  rw [encode]
  split <;> simp

-- What stands for a number, also with more groups than the number needs.
inductive Number : List UInt8 → Nat → Prop
  | last : (b.toNat < 128) → Number [b] b.toNat
  | more : (128 ≤ b.toNat) → Number bytes n → Number (b :: bytes) (b.toNat % 128 + 128 * n)

namespace Number

theorem ne_nil (h : Number bytes n) : bytes ≠ [] := by
  cases h <;> simp

theorem encode (n : Nat) : Number (encode n) n := by
  induction n using Nat.strongRecOn
  case ind n ih =>
    by_cases h : n < 128
    case pos =>
      have hb : (UInt8.ofNat n).toNat = n := by simp; omega
      have hl : Number [.ofNat n] (UInt8.ofNat n).toNat := .last (by omega)
      rwa [hb, ← encode_of_lt h] at hl
    case neg =>
      have hb : (UInt8.ofNat (n % 128 + 128)).toNat = n % 128 + 128 := by simp; omega
      have hm := Number.more (b := .ofNat (n % 128 + 128)) (by omega) (ih (n / 128) (by omega))
      have he : (n % 128 + 128) % 128 + 128 * (n / 128) = n := by omega
      rwa [hb, he, ← encode_of_le (by omega)] at hm

theorem lt (h : Number bytes n) : n < 128 ^ bytes.length := by
  induction h
  case last h => simpa using h
  case more ih =>
    rw [List.length_cons, Nat.pow_succ]
    omega

theorem getLast?_of_zero (h : Number bytes n) (hn : n = 0) : bytes.getLast? = some 0 := by
  induction h
  case last =>
    rw [List.getLast?_singleton]
    exact congrArg some (UInt8.toNat_inj.mp hn)
  case more h ih =>
    rw [List.getLast?_cons_of_ne_nil h.ne_nil]
    exact ih (by omega)

-- Only a number with a last group of zero, which does not count, can do with less bytes.
theorem encode_eq_iff (h : Number bytes n) :
    Base128.encode n = bytes ↔ bytes.length = 1 ∨ bytes.getLast? ≠ some 0 := by
  induction h
  case last b hb => simp [encode_of_lt hb]
  case more bytes n b hb hn ih =>
    have hl : (b :: bytes).length ≠ 1 := by simpa using hn.ne_nil
    simp only [hl, false_or]
    rw [List.getLast?_cons_of_ne_nil hn.ne_nil]
    by_cases hz : n = 0
    case pos =>
      have he := hn.getLast?_of_zero hz
      rw [encode_of_lt (by omega), List.cons.injEq]
      simp [he, hn.ne_nil.symm]
    case neg =>
      have hd : (b.toNat % 128 + 128 * n) / 128 = n := by omega
      have hm : UInt8.ofNat ((b.toNat % 128 + 128 * n) % 128 + 128) = b := by
        apply UInt8.toNat_inj.mp
        have := b.toNat_lt
        simp
        omega
      rw [encode_of_le (by omega), hd, hm, List.cons.injEq, eq_self, true_and, ih, or_iff_right_iff_imp]
      intro hl he
      obtain ⟨b', rfl⟩ := List.length_eq_one_iff.mp hl
      cases hn
      case last => simp_all
      case more h => exact absurd rfl h.ne_nil

-- All bytes of a number but the last say that there is more to come.
theorem split (h : Number bytes n) :
    ∃ more last, bytes = more ++ [last] ∧ (∀ b ∈ more, 128 ≤ b.toNat) ∧ last.toNat < 128 := by
  induction h
  case last b hb => exact ⟨[], b, rfl, nofun, hb⟩
  case more b hb _ ih =>
    obtain ⟨more, last, rfl, hm, hl⟩ := ih
    exact ⟨b :: more, last, rfl, List.forall_mem_cons.mpr ⟨hb, hm⟩, hl⟩

theorem of_split (b : UInt8) (hb : b.toNat < 128) (hm : ∀ b ∈ bytes, 128 ≤ UInt8.toNat b) :
    ∃ n, Number (bytes ++ [b]) n := by
  induction bytes
  case nil => exact ⟨_, .last hb⟩
  case cons b' bytes ih =>
    rw [List.forall_mem_cons] at hm
    obtain ⟨n, hn⟩ := ih hm.right
    exact ⟨_, .more hm.left hn⟩

-- Some bytes begin with a number, end in the middle of one or begin with too many groups.
theorem trichotomy (k : Nat) (bytes : List UInt8) :
    (∃ xs n rest, bytes = xs ++ rest ∧ Number xs n ∧ xs.length ≤ k) ∨
    (bytes.length < k ∧ ∀ b ∈ bytes, 128 ≤ b.toNat) ∨
    ∃ xs rest, bytes = xs ++ rest ∧ xs.length = k ∧ ∀ b ∈ xs, 128 ≤ b.toNat := by
  induction k generalizing bytes
  case zero => exact .inr (.inr ⟨[], bytes, rfl, rfl, nofun⟩)
  case succ k ih =>
    cases bytes
    case nil => exact .inr (.inl ⟨Nat.zero_lt_succ k, nofun⟩)
    case cons b bytes =>
      by_cases hb : b.toNat < 128
      case pos => exact .inl ⟨[b], _, bytes, rfl, .last hb, Nat.le_add_left 1 k⟩
      case neg =>
        have hb := Nat.le_of_not_lt hb
        rcases ih bytes with ⟨xs, n, rest, rfl, hn, hl⟩ | ⟨hl, hm⟩ | ⟨xs, rest, rfl, hl, hm⟩
        case inl => exact .inl ⟨b :: xs, _, rest, rfl, .more hb hn, Nat.succ_le_succ hl⟩
        case inr.inl => exact .inr (.inl ⟨Nat.succ_lt_succ hl, List.forall_mem_cons.mpr ⟨hb, hm⟩⟩)
        case inr.inr =>
          exact .inr (.inr ⟨b :: xs, rest, rfl, congrArg Nat.succ hl, List.forall_mem_cons.mpr ⟨hb, hm⟩⟩)

-- Where a number ends can be seen from its bytes.
theorem unique (h : Number xs m) (h' : Number ys n) (he : xs ++ s = ys ++ t) :
    xs = ys ∧ m = n ∧ s = t := by
  induction h generalizing ys n
  case last hb =>
    cases h' <;> simp at he
    case last => simp [he]
    case more hb' _ =>
      rw [he.left] at hb
      omega
  case more hb _ ih =>
    cases h' <;> simp at he
    case last hb' =>
      rw [he.left] at hb
      omega
    case more hn' =>
      have ⟨hx, hm, hs⟩ := ih hn' he.right
      simp [he.left, hx, hm, hs]

end Number

end Base128

-- The machine operations that encoders use, as arithmetic.

theorem UInt32.toNat_and_127 (v : UInt32) : (v &&& 0x7F).toNat = v.toNat % 128 := by
  have h := Nat.and_two_pow_sub_one_eq_mod v.toNat 7
  simpa using h

theorem UInt32.toNat_shiftRight_7 (v : UInt32) : (v >>> 7).toNat = v.toNat / 128 := by
  simp [UInt32.toNat_shiftRight, Nat.shiftRight_eq_div_pow]

-- A statement about all bytes is a check of 256 cases.
theorem UInt8.forall_of_lt {p : UInt8 → Prop} (h : ∀ n < 256, p (.ofNat n)) (b : UInt8) : p b := by
  have := h b.toNat b.toNat_lt
  simpa using this

theorem UInt8.and_128_eq_zero_iff (b : UInt8) : b &&& 0x80 = 0 ↔ b.toNat < 128 := by
  revert b
  refine UInt8.forall_of_lt ?_
  decide +kernel

theorem UInt8.not_gt_one_iff (v : UInt8) : ¬v > 1 ↔ v = 0 ∨ v = 1 := by
  revert v
  refine UInt8.forall_of_lt ?_
  decide +kernel

theorem UInt8.or_128_of_lt {n : Nat} (h : n < 128) :
    UInt8.ofNat n ||| 0x80 = UInt8.ofNat (n + 128) := by
  revert n
  decide +kernel
