import MqttWasi.Connect.Address
import MqttWasi.Codec.Theorems.Topics

-- The addresses of TLS brokers.

namespace MqttWasi

-- A decimal number below 2 ^ 16, perhaps with a sign in front of it
def Port (s : List Char) : Prop :=
  ∃ digits, digits ≠ [] ∧ (s = digits ∨ s = '+' :: digits) ∧ (∀ c ∈ digits, c.isDigit) ∧
    Nat.ofDigits 10 (digits.map digitValue).reverse < 65536

-- The host of an address in brackets ends at the first that closes; any other host is without colons.
inductive Address (host : List Char) : List Char → Prop
  | bracketed : (']' ∉ host) → Port port → Address host ('[' :: host ++ ']' :: ':' :: port)
  | plain : (':' ∉ host) → ¬['['] <+: host → Port port → Address host (host ++ ':' :: port)

theorem rsplitOnce_eq_some :
    rsplitOnce sep s = some (before, after) ↔ s = before ++ sep :: after ∧ sep ∉ after := by
  simp only [rsplitOnce, Option.map_eq_some_iff, Prod.exists, Prod.mk.injEq, splitOnce_eq_some]
  constructor
  case mp =>
    rintro ⟨after', before', ⟨hs, hn⟩, rfl, rfl⟩
    refine ⟨?_, by simpa using hn⟩
    rw [← List.reverse_reverse s, hs]
    simp
  case mpr =>
    rintro ⟨rfl, hn⟩
    exact ⟨after.reverse, before.reverse, ⟨by simp, by simpa using hn⟩, by simp, by simp⟩

theorem le_foldl_digits (n : Nat) (digits : List Nat) : n ≤ digits.foldl (fun n d => d + 10 * n) n := by
  induction digits generalizing n
  case nil => exact le_rfl
  case cons d digits ih =>
    refine Nat.le_trans ?_ (ih (d + 10 * n))
    omega

-- Once the number is too large it stays too large.
theorem parseU16.go_isSome (hn : n < 65536) : (parseU16.go n digits).isSome ↔
    (∀ c ∈ digits, c.isDigit) ∧ (digits.map digitValue).foldl (fun n d => d + 10 * n) n < 65536 := by
  induction digits generalizing n
  case nil => simp [go, hn]
  case cons c digits ih =>
    have he : n * 10 + digitValue c = digitValue c + 10 * n := by omega
    rw [go, he, List.forall_mem_cons, List.map_cons, List.foldl_cons]
    by_cases hc : c.isDigit = true ∧ digitValue c + 10 * n < 65536
    case pos => rw [if_pos hc, ih hc.right, and_assoc, and_iff_right hc.left]
    case neg =>
      rw [if_neg hc]
      refine iff_of_false (by simp) fun ⟨⟨hd, _⟩, hl⟩ => hc ⟨hd, ?_⟩
      exact Nat.lt_of_le_of_lt (le_foldl_digits _ _) hl

theorem foldl_digits (digits : List Nat) :
    digits.foldl (fun n d => d + 10 * n) 0 = Nat.ofDigits 10 digits.reverse := by
  rw [Nat.ofDigits_eq_foldr, List.foldr_reverse]
  rfl

theorem parseU16_isSome : (parseU16 s).isSome ↔ Port s := by
  have hp (digits : List Char) : (if digits.isEmpty then none else (parseU16.go 0 digits).map .ofNat :
      Option UInt16).isSome ↔ digits ≠ [] ∧ (∀ c ∈ digits, c.isDigit) ∧
        Nat.ofDigits 10 (digits.map digitValue).reverse < 65536 := by
    rw [← foldl_digits, ← parseU16.go_isSome (by decide)]
    cases digits <;> simp
  rw [parseU16, hp]
  cases hs : stripPrefix ['+'] s
  case none =>
    have hn := stripPrefix_eq_none.mp hs
    constructor
    case mp => exact fun ⟨hne, hd⟩ => ⟨s, hne, .inl rfl, hd⟩
    case mpr =>
      rintro ⟨digits, hne, rfl | rfl, hd⟩
      case inl => exact ⟨hne, hd⟩
      case inr => exact absurd (List.prefix_append ['+'] digits) hn
  case some digits =>
    obtain rfl := stripPrefix_eq_some.mp hs
    constructor
    case mp => exact fun ⟨hne, hd⟩ => ⟨digits, hne, .inr rfl, hd⟩
    case mpr =>
      rintro ⟨digits', hne, rfl | he, hd⟩
      case inl => exact absurd (hd.left '+' (by simp)) (by decide)
      case inr =>
        obtain rfl : digits = digits' := by simpa using he
        exact ⟨hne, hd⟩

-- A port has no colon in it.
theorem Port.colon (h : Port s) : ':' ∉ s := by
  obtain ⟨digits, _, hs, hd, _⟩ := h
  have hn : ':' ∉ digits := fun hm => absurd (hd ':' hm) (by decide)
  rcases hs with rfl | rfl
  case inl => exact hn
  case inr => simpa using hn

theorem hostFromAddress.split_eq_ok : hostFromAddress.split s = .ok (host, port) ↔
    (s = '[' :: host ++ ']' :: ':' :: port ∧ ']' ∉ host) ∨
      (s = host ++ ':' :: port ∧ ':' ∉ host ∧ ':' ∉ port ∧ ¬['['] <+: s) := by
  rw [split]
  cases hb : stripPrefix ['['] s
  case some bracketed =>
    obtain rfl := stripPrefix_eq_some.mp hb
    dsimp only
    constructor
    case mp =>
      intro h
      split at h
      case h_1 => cases h
      case h_2 host' after hs =>
        obtain ⟨rfl, hn⟩ := splitOnce_eq_some.mp hs
        split at h <;> cases h
        case h_2 hp =>
          obtain rfl := stripPrefix_eq_some.mp hp
          exact .inl ⟨by simp, hn⟩
    case mpr =>
      rintro (⟨he, hn⟩ | ⟨_, _, _, hn⟩)
      case inl =>
        obtain rfl : bracketed = host ++ ']' :: ':' :: port := by simpa using he
        rw [splitOnce_append hn]
        rfl
      case inr => exact absurd (List.prefix_append ['['] bracketed) hn
  case none =>
    have hn := stripPrefix_eq_none.mp hb
    dsimp only
    constructor
    case mp =>
      intro h
      split at h
      case h_1 => cases h
      case h_2 host' port' hs =>
        obtain ⟨rfl, hp⟩ := rsplitOnce_eq_some.mp hs
        split at h <;> cases h
        case isFalse hc => exact .inr ⟨rfl, by simpa using hc, hp, hn⟩
    case mpr =>
      rintro (⟨rfl, _⟩ | ⟨rfl, hh, hp, _⟩)
      case inl => exact absurd (List.prefix_append ['['] _) hn
      case inr =>
        rw [rsplitOnce_eq_some.mpr ⟨rfl, hp⟩]
        simp [hh]

theorem hostFromAddress.split_error (h : hostFromAddress.split s = .error e) : e.kind = .invalidInput := by
  rw [split] at h
  split at h <;> try split at h <;> try split at h
  all_goals cases h
  all_goals rfl

theorem starts_plain : ¬['['] <+: host ++ ':' :: port ↔ ¬['['] <+: host := by
  cases host <;> simp

theorem address_iff : Address host s ↔ ∃ port, hostFromAddress.split s = .ok (host, port) ∧ Port port := by
  simp only [hostFromAddress.split_eq_ok]
  constructor
  case mp =>
    intro h
    cases h
    case bracketed port hn hp => exact ⟨port, .inl ⟨rfl, hn⟩, hp⟩
    case plain port hn hb hp => exact ⟨port, .inr ⟨rfl, hn, hp.colon, starts_plain.mpr hb⟩, hp⟩
  case mpr =>
    rintro ⟨port, ⟨rfl, hn⟩ | ⟨rfl, hn, _, hb⟩, hp⟩
    case inl => exact .bracketed hn hp
    case inr => exact .plain hn (starts_plain.mp hb) hp

-- The addresses with a host and a port are accepted, and the host is the one that they name. All that is
-- wrong with an address is reported as invalid input.
theorem hostFromAddress_grammar (addr host : String) :
    (hostFromAddress addr = .ok host ↔ host ≠ "" ∧ Address host.toList addr.toList) ∧
    ∀ e, hostFromAddress addr = .error e → e.kind = .invalidInput := by
  rw [hostFromAddress, address_iff]
  cases hs : hostFromAddress.split addr.toList
  case error e =>
    refine ⟨by simp, fun e' he => ?_⟩
    cases he
    exact hostFromAddress.split_error hs
  case ok r =>
    obtain ⟨host', port⟩ := r
    have hp : (parseU16 port).isNone = true ↔ ¬Port port := by
      rw [← parseU16_isSome]
      cases parseU16 port <;> simp
    have hr : (host ≠ "" ∧ ∃ port', (Except.ok (host', port) : Except IoError _) = .ok (host.toList, port') ∧
        Port port') ↔ host' ≠ [] ∧ Port port ∧ String.ofList host' = host := by
      constructor
      case mp =>
        rintro ⟨hn, _, he, hp⟩
        cases he
        exact ⟨by simpa using hn, hp, String.ofList_toList⟩
      case mpr =>
        rintro ⟨hn, hp, rfl⟩
        exact ⟨by simpa using hn, port, by simp, hp⟩
    rw [hr, Except.ok_bind]
    dsimp only
    by_cases hn : host' = []
    case pos =>
      subst hn
      exact ⟨by simp, fun e he => by cases he; rfl⟩
    case neg =>
      rw [if_neg (by simpa using hn)]
      by_cases hq : Port port
      case pos =>
        rw [if_neg fun hi => hp.mp hi hq]
        exact ⟨by simp [hn, hq, pure, Except.pure], fun e he => by cases he⟩
      case neg =>
        rw [if_pos (hp.mpr hq)]
        exact ⟨by simp [hq], fun e he => by cases he; rfl⟩

example : hostFromAddress "[2001:db8::1]:8883" = .ok "2001:db8::1" := by decide

end MqttWasi
