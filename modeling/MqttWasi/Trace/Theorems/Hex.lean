import Mathlib.Data.List.Basic
import MqttWasi.Library.Utf8
import MqttWasi.Trace.Basic

namespace MqttWasi
namespace Trace

def hexDigits : List Char :=
  ['0', '1', '2', '3', '4', '5', '6', '7', '8', '9', 'a', 'b', 'c', 'd', 'e', 'f',
   'A', 'B', 'C', 'D', 'E', 'F']

-- The two digits of a byte.
def hexPair (b : UInt8) : List Char :=
  [hex.get (highNibble b), hex.get (lowNibble b)]

theorem toList_hexEncode : (hexEncode bytes out).toList = out.toList ++ bytes.flatMap hexPair := by
  induction bytes generalizing out
  case nil => simp [hexEncode]
  case cons b bytes ih =>
    rw [hexEncode, List.foldl_cons, ← hexEncode, ih]
    simp [hexPair]

-- The next lemmas look at all digits, at all nibbles, or at all bytes.

theorem hexDigits_utf8Size : ∀ c ∈ hexDigits, c.utf8Size = 1 :=
  List.forall_iff_forall_mem.mp (by decide)

theorem hexDigits_hexNibble : ∀ c ∈ hexDigits, ∃ i : Fin 16,
    hexNibble c.toUInt8 = some (.ofNat i) ∧ hex.get i = c.toLower :=
  List.forall_iff_forall_mem.mp (by decide)

theorem hexDigits_toLower : ∀ c ∈ hexDigits, c.toLower = '0' → c = '0' :=
  List.forall_iff_forall_mem.mp (by decide)

theorem hex_get_hexNibble : ∀ i : Fin 16, hex.get i ∈ hexDigits ∧
    hexNibble (hex.get i).toUInt8 = some (.ofNat i) := by
  decide

theorem toLower_hex_get : ∀ i : Fin 16, (hex.get i).toLower = hex.get i := by
  decide

theorem hex_get_zero : ∀ i : Fin 16, hex.get i = '0' → i = 0 := by
  decide

theorem hexNibble_digit (h : (hexNibble b).isSome) : b < 128 ∧ Char.ofNat b.toNat ∈ hexDigits := by
  have h' : ∀ i : Fin 256, (hexNibble (.ofFin i)).isSome →
      UInt8.ofFin i < 128 ∧ Char.ofNat i ∈ hexDigits := by decide +kernel
  exact h' b.toFin h

theorem nibbles_or : ∀ i j : Fin 16,
    highNibble (UInt8.ofNat i <<< 4 ||| UInt8.ofNat j) = i ∧
    lowNibble (UInt8.ofNat i <<< 4 ||| UInt8.ofNat j) = j := by
  decide +kernel

theorem or_nibbles (b : UInt8) :
    UInt8.ofNat (highNibble b) <<< 4 ||| UInt8.ofNat (lowNibble b) = b := by
  change UInt8.ofNat (b >>> 4).toNat <<< 4 ||| UInt8.ofNat (b &&& 0x0F).toNat = b
  rw [UInt8.ofNat_toNat, UInt8.ofNat_toNat, ← UInt8.toBitVec_inj]
  ext i hi
  interval_cases i <;> simp

theorem hexPair_zero (b : UInt8) : hexPair b = ['0', '0'] ↔ b = 0 := by
  refine ⟨fun h => ?_, fun h => h ▸ rfl⟩
  obtain ⟨hh, hl⟩ : hex.get (highNibble b) = '0' ∧ hex.get (lowNibble b) = '0' := by simpa [hexPair] using h
  have hb := or_nibbles b
  rw [hex_get_zero _ hh, hex_get_zero _ hl] at hb
  exact hb.symm

namespace hexDecodeFixed

variable {n : Nat} {cs : List Char}

theorem go_digits (hl : cs.length = n * 2) (h : ∀ c ∈ cs, c ∈ hexDigits) :
    ∃ v, go n (cs.map Char.toUInt8) = some v ∧ cs.map Char.toLower = v.toList.flatMap hexPair := by
  induction n generalizing cs
  case zero =>
    obtain rfl : cs = [] := List.eq_nil_of_length_eq_zero (by simpa using hl)
    exact ⟨.nil, rfl, rfl⟩
  case succ n ih =>
    obtain ⟨c, d, cs, rfl⟩ : ∃ c d cs', cs = c :: d :: cs' := by
      cases cs
      case nil => simp at hl
      case cons c cs =>
        cases cs
        case nil => simp at hl; omega
        case cons d cs => exact ⟨c, d, cs, rfl⟩
    obtain ⟨i, hi, hc⟩ := hexDigits_hexNibble c (h c (by simp))
    obtain ⟨j, hj, hd⟩ := hexDigits_hexNibble d (h d (by simp))
    obtain ⟨v, hv, hp⟩ := @ih cs (by simp at hl; omega) (fun c hc => h c (by simp [hc]))
    have hn := nibbles_or i j
    exact ⟨(UInt8.ofNat i <<< 4 ||| UInt8.ofNat j) ::ᵥ v, by simp [go, hi, hj, hv], by simp [hexPair, hn, hc, hd, hp]⟩

theorem go_isSome (h : go n bytes = some v) (hl : bytes.length = n * 2) :
    ∀ b ∈ bytes, (hexNibble b).isSome := by
  induction n, bytes using go.induct
  case case1 => simp_all
  case case2 n hi lo bytes ih =>
    obtain ⟨i, hi, j, hj, v', hv, -⟩ : ∃ i, hexNibble hi = some i ∧ ∃ j, hexNibble lo = some j ∧
        ∃ v', go n bytes = some v' ∧ (i <<< 4 ||| j) ::ᵥ v' = v := by
      simpa [go, Option.bind_eq_some_iff] using h
    simp only [List.forall_mem_cons]
    exact ⟨by simp [hi], by simp [hj], ih hv (by simp at hl; omega)⟩
  case case3 => simp [go] at h

theorem go_hexPairs (v : List.Vector UInt8 n) :
    go n ((v.toList.flatMap hexPair).map Char.toUInt8) = some v := by
  induction v using List.Vector.inductionOn
  case nil => rfl
  case cons n b v ih =>
    have hh := (hex_get_hexNibble (highNibble b)).2
    have hl := (hex_get_hexNibble (lowNibble b)).2
    have hb := or_nibbles b
    simp [hexPair, go, hh, hl, ih, hb]

end hexDecodeFixed

-- The text spells the bytes in hex, with digits of either case.
structure Spells (cs : List Char) (bytes : List.Vector UInt8 n) : Prop where
  digits : ∀ c ∈ cs, c ∈ hexDigits
  pairs : cs.map Char.toLower = bytes.toList.flatMap hexPair

namespace Spells

theorem length (h : Spells (n := n) cs bytes) : cs.length = n * 2 := by
  rw [← List.length_map Char.toLower, h.pairs, List.length_flatMap]
  simp [hexPair]

theorem hexPairs (bytes : List.Vector UInt8 n) : Spells (bytes.toList.flatMap hexPair) bytes where
  digits := by
    simp only [List.mem_flatMap, hexPair]
    rintro c ⟨b, -, hc⟩
    simp at hc
    obtain rfl | rfl := hc
    all_goals exact (hex_get_hexNibble _).1
  pairs := by
    rw [List.map_flatMap]
    exact List.flatMap_congr fun b _ => by simp [hexPair, toLower_hex_get]

theorem go (h : Spells (n := n) cs bytes) : hexDecodeFixed.go n (cs.map Char.toUInt8) = some bytes := by
  obtain ⟨v, hg, hp⟩ := hexDecodeFixed.go_digits h.length h.digits
  have hv := hexDecodeFixed.go_hexPairs v
  rw [← hp, h.pairs, hexDecodeFixed.go_hexPairs] at hv
  rw [hg, hv]

-- No other byte is spelled with zeros only.
theorem isAllZero (h : Spells (n := n) cs bytes) : isAllZero bytes ↔ ∀ c ∈ cs, c = '0' := by
  have hl : (∀ c ∈ cs, c = '0') ↔ ∀ c ∈ cs.map Char.toLower, c = '0' := by
    rw [List.forall_mem_map]
    refine ⟨fun hz c hc => by simp [hz c hc], fun hz c hc => ?_⟩
    exact hexDigits_toLower c (h.digits c hc) (hz c hc)
  have hb : ∀ b, (∀ c ∈ hexPair b, c = '0') ↔ b = 0 := by
    intro b
    rw [← hexPair_zero]
    simp [hexPair]
  rw [hl, h.pairs, Trace.isAllZero, List.forall_mem_flatMap]
  simp [hb]

end Spells

-- The bytes of anything but a digit are turned down, also when it is longer than one byte.
theorem hexDecodeFixed_eq_some : hexDecodeFixed n s = some bytes ↔ Spells s.toList bytes := by
  constructor
  case mp =>
    intro h
    rw [hexDecodeFixed] at h
    split at h
    case isTrue => contradiction
    case isFalse hl =>
      have hs := hexDecodeFixed.go_isSome h (not_not.mp hl)
      have ha := Utf8.utf8Size_of_bytes (s := s) fun b hb => (hexNibble_digit (hs b hb)).1
      have hb : utf8 s = s.toList.map Char.toUInt8 := Utf8.bytes_eq_map ha
      have hd : ∀ c ∈ s.toList, c ∈ hexDigits := by
        intro c hc
        have hc' := (hexNibble_digit (hs c.toUInt8 (by rw [hb]; exact List.mem_map_of_mem hc))).2
        rwa [Utf8.toNat_toUInt8 (ha c hc), Char.ofNat_toNat] at hc'
      rw [hb] at h hl
      obtain ⟨v, hg, hp⟩ := hexDecodeFixed.go_digits (by simpa using hl) hd
      obtain rfl : v = bytes := by simpa [hg] using h
      exact ⟨hd, hp⟩
  case mpr =>
    intro h
    have hb : utf8 s = s.toList.map Char.toUInt8 :=
      Utf8.bytes_eq_map fun c hc => hexDigits_utf8Size c (h.digits c hc)
    rw [hexDecodeFixed, if_neg (by simp [hb, ← h.length]), hb, h.go]

theorem hexDecodeFixed_ofList (h : Spells (n := n) cs bytes) :
    hexDecodeFixed n (.ofList cs) = some bytes :=
  hexDecodeFixed_eq_some.mpr (by simpa using h)

theorem exists_spells (cs : List Char) :
    (∃ bytes : List.Vector UInt8 n, Spells cs bytes) ↔ cs.length = n * 2 ∧ ∀ c ∈ cs, c ∈ hexDigits := by
  constructor
  case mp =>
    intro ⟨bytes, h⟩
    exact ⟨h.length, h.digits⟩
  case mpr =>
    intro ⟨hl, hd⟩
    obtain ⟨v, -, hp⟩ := hexDecodeFixed.go_digits hl hd
    exact ⟨v, hd, hp⟩

end Trace
end MqttWasi
