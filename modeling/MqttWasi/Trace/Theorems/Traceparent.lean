import MqttWasi.Trace.Theorems.Hex

namespace MqttWasi
namespace Trace

-- The four parts of a header, with dashes between them.
def header (v t p f : List Char) : List Char :=
  v ++ '-' :: t ++ '-' :: p ++ '-' :: f

structure HexGroup (n : Nat) (cs : List Char) : Prop where
  length : cs.length = n
  digits : ∀ c ∈ cs, c ∈ hexDigits

-- The strings of the format, with trace id `t`, span id `p` and flags `f`.
structure Traceparent (s : String) (t p f : List Char) : Prop where
  eq : s.toList = header ['0', '0'] t p f
  traceId : HexGroup 32 t
  spanId : HexGroup 16 p
  flags : HexGroup 2 f
  traceIdNonzero : ∃ c ∈ t, c ≠ '0'
  spanIdNonzero : ∃ c ∈ p, c ≠ '0'

-- The context that a header with these parts is about.
structure Describes (t p f : List Char) (c : TraceContext) : Prop where
  traceId : Spells t c.traceId
  spanId : Spells p c.spanId
  flags : Spells f (c.traceFlags ::ᵥ .nil)

theorem splitOn_header (hv : '-' ∉ v) (ht : '-' ∉ t) (hp : '-' ∉ p) (hf : '-' ∉ f) :
    (header v t p f).splitOn '-' = [v, t, p, f] := by
  have he : header v t p f = ['-'].intercalate [v, t, p, f] := by
    simp [header, List.intercalate]
  rw [he, List.splitOn_intercalate]
  case hx => simp [hv, ht, hp, hf]
  case hls => simp

theorem eq_header_of_splitOn (h : cs.splitOn '-' = [v, t, p, f]) : cs = header v t p f := by
  have he : ['-'].intercalate (cs.splitOn '-') = cs := List.intercalate_splitOn '-'
  rw [← he, h]
  simp [header, List.intercalate]

theorem head_cons_nil (v : List.Vector α 1) : v.head ::ᵥ .nil = v := by
  rw [← List.Vector.eq_nil v.tail, List.Vector.cons_head_tail]

theorem Spells.hexGroup (h : Spells (n := n) cs bytes) : HexGroup (n * 2) cs :=
  ⟨h.length, h.digits⟩

theorem Spells.nonzero (h : Spells (n := n) cs bytes) :
    Trace.isAllZero bytes = false ↔ ∃ c ∈ cs, c ≠ '0' := by
  rw [← Bool.not_eq_true, h.isAllZero]
  simp

theorem Spells.dash_not_mem (h : Spells (n := n) cs bytes) : '-' ∉ cs :=
  fun hm => absurd (h.digits _ hm) (by decide)

theorem toList_traceparentString (c : TraceContext) :
    c.traceparentString.toList = header ['0', '0'] (c.traceId.toList.flatMap hexPair)
      (c.spanId.toList.flatMap hexPair) (hexPair c.traceFlags) := by
  simp [TraceContext.traceparentString, toList_hexEncode, header, Trace.version]

-- A header is read as the context it describes, unless an identifier is zero.
theorem parseTraceparent_eq_some :
    TraceContext.parseTraceparent s tracestate = some c ↔
      isAllZero c.traceId = false ∧ isAllZero c.spanId = false ∧ c.tracestate = tracestate ∧
      ∃ t p f, s.toList = header ['0', '0'] t p f ∧ Describes t p f c := by
  constructor
  case mp =>
    intro h
    rw [TraceContext.parseTraceparent] at h
    split at h
    case h_2 => contradiction
    case h_1 v t p f hs =>
      split at h
      case isTrue => contradiction
      case isFalse hv =>
        simp only [Option.bind_eq_bind, Option.bind_eq_some_iff, Option.ite_none_left_eq_some] at h
        obtain ⟨traceId, ht, spanId, hp, flags, hf, hz, h⟩ := h
        have hs' : s.toList.splitOn '-' = [v.toList, t.toList, p.toList, f.toList] := by
          simpa [Function.comp_def] using congrArg (List.map String.toList) hs
        obtain rfl := Option.some_inj.mp h
        obtain rfl := not_not.mp hv
        obtain ⟨ht', hp'⟩ : isAllZero traceId = false ∧ isAllZero spanId = false := by
          simpa using hz
        refine ⟨ht', hp', rfl, t.toList, p.toList, f.toList, eq_header_of_splitOn hs', ?_⟩
        exact ⟨hexDecodeFixed_eq_some.mp ht, hexDecodeFixed_eq_some.mp hp,
          by simpa [head_cons_nil] using hexDecodeFixed_eq_some.mp hf⟩
  case mpr =>
    intro ⟨ht, hp, hc, t, p, f, hs, hd⟩
    rw [TraceContext.parseTraceparent, hs, splitOn_header (by decide) hd.traceId.dash_not_mem
      hd.spanId.dash_not_mem hd.flags.dash_not_mem]
    have hv : String.ofList ['0', '0'] = version := rfl
    simp [hv, hexDecodeFixed_ofList hd.traceId, hexDecodeFixed_ofList hd.spanId,
      hexDecodeFixed_ofList hd.flags, ht, hp, ← hc]

theorem Describes.header_toLower (h : Describes t p f c) :
    (header ['0', '0'] t p f).map Char.toLower = c.traceparentString.toList := by
  rw [toList_traceparentString, header, header]
  simp [h.traceId.pairs, h.spanId.pairs, h.flags.pairs, Char.toLower]

theorem describes_traceparentString (c : TraceContext) :
    Describes (c.traceId.toList.flatMap hexPair) (c.spanId.toList.flatMap hexPair)
      (hexPair c.traceFlags) c where
  traceId := .hexPairs _
  spanId := .hexPairs _
  flags := by simpa using Spells.hexPairs (c.traceFlags ::ᵥ .nil)

-- A context with non-zero identifiers is read back from what it prints.
theorem parse_traceparentString {c : TraceContext} (ht : isAllZero c.traceId = false)
    (hp : isAllZero c.spanId = false) :
    TraceContext.parseTraceparent c.traceparentString tracestate = some { c with tracestate } :=
  parseTraceparent_eq_some.mpr
    ⟨ht, hp, rfl, _, _, _, toList_traceparentString c, describes_traceparentString { c with tracestate }⟩

theorem exists_describes_iff (s : String) :
    (∃ c, TraceContext.parseTraceparent s tracestate = some c) ↔ ∃ t p f, Traceparent s t p f := by
  simp only [parseTraceparent_eq_some]
  constructor
  case mp =>
    intro ⟨c, ht, hp, _, t, p, f, hs, hd⟩
    exact ⟨t, p, f, hs, hd.traceId.hexGroup, hd.spanId.hexGroup, hd.flags.hexGroup,
      hd.traceId.nonzero.mp ht, hd.spanId.nonzero.mp hp⟩
  case mpr =>
    intro ⟨t, p, f, h⟩
    obtain ⟨traceId, ht⟩ := (exists_spells (n := 16) t).mpr ⟨h.traceId.length, h.traceId.digits⟩
    obtain ⟨spanId, hp⟩ := (exists_spells (n := 8) p).mpr ⟨h.spanId.length, h.spanId.digits⟩
    obtain ⟨flags, hf⟩ := (exists_spells (n := 1) f).mpr ⟨h.flags.length, h.flags.digits⟩
    exact ⟨{ traceId, spanId, traceFlags := flags.head, tracestate }, ht.nonzero.mpr h.traceIdNonzero,
      hp.nonzero.mpr h.spanIdNonzero, rfl, t, p, f, h.eq, ht, hp, by rwa [head_cons_nil]⟩

theorem parseTraceparent_grammar (s : String) (tracestate : Option String) :
    ((TraceContext.parseTraceparent s tracestate).isSome ↔ ∃ t p f, Traceparent s t p f) ∧
    (∀ c, TraceContext.parseTraceparent s tracestate = some c → c.traceparentString = s.toLower) ∧
    (∀ c : TraceContext, isAllZero c.traceId = false → isAllZero c.spanId = false →
      TraceContext.parseTraceparent c.traceparentString tracestate = some { c with tracestate }) := by
  refine ⟨by rw [Option.isSome_iff_exists, exists_describes_iff], ?_, fun c => parse_traceparentString⟩
  intro c h
  obtain ⟨-, -, -, t, p, f, hs, hd⟩ := parseTraceparent_eq_some.mp h
  rw [← String.toList_inj, ← hd.header_toLower, ← hs]
  simp [String.toLower]

theorem parseTraceparent_grammar_example :
    (∃ t p f, Traceparent "00-4BF92f3577b6a27bc4c989d35b8e7e00-e457b5a2e4d86bd1-01" t p f) ∧
    ∀ c, TraceContext.parseTraceparent "00-4BF92f3577b6a27bc4c989d35b8e7e00-e457b5a2e4d86bd1-01" none
        = some c →
      c.traceparentString = "00-4bf92f3577b6a27bc4c989d35b8e7e00-e457b5a2e4d86bd1-01" :=
  ⟨(parseTraceparent_grammar _ none).1.mp (by decide +kernel), fun c h =>
    ((parseTraceparent_grammar _ none).2.1 c h).trans (by decide +kernel)⟩

end Trace
end MqttWasi
