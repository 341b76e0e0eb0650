import MqttWasi.Trace.Theorems.Traceparent

namespace MqttWasi

open Trace

theorem Properties.userProperties_push (props : Properties) (k v : String) :
    (props.push .userProperty (.stringPair k v)).userProperties = props.userProperties ++ [(k, v)] := by
  simp [userProperties, push]

namespace TraceContext

@[simp]
theorem scan_traceparent (found : Option String × Option String) :
    scan found (traceparentKey, value) = (some value, found.2) := by
  simp [scan]

@[simp]
theorem scan_tracestate (found : Option String × Option String) :
    scan found (tracestateKey, value) = (found.1, some value) := by
  simp [scan, traceparentKey, tracestateKey]

-- Nothing but an entry under its key brings the scan a trace state.
theorem scan_tracestate_eq_none (entries : List (String × String)) :
    (entries.foldl scan found).2 = none ↔
      found.2 = none ∧ ∀ entry ∈ entries, entry.1 ≠ tracestateKey := by
  induction entries generalizing found
  case nil => simp
  case cons entry entries ih =>
    obtain ⟨key, value⟩ := entry
    rw [List.foldl_cons, ih, List.forall_mem_cons, ← and_assoc]
    apply and_congr_left'
    by_cases hs : key = tracestateKey
    case pos => simp [hs]
    case neg =>
      have hk : traceparentKey ≠ tracestateKey := by decide
      by_cases ht : key = traceparentKey <;> simp [scan, ht, hs, hk]

theorem scan_inject (c : TraceContext) (props : Properties) :
    (c.inject props).userProperties.foldl scan (none, none) =
      (some c.traceparentString,
        c.tracestate.or (props.userProperties.foldl scan (none, none)).2) := by
  cases h : c.tracestate
  case none => simp [inject, h, Properties.userProperties_push]
  case some state => simp [inject, h, Properties.userProperties_push]

-- The trace state that is read is the last one, which a context without its own leaves as it was.
theorem fromProperties_inject {c : TraceContext} (ht : isAllZero c.traceId = false)
    (hp : isAllZero c.spanId = false) (props : Properties) :
    fromProperties (c.inject props) = some { c with
      tracestate := c.tracestate.or (props.userProperties.foldl scan (none, none)).2 } := by
  rw [fromProperties, scan_inject]
  exact parse_traceparentString ht hp

theorem fromProperties_inject_iff (c : TraceContext) (ht : isAllZero c.traceId = false)
    (hp : isAllZero c.spanId = false) (props : Properties) :
    fromProperties (c.inject props) = some c ↔
      (c.tracestate = none → ∀ entry ∈ props.userProperties, entry.1 ≠ tracestateKey) := by
  rw [fromProperties_inject ht hp, Option.some_inj]
  have hs := @scan_tracestate_eq_none (none, none) props.userProperties
  obtain ⟨traceId, spanId, traceFlags, tracestate⟩ := c
  cases tracestate
  case none => simpa using hs
  case some => simp

-- What a new context is made of: bytes of the caller, another context, or a message.
inductive Made : TraceContext → Prop
  | newRoot (traceId spanId) : (newRoot traceId spanId = some c) → Made c
  | child (spanId) : Made c → (c.child spanId = some c') → Made c'
  | fromProperties (props) : (fromProperties props = some c) → Made c

theorem newRoot_eq_some {traceId : List.Vector UInt8 16} {spanId : List.Vector UInt8 8} : newRoot traceId spanId = some c ↔
    isAllZero traceId = false ∧ isAllZero spanId = false ∧
      c = { traceId, spanId, traceFlags := 0x01, tracestate := none } := by
  unfold newRoot
  cases isAllZero traceId <;> cases isAllZero spanId <;> simp [eq_comm]

theorem child_eq_some {c c' : TraceContext} {spanId : List.Vector UInt8 8} : c.child spanId = some c' ↔
    isAllZero spanId = false ∧ c' = { c with spanId } := by
  unfold child
  cases isAllZero spanId <;> simp [eq_comm]

theorem Made.nonzero (h : Made c) : isAllZero c.traceId = false ∧ isAllZero c.spanId = false := by
  induction h
  case newRoot h =>
    obtain ⟨ht, hp, rfl⟩ := newRoot_eq_some.mp h
    exact ⟨ht, hp⟩
  case child h ih =>
    obtain ⟨hp, rfl⟩ := child_eq_some.mp h
    exact ⟨ih.left, hp⟩
  case fromProperties h =>
    obtain ⟨traceparent, -, h⟩ := Option.bind_eq_some_iff.mp h
    have hn := parseTraceparent_eq_some.mp h
    exact ⟨hn.left, hn.right.left⟩

-- However a context was made, the receiver of a message gets it, with the trace state of the message
-- if it has none of its own.
theorem Made.received (h : Made c) (props : Properties) :
    TraceContext.fromProperties (c.inject props) = some { c with
      tracestate := c.tracestate.or (props.userProperties.foldl scan (none, none)).2 } :=
  fromProperties_inject h.nonzero.left h.nonzero.right props

def fresh : TraceContext where
  traceId := ⟨List.replicate 16 0xAA, rfl⟩
  spanId := ⟨List.replicate 8 0xBB, rfl⟩
  traceFlags := 0x01
  tracestate := none

-- The properties of a message that is forwarded, with the context that it came with.
def forwarded : Properties :=
  (({} : Properties).user traceparentKey "00-4bf92f3577b6a27bc4c989d35b8e7e00-e457b5a2e4d86bd1-00").user
    "tenant" "north"

theorem fromProperties_inject_fresh :
    let props := forwarded.user tracestateKey "vendor=1"
    let c := { fresh with tracestate := some "next=2" }
    fromProperties (fresh.inject forwarded) = some fresh ∧ fromProperties (c.inject props) = some c :=
  ⟨(fromProperties_inject_iff fresh (by decide) (by decide) forwarded).mpr (by decide),
    (fromProperties_inject_iff _ (by decide) (by decide) _).mpr nofun⟩

-- A context without a trace state is given the one of the message that is forwarded.
theorem stale_tracestate :
    ¬ ∀ (c : TraceContext) (props : Properties), isAllZero c.traceId = false →
      isAllZero c.spanId = false → fromProperties (c.inject props) = some c := by
  intro h
  have := h fresh (({} : Properties).user tracestateKey "vendor=1") (by decide) (by decide)
  revert this
  decide +kernel

end TraceContext
end MqttWasi
