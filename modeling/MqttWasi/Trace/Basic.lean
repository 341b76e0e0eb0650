import Mathlib.Data.Vector.Basic
import MqttWasi.Codec.Decode
import MqttWasi.Codec.Properties

namespace MqttWasi
namespace Trace

def traceparentKey : String := "traceparent"

def tracestateKey : String := "tracestate"

-- Version 00 of the W3C format, the only one that is read or written.
def version : String := "00"

-- `is_all_zero`
def isAllZero (bytes : List.Vector UInt8 n) : Bool :=
  bytes.toList.all (· == 0)

def hex : List.Vector Char 16 :=
  ⟨['0', '1', '2', '3', '4', '5', '6', '7', '8', '9', 'a', 'b', 'c', 'd', 'e', 'f'], rfl⟩

def highNibble (b : UInt8) : Fin 16 :=
  ⟨(b >>> 4).toNat, by simp [Nat.shiftRight_eq_div_pow]; have := b.toNat_lt; omega⟩

def lowNibble (b : UInt8) : Fin 16 :=
  ⟨(b &&& 0x0F).toNat, by simpa using Nat.and_lt_two_pow (n := 4) _ (by decide)⟩

def hexEncode (bytes : Bytes) (out : String) : String :=
  bytes.foldl (fun out b => (out.push (hex.get (highNibble b))).push (hex.get (lowNibble b))) out

def hexNibble (c : UInt8) : Option UInt8 :=
  if 0x30 ≤ c ∧ c ≤ 0x39 then some (c - 0x30)
  else if 0x61 ≤ c ∧ c ≤ 0x66 then some (c - 0x61 + 10)
  else if 0x41 ≤ c ∧ c ≤ 0x46 then some (c - 0x41 + 10)
  else none

def hexDecodeFixed (n : Nat) (s : String) : Option (List.Vector UInt8 n) :=
  if (utf8 s).length ≠ n * 2 then none else go n (utf8 s)
where
  -- The pairs of bytes are taken from the front instead of by index.
  go : (n : Nat) → Bytes → Option (List.Vector UInt8 n)
    | 0, _ => some .nil
    | n + 1, hi :: lo :: bytes => do
      let hi ← hexNibble hi
      let lo ← hexNibble lo
      let arr ← go n bytes
      return (hi <<< 4 ||| lo) ::ᵥ arr
    | _ + 1, _ => none

end Trace

open Trace

structure TraceContext where
  traceId : List.Vector UInt8 16
  spanId : List.Vector UInt8 8
  traceFlags : UInt8
  tracestate : Option String
  deriving DecidableEq

namespace TraceContext

def newRoot (traceId : List.Vector UInt8 16) (spanId : List.Vector UInt8 8) : Option TraceContext :=
  if isAllZero traceId || isAllZero spanId then
    none
  else
    some { traceId, spanId, traceFlags := 0x01, tracestate := none }

def child (c : TraceContext) (spanId : List.Vector UInt8 8) : Option TraceContext :=
  if isAllZero spanId then none else some { c with spanId }

def traceparentString (c : TraceContext) : String :=
  let s := version.push '-'
  let s := (hexEncode c.traceId.toList s).push '-'
  let s := (hexEncode c.spanId.toList s).push '-'
  hexEncode [c.traceFlags] s

def parseTraceparent (s : String) (tracestate : Option String) : Option TraceContext := do
  match (s.toList.splitOn '-').map String.ofList with
  | [part₀, part₁, part₂, part₃] =>
    if part₀ ≠ version then
      none
    else
      let traceId ← hexDecodeFixed 16 part₁
      let spanId ← hexDecodeFixed 8 part₂
      let flagsBytes ← hexDecodeFixed 1 part₃
      if isAllZero traceId || isAllZero spanId then
        none
      else
        return { traceId, spanId, traceFlags := flagsBytes.head, tracestate }
  | _ => none

end TraceContext

def Properties.userProperties (props : Properties) : List (String × String) :=
  props.entries.filterMap fun
    | (.userProperty, .stringPair k v) => some (k, v)
    | _ => none

namespace TraceContext

-- The values found so far under the two keys, after one more entry.
def scan (found : Option String × Option String) : String × String → Option String × Option String
  | (key, value) =>
    if key = traceparentKey then (some value, found.2)
    else if key = tracestateKey then (found.1, some value)
    else found

def fromProperties (props : Properties) : Option TraceContext := do
  let (traceparent, tracestate) := props.userProperties.foldl scan (none, none)
  parseTraceparent (← traceparent) tracestate

def inject (c : TraceContext) (props : Properties) : Properties :=
  let props := props.push .userProperty (.stringPair traceparentKey c.traceparentString)
  match c.tracestate with
  | some state => props.push .userProperty (.stringPair tracestateKey state)
  | none => props

end TraceContext
end MqttWasi
