import MqttWasi.Library.Base128
import MqttWasi.Codec.Properties

-- What the bytes of a property section stand for, without saying how they are read.

namespace MqttWasi

open Base128 (Number)

-- A variable integer of at most four bytes.
def VariableInt (bytes : Bytes) (v : UInt32) : Prop :=
  bytes.length ≤ 4 ∧ Number bytes v.toNat

-- Both have their length in front of them. A string does not contain the character zero.

def Utf8String (bytes : Bytes) (s : String) : Prop :=
  (utf8 s).length ≤ 65535 ∧ 0 ∉ utf8 s ∧
    bytes = u16ToBeBytes (.ofNat (utf8 s).length) ++ utf8 s

def BinaryData (bytes data : Bytes) : Prop :=
  data.length ≤ 65535 ∧ bytes = u16ToBeBytes (.ofNat data.length) ++ data

inductive WireType
  | byte
  | twoByteInteger
  | fourByteInteger
  | variableByteInteger
  | utf8String
  | binaryData
  | utf8StringPair
  deriving DecidableEq

-- The types of the properties of MQTT v5.
def wireType (id : UInt8) : Option WireType :=
  match id with
  | 0x01 | 0x17 | 0x19 | 0x24 | 0x25 | 0x28 | 0x29 | 0x2A => some .byte
  | 0x13 | 0x21 | 0x22 | 0x23                             => some .twoByteInteger
  | 0x02 | 0x11 | 0x18 | 0x27                             => some .fourByteInteger
  | 0x0B                                                  => some .variableByteInteger
  | 0x03 | 0x08 | 0x12 | 0x15 | 0x1A | 0x1C | 0x1F        => some .utf8String
  | 0x09 | 0x16                                           => some .binaryData
  | 0x26                                                  => some .utf8StringPair
  | _                                                     => none

inductive WireValue
  | typed (value : PropertyValue)
  | variableInt (value : UInt32)
  deriving DecidableEq

namespace WireValue

-- The bytes of a value of some type.
inductive Written : WireType → Bytes → WireValue → Prop
  | byte (v) : Written .byte [v] (typed (.byte v))
  | u16 (v) : Written .twoByteInteger (u16ToBeBytes v) (typed (.u16 v))
  | u32 (v) : Written .fourByteInteger (u32ToBeBytes v) (typed (.u32 v))
  | variableInt : (VariableInt bytes v) → Written .variableByteInteger bytes (variableInt v)
  | str : (Utf8String bytes s) → Written .utf8String bytes (typed (.str s))
  | binary : (BinaryData bytes data) → Written .binaryData bytes (typed (.binary data))
  | stringPair : (Utf8String bytes k) → (Utf8String bytes' v) →
    Written .utf8StringPair (bytes ++ bytes') (typed (.stringPair k v))

-- The values that a property may have.
def Legal (id : UInt8) : WireValue → Prop
  | typed (.byte v)  => id ∈ [0x01, 0x24, 0x25, 0x28, 0x29, 0x2A] → v = 0 ∨ v = 1
  | typed (.u16 v)   => id = 0x21 → v ≠ 0
  | typed (.u32 v)   => id = 0x27 → v ≠ 0
  | typed (.str s)   =>
    (id = 0x08 → s ≠ "" ∧ ∀ c ∈ s.toList, c ≠ '#' ∧ c ≠ '+') ∧ (id = 0x12 → s ≠ "")
  | variableInt v    => id = 0x0B → v ≠ 0
  | typed (.binary _) | typed (.stringPair _ _) => True

end WireValue

structure WireEntry where
  id : UInt8
  value : WireValue

namespace WireEntry

structure Written (context : Option PropertyContext) (bytes : Bytes) (entry : WireEntry) : Prop where
  layout : ∃ idBytes valueBytes t, bytes = idBytes ++ valueBytes ∧
    VariableInt idBytes entry.id.toUInt32 ∧ wireType entry.id = some t ∧
    entry.value.Written t valueBytes
  known : entry.id ≠ 0x23
  allowed : ∀ c, context = some c → c.allows entry.id
  legal : entry.value.Legal entry.id

-- The entry that a decoder keeps.
def typed? (entry : WireEntry) : Option (PropertyId × PropertyValue) :=
  match PropertyId.fromU8 entry.id, entry.value with
  | some id, .typed value => some (id, value)
  | _, _                  => none

end WireEntry

-- One element after another.
inductive Sequence (R : Bytes → α → Prop) : Bytes → List α → Prop
  | nil : Sequence R [] []
  | cons : (R bytes a) → (Sequence R bytes' as) → Sequence R (bytes ++ bytes') (a :: as)

abbrev Entries (context : Option PropertyContext) : Bytes → List WireEntry → Prop :=
  Sequence (WireEntry.Written context)

def Repeatable (context : Option PropertyContext) (id : UInt8) : Prop :=
  id = 0x26 ∨ (id = 0x0B ∧ (context = none ∨ context = some .publish))

structure PropertySection (context : Option PropertyContext) (bytes : Bytes)
    (entries : List WireEntry) : Prop where
  split : Entries context bytes entries
  unrepeated : entries.Pairwise fun a b => a.id = b.id → Repeatable context a.id

end MqttWasi
