import MqttWasi.Library.Action
import MqttWasi.Codec.Topic

namespace MqttWasi

-- `std::io::ErrorKind::InvalidInput`
def ErrorKind.invalidInput : ErrorKind :=
  .other 0

-- `str::rsplit_once`
def rsplitOnce (sep : Char) (s : List Char) : Option (List Char × List Char) :=
  (splitOnce sep s.reverse).map fun (after, before) => (before.reverse, after.reverse)

def digitValue (c : Char) : Nat :=
  c.toNat - '0'.toNat

-- `u16::from_str`
def parseU16 (s : List Char) : Option UInt16 :=
  let digits := (stripPrefix ['+'] s).getD s
  if digits.isEmpty then none else (go 0 digits).map .ofNat
where
  go : Nat → List Char → Option Nat
    | n, [] => some n
    | n, c :: rest =>
      if c.isDigit ∧ n * 10 + digitValue c < 65536 then go (n * 10 + digitValue c) rest else none

def invalidAddress (message : String) : IoError where
  kind := .invalidInput
  message := message

def hostFromAddress (addr : String) : Except IoError String := do
  let (host, port) ← split addr.toList
  if host.isEmpty then
    .error (invalidAddress "host must not be empty")
  else if (parseU16 port).isNone then
    .error (invalidAddress "port must be an unsigned 16-bit integer")
  else
    return .ofList host
where
  split (addr : List Char) : Except IoError (List Char × List Char) :=
    match stripPrefix ['['] addr with
    | some bracketed =>
      match splitOnce ']' bracketed with
      | none               => .error (invalidAddress "missing closing ']'")
      | some (host, after) =>
        match stripPrefix [':'] after with
        | none      => .error (invalidAddress "missing port after bracketed host")
        | some port => .ok (host, port)
    | none =>
      match rsplitOnce ':' addr with
      | none              => .error (invalidAddress "address must be host:port")
      | some (host, port) =>
        if host.contains ':' then
          .error (invalidAddress "IPv6 addresses must be enclosed in brackets")
        else
          .ok (host, port)

end MqttWasi
