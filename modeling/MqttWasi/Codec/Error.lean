import Mathlib

namespace MqttWasi

-- The kinds of `std::io::Error` that the clients tell apart.
inductive ErrorKind
  | interrupted
  | wouldBlock
  | timedOut
  | writeZero
  | invalidData
  | other (code : Nat)
  deriving DecidableEq, Repr

structure IoError where
  kind : ErrorKind
  message : String := ""
  deriving DecidableEq, Repr

inductive Error
  | invalidOptions (message : String)
  | malformedPacket (message : String)
  | invalidPacketType (value : UInt8)
  | invalidQoS (value : UInt8)
  | invalidReasonCode (code : UInt8)
  | connectionRefused (code : UInt8)
  | serverDisconnected (code : UInt8)
  | packetTooLarge (size max : Nat)
  | stringTooLong (length : Nat)
  | binaryTooLong (length : Nat)
  | timeout (operation : String)
  | keepAliveTimeout
  | unexpectedPacket (message : String)
  | ackRejected (packet : String) (reasonCode : UInt8)
  | queueFull (queue : String)
  | clientClosed
  | serialize (message : String)
  | deserialize (message : String)
  | connectionClosed
  | io (error : IoError)
  deriving DecidableEq, Repr

end MqttWasi
