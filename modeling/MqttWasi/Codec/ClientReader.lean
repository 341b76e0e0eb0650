import MqttWasi.Codec.ClientPacket

-- How the layout of MQTT v5 is read at the other end. The client has no decoder for these packets.

namespace MqttWasi

structure ConnectFields where
  name : String
  version : UInt8
  flags : UInt8
  keepAlive : UInt16
  properties : Properties
  clientId : String
  username : Option String
  password : Option Bytes

def readConnect : CursorM ConnectFields := do
  let name ← Cursor.readString
  let version ← Cursor.readU8
  let flags ← Cursor.readU8
  let keepAlive ← Cursor.readU16
  let properties ← Properties.decodeFor .connect
  let clientId ← Cursor.readString
  let username ← readIf (flags &&& 0x80 ≠ 0) Cursor.readString
  let password ← readIf (flags &&& 0x40 ≠ 0) Cursor.readBinary
  return { name, version, flags, keepAlive, properties, clientId, username, password }
where
  readIf {α : Type} (flag : Bool) (x : CursorM α) : CursorM (Option α) :=
    if flag then some <$> x else pure none

-- Reads until nothing is left, where `rounds` is at least the number of elements.
def readAll (x : CursorM α) : Nat → CursorM (List α)
  | 0 => return []
  | rounds + 1 => do
    if (← get).remaining = 0 then
      return []
    let a ← x
    let as ← readAll x rounds
    return a :: as

def readSubscribe : CursorM SubscribePacket := do
  let packetId ← Cursor.readU16
  let properties ← Properties.decodeFor .subscribe
  let filters ← readAll readFilter (← get).remaining
  return { packetId, filters, properties }
where
  readFilter : CursorM (String × QoS) := do
    let filter ← Cursor.readString
    let options ← Cursor.readU8
    let qos ← check (QoS.fromU8 options)
    return (filter, qos)

def readUnsubscribe : CursorM UnsubscribePacket := do
  let packetId ← Cursor.readU16
  let properties ← Properties.decodeFor .unsubscribe
  let filters ← readAll Cursor.readString (← get).remaining
  return { packetId, filters, properties }

namespace ClientPacket

-- A reader finds every field of the packet in the body and reaches its end.
def Recovered : ClientPacket → Bytes → Prop
  | connect packet, body => ∃ flags,
    readConnect { buf := body } = .ok
      { name := "MQTT", version := 5, flags, keepAlive := packet.keepAlive,
        properties := packet.properties, clientId := packet.clientId, username := packet.username,
        password := packet.password }
      { buf := body, pos := body.length } ∧
    (flags &&& 0x02 ≠ 0 ↔ packet.cleanStart) ∧ (flags &&& 0x40 ≠ 0 ↔ packet.password.isSome) ∧
    (flags &&& 0x80 ≠ 0 ↔ packet.username.isSome) ∧ flags &&& 0x3D = 0
  | publish packet, body => PublishPacket.decode packet.flags body = .ok packet
  | subscribe packet, body =>
    packet.packetId ≠ 0 ∧
      readSubscribe { buf := body } = .ok packet { buf := body, pos := body.length }
  | unsubscribe packet, body =>
    packet.packetId ≠ 0 ∧
      readUnsubscribe { buf := body } = .ok packet { buf := body, pos := body.length }

end ClientPacket
end MqttWasi
