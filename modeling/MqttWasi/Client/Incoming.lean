import MqttWasi.Client.Basic

namespace MqttWasi

-- Blocking iterator over incoming PUBLISH packets.
structure Incoming where
  client : MqttClient
  done : Bool := false

namespace Incoming

-- `MqttClient::incoming`
def incoming (client : MqttClient) : Incoming :=
  { client }

-- `Iterator::next`
def next : EStateM Stop Incoming (Option (Except Error PublishPacket)) := fun incoming =>
  if incoming.done then
    .ok none incoming
  else
    match incoming.client.recv with
    | .ok (some message) client => .ok (some (.ok message)) { incoming with client }
    | .ok none client           => .ok none { client, done := true }
    | .error (.failed e) client => .ok (some (.error e)) { client, done := true }
    | .error .blocked client    => .error .blocked { incoming with client }

-- Calls `next` a number of times.
def nexts : Nat → EStateM Stop Incoming (List (Option (Except Error PublishPacket)))
  | 0     => return []
  | n + 1 => do
    let item ← next
    let items ← nexts n
    return item :: items

end Incoming
end MqttWasi
