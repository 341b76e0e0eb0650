import MqttWasi.Driver.Run

namespace MqttWasi

-- What a broker makes of the bytes of a frame.

-- The header and the body of a control packet that takes up all of the bytes.
def splitFrame (bytes : Bytes) : Option (FixedHeader × Bytes) :=
  match decodeFixedHeader bytes with
  | .error _ => none
  | .ok (header, headerLen) =>
    if headerLen + header.remainingLength.toNat = bytes.length then
      some (header, bytes.drop headerLen)
    else
      none

def packetTypeOf (bytes : Bytes) : Option PacketType :=
  (splitFrame bytes).map (·.1.packetType)

-- The acknowledgement that a frame asks for.
def expectedAck (bytes : Bytes) : Option (AckClass × UInt16) :=
  (splitFrame bytes).bind fun (header, body) =>
    match header.packetType with
    | .publish     => publishId header body |>.map (.publish, ·)
    | .subscribe   => leadingId body |>.map (.subscribe, ·)
    | .unsubscribe => leadingId body |>.map (.unsubscribe, ·)
    | _            => none
where
  publishId (header : FixedHeader) (body : Bytes) : Option UInt16 :=
    (PublishPacket.decode header.flags body).toOption.bind (·.packetId)
  leadingId (body : Bytes) : Option UInt16 :=
    (Cursor.readU16 { buf := body }).value.toOption

-- The packet identifier that has to be acknowledged.
def PublishPacket.ackId (packet : PublishPacket) : Option UInt16 :=
  if packet.qos = .atLeastOnce then packet.packetId else none

-- The packet identifier of a PUBACK.
def pubackId (bytes : Bytes) : Option UInt16 :=
  (splitFrame bytes).bind fun (header, body) =>
    if header.packetType = .pubAck then
      (PubAckPacket.decode body).toOption.map (·.packetId)
    else
      none

-- The message of a PUBLISH.
def messageOf (bytes : Bytes) : Option PublishPacket :=
  (splitFrame bytes).bind fun (header, body) =>
    if header.packetType = .publish then
      (PublishPacket.decode header.flags body).toOption
    else
      none

-- The topic filter of a SUBSCRIBE or an UNSUBSCRIBE that has one.
def topicFilter (bytes : Bytes) : Option String :=
  (splitFrame bytes).bind fun (header, body) =>
    match header.packetType with
    | .subscribe   => (readFilter .subscribe 1 { buf := body }).value.toOption
    | .unsubscribe => (readFilter .unsubscribe 0 { buf := body }).value.toOption
    | _            => none
where
  -- Nothing but the `left` bytes of its options may follow.
  readFilter (context : PropertyContext) (left : Nat) : CursorM String := do
    discard Cursor.readU16
    discard (Properties.decodeFor context)
    let filter ← Cursor.readString
    if (← get).remaining ≠ left then
      throw (.malformedPacket "more than one topic filter")
    return filter

-- The type of the packets that are acknowledged so.
def AckClass.packetType : AckClass → PacketType
  | publish     => .publish
  | subscribe   => .subscribe
  | unsubscribe => .unsubscribe

end MqttWasi
