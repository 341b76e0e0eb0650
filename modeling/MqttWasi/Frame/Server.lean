import MqttWasi.Codec.ClientReader
import MqttWasi.Frame.Theorems.Refinement

-- The other end of the connection: how a server takes the bytes that a client sends apart.

namespace MqttWasi

-- Everything that a client sends.
inductive SentPacket
  | client (packet : ClientPacket)
  | pubAck (packet : PubAckPacket)
  | pingReq
  | disconnect (packet : DisconnectPacket)
  deriving DecidableEq

def SentPacket.encode : SentPacket → Except Error Bytes
  | client packet     => packet.encode
  | pubAck packet     => packet.encode
  | pingReq           => .ok pingreqBytes
  | disconnect packet => packet.encode

-- A CONNECT without a will
def ConnectFields.packet (fields : ConnectFields) : Except Error ConnectPacket :=
  if fields.name ≠ protocolName ∨ fields.version ≠ protocolVersion5 ∨ fields.flags &&& 0x3D ≠ 0 then
    .error (.malformedPacket "unsupported CONNECT")
  else
    .ok
      { protocolVersion := fields.version
        cleanStart := fields.flags &&& 0x02 ≠ 0
        keepAlive := fields.keepAlive
        clientId := fields.clientId
        username := fields.username
        password := fields.password
        properties := fields.properties }

-- A reader has to use up the body.
def readWhole (x : CursorM α) (body : Bytes) : Except Error α :=
  (go { buf := body }).value
where
  go : CursorM α := do
    let a ← x
    if (← get).remaining ≠ 0 then
      throw (.malformedPacket "trailing bytes")
    return a

def requireId (packetId : UInt16) : Except Error Unit :=
  if packetId = 0 then .error (.malformedPacket "packet id must be non-zero") else .ok ()

def SentPacket.decode (header : FixedHeader) (body : Bytes) : Except Error SentPacket := do
  match header.packetType with
  | .connect    => return .client (.connect (← (← readWhole readConnect body).packet))
  | .publish    => return .client (.publish (← PublishPacket.decode header.flags body))
  | .subscribe  =>
    let packet ← readWhole readSubscribe body
    requireId packet.packetId
    return .client (.subscribe packet)
  | .unsubscribe =>
    let packet ← readWhole readUnsubscribe body
    requireId packet.packetId
    return .client (.unsubscribe packet)
  | .pubAck     => return .pubAck (← PubAckPacket.decode body)
  | .disconnect => return .disconnect (← DisconnectPacket.decode body)
  | .pingReq    =>
    if body.isEmpty then return .pingReq
    else throw (.malformedPacket "PINGREQ body must be empty")
  | .connAck | .pubRec | .pubRel | .pubComp | .subAck | .unsubAck | .pingResp | .auth =>
    throw (.unexpectedPacket "client does not send this")

-- The fixed headers at the front of a stream
def nextHeader (stream : Bytes) : Framing.Verdict Error FixedHeader :=
  match decodeFixedHeader stream with
  | .ok (header, headerLen) => .item header headerLen
  | .error e                => if e = endOfData then .more else .fail e

theorem nextHeader_append (h : nextHeader xs ≠ .more) (ys : Bytes) :
    nextHeader (xs ++ ys) = nextHeader xs := by
  cases hd : decodeFixedHeader xs
  case ok r => simp only [nextHeader, hd, decodeFixedHeader.append_ok ys hd]
  case error e =>
    have he : e ≠ endOfData := fun he => h (by simp [nextHeader, hd, he])
    simp only [nextHeader, hd, decodeFixedHeader.append_error ys hd he]

theorem nextHeader_item (h : nextHeader xs = .item header headerLen) :
    decodeFixedHeader xs = .ok (header, headerLen) := by
  cases hd : decodeFixedHeader xs <;> simp only [nextHeader, hd] at h
  case ok => cases h; rfl
  case error => split at h <;> cases h

def headerFraming : Framing UInt8 Error FixedHeader where
  next := nextHeader
  next_nil := rfl
  fail_append ys h := by rw [nextHeader_append (by simp [h]), h]
  item_append ys h := by rw [nextHeader_append (by simp [h]), h]
  item_pos h := decodeFixedHeader.headerLen_pos (nextHeader_item h)
  item_le h := decodeFixedHeader.headerLen_le (nextHeader_item h)

def serverFraming : Framing UInt8 Error SentPacket :=
  headerFraming.withBody (·.remainingLength.toNat) SentPacket.decode

end MqttWasi
