import MqttWasi.Codec.ClientPacket
import MqttWasi.Codec.Theorems.NormalForms

-- What the encoders of a client produce.

namespace MqttWasi

open Base128 (Number)

theorem Utf8String.length (h : Utf8String bytes s) : bytes.length = stringLen s := by
  obtain ⟨_, _, rfl⟩ := h
  simp [stringLen, u16ToBeBytes]
  omega

theorem VariableInt.encode (h : n ≤ 268435455) : VariableInt (Base128.encode n) (.ofNat n) := by
  have hn : (UInt32.ofNat n).toNat = n := by simp; omega
  exact ⟨Base128.length_encode_le_of_lt (by omega), hn.symm ▸ Number.encode n⟩

theorem BinaryData.length (h : BinaryData bytes data) : bytes.length = binaryLen data := by
  obtain ⟨_, rfl⟩ := h
  simp [binaryLen, u16ToBeBytes]
  omega

theorem Sequence.length {R : Bytes → α → Prop} (h : Sequence R bytes as) {size : α → Nat}
    (hr : ∀ bytes a, R bytes a → bytes.length = size a) : bytes.length = (as.map size).sum := by
  induction h
  case nil => rfl
  case cons ha _ ih => simp [hr _ _ ha, ih]

-- A filter and the options behind it.
def SubscribePacket.Filter (bytes : Bytes) (filter : String × QoS) : Prop :=
  ∃ name, bytes = name ++ [filter.2.toU8] ∧ Utf8String name filter.1

-- An encoder appends a byte string of some language.
def Writes (x : EncodeM Unit) (L : Bytes → Prop) : Prop :=
  ∀ ⦃buf u buf'⦄, x buf = .ok u buf' → ∃ bytes, buf' = buf ++ bytes ∧ L bytes

namespace Writes

variable {x : EncodeM Unit} {L M : Bytes → Prop}

theorem mono (h : Writes x L) (hl : ∀ bytes, L bytes → M bytes) : Writes x M := by
  intro buf u buf' he
  have ⟨bytes, hb, h⟩ := h he
  exact ⟨bytes, hb, hl bytes h⟩

theorem bind {f : Unit → EncodeM Unit} (hx : Writes x L) (hf : ∀ u, Writes (f u) M) :
    Writes (x >>= f) fun bytes => ∃ xs ys, bytes = xs ++ ys ∧ L xs ∧ M ys := by
  intro buf u buf' he
  have ⟨_, _, h₁, h₂⟩ := EStateM.bind_eq_ok.mp he
  obtain ⟨xs, rfl, hl⟩ := hx h₁
  obtain ⟨ys, rfl, hm⟩ := hf _ h₂
  exact ⟨xs ++ ys, List.append_assoc .., xs, ys, rfl, hl, hm⟩

theorem check_bind {r : Except Error Unit} {f : Unit → EncodeM Unit} (hf : ∀ u, Writes (f u) M) :
    Writes (check r >>= f) fun bytes => r = .ok () ∧ M bytes := by
  intro buf u buf' he
  have ⟨_, _, h₁, h₂⟩ := EStateM.bind_eq_ok.mp he
  obtain ⟨hr, rfl⟩ := check_eq_ok.mp h₁
  have ⟨bytes, hb, h⟩ := hf _ h₂
  exact ⟨bytes, hb, hr, h⟩

theorem nothing : Writes (pure ()) (· = []) := by
  intro buf u buf' he
  cases he
  exact ⟨[], by simp, rfl⟩

theorem extend (bytes : Bytes) : Writes (extend bytes) (· = bytes) := by
  intro buf u buf' he
  cases he
  exact ⟨bytes, rfl, rfl⟩

theorem encodeU16 (v : UInt16) : Writes (encodeU16 v) (· = u16ToBeBytes v) :=
  extend _

theorem encodeString (s : String) : Writes (encodeString s) (Utf8String · s) := by
  intro buf u buf' he
  have ⟨hl, h0, hb⟩ := encodeString_eq_ok.mp he
  exact ⟨_, hb, hl, h0, rfl⟩

theorem encodeBinary (data : Bytes) : Writes (encodeBinary data) (BinaryData · data) := by
  intro buf u buf' he
  have ⟨hl, hb⟩ := encodeBinary_eq_ok.mp he
  exact ⟨_, hb, hl, rfl⟩

theorem optional {encode : α → EncodeM Unit} {L : α → Bytes → Prop}
    (h : ∀ a, Writes (encode a) (L a)) (o : Option α) :
    Writes (o.elim (pure ()) encode) (o.elim (· = []) L) := by
  cases o
  case none => exact nothing
  case some a => exact h a

theorem encodeFilters (filters : List (String × QoS)) :
    Writes (SubscribePacket.encodeFilters filters) (Sequence SubscribePacket.Filter · filters) := by
  induction filters
  case nil => exact nothing.mono fun _ h => h ▸ .nil
  case cons filter filters ih =>
    refine (check_bind fun _ => (encodeString _).bind fun _ => (extend _).bind fun _ => ih).mono ?_
    rintro bytes ⟨_, name, _, rfl, hn, _, _, rfl, rfl, hs⟩
    rw [← List.append_assoc]
    exact .cons ⟨name, rfl, hn⟩ hs

theorem encodeFilters' (filters : List String) :
    Writes (UnsubscribePacket.encodeFilters filters) (Sequence Utf8String · filters) := by
  induction filters
  case nil => exact nothing.mono fun _ h => h ▸ .nil
  case cons filter filters ih =>
    refine (check_bind fun _ => (encodeString _).bind fun _ => ih).mono ?_
    rintro bytes ⟨_, _, _, rfl, hf, hs⟩
    exact .cons hf hs

-- The length in front of the properties is that of their bytes modulo 2³².
theorem encodeInner (props : Properties) (context : Option PropertyContext) :
    Writes (props.encodeInner context) fun bytes => ∃ entries,
      (Properties.encodeEntries context [] props.entries).bytes = .ok entries ∧
      entries.length % 2 ^ 32 ≤ 268435455 ∧
      bytes = Base128.encode (entries.length % 2 ^ 32) ++ entries := by
  intro buf u buf' he
  have ⟨entries, _, hc, hi⟩ := EStateM.bind_eq_ok.mp he
  obtain ⟨hb, rfl⟩ := check_eq_ok.mp hc
  have ⟨_, _, hv, hx⟩ := EStateM.bind_eq_ok.mp hi
  obtain ⟨hm, rfl⟩ := encodeVariableInt_eq_ok.mp hv
  cases hx
  rw [UInt32.toNat_ofNat'] at hm ⊢
  exact ⟨_, List.append_assoc .., entries, hb, hm, rfl⟩

end Writes

namespace ClientPacket

def Front : ClientPacket → Bytes → Prop
  | connect packet, bytes =>
    ∃ name, Utf8String name protocolName ∧
      bytes = name ++ ([packet.protocolVersion] ++ ([packet.flags] ++ u16ToBeBytes packet.keepAlive))
  | publish packet, bytes =>
    ∃ topic, Utf8String topic packet.topic ∧ bytes = topic ++ packet.packetId.elim [] u16ToBeBytes
  | subscribe packet, bytes   => bytes = u16ToBeBytes packet.packetId
  | unsubscribe packet, bytes => bytes = u16ToBeBytes packet.packetId

def Back : ClientPacket → Bytes → Prop
  | connect packet, bytes =>
    ∃ clientId username password, bytes = clientId ++ (username ++ password) ∧
      Utf8String clientId packet.clientId ∧
      packet.username.elim (· = []) (fun s => (Utf8String · s)) username ∧
      packet.password.elim (· = []) (fun data => (BinaryData · data)) password
  | publish packet, bytes     => bytes = packet.payload
  | subscribe packet, bytes   => Sequence SubscribePacket.Filter bytes packet.filters
  | unsubscribe packet, bytes => Sequence Utf8String bytes packet.filters

theorem encodeFront_writes (packet : ClientPacket) : Writes packet.encodeFront packet.Front := by
  cases packet
  case connect packet =>
    refine ((Writes.encodeString _).bind fun _ => (Writes.extend _).bind fun _ =>
      (Writes.extend _).bind fun _ => Writes.encodeU16 _).mono ?_
    rintro _ ⟨name, _, rfl, hn, _, _, rfl, rfl, _, _, rfl, rfl, rfl⟩
    exact ⟨name, hn, rfl⟩
  case publish packet =>
    refine (Writes.check_bind fun _ => (Writes.encodeString _).bind fun _ =>
      Writes.optional Writes.encodeU16 _).mono ?_
    rintro _ ⟨_, topic, _, rfl, ht, hi⟩
    refine ⟨topic, ht, ?_⟩
    cases h : packet.packetId <;> simpa [h] using hi
  case subscribe packet => exact .encodeU16 _
  case unsubscribe packet => exact .encodeU16 _

theorem encodeBack_writes (packet : ClientPacket) : Writes packet.encodeBack packet.Back := by
  cases packet
  case connect packet =>
    refine ((Writes.encodeString _).bind fun _ => (Writes.optional Writes.encodeString _).bind fun _ =>
      Writes.optional Writes.encodeBinary _).mono ?_
    rintro _ ⟨clientId, _, rfl, hc, username, password, rfl, hu, hp⟩
    exact ⟨clientId, username, password, rfl, hc, hu, hp⟩
  case publish packet => exact .extend _
  case subscribe packet => exact .encodeFilters _
  case unsubscribe packet => exact .encodeFilters' _

theorem encodeBody_writes (packet : ClientPacket) : Writes packet.encodeBody fun bytes =>
    ∃ front entries back, packet.Front front ∧ packet.Back back ∧
      (Properties.encodeEntries packet.context [] packet.properties.entries).bytes = .ok entries ∧
      entries.length % 2 ^ 32 ≤ 268435455 ∧
      bytes = front ++ (Base128.encode (entries.length % 2 ^ 32) ++ entries ++ back) := by
  refine (packet.encodeFront_writes.bind fun _ => (Writes.encodeInner _ _).bind fun _ =>
    packet.encodeBack_writes).mono ?_
  rintro _ ⟨front, _, rfl, hf, _, back, rfl, ⟨entries, he, hl, rfl⟩, hb⟩
  exact ⟨front, entries, back, hf, hb, he, hl, rfl⟩

theorem connect_encodeBody {packet : ConnectPacket} (h : packet.protocolVersion = protocolVersion5) :
    packet.encodeBody = (connect packet).encodeBody := by
  simp only [ConnectPacket.encodeBody, encodeBody, encodeFront, encodeBack, properties, context, h,
    ge_iff_le, UInt8.le_refl, if_true, bind_assoc]
  cases packet.username <;> cases packet.password <;> simp

theorem publish_encodeBody (packet : PublishPacket) :
    packet.encodeBody = (publish packet).encodeBody := by
  simp only [PublishPacket.encodeBody, encodeBody, encodeFront, encodeBack, properties, context,
    bind_assoc]
  cases packet.packetId <;> simp

theorem subscribe_encodeBody (packet : SubscribePacket) :
    packet.encodeBody = (subscribe packet).encodeBody :=
  rfl

theorem unsubscribe_encodeBody (packet : UnsubscribePacket) :
    packet.encodeBody = (unsubscribe packet).encodeBody :=
  rfl

-- The checks that come before everything else.
def Checked : ClientPacket → Prop
  | connect packet     => packet.protocolVersion = protocolVersion5
  | publish packet     => packet.HasValidId
  | subscribe packet   => packet.packetId ≠ 0 ∧ packet.filters ≠ []
  | unsubscribe packet => packet.packetId ≠ 0 ∧ packet.filters ≠ []

-- Every encoder makes its checks and puts a fixed header in front of the body.
theorem encode_eq_ok {packet : ClientPacket} : packet.encode = .ok bytes ↔
    packet.Checked ∧ ∃ body, packet.encodeBody [] = .ok () body ∧
      withFixedHeader packet.packetType packet.flags body [] = .ok () bytes := by
  simp only [← EncodeM.bytes_eq_ok]
  cases packet
  case connect packet =>
    by_cases h : packet.protocolVersion = protocolVersion5
    case pos =>
      simp [encode, Checked, ConnectPacket.encode, h, connect_encodeBody h, Except.bind_eq_ok,
        packetType, flags]
    case neg => simp [encode, Checked, ConnectPacket.encode, h]
  case publish packet =>
    rw [encode, PublishPacket.encode_eq_ok, publish_encodeBody]
    simp [EncodeM.bytes_eq_ok, Checked, packetType, flags]
  case subscribe packet =>
    by_cases h₀ : packet.packetId = 0 <;> by_cases hf : packet.filters = [] <;>
      simp [encode, Checked, SubscribePacket.encode, subscribe_encodeBody, h₀, hf, Except.bind_eq_ok,
        packetType, flags]
  case unsubscribe packet =>
    by_cases h₀ : packet.packetId = 0 <;> by_cases hf : packet.filters = [] <;>
      simp [encode, Checked, UnsubscribePacket.encode, unsubscribe_encodeBody, h₀, hf,
        Except.bind_eq_ok, packetType, flags]

theorem Front.length {packet : ClientPacket} (h : packet.Front bytes) :
    bytes.length = packet.frontSize := by
  cases packet
  case connect packet =>
    obtain ⟨name, hn, rfl⟩ := h
    simp [frontSize, hn.length, u16ToBeBytes]
  case publish packet =>
    obtain ⟨topic, ht, rfl⟩ := h
    cases hi : packet.packetId <;> simp [frontSize, ht.length, hi, u16ToBeBytes]
  case subscribe packet => simp [Front] at h; simp [h, frontSize, u16ToBeBytes]
  case unsubscribe packet => simp [Front] at h; simp [h, frontSize, u16ToBeBytes]

theorem Back.length {packet : ClientPacket} (h : packet.Back bytes) :
    bytes.length = packet.backSize := by
  cases packet
  case connect packet =>
    obtain ⟨clientId, username, password, rfl, hc, hu, hp⟩ := h
    have hu : username.length = packet.username.elim 0 stringLen := by
      cases h : packet.username <;> simp only [h, Option.elim] at hu ⊢
      case none => simp [hu]
      case some => exact hu.length
    have hp : password.length = packet.password.elim 0 binaryLen := by
      cases h : packet.password <;> simp only [h, Option.elim] at hp ⊢
      case none => simp [hp]
      case some => exact hp.length
    simp [backSize, hc.length, hu, hp, Nat.add_assoc]
  case publish packet => rw [h, backSize]
  case subscribe packet =>
    refine Sequence.length h fun bytes filter hf => ?_
    obtain ⟨name, rfl, hn⟩ := hf
    rw [List.length_append, hn.length, List.length_singleton]
  case unsubscribe packet => exact Sequence.length h fun bytes filter hf => hf.length

-- The fixed header is that of the packet and says where the packet ends, and the length in front of
-- the properties says where these end.
structure WellFramed (packet : ClientPacket) (bytes : Bytes) : Prop where
  framed : ∃ header headerLen front lenBytes len entries back,
    decodeFixedHeader bytes = .ok (header, headerLen) ∧ header.packetType = packet.packetType ∧
    bytes.length = headerLen + header.remainingLength.toNat ∧
    bytes.drop headerLen = front ++ (lenBytes ++ entries ++ back) ∧
    front.length = packet.frontSize ∧
    (Properties.encodeEntries packet.context [] packet.properties.entries).bytes = .ok entries ∧
    VariableInt lenBytes len ∧ entries.length = len.toNat

-- What is encoded is framed well exactly if its body is below 4 GiB, and then it is no larger than
-- the remaining length of a packet may be.
theorem encode_wellFramed_iff {packet : ClientPacket} (h : packet.encode = .ok bytes) :
    (packet.WellFramed bytes ↔ packet.bodySize < 2 ^ 32) ∧
      (packet.bodySize < 2 ^ 32 → packet.bodySize ≤ 268435455) := by
  obtain ⟨_, body, hb, hw⟩ := encode_eq_ok.mp h
  obtain ⟨_, hb', front, entries, back, hf, hk, he, hm, rfl⟩ := packet.encodeBody_writes hb
  obtain ⟨hfl, hv, hml, rfl⟩ := withFixedHeader_eq_ok.mp hw
  rw [List.nil_append] at hb'
  have hlen : entries.length = packet.properties.bodyLen := by
    simpa using Properties.encodeEntries_length (EncodeM.bytes_eq_ok.mp he)
  have hto (n : Nat) : (UInt32.ofNat n).toNat = n % 2 ^ 32 := by simp
  have hsize : body.length = packet.bodySize := by
    have hi : variableIntLen (.ofNat packet.properties.bodyLen) =
        (Base128.encode (entries.length % 2 ^ 32)).length := by
      rw [variableIntLen_eq (by rwa [hto, ← hlen]), hto, hlen]
    rw [hb', bodySize, Properties.encodedLen, hi, ← hlen, ← hf.length, ← hk.length]
    simp
    omega
  have hd := decodeFixedHeader_encoded hfl hv (by rwa [hto]) body
  rw [hto] at hd
  constructor
  case left =>
    constructor
    case mp =>
      rintro ⟨header, headerLen, _, _, _, _, _, hd', _, hl, _⟩
      cases hd.symm.trans hd'
      simp at hl
      omega
    case mpr =>
      intro hlt
      have he₄ : entries.length < 2 ^ 32 := by
        have := congrArg List.length hb'
        simp at this
        omega
      rw [Nat.mod_eq_of_lt he₄] at hb' hm
      refine ⟨_, _, front, Base128.encode entries.length, .ofNat entries.length, entries, back, hd, rfl,
        ?_, ?_, hf.length, he, .encode hm, ?_⟩
      case refine_1 => simp; omega
      case refine_2 => simp [hb', Nat.add_comm 1]
      case refine_3 => rw [hto, Nat.mod_eq_of_lt he₄]
  case right =>
    intro hlt
    omega

def publishOf (payload : Bytes) : ClientPacket :=
  publish ⟨"a", none, payload, .atMostOnce, false, false, {}⟩

theorem encode_wellFramed_iff_publishOf :
    ((publishOf [7]).WellFramed [0x30, 0x05, 0x00, 0x01, 0x61, 0x00, 0x07] ↔
        (publishOf [7]).bodySize < 2 ^ 32) ∧
      ((publishOf [7]).bodySize < 2 ^ 32 → (publishOf [7]).bodySize ≤ 268435455) :=
  encode_wellFramed_iff rfl

theorem publishOf_encodeBody (payload : Bytes) :
    (publishOf payload).encodeBody [] = .ok () ([0x00, 0x01, 0x61, 0x00] ++ payload) := by
  have ht : validateTopicName "a" = .ok () := rfl
  have hs : encodeString "a" [] = .ok () [0x00, 0x01, 0x61] := rfl
  have hp : ({} : Properties).encodeFor .publish [0x00, 0x01, 0x61] =
      .ok () [0x00, 0x01, 0x61, 0x00] := rfl
  simp [publishOf, encodeBody, encodeFront, encodeBack, properties, context, ht,
    EStateM.bind_apply, hs, hp]

-- A payload of 4 GiB leaves a remaining length of four bytes.
theorem publishOf_misframed {payload : Bytes} (h : payload.length = 2 ^ 32) :
    ∃ bytes, (publishOf payload).encode = .ok bytes ∧ ¬(publishOf payload).WellFramed bytes := by
  have hl : ([0x00, 0x01, 0x61, 0x00] ++ payload).length = 2 ^ 32 + 4 := by simp [h]
  have hv (len) : validateFixedHeader ⟨.publish, 0, len⟩ = .ok () := by simp [validateFixedHeader]
  have hf : (publishOf payload).flags = 0 := by
    simp [publishOf, flags, PublishPacket.flags, QoS.toU8]
  obtain ⟨bytes, hw⟩ : ∃ bytes, withFixedHeader .publish (publishOf payload).flags
      ([0x00, 0x01, 0x61, 0x00] ++ payload) [] = .ok () bytes := by
    rw [hf]
    exact ⟨_, withFixedHeader_eq_ok.mpr ⟨UInt8.zero_le, hv _, by rw [hl]; decide, rfl⟩⟩
  have he : (publishOf payload).encode = .ok bytes :=
    encode_eq_ok.mpr ⟨trivial, _, publishOf_encodeBody payload, hw⟩
  refine ⟨bytes, he, fun hc => ?_⟩
  have hs := (encode_wellFramed_iff he).left.mp hc
  simp [publishOf, bodySize, backSize, h] at hs

theorem encode_misframed :
    ∃ bytes, (publishOf (List.replicate (2 ^ 32) 0)).encode = .ok bytes ∧
      ¬(publishOf (List.replicate (2 ^ 32) 0)).WellFramed bytes :=
  publishOf_misframed List.length_replicate

end ClientPacket
end MqttWasi
