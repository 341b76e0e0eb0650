import MqttWasi.Codec.Theorems.Packets

-- A lower bound for the size of the packets that have an identifier.

namespace MqttWasi

-- An encoder that only appends, and at least `n` bytes.
def Appends (n : Nat) (encoder : EncodeM Unit) : Prop :=
  ∀ ⦃buf u buf'⦄, encoder buf = .ok u buf' → ∃ bytes, buf' = buf ++ bytes ∧ n ≤ bytes.length

namespace Appends

theorem bind {x : EncodeM Unit} {f : Unit → EncodeM Unit} (hx : Appends n x)
    (hf : ∀ u, Appends 0 (f u)) : Appends n (x >>= f) := by
  intro buf u buf' h
  have ⟨_, _, h₁, h₂⟩ := EStateM.bind_eq_ok.mp h
  have ⟨bytes₁, hb₁, hn⟩ := hx h₁
  have ⟨bytes₂, hb₂, _⟩ := hf _ h₂
  refine ⟨bytes₁ ++ bytes₂, by rw [hb₂, hb₁, List.append_assoc], ?_⟩
  rw [List.length_append]
  omega

theorem check_bind {r : Except Error Unit} {f : Unit → EncodeM Unit} (hf : ∀ u, Appends n (f u)) :
    Appends n (check r >>= f) := by
  intro buf u buf' h
  have ⟨_, _, h₁, h₂⟩ := EStateM.bind_eq_ok.mp h
  have ⟨_, hs⟩ := check_eq_ok.mp h₁
  exact hs ▸ hf _ h₂

theorem nothing : Appends 0 (pure ()) := by
  intro buf u buf' h
  cases h
  exact ⟨[], by simp⟩

theorem encodeString (s : String) : Appends 2 (encodeString s) := by
  intro buf u buf' h
  have ⟨_, _, hb⟩ := encodeString_eq_ok.mp h
  exact ⟨_, hb, by simp [u16ToBeBytes]⟩

theorem extend (bytes : Bytes) : Appends 0 (extend bytes) :=
  fun _ _ _ h => ⟨bytes, (EStateM.Result.ok.inj h).right.symm, by omega⟩

theorem encodeU16 (v : UInt16) : Appends 2 (encodeU16 v) :=
  fun _ _ _ h => ⟨_, (EStateM.Result.ok.inj h).right.symm, by simp [u16ToBeBytes]⟩

theorem mono {encoder : EncodeM Unit} (h : Appends n encoder) : Appends 0 encoder := by
  intro buf u buf' he
  have ⟨bytes, hb, _⟩ := h he
  exact ⟨bytes, hb, by omega⟩

theorem encodeFor (props : Properties) (context : PropertyContext) :
    Appends 0 (props.encodeFor context) := by
  intro buf u buf' h
  have ⟨bytes, hb, _⟩ := Properties.encodeInner_reads h
  exact ⟨bytes, hb, by omega⟩

theorem encodeFilters (filters : List (String × QoS)) :
    Appends 0 (SubscribePacket.encodeFilters filters) := by
  induction filters
  case nil => exact nothing
  case cons filter filters ih =>
    exact .check_bind fun _ => (encodeString _).mono.bind fun _ => (extend _).bind fun _ => ih

theorem encodeFilters' (filters : List String) :
    Appends 0 (UnsubscribePacket.encodeFilters filters) := by
  induction filters
  case nil => exact nothing
  case cons filter filters ih => exact .check_bind fun _ => (encodeString _).mono.bind fun _ => ih

theorem encodeBody (packet : PublishPacket) : Appends 2 packet.encodeBody := by
  refine .check_bind fun _ => (encodeString _).bind fun _ => ?_
  split
  case h_1 => exact (encodeU16 _).mono.bind fun _ => (encodeFor _ _).bind fun _ => extend _
  case h_2 => exact (encodeFor _ _).bind fun _ => extend _

end Appends

-- A fixed header takes at least two bytes.
theorem withFixedHeader_length (h : withFixedHeader t flags body [] = .ok u frame) :
    body.length + 2 ≤ frame.length := by
  have ⟨_, _, _, hf⟩ := withFixedHeader_eq_ok.mp h
  have hn := List.length_pos_iff.mpr (Base128.encode_ne_nil (body.length % 2 ^ 32))
  rw [hf]
  simp only [List.nil_append, List.length_append, List.length_cons]
  omega

theorem PublishPacket.encode_length {packet : PublishPacket} (h : packet.encode = .ok frame) :
    4 ≤ frame.length := by
  have ⟨_, body, hb, hf⟩ := encode_eq_ok.mp h
  have ⟨_, hb, hl⟩ := Appends.encodeBody packet hb
  have := withFixedHeader_length hf
  rw [hb, List.nil_append] at this
  omega

-- The packet identifier comes first in the body of both.

theorem SubscribePacket.encode_eq_ok {packet : SubscribePacket} (h : packet.encode = .ok frame) :
    ∃ rest, withFixedHeader .subscribe 0x02 (u16ToBeBytes packet.packetId ++ rest) [] =
      .ok ⟨⟩ frame := by
  unfold encode at h
  split at h <;> try split at h
  case isFalse.isFalse =>
    have ⟨body, hb, hf⟩ := Except.bind_eq_ok.mp h
    have ⟨_, _, h₁, h₂⟩ := EStateM.bind_eq_ok.mp (EncodeM.bytes_eq_ok.mp hb)
    cases h₁
    have ha : Appends 0 (packet.properties.encodeFor .subscribe >>= fun _ =>
        encodeFilters packet.filters) := (Appends.encodeFor _ _).bind fun _ => .encodeFilters _
    have ⟨rest, hr, _⟩ := ha h₂
    exact ⟨rest, hr ▸ EncodeM.bytes_eq_ok.mp hf⟩
  all_goals cases h

theorem UnsubscribePacket.encode_eq_ok {packet : UnsubscribePacket}
    (h : packet.encode = .ok frame) :
    ∃ rest, withFixedHeader .unsubscribe 0x02 (u16ToBeBytes packet.packetId ++ rest) [] =
      .ok ⟨⟩ frame := by
  unfold encode at h
  split at h <;> try split at h
  case isFalse.isFalse =>
    have ⟨body, hb, hf⟩ := Except.bind_eq_ok.mp h
    have ⟨_, _, h₁, h₂⟩ := EStateM.bind_eq_ok.mp (EncodeM.bytes_eq_ok.mp hb)
    cases h₁
    have ha : Appends 0 (packet.properties.encodeFor .unsubscribe >>= fun _ =>
        encodeFilters packet.filters) := (Appends.encodeFor _ _).bind fun _ => .encodeFilters' _
    have ⟨rest, hr, _⟩ := ha h₂
    exact ⟨rest, hr ▸ EncodeM.bytes_eq_ok.mp hf⟩
  all_goals cases h

theorem withFixedHeader_id_length
    (h : withFixedHeader t flags (u16ToBeBytes packetId ++ rest) [] = .ok u frame) :
    4 ≤ frame.length := by
  have := withFixedHeader_length h
  simp [u16ToBeBytes] at this
  omega

theorem SubscribePacket.encode_length {packet : SubscribePacket} (h : packet.encode = .ok frame) :
    4 ≤ frame.length :=
  have ⟨_, h⟩ := encode_eq_ok h
  withFixedHeader_id_length h

theorem UnsubscribePacket.encode_length {packet : UnsubscribePacket}
    (h : packet.encode = .ok frame) : 4 ≤ frame.length :=
  have ⟨_, h⟩ := encode_eq_ok h
  withFixedHeader_id_length h

end MqttWasi
