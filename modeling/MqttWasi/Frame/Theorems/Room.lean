import MqttWasi.Codec.Theorems.ConnAck
import MqttWasi.Frame.Theorems.Stickiness
import MqttWasi.Library.Transition

-- A reader that waits for more data has room for it, provided that its limit is one that a CONNACK
-- has passed.

namespace MqttWasi

open Relation (ReflTransGen)

variable {max : Nat}

theorem Packet.decode_connAck {ack : ConnAckPacket} (h : decode header body = .ok (.connAck ack)) :
    body.length = header.remainingLength.toNat ∧ ConnAckPacket.decode body = .ok ack := by
  simp only [decode, Except.bind_eq_ok] at h
  obtain ⟨_, _, h⟩ := h
  split at h
  case isTrue => simp at h
  case isFalse hl =>
    split at h
    case h_1 =>
      obtain ⟨ack', hd, ha⟩ := Except.bind_eq_ok.mp h
      cases ha
      exact ⟨not_not.mp hl, hd⟩
    case h_6 | h_8 => split at h <;> simp [pure, Except.pure] at h
    all_goals simp [Except.bind_eq_ok, pure, Except.pure] at h

-- The flags, the reason code and the length of the properties
theorem ConnAckPacket.decode_length {ack : ConnAckPacket} (h : decode body = .ok ack) :
    3 ≤ body.length := by
  obtain ⟨first, propBytes, rfl, _, _, hp⟩ := decode_layout h
  obtain ⟨lenBytes, props, len, entries, rfl, hv, _⟩ := hp
  have hl := List.length_pos_iff.mpr hv.ne_nil
  simp only [List.length_cons, List.length_append]
  omega

theorem HeaderLayout.two_le (h : HeaderLayout data header headerLen) : 2 ≤ headerLen := by
  obtain ⟨first, lenBytes, rest, _, _, _, hv, rfl⟩ := h.split
  have hl := List.length_pos_iff.mpr hv.ne_nil
  omega

theorem HeaderLayout.connAck {ack : ConnAckPacket} (h : HeaderLayout data header headerLen)
    (hp : Packet.decode header body = .ok (.connAck ack)) :
    5 ≤ headerLen + header.remainingLength.toNat := by
  obtain ⟨hl, hd⟩ := Packet.decode_connAck hp
  exact Nat.add_le_add h.two_le (hl ▸ ConnAckPacket.decode_length hd)

theorem nextPacket_connAck {ack : ConnAckPacket} (h : nextPacket max s = .item (.connAck ack) n) :
    5 ≤ max := by
  obtain ⟨header, headerLen, hd, rfl, hl⟩ := nextPacket_item h
  rw [nextPacket_of_header max hd, nextPacket.body] at h
  split at h <;> try split at h <;> try split at h
  all_goals cases h
  case h_1.refl hm _ _ hp =>
    have hb := (decodeFixedHeader_eq_ok.mp hd).connAck hp
    omega

namespace FrameReader

-- What a caller does with a reader that does not push more than there is room for.
inductive Uses : FrameReader → FrameReader → Prop
  | tryDecode : Uses reader (FrameReader.tryDecode reader).state
  | push : (data.length ≤ reader.remainingCapacity) → Uses reader (reader.push data)

-- When there is nothing to decode, there is room for more.
def HasRoom (reader : FrameReader) : Prop :=
  ∀ reader', FrameReader.tryDecode reader = .ok none reader' → 0 < reader'.remainingCapacity

-- A reader that has never overflowed.
structure Clean (max : Nat) (reader : FrameReader) : Prop where
  sound : Sound max reader
  overflow : reader.overflowSize = none

variable {reader reader' : FrameReader}

theorem Clean.withMaxPacketSize (max : Nat) : Clean max (.withMaxPacketSize max) where
  sound := .withMaxPacketSize max
  overflow := rfl

theorem Clean.answers (h : Clean max reader) :
    Answers max reader.buf (FrameReader.tryDecode reader) := by
  have ha := tryDecode_answers (h.sound.valid h.overflow)
  rwa [h.sound.max_eq] at ha

theorem Clean.step (h : Clean max reader) (hu : Uses reader reader') : Clean max reader' := by
  cases hu
  case push data hl =>
    refine ⟨h.sound.push data, ?_⟩
    rw [FrameReader.push, if_neg (Nat.not_lt.mpr hl)]
    exact h.overflow
  case tryDecode =>
    refine ⟨h.sound.tryDecode, ?_⟩
    have hl := tryDecode_leaves h.sound h.overflow
    cases hr : FrameReader.tryDecode reader
    all_goals
      rw [hr] at hl
      cases hl
    case error.fail hs => exact hs.overflow.trans h.overflow
    case ok.more hs => exact hs.overflow.trans h.overflow
    case ok.item ho _ => exact ho.trans h.overflow

theorem Clean.uses (h : Clean max reader) (hu : ReflTransGen Uses reader reader') : Clean max reader' :=
  hu.preserves (fun _ _ hu h => h.step hu) h

theorem Clean.hasRoom (h : Clean max reader) (hm : 5 ≤ max) : HasRoom reader := by
  intro reader' hd
  have ha := h.answers
  rw [hd] at ha
  cases ha
  case more hw hb => exact hw.room hm

end FrameReader
end MqttWasi
