import MqttWasi.Frame.Theorems.Refinement
import MqttWasi.Codec.Theorems.Packets

namespace MqttWasi

open Framing (parse)

variable {max : Nat}

namespace FrameReader

-- The packets and the end of a stream do not depend on the chunks in which it arrives.
theorem feed_refines_parse (max : Nat) (chunks : List Bytes)
    (h : Respects (withMaxPacketSize max) chunks) :
    ∃ run, feed (withMaxPacketSize max) chunks = some run ∧
      run.outcome = parse (packetFraming max) chunks.flatten := by
  have ⟨run, hf, ho, _⟩ := feed_eq_parse (.withMaxPacketSize max) h
  exact ⟨run, hf, ho⟩

theorem feed_malformed_stream :
    ∃ run, feed (withMaxPacketSize 5) [[0xD0], [0x00], [0x62], [0xFF]] = some run ∧
      run.outcome = parse (packetFraming 5) [0xD0, 0x00, 0x62, 0xFF] :=
  feed_refines_parse 5 _
    (respects_singletons (.withMaxPacketSize 5) le_rfl [0xD0, 0x00, 0x62, 0xFF])

end FrameReader

theorem Packet.Encodes.next (h : Encodes packet bytes) (hl : bytes.length ≤ max)
    (hm : max ≤ mqttMaxPacketSize) : (packetFraming max).next bytes = .item packet bytes.length := by
  have ⟨header, headerLen, ht, hd, hp⟩ := h.decoded (by simp [mqttMaxPacketSize] at hm; omega)
  have hd := hd []
  rw [List.append_nil] at hd
  have hn := nextPacket_of_header max hd
  simp only [ht, nextPacket.body, List.take_length, hp, lt_irrefl, if_false] at hn
  rwa [if_neg (by omega)] at hn

theorem parse_encoded (he : List.Forall₂ Packet.Encodes packets frames)
    (hl : ∀ frame ∈ frames, frame.length ≤ max) (hm : max ≤ mqttMaxPacketSize) :
    parse (packetFraming max) frames.flatten = { items := packets, rest := .ok [] } := by
  refine Framing.parse_flatten ?_
  induction he
  case nil => exact .nil
  case cons he _ ih =>
    have ⟨hl₁, hl₂⟩ := List.forall_mem_cons.mp hl
    exact .cons (he.next hl₁ hm) (ih hl₂)

namespace FrameReader

theorem feed_encoded_packets (max : Nat) (packets : List Packet) (frames chunks : List Bytes)
    (hm : max ≤ mqttMaxPacketSize) (he : List.Forall₂ Packet.Encodes packets frames)
    (hl : ∀ frame ∈ frames, frame.length ≤ max) (hc : chunks.flatten = frames.flatten)
    (hr : Respects (withMaxPacketSize max) chunks) :
    ∃ run, feed (withMaxPacketSize max) chunks = some run ∧ run.packets = packets ∧
      run.error = none ∧ run.reader.buf = [] ∧ run.reader.state = .readingHeader := by
  have ⟨run, hf, ho, hw⟩ := feed_eq_parse (.withMaxPacketSize max) hr
  have hp := parse_encoded he hl hm
  rw [← hc] at hp
  have ho : run.outcome = { items := packets, rest := .ok [] } := ho.trans hp
  have ⟨herr, hbuf⟩ := Run.outcome_rest_ok (congrArg (·.rest) ho)
  refine ⟨run, hf, congrArg (·.items) ho, herr, hbuf, ?_⟩
  -- A reader with a fixed header in hand still has its bytes in the buffer.
  cases hs : run.reader.state
  case readingHeader => rfl
  case readingBody =>
    have ⟨hd, _⟩ := (hw herr).valid.body hs
    rw [hbuf, decodeFixedHeader.nil] at hd
    cases hd

theorem feed_publish_disconnect :
    ∃ run, feed (withMaxPacketSize 15) ([58, 13, 0, 3, 97, 47, 98, 1, 2, 4, 9, 0, 1, 1, 9, 0xE0, 0].map
        ([·])) = some run ∧
      run.packets =
        [.publish { topic := "a/b", packetId := some 258, payload := [9], qos := .atLeastOnce
                    retain := false, dup := true
                    properties := { entries := [(.correlationData, .binary [1])] } },
          .disconnect { reasonCode := 0 }] ∧
      run.error = none ∧ run.reader.buf = [] ∧ run.reader.state = .readingHeader :=
  feed_encoded_packets 15 _ [[58, 13, 0, 3, 97, 47, 98, 1, 2, 4, 9, 0, 1, 1, 9], [0xE0, 0]] _
    (by decide)
    (.cons (.publish (by decide +kernel)) (.cons (.disconnect (by decide +kernel)) .nil))
    (by decide) rfl (respects_singletons (.withMaxPacketSize 15) (by decide) _)

end FrameReader
end MqttWasi
