import MqttWasi.Codec.Connect
import MqttWasi.Codec.Theorems.NormalForms

-- What a client takes from a CONNACK is what the broker wrote in it.

namespace MqttWasi

-- The value of the only property with some identifier, if there is one.
def WireProperty (entries : List WireEntry) (id : PropertyId) : Option PropertyValue → Prop
  | some val => ∃ pre post, entries = pre ++ { id := id.toU8, value := .typed val } :: post ∧
    ∀ entry ∈ pre ++ post, entry.id ≠ id.toU8
  | none     => ∀ entry ∈ entries, entry.id ≠ id.toU8

theorem WireEntry.Written.typed?_eq_some {entry : WireEntry} {id : PropertyId}
    (h : entry.Written context bytes) (hi : entry.id = id.toU8) :
    ∃ val : PropertyValue, val.hasTypeOf id ∧ entry = { id := id.toU8, value := .typed val } ∧
      entry.typed? = some (id, val) := by
  obtain ⟨⟨_, _, t, _, _, hw, hv⟩, _⟩ := h
  rw [hi] at hw
  obtain ⟨val, hval⟩ := hv.typed hw
  rw [hval] at hv
  have he : entry = { id := id.toU8, value := .typed val } := by rw [← hi, ← hval]
  exact ⟨val, hv.hasTypeOf hw, he, by simp [he, typed?]⟩

theorem Sequence.mem {R : Bytes → α → Prop} (h : Sequence R bytes as) : ∀ a ∈ as, ∃ bytes, R bytes a := by
  induction h
  case nil => simp
  case cons ha _ ih =>
    intro a hm
    cases List.mem_cons.mp hm
    case inl he => exact ⟨_, he ▸ ha⟩
    case inr hm => exact ih a hm

theorem WireProperty.legal {entries : List WireEntry} {id : PropertyId} {val : PropertyValue}
    (h : WireProperty entries id (some val)) (hs : Entries context bytes entries) :
    (WireValue.typed val).Legal id.toU8 := by
  obtain ⟨pre, post, rfl, _⟩ := h
  have ⟨_, hw⟩ := hs.mem { id := id.toU8, value := .typed val } (by simp)
  exact hw.legal

namespace ConnAckPacket

theorem decode_layout {connack : ConnAckPacket} (h : decode body = .ok connack) :
    ∃ first propBytes, body = first :: connack.reasonCode :: propBytes ∧
      connack.sessionPresent = decide (first &&& 0x01 ≠ 0) ∧
      (connack.sessionPresent → connack.reasonCode = 0) ∧
      PrefixedSection (some .connAck) propBytes connack.properties := by
  have ⟨cur, hg⟩ : ∃ cur, decode.go (.at [] body) = .ok connack cur := by
    unfold decode at h
    cases hg : decode.go { buf := body } <;> simp [hg] at h
    exact ⟨_, h ▸ hg⟩
  obtain ⟨_, _, first, rfl, rfl, hg⟩ := Cursor.readU8_accepts.bind_ok.mp hg
  rw [EStateM.guarded_eq_ok] at hg
  obtain ⟨_, _, reasonCode, rfl, rfl, hr⟩ := Cursor.readU8_accepts.bind_ok.mp hg.right
  rw [EStateM.guarded_eq_ok, EStateM.guarded_eq_ok] at hr
  obtain ⟨_, hz, hr⟩ := hr
  obtain ⟨propBytes, rest, props, rfl, hp, hr⟩ := (decodeInner_accepts (some .connAck)).bind_ok.mp hr
  rw [EStateM.bind_ok (EStateM.get_apply _)] at hr
  beta_reduce at hr
  rw [EStateM.guarded_eq_ok] at hr
  obtain ⟨he, hr⟩ := hr
  cases hr
  have hrest : rest = [] := by simpa using he
  refine ⟨first, propBytes, by simp [hrest], rfl, ?_, hp⟩
  simpa [not_and] using hz

end ConnAckPacket
end MqttWasi
