import MqttWasi.Codec.Properties
import MqttWasi.Codec.Theorems.Encoders

namespace MqttWasi

open Cursor (Reads readU8_reads readU16_reads readU32_reads readString_reads readBinary_reads
  readVariableInt_reads)

theorem validateProperty_hasTypeOf {id : PropertyId} {val : PropertyValue}
    (h : validateProperty id val = .ok u) : val.hasTypeOf id := by
  by_contra hc
  unfold validateProperty at h
  rw [if_pos (by simpa using hc)] at h
  cases h

-- A value is read back by the decoder of the property whose wire type it has.
theorem PropertyValue.encode_reads {val : PropertyValue} {id : PropertyId} (ht : val.hasTypeOf id)
    (he : val.encode buf = .ok u buf') :
    ∃ bytes, buf' = buf ++ bytes ∧ Reads (PropertyValue.decode id) bytes val := by
  cases val <;> simp only [PropertyValue.encode, EStateM.bind_eq_ok, extend_apply, encodeU16_apply,
    encodeString_eq_ok, encodeBinary_eq_ok, EStateM.Result.ok.injEq] at he
  case byte b =>
    refine ⟨[b], he.right.symm, ?_⟩
    cases id <;> simp [hasTypeOf] at ht <;> exact (readU8_reads b).map _
  case u16 v =>
    refine ⟨_, he.right.symm, ?_⟩
    cases id <;> simp [hasTypeOf] at ht <;> exact (readU16_reads v).map _
  case u32 v =>
    refine ⟨_, he.right.symm, ?_⟩
    cases id <;> simp [hasTypeOf] at ht <;> exact (readU32_reads v).map _
  case str s =>
    have ⟨hl, h0, hb⟩ := he
    refine ⟨_, hb, ?_⟩
    cases id <;> simp [hasTypeOf] at ht <;> exact (readString_reads hl h0).map _
  case binary data =>
    have ⟨hl, hb⟩ := he
    refine ⟨_, hb, ?_⟩
    cases id <;> simp [hasTypeOf] at ht
    exact (readBinary_reads hl).map _
  case stringPair k v =>
    have ⟨_, _, ⟨hkl, hk0, hkb⟩, hvl, hv0, hvb⟩ := he
    refine ⟨_, by rw [hvb, hkb, List.append_assoc], ?_⟩
    cases id <;> simp [hasTypeOf] at ht
    exact (readString_reads hkl hk0).bind <| (readString_reads hvl hv0).map _

namespace Properties

-- The identifiers a decoder has seen after the given entries.
def seenIds (entries : List (PropertyId × PropertyValue)) : Bytes :=
  entries.map (·.1.toU8)

theorem registerPropertyId_seenIds {previous : List (PropertyId × PropertyValue)} {id : PropertyId}
    (h : ¬(id ≠ .userProperty ∧ previous.any (·.1 = id))) :
    registerPropertyId (seenIds previous) id.toU8 context = .ok (seenIds previous ++ [id.toU8]) := by
  by_cases hu : id = .userProperty
  case pos => simp [registerPropertyId, hu]
  case neg =>
    have hs : id.toU8 ∉ seenIds previous := by
      simp [hu] at h
      simpa [seenIds] using h
    simp [registerPropertyId, hs]

-- One entry, where the decoder has to find its end at `stop` or before it.
theorem encodeEntry_reads {previous : List (PropertyId × PropertyValue)} {id : PropertyId}
    {val : PropertyValue} (he : encodeEntry context previous id val buf = .ok u buf') :
    ∃ bytes, buf' = buf ++ bytes ∧ bytes ≠ [] ∧
      ∀ pre rest stop, pre.length + bytes.length ≤ stop →
        decodeEntry context stop (seenIds previous) (.at pre (bytes ++ rest)) =
          .ok (seenIds (previous ++ [(id, val)]), some (id, val)) (.at (pre ++ bytes) rest) := by
  have hi : id.toU8.toUInt32.toNat < 128 := by cases id <;> decide
  simp only [encodeEntry] at he
  split at he
  case isTrue => simp [EStateM.bind_apply] at he
  case isFalse hc =>
  simp only [EStateM.bind_eq_ok, check_eq_ok] at he
  have ⟨_, _, ⟨hv, rfl⟩, he⟩ := he
  split at he
  case isTrue => simp [EStateM.bind_apply] at he
  case isFalse hd =>
  simp only [EStateM.bind_eq_ok, encodeVariableInt_eq_ok] at he
  have ⟨_, _, ⟨hm, rfl⟩, he⟩ := he
  have ⟨value, hb, hr⟩ := PropertyValue.encode_reads (validateProperty_hasTypeOf hv) he
  refine ⟨Base128.encode id.toU8.toUInt32.toNat ++ value, ?_, ?_, ?_⟩
  · rw [hb, List.append_assoc]
  · simp [Base128.encode_ne_nil]
  intro pre rest stop hs
  have hrd := readVariableInt_reads hm pre (value ++ rest)
  simp only [UInt32.ofNat_toNat] at hrd
  have hid : id.toU8.toUInt32.toUInt8 = id.toU8 := by simp
  have hna : id.toU8 ≠ 0x23 := by cases id <;> decide
  have hff : ¬id.toU8.toUInt32 > 0xFF := by cases id <;> decide
  have hp := hr (pre ++ Base128.encode id.toU8.toUInt32.toNat) rest
  rw [decodeEntry, List.append_assoc, EStateM.bind_ok hrd]
  simp only [hid, hff, hna, hc, if_false, Bool.false_eq_true, registerPropertyId_seenIds hd,
    PropertyId.fromU8_toU8]
  simp only [EStateM.bind_apply, check_ok, hp, EStateM.ite_apply, EStateM.get_apply]
  simp [hv, seenIds]
  simpa [Nat.add_assoc] using hs

-- Every entry takes at least one byte, so the declared length is enough rounds for all of them.
theorem encodeEntries_reads {entries previous : List (PropertyId × PropertyValue)}
    (he : encodeEntries context previous entries buf = .ok u buf') :
    ∃ bytes, buf' = buf ++ bytes ∧
      ∀ pre rest rounds props, bytes.length ≤ rounds →
        decodeEntries context (pre.length + bytes.length) rounds (seenIds previous) props
            (.at pre (bytes ++ rest)) =
          .ok { entries := props.entries ++ entries } (.at (pre ++ bytes) rest) := by
  induction entries generalizing previous buf
  case nil =>
    simp only [encodeEntries, EStateM.pure_apply, EStateM.Result.ok.injEq] at he
    refine ⟨[], by simp [he.right], ?_⟩
    intro pre rest rounds props _
    cases rounds <;> simp [decodeEntries, EStateM.bind_apply]
  case cons entry entries ih =>
    simp only [encodeEntries, EStateM.bind_eq_ok] at he
    have ⟨_, _, he₁, he₂⟩ := he
    have ⟨bytes₁, hb₁, hne, hr₁⟩ := encodeEntry_reads he₁
    have ⟨bytes₂, hb₂, hr₂⟩ := ih he₂
    refine ⟨bytes₁ ++ bytes₂, by rw [hb₂, hb₁, List.append_assoc], ?_⟩
    intro pre rest rounds props hl
    have hpos := List.length_pos_iff.mpr hne
    rw [List.length_append] at hl
    cases rounds
    case zero => omega
    case succ rounds =>
      have hd := hr₁ pre (bytes₂ ++ rest) (pre.length + (bytes₁ ++ bytes₂).length) (by simp)
      have hs := hr₂ (pre ++ bytes₁) rest rounds (props.push entry.1 entry.2) (by omega)
      have hc : pre.length < pre.length + (bytes₁ ++ bytes₂).length := by simp; omega
      simp only [List.length_append, Nat.add_assoc] at hs
      rw [List.length_append] at hc hd
      rw [List.length_append, decodeEntries, EStateM.bind_ok (EStateM.get_apply _), Cursor.at_pos,
        if_pos hc, List.append_assoc, EStateM.bind_ok hd]
      simp only [hs]
      simp [push]

-- A body below 4 GiB has the length that is written in front of it.
theorem encodeInner_reads {props : Properties} (he : props.encodeInner context buf = .ok u buf') :
    ∃ bytes, buf' = buf ++ bytes ∧
      (bytes.length < 2 ^ 32 → Reads (decodeInner context) bytes props) := by
  simp only [encodeInner, EStateM.bind_eq_ok, check_eq_ok, EncodeM.bytes_eq_ok,
    encodeVariableInt_eq_ok, extend_apply, EStateM.Result.ok.injEq] at he
  have ⟨body, _, ⟨he, rfl⟩, _, _, ⟨hm, rfl⟩, _, hb⟩ := he
  have ⟨bytes, hbody, hr⟩ := encodeEntries_reads he
  rw [List.nil_append] at hbody
  subst hbody
  refine ⟨Base128.encode (UInt32.ofNat body.length).toNat ++ body, ?_, ?_⟩
  · rw [← hb, List.append_assoc]
  intro hlt
  have hl : (UInt32.ofNat body.length).toNat = body.length := by simp at hlt ⊢; omega
  have hv := readVariableInt_reads hm
  refine .bind hv ?_
  intro pre rest
  by_cases hz : body = []
  case pos =>
    have hr := hr pre rest 0 {} (by simp [hz])
    simp [hz, decodeEntries] at hr ⊢
    exact congrArg Properties.mk hr.symm
  case neg =>
    have hpos := List.length_pos_iff.mpr hz
    have hne : UInt32.ofNat body.length ≠ 0 := by intro hc; simp [hc] at hl; omega
    have hr := hr pre rest body.length {} le_rfl
    have hc : ¬(body ++ rest).length < body.length := by simp
    simp only [seenIds, List.map_nil, List.nil_append] at hr
    simp only [hne, if_false, EStateM.bind_apply, EStateM.get_apply, hl, hr,
      Cursor.at_remaining, Cursor.at_pos, hc]
    simp

-- A property that is replaced has the new value, and the others have theirs.

theorem find_replaceSingle (props : Properties) (id : PropertyId) (value)
    {proj : PropertyValue → Option α} (h : proj value = some a) :
    (props.replaceSingle id value).find id proj = some a := by
  have hn : ({ entries := props.entries.filter (·.1 ≠ id) } : Properties).find id proj = none := by
    rw [find, List.findSome?_eq_none_iff]
    intro entry hm
    have hp := (List.mem_filter.mp hm).right
    simp only [ne_eq, decide_not, Bool.not_eq_true', decide_eq_false_iff_not] at hp
    exact if_neg hp
  rw [find] at hn
  simp only [find, replaceSingle, List.findSome?_append, hn, Option.none_or]
  simp [h]

theorem find_replaceSingle_ne (props : Properties) {id id' : PropertyId} (h : id' ≠ id)
    (value) (proj : PropertyValue → Option α) :
    (props.replaceSingle id' value).find id proj = props.find id proj := by
  have ⟨entries⟩ := props
  simp only [find, replaceSingle, List.findSome?_append, List.findSome?_singleton, if_neg h,
    Option.or_none]
  induction entries
  case nil => rfl
  case cons entry entries ih =>
    have ⟨pid, val⟩ := entry
    by_cases hp : pid = id'
    case pos =>
      subst hp
      rw [List.filter_cons_of_neg (by simp), ih, List.findSome?_cons, if_neg h]
    case neg =>
      rw [List.filter_cons_of_pos (by simpa using hp), List.findSome?_cons, List.findSome?_cons,
        ih]

theorem filter_replaceSingle (props : Properties) (id : PropertyId) (value) :
    (props.replaceSingle id value).entries.filter (·.1 = id) = [(id, value)] := by
  have hn : (props.entries.filter (·.1 ≠ id)).filter (·.1 = id) = [] := by
    rw [List.filter_filter, List.filter_eq_nil_iff]
    simp
  rw [replaceSingle, List.filter_append, hn]
  simp

-- The other entries stay as they are.
theorem filter_replaceSingle_ne (props : Properties) {id : PropertyId} (value)
    {p : PropertyId × PropertyValue → Bool} (h : ∀ value, p (id, value) = false) :
    (props.replaceSingle id value).entries.filter p = props.entries.filter p := by
  rw [replaceSingle, List.filter_append, List.filter_cons_of_neg (by simp [h]), List.filter_nil,
    List.append_nil, List.filter_filter]
  refine List.filter_congr fun entry _ => ?_
  by_cases he : entry.1 = id
  case pos =>
    obtain ⟨id', value'⟩ := entry
    cases he
    simp [h]
  case neg => simp [he]

end Properties
end MqttWasi
