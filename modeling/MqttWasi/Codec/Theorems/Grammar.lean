import MqttWasi.Codec.Theorems.Readers
import MqttWasi.Codec.Theorems.Properties

namespace MqttWasi

open Cursor (Accepts)

theorem VariableInt.ne_nil (h : VariableInt bytes v) : bytes ≠ [] :=
  h.right.ne_nil

theorem WireEntry.Written.ne_nil (h : WireEntry.Written context bytes entry) : bytes ≠ [] := by
  have ⟨_, _, _, hb, hi, _⟩ := h.layout
  have := VariableInt.ne_nil hi
  simp [hb, this]

theorem registerPropertyId_eq_ok {id : UInt8} : registerPropertyId seen id context = .ok seen' ↔
    (id ∈ seen → Repeatable context id) ∧ seen' = seen ++ [id] := by
  have hr : (id == PropertyId.userProperty.toU8 ||
      (id == 0x0B && (context == none || context == some .publish))) = true ↔
      Repeatable context id := by
    simp [Repeatable, PropertyId.toU8]
  unfold registerPropertyId
  generalize (id == _ || _) = repeatable at hr
  cases repeatable <;> by_cases hm : id ∈ seen <;> simp [hm, ← hr, eq_comm]

-- The values of the properties with a typed interface.

theorem isEmpty_eq_false_iff (s : String) : s.isEmpty = false ↔ s ≠ "" := by
  simp

theorem hasWildcard_eq_false_iff (s : List Char) :
    hasWildcard s = false ↔ ∀ c ∈ s, c ≠ '#' ∧ c ≠ '+' := by
  simp [hasWildcard]

theorem validateTopicName_eq_ok : validateTopicName topic = .ok u ↔
    topic ≠ "" ∧ ∀ c ∈ topic.toList, c ≠ '#' ∧ c ≠ '+' := by
  rw [validateTopicName, ← hasWildcard_eq_false_iff, ← isEmpty_eq_false_iff]
  cases topic.isEmpty <;> cases hasWildcard topic.toList <;> simp

theorem validateProperty_eq_ok {id : PropertyId} {value : PropertyValue}
    (ht : value.hasTypeOf id = true) :
    validateProperty id value = .ok u ↔ (WireValue.typed value).Legal id.toU8 := by
  have hb (v : UInt8) (e : Error) : (if v > 1 then .error e else .ok () : Except Error Unit) = .ok u ↔
      v = 0 ∨ v = 1 := by
    rw [← UInt8.not_gt_one_iff]
    split <;> simp [*]
  cases value <;> cases id <;> simp [PropertyValue.hasTypeOf] at ht <;>
    simp [validateProperty, PropertyValue.hasTypeOf, WireValue.Legal, PropertyId.toU8, hb,
      validateTopicName_eq_ok]

-- A reader of the values of some type.
def WireType.read : WireType → CursorM WireValue
  | byte                => return .typed (.byte (← Cursor.readU8))
  | twoByteInteger      => return .typed (.u16 (← Cursor.readU16))
  | fourByteInteger     => return .typed (.u32 (← Cursor.readU32))
  | variableByteInteger => return .variableInt (← Cursor.readVariableInt)
  | utf8String          => return .typed (.str (← Cursor.readString))
  | binaryData          => return .typed (.binary (← Cursor.readBinary))
  | utf8StringPair      => do
    let k ← Cursor.readString
    let v ← Cursor.readString
    return .typed (.stringPair k v)

theorem WireType.read_accepts (t : WireType) : Accepts t.read (WireValue.Written t) := by
  have hr {α : Type} {L : Bytes → α → Prop} {x : CursorM α} {f : α → WireValue} (hx : Accepts x L)
      (hw : ∀ bytes value, (∃ a, L bytes a ∧ value = f a) ↔ WireValue.Written t bytes value) :
      Accepts (x >>= fun a => pure (f a)) (WireValue.Written t) := by
    rw [← map_eq_pure_bind]
    exact (hx.map f).congr hw
  cases t
  case byte =>
    refine hr Cursor.readU8_accepts fun bytes value => ⟨?_, fun h => ?_⟩
    case refine_1 => rintro ⟨v, rfl, rfl⟩; exact .byte v
    case refine_2 => cases h; exact ⟨_, rfl, rfl⟩
  case twoByteInteger =>
    refine hr Cursor.readU16_accepts fun bytes value => ⟨?_, fun h => ?_⟩
    case refine_1 => rintro ⟨v, rfl, rfl⟩; exact .u16 v
    case refine_2 => cases h; exact ⟨_, rfl, rfl⟩
  case fourByteInteger =>
    refine hr Cursor.readU32_accepts fun bytes value => ⟨?_, fun h => ?_⟩
    case refine_1 => rintro ⟨v, rfl, rfl⟩; exact .u32 v
    case refine_2 => cases h; exact ⟨_, rfl, rfl⟩
  case variableByteInteger =>
    refine hr Cursor.readVariableInt_accepts fun bytes value => ⟨?_, fun h => ?_⟩
    case refine_1 => rintro ⟨v, hv, rfl⟩; exact .variableInt hv
    case refine_2 => cases h with | variableInt hv => exact ⟨_, hv, rfl⟩
  case utf8String =>
    refine hr Cursor.readString_accepts fun bytes value => ⟨?_, fun h => ?_⟩
    case refine_1 => rintro ⟨s, hs, rfl⟩; exact .str hs
    case refine_2 => cases h with | str hs => exact ⟨_, hs, rfl⟩
  case binaryData =>
    refine hr Cursor.readBinary_accepts fun bytes value => ⟨?_, fun h => ?_⟩
    case refine_1 => rintro ⟨data, hd, rfl⟩; exact .binary hd
    case refine_2 => cases h with | binary hd => exact ⟨_, hd, rfl⟩
  case utf8StringPair =>
    refine (Cursor.readString_accepts.bind fun k =>
      Cursor.readString_accepts.bind fun v => .pure _).congr fun bytes value => ⟨?_, fun h => ?_⟩
    case refine_1 =>
      rintro ⟨k, _, _, rfl, hk, v, _, _, rfl, hv, rfl, rfl⟩
      simpa using .stringPair hk hv
    case refine_2 =>
      cases h with
      | stringPair hk hv =>
        exact ⟨_, _, _, rfl, hk, _, _, [], (List.append_nil _).symm, hv, rfl, rfl⟩

theorem PropertyValue.typed_decode (id : PropertyId) :
    ∃ t, wireType id.toU8 = some t ∧ WireValue.typed <$> PropertyValue.decode id = t.read := by
  cases id <;> refine ⟨_, rfl, ?_⟩ <;> simp [PropertyValue.decode, WireType.read]

theorem WireValue.Written.hasTypeOf {id : PropertyId} (ht : wireType id.toU8 = some t)
    (h : WireValue.Written t bytes (.typed value)) : value.hasTypeOf id = true := by
  cases id <;> cases ht <;> cases h <;> rfl

theorem PropertyValue.decode_accepts (id : PropertyId) : Accepts (PropertyValue.decode id)
    fun bytes value => ∃ t, wireType id.toU8 = some t ∧ (WireValue.typed value).Written t bytes := by
  obtain ⟨t, ht, hd⟩ := PropertyValue.typed_decode id
  have h := t.read_accepts
  rw [← hd] at h
  refine (h.of_map fun _ _ => WireValue.typed.inj).congr fun bytes value => ?_
  simp [ht]

-- The others are read as values of their type, and all but two of them are not looked at.
-- The values of a property without one are skipped if they are legal.
def SkipsLegal (id : UInt8) : Prop :=
  Accepts (skipPropertyValue id) fun bytes _ =>
    ∃ t value, wireType id = some t ∧ WireValue.Written t bytes value ∧ value.Legal id

-- A value that has to meet some condition.
theorem skipPropertyValue_accepts_if {id : UInt8} {L : Bytes → α → Prop} {x : CursorM α}
    (hx : Accepts x L) (f : α → WireValue) (c : α → Prop) [DecidablePred c] (e : Error)
    (hs : skipPropertyValue id = x >>= fun a => if c a then throw e else pure ())
    {t : WireType} (ht : wireType id = some t)
    (hw : ∀ bytes value, WireValue.Written t bytes value ↔ ∃ a, L bytes a ∧ value = f a)
    (hl : ∀ a, (f a).Legal id ↔ ¬c a) : SkipsLegal id := by
  rw [SkipsLegal, hs]
  refine (hx.bind fun a => .ite (c := c a) (fun _ => .throw e) fun _ => .pure ()).congr
    fun bytes _ => ⟨?_, ?_⟩
  case refine_1 =>
    rintro ⟨a, xs, ys, rfl, hx, h⟩
    cases h
    case inl h => exact h.right.elim
    case inr h =>
      obtain ⟨hc, rfl, _⟩ := h
      rw [List.append_nil]
      exact ⟨t, f a, ht, (hw xs _).mpr ⟨a, hx, rfl⟩, (hl a).mpr hc⟩
  case refine_2 =>
    rintro ⟨t', value, ht', hv, hc⟩
    rw [ht, Option.some.injEq] at ht'
    subst ht'
    obtain ⟨a, hx, rfl⟩ := (hw bytes _).mp hv
    exact ⟨a, bytes, [], by simp, hx, .inr ⟨(hl a).mp hc, rfl, rfl⟩⟩

-- A value that may be any.
theorem skipPropertyValue_accepts_any {id : UInt8} {t : WireType} {x : CursorM α}
    {f : α → WireValue} (hr : t.read = f <$> x) (hs : skipPropertyValue id = discard x)
    (ht : wireType id = some t)
    (hl : ∀ bytes value, WireValue.Written t bytes value → value.Legal id) : SkipsLegal id := by
  have hd : discard t.read = discard x := by
    rw [hr]
    funext cur
    change ((fun _ => ()) <$> f <$> x) cur = ((fun _ => ()) <$> x) cur
    simp only [EStateM.map_apply]
    cases x cur <;> rfl
  rw [SkipsLegal, hs, ← hd]
  refine t.read_accepts.discard.congr fun bytes _ => ⟨?_, ?_⟩
  case refine_1 =>
    rintro ⟨value, hw⟩
    exact ⟨t, value, ht, hw, hl bytes value hw⟩
  case refine_2 =>
    rintro ⟨t', value, ht', hw, _⟩
    rw [ht, Option.some.injEq] at ht'
    exact ⟨value, ht' ▸ hw⟩

-- The other values are read as values of their type, and all but three of them are not looked at.

theorem skipPropertyValue_accepts_byte : ∀ id ∈ [0x01, 0x29], SkipsLegal id := by
  intro id h
  have hw (bytes : Bytes) (value) : WireValue.Written .byte bytes value ↔
      ∃ v, bytes = [v] ∧ value = .typed (.byte v) := by
    constructor
    case mp => intro h; cases h; exact ⟨_, rfl, rfl⟩
    case mpr => rintro ⟨v, rfl, rfl⟩; exact .byte v
  fin_cases h <;>
    refine skipPropertyValue_accepts_if Cursor.readU8_accepts _ (· > 1) _ rfl rfl hw fun v => ?_ <;>
    rw [UInt8.not_gt_one_iff] <;>
    simp [WireValue.Legal]

theorem skipPropertyValue_accepts_subscriptionIdentifier : SkipsLegal 0x0B := by
  have hw (bytes : Bytes) (value) : WireValue.Written .variableByteInteger bytes value ↔
      ∃ v, VariableInt bytes v ∧ value = .variableInt v := by
    constructor
    case mp => intro h; cases h with | variableInt h => exact ⟨_, h, rfl⟩
    case mpr => rintro ⟨v, h, rfl⟩; exact .variableInt h
  refine skipPropertyValue_accepts_if Cursor.readVariableInt_accepts _ (· = 0) _ rfl rfl hw fun v => ?_
  simp [WireValue.Legal]

theorem skipPropertyValue_accepts_rest :
    ∀ id ∈ [0x02, 0x03, 0x15, 0x16, 0x17, 0x18, 0x19, 0x1A, 0x1C], SkipsLegal id := by
  intro id h
  fin_cases h
  all_goals
    refine skipPropertyValue_accepts_any rfl rfl rfl fun bytes value hv => ?_
    cases hv
    simp [WireValue.Legal]

theorem skipPropertyValue_accepts_unknown {id : UInt8} (ht : wireType id = none) : SkipsLegal id := by
  have hs : skipPropertyValue id = throw (.malformedPacket "unknown property id") := by
    unfold wireType at ht
    split at ht
    case h_28 => simp_all [skipPropertyValue]
    all_goals cases ht
  rw [SkipsLegal, hs]
  exact (Accepts.throw _).congr fun _ _ => by simp [ht]

-- The identifiers in the order of the cases above.
theorem propertyId_cases : ∀ id : UInt8, (PropertyId.fromU8 id).isSome ∨ id = 0x23 ∨
    id ∈ [0x01, 0x29] ∨ id = 0x0B ∨ id ∈ [0x02, 0x03, 0x15, 0x16, 0x17, 0x18, 0x19, 0x1A, 0x1C] ∨
    wireType id = none := by
  refine UInt8.forall_of_lt ?_
  decide +kernel

theorem skipPropertyValue_accepts {id : UInt8} (hi : PropertyId.fromU8 id = none) (hn : id ≠ 0x23) :
    SkipsLegal id := by
  obtain h | h | h | rfl | h | h := propertyId_cases id
  · simp [hi] at h
  · exact absurd h hn
  · exact skipPropertyValue_accepts_byte id h
  · exact skipPropertyValue_accepts_subscriptionIdentifier
  · exact skipPropertyValue_accepts_rest id h
  · exact skipPropertyValue_accepts_unknown h

theorem PropertyId.toU8_of_fromU8 {id : UInt8} (h : fromU8 id = some pid) : id = pid.toU8 := by
  unfold fromU8 at h
  split at h <;> cases h <;> rfl

-- The check that follows every value.
theorem within_eq_ok {x : CursorM α} : (do
      if (← get).pos > stop then
        throw e
      x : CursorM α) (.at pre rest) = .ok a cur ↔
    pre.length ≤ stop ∧ x (.at pre rest) = .ok a cur := by
  rw [EStateM.bind_ok (EStateM.get_apply _)]
  beta_reduce
  rw [EStateM.guarded_eq_ok, Cursor.at_pos, gt_iff_lt, Nat.not_lt]

theorem WireValue.Written.typed {id : PropertyId} (ht : wireType id.toU8 = some t)
    (h : WireValue.Written t bytes value) : ∃ v, value = .typed v := by
  cases h
  case variableInt => cases id <;> cases ht
  all_goals exact ⟨_, rfl⟩

-- The value behind an identifier, which has to end at `stop` or before it.
theorem decodeEntry_value {id : UInt8} (hn : id ≠ 0x23) {r : Bytes × Option (PropertyId × PropertyValue)} :
    (match PropertyId.fromU8 id with
      | none => do
        skipPropertyValue id
        if (← get).pos > stop then
          throw (.malformedPacket "property exceeded declared length")
        return (seen, none)
      | some id => do
        let value ← PropertyValue.decode id
        if (← get).pos > stop then
          throw (.malformedPacket "property exceeded declared length")
        check (validateProperty id value)
        return (seen, some (id, value)) : CursorM _) (.at pre s) = .ok r cur ↔
      ∃ bytes rest t value, s = bytes ++ rest ∧ wireType id = some t ∧
        WireValue.Written t bytes value ∧ value.Legal id ∧ pre.length + bytes.length ≤ stop ∧
        r = (seen, ({ id, value } : WireEntry).typed?) ∧ cur = .at (pre ++ bytes) rest := by
  cases hi : PropertyId.fromU8 id
  case none =>
    have ht (value : WireValue) : ({ id, value } : WireEntry).typed? = none := by
      simp [WireEntry.typed?, hi]
    dsimp only
    simp only [(skipPropertyValue_accepts hi hn).bind_ok, within_eq_ok, EStateM.pure_apply,
      EStateM.Result.ok.injEq, List.length_append, ht, ]
    constructor
    case mp =>
      rintro ⟨bytes, rest, _, hs, ⟨t, value, ht, hw, hl⟩, hp, hr, hc⟩
      exact ⟨bytes, rest, t, value, hs, ht, hw, hl, hp, hr.symm, hc.symm⟩
    case mpr =>
      rintro ⟨bytes, rest, t, value, hs, ht, hw, hl, hp, hr, hc⟩
      exact ⟨bytes, rest, (), hs, ⟨t, value, ht, hw, hl⟩, hp, hr.symm, hc.symm⟩
  case some pid =>
    obtain rfl := PropertyId.toU8_of_fromU8 hi
    have ht (value : PropertyValue) :
        ({ id := pid.toU8, value := .typed value } : WireEntry).typed? = some (pid, value) := by
      simp [WireEntry.typed?]
    dsimp only
    simp only [(PropertyValue.decode_accepts pid).bind_ok, within_eq_ok]
    simp only [EStateM.bind_eq_ok, check_eq_ok, EStateM.pure_apply, EStateM.Result.ok.injEq,
      List.length_append]
    constructor
    case mp =>
      rintro ⟨bytes, rest, value, hs, ⟨t, hw, hv⟩, hp, _, _, ⟨hc, rfl⟩, rfl, rfl⟩
      have hl := (validateProperty_eq_ok (hv.hasTypeOf hw)).mp hc
      exact ⟨bytes, rest, t, .typed value, hs, hw, hv, hl, hp, by rw [ht], rfl⟩
    case mpr =>
      rintro ⟨bytes, rest, t, value, hs, hw, hv, hl, hp, hr, rfl⟩
      obtain ⟨value, rfl⟩ := hv.typed hw
      have hc := (validateProperty_eq_ok (u := ()) (hv.hasTypeOf hw)).mpr hl
      exact ⟨bytes, rest, value, hs, ⟨t, hw, hv⟩, hp, (), _, ⟨hc, rfl⟩, by rw [hr, ht], rfl⟩

theorem allows_iff {context : Option PropertyContext} {id : UInt8} :
    ¬context.any (!·.allows id) = true ↔ ∀ c, context = some c → c.allows id := by
  cases context <;> simp

theorem decodeEntry_eq_ok {r : Bytes × Option (PropertyId × PropertyValue)} :
    Properties.decodeEntry context stop seen (.at pre s) = .ok r cur ↔
      ∃ bytes rest entry, s = bytes ++ rest ∧ WireEntry.Written context bytes entry ∧
        (entry.id ∈ seen → Repeatable context entry.id) ∧ pre.length + bytes.length ≤ stop ∧
        r = (seen ++ [entry.id], entry.typed?) ∧ cur = .at (pre ++ bytes) rest := by
  have hid {rawId : UInt32} (h : ¬rawId > 0xFF) : rawId.toUInt8.toUInt32 = rawId := by
    have h := UInt32.le_iff_toNat_le.mp (UInt32.not_lt.mp h)
    apply UInt32.toNat_inj.mp
    simp at h ⊢
    omega
  unfold Properties.decodeEntry
  rw [Cursor.readVariableInt_accepts.bind_ok]
  constructor
  case mp =>
    rintro ⟨idBytes, s', rawId, rfl, hi, h⟩
    rw [EStateM.guarded_eq_ok, EStateM.guarded_eq_ok, EStateM.guarded_eq_ok, allows_iff] at h
    have ⟨hff, hn, ha, h⟩ := h
    have ⟨_, _, hc, h⟩ := EStateM.bind_eq_ok.mp h
    obtain ⟨hg, rfl⟩ := check_eq_ok.mp hc
    obtain ⟨hs, rfl⟩ := registerPropertyId_eq_ok.mp hg
    obtain ⟨bytes, rest, t, value, rfl, ht, hw, hl, hp, rfl, rfl⟩ := (decodeEntry_value hn).mp h
    rw [← hid hff] at hi
    refine ⟨idBytes ++ bytes, rest, { id := rawId.toUInt8, value }, ?_, ?_, hs, ?_, rfl, ?_⟩
    case refine_1 => simp
    case refine_2 =>
      exact { layout := ⟨idBytes, bytes, t, rfl, hi, ht, hw⟩, known := hn, allowed := ha, legal := hl }
    case refine_3 => simpa [Nat.add_assoc] using hp
    case refine_4 => simp
  case mpr =>
    rintro ⟨_, rest, entry, rfl, ⟨⟨idBytes, bytes, t, rfl, hi, ht, hw⟩, hn, ha, hl⟩, hs, hp, rfl, rfl⟩
    refine ⟨idBytes, bytes ++ rest, entry.id.toUInt32, by simp, hi, ?_⟩
    have hu : entry.id.toUInt32.toUInt8 = entry.id := by simp
    have hff : ¬entry.id.toUInt32 > 0xFF := by
      rw [gt_iff_lt, UInt32.lt_iff_toNat_lt]
      have := entry.id.toNat_lt
      simp
      omega
    rw [EStateM.guarded_eq_ok, EStateM.guarded_eq_ok, EStateM.guarded_eq_ok, allows_iff, hu]
    refine ⟨hff, hn, ha, ?_⟩
    rw [registerPropertyId_eq_ok.mpr ⟨hs, rfl⟩, EStateM.bind_ok (check_ok _ _)]
    refine (decodeEntry_value hn).mpr ⟨bytes, rest, t, entry.value, rfl, ht, hw, hl, ?_, rfl, ?_⟩
    case refine_1 => simpa [Nat.add_assoc] using hp
    case refine_2 => simp

theorem Entries.eq_nil (h : Entries context [] entries) : entries = [] := by
  generalize hb : ([] : Bytes) = bytes at h
  cases h
  case nil => rfl
  case cons hw _ => exact absurd (List.append_eq_nil_iff.mp hb.symm).left hw.ne_nil

-- Entries that may follow entries with the identifiers `seen`.
structure Unrepeated (context : Option PropertyContext) (seen : Bytes) (entries : List WireEntry) :
    Prop where
  unseen : ∀ entry ∈ entries, entry.id ∈ seen → Repeatable context entry.id
  pairwise : entries.Pairwise fun a b => a.id = b.id → Repeatable context a.id

theorem Unrepeated.nil (context seen) : Unrepeated context seen [] :=
  ⟨by simp, .nil⟩

theorem Unrepeated.cons_iff : Unrepeated context seen (entry :: entries) ↔
    (entry.id ∈ seen → Repeatable context entry.id) ∧
      Unrepeated context (seen ++ [entry.id]) entries := by
  constructor
  case mp =>
    intro ⟨hu, hp⟩
    have ⟨hh, ht⟩ := List.pairwise_cons.mp hp
    refine ⟨hu entry (by simp), fun entry' hm hi => ?_, ht⟩
    cases List.mem_append.mp hi
    case inl hi => exact hu entry' (by simp [hm]) hi
    case inr hi =>
      have hi := List.mem_singleton.mp hi
      exact hi ▸ hh entry' hm hi.symm
  case mpr =>
    intro ⟨hh, hu, hp⟩
    constructor
    case unseen =>
      intro entry' hm hi
      cases List.mem_cons.mp hm
      case inl he => exact he ▸ hh (he ▸ hi)
      case inr hm => exact hu entry' hm (by simp [hi])
    case pairwise =>
      refine List.pairwise_cons.mpr ⟨fun entry' hm hi => ?_, hp⟩
      rw [hi]
      exact hu entry' hm (by simp [hi])

-- A property without a typed interface is left out of the list.
theorem decodeEntries_succ : Properties.decodeEntries context stop (rounds + 1) seen props = (do
    if (← get).pos < stop then
      let read ← Properties.decodeEntry context stop seen
      Properties.decodeEntries context stop rounds read.1 ⟨props.entries ++ read.2.toList⟩
    else
      return props) := by
  rw [Properties.decodeEntries]
  refine bind_congr fun cur => ?_
  split
  case isFalse => rfl
  case isTrue =>
    refine bind_congr fun read => ?_
    cases he : read.2 <;> simp only [he, Properties.push] <;> simp

theorem decodeEntries_eq_ok (hs : pre.length ≤ stop) (hr : stop ≤ pre.length + rounds) :
    (Properties.decodeEntries context stop rounds seen props (.at pre s) = .ok props' cur ∧
        cur.pos = stop) ↔
      ∃ bytes rest entries, s = bytes ++ rest ∧ pre.length + bytes.length = stop ∧
        Entries context bytes entries ∧ Unrepeated context seen entries ∧
        props' = ⟨props.entries ++ entries.filterMap WireEntry.typed?⟩ ∧
        cur = .at (pre ++ bytes) rest := by
  have hend {pre s seen} {props : Properties} (hp : pre.length = stop) :
      ((.ok props (.at pre s) : EStateM.Result Error Cursor Properties) = .ok props' cur ∧
        cur.pos = stop) ↔ ∃ bytes rest entries, s = bytes ++ rest ∧ pre.length + bytes.length = stop ∧
          Entries context bytes entries ∧ Unrepeated context seen entries ∧
          props' = ⟨props.entries ++ entries.filterMap WireEntry.typed?⟩ ∧
          cur = .at (pre ++ bytes) rest := by
    constructor
    case mp =>
      rintro ⟨h, _⟩
      cases h
      exact ⟨[], s, [], by simp, by simp [hp], .nil, .nil _ _, by simp, by simp⟩
    case mpr =>
      rintro ⟨bytes, rest, entries, rfl, hb, he, _, rfl, rfl⟩
      obtain rfl : bytes = [] := List.length_eq_zero_iff.mp (by omega)
      obtain rfl := he.eq_nil
      simpa using hp
  induction rounds generalizing pre s seen props
  case zero => exact hend (by omega)
  case succ rounds ih =>
    rw [decodeEntries_succ, EStateM.bind_ok (EStateM.get_apply _), Cursor.at_pos]
    split
    case isFalse hlt => exact hend (by omega)
    case isTrue hlt =>
      constructor
      case mp =>
        rintro ⟨h, hc⟩
        obtain ⟨r, _, hd, h⟩ := EStateM.bind_eq_ok.mp h
        obtain ⟨bytes, rest, entry, rfl, hw, hu, hp, rfl, rfl⟩ := decodeEntry_eq_ok.mp hd
        have hpos := List.length_pos_iff.mpr hw.ne_nil
        have hi := (ih (by simpa using hp) (by simp; omega)).mp ⟨h, hc⟩
        obtain ⟨bytes', rest', entries, rfl, hl, he, hu', hprops, hcur⟩ := hi
        refine ⟨bytes ++ bytes', rest', entry :: entries, by simp, ?_, .cons hw he,
          Unrepeated.cons_iff.mpr ⟨hu, hu'⟩, ?_, ?_⟩
        case refine_1 => simpa [Nat.add_assoc] using hl
        case refine_2 => cases ht : entry.typed? <;> simp [hprops, ht]
        case refine_3 => simp [hcur]
      case mpr =>
        rintro ⟨_, rest, _, rfl, hl, he, hu, rfl, rfl⟩
        cases he
        case nil => simp at hl; omega
        case cons bytes entry bytes' entries hw he =>
          obtain ⟨hu, hu'⟩ := Unrepeated.cons_iff.mp hu
          have hp : pre.length + bytes.length ≤ stop := by simp at hl; omega
          have hpos := List.length_pos_iff.mpr hw.ne_nil
          have hd := decodeEntry_eq_ok.mpr
            ⟨bytes, bytes' ++ rest, entry, rfl, hw, hu, hp, rfl, rfl⟩
          rw [List.append_assoc, EStateM.bind_ok hd]
          refine (ih (by simpa using hp) (by simp; omega)).mpr
            ⟨bytes', rest, entries, rfl, by simpa [Nat.add_assoc] using hl, he, hu', ?_, ?_⟩
          case refine_1 => cases ht : entry.typed? <;> simp [ht]
          case refine_2 => simp

-- A length prefix and the section it announces.
def PrefixedSection (context : Option PropertyContext) (bytes : Bytes) (props : Properties) : Prop :=
  ∃ pre body len entries, bytes = pre ++ body ∧ VariableInt pre len ∧ body.length = len.toNat ∧
    PropertySection context body entries ∧ props.entries = entries.filterMap WireEntry.typed?

theorem Unrepeated.iff_section : (Entries context bytes entries ∧ Unrepeated context [] entries) ↔
    PropertySection context bytes entries :=
  ⟨fun ⟨he, hu⟩ => ⟨he, hu.pairwise⟩, fun h => ⟨h.split, by simp, h.unrepeated⟩⟩

-- A section of a known length.
theorem decodeSection_eq_ok : (do
      if (← get).remaining < n then
        throw e
      let stop := (← get).pos + n
      let props ← Properties.decodeEntries context stop n [] {}
      if (← get).pos ≠ stop then
        throw e'
      return props : CursorM Properties) (.at pre s) = .ok props cur ↔
    ∃ body rest entries, s = body ++ rest ∧ body.length = n ∧ PropertySection context body entries ∧
      props.entries = entries.filterMap WireEntry.typed? ∧ cur = .at (pre ++ body) rest := by
  rw [EStateM.bind_ok (EStateM.get_apply _)]
  beta_reduce
  rw [EStateM.guarded_eq_ok, EStateM.bind_ok (EStateM.get_apply _), Cursor.at_remaining, Cursor.at_pos]
  have he : (Properties.decodeEntries context (pre.length + n) n [] {} (.at pre s) = .ok props cur ∧
      cur.pos = pre.length + n) ↔ _ := decodeEntries_eq_ok (by omega) (by omega)
  constructor
  case mp =>
    rintro ⟨_, h⟩
    have ⟨props', cur', hd, h⟩ := EStateM.bind_eq_ok.mp h
    rw [EStateM.bind_ok (EStateM.get_apply _)] at h
    beta_reduce at h
    rw [EStateM.guarded_eq_ok, not_not] at h
    have ⟨hp, h⟩ := h
    cases h
    obtain ⟨body, rest, entries, rfl, hl, hs, hu, rfl, rfl⟩ := he.mp ⟨hd, hp⟩
    exact ⟨body, rest, entries, rfl, by omega, Unrepeated.iff_section.mp ⟨hs, hu⟩, rfl, rfl⟩
  case mpr =>
    rintro ⟨body, rest, entries, rfl, hl, hs, hp, rfl⟩
    have ⟨hs, hu⟩ := Unrepeated.iff_section.mpr hs
    have ⟨hd, hc⟩ := he.mpr ⟨body, rest, entries, rfl, by omega, hs, hu, by simp [← hp], rfl⟩
    refine ⟨by simp; omega, ?_⟩
    rw [EStateM.bind_ok hd, EStateM.bind_ok (EStateM.get_apply _)]
    beta_reduce
    rw [EStateM.guarded_eq_ok, not_not]
    exact ⟨hc, rfl⟩

theorem decodeInner_accepts (context : Option PropertyContext) :
    Accepts (Properties.decodeInner context) (PrefixedSection context) := by
  intro pre s props cur
  unfold Properties.decodeInner
  rw [Cursor.readVariableInt_accepts.bind_ok]
  constructor
  case mp =>
    rintro ⟨lenBytes, s', len, rfl, hv, h⟩
    by_cases hz : len = 0
    case pos =>
      rw [if_pos hz] at h
      cases h
      exact ⟨lenBytes, s', rfl, ⟨lenBytes, [], len, [], by simp, hv, by simp [hz], ⟨.nil, .nil⟩, rfl⟩, rfl⟩
    case neg =>
      rw [if_neg hz] at h
      obtain ⟨body, rest, entries, rfl, hl, hs, hp, rfl⟩ := decodeSection_eq_ok.mp h
      exact ⟨lenBytes ++ body, rest, by simp, ⟨lenBytes, body, len, entries, rfl, hv, hl, hs, hp⟩,
        by simp⟩
  case mpr =>
    rintro ⟨_, rest, rfl, ⟨lenBytes, body, len, entries, rfl, hv, hl, hs, hp⟩, rfl⟩
    refine ⟨lenBytes, body ++ rest, len, by simp, hv, ?_⟩
    by_cases hz : len = 0
    case pos =>
      obtain rfl : body = [] := List.length_eq_zero_iff.mp (by simp [hl, hz])
      obtain rfl := hs.split.eq_nil
      rw [if_pos hz]
      have ⟨_⟩ := props
      cases hp
      simp
    case neg =>
      rw [if_neg hz]
      exact decodeSection_eq_ok.mpr ⟨body, rest, entries, rfl, hl, hs, hp, by simp⟩

-- Where a section ends can be seen from its length prefix.
theorem PrefixedSection.unique {lenBytes body rest bytes rest' : Bytes} (hv : VariableInt lenBytes len)
    (hl : body.length = len.toNat) (hs : lenBytes ++ body ++ rest = bytes ++ rest')
    (h : PrefixedSection context bytes props) : bytes = lenBytes ++ body ∧ rest' = rest := by
  obtain ⟨lenBytes', body', len', entries, rfl, hv', hl', _⟩ := h
  simp only [List.append_assoc] at hs
  obtain ⟨rfl, hn, hs⟩ := hv.right.unique hv'.right hs
  obtain ⟨rfl, rfl⟩ := List.append_inj hs (by rw [hl, hl', hn])
  exact ⟨rfl, rfl⟩

-- The properties that are decoded are those of the section behind the length prefix, and nothing
-- behind the section has an influence on them.
theorem Properties.decodeInner_iff_section (context : Option PropertyContext) (pre s : Bytes) :
    (∀ props cur, decodeInner context (.at pre s) = .ok props cur ↔
      ∃ lenBytes len body rest entries, s = lenBytes ++ body ++ rest ∧ VariableInt lenBytes len ∧
        body.length = len.toNat ∧ PropertySection context body entries ∧
        props.entries = entries.filterMap WireEntry.typed? ∧
        cur = .at (pre ++ lenBytes ++ body) rest) ∧
    ∀ lenBytes len body rest rest' props, s = lenBytes ++ body ++ rest → VariableInt lenBytes len →
      body.length = len.toNat →
        ((∃ cur, decodeInner context (.at pre s) = .ok props cur) ↔
          ∃ cur, decodeInner context (.at pre (lenBytes ++ body ++ rest')) = .ok props cur) := by
  constructor
  case left =>
    intro props cur
    rw [decodeInner_accepts context pre s props cur]
    constructor
    case mp =>
      rintro ⟨_, rest, rfl, ⟨lenBytes, body, len, entries, rfl, hv, hl, hs, hp⟩, rfl⟩
      exact ⟨lenBytes, len, body, rest, entries, rfl, hv, hl, hs, hp, by simp⟩
    case mpr =>
      rintro ⟨lenBytes, len, body, rest, entries, rfl, hv, hl, hs, hp, rfl⟩
      exact ⟨lenBytes ++ body, rest, rfl, ⟨lenBytes, body, len, entries, rfl, hv, hl, hs, hp⟩, by simp⟩
  case right =>
    rintro lenBytes len body rest rest' props rfl hv hl
    have h {rest rest' : Bytes} :
        (∃ cur, decodeInner context (.at pre (lenBytes ++ body ++ rest)) = .ok props cur) →
          ∃ cur, decodeInner context (.at pre (lenBytes ++ body ++ rest')) = .ok props cur := by
      rintro ⟨cur, h⟩
      obtain ⟨bytes, rest'', hs, hp, rfl⟩ := (decodeInner_accepts context _ _ _ _).mp h
      obtain ⟨rfl, rfl⟩ := hp.unique hv hl hs
      exact ⟨_, (decodeInner_accepts context).reads hp pre rest'⟩
    exact ⟨h, h⟩

end MqttWasi
