import MqttWasi.Codec.Checked

namespace MqttWasi.Checked

open Panics (Refines)

namespace Cursor

-- A cursor in the buffer, with no less than `lo` bytes behind it.
structure Within (buf : Bytes) (lo : Nat) (cur : Cursor) : Prop where
  buf_eq : cur.buf = buf
  le_pos : lo ≤ cur.pos
  pos_le : cur.pos ≤ buf.length

namespace Within

theorem inBuffer (h : Within buf lo cur) : InBuffer cur := by
  rw [InBuffer, h.buf_eq]
  exact h.pos_le

theorem mono (h : Within buf lo cur) (hl : lo' ≤ lo) : Within buf lo' cur :=
  { h with le_pos := hl.trans h.le_pos }

theorem self (h : Within buf lo cur) : Within buf cur.pos cur :=
  { h with le_pos := Nat.le_refl _ }

theorem advance (h : Within buf lo cur) (hn : cur.pos + n ≤ buf.length) :
    Within buf (lo + n) (cur.advance n) where
  buf_eq := h.buf_eq
  le_pos := Nat.add_le_add_right h.le_pos n
  pos_le := hn

end Within

-- The checked reader does what the unchecked one does, and takes the cursor from `lo` to `hi`.
abbrev Reads (buf : Bytes) (lo hi : Nat) (x' : CursorM α) (x : MqttWasi.CursorM α) : Prop :=
  Refines InBuffer (Within buf lo) x' x (Within buf hi)

namespace Reads

theorem mono (h : Reads buf lo hi x' x) (hh : hi' ≤ hi) : Reads buf lo hi' x' x :=
  h.weaken (fun _ hs => hs) fun _ hs => hs.mono hh

theorem within (h : Reads buf lo hi x' x) : Reads buf lo hi (Panics.within InBuffer x') x :=
  Refines.within h (fun _ hs => hs.inBuffer) (fun _ hs => hs.inBuffer) fun _ hs => hs

theorem pure (a : α) (h : hi ≤ lo) : Reads buf lo hi (pure a) (pure a) :=
  (Refines.pure a).weaken (fun _ hs => hs) fun _ hs => hs.mono h

theorem throw (e : Error) : Reads (α := α) buf lo hi (throw (.error e)) (throw e) :=
  Refines.throw e fun _ hs => hs.inBuffer

theorem lift (r : Except Error α) : Reads buf lo lo (Panics.lift r) (check r) := by
  cases r
  case ok a => exact pure a (Nat.le_refl _)
  case error e => exact throw e

-- A check in front of what is read next.
theorem guard {c : Prop} [Decidable c] {f' : PUnit → CursorM α} {f : PUnit → MqttWasi.CursorM α}
    (h : ¬c → Reads buf lo hi (f' ⟨⟩) (f ⟨⟩)) :
    Reads buf lo hi (if c then MonadExcept.throw (.error e) >>= f' else f' ⟨⟩)
      (if c then MonadExcept.throw e >>= f else f ⟨⟩) :=
  .ite (fun _ => throw (α := α) e) h

theorem get_bind {f' : Cursor → CursorM α} {f : Cursor → MqttWasi.CursorM α}
    (h : ∀ cur, Within buf lo cur → Reads buf cur.pos hi (f' cur) (f cur)) :
    Reads buf lo hi (get >>= f') (get >>= f) :=
  Refines.get_bind fun cur hs => (h cur hs).weaken (fun _ he => he ▸ hs.self) fun _ hs' => hs'

-- A look at the cursor that only the checked reader takes, for a check that succeeds.
theorem require {p : Cursor → Prop} [DecidablePred p] {x' : CursorM α} (h : Reads buf lo hi x' x)
    (hp : ∀ cur, Within buf lo cur → p cur) :
    Reads buf lo hi (do Panics.require (p (← get)); x') x :=
  Refines.peek_bind fun cur hs => .require_bind (hp cur hs)
    (h.weaken (fun _ (he : _ = cur) => he ▸ hs) fun _ hs' => hs')

theorem discard (h : Reads buf lo hi x' x) (hh : hi' ≤ hi) :
    Reads buf lo hi' (discard x') (discard x) :=
  mono (Refines.discard h) hh

theorem ensure (n : Nat) : Refines InBuffer (Within buf lo) (ensure n) (MqttWasi.Cursor.ensure n)
    fun cur => Within buf lo cur ∧ cur.pos + n ≤ buf.length := by
  refine .get_bind fun s hs => .ite (fun _ => ?_) fun hn => ?_
  case refine_1 =>
    refine .throw _ fun s' he => ?_
    rw [he]
    exact hs.inBuffer
  case refine_2 =>
    refine (Refines.pure PUnit.unit).weaken (fun s' he => ?_) fun _ hs' => hs'
    rw [MqttWasi.Cursor.remaining, hs.buf_eq] at hn
    have hp := hs.pos_le
    exact he ▸ ⟨hs, by omega⟩

-- Bytes that are taken after making sure that they are there.
theorem take {f' : CursorM α} {f : Cursor → α}
    (h : ∀ cur, cur.pos + n ≤ cur.buf.length → f' cur = .ok (f cur) (cur.advance n)) :
    Reads buf lo (lo + n) (do Cursor.ensure n; f')
      (do MqttWasi.Cursor.ensure n; let cur ← get; set (cur.advance n); return f cur) := by
  refine (ensure n).bind fun _ => ⟨fun {s} hs => ?_, fun hs hx => ?_, fun _ hx => ?_⟩
  case refine_1 =>
    rw [h s (hs.1.buf_eq ▸ hs.2)]
    rfl
  case refine_2 =>
    cases hx
    exact hs.1.advance hs.2
  case refine_3 => cases hx

end Reads

theorem index_ok {cur : Cursor} (h : i < cur.buf.length) :
    index i cur = .ok (cur.buf.getD i 0) cur := by
  rw [index, EStateM.bind_ok (EStateM.get_apply _), List.getElem?_eq_getElem h]
  simp [h]

theorem slice_ok {cur : Cursor} (hl : start ≤ stop) (h : stop ≤ cur.buf.length) :
    slice start stop cur = .ok ((cur.buf.drop start).take (stop - start)) cur := by
  rw [slice, EStateM.bind_ok (EStateM.get_apply _), Panics.require, if_pos ⟨hl, h⟩]
  rfl

theorem advance_ok {cur : Cursor} (h : cur.pos + n ≤ cur.buf.length) :
    advance n cur = .ok ⟨⟩ (cur.advance n) := by
  rw [advance, EStateM.bind_ok (EStateM.get_apply _), Panics.require, if_pos h]
  rfl

theorem readU8_reads : Reads buf lo (lo + 1) readU8 MqttWasi.Cursor.readU8 := by
  refine (Reads.take (f := fun cur => cur.buf.getD cur.pos 0) fun cur h => ?_).within
  rw [EStateM.bind_ok (EStateM.get_apply _), EStateM.bind_ok (index_ok (by omega)),
    EStateM.bind_ok (advance_ok h)]
  rfl

theorem readU16_reads : Reads buf lo (lo + 2) readU16 MqttWasi.Cursor.readU16 := by
  refine (Reads.take (f := fun cur => u16FromBeBytes (cur.buf.getD cur.pos 0)
    (cur.buf.getD (cur.pos + 1) 0)) fun cur h => ?_).within
  rw [EStateM.bind_ok (EStateM.get_apply _), EStateM.bind_ok (index_ok (by omega)),
    EStateM.bind_ok (index_ok (by omega)), EStateM.bind_ok (advance_ok h)]
  rfl

theorem readU32_reads : Reads buf lo (lo + 4) readU32 MqttWasi.Cursor.readU32 := by
  refine (Reads.take (f := fun cur => u32FromBeBytes (cur.buf.getD cur.pos 0)
    (cur.buf.getD (cur.pos + 1) 0) (cur.buf.getD (cur.pos + 2) 0) (cur.buf.getD (cur.pos + 3) 0))
    fun cur h => ?_).within
  rw [EStateM.bind_ok (EStateM.get_apply _), EStateM.bind_ok (index_ok (by omega)),
    EStateM.bind_ok (index_ok (by omega)), EStateM.bind_ok (index_ok (by omega)),
    EStateM.bind_ok (index_ok (by omega)), EStateM.bind_ok (advance_ok h)]
  rfl

theorem readBytes_reads (n : Nat) :
    Reads buf lo (lo + n) (readBytes n) (MqttWasi.Cursor.readBytes n) := by
  refine (Reads.take (f := fun cur => (cur.buf.drop cur.pos).take n) fun cur h => ?_).within
  rw [EStateM.bind_ok (EStateM.get_apply _), EStateM.bind_ok (slice_ok (by omega) h),
    EStateM.bind_ok (advance_ok h)]
  simp

theorem addU32_eq (h : a.toNat + b.toNat < 2 ^ 32) : addU32 a b = pure (a + b) := by
  rw [addU32, Panics.require, if_pos h]
  rfl

theorem mulU32_eq (h : a.toNat * b.toNat < 2 ^ 32) : mulU32 a b = pure (a * b) := by
  rw [mulU32, Panics.require, if_pos h]
  rfl

-- The groups that are still to come fill up the four groups of the longest number.
theorem readVariableInt_go_reads (hr : 0 < rounds) (hm : multiplier.toNat * 128 ^ rounds = 128 ^ 4)
    (hv : value.toNat < multiplier.toNat) :
    Reads buf lo (lo + 1) (readVariableInt.go rounds value multiplier)
      (MqttWasi.Cursor.readVariableInt.go rounds value multiplier) := by
  induction rounds generalizing value multiplier lo
  case zero => contradiction
  case succ rounds ih =>
    have hle : multiplier.toNat ≤ 128 ^ 3 := by
      have hp : 0 < 128 ^ rounds := by positivity
      rw [Nat.pow_succ] at hm
      nlinarith
    refine readU8_reads.bind fun byte => ?_
    have hb : (byte.toUInt32 &&& 0x7F).toNat ≤ 127 := by
      simpa using Nat.and_le_right
    have hmul : (byte.toUInt32 &&& 0x7F).toNat * multiplier.toNat < 2 ^ 32 := by
      nlinarith
    rw [mulU32_eq hmul, pure_bind]
    have hadd : value.toNat + ((byte.toUInt32 &&& 0x7F) * multiplier).toNat < 2 ^ 32 := by
      rw [UInt32.toNat_mul, Nat.mod_eq_of_lt hmul]
      nlinarith
    rw [addU32_eq hadd, pure_bind]
    refine .ite (fun _ => Refines.pure _) fun _ => ?_
    have hmul' : multiplier.toNat * (128 : UInt32).toNat < 2 ^ 32 := by
      simp
      omega
    rw [mulU32_eq hmul', pure_bind]
    refine Reads.guard fun hg => ?_
    have hm' : (multiplier * 128).toNat = multiplier.toNat * 128 := by
      rw [UInt32.toNat_mul]
      exact Nat.mod_eq_of_lt hmul'
    have hg' : (multiplier * 128).toNat ≤ 128 ^ 3 := by
      simpa [UInt32.lt_iff_toNat_lt] using hg
    refine (ih ?_ ?_ ?_).mono (by omega)
    case refine_1 =>
      by_contra h0
      simp only [Nat.eq_zero_of_not_pos h0] at hm
      omega
    case refine_2 =>
      rw [hm', Nat.mul_assoc, ← Nat.pow_succ']
      exact hm
    case refine_3 =>
      rw [hm', UInt32.toNat_add, UInt32.toNat_mul, Nat.mod_eq_of_lt hmul]
      have := Nat.mod_le (value.toNat + (byte.toUInt32 &&& 0x7F).toNat * multiplier.toNat) (2 ^ 32)
      nlinarith

theorem readVariableInt_reads :
    Reads buf lo (lo + 1) readVariableInt MqttWasi.Cursor.readVariableInt :=
  (readVariableInt_go_reads (by decide) (by decide) (by decide)).within

theorem readString_reads : Reads buf lo (lo + 2) readString MqttWasi.Cursor.readString := by
  refine Reads.within (readU16_reads.bind fun len => (readBytes_reads len.toNat).bind fun bytes => ?_)
  refine Reads.guard fun _ => ?_
  cases fromUtf8 bytes
  case none => exact Reads.throw _
  case some s => exact Reads.pure s (by omega)

theorem readBinary_reads : Reads buf lo (lo + 2) readBinary MqttWasi.Cursor.readBinary :=
  Reads.within (readU16_reads.bind fun len => (readBytes_reads len.toNat).mono (by omega))

end Cursor

open MqttWasi.Checked.Cursor

theorem decodeFixedHeader_reads : Reads buf lo lo decodeFixedHeader decodeFixedHeader.go :=
  readU8_reads.bind fun _ => (Reads.lift _).bind fun _ => readVariableInt_reads.bind fun _ =>
    (Reads.lift _).bind fun _ => Reads.get_bind fun _ hs => Reads.pure _ (by have := hs.le_pos; omega)

theorem PropertyValue.decode_reads (id : PropertyId) :
    Reads buf lo lo (PropertyValue.decode id) (MqttWasi.PropertyValue.decode id) := by
  cases id
  case userProperty =>
    exact readString_reads.bind fun _ => readString_reads.bind fun _ => Reads.pure _ (by omega)
  case correlationData => exact readBinary_reads.bind fun _ => Reads.pure _ (by omega)
  case responseTopic | assignedClientIdentifier | reasonString =>
    exact readString_reads.bind fun _ => Reads.pure _ (by omega)
  case sessionExpiryInterval | maximumPacketSize =>
    exact readU32_reads.bind fun _ => Reads.pure _ (by omega)
  case receiveMaximum | serverKeepAlive | topicAliasMaximum =>
    exact readU16_reads.bind fun _ => Reads.pure _ (by omega)
  all_goals exact readU8_reads.bind fun _ => Reads.pure _ (by omega)

theorem skipPropertyValue_reads (id : UInt8) :
    Reads buf lo lo (skipPropertyValue id) (MqttWasi.skipPropertyValue id) := by
  rw [skipPropertyValue, MqttWasi.skipPropertyValue]
  refine .ite (fun _ => ?_) fun _ => .ite (fun _ => ?_) fun _ => .ite (fun _ => ?_) fun _ =>
    .ite (fun _ => ?_) fun _ => .ite (fun _ => ?_) fun _ => .ite (fun _ => ?_) fun _ =>
    .ite (fun _ => ?_) fun _ => .ite (fun _ => ?_) fun _ => .ite (fun _ => ?_) fun _ => Reads.throw _
  case refine_1 | refine_2 =>
    exact readU8_reads.bind fun _ => .ite (fun _ => Reads.throw _) fun _ => Reads.pure _ (by omega)
  case refine_3 => exact Reads.discard readU8_reads (by omega)
  case refine_4 => exact Reads.discard readU16_reads (by omega)
  case refine_5 => exact Reads.discard readU32_reads (by omega)
  case refine_6 =>
    exact readVariableInt_reads.bind fun _ => .ite (fun _ => Reads.throw _) fun _ =>
      Reads.pure _ (by omega)
  case refine_7 => exact Reads.discard readString_reads (by omega)
  case refine_8 => exact Reads.discard readBinary_reads (by omega)
  case refine_9 => exact (Reads.discard readString_reads (Nat.le_refl _)).bind fun _ => Reads.discard readString_reads (by omega)

namespace Properties

theorem decodeEntry_reads (context : Option PropertyContext) (stop : Nat) (seenIds : Bytes) :
    Reads buf lo (lo + 1) (decodeEntry context stop seenIds)
      (MqttWasi.Properties.decodeEntry context stop seenIds) := by
  refine readVariableInt_reads.bind fun rawId => Reads.guard fun _ => Reads.guard fun _ =>
    Reads.guard fun _ => (Reads.lift _).bind fun seenIds => ?_
  cases PropertyId.fromU8 rawId.toUInt8
  case none =>
    exact (skipPropertyValue_reads _).bind fun _ => Reads.get_bind fun _ hs =>
      Reads.guard fun _ => Reads.pure _ hs.le_pos
  case some id =>
    exact (PropertyValue.decode_reads id).bind fun _ => Reads.get_bind fun _ hs =>
      Reads.guard fun _ => (Reads.lift _).bind fun _ => Reads.pure _ hs.le_pos

-- Every round gets closer to the end of the properties, and none is needed behind it.
theorem decodeEntries_reads (context : Option PropertyContext) (h : stop ≤ lo + rounds) :
    Reads buf lo lo (decodeEntries context stop rounds seenIds props)
      (MqttWasi.Properties.decodeEntries context stop rounds seenIds props) := by
  induction rounds generalizing lo seenIds props
  case zero =>
    exact Reads.require (Reads.pure _ (Nat.le_refl _)) fun _ hs => h.trans hs.le_pos
  case succ rounds ih =>
    refine Reads.get_bind fun cur hs => .ite (fun _ => ?_) fun _ => Reads.pure _ hs.le_pos
    refine (decodeEntry_reads context stop seenIds).bind fun (seenIds, entry) =>
      Reads.require ?_ fun _ hs' => hs'.le_pos
    have hle := hs.le_pos
    cases entry
    all_goals exact (ih (by omega)).mono (by omega)

theorem decodeFor_reads (context : PropertyContext) :
    Reads buf lo lo (decodeFor context) (MqttWasi.Properties.decodeFor context) := by
  refine readVariableInt_reads.bind fun propLen => .ite (fun _ => Reads.pure _ (by omega)) fun _ =>
    Reads.get_bind fun cur hs => Reads.guard fun _ => Reads.get_bind fun cur hs' =>
    (decodeEntries_reads (some context) (Nat.le_refl _)).bind fun _ => Reads.get_bind fun cur hs'' =>
    Reads.guard fun _ => Reads.pure _ ?_
  have := hs.le_pos
  have := hs'.le_pos
  have := hs''.le_pos
  omega

end Properties

theorem ConnAckPacket.decode_reads :
    Reads buf lo lo ConnAckPacket.decode MqttWasi.ConnAckPacket.decode.go :=
  readU8_reads.bind fun _ => Reads.guard fun _ => readU8_reads.bind fun _ => Reads.guard fun _ =>
    Reads.guard fun _ => (Properties.decodeFor_reads _).bind fun _ => Reads.get_bind fun _ hs =>
    Reads.guard fun _ => Reads.pure _ (by have := hs.le_pos; omega)

theorem remainingBytes_ok (h : InBuffer cur) :
    Cursor.remainingBytes cur = .ok cur.remainingBytes cur := by
  rw [Cursor.remainingBytes, EStateM.bind_ok (EStateM.get_apply _), slice_ok h (Nat.le_refl _),
    ← List.length_drop, List.take_length]
  rfl

theorem remainingBytes_bind {f' : Bytes → CursorM α} {f : Cursor → MqttWasi.CursorM α}
    (h : ∀ cur, Within buf lo cur → Reads buf cur.pos hi (f' cur.remainingBytes) (f cur)) :
    Reads buf lo hi (Cursor.remainingBytes >>= f') (get >>= f) where
  eq {cur} hs := by
    rw [EStateM.bind_ok (remainingBytes_ok hs.inBuffer)]
    exact (h cur hs).eq hs.self
  ok {cur _ _} hs hb := (h cur hs).ok hs.self hb
  error {cur _ _} hs hb := (h cur hs).error hs.self hb

namespace PublishPacket

theorem decodePacketId_reads (qos : QoS) :
    Reads buf lo lo (decode.decodePacketId qos) (MqttWasi.PublishPacket.decode.decodePacketId qos) :=
  .ite (fun _ => readU16_reads.bind fun _ => Reads.guard fun _ => Reads.pure _ (by omega)) fun _ =>
    Reads.pure _ (by omega)

theorem decode_reads (flags : UInt8) :
    Reads buf lo lo (decode flags) (MqttWasi.PublishPacket.decode.go flags) :=
  (Reads.lift _).bind fun _ => readString_reads.bind fun _ => (Reads.lift _).bind fun _ =>
    (decodePacketId_reads _).bind fun _ => (Properties.decodeFor_reads _).bind fun _ =>
    remainingBytes_bind fun _ hs => Reads.pure _ (by have := hs.le_pos; omega)

end PublishPacket

-- What is read last: properties if there are any, and nothing behind them.
theorem toEnd_reads (context : PropertyContext) (e : Error) (a : α) :
    Reads buf lo lo
      (do
        if (← get).remaining > 0 then
          discard (Properties.decodeFor context)
        if (← get).remaining ≠ 0 then
          throw (.error e)
        return a)
      (do
        if (← get).remaining > 0 then
          discard (MqttWasi.Properties.decodeFor context)
        if (← get).remaining ≠ 0 then
          throw e
        return a) := by
  have ht (lo' : Nat) (h : lo ≤ lo') : Reads buf lo' lo
      (do if (← get).remaining ≠ 0 then throw (.error e)
          return a)
      (do if (← get).remaining ≠ 0 then throw e
          return a) :=
    Reads.get_bind fun _ hs => Reads.guard fun _ => Reads.pure _ (h.trans hs.le_pos)
  refine Reads.get_bind fun cur hs => .ite (fun _ => ?_) fun _ => ht _ hs.le_pos
  exact (Reads.discard (Properties.decodeFor_reads _) (Nat.le_refl _)).bind fun _ => ht _ hs.le_pos

theorem PubAckPacket.decode_reads :
    Reads buf lo lo PubAckPacket.decode MqttWasi.PubAckPacket.decode.go := by
  refine readU16_reads.bind fun _ => Reads.guard fun _ => Reads.get_bind fun _ hs => ?_
  have hle := hs.le_pos
  refine .ite (fun _ => readU8_reads.bind fun _ => ?_) fun _ =>
    (Reads.pure (0x00 : UInt8) (Nat.le_refl _)).bind fun _ => ?_
  all_goals exact Reads.guard fun _ => (toEnd_reads _ _ _).mono (by omega)

theorem decodeAckBody_reads (name : String) (context : PropertyContext)
    (isReasonCode : UInt8 → Bool) :
    Reads buf lo lo (decodeAckBody name context isReasonCode)
      (MqttWasi.decodeAckBody name context isReasonCode) := by
  refine readU16_reads.bind fun _ => Reads.guard fun _ =>
    (Reads.discard (Properties.decodeFor_reads _) (Nat.le_refl _)).bind fun _ =>
    remainingBytes_bind fun cur hs => Reads.guard fun _ => ?_
  cases cur.remainingBytes.find? (!isReasonCode ·)
  case none => exact Reads.pure _ (by have := hs.le_pos; omega)
  case some => exact Reads.throw _

theorem DisconnectPacket.decode_reads (body : Bytes) :
    Reads buf lo lo (DisconnectPacket.decode body) (MqttWasi.DisconnectPacket.decode.go body) := by
  refine .ite (fun _ => (Reads.pure (0x00 : UInt8) (Nat.le_refl _)).bind fun _ => ?_) fun _ =>
    readU8_reads.bind fun _ => ?_
  all_goals exact Reads.guard fun _ => (toEnd_reads _ _ _).mono (by omega)

theorem fresh_eq (h : Reads body 0 hi x' x) :
    fresh x' body = (x { buf := body }).value.mapError .error := by
  have he : x' { buf := body } = Panics.fault (x { buf := body }) :=
    h.eq ⟨rfl, Nat.le_refl _, Nat.zero_le _⟩
  rw [fresh, he]
  cases x { buf := body } <;> rfl

theorem fresh_decodeFixedHeader (data : Bytes) :
    fresh decodeFixedHeader data = (MqttWasi.decodeFixedHeader data).mapError .error :=
  fresh_eq decodeFixedHeader_reads

theorem mapError_bind {r' : Except (Panics.Fault Error) α} (r : Except Error α) (f : α → β)
    (h : r' = r.mapError .error) :
    (r' >>= fun a => pure (f a)) = (r >>= fun a => pure (f a)).mapError Panics.Fault.error := by
  subst h
  cases r <;> rfl

theorem packet_decode_eq (header : FixedHeader) (body : Bytes) :
    Packet.decode header body = (MqttWasi.Packet.decode header body).mapError .error := by
  rw [Packet.decode, MqttWasi.Packet.decode]
  cases validateFixedHeader header
  case error e => rfl
  case ok =>
    by_cases hl : body.length ≠ header.remainingLength.toNat
    case pos => simp [hl, Except.mapError]
    case neg =>
      simp only [if_neg hl, Except.ok_bind]
      cases header.packetType
      case connAck => exact mapError_bind _ _ (fresh_eq ConnAckPacket.decode_reads)
      case publish => exact mapError_bind _ _ (fresh_eq (PublishPacket.decode_reads _))
      case pubAck => exact mapError_bind _ _ (fresh_eq PubAckPacket.decode_reads)
      case disconnect => exact mapError_bind _ _ (fresh_eq (DisconnectPacket.decode_reads _))
      case subAck =>
        simp only [SubAckPacket.decode, fresh_eq (decodeAckBody_reads _ _ _)]
        cases (MqttWasi.decodeAckBody "SUBACK" .subAck isSubackReasonCode { buf := body }).value <;> rfl
      case unsubAck =>
        simp only [UnsubAckPacket.decode, fresh_eq (decodeAckBody_reads _ _ _)]
        cases (MqttWasi.decodeAckBody "UNSUBACK" .unsubAck isUnsubackReasonCode { buf := body }).value <;>
          rfl
      case pingReq | pingResp => cases body <;> rfl
      all_goals rfl

-- No packet makes a decoder panic: it reads inside of the body only, and goes on reading while it
-- goes round.
theorem packet_decode_never_panics (header : FixedHeader) (body : Bytes) :
    Packet.decode header body = (MqttWasi.Packet.decode header body).mapError .error ∧
    Packet.decode header body ≠ .error .panic := by
  refine ⟨packet_decode_eq header body, ?_⟩
  rw [packet_decode_eq]
  cases MqttWasi.Packet.decode header body <;> simp [Except.mapError]

end MqttWasi.Checked
