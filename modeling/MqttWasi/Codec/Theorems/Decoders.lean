import MqttWasi.Library.Hoare
import MqttWasi.Frame.Reader

-- A decoder does not fail because there is no room for something.

namespace MqttWasi

def Error.IsFull (e : Error) : Prop :=
  ∃ queue, e = .queueFull queue

def Roomy (r : Except Error α) : Prop :=
  ∀ e, r = .error e → ¬e.IsFull

def Decodes (x : EStateM Error σ α) : Prop :=
  EStateM.Meets (fun _ => True) x (fun _ _ => True) fun e _ => ¬e.IsFull

theorem Roomy.ok (a : α) : Roomy (.ok a : Except Error α) :=
  nofun

theorem Roomy.error {e : Error} (h : ¬e.IsFull) : Roomy (.error e : Except Error α) := by
  rintro _ ⟨⟩
  exact h

theorem Roomy.bind {r : Except Error α} {f : α → Except Error β} (hr : Roomy r)
    (hf : ∀ a, Roomy (f a)) : Roomy (r >>= f) := by
  cases r
  case error e => exact .error (hr e rfl)
  case ok a => exact hf a

theorem Roomy.guarded {c : Prop} [Decidable c] {e : Error} {f : Unit → Except Error α}
    (he : ¬e.IsFull) (h : ∀ u, Roomy (f u)) : Roomy (if c then throw e >>= f else f ()) := by
  split
  case isTrue => exact .error he
  case isFalse => exact h ()

namespace Decodes

open EStateM (Meets)

variable {x y : EStateM Error σ α}

theorem pure (a : α) : Decodes (pure a : EStateM Error σ α) :=
  Meets.pure fun _ _ => trivial

theorem throw {e : Error} (h : ¬e.IsFull) : Decodes (throw e : EStateM Error σ α) :=
  Meets.throw fun _ _ => h

theorem bind {f : α → EStateM Error σ β} (hx : Decodes x) (hf : ∀ a, Decodes (f a)) :
    Decodes (x >>= f) :=
  Meets.bind hx fun a => Meets.pre (hf a) fun _ _ => trivial

theorem get : Decodes (get : EStateM Error σ σ) :=
  fun _ _ => trivial

theorem set (s : σ) : Decodes (set s : EStateM Error σ PUnit) :=
  fun _ _ => trivial

theorem ite {c : Prop} [Decidable c] (hx : Decodes x) (hy : Decodes y) :
    Decodes (if c then x else y) :=
  Meets.ite (fun _ => hx) fun _ => hy

theorem discard (hx : Decodes x) : Decodes (discard x) :=
  hx.bind fun _ => .pure _

-- Something that is done or not in front of the rest.
theorem optional {c : Prop} [Decidable c] {x : EStateM Error σ Unit} {f : Unit → EStateM Error σ β}
    (hx : Decodes x) (h : ∀ u, Decodes (f u)) : Decodes (if c then x >>= f else f ()) :=
  .ite (hx.bind h) (h ())

theorem guarded {c : Prop} [Decidable c] {e : Error} {f : Unit → EStateM Error σ β}
    (he : ¬e.IsFull) (h : ∀ u, Decodes (f u)) :
    Decodes (if c then MonadExcept.throw e >>= f else f ()) :=
  .optional (.throw he) h

theorem branch {c : Prop} [Decidable c] {f : α → EStateM Error σ β} (hx : Decodes x)
    (hy : Decodes y) (h : ∀ a, Decodes (f a)) : Decodes (if c then x >>= f else y >>= f) :=
  .ite (hx.bind h) (hy.bind h)

theorem check {r : Except Error α} (h : Roomy r) : Decodes (check r : EStateM Error σ α) := by
  cases r
  case ok a => exact .pure a
  case error e => exact .throw (h e rfl)

theorem value {x : EStateM Error σ α} (h : Decodes x) (s : σ) : Roomy (x s).value := by
  have h := h s trivial
  cases hx : x s <;> rw [hx] at h
  case ok a s' => exact .ok a
  case error e s' => exact .error h

theorem ensure (n : Nat) : Decodes (Cursor.ensure n) :=
  get.bind fun _ => .ite (.throw nofun) (.pure _)

-- All readers of a fixed length.
theorem read (n : Nat) (f : Cursor → Cursor) (g : Cursor → α) :
    Decodes (Cursor.ensure n >>= fun _ => MonadState.get >>= fun cur =>
      MonadStateOf.set (f cur) >>= fun _ => Pure.pure (g cur) : CursorM α) :=
  (ensure n).bind fun _ => get.bind fun _ => (set _).bind fun _ => .pure _

theorem readU8 : Decodes Cursor.readU8 :=
  read _ _ _

theorem readU16 : Decodes Cursor.readU16 :=
  read _ _ _

theorem readU32 : Decodes Cursor.readU32 :=
  read _ _ _

theorem readBytes (n : Nat) : Decodes (Cursor.readBytes n) :=
  read _ _ _

theorem readVariableInt_go (rounds value multiplier) :
    Decodes (Cursor.readVariableInt.go rounds value multiplier) := by
  induction rounds generalizing value multiplier
  case zero => exact .throw nofun
  case succ rounds ih =>
    refine readU8.bind fun _ => .ite (.pure _) ?_
    exact .guarded nofun fun _ => ih _ _

theorem readVariableInt : Decodes Cursor.readVariableInt :=
  readVariableInt_go _ _ _

theorem readString : Decodes Cursor.readString := by
  refine readU16.bind fun _ => (readBytes _).bind fun _ => .guarded nofun fun _ => ?_
  split
  case h_1 => exact .pure _
  case h_2 => exact .throw nofun

theorem readBinary : Decodes Cursor.readBinary :=
  readU16.bind fun _ => readBytes _

end Decodes

namespace Roomy

theorem validateTopicName (topic : String) : Roomy (validateTopicName topic) := by
  unfold MqttWasi.validateTopicName
  split
  case isTrue => exact .error nofun
  case isFalse => split <;> first | exact .error nofun | exact .ok _

theorem validateProperty (id : PropertyId) (value : PropertyValue) :
    Roomy (validateProperty id value) := by
  unfold MqttWasi.validateProperty
  split
  case isTrue => exact .error nofun
  case isFalse =>
    split
    case h_1 => exact validateTopicName _
    case h_9 => exact .ok _
    all_goals split <;> first | exact .error nofun | exact .ok _

theorem registerPropertyId (seenIds id context) : Roomy (registerPropertyId seenIds id context) := by
  unfold MqttWasi.registerPropertyId
  dsimp only
  split
  case isTrue => exact .error nofun
  case isFalse => exact .ok _

theorem validateFixedHeader (header : FixedHeader) : Roomy (validateFixedHeader header) := by
  have he : ∀ expected, Roomy (validateFixedHeader.expect header expected) := by
    intro expected
    unfold validateFixedHeader.expect
    split <;> first | exact .error nofun | exact .ok _
  unfold MqttWasi.validateFixedHeader
  split
  case h_1 =>
    dsimp only
    split
    case isTrue => exact .error nofun
    case isFalse => split <;> first | exact .error nofun | exact .ok _
  all_goals exact he _

theorem packetType (v : UInt8) : Roomy (PacketType.fromU8 v) := by
  unfold PacketType.fromU8
  split <;> first | exact .error nofun | exact .ok _

theorem qos (v : UInt8) : Roomy (QoS.fromU8 v) := by
  unfold QoS.fromU8
  split <;> first | exact .error nofun | exact .ok _

end Roomy

namespace Decodes

theorem propertyValue (id : PropertyId) : Decodes (PropertyValue.decode id) := by
  have hs : Decodes (do
      let k ← Cursor.readString
      let v ← Cursor.readString
      return PropertyValue.stringPair k v : CursorM PropertyValue) :=
    readString.bind fun _ => readString.bind fun _ => .pure _
  cases id
  case userProperty => exact hs
  case maximumQoS | retainAvailable | wildcardSubscriptionAvailable | sharedSubscriptionAvailable =>
    exact readU8.bind fun _ => .pure _
  case receiveMaximum | serverKeepAlive | topicAliasMaximum => exact readU16.bind fun _ => .pure _
  case sessionExpiryInterval | maximumPacketSize => exact readU32.bind fun _ => .pure _
  case responseTopic | assignedClientIdentifier | reasonString =>
    exact readString.bind fun _ => .pure _
  case correlationData => exact readBinary.bind fun _ => .pure _

theorem skipPropertyValue (id : UInt8) : Decodes (skipPropertyValue id) := by
  have hu : ∀ message, Decodes (do
      if (← Cursor.readU8) > 1 then MonadExcept.throw (Error.malformedPacket message) : CursorM Unit) :=
    fun _ => readU8.bind fun _ => .ite (.throw nofun) (.pure _)
  refine .ite (hu _) (.ite (hu _) (.ite readU8.discard (.ite readU16.discard ?_)))
  refine .ite readU32.discard (.ite (readVariableInt.bind fun _ => .ite (.throw nofun) (.pure _)) ?_)
  refine .ite readString.discard (.ite readBinary.discard (.ite ?_ (.throw nofun)))
  exact readString.discard.bind fun _ => readString.discard

theorem decodeEntry (context stop seenIds) :
    Decodes (Properties.decodeEntry context stop seenIds) := by
  refine readVariableInt.bind fun _ => .guarded nofun fun _ => ?_
  refine .guarded nofun fun _ => .guarded nofun fun _ => ?_
  refine (check (.registerPropertyId _ _ _)).bind fun _ => ?_
  split
  case h_1 =>
    refine (skipPropertyValue _).bind fun _ => get.bind fun _ => .guarded nofun fun _ => .pure _
  case h_2 =>
    refine (propertyValue _).bind fun _ => get.bind fun _ => .guarded nofun fun _ => ?_
    exact (check (.validateProperty _ _)).bind fun _ => .pure _

theorem decodeEntries (context stop rounds seenIds props) :
    Decodes (Properties.decodeEntries context stop rounds seenIds props) := by
  induction rounds generalizing seenIds props
  case zero => exact .pure _
  case succ rounds ih =>
    refine get.bind fun _ => .ite ((decodeEntry _ _ _).bind fun r => ?_) (.pure _)
    dsimp only
    split
    case h_1 => exact ih _ _
    case h_2 => exact ih _ _

theorem properties (context) : Decodes (Properties.decodeInner context) := by
  refine readVariableInt.bind fun _ => .ite (.pure _) ?_
  refine get.bind fun _ => .guarded nofun fun _ => get.bind fun _ => ?_
  refine (decodeEntries _ _ _ _ _).bind fun _ => get.bind fun _ => .guarded nofun fun _ => .pure _

theorem publish (flags : UInt8) : Decodes (PublishPacket.decode.go flags) := by
  refine (check (.qos _)).bind fun _ => readString.bind fun _ => ?_
  refine (check (.validateTopicName _)).bind fun _ => .bind ?_ fun _ => ?_
  case refine_1 =>
    exact .ite (readU16.bind fun _ => .guarded nofun fun _ => .pure _) (.pure _)
  case refine_2 => exact (properties _).bind fun _ => get.bind fun _ => .pure _

theorem connAck : Decodes ConnAckPacket.decode.go := by
  refine readU8.bind fun _ => .guarded nofun fun _ => readU8.bind fun _ => ?_
  refine .guarded nofun fun _ => .guarded nofun fun _ => (properties _).bind fun _ => ?_
  exact get.bind fun _ => .guarded nofun fun _ => .pure _

theorem pubAck : Decodes PubAckPacket.decode.go := by
  refine readU16.bind fun _ => .guarded nofun fun _ => get.bind fun _ => ?_
  refine .branch readU8 (.pure _) fun _ => .guarded nofun fun _ => get.bind fun _ => ?_
  exact .optional (properties _).discard fun _ => get.bind fun _ => .guarded nofun fun _ => .pure _

theorem ackBody (name context isReasonCode) :
    Decodes (decodeAckBody name context isReasonCode) := by
  refine readU16.bind fun _ => .guarded nofun fun _ => (properties _).discard.bind fun _ => ?_
  refine get.bind fun _ => .guarded nofun fun _ => ?_
  split
  case h_1 => exact .bind (.throw nofun) fun _ => .pure _
  case h_2 => exact .pure _

theorem disconnect (body : Bytes) : Decodes (DisconnectPacket.decode.go body) := by
  refine .branch (.pure _) readU8 fun _ => .guarded nofun fun _ => get.bind fun _ => ?_
  exact .optional (properties _).discard fun _ => get.bind fun _ => .guarded nofun fun _ => .pure _

theorem fixedHeader : Decodes decodeFixedHeader.go := by
  refine readU8.bind fun _ => (check (.packetType _)).bind fun _ => readVariableInt.bind fun _ => ?_
  exact (check (.validateFixedHeader _)).bind fun _ => get.bind fun _ => .pure _

end Decodes

theorem Roomy.packet (header : FixedHeader) (body : Bytes) : Roomy (Packet.decode header body) := by
  refine (validateFixedHeader header).bind fun _ => .guarded nofun fun _ => ?_
  split
  case h_1 => exact (Decodes.connAck.value _).bind fun _ => .ok _
  case h_2 => exact ((Decodes.publish _).value _).bind fun _ => .ok _
  case h_3 => exact (Decodes.pubAck.value _).bind fun _ => .ok _
  case h_4 => exact (((Decodes.ackBody _ _ _).value _).bind fun _ => .ok _).bind fun _ => .ok _
  case h_5 => exact (((Decodes.ackBody _ _ _).value _).bind fun _ => .ok _).bind fun _ => .ok _
  case h_6 => split <;> first | exact .error nofun | exact .ok _
  case h_7 => exact ((Decodes.disconnect _).value _).bind fun _ => .ok _
  case h_8 => split <;> first | exact .error nofun | exact .ok _
  all_goals exact .error nofun

namespace Decodes

open EStateM (Meets)

theorem readHeader : Decodes FrameReader.readHeader := by
  refine get.bind fun reader => .ite (.pure _) ?_
  split
  case h_1 => exact .guarded nofun fun _ => (set _).bind fun _ => .pure _
  case h_2 e he => exact .ite (.pure _) (.throw ((fixedHeader.value _) e he))

theorem readBody (header headerLen totalLen) :
    Decodes (FrameReader.readBody header headerLen totalLen) :=
  get.bind fun _ => .ite (.pure _) ((check (.packet _ _)).bind fun _ => (set _).bind fun _ => .pure _)

theorem tryDecode : Decodes FrameReader.tryDecode := by
  refine get.bind fun reader => ?_
  cases reader.overflowSize
  case some => exact Meets.throw_bind fun _ _ => nofun
  case none =>
    dsimp only
    split
    case h_1 =>
      refine readHeader.bind fun r => ?_
      split
      case h_1 => exact .pure _
      case h_2 => exact readBody _ _ _
    case h_2 => exact readBody _ _ _

end Decodes

end MqttWasi
