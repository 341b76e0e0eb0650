import MqttWasi.Codec.Publish
import MqttWasi.Codec.Subscribe
import MqttWasi.Codec.Connect
import MqttWasi.Codec.Theorems.Encoders

-- Only an acknowledgement can be a rejection: none of the checks and encoders that an operation goes
-- through before its packet is sent fails with one.

namespace MqttWasi

def Error.IsRejection (e : Error) : Prop :=
  ∃ packet code, e = .ackRejected packet code

-- A result that is not a rejection.
def Accepting (r : Except Error α) : Prop :=
  ∀ e, r = .error e → ¬e.IsRejection

namespace Accepting

theorem ok (a : α) : Accepting (.ok a : Except Error α) :=
  nofun

theorem error {e : Error} (h : ¬e.IsRejection) : Accepting (.error e : Except Error α) := by
  rintro _ ⟨⟩
  exact h

theorem malformed (message : String) :
    Accepting (.error (.malformedPacket message) : Except Error α) :=
  .error nofun

theorem bind {r : Except Error α} {f : α → Except Error β} (hr : Accepting r)
    (hf : ∀ a, Accepting (f a)) : Accepting (r >>= f) := by
  cases r
  case error e => exact .error (hr e rfl)
  case ok a => exact hf a

-- A check in front of the rest.
theorem guarded {c : Prop} [Decidable c] {e : Error} {f : Unit → Except Error α}
    (he : ¬e.IsRejection) (h : ∀ u, Accepting (f u)) :
    Accepting (if c then throw e >>= f else f ()) := by
  split
  case isTrue => exact .error he
  case isFalse => exact h ()

theorem validateTopicName (topic : String) : Accepting (validateTopicName topic) := by
  unfold MqttWasi.validateTopicName
  split
  case isTrue => exact .malformed _
  case isFalse => split <;> first | exact .malformed _ | exact .ok _

theorem validateFilterLevels_go (levels : List (List Char)) :
    Accepting (validateFilterLevels.go levels) := by
  induction levels
  case nil => exact .ok _
  case cons level levels ih =>
    unfold validateFilterLevels.go
    split
    case isTrue => exact .malformed _
    case isFalse => split <;> first | exact .malformed _ | exact ih

theorem validateTopicFilter (filter : String) : Accepting (validateTopicFilter filter) := by
  unfold MqttWasi.validateTopicFilter
  split
  case isTrue => exact .malformed _
  case isFalse =>
    split
    case h_1 => exact validateFilterLevels_go _
    case h_2 =>
      split
      case h_1 => exact .malformed _
      case h_2 =>
        split
        case isTrue => exact .malformed _
        case isFalse => split <;> first | exact .malformed _ | exact validateFilterLevels_go _

theorem validatePublish (capabilities : ServerCapabilities) (qos : QoS) (retain : Bool) :
    Accepting (capabilities.validatePublish qos retain) := by
  unfold ServerCapabilities.validatePublish
  split
  case isTrue => exact .error nofun
  case isFalse => split <;> first | exact .error nofun | exact .ok _

theorem validateSubscriptionFilter (capabilities : ServerCapabilities) (filter : String) :
    Accepting (capabilities.validateSubscriptionFilter filter) := by
  unfold ServerCapabilities.validateSubscriptionFilter
  refine (validateTopicFilter filter).bind fun _ => ?_
  split <;> split <;> first | exact .error nofun | exact .ok _

theorem validateFixedHeader (header : FixedHeader) : Accepting (validateFixedHeader header) := by
  have he : ∀ expected, Accepting (validateFixedHeader.expect header expected) := by
    intro expected
    unfold validateFixedHeader.expect
    split <;> first | exact .malformed _ | exact .ok _
  unfold MqttWasi.validateFixedHeader
  split
  case h_1 =>
    dsimp only
    split
    case isTrue => exact .error nofun
    case isFalse => split <;> first | exact .malformed _ | exact .ok _
  all_goals exact he _

theorem validateProperty (id : PropertyId) (value : PropertyValue) :
    Accepting (validateProperty id value) := by
  unfold MqttWasi.validateProperty
  split
  case isTrue => exact .malformed _
  case isFalse =>
    split
    case h_1 => exact validateTopicName _
    case h_9 => exact .ok _
    all_goals split <;> first | exact .malformed _ | exact .ok _

end Accepting

-- An encoder that does not fail with a rejection.
def Sound (encoder : EStateM Error σ α) : Prop :=
  ∀ s, Accepting (encoder s).value

namespace Sound

variable {σ α β : Type} {x : EStateM Error σ α}

theorem pure (a : α) : Sound (pure a : EStateM Error σ α) :=
  fun _ => .ok a

theorem throw {e : Error} (h : ¬e.IsRejection) : Sound (throw e : EStateM Error σ α) :=
  fun _ => .error h

theorem check {r : Except Error α} (h : Accepting r) : Sound (check r : EStateM Error σ α) := by
  intro s
  cases r <;> exact h

theorem bind {f : α → EStateM Error σ β} (hx : Sound x) (hf : ∀ a, Sound (f a)) :
    Sound (x >>= f) := by
  intro s
  have hx := hx s
  cases h : x s <;> rw [h] at hx
  case ok a s' =>
    rw [EStateM.bind_ok h]
    exact hf a s'
  case error e s' =>
    rw [EStateM.bind_error h]
    exact .error (hx e rfl)

theorem ite {c : Prop} [Decidable c] {y : EStateM Error σ α} (hx : Sound x) (hy : Sound y) :
    Sound (if c then x else y) := by
  split <;> assumption

-- A check in front of the rest of an encoder.
theorem guarded {c : Prop} [Decidable c] {e : Error} {f : Unit → EStateM Error σ α}
    (he : ¬e.IsRejection) (h : ∀ u, Sound (f u)) :
    Sound (if c then MonadExcept.throw e >>= f else f ()) :=
  .ite (.bind (.throw he) h) (h ())

theorem bytes {encoder : EncodeM Unit} (h : Sound encoder) : Accepting encoder.bytes := by
  have h := h []
  unfold EncodeM.bytes
  cases he : encoder [] <;> rw [he] at h
  case ok => exact .ok _
  case error e _ => exact .error (h e rfl)

theorem extend (bytes : Bytes) : Sound (extend bytes) :=
  fun _ => .ok _

theorem encodeVariableInt (value : UInt32) : Sound (encodeVariableInt value) := by
  have hg : ∀ rounds value, Sound (encodeVariableInt.go rounds value) := by
    intro rounds
    induction rounds
    case zero => exact fun _ => .pure _
    case succ rounds ih =>
      exact fun value => (extend _).bind fun _ => .ite (ih _) (.pure _)
  exact .guarded (by nofun) fun _ => hg _ _

theorem encodeString (s : String) : Sound (encodeString s) :=
  .guarded (by nofun) fun _ => .guarded (by nofun) fun _ => (extend _).bind fun _ => extend _

theorem encodeBinary (data : Bytes) : Sound (encodeBinary data) :=
  .guarded (by nofun) fun _ => (extend _).bind fun _ => extend _

theorem encodeFixedHeader (t : PacketType) (flags : UInt8) (len : UInt32) :
    Sound (encodeFixedHeader t flags len) :=
  .guarded (by nofun) fun _ => (check (.validateFixedHeader _)).bind fun _ =>
    (extend _).bind fun _ => encodeVariableInt len

theorem withFixedHeader (t : PacketType) (flags : UInt8) (body : Bytes) :
    Sound (withFixedHeader t flags body) :=
  (encodeFixedHeader t flags _).bind fun _ => extend body

theorem encodeValue (value : PropertyValue) : Sound value.encode := by
  cases value
  case byte | u16 | u32 => exact extend _
  case str => exact encodeString _
  case binary => exact encodeBinary _
  case stringPair => exact (encodeString _).bind fun _ => encodeString _

theorem encodeEntry (context previous id val) :
    Sound (Properties.encodeEntry context previous id val) :=
  .guarded (by nofun) fun _ => (check (.validateProperty id val)).bind fun _ =>
    .guarded (by nofun) fun _ => (encodeVariableInt _).bind fun _ => encodeValue val

theorem encodeEntries (context previous entries) :
    Sound (Properties.encodeEntries context previous entries) := by
  induction entries generalizing previous
  case nil => exact .pure _
  case cons e entries ih => exact (encodeEntry _ _ _ _).bind fun _ => ih _

theorem encodeFor (props : Properties) (context : PropertyContext) :
    Sound (props.encodeFor context) :=
  (check (encodeEntries _ _ _).bytes).bind fun _ => (encodeVariableInt _).bind fun _ => extend _

theorem encodeFilters (filters : List (String × QoS)) :
    Sound (SubscribePacket.encodeFilters filters) := by
  induction filters
  case nil => exact .pure _
  case cons filter filters ih =>
    exact (check (.validateTopicFilter _)).bind fun _ => (encodeString _).bind fun _ =>
      (extend _).bind fun _ => ih

theorem encodeFilters' (filters : List String) :
    Sound (UnsubscribePacket.encodeFilters filters) := by
  induction filters
  case nil => exact .pure _
  case cons filter filters ih =>
    exact (check (.validateTopicFilter _)).bind fun _ => (encodeString _).bind fun _ => ih

theorem encodeBody (packet : PublishPacket) : Sound packet.encodeBody := by
  refine (check (.validateTopicName _)).bind fun _ => (encodeString _).bind fun _ => ?_
  split
  case h_1 => exact (extend _).bind fun _ => (encodeFor _ _).bind fun _ => extend _
  case h_2 => exact (encodeFor _ _).bind fun _ => extend _

end Sound

namespace Accepting

theorem publish (packet : PublishPacket) : Accepting packet.encode := by
  unfold PublishPacket.encode
  split
  case h_1 | h_5 =>
    exact (Sound.encodeBody packet).bytes.bind fun _ => (Sound.withFixedHeader _ _ _).bytes
  all_goals exact .malformed _

theorem subscribe (packet : SubscribePacket) : Accepting packet.encode := by
  have hb : Sound packet.encodeBody :=
    (Sound.extend _).bind fun _ => (Sound.encodeFor _ _).bind fun _ => .encodeFilters _
  unfold SubscribePacket.encode
  refine .guarded ?_ fun _ => .guarded ?_ fun _ => ?_
  case refine_3 => exact hb.bytes.bind fun _ => (Sound.withFixedHeader _ _ _).bytes
  all_goals nofun

theorem unsubscribe (packet : UnsubscribePacket) : Accepting packet.encode := by
  have hb : Sound packet.encodeBody :=
    (Sound.extend _).bind fun _ => (Sound.encodeFor _ _).bind fun _ => .encodeFilters' _
  unfold UnsubscribePacket.encode
  refine .guarded ?_ fun _ => .guarded ?_ fun _ => ?_
  case refine_3 => exact hb.bytes.bind fun _ => (Sound.withFixedHeader _ _ _).bytes
  all_goals nofun

end Accepting
end MqttWasi
