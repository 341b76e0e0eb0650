import MqttWasi.Limits
import MqttWasi.Codec.Theorems.Topics
import MqttWasi.Driver.Theorems.Senders

-- What a request says, from the call that makes it to the frame that the broker gets.

namespace MqttWasi

-- The properties that a request leaves to the application.
def Properties.others (props : Properties) : List (PropertyId × PropertyValue) :=
  props.entries.filter fun entry => entry.1 ≠ .responseTopic ∧ entry.1 ≠ .correlationData

-- The message of a call of `request`.
structure PublishPacket.Relays (packet : PublishPacket) (topic : String) (payload : Bytes)
    (options : RequestOptions) (correlationData : Bytes) : Prop where
  topic : packet.topic = topic
  payload : packet.payload = payload
  qos : packet.qos = options.qos
  retain : packet.retain = false
  dup : packet.dup = false
  responseTopic : packet.properties.entries.filter (·.1 = .responseTopic) =
    [(.responseTopic, .str options.responseTopic)]
  correlationData : packet.properties.entries.filter (·.1 = .correlationData) =
    [(.correlationData, .binary correlationData)]
  others : packet.properties.others = options.properties.others

namespace RequestCommand

-- The PUBLISH of a request.
def packet (request : RequestCommand) (packetId : Option UInt16) : PublishPacket where
  topic := request.topic
  packetId := packetId
  payload := request.payload
  qos := request.qos
  retain := false
  dup := false
  properties := request.properties

-- What is remembered of a request is what its message is made of.
structure Kept (request : RequestCommand) (correlationData : Bytes) (pending : PendingRequest) :
    Prop where
  key : correlationData = request.correlationData
  responseTopic : pending.responseTopic = request.responseTopic
  packet : ∀ packetId, MqttConnection.requestPacket pending packetId = request.packet packetId

end RequestCommand

theorem AsyncMqttClient.request_relays {options : RequestOptions}
    (h : request topic payload options uuid clock = .ok command) (packetId) :
    (command.packet packetId).Relays topic payload options command.correlationData := by
  obtain ⟨_, _, h⟩ := Except.bind_eq_ok.mp h
  cases h
  refine ⟨rfl, rfl, rfl, rfl, rfl, ?_, Properties.filter_replaceSingle _ _ _, ?_⟩
  case refine_1 =>
    exact (Properties.filter_replaceSingle_ne _ _ (by simp)).trans
      (Properties.filter_replaceSingle _ _ _)
  case refine_2 =>
    exact (Properties.filter_replaceSingle_ne _ _ (by simp)).trans
      (Properties.filter_replaceSingle_ne _ _ (by simp))

theorem AsyncMqttClient.request_responseTopic {options : RequestOptions}
    (h : request topic payload options uuid clock = .ok command) :
    command.responseTopic = options.responseTopic ∧ TopicFilter command.responseTopic := by
  obtain ⟨_, hv, h⟩ := Except.bind_eq_ok.mp h
  obtain ⟨hw, hs⟩ := RequestOptions.validate_ok hv
  obtain ⟨hh, hp⟩ := hasWildcard_eq_false.mp hw
  have hn : options.responseTopic ≠ "" := by
    intro he
    rw [RequestOptions.validate, he] at hv
    cases hv
  cases h
  refine ⟨rfl, .levels hn (fun hc => ?_) (.of_plain hh hp)⟩
  rw [List.isPrefixOf_iff_prefix.mpr hc] at hs
  cases hs

-- A filter can be subscribed to unless it is too long or contains a NUL.
theorem SubscribePacket.encode_single {packetId : UInt16} (qos : QoS) (hi : packetId ≠ 0)
    (ht : TopicFilter filter) :
    (∃ bytes, encode { packetId, filters := [(filter, qos)], properties := {} } = .ok bytes) ↔
      (utf8 filter).length ≤ 65535 ∧ 0 ∉ utf8 filter := by
  have hp (buf : Bytes) : Properties.encodeFor {} .subscribe buf = .ok ⟨⟩ (buf ++ Base128.encode 0) := by
    have hv : encodeVariableInt 0 buf = .ok ⟨⟩ (buf ++ Base128.encode 0) :=
      encodeVariableInt_eq_ok.mpr ⟨by decide, rfl⟩
    have he : (Properties.encodeEntries (some .subscribe) [] []).bytes = .ok [] := rfl
    simp [Properties.encodeFor, Properties.encodeInner, EStateM.bind_apply, he, hv]
  simp [encode, hi, Except.bind_eq_ok, EncodeM.bytes_eq_ok, encodeBody, encodeFilters,
    EStateM.bind_eq_ok, validateTopicFilter_ok.mpr ht, encodeString_eq_ok, hp]
  intro hl _
  refine ⟨_, withFixedHeader_eq_ok.mpr ⟨by decide, rfl, ?_, rfl⟩⟩
  simp [u16ToBeBytes, Base128.encode_of_lt]
  omega

namespace MqttConnection

open Relation (ReflTransGen)

variable {c c' : MqttConnection}

-- Packet identifiers are never zero.

theorem Quiet.identified (h : Quiet c c') (hc : c.nextPacketId ≠ 0) : c'.nextPacketId ≠ 0 := by
  cases h
  case mk nextPacketId clock hn => exact hn hc

theorem reservePacketId_go_ne_zero {rounds : Nat}
    (h : reservePacketId.go rounds c = .ok (.ok packetId) c') (hc : c.nextPacketId ≠ 0) :
    packetId ≠ 0 := by
  induction rounds generalizing c
  case zero => cases h
  case succ rounds ih =>
    rw [reservePacketId.go, EStateM.bind_ok (EStateM.get_apply _),
      EStateM.bind_ok (EStateM.set_apply _ _)] at h
    split at h
    case isTrue => exact ih h (nextPacketIdAfter_ne_zero _)
    case isFalse => cases h; exact hc

theorem withoutRequest_nextPacketId (c : MqttConnection) (correlationData pending) :
    (c.withoutRequest correlationData pending).nextPacketId = c.nextPacketId := by
  obtain ⟨_, _, _, he⟩ := withoutRequest_eq c correlationData pending
  rw [he]

theorem Shift.identified (h : Shift c c') (hc : c.nextPacketId ≠ 0) : c'.nextPacketId ≠ 0 := by
  cases h
  case quiet hq => exact hq.identified hc
  case remove => exact (withoutRequest_nextPacketId _ _ _).trans_ne hc
  all_goals exact hc

theorem Publish.identified (h : Publish c c') (hc : c.nextPacketId ≠ 0) : c'.nextPacketId ≠ 0 := by
  cases h
  case quiet hq => exact hq.identified hc
  all_goals exact hc

theorem Enter.identified (h : Enter c c') (hc : c.nextPacketId ≠ 0) : c'.nextPacketId ≠ 0 := by
  cases h
  case begin hb =>
    cases hb
    case publish hp => exact hp.identified hc
    case withdraw => exact (withoutRequest_nextPacketId _ _ _).trans_ne hc
    all_goals exact hc
  all_goals exact hc

theorem Announce.identified (h : Announce reason c c') (hc : c.nextPacketId ≠ 0) :
    c'.nextPacketId ≠ 0 := by
  cases h <;> exact hc

theorem Flush.identified (h : Flush c c') (hc : c.nextPacketId ≠ 0) : c'.nextPacketId ≠ 0 := by
  cases h
  case accept => exact hc
  case complete flush _ _ hp =>
    generalize flush.action = action at hp
    cases hp
    case disconnect ha => exact ha.identified hc
    all_goals exact hc

theorem Act.identified (h : Act c c') (hc : c.nextPacketId ≠ 0) : c'.nextPacketId ≠ 0 := by
  cases h
  case shift hs => exact hs.identified hc
  case enter he => exact he.identified hc
  case write hw => cases hw <;> exact hc
  case flush hf => exact hf.identified hc
  case announce ha => exact ha.identified hc
  case outside ho => cases ho <;> exact hc
  all_goals exact hc

theorem Arrive.identified (h : Arrive c c') (hc : c.nextPacketId ≠ 0) : c'.nextPacketId ≠ 0 := by
  cases h
  case resolve hr =>
    cases hr
    case move hm =>
      cases hm
      case shift hs => exact hs.identified hc
      case publish hp => exact hp.identified hc
    all_goals exact hc
  case respond => exact (withoutRequest_nextPacketId _ _ _).trans_ne hc
  all_goals exact hc

-- The request has been taken up and is remembered.
def Recalls (c : MqttConnection) (correlationData : Bytes) (pending : PendingRequest) : Prop :=
  ∃ request, Command.request request pending.result ∈ c.taken ∧ request.Kept correlationData pending

-- The frame of a request is its message.
def Voices (c : MqttConnection) (result : Sender) (frame : OutboundFrame) : Prop :=
  ∃ request packetId, Command.request request result ∈ c.taken ∧
    frame.requestCorrelation = some request.correlationData ∧
    (request.packet packetId).encode = .ok frame.bytes

-- The requests that wait and the frames that were queued are what the commands say.
structure Contents (c : MqttConnection) : Prop where
  issued : ∀ command ∈ c.taken ++ c.commands, command.Issued
  waiting : ∀ correlationData pending, c.pendingRequests.lookup correlationData = some pending →
    c.Recalls correlationData pending
  enqueued : ∀ frame ∈ c.enqueued, ∀ result, frame.origin = .request result → c.Voices result frame

theorem Recalls.mono (h : c.Recalls correlationData pending) (ht : c.taken ⊆ c'.taken) :
    c'.Recalls correlationData pending :=
  have ⟨request, hm, hk⟩ := h
  ⟨request, ht hm, hk⟩

theorem Voices.mono (h : c.Voices result frame) (ht : c.taken ⊆ c'.taken) :
    c'.Voices result frame :=
  have ⟨request, packetId, hm, hv⟩ := h
  ⟨request, packetId, ht hm, hv⟩

namespace Contents

theorem same (h : c.Contents) (ht : c.taken ⊆ c'.taken)
    (ha : c'.taken ++ c'.commands = c.taken ++ c.commands) (he : c'.enqueued = c.enqueued)
    (hp : ∀ correlationData pending, c'.pendingRequests.lookup correlationData = some pending →
      c.Recalls correlationData pending) : c'.Contents where
  issued := ha ▸ h.issued
  waiting correlationData pending hl := (hp correlationData pending hl).mono ht
  enqueued frame hm result hr := (h.enqueued frame (he ▸ hm) result hr).mono ht

theorem push (h : c.Contents) (frame)
    (hf : ∀ result, frame.origin = .request result → c.Voices result frame) :
    (c.push frame).Contents where
  issued := h.issued
  waiting := h.waiting
  enqueued frame' hm result hr := by
    cases List.mem_append.mp hm
    case inl hm => exact h.enqueued frame' hm result hr
    case inr hm =>
      obtain rfl := List.mem_singleton.mp hm
      exact hf result hr

theorem adjust (h : c.Contents) {f : PendingRequest → PendingRequest}
    (hf : ∀ pending, c.Recalls correlationData pending → c.Recalls correlationData (f pending))
    (correlationData') (pending)
    (hl : (c.pendingRequests.adjust correlationData f).lookup correlationData' = some pending) :
    c.Recalls correlationData' pending := by
  by_cases he : correlationData' = correlationData
  case pos =>
    rw [he, AList.lookup_adjust, Option.map_eq_some_iff] at hl
    obtain ⟨pending', hl, rfl⟩ := hl
    exact he ▸ hf pending' (h.waiting _ _ hl)
  case neg =>
    rw [AList.lookup_adjust_ne he] at hl
    exact h.waiting _ _ hl

theorem markPublished (h : c.Contents) (correlationData packetId) :
    (c.markPublished correlationData packetId).Contents :=
  h.same (fun _ => id) rfl rfl <| h.adjust fun _ ⟨request, hm, hk⟩ =>
    ⟨request, hm, ⟨hk.key, hk.responseTopic, hk.packet⟩⟩

theorem withoutRequest (h : c.Contents) (correlationData pending) :
    (c.withoutRequest correlationData pending).Contents := by
  obtain ⟨_, _, _, he⟩ := withoutRequest_eq c correlationData pending
  rw [he]
  exact h.same (fun _ => id) rfl rfl fun _ _ hl => h.waiting _ _ (AList.lookup_of_lookup_erase hl)

-- The frame that is queued for a request
theorem voices (h : c.Contents) (hl : c.pendingRequests.lookup correlationData = some pending)
    (he : (requestPacket pending packetId).encode = .ok bytes) (result)
    (hr : (pending.frame correlationData bytes).origin = .request result) :
    c.Voices result (pending.frame correlationData bytes) := by
  obtain ⟨request, hm, hk⟩ := h.waiting _ _ hl
  cases hr
  exact ⟨request, packetId, hm, congrArg some hk.key, (hk.packet packetId).symm ▸ he⟩

theorem publish (h : c.Contents) (hp : c.Publishes correlationData pending packetId entry bytes) :
    (((c.await packetId entry).push (pending.frame correlationData bytes)).markPublished
      correlationData (some packetId)).Contents := by
  have ha : (c.await packetId entry).Contents := h.same (fun _ => id) rfl rfl h.waiting
  exact (ha.push _ (ha.voices hp.lookup hp.encoded)).markPublished _ _

theorem publishQos0 (h : c.Contents) (hp : c.PublishesQos0 correlationData pending bytes) :
    ((c.push (pending.frame correlationData bytes)).markPublished correlationData none).Contents :=
  (h.push _ (h.voices hp.lookup hp.encoded)).markPublished _ _

theorem dequeued (h : c.Contents) (hq : c.commands = command :: rest) :
    (c.dequeued command rest).Contents := by
  refine h.same (List.subset_append_left _ _) ?_ rfl h.waiting
  rw [hq]
  exact List.append_assoc ..

theorem course (h : c.Contents) (hc : Course c c') : c'.Contents := by
  cases hc
  case other => exact h.same (fun _ => id) rfl rfl h.waiting
  case dequeue hq => exact h.dequeued hq
  case remove => exact h.withoutRequest _ _
  case publish hp => exact h.publish hp
  case publishQos0 hp => exact h.publishQos0 hp
  case push frame hn _ _ => exact h.push frame fun result hr => absurd hr (hn result)
  case write hw => cases hw <;> exact h.same (fun _ => id) rfl rfl h.waiting

theorem quiet (h : c.Contents) (hq : Quiet c c') : c'.Contents :=
  (Shift.quiet hq).course.preserves (fun _ _ hc h => h.course hc) h

theorem launch (h : c.Contents) (hl : Launch responseTopic c c') : c'.Contents := by
  cases hl
  case publish hp => exact hp.course.preserves (fun _ _ hc h => h.course hc) h
  case subscribe packetId entry _ _ =>
    have ha : ((c.await packetId entry).subscribing responseTopic).Contents :=
      h.same (fun _ => id) rfl rfl h.waiting
    exact ha.push _ nofun

theorem admitted {request : RequestCommand} (h : c.Contents)
    (hm : Command.request request result ∈ c.taken) (deadline) :
    (c.admitted request.correlationData (request.pending result deadline)).Contents := by
  refine h.same (fun _ => id) rfl rfl fun correlationData pending hl => ?_
  by_cases he : correlationData = request.correlationData
  case pos =>
    rw [he, MqttConnection.admitted, AList.lookup_insert, Option.some.injEq] at hl
    cases hl
    exact ⟨request, hm, ⟨he, rfl, fun _ => rfl⟩⟩
  case neg =>
    rw [MqttConnection.admitted, AList.lookup_insert_ne he] at hl
    exact h.waiting _ _ hl

theorem takesUp {request : RequestCommand} (h : c.Contents)
    (hm : Command.request request result ∈ c.taken) (ht : TakesUp request result c c') :
    c'.Contents := by
  have hq {c₁ : MqttConnection} (deadline) (hq : Quiet c c₁) :
      (c₁.admitted request.correlationData (request.pending result deadline)).Contents := by
    refine (h.quiet hq).admitted ?_ deadline
    cases hq
    exact hm
  cases ht
  case closing => exact h.same (fun _ => id) rfl rfl h.waiting
  case cancelled => exact h.same (fun _ => id) rfl rfl h.waiting
  case refused hq => exact (h.quiet hq).same (fun _ => id) rfl rfl (h.quiet hq).waiting
  case started deadline hc hl =>
    exact hl.preserves (fun _ _ hl h => h.launch hl) (hq deadline hc.quiet)
  case withdrawn deadline hc hs =>
    have h' := ((hq deadline hc.quiet).quiet hs).withoutRequest request.correlationData
      (request.pending result deadline)
    exact h'.same (fun _ => id) rfl rfl h'.waiting

theorem ends (h : c.Contents) (he : Ends c c') : c'.Contents := by
  cases he <;> exact h.same (fun _ => id) rfl rfl nofun

theorem outside (h : c.Contents) (hi : ∀ command, input = .submit command → command.Issued)
    (ho : Outside c input c') : c'.Contents := by
  cases ho
  case submit command _ _ =>
    refine ⟨fun command' hm => ?_, h.waiting, h.enqueued⟩
    rw [← List.append_assoc] at hm
    cases List.mem_append.mp hm
    case inl hm => exact h.issued command' hm
    case inr hm => exact List.mem_singleton.mp hm ▸ hi command rfl
  case reorder => exact h.same (fun _ => id) rfl rfl (h.adjust fun _ => id)
  all_goals exact h.same (fun _ => id) rfl rfl h.waiting

end Contents
end MqttConnection

namespace Driver

open MqttConnection

variable {driver driver' : Driver} {options : ConnectOptions} {clock : Clock}

theorem contents_step (h : driver.connection.Contents)
    (hi : ∀ command, input = .submit command → command.Issued) (hp : Proceeds driver input driver') :
    driver'.connection.Contents := by
  cases hp
  case course hc => exact hc.preserves (fun _ _ hc h => h.course hc) h
  case request _ hq ht => exact (h.dequeued hq).takesUp (mem_taken_dequeued ..) ht
  case arrives packet reader c next _ =>
    have h' : (c.arrived reader packet).Contents := h.same (fun _ => id) rfl rfl h.waiting
    rw [perform_connection]
    rcases dispatchPacket_cases (c.arrived reader packet) packet with ⟨_, c', _, hx, he⟩ | hd
    case inl =>
      rw [hx]
      exact h'.ends he
    case inr =>
      have hc := dispatchPacket_course (c := c.arrived reader packet) hd
      exact hc.preserves (fun _ _ hc h => h.course hc) h'
  case ends he => exact h.ends he
  case outside ho => exact h.outside hi ho

theorem contents_start (options connack clock) :
    (start options connack clock).connection.Contents where
  issued := nofun
  waiting := nofun
  enqueued := nofun

theorem contents_run (h : (start options connack clock).run inputs = some driver)
    (hi : ∀ command, .submit command ∈ inputs → command.Issued) : driver.connection.Contents := by
  refine run_preserves_if (P := fun driver => driver.connection.Contents)
    (C := fun _ input => ∀ command, input = .submit command → command.Issued)
    (fun _ _ _ _ _ h hi hs => contents_step h hi (step_does hs).proceeds)
    (contents_start options connack clock) ?_ h
  rintro _ _ _ hp _ command rfl
  exact hi command (hp.subset (by simp))

theorem identified_run (h : (start options connack clock).run inputs = some driver) :
    driver.connection.nextPacketId ≠ 0 := by
  have hs : (1 : UInt16) ≠ 0 := by decide
  have hi := run_live (P := fun c => c.nextPacketId ≠ 0) (Q := fun c => c.nextPacketId ≠ 0)
    (fun _ _ ha h => ha.identified h) (fun _ _ _ h => h)
    (fun _ _ _ _ _ hd h => (dispatchPacket_arrives hd).preserves (fun _ _ ha h => ha.identified h) h)
    (fun _ _ he h => by cases he <;> exact h.elim id id)
    (fun _ _ _ ho h => by cases ho <;> exact h) hs (Throughout.trivial _ inputs) h
  exact hi.elim id And.right

theorem request_publish_content (options : ConnectOptions) (connack : ConnAckPacket) (clock : Clock)
    (inputs : List Input) (driver : Driver)
    (h : (start options connack clock).run inputs = some driver)
    (hi : ∀ command, .submit command ∈ inputs → command.Issued) :
    (∀ frame ∈ driver.connection.enqueued, ∀ result, frame.origin = .request result →
      ∃ (command : RequestCommand) (packet : PublishPacket) (header : FixedHeader) (headerLen : Nat),
        .request command result ∈ driver.connection.taken ∧
        (Command.request command result).Issued ∧
        frame.requestCorrelation = some command.correlationData ∧
        (∀ correlationData pending,
          driver.connection.pendingRequests.lookup correlationData = some pending →
            pending.result = result → correlationData = command.correlationData ∧
              pending.responseTopic = command.responseTopic) ∧
        decodeFixedHeader frame.bytes = .ok (header, headerLen) ∧
        Packet.decode header (frame.bytes.drop headerLen) = .ok (.publish packet) ∧
        ∀ topic payload options uuid clock,
          AsyncMqttClient.request topic payload options uuid clock = .ok command →
            packet.Relays topic payload options command.correlationData) ∧
    driver.connection.nextPacketId ≠ 0 ∧
    ∀ (c c' : MqttConnection) (packetId : UInt16) (topic : String) (payload : Bytes)
      (options : RequestOptions) (uuid : Bytes) (clock : Clock) (command : RequestCommand),
      c.nextPacketId ≠ 0 → reservePacketId c = .ok (.ok packetId) c' →
      AsyncMqttClient.request topic payload options uuid clock = .ok command →
      command.responseTopic = options.responseTopic ∧
      ((∃ e, SubscribePacket.encode { packetId, filters := [(command.responseTopic, .atLeastOnce)]
                                      properties := {} } = .error e) ↔
        65535 < (utf8 options.responseTopic).length ∨ 0 ∈ utf8 options.responseTopic) := by
  refine ⟨fun frame hm result hr => ?_, identified_run h,
    fun c c' packetId topic payload options uuid clock command hc hp ha => ?_⟩
  case refine_1 =>
    have hc := contents_run h hi
    obtain ⟨command, packetId, ht, hf, he⟩ := hc.enqueued frame hm result hr
    have hl : frame.bytes.length < 2 ^ 32 := by
      have hk := run_compliant hi (start_compliant options connack clock) h
      have hs := (hk.enqueued frame hm).le_max
      rw [hk.size] at hs
      exact Nat.lt_of_le_of_lt hs connack.packetSizeLimit_lt
    obtain ⟨header, headerLen, _, hd, hp⟩ := (Packet.Encodes.publish he).decoded hl
    refine ⟨command, _, header, headerLen, ht, hc.issued _ (List.mem_append_left _ ht), hf,
      fun correlationData pending hl he => ?_, by simpa using hd [], hp,
      fun _ _ _ _ _ ha => AsyncMqttClient.request_relays ha packetId⟩
    obtain ⟨command', ht', hk⟩ := hc.waiting _ _ hl
    obtain rfl : command = command' := by
      have hu := (owned_run h).unique ht ht' he.symm
      rw [Command.request.injEq] at hu
      exact hu.left
    exact ⟨hk.key, hk.responseTopic⟩
  case refine_2 =>
    obtain ⟨hr, hf⟩ := AsyncMqttClient.request_responseTopic ha
    have hs := SubscribePacket.encode_single .atLeastOnce (reservePacketId_go_ne_zero hp hc) hf
    refine ⟨hr, ?_⟩
    rw [hr] at hs ⊢
    cases he : SubscribePacket.encode
      { packetId, filters := [(options.responseTopic, .atLeastOnce)], properties := {} }
    case error e =>
      have hn : ¬((utf8 options.responseTopic).length ≤ 65535 ∧ 0 ∉ utf8 options.responseTopic) := by
        rw [← hs, he]
        simp
      simp only [Except.error.injEq, exists_eq', true_iff]
      by_contra hc
      exact hn ⟨Nat.le_of_not_lt fun hl => hc (.inl hl), fun hz => hc (.inr hz)⟩
    case ok bytes =>
      obtain ⟨hl, hz⟩ := hs.mp ⟨bytes, he⟩
      simp [hl, hz]

-- A request whose properties name other response topics, and correlation data of a wrong type.
def claimingOptions : RequestOptions where
  responseTopic := "t"
  properties :=
    { entries :=
        [(.responseTopic, .str "x"), (.userProperty, .stringPair "k" "1"), (.correlationData, .u16 3),
          (.responseTopic, .str "y"), (.userProperty, .stringPair "k" "2")] }

def claimingRequest : RequestCommand where
  topic := "a"
  payload := [5]
  responseTopic := "t"
  correlationData := [7]
  qos := .atLeastOnce
  timeout := .fromSecs 30
  properties :=
    { entries :=
        [(.userProperty, .stringPair "k" "1"), (.userProperty, .stringPair "k" "2"),
          (.responseTopic, .str "t"), (.correlationData, .binary [7])] }

theorem claimingRequest_requested :
    AsyncMqttClient.request "a" [5] claimingOptions [7] stillClock = .ok claimingRequest := by
  decide +kernel

-- The response topic is granted, and the request is published.
def publishing : List Input :=
  [.submit (.request claimingRequest 0), .proceed, .proceed, .proceed, .proceed,
    .written (.ok 9), .proceed, .flushed (.ok ()), .read (.ok [0x90, 4, 0, 1, 0, 1]),
    .read (.error { kind := .wouldBlock }), .proceed]

theorem request_publish_content_publishing :
    ∃ driver, (start plainOptions plainConnack stillClock).run publishing = some driver ∧
      ∃ frame ∈ driver.connection.enqueued, frame.origin = .request 0 ∧
        ∃ header headerLen packet, decodeFixedHeader frame.bytes = .ok (header, headerLen) ∧
          Packet.decode header (frame.bytes.drop headerLen) = .ok (.publish packet) ∧
          packet.Relays "a" [5] claimingOptions [7] := by
  obtain ⟨driver, hr, ht, frame, hm, ho⟩ := exists_run (start plainOptions plainConnack stillClock)
    publishing (fun driver => driver.connection.taken = [.request claimingRequest 0] ∧
      ∃ frame ∈ driver.connection.enqueued, frame.origin = .request 0) (by decide +kernel)
  have hi (command : Command) (hc : .submit command ∈ publishing) : command.Issued := by
    simp only [publishing, List.mem_cons, List.not_mem_nil, Input.submit.injEq, reduceCtorEq,
      or_false] at hc
    exact hc ▸ ⟨_, _, _, _, _, claimingRequest_requested⟩
  obtain ⟨command, packet, header, headerLen, hc, _, _, _, hd, hp, hq⟩ :=
    (request_publish_content plainOptions plainConnack stillClock publishing driver hr hi).left
      frame hm 0 ho
  rw [ht] at hc
  cases List.mem_singleton.mp hc
  exact ⟨driver, hr, frame, hm, ho, header, headerLen, packet, hd, hp,
    hq _ _ _ _ _ claimingRequest_requested⟩

end Driver
end MqttWasi
