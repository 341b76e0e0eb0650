import MqttWasi.Driver.Theorems.Ledger
import MqttWasi.Driver.Theorems.Senders

-- The driver as long as nobody makes requests.

namespace MqttWasi

-- Whether this can happen if the handles do not support requests.
def Input.plain : Input → Bool
  | .submit (.request _ _) => false
  | _                      => true

theorem Input.plain_submit (h : Input.plain (.submit command) = true) (request result) :
    command ≠ .request request result := by
  rintro rfl
  cases h

namespace MqttConnection

open Relation (ReflTransGen)

-- What happens to a connection without requests, apart from acknowledgements and its end.
inductive Deed : MqttConnection → MqttConnection → Prop
  | other (frameReader received events emitted nextPacketId pingQueued pingOutstandingSince closing
      terminalEventSent commandChannelClosed clock) :
    Deed c
      { c with
        frameReader, received, events, emitted, nextPacketId, pingQueued, pingOutstandingSince
        closing, terminalEventSent, commandChannelClosed, clock }
  | outside : (input.plain = true) → (Outside c input c') → Deed c c'
  | sweep :
    Deed c
      { c with
        pendingAcks := c.pendingAcks.mapValues fun pending =>
          if pending.kind.result?.any c.isClosed then pending.bury else pending }
  | expire : (c.pendingAcks.lookup packetId = some pending) →
    (∀ responseTopic, pending.kind ≠ .responseSubscribe responseTopic) →
    Deed c
      { c with
        pendingAcks := c.pendingAcks.adjust packetId PendingAck.bury
        replies := c.replies ++
          (pending.kind.result?.map (·, .error (.timeout pending.timeoutLabel))).toList }
  | forget : (c.pendingAcks.lookup packetId = some pending) →
    (pending.kind = .responseSubscribe responseTopic) →
    Deed c
      { c with
        pendingAcks := c.pendingAcks.adjust packetId PendingAck.bury
        responseSubscriptions := c.responseSubscriptions.erase responseTopic }
  | take : (c.commands = command :: rest) → (∀ request result, command ≠ .request request result) →
    (Accepts command (c.dequeued command rest) c') → Deed c c'
  | push (frame) : (frame.action.reply? = none) → (frame.requestCorrelation = none) →
    (frame.offset = 0) → (c.Fits frame.bytes t none) → Deed c (c.push frame)
  | write : (c.outbound = frame :: rest) → (Write frame rest c c') → Deed c c'
  | flush : Flush c c' → Deed c c'
  | arrive (reader) : (packet.acknowledges = none) → Deed c (c.arrived reader packet)

-- No request has been made.
structure Plain (c : MqttConnection) : Prop where
  commands : ∀ command ∈ c.commands, ∀ request result, command ≠ .request request result
  requests : c.pendingRequests = ∅

variable {c c' : MqttConnection}

theorem Plain.lookup (h : c.Plain) (correlationData) :
    c.pendingRequests.lookup correlationData = none := by
  rw [h.requests]
  rfl

theorem Plain.congr (h : c.Plain) (hc : c'.commands = c.commands)
    (hr : c'.pendingRequests = c.pendingRequests) : c'.Plain :=
  ⟨by rw [hc]; exact h.commands, hr.trans h.requests⟩

theorem Takes.plain (ht : Takes command c c') (h : c.Plain) : c'.Plain := by
  cases ht <;> exact h.congr rfl rfl

theorem Quiet.plain (hq : Quiet c c') (h : c.Plain) : c'.Plain := by
  cases hq
  exact h.congr rfl rfl

theorem Accepts.plain (ha : Accepts command c c') (h : c.Plain) : c'.Plain := by
  obtain ⟨_, hq, ht⟩ := ha
  exact ht.plain (hq.plain h)

theorem Announce.plain (ha : Announce reason c c') (h : c.Plain) : c'.Plain := by
  cases ha <;> exact h.congr rfl rfl

theorem Deed.plain (hd : Deed c c') (h : c.Plain) : c'.Plain := by
  cases hd
  case outside hi ho =>
    cases ho
    case submit command _ _ =>
      refine ⟨fun command' hm => ?_, h.requests⟩
      cases List.mem_append.mp hm
      case inl hm => exact h.commands command' hm
      case inr hm => exact List.mem_singleton.mp hm ▸ Input.plain_submit hi
    case reorder correlationData =>
      have ha : c.pendingRequests.adjust correlationData id = c.pendingRequests := by
        rw [AList.adjust, h.lookup correlationData]
      exact ⟨h.commands, ha.trans h.requests⟩
    all_goals exact h.congr rfl rfl
  case take hc ha =>
    refine ha.plain ⟨fun command' hm => h.commands command' ?_, h.requests⟩
    rw [hc]
    exact List.mem_cons_of_mem _ hm
  case write hw => cases hw <;> exact h.congr rfl rfl
  case flush hf =>
    cases hf
    case accept => exact h.congr rfl rfl
    case complete flush _ _ hp =>
      generalize flush.action = action at hp
      cases hp
      case disconnect ha => exact ha.plain (h.congr rfl rfl)
      all_goals exact h.congr rfl rfl
  all_goals exact h.congr rfl rfl

-- The parts of the driver do nothing else to such a connection.

theorem Quiet.deed (h : Quiet c c') : Deed c c' := by
  cases h
  exact .other ..

theorem Announce.deed (h : Announce reason c c') : Deed c c' := by
  cases h <;> exact .other ..

theorem Shift.deed (hp : c.Plain) (h : Shift c c') : Deed c c' := by
  cases h
  case quiet hq => exact hq.deed
  case sweep => exact .sweep
  case bury hn hl => exact .expire hl hn
  case forget hk hl => exact .forget hl hk
  case remove correlationData _ hl =>
    rw [hp.lookup correlationData] at hl
    cases hl

theorem Move.deed (hp : c.Plain) (h : Move c c') : Deed c c' := by
  cases h
  case shift hs => exact hs.deed hp
  case publish hs =>
    cases hs
    case quiet hq => exact hq.deed
    case qos1 correlationData _ _ hs =>
      have hl := hs.lookup
      rw [hp.lookup correlationData] at hl
      cases hl
    case qos0 correlationData _ _ hs =>
      have hl := hs.lookup
      rw [hp.lookup correlationData] at hl
      cases hl

theorem deeds_plain (h : ReflTransGen Deed c c') (hp : c.Plain) : c'.Plain :=
  h.preserves (fun _ _ hd hp => hd.plain hp) hp

theorem deeds_of {M : MqttConnection → MqttConnection → Prop} (h : ReflTransGen M c c')
    (hm : ∀ {c c'}, c.Plain → M c c' → Deed c c') (hp : c.Plain) : ReflTransGen Deed c c' :=
  h.preserves (P := ReflTransGen Deed c) (fun _ _ hs h => h.tail (hm (deeds_plain h hp) hs)) .refl

theorem abandonCommands_deeds : ReflTransGen Deed c (abandonCommands c).state := by
  cases hc : c.closing
  case true =>
    rw [abandonCommands_of_closing hc]
    exact .single (.other ..)
  case false =>
    rcases abandonCommands_of_open hc with ⟨e, ha⟩ | ⟨hr, ha⟩
    case inl =>
      rw [ha]
      exact .single (.other ..)
    case inr =>
      have hf := hr.disconnect
      rw [ha]
      exact .head (.other ..) (.single (.push abandonedDisconnect rfl rfl rfl ⟨hf.le_max, hf.room, hf.asks⟩))

theorem maintainKeepAlive_deeds : ReflTransGen Deed c (maintainKeepAlive c).state := by
  rcases (maintainKeepAlive_cases (c := c)).right with hq | ⟨_, c₁, hq, _, _, hr, h⟩
  case inl => exact .single hq.deed
  case inr =>
    rw [h]
    exact .head hq.deed (.head (.push pingFrame rfl rfl rfl hr.ping) (.single (.other ..)))

theorem Acked.deeds (h : Acked packet c c') : ReflTransGen Deed c c' := by
  cases h
  case qos0 => exact .refl
  case qos1 hf => exact .single (.push _ rfl rfl rfl hf)

theorem Handled.deeds (h : Handled packet c r) (hp : c.Plain) : ReflTransGen Deed c r.state := by
  cases h
  case response correlationData pending ha hr =>
    have hl := hr.right.left
    rw [(deeds_plain ha.deeds hp).lookup correlationData] at hl
    cases hl
  case event ha _ => exact ha.deeds.tail (.other ..)
  case error ha =>
    rcases ha with rfl | ha
    case inl => exact .refl
    case inr => exact ha.deeds

-- What a packet that is not an acknowledgement leads to.
theorem dispatchPacket_deeds (hd : ∀ disconnect, packet ≠ .disconnect disconnect)
    (hn : packet.acknowledges = none) (hp : c.Plain) :
    ReflTransGen Deed c (dispatchPacket packet c).state := by
  cases packet
  case publish packet => exact (dispatchPublish_handled c packet).deeds hp
  case pingResp => exact .single (.other ..)
  case disconnect disconnect => exact absurd rfl (hd disconnect)
  case pubAck => cases hn
  case subAck => cases hn
  case unsubAck => cases hn
  all_goals exact .refl

theorem Receipt.plain (hr : Receipt packet k packetId c c') (h : c.Plain) : c'.Plain := by
  cases hr <;> exact h.congr rfl rfl

theorem Ends.plain (he : Ends c c') (h : c.Plain) : c'.Plain := by
  cases he <;> exact ⟨h.commands, rfl⟩

theorem dispatchPacket_receipt (ha : packet.acknowledges = some (k, packetId)) (hp : c.Plain) :
    ∃ c', Receipt packet k packetId c c' ∧ ReflTransGen Deed c' (dispatchPacket packet c).state := by
  obtain ⟨c', hr, hm⟩ := (dispatchPacket_acknowledges (c := c) ha).receipt
  exact ⟨c', hr, deeds_of hm Move.deed (hr.plain hp)⟩

end MqttConnection

namespace Driver

open MqttConnection
open Relation (ReflTransGen)

-- A step consists of such deeds, unless an acknowledgement is dispatched or the connection ends.
inductive Advances : Driver → Input → Driver → Prop
  | deeds (p p') : (ReflTransGen Deed c c') → Advances ⟨c, p⟩ input ⟨c', p'⟩
  | acknowledged (p') : (FrameReader.tryDecode c.frameReader = .ok (some packet) reader) →
    (packet.acknowledges = some (k, packetId)) →
    (Receipt packet k packetId (c.arrived reader packet) c₁) → (ReflTransGen Deed c₁ c') →
    Advances ⟨c, .decodeAndDispatch⟩ .proceed ⟨c', p'⟩
  | ends (p) : (ReflTransGen Deed c c₁) → (Ends c₁ c') → (p'.terminated = true) →
    Advances ⟨c, p⟩ .proceed ⟨c', p'⟩

theorem advances_perform {x : DriverM α} (h : ReflTransGen Deed c (x c).state) (p input next) :
    Advances ⟨c, p⟩ input (perform x next c) := by
  rw [perform_eq]
  exact .deeds _ _ h

theorem decode_advances (c next) (hp : c.Plain) :
    Advances ⟨c, .decodeAndDispatch⟩ .proceed (perform decodeNext next c) := by
  rcases perform_decodeNext_cases c next with ⟨reader, p, _, hx⟩ | ⟨packet, reader, hd, hx⟩ <;> rw [hx]
  case inl => exact .deeds _ _ (.single (.other ..))
  case inr =>
    have hp' : (c.arrived reader packet).Plain := hp.congr rfl rfl
    cases ha : packet.acknowledges
    case none =>
      rcases dispatchPacket_cases (c.arrived reader packet) packet with ⟨_, c', _, hx, he⟩ | hs
      case inl =>
        rw [perform_error hx]
        exact .ends _ (.single (.arrive reader ha)) he rfl
      case inr =>
        rw [perform_eq]
        exact .deeds _ _ (.head (.arrive reader ha) (dispatchPacket_deeds hs ha hp'))
    case some asked =>
      obtain ⟨c₁, hr, hm⟩ := dispatchPacket_receipt ha hp'
      rw [perform_eq]
      exact .acknowledged _ hd ha hr hm

theorem Does.advances {driver driver' : Driver} (h : Does driver input driver')
    (hi : input.plain = true) (hp : driver.connection.Plain) : Advances driver input driver' := by
  cases h
  case pass => exact .deeds _ _ .refl
  case wake => exact .deeds _ _ .refl
  case shift hs => exact .deeds _ _ (deeds_of hs Shift.deed hp)
  case command command rest c p next ht hc =>
    have hr := hp.commands command (hc ▸ List.mem_cons_self)
    rw [perform_eq]
    exact .deeds _ _ (.single (.take hc hr (processCommand_accepts hr)))
  case abandon => exact advances_perform abandonCommands_deeds _ _ _
  case keepAlive => exact advances_perform maintainKeepAlive_deeds _ _ _
  case write ho => exact advances_perform (.single (.write ho (writeFront_writes ..))) _ _ _
  case flush =>
    exact advances_perform (ReflTransGen.mono (fun _ _ => .flush) _ _ flushAccepted_flushes) _ _ _
  case read result c _ _ _ =>
    rw [perform_eq]
    have hr := readNext_receives (c := c) result
    generalize (readNext result c).state = c' at hr ⊢
    cases hr
    case idle => exact .deeds _ _ .refl
    case close ha => exact .deeds _ _ (.single ha.deed)
    case receive => exact .deeds _ _ (.single (.other ..))
  case decode c next => exact decode_advances c next hp
  case finish c result =>
    obtain ⟨c', hf, he⟩ := finish_ends c result
    rw [perform_ok hf]
    exact .ends _ .refl he rfl
  case outside ho => exact .deeds _ _ (.single (.outside hi ho))

-- What holds of every connection without requests.
theorem Advances.preserves {P : MqttConnection → Prop} {driver driver' : Driver}
    (hd : ∀ c c', Deed c c' → P c → P c') (ha : ∀ c reader packet, P c → P (c.arrived reader packet))
    (hr : ∀ c c' packet k packetId, packet.acknowledges = some (k, packetId) →
      Receipt packet k packetId c c' → P c → P c')
    (he : ∀ c c', Ends c c' → P c → P c') (h : driver.Advances input driver')
    (hp : P driver.connection) : P driver'.connection := by
  cases h
  case deeds hs => exact hs.preserves hd hp
  case acknowledged hn hx hs => exact hs.preserves hd (hr _ _ _ _ _ hn hx (ha _ _ _ hp))
  case ends hs hx _ => exact he _ _ hx (hs.preserves hd hp)

theorem Advances.plain {driver driver' : Driver} (h : driver.Advances input driver')
    (hp : driver.connection.Plain) : driver'.connection.Plain :=
  h.preserves (P := Plain) (fun _ _ hd h => hd.plain h) (fun _ _ _ h => h.congr rfl rfl)
    (fun _ _ _ _ _ _ hr h => hr.plain h) (fun _ _ he h => he.plain h) hp

end Driver
end MqttWasi
