import MqttWasi.Driver.Handle
import MqttWasi.Driver.Theorems.Framing

-- The connection as far as requests are concerned, and the frames that it queues.

namespace MqttWasi

-- What a request that is made by `request` looks like.
structure RequestCommand.Complete (command : RequestCommand) : Prop where
  concrete : hasWildcard command.responseTopic.toList = false
  unshared : sharePrefix.isPrefixOf command.responseTopic.toList = false
  responseTopic : command.properties.getString .responseTopic = some command.responseTopic
  correlationData : command.properties.getBinary .correlationData = some command.correlationData

theorem RequestOptions.validate_ok {options : RequestOptions}
    (h : options.validate clock = .ok ()) :
    hasWildcard options.responseTopic.toList = false ∧
      sharePrefix.isPrefixOf options.responseTopic.toList = false := by
  unfold validate at h
  split at h <;> try split at h <;> try split at h
  case isFalse.isFalse.isFalse hw hs =>
    exact ⟨eq_false_of_ne_true hw, eq_false_of_ne_true hs⟩
  all_goals cases h

theorem AsyncMqttClient.request_complete {options : RequestOptions}
    (h : request topic payload options uuid clock = .ok command) : command.Complete := by
  have ⟨_, hv, h⟩ := Except.bind_eq_ok.mp h
  have ⟨hw, hs⟩ := RequestOptions.validate_ok hv
  cases h
  refine ⟨hw, hs, ?_, Properties.find_replaceSingle _ _ _ rfl⟩
  have ht : (options.properties.setResponseTopic options.responseTopic).getString .responseTopic =
      some options.responseTopic :=
    Properties.find_replaceSingle _ _ _ rfl
  exact (Properties.find_replaceSingle_ne _ (by decide) _ _).trans ht

theorem Command.Issued.complete {sender : Sender} (h : Issued (.request command sender)) :
    command.Complete :=
  have ⟨_, _, _, _, _, h⟩ := h
  AsyncMqttClient.request_complete h

namespace MqttConnection

open Relation (ReflTransGen)

-- A frame that the broker has to accept.
structure Lawful (c : MqttConnection) (bytes : Bytes) : Prop where
  le_max : bytes.length ≤ c.peerMaxPacketSize
  allowed : bytes.length < 2 ^ 32 → Allowed c.serverCapabilities bytes

-- What can happen to requests other than that they are registered or taken up.
inductive Course : MqttConnection → MqttConnection → Prop
  | other (frameReader received dispatched events emitted pendingAcks nextPacketId outboundBytes
      flushActions needsFlush pingQueued pingOutstandingSince closing terminalEventSent
      commandChannelClosed responseSubscriptions clock handlesDropped nextSender droppedReceivers
      replies) :
    Course c
      { c with
        frameReader, received, dispatched, events, emitted, pendingAcks, nextPacketId
        outboundBytes, flushActions, needsFlush, pingQueued, pingOutstandingSince, closing
        terminalEventSent, commandChannelClosed, responseSubscriptions, clock, handlesDropped
        nextSender, droppedReceivers, replies }
  | dequeue : (c.commands = command :: rest) →
    (∀ request result, command ≠ .request request result) → Course c (c.dequeued command rest)
  | remove : (c.pendingRequests.lookup correlationData = some pending) →
    Course c (c.withoutRequest correlationData pending)
  | publish : (c.Publishes correlationData pending packetId entry bytes) →
    Course c (((c.await packetId entry).push (pending.frame correlationData bytes)).markPublished
      correlationData (some packetId))
  | publishQos0 : (c.PublishesQos0 correlationData pending bytes) →
    Course c ((c.push (pending.frame correlationData bytes)).markPublished correlationData none)
  | push (frame) : (∀ result, frame.origin ≠ .request result) → (frame.requestCorrelation = none) →
    (c.Lawful frame.bytes) →
    Course c (c.push frame)
  | write : (c.outbound = frame :: rest) → (Write frame rest c c') → Course c c'

variable {c c' : MqttConnection}

theorem Fits.lawful (h : c.Fits bytes t asked) (hp : t ≠ .publish) (hs : t ≠ .subscribe) :
    c.Lawful bytes where
  le_max := h.le_max
  allowed hl := .of_type (h.asks hl).typed hp hs _

theorem Shift.course (h : Shift c c') : ReflTransGen Course c c' := by
  cases h
  case quiet hq => cases hq; exact .single (.other ..)
  case remove hl => exact .head (.remove hl) (.single (.other ..))
  all_goals exact .single (.other ..)

theorem Publish.course (h : Publish c c') : ReflTransGen Course c c' := by
  cases h
  case quiet hq => cases hq; exact .single (.other ..)
  case qos1 hp => exact .single (.publish hp)
  case qos0 hp => exact .single (.publishQos0 hp)

theorem Move.course (h : Move c c') : ReflTransGen Course c c' := by
  cases h
  case shift hs => exact hs.course
  case publish hp => exact hp.course

theorem Carries.lawful (h : c.Carries packetId kind bytes) (hr : c.HasRoom bytes) :
    c.Lawful bytes where
  le_max := hr.left
  allowed hl := by
    cases h
    case publish hv _ he => exact PublishPacket.allowed he hl hv
    case subscribe hv he =>
      have ⟨hw, hs⟩ := ServerCapabilities.validateSubscriptionFilter_ok hv
      exact SubscribePacket.allowed he hl hw hs
    case unsubscribe he => exact .of_type (UnsubscribePacket.asks he hl).typed nofun nofun _

theorem Queues.lawful (h : c.Queues packet bytes) : c.Lawful bytes where
  le_max := h.room.left
  allowed hl := PublishPacket.allowed h.encoded hl h.valid

theorem Takes.course (h : Takes command c c') : ReflTransGen Course c c' := by
  cases h
  case refuse => exact .single (.other ..)
  case await ha =>
    exact .head (.other ..) (.single (.push _ nofun rfl ⟨ha.room.left, (ha.carries.lawful ha.room).allowed⟩))
  case queue hq => exact .single (.push _ nofun rfl hq.lawful)
  case disconnect hr =>
    have hl := hr.disconnect.lawful nofun nofun
    exact .head (.other ..) (.single (.push _ nofun rfl ⟨hl.le_max, hl.allowed⟩))

theorem processCommand_course (h : ∀ request result, command ≠ .request request result) :
    ReflTransGen Course c (processCommand command c).state := by
  have ⟨_, hq, ht⟩ := processCommand_accepts (c := c) h
  exact (Shift.quiet hq).course.trans ht.course

theorem abandonCommands_course : ReflTransGen Course c (abandonCommands c).state := by
  cases hc : c.closing
  case true =>
    rw [abandonCommands_of_closing hc]
    exact .single (.other ..)
  case false =>
    rcases abandonCommands_of_open hc with ⟨e, ha⟩ | ⟨hr, ha⟩
    case inl =>
      rw [ha]
      exact .single (.other ..)
    case inr =>
      have hl := hr.disconnect.lawful nofun nofun
      rw [ha]
      exact .head (.other ..) (.single (.push _ nofun rfl ⟨hl.le_max, hl.allowed⟩))

theorem maintainKeepAlive_course : ReflTransGen Course c (maintainKeepAlive c).state := by
  rcases (maintainKeepAlive_cases (c := c)).right with hq | ⟨_, c₁, hq, _, _, hr, h⟩
  case inl => exact (Shift.quiet hq).course
  case inr =>
    rw [h]
    exact ((Shift.quiet hq).course.tail (.push pingFrame nofun rfl (hr.ping.lawful nofun nofun))).tail
      (.other ..)

theorem Announce.course (h : Announce reason c c') : Course c c' := by
  cases h <;> exact .other ..

theorem Flush.course (h : Flush c c') : ReflTransGen Course c c' := by
  cases h
  case accept => exact .single (.other ..)
  case complete flush _ _ hp =>
    generalize flush.action = action at hp
    cases hp
    case disconnect ha => exact .head (.other ..) (.single ha.course)
    all_goals exact .single (.other ..)

theorem course_of {M : MqttConnection → MqttConnection → Prop} (h : ReflTransGen M c c')
    (hm : ∀ {c c'}, M c c' → ReflTransGen Course c c') : ReflTransGen Course c c' :=
  h.preserves (P := ReflTransGen Course c) (fun _ _ hs h => h.trans (hm hs)) .refl

theorem Acked.course (h : Acked packet c c') : ReflTransGen Course c c' := by
  cases h
  case qos0 => exact .refl
  case qos1 hf => exact .single (.push _ nofun rfl (hf.lawful nofun nofun))

theorem Handled.course (h : Handled packet c r) : ReflTransGen Course c r.state := by
  cases h
  case response ha hr => exact (ha.course.tail (.remove hr.right.left)).tail (.other ..)
  case event ha _ => exact ha.course.tail (.other ..)
  case error ha =>
    rcases ha with rfl | ha
    case inl => exact .refl
    case inr => exact ha.course

theorem Acknowledges.course (h : Acknowledges Move packet k packetId c r) :
    ReflTransGen Course c r.state := by
  cases h
  case ignored => exact .refl
  case refused => exact .refl
  case settled hs =>
    have ⟨_, _, hm⟩ := hs
    exact .head (.other ..) (course_of hm Move.course)

theorem dispatchPacket_course (hd : ∀ disconnect, packet ≠ .disconnect disconnect) :
    ReflTransGen Course c (dispatchPacket packet c).state := by
  cases packet
  case publish packet => exact (dispatchPublish_handled c packet).course
  case pubAck ack => exact (dispatchPacket_acknowledges rfl).course
  case subAck ack => exact (dispatchPacket_acknowledges rfl).course
  case unsubAck ack => exact (dispatchPacket_acknowledges rfl).course
  case pingResp => exact .single (.other ..)
  case disconnect disconnect => exact absurd rfl (hd disconnect)
  all_goals exact .refl

end MqttConnection

namespace Driver

open MqttConnection
open Relation (ReflTransGen)

-- A step is one of these: a request is taken up, a packet arrives, the connection ends, or what
-- happens has nothing to do with the requests that are waiting to be taken up.
inductive Proceeds : Driver → Input → Driver → Prop
  | course (p p') : (ReflTransGen Course c c') → Proceeds ⟨c, p⟩ input ⟨c', p'⟩
  | request (p') : (p.takes = true) → (c.commands = .request request result :: rest) →
    (TakesUp request result (c.dequeued (.request request result) rest) c') →
    Proceeds ⟨c, p⟩ .proceed ⟨c', p'⟩
  | arrives (next) : (FrameReader.tryDecode c.frameReader = .ok (some packet) reader) →
    Proceeds ⟨c, .decodeAndDispatch⟩ .proceed
      (perform (dispatchPacket packet) next (c.arrived reader packet))
  | ends : (Ends c c') → Proceeds ⟨c, .stopping result⟩ .proceed ⟨c', .stopped result⟩
  | outside (p) : (Outside c input c') → Proceeds ⟨c, p⟩ input ⟨c', p⟩

theorem proceeds_perform {x : DriverM α} (h : ReflTransGen Course c (x c).state) (p input next) :
    Proceeds ⟨c, p⟩ input (perform x next c) := by
  rw [perform_eq]
  exact .course _ _ h

theorem Does.proceeds {driver driver' : Driver} (h : Does driver input driver') :
    Proceeds driver input driver' := by
  cases h
  case pass => exact .course _ _ .refl
  case wake => exact .course _ _ .refl
  case shift hs => exact .course _ _ (course_of hs Shift.course)
  case command command rest c p next hp hc =>
    by_cases hr : ∀ request result, command ≠ .request request result
    case pos =>
      rw [perform_eq]
      exact .course _ _ (.head (.dequeue hc hr) (processCommand_course hr))
    case neg =>
      simp only [ne_eq, not_forall, not_not] at hr
      obtain ⟨request, result, rfl⟩ := hr
      have ⟨c', hx, ht⟩ := processCommand_takesUp (c.dequeued (.request request result) rest)
        request result
      rw [perform_ok hx]
      exact .request _ hp hc ht
  case abandon => exact proceeds_perform abandonCommands_course _ _ _
  case keepAlive => exact proceeds_perform maintainKeepAlive_course _ _ _
  case write ho => exact proceeds_perform (.single (.write ho (writeFront_writes ..))) _ _ _
  case flush => exact proceeds_perform (course_of flushAccepted_flushes Flush.course) _ _ _
  case read result c _ _ hc =>
    rw [perform_eq]
    have hr := readNext_receives (c := c) result
    generalize (readNext result c).state = c' at hr ⊢
    cases hr
    case idle => exact .course _ _ .refl
    case close ha => exact .course _ _ (.single ha.course)
    case receive => exact .course _ _ (.single (.other ..))
  case decode c next =>
    rcases perform_decodeNext_cases c next with ⟨reader, p, _, hx⟩ | ⟨packet, reader, hd, hx⟩ <;> rw [hx]
    case inl => exact .course _ _ (.single (.other ..))
    case inr => exact .arrives _ hd
  case finish c result =>
    have ⟨c', hf, he⟩ := finish_ends c result
    rw [perform_ok hf]
    exact .ends he
  case outside ho => exact .outside _ ho

end Driver
end MqttWasi
