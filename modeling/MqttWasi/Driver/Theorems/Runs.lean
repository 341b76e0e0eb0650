import MqttWasi.Library.Machine
import MqttWasi.Driver.Theorems.Transport

-- The steps of the driver, by the part of it that makes them.

namespace MqttWasi

-- Who is waiting for a frame to be written.
def WrittenAction.result? (action : WrittenAction) : Option Sender :=
  action.reply?.map (·.1)

theorem WrittenAction.failAction_eq (action : WrittenAction) (e : Error) :
    MqttConnection.failAction action e =
      MqttConnection.failResult action.result? e := by
  cases action <;> rfl

def Phase.running : Phase → Bool
  | .stopping _ | .stopped _ => false
  | _                        => true

-- Whether the next step takes a command from the channel.
def Phase.takes : Phase → Bool
  | .drainCommands (_ + 1) | .recv _ => true
  | _                                => false

-- Whether `fail_pending` has emptied the queue.
def Phase.terminated : Phase → Bool
  | .stopped _ | .stopping (.error (.serverDisconnected _)) => true
  | _ => false

theorem Phase.running_of_terminated (h : Phase.terminated p = true) : p.running = false := by
  cases p <;> first | rfl | cases h

theorem Phase.running_of_takes (h : Phase.takes p = true) : p.running = true := by
  cases p <;> first | rfl | cases h

namespace MqttConnection

open EStateM (Leads)
open Relation (ReflTransGen)

-- A request is registered before its command is sent.
def Registers (c : MqttConnection) (command : Command) (lifecycle : RequestLifecycle) : Prop :=
  match command with
  | .request request _ => c.requestLifecycle.register request.correlationData = .ok lifecycle
  | _                  => lifecycle = c.requestLifecycle

-- What the holders of the handles can do.
inductive Outside : MqttConnection → Input → MqttConnection → Prop
  | submit (command) : (command.result = c.nextSender) → (c.Registers command lifecycle) →
    Outside c (.submit command)
      { c with
        commands := c.commands ++ [command], nextSender := c.nextSender + 1
        requestLifecycle := lifecycle }
  | dropReceiver : (result < c.nextSender) →
    Outside c (.dropReceiver result) { c with droppedReceivers := result :: c.droppedReceivers }
  | cancelRequest (correlationData) :
    Outside c (.cancelRequest correlationData)
      { c with requestLifecycle := c.requestLifecycle.cancel correlationData }
  | finishRequest (correlationData) :
    Outside c (.finishRequest correlationData)
      { c with requestLifecycle := c.requestLifecycle.finish correlationData }
  | nextEvent : Outside c .nextEvent { c with events := c.events.tail }
  | dropHandles : Outside c .dropHandles { c with handlesDropped := true }
  | reorder (packetId correlationData) :
    Outside c (.reorder packetId correlationData)
      { c with
        pendingAcks := c.pendingAcks.adjust packetId id
        pendingRequests := c.pendingRequests.adjust correlationData id }

variable {c c' : MqttConnection}

-- What the broker has agreed to.
def limits (c : MqttConnection) : Nat × UInt16 × ServerCapabilities × Nat :=
  (c.peerMaxPacketSize, c.peerReceiveMaximum, c.serverCapabilities, c.maxPendingOperations)

-- What the driver has read and decoded.
def inbound (c : MqttConnection) : FrameReader × Bytes × List Packet :=
  (c.frameReader, c.received, c.dispatched)

-- What the driver has said about the connection.
def voice (c : MqttConnection) : List Event × Bool :=
  (c.emitted, c.terminalEventSent)

-- None of these is changed by a command, by a timer or by a write.
def aside (c : MqttConnection) :=
  (c.limits, c.inbound, c.voice)

theorem aside_withoutRequest (c : MqttConnection) (correlationData pending) :
    (c.withoutRequest correlationData pending).aside = c.aside := by
  have ⟨_, _, _, he⟩ := withoutRequest_eq c correlationData pending
  rw [he]
  rfl

theorem Shift.aside (h : Shift c c') : c'.aside = c.aside := by
  cases h
  case quiet hq => cases hq; rfl
  case remove pending correlationData e _ => exact aside_withoutRequest c correlationData pending
  all_goals rfl

theorem Publish.aside (h : Publish c c') : c'.aside = c.aside := by
  cases h
  case quiet hq => cases hq; rfl
  all_goals rfl

theorem Move.aside (h : Move c c') : c'.aside = c.aside := by
  cases h
  case shift hs => exact hs.aside
  case publish hp => exact hp.aside

theorem Begin.aside (h : Begin c c') : c'.aside = c.aside := by
  cases h
  case publish hp => exact hp.aside
  case withdraw pending correlationData e _ _ => exact aside_withoutRequest c correlationData pending
  all_goals rfl

theorem Enter.aside (h : Enter c c') : c'.aside = c.aside := by
  cases h
  case begin hb => exact hb.aside
  all_goals rfl

theorem Write.aside (h : Write frame rest c c') : c'.aside = c.aside := by
  cases h <;> rfl

theorem Outside.aside (h : Outside c input c') : c'.aside = c.aside := by
  cases h <;> rfl

-- A part of the connection that no move changes is not changed at all.
theorem unchanged {M : MqttConnection → MqttConnection → Prop} {f : MqttConnection → α}
    (h : ReflTransGen M c c') (hm : ∀ {c c'}, M c c' → f c' = f c) : f c' = f c :=
  h.preserves (P := fun c' => f c' = f c) (fun _ _ hs hp => (hm hs).trans hp) rfl

theorem abandonCommands_aside : (abandonCommands c).state.aside = c.aside := by
  rcases abandonCommands_enters (c := c) with ha | ⟨e, ha⟩
  case inl => exact unchanged ha Enter.aside
  case inr =>
    rw [ha]
    rfl

-- Everybody who waits for something.
def waiting (c : MqttConnection) : List Sender :=
  c.pendingAcks.values.filterMap (·.kind.result?) ++
    c.outbound.filterMap (·.action.result?) ++
      c.flushActions.filterMap (·.action.result?) ++
        c.pendingRequests.values.map (·.result)

-- They are told that something went wrong.
def told (c : MqttConnection) (results : List Sender) (e : Error) : MqttConnection :=
  { c with replies := c.replies ++ results.map (·, .error e) }

theorem told_nil (c : MqttConnection) (e : Error) : c.told [] e = c := by
  simp [told]

theorem told_told (c : MqttConnection) (l l' : List Sender) (e : Error) :
    (c.told l e).told l' e = c.told (l ++ l') e := by
  simp [told]

theorem forM_failResult (l : List α) (f : α → Option Sender) (e : Error) (c : MqttConnection) :
    (l.forM fun a => failResult (f a) e) c = .ok () (c.told (l.filterMap f) e) := by
  induction l generalizing c
  case nil => rw [List.filterMap_nil, told_nil]; rfl
  case cons a l ih =>
    have h : failResult (f a) e c = .ok () (c.told (f a).toList e) := by
      cases f a
      case none => rw [Option.toList_none, told_nil]; rfl
      case some => rfl
    refine (EStateM.bind_ok h).trans ((ih _).trans ?_)
    rw [List.filterMap_cons, told_told]
    cases f a <;> rfl

theorem forM_failAction (l : List α) (f : α → WrittenAction) (e : Error) (c : MqttConnection) :
    (l.forM fun a => failAction (f a) e) c =
      .ok () (c.told (l.filterMap fun a => (f a).result?) e) := by
  simp only [WrittenAction.failAction_eq]
  exact forM_failResult l _ e c

theorem forM_failRequests (l : List ((_ : Bytes) × PendingRequest)) (c : MqttConnection) :
    (l.forM fun e => do
      finishRequestLifecycle e.fst
      send e.snd.result (.error .connectionClosed)) c =
        .ok () { c.told (l.map (·.snd.result)) .connectionClosed with
                 requestLifecycle := (l.map (·.fst)).foldl .finish c.requestLifecycle } := by
  induction l generalizing c
  case nil => rw [List.map_nil, told_nil]; rfl
  case cons e l ih =>
    have h := ih
      ({ c with requestLifecycle := c.requestLifecycle.finish e.fst }.reply e.snd.result
        (some (.error .connectionClosed)))
    refine (EStateM.bind_ok rfl).trans (h.trans ?_)
    simp [reply, told]

theorem failAcks_apply (c : MqttConnection) : failPending.failAcks c =
    .ok () ({ c with pendingAcks := ∅ }.told
      (c.pendingAcks.values.filterMap fun pending : PendingAck => pending.kind.result?)
      .connectionClosed) :=
  forM_failResult ..

theorem failFrames_apply (c : MqttConnection) : failPending.failFrames c =
    .ok () ({ c with outbound := [] }.told
      (c.outbound.filterMap fun frame : OutboundFrame => frame.action.result?)
      .connectionClosed) :=
  forM_failAction ..

theorem failFlushes_apply (c : MqttConnection) : failPending.failFlushes c =
    .ok () ({ c with flushActions := [] }.told
      (c.flushActions.filterMap fun flush : PendingFlush => flush.action.result?)
      .connectionClosed) :=
  forM_failAction ..

theorem failRequests_apply (c : MqttConnection) : failPending.failRequests c =
    .ok () { c.told (c.pendingRequests.values.map (·.result)) .connectionClosed with
             pendingRequests := ∅
             requestLifecycle := c.pendingRequests.keys.foldl .finish c.requestLifecycle } := by
  refine (forM_failRequests c.pendingRequests.entries { c with pendingRequests := ∅ }).trans ?_
  rw [AList.values, List.map_map]
  rfl

-- Everybody who waits is told that the connection is closed.
def closed (c : MqttConnection) : MqttConnection :=
  { c.told c.waiting .connectionClosed with
    pendingAcks := ∅, outbound := [], flushActions := [], outboundBytes := 0
    pendingRequests := ∅
    requestLifecycle := c.pendingRequests.keys.foldl .finish c.requestLifecycle }

theorem failPending_apply (c : MqttConnection) : failPending c = .ok () c.closed := by
  -- The states in between are kept opaque: written out, they would grow with every step.
  have h₁ := failAcks_apply c
  generalize e₁ : MqttConnection.told _ _ _ = c₁ at h₁
  have h₂ := failFrames_apply c₁
  generalize e₂ : MqttConnection.told _ _ _ = c₂ at h₂
  have h₃ := failFlushes_apply c₂
  generalize e₃ : MqttConnection.told _ _ _ = c₃ at h₃
  have h₄ := failRequests_apply { c₃ with outboundBytes := 0 }
  rw [failPending, EStateM.bind_ok h₁, EStateM.bind_ok h₂, EStateM.bind_ok h₃,
    EStateM.bind_ok (EStateM.modify_apply _ _), h₄]
  subst e₃ e₂ e₁
  simp only [closed, told, waiting, List.map_append, List.append_assoc]

-- What is left of a connection that has ended.
inductive Ends (c : MqttConnection) : MqttConnection → Prop
  | silent (terminalEventSent) : Ends c { c.closed with terminalEventSent }
  | event (reason terminalEventSent) :
    Ends c { c.closed.emit (.disconnected reason) with terminalEventSent }

theorem finish_cases (c : MqttConnection) (result : Except Error Unit) :
    finish result c = .ok () c.closed ∨
    ((∃ e, result = .error e) ∧ c.terminalEventSent = false ∧
      finish result c = .ok () (c.closed.emit (.disconnected .transportClosed))) := by
  rw [finish, EStateM.bind_ok (failPending_apply c), EStateM.bind_ok (EStateM.get_apply _)]
  split
  case isTrue hr =>
    rcases trySend_cases (c := c.closed) (.disconnected .transportClosed) with ⟨e, ht⟩ | ht
    case inl => exact .inl (EStateM.discard_ok ht)
    case inr =>
      refine .inr ⟨?_, ?_, EStateM.discard_ok ht⟩
      case refine_1 =>
        cases result
        case error e => exact ⟨e, rfl⟩
        case ok => exact absurd hr.left nofun
      case refine_2 =>
        have hn : c.closed.terminalEventSent = false := by simpa using hr.right
        exact hn
  case isFalse => exact .inl rfl

theorem finish_ends (c : MqttConnection) (result : Except Error Unit) :
    ∃ c', finish result c = .ok () c' ∧ Ends c c' := by
  rcases finish_cases c result with h | ⟨_, _, h⟩
  case inl => exact ⟨_, h, .silent c.terminalEventSent⟩
  case inr => exact ⟨_, h, .event _ c.terminalEventSent⟩

-- The server has disconnected.
theorem dispatchPacket_disconnect (c : MqttConnection) (disconnect : DisconnectPacket) :
    ∃ c', dispatchPacket (.disconnect disconnect) c =
      .error (.serverDisconnected disconnect.reasonCode) c' ∧
      Announce (.server disconnect.reasonCode) c.closed c' := by
  have ⟨c', ha, he⟩ := announce_bind c.closed (.server disconnect.reasonCode)
    fun _ => (throw (.serverDisconnected disconnect.reasonCode) : DriverM Unit)
  refine ⟨c', ?_, ha⟩
  rw [dispatchPacket, EStateM.bind_ok (failPending_apply c)]
  exact he

theorem Announce.ends (h : Announce reason c.closed c') : Ends c c' := by
  cases h
  case silent => exact .silent _
  case event => exact .event _ _

-- The connection ends if the packet is a DISCONNECT.
theorem dispatchPacket_cases (c : MqttConnection) (packet : Packet) :
    (∃ disconnect c', packet = .disconnect disconnect ∧
      dispatchPacket packet c = .error (.serverDisconnected disconnect.reasonCode) c' ∧ Ends c c') ∨
    ∀ disconnect, packet ≠ .disconnect disconnect := by
  cases packet
  case disconnect disconnect =>
    obtain ⟨c', hx, ha⟩ := dispatchPacket_disconnect c disconnect
    exact .inl ⟨disconnect, c', rfl, hx, ha.ends⟩
  all_goals exact .inr fun _ he => by cases he

-- A command has been taken from the channel but not processed.
def dequeued (c : MqttConnection) (command : Command) (rest : List Command) : MqttConnection :=
  { c with commands := rest, taken := c.taken ++ [command] }

theorem mem_taken_dequeued (c : MqttConnection) (command rest) :
    command ∈ (c.dequeued command rest).taken :=
  List.mem_append_right _ (List.mem_singleton_self _)

-- A packet has been decoded but not dispatched.
def arrived (c : MqttConnection) (frameReader : FrameReader) (packet : Packet) : MqttConnection :=
  { c with frameReader, dispatched := c.dispatched ++ [packet] }

theorem decodeNext_of_packet
    (h : FrameReader.tryDecode c.frameReader = .ok (some packet) reader) :
    decodeNext c = (dispatchPacket packet >>= fun _ => pure true) (c.arrived reader packet) := by
  rw [decodeNext, EStateM.bind_ok (EStateM.get_apply _), h]
  rfl

theorem decodeNext_of_none (h : FrameReader.tryDecode c.frameReader = .ok none reader) :
    decodeNext c = .ok false { c with frameReader := reader } := by
  rw [decodeNext, EStateM.bind_ok (EStateM.get_apply _), h]
  rfl

theorem decodeNext_of_error (h : FrameReader.tryDecode c.frameReader = .error e reader) :
    decodeNext c = .error e { c with frameReader := reader } := by
  rw [decodeNext, EStateM.bind_ok (EStateM.get_apply _), h]
  rfl

theorem nextWaitDuration_shifts : Leads Shift c nextWaitDuration := by
  refine (Leads.quiet (.mk _ _ id)).bind_any fun _ _ => .get ?_
  split
  case h_1 => exact .pure _
  case h_2 =>
    split
    case h_1 => exact .pure _
    case h_2 => exact .ite (fun _ => .pure _) fun _ => .pure _

end MqttConnection

open MqttConnection in
-- What happens to a connection while it lasts, apart from the packets that arrive.
inductive MqttConnection.Act : MqttConnection → MqttConnection → Prop
  | shift : Shift c c' → Act c c'
  | dequeue : (c.commands = command :: rest) → Act c (c.dequeued command rest)
  | enter : Enter c c' → Act c c'
  | close : Act c { c with closing := true }
  | write : (c.outbound = frame :: rest) → (Write frame rest c c') → Act c c'
  | flush : Flush c c' → Act c c'
  | announce : Announce reason c c' → Act c c'
  | receive (bytes) : (bytes.length ≤ c.readCapacity) →
    Act c
      { c with frameReader := c.frameReader.push bytes, received := c.received ++ bytes }
  | decode : ((FrameReader.tryDecode c.frameReader).state = reader) →
    Act c { c with frameReader := reader }
  | outside : Outside c input c' → Act c c'

namespace Driver

open MqttConnection
open Relation (ReflTransGen)

inductive Does : Driver → Input → Driver → Prop
  | pass (c next) : (p.running = true) → Does ⟨c, p⟩ .proceed ⟨c, next⟩
  | wake (c wait) : Does ⟨c, .recv wait⟩ .elapsed ⟨c, .drainCancellations⟩
  | shift (next) : (p.running = true) → (ReflTransGen Shift c c') →
    Does ⟨c, p⟩ .proceed ⟨c', next⟩
  | command (next) : (p.takes = true) → (c.commands = command :: rest) →
    Does ⟨c, p⟩ .proceed (perform (processCommand command) next (c.dequeued command rest))
  | abandon (next) : (p.running = true) →
    Does ⟨c, p⟩ .proceed (perform abandonCommands next c)
  | keepAlive (c next) :
    Does ⟨c, .maintainKeepAlive⟩ .proceed (perform MqttConnection.maintainKeepAlive next c)
  | write (next) : (p.running = true) → (c.outbound = frame :: rest) →
    Does ⟨c, p⟩ (.written result) (perform (writeFront frame rest result) next c)
  | flush (c next) : (p.running = true) →
    Does ⟨c, p⟩ (.flushed result) (perform (flushAccepted result) next c)
  | read (next) : (∀ bytes, result = .ok bytes → bytes.length ≤ c.readCapacity) →
    Does ⟨c, .readAvailable (left + 1)⟩ (.read result) (perform (readNext result) next c)
  | decode (c next) : Does ⟨c, .decodeAndDispatch⟩ .proceed (perform decodeNext next c)
  | finish (c result) :
    Does ⟨c, .stopping result⟩ .proceed
      (perform (MqttConnection.finish result) (fun _ _ => .stopped result) c)
  | outside (p) : (Outside c input c') → Does ⟨c, p⟩ input ⟨c', p⟩

theorem perform_connection (x : DriverM α) (next c) :
    (perform x next c).connection = (x c).state := by
  rw [perform]
  cases x c <;> rfl

theorem perform_eq (x : DriverM α) (next c) :
    perform x next c = ⟨(x c).state, (perform x next c).phase⟩ := by
  rw [← perform_connection x next c]

theorem perform_ok {x : DriverM α} (h : x c = .ok a c') (next) :
    perform x next c = ⟨c', next a c'⟩ := by
  rw [perform, h]

theorem perform_error {x : DriverM α} (h : x c = .error e c') (next) :
    perform x next c = ⟨c', .stopping (.error e)⟩ := by
  rw [perform, h]

-- Decoding a packet is dispatching it.
theorem perform_decodeNext {reader : FrameReader}
    (h : FrameReader.tryDecode c.frameReader = .ok (some packet) reader) (next) :
    perform decodeNext next c =
      perform (dispatchPacket packet) (fun _ => next true) (c.arrived reader packet) := by
  have hd := decodeNext_of_packet h
  cases hr : dispatchPacket packet (c.arrived reader packet)
  case ok => rw [perform_ok hr, perform_ok (hd.trans (EStateM.bind_ok hr))]
  case error => rw [perform_error hr, perform_error (hd.trans (EStateM.bind_error hr))]

-- A packet is dispatched, or nothing but the reader has changed.
theorem perform_decodeNext_cases (c next) :
    (∃ reader p, (FrameReader.tryDecode c.frameReader).state = reader ∧
      perform decodeNext next c = ⟨{ c with frameReader := reader }, p⟩) ∨
    ∃ packet reader, FrameReader.tryDecode c.frameReader = .ok (some packet) reader ∧
      perform decodeNext next c =
        perform (dispatchPacket packet) (fun _ => next true) (c.arrived reader packet) := by
  cases hd : FrameReader.tryDecode c.frameReader
  case error e reader => exact .inl ⟨reader, _, rfl, perform_error (decodeNext_of_error hd) next⟩
  case ok packet reader =>
    cases packet
    case none => exact .inl ⟨reader, _, rfl, perform_ok (decodeNext_of_none hd) next⟩
    case some packet => exact .inr ⟨packet, reader, rfl, perform_decodeNext hd next⟩

theorem takeCommand_does (hp : p.takes = true) (h : takeCommand c next idle = some driver) :
    Does ⟨c, p⟩ .proceed driver := by
  rw [takeCommand] at h
  split at h
  case h_1 command commands hc =>
    cases h
    exact .command _ hp hc
  case h_2 hc =>
    split at h
    case isTrue hd =>
      cases h
      exact .abandon _ (Phase.running_of_takes hp)
    case isFalse => cases h

theorem perform_does {x : DriverM α} (hp : p.running = true)
    (h : EStateM.Leads Shift c x) (next) : Does ⟨c, p⟩ .proceed (perform x next c) := by
  rw [perform_eq]
  exact .shift _ hp h

theorem proceed_does (h : proceed ⟨c, p⟩ = some driver) : Does ⟨c, p⟩ .proceed driver := by
  rw [proceed.eq_def] at h
  dsimp only at h
  split at h
  case h_1 => cases h; exact perform_does rfl drainCancellations_shifts _
  case h_2 => cases h; exact .pass _ _ rfl
  case h_3 left =>
    cases ht : takeCommand c (.drainCommands left) (.flushOutbound .first .before)
      <;> rw [ht] at h <;> cases h
    case none => exact .pass _ _ rfl
    case some => exact takeCommand_does rfl ht
  case h_4 => split at h <;> cases h; exact .pass _ _ rfl
  case h_5 => split at h <;> cases h; exact .pass _ _ rfl
  case h_6 => split at h <;> cases h; exact .pass _ _ rfl
  case h_7 => cases h; exact .pass _ _ rfl
  case h_8 => split at h <;> cases h; exact .pass _ _ rfl
  case h_9 => cases h; exact .decode _ _
  case h_10 => cases h; exact perform_does rfl expireOperations_shifts _
  case h_11 => cases h; exact .keepAlive _ _
  case h_12 => cases h; exact perform_does rfl nextWaitDuration_shifts _
  case h_13 => exact takeCommand_does rfl h
  case h_14 => cases h; exact .finish _ _
  case h_15 => cases h

theorem written_does (h : written ⟨c, p⟩ result = some driver) :
    Does ⟨c, p⟩ (.written result) driver := by
  rw [written] at h
  dsimp only at h
  split at h
  case h_1 ho =>
    cases h
    exact .write _ rfl ho
  case h_2 => cases h

theorem flushed_does (h : flushed ⟨c, p⟩ result = some driver) :
    Does ⟨c, p⟩ (.flushed result) driver := by
  rw [flushed] at h
  dsimp only at h
  split at h
  case isTrue => cases h
  case isFalse =>
    split at h <;> cases h
    case h_1 => exact .flush _ _ rfl
    case h_2 => exact .flush _ _ rfl

theorem read_does (h : read ⟨c, p⟩ result = some driver) :
    Does ⟨c, p⟩ (.read result) driver := by
  rw [read] at h
  dsimp only at h
  split at h
  case h_1 left =>
    split at h
    case isTrue => cases h
    case isFalse hc =>
      cases h
      refine .read _ fun bytes hb => ?_
      rw [hb] at hc
      simpa [Except.toOption] using (not_or.mp hc).right
  case h_2 => cases h

theorem submit_does (h : submit ⟨c, p⟩ command = some driver) :
    Does ⟨c, p⟩ (.submit command) driver := by
  have ⟨hc, h⟩ := Option.ite_none_left_eq_some.mp h
  have hs : command.result = c.nextSender := not_not.mp (not_or.mp hc).left
  dsimp only at h
  split at h
  case h_1 =>
    split at h <;> cases h
    exact .outside _ (.submit _ hs rfl)
  case h_2 =>
    split at h
    case isTrue => cases h
    case isFalse =>
      split at h <;> cases h
      case h_2 hr => exact .outside _ (.submit _ hs hr)
  case h_3 hp hr =>
    cases h
    refine .outside _ (.submit _ hs ?_)
    cases command
    case publish => exact absurd rfl (hp _ _ _ _)
    case request => exact absurd rfl (hr _ _)
    all_goals rfl

theorem step_does {driver driver' : Driver} (h : driver.step input = some driver') :
    Does driver input driver' := by
  have ⟨c, p⟩ := driver
  cases input
  case proceed => exact proceed_does h
  case written => exact written_does h
  case flushed => exact flushed_does h
  case read => exact read_does h
  case elapsed =>
    rw [step, elapsed] at h
    split at h
    case h_1 hp =>
      cases h
      cases hp
      exact .wake _ _
    case h_2 => cases h
  case submit => exact submit_does h
  case dropReceiver =>
    rw [step] at h
    split at h
    case isTrue hr =>
      cases h
      exact .outside _ (.dropReceiver hr)
    case isFalse => cases h
  case cancelRequest => cases h; exact .outside _ (.cancelRequest _)
  case finishRequest => cases h; exact .outside _ (.finishRequest _)
  case nextEvent => cases h; exact .outside _ .nextEvent
  case dropHandles => cases h; exact .outside _ .dropHandles
  case reorder => cases h; exact .outside _ (.reorder ..)

theorem step_read (h : Driver.step ⟨c, p⟩ (.read result) = some driver) : ∃ left,
    p = .readAvailable (left + 1) ∧ driver = perform (readNext result)
      (fun again _ => if again then .readAvailable left else .decodeAndDispatch) c := by
  rw [step, read] at h
  dsimp only at h
  split at h
  case h_1 left =>
    obtain ⟨_, h⟩ := Option.ite_none_left_eq_some.mp h
    cases h
    exact ⟨left, rfl, rfl⟩
  case h_2 => cases h

-- A driver that has stopped can only clean up.
theorem Does.of_not_running {driver driver' : Driver} (h : Does driver input driver')
    (hr : driver.phase.running = false) :
    (∃ result, driver.phase = .stopping result ∧ driver'.phase = .stopped result ∧
      Ends driver.connection driver'.connection) ∨
    (driver'.phase = driver.phase ∧ Outside driver.connection input driver'.connection) := by
  cases h
  case finish c result =>
    have ⟨c', hf, he⟩ := finish_ends c result
    rw [perform_ok hf]
    exact .inl ⟨result, rfl, rfl, he⟩
  case outside ho => exact .inr ⟨rfl, ho⟩
  case pass hp => simp [hp] at hr
  case shift hp _ => simp [hp] at hr
  case command hp _ => simp [Phase.running_of_takes hp] at hr
  case abandon hp => simp [hp] at hr
  case write hp _ => simp [hp] at hr
  case flush hp => simp [hp] at hr
  all_goals cases hr

theorem next_of_stopped {x : DriverM α} (h : (perform x next c).phase = .stopped result) :
    ∃ a c', next a c' = .stopped result := by
  rw [perform] at h
  split at h
  case h_1 a c' _ => exact ⟨a, c', h⟩
  case h_2 => cases h

theorem takeCommand_stopped (h : takeCommand c next idle = some driver)
    (hp : driver.phase = .stopped result) : next = .stopped result ∨ idle = .stopped result := by
  rw [takeCommand] at h
  split at h
  case h_1 =>
    cases h
    obtain ⟨_, _, hn⟩ := next_of_stopped hp
    exact .inl hn
  case h_2 =>
    split at h <;> cases h
    obtain ⟨_, _, hn⟩ := next_of_stopped hp
    exact .inr hn

theorem afterFlush_ne_stopped (pass c result) : afterFlush pass c ≠ .stopped result := by
  rw [afterFlush.eq_def]
  split
  case isTrue => simp
  case isFalse => cases pass <;> simp

-- A driver stops when it has cleaned up.
theorem proceed_stopped (h : proceed ⟨c, p⟩ = some driver) (hp : driver.phase = .stopped result) :
    p = .stopping result ∧ Ends c driver.connection := by
  rw [proceed.eq_def] at h
  dsimp only at h
  split at h
  case h_14 result' =>
    obtain ⟨c', hf, he⟩ := finish_ends c result'
    rw [perform_ok hf] at h
    cases h
    cases hp
    exact ⟨rfl, he⟩
  case h_1 =>
    cases h
    obtain ⟨_, _, hn⟩ := next_of_stopped hp
    cases hn
  case h_2 => cases h; cases hp
  case h_3 left =>
    cases ht : takeCommand c (.drainCommands left) (.flushOutbound .first .before)
      <;> rw [ht] at h <;> cases h
    case none => cases hp
    case some => rcases takeCommand_stopped ht hp with hn | hn <;> cases hn
  case h_4 => split at h <;> cases h; cases hp
  case h_5 => split at h <;> cases h; cases hp
  case h_6 => split at h <;> cases h; exact (afterFlush_ne_stopped _ _ _ hp).elim
  case h_7 => cases h; cases hp
  case h_8 => split at h <;> cases h; cases hp
  case h_9 =>
    cases h
    obtain ⟨again, _, hn⟩ := next_of_stopped hp
    cases again <;> cases hn
  case h_10 =>
    cases h
    obtain ⟨_, _, hn⟩ := next_of_stopped hp
    cases hn
  case h_11 =>
    cases h
    obtain ⟨_, _, hn⟩ := next_of_stopped hp
    cases hn
  case h_12 =>
    cases h
    obtain ⟨_, _, hn⟩ := next_of_stopped hp
    cases hn
  case h_13 => rcases takeCommand_stopped h hp with hn | hn <;> cases hn
  case h_15 => cases h

theorem step_stopped {driver driver' : Driver} (h : driver.step input = some driver')
    (hp : driver'.phase = .stopped result) :
    driver.phase = .stopped result ∨ Ends driver.connection driver'.connection := by
  obtain ⟨c, p⟩ := driver
  cases input
  case proceed => exact .inr (proceed_stopped h hp).right
  case written =>
    rw [step, written] at h
    dsimp only at h
    split at h <;> cases h
    obtain ⟨again, _, hn⟩ := next_of_stopped hp
    cases again <;> cases hn
  case flushed =>
    obtain ⟨_, h⟩ := Option.ite_none_left_eq_some.mp h
    split at h <;> cases h
    case h_1 =>
      obtain ⟨accepted, _, hn⟩ := next_of_stopped hp
      cases accepted
      case false => exact (afterFlush_ne_stopped _ _ _ hn).elim
      case true => cases hn
    case h_2 =>
      obtain ⟨_, _, hn⟩ := next_of_stopped hp
      exact (afterFlush_ne_stopped _ _ _ hn).elim
  case read =>
    obtain ⟨_, _, rfl⟩ := step_read h
    obtain ⟨again, _, hn⟩ := next_of_stopped hp
    cases again <;> cases hn
  case elapsed =>
    rw [step, elapsed] at h
    split at h <;> cases h
    cases hp
  all_goals
    refine .inl ?_
    cases step_does h
    exact hp

theorem run_eq (driver : Driver) (inputs : List Input) :
    driver.run inputs = Machine.run step driver inputs := by
  induction inputs generalizing driver
  case nil => rfl
  case cons input inputs ih => exact congrArg _ (funext fun next => ih next)

theorem run_append (driver : Driver) (inputs inputs' : List Input) :
    driver.run (inputs ++ inputs') = (driver.run inputs).bind (·.run inputs') := by
  simp only [run_eq, Machine.run_append]

-- A step is a sequence of such actions, or a packet arrives, or the connection ends.
inductive Happens : Driver → Input → Driver → Prop
  | acts : (ReflTransGen Act c c') → Happens ⟨c, p⟩ input ⟨c', p'⟩
  | arrives (next) : (FrameReader.tryDecode c.frameReader = .ok (some packet) reader) →
    Happens ⟨c, .decodeAndDispatch⟩ .proceed
      (perform (dispatchPacket packet) next (c.arrived reader packet))
  | ends : (Ends c c') → Happens ⟨c, .stopping result⟩ .proceed ⟨c', .stopped result⟩

theorem acts_perform {M : MqttConnection → MqttConnection → Prop} {x : DriverM α}
    (hm : ∀ c c', M c c' → Act c c') (hx : EStateM.Leads M c x) (p input next) :
    Happens ⟨c, p⟩ input (perform x next c) := by
  rw [perform_eq]
  exact .acts (ReflTransGen.mono hm _ _ hx)

theorem decode_happens (c next) :
    Happens ⟨c, .decodeAndDispatch⟩ .proceed (perform decodeNext next c) := by
  rcases perform_decodeNext_cases c next with ⟨reader, p, hr, hx⟩ | ⟨packet, reader, hd, hx⟩ <;> rw [hx]
  case inl => exact .acts (.single (.decode hr))
  case inr => exact .arrives _ hd

theorem Does.happens {driver driver' : Driver} (h : Does driver input driver') :
    Happens driver input driver' := by
  cases h
  case pass => exact .acts .refl
  case wake => exact .acts .refl
  case shift hs => exact .acts (ReflTransGen.mono (fun _ _ => .shift) _ _ hs)
  case command command rest c _ _ _ hc =>
    have he := processCommand_enters (mem_taken_dequeued c command rest)
    rw [perform_eq]
    exact .acts (.head (.dequeue hc) (ReflTransGen.mono (fun _ _ => .enter) _ _ he))
  case abandon c _ _ _ =>
    rcases abandonCommands_enters (c := c) with ha | ⟨e, ha⟩
    case inl => exact acts_perform (fun _ _ => .enter) ha _ _ _
    case inr =>
      rw [perform_error ha]
      exact .acts (.head (.enter .desert) (.single .close))
  case keepAlive =>
    exact acts_perform (fun _ _ h => .enter (.begin h)) maintainKeepAlive_begins _ _ _
  case write ho =>
    rw [perform_eq]
    exact .acts (.single (.write ho (writeFront_writes ..)))
  case flush => exact acts_perform (fun _ _ => .flush) flushAccepted_flushes _ _ _
  case read result c _ _ hc =>
    rw [perform_eq]
    have hr := readNext_receives (c := c) result
    generalize (readNext result c).state = c' at hr ⊢
    cases hr
    case idle => exact .acts .refl
    case close ha => exact .acts (.single (.announce ha))
    case receive bytes hb => exact .acts (.single (.receive bytes (hc bytes hb)))
  case decode c next => exact decode_happens c next
  case finish c result =>
    have ⟨c', hf, he⟩ := finish_ends c result
    rw [perform_ok hf]
    exact .ends he
  case outside ho => exact .acts (.single (.outside ho))

-- What every step preserves holds in every run. It may depend on the run itself.
theorem run_induction {P : List Input → Driver → Prop} {driver driver' : Driver}
    (hp : P [] driver) (hs : ∀ inputs next input next', driver.run inputs = some next →
      P inputs next → next.step input = some next' → P (inputs ++ [input]) next')
    (h : driver.run inputs = some driver') : P inputs driver' := by
  simp only [run_eq] at hs h
  exact Machine.run_induction hp hs h

theorem run_preserves {P : Driver → Prop} {driver driver' : Driver}
    (hs : ∀ driver input driver', P driver → Does driver input driver' → P driver')
    (hp : P driver) (h : driver.run inputs = some driver') : P driver' :=
  run_induction (P := fun _ => P) hp
    (fun _ next input next' _ hp hd => hs next input next' hp (step_does hd)) h

-- A condition on the state before a step and on what happens next, for every step of a run.
def Throughout (driver : Driver) (inputs : List Input) (C : Driver → Input → Prop) : Prop :=
  ∀ inputs' input earlier, inputs' ++ [input] <+: inputs → driver.run inputs' = some earlier →
    C earlier input

theorem throughout_iff {driver : Driver} {C : Driver → Input → Prop} :
    driver.Throughout inputs C ↔ Machine.Throughout step driver inputs C := by
  simp only [Throughout, Machine.Throughout, run_eq]

theorem Throughout.trivial (driver : Driver) (inputs : List Input) :
    driver.Throughout inputs fun _ _ => True :=
  fun _ _ _ _ _ => True.intro

theorem Throughout.append {C : Driver → Input → Prop} {driver : Driver}
    (h : driver.Throughout inputs C)
    (h' : ∀ next, driver.run inputs = some next → next.Throughout inputs' C) :
    driver.Throughout (inputs ++ inputs') C := by
  simp only [throughout_iff, run_eq] at h h' ⊢
  exact Machine.throughout_append.mpr ⟨h, h'⟩

theorem Throughout.and {driver : Driver} {C C' : Driver → Input → Prop}
    (h : driver.Throughout inputs C) (h' : driver.Throughout inputs C') :
    driver.Throughout inputs fun earlier input => C earlier input ∧ C' earlier input :=
  fun inputs' input earlier hp hr => ⟨h inputs' input earlier hp hr, h' inputs' input earlier hp hr⟩

theorem run_preserves_if {P : Driver → Prop} {C : Driver → Input → Prop} {driver driver' : Driver}
    (hs : ∀ inputs next input next', driver.run inputs = some next → P next → C next input →
      next.step input = some next' → P next')
    (hp : P driver) (hc : driver.Throughout inputs C) (h : driver.run inputs = some driver') :
    P driver' := by
  simp only [run_eq] at hs h
  exact Machine.run_preserves_if hs hp (throughout_iff.mp hc) h

instance {C : Driver → Input → Prop} [∀ driver input, Decidable (C driver input)]
    (driver : Driver) (inputs : List Input) : Decidable (driver.Throughout inputs C) :=
  decidable_of_iff _ throughout_iff.symm

-- The packet that the driver is about to dispatch.
def dispatches (driver : Driver) (input : Input) : Option Packet :=
  match input, driver.phase with
  | .proceed, .decodeAndDispatch =>
    match FrameReader.tryDecode driver.connection.frameReader with
    | .ok packet _ => packet
    | .error _ _   => none
  | _, _ => none

theorem dispatches_of_decoded (h : FrameReader.tryDecode c.frameReader = .ok (some packet) reader) :
    dispatches ⟨c, .decodeAndDispatch⟩ .proceed = some packet := by
  simp only [dispatches, h]

-- A property of the connection that holds until it has ended, and one that holds from then on, in
-- the runs that meet a condition.
theorem run_live {P Q : MqttConnection → Prop} {C : Driver → Input → Prop} {driver driver' : Driver}
    (ha : ∀ c c', Act c c' → P c → P c')
    (hx : ∀ c reader disconnect, P c → P (c.arrived reader (.disconnect disconnect)))
    (hd : ∀ c packet reader, FrameReader.tryDecode c.frameReader = .ok (some packet) reader →
      C ⟨c, .decodeAndDispatch⟩ .proceed → (∀ disconnect, packet ≠ .disconnect disconnect) → P c →
      P (dispatchPacket packet (c.arrived reader packet)).state)
    (he : ∀ c c', Ends c c' → P c ∨ Q c → Q c') (ho : ∀ c input c', Outside c input c' → Q c → Q c')
    (hp : P driver.connection) (hc : driver.Throughout inputs C)
    (h : driver.run inputs = some driver') :
    P driver'.connection ∨ (driver'.phase.terminated = true ∧ Q driver'.connection) := by
  refine run_preserves_if (P := fun driver =>
    P driver.connection ∨ (driver.phase.terminated = true ∧ Q driver.connection)) ?_ (.inl hp) hc h
  intro _ earlier input next hr h hc hs
  clear hr
  replace hs := step_does hs
  rcases h with h | ⟨ht, h⟩
  case inl =>
    replace hs := hs.happens
    cases hs
    case acts hs => exact .inl (hs.preserves ha h)
    case ends hs => exact .inr ⟨rfl, he _ _ hs (.inl h)⟩
    case arrives packet reader c next hn =>
      rcases dispatchPacket_cases (c.arrived reader packet) packet with ⟨disconnect, c', rfl, hr, hm⟩ | hs
      case inl =>
        rw [perform_error hr]
        exact .inr ⟨rfl, he _ _ hm (.inl (hx c reader disconnect h))⟩
      case inr =>
        rw [perform_connection]
        exact .inl (hd c packet reader hn hc hs h)
  case inr =>
    refine .inr ?_
    rcases hs.of_not_running (Phase.running_of_terminated ht) with ⟨_, _, hp, hm⟩ | ⟨hp, hm⟩
    case inl => exact ⟨by rw [hp]; rfl, he _ _ hm (.inr h)⟩
    case inr => exact ⟨by rw [hp]; exact ht, ho _ _ _ hm h⟩

-- What a run leads to can be found out by running it.
theorem exists_run (driver : Driver) (inputs : List Input) (P : Driver → Prop) [DecidablePred P]
    (h : (driver.run inputs).any (P ·) = true) : ∃ driver', driver.run inputs = some driver' ∧
      P driver' := by
  rw [run_eq] at h ⊢
  exact Machine.exists_run step driver inputs P h

theorem exists_run_step (driver : Driver) (inputs : List Input) (input : Input)
    (P Q : Driver → Prop) [DecidablePred P] [DecidablePred Q]
    (h : (driver.run inputs).any (fun next => P next ∧ (next.step input).any (Q ·) = true) = true) :
    ∃ next last, driver.run inputs = some next ∧ next.step input = some last ∧ P next ∧ Q last := by
  simp only [run_eq] at h ⊢
  exact Machine.exists_run_step step driver inputs input P Q h

-- A driver to try things out with.

def plainOptions : ConnectOptions :=
  { clientId := "a", keepAliveSecs := 0 }

def plainConnack : ConnAckPacket :=
  { sessionPresent := false, reasonCode := 0, properties := {} }

def stillClock : Clock :=
  { readings := fun _ => 0, latest := Duration.fromSecs 1000 }

def plainRequest : RequestCommand where
  topic := "q"
  payload := []
  responseTopic := "t"
  correlationData := [1]
  qos := .atMostOnce
  timeout := Duration.fromSecs 1
  properties := {}

end Driver
end MqttWasi
