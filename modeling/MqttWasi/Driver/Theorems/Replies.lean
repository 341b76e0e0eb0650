import MqttWasi.Driver.Theorems.Contents
import MqttWasi.Driver.Theorems.Isolation

-- A responder that answers requests: as long as nobody takes up a request whose answer would look
-- like one that is still to come, every answer reaches the request that it was given for.

namespace MqttWasi

-- The topic and the correlation data of a message.
def PublishPacket.address (packet : PublishPacket) : Option (String × Bytes) :=
  (packet.properties.getBinary .correlationData).map (packet.topic, ·)

-- The topic and the correlation data that the answer to a message has.
def PublishPacket.replyAddress (packet : PublishPacket) : Option (String × Bytes) :=
  (packet.properties.getString .responseTopic).bind fun responseTopic =>
    (packet.properties.getBinary .correlationData).map (responseTopic, ·)

namespace OutboundFrame

def requester (frame : OutboundFrame) : Option Sender :=
  match frame.origin with
  | .request result => some result
  | _               => none

def replyAddress (frame : OutboundFrame) : Option (String × Bytes) :=
  (messageOf frame.bytes).bind (·.replyAddress)

-- The frame asks for an answer to a request.
def Asking (frame : OutboundFrame) (result : Sender) (address : String × Bytes) : Prop :=
  frame.requester = some result ∧ frame.replyAddress = some address

instance (frame : OutboundFrame) (result address) : Decidable (frame.Asking result address) :=
  inferInstanceAs (Decidable (_ ∧ _))

end OutboundFrame

-- The driver, and the requests whose answers have arrived.
structure Dialogue where
  driver : Driver
  answered : List Sender

namespace Dialogue

-- The responder gives one answer to a request that it has got: that is what is dispatched next.
def replies (dialogue : Dialogue) (result : Sender) : Bool :=
  match dialogue.driver.dispatches .proceed with
  | some (.publish packet) =>
    result ∉ dialogue.answered ∧ ∃ frame ∈ dialogue.driver.connection.written,
      ∃ address ∈ packet.address, frame.Asking result address
  | _ => false

inductive Action
  | driver (input : Input)
  | reply (result : Sender)
  deriving DecidableEq

def step (dialogue : Dialogue) : Action → Option Dialogue
  | .driver input => (dialogue.driver.step input).map ({ dialogue with driver := · })
  | .reply result =>
    if dialogue.replies result then
      (dialogue.driver.step .proceed).map (⟨·, result :: dialogue.answered⟩)
    else
      none

def start (options : ConnectOptions) (connack : ConnAckPacket) (clock : Clock) : Dialogue where
  driver := .start options connack clock
  answered := []

-- An answer reaches nobody but the request that it was given for.
def Faithful (dialogue : Dialogue) : Prop :=
  ∀ result dialogue', dialogue.step (.reply result) = some dialogue' →
    ∃ told, dialogue'.driver.connection.replies = dialogue.driver.connection.replies ++ told ∧
      ∀ answer ∈ told, answer.1 = result

end Dialogue

-- The request that the driver admits next.
def Driver.admits (driver : Driver) : Option RequestCommand :=
  match driver.phase.takes, driver.connection.commands with
  | true, .request request _ :: _ =>
    if !driver.connection.closing && !driver.connection.requestLifecycle.cancelled.contains
        request.correlationData && (driver.connection.validateRequest request).isOk then
      some request
    else
      none
  | _, _ => none

-- Every earlier request that shares the response topic and the correlation data of the one that is
-- admitted has been answered, if it has been published.
def Dialogue.Settled (dialogue : Dialogue) (action : Action) : Prop :=
  action = .driver .proceed → ∀ request ∈ dialogue.driver.admits,
    ∀ frame ∈ dialogue.driver.connection.frames, ∀ result ∈ frame.requester,
      frame.replyAddress = some (request.responseTopic, request.correlationData) →
        result ∈ dialogue.answered

instance (dialogue : Dialogue) (action) : Decidable (dialogue.Settled action) := by
  unfold Dialogue.Settled
  infer_instance

namespace MqttConnection

open Relation (ReflTransGen)

variable {c c' : MqttConnection} {answered : List Sender}

-- A request that waits is the only one that an answer can reach which is still to come.
structure Loyal (c : MqttConnection) (answered : List Sender) : Prop where
  contents : c.Contents
  max_lt : c.peerMaxPacketSize < 2 ^ 32
  asking : ∀ correlationData pending, c.pendingRequests.lookup correlationData = some pending →
    ∀ frame ∈ c.frames, ∀ result, frame.Asking result (pending.responseTopic, correlationData) →
      result ∈ answered ∨ result = pending.result

theorem Contents.asking (h : c.Contents) (hl : c.pendingRequests.lookup correlationData = some pending)
    (he : (requestPacket pending packetId).encode = .ok bytes) (hs : bytes.length < 2 ^ 32) :
    (pending.frame correlationData bytes).replyAddress =
      some (pending.responseTopic, correlationData) := by
  obtain ⟨request, hm, hk⟩ := h.waiting _ _ hl
  have hc := (h.issued _ (List.mem_append_left _ hm)).complete
  have hp : (requestPacket pending packetId).properties = request.properties := by
    rw [hk.packet]
    rfl
  have hd : messageOf (pending.frame correlationData bytes).bytes =
    some (requestPacket pending packetId) := PublishPacket.messageOf_encoded he hs
  rw [OutboundFrame.replyAddress, hd, Option.bind_some, PublishPacket.replyAddress, hp,
    hc.responseTopic, hc.correlationData, hk.key, hk.responseTopic]
  rfl

namespace Loyal

theorem mono (h : c.Loyal answered) (ha : answered ⊆ answered') : c.Loyal answered' where
  contents := h.contents
  max_lt := h.max_lt
  asking correlationData pending hl frame hm result hf :=
    (h.asking correlationData pending hl frame hm result hf).imp_left (ha ·)

-- Frames are only taken away, and requests that wait are what they were.
theorem fewer (h : c.Loyal answered) (hc : c'.Contents)
    (hm : c'.peerMaxPacketSize = c.peerMaxPacketSize) (hf : c'.frames ⊆ c.frames)
    (hp : ∀ correlationData pending, c'.pendingRequests.lookup correlationData = some pending →
      ∃ pending', c.pendingRequests.lookup correlationData = some pending' ∧
        pending.responseTopic = pending'.responseTopic ∧ pending.result = pending'.result) :
    c'.Loyal answered where
  contents := hc
  max_lt := hm ▸ h.max_lt
  asking correlationData pending hl frame hm result ha := by
    obtain ⟨pending', hl, ht, hr⟩ := hp correlationData pending hl
    rw [hr]
    exact h.asking correlationData pending' hl frame (hf hm) result (ht ▸ ha)

theorem same (h : c.Loyal answered) (hc : c'.Contents)
    (hm : c'.peerMaxPacketSize = c.peerMaxPacketSize) (hf : c'.frames ⊆ c.frames)
    (hp : ∀ correlationData pending, c'.pendingRequests.lookup correlationData = some pending →
      c.pendingRequests.lookup correlationData = some pending) : c'.Loyal answered :=
  h.fewer hc hm hf fun correlationData pending hl => ⟨pending, hp correlationData pending hl, rfl, rfl⟩

theorem push (h : c.Loyal answered) (hc : (c.push frame).Contents)
    (hf : ∀ correlationData pending, c.pendingRequests.lookup correlationData = some pending →
      ∀ result, frame.Asking result (pending.responseTopic, correlationData) →
        result = pending.result) : (c.push frame).Loyal answered where
  contents := hc
  max_lt := h.max_lt
  asking correlationData pending hl frame' hm result ha := by
    rw [frames_push] at hm
    cases List.mem_append.mp hm
    case inl hm => exact h.asking correlationData pending hl frame' hm result ha
    case inr hm =>
      obtain rfl := List.mem_singleton.mp hm
      exact .inr (hf correlationData pending hl result ha)

theorem pushOther (h : c.Loyal answered) (hc : (c.push frame).Contents)
    (hn : ∀ result, frame.origin ≠ .request result) : (c.push frame).Loyal answered := by
  refine h.push hc fun _ _ _ result ha => ?_
  have hr := ha.left
  rw [OutboundFrame.requester] at hr
  split at hr
  case h_1 ho => exact absurd ho (hn _)
  case h_2 => cases hr

-- The frame of a request asks for an answer to it.
theorem pushRequest (h : c.Loyal answered)
    (hl : c.pendingRequests.lookup correlationData = some pending)
    (he : (requestPacket pending packetId).encode = .ok bytes) (hr : c.HasRoom bytes) :
    (c.push (pending.frame correlationData bytes)).Loyal answered := by
  refine h.push (h.contents.push _ (h.contents.voices hl he)) fun correlationData' pending' hl' result ha => ?_
  have hs : bytes.length < 2 ^ 32 := Nat.lt_of_le_of_lt hr.left h.max_lt
  have hk := ha.right
  rw [h.contents.asking hl he hs, Option.some.injEq, Prod.mk.injEq] at hk
  obtain ⟨_, rfl⟩ := hk
  rw [hl, Option.some.injEq] at hl'
  have hf : some pending.result = some result := ha.left
  rw [Option.some.injEq] at hf
  rw [← hf, hl']

theorem markPublished (h : c.Loyal answered) (correlationData packetId) :
    (c.markPublished correlationData packetId).Loyal answered := by
  refine h.fewer (h.contents.markPublished _ _) rfl (fun _ => id) fun correlationData' pending hl => ?_
  by_cases he : correlationData' = correlationData
  case pos =>
    rw [he, MqttConnection.markPublished, AList.lookup_adjust, Option.map_eq_some_iff] at hl
    obtain ⟨pending', hl, rfl⟩ := hl
    exact ⟨pending', he ▸ hl, rfl, rfl⟩
  case neg =>
    rw [MqttConnection.markPublished, AList.lookup_adjust_ne he] at hl
    exact ⟨pending, hl, rfl, rfl⟩

theorem withoutRequest (h : c.Loyal answered) (correlationData pending) :
    (c.withoutRequest correlationData pending).Loyal answered := by
  have hf := (frames_withoutRequest c correlationData pending).subset
  have hc := h.contents.withoutRequest correlationData pending
  obtain ⟨_, _, _, he⟩ := withoutRequest_eq c correlationData pending
  rw [he] at hf hc ⊢
  exact h.same hc rfl hf fun _ _ hl => AList.lookup_of_lookup_erase hl

theorem await (h : c.Loyal answered) (packetId entry) : (c.await packetId entry).Loyal answered :=
  h.same (h.contents.same (fun _ => id) rfl rfl h.contents.waiting) rfl (fun _ => id) fun _ _ => id

theorem course (h : c.Loyal answered) (hc : Course c c') : c'.Loyal answered := by
  have hc' := h.contents.course hc
  cases hc
  case other => exact h.same hc' rfl (fun _ => id) fun _ _ => id
  case dequeue => exact h.same hc' rfl (fun _ => id) fun _ _ => id
  case remove => exact h.withoutRequest _ _
  case publish hp =>
    exact ((h.await _ _).pushRequest hp.lookup hp.encoded hp.room).markPublished _ _
  case publishQos0 hp => exact (h.pushRequest hp.lookup hp.encoded hp.room).markPublished _ _
  case push hn _ _ => exact h.pushOther hc' hn
  case write ho hw =>
    have hf := hw.frames ho
    have hm : c'.peerMaxPacketSize = c.peerMaxPacketSize := by cases hw <;> rfl
    have hp : c'.pendingRequests = c.pendingRequests := by cases hw <;> rfl
    exact h.same hc' hm (fun _ => (hf ▸ ·)) fun _ _ => (hp ▸ ·)

theorem courses (h : c.Loyal answered) (hc : ReflTransGen Course c c') : c'.Loyal answered :=
  hc.preserves (P := (Loyal · answered)) (fun _ _ hc h => h.course hc) h

theorem quiet (h : c.Loyal answered) (hq : Quiet c c') : c'.Loyal answered :=
  h.courses (Shift.quiet hq).course

theorem launch (h : c.Loyal answered) (hl : Launch responseTopic c c') : c'.Loyal answered := by
  have hc := h.contents.launch hl
  cases hl
  case publish hp => exact h.courses hp.course
  case subscribe packetId entry _ _ =>
    have h' : ((c.await packetId entry).subscribing responseTopic).Loyal answered :=
      h.same (h.contents.same (fun _ => id) rfl rfl h.contents.waiting) rfl (fun _ => id) fun _ _ => id
    exact h'.pushOther hc nofun

-- A request can be admitted when nobody waits any more for an answer that looks like its own.
theorem admitted {request : RequestCommand} (h : c.Loyal answered)
    (hm : Command.request request result ∈ c.taken)
    (hs : ∀ frame ∈ c.frames, ∀ result,
      frame.Asking result (request.responseTopic, request.correlationData) → result ∈ answered)
    (deadline) :
    (c.admitted request.correlationData (request.pending result deadline)).Loyal answered where
  contents := h.contents.admitted hm deadline
  max_lt := h.max_lt
  asking correlationData pending hl frame hf result' ha := by
    by_cases he : correlationData = request.correlationData
    case pos =>
      rw [he, MqttConnection.admitted, AList.lookup_insert, Option.some.injEq] at hl
      cases hl
      exact .inl (hs frame hf result' (he ▸ ha))
    case neg =>
      rw [MqttConnection.admitted, AList.lookup_insert_ne he] at hl
      exact h.asking correlationData pending hl frame hf result' ha

theorem takesUp {request : RequestCommand} (h : c.Loyal answered)
    (hm : Command.request request result ∈ c.taken)
    (hs : c.closing = false → request.correlationData ∉ c.requestLifecycle.cancelled →
      c.validateRequest request = .ok () → ∀ frame ∈ c.frames, ∀ result,
        frame.Asking result (request.responseTopic, request.correlationData) → result ∈ answered)
    (ht : TakesUp request result c c') : c'.Loyal answered := by
  have hc := h.contents.takesUp hm ht
  have ha {c₁ : MqttConnection} (deadline) (hq : c.Qualifies request c₁) :
      (c₁.admitted request.correlationData (request.pending result deadline)).Loyal answered := by
    have hf := hs hq.opened hq.uncancelled hq.valid
    have h' := h.quiet hq.quiet
    cases hq.quiet
    exact h'.admitted hm hf deadline
  cases ht
  case closing => exact h.same hc rfl (fun _ => id) fun _ _ => id
  case cancelled => exact h.same hc rfl (fun _ => id) fun _ _ => id
  case refused hq =>
    have h' := h.quiet hq
    exact h'.same hc rfl (fun _ => id) fun _ _ => id
  case started deadline hq hl =>
    exact hl.preserves (P := (Loyal · answered)) (fun _ _ hl h => h.launch hl) (ha deadline hq)
  case withdrawn deadline hq hs =>
    have h' := ((ha deadline hq).quiet hs).withoutRequest request.correlationData
      (request.pending result deadline)
    exact h'.same hc rfl (fun _ => id) fun _ _ => id

theorem ends (h : c.Loyal answered) (he : Ends c c') : c'.Loyal answered where
  contents := h.contents.ends he
  max_lt := by cases he <;> exact h.max_lt
  asking := by cases he <;> exact nofun

theorem outside (h : c.Loyal answered) (hc : c'.Contents) (ho : Outside c input c') :
    c'.Loyal answered := by
  cases ho
  case reorder =>
    refine h.same hc rfl (fun _ => id) fun correlationData pending hl => ?_
    rwa [AList.lookup_adjust_id] at hl
  all_goals exact h.same hc rfl (fun _ => id) fun _ _ => id

theorem arrives (h : c.Loyal answered) (packet reader) :
    (dispatchPacket packet (c.arrived reader packet)).state.Loyal answered := by
  have h' : (c.arrived reader packet).Loyal answered :=
    h.same (h.contents.same (fun _ => id) rfl rfl h.contents.waiting) rfl (fun _ => id) fun _ _ => id
  rcases dispatchPacket_cases (c.arrived reader packet) packet with ⟨_, c', _, hx, he⟩ | hd
  case inl =>
    rw [hx]
    exact h'.ends he
  case inr => exact h'.courses (dispatchPacket_course hd)

end Loyal

theorem Acked.replies (h : Acked packet c c') :
    c'.pendingRequests = c.pendingRequests ∧ c'.replies = c.replies := by
  cases h <;> exact ⟨rfl, rfl⟩

-- What a message from the broker tells to requests.
theorem Handled.replies (h : Handled packet c r) :
    ∃ told, r.state.replies = c.replies ++ told ∧ ∀ answer ∈ told, ∃ correlationData pending,
      c.Responds packet correlationData pending ∧ answer.1 = pending.result := by
  cases h
  case response c₁ correlationData pending hc hr =>
    obtain ⟨hp, ht⟩ := hc.replies
    refine ⟨[(pending.result, .ok (.response packet))], ?_, fun answer hm => ?_⟩
    case refine_1 =>
      obtain ⟨_, _, _, he⟩ := withoutRequest_eq c₁ correlationData pending
      rw [EStateM.Result.state, reply, he, ← ht]
      rfl
    case refine_2 =>
      obtain ⟨hk, hl, ht⟩ := hr
      exact ⟨correlationData, pending, ⟨hk, hp ▸ hl, ht⟩, by rw [List.mem_singleton.mp hm]⟩
  case event hc _ => exact ⟨[], hc.replies.right.trans (List.append_nil _).symm, by simp⟩
  case error hc =>
    refine ⟨[], ?_, by simp⟩
    cases hc
    case inl he => rw [he]; simp
    case inr hc => exact hc.replies.right.trans (List.append_nil _).symm

end MqttConnection

namespace Driver

open MqttConnection

variable {driver driver' : Driver}

theorem admits_of_taken {c : MqttConnection} (hp : p.takes = true)
    (hq : c.commands = .request request result :: rest) (hc : c.closing = false)
    (hu : request.correlationData ∉ c.requestLifecycle.cancelled)
    (hv : c.validateRequest request = .ok ()) : admits ⟨c, p⟩ = some request := by
  simp [admits, hp, hq, hc, hu, hv, Except.isOk, Except.toBool]

theorem loyal_step (h : driver.connection.Loyal answered)
    (hi : ∀ command, input = .submit command → command.Issued)
    (hs : input = .proceed → ∀ request ∈ driver.admits, ∀ frame ∈ driver.connection.frames,
      ∀ result, frame.Asking result (request.responseTopic, request.correlationData) →
        result ∈ answered)
    (hp : Proceeds driver input driver') : driver'.connection.Loyal answered := by
  have hc := contents_step h.contents hi hp
  cases hp
  case course hc' => exact h.courses hc'
  case request rest request result c' c p _ hp hq ht =>
    have h' : (c.dequeued (.request request result) rest).Loyal answered :=
      h.same (h.contents.dequeued hq) rfl (fun _ => id) fun _ _ => id
    exact h'.takesUp (mem_taken_dequeued ..)
      (fun ho hu hv => hs rfl request (admits_of_taken hp hq ho hu hv)) ht
  case arrives =>
    rw [perform_connection]
    exact h.arrives _ _
  case ends he => exact h.ends he
  case outside ho => exact h.outside hc ho

theorem step_of_dispatches (hd : driver.dispatches input = some packet)
    (hs : driver.step input = some driver') :
    ∃ reader, driver'.connection =
      (dispatchPacket packet (driver.connection.arrived reader packet)).state := by
  obtain ⟨c, p⟩ := driver
  rw [dispatches.eq_def] at hd
  dsimp only at hd
  split at hd
  case h_1 =>
    split at hd
    case h_1 reader hr =>
      have hr : FrameReader.tryDecode c.frameReader = .ok (some packet) reader := hd ▸ hr
      cases hs
      refine ⟨reader, ?_⟩
      rw [perform_decodeNext hr, perform_connection]
    case h_2 => cases hd
  case h_2 => cases hd

theorem admits_of_dispatches (hd : driver.dispatches input = some packet) : driver.admits = none := by
  obtain ⟨c, p⟩ := driver
  rw [dispatches.eq_def] at hd
  dsimp only at hd
  split at hd
  case h_1 => rfl
  case h_2 => cases hd

-- A message that is the answer to a request reaches nobody else.
theorem replies_of_answer (h : driver.connection.Loyal answered)
    (hd : driver.dispatches .proceed = some (.publish packet))
    (hs : driver.step .proceed = some driver') (hf : frame ∈ driver.connection.frames)
    (ha : frame.Asking result address) (hp : packet.address = some address)
    (hn : result ∉ answered) :
    ∃ told, driver'.connection.replies = driver.connection.replies ++ told ∧
      ∀ answer ∈ told, answer.1 = result := by
  obtain ⟨reader, he⟩ := step_of_dispatches hd hs
  have hd := dispatchPublish_handled (driver.connection.arrived reader (.publish packet)) packet
  obtain ⟨told, ht, hr⟩ := hd.replies
  refine ⟨told, by rw [he]; exact ht, fun answer hm => ?_⟩
  obtain ⟨correlationData, pending, ⟨hk, hl, ht⟩, hr⟩ := hr answer hm
  rw [PublishPacket.address, hk, Option.map_some, ← ht, Option.some.injEq] at hp
  have hw := h.asking correlationData pending hl frame hf result (hp ▸ ha)
  rw [hr]
  exact (hw.resolve_left hn).symm

end Driver

namespace Dialogue

open MqttConnection

variable {dialogue dialogue' : Dialogue}

theorem of_replies (h : dialogue.replies result = true) :
    result ∉ dialogue.answered ∧
      ∃ packet, dialogue.driver.dispatches .proceed = some (.publish packet) ∧
        ∃ frame ∈ dialogue.driver.connection.frames, ∃ address,
          packet.address = some address ∧ frame.Asking result address := by
  rw [replies] at h
  split at h
  case h_1 packet hd =>
    obtain ⟨hn, frame, hf, address, hp, ha⟩ := of_decide_eq_true h
    refine ⟨hn, packet, hd, frame.unstarted, ?_, address, hp, ha⟩
    exact List.mem_map_of_mem (List.mem_append_left _ hf)
  case h_2 => cases h

theorem step_reply (hs : dialogue.step (.reply result) = some dialogue') :
    dialogue.replies result = true ∧ dialogue.driver.step .proceed = some dialogue'.driver ∧
      dialogue'.answered = result :: dialogue.answered := by
  obtain ⟨hr, hm⟩ := Option.ite_none_right_eq_some.mp hs
  obtain ⟨driver, hd, rfl⟩ := Option.map_eq_some_iff.mp hm
  exact ⟨hr, hd, rfl⟩

theorem Faithful.of_loyal (h : dialogue.driver.connection.Loyal dialogue.answered) :
    dialogue.Faithful := by
  intro result dialogue' hs
  obtain ⟨hr, hs, _⟩ := step_reply hs
  obtain ⟨hn, packet, hd, frame, hf, address, hp, ha⟩ := of_replies hr
  exact Driver.replies_of_answer h hd hs hf ha hp hn

theorem loyal_step (h : dialogue.driver.connection.Loyal dialogue.answered)
    (hi : ∀ command, action = .driver (.submit command) → command.Issued)
    (hc : dialogue.Settled action) (hs : dialogue.step action = some dialogue') :
    dialogue'.driver.connection.Loyal dialogue'.answered := by
  cases action
  case driver input =>
    obtain ⟨driver, hd, rfl⟩ := Option.map_eq_some_iff.mp hs
    refine Driver.loyal_step h (fun command he => hi command (congrArg _ he)) ?_
      (Driver.step_does hd).proceeds
    intro he request hr frame hf result ha
    exact hc (congrArg _ he) request hr frame hf result ha.left ha.right
  case reply result =>
    obtain ⟨hr, hd, he⟩ := step_reply hs
    obtain ⟨_, _, hp, _⟩ := of_replies hr
    have h' : dialogue'.driver.connection.Loyal dialogue.answered := by
      refine Driver.loyal_step h (fun _ hp => by cases hp) (fun _ request hm => ?_) (Driver.step_does hd).proceeds
      rw [Driver.admits_of_dispatches hp] at hm
      cases hm
    exact h'.mono (he ▸ List.subset_cons_self ..)

theorem loyal_start (options connack clock) :
    (start options connack clock).driver.connection.Loyal [] where
  contents := Driver.contents_start options connack clock
  max_lt := connack.packetSizeLimit_lt
  asking := nofun

theorem replies_reach_requesters (options : ConnectOptions) (connack : ConnAckPacket) (clock : Clock)
    (actions : List Action) (dialogue : Dialogue)
    (h : Machine.run step (start options connack clock) actions = some dialogue)
    (hi : ∀ command, .driver (.submit command) ∈ actions → command.Issued)
    (hc : Machine.Throughout step (start options connack clock) actions Settled) :
    dialogue.Faithful := by
  apply Faithful.of_loyal
  refine Machine.run_preserves_if (P := fun dialogue => dialogue.driver.connection.Loyal dialogue.answered)
    (C := fun dialogue action => (∀ command, action = .driver (.submit command) → command.Issued) ∧
      dialogue.Settled action)
    (fun _ _ _ _ _ h hc hs => loyal_step h hc.left hc.right hs) (loyal_start options connack clock)
    (fun actions' action earlier hp hr => ⟨?_, hc actions' action earlier hp hr⟩) h
  rintro command rfl
  exact hi command (hp.subset (by simp))

-- A request is published.
def asking : List Action :=
  [.driver (.submit (.request (Scene.searchRequest "q") 0)), .driver .proceed, .driver .proceed,
    .driver .proceed, .driver .proceed, .driver (.written (.ok 9)), .driver .proceed,
    .driver (.flushed (.ok ())), .driver (.read (.ok [0x90, 4, 0, 1, 0, 1])),
    .driver (.read (.error { kind := .wouldBlock })), .driver .proceed, .driver .proceed,
    .driver .proceed, .driver .proceed, .driver .proceed, .driver (.written (.ok 16)),
    .driver .proceed, .driver (.flushed (.ok ())), .driver .proceed]

def searchReply : PublishPacket where
  topic := "t"
  packetId := none
  payload := []
  qos := .atMostOnce
  retain := false
  dup := false
  properties := { entries := [(.correlationData, .binary [7])] }

-- The answer to it arrives.
def answering : List Action :=
  [.driver (.read (.ok [0x30, 8, 0, 1, 0x74, 4, 0x09, 0, 1, 7])),
    .driver (.read (.error { kind := .wouldBlock }))]

-- The driver comes round again.
def awaiting : List Action :=
  [.driver .elapsed, .driver .proceed, .driver .proceed, .driver .proceed, .driver .proceed,
    .driver .proceed]

-- When the request has been answered, its correlation data is used for another one.
def askingAgain : List Action :=
  [.reply 0, .driver (.finishRequest [7]), .driver (.submit (.request (Scene.searchRequest "r") 1)),
    .driver .proceed, .driver .proceed, .driver .proceed, .driver .proceed, .driver .proceed,
    .driver .proceed, .driver .proceed, .driver .proceed, .driver .proceed, .driver .proceed,
    .driver .proceed, .driver (.written (.ok 16)), .driver .proceed, .driver (.flushed (.ok ()))]

theorem replies_reach_requesters_answering :
    ∃ dialogue dialogue' : Dialogue, Machine.run step
        (start Driver.plainOptions Driver.plainConnack Driver.stillClock)
        (asking ++ awaiting ++ answering ++ askingAgain ++ answering) = some dialogue ∧
      dialogue.driver.connection.replies = [(0, .ok (.response searchReply))] ∧
      dialogue.step (.reply 1) = some dialogue' ∧
      dialogue'.driver.connection.replies =
        [(0, .ok (.response searchReply)), (1, .ok (.response searchReply))] ∧
      dialogue.Faithful := by
  obtain ⟨dialogue, dialogue', hr, hs, hn, ht⟩ := Machine.exists_run_step step
    (start Driver.plainOptions Driver.plainConnack Driver.stillClock)
    (asking ++ awaiting ++ answering ++ askingAgain ++ answering) (.reply 1)
    (·.driver.connection.replies = [(0, .ok (.response searchReply))])
    (·.driver.connection.replies =
      [(0, .ok (.response searchReply)), (1, .ok (.response searchReply))]) (by decide +kernel)
  have hi (command : Command)
      (hm : .driver (.submit command) ∈ asking ++ awaiting ++ answering ++ askingAgain ++ answering) :
      command.Issued := by
    simp only [asking, awaiting, answering, askingAgain, List.mem_append, List.mem_cons,
      List.not_mem_nil, Action.driver.injEq, Input.submit.injEq, reduceCtorEq, or_false,
      false_or] at hm
    rcases hm with rfl | rfl
    case inl => exact Scene.searchRequest_issued "q" 0
    case inr => exact Scene.searchRequest_issued "r" 1
  exact ⟨dialogue, dialogue', hr, hn, hs, ht,
    replies_reach_requesters _ _ _ _ dialogue hr hi (by decide +kernel)⟩

-- Or the future of the first one is dropped before it has been answered.
def reusing : List Action :=
  [.driver (.dropReceiver 0), .driver (.cancelRequest [7]), .driver .elapsed, .driver .proceed,
    .driver (.submit (.request (Scene.searchRequest "q") 1)), .driver .proceed, .driver .proceed,
    .driver .proceed, .driver (.written (.ok 16)), .driver .proceed, .driver (.flushed (.ok ()))]

theorem reply_misdelivered :
    (Command.request (Scene.searchRequest "q") 0).Issued ∧
    (Command.request (Scene.searchRequest "q") 1).Issued ∧
    ∃ dialogue dialogue' : Dialogue, Machine.run step
        (start Driver.plainOptions Driver.plainConnack Driver.stillClock)
        (asking ++ reusing ++ answering) = some dialogue ∧
      dialogue.step (.reply 0) = some dialogue' ∧
      dialogue.driver.connection.replies = [] ∧
      dialogue'.driver.connection.replies = [(1, .ok (.response searchReply))] ∧
      ¬dialogue.Faithful := by
  refine ⟨Scene.searchRequest_issued "q" 0, Scene.searchRequest_issued "q" 1, ?_⟩
  obtain ⟨dialogue, dialogue', hr, hs, hn, ht⟩ := Machine.exists_run_step step
    (start Driver.plainOptions Driver.plainConnack Driver.stillClock) (asking ++ reusing ++ answering)
    (.reply 0) (·.driver.connection.replies = [])
    (·.driver.connection.replies = [(1, .ok (.response searchReply))]) (by decide +kernel)
  refine ⟨dialogue, dialogue', hr, hs, hn, ht, fun hf => ?_⟩
  obtain ⟨told, he, hm⟩ := hf 0 dialogue' hs
  rw [hn, ht, List.nil_append] at he
  have h := hm (1, _) (he ▸ List.mem_cons_self)
  cases h

end Dialogue
end MqttWasi
