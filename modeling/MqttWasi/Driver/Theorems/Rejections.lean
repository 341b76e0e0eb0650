import MqttWasi.Driver.Theorems.Bounds

-- A command that is refused leaves nothing behind.

namespace MqttWasi

open Relation (ReflTransGen)

-- What becomes of the registration of a command that is refused.
def Command.release : Command → RequestLifecycle → RequestLifecycle
  | request command _, lifecycle => lifecycle.finish command.correlationData
  | publish .., lifecycle | subscribe .., lifecycle | unsubscribe .., lifecycle
  | disconnect _, lifecycle => lifecycle

namespace MqttConnection

variable {c c' : MqttConnection}

-- A frame of a request can only be withdrawn as long as the request is pending.
def Attached (c : MqttConnection) : Prop :=
  ∀ frame ∈ c.outbound, ∀ correlationData,
    isUnsentFrameOf correlationData frame = true → correlationData ∈ c.pendingRequests

theorem Attached.same (h : c.Attached) (ho : c'.outbound = c.outbound)
    (hp : ∀ correlationData ∈ c.pendingRequests, correlationData ∈ c'.pendingRequests) :
    c'.Attached :=
  fun frame hm correlationData hu => hp _ (h frame (ho ▸ hm) correlationData hu)

theorem Attached.push (h : c.Attached) (frame : OutboundFrame)
    (ho : c'.outbound = c.outbound ++ [frame])
    (hf : ∀ correlationData, frame.requestCorrelation = some correlationData →
      correlationData ∈ c'.pendingRequests)
    (hp : ∀ correlationData ∈ c.pendingRequests, correlationData ∈ c'.pendingRequests) :
    c'.Attached := by
  intro frame' hm correlationData hu
  rw [ho] at hm
  cases List.mem_append.mp hm
  case inl hm => exact hp _ (h frame' hm correlationData hu)
  case inr hm =>
    obtain rfl := List.mem_singleton.mp hm
    simp only [isUnsentFrameOf, decide_eq_true_eq] at hu
    exact hf correlationData hu.right

theorem Attached.withoutRequest (h : c.Attached) (correlationData pending) :
    (c.withoutRequest correlationData pending).Attached := by
  have ho : (c.withoutRequest correlationData pending).outbound =
      c.outbound.filter (!isUnsentFrameOf correlationData ·) := by
    unfold MqttConnection.withoutRequest
    cases pending.publishPacketId <;> rfl
  have hp : (c.withoutRequest correlationData pending).pendingRequests =
      c.pendingRequests.erase correlationData := by
    unfold MqttConnection.withoutRequest
    cases pending.publishPacketId <;> rfl
  intro frame hm correlationData' hu
  rw [ho] at hm
  obtain ⟨hm, hn⟩ := List.mem_filter.mp hm
  rw [hp, AList.mem_erase]
  refine ⟨fun he => ?_, h frame hm correlationData' hu⟩
  simp [← he, hu] at hn

theorem Attached.step (h : c.Attached) (hs : Ledger c c') : c'.Attached := by
  have hk (correlationData f) : ∀ key ∈ c.pendingRequests,
      key ∈ c.pendingRequests.adjust correlationData f :=
    fun key => (AList.mem_adjust correlationData key f).mpr
  cases hs
  case reorder => exact h.same rfl (hk _ _)
  case register => exact h.same rfl fun _ hm => (AList.mem_insert _).mpr (.inr hm)
  case remove => exact h.withoutRequest _ _
  case publish packetId entry correlationData pending bytes hp =>
    refine h.push (pending.frame correlationData bytes) rfl (fun key he => ?_) (hk _ _)
    cases he
    exact hk _ _ _ (AList.lookup_isSome.mp (by rw [hp.lookup]; rfl))
  case publishQos0 correlationData pending bytes hp =>
    refine h.push (pending.frame correlationData bytes) rfl (fun key he => ?_) (hk _ _)
    cases he
    exact hk _ _ _ (AList.lookup_isSome.mp (by rw [hp.lookup]; rfl))
  case await => exact h.push _ rfl (by simp [ackedFrame]) fun _ => id
  case subscribe => exact h.push _ rfl (by simp [subscriptionFrame]) fun _ => id
  case plain frame hr _ _ => exact h.push frame rfl (by simp [hr]) fun _ => id
  case write frame rest ho hw =>
    cases hw
    case none => exact h
    case part n _ _ hn _ =>
      intro frame' hm correlationData hu
      cases List.mem_cons.mp hm
      case inl he => simp [he, isUnsentFrameOf, hn.ne'] at hu
      case inr hm => exact h frame' (ho ▸ List.mem_cons_of_mem _ hm) correlationData hu
    case whole => exact fun frame' hm => h frame' (ho ▸ List.mem_cons_of_mem _ hm)
  all_goals exact h.same rfl fun _ => id

theorem Attached.ends (he : Ends c c') : c'.Attached := by
  cases he <;> exact fun _ hm => by cases hm

theorem Receipt.attached (hr : Receipt packet k packetId c c') (h : c.Attached) : c'.Attached := by
  cases hr
  case unknown => exact h
  case mismatched => exact h
  case taken => exact h.same rfl fun _ => id

-- An action that does not fail.
def Returns (x : DriverM α) : Prop :=
  ∀ c, ∃ a c', x c = .ok a c'

namespace Returns

theorem pure (a : α) : Returns (pure a) :=
  fun c => ⟨a, c, rfl⟩

theorem get : Returns (get : DriverM MqttConnection) :=
  fun c => ⟨c, c, rfl⟩

theorem modify (f : MqttConnection → MqttConnection) : Returns (modify f) :=
  fun c => ⟨⟨⟩, f c, rfl⟩

theorem bind {x : DriverM α} {f : α → DriverM β} (hx : Returns x) (hf : ∀ a, Returns (f a)) :
    Returns (x >>= f) := by
  intro c
  obtain ⟨a, c', h⟩ := hx c
  rw [EStateM.bind_ok h]
  exact hf a c'

theorem ite {p : Prop} [Decidable p] {x y : DriverM α} (hx : Returns x) (hy : Returns y) :
    Returns (if p then x else y) := by
  split
  case isTrue => exact hx
  case isFalse => exact hy

theorem send (result : Sender) (reply : Reply) : Returns (send result reply) :=
  .modify _

theorem failResult (result : Option Sender) (e : Error) : Returns (failResult result e) := by
  cases result
  case none => exact .pure _
  case some result => exact .send result _

theorem reservePacketId : Returns reservePacketId := by
  intro c
  obtain ⟨r, c', h, _⟩ := reservePacketId_apply (c := c)
  exact ⟨r, c', h⟩

theorem removePendingAck (packetId : UInt16) : Returns (removePendingAck packetId) :=
  fun _ => ⟨_, _, rfl⟩

theorem awaitAck (packetId kind timeoutLabel bytes origin) :
    Returns (awaitAck packetId kind timeoutLabel bytes origin) := by
  intro c
  rw [MqttConnection.awaitAck]
  rcases insertPendingAck_cases (c := c) packetId kind timeoutLabel origin with
    hn | ⟨c₁, entry, _, _, _, _, hn⟩
  case inl =>
    rw [EStateM.bind_ok hn]
    exact Returns.failResult _ _ c
  case inr =>
    rw [EStateM.bind_ok hn]
    dsimp only
    rcases enqueue_cases (c := c₁.await packetId entry) bytes .none none origin with
      ⟨e, he, _⟩ | ⟨_, he⟩
    case inr =>
      rw [EStateM.bind_ok he]
      exact ⟨_, _, rfl⟩
    case inl =>
      rw [EStateM.bind_ok he]
      refine Returns.bind (.removePendingAck packetId) (fun pending => ?_) _
      cases pending
      case none => exact .pure _
      case some => exact .failResult _ _

theorem awaitWritten (bytes action origin) : Returns (awaitWritten bytes action origin) := by
  intro c
  rcases awaitWritten_cases (c := c) bytes action origin with ⟨e, hw, _⟩ | ⟨_, hw⟩
  case inl => exact ⟨_, _, hw⟩
  case inr => exact ⟨_, _, hw⟩

theorem discard {x : DriverM α} (hx : Returns x) : Returns (discard x) := by
  intro c
  obtain ⟨a, c', h⟩ := hx c
  exact ⟨_, c', EStateM.discard_ok h⟩

theorem beginPublish (topic payload options result) :
    Returns (beginPublish topic payload options result) := by
  refine .bind .get fun c => ?_
  split
  case h_1 => exact .send _ _
  case h_2 =>
    cases options.qos
    case atMostOnce =>
      dsimp only
      rw [beginPublish.beginQos0]
      split
      case h_1 => exact .send _ _
      case h_2 => exact .discard (.awaitWritten _ _ _)
    case atLeastOnce =>
      refine .bind .reservePacketId fun r => ?_
      cases r
      case error e => exact .send _ _
      case ok packetId =>
        dsimp only
        split
        case h_1 => exact .send _ _
        case h_2 => exact .bind .get fun c => .ite (.send _ _) (.awaitAck _ _ _ _ _)

theorem beginSubscribe (filter qos result) : Returns (beginSubscribe filter qos result) := by
  refine .bind .get fun c => ?_
  split
  case h_1 => exact .send _ _
  case h_2 =>
    refine .bind .reservePacketId fun r => ?_
    cases r
    case error e => exact .send _ _
    case ok packetId =>
      dsimp only
      split
      case h_1 => exact .send _ _
      case h_2 => exact .awaitAck _ _ _ _ _

theorem beginUnsubscribe (filter result) : Returns (beginUnsubscribe filter result) := by
  rw [MqttConnection.beginUnsubscribe]
  split
  case h_1 => exact .send _ _
  case h_2 =>
    refine .bind .reservePacketId fun r => ?_
    cases r
    case error e => exact .send _ _
    case ok packetId =>
      dsimp only
      split
      case h_1 => exact .send _ _
      case h_2 => exact .awaitAck _ _ _ _ _

theorem beginDisconnect (result) : Returns (beginDisconnect result) := by
  refine .bind (.modify _) fun _ => ?_
  rw [DisconnectPacket.encode_normal]
  refine .bind (.pure _) fun bytes => .bind (.awaitWritten _ _ _) fun queued => ?_
  exact .ite (.modify _) (.pure _)

theorem processCommand (command : Command) : Returns (processCommand command) := by
  by_cases hr : ∃ request result, command = .request request result
  case pos =>
    obtain ⟨request, result, rfl⟩ := hr
    intro c
    obtain ⟨c', hp, _⟩ := processCommand_takesUp c request result
    exact ⟨_, c', hp⟩
  case neg =>
    refine .bind .get fun c => .ite (.send _ _) ?_
    cases command
    case publish => exact .beginPublish _ _ _ _
    case subscribe => exact .beginSubscribe _ _ _
    case unsubscribe => exact .beginUnsubscribe _ _
    case disconnect => exact .beginDisconnect _
    case request request result => exact absurd ⟨request, result, rfl⟩ hr

end Returns

-- A command that is refused: its waiter is told why, and nothing else has happened.
def Refuses (c : MqttConnection) (command : Command) (e : Error) : Prop :=
  ∃ nextPacketId clock, processCommand command c = .ok ()
    { c with
      nextPacketId, clock
      requestLifecycle := command.release c.requestLifecycle
      replies := c.replies ++ [(command.result, .error e)] }

-- What the waiters are told while a command is processed.
def Tells (c : MqttConnection) (command : Command) (answers : List (Sender × Reply)) : Prop :=
  ∃ c', processCommand command c = .ok () c' ∧ c'.replies = c.replies ++ answers

theorem Launch.replies (h : Launch responseTopic c c') : c'.replies = c.replies := by
  cases h
  case publish hp =>
    cases hp
    case quiet hq => cases hq; rfl
    all_goals rfl
  case subscribe => rfl

-- Unless an operation is refused, its waiter is not told anything yet.
theorem tells_or_refuses_of_accepts (hn : ∀ request result, command ≠ .request request result) :
    c.Tells command [] ∨ ∃ e, c.Refuses command e := by
  obtain ⟨⟨⟩, c', hx⟩ := Returns.processCommand command c
  have ha := processCommand_accepts (c := c) hn
  rw [hx] at ha
  obtain ⟨c₁, hq, ha⟩ := ha
  have hr : c₁.replies = c.replies := by cases hq; rfl
  have hl : command.release c.requestLifecycle = c.requestLifecycle := by
    cases command
    case request request result => exact absurd rfl (hn request result)
    all_goals rfl
  cases ha
  case refuse e _ =>
    cases hq
    exact .inr ⟨e, _, _, by rw [hx, hl]; rfl⟩
  all_goals exact .inl ⟨_, hx, hr.trans (List.append_nil _).symm⟩

-- A request that could not be started is taken back without a trace.
theorem withoutRequest_admitted (ha : c.Attached) (hn : correlationData ∉ c.pendingRequests)
    {pending : PendingRequest} (hp : pending.publishPacketId = none) :
    (c.admitted correlationData pending).withoutRequest correlationData pending =
      c.finished correlationData := by
  have hu : ∀ frame ∈ c.outbound, isUnsentFrameOf correlationData frame = false := by
    intro frame hm
    by_contra hu
    exact hn (ha frame hm correlationData (by simpa using hu))
  have ho : c.outbound.filter (!isUnsentFrameOf correlationData ·) = c.outbound :=
    List.filter_eq_self.mpr fun frame hm => by rw [hu frame hm]; rfl
  have hz : c.outbound.filter (isUnsentFrameOf correlationData) = [] :=
    List.filter_eq_nil_iff.mpr fun frame hm => by rw [hu frame hm]; exact Bool.false_ne_true
  rw [withoutRequest, hp]
  simp only [retainFrames, admitted, AList.erase_insert_of_notMem hn, ho, hz, List.foldl_nil, finished]

theorem tells_or_refuses_of_takesUp {request : RequestCommand} (ha : c.Attached)
    (ho : c.closing = false) (hn : request.correlationData ∉ c.pendingRequests) :
    c.Tells (.request request result) [] ∨ ∃ e, c.Refuses (.request request result) e := by
  obtain ⟨c', hx, hu⟩ := processCommand_takesUp c request result
  cases hu
  case closing hc => simp [ho] at hc
  case cancelled => exact .inl ⟨_, hx, by simp⟩
  case refused c₁ e _ hq =>
    cases hq
    exact .inr ⟨e, _, _, hx⟩
  case started c₁ deadline hq hm =>
    have hr := unchanged hm Launch.replies
    cases hq.quiet
    exact .inl ⟨c', hx, by rw [hr, List.append_nil]; rfl⟩
  case withdrawn c₁ c₂ e deadline hq hs =>
    cases hq.quiet
    case mk nextPacketId₁ clock₁ _ =>
      cases hs
      case mk nextPacketId clock _ =>
        have ha' : Attached { c with nextPacketId, clock } := ha.same rfl fun _ => id
        have hp : (request.pending result deadline).publishPacketId = none := rfl
        have hw := withoutRequest_admitted ha' hn hp
        rw [admitted] at hw hx
        rw [hw] at hx
        exact .inr ⟨e, nextPacketId, clock, hx⟩

-- The slot of a request that is refused is free again.
theorem released_of_limited {limit : Nat} (h : c.Limited limit) (request : RequestCommand) (result) :
    request.correlationData ∉ ((Command.request request result).release c.requestLifecycle).active ∧
    request.correlationData ∉
      ((Command.request request result).release c.requestLifecycle).cancelled :=
  ⟨h.lifecycle.active.not_mem_erase, h.lifecycle.cancelled.not_mem_erase⟩

end MqttConnection

namespace Driver

open MqttConnection

theorem attached_run {options : ConnectOptions} {clock : Clock}
    (h : (start options connack clock).run inputs = some driver) : driver.connection.Attached := by
  have := run_ledger (P := Attached) (Q := Attached) (C := fun _ _ => True)
    (fun _ _ hl h => h.step hl) (fun _ _ _ _ h => h.same rfl fun _ => id)
    (fun c _ packet reader _ _ _ _ _ h hr =>
      hr.attached (h.same rfl fun _ => id : (c.arrived reader packet).Attached))
    (fun _ _ he _ => .ends he)
    (fun _ _ _ ho h => ho.ledger.preserves (fun _ _ hl h => h.step hl) h)
    (fun _ hm => by cases hm) (.trivial _ _) h
  exact this.elim id And.right

theorem rejection_atomic (options : ConnectOptions) (connack : ConnAckPacket) (clock : Clock)
    (inputs : List Input) (driver : Driver)
    (h : (start options connack clock).run inputs = some driver) (commands taken : List Command)
    (command : Command) :
    let c := { driver.connection with commands, taken }
    c.closing = false →
    (∀ request result, command = .request request result →
      request.correlationData ∉ c.pendingRequests) →
    ∃ answers, c.Tells command answers ∧
      ∀ e, (command.result, .error e) ∈ answers →
        answers = [(command.result, .error e)] ∧ c.Refuses command e ∧
        ∀ request result, command = .request request result →
          request.correlationData ∉ (command.release c.requestLifecycle).active ∧
          request.correlationData ∉ (command.release c.requestLifecycle).cancelled := by
  intro c ho hn
  have ha : c.Attached := (attached_run h).same rfl fun _ => id
  have hl : c.Limited options.commandCapacity := (limited_run h).same rfl rfl rfl
  have ht : c.Tells command [] ∨ ∃ e, c.Refuses command e := by
    by_cases hr : ∃ request result, command = .request request result
    case pos =>
      obtain ⟨request, result, rfl⟩ := hr
      exact tells_or_refuses_of_takesUp ha ho (hn request result rfl)
    case neg => exact tells_or_refuses_of_accepts fun request result he => hr ⟨request, result, he⟩
  cases ht
  case inl ht => exact ⟨[], ht, fun e he => by cases he⟩
  case inr ht =>
    obtain ⟨e, hr⟩ := ht
    have ⟨nextPacketId, clock, hx⟩ := hr
    refine ⟨[(command.result, .error e)], ⟨_, hx, rfl⟩, fun e' he => ?_⟩
    obtain rfl : e' = e := by simpa using he
    refine ⟨rfl, hr, ?_⟩
    rintro request result rfl
    exact released_of_limited hl request result

-- The broker takes packets of eight bytes at most, and a SUBSCRIBE has nine.

def narrowConnack : ConnAckPacket :=
  { sessionPresent := false, reasonCode := 0,
    properties := { entries := [(.maximumPacketSize, .u32 8)] } }

theorem rejection_atomic_tooLarge :
    ∃ driver, (start plainOptions narrowConnack stillClock).run [.submit (.request plainRequest 0)] =
        some driver ∧
      let c := { driver.connection with commands := [], taken := [.request plainRequest 0] }
      [1] ∈ c.requestLifecycle.active ∧
      c.Refuses (.request plainRequest 0) (.packetTooLarge 9 8) ∧
      [1] ∉ ((Command.request plainRequest 0).release c.requestLifecycle).active := by
  refine ⟨_, rfl, by decide +kernel, ?_⟩
  obtain ⟨answers, ⟨c', hx, ha⟩, h⟩ := rejection_atomic plainOptions narrowConnack stillClock
    [.submit (.request plainRequest 0)] _ rfl [] [.request plainRequest 0] (.request plainRequest 0) rfl
    (by rintro request result ⟨⟩; decide +kernel)
  have hr : c'.replies = [(0, .error (.packetTooLarge 9 8))] := by
    rw [← show _ = c' from congrArg EStateM.Result.state hx]
    decide +kernel
  obtain rfl : c'.replies = answers := ha
  rw [hr] at h
  obtain ⟨-, hf, hl⟩ := h _ (List.mem_singleton_self _)
  exact ⟨hf, (hl _ _ rfl).left⟩

end Driver
end MqttWasi
