import MqttWasi.Driver.Theorems.Exchange
import MqttWasi.Driver.Theorems.PacketIds

-- What the removal of a request does to the entries of other operations.

namespace MqttWasi

namespace MqttConnection

open Relation (ReflTransGen)

-- The entries of all other operations are left as they are.
def Spares (c c' : MqttConnection) (origin : Origin) : Prop :=
  ∀ packetId entry, c.pendingAcks.lookup packetId = some entry → entry.origin ≠ origin →
    c'.pendingAcks.lookup packetId = some entry

-- The packet identifier of a request that has been published is still its own, or it is free, or
-- nobody waits for the message that has it now.
def KeepsId (c : MqttConnection) (pending : PendingRequest) : Prop :=
  ∀ packetId entry, pending.publishPacketId = some packetId →
    c.pendingAcks.lookup packetId = some entry →
    entry.origin = .request pending.result ∨ entry.kind = .tombstone .publish true

-- A frame that has not been started belongs to the request that it names.
def Labelled (c : MqttConnection) : Prop :=
  ∀ frame ∈ c.outbound, frame.offset = 0 →
    ∀ correlationData, frame.requestCorrelation = some correlationData →
      ∀ pending, c.pendingRequests.lookup correlationData = some pending →
        frame.origin = .request pending.result

variable {c c' : MqttConnection}

-- Frames and requests go, or stay what they are.
theorem Labelled.fewer (h : c.Labelled)
    (hf : ∀ frame ∈ c'.outbound, frame.offset = 0 → frame ∈ c.outbound)
    (hr : ∀ correlationData pending, c'.pendingRequests.lookup correlationData = some pending →
      ∃ pending', c.pendingRequests.lookup correlationData = some pending' ∧
        pending'.result = pending.result) : c'.Labelled := by
  intro frame hm hz correlationData hc pending hl
  obtain ⟨pending', hl', he⟩ := hr correlationData pending hl
  rw [← he]
  exact h frame (hf frame hm hz) hz correlationData hc pending' hl'

theorem Labelled.same (h : c.Labelled) (ho : c'.outbound = c.outbound)
    (hr : c'.pendingRequests = c.pendingRequests) : c'.Labelled :=
  h.fewer (fun _ hm _ => ho ▸ hm) fun _ pending hl => ⟨pending, hr ▸ hl, rfl⟩

theorem Labelled.push (h : c.Labelled) (frame)
    (hf : ∀ correlationData, frame.requestCorrelation = some correlationData →
      ∀ pending, c.pendingRequests.lookup correlationData = some pending →
        frame.origin = .request pending.result) : (c.push frame).Labelled := by
  intro frame' hm hz
  cases List.mem_append.mp hm
  case inl hm => exact h frame' hm hz
  case inr hm => exact List.mem_singleton.mp hm ▸ hf

theorem Labelled.plain (h : c.Labelled) (frame) (hr : frame.requestCorrelation = none) :
    (c.push frame).Labelled :=
  h.push frame fun _ hc => by rw [hr] at hc; cases hc

theorem Labelled.adjust {f : PendingRequest → PendingRequest} (h : c.Labelled)
    (ho : c'.outbound = c.outbound)
    (hr : c'.pendingRequests = c.pendingRequests.adjust correlationData f)
    (hf : ∀ pending, (f pending).result = pending.result) : c'.Labelled := by
  refine h.fewer (fun _ hm _ => ho ▸ hm) fun correlationData' pending hl => ?_
  rw [hr] at hl
  by_cases he : correlationData' = correlationData
  case pos =>
    rw [he, AList.lookup_adjust, Option.map_eq_some_iff] at hl
    obtain ⟨pending', hl, rfl⟩ := hl
    exact ⟨pending', he ▸ hl, (hf pending').symm⟩
  case neg =>
    rw [AList.lookup_adjust_ne he] at hl
    exact ⟨pending, hl, rfl⟩

theorem Labelled.publish (h : c.Labelled)
    (hl : c.pendingRequests.lookup correlationData = some pending) (bytes packetId) :
    ((c.push (pending.frame correlationData bytes)).markPublished correlationData packetId).Labelled := by
  have hp : (c.push (pending.frame correlationData bytes)).Labelled := by
    refine h.push _ fun correlationData' hc pending' hl' => ?_
    cases hc
    rw [hl] at hl'
    cases hl'
    rfl
  exact hp.adjust rfl rfl fun _ => rfl

-- What a removal has to find.
structure Removable (c : MqttConnection) : Prop where
  orderly : c.Orderly fun _ => true
  labelled : c.Labelled

theorem Labelled.step (h : c.Labelled) (ho : c.Orderly K) (hs : Ledger c c') : c'.Labelled := by
  cases hs
  case reorder correlationData => exact h.adjust rfl rfl fun _ => rfl
  case register correlationData pending _ _ hn =>
    intro frame hm hz correlationData' hc pending' hl
    obtain ⟨pending'', hl', _⟩ := ho.requested frame hm hz correlationData' hc
    have hne : correlationData' ≠ correlationData := by
      intro he
      rw [he] at hl'
      exact hn (AList.lookup_isSome.mp (by rw [hl']; rfl))
    exact h frame hm hz correlationData' hc pending' ((AList.lookup_insert_ne hne).symm.trans hl)
  case remove pending correlationData _ =>
    obtain ⟨_, _, _, he⟩ := withoutRequest_eq c correlationData pending
    rw [he]
    exact h.fewer (fun _ hm _ => (List.mem_filter.mp hm).left) fun _ pending' hl =>
      ⟨pending', AList.lookup_of_lookup_erase hl, rfl⟩
  case publish packetId entry correlationData pending bytes hp =>
    exact (h.same rfl rfl : (c.await packetId entry).Labelled).publish hp.lookup bytes (some packetId)
  case publishQos0 hp => exact h.publish hp.lookup _ none
  case await packetId entry result bytes _ =>
    exact (h.same rfl rfl : (c.await packetId entry).Labelled).plain (ackedFrame result bytes) rfl
  case subscribe packetId entry responseTopic bytes _ =>
    exact (h.same rfl rfl : ((c.await packetId entry).subscribing responseTopic).Labelled).plain
      (subscriptionFrame responseTopic bytes) rfl
  case plain frame hr _ _ => exact h.plain frame hr
  case write ho hw =>
    obtain ⟨hr, hs⟩ := hw.requested ho
    exact h.fewer hs fun _ pending hl => ⟨pending, hr ▸ hl, rfl⟩
  all_goals exact h.same rfl rfl

theorem Removable.step (h : c.Removable) (hs : Ledger c c') : c'.Removable :=
  ⟨h.orderly.step rfl hs, h.labelled.step h.orderly hs⟩

theorem Removable.arrived (h : c.Removable) (hn : packet.acknowledges = none) (reader) :
    (c.arrived reader packet).Removable :=
  ⟨h.orderly.arrived (by rw [hn]; rfl) reader, h.labelled.same rfl rfl⟩

theorem Removable.receipt (h : c.Removable) (ha : packet.acknowledges = some (k, packetId))
    (hb : c.Answers (fun _ => true) packet)
    (hr : Receipt packet k packetId (c.arrived reader packet) c') : c'.Removable := by
  refine ⟨h.orderly.receipt rfl ha hb hr, ?_⟩
  cases hr <;> exact h.labelled.same rfl rfl

-- As long as the PUBLISH of a request waits in the queue, its packet identifier is its own.
theorem Removable.unsent (h : c.Removable)
    (hl : c.pendingRequests.lookup correlationData = some pending)
    (hi : pending.publishPacketId = some packetId)
    (hu : c.outbound.any (isUnsentFrameOf correlationData) = true) :
    ∃ entry, c.pendingAcks.lookup packetId = some entry ∧ entry.origin = .request pending.result := by
  obtain ⟨frame, hm, hu⟩ := List.any_eq_true.mp hu
  obtain ⟨hz, hc⟩ : frame.offset = 0 ∧ frame.requestCorrelation = some correlationData := by
    simpa [isUnsentFrameOf] using hu
  obtain ⟨pending', hl', _, ha⟩ := h.orderly.requested frame hm hz correlationData hc
  rw [hl] at hl'
  cases hl'
  rw [hi] at ha
  have hq : frame.unstarted ∈ c.inFlight fun _ => true := by
    refine List.mem_append_right _ (List.mem_filter.mpr ⟨List.mem_map_of_mem hm, ?_⟩)
    exact OutboundFrame.asks_eq _ ha
  obtain ⟨entry, he, ho, _⟩ := h.orderly.held _ hq .publish packetId ha
  exact ⟨entry, he, ho.trans (h.labelled frame hm hz correlationData hc pending hl)⟩

theorem pendingAcks_withoutRequest (c : MqttConnection) (correlationData)
    (hi : pending.publishPacketId = some packetId) :
    (c.withoutRequest correlationData pending).pendingAcks =
      if c.outbound.any (isUnsentFrameOf correlationData) then c.pendingAcks.erase packetId
      else c.pendingAcks.adjust packetId ({ · with kind := .tombstone .publish true }) := by
  rw [withoutRequest, hi]
  rfl

-- Once the PUBLISH has been sent, whatever has its packet identifier becomes a tombstone.
theorem lookup_withoutRequest_of_sent (hi : pending.publishPacketId = some packetId)
    (hu : c.outbound.any (isUnsentFrameOf correlationData) = false)
    (he : c.pendingAcks.lookup packetId = some entry) :
    (c.withoutRequest correlationData pending).pendingAcks.lookup packetId =
      some { entry with kind := .tombstone .publish true } := by
  rw [pendingAcks_withoutRequest c correlationData hi, hu, if_neg Bool.false_ne_true,
    AList.lookup_adjust, he]
  rfl

theorem Removable.spares_iff (h : c.Removable)
    (hl : c.pendingRequests.lookup correlationData = some pending) :
    Spares c (c.withoutRequest correlationData pending) (.request pending.result) ↔
      c.KeepsId pending := by
  cases hi : pending.publishPacketId
  case none =>
    have he : (c.withoutRequest correlationData pending).pendingAcks = c.pendingAcks := by
      rw [withoutRequest, hi]
      rfl
    constructor
    case mp =>
      intro _ packetId entry hp
      rw [hi] at hp
      cases hp
    case mpr =>
      intro _ packetId entry hp _
      rw [he]
      exact hp
  case some packetId =>
    have he := pendingAcks_withoutRequest c correlationData hi
    split at he
    case isTrue hu =>
      -- Only its own entry is taken out.
      obtain ⟨own, hw, ho⟩ := h.unsent hl hi hu
      constructor
      case mp =>
        intro _ packetId' entry hp hk
        rw [hi] at hp
        cases hp
        rw [hw] at hk
        cases hk
        exact .inl ho
      case mpr =>
        intro _ packetId' entry hk hn
        have hne : packetId' ≠ packetId := by
          rintro rfl
          rw [hw] at hk
          cases hk
          exact hn ho
        rw [he, AList.lookup_erase_ne hne]
        exact hk
    case isFalse =>
      constructor
      case mp =>
        intro hs packetId' entry hp hk
        rw [hi] at hp
        cases hp
        by_cases ho : entry.origin = .request pending.result
        case pos => exact .inl ho
        case neg =>
          have hk' := hs packetId entry hk ho
          rw [he, AList.lookup_adjust, hk, Option.map_some, Option.some.injEq] at hk'
          exact .inr (congrArg (·.kind) hk').symm
      case mpr =>
        intro hk packetId' entry hk' hn
        rw [he]
        by_cases hp : packetId' = packetId
        case pos =>
          subst hp
          have ht := (hk packetId' entry hi hk').resolve_left hn
          rw [AList.lookup_adjust, hk', Option.map_some, ← ht]
        case neg => rw [AList.lookup_adjust_ne hp]; exact hk'

end MqttConnection

namespace Driver

open MqttConnection
open Relation (ReflTransGen)

-- The connections that the driver goes through in its next step, and others: these are all that the
-- ledger allows for.
inductive Passes : Driver → MqttConnection → Prop
  | runs : (p.running = true) → ReflTransGen Ledger c c' → Passes ⟨c, p⟩ c'
  | arrives : (FrameReader.tryDecode c.frameReader = .ok (some packet) reader) →
    (packet.acknowledges = none) → ReflTransGen Ledger (c.arrived reader packet) c' →
    Passes ⟨c, .decodeAndDispatch⟩ c'
  | acknowledged : (FrameReader.tryDecode c.frameReader = .ok (some packet) reader) →
    (packet.acknowledges = some (k, packetId)) →
    Receipt packet k packetId (c.arrived reader packet) c₁ → ReflTransGen Ledger c₁ c' →
    Passes ⟨c, .decodeAndDispatch⟩ c'

theorem removable_run {options : ConnectOptions} {clock : Clock}
    (h : (start options connack clock).run inputs = some driver)
    (hb : (start options connack clock).AnswersFrames (fun _ => true) inputs)
    (hr : driver.phase.running = true) : driver.connection.Removable := by
  have hm : (start options connack clock).connection.Removable :=
    ⟨orderly_start options connack clock _, fun _ hm => by cases hm⟩
  have := run_ledger (P := Removable) (Q := fun _ => True) (fun _ _ hs h => h.step hs)
    (fun _ _ reader hn h => h.arrived hn reader)
    (fun _ _ packet _ _ _ ha hd hc h hr => h.receipt ha (hc packet hd) hr)
    (fun _ _ _ _ => True.intro) (fun _ _ _ _ _ => True.intro) hm hb h
  cases this
  case inl h => exact h
  case inr h => rw [Phase.running_of_terminated h.left] at hr; cases hr

theorem Passes.removable {driver : Driver} (h : driver.Passes c)
    (hd : driver.phase.running = true → driver.connection.Removable)
    (hb : ∀ packet ∈ driver.dispatches .proceed, driver.connection.Answers (fun _ => true) packet) :
    c.Removable := by
  have hs {c c'} (hr : ReflTransGen Ledger c c') (h : c.Removable) : c'.Removable :=
    hr.preserves (fun _ _ hs h => h.step hs) h
  cases h
  case runs hp hr => exact hs hr (hd hp)
  case arrives hn hr => exact hs hr ((hd rfl).arrived hn _)
  case acknowledged hx ha hc hr =>
    exact hs hr ((hd rfl).receipt ha (hb _ (dispatches_of_decoded hx)) hc)

theorem removal_spares_iff (options : ConnectOptions) (connack : ConnAckPacket) (clock : Clock)
    (inputs : List Input) (driver : Driver)
    (h : (start options connack clock).run inputs = some driver)
    (hb : (start options connack clock).AnswersFrames (fun _ => true) (inputs ++ [.proceed]))
    (c : MqttConnection) (hc : driver.Passes c) (correlationData : Bytes) (pending : PendingRequest)
    (hl : c.pendingRequests.lookup correlationData = some pending) :
    ∃ c', removeRequest correlationData c = .ok (some pending) c' ∧
      (Spares c c' (.request pending.result) ↔ c.KeepsId pending) := by
  have hb' : (start options connack clock).AnswersFrames (fun _ => true) inputs :=
    fun inputs' input earlier hp => hb inputs' input earlier (hp.trans (List.prefix_append _ _))
  have hr := hc.removable (removable_run h hb') (hb inputs .proceed driver List.prefix_rfl h)
  exact ⟨_, removeRequest_of_some hl, hr.spares_iff hl⟩

def longOptions : ConnectOptions :=
  { plainOptions with commandCapacity := 70000 }

-- A request is published, and its PUBLISH is acknowledged.
def requestPublished : List Input :=
  [.submit (.request { plainRequest with qos := .atLeastOnce } 0), .proceed, .proceed, .proceed,
    .proceed, .written (.ok 9), .proceed, .flushed (.ok ()), .read (.ok [0x90, 4, 0, 1, 0, 1]),
    .read (.error { kind := .wouldBlock }), .proceed, .proceed, .proceed, .proceed, .proceed,
    .written (.ok 8), .proceed, .flushed (.ok ()), .proceed, .elapsed, .proceed, .proceed, .proceed,
    .proceed, .proceed, .read (.ok [0x40, 2, 0, 2]), .read (.error { kind := .wouldBlock }), .proceed,
    .proceed, .proceed, .proceed, .proceed, .proceed, .proceed, .proceed, .elapsed, .proceed]

-- While it waits for its answer, a subscription is under way.
def subscribingToo : List Input :=
  requestPublished ++ [.submit (.subscribe "b" .atMostOnce 1), .proceed]

theorem removal_spares_iff_publishing :
    ∃ driver, (start longOptions plainConnack stillClock).run subscribingToo = some driver ∧
      ∃ pending c' entry, driver.connection.pendingRequests.lookup [1] = some pending ∧
        removeRequest [1] driver.connection = .ok (some pending) c' ∧
        Spares driver.connection c' (.request pending.result) ∧
        driver.connection.pendingAcks.lookup 3 = some entry ∧ entry.origin = .command 1 ∧
        c'.pendingAcks.lookup 3 = some entry := by
  obtain ⟨⟨c, phase⟩, hr, hp, hn, hl, he⟩ := exists_run (start longOptions plainConnack stillClock)
    subscribingToo (fun driver => driver.phase.running = true ∧
      driver.connection.pendingAcks.lookup 2 = none ∧
      (driver.connection.pendingRequests.lookup [1]).map
        (fun pending => (pending.result, pending.publishPacketId)) = some (0, some 2) ∧
      (driver.connection.pendingAcks.lookup 3).map (·.origin) = some (.command 1)) (by decide +kernel)
  obtain ⟨pending, hl, hi⟩ := Option.map_eq_some_iff.mp hl
  obtain ⟨entry, he, ho⟩ := Option.map_eq_some_iff.mp he
  have hb : (start longOptions plainConnack stillClock).AnswersFrames (fun _ => true)
      (subscribingToo ++ [.proceed]) := by
    unfold AnswersFrames
    decide +kernel
  obtain ⟨c', hc, hs⟩ := removal_spares_iff longOptions plainConnack stillClock subscribingToo _ hr hb c
    (.runs hp .refl) [1] pending hl
  -- The identifier of the PUBLISH is free, that of the SUBSCRIBE is another.
  have hk : Spares c c' (.request pending.result) := hs.mpr fun packetId entry' hp he' => by
    rw [(Prod.mk.inj hi).right, Option.some.injEq] at hp
    rw [← hp, hn] at he'
    cases he'
  exact ⟨_, hr, pending, c', entry, hl, hc, hk, he, ho, hk 3 entry he (by rw [ho]; simp)⟩

end Driver

namespace MqttConnection

open Driver

variable {c : MqttConnection}

-- A message with a property that no message has.
def unsendable : PublishOptions where
  qos := .atLeastOnce
  properties := { entries := [(.receiveMaximum, .u16 1)] }

theorem unsendable_encode (packetId : UInt16) :
    ∃ e, (beginPublish.packet "a" [] unsendable (some packetId)).encode = .error e := by
  cases he : (beginPublish.packet "a" [] unsendable (some packetId)).encode
  case error e => exact ⟨e, rfl⟩
  case ok bytes =>
    obtain ⟨_, body, hb, _⟩ := PublishPacket.encode_eq_ok.mp he
    have hp : ∃ e, (Properties.encodeEntries (some .publish) [] unsendable.properties.entries).bytes =
        .error e := ⟨_, rfl⟩
    obtain ⟨e, hp⟩ := hp
    simp [PublishPacket.encodeBody, beginPublish.packet, Properties.encodeFor, Properties.encodeInner,
      EStateM.bind_eq_ok, hp, check_eq_ok] at hb

-- The driver has nothing to do, and may send a message.
structure Idle (c : MqttConnection) : Prop where
  commands : c.commands = []
  closing : c.closing = false
  handlesDropped : c.handlesDropped = false
  commandCapacity : 0 < c.commandCapacity
  validatePublish : c.serverCapabilities.validatePublish .atLeastOnce false = .ok ()
  pendingAcks : c.pendingAcks = ∅

theorem Idle.keep (h : c.Idle) (nextPacketId nextSender taken replies) :
    Idle { c with nextPacketId, nextSender, taken, replies } :=
  ⟨h.commands, h.closing, h.handlesDropped, h.commandCapacity, h.validatePublish, h.pendingAcks⟩

theorem Idle.validateMessage (h : c.Idle) {options : PublishOptions} (hq : options.qos = .atLeastOnce)
    (hr : options.retain = false) : c.validateMessage "a" options = .ok () := by
  have ht : validateTopicName "a" = .ok () := rfl
  rw [MqttConnection.validateMessage, ht, hq, hr]
  exact h.validatePublish

theorem Idle.run_message (h : c.Idle) (options left) :
    (⟨c, .drainCommands (left + 1)⟩ : Driver).run
        [.submit (.publish "a" [] options c.nextSender), .proceed] =
      some (perform (beginPublish "a" [] options c.nextSender) (fun _ _ => .drainCommands left)
        { c with
          nextSender := c.nextSender + 1
          taken := c.taken ++ [.publish "a" [] options c.nextSender] }) := by
  have hcap : ¬c.commandCapacity ≤ 0 := Nat.not_le.mpr h.commandCapacity
  simp [Driver.run, Driver.step, submit, Command.result, h.commands, h.handlesDropped, proceed, takeCommand,
    perform, processCommand, EStateM.bind_apply, h.closing, hcap]

theorem Idle.reserve (h : c.Idle) : reservePacketId c =
    .ok (.ok c.nextPacketId) { c with nextPacketId := nextPacketIdAfter c.nextPacketId } := by
  have hm : c.nextPacketId ∉ c.pendingAcks := by
    rw [h.pendingAcks]
    exact AList.notMem_empty _
  rw [reservePacketId, reservePacketId.go, EStateM.bind_ok (EStateM.get_apply _),
    EStateM.bind_ok (EStateM.set_apply _ _), if_neg hm]
  rfl

-- Some identifiers have been given away for nothing.
def skipped (c : MqttConnection) (n : Nat) (taken : List Command) (replies : List (Sender × Reply)) :
    MqttConnection :=
  { c with
    nextPacketId := packetIdFrom c.nextPacketId n, nextSender := c.nextSender + n
    taken, replies }

theorem Idle.beginPublish_unsendable (h : c.Idle) (result) :
    ∃ e, beginPublish "a" [] unsendable result c = .ok ()
      { c with
        nextPacketId := nextPacketIdAfter c.nextPacketId
        replies := c.replies ++ [(result, .error e)] } := by
  obtain ⟨e, he⟩ := unsendable_encode c.nextPacketId
  have hv : c.validateMessage "a" unsendable = .ok () := h.validateMessage rfl rfl
  have hq : unsendable.qos = .atLeastOnce := rfl
  refine ⟨e, ?_⟩
  simp [beginPublish, EStateM.bind_apply, hv, hq, beginPublish.beginQos1, h.reserve, he, send]

-- Messages that cannot be sent, one after the other.
def unsendables (result : Sender) : Nat → List Input
  | 0 => []
  | n + 1 =>
    .submit (.publish "a" [] unsendable result) :: .proceed :: unsendables (result + 1) n

theorem Idle.run_unsendable (h : c.Idle) (left : Nat) :
    ∃ taken replies, (⟨c, .drainCommands (left + 1)⟩ : Driver).run
        [.submit (.publish "a" [] unsendable c.nextSender), .proceed] =
      some ⟨{ c with
              nextPacketId := nextPacketIdAfter c.nextPacketId, nextSender := c.nextSender + 1
              taken, replies }, .drainCommands left⟩ := by
  have hm := h.run_message unsendable left
  generalize hc : MqttConnection.mk .. = c₁ at hm
  have h₁ : c₁.Idle := hc ▸ h.keep ..
  obtain ⟨e, hb⟩ := h₁.beginPublish_unsendable c.nextSender
  rw [perform_ok hb, ← hc] at hm
  exact ⟨_, _, hm⟩

theorem Idle.run_unsendables (h : c.Idle) (hi : c.nextPacketId ≠ 0) (n left : Nat) :
    ∃ taken replies, (⟨c, .drainCommands (left + n)⟩ : Driver).run (unsendables c.nextSender n) =
      some ⟨c.skipped n taken replies, .drainCommands left⟩ := by
  induction n generalizing c
  case zero => exact ⟨c.taken, c.replies, by rw [MqttConnection.skipped, packetIdFrom_zero hi]; rfl⟩
  case succ n ih =>
    obtain ⟨taken₁, replies₁, hm⟩ := h.run_unsendable (left + n)
    generalize hc : MqttConnection.mk .. = c₁ at hm
    have h₁ : c₁.Idle := hc ▸ h.keep ..
    obtain ⟨taken, replies, hr⟩ := ih h₁ (hc ▸ nextPacketIdAfter_ne_zero _)
    have hk : c₁.skipped n taken replies = c.skipped (n + 1) taken replies := by
      subst hc
      simp only [MqttConnection.skipped, packetIdFrom_next hi, Nat.add_assoc, Nat.add_comm 1]
    have hu : unsendables c.nextSender (n + 1) =
        [.submit (.publish "a" [] unsendable c.nextSender), .proceed] ++ unsendables c₁.nextSender n := by
      subst hc
      rfl
    refine ⟨taken, replies, ?_⟩
    rw [hu, run_append, ← Nat.add_assoc, hm, Option.bind_some, hr, hk]

theorem enqueue_of_room (h : c.HasRoom bytes) (action requestCorrelation origin) :
    enqueue bytes action requestCorrelation origin c =
      .ok (.ok ()) (c.push { bytes, action, requestCorrelation, origin }) := by
  rw [enqueue, enqueueWithAction, bind_assoc, EStateM.bind_ok (EStateM.get_apply _),
    if_neg (Nat.not_lt.mpr h.left), if_neg (Nat.not_lt.mpr h.right)]
  rfl

-- A message that the driver has room for.
theorem awaitAck_of_room (hp : c.pendingAcks.entries.length < c.maxPendingOperations)
    (hr : c.HasRoom bytes) (packetId result) (timeoutLabel : String) :
    ∃ clock deadline, awaitAck packetId (.publish result) timeoutLabel bytes (.command result) c =
      .ok () (({ c with clock }.await packetId
        { deadline, timeoutLabel, kind := .publish result, origin := .command result }).push
          (ackedFrame result bytes)) := by
  have hi : insertPendingAck packetId (.publish result) timeoutLabel (.command result) c =
      .ok (.ok ()) ({ c with clock := c.clock.tick }.await packetId
        { deadline := c.clock.now + c.ackTimeout, timeoutLabel, kind := .publish result
          origin := .command result }) := by
    rw [insertPendingAck, EStateM.bind_ok (EStateM.get_apply _), if_neg (Nat.not_le.mpr hp)]
    rfl
  refine ⟨c.clock.tick, c.clock.now + c.ackTimeout, ?_⟩
  have hr' : ({ c with clock := c.clock.tick }.await packetId
      { deadline := c.clock.now + c.ackTimeout, timeoutLabel, kind := .publish result
        origin := .command result }).HasRoom bytes := hr
  generalize MqttConnection.await .. = c₁ at hi hr' ⊢
  rw [awaitAck, EStateM.bind_ok hi]
  exact EStateM.bind_ok (enqueue_of_room hr' _ _ _)

def message : PublishOptions where
  qos := .atLeastOnce

def messageBytes : Bytes :=
  [0x32, 6, 0, 1, 97, 0, 2, 0]

theorem Idle.beginPublish_message (h : c.Idle) (hi : c.nextPacketId = 2)
    (hq : 0 < c.peerReceiveMaximum.toNat)
    (hp : 0 < c.maxPendingOperations) (hr : c.HasRoom messageBytes) (result) :
    ∃ clock deadline, beginPublish "a" [] message result c = .ok ()
      (({ c with nextPacketId := 3, clock }.await 2
        { deadline, timeoutLabel := "publish acknowledgement", kind := .publish result
          origin := .command result }).push (ackedFrame result messageBytes)) := by
  have hv : c.validateMessage "a" message = .ok () := h.validateMessage rfl rfl
  have he : (beginPublish.packet "a" [] message (some 2)).encode = .ok messageBytes := rfl
  have hrs := h.reserve
  have hn : nextPacketIdAfter 2 = 3 := rfl
  rw [hi, hn] at hrs
  have hl : c.pendingAcks.entries.length < c.maxPendingOperations := by rw [h.pendingAcks]; exact hp
  obtain ⟨clock, deadline, ha⟩ := awaitAck_of_room (c := { c with nextPacketId := 3 }) hl hr 2 result
    "publish acknowledgement"
  have hc : ({ c with nextPacketId := 3 } : MqttConnection).outgoingQos1Count = 0 := by
    rw [outgoingQos1Count, h.pendingAcks]
    rfl
  refine ⟨clock, deadline, ?_⟩
  rw [beginPublish, EStateM.bind_ok (EStateM.get_apply _), hv]
  change beginPublish.beginQos1 "a" [] message result c = _
  rw [beginPublish.beginQos1, EStateM.bind_ok hrs]
  dsimp only
  rw [he]
  dsimp only
  rw [EStateM.bind_ok (EStateM.get_apply _), if_neg (Nat.not_le.mpr (by rw [hc]; exact hq))]
  exact ha

end MqttConnection

namespace Driver

open MqttConnection

variable {c : MqttConnection}

theorem answersFrames_single {driver : Driver} (K) (h : driver.dispatches input = none) :
    driver.AnswersFrames K [input] := by
  rw [AnswersFrames, throughout_iff, Machine.throughout_cons]
  refine ⟨fun packet hm => ?_, fun next _ => Machine.throughout_nil step next _⟩
  rw [h] at hm
  cases hm

-- A command is submitted and taken.
theorem answersFrames_message (K) (c : MqttConnection) (left command) :
    (⟨c, .drainCommands left⟩ : Driver).AnswersFrames K [.submit command, .proceed] := by
  have hs : (⟨c, .drainCommands left⟩ : Driver).AnswersFrames K [.submit command] :=
    answersFrames_single K rfl
  refine hs.append fun next hr => answersFrames_single K ?_
  obtain ⟨_, hd, hn⟩ := Option.bind_eq_some_iff.mp hr
  cases hn
  cases step_does hd
  rfl

theorem answersFrames_unsendables (K) (h : c.Idle) (n left : Nat) :
    (⟨c, .drainCommands (left + n)⟩ : Driver).AnswersFrames K (unsendables c.nextSender n) := by
  induction n generalizing c
  case zero => exact throughout_iff.mpr (Machine.throughout_nil step _ _)
  case succ n ih =>
    obtain ⟨_, _, hr⟩ := h.run_unsendable (left + n)
    refine Throughout.append (answersFrames_message K c (left + n + 1) _) fun next hn => ?_
    rw [hr, Option.some.injEq] at hn
    subst hn
    exact ih (h.keep ..)

-- Once the identifiers have come round, a message gets one that has been used before.
theorem run_round (h : c.Idle) (hi : c.nextPacketId ≠ 0) (hw : packetIdFrom c.nextPacketId n = 2)
    (hq : 0 < c.peerReceiveMaximum.toNat) (hp : 0 < c.maxPendingOperations)
    (hr : c.HasRoom messageBytes) (left : Nat) :
    ∃ driver, (⟨c, .drainCommands (left + 1 + n)⟩ : Driver).run
        (unsendables c.nextSender n ++ [.submit (.publish "a" [] message (c.nextSender + n)), .proceed]) =
          some driver ∧
      (∀ K, (⟨c, .drainCommands (left + 1 + n)⟩ : Driver).AnswersFrames K
        (unsendables c.nextSender n ++
          [.submit (.publish "a" [] message (c.nextSender + n)), .proceed])) ∧
      driver.phase = .drainCommands left ∧
      driver.connection.pendingRequests = c.pendingRequests ∧
      driver.connection.outbound = c.outbound ++ [ackedFrame (c.nextSender + n) messageBytes] ∧
      ∃ entry, driver.connection.pendingAcks.lookup 2 = some entry ∧
        entry.kind = .publish (c.nextSender + n) ∧ entry.origin = .command (c.nextSender + n) := by
  obtain ⟨taken, replies, hu⟩ := h.run_unsendables hi n (left + 1)
  have h₁ : (c.skipped n taken replies).Idle := h.keep ..
  have hm := h₁.run_message message left
  generalize hc : MqttConnection.mk .. = c₁ at hm
  have h₂ : c₁.Idle := hc ▸ h₁.keep ..
  obtain ⟨clock, deadline, hb⟩ := h₂.beginPublish_message
    (by rw [← hc]; exact hw) (by rw [← hc]; exact hq)
    (by rw [← hc]; exact hp) (by rw [← hc]; exact hr) (c.skipped n taken replies).nextSender
  rw [perform_ok hb] at hm
  subst hc
  have hr := run_append ⟨c, .drainCommands (left + 1 + n)⟩ (unsendables c.nextSender n)
    [.submit (.publish "a" [] message (c.nextSender + n)), .proceed]
  rw [hu, Option.bind_some] at hr
  refine ⟨_, hr.trans hm, fun K => ?_, rfl, rfl, rfl, _, AList.lookup_insert _, rfl, rfl⟩
  refine (answersFrames_unsendables K h n (left + 1)).append fun next hn => ?_
  rw [hu, Option.some.injEq] at hn
  subst hn
  exact answersFrames_message K _ _ _

-- What the driver is like before the identifier comes round.
structure Published (driver : Driver) : Prop where
  phase : driver.phase = .drainCommands 70000
  idle : driver.connection.Idle
  identifier : driver.connection.nextPacketId = 3
  sender : driver.connection.nextSender = 1
  queue : driver.connection.outbound = []
  quota : 0 < driver.connection.peerReceiveMaximum.toNat
  bound : 0 < driver.connection.maxPendingOperations
  room : driver.connection.HasRoom messageBytes
  request : ∃ pending, driver.connection.pendingRequests.lookup [1] = some pending ∧
    pending.result = 0 ∧ pending.publishPacketId = some 2

theorem run_requestPublished :
    ∃ driver, (start longOptions plainConnack stillClock).run requestPublished = some driver ∧
      driver.Published := by
  obtain ⟨driver, hr, hp, ⟨h₁, h₂, h₃, h₄, h₅, h₆⟩, hi, hs, hq, hm, hb, hx, ho, hl⟩ :=
    exists_run (start longOptions plainConnack stillClock) requestPublished (fun driver =>
      driver.phase = .drainCommands 70000 ∧
      (driver.connection.commands = [] ∧ driver.connection.closing = false ∧
        driver.connection.handlesDropped = false ∧ 0 < driver.connection.commandCapacity ∧
        driver.connection.serverCapabilities.validatePublish .atLeastOnce false = .ok () ∧
        driver.connection.pendingAcks.entries = []) ∧
      driver.connection.nextPacketId = 3 ∧ driver.connection.nextSender = 1 ∧
      driver.connection.outbound = [] ∧ 0 < driver.connection.peerReceiveMaximum.toNat ∧
      0 < driver.connection.maxPendingOperations ∧
      messageBytes.length ≤ driver.connection.peerMaxPacketSize ∧
      driver.connection.outboundBytes + messageBytes.length ≤ driver.connection.maxOutboundQueueBytes ∧
      (driver.connection.pendingRequests.lookup [1]).map
        (fun pending => (pending.result, pending.publishPacketId)) = some (0, some 2))
      (by decide +kernel)
  obtain ⟨pending, hl, he⟩ := Option.map_eq_some_iff.mp hl
  rw [Prod.mk.injEq] at he
  exact ⟨driver, hr, hp, ⟨h₁, h₂, h₃, h₄, h₅, AList.ext h₆⟩, hi, hs, hq, hm, hb, ⟨hx, ho⟩, pending, hl, he⟩

-- Its packet identifier comes round again, to another message.
def recycling : List Input :=
  requestPublished ++ (unsendables 1 65534 ++ [.submit (.publish "a" [] message 65535), .proceed])

theorem removal_strips_another :
    ∃ driver, (start longOptions plainConnack stillClock).run recycling = some driver ∧
      (start longOptions plainConnack stillClock).AnswersFrames (fun _ => true)
        (recycling ++ [.proceed]) ∧
      driver.Passes driver.connection ∧
      ∃ pending entry c', driver.connection.pendingRequests.lookup [1] = some pending ∧
        driver.connection.pendingAcks.lookup 2 = some entry ∧ entry.kind = .publish 65535 ∧
        removeRequest [1] driver.connection = .ok (some pending) c' ∧
        c'.pendingAcks.lookup 2 = some { entry with kind := .tombstone .publish true } ∧
        ¬Spares driver.connection c' (.request pending.result) := by
  obtain ⟨⟨c, phase⟩, hr, hp⟩ := run_requestPublished
  obtain rfl : phase = .drainCommands 70000 := hp.phase
  obtain ⟨pending, hl, hs, hi⟩ := hp.request
  have hn : c.nextSender = 1 := hp.sender
  have hne : c.nextPacketId ≠ 0 := by rw [hp.identifier]; decide
  have hw : packetIdFrom c.nextPacketId 65534 = 2 := by rw [hp.identifier]; decide
  obtain ⟨⟨c', phase⟩, hd, hb, hph, hpr, ho, entry, he, hk, hor⟩ :=
    run_round hp.idle hne hw hp.quota hp.bound hp.room 4465
  obtain rfl : phase = .drainCommands 4465 := hph
  dsimp only at hpr ho he
  rw [hn] at hd hb hk hor ho
  have hrun : (start longOptions plainConnack stillClock).run recycling =
      some ⟨c', .drainCommands 4465⟩ := by
    rw [recycling, run_append, hr, Option.bind_some]
    exact hd
  have hu : c'.outbound.any (isUnsentFrameOf [1]) = false := by
    rw [ho, hp.queue]
    rfl
  have ht := lookup_withoutRequest_of_sent hi hu he
  refine ⟨_, hrun, ?_, .runs rfl .refl, pending, entry, _, hpr ▸ hl, he, hk,
    removeRequest_of_some (hpr ▸ hl), ht, fun hf => ?_⟩
  case refine_1 =>
    -- Nothing is acknowledged after the PUBLISH of the request.
    have hb' : (start longOptions plainConnack stillClock).AnswersFrames (fun _ => true)
        requestPublished := by
      unfold AnswersFrames
      decide +kernel
    refine Throughout.append (hb'.append fun next hx => ?_) fun next hx => ?_
    case refine_1 =>
      rw [hr, Option.some.injEq] at hx
      exact hx ▸ hb _
    case refine_2 =>
      rw [hrun, Option.some.injEq] at hx
      exact hx ▸ answersFrames_single _ rfl
  case refine_2 =>
    have hf := hf 2 entry he (by rw [hor]; simp)
    rw [ht, Option.some.injEq] at hf
    have hf := congrArg (·.kind) hf
    rw [hk] at hf
    cases hf

end Driver
end MqttWasi
