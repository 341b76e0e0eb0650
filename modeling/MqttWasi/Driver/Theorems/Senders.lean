import MqttWasi.Driver.Theorems.Runs

-- Whom the waiters that the driver knows belong to: the waiters of some commands are answered once a
-- frame has been sent, and all others because of a packet from the broker.

namespace MqttWasi

-- Somebody waits for one of these acknowledgements.
def AckAwaited (m : AList fun _ : UInt16 => PendingAck) (result : Sender) : Prop :=
  ∃ packetId entry, m.lookup packetId = some entry ∧ entry.kind.result? = some result

namespace AckAwaited

variable {m : AList fun _ : UInt16 => PendingAck} {result : Sender}

theorem of_insert (h : AckAwaited (m.insert packetId entry) result) :
    AckAwaited m result ∨ entry.kind.result? = some result := by
  obtain ⟨packetId', entry', hl, hr⟩ := h
  by_cases he : packetId' = packetId
  case pos =>
    rw [he, AList.lookup_insert, Option.some.injEq] at hl
    exact .inr (hl ▸ hr)
  case neg =>
    rw [AList.lookup_insert_ne he] at hl
    exact .inl ⟨packetId', entry', hl, hr⟩

theorem of_erase (h : AckAwaited (m.erase packetId) result) : AckAwaited m result :=
  have ⟨packetId', entry, hl, hr⟩ := h
  ⟨packetId', entry, AList.lookup_of_lookup_erase hl, hr⟩

theorem of_adjust {f : PendingAck → PendingAck}
    (hf : ∀ entry, (f entry).kind.result? = none ∨ f entry = entry)
    (h : AckAwaited (m.adjust packetId f) result) : AckAwaited m result := by
  obtain ⟨packetId', entry, hl, hr⟩ := h
  by_cases he : packetId' = packetId
  case pos =>
    rw [he, AList.lookup_adjust, Option.map_eq_some_iff] at hl
    obtain ⟨entry', hl, rfl⟩ := hl
    cases hf entry'
    case inl hn => rw [hn] at hr; cases hr
    case inr hn => exact ⟨packetId, entry', hl, hn ▸ hr⟩
  case neg =>
    rw [AList.lookup_adjust_ne he] at hl
    exact ⟨packetId', entry, hl, hr⟩

theorem of_sweep {closed : PendingAck → Bool}
    (h : AckAwaited (m.mapValues fun entry => if closed entry then entry.bury else entry) result) :
    AckAwaited m result := by
  obtain ⟨packetId, entry, hl, hr⟩ := h
  rw [AList.lookup_mapValues, Option.map_eq_some_iff] at hl
  obtain ⟨entry', hl, rfl⟩ := hl
  split at hr
  case isTrue => cases hr
  case isFalse => exact ⟨packetId, entry', hl, hr⟩

end AckAwaited

-- Somebody waits for the response to one of these requests.
def ResponseAwaited (m : AList fun _ : Bytes => PendingRequest) (result : Sender) : Prop :=
  ∃ correlationData pending, m.lookup correlationData = some pending ∧ pending.result = result

namespace ResponseAwaited

variable {m : AList fun _ : Bytes => PendingRequest} {result : Sender}

theorem of_insert (h : ResponseAwaited (m.insert correlationData pending) result) :
    ResponseAwaited m result ∨ pending.result = result := by
  obtain ⟨correlationData', pending', hl, hr⟩ := h
  by_cases he : correlationData' = correlationData
  case pos =>
    rw [he, AList.lookup_insert, Option.some.injEq] at hl
    exact .inr (hl ▸ hr)
  case neg =>
    rw [AList.lookup_insert_ne he] at hl
    exact .inl ⟨correlationData', pending', hl, hr⟩

theorem of_erase (h : ResponseAwaited (m.erase correlationData) result) : ResponseAwaited m result :=
  have ⟨correlationData', pending, hl, hr⟩ := h
  ⟨correlationData', pending, AList.lookup_of_lookup_erase hl, hr⟩

theorem of_adjust {f : PendingRequest → PendingRequest}
    (hf : ∀ pending, (f pending).result = pending.result)
    (h : ResponseAwaited (m.adjust correlationData f) result) : ResponseAwaited m result := by
  obtain ⟨correlationData', pending, hl, hr⟩ := h
  by_cases he : correlationData' = correlationData
  case pos =>
    rw [he, AList.lookup_adjust, Option.map_eq_some_iff] at hl
    obtain ⟨pending', hl, rfl⟩ := hl
    exact ⟨correlationData, pending', hl, (hf pending').symm.trans hr⟩
  case neg =>
    rw [AList.lookup_adjust_ne he] at hl
    exact ⟨correlationData', pending, hl, hr⟩

end ResponseAwaited

namespace MqttConnection

open Relation (ReflTransGen)

-- Somebody waits for a packet from the broker.
def Waits (c : MqttConnection) (result : Sender) : Prop :=
  AckAwaited c.pendingAcks result ∨ ResponseAwaited c.pendingRequests result

-- Somebody will be given this answer once a frame has been sent.
def Pends (c : MqttConnection) (answer : Sender × Reply) : Prop :=
  (∃ frame ∈ c.outbound, frame.action.reply? = some answer) ∨
  ∃ flush ∈ c.flushActions, flush.action.reply? = some answer

-- Nobody new waits, and who is told that an operation has succeeded has waited.
structure Attends (c c' : MqttConnection) : Prop where
  taken : c'.taken = c.taken
  commands : c'.commands = c.commands
  nextSender : c'.nextSender = c.nextSender
  waits : ∀ result, c'.Waits result → c.Waits result
  pends : ∀ answer, c'.Pends answer → c.Pends answer
  tells : ∀ result done, (result, .ok done) ∈ c'.replies →
    (result, .ok done) ∈ c.replies ∨ c.Pends (result, .ok done) ∨ c.Waits result

variable {c c' c₁ : MqttConnection}

namespace Attends

theorem refl (c : MqttConnection) : Attends c c :=
  ⟨rfl, rfl, rfl, fun _ => id, fun _ => id, fun _ _ => .inl⟩

theorem trans (h : Attends c c₁) (h' : Attends c₁ c') : Attends c c' where
  taken := h'.taken.trans h.taken
  commands := h'.commands.trans h.commands
  nextSender := h'.nextSender.trans h.nextSender
  waits result hw := h.waits result (h'.waits result hw)
  pends answer hp := h.pends answer (h'.pends answer hp)
  tells result done hm := by
    rcases h'.tells result done hm with hm | hp | hw
    case inl => exact h.tells result done hm
    case inr.inl => exact .inr (.inl (h.pends _ hp))
    case inr.inr => exact .inr (.inr (h.waits _ hw))

theorem told_error (c : MqttConnection) (answers : List (Sender × Reply))
    (h : ∀ result done, (result, .ok done) ∉ answers) :
    Attends c { c with replies := c.replies ++ answers } :=
  ⟨rfl, rfl, rfl, fun _ => id, fun _ => id, fun result done hm =>
    .inl ((List.mem_append.mp hm).resolve_right (h result done))⟩

theorem reply_error (c : MqttConnection) (result) (e : Option Error) :
    Attends c (c.reply result (e.map .error)) :=
  told_error c _ (by cases e <;> simp)

theorem withoutRequest (c : MqttConnection) (correlationData pending) :
    Attends c (c.withoutRequest correlationData pending) := by
  have hp (outbound pendingAcks) (hs : outbound.Sublist c.outbound)
      (hw : ∀ result, AckAwaited pendingAcks result → AckAwaited c.pendingAcks result)
      (outboundBytes requestLifecycle) : Attends c
        { c with
          outbound, pendingAcks, outboundBytes, requestLifecycle
          pendingRequests := c.pendingRequests.erase correlationData } := by
    refine ⟨rfl, rfl, rfl, fun result => .imp (hw result) .of_erase, fun answer => .imp_left ?_,
      fun _ _ => .inl⟩
    exact fun ⟨frame, hm, ha⟩ => ⟨frame, hs.subset hm, ha⟩
  unfold MqttConnection.withoutRequest
  cases pending.publishPacketId
  case none => exact hp _ _ List.filter_sublist (fun _ => id) _ _
  case some packetId =>
    refine hp _ _ List.filter_sublist (fun result hw => ?_) _ _
    split at hw
    case isTrue => exact hw.of_erase
    case isFalse => exact hw.of_adjust fun _ => .inl rfl

end Attends

theorem Quiet.attends (h : Quiet c c') : Attends c c' := by
  cases h
  exact ⟨rfl, rfl, rfl, fun _ => id, fun _ => id, fun _ _ => .inl⟩

theorem Shift.attends (h : Shift c c') : Attends c c' := by
  cases h
  case quiet hq => exact hq.attends
  case sweep => exact ⟨rfl, rfl, rfl, fun _ => .imp_left .of_sweep, fun _ => id, fun _ _ => .inl⟩
  case bury =>
    refine ⟨rfl, rfl, rfl, fun _ => .imp_left (.of_adjust fun _ => .inl rfl), fun _ => id,
      (Attends.told_error c _ ?_).tells⟩
    simp
  case forget =>
    exact ⟨rfl, rfl, rfl, fun _ => .imp_left (.of_adjust fun _ => .inl rfl), fun _ => id,
      fun _ _ => .inl⟩
  case remove pending correlationData e _ =>
    exact (Attends.withoutRequest c correlationData pending).trans (.reply_error _ _ _)

-- A frame that nobody waits for
theorem Attends.push (c : MqttConnection) (frame) (h : frame.action.reply? = none) :
    Attends c (c.push frame) := by
  refine ⟨rfl, rfl, rfl, fun _ => id, fun answer => .imp_left ?_, fun _ _ => .inl⟩
  rintro ⟨frame', hm, ha⟩
  cases List.mem_append.mp hm
  case inl hm => exact ⟨frame', hm, ha⟩
  case inr hm => rw [List.mem_singleton.mp hm, h] at ha; cases ha

-- An entry for an operation of the driver itself
theorem Attends.await (c : MqttConnection) (packetId) (entry : PendingAck)
    (h : entry.kind.result? = none) : Attends c (c.await packetId entry) := by
  refine ⟨rfl, rfl, rfl, fun result => .imp_left fun hw => ?_, fun _ => id, fun _ _ => .inl⟩
  exact hw.of_insert.resolve_right (by simp [h])

theorem Attends.markPublished (c : MqttConnection) (correlationData packetId) :
    Attends c (c.markPublished correlationData packetId) :=
  ⟨rfl, rfl, rfl, fun _ => .imp_right (.of_adjust fun _ => rfl), fun _ => id, fun _ _ => .inl⟩

theorem Publish.attends (h : Publish c c') : Attends c c' := by
  cases h
  case quiet hq => exact hq.attends
  case qos1 hp =>
    refine .trans (.trans (.await c _ _ ?_) (.push _ _ rfl)) (.markPublished _ _ _)
    rw [hp.kind]
    rfl
  case qos0 => exact .trans (.push c _ rfl) (.markPublished _ _ _)

theorem Subscribes.attends (h : c.Subscribes responseTopic packetId entry bytes) :
    Attends c (((c.await packetId entry).subscribing responseTopic).push
      (subscriptionFrame responseTopic bytes)) := by
  have ha : Attends c ((c.await packetId entry).subscribing responseTopic) := by
    have := Attends.await c packetId entry (by rw [h.kind]; rfl)
    exact ⟨rfl, rfl, rfl, this.waits, this.pends, this.tells⟩
  exact ha.trans (.push _ _ rfl)

theorem Launch.attends (h : Launch responseTopic c c') : Attends c c' := by
  cases h
  case publish hp => exact hp.attends
  case subscribe hs => exact hs.attends

theorem Move.attends (h : Move c c') : Attends c c' := by
  cases h
  case shift hs => exact hs.attends
  case publish hp => exact hp.attends

theorem attends_of {M : MqttConnection → MqttConnection → Prop} (h : ReflTransGen M c c')
    (hm : ∀ {c c'}, M c c' → Attends c c') : Attends c c' :=
  h.preserves (P := Attends c) (fun _ _ hs h => h.trans (hm hs)) (.refl c)

theorem Write.attends (ho : c.outbound = frame :: rest) (h : Write frame rest c c') : Attends c c' := by
  have hf : frame ∈ c.outbound := ho ▸ List.mem_cons_self
  have hr (frame') (hm : frame' ∈ rest) : frame' ∈ c.outbound := ho ▸ List.mem_cons_of_mem _ hm
  cases h
  case none => exact .refl c
  case part n _ _ _ _ =>
    refine ⟨rfl, rfl, rfl, fun _ => id, fun answer => .imp_left ?_, fun _ _ => .inl⟩
    rintro ⟨frame', hm, ha⟩
    cases List.mem_cons.mp hm
    case inl he => exact ⟨frame, hf, by rw [he] at ha; exact ha⟩
    case inr hm => exact ⟨frame', hr frame' hm, ha⟩
  case whole =>
    refine ⟨rfl, rfl, rfl, fun _ => id, fun answer hp => ?_, fun _ _ => .inl⟩
    cases hp
    case inl hp =>
      obtain ⟨frame', hm, ha⟩ := hp
      exact .inl ⟨frame', hr frame' hm, ha⟩
    case inr hp =>
      obtain ⟨flush, hm, ha⟩ := hp
      cases List.mem_append.mp hm
      case inl hm => exact .inr ⟨flush, hm, ha⟩
      case inr hm =>
        rw [List.mem_singleton.mp hm] at ha
        exact .inl ⟨frame, hf, ha⟩

theorem Announce.attends (h : Announce reason c c') : Attends c c' := by
  cases h <;> exact ⟨rfl, rfl, rfl, fun _ => id, fun _ => id, fun _ _ => .inl⟩

theorem Flush.attends (h : Flush c c') : Attends c c' := by
  cases h
  case accept => exact ⟨rfl, rfl, rfl, fun _ => id, fun _ => id, fun _ _ => .inl⟩
  case complete flush rest hf hp =>
    have hd : Attends c (c.dropFlush flush rest) :=
      ⟨rfl, rfl, rfl, fun _ => id, fun _ => .imp_right fun ⟨flush', hm, ha⟩ =>
        ⟨flush', hf ▸ List.mem_cons_of_mem _ hm, ha⟩, fun _ _ => .inl⟩
    -- The waiter of the frame that has been flushed is told.
    have ha (answer) (hr : flush.action.reply? = some answer) : Attends c
        { c.dropFlush flush rest with replies := c.replies ++ [answer] } := by
      refine ⟨rfl, rfl, rfl, hd.waits, hd.pends, fun result done hm => ?_⟩
      cases List.mem_append.mp hm
      case inl hm => exact .inl hm
      case inr hm =>
        rw [List.mem_singleton.mp hm]
        exact .inr (.inl (.inr ⟨flush, hf ▸ List.mem_cons_self, hr⟩))
    generalize flush.action = action at hp ha
    cases hp
    case publishQos0 => exact ha _ rfl
    case disconnect hn => exact (ha _ rfl).trans hn.attends
    all_goals exact ⟨rfl, rfl, rfl, hd.waits, hd.pends, hd.tells⟩

theorem Arrive.attends (h : Arrive c c') : Attends c c' := by
  cases h
  case resolve hr =>
    cases hr
    case move hm => exact hm.attends
    case pong => exact ⟨rfl, rfl, rfl, fun _ => id, fun _ => id, fun _ _ => .inl⟩
    case take pending packetId packet answers hk ht hl =>
      refine ⟨rfl, rfl, rfl, fun _ => .imp_left .of_erase, fun _ => id, fun result done hm => ?_⟩
      cases List.mem_append.mp hm
      case inl hm => exact .inl hm
      case inr hm =>
        generalize hd : pending.kind = kind at ht
        cases ht
        case nobody => cases hm
        case waiter hr _ _ =>
          cases List.mem_singleton.mp hm
          exact .inr (.inr (.inl ⟨packetId, pending, hl, hd ▸ hr⟩))
  case acknowledge => exact .push c _ rfl
  case respond pending correlationData packet hl =>
    have hw := Attends.withoutRequest c correlationData pending
    refine ⟨hw.taken, hw.commands, hw.nextSender, hw.waits, hw.pends, fun result done hm => ?_⟩
    cases List.mem_append.mp hm
    case inl hm => exact hw.tells result done hm
    case inr hm =>
      cases List.mem_singleton.mp hm
      exact .inr (.inr (.inr ⟨correlationData, pending, hl, rfl⟩))
  case deliver => exact ⟨rfl, rfl, rfl, fun _ => id, fun _ => id, fun _ _ => .inl⟩

theorem Ends.attends (h : Ends c c') : Attends c c' := by
  have hc : Attends c c.closed := by
    refine ⟨rfl, rfl, rfl, fun _ hw => ?_, fun _ hp => ?_, (Attends.told_error c _ ?_).tells⟩
    case refine_1 => rcases hw with ⟨_, _, hl, _⟩ | ⟨_, _, hl, _⟩ <;> cases hl
    case refine_2 => rcases hp with ⟨_, hm, _⟩ | ⟨_, hm, _⟩ <;> cases hm
    case refine_3 => simp
  cases h
  case silent => exact ⟨rfl, rfl, rfl, hc.waits, hc.pends, hc.tells⟩
  case event => exact ⟨rfl, rfl, rfl, hc.waits, hc.pends, hc.tells⟩

theorem abandonCommands_attends : Attends c (abandonCommands c).state := by
  have hd : Attends c c.deserted := ⟨rfl, rfl, rfl, fun _ => id, fun _ => id, fun _ _ => .inl⟩
  cases hc : c.closing
  case true =>
    rw [abandonCommands_of_closing hc]
    exact hd
  case false =>
    rcases abandonCommands_of_open hc with ⟨e, ha⟩ | ⟨_, ha⟩
    case inl =>
      rw [ha]
      exact ⟨rfl, rfl, rfl, fun _ => id, fun _ => id, fun _ _ => .inl⟩
    case inr =>
      have hp := Attends.push c abandonedDisconnect rfl
      rw [ha]
      exact ⟨rfl, rfl, rfl, hp.waits, hp.pends, hp.tells⟩

theorem maintainKeepAlive_attends : Attends c (maintainKeepAlive c).state := by
  rcases (maintainKeepAlive_cases (c := c)).right with hq | ⟨_, c₁, hq, _, _, _, h⟩
  case inl => exact hq.attends
  case inr =>
    have hp := Attends.push c₁ pingFrame rfl
    rw [h]
    exact hq.attends.trans ⟨rfl, rfl, rfl, hp.waits, hp.pends, hp.tells⟩

-- The waiters are those of the commands that have been taken, each of which has a number of its own.
structure Owned (c : MqttConnection) : Prop where
  numbered : (c.taken ++ c.commands).map (·.result) = List.range c.nextSender
  waits : ∀ result, c.Waits result → ∃ command ∈ c.taken, command.result = result ∧ command.action? = none
  pends : ∀ answer, c.Pends answer → ∃ command ∈ c.taken, command.action?.bind (·.reply?) = some answer
  tells : ∀ result done, (result, .ok done) ∈ c.replies → ∃ command ∈ c.taken, command.result = result ∧
    ∀ action, command.action? = some action → action.reply? = some (result, .ok done)

theorem Owned.unique (h : c.Owned) (hm : command ∈ c.taken) (hm' : command' ∈ c.taken)
    (he : command.result = command'.result) : command = command' := by
  have hn : (c.taken.map (·.result)).Nodup := by
    have hn := List.nodup_range (n := c.nextSender)
    rw [← h.numbered, List.map_append] at hn
    exact hn.of_append_left
  exact List.inj_on_of_nodup_map hn hm hm' he

theorem Command.action?_reply? (h : Command.action? command = some action) :
    ∃ done, action.reply? = some (command.result, .ok done) := by
  cases command
  case publish =>
    obtain ⟨_, he⟩ := Option.ite_none_right_eq_some.mp h
    cases he
    exact ⟨_, rfl⟩
  case disconnect => cases h; exact ⟨_, rfl⟩
  all_goals cases h

theorem Owned.attends (h : c.Owned) (ha : Attends c c') : c'.Owned where
  numbered := by
    rw [ha.taken, ha.commands, ha.nextSender]
    exact h.numbered
  waits result hw := by
    rw [ha.taken]
    exact h.waits result (ha.waits result hw)
  pends answer hp := by
    rw [ha.taken]
    exact h.pends answer (ha.pends answer hp)
  tells result done hm := by
    rw [ha.taken]
    rcases ha.tells result done hm with hm | hp | hw
    case inl => exact h.tells result done hm
    case inr.inl =>
      obtain ⟨command, hm, hr⟩ := h.pends _ hp
      obtain ⟨action, hd, hr⟩ := Option.bind_eq_some_iff.mp hr
      obtain ⟨_, hr'⟩ := Command.action?_reply? hd
      have he := hr'.symm.trans hr
      simp only [Option.some.injEq, Prod.mk.injEq] at he
      refine ⟨command, hm, he.left, fun action' hd' => ?_⟩
      rw [hd, Option.some.injEq] at hd'
      exact hd' ▸ hr
    case inr.inr =>
      obtain ⟨command, hm, hr, hn⟩ := h.waits _ hw
      exact ⟨command, hm, hr, by simp [hn]⟩

-- A command is taken from the channel before it is processed.
theorem Owned.dequeued (h : c.Owned) (hc : c.commands = command :: rest) :
    (c.dequeued command rest).Owned where
  numbered := by
    have hn := h.numbered
    rw [hc] at hn
    simpa [MqttConnection.dequeued] using hn
  waits result hw :=
    have ⟨command', hm, hr⟩ := h.waits result hw
    ⟨command', List.mem_append_left _ hm, hr⟩
  pends answer hp :=
    have ⟨command', hm, hr⟩ := h.pends answer hp
    ⟨command', List.mem_append_left _ hm, hr⟩
  tells result done ht :=
    have ⟨command', hm, hr⟩ := h.tells result done ht
    ⟨command', List.mem_append_left _ hm, hr⟩

theorem Owned.takes (h : c.Owned) (hm : command ∈ c.taken) (ht : Takes command c c') : c'.Owned := by
  -- The frame of the command
  have hf {frame : OutboundFrame} (ha : ∀ answer, frame.action.reply? = some answer →
      command.action?.bind (·.reply?) = some answer) : (c.push frame).Owned := by
    refine ⟨h.numbered, h.waits, fun answer hp => ?_, h.tells⟩
    rcases hp with ⟨frame', hm', hr⟩ | hp
    case inr => exact h.pends answer (.inr hp)
    case inl =>
      cases List.mem_append.mp hm'
      case inl hm' => exact h.pends answer (.inl ⟨frame', hm', hr⟩)
      case inr hm' => exact ⟨command, hm, ha answer (List.mem_singleton.mp hm' ▸ hr)⟩
  cases ht
  case refuse e _ => exact h.attends (.reply_error c command.result (some e))
  case await packetId entry bytes hd ha =>
    have hq : (c.push (ackedFrame command.result bytes)).Owned := hf fun _ ha => by cases ha
    refine ⟨h.numbered, fun result hw => ?_, hq.pends, h.tells⟩
    cases hw
    case inr hw => exact h.waits result (.inr hw)
    case inl hw =>
      cases hw.of_insert
      case inl hw => exact h.waits result (.inl hw)
      case inr hw =>
        rw [ha.waiter, Option.some.injEq] at hw
        exact ⟨command, hm, hw, hd⟩
  case queue hd _ => exact hf fun answer ha => by rw [hd]; exact ha
  case disconnect hd _ _ =>
    have hq : (c.push (disconnectFrame command.result)).Owned := hf fun answer ha => by rw [hd]; exact ha
    exact ⟨hq.numbered, hq.waits, hq.pends, hq.tells⟩

theorem Owned.takesUp {request : RequestCommand} (h : c.Owned)
    (hm : Command.request request result ∈ c.taken) (ht : TakesUp request result c c') : c'.Owned := by
  have hq {c₁ : MqttConnection} (deadline) (hq : Quiet c c₁) :
      (c₁.admitted request.correlationData (request.pending result deadline)).Owned := by
    have h' := h.attends hq.attends
    have hm' : Command.request request result ∈ c₁.taken := hq.attends.taken ▸ hm
    refine ⟨h'.numbered, fun result' hw => ?_, h'.pends, h'.tells⟩
    cases hw
    case inl hw => exact h'.waits result' (.inl hw)
    case inr hw =>
      cases hw.of_insert
      case inl hw => exact h'.waits result' (.inr hw)
      case inr hw => exact ⟨_, hm', hw, rfl⟩
  cases ht
  case closing => exact h.attends (.reply_error c result (some .clientClosed))
  case cancelled => exact ⟨h.numbered, h.waits, h.pends, h.tells⟩
  case refused c₁ e _ hq =>
    have h' := h.attends hq.attends
    exact Owned.attends (c := c₁.finished request.correlationData)
      ⟨h'.numbered, h'.waits, h'.pends, h'.tells⟩ (.reply_error _ result (some e))
  case started deadline hc hl =>
    exact (hq deadline hc.quiet).attends (attends_of hl Launch.attends)
  case withdrawn e deadline hc hs =>
    exact ((hq deadline hc.quiet).attends hs.attends).attends
      ((Attends.withoutRequest _ _ _).trans (.reply_error _ result (some e)))

theorem Owned.outside (h : c.Owned) (ho : Outside c input c') : c'.Owned := by
  cases ho
  case submit command hs _ =>
    refine ⟨?_, h.waits, h.pends, h.tells⟩
    have hn := h.numbered
    simp only [List.map_append] at hn ⊢
    rw [← List.append_assoc, hn, List.range_succ, List.map_singleton, hs]
  case reorder packetId correlationData =>
    refine h.attends ⟨rfl, rfl, rfl, fun result hw => ?_, fun _ => id, fun _ _ => .inl⟩
    exact hw.imp (.of_adjust fun _ => .inr rfl) (.of_adjust fun _ => rfl)
  all_goals exact ⟨h.numbered, h.waits, h.pends, h.tells⟩

end MqttConnection

namespace Driver

open MqttConnection

variable {driver driver' : Driver}

theorem owned_step (h : driver.connection.Owned) (hd : Does driver input driver') :
    driver'.connection.Owned := by
  cases hd
  case pass => exact h
  case wake => exact h
  case shift hs => exact h.attends (attends_of hs Shift.attends)
  case command command rest c p next hp hc =>
    have hm := mem_taken_dequeued c command rest
    by_cases hr : ∀ request result, command ≠ .request request result
    case pos =>
      obtain ⟨_, hq, ht⟩ := processCommand_accepts (c := c.dequeued command rest) hr
      rw [perform_connection]
      exact ((h.dequeued hc).attends hq.attends).takes (hq.attends.taken ▸ hm) ht
    case neg =>
      simp only [ne_eq, not_forall, not_not] at hr
      obtain ⟨request, result, rfl⟩ := hr
      obtain ⟨c', hx, ht⟩ :=
        processCommand_takesUp (c.dequeued (.request request result) rest) request result
      rw [perform_ok hx]
      exact (h.dequeued hc).takesUp hm ht
  case abandon => rw [perform_connection]; exact h.attends abandonCommands_attends
  case keepAlive => rw [perform_connection]; exact h.attends maintainKeepAlive_attends
  case write ho => rw [perform_connection]; exact h.attends (Write.attends ho (writeFront_writes ..))
  case flush =>
    rw [perform_connection]
    exact h.attends (attends_of flushAccepted_flushes Flush.attends)
  case read result c _ _ _ =>
    rw [perform_connection]
    have hr := readNext_receives (c := c) result
    generalize (readNext result c).state = c' at hr ⊢
    cases hr
    case idle => exact h
    case close ha => exact h.attends ha.attends
    case receive => exact ⟨h.numbered, h.waits, h.pends, h.tells⟩
  case decode c next =>
    rcases perform_decodeNext_cases c next with ⟨reader, p, _, hx⟩ | ⟨packet, reader, _, hx⟩ <;> rw [hx]
    case inl => exact ⟨h.numbered, h.waits, h.pends, h.tells⟩
    case inr =>
      have h' : (c.arrived reader packet).Owned := ⟨h.numbered, h.waits, h.pends, h.tells⟩
      rw [perform_connection]
      rcases dispatchPacket_cases (c.arrived reader packet) packet with ⟨_, c', _, hx, he⟩ | hs
      case inl =>
        rw [hx]
        exact h'.attends he.attends
      case inr => exact h'.attends (attends_of (dispatchPacket_arrives hs) Arrive.attends)
  case finish c result =>
    obtain ⟨c', hf, he⟩ := finish_ends c result
    rw [perform_ok hf]
    exact h.attends he.attends
  case outside ho => exact h.outside ho

theorem owned_run {options : ConnectOptions} {clock : Clock}
    (h : (start options connack clock).run inputs = some driver) : driver.connection.Owned := by
  refine run_preserves (P := fun driver => driver.connection.Owned)
    (fun _ _ _ h hd => owned_step h hd) ⟨rfl, ?_, ?_, fun _ _ hm => by cases hm⟩ h
  case refine_1 => rintro result (⟨_, _, hl, _⟩ | ⟨_, _, hl, _⟩) <;> cases hl
  case refine_2 => rintro answer (⟨_, hm, _⟩ | ⟨_, hm, _⟩) <;> cases hm

end Driver
end MqttWasi
