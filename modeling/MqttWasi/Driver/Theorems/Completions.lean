import MqttWasi.Library.Thinned
import MqttWasi.Driver.Theorems.Framing
import MqttWasi.Driver.Theorems.Senders

-- When a waiter is told that a frame has been sent.

namespace MqttWasi

-- The frame of a request may be withdrawn.
def OutboundFrame.IsRequest (frame : OutboundFrame) : Prop :=
  frame.requestCorrelation ≠ none

def OutboundFrame.flush (frame : OutboundFrame) : PendingFlush where
  bytes := frame.bytes.length
  action := frame.action

-- The answers that are given because a frame has been sent.
def concludes (answer : Sender × Reply) : Bool :=
  answer.2 = .ok (.publish { packetId := none, reasonCode := none }) ∨ answer.2 = .ok .disconnect

theorem WrittenAction.concludes_reply {action : WrittenAction} (h : action.reply? = some answer) :
    concludes answer = true := by
  cases action <;> cases h <;> rfl

theorem Verdict.concludes (h : Verdict packet r) : concludes (result, r) = false := by
  cases h
  case puback ack =>
    rw [MqttConnection.pubackReply]
    split <;> rfl
  case suback => rfl
  case refused => rfl
  case unsuback ack =>
    rw [MqttConnection.unsubackReply]
    cases validateReasonCodes "UNSUBACK" ack.reasonCodes 1 <;> rfl

def Phase.writes : Phase → Bool
  | .flushOutbound _ .writing => true
  | _                         => false

namespace MqttConnection

open Relation (ReflTransGen)

variable {c c' : MqttConnection}

-- The waiters that have been told so, in the order in which they have been.
def completions (c : MqttConnection) : List (Sender × Reply) :=
  c.replies.filter concludes

-- How far the connection has come with the frames that it has written.
def sending (c : MqttConnection) :
    List OutboundFrame × List (Sender × Reply) × Bool × Bytes :=
  (c.written, c.completions, c.needsFlush, c.wire)

def progress (c : MqttConnection) :=
  (c.sending, c.flushActions)

theorem completions_append (c : MqttConnection) (answers : List (Sender × Reply)) :
    { c with replies := c.replies ++ answers }.completions =
      c.completions ++ answers.filter concludes :=
  List.filter_append ..

theorem progress_reply (c : MqttConnection) (answers : List (Sender × Reply))
    (h : answers.filter concludes = []) :
    { c with replies := c.replies ++ answers }.progress = c.progress := by
  rw [progress, sending, completions_append, h, List.append_nil]
  rfl

theorem progress_error (c : MqttConnection) (result) (e : Option Error) :
    (c.reply result (e.map .error)).progress = c.progress :=
  progress_reply c _ (by cases e <;> rfl)

theorem progress_withoutRequest (c : MqttConnection) (correlationData pending) :
    (c.withoutRequest correlationData pending).progress = c.progress := by
  obtain ⟨_, _, _, he⟩ := withoutRequest_eq c correlationData pending
  rw [he]
  rfl

theorem Shift.progress (h : Shift c c') : c'.progress = c.progress := by
  cases h
  case quiet hq => cases hq; rfl
  case sweep => rfl
  case bury pending _ _ _ => exact progress_reply c _ (by cases pending.kind.result? <;> rfl)
  case forget => rfl
  case remove pending correlationData e _ =>
    exact (progress_error _ _ e).trans (progress_withoutRequest c correlationData pending)

theorem Publish.progress (h : Publish c c') : c'.progress = c.progress := by
  cases h
  case quiet hq => cases hq; rfl
  all_goals rfl

theorem Move.progress (h : Move c c') : c'.progress = c.progress := by
  cases h
  case shift hs => exact hs.progress
  case publish hp => exact hp.progress

theorem Begin.progress (h : Begin c c') : c'.progress = c.progress := by
  cases h
  case publish hp => exact hp.progress
  case refuse result e _ => exact progress_error c result (some e)
  case withdraw pending correlationData e _ _ =>
    exact (progress_error _ _ (some e)).trans (progress_withoutRequest c correlationData pending)
  all_goals rfl

theorem Enter.progress (h : Enter c c') : c'.progress = c.progress := by
  cases h
  case begin hb => exact hb.progress
  all_goals rfl

theorem Outside.progress (h : Outside c input c') : c'.progress = c.progress := by
  cases h <;> rfl

theorem Announce.progress (h : Announce reason c c') : c'.progress = c.progress := by
  cases h <;> rfl

theorem Arrive.progress (h : Arrive c c') : c'.progress = c.progress := by
  cases h
  case resolve hr =>
    cases hr
    case move hm => exact hm.progress
    case pong => rfl
    case take pending packetId packet answers _ ht _ =>
      refine progress_reply c answers ?_
      cases ht
      case nobody => rfl
      case waiter hv => simp [hv.concludes]
  case acknowledge => rfl
  case respond pending correlationData packet _ =>
    exact (progress_reply _ _ rfl).trans (progress_withoutRequest c correlationData pending)
  case deliver => rfl

theorem Write.completions (h : Write frame rest c c') : c'.completions = c.completions := by
  cases h <;> rfl

-- A frame that has been written to its end waits for a flush.
theorem Write.written (h : Write frame rest c c') :
    (c'.written = c.written ∧ c'.flushActions = c.flushActions) ∨
    ∃ last : OutboundFrame, c'.written = c.written ++ [last] ∧
      c'.flushActions = c.flushActions ++ [last.flush] := by
  cases h
  case none => exact .inl ⟨rfl, rfl⟩
  case part => exact .inl ⟨rfl, rfl⟩
  case whole => exact .inr ⟨_, rfl, rfl⟩

-- Of the frames that have been queued, only those of requests may be missing.
def Kept (c : MqttConnection) : Prop :=
  Thinned OutboundFrame.IsRequest c.enqueued c.frames

theorem Kept.push (h : c.Kept) (frame : OutboundFrame) (ho : frame.offset = 0) : (c.push frame).Kept := by
  have hu : frame.unstarted = frame := by rw [OutboundFrame.unstarted, ← ho]
  rw [Kept, frames_push, hu]
  exact h.append (.refl _)

theorem Kept.withdraw (h : c.Kept) (correlationData) : (retainFrames correlationData c).Kept := by
  have hf : Thinned OutboundFrame.IsRequest c.outbound
      (c.outbound.filter (!isUnsentFrameOf correlationData ·)) := by
    refine .filter fun frame _ hk => ?_
    simp only [isUnsentFrameOf, Bool.not_eq_false', decide_eq_true_eq] at hk
    simp [OutboundFrame.IsRequest, hk.right]
  exact h.trans (.map _ (fun _ hr => hr) (.append (.refl c.written) hf))

theorem Kept.step (h : c.Kept) (ht : Traffic c c') : c'.Kept := by
  cases ht
  case push hp _ _ _ => exact h.push _ hp.unstarted
  case disconnect hp _ _ => exact h.push _ hp.unstarted
  case ping => exact h.push pingFrame rfl
  case withdraw correlationData => exact h.withdraw correlationData
  case write ho hw =>
    have he : c'.enqueued = c.enqueued := by cases hw <;> rfl
    rw [Kept, hw.frames ho, he]
    exact h
  case complete flush _ _ hp =>
    generalize flush.action = action at hp
    cases hp
    case disconnect ha => cases ha <;> exact h
    all_goals exact h
  case announce ha => cases ha <;> exact h
  all_goals exact h

theorem Kept.written (h : c.Kept) : (c.written.map (·.unstarted)).Sublist c.enqueued := by
  have hs := h.sublist
  rw [frames, List.map_append] at hs
  exact (List.sublist_append_left _ _).trans hs

theorem Ends.progress (h : Ends c c') : c'.progress = (c.sending, []) := by
  have hc : c.closed.completions = c.completions := by
    have hn : (c.waiting.map fun result => (result, (.error .connectionClosed : Reply))).filter
        concludes = [] := by
      simp [List.filter_eq_nil_iff, concludes]
    exact (completions_append c _).trans (by rw [hn, List.append_nil])
  cases h
  all_goals
    rw [sending, ← hc]
    rfl

theorem abandonCommands_progress : (abandonCommands c).state.progress = c.progress := by
  rcases abandonCommands_enters (c := c) with ha | ⟨e, ha⟩
  case inl => exact unchanged ha Enter.progress
  case inr =>
    rw [ha]
    rfl

theorem completeWritten_progress (c : MqttConnection) (action) : ∃ c',
    completeWritten action c = .ok () c' ∧ c'.progress =
      ((c.written, c.completions ++ action.reply?.toList, c.needsFlush, c.wire), c.flushActions) := by
  obtain ⟨c', h, hp⟩ := completeWritten_performs c action
  refine ⟨c', h, ?_⟩
  have hr (result done) (ha : concludes (result, .ok done) = true) :
      (c.reply result (some (.ok done))).completions = c.completions ++ [(result, .ok done)] :=
    (completions_append c _).trans (by simp [ha])
  cases hp
  case publishQos0 result =>
    rw [MqttConnection.progress, MqttConnection.sending, hr _ _ rfl]
    rfl
  case disconnect result ha =>
    rw [ha.progress, MqttConnection.progress, MqttConnection.sending, hr _ _ rfl]
    rfl
  all_goals
    rw [WrittenAction.reply?, Option.toList_none, List.append_nil]
    rfl

-- Every frame that has been written and waits for a flush is dealt with.
theorem complete_progress (flushes) (h : c.flushActions = flushes) : ∃ c',
    flushAccepted.complete flushes c = .ok () c' ∧ c'.progress =
      ((c.written, c.completions ++ flushes.filterMap (·.action.reply?), c.needsFlush, c.wire), []) := by
  induction flushes generalizing c
  case nil =>
    refine ⟨c, rfl, ?_⟩
    rw [List.filterMap_nil, List.append_nil, ← h]
    rfl
  case cons flush rest ih =>
    obtain ⟨c₁, hc, hp⟩ := completeWritten_progress (c.dropFlush flush rest) flush.action
    simp only [MqttConnection.progress, MqttConnection.sending, Prod.mk.injEq] at hp
    obtain ⟨⟨hw, hd, hn, hb⟩, hf⟩ := hp
    obtain ⟨c', hx, hp⟩ := ih hf
    refine ⟨c', ?_, ?_⟩
    case refine_1 =>
      rw [flushAccepted.complete, EStateM.bind_ok (EStateM.modify_apply _ _)]
      exact (EStateM.bind_ok hc).trans hx
    case refine_2 =>
      rw [hp, hw, hd, hn, hb, List.filterMap_cons, List.append_assoc]
      cases flush.action.reply? <;> rfl

theorem flushAccepted_ok (c : MqttConnection) : ∃ c', flushAccepted (.ok ()) c = .ok true c' ∧
    c'.progress =
      ((c.written, c.completions ++ c.flushActions.filterMap (·.action.reply?), false, c.wire), []) := by
  obtain ⟨c', hx, hp⟩ := complete_progress (c := { c with needsFlush := false }) c.flushActions rfl
  refine ⟨c', ?_, hp⟩
  rw [flushAccepted, EStateM.bind_ok (EStateM.modify_apply _ _), EStateM.bind_ok (EStateM.get_apply _)]
  exact EStateM.bind_ok hx

theorem flushAccepted_error (c : MqttConnection) (e : IoError) :
    (flushAccepted (.error e) c).state = c ∧
      ∀ accepted c', flushAccepted (.error e) c = .ok accepted c' → accepted = false := by
  rw [flushAccepted, EStateM.ite_apply]
  split
  case isTrue => exact ⟨rfl, fun accepted c' h => by cases h; rfl⟩
  case isFalse => exact ⟨rfl, fun accepted c' h => by cases h⟩

-- What a waiter has been told who belongs to such a command.
theorem Owned.mem_completions (h : c.Owned) (hm : command ∈ c.taken)
    (ha : command.action? = some action) (hr : (command.result, .ok done) ∈ c.replies) :
    action.reply? = some (command.result, .ok done) ∧ (command.result, .ok done) ∈ c.completions := by
  obtain ⟨command', hm', he, hd⟩ := h.tells _ _ hr
  obtain rfl := h.unique hm' hm he
  have hd := hd action ha
  exact ⟨hd, List.mem_filter.mpr ⟨hr, WrittenAction.concludes_reply hd⟩⟩

end MqttConnection

namespace Driver

open MqttConnection
open Relation (ReflTransGen)

variable {driver driver' : Driver}

-- What a step does to the frames that have been written.
inductive Sends : Driver → Input → Driver → Prop
  | idle (p p') : (c'.progress = c.progress) → Sends ⟨c, p⟩ input ⟨c', p'⟩
  | write (p p' result) : (c.outbound = frame :: rest) → (Write frame rest c c') →
    Sends ⟨c, p⟩ (.written result) ⟨c', p'⟩
  | flush (p p') : (p.running = true) →
    (c'.progress = ((c.written, c.completions ++ c.flushActions.filterMap (·.action.reply?), false,
      c.wire), [])) →
    Sends ⟨c, p⟩ (.flushed (.ok ())) ⟨c', p'⟩
  | ends (p p') : (c'.progress = (c.sending, [])) → Sends ⟨c, p⟩ .proceed ⟨c', p'⟩

theorem idle_perform {x : DriverM α} (h : (x c).state.progress = c.progress) (p input next) :
    Sends ⟨c, p⟩ input (perform x next c) := by
  rw [perform_eq]
  exact .idle p _ h

theorem Does.sends (h : Does driver input driver') : Sends driver input driver' := by
  cases h
  case pass => exact .idle _ _ rfl
  case wake => exact .idle _ _ rfl
  case shift hs => exact .idle _ _ (unchanged hs Shift.progress)
  case command command rest c p next hp hc =>
    have hn := unchanged (processCommand_enters (mem_taken_dequeued c command rest)) Enter.progress
    rw [perform_eq]
    exact .idle _ _ hn
  case abandon => exact idle_perform abandonCommands_progress _ _ _
  case keepAlive => exact idle_perform (unchanged maintainKeepAlive_begins Begin.progress) _ _ _
  case write ho =>
    rw [perform_eq]
    exact .write _ _ _ ho (writeFront_writes ..)
  case flush p result c next hp =>
    cases result
    case ok =>
      obtain ⟨c', hx, hs⟩ := flushAccepted_ok c
      rw [perform_ok hx]
      exact .flush _ _ hp hs
    case error e =>
      rw [perform_eq, (flushAccepted_error c e).left]
      exact .idle _ _ rfl
  case read result c _ _ _ =>
    rw [perform_eq]
    have hr := readNext_receives (c := c) result
    generalize (readNext result c).state = c' at hr ⊢
    cases hr
    case idle => exact .idle _ _ rfl
    case close ha => exact .idle _ _ ha.progress
    case receive => exact .idle _ _ rfl
  case decode c next =>
    rcases perform_decodeNext_cases c next with ⟨reader, p, _, hx⟩ | ⟨packet, reader, _, hx⟩ <;> rw [hx]
    case inl => exact .idle _ _ rfl
    case inr =>
      rw [perform_eq]
      rcases dispatchPacket_cases (c.arrived reader packet) packet with ⟨_, c', _, hx, he⟩ | hs
      case inl =>
        rw [hx]
        exact .ends _ _ he.progress
      case inr =>
        have hn := unchanged (dispatchPacket_arrives (c := c.arrived reader packet) hs) Arrive.progress
        exact .idle _ _ hn
  case finish c result =>
    obtain ⟨c', hf, he⟩ := finish_ends c result
    rw [perform_ok hf]
    exact .ends _ _ he.progress
  case outside ho => exact .idle _ _ ho.progress

-- Whoever has been told that a frame has been sent was told so in the order of the frames.
def InOrder (c : MqttConnection) : Prop :=
  ∃ flushed unflushed : List OutboundFrame, (flushed ++ unflushed).Sublist c.written ∧
    c.flushActions = unflushed.map (·.flush) ∧ c.completions = flushed.filterMap (·.action.reply?)

theorem Sends.inOrder (hs : Sends driver input driver') (h : InOrder driver.connection) :
    InOrder driver'.connection := by
  obtain ⟨flushed, unflushed, hw, hf, hc⟩ := h
  cases hs
  case idle hp =>
    simp only [progress, sending, Prod.mk.injEq] at hp
    obtain ⟨⟨hw', hc', -, -⟩, hf'⟩ := hp
    exact ⟨flushed, unflushed, hw' ▸ hw, hf'.trans hf, hc'.trans hc⟩
  case write hs =>
    rcases hs.written with ⟨hw', hf'⟩ | ⟨last, hw', hf'⟩
    case inl => exact ⟨flushed, unflushed, hw' ▸ hw, hf'.trans hf, hs.completions.trans hc⟩
    case inr =>
      refine ⟨flushed, unflushed ++ [last], ?_, ?_, hs.completions.trans hc⟩
      case refine_1 =>
        rw [hw', ← List.append_assoc]
        exact hw.append_right _
      case refine_2 => rw [hf', hf, List.map_append, List.map_singleton]
  case flush hp =>
    simp only [progress, sending, Prod.mk.injEq] at hp
    obtain ⟨⟨hw', hc', -, -⟩, hf'⟩ := hp
    refine ⟨flushed ++ unflushed, [], by rw [hw', List.append_nil]; exact hw, hf', ?_⟩
    rw [hc', hc, hf, List.filterMap_append, List.filterMap_map]
    rfl
  case ends hp =>
    simp only [progress, sending, Prod.mk.injEq] at hp
    obtain ⟨⟨hw', hc', -, -⟩, hf'⟩ := hp
    refine ⟨flushed, [], ?_, hf', hc'.trans hc⟩
    rw [hw', List.append_nil]
    exact (List.sublist_append_left _ _).trans hw

theorem inOrder_run {options : ConnectOptions} {clock : Clock}
    (h : (start options connack clock).run inputs = some driver) : InOrder driver.connection :=
  run_preserves (P := fun driver => InOrder driver.connection) (fun _ _ _ h hd => hd.sends.inOrder h)
    ⟨[], [], List.nil_sublist _, rfl, rfl⟩ h

-- Nobody is told so but by a flush, after the frame has been written.
theorem Sends.told (hs : Sends driver input driver') (h : InOrder driver.connection)
    (hn : answer ∉ driver.connection.completions) (hm : answer ∈ driver'.connection.completions) :
    driver.phase.running = true ∧ input = .flushed (.ok ()) ∧
      ∃ frame ∈ driver.connection.written, frame.action.reply? = some answer := by
  obtain ⟨flushed, unflushed, hw, hf, -⟩ := h
  cases hs
  case idle hp =>
    simp only [progress, sending, Prod.mk.injEq] at hp
    exact absurd (hp.left.right.left ▸ hm) hn
  case write hs => exact absurd (hs.completions ▸ hm) hn
  case ends hp =>
    simp only [progress, sending, Prod.mk.injEq] at hp
    exact absurd (hp.left.right.left ▸ hm) hn
  case flush hr hp =>
    simp only [progress, sending, Prod.mk.injEq] at hp
    rw [hp.left.right.left] at hm
    have hm := (List.mem_append.mp hm).resolve_left hn
    rw [hf, List.filterMap_map, List.mem_filterMap] at hm
    obtain ⟨frame, hu, ha⟩ := hm
    exact ⟨hr, rfl, frame, hw.subset (List.mem_append_right _ hu), ha⟩

theorem afterFlush_writes (pass : Pass) (c : MqttConnection) : (afterFlush pass c).writes = false := by
  rw [afterFlush.eq_def]
  split
  case isTrue => rfl
  case isFalse => cases pass <;> rfl

theorem perform_writes {x : DriverM α} {next : α → MqttConnection → Phase}
    (h : ∀ a c', (next a c').writes = false) : (perform x next c).phase.writes = false := by
  rw [perform]
  cases x c
  case ok a c' => exact h a c'
  case error => rfl

theorem takeCommand_writes {next idle : Phase} (hn : next.writes = false) (hi : idle.writes = false)
    (h : takeCommand c next idle = some driver) : driver.phase.writes = false := by
  rw [takeCommand] at h
  split at h
  case h_1 =>
    cases h
    exact perform_writes fun _ _ => hn
  case h_2 =>
    split at h <;> cases h
    exact perform_writes fun _ _ => hi

theorem proceed_writes (hn : c.needsFlush = true) (h : proceed ⟨c, p⟩ = some driver) :
    driver.phase.writes = false := by
  rw [proceed.eq_def] at h
  dsimp only at h
  split at h
  case h_1 => cases h; exact perform_writes fun _ _ => rfl
  case h_2 => cases h; rfl
  case h_3 left =>
    cases ht : takeCommand c (.drainCommands left) (.flushOutbound .first .before)
    all_goals
      rw [ht] at h
      cases h
    case none => rfl
    case some => exact takeCommand_writes rfl rfl ht
  case h_4 => simp [hn] at h
  case h_5 =>
    split at h <;> cases h
    rfl
  case h_6 => simp [hn] at h
  case h_7 => cases h; rfl
  case h_8 =>
    split at h <;> cases h
    rfl
  case h_9 => cases h; exact perform_writes fun again _ => by cases again <;> rfl
  case h_10 => cases h; exact perform_writes fun _ _ => rfl
  case h_11 => cases h; exact perform_writes fun _ _ => rfl
  case h_12 => cases h; exact perform_writes fun _ _ => rfl
  case h_13 => exact takeCommand_writes rfl rfl h
  case h_14 => cases h; exact perform_writes fun _ _ => rfl
  case h_15 => cases h

theorem flushed_writes (h : step ⟨c, p⟩ (.flushed (.error e)) = some driver) :
    driver.phase.writes = false := by
  rw [step, flushed] at h
  dsimp only at h
  split at h
  case isTrue => cases h
  case isFalse =>
    split at h <;> cases h
    case h_1 pass =>
      rw [perform]
      cases hx : flushAccepted (.error e) c
      case ok accepted c' =>
        rw [(flushAccepted_error c e).right accepted c' hx]
        exact afterFlush_writes pass c'
      case error => rfl
    case h_2 pass => exact perform_writes fun _ => afterFlush_writes pass

theorem writes_of_written (h : step ⟨c, p⟩ (.written result) = some driver) : p.writes = true := by
  rw [step, written] at h
  dsimp only at h
  split at h
  case h_1 => rfl
  case h_2 => cases h

theorem step_writes (hn : c.needsFlush = true) (hp : p.writes = false) (hi : input ≠ .flushed (.ok ()))
    (h : step ⟨c, p⟩ input = some driver) :
    driver.phase.writes = false ∧ ∀ result, input ≠ .written result := by
  cases input
  case proceed => exact ⟨proceed_writes hn h, by simp⟩
  case written => exact absurd (hp.symm.trans (writes_of_written h)) nofun
  case flushed result =>
    cases result
    case ok => exact absurd rfl hi
    case error => exact ⟨flushed_writes h, by simp⟩
  case read =>
    obtain ⟨left, rfl, rfl⟩ := step_read h
    exact ⟨perform_writes fun again _ => by cases again <;> rfl, by simp⟩
  case elapsed =>
    rw [step, elapsed] at h
    split at h <;> cases h
    exact ⟨rfl, by simp⟩
  case submit => cases submit_does h; exact ⟨hp, by simp⟩
  case dropReceiver =>
    rw [step] at h
    split at h <;> cases h
    exact ⟨hp, by simp⟩
  all_goals
    cases h
    exact ⟨hp, by simp⟩

-- The transport has not flushed what it has accepted, or the driver has stopped.
structure Stalled (driver : Driver) : Prop where
  unflushed : driver.phase.running = true → driver.connection.needsFlush = true
  idle : driver.phase.writes = false

theorem Stalled.step (h : Stalled driver) (hi : input ≠ .flushed (.ok ()))
    (hs : driver.step input = some driver') :
    Stalled driver' ∧ driver'.connection.wire = driver.connection.wire ∧
      ∀ result, input ≠ .written result := by
  obtain ⟨c, p⟩ := driver
  have hd := (step_does hs).sends
  cases hr : p.running
  case true =>
    have hn := h.unflushed hr
    obtain ⟨hp, hw⟩ := step_writes hn h.idle hi hs
    cases hd
    case idle hq =>
      simp only [progress, sending, Prod.mk.injEq] at hq
      obtain ⟨⟨_, _, hf, hb⟩, _⟩ := hq
      exact ⟨⟨fun _ => hf.trans hn, hp⟩, hb, hw⟩
    case write => exact absurd rfl (hw _)
    case flush => exact absurd rfl hi
    case ends hq =>
      simp only [progress, sending, Prod.mk.injEq] at hq
      obtain ⟨⟨_, _, hf, hb⟩, _⟩ := hq
      exact ⟨⟨fun _ => hf.trans hn, hp⟩, hb, hw⟩
  case false =>
    have hw : ∀ result, input ≠ .written result := by
      rintro result rfl
      exact absurd (h.idle.symm.trans (writes_of_written hs)) nofun
    rcases (step_does hs).of_not_running hr with ⟨result, _, hq, he⟩ | ⟨hq, ho⟩
    case inl => exact ⟨⟨fun hr' => by simp [hq, Phase.running] at hr', by rw [hq]; rfl⟩, he.wire, hw⟩
    case inr =>
      refine ⟨⟨fun hr' => ?_, hq ▸ h.idle⟩, ho.wire, hw⟩
      rw [hq, hr] at hr'
      cases hr'

theorem Stalled.run (h : Stalled driver) (hi : .flushed (.ok ()) ∉ inputs)
    (hr : driver.run inputs = some driver') :
    driver'.connection.wire = driver.connection.wire ∧ ∀ result, .written result ∉ inputs := by
  induction inputs generalizing driver
  case nil =>
    cases hr
    exact ⟨rfl, fun _ hm => by cases hm⟩
  case cons input inputs ih =>
    obtain ⟨next, hs, hr⟩ := Option.bind_eq_some_iff.mp hr
    obtain ⟨hn, hi⟩ := not_or.mp (mt List.mem_cons.mpr hi)
    obtain ⟨h', hw, hi'⟩ := h.step (Ne.symm hn) hs
    obtain ⟨hw', hm⟩ := ih h' hi hr
    refine ⟨hw'.trans hw, fun result hmem => ?_⟩
    cases List.mem_cons.mp hmem
    case inl he => exact hi' result he.symm
    case inr he => exact hm result he

end Driver
end MqttWasi
