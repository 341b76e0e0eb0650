import MqttWasi.Driver.Theorems.Completions
import MqttWasi.Driver.Theorems.Routing
import MqttWasi.Driver.Theorems.Transcript

-- What is reported as done has arrived at the server.

namespace MqttWasi

theorem exists_of_forall₂ {R : α → β → Prop} {as : List α} {bs : List β} (h : List.Forall₂ R as bs)
    (hb : b ∈ bs) : ∃ a ∈ as, R a b := by
  induction h
  case nil => cases hb
  case cons a b' as bs hr _ ih =>
    cases hb
    case head => exact ⟨a, List.mem_cons_self .., hr⟩
    case tail hb =>
      obtain ⟨a', ha, hr⟩ := ih hb
      exact ⟨a', List.mem_cons_of_mem _ ha, hr⟩

namespace MqttConnection

open Relation (ReflTransGen)

variable {c c' : MqttConnection}

-- Who is told that a frame has been sent is the one whose command it was queued for.
def Signed (c : MqttConnection) : Prop :=
  ∀ frame ∈ c.enqueued, ∀ result reply, frame.action.reply? = some (result, reply) →
    frame.origin = .command result

-- The frame of the command has been written.
def Wrote (c : MqttConnection) (result : Sender) : Prop :=
  ∃ frame ∈ c.written, frame.origin = .command result

theorem Wrote.mono (h : c.Wrote result) (hw : c.written ⊆ c'.written) : c'.Wrote result := by
  obtain ⟨frame, hm, ho⟩ := h
  exact ⟨frame, hw hm, ho⟩

theorem Signed.push (h : c.Signed) (frame)
    (hf : ∀ result reply, frame.action.reply? = some (result, reply) → frame.origin = .command result) :
    (c.push frame).Signed := by
  intro other hm
  rcases List.mem_append.mp hm with hm | hm
  case inl => exact h other hm
  case inr =>
    rw [List.mem_singleton.mp hm]
    exact hf

theorem Takes.signed (ht : Takes command c c') (h : c.Signed) : c'.Signed := by
  cases ht
  case refuse => exact h
  case await packetId entry bytes _ _ =>
    have hs : (c.await packetId entry).Signed := h
    exact hs.push _ fun _ _ hr => by cases hr
  case queue => exact h.push _ fun _ _ hr => by cases hr; rfl
  case disconnect =>
    have hs : ({ c with closing := true } : MqttConnection).Signed := h
    exact hs.push _ fun _ _ hr => by cases hr; rfl

theorem Deed.signed (hd : Deed c c') (h : c.Signed) : c'.Signed := by
  cases hd
  case outside ho => cases ho <;> exact h
  case take ha =>
    obtain ⟨c₁, hq, ht⟩ := ha
    refine ht.signed ?_
    cases hq
    exact h
  case push frame hn _ _ _ =>
    refine h.push _ fun _ _ hr => ?_
    rw [hn] at hr
    cases hr
  case write hw => cases hw <;> exact h
  case flush hf =>
    cases hf
    case accept => exact h
    case complete flush _ _ hp =>
      generalize flush.action = action at hp
      cases hp
      case disconnect ha => cases ha <;> exact h
      all_goals exact h
  all_goals exact h

theorem Receipt.signed (hr : Receipt packet k packetId c c') (h : c.Signed) : c'.Signed := by
  cases hr <;> exact h

theorem Ends.signed (he : Ends c c') (h : c.Signed) : c'.Signed := by
  cases he <;> exact h

end MqttConnection

namespace Driver

open MqttConnection

variable {driver driver' : Driver} {options : ConnectOptions} {connack : ConnAckPacket} {clock : Clock}

theorem Advances.signed (h : driver.Advances input driver') (hs : driver.connection.Signed) :
    driver'.connection.Signed :=
  h.preserves (P := Signed) (fun _ _ hd h => hd.signed h) (fun _ _ _ h => h)
    (fun _ _ _ _ _ _ hr h => hr.signed h) (fun _ _ he h => he.signed h) hs

theorem Sends.written (h : Sends driver input driver') :
    driver.connection.written ⊆ driver'.connection.written := by
  have hp {c c' : MqttConnection} {x y} (h : c'.progress = ((c.written, x), y)) :
      c.written ⊆ c'.written := by
    have hw : c'.written = c.written := congrArg (·.1.1) h
    exact hw ▸ fun _ => id
  cases h
  case write hw =>
    rcases hw.written with ⟨hw, _⟩ | ⟨last, hw, _⟩ <;> rw [hw]
    case inl => exact fun _ => id
    case inr => exact List.subset_append_left _ _
  case idle h => exact hp h
  case flush h => exact hp h
  case ends h => exact hp h

theorem Advances.taken_subset (h : driver.Advances input driver') :
    driver.connection.taken ⊆ driver'.connection.taken := by
  refine h.preserves (P := fun c => driver.connection.taken ⊆ c.taken)
    (fun _ _ hd h => List.Subset.trans h hd.taken_subset) (fun _ _ _ h => h) ?_ ?_ fun _ => id
  case refine_1 => exact fun _ _ _ _ _ _ hr h => by cases hr <;> exact h
  case refine_2 => exact fun _ _ he h => by cases he <;> exact h

-- An operation that is acknowledged is done once its frame has been written and acknowledged.
def Acted (driver : Driver) : Prop :=
  ∀ result done, (result, .ok done) ∈ driver.connection.replies →
    ∀ command ∈ driver.connection.taken, command.result = result → command.action? = none →
      driver.connection.Wrote result

theorem Confirms.wrote {reply : Reply} (h : driver.Confirms input result reply) : driver.connection.Wrote result := by
  obtain ⟨_, _, _, _, _, _, frame, hf, _, ho⟩ := h
  have hs := Answering.unanswered_sublist.subset hf
  obtain ⟨written, hm, hw⟩ := List.mem_map.mp (List.mem_filter.mp hs).left
  exact ⟨written, hm, by rw [← ho, ← hw]; rfl⟩

theorem Acted.step (ha : driver.Acted) (h : driver.Sound) (hi : input.plain = true)
    (hb : ∀ packet ∈ driver.dispatches input, driver.connection.Answers (fun _ => true) packet)
    (hs : driver.step input = some driver') : driver'.Acted := by
  obtain ⟨answers, hr, hc⟩ := (h.forwards hi hb hs).informs
  have hd := step_does hs
  intro result done hm command hk hres hn
  refine Wrote.mono ?_ hd.sends.written
  rw [hr] at hm
  rcases List.mem_append.mp hm with hm | hm
  case inl =>
    obtain ⟨command', hk', hres', _⟩ := h.owned.tells result done hm
    have hk'' := (hd.advances hi h.plain).taken_subset hk'
    rw [← (owned_step h.owned hd).unique hk hk'' (hres.trans hres'.symm)] at hk'
    exact ha result done hm command hk' hres hn
  case inr => exact (hc result (.ok done) hm nofun command hk hres hn).wrote

theorem acted_run (h : (start options connack clock).run inputs = some driver)
    (hn : ∀ input ∈ inputs, input.plain = true)
    (hb : (start options connack clock).AnswersFrames (fun _ => true) inputs) : driver.Acted := by
  have hc : (start options connack clock).Throughout inputs fun _ input => input.plain = true :=
    fun _ input _ hp _ => hn input (hp.subset (by simp))
  have hs : (start options connack clock).Acted := fun _ _ hm => by cases hm
  refine (run_preserves_if (P := fun driver => driver.Sound ∧ driver.Acted) (fun _ _ _ _ _ h hc hs => ?_)
    ⟨sound_start options connack clock, hs⟩ (hb.and hc) h).right
  exact ⟨h.left.step hc.right hc.left hs, h.right.step h.left hc.right hc.left hs⟩

theorem signed_run (h : (start options connack clock).run inputs = some driver)
    (hn : ∀ input ∈ inputs, input.plain = true) : driver.connection.Signed := by
  have hc : (start options connack clock).Throughout inputs fun _ input => input.plain = true :=
    fun _ input _ hp _ => hn input (hp.subset (by simp))
  have hs : (start options connack clock).connection.Signed := fun _ hm => by cases hm
  refine (run_preserves_if (P := fun driver => driver.connection.Plain ∧ driver.connection.Signed)
    (fun _ _ _ _ _ h hc hs => ?_) ⟨(sound_start options connack clock).plain, hs⟩ hc h).right
  have ha := (step_does hs).advances hc h.left
  exact ⟨ha.plain h.left, ha.signed h.right⟩

theorem wrote_run (h : (start options connack clock).run inputs = some driver)
    (hn : ∀ input ∈ inputs, input.plain = true)
    (hb : (start options connack clock).AnswersFrames (fun _ => true) inputs)
    (hm : command ∈ driver.connection.taken)
    (hr : (command.result, .ok done) ∈ driver.connection.replies) : driver.connection.Wrote command.result := by
  cases ha : command.action?
  case none => exact acted_run h hn hb _ done hr command hm rfl ha
  case some action =>
    obtain ⟨hd, hc⟩ := (owned_run h).mem_completions hm ha hr
    obtain ⟨flushed, unflushed, hw, _, he⟩ := inOrder_run h
    rw [he] at hc
    obtain ⟨frame, hf, hd'⟩ := List.mem_filterMap.mp hc
    have hf := hw.subset (List.mem_append_left _ hf)
    have hq := (transmits_run h).ordered.subset (List.mem_map_of_mem hf)
    exact ⟨frame, hf, signed_run h hn _ hq _ _ hd'⟩

theorem issued_of_plain (h : Input.plain (.submit command) = true) : command.Issued := by
  cases command
  case request => cases h
  all_goals trivial

-- With a broker that acknowledges only what it has received, and that only once, everything that is
-- reported as done has been read by it as the packet that the command asks for.
theorem done_arrived (options : ConnectOptions) (connack : ConnAckPacket) (clock : Clock)
    (inputs : List Input) (driver : Driver)
    (h : (start options connack clock).run inputs = some driver)
    (hn : ∀ input ∈ inputs, input.plain = true)
    (hb : (start options connack clock).AnswersFrames (fun _ => true) inputs) :
    ∀ command ∈ driver.connection.taken, ∀ done,
      (command.result, .ok done) ∈ driver.connection.replies →
        ∃ packet ∈ (serverFraming.parse driver.connection.wire).items, command.Asks packet := by
  intro command hm done hr
  obtain ⟨packets, _, _, hp, hf⟩ := read_run h fun command hc => issued_of_plain (hn _ hc)
  obtain ⟨frame, hw, ho⟩ := wrote_run h hn hb hm hr
  obtain ⟨packet, hx, _, hs⟩ := exists_of_forall₂ hf hw
  refine ⟨packet, by rwa [hp], ?_⟩
  rw [ho] at hs
  generalize hk : command.result = result at hs
  cases hs
  case command hc _ ha => exact (owned_run h).unique hm hc hk ▸ ha

-- A message is acknowledged while a subscription is waited for.
def messageAcknowledged : List Input :=
  messageAndSubscription ++ [.proceed]

theorem done_arrived_message : ∃ driver,
    (start plainOptions plainConnack stillClock).run messageAcknowledged = some driver ∧
      (0, .ok (.publish { packetId := some 1, reasonCode := some 0 })) ∈ driver.connection.replies ∧
      ∃ packet ∈ (serverFraming.parse driver.connection.wire).items,
        (Command.publish "a" [] { qos := .atLeastOnce } 0).Asks packet := by
  obtain ⟨driver, hr, hm, ha⟩ := exists_run (start plainOptions plainConnack stillClock)
    messageAcknowledged
    (fun driver => .publish "a" [] { qos := .atLeastOnce } 0 ∈ driver.connection.taken ∧
      (0, .ok (.publish { packetId := some 1, reasonCode := some 0 })) ∈ driver.connection.replies)
    (by decide +kernel)
  have hb : (start plainOptions plainConnack stillClock).AnswersFrames (fun _ => true)
      messageAcknowledged := by
    unfold AnswersFrames
    decide +kernel
  have hn : ∀ input ∈ messageAcknowledged, input.plain = true := by decide
  have hd := done_arrived plainOptions plainConnack stillClock messageAcknowledged driver hr hn hb
  exact ⟨driver, hr, ha, hd _ hm _ ha⟩

end Driver
end MqttWasi
