import MqttWasi.Client.Theorems.Reading
import MqttWasi.Driver.Handshake
import MqttWasi.Driver.Theorems.EndOfStream

-- Neither client gets stuck because its frame reader is full.

namespace MqttWasi

open Relation (ReflTransGen)
open FrameReader (Uses HasRoom)

namespace Handshake

open EStateM (Meets)

-- Nothing is said about what an action does.
theorem ends (x : HandshakeM α) : Meets (fun _ => True) x (fun _ _ => True) fun _ _ => True := by
  intro st _
  cases x st <;> trivial

theorem lift_ends (r : Except Error α) :
    Meets (fun _ => True) (lift r) (fun a _ => r = .ok a) fun _ _ => True := by
  cases r
  case ok a => exact .pure fun _ _ => rfl
  case error e => exact .throw fun _ _ => trivial

-- The limit that a CONNACK has passed.
theorem readPacketBlocking_ends (max : Nat) (deadline : Instant) :
    Meets (fun _ => True) (readPacketBlocking max deadline)
      (fun packet _ => ∀ ack, packet = .connAck ack → 5 ≤ max) fun _ _ => True := by
  refine (ends _).bind fun headerBytes => (lift_ends _).bind fun r => ?_
  obtain ⟨header, headerLen⟩ := r
  refine (Meets.assume (P := fun _ => True) fun hd => ?_).pre fun _ hd => ⟨hd, trivial⟩
  refine .ite (fun _ => .throw_bind fun _ _ => trivial) fun hm => (ends _).bind fun body => ?_
  refine (lift_ends _).imp (fun _ h => h) (fun packet _ hp ack ha => ?_) fun _ _ h => h
  have hb := (decodeFixedHeader_eq_ok.mp hd).connAck (ha ▸ hp)
  omega

theorem connectWith_ends (options : ConnectOptions) :
    Meets (fun _ => True) (connectWith options)
      (fun c _ => 5 ≤ options.maxPacketSize ∧ ∃ ack clock, c = MqttConnection.new options ack clock)
      fun _ _ => True := by
  refine .get fun st _ => Meets.pre ?_ fun _ _ => trivial
  refine (ends _).bind fun _ => (ends _).bind fun _ => (ends _).bind fun deadline => ?_
  refine (ends _).bind fun _ => (ends _).bind fun _ => (ends _).bind fun bytes => ?_
  refine (ends _).bind fun _ => (ends _).bind fun _ => (ends _).bind fun _ => ?_
  refine (ends _).bind fun result => ?_
  split
  case h_1 => exact .throw_bind fun _ _ => trivial
  case h_2 =>
    refine (ends _).bind fun _ => (readPacketBlocking_ends _ _).bind fun packet => ?_
    split
    case h_2 => exact .throw fun _ _ => trivial
    case h_1 ack =>
      refine (Meets.assume (P := fun _ => True) fun hm => ?_).pre fun _ hm => ⟨hm ack rfl, trivial⟩
      refine .ite (fun _ => .throw_bind fun _ _ => trivial) fun _ => ?_
      refine (ends _).bind fun _ => (ends _).bind fun _ => ?_
      refine (ends _).bind fun _ => (ends _).bind fun _ => (ends _).bind fun _ => ?_
      exact .get fun st _ => .pure fun _ _ => ⟨hm, ack, st.clock, rfl⟩

end Handshake

-- Whether everything that has been read has been decoded.
def Phase.drained : Phase → Bool
  | .decodeAndDispatch  => false
  | .readAvailable left => 64 ≤ left
  | _                   => true

namespace Driver

open MqttConnection

variable {c : MqttConnection} {driver driver' : Driver} {max : Nat}

theorem perform_running {x : DriverM α} {next : α → MqttConnection → Phase}
    (h : (perform x next c).phase.running = true) :
    ∃ a c', x c = .ok a c' ∧ perform x next c = ⟨c', next a c'⟩ := by
  cases hx : x c
  case ok a c' => exact ⟨a, c', rfl, perform_ok hx next⟩
  case error e c' =>
    rw [perform_error hx] at h
    cases h

-- Only reading and decoding change the frame reader.
theorem Does.frameReader (h : Does driver input driver') (hr : driver'.phase.running = true)
    (hd : driver.phase ≠ .decodeAndDispatch) (hi : ∀ result, input ≠ .read result) :
    driver'.connection.frameReader = driver.connection.frameReader := by
  have hs {c c' : MqttConnection} (h : c'.inbound = c.inbound) : c'.frameReader = c.frameReader :=
    congrArg (·.1) h
  cases h
  case pass => rfl
  case wake => rfl
  case shift hm => exact hs (inbound_of_aside (unchanged hm Shift.aside))
  case command command rest c p next hp _ =>
    rw [perform_connection]
    exact (hs (unchanged (processCommand_enters (mem_taken_dequeued ..)) fun he =>
      inbound_of_aside he.aside) :)
  case abandon =>
    rw [perform_connection]
    exact hs (inbound_of_aside abandonCommands_aside)
  case keepAlive =>
    rw [perform_connection]
    exact hs (unchanged maintainKeepAlive_begins fun hb => inbound_of_aside hb.aside)
  case write =>
    rw [perform_connection]
    exact hs (inbound_of_aside (writeFront_writes ..).aside)
  case flush =>
    rw [perform_connection]
    exact hs (unchanged flushAccepted_flushes Flush.inbound)
  case read => exact absurd rfl (hi _)
  case decode => exact absurd rfl hd
  case finish c result =>
    obtain ⟨c', hf, _⟩ := finish_ends c result
    rw [perform_ok hf] at hr
    cases hr
  case outside ho => exact hs (inbound_of_aside ho.aside)

-- How a step of the driver changes the phase: the loop in `read_available` has 64 rounds, and a phase
-- in which everything has been decoded follows a phase of this kind, or the end of decoding.
structure Turns (p : Phase) (input : Input) (p' : Phase) : Prop where
  rounds : (∀ left, p = .readAvailable left → left ≤ 64) → ∀ left, p' = .readAvailable left → left ≤ 64
  drains : (∀ left, p = .readAvailable left → left ≤ 64) → p'.running = true → p'.drained = true →
    p = .decodeAndDispatch ∧ input = .proceed ∧ p' = .expireOperations ∨
      p.drained = true ∧ p ≠ .decodeAndDispatch ∧ ∀ result, input ≠ .read result

theorem Turns.refl (p : Phase) (hi : ∀ result, input ≠ .read result) : Turns p input p where
  rounds h := h
  drains _ _ hd := .inr ⟨hd, fun he => (by simp [he, Phase.drained] at hd), hi⟩

-- From a phase that neither reads nor decodes
theorem Turns.of_drained (hd : p.drained = true) (hp : p ≠ .decodeAndDispatch)
    (hi : ∀ result, input ≠ .read result) (hl : ∀ left, p' = .readAvailable left → left ≤ 64) :
    Turns p input p' where
  rounds _ := hl
  drains _ _ _ := .inr ⟨hd, hp, hi⟩

-- To a phase with undecoded bytes
theorem Turns.to_undrained (hd : p'.running = true → p'.drained = false)
    (hl : (∀ left, p = .readAvailable left → left ≤ 64) → ∀ left, p' = .readAvailable left → left ≤ 64) :
    Turns p input p' where
  rounds := hl
  drains _ hr hd' := by simp [hd hr] at hd'

theorem afterFlush_rounds (pass : Pass) (c : MqttConnection) (left : Nat)
    (h : afterFlush pass c = .readAvailable left) : left ≤ 64 := by
  rw [afterFlush.eq_def] at h
  split at h
  case isTrue => cases h
  case isFalse =>
    cases pass <;> cases h
    rfl

theorem perform_rounds {x : DriverM α} {next : α → MqttConnection → Phase}
    (h : ∀ a c' left, next a c' = .readAvailable left → left ≤ 64) (left : Nat)
    (hp : (perform x next c).phase = .readAvailable left) : left ≤ 64 := by
  rw [perform] at hp
  cases hx : x c
  case ok a c' =>
    rw [hx] at hp
    exact h a c' left hp
  case error =>
    rw [hx] at hp
    cases hp

theorem takeCommand_rounds {next idle : Phase} (hn : ∀ left, next = .readAvailable left → left ≤ 64)
    (hi : ∀ left, idle = .readAvailable left → left ≤ 64)
    (h : takeCommand c next idle = some driver) (left : Nat)
    (hp : driver.phase = .readAvailable left) : left ≤ 64 := by
  rw [takeCommand] at h
  split at h
  case h_1 =>
    cases h
    exact perform_rounds (fun _ _ => hn) left hp
  case h_2 =>
    split at h <;> cases h
    exact perform_rounds (fun _ _ => hi) left hp

theorem proceed_turns (h : proceed ⟨c, p⟩ = some driver) : Turns p .proceed driver.phase := by
  rw [proceed.eq_def] at h
  dsimp only at h
  split at h
  case h_7 =>
    cases h
    exact .to_undrained (fun _ => rfl) fun _ _ hl => by cases hl
  case h_8 =>
    split at h <;> cases h
    exact .to_undrained (fun _ => rfl) fun _ _ hl => by cases hl
  case h_9 =>
    cases h
    refine ⟨fun _ => perform_rounds fun again _ left hl => ?_, fun _ hr hd => ?_⟩
    case refine_1 => cases again <;> cases hl
    case refine_2 =>
      obtain ⟨again, c', _, hp⟩ := perform_running hr
      rw [hp] at hd ⊢
      cases again
      case false => exact .inl ⟨rfl, rfl, rfl⟩
      case true => cases hd
  case h_1 =>
    cases h
    exact .of_drained rfl (by simp) (by simp) (perform_rounds (by simp))
  case h_2 =>
    cases h
    exact .of_drained rfl (by simp) (by simp) (by simp)
  case h_3 left =>
    cases ht : takeCommand c (.drainCommands left) (.flushOutbound .first .before)
    all_goals
      rw [ht] at h
      cases h
    case none => exact .of_drained rfl (by simp) (by simp) (by simp)
    case some => exact .of_drained rfl (by simp) (by simp) (takeCommand_rounds (by simp) (by simp) ht)
  case h_4 =>
    split at h <;> cases h
    exact .of_drained rfl (by simp) (by simp) (by simp)
  case h_5 =>
    split at h <;> cases h
    exact .of_drained rfl (by simp) (by simp) (by simp)
  case h_6 pass =>
    split at h <;> cases h
    exact .of_drained rfl (by simp) (by simp) (afterFlush_rounds pass c)
  case h_10 =>
    cases h
    exact .of_drained rfl (by simp) (by simp) (perform_rounds (by simp))
  case h_11 =>
    cases h
    exact .of_drained rfl (by simp) (by simp) (perform_rounds (by simp))
  case h_12 =>
    cases h
    exact .of_drained rfl (by simp) (by simp) (perform_rounds (by simp))
  case h_13 => exact .of_drained rfl (by simp) (by simp) (takeCommand_rounds (by simp) (by simp) h)
  case h_14 =>
    cases h
    exact .of_drained rfl (by simp) (by simp) (perform_rounds (by simp))
  case h_15 => cases h

theorem step_turns (h : step ⟨c, p⟩ input = some driver) : Turns p input driver.phase := by
  cases input
  case proceed => exact proceed_turns h
  case written result =>
    rw [step, written] at h
    dsimp only at h
    split at h
    case h_1 =>
      cases h
      refine .of_drained rfl (by simp) (by simp) (perform_rounds fun again _ left hl => ?_)
      cases again <;> cases hl
    case h_2 => cases h
  case flushed result =>
    rw [step, flushed] at h
    dsimp only at h
    split at h
    case isTrue => cases h
    case isFalse =>
      split at h <;> cases h
      case h_1 pass =>
        refine .of_drained rfl (by simp) (by simp) (perform_rounds fun accepted c' left hl => ?_)
        cases accepted
        case false => exact afterFlush_rounds pass c' left hl
        case true => cases hl
      case h_2 pass =>
        exact .of_drained rfl (by simp) (by simp) (perform_rounds fun _ => afterFlush_rounds pass)
  case read result =>
    obtain ⟨left, rfl, rfl⟩ := step_read h
    refine ⟨fun hw => perform_rounds fun again c' left' hl => ?_, fun hw hr hd => ?_⟩
    case refine_1 =>
      have := hw _ rfl
      cases again <;> cases hl
      omega
    case refine_2 =>
      obtain ⟨again, c', _, hp⟩ := perform_running hr
      have := hw _ rfl
      rw [hp] at hd
      cases again
      case false => cases hd
      case true =>
        simp [Phase.drained] at hd
        omega
  case elapsed =>
    rw [step, elapsed] at h
    split at h
    case h_1 hp =>
      cases h
      cases hp
      exact .of_drained rfl (by simp) (by simp) (by simp)
    case h_2 => cases h
  case submit command =>
    cases submit_does h
    case outside => exact .refl _ (by simp)
  case dropReceiver result =>
    rw [step] at h
    split at h <;> cases h
    exact .refl _ (by simp)
  all_goals
    cases h
    exact .refl _ (by simp)

-- Between the loops that read and decode, the frame reader has room for more.
structure Roomy (driver : Driver) : Prop where
  rounds : ∀ left, driver.phase = .readAvailable left → left ≤ 64
  room : driver.phase.running = true → driver.phase.drained = true →
    0 < driver.connection.frameReader.remainingCapacity

theorem decodes (h : step ⟨c, .decodeAndDispatch⟩ .proceed = some driver)
    (hp : driver.phase = .expireOperations) :
    FrameReader.tryDecode c.frameReader = .ok none driver.connection.frameReader := by
  cases h
  cases hd : FrameReader.tryDecode c.frameReader
  case error =>
    rw [perform_error (decodeNext_of_error hd)] at hp
    cases hp
  case ok packet reader =>
    cases packet
    case none => rw [perform_ok (decodeNext_of_none hd)]
    case some packet =>
      rw [perform_decodeNext hd] at hp
      cases hx : dispatchPacket packet (c.arrived reader packet)
      case ok =>
        rw [perform_ok hx] at hp
        cases hp
      case error =>
        rw [perform_error hx] at hp
        cases hp

theorem running_of_step (hs : driver.step input = some driver') (hr : driver'.phase.running = true) :
    driver.phase.running = true := by
  cases hp : driver.phase.running
  case true => rfl
  case false =>
    cases (step_does hs).of_not_running hp
    case inl he =>
      obtain ⟨_, _, he, _⟩ := he
      rw [he] at hr
      cases hr
    case inr he =>
      rw [he.left] at hr
      exact hp.symm.trans hr

theorem Roomy.step (h : Roomy driver) (hm : 5 ≤ max)
    (hr : driver.phase.running = true → Reads max driver.connection)
    (hs : driver.step input = some driver') : Roomy driver' := by
  obtain ⟨c, p⟩ := driver
  have ht := step_turns hs
  refine ⟨ht.rounds h.rounds, fun hp hd => ?_⟩
  cases ht.drains h.rounds hp hd
  case inl hp =>
    obtain ⟨rfl, rfl, hp⟩ := hp
    have ha := FrameReader.tryDecode_answers (hr rfl).valid
    rw [decodes hs hp, (hr rfl).max_eq] at ha
    cases ha
    case more hw _ => exact hw.room hm
  case inr hq =>
    obtain ⟨hd, hp', hi⟩ := hq
    rw [(step_does hs).frameReader hp hp' hi]
    exact h.room (running_of_step hs hp) hd

theorem roomy_run {options : ConnectOptions} {clock : Clock} (hm : 5 ≤ options.maxPacketSize)
    (h : (start options connack clock).run inputs = some driver) : Roomy driver := by
  refine run_induction (P := fun _ driver => Roomy driver) ?_ ?_ h
  case refine_1 => exact ⟨by simp [start], fun _ _ => Nat.lt_of_lt_of_le (by decide) hm⟩
  case refine_2 => exact fun _ _ _ _ hr hp hs => hp.step hm (reads_run hr) hs

theorem hasRoom_run {options : ConnectOptions} {clock : Clock} (hm : 5 ≤ options.maxPacketSize)
    (h : (start options connack clock).run inputs = some driver)
    (hr : driver.phase.running = true) : driver.connection.frameReader.HasRoom := by
  intro reader hd
  have ha := FrameReader.tryDecode_answers (reads_run h hr).valid
  rw [hd, (reads_run h hr).max_eq] at ha
  cases ha
  case more hw _ => exact hw.room hm

end Driver

-- Whatever the broker sends and however it arrives, a client that has got its CONNACK can always take
-- the next byte when there is no packet to decode.
theorem reading_never_wedges (options : ConnectOptions) :
    (∀ stream clock client, MqttClient.connectWith stream clock options = .ok client →
      ∀ c, ReflTransGen Uses client.frameReader c.frameReader →
        c.frameReader.HasRoom ∧
        (∀ full deadline, MqttClient.readPacketRoundOr full deadline c =
          MqttClient.readPacketRound deadline c) ∧
        (∀ op, ReflTransGen Uses client.frameReader (Operation.call op c).state.frameReader) ∧
        ReflTransGen Uses client.frameReader (MqttClient.recv c).state.frameReader ∧
        ReflTransGen Uses client.frameReader (MqttClient.disconnect c).state.frameReader) ∧
    ∀ handshake handshake' connection,
      Handshake.connectWith options handshake = .ok connection handshake' →
      ∀ inputs driver, Driver.run { connection } inputs = some driver → driver.phase.running = true →
        driver.connection.frameReader.HasRoom ∧
        (driver.phase = .readAvailable 64 → 0 < driver.connection.readCapacity) := by
  constructor
  case left =>
    intro stream clock client h c hu
    obtain ⟨hm, hc⟩ := MqttClient.connectWith_clean h
    have hr : c.frameReader.HasRoom := (hc.uses hu).hasRoom hm
    have hx {α} {x : ClientM α} (hx : MqttClient.Moves x) :
        ReflTransGen Uses client.frameReader (x c).state.frameReader :=
      hu.trans (MqttClient.uses_of_moves (hx c))
    refine ⟨hr, fun full deadline => ?_, fun op => hx (.call op), hx .recv,
      hx MqttClient.Rests.disconnect.moves⟩
    rw [MqttClient.readPacketRound_eq]
    exact MqttClient.readPacketRoundOr_eq hr full _ deadline
  case right =>
    intro handshake handshake' connection h inputs driver hrun hr
    obtain ⟨hm, ack, clock, rfl⟩ := (Handshake.connectWith_ends options).of_ok trivial h
    refine ⟨Driver.hasRoom_run hm hrun hr, fun hp => ?_⟩
    have hc := (Driver.roomy_run hm hrun).room hr (by rw [hp]; rfl)
    exact Nat.lt_min.mpr ⟨hc, by decide⟩

-- A CONNACK that just fits
def tightOptions : ConnectOptions where
  clientId := "x"
  maxPacketSize := 5

def greeting : Transport where
  reads := [.ok [0x20, 0x03, 0x00, 0x00, 0x00]]
  writes := [.ok 64]
  flushes := [.ok ()]
  settings := List.replicate 32 (.ok ())

theorem reading_never_wedges_tight :
    ∃ client connection handshake,
      MqttClient.connectWith greeting MqttClient.steadyClock tightOptions = .ok client ∧
      Handshake.connectWith tightOptions ⟨greeting, MqttClient.steadyClock⟩ = .ok connection handshake ∧
      client.frameReader.HasRoom ∧ connection.frameReader.HasRoom := by
  have hc : (MqttClient.connectWith greeting MqttClient.steadyClock tightOptions).isOk = true := by
    decide +kernel
  have hd : (Handshake.connectWith tightOptions ⟨greeting, MqttClient.steadyClock⟩).value.isOk = true := by
    decide +kernel
  cases h : MqttClient.connectWith greeting MqttClient.steadyClock tightOptions
  case error =>
    rw [h] at hc
    cases hc
  case ok client =>
    cases h' : Handshake.connectWith tightOptions ⟨greeting, MqttClient.steadyClock⟩
    case error =>
      rw [h'] at hd
      cases hd
    case ok connection handshake =>
      have hw := reading_never_wedges tightOptions
      refine ⟨client, connection, handshake, rfl, rfl, (hw.left _ _ client h client .refl).left, ?_⟩
      exact (hw.right _ handshake connection h' [] _ rfl rfl).left

end MqttWasi
