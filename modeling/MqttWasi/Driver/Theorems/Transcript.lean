import MqttWasi.Driver.Theorems.Utterances

-- The bytes that the transport has accepted, as a server reads them.

namespace MqttWasi

def Origin.command? : Origin → Option Sender
  | command result => some result
  | _              => none

def Origin.request? : Origin → Option Sender
  | request result => some result
  | _              => none

namespace MqttConnection

open Relation (ReflTransGen)

variable {P : OutboundFrame → Prop} {c c' : MqttConnection}

-- The commands that frames have been queued for, other than requests
def spoken (c : MqttConnection) : List Sender :=
  c.enqueued.filterMap (·.origin.command?)

-- The requests that frames have been queued for
def asked (c : MqttConnection) : List Sender :=
  c.enqueued.filterMap (·.origin.request?)

-- Commands are not overtaken by each other.
def InTurn (c : MqttConnection) : Prop :=
  c.spoken.Sublist (c.taken.map (·.result))

namespace InTurn

theorem same (h : c.InTurn) (ht : c.taken <+: c'.taken) (he : c'.spoken = c.spoken) : c'.InTurn := by
  obtain ⟨commands, ht⟩ := ht
  rw [InTurn, he, ← ht, List.map_append]
  exact h.trans (List.sublist_append_left _ _)

theorem utters (h : c.InTurn) (hu : Utters P c c')
    (hp : ∀ frame, P frame → frame.origin.command? = none) : c'.InTurn := by
  obtain ⟨frames, hr, hf⟩ := hu
  simp only [record, Prod.mk.injEq] at hr
  obtain ⟨ht, _, he⟩ := hr
  have hn : frames.filterMap (·.origin.command?) = [] :=
    List.filterMap_eq_nil_iff.mpr fun frame hm => hp frame (hf frame hm)
  exact h.same (by rw [ht]) (by rw [spoken, he, List.filterMap_append, hn, List.append_nil]; rfl)

theorem silent (h : c.InTurn) (hr : c'.record = c.record) : c'.InTurn :=
  h.utters (P := fun _ => False) (.silent hr) nofun

-- What is queued for a command comes after what was queued for the commands before it.
theorem takes (h : c.spoken.Sublist (earlier.map (·.result))) (hc : c.taken = earlier ++ [command])
    (ht : Takes command c c') : c'.InTurn := by
  have hp (frame : OutboundFrame) (hf : frame.origin = .command command.result)
      (he : c'.enqueued = c.enqueued ++ [frame]) (hs : c'.taken = c.taken) : c'.InTurn := by
    have hf : [frame].filterMap (·.origin.command?) = [command.result] := by
      simp [hf, Origin.command?]
    rw [InTurn, spoken, he, hs, hc, List.filterMap_append, List.map_append, hf]
    exact h.append_right _
  cases ht
  case refuse =>
    have ho : c.InTurn := by
      rw [InTurn, hc, List.map_append]
      exact h.trans (List.sublist_append_left _ _)
    exact ho.silent rfl
  case await ha => exact hp _ rfl rfl rfl
  case queue hq => exact hp _ rfl rfl rfl
  case disconnect => exact hp _ rfl rfl rfl

end InTurn

-- Requests are published once.
structure Single (c : MqttConnection) : Prop where
  contents : c.Contents
  numbered : ((c.taken ++ c.commands).map (·.result)).Nodup
  once : c.asked.Nodup
  published : ∀ result ∈ c.asked, ∀ correlationData pending,
    c.pendingRequests.lookup correlationData = some pending → pending.result = result →
      pending.published = true

namespace Single

theorem unique (h : c.Single) (hm : command ∈ c.taken) (hm' : command' ∈ c.taken)
    (he : command.result = command'.result) : command = command' := by
  have hn := h.numbered
  rw [List.map_append] at hn
  exact List.inj_on_of_nodup_map hn.of_append_left hm hm' he

-- What a request was published for is known to have been taken up.
theorem asked_taken (h : c.Single) (hm : result ∈ c.asked) : ∃ request, .request request result ∈ c.taken := by
  obtain ⟨frame, hf, ho⟩ := List.mem_filterMap.mp hm
  have hr : frame.origin = .request result := by
    cases hc : frame.origin <;> rw [hc] at ho <;> cases ho
    rfl
  obtain ⟨request, _, ht, _⟩ := h.contents.enqueued frame hf result hr
  exact ⟨request, ht⟩

theorem same (h : c.Single) (hc : c'.Contents) (ht : c'.taken ++ c'.commands = c.taken ++ c.commands)
    (he : c'.asked = c.asked)
    (hp : ∀ result ∈ c.asked, ∀ correlationData pending,
      c'.pendingRequests.lookup correlationData = some pending → pending.result = result →
        pending.published = true) : c'.Single where
  contents := hc
  numbered := ht ▸ h.numbered
  once := he ▸ h.once
  published result hm := hp result (he ▸ hm)

-- A request that waits is published.
theorem publish (h : c.Single) (hl : c.pendingRequests.lookup correlationData = some pending)
    (hn : pending.published = false) (ho : frame.origin = .request pending.result)
    (ht : c'.taken = c.taken) (hs : c'.commands = c.commands) (he : c'.enqueued = c.enqueued ++ [frame])
    (hp : c'.pendingRequests = c.pendingRequests.adjust correlationData
      ({ · with published := true, publishPacketId := packetId })) (hc : c'.Contents) : c'.Single := by
  have ha : c'.asked = c.asked ++ [pending.result] := by
    simp [asked, he, ho, Origin.request?]
  refine ⟨hc, by rw [ht, hs]; exact h.numbered, ?_, fun result hm correlationData' pending' hl' hr => ?_⟩
  case refine_1 =>
    rw [ha]
    refine List.nodup_append.mpr ⟨h.once, List.nodup_singleton _, fun result hm _ hm' => ?_⟩
    rw [List.mem_singleton.mp hm']
    rintro rfl
    cases hn.symm.trans (h.published _ hm _ _ hl rfl)
  case refine_2 =>
    rw [hp] at hl'
    by_cases hk : correlationData' = correlationData
    case pos =>
      rw [hk, AList.lookup_adjust, hl] at hl'
      cases hl'
      rfl
    case neg =>
      rw [AList.lookup_adjust_ne hk] at hl'
      rw [ha] at hm
      rcases List.mem_append.mp hm with hm | hm
      case inl => exact h.published _ hm _ _ hl' hr
      case inr =>
        -- Two requests with the same result channel are one, and have the same correlation data.
        obtain ⟨request, hm₁, hk₁⟩ := h.contents.waiting _ _ hl
        obtain ⟨request', hm₂, hk₂⟩ := h.contents.waiting _ _ hl'
        have hu := h.unique hm₂ hm₁ (hr.trans (List.mem_singleton.mp hm))
        rw [Command.request.injEq] at hu
        exact absurd (hk₂.key.trans (hu.left ▸ hk₁.key.symm)) hk

theorem kept (h : c.Single) (hc : c'.Contents) (ht : c'.taken ++ c'.commands = c.taken ++ c.commands)
    (he : c'.asked = c.asked) (hp : c'.pendingRequests = c.pendingRequests) : c'.Single :=
  h.same hc ht he (by rw [hp]; exact h.published)

theorem withoutRequest (h : c.Single) (correlationData pending) :
    (c.withoutRequest correlationData pending).Single := by
  have hc := h.contents.withoutRequest correlationData pending
  obtain ⟨_, _, _, he⟩ := withoutRequest_eq c correlationData pending
  rw [he] at hc ⊢
  exact h.same hc rfl rfl fun result hm _ _ hl =>
    h.published result hm _ _ (AList.lookup_of_lookup_erase hl)

theorem push (h : c.Single) (hf : frame.origin.request? = none) : (c.push frame).Single := by
  have hc : (c.push frame).Contents := h.contents.push frame fun result hr => by
    rw [hr] at hf
    cases hf
  have ha : (c.push frame).asked = c.asked := by
    simp [asked, MqttConnection.push, hf]
  exact h.kept hc rfl ha rfl

theorem course (h : c.Single) (hc : Course c c') : c'.Single := by
  have hc' := h.contents.course hc
  cases hc
  case other => exact h.kept hc' rfl rfl rfl
  case dequeue command rest _ hq =>
    refine h.kept hc' ?_ rfl rfl
    rw [hq]
    exact List.append_assoc ..
  case remove => exact h.withoutRequest _ _
  case publish hp => exact h.publish hp.lookup hp.unpublished rfl rfl rfl rfl rfl hc'
  case publishQos0 hp => exact h.publish hp.lookup hp.unpublished rfl rfl rfl rfl rfl hc'
  case push frame hn _ _ =>
    refine h.push ?_
    cases hf : frame.origin <;> first | rfl | exact absurd hf (hn _)
  case write hw => cases hw <;> exact h.kept hc' rfl rfl rfl

theorem quiet (h : c.Single) (hq : Quiet c c') : c'.Single :=
  (Shift.quiet hq).course.preserves (fun _ _ hc h => h.course hc) h

theorem launch (h : c.Single) (hl : Launch responseTopic c c') : c'.Single := by
  cases hl
  case publish hp => exact hp.course.preserves (fun _ _ hc h => h.course hc) h
  case subscribe packetId entry bytes _ =>
    have hc : ((c.await packetId entry).subscribing responseTopic).Contents :=
      h.contents.same (fun _ => id) rfl rfl h.contents.waiting
    have hs : ((c.await packetId entry).subscribing responseTopic).Single := h.kept hc rfl rfl rfl
    exact hs.push rfl

-- A request is admitted before anything is queued for it.
theorem admitted {request : RequestCommand} (h : c.Single)
    (hm : Command.request request result ∈ c.taken) (hn : result ∉ c.asked) (deadline) :
    (c.admitted request.correlationData (request.pending result deadline)).Single := by
  refine h.same (h.contents.admitted hm deadline) rfl rfl fun result' hr correlationData pending hl he => ?_
  by_cases hk : correlationData = request.correlationData
  case pos =>
    rw [hk, MqttConnection.admitted, AList.lookup_insert, Option.some.injEq] at hl
    cases hl
    subst he
    exact absurd hr hn
  case neg =>
    rw [MqttConnection.admitted, AList.lookup_insert_ne hk] at hl
    exact h.published _ hr _ _ hl he

theorem takesUp {request : RequestCommand} (h : c.Single)
    (hm : Command.request request result ∈ c.taken) (hn : result ∉ c.asked)
    (ht : TakesUp request result c c') : c'.Single := by
  have hc' := h.contents.takesUp hm ht
  have hq {c₁ : MqttConnection} (deadline) (hq : Quiet c c₁) :
      (c₁.admitted request.correlationData (request.pending result deadline)).Single := by
    refine (h.quiet hq).admitted ?_ ?_ deadline <;> cases hq
    case refine_1 => exact hm
    case refine_2 => exact hn
  cases ht
  case closing => exact h.kept hc' rfl rfl rfl
  case cancelled => exact h.kept hc' rfl rfl rfl
  case refused hq => exact (h.quiet hq).kept hc' rfl rfl rfl
  case started deadline hc hl =>
    exact hl.preserves (fun _ _ hl h => h.launch hl) (hq deadline hc.quiet)
  case withdrawn deadline hc hs =>
    have h' := ((hq deadline hc.quiet).quiet hs).withoutRequest request.correlationData
      (request.pending result deadline)
    exact h'.kept hc' rfl rfl rfl

theorem ends (h : c.Single) (he : Ends c c') : c'.Single := by
  have hc' := h.contents.ends he
  cases he <;> exact h.same hc' rfl rfl nofun

theorem dequeued {request : RequestCommand} (h : c.Single)
    (hq : c.commands = .request request result :: rest) :
    (c.dequeued (.request request result) rest).Single ∧ result ∉ c.asked := by
  refine ⟨h.kept (h.contents.dequeued hq) ?_ rfl rfl, fun hm => ?_⟩
  case refine_1 =>
    rw [hq]
    exact List.append_assoc ..
  case refine_2 =>
    obtain ⟨_, ht⟩ := h.asked_taken hm
    have hn := h.numbered
    rw [hq, List.map_append, List.nodup_append] at hn
    exact hn.right.right _ (List.mem_map_of_mem ht) _ (List.mem_cons_self ..) rfl

theorem outside (h : c.Single) (ho : Outside c input c') (hc' : c'.Contents) (hn : c'.Owned) :
    c'.Single := by
  have ha : c'.asked = c.asked := by cases ho <;> rfl
  refine ⟨hc', hn.numbered ▸ List.nodup_range, ha ▸ h.once, fun result hm correlationData pending hl => ?_⟩
  refine h.published result (ha ▸ hm) correlationData pending ?_
  cases ho
  case reorder => rwa [AList.lookup_adjust_id] at hl
  all_goals exact hl

end Single
-- The frames that were written have been sent, and a part of another one.
structure Transmits (c : MqttConnection) : Prop where
  ordered : (c.written.map (·.unstarted)).Sublist c.enqueued
  wire : ∃ part, c.wire = c.written.flatMap (·.bytes) ++ part ∧
    (part = [] ∨ ∃ frame ∈ c.enqueued, ∃ rest, rest ≠ [] ∧ frame.bytes = part ++ rest)

theorem Framed.transmits (h : c.Framed) : c.Transmits where
  ordered := ((List.sublist_append_left _ _).map _).trans h.ordered
  wire := by
    refine ⟨_, h.wire.wire_eq, ?_⟩
    cases ho : c.outbound
    case nil => exact .inl rfl
    case cons frame rest =>
      have hm : frame ∈ c.outbound := by rw [ho]; exact List.mem_cons_self ..
      have hf : frame.unstarted ∈ c.frames :=
        List.mem_map_of_mem (List.mem_append_right _ hm)
      have hl : frame.offset < frame.bytes.length := h.wire.unfinished frame hm
      refine .inr ⟨_, h.ordered.subset hf, frame.bytes.drop frame.offset, ?_, ?_⟩
      case refine_1 => simpa using hl
      case refine_2 => exact (List.take_append_drop _ _).symm

theorem Transmits.same (h : c.Transmits) (hw : c'.written = c.written) (he : c'.enqueued = c.enqueued)
    (hb : c'.wire = c.wire) : c'.Transmits where
  ordered := by rw [hw, he]; exact h.ordered
  wire := by rw [hw, he, hb]; exact h.wire

end MqttConnection

namespace Driver

open MqttConnection

variable {driver driver' : Driver} {options : ConnectOptions} {connack : ConnAckPacket} {clock : Clock}

theorem inTurn_step (h : driver.connection.InTurn) (hd : Does driver input driver') :
    driver'.connection.InTurn := by
  replace hd := hd.expresses
  cases hd
  case silent hr => exact h.silent hr
  case command command rest _ _ ha _ =>
    obtain ⟨c₁, hq, ht⟩ := ha
    have hs : c₁.spoken.Sublist (driver.connection.taken.map (·.result)) := by
      cases hq
      exact h
    refine InTurn.takes hs ?_ ht
    cases hq
    rfl
  case request request result rest _ ht =>
    have hs : (driver.connection.dequeued (.request request result) rest).InTurn :=
      h.same (List.prefix_append _ _) rfl
    refine hs.utters ht.utters ?_
    rintro frame (⟨result, ho⟩ | ⟨ho, _⟩) <;> rw [ho] <;> rfl
  case own hu => exact h.utters hu fun frame hf => by rw [hf.left]; rfl
  case packet packet reader hu =>
    have hs : (driver.connection.arrived reader packet).InTurn := h.same List.prefix_rfl rfl
    refine hs.utters hu ?_
    rintro frame (⟨result, ho⟩ | ⟨_, _, ho, _⟩) <;> rw [ho] <;> rfl

theorem inTurn_run (h : (start options connack clock).run inputs = some driver) :
    driver.connection.InTurn := by
  have hs : (start options connack clock).connection.InTurn := .slnil
  exact run_preserves (P := fun driver => driver.connection.InTurn)
    (fun _ _ _ h hd => inTurn_step h hd) hs h

theorem single_step (h : driver.connection.Single) (hc' : driver'.connection.Contents)
    (hn : driver'.connection.Owned) (hp : Proceeds driver input driver') :
    driver'.connection.Single := by
  cases hp
  case course hc => exact hc.preserves (fun _ _ hc h => h.course hc) h
  case request hq ht =>
    obtain ⟨hs, ha⟩ := h.dequeued hq
    exact hs.takesUp (mem_taken_dequeued ..) ha ht
  case arrives packet reader c next _ =>
    have ha : (c.arrived reader packet).Contents :=
      h.contents.same (fun _ => id) rfl rfl h.contents.waiting
    have hs : (c.arrived reader packet).Single := h.kept ha rfl rfl rfl
    rw [perform_connection]
    rcases dispatchPacket_cases (c.arrived reader packet) packet with ⟨_, c', _, hx, he⟩ | hd
    case inl =>
      rw [hx]
      exact hs.ends he
    case inr =>
      have hc := dispatchPacket_course (c := c.arrived reader packet) hd
      exact hc.preserves (fun _ _ hc h => h.course hc) hs
  case ends he => exact h.ends he
  case outside ho => exact h.outside ho hc' hn

theorem single_run (h : (start options connack clock).run inputs = some driver)
    (hi : ∀ command, .submit command ∈ inputs → command.Issued) : driver.connection.Single := by
  have hr : (start options connack clock).run [] = some (start options connack clock) := rfl
  have hs := run_preserves_if
    (P := fun driver => driver.connection.Owned ∧ driver.connection.Single)
    (C := fun _ input => ∀ command, input = .submit command → command.Issued)
    (fun _ _ _ _ _ h hi hs =>
      have hn := owned_step h.left (step_does hs)
      have hc' := contents_step h.right.contents hi (step_does hs).proceeds
      ⟨hn, single_step h.right hc' hn (step_does hs).proceeds⟩)
    ⟨owned_run hr, contents_start options connack clock, List.nodup_nil,
      List.nodup_nil, nofun⟩ ?_ h
  case refine_1 =>
    rintro _ _ _ hp _ command rfl
    exact hi command (hp.subset (by simp))
  exact hs.right

theorem transmits_run (h : (start options connack clock).run inputs = some driver) :
    driver.connection.Transmits := by
  have hf := run_traffic (P := MqttConnection.Framed) (Q := Transmits) (fun _ _ ht h => h.step ht)
    (fun _ _ _ _ h => h.same rfl) (fun _ _ _ _ h => h.same rfl)
    (fun _ _ he h => by
      have ht := h.elim (·.transmits) id
      cases he <;> exact ht.same rfl rfl rfl)
    (fun _ _ _ ho h => by cases ho <;> exact h.same rfl rfl rfl)
    (framed_start options connack clock) (.trivial _ _) h
  exact hf.elim (·.transmits) And.right

-- A frame that was queued is read as the packet that it encodes.
theorem next_run (h : (start options connack clock).run inputs = some driver)
    (hi : ∀ command, .submit command ∈ inputs → command.Issued) (hm : frame ∈ driver.connection.enqueued) :
    ∃ packet, serverFraming.next frame.bytes = .item packet frame.bytes.length ∧
      packet.encode = .ok frame.bytes ∧ driver.connection.Means frame.origin packet := by
  obtain ⟨packet, he, hp⟩ := says_run h hi frame hm
  have hk := run_compliant hi (start_compliant options connack clock) h
  have hs := (hk.enqueued frame hm).le_max
  rw [hk.size] at hs
  exact ⟨packet, SentPacket.encode_next he (Nat.lt_of_le_of_lt hs connack.packetSizeLimit_lt), he, hp⟩

theorem read_run (h : (start options connack clock).run inputs = some driver)
    (hi : ∀ command, .submit command ∈ inputs → command.Issued) : ∃ packets part,
      driver.connection.wire = driver.connection.written.flatMap (·.bytes) ++ part ∧
      serverFraming.parse driver.connection.wire = { items := packets, rest := .ok part } ∧
      List.Forall₂ (fun packet frame => packet.encode = .ok frame.bytes ∧
        driver.connection.Means frame.origin packet) packets driver.connection.written := by
  obtain ⟨ho, part, hw, hp⟩ := transmits_run h
  obtain ⟨packets, hf⟩ := Framing.exists_items fun frame hm =>
    next_run h hi (ho.subset (List.mem_map_of_mem hm))
  have hr : List.Forall₂ (fun packet bytes => serverFraming.next bytes = .item packet bytes.length)
      packets (driver.connection.written.map (·.bytes)) :=
    List.forall₂_map_right_iff.mpr (hf.imp fun _ _ hr => hr.left)
  have hm : serverFraming.next part = .more := by
    rcases hp with rfl | ⟨frame, hm, rest, hn, he⟩
    case inl => exact serverFraming.next_nil
    case inr =>
      obtain ⟨packet, hr, -⟩ := next_run h hi hm
      rw [he] at hr
      exact Framing.more_of_part hr hn
  refine ⟨packets, part, hw, ?_, hf.imp fun _ _ hr => hr.right⟩
  rw [hw, List.flatMap_def, Framing.parse_flatten_append hr hm]

-- Whatever the transport has accepted so far, a server reads from it the packets of the frames that
-- were written, each of which says what its operation asks for, and waits for the rest of the frame
-- that is being written.
theorem wire_read (options : ConnectOptions) (connack : ConnAckPacket) (clock : Clock)
    (inputs : List Input) (driver : Driver)
    (h : (start options connack clock).run inputs = some driver)
    (hi : ∀ command, .submit command ∈ inputs → command.Issued) :
    ∃ packets part,
      serverFraming.parse driver.connection.wire = { items := packets, rest := .ok part } ∧
      List.Forall₂ (fun packet frame => packet.encode = .ok frame.bytes ∧
        driver.connection.Means frame.origin packet) packets driver.connection.written ∧
      (driver.connection.written.map (·.unstarted)).Sublist driver.connection.enqueued ∧
      (driver.phase.terminated = false →
        part = OutboundFrame.queue.started driver.connection.outbound) := by
  obtain ⟨packets, part, hw, hr, hf⟩ := read_run h hi
  refine ⟨packets, part, hr, hf, (transmits_run h).ordered, fun ht => ?_⟩
  rcases framed_run h with hs | ⟨hn, _⟩
  case inl => exact List.append_cancel_left (hw.symm.trans hs.wire.wire_eq)
  case inr => exact absurd (hn.symm.trans ht) nofun

-- A message is written, and a part of a SUBSCRIBE.
def writing : List Input :=
  [.submit (.publish "a" [7] {} 0), .submit (.subscribe "a" .atMostOnce 1), .proceed, .proceed,
    .proceed, .proceed, .proceed, .written (.ok 7), .written (.ok 3)]

theorem writing_issued (command : Command) (h : .submit command ∈ writing) : command.Issued := by
  simp only [writing, List.mem_cons, List.not_mem_nil, Input.submit.injEq, reduceCtorEq, or_false]
    at h
  rcases h with rfl | rfl <;> trivial

theorem wire_read_writing :
    ∃ driver, (start plainOptions plainConnack stillClock).run writing = some driver ∧
      driver.connection.written.length = 1 ∧
      ∃ packets part,
        serverFraming.parse driver.connection.wire = { items := packets, rest := .ok part } ∧
        packets.length = 1 ∧ part = [0x82, 7, 0] := by
  obtain ⟨driver, hr, hl, hp⟩ := exists_run (start plainOptions plainConnack stillClock) writing
    (fun driver => driver.connection.written.length = 1 ∧ driver.phase.terminated = false ∧
      OutboundFrame.queue.started driver.connection.outbound = [0x82, 7, 0]) (by decide +kernel)
  obtain ⟨packets, part, hs, hf, _, hq⟩ :=
    wire_read plainOptions plainConnack stillClock writing driver hr writing_issued
  exact ⟨driver, hr, hl, packets, part, hs, hf.length_eq.trans hl, (hq hp.left).trans hp.right⟩

-- No command is sent twice, and commands other than requests are sent in the order in which they
-- were submitted.
theorem sent_once (options : ConnectOptions) (connack : ConnAckPacket) (clock : Clock)
    (inputs : List Input) (driver : Driver)
    (h : (start options connack clock).run inputs = some driver)
    (hi : ∀ command, .submit command ∈ inputs → command.Issued) :
    driver.connection.spoken.Pairwise (· < ·) ∧ driver.connection.asked.Nodup ∧
      driver.connection.spoken.Disjoint driver.connection.asked := by
  have hs := single_run h hi
  refine ⟨?_, hs.once, fun result hm hm' => ?_⟩
  case refine_1 =>
    have hl : (List.range driver.connection.nextSender).Pairwise (· < ·) := List.pairwise_lt_range
    rw [← (owned_run h).numbered, List.map_append] at hl
    exact (hl.sublist (List.sublist_append_left _ _)).sublist (inTurn_run h)
  case refine_2 =>
    obtain ⟨request, ht⟩ := hs.asked_taken hm'
    obtain ⟨frame, hf, ho⟩ := List.mem_filterMap.mp hm
    obtain ⟨packet, _, hp⟩ := says_run h hi frame hf
    generalize frame.origin = origin at ho hp
    cases hp <;> cases ho
    case command command hc hn _ =>
      exact hn _ _ (hs.unique hc ht rfl)

theorem sent_once_writing :
    ∃ driver, (start plainOptions plainConnack stillClock).run writing = some driver ∧
      driver.connection.spoken = [0, 1] ∧ driver.connection.spoken.Pairwise (· < ·) := by
  obtain ⟨driver, hr, hs⟩ := exists_run (start plainOptions plainConnack stillClock) writing
    (fun driver => driver.connection.spoken = [0, 1]) (by decide +kernel)
  exact ⟨driver, hr, hs,
    (sent_once plainOptions plainConnack stillClock writing driver hr writing_issued).left⟩

end Driver
end MqttWasi
