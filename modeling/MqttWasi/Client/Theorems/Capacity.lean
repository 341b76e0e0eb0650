import MqttWasi.Codec.Theorems.Decoders
import MqttWasi.Client.Theorems.Sessions

-- A call of `recv` does not run out of room.

namespace MqttWasi

namespace MqttClient

open EStateM (Meets)

variable {c c' : MqttClient}

-- The queue is empty and has room for a message.
def Vacant (c : MqttClient) : Prop :=
  c.incoming = [] ∧ 0 < c.maxIncomingMessages

theorem Vacant.room (h : Vacant c) : c.incoming.length < c.maxIncomingMessages := by
  rw [h.left]
  exact h.right

theorem readPacketUntil_vacant (deadline : Option Deadline) :
    Meets Vacant (readPacketUntil deadline) (fun packet c => Decodable packet ∧ Vacant c)
      fun _ _ => True := by
  intro c ⟨hi, hn⟩
  have h := readPacketUntil_meets deadline c (.refl c)
  cases hx : readPacketUntil deadline c <;> rw [hx] at h
  case error => trivial
  case ok packet c' =>
    refine ⟨h.left, ?_, h.right.maxIncomingMessages ▸ hn⟩
    rw [h.right.incoming, hi, List.append_nil]

-- An action that does not fail because the queue is full.
def Patient (x : ClientM α) : Prop :=
  Meets (fun _ => True) x (fun _ _ => True) fun stop _ => ∀ e, stop = .failed e → ¬e.IsFull

namespace Patient

theorem pure (a : α) : Patient (pure a) :=
  fun _ _ => trivial

theorem fail {e : Error} (h : ¬e.IsFull) : Patient (fail e : ClientM α) :=
  fun _ _ _ he => Stop.failed.inj he ▸ h

theorem bind {x : ClientM α} {f : α → ClientM β} (hx : Patient x) (hf : ∀ a, Patient (f a)) :
    Patient (x >>= f) :=
  Meets.bind hx fun a => Meets.pre (hf a) fun _ _ => trivial

theorem get : Patient (get : ClientM MqttClient) :=
  fun _ _ => trivial

theorem set (c : MqttClient) : Patient (set c : ClientM PUnit) :=
  fun _ _ => trivial

theorem modify (f : MqttClient → MqttClient) : Patient (modify f : ClientM PUnit) :=
  fun _ _ => trivial

theorem ite {p : Prop} [Decidable p] {x y : ClientM α} (hx : Patient x) (hy : Patient y) :
    Patient (if p then x else y) :=
  Meets.ite (fun _ => hx) fun _ => hy

theorem failDisconnected {e : Error} (h : ¬e.IsFull) : Patient (failDisconnected e : ClientM α) :=
  .bind (.modify _) fun _ => .fail h

theorem onStream (call : Transport → Option (Except IoError α × Transport)) :
    Patient (onStream call) := by
  refine .bind .get fun c => ?_
  cases call c.stream
  case none => exact fun _ _ _ he => nomatch he
  case some r => exact .bind (.set _) fun _ => .pure _

theorem now : Patient now :=
  .bind .get fun _ => .bind (.set _) fun _ => .pure _

theorem mapWriteResult (h : mapWriteResult result operation = .error e) : ¬e.IsFull := by
  unfold MqttWasi.mapWriteResult at h
  split at h
  case h_1 => cases h
  case h_2 => split at h <;> cases h <;> exact nofun

-- After a failure nothing follows.
theorem fail_bind {e : Error} (h : ¬e.IsFull) (f : α → ClientM β) :
    Patient (MqttClient.fail e >>= f) :=
  fun _ _ _ he => Stop.failed.inj he ▸ h

theorem failDisconnected_bind {e : Error} (h : ¬e.IsFull) (f : α → ClientM β) :
    Patient (MqttClient.failDisconnected e >>= f) :=
  fun _ _ _ he => Stop.failed.inj he ▸ h

theorem sendEncoded (frame : Bytes) (operation : String) :
    Patient (sendEncoded frame operation) := by
  refine .bind .get fun _ => .ite (.fail_bind (by nofun) _) (.bind (.modify _) fun _ => ?_)
  refine .bind (.onStream _) fun result => ?_
  split
  case h_1 he => exact .failDisconnected_bind (mapWriteResult he) _
  case h_2 =>
    refine .bind (.onStream _) fun result => ?_
    dsimp only
    split
    case h_1 he => exact .failDisconnected_bind (mapWriteResult he) _
    case h_2 => exact .bind .now fun _ => .modify _

theorem keepAlive (start : Instant) : Patient (serviceTimers.keepAlive start) := by
  refine .bind .get fun c => .ite (.pure _) ?_
  split
  case h_1 => exact .ite (.failDisconnected nofun) (.pure _)
  case h_2 =>
    exact .ite (.bind (.sendEncoded _ _) fun _ => .bind .now fun _ => .modify _) (.pure _)
  case h_3 => exact .pure _

theorem serviceTimers (deadline : Option Deadline) : Patient (serviceTimers deadline) := by
  refine .bind .now fun start => ?_
  split
  case h_1 => exact .ite (.fail_bind (by nofun) _) (.keepAlive start)
  case h_2 => exact .keepAlive start

theorem nextReadTimeout (deadline : Option Deadline) : Patient (nextReadTimeout deadline) :=
  .bind .now fun _ => .bind .get fun _ => .pure _

theorem readPacketRound (deadline : Option Deadline) : Patient (readPacketRound deadline) := by
  refine .bind .get fun c => ?_
  split
  case h_1 e _ he =>
    have hd := Decodes.tryDecode c.frameReader trivial
    rw [he] at hd
    exact .bind (.set _) fun _ => .failDisconnected hd
  case h_2 =>
    refine .bind (.set _) fun _ => .bind .now fun _ => .bind (.modify _) fun _ => ?_
    exact .ite (.bind (.modify _) fun _ => .pure _) (.pure _)
  case h_3 =>
    refine .bind (.set _) fun _ => .bind (.serviceTimers deadline) fun _ => ?_
    refine .bind (.nextReadTimeout deadline) fun _ => .bind (.onStream _) fun _ => ?_
    split
    case h_1 => exact .failDisconnected_bind (by nofun) _
    case h_2 =>
      refine .bind .get fun _ => ?_
      dsimp only
      refine .ite (.failDisconnected_bind (by nofun) _) (.bind (.onStream _) fun _ => ?_)
      split
      case h_1 => exact .failDisconnected nofun
      case h_2 => exact .bind .now fun _ => .bind (.modify _) fun _ => .pure _
      case h_3 => exact .ite (.pure _) (.failDisconnected nofun)

theorem readPacketUntil (deadline : Option Deadline) : Patient (readPacketUntil deadline) := by
  refine .bind .get fun c => ?_
  generalize c.stream.readable + 1 = rounds
  induction rounds
  case zero => exact fun _ _ _ he => nomatch he
  case succ rounds ih =>
    refine .bind (.readPacketRound deadline) fun packet => ?_
    cases packet
    case none => exact ih
    case some packet => exact .pure _

theorem sendPuback (h : packetId ≠ 0) : Patient (sendPuback packetId) := by
  rw [MqttClient.sendPuback, PubAckPacket.encode_success h]
  exact .sendEncoded _ _

end Patient

theorem acceptPublish_patient (hv : packet.HasValidId) :
    Meets (fun c => c.incoming.length < c.maxIncomingMessages) (acceptPublish packet)
      (fun _ _ => True) fun stop _ => ∀ e, stop = .failed e → ¬e.IsFull := by
  refine .get fun c hl => .ite (fun hf => absurd hl (Nat.not_lt.mpr hf)) fun _ => ?_
  refine Meets.pre ?_ fun _ _ => trivial
  refine Patient.bind (.set _) fun _ => .bind (.modify _) fun _ => ?_
  by_cases hq : packet.qos = .atLeastOnce
  case neg => rw [if_neg hq]; exact .pure _
  case pos =>
    rw [if_pos hq]
    cases hi : packet.packetId
    case none => simp [PublishPacket.HasValidId, hq, hi] at hv
    case some packetId =>
      simp only [PublishPacket.HasValidId, hq, hi] at hv
      exact .sendPuback hv

theorem recv_go_patient (rounds : Nat) :
    Meets Vacant (recv.go rounds) (fun _ _ => True) fun stop _ => ∀ e, stop = .failed e → ¬e.IsFull := by
  induction rounds
  case zero => exact .throw fun _ _ _ he => nomatch he
  case succ rounds ih =>
    refine .bind (Q := fun packet c => Decodable packet ∧ Vacant c) ?_ fun packet => ?_
    case refine_1 =>
      exact ((readPacketUntil_vacant none).and (Patient.readPacketUntil none)).imp
        (fun _ h => ⟨h, trivial⟩) (fun _ _ h => h.left) fun _ _ h => h.right
    case refine_2 =>
      split
      case h_1 packet =>
        refine .bind (Q := fun _ _ => True) (fun c ⟨⟨_, _, hd⟩, hv⟩ => ?_) fun _ _ _ => trivial
        exact acceptPublish_patient (Packet.decode_publish hd) c hv.room
      case h_2 packet =>
        refine Meets.pre ?_ fun _ _ => trivial
        exact Patient.bind (.modify _) fun _ => .ite (.pure _) (.fail nofun)
      case h_3 => exact ih.pre fun _ h => h.right
      case h_4 => exact Meets.pre (Patient.failDisconnected nofun) fun _ _ => trivial

theorem recv_patient (hn : 0 < c.maxIncomingMessages) (h : recv c = .error (.failed e) c') :
    ¬e.IsFull := by
  cases hc : c.connected
  case false =>
    rw [recv_of_closed hc] at h
    cases h
    nofun
  case true =>
    cases hi : c.incoming
    case cons message rest =>
      rw [recv_of_queued hc hi] at h
      cases h
    case nil =>
      rw [recv_of_empty hc hi] at h
      exact (recv_go_patient _).of_error ⟨hi, hn⟩ h e rfl

end MqttClient
end MqttWasi
