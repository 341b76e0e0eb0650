import MqttWasi.Client.Incoming
import MqttWasi.Client.Theorems.Listening

-- What an application sees that iterates over its messages.

namespace MqttWasi

open MqttClient
open Framing (parse)

variable {c₀ c c' : MqttClient}

namespace MqttClient

open EStateM (Meets)

-- `recv` returns nothing only if the server has disconnected.
theorem recv_go_none (hi : c.incoming = []) (hd : messages D = []) :
    Meets (At c D []) (recv.go rounds) (fun message c' => message = none → c'.connected = false)
      fun _ _ => True := by
  induction rounds generalizing D
  case zero => exact .throw fun _ _ => trivial
  case succ rounds ih =>
    refine .bind ((readPacketUntil_meets none).imp (fun _ h => h) (fun _ _ h => h) fun _ _ _ => trivial)
      fun packet => ?_
    split
    case h_1 packet =>
      rintro c' ⟨⟨_, _, hp⟩, h⟩
      have ha : Meets (At c (D ++ [.publish packet]) []) (acceptPublish packet)
          (fun _ => At c (D ++ [.publish packet]) [packet]) fun _ _ => True :=
        (acceptPublish_meets (Packet.decode_publish hp)).imp (fun _ h => h) (fun _ _ h => h) fun _ _ _ => trivial
      refine Meets.bind ha (fun _ => ?_) c' h
      exact (popIncoming_meets hi).imp (fun _ h => h) (fun _ _ h hn => by cases h.left.symm.trans hn) fun _ _ h => h
    case h_2 packet =>
      have hs : Meets (fun _ => True) setDisconnected (fun _ c => c.connected = false) fun _ _ => True :=
        fun _ _ => rfl
      refine (hs.pre fun _ _ => trivial).bind fun _ => .ite (fun _ => ?_) fun _ => ?_
      case refine_1 => exact .pure fun _ h _ => h
      case refine_2 => exact .throw fun _ _ => trivial
    case h_3 => exact (ih (by rw [messages_append_of_none rfl, hd])).pre fun _ h => h.right
    case h_4 => exact fun _ _ => trivial

theorem recv_none (h : recv c = .ok none c') : c'.connected = false := by
  cases hc : c.connected
  case false =>
    rw [recv_of_closed hc] at h
    cases h
  case true =>
    cases hi : c.incoming
    case cons message rest =>
      rw [recv_of_queued hc hi] at h
      cases h
    case nil =>
      rw [recv_of_empty hc hi] at h
      exact (recv_go_none (D := []) hi rfl).of_ok (.refl c) h rfl

end MqttClient

namespace Incoming

variable {iter : Incoming}

-- What a sequence of calls of `next` returns: messages, and after them perhaps one error and nothing.
inductive Yields (ms : List PublishPacket) : Incoming → List (Option (Except Error PublishPacket)) → Prop
  | more (c : MqttClient) : Yields ms ⟨c, false⟩ (ms.map fun message => some (.ok message))
  | ended {c : MqttClient} (k : Nat) :
    (c.connected = false) →
    Yields ms ⟨c, true⟩ ((ms.map fun message => some (.ok message)) ++ .replicate (k + 1) none)
  | failed (c : MqttClient) (e : Error) (k : Nat) :
    Yields ms ⟨c, true⟩ ((ms.map fun message => some (.ok message)) ++ some (.error e) :: .replicate k none)

theorem next_incoming (c : MqttClient) : next (incoming c) = match c.recv with
    | .ok (some message) c'  => .ok (some (.ok message)) (incoming c')
    | .ok none c'            => .ok none ⟨c', true⟩
    | .error (.failed e) c'  => .ok (some (.error e)) ⟨c', true⟩
    | .error .blocked c'     => .error .blocked (incoming c') :=
  rfl

theorem nexts_done (h : iter.done = true) (n : Nat) : nexts n iter = .ok (.replicate n none) iter := by
  have hn : next iter = .ok none iter := by rw [next, if_pos h]
  induction n
  case zero => rfl
  case succ n ih =>
    rw [nexts, EStateM.bind_ok hn, EStateM.bind_ok ih]
    rfl

theorem Yields.cons (h : Yields ms iter items) (message : PublishPacket) :
    Yields (message :: ms) iter (some (.ok message) :: items) := by
  cases h
  case more => exact .more _
  case ended k hc => exact .ended k hc
  case failed e k => exact .failed _ e k

-- The calls of `next` continue a session.
theorem nexts_session (h : Session c₀ xs ms c) (hn : nexts n (incoming c) = .ok items iter) :
    ∃ received, Yields received iter items ∧ Session c₀ xs (ms ++ received) iter.client := by
  induction n generalizing c ms items
  case zero =>
    cases hn
    exact ⟨[], .more c, by rwa [List.append_nil]⟩
  case succ n ih =>
    obtain ⟨item, between, hi, hb⟩ := EStateM.bind_eq_ok.mp hn
    obtain ⟨items', iter', hs, hr⟩ := EStateM.bind_eq_ok.mp hb
    cases hr
    rw [next_incoming] at hi
    cases hc : c.recv <;> rw [hc] at hi
    case ok received c' =>
      cases received
      case some message =>
        cases hi
        have h : Session c₀ xs (ms ++ [message]) c' := .received h hc
        obtain ⟨received, hy, h⟩ := ih h hs
        exact ⟨message :: received, hy.cons message, by rwa [List.append_assoc] at h⟩
      case none =>
        cases hi
        cases (nexts_done rfl n).symm.trans hs
        exact ⟨[], .ended n (recv_none hc), .received h hc⟩
    case error stop c' =>
      cases stop
      case blocked => cases hi
      case failed e =>
        cases hi
        cases (nexts_done rfl n).symm.trans hs
        refine ⟨[], .failed c' e n, ?_⟩
        rw [List.append_nil]
        exact .recvFailed h hc

-- An application that iterates over its messages gets those that the broker sends, in order and after
-- those that it has received before, then at most one error, and nothing from then on.
theorem messages_iterated (transport : Transport) (clock : Clock) (options : ConnectOptions)
    (c₀ c : MqttClient) (xs : List Exchange) (ms : List PublishPacket) (n : Nat)
    (items : List (Option (Except Error PublishPacket))) (iter : Incoming)
    (h₀ : connectWith transport clock options = .ok c₀) (h : Session c₀ xs ms c)
    (hn : nexts n (incoming c) = .ok items iter) :
    let F := packetFraming options.maxPacketSize
    ∃ received, Yields received iter items ∧
      ms ++ received <+: messages (parse F transport.ahead).items ∧
      (iter.client.connected = true →
        (parse F (iter.client.frameReader.buf ++ iter.client.stream.ahead)).items = [] →
        ms ++ received ++ iter.client.incoming = messages (parse F transport.ahead).items) ∧
      (iter.done = true → ∀ k, nexts k iter = .ok (.replicate k none) iter) := by
  obtain ⟨received, hy, hs⟩ := nexts_session h hn
  obtain ⟨ack, ha⟩ := connectWith_agreed h₀
  have hv : Visit c₀ (ms ++ received) iter.client := .idle hs
  have hh := (hv.hears ha.greeting.hears).decoded
  exact ⟨received, hy, (hv.prefix_decoded h₀).trans (hh.filterMap _), hs.complete h₀, fun hd k => nexts_done hd k⟩

-- The message arrives while the client is waiting for the SUBACK. After that, the broker leaves.
def partingBroker : Transport :=
  { answeringBroker with
    reads := answeringBroker.reads ++ [.ok []]
    settings := List.replicate 10 (.ok ()) }

def partingItems : List (Option (Except Error PublishPacket)) :=
  [some (.ok brokerMessage), some (.error .connectionClosed), none]

theorem partingBroker_run :
    ∃ c₀, connectWith partingBroker steadyClock { clientId := "x" } = .ok c₀ ∧
      ∃ c, subscribe "b" .atMostOnce c₀ = .ok () c ∧
        ∃ iter, nexts partingItems.length (incoming c) = .ok partingItems iter ∧ iter.done = true := by
  have h : (match connectWith partingBroker steadyClock { clientId := "x" } with
      | .ok c₀ => match subscribe "b" .atMostOnce c₀ with
        | .ok _ c => match nexts partingItems.length (incoming c) with
          | .ok items iter => decide (items = partingItems ∧ iter.done = true)
          | _ => false
        | _ => false
      | _ => false) = true := by decide +kernel
  split at h
  case h_1 c₀ h₀ =>
    split at h
    case h_1 c hc =>
      split at h
      case h_1 items iter hn =>
        obtain ⟨rfl, hd⟩ := of_decide_eq_true h
        exact ⟨c₀, h₀, c, hc, iter, hn, hd⟩
      case h_2 => cases h
    case h_2 => cases h
  case h_2 => cases h

theorem partingBroker_iterated :
    ∃ c₀ c iter received, connectWith partingBroker steadyClock { clientId := "x" } = .ok c₀ ∧
      nexts partingItems.length (incoming c) = .ok partingItems iter ∧
      Yields received iter partingItems ∧
      received <+: messages (parse (packetFraming (1024 * 1024)) partingBroker.ahead).items ∧
      ∀ k, nexts k iter = .ok (.replicate k none) iter := by
  obtain ⟨c₀, h₀, c, hc, iter, hn, hd⟩ := partingBroker_run
  have hs : Session c₀ [⟨.subscribe "b" .atMostOnce, c₀, .ok (), c⟩] [] c := .returned .start hc
  obtain ⟨received, hy, hp, _, hk⟩ := messages_iterated _ _ _ _ _ _ _ _ _ _ h₀ hs hn
  exact ⟨c₀, c, iter, received, h₀, hn, hy, hp, hk hd⟩

end Incoming
end MqttWasi
