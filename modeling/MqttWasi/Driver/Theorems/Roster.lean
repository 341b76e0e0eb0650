import MqttWasi.Driver.Futures
import MqttWasi.Driver.Theorems.Requests

-- The requests that the driver holds, and the lifecycle that it shares with the handles.

namespace MqttWasi

-- The requests that are still to be taken up, and those that have been admitted.
structure Roster where
  queued : List RequestFuture
  pending : Bytes → Option Sender
  lifecycle : RequestLifecycle

namespace Roster

open Relation (ReflTransGen)

def holds (roster : Roster) (future : RequestFuture) : Prop :=
  future ∈ roster.queued ∨ roster.pending future.correlationData = some future.result

def release (roster : Roster) (correlationData : Bytes) : Roster :=
  { roster with lifecycle := roster.lifecycle.finish correlationData }

def free (roster : Roster) (correlationData : Bytes) : Roster where
  queued := roster.queued
  pending := Function.update roster.pending correlationData none
  lifecycle := roster.lifecycle.finish correlationData

def enroll (roster : Roster) (future : RequestFuture) : Roster :=
  { roster with
    pending := Function.update roster.pending future.correlationData (some future.result) }

-- The first of the requests is taken up.
def pop (roster : Roster) : Roster :=
  { roster with queued := roster.queued.tail }

inductive Frees : Roster → Roster → Prop
  | mk : (roster.pending correlationData = some result) → Frees roster (roster.free correlationData)

-- What can become of a request that is taken up.
inductive Takes (closing : Bool) (future : RequestFuture) (roster : Roster) : Roster → Prop
  | closing : (closing = true) → Takes closing future roster roster
  | released : Takes closing future roster (roster.release future.correlationData)
  | admitted : (future.correlationData ∉ roster.lifecycle.cancelled) →
    (ReflTransGen Frees (roster.enroll future) roster') → Takes closing future roster roster'

end Roster

namespace Roster

open Relation (ReflTransGen)

theorem enroll_self (roster : Roster) (future) :
    (roster.enroll future).pending future.correlationData = some future.result :=
  Function.update_self ..

theorem enroll_ne (roster : Roster) (h : key ≠ future.correlationData) :
    (roster.enroll future).pending key = roster.pending key :=
  Function.update_of_ne h ..

-- All requests that have been admitted are freed.
theorem frees_foldl (roster : Roster) (keys : List Bytes) (hn : keys.Nodup)
    (hk : ∀ key ∈ keys, ∃ result, roster.pending key = some result) :
    ReflTransGen Frees roster (keys.foldl free roster) := by
  induction keys generalizing roster
  case nil => exact .refl
  case cons key keys ih =>
    obtain ⟨hm, hn⟩ := List.nodup_cons.mp hn
    obtain ⟨result, hr⟩ := hk key List.mem_cons_self
    refine .head (.mk hr) (ih _ hn fun key' hm' => ?_)
    obtain ⟨result', hr'⟩ := hk key' (List.mem_cons_of_mem _ hm')
    have he : key' ≠ key := fun he => hm (he ▸ hm')
    exact ⟨result', (Function.update_of_ne he ..).trans hr'⟩

theorem foldl_free (roster : Roster) (keys : List Bytes) : keys.foldl free roster =
    { queued := roster.queued
      pending := fun key => if key ∈ keys then none else roster.pending key
      lifecycle := keys.foldl .finish roster.lifecycle } := by
  induction keys generalizing roster
  case nil => simp
  case cons key keys ih =>
    rw [List.foldl_cons, ih]
    refine congrArg (Roster.mk _ · _) (funext fun key' => ?_)
    by_cases h : key' = key
    case pos => simp [h, free]
    case neg => simp [h, free]

end Roster

namespace MqttConnection

open Relation (ReflTransGen)
open Roster (Frees)

def roster (c : MqttConnection) : Roster where
  queued := c.commands.filterMap (·.future?)
  pending correlationData := (c.pendingRequests.lookup correlationData).map (·.result)
  lifecycle := c.requestLifecycle

variable {c c' : MqttConnection}

theorem roster_pending (h : c.pendingRequests.lookup correlationData = some pending) :
    c.roster.pending correlationData = some pending.result :=
  congrArg (Option.map PendingRequest.result) h

theorem roster_pending_eq_none :
    c.roster.pending correlationData = none ↔ c.pendingRequests.lookup correlationData = none :=
  Option.map_eq_none_iff

theorem retains_iff (c : MqttConnection) (future : RequestFuture) :
    c.retains future = true ↔ c.roster.holds future := by
  simp [retains, Roster.holds, roster, Option.any_eq_true]

theorem results_erase (c : MqttConnection) (correlationData : Bytes) :
    (fun key => ((c.pendingRequests.erase correlationData).lookup key).map (·.result)) =
      Function.update c.roster.pending correlationData none := by
  funext key
  by_cases h : key = correlationData
  case pos => subst h; simp
  case neg => rw [AList.lookup_erase_ne h, Function.update_of_ne h]; rfl

theorem results_insert (c : MqttConnection) (correlationData : Bytes) (pending : PendingRequest) :
    (fun key => ((c.pendingRequests.insert correlationData pending).lookup key).map (·.result)) =
      Function.update c.roster.pending correlationData (some pending.result) := by
  funext key
  by_cases h : key = correlationData
  case pos => subst h; simp
  case neg => rw [AList.lookup_insert_ne h, Function.update_of_ne h]; rfl

theorem results_adjust (c : MqttConnection) (correlationData : Bytes)
    {f : PendingRequest → PendingRequest} (hf : ∀ pending, (f pending).result = pending.result) :
    (fun key => ((c.pendingRequests.adjust correlationData f).lookup key).map (·.result)) =
      c.roster.pending := by
  funext key
  by_cases h : key = correlationData
  case pos =>
    subst h
    rw [AList.lookup_adjust, Option.map_map]
    exact congrArg (Option.map · _) (funext hf)
  case neg => rw [AList.lookup_adjust_ne h]; rfl

theorem roster_withoutRequest (c : MqttConnection) (correlationData pending) :
    (c.withoutRequest correlationData pending).roster = c.roster.free correlationData := by
  have he : (c.withoutRequest correlationData pending).roster =
      { queued := c.roster.queued
        pending := fun key => ((c.pendingRequests.erase correlationData).lookup key).map (·.result)
        lifecycle := c.requestLifecycle.finish correlationData } := by
    unfold MqttConnection.withoutRequest
    cases pending.publishPacketId <;> rfl
  rw [he, results_erase]
  rfl

theorem roster_markPublished (c : MqttConnection) (correlationData packetId) :
    (c.markPublished correlationData packetId).roster = c.roster := by
  have h := results_adjust c correlationData
    (f := ({ · with published := true, publishPacketId := packetId })) fun _ => rfl
  exact congrArg (Roster.mk _ · _) h

theorem roster_admitted (c : MqttConnection) (correlationData pending) :
    (c.admitted correlationData pending).roster = c.roster.enroll ⟨correlationData, pending.result⟩ :=
  congrArg (Roster.mk _ · _) (results_insert c correlationData pending)

theorem Write.roster (h : Write frame rest c c') : c'.roster = c.roster := by
  cases h <;> rfl

theorem Course.roster (h : Course c c') :
    c'.roster = c.roster ∨ Frees c.roster c'.roster := by
  cases h
  case dequeue command _ hn hq =>
    refine .inl ?_
    have hf : command.future? = none := by
      cases command
      case request request result => exact absurd rfl (hn request result)
      all_goals rfl
    simp only [MqttConnection.roster, dequeued, hq, List.filterMap_cons, hf]
  case remove pending correlationData hl =>
    exact .inr (roster_withoutRequest c correlationData pending ▸ .mk (roster_pending hl))
  case publish => exact .inl (roster_markPublished ..)
  case publishQos0 => exact .inl (roster_markPublished ..)
  case write hw => exact .inl hw.roster
  all_goals exact .inl rfl

theorem roster_of_course (h : ReflTransGen Course c c') : ReflTransGen Frees c.roster c'.roster := by
  refine h.preserves (P := fun c' => ReflTransGen Frees c.roster c'.roster) (fun c₁ c₂ hs h => ?_) .refl
  rcases hs.roster with hr | hr
  case inl => rwa [hr]
  case inr => exact h.tail hr

theorem Quiet.roster (h : Quiet c c') : c'.roster = c.roster := by
  cases h; rfl

theorem Launch.roster (h : Launch responseTopic c c') : ReflTransGen Frees c.roster c'.roster := by
  cases h
  case publish hp => exact roster_of_course hp.course
  case subscribe => exact .refl

theorem TakesUp.roster (h : TakesUp request result c c') :
    c.roster.Takes c.closing ⟨request.correlationData, result⟩ c'.roster := by
  cases h
  case closing hc => exact .closing hc
  case cancelled hm =>
    have he : (c.requestLifecycle.consumeCancellation request.correlationData).2 =
        c.requestLifecycle.finish request.correlationData := by
      simp [RequestLifecycle.consumeCancellation, RequestLifecycle.finish, hm]
    rw [he]
    exact .released
  case refused hq =>
    rw [← hq.roster]
    exact .released
  case started c₁ deadline hq hm =>
    have he := roster_admitted c₁ request.correlationData (request.pending result deadline)
    rw [hq.quiet.roster] at he
    refine .admitted hq.uncancelled (he ▸ ?_)
    exact hm.preserves (P := fun c' => ReflTransGen Frees _ c'.roster)
      (fun _ _ hs h => h.trans hs.roster) .refl
  case withdrawn c₁ c₂ e deadline hq hs =>
    have he := roster_admitted c₁ request.correlationData (request.pending result deadline)
    rw [hq.quiet.roster, ← hs.roster] at he
    have hw := roster_withoutRequest c₂ request.correlationData (request.pending result deadline)
    refine .admitted hq.uncancelled (he ▸ hw ▸ .single (@Frees.mk result _ _ ?_))
    exact (congrArg (Roster.pending · request.correlationData) he).trans (Function.update_self ..)

theorem roster_closed (c : MqttConnection) :
    c.closed.roster = c.pendingRequests.keys.foldl Roster.free c.roster := by
  rw [Roster.foldl_free]
  refine congrArg (Roster.mk _ · _) (funext fun key => ?_)
  split
  case isTrue => rfl
  case isFalse hk =>
    change none = (c.pendingRequests.lookup key).map (·.result)
    rw [AList.lookup_eq_none.mpr hk]
    rfl

theorem Ends.roster (h : Ends c c') : ReflTransGen Frees c.roster c'.roster := by
  have hr := c.roster.frees_foldl c.pendingRequests.keys c.pendingRequests.keys_nodup fun key hk => by
    obtain ⟨pending, hl⟩ := Option.isSome_iff_exists.mp (AList.lookup_isSome.mpr hk)
    exact ⟨pending.result, roster_pending hl⟩
  rw [← roster_closed] at hr
  cases h <;> exact hr

theorem dispatchPacket_roster (c : MqttConnection) (packet : Packet) :
    ReflTransGen Frees c.roster (dispatchPacket packet c).state.roster := by
  rcases dispatchPacket_cases c packet with ⟨_, c', _, hx, he⟩ | hd
  case inl =>
    rw [hx]
    exact he.roster
  case inr => exact roster_of_course (dispatchPacket_course hd)

-- What the holders of the handles do, other than with the futures of requests.
theorem Outside.roster (h : Outside c input c') (hi : Scene.ofFuture input = false) :
    c'.roster = c.roster := by
  cases h
  case submit command hs hr =>
    cases command
    case request => cases hi
    all_goals
      cases hr
      simp [MqttConnection.roster, Command.future?]
  case cancelRequest => cases hi
  case finishRequest => cases hi
  case reorder packetId correlationData =>
    exact congrArg (Roster.mk _ · _) (results_adjust c correlationData fun _ => rfl)
  all_goals rfl

end MqttConnection

namespace Driver

open Relation (ReflTransGen)
open Roster (Frees)

-- A step either frees some requests that have been admitted, or takes up a request.
theorem roster_of_step {driver driver' : Driver} (hi : Scene.ofFuture input = false)
    (h : driver.step input = some driver') :
    ReflTransGen Frees driver.connection.roster driver'.connection.roster ∨
    ∃ request rest, driver.connection.roster.queued = request :: rest ∧
      driver.connection.roster.pop.Takes driver.connection.closing request
        driver'.connection.roster := by
  have h := (step_does h).proceeds
  cases h
  case course hc => exact .inl (MqttConnection.roster_of_course hc)
  case request rest request result _ c _ _ _ hq ht =>
    refine .inr ⟨⟨request.correlationData, result⟩, rest.filterMap (·.future?), ?_, ?_⟩
    case refine_1 => rw [MqttConnection.roster, hq]; rfl
    case refine_2 =>
      have ht := ht.roster
      have he : (c.dequeued (.request request result) rest).roster = c.roster.pop := by
        rw [Roster.pop, MqttConnection.roster, MqttConnection.roster, hq]
        rfl
      rwa [he] at ht
  case arrives packet reader c next _ =>
    rw [perform_connection]
    exact .inl (MqttConnection.dispatchPacket_roster (c.arrived reader packet) packet)
  case ends he => exact .inl he.roster
  case outside ho => rw [ho.roster hi]; exact .inl .refl

end Driver
end MqttWasi
