import MqttWasi.Driver.Theorems.Isolation

-- Requests that do not share correlation data: what is registered is accounted for, and a request
-- whose future has been dropped leaves nothing behind.

namespace MqttWasi

open Relation (ReflTransGen)

namespace Roster

-- Whatever is registered is held.
def Rooted (roster : Roster) : Prop :=
  ∀ key ∈ roster.lifecycle.active, ∃ future, future.correlationData = key ∧ roster.holds future

-- No request with this correlation data is left.
structure Gone (correlationData : Bytes) (roster : Roster) : Prop where
  queued : ∀ future ∈ roster.queued, future.correlationData ≠ correlationData
  pending : roster.pending correlationData = none
  active : correlationData ∉ roster.lifecycle.active

variable {limit : Nat} {crew : Crew} {roster roster' : Roster}

theorem Frees.queued (h : Frees roster roster') : roster'.queued = roster.queued := by
  cases h; rfl

theorem queued_of_frees (h : ReflTransGen Frees roster roster') : roster'.queued = roster.queued :=
  h.preserves (P := fun roster' => roster'.queued = roster.queued)
    (fun _ _ hf h => hf.queued.trans h) rfl

theorem Takes.queued {closed : Bool} (h : roster.Takes closed future roster') : roster'.queued = roster.queued := by
  cases h
  case closing => rfl
  case released => rfl
  case admitted hm => exact (queued_of_frees hm).trans rfl

namespace Rooted

theorem frees (h : roster.Rooted) (ht : roster.Tidy limit crew) (hf : Frees roster roster') :
    roster'.Rooted := by
  cases hf
  intro key hk
  obtain ⟨hn, hk⟩ := ht.bounded.mem_active_finish.mp hk
  obtain ⟨future, rfl, hf⟩ := h key hk
  exact ⟨future, rfl, hf.imp id fun hp => (Function.update_of_ne hn ..).trans hp⟩

-- A driver that is not closing releases every request that it does not admit.
theorem takes (h : roster.Rooted) (ht : roster.Tidy limit crew) (hq : roster.queued = future :: rest)
    (hk : roster.pop.Takes false future roster') : roster'.Rooted := by
  -- Who is held is held still, except for the request itself.
  have hs (key) (hm : key ∈ roster.lifecycle.active) (hn : key ≠ future.correlationData) :
      ∃ future', future'.correlationData = key ∧ roster.pop.holds future' := by
    obtain ⟨future', rfl, hf⟩ := h key hm
    refine ⟨future', rfl, hf.imp (fun hm => ?_) id⟩
    rw [hq] at hm
    rw [pop, hq]
    exact (List.mem_cons.mp hm).resolve_left fun he => hn (congrArg _ he)
  cases hk
  case closing hc => cases hc
  case released =>
    intro key hk
    obtain ⟨hn, hk⟩ := ht.bounded.mem_active_finish.mp hk
    exact hs key hk hn
  case admitted hm =>
    have he : (roster.pop.enroll future).Rooted := by
      intro key hk
      by_cases hn : key = future.correlationData
      case pos => exact ⟨future, hn.symm, .inr (roster.pop.enroll_self future)⟩
      case neg =>
        obtain ⟨future', rfl, hf⟩ := hs key hk hn
        exact ⟨future', rfl, hf.imp id fun hp => (roster.pop.enroll_ne hn).trans hp⟩
    exact (hm.preserves (P := fun roster => roster.Tidy limit crew ∧ roster.Rooted)
      (fun _ _ hf h => ⟨h.left.frees hf, h.right.frees h.left hf⟩) ⟨ht.enroll hq, he⟩).right

end Rooted

namespace Gone

theorem frees (h : roster.Gone correlationData) (hf : Frees roster roster') :
    roster'.Gone correlationData := by
  cases hf
  case mk key _ =>
    refine ⟨h.queued, ?_, fun hm => h.active (List.mem_of_mem_erase hm)⟩
    by_cases he : correlationData = key
    case pos => exact he ▸ Function.update_self ..
    case neg => exact (Function.update_of_ne he ..).trans h.pending

theorem takes (h : roster.Gone correlationData) (hq : roster.queued = future :: rest)
    (hk : roster.pop.Takes closing future roster') : roster'.Gone correlationData := by
  have hn : correlationData ≠ future.correlationData :=
    (h.queued future (hq ▸ List.mem_cons_self)).symm
  have hp : roster.pop.Gone correlationData :=
    ⟨fun future' hm => h.queued future' (List.mem_of_mem_tail hm), h.pending, h.active⟩
  cases hk
  case closing => exact hp
  case released => exact ⟨hp.queued, hp.pending, fun hm => h.active (List.mem_of_mem_erase hm)⟩
  case admitted hm =>
    exact hm.preserves (fun _ _ hf h => h.frees hf)
      ⟨hp.queued, (roster.pop.enroll_ne hn).trans hp.pending, hp.active⟩

-- A request that is taken up after it has been cancelled
theorem of_takes (h : roster.Tidy limit crew) (hq : roster.queued = future :: rest)
    (hm : future.correlationData ∈ roster.lifecycle.cancelled)
    (hk : roster.pop.Takes false future roster') : roster'.Gone future.correlationData := by
  cases hk
  case closing hc => cases hc
  case admitted hn _ => exact absurd hm hn
  case released =>
    exact ⟨fun _ hm => h.pop_ne hq (.inl hm), h.apart future (hq ▸ List.mem_cons_self),
      fun hm => (h.bounded.mem_active_finish.mp hm).left rfl⟩

end Gone

-- The requests with these keys have been dropped.
structure Drained (keys : List Bytes) (roster roster' : Roster) : Prop where
  queued : roster'.queued = roster.queued
  cancelled : roster'.lifecycle.cancelled ⊆ roster.lifecycle.cancelled
  absent : ∀ key, roster.pending key = none → roster'.pending key = none
  drained : ∀ key ∈ keys, roster'.pending key = none

theorem Drained.free (roster : Roster) (key : Bytes) : roster.Drained [key] (roster.free key) := by
  refine ⟨rfl, List.erase_subset, fun key' hn => ?_, ?_⟩
  case refine_1 =>
    by_cases he : key' = key
    case pos => exact he ▸ Function.update_self ..
    case neg => exact (Function.update_of_ne he ..).trans hn
  case refine_2 =>
    rw [List.forall_mem_singleton]
    exact Function.update_self ..

theorem Drained.trans {roster₁ : Roster} (h : Drained keys roster roster₁)
    (h' : Drained keys' roster₁ roster') : Drained (keys ++ keys') roster roster' where
  queued := h'.queued.trans h.queued
  cancelled := List.Subset.trans h'.cancelled h.cancelled
  absent key hn := h'.absent key (h.absent key hn)
  drained key hm := by
    cases List.mem_append.mp hm
    case inl hm => exact h'.absent key (h.drained key hm)
    case inr hm => exact h'.drained key hm

end Roster

namespace MqttConnection

variable {c c' : MqttConnection}

-- The driver has not published, and is not about to publish, a request with this correlation data.
structure Silent (correlationData : Bytes) (c : MqttConnection) : Prop where
  absent : c.pendingRequests.lookup correlationData = none
  enqueued : ∀ frame ∈ c.enqueued, frame.requestCorrelation ≠ some correlationData

namespace Silent

theorem push (h : c.Silent correlationData) (hf : frame.requestCorrelation ≠ some correlationData) :
    (c.push frame).Silent correlationData where
  absent := h.absent
  enqueued frame' hm := by
    cases List.mem_append.mp hm
    case inl hm => exact h.enqueued frame' hm
    case inr hm => exact List.mem_singleton.mp hm ▸ hf

theorem adjust (h : c.Silent correlationData) (key f) :
    (c.pendingRequests.adjust key f).lookup correlationData = none := by
  by_cases he : correlationData = key
  case pos => rw [he, AList.lookup_adjust, ← he, h.absent]; rfl
  case neg => rw [AList.lookup_adjust_ne he]; exact h.absent

theorem erase (h : c.Silent correlationData) (key) :
    (c.pendingRequests.erase key).lookup correlationData = none := by
  by_cases he : correlationData = key
  case pos => rw [he]; exact AList.lookup_erase ..
  case neg => rw [AList.lookup_erase_ne he]; exact h.absent

theorem withoutRequest (h : c.Silent correlationData) (key pending) :
    (c.withoutRequest key pending).Silent correlationData := by
  obtain ⟨_, _, _, he⟩ := withoutRequest_eq c key pending
  rw [he]
  exact ⟨h.erase key, h.enqueued⟩

-- Only the requests that have been admitted are published.
theorem publish (h : c.Silent correlationData) (hl : c.pendingRequests.lookup key = some pending)
    (bytes) (packetId) :
    ((c.push (pending.frame key bytes)).markPublished key packetId).Silent correlationData := by
  have hp : (c.push (pending.frame key bytes)).Silent correlationData := h.push fun he => by
    have he : key = correlationData := Option.some.inj he
    cases hl.symm.trans (he ▸ h.absent)
  exact ⟨hp.adjust _ _, hp.enqueued⟩

theorem course (h : c.Silent correlationData) (hc : Course c c') : c'.Silent correlationData := by
  cases hc
  case remove => exact h.withoutRequest _ _
  case publish packetId entry _ _ _ hp =>
    have ha : (c.await packetId entry).Silent correlationData := ⟨h.absent, h.enqueued⟩
    exact ha.publish hp.lookup _ _
  case publishQos0 hp => exact h.publish hp.lookup _ _
  case push hn _ => exact h.push (by rw [hn]; nofun)
  case write hw => cases hw <;> exact ⟨h.absent, h.enqueued⟩
  all_goals exact ⟨h.absent, h.enqueued⟩

theorem courses (h : c.Silent correlationData) (hc : ReflTransGen Course c c') :
    c'.Silent correlationData :=
  hc.preserves (fun _ _ hc h => h.course hc) h

theorem launch (h : c.Silent correlationData) (hl : Launch responseTopic c c') :
    c'.Silent correlationData := by
  cases hl
  case publish hp => exact h.courses hp.course
  case subscribe packetId entry _ _ =>
    have ha : ((c.await packetId entry).subscribing responseTopic).Silent correlationData :=
      ⟨h.absent, h.enqueued⟩
    exact ha.push nofun

-- Another request is taken up, or one that has been cancelled.
theorem takesUp {request : RequestCommand} (h : c.Silent correlationData)
    (hn : request.correlationData = correlationData → correlationData ∈ c.requestLifecycle.cancelled)
    (ht : TakesUp request result c c') : c'.Silent correlationData := by
  have ha {c₁ : MqttConnection} (pending) (hq : c.Qualifies request c₁) :
      (c₁.admitted request.correlationData pending).Silent correlationData := by
    have h' : c₁.Silent correlationData := h.courses (Shift.quiet hq.quiet).course
    have he : correlationData ≠ request.correlationData :=
      fun he => hq.uncancelled (he ▸ hn he.symm)
    exact ⟨(AList.lookup_insert_ne he).trans h'.absent, h'.enqueued⟩
  cases ht
  case closing => exact ⟨h.absent, h.enqueued⟩
  case cancelled => exact ⟨h.absent, h.enqueued⟩
  case refused hq =>
    have h' := h.courses (Shift.quiet hq).course
    exact ⟨h'.absent, h'.enqueued⟩
  case started hq hl => exact hl.preserves (fun _ _ hl h => h.launch hl) (ha _ hq)
  case withdrawn hq hs =>
    have h' := ((ha _ hq).courses (Shift.quiet hs).course).withoutRequest request.correlationData
    exact ⟨(h' _).absent, (h' _).enqueued⟩

theorem ends (h : c.Silent correlationData) (he : Ends c c') : c'.Silent correlationData := by
  cases he <;> exact ⟨AList.lookup_empty _, h.enqueued⟩

theorem outside (h : c.Silent correlationData) (ho : Outside c input c') :
    c'.Silent correlationData := by
  cases ho
  case reorder => exact ⟨h.adjust _ _, h.enqueued⟩
  all_goals exact ⟨h.absent, h.enqueued⟩

end Silent

-- Nothing is sent for a request that has been cancelled when it is taken up.
theorem TakesUp.enqueued (h : TakesUp request result c c')
    (hm : request.correlationData ∈ c.requestLifecycle.cancelled) : c'.enqueued = c.enqueued := by
  cases h
  case closing => rfl
  case cancelled => rfl
  case refused hq => cases hq; rfl
  case started hq _ => exact absurd hm hq.uncancelled
  case withdrawn hq _ => exact absurd hm hq.uncancelled

theorem removeRequest_drains (c : MqttConnection) (key : Bytes) :
    ∃ r c', removeRequest key c = .ok r c' ∧ c.roster.Drained [key] c'.roster := by
  cases hl : c.pendingRequests.lookup key
  case none =>
    refine ⟨none, c, removeRequest_of_none hl, rfl, fun _ => id, fun _ => id, ?_⟩
    rw [List.forall_mem_singleton]
    exact roster_pending_eq_none.mpr hl
  case some pending =>
    refine ⟨some pending, _, removeRequest_of_some hl, ?_⟩
    rw [roster_withoutRequest]
    exact .free _ _

-- All requests that have been admitted and then cancelled are dropped.
theorem drainCancellations_drains (c : MqttConnection) :
    ∃ c', drainCancellations c = .ok () c' ∧ c'.roster.queued = c.roster.queued ∧
      ∀ key ∈ c'.requestLifecycle.cancelled, c'.roster.pending key = none := by
  have hd (keys : List Bytes) (c : MqttConnection) : ∃ c',
      (keys.forM fun key => discard (removeRequest key)) c = .ok () c' ∧
        c.roster.Drained keys c'.roster := by
    induction keys generalizing c
    case nil => exact ⟨c, rfl, rfl, fun _ => id, fun _ => id, nofun⟩
    case cons key keys ih =>
      obtain ⟨r, c₁, h₁, hd₁⟩ := removeRequest_drains c key
      obtain ⟨c', h', hd'⟩ := ih c₁
      exact ⟨c', (EStateM.bind_ok (EStateM.discard_ok h₁)).trans h', hd₁.trans hd'⟩
  obtain ⟨c', h', hd⟩ := hd (c.requestLifecycle.cancelled.filter (· ∈ c.pendingRequests)) c
  refine ⟨c', h', hd.queued, fun key hm => ?_⟩
  by_cases hk : key ∈ c.pendingRequests
  case pos => exact hd.drained key (List.mem_filter.mpr ⟨hd.cancelled hm, decide_eq_true hk⟩)
  case neg => exact hd.absent key (roster_pending_eq_none.mpr (AList.lookup_eq_none.mpr hk))

end MqttConnection

namespace Driver

open MqttConnection

variable {driver driver' : Driver}

theorem proceeds_silent (h : driver.connection.Silent key) (hp : Proceeds driver input driver')
    (hn : ∀ request, driver.connection.roster.queued = request :: driver'.connection.roster.queued →
      request.correlationData = key → key ∈ driver.connection.requestLifecycle.cancelled) :
    driver'.connection.Silent key := by
  cases hp
  case course hc => exact h.courses hc
  case request rest request result c' c _ _ _ hq ht =>
    have hd : (c.dequeued (.request request result) rest).Silent key := ⟨h.absent, h.enqueued⟩
    have hr : c'.roster.queued = rest.filterMap (·.future?) := ht.roster.queued
    refine hd.takesUp (fun he => hn ⟨_, result⟩ ?_ he) ht
    rw [hr, roster, hq]
    rfl
  case arrives packet reader c next _ =>
    have h' : (c.arrived reader packet).Silent key := ⟨h.absent, h.enqueued⟩
    rw [perform_connection]
    rcases dispatchPacket_cases (c.arrived reader packet) packet with ⟨_, c', _, hx, he⟩ | hd
    case inl =>
      rw [hx]
      exact h'.ends he
    case inr => exact h'.courses (dispatchPacket_course hd)
  case ends he => exact h.ends he
  case outside ho => exact h.outside ho

theorem submit_silent (h : driver.step (.submit command) = some driver')
    (hs : driver.connection.Silent key) : driver'.connection.Silent key := by
  replace h := step_does h
  cases h
  case outside ho => exact hs.outside ho

-- At most the first of the requests in the channel is taken up.
theorem queued_step (hi : Scene.ofFuture input = false) (h : driver.step input = some driver') :
    driver'.connection.roster.queued = driver.connection.roster.queued ∨
      ∃ request, driver.connection.roster.queued = request :: driver'.connection.roster.queued := by
  rcases roster_of_step hi h with hf | ⟨request, rest, hq, hk⟩
  case inl => exact .inl (Roster.queued_of_frees hf)
  case inr =>
    refine .inr ⟨request, ?_⟩
    rw [hk.queued, Roster.pop, hq]
    rfl

-- A driver that has returned takes no request up.
theorem running_of_pop (hi : Scene.ofFuture input = false) (h : driver.step input = some driver')
    (hq : driver.connection.roster.queued = request :: driver'.connection.roster.queued) :
    driver.halted = false := by
  by_contra hh
  obtain ⟨result, hp⟩ := halted_iff.mp (Bool.eq_true_of_not_eq_false hh)
  rcases (step_does h).of_not_running (by rw [hp]; rfl) with ⟨_, hs, _⟩ | ⟨_, ho⟩
  case inl => rw [hp] at hs; cases hs
  case inr =>
    rw [ho.roster hi] at hq
    exact List.cons_ne_self _ _ hq.symm

-- Only the step that takes a request up removes it from the channel.
theorem proceeds_enqueued (hi : Scene.ofFuture input = false) (hp : Proceeds driver input driver')
    (hc : request.correlationData ∈ driver.connection.requestLifecycle.cancelled)
    (hm : request ∈ driver.connection.roster.queued)
    (hn : request ∉ driver'.connection.roster.queued) :
    driver'.connection.enqueued = driver.connection.enqueued := by
  cases hp
  case course hc' => exact absurd (Roster.queued_of_frees (roster_of_course hc') ▸ hm) hn
  case request rest command result c' c _ _ _ hq ht =>
    have hr : c'.roster.queued = rest.filterMap (·.future?) := ht.roster.queued
    rw [roster, hq] at hm
    cases List.mem_cons.mp hm
    case inl he => subst he; exact ht.enqueued hc
    case inr hm => exact absurd (hr ▸ hm) hn
  case arrives packet reader c next _ =>
    rw [perform_connection, Roster.queued_of_frees (dispatchPacket_roster ..)] at hn
    exact absurd hm hn
  case ends he => exact absurd (Roster.queued_of_frees he.roster ▸ hm) hn
  case outside ho => exact absurd (ho.roster hi ▸ hm) hn

end Driver

namespace Scene

variable {scene scene' : Scene} {limit : Nat}

-- Nobody has registered the same correlation data before.
def Fresh (scene : Scene) : Action → Prop
  | .request command _ =>
    ∀ request ∈ scene.registered, request.correlationData ≠ command.correlationData
  | .driver _ | .finish _ | .cancel _ => True

instance : (scene : Scene) → (action : Action) → Decidable (scene.Fresh action)
  | scene, .request command _ => inferInstanceAs
    (Decidable (∀ request ∈ scene.registered, request.correlationData ≠ command.correlationData))
  | _, .driver _ | _, .finish _ | _, .cancel _ => .isTrue trivial

-- The command of the request is in the channel.
def Queued (scene : Scene) (request : RequestFuture) : Prop :=
  request ∈ scene.driver.connection.commands.filterMap (·.future?)

theorem queued_iff : scene.Queued request ↔ request ∈ scene.driver.connection.roster.queued :=
  .rfl

structure Accounted (limit : Nat) (scene : Scene) : Prop where
  tidy : scene.Tidy limit
  rooted : scene.driver.connection.roster.Rooted
  single : ∀ request ∈ scene.registered,
    scene.registrant request.correlationData = some request
  silent : ∀ key, (∀ request ∈ scene.registered, request.correlationData = key →
    scene.Queued request) → scene.driver.connection.Silent key

theorem mem_registered (h : scene.registrant key = some request) :
    request ∈ scene.registered ∧ request.correlationData = key :=
  ⟨List.mem_of_find?_eq_some h, by simpa using List.find?_some h⟩

namespace Accounted

theorem unique (h : scene.Accounted limit) (hm : request ∈ scene.registered)
    (hm' : request' ∈ scene.registered)
    (he : request.correlationData = request'.correlationData) : request = request' := by
  have hr := h.single request hm
  rw [he, h.single request' hm'] at hr
  exact (Option.some.inj hr).symm

theorem registered (h : scene.Accounted limit) (hh : scene.driver.connection.roster.holds request) :
    request ∈ scene.registered :=
  (mem_registered (h.tidy.known request hh)).left

theorem unshared (h : scene.Accounted limit) (hf : scene.Fresh action) : scene.Unshared action := by
  cases action
  case request command result =>
    exact fun future hm => hf future (mem_registered (h.tidy.alive future hm)).left
  all_goals trivial

theorem step (h : scene.Accounted limit) (hf : scene.Fresh action)
    (hc : scene.driver.connection.closing = false) (hs : scene.step action = some scene') :
    scene'.Accounted limit := by
  have ht := h.tidy.step (h.unshared hf) hs
  cases action
  case driver input =>
    obtain ⟨hi, hs⟩ := Option.ite_none_left_eq_some.mp hs
    obtain ⟨driver', hd, hs⟩ := Option.map_eq_some_iff.mp hs
    cases hs
    have hr := Driver.roster_of_step (Bool.eq_false_of_not_eq_true hi) hd
    refine ⟨ht, ?_, h.single, fun key hk => ?_⟩
    case refine_1 =>
      rcases hr with hf | ⟨_, _, hq, hk⟩
      case inl =>
        exact (hf.preserves (P := fun roster => roster.Tidy limit scene.crew ∧ roster.Rooted)
          (fun _ _ hf h => ⟨h.left.frees hf, h.right.frees h.left hf⟩) ⟨h.tidy, h.rooted⟩).right
      case inr => exact h.rooted.takes h.tidy hq (hc ▸ hk)
    case refine_2 =>
      have hq' := Driver.queued_step (Bool.eq_false_of_not_eq_true hi) hd
      have hm (request) (hm : request ∈ driver'.connection.roster.queued) : scene.Queued request := by
        rw [queued_iff]
        rcases hq' with hq' | ⟨_, hq'⟩
        case inl => exact hq' ▸ hm
        case inr => rw [hq']; exact List.mem_cons_of_mem _ hm
      have hs := h.silent key fun request hr he => hm request (hk request hr he)
      refine Driver.proceeds_silent hs (Driver.step_does hd).proceeds fun first hq he => ?_
      -- The request is still in the channel, so it is not the one that has been taken up.
      have hf : first ∈ driver'.connection.roster.queued :=
        hk first (h.registered (.inl (hq ▸ List.mem_cons_self))) he
      exact absurd hf (List.nodup_cons.mp (hq ▸ h.tidy.once)).left
  case request command result =>
    obtain ⟨driver', hd, hs⟩ := Option.map_eq_some_iff.mp hs
    cases hs
    obtain ⟨hh, _, lifecycle, hr, he⟩ := Driver.submit_request hd
    obtain ⟨_, hm, rfl⟩ := RequestLifecycle.register_eq_ok hr
    refine ⟨ht, fun key hk => ?_, fun request hm => ?_, fun key hk => ?_⟩
    case refine_1 =>
      rw [he] at hk ⊢
      cases List.mem_insert_iff.mp hk
      case inl he => exact ⟨⟨key, result⟩, rfl, .inl (by simp [he])⟩
      case inr hk =>
        obtain ⟨request, rfl, hh⟩ := h.rooted key hk
        exact ⟨request, rfl, hh.imp (List.mem_append_left _) id⟩
    case refine_2 =>
      cases List.mem_cons.mp hm
      case inl he => rw [he]; simp [registrant]
      case inr hm =>
        refine Eq.trans ?_ (h.single request hm)
        simp [registrant, (hf request hm).symm]
    case refine_3 =>
      have hs : scene.driver.connection.Silent key := h.silent key fun request hm hk' => by
        have hq := hk request (List.mem_cons_of_mem _ hm) hk'
        rw [queued_iff, he] at hq
        refine (List.mem_append.mp hq).resolve_right fun hq => hf request hm ?_
        rw [List.mem_singleton.mp hq]
      exact Driver.submit_silent hd hs
  case finish future =>
    obtain ⟨_, hs⟩ := Option.ite_none_right_eq_some.mp hs
    cases hs
    refine ⟨ht, fun key hk => ?_, h.single, fun key hk => ?_⟩
    case refine_1 => exact h.rooted key (List.mem_of_mem_erase hk)
    case refine_2 => exact ⟨(h.silent key hk).absent, (h.silent key hk).enqueued⟩
  case cancel future =>
    obtain ⟨_, hs⟩ := Option.ite_none_right_eq_some.mp hs
    cases hs
    refine ⟨ht, fun key hk => h.rooted key ?_, h.single, fun key hk => ?_⟩
    case refine_1 => exact RequestLifecycle.cancel_active .. ▸ hk
    case refine_2 => exact ⟨(h.silent key hk).absent, (h.silent key hk).enqueued⟩

theorem marked (h : scene.Accounted limit) (hm : request ∈ scene.registered)
    (hd : request ∉ scene.futures) (hh : scene.driver.connection.roster.holds request)
    (hr : scene.driver.halted = false) :
    request.correlationData ∈ scene.driver.connection.requestLifecycle.cancelled := by
  refine h.tidy.marked request (h.single request hm) ?_ hd
  refine (h.tidy.held request hh).resolve_right fun hn => ?_
  rw [crew, hr] at hn
  cases hn.right

end Accounted

-- Nothing is left of the request.
structure Gone (scene : Scene) (request : RequestFuture) : Prop where
  pending : request.correlationData ∉ scene.driver.connection.pendingRequests
  active : request.correlationData ∉ scene.driver.connection.requestLifecycle.active
  cancelled : request.correlationData ∉ scene.driver.connection.requestLifecycle.cancelled

theorem gone_of_roster (h : scene.Accounted limit)
    (hg : scene.driver.connection.roster.Gone request.correlationData) : scene.Gone request where
  pending := AList.lookup_eq_none.mp (MqttConnection.roster_pending_eq_none.mp hg.pending)
  active := hg.active
  cancelled hm := hg.active (h.tidy.bounded.subset hm)

theorem registered_step (hs : scene.step action = some scene') (hm : request ∈ scene.registered) :
    request ∈ scene'.registered := by
  cases action
  case driver =>
    obtain ⟨_, hs⟩ := Option.ite_none_left_eq_some.mp hs
    obtain ⟨_, _, hs⟩ := Option.map_eq_some_iff.mp hs
    cases hs
    exact hm
  case request =>
    obtain ⟨_, _, hs⟩ := Option.map_eq_some_iff.mp hs
    cases hs
    exact List.mem_cons_of_mem _ hm
  case finish | cancel =>
    obtain ⟨_, hs⟩ := Option.ite_none_right_eq_some.mp hs
    cases hs
    exact hm

theorem gone_step (hg : scene.driver.connection.roster.Gone request.correlationData)
    (hm : request ∈ scene.registered) (hf : scene.Fresh action)
    (hs : scene.step action = some scene') :
    scene'.driver.connection.roster.Gone request.correlationData := by
  cases action
  case driver input =>
    obtain ⟨hi, hs⟩ := Option.ite_none_left_eq_some.mp hs
    obtain ⟨driver', hd, hs⟩ := Option.map_eq_some_iff.mp hs
    cases hs
    rcases Driver.roster_of_step (Bool.eq_false_of_not_eq_true hi) hd with hf | ⟨_, _, hq, hk⟩
    case inl => exact hf.preserves (fun _ _ hf h => h.frees hf) hg
    case inr => exact hg.takes hq hk
  case request command result =>
    obtain ⟨driver', hd, hs⟩ := Option.map_eq_some_iff.mp hs
    cases hs
    obtain ⟨_, _, lifecycle, hr, he⟩ := Driver.submit_request hd
    obtain ⟨_, _, rfl⟩ := RequestLifecycle.register_eq_ok hr
    have hn := hf request hm
    rw [he]
    refine ⟨fun future hq => ?_, hg.pending, fun ha => ?_⟩
    case refine_1 =>
      cases List.mem_append.mp hq
      case inl hq => exact hg.queued future hq
      case inr hq => rw [List.mem_singleton.mp hq]; exact hn.symm
    case refine_2 =>
      cases List.mem_insert_iff.mp ha
      case inl he => exact hn he
      case inr ha => exact hg.active ha
  case finish =>
    obtain ⟨_, hs⟩ := Option.ite_none_right_eq_some.mp hs
    cases hs
    exact ⟨hg.queued, hg.pending, fun ha => hg.active (List.mem_of_mem_erase ha)⟩
  case cancel =>
    obtain ⟨_, hs⟩ := Option.ite_none_right_eq_some.mp hs
    cases hs
    exact ⟨hg.queued, hg.pending, fun ha => hg.active (RequestLifecycle.cancel_active .. ▸ ha)⟩

-- A request whose future has been dropped before the request was taken up
structure Doomed (scene : Scene) (request : RequestFuture) : Prop where
  registered : request ∈ scene.registered
  dropped : request ∉ scene.futures
  silent : scene.driver.connection.Silent request.correlationData
  left : scene.Queued request ∨ scene.driver.connection.roster.Gone request.correlationData

theorem Accounted.doomed (h : scene.Accounted limit) (hm : request ∈ scene.registered)
    (hd : request ∉ scene.futures) (hq : scene.Queued request) : scene.Doomed request := by
  refine ⟨hm, hd, h.silent _ fun request' hm' he => ?_, .inl hq⟩
  rwa [h.unique hm' hm he]

theorem Doomed.step (h : scene.Doomed request) (ha : scene.Accounted limit)
    (hf : scene.Fresh action) (hc : scene.driver.connection.closing = false)
    (hs : scene.step action = some scene') : scene'.Doomed request := by
  have hm := registered_step hs h.registered
  have hg (hg : scene.driver.connection.roster.Gone request.correlationData) :=
    gone_step hg h.registered hf hs
  cases action
  case driver input =>
    obtain ⟨hi, hs⟩ := Option.ite_none_left_eq_some.mp hs
    obtain ⟨driver', hd, hs⟩ := Option.map_eq_some_iff.mp hs
    cases hs
    have hi := Bool.eq_false_of_not_eq_true hi
    -- The request itself is taken up.
    have hc' (hq : scene.driver.connection.roster.queued = request :: driver'.connection.roster.queued) :
        request.correlationData ∈ scene.driver.connection.requestLifecycle.cancelled :=
      ha.marked h.registered h.dropped (.inl (hq ▸ List.mem_cons_self))
        (Driver.running_of_pop hi hd hq)
    refine ⟨hm, h.dropped, ?_, h.left.elim (fun hq => ?_) fun hg' => .inr (hg hg')⟩
    case refine_1 =>
      refine Driver.proceeds_silent h.silent (Driver.step_does hd).proceeds fun first hq he => ?_
      have hf : first ∈ scene.driver.connection.roster.queued := hq ▸ List.mem_cons_self
      obtain rfl := ha.unique (ha.registered (.inl hf)) h.registered he
      exact hc' hq
    case refine_2 =>
      rcases Driver.roster_of_step hi hd with hf | ⟨first, rest, hq', hk⟩
      case inl => exact .inl (queued_iff.mpr (Roster.queued_of_frees hf ▸ queued_iff.mp hq))
      case inr =>
        have hr : driver'.connection.roster.queued = rest := by rw [hk.queued, Roster.pop, hq']; rfl
        rw [queued_iff, hq'] at hq
        cases List.mem_cons.mp hq
        case inl he =>
          subst he
          exact .inr (.of_takes ha.tidy hq' (hc' (hr ▸ hq')) (hc ▸ hk))
        case inr hm => exact .inl (queued_iff.mpr (hr ▸ hm))
  case request command result =>
    obtain ⟨driver', hd, hs⟩ := Option.map_eq_some_iff.mp hs
    cases hs
    obtain ⟨_, _, lifecycle, _, he⟩ := Driver.submit_request hd
    refine ⟨hm, fun hm' => ?_, Driver.submit_silent hd h.silent, h.left.imp (fun hq => ?_) hg⟩
    case refine_1 =>
      cases List.mem_cons.mp hm'
      case inl he => exact hf request h.registered (congrArg _ he)
      case inr hm' => exact h.dropped hm'
    case refine_2 =>
      rw [queued_iff, he]
      exact List.mem_append_left _ hq
  case finish | cancel =>
    obtain ⟨_, hs⟩ := Option.ite_none_right_eq_some.mp hs
    cases hs
    exact ⟨hm, fun hm' => h.dropped (List.mem_of_mem_erase hm'), ⟨h.silent.absent, h.silent.enqueued⟩,
      h.left.imp id hg⟩

-- The driver looks for requests that have been cancelled.
theorem Accounted.drains (h : scene.Accounted limit) (hp : scene.driver.phase = .drainCancellations)
    (hc : scene.driver.connection.closing = false) (hs : scene.step (.driver .proceed) = some scene')
    (hm : request ∈ scene.registered) (hd : request ∉ scene.futures) (hq : ¬scene.Queued request) :
    scene'.Accounted limit ∧ scene'.driver.connection.roster.Gone request.correlationData := by
  have h' := h.step (by trivial) hc hs
  have hm' := registered_step hs hm
  obtain ⟨driver', hd', hs⟩ := Option.map_eq_some_iff.mp hs
  cases hs
  obtain ⟨c', hx, hq', hn⟩ :=
    MqttConnection.drainCancellations_drains scene.driver.connection
  have he : driver' = ⟨c', .drainCommands c'.maxPendingOperations⟩ := by
    rw [Driver.step, Driver.proceed.eq_def, hp] at hd'
    dsimp only at hd'
    rw [Driver.perform_ok hx] at hd'
    exact (Option.some.inj hd').symm
  subst he
  have hnq (request') (hr : request' ∈ c'.roster.queued) :
      request'.correlationData ≠ request.correlationData := by
    intro he
    obtain rfl := h'.unique (h'.registered (.inl hr)) hm' he
    exact hq (queued_iff.mpr (hq' ▸ hr))
  -- Whoever is held with the same correlation data is the request itself.
  have hu (request') (hh : c'.roster.holds request')
      (he : request'.correlationData = request.correlationData) : request' = request :=
    h'.unique (h'.registered hh) hm' he
  have hnp : c'.roster.pending request.correlationData = none := by
    cases hr : c'.roster.pending request.correlationData
    case none => rfl
    case some result =>
      have hh : c'.roster.holds ⟨request.correlationData, result⟩ := .inr hr
      rw [hu _ hh rfl] at hh
      have hk := h'.marked hm' hd hh rfl
      rw [hn _ hk] at hr
      cases hr
  refine ⟨h', hnq, hnp, fun ha => ?_⟩
  obtain ⟨request', he, hh⟩ := h'.rooted _ ha
  cases hh
  case inl hr => exact hnq request' hr he
  case inr hr =>
    rw [he] at hr
    cases hr.symm.trans hnp

-- Correlation data are not used twice, and the driver is not closing.
def Regular (scene : Scene) (action : Action) : Prop :=
  scene.Fresh action ∧ scene.driver.connection.closing = false

instance (scene : Scene) (action : Action) : Decidable (scene.Regular action) :=
  inferInstanceAs (Decidable (_ ∧ _))

theorem start_accounted (options connack clock) :
    (start options connack clock).Accounted options.commandCapacity where
  tidy := start_tidy options connack clock
  rooted := nofun
  single := nofun
  silent _ _ := ⟨rfl, nofun⟩

theorem run_accounted (ha : scene.Accounted limit)
    (h : Machine.run step scene actions = some scene')
    (hc : Machine.Throughout step scene actions Regular) : scene'.Accounted limit :=
  Machine.run_preserves_if (P := Accounted limit) (C := Regular)
    (fun _ _ _ _ _ h hc hs => h.step hc.left hc.right hs) ha hc h

theorem run_doomed (ha : scene.Accounted limit) (hd : scene.Doomed request)
    (h : Machine.run step scene actions = some scene')
    (hc : Machine.Throughout step scene actions Regular) : scene'.Doomed request :=
  (Machine.run_preserves_if (P := fun scene => scene.Accounted limit ∧ scene.Doomed request)
    (C := Regular) (fun _ _ _ _ _ h hc hs =>
      ⟨h.left.step hc.left hc.right hs, h.right.step h.left hc.left hc.right hs⟩) ⟨ha, hd⟩ hc h).right

theorem registrations_released (options : ConnectOptions) (connack : ConnAckPacket) (clock : Clock)
    (actions : List Action) (scene : Scene)
    (h : Machine.run step (start options connack clock) actions = some scene)
    (hc : Machine.Throughout step (start options connack clock) actions Regular) :
    (∀ key ∈ scene.driver.connection.requestLifecycle.active, ∃ request ∈ scene.registered,
      request.correlationData = key ∧
        (scene.driver.connection.retains request = true ∨ request ∈ scene.futures)) ∧
    ∀ request ∈ scene.registered, request ∉ scene.futures →
      (scene.Queued request → ∀ actions' scene₁, Machine.run step scene actions' = some scene₁ →
        Machine.Throughout step scene actions' Regular →
          (∀ frame ∈ scene₁.driver.connection.enqueued,
            frame.requestCorrelation ≠ some request.correlationData) ∧
          ∀ action scene₂, scene₁.step action = some scene₂ → scene₁.Queued request →
            ¬scene₂.Queued request →
              scene₂.driver.connection.enqueued = scene₁.driver.connection.enqueued) ∧
      (¬scene.Queued request → scene.driver.phase = .drainCancellations →
        scene.driver.connection.closing = false →
          ∀ scene', scene.step (.driver .proceed) = some scene' →
            ∀ actions' scene₁, Machine.run step scene' actions' = some scene₁ →
              Machine.Throughout step scene' actions' Regular → scene₁.Gone request) := by
  have ha := run_accounted (start_accounted options connack clock) h hc
  refine ⟨fun key hk => ?_, fun request hm hd =>
    ⟨fun hq actions' scene₁ h₁ hc₁ => ?_, fun hq hp hn scene' hs actions' scene₁ h₁ hc₁ => ?_⟩⟩
  case refine_1 =>
    obtain ⟨request, rfl, hh⟩ := ha.rooted key hk
    exact ⟨request, ha.registered hh, rfl, .inl ((MqttConnection.retains_iff ..).mpr hh)⟩
  case refine_2 =>
    have ha₁ := run_accounted ha h₁ hc₁
    have hd₁ := run_doomed ha (ha.doomed hm hd hq) h₁ hc₁
    refine ⟨hd₁.silent.enqueued, fun action scene₂ hs hq₁ hq₂ => ?_⟩
    cases action
    case driver input =>
      obtain ⟨hi, hs⟩ := Option.ite_none_left_eq_some.mp hs
      obtain ⟨driver', hd', hs⟩ := Option.map_eq_some_iff.mp hs
      cases hs
      have hi := Bool.eq_false_of_not_eq_true hi
      have hr : scene₁.driver.halted = false := by
        rcases Driver.queued_step hi hd' with hq' | ⟨first, hq'⟩
        case inl => exact absurd (queued_iff.mpr (hq' ▸ queued_iff.mp hq₁)) hq₂
        case inr => exact Driver.running_of_pop hi hd' hq'
      have hk := ha₁.marked hd₁.registered hd₁.dropped (.inl hq₁) hr
      exact Driver.proceeds_enqueued hi (Driver.step_does hd').proceeds hk hq₁ hq₂
    case request =>
      obtain ⟨driver', hd', hs⟩ := Option.map_eq_some_iff.mp hs
      cases hs
      obtain ⟨_, _, _, _, he⟩ := Driver.submit_request hd'
      refine absurd ?_ hq₂
      rw [queued_iff, he]
      exact List.mem_append_left _ hq₁
    case finish | cancel =>
      obtain ⟨_, hs⟩ := Option.ite_none_right_eq_some.mp hs
      cases hs
      exact absurd hq₁ hq₂
  case refine_3 =>
    obtain ⟨ha', hg⟩ := ha.drains hp hn hs hm hd hq
    have hg₁ := Machine.run_preserves_if (C := Regular)
      (P := fun scene => scene.Accounted options.commandCapacity ∧ request ∈ scene.registered ∧
        scene.driver.connection.roster.Gone request.correlationData)
      (fun _ _ _ _ _ h hc hs => ⟨h.left.step hc.left hc.right hs, registered_step hs h.right.left,
        gone_step h.right.right h.right.left hc.left hs⟩) ⟨ha', registered_step hs hm, hg⟩ hc₁ h₁
    exact gone_of_roster hg₁.left hg₁.right.right

-- A request is published, its future is dropped, and the driver comes round again.
def abandoning : List Action :=
  [.request (searchRequest "q") 0, .driver .proceed, .driver .proceed, .cancel ⟨[7], 0⟩,
    .driver .proceed, .driver .proceed, .driver (.written (.ok 9)), .driver .proceed,
    .driver (.flushed (.ok ())), .driver (.read (.error { kind := .wouldBlock })), .driver .proceed,
    .driver .proceed, .driver .proceed, .driver .proceed, .driver .proceed, .driver .proceed,
    .driver .proceed, .driver .elapsed]

theorem registrations_released_abandoning :
    ∃ scene scene' : Scene, Machine.run step (start Driver.plainOptions Driver.plainConnack
        Driver.stillClock) abandoning = some scene ∧
      [7] ∈ scene.driver.connection.pendingRequests ∧
      scene.step (.driver .proceed) = some scene' ∧ scene'.Gone ⟨[7], 0⟩ := by
  obtain ⟨scene, hr, hk, hp, hc, hm, hf, hq, hs⟩ := Machine.exists_run step
    (start Driver.plainOptions Driver.plainConnack Driver.stillClock) abandoning
    (fun scene => [7] ∈ scene.driver.connection.pendingRequests ∧
      scene.driver.phase = .drainCancellations ∧ scene.driver.connection.closing = false ∧
      ⟨[7], 0⟩ ∈ scene.registered ∧ ⟨[7], 0⟩ ∉ scene.futures ∧
      ⟨[7], 0⟩ ∉ scene.driver.connection.commands.filterMap (·.future?) ∧
      (scene.step (.driver .proceed)).isSome) (by decide +kernel)
  obtain ⟨scene', hs⟩ := Option.isSome_iff_exists.mp hs
  have hg := (registrations_released _ _ _ abandoning scene hr (by decide +kernel)).right _ hm hf
  exact ⟨scene, scene', hr, hk, hs,
    hg.right hq hp hc scene' hs [] scene' rfl (Machine.throughout_nil step scene' Regular)⟩

end Scene
end MqttWasi
