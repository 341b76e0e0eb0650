import MqttWasi.Driver.Theorems.Bounds
import MqttWasi.Driver.Theorems.Roster

-- Requests that share correlation data: as long as nobody registers correlation data again whose
-- last future is still alive, no future interferes with the request of another.

namespace MqttWasi

-- The futures that are alive, whose request was the last to be registered under some correlation
-- data, who was the last to cancel it, and whether the driver has returned.
structure Crew where
  futures : List RequestFuture
  owner : Bytes → Option RequestFuture
  canceller : Bytes → Option RequestFuture
  halted : Bool

namespace Crew

def join (crew : Crew) (future : RequestFuture) : Crew :=
  { crew with
    futures := future :: crew.futures
    owner := Function.update crew.owner future.correlationData (some future) }

theorem join_self (crew : Crew) (future) :
    (crew.join future).owner future.correlationData = some future :=
  Function.update_self ..

theorem join_ne (crew : Crew) (h : key ≠ future.correlationData) :
    (crew.join future).owner key = crew.owner key :=
  Function.update_of_ne h ..

def leave (crew : Crew) (future : RequestFuture) : Crew :=
  { crew with futures := crew.futures.erase future }

def mark (crew : Crew) (future : RequestFuture) : Crew :=
  { crew with
    canceller := Function.update crew.canceller future.correlationData (some future) }

end Crew

namespace Roster

open Relation (ReflTransGen)

theorem holds_of_enroll {roster : Roster} (hq : roster.queued = future :: rest)
    (hf : (roster.pop.enroll future).holds future') : roster.holds future' := by
  cases hf
  case inl hm => exact .inl (List.mem_of_mem_tail hm)
  case inr hm =>
    by_cases he : future'.correlationData = future.correlationData
    case pos =>
      rw [he, enroll_self, Option.some.injEq] at hm
      obtain ⟨_, _⟩ := future'
      cases he
      cases hm
      exact .inl (hq ▸ List.mem_cons_self)
    case neg =>
      rw [enroll_ne _ he] at hm
      exact .inr hm

-- What is registered and cancelled belongs to those who were the last to do so.
structure Tidy (limit : Nat) (crew : Crew) (roster : Roster) : Prop where
  bounded : roster.lifecycle.Bounded limit
  once : roster.queued.Nodup
  apart : ∀ future ∈ roster.queued, roster.pending future.correlationData = none
  known : ∀ future, roster.holds future → crew.owner future.correlationData = some future
  held : ∀ future, roster.holds future → future.correlationData ∈ roster.lifecycle.active ∨
    (future ∉ crew.futures ∧ crew.halted = true)
  single : crew.futures.Nodup
  alive : ∀ future ∈ crew.futures, crew.owner future.correlationData = some future
  marked : ∀ future, crew.owner future.correlationData = some future →
    future.correlationData ∈ roster.lifecycle.active → future ∉ crew.futures →
      future.correlationData ∈ roster.lifecycle.cancelled
  cancelled : ∀ future, crew.owner future.correlationData = some future →
    future.correlationData ∈ roster.lifecycle.cancelled →
      crew.canceller future.correlationData = some future ∧ future ∉ crew.futures

namespace Tidy

variable {limit : Nat} {crew : Crew} {roster roster' : Roster}

theorem unique (h : roster.Tidy limit crew) (hf : roster.holds future) (hf' : roster.holds future')
    (he : future.correlationData = future'.correlationData) : future = future' := by
  have hk := h.known future hf
  rw [he, h.known future' hf'] at hk
  cases hk
  rfl

theorem fewer (h : roster.Tidy limit crew) (hq : roster'.queued.Sublist roster.queued)
    (hp : ∀ key result, roster'.pending key = some result → roster.pending key = some result)
    (hl : roster'.lifecycle = roster.lifecycle) : roster'.Tidy limit crew := by
  have hh (future : RequestFuture) (hf : roster'.holds future) : roster.holds future :=
    hf.imp (hq.subset ·) (hp _ _)
  refine ⟨hl ▸ h.bounded, hq.nodup h.once, fun future hm => ?_, fun future hf => ?_,
    fun future hf => ?_, h.single, h.alive, hl ▸ h.marked, hl ▸ h.cancelled⟩
  case refine_1 =>
    cases hr : roster'.pending future.correlationData
    case none => rfl
    case some result =>
      have hn := h.apart future (hq.subset hm)
      rw [hp _ _ hr] at hn
      cases hn
  case refine_2 => exact h.known future (hh future hf)
  case refine_3 => exact hl ▸ h.held future (hh future hf)

-- The slot of a request that is not held any more is free again.
theorem release (h : roster.Tidy limit crew) (correlationData : Bytes)
    (hn : ∀ future, roster.holds future → future.correlationData ≠ correlationData) :
    (roster.release correlationData).Tidy limit crew where
  bounded := h.bounded.finish correlationData
  once := h.once
  apart := h.apart
  known := h.known
  held future hf :=
    (h.held future hf).imp_left fun hm => h.bounded.mem_active_finish.mpr ⟨hn future hf, hm⟩
  single := h.single
  alive := h.alive
  marked future ho ha hn := by
    obtain ⟨he, ha⟩ := h.bounded.mem_active_finish.mp ha
    exact h.bounded.mem_cancelled_finish.mpr ⟨he, h.marked future ho ha hn⟩
  cancelled future ho hc :=
    h.cancelled future ho (h.bounded.mem_cancelled_finish.mp hc).right

theorem frees (h : roster.Tidy limit crew) (hf : Frees roster roster') : roster'.Tidy limit crew := by
  cases hf
  case mk result correlationData hp =>
    have hd : ({ roster with pending := Function.update roster.pending correlationData none } :
        Roster).Tidy limit crew := by
      refine h.fewer (List.Sublist.refl _) (fun key result hr => ?_) rfl
      by_cases he : key = correlationData
      case pos => subst he; simp at hr
      case neg => simpa [Function.update_of_ne he] using hr
    refine hd.release correlationData fun future hf he => ?_
    cases hf
    case inl hq =>
      have hn := h.apart future hq
      rw [he, hp] at hn
      cases hn
    case inr hr =>
      rw [he] at hr
      simp at hr

-- Nobody else is held with the correlation data of the request that is taken up.
theorem pop_ne (h : roster.Tidy limit crew) (hq : roster.queued = future :: rest)
    (hf : roster.pop.holds future') :
    future'.correlationData ≠ future.correlationData := by
  intro he
  cases hf
  case inl hm =>
    rw [pop, hq] at hm
    obtain rfl := h.unique (.inl (hq ▸ List.mem_cons_of_mem _ hm)) (.inl (hq ▸ List.mem_cons_self)) he
    exact (List.nodup_cons.mp (hq ▸ h.once)).left hm
  case inr hm =>
    rw [he] at hm
    cases hm.symm.trans (h.apart future (hq ▸ List.mem_cons_self))

theorem pop (h : roster.Tidy limit crew) : roster.pop.Tidy limit crew :=
  h.fewer (List.tail_sublist _) (fun _ _ => id) rfl

theorem enroll (h : roster.Tidy limit crew) (hq : roster.queued = future :: rest) :
    (roster.pop.enroll future).Tidy limit crew := by
  have hp := h.pop
  refine ⟨h.bounded, hp.once, fun future' hm => ?_, fun future' hf => h.known _ ?_,
    fun future' hf => h.held _ ?_, h.single, h.alive, h.marked, h.cancelled⟩
  case refine_1 =>
    rw [enroll_ne _ (h.pop_ne hq (.inl hm))]
    exact hp.apart future' hm
  all_goals exact holds_of_enroll hq hf

-- The first of the requests is taken up.
theorem takes (h : roster.Tidy limit crew) (hq : roster.queued = future :: rest)
    (ht : roster.pop.Takes closing future roster') : roster'.Tidy limit crew := by
  cases ht
  case closing => exact h.pop
  case released => exact h.pop.release _ fun _ hf => h.pop_ne hq hf
  case admitted hm => exact hm.preserves (fun _ _ hf h => h.frees hf) (h.enroll hq)

-- What the futures do.

theorem join {lifecycle : RequestLifecycle} (h : roster.Tidy limit crew) (hh : crew.halted = false)
    (hr : roster.lifecycle.register future.correlationData = .ok lifecycle)
    (hn : ∀ future' ∈ crew.futures, future'.correlationData ≠ future.correlationData) :
    ({ roster with queued := roster.queued ++ [future], lifecycle } : Roster).Tidy limit
      (crew.join future) := by
  have hl := h.bounded.register hr
  obtain ⟨_, ha, rfl⟩ := RequestLifecycle.register_eq_ok hr
  -- Nobody is held with this correlation data yet.
  have hu (future') (hf : roster.holds future') :
      future'.correlationData ≠ future.correlationData := by
    intro he
    rcases h.held future' hf with hm | ⟨_, hm⟩
    case inl => exact ha (he ▸ hm)
    case inr => rw [hh] at hm; cases hm
  -- Who is held now
  have hc (future') (hf : ({ roster with
      queued := roster.queued ++ [future]
      lifecycle := { roster.lifecycle with
                     active := roster.lifecycle.active.insert future.correlationData } } :
      Roster).holds future') : roster.holds future' ∨ future' = future := by
    cases hf
    case inl hm => exact (List.mem_append.mp hm).imp .inl List.mem_singleton.mp
    case inr hp => exact .inl (.inr hp)
  have hs : future ∉ crew.futures := fun hm => hn future hm rfl
  refine ⟨hl, ?_, fun future' hm => ?_, fun future' hf => ?_, fun future' hf => ?_,
    List.nodup_cons.mpr ⟨hs, h.single⟩, fun future' hm => ?_, fun future' hw hm hd => ?_,
    fun future' hw hm => ?_⟩
  case refine_1 =>
    refine List.nodup_append.mpr ⟨h.once, List.nodup_singleton _, fun future' hm _ hm' he => ?_⟩
    rw [List.mem_singleton.mp hm'] at he
    exact hu future' (.inl hm) (congrArg _ he)
  case refine_2 =>
    cases List.mem_append.mp hm
    case inl hm => exact h.apart future' hm
    case inr hm =>
      rw [List.mem_singleton.mp hm]
      cases hp : roster.pending future.correlationData
      case none => rfl
      case some result => exact absurd rfl (hu ⟨future.correlationData, result⟩ (.inr hp))
  case refine_3 =>
    cases hc future' hf
    case inl hf => exact (crew.join_ne (hu future' hf)).trans (h.known future' hf)
    case inr he => rw [he]; exact crew.join_self future
  case refine_4 =>
    cases hc future' hf
    case inl hf =>
      refine (h.held future' hf).imp (List.mem_insert_of_mem) fun hm => ?_
      rw [hh] at hm
      cases hm.right
    case inr he => exact .inl (he ▸ List.mem_insert_self)
  case refine_5 =>
    cases List.mem_cons.mp hm
    case inl he => rw [he]; exact crew.join_self future
    case inr hm => exact (crew.join_ne (hn future' hm)).trans (h.alive future' hm)
  case refine_6 =>
    by_cases he : future'.correlationData = future.correlationData
    case pos =>
      rw [he, Crew.join_self, Option.some.injEq] at hw
      exact absurd (hw ▸ List.mem_cons_self) hd
    case neg =>
      have hm := (List.mem_insert_iff.mp hm).resolve_left he
      exact h.marked future' ((crew.join_ne he).symm.trans hw) hm fun hd' =>
        hd (List.mem_cons_of_mem _ hd')
  case refine_7 =>
    have he : future'.correlationData ≠ future.correlationData :=
      fun he => ha (he ▸ h.bounded.subset hm)
    obtain ⟨hc, hd⟩ := h.cancelled future' ((crew.join_ne he).symm.trans hw) hm
    refine ⟨hc, fun hd' => ?_⟩
    cases List.mem_cons.mp hd'
    case inl he' => exact he (congrArg _ he')
    case inr hd' => exact hd hd'

theorem finish (h : roster.Tidy limit crew) (hf : future ∈ crew.futures)
    (hr : ¬roster.holds future ∨ crew.halted = true) :
    (roster.release future.correlationData).Tidy limit (crew.leave future) := by
  have ho := h.alive future hf
  have hm (future') (hd : future' ≠ future) (hn : future' ∉ crew.futures.erase future) :
      future' ∉ crew.futures :=
    fun hm => hn ((List.mem_erase_of_ne hd).mpr hm)
  refine ⟨h.bounded.finish _, h.once, h.apart, h.known, fun future' hf' => ?_,
    h.single.erase _, fun future' hm => h.alive future' (List.mem_of_mem_erase hm),
    fun future' hw ha hd => ?_, fun future' hw hc => ?_⟩
  case refine_1 =>
    by_cases he : future'.correlationData = future.correlationData
    case neg =>
      refine (h.held future' hf').imp (fun hm => h.bounded.mem_active_finish.mpr ⟨he, hm⟩) ?_
      exact fun ⟨hd, hh⟩ => ⟨fun hm => hd (List.mem_of_mem_erase hm), hh⟩
    case pos =>
      have hw := h.known future' hf'
      rw [he, ho, Option.some.injEq] at hw
      subst hw
      exact .inr ⟨h.single.not_mem_erase, hr.resolve_left (not_not.mpr hf')⟩
  case refine_2 =>
    obtain ⟨he, ha⟩ := h.bounded.mem_active_finish.mp ha
    have hd := hm future' (fun hd => he (congrArg _ hd)) hd
    exact h.bounded.mem_cancelled_finish.mpr ⟨he, h.marked future' hw ha hd⟩
  case refine_3 =>
    obtain ⟨hc, hd⟩ := h.cancelled future' hw (h.bounded.mem_cancelled_finish.mp hc).right
    exact ⟨hc, fun hm => hd (List.mem_of_mem_erase hm)⟩

theorem cancel (h : roster.Tidy limit crew) (hf : future ∈ crew.futures) :
    ({ roster with lifecycle := roster.lifecycle.cancel future.correlationData } : Roster).Tidy limit
      (if roster.lifecycle.marks future.correlationData then (crew.leave future).mark future
        else crew.leave future) := by
  have ho := h.alive future hf
  have hl := h.bounded.cancel future.correlationData
  have hs := h.single.erase future
  have ha (future') (hm : future' ∈ crew.futures.erase future) :=
    h.alive future' (List.mem_of_mem_erase hm)
  have hd (future') (hm : future' ∉ crew.futures) : future' ∉ crew.futures.erase future :=
    fun hm' => hm (List.mem_of_mem_erase hm')
  have hn (future') (he : future' ≠ future) (hm : future' ∉ crew.futures.erase future) :
      future' ∉ crew.futures :=
    fun hm' => hm ((List.mem_erase_of_ne he).mpr hm')
  have hh (future') (hf' : roster.holds future') :=
    (h.held future' hf').imp_right fun ⟨hm, hh⟩ => And.intro (hd future' hm) hh
  by_cases hm : future.correlationData ∈ roster.lifecycle.active
  case neg =>
    rw [RequestLifecycle.cancel, if_neg hm, RequestLifecycle.marks, decide_eq_false hm]
    refine ⟨h.bounded, h.once, h.apart, h.known, hh, hs, ha, fun future' hw hm' hd' => ?_,
      fun future' hw hc => (h.cancelled future' hw hc).imp_right (hd future')⟩
    exact h.marked future' hw hm' (hn future' (fun he => hm (he ▸ hm')) hd')
  case pos =>
    rw [RequestLifecycle.cancel, if_pos hm] at hl ⊢
    rw [RequestLifecycle.marks, decide_eq_true hm, if_pos rfl]
    refine ⟨hl, h.once, h.apart, h.known, hh, hs, ha, fun future' hw hm' hd' => ?_,
      fun future' hw hc => ?_⟩
    case refine_1 =>
      by_cases he : future' = future
      case pos => rw [he]; exact List.mem_insert_self
      case neg => exact List.mem_insert_of_mem (h.marked future' hw hm' (hn future' he hd'))
    case refine_2 =>
      by_cases he : future'.correlationData = future.correlationData
      case pos =>
        obtain rfl : future' = future := Option.some.inj (hw.symm.trans (he ▸ ho))
        exact ⟨Function.update_self .., h.single.not_mem_erase⟩
      case neg =>
        have hc := h.cancelled future' hw ((List.mem_insert_iff.mp hc).resolve_left he)
        exact ⟨(Function.update_of_ne he ..).trans hc.left, hd future' hc.right⟩

theorem halt (h : roster.Tidy limit crew) (hh : crew.halted = true → halted = true) :
    roster.Tidy limit { crew with halted } :=
  ⟨h.bounded, h.once, h.apart, h.known, fun future hf => (h.held future hf).imp_right (.imp_right hh),
    h.single, h.alive, h.marked, h.cancelled⟩

end Tidy
end Roster

namespace Driver

def halted (driver : Driver) : Bool :=
  driver.phase matches .stopped _

variable {driver driver' : Driver}

theorem halted_iff : driver.halted = true ↔ ∃ result, driver.phase = .stopped result := by
  rw [halted]
  split
  case h_1 result hp => simp [hp]
  case h_2 hp => simpa using hp

theorem halted_step (h : driver.step input = some driver') (hh : driver.halted = true) :
    driver'.halted = true := by
  obtain ⟨result, hp⟩ := halted_iff.mp hh
  refine halted_iff.mpr ⟨result, ?_⟩
  rcases (step_does h).of_not_running (by rw [hp]; rfl) with ⟨_, hs, _⟩ | ⟨hs, _⟩
  case inl => rw [hp] at hs; cases hs
  case inr => rw [hs, hp]

-- A request is registered and submitted.
theorem submit_request (h : driver.step (.submit (.request command result)) = some driver') :
    driver.halted = false ∧ driver'.halted = false ∧ ∃ lifecycle,
      driver.connection.requestLifecycle.register command.correlationData = .ok lifecycle ∧
      driver'.connection.roster =
        { driver.connection.roster with
          queued := driver.connection.roster.queued ++ [⟨command.correlationData, result⟩]
          lifecycle } := by
  obtain ⟨hc, h⟩ := Option.ite_none_left_eq_some.mp h
  obtain ⟨_, h⟩ := Option.ite_none_left_eq_some.mp h
  have hh : driver.halted = false := by
    by_contra hh
    obtain ⟨_, hp⟩ := halted_iff.mp (Bool.eq_true_of_not_eq_false hh)
    simp [hp] at hc
  dsimp only at h
  split at h <;> cases h
  case h_2 hr _ =>
    refine ⟨hh, hh, _, hr, ?_⟩
    simp [MqttConnection.roster, Command.future?]

end Driver

namespace Scene

variable {scene scene' : Scene} {limit : Nat}

def crew (scene : Scene) : Crew where
  futures := scene.futures
  owner := scene.registrant
  canceller := scene.canceller
  halted := scene.driver.halted

theorem find_update (futures : List RequestFuture) (future : RequestFuture) :
    (fun key => (future :: futures).find? (·.correlationData = key)) =
      Function.update (fun key => futures.find? (·.correlationData = key)) future.correlationData
        (some future) := by
  funext key
  by_cases h : key = future.correlationData
  case pos => simp [h]
  case neg => simp [Function.update_of_ne h, Ne.symm h]

def Tidy (limit : Nat) (scene : Scene) : Prop :=
  scene.driver.connection.roster.Tidy limit scene.crew

-- Nobody is alive who has registered the same correlation data.
def Unshared (scene : Scene) : Action → Prop
  | .request command _ =>
    ∀ future ∈ scene.futures, future.correlationData ≠ command.correlationData
  | .driver _ | .finish _ | .cancel _ => True

instance : (scene : Scene) → (action : Action) → Decidable (scene.Unshared action)
  | scene, .request command _ => inferInstanceAs
    (Decidable (∀ future ∈ scene.futures, future.correlationData ≠ command.correlationData))
  | _, .driver _ | _, .finish _ | _, .cancel _ => .isTrue trivial

theorem Tidy.step (h : scene.Tidy limit) (hu : scene.Unshared action)
    (hs : scene.step action = some scene') : scene'.Tidy limit := by
  cases action
  case driver input =>
    obtain ⟨hi, hs⟩ := Option.ite_none_left_eq_some.mp hs
    obtain ⟨driver', hd, hs⟩ := Option.map_eq_some_iff.mp hs
    cases hs
    refine @Roster.Tidy.halt _ scene.crew _ _ ?_ (Driver.halted_step hd)
    rcases Driver.roster_of_step (Bool.eq_false_of_not_eq_true hi) hd with hf | ⟨_, _, hq, ht⟩
    case inl => exact hf.preserves (fun _ _ hf h => h.frees hf) h
    case inr => exact Roster.Tidy.takes h hq ht
  case request command result =>
    obtain ⟨driver', hd, hs⟩ := Option.map_eq_some_iff.mp hs
    cases hs
    obtain ⟨hh, hh', lifecycle, hr, he⟩ := Driver.submit_request hd
    have hj := @Roster.Tidy.join _ _ _ ⟨command.correlationData, result⟩ _ h hh hr hu
    have hc : ({ scene with
        driver := driver'
        futures := ⟨command.correlationData, result⟩ :: scene.futures
        registered := ⟨command.correlationData, result⟩ :: scene.registered } : Scene).crew =
          scene.crew.join ⟨command.correlationData, result⟩ := by
      rw [crew, hh', Crew.join, crew, hh]
      exact congrArg (Crew.mk _ · _ _) (find_update ..)
    rw [Tidy, he, hc]
    exact hj
  case finish future =>
    obtain ⟨hm, hs⟩ := Option.ite_none_right_eq_some.mp hs
    cases hs
    refine Roster.Tidy.finish h hm.left ((Bool.or_eq_true ..).mp hm.right |>.imp_left fun hn => ?_)
    rw [← MqttConnection.retains_iff]
    simpa using hn
  case cancel future =>
    obtain ⟨hm, hs⟩ := Option.ite_none_right_eq_some.mp hs
    cases hs
    have hc := Roster.Tidy.cancel h hm
    have hm (b : Bool) : ({ scene with
        futures := scene.futures.erase future
        cancelled := if b then future :: scene.cancelled else scene.cancelled } : Scene).crew =
          if b then (scene.crew.leave future).mark future else scene.crew.leave future := by
      cases b
      case false => rfl
      case true => exact congrArg (Crew.mk _ _ · _) (find_update ..)
    rw [← hm] at hc
    exact hc

theorem start_tidy (options connack clock) :
    (start options connack clock).Tidy options.commandCapacity where
  bounded := ⟨rfl, Nat.zero_le _, .nil, .nil, nofun⟩
  once := .nil
  apart := nofun
  known := nofun
  held := nofun
  single := .nil
  alive := nofun
  marked := nofun
  cancelled := nofun

theorem run_tidy {options : ConnectOptions} {clock : Clock}
    (h : Machine.run step (start options connack clock) actions = some scene)
    (hu : Machine.Throughout step (start options connack clock) actions Unshared) :
    scene.Tidy options.commandCapacity :=
  Machine.run_preserves_if (P := Tidy options.commandCapacity) (C := Unshared)
    (fun _ _ _ _ _ h hu hs => h.step hu hs) (start_tidy options connack clock) hu h

-- A step spares a request unless it is its own future that acts or has acted.
structure Spares (scene : Scene) (action : Action) (scene' : Scene) : Prop where
  registered : ∀ future other, action = .finish future ∨ action = .cancel future → other ≠ future →
    scene.Registered other → scene'.Registered other
  marked : ∀ future other, action = .finish future ∨ action = .cancel future → other ≠ future →
    (scene'.Marked other ↔ scene.Marked other)
  discards : ∀ other, scene.Discards other →
    scene.canceller other.correlationData = some other ∧ other ∉ scene.futures

instance (scene : Scene) (request : RequestFuture) : Decidable (scene.Registered request) :=
  @instDecidableAnd _ _ (decidable_of_iff _ List.contains_iff_mem) (inferInstanceAs (Decidable (_ = _)))

instance (scene : Scene) (request : RequestFuture) : Decidable (scene.Discards request) :=
  @instDecidableAnd _ _ (decidable_of_iff _ List.contains_iff_mem) <|
    match scene.driver.phase with
    | .drainCancellations => inferInstanceAs (Decidable (_ = true))
    | .drainCommands (_ + 1) | .recv _ => inferInstanceAs (Decidable (_ = _))
    | .drainCommands 0 | .flushOutbound _ _ | .readAvailable _ | .decodeAndDispatch
    | .expireOperations | .maintainKeepAlive | .wait | .stopping _ | .stopped _ => .isFalse id

theorem Discards.holds (h : scene.Discards other) :
    other.correlationData ∈ scene.driver.connection.requestLifecycle.cancelled ∧
      scene.driver.connection.roster.holds other := by
  obtain ⟨hm, h⟩ := h
  refine ⟨hm, ?_⟩
  split at h
  case h_1 =>
    obtain ⟨pending, hl, hr⟩ := (Option.any_eq_true _ _).mp h
    exact .inr (of_decide_eq_true hr ▸ MqttConnection.roster_pending hl)
  case h_2 | h_3 =>
    obtain ⟨command, hc, hf⟩ := Option.bind_eq_some_iff.mp h
    exact .inl (List.mem_filterMap.mpr ⟨command, List.mem_of_mem_head? hc, hf⟩)
  case h_4 => cases h

theorem Tidy.spares (h : scene.Tidy limit) (hs : scene.step action = some scene') :
    Spares scene action scene' := by
  -- Only the own future has the correlation data of a request.
  have hn (future other) (hm : future ∈ scene.futures) (hd : other ≠ future)
      (hr : scene.registrant other.correlationData = some other) :
      other.correlationData ≠ future.correlationData := by
    intro he
    have ha : scene.registrant future.correlationData = some future := h.alive future hm
    rw [he, ha, Option.some.injEq] at hr
    exact hd hr.symm
  have hb : scene.driver.connection.requestLifecycle.Bounded limit := h.bounded
  refine ⟨fun future other ha hd hr => ?_, fun future other ha hd => ?_, fun other hd => ?_⟩
  case refine_1 =>
    obtain ⟨hm, hr⟩ := hr
    rcases ha with rfl | rfl <;> obtain ⟨hf, hs⟩ := Option.ite_none_right_eq_some.mp hs <;> cases hs
    case inl => exact ⟨hb.mem_active_finish.mpr ⟨hn future other hf.left hd hr, hm⟩, hr⟩
    case inr => exact ⟨(RequestLifecycle.cancel_active ..).symm ▸ hm, hr⟩
  case refine_2 =>
    rcases ha with rfl | rfl <;> obtain ⟨hf, hs⟩ := Option.ite_none_right_eq_some.mp hs <;> cases hs
    case inl =>
      constructor
      case mp => exact fun ⟨hm, hr⟩ => ⟨(hb.mem_cancelled_finish.mp hm).right, hr⟩
      case mpr =>
        exact fun ⟨hm, hr⟩ => ⟨hb.mem_cancelled_finish.mpr ⟨hn future other hf.left hd hr, hm⟩, hr⟩
    case inr =>
      refine and_congr_left fun hr => ?_
      have hk := hn future other hf hd hr
      rw [Driver.onConnection, RequestLifecycle.cancel]
      split
      case isTrue => simp [hk]
      case isFalse => rfl
  case refine_3 =>
    obtain ⟨hm, hh⟩ := hd.holds
    exact h.cancelled other (h.known other hh) hm

theorem requests_isolated (options : ConnectOptions) (connack : ConnAckPacket) (clock : Clock)
    (actions : List Action) (scene : Scene)
    (h : Machine.run step (start options connack clock) actions = some scene)
    (hu : Machine.Throughout step (start options connack clock) actions Unshared)
    (action : Action) (scene' : Scene) (hs : scene.step action = some scene') :
    Spares scene action scene' :=
  (run_tidy h hu).spares hs

def searchRequest (topic : String) : RequestCommand where
  topic := topic
  payload := []
  responseTopic := "t"
  correlationData := [7]
  qos := .atLeastOnce
  timeout := .fromSecs 30
  properties := { entries := [(.responseTopic, .str "t"), (.correlationData, .binary [7])] }

theorem searchRequest_issued (topic : String) (result : Sender) :
    (Command.request (searchRequest topic) result).Issued :=
  ⟨topic, [], { responseTopic := "t" }, [7], Driver.stillClock, by rw [AsyncMqttClient.request]; rfl⟩

def anotherRequest : RequestCommand :=
  { searchRequest "q" with
    correlationData := [8]
    properties := { entries := [(.responseTopic, .str "t"), (.correlationData, .binary [8])] } }

-- The future of a request is dropped before the request is taken up. When the driver has dropped it,
-- its correlation data is used again, beside another request.
def takingTurns : List Action :=
  [.request (searchRequest "q") 0, .cancel ⟨[7], 0⟩, .driver .proceed, .driver .proceed,
    .request (searchRequest "r") 1, .request anotherRequest 2]

theorem requests_isolated_dropped :
    ∃ scene scene' scene'' : Scene, Machine.run step (start Driver.plainOptions Driver.plainConnack
        Driver.stillClock) takingTurns = some scene ∧
      scene.step (.cancel ⟨[7], 1⟩) = some scene' ∧ Spares scene (.cancel ⟨[7], 1⟩) scene' ∧
      scene'.Registered ⟨[8], 2⟩ ∧ scene'.Discards ⟨[7], 1⟩ ∧
      scene'.step (.driver .proceed) = some scene'' ∧ Spares scene' (.driver .proceed) scene'' := by
  obtain ⟨scene, scene', hr, hs, hg, hd, hl⟩ := Machine.exists_run_step step
    (start Driver.plainOptions Driver.plainConnack Driver.stillClock) takingTurns (.cancel ⟨[7], 1⟩)
    (fun scene => scene.Registered ⟨[8], 2⟩)
    (fun scene' => scene'.Discards ⟨[7], 1⟩ ∧ (scene'.step (.driver .proceed)).isSome)
    (by decide +kernel)
  obtain ⟨scene'', hl⟩ := Option.isSome_iff_exists.mp hl
  have hr' : Machine.run step (start Driver.plainOptions Driver.plainConnack Driver.stillClock)
      (takingTurns ++ [.cancel ⟨[7], 1⟩]) = some scene' := by
    rw [Machine.run_append, hr, Option.bind_some, Machine.run, hs]
    rfl
  have hc := requests_isolated _ _ _ _ scene hr (by decide +kernel) _ scene' hs
  exact ⟨scene, scene', scene'', hr, hs, hc, hc.registered ⟨[7], 1⟩ ⟨[8], 2⟩ (.inr rfl) (by decide) hg,
    hd, hl, requests_isolated _ _ _ _ scene' hr' (by decide +kernel) _ scene'' hl⟩

-- A request is refused, its correlation data is used again while its future is still alive, and that
-- future is dropped: the driver drops the other request, whose future is left without an answer.
def reusing : List Action :=
  [.request (searchRequest "#") 0, .driver .proceed, .driver .proceed, .request (searchRequest "q") 1,
    .cancel ⟨[7], 0⟩]

theorem request_discarded :
    (Command.request (searchRequest "#") 0).Issued ∧ (Command.request (searchRequest "q") 1).Issued ∧
    ∃ scene scene' : Scene, Machine.run step (start Driver.plainOptions Driver.plainConnack
        Driver.stillClock) reusing = some scene ∧
      scene.step (.driver .proceed) = some scene' ∧
      ¬Spares scene (.driver .proceed) scene' ∧
      ⟨[7], 1⟩ ∈ scene'.futures ∧ scene'.ready ⟨[7], 1⟩ = true ∧
      ∀ answer ∈ scene'.driver.connection.replies, answer.1 ≠ 1 := by
  refine ⟨searchRequest_issued "#" 0, searchRequest_issued "q" 1, ?_⟩
  obtain ⟨scene, scene', hr, hs, ⟨hd, hm⟩, hf, hl⟩ := Machine.exists_run_step step
    (start Driver.plainOptions Driver.plainConnack Driver.stillClock) reusing (.driver .proceed)
    (fun scene => scene.Discards ⟨[7], 1⟩ ∧ ⟨[7], 1⟩ ∈ scene.futures)
    (fun scene' => ⟨[7], 1⟩ ∈ scene'.futures ∧ scene'.ready ⟨[7], 1⟩ = true ∧
      ∀ answer ∈ scene'.driver.connection.replies, answer.1 ≠ 1) (by decide +kernel)
  exact ⟨scene, scene', hr, hs, fun h => (h.discards _ hd).right hm, hf, hl⟩

end Scene
end MqttWasi
