import Mathlib.Data.List.Induction

-- Runs of a machine that makes a step for every input, or does not accept it.

namespace Machine

variable {σ ι : Type} {step : σ → ι → Option σ} {s s' : σ} {inputs : List ι}

def run (step : σ → ι → Option σ) (s : σ) : List ι → Option σ
  | []              => some s
  | input :: inputs => (step s input).bind (run step · inputs)

theorem run_append (step : σ → ι → Option σ) (s : σ) (inputs inputs' : List ι) :
    run step s (inputs ++ inputs') = (run step s inputs).bind (run step · inputs') := by
  induction inputs generalizing s
  case nil => rfl
  case cons input inputs ih =>
    simp only [List.cons_append, run, Option.bind_assoc]
    exact congrArg _ (funext fun next => ih next)

-- What every step preserves holds in every run. It may depend on the run itself.
theorem run_induction {P : List ι → σ → Prop} (hp : P [] s)
    (hs : ∀ inputs next input next', run step s inputs = some next → P inputs next →
      step next input = some next' → P (inputs ++ [input]) next')
    (h : run step s inputs = some s') : P inputs s' := by
  induction inputs using List.reverseRecOn generalizing s'
  case nil => cases h; exact hp
  case append_singleton inputs input ih =>
    rw [run_append] at h
    have ⟨next, hn, h⟩ := Option.bind_eq_some_iff.mp h
    have ⟨_, hd, hl⟩ := Option.bind_eq_some_iff.mp h
    cases hl
    exact hs inputs next input s' hn (ih hn) hd

-- A condition on the state before a step and on the input, for every step of a run.
def Throughout (step : σ → ι → Option σ) (s : σ) (inputs : List ι) (C : σ → ι → Prop) : Prop :=
  ∀ inputs' input earlier, inputs' ++ [input] <+: inputs → run step s inputs' = some earlier →
    C earlier input

theorem run_preserves_if {P : σ → Prop} {C : σ → ι → Prop}
    (hs : ∀ inputs next input next', run step s inputs = some next → P next → C next input →
      step next input = some next' → P next')
    (hp : P s) (hc : Throughout step s inputs C) (h : run step s inputs = some s') : P s' := by
  refine run_induction (P := fun inputs s' => Throughout step s inputs C → P s')
    (fun _ => hp) ?_ h hc
  intro inputs next input next' hr hp hd hc
  have hc' : Throughout step s inputs C := fun inputs' input' earlier hi =>
    hc inputs' input' earlier (hi.trans (List.prefix_append _ _))
  exact hs inputs next input next' hr (hp hc') (hc inputs input next List.prefix_rfl hr) hd

theorem throughout_nil (step : σ → ι → Option σ) (s : σ) (C : σ → ι → Prop) :
    Throughout step s [] C :=
  fun inputs' _ _ hp _ => by simp at hp

theorem throughout_cons {C : σ → ι → Prop} :
    Throughout step s (input :: inputs) C ↔
      C s input ∧ ∀ next, step s input = some next → Throughout step next inputs C := by
  refine ⟨fun h => ⟨h [] input s (by simp) rfl, fun next hs inputs' input' earlier hp hr => ?_⟩,
    fun h inputs' input' earlier hp hr => ?_⟩
  case refine_1 =>
    refine h (input :: inputs') input' earlier ((List.prefix_cons_inj input).mpr hp) ?_
    rw [run, hs]
    exact hr
  case refine_2 =>
    cases inputs'
    case nil =>
      rw [List.nil_append, List.cons_prefix_cons] at hp
      cases hr
      rw [hp.left]
      exact h.left
    case cons first inputs' =>
      rw [List.cons_append, List.cons_prefix_cons] at hp
      obtain ⟨rfl, hp⟩ := hp
      have ⟨next, hs, hr⟩ := Option.bind_eq_some_iff.mp hr
      exact h.right next hs inputs' input' earlier hp hr

theorem throughout_append {C : σ → ι → Prop} :
    Throughout step s (inputs ++ inputs') C ↔ Throughout step s inputs C ∧
      ∀ next, run step s inputs = some next → Throughout step next inputs' C := by
  induction inputs generalizing s
  case nil => simp [throughout_nil, run]
  case cons input inputs ih =>
    simp only [List.cons_append, throughout_cons, ih, run, Option.bind_eq_some_iff, and_assoc]
    refine and_congr_right fun _ => ⟨fun h => ⟨fun next hs => (h next hs).left, ?_⟩, fun h next hs => ?_⟩
    case refine_1 =>
      rintro next' ⟨next, hs, hr⟩
      exact (h next hs).right next' hr
    case refine_2 => exact ⟨h.left next hs, fun next' hr => h.right next' ⟨next, hs, hr⟩⟩

instance decidableThroughout {C : σ → ι → Prop} [∀ s input, Decidable (C s input)] :
    (s : σ) → (inputs : List ι) → Decidable (Throughout step s inputs C)
  | s, [] => isTrue (throughout_nil step s C)
  | s, input :: inputs =>
    match h : step s input with
    | none => decidable_of_iff (C s input) (by simp [throughout_cons, h])
    | some next =>
      have := decidableThroughout (C := C) next inputs
      decidable_of_iff (C s input ∧ Throughout step next inputs C) (by simp [throughout_cons, h])

-- What a run leads to can be found out by running it.
theorem exists_run (step : σ → ι → Option σ) (s : σ) (inputs : List ι) (P : σ → Prop)
    [DecidablePred P] (h : (run step s inputs).any (P ·) = true) :
    ∃ s', run step s inputs = some s' ∧ P s' := by
  have ⟨s', hr, hp⟩ := (Option.any_eq_true _ _).mp h
  exact ⟨s', hr, of_decide_eq_true hp⟩

-- A run and one more step.
theorem exists_run_step (step : σ → ι → Option σ) (s : σ) (inputs : List ι) (input : ι)
    (P Q : σ → Prop) [DecidablePred P] [DecidablePred Q]
    (h : (run step s inputs).any (fun s' => P s' ∧ (step s' input).any (Q ·) = true) = true) :
    ∃ s' s'', run step s inputs = some s' ∧ step s' input = some s'' ∧ P s' ∧ Q s'' := by
  obtain ⟨s', hr, hp, hs⟩ := exists_run step s inputs _ h
  obtain ⟨s'', hs, hq⟩ := (Option.any_eq_true _ _).mp hs
  exact ⟨s', s'', hr, hs, hp, of_decide_eq_true hq⟩

end Machine
