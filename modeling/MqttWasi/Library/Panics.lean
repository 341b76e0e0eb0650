import MqttWasi.Library.Action

-- Code that may panic besides failing with an error, and what it takes to show that it does not: it
-- does the same as code that cannot panic.

namespace Panics

variable {ε σ α β : Type}

inductive Fault (ε : Type)
  | error (e : ε)
  | panic
  deriving DecidableEq

abbrev Checked (ε σ : Type) := EStateM (Fault ε) σ

def require (p : Prop) [Decidable p] : Checked ε σ Unit :=
  if p then pure () else throw .panic

def lift (r : Except ε α) : Checked ε σ α :=
  match r with
  | .ok a    => pure a
  | .error e => throw (.error e)

-- An action that panics where it is started or stopped in a state outside of `I`, also if it fails.
def within (I : σ → Prop) [DecidablePred I] (x : Checked ε σ α) : Checked ε σ α := fun s =>
  if I s ∧ I (x s).state then x s else .error .panic s

def fault : EStateM.Result ε σ α → EStateM.Result (Fault ε) σ α
  | .ok a s    => .ok a s
  | .error e s => .error (.error e) s

@[simp]
theorem fault_ok (a : α) (s : σ) : fault (.ok a s : EStateM.Result ε σ α) = .ok a s :=
  rfl

@[simp]
theorem fault_error (e : ε) (s : σ) : fault (.error e s : EStateM.Result ε σ α) = .error (.error e) s :=
  rfl

@[simp]
theorem fault_state (r : EStateM.Result ε σ α) : (fault r).state = r.state := by
  cases r <;> rfl

-- From the states in `I` the action `x'` does not panic and does what `x` does, which leads to a
-- state in `J` or, with an error, to one in `E`.
structure Refines (E I : σ → Prop) (x' : Checked ε σ α) (x : EStateM ε σ α) (J : σ → Prop) : Prop where
  eq : ∀ {s}, I s → x' s = fault (x s)
  ok : ∀ {s a s'}, I s → x s = .ok a s' → J s'
  error : ∀ {s e s'}, I s → x s = .error e s' → E s'

namespace Refines

variable {E I J K : σ → Prop} {x' : Checked ε σ α} {x : EStateM ε σ α}
variable {f' : α → Checked ε σ β} {f : α → EStateM ε σ β}

theorem pure (a : α) : Refines (ε := ε) E I (pure a) (pure a) I where
  eq _ := rfl
  ok hs h := by
    cases h
    exact hs
  error _ h := by cases h

theorem throw (e : ε) (h : ∀ s, I s → E s) : Refines (α := α) E I (throw (.error e)) (throw e) J where
  eq _ := rfl
  ok _ h := by cases h
  error hs h' := by
    cases h'
    exact h _ hs

theorem bind (h : Refines E I x' x J) (hf : ∀ a, Refines E J (f' a) (f a) K) :
    Refines E I (x' >>= f') (x >>= f) K where
  eq {s} hs := by
    cases hx : x s
    case ok a s' =>
      rw [EStateM.bind_ok hx, EStateM.bind_ok (by rw [h.eq hs, hx]; rfl)]
      exact (hf a).eq (h.ok hs hx)
    case error e s' => rw [EStateM.bind_error hx, EStateM.bind_error (by rw [h.eq hs, hx]; rfl)]; rfl
  ok hs hb := by
    obtain ⟨a, s₁, hx, hf'⟩ := EStateM.bind_eq_ok.mp hb
    exact (hf a).ok (h.ok hs hx) hf'
  error hs hb := by
    obtain hx | ⟨a, s₁, hx, hf'⟩ := EStateM.bind_eq_error.mp hb
    case inl => exact h.error hs hx
    case inr => exact (hf a).error (h.ok hs hx) hf'

theorem get_bind {f' : σ → Checked ε σ β} {f : σ → EStateM ε σ β}
    (h : ∀ s, I s → Refines E (· = s) (f' s) (f s) K) : Refines E I (get >>= f') (get >>= f) K where
  eq {s} hs := (h s hs).eq rfl
  ok {s _ _} hs hb := (h s hs).ok rfl hb
  error {s _ _} hs hb := (h s hs).error rfl hb

theorem peek_bind {f' : σ → Checked ε σ β} {y : EStateM ε σ β}
    (h : ∀ s, I s → Refines E (· = s) (f' s) y K) : Refines E I (get >>= f') y K where
  eq {s} hs := (h s hs).eq rfl
  ok {s _ _} hs hb := (h s hs).ok rfl hb
  error {s _ _} hs hb := (h s hs).error rfl hb

theorem require_bind {p : Prop} [Decidable p] {y' : Checked ε σ β} {y : EStateM ε σ β} (hp : p)
    (h : Refines E I y' y K) : Refines E I (require p >>= fun _ => y') y K := by
  rw [require, if_pos hp]
  exact h

theorem ite {c : Prop} [Decidable c] {y' : Checked ε σ α} {y : EStateM ε σ α}
    (h : c → Refines E I x' x J) (hn : ¬c → Refines E I y' y J) :
    Refines E I (if c then x' else y') (if c then x else y) J := by
  split
  case isTrue hc  => exact h hc
  case isFalse hc => exact hn hc

theorem weaken (h : Refines E I x' x J) (hi : ∀ s, I' s → I s) (hj : ∀ s, J s → J' s) :
    Refines E I' x' x J' where
  eq hs := h.eq (hi _ hs)
  ok hs hx := hj _ (h.ok (hi _ hs) hx)
  error hs hx := h.error (hi _ hs) hx

theorem discard (h : Refines E I x' x J) : Refines E I (discard x') (discard x) J :=
  h.bind fun _ => .pure PUnit.unit

theorem within {P : σ → Prop} [DecidablePred P] (h : Refines E I x' x J) (hi : ∀ s, I s → P s)
    (hj : ∀ s, J s → P s) (he : ∀ s, E s → P s) : Refines E I (within P x') x J where
  eq {s} hs := by
    have hp : P (x s).state := by
      cases hx : x s
      case ok => exact hj _ (h.ok hs hx)
      case error => exact he _ (h.error hs hx)
    rw [Panics.within, h.eq hs, fault_state, if_pos ⟨hi s hs, hp⟩]
  ok := h.ok
  error := h.error

end Refines
end Panics
