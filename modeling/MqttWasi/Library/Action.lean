import Mathlib

-- A method that takes its receiver by mutable reference and may fail is a function from a state to
-- either a value or an error, together with the state it leaves behind. The changes made before a
-- failure stay, which is what `EStateM` without backtracking gives.

namespace Except

variable {ε α β : Type}

@[simp]
theorem throw_eq (e : ε) : (throw e : Except ε α) = .error e :=
  rfl

theorem bind_eq_ok {x : Except ε α} {f : α → Except ε β} {b : β} :
    (x >>= f) = .ok b ↔ ∃ a, x = .ok a ∧ f a = .ok b := by
  cases x <;> simp [bind, Except.bind]

@[simp]
theorem error_bind (e : ε) (f : α → Except ε β) : ((.error e : Except ε α) >>= f) = .error e :=
  rfl

@[simp]
theorem ok_bind (a : α) (f : α → Except ε β) : ((.ok a : Except ε α) >>= f) = f a :=
  rfl

end Except

namespace EStateM

variable {ε σ α β γ : Type}

namespace Result

-- The state left behind, whether or not the action failed.
@[simp]
def state : Result ε σ α → σ
  | ok _ s | error _ s => s

-- The value, or the error the action failed with.
@[simp]
def value : Result ε σ α → Except ε α
  | ok a _    => .ok a
  | error e _ => .error e

theorem eq_ok {r : Result ε σ α} (h : r.value = .ok a) : r = .ok a r.state := by
  cases r <;> simp_all

theorem eq_error {r : Result ε σ α} (h : r.value = .error e) : r = .error e r.state := by
  cases r <;> simp_all

end Result

@[simp]
theorem pure_apply (a : α) (s : σ) : (pure a : EStateM ε σ α) s = .ok a s :=
  rfl

@[simp]
theorem get_apply (s : σ) : (get : EStateM ε σ σ) s = .ok s s :=
  rfl

@[simp]
theorem set_apply (s s' : σ) : (set s' : EStateM ε σ PUnit) s = .ok ⟨⟩ s' :=
  rfl

@[simp]
theorem modify_apply (f : σ → σ) (s : σ) : (modify f : EStateM ε σ PUnit) s = .ok ⟨⟩ (f s) :=
  rfl

@[simp]
theorem throw_apply (e : ε) (s : σ) : (throw e : EStateM ε σ α) s = .error e s :=
  rfl

theorem ite_apply {c : Prop} [Decidable c] (x y : EStateM ε σ α) (s : σ) :
    (if c then x else y : EStateM ε σ α) s = if c then x s else y s := by
  split <;> rfl

theorem bind_apply (x : EStateM ε σ α) (f : α → EStateM ε σ β) (s : σ) :
    (x >>= f) s = match x s with
      | .ok a s'    => f a s'
      | .error e s' => .error e s' :=
  rfl

theorem map_apply (f : α → β) (x : EStateM ε σ α) (s : σ) :
    (f <$> x) s = match x s with
      | .ok a s'    => .ok (f a) s'
      | .error e s' => .error e s' :=
  rfl

theorem bind_ok {x : EStateM ε σ α} {f : α → EStateM ε σ β} {s s' : σ} (h : x s = .ok a s') :
    (x >>= f) s = f a s' := by
  simp [bind_apply, h]

theorem bind_error {x : EStateM ε σ α} {f : α → EStateM ε σ β} {s s' : σ} (h : x s = .error e s') :
    (x >>= f) s = .error e s' := by
  simp [bind_apply, h]

theorem discard_ok {x : EStateM ε σ α} {s s' : σ} (h : x s = .ok a s') :
    discard x s = .ok ⟨⟩ s' := by
  rw [show discard x s = ((fun _ => PUnit.unit) <$> x) s from rfl, map_apply, h]

theorem discard_error {x : EStateM ε σ α} {s s' : σ} (h : x s = .error e s') :
    discard x s = .error e s' := by
  rw [show discard x s = ((fun _ => PUnit.unit) <$> x) s from rfl, map_apply, h]

-- A check in front of an action.
theorem guarded_eq_ok {x : EStateM ε σ α} {c : Prop} [Decidable c] {s s' : σ} :
    (if c then (throw e : EStateM ε σ β) >>= fun _ => x else x) s = .ok a s' ↔
      ¬c ∧ x s = .ok a s' := by
  by_cases h : c <;> simp [h, bind_apply]

-- A sequence ends well if both of its parts do.
theorem bind_eq_ok {x : EStateM ε σ α} {f : α → EStateM ε σ β} {s s' : σ} {b : β} :
    (x >>= f) s = .ok b s' ↔ ∃ a s₁, x s = .ok a s₁ ∧ f a s₁ = .ok b s' := by
  rw [bind_apply]
  cases x s <;> simp [and_assoc]

-- A sequence fails with the error of the first of its parts that fails.
theorem bind_eq_error {x : EStateM ε σ α} {f : α → EStateM ε σ β} {s s' : σ} :
    (x >>= f) s = .error e s' ↔
      x s = .error e s' ∨ ∃ a s₁, x s = .ok a s₁ ∧ f a s₁ = .error e s' := by
  rw [bind_apply]
  cases x s <;> simp [and_assoc]

-- What a loop does for one element stays done in the rounds for the others.
theorem forM_establishes {f : β → EStateM ε σ PUnit} {P : β → σ → Prop}
    (he : ∀ b s s', f b s = .ok ⟨⟩ s' → P b s')
    (hp : ∀ b b' s s', f b' s = .ok ⟨⟩ s' → P b s → P b s') {l : List β} {s s' : σ}
    (h : l.forM f s = .ok ⟨⟩ s') : ∀ b ∈ l, P b s' := by
  have hs {l : List β} {b : β} {s s' : σ} (h : l.forM f s = .ok ⟨⟩ s') (hb : P b s) : P b s' := by
    induction l generalizing s
    case nil => cases h; exact hb
    case cons b' l ih =>
      obtain ⟨_, s₁, hf, hl⟩ := bind_eq_ok.mp h
      exact ih hl (hp b b' s s₁ hf hb)
  induction l generalizing s
  case nil => simp
  case cons b l ih =>
    obtain ⟨_, s₁, hf, hl⟩ := bind_eq_ok.mp h
    exact List.forall_mem_cons.mpr ⟨hs hl (he b s s₁ hf), ih hl⟩

end EStateM
