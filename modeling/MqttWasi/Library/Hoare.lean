import MqttWasi.Library.Action

-- Pre- and postconditions of actions. An action has two postconditions, one for the states in which
-- it returns and one for the states in which it fails.

namespace EStateM

variable {ε σ α β : Type}

def Meets (P : σ → Prop) (x : EStateM ε σ α) (Q : α → σ → Prop) (E : ε → σ → Prop) : Prop :=
  ∀ s, P s → match x s with
    | .ok a s'    => Q a s'
    | .error e s' => E e s'

namespace Meets

variable {P P' : σ → Prop} {Q Q' : α → σ → Prop} {R : β → σ → Prop} {E E' : ε → σ → Prop}
  {x y : EStateM ε σ α} {f : α → EStateM ε σ β}

theorem pure (h : ∀ s, P s → Q a s) : Meets P (pure a) Q E :=
  h

theorem throw (h : ∀ s, P s → E e s) : Meets P (throw e) Q E :=
  h

theorem modify {Q : PUnit → σ → Prop} {f : σ → σ} (h : ∀ s, P s → Q ⟨⟩ (f s)) :
    Meets P (modify f) Q E :=
  h

theorem set {Q : PUnit → σ → Prop} {s' : σ} (h : ∀ s, P s → Q ⟨⟩ s') : Meets P (set s') Q E :=
  h

theorem bind (hx : Meets P x Q E) (hf : ∀ a, Meets (Q a) (f a) R E) : Meets P (x >>= f) R E := by
  intro s hs
  have hx := hx s hs
  cases h : x s <;> rw [h] at hx
  case ok a s' =>
    rw [bind_ok h]
    exact hf a s' hx
  case error e s' =>
    rw [bind_error h]
    exact hx

theorem throw_bind (h : ∀ s, P s → E e s) : Meets P (MonadExcept.throw e >>= f) R E :=
  h

-- Reading the state fixes it for the rest of the action.
theorem get {f : σ → EStateM ε σ β} (h : ∀ s, P s → Meets (· = s) (f s) R E) :
    Meets P (get >>= f) R E :=
  fun s hs => h s hs s rfl

theorem get_eq {f : σ → EStateM ε σ β} (h : Meets (· = s) (f s) R E) :
    Meets (· = s) (MonadState.get >>= f) R E := by
  rintro _ rfl
  exact h _ rfl

theorem of_eq (h : Meets P x Q E) (hs : P s) : Meets (· = s) x Q E := by
  rintro _ rfl
  exact h _ hs

theorem ite {c : Prop} [Decidable c] (hx : c → Meets P x Q E) (hy : ¬c → Meets P y Q E) :
    Meets P (if c then x else y) Q E := by
  split
  case isTrue h => exact hx h
  case isFalse h => exact hy h

theorem imp (h : Meets P x Q E) (hp : ∀ s, P' s → P s) (hq : ∀ a s, Q a s → Q' a s)
    (he : ∀ e s, E e s → E' e s) : Meets P' x Q' E' := by
  intro s hs
  have h := h s (hp s hs)
  cases hx : x s <;> rw [hx] at h
  case ok a s' => exact hq a s' h
  case error e s' => exact he e s' h

theorem pre (h : Meets P x Q E) (hp : ∀ s, P' s → P s) : Meets P' x Q E :=
  fun s hs => h s (hp s hs)

theorem discard {Q : σ → Prop} (h : Meets P x (fun _ => Q) E) :
    Meets P (discard x) (fun _ => Q) E := by
  intro s hs
  have h := h s hs
  cases hx : x s <;> rw [hx] at h
  case ok => rwa [discard_ok hx]
  case error => rwa [discard_error hx]

theorem and (h : Meets P x Q E) (h' : Meets P' x Q' E') :
    Meets (fun s => P s ∧ P' s) x (fun a s => Q a s ∧ Q' a s) fun e s => E e s ∧ E' e s := by
  intro s ⟨hs, hs'⟩
  have h := h s hs
  have h' := h' s hs'
  cases hx : x s <;> rw [hx] at h h'
  case ok => exact ⟨h, h'⟩
  case error => exact ⟨h, h'⟩

-- What holds in any state can be assumed.
theorem assume {p : Prop} (h : p → Meets P x Q E) : Meets (fun s => p ∧ P s) x Q E :=
  fun s hs => h hs.left s hs.right

theorem of_ok (h : Meets P x Q E) (hs : P s) (hx : x s = .ok a s') : Q a s' := by
  have h := h s hs
  rwa [hx] at h

theorem of_error (h : Meets P x Q E) (hs : P s) (hx : x s = .error e s') : E e s' := by
  have h := h s hs
  rwa [hx] at h

end Meets
end EStateM
