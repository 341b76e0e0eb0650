import MqttWasi.Library.Action

-- What an action takes off a source when it returns, as a relation between the items and the value.

namespace EStateM

variable {ε σ ω α β : Type} {source : σ → List ω} {L L' : List ω → α → Prop} {M : α → List ω → β → Prop}
  {x : EStateM ε σ α} {f : α → EStateM ε σ β}

def Draws (source : σ → List ω) (L : List ω → α → Prop) (x : EStateM ε σ α) : Prop :=
  ∀ s a s', x s = .ok a s' → ∃ word, L word a ∧ source s = word ++ source s'

namespace Draws

theorem mono (h : Draws source L x) (hl : ∀ word a, L word a → L' word a) : Draws source L' x := by
  intro s a s' hx
  obtain ⟨word, hw, hs⟩ := h s a s' hx
  exact ⟨word, hl word a hw, hs⟩

theorem throw (e : ε) : Draws source L (throw e : EStateM ε σ α) := by
  intro s a s' hx
  cases hx

theorem throw_bind (e : ε) {N : List ω → β → Prop} : Draws source N (MonadExcept.throw e >>= f) := by
  intro s b s' hx
  cases hx

-- An action that leaves the source as it is
theorem silent (h : ∀ s, source (x s).state = source s) (hl : ∀ s a s', x s = .ok a s' → L [] a) :
    Draws source L x := by
  intro s a s' hx
  have h := h s
  rw [hx] at h
  exact ⟨[], hl s a s' hx, h.symm⟩

theorem pure (h : L [] a) : Draws source L (pure a : EStateM ε σ α) := by
  intro s b s' hx
  cases hx
  exact ⟨[], h, rfl⟩

theorem bind (hx : Draws source L x) (hf : ∀ a, Draws source (M a) (f a)) :
    Draws source (fun word b => ∃ a front back, word = front ++ back ∧ L front a ∧ M a back b) (x >>= f) := by
  intro s b s' hb
  obtain ⟨a, s₁, ha, hb⟩ := bind_eq_ok.mp hb
  obtain ⟨front, hl, hs⟩ := hx s a s₁ ha
  obtain ⟨back, hm, hs'⟩ := hf a s₁ b s' hb
  exact ⟨front ++ back, ⟨a, front, back, rfl, hl, hm⟩, by rw [hs, hs', List.append_assoc]⟩

-- A part of an action that takes nothing
theorem after {N : List ω → β → Prop} {p : α → Prop} (hx : Draws source (fun word a => word = [] ∧ p a) x)
    (hf : ∀ a, p a → Draws source N (f a)) : Draws source N (x >>= f) := by
  intro s b s' hb
  obtain ⟨a, s₁, ha, hb⟩ := bind_eq_ok.mp hb
  obtain ⟨_, ⟨rfl, hp⟩, hs⟩ := hx s a s₁ ha
  obtain ⟨word, hw, hs'⟩ := hf a hp s₁ b s' hb
  exact ⟨word, hw, hs.trans hs'⟩

theorem get {f : σ → EStateM ε σ β} {L : List ω → β → Prop} (h : ∀ s, Draws source L (f s)) :
    Draws source L (MonadState.get >>= f) :=
  fun s => h s s

theorem ite {c : Prop} [Decidable c] {y : EStateM ε σ α} (hx : c → Draws source L x)
    (hy : ¬c → Draws source L y) : Draws source L (if c then x else y) := by
  split
  case isTrue h => exact hx h
  case isFalse h => exact hy h

end Draws
end EStateM
