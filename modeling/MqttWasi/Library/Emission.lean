import MqttWasi.Library.Action

-- What an action appends to a log, as a language. An action has two languages, one for the runs in
-- which it returns and one for those in which it fails.

namespace EStateM

variable {ε σ ω α β : Type} {log : σ → List ω} {L L' M E E' F : Language ω} {s s' s'' : σ}
  {x y : EStateM ε σ α} {f : α → EStateM ε σ β}

def Appends (log : σ → List ω) (L : Language ω) (s s' : σ) : Prop :=
  ∃ word ∈ L, log s' = log s ++ word

namespace Appends

theorem same (h : log s' = log s) (hl : [] ∈ L) : Appends log L s s' :=
  ⟨[], hl, by rw [h, List.append_nil]⟩

theorem mono (h : Appends log L s s') (hl : L ≤ L') : Appends log L' s s' := by
  obtain ⟨word, hw, he⟩ := h
  exact ⟨word, hl hw, he⟩

theorem trans (h : Appends log L s s') (h' : Appends log M s' s'') : Appends log (L * M) s s'' := by
  obtain ⟨word, hw, he⟩ := h
  obtain ⟨word', hw', he'⟩ := h'
  exact ⟨word ++ word', Language.append_mem_mul hw hw', by rw [he', he, List.append_assoc]⟩

end Appends

def Emits (log : σ → List ω) (L E : Language ω) (s : σ) (x : EStateM ε σ α) : Prop :=
  match x s with
  | .ok _ s'    => Appends log L s s'
  | .error _ s' => Appends log E s s'

namespace Emits

theorem of_ok (h : Emits log L E s x) (hx : x s = .ok a s') : Appends log L s s' := by
  rwa [Emits, hx] at h

theorem of_error (h : Emits log L E s x) (hx : x s = .error e s') : Appends log E s s' := by
  rwa [Emits, hx] at h

theorem mono (h : Emits log L E s x) (hl : L ≤ L') (he : E ≤ E') : Emits log L' E' s x := by
  rw [Emits] at h ⊢
  cases hx : x s <;> rw [hx] at h
  case ok => exact h.mono hl
  case error => exact h.mono he

theorem silent (h : log (x s).state = log s) (hl : [] ∈ L) (he : [] ∈ E) : Emits log L E s x := by
  rw [Emits]
  cases hx : x s <;> rw [hx] at h
  case ok => exact .same h hl
  case error => exact .same h he

theorem throw {e : ε} (h : [] ∈ E) : Emits log L E s (throw e : EStateM ε σ α) :=
  .same rfl h

theorem throw_bind {e : ε} (h : [] ∈ E) : Emits log L E s (MonadExcept.throw e >>= f) :=
  .same rfl h

theorem bind (hx : Emits log L E s x) (hf : ∀ a s', x s = .ok a s' → Emits log M F s' (f a))
    (he : L * F ≤ E) : Emits log (L * M) E s (x >>= f) := by
  rw [Emits] at hx ⊢
  cases h : x s <;> rw [h] at hx
  case error e s' =>
    rw [bind_error h]
    exact hx
  case ok a s' =>
    have hf := hf a s' h
    rw [Emits] at hf
    rw [bind_ok h]
    cases hs : f a s' <;> rw [hs] at hf
    case ok => exact hx.trans hf
    case error => exact (hx.trans hf).mono he

-- A part of an action that does not append anything
theorem after (h : log (x s).state = log s) (hf : ∀ a s', x s = .ok a s' → Emits log L E s' (f a))
    (he : [] ∈ E) : Emits log L E s (x >>= f) := by
  have hx : Emits log 1 E s x := .silent h Language.nil_mem_one he
  have hb := hx.bind hf (one_mul E).le
  rwa [one_mul] at hb

-- Actions of which any number may follow each other
theorem seq (hl : L * L ≤ L) (hx : Emits log L L s x) (hf : ∀ a s', Emits log L L s' (f a)) :
    Emits log L L s (x >>= f) :=
  (hx.bind (fun a s' _ => hf a s') hl).mono hl le_rfl

theorem get {f : σ → EStateM ε σ β} (h : Emits log L E s (f s)) :
    Emits log L E s (MonadState.get >>= f) :=
  h

theorem discard (h : Emits log L E s x) : Emits log L E s (discard x) := by
  rw [Emits] at h ⊢
  cases hx : x s <;> rw [hx] at h
  case ok => rwa [discard_ok hx]
  case error => rwa [discard_error hx]

theorem ite {c : Prop} [Decidable c] (hx : c → Emits log L E s x) (hy : ¬c → Emits log L E s y) :
    Emits log L E s (if c then x else y) := by
  split
  case isTrue h => exact hx h
  case isFalse h => exact hy h

end Emits
end EStateM
