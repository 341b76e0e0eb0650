import MqttWasi.Library.Action

-- What an action can do to the state, as a sequence of elementary moves. Unlike a postcondition
-- this says the same whether the action returns or fails.

open Relation (ReflTransGen)

-- What every move preserves is preserved.
theorem Relation.ReflTransGen.preserves {σ : Type} {M : σ → σ → Prop} {s s' : σ} {P : σ → Prop}
    (h : ReflTransGen M s s') (hm : ∀ s s', M s s' → P s → P s') (hp : P s) : P s' := by
  induction h
  case refl => exact hp
  case tail h ih => exact hm _ _ h ih

namespace EStateM

variable {ε σ α β : Type} {M N : σ → σ → Prop} {s : σ} {x : EStateM ε σ α}

def Leads (M : σ → σ → Prop) (s : σ) (x : EStateM ε σ α) : Prop :=
  ReflTransGen M s (x s).state

namespace Leads

theorem pure (a : α) : Leads M s (pure a : EStateM ε σ α) :=
  .refl

theorem throw (e : ε) : Leads M s (throw e : EStateM ε σ α) :=
  .refl

theorem single (h : M s (x s).state) : Leads M s x :=
  ReflTransGen.single h

theorem modify {f : σ → σ} (h : M s (f s)) : Leads M s (modify f : EStateM ε σ PUnit) :=
  ReflTransGen.single h

theorem set {s' : σ} (h : M s s') : Leads M s (set s' : EStateM ε σ PUnit) :=
  ReflTransGen.single h

theorem bind {f : α → EStateM ε σ β} (hx : Leads M s x)
    (hf : ∀ a s', x s = .ok a s' → Leads M s' (f a)) : Leads M s (x >>= f) := by
  unfold Leads at hx ⊢
  cases h : x s <;> rw [h] at hx
  case ok a s' =>
    rw [bind_ok h]
    exact hx.trans (hf a s' h)
  case error e s' =>
    rw [bind_error h]
    exact hx

-- The rest of the action may start in any state.
theorem bind_any {f : α → EStateM ε σ β} (hx : Leads M s x) (hf : ∀ a s', Leads M s' (f a)) :
    Leads M s (x >>= f) :=
  hx.bind fun a s' _ => hf a s'

theorem get {f : σ → EStateM ε σ β} (h : Leads M s (f s)) : Leads M s (MonadState.get >>= f) :=
  h

theorem discard (hx : Leads M s x) : Leads M s (discard x) := by
  unfold Leads at hx ⊢
  rw [show (Functor.discard x) s = (Functor.map (fun _ => PUnit.unit) x) s from rfl, map_apply]
  cases h : x s <;> rw [h] at hx <;> exact hx

theorem ite {c : Prop} [Decidable c] {y : EStateM ε σ α} (hx : c → Leads M s x)
    (hy : ¬c → Leads M s y) : Leads M s (if c then x else y) := by
  split
  case isTrue h => exact hx h
  case isFalse h => exact hy h

theorem forM {l : List β} {f : β → EStateM ε σ PUnit} (h : ∀ b s, Leads M s (f b)) :
    Leads M s (l.forM f) := by
  induction l generalizing s
  case nil => exact .pure _
  case cons b l ih => exact (h b s).bind_any fun _ _ => ih

theorem mono (h : Leads M s x) (hm : ∀ s s', M s s' → N s s') : Leads N s x :=
  Relation.ReflTransGen.mono hm _ _ h

end Leads
end EStateM
