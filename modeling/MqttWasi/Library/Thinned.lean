import Mathlib.Data.List.Basic

-- A list from which some elements that satisfy `p` have been taken out.

inductive Thinned {α : Type} (p : α → Prop) : List α → List α → Prop
  | nil : Thinned p [] []
  | keep (a) : Thinned p l l' → Thinned p (a :: l) (a :: l')
  | drop : p a → Thinned p l l' → Thinned p (a :: l) l'

namespace Thinned

variable {α : Type} {p : α → Prop} {l l' l'' m m' : List α}

theorem refl (l : List α) : Thinned p l l := by
  induction l
  case nil => exact .nil
  case cons a l ih => exact ih.keep a

theorem append (h : Thinned p l l') (h' : Thinned p m m') : Thinned p (l ++ m) (l' ++ m') := by
  induction h
  case nil => exact h'
  case keep a _ ih => exact ih.keep a
  case drop hp _ ih => exact ih.drop hp

theorem trans (h : Thinned p l l') (h' : Thinned p l' l'') : Thinned p l l'' := by
  induction h generalizing l''
  case nil => exact h'
  case drop hp _ ih => exact (ih h').drop hp
  case keep a _ ih =>
    cases h'
    case keep h' => exact (ih h').keep a
    case drop hp h' => exact (ih h').drop hp

theorem filter {keep : α → Bool} (h : ∀ a ∈ l, keep a = false → p a) : Thinned p l (l.filter keep) := by
  induction l
  case nil => exact .nil
  case cons a l ih =>
    have ih := ih fun b hb => h b (List.mem_cons_of_mem a hb)
    cases hk : keep a
    case true => rw [List.filter_cons_of_pos hk]; exact ih.keep a
    case false =>
      rw [List.filter_cons_of_neg (by simp [hk])]
      exact ih.drop (h a List.mem_cons_self hk)

theorem map {β : Type} {q : β → Prop} (f : α → β) (hf : ∀ a, p a → q (f a)) (h : Thinned p l l') :
    Thinned q (l.map f) (l'.map f) := by
  induction h
  case nil => exact .nil
  case keep a _ ih => exact ih.keep (f a)
  case drop hp _ ih => exact ih.drop (hf _ hp)

theorem sublist (h : Thinned p l l') : l'.Sublist l := by
  induction h
  case nil => exact .slnil
  case keep a _ ih => exact ih.cons_cons a
  case drop a _ _ _ ih => exact ih.cons _

-- Where an element that has been kept was before.
theorem split (h : Thinned p l (m ++ a :: m')) :
    ∃ ahead behind, l = ahead ++ a :: behind ∧ Thinned p ahead m := by
  generalize hm : m ++ a :: m' = l' at h
  induction h generalizing m
  case nil => simp at hm
  case drop b l _ hp _ ih =>
    obtain ⟨ahead, behind, rfl, ht⟩ := ih hm
    exact ⟨b :: ahead, behind, rfl, ht.drop hp⟩
  case keep b _ ih =>
    cases m
    case nil =>
      cases hm
      exact ⟨[], _, rfl, .nil⟩
    case cons c m =>
      obtain ⟨rfl, he⟩ := List.cons.inj hm
      obtain ⟨ahead, behind, rfl, hk⟩ := ih he
      exact ⟨c :: ahead, behind, rfl, hk.keep c⟩

end Thinned
