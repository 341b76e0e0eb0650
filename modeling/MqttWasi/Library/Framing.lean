import Mathlib.Data.List.Basic

-- Cutting a stream into items when the stream arrives in pieces.

namespace Framing

-- What can be said about the front of a stream of which only a part has arrived.
inductive Verdict (ε α : Type)
  | more
  | fail (e : ε)
  | item (a : α) (length : Nat)

-- The items a stream starts with, and either the error that ends it or the incomplete remainder.
structure Outcome (β ε α : Type) where
  items : List α
  rest : Except ε (List β)

end Framing

-- A rule that cuts items off the front of a stream. A verdict other than `more` depends only on
-- what has arrived, so it stands whatever follows.
structure Framing (β ε α : Type) where
  next : List β → Framing.Verdict ε α
  next_nil : next [] = .more
  fail_append : ∀ {xs e} ys, next xs = .fail e → next (xs ++ ys) = .fail e
  item_append : ∀ {xs a n} ys, next xs = .item a n → next (xs ++ ys) = .item a n
  item_pos : ∀ {xs a n}, next xs = .item a n → 0 < n
  item_le : ∀ {xs a n}, next xs = .item a n → n ≤ xs.length

namespace Framing

variable {β ε α : Type} (F : Framing β ε α)

namespace Outcome

def cons (a : α) (o : Outcome β ε α) : Outcome β ε α :=
  { o with items := a :: o.items }

-- Continues an outcome that is not an error with more of the stream.
def andThen (o : Outcome β ε α) (f : List β → Outcome β ε α) : Outcome β ε α :=
  match o.rest with
  | .error _ => o
  | .ok rest => { f rest with items := o.items ++ (f rest).items }

theorem cons_andThen (a : α) (o : Outcome β ε α) (f) : (o.cons a).andThen f = (o.andThen f).cons a := by
  cases h : o.rest <;> simp [andThen, cons, h]

end Outcome

-- Cuts items off the front until the rule asks for more or fails. Items are never empty, so the
-- length of the stream bounds their number.
def parse (xs : List β) : Outcome β ε α :=
  go xs.length xs
where
  go : Nat → List β → Outcome β ε α
    | 0, xs => { items := [], rest := .ok xs }
    | fuel + 1, xs =>
      match F.next xs with
      | .more     => { items := [], rest := .ok xs }
      | .fail e   => { items := [], rest := .error e }
      | .item a n => (go fuel (xs.drop n)).cons a

variable {F} {xs ys : List β} {a : α} {e : ε} {n : Nat}

-- Fuel beyond the length of the stream changes nothing.
theorem parse.go_eq {fuel : Nat} (h : xs.length ≤ fuel) :
    parse.go F fuel xs = parse F xs := by
  induction fuel using Nat.strongRecOn generalizing xs
  case _ fuel ih =>
  cases fuel
  case zero =>
    have : xs = [] := List.length_eq_zero_iff.mp (by omega)
    simp [this, parse, go]
  case succ fuel =>
    cases hx : xs.length
    case zero =>
      have : xs = [] := List.length_eq_zero_iff.mp hx
      simp [this, parse, go, F.next_nil]
    case succ k =>
      simp only [parse, hx, go]
      cases hv : F.next xs <;> simp only
      case item a n =>
        have h₁ := F.item_pos hv
        have hl : (xs.drop n).length = xs.length - n := by simp
        rw [ih fuel (by omega) (by omega), ih k (by omega) (by omega)]

theorem parse_of_more (h : F.next xs = .more) : parse F xs = { items := [], rest := .ok xs } := by
  rw [← parse.go_eq (Nat.le_succ _)]
  simp [parse.go, h]

theorem parse_of_fail (h : F.next xs = .fail e) :
    parse F xs = { items := [], rest := .error e } := by
  rw [← parse.go_eq (Nat.le_succ _)]
  simp [parse.go, h]

theorem parse_of_item (h : F.next xs = .item a n) : parse F xs = (parse F (xs.drop n)).cons a := by
  rw [← parse.go_eq (Nat.le_succ _)]
  simp only [parse.go, h]
  rw [parse.go_eq (by simp)]

theorem parse_nil : parse F [] = { items := [], rest := .ok [] } :=
  parse_of_more F.next_nil

-- What has arrived can be parsed before the rest of the stream does.
theorem parse_append (xs ys : List β) :
    parse F (xs ++ ys) = (parse F xs).andThen fun rest => parse F (rest ++ ys) := by
  induction h : xs.length using Nat.strongRecOn generalizing xs
  case _ len ih =>
  cases hv : F.next xs
  case more => simp [parse_of_more hv, Outcome.andThen]
  case fail e => simp [parse_of_fail hv, parse_of_fail (F.fail_append ys hv), Outcome.andThen]
  case item a n =>
    have h₁ := F.item_pos hv
    have h₂ := F.item_le hv
    rw [parse_of_item hv, parse_of_item (F.item_append ys hv), Outcome.cons_andThen,
      List.drop_append_of_le_length h₂, ih (xs.drop n).length (by simp; omega) _ rfl]

theorem parse_append_of_rest (h : parse F xs = { items := as, rest := .ok [] }) :
    parse F (xs ++ ys) = { parse F ys with items := as ++ (parse F ys).items } := by
  simp [parse_append, h, Outcome.andThen]

theorem eq_of_parse (h : parse F xs = { items := [], rest := .ok ys }) : xs = ys := by
  cases hv : F.next xs
  case more => simpa [parse_of_more hv] using h
  case fail => simp [parse_of_fail hv] at h
  case item => simp [parse_of_item hv, Outcome.cons] at h

-- A stream is a single item if nothing else comes out of it.
theorem parse_eq_item : parse F xs = { items := [a], rest := .ok [] } ↔
    F.next xs = .item a xs.length := by
  constructor
  case mp =>
    intro h
    cases hv : F.next xs
    case more => simp [parse_of_more hv] at h
    case fail => simp [parse_of_fail hv] at h
    case item b n =>
      rw [parse_of_item hv, Outcome.cons, Outcome.mk.injEq, List.cons.injEq] at h
      obtain ⟨⟨rfl, hi⟩, hr⟩ := h
      have hd : xs.drop n = [] := eq_of_parse (by rw [← hi, ← hr])
      have hl := F.item_le hv
      rw [Nat.le_antisymm hl (List.drop_eq_nil_iff.mp hd)]
  case mpr =>
    intro h
    simp [parse_of_item h, parse_nil, Outcome.cons]

-- A stream of whole items gives these items back.
theorem parse_flatten {frames : List (List β)} {as : List α}
    (h : List.Forall₂ (fun a x => F.next x = .item a x.length) as frames) :
    parse F frames.flatten = { items := as, rest := .ok [] } := by
  induction h
  case nil => exact parse_nil
  case cons a x as frames hx _ ih =>
    simp [List.flatten_cons, parse_append_of_rest (parse_eq_item.mpr hx), ih]

-- A part of an item is not enough to say anything.
theorem more_of_part (h : F.next (xs ++ ys) = .item a (xs ++ ys).length) (hy : ys ≠ []) :
    F.next xs = .more := by
  cases hv : F.next xs
  case more => rfl
  case fail e => cases (F.fail_append ys hv).symm.trans h
  case item b n =>
    have hn := (F.item_append ys hv).symm.trans h
    rw [Verdict.item.injEq, List.length_append] at hn
    have hl := F.item_le hv
    have hy := List.length_pos_iff.mpr hy
    omega

-- A stream of whole items and a part of another one
theorem parse_flatten_append {frames : List (List β)} {as : List α}
    (h : List.Forall₂ (fun a x => F.next x = .item a x.length) as frames) (hm : F.next xs = .more) :
    parse F (frames.flatten ++ xs) = { items := as, rest := .ok xs } := by
  rw [parse_append_of_rest (parse_flatten h), parse_of_more hm, List.append_nil]

-- However much of a stream of whole items has arrived, the first of the items come out of it.
theorem parse_part {frames : List (List β)} {as : List α}
    (h : List.Forall₂ (fun a x => F.next x = .item a x.length) as frames) (hp : xs <+: frames.flatten) :
    ∃ items part, items <+: as ∧ parse F xs = { items, rest := .ok part } := by
  induction h generalizing xs
  case nil =>
    rw [List.prefix_nil.mp hp]
    exact ⟨[], [], List.prefix_rfl, parse_nil⟩
  case cons a x as frames hx _ ih =>
    obtain ⟨ys, hy⟩ := hp
    rw [List.flatten_cons] at hy
    rcases List.append_eq_append_iff.mp hy with ⟨zs, rfl, _⟩ | ⟨zs, rfl, hz⟩
    case inl =>
      by_cases hn : zs = []
      case pos =>
        subst hn
        rw [List.append_nil] at hx
        exact ⟨[a], [], List.prefix_append [a] as, parse_eq_item.mpr hx⟩
      case neg => exact ⟨[], xs, List.nil_prefix, parse_of_more (more_of_part hx hn)⟩
    case inr =>
      obtain ⟨items, part, hi, hr⟩ := ih ⟨ys, hz.symm⟩
      refine ⟨a :: items, part, (List.prefix_cons_inj a).mpr hi, ?_⟩
      rw [parse_append_of_rest (parse_eq_item.mpr hx), hr]
      rfl

theorem exists_items {φ : Type} {R : α → φ → Prop} {frames : List φ}
    (h : ∀ frame ∈ frames, ∃ a, R a frame) : ∃ as, List.Forall₂ R as frames := by
  induction frames
  case nil => exact ⟨[], .nil⟩
  case cons frame frames ih =>
    obtain ⟨a, ha⟩ := h frame (List.mem_cons_self ..)
    obtain ⟨as, has⟩ := ih fun frame hm => h frame (List.mem_cons_of_mem _ hm)
    exact ⟨a :: as, .cons ha has⟩

-- Items that have a header, which says how many elements the body has.

variable {η : Type} {size : η → Nat} {decode : η → List β → Except ε α}

def nextBody (F : Framing β ε η) (size : η → Nat) (decode : η → List β → Except ε α)
    (xs : List β) : Verdict ε α :=
  match F.next xs with
  | .more   => .more
  | .fail e => .fail e
  | .item header n =>
    if xs.length < n + size header then
      .more
    else
      match decode header ((xs.drop n).take (size header)) with
      | .ok a    => .item a (n + size header)
      | .error e => .fail e

theorem nextBody_of_header {F : Framing β ε η} (h : F.next xs = .item header n)
    (hl : n + size header ≤ xs.length) : nextBody F size decode xs =
      match decode header ((xs.drop n).take (size header)) with
      | .ok a    => .item a (n + size header)
      | .error e => .fail e := by
  simp only [nextBody, h]
  rw [if_neg (by omega)]

theorem nextBody_item {F : Framing β ε η} (h : nextBody F size decode xs = .item a n) :
    ∃ header headerLen, F.next xs = .item header headerLen ∧ n = headerLen + size header ∧
      n ≤ xs.length := by
  cases hv : F.next xs <;> simp only [nextBody, hv] at h
  case more => cases h
  case fail => cases h
  case item header headerLen =>
    split at h
    case isTrue => cases h
    case isFalse hl =>
      split at h <;> cases h
      exact ⟨header, headerLen, rfl, rfl, Nat.le_of_not_lt hl⟩

theorem nextBody_append {F : Framing β ε η} (h : nextBody F size decode xs ≠ .more) (ys : List β) :
    nextBody F size decode (xs ++ ys) = nextBody F size decode xs := by
  cases hv : F.next xs
  case more => simp [nextBody, hv] at h
  case fail e => simp only [nextBody, hv, F.fail_append ys hv]
  case item header n =>
    by_cases hl : xs.length < n + size header
    case pos => simp [nextBody, hv, hl] at h
    case neg =>
      have hl := Nat.le_of_not_lt hl
      have hn := F.item_le hv
      rw [nextBody_of_header hv hl, nextBody_of_header (F.item_append ys hv) (by simp; omega),
        List.drop_append_of_le_length hn, List.take_append_of_le_length (by simp; omega)]

def withBody (F : Framing β ε η) (size : η → Nat) (decode : η → List β → Except ε α) :
    Framing β ε α where
  next := nextBody F size decode
  next_nil := by rw [nextBody, F.next_nil]
  fail_append ys h := by rw [nextBody_append (by simp [h]), h]
  item_append ys h := by rw [nextBody_append (by simp [h]), h]
  item_pos h := by
    have ⟨_, _, hv, hn, _⟩ := nextBody_item h
    have := F.item_pos hv
    omega
  item_le h := by
    have ⟨_, _, _, _, hl⟩ := nextBody_item h
    exact hl

-- A whole item
theorem withBody_item {F : Framing β ε η} (h : F.next xs = .item header n)
    (hl : n + size header = xs.length) (hd : decode header (xs.drop n) = .ok a) :
    (withBody F size decode).next xs = .item a xs.length := by
  have hx : (xs.drop n).take (size header) = xs.drop n :=
    List.take_of_length_le (by simp; omega)
  change nextBody F size decode xs = _
  rw [nextBody_of_header h (Nat.le_of_eq hl), hx, hd]
  simp only [hl]

-- The items have been cut off the front of a stream and the rest is what is left of it, whatever is
-- still to come.
def Cut (F : Framing β ε α) (stream : List β) (items : List α) (rest : List β) : Prop :=
  ∀ ys, parse F (stream ++ ys) =
    { parse F (rest ++ ys) with items := items ++ (parse F (rest ++ ys)).items }

namespace Cut

variable {stream rest : List β} {items : List α}

theorem nil : Cut F [] [] [] :=
  fun _ => rfl

theorem append (h : Cut F stream items rest) (xs : List β) :
    Cut F (stream ++ xs) items (rest ++ xs) := by
  intro ys
  rw [List.append_assoc, List.append_assoc]
  exact h (xs ++ ys)

theorem item (h : Cut F stream items rest) (hn : F.next rest = .item a n) :
    Cut F stream (items ++ [a]) (rest.drop n) := by
  intro ys
  rw [h ys, parse_of_item (F.item_append ys hn), List.drop_append_of_le_length (F.item_le hn)]
  simp [Outcome.cons]

-- Nothing is left to be cut off exactly if the rest does not start with an item.
theorem items_eq_iff (h : Cut F stream items rest) :
    items = (parse F stream).items ↔ ∀ a n, F.next rest ≠ .item a n := by
  have hp := h []
  rw [List.append_nil, List.append_nil] at hp
  rw [hp]
  cases hn : F.next rest
  case more => simp [parse_of_more hn]
  case fail => simp [parse_of_fail hn]
  case item a n => simp [parse_of_item hn, Outcome.cons]

end Cut
end Framing
