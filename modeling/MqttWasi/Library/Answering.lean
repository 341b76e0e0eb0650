import Mathlib.Data.List.Basic
import Mathlib.Data.List.Forall2

-- Requests and their answers. An answer is taken to be for the oldest request that it fits and that
-- has not been answered.

namespace Answering

variable {α β : Type} {fits : β → α → Bool} {requests : List α} {answers : List β}

def unanswered (fits : β → α → Bool) (requests : List α) (answers : List β) : List α :=
  answers.foldl (fun left answer => left.eraseP (fits answer)) requests

theorem unanswered_concat (answer : β) : unanswered fits requests (answers ++ [answer]) =
    (unanswered fits requests answers).eraseP (fits answer) := by
  simp [unanswered]

theorem unanswered_sublist : (unanswered fits requests answers).Sublist requests := by
  induction answers generalizing requests
  case nil => exact .refl _
  case cons answer answers ih => exact ih.trans List.eraseP_sublist

theorem unanswered_append_sublist (more : List β) :
    (unanswered fits requests (answers ++ more)).Sublist (unanswered fits requests answers) := by
  rw [unanswered, List.foldl_append]
  exact unanswered_sublist

-- Every answer was for a request that had been made before, so new requests are all unanswered.
def Matched (fits : β → α → Bool) (requests : List α) (answers : List β) : Prop :=
  ∀ more, unanswered fits (requests ++ more) answers = unanswered fits requests answers ++ more

theorem Matched.nil : Matched fits requests [] :=
  fun _ => rfl

theorem Matched.append (h : Matched fits requests answers) (more : List α) :
    Matched fits (requests ++ more) answers := by
  intro more'
  rw [List.append_assoc, h (more ++ more'), h more, List.append_assoc]

theorem Matched.answer {request : α} {answer : β} (h : Matched fits requests answers)
    (hm : request ∈ unanswered fits requests answers) (hf : fits answer request = true) :
    Matched fits requests (answers ++ [answer]) := by
  intro more
  rw [unanswered_concat, unanswered_concat, h more, List.eraseP_append_left hf more hm]

-- Requests of one kind are answered by answers of one kind.
theorem unanswered_filter {p : α → Bool} {q : β → Bool}
    (h : ∀ answer request, fits answer request = true → p request = q answer) :
    (unanswered fits requests answers).filter p =
      unanswered fits (requests.filter p) (answers.filter q) := by
  induction answers generalizing requests
  case nil => rfl
  case cons answer answers ih =>
    rw [unanswered, List.foldl_cons]
    refine ih.trans ?_
    cases hq : q answer
    case false =>
      have hn : (requests.eraseP (fits answer)).filter p = requests.filter p := by
        induction requests
        case nil => rfl
        case cons request requests ih =>
          rw [List.eraseP_cons]
          cases hf : fits answer request
          case true => simp [h _ _ hf, hq]
          case false => simp [List.filter_cons, ih]
      rw [hn, List.filter_cons_of_neg (by simp [hq])]
    case true =>
      have hf : (fun request => fits answer request && p request) = fits answer := by
        funext request
        cases hf : fits answer request
        case true => simp [h _ _ hf, hq]
        case false => rfl
      rw [List.filter_cons_of_pos hq, ← hf, ← List.eraseP_filter]
      rfl

-- The answers are for the requests in the order in which these were made.
def InOrder (fits : β → α → Bool) (requests : List α) (answers : List β) : Prop :=
  ∃ answered left, requests = answered ++ left ∧
    List.Forall₂ (fun answer request => fits answer request = true) answers answered

theorem InOrder.nil : InOrder fits requests [] :=
  ⟨[], requests, rfl, .nil⟩

theorem InOrder.append (h : InOrder fits requests answers) (more : List α) :
    InOrder fits (requests ++ more) answers := by
  have ⟨answered, left, hr, ha⟩ := h
  exact ⟨answered, left ++ more, by rw [hr, List.append_assoc], ha⟩

theorem unanswered_of_forall₂ {answered left : List α}
    (h : List.Forall₂ (fun answer request => fits answer request = true) answers answered) :
    unanswered fits (answered ++ left) answers = left := by
  induction h
  case nil => rfl
  case cons hf _ ih =>
    rw [unanswered, List.foldl_cons, List.cons_append, List.eraseP_cons_of_pos hf]
    exact ih

-- The next answer is for the next request.
theorem InOrder.answer {request : α} {answer : β} (h : InOrder fits requests answers)
    (hm : request ∈ (unanswered fits requests answers).head?) (hf : fits answer request = true) :
    ∃ answered left, requests = answered ++ request :: left ∧
      answered.length = answers.length ∧ InOrder fits requests (answers ++ [answer]) := by
  have ⟨answered, left, hr, ha⟩ := h
  rw [hr, unanswered_of_forall₂ ha] at hm
  cases left
  case nil => cases hm
  case cons next left =>
    cases hm
    refine ⟨answered, left, hr, ha.length_eq.symm, answered ++ [request], left, ?_, ?_⟩
    case refine_1 => rw [hr, List.append_assoc]; rfl
    case refine_2 => exact List.rel_append ha (.cons hf .nil)

end Answering
