import Mathlib.Data.List.Basic

-- A queue of frames that is written to a byte stream piece by piece. A frame leaves the queue when
-- all of its bytes have been accepted; until then its offset says how many of them have been.

structure FrameQueue (φ β : Type) where
  bytes : φ → List β
  offset : φ → Nat

namespace FrameQueue

variable {φ β : Type} {Q : FrameQueue φ β} {written queue : List φ} {wire : List β}

-- The bytes of the frame in front of the queue that have been accepted.
def started (Q : FrameQueue φ β) : List φ → List β
  | []     => []
  | f :: _ => (Q.bytes f).take (Q.offset f)

structure Framed (Q : FrameQueue φ β) (written queue : List φ) (wire : List β) : Prop where
  wire_eq : wire = written.flatMap Q.bytes ++ Q.started queue
  unstarted : ∀ f ∈ queue.tail, Q.offset f = 0
  unfinished : ∀ f ∈ queue, Q.offset f < (Q.bytes f).length

namespace Framed

theorem nil : Framed Q [] [] [] where
  wire_eq := rfl
  unstarted := by simp
  unfinished := by simp

theorem wire_prefix (h : Framed Q written queue wire) :
    wire <+: (written ++ queue).flatMap Q.bytes := by
  rw [h.wire_eq, List.flatMap_append]
  refine (List.prefix_append_right_inj _).mpr ?_
  cases queue
  case nil => exact List.prefix_rfl
  case cons f queue => exact (List.take_prefix _ _).trans (List.prefix_append _ _)

theorem push (h : Framed Q written queue wire) (ho : Q.offset f = 0) (hb : Q.bytes f ≠ []) :
    Framed Q written (queue ++ [f]) wire where
  wire_eq := by
    cases queue
    case nil => simpa [started, ho] using h.wire_eq
    case cons => exact h.wire_eq
  unstarted := by
    cases queue
    case nil => simp
    case cons g queue =>
      intro f' hf'
      rcases List.mem_append.mp hf' with hf' | hf'
      case inl => exact h.unstarted f' hf'
      case inr => rw [List.mem_singleton.mp hf', ho]
  unfinished f' hf' := by
    rcases List.mem_append.mp hf' with hf' | hf'
    case inl => exact h.unfinished f' hf'
    case inr =>
      rw [List.mem_singleton.mp hf', ho]
      exact List.length_pos_iff.mpr hb

-- Frames that have not been started can be withdrawn.
theorem withdraw (h : Framed Q written queue wire) {keep : φ → Bool}
    (hk : ∀ f ∈ queue, 0 < Q.offset f → keep f) : Framed Q written (queue.filter keep) wire := by
  have hs : ∀ f ∈ queue.filter keep, Q.offset f < (Q.bytes f).length := fun f hf =>
    h.unfinished f (List.mem_of_mem_filter hf)
  cases queue
  case nil => exact h
  case cons f queue =>
    have hr : ∀ g ∈ queue.filter keep, Q.offset g = 0 := fun g hg =>
      h.unstarted g (List.mem_of_mem_filter hg)
    by_cases hf : keep f
    case pos =>
      rw [List.filter_cons_of_pos hf] at hs ⊢
      exact ⟨h.wire_eq, hr, hs⟩
    case neg =>
      -- The frame in front was not started, so the new one in front is not either.
      have h0 : Q.offset f = 0 := by
        by_contra h0
        exact hf (hk f (by simp) (Nat.pos_of_ne_zero h0))
      rw [List.filter_cons_of_neg hf] at hs ⊢
      refine ⟨?_, fun g hg => hr g (List.mem_of_mem_tail hg), hs⟩
      have hw := h.wire_eq
      simp only [started, h0, List.take_zero] at hw
      cases hq : queue.filter keep
      case nil => exact hw
      case cons g rest => simp [hw, started, hr g (by simp [hq])]

theorem accept (h : Framed Q written (f :: queue) wire) (hb : Q.bytes f' = Q.bytes f)
    (ho : Q.offset f' = Q.offset f + n) :
    wire ++ ((Q.bytes f).drop (Q.offset f)).take n =
      written.flatMap Q.bytes ++ (Q.bytes f').take (Q.offset f') := by
  rw [h.wire_eq, started, hb, ho, List.append_assoc, List.take_add]

theorem advance (h : Framed Q written (f :: queue) wire) (hb : Q.bytes f' = Q.bytes f)
    (ho : Q.offset f' = Q.offset f + n) (hl : Q.offset f' < (Q.bytes f').length) :
    Framed Q written (f' :: queue) (wire ++ ((Q.bytes f).drop (Q.offset f)).take n) where
  wire_eq := h.accept hb ho
  unstarted := h.unstarted
  unfinished g hg := by
    rcases List.mem_cons.mp hg with rfl | hg
    case inl => exact hl
    case inr => exact h.unfinished g (List.mem_cons_of_mem f hg)

theorem pop (h : Framed Q written (f :: queue) wire) (hb : Q.bytes f' = Q.bytes f)
    (ho : Q.offset f' = Q.offset f + n) (hl : Q.offset f' = (Q.bytes f').length) :
    Framed Q (written ++ [f']) queue (wire ++ ((Q.bytes f).drop (Q.offset f)).take n) where
  wire_eq := by
    have hq : Q.started queue = [] := by
      cases queue
      case nil => rfl
      case cons g rest => simp [started, h.unstarted g (by simp)]
    rw [h.accept hb ho, hl, List.take_length, hq]
    simp
  unstarted g hg := h.unstarted g (List.mem_of_mem_tail hg)
  unfinished g hg := h.unfinished g (List.mem_cons_of_mem f hg)

end Framed
end FrameQueue
