/-
  Sliding windows: times that are kept only while they are younger than the window, and
  the bound on any interval that follows from admitting only below a limit.

  A window tracks a log of times if it has as many late times as the log.  What is pruned
  at a check is too old for every interval that a later time is in.
-/
import Mathlib.Algebra.Order.Group.Defs
import Mathlib.Tactic

namespace SlidingWindow

variable {α : Type} [AddCommGroup α] [LinearOrder α]

/-- The times that are younger than the window. -/
def prune (size now : α) (times : List α) : List α := times.filter fun t => now - size < t

/-- The window has the late times of the log, which are all past. -/
structure Tracks (size now : α) (window log : List α) : Prop where
  past : ∀ t ∈ log, t ≤ now
  count : ∀ x, now - size ≤ x → window.countP (x < ·) = log.countP (x < ·)

/-- No interval of the size of the window, open below, has more than `limit` times. -/
def Limited (size : α) (limit : ℕ) (log : List α) : Prop :=
  ∀ t, log.countP (fun s => t - size < s ∧ s ≤ t) ≤ limit

variable {size now now' : α} {window log : List α} {limit : ℕ}

theorem Tracks.nil : Tracks size now [] [] := ⟨fun _ h => absurd h List.not_mem_nil, fun _ _ => rfl⟩

theorem Limited.nil : Limited size limit [] := fun _ => Nat.zero_le _

theorem countP_prune {x : α} (hx : now - size ≤ x) :
    (prune size now window).countP (x < ·) = window.countP (x < ·) := by
  rw [prune, List.countP_filter]
  refine List.countP_congr ?_
  intro t _
  simp only [Bool.and_eq_true, decide_eq_true_eq, and_iff_left_iff_imp]
  exact hx.trans_lt

theorem Tracks.prune (h : Tracks size now window log) :
    Tracks size now (prune size now window) log where
  past := h.past
  count := fun x hx => (countP_prune hx).trans (h.count x hx)

theorem length_prune (h : Tracks size now window log) :
    (SlidingWindow.prune size now window).length = log.countP (now - size < ·) := by
  rw [SlidingWindow.prune, ← List.countP_eq_length_filter]
  exact h.count _ le_rfl

theorem Tracks.record (h : Tracks size now window log) :
    Tracks size now (window ++ [now]) (now :: log) where
  past := by
    intro t ht
    rcases List.mem_cons.1 ht with rfl | ht
    · exact le_rfl
    · exact h.past t ht
  count := by
    intro x hx
    rw [List.countP_append, h.count x hx, List.countP_cons, List.countP_cons, List.countP_nil,
      Nat.zero_add]

variable [IsOrderedAddMonoid α]

theorem Tracks.mono (h : Tracks size now window log) (hnow : now ≤ now') :
    Tracks size now' window log where
  past := fun t ht => (h.past t ht).trans hnow
  count := fun x hx => h.count x ((sub_le_sub_right hnow size).trans hx)

/-- A time may be admitted that is recorded when less than the limit was counted before. -/
theorem Limited.record (hlog : Limited size limit log) (h : Tracks size now window log)
    (hcount : (prune size now window).length < limit) (hnow : now ≤ now') :
    Limited size limit (now' :: log) := by
  intro t
  rw [List.countP_cons]
  split_ifs with hin
  · have hlate : now - size ≤ t - size :=
      sub_le_sub_right (hnow.trans (of_decide_eq_true hin).2) size
    have hle : log.countP (fun s => t - size < s ∧ s ≤ t) ≤ log.countP (now - size < ·) := by
      refine List.countP_mono_left ?_
      intro s _ hs
      exact decide_eq_true (hlate.trans_lt (of_decide_eq_true hs).1)
    rw [← length_prune h] at hle
    omega
  · exact hlog t

end SlidingWindow
