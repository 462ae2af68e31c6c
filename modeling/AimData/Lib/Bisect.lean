/-
  Binary search for the first number that is no longer below a bound.
-/
import Mathlib.Tactic

namespace Bisect

/-- The search between `low` and `high`; `below` holds of the numbers to skip. -/
def first (below : ℕ → Bool) (low high : ℕ) : ℕ :=
  if low < high then
    let middle := (low + high) / 2
    if below middle then first below (middle + 1) high else first below low middle
  else low
termination_by high - low

/-- Where `below` holds of a number and of all before it, the search ends at the first
    number it does not hold of. -/
theorem first_le_iff {below : ℕ → Bool} {low high n : ℕ}
    (hmono : ∀ m m', m ≤ m' → below m' → below m) (hlow : ∀ m < low, below m)
    (hn : n < high ∨ below high = false) (hle : low ≤ high) :
    first below low high ≤ n ↔ below n = false := by
  induction low, high using first.induct below with
  | case1 low high hlt middle hbelow ih =>
    rw [first, if_pos hlt, if_pos hbelow]
    exact ih (fun m hm => hmono m middle (by omega) hbelow) hn (by omega)
  | case2 low high hlt middle hbelow ih =>
    rw [first, if_pos hlt, if_neg hbelow]
    exact ih hlow (.inr (Bool.eq_false_iff.2 hbelow)) (by omega)
  | case3 low high hlt =>
    obtain rfl : low = high := by omega
    rw [first, if_neg hlt]
    constructor
    · intro h
      rcases hn with hn | hhigh
      · omega
      · by_contra hbelow
        exact absurd (hmono low n h (Bool.eq_true_of_not_eq_false hbelow)) (by simp [hhigh])
    · intro h
      by_contra hlt
      exact absurd (hlow n (not_le.1 hlt)) (by simp [h])

theorem first_le {below : ℕ → Bool} {low high : ℕ} (hle : low ≤ high) :
    first below low high ≤ high := by
  induction low, high using first.induct below with
  | case1 low high hlt middle hbelow ih =>
    rw [first, if_pos hlt, if_pos hbelow]
    exact ih (by omega)
  | case2 low high hlt middle hbelow ih =>
    rw [first, if_pos hlt, if_neg hbelow]
    exact (ih (by omega)).trans (by omega)
  | case3 low high hlt =>
    rw [first, if_neg hlt]
    exact hle

end Bisect
