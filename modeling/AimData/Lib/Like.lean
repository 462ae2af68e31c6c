/-
  The patterns of SQL's `LIKE`: `%` stands for any characters and `_` for one.
-/
import Mathlib.Data.List.Infix

namespace Like

/-- `text LIKE pattern` -/
def like : List Char → List Char → Bool
  | [], text => text.isEmpty
  | c :: pattern, text =>
    if c = '%' then text.tails.any (like pattern)
    else
      match text with
      | [] => false
      | d :: text => (c = '_' || c = d) && like pattern text

theorem like_percent {pattern text : List Char} :
    like ('%' :: pattern) text = true ↔ ∃ t, t <:+ text ∧ like pattern t = true := by
  simp [like, List.any_eq_true]

theorem like_cons {c : Char} {pattern text : List Char} (h : like pattern text = true) :
    like (c :: pattern) (c :: text) = true := by
  by_cases hc : c = '%'
  · subst hc
    exact like_percent.2 ⟨text, List.suffix_cons _ _, h⟩
  · simp [like, hc, h]

/-- A text that goes on after a pattern's own characters. -/
theorem like_append {pattern text : List Char} : like (pattern ++ ['%']) (pattern ++ text) = true := by
  induction pattern with
  | nil => exact like_percent.2 ⟨[], List.nil_suffix, rfl⟩
  | cons c pattern ih => exact like_cons ih

/-- **A text that contains the characters matches, wildcards among them or not.** -/
theorem like_contains (before pattern after : List Char) :
    like ('%' :: (pattern ++ ['%'])) (before ++ (pattern ++ after)) = true :=
  like_percent.2 ⟨_, List.suffix_append _ _, like_append⟩

end Like
