/-
  Merging sorted runs by repeatedly taking the least head.

  A run in progress is its head and what follows it.  `pick` finds the run
  with the least head (the earliest among equals), `kmerge` merges until no
  run is left; the result is the sorted permutation of the runs.  `numbered`
  numbers the equal elements of a list; on a sorted list a counter that is
  reset at each new element does it (`counted_eq`).
-/
import Mathlib.Data.List.Sort
import Mathlib.Tactic

namespace KWay

/-! ## Runs in progress -/

section
variable {α : Type*}

/-- A run in progress, without its head. -/
def next : List α → List (α × List α)
  | [] => []
  | a :: l => [(a, l)]

/-- What is left of the runs in progress. -/
def left (hs : List (α × List α)) : List α := hs.flatMap fun h => h.1 :: h.2

@[simp] theorem left_nil : left ([] : List (α × List α)) = [] := rfl

theorem left_append (hs hs' : List (α × List α)) : left (hs ++ hs') = left hs ++ left hs' := by
  simp [left]

@[simp] theorem left_cons (h : α × List α) (hs) : left (h :: hs) = h.1 :: h.2 ++ left hs := rfl

@[simp] theorem left_next (l : List α) : left (next l) = l := by
  cases l <;> simp [next, left]

/-- The runs in progress of a list of runs. -/
def heads (runs : List (List α)) : List (α × List α) := runs.flatMap next

theorem left_heads (runs : List (List α)) : left (heads runs) = runs.flatten := by
  induction runs with
  | nil => rfl
  | cons r runs ih =>
    rw [heads, List.flatMap_cons, left_append, left_next, List.flatten_cons, ← ih, heads]

end

/-! ## The choice of a run -/

variable {α : Type*} [LinearOrder α] {σ τ : Type*}

/-- The runs before the one with the least head, that one, and those behind. -/
def pick : α × σ → List (α × σ) → List (α × σ) × (α × σ) × List (α × σ)
  | h, [] => ([], h, [])
  | h, h' :: l =>
    let (before, m, after) := pick h' l
    if h.1 ≤ m.1 then ([], h, h' :: l) else (h :: before, m, after)

theorem pick_spec : ∀ {h : α × σ} {l : List (α × σ)} {before m after},
    pick h l = (before, m, after) →
      h :: l = before ++ m :: after ∧ ∀ x ∈ h :: l, m.1 ≤ x.1
  | h, [], before, m, after, he => by
    simp only [pick, Prod.mk.injEq] at he
    obtain ⟨rfl, rfl, rfl⟩ := he
    simp
  | h, h' :: l, before, m, after, he => by
    obtain ⟨b, m', a, hr⟩ : ∃ b m' a, pick h' l = (b, m', a) := ⟨_, _, _, rfl⟩
    obtain ⟨h1, h2⟩ := pick_spec hr
    simp only [pick, hr] at he
    split_ifs at he with hle
    · simp only [Prod.mk.injEq] at he
      obtain ⟨rfl, rfl, rfl⟩ := he
      refine ⟨rfl, fun x hx => ?_⟩
      rcases List.mem_cons.1 hx with rfl | hx
      · exact le_rfl
      · exact hle.trans (h2 x hx)
    · simp only [Prod.mk.injEq] at he
      obtain ⟨rfl, rfl, rfl⟩ := he
      refine ⟨by rw [h1]; rfl, fun x hx => ?_⟩
      rcases List.mem_cons.1 hx with rfl | hx
      · exact (not_le.1 hle).le
      · exact h2 x hx

/-- The choice looks at the heads only. -/
theorem pick_map (f : σ → τ) : ∀ (h : α × σ) (l : List (α × σ)),
    pick (Prod.map id f h) (l.map (Prod.map id f)) =
      ((pick h l).1.map (Prod.map id f), Prod.map id f (pick h l).2.1,
        (pick h l).2.2.map (Prod.map id f))
  | h, [] => rfl
  | h, h' :: l => by
    rw [List.map_cons, pick, pick, pick_map f h' l]
    by_cases hle : h.1 ≤ (pick h' l).2.1.1
    · simp [hle]
    · simp [hle]

/-! ## The merge -/

/-- Merge runs in progress; the first argument bounds the recursion. -/
def kmerge : ℕ → List (α × List α) → List α
  | 0, _ => []
  | _ + 1, [] => []
  | fuel + 1, h :: hs =>
    let (before, (a, rest), after) := pick h hs
    a :: kmerge fuel (before ++ next rest ++ after)

/-- Every run in progress is sorted. -/
def AllSorted (hs : List (α × List α)) : Prop := ∀ h ∈ hs, (h.1 :: h.2).Pairwise (· ≤ ·)

theorem allSorted_heads {runs : List (List α)} (h : ∀ r ∈ runs, r.Pairwise (· ≤ ·)) :
    AllSorted (heads runs) := by
  intro x hx
  obtain ⟨r, hr, hx⟩ := List.mem_flatMap.1 hx
  cases r with
  | nil => cases hx
  | cons a l =>
    obtain rfl : x = (a, l) := by simpa [next] using hx
    exact h _ hr

/-- Taking the least head leaves a permutation without it. -/
theorem pick_perm {h : α × List α} {hs before : List (α × List α)} {a : α} {rest : List α}
    {after : List (α × List α)} (he : pick h hs = (before, (a, rest), after)) :
    (left (h :: hs)).Perm (a :: left (before ++ next rest ++ after)) := by
  rw [(pick_spec he).1, left_append, left_append, left_append, left_cons, left_next]
  simp only [List.cons_append, List.append_assoc]
  exact List.perm_middle

theorem AllSorted.pick {h : α × List α} {hs before : List (α × List α)} {a : α} {rest : List α}
    {after : List (α × List α)} (hs' : AllSorted (h :: hs))
    (he : pick h hs = (before, (a, rest), after)) : AllSorted (before ++ next rest ++ after) := by
  rw [AllSorted, (pick_spec he).1] at hs'
  intro x hx
  simp only [List.mem_append] at hx
  rcases hx with (hx | hx) | hx
  · exact hs' x (by simp [hx])
  · cases rest with
    | nil => cases hx
    | cons b rest =>
      obtain rfl : x = (b, rest) := by simpa [next] using hx
      exact (hs' (a, b :: rest) (by simp)).of_cons
  · exact hs' x (by simp [hx])

/-- The least head is below all that is left. -/
theorem le_of_pick {h : α × List α} {hs before : List (α × List α)} {a : α} {rest : List α}
    {after : List (α × List α)} (hs' : AllSorted (h :: hs))
    (he : KWay.pick h hs = (before, (a, rest), after)) : ∀ x ∈ left (h :: hs), a ≤ x := by
  intro x hx
  obtain ⟨r, hr, hx⟩ := List.mem_flatMap.1 hx
  have hle := (pick_spec he).2 r hr
  rcases List.mem_cons.1 hx with rfl | hx
  · exact hle
  · exact hle.trans (List.rel_of_pairwise_cons (hs' r hr) hx)

/-- **Merging sorted runs sorts their elements.** -/
theorem kmerge_spec : ∀ (fuel : ℕ) {hs : List (α × List α)}, (left hs).length ≤ fuel →
    AllSorted hs → (kmerge fuel hs).Perm (left hs) ∧ (kmerge fuel hs).Pairwise (· ≤ ·)
  | 0, hs, hf, _ => by
    rw [List.eq_nil_of_length_eq_zero (Nat.le_zero.1 hf), kmerge]; simp
  | fuel + 1, [], _, _ => by simp [kmerge]
  | fuel + 1, h :: hs, hf, hsort => by
    obtain ⟨before, ⟨a, rest⟩, after, he⟩ : ∃ b m c, pick h hs = (b, m, c) := ⟨_, _, _, rfl⟩
    have hp := pick_perm he
    have hlen := hp.length_eq
    rw [List.length_cons] at hlen
    have hfuel : (left (before ++ next rest ++ after)).length ≤ fuel := by omega
    obtain ⟨ihp, ihs⟩ := kmerge_spec fuel hfuel (hsort.pick he)
    have hk : kmerge (fuel + 1) (h :: hs) = a :: kmerge fuel (before ++ next rest ++ after) := by
      rw [kmerge, he]
    rw [hk]
    refine ⟨(ihp.cons a).trans hp.symm, List.pairwise_cons.2 ⟨fun x hx => ?_, ihs⟩⟩
    exact le_of_pick hsort he x (hp.symm.subset (List.mem_cons_of_mem a (ihp.subset hx)))

/-! ## Numbering equal elements -/

/-- Every element with the number of equal elements in `seen` and before it. -/
def numberedFrom (seen : List α) : List α → List (α × ℕ)
  | [] => []
  | a :: l => (a, seen.count a) :: numberedFrom (seen ++ [a]) l

/-- Every element with the number of equal elements before it. -/
def numbered (l : List α) : List (α × ℕ) := numberedFrom [] l

/-- The counter that goes on at an element equal to the last one. -/
def counted : Option α → ℕ → List α → List (α × ℕ)
  | _, _, [] => []
  | last, n, a :: l =>
    let n := if some a = last then n + 1 else 0
    (a, n) :: counted (some a) n l

@[simp] theorem length_numberedFrom (seen l : List α) :
    (numberedFrom seen l).length = l.length := by
  induction l generalizing seen with
  | nil => rfl
  | cons a l ih => simp [numberedFrom, ih]

theorem numberedFrom_fst (seen l : List α) : (numberedFrom seen l).map Prod.fst = l := by
  induction l generalizing seen with
  | nil => rfl
  | cons a l ih => simp [numberedFrom, ih]

theorem counted_eq_from : ∀ {seen l : List α} {b : α} {n : ℕ},
    (seen ++ b :: l).Pairwise (· ≤ ·) → seen.count b = n →
      counted (some b) n l = numberedFrom (seen ++ [b]) l
  | seen, [], b, n, _, _ => rfl
  | seen, a :: l, b, n, hs, hn => by
    have hs' : ((seen ++ [b]) ++ a :: l).Pairwise (· ≤ ·) := by simpa using hs
    have hcount : (if some a = some b then n + 1 else 0) = (seen ++ [b]).count a := by
      split_ifs with h
      · obtain rfl : a = b := Option.some.inj h
        simp [hn]
      · -- everything before is at most `b`, and `b < a`
        have hba : b < a := by
          refine lt_of_le_of_ne ?_ fun e => h (by rw [e])
          exact (List.pairwise_append.1 hs').2.2 b (by simp) a (by simp)
        refine (List.count_eq_zero.2 fun hmem => ?_).symm
        rcases List.mem_append.1 hmem with hmem | hmem
        · have := (List.pairwise_append.1 hs).2.2 a hmem b (by simp)
          exact absurd this (not_le.2 hba)
        · obtain rfl : a = b := by simpa using hmem
          exact absurd hba (lt_irrefl _)
    rw [counted, numberedFrom, hcount, counted_eq_from hs' rfl]

/-- **On a sorted list the counter numbers equal elements.** -/
theorem counted_eq {l : List α} (h : l.Pairwise (· ≤ ·)) : counted none 0 l = numbered l := by
  cases l with
  | nil => rfl
  | cons a l =>
    rw [counted, numbered, numberedFrom, if_neg (by simp)]
    exact congrArg _ (counted_eq_from (by simpa using h) (by simp))

end KWay
