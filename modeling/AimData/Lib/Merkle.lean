/-
  Merkle trees over the largest-power-of-two split, for an arbitrary node hash.

  * `mth node l` is the root of the tree of the leaves `l`, `nodePairs node l`
    the pairs hashed to compute it;
  * `path node l i` is the inclusion path of leaf `i`, `climb` recomputes a
    root along a path; `climb_path` (completeness) and `climb_binds` (a path
    that reaches the root starts from the leaf, unless two hashed pairs clash);
  * `conSibs node l m` are the siblings of the path from the first `m` leaves
    to all of `l`, `climb₂` recomputes both roots; `climb₂_conSibs`
    (completeness) and `climb₂_binds` (the smaller list is a prefix of the
    larger one, unless two hashed pairs clash).

  Nothing is assumed of the hash: a statement that fails for a colliding hash
  exhibits two distinct hashed pairs with one hash (`Clash`).
-/
import Mathlib.Tactic

namespace Merkle

/-! ## The split of a tree -/

/-- The largest power of two below `n` (for `2 ≤ n`): the size of the left
    subtree of a tree of `n` leaves. -/
def split (n : ℕ) : ℕ := 2 ^ Nat.log2 (n - 1)

theorem split_pos (n : ℕ) : 0 < split n := Nat.two_pow_pos _

theorem split_lt {n : ℕ} (h : 2 ≤ n) : split n < n := by
  have := Nat.log2_self_le (n := n - 1) (by omega)
  unfold split; omega

theorem le_two_mul_split (n : ℕ) : n ≤ 2 * split n := by
  have : n - 1 < 2 ^ (Nat.log2 (n - 1) + 1) := Nat.lt_log2_self
  unfold split; rw [pow_succ] at this; omega

/-- The split is the only power of two in its range. -/
theorem split_eq {n t : ℕ} (h1 : 2 ^ t < n) (h2 : n ≤ 2 ^ (t + 1)) : split n = 2 ^ t := by
  have h0 : n - 1 ≠ 0 := by have := Nat.two_pow_pos t; omega
  have : Nat.log2 (n - 1) = t := by
    apply le_antisymm
    · exact Nat.lt_succ_iff.1 ((Nat.log2_lt h0).2 (by omega))
    · exact (Nat.le_log2 h0).2 (by omega)
  rw [split, this]

/-- A size between the split of `n` and `n` splits at the same place. -/
theorem split_between {m n : ℕ} (h1 : split n < m) (h2 : m ≤ n) : split m = split n :=
  split_eq h1 (by have := le_two_mul_split n; rw [pow_succ]; unfold split at this; omega)

/-- Induction over the splits of a nonempty tree. -/
theorem split_induction {P : ℕ → Prop} (one : P 1)
    (node : ∀ n, 2 ≤ n → P (split n) → P (n - split n) → P n) : ∀ n, 1 ≤ n → P n := by
  intro n
  induction n using Nat.strong_induction_on with
  | _ n ih =>
    intro hn
    rcases Nat.lt_or_ge n 2 with h | h
    · obtain rfl : n = 1 := by omega
      exact one
    · have := split_lt h
      have := split_pos n
      exact node n h (ih _ (by omega) (by omega)) (ih _ (by omega) (by omega))

section
variable {α : Type*}

theorem length_take_split {l : List α} (h : 2 ≤ l.length) :
    (l.take (split l.length)).length = split l.length := by
  have := split_lt h
  simp; omega

/-- Induction over the splits of a nonempty list. -/
theorem list_induction {P : List α → Prop} (one : ∀ a, P [a])
    (node : ∀ l, 2 ≤ l.length → P (l.take (split l.length)) → P (l.drop (split l.length)) → P l) :
    ∀ l, l ≠ [] → P l := by
  have key : ∀ n, 1 ≤ n → ∀ l : List α, l.length = n → P l := by
    apply split_induction
    · intro l hl
      obtain ⟨a, rfl⟩ := List.length_eq_one_iff.1 hl
      exact one a
    · rintro n hn ih₁ ih₂ l rfl
      exact node l hn (ih₁ _ (length_take_split hn)) (ih₂ _ (by simp))
  intro l hl
  exact key _ (List.length_pos_iff.2 hl) l rfl

end

variable {α : Type*} (node : α → α → α)

/-! ## Clashes -/

/-- Two distinct pairs, one of `S` and one of `T`, with the same hash. -/
def Clash (S T : List (α × α)) : Prop :=
  ∃ p ∈ S, ∃ q ∈ T, p ≠ q ∧ node p.1 p.2 = node q.1 q.2

variable {node} in
theorem Clash.mono {S S' T T' : List (α × α)} (h : Clash node S T) (hS : S ⊆ S') (hT : T ⊆ T') :
    Clash node S' T' := by
  obtain ⟨p, hp, q, hq, hne, he⟩ := h
  exact ⟨p, hS hp, q, hT hq, hne, he⟩

variable {node} in
/-- Two hashed pairs with one hash are equal or clash. -/
theorem pair_eq_or_clash {S T : List (α × α)} {a b c d : α} (hS : (a, b) ∈ S) (hT : (c, d) ∈ T)
    (h : node a b = node c d) : (a = c ∧ b = d) ∨ Clash node S T := by
  by_cases he : (a, b) = (c, d)
  · exact Or.inl (Prod.mk.inj he)
  · exact Or.inr ⟨_, hS, _, hT, he, h⟩

/-! ## Paths -/

/-- The side of a sibling. -/
inductive Side where
  | left
  | right
  deriving DecidableEq, Repr

/-- The sides of the siblings on the path of leaf `i` of `n`, from the leaf. -/
def sides (i n : ℕ) : List Side :=
  if _h : n ≤ 1 then []
  else if i < split n then sides i (split n) ++ [.right]
  else sides (i - split n) (n - split n) ++ [.left]
termination_by n
decreasing_by
  · exact split_lt (by omega)
  · have := split_pos n; omega

theorem sides_of_le {i n : ℕ} (h : n ≤ 1) : sides i n = [] := by
  rw [sides, dif_pos h]

theorem sides_of_lt {i n : ℕ} (h : 2 ≤ n) (hi : i < split n) :
    sides i n = sides i (split n) ++ [.right] := by
  rw [sides, dif_neg (by omega), if_pos hi]

theorem sides_of_ge {i n : ℕ} (h : 2 ≤ n) (hi : split n ≤ i) :
    sides i n = sides (i - split n) (n - split n) ++ [.left] := by
  rw [sides, dif_neg (by omega), if_neg (by omega)]

/-- A tree of at most `2 ^ t` leaves has paths of at most `t` siblings. -/
theorem length_sides_le : ∀ (t : ℕ) {n : ℕ}, n ≤ 2 ^ t → ∀ i, (sides i n).length ≤ t := by
  intro t
  induction t with
  | zero => intro n hn i; rw [sides_of_le (by simpa using hn)]; simp
  | succ t ih =>
    intro n hn i
    rcases Nat.lt_or_ge n 2 with h | h
    · rw [sides_of_le (by omega)]; simp
    · have hs : split n ≤ 2 ^ t := by
        refine Nat.pow_le_pow_right (by norm_num) (Nat.lt_succ_iff.1 ?_)
        exact (Nat.log2_lt (by omega)).2 (by omega)
      have h2 := le_two_mul_split n
      rcases Nat.lt_or_ge i (split n) with hi | hi
      · rw [sides_of_lt h hi]
        have := ih hs i
        simp; omega
      · rw [sides_of_ge h hi]
        have := ih (n := n - split n) (by omega) (i - split n)
        simp; omega

/-- Recompute a root from the leaf `a`; the side is the sibling's. -/
def climb (a : α) : List (Side × α) → α
  | [] => a
  | (.left, s) :: p => climb (node s a) p
  | (.right, s) :: p => climb (node a s) p

/-- The pairs hashed by `climb node a p`. -/
def climbPairs (a : α) : List (Side × α) → List (α × α)
  | [] => []
  | (.left, s) :: p => (s, a) :: climbPairs (node s a) p
  | (.right, s) :: p => (a, s) :: climbPairs (node a s) p

theorem climb_append (p q : List (Side × α)) (a : α) :
    climb node a (p ++ q) = climb node (climb node a p) q := by
  induction p generalizing a with
  | nil => rfl
  | cons x p ih => obtain ⟨_ | _, s⟩ := x <;> exact ih _

theorem climbPairs_append (p q : List (Side × α)) (a : α) :
    climbPairs node a (p ++ q) = climbPairs node a p ++ climbPairs node (climb node a p) q := by
  induction p generalizing a with
  | nil => rfl
  | cons x p ih => obtain ⟨_ | _, s⟩ := x <;> simp [climbPairs, climb, ih]

/-- **Two paths with the same sides and the same root start from one leaf**,
    or exhibit a clash between their hashed pairs. -/
theorem climb_inj : ∀ {p q : List (Side × α)} {a b : α}, p.map Prod.fst = q.map Prod.fst →
    climb node a p = climb node b q → a = b ∨ Clash node (climbPairs node a p) (climbPairs node b q)
  | [], [], _, _, _, h => Or.inl h
  | [], _ :: _, _, _, hs, _ | _ :: _, [], _, _, hs, _ => by simp at hs
  | (d, s) :: p, (e, t) :: q, a, b, hs, h => by
    simp only [List.map_cons, List.cons.injEq] at hs
    obtain ⟨rfl, hs⟩ := hs
    cases d with
    | left =>
      rcases climb_inj hs h with he | hc
      · rcases pair_eq_or_clash List.mem_cons_self List.mem_cons_self he with ⟨-, e⟩ | hc
        · exact Or.inl e
        · exact Or.inr hc
      · exact Or.inr (hc.mono (List.subset_cons_self _ _) (List.subset_cons_self _ _))
    | right =>
      rcases climb_inj hs h with he | hc
      · rcases pair_eq_or_clash List.mem_cons_self List.mem_cons_self he with ⟨e, -⟩ | hc
        · exact Or.inl e
        · exact Or.inr hc
      · exact Or.inr (hc.mono (List.subset_cons_self _ _) (List.subset_cons_self _ _))

/-- The sides of the siblings on the path from the first `m` of `n` leaves,
    from the largest subtree that ends the prefix. -/
def conSides (m n : ℕ) : List Side :=
  if _h : n ≤ m ∨ n ≤ 1 then []
  else if m ≤ split n then conSides m (split n) ++ [.right]
  else conSides (m - split n) (n - split n) ++ [.left]
termination_by n
decreasing_by
  · exact split_lt (by omega)
  · have := split_pos n; omega

theorem conSides_self (n : ℕ) : conSides n n = [] := by
  rw [conSides, dif_pos (Or.inl le_rfl)]

theorem conSides_of_le {m n : ℕ} (h1 : 1 ≤ m) (h : m < n) (hm : m ≤ split n) :
    conSides m n = conSides m (split n) ++ [.right] := by
  rw [conSides, dif_neg (by omega), if_pos hm]

theorem conSides_of_gt {m n : ℕ} (h1 : 1 ≤ m) (h : m < n) (hm : split n < m) :
    conSides m n = conSides (m - split n) (n - split n) ++ [.left] := by
  rw [conSides, dif_neg (by omega), if_neg (by omega)]

/-- The leaves of the largest subtree that ends the prefix of length `m`. -/
def conBase (l : List α) (m : ℕ) : List α :=
  if _h : l.length ≤ m ∨ l.length ≤ 1 then l
  else if m ≤ split l.length then conBase (l.take (split l.length)) m
  else conBase (l.drop (split l.length)) (m - split l.length)
termination_by l.length
decreasing_by
  · have := split_lt (n := l.length) (by omega); simp; omega
  · have := split_pos l.length; simp; omega

/-- Recompute the roots of the prefix and of the whole list: a left sibling
    is below both roots, a right one below the whole list's only. -/
def climb₂ (a : α × α) : List (Side × α) → α × α
  | [] => a
  | (.left, s) :: p => climb₂ (node s a.1, node s a.2) p
  | (.right, s) :: p => climb₂ (a.1, node a.2 s) p

/-- The pairs hashed by `climb₂ node a p`. -/
def climbPairs₂ (a : α × α) : List (Side × α) → List (α × α)
  | [] => []
  | (.left, s) :: p => (s, a.1) :: (s, a.2) :: climbPairs₂ (node s a.1, node s a.2) p
  | (.right, s) :: p => (a.2, s) :: climbPairs₂ (a.1, node a.2 s) p

theorem climb₂_append (p q : List (Side × α)) (a : α × α) :
    climb₂ node a (p ++ q) = climb₂ node (climb₂ node a p) q := by
  induction p generalizing a with
  | nil => rfl
  | cons x p ih => obtain ⟨_ | _, s⟩ := x <;> exact ih _

theorem climbPairs₂_append (p q : List (Side × α)) (a : α × α) :
    climbPairs₂ node a (p ++ q) = climbPairs₂ node a p ++ climbPairs₂ node (climb₂ node a p) q := by
  induction p generalizing a with
  | nil => rfl
  | cons x p ih => obtain ⟨_ | _, s⟩ := x <;> simp [climbPairs₂, climb₂, ih]

theorem conBase_of_le {l : List α} {m : ℕ} (h1 : 1 ≤ m) (h : m < l.length)
    (hm : m ≤ split l.length) : conBase l m = conBase (l.take (split l.length)) m := by
  rw [conBase, dif_neg (by omega), if_pos hm]

theorem conBase_of_gt {l : List α} {m : ℕ} (h1 : 1 ≤ m) (h : m < l.length)
    (hm : split l.length < m) :
    conBase l m = conBase (l.drop (split l.length)) (m - split l.length) := by
  rw [conBase, dif_neg (by omega), if_neg (by omega)]

variable [Inhabited α]

/-! ## Roots -/

/-- The root of the tree of the leaves `l`. -/
def mth (l : List α) : α :=
  if _h : l.length ≤ 1 then l.headD default
  else node (mth (l.take (split l.length))) (mth (l.drop (split l.length)))
termination_by l.length
decreasing_by
  · have := split_lt (n := l.length) (by omega); simp; omega
  · have := split_pos l.length; simp; omega

@[simp] theorem mth_singleton (a : α) : mth node [a] = a := by
  rw [mth]; simp

theorem mth_split {l : List α} (h : 2 ≤ l.length) :
    mth node l = node (mth node (l.take (split l.length))) (mth node (l.drop (split l.length))) := by
  rw [mth, dif_neg (by omega)]

/-- The pairs hashed to compute `mth node l`. -/
def nodePairs (l : List α) : List (α × α) :=
  if _h : l.length ≤ 1 then []
  else (mth node (l.take (split l.length)), mth node (l.drop (split l.length))) ::
    (nodePairs (l.take (split l.length)) ++ nodePairs (l.drop (split l.length)))
termination_by l.length
decreasing_by
  · have := split_lt (n := l.length) (by omega); simp; omega
  · have := split_pos l.length; simp; omega

theorem nodePairs_split {l : List α} (h : 2 ≤ l.length) :
    nodePairs node l =
      (mth node (l.take (split l.length)), mth node (l.drop (split l.length))) ::
        (nodePairs node (l.take (split l.length)) ++ nodePairs node (l.drop (split l.length))) := by
  rw [nodePairs, dif_neg (by omega)]

/-- **The root binds the leaves**: lists of one length with one root are
    equal or exhibit a clash. -/
theorem mth_binds : ∀ (l : List α), l ≠ [] → ∀ {l' : List α}, l'.length = l.length →
    mth node l = mth node l' → l = l' ∨ Clash node (nodePairs node l) (nodePairs node l') := by
  refine list_induction ?_ ?_
  · intro a l' hl h
    obtain ⟨b, rfl⟩ := List.length_eq_one_iff.1 (hl.trans rfl)
    left; simpa using h
  · intro l hn ih₁ ih₂ l' hl h
    have hn' : 2 ≤ l'.length := by omega
    have hlt := split_lt hn
    rw [mth_split node hn, mth_split node hn', hl] at h
    rw [nodePairs_split node hn, nodePairs_split node hn', hl]
    have hsub : ∀ {x y : List (α × α)} {a : α × α}, x ⊆ a :: (x ++ y) ∧ y ⊆ a :: (x ++ y) :=
      fun {x y a} => ⟨fun p hp => by simp [hp], fun p hp => by simp [hp]⟩
    rcases pair_eq_or_clash List.mem_cons_self List.mem_cons_self h with ⟨h1, h2⟩ | hc
    · rcases ih₁ (by simp [hl]) h1 with e1 | hc
      · rcases ih₂ (by simp [hl]) h2 with e2 | hc
        · left
          rw [← List.take_append_drop (split l.length) l, e1, e2, List.take_append_drop]
        · exact Or.inr (hc.mono hsub.2 hsub.2)
      · exact Or.inr (hc.mono hsub.1 hsub.1)
    · exact Or.inr hc

/-! ## The pre-order layout -/

/-- The hashes of the tree in pre-order: the root, the left subtree, the right
    subtree. -/
def preorder (l : List α) : List α :=
  if _h : l.length ≤ 1 then [mth node l]
  else mth node l ::
    (preorder (l.take (split l.length)) ++ preorder (l.drop (split l.length)))
termination_by l.length
decreasing_by
  · have := split_lt (n := l.length) (by omega); simp; omega
  · have := split_pos l.length; simp; omega

theorem preorder_singleton (a : α) : preorder node [a] = [a] := by
  rw [preorder, dif_pos (by simp), mth_singleton]

theorem preorder_split {l : List α} (h : 2 ≤ l.length) :
    preorder node l = mth node l ::
      (preorder node (l.take (split l.length)) ++ preorder node (l.drop (split l.length))) := by
  rw [preorder, dif_neg (by omega)]

/-- The root is the first record of its layout. -/
theorem preorder_head (l : List α) : ∃ ns, preorder node l = mth node l :: ns := by
  rw [preorder]
  split_ifs
  · exact ⟨[], rfl⟩
  · exact ⟨_, rfl⟩

theorem length_preorder : ∀ l : List α, l ≠ [] → (preorder node l).length = 2 * l.length - 1 := by
  refine list_induction ?_ ?_
  · intro a; rw [preorder_singleton]; rfl
  · intro l hn ih₁ ih₂
    have hlt := split_lt hn
    have hpos := split_pos l.length
    rw [preorder_split node hn, List.length_cons, List.length_append, ih₁, ih₂,
      length_take_split hn, List.length_drop]
    omega

/-! ## Inclusion paths -/

/-- The siblings of the path of leaf `i`, from the leaf. -/
def sibs (l : List α) (i : ℕ) : List α :=
  if _h : l.length ≤ 1 then []
  else if i < split l.length then
    sibs (l.take (split l.length)) i ++ [mth node (l.drop (split l.length))]
  else sibs (l.drop (split l.length)) (i - split l.length) ++ [mth node (l.take (split l.length))]
termination_by l.length
decreasing_by
  · have := split_lt (n := l.length) (by omega); simp; omega
  · have := split_pos l.length; simp; omega

/-- The inclusion path of leaf `i` of `l`. -/
def path (l : List α) (i : ℕ) : List (Side × α) := (sides i l.length).zip (sibs node l i)

theorem sibs_of_lt {l : List α} {i : ℕ} (h : 2 ≤ l.length) (hi : i < split l.length) :
    sibs node l i =
      sibs node (l.take (split l.length)) i ++ [mth node (l.drop (split l.length))] := by
  rw [sibs, dif_neg (by omega), if_pos hi]

theorem sibs_of_ge {l : List α} {i : ℕ} (h : 2 ≤ l.length) (hi : split l.length ≤ i) :
    sibs node l i = sibs node (l.drop (split l.length)) (i - split l.length) ++
      [mth node (l.take (split l.length))] := by
  rw [sibs, dif_neg (by omega), if_neg (by omega)]

theorem length_sibs : ∀ (l : List α), l ≠ [] → ∀ i,
    (sibs node l i).length = (sides i l.length).length := by
  refine list_induction ?_ ?_
  · intro a i; rw [sibs, dif_pos (by simp), sides_of_le (by simp)]; rfl
  · intro l hn ih₁ ih₂ i
    rcases Nat.lt_or_ge i (split l.length) with hi | hi
    · rw [sibs_of_lt node hn hi, sides_of_lt hn hi]
      simp [ih₁ i, length_take_split hn]
    · rw [sibs_of_ge node hn hi, sides_of_ge hn hi]
      simp [ih₂ (i - split l.length)]

theorem path_of_lt {l : List α} {i : ℕ} (h : 2 ≤ l.length) (hi : i < split l.length) :
    path node l i =
      path node (l.take (split l.length)) i ++ [(.right, mth node (l.drop (split l.length)))] := by
  have hne : l.take (split l.length) ≠ [] := by
    intro e; have := length_take_split h; rw [e] at this; have := split_pos l.length; simp_all
  have hlen := length_sibs node _ hne i
  rw [length_take_split h] at hlen
  rw [path, sides_of_lt h hi, sibs_of_lt node h hi, List.zip_append hlen.symm, path,
    length_take_split h]
  rfl

theorem path_of_ge {l : List α} {i : ℕ} (h : 2 ≤ l.length) (hi : split l.length ≤ i) :
    path node l i = path node (l.drop (split l.length)) (i - split l.length) ++
      [(.left, mth node (l.take (split l.length)))] := by
  have hne : l.drop (split l.length) ≠ [] := by
    have := split_lt h; simp; omega
  have hlen := length_sibs node _ hne (i - split l.length)
  rw [List.length_drop] at hlen
  rw [path, sides_of_ge h hi, sibs_of_ge node h hi, List.zip_append hlen.symm, path,
    List.length_drop]
  rfl

/-- **Completeness of inclusion paths.** -/
theorem climb_path : ∀ (l : List α), l ≠ [] → ∀ {i : ℕ} (hi : i < l.length),
    climb node l[i] (path node l i) = mth node l := by
  refine list_induction ?_ ?_
  · intro a i hi
    obtain rfl : i = 0 := by simpa using hi
    rw [path, sides_of_le (by simp)]; simp [climb]
  · intro l hn ih₁ ih₂ i hi
    have hlt := split_lt hn
    rcases Nat.lt_or_ge i (split l.length) with h | h
    · have := ih₁ (i := i) (by simp; omega)
      rw [List.getElem_take] at this
      rw [path_of_lt node hn h, climb_append, this, mth_split node hn]; rfl
    · have := ih₂ (i := i - split l.length) (by simp; omega)
      rw [List.getElem_drop] at this
      simp only [Nat.add_sub_cancel' h] at this
      rw [path_of_ge node hn h, climb_append, this, mth_split node hn]; rfl

/-- **A path that reaches the root starts from the leaf**, or exhibits a clash
    between its hashed pairs and those of the tree. -/
theorem climb_binds : ∀ (l : List α), l ≠ [] → ∀ {i : ℕ} (hi : i < l.length) {a : α}
    {p : List (Side × α)}, p.map Prod.fst = sides i l.length → climb node a p = mth node l →
      a = l[i] ∨ Clash node (climbPairs node a p) (nodePairs node l) := by
  refine list_induction ?_ ?_
  · intro b i hi a p hp h
    obtain rfl : i = 0 := by simpa using hi
    rw [sides_of_le (by simp), List.map_eq_nil_iff] at hp
    subst hp; left; simpa [climb] using h
  · intro l hn ih₁ ih₂ i hi a p hp h
    have hlt := split_lt hn
    rw [nodePairs_split node hn]
    rcases Nat.lt_or_ge i (split l.length) with hs | hs
    · rw [sides_of_lt hn hs, List.map_eq_append_iff] at hp
      obtain ⟨p, q, rfl, hp, hq⟩ := hp
      obtain ⟨⟨_, s⟩, rfl, rfl⟩ := List.map_eq_singleton_iff.1 hq
      rw [climb_append, mth_split node hn] at h
      rw [climbPairs_append]
      rcases pair_eq_or_clash (S := [(climb node a p, s)]) (by simp) List.mem_cons_self h with
        ⟨h1, -⟩ | hc
      · rw [← length_take_split hn] at hp
        rcases ih₁ (by simp; omega) hp h1 with e | hc
        · left; rw [e, List.getElem_take]
        · exact Or.inr (hc.mono (by simp) fun x hx => by simp [hx])
      · exact Or.inr (hc.mono (fun x hx => by simpa [climbPairs] using Or.inr hx) (List.Subset.refl _))
    · rw [sides_of_ge hn hs, List.map_eq_append_iff] at hp
      obtain ⟨p, q, rfl, hp, hq⟩ := hp
      obtain ⟨⟨_, s⟩, rfl, rfl⟩ := List.map_eq_singleton_iff.1 hq
      rw [climb_append, mth_split node hn] at h
      rw [climbPairs_append]
      rcases pair_eq_or_clash (S := [(s, climb node a p)]) (by simp) List.mem_cons_self h with
        ⟨-, h2⟩ | hc
      · rw [← List.length_drop] at hp
        rcases ih₂ (by simp; omega) hp h2 with e | hc
        · left; rw [e, List.getElem_drop]; congr 1; omega
        · exact Or.inr (hc.mono (by simp) fun x hx => by simp [hx])
      · exact Or.inr (hc.mono (fun x hx => by simpa [climbPairs] using Or.inr hx) (List.Subset.refl _))

/-! ## Consistency paths -/

/-- The siblings on the path from the first `m` leaves of `l`. -/
def conSibs (l : List α) (m : ℕ) : List α :=
  if _h : l.length ≤ m ∨ l.length ≤ 1 then []
  else if m ≤ split l.length then
    conSibs (l.take (split l.length)) m ++ [mth node (l.drop (split l.length))]
  else conSibs (l.drop (split l.length)) (m - split l.length) ++
    [mth node (l.take (split l.length))]
termination_by l.length
decreasing_by
  · have := split_lt (n := l.length) (by omega); simp; omega
  · have := split_pos l.length; simp; omega

theorem conSibs_of_le {l : List α} {m : ℕ} (h1 : 1 ≤ m) (h : m < l.length)
    (hm : m ≤ split l.length) : conSibs node l m =
      conSibs node (l.take (split l.length)) m ++ [mth node (l.drop (split l.length))] := by
  rw [conSibs, dif_neg (by omega), if_pos hm]

theorem conSibs_of_gt {l : List α} {m : ℕ} (h1 : 1 ≤ m) (h : m < l.length)
    (hm : split l.length < m) : conSibs node l m =
      conSibs node (l.drop (split l.length)) (m - split l.length) ++
        [mth node (l.take (split l.length))] := by
  rw [conSibs, dif_neg (by omega), if_neg (by omega)]

theorem length_conSibs : ∀ (l : List α), l ≠ [] → ∀ {m : ℕ}, 1 ≤ m → m ≤ l.length →
    (conSibs node l m).length = (conSides m l.length).length := by
  refine list_induction ?_ ?_
  · intro a m h1 _; rw [conSibs, dif_pos (by simp), conSides, dif_pos (by simp)]; rfl
  · intro l hn ih₁ ih₂ m h1 hm
    rcases Nat.eq_or_lt_of_le hm with rfl | hm
    · rw [conSibs, dif_pos (by simp), conSides_self]; rfl
    · rcases Nat.lt_or_ge (split l.length) m with hs | hs
      · rw [conSibs_of_gt node h1 hm hs, conSides_of_gt h1 hm hs]
        simp [ih₂ (m := m - split l.length) (by omega) (by simp; omega)]
      · rw [conSibs_of_le node h1 hm hs, conSides_of_le h1 hm hs]
        simp [ih₁ h1 (by rw [length_take_split hn]; exact hs), length_take_split hn]

/-- **Completeness of consistency paths.** -/
theorem climb₂_conSibs : ∀ (l : List α), l ≠ [] → ∀ {m : ℕ}, 1 ≤ m → m ≤ l.length →
    climb₂ node (mth node (conBase l m), mth node (conBase l m))
        ((conSides m l.length).zip (conSibs node l m)) =
      (mth node (l.take m), mth node l) := by
  refine list_induction ?_ ?_
  · intro a m h1 hm
    obtain rfl : m = 1 := le_antisymm (by simpa using hm) h1
    rw [conSides, dif_pos (by simp), conBase, dif_pos (by simp)]; rfl
  · intro l hn ih₁ ih₂ m h1 hm
    have hlt := split_lt hn
    rcases Nat.eq_or_lt_of_le hm with rfl | hm
    · rw [conSides_self, conBase, dif_pos (by simp)]; simp [climb₂]
    · rcases Nat.lt_or_ge (split l.length) m with hs | hs
      · have hlen := length_conSibs node (l := l.drop (split l.length))
          (by simp; omega) (m := m - split l.length) (by omega) (by simp; omega)
        have ih := ih₂ (m := m - split l.length) (by omega) (by simp; omega)
        have htl : (l.take m).length = m := by simp; omega
        rw [List.length_drop] at hlen ih
        rw [conSibs_of_gt node h1 hm hs, conSides_of_gt h1 hm hs, conBase_of_gt h1 hm hs,
          List.zip_append hlen.symm, climb₂_append, ih, mth_split node hn,
          mth_split node (l := l.take m) (by rw [htl]; have := split_pos l.length; omega), htl,
          split_between hs hm.le, List.take_take, min_eq_left hs.le, List.drop_take]
        rfl
      · have hlen := length_conSibs node (l := l.take (split l.length))
          (by rw [← List.length_pos_iff, length_take_split hn]; exact split_pos _) h1
          (by rw [length_take_split hn]; exact hs)
        have ih := ih₁ h1 (by rw [length_take_split hn]; exact hs)
        rw [length_take_split hn] at hlen ih
        rw [conSibs_of_le node h1 hm hs, conSides_of_le h1 hm hs, conBase_of_le h1 hm hs,
          List.zip_append hlen.symm, climb₂_append, ih, mth_split node hn, List.take_take,
          min_eq_left hs]
        rfl

/-- The pairs hashed for two trees and along a consistency path. -/
def conPairs (A B : List α) (a : α × α) (p : List (Side × α)) : List (α × α) :=
  nodePairs node A ++ (nodePairs node B ++ climbPairs₂ node a p)

/-- **A path that reaches both roots shows a prefix**, or exhibits a clash
    among the pairs hashed for the two trees and along the path. -/
theorem climb₂_binds : ∀ (B : List α), B ≠ [] → ∀ {A : List α}, A ≠ [] → A.length ≤ B.length →
    ∀ {a : α} {p : List (Side × α)}, p.map Prod.fst = conSides A.length B.length →
      climb₂ node (a, a) p = (mth node A, mth node B) →
        A <+: B ∨ Clash node (conPairs node A B (a, a) p) (conPairs node A B (a, a) p) := by
  have base : ∀ {A B : List α}, A ≠ [] → B.length = A.length → ∀ {a : α} {p : List (Side × α)},
      p.map Prod.fst = conSides A.length B.length →
      climb₂ node (a, a) p = (mth node A, mth node B) →
        A <+: B ∨ Clash node (conPairs node A B (a, a) p) (conPairs node A B (a, a) p) := by
    intro A B hA hl a p hp h
    rw [hl, conSides_self, List.map_eq_nil_iff] at hp
    subst hp
    obtain ⟨h1, h2⟩ := Prod.mk.inj h
    rcases mth_binds node _ hA hl (h1.symm.trans h2) with rfl | hc
    · exact Or.inl (List.prefix_refl A)
    · exact Or.inr (hc.mono (fun x hx => by simp [conPairs, hx]) fun x hx => by simp [conPairs, hx])
  refine list_induction ?_ ?_
  · intro b A hA hl a p
    have := List.length_pos_iff.2 hA
    exact base (B := [b]) hA (le_antisymm this hl)
  · intro B hn ih₁ ih₂ A hA hl a p hp h
    have hlt := split_lt hn
    have h1 : 1 ≤ A.length := List.length_pos_iff.2 hA
    rcases Nat.eq_or_lt_of_le hl with he | hm
    · exact base hA he.symm hp h
    · rcases Nat.lt_or_ge (split B.length) A.length with hs | hs
      · have hsA := split_between hs hl
        have hnA : 2 ≤ A.length := by have := split_pos B.length; omega
        rw [conSides_of_gt h1 hm hs, List.map_eq_append_iff] at hp
        obtain ⟨p, q, rfl, hp, hq⟩ := hp
        obtain ⟨⟨_, s⟩, rfl, rfl⟩ := List.map_eq_singleton_iff.1 hq
        rw [climb₂_append, mth_split node hn, mth_split node hnA, hsA] at h
        obtain ⟨hfr, hsr⟩ := Prod.mk.inj h
        have mA : (mth node (A.take (split B.length)), mth node (A.drop (split B.length))) ∈
            conPairs node A B (a, a) (p ++ [(.left, s)]) := by
          rw [conPairs, nodePairs_split node hnA, hsA]; simp
        have mB : (mth node (B.take (split B.length)), mth node (B.drop (split B.length))) ∈
            conPairs node A B (a, a) (p ++ [(.left, s)]) := by
          rw [conPairs, nodePairs_split node hn]; simp
        have mp : ∀ x ∈ [(s, (climb₂ node (a, a) p).1), (s, (climb₂ node (a, a) p).2)],
            x ∈ conPairs node A B (a, a) (p ++ [(.left, s)]) := by
          intro x hx
          rw [conPairs, climbPairs₂_append]
          simp only [climbPairs₂, List.mem_append]
          exact Or.inr (Or.inr (Or.inr hx))
        rcases pair_eq_or_clash (mp _ (by simp)) mA hfr with ⟨eA, hfr⟩ | hc
        · rcases pair_eq_or_clash (mp _ (by simp)) mB hsr with ⟨eB, hsr⟩ | hc
          · have hAt : A.take (split B.length) ≠ [] := by
              have := split_pos B.length
              rw [← List.length_pos_iff]; simp; omega
            have hlt' : (B.take (split B.length)).length = (A.take (split B.length)).length := by
              simp; omega
            rcases mth_binds node _ hAt hlt' (eA.symm.trans eB) with et | hc
            · rcases ih₂ (A := A.drop (split B.length)) (by simp; omega) (by simp; omega)
                (by simpa using hp) (Prod.ext hfr hsr) with hpre | hc
              · left
                have := (List.prefix_append_right_inj (A.take (split B.length))).2 hpre
                rwa [List.take_append_drop, et, List.take_append_drop] at this
              · have hsub : conPairs node (A.drop (split B.length)) (B.drop (split B.length)) (a, a) p ⊆
                    conPairs node A B (a, a) (p ++ [(.left, s)]) := by
                  intro x hx
                  rw [conPairs, nodePairs_split node hn, nodePairs_split node hnA, hsA,
                    climbPairs₂_append]
                  simp only [conPairs, List.mem_append, List.mem_cons] at hx ⊢
                  tauto
                exact Or.inr (hc.mono hsub hsub)
            · refine Or.inr (hc.mono (fun x hx => ?_) fun x hx => ?_)
              · rw [conPairs, nodePairs_split node hnA, hsA]; simp [hx]
              · rw [conPairs, nodePairs_split node hn]; simp [hx]
          · exact Or.inr hc
        · exact Or.inr hc
      · rw [conSides_of_le h1 hm hs, List.map_eq_append_iff] at hp
        obtain ⟨p, q, rfl, hp, hq⟩ := hp
        obtain ⟨⟨_, s⟩, rfl, rfl⟩ := List.map_eq_singleton_iff.1 hq
        rw [climb₂_append, mth_split node hn] at h
        obtain ⟨hfr, hsr⟩ := Prod.mk.inj h
        have mB : (mth node (B.take (split B.length)), mth node (B.drop (split B.length))) ∈
            conPairs node A B (a, a) (p ++ [(.right, s)]) := by
          rw [conPairs, nodePairs_split node hn]; simp
        have mp : ((climb₂ node (a, a) p).2, s) ∈
            conPairs node A B (a, a) (p ++ [(.right, s)]) := by
          rw [conPairs, climbPairs₂_append]; simp [climbPairs₂]
        rcases pair_eq_or_clash mp mB hsr with ⟨hsr, -⟩ | hc
        · rw [← length_take_split hn] at hp
          rcases ih₁ hA (by rw [length_take_split hn]; exact hs) hp (Prod.ext hfr hsr) with hpre | hc
          · exact Or.inl (hpre.trans (List.take_prefix _ _))
          · have hsub : conPairs node A (B.take (split B.length)) (a, a) p ⊆
                conPairs node A B (a, a) (p ++ [(.right, s)]) := by
              intro x hx
              rw [conPairs, nodePairs_split node hn, climbPairs₂_append]
              simp only [conPairs, List.mem_append, List.mem_cons] at hx ⊢
              tauto
            exact Or.inr (hc.mono hsub hsub)
        · exact Or.inr hc

end Merkle
