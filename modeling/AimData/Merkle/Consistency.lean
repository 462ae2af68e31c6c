/-
  Consistency proofs: `build_consistency_proof` and its verifier.

  The builder recurses over the splits of the tree; the verifier walks the
  bits of `old_size - 1` and `new_size - 1`.  `Walk` is the schedule of sides
  of that bit walk, and `walk_conSides` shows that it is the schedule
  `Merkle.conSides` of the splits; the rest follows from the library.
-/
import AimData.Merkle.Inclusion

namespace AimData

open Merkle (Side)

/-! ## The builder -/

/-- `subproof(start, first_size, size, complete)`; the first argument bounds
    the recursion. -/
def subproof (normalized : List Digest) :
    ℕ → ℕ → ℕ → ℕ → Bool → Except CommitmentValidationError (List Digest)
  | 0, _, _, _, _ => .ok []
  | fuel + 1, start, firstSize, size, complete =>
    if firstSize = size then
      if complete then .ok []
      else return [← buildMerkleRoot (slice normalized start (start + size))]
    else do
      let split := largestPowerOfTwoLessThan size
      if firstSize ≤ split then
        let below ← subproof normalized fuel start firstSize split complete
        return below ++ [← buildMerkleRoot (slice normalized (start + split) (start + size))]
      else
        let below ← subproof normalized fuel (start + split) (firstSize - split) (size - split) false
        return below ++ [← buildMerkleRoot (slice normalized start (start + split))]

def buildConsistencyProof (leaves : List HashValue) (oldSize : ℤ) :
    Except CommitmentValidationError (List Digest) := do
  let normalized ← leaves.mapM decodeDigest
  let newSize := normalized.length
  if oldSize < 1 ∨ oldSize > newSize then refuse "invalid_tree_size"
  else if oldSize = newSize then return []
  else subproof normalized newSize 0 oldSize.toNat newSize true

/-! ## The verifier -/

/-- `while fn & 1: fn >>= 1; sn >>= 1`; the first argument bounds the loop and
    starts at `fn`. -/
def stripOnes : ℕ → ℕ → ℕ → ℕ × ℕ
  | 0, fn, sn => (fn, sn)
  | k + 1, fn, sn => if fn % 2 = 1 then stripOnes k (fn / 2) (sn / 2) else (fn, sn)

/-- `while fn and not (fn & 1): fn >>= 1; sn >>= 1`; the first argument bounds
    the loop and starts at `fn`. -/
def stripZeros : ℕ → ℕ → ℕ → ℕ × ℕ
  | 0, fn, sn => (fn, sn)
  | k + 1, fn, sn => if fn ≠ 0 ∧ fn % 2 = 0 then stripZeros k (fn / 2) (sn / 2) else (fn, sn)

/-- The variables of the verifier's loop. -/
structure ConState where
  fn : ℕ
  sn : ℕ
  firstRoot : Digest
  secondRoot : Digest

/-- One turn of `for item in hashes`; `none` is the early `return False`. -/
def conStep (st : ConState) (item : Digest) : Option ConState :=
  if st.sn = 0 then none
  else if st.fn % 2 = 1 ∨ st.fn = st.sn then
    let (fn, sn) := stripZeros st.fn st.fn st.sn
    some ⟨fn / 2, sn / 2, nodeHash item st.firstRoot, nodeHash item st.secondRoot⟩
  else some ⟨st.fn / 2, st.sn / 2, st.firstRoot, nodeHash st.secondRoot item⟩

/-- The verifier after the size checks, for `1 ≤ old_size < new_size`. -/
def verifyConsistencyWalk (oldSize newSize : ℕ) (oldRoot newRoot : Digest) (hashes : List Digest) :
    Bool :=
  let (fn, sn) := stripOnes (oldSize - 1) (oldSize - 1) (newSize - 1)
  let start : Option (Digest × List Digest) :=
    if fn = 0 then some (oldRoot, hashes)
    else match hashes with
      | [] => none
      | h :: hashes => some (h, hashes)
  match start with
  | none => false
  | some (root, hashes) =>
    match hashes.foldlM conStep ⟨fn, sn, root, root⟩ with
    | none => false
    | some st => decide (st.sn = 0 ∧ st.firstRoot = oldRoot ∧ st.secondRoot = newRoot)

def verifyConsistencyBody (oldSize newSize : ℤ) (oldRoot newRoot : HashValue)
    (proof : List HashValue) : Except CommitmentValidationError Bool := do
  let oldRootBytes ← decodeDigest oldRoot
  let newRootBytes ← decodeDigest newRoot
  let hashes ← proof.mapM decodeDigest
  if oldSize < 1 ∨ oldSize > newSize ∨ newSize > maxTreeSize then return false
  else if oldSize = newSize then return decide (hashes = [] ∧ oldRootBytes = newRootBytes)
  else return verifyConsistencyWalk oldSize.toNat newSize.toNat oldRootBytes newRootBytes hashes

/-- `verify_consistency_proof`: a raised error is a refusal. -/
def verifyConsistencyProof (oldSize newSize : ℤ) (oldRoot newRoot : HashValue)
    (proof : List HashValue) : Bool :=
  match verifyConsistencyBody oldSize newSize oldRoot newRoot proof with
  | .ok b => b
  | .error _ => false

/-! ## The schedule of the bit walk -/

/-- The sides the loop takes from `(fn, sn)` until `sn` is used up. -/
inductive Walk : ℕ → ℕ → List Side → Prop
  | done {fn} : Walk fn 0 []
  | left {fn sn fn' sn' ss} : sn ≠ 0 → fn % 2 = 1 ∨ fn = sn → stripZeros fn fn sn = (fn', sn') →
      Walk (fn' / 2) (sn' / 2) ss → Walk fn sn (.left :: ss)
  | right {fn sn ss} : sn ≠ 0 → ¬ (fn % 2 = 1 ∨ fn = sn) → Walk (fn / 2) (sn / 2) ss →
      Walk fn sn (.right :: ss)

theorem stripZeros_odd {k fn sn : ℕ} (h : fn % 2 = 1) : stripZeros k fn sn = (fn, sn) := by
  cases k with
  | zero => rfl
  | succ k => rw [stripZeros, if_neg (by omega)]

/-- Enough turns of the inner loop reach the lowest set bit. -/
theorem stripZeros_two_pow_mul : ∀ (t k a s : ℕ), a % 2 = 1 → t ≤ k →
    stripZeros k (2 ^ t * a) s = (a, s / 2 ^ t)
  | 0, k, a, s, ha, _ => by simp [stripZeros_odd ha]
  | t + 1, 0, a, s, _, hk => by omega
  | t + 1, k + 1, a, s, ha, hk => by
    have h2 : 2 ^ (t + 1) * a = 2 * (2 ^ t * a) := by rw [pow_succ]; ring
    have hpos : 0 < 2 ^ t * a := Nat.mul_pos (Nat.two_pow_pos t) (by omega)
    rw [stripZeros, if_pos (by omega), h2, Nat.mul_div_cancel_left _ (by omega),
      stripZeros_two_pow_mul t k a _ ha (by omega), Nat.div_div_eq_div_mul, pow_succ, mul_comm 2]

theorem exists_two_pow_mul {n : ℕ} (h : n ≠ 0) : ∃ t a, a % 2 = 1 ∧ n = 2 ^ t * a := by
  induction n using Nat.strong_induction_on with
  | _ n ih =>
    rcases Nat.mod_two_eq_zero_or_one n with h0 | h1
    · obtain ⟨t, a, ha, he⟩ := ih (n / 2) (by omega) (by omega)
      exact ⟨t + 1, a, ha, by rw [pow_succ, mul_assoc, mul_comm 2, ← mul_assoc, ← he]; omega⟩
    · exact ⟨0, n, h1, by simp⟩

theorem lt_two_pow_mul {t a : ℕ} (h : 1 ≤ a) : t < 2 ^ t * a := by
  have := Nat.lt_two_pow_self (n := t)
  nlinarith

/-- Above a complete left subtree the walk goes on with one right sibling: the
    last index `s` has one bit more than the subtree's `2 ^ t - 1`. -/
theorem Walk.right_of_complete : ∀ (t : ℕ) {f s : ℕ} {ss : List Side}, Walk f (2 ^ t - 1) ss →
    f < 2 ^ t → 2 ^ t ≤ s → s < 2 ^ (t + 1) → Walk f s (ss ++ [.right])
  | 0, f, s, ss, hw, hf, h1, h2 => by
    obtain rfl : f = 0 := by omega
    obtain rfl : s = 1 := by omega
    cases hw with
    | done => exact .right (by omega) (by omega) .done
    | left h => exact absurd rfl h
    | right h => exact absurd rfl h
  | t + 1, f, s, ss, hw, hf, h1, h2 => by
    have hp := Nat.two_pow_pos t
    have e1 : 2 ^ (t + 1) = 2 * 2 ^ t := by rw [pow_succ]; ring
    have e2 : 2 ^ (t + 1 + 1) = 2 * 2 ^ (t + 1) := by rw [pow_succ]; ring
    have hs : (2 ^ (t + 1) - 1) / 2 = 2 ^ t - 1 := by omega
    generalize hc : 2 ^ (t + 1) - 1 = c at hw hs
    cases hw with
    | done => omega
    | left h hd hz hw =>
      have hodd : f % 2 = 1 := by omega
      rw [stripZeros_odd hodd] at hz
      cases hz
      rw [hs] at hw
      exact .left (by omega) (Or.inl hodd) (stripZeros_odd hodd)
        (Walk.right_of_complete t hw (by omega) (by omega) (by omega))
    | right h hd hw =>
      rw [hs] at hw
      exact .right (by omega) (by omega)
        (Walk.right_of_complete t hw (by omega) (by omega) (by omega))

/-- Above a right subtree the walk goes on with one left sibling: both indices
    have the bit `2 ^ t` above those of the subtree. -/
theorem Walk.left_of_offset : ∀ {f s : ℕ} {ss : List Side}, Walk f s ss → f ≤ s →
    ∀ t : ℕ, s < 2 ^ t → Walk (f + 2 ^ t) (s + 2 ^ t) (ss ++ [.left]) := by
  intro f s ss hw
  induction hw with
  | @done f =>
    intro hf t ht
    obtain rfl : f = 0 := by omega
    have hz : stripZeros (0 + 2 ^ t) (0 + 2 ^ t) (0 + 2 ^ t) = (1, 1) := by
      have h := stripZeros_two_pow_mul t (2 ^ t) 1 (2 ^ t) rfl Nat.lt_two_pow_self.le
      rwa [mul_one, Nat.div_self (Nat.two_pow_pos t), ← Nat.zero_add (2 ^ t)] at h
    exact .left (by have := Nat.two_pow_pos t; omega) (Or.inr rfl) hz .done
  | @left f s f' s' ss h hd hz hw ih =>
    intro hf t ht
    have ht0 : t ≠ 0 := by rintro rfl; omega
    obtain ⟨t, rfl⟩ := Nat.exists_eq_succ_of_ne_zero ht0
    have e1 : 2 ^ (t + 1) = 2 * 2 ^ t := by rw [pow_succ]; ring
    rcases Nat.mod_two_eq_zero_or_one f with he | ho
    · -- the last leaf's path: both walks skip the same levels without sibling
      obtain rfl : f = s := by omega
      obtain ⟨j, a, ha, hfa⟩ := exists_two_pow_mul h
      have hj : j < f := hfa ▸ lt_two_pow_mul (by omega)
      have hz' := stripZeros_two_pow_mul j f a f ha hj.le
      rw [← hfa, hz] at hz'
      have hdiv : f / 2 ^ j = a := by
        rw [hfa, Nat.mul_div_cancel_left _ (Nat.two_pow_pos j)]
      obtain ⟨rfl, rfl⟩ := Prod.mk.inj hz'
      have hjt : j < t + 1 := by
        refine (Nat.pow_lt_pow_iff_right (a := 2) (by norm_num)).1 (lt_of_le_of_lt ?_ ht)
        rw [hfa]; exact Nat.le_mul_of_pos_right _ (by omega)
      obtain ⟨r, hr⟩ := Nat.exists_eq_add_of_lt hjt
      have htr : t = j + r := by omega
      subst htr
      have hsum : f + 2 ^ (j + r + 1) = 2 ^ j * (f / 2 ^ j + 2 ^ (r + 1)) := by
        rw [mul_add, ← pow_add, hdiv, ← hfa, add_assoc]
      have hodd : (f / 2 ^ j + 2 ^ (r + 1)) % 2 = 1 := by
        rw [pow_succ]; omega
      have hz'' := stripZeros_two_pow_mul j (f + 2 ^ (j + r + 1)) (f / 2 ^ j + 2 ^ (r + 1))
        (f + 2 ^ (j + r + 1)) hodd (by omega)
      rw [← hsum] at hz''
      refine .left (by omega) (Or.inr rfl) hz'' ?_
      have hlt : f / 2 ^ j / 2 < 2 ^ r := by
        have hp : 2 ^ (j + r + 1) = 2 ^ j * (2 ^ r * 2) := by rw [pow_succ, pow_add]; ring
        have : f / 2 ^ j < 2 ^ r * 2 := Nat.div_lt_of_lt_mul (by rwa [← hp])
        omega
      have hrec := ih (by omega) r hlt
      rw [← hdiv] at hrec
      have hhalf : (f / 2 ^ j + 2 ^ (r + 1)) / 2 = f / 2 ^ j / 2 + 2 ^ r := by
        rw [pow_succ]; omega
      have hsecond : (f + 2 ^ (j + r + 1)) / 2 ^ j = f / 2 ^ j + 2 ^ (r + 1) := by
        rw [hsum, Nat.mul_div_cancel_left _ (Nat.two_pow_pos j)]
      rw [hsecond, hhalf]
      exact hrec
    · rw [stripZeros_odd ho] at hz
      cases hz
      have hf2 : (f + 2 ^ (t + 1)) / 2 = f / 2 + 2 ^ t := by omega
      have hs2 : (s + 2 ^ (t + 1)) / 2 = s / 2 + 2 ^ t := by omega
      refine .left (by omega) (Or.inl (by omega)) (stripZeros_odd (by omega)) ?_
      rw [hf2, hs2]
      exact ih (by omega) t (by omega)
  | @right f s ss h hd hw ih =>
    intro hf t ht
    have ht0 : t ≠ 0 := by rintro rfl; omega
    obtain ⟨t, rfl⟩ := Nat.exists_eq_succ_of_ne_zero ht0
    have e1 : 2 ^ (t + 1) = 2 * 2 ^ t := by rw [pow_succ]; ring
    have hf2 : (f + 2 ^ (t + 1)) / 2 = f / 2 + 2 ^ t := by omega
    have hs2 : (s + 2 ^ (t + 1)) / 2 = s / 2 + 2 ^ t := by omega
    refine .right (by omega) (by omega) ?_
    rw [hf2, hs2]
    exact ih (by omega) t (by omega)

/-- The first loop strips the same bits in a left subtree and in the tree. -/
theorem stripOnes_of_complete : ∀ (k t : ℕ) {f s : ℕ}, f < 2 ^ t → 2 ^ t ≤ s → s < 2 ^ (t + 1) →
    ∃ t' f' s', f' < 2 ^ t' ∧ 2 ^ t' ≤ s' ∧ s' < 2 ^ (t' + 1) ∧
      stripOnes k f (2 ^ t - 1) = (f', 2 ^ t' - 1) ∧ stripOnes k f s = (f', s') := by
  intro k
  induction k with
  | zero => intro t f s h1 h2 h3; exact ⟨t, f, s, h1, h2, h3, rfl, rfl⟩
  | succ k ih =>
    intro t f s h1 h2 h3
    by_cases h : f % 2 = 1
    · cases t with
      | zero => omega
      | succ t =>
        have e1 : 2 ^ (t + 1) = 2 * 2 ^ t := by rw [pow_succ]; ring
        have e2 : 2 ^ (t + 1 + 1) = 2 * 2 ^ (t + 1) := by rw [pow_succ]; ring
        have hs : (2 ^ (t + 1) - 1) / 2 = 2 ^ t - 1 := by omega
        simp only [stripOnes, if_pos h, hs]
        exact ih t (by omega) (by omega) (by omega)
    · simp only [stripOnes, if_neg h]
      exact ⟨t, f, s, h1, h2, h3, rfl, rfl⟩

/-- The first loop strips the same bits in a right subtree and in the tree. -/
theorem stripOnes_of_offset : ∀ (k t : ℕ) {f s : ℕ}, f ≤ k → f < s → s < 2 ^ t →
    ∃ t' f' s', f' < s' ∧ s' < 2 ^ t' ∧ stripOnes k f s = (f', s') ∧
      ∀ k', k ≤ k' → stripOnes k' (f + 2 ^ t) (s + 2 ^ t) = (f' + 2 ^ t', s' + 2 ^ t') := by
  intro k
  induction k with
  | zero =>
    intro t f s hk h1 h2
    obtain rfl : f = 0 := by omega
    have ht0 : t ≠ 0 := by rintro rfl; omega
    obtain ⟨t, rfl⟩ := Nat.exists_eq_succ_of_ne_zero ht0
    refine ⟨t + 1, 0, s, h1, h2, rfl, fun k' _ => ?_⟩
    cases k' with
    | zero => rfl
    | succ k' => rw [stripOnes, if_neg (by rw [pow_succ]; omega)]
  | succ k ih =>
    intro t f s hk h1 h2
    have ht0 : t ≠ 0 := by rintro rfl; omega
    obtain ⟨t, rfl⟩ := Nat.exists_eq_succ_of_ne_zero ht0
    have e1 : 2 ^ (t + 1) = 2 * 2 ^ t := by rw [pow_succ]; ring
    by_cases h : f % 2 = 1
    · obtain ⟨t', f', s', i1, i2, i3, i4⟩ := ih t (f := f / 2) (s := s / 2) (by omega) (by omega)
        (by omega)
      refine ⟨t', f', s', i1, i2, by rw [stripOnes, if_pos h]; exact i3, fun k' hk' => ?_⟩
      obtain ⟨k', rfl⟩ := Nat.exists_eq_add_of_le' hk'
      have hf2 : (f + 2 ^ (t + 1)) / 2 = f / 2 + 2 ^ t := by omega
      have hs2 : (s + 2 ^ (t + 1)) / 2 = s / 2 + 2 ^ t := by omega
      rw [show k' + (k + 1) = k' + k + 1 by omega, stripOnes, if_pos (by omega), hf2, hs2]
      exact i4 (k' + k) (by omega)
    · refine ⟨t + 1, f, s, h1, h2, by rw [stripOnes, if_neg h], fun k' hk' => ?_⟩
      cases k' with
      | zero => rfl
      | succ k' => rw [stripOnes, if_neg (by omega)]

theorem stripOnes_two_pow : ∀ t : ℕ, ∀ k, 2 ^ t - 1 ≤ k →
    stripOnes k (2 ^ t - 1) (2 ^ t - 1) = (0, 0)
  | 0, k, _ => by cases k <;> simp [stripOnes]
  | t + 1, k, hk => by
    have hp := Nat.two_pow_pos t
    have e1 : 2 ^ (t + 1) = 2 * 2 ^ t := by rw [pow_succ]; ring
    obtain ⟨k, rfl⟩ := Nat.exists_eq_succ_of_ne_zero (n := k) (by omega)
    have hs : (2 ^ (t + 1) - 1) / 2 = 2 ^ t - 1 := by omega
    rw [stripOnes, if_pos (by omega), hs]
    exact stripOnes_two_pow t k (by omega)

/-- **The bit walk follows the splits.**  From the indices of the last old and
    the last new leaf, the verifier's loop takes the sides of the consistency
    path; it starts at `fn = 0` exactly when no sibling is on the left. -/
theorem walk_conSides : ∀ n m : ℕ, 1 ≤ m → m ≤ n → (m < n ∨ ∃ t, n = 2 ^ t) →
    ∀ k, m - 1 ≤ k → ∃ fn sn, stripOnes k (m - 1) (n - 1) = (fn, sn) ∧
      Walk fn sn (Merkle.conSides m n) ∧ (fn = 0 ↔ Side.left ∉ Merkle.conSides m n) := by
  intro n
  induction n using Nat.strong_induction_on with
  | _ n ih =>
    intro m h1 hmn hn k hk
    rcases Nat.eq_or_lt_of_le hmn with rfl | hlt
    · obtain ⟨t, rfl⟩ := hn.resolve_left (lt_irrefl _)
      refine ⟨0, 0, stripOnes_two_pow t k hk, ?_, ?_⟩
      · rw [Merkle.conSides_self]; exact .done
      · simp [Merkle.conSides_self]
    · have hn2 : 2 ≤ n := by omega
      have hslt := Merkle.split_lt hn2
      have hsle := Merkle.le_two_mul_split n
      obtain ⟨t, ht⟩ : ∃ t, Merkle.split n = 2 ^ t := ⟨_, rfl⟩
      rw [ht] at hslt hsle
      have e1 : 2 ^ (t + 1) = 2 * 2 ^ t := by rw [pow_succ]; ring
      rcases Nat.lt_or_ge (2 ^ t) m with hs | hs
      · rw [Merkle.conSides_of_gt h1 hlt (by rwa [ht]), ht]
        obtain ⟨t', f', s', i1, i2, i3, i4⟩ := stripOnes_of_offset (m - 2 ^ t - 1) t
          (f := m - 2 ^ t - 1) (s := n - 2 ^ t - 1) le_rfl (by omega) (by omega)
        have hm' : m - 2 ^ t - 1 + 2 ^ t = m - 1 := by omega
        have hn' : n - 2 ^ t - 1 + 2 ^ t = n - 1 := by omega
        have hbig := i4 k (by omega)
        rw [hm', hn'] at hbig
        have hp := Nat.two_pow_pos t
        obtain ⟨fn, sn, hz, hw, -⟩ := ih (n - 2 ^ t) (by omega) (m - 2 ^ t) (by omega) (by omega)
          (Or.inl (by omega)) (m - 2 ^ t - 1) le_rfl
        rw [i3] at hz
        obtain ⟨rfl, rfl⟩ := Prod.mk.inj hz
        refine ⟨_, _, hbig, hw.left_of_offset (by omega) _ i2, ?_⟩
        have := Nat.two_pow_pos t'
        constructor
        · intro h; omega
        · intro h; simp at h
      · rw [Merkle.conSides_of_le h1 hlt (by rwa [ht]), ht]
        obtain ⟨t', f', s', i1, i2, i3, i4, i5⟩ := stripOnes_of_complete k t (f := m - 1)
          (s := n - 1) (by omega) (by omega) (by omega)
        obtain ⟨fn, sn, hz, hw, h0⟩ := ih (2 ^ t) (by omega) m h1 hs (Or.inr ⟨t, rfl⟩) k hk
        rw [i4] at hz
        obtain ⟨rfl, rfl⟩ := Prod.mk.inj hz
        refine ⟨_, _, i5, hw.right_of_complete t' i1 i2 i3, ?_⟩
        rw [h0]; simp

/-- The loop consumes exactly its schedule, and climbs along it. -/
theorem Walk.foldlM_conStep {fn sn : ℕ} {ss : List Side} (hw : Walk fn sn ss) :
    ∀ (hashes : List Digest) (a b : Digest),
      (∃ st, hashes.foldlM conStep ⟨fn, sn, a, b⟩ = some st ∧ st.sn = 0 ∧ ∃ f,
        st = ⟨f, 0, (Merkle.climb₂ nodeHash (a, b) (ss.zip hashes)).1,
          (Merkle.climb₂ nodeHash (a, b) (ss.zip hashes)).2⟩) ∧ hashes.length = ss.length ∨
      (∀ st, hashes.foldlM conStep ⟨fn, sn, a, b⟩ = some st → st.sn ≠ 0) ∧
        hashes.length ≠ ss.length := by
  induction hw with
  | @done fn =>
    intro hashes a b
    cases hashes with
    | nil => exact Or.inl ⟨⟨_, rfl, rfl, fn, rfl⟩, rfl⟩
    | cons h hashes => exact Or.inr ⟨fun st hst => by simp [conStep] at hst, by simp⟩
  | @left fn sn fn' sn' ss h hd hz hw ih =>
    intro hashes a b
    cases hashes with
    | nil => exact Or.inr ⟨fun st hst => by cases hst; exact h, by simp⟩
    | cons x hashes =>
      have hstep : conStep ⟨fn, sn, a, b⟩ x =
          some ⟨fn' / 2, sn' / 2, nodeHash x a, nodeHash x b⟩ := by
        simp only [conStep]; rw [if_neg h, if_pos hd, hz]
      simp only [List.foldlM_cons, hstep, Option.bind_eq_bind, Option.bind_some,
        List.zip_cons_cons, List.length_cons, Merkle.climb₂, add_left_inj, ne_eq]
      exact ih hashes _ _
  | @right fn sn ss h hd hw ih =>
    intro hashes a b
    cases hashes with
    | nil => exact Or.inr ⟨fun st hst => by cases hst; exact h, by simp⟩
    | cons x hashes =>
      have hstep : conStep ⟨fn, sn, a, b⟩ x = some ⟨fn / 2, sn / 2, a, nodeHash b x⟩ := by
        simp only [conStep]; rw [if_neg h, if_neg hd]
      simp only [List.foldlM_cons, hstep, Option.bind_eq_bind, Option.bind_some,
        List.zip_cons_cons, List.length_cons, Merkle.climb₂, add_left_inj, ne_eq]
      exact ih hashes _ _

/-- The walk accepts iff its hashes climb the schedule to both roots. -/
theorem Walk.accepts_iff {fn sn : ℕ} {ss : List Side} (hw : Walk fn sn ss) (hashes : List Digest)
    (a old new : Digest) :
    (match hashes.foldlM conStep ⟨fn, sn, a, a⟩ with
      | none => false
      | some st => decide (st.sn = 0 ∧ st.firstRoot = old ∧ st.secondRoot = new)) = true ↔
    hashes.length = ss.length ∧
      Merkle.climb₂ nodeHash (a, a) (ss.zip hashes) = (old, new) := by
  rcases hw.foldlM_conStep hashes a a with ⟨⟨st, hst, -, f, rfl⟩, hl⟩ | ⟨hne, hl⟩
  · rw [hst]; simp [hl, Prod.ext_iff]
  · simp only [hl, false_and, iff_false, Bool.not_eq_true]
    cases hst : hashes.foldlM conStep ⟨fn, sn, a, a⟩ with
    | none => rfl
    | some st => simp [hne st hst]

/-! ## What the verifier accepts -/

/-- The hash the two recomputed roots start from, and the siblings after it. -/
def conStart (oldSize newSize : ℕ) (oldRoot : Digest) (hashes : List Digest) :
    Option (Digest × List Digest) :=
  if Side.left ∉ Merkle.conSides oldSize newSize then some (oldRoot, hashes)
  else match hashes with
    | [] => none
    | h :: hashes => some (h, hashes)

theorem verifyConsistencyWalk_iff {m n : ℕ} (h1 : 1 ≤ m) (hmn : m < n) (old new : Digest)
    (hashes : List Digest) :
    verifyConsistencyWalk m n old new hashes = true ↔
      ∃ a sibs, conStart m n old hashes = some (a, sibs) ∧
        sibs.length = (Merkle.conSides m n).length ∧
        Merkle.climb₂ nodeHash (a, a) ((Merkle.conSides m n).zip sibs) = (old, new) := by
  obtain ⟨fn, sn, hz, hw, h0⟩ := walk_conSides n m h1 hmn.le (Or.inl hmn) (m - 1) le_rfl
  simp only [verifyConsistencyWalk, hz, conStart, h0]
  by_cases hl : Side.left ∉ Merkle.conSides m n
  · rw [if_pos hl]
    simp only [hw.accepts_iff, Option.some.injEq, Prod.mk.injEq]
    constructor
    · rintro ⟨h2, h3⟩; exact ⟨old, hashes, ⟨rfl, rfl⟩, h2, h3⟩
    · rintro ⟨a, sibs, ⟨rfl, rfl⟩, h2, h3⟩; exact ⟨h2, h3⟩
  · rw [if_neg hl]
    cases hashes with
    | nil => simp
    | cons h hashes =>
      simp only [hw.accepts_iff, Option.some.injEq, Prod.mk.injEq]
      constructor
      · rintro ⟨h2, h3⟩; exact ⟨h, hashes, ⟨rfl, rfl⟩, h2, h3⟩
      · rintro ⟨a, sibs, ⟨rfl, rfl⟩, h2, h3⟩; exact ⟨h2, h3⟩

/-- The digests of a proof, in order. -/
def conHashes (proof : List HashValue) : List Digest :=
  match proof.mapM decodeDigest with
  | .ok ds => ds
  | .error _ => []

/-- The byte strings the verifier hashes on a consistency proof. -/
def conPreimages (oldSize newSize : ℤ) (oldRoot : HashValue) (proof : List HashValue) :
    List Bytes :=
  match decodeDigest oldRoot with
  | .error _ => []
  | .ok old =>
    match conStart oldSize.toNat newSize.toNat old (conHashes proof) with
    | none => []
    | some (a, sibs) => preimages (Merkle.climbPairs₂ nodeHash (a, a)
        ((Merkle.conSides oldSize.toNat newSize.toNat).zip sibs))

/-- The byte strings hashed for two leaf lists and a consistency proof between
    their roots. -/
def consistencyPreimages (A B : List Digest) (oldRoot : HashValue) (proof : List HashValue) :
    List Bytes :=
  rootPreimages A ++ (rootPreimages B ++ conPreimages A.length B.length oldRoot proof)

/-- The three checks of the verifier. -/
theorem verifyConsistencyProof_ok {m n : ℤ} {oldRoot newRoot : HashValue} {proof : List HashValue}
    (h : verifyConsistencyProof m n oldRoot newRoot proof = true) :
    1 ≤ m ∧ m ≤ n ∧ n ≤ maxTreeSize ∧ ∃ old new, decodeDigest oldRoot = .ok old ∧
      decodeDigest newRoot = .ok new ∧ (m = n ∧ old = new ∧ conHashes proof = [] ∨
        m < n ∧ verifyConsistencyWalk m.toNat n.toNat old new (conHashes proof) = true) := by
  have hb : verifyConsistencyBody m n oldRoot newRoot proof = .ok true := by
    rw [verifyConsistencyProof] at h
    split at h
    · rename_i b hb; rw [hb, h]
    · cases h
  obtain ⟨old, hold, hb⟩ := Except.bind_eq_ok.1 hb
  obtain ⟨new, hnew, hb⟩ := Except.bind_eq_ok.1 hb
  obtain ⟨hashes, hh, hb⟩ := Except.bind_eq_ok.1 hb
  have hc : conHashes proof = hashes := by rw [conHashes, hh]
  split_ifs at hb with hs he
  · cases hb
  · push Not at hs
    simp only [Except.pure_eq_ok, Except.ok.injEq, decide_eq_true_eq] at hb
    exact ⟨hs.1, hs.2.1, hs.2.2, old, new, hold, hnew, Or.inl ⟨he, hb.2, hc ▸ hb.1⟩⟩
  · push Not at hs
    simp only [Except.pure_eq_ok, Except.ok.injEq] at hb
    exact ⟨hs.1, hs.2.1, hs.2.2, old, new, hold, hnew, Or.inr ⟨by omega, hc ▸ hb⟩⟩

/-- **An accepted consistency proof shows a prefix**, or exhibits a collision
    among the strings hashed for the lists and the proof. -/
theorem verifyConsistencyProof_binds {A B : List Digest} {oldRoot newRoot : HashValue}
    {proof : List HashValue} (hA : decodeDigest oldRoot = .ok (Merkle.mth nodeHash A))
    (hB : decodeDigest newRoot = .ok (Merkle.mth nodeHash B))
    (h : verifyConsistencyProof A.length B.length oldRoot newRoot proof = true) :
    A <+: B ∨ HashCollision (consistencyPreimages A B oldRoot proof)
      (consistencyPreimages A B oldRoot proof) := by
  obtain ⟨h1, hmn, -, old, new, hold, hnew, hcase⟩ := verifyConsistencyProof_ok h
  obtain rfl := Except.ok.inj (hA.symm.trans hold)
  obtain rfl := Except.ok.inj (hB.symm.trans hnew)
  have hAne : A ≠ [] := by rw [← List.length_pos_iff]; omega
  have hBne : B ≠ [] := by rw [← List.length_pos_iff]; omega
  rcases hcase with ⟨he, hr, -⟩ | ⟨hlt, hw⟩
  · rcases Merkle.mth_binds nodeHash A hAne (by omega) hr with rfl | hc
    · exact Or.inl (List.prefix_refl A)
    · refine Or.inr ((clash_collision hc).mono (fun x hx => ?_) fun x hx => ?_)
      · exact List.mem_append_left _ hx
      · exact List.mem_append_right _ (List.mem_append_left _ hx)
  · simp only [Int.toNat_natCast] at hw
    obtain ⟨a, sibs, hst, hl, hc⟩ := (verifyConsistencyWalk_iff (by omega) (by omega) _ _ _).1 hw
    have hp : ((Merkle.conSides A.length B.length).zip sibs).map Prod.fst =
        Merkle.conSides A.length B.length := List.map_fst_zip (by omega)
    rcases Merkle.climb₂_binds nodeHash B hBne hAne (by omega) hp hc with hpre | hcl
    · exact Or.inl hpre
    · right
      have hpre : preimages (Merkle.conPairs nodeHash A B (a, a)
          ((Merkle.conSides A.length B.length).zip sibs)) =
          consistencyPreimages A B oldRoot proof := by
        simp only [consistencyPreimages, rootPreimages, conPreimages, hA, Int.toNat_natCast, hst,
          preimages, Merkle.conPairs, List.map_append]
      have := clash_collision hcl
      rwa [hpre] at this

/-! ## The hashes of the builder -/

theorem conBase_leaves {l : List Digest} {m : ℕ} (h : l.length ≤ m) : Merkle.conBase l m = l := by
  rw [Merkle.conBase, dif_pos (Or.inl h)]

/-- The hash the builder starts with: none when the prefix is a whole subtree
    that every level so far was cut to. -/
def conHead (l : List Digest) (m : ℕ) (complete : Bool) : List Digest :=
  if complete = true ∧ Side.left ∉ Merkle.conSides m l.length then []
  else [Merkle.mth nodeHash (Merkle.conBase l m)]

/-- The recursion computes the head and the siblings of the consistency path. -/
theorem subproof_eq (ds : List Digest) (hmax : ds.length ≤ maxTreeSize) :
    ∀ fuel start m size : ℕ, ∀ complete : Bool, 1 ≤ m → m ≤ size → size ≤ fuel →
      start + size ≤ ds.length → ∀ l, l = (ds.drop start).take size →
        subproof ds fuel start m size complete =
          .ok (conHead l m complete ++ Merkle.conSibs nodeHash l m) := by
  intro fuel
  induction fuel with
  | zero => intro start m size c h1 h2 h3; omega
  | succ fuel ih =>
    intro start m size c h1 h2 h3 h4 l hl
    have hlen : l.length = size := by rw [hl]; simp; omega
    rw [subproof, conHead]
    by_cases he : m = size
    · subst he
      rw [if_pos rfl, hlen, Merkle.conSides_self, Merkle.conSibs, dif_pos (Or.inl hlen.le),
        conBase_leaves hlen.le, buildMerkleRoot_slice (by omega) h4 hmax, Nat.add_sub_cancel_left,
        ← hl]
      cases c <;> simp
    · have hlt : m < size := by omega
      have hn : 2 ≤ size := by omega
      have hs := Merkle.split_lt hn
      have hp := Merkle.split_pos size
      rw [if_neg he, largestPowerOfTwoLessThan_eq hn, hlen]
      have htake : l.take (Merkle.split size) = (ds.drop start).take (Merkle.split size) := by
        rw [hl, List.take_take, min_eq_left hs.le]
      have hdrop : l.drop (Merkle.split size) =
          (ds.drop (start + Merkle.split size)).take (size - Merkle.split size) := by
        rw [hl, List.drop_take, List.drop_drop]
      have hll : 2 ≤ l.length := by omega
      by_cases hm : m ≤ Merkle.split size
      · have hm' : m ≤ Merkle.split l.length := by rwa [hlen]
        rw [if_pos hm, ih start m _ c h1 hm (by omega) (by omega) _ htake, conHead,
          buildMerkleRoot_slice (by omega) (by omega) hmax,
          show start + size - (start + Merkle.split size) = size - Merkle.split size by omega,
          ← hdrop, Merkle.conSides_of_le h1 hlt hm, Merkle.conBase_of_le h1 (by omega) hm',
          Merkle.conSibs_of_le nodeHash h1 (by omega) hm', hlen, ← hlen, Merkle.length_take_split hll]
        simp
      · have hm' : Merkle.split l.length < m := by rw [hlen]; omega
        rw [if_neg hm, ih (start + Merkle.split size) _ _ false (by omega) (by omega) (by omega)
            (by omega) _ hdrop, conHead, buildMerkleRoot_slice (by omega) (by omega) hmax,
          Nat.add_sub_cancel_left, ← htake, Merkle.conSides_of_gt h1 hlt (by omega),
          Merkle.conBase_of_gt h1 (by omega) hm', Merkle.conSibs_of_gt nodeHash h1 (by omega) hm',
          hlen]
        simp

/-- **`build_consistency_proof` is the consistency path of the decoded
    leaves.** -/
theorem buildConsistencyProof_eq {leaves : List HashValue} {ds : List Digest}
    (h : Decodes leaves ds) (hmax : leaves.length ≤ maxTreeSize) {m : ℕ} (h1 : 1 ≤ m)
    (hm : m ≤ leaves.length) :
    buildConsistencyProof leaves m =
      .ok (conHead ds m true ++ Merkle.conSibs nodeHash ds m) := by
  have hlen := List.mapM_ok_length h
  simp only [Decodes] at h
  rw [buildConsistencyProof, h, Except.ok_bind]
  simp only
  rw [if_neg (by omega)]
  split_ifs with he
  · have hle : ds.length ≤ m := by omega
    rw [conHead, Merkle.conSibs, dif_pos (Or.inl hle), show m = ds.length by omega,
      Merkle.conSides_self]
    simp
  · rw [Int.toNat_natCast]
    exact subproof_eq ds (by omega) _ _ _ _ _ h1 (by omega) le_rfl (by omega) ds (by simp)

/-! ## Completeness -/

/-- The base of the path is the prefix where no sibling is on the left. -/
theorem conBase_eq_take : ∀ (l : List Digest), l ≠ [] → ∀ {m : ℕ}, 1 ≤ m → m ≤ l.length →
    Side.left ∉ Merkle.conSides m l.length → Merkle.conBase l m = l.take m := by
  refine Merkle.list_induction ?_ ?_
  · intro a m h1 hm _
    rw [conBase_leaves (by simpa using h1), List.take_of_length_le (by simpa using h1)]
  · intro l hn ih₁ ih₂ m h1 hm hleft
    rcases Nat.eq_or_lt_of_le hm with rfl | hlt
    · rw [conBase_leaves le_rfl, List.take_length]
    · rcases Nat.lt_or_ge (Merkle.split l.length) m with hs | hs
      · rw [Merkle.conSides_of_gt h1 hlt hs] at hleft; simp at hleft
      · rw [Merkle.conSides_of_le h1 hlt hs] at hleft
        have htl := Merkle.length_take_split hn
        rw [Merkle.conBase_of_le h1 hlt hs,
          ih₁ h1 (by rwa [htl]) (by rw [htl]; intro h; exact hleft (by simp [h])),
          List.take_take, min_eq_left hs]

/-- **The verifier accepts the consistency path.** -/
theorem verifyConsistencyWalk_path {ds : List Digest} {m : ℕ} (h1 : 1 ≤ m) (hm : m < ds.length) :
    verifyConsistencyWalk m ds.length (Merkle.mth nodeHash (ds.take m)) (Merkle.mth nodeHash ds)
      (conHead ds m true ++ Merkle.conSibs nodeHash ds m) = true := by
  have hne : ds ≠ [] := by rw [← List.length_pos_iff]; omega
  rw [verifyConsistencyWalk_iff h1 hm]
  refine ⟨Merkle.mth nodeHash (Merkle.conBase ds m), Merkle.conSibs nodeHash ds m, ?_,
    Merkle.length_conSibs nodeHash ds hne h1 hm.le, Merkle.climb₂_conSibs nodeHash ds hne h1 hm.le⟩
  simp only [conStart, conHead]
  by_cases hl : Side.left ∉ Merkle.conSides m ds.length
  · rw [if_pos hl, if_pos ⟨trivial, hl⟩, conBase_eq_take ds hne h1 hm.le hl]; rfl
  · rw [if_neg hl, if_neg (fun h => hl h.2)]; rfl

/-- The verifier accepts what the builder produces for two decoded roots. -/
theorem verifyConsistencyProof_path {ds : List Digest} (hmax : ds.length ≤ maxTreeSize) {m : ℕ}
    (h1 : 1 ≤ m) (hm : m ≤ ds.length) :
    verifyConsistencyProof m ds.length (.ofDigest (Merkle.mth nodeHash (ds.take m)))
      (.ofDigest (Merkle.mth nodeHash ds))
      ((conHead ds m true ++ Merkle.conSibs nodeHash ds m).map HashValue.ofDigest) = true := by
  rw [verifyConsistencyProof, verifyConsistencyBody, decodeDigest_ofDigest, Except.ok_bind,
    decodeDigest_ofDigest, Except.ok_bind, mapM_decodeDigest_ofDigest, Except.ok_bind,
    if_neg (by omega)]
  rcases Nat.eq_or_lt_of_le hm with rfl | hlt
  · rw [if_pos rfl, conHead, Merkle.conSides_self, Merkle.conSibs, dif_pos (Or.inl le_rfl)]
    simp
  · rw [if_neg (by omega)]
    exact verifyConsistencyWalk_path h1 hlt

/-- **Consistency proofs are complete and sound.** -/
theorem consistency_complete_and_sound :
    (∀ (leaves : List HashValue), (∀ leaf ∈ leaves, ∃ d, decodeDigest leaf = .ok d) →
      leaves.length ≤ maxTreeSize → ∀ m : ℕ, 1 ≤ m → m ≤ leaves.length →
        ∃ oldRoot newRoot proof, buildMerkleRoot (leaves.take m) = .ok oldRoot ∧
          buildMerkleRoot leaves = .ok newRoot ∧ buildConsistencyProof leaves m = .ok proof ∧
          verifyConsistencyProof m leaves.length (.ofDigest oldRoot) (.ofDigest newRoot)
            (proof.map HashValue.ofDigest) = true) ∧
    (∀ (A B : List HashValue) (a b : List Digest) (rootA rootB : Digest)
      (oldRoot newRoot : HashValue) (proof : List HashValue),
      Decodes A a → Decodes B b → 1 ≤ A.length → A.length ≤ B.length →
      buildMerkleRoot A = .ok rootA → buildMerkleRoot B = .ok rootB →
      decodeDigest oldRoot = .ok rootA → decodeDigest newRoot = .ok rootB →
      verifyConsistencyProof A.length B.length oldRoot newRoot proof = true →
        a = b.take A.length ∨ HashCollision (consistencyPreimages a b oldRoot proof)
          (consistencyPreimages a b oldRoot proof)) := by
  constructor
  · intro leaves hdec hmax m h1 hm
    obtain ⟨ds, hds⟩ := List.mapM_ok_of_forall hdec
    have hlen := List.mapM_ok_length hds
    have hne : leaves ≠ [] := by rw [← List.length_pos_iff]; omega
    have htake : Decodes (leaves.take m) (ds.take m) := List.mapM_ok_take hds m
    have htne : leaves.take m ≠ [] := by rw [← List.length_pos_iff]; simp; omega
    refine ⟨_, _, _, buildMerkleRoot_eq htake htne (by simp; omega),
      buildMerkleRoot_eq hds hne hmax, buildConsistencyProof_eq hds hmax h1 hm, ?_⟩
    rw [← hlen]
    exact verifyConsistencyProof_path (by omega) h1 (by omega)
  · intro A B a b rootA rootB oldRoot newRoot proof hA hB h1 hAB hrA hrB hold hnew h
    have hlA := List.mapM_ok_length hA
    have hlB := List.mapM_ok_length hB
    obtain ⟨a', ha', -, -, rfl⟩ := buildMerkleRoot_ok hrA
    obtain ⟨b', hb', -, -, rfl⟩ := buildMerkleRoot_ok hrB
    obtain rfl : a' = a := Except.ok.inj (ha'.symm.trans hA)
    obtain rfl : b' = b := Except.ok.inj (hb'.symm.trans hB)
    rw [← hlA, ← hlB] at h
    rcases verifyConsistencyProof_binds hold hnew h with hp | hc
    · left; rw [← hlA]; exact List.prefix_iff_eq_take.1 hp
    · exact Or.inr hc

/-- A tree of one leaf, and the same tree with a second leaf. -/
theorem consistency_complete_and_sound_pair :
    (∃ oldRoot newRoot proof,
      buildMerkleRoot ([.bytes (.replicate 32 7), .bytes (.replicate 32 9)].take 1) = .ok oldRoot ∧
      buildMerkleRoot [.bytes (.replicate 32 7), .bytes (.replicate 32 9)] = .ok newRoot ∧
      buildConsistencyProof [.bytes (.replicate 32 7), .bytes (.replicate 32 9)] (1 : ℕ) =
        .ok proof ∧
      verifyConsistencyProof (1 : ℕ) (2 : ℕ) (.ofDigest oldRoot) (.ofDigest newRoot)
        (proof.map HashValue.ofDigest) = true) ∧
    (([⟨.replicate 32 7, by simp⟩] : List Digest) =
        [⟨.replicate 32 7, by simp⟩, ⟨.replicate 32 9, by simp⟩].take 1 ∨
      HashCollision
        (consistencyPreimages [⟨.replicate 32 7, by simp⟩]
          [⟨.replicate 32 7, by simp⟩, ⟨.replicate 32 9, by simp⟩]
          (.bytes (.replicate 32 7)) [.bytes (.replicate 32 9)])
        (consistencyPreimages [⟨.replicate 32 7, by simp⟩]
          [⟨.replicate 32 7, by simp⟩, ⟨.replicate 32 9, by simp⟩]
          (.bytes (.replicate 32 7)) [.bytes (.replicate 32 9)])) :=
  ⟨consistency_complete_and_sound.1 [.bytes (.replicate 32 7), .bytes (.replicate 32 9)]
      (by simp [decodeDigest]) (by decide) 1 (by decide) (by decide),
    consistency_complete_and_sound.2 [.bytes (.replicate 32 7)]
      [.bytes (.replicate 32 7), .bytes (.replicate 32 9)] _ _ ⟨.replicate 32 7, by simp⟩
      (nodeHash ⟨.replicate 32 7, by simp⟩ ⟨.replicate 32 9, by simp⟩) _
      (.ofDigest (nodeHash ⟨.replicate 32 7, by simp⟩ ⟨.replicate 32 9, by simp⟩)) _
      rfl rfl (by decide) (by decide) rfl rfl rfl (decodeDigest_ofDigest _)
      (by decide +kernel)⟩

end AimData
