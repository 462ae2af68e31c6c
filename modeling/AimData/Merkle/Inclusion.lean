/-
  Inclusion proofs: `build_inclusion_proof` and its verifier.

  The builder's siblings are `Merkle.sibs` and the verifier's schedule of
  sides is `Merkle.sides`, which depends on the index and the size only; the
  verifier then recomputes the root along `Merkle.climb`.
-/
import AimData.Merkle.Hash

namespace AimData

open Merkle (Side)

/-- The text of a sibling's direction. -/
def direction : Side → String
  | .left => "left"
  | .right => "right"

/-- A sibling as the verifier reads it: a missing key or attribute is `none`,
    `HashValue.other`. -/
structure Sibling where
  hash : HashValue
  direction : Option String
  deriving DecidableEq, Repr

/-- `{"hash": hash, "direction": side}` -/
def Sibling.mk' (side : Side) (hash : Digest) : Sibling :=
  ⟨.ofDigest hash, some (AimData.direction side)⟩

/-! ## The builder -/

/-- The bytes leaves of a slice. -/
def slice (normalized : List Digest) (start stop : ℕ) : List HashValue :=
  ((normalized.drop start).take (stop - start)).map HashValue.ofDigest

/-- `proof(start, size, index)` of `build_inclusion_proof`; the first argument
    bounds the recursion. -/
def inclusionFrom (normalized : List Digest) :
    ℕ → ℕ → ℕ → ℕ → Except CommitmentValidationError (List Sibling)
  | 0, _, _, _ => .ok []
  | fuel + 1, start, size, index =>
    if size = 1 then .ok []
    else do
      let split := largestPowerOfTwoLessThan size
      if index < split then
        let below ← inclusionFrom normalized fuel start split index
        let hash ← buildMerkleRoot (slice normalized (start + split) (start + size))
        return below ++ [.mk' .right hash]
      else
        let below ← inclusionFrom normalized fuel (start + split) (size - split) (index - split)
        let hash ← buildMerkleRoot (slice normalized start (start + split))
        return below ++ [.mk' .left hash]

def buildInclusionProof (leaves : List HashValue) (leafIndex : ℤ) :
    Except CommitmentValidationError (List Sibling) := do
  if leaves = [] ∨ leaves.length > maxTreeSize ∨ leafIndex < 0 ∨ leafIndex ≥ leaves.length then
    refuse "invalid_inclusion_proof"
  else
    let normalized ← leaves.mapM decodeDigest
    inclusionFrom normalized normalized.length 0 normalized.length leafIndex.toNat

/-! ## The verifier -/

/-- `expected_proof_directions`; the first argument bounds the recursion. -/
def directionsFrom : ℕ → ℤ → ℤ → Except CommitmentValidationError (List Side)
  | 0, _, _ => refuse "invalid_inclusion_proof"
  | fuel + 1, leafIndex, treeSize =>
    if treeSize < 1 ∨ treeSize > maxTreeSize ∨ leafIndex < 0 ∨ leafIndex ≥ treeSize then
      refuse "invalid_inclusion_proof"
    else if treeSize = 1 then .ok []
    else do
      let split := largestPowerOfTwoLessThan treeSize.toNat
      if leafIndex < split then return (← directionsFrom fuel leafIndex split) ++ [.right]
      else return (← directionsFrom fuel (leafIndex - split) (treeSize - split)) ++ [.left]

def expectedProofDirections (leafIndex treeSize : ℤ) :
    Except CommitmentValidationError (List Side) :=
  directionsFrom (treeSize.toNat + 1) leafIndex treeSize

/-- The loop over the siblings; `none` is the early `return False`. -/
def walkSiblings (current : Digest) :
    List (Sibling × Side) → Except CommitmentValidationError (Option Digest)
  | [] => .ok (some current)
  | (sibling, expectedDirection) :: rest =>
    if sibling.direction ≠ some (direction expectedDirection) then .ok none
    else do
      let decodedSibling ← decodeDigest sibling.hash
      walkSiblings (match expectedDirection with
        | .left => nodeHash decodedSibling current
        | .right => nodeHash current decodedSibling) rest

def verifyInclusionBody (leafHash : HashValue) (leafIndex treeSize : ℤ) (siblings : List Sibling)
    (expectedRoot : HashValue) : Except CommitmentValidationError Bool := do
  let directions ← expectedProofDirections leafIndex treeSize
  if siblings.length > maxProofSiblings ∨ siblings.length ≠ directions.length then return false
  else
    let current ← decodeDigest leafHash
    match ← walkSiblings current (siblings.zip directions) with
    | none => return false
    | some current => return constantTimeDigestEqual (.ofDigest current) expectedRoot

/-- `verify_inclusion_proof`: a raised error is a refusal. -/
def verifyInclusionProof (leafHash : HashValue) (leafIndex treeSize : ℤ) (siblings : List Sibling)
    (expectedRoot : HashValue) : Bool :=
  match verifyInclusionBody leafHash leafIndex treeSize siblings expectedRoot with
  | .ok b => b
  | .error _ => false

/-! ## The schedule of sides -/

theorem directionsFrom_eq : ∀ (fuel n i : ℕ), i < n → n < fuel → n ≤ maxTreeSize →
    directionsFrom fuel i n = .ok (Merkle.sides i n) := by
  intro fuel
  induction fuel with
  | zero => intro n i h1 h2; omega
  | succ fuel ih =>
    intro n i h1 h2 hmax
    rw [directionsFrom, if_neg (by omega)]
    split_ifs with h
    · rw [Merkle.sides_of_le (by omega)]
    · have hn : 2 ≤ n := by omega
      have hlt := Merkle.split_lt hn
      have hpos := Merkle.split_pos n
      simp only [Int.toNat_natCast, largestPowerOfTwoLessThan_eq hn]
      split_ifs with hi
      · rw [Merkle.sides_of_lt hn (by omega), ih _ _ (by omega) (by omega) (by omega)]
        rfl
      · have h1' : (i : ℤ) - (Merkle.split n : ℤ) = ((i - Merkle.split n : ℕ) : ℤ) := by omega
        have h2' : (n : ℤ) - (Merkle.split n : ℤ) = ((n - Merkle.split n : ℕ) : ℤ) := by omega
        rw [Merkle.sides_of_ge hn (by omega), h1', h2',
          ih _ _ (by omega) (by omega) (by omega)]
        rfl

theorem expectedProofDirections_eq {n i : ℕ} (h : i < n) (hmax : n ≤ maxTreeSize) :
    expectedProofDirections i n = .ok (Merkle.sides i n) :=
  directionsFrom_eq _ _ _ h (by simp) hmax

/-- The verifier's schedule exists for the indices of the tree only. -/
theorem expectedProofDirections_ok {i n : ℤ} {ds : List Side}
    (h : expectedProofDirections i n = .ok ds) :
    0 ≤ i ∧ i < n ∧ n ≤ maxTreeSize ∧ ds = Merkle.sides i.toNat n.toNat := by
  have hc : ¬ (n < 1 ∨ n > maxTreeSize ∨ i < 0 ∨ i ≥ n) := by
    intro hc
    rw [expectedProofDirections, directionsFrom, if_pos hc] at h
    cases h
  push Not at hc
  obtain ⟨i, rfl⟩ := Int.eq_ofNat_of_zero_le hc.2.2.1
  obtain ⟨n, rfl⟩ := Int.eq_ofNat_of_zero_le (a := n) (by omega)
  rw [expectedProofDirections_eq (by omega) (by omega)] at h
  exact ⟨by omega, by omega, by omega, by simpa using (Except.ok.inj h).symm⟩

/-! ## The siblings of the builder -/

theorem buildMerkleRoot_slice {ds : List Digest} {start stop : ℕ} (h : start < stop)
    (hs : stop ≤ ds.length) (hmax : ds.length ≤ maxTreeSize) :
    buildMerkleRoot (slice ds start stop) =
      .ok (Merkle.mth nodeHash ((ds.drop start).take (stop - start))) := by
  refine buildMerkleRoot_eq (mapM_decodeDigest_ofDigest _) ?_ ?_
  · rw [← List.length_pos_iff]; simp [slice]; omega
  · simp [slice]; omega

/-- The siblings of a list of steps. -/
def stepSiblings (p : List (Side × Digest)) : List Sibling := p.map fun s => .mk' s.1 s.2

theorem inclusionFrom_eq (ds : List Digest) (hmax : ds.length ≤ maxTreeSize) :
    ∀ fuel start size index : ℕ, index < size → size ≤ fuel → start + size ≤ ds.length →
      inclusionFrom ds fuel start size index =
        .ok (stepSiblings (Merkle.path nodeHash ((ds.drop start).take size) index)) := by
  intro fuel
  induction fuel with
  | zero => intro start size index h1 h2; omega
  | succ fuel ih =>
    intro start size index h1 h2 h3
    have hlen : ((ds.drop start).take size).length = size := by simp; omega
    rw [inclusionFrom]
    split_ifs with h
    · subst h
      rw [Merkle.path, Merkle.sides_of_le (by simp)]; rfl
    · have hn : 2 ≤ size := by omega
      have hlt := Merkle.split_lt hn
      have hpos := Merkle.split_pos size
      simp only [largestPowerOfTwoLessThan_eq hn]
      split_ifs with hi
      · have hp := Merkle.path_of_lt nodeHash (l := (ds.drop start).take size) (by omega)
          (i := index) (by rw [hlen]; exact hi)
        rw [hlen, List.take_take, min_eq_left hlt.le, List.drop_take, List.drop_drop] at hp
        rw [hp, ih _ _ _ hi (by omega) (by omega), Except.ok_bind,
          buildMerkleRoot_slice (by omega) (by omega) hmax,
          show start + size - (start + Merkle.split size) = size - Merkle.split size by omega]
        simp [stepSiblings]
      · have hp := Merkle.path_of_ge nodeHash (l := (ds.drop start).take size) (by omega)
          (i := index) (by rw [hlen]; omega)
        rw [hlen, List.take_take, min_eq_left hlt.le, List.drop_take, List.drop_drop] at hp
        rw [hp, ih _ _ _ (by omega) (by omega) (by omega), Except.ok_bind,
          buildMerkleRoot_slice (by omega) (by omega) hmax,
          show start + Merkle.split size - start = Merkle.split size by omega]
        simp [stepSiblings]

/-- **`build_inclusion_proof` is the inclusion path of the decoded leaves.** -/
theorem buildInclusionProof_eq {leaves : List HashValue} {ds : List Digest}
    (h : Decodes leaves ds) (hmax : leaves.length ≤ maxTreeSize) {i : ℕ} (hi : i < leaves.length) :
    buildInclusionProof leaves i = .ok (stepSiblings (Merkle.path nodeHash ds i)) := by
  have hlen := List.mapM_ok_length h
  have hne : leaves ≠ [] := by rw [← List.length_pos_iff]; omega
  rw [buildInclusionProof, if_neg (by simp [hne]; omega)]
  simp only [Decodes] at h
  rw [h, Except.ok_bind, Int.toNat_natCast,
    inclusionFrom_eq ds (by omega) _ _ _ _ (by omega) le_rfl (by omega)]
  simp

/-! ## What the verifier accepts -/

/-- The verifier's loop over well-formed siblings climbs the path. -/
theorem walkSiblings_steps : ∀ (p : List (Side × Digest)) (a : Digest),
    walkSiblings a ((stepSiblings p).zip (p.map Prod.fst)) = .ok (some (Merkle.climb nodeHash a p))
  | [], a => rfl
  | (d, s) :: p, a => by
    simp only [stepSiblings, List.map_cons, List.zip_cons_cons, walkSiblings, Sibling.mk',
      ne_eq, not_true_eq_false, if_false, decodeDigest_ofDigest, Except.ok_bind]
    cases d <;> exact walkSiblings_steps p _

/-- A loop that ends has read digests under the expected directions. -/
theorem walkSiblings_ok : ∀ {siblings : List Sibling} {sides : List Side} {a b : Digest},
    siblings.length = sides.length → walkSiblings a (siblings.zip sides) = .ok (some b) →
      ∃ ds, siblings.mapM (fun s => decodeDigest s.hash) = .ok ds ∧
        b = Merkle.climb nodeHash a (sides.zip ds)
  | [], [], a, b, _, h => by
    refine ⟨[], rfl, ?_⟩
    simp only [List.zip_nil_left, walkSiblings, Except.ok.injEq, Option.some.injEq] at h
    exact h.symm
  | [], _ :: _, _, _, hl, _ | _ :: _, [], _, _, hl, _ => by simp at hl
  | s :: siblings, d :: sides, a, b, hl, h => by
    rw [List.zip_cons_cons, walkSiblings] at h
    split_ifs at h
    · cases h
    · obtain ⟨x, hx, h⟩ := Except.bind_eq_ok.1 h
      obtain ⟨ds, hds, rfl⟩ := walkSiblings_ok (by simpa using hl) h
      refine ⟨x :: ds, List.mapM_cons_ok.2 ⟨x, ds, hx, hds, rfl⟩, ?_⟩
      cases d <;> rfl

/-- The digests of the siblings of a proof, in order. -/
def siblingDigests (siblings : List Sibling) : List Digest :=
  match siblings.mapM fun s => decodeDigest s.hash with
  | .ok ds => ds
  | .error _ => []

/-- The steps the verifier takes on a proof for (index, size). -/
def proofSteps (leafIndex treeSize : ℤ) (siblings : List Sibling) : List (Side × Digest) :=
  (Merkle.sides leafIndex.toNat treeSize.toNat).zip (siblingDigests siblings)

theorem constantTimeDigestEqual_eq {d r : Digest} {root : HashValue}
    (h : constantTimeDigestEqual (.ofDigest d) root = true) (hr : decodeDigest root = .ok r) :
    d = r := by
  rw [constantTimeDigestEqual, decodeDigest_ofDigest, hr] at h
  simpa using h

/-- **What an accepted inclusion proof shows**: the steps of its siblings lead
    from the leaf hash to the root. -/
theorem verifyInclusionProof_ok {leafHash root : HashValue} {i n : ℤ} {siblings : List Sibling}
    (h : verifyInclusionProof leafHash i n siblings root = true) :
    0 ≤ i ∧ i < n ∧ n ≤ maxTreeSize ∧ siblings.length ≤ maxProofSiblings ∧
      (proofSteps i n siblings).map Prod.fst = Merkle.sides i.toNat n.toNat ∧
      ∃ leaf r, decodeDigest leafHash = .ok leaf ∧ decodeDigest root = .ok r ∧
        Merkle.climb nodeHash leaf (proofSteps i n siblings) = r := by
  have hb : verifyInclusionBody leafHash i n siblings root = .ok true := by
    rw [verifyInclusionProof] at h
    split at h
    · rename_i b hb; rw [hb, h]
    · cases h
  obtain ⟨sides, hs, hb⟩ := Except.bind_eq_ok.1 hb
  obtain ⟨h0, hi, hmax, rfl⟩ := expectedProofDirections_ok hs
  split_ifs at hb with hl
  · simp at hb
  · push Not at hl
    obtain ⟨leaf, hleaf, hb⟩ := Except.bind_eq_ok.1 hb
    obtain ⟨w, hw, hb⟩ := Except.bind_eq_ok.1 hb
    cases w with
    | none => simp at hb
    | some c =>
      simp only [Except.pure_eq_ok, Except.ok.injEq] at hb
      obtain ⟨ds, hds, rfl⟩ := walkSiblings_ok hl.2 hw
      have hsd : siblingDigests siblings = ds := by rw [siblingDigests, hds]
      cases hr : decodeDigest root with
      | error e => rw [constantTimeDigestEqual, hr, decodeDigest_ofDigest] at hb; cases hb
      | ok r =>
        have hc := constantTimeDigestEqual_eq hb hr
        refine ⟨h0, hi, hmax, hl.1, ?_, leaf, r, hleaf, rfl, ?_⟩
        · rw [proofSteps, hsd, List.map_fst_zip]
          rw [List.mapM_ok_length hds, hl.2]
        · rw [proofSteps, hsd]; exact hc

/-- The verifier accepts the steps of a path to the root. -/
theorem verifyInclusionProof_steps {leafHash : HashValue} {leaf r : Digest} {i n : ℕ}
    {p : List (Side × Digest)} (hleaf : decodeDigest leafHash = .ok leaf) (hi : i < n)
    (hmax : n ≤ maxTreeSize) (hp : p.map Prod.fst = Merkle.sides i n)
    (hr : Merkle.climb nodeHash leaf p = r) :
    verifyInclusionProof leafHash i n (stepSiblings p) (.ofDigest r) = true := by
  have hlen : (stepSiblings p).length = (Merkle.sides i n).length := by
    rw [← hp]; simp [stepSiblings]
  have h63 : (Merkle.sides i n).length ≤ maxProofSiblings :=
    Merkle.length_sides_le 63 (hmax.trans (by decide)) i
  rw [verifyInclusionProof, verifyInclusionBody, expectedProofDirections_eq hi hmax,
    Except.ok_bind, if_neg (by omega), hleaf, Except.ok_bind, ← hp, walkSiblings_steps, hr]
  simp [constantTimeDigestEqual]

/-- The byte strings the verifier hashes on a proof. -/
def proofPreimages (leafHash : HashValue) (leafIndex treeSize : ℤ) (siblings : List Sibling) :
    List Bytes :=
  match decodeDigest leafHash with
  | .ok leaf => preimages (Merkle.climbPairs nodeHash leaf (proofSteps leafIndex treeSize siblings))
  | .error _ => []

/-- An accepted proof against the root of a leaf list is a proof of the leaf
    at its index, or exhibits a collision with the strings hashed for the
    list. -/
theorem verifyInclusionProof_binds {leafHash root : HashValue} {i n : ℤ} {siblings : List Sibling}
    (h : verifyInclusionProof leafHash i n siblings root = true) {l : List Digest}
    (hn : (l.length : ℤ) = n) (hroot : decodeDigest root = .ok (Merkle.mth nodeHash l)) :
    (∃ hi : i.toNat < l.length, decodeDigest leafHash = .ok l[i.toNat]) ∨
      HashCollision (proofPreimages leafHash i n siblings) (rootPreimages l) := by
  obtain ⟨h0, hi, -, -, hp, leaf, r, hleaf, hr, hc⟩ := verifyInclusionProof_ok h
  subst hn
  have hil : i.toNat < l.length := by omega
  have hne : l ≠ [] := by rw [← List.length_pos_iff]; omega
  obtain rfl : Merkle.mth nodeHash l = r := Except.ok.inj (hroot.symm.trans hr)
  rw [Int.toNat_natCast] at hp
  rcases Merkle.climb_binds nodeHash _ hne hil hp hc with he | hcl
  · exact Or.inl ⟨hil, hleaf.trans (by rw [he])⟩
  · right
    have := clash_collision hcl
    rwa [proofPreimages, hleaf]

/-- **Inclusion proofs are complete and binding.** -/
theorem inclusion_complete_and_binding :
    (∀ (leaves : List HashValue), (∀ leaf ∈ leaves, ∃ d, decodeDigest leaf = .ok d) →
      leaves.length ≤ maxTreeSize → ∀ (i : ℕ) (hi : i < leaves.length),
        ∃ root proof, buildMerkleRoot leaves = .ok root ∧ buildInclusionProof leaves i = .ok proof ∧
          proof.length ≤ maxProofSiblings ∧
          verifyInclusionProof leaves[i] i leaves.length proof (.ofDigest root) = true) ∧
    (∀ (leafIndex treeSize : ℤ) (root leaf₁ leaf₂ : HashValue) (proof₁ proof₂ : List Sibling),
      verifyInclusionProof leaf₁ leafIndex treeSize proof₁ root = true →
      verifyInclusionProof leaf₂ leafIndex treeSize proof₂ root = true →
        decodeDigest leaf₁ = decodeDigest leaf₂ ∨
          HashCollision (proofPreimages leaf₁ leafIndex treeSize proof₁)
            (proofPreimages leaf₂ leafIndex treeSize proof₂)) := by
  constructor
  · intro leaves hdec hmax i hi
    obtain ⟨ds, hds⟩ := List.mapM_ok_of_forall hdec
    have hlen := List.mapM_ok_length hds
    have hne : leaves ≠ [] := by rw [← List.length_pos_iff]; omega
    have hdne : ds ≠ [] := by rw [← List.length_pos_iff]; omega
    have hp : (Merkle.path nodeHash ds i).map Prod.fst = Merkle.sides i leaves.length := by
      rw [Merkle.path, List.map_fst_zip, hlen]
      rw [Merkle.length_sibs nodeHash _ hdne]
    refine ⟨_, _, buildMerkleRoot_eq hds hne hmax, buildInclusionProof_eq hds hmax hi, ?_, ?_⟩
    · have := Merkle.length_sides_le 63 (hmax.trans (by decide)) i
      rwa [← hp, List.length_map, ← List.length_map (f := fun s => Sibling.mk' s.1 s.2)] at this
    · exact verifyInclusionProof_steps (List.mapM_ok_get hds i hi (by omega)) hi hmax hp
        (Merkle.climb_path nodeHash _ hdne (by omega))
  · intro i n root leaf₁ leaf₂ proof₁ proof₂ h₁ h₂
    obtain ⟨-, -, -, -, hp₁, l₁, r₁, hl₁, hr₁, hc₁⟩ := verifyInclusionProof_ok h₁
    obtain ⟨-, -, -, -, hp₂, l₂, r₂, hl₂, hr₂, hc₂⟩ := verifyInclusionProof_ok h₂
    obtain rfl : r₁ = r₂ := Except.ok.inj (hr₁.symm.trans hr₂)
    rcases Merkle.climb_inj nodeHash (hp₁.trans hp₂.symm) (hc₁.trans hc₂.symm) with he | hcl
    · left; rw [hl₁, hl₂, he]
    · right
      have := clash_collision hcl
      rwa [proofPreimages, proofPreimages, hl₁, hl₂]

/-- A tree of two leaves, and two proofs of its first leaf. -/
theorem inclusion_complete_and_binding_pair :
    (∃ root proof,
      buildMerkleRoot [.bytes (.replicate 32 7), .bytes (.replicate 32 9)] = .ok root ∧
      buildInclusionProof [.bytes (.replicate 32 7), .bytes (.replicate 32 9)] (1 : ℕ) = .ok proof ∧
      proof.length ≤ maxProofSiblings ∧
      verifyInclusionProof (.bytes (.replicate 32 9)) (1 : ℕ) (2 : ℕ) proof (.ofDigest root) = true) ∧
    (decodeDigest (.bytes (.replicate 32 7)) = decodeDigest (.bytes (.replicate 32 7)) ∨
      HashCollision
        (proofPreimages (.bytes (.replicate 32 7)) 0 2 [⟨.bytes (.replicate 32 9), some "right"⟩])
        (proofPreimages (.bytes (.replicate 32 7)) 0 2 [⟨.bytes (.replicate 32 9), some "right"⟩])) :=
  ⟨inclusion_complete_and_binding.1 [.bytes (.replicate 32 7), .bytes (.replicate 32 9)]
      (by simp [decodeDigest]) (by decide) 1 (by decide),
    inclusion_complete_and_binding.2 0 2
      (.ofDigest (nodeHash ⟨.replicate 32 7, by simp⟩ ⟨.replicate 32 9, by simp⟩))
      _ _ _ _ (by decide +kernel) (by decide +kernel)⟩

end AimData
