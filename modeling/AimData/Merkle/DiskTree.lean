/-
  `build_disk_tree` and `DiskTree.proof`: the leaf and index files of the
  sorted records, the pre-order node file, and proofs read back from them.

  `DiskTree.Represents` says what the files of a tree hold; a job that returns
  leaves such files, and the proofs read from such files are those of
  `build_inclusion_proof`.
-/
import AimData.Merkle.ExternalSort
import AimData.Merkle.Inclusion

namespace AimData

open Merkle (Side)
open Program

variable (env : Env) (budget : WorkerBudget)

/-! ## The files of a tree -/

/-- One entry of the index file, `>QIQ32s4x`. -/
def packEntry (offset length ordinal : ℕ) (base : Digest) : Job Bytes := do
  let offset ← pack offset 8
  let length ← pack length 4
  let ordinal ← pack ordinal 8
  return offset ++ length ++ ordinal ++ base.1 ++ List.replicate 4 0

/-- The loop over the sorted records; the first argument bounds their number. -/
def writeLeaves : ℕ → Bytes → Option Record → ℕ → ℕ → Job Unit
  | 0, _, _, _, _ => pure ()
  | fuel + 1, ordered, last, ordinal, offset => do
    match ← Job.ofExcept (nextRecord budget.recordBytes ordered) with
    | none => pure ()
    | some (pair, rest) =>
      let ordinal := if some pair = last then ordinal + 1 else 0
      check env budget (32 + 56)
      let leaf ← Job.ofExcept (computeLeafHash (.ofDigest pair.base) ordinal)
      append "leaves" leaf.1
      let entry ← packEntry offset pair.row.length ordinal pair.base
      append "index" entry
      writeLeaves fuel rest (some pair) ordinal (offset + (36 + pair.row.length))

/-- `build(start, size, position)`; the first argument bounds the recursion. -/
def buildNodes (leaves : Bytes) : ℕ → ℕ → ℕ → ℕ → Job Bytes
  | 0, _, _, _ => pure []
  | fuel + 1, start, size, position => do
    check env budget 0
    let result ←
      if size = 1 then pure (Bytes.readAt leaves (start * 32) 32)
      else do
        let split := largestPowerOfTwoLessThan size
        let left ← buildNodes leaves fuel start split (position + 1)
        let right ← buildNodes leaves fuel (start + split) (size - split) (position + 2 * split)
        let node ← Job.ofExcept (computeNodeHash (.bytes left) (.bytes right))
        pure node.1
    writeFile "nodes" (position * 32) result
    return result

structure DiskTree where
  count : ℕ
  root : Bytes
  schemaDigest : HashValue
  canonicalBytes : ℕ

/-- From the one sorted run to the tree. -/
def buildTree (run : String) (st : Reading) (schemaDigest : HashValue) : Job DiskTree := do
  let ordered ← openFile run
  privateFile "leaves"
  privateFile "index"
  writeLeaves env budget ordered.length ordered none 0 0
  rename run "rows"
  let leaves ← openFile "leaves"
  privateFile "nodes"
  check env budget ((2 * st.count - 1) * 32)
  let root ← buildNodes env budget leaves st.count 0 st.count 0
  remove "leaves"
  return ⟨st.count, root, schemaDigest, st.canonicalBytes⟩

def buildDiskTree (givenBudget : Option WorkerBudget) (canonicalRows : List Bytes)
    (schemaDigest : HashValue) : Job DiskTree := do
  let budget := givenBudget.getD {}
  Job.ofExcept budget.validate
  diskBudgetInit env budget
  let st ← readRows env budget schemaDigest canonicalRows ⟨[], [], 0, 0, 0⟩
  let st ← spill env budget st
  if st.count = 0 then Job.raise "invalid_tree_size"
  else do
    match ← mergeRuns env budget st.runs.length 0 st.runs with
    | [] => throw .fileNotFound
    | run :: _ => buildTree env budget run st schemaDigest

/-- What `DiskTree.proof` returns. -/
structure DiskProof where
  baseRowDigest : String
  duplicateOrdinal : ℕ
  leafIndex : ℕ
  treeSize : ℕ
  siblings : List Sibling
  deriving DecidableEq, Repr

/-- The loop of `DiskTree.proof`, in the order of its `append`s; the first
    argument bounds the number of levels. -/
def proofSiblings (nodes : Bytes) (index : ℕ) : ℕ → ℕ → ℕ → ℕ → List Sibling
  | 0, _, _, _ => []
  | fuel + 1, position, start, size =>
    if size > 1 then
      let split := largestPowerOfTwoLessThan size
      if index < start + split then
        ⟨.text (encodeBase64url (Bytes.readAt nodes ((position + 2 * split) * 32) 32)),
            some (direction .right)⟩ ::
          proofSiblings nodes index fuel (position + 1) start split
      else
        ⟨.text (encodeBase64url (Bytes.readAt nodes ((position + 1) * 32) 32)),
            some (direction .left)⟩ ::
          proofSiblings nodes index fuel (position + 2 * split) (start + split) (size - split)
    else []

def DiskTree.proof (files : Files) (tree : DiskTree) (index : ℤ) : Except Fault DiskProof :=
  if index < 0 ∨ index ≥ tree.count then .error (.refused { code := "invalid_inclusion_proof" })
  else match files.lookup "nodes" with
    | none => .error .fileNotFound
    | some nodes =>
      let siblings := proofSiblings nodes index.toNat tree.count 0 0 tree.count
      match files.lookup "index" with
      | none => .error .fileNotFound
      | some entries =>
        let entry := Bytes.readAt entries (index.toNat * 56) 56
        if entry.length ≠ 56 then .error .struct
        else .ok {
          baseRowDigest := encodeBase64url ((entry.drop 20).take 32)
          duplicateOrdinal := Bytes.toNat ((entry.drop 12).take 8)
          leafIndex := index.toNat
          treeSize := tree.count
          siblings := siblings.reverse }

/-! ## The in-memory leaf list -/

/-- The pairs (row digest, row) of the rows, sorted. -/
def sortedPairs (schemaDigest : HashValue) (rows : List Bytes) :
    Except CommitmentValidationError (List Record) := do
  return (← rows.mapM (rowPair schemaDigest)).insertionSort (· ≤ ·)

/-- The leaf hash of a numbered pair. -/
def pairLeaf (p : Record × ℕ) : Except CommitmentValidationError Digest :=
  computeLeafHash (.ofDigest p.1.base) p.2

/-- The leaf list of the sorted, numbered pairs. -/
def leafList (schemaDigest : HashValue) (rows : List Bytes) :
    Except CommitmentValidationError (List Digest) := do
  (KWay.numbered (← sortedPairs schemaDigest rows)).mapM pairLeaf

/-! ## The leaf and index files -/

/-- The bytes of an index entry. -/
def indexEntry (offset : ℕ) (p : Record × ℕ) : Bytes :=
  Bytes.ofNat offset 8 ++ Bytes.ofNat p.1.row.length 4 ++ Bytes.ofNat p.2 8 ++ p.1.base.1 ++
    List.replicate 4 0

/-- The index of numbered records that start at `offset`. -/
def indexFile : ℕ → List (Record × ℕ) → Bytes
  | _, [] => []
  | offset, p :: ps => indexEntry offset p ++ indexFile (offset + (36 + p.1.row.length)) ps

/-- The bytes of a list of digests. -/
def digestFile (ds : List Digest) : Bytes := ds.flatMap Subtype.val

@[simp] theorem length_indexEntry (offset : ℕ) (p : Record × ℕ) :
    (indexEntry offset p).length = 56 := by
  simp [indexEntry, p.1.base.2]

theorem indexEntry_ordinal (offset : ℕ) (p : Record × ℕ) :
    ((indexEntry offset p).drop 12).take 8 = Bytes.ofNat p.2 8 := by
  have h : indexEntry offset p = (Bytes.ofNat offset 8 ++ Bytes.ofNat p.1.row.length 4) ++
      (Bytes.ofNat p.2 8 ++ (p.1.base.1 ++ List.replicate 4 0)) := by simp [indexEntry]
  rw [h, List.drop_append_of_le_length (by simp), List.drop_of_length_le (by simp),
    List.nil_append, List.take_append_of_le_length (by simp), List.take_of_length_le (by simp)]

theorem indexEntry_base (offset : ℕ) (p : Record × ℕ) :
    ((indexEntry offset p).drop 20).take 32 = p.1.base.1 := by
  have h : indexEntry offset p =
      (Bytes.ofNat offset 8 ++ Bytes.ofNat p.1.row.length 4 ++ Bytes.ofNat p.2 8) ++
        (p.1.base.1 ++ List.replicate 4 0) := by simp [indexEntry]
  have hb := p.1.base.2
  rw [h, List.drop_append_of_le_length (by simp), List.drop_of_length_le (by simp),
    List.nil_append, List.take_append_of_le_length hb.ge, List.take_of_length_le hb.le]

theorem length_encodeRecord (p : Record) : (encodeRecord p).length = 36 + p.row.length := by
  simp [encodeRecord, p.base.2]; omega

/-- Entry `i` of the index is that of record `i`, at the record's position. -/
theorem slot_indexFile : ∀ {ps : List (Record × ℕ)} (offset : ℕ) {i : ℕ} (hi : i < ps.length),
    Bytes.slot 56 (indexFile offset ps) i =
      indexEntry (offset + (encodeRecords ((ps.take i).map Prod.fst)).length) ps[i]
  | p :: ps, offset, 0, _ => by
    rw [Bytes.slot, Bytes.readAt, indexFile, Nat.zero_mul, List.drop_zero,
      List.take_append_of_le_length (length_indexEntry _ _).ge,
      List.take_of_length_le (length_indexEntry _ _).le]
    rfl
  | p :: ps, offset, i + 1, hi => by
    have hd : (i + 1) * 56 = 56 + i * 56 := by ring
    have hi' : i < ps.length := by simpa using hi
    have ih := slot_indexFile (offset + (36 + p.1.row.length)) hi'
    rw [Bytes.slot, Bytes.readAt, indexFile, hd, ← List.drop_drop,
      List.drop_append_of_le_length (length_indexEntry _ _).ge,
      List.drop_of_length_le (length_indexEntry _ _).le, List.nil_append]
    rw [Bytes.slot, Bytes.readAt] at ih
    rw [ih, List.take_succ_cons, List.map_cons, encodeRecords_cons, List.length_append,
      length_encodeRecord, ← Nat.add_assoc, ← Nat.add_assoc, ← Nat.add_assoc]
    rfl

variable {env budget}

/-- A packed entry's fields fit their widths. -/
theorem returns_packEntry {offset length ordinal : ℕ} {base : Digest} {b : Bytes} {w w' : World}
    (h : Returns (packEntry offset length ordinal base) w b w') :
    offset < 256 ^ 8 ∧ ordinal < 256 ^ 8 ∧ w = w' ∧
      b = Bytes.ofNat offset 8 ++ Bytes.ofNat length 4 ++ Bytes.ofNat ordinal 8 ++ base.1 ++
        List.replicate 4 0 := by
  obtain ⟨_, w₁, h1, h⟩ := returns_bind.1 h
  obtain ⟨hoff, rfl, rfl⟩ := returns_pack.1 h1
  obtain ⟨_, w₂, h2, h⟩ := returns_bind.1 h
  obtain ⟨-, rfl, rfl⟩ := returns_pack.1 h2
  obtain ⟨_, w₃, h3, h⟩ := returns_bind.1 h
  obtain ⟨hlt, rfl, rfl⟩ := returns_pack.1 h3
  obtain ⟨rfl, rfl⟩ := returns_pure.1 h
  exact ⟨hoff, hlt, rfl, rfl⟩

/-- What the loop over the sorted records has written. -/
structure LeavesWritten (fs fs' : Files) (cl ci : Bytes) (offset : ℕ) (ps : List (Record × ℕ)) :
    Prop where
  leaves : ∃ ls, ps.mapM pairLeaf = .ok ls ∧ fs'.lookup "leaves" = some (cl ++ digestFile ls)
  index : fs'.lookup "index" = some (ci ++ indexFile offset ps)
  ordinals : ∀ p ∈ ps, p.2 < 256 ^ 8
  offsets : ∀ i < ps.length, offset + (encodeRecords ((ps.take i).map Prod.fst)).length < 256 ^ 8
  others : ∀ n, n ≠ "leaves" → n ≠ "index" → fs'.lookup n = fs.lookup n

/-- **The leaf and index files** list the counted records. -/
theorem leavesWritten_writeLeaves : ∀ {fuel : ℕ} {ps : List Record} {last : Option Record}
    {ordinal offset : ℕ} {cl ci : Bytes} {w w' : World} {u : Unit}, ps.length < fuel →
      (∀ p ∈ ps, Fits budget p) → w.files.lookup "leaves" = some cl →
      w.files.lookup "index" = some ci →
      Returns (writeLeaves env budget fuel (encodeRecords ps) last ordinal offset) w u w' →
        LeavesWritten w.files w'.files cl ci offset (KWay.counted last ordinal ps)
  | fuel + 1, [], last, ordinal, offset, cl, ci, w, w', u, _, _, hl, hi, h => by
    obtain ⟨o, w₁, ho, h⟩ := returns_bind.1 h
    obtain ⟨hn, rfl⟩ := returns_jobOfExcept.1 ho
    obtain rfl := Except.ok.inj hn
    obtain ⟨-, rfl⟩ := returns_pure.1 h
    exact ⟨⟨[], rfl, by simpa [digestFile] using hl⟩, by simpa [KWay.counted, indexFile] using hi,
      by simp [KWay.counted], by simp [KWay.counted], fun _ _ _ => rfl⟩
  | fuel + 1, p :: ps, last, ordinal, offset, cl, ci, w, w', u, hf, hfit, hl, hi, h => by
    obtain ⟨o, w₁, ho, h⟩ := returns_bind.1 h
    obtain ⟨hn, rfl⟩ := returns_jobOfExcept.1 ho
    rw [encodeRecords_cons, nextRecord_encode (hfit p (by simp))] at hn
    obtain rfl := Except.ok.inj hn
    obtain ⟨_, w₂, hc, h⟩ := returns_bind.1 h
    obtain ⟨leaf, w₃, hleaf, h⟩ := returns_bind.1 h
    obtain ⟨hleaf', rfl⟩ := returns_jobOfExcept.1 hleaf
    obtain ⟨_, w₄, ha, h⟩ := returns_bind.1 h
    obtain ⟨entry, w₅, he, h⟩ := returns_bind.1 h
    obtain ⟨hoff, hord, rfl, rfl⟩ := returns_packEntry he
    obtain ⟨_, w₆, hb, h⟩ := returns_bind.1 h
    have hfc := files_check hc
    rw [← hfc] at hl hi
    obtain ⟨hl₁, hol⟩ := holding_append hl ha
    have hi₁ := (hol "index" (by decide)).trans hi
    obtain ⟨hi₂, hoi⟩ := holding_append hi₁ hb
    have hl₂ := (hoi "leaves" (by decide)).trans hl₁
    obtain ⟨⟨ls, hls, hfl⟩, hfi, hords, hoffs, hoth⟩ := leavesWritten_writeLeaves (by simpa using hf)
      (fun q hq => hfit q (by simp [hq])) hl₂ hi₂ h
    rw [KWay.counted]
    refine ⟨⟨leaf :: ls, List.mapM_cons_ok.2 ⟨leaf, ls, hleaf', hls, rfl⟩, ?_⟩, ?_, ?_, ?_, ?_⟩
    · rw [hfl, List.append_assoc]; rfl
    · rw [hfi, List.append_assoc]; rfl
    · intro q hq
      rcases List.mem_cons.1 hq with rfl | hq
      · exact hord
      · exact hords q hq
    · intro i hlt
      cases i with
      | zero => simpa [encodeRecords] using hoff
      | succ i =>
        have := hoffs i (by simpa using hlt)
        rw [List.take_succ_cons, List.map_cons, encodeRecords_cons, List.length_append,
          length_encodeRecord, ← Nat.add_assoc]
        exact this
    · intro n h1 h2
      rw [hoth n h1 h2, hoi n h2, hol n h1, hfc]

/-! ## The node file -/

/-- The records of `ns` stand in the file from slot `position` on. -/
def Layout (content : Bytes) (position : ℕ) (ns : List Digest) : Prop :=
  ∀ k (hk : k < ns.length), Bytes.slot 32 content (position + k) = ns[k].1

/-- Complete slots outside `[lo, hi)` are the same. -/
def KeptOutside (content content' : Bytes) (lo hi : ℕ) : Prop :=
  ∀ q, q < lo ∨ hi ≤ q → (Bytes.slot 32 content q).length = 32 →
    Bytes.slot 32 content' q = Bytes.slot 32 content q

theorem layout_cons {content : Bytes} {position : ℕ} {n : Digest} {ns : List Digest} :
    Layout content position (n :: ns) ↔
      Bytes.slot 32 content position = n.1 ∧ Layout content (position + 1) ns := by
  constructor
  · intro h
    refine ⟨h 0 (by simp), fun k hk => ?_⟩
    have := h (k + 1) (by simpa using hk)
    rwa [show position + (k + 1) = position + 1 + k by omega] at this
  · rintro ⟨h0, h⟩ k hk
    cases k with
    | zero => exact h0
    | succ k =>
      rw [show position + (k + 1) = position + 1 + k by omega]
      exact h k (by simpa using hk)

theorem layout_append {content : Bytes} {position : ℕ} {ns ns' : List Digest} :
    Layout content position (ns ++ ns') ↔
      Layout content position ns ∧ Layout content (position + ns.length) ns' := by
  induction ns generalizing position with
  | nil => simp [Layout]
  | cons n ns ih =>
    rw [List.cons_append, layout_cons, layout_cons, ih, and_assoc, List.length_cons,
      show position + 1 + ns.length = position + (ns.length + 1) by omega]

/-- A layout is kept by writes outside it. -/
theorem Layout.kept {content content' : Bytes} {position lo hi : ℕ} {ns : List Digest}
    (h : Layout content position ns) (hk : KeptOutside content content' lo hi)
    (hd : position + ns.length ≤ lo ∨ hi ≤ position) : Layout content' position ns := by
  intro k hlt
  rw [hk _ (by omega) (by rw [h k hlt]; exact ns[k].2), h k hlt]

theorem KeptOutside.trans {c c' c'' : Bytes} {lo hi lo' hi' : ℕ} (h : KeptOutside c c' lo hi)
    (h' : KeptOutside c' c'' lo' hi') {l u : ℕ} (hl : l ≤ lo) (hu : hi ≤ u) (hl' : l ≤ lo')
    (hu' : hi' ≤ u) : KeptOutside c c'' l u := by
  intro q hq hlen
  have h1 := h q (by omega) hlen
  rw [h' q (by omega) (by rw [h1]; exact hlen), h1]

/-- The two subtrees behind the root of a layout. -/
theorem layout_preorder {content : Bytes} {position : ℕ} {l : List Digest} (h : 2 ≤ l.length) :
    Layout content position (Merkle.preorder nodeHash l) ↔
      Bytes.slot 32 content position = (Merkle.mth nodeHash l).1 ∧
      Layout content (position + 1)
        (Merkle.preorder nodeHash (l.take (Merkle.split l.length))) ∧
      Layout content (position + 2 * Merkle.split l.length)
        (Merkle.preorder nodeHash (l.drop (Merkle.split l.length))) := by
  have hpos := Merkle.split_pos l.length
  have htl := Merkle.length_take_split h
  have hlen := Merkle.length_preorder nodeHash (l.take (Merkle.split l.length))
    (by rw [← List.length_pos_iff, htl]; exact hpos)
  rw [htl] at hlen
  rw [Merkle.preorder_split nodeHash h, layout_cons, layout_append, hlen,
    show position + 1 + (2 * Merkle.split l.length - 1) = position + 2 * Merkle.split l.length
      by omega]

/-- The root stands first in its layout. -/
theorem Layout.root {content : Bytes} {position : ℕ} {l : List Digest}
    (h : Layout content position (Merkle.preorder nodeHash l)) :
    Bytes.slot 32 content position = (Merkle.mth nodeHash l).1 := by
  obtain ⟨ns, hns⟩ := Merkle.preorder_head nodeHash l
  rw [hns] at h
  exact (layout_cons.1 h).1

theorem slot_digestFile {ds : List Digest} {i : ℕ} (hi : i < ds.length) :
    Bytes.readAt (digestFile ds) (i * 32) 32 = ds[i].1 :=
  Bytes.slot_flatMap (f := Subtype.val) (fun d : Digest => d.2) ds hi

/-- Writing a record to the node file. -/
theorem holding_writeNode {w w' : World} {u : Unit} {c : Bytes} {position : ℕ} {d : Digest}
    (hc : w.files.lookup "nodes" = some c)
    (h : Returns (writeFile "nodes" (position * 32) d.1) w u w') :
    ∃ c', Holding w.files w'.files "nodes" c' ∧ Bytes.slot 32 c' position = d.1 ∧
      KeptOutside c c' position (position + 1) := by
  obtain rfl := returns_modify.1 h
  refine ⟨Bytes.writeAt c (position * 32) d.1, ⟨?_, Files.only_insert _ _ _⟩,
    Bytes.slot_writeAt_self c d.2 position, fun q hq hlen => ?_⟩
  · simp [hc]
  · exact Bytes.slot_writeAt_ne d.2 (by omega) hlen

theorem computeNodeHash_digests (l r : Digest) :
    computeNodeHash (.bytes l.1) (.bytes r.1) = .ok (nodeHash l r) := by
  have h := decodeDigest_ofDigest
  simp only [HashValue.ofDigest] at h
  rw [computeNodeHash, h, h]
  rfl

/-- **The node file holds the tree in pre-order**, and the recursion returns
    its root. -/
theorem layout_buildNodes {ds : List Digest} : ∀ {fuel start size position : ℕ} {c : Bytes}
    {w w' : World} {r : Bytes}, 1 ≤ size → size ≤ fuel → start + size ≤ ds.length →
      w.files.lookup "nodes" = some c →
      Returns (buildNodes env budget (digestFile ds) fuel start size position) w r w' →
        ∃ l c', l = (ds.drop start).take size ∧ r = (Merkle.mth nodeHash l).1 ∧
          Holding w.files w'.files "nodes" c' ∧
          Layout c' position (Merkle.preorder nodeHash l) ∧
          KeptOutside c c' position (position + (2 * size - 1))
  | 0, start, size, position, c, w, w', r, h1, hf, _, _, _ => by omega
  | fuel + 1, start, size, position, c, w, w', r, h1, hf, hs, hc, h => by
    obtain ⟨_, w₁, hchk, h⟩ := returns_bind.1 h
    rw [← files_check hchk] at hc ⊢
    by_cases hsz : size = 1
    · subst hsz
      have hlt : start < ds.length := by omega
      rw [if_pos rfl, slot_digestFile hlt] at h
      obtain ⟨_, w₂, h2, h⟩ := returns_bind.1 h
      obtain ⟨rfl, rfl⟩ := returns_pure.1 h2
      obtain ⟨_, w₃, hw, h⟩ := returns_bind.1 h
      obtain ⟨rfl, rfl⟩ := returns_pure.1 h
      obtain ⟨c', hold, hself, hkeep⟩ := holding_writeNode hc hw
      have hl : (ds.drop start).take 1 = [ds[start]] := List.take_one_drop_eq_of_lt_length hlt
      refine ⟨[ds[start]], c', hl.symm, by rw [Merkle.mth_singleton], hold, ?_, hkeep⟩
      rw [Merkle.preorder_singleton, layout_cons]
      exact ⟨hself, fun k hk => by simp at hk⟩
    · have hn : 2 ≤ size := by omega
      have hslt := Merkle.split_lt hn
      have hpos := Merkle.split_pos size
      rw [if_neg hsz, largestPowerOfTwoLessThan_eq hn] at h
      obtain ⟨left, w₂, hleft, h⟩ := returns_bind.1 h
      obtain ⟨right, w₃, hright, h⟩ := returns_bind.1 h
      obtain ⟨l₁, c₁, hl₁, rfl, hold₁, hlay₁, hkeep₁⟩ :=
        layout_buildNodes hpos (by omega) (by omega) hc hleft
      obtain ⟨l₂, c₂, hl₂, rfl, hold₂, hlay₂, hkeep₂⟩ :=
        layout_buildNodes (by omega) (by omega) (by omega) hold₁.1 hright
      obtain ⟨node, w₄, hnode, h⟩ := returns_bind.1 h
      obtain ⟨hnode', rfl⟩ := returns_jobOfExcept.1 hnode
      rw [computeNodeHash_digests] at hnode'
      obtain rfl := Except.ok.inj hnode'
      obtain ⟨_, w₅, h2, h⟩ := returns_bind.1 h
      obtain ⟨rfl, rfl⟩ := returns_pure.1 h2
      obtain ⟨_, w₆, hw, h⟩ := returns_bind.1 h
      obtain ⟨rfl, rfl⟩ := returns_pure.1 h
      obtain ⟨c₃, hold₃, hself, hkeep₃⟩ := holding_writeNode hold₂.1 hw
      obtain ⟨l, hl⟩ : ∃ l, l = (ds.drop start).take size := ⟨_, rfl⟩
      have hlen : l.length = size := by rw [hl]; simp; omega
      have htake : l.take (Merkle.split l.length) = l₁ := by
        rw [hlen, hl, hl₁, List.take_take, min_eq_left hslt.le]
      have hdrop : l.drop (Merkle.split l.length) = l₂ := by
        rw [hlen, hl, hl₂, List.drop_take, List.drop_drop]
      have hlen₁ : l₁.length = Merkle.split size := by rw [hl₁]; simp; omega
      have hp₁ := Merkle.length_preorder nodeHash l₁ (by rw [← List.length_pos_iff]; omega)
      have hmth : Merkle.mth nodeHash l =
          nodeHash (Merkle.mth nodeHash l₁) (Merkle.mth nodeHash l₂) := by
        rw [Merkle.mth_split nodeHash (by omega), htake, hdrop]
      refine ⟨l, c₃, hl, by rw [hmth], (hold₁.trans hold₂).trans hold₃, ?_, ?_⟩
      · rw [layout_preorder (by omega), htake, hdrop, hlen, hmth]
        -- the right subtree lies behind the left one, the root before both
        refine ⟨hself, (hlay₁.kept hkeep₂ (Or.inl ?_)).kept hkeep₃ (Or.inr le_rfl),
          hlay₂.kept hkeep₃ (Or.inr (by omega))⟩
        rw [hp₁, hlen₁]; omega
      · exact (hkeep₁.trans hkeep₂ (le_refl (position + 1))
            (show position + 1 + (2 * Merkle.split size - 1) ≤ position + (2 * size - 1) by omega)
            (by omega) (by omega)).trans hkeep₃ (by omega) le_rfl le_rfl (by omega)

/-! ## The tree -/

/-- The files of a tree over numbered records with the leaf hashes `ls`. -/
structure DiskTree.Represents (files : Files) (tree : DiskTree) (ps : List (Record × ℕ))
    (ls : List Digest) : Prop where
  nonempty : ls ≠ []
  leaves : ps.mapM pairLeaf = .ok ls
  count : tree.count = ls.length
  root : tree.root = (Merkle.mth nodeHash ls).1
  rows : files.lookup "rows" = some (encodeRecords (ps.map Prod.fst))
  index : files.lookup "index" = some (indexFile 0 ps)
  ordinals : ∀ p ∈ ps, p.2 < 256 ^ 8
  offsets : ∀ i < ps.length, (encodeRecords ((ps.take i).map Prod.fst)).length < 256 ^ 8
  nodes : ∃ content, files.lookup "nodes" = some content ∧
    Layout content 0 (Merkle.preorder nodeHash ls)

theorem files_rename {source target : String} {w w' : World} {u : Unit} {content : Bytes}
    (hc : w.files.lookup source = some content) (h : Returns (rename source target) w u w') :
    w'.files = (w.files.erase source).insert target content := by
  replace h := returns_get_bind.1 h
  rw [hc] at h
  obtain rfl := returns_set.1 h
  rfl

/-- **The files of a returned tree** represent the sorted records of its run. -/
theorem represents_buildTree {run : String} {ps : List Record} {st : Reading}
    {schemaDigest : HashValue} {tree : DiskTree} {w w' : World}
    (hrf : RunFiles budget w.files [(run, ps)]) (hcount : st.count = ps.length) (hpos : ps ≠ [])
    (h : Returns (buildTree env budget run st schemaDigest) w tree w') :
    ∃ ls, tree.Represents w'.files (KWay.numbered ps) ls := by
  have hrun := hrf.content (run, ps) (by simp)
  have hmem := hrf.mem (r := (run, ps)) (by simp)
  have hsorted := hrf.sorted (run, ps) (by simp)
  have hfits := hrf.fits (run, ps) (by simp)
  obtain ⟨ordered, w₁, h1, h⟩ := returns_bind.1 h
  obtain ⟨ho, rfl⟩ := returns_openFile.1 h1
  obtain rfl := Option.some.inj (ho.symm.trans hrun)
  obtain ⟨_, w₁, h2, h⟩ := returns_bind.1 h
  obtain ⟨hnl, hf1⟩ := files_privateFile h2
  obtain ⟨_, w₂, h3, h⟩ := returns_bind.1 h
  obtain ⟨hni, hf2⟩ := files_privateFile h3
  have hrl : run ≠ "leaves" := fun e => hnl (e ▸ hmem)
  have hri : run ≠ "index" := by
    rintro rfl
    exact hni (by rw [hf1]; simp [hmem])
  -- the leaf and index files, in the order of the run
  obtain ⟨_, w₃, h4, h⟩ := returns_bind.1 h
  have hl0 : w₂.files.lookup "leaves" = some [] := by
    rw [hf2, AList.lookup_insert_ne (by decide), hf1, AList.lookup_insert]
  have hi0 : w₂.files.lookup "index" = some [] := by rw [hf2, AList.lookup_insert]
  have hr0 : w₂.files.lookup run = some (encodeRecords ps) := by
    rw [hf2, AList.lookup_insert_ne hri, hf1, AList.lookup_insert_ne hrl, hrun]
  have hfuel : ps.length < (encodeRecords ps).length := by
    have := mul_length_le ps
    have := List.length_pos_iff.2 hpos
    omega
  obtain ⟨⟨ls, hls, hl1⟩, hi1, hords, hoffs, hoth⟩ :=
    leavesWritten_writeLeaves hfuel hfits hl0 hi0 h4
  rw [KWay.counted_eq hsorted] at hls hi1 hords hoffs
  rw [List.nil_append] at hl1 hi1
  have hr1 := (hoth run hrl hri).trans hr0
  obtain ⟨_, w₄, h5, h⟩ := returns_bind.1 h
  have hf4 := files_rename hr1 h5
  obtain ⟨leaves, w₅, h6, h⟩ := returns_bind.1 h
  obtain ⟨hl2, rfl⟩ := returns_openFile.1 h6
  rw [hf4, AList.lookup_insert_ne (by decide), AList.lookup_erase_ne hrl.symm, hl1] at hl2
  obtain rfl := Option.some.inj hl2
  -- the node file
  obtain ⟨_, w₅, h7, h⟩ := returns_bind.1 h
  obtain ⟨-, hf5⟩ := files_privateFile h7
  obtain ⟨_, w₆, h8, h⟩ := returns_bind.1 h
  have hf6 := files_check h8
  obtain ⟨root, w₇, h9, h⟩ := returns_bind.1 h
  have hlen : ls.length = ps.length := by
    rw [List.mapM_ok_length hls, KWay.numbered, KWay.length_numberedFrom]
  have hps := List.length_pos_iff.2 hpos
  obtain ⟨l, c, hl, hroot, ⟨hn, hno⟩, hlay, -⟩ := layout_buildNodes (by omega) le_rfl (by omega)
    (by rw [hf6, hf5, AList.lookup_insert]) h9
  rw [hcount, ← hlen, List.drop_zero, List.take_length] at hl
  rw [hl] at hroot hlay
  obtain ⟨_, w₈, h10, h⟩ := returns_bind.1 h
  obtain ⟨rfl, rfl⟩ := returns_pure.1 h
  have hf8 := files_remove h10
  refine ⟨ls, ?_, hls, hcount.trans hlen.symm, hroot, ?_, ?_, hords, fun i hi => ?_, c, ?_, hlay⟩
  · rw [← List.length_pos_iff]; omega
  · rw [hf8, AList.lookup_erase_ne (by decide), hno _ (by decide), hf6, hf5,
      AList.lookup_insert_ne (by decide), hf4, AList.lookup_insert, KWay.numbered,
      KWay.numberedFrom_fst]
  · rw [hf8, AList.lookup_erase_ne (by decide), hno _ (by decide), hf6, hf5,
      AList.lookup_insert_ne (by decide), hf4, AList.lookup_insert_ne (by decide),
      AList.lookup_erase_ne hri.symm, hi1]
  · have := hoffs i hi
    rwa [Nat.zero_add] at this
  · rw [hf8, AList.lookup_erase_ne (by decide), hn]

/-- **What `build_disk_tree` returns** represents the sorted pairs of its rows. -/
theorem represents_buildDiskTree {givenBudget : Option WorkerBudget} {rows : List Bytes}
    {schemaDigest : HashValue} {tree : DiskTree} {w w' : World}
    (h : Returns (buildDiskTree env givenBudget rows schemaDigest) w tree w') :
    ∃ ps ls, sortedPairs schemaDigest rows = .ok ps ∧ ps.length = rows.length ∧
      ps.length ≤ maxTreeSize ∧ tree.Represents w'.files (KWay.numbered ps) ls := by
  obtain ⟨_, w₁, h1, h⟩ := returns_bind.1 h
  obtain ⟨-, rfl⟩ := returns_jobOfExcept.1 h1
  obtain ⟨_, w₂, h2, h⟩ := returns_bind.1 h
  have hread : ReadSoFar (givenBudget.getD {}) w₂ ⟨[], [], 0, 0, 0⟩ [] :=
    ⟨⟨[], rfl, RunFiles.nil _, List.Perm.refl _⟩, by simp, rfl, Nat.zero_le _⟩
  obtain ⟨st₁, w₃, h3, h⟩ := returns_bind.1 h
  obtain ⟨new, hnew, hread₁⟩ := readSoFar_readRows hread h3
  rw [List.nil_append] at hread₁
  obtain ⟨st, w₄, h4, h⟩ := returns_bind.1 h
  obtain ⟨⟨⟨rs, hruns, hrf, hperm⟩, -, hcount, hsize⟩, hbatch⟩ := readSoFar_spill hread₁ h4
  rw [hbatch, List.append_nil] at hperm
  rcases returns_ite.1 h with ⟨-, h⟩ | ⟨hpos, h⟩
  · exact absurd h returns_raise
  obtain ⟨runs, w₅, h5, h⟩ := returns_bind.1 h
  have hrs : rs ≠ [] := by
    rintro rfl
    have := hperm.length_eq
    simp [runRecords] at this
    omega
  rw [hruns] at h5
  obtain ⟨name, ps, rfl, hrf₁, hperm₁⟩ := runFiles_mergeRuns hrs (by simp) hrf h5
  have hps := hperm₁.trans hperm
  have hne : ps ≠ [] := by
    rw [← List.length_pos_iff, hps.length_eq]; omega
  obtain ⟨ls, hls⟩ := represents_buildTree hrf₁ (hcount.trans hps.length_eq.symm) hne h
  refine ⟨ps, ls, ?_, hps.length_eq.trans (List.mapM_ok_length hnew),
    by rw [hps.length_eq, ← hcount]; exact hsize, hls⟩
  rw [sortedPairs, hnew]
  -- both lists are the sorted permutation of the pairs
  have hsort : ps = new.insertionSort (· ≤ ·) :=
    (hps.trans (List.perm_insertionSort _ _).symm).eq_of_pairwise' (hrf₁.sorted (name, ps) (by simp))
      (List.pairwise_insertionSort _ _)
  rw [hsort]
  rfl

/-! ## Proofs from the files -/

/-- The text form of a sibling's hash. -/
def Sibling.text (s : Sibling) : Sibling :=
  match s.hash with
  | .bytes b => { s with hash := .text (encodeBase64url b) }
  | _ => s

/-- **The descent in the node file reads the inclusion path**, from the root. -/
theorem proofSiblings_eq (nodes : Bytes) (index : ℕ) : ∀ {fuel position start size : ℕ}
    {l : List Digest}, l.length = size → 1 ≤ size → size ≤ fuel → start ≤ index →
      index < start + size → Layout nodes position (Merkle.preorder nodeHash l) →
      proofSiblings nodes index fuel position start size =
        ((stepSiblings (Merkle.path nodeHash l (index - start))).map Sibling.text).reverse
  | 0, position, start, size, l, hlen, h1, hf, _, _, _ => by omega
  | fuel + 1, position, start, size, l, hlen, h1, hf, hi, hi', hlay => by
    by_cases hsz : size > 1
    · have hn : 2 ≤ l.length := by omega
      have hslt := Merkle.split_lt hn
      have hpos := Merkle.split_pos l.length
      obtain ⟨-, hleft, hright⟩ := (layout_preorder hn).1 hlay
      have htl := Merkle.length_take_split hn
      subst hlen
      rw [proofSiblings, if_pos hsz, largestPowerOfTwoLessThan_eq (by omega)]
      by_cases hs : index < start + Merkle.split l.length
      · have hread := hright.root
        rw [Bytes.slot] at hread
        rw [if_pos hs, hread, proofSiblings_eq nodes index htl hpos (by omega) hi hs hleft,
          Merkle.path_of_lt nodeHash hn (by omega)]
        simp [stepSiblings, Sibling.text, Sibling.mk', HashValue.ofDigest]
      · have hread := hleft.root
        rw [Bytes.slot] at hread
        rw [if_neg hs, hread, proofSiblings_eq nodes index (by simp) (by omega) (by omega) (by omega) (by omega)
            hright, Merkle.path_of_ge nodeHash hn (by omega),
          show index - start - Merkle.split l.length = index - (start + Merkle.split l.length)
            by omega]
        simp [stepSiblings, Sibling.text, Sibling.mk', HashValue.ofDigest]
    · rw [proofSiblings, if_neg hsz, Merkle.path, Merkle.sides_of_le (by omega)]
      rfl

/-- **`DiskTree.proof` is `build_inclusion_proof`** of the leaf list, with the
    digest and the ordinal of the pair at its index. -/
theorem DiskTree.Represents.proof {files : Files} {tree : DiskTree} {ps : List (Record × ℕ)}
    {ls : List Digest} (h : tree.Represents files ps ls) (hmax : ls.length ≤ maxTreeSize) {i : ℕ}
    (hi : i < ps.length) :
    ∃ proof, buildInclusionProof (ls.map HashValue.ofDigest) i = .ok proof ∧
      tree.proof files i = .ok {
        baseRowDigest := encodeBase64url ps[i].1.base.1
        duplicateOrdinal := ps[i].2
        leafIndex := i
        treeSize := ls.length
        siblings := proof.map Sibling.text } := by
  have hlen := List.mapM_ok_length h.leaves
  refine ⟨_, buildInclusionProof_eq (mapM_decodeDigest_ofDigest ls) (by simpa using hmax)
    (by simpa using (by omega : i < ls.length)), ?_⟩
  obtain ⟨nodes, hn, hlay⟩ := h.nodes
  have hsib := proofSiblings_eq nodes i rfl
    (List.length_pos_iff.2 h.nonempty) le_rfl (Nat.zero_le i) (by omega) hlay
  rw [DiskTree.proof, if_neg (by rw [h.count]; omega), hn, h.index]
  simp only [Int.toNat_natCast, h.count]
  have hslot := slot_indexFile 0 hi
  rw [Bytes.slot] at hslot
  rw [hslot, if_neg (by simp), hsib, List.reverse_reverse, Nat.sub_zero, indexEntry_base,
    indexEntry_ordinal, Bytes.toNat_ofNat_of_lt (h.ordinals _ (List.getElem_mem hi))]

/-- **The disk tree is the in-memory tree**: its count, its root and every
    proof read back from its files are those of the leaf list of the sorted,
    numbered pairs of the rows. -/
theorem disk_tree_is_memory_tree (env : Env) (givenBudget : Option WorkerBudget) (rows : List Bytes)
    (schemaDigest : HashValue) (tree : DiskTree) (w w' : World)
    (h : Returns (buildDiskTree env givenBudget rows schemaDigest) w tree w') :
    ∃ (leaves : List Digest) (root : Digest), leafList schemaDigest rows = .ok leaves ∧
      tree.count = rows.length ∧
      buildMerkleRoot (leaves.map HashValue.ofDigest) = .ok root ∧ tree.root = root.1 ∧
      ∀ i : ℕ, i < rows.length → ∃ proof diskProof,
        buildInclusionProof (leaves.map HashValue.ofDigest) i = .ok proof ∧
        tree.proof w'.files i = .ok diskProof ∧ diskProof.leafIndex = i ∧
        diskProof.siblings = proof.map Sibling.text := by
  obtain ⟨ps, ls, hps, hlen, hsize, hrep⟩ := represents_buildDiskTree h
  have hnum : (KWay.numbered ps).length = rows.length := by
    rw [KWay.numbered, KWay.length_numberedFrom, hlen]
  have hls : ls.length = rows.length := (List.mapM_ok_length hrep.leaves).trans hnum
  have hmax : ls.length ≤ maxTreeSize := by omega
  have hleaves : leafList schemaDigest rows = .ok ls := by
    rw [leafList, hps]; exact hrep.leaves
  have hroot : buildMerkleRoot (ls.map HashValue.ofDigest) = .ok (Merkle.mth nodeHash ls) :=
    buildMerkleRoot_eq (mapM_decodeDigest_ofDigest ls) (by simpa using hrep.nonempty)
      (by simpa using hmax)
  refine ⟨ls, _, hleaves, hrep.count.trans hls, hroot, hrep.root, fun i hi => ?_⟩
  obtain ⟨proof, h1, h2⟩ := hrep.proof hmax (by omega : i < (KWay.numbered ps).length)
  exact ⟨proof, _, h1, h2, rfl, rfl⟩

/-- A machine with a terabyte of free disk and nobody who cancels. -/
def Env.ample : Env := ⟨fun _ => 10 ^ 12, fun _ => false, fun n => 33 + n, 56⟩

/-- Five rows, two of them twice, each in a run of its own: two generations
    of merges. -/
theorem disk_tree_is_memory_tree_five :
    ∃ tree w', Returns (buildDiskTree .ample (some { runBytes := 200 })
        [[1, 2], [3], [1, 2], [9], [3]] (.bytes (.replicate 32 5))) ⟨∅, 0, 0, 0, 0⟩ tree w' ∧
      ∃ (leaves : List Digest) (root : Digest),
        leafList (.bytes (.replicate 32 5)) [[1, 2], [3], [1, 2], [9], [3]] = .ok leaves ∧
        tree.count = 5 ∧
        buildMerkleRoot (leaves.map HashValue.ofDigest) = .ok root ∧ tree.root = root.1 ∧
        ∀ i : ℕ, i < 5 → ∃ proof diskProof,
          buildInclusionProof (leaves.map HashValue.ofDigest) i = .ok proof ∧
          tree.proof w'.files i = .ok diskProof ∧ diskProof.leafIndex = i ∧
          diskProof.siblings = proof.map Sibling.text := by
  have hok : (exec (buildDiskTree .ample (some { runBytes := 200 })
      [[1, 2], [3], [1, 2], [9], [3]] (.bytes (.replicate 32 5))) ⟨∅, 0, 0, 0, 0⟩).1.isOk = true := by
    decide +kernel
  obtain ⟨tree, w', h⟩ := returns_of_isOk hok
  exact ⟨tree, w', h, disk_tree_is_memory_tree _ _ _ _ _ _ _ h⟩

end AimData
