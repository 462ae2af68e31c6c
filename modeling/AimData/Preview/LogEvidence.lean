/-
  `verify_log_evidence`, and what a chain of accepted calls shows of the log.

  Each call is anchored at the checkpoint that the call before it accepted.  The
  leaf lists behind the roots are then prefixes of one another, and every entry
  stays at its index, or SHA-256 strings of the evidence and the lists collide.
-/
import AimData.Merkle.Consistency
import AimData.Preview.Signing

namespace AimData

open Contract

/-! ## The verifier -/

def logLeafTag : Bytes := ascii "\x00aim-log-leaf-v1\x00"

/-- `compute_log_leaf_hash(canonical_log_entry_bytes(entry))` -/
def logLeafHash (entry : List (String × Json)) : Except Raised Digest := do
  return sha256 (logLeafTag ++ (← signingJsonBytes (.obj entry)))

section
variable (validateUrl : String → Bool)

def verifyLogEvidence (evidence checkpoint commitment : Json) (trustedPrevious : Option (ℤ × String)) :
    Except Raised Json := do
  let e ← closed transparencyLogEvidenceContract evidence
  let cp ← closed transparencyCheckpointContract checkpoint
  let c ← closed (datasetCommitmentContract validateUrl) commitment
  let entry := getObj (asObj e) "entry"
  let treeSize := getInt (asObj cp) "tree_size"
  let rootHash := getStr (asObj cp) "root_hash"
  if entry.any (fun f => f.1 ≠ "appended_at" ∧ f.1 ≠ "transparency_sequence" ∧
      f.2 ≠ get (asObj c) f.1) then refuseSigning "log_entry_mismatch"
  else do
    let leaf ← logLeafHash entry
    if verifyInclusionProof (.ofDigest leaf) (getInt entry "transparency_sequence" - 1) treeSize
        ((getList (asObj e) "inclusion_path").map siblingOf) (.text rootHash) = false then
      refuseSigning "log_inclusion_invalid"
    else match trustedPrevious with
      | none =>
        if get (asObj e) "previous_tree_size" ≠ .null then refuseSigning "log_predecessor_mismatch"
        else return e
      | some (size, root) =>
        if get (asObj e) "previous_tree_size" ≠ .int size ∨
            get (asObj e) "previous_root" ≠ .str root ∨ size > treeSize then
          refuseSigning "log_predecessor_mismatch"
        else if verifyConsistencyProof size treeSize (.text root) (.text rootHash)
            ((getList (asObj e) "consistency_path").map hashValue) = false then
          refuseSigning "log_consistency_invalid"
        else return e

/-! ## Calls -/

/-- The arguments of a call, without its predecessor. -/
structure LogCall where
  evidence : Json
  checkpoint : Json
  commitment : Json

namespace LogCall

variable (call : LogCall)

def evidenceDump : List (String × Json) :=
  asObj ((transparencyLogEvidenceContract call.evidence).getD .null)

def checkpointDump : List (String × Json) :=
  asObj ((transparencyCheckpointContract call.checkpoint).getD .null)

def entry : List (String × Json) := getObj call.evidenceDump "entry"
def treeSize : ℤ := getInt call.checkpointDump "tree_size"
def rootHash : String := getStr call.checkpointDump "root_hash"

/-- The index of the entry in the log. -/
def index : ℤ := getInt call.entry "transparency_sequence" - 1

def inclusionPath : List Sibling := (getList call.evidenceDump "inclusion_path").map siblingOf
def consistencyPath : List HashValue :=
  (getList call.evidenceDump "consistency_path").map hashValue

/-- What the next call trusts. -/
def trusted : ℤ × String := (call.treeSize, call.rootHash)

end LogCall

/-- **The chain**: every call succeeds, and trusts the checkpoint before it. -/
def AcceptedFrom : Option (ℤ × String) → List LogCall → Prop
  | _, [] => True
  | trustedPrevious, call :: calls =>
    (∃ e, verifyLogEvidence validateUrl call.evidence call.checkpoint call.commitment
      trustedPrevious = .ok e) ∧ AcceptedFrom (some call.trusted) calls

end

/-- What an accepted call has verified. -/
structure LogCall.Verified (call : LogCall) (trustedPrevious : Option (ℤ × String))
    (leaf : Digest) : Prop where
  entry : logLeafHash call.entry = .ok leaf
  inclusion : verifyInclusionProof (.ofDigest leaf) call.index call.treeSize call.inclusionPath
    (.text call.rootHash) = true
  consistency : ∀ size root, trustedPrevious = some (size, root) → size ≤ call.treeSize ∧
    verifyConsistencyProof size call.treeSize (.text root) (.text call.rootHash)
      call.consistencyPath = true

theorem verifyLogEvidence_ok {validateUrl : String → Bool} {call : LogCall}
    {trustedPrevious : Option (ℤ × String)} {e : Json}
    (h : verifyLogEvidence validateUrl call.evidence call.checkpoint call.commitment
      trustedPrevious = .ok e) : ∃ leaf, call.Verified trustedPrevious leaf := by
  unfold verifyLogEvidence at h
  obtain ⟨e', he, h⟩ := Except.bind_eq_ok.1 h
  obtain ⟨cp, hcp, h⟩ := Except.bind_eq_ok.1 h
  obtain ⟨c, -, h⟩ := Except.bind_eq_ok.1 h
  have hdump : call.evidenceDump = asObj e' := by
    rw [LogCall.evidenceDump, closed_ok he, Option.getD_some]
  have hcheckpoint : call.checkpointDump = asObj cp := by
    rw [LogCall.checkpointDump, closed_ok hcp, Option.getD_some]
  have hentry : call.entry = getObj (asObj e') "entry" := by rw [LogCall.entry, hdump]
  have hsize : call.treeSize = getInt (asObj cp) "tree_size" := by
    rw [LogCall.treeSize, hcheckpoint]
  have hroot : call.rootHash = getStr (asObj cp) "root_hash" := by
    rw [LogCall.rootHash, hcheckpoint]
  simp only at h
  split at h
  · cases h
  · obtain ⟨leaf, hleaf, h⟩ := Except.bind_eq_ok.1 h
    split at h
    · cases h
    · rename_i hinclusion
      refine ⟨leaf, hentry ▸ hleaf, ?_, ?_⟩
      · rw [LogCall.index, LogCall.inclusionPath, hentry, hsize, hroot, hdump]
        exact Bool.not_eq_false _ ▸ hinclusion
      · rintro size root rfl
        simp only at h
        split at h
        · cases h
        · rename_i hpredecessor
          split at h
          · cases h
          · rename_i hconsistency
            rw [LogCall.consistencyPath, hsize, hroot, hdump]
            refine ⟨?_, Bool.not_eq_false _ ▸ hconsistency⟩
            exact not_lt.1 fun hlt => hpredecessor (Or.inr (Or.inr hlt))

/-! ## Leaf lists -/

/-- The root of the accepted checkpoint is that of a leaf list of its size. -/
def RootOf (call : LogCall) (leaves : List Digest) : Prop :=
  (leaves.length : ℤ) = call.treeSize ∧
    ∃ root, buildMerkleRoot (leaves.map HashValue.ofDigest) = .ok root ∧
      decodeDigest (.text call.rootHash) = .ok root

/-- The entry of the call is in the list, at its own index. -/
def EntryAt (call : LogCall) (leaves : List Digest) : Prop :=
  ∃ leaf, logLeafHash call.entry = .ok leaf ∧ leaves[call.index.toNat]? = some leaf

/-- A call, and the leaf list behind the root that it accepts. -/
abbrev Link := LogCall × List Digest

/-- The byte strings hashed for a call and its list. -/
def callPreimages (p : Link) : List Bytes :=
  (match logLeafHash p.1.entry with
    | .ok leaf => proofPreimages (.ofDigest leaf) p.1.index p.1.treeSize p.1.inclusionPath
    | .error _ => []) ++ rootPreimages p.2

/-- The byte strings hashed between a call and the next. -/
def stepPreimages (p : Link) : Option Link → List Bytes
  | none => []
  | some q => consistencyPreimages p.2 q.2 (.text p.1.rootHash) q.1.consistencyPath

/-- The byte strings hashed for the evidence of a chain and its lists. -/
def chainPreimages : List Link → List Bytes
  | [] => []
  | p :: chain => callPreimages p ++ (stepPreimages p chain.head? ++ chainPreimages chain)

theorem RootOf.decode {call : LogCall} {leaves : List Digest} (h : RootOf call leaves) :
    decodeDigest (.text call.rootHash) = .ok (Merkle.mth nodeHash leaves) := by
  obtain ⟨-, root, hbuild, hroot⟩ := h
  obtain ⟨ds, hds, -, -, rfl⟩ := buildMerkleRoot_ok hbuild
  obtain rfl : leaves = ds := Except.ok.inj ((mapM_decodeDigest_ofDigest leaves).symm.trans hds)
  exact hroot

/-- The entry of an accepted call is at its index, or strings collide. -/
theorem entryAt_of_verified {p : Link} {trustedPrevious : Option (ℤ × String)} {leaf : Digest}
    (h : p.1.Verified trustedPrevious leaf) (hroot : RootOf p.1 p.2) :
    EntryAt p.1 p.2 ∨ HashCollision (callPreimages p) (callPreimages p) := by
  rcases verifyInclusionProof_binds h.inclusion hroot.1 hroot.decode with ⟨hi, hleaf⟩ | hcollision
  · left
    refine ⟨leaf, h.entry, ?_⟩
    rw [List.getElem?_eq_getElem hi, Except.ok.inj ((decodeDigest_ofDigest leaf).symm.trans hleaf)]
  · right
    refine hcollision.mono ?_ ?_
    · rw [callPreimages, h.entry]
      exact List.subset_append_left _ _
    · exact List.subset_append_right _ _

/-- The list behind the next accepted root begins with the list before, or strings
    collide. -/
theorem prefix_of_verified {p q : Link} {leaf : Digest}
    (h : q.1.Verified (some p.1.trusted) leaf) (hp : RootOf p.1 p.2) (hq : RootOf q.1 q.2) :
    p.2 <+: q.2 ∨ HashCollision (stepPreimages p (some q)) (stepPreimages p (some q)) := by
  obtain ⟨-, hproof⟩ := h.consistency p.1.treeSize p.1.rootHash rfl
  rw [← hp.1, ← hq.1] at hproof
  exact verifyConsistencyProof_binds hp.decode hq.decode hproof

theorem EntryAt.grown {call : LogCall} {l l' : List Digest} (h : EntryAt call l)
    (hstart : l <+: l') : EntryAt call l' := by
  obtain ⟨leaf, hleaf, hat⟩ := h
  obtain ⟨hi, hget⟩ := List.getElem?_eq_some_iff.1 hat
  refine ⟨leaf, hleaf, ?_⟩
  rw [List.getElem?_eq_getElem (hi.trans_le hstart.length_le), ← hstart.getElem hi, hget]

/-! ## Chains -/

/-- Sizes never decrease along a chain. -/
theorem acceptedFrom_sizes {validateUrl : String → Bool} : ∀ {calls : List LogCall}
    {trustedPrevious : Option (ℤ × String)}, AcceptedFrom validateUrl trustedPrevious calls →
    (calls.map LogCall.treeSize).Pairwise (· ≤ ·) ∧
      ∀ size root, trustedPrevious = some (size, root) → ∀ call ∈ calls, size ≤ call.treeSize
  | [], _, _ => ⟨.nil, fun _ _ _ _ hcall => absurd hcall List.not_mem_nil⟩
  | call :: calls, trustedPrevious, ⟨⟨e, he⟩, hrest⟩ => by
    obtain ⟨hsizes, hlater⟩ := acceptedFrom_sizes hrest
    obtain ⟨leaf, hverified⟩ := verifyLogEvidence_ok he
    have hnext : ∀ call' ∈ calls, call.treeSize ≤ call'.treeSize :=
      hlater call.treeSize call.rootHash rfl
    refine ⟨List.pairwise_cons.2 ⟨?_, hsizes⟩, ?_⟩
    · intro size hsize
      obtain ⟨call', hcall', rfl⟩ := List.mem_map.1 hsize
      exact hnext call' hcall'
    · intro size root htrusted call' hcall'
      have hsize := (hverified.consistency size root htrusted).1
      rcases List.mem_cons.1 hcall' with rfl | hcall'
      · exact hsize
      · exact hsize.trans (hnext call' hcall')

/-- The lists of a chain extend one another, and every entry is in its list. -/
def AppendOnly (chain : List Link) : Prop :=
  (chain.Pairwise fun p q => p.2 <+: q.2) ∧ ∀ p ∈ chain, EntryAt p.1 p.2

theorem AppendOnly.cons {p : Link} {chain : List Link} (h : AppendOnly chain)
    (hentry : EntryAt p.1 p.2) (hnext : ∀ q ∈ chain.head?, p.2 <+: q.2) :
    AppendOnly (p :: chain) := by
  refine ⟨List.pairwise_cons.2 ⟨?_, h.1⟩, ?_⟩
  · intro q hq
    cases chain with
    | nil => cases hq
    | cons r chain =>
      have hr : p.2 <+: r.2 := hnext r rfl
      rcases List.mem_cons.1 hq with rfl | hq
      · exact hr
      · exact hr.trans ((List.pairwise_cons.1 h.1).1 q hq)
  · intro q hq
    rcases List.mem_cons.1 hq with rfl | hq
    · exact hentry
    · exact h.2 q hq

theorem acceptedFrom_appendOnly {validateUrl : String → Bool} : ∀ {chain : List Link}
    {trustedPrevious : Option (ℤ × String)},
    AcceptedFrom validateUrl trustedPrevious (chain.map Prod.fst) →
    (∀ p ∈ chain, RootOf p.1 p.2) →
    AppendOnly chain ∨ HashCollision (chainPreimages chain) (chainPreimages chain)
  | [], _, _, _ => Or.inl ⟨.nil, fun _ hp => absurd hp List.not_mem_nil⟩
  | p :: chain, trustedPrevious, ⟨⟨e, he⟩, hrest⟩, hroots => by
    obtain ⟨leaf, hverified⟩ := verifyLogEvidence_ok he
    have hroot := hroots p List.mem_cons_self
    have hrests : ∀ q ∈ chain, RootOf q.1 q.2 := fun q hq => hroots q (List.mem_cons_of_mem _ hq)
    have hcall : callPreimages p ⊆ chainPreimages (p :: chain) := List.subset_append_left _ _
    have hstep : stepPreimages p chain.head? ⊆ chainPreimages (p :: chain) :=
      List.Subset.trans (List.subset_append_left _ _) (List.subset_append_right _ _)
    have hchain : chainPreimages chain ⊆ chainPreimages (p :: chain) :=
      List.Subset.trans (List.subset_append_right _ _) (List.subset_append_right _ _)
    rcases acceptedFrom_appendOnly hrest hrests with happend | hcollision
    · rcases entryAt_of_verified hverified hroot with hentry | hcollision
      · cases chain with
        | nil => exact Or.inl (happend.cons hentry fun q hq => by cases hq)
        | cons q chain =>
          obtain ⟨⟨e', he'⟩, -⟩ := hrest
          obtain ⟨leaf', hverified'⟩ := verifyLogEvidence_ok he'
          rcases prefix_of_verified hverified' hroot (hrests q List.mem_cons_self) with
            hstart | hcollision
          · refine Or.inl (happend.cons hentry ?_)
            rintro r hr
            cases hr
            exact hstart
          · exact Or.inr (hcollision.mono hstep hstep)
      · exact Or.inr (hcollision.mono hcall hcall)
    · exact Or.inr (hcollision.mono hchain hchain)

def zeroUuid : String := "00000000-0000-4000-8000-000000000000"
def zeroDigest : String := String.ofList (List.replicate 43 'A')
def zeroSignature : String := String.ofList (List.replicate 86 'A')

def firstFields : List (String × Json) :=
  [("aim_data_signer_reference", .str (zeroUuid ++ ":" ++ String.ofList (List.replicate 64 '0'))),
    ("canonicalization_profile", .str "aim-dataset-merkle-v1"), ("commitment_id", .str zeroUuid),
    ("dataset_merkle_root", .str zeroDigest), ("hash_algorithm", .str "sha-256"),
    ("leaf_count", .int 1), ("listing_id", .str zeroUuid), ("previous_commitment_id", .null),
    ("schema_digest", .str zeroDigest), ("seller_attestation_digest", .str zeroDigest),
    ("seller_dataset_version", .str "1"), ("seller_signature", .str zeroSignature),
    ("signature_algorithm", .str "ed25519"), ("signed_at", .str "2026-01-01T00:00:00.000000Z")]

def firstEntry : List (String × Json) :=
  ("appended_at", .str "2026-01-01T00:00:00.000000Z") :: ("transparency_sequence", .int 1) ::
    firstFields

def firstCall : LogCall where
  evidence := .obj [("entry", .obj firstEntry), ("inclusion_path", .arr []),
    ("consistency_path", .arr []), ("previous_tree_size", .null), ("previous_root", .null)]
  checkpoint := .obj [("log_id", .str "log"), ("tree_size", .int 1),
    ("root_hash", .str "H8mnL5iUS_GT7Du6BO0EMShi8Cbnp7322KDcbhtXkRQ"),
    ("checkpoint_at", .str "2026-01-01T00:00:00.000000Z"), ("key_id", .str "key"),
    ("public_key_algorithm", .str "ed25519"), ("signature", .str zeroSignature)]
  commitment := .obj (("proofs", .arr []) :: firstFields)

theorem accepted_firstCall : ∃ e, verifyLogEvidence (fun _ => true) firstCall.evidence
    firstCall.checkpoint firstCall.commitment none = .ok e :=
  Except.exists_of_isOk (by decide +kernel)

theorem treeSize_firstCall : firstCall.treeSize = 1 := by decide +kernel

theorem decode_firstCall : (decodeDigest (.text firstCall.rootHash)).isOk = true := by decide +kernel

theorem rootOf_firstCall : ∃ leaf, RootOf firstCall [leaf] := by
  obtain ⟨leaf, hroot⟩ := Except.exists_of_isOk decode_firstCall
  have hsize : ([leaf].map HashValue.ofDigest).length ≤ maxTreeSize := by
    rw [List.length_map, List.length_singleton, maxTreeSize]
    omega
  have hbuild := buildMerkleRoot_eq (mapM_decodeDigest_ofDigest [leaf]) (by simp) hsize
  rw [Merkle.mth_singleton] at hbuild
  refine ⟨leaf, ?_, leaf, hbuild, hroot⟩
  rw [treeSize_firstCall]
  rfl

end AimData
