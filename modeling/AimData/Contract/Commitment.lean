/-
  The closed models of dataset commitments, their proofs and the transparency
  log.  Every model is the list of its declared fields and its rules.
-/
import AimData.Contract.Field

namespace AimData.Contract

def safeMax : ℤ := safeInteger

/-- `PolicyError` and `CommitmentProof` admit an index below the tree size only. -/
def validPositions (d : List (String × Json)) : Bool :=
  getInt d "leaf_index" < getInt d "tree_size" ∧ getInt d "duplicate_ordinal" < getInt d "tree_size"

def proofSibling : Validator :=
  closedMetadata (closedModel
    [⟨"hash", digestTextField, none⟩, ⟨"direction", literalField ["left", "right"], none⟩]
    fun _ => true)

/-- The position fields of a proof. -/
def positionFields : List Field :=
  [⟨"duplicate_ordinal", intField 0 safeMax, none⟩, ⟨"leaf_index", intField 0 safeMax, none⟩,
    ⟨"tree_size", intField 1 safeMax, none⟩, ⟨"siblings", listField proofSibling 0 63, none⟩]

def commitmentProof : Validator :=
  closedMetadata (closedModel (⟨"base_row_digest", digestTextField, none⟩ :: positionFields)
    validPositions)

section
variable (validateUrl : String → Bool)

def previewProofFields : List Field :=
  ⟨"proof_id", uuidField, none⟩ :: ⟨"base_row_digest", digestField, none⟩ :: positionFields ++
  [⟨"preview_package_url", textWhere fun s => s.length ≤ 2048 && validateUrl s, none⟩,
    ⟨"package_media_type", literalField ["application/vnd.aim.preview+json"], none⟩,
    ⟨"package_profile", literalField ["aim-preview-package-v1", "aim-preview-package-v2"], none⟩,
    ⟨"package_byte_ceiling", intField 1 1048576, none⟩,
    ⟨"scan_policy", literalField ["aim-preview-policy-v1", "aim-preview-policy-v2"], none⟩,
    ⟨"scan_policy_version",
      patternField 1 80 fun c => alphanumeric c || c ∈ ['.', '_', '-'], none⟩,
    ⟨"scan_verdict", literalField ["passed"], none⟩,
    ⟨"scanned_at", timestampField, none⟩,
    ⟨"sampled_leaf_list_digest", digestField, none⟩,
    ⟨"signer_reference", signerReferenceField, none⟩,
    ⟨"signature_algorithm", literalField ["ed25519"], some (.str "ed25519")⟩,
    ⟨"signature", signatureField, none⟩]

/-- `positions` -/
def previewProofRules (d : List (String × Json)) : Bool :=
  (getStr d "scan_policy", getStr d "scan_policy_version") ∈
      [("aim-preview-policy-v1", "1.0.0"), ("aim-preview-policy-v2", "2.0.0")] ∧
    validPositions d ∧
    ¬ (getStr d "package_profile" = "aim-preview-package-v1" ∧ getInt d "package_byte_ceiling" > 131072)

def datasetPreviewProofContract : Validator :=
  wireModel (previewProofFields validateUrl) previewProofRules

/-- The fields that identify a commitment's dataset. -/
def datasetCommitmentFields : List Field :=
  [⟨"commitment_id", uuidField, none⟩,
    ⟨"listing_id", uuidField, none⟩,
    ⟨"seller_dataset_version", codeField, none⟩,
    ⟨"previous_commitment_id", optional uuidField, some .null⟩,
    ⟨"canonicalization_profile", literalField ["aim-dataset-merkle-v1"],
      some (.str "aim-dataset-merkle-v1")⟩,
    ⟨"hash_algorithm", literalField ["sha-256"], some (.str "sha-256")⟩,
    ⟨"schema_digest", digestField, none⟩,
    ⟨"dataset_merkle_root", digestField, none⟩,
    ⟨"leaf_count", intField 1 safeMax, none⟩,
    ⟨"seller_attestation_digest", digestField, none⟩,
    ⟨"aim_data_signer_reference", signerReferenceField, none⟩,
    ⟨"signature_algorithm", literalField ["ed25519"], some (.str "ed25519")⟩,
    ⟨"seller_signature", signatureField, none⟩,
    ⟨"signed_at", timestampField, none⟩,
    ⟨"proofs", listField (datasetPreviewProofContract validateUrl) 0 100, some (.arr [])⟩]

/-- `len(canonical_json_bytes(value)) <= size` -/
def canonicalSizeAtMost (v : Json) (size : ℕ) : Bool :=
  match canonicalJsonBytes v with
  | .ok b => b.length ≤ size
  | .error _ => false

/-- `matching_proofs` -/
def matchingProofs (d : List (String × Json)) : Bool :=
  let proofs := (getList d "proofs").map asObj
  (proofs.map fun p => get p "proof_id").Nodup ∧
    proofs.all (fun p => getInt p "tree_size" = getInt d "leaf_count") ∧
    (proofs.map fun p => get p "package_profile").dedup.length ≤ 1 ∧
    ¬ (proofs.head?.any (fun p => getStr p "package_profile" = "aim-preview-package-v1") ∧
      proofs.length > 50) ∧
    canonicalSizeAtMost (get d "proofs") 262144

def datasetCommitmentContract : Validator :=
  wireModel (datasetCommitmentFields validateUrl) matchingProofs

end

/-- The fields of a seller's attestation. -/
def attestationFields : List Field :=
  [⟨"listing_id", uuidField, none⟩,
    ⟨"seller_dataset_version", codeField, none⟩,
    ⟨"schema_digest", digestField, none⟩,
    ⟨"dataset_merkle_root", digestField, none⟩,
    ⟨"leaf_count", intField 1 safeMax, none⟩,
    ⟨"sample_hash", hexDigestField, none⟩,
    ⟨"rights_basis_digest", hexDigestField, none⟩,
    ⟨"public_preview_permission", trueField, none⟩,
    ⟨"metadata_accuracy_confirmed", trueField, none⟩,
    ⟨"signed_at", timestampField, none⟩]

def reattestationSellerAttestation : Validator := wireModel attestationFields fun _ => true

def datasetReattestationFields : List Field :=
  [⟨"commitment_id", uuidField, none⟩,
    ⟨"listing_id", uuidField, none⟩,
    ⟨"seller_dataset_version", codeField, none⟩,
    ⟨"schema_digest", digestField, none⟩,
    ⟨"dataset_merkle_root", digestField, none⟩,
    ⟨"leaf_count", intField 1 safeMax, none⟩,
    ⟨"seller_attestation", reattestationSellerAttestation, none⟩,
    ⟨"aim_data_signer_reference", signerReferenceField, none⟩,
    ⟨"signature_algorithm", literalField ["ed25519"], some (.str "ed25519")⟩,
    ⟨"seller_signature", signatureField, none⟩,
    ⟨"signed_at", timestampField, none⟩,
    ⟨"update_cadence_days", optional (intField 1 safeMax), some .null⟩]

/-- `attestation_matches_contract` -/
def attestationMatches (d : List (String × Json)) : Bool :=
  ["listing_id", "seller_dataset_version", "schema_digest", "dataset_merkle_root", "leaf_count",
    "signed_at"].all fun field => get (getObj d "seller_attestation") field = get d field

def datasetReattestationContract : Validator := wireModel datasetReattestationFields attestationMatches

/-! ## Transparency log -/

def transparencyCheckpointContract : Validator :=
  wireModel
    [⟨"log_id", patternField 1 120 fun c => alphanumeric c || c ∈ ['.', '_', ':', '-'], none⟩,
      ⟨"tree_size", intField 1 safeMax, none⟩,
      ⟨"root_hash", digestField, none⟩,
      ⟨"checkpoint_at", timestampField, none⟩,
      ⟨"key_id", codeField, none⟩,
      ⟨"public_key_algorithm", literalField ["ed25519"], some (.str "ed25519")⟩,
      ⟨"signature", signatureField, none⟩]
    fun _ => true

def transparencyLogEntryFields : List Field :=
  [⟨"aim_data_signer_reference", signerReferenceField, none⟩,
    ⟨"appended_at", timestampField, none⟩,
    ⟨"canonicalization_profile", literalField ["aim-dataset-merkle-v1"], none⟩,
    ⟨"commitment_id", uuidField, none⟩,
    ⟨"dataset_merkle_root", digestField, none⟩,
    ⟨"hash_algorithm", literalField ["sha-256"], none⟩,
    ⟨"leaf_count", intField 1 safeMax, none⟩,
    ⟨"listing_id", uuidField, none⟩,
    ⟨"previous_commitment_id", optional uuidField, none⟩,
    ⟨"schema_digest", digestField, none⟩,
    ⟨"seller_attestation_digest", digestField, none⟩,
    ⟨"seller_dataset_version", codeField, none⟩,
    ⟨"seller_signature", signatureField, none⟩,
    ⟨"signature_algorithm", literalField ["ed25519"], none⟩,
    ⟨"signed_at", timestampField, none⟩,
    ⟨"transparency_sequence", intField 1 safeMax, none⟩]

def transparencyLogEntryContract : Validator :=
  wireModel transparencyLogEntryFields fun _ => true

/-- `predecessor` -/
def predecessorRules (d : List (String × Json)) : Bool :=
  (get d "previous_tree_size" = .null ↔ get d "previous_root" = .null) ∧
    (get d "previous_tree_size" = .null → getList d "consistency_path" = [])

def transparencyLogEvidenceContract : Validator :=
  wireModel
    [⟨"entry", transparencyLogEntryContract, none⟩,
      ⟨"inclusion_path", listField proofSibling 0 63, none⟩,
      ⟨"consistency_path", listField digestField 0 63, none⟩,
      ⟨"previous_tree_size", optional (intField 1 safeMax), none⟩,
      ⟨"previous_root", optional digestField, none⟩]
    predecessorRules

/-! ## Dumps of dicts -/

@[simp] theorem keepsDicts_sibling : KeepsDicts proofSibling :=
  keepsDicts_closed (keepsDicts_model (by decide) (by simp [KeepsFields]))

@[simp] theorem keepsDicts_previewProof (validateUrl : String → Bool) :
    KeepsDicts (datasetPreviewProofContract validateUrl) :=
  keepsDicts_wire (by simp [previewProofFields, positionFields])
    (by simp [KeepsFields, previewProofFields, positionFields, Dicts])

@[simp] theorem keepsDicts_commitment (validateUrl : String → Bool) :
    KeepsDicts (datasetCommitmentContract validateUrl) :=
  keepsDicts_wire (by simp [datasetCommitmentFields])
    (by simp [KeepsFields, datasetCommitmentFields, Dicts, DictsList])

@[simp] theorem makesDicts_sibling : MakesDicts proofSibling :=
  makesDicts_closed (makesDicts_model (by decide) (by simp [MakesFields]))

@[simp] theorem makesDicts_previewProof (validateUrl : String → Bool) :
    MakesDicts (datasetPreviewProofContract validateUrl) :=
  makesDicts_wire (by simp [previewProofFields, positionFields])
    (by simp [MakesFields, previewProofFields, positionFields, Dicts])

@[simp] theorem makesDicts_commitment (validateUrl : String → Bool) :
    MakesDicts (datasetCommitmentContract validateUrl) :=
  makesDicts_wire (by simp [datasetCommitmentFields])
    (by simp [MakesFields, datasetCommitmentFields, Dicts, DictsList])

theorem keepsDicts_reattestation : KeepsDicts datasetReattestationContract := by
  have hattestation : KeepsDicts reattestationSellerAttestation :=
    keepsDicts_wire (by decide) (by simp [KeepsFields, attestationFields])
  exact keepsDicts_wire (by decide)
    (by simp [KeepsFields, datasetReattestationFields, Dicts, hattestation])

end AimData.Contract
