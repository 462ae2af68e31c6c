/-
  The closed models of preview disclosures: the binding that the seller signs
  and the request that carries it, with the digests they agree on.
-/
import AimData.Contract.Commitment
import AimData.Merkle.Inclusion
import AimData.Preview.Publication

namespace AimData.Contract

/-- Equality of two values, whatever the order of their keys. -/
def sameValue (v w : Json) : Bool :=
  match normalize v, normalize w with
  | .ok a, .ok b => a = b
  | _, _ => false

def isNull (v : Json) : Bool := v = .null

/-! ## Digests of a sample -/

/-- A `hash` or `direction` of a sibling, as the verifier reads it. -/
def hashValue : Json → HashValue
  | .str s => .text s
  | _ => .other

def siblingOf (v : Json) : Sibling :=
  ⟨hashValue (get (asObj v) "hash"), match get (asObj v) "direction" with
    | .str s => some s
    | _ => none⟩

/-- `compute_leaf_hash(p["base_row_digest"], p["duplicate_ordinal"])` -/
def leafHashOf (p : List (String × Json)) : Option Digest :=
  (computeLeafHash (hashValue (get p "base_row_digest")) (getInt p "duplicate_ordinal")).toOption

/-- `canonical_json_bytes`, its failure folded into the caller's. -/
def jsonBytes (v : Json) : Option Bytes := (canonicalJsonBytes v).toOption

def sampleValue (p : List (String × Json)) : Option Json := do
  let digest ← (decodeDigest (hashValue (get p "base_row_digest"))).toOption
  if canonicalUuid (getStr p "proof_id") then
    return .arr [get p "proof_id", .str (hex digest.1), get p "duplicate_ordinal", get p "leaf_index"]
  else none

def sampleHash (entries : List (List (String × Json))) : Option String := do
  let values ← entries.mapM sampleValue
  let bytes ← jsonBytes (.arr values)
  return hex (sha256 (ascii "aim-approved-sample-v1\x00" ++ bytes)).1

def sampledLeafListDigest (proofs : List (List (String × Json))) : Option String := do
  let leaves ← proofs.mapM leafHashOf
  let bytes ← jsonBytes (.arr (leaves.map fun d => .str (encodeBase64url d.1)))
  return encodeBase64url (sha256 (ascii "aim-preview-sampled-leaves-v1\x00" ++ bytes)).1

/-- The keys of a signed proof record. -/
def scanKeys : List String :=
  ["proof_id", "base_row_digest", "duplicate_ordinal", "leaf_index", "tree_size", "siblings",
    "preview_package_url", "package_media_type", "package_profile", "package_byte_ceiling",
    "scan_policy", "scan_policy_version", "scan_verdict", "scanned_at", "sampled_leaf_list_digest",
    "signer_reference", "signature_algorithm", "signature"]

/-- `shared_fields` -/
def sharedFields : List String :=
  ["preview_package_url", "package_media_type", "package_profile", "package_byte_ceiling",
    "scan_policy", "scan_policy_version", "scan_verdict", "scanned_at", "sampled_leaf_list_digest",
    "signer_reference", "signature_algorithm"]

def positionKeys : List String :=
  ["base_row_digest", "duplicate_ordinal", "leaf_index", "tree_size", "siblings"]

section
variable (nfc : String → String) (validateUrl : String → Bool)

/-- The checks of `scan_attestation_digest` on one record. -/
def signedRecord (p : List (String × Json)) : Bool :=
  keysAre p scanKeys && (signatureField (get p "signature")).isSome &&
  canonicalUuid (getStr p "proof_id") &&
  (commitmentProof (.obj (positionKeys.map fun k => (k, get p k)))).isSome &&
  validateUrl (getStr p "preview_package_url") &&
  get p "package_media_type" = .str "application/vnd.aim.preview+json" &&
  get p "package_profile" = .str "aim-preview-package-v2" &&
  (intField 1 1048576 (get p "package_byte_ceiling")).isSome &&
  (getStr p "scan_policy", getStr p "scan_policy_version") ∈
    [("aim-preview-policy-v1", "1.0.0"), ("aim-preview-policy-v2", "2.0.0")] &&
  get p "scan_verdict" = .str "passed" && get p "signature_algorithm" = .str "ed25519" &&
  timestampField (get p "scanned_at") = some (get p "scanned_at") &&
  canonicalUuid (String.ofList ((getStr p "signer_reference").toList.take 36)) &&
  (signerReferenceField (get p "signer_reference")).isSome

def scanAttestationDigest (records : List (List (String × Json))) : Option String :=
  match records with
  | [] => none
  | first :: rest =>
    if records.all (signedRecord validateUrl) &&
        rest.all (fun p => sharedFields.all fun k => get p k = get first k) then do
      let digest ← sampledLeafListDigest records
      if records.all (fun p => get p "sampled_leaf_list_digest" = .str digest) then do
        let bytes ← jsonBytes (.arr (records.map .obj))
        return hex (sha256 (ascii "aim-preview-scan-attestation-v1\x00" ++ bytes)).1
      else none
    else none

def sellerAttestation : Validator := wireModel attestationFields fun _ => true

/-- `seller_attestation_digest` -/
def sellerAttestationDigest (attestation : List (String × Json)) : Option String := do
  let v ← sellerAttestation (.obj attestation)
  let bytes ← jsonBytes v
  return encodeBase64url (sha256 (ascii "aim-dataset-seller-attestation-v1\x00" ++ bytes)).1

/-! ## The disclosure binding -/

def bindingFields : List Field :=
  [⟨"profile", literalField ["aim-preview-disclosure-v1"], none⟩,
    ⟨"decision", literalField ["approve", "withdraw"], none⟩,
    ⟨"summary_id", uuidField, none⟩,
    ⟨"disclosure_version", uuidField, none⟩,
    ⟨"seller_id", uuidField, none⟩,
    ⟨"listing_id", uuidField, none⟩,
    ⟨"listing_version_id", optional uuidField, none⟩,
    ⟨"content_revision", uuidField, none⟩,
    ⟨"source_revision", hexDigestField, none⟩,
    ⟨"summary_approval_id", uuidField, none⟩,
    ⟨"summary_hash", hexDigestField, none⟩,
    ⟨"render_hash", hexDigestField, none⟩,
    ⟨"selected_fields", listField (textWhere fun s => 1 ≤ s.length ∧ s.length ≤ 255) 0 25, none⟩,
    ⟨"preview_type", optional (literalField ["table"]), none⟩,
    ⟨"content_type", optional (literalField ["tabular"]), none⟩,
    ⟨"sample_decision", literalField ["none", "approved"], none⟩,
    ⟨"sample_hash", optional hexDigestField, none⟩,
    ⟨"aggregate_hash", hexDigestField, none⟩,
    ⟨"aggregate_hash_profile",
      optional (literalField ["aim-approved-aggregates-v1", "aim-approved-aggregates-v2"]),
      some .null⟩,
    ⟨"commitment_id", optional uuidField, none⟩,
    ⟨"schema_digest", optional digestField, none⟩,
    ⟨"seller_dataset_version", optional codeField, none⟩,
    ⟨"schema_descriptors", anyList 500, none⟩,
    ⟨"proof_ids", listField uuidField 0 100, none⟩,
    ⟨"sampled_leaf_list_digest", optional digestField, none⟩,
    ⟨"scan_attestation_digest", optional hexDigestField, none⟩,
    ⟨"rights_basis_digest", optional hexDigestField, none⟩,
    ⟨"rights_basis_code",
      optional (literalField ["owner", "licensed", "public_domain", "other_authorized"]), none⟩,
    ⟨"public_preview_permission", optional boolField, none⟩,
    ⟨"approved_by", uuidField, none⟩,
    ⟨"approved_at", timestampField, none⟩,
    ⟨"last_attested_by_seller_at", timestampField, none⟩,
    ⟨"update_cadence_days", optional (intField 1 safeMax), none⟩,
    ⟨"approval_expires_at", optional timestampField, none⟩,
    ⟨"supersedes", optional uuidField, none⟩,
    ⟨"request_id", uuidField, none⟩,
    ⟨"expected_current_disclosure_id", optional uuidField, none⟩,
    ⟨"signer_reference", signerReferenceField, none⟩,
    ⟨"signature_algorithm", literalField ["ed25519"], none⟩,
    ⟨"signature_profile", literalField ["aim-preview-disclosure-signature-v1"], none⟩]

/-- `grant` -/
def grantKeys : List String :=
  ["sample_hash", "commitment_id", "schema_digest", "seller_dataset_version",
    "sampled_leaf_list_digest", "scan_attestation_digest", "rights_basis_digest",
    "rights_basis_code", "public_preview_permission", "preview_type", "content_type"]

/-- The descriptors of an approved sample. -/
def descriptorRules (b : List (String × Json)) : Bool :=
  match canonicalSchema nfc (get b "schema_descriptors") with
  | .error _ => false
  | .ok schema =>
    !schema.descriptors.hasBinary &&
    sameValue (.arr schema.descriptors.descriptors) (get b "schema_descriptors") &&
    schema.descriptors.names.length ≤ 25 &&
    get b "schema_digest" = .str (encodeBase64url schema.digest.1) &&
    (getList b "selected_fields").Nodup &&
    (getList b "selected_fields").all (fun f =>
      match f with
      | .str s => s ∈ schema.descriptors.names && nfc s = s
      | _ => false) &&
    (getList b "proof_ids").Nodup

def bindingRules (b : List (String × Json)) : Bool :=
  get b "supersedes" = get b "expected_current_disclosure_id" &&
  get b "disclosure_version" ≠ get b "supersedes" &&
  !(get b "decision" = .str "withdraw" &&
    (get b "sample_decision" ≠ .str "none" || get b "supersedes" = .null)) &&
  if get b "sample_decision" = .str "none" then
    grantKeys.all (fun k => isNull (get b k)) && getList b "proof_ids" = [] &&
    getList b "schema_descriptors" = [] && getList b "selected_fields" = []
  else
    grantKeys.all (fun k => !isNull (get b k)) && get b "public_preview_permission" = .bool true &&
    getList b "proof_ids" ≠ [] && getList b "selected_fields" ≠ [] && descriptorRules nfc b

/-- `preserve_legacy_aggregate_hash_wire` -/
def dropLegacyProfile (b : List (String × Json)) : List (String × Json) :=
  if get b "aggregate_hash_profile" = .null then b.filter fun p => p.1 ≠ "aggregate_hash_profile"
  else b

def disclosureBinding : Validator := fun v =>
  (wireModel bindingFields (bindingRules nfc) v).map fun w => .obj (dropLegacyProfile (asObj w))

/-! ## The disclosure request -/

/-- `package_keys` -/
def packageKeys : List String :=
  ["preview_package_url", "package_media_type", "package_profile", "package_byte_ceiling",
    "scan_policy", "scan_policy_version", "scanned_at", "scan_verdict", "signer_reference"]

/-- `raw_package_identity` -/
def rawPackageIdentity : Json → Bool
  | .obj value =>
    match value.lookup "proofs" with
    | some (.arr (first :: rest)) =>
      !(decide (rest ≠ []) &&
        (first :: rest).all (fun p => match p with
          | .obj p => packageKeys.all (· ∈ p.map Prod.fst)
          | _ => false) &&
        rest.any fun p => packageKeys.any fun k => get (asObj p) k ≠ get (asObj first) k)
    | _ => true
  | _ => true

def requestFields : List Field :=
  [⟨"profile", literalField ["aim-preview-disclosure-v1"], none⟩,
    ⟨"summary_id", uuidField, none⟩,
    ⟨"binding", disclosureBinding nfc, none⟩,
    ⟨"seller_signature", signatureField, none⟩,
    ⟨"commitment", optional (datasetCommitmentContract validateUrl), none⟩,
    ⟨"proofs", listField (datasetPreviewProofContract validateUrl) 0 100, none⟩]

/-- The attestation that a request's commitment digests. -/
def attestationOf (b c : List (String × Json)) : List (String × Json) :=
  (["listing_id", "seller_dataset_version", "schema_digest", "dataset_merkle_root", "leaf_count",
    "signed_at"].map fun k => (k, get c k)) ++
  [("sample_hash", get b "sample_hash"), ("rights_basis_digest", get b "rights_basis_digest"),
    ("public_preview_permission", get b "public_preview_permission"),
    ("metadata_accuracy_confirmed", .bool true)]

/-- `verify_inclusion_proof` of a proof record under a root. -/
def recordIncluded (root : Json) (p : List (String × Json)) : Bool :=
  match leafHashOf p with
  | some leaf => verifyInclusionProof (.ofDigest leaf) (getInt p "leaf_index") (getInt p "tree_size")
      ((getList p "siblings").map siblingOf) (hashValue root)
  | none => false

/-- `agreement` of an approved sample with its commitment. -/
def sampleAgreement (b c : List (String × Json)) (proofs : List (List (String × Json))) : Bool :=
  let sampled := sampledLeafListDigest proofs
  sameValue (.arr (proofs.map .obj)) (get c "proofs") &&
  ["listing_id", "commitment_id", "schema_digest", "seller_dataset_version"].all
    (fun k => get b k = get c k) &&
  get c "aim_data_signer_reference" = get b "signer_reference" &&
  proofs.map (fun p => get p "proof_id") = getList b "proof_ids" &&
  proofs.all (fun p => get p "package_profile" = .str "aim-preview-package-v2" &&
    get p "signer_reference" = get b "signer_reference") &&
  (proofs.map fun p => packageKeys.map (get p)).dedup.length = 1 &&
  (proofs.map fun p => get p "leaf_index").Nodup &&
  sampled.isSome &&
  proofs.all (fun p => some (get p "sampled_leaf_list_digest") = sampled.map .str) &&
  some (get b "sample_hash") = (sampleHash proofs).map .str &&
  some (get b "sampled_leaf_list_digest") = sampled.map .str &&
  some (get b "scan_attestation_digest") = (scanAttestationDigest validateUrl proofs).map .str &&
  some (get c "seller_attestation_digest") = (sellerAttestationDigest (attestationOf b c)).map .str &&
  proofs.all (fun p => ¬ getStr c "signed_at" < getStr p "scanned_at") &&
  ¬ getStr b "approved_at" < getStr c "signed_at" &&
  ¬ getStr b "approved_at" < getStr b "last_attested_by_seller_at" &&
  proofs.all (recordIncluded (get c "dataset_merkle_root"))

/-- `agreement` -/
def requestRules (r : List (String × Json)) : Bool :=
  let b := getObj r "binding"
  let proofs := (getList r "proofs").map asObj
  get b "summary_id" = get r "summary_id" &&
  (if get b "sample_decision" = .str "none" then get r "commitment" = .null && getList r "proofs" = []
   else get r "commitment" ≠ .null && getList r "proofs" ≠ [] &&
    sampleAgreement validateUrl b (getObj r "commitment") proofs) &&
  canonicalSizeAtMost (.obj r) 262144

def previewDisclosureRequest : Validator := fun v =>
  if rawPackageIdentity v then wireModel (requestFields nfc validateUrl) (requestRules validateUrl) v
  else none

end

/-! ## Dumps of dicts -/

theorem dictsFields_filter {p : String × Json → Bool} : ∀ {l : List (String × Json)},
    DictsFields l → DictsFields (l.filter p)
  | [], _ => trivial
  | f :: l, h => by
    rw [List.filter_cons]
    split
    · exact ⟨h.1, dictsFields_filter h.2⟩
    · exact dictsFields_filter h.2

theorem dicts_filter {p : String × Json → Bool} {l : List (String × Json)} (h : Dicts (.obj l)) :
    Dicts (.obj (l.filter p)) :=
  ⟨(List.filter_sublist.map Prod.fst).nodup h.1, dictsFields_filter h.2⟩

theorem keepsDicts_binding (nfc : String → String) : KeepsDicts (disclosureBinding nfc) := by
  intro j w hj h
  obtain ⟨v, hv, rfl⟩ := Option.map_eq_some_iff.1 h
  have hkeeps : KeepsDicts (wireModel bindingFields (bindingRules nfc)) :=
    keepsDicts_wire (by simp [bindingFields]) (by simp [KeepsFields, bindingFields, Dicts])
  obtain ⟨r, rfl, -⟩ := wireModel_keys hv
  have hr : Dicts (.obj r) := hkeeps hj hv
  rw [dropLegacyProfile]
  split_ifs
  · exact dicts_filter hr
  · exact hr

end AimData.Contract
