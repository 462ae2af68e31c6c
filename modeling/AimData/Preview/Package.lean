/-
  `CommitmentPreviewBuilder`: entries read back from the files of a disk tree,
  and the packages made of them.

  A package is what `validate_envelope` encoded; so it decodes to the envelope
  that was packed (`package_round_trip`), and it is one that the publication
  store takes (`prepare_package`).
-/
import AimData.Merkle.DiskTree
import AimData.Preview.Envelope

namespace AimData

open Contract

/-! ## The budget of the manifest -/

def mediaType : String := "application/vnd.aim.preview+json"
def policyName : String := "aim-preview-policy-v2"
def policyVersion : String := "2.0.0"

/-- A text of one character repeated. -/
def repeated (n : ℕ) (c : Char) : Json := .str (String.ofList (List.replicate n c))

/-- Fields with one value. -/
def allFields (keys : List String) (v : Json) : List (String × Json) := keys.map fun k => (k, v)

def fixtureIdentifier : String := "00000000-0000-0000-0000-000000000001"
def fixtureTimestamp : Json := .str "2026-09-17T12:00:00.000000Z"
def fixtureSigner : Json := .str (fixtureIdentifier ++ ":" ++ String.ofList (List.replicate 64 'a'))

/-- `proofs` of the fixture. -/
def fixtureProof (packageUrl : String) (entry : List (String × Json)) : Json :=
  .obj (entry.filter (fun p => p.1 ≠ "row") ++
    [("preview_package_url", .str packageUrl), ("package_media_type", .str mediaType),
      ("package_profile", .str packageProfile), ("package_byte_ceiling", .int 1048576),
      ("scan_policy", .str policyName), ("scan_policy_version", .str policyVersion),
      ("scan_verdict", .str "passed"), ("scanned_at", fixtureTimestamp),
      ("sampled_leaf_list_digest", repeated 43 'A'), ("signer_reference", fixtureSigner),
      ("signature_algorithm", .str "ed25519"), ("signature", repeated 86 'A')])

/-- `commitment` of the fixture without its proofs. -/
def fixtureCommitment : List (String × Json) :=
  [("commitment_id", .str fixtureIdentifier), ("listing_id", repeated 255 'x'),
    ("seller_dataset_version", repeated 255 'x'), ("schema_digest", repeated 43 'A'),
    ("dataset_merkle_root", repeated 43 'A'), ("leaf_count", .int safeInteger),
    ("canonicalization_profile", .str "aim-dataset-merkle-v1"), ("hash_algorithm", .str "sha256"),
    ("seller_attestation_digest", repeated 43 'A'), ("aim_data_signer_reference", fixtureSigner),
    ("signature_algorithm", .str "ed25519"), ("seller_signature", repeated 86 'A'),
    ("signed_at", fixtureTimestamp)]

/-- `binding` of the fixture. -/
def fixtureBinding (descriptors names proofIds : List Json) : List (String × Json) :=
  allFields ["listing_id", "seller_id", "approved_by", "listing_version_id", "content_revision",
      "source_revision", "summary_approval_id", "summary_id", "seller_dataset_version"]
    (repeated 255 'x') ++
  allFields ["request_id", "expected_current_disclosure_id", "disclosure_version",
      "supersedes_disclosure_version", "commitment_id"] (.str fixtureIdentifier) ++
  allFields ["sample_hash", "aggregate_hash", "summary_hash", "render_hash", "rights_basis_digest",
      "scan_attestation_digest"] (repeated 64 'a') ++
  [("profile", .str "aim-preview-disclosure-v1"), ("action", .str "approve"),
    ("sample_decision", .str "approved"), ("package_profile", .str packageProfile),
    ("preview_type", .str "table"), ("content_type", .str "tabular"),
    ("schema_digest", repeated 43 'A'), ("schema_descriptors", .arr descriptors),
    ("selected_fields", .arr names), ("proof_ids", .arr proofIds),
    ("sampled_leaf_list_digest", repeated 43 'A'), ("rights_basis_code", .str "other_authorized"),
    ("public_preview_permission", .bool true), ("approved_at", fixtureTimestamp),
    ("last_attested_by_seller_at", fixtureTimestamp), ("update_cadence_days", .int safeInteger),
    ("approval_expires_at", fixtureTimestamp), ("signer_reference", fixtureSigner),
    ("signature_algorithm", .str "ed25519"),
    ("signature_profile", .str "aim-preview-disclosure-signature-v1")]

/-- `checkpoint` of the fixture. -/
def fixtureCheckpoint : Json :=
  .obj [("log_id", repeated 120 'x'), ("tree_size", .int safeInteger),
    ("root_hash", repeated 43 'A'), ("checkpoint_at", fixtureTimestamp),
    ("key_id", repeated 255 'x'), ("public_key_algorithm", .str "ed25519"),
    ("signature", repeated 86 'A')]

/-- `log_evidence` of the fixture. -/
def fixtureEvidence : Json :=
  .obj [("entry", .obj (fixtureCommitment ++ [("appended_at", fixtureTimestamp),
      ("previous_commitment_id", .str fixtureIdentifier),
      ("transparency_sequence", .int safeInteger)])),
    ("inclusion_path", .arr (List.replicate 63
      (.obj [("hash", repeated 43 'A'), ("direction", .str "right")]))),
    ("consistency_path", .arr (List.replicate 63 (repeated 43 'A'))),
    ("previous_tree_size", .int safeInteger), ("previous_root", repeated 43 'A')]

/-- `platform_envelope` of the fixture. -/
def fixturePlatform (binding : List (String × Json)) : Json :=
  .obj [("profile", .str "aim-preview-platform-envelope-v1"), ("key_id", repeated 255 'x'),
    ("signature_algorithm", .str "ed25519"), ("binding", .obj binding),
    ("seller_signature", repeated 86 'A'),
    ("signer_keys", .arr (List.replicate 4
      (.obj [("key_id", .str fixtureIdentifier), ("algorithm", .str "ed25519"),
        ("public_key", repeated 43 'A'), ("status", .str "active"),
        ("valid_from", fixtureTimestamp), ("valid_until", fixtureTimestamp),
        ("fingerprint", repeated 64 'a')]))),
    ("signature", repeated 86 'A')]

/-- The names, and the columns, of a schema. -/
def schemaColumns : Fields → List Json
  | .nil => []
  | .cons name type _ rest =>
    .obj [("name", .str name), ("type", .str type.tag)] :: schemaColumns rest

/-- The value whose size `expected_manifest_fixture` measures. -/
def manifestFixture (entries : List Json) (fields : Fields) (packageUrl : String) : Json :=
  let proofs := entries.map fun e => fixtureProof packageUrl (asObj e)
  let names := fields.names.map Json.str
  let binding := fixtureBinding fields.descriptors names (proofs.map fun p => get (asObj p) "proof_id")
  .obj ([("profile", .str "aim-listing-preview-v1"), ("package_profile", .str packageProfile)] ++
    ["listing_id", "listing_version_id", "content_revision", "source_revision",
      "summary_approval_id", "summary_hash", "render_hash", "disclosure_version", "sample_hash",
      "aggregate_hash"].map (fun k => (k, get binding k)) ++
    [("approval_status", .str "approved"), ("preview_type", .str "table"),
      ("content_type", .str "tabular"), ("columns", .arr (schemaColumns fields)),
      ("selected_fields", .arr names),
      ("commitment", .obj (("profile", .str "aim-dataset-merkle-v1") :: fixtureCommitment ++
        [("proofs", .arr proofs)])),
      ("schema_descriptors", .arr fields.descriptors), ("proofs", .arr proofs),
      ("checkpoint", fixtureCheckpoint), ("log_evidence", fixtureEvidence),
      ("approval", .obj [("platform_envelope", fixturePlatform binding)]),
      ("package", .obj [("url", .str packageUrl), ("media_type", .str mediaType),
        ("byte_ceiling", .int 1048576)]),
      ("last_attested_by_seller_at", fixtureTimestamp), ("stale", .bool false),
      ("freshness_stale_at", fixtureTimestamp), ("freshness_expires_at", fixtureTimestamp),
      ("generated_at", fixtureTimestamp), ("valid_until", fixtureTimestamp),
      ("limits", .obj (caps.map fun p => (p.1, .int p.2)))])

/-- `expected_manifest_fixture`; `validateUrl` raises for a refused address. -/
def expectedManifestFixture (validateUrl : String → Except Raised Unit) (entries : List Json)
    (fields : Fields) (packageUrl : String) : Except Raised Bytes := do
  validateUrl packageUrl
  commitmentErrors (canonicalJsonBytes (manifestFixture entries fields packageUrl))

/-! ## The scan of a selection -/

/-- `raise PolicyError(code)` -/
def refusePolicy {α : Type} (code : String) : Except Raised α := raise "PolicyError" code

mutual
/-- `walk`: the nodes counted so far, and with the value's. -/
def walk : Json → ℕ → ℕ → Except Raised ℕ
  | v, depth, nodes =>
    if nodes + 1 > 10000 then refusePolicy "nodes_limit"
    else if depth > 16 then refusePolicy "depth_limit"
    else match v with
      | .obj l => walkFields l (depth + 1) (nodes + 1)
      | .arr l => walkList l (depth + 1) (nodes + 1)
      | _ => .ok (nodes + 1)

def walkList : List Json → ℕ → ℕ → Except Raised ℕ
  | [], _, nodes => .ok nodes
  | v :: l, depth, nodes => do walkList l depth (← walk v depth nodes)

def walkFields : List (String × Json) → ℕ → ℕ → Except Raised ℕ
  | [], _, nodes => .ok nodes
  | (_, v) :: l, depth, nodes => do walkFields l depth (← walk v depth nodes)
end

/-- `walk_selection`, all of it. -/
def walkSelection (rows : List Json) : Except Raised ℕ :=
  if 1 ≤ rows.length ∧ rows.length ≤ 100 then
    rows.foldlM (fun nodes row =>
      match row with
      | .obj _ => walk row 0 nodes
      | _ => refusePolicy "invalid_row") 0
  else refusePolicy "invalid_selection"

/-- `sampled_leaf_list_digest` -/
def sampledLeafListDigestOf (entries : List Json) : Except Raised String := do
  let leaves ← entries.mapM fun e => commitmentErrors
    (computeLeafHash (hashValue (get (asObj e) "base_row_digest")) (getInt (asObj e) "duplicate_ordinal"))
  let bytes ← commitmentErrors
    (canonicalJsonBytes (.arr (leaves.map fun d => .str (encodeBase64url d.1))))
  return encodeBase64url (sha256 (ascii "aim-preview-sampled-leaves-v1\x00" ++ bytes)).1

/-- What the seller confirms. -/
structure Consent where
  rightsConfirmed : Bool
  publicPreviewPermission : Bool
  restrictedContentConfirmed : Bool

def scanSelection (rows entries : List Json) (scannedAt : String) (consent : Consent) :
    Except Raised Json :=
  if consent.rightsConfirmed ∧ consent.publicPreviewPermission ∧
      consent.restrictedContentConfirmed ∧ rows.length = entries.length then do
    let _ ← walkSelection rows
    match canonicalRfc3339Utc scannedAt with
    | none => raise "ValueError" "checkpoint timestamp must be UTC RFC3339"
    | some at_ => do
      let digest ← sampledLeafListDigestOf entries
      return .obj [("scan_policy", .str policyName), ("scan_policy_version", .str policyVersion),
        ("scan_verdict", .str "passed"), ("scanned_at", .str at_),
        ("sampled_leaf_list_digest", .str digest)]
  else refusePolicy "approval_required"

/-! ## The builder -/

/-- A tree on disk, and the schema of its rows. -/
structure CommitmentPreviewBuilder where
  tree : DiskTree
  files : Files
  schema : CanonicalSchema
  schemaDigest : tree.schemaDigest = .ofDigest schema.digest

/-- `CommitmentPreviewBuilder(tree, descriptors)` -/
def commitmentPreviewBuilder (nfc : String → String) (tree : DiskTree) (files : Files)
    (descriptors : Json) : Except Raised CommitmentPreviewBuilder := do
  let schema ← commitmentErrors (canonicalSchema nfc descriptors)
  if h : tree.schemaDigest = .ofDigest schema.digest then return ⟨tree, files, schema, h⟩
  else refuseEnvelope "schema_mismatch"

/-- A sibling of a proof as JSON. -/
def siblingJson (s : Sibling) : Json :=
  .obj [("hash", match s.hash with
      | .text t => .str t
      | _ => .null),
    ("direction", match s.direction with
      | some d => .str d
      | none => .null)]

/-- An entry of the row and its proof. -/
def entryFields (row : Json) (proof : DiskProof) : List (String × Json) :=
  [("row", row), ("base_row_digest", .str proof.baseRowDigest),
    ("duplicate_ordinal", .int proof.duplicateOrdinal), ("leaf_index", .int proof.leafIndex),
    ("tree_size", .int proof.treeSize), ("siblings", .arr (proof.siblings.map siblingJson))]

/-- An error of reading the files of a tree. -/
def faultErrors {α : Type} : Except Fault α → Except Raised α
  | .ok a => .ok a
  | .error (.refused e) => raise "CommitmentValidationError" e.code
  | .error .struct => raise "struct.error" "unpack requires a buffer of 56 bytes"
  | .error _ => raise "OSError" "No such file or directory"

/-- The errors of `_entry`: those of values, keys and files are an invalid index. -/
def indexErrors {α : Type} : Except Raised α → Except Raised α
  | .ok a => .ok a
  | .error e => if e.type ∈ ["TypeError", "OverflowError"] then .error e else refuseEnvelope "invalid_index"

def openTreeFile (files : Files) (name : String) : Except Raised Bytes :=
  match files.lookup name with
  | some content => .ok content
  | none => raise "OSError" "No such file or directory"

/-- `seek` to an offset. -/
def seekable (offset : ℕ) : Except Raised Unit :=
  if offset < 2 ^ 63 then .ok () else raise "OverflowError" "Python int too large to convert to C long"

namespace CommitmentPreviewBuilder

section
variable (nfc : String → String) (validateUrl : String → Except Raised Unit)

/-- The body of `_entry`. -/
def entryBody (builder : CommitmentPreviewBuilder) (index : ℤ) :
    Except Raised (List (String × Json)) := do
  let proof ← faultErrors (builder.tree.proof builder.files index)
  let entries ← openTreeFile builder.files "index"
  let packed := Bytes.readAt entries (index.toNat * 56) 56
  if packed.length ≠ 56 then raise "struct.error" "unpack requires a buffer of 56 bytes"
  else do
    let offset := Bytes.toNat (packed.take 8)
    let length := Bytes.toNat ((packed.drop 8).take 4)
    let base := (packed.drop 20).take 32
    if length > 8 * 1024 ^ 2 then refuseEnvelope "invalid_index"
    else do
      let rows ← openTreeFile builder.files "rows"
      seekable offset
      let header := Bytes.readAt rows offset 36
      let rowBytes := Bytes.readAt rows (offset + 36) length
      if header ≠ base ++ Bytes.ofNat length 4 ∨ rowBytes.length ≠ length then
        refuseEnvelope "invalid_index"
      else do
        let digest ← commitmentErrors
          (computeBaseRowDigest (.ofDigest builder.schema.digest) rowBytes)
        if digest.1 ≠ base then refuseEnvelope "invalid_index"
        else do
          let row ← logicalRecord (← jsonLoads rowBytes) builder.schema.descriptors
          let again ← commitmentErrors
            (builder.schema.canonicalRow nfc false none (PyValue.ofJson row))
          if again ≠ rowBytes then refuseEnvelope "invalid_index"
          else return entryFields row proof

/-- `_entry` -/
def entry (builder : CommitmentPreviewBuilder) (index : ℤ) :
    Except Raised (List (String × Json)) :=
  indexErrors (entryBody nfc builder index)

/-- A selection of leaves with the identities of their proofs. -/
def selection (indices proofIds : List Json) : Except Raised (List (ℤ × Json)) :=
  match indices.mapM (fun v => match v with
    | .int i => some i
    | _ => none) with
  | some is =>
    if is = [] ∨ is ≠ is.dedup.insertionSort (· ≤ ·) ∨ is.length ≠ proofIds.length then
      refuseEnvelope "invalid_selection"
    else .ok (is.zip proofIds)
  | none => refuseEnvelope "invalid_selection"

/-- The envelope of a selection. -/
def envelope (builder : CommitmentPreviewBuilder) (indices proofIds : List Json)
    (commitmentId disclosureVersion : Json) : Except Raised Json := do
  let selected ← selection indices proofIds
  limit "rows" selected.length
  let entries ← selected.mapM fun (i, pid) => do
    return Json.obj (("proof_id", pid) :: (← entry nfc builder i))
  let digest ← sampleHashOf entries
  return .obj [("package_profile", .str packageProfile), ("commitment_id", commitmentId),
    ("schema_digest", .str (encodeBase64url builder.schema.digest.1)),
    ("disclosure_version", disclosureVersion), ("sample_hash", .str digest),
    ("entries", .arr entries)]

/-- The logical rows of a scan. -/
def scanRows (builder : CommitmentPreviewBuilder) (entries : List Json) :
    Except Raised (List Json) :=
  entries.mapM fun e => do
    let rowBytes ← commitmentErrors
      (builder.schema.canonicalRow nfc false none (PyValue.ofJson (get (asObj e) "row")))
    logicalRecord (← jsonLoads rowBytes) builder.schema.descriptors

/-- What `prepare` returns. -/
structure Prepared where
  payload : Bytes
  scan : Json

/-- An error of the package checks as it leaves `prepare`. -/
def ofPackageError {α : Type} : Except PackageError α → Except Raised α
  | .ok a => .ok a
  | .error e => refuseEnvelope e.code

/-- `prepare` -/
def prepare (builder : CommitmentPreviewBuilder) (indices proofIds : List Json)
    (commitmentId disclosureVersion : Json) (scannedAt : String) (consent : Consent)
    (manifestBytes : ℤ) (packageUrl : String) : Except Raised Prepared := do
  let envelope ← builder.envelope nfc indices proofIds commitmentId disclosureVersion
  let entries := getList (asObj envelope) "entries"
  let payload ← ofPackageError
    (validateEnvelope nfc envelope builder.schema (.bytes builder.tree.root) manifestBytes)
  let fixture ← expectedManifestFixture validateUrl entries builder.schema.descriptors packageUrl
  limit "manifest_bytes" fixture.length
  let rows ← builder.scanRows nfc entries
  let scan ← scanSelection rows entries scannedAt consent
  return ⟨payload, scan⟩

end

end CommitmentPreviewBuilder

end AimData
