/-
  The signing service of the install, `construct_request`, and the candidate
  that withdraws a publication.

  The keystore is a parameter: what it answers for the reference of its key,
  for a signature and for the check of one.
-/
import AimData.Preview.Lifecycle
import AimData.Preview.Package

namespace AimData

open Contract

/-! ## The signing service -/

/-- `PreviewSigningService`, and what its keystore answers. -/
structure Signer where
  sellerId : String
  /-- `signer_reference` -/
  reference : Except Raised String
  sign : Bytes → Except Raised Bytes
  /-- `verify_bytes` under the public key. -/
  verify : Bytes → Json → Except Raised Bool

/-- `_sign` -/
def Signer.signBytes (signer : Signer) (preimage : Bytes) (reference : Json) :
    Except Raised Json := do
  if reference ≠ .str (← signer.reference) then refuseSigning "signer_reference_mismatch"
  else return .str (encodeBase64url (← signer.sign preimage))

/-- `value[key] = …` -/
def withField (key : String) (field value : Json) : Json :=
  .obj (Json.setField key field (asObj value))

/-- `dict(value, **changes)` -/
def withFields (changes value : List (String × Json)) : List (String × Json) :=
  changes.foldl (fun d p => Json.setField p.1 p.2 d) value

section
variable (nfc : String → String) (validateUrl : String → Bool)

def signProof (signer : Signer) (context proof : Json) : Except Raised Json := do
  let p ← closed (datasetPreviewProofContract validateUrl) proof
  let bytes ← proofBytes validateUrl context p
  return withField "signature" (← signer.signBytes bytes (get (asObj p) "signer_reference")) p

/-- The check of a proof's signature. -/
def checkProofSignature (signer : Signer) (context p : Json) : Except Raised Unit := do
  let bytes ← proofBytes validateUrl context p
  if ¬ (← signer.verify bytes (get (asObj p) "signature")) then
    refuseSigning "proof_signature_invalid"
  else return ()

def signCommitment (signer : Signer) (commitment : Json) : Except Raised Json := do
  let c ← closed (datasetCommitmentContract validateUrl) commitment
  let reference := get (asObj c) "aim_data_signer_reference"
  (getList (asObj c) "proofs").forM fun p =>
    if get (asObj p) "signer_reference" ≠ reference then refuseSigning "proof_signature_invalid"
    else checkProofSignature validateUrl signer c p
  let bytes ← commitmentBytes validateUrl c
  return withField "seller_signature" (← signer.signBytes bytes reference) c

def signDisclosure (signer : Signer) (binding : Json) : Except Raised Json := do
  let b ← closed (disclosureBinding nfc) binding
  if get (asObj b) "seller_id" ≠ .str signer.sellerId then
    refuseSigning "registration_owner_mismatch"
  else signer.signBytes (← disclosureBytes nfc b) (get (asObj b) "signer_reference")

/-! ## The budget of the manifest -/

/-- The fixture with the seller's placeholders replaced. -/
def signedManifest (r fixture : List (String × Json)) : Json :=
  let approval := getObj fixture "approval"
  let platform := withFields
    [("binding", get r "binding"), ("seller_signature", get r "seller_signature")]
    (getObj approval "platform_envelope")
  .obj (withFields
    [("commitment", get r "commitment"), ("proofs", get r "proofs"),
      ("approval", withField "platform_envelope" (.obj platform) (.obj approval))] fixture)

def manifestBudget (request : Json) : Except Raised ℕ := do
  let r ← closed (previewDisclosureRequest nfc validateUrl) request
  let proofs := getList (asObj r) "proofs"
  if get (asObj r) "commitment" = .null then
    return (← requestBytes nfc validateUrl r).length
  else match canonicalSchema nfc (get (getObj (asObj r) "binding") "schema_descriptors") with
    | .error _ => raise "TypeError" "schema_descriptors"
    | .ok schema => do
      let bytes ← expectedManifestFixture
        (fun url => if validateUrl url then .ok () else raise "OriginError" "invalid_url")
        proofs schema.descriptors (getStr (asObj (proofs.headD .null)) "preview_package_url")
      let fixture ← loadJson bytes
      let size := (← signingJsonBytes (signedManifest (asObj r) (asObj fixture))).length
      if 262144 < size then refuseSigning "manifest_limit" else return size

/-! ## `construct_request` -/

/-- `fields` -/
def p1Fields : List String :=
  ["summary_id", "summary_approval_id", "summary_hash", "render_hash", "aggregate_hash",
    "content_revision", "source_revision", "listing_id", "listing_version_id"]

/-- `value[key]` -/
def atKey (value : List (String × Json)) (key : String) : Except Raised Json :=
  match value.lookup key with
  | some v => .ok v
  | none => raise "KeyError" key

/-- `{key: allocated[key] for key in …}` -/
def p1Of (allocated : List (String × Json)) : Except Raised (List (String × Json)) :=
  p1Fields.mapM fun key => do return (key, ← atKey allocated key)

/-- `encode_base64url(bytes(64))` -/
def dummySignature : Json := .str (encodeBase64url (List.replicate 64 0))

/-- The request of a binding, before it is signed. -/
def unsignedRequest (b : List (String × Json)) (commitment : Json) (proofs : List Json) : Json :=
  .obj [("profile", get b "profile"), ("summary_id", get b "summary_id"), ("binding", .obj b),
    ("seller_signature", dummySignature), ("commitment", commitment), ("proofs", .arr proofs)]

/-- The signatures of the commitment and the proofs of a request. -/
def checkRequestSignatures (signer : Signer) (request : List (String × Json)) :
    Except Raised Unit :=
  let c := get request "commitment"
  if c = .null then .ok ()
  else do
    let bytes ← commitmentBytes validateUrl c
    if ¬ (← signer.verify bytes (get (asObj c) "seller_signature")) then
      refuseSigning "commitment_signature_invalid"
    else (getList request "proofs").forM (checkProofSignature validateUrl signer c)

def constructRequest (candidate : LocalCandidate) (commitment : Json) (proofs : List Json)
    (signer : Signer) (approvedP1 : List (String × Json)) : Except Raised Json := do
  let b ← candidate.binding nfc
  if ¬ (Lifecycle.sameKeys approvedP1 p1Fields ∧
      p1Fields.all fun key => get approvedP1 key = get b key) then
    refuseSigning "p1_reference_mismatch"
  else do
    let request ← closed (previewDisclosureRequest nfc validateUrl)
      (unsignedRequest b commitment proofs)
    checkRequestSignatures validateUrl signer (asObj request)
    let signed := withField "seller_signature" (← signDisclosure nfc signer (.obj b)) request
    let _ ← manifestBudget nfc validateUrl signed
    closed (previewDisclosureRequest nfc validateUrl) signed

/-! ## Withdrawals -/

/-- `GRANT_NULLS` -/
def grantNulls : List String :=
  ["sample_hash", "commitment_id", "schema_digest", "seller_dataset_version",
    "sampled_leaf_list_digest", "scan_attestation_digest", "rights_basis_digest",
    "rights_basis_code", "public_preview_permission", "preview_type", "content_type"]

/-- `_inherit_aggregate_hash_profile` -/
def inheritAggregateHashProfile (candidate prior : List (String × Json)) : List (String × Json) :=
  match prior.lookup "aggregate_hash_profile" with
  | some profile => Json.setField "aggregate_hash_profile" profile candidate
  | none => candidate.filter fun p => p.1 ≠ "aggregate_hash_profile"

/-- What `withdrawal_candidate` makes of the binding of a publication. -/
def withdrawalOf (old : List (String × Json)) (disclosureVersion requestId approvedAt : String) :
    List (String × Json) :=
  let b := withFields
    [("decision", .str "withdraw"), ("sample_decision", .str "none"),
      ("disclosure_version", .str disclosureVersion), ("request_id", .str requestId),
      ("approved_at", .str approvedAt), ("supersedes", get old "disclosure_version"),
      ("expected_current_disclosure_id", get old "disclosure_version")] old
  withFields (grantNulls.map (fun key => (key, .null)) ++
    [("proof_ids", .arr []), ("schema_descriptors", .arr []), ("selected_fields", .arr [])])
    (inheritAggregateHashProfile b old)

def withdrawalCandidate (prior : Json) (disclosureVersion requestId approvedAt : String) :
    Except Raised LocalCandidate := do
  let old ← closed (disclosureBinding nfc) prior
  LocalCandidate.validate nfc
    (.obj (withdrawalOf (asObj old) disclosureVersion requestId approvedAt))

end

end AimData
