/-
  What the install key signs for previews: the closed serializer and the
  preimages of commitments, proofs, reattestations and disclosures, and the
  immutable candidate that a seller signs.
-/
import AimData.Contract.Disclosure

namespace AimData

open Contract

/-! ## The closed serializer -/

/-- `raise SigningError(code)` -/
def refuseSigning {α : Type} (code : String) : Except Raised α := raise "SigningError" code

def closed (model : Validator) (value : Json) : Except Raised Json :=
  match model value with
  | some dump => .ok dump
  | none => refuseSigning "contract_mismatch"

theorem closed_ok {model : Validator} {value dump : Json} (h : closed model value = .ok dump) :
    model value = some dump := by
  unfold closed at h
  split at h
  · rename_i d hd
    cases h
    exact hd
  · cases h

/-- `canonical_json_bytes` among the errors of signing. -/
def signingJsonBytes (value : Json) : Except Raised Bytes :=
  match canonicalJsonBytes value with
  | .ok b => .ok b
  | .error e => raise "CommitmentValidationError" e.code

def serialize (model : Validator) (value : Json) : Except Raised Bytes := do
  let dump ← closed model value
  signingJsonBytes dump

/-- `value.pop(key)` -/
def pop (key : String) (value : Json) : List (String × Json) :=
  (asObj value).filter fun p => p.1 ≠ key

/-! ## Preimages -/

section
variable (nfc : String → String) (validateUrl : String → Bool)

def proofTag : Bytes := ascii "aim-preview-proof-signature-v1\x00"
def commitmentTag : Bytes := ascii "aim-dataset-commitment-signature-v1\x00"
def reattestationTag : Bytes := ascii "aim-dataset-reattestation-signature-v1\x00"
def disclosureTag : Bytes := ascii "aim-preview-disclosure-signature-v1\x00"

/-- The fields of a commitment that a proof's signature covers. -/
def contextKeys : List String :=
  ["commitment_id", "listing_id", "seller_dataset_version", "schema_digest", "dataset_merkle_root"]

/-- What `proof_bytes` signs. -/
def proofContent (context proof : Json) : Except Raised Json := do
  let p ← closed (datasetPreviewProofContract validateUrl) proof
  let c ← closed (datasetCommitmentContract validateUrl) context
  return .obj (contextKeys.map (fun k => (k, get (asObj c) k)) ++ [("proof", .obj (pop "signature" p))])

def proofBytes (context proof : Json) : Except Raised Bytes := do
  let bytes ← signingJsonBytes (← proofContent validateUrl context proof)
  return proofTag ++ bytes

/-- What `commitment_bytes` signs. -/
def commitmentContent (commitment : Json) : Except Raised Json := do
  let c ← closed (datasetCommitmentContract validateUrl) commitment
  return .obj (pop "seller_signature" c)

def commitmentBytes (commitment : Json) : Except Raised Bytes := do
  let bytes ← signingJsonBytes (← commitmentContent validateUrl commitment)
  return commitmentTag ++ bytes

/-- What `reattestation_bytes` signs. -/
def reattestationContent (reattestation : Json) : Except Raised Json := do
  let v ← closed datasetReattestationContract reattestation
  return .obj (pop "seller_signature" v)

def reattestationBytes (reattestation : Json) : Except Raised Bytes := do
  let bytes ← signingJsonBytes (← reattestationContent reattestation)
  return reattestationTag ++ bytes

def disclosureBytes (binding : Json) : Except Raised Bytes := do
  let bytes ← serialize (disclosureBinding nfc) binding
  return disclosureTag ++ bytes

/-! ## Candidates and requests -/

structure LocalCandidate where
  bindingBytes : Bytes
  kind : String
  deriving DecidableEq, Repr

/-- `LocalCandidate.validate` -/
def LocalCandidate.validate (binding : Json) : Except Raised LocalCandidate := do
  let bytes ← serialize (disclosureBinding nfc) binding
  return ⟨bytes, "marketplace_candidate"⟩

/-- `json.loads`, its failure among the errors of signing. -/
def loadJson (raw : Bytes) : Except Raised Json :=
  match loads raw with
  | some v => .ok v
  | none => raise "JSONDecodeError" "Expecting value"

/-- `LocalCandidate.binding` -/
def LocalCandidate.binding (candidate : LocalCandidate) : Except Raised (List (String × Json)) := do
  if candidate.kind ≠ "marketplace_candidate" then refuseSigning "candidate_invalid"
  else do
    let data ← closed (disclosureBinding nfc) (← loadJson candidate.bindingBytes)
    let again ← serialize (disclosureBinding nfc) data
    if again ≠ candidate.bindingBytes then refuseSigning "candidate_changed"
    else return asObj data

def requestBytes (request : Json) : Except Raised Bytes :=
  serialize (previewDisclosureRequest nfc validateUrl) request

def requestDigest (request : Json) : Except Raised String := do
  let bytes ← requestBytes nfc validateUrl request
  return hex (sha256 bytes).1

end

end AimData
