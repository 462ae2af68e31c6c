/-
  Signed scan specs: `parse_and_verify_scan_spec` on sequences of documents with one
  set of nonces.

  A document is any JSON value.  The closed models, the hash and the order of the
  checks are the source's; the lax conversions of the model library, the loading of
  keys and the signature itself are parameters.  A spec that is refused leaves the
  nonces alone, but not every refusal is the contract error: times with and without
  a time zone do not compare, and the raised `TypeError` passes.
-/
import AimData.Contract.Field
import AimData.Signing.Preimage

namespace AimData

namespace ScanSpec

open Contract (Field closedModel textWhere literalField patternField lowerHex alphanumeric get
  getStr getObj asObj)

/-! ## Models -/

/-- A `datetime`: its dumped text, whether it has a time zone, and its instant in
    microseconds, in UTC if it has one. -/
structure Time where
  text : String
  aware : Bool
  instant : ℤ
  deriving DecidableEq

/-- What `load_pem_public_key` does with a text. -/
inductive PemLoad (κ : Type) where
  | rsa (key : κ)
  | other
  | valueError
  | unsupportedAlgorithm

/-- The lax conversions of the model library (a float comes as it is dumped), the
    comparison `tuple(sorted(set(value))) == value` of floats, and the keys. -/
structure Env (κ : Type) where
  int : Json → Option ℤ
  float : Json → Option Json
  bool : Json → Option Bool
  datetime : Json → Option Time
  ascendingFloats : List Json → Bool
  loadPem : Bytes → PemLoad κ
  verify : κ → Bytes → Bytes → Bool

def factFieldContract : List String :=
  ["coverage", "objects.object_id", "objects.column_names", "objects.column_types",
    "objects.null_rate", "objects.approx_distinct_count", "objects.length_histograms",
    "objects.numeric_range_buckets", "objects.row_count", "objects.row_count_method",
    "fingerprint_hash"]

section

variable {κ : Type} (env : Env κ)

/-- `str = Field(min_length=1, max_length=max)` -/
def strField (max : ℕ) : Validator := textWhere fun s => 1 ≤ s.length ∧ s.length ≤ max

/-- `int = Field(ge=min)` -/
def intField (min : ℤ) : Validator := fun v =>
  (env.int v).bind fun i => if min ≤ i then some (.int i) else none

/-- `Literal[1]` -/
def oneField : Validator
  | .int 1 => some (.int 1)
  | _ => none

def boolField : Validator := fun v => (env.bool v).map .bool

def datetimeField : Validator := fun v => (env.datetime v).map fun t => .str t.text

/-- `_exact_field_contract` -/
def factFields : Validator
  | .arr l =>
    if l.map (fun v => match v with | .str s => some s | _ => none) = factFieldContract.map some then
      some (.arr l)
    else none
  | _ => none

/-- `tuple(sorted(set(value))) == value` -/
def ascending : List ℤ → Bool
  | i :: j :: is => i < j && ascending (j :: is)
  | _ => true

/-- `_ascending_lengths` -/
def lengthBounds : Validator
  | .arr l => do
    let is ← l.mapM env.int
    if is ≠ [] ∧ ascending is ∧ 0 ≤ is.headD 0 then some (.arr (is.map .int)) else none
  | _ => none

/-- `_ascending_numbers` -/
def numericBoundaries : Validator
  | .arr l => do
    let xs ← l.mapM env.float
    if env.ascendingFloats xs then some (.arr xs) else none
  | _ => none

def bucketDefinitions : Validator :=
  closedModel
    [⟨"string_length_upper_bounds", lengthBounds env, none⟩,
      ⟨"numeric_boundaries", numericBoundaries env, none⟩]
    fun _ => true

def hardInferenceBudget : Validator :=
  closedModel
    [⟨"max_input_tokens", intField env 1, none⟩,
      ⟨"max_output_tokens", intField env 1, none⟩,
      ⟨"model_request_count", oneField, none⟩]
    fun _ => true

def cancellationSignal : Validator :=
  closedModel
    [⟨"kind", literalField ["signed_spec_flag"], none⟩,
      ⟨"cancelled", boolField env, none⟩]
    fun _ => true

/-- `Field(pattern=r"^[0-9a-f]{64}$")` -/
def hexField : Validator := patternField 64 64 lowerHex

def nonceField : Validator :=
  patternField 16 128 fun c => alphanumeric c || c = '_' || c = '-'

/-- The fields of `ScanSpecPayload`. -/
def payloadFields : List Field :=
  [⟨"spec_id", strField 128, none⟩,
    ⟨"spec_version", literalField ["1"], none⟩,
    ⟨"verification_id", strField 128, none⟩,
    ⟨"listing_id", strField 255, none⟩,
    ⟨"listing_version_id", Contract.optional (strField 128), some .null⟩,
    ⟨"manifest_hash", Contract.optional hexField, some .null⟩,
    ⟨"owner_authorization_id", strField 128, none⟩,
    ⟨"quote_id", strField 128, none⟩,
    ⟨"idempotency_key", strField 128, none⟩,
    ⟨"accepted_at_utc", datetimeField env, none⟩,
    ⟨"requested_action", literalField ["start"], none⟩,
    ⟨"source_handle_id", strField 128, none⟩,
    ⟨"wire_manifest_version", literalField ["data-verification-wire-v1"], none⟩,
    ⟨"corpus_disclosure_version", strField 128, none⟩,
    ⟨"payment_disclosure_version", strField 128, none⟩,
    ⟨"connector_type", literalField ["eolymp"], none⟩,
    ⟨"connector_version", literalField ["eolymp-v1"], none⟩,
    ⟨"traversal_root", literalField ["registered_source_artifact"], none⟩,
    ⟨"traversal_order", literalField ["canonical_object_identity_ascending"], none⟩,
    ⟨"fingerprint_algorithm", literalField ["sha256"], none⟩,
    ⟨"canonicalization_version", literalField ["python-json-sort-compact-v1"], none⟩,
    ⟨"approximate_distinct_algorithm", literalField ["hll-sha256-v1"], none⟩,
    ⟨"deterministic_seed", hexField, none⟩,
    ⟨"output_contract", literalField ["data-verification-report-v1"], none⟩,
    ⟨"depth_class", literalField ["complete_standard_v1"], none⟩,
    ⟨"field_contract", factFields, none⟩,
    ⟨"bucket_definitions", bucketDefinitions env, none⟩,
    ⟨"minimum_aggregate_occupancy", intField env 3, none⟩,
    ⟨"low_occupancy_behavior", literalField ["suppressed_low_occupancy"], none⟩,
    ⟨"row_count_algorithm_version", literalField ["exact-v1"], none⟩,
    ⟨"histogram_version", literalField ["fixed-buckets-v1"], none⟩,
    ⟨"numeric_bucket_version", literalField ["fixed-buckets-v1"], none⟩,
    ⟨"d6_schema_version", literalField ["d6-v1"], none⟩,
    ⟨"d6_sanitizer_policy_version", literalField ["nfkc-fixed-enum-v1"], none⟩,
    ⟨"hard_inference_budget", hardInferenceBudget env, none⟩,
    ⟨"preview_requested", boolField env, none⟩,
    ⟨"issued_at_utc", datetimeField env, none⟩,
    ⟨"expires_at_utc", datetimeField env, none⟩,
    ⟨"cancellation_signal", cancellationSignal env, none⟩,
    ⟨"nonce", nonceField, none⟩,
    ⟨"platform_key_id", strField 128, none⟩]

/-- `_directory_binding`: both fields, or none of them. -/
def directoryBinding (d : List (String × Json)) : Bool :=
  let given (key : String) : Bool := (d.lookup key).isSome
  let bound (key : String) : Bool := match d.lookup key with
    | some .null | none => false
    | some _ => true
  (given "listing_version_id" || given "manifest_hash") →
    bound "listing_version_id" && bound "manifest_hash"

/-- A `ScanSpecPayload` whose fields are valid: what it is dumped as, and its times. -/
structure Payload where
  fields : List (String × Json)
  accepted : Time
  issued : Time
  expires : Time

def Payload.nonce (p : Payload) : String := getStr p.fields "nonce"

def Payload.cancelled (p : Payload) : Bool :=
  match get (getObj p.fields "cancellation_signal") "cancelled" with
  | .bool b => b
  | _ => false

/-- The validators of the fields, and the one before them. -/
def payloadShape (v : Json) : Option Payload :=
  if directoryBinding (asObj v) then do
    let dump ← closedModel (payloadFields env) (fun _ => true) v
    let accepted ← env.datetime (get (asObj v) "accepted_at_utc")
    let issued ← env.datetime (get (asObj v) "issued_at_utc")
    let expires ← env.datetime (get (asObj v) "expires_at_utc")
    return ⟨asObj dump, accepted, issued, expires⟩
  else none

/-- The order of two times. -/
def Time.compare (t u : Time) : Except Raised Ordering :=
  if t.aware = u.aware then .ok (Ord.compare t.instant u.instant)
  else raise "TypeError" "can't compare offset-naive and offset-aware datetimes"

/-- `_valid_times` -/
def validTimes (p : Payload) : Except Raised Unit := do
  let order ← p.accepted.compare p.issued
  if order = .gt then raise "ValidationError" "scan spec time window is invalid"
  else do
    let order ← p.expires.compare p.issued
    if order = .gt then .ok () else raise "ValidationError" "scan spec time window is invalid"

/-- `_wire_fields` -/
def Payload.wire (p : Payload) : List (String × Json) :=
  match get p.fields "listing_version_id" with
  | .null => p.fields.filter fun f => f.1 ≠ "listing_version_id" ∧ f.1 ≠ "manifest_hash"
  | _ => p.fields

structure SignedScanSpec where
  payload : Payload
  specHash : String
  specSignature : String

/-- The other fields of `SignedScanSpec`; its payload has a validator of its own. -/
def signedFields : List Field :=
  [⟨"payload", some, none⟩,
    ⟨"spec_hash", hexField, none⟩,
    ⟨"signature_algorithm", literalField ["RSASSA_PKCS1_V1_5_SHA256"], none⟩,
    ⟨"spec_signature", strField 4096, none⟩]

def invalid {α : Type} : Except Raised α := raise "ValidationError" "SignedScanSpec"

/-- `SignedScanSpec.model_validate`: an exception of the payload that is no
    `ValueError` passes at once. -/
def modelValidate (document : Json) : Except Raised SignedScanSpec :=
  match payloadShape env (get (asObj document) "payload") with
  | none => invalid
  | some payload => do
    validTimes payload
    match closedModel signedFields (fun _ => true) document with
    | some dump =>
      return ⟨payload, getStr (asObj dump) "spec_hash", getStr (asObj dump) "spec_signature"⟩
    | none => invalid

/-! ## Verification -/

/-- `base64.b64decode(text, validate=True)` -/
def b64decode (cs : List Char) : Option Bytes :=
  let body := cs.takeWhile (· ≠ '=')
  let pad := cs.dropWhile (· ≠ '=')
  if pad.all (· = '=') ∧ pad.length ≤ 2 ∧ (body.length % 4 = 0 ∨ 4 ≤ body.length % 4 + pad.length) then
    (body.mapM Base64.sextet).bind Base64Url.ofSextets
  else none

/-- The key is a PEM text or a loaded key. -/
inductive PlatformKey (κ : Type) where
  | pem (text : Bytes)
  | key (key : κ)

def contractError {α : Type} (message : String) : Except Raised α := raise "ContractError" message

def ensure (p : Prop) [Decidable p] (message : String) : Except Raised Unit :=
  if p then .ok () else contractError message

/-- `hexdigest()` -/
def hexdigest (digest : Digest) : String :=
  String.ofList (digest.1.flatMap fun b => [Nat.digitChar (b.toNat / 16), Nat.digitChar (b.toNat % 16)])

/-- The check of the signature. -/
def checkSignature (key : PlatformKey κ) (signature : String) (payload : Bytes) :
    Except Raised Unit :=
  match b64decode signature.toList with
  | none => contractError "scan spec signature is invalid"
  | some signature =>
    match (match key with | .pem text => env.loadPem text | .key key => .rsa key) with
    | .rsa key =>
      if env.verify key signature payload then .ok ()
      else contractError "scan spec signature is invalid"
    | .other | .valueError => contractError "scan spec signature is invalid"
    | .unsupportedAlgorithm => raise "UnsupportedAlgorithm" "unsupported key"

/-- A call: the document, the platform's key, and the time, which is taken to be UTC
    if it has no time zone. -/
structure Call (κ : Type) where
  document : Json
  platformPublicKey : PlatformKey κ
  now : Time

def Call.current (c : Call κ) : Time := { c.now with aware := true }

/-- A `ValidationError` becomes the contract error. -/
def schemaChecked (document : Json) : Except Raised SignedScanSpec :=
  match modelValidate env document with
  | .ok spec => .ok spec
  | .error e =>
    if e.type = "ValidationError" then contractError "scan spec schema is invalid" else .error e

/-- `parse_and_verify_scan_spec` up to the nonces -/
def verified (c : Call κ) : Except Raised Payload := do
  let spec ← schemaChecked env c.document
  let payload ← actionJsonBytes (.obj spec.payload.wire)
  ensure (hexdigest (sha256 payload) = spec.specHash) "scan spec hash is invalid"
  checkSignature env c.platformPublicKey spec.specSignature payload
  let order ← c.current.compare spec.payload.issued
  ensure (order ≠ .lt) "scan spec is not active"
  let order ← c.current.compare spec.payload.expires
  ensure (order = .lt) "scan spec is not active"
  ensure (spec.payload.cancelled = false) "scan was cancelled"
  return spec.payload

/-- `parse_and_verify_scan_spec`, with the nonces seen before and after it -/
def parseAndVerifyScanSpec (c : Call κ) (seenNonces : List String) :
    Except Raised Payload × List String :=
  match verified env c with
  | .error e => (.error e, seenNonces)
  | .ok payload =>
    if payload.nonce ∈ seenNonces then (contractError "scan spec nonce was replayed", seenNonces)
    else (.ok payload, payload.nonce :: seenNonces)

/-- The outcomes of a sequence of calls with one set of nonces, and the set after it. -/
def parseAll : List (Call κ) → List String → List (Except Raised Payload) × List String
  | [], seenNonces => ([], seenNonces)
  | c :: cs, seenNonces =>
    let (outcome, seenNonces) := parseAndVerifyScanSpec env c seenNonces
    let (outcomes, seenNonces) := parseAll cs seenNonces
    (outcome :: outcomes, seenNonces)

end

/-! ## Exceptions -/

/-- The outcome is a value or the contract error. -/
def Answered {α : Type} (outcome : Except Raised α) : Prop :=
  ∀ e, outcome = .error e → e.type = "ContractError"

section

variable {α β : Type}

theorem answered_ok (a : α) : Answered (.ok a) := fun _ h => by cases h

theorem answered_contractError (message : String) : Answered (contractError message : Except Raised α) := by
  rintro e ⟨⟩
  rfl

theorem answered_ensure (p : Prop) [Decidable p] (message : String) : Answered (ensure p message) := by
  rw [ensure]
  split_ifs
  · exact answered_ok ()
  · exact answered_contractError message

theorem ensure_eq_ok {p : Prop} [Decidable p] {message : String} {u : Unit} :
    ensure p message = .ok u ↔ p := by
  rw [ensure]
  split_ifs with h
  · exact ⟨fun _ => h, fun _ => rfl⟩
  · exact ⟨fun h => (by cases h), fun h' => absurd h' h⟩

/-- A sequence is answered if its parts are. -/
theorem answered_bind {x : Except Raised α} {f : α → Except Raised β} :
    Answered (x >>= f) ↔ Answered x ∧ ∀ a, x = .ok a → Answered (f a) := by
  cases x with
  | error e => simp [Answered]
  | ok a => simp [Answered]

theorem compare_eq_ok {t u : Time} {order : Ordering} :
    t.compare u = .ok order ↔ t.aware = u.aware ∧ Ord.compare t.instant u.instant = order := by
  rw [Time.compare]
  split_ifs with h
  · simp [h]
  · simp [h, raise]

theorem answered_compare {t u : Time} : Answered (t.compare u) ↔ t.aware = u.aware := by
  rw [Time.compare]
  split_ifs with h
  · exact ⟨fun _ => h, fun _ => answered_ok _⟩
  · refine ⟨fun hanswered => ?_, fun h' => absurd h' h⟩
    exact absurd (hanswered _ rfl) (by decide)

end

/-! ## One call -/

/-- The times of a payload compare: the first two have a time zone or have none, and
    so has the third where it is looked at. -/
def Comparable (p : Payload) : Prop :=
  p.accepted.aware = p.issued.aware ∧
    (p.accepted.instant ≤ p.issued.instant → p.expires.aware = p.issued.aware)

theorem validTimes_cases (p : Payload) :
    (Comparable p ∧ ∀ e, validTimes p = .error e → e.type = "ValidationError") ∨
      (¬ Comparable p ∧ ∃ e, validTimes p = .error e ∧ e.type = "TypeError") := by
  by_cases haccepted : p.accepted.aware = p.issued.aware
  · by_cases horder : p.accepted.instant ≤ p.issued.instant
    · have hle : Ord.compare p.accepted.instant p.issued.instant ≠ .gt := by
        rw [Ne, compare_gt_iff_gt]
        exact not_lt.2 horder
      by_cases hexpires : p.expires.aware = p.issued.aware
      · refine Or.inl ⟨⟨haccepted, fun _ => hexpires⟩, ?_⟩
        intro e he
        simp only [validTimes, Time.compare, if_pos haccepted, if_pos hexpires, Except.ok_bind,
          if_neg hle] at he
        split_ifs at he
        cases he
        rfl
      · refine Or.inr ⟨fun h => hexpires (h.2 horder),
          ⟨"TypeError", "can't compare offset-naive and offset-aware datetimes"⟩, ?_, rfl⟩
        simp only [validTimes, Time.compare, if_pos haccepted, if_neg hexpires, Except.ok_bind,
          if_neg hle]
        rfl
    · have hgt : Ord.compare p.accepted.instant p.issued.instant = .gt := by
        rw [compare_gt_iff_gt]
        exact not_le.1 horder
      refine Or.inl ⟨⟨haccepted, fun h => absurd h horder⟩, ?_⟩
      intro e he
      simp only [validTimes, Time.compare, if_pos haccepted, Except.ok_bind, hgt] at he
      cases he
      rfl
  · refine Or.inr ⟨fun h => haccepted h.1,
      ⟨"TypeError", "can't compare offset-naive and offset-aware datetimes"⟩, ?_, rfl⟩
    simp only [validTimes, Time.compare, if_neg haccepted]
    rfl

/-- The times of a valid window have time zones alike. -/
theorem validTimes_ok {p : Payload} (h : validTimes p = .ok ()) :
    Comparable p ∧ p.expires.aware = p.issued.aware := by
  rcases validTimes_cases p with ⟨hcomparable, -⟩ | ⟨-, e, he, -⟩
  · refine ⟨hcomparable, hcomparable.2 ?_⟩
    by_contra hgt
    have hcompare : Ord.compare p.accepted.instant p.issued.instant = .gt := by
      rw [compare_gt_iff_gt]
      exact not_le.1 hgt
    simp only [validTimes, Time.compare, if_pos hcomparable.1, Except.ok_bind, hcompare] at h
    cases h
  · rw [h] at he
    cases he

section

variable {κ : Type} {env : Env κ}

theorem modelValidate_ok {document : Json} {spec : SignedScanSpec}
    (h : modelValidate env document = .ok spec) :
    payloadShape env (get (asObj document) "payload") = some spec.payload ∧
      validTimes spec.payload = .ok () := by
  rw [modelValidate] at h
  cases hshape : payloadShape env (get (asObj document) "payload") with
  | none =>
    rw [hshape] at h
    cases h
  | some payload =>
    rw [hshape] at h
    obtain ⟨_, htimes, h⟩ := Except.bind_eq_ok.1 h
    cases hclosed : closedModel signedFields (fun _ => true) document with
    | none =>
      rw [hclosed] at h
      cases h
    | some dump =>
      rw [hclosed] at h
      cases h
      exact ⟨rfl, htimes⟩

theorem schemaChecked_eq_ok {document : Json} {spec : SignedScanSpec} :
    schemaChecked env document = .ok spec ↔ modelValidate env document = .ok spec := by
  rw [schemaChecked]
  cases modelValidate env document with
  | ok spec' => rfl
  | error e =>
    dsimp only
    split_ifs
    · exact ⟨fun h => (by cases h), fun h => (by cases h)⟩
    · exact Iff.rfl

/-- The schema gives the contract error unless the times of a payload do not compare. -/
theorem answered_schemaChecked (document : Json) : Answered (schemaChecked env document) ↔
    ∀ p, payloadShape env (get (asObj document) "payload") = some p → Comparable p := by
  rw [schemaChecked, modelValidate]
  cases hshape : payloadShape env (get (asObj document) "payload") with
  | none =>
    refine ⟨fun _ p hp => (by cases hp), fun _ => ?_⟩
    exact answered_contractError _
  | some p =>
    dsimp only
    constructor
    · rintro hanswered _ ⟨⟩
      rcases validTimes_cases p with ⟨hcomparable, -⟩ | ⟨-, e, he, htype⟩
      · exact hcomparable
      · rw [he] at hanswered
        simp only [Except.error_bind, htype] at hanswered
        have hcontract := hanswered e rfl
        rw [htype] at hcontract
        exact absurd hcontract (by decide)
    · intro hcomparable
      rcases validTimes_cases p with ⟨-, hvalid⟩ | ⟨hnot, -⟩
      · cases htimes : validTimes p with
        | error e =>
          simp only [Except.error_bind, if_pos (hvalid e htimes)]
          exact answered_contractError _
        | ok _ =>
          simp only [Except.ok_bind]
          cases closedModel signedFields (fun _ => true) document with
          | none => exact answered_contractError _
          | some dump => exact answered_ok _
      · exact absurd (hcomparable p rfl) hnot

theorem answered_actionJsonBytes (l : List (String × Json)) :
    Answered (actionJsonBytes (.obj l)) ↔ finiteFields l = true := by
  have hfinite : finiteJson (.obj l) = finiteFields l := by rw [finiteJson]
  rw [actionJsonBytes, hfinite]
  split_ifs with h
  · exact ⟨fun _ => h, fun _ => answered_ok _⟩
  · refine ⟨fun hanswered => ?_, fun h' => absurd h' h⟩
    exact absurd (hanswered _ rfl) (by decide)

/-- The key that a signature is checked with is of an algorithm that can be loaded. -/
def Loadable (env : Env κ) (key : PlatformKey κ) (signature : String) : Prop :=
  (b64decode signature.toList).isSome → ∀ text, key = .pem text →
    env.loadPem text ≠ .unsupportedAlgorithm

theorem answered_checkSignature (key : PlatformKey κ) (signature : String) (payload : Bytes) :
    Answered (checkSignature env key signature payload) ↔ Loadable env key signature := by
  unfold checkSignature Loadable
  cases b64decode signature.toList with
  | none => exact ⟨fun _ h => (by cases h), fun _ => answered_contractError _⟩
  | some signature =>
    cases key with
    | key key =>
      refine ⟨fun _ _ text h => (by cases h), fun _ => ?_⟩
      dsimp only
      split_ifs
      · exact answered_ok ()
      · exact answered_contractError _
    | pem text =>
      dsimp only
      cases hload : env.loadPem text with
      | rsa key =>
        refine ⟨?_, fun _ => ?_⟩
        · rintro - - _ ⟨⟩ hunsupported
          rw [hload] at hunsupported
          cases hunsupported
        · dsimp only
          split_ifs
          · exact answered_ok ()
          · exact answered_contractError _
      | other =>
        refine ⟨?_, fun _ => answered_contractError _⟩
        rintro - - _ ⟨⟩ hunsupported
        rw [hload] at hunsupported
        cases hunsupported
      | valueError =>
        refine ⟨?_, fun _ => answered_contractError _⟩
        rintro - - _ ⟨⟩ hunsupported
        rw [hload] at hunsupported
        cases hunsupported
      | unsupportedAlgorithm =>
        constructor
        · intro hanswered
          exact absurd (hanswered _ rfl) (by decide)
        · intro hloadable
          exact absurd hload (hloadable rfl text rfl)

/-- The call meets no native exception: the times of a payload whose fields are valid
    compare, a valid spec is written with finite numbers, and if its hash is good its
    signature is checked with a key that can be loaded, and if that is good too it was
    issued at a time with a time zone. -/
structure Plain (env : Env κ) (c : Call κ) : Prop where
  times : ∀ p, payloadShape env (get (asObj c.document) "payload") = some p → Comparable p
  finite : ∀ spec, modelValidate env c.document = .ok spec →
    finiteFields spec.payload.wire = true
  key : ∀ spec payload, modelValidate env c.document = .ok spec →
    actionJsonBytes (.obj spec.payload.wire) = .ok payload →
    hexdigest (sha256 payload) = spec.specHash →
    Loadable env c.platformPublicKey spec.specSignature
  zone : ∀ spec payload, modelValidate env c.document = .ok spec →
    actionJsonBytes (.obj spec.payload.wire) = .ok payload →
    hexdigest (sha256 payload) = spec.specHash →
    checkSignature env c.platformPublicKey spec.specSignature payload = .ok () →
    spec.payload.issued.aware = true

/-- **A call is answered** exactly if it meets no native exception. -/
theorem answered_verified (c : Call κ) : Answered (verified env c) ↔ Plain env c := by
  unfold verified
  simp only [answered_bind, answered_schemaChecked, schemaChecked_eq_ok, answered_actionJsonBytes,
    answered_ensure, ensure_eq_ok, answered_checkSignature, answered_compare, compare_eq_ok,
    true_and]
  constructor
  · rintro ⟨htimes, hrest⟩
    refine ⟨htimes, fun spec hspec => (hrest spec hspec).1, ?_, ?_⟩
    · intro spec payload hspec hpayload hhash
      exact ((hrest spec hspec).2 payload hpayload () hhash).1
    · intro spec payload hspec hpayload hhash hsignature
      exact (((hrest spec hspec).2 payload hpayload () hhash).2 () hsignature).1.symm
  · intro h
    refine ⟨h.times, fun spec hspec => ⟨h.finite spec hspec, ?_⟩⟩
    intro payload hpayload _ hhash
    refine ⟨h.key spec payload hspec hpayload hhash, ?_⟩
    intro _ hsignature
    have hissued := h.zone spec payload hspec hpayload hhash hsignature
    have hexpires := (validTimes_ok (modelValidate_ok hspec).2).2
    refine ⟨hissued.symm, fun _ _ _ _ => ⟨?_, fun _ _ _ _ _ _ => answered_ok _⟩⟩
    exact (hexpires.trans hissued).symm

theorem answered_parse (c : Call κ) (seenNonces : List String) :
    Answered (parseAndVerifyScanSpec env c seenNonces).1 ↔ Plain env c := by
  rw [← answered_verified, parseAndVerifyScanSpec]
  cases verified env c with
  | error e => exact Iff.rfl
  | ok payload =>
    refine ⟨fun _ => answered_ok payload, fun _ => ?_⟩
    dsimp only
    split_ifs
    · exact answered_contractError _
    · exact answered_ok payload

/-! ## Sequences of calls -/

/-- The payloads that a sequence of calls has returned. -/
def accepted (outcomes : List (Except Raised Payload)) : List Payload :=
  outcomes.filterMap Except.toOption

/-- Each call returns a payload or raises the contract error; each nonce is accepted
    at most once, and none that was seen before; and a genuine document is accepted
    afterwards unless its nonce was. -/
structure Lawful (env : Env κ) (cs : List (Call κ)) (seenNonces : List String) : Prop where
  answered : ∀ outcome ∈ (parseAll env cs seenNonces).1, Answered outcome
  once : ((accepted (parseAll env cs seenNonces).1).map Payload.nonce).Nodup
  fresh : ∀ p ∈ accepted (parseAll env cs seenNonces).1, p.nonce ∉ seenNonces
  kept : ∀ c p, verified env c = .ok p →
    ((parseAndVerifyScanSpec env c (parseAll env cs seenNonces).2).1 = .ok p ↔
      p.nonce ∉ seenNonces ∧
        p.nonce ∉ (accepted (parseAll env cs seenNonces).1).map Payload.nonce)

/-- A call adds the nonce that it accepts, and no other. -/
theorem parse_cases (c : Call κ) (seenNonces : List String) :
    (∃ e, (parseAndVerifyScanSpec env c seenNonces) = (.error e, seenNonces)) ∨
      ∃ p, p.nonce ∉ seenNonces ∧
        parseAndVerifyScanSpec env c seenNonces = (.ok p, p.nonce :: seenNonces) := by
  rw [parseAndVerifyScanSpec]
  cases verified env c with
  | error e => exact Or.inl ⟨e, rfl⟩
  | ok p =>
    dsimp only
    split_ifs with hseen
    · exact Or.inl ⟨_, rfl⟩
    · exact Or.inr ⟨p, hseen, rfl⟩

theorem parseAll_cons (c : Call κ) (cs : List (Call κ)) (seenNonces : List String) :
    parseAll env (c :: cs) seenNonces =
      ((parseAndVerifyScanSpec env c seenNonces).1 ::
          (parseAll env cs (parseAndVerifyScanSpec env c seenNonces).2).1,
        (parseAll env cs (parseAndVerifyScanSpec env c seenNonces).2).2) := rfl

theorem answered_parseAll : ∀ (cs : List (Call κ)) (seenNonces : List String),
    (∀ outcome ∈ (parseAll env cs seenNonces).1, Answered outcome) ↔ ∀ c ∈ cs, Plain env c
  | [], seenNonces => ⟨fun _ c hc => (by cases hc), fun _ outcome h => (by cases h)⟩
  | c :: cs, seenNonces => by
    rw [parseAll_cons, List.forall_mem_cons, List.forall_mem_cons, answered_parse,
      answered_parseAll cs]

/-- The nonces after a sequence are those before it and those that it has accepted. -/
theorem seen_parseAll (n : String) : ∀ (cs : List (Call κ)) (seenNonces : List String),
    n ∈ (parseAll env cs seenNonces).2 ↔
      n ∈ seenNonces ∨ n ∈ (accepted (parseAll env cs seenNonces).1).map Payload.nonce
  | [], seenNonces => by simp [parseAll, accepted]
  | c :: cs, seenNonces => by
    have ih := seen_parseAll n cs (parseAndVerifyScanSpec env c seenNonces).2
    rw [parseAll_cons, ih]
    rcases parse_cases c seenNonces with ⟨e, he⟩ | ⟨p, -, hp⟩
    · rw [he]
      rfl
    · rw [hp]
      simp only [accepted, List.filterMap_cons, Except.toOption, List.map_cons, List.mem_cons]
      tauto

/-- A nonce is accepted once, and only if it is new. -/
theorem accepted_parseAll : ∀ (cs : List (Call κ)) (seenNonces : List String),
    ((accepted (parseAll env cs seenNonces).1).map Payload.nonce).Nodup ∧
      ∀ p ∈ accepted (parseAll env cs seenNonces).1, p.nonce ∉ seenNonces
  | [], seenNonces => ⟨List.nodup_nil, fun p hp => (by cases hp)⟩
  | c :: cs, seenNonces => by
    obtain ⟨honce, hfresh⟩ := accepted_parseAll cs (parseAndVerifyScanSpec env c seenNonces).2
    rw [parseAll_cons]
    rcases parse_cases c seenNonces with ⟨e, he⟩ | ⟨p, hp, hparse⟩
    · rw [he] at honce hfresh ⊢
      exact ⟨honce, hfresh⟩
    · rw [hparse] at honce hfresh ⊢
      simp only [accepted, List.filterMap_cons, Except.toOption, List.map_cons, List.nodup_cons,
        List.mem_cons] at honce hfresh ⊢
      refine ⟨⟨?_, honce⟩, ?_⟩
      · intro hmem
        obtain ⟨q, hq, hnonce⟩ := List.mem_map.1 hmem
        exact hfresh q hq (Or.inl hnonce)
      · rintro q (rfl | hq)
        · exact hp
        · exact fun hseen => hfresh q hq (Or.inr hseen)

/-- **Scan specs are answered, each nonce is accepted once, and no refused document
    takes one**, in a sequence of calls exactly if none of them meets a native
    exception. -/
theorem scan_specs_iff (env : Env κ) (cs : List (Call κ)) (seenNonces : List String) :
    Lawful env cs seenNonces ↔ ∀ c ∈ cs, Plain env c := by
  rw [← answered_parseAll cs seenNonces]
  refine ⟨fun h => h.answered, fun h => ⟨h, (accepted_parseAll cs seenNonces).1,
    (accepted_parseAll cs seenNonces).2, ?_⟩⟩
  intro c p hp
  have hseen := @seen_parseAll κ env p.nonce cs seenNonces
  rw [parseAndVerifyScanSpec, hp, ← not_or, ← hseen]
  dsimp only
  split_ifs with hmem
  · exact ⟨fun h => (by cases h), fun h => absurd hmem h⟩
  · exact ⟨fun _ => hmem, fun _ => rfl⟩

end

/-! ### Times with and without a time zone -/

/-- Conversions that are right on the document below. -/
def strictEnv : Env Unit where
  int := fun v => match v with
    | .int i => some i
    | _ => none
  float := fun v => match v with
    | .float text => some (.float text)
    | _ => none
  bool := fun v => match v with
    | .bool b => some b
    | _ => none
  datetime := fun v => match v with
    | .str s => [⟨"2026-08-21T10:00:00", false, 1787306400000000⟩, ⟨"2026-08-21T10:01:00Z", true, 1787306460000000⟩,
        ⟨"2026-08-21T11:00:00Z", true, 1787310000000000⟩].find? fun t : Time => t.text = s
    | _ => none
  ascendingFloats := fun xs => xs.length ≤ 1
  loadPem := fun _ => .valueError
  verify := fun _ _ _ => false

def hexZeros : String := String.ofList (List.replicate 64 '0')

/-- Accepted at a time without a time zone, issued at one with it. -/
def mixedPayload : List (String × Json) :=
  [("spec_id", .str "a"),
    ("spec_version", .str "1"),
    ("verification_id", .str "a"),
    ("listing_id", .str "a"),
    ("owner_authorization_id", .str "a"),
    ("quote_id", .str "a"),
    ("idempotency_key", .str "a"),
    ("accepted_at_utc", .str "2026-08-21T10:00:00"),
    ("requested_action", .str "start"),
    ("source_handle_id", .str "a"),
    ("wire_manifest_version", .str "data-verification-wire-v1"),
    ("corpus_disclosure_version", .str "a"),
    ("payment_disclosure_version", .str "a"),
    ("connector_type", .str "eolymp"),
    ("connector_version", .str "eolymp-v1"),
    ("traversal_root", .str "registered_source_artifact"),
    ("traversal_order", .str "canonical_object_identity_ascending"),
    ("fingerprint_algorithm", .str "sha256"),
    ("canonicalization_version", .str "python-json-sort-compact-v1"),
    ("approximate_distinct_algorithm", .str "hll-sha256-v1"),
    ("deterministic_seed", .str hexZeros),
    ("output_contract", .str "data-verification-report-v1"),
    ("depth_class", .str "complete_standard_v1"),
    ("field_contract", .arr (factFieldContract.map .str)),
    ("bucket_definitions", .obj [("string_length_upper_bounds", .arr [.int 8]),
      ("numeric_boundaries", .arr [])]),
    ("minimum_aggregate_occupancy", .int 3),
    ("low_occupancy_behavior", .str "suppressed_low_occupancy"),
    ("row_count_algorithm_version", .str "exact-v1"),
    ("histogram_version", .str "fixed-buckets-v1"),
    ("numeric_bucket_version", .str "fixed-buckets-v1"),
    ("d6_schema_version", .str "d6-v1"),
    ("d6_sanitizer_policy_version", .str "nfkc-fixed-enum-v1"),
    ("hard_inference_budget", .obj [("max_input_tokens", .int 1), ("max_output_tokens", .int 1),
      ("model_request_count", .int 1)]),
    ("preview_requested", .bool false),
    ("issued_at_utc", .str "2026-08-21T10:01:00Z"),
    ("expires_at_utc", .str "2026-08-21T11:00:00Z"),
    ("cancellation_signal", .obj [("kind", .str "signed_spec_flag"), ("cancelled", .bool false)]),
    ("nonce", .str "0123456789abcdef"),
    ("platform_key_id", .str "a")]

def mixedCall : Call Unit where
  document := .obj [("payload", .obj mixedPayload), ("spec_hash", .str hexZeros),
    ("signature_algorithm", .str "RSASSA_PKCS1_V1_5_SHA256"), ("spec_signature", .str "AA==")]
  platformPublicKey := .key ()
  now := ⟨"2026-08-21T10:30:00Z", true, 1787308200000000⟩

/-- A forged document raises the `TypeError` of the comparison. -/
theorem mixed_times_raise :
    (parseAndVerifyScanSpec strictEnv mixedCall []).1 =
        .error ⟨"TypeError", "can't compare offset-naive and offset-aware datetimes"⟩ ∧
      ¬ Lawful strictEnv [mixedCall] [] := by
  have hraise : (parseAndVerifyScanSpec strictEnv mixedCall []).1 =
      .error ⟨"TypeError", "can't compare offset-naive and offset-aware datetimes"⟩ := by
    have herror : (match (parseAndVerifyScanSpec strictEnv mixedCall []).1 with
        | .error e => some e
        | .ok _ => none) =
          some ⟨"TypeError", "can't compare offset-naive and offset-aware datetimes"⟩ := by
      decide +kernel
    cases hout : (parseAndVerifyScanSpec strictEnv mixedCall []).1 with
    | ok p =>
      rw [hout] at herror
      cases herror
    | error e =>
      rw [hout] at herror
      rw [Option.some.inj herror]
  refine ⟨hraise, ?_⟩
  intro h
  have htype := h.answered _ List.mem_cons_self _ hraise
  exact absurd htype (by decide)

end ScanSpec

end AimData
