/-
  The package envelope: `validate_envelope` and `decode_envelope`.

  An envelope is read as JSON; the checks on one entry are those of its
  identity, its row and its proof.  What an accepted envelope holds is
  `Accepted`; a binary position is refused wherever the decoded row shows one,
  which a null under a binary field does not.
-/
import AimData.Canonical.Meaning
import AimData.Canonical.NormalForm
import AimData.Contract.Disclosure

namespace AimData

open Contract

/-! ## Limits -/

/-- `raise PackageError(code)` among the other errors of a check. -/
def refuseEnvelope {α : Type} (code : String) : Except Raised α := raise "PackageError" code

/-- `CAPS` -/
def caps : List (String × ℕ) :=
  [("rows", 100), ("fields", 25), ("canonical_bytes", 250000), ("envelope_bytes", 1048576),
    ("manifest_bytes", 262144), ("siblings", 63), ("depth", 16), ("nodes", 10000)]

def limit (kind : String) (amount : ℤ) : Except Raised Unit :=
  if amount < 0 ∨ amount > (caps.lookup kind).getD 0 then refuseEnvelope (kind ++ "_limit")
  else .ok ()

/-- `canonical_uuid` of a value. -/
def canonicalUuidOf : Json → Except Raised String
  | .str s => if canonicalUuid s then .ok s else refuseEnvelope "invalid_identity"
  | _ => refuseEnvelope "invalid_identity"

/-- `value_budget`, with the nodes still allowed and the stack. -/
def valueBudgetFrom : ℕ → List (Json × ℕ) → Except Raised ℕ
  | left, [] => .ok (10000 - left)
  | 0, _ :: _ => refuseEnvelope "nodes_limit"
  | left + 1, (current, depth) :: stack => do
    limit "depth" depth
    match current with
    | .obj l => valueBudgetFrom left ((l.map fun p => (p.2, depth + 1)).reverse ++ stack)
    | .arr l => valueBudgetFrom left ((l.map fun v => (v, depth + 1)).reverse ++ stack)
    | .float _ => refuseEnvelope "invalid_value"
    | _ => valueBudgetFrom left stack

def valueBudget (value : Json) : Except Raised ℕ := valueBudgetFrom 10000 [(value, 0)]

/-! ## Values of any type -/

/-- `len(value)` -/
def len : Json → Except Raised ℕ
  | .arr l => .ok l.length
  | .obj l => .ok l.length
  | .str s => .ok s.length
  | _ => raise "TypeError" "object has no len()"

/-- `iter(value)` -/
def items : Json → Except Raised (List Json)
  | .arr l => .ok l
  | .obj l => .ok (l.map fun p => .str p.1)
  | .str s => .ok (s.toList.map fun c => .str (String.ofList [c]))
  | _ => raise "TypeError" "object is not iterable"

/-- An error of the commitment services. -/
def commitmentErrors {α : Type} : Except CommitmentValidationError α → Except Raised α
  | .ok a => .ok a
  | .error e => raise "CommitmentValidationError" e.code

mutual
/-- A JSON value as a source value. -/
def PyValue.ofJson : Json → PyValue
  | .null => .none
  | .bool b => .bool b
  | .int i => .int i
  | .float _ => .other
  | .str s => .str s
  | .arr l => .list (ofJsonList l)
  | .obj l => .dict (ofJsonFields l)

def PyValue.ofJsonList : List Json → List PyValue
  | [] => []
  | v :: l => ofJson v :: ofJsonList l

def PyValue.ofJsonFields : List (String × Json) → List (PyKey × PyValue)
  | [] => []
  | (k, v) :: l => (.text k, ofJson v) :: ofJsonFields l
end

/-! ## Logical rows -/

/-- The branches of `_logical_value`, those of objects and arrays given. -/
def logicalBranch (tag value : Json) (object array : Json → Except Raised Json) :
    Except Raised Json :=
  if tag = .str "binary" then refuseEnvelope "binary_selection"
  else if value = .null then .ok .null
  else if tag = .str "object" then object value
  else if tag = .str "array" then array value
  else .ok value

/-- `params[key]` of a type without the parameter. -/
def noParameter (key : String) (_ : Json) : Except Raised Json := raise "KeyError" key

mutual
/-- `_logical_value` under a declared type; the marks of numeric texts, which
    only `walk_selection` reads and passes on, are left out. -/
def logicalValue : LogicalType → Json → Json → Except Raised Json
  | .object fields, tag, value =>
    logicalBranch tag value
      (fun value => do
        let triples ← items value
        return .obj (Json.dictOf (← logicalFields fields triples)))
      (noParameter "element_type")
  | .array element, tag, value =>
    logicalBranch tag value (noParameter "object_fields") fun value => do
      let l ← items value
      return .arr (← l.mapM fun v => logicalValue element (.str element.tag) v)
  | _, tag, value =>
    logicalBranch tag value (noParameter "object_fields") (noParameter "element_type")

/-- The loop of `_logical_record`. -/
def logicalFields : Fields → List Json → Except Raised (List (String × Json))
  | .nil, [] => .ok []
  | .cons name type _ rest, triple :: triples => do
    match ← items triple with
    | [found, tag, value] =>
      if found ≠ .str name then refuseEnvelope "invalid_index"
      else if tag = .str "missing" then logicalFields rest triples
      else do
        let v ← logicalValue type tag value
        return (name, v) :: (← logicalFields rest triples)
    | _ => raise "ValueError" "not enough values to unpack"
  | _, _ => raise "ValueError" "zip() argument lengths differ"
end

/-- `_logical_record` -/
def logicalRecord (triples : Json) (fields : Fields) : Except Raised Json := do
  let triples ← items triples
  return .obj (Json.dictOf (← logicalFields fields triples))

/-- `json.loads` with its failure among the errors. -/
def jsonLoads (raw : Bytes) : Except Raised Json :=
  match Json.loadBytes Json.dict raw with
  | some v => .ok v
  | none => raise "JSONDecodeError" "Expecting value"

/-! ## The envelope -/

def packageProfile : String := "aim-preview-package-v2"

/-- `ENVELOPE_KEYS` -/
def envelopeKeys : List String :=
  ["package_profile", "commitment_id", "schema_digest", "disclosure_version", "sample_hash",
    "entries"]

/-- `ENTRY_KEYS` -/
def entryKeys : List String :=
  ["proof_id", "row", "base_row_digest", "duplicate_ordinal", "leaf_index", "tree_size", "siblings"]

/-- `CommitmentProof.model_validate` of an entry without its row and identity. -/
def entryProof (entry : List (String × Json)) : Except Raised (List (String × Json)) :=
  match commitmentProof (.obj (entry.filter fun p => p.1 ≠ "row" ∧ p.1 ≠ "proof_id")) with
  | some proof => .ok (asObj proof)
  | none => raise "ValidationError" "CommitmentProof"

/-- What the loop over the entries has seen. -/
structure Seen where
  ids : List String := []
  indices : List ℤ := []
  sizes : List ℤ := []
  canonicalBytes : ℕ := 0

section
variable (nfc : String → String)

/-- The canonical text of an entry's row, without a binary position in it. -/
def entryRow (schema : CanonicalSchema) (entry : List (String × Json)) : Except Raised Bytes := do
  let rowBytes ← commitmentErrors
    (schema.canonicalRow nfc false none (PyValue.ofJson (get entry "row")))
  let _ ← logicalRecord (← jsonLoads rowBytes) schema.descriptors
  return rowBytes

/-- The row's digest is the proof's, and the proof leads to the root. -/
def entryBound (schema : CanonicalSchema) (root : HashValue) (entry proof : List (String × Json))
    (rowBytes : Bytes) : Except Raised Unit := do
  let base ← commitmentErrors (computeBaseRowDigest (.ofDigest schema.digest) rowBytes)
  let claimed ← commitmentErrors (decodeDigest (hashValue (get proof "base_row_digest")))
  if base ≠ claimed then refuseEnvelope "row_mismatch"
  else do
    let leaf ← commitmentErrors (computeLeafHash (hashValue (get proof "base_row_digest"))
      (getInt proof "duplicate_ordinal"))
    if verifyInclusionProof (.ofDigest leaf) (getInt proof "leaf_index") (getInt proof "tree_size")
        ((getList entry "siblings").map siblingOf) root
    then .ok () else refuseEnvelope "invalid_proof"

/-- The body of the loop over the entries. -/
def validateEntry (schema : CanonicalSchema) (root : HashValue) (seen : Seen) :
    Json → Except Raised Seen
  | .obj entry =>
    if keysAre entry entryKeys then do
      let proofId ← canonicalUuidOf (get entry "proof_id")
      if proofId ∈ seen.ids then refuseEnvelope "duplicate_proof"
      else do
        limit "siblings" (← len (get entry "siblings"))
        let proof ← entryProof entry
        limit "fields" (← len (get entry "row"))
        let rowBytes ← entryRow nfc schema entry
        limit "canonical_bytes" (seen.canonicalBytes + rowBytes.length : ℕ)
        entryBound schema root entry proof rowBytes
        return ⟨proofId :: seen.ids, seen.indices ++ [getInt proof "leaf_index"],
          getInt proof "tree_size" :: seen.sizes, seen.canonicalBytes + rowBytes.length⟩
    else refuseEnvelope "invalid_entry"
  | _ => refuseEnvelope "invalid_entry"

/-- The head of `validate_envelope`: what is checked before the entries. -/
def envelopeEntries (envelope : Json) (schema : CanonicalSchema) (manifestBytes : ℤ) :
    Except Raised (List Json) :=
  match envelope with
  | .obj l =>
    if keysAre l envelopeKeys ∧ get l "package_profile" = .str packageProfile then do
      let _ ← canonicalUuidOf (get l "commitment_id")
      let _ ← canonicalUuidOf (get l "disclosure_version")
      if get l "schema_digest" ≠ .str (encodeBase64url schema.digest.1) then
        refuseEnvelope "schema_mismatch"
      else match get l "entries" with
        | .arr (first :: rest) => do
          limit "rows" (rest.length + 1)
          limit "fields" schema.descriptors.names.length
          limit "manifest_bytes" manifestBytes
          let _ ← valueBudget envelope
          return first :: rest
        | _ => refuseEnvelope "invalid_selection"
    else refuseEnvelope "invalid_envelope"
  | _ => refuseEnvelope "invalid_envelope"

/-- The values of one entry that `sample_hash` hashes. -/
def sampleValueOf (entry : List (String × Json)) : Except Raised Json := do
  let proofId ← canonicalUuidOf (get entry "proof_id")
  let digest ← commitmentErrors (decodeDigest (hashValue (get entry "base_row_digest")))
  return .arr [.str proofId, .str (hex digest.1), get entry "duplicate_ordinal",
    get entry "leaf_index"]

/-- `sample_hash` -/
def sampleHashOf (entries : List Json) : Except Raised String := do
  let values ← entries.mapM fun e => sampleValueOf (asObj e)
  let bytes ← commitmentErrors (canonicalJsonBytes (.arr values))
  return hex (sha256 (ascii "aim-approved-sample-v1\x00" ++ bytes)).1

/-- The body of `validate_envelope`. -/
def validateBody (envelope : Json) (schema : CanonicalSchema) (root : HashValue)
    (manifestBytes : ℤ) : Except Raised Bytes := do
  let entries ← envelopeEntries envelope schema manifestBytes
  let seen ← entries.foldlM (validateEntry nfc schema root) {}
  if seen.sizes.dedup.length ≠ 1 ∨ seen.indices ≠ seen.indices.dedup.insertionSort (· ≤ ·) then
    refuseEnvelope "invalid_selection"
  else do
    if get (asObj envelope) "sample_hash" ≠ .str (← sampleHashOf entries) then
      refuseEnvelope "sample_hash_mismatch"
    else do
      let encoded ← commitmentErrors (canonicalJsonBytes envelope)
      limit "envelope_bytes" encoded.length
      return encoded

/-- A `PackageError` passes, and another error is an invalid package. -/
def packageErrors {α : Type} : Except Raised α → Except PackageError α
  | .ok a => .ok a
  | .error e => refusePackage (if e.type = "PackageError" then e.message else "invalid_package")

def validateEnvelope (envelope : Json) (schema : CanonicalSchema) (root : HashValue)
    (manifestBytes : ℤ) : Except PackageError Bytes :=
  packageErrors (validateBody nfc envelope schema root manifestBytes)

/-- `pairs`: a dict, unless a key comes twice. -/
def pairs (l : List (String × Json)) : Option (List (String × Json)) :=
  if (l.map Prod.fst).Nodup then some l else none

def decodeEnvelope (raw : Bytes) (schema : CanonicalSchema) (root : HashValue) (manifestBytes : ℤ)
    (contentEncoding : String) : Except PackageError Json := do
  packageErrors (limit "envelope_bytes" raw.length)
  if contentEncoding ≠ "identity" then refusePackage "unsupported_encoding"
  else match Json.loadBytes pairs raw with
    | none => refusePackage "invalid_package"
    | some envelope =>
      match validateEnvelope nfc envelope schema root manifestBytes with
      | .ok _ => .ok envelope
      | .error _ => refusePackage "invalid_package"

end

/-! ## Binary positions -/

section
variable (nfc : String → String)

mutual
/-- A value, or null, stands where the type is binary. -/
def BinaryAt : LogicalType → PyValue → Prop
  | .binary, _ => True
  | .array element, v => match v with
    | .list l => ∃ v ∈ l, BinaryAt element v
    | _ => False
  | .object fields, v => match v with
    | .dict l => BinaryField fields l
    | _ => False
  | _, _ => False

/-- So it does in one of the fields. -/
def BinaryField : Fields → List (PyKey × PyValue) → Prop
  | .nil, _ => False
  | .cons name type _ rest, l =>
    (∃ v, fieldNamed nfc name l = some v ∧ BinaryAt type v) ∨ BinaryField rest l
end

mutual
/-- A field in the value is declared binary, and null. -/
def NullBinaryAt : LogicalType → PyValue → Prop
  | .array element, v => match v with
    | .list l => ∃ v ∈ l, NullBinaryAt element v
    | _ => False
  | .object fields, v => match v with
    | .dict l => NullBinaryField fields l
    | _ => False
  | _, _ => False

def NullBinaryField : Fields → List (PyKey × PyValue) → Prop
  | .nil, _ => False
  | .cons name type _ rest, l =>
    (∃ v, fieldNamed nfc name l = some v ∧ (type = .binary ∧ v = .none ∨ NullBinaryAt type v)) ∨
      NullBinaryField rest l
end

/-- The fields of a row. -/
def rowFields (row : Json) : List (PyKey × PyValue) := PyValue.ofJsonFields (asObj row)

/-- A row carries a value, or null, at a binary position. -/
def CanonicalSchema.BinaryRow (schema : CanonicalSchema) (row : Json) : Prop :=
  BinaryField nfc schema.descriptors (rowFields row)

/-- A row carries null under a field declared binary. -/
def CanonicalSchema.NullBinaryRow (schema : CanonicalSchema) (row : Json) : Prop :=
  NullBinaryField nfc schema.descriptors (rowFields row)

end

section
variable {nfc : String → String} {text : Bool} {offset : Option String}

mutual
theorem NullBinaryAt.binaryAt : ∀ {type : LogicalType} {v : PyValue}, NullBinaryAt nfc type v →
    BinaryAt nfc type v
  | .array _, .list _, ⟨v, hv, h⟩ => ⟨v, hv, NullBinaryAt.binaryAt h⟩
  | .object fields, .dict l, h => NullBinaryField.binaryField (show NullBinaryField nfc fields l from h)

theorem NullBinaryField.binaryField : ∀ {fields : Fields} {l : List (PyKey × PyValue)},
    NullBinaryField nfc fields l → BinaryField nfc fields l
  | .cons name type nullable rest, l, h => by
    rcases h with ⟨v, hv, ⟨rfl, rfl⟩ | h⟩ | h
    · exact Or.inl ⟨_, hv, trivial⟩
    · exact Or.inl ⟨v, hv, NullBinaryAt.binaryAt h⟩
    · exact Or.inr (NullBinaryField.binaryField h)
end

open CanonicalSchema

theorem logicalFields_cons {name tag : String} {type : LogicalType} {nullable : Bool}
    {rest : Fields} {v : Json} {js : List Json} {w : List (String × Json)}
    (h : logicalFields (.cons name type nullable rest) (fieldJson name tag v :: js) = .ok w)
    (htag : tag ≠ "missing") :
    (∃ x, logicalValue type (.str tag) v = .ok x) ∧ ∃ w', logicalFields rest js = .ok w' := by
  simp only [logicalFields, fieldJson, items, Except.ok_bind, ne_eq, not_true_eq_false, if_false,
    Json.str.injEq, htag] at h
  obtain ⟨x, hx, h⟩ := Except.bind_eq_ok.1 h
  obtain ⟨w', hw, h⟩ := Except.bind_eq_ok.1 h
  exact ⟨⟨x, hx⟩, w', hw⟩

theorem logicalFields_missing {name : String} {type : LogicalType} {nullable : Bool}
    {rest : Fields} {js : List Json} {w : List (String × Json)}
    (h : logicalFields (.cons name type nullable rest) (fieldJson name "missing" .null :: js) =
      .ok w) : logicalFields rest js = .ok w := by
  simpa only [logicalFields, fieldJson, items, Except.ok_bind, ne_eq, not_true_eq_false, if_false,
    if_true] using h

/-- The three ways a field is written. -/
theorem fieldValue_cases {name tag : String} {nullable : Bool} {depth count : ℕ}
    {found : Option PyValue} {body : PyValue → ℕ → Except CommitmentValidationError (Json × ℕ)}
    {out : Json × ℕ} (h : fieldValue name tag nullable depth found body count = .ok out) :
    (found = none ∧ out.1 = fieldJson name "missing" .null) ∨
      (found = some .none ∧ out.1 = fieldJson name "null" .null) ∨
      ∃ v count r, found = some v ∧ v ≠ .none ∧ body v count = .ok r ∧
        out.1 = fieldJson name tag r.1 := by
  rcases found with _ | v
  · obtain ⟨c, -, h⟩ := Except.bind_eq_ok.1 h
    cases h
    exact Or.inl ⟨rfl, rfl⟩
  · by_cases hv : v = .none
    · subst hv
      obtain ⟨c, -, h⟩ := Except.bind_eq_ok.1 h
      split_ifs at h
      · cases h
        exact Or.inr (Or.inl ⟨rfl, rfl⟩)
      · cases h
    · rw [fieldValue_some hv] at h
      obtain ⟨r, hr, h⟩ := Except.bind_eq_ok.1 h
      cases h
      exact Or.inr (Or.inr ⟨v, count, r, rfl, hv, hr, rfl⟩)

/-- A written list whose elements are all read back. -/
theorem arrayValue_mem {body : PyValue → ℕ → Except CommitmentValidationError (Json × ℕ)}
    {read : Json → Except Raised Json} : ∀ {l : List PyValue} {count : ℕ} {out : List Json × ℕ}
    {w : List Json}, arrayValue body l count = .ok out → out.1.mapM read = .ok w →
      ∀ v ∈ l, ∃ count r x, body v count = .ok r ∧ read r.1 = .ok x
  | [], _, _, _, _, _ => by simp
  | v :: l, count, out, w, h, hw => by
    obtain ⟨r, hr, h⟩ := Except.bind_eq_ok.1 h
    obtain ⟨rs, hrs, h⟩ := Except.bind_eq_ok.1 h
    cases h
    obtain ⟨x, xs, hx, hxs, rfl⟩ := List.mapM_cons_ok.1 hw
    intro u hu
    rcases List.mem_cons.1 hu with rfl | hu
    · exact ⟨count, r, x, hr, hx⟩
    · exact arrayValue_mem hrs hxs u hu

mutual
/-- **What is written and read back has no binary position** but for the nulls
    under binary fields. -/
theorem BinaryAt.nullBinaryAt : ∀ {type : LogicalType} {v : PyValue} {depth count : ℕ}
    {out : Json × ℕ} {w : Json}, value nfc text offset type v depth count = .ok out →
    logicalValue type (.str type.tag) out.1 = .ok w → BinaryAt nfc type v → NullBinaryAt nfc type v
  | .binary, v, depth, count, out, w, _, hw, _ => by
    rw [logicalValue, logicalBranch, if_pos (by rfl)] at hw
    · cases hw
    · rintro fields ⟨⟩
    · rintro element ⟨⟩
  | .array element, v, depth, count, out, w, h, hw, hb => by
    cases v with
    | list l =>
      obtain ⟨u, hu, hb⟩ := hb
      rcases counted_ok h with ⟨hv, -⟩ | ⟨-, count, h⟩
      · cases hv
      · obtain ⟨⟨js, c⟩, hjs, h⟩ := Except.bind_eq_ok.1 h
        cases h
        rw [logicalValue, logicalBranch, if_neg (by simp [LogicalType.tag]), if_neg (by simp),
          if_neg (by simp [LogicalType.tag]), if_pos (by rfl)] at hw
        obtain ⟨js, hitems, hw⟩ := Except.bind_eq_ok.1 hw
        cases hitems
        obtain ⟨ws, hws, -⟩ := Except.bind_eq_ok.1 hw
        obtain ⟨count, r, x, hr, hx⟩ := arrayValue_mem hjs hws u hu
        exact ⟨u, hu, BinaryAt.nullBinaryAt hr hx hb⟩
    | _ => exact hb.elim
  | .object fields, v, depth, count, out, w, h, hw, hb => by
    cases v with
    | dict l =>
      rcases counted_ok h with ⟨hv, -⟩ | ⟨-, count, h⟩
      · cases hv
      · obtain ⟨normalized, hn, h⟩ := Except.bind_eq_ok.1 h
        obtain ⟨⟨js, c⟩, hjs, h⟩ := Except.bind_eq_ok.1 h
        cases h
        obtain ⟨l', hl', hl⟩ := recordOf_ok hn
        cases hl'
        rw [logicalValue, logicalBranch, if_neg (by simp [LogicalType.tag]), if_neg (by simp),
          if_pos (by rfl)] at hw
        obtain ⟨js, hitems, hw⟩ := Except.bind_eq_ok.1 hw
        cases hitems
        obtain ⟨ws, hws, -⟩ := Except.bind_eq_ok.1 hw
        exact BinaryField.nullBinaryField hl hjs hws hb
    | _ => exact hb.elim

theorem BinaryField.nullBinaryField : ∀ {fields : Fields} {l : List (PyKey × PyValue)}
    {normalized : List (String × PyValue)} {depth count : ℕ} {out : List Json × ℕ}
    {w : List (String × Json)}, (∀ name, lookup normalized name = fieldNamed nfc name l) →
    record nfc text offset fields normalized depth count = .ok out →
    logicalFields fields out.1 = .ok w → BinaryField nfc fields l → NullBinaryField nfc fields l
  | .cons name type nullable rest, l, normalized, depth, count, out, w, hl, h, hw, hb => by
    obtain ⟨r, hr, h⟩ := Except.bind_eq_ok.1 h
    obtain ⟨rs, hrs, h⟩ := Except.bind_eq_ok.1 h
    cases h
    rw [hl] at hr
    obtain ⟨htm, -⟩ := type.tag_ne
    rcases fieldValue_cases hr with ⟨hf, ho⟩ | ⟨hf, ho⟩ | ⟨v, c, x, hf, hv, hx, ho⟩
    · rw [ho] at hw
      rcases hb with ⟨v, hv, -⟩ | hb
      · rw [hf] at hv; cases hv
      · exact Or.inr (BinaryField.nullBinaryField hl hrs (logicalFields_missing hw) hb)
    · rw [ho] at hw
      obtain ⟨-, w', hw'⟩ := logicalFields_cons hw (by decide)
      rcases hb with ⟨v, hv, hb⟩ | hb
      · -- null under the field: the field itself is binary, or nothing in it is
        rw [hf] at hv
        cases hv
        cases type with
        | binary => exact Or.inl ⟨_, hf, Or.inl ⟨rfl, rfl⟩⟩
        | _ => exact hb.elim
      · exact Or.inr (BinaryField.nullBinaryField hl hrs hw' hb)
    · rw [ho] at hw
      obtain ⟨⟨y, hy⟩, w', hw'⟩ := logicalFields_cons hw htm
      rcases hb with ⟨u, hu, hb⟩ | hb
      · rw [hf] at hu
        cases hu
        exact Or.inl ⟨v, hf, Or.inr (BinaryAt.nullBinaryAt hx hy hb)⟩
      · exact Or.inr (BinaryField.nullBinaryField hl hrs hw' hb)
end

end

/-! ## What an accepted envelope holds -/

section
variable {nfc : String → String}

/-- The canonical row and the ordinal of an entry hash to a leaf, and its proof
    leads from the leaf to the root. -/
def EntryProved (nfc : String → String) (schema : CanonicalSchema) (root : HashValue)
    (entry : List (String × Json)) : Prop :=
  ∃ (rowBytes : Bytes) (base leaf : Digest),
    schema.canonicalRow nfc false none (PyValue.ofJson (get entry "row")) = .ok rowBytes ∧
    computeBaseRowDigest (.ofDigest schema.digest) rowBytes = .ok base ∧
    computeLeafHash (.ofDigest base) (getInt entry "duplicate_ordinal") = .ok leaf ∧
    verifyInclusionProof (.ofDigest leaf) (getInt entry "leaf_index") (getInt entry "tree_size")
      ((getList entry "siblings").map siblingOf) root = true

/-- What one entry of an accepted envelope holds. -/
structure AcceptedEntry (nfc : String → String) (schema : CanonicalSchema) (root : HashValue)
    (entry : List (String × Json)) : Prop where
  identity : get entry "proof_id" = .str (getStr entry "proof_id")
  positions : ∀ key ∈ ["duplicate_ordinal", "leaf_index", "tree_size"],
    get entry key = .int (getInt entry key)
  row : ∃ rowBytes, entryRow nfc schema entry = .ok rowBytes
  proved : EntryProved nfc schema root entry

/-- The entries of an accepted envelope: distinct identities, increasing
    indices under one tree size, and proofs to the root. -/
structure AcceptedEntries (nfc : String → String) (schema : CanonicalSchema) (root : HashValue)
    (entries : List (List (String × Json))) : Prop where
  nonempty : entries ≠ []
  identities : (entries.map fun e => get e "proof_id").Nodup
  increasing : (entries.map fun e => getInt e "leaf_index").Pairwise (· < ·)
  oneSize : ∃ size, ∀ e ∈ entries, get e "tree_size" = .int size
  entry : ∀ e ∈ entries, AcceptedEntry nfc schema root e

theorem get_of_lookup {d : List (String × Json)} {key : String} {v : Json}
    (h : d.lookup key = some v) : Contract.get d key = v := by
  rw [Contract.get, h, Option.getD_some]

/-- The proof of an entry has the digest and the positions of the entry. -/
theorem entryProof_ok {entry proof : List (String × Json)} (h : entryProof entry = .ok proof) :
    (∀ key ∈ ["duplicate_ordinal", "leaf_index", "tree_size"],
      get entry key = .int (getInt entry key) ∧ getInt proof key = getInt entry key) ∧
    get proof "base_row_digest" = get entry "base_row_digest" := by
  rw [entryProof] at h
  split at h
  · rename_i w hw
    cases h
    rw [commitmentProof, closedMetadata] at hw
    split_ifs at hw
    obtain ⟨r, rfl, -, -⟩ := closedModel_keys hw
    have hnd : ((⟨"base_row_digest", digestTextField, none⟩ :: positionFields : List Field).map
        Field.name).Nodup := by decide
    have hfield := fun {f : Field} (hf : f ∈ (⟨"base_row_digest", digestTextField, none⟩ ::
      positionFields : List Field)) => closedModel_get hw hnd hf
    constructor
    · intro key hkey
      have hint : ∃ min, (⟨key, intField min safeMax, none⟩ : Field) ∈
          (⟨"base_row_digest", digestTextField, none⟩ :: positionFields : List Field) := by
        simp only [List.mem_cons, List.not_mem_nil, or_false] at hkey
        rcases hkey with rfl | rfl | rfl
        · exact ⟨0, by simp [positionFields]⟩
        · exact ⟨0, by simp [positionFields]⟩
        · exact ⟨1, by simp [positionFields]⟩
      obtain ⟨min, hmem⟩ := hint
      obtain ⟨v, x, hv, hx, hr⟩ := hfield hmem rfl
      obtain ⟨rfl, i, rfl⟩ := intField_some hx
      rw [lookup_filter_keys (fun k => k ≠ "row" ∧ k ≠ "proof_id"), if_pos (by
        simp only [List.mem_cons, List.not_mem_nil, or_false] at hkey
        rcases hkey with rfl | rfl | rfl <;> simp)] at hv
      rw [getInt, getInt, get_of_lookup hv, asObj, get_of_lookup hr]
      exact ⟨rfl, rfl⟩
    · obtain ⟨v, x, hv, hx, hr⟩ := hfield List.mem_cons_self rfl
      obtain ⟨rfl, -⟩ := textWhere_some hx
      rw [lookup_filter_keys (fun k => k ≠ "row" ∧ k ≠ "proof_id"), if_pos (by simp)] at hv
      rw [asObj, get_of_lookup hr, get_of_lookup hv]
  · cases h

theorem commitmentErrors_ok {α : Type} {r : Except CommitmentValidationError α} {a : α} :
    commitmentErrors r = .ok a ↔ r = .ok a := by
  cases r with
  | ok b => simp [commitmentErrors]
  | error e => simp [commitmentErrors, raise]

theorem canonicalUuidOf_ok {v : Json} {s : String} (h : canonicalUuidOf v = .ok s) :
    v = .str s ∧ canonicalUuid s = true := by
  cases v with
  | str t =>
    rw [canonicalUuidOf] at h
    split_ifs at h with hs
    · cases h; exact ⟨rfl, hs⟩
    · cases h
  | _ => cases h

theorem entryRow_ok {schema : CanonicalSchema} {entry : List (String × Json)} {rowBytes : Bytes}
    (h : entryRow nfc schema entry = .ok rowBytes) :
    schema.canonicalRow nfc false none (PyValue.ofJson (get entry "row")) = .ok rowBytes ∧
      ∃ triples row, jsonLoads rowBytes = .ok triples ∧
        logicalRecord triples schema.descriptors = .ok row := by
  obtain ⟨bytes, hbytes, h⟩ := Except.bind_eq_ok.1 h
  obtain ⟨triples, htriples, h⟩ := Except.bind_eq_ok.1 h
  obtain ⟨row, hrow, h⟩ := Except.bind_eq_ok.1 h
  cases h
  exact ⟨commitmentErrors_ok.1 hbytes, triples, row, htriples, hrow⟩

/-- The leaf of a bound entry is made of its row and its ordinal. -/
theorem entryBound_ok {schema : CanonicalSchema} {root : HashValue}
    {entry proof : List (String × Json)} {rowBytes : Bytes} {u : Unit}
    (h : entryBound schema root entry proof rowBytes = .ok u) :
    ∃ base leaf, computeBaseRowDigest (.ofDigest schema.digest) rowBytes = .ok base ∧
      computeLeafHash (.ofDigest base) (getInt proof "duplicate_ordinal") = .ok leaf ∧
      verifyInclusionProof (.ofDigest leaf) (getInt proof "leaf_index") (getInt proof "tree_size")
        ((getList entry "siblings").map siblingOf) root = true := by
  obtain ⟨base, hbase, h⟩ := Except.bind_eq_ok.1 h
  obtain ⟨claimed, hclaimed, h⟩ := Except.bind_eq_ok.1 h
  split_ifs at h with hne
  · cases h
  · obtain ⟨leaf, hleaf, h⟩ := Except.bind_eq_ok.1 h
    split_ifs at h with hverify
    · rw [not_not] at hne
      subst hne
      rw [commitmentErrors_ok] at hbase hclaimed hleaf
      refine ⟨base, leaf, hbase, ?_, hverify⟩
      rw [← hleaf, computeLeafHash, computeLeafHash, hclaimed, decodeDigest_ofDigest]
    · cases h

/-- **What a step of the loop shows** of its entry, and does with what was seen. -/
theorem validateEntry_ok {schema : CanonicalSchema} {root : HashValue} {seen seen' : Seen}
    {entry : Json} (h : validateEntry nfc schema root seen entry = .ok seen') :
    ∃ e, entry = .obj e ∧ AcceptedEntry nfc schema root e ∧ getStr e "proof_id" ∉ seen.ids ∧
      seen'.ids = getStr e "proof_id" :: seen.ids ∧
      seen'.indices = seen.indices ++ [getInt e "leaf_index"] ∧
      seen'.sizes = getInt e "tree_size" :: seen.sizes := by
  cases entry with
  | obj e =>
    rw [validateEntry] at h
    split_ifs at h
    · obtain ⟨proofId, hid, h⟩ := Except.bind_eq_ok.1 h
      split_ifs at h with hnew
      · cases h
      · obtain ⟨siblings, -, h⟩ := Except.bind_eq_ok.1 h
        obtain ⟨_, -, h⟩ := Except.bind_eq_ok.1 h
        obtain ⟨proof, hproof, h⟩ := Except.bind_eq_ok.1 h
        obtain ⟨fields, -, h⟩ := Except.bind_eq_ok.1 h
        obtain ⟨_, -, h⟩ := Except.bind_eq_ok.1 h
        obtain ⟨rowBytes, hrow, h⟩ := Except.bind_eq_ok.1 h
        obtain ⟨_, -, h⟩ := Except.bind_eq_ok.1 h
        obtain ⟨_, hbound, h⟩ := Except.bind_eq_ok.1 h
        cases h
        obtain ⟨hid, -⟩ := canonicalUuidOf_ok hid
        have hstr : getStr e "proof_id" = proofId := by rw [getStr, hid]
        obtain ⟨hpos, -⟩ := entryProof_ok hproof
        obtain ⟨base, leaf, hbase, hleaf, hverify⟩ := entryBound_ok hbound
        have hidx := (hpos "leaf_index" (by simp)).2
        have hsize := (hpos "tree_size" (by simp)).2
        rw [(hpos "duplicate_ordinal" (by simp)).2] at hleaf
        rw [hidx, hsize] at hverify
        refine ⟨e, rfl, ⟨?_, fun key hkey => (hpos key hkey).1, ⟨rowBytes, hrow⟩, rowBytes, base,
          leaf, (entryRow_ok hrow).1, hbase, hleaf, hverify⟩, ?_, ?_, ?_, ?_⟩
        · rw [hstr, hid]
        · rw [hstr]; exact hnew
        · rw [hstr]
        · rw [hidx]
        · rw [hsize]
    · cases h
  | _ => cases h

/-- **What the loop shows** of all its entries. -/
theorem validateEntries_ok {schema : CanonicalSchema} {root : HashValue} :
    ∀ {entries : List Json} {seen seen' : Seen},
      entries.foldlM (validateEntry nfc schema root) seen = .ok seen' →
      ∃ es : List (List (String × Json)), entries = es.map .obj ∧
        (∀ e ∈ es, AcceptedEntry nfc schema root e) ∧
        (seen.ids.Nodup → seen'.ids.Nodup) ∧
        seen'.ids = (es.map fun e => getStr e "proof_id").reverse ++ seen.ids ∧
        seen'.indices = seen.indices ++ es.map (fun e => getInt e "leaf_index") ∧
        seen'.sizes = (es.map fun e => getInt e "tree_size").reverse ++ seen.sizes
  | [], seen, seen', h => by
    cases h
    exact ⟨[], rfl, by simp, id, by simp, by simp, by simp⟩
  | entry :: entries, seen, seen', h => by
    rw [List.foldlM_cons] at h
    obtain ⟨mid, hmid, hrest⟩ := Except.bind_eq_ok.1 h
    obtain ⟨e, rfl, he, hnew, hids, hidx, hsizes⟩ := validateEntry_ok hmid
    obtain ⟨es, rfl, hes, hnd, hids', hidx', hsizes'⟩ := validateEntries_ok hrest
    refine ⟨e :: es, rfl, ?_, ?_, ?_, ?_, ?_⟩
    · intro x hx
      rcases List.mem_cons.1 hx with rfl | hx
      · exact he
      · exact hes x hx
    · intro hseen
      exact hnd (by rw [hids]; exact List.nodup_cons.2 ⟨hnew, hseen⟩)
    · rw [hids', hids]; simp
    · rw [hidx', hidx]; simp
    · rw [hsizes', hsizes]; simp

/-- A list that is its own sorted set increases. -/
theorem increasing_of_sorted_set {l : List ℤ} (h : l = l.dedup.insertionSort (· ≤ ·)) :
    l.Pairwise (· < ·) := by
  have hsorted : l.Pairwise (· ≤ ·) := by
    rw [h]
    exact List.pairwise_insertionSort (· ≤ ·) _
  have hnd : l.Nodup := by
    rw [h]
    exact (List.perm_insertionSort (· ≤ ·) _).nodup_iff.2 (List.nodup_dedup l)
  exact (hsorted.and hnd).imp fun h => lt_of_le_of_ne h.1 h.2

theorem envelopeEntries_ok {envelope : Json} {schema : CanonicalSchema} {manifestBytes : ℤ}
    {entries : List Json} (h : envelopeEntries envelope schema manifestBytes = .ok entries) :
    get (asObj envelope) "entries" = .arr entries ∧ entries ≠ [] := by
  cases envelope with
  | obj l =>
    rw [envelopeEntries] at h
    split_ifs at h with hkeys hschema
    · obtain ⟨_, -, h⟩ := Except.bind_eq_ok.1 h
      obtain ⟨_, -, h⟩ := Except.bind_eq_ok.1 h
      cases h
    · obtain ⟨_, -, h⟩ := Except.bind_eq_ok.1 h
      obtain ⟨_, -, h⟩ := Except.bind_eq_ok.1 h
      split at h
      · rename_i first rest hl
        obtain ⟨_, -, h⟩ := Except.bind_eq_ok.1 h
        obtain ⟨_, -, h⟩ := Except.bind_eq_ok.1 h
        obtain ⟨_, -, h⟩ := Except.bind_eq_ok.1 h
        obtain ⟨_, -, h⟩ := Except.bind_eq_ok.1 h
        cases h
        exact ⟨hl, by simp⟩
      · cases h
    · cases h
  | _ => cases h

theorem limit_ok {kind : String} {amount : ℤ} {u : Unit} (h : limit kind amount = .ok u) :
    amount ≤ (caps.lookup kind).getD 0 := by
  unfold limit at h
  split_ifs at h with hb
  · cases h
  · push Not at hb
    exact hb.2

/-- **What an accepted envelope holds.** -/
theorem validateBody_ok {envelope : Json} {schema : CanonicalSchema} {root : HashValue}
    {manifestBytes : ℤ} {encoded : Bytes}
    (h : validateBody nfc envelope schema root manifestBytes = .ok encoded) :
    canonicalJsonBytes envelope = .ok encoded ∧ encoded.length ≤ 1048576 ∧
      ∃ es : List (List (String × Json)), get (asObj envelope) "entries" = .arr (es.map .obj) ∧
        AcceptedEntries nfc schema root es := by
  obtain ⟨entries, hentries, h⟩ := Except.bind_eq_ok.1 h
  obtain ⟨seen, hseen, h⟩ := Except.bind_eq_ok.1 h
  split_ifs at h with hshape
  · cases h
  obtain ⟨digest, -, h⟩ := Except.bind_eq_ok.1 h
  split_ifs at h
  · cases h
  obtain ⟨bytes, hbytes, h⟩ := Except.bind_eq_ok.1 h
  obtain ⟨_, hlimit, h⟩ := Except.bind_eq_ok.1 h
  cases h
  push Not at hshape
  obtain ⟨hget, hne⟩ := envelopeEntries_ok hentries
  obtain ⟨es, rfl, hes, hnd, hids, hidx, hsizes⟩ := validateEntries_ok hseen
  rw [List.append_nil] at hids hsizes
  rw [List.nil_append] at hidx
  refine ⟨commitmentErrors_ok.1 hbytes, by exact_mod_cast limit_ok hlimit, es, hget, ?_, ?_, ?_, ?_,
    hes⟩
  · rintro rfl
    exact hne rfl
  · have hid : es.map (fun e => get e "proof_id") =
        (es.map fun e => getStr e "proof_id").map Json.str := by
      rw [List.map_map]
      exact List.map_congr_left fun e he => (hes e he).identity
    rw [hid]
    refine List.Nodup.map (fun a b h => Json.str.inj h) ?_
    rw [← List.nodup_reverse, ← hids]
    exact hnd List.nodup_nil
  · rw [← hidx]
    exact increasing_of_sorted_set hshape.2
  · obtain ⟨size, hsize⟩ := List.length_eq_one_iff.1 hshape.1
    refine ⟨size, fun e he => ?_⟩
    have hmem : getInt e "tree_size" ∈ seen.sizes.dedup := by
      rw [List.mem_dedup, hsizes, List.mem_reverse]
      exact List.mem_map_of_mem he
    rw [hsize, List.mem_singleton] at hmem
    rw [(hes e he).positions "tree_size" (by simp), hmem]

theorem packageErrors_ok {α : Type} {r : Except Raised α} {a : α} :
    packageErrors r = .ok a ↔ r = .ok a := by
  cases r with
  | ok b => simp [packageErrors]
  | error e => simp [packageErrors, refusePackage]

/-- **A decoded envelope is an accepted one.** -/
theorem decodeEnvelope_ok {raw : Bytes} {schema : CanonicalSchema} {root : HashValue}
    {manifestBytes : ℤ} {encoding : String} {envelope : Json}
    (h : decodeEnvelope nfc raw schema root manifestBytes encoding = .ok envelope) :
    ∃ encoded, validateBody nfc envelope schema root manifestBytes = .ok encoded := by
  obtain ⟨_, -, h⟩ := Except.bind_eq_ok.1 h
  split_ifs at h
  · cases h
  · split at h
    · cases h
    · rename_i w hw
      split at h
      · rename_i encoded hv
        cases h
        exact ⟨encoded, packageErrors_ok.1 hv⟩
      · cases h

/-- A row that passes shows no binary position but for nulls under binary fields. -/
theorem CanonicalSchema.BinaryRow.nullBinaryRow {schema : CanonicalSchema}
    {entry : List (String × Json)} {rowBytes : Bytes}
    (h : entryRow nfc schema entry = .ok rowBytes)
    (hb : schema.BinaryRow nfc (get entry "row")) : schema.NullBinaryRow nfc (get entry "row") := by
  obtain ⟨hrow, triples, row, htriples, hlogical⟩ := entryRow_ok h
  obtain ⟨normalized, hn, hrow⟩ := Except.bind_eq_ok.1 hrow
  obtain ⟨out, hout, hrow⟩ := Except.bind_eq_ok.1 hrow
  obtain ⟨encoded, hencoded, hrow⟩ := Except.bind_eq_ok.1 hrow
  split_ifs at hrow
  · cases hrow
  · cases hrow
    obtain ⟨l, hl, hfields⟩ := recordOf_ok hn
    have hdict : rowFields (get entry "row") = l := by
      cases hv : get entry "row" with
      | obj d =>
        rw [hv] at hl
        exact PyValue.dict.inj hl
      | _ =>
        rw [hv] at hl
        cases hl
    obtain ⟨hplain, -⟩ := record_spec schema.descriptors hfields hout
    obtain ⟨hnormal, hdicts⟩ := PlainList.normal hplain
    -- the canonical row is read as the triples that were written
    have hload : Json.loadBytes Json.dict rowBytes = some (.arr out.1) :=
      loadBytes_canonicalJsonBytes keepsDistinct_dict (v := .arr out.1) hdicts (Or.inl ⟨_, rfl⟩)
        (by rw [normalize, hnormal]; rfl) hencoded
    rw [jsonLoads, hload] at htriples
    cases htriples
    obtain ⟨triples, hitems, hlogical⟩ := Except.bind_eq_ok.1 hlogical
    cases hitems
    obtain ⟨w, hw, -⟩ := Except.bind_eq_ok.1 hlogical
    rw [BinaryRow, hdict] at hb
    rw [NullBinaryRow, hdict]
    exact BinaryField.nullBinaryField hfields hout hw hb

/-- **An accepted envelope discloses no binary position exactly when no row of it
    has null under a field declared binary**: every other binary position is
    refused, at any depth, and that null passes. -/
theorem validateEnvelope_binary_iff {envelope : Json} {schema : CanonicalSchema} {root : HashValue}
    {manifestBytes : ℤ} {encoded : Bytes}
    (h : validateEnvelope nfc envelope schema root manifestBytes = .ok encoded) :
    (∀ entry ∈ getList (asObj envelope) "entries",
        ¬ schema.BinaryRow nfc (get (asObj entry) "row")) ↔
      ∀ entry ∈ getList (asObj envelope) "entries",
        ¬ schema.NullBinaryRow nfc (get (asObj entry) "row") := by
  constructor
  · intro hb entry he hn
    exact hb entry he (NullBinaryField.binaryField hn)
  · intro hn entry he hb
    obtain ⟨-, -, es, hes, haccepted⟩ := validateBody_ok (packageErrors_ok.1 h)
    rw [getList, hes] at he
    obtain ⟨e, hmem, rfl⟩ := List.mem_map.1 he
    obtain ⟨rowBytes, hrow⟩ := (haccepted.entry e hmem).row
    refine hn (.obj e) (by rw [getList, hes]; exact List.mem_map_of_mem hmem) ?_
    exact CanonicalSchema.BinaryRow.nullBinaryRow hrow hb

end

/-- One nullable field of binary type. -/
def blobSchema : CanonicalSchema where
  descriptors := .cons "b" .binary true .nil
  sourceNames := ["b"]
  bytes := ascii "[[\"b\",\"binary\",true,\x7b\x7d]]"
  canonical := by decide +kernel

/-- A proof of the only leaf, whose row is null. -/
def blobEntry : Json := .obj
  [("proof_id", .str "00000000-0000-0000-0000-000000000003"), ("row", .obj [("b", .null)]),
    ("base_row_digest", .str "n5cstcVFtPaZ13frGhuKHqddsMafGk_p5RR7jhrjDGo"),
    ("duplicate_ordinal", .int 0), ("leaf_index", .int 0), ("tree_size", .int 1),
    ("siblings", .arr [])]

def blobEnvelope : Json := .obj
  [("package_profile", .str packageProfile),
    ("commitment_id", .str "00000000-0000-0000-0000-000000000001"),
    ("schema_digest", .str "bqd42NTdvHax3nOXD_4rcyUnMtk6yqKFKnPOyyOZKx0"),
    ("disclosure_version", .str "00000000-0000-0000-0000-000000000002"),
    ("sample_hash", .str "524ae5a9e8482f79126d7b5279578bc125589938fd68ff95667a29b8a805dd30"),
    ("entries", .arr [blobEntry])]

def blobRoot : HashValue := .text "itJafTyFKvKVsKB5BSDiejxUUgMMxKoGGE7ykZAnJvY"

theorem blobEnvelope_accepted :
    ∃ encoded, validateEnvelope id blobEnvelope blobSchema blobRoot 1000 = .ok encoded :=
  Except.exists_of_isOk (by decide +kernel)

/-- An accepted envelope with null at a binary position. -/
theorem validateEnvelope_null_binary :
    ∃ encoded, validateEnvelope id blobEnvelope blobSchema blobRoot 1000 = .ok encoded ∧
      ∃ entry ∈ getList (asObj blobEnvelope) "entries",
        blobSchema.BinaryRow id (get (asObj entry) "row") := by
  obtain ⟨encoded, h⟩ := blobEnvelope_accepted
  exact ⟨encoded, h, blobEntry, List.mem_singleton_self _, Or.inl ⟨.none, rfl, trivial⟩⟩

theorem validateEnvelope_binary_iff_blob :
    (∀ entry ∈ getList (asObj blobEnvelope) "entries",
        ¬ blobSchema.BinaryRow id (get (asObj entry) "row")) ↔
      ∀ entry ∈ getList (asObj blobEnvelope) "entries",
        ¬ blobSchema.NullBinaryRow id (get (asObj entry) "row") := by
  obtain ⟨encoded, h⟩ := blobEnvelope_accepted
  exact validateEnvelope_binary_iff h

end AimData
