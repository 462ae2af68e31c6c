/-
  `CanonicalSchema`: declared fields, checked and put in canonical order.

  A descriptor is `[name, type, nullable, type_parameters]`.  The constructor
  normalizes the names, counts the types and bounds their nesting; what it
  builds is a typed schema (`Fields`), whose canonical text is hashed.
-/
import AimData.Canonical.Number
import AimData.Merkle.CanonicalJson

namespace AimData

/-! ## Types -/

mutual
/-- A declared type with its checked parameters. -/
inductive LogicalType where
  | boolean
  | signedInteger
  | decimal (params : DecimalParameters)
  | string
  | date
  | timestamp (precision : Fin 10)
  | binary
  | array (element : LogicalType)
  | object (fields : Fields)

/-- The fields of a record: name, type, nullable. -/
inductive Fields where
  | nil
  | cons (name : String) (type : LogicalType) (nullable : Bool) (rest : Fields)
end

def LogicalType.tag : LogicalType → String
  | .boolean => "boolean"
  | .signedInteger => "signed_integer"
  | .decimal _ => "decimal"
  | .string => "string"
  | .date => "date"
  | .timestamp _ => "timestamp"
  | .binary => "binary"
  | .array _ => "array"
  | .object _ => "object"

mutual
/-- The `type_parameters` of a type. -/
def LogicalType.parameters : LogicalType → Json
  | .decimal p => .obj [("precision", .int p.precision), ("scale", .int p.scale)]
  | .timestamp p => .obj [("timestamp_precision", .int p.1)]
  | .array e => .obj [("element_type", .obj [("type", .str e.tag), ("type_parameters", e.parameters)])]
  | .object fs => .obj [("object_fields", .arr fs.objects)]
  | _ => .obj []

/-- The `object_fields` of an object type. -/
def Fields.objects : Fields → List Json
  | .nil => []
  | .cons name type nullable rest =>
    .obj [("name", .str name), ("type", .str type.tag), ("nullable", .bool nullable),
      ("type_parameters", type.parameters)] :: rest.objects
end

/-- The descriptors of a schema. -/
def Fields.descriptors : Fields → List Json
  | .nil => []
  | .cons name type nullable rest =>
    .arr [.str name, .str type.tag, .bool nullable, type.parameters] :: rest.descriptors

mutual
/-- The type is binary, or has a binary type in it. -/
def LogicalType.hasBinary : LogicalType → Bool
  | .binary => true
  | .array e => e.hasBinary
  | .object fs => fs.hasBinary
  | _ => false

/-- `schema_has_binary` -/
def Fields.hasBinary : Fields → Bool
  | .nil => false
  | .cons _ type _ rest => type.hasBinary || rest.hasBinary
end

def Fields.names : Fields → List String
  | .nil => []
  | .cons name _ _ rest => name :: rest.names

/-! ## The constructor -/

def maxNodes : ℕ := 10000
def maxDepth : ℕ := 16
def maxFields : ℕ := 500

section
variable (nfc : String → String)

/-- `nfc(value)` of a JSON value. -/
def nfcJson : Json → Except CommitmentValidationError String
  | .str s => .ok (nfc s)
  | _ => refuse "invalid_unicode"

/-- `set(value) == keys` -/
def keysAre (l : List (String × Json)) (keys : List String) : Bool :=
  l.all (fun f => f.1 ∈ keys) ∧ keys.all (· ∈ l.map Prod.fst)

def field? (l : List (String × Json)) (key : String) : Option Json :=
  (l.find? fun f => f.1 = key).map Prod.snd

/-- One declared type counted. -/
def countNode (nodes : ℕ) : Except CommitmentValidationError ℕ :=
  if nodes + 1 > maxNodes then refuse "node_limit" else .ok (nodes + 1)

/-- A list of descriptors: the names are normalized and distinct. `typeOf`
    checks a type and counts its nodes. -/
def fieldsOf (typeOf : String → Json → ℕ → Except CommitmentValidationError (LogicalType × ℕ)) :
    List Json → List String → ℕ →
    Except CommitmentValidationError (List (String × LogicalType × Bool) × ℕ)
  | [], _, nodes => .ok ([], nodes)
  | .arr [name, tag, nullable, params] :: rest, names, nodes => do
    let name ← nfcJson nfc name
    if ¬ (1 ≤ name.length ∧ name.length ≤ 255) then refuse "invalid_field_name"
    else if name ∈ names then refuse "duplicate_field"
    else match tag, nullable with
      | .str tag, .bool nullable => do
        let (type, nodes) ← typeOf tag params nodes
        let (out, nodes) ← fieldsOf typeOf rest (name :: names) nodes
        return ((name, type, nullable) :: out, nodes)
      | _, _ => refuse "invalid_schema"
  | _ :: _, _, _ => refuse "invalid_schema"

def Fields.ofList : List (String × LogicalType × Bool) → Fields
  | [] => .nil
  | (name, type, nullable) :: l => .cons name type nullable (ofList l)

/-- `sorted(out, key=lambda f: f[0].encode("utf-8"))` -/
def sortFields (l : List (String × LogicalType × Bool)) : List (String × LogicalType × Bool) :=
  l.insertionSort fun a b => Utf8.encode a.1.toList ≤ Utf8.encode b.1.toList

/-- `_fields` with the types checked by `typeOf`. -/
def fields (typeOf : String → Json → ℕ → Except CommitmentValidationError (LogicalType × ℕ))
    (raw : Json) (nodes : ℕ) : Except CommitmentValidationError (Fields × ℕ) :=
  match raw with
  | .arr [] => refuse "invalid_schema"
  | .arr l =>
    if l.length > maxFields then refuse "field_limit"
    else do
      let (out, nodes) ← fieldsOf nfc typeOf l [] nodes
      return (Fields.ofList (sortFields out), nodes)
  | _ => refuse "invalid_schema"

def decimalParameters (l : List (String × Json)) : Option DecimalParameters :=
  if keysAre l ["precision", "scale"] then
    match field? l "precision", field? l "scale" with
    | some (.int p), some (.int s) =>
      if h : (1 ≤ p ∧ p ≤ 1000) ∧ 0 ≤ s ∧ s ≤ p then some ⟨p.toNat, s.toNat, by omega⟩ else none
    | _, _ => none
  else none

def timestampPrecision (l : List (String × Json)) : Option (Fin 10) :=
  if keysAre l ["timestamp_precision"] then
    match field? l "timestamp_precision" with
    | some (.int p) => if h : 0 ≤ p ∧ p ≤ 9 then some ⟨p.toNat, by omega⟩ else none
    | _ => none
  else none

/-- `[f["name"], f["type"], f["nullable"], f["type_parameters"]]` -/
def objectField : Json → Option Json
  | .obj l =>
    if keysAre l ["name", "type", "nullable", "type_parameters"] then do
      return .arr [← field? l "name", ← field? l "type", ← field? l "nullable",
        ← field? l "type_parameters"]
    else none
  | _ => none

/-- `_type`, with the levels that `depth` may still descend. -/
def typeOf : ℕ → String → Json → ℕ → Except CommitmentValidationError (LogicalType × ℕ)
  | 0, _, _, nodes => do
    let _ ← countNode nodes
    refuse "depth_limit"
  | levels + 1, tag, params, nodes => do
    let nodes ← countNode nodes
    match tag, params with
    | "decimal", .obj l =>
      match decimalParameters l with
      | some p => return (.decimal p, nodes)
      | none => refuse "invalid_decimal_parameters"
    | "timestamp", .obj l =>
      match timestampPrecision l with
      | some p => return (.timestamp p, nodes)
      | none => refuse "invalid_timestamp_parameters"
    | "array", .obj l =>
      match keysAre l ["element_type"], field? l "element_type" with
      | true, some (.obj e) =>
        if keysAre e ["type", "type_parameters"] then
          match field? e "type", field? e "type_parameters" with
          | some (.str tag), some params => do
            let (element, nodes) ← typeOf levels tag params nodes
            return (.array element, nodes)
          | _, _ => do
            -- the element is counted before its tag is looked at
            let _ ← countNode nodes
            if levels = 0 then refuse "depth_limit" else refuse "unsupported_logical_type"
        else refuse "invalid_schema"
      | _, _ => refuse "invalid_schema"
    | "object", .obj l =>
      match keysAre l ["object_fields"], field? l "object_fields" with
      | true, some (.arr raw) =>
        match raw.mapM objectField with
        | some descriptors => do
          let (fs, nodes) ← fields nfc (typeOf levels) (.arr descriptors) nodes
          return (.object fs, nodes)
        | none => refuse "invalid_schema"
      | _, _ => refuse "invalid_schema"
    | "boolean", .obj [] => return (.boolean, nodes)
    | "signed_integer", .obj [] => return (.signedInteger, nodes)
    | "string", .obj [] => return (.string, nodes)
    | "date", .obj [] => return (.date, nodes)
    | "binary", .obj [] => return (.binary, nodes)
    | tag, .obj _ =>
      if tag ∈ ["boolean", "signed_integer", "string", "date", "binary"] then refuse "invalid_schema"
      else refuse "unsupported_logical_type"
    | tag, _ =>
      if tag ∈ ["boolean", "signed_integer", "decimal", "string", "date", "timestamp", "binary",
          "array", "object"] then refuse "invalid_schema"
      else refuse "unsupported_logical_type"

end

def computeSchemaDigest (canonicalSchemaBytes : Bytes) : Digest :=
  sha256 (ascii "aim-schema-v1\x00" ++ canonicalSchemaBytes)

/-- A schema: its fields in canonical order, and their canonical text. -/
structure CanonicalSchema where
  descriptors : Fields
  sourceNames : List String
  bytes : Bytes
  canonical : canonicalJsonBytes (.arr descriptors.descriptors) = .ok bytes

def CanonicalSchema.digest (schema : CanonicalSchema) : Digest := computeSchemaDigest schema.bytes

/-- `nfc(f[0])` of a descriptor that `_fields` accepted. -/
def sourceName (nfc : String → String) : Json → Except CommitmentValidationError String
  | .arr (name :: _) => nfcJson nfc name
  | _ => refuse "invalid_schema"

/-- `CanonicalSchema(descriptors)` -/
def canonicalSchema (nfc : String → String) (descriptors : Json) :
    Except CommitmentValidationError CanonicalSchema := do
  let (fs, _) ← fields nfc (typeOf nfc (maxDepth + 1)) descriptors 0
  let sourceNames ← match descriptors with
    | .arr l => l.mapM (sourceName nfc)
    | _ => refuse "invalid_schema"
  match h : canonicalJsonBytes (.arr fs.descriptors) with
  | .ok bytes => return ⟨fs, sourceNames, bytes, h⟩
  | .error e => .error e

end AimData
