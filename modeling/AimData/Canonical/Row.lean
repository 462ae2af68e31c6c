/-
  `CanonicalSchema.canonical_row`: the canonical text of a record.

  A value is read by its declared type: every scalar type has its normalizer,
  and lists and objects recurse.  The types and values are counted against
  `maxNodes` and their nesting against `maxDepth`.
-/
import AimData.Canonical.Schema
import AimData.Canonical.Timestamp

namespace AimData

/-! ## Source values -/

/-- A dict key: a text, or what `nfc` refuses (another type, or a text with a
    lone surrogate). -/
inductive PyKey where
  | text (s : String)
  | broken
  deriving DecidableEq, Repr

/-- A value read from a source.  A `datetime` is what its `isoformat` writes;
    `other` is a value that no type admits (a float, a text with a lone
    surrogate, a decimal that is not finite). -/
inductive PyValue where
  | none
  | bool (b : Bool)
  | int (i : ℤ)
  | str (s : String)
  | decimal (d : PyDecimal)
  | bytes (b : Bytes)
  | date (d : Date)
  | datetime (isoformat : String)
  | list (l : List PyValue)
  | dict (l : List (PyKey × PyValue))
  | other

def maxRecordBytes : ℕ := 8 * 1024 * 1024

/-! ## Scalars -/

def stringValue (nfc : String → String) : PyValue → Except CommitmentValidationError Json
  | .str s => .ok (.str (nfc s))
  | _ => refuse "invalid_unicode"

def booleanValue (text : Bool) : PyValue → Except CommitmentValidationError Json
  | .bool b => .ok (.bool b)
  | .str s =>
    if text = true ∧ s ∈ ["true", "false"] then .ok (.bool (s = "true"))
    else refuse "invalid_boolean"
  -- a list and a dict have no hash for `value in {"true", "false"}`
  | .list _ => if text then raised "TypeError" else refuse "invalid_boolean"
  | .dict _ => if text then raised "TypeError" else refuse "invalid_boolean"
  | _ => refuse "invalid_boolean"

def signedIntegerValue : PyValue → Except CommitmentValidationError Json
  | .int i => do return .str (← normalizeInteger i)
  | .str s => do return .str (← normalizeIntegerText s)
  | _ => refuse "invalid_integer"

/-- `Decimal(value)` -/
def decimalOf : PyValue → Option PyDecimal
  | .int i => some (.ofInt i)
  | .str s => PyDecimal.ofText? s
  | .decimal d => some d
  | _ => none

def decimalValue (params : DecimalParameters) (v : PyValue) :
    Except CommitmentValidationError Json :=
  match decimalOf v with
  | some number => do return .str (← normalizeDecimal params number)
  | none => refuse "invalid_decimal"

def dateValue : PyValue → Except CommitmentValidationError Json
  | .date d => .ok (.str (String.ofList (isoDate d.1)))
  | .str s => do return .str (← normalizeDateText s)
  | _ => refuse "invalid_date"

/-- The text of a timestamp. -/
def timestampOf : PyValue → Option String
  | .datetime s => some s
  | .str s => some s
  | _ => none

def timestampValue (precision : Fin 10) (offset : Option String) (v : PyValue) :
    Except CommitmentValidationError Json :=
  match timestampOf v with
  | some s => do return .str (← normalizeTimestamp s precision.1 offset)
  | none => refuse "invalid_timestamp"

def binaryValue : PyValue → Except CommitmentValidationError Json
  | .bytes b => .ok (.str (encodeBase64url b))
  | _ => refuse "invalid_binary"

namespace CanonicalSchema

/-! ## Records -/

section
variable (nfc : String → String) (text : Bool) (offset : Option String)

/-- One value counted, at a depth. -/
def countValue (depth count : ℕ) : Except CommitmentValidationError ℕ :=
  if count + 1 > maxNodes then refuse "node_limit"
  else if depth > maxDepth then refuse "depth_limit"
  else .ok (count + 1)

/-- The head of `_value`: count the value, and pass `None` through. -/
def counted (v : PyValue) (depth count : ℕ)
    (body : ℕ → Except CommitmentValidationError (Json × ℕ)) :
    Except CommitmentValidationError (Json × ℕ) := do
  let count ← countValue depth count
  match v with
  | .none => return (.null, count)
  | _ => body count

def scalar (r : Except CommitmentValidationError Json) (count : ℕ) :
    Except CommitmentValidationError (Json × ℕ) := do
  return (← r, count)

/-- A list, its elements written by `element`. -/
def arrayValue (element : PyValue → ℕ → Except CommitmentValidationError (Json × ℕ)) :
    List PyValue → ℕ → Except CommitmentValidationError (List Json × ℕ)
  | [], count => .ok ([], count)
  | v :: l, count => do
    let (j, count) ← element v count
    let (js, count) ← arrayValue element l count
    return (j :: js, count)

/-- The values of a record under their normalized names. -/
def normalizeKeys : List (PyKey × PyValue) → List String →
    Except CommitmentValidationError (List (String × PyValue))
  | [], _ => .ok []
  | (.broken, _) :: _, _ => refuse "invalid_unicode"
  | (.text key, v) :: l, names =>
    if nfc key ∈ names then refuse "duplicate_field"
    else do return (nfc key, v) :: (← normalizeKeys l (nfc key :: names))

def lookup (normalized : List (String × PyValue)) (name : String) : Option PyValue :=
  (normalized.find? fun f => f.1 = name).map Prod.snd

/-- The head of `_record`: normalize the names, and refuse unknown ones. -/
def recordOf (names : List String) (v : PyValue) :
    Except CommitmentValidationError (List (String × PyValue)) :=
  match v with
  | .dict l => do
    let normalized ← normalizeKeys nfc l []
    if normalized.all (fun f => f.1 ∈ names) then return normalized else refuse "unknown_field"
  | _ => refuse "invalid_record"

/-- The list that stands for one field. -/
def fieldJson (name tag : String) (v : Json) : Json := .arr [.str name, .str tag, v]

/-- The body of `_record`'s loop: a field that is missing, null or written by
    `body`. -/
def fieldValue (name tag : String) (nullable : Bool) (depth : ℕ) (found : Option PyValue)
    (body : PyValue → ℕ → Except CommitmentValidationError (Json × ℕ)) (count : ℕ) :
    Except CommitmentValidationError (Json × ℕ) :=
  match found with
  | none => do return (fieldJson name "missing" .null, ← countValue depth count)
  | some .none => do
    let count ← countValue depth count
    if nullable then return (fieldJson name "null" .null, count) else refuse "null_not_allowed"
  | some v => do
    let (j, count) ← body v count
    return (fieldJson name tag j, count)

mutual
/-- `_value` -/
def value : LogicalType → PyValue → ℕ → ℕ → Except CommitmentValidationError (Json × ℕ)
  | .string, v, depth, count => counted v depth count (scalar (stringValue nfc v))
  | .boolean, v, depth, count => counted v depth count (scalar (booleanValue text v))
  | .signedInteger, v, depth, count => counted v depth count (scalar (signedIntegerValue v))
  | .decimal params, v, depth, count => counted v depth count (scalar (decimalValue params v))
  | .date, v, depth, count => counted v depth count (scalar (dateValue v))
  | .timestamp p, v, depth, count => counted v depth count (scalar (timestampValue p offset v))
  | .binary, v, depth, count => counted v depth count (scalar (binaryValue v))
  | .array element, v, depth, count => counted v depth count fun count =>
    match v with
    | .list l => do
      let (js, count) ← arrayValue (fun v count => value element v (depth + 1) count) l count
      return (.arr js, count)
    | _ => refuse "invalid_array"
  | .object fields, v, depth, count => counted v depth count fun count => do
    let normalized ← recordOf nfc fields.names v
    let (js, count) ← record fields normalized (depth + 1) count
    return (.arr js, count)

/-- The loop of `_record`, over the declared fields. -/
def record : Fields → List (String × PyValue) → ℕ → ℕ →
    Except CommitmentValidationError (List Json × ℕ)
  | .nil, _, _, count => .ok ([], count)
  | .cons name type nullable rest, normalized, depth, count => do
    let (j, count) ← fieldValue name type.tag nullable depth (lookup normalized name)
      (fun v count => value type v depth count) count
    let (js, count) ← record rest normalized depth count
    return (j :: js, count)
end

def canonicalRow (schema : CanonicalSchema) (v : PyValue) :
    Except CommitmentValidationError Bytes := do
  let normalized ← recordOf nfc schema.descriptors.names v
  let (js, _) ← record nfc text offset schema.descriptors normalized 0 0
  let encoded ← canonicalJsonBytes (.arr js)
  if encoded.length > maxRecordBytes then refuse "record_resource_limit" else return encoded

end

end CanonicalSchema

end AimData
