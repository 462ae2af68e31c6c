/-
  What the connector makes of the bytes of an artifact.

  An artifact is one table, or an archive of tables.  The probe before a quote looks at the
  schema of each table (`validateArtifactSchema`); a scan reads every value of it as well
  (`scanBytes`), and does not fail where all of them have canonical bytes
  (`scanObject_ok_iff`).
-/
import Mathlib.Data.List.ReduceOption
import AimData.Eolymp.Connector
import AimData.S3.Scan

namespace AimData

namespace Eolymp

/-! ## Arrow tables -/

/-- The classes of Arrow types that `_type_name` tells apart. -/
inductive DataType where
  | boolean
  | integer
  | floating
  | decimal
  | timestamp
  | date
  | binary
  | largeBinary
  | fixedSizeBinary
  | null
  | string
  | largeString
  | other
  deriving DecidableEq

/-- A value of `to_pylist` that is not `None`: one of a half float may be of numpy. -/
inductive PyValue where
  | value (v : Value)
  | float16
  deriving DecidableEq

/-- A column as Arrow has it.  Its chunks may not fit one array, and some of its values may
    have no counterpart in Python, so that `to_pylist` raises. -/
structure RawColumn where
  name : String
  dataType : DataType
  nullCount : ℕ
  combines : Bool
  toPylist : Option (List (Option PyValue))

structure RawTable where
  numRows : ℕ
  columns : List RawColumn
  nullCount_le : ∀ column ∈ columns, column.nullCount ≤ numRows

/-- `_type_name` -/
def typeName : DataType → Except Raised ColumnType
  | .boolean => .ok .boolean
  | .integer => .ok .integer
  | .floating => .ok .float
  | .decimal => .ok .decimal
  | .timestamp => .ok .datetime
  | .date => .ok .date
  | .binary | .largeBinary | .fixedSizeBinary => .ok .binary
  | .null => .ok .unknown
  | .string | .largeString => .ok .string
  | .other => raise "UnsupportedConnectorShape" "artifact column type is unsupported"

def maxColumnNameLength : ℕ := 256

/-- `_validated_column_types`; every name of a type is approved. -/
def validatedColumnTypes (table : RawTable) : Except Raised (List ColumnType) := do
  S3.check (∀ column ∈ table.columns, column.name.length ≤ maxColumnNameLength)
    ⟨"UnsupportedConnectorShape", "artifact column name exceeds 256 characters"⟩
  table.columns.mapM fun column => typeName column.dataType

/-! ## Objects -/

inductive Format where
  | csv
  | tsv
  | json
  | parquet
  deriving DecidableEq

/-- `SUPPORTED_SUFFIXES`, from the longest, with what reads them. -/
def supportedSuffixes : List (String × Format) :=
  [(".parquet", .parquet), (".jsonl", .json), (".json", .json), (".csv", .csv), (".tsv", .tsv)]

/-- What the connector uses to read bytes: `str.lower`, `zipfile`, the readers of Arrow, and
    its arithmetic in floating point. -/
structure Reader where
  lower : String → String
  isZipfile : Bytes → Bool
  infolist : Bytes → Except Raised (List String)
  read : Bytes → String → Except Raised Bytes
  table : Format → Bytes → Option RawTable
  estimate : List ℕ → ℕ
  double : Value → ℚ

/-- `OSError` and its subclasses. -/
def osErrors : List String :=
  ["OSError", "BlockingIOError", "ChildProcessError", "ConnectionError", "BrokenPipeError",
    "ConnectionAbortedError", "ConnectionRefusedError", "ConnectionResetError", "FileExistsError",
    "FileNotFoundError", "InterruptedError", "IsADirectoryError", "NotADirectoryError",
    "PermissionError", "ProcessLookupError", "TimeoutError"]

/-- `except (OSError, zipfile.BadZipFile, RuntimeError)` -/
def archiveErrors : List String :=
  osErrors ++ ["BadZipFile", "RuntimeError", "NotImplementedError", "RecursionError"]

/-- What is read of an archive. -/
def ofArchive {α : Type} (x : Except Raised α) : Except Raised α :=
  x.mapError fun e =>
    if e.type ∈ archiveErrors then ⟨"UnsupportedConnectorShape", "archive could not be decoded"⟩
    else e

section
variable (reader : Reader)

/-- `_suffix`, as what reads an object of the name. -/
def suffix (name : String) : Option Format :=
  (supportedSuffixes.find? fun s => s.1.toList.isSuffixOf (reader.lower name).toList).map Prod.snd

/-- The names in an archive that are not directories. -/
def archiveNames (payload : Bytes) : Except Raised (List String) := do
  let entries ← reader.infolist payload
  let names := entries.filter fun name => name.toList.getLast? ≠ some '/'
  S3.check (names ≠ [] ∧ ∀ name ∈ names, (suffix reader name).isSome)
    ⟨"IncompleteCoverageError", "artifact traversal is not fully supported"⟩
  S3.check names.Nodup
    ⟨"IncompleteCoverageError", "artifact traversal identities are ambiguous"⟩
  return names

/-- An artifact that is no archive is of a supported type. -/
def supportedArtifact (artifactName : String) : Except Raised Unit :=
  S3.check (suffix reader artifactName).isSome
    ⟨"UnsupportedConnectorShape", "artifact type is unsupported"⟩

def registeredRoot : String := "registered-root"

/-- `_objects` -/
def objects (artifactName : String) (payload : Bytes) : Except Raised (List (String × Bytes)) :=
  if reader.isZipfile payload then
    ofArchive do
      let names ← archiveNames reader payload
      (names.insertionSort (· ≤ ·)).mapM fun name => do return (name, ← reader.read payload name)
  else do
    supportedArtifact reader artifactName
    return [(registeredRoot, payload)]

/-- `probe_object_count` -/
def probeObjectCount (artifactName : String) (payload : Bytes) : Except Raised ℕ :=
  if reader.isZipfile payload then
    ofArchive do return (← archiveNames reader payload).length
  else do
    supportedArtifact reader artifactName
    return 1

/-- `_read_table` -/
def readTable (name : String) (payload : Bytes) : Except Raised RawTable :=
  match suffix reader name with
  | none =>
    raise "UnsupportedConnectorShape" "artifact contains an unsupported object type"
  | some format =>
    match reader.table format payload with
    | none =>
      raise "UnsupportedConnectorShape" "supported tabular object could not be decoded"
    | some table => .ok table

/-- The name that tells how an object is read. -/
def objectName (artifactName identity : String) : String :=
  if identity ≠ registeredRoot then identity else artifactName

/-- The table of an object whose schema is validated. -/
def validateObject (artifactName : String) (object : String × Bytes) :
    Except Raised (RawTable × List ColumnType) := do
  let table ← readTable reader (objectName artifactName object.1) object.2
  return (table, ← validatedColumnTypes table)

/-- `validate_artifact_schema` -/
def validateArtifactSchema (artifactName : String) (payload : Bytes) : Except Raised Unit := do
  let sources ← objects reader artifactName payload
  let _ ← sources.mapM (validateObject reader artifactName)
  return ()

end

/-! ## Results -/

/-- What a signed specification sets for a scan. -/
structure SignedSpec where
  aggregates : ScanSpec
  maxInputTokens : ℕ
  previewRequested : Bool

/-- What a preview of the schema shows of an object. -/
structure PreviewRow where
  objectId : String
  columnNames : List String
  columnTypes : List ColumnType
  rowCount : ℕ
  deriving DecidableEq

def Fact.previewRow (fact : Fact) : PreviewRow where
  objectId := fact.objectId
  columnNames := fact.columnNames
  columnTypes := fact.columnTypes
  rowCount := fact.rowCount

/-- An object that is not scanned, and why. -/
structure Skipped where
  objectId : String
  reason : String
  deriving DecidableEq

structure Coverage where
  objectsDiscovered : ℕ
  objectsScanned : ℕ
  objectsSkippedByReason : List (String × ℕ)
  skipped : List Skipped
  deriving DecidableEq

structure ScanResult where
  coverage : Coverage
  objects : List Fact
  schemaPreview : Option (List PreviewRow)
  deriving DecidableEq

def ColumnType.text : ColumnType → String
  | string => "string"
  | integer => "integer"
  | float => "float"
  | decimal => "decimal"
  | boolean => "boolean"
  | date => "date"
  | datetime => "datetime"
  | binary => "binary"
  | unknown => "unknown"

def Published.json {α : Type} (json : α → Json) : Published α → Json
  | suppressed => .str "suppressed_low_occupancy"
  | value a => json a

def DistinctCount.json (count : DistinctCount) : Json :=
  .obj [("estimate", .int count.estimate), ("algorithm", .str count.algorithm),
    ("relative_error_ppm", .int count.relativeErrorPpm)]

/-- A histogram, `None` for a type that has none. -/
def histogramJson : Option (Published (List ℕ)) → Json
  | none => .null
  | some counts => counts.json fun l => .arr (l.map fun n => .int n)

def Fact.json (fact : Fact) : Json :=
  .obj [("object_id", .str fact.objectId), ("column_names", .arr (fact.columnNames.map .str)),
    ("column_types", .arr (fact.columnTypes.map fun type => .str type.text)),
    ("null_rate", .arr (fact.nullRate.map (Published.json fun text => .str (.ofList text)))),
    ("approx_distinct_count",
      .arr (fact.approxDistinctCount.map (Published.json DistinctCount.json))),
    ("length_histograms", .arr (fact.lengthHistograms.map histogramJson)),
    ("numeric_range_buckets", .arr (fact.numericRangeBuckets.map histogramJson)),
    ("row_count", .int fact.rowCount), ("row_count_method", .str "exact")]

def PreviewRow.json (row : PreviewRow) : Json :=
  .obj [("object_id", .str row.objectId), ("column_names", .arr (row.columnNames.map .str)),
    ("column_types", .arr (row.columnTypes.map fun type => .str type.text)),
    ("row_count", .int row.rowCount), ("row_count_method", .str "exact")]

def Skipped.json (skipped : Skipped) : Json :=
  .obj [("object_id", .str skipped.objectId), ("reason", .str skipped.reason)]

def Coverage.json (coverage : Coverage) : Json :=
  .obj [("objects_discovered", .int coverage.objectsDiscovered),
    ("objects_scanned", .int coverage.objectsScanned),
    ("objects_skipped_by_reason",
      .obj (coverage.objectsSkippedByReason.map fun (reason, n) => (reason, .int n))),
    ("skipped", .arr (coverage.skipped.map Skipped.json))]

def ScanResult.json (result : ScanResult) : Json :=
  .obj [("coverage", result.coverage.json), ("objects", .arr (result.objects.map Fact.json)),
    ("schema_preview", match result.schemaPreview with
      | none => .null
      | some rows => .arr (rows.map PreviewRow.json))]

/-- A result whose canonical bytes are within the budget of a specification. -/
def withinBudget (spec : SignedSpec) (refused : Raised) (result : ScanResult) :
    Except Raised ScanResult := do
  let bytes ← actionJsonBytes result.json
  S3.check (bytes.length ≤ spec.maxInputTokens * 4) refused
  return result

/-! ## Scanning -/

/-- `object_commitment` -/
def objectCommitment (commitmentKey sourceBinding : Bytes) (identity : String) : String :=
  hex (hmacSha256 commitmentKey
    (Utf8.encode "object\x00".toList ++ sourceBinding ++ 0 :: Utf8.encode identity.toList)).1

/-- `_canonical_local_value`, of which JSON has no text for some floats. -/
def canonicalBytes : PyValue → Except Raised Bytes
  | .value (.float text) => actionJsonBytes (.float text)
  | .value v => .ok (canonicalLocalValue v)
  | .float16 => raise "TypeError" "Object of type float16 is not JSON serializable"

def PyValue.value? : PyValue → Option Value
  | value v => some v
  | float16 => none

/-- `column.to_pylist()` -/
def RawColumn.pylist (column : RawColumn) : Except Raised (List (Option PyValue)) :=
  match column.toPylist with
  | some values => .ok values
  | none => raise "ValueError" "value is not representable"

/-- The null rate of a table of enough rows has a range of counts. -/
def nullRateSupported (spec : ScanSpec) (numRows nullCount : ℕ) : Except Raised Unit :=
  S3.check (numRows < spec.minimumAggregateOccupancy ∨
      Aggregate.Sparse spec.minimumAggregateOccupancy [nullCount, numRows - nullCount] ∨
      (nullRatePreimageRange (formatNullRate nullCount numRows) numRows).isSome)
    ⟨"ValueError", "formatted null rate has no integer preimage"⟩

section
variable (reader : Reader) (commitmentKey sourceBinding : Bytes) (spec : SignedSpec)

/-- What a scan publishes of a column. -/
def scanColumn (numRows index : ℕ) (column : RawColumn) (type : ColumnType) :
    Except Raised ColumnFact := do
  let values := (← column.pylist).reduceOption
  let _ ← values.mapM canonicalBytes
  nullRateSupported spec.aggregates numRows column.nullCount
  return columnFact spec.aggregates reader.estimate reader.double index numRows type
    column.nullCount (values.filterMap PyValue.value?)

/-- The facts of the columns from an index on. -/
def scanColumns (numRows : ℕ) : ℕ → List (RawColumn × ColumnType) → Except Raised (List ColumnFact)
  | _, [] => .ok []
  | index, (column, type) :: columns => do
    let fact ← scanColumn reader spec numRows index column type
    return fact :: (← scanColumns numRows (index + 1) columns)

/-- What a scan publishes of an object. -/
def scanObject (artifactName : String) (object : String × Bytes) : Except Raised Fact := do
  let table ← readTable reader (objectName artifactName object.1) object.2
  S3.check (∀ column ∈ table.columns, column.combines = true)
    ⟨"ArrowInvalid", "offset overflow while concatenating arrays"⟩
  let columnTypes ← validatedColumnTypes table
  let columns ← scanColumns reader spec table.numRows 0 (table.columns.zip columnTypes)
  return {
    objectId := objectCommitment commitmentKey sourceBinding object.1
    columnNames := table.columns.map RawColumn.name
    columnTypes := columnTypes
    nullRate := columns.map ColumnFact.nullRate
    approxDistinctCount := columns.map ColumnFact.approxDistinctCount
    lengthHistograms := columns.map ColumnFact.lengthHistogram
    numericRangeBuckets := columns.map ColumnFact.numericRangeBuckets
    rowCount := table.numRows }

/-- The result of a scan of as many objects. -/
def scanResult (objectsDiscovered : ℕ) (facts : List Fact) : ScanResult where
  coverage := ⟨objectsDiscovered, facts.length, [], []⟩
  objects := facts.insertionSort fun a b => a.objectId ≤ b.objectId
  schemaPreview :=
    if spec.previewRequested then
      some ((facts.map Fact.previewRow).insertionSort fun a b => a.objectId ≤ b.objectId)
    else none

/-- `EolympConnectorV1.scan_bytes` -/
def scanBytes (artifactName : String) (payload : Bytes) : Except Raised ScanResult := do
  let sources ← objects reader artifactName payload
  let facts ← sources.mapM (scanObject reader commitmentKey sourceBinding spec artifactName)
  withinBudget spec
    ⟨"BudgetIncompatibleError", "complete artifact exceeds the signed inference budget"⟩
    (scanResult spec sources.length facts)

end

/-! ## What a scan can read -/

/-- A value has canonical bytes: JSON has a text for it. -/
def PyValue.Canonical : PyValue → Prop
  | value (.float text) => Json.floatText text
  | value _ => True
  | float16 => False

/-- The chunks of a column fit one array, and its values have canonical bytes. -/
def RawColumn.Convertible (column : RawColumn) : Prop :=
  column.combines = true ∧
    ∃ values, column.toPylist = some values ∧ ∀ v, some v ∈ values → v.Canonical

/-- The tables of an artifact have only values that a scan can read. -/
def Scannable (reader : Reader) (artifactName : String) (payload : Bytes) : Prop :=
  ∀ sources, objects reader artifactName payload = .ok sources → ∀ object ∈ sources,
    ∀ table, readTable reader (objectName artifactName object.1) object.2 = .ok table →
      ∀ column ∈ table.columns, column.Convertible

theorem canonicalBytes_ok_iff {v : PyValue} : (∃ b, canonicalBytes v = .ok b) ↔ v.Canonical := by
  cases v with
  | float16 => simp [canonicalBytes, PyValue.Canonical, raise]
  | value v =>
    cases v with
    | float text =>
      rw [canonicalBytes, PyValue.Canonical, actionJsonBytes, finiteJson]
      split_ifs with h
      · exact iff_of_true ⟨_, rfl⟩ h
      · refine iff_of_false ?_ h
        rintro ⟨b, hb⟩
        cases hb
    | _ => simp [canonicalBytes, PyValue.Canonical]

/-- A null rate that is made of a count has a range of counts. -/
theorem nullRateSupported_ok {spec : ScanSpec} {numRows nullCount : ℕ} (h : nullCount ≤ numRows) :
    nullRateSupported spec numRows nullCount = .ok () := by
  rw [nullRateSupported, S3.check_ok, nullRatePreimageRange_format h]
  exact Or.inr (Or.inr rfl)

section
variable {reader : Reader} {commitmentKey sourceBinding : Bytes} {spec : SignedSpec}

theorem scanColumn_ok_iff {numRows index : ℕ} {column : RawColumn} {type : ColumnType}
    (h : column.nullCount ≤ numRows) :
    (∃ fact, scanColumn reader spec numRows index column type = .ok fact) ↔
      ∃ values, column.toPylist = some values ∧ ∀ v, some v ∈ values → v.Canonical := by
  have hvalues : ∀ values : List (Option PyValue),
      (∃ r, values.reduceOption.mapM canonicalBytes = .ok r) ↔
        ∀ v, some v ∈ values → v.Canonical := by
    intro values
    rw [List.mapM_ok_iff]
    simp only [List.reduceOption_mem_iff, canonicalBytes_ok_iff]
  constructor
  · rintro ⟨fact, hfact⟩
    rw [scanColumn] at hfact
    obtain ⟨values, hpylist, hfact⟩ := Except.bind_eq_ok.1 hfact
    obtain ⟨r, hr, -⟩ := Except.bind_eq_ok.1 hfact
    rw [RawColumn.pylist] at hpylist
    split at hpylist
    · next hsome =>
      cases hpylist
      exact ⟨values, hsome, (hvalues values).1 ⟨r, hr⟩⟩
    · cases hpylist
  · rintro ⟨values, hsome, hcanonical⟩
    obtain ⟨r, hr⟩ := (hvalues values).2 hcanonical
    have hpylist : column.pylist = .ok values := by rw [RawColumn.pylist, hsome]
    rw [scanColumn, hpylist]
    simp only [Except.ok_bind, hr, nullRateSupported_ok h]
    exact ⟨_, rfl⟩

theorem scanColumns_ok_iff {numRows : ℕ} {columns : List (RawColumn × ColumnType)} {index : ℕ}
    (h : ∀ column ∈ columns, column.1.nullCount ≤ numRows) :
    (∃ facts, scanColumns reader spec numRows index columns = .ok facts) ↔
      ∀ column ∈ columns, ∃ values, column.1.toPylist = some values ∧
        ∀ v, some v ∈ values → v.Canonical := by
  induction columns generalizing index with
  | nil => exact iff_of_true ⟨[], rfl⟩ (by simp)
  | cons column columns ih =>
    obtain ⟨column, type⟩ := column
    rw [List.forall_mem_cons] at h
    rw [List.forall_mem_cons, ← @scanColumn_ok_iff reader spec numRows index column type h.1,
      ← @ih (index + 1) h.2]
    rw [scanColumns]
    constructor
    · rintro ⟨facts, hfacts⟩
      obtain ⟨fact, hfact, hfacts⟩ := Except.bind_eq_ok.1 hfacts
      obtain ⟨rest, hrest, -⟩ := Except.bind_eq_ok.1 hfacts
      exact ⟨⟨fact, hfact⟩, rest, hrest⟩
    · rintro ⟨⟨fact, hfact⟩, rest, hrest⟩
      rw [hfact, Except.ok_bind, hrest, Except.ok_bind]
      exact ⟨_, rfl⟩

/-- **A scan of a table whose schema is valid reads every value.** -/
theorem scanObject_ok_iff {artifactName : String} {object : String × Bytes} {table : RawTable}
    {columnTypes : List ColumnType}
    (h : validateObject reader artifactName object = .ok (table, columnTypes)) :
    (∃ fact, scanObject reader commitmentKey sourceBinding spec artifactName object = .ok fact) ↔
      ∀ column ∈ table.columns, column.Convertible := by
  rw [validateObject] at h
  obtain ⟨table', htable, h⟩ := Except.bind_eq_ok.1 h
  obtain ⟨types, htypes, h⟩ := Except.bind_eq_ok.1 h
  cases h
  have hlength : columnTypes.length = table.columns.length := by
    rw [validatedColumnTypes] at htypes
    obtain ⟨⟨⟩, -, htypes⟩ := Except.bind_eq_ok.1 htypes
    exact List.mapM_ok_length htypes
  have hzip : ∀ column : RawColumn × ColumnType, column ∈ table.columns.zip columnTypes →
      column.1 ∈ table.columns := fun column hcolumn => (List.of_mem_zip hcolumn).1
  have hcolumns := @scanColumns_ok_iff reader spec table.numRows (table.columns.zip columnTypes) 0
    fun column hcolumn => table.nullCount_le column.1 (hzip column hcolumn)
  have hvalues : (∀ column ∈ table.columns.zip columnTypes, ∃ values,
      column.1.toPylist = some values ∧ ∀ v, some v ∈ values → v.Canonical) ↔
      ∀ column ∈ table.columns, ∃ values, column.toPylist = some values ∧
        ∀ v, some v ∈ values → v.Canonical := by
    constructor
    · intro hall column hcolumn
      obtain ⟨i, hi, rfl⟩ := List.mem_iff_getElem.1 hcolumn
      have hzipped : i < (table.columns.zip columnTypes).length := by
        rw [List.length_zip, hlength]
        omega
      have := hall _ (List.getElem_mem hzipped)
      rwa [List.getElem_zip] at this
    · exact fun hall column hcolumn => hall column.1 (hzip column hcolumn)
  rw [hvalues] at hcolumns
  rw [scanObject, htable, Except.ok_bind, htypes]
  constructor
  · rintro ⟨fact, hfact⟩ column hcolumn
    obtain ⟨⟨⟩, hcombines, hfact⟩ := Except.bind_eq_ok.1 hfact
    obtain ⟨types, htypes, hfact⟩ := Except.bind_eq_ok.1 hfact
    cases htypes
    obtain ⟨facts, hfacts, -⟩ := Except.bind_eq_ok.1 hfact
    exact ⟨S3.check_ok.1 hcombines column hcolumn, hcolumns.1 ⟨facts, hfacts⟩ column hcolumn⟩
  · intro hconvertible
    obtain ⟨facts, hfacts⟩ := hcolumns.2 fun column hcolumn => (hconvertible column hcolumn).2
    have hcombines : S3.check (∀ column ∈ table.columns, column.combines = true)
        (⟨"ArrowInvalid", "offset overflow while concatenating arrays"⟩ : Raised) = .ok () :=
      S3.check_ok.2 fun column hcolumn => (hconvertible column hcolumn).1
    rw [hcombines, Except.ok_bind, Except.ok_bind, hfacts]
    exact ⟨_, rfl⟩

/-! ## How a scan fails -/

/-- The types of exceptions that values raise. -/
def dataErrors : List String := ["ArrowInvalid", "ValueError", "TypeError"]

theorem scanColumn_error {numRows index : ℕ} {column : RawColumn} {type : ColumnType} {e : Raised}
    (h : scanColumn reader spec numRows index column type = .error e) : e.type ∈ dataErrors := by
  rw [scanColumn] at h
  rcases Except.bind_eq_error.1 h with h | ⟨values, -, h⟩
  · rw [RawColumn.pylist] at h
    split at h
    · cases h
    · cases h
      simp [dataErrors]
  rcases Except.bind_eq_error.1 h with h | ⟨r, -, h⟩
  · obtain ⟨v, -, hv⟩ := List.mapM_error h
    cases v with
    | float16 =>
      cases hv
      simp [dataErrors]
    | value v =>
      cases v with
      | float text =>
        rw [canonicalBytes, actionJsonBytes] at hv
        split_ifs at hv
        cases hv
        simp [dataErrors]
      | _ => cases hv
  rcases Except.bind_eq_error.1 h with h | ⟨_, -, h⟩
  · rw [nullRateSupported, S3.check_error] at h
    rw [← h.2]
    simp [dataErrors]
  · cases h

theorem scanColumns_error {numRows : ℕ} {e : Raised} {columns : List (RawColumn × ColumnType)}
    {index : ℕ} (h : scanColumns reader spec numRows index columns = .error e) :
    e.type ∈ dataErrors := by
  induction columns generalizing index with
  | nil => cases h
  | cons column columns ih =>
    rw [scanColumns] at h
    rcases Except.bind_eq_error.1 h with h | ⟨fact, -, h⟩
    · exact scanColumn_error h
    rcases Except.bind_eq_error.1 h with h | ⟨facts, -, h⟩
    · exact ih h
    · cases h

theorem readTable_error {name : String} {payload : Bytes} {e : Raised}
    (h : readTable reader name payload = .error e) : e.type = "UnsupportedConnectorShape" := by
  rw [readTable] at h
  split at h
  · cases h
    rfl
  · split at h
    · cases h
      rfl
    · cases h

theorem validatedColumnTypes_error {table : RawTable} {e : Raised}
    (h : validatedColumnTypes table = .error e) : e.type = "UnsupportedConnectorShape" := by
  rw [validatedColumnTypes] at h
  rcases Except.bind_eq_error.1 h with h | ⟨_, -, h⟩
  · rw [← (S3.check_error.1 h).2]
  · obtain ⟨column, -, hcolumn⟩ := List.mapM_error h
    cases htype : column.dataType with
    | other =>
      rw [htype] at hcolumn
      cases hcolumn
      rfl
    | _ =>
      rw [htype] at hcolumn
      cases hcolumn

/-- An object whose schema is valid is scanned, or one of its values raises. -/
theorem scanObject_of_valid {artifactName : String} {object : String × Bytes}
    {checked : RawTable × List ColumnType} {e : Raised}
    (h : validateObject reader artifactName object = .ok checked)
    (hscan : scanObject reader commitmentKey sourceBinding spec artifactName object = .error e) :
    e.type ∈ dataErrors := by
  rw [validateObject] at h
  obtain ⟨table, htable, h⟩ := Except.bind_eq_ok.1 h
  obtain ⟨types, htypes, -⟩ := Except.bind_eq_ok.1 h
  rw [scanObject, htable, Except.ok_bind] at hscan
  rcases Except.bind_eq_error.1 hscan with hscan | ⟨_, -, hscan⟩
  · rw [← (S3.check_error.1 hscan).2]
    simp [dataErrors]
  rw [htypes, Except.ok_bind] at hscan
  rcases Except.bind_eq_error.1 hscan with hscan | ⟨columns, -, hscan⟩
  · exact scanColumns_error hscan
  · cases hscan

/-- An object whose schema is not valid is unsupported, for the probe and for a scan, unless
    its chunks do not fit an array. -/
theorem scanObject_of_invalid {artifactName : String} {object : String × Bytes} {e : Raised}
    (h : validateObject reader artifactName object = .error e) :
    e.type = "UnsupportedConnectorShape" ∧ ∃ e',
      scanObject reader commitmentKey sourceBinding spec artifactName object = .error e' ∧
      (e'.type = "UnsupportedConnectorShape" ∨ e'.type = "ArrowInvalid") := by
  rw [validateObject] at h
  rcases Except.bind_eq_error.1 h with h | ⟨table, htable, h⟩
  · refine ⟨readTable_error h, e, ?_, Or.inl (readTable_error h)⟩
    rw [scanObject, h]
    rfl
  rcases Except.bind_eq_error.1 h with h | ⟨types, -, h⟩
  · refine ⟨validatedColumnTypes_error h, ?_⟩
    rw [scanObject, htable, Except.ok_bind]
    by_cases hcombines : ∀ column ∈ table.columns, column.combines = true
    · rw [(S3.check_ok (u := ())).2 hcombines, Except.ok_bind, h]
      exact ⟨e, rfl, Or.inl (validatedColumnTypes_error h)⟩
    · rw [S3.check_error.2 ⟨hcombines, rfl⟩]
      exact ⟨_, rfl, Or.inr rfl⟩
  · cases h

/-! ## Results are written -/

@[simp] theorem finiteJson_str (s : String) : finiteJson (.str s) = true := rfl

@[simp] theorem finiteJson_int (n : ℤ) : finiteJson (.int n) = true := rfl

@[simp] theorem finiteJson_null : finiteJson .null = true := rfl

@[simp] theorem finiteList_map {α : Type} {f : α → Json} {l : List α} :
    finiteList (l.map f) = true ↔ ∀ a ∈ l, finiteJson (f a) = true := by
  induction l with
  | nil => simp [finiteList]
  | cons a l ih => simp [finiteList, ih]

@[simp] theorem finiteFields_map {α : Type} {f : α → String × Json} {l : List α} :
    finiteFields (l.map f) = true ↔ ∀ a ∈ l, finiteJson (f a).2 = true := by
  induction l with
  | nil => simp [finiteFields]
  | cons a l ih => simp [finiteFields, ih]

theorem finite_published {α : Type} {f : α → Json} (h : ∀ a, finiteJson (f a) = true)
    (x : Published α) : finiteJson (x.json f) = true := by
  cases x with
  | suppressed => rfl
  | value a => exact h a

theorem finite_histogram (x : Option (Published (List ℕ))) :
    finiteJson (histogramJson x) = true := by
  cases x with
  | none => rfl
  | some counts =>
    refine finite_published (fun l => ?_) counts
    rw [finiteJson]
    exact finiteList_map.2 fun n _ => rfl

theorem finite_fact (fact : Fact) : finiteJson fact.json = true := by
  simp only [Fact.json, finiteJson, finiteFields, finiteList_map, Bool.and_true, Bool.true_and,
    Bool.and_eq_true]
  exact ⟨fun _ _ => trivial, fun _ _ => trivial, fun x _ => finite_published (fun _ => rfl) x,
    fun x _ => finite_published (fun _ => rfl) x, fun x _ => finite_histogram x,
    fun x _ => finite_histogram x⟩

theorem finite_previewRow (row : PreviewRow) : finiteJson row.json = true := by
  simp [PreviewRow.json, finiteJson, finiteFields]

theorem finite_coverage (coverage : Coverage) : finiteJson coverage.json = true := by
  simp [Coverage.json, finiteJson, finiteFields, Skipped.json]

/-- A result has no float. -/
theorem finite_result (result : ScanResult) : finiteJson result.json = true := by
  obtain ⟨coverage, facts, preview⟩ := result
  cases preview with
  | none => simp [ScanResult.json, finiteJson, finiteFields, finite_coverage, finite_fact]
  | some rows => simp [ScanResult.json, finiteJson, finiteFields, finite_coverage, finite_fact,
      finite_previewRow]

theorem actionJsonBytes_result (result : ScanResult) :
    actionJsonBytes result.json = .ok (Utf8.encode (sortedJson result.json).dumps) := by
  rw [actionJsonBytes, finite_result, if_pos rfl]

/-- A result is within a budget of as many tokens as it has bytes. -/
theorem withinBudget_ownLength (result : ScanResult) {aggregates : ScanSpec} {preview : Bool}
    {refused : Raised} :
    withinBudget ⟨aggregates, (Utf8.encode (sortedJson result.json).dumps).length, preview⟩ refused
      result = .ok result := by
  have hle : ∀ n : ℕ, n ≤ n * 4 := fun n => by omega
  rw [withinBudget, actionJsonBytes_result, Except.ok_bind, (S3.check_ok (u := ())).2 (hle _)]
  rfl

/-! ## Scans of artifacts -/

/-- A scan within its budget completes: it has a result, and gives it with every budget that
    the canonical bytes of the result are within. -/
def Completes (reader : Reader) (commitmentKey sourceBinding : Bytes) (spec : SignedSpec)
    (artifactName : String) (payload : Bytes) : Prop :=
  ∃ result bytes, actionJsonBytes result.json = .ok bytes ∧
    ∀ tokens, bytes.length ≤ tokens * 4 →
      scanBytes reader commitmentKey sourceBinding { spec with maxInputTokens := tokens }
        artifactName payload = .ok result

theorem validateArtifactSchema_ok {artifactName : String} {payload : Bytes} :
    validateArtifactSchema reader artifactName payload = .ok () ↔
      ∃ sources, objects reader artifactName payload = .ok sources ∧
        ∀ object ∈ sources, ∃ checked, validateObject reader artifactName object = .ok checked := by
  rw [validateArtifactSchema, Except.bind_eq_ok]
  refine exists_congr fun sources => and_congr_right fun _ => ?_
  rw [← List.mapM_ok_iff, Except.bind_eq_ok]
  constructor
  · rintro ⟨r, hr, -⟩
    exact ⟨r, hr⟩
  · rintro ⟨r, hr⟩
    exact ⟨r, hr, rfl⟩

/-- The budget has no part in what is scanned. -/
theorem scanObject_tokens {artifactName : String} {tokens : ℕ} :
    scanObject reader commitmentKey sourceBinding { spec with maxInputTokens := tokens }
      artifactName = scanObject reader commitmentKey sourceBinding spec artifactName := by
  have hcolumns : ∀ (numRows index : ℕ) (columns : List (RawColumn × ColumnType)),
      scanColumns reader { spec with maxInputTokens := tokens } numRows index columns =
        scanColumns reader spec numRows index columns := by
    intro numRows index columns
    induction columns generalizing index with
    | nil => rfl
    | cons column columns ih =>
      rw [scanColumns, scanColumns, ih]
      rfl
  funext object
  rw [scanObject, scanObject]
  simp only [hcolumns]

/-- **A scan of what the probe validates completes iff every value has canonical bytes.** -/
theorem completes_iff {artifactName : String} {payload : Bytes}
    (h : validateArtifactSchema reader artifactName payload = .ok ()) :
    Completes reader commitmentKey sourceBinding spec artifactName payload ↔
      Scannable reader artifactName payload := by
  obtain ⟨sources, hsources, hvalid⟩ := validateArtifactSchema_ok.1 h
  have hfacts : (∃ facts, sources.mapM
      (scanObject reader commitmentKey sourceBinding spec artifactName) = .ok facts) ↔
      Scannable reader artifactName payload := by
    rw [List.mapM_ok_iff]
    constructor
    · intro hall sources' hsources' object hobject table htable
      cases hsources.symm.trans hsources'
      obtain ⟨⟨table', columnTypes⟩, hchecked⟩ := hvalid object hobject
      have hread := hchecked
      rw [validateObject, htable, Except.ok_bind] at hread
      obtain ⟨types, -, hread⟩ := Except.bind_eq_ok.1 hread
      cases hread
      exact (scanObject_ok_iff hchecked).1 (hall object hobject)
    · intro hscannable object hobject
      obtain ⟨⟨table, columnTypes⟩, hchecked⟩ := hvalid object hobject
      have hread := hchecked
      rw [validateObject] at hread
      obtain ⟨table', htable, hread⟩ := Except.bind_eq_ok.1 hread
      obtain ⟨types, -, hread⟩ := Except.bind_eq_ok.1 hread
      cases hread
      exact (scanObject_ok_iff hchecked).2 (hscannable sources hsources object hobject table htable)
  rw [← hfacts]
  constructor
  · rintro ⟨result, bytes, -, hscan⟩
    have hscan := hscan bytes.length (by omega)
    rw [scanBytes, hsources, Except.ok_bind] at hscan
    obtain ⟨facts, hfacts, -⟩ := Except.bind_eq_ok.1 hscan
    rw [scanObject_tokens] at hfacts
    exact ⟨facts, hfacts⟩
  · rintro ⟨facts, hfacts⟩
    refine ⟨scanResult spec sources.length facts, _, actionJsonBytes_result _, ?_⟩
    intro tokens htokens
    rw [scanBytes, hsources, Except.ok_bind]
    rw [scanObject_tokens, hfacts, Except.ok_bind, withinBudget]
    show (actionJsonBytes (scanResult spec sources.length facts).json >>= _) = _
    rw [actionJsonBytes_result, Except.ok_bind, (S3.check_ok (u := ())).2 htokens]
    rfl

/-- A scan of what the probe validates fails for a value or for its budget. -/
theorem scanBytes_of_valid {artifactName : String} {payload : Bytes} {e : Raised}
    (h : validateArtifactSchema reader artifactName payload = .ok ())
    (hscan : scanBytes reader commitmentKey sourceBinding spec artifactName payload = .error e) :
    e.type ∈ "BudgetIncompatibleError" :: dataErrors := by
  obtain ⟨sources, hsources, hvalid⟩ := validateArtifactSchema_ok.1 h
  rw [scanBytes, hsources, Except.ok_bind] at hscan
  rcases Except.bind_eq_error.1 hscan with hscan | ⟨facts, -, hscan⟩
  · obtain ⟨object, hobject, hfail⟩ := List.mapM_error hscan
    obtain ⟨checked, hchecked⟩ := hvalid object hobject
    exact List.mem_cons_of_mem _ (scanObject_of_valid hchecked hfail)
  · rw [withinBudget, actionJsonBytes_result, Except.ok_bind] at hscan
    rcases Except.bind_eq_error.1 hscan with hscan | ⟨_, -, hscan⟩
    · rw [← (S3.check_error.1 hscan).2]
      simp
    · cases hscan

/-- A single table that the probe does not validate is unsupported, for the probe and for a
    scan, unless its chunks do not fit an array. -/
theorem scanBytes_of_invalid {artifactName : String} {payload : Bytes} {e : Raised}
    (hzip : reader.isZipfile payload = false)
    (h : validateArtifactSchema reader artifactName payload = .error e) :
    e.type = "UnsupportedConnectorShape" ∧ ∃ e',
      scanBytes reader commitmentKey sourceBinding spec artifactName payload = .error e' ∧
      (e'.type = "UnsupportedConnectorShape" ∨ e'.type = "ArrowInvalid") := by
  have hobjects : objects reader artifactName payload =
      (do supportedArtifact reader artifactName; return [(registeredRoot, payload)]) := by
    rw [objects, hzip]
    rfl
  rw [validateArtifactSchema, hobjects] at h
  rw [scanBytes, hobjects]
  by_cases hsuffix : (suffix reader artifactName).isSome
  · rw [supportedArtifact, (S3.check_ok (u := ())).2 hsuffix] at h ⊢
    simp only [Except.ok_bind, Except.pure_eq_ok] at h ⊢
    rcases Except.bind_eq_error.1 h with h | ⟨_, -, h⟩
    · obtain ⟨object, hobject, hfail⟩ := List.mapM_error h
      cases List.mem_singleton.1 hobject
      obtain ⟨htype, e', hscan, htype'⟩ :=
        @scanObject_of_invalid reader commitmentKey sourceBinding spec _ _ _ hfail
      refine ⟨htype, e', ?_, htype'⟩
      rw [List.mapM_cons, hscan]
      rfl
    · cases h
  · rw [supportedArtifact, S3.check_error.2 ⟨hsuffix, rfl⟩] at h ⊢
    cases h
    exact ⟨rfl, _, rfl, Or.inl rfl⟩

end

/-! ## The facts of a table -/

/-- An Arrow type of a type of column. -/
def ColumnType.dataType : ColumnType → DataType
  | string => .string
  | integer => .integer
  | float => .floating
  | decimal => .decimal
  | boolean => .boolean
  | date => .date
  | datetime => .timestamp
  | binary => .binary
  | unknown => .null

theorem typeName_dataType (type : ColumnType) : typeName type.dataType = .ok type := by
  cases type with
  | _ => rfl

def Column.raw (column : Column) : RawColumn where
  name := column.name
  dataType := column.type.dataType
  nullCount := column.nullCount
  combines := true
  toPylist := some (column.values.map (Option.map .value))

def Table.raw (table : Table) : RawTable where
  numRows := table.numRows
  columns := table.columns.map Column.raw
  nullCount_le column hcolumn := by
    obtain ⟨source, hsource, rfl⟩ := List.mem_map.1 hcolumn
    rw [← table.length_eq source hsource]
    exact List.countP_le_length

theorem Column.raw_values (column : Column) :
    ((column.values.map (Option.map PyValue.value)).reduceOption).filterMap PyValue.value? =
      column.nonNull := by
  rw [Column.nonNull]
  induction column.values with
  | nil => rfl
  | cons v values ih =>
    cases v with
    | none => simpa [List.reduceOption_cons_of_none] using ih
    | some v => simpa [List.reduceOption_cons_of_some, PyValue.value?] using ih

section
variable {reader : Reader} {commitmentKey sourceBinding : Bytes} {spec : SignedSpec}

theorem scanColumn_raw {numRows index : ℕ} {column : Column}
    (hrows : column.values.length = numRows)
    (hfloat : ∀ text, some (.float text) ∈ column.values → Json.floatText text = true) :
    scanColumn reader spec numRows index column.raw column.type =
      .ok (columnFact spec.aggregates reader.estimate reader.double index numRows column.type
        column.nullCount column.nonNull) := by
  have hcanonical : ∀ v, some v ∈ column.values.map (Option.map PyValue.value) → v.Canonical := by
    intro v hv
    obtain ⟨w, hw, hmap⟩ := List.mem_map.1 hv
    obtain ⟨w, rfl, rfl⟩ := Option.map_eq_some_iff.1 hmap
    cases w with
    | float text => exact hfloat text hw
    | _ => trivial
  have hmap : ∃ r, (column.values.map (Option.map PyValue.value)).reduceOption.mapM
      canonicalBytes = .ok r := by
    rw [List.mapM_ok_iff]
    exact fun v hv => canonicalBytes_ok_iff.2 (hcanonical v (List.reduceOption_mem_iff.1 hv))
  obtain ⟨r, hr⟩ := hmap
  have hnull : column.nullCount ≤ numRows := hrows ▸ List.countP_le_length
  rw [scanColumn, RawColumn.pylist]
  simp only [Column.raw, Except.ok_bind, hr]
  rw [nullRateSupported_ok hnull, Except.ok_bind, Column.raw_values]
  rfl

/-- **A scan publishes the facts of the table**: no value is left out. -/
theorem scanObject_raw {artifactName : String} {object : String × Bytes} {table : Table}
    (htable : readTable reader (objectName artifactName object.1) object.2 = .ok table.raw)
    (hnames : ∀ column ∈ table.columns, column.name.length ≤ maxColumnNameLength)
    (hfloat : ∀ column ∈ table.columns, ∀ text, some (.float text) ∈ column.values →
      Json.floatText text = true) :
    scanObject reader commitmentKey sourceBinding spec artifactName object =
      .ok (objectFact spec.aggregates reader.estimate reader.double
        (objectCommitment commitmentKey sourceBinding object.1) table) := by
  have htypes : validatedColumnTypes table.raw = .ok (table.columns.map Column.type) := by
    have hlength : ∀ column ∈ table.raw.columns, column.name.length ≤ maxColumnNameLength := by
      intro column hcolumn
      obtain ⟨source, hsource, rfl⟩ := List.mem_map.1 hcolumn
      exact hnames source hsource
    rw [validatedColumnTypes, (S3.check_ok (u := ())).2 hlength, Except.ok_bind]
    show (table.columns.map Column.raw).mapM _ = _
    induction table.columns with
    | nil => rfl
    | cons column columns ih =>
      rw [List.map_cons, List.mapM_cons_ok]
      exact ⟨column.type, _, typeName_dataType column.type, ih, rfl⟩
  have hcolumns : ∀ (columns : List Column) (index : ℕ),
      (∀ column ∈ columns, column ∈ table.columns) →
      scanColumns reader spec table.numRows index
        ((columns.map Column.raw).zip (columns.map Column.type)) =
      .ok (columns.mapIdx fun i column => columnFact spec.aggregates reader.estimate reader.double
        (index + i) table.numRows column.type column.nullCount column.nonNull) := by
    intro columns
    induction columns with
    | nil => exact fun index _ => rfl
    | cons column columns ih =>
      intro index hsub
      rw [List.forall_mem_cons] at hsub
      rw [List.map_cons, List.map_cons, List.zip_cons_cons, scanColumns,
        scanColumn_raw (table.length_eq column hsub.1) (hfloat column hsub.1), Except.ok_bind,
        ih (index + 1) hsub.2, Except.ok_bind, List.mapIdx_cons]
      simp only [Nat.add_assoc, Nat.add_comm 1]
      rfl
  have hcombines : ∀ column ∈ table.raw.columns, column.combines = true := by
    intro column hcolumn
    obtain ⟨column, -, rfl⟩ := List.mem_map.1 hcolumn
    rfl
  have hfacts := hcolumns table.columns 0 fun _ h => h
  rw [scanObject, htable, Except.ok_bind, (S3.check_ok (u := ())).2 hcombines, Except.ok_bind,
    htypes, Except.ok_bind]
  simp only [Nat.zero_add] at hfacts
  rw [show table.raw.columns = table.columns.map Column.raw from rfl,
    show table.raw.numRows = table.numRows from rfl, hfacts, Except.ok_bind, objectFact]
  simp only [List.map_map]
  rfl

end

end Eolymp

end AimData
