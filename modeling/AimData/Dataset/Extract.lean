/-
  The extraction of a query result to a Parquet file, batch by batch.

  Every batch infers the types of its columns again, from the first value that is not null,
  and leaves out the columns whose first value is binary.  The file takes the schema of the
  first batch (`streamToParquet`).
-/
import Mathlib.Data.List.ReduceOption
import AimData.Lib.Except
import AimData.Lib.Rearranged

namespace AimData

namespace Extract

/-! ## Values and their types -/

/-- The types of Python that `_to_arrow_column` tells apart; `text` is every other one. -/
inductive PyType where
  | bytes | bool | int | float | decimal | datetime | date | time | uuid | structured | text
  deriving DecidableEq

/-- A value of a driver: a float, a decimal, a time, a UUID and a list or dict are their texts,
    and a datetime is its wall clock in microseconds with its offset where it has one. -/
inductive Value where
  | bytes (content : List UInt8)
  | bool (b : Bool)
  | int (i : ℤ)
  | float (repr : String)
  | decimal (repr : String)
  | datetime (micros : ℤ) (offset : Option ℤ)
  | date (days : ℤ)
  | time (repr : String)
  | uuid (repr : String)
  | structured (repr : String)
  | text (s : String)
  deriving DecidableEq

def Value.type : Value → PyType
  | bytes _ => .bytes
  | bool _ => .bool
  | int _ => .int
  | float _ => .float
  | decimal _ => .decimal
  | datetime _ _ => .datetime
  | date _ => .date
  | time _ => .time
  | uuid _ => .uuid
  | structured _ => .structured
  | text _ => .text

/-- A cell of a row: a value or null. -/
abbrev Cell := Option Value

abbrev Row := List Cell

inductive ArrowType where
  | string | bool | int64 | float64 | timestampUs | date32
  deriving DecidableEq

/-- The type of a column by the type of its sample; binary columns have none. -/
def PyType.arrow : PyType → Option ArrowType
  | bytes => none
  | bool => some .bool
  | int => some .int64
  | float | decimal => some .float64
  | datetime => some .timestampUs
  | date => some .date32
  | time | uuid | structured | text => some .string

/-- The values that an array of a type holds as they are. -/
def ArrowType.Fits : ArrowType → Value → Prop
  | bool, .bool _ | float64, .float _ | timestampUs, .datetime _ none | date32, .date _
  | string, .text _ => True
  | int64, .int i => -2 ^ 63 ≤ i ∧ i < 2 ^ 63
  | _, _ => False

/-- `float(v)`, `str(v)` and `json.dumps(v)` -/
structure Python where
  float : Value → Except Raised String
  str : Value → String
  dumps : Value → Except Raised String

/-- `pa.array(values, type=type)`: what fits is held as it is, and nothing is left out. -/
structure Arrow where
  array : ArrowType → List Cell → Except Raised (List Cell)
  array_of_fits : ∀ type cells, (∀ v, some v ∈ cells → type.Fits v) → array type cells = .ok cells
  length_array : ∀ type cells stored, array type cells = .ok stored → stored.length = cells.length

/-- The microseconds from year 1 to year 9999, counted from 1970. -/
def minMicros : ℤ := -62135596800000000

def maxMicros : ℤ := 253402300799999999

/-- `v.astimezone(timezone.utc).replace(tzinfo=None)` of an aware datetime -/
def toUtc (micros offset : ℤ) : Except Raised Value :=
  if minMicros ≤ micros - offset ∧ micros - offset ≤ maxMicros then
    .ok (.datetime (micros - offset) none)
  else raise "OverflowError" "date value out of range"

structure Field where
  name : String
  type : ArrowType
  deriving DecidableEq

/-- The columns of a batch or of a file. -/
abbrev Table := List (Field × List Cell)

def Table.schema (t : Table) : List Field := t.map Prod.fst

/-- The rows of a file are those of its first column. -/
def Table.rowCount (t : Table) : ℕ := (t.head?.map fun c => c.2.length).getD 0

def Table.append (t t' : Table) : Table := t.zipWith (fun c c' => (c.1, c.2 ++ c'.2)) t'

/-! ## Columns -/

section
variable (lib : Python) (arrow : Arrow)

/-- A value as the branch of a sample's type converts it. -/
def convert : PyType → Value → Except Raised Value
  | .decimal, v => do return .float (← lib.float v)
  | .datetime, .datetime micros (some offset) => toUtc micros offset
  | .time, v | .uuid, v | .text, v => .ok (.text (lib.str v))
  | .structured, v => do return .text (← lib.dumps v)
  | _, v => .ok v

def convertCell (type : PyType) : Cell → Except Raised Cell
  | none => .ok none
  | some v => do return some (← convert lib type v)

/-- `DatabaseConnector._to_arrow_column` -/
def toArrowColumn (name : String) (values : List Cell) :
    Except Raised (Option (Field × List Cell)) :=
  match values.findSome? id with
  | none => do return some (⟨name, .string⟩, ← arrow.array .string values)
  | some sample =>
    match sample.type.arrow with
    | none => .ok none
    | some type => do
      let converted ← values.mapM (convertCell lib sample.type)
      return some (⟨name, type⟩, ← arrow.array type converted)

/-- The cells of a row under a name. -/
def underName (colNames : List String) (row : Row) (name : String) : List Cell :=
  (colNames.zip row).filterMap fun p => if p.1 = name then some p.2 else none

/-- `col_data[name]`: columns of one name share a list. -/
def columnData (colNames : List String) (rows : List Row) (name : String) : List Cell :=
  rows.flatMap fun row => underName colNames row name

/-- The record batch of some rows, or nothing where every column is left out. -/
def recordBatch (colNames : List String) (rows : List Row) : Except Raised (Option Table) := do
  let columns ← colNames.mapM fun name =>
    toArrowColumn lib arrow name (columnData colNames rows name)
  let batch : Table := columns.reduceOption
  if batch = [] then return none
  else if ∀ c ∈ batch, c.2.length = batch.rowCount then return some batch
  else raise "ArrowInvalid" "column length differs"

/-! ## The stream -/

/-- `result.fetchmany(batch_size)` until there are no rows; the fuel is the number of rows. -/
def fetches (batchSize : ℕ) : ℕ → List Row → List (List Row)
  | _, [] => []
  | 0, _ :: _ => []
  | n + 1, row :: rows =>
    (row :: rows).take batchSize :: fetches batchSize n ((row :: rows).drop batchSize)

/-- `writer.write_batch(batch)`, of a writer that the first batch opens. -/
def writeBatch (writer : Option Table) (batch : Table) : Except Raised Table :=
  match writer with
  | none => .ok batch
  | some file =>
    if file.schema = batch.schema then .ok (file.append batch)
    else raise "ValueError" "Table schema does not match schema used to create file"

/-- The loop, with what is written, the rows counted and the exception that ends it. -/
def extractBatches (colNames : List String) :
    Option Table → ℕ → List (List Row) → Option Table × ℕ × Option Raised
  | writer, totalRows, [] => (writer, totalRows, none)
  | writer, totalRows, rows :: batches =>
    match recordBatch lib arrow colNames rows with
    | .error e => (writer, totalRows, some e)
    | .ok none => (writer, totalRows, none)
    | .ok (some batch) =>
      match writeBatch writer batch with
      | .error e => (writer, totalRows, some e)
      | .ok file => extractBatches colNames (some file) (totalRows + rows.length) batches

def batchSize : ℕ := 10000

/-- `pa.table({"_empty": pa.array([], type=pa.string())})` -/
def emptyTable : Table := [(⟨"_empty", .string⟩, [])]

/-- `DatabaseConnector._stream_to_parquet`: its outcome and the file at the output path, of
    the file that lay there. -/
def streamToParquet (colNames : List String) (rows : List Row) (earlier : Option Table) :
    Except Raised Unit × Option Table :=
  let (writer, totalRows, failure) :=
    extractBatches lib arrow colNames none 0 (fetches batchSize rows.length rows)
  let file := writer.or earlier
  match failure with
  | some e => (.error e, file)
  | none => if totalRows = 0 then (.ok (), some (file.getD emptyTable)) else (.ok (), file)

end

/-! ## Results -/

structure Column where
  name : String
  type : PyType

/-- The field of a column; a binary column has none. -/
def Column.field (c : Column) : Option Field := c.type.arrow.map fun type => ⟨c.name, type⟩

/-- A value of a column's type, integers within 64 bits. -/
def Value.HasType (v : Value) (type : PyType) : Prop :=
  v.type = type ∧ ∀ i, v = .int i → -2 ^ 63 ≤ i ∧ i < 2 ^ 63

/-- The result of a query: the values of a column that are not null have the column's type. -/
structure Result where
  columns : List Column
  rows : List Row
  typed : ∀ row ∈ rows, List.Forall₂ (fun c cell => ∀ v ∈ cell, Value.HasType v c.type) columns row

def Result.colNames (r : Result) : List String := r.columns.map Column.name

/-- The cells of the column at an index. -/
def cellsAt (rows : List Row) (i : ℕ) : List Cell := rows.map fun row => (row[i]?).join

/-- The columns that are not binary, with their indices. -/
def Result.kept (r : Result) : List (Column × ℕ) :=
  r.columns.zipIdx.filter fun p => p.1.type ≠ .bytes

section
variable (lib : Python) (arrow : Arrow)

/-- A file holds every row of a result in order, of every column that is not binary, under the
    schema of the columns' types. -/
def Holds (r : Result) (file : Table) : Prop :=
  file.rowCount = r.rows.length ∧
  List.Forall₂ (fun (p : Column × ℕ) stored => some stored.1 = p.1.field ∧
    List.Forall₂ (fun cell held => convertCell lib p.1.type cell = .ok held)
      (cellsAt r.rows p.2) stored.2) r.kept file

/-- The extraction of a result succeeds and leaves a file that holds it. -/
def Extracts (r : Result) (earlier : Option Table) : Prop :=
  (streamToParquet lib arrow r.colNames r.rows earlier).1 = .ok () ∧
  ∃ file, (streamToParquet lib arrow r.colNames r.rows earlier).2 = some file ∧ Holds lib r file

/-- Some column is kept and shares its name with no other, every batch shows the type of every
    column that is not text, and the values convert. -/
structure Extractable (r : Result) : Prop where
  kept : r.kept ≠ []
  alone : ∀ p ∈ r.kept, ∀ q ∈ r.columns.zipIdx, q.1.name = p.1.name → q = p
  shown : ∀ rows ∈ fetches batchSize r.rows.length r.rows, ∀ c ∈ r.columns,
    c.type.arrow = some .string ∨ ∃ v, some v ∈ columnData r.colNames rows c.name
  converts : ∀ p ∈ r.kept, ∀ cell ∈ cellsAt r.rows p.2, ∃ held,
    convertCell lib p.1.type cell = .ok held

end

/-! ## Batches of rows -/

theorem fetches_flatten : ∀ {n : ℕ} {rows : List Row}, rows.length ≤ n →
    (fetches batchSize n rows).flatten = rows
  | n, [], _ => by cases n <;> rfl
  | 0, row :: rows, h => by simp at h
  | n + 1, row :: rows, h => by
    rw [fetches, List.flatten_cons, fetches_flatten, List.take_append_drop]
    simp only [List.length_drop, List.length_cons, batchSize] at h ⊢
    omega

theorem fetches_ne_nil : ∀ {n : ℕ} {rows rows' : List Row}, rows' ∈ fetches batchSize n rows →
    rows' ≠ []
  | 0, [], _, h => by cases h
  | n + 1, [], _, h => by cases h
  | 0, row :: rows, _, h => by cases h
  | n + 1, row :: rows, rows', h => by
    rcases List.mem_cons.1 h with rfl | h
    · simp [batchSize]
    · exact fetches_ne_nil h

/-- Every row comes in a batch. -/
theorem mem_of_fetches {r : Result} {rows : List Row}
    (h : rows ∈ fetches batchSize r.rows.length r.rows) : ∀ row ∈ rows, row ∈ r.rows := by
  intro row hrow
  rw [← fetches_flatten (le_refl r.rows.length)]
  exact List.mem_flatten.2 ⟨rows, h, hrow⟩

/-! ## The data of a name -/

section
variable {name : String}

theorem length_underName {colNames : List String} {row : Row}
    (h : row.length = colNames.length) :
    (underName colNames row name).length = colNames.count name := by
  induction colNames generalizing row with
  | nil => simp [underName]
  | cons n colNames ih =>
    cases row with
    | nil => simp at h
    | cons cell row =>
      have ih := ih (Nat.succ.inj h)
      unfold underName at ih ⊢
      by_cases hn : n = name
      · simp [hn, ih]
      · simp [hn, ih]

theorem mem_underName {colNames : List String} {row : Row} {cell : Cell} :
    cell ∈ underName colNames row name ↔
      ∃ i : ℕ, colNames[i]? = some name ∧ row[i]? = some cell := by
  rw [underName, List.mem_filterMap]
  constructor
  · rintro ⟨⟨n, c⟩, hmem, h⟩
    obtain ⟨i, hi⟩ := List.mem_iff_getElem?.1 hmem
    obtain ⟨hn, hc⟩ := List.getElem?_zip_eq_some.1 hi
    split_ifs at h with hname
    obtain rfl : c = cell := Option.some.inj h
    exact ⟨i, hname ▸ hn, hc⟩
  · rintro ⟨i, hn, hc⟩
    exact ⟨(name, cell), List.mem_iff_getElem?.2 ⟨i, List.getElem?_zip_eq_some.2 ⟨hn, hc⟩⟩,
      if_pos rfl⟩

/-- A name comes once iff it is that of one index only. -/
theorem count_le_one_iff {l : List String} :
    l.count name ≤ 1 ↔ ∀ i j : ℕ, l[i]? = some name → l[j]? = some name → i = j := by
  rw [← not_iff_not, not_le, Nat.lt_iff_add_one_le, ← List.duplicate_iff_two_le_count,
    List.duplicate_iff_exists_distinct_get]
  constructor
  · rintro ⟨n, m, hlt, hn, hm⟩ h
    refine absurd (h n m ?_ ?_) (by omega)
    · rw [hn]
      simp
    · rw [hm]
      simp
  · intro h
    push Not at h
    obtain ⟨i, j, hi, hj, hne⟩ := h
    obtain ⟨hi, hil⟩ := List.getElem?_eq_some_iff.1 hi
    obtain ⟨hj, hjl⟩ := List.getElem?_eq_some_iff.1 hj
    rcases lt_or_gt_of_ne hne with hlt | hlt
    · exact ⟨⟨i, hi⟩, ⟨j, hj⟩, hlt, hil.symm, hjl.symm⟩
    · exact ⟨⟨j, hj⟩, ⟨i, hi⟩, hlt, hjl.symm, hil.symm⟩

/-- A name of one column gives that column's cell. -/
theorem underName_alone {colNames : List String} {row : Row} {i : ℕ}
    (h : row.length = colNames.length) (hi : colNames[i]? = some name)
    (halone : ∀ j, colNames[j]? = some name → j = i) :
    underName colNames row name = [(row[i]?).join] := by
  have hcount : colNames.count name = 1 := by
    refine le_antisymm (count_le_one_iff.2 fun j k hj hk => ?_)
      (List.count_pos_iff.2 (List.mem_of_getElem? hi))
    rw [halone j hj, halone k hk]
  obtain ⟨cell, hcell⟩ := List.length_eq_one_iff.1 ((length_underName h).trans hcount)
  obtain ⟨j, hj, hrow⟩ := mem_underName.1 (hcell ▸ List.mem_singleton_self cell)
  rw [hcell, ← halone j hj, hrow]
  rfl

theorem length_columnData {colNames : List String} {rows : List Row}
    (h : ∀ row ∈ rows, row.length = colNames.length) :
    (columnData colNames rows name).length = colNames.count name * rows.length := by
  induction rows with
  | nil => rfl
  | cons row rows ih =>
    rw [columnData, List.flatMap_cons, List.length_append, length_underName (h row (by simp))]
    have ih := ih fun row hrow => h row (List.mem_cons_of_mem _ hrow)
    rw [columnData] at ih
    rw [ih, List.length_cons]
    ring

theorem mem_columnData {colNames : List String} {rows : List Row} {cell : Cell} :
    cell ∈ columnData colNames rows name ↔
      ∃ row ∈ rows, ∃ i : ℕ, colNames[i]? = some name ∧ row[i]? = some cell := by
  simp only [columnData, List.mem_flatMap, mem_underName]

/-- A name of one column gives that column's cells. -/
theorem columnData_alone {colNames : List String} {rows : List Row} {i : ℕ}
    (h : ∀ row ∈ rows, row.length = colNames.length) (hi : colNames[i]? = some name)
    (halone : ∀ j, colNames[j]? = some name → j = i) :
    columnData colNames rows name = cellsAt rows i := by
  induction rows with
  | nil => rfl
  | cons row rows ih =>
    have ih := ih fun row hrow => h row (List.mem_cons_of_mem _ hrow)
    rw [columnData] at ih ⊢
    rw [List.flatMap_cons, underName_alone (h row (by simp)) hi halone, ih]
    rfl

end

/-! ## Columns and batches that succeed -/

section
variable {lib : Python} {arrow : Arrow}

/-- The field of a column by its values. -/
def inferred (name : String) (values : List Cell) : Option Field :=
  match values.findSome? id with
  | none => some ⟨name, .string⟩
  | some sample => sample.type.arrow.map fun type => ⟨name, type⟩

/-- What `_to_arrow_column` gives has the inferred field and as many cells as it is given. -/
theorem toArrowColumn_ok {name : String} {values : List Cell} {column : Option (Field × List Cell)}
    (h : toArrowColumn lib arrow name values = .ok column) :
    column.map Prod.fst = inferred name values ∧ ∀ c ∈ column, c.2.length = values.length := by
  unfold toArrowColumn at h
  unfold inferred
  cases hsample : values.findSome? id with
  | none =>
    simp only [hsample] at h
    obtain ⟨stored, hstored, h⟩ := Except.bind_eq_ok.1 h
    obtain rfl := Except.ok.inj h
    refine ⟨rfl, fun c hc => ?_⟩
    obtain rfl := Option.mem_some_iff.1 hc
    exact arrow.length_array _ _ _ hstored
  | some sample =>
    simp only [hsample] at h
    cases htype : sample.type.arrow with
    | none =>
      simp only [htype] at h
      obtain rfl := Except.ok.inj h
      exact ⟨by simp [htype], fun c hc => by cases hc⟩
    | some type =>
      simp only [htype] at h
      obtain ⟨converted, hconverted, h⟩ := Except.bind_eq_ok.1 h
      obtain ⟨stored, hstored, h⟩ := Except.bind_eq_ok.1 h
      obtain rfl := Except.ok.inj h
      refine ⟨by simp [htype], fun c hc => ?_⟩
      obtain rfl := Option.mem_some_iff.1 hc
      rw [arrow.length_array _ _ _ hstored, List.mapM_ok_length hconverted]

theorem inferred_name {name : String} {values : List Cell} {f : Field}
    (h : inferred name values = some f) : f.name = name := by
  unfold inferred at h
  split at h
  · rw [← Option.some.inj h]
  · obtain ⟨type, -, rfl⟩ := Option.map_eq_some_iff.1 h
    rfl

/-- The columns of names: their fields are the inferred ones, each with its name's cells. -/
theorem columns_ok {data : String → List Cell} {names : List String}
    {columns : List (Option (Field × List Cell))}
    (h : names.mapM (fun name => toArrowColumn lib arrow name (data name)) = .ok columns) :
    columns.reduceOption.map Prod.fst = names.filterMap (fun name => inferred name (data name)) ∧
    ∀ c ∈ columns.reduceOption, c.2.length = (data c.1.name).length := by
  induction names generalizing columns with
  | nil =>
    obtain rfl := Except.ok.inj h
    exact ⟨rfl, fun c hc => by cases hc⟩
  | cons name names ih =>
    obtain ⟨column, columns, hcolumn, hcolumns, rfl⟩ := List.mapM_cons_ok.1 h
    obtain ⟨hschema, hlength⟩ := ih hcolumns
    obtain ⟨hfield, hcells⟩ := toArrowColumn_ok hcolumn
    cases column with
    | none =>
      rw [List.reduceOption_cons_of_none, List.filterMap_cons, ← hfield]
      exact ⟨hschema, hlength⟩
    | some column =>
      rw [List.reduceOption_cons_of_some, List.filterMap_cons, ← hfield, List.map_cons, hschema]
      refine ⟨rfl, fun c hc => ?_⟩
      rcases List.mem_cons.1 hc with rfl | hc
      · rw [hcells c rfl, inferred_name hfield.symm]
      · exact hlength c hc

/-- The fields of a batch. -/
def inferredSchema (colNames : List String) (rows : List Row) : List Field :=
  colNames.filterMap fun name => inferred name (columnData colNames rows name)

theorem recordBatch_none {colNames : List String} {rows : List Row}
    (h : recordBatch lib arrow colNames rows = .ok none) : inferredSchema colNames rows = [] := by
  obtain ⟨columns, hcolumns, h⟩ := Except.bind_eq_ok.1 h
  simp only at h
  split_ifs at h with hnil hall
  · rw [inferredSchema, ← (columns_ok hcolumns).1, hnil]
    rfl
  · cases h
  · cases h

theorem recordBatch_some {colNames : List String} {rows : List Row} {batch : Table}
    (h : recordBatch lib arrow colNames rows = .ok (some batch)) :
    batch ≠ [] ∧ batch.schema = inferredSchema colNames rows ∧
    (∀ c ∈ batch, c.2.length = batch.rowCount ∧
      c.2.length = (columnData colNames rows c.1.name).length) ∧
    ∀ name ∈ colNames, ∃ column,
      toArrowColumn lib arrow name (columnData colNames rows name) = .ok column := by
  obtain ⟨columns, hcolumns, h⟩ := Except.bind_eq_ok.1 h
  simp only at h
  split_ifs at h with hnil hall
  · cases h
  · obtain rfl := Option.some.inj (Except.ok.inj h)
    obtain ⟨hschema, hlength⟩ := columns_ok hcolumns
    exact ⟨hnil, hschema, fun c hc => ⟨hall c hc, hlength c hc⟩,
      List.mapM_ok_iff.1 ⟨columns, hcolumns⟩⟩
  · cases h

end

/-! ## A schema fixes the field of every column -/

/-- The fields of the columns of a name. -/
theorem filter_fields {columns : List Column} {g : Column → Option Field} (name : String)
    (hg : ∀ c f, g c = some f → f.name = c.name) :
    (columns.filterMap g).filter (fun f => f.name = name) =
      (columns.filter fun c => c.name = name).filterMap g := by
  rw [List.filter_filterMap, List.filterMap_filter]
  refine List.filterMap_congr fun c _ => ?_
  cases h : g c with
  | none => simp
  | some f => simp [Option.filter, hg c f h]

/-- Where fields of names are those of columns, the field of each name is that of each of its
    columns. -/
theorem field_of_schema {columns : List Column} {g : String → Option Field}
    (hg : ∀ name f, g name = some f → f.name = name)
    (h : (columns.map Column.name).filterMap g = columns.filterMap Column.field) :
    ∀ c ∈ columns, g c.name = c.field := by
  intro c hc
  have hfield : ∀ (c : Column) f, c.field = some f → f.name = c.name := by
    intro c f hf
    obtain ⟨type, -, rfl⟩ := Option.map_eq_some_iff.1 hf
    rfl
  have hnamed := congrArg (List.filter fun f => f.name = c.name) h
  rw [List.filterMap_map, filter_fields (g := g ∘ Column.name) c.name (fun c f => hg c.name f),
    filter_fields c.name hfield] at hnamed
  have hmem : c ∈ columns.filter fun c' => c'.name = c.name := by
    simp [hc]
  have hconst : ∀ c' ∈ columns.filter (fun c' => c'.name = c.name),
      (g ∘ Column.name) c' = g c.name := by
    intro c' hc'
    have : c'.name = c.name := by simpa using (List.mem_filter.1 hc').2
    rw [Function.comp_apply, this]
  rw [List.filterMap_congr hconst] at hnamed
  cases hname : g c.name with
  | none =>
    rw [hname] at hnamed
    cases hcf : c.field with
    | none => rfl
    | some f =>
      have := List.mem_filterMap.2 ⟨c, hmem, hcf⟩
      rw [← hnamed] at this
      simp at this
  | some f =>
    rw [hname] at hnamed
    cases hcf : c.field with
    | none =>
      have hlt := List.length_filterMap_lt_length_iff_exists.2 ⟨c, hmem, hcf⟩
      rw [← hnamed] at hlt
      simp at hlt
    | some f' =>
      have := List.mem_filterMap.2 ⟨c, hmem, hcf⟩
      rw [← hnamed] at this
      obtain ⟨-, -, hf⟩ := List.mem_filterMap.1 this
      rw [hf]

/-! ## The loop -/

theorem Table.schema_append {t t' : Table} (h : t.schema = t'.schema) :
    (t.append t').schema = t.schema := by
  have hlength : t.length = t'.length := by simpa [Table.schema] using congrArg List.length h
  rw [Table.schema, Table.schema, Table.append, List.map_zipWith]
  refine List.ext_getElem (by simp [hlength]) fun i h1 h2 => ?_
  simp

theorem Table.rowCount_append {t t' : Table} (hne : t ≠ []) (h : t.schema = t'.schema) :
    (t.append t').rowCount = t.rowCount + t'.rowCount := by
  cases t with
  | nil => exact absurd rfl hne
  | cons c t =>
    cases t' with
    | nil => simp [Table.schema] at h
    | cons c' t' => simp [Table.append, Table.rowCount]

/-- The table of tables of one schema has all their rows. -/
theorem Table.rowCount_foldl {file : Table} {tables : List Table} (hne : file ≠ [])
    (h : ∀ t ∈ tables, t.schema = file.schema) :
    (tables.foldl Table.append file).schema = file.schema ∧
    (tables.foldl Table.append file).rowCount =
      file.rowCount + (tables.map Table.rowCount).sum := by
  induction tables generalizing file with
  | nil => exact ⟨rfl, by simp⟩
  | cons t tables ih =>
    have ht : file.schema = t.schema := (h t (by simp)).symm
    have hschema := Table.schema_append ht
    have hne' : file.append t ≠ [] := by
      intro hnil
      have := congrArg List.length hschema
      simp [hnil, Table.schema, eq_comm, hne] at this
    obtain ⟨h1, h2⟩ := ih hne' fun t' ht' => (h t' (List.mem_cons_of_mem _ ht')).trans hschema.symm
    rw [List.foldl_cons, h1, h2, hschema, Table.rowCount_append hne ht, List.map_cons,
      List.sum_cons]
    exact ⟨rfl, by ring⟩

section
variable {lib : Python} {arrow : Arrow} {colNames : List String}

/-- A batch has a record batch of a schema. -/
def Records (lib : Python) (arrow : Arrow) (colNames : List String) (schema : List Field)
    (rows : List Row) (batch : Table) : Prop :=
  recordBatch lib arrow colNames rows = .ok (some batch) ∧ batch.schema = schema

/-- An open file keeps its schema. -/
theorem extractBatches_schema (batches : List (List Row)) (file : Table) (total : ℕ) :
    ∃ file', (extractBatches lib arrow colNames (some file) total batches).1 = some file' ∧
      file'.schema = file.schema := by
  induction batches generalizing file total with
  | nil => exact ⟨file, rfl, rfl⟩
  | cons rows batches ih =>
    rw [extractBatches]
    split
    · exact ⟨file, rfl, rfl⟩
    · exact ⟨file, rfl, rfl⟩
    · rename_i batch hbatch
      rw [writeBatch]
      split_ifs with hschema
      · obtain ⟨file', hfile, h⟩ := ih (file.append batch) (total + rows.length)
        exact ⟨file', hfile, h.trans (Table.schema_append hschema)⟩
      · exact ⟨file, rfl, rfl⟩

/-- A loop that ends without an exception or a break has written every batch. -/
theorem extractBatches_written {batches : List (List Row)} {file : Table} {total total' : ℕ}
    {writer : Option Table}
    (hbreak : ∀ rows ∈ batches, recordBatch lib arrow colNames rows ≠ .ok none)
    (h : extractBatches lib arrow colNames (some file) total batches = (writer, total', none)) :
    ∃ tables, List.Forall₂ (Records lib arrow colNames file.schema) batches tables ∧
      writer = some (tables.foldl Table.append file) := by
  induction batches generalizing file total with
  | nil =>
    obtain ⟨rfl, -⟩ := Prod.ext_iff.1 h
    exact ⟨[], .nil, rfl⟩
  | cons rows batches ih =>
    rw [extractBatches] at h
    split at h
    · cases h
    · rename_i hnone
      exact absurd hnone (hbreak rows (by simp))
    · rename_i batch hbatch
      rw [writeBatch] at h
      split_ifs at h with hschema
      · obtain ⟨tables, htables, hwriter⟩ := ih
          (fun rows hrows => hbreak rows (List.mem_cons_of_mem _ hrows)) h
        rw [Table.schema_append hschema] at htables
        exact ⟨batch :: tables, .cons ⟨hbatch, hschema.symm⟩ htables, hwriter⟩
      · cases h

/-- Batches of the file's schema are all written. -/
theorem extractBatches_of_records {batches : List (List Row)} {tables : List Table} {file : Table}
    {total : ℕ} (h : List.Forall₂ (Records lib arrow colNames file.schema) batches tables) :
    extractBatches lib arrow colNames (some file) total batches =
      (some (tables.foldl Table.append file), total + (batches.map List.length).sum, none) := by
  induction batches generalizing tables file total with
  | nil =>
    cases h
    rfl
  | cons rows batches ih =>
    cases h with
    | cons hbatch htables =>
      rename_i batch tables
      rw [extractBatches, hbatch.1]
      simp only
      rw [writeBatch]
      simp only [hbatch.2, if_true]
      rw [← Table.schema_append hbatch.2.symm] at htables
      rw [ih htables, List.map_cons, List.sum_cons, List.foldl_cons, add_assoc]

end

end Extract

end AimData
