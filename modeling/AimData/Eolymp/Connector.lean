/-
  The aggregates that the `eolymp-v1` connector publishes of a table.

  A column publishes its null rate, the estimated number of its distinct values,
  and a histogram of the lengths of its texts or of the size of its numbers; each
  is withheld by a rule of its own where it shows a group of fewer than
  `minimum_aggregate_occupancy` rows.
-/
import AimData.Lib.Aggregate
import AimData.Lib.Bisect
import AimData.Lib.Json
import AimData.Lib.Numeral
import AimData.Lib.Sha256
import AimData.Lib.Utf8

namespace AimData

namespace Eolymp

/-! ## Tables -/

/-- `APPROVED_COLUMN_TYPES` -/
inductive ColumnType where
  | string
  | integer
  | float
  | decimal
  | boolean
  | date
  | datetime
  | binary
  | unknown
  deriving DecidableEq

/-- A value of `to_pylist`: a float is its `repr`, a decimal its text without
    exponent, and a date or a time its text in ISO format. -/
inductive Value where
  | str (s : String)
  | int (i : ℤ)
  | float (text : String)
  | decimal (text : String)
  | bool (b : Bool)
  | date (text : String)
  | datetime (text : String)
  | bytes (b : Bytes)
  deriving DecidableEq

def Value.type : Value → ColumnType
  | str _ => .string
  | int _ => .integer
  | float _ => .float
  | decimal _ => .decimal
  | bool _ => .boolean
  | date _ => .date
  | datetime _ => .datetime
  | bytes _ => .binary

/-- A column; one of the type `unknown` has no value. -/
structure Column where
  name : String
  type : ColumnType
  values : List (Option Value)
  typed : ∀ v, some v ∈ values → v.type = type

def Column.nonNull (column : Column) : List Value := column.values.reduceOption

def Column.nullCount (column : Column) : ℕ := column.values.countP Option.isNone

structure Table where
  numRows : ℕ
  columns : List Column
  length_eq : ∀ column ∈ columns, column.values.length = numRows

/-- What a scan specification sets for the aggregates. -/
structure ScanSpec where
  minimumAggregateOccupancy : ℕ
  three_le : 3 ≤ minimumAggregateOccupancy
  lengthBounds : List ℕ
  numericBoundaries : List ℚ
  deterministicSeed : Bytes

/-- The least count that a scan may publish. -/
theorem ScanSpec.least : 3 ≤ 3 := le_rfl

/-! ## Null rates -/

def rateScale : ℕ := 1000000

def hllRelativeErrorPpm : ℕ := 91924

/-- `_rounded_rate_units` -/
def roundedRateUnits (count rowCount : ℕ) : ℕ :=
  let quotient := count * rateScale / rowCount
  let remainder := count * rateScale % rowCount
  if rowCount < remainder * 2 ∨ remainder * 2 = rowCount ∧ quotient % 2 = 1 then quotient + 1
  else quotient

/-- `_format_null_rate` -/
def formatNullRate (count rowCount : ℕ) : List Char :=
  let units := roundedRateUnits count rowCount
  Nat.toDigits 10 (units / rateScale) ++ '.' :: Numeral.pad 6 (units % rateScale)

/-- `first_count_at_least` -/
def firstCountAtLeast (rowCount units : ℕ) : ℕ :=
  Bisect.first (fun middle => roundedRateUnits middle rowCount < units) 0 (rowCount + 1)

/-- `_null_rate_preimage_range`: the first and the last count of a formatted rate;
    `none` where it has none. -/
def nullRatePreimageRange (formattedRate : List Char) (rowCount : ℕ) : Option (ℕ × ℕ) :=
  let whole := formattedRate.takeWhile (· ≠ '.')
  let fractional := (formattedRate.dropWhile (· ≠ '.')).tail
  let target := Numeral.value whole * rateScale + Numeral.value fractional
  let first := firstCountAtLeast rowCount target
  let last := firstCountAtLeast rowCount (target + 1) - 1
  if rowCount < first ∨ last < first ∨ roundedRateUnits first rowCount ≠ target then none
  else some (first, last)

/-- `_null_rate_has_ambiguous_sparse_support`: of `none`, the rate has no count. -/
def nullRateHasAmbiguousSparseSupport (formattedRate : List Char) (rowCount k : ℕ) :
    Option Bool := do
  let (first, last) ← nullRatePreimageRange formattedRate rowCount
  let sparseHigh := k - 1
  let sparseNull : Bool := max first 1 ≤ min last sparseHigh
  let sparseNonNull : Bool := max first (rowCount - sparseHigh) ≤ min last (rowCount - 1)
  return sparseNull || sparseNonNull

/-! ## Distinct counts -/

/-- `_canonical_local_value` -/
def canonicalLocalValue : Value → Bytes
  | .bytes b => Utf8.encode "bytes:".toList ++ b
  | .date text | .datetime text => Utf8.encode ("time:".toList ++ text.toList)
  | .decimal text => Utf8.encode ("decimal:".toList ++ text.toList)
  | .str s => Utf8.encode (Json.str s).dumps
  | .int i => Utf8.encode (Json.int i).dumps
  | .float text => Utf8.encode (Json.float text).dumps
  | .bool b => Utf8.encode (Json.bool b).dumps

/-- The first eight bytes of the digest of a value. -/
def hllNumber (seed : Bytes) (value : Value) : ℕ :=
  Bytes.toNat ((sha256 (seed ++ 0 :: canonicalLocalValue value)).1.take 8)

def hllIndex (seed : Bytes) (value : Value) : ℕ := hllNumber seed value % 128

def hllRank (seed : Bytes) (value : Value) : ℕ := 58 - (hllNumber seed value / 128).size

/-- The number of different values, by their canonical bytes. -/
def localExactDistinct (values : List Value) : ℕ := (values.map canonicalLocalValue).toFinset.card

/-- `_approx_distinct_has_ambiguous_sparse_support` -/
def approxDistinctHasAmbiguousSparseSupport (estimate relativeErrorPpm k : ℕ) : Bool :=
  if estimate = 0 then false
  else
    let lowerNumerator : ℤ := estimate * (rateScale - relativeErrorPpm)
    let upperNumerator : ℤ := estimate * (rateScale + relativeErrorPpm)
    let firstInteger := max 1 (-(-lowerNumerator / rateScale))
    let lastInteger := min (k - 1 : ℤ) (upperNumerator / rateScale)
    firstInteger ≤ lastInteger

/-! ## Histograms -/

/-- The bytes of a text or a byte string; only columns of these have a histogram of
    lengths. -/
def encodedLength : Value → ℕ
  | .bytes b => b.length
  | .str s => (Utf8.encode s.toList).length
  | _ => 0

/-- `_histogram` -/
def lengthHistogram (bounds : List ℕ) (values : List Value) : List ℕ :=
  Aggregate.histogram (fun value => bounds.findIdx (encodedLength value ≤ ·)) (bounds.length + 1)
    values

section
variable (double : Value → ℚ)

/-- `_numeric_buckets`; `double` is `float` of a value. -/
def numericBuckets (boundaries : List ℚ) (values : List Value) : List ℕ :=
  Aggregate.histogram (fun value => boundaries.findIdx (double value < ·))
    (boundaries.length + 1) values

end

/-! ## Facts -/

/-- An aggregate, or `suppressed_low_occupancy`. -/
inductive Published (α : Type) where
  | suppressed
  | value (a : α)
  deriving DecidableEq

def Published.unless {α : Type} (hidden : Prop) [Decidable hidden] (a : α) : Published α :=
  if hidden then .suppressed else .value a

structure DistinctCount where
  estimate : ℕ
  algorithm : String
  relativeErrorPpm : ℕ
  deriving DecidableEq

/-- What one column publishes. -/
@[ext]
structure ColumnFact where
  nullRate : Published (List Char)
  approxDistinctCount : Published DistinctCount
  lengthHistogram : Option (Published (List ℕ))
  numericRangeBuckets : Option (Published (List ℕ))
  deriving DecidableEq

structure Fact where
  objectId : String
  columnNames : List String
  columnTypes : List ColumnType
  nullRate : List (Published (List Char))
  approxDistinctCount : List (Published DistinctCount)
  lengthHistograms : List (Option (Published (List ℕ)))
  numericRangeBuckets : List (Option (Published (List ℕ)))
  rowCount : ℕ
  deriving DecidableEq

section
variable (spec : ScanSpec) (estimate : List ℕ → ℕ) (double : Value → ℚ)

/-- `_hll_estimate`; `estimate` is its formula over the registers, in floating point. -/
def hllEstimate (values : List Value) (seed : Bytes) : ℕ :=
  estimate (Aggregate.sketch (hllIndex seed) (hllRank seed) 128 values)

/-- `seed + index.to_bytes(4, "big")` -/
def columnSeed (index : ℕ) : Bytes := spec.deterministicSeed ++ Bytes.ofNat index 4

/-- The null rate of a column that has `nullCount` nulls. -/
def nullRateFact (numRows nullCount : ℕ) : Published (List Char) :=
  let k := spec.minimumAggregateOccupancy
  let formatted := formatNullRate nullCount numRows
  .unless (numRows < k ∨ Aggregate.Sparse k [nullCount, numRows - nullCount] ∨
    nullRateHasAmbiguousSparseSupport formatted numRows k = some true) formatted

/-- The distinct count of a column is withheld, in a table of enough rows. -/
def DistinctHidden (index : ℕ) (values : List Value) : Prop :=
  let k := spec.minimumAggregateOccupancy
  0 < localExactDistinct values ∧ localExactDistinct values < k ∨
    approxDistinctHasAmbiguousSparseSupport (hllEstimate estimate values (columnSeed spec index))
      hllRelativeErrorPpm k

instance (index : ℕ) (values : List Value) :
    Decidable (DistinctHidden spec estimate index values) :=
  inferInstanceAs (Decidable (_ ∨ _))

def distinctFact (index numRows : ℕ) (values : List Value) : Published DistinctCount :=
  .unless (numRows < spec.minimumAggregateOccupancy ∨ DistinctHidden spec estimate index values)
    ⟨hllEstimate estimate values (columnSeed spec index), "hll-sha256-v1", hllRelativeErrorPpm⟩

/-- A histogram is published unless one of its buckets is sparse. -/
def histogramFact (numRows : ℕ) (counts : List ℕ) : Published (List ℕ) :=
  let k := spec.minimumAggregateOccupancy
  .unless (numRows < k ∨ Aggregate.Sparse k counts) counts

/-- The facts of a column, by its type, its number of nulls and its other values. -/
def columnFact (index numRows : ℕ) (type : ColumnType) (nullCount : ℕ) (values : List Value) :
    ColumnFact where
  nullRate := nullRateFact spec numRows nullCount
  approxDistinctCount := distinctFact spec estimate index numRows values
  lengthHistogram :=
    if type ∈ [.string, .binary] then
      some (histogramFact spec numRows (lengthHistogram spec.lengthBounds values))
    else none
  numericRangeBuckets :=
    if type ∈ [.integer, .float, .decimal] then
      some (histogramFact spec numRows (numericBuckets double spec.numericBoundaries values))
    else none

/-- The facts of the columns of a table, in their order. -/
def columnFacts (table : Table) : List ColumnFact :=
  table.columns.mapIdx fun index column =>
    columnFact spec estimate double index table.numRows column.type column.nullCount
      column.nonNull

/-- The facts that a scan publishes of one object. -/
def objectFact (objectId : String) (table : Table) : Fact where
  objectId := objectId
  columnNames := table.columns.map Column.name
  columnTypes := table.columns.map Column.type
  nullRate := (columnFacts spec estimate double table).map ColumnFact.nullRate
  approxDistinctCount := (columnFacts spec estimate double table).map
    ColumnFact.approxDistinctCount
  lengthHistograms := (columnFacts spec estimate double table).map ColumnFact.lengthHistogram
  numericRangeBuckets := (columnFacts spec estimate double table).map
    ColumnFact.numericRangeBuckets
  rowCount := table.numRows

end

/-! ## The rate of a count -/

theorem roundedRateUnits_mono {rowCount count count' : ℕ} (h : count ≤ count') :
    roundedRateUnits count rowCount ≤ roundedRateUnits count' rowCount := by
  have hle : count * rateScale ≤ count' * rateScale := Nat.mul_le_mul_right _ h
  have hdiv : count * rateScale / rowCount ≤ count' * rateScale / rowCount :=
    Nat.div_le_div_right hle
  have hq := Nat.div_add_mod (count * rateScale) rowCount
  have hq' := Nat.div_add_mod (count' * rateScale) rowCount
  simp only [roundedRateUnits]
  rcases Nat.lt_or_eq_of_le hdiv with hlt | heq
  · clear hq hq'
    split_ifs <;> omega
  · -- of one quotient, the greater count has the greater remainder
    rw [heq] at hq ⊢
    have hmod : count * rateScale % rowCount ≤ count' * rateScale % rowCount := by omega
    clear hq hq' heq hle
    split_ifs <;> omega

theorem roundedRateUnits_zero (rowCount : ℕ) : roundedRateUnits 0 rowCount = 0 := by
  simp only [roundedRateUnits, Nat.zero_mul, Nat.zero_div, Nat.zero_mod]
  rw [if_neg]
  omega

theorem roundedRateUnits_self {rowCount : ℕ} (hrows : 0 < rowCount) :
    roundedRateUnits rowCount rowCount = rateScale := by
  simp only [roundedRateUnits, Nat.mul_mod_right, Nat.mul_div_cancel_left rateScale hrows]
  rw [if_neg]
  omega

/-- A single row is lost in the rate from two million rows on. -/
theorem roundedRateUnits_one {rowCount : ℕ} (hrows : 0 < rowCount) :
    roundedRateUnits 1 rowCount = 0 ↔ 2 * rateScale ≤ rowCount := by
  have hscale : 0 < rateScale := by decide
  simp only [roundedRateUnits, one_mul]
  by_cases hlt : rateScale < rowCount
  · rw [Nat.div_eq_of_lt hlt, Nat.mod_eq_of_lt hlt, ite_eq_right_iff]
    omega
  · have hpos : 0 < rateScale / rowCount := Nat.div_pos (not_lt.1 hlt) hrows
    refine iff_of_false ?_ (by omega)
    split_ifs
    · exact not_false
    · exact hpos.ne'

theorem roundedRateUnits_pred {rowCount : ℕ} (hrows : 0 < rowCount) :
    roundedRateUnits (rowCount - 1) rowCount = rateScale ↔ 2 * rateScale ≤ rowCount := by
  have hpred : (rowCount - 1) * rateScale + rateScale = rateScale * rowCount := by
    obtain ⟨n, rfl⟩ : ∃ n, rowCount = n + 1 := ⟨rowCount - 1, by omega⟩
    rw [Nat.add_sub_cancel]
    ring
  have hscale : (rateScale - 1) * rowCount + rowCount = rateScale * rowCount := by
    rw [rateScale]
    omega
  by_cases hle : rateScale ≤ rowCount
  · have hlt : rowCount - rateScale < rowCount := Nat.sub_lt hrows (by decide)
    have hdiv : (rowCount - 1) * rateScale =
        rowCount * (rateScale - 1) + (rowCount - rateScale) := by
      rw [Nat.mul_comm rowCount]
      omega
    simp only [roundedRateUnits]
    rw [hdiv, Nat.mul_add_div hrows, Nat.mul_add_mod, Nat.mod_eq_of_lt hlt, Nat.div_eq_of_lt hlt]
    rw [rateScale] at hle ⊢
    split_ifs <;> omega
  · have hdiv : (rowCount - 1) * rateScale / rowCount < rateScale - 1 := by
      rw [Nat.div_lt_iff_lt_mul hrows]
      omega
    simp only [roundedRateUnits]
    rw [rateScale] at hle hdiv ⊢
    split_ifs <;> omega

/-- The search finds the first count of at least the units sought. -/
theorem firstCountAtLeast_le_iff {rowCount units count : ℕ} (hcount : count ≤ rowCount) :
    firstCountAtLeast rowCount units ≤ count ↔ units ≤ roundedRateUnits count rowCount := by
  have hmono : ∀ m m', m ≤ m' → decide (roundedRateUnits m' rowCount < units) = true →
      decide (roundedRateUnits m rowCount < units) = true := by
    intro m m' hle h
    rw [decide_eq_true_eq] at h ⊢
    exact lt_of_le_of_lt (roundedRateUnits_mono hle) h
  rw [firstCountAtLeast, Bisect.first_le_iff hmono (by omega) (by omega) (by omega)]
  simp

theorem digits_no_point (n : ℕ) : ∀ c ∈ Nat.toDigits 10 n, decide (c ≠ '.') = true := by
  intro c hc
  have hdigit := Numeral.isDigit_toDigits c hc
  rw [decide_eq_true_eq]
  rintro rfl
  exact absurd hdigit (by decide)

/-- What a text says of the rate. -/
def rateUnits (formattedRate : List Char) : ℕ :=
  Numeral.value (formattedRate.takeWhile (· ≠ '.')) * rateScale +
    Numeral.value (formattedRate.dropWhile (· ≠ '.')).tail

/-- A text says the rate it is made of. -/
theorem rateUnits_format (count rowCount : ℕ) :
    rateUnits (formatNullRate count rowCount) = roundedRateUnits count rowCount := by
  have hlt : roundedRateUnits count rowCount % rateScale < 10 ^ 6 := Nat.mod_lt _ (by decide)
  rw [rateUnits, formatNullRate]
  simp only [List.takeWhile_append_of_pos (digits_no_point _),
    List.dropWhile_append_of_pos (digits_no_point _)]
  simp only [ne_eq, not_true_eq_false, decide_false, Bool.false_eq_true, not_false_eq_true,
    List.takeWhile_cons_of_neg, List.append_nil, List.dropWhile_cons_of_neg, List.tail_cons]
  rw [Numeral.value_toDigits, Numeral.value_pad hlt, Nat.mul_comm, Nat.div_add_mod]

/-- The rate of a count has a range of counts, from which the search does not fail. -/
theorem nullRatePreimageRange_format {count rowCount : ℕ} (h : count ≤ rowCount) :
    nullRatePreimageRange (formatNullRate count rowCount) rowCount =
      some (firstCountAtLeast rowCount (roundedRateUnits count rowCount),
        firstCountAtLeast rowCount (roundedRateUnits count rowCount + 1) - 1) := by
  have htarget := rateUnits_format count rowCount
  have hfirst : firstCountAtLeast rowCount (roundedRateUnits count rowCount) ≤ count :=
    (firstCountAtLeast_le_iff h).2 le_rfl
  have hlast : ¬ firstCountAtLeast rowCount (roundedRateUnits count rowCount + 1) ≤ count := by
    rw [firstCountAtLeast_le_iff h]
    omega
  have hunits : roundedRateUnits (firstCountAtLeast rowCount (roundedRateUnits count rowCount))
      rowCount = roundedRateUnits count rowCount :=
    le_antisymm (roundedRateUnits_mono hfirst)
      ((firstCountAtLeast_le_iff (hfirst.trans h)).1 le_rfl)
  rw [rateUnits] at htarget
  rw [nullRatePreimageRange]
  simp only [htarget]
  rw [if_neg]
  rw [hunits]
  omega

/-- That no row is null is withheld where a single null would have the same rate. -/
theorem nullRateHasAmbiguousSparseSupport_zero {rowCount k : ℕ} (hk : 3 ≤ k)
    (hrows : k ≤ rowCount) :
    nullRateHasAmbiguousSparseSupport (formatNullRate 0 rowCount) rowCount k = some true ↔
      2 * rateScale ≤ rowCount := by
  have hfirst : firstCountAtLeast rowCount 0 ≤ 0 ↔ 0 ≤ roundedRateUnits 0 rowCount :=
    firstCountAtLeast_le_iff (Nat.zero_le _)
  have hzero : firstCountAtLeast rowCount 1 ≤ 0 ↔ 1 ≤ roundedRateUnits 0 rowCount :=
    firstCountAtLeast_le_iff (Nat.zero_le _)
  have hone : firstCountAtLeast rowCount 1 ≤ 1 ↔ 1 ≤ roundedRateUnits 1 rowCount :=
    firstCountAtLeast_le_iff (by omega)
  have hlost := @roundedRateUnits_one rowCount (by omega)
  rw [nullRateHasAmbiguousSparseSupport, nullRatePreimageRange_format (Nat.zero_le _)]
  rw [roundedRateUnits_zero] at hfirst hzero ⊢
  simp only [Nat.zero_add, Option.bind_eq_bind, Option.bind_some, Option.pure_def,
    Option.some.injEq, Bool.or_eq_true, decide_eq_true_eq]
  omega

/-- That every row is null is withheld where one value would leave the same rate. -/
theorem nullRateHasAmbiguousSparseSupport_self {rowCount k : ℕ} (hk : 3 ≤ k)
    (hrows : k ≤ rowCount) :
    nullRateHasAmbiguousSparseSupport (formatNullRate rowCount rowCount) rowCount k = some true ↔
      2 * rateScale ≤ rowCount := by
  have hself : firstCountAtLeast rowCount rateScale ≤ rowCount ↔
      rateScale ≤ roundedRateUnits rowCount rowCount := firstCountAtLeast_le_iff le_rfl
  have hlast : firstCountAtLeast rowCount (rateScale + 1) ≤ rowCount ↔
      rateScale + 1 ≤ roundedRateUnits rowCount rowCount := firstCountAtLeast_le_iff le_rfl
  have hpred : firstCountAtLeast rowCount rateScale ≤ rowCount - 1 ↔
      rateScale ≤ roundedRateUnits (rowCount - 1) rowCount := firstCountAtLeast_le_iff (by omega)
  have hle : roundedRateUnits (rowCount - 1) rowCount ≤ roundedRateUnits rowCount rowCount :=
    roundedRateUnits_mono (by omega)
  have hlost := @roundedRateUnits_pred rowCount (by omega)
  rw [nullRateHasAmbiguousSparseSupport, nullRatePreimageRange_format le_rfl]
  rw [roundedRateUnits_self (by omega)] at hself hlast hle ⊢
  simp only [Option.bind_eq_bind, Option.bind_some, Option.pure_def, Option.some.injEq,
    Bool.or_eq_true, decide_eq_true_eq]
  omega

end Eolymp

end AimData
