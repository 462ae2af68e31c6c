/-
  Whether a null count that the connector withholds can be told from what it
  publishes.

  A histogram counts every value that is not null, so a published one tells the
  null count of its column.  Where no histogram is published, another column has
  the same facts: of few values where the distinct count is withheld too, and
  otherwise with one value more, repeated.
-/
import AimData.Eolymp.Connector
import Mathlib.Data.List.ReduceOption

namespace AimData

namespace Eolymp

section
variable (spec : ScanSpec) (estimate : List ℕ → ℕ) (double : Value → ℚ)

/-! ## What is told of a null count -/

/-- The null rate of a column is withheld as its nulls, or its other values, are few. -/
def Withheld (numRows nullCount : ℕ) : Prop :=
  Aggregate.Sparse spec.minimumAggregateOccupancy [nullCount, numRows - nullCount]

def Table.nullCount (table : Table) (index : ℕ) : Option ℕ :=
  table.columns[index]?.map Column.nullCount

/-- A table that publishes the same has another null count in the column. -/
def Ambiguous (objectId : String) (table : Table) (index : ℕ) : Prop :=
  ∃ table' : Table, objectFact spec estimate double objectId table' =
      objectFact spec estimate double objectId table ∧
    table'.nullCount index ≠ table.nullCount index

/-- No histogram is published of a column, in a table of enough rows. -/
def HistogramHidden (type : ColumnType) (values : List Value) : Prop :=
  let k := spec.minimumAggregateOccupancy
  (type ∈ [.string, .binary] →
      Aggregate.Sparse k (lengthHistogram spec.lengthBounds values)) ∧
    (type ∈ [.integer, .float, .decimal] →
      Aggregate.Sparse k (numericBuckets double spec.numericBoundaries values))

/-- The values leave room for another null count: in a table of few rows, or where no
    histogram is published and another number of values has the same distinct count. -/
def Deniable (index numRows : ℕ) (type : ColumnType) (nullCount : ℕ) (values : List Value) :
    Prop :=
  let k := spec.minimumAggregateOccupancy
  let seed := columnSeed spec index
  numRows < k ∧ type ≠ .unknown ∨
    k ≤ numRows ∧ HistogramHidden spec double type values ∧
      (DistinctHidden spec estimate index values ∨ 2 ≤ nullCount ∨ 2 * rateScale ≤ numRows ∨
        ∃ values', values'.length = numRows - 2 ∧ (∀ v ∈ values', v.type = type) ∧
          HistogramHidden spec double type values' ∧ k ≤ localExactDistinct values' ∧
          hllEstimate estimate values' seed = hllEstimate estimate values seed)

end

/-! ## Withheld facts -/

theorem Published.unless_pos {α : Type} {hidden : Prop} [Decidable hidden] {a : α}
    (h : hidden) : Published.unless hidden a = .suppressed := if_pos h

theorem Published.unless_neg {α : Type} {hidden : Prop} [Decidable hidden] {a : α}
    (h : ¬ hidden) : Published.unless hidden a = .value a := if_neg h

theorem Published.unless_eq_suppressed {α : Type} {hidden : Prop} [Decidable hidden] {a : α} :
    Published.unless hidden a = .suppressed ↔ hidden := by
  by_cases h : hidden
  · simp [Published.unless, h]
  · simp [Published.unless, h]

section
variable {spec : ScanSpec} {estimate : List ℕ → ℕ} {double : Value → ℚ}

theorem sparse_pair {k a b : ℕ} :
    Aggregate.Sparse k [a, b] ↔ (0 < a ∧ a < k) ∨ (0 < b ∧ b < k) := by
  simp [Aggregate.Sparse]

/-- Another number of values is told by a histogram, unless it is withheld. -/
theorem sparse_of_histogramFact {index : Value → ℕ} {size numRows : ℕ}
    {values values' : List Value} (hindex : ∀ v, index v < size)
    (hrows : spec.minimumAggregateOccupancy ≤ numRows)
    (h : histogramFact spec numRows (Aggregate.histogram index size values') =
      histogramFact spec numRows (Aggregate.histogram index size values))
    (hne : values'.length ≠ values.length) :
    Aggregate.Sparse spec.minimumAggregateOccupancy (Aggregate.histogram index size values) ∧
      Aggregate.Sparse spec.minimumAggregateOccupancy
        (Aggregate.histogram index size values') := by
  have hiff : ∀ counts, histogramFact spec numRows counts = .suppressed ↔
      Aggregate.Sparse spec.minimumAggregateOccupancy counts := by
    intro counts
    rw [histogramFact, Published.unless_eq_suppressed]
    exact or_iff_right (not_lt.2 hrows)
  have hboth := (hiff _).symm.trans ((Eq.congr_left h).trans (hiff _))
  by_cases hsparse : Aggregate.Sparse spec.minimumAggregateOccupancy
      (Aggregate.histogram index size values)
  · exact ⟨hsparse, hboth.2 hsparse⟩
  · -- both are published, and have the same sum
    have hsparse' := mt hboth.1 hsparse
    rw [histogramFact, histogramFact, Published.unless_neg (by simp [hsparse', hrows]),
      Published.unless_neg (by simp [hsparse, hrows])] at h
    have hsum := congrArg List.sum (Published.value.inj h)
    rw [Aggregate.sum_histogram index fun v _ => hindex v,
      Aggregate.sum_histogram index fun v _ => hindex v] at hsum
    exact absurd hsum hne

theorem lengthIndex_lt {bounds : List ℕ} (v : Value) :
    bounds.findIdx (encodedLength v ≤ ·) < bounds.length + 1 :=
  Nat.lt_succ_of_le List.findIdx_le_length

theorem numericIndex_lt {boundaries : List ℚ} (v : Value) :
    boundaries.findIdx (double v < ·) < boundaries.length + 1 :=
  Nat.lt_succ_of_le List.findIdx_le_length

theorem HistogramHidden.of_fact {index numRows nullCount nullCount' : ℕ} {type : ColumnType}
    {values values' : List Value} (hrows : spec.minimumAggregateOccupancy ≤ numRows)
    (h : columnFact spec estimate double index numRows type nullCount' values' =
      columnFact spec estimate double index numRows type nullCount values)
    (hne : values'.length ≠ values.length) :
    HistogramHidden spec double type values ∧ HistogramHidden spec double type values' := by
  have hlengths : type ∈ [ColumnType.string, .binary] →
      histogramFact spec numRows (lengthHistogram spec.lengthBounds values') =
        histogramFact spec numRows (lengthHistogram spec.lengthBounds values) := by
    intro htype
    have := congrArg ColumnFact.lengthHistogram h
    simpa only [columnFact, if_pos htype, Option.some.injEq] using this
  have hbuckets : type ∈ [ColumnType.integer, .float, .decimal] →
      histogramFact spec numRows (numericBuckets double spec.numericBoundaries values') =
        histogramFact spec numRows (numericBuckets double spec.numericBoundaries values) := by
    intro htype
    have := congrArg ColumnFact.numericRangeBuckets h
    simpa only [columnFact, if_pos htype, Option.some.injEq] using this
  constructor
  · exact ⟨fun ht => (sparse_of_histogramFact lengthIndex_lt hrows (hlengths ht) hne).1,
      fun ht => (sparse_of_histogramFact numericIndex_lt hrows (hbuckets ht) hne).1⟩
  · exact ⟨fun ht => (sparse_of_histogramFact lengthIndex_lt hrows (hlengths ht) hne).2,
      fun ht => (sparse_of_histogramFact numericIndex_lt hrows (hbuckets ht) hne).2⟩

/-! ## Values that leave a histogram withheld -/

theorem HistogramHidden.of_short {type : ColumnType} {values : List Value} (hne : values ≠ [])
    (hlen : values.length < spec.minimumAggregateOccupancy) :
    HistogramHidden spec double type values :=
  ⟨fun _ => Aggregate.sparse_of_short _ hne hlen fun v _ => lengthIndex_lt v,
    fun _ => Aggregate.sparse_of_short _ hne hlen fun v _ => numericIndex_lt v⟩

theorem HistogramHidden.repeat {type : ColumnType} {values : List Value}
    (hlen : spec.minimumAggregateOccupancy ≤ values.length)
    (h : HistogramHidden spec double type values) :
    ∃ v ∈ values, HistogramHidden spec double type (v :: values) := by
  by_cases hlengths : type ∈ [ColumnType.string, .binary]
  · obtain ⟨v, hv, hsparse⟩ := Aggregate.sparse_repeat _ hlen (h.1 hlengths)
    refine ⟨v, hv, fun _ => hsparse, fun hbuckets => ?_⟩
    rcases List.mem_pair.1 hlengths with rfl | rfl <;> simp at hbuckets
  by_cases hbuckets : type ∈ [ColumnType.integer, .float, .decimal]
  · obtain ⟨v, hv, hsparse⟩ := Aggregate.sparse_repeat _ hlen (h.2 hbuckets)
    exact ⟨v, hv, fun ht => absurd ht hlengths, fun _ => hsparse⟩
  have hpos : 0 < values.length := lt_of_lt_of_le (by have := spec.three_le; omega) hlen
  exact ⟨values[0], List.getElem_mem hpos, fun ht => absurd ht hlengths,
    fun ht => absurd ht hbuckets⟩

/-- Values can be repeated up to any number. -/
theorem HistogramHidden.extend {type : ColumnType} {values : List Value} {m : ℕ}
    (hlen : spec.minimumAggregateOccupancy ≤ values.length) (hm : values.length ≤ m)
    (h : HistogramHidden spec double type values) :
    ∃ values', values'.length = m ∧ (∀ v, v ∈ values' ↔ v ∈ values) ∧
      HistogramHidden spec double type values' := by
  induction m, hm using Nat.le_induction with
  | base => exact ⟨values, rfl, fun _ => Iff.rfl, h⟩
  | succ m hm ih =>
    obtain ⟨values', hlen', hmem, hhidden⟩ := ih
    obtain ⟨v, hv, hhidden⟩ := hhidden.repeat (by omega)
    refine ⟨v :: values', by simp [hlen'], fun w => ?_, hhidden⟩
    rw [List.mem_cons, hmem]
    refine or_iff_right_of_imp ?_
    rintro rfl
    exact (hmem w).1 hv

/-! ## The distinct count of a set of values -/

theorem localExactDistinct_congr {values values' : List Value}
    (h : ∀ v, v ∈ values' ↔ v ∈ values) :
    localExactDistinct values' = localExactDistinct values := by
  rw [localExactDistinct, localExactDistinct]
  congr 1
  ext bytes
  simp [h]

theorem hllEstimate_congr {values values' : List Value} {seed : Bytes}
    (h : ∀ v, v ∈ values' ↔ v ∈ values) :
    hllEstimate estimate values' seed = hllEstimate estimate values seed := by
  rw [hllEstimate, hllEstimate, Aggregate.sketch_congr _ _ h]

theorem localExactDistinct_le {values : List Value} :
    localExactDistinct values ≤ values.length := by
  rw [localExactDistinct, ← List.length_map canonicalLocalValue]
  exact List.toFinset_card_le _

theorem localExactDistinct_pos {values : List Value} (h : values ≠ []) :
    0 < localExactDistinct values := by
  rw [localExactDistinct, Finset.card_pos, List.toFinset_nonempty_iff]
  simpa using h

/-- A single value, whatever its number, has its distinct count withheld. -/
theorem distinctHidden_replicate {index n : ℕ} {v : Value} (hn : n ≠ 0) :
    DistinctHidden spec estimate index (List.replicate n v) := by
  have hcard : localExactDistinct (List.replicate n v) = 1 := by
    rw [localExactDistinct, List.map_replicate, List.toFinset_replicate_of_ne_zero hn,
      Finset.card_singleton]
  have hk := spec.three_le
  refine .inl ?_
  rw [hcard]
  omega

/-- Values with a published distinct count are many. -/
theorem le_distinct_of_not_hidden {index : ℕ} {values : List Value} (hne : values ≠ [])
    (h : ¬ DistinctHidden spec estimate index values) :
    spec.minimumAggregateOccupancy ≤ localExactDistinct values := by
  have hpos := localExactDistinct_pos hne
  by_contra hlt
  exact h (.inl ⟨hpos, not_le.1 hlt⟩)

/-- Many values with one estimate publish one distinct count. -/
theorem distinctFact_congr {index numRows : ℕ} {values values' : List Value}
    (hk : spec.minimumAggregateOccupancy ≤ localExactDistinct values)
    (hk' : spec.minimumAggregateOccupancy ≤ localExactDistinct values')
    (h : hllEstimate estimate values' (columnSeed spec index) =
      hllEstimate estimate values (columnSeed spec index)) :
    distinctFact spec estimate index numRows values' =
      distinctFact spec estimate index numRows values := by
  have hhidden : ∀ vs : List Value, spec.minimumAggregateOccupancy ≤ localExactDistinct vs →
      (DistinctHidden spec estimate index vs ↔ approxDistinctHasAmbiguousSparseSupport
        (hllEstimate estimate vs (columnSeed spec index)) hllRelativeErrorPpm
        spec.minimumAggregateOccupancy = true) := by
    intro vs hvs
    exact or_iff_right fun hfew => absurd hfew.2 (not_lt.2 hvs)
  rw [distinctFact, distinctFact]
  simp only [hhidden _ hk, hhidden _ hk', h]

/-! ## Columns of the same facts -/

theorem nullRateFact_withheld {numRows nullCount : ℕ} (h : Withheld spec numRows nullCount) :
    nullRateFact spec numRows nullCount = .suppressed :=
  Published.unless_pos (.inr (.inl h))

/-- Columns without published facts agree. -/
theorem columnFact_congr {index numRows nullCount nullCount' : ℕ} {type : ColumnType}
    {values values' : List Value}
    (hrate : nullRateFact spec numRows nullCount = .suppressed)
    (hrate' : nullRateFact spec numRows nullCount' = .suppressed)
    (hdistinct : distinctFact spec estimate index numRows values' =
      distinctFact spec estimate index numRows values)
    (hhidden : HistogramHidden spec double type values)
    (hhidden' : HistogramHidden spec double type values') :
    columnFact spec estimate double index numRows type nullCount' values' =
      columnFact spec estimate double index numRows type nullCount values := by
  have hsuppressed : ∀ counts,
      Aggregate.Sparse spec.minimumAggregateOccupancy counts →
      histogramFact spec numRows counts = .suppressed :=
    fun _ hsparse => Published.unless_pos (.inr hsparse)
  simp only [columnFact, ColumnFact.mk.injEq]
  refine ⟨hrate'.trans hrate.symm, hdistinct, ?_, ?_⟩
  · split_ifs with htype
    · rw [hsuppressed _ (hhidden.1 htype), hsuppressed _ (hhidden'.1 htype)]
    · rfl
  · split_ifs with htype
    · rw [hsuppressed _ (hhidden.2 htype), hsuppressed _ (hhidden'.2 htype)]
    · rfl

/-! ## Another number of values -/

/-- Another number of values of the type of a column publishes the same. -/
def OtherValues (spec : ScanSpec) (estimate : List ℕ → ℕ) (double : Value → ℚ)
    (index numRows : ℕ) (type : ColumnType) (values : List Value) : Prop :=
  ∃ values', (∀ v ∈ values', v.type = type) ∧ values'.length ≤ numRows ∧
    values'.length ≠ values.length ∧
    columnFact spec estimate double index numRows type (numRows - values'.length) values' =
      columnFact spec estimate double index numRows type (numRows - values.length) values

variable {index numRows : ℕ} {type : ColumnType} {values : List Value}

/-- Few rows publish nothing. -/
theorem columnFact_of_few {nullCount nullCount' : ℕ} {values' : List Value}
    (hrows : numRows < spec.minimumAggregateOccupancy) :
    columnFact spec estimate double index numRows type nullCount' values' =
      columnFact spec estimate double index numRows type nullCount values := by
  have hhistogram : ∀ counts, histogramFact spec numRows counts = .suppressed :=
    fun _ => Published.unless_pos (.inl hrows)
  have hrate : ∀ count, nullRateFact spec numRows count = .suppressed :=
    fun _ => Published.unless_pos (.inl hrows)
  have hdistinct : ∀ vs, distinctFact spec estimate index numRows vs = .suppressed :=
    fun _ => Published.unless_pos (.inl hrows)
  simp only [columnFact, hhistogram, hrate, hdistinct]

theorem exists_value (h : type ≠ .unknown) : ∃ v : Value, v.type = type := by
  cases type with
  | string => exact ⟨.str "", rfl⟩
  | integer => exact ⟨.int 0, rfl⟩
  | float => exact ⟨.float "0.0", rfl⟩
  | decimal => exact ⟨.decimal "0", rfl⟩
  | boolean => exact ⟨.bool true, rfl⟩
  | date => exact ⟨.date "1970-01-01", rfl⟩
  | datetime => exact ⟨.datetime "1970-01-01T00:00:00", rfl⟩
  | binary => exact ⟨.bytes [], rfl⟩
  | unknown => exact absurd rfl h

theorem otherValues_of_few (hrows : numRows < spec.minimumAggregateOccupancy)
    (htype : type ≠ .unknown) (hpos : 0 < numRows) :
    OtherValues spec estimate double index numRows type values := by
  cases values with
  | nil =>
    obtain ⟨v, hv⟩ := exists_value htype
    exact ⟨[v], by simp [hv], hpos, by simp, columnFact_of_few hrows⟩
  | cons v values =>
    exact ⟨[], by simp, Nat.zero_le _, by simp, columnFact_of_few hrows⟩

/-- Where no count of the column is published, it can be one value, once or twice. -/
theorem otherValues_of_hidden (hrows : spec.minimumAggregateOccupancy ≤ numRows)
    (htyped : ∀ v ∈ values, v.type = type) (hne : values ≠ [])
    (hwithheld : Withheld spec numRows (numRows - values.length))
    (hhidden : HistogramHidden spec double type values)
    (hdistinct : DistinctHidden spec estimate index values) :
    OtherValues spec estimate double index numRows type values := by
  obtain ⟨v, hv⟩ := List.exists_mem_of_ne_nil values hne
  have hk := spec.three_le
  obtain ⟨n, hn, hother⟩ : ∃ n, (n = 1 ∨ n = 2) ∧ n ≠ values.length := by
    by_cases hone : values.length = 1
    · exact ⟨2, by omega, by omega⟩
    · exact ⟨1, by omega, by omega⟩
  refine ⟨List.replicate n v, fun w hw => ?_, ?_, ?_, ?_⟩
  · rw [List.eq_of_mem_replicate hw]
    exact htyped v hv
  · rw [List.length_replicate]
    omega
  · rwa [List.length_replicate]
  · have hdistinct' : DistinctHidden spec estimate index (List.replicate n v) :=
      distinctHidden_replicate (by omega)
    refine columnFact_congr (nullRateFact_withheld hwithheld) (nullRateFact_withheld ?_) ?_
      hhidden (HistogramHidden.of_short ?_ ?_)
    · rw [Withheld, sparse_pair, List.length_replicate]
      omega
    · rw [distinctFact, distinctFact, Published.unless_pos (.inr hdistinct'),
        Published.unless_pos (.inr hdistinct)]
    · exact List.ne_nil_of_length_pos (by rw [List.length_replicate]; omega)
    · rw [List.length_replicate]
      omega

/-- A null can be filled with a value that the column has. -/
theorem otherValues_of_repeat (hrows : spec.minimumAggregateOccupancy ≤ numRows)
    (htyped : ∀ v ∈ values, v.type = type) (hlen : values.length < numRows)
    (hwithheld : Withheld spec numRows (numRows - values.length))
    (hhidden : HistogramHidden spec double type values)
    (hmany : spec.minimumAggregateOccupancy ≤ localExactDistinct values)
    (hnulls : 2 ≤ numRows - values.length ∨ 2 * rateScale ≤ numRows) :
    OtherValues spec estimate double index numRows type values := by
  have hvalues := hmany.trans localExactDistinct_le
  obtain ⟨v, hv, hhidden'⟩ := hhidden.repeat hvalues
  have hmem : ∀ w, w ∈ v :: values ↔ w ∈ values := by
    intro w
    rw [List.mem_cons]
    refine or_iff_right_of_imp ?_
    rintro rfl
    exact hv
  have hrate : nullRateFact spec numRows (numRows - (values.length + 1)) = .suppressed := by
    by_cases hzero : numRows - (values.length + 1) = 0
    · -- no null is left, and a single one would have the same rate
      rw [hzero]
      exact Published.unless_pos (.inr (.inr
        ((nullRateHasAmbiguousSparseSupport_zero spec.three_le hrows).2 (by omega))))
    · refine nullRateFact_withheld ?_
      rw [Withheld, sparse_pair] at hwithheld ⊢
      omega
  refine ⟨v :: values, fun w hw => htyped w ((hmem w).1 hw), hlen, by simp, ?_⟩
  exact columnFact_congr (nullRateFact_withheld hwithheld) hrate
    (distinctFact_congr hmany ((localExactDistinct_congr hmem).symm ▸ hmany)
      (hllEstimate_congr hmem)) hhidden hhidden'

/-- A column of one null can have two, where fewer values have the same estimate. -/
theorem otherValues_of_fewer {values' : List Value}
    (hrows : spec.minimumAggregateOccupancy ≤ numRows)
    (hone : numRows - values.length = 1)
    (hhidden : HistogramHidden spec double type values)
    (hmany : spec.minimumAggregateOccupancy ≤ localExactDistinct values)
    (hlen : values'.length = numRows - 2) (htyped : ∀ v ∈ values', v.type = type)
    (hhidden' : HistogramHidden spec double type values')
    (hmany' : spec.minimumAggregateOccupancy ≤ localExactDistinct values')
    (hestimate : hllEstimate estimate values' (columnSeed spec index) =
      hllEstimate estimate values (columnSeed spec index)) :
    OtherValues spec estimate double index numRows type values := by
  have hk := spec.three_le
  refine ⟨values', htyped, by omega, by omega, ?_⟩
  refine columnFact_congr (nullRateFact_withheld ?_) (nullRateFact_withheld ?_)
    (distinctFact_congr hmany hmany' hestimate) hhidden hhidden'
  · rw [Withheld, sparse_pair]
    omega
  · rw [Withheld, sparse_pair]
    omega

/-- A rate of no nulls, or of nothing else, is published below two million rows. -/
theorem nullRateFact_extreme (hrows : spec.minimumAggregateOccupancy ≤ numRows)
    (hfew : numRows < 2 * rateScale) {nullCount : ℕ}
    (h : nullCount = 0 ∨ nullCount = numRows) :
    nullRateFact spec numRows nullCount ≠ .suppressed := by
  have hk := spec.three_le
  rw [nullRateFact, Ne, Published.unless_eq_suppressed, sparse_pair]
  rcases h with rfl | rfl
  · rw [nullRateHasAmbiguousSparseSupport_zero hk hrows]
    omega
  · rw [nullRateHasAmbiguousSparseSupport_self hk hrows]
    omega

/-- Values of the same published distinct count are many, and of one estimate. -/
theorem estimate_of_distinctFact {values' : List Value}
    (hrows : spec.minimumAggregateOccupancy ≤ numRows) (hne' : values' ≠ [])
    (hdistinct : ¬ DistinctHidden spec estimate index values)
    (h : distinctFact spec estimate index numRows values' =
      distinctFact spec estimate index numRows values) :
    spec.minimumAggregateOccupancy ≤ localExactDistinct values' ∧
      hllEstimate estimate values' (columnSeed spec index) =
        hllEstimate estimate values (columnSeed spec index) := by
  have hpublished : ¬ (numRows < spec.minimumAggregateOccupancy ∨
      DistinctHidden spec estimate index values) := by
    rintro (hlt | hhidden)
    · exact absurd hrows (not_le.2 hlt)
    · exact hdistinct hhidden
  have hpublished' : ¬ (numRows < spec.minimumAggregateOccupancy ∨
      DistinctHidden spec estimate index values') := by
    intro hhidden
    rw [distinctFact, Published.unless_pos hhidden, distinctFact,
      Published.unless_neg hpublished] at h
    cases h
  rw [distinctFact, Published.unless_neg hpublished', distinctFact,
    Published.unless_neg hpublished, Published.value.injEq, DistinctCount.mk.injEq] at h
  exact ⟨le_distinct_of_not_hidden hne' fun hhidden => hpublished' (.inr hhidden), h.1⟩

theorem deniable_of_otherValues (hlen : values.length ≤ numRows)
    (htyped : ∀ v ∈ values, v.type = type)
    (hwithheld : Withheld spec numRows (numRows - values.length))
    (h : OtherValues spec estimate double index numRows type values) :
    Deniable spec estimate double index numRows type (numRows - values.length) values := by
  obtain ⟨values', htyped', hlen', hne, hfact⟩ := h
  by_cases hrows : numRows < spec.minimumAggregateOccupancy
  · refine .inl ⟨hrows, ?_⟩
    rintro rfl
    -- a column of no type has no value
    have hnone : ∀ vs : List Value, (∀ v ∈ vs, v.type = .unknown) → vs = [] := by
      intro vs hvs
      refine List.eq_nil_iff_forall_not_mem.2 fun v hv => ?_
      have := hvs v hv
      cases v <;> cases this
    rw [hnone values htyped, hnone values' htyped'] at hne
    exact hne rfl
  have hrows := not_lt.1 hrows
  obtain ⟨hhidden, hhidden'⟩ := HistogramHidden.of_fact hrows hfact hne
  refine .inr ⟨hrows, hhidden, ?_⟩
  by_cases hdistinct : DistinctHidden spec estimate index values
  · exact .inl hdistinct
  by_cases hnulls : 2 ≤ numRows - values.length
  · exact .inr (.inl hnulls)
  by_cases hmany : 2 * rateScale ≤ numRows
  · exact .inr (.inr (.inl hmany))
  refine .inr (.inr (.inr ?_))
  have hrate' : nullRateFact spec numRows (numRows - values'.length) = .suppressed :=
    (congrArg ColumnFact.nullRate hfact).trans (nullRateFact_withheld hwithheld)
  have hextreme : ¬ (numRows - values'.length = 0 ∨ numRows - values'.length = numRows) :=
    fun hextreme => nullRateFact_extreme hrows (not_le.1 hmany) hextreme hrate'
  have hvalues : spec.minimumAggregateOccupancy ≤ values.length := by
    refine (le_distinct_of_not_hidden ?_ hdistinct).trans localExactDistinct_le
    rintro rfl
    have := spec.three_le
    simp at hnulls
    omega
  have hone : numRows - values.length = 1 := by
    rw [Withheld, sparse_pair] at hwithheld
    omega
  have hne' : values' ≠ [] := by
    rintro rfl
    exact hextreme (.inr rfl)
  obtain ⟨hmany', hestimate⟩ := estimate_of_distinctFact hrows hne' hdistinct
    (congrArg ColumnFact.approxDistinctCount hfact)
  obtain ⟨filled, hfilled, hmem, hhidden'⟩ := hhidden'.extend (m := numRows - 2)
    (hmany'.trans localExactDistinct_le) (by omega)
  exact ⟨filled, hfilled, fun v hv => htyped' v ((hmem v).1 hv), hhidden',
    (localExactDistinct_congr hmem).symm ▸ hmany', (hllEstimate_congr hmem).trans hestimate⟩

theorem otherValues_of_deniable (hlen : values.length ≤ numRows)
    (htyped : ∀ v ∈ values, v.type = type)
    (hwithheld : Withheld spec numRows (numRows - values.length))
    (h : Deniable spec estimate double index numRows type (numRows - values.length) values) :
    OtherValues spec estimate double index numRows type values := by
  have hpos := sparse_pair.1 hwithheld
  rcases h with ⟨hrows, htype⟩ | ⟨hrows, hhidden, hroom⟩
  · exact otherValues_of_few hrows htype (by omega)
  have hne : values ≠ [] := by
    rintro rfl
    simp at hpos
    omega
  by_cases hdistinct : DistinctHidden spec estimate index values
  · exact otherValues_of_hidden hrows htyped hne hwithheld hhidden hdistinct
  have hmany := le_distinct_of_not_hidden hne hdistinct
  have hvalues := hmany.trans localExactDistinct_le
  have hnull : values.length < numRows := by omega
  by_cases hnulls : 2 ≤ numRows - values.length ∨ 2 * rateScale ≤ numRows
  · exact otherValues_of_repeat hrows htyped hnull hwithheld hhidden hmany hnulls
  rcases hroom with hroom | hroom | hroom | ⟨values', hlen', htyped', hhidden', hmany', hestimate⟩
  · exact absurd hroom hdistinct
  · exact absurd (.inl hroom) hnulls
  · exact absurd (.inr hroom) hnulls
  · exact otherValues_of_fewer hrows (by omega) hhidden hmany hlen' htyped' hhidden' hmany'
      hestimate

end

/-! ## Tables of the same facts -/

theorem nullCount_add (values : List (Option Value)) :
    values.countP Option.isNone + values.reduceOption.length = values.length := by
  induction values with
  | nil => rfl
  | cons v values ih =>
    cases v with
    | none =>
      rw [List.reduceOption_cons_of_none, List.countP_cons_of_pos rfl, List.length_cons]
      omega
    | some v =>
      rw [List.reduceOption_cons_of_some, List.countP_cons_of_neg (by simp), List.length_cons,
        List.length_cons]
      omega

theorem Column.nonNull_typed (column : Column) : ∀ v ∈ column.nonNull, v.type = column.type := by
  intro v hv
  exact column.typed v (List.reduceOption_mem_iff.1 hv)

/-- A column of the values, and of nulls up to a number of rows. -/
def Column.ofValues (name : String) (type : ColumnType) (numRows : ℕ) (values : List Value)
    (htyped : ∀ v ∈ values, v.type = type) : Column where
  name := name
  type := type
  values := values.map some ++ List.replicate (numRows - values.length) none
  typed := by simpa using htyped

section
variable {name : String} {type : ColumnType} {numRows : ℕ} {values : List Value}
  {htyped : ∀ v ∈ values, v.type = type}

theorem Column.ofValues_nonNull :
    (Column.ofValues name type numRows values htyped).nonNull = values := by
  simp [Column.nonNull, Column.ofValues, List.reduceOption, List.filterMap_map]

theorem Column.ofValues_nullCount :
    (Column.ofValues name type numRows values htyped).nullCount = numRows - values.length := by
  simp [Column.nullCount, Column.ofValues, List.countP_replicate, List.countP_map]

theorem Column.ofValues_length (h : values.length ≤ numRows) :
    (Column.ofValues name type numRows values htyped).values.length = numRows := by
  simp [Column.ofValues]
  omega

end

/-- A table with one of its columns replaced. -/
def Table.setColumn (table : Table) (index : ℕ) (column : Column)
    (h : column.values.length = table.numRows) : Table where
  numRows := table.numRows
  columns := table.columns.set index column
  length_eq := by
    intro other hother
    rcases List.mem_or_eq_of_mem_set hother with hmem | rfl
    · exact table.length_eq other hmem
    · exact h

section
variable {spec : ScanSpec} {estimate : List ℕ → ℕ} {double : Value → ℚ} {objectId : String}
  {table : Table} {index : ℕ} {column : Column}

theorem Column.nullCount_eq (hcolumn : table.columns[index]? = some column) :
    column.nonNull.length ≤ table.numRows ∧
      column.nullCount = table.numRows - column.nonNull.length := by
  have hadd := nullCount_add column.values
  rw [table.length_eq column (List.mem_of_getElem? hcolumn)] at hadd
  exact ⟨by rw [Column.nonNull]; omega, by rw [Column.nullCount, Column.nonNull]; omega⟩

theorem columnFacts_get (hcolumn : table.columns[index]? = some column) :
    (columnFacts spec estimate double table)[index]? =
      some (columnFact spec estimate double index table.numRows column.type column.nullCount
        column.nonNull) := by
  simp [columnFacts, hcolumn]

/-- A column of the same name, type and facts leaves the facts of the table. -/
theorem objectFact_setColumn {column' : Column} (hcolumn : table.columns[index]? = some column)
    (hlen : column'.values.length = table.numRows) (hname : column'.name = column.name)
    (htype : column'.type = column.type)
    (hfact : columnFact spec estimate double index table.numRows column'.type column'.nullCount
        column'.nonNull =
      columnFact spec estimate double index table.numRows column.type column.nullCount
        column.nonNull) :
    objectFact spec estimate double objectId (table.setColumn index column' hlen) =
      objectFact spec estimate double objectId table := by
  obtain ⟨hindex, hget⟩ := List.getElem?_eq_some_iff.1 hcolumn
  have hfacts : columnFacts spec estimate double (table.setColumn index column' hlen) =
      columnFacts spec estimate double table := by
    rw [columnFacts, Table.setColumn]
    simp only [List.mapIdx_set]
    rw [hfact]
    refine List.ext_getElem? fun i => ?_
    by_cases hi : index = i
    · subst hi
      rw [columnFacts_get hcolumn, List.getElem?_set_self (by simpa using hindex)]
    · rw [List.getElem?_set_ne hi]
      rfl
  have hcolumns : ∀ {α : Type} (f : Column → α), f column' = f column →
      (table.columns.set index column').map f = table.columns.map f := by
    intro α f hf
    rw [List.map_set, hf, ← hget, ← List.getElem_map f (h := by simpa using hindex),
      List.set_getElem_self]
  simp only [objectFact, hfacts]
  simp only [Table.setColumn, hcolumns Column.name hname, hcolumns Column.type htype]

/-- A table of the same facts has columns of the same types and facts. -/
theorem columnFact_of_objectFact {table' : Table} (hcolumn : table.columns[index]? = some column)
    (h : objectFact spec estimate double objectId table' =
      objectFact spec estimate double objectId table) :
    ∃ column', table'.columns[index]? = some column' ∧ table'.numRows = table.numRows ∧
      column'.type = column.type ∧
      columnFact spec estimate double index table'.numRows column'.type column'.nullCount
          column'.nonNull =
        columnFact spec estimate double index table.numRows column.type column.nullCount
          column.nonNull := by
  have htypes : (table'.columns.map Column.type)[index]? = some column.type := by
    rw [show table'.columns.map Column.type = table.columns.map Column.type from
      congrArg Fact.columnTypes h, List.getElem?_map, hcolumn]
    rfl
  rw [List.getElem?_map, Option.map_eq_some_iff] at htypes
  obtain ⟨column', hcolumn', htype⟩ := htypes
  have hentry : ∀ {α : Type} (f : ColumnFact → α),
      (columnFacts spec estimate double table').map f =
        (columnFacts spec estimate double table).map f →
      f (columnFact spec estimate double index table'.numRows column'.type column'.nullCount
          column'.nonNull) =
        f (columnFact spec estimate double index table.numRows column.type column.nullCount
          column.nonNull) := by
    intro α f hf
    have := congrArg (·[index]?) hf
    simpa [columnFacts_get hcolumn, columnFacts_get hcolumn'] using this
  refine ⟨column', hcolumn', congrArg Fact.rowCount h, htype, ?_⟩
  ext1
  · exact hentry _ (congrArg Fact.nullRate h)
  · exact hentry _ (congrArg Fact.approxDistinctCount h)
  · exact hentry _ (congrArg Fact.lengthHistograms h)
  · exact hentry _ (congrArg Fact.numericRangeBuckets h)

theorem ambiguous_iff (hcolumn : table.columns[index]? = some column) :
    Ambiguous spec estimate double objectId table index ↔
      OtherValues spec estimate double index table.numRows column.type column.nonNull := by
  obtain ⟨hlen, hnulls⟩ := Column.nullCount_eq hcolumn
  constructor
  · rintro ⟨table', hfact, hne⟩
    obtain ⟨column', hcolumn', hrows, htype, hfact⟩ := columnFact_of_objectFact hcolumn hfact
    obtain ⟨hlen', hnulls'⟩ := Column.nullCount_eq hcolumn'
    refine ⟨column'.nonNull, fun v hv => (column'.nonNull_typed v hv).trans htype,
      hrows ▸ hlen', ?_, ?_⟩
    · intro heq
      rw [Table.nullCount, Table.nullCount, hcolumn, hcolumn', Option.map_some, Option.map_some,
        hnulls, hnulls', heq, hrows] at hne
      exact hne rfl
    · rw [← hnulls, ← hfact, hnulls', hrows, htype]
  · rintro ⟨values', htyped, hlen', hne, hfact⟩
    refine ⟨table.setColumn index
      (Column.ofValues column.name column.type table.numRows values' htyped)
      (Column.ofValues_length hlen'), objectFact_setColumn hcolumn _ rfl rfl ?_, ?_⟩
    · rw [Column.ofValues_nullCount, Column.ofValues_nonNull, hnulls]
      exact hfact
    · have hindex := (List.getElem?_eq_some_iff.1 hcolumn).1
      rw [Table.nullCount, Table.nullCount, hcolumn, Table.setColumn,
        List.getElem?_set_self hindex, Option.map_some, Option.map_some,
        Column.ofValues_nullCount, hnulls, Ne, Option.some_inj]
      omega

/-- **A withheld null count**: a table of the same facts has another one just when the
    values of the column leave room for it. -/
theorem withheld_ambiguous_iff (hcolumn : table.columns[index]? = some column)
    (hwithheld : Withheld spec table.numRows column.nullCount) :
    Ambiguous spec estimate double objectId table index ↔
      Deniable spec estimate double index table.numRows column.type column.nullCount
        column.nonNull := by
  obtain ⟨hlen, hnulls⟩ := Column.nullCount_eq hcolumn
  rw [ambiguous_iff hcolumn, hnulls]
  rw [hnulls] at hwithheld
  constructor
  · exact deniable_of_otherValues hlen column.nonNull_typed hwithheld
  · exact otherValues_of_deniable hlen column.nonNull_typed hwithheld

end

/-! ## A column of one null -/

/-- Counts below three are withheld; a text is of eight bytes, or longer. -/
def threeSpec : ScanSpec := ⟨3, le_rfl, [8], [], []⟩

/-- The registers that are filled: the estimate, where few are. -/
def filledRegisters (registers : List ℕ) : ℕ := registers.countP (0 < ·)

/-- A null, and a value three times. -/
def oneNull (v : Value) : Table where
  numRows := 4
  columns := [⟨"a", v.type, [none, some v, some v, some v], by simp⟩]
  length_eq := by simp

/-- The null of a column of truths can be more nulls. -/
theorem withheld_ambiguous_iff_truth :
    Ambiguous threeSpec filledRegisters (fun _ => 0) "object" (oneNull (.bool true)) 0 := by
  have hcolumn : (oneNull (.bool true)).columns[0]? = some (oneNull (.bool true)).columns[0] := rfl
  refine (withheld_ambiguous_iff hcolumn (sparse_pair.2 (.inl (by decide)))).2
    (.inr ⟨by decide, ⟨?_, ?_⟩, .inl ?_⟩)
  · intro h
    exact absurd h (by decide)
  · intro h
    exact absurd h (by decide)
  · exact distinctHidden_replicate (n := 3) (v := .bool true) (by decide)

/-- The lengths of three texts tell the null of a fourth row. -/
theorem histogram_tells_null :
    Withheld threeSpec 4 1 ∧ (oneNull (.str "text")).nullCount 0 = some 1 ∧
      ¬ Ambiguous threeSpec filledRegisters (fun _ => 0) "object" (oneNull (.str "text")) 0 := by
  have hwithheld : Withheld threeSpec 4 1 := sparse_pair.2 (.inl (by decide))
  refine ⟨hwithheld, rfl, fun h => ?_⟩
  have hcolumn : (oneNull (.str "text")).columns[0]? =
      some (oneNull (.str "text")).columns[0] := rfl
  rw [ambiguous_iff hcolumn] at h
  rcases deniable_of_otherValues (by decide) (Column.nonNull_typed _) hwithheld h with
    ⟨hrows, -⟩ | ⟨-, hhidden, -⟩
  · exact absurd hrows (by decide)
  · exact absurd (hhidden.1 List.mem_cons_self) (by decide +kernel)

end Eolymp

end AimData
