/-
  What a published null rate tells: the counts of one text are an interval, which
  the search finds, and none of them is close to no row or to every row.
-/
import AimData.Eolymp.Connector

namespace AimData

namespace Eolymp

/-! ## The counts of a text -/

theorem formatNullRate_eq_iff {count count' rowCount : ℕ} :
    formatNullRate count rowCount = formatNullRate count' rowCount ↔
      roundedRateUnits count rowCount = roundedRateUnits count' rowCount := by
  constructor
  · intro h
    rw [← rateUnits_format count, ← rateUnits_format count', h]
  · intro h
    rw [formatNullRate, formatNullRate, h]

/-- **The range of a rate is the counts of its text**, and the search finds it. -/
theorem nullRatePreimageRange_iff {count rowCount : ℕ} (h : count ≤ rowCount) :
    ∃ first last, nullRatePreimageRange (formatNullRate count rowCount) rowCount =
        some (first, last) ∧
      ∀ m, first ≤ m ∧ m ≤ last ↔
        m ≤ rowCount ∧ formatNullRate m rowCount = formatNullRate count rowCount := by
  refine ⟨_, _, nullRatePreimageRange_format h, fun m => ?_⟩
  have hlast : firstCountAtLeast rowCount (roundedRateUnits count rowCount + 1) ≤ rowCount + 1 :=
    Bisect.first_le (by omega)
  have hpos : ¬ firstCountAtLeast rowCount (roundedRateUnits count rowCount + 1) ≤ count := by
    rw [firstCountAtLeast_le_iff h]
    omega
  rw [formatNullRate_eq_iff]
  constructor
  · rintro ⟨hfirst, hm⟩
    have hrows : m ≤ rowCount := by omega
    have habove : ¬ firstCountAtLeast rowCount (roundedRateUnits count rowCount + 1) ≤ m := by omega
    rw [firstCountAtLeast_le_iff hrows] at hfirst habove
    exact ⟨hrows, by omega⟩
  · rintro ⟨hrows, hunits⟩
    have habove : ¬ firstCountAtLeast rowCount (roundedRateUnits count rowCount + 1) ≤ m := by
      rw [firstCountAtLeast_le_iff hrows]
      omega
    rw [firstCountAtLeast_le_iff hrows]
    omega

/-! ## Published rates -/

/-- The null rate of a column is withheld. -/
def NullRateHidden (k numRows nullCount : ℕ) : Prop :=
  numRows < k ∨ Aggregate.Sparse k [nullCount, numRows - nullCount] ∨
    nullRateHasAmbiguousSparseSupport (formatNullRate nullCount numRows) numRows k = some true

instance (k numRows nullCount : ℕ) : Decidable (NullRateHidden k numRows nullCount) :=
  inferInstanceAs (Decidable (_ ∨ _))

/-- **No count of a published rate is sparse.** -/
theorem not_sparse_of_published {k count rowCount m : ℕ} (h : count ≤ rowCount)
    (hpublished : ¬ NullRateHidden k rowCount count) (hm : m ≤ rowCount)
    (htext : formatNullRate m rowCount = formatNullRate count rowCount) :
    ¬ (0 < m ∧ m < k) ∧ ¬ (0 < rowCount - m ∧ rowCount - m < k) := by
  obtain ⟨first, last, hrange, hiff⟩ := nullRatePreimageRange_iff h
  obtain ⟨hfirst, hlast⟩ := (hiff m).2 ⟨hm, htext⟩
  rw [NullRateHidden, nullRateHasAmbiguousSparseSupport, hrange] at hpublished
  simp only [Option.bind_eq_bind, Option.bind_some, Option.pure_def, Option.some.injEq,
    Bool.or_eq_true, decide_eq_true_eq, not_or] at hpublished
  omega

/-- **The counts behind a rate**: the search does not fail, it gives exactly the counts
    of the text, and where the rate is published none of them is sparse, nor leaves a
    sparse rest. -/
theorem nullRate_support {rowCount count : ℕ} (h : count ≤ rowCount) :
    (∃ first last, nullRatePreimageRange (formatNullRate count rowCount) rowCount =
        some (first, last) ∧
      ∀ m, first ≤ m ∧ m ≤ last ↔
        m ≤ rowCount ∧ formatNullRate m rowCount = formatNullRate count rowCount) ∧
    ∀ k ≤ rowCount, ¬ NullRateHidden k rowCount count → ∀ m ≤ rowCount,
      formatNullRate m rowCount = formatNullRate count rowCount →
        ¬ (1 ≤ m ∧ m ≤ k - 1) ∧ ¬ (1 ≤ rowCount - m ∧ rowCount - m ≤ k - 1) := by
  refine ⟨nullRatePreimageRange_iff h, fun k hk hpublished m hm htext => ?_⟩
  obtain ⟨hnull, hrest⟩ := not_sparse_of_published h hpublished hm htext
  omega

/-- Four nulls in eight rows. -/
theorem nullRate_support_half :
    (∃ first last, nullRatePreimageRange (formatNullRate 4 8) 8 = some (first, last) ∧
      ∀ m, first ≤ m ∧ m ≤ last ↔ m ≤ 8 ∧ formatNullRate m 8 = formatNullRate 4 8) ∧
    ∀ k ≤ 8, ¬ NullRateHidden k 8 4 → ∀ m ≤ 8, formatNullRate m 8 = formatNullRate 4 8 →
      ¬ (1 ≤ m ∧ m ≤ k - 1) ∧ ¬ (1 ≤ 8 - m ∧ 8 - m ≤ k - 1) :=
  nullRate_support (by decide)

end Eolymp

end AimData
