/-
  Aggregates of a list of values: the counts of its buckets, and the registers
  of a sketch of its distinct values.

  A histogram counts every value once (`sum_histogram`), so it tells how many
  there are; the registers depend on the set of the values only
  (`sketch_congr`).  A histogram with a sparse bucket keeps one when a value is
  repeated, of another bucket (`sparse_repeat`).
-/
import Mathlib.Algebra.BigOperators.Group.List.Basic
import Mathlib.Data.List.Basic
import Mathlib.Tactic

namespace Aggregate

variable {α : Type}

/-! ## Histograms -/

section
variable (index : α → ℕ)

/-- The counts of the buckets. -/
def histogram (size : ℕ) (values : List α) : List ℕ :=
  values.foldl (fun counts v => counts.modify (index v) (· + 1)) (List.replicate size 0)

theorem getElem?_foldl_count (values : List α) (counts : List ℕ) (i : ℕ) :
    (values.foldl (fun counts v => counts.modify (index v) (· + 1)) counts)[i]? =
      counts[i]?.map (· + values.countP (index · = i)) := by
  induction values generalizing counts with
  | nil => simp
  | cons v values ih =>
    rw [List.foldl_cons, ih, List.getElem?_modify, List.countP_cons]
    by_cases h : index v = i
    · simp [h, Function.comp_def, Nat.add_assoc, Nat.add_comm 1]
    · simp [h]

theorem getElem?_histogram {size : ℕ} {values : List α} {i : ℕ} (h : i < size) :
    (histogram index size values)[i]? = some (values.countP (index · = i)) := by
  rw [histogram, getElem?_foldl_count, List.getElem?_replicate_of_lt h]
  simp

@[simp] theorem length_histogram (size : ℕ) (values : List α) :
    (histogram index size values).length = size := by
  have h : ∀ counts : List ℕ, (values.foldl
      (fun counts v => counts.modify (index v) (· + 1)) counts).length = counts.length := by
    induction values with
    | nil => simp
    | cons v values ih => simp [ih]
  rw [histogram, h, List.length_replicate]

theorem sum_modify {counts : List ℕ} {i : ℕ} (h : i < counts.length) :
    (counts.modify i (· + 1)).sum = counts.sum + 1 := by
  induction counts generalizing i with
  | nil => simp at h
  | cons n counts ih =>
    cases i with
    | zero =>
      simp
      omega
    | succ i =>
      rw [List.length_cons] at h
      simp only [List.modify_succ_cons, List.sum_cons]
      rw [ih (by omega)]
      omega

/-- Every value is counted once. -/
theorem sum_histogram {size : ℕ} {values : List α} (h : ∀ v ∈ values, index v < size) :
    (histogram index size values).sum = values.length := by
  have hsum : ∀ counts : List ℕ, counts.length = size → (values.foldl
      (fun counts v => counts.modify (index v) (· + 1)) counts).sum =
        counts.sum + values.length := by
    induction values with
    | nil => simp
    | cons v values ih =>
      intro counts hsize
      rw [List.foldl_cons, ih (fun v hv => h v (List.mem_cons_of_mem _ hv)) _ (by simp [hsize]),
        sum_modify (by rw [hsize]; exact h v List.mem_cons_self), List.length_cons]
      omega
  rw [histogram, hsum _ List.length_replicate]
  simp

/-! ## Sparse buckets -/

/-- A bucket that has values, but fewer than `k`. -/
def Sparse (k : ℕ) (counts : List ℕ) : Prop := ∃ count ∈ counts, 0 < count ∧ count < k

instance (k : ℕ) (counts : List ℕ) : Decidable (Sparse k counts) :=
  inferInstanceAs (Decidable (∃ count ∈ counts, 0 < count ∧ count < k))

theorem sparse_histogram {k size : ℕ} {values : List α} :
    Sparse k (histogram index size values) ↔
      ∃ i < size, 0 < values.countP (index · = i) ∧ values.countP (index · = i) < k := by
  constructor
  · rintro ⟨count, hmem, hlow⟩
    obtain ⟨i, hi⟩ := List.mem_iff_getElem?.1 hmem
    have hlt : i < size := by
      have := (List.getElem?_eq_some_iff.1 hi).1
      rwa [length_histogram] at this
    rw [getElem?_histogram index hlt, Option.some_inj] at hi
    exact ⟨i, hlt, hi ▸ hlow⟩
  · rintro ⟨i, hlt, hlow⟩
    exact ⟨_, List.mem_of_getElem? (getElem?_histogram index hlt), hlow⟩

/-- Fewer than `k` values leave a sparse bucket. -/
theorem sparse_of_short {k size : ℕ} {values : List α} (hne : values ≠ [])
    (hlen : values.length < k) (h : ∀ v ∈ values, index v < size) :
    Sparse k (histogram index size values) := by
  rw [sparse_histogram]
  obtain ⟨v, hv⟩ := List.exists_mem_of_ne_nil values hne
  refine ⟨index v, h v hv, ?_, lt_of_le_of_lt List.countP_le_length hlen⟩
  rw [List.countP_pos_iff]
  exact ⟨v, hv, decide_eq_true rfl⟩

/-- A value can be repeated that leaves a sparse bucket as it is. -/
theorem sparse_repeat {k size : ℕ} {values : List α} (hlen : k ≤ values.length)
    (h : Sparse k (histogram index size values)) :
    ∃ v ∈ values, Sparse k (histogram index size (v :: values)) := by
  obtain ⟨i, hi, hpos, hlow⟩ := (sparse_histogram index).1 h
  -- another bucket has a value, as not all of the `k` values are of the sparse one
  obtain ⟨v, hv, hne⟩ : ∃ v ∈ values, index v ≠ i := by
    by_contra hall
    push Not at hall
    have hcount : values.countP (index · = i) = values.length :=
      List.countP_eq_length.2 fun v hv => decide_eq_true (hall v hv)
    omega
  refine ⟨v, hv, (sparse_histogram index).2 ⟨i, hi, ?_⟩⟩
  rw [List.countP_cons_of_neg (by simp [hne])]
  exact ⟨hpos, hlow⟩

end

/-! ## Sketches -/

section
variable (index rank : α → ℕ)

/-- The registers: each the greatest rank of the values that fall to it. -/
def sketch (size : ℕ) (values : List α) : List ℕ :=
  values.foldl (fun registers v => registers.modify (index v) (max · (rank v)))
    (List.replicate size 0)

theorem getElem?_foldl_max (values : List α) (registers : List ℕ) (i : ℕ) :
    (values.foldl (fun registers v => registers.modify (index v) (max · (rank v)))
        registers)[i]? =
      registers[i]?.map
        fun r => (values.filter (index · = i)).foldl (fun r v => max r (rank v)) r := by
  induction values generalizing registers with
  | nil => simp
  | cons v values ih =>
    rw [List.foldl_cons, ih, List.getElem?_modify]
    by_cases h : index v = i
    · simp [h, Function.comp_def]
    · simp [h]

theorem foldl_max_le {values : List α} {r m : ℕ} :
    values.foldl (fun r v => max r (rank v)) r ≤ m ↔ r ≤ m ∧ ∀ v ∈ values, rank v ≤ m := by
  induction values generalizing r with
  | nil => simp
  | cons v values ih => simp [ih, and_assoc]

/-- The registers depend on the set of the values only. -/
theorem sketch_congr {size : ℕ} {values values' : List α}
    (h : ∀ v, v ∈ values ↔ v ∈ values') :
    sketch index rank size values = sketch index rank size values' := by
  ext i : 1
  rw [sketch, sketch, getElem?_foldl_max, getElem?_foldl_max]
  congr 1
  ext r
  have hle : ∀ m, (values.filter (index · = i)).foldl (fun r v => max r (rank v)) r ≤ m ↔
      (values'.filter (index · = i)).foldl (fun r v => max r (rank v)) r ≤ m := by
    intro m
    simp only [foldl_max_le, List.mem_filter, h]
  exact le_antisymm ((hle _).2 le_rfl) ((hle _).1 le_rfl)

end

end Aggregate
