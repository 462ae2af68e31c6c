/-
  Tables with one row a slot, written by inserting or replacing a row: such a table
  holds the last write of each slot.  A log of writes has the latest first.
-/
import Mathlib.Data.List.Nodup
import Mathlib.Tactic

namespace Table

variable {α κ : Type} [DecidableEq κ] {slot : α → κ} {rows log : List α} {row r : α}

section

variable (slot)

/-- The row replaces the first row of its slot, or is inserted. -/
def upsert : List α → α → List α
  | [], row => [row]
  | r :: rs, row => if slot r = slot row then row :: rs else r :: upsert rs row

/-- The last write of a slot. -/
def last (log : List α) (k : κ) : Option α := log.find? (slot · = k)

/-- The rows are the last writes of the log. -/
structure HoldsLast (rows log : List α) : Prop where
  nodup : (rows.map slot).Nodup
  mem_iff : ∀ r, r ∈ rows ↔ last slot log (slot r) = some r

end

@[simp] theorem last_nil (k : κ) : last slot [] k = none := rfl

theorem last_cons (k : κ) :
    last slot (row :: log) k = if slot row = k then some row else last slot log k := by
  rw [last, List.find?_cons]
  by_cases h : slot row = k
  · simp [h]
  · simp [h, last]

theorem last_slot {k : κ} (h : last slot log k = some r) : slot r = k := by
  simpa using List.find?_some h

theorem last_mem {k : κ} (h : last slot log k = some r) : r ∈ log :=
  List.mem_of_find?_eq_some h

theorem slot_mem_upsert {k : κ} :
    k ∈ (upsert slot rows row).map slot ↔ k = slot row ∨ k ∈ rows.map slot := by
  induction rows with
  | nil => simp [upsert]
  | cons r rs ih =>
    rw [upsert]
    by_cases h : slot r = slot row
    · simp [h]
    · rw [if_neg h, List.map_cons, List.mem_cons, ih, List.map_cons, List.mem_cons]
      exact or_left_comm

theorem nodup_upsert (h : (rows.map slot).Nodup) : ((upsert slot rows row).map slot).Nodup := by
  induction rows with
  | nil => simp [upsert]
  | cons r rs ih =>
    obtain ⟨hr, hrs⟩ := List.nodup_cons.1 h
    rw [upsert]
    by_cases hslot : slot r = slot row
    · rw [if_pos hslot, List.map_cons, ← hslot]
      exact h
    · rw [if_neg hslot, List.map_cons, List.nodup_cons, slot_mem_upsert]
      exact ⟨not_or.2 ⟨hslot, hr⟩, ih hrs⟩

theorem mem_upsert (h : (rows.map slot).Nodup) :
    r ∈ upsert slot rows row ↔ r = row ∨ (r ∈ rows ∧ slot r ≠ slot row) := by
  induction rows with
  | nil => simp [upsert]
  | cons t rs ih =>
    obtain ⟨ht, hrs⟩ := List.nodup_cons.1 h
    rw [upsert]
    by_cases hslot : slot t = slot row
    · have hothers : r ∈ rs → slot r ≠ slot row := by
        intro hr heq
        exact ht (hslot.trans heq.symm ▸ List.mem_map_of_mem hr)
      rw [if_pos hslot, List.mem_cons, List.mem_cons]
      constructor
      · rintro (rfl | hr)
        · exact Or.inl rfl
        · exact Or.inr ⟨Or.inr hr, hothers hr⟩
      · rintro (rfl | ⟨rfl | hr, hne⟩)
        · exact Or.inl rfl
        · exact absurd hslot hne
        · exact Or.inr hr
    · rw [if_neg hslot, List.mem_cons, ih hrs, List.mem_cons]
      constructor
      · rintro (rfl | rfl | ⟨hr, hne⟩)
        · exact Or.inr ⟨Or.inl rfl, hslot⟩
        · exact Or.inl rfl
        · exact Or.inr ⟨Or.inr hr, hne⟩
      · rintro (rfl | ⟨rfl | hr, hne⟩)
        · exact Or.inr (Or.inl rfl)
        · exact Or.inl rfl
        · exact Or.inr (Or.inr ⟨hr, hne⟩)

/-- A row of a new slot is inserted at the end. -/
theorem upsert_of_fresh (h : ∀ r ∈ rows, slot r ≠ slot row) : upsert slot rows row = rows ++ [row] := by
  induction rows with
  | nil => rfl
  | cons r rs ih =>
    rw [upsert, if_neg (h r List.mem_cons_self), ih fun t ht => h t (List.mem_cons_of_mem _ ht)]
    rfl

theorem length_upsert_le : (upsert slot rows row).length ≤ rows.length + 1 := by
  induction rows with
  | nil => exact le_rfl
  | cons r rs ih =>
    rw [upsert]
    split_ifs
    · exact Nat.le_succ _
    · exact Nat.succ_le_succ ih

/-- A row that is replaced counts as it did, or does not count. -/
theorem countP_upsert_le {p : α → Bool} (h : (rows.map slot).Nodup) (hr : r ∈ rows)
    (hslot : slot r = slot row) (hp : p row = true → p r = true) :
    (upsert slot rows row).countP p ≤ rows.countP p := by
  induction rows with
  | nil => exact absurd hr List.not_mem_nil
  | cons t rs ih =>
    obtain ⟨ht, hrs⟩ := List.nodup_cons.1 h
    rw [upsert]
    by_cases heq : slot t = slot row
    · have htr : t = r := by
        rcases List.mem_cons.1 hr with hr | hr
        · exact hr.symm
        · exact absurd (List.mem_map_of_mem hr) (hslot.trans heq.symm ▸ ht)
      subst htr
      rw [if_pos heq, List.countP_cons, List.countP_cons]
      by_cases hrow : p row = true
      · simp [hrow, hp hrow]
      · simp [hrow]
    · rw [if_neg heq, List.countP_cons, List.countP_cons]
      have hmem : r ∈ rs := (List.mem_cons.1 hr).resolve_left fun h => heq (h ▸ hslot)
      exact Nat.add_le_add_right (ih hrs hmem) _

namespace HoldsLast

theorem empty : HoldsLast slot [] [] := ⟨List.nodup_nil, fun r => by simp⟩

/-- A write of a row. -/
theorem write (h : HoldsLast slot rows log) (row : α) :
    HoldsLast slot (upsert slot rows row) (row :: log) := by
  refine ⟨nodup_upsert h.nodup, ?_⟩
  intro r
  rw [mem_upsert h.nodup, last_cons]
  by_cases hslot : slot row = slot r
  · rw [if_pos hslot, Option.some.injEq, eq_comm]
    constructor
    · rintro (hr | ⟨-, hne⟩)
      · exact hr
      · exact absurd hslot.symm hne
    · exact Or.inl
  · rw [if_neg hslot, ← h.mem_iff r]
    constructor
    · rintro (rfl | ⟨hr, -⟩)
      · exact absurd rfl hslot
      · exact hr
    · intro hr
      exact Or.inr ⟨hr, Ne.symm hslot⟩

/-- Slots are dropped, with their rows and their writes. -/
theorem filter (h : HoldsLast slot rows log) (p : κ → Bool) :
    HoldsLast slot (rows.filter fun r => p (slot r)) (log.filter fun r => p (slot r)) := by
  refine ⟨h.nodup.sublist (List.filter_sublist.map slot), ?_⟩
  intro r
  rw [List.mem_filter, h.mem_iff r, last, last, List.find?_filter]
  constructor
  · rintro ⟨hlast, hp⟩
    rw [← hlast]
    congr 1
    funext t
    by_cases ht : slot t = slot r
    · simp [ht, hp]
    · simp [ht]
  · intro hlast
    have hr := List.find?_some hlast
    simp only [decide_eq_true_eq, Bool.decide_and, Bool.decide_eq_true, Bool.and_eq_true] at hr
    refine ⟨?_, hr.1⟩
    rw [← hlast]
    congr 1
    funext t
    by_cases ht : slot t = slot r
    · simp [ht, hr.1]
    · simp [ht]

end HoldsLast

end Table
