/-
  Files of one record a line, to which lines are appended, and what a crash in the middle
  of an append leaves: a text after the last line end, which the next append runs into.
-/
import Mathlib.Tactic

/-- The whole lines, with the records that they read as, and the text after the last line
    end.  A text that is no record reads as `none`. -/
structure LineLog (α : Type) where
  lines : List (Option α)
  tail : Option (Option α)

namespace LineLog

variable {α : Type} (f : LineLog α) {a b : α}

def empty : LineLog α := ⟨[], none⟩

/-- The lines that are not blank. -/
def count : ℕ := f.lines.length + f.tail.toList.length

/-- The records that are read. -/
def readAll : List α := f.lines.filterMap id ++ f.tail.join.toList

/-- A line is written after the last text; two records in one line are none. -/
def write (a : α) : LineLog α :=
  match f.tail with
  | none => ⟨f.lines ++ [some a], none⟩
  | some _ => ⟨f.lines ++ [none], none⟩

/-- A write stops before its line end, with a text that reads as `text`. -/
def tear (text : Option α) : LineLog α :=
  match f.tail with
  | none => ⟨f.lines, some text⟩
  | some _ => ⟨f.lines, some none⟩

@[simp] theorem count_empty : (empty : LineLog α).count = 0 := rfl

variable {f}

theorem mem_readAll (h : some a ∈ f.lines) : a ∈ f.readAll :=
  List.mem_append_left _ (List.mem_filterMap.2 ⟨some a, h, rfl⟩)

theorem length_readAll_le : f.readAll.length ≤ f.count := by
  rw [readAll, List.length_append, count]
  refine Nat.add_le_add (List.length_filterMap_le _ _) ?_
  rcases f.tail with - | - | a
  · exact le_rfl
  · exact Nat.zero_le _
  · exact le_rfl

theorem lines_write (h : f.tail = none) : (f.write a).lines = f.lines ++ [some a] := by
  rw [write, h]

theorem mem_write (h : some b ∈ f.lines) : some b ∈ (f.write a).lines := by
  rw [write]
  cases f.tail with
  | none => exact List.mem_append_left _ h
  | some _ => exact List.mem_append_left _ h

@[simp] theorem tail_write : (f.write a).tail = none := by
  rw [write]
  cases f.tail <;> rfl

theorem count_write : (f.write a).count = f.lines.length + 1 := by
  rw [count, tail_write, write]
  cases f.tail with
  | none => simp
  | some _ => simp

theorem count_write_le : (f.write a).count ≤ f.count + 1 := by
  rw [count_write, count]
  omega

@[simp] theorem lines_tear {text : Option α} : (f.tear text).lines = f.lines := by
  rw [tear]
  cases f.tail <;> rfl

theorem count_tear_le {text : Option α} : (f.tear text).count ≤ f.count + 1 := by
  rw [count, count, lines_tear, tear]
  cases f.tail with
  | none => exact le_rfl
  | some _ => exact Nat.le_succ _

end LineLog
