/-
  A directory of byte files, and files of fixed-width records.

  A file is written at a position (with zeros between its end and a later
  position) and read at a position.  `slot w content q` is the `q`-th record
  of width `w`; a record file written one slot at a time keeps its other
  complete slots.
-/
import AimData.Lib.Bytes
import Mathlib.Data.List.AList

/-- A directory: file names and their contents. -/
abbrev Files := AList fun _ : String => Bytes

namespace Files

/-- Two directories agree on every file but `name`. -/
def Only (name : String) (fs fs' : Files) : Prop := ∀ n, n ≠ name → fs'.lookup n = fs.lookup n

theorem Only.refl (name : String) (fs : Files) : Only name fs fs := fun _ _ => rfl

theorem Only.trans {name : String} {fs fs' fs'' : Files} (h : Only name fs fs')
    (h' : Only name fs' fs'') : Only name fs fs'' :=
  fun n hn => (h' n hn).trans (h n hn)

theorem only_insert (name : String) (b : Bytes) (fs : Files) : Only name fs (fs.insert name b) :=
  fun _ hn => AList.lookup_insert_ne hn

end Files

namespace Bytes

/-- `seek(pos); read(len)` -/
def readAt (content : Bytes) (pos len : ℕ) : Bytes := (content.drop pos).take len

/-- `seek(pos); write(bytes)`: a gap before `pos` is filled with zeros. -/
def writeAt (content : Bytes) (pos : ℕ) (bytes : Bytes) : Bytes :=
  (content ++ List.replicate (pos - content.length) 0).take pos ++ bytes ++
    content.drop (pos + bytes.length)

/-- The `q`-th record of width `w`. -/
def slot (w : ℕ) (content : Bytes) (q : ℕ) : Bytes := readAt content (q * w) w

theorem length_take_pad (content : Bytes) (pos : ℕ) :
    ((content ++ List.replicate (pos - content.length) 0).take pos).length = pos := by
  simp; omega

theorem length_writeAt (content : Bytes) (pos : ℕ) (bytes : Bytes) :
    (writeAt content pos bytes).length = max content.length (pos + bytes.length) := by
  rw [writeAt, List.length_append, List.length_append, length_take_pad, List.length_drop]
  omega

/-- A written record is read back. -/
theorem slot_writeAt_self {w : ℕ} (content : Bytes) {bytes : Bytes} (h : bytes.length = w) (q : ℕ) :
    slot w (writeAt content (q * w) bytes) q = bytes := by
  have hl := length_take_pad content (q * w)
  rw [slot, readAt, writeAt, List.append_assoc, List.drop_append_of_le_length hl.ge,
    List.drop_of_length_le hl.le, List.nil_append, List.take_append_of_le_length h.ge,
    List.take_of_length_le h.le]

/-- Writing a record keeps every other complete record. -/
theorem slot_writeAt_ne {w : ℕ} {content bytes : Bytes} (h : bytes.length = w) {p q : ℕ}
    (hpq : q ≠ p) (hq : (slot w content q).length = w) :
    slot w (writeAt content (p * w) bytes) q = slot w content q := by
  rcases Nat.eq_zero_or_pos w with rfl | hw
  · simp [slot, readAt]
  have hc : q * w + w ≤ content.length := by
    simp only [slot, readAt, List.length_take, List.length_drop] at hq; omega
  have hl := length_take_pad content (p * w)
  rw [slot, slot, readAt, readAt, writeAt]
  rcases Nat.lt_or_gt_of_ne hpq with hlt | hgt
  · -- the record lies before the written one
    have hle : q * w + w ≤ p * w := by
      calc q * w + w = (q + 1) * w := by ring
        _ ≤ p * w := Nat.mul_le_mul_right w hlt
    rw [List.append_assoc, List.drop_append_of_le_length (by omega), List.take_append_of_le_length
      (by rw [List.length_drop, hl]; omega), List.drop_take, List.take_take, min_eq_left (by omega),
      List.drop_append_of_le_length (by omega), List.take_append_of_le_length (by simp; omega)]
  · -- the record lies behind the written one
    have hle : p * w + w ≤ q * w := by
      calc p * w + w = (p + 1) * w := by ring
        _ ≤ q * w := Nat.mul_le_mul_right w hgt
    have hlen : ((content ++ List.replicate (p * w - content.length) 0).take (p * w) ++
        bytes).length = p * w + w := by rw [List.length_append, hl, h]
    rw [List.drop_append, List.drop_of_length_le (by omega), hlen, List.nil_append, h,
      List.drop_drop]
    congr 2; omega

/-- Records of one width, one after the other, are the slots of their file. -/
theorem slot_flatMap {α : Type*} {w : ℕ} {f : α → Bytes} (hf : ∀ a, (f a).length = w) :
    ∀ (l : List α) {q : ℕ} (hq : q < l.length), slot w (l.flatMap f) q = f l[q]
  | [], q, hq => by simp at hq
  | a :: l, 0, _ => by
    rw [slot, readAt, Nat.zero_mul, List.drop_zero, List.flatMap_cons,
      List.take_append_of_le_length (hf a).ge, List.take_of_length_le (hf a).le]
    rfl
  | a :: l, q + 1, hq => by
    have hd : (q + 1) * w = w + q * w := by ring
    rw [slot, readAt, List.flatMap_cons, hd, ← List.drop_drop,
      List.drop_append_of_le_length (hf a).ge, List.drop_of_length_le (hf a).le, List.nil_append]
    exact slot_flatMap hf l (by simpa using hq)

end Bytes
