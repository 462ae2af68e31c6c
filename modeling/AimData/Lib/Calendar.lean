/-
  The proleptic Gregorian calendar: days, their ordinals and neighbours.
-/
import Mathlib.Tactic

namespace Calendar

/-- A day of the calendar, of any year from 1 on. -/
structure Day where
  year : ℕ
  month : ℕ
  day : ℕ
  deriving DecidableEq, Repr

def leap (y : ℕ) : Bool := y % 4 = 0 ∧ (y % 100 ≠ 0 ∨ y % 400 = 0)

def daysInMonth (y m : ℕ) : ℕ :=
  if m = 2 then if leap y then 29 else 28
  else if m = 4 ∨ m = 6 ∨ m = 9 ∨ m = 11 then 30
  else 31

/-- The days of a date exist, in a year of `datetime`'s range. -/
def Day.Valid (d : Day) : Prop :=
  1 ≤ d.year ∧ d.year ≤ 9999 ∧ 1 ≤ d.month ∧ d.month ≤ 12 ∧ 1 ≤ d.day ∧
    d.day ≤ daysInMonth d.year d.month

instance (d : Day) : Decidable d.Valid := by unfold Day.Valid; infer_instance

def daysBeforeYear (y : ℕ) : ℕ := 365 * (y - 1) + (y - 1) / 4 - (y - 1) / 100 + (y - 1) / 400

def daysBeforeMonth (y : ℕ) : ℕ → ℕ
  | 0 => 0
  | 1 => 0
  | m + 2 => daysBeforeMonth y (m + 1) + daysInMonth y (m + 1)

/-- `date.toordinal` -/
def Day.ordinal (d : Day) : ℕ := daysBeforeYear d.year + daysBeforeMonth d.year d.month + d.day

def Day.next (d : Day) : Day :=
  if d.day < daysInMonth d.year d.month then { d with day := d.day + 1 }
  else if d.month < 12 then ⟨d.year, d.month + 1, 1⟩
  else ⟨d.year + 1, 1, 1⟩

def Day.prev (d : Day) : Day :=
  if 1 < d.day then { d with day := d.day - 1 }
  else if 1 < d.month then ⟨d.year, d.month - 1, daysInMonth d.year (d.month - 1)⟩
  else ⟨d.year - 1, 12, 31⟩

theorem daysInMonth_le (y m : ℕ) : daysInMonth y m ≤ 31 := by
  unfold daysInMonth
  split_ifs <;> omega

theorem daysInMonth_pos (y m : ℕ) : 1 ≤ daysInMonth y m := by
  unfold daysInMonth
  split_ifs <;> omega

theorem daysBeforeMonth_succ (y : ℕ) {m : ℕ} (h : 1 ≤ m) :
    daysBeforeMonth y (m + 1) = daysBeforeMonth y m + daysInMonth y m := by
  obtain ⟨m, rfl⟩ := Nat.exists_eq_add_of_le' h
  rfl

theorem daysBeforeMonth_twelve (y : ℕ) : daysBeforeMonth y 12 = 306 + daysInMonth y 2 := by
  show 0 + daysInMonth y 1 + daysInMonth y 2 + daysInMonth y 3 + daysInMonth y 4 +
    daysInMonth y 5 + daysInMonth y 6 + daysInMonth y 7 + daysInMonth y 8 + daysInMonth y 9 +
    daysInMonth y 10 + daysInMonth y 11 = 306 + daysInMonth y 2
  have h31 : ∀ m, m ∈ [1, 3, 5, 7, 8, 10] → daysInMonth y m = 31 := by
    intro m hm
    fin_cases hm <;> rfl
  have h30 : ∀ m, m ∈ [4, 6, 9, 11] → daysInMonth y m = 30 := by
    intro m hm
    fin_cases hm <;> rfl
  rw [h31 1 (by simp), h31 3 (by simp), h31 5 (by simp), h31 7 (by simp), h31 8 (by simp),
    h31 10 (by simp), h30 4 (by simp), h30 6 (by simp), h30 9 (by simp), h30 11 (by simp)]
  omega

theorem daysInMonth_two (y : ℕ) : daysInMonth y 2 = if leap y then 29 else 28 := rfl

/-- The days of a year. -/
theorem daysBeforeYear_succ {y : ℕ} (h : 1 ≤ y) :
    daysBeforeYear (y + 1) = daysBeforeYear y + daysBeforeMonth y 12 + 31 := by
  obtain ⟨n, rfl⟩ := Nat.exists_eq_add_of_le' h
  rw [daysBeforeMonth_twelve, daysInMonth_two]
  unfold daysBeforeYear
  rw [Nat.add_sub_cancel, Nat.add_sub_cancel]
  have h4 : (n + 1) / 4 = n / 4 + if (n + 1) % 4 = 0 then 1 else 0 := by split_ifs <;> omega
  have h100 : (n + 1) / 100 = n / 100 + if (n + 1) % 100 = 0 then 1 else 0 := by
    split_ifs <;> omega
  have h400 : (n + 1) / 400 = n / 400 + if (n + 1) % 400 = 0 then 1 else 0 := by
    split_ifs <;> omega
  have hle : n / 100 ≤ n / 4 := Nat.div_le_div_left (by norm_num) (by norm_num)
  rw [h4, h100, h400]
  by_cases c4 : (n + 1) % 4 = 0
  · by_cases c100 : (n + 1) % 100 = 0
    · by_cases c400 : (n + 1) % 400 = 0
      · have hl : leap (n + 1) = true := decide_eq_true ⟨c4, Or.inr c400⟩
        rw [hl, if_pos c4, if_pos c100, if_pos c400, if_pos rfl]
        omega
      · have hl : leap (n + 1) = false := decide_eq_false fun h => h.2.elim (· c100) c400
        rw [hl, if_pos c4, if_pos c100, if_neg c400, if_neg (by simp)]
        omega
    · have c400 : (n + 1) % 400 ≠ 0 := by omega
      have hl : leap (n + 1) = true := decide_eq_true ⟨c4, Or.inl c100⟩
      rw [hl, if_pos c4, if_neg c100, if_neg c400, if_pos rfl]
      omega
  · have c100 : (n + 1) % 100 ≠ 0 := by omega
    have c400 : (n + 1) % 400 ≠ 0 := by omega
    have hl : leap (n + 1) = false := decide_eq_false fun h => c4 h.1
    rw [hl, if_neg c4, if_neg c100, if_neg c400, if_neg (by simp)]
    omega

theorem daysBeforeMonth_mono (y : ℕ) {m n : ℕ} (h1 : 1 ≤ m) (h : m < n) :
    daysBeforeMonth y m + daysInMonth y m ≤ daysBeforeMonth y n := by
  induction n with
  | zero => omega
  | succ n ih =>
    rw [daysBeforeMonth_succ y (by omega)]
    rcases Nat.lt_succ_iff_lt_or_eq.1 h with hlt | rfl
    · have := ih hlt
      omega
    · exact le_rfl

theorem daysBeforeYear_mono {y z : ℕ} (h1 : 1 ≤ y) (h : y < z) :
    daysBeforeYear y + daysBeforeMonth y 12 + 31 ≤ daysBeforeYear z := by
  induction z with
  | zero => omega
  | succ z ih =>
    rcases Nat.lt_succ_iff_lt_or_eq.1 h with hlt | rfl
    · have := ih hlt
      rw [daysBeforeYear_succ (by omega)]
      omega
    · rw [daysBeforeYear_succ h1]

/-- A day lies within its year. -/
theorem day_le_year {d : Day} (h : d.Valid) :
    daysBeforeMonth d.year d.month + d.day ≤ daysBeforeMonth d.year 12 + 31 := by
  obtain ⟨-, -, h1, h12, -, hd⟩ := h
  rcases Nat.lt_or_ge d.month 12 with hm | hm
  · have := daysBeforeMonth_mono d.year h1 hm
    omega
  · obtain he : d.month = 12 := le_antisymm h12 hm
    rw [he] at hd ⊢
    have := daysInMonth_le d.year 12
    omega

/-- **An ordinal has one day.** -/
theorem ordinal_inj {d e : Day} (hd : d.Valid) (he : e.Valid) (h : d.ordinal = e.ordinal) :
    d = e := by
  have key : ∀ {d e : Day}, d.Valid → e.Valid → d.ordinal = e.ordinal → e.year ≤ d.year := by
    intro d e hd he h
    by_contra hlt
    have h1 := daysBeforeYear_mono hd.1 (not_le.1 hlt)
    have h2 := day_le_year hd
    have h3 := he.2.2.2.2.1
    unfold Day.ordinal at h
    omega
  have keym : ∀ {d e : Day}, d.Valid → e.Valid → d.year = e.year → d.ordinal = e.ordinal →
      e.month ≤ d.month := by
    intro d e hd he hy h
    by_contra hlt
    have h1 := daysBeforeMonth_mono d.year hd.2.2.1 (not_le.1 hlt)
    have h2 := hd.2.2.2.2.2
    have h3 := he.2.2.2.2.1
    unfold Day.ordinal at h
    rw [← hy] at h
    omega
  have hy := le_antisymm (key he hd h.symm) (key hd he h)
  have hm := le_antisymm (keym he hd hy.symm h.symm) (keym hd he hy h)
  have hday : d.day = e.day := by
    unfold Day.ordinal at h
    rw [hy, hm] at h
    omega
  obtain ⟨y, m, n⟩ := d
  obtain ⟨y', m', n'⟩ := e
  show Day.mk y m n = Day.mk y' m' n'
  rw [Day.mk.injEq]
  exact ⟨hy, hm, hday⟩

theorem ordinal_next {d : Day} (h : d.Valid) : d.next.ordinal = d.ordinal + 1 := by
  obtain ⟨h1, -, hm1, hm12, hd1, hd⟩ := h
  unfold Day.next
  split_ifs with hlt hm
  · rfl
  · have he : d.day = daysInMonth d.year d.month := le_antisymm hd (not_lt.1 hlt)
    simp only [Day.ordinal]
    rw [daysBeforeMonth_succ d.year hm1, he]
    omega
  · have he : d.day = daysInMonth d.year d.month := le_antisymm hd (not_lt.1 hlt)
    have hm' : d.month = 12 := by omega
    have h31 : daysInMonth d.year 12 = 31 := rfl
    unfold Day.ordinal
    rw [daysBeforeYear_succ h1, he, hm', h31, show daysBeforeMonth (d.year + 1) 1 = 0 from rfl]

theorem valid_next {d : Day} (h : d.Valid) (hy : d.next.year ≤ 9999) : d.next.Valid := by
  obtain ⟨h1, h2, hm1, hm12, hd1, hd⟩ := h
  revert hy
  unfold Day.next
  split_ifs with hlt hm
  · intro _; exact ⟨h1, h2, hm1, hm12, by simp, hlt⟩
  · intro _; exact ⟨h1, h2, by simp, hm, le_rfl, daysInMonth_pos _ _⟩
  · intro hy; exact ⟨by simp, hy, le_rfl, by norm_num, le_rfl, daysInMonth_pos _ _⟩

theorem ordinal_prev {d : Day} (h : d.Valid) (hy : 1 ≤ d.prev.year) :
    d.prev.ordinal + 1 = d.ordinal := by
  obtain ⟨h1, -, hm1, hm12, hd1, hd⟩ := h
  revert hy
  unfold Day.prev
  split_ifs with hlt hm
  · intro _
    simp only [Day.ordinal]
    omega
  · intro _
    obtain ⟨m, hm'⟩ := Nat.exists_eq_add_of_lt hm
    have he : d.month = (d.month - 1) + 1 := by omega
    have hs := daysBeforeMonth_succ d.year (show 1 ≤ d.month - 1 by omega)
    rw [← he] at hs
    simp only [Day.ordinal]
    rw [hs]
    omega
  · intro hy
    have hm' : d.month = 1 := by omega
    simp only at hy
    have hs := daysBeforeYear_succ hy
    rw [show d.year - 1 + 1 = d.year by omega] at hs
    simp only [Day.ordinal]
    rw [hs, hm', show daysBeforeMonth d.year 1 = 0 from rfl]
    omega

theorem valid_prev {d : Day} (h : d.Valid) (hy : 1 ≤ d.prev.year) : d.prev.Valid := by
  obtain ⟨h1, h2, hm1, hm12, hd1, hd⟩ := h
  revert hy
  unfold Day.prev
  split_ifs with hlt hm
  · intro _; exact ⟨h1, h2, hm1, hm12, by simp only; omega, by simp only; omega⟩
  · intro _
    exact ⟨h1, h2, by simp only; omega, by simp only; omega, daysInMonth_pos _ _, le_rfl⟩
  · intro hy
    have h31 : daysInMonth (d.year - 1) 12 = 31 := by simp [daysInMonth]
    exact ⟨hy, by simp only; omega, by simp, le_rfl, by simp, h31.ge⟩

end Calendar
