/-
  Decimal numerals: the decimal digits of Unicode, the value of a digit
  string, and the ASCII numerals of a number.

  A string of ASCII digits is the padded numeral of its value (`pad_value`)
  and, without a leading zero, its shortest numeral (`toDigits_value`); a
  string with a digit of another script is neither.
-/
import Mathlib.Tactic

namespace Numeral

/-! ## Digits -/

/-- The zeros of the blocks of ten that make up the category Nd (Unicode 14). -/
def zeros : List ℕ :=
  [0x30, 0x660, 0x6f0, 0x7c0, 0x966, 0x9e6, 0xa66, 0xae6, 0xb66, 0xbe6, 0xc66, 0xce6, 0xd66, 0xde6,
    0xe50, 0xed0, 0xf20, 0x1040, 0x1090, 0x17e0, 0x1810, 0x1946, 0x19d0, 0x1a80, 0x1a90, 0x1b50,
    0x1bb0, 0x1c40, 0x1c50, 0xa620, 0xa8d0, 0xa900, 0xa9d0, 0xa9f0, 0xaa50, 0xabf0, 0xff10, 0x104a0,
    0x10d30, 0x11066, 0x110f0, 0x11136, 0x111d0, 0x112f0, 0x11450, 0x114d0, 0x11650, 0x116c0,
    0x11730, 0x118e0, 0x11950, 0x11c50, 0x11d50, 0x11da0, 0x16a60, 0x16ac0, 0x16b50, 0x1d7ce,
    0x1d7d8, 0x1d7e2, 0x1d7ec, 0x1d7f6, 0x1e140, 0x1e2f0, 0x1e950, 0x1fbf0]

/-- The value of a decimal digit of any script. -/
def digit (c : Char) : Option ℕ :=
  (zeros.find? fun z => z ≤ c.toNat ∧ c.toNat < z + 10).map fun z => c.toNat - z

/-- `\d` -/
def isDecimal (c : Char) : Bool := (digit c).isSome

/-- The number a digit string denotes. -/
def value (ds : List Char) : ℕ := ds.foldl (fun n c => n * 10 + (digit c).getD 0) 0

/-- The numeral of `w` digits of `n` (modulo `10 ^ w`). -/
def pad : ℕ → ℕ → List Char
  | 0, _ => []
  | w + 1, n => pad w (n / 10) ++ [Nat.digitChar (n % 10)]

theorem isDigit_digitChar {d : ℕ} (h : d < 10) : (Nat.digitChar d).isDigit = true := by
  have : ∀ d : Fin 10, (Nat.digitChar d).isDigit = true := by decide
  exact this ⟨d, h⟩

theorem digit_digitChar {d : ℕ} (h : d < 10) : digit (Nat.digitChar d) = some d := by
  have : ∀ d : Fin 10, digit (Nat.digitChar d) = some d.1 := by decide
  exact this ⟨d, h⟩

/-- An ASCII digit is the digit character of its value. -/
theorem exists_of_isDigit {c : Char} (h : c.isDigit = true) : ∃ d < 10, c = Nat.digitChar d := by
  have h' : 48 ≤ c.toNat ∧ c.toNat ≤ 57 := by
    simp only [Char.isDigit, Bool.and_eq_true, decide_eq_true_eq] at h
    exact ⟨by simpa [UInt32.le_iff_toNat_le] using h.1, by simpa [UInt32.le_iff_toNat_le] using h.2⟩
  refine ⟨c.toNat - 48, by omega, ?_⟩
  have key : ∀ d : Fin 10, Nat.digitChar d = Char.ofNat (48 + d) := by decide
  have := key ⟨c.toNat - 48, by omega⟩
  rw [this]
  simp only
  rw [Nat.add_sub_cancel' h'.1, Char.ofNat_toNat]

theorem isDecimal_of_isDigit {c : Char} (h : c.isDigit = true) : isDecimal c = true := by
  obtain ⟨d, hd, rfl⟩ := exists_of_isDigit h
  rw [isDecimal, digit_digitChar hd]; rfl

theorem digit_lt {c : Char} {d : ℕ} (h : digit c = some d) : d < 10 := by
  obtain ⟨z, hz, rfl⟩ := Option.map_eq_some_iff.1 h
  have := List.find?_some hz
  simp only [decide_eq_true_eq] at this
  omega

/-! ## Values -/

theorem value_append (ds : List Char) (c : Char) :
    value (ds ++ [c]) = value ds * 10 + (digit c).getD 0 := by
  simp [value, List.foldl_append]

theorem value_append_list (ds es : List Char) :
    value (ds ++ es) = value ds * 10 ^ es.length + value es := by
  induction es using List.reverseRecOn with
  | nil => simp [value]
  | append_singleton es c ih =>
    rw [← List.append_assoc, value_append, ih, value_append, List.length_append, List.length_singleton,
      pow_succ]
    ring

theorem getD_digit_lt (c : Char) : (digit c).getD 0 < 10 := by
  cases h : digit c with
  | none => simp
  | some d => exact digit_lt h

theorem value_lt (ds : List Char) : value ds < 10 ^ ds.length := by
  induction ds using List.reverseRecOn with
  | nil => simp [value]
  | append_singleton ds c ih =>
    have := getD_digit_lt c
    rw [value_append, List.length_append, List.length_singleton, pow_succ]
    omega

@[simp] theorem length_pad (w n : ℕ) : (pad w n).length = w := by
  induction w generalizing n with
  | zero => rfl
  | succ w ih => simp [pad, ih]

theorem isDigit_pad {w n : ℕ} : ∀ c ∈ pad w n, c.isDigit = true := by
  induction w generalizing n with
  | zero => intro c hc; cases hc
  | succ w ih =>
    intro c hc
    rw [pad, List.mem_append, List.mem_singleton] at hc
    rcases hc with hc | rfl
    · exact ih c hc
    · exact isDigit_digitChar (Nat.mod_lt _ (by norm_num))

theorem value_pad {w n : ℕ} (h : n < 10 ^ w) : value (pad w n) = n := by
  induction w generalizing n with
  | zero => rw [pow_zero, Nat.lt_one_iff] at h; rw [h]; rfl
  | succ w ih =>
    rw [pow_succ] at h
    rw [pad, value_append, ih (by omega), digit_digitChar (Nat.mod_lt _ (by norm_num))]
    simp only [Option.getD_some]
    omega

/-- **A string of ASCII digits is the padded numeral of its value.** -/
theorem pad_value {ds : List Char} (h : ∀ c ∈ ds, c.isDigit = true) :
    pad ds.length (value ds) = ds := by
  induction ds using List.reverseRecOn with
  | nil => rfl
  | append_singleton ds c ih =>
    obtain ⟨d, hd, rfl⟩ := exists_of_isDigit (h c (by simp))
    rw [List.length_append, List.length_singleton, pad, value_append, digit_digitChar hd]
    simp only [Option.getD_some]
    have h1 : (value ds * 10 + d) / 10 = value ds := by omega
    have h2 : (value ds * 10 + d) % 10 = d := by omega
    rw [h1, h2, ih fun c hc => h c (by simp [hc])]

theorem pad_inj {w n m : ℕ} (hn : n < 10 ^ w) (hm : m < 10 ^ w) (h : pad w n = pad w m) : n = m := by
  rw [← value_pad hn, h, value_pad hm]

/-! ## Shortest numerals -/

theorem isDigit_toDigits {n : ℕ} : ∀ c ∈ Nat.toDigits 10 n, c.isDigit = true := fun _ hc =>
  Nat.isDigit_of_mem_toDigits (by norm_num) le_rfl hc

theorem value_toDigits (n : ℕ) : value (Nat.toDigits 10 n) = n := by
  induction n using Nat.strong_induction_on with
  | _ n ih =>
    rcases Nat.lt_or_ge n 10 with hlt | hge
    · rw [Nat.toDigits_of_lt_base hlt, value, List.foldl_cons, List.foldl_nil, digit_digitChar hlt]
      simp
    · rw [Nat.toDigits_of_base_le (by norm_num) hge, value_append, ih (n / 10) (by omega),
        digit_digitChar (Nat.mod_lt _ (by norm_num))]
      simp only [Option.getD_some]
      omega

/-- **An ASCII numeral without leading zero is the shortest numeral** of its
    value. -/
theorem toDigits_value {c : Char} {ds : List Char} (h : ∀ x ∈ c :: ds, x.isDigit = true)
    (hc : c ≠ '0') : Nat.toDigits 10 (value (c :: ds)) = c :: ds := by
  induction ds using List.reverseRecOn with
  | nil =>
    obtain ⟨d, hd, rfl⟩ := exists_of_isDigit (h c (by simp))
    have : value [Nat.digitChar d] = d := by
      rw [value, List.foldl_cons, List.foldl_nil, digit_digitChar hd]; simp
    rw [this, Nat.toDigits_of_lt_base hd]
  | append_singleton ds e ih =>
    obtain ⟨d, hd, rfl⟩ := exists_of_isDigit (h e (by simp))
    have ih := ih fun x hx => h x (by
      rcases List.mem_cons.1 hx with rfl | hx
      · simp
      · simp [hx])
    have hpos : 1 ≤ value (c :: ds) := by
      by_contra h0
      have h0 : value (c :: ds) = 0 := by omega
      rw [h0, Nat.toDigits_zero] at ih
      exact hc (List.cons.inj ih).1.symm
    rw [← List.cons_append, value_append, digit_digitChar hd, Option.getD_some,
      Nat.toDigits_of_base_le (by norm_num) (by omega)]
    have h1 : (value (c :: ds) * 10 + d) / 10 = value (c :: ds) := by omega
    have h2 : (value (c :: ds) * 10 + d) % 10 = d := by omega
    rw [h1, h2, ih]

theorem toDigits_inj {n m : ℕ} (h : Nat.toDigits 10 n = Nat.toDigits 10 m) : n = m := by
  rw [← value_toDigits n, h, value_toDigits]

end Numeral
