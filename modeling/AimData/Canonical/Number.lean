/-
  Integers and decimals as `CanonicalSchema._value` writes them.

  A number is accepted in several spellings: a Python number, or a text whose
  digits may be of any script.  The decimal normalizer computes the value and
  writes its one text (`decimalText_spec`); the integer normalizer hands an
  accepted text through, which is the numeral of its value exactly when its
  digits are ASCII (`normalizeInteger_spec`).
-/
import AimData.Lib.Json
import AimData.Lib.Numeral
import AimData.Merkle.Hash
import Mathlib.Data.List.DropRight

namespace AimData

open Numeral

/-- An exception of Python's own, under the name of its class. -/
def raised {α : Type} (name : String) : Except CommitmentValidationError α :=
  .error { code := name }

/-- The sign and the rest of a text that may start with `-`. -/
def signed : List Char → Bool × List Char
  | '-' :: cs => (true, cs)
  | cs => (false, cs)

/-- Every character is ASCII. -/
def Ascii (s : List Char) : Prop := ∀ c ∈ s, c.toNat < 128

instance (s : List Char) : Decidable (Ascii s) :=
  List.decidableBAll (fun c : Char => c.toNat < 128) s

/-! ## Integers -/

/-- The most digits `str` writes of an int. -/
def maxStrDigits : ℕ := 4300

/-- `re.fullmatch(r"-?(?:0|[1-9]\d*)", value)` -/
def integerText (s : String) : Bool :=
  match (signed s.toList).2 with
  | [] => false
  | c :: ds => (c = '0' ∧ ds = []) ∨ (('1' ≤ c ∧ c ≤ '9') ∧ ds.all isDecimal)

/-- `str` of an int. -/
def integerStr (i : ℤ) : String := String.ofList (Json.dumpsInt i)

/-- The integer a text denotes. -/
def integerValue (s : String) : ℤ :=
  let (negative, ds) := signed s.toList
  if negative then -(value ds : ℤ) else value ds

def normalizeIntegerText (s : String) : Except CommitmentValidationError String :=
  if integerText s then .ok (if s = "-0" then "0" else s) else refuse "invalid_integer"

def normalizeInteger (i : ℤ) : Except CommitmentValidationError String :=
  if maxStrDigits < (Nat.toDigits 10 i.natAbs).length then raised "ValueError"
  else .ok (integerStr i)

/-! ## Decimals -/

/-- A finite `decimal.Decimal`. -/
structure PyDecimal where
  negative : Bool
  coefficient : ℕ
  exponent : ℤ
  deriving DecidableEq, Repr

namespace PyDecimal

def ofInt (i : ℤ) : PyDecimal := ⟨i < 0, i.natAbs, 0⟩

/-- The number it is. -/
def value (d : PyDecimal) : ℚ :=
  (if d.negative then -1 else 1) * d.coefficient * (10 : ℚ) ^ d.exponent

/-- `re.fullmatch(r"-?\d+(?:\.\d+)?", value)` and `Decimal(value)` -/
def ofText? (s : String) : Option PyDecimal :=
  let (negative, cs) := signed s.toList
  let whole := cs.takeWhile isDecimal
  if whole = [] then none
  else match cs.dropWhile isDecimal with
    | [] => some ⟨negative, Numeral.value whole, 0⟩
    | '.' :: fraction =>
      if fraction ≠ [] ∧ fraction.all isDecimal then
        some ⟨negative, Numeral.value (whole ++ fraction), -fraction.length⟩
      else none
    | _ => none

def sign (d : PyDecimal) : List Char := if d.negative then ['-'] else []

/-- `format(number, "f")` -/
def format (d : PyDecimal) : List Char :=
  if 0 ≤ d.exponent then
    d.sign ++ (Nat.toDigits 10 d.coefficient ++ List.replicate d.exponent.toNat '0')
  else
    let k := (-d.exponent).toNat
    d.sign ++ (Nat.toDigits 10 (d.coefficient / 10 ^ k) ++ '.' :: pad k (d.coefficient % 10 ^ k))

end PyDecimal

/-- The parameters of a decimal type. -/
structure DecimalParameters where
  precision : ℕ
  scale : ℕ
  bounds : 1 ≤ precision ∧ precision ≤ 1000 ∧ scale ≤ precision

/-- `result.rstrip("0").rstrip(".") if "." in result else result` -/
def stripFraction (result : List Char) : List Char :=
  if '.' ∈ result then (result.rdropWhile (· = '0')).rdropWhile (· = '.') else result

def normalizeDecimal (params : DecimalParameters) (number : PyDecimal) :
    Except CommitmentValidationError String :=
  let digits := Nat.toDigits 10 number.coefficient
  let scale := max 0 (-number.exponent)
  let integral := if number.coefficient ≠ 0 then max 0 (digits.length + number.exponent) else 0
  if scale > params.scale ∨ integral > params.precision - params.scale then
    refuse "decimal_out_of_range"
  else if number.coefficient = 0 then .ok "0"
  else .ok (String.ofList (stripFraction number.format))

/-! ## ASCII digits -/

theorem isDigit_of_isDecimal {c : Char} (hd : isDecimal c = true) (h : c.toNat < 128) :
    c.isDigit = true := by
  obtain ⟨z, hz, -⟩ := Option.map_eq_some_iff.1 (Option.isSome_iff_exists.1 hd).choose_spec
  have hlow : ∀ z ∈ zeros, z < 128 → z = 48 := by decide
  have hb := List.find?_some hz
  simp only [decide_eq_true_eq] at hb
  obtain rfl := hlow z (List.mem_of_find?_eq_some hz) (by omega)
  simp only [Char.isDigit, Bool.and_eq_true, decide_eq_true_eq, UInt32.le_iff_toNat_le]
  exact ⟨hb.1, by have := hb.2; change c.toNat ≤ 57; omega⟩

theorem toNat_lt_of_isDigit {c : Char} (h : c.isDigit = true) : c.toNat < 128 := by
  simp only [Char.isDigit, Bool.and_eq_true, decide_eq_true_eq, UInt32.le_iff_toNat_le] at h
  have : c.toNat ≤ 57 := h.2
  omega

theorem signed_of_isDigit : ∀ {ds : List Char}, (∀ c ∈ ds, c.isDigit = true) →
    signed ds = (false, ds)
  | [], _ => rfl
  | c :: ds, h => by
    have hc : c ≠ '-' := by
      rintro rfl
      exact absurd (h '-' (by simp)) (by decide)
    unfold signed
    split
    · rename_i heq
      exact absurd (List.cons.inj heq).1 hc
    · rfl

/-- A text is its sign and its rest. -/
theorem signed_append : ∀ cs : List Char,
    (if (signed cs).1 then ['-'] else []) ++ (signed cs).2 = cs := by
  intro cs
  unfold signed
  split <;> rfl

/-! ## The numeral of an integer -/

theorem dumpsInt_eq (i : ℤ) :
    Json.dumpsInt i = (if i < 0 then ['-'] else []) ++ Nat.toDigits 10 i.natAbs := by
  unfold Json.dumpsInt
  split_ifs <;> rfl

theorem signed_dumpsInt (i : ℤ) :
    signed (Json.dumpsInt i) = (decide (i < 0), Nat.toDigits 10 i.natAbs) := by
  rw [dumpsInt_eq]
  by_cases hi : i < 0
  · rw [if_pos hi, decide_eq_true hi]
    rfl
  · rw [if_neg hi, decide_eq_false hi]
    exact signed_of_isDigit fun c hc => isDigit_toDigits c hc

theorem integerValue_integerStr (i : ℤ) : integerValue (integerStr i) = i := by
  unfold integerValue integerStr
  rw [String.toList_ofList, signed_dumpsInt]
  simp only [value_toDigits, decide_eq_true_eq]
  split_ifs <;> omega

/-- **An integer has one numeral, and a numeral one integer.** -/
theorem integerStr_inj {i j : ℤ} (h : integerStr i = integerStr j) : i = j := by
  rw [← integerValue_integerStr i, h, integerValue_integerStr]

theorem ascii_integerStr (i : ℤ) : Ascii (integerStr i).toList := by
  rw [integerStr, String.toList_ofList, dumpsInt_eq]
  intro c hc
  rcases List.mem_append.1 hc with hc | hc
  · split_ifs at hc
    · rw [List.mem_singleton.1 hc]; decide
    · cases hc
  · exact toNat_lt_of_isDigit (isDigit_toDigits c hc)

/-- The digits of an accepted text: `0` alone, or no leading zero. -/
theorem integerText_digits {s : String} (h : integerText s = true) :
    ∃ c ds, (signed s.toList).2 = c :: ds ∧ isDecimal c = true ∧ (∀ d ∈ ds, isDecimal d = true) ∧
      (c = '0' → ds = []) := by
  unfold integerText at h
  split at h
  · cases h
  · rename_i c ds heq
    rw [decide_eq_true_eq] at h
    refine ⟨c, ds, heq, ?_⟩
    rcases h with ⟨rfl, rfl⟩ | ⟨⟨h1, h9⟩, hd⟩
    · exact ⟨by decide, by simp, fun _ => rfl⟩
    · refine ⟨isDecimal_of_isDigit ?_, List.all_eq_true.1 hd, ?_⟩
      · have h0 : '0' ≤ c := Char.le_def.2 (UInt32.le_trans (by decide) (Char.le_def.1 h1))
        simp only [Char.isDigit, Bool.and_eq_true, decide_eq_true_eq]
        exact ⟨h0, h9⟩
      · rintro rfl
        exact absurd h1 (by decide)

/-- **An accepted integer text is the numeral of its value iff its digits are
    ASCII.** -/
theorem normalizeIntegerText_spec {s t : String} (h : normalizeIntegerText s = .ok t) :
    t = integerStr (integerValue s) ↔ Ascii s.toList := by
  unfold normalizeIntegerText at h
  split_ifs at h with hs h0
  · cases h
    subst h0
    exact ⟨fun _ => by decide +kernel, fun _ => by decide +kernel⟩
  · cases h
    constructor
    · intro ht
      rw [ht]
      exact ascii_integerStr _
    · intro ha
      obtain ⟨c, ds, hsg, hc, hds, hz⟩ := integerText_digits hs
      have hs' := signed_append s.toList
      rw [hsg] at hs'
      have hdig : ∀ x ∈ c :: ds, x.isDigit = true := by
        intro x hx
        refine isDigit_of_isDecimal ?_ (ha x ?_)
        · rcases List.mem_cons.1 hx with rfl | hx
          · exact hc
          · exact hds x hx
        · rw [← hs']
          exact List.mem_append_right _ hx
      have hdigits : Nat.toDigits 10 (value (c :: ds)) = c :: ds := by
        by_cases h00 : c = '0'
        · rw [h00, hz h00]; rfl
        · exact toDigits_value hdig h00
      rw [← String.ofList_toList (s := s), integerStr]
      congr 1
      rw [String.ofList_toList, dumpsInt_eq]
      have hval : integerValue s
          = if (signed s.toList).1 then -(value (c :: ds) : ℤ) else value (c :: ds) := by
        unfold integerValue
        rw [← hsg]
      cases hsign : (signed s.toList).1 with
      | false =>
        rw [hsign] at hs' hval
        simp only [Bool.false_eq_true, if_false] at hs' hval
        rw [hval, if_neg (by omega), Int.natAbs_natCast, hdigits]
        exact hs'.symm
      | true =>
        rw [hsign] at hs' hval
        simp only [if_true] at hs' hval
        have hpos : 0 < value (c :: ds) := by
          by_contra hzero
          have hzero : value (c :: ds) = 0 := by omega
          rw [hzero, Nat.toDigits_zero] at hdigits
          refine h0 ?_
          rw [← String.ofList_toList (s := s), ← hs', ← hdigits]
          rfl
        rw [hval, if_pos (by omega), Int.natAbs_neg, Int.natAbs_natCast, hdigits]
        exact hs'.symm
  · cases h

theorem normalizeInteger_spec {i : ℤ} {t : String} (h : normalizeInteger i = .ok t) :
    t = integerStr i := by
  unfold normalizeInteger at h
  split_ifs at h
  · cases h
  · cases h; rfl

/-! ## The text of a decimal -/

/-- The number `± c / 10 ^ k`. -/
def fixedPoint (negative : Bool) (c k : ℕ) : PyDecimal := ⟨negative, c, -k⟩

/-- No digit of the fraction is superfluous, and zero has no sign. -/
def Reduced (negative : Bool) (c k : ℕ) : Prop :=
  (k = 0 ∨ c % 10 ≠ 0) ∧ (c = 0 → negative = false)

def decimalText (negative : Bool) (c k : ℕ) : List Char :=
  (if negative then ['-'] else []) ++
    (Nat.toDigits 10 (c / 10 ^ k) ++ if k = 0 then [] else '.' :: pad k (c % 10 ^ k))

/-- The one text of an exact decimal. -/
def WritesDecimal (q : ℚ) (t : String) : Prop :=
  ∃ negative c k, Reduced negative c k ∧ (fixedPoint negative c k).value = q ∧
    t = String.ofList (decimalText negative c k)

theorem value_fixedPoint (negative : Bool) (c k : ℕ) :
    (fixedPoint negative c k).value = (if negative then -1 else 1) * (c / 10 ^ k : ℚ) := by
  unfold PyDecimal.value fixedPoint
  simp only
  rw [zpow_neg, zpow_natCast, div_eq_mul_inv, mul_assoc]

/-- Two reduced forms of one magnitude are one. -/
theorem reduced_unique_le {c c' k k' : ℕ} (h' : k' = 0 ∨ c' % 10 ≠ 0) (hk : k ≤ k')
    (h : c * 10 ^ k' = c' * 10 ^ k) : c = c' ∧ k = k' := by
  obtain ⟨n, rfl⟩ := Nat.exists_eq_add_of_le hk
  have hc : c * 10 ^ n = c' := by
    have hpos : 0 < 10 ^ k := by positivity
    rw [pow_add, ← mul_assoc, mul_right_comm] at h
    exact Nat.eq_of_mul_eq_mul_right hpos h
  cases n with
  | zero => exact ⟨by simpa using hc, rfl⟩
  | succ n =>
    rw [pow_succ, ← mul_assoc] at hc
    rcases h' with h' | h'
    · omega
    · exact absurd (by rw [← hc, Nat.mul_mod_left]) h'

theorem reduced_unique {c c' k k' : ℕ} (h : k = 0 ∨ c % 10 ≠ 0) (h' : k' = 0 ∨ c' % 10 ≠ 0)
    (he : c * 10 ^ k' = c' * 10 ^ k) : c = c' ∧ k = k' := by
  rcases le_total k k' with hk | hk
  · exact reduced_unique_le h' hk he
  · obtain ⟨h1, h2⟩ := reduced_unique_le h hk he.symm
    exact ⟨h1.symm, h2.symm⟩

/-- **A number has one reduced form.** -/
theorem fixedPoint_inj {n n' : Bool} {c c' k k' : ℕ} (h : Reduced n c k) (h' : Reduced n' c' k')
    (he : (fixedPoint n c k).value = (fixedPoint n' c' k').value) : n = n' ∧ c = c' ∧ k = k' := by
  rw [value_fixedPoint, value_fixedPoint] at he
  have hk : (0 : ℚ) < 10 ^ k := by positivity
  have hk' : (0 : ℚ) < 10 ^ k' := by positivity
  have hm : (0 : ℚ) ≤ c / 10 ^ k := by positivity
  have hm' : (0 : ℚ) ≤ c' / 10 ^ k' := by positivity
  have hmag : (c / 10 ^ k : ℚ) = c' / 10 ^ k' := by
    cases n <;> cases n' <;> simp only [if_true, if_false, Bool.false_eq_true] at he <;> linarith
  have hnat : c * 10 ^ k' = c' * 10 ^ k := by
    rw [div_eq_div_iff hk.ne' hk'.ne'] at hmag
    exact_mod_cast hmag
  obtain ⟨rfl, rfl⟩ := reduced_unique h.1 h'.1 hnat
  refine ⟨?_, rfl, rfl⟩
  by_cases hc : c = 0
  · rw [h.2 hc, h'.2 hc]
  · have hpos : (0 : ℚ) < c / 10 ^ k := by
      have : 0 < c := Nat.pos_of_ne_zero hc
      positivity
    cases n <;> cases n' <;> simp only [if_true, if_false, Bool.false_eq_true] at he ⊢ <;> linarith

theorem isDecimal_toDigits {n : ℕ} : ∀ c ∈ Nat.toDigits 10 n, isDecimal c = true :=
  fun c hc => isDecimal_of_isDigit (isDigit_toDigits c hc)

theorem signed_decimalText (n : Bool) (c k : ℕ) :
    signed (decimalText n c k) =
      (n, Nat.toDigits 10 (c / 10 ^ k) ++ if k = 0 then [] else '.' :: pad k (c % 10 ^ k)) := by
  unfold decimalText
  cases n with
  | true => rfl
  | false =>
    rw [if_neg Bool.false_ne_true, List.nil_append]
    obtain ⟨d, ds, hd⟩ := List.exists_cons_of_ne_nil (Nat.toDigits_ne_nil (n := c / 10 ^ k) (b := 10))
    have hdig : d.isDigit = true := isDigit_toDigits d (by rw [hd]; simp)
    have hne : d ≠ '-' := by
      rintro rfl
      exact absurd hdig (by decide)
    rw [hd, List.cons_append]
    unfold signed
    split
    · rename_i heq
      exact absurd (List.cons.inj heq).1 hne
    · rfl

/-- **The text of a reduced decimal is read back.** -/
theorem ofText_decimalText (n : Bool) (c k : ℕ) :
    PyDecimal.ofText? (String.ofList (decimalText n c k)) = some (fixedPoint n c k) := by
  have hall : ∀ x ∈ Nat.toDigits 10 (c / 10 ^ k), isDecimal x = true := isDecimal_toDigits
  unfold PyDecimal.ofText?
  rw [String.toList_ofList, signed_decimalText]
  simp only
  rw [List.takeWhile_append_of_pos hall, List.dropWhile_append_of_pos hall]
  cases k with
  | zero =>
    rw [if_pos rfl, List.takeWhile_nil, List.dropWhile_nil, List.append_nil,
      if_neg Nat.toDigits_ne_nil, value_toDigits, pow_zero, Nat.div_one]
    rfl
  | succ k =>
    have hdot : isDecimal '.' = false := by decide
    have hpad : (pad (k + 1) (c % 10 ^ (k + 1))).all isDecimal = true :=
      List.all_eq_true.2 fun x hx => isDecimal_of_isDigit (isDigit_pad x hx)
    have hne : pad (k + 1) (c % 10 ^ (k + 1)) ≠ [] := by
      intro h
      have := congrArg List.length h
      rw [length_pad] at this
      exact absurd this (by simp)
    rw [if_neg (Nat.succ_ne_zero k), List.takeWhile_cons_of_neg (by simp [hdot]),
      List.dropWhile_cons_of_neg (by simp [hdot]), List.append_nil, if_neg Nat.toDigits_ne_nil]
    simp only
    rw [if_pos ⟨hne, hpad⟩, value_append_list, value_toDigits, length_pad,
      value_pad (Nat.mod_lt _ (by positivity)), Nat.div_add_mod']
    rfl

theorem WritesDecimal.text_unique {q : ℚ} {t t' : String} (h : WritesDecimal q t)
    (h' : WritesDecimal q t') : t = t' := by
  obtain ⟨n, c, k, hr, hv, rfl⟩ := h
  obtain ⟨n', c', k', hr', hv', rfl⟩ := h'
  obtain ⟨rfl, rfl, rfl⟩ := fixedPoint_inj hr hr' (hv.trans hv'.symm)
  rfl

theorem WritesDecimal.value_unique {q q' : ℚ} {t : String} (h : WritesDecimal q t)
    (h' : WritesDecimal q' t) : q = q' := by
  obtain ⟨n, c, k, -, rfl, rfl⟩ := h
  obtain ⟨n', c', k', -, rfl, ht⟩ := h'
  have := (ofText_decimalText n c k).symm.trans ((congrArg _ ht).trans (ofText_decimalText n' c' k'))
  rw [Option.some.inj this]

/-! ## The decimal normalizer -/

/-- A fixed-point text that keeps its point. -/
def dotText (c k : ℕ) : List Char := Nat.toDigits 10 (c / 10 ^ k) ++ '.' :: pad k (c % 10 ^ k)

theorem dotText_succ (c k : ℕ) :
    dotText c (k + 1) = dotText (c / 10) k ++ [Nat.digitChar (c % 10)] := by
  unfold dotText
  rw [pad, pow_succ', Nat.div_div_eq_div_mul, Nat.mod_mul_right_div_self, Nat.mod_mul_right_mod,
    List.append_assoc]
  rfl

theorem digitChar_ne_dot {d : ℕ} (h : d < 10) : Nat.digitChar d ≠ '.' := by
  intro he
  have := isDigit_digitChar h
  rw [he] at this
  exact absurd this (by decide)

theorem digitChar_ne_zero {d : ℕ} (h : d < 10) (h0 : d ≠ 0) : Nat.digitChar d ≠ '0' := by
  have key : ∀ d : Fin 10, d.1 ≠ 0 → Nat.digitChar d ≠ '0' := by decide
  exact key ⟨d, h⟩ h0

/-- Zeros at the end of the fraction, then a bare point, are stripped. -/
theorem rdropWhile_dotText : ∀ (k c : ℕ), ∃ c' k', (k' = 0 ∨ c' % 10 ≠ 0) ∧
    c' * 10 ^ k = c * 10 ^ k' ∧
    ((dotText c k).rdropWhile (· = '0')).rdropWhile (· = '.') = decimalText false c' k'
  | 0, c => by
    refine ⟨c, 0, Or.inl rfl, rfl, ?_⟩
    have hdot : dotText c 0 = Nat.toDigits 10 c ++ ['.'] := by
      unfold dotText
      rw [pow_zero, Nat.div_one]
      rfl
    have htext : decimalText false c 0 = Nat.toDigits 10 c := by
      unfold decimalText
      rw [pow_zero, Nat.div_one]
      simp
    rw [hdot, htext, List.rdropWhile_concat_neg _ _ _ (by decide),
      List.rdropWhile_concat_pos _ _ _ (by decide), List.rdropWhile_eq_self_iff]
    intro hne hlast
    have hdig := isDigit_toDigits _ (List.getLast_mem hne)
    rw [of_decide_eq_true hlast] at hdig
    exact absurd hdig (by decide)
  | k + 1, c => by
    by_cases hc : c % 10 = 0
    · obtain ⟨c', k', hr, he, ht⟩ := rdropWhile_dotText k (c / 10)
      refine ⟨c', k', hr, ?_, ?_⟩
      · rw [pow_succ, ← mul_assoc, he, mul_right_comm, Nat.div_mul_cancel (Nat.dvd_of_mod_eq_zero hc)]
      · rw [dotText_succ, hc, List.rdropWhile_concat_pos _ _ _ (by decide)]
        exact ht
    · refine ⟨c, k + 1, Or.inr hc, rfl, ?_⟩
      have hlt : c % 10 < 10 := Nat.mod_lt _ (by norm_num)
      rw [dotText_succ,
        List.rdropWhile_concat_neg (fun x => decide (x = '0')) _ _
          fun h => digitChar_ne_zero hlt hc (of_decide_eq_true h),
        List.rdropWhile_concat_neg (fun x => decide (x = '.')) _ _
          fun h => digitChar_ne_dot hlt (of_decide_eq_true h), ← dotText_succ]
      rfl

theorem toDigits_mul_pow {c : ℕ} (hc : c ≠ 0) : ∀ e : ℕ,
    Nat.toDigits 10 c ++ List.replicate e '0' = Nat.toDigits 10 (c * 10 ^ e)
  | 0 => by simp
  | e + 1 => by
    have hpos : 0 < c * 10 ^ e := Nat.mul_pos (Nat.pos_of_ne_zero hc) (by positivity)
    rw [List.replicate_succ', ← List.append_assoc, toDigits_mul_pow hc e, pow_succ, ← mul_assoc,
      Nat.toDigits_of_base_le (n := c * 10 ^ e * 10) (by norm_num) (by omega),
      Nat.mul_div_cancel _ (by norm_num), Nat.mul_mod_left]
    rfl

theorem rdropWhile_cons_append {p : Char → Bool} (s : List Char) {t : List Char}
    (h : t.rdropWhile p ≠ []) : (s ++ t).rdropWhile p = s ++ t.rdropWhile p := by
  induction t using List.reverseRecOn with
  | nil => exact absurd rfl h
  | append_singleton t x ih =>
    rw [← List.append_assoc]
    by_cases hx : p x
    · rw [List.rdropWhile_concat_pos _ _ _ hx] at h ⊢
      rw [List.rdropWhile_concat_pos _ _ _ hx]
      exact ih h
    · rw [List.rdropWhile_concat_neg _ _ _ hx, List.rdropWhile_concat_neg _ _ _ hx,
        List.append_assoc]

theorem decimalText_ne_nil (c k : ℕ) : decimalText false c k ≠ [] := by
  unfold decimalText
  simp [Nat.toDigits_ne_nil]

/-- The sign stays when the fraction is stripped. -/
theorem strip_signed (sg : List Char) {t r : List Char} (hr : r ≠ [])
    (h : (t.rdropWhile (· = '0')).rdropWhile (· = '.') = r) :
    (((sg ++ t).rdropWhile (· = '0')).rdropWhile (· = '.')) = sg ++ r := by
  have h0 : t.rdropWhile (· = '0') ≠ [] := by
    intro h0
    rw [h0, List.rdropWhile_nil] at h
    exact hr h.symm
  rw [rdropWhile_cons_append sg h0, rdropWhile_cons_append sg (by rw [h]; exact hr), h]

theorem dot_not_mem_toDigits (n : ℕ) : '.' ∉ Nat.toDigits 10 n := fun h =>
  absurd (isDigit_toDigits _ h) (by decide)

/-- The stripped text of a number that is not zero is its one text. -/
theorem writesDecimal_format {d : PyDecimal} (hd : d.coefficient ≠ 0) :
    WritesDecimal d.value (String.ofList (stripFraction d.format)) := by
  obtain ⟨n, c, e⟩ := d
  change c ≠ 0 at hd
  unfold PyDecimal.format PyDecimal.sign
  simp only
  by_cases he : 0 ≤ e
  · rw [if_pos he, toDigits_mul_pow hd]
    obtain ⟨e, rfl⟩ := Int.eq_ofNat_of_zero_le he
    refine ⟨n, c * 10 ^ e, 0, ⟨Or.inl rfl, fun h => ?_⟩, ?_, ?_⟩
    · exact absurd h (Nat.mul_ne_zero hd (by positivity))
    · rw [value_fixedPoint]
      unfold PyDecimal.value
      simp
    · have hdot : '.' ∉ (if n then ['-'] else []) ++ Nat.toDigits 10 (c * 10 ^ e) := by
        rw [List.mem_append]
        rintro (h | h)
        · split_ifs at h
          · exact absurd (List.mem_singleton.1 h) (by decide)
          · cases h
        · exact dot_not_mem_toDigits _ h
      unfold stripFraction
      rw [Int.toNat_natCast, if_neg hdot]
      unfold decimalText
      simp
  · rw [if_neg he]
    obtain ⟨k, hk⟩ : ∃ k : ℕ, e = -k := ⟨(-e).toNat, by omega⟩
    obtain ⟨c', k', hr, hval, ht⟩ := rdropWhile_dotText k c
    have hc' : c' ≠ 0 := by
      rintro rfl
      rw [zero_mul] at hval
      exact Nat.mul_ne_zero hd (by positivity) hval.symm
    refine ⟨n, c', k', ⟨hr, fun h => absurd h hc'⟩, ?_, ?_⟩
    · have hq : (c' : ℚ) / 10 ^ k' = c / 10 ^ k := by
        rw [div_eq_div_iff (by positivity) (by positivity)]
        exact_mod_cast hval
      rw [value_fixedPoint, hq, ← value_fixedPoint, fixedPoint, ← hk]
    · have hk' : (-e).toNat = k := by omega
      unfold stripFraction
      rw [hk', if_pos (by simp)]
      congr 1
      rw [show decimalText n c' k' = (if n then ['-'] else []) ++ decimalText false c' k' from rfl]
      exact strip_signed _ (decimalText_ne_nil c' k') ht

/-- **The decimal normalizer writes the one text of the number.** -/
theorem normalizeDecimal_spec {params : DecimalParameters} {d : PyDecimal} {t : String}
    (h : normalizeDecimal params d = .ok t) : WritesDecimal d.value t := by
  unfold normalizeDecimal at h
  simp only at h
  generalize (if d.coefficient ≠ 0 then _ else _ : ℤ) = integral at h
  split_ifs at h with hrange hzero
  · cases h
  · cases h
    refine ⟨false, 0, 0, ⟨Or.inl rfl, fun _ => rfl⟩, ?_, rfl⟩
    rw [value_fixedPoint]
    unfold PyDecimal.value
    rw [hzero]
    simp
  · cases h
    exact writesDecimal_format hzero

end AimData
