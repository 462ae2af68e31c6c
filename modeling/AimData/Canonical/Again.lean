/-
  Canonical scalars are read again as they are.

  What the normalizer of a scalar type writes it also accepts, and writes the
  same.
-/
import AimData.Canonical.Row

namespace AimData

open Numeral

/-! ## Integers -/

theorem integerText_of_digits {c : Char} {ds : List Char} {negative : Bool}
    (hall : ∀ x ∈ c :: ds, x.isDigit = true) (hzero : c = '0' → ds = []) :
    integerText (String.ofList ((if negative then ['-'] else []) ++ c :: ds)) = true := by
  have hsigned : (signed ((if negative then ['-'] else []) ++ c :: ds)).2 = c :: ds := by
    cases negative with
    | true => rfl
    | false => exact congrArg Prod.snd (signed_of_isDigit hall)
  unfold integerText
  rw [String.toList_ofList, hsigned]
  simp only [decide_eq_true_eq]
  by_cases hc : c = '0'
  · exact Or.inl ⟨hc, hzero hc⟩
  · have hdigit := hall c List.mem_cons_self
    simp only [Char.isDigit, Bool.and_eq_true, decide_eq_true_eq] at hdigit
    refine Or.inr ⟨⟨?_, hdigit.2⟩, ?_⟩
    · rw [Char.le_def, UInt32.le_iff_toNat_le]
      have hlow : 48 ≤ c.toNat := UInt32.le_iff_toNat_le.1 hdigit.1
      have hne : c.toNat ≠ 48 := fun h => hc (Char.toNat_inj.1 (h.trans rfl))
      change 49 ≤ c.toNat
      omega
    · exact List.all_eq_true.2 fun x hx => isDecimal_of_isDigit (hall x (List.mem_cons_of_mem _ hx))

theorem toDigits_leading (n : ℕ) : ∃ c ds, Nat.toDigits 10 n = c :: ds ∧
    (c = '0' → n = 0 ∧ ds = []) := by
  obtain ⟨c, ds, hc⟩ := List.exists_cons_of_ne_nil (Nat.toDigits_ne_nil (n := n) (b := 10))
  refine ⟨c, ds, hc, fun hzero => ?_⟩
  have hn : n = 0 := by
    by_contra hn
    exact Json.head_toDigits (Nat.one_le_iff_ne_zero.2 hn) (by rw [hc, hzero]; rfl)
  rw [hn, Nat.toDigits_zero] at hc
  exact ⟨hn, (List.cons.inj hc).2.symm⟩

theorem normalizeIntegerText_integerStr (i : ℤ) :
    normalizeIntegerText (integerStr i) = .ok (integerStr i) := by
  obtain ⟨c, ds, hdigits, hzero⟩ := toDigits_leading i.natAbs
  have htext : integerStr i =
      String.ofList ((if decide (i < 0) then ['-'] else []) ++ c :: ds) := by
    rw [integerStr, dumpsInt_eq, hdigits]
    simp only [decide_eq_true_eq]
  have hdigit : ∀ x ∈ c :: ds, x.isDigit = true := fun x hx =>
    isDigit_toDigits x (by rwa [hdigits])
  have hne : integerStr i ≠ "-0" := by
    intro h
    rw [htext] at h
    have h := String.ofList_injective (h.trans (rfl : "-0" = String.ofList ['-', '0']))
    by_cases hi : i < 0
    · rw [if_pos (by simpa using hi)] at h
      have hc : c = '0' := (List.cons.inj (List.cons.inj h).2).1
      have := (hzero hc).1
      omega
    · rw [if_neg (by simpa using hi)] at h
      have hc : c = '-' := (List.cons.inj h).1
      exact absurd (hdigit c List.mem_cons_self) (by rw [hc]; decide)
  rw [normalizeIntegerText, if_neg hne, if_pos]
  rw [htext]
  exact integerText_of_digits hdigit fun hc => (hzero hc).2

/-- **An accepted integer text is accepted again.** -/
theorem normalizeIntegerText_again {s t : String} (h : normalizeIntegerText s = .ok t) :
    normalizeIntegerText t = .ok t := by
  unfold normalizeIntegerText at h
  split_ifs at h with hs h0
  · cases h
    rfl
  · cases h
    rw [normalizeIntegerText, if_pos hs, if_neg h0]
  · cases h

/-! ## Decimals -/

theorem length_toDigits_mul_pow {c : ℕ} (hc : c ≠ 0) (e : ℕ) :
    (Nat.toDigits 10 (c * 10 ^ e)).length = (Nat.toDigits 10 c).length + e := by
  rw [← toDigits_mul_pow hc, List.length_append, List.length_replicate]

/-- The digits of a number before and after its point. -/
def DecimalParameters.Fits (params : DecimalParameters) (d : PyDecimal) : Prop :=
  max 0 (-d.exponent) ≤ params.scale ∧
    (d.coefficient ≠ 0 → max 0 ((Nat.toDigits 10 d.coefficient).length + d.exponent) ≤
      (params.precision - params.scale : ℤ))

theorem normalizeDecimal_ok {params : DecimalParameters} {d : PyDecimal} {t : String} :
    normalizeDecimal params d = .ok t ↔ params.Fits d ∧
      t = if d.coefficient = 0 then "0" else String.ofList (stripFraction d.format) := by
  have hscale := params.bounds.2.2
  rw [normalizeDecimal]
  by_cases hc : d.coefficient = 0
  · rw [if_neg (not_not.2 hc), if_pos hc]
    split_ifs with hrange
    · simp only [refuse, reduceCtorEq, false_iff, not_and]
      intro hfits
      have := hfits.1
      omega
    · rw [Except.ok.injEq, eq_comm (a := "0"), iff_and_self]
      exact fun _ => ⟨by omega, fun h => absurd hc h⟩
  · rw [if_pos hc, if_neg hc, if_neg hc]
    split_ifs with hrange
    · simp only [refuse, reduceCtorEq, false_iff, not_and]
      intro hfits
      have h1 := hfits.1
      have h2 := hfits.2 hc
      omega
    · rw [Except.ok.injEq, eq_comm (b := t), iff_and_self]
      exact fun _ => ⟨by omega, fun _ => by omega⟩

theorem abs_value (d : PyDecimal) : |d.value| = d.coefficient * (10 : ℚ) ^ d.exponent := by
  have hpos : (0 : ℚ) ≤ d.coefficient * (10 : ℚ) ^ d.exponent := by positivity
  rw [PyDecimal.value, mul_assoc, abs_mul, abs_of_nonneg hpos]
  split_ifs <;> simp

/-- The fraction of a reduced form is no longer, and its digits before the
    point are as many. -/
theorem reduced_digits {c k m : ℕ} {e : ℤ} (hm : m ≠ 0) (hr : k = 0 ∨ c % 10 ≠ 0)
    (h : (c : ℚ) * 10 ^ (-k : ℤ) = m * (10 : ℚ) ^ e) : (k : ℤ) ≤ max 0 (-e) ∧
      ((Nat.toDigits 10 c).length : ℤ) - k = (Nat.toDigits 10 m).length + e := by
  have hten : (10 : ℚ) ≠ 0 := by norm_num
  by_cases he : 0 ≤ e
  · obtain ⟨e, rfl⟩ := Int.eq_ofNat_of_zero_le he
    have hc : c = m * 10 ^ (e + k) := by
      rw [zpow_neg, mul_inv_eq_iff_eq_mul₀ (zpow_ne_zero _ hten), mul_assoc, ← zpow_add₀ hten] at h
      exact_mod_cast h
    have hk : k = 0 := by
      cases k with
      | zero => rfl
      | succ k =>
        refine absurd ?_ (hr.resolve_left (Nat.succ_ne_zero k))
        rw [hc, ← add_assoc, pow_succ, ← mul_assoc, Nat.mul_mod_left]
    subst hk
    rw [hc, length_toDigits_mul_pow hm]
    constructor
    · simp
    · push_cast
      omega
  · obtain ⟨K, rfl⟩ : ∃ K : ℕ, e = -K := ⟨(-e).toNat, by omega⟩
    have hc : c * 10 ^ K = m * 10 ^ k := by
      rw [zpow_neg, zpow_neg, mul_inv_eq_iff_eq_mul₀ (zpow_ne_zero _ hten), mul_right_comm,
        ← div_eq_mul_inv, eq_div_iff (zpow_ne_zero _ hten)] at h
      exact_mod_cast h
    have hk : k ≤ K := by
      by_contra hlt
      obtain ⟨j, rfl⟩ := Nat.exists_eq_add_of_lt (not_le.1 hlt)
      have hc' : c = m * 10 ^ j * 10 := by
        refine Nat.eq_of_mul_eq_mul_right (show 0 < 10 ^ K by positivity) (hc.trans ?_)
        rw [add_assoc, pow_add, pow_succ]
        ring
      refine (hr.resolve_left (by omega)) ?_
      rw [hc', Nat.mul_mod_left]
    obtain ⟨j, rfl⟩ := Nat.exists_eq_add_of_le hk
    have hm' : m = c * 10 ^ j := by
      refine Nat.eq_of_mul_eq_mul_right (show 0 < 10 ^ k by positivity) (hc.symm.trans ?_)
      rw [pow_add]
      ring
    have hc0 : c ≠ 0 := by
      rintro rfl
      exact hm (by rw [hm', zero_mul])
    rw [hm', length_toDigits_mul_pow hc0]
    constructor
    · omega
    · push_cast
      omega

/-- The reduced form of a number fits where the number does. -/
theorem DecimalParameters.Fits.reduced {params : DecimalParameters} {d : PyDecimal}
    (h : params.Fits d) {n : Bool} {c k : ℕ} (hr : Reduced n c k) (hv : (fixedPoint n c k).value = d.value) :
    params.Fits (fixedPoint n c k) := by
  have habs := congrArg abs hv
  rw [abs_value, abs_value] at habs
  by_cases hd : d.coefficient = 0
  · have hc : c = 0 := by
      rw [hd, Nat.cast_zero, zero_mul] at habs
      have := (mul_eq_zero.1 habs).resolve_right (zpow_ne_zero _ (by norm_num))
      exact_mod_cast this
    have hk : k = 0 := hr.1.resolve_right (by rw [hc]; decide)
    subst hc hk
    exact ⟨by simp [fixedPoint], fun h => absurd rfl h⟩
  · obtain ⟨h1, h2⟩ := reduced_digits hd hr.1 habs
    have hscale := h.1
    have hwhole := h.2 hd
    refine ⟨?_, fun _ => ?_⟩
    · change max 0 (- -(k : ℤ)) ≤ _
      omega
    · change max 0 ((Nat.toDigits 10 c).length + -(k : ℤ)) ≤ _
      omega

/-- **The text of a decimal is read as the decimal that is written so.** -/
theorem normalizeDecimal_again {params : DecimalParameters} {d : PyDecimal} {t : String}
    (h : normalizeDecimal params d = .ok t) :
    ∃ d', PyDecimal.ofText? t = some d' ∧ normalizeDecimal params d' = .ok t := by
  obtain ⟨n, c, k, hr, hv, rfl⟩ := normalizeDecimal_spec h
  refine ⟨fixedPoint n c k, ofText_decimalText n c k, ?_⟩
  rw [normalizeDecimal_ok]
  refine ⟨(normalizeDecimal_ok.1 h).1.reduced hr hv, ?_⟩
  split_ifs with hc
  · change c = 0 at hc
    rw [hr.2 hc, hc, hr.1.resolve_right (by rw [hc]; decide)]
    rfl
  · exact (writesDecimal_format hc).text_unique ⟨n, c, k, hr, rfl, rfl⟩ |>.symm

/-! ## Dates and timestamps -/

theorem pad_two (n : ℕ) : ∃ a b, pad 2 n = [a, b] := ⟨_, _, rfl⟩

theorem dateFromIsoformat_isoDate {d : Calendar.Day} (h : d.Valid) :
    dateFromIsoformat (isoDate d) = some ⟨d, h⟩ := by
  obtain ⟨hy, hm, hd⟩ := Calendar.Day.Valid.lt h
  obtain ⟨y₁, y₂, y₃, y₄, hyear⟩ : ∃ a b c e, pad 4 d.year = [a, b, c, e] := ⟨_, _, _, _, rfl⟩
  obtain ⟨m₁, m₂, hmonth⟩ := pad_two d.month
  obtain ⟨d₁, d₂, hday⟩ := pad_two d.day
  have hall : [y₁, y₂, y₃, y₄, m₁, m₂, d₁, d₂].all Char.isDigit = true := by
    refine List.all_eq_true.2 fun c hc => ?_
    have hc : c ∈ pad 4 d.year ++ pad 2 d.month ++ pad 2 d.day := by
      rw [hyear, hmonth, hday]
      exact hc
    rw [List.mem_append, List.mem_append] at hc
    rcases hc with (hc | hc) | hc <;> exact isDigit_pad c hc
  have hvalue : (⟨value [y₁, y₂, y₃, y₄], value [m₁, m₂], value [d₁, d₂]⟩ : Calendar.Day) = d := by
    rw [← hyear, ← hmonth, ← hday, value_pad hy, value_pad hm, value_pad hd]
  have htext : isoDate d = [y₁, y₂, y₃, y₄, '-', m₁, m₂, '-', d₁, d₂] := by
    rw [isoDate, hyear, hmonth, hday]
    rfl
  rw [htext, dateFromIsoformat, if_pos hall, hvalue, dif_pos h]

theorem clockFromIsoformat_isoClock {t : ℕ} (h : t < 86400) :
    clockFromIsoformat (isoClock t) = some t := by
  obtain ⟨h₁, h₂, hhour⟩ := pad_two (t / 3600)
  obtain ⟨m₁, m₂, hminute⟩ := pad_two (t / 60 % 60)
  obtain ⟨s₁, s₂, hsecond⟩ := pad_two (t % 60)
  have hall : [h₁, h₂, m₁, m₂, s₁, s₂].all Char.isDigit = true := by
    refine List.all_eq_true.2 fun c hc => ?_
    have hc : c ∈ pad 2 (t / 3600) ++ pad 2 (t / 60 % 60) ++ pad 2 (t % 60) := by
      rw [hhour, hminute, hsecond]
      exact hc
    rw [List.mem_append, List.mem_append] at hc
    rcases hc with (hc | hc) | hc <;> exact isDigit_pad c hc
  have htext : isoClock t = [h₁, h₂, ':', m₁, m₂, ':', s₁, s₂] := by
    rw [isoClock, hhour, hminute, hsecond]
    rfl
  rw [htext, clockFromIsoformat, if_pos hall, ← hhour, ← hminute, ← hsecond,
    value_pad (by norm_num; omega), value_pad (by norm_num; omega), value_pad (by norm_num; omega),
    if_pos ⟨by omega, by omega, by omega⟩]
  congr 1
  omega

theorem dateText_isoDate (d : Calendar.Day) : dateText (isoDate d) = true := by
  obtain ⟨y₁, y₂, y₃, y₄, hyear⟩ : ∃ a b c e, pad 4 d.year = [a, b, c, e] := ⟨_, _, _, _, rfl⟩
  obtain ⟨m₁, m₂, hmonth⟩ := pad_two d.month
  obtain ⟨d₁, d₂, hday⟩ := pad_two d.day
  have htext : isoDate d = [y₁, y₂, y₃, y₄, '-', m₁, m₂, '-', d₁, d₂] := by
    rw [isoDate, hyear, hmonth, hday]
    rfl
  rw [htext]
  refine List.all_eq_true.2 fun c hc => isDecimal_of_isDigit ?_
  have hc : c ∈ pad 4 d.year ++ pad 2 d.month ++ pad 2 d.day := by
    rw [hyear, hmonth, hday]
    exact hc
  rw [List.mem_append, List.mem_append] at hc
  rcases hc with (hc | hc) | hc
  · exact isDigit_pad c hc
  · exact isDigit_pad c hc
  · exact isDigit_pad c hc

theorem clockText_isoClock (t : ℕ) : clockText (isoClock t) = true := by
  obtain ⟨h₁, h₂, hhour⟩ := pad_two (t / 3600)
  obtain ⟨m₁, m₂, hminute⟩ := pad_two (t / 60 % 60)
  obtain ⟨s₁, s₂, hsecond⟩ := pad_two (t % 60)
  have htext : isoClock t = [h₁, h₂, ':', m₁, m₂, ':', s₁, s₂] := by
    rw [isoClock, hhour, hminute, hsecond]
    rfl
  rw [htext]
  refine List.all_eq_true.2 fun c hc => isDecimal_of_isDigit ?_
  have hc : c ∈ pad 2 (t / 3600) ++ pad 2 (t / 60 % 60) ++ pad 2 (t % 60) := by
    rw [hhour, hminute, hsecond]
    exact hc
  rw [List.mem_append, List.mem_append] at hc
  rcases hc with (hc | hc) | hc
  · exact isDigit_pad c hc
  · exact isDigit_pad c hc
  · exact isDigit_pad c hc

/-- **The text of a day is accepted.** -/
theorem normalizeDateText_isoDate {d : Calendar.Day} (h : d.Valid) :
    normalizeDateText (String.ofList (isoDate d)) = .ok (String.ofList (isoDate d)) := by
  rw [normalizeDateText, String.toList_ofList, if_pos (dateText_isoDate d),
    dateFromIsoformat_isoDate h]

/-- The digits that the suffix of a fraction shows. -/
def shownFraction (p : ℕ) (fr : List Char) : List Char :=
  fr.take p ++ List.replicate (p - (fr.take p).length) '0'

theorem length_shownFraction (p : ℕ) (fr : List Char) : (shownFraction p fr).length = p := by
  have : (fr.take p).length ≤ p := by simp
  rw [shownFraction, List.length_append, List.length_replicate]
  omega

theorem fractionSuffix_shown (p : ℕ) (fr : List Char) :
    fractionSuffix p (shownFraction p fr) = fractionSuffix p fr := by
  have htake : (shownFraction p fr).take p = shownFraction p fr :=
    List.take_of_length_le (length_shownFraction p fr).le
  rw [fractionSuffix, fractionSuffix, htake, length_shownFraction, Nat.sub_self]
  split_ifs with hp
  · rfl
  · rw [List.replicate_zero, List.append_nil]
    rfl

theorem isDecimal_shownFraction {p : ℕ} {fr : List Char} (h : ∀ c ∈ fr, isDecimal c = true) :
    ∀ c ∈ shownFraction p fr, isDecimal c = true := by
  intro c hc
  rcases List.mem_append.1 hc with hc | hc
  · exact h c (List.mem_of_mem_take hc)
  · rw [List.eq_of_mem_replicate hc]
    decide

/-- The groups of the fraction that is written. -/
theorem fractionGroup_suffix {p : ℕ} {fr : List Char} (hp : p ≤ 9)
    (h : ∀ c ∈ fr, isDecimal c = true) : fractionGroup (fractionSuffix p fr ++ ['Z']) =
      some (if p = 0 then none else some (shownFraction p fr), some ['Z']) := by
  rw [fractionSuffix]
  by_cases hzero : p = 0
  · rw [if_pos hzero, if_pos hzero]
    rfl
  · rw [if_neg hzero, if_neg hzero]
    have hall := isDecimal_shownFraction (p := p) h
    change fractionGroup ('.' :: (shownFraction p fr ++ ['Z'])) = _
    have hnot : isDecimal 'Z' = false := by decide
    have htake : (shownFraction p fr ++ ['Z']).takeWhile isDecimal = shownFraction p fr := by
      rw [List.takeWhile_append_of_pos hall, List.takeWhile_cons_of_neg (by simp [hnot]),
        List.append_nil]
    have hdrop : (shownFraction p fr ++ ['Z']).dropWhile isDecimal = ['Z'] := by
      rw [List.dropWhile_append_of_pos hall, List.dropWhile_cons_of_neg (by simp [hnot])]
    rw [fractionGroup]
    simp only [htake, hdrop, length_shownFraction]
    rw [if_pos ⟨by omega, hp⟩]
    rfl

/-- The text of a second of UTC with a fraction. -/
def utcText (d : Calendar.Day) (t p : ℕ) (fr : List Char) : List Char :=
  isoDate d ++ 'T' :: (isoClock t ++ (fractionSuffix p fr ++ ['Z']))

theorem matchTimestamp_utcText {d : Calendar.Day} {t p : ℕ} {fr : List Char} (hp : p ≤ 9)
    (h : ∀ c ∈ fr, isDecimal c = true) : matchTimestamp (utcText d t p fr) =
      some ⟨isoDate d, isoClock t, if p = 0 then none else some (shownFraction p fr),
        some ['Z']⟩ := by
  rw [matchTimestamp, utcText, List.drop_left' (isoDate_length d)]
  simp only
  rw [List.take_left' (isoDate_length d), List.take_left' (isoClock_length t),
    List.drop_left' (isoClock_length t), if_pos ⟨dateText_isoDate d, Or.inl trivial, clockText_isoClock t⟩,
    fractionGroup_suffix hp h]
  rfl

theorem shiftDay_none {d : Calendar.Day} (hd : d.Valid) {t : ℕ} (ht : t < 86400) :
    shiftDay d t = some (d, t) := by
  obtain ⟨hy, hy', -⟩ := hd
  rw [shiftDay, if_neg (by omega), if_neg (by omega)]
  simp only
  rw [if_pos ⟨hy, hy'⟩, Int.toNat_natCast]

theorem normalizeTimestamp_utcText {d : Calendar.Day} (hd : d.Valid) {t p : ℕ} (ht : t < 86400)
    (hp : p ≤ 9) {fr : List Char} (h : ∀ c ∈ fr, isDecimal c = true) (offset : Option String) :
    normalizeTimestamp (String.ofList (utcText d t p fr)) p offset =
      .ok (String.ofList (utcText d t p fr)) := by
  have hshown : (if p = 0 then none else some (shownFraction p fr)).getD [] =
      if p = 0 then [] else shownFraction p fr := by split_ifs <;> rfl
  have hlength : ((if p = 0 then [] else shownFraction p fr).rdropWhile (· = '0')).length ≤ p := by
    refine le_trans (List.rdropWhile_prefix _ _).length_le ?_
    split_ifs
    · simp
    · rw [length_shownFraction]
  have hsuffix : fractionSuffix p (if p = 0 then [] else shownFraction p fr) =
      fractionSuffix p fr := by
    split_ifs with hzero
    · rw [fractionSuffix, fractionSuffix, if_pos hzero, if_pos hzero]
    · exact fractionSuffix_shown p fr
  rw [normalizeTimestamp, String.toList_ofList, matchTimestamp_utcText hp h]
  simp only [Option.some_or]
  rw [if_neg (by decide), hshown, if_neg (not_lt.2 hlength), dateFromIsoformat_isoDate hd,
    clockFromIsoformat_isoClock ht]
  simp only
  rw [show ((t : ℤ) - zoneMinutes ['Z'] * 60) = (t : ℤ) by simp [zoneMinutes], shiftDay_none hd ht,
    hsuffix]
  rfl

/-- **An accepted timestamp is accepted again**, whatever the zone of the
    source. -/
theorem normalizeTimestamp_again {s t : String} {p : ℕ} {offset offset' : Option String}
    (hp : p ≤ 9) (h : normalizeTimestamp s p offset = .ok t) :
    normalizeTimestamp t p offset' = .ok t := by
  unfold normalizeTimestamp at h
  split at h
  · cases h
  rename_i groups hgroups
  split at h
  · cases h
  rename_i zone hzone
  split_ifs at h with hoff
  · cases h
  simp only at h
  split_ifs at h with hprec
  · cases h
  split at h
  · rename_i day clock hday hclock
    split at h
    · rename_i d u hshift
      cases h
      obtain ⟨hz1, hz2⟩ := zoneMinutes_bound (by simpa using hoff)
      have hclock' := clockFromIsoformat_lt hclock
      obtain ⟨hd, hu, -⟩ := shiftDay_spec day.2 (by omega) (by omega) hshift
      exact normalizeTimestamp_utcText hd hu hp (matchTimestamp_fraction hgroups).2 offset'
    · cases h
  · cases h

/-! ## Scalars -/

theorem stringValue_again {nfc : String → String} (hnfc : ∀ s, nfc (nfc s) = nfc s) {v : PyValue}
    {j : Json} (h : stringValue nfc v = .ok j) :
    ∃ s, j = .str s ∧ stringValue nfc (.str s) = .ok j := by
  cases v with
  | str s =>
    cases h
    exact ⟨nfc s, rfl, by rw [stringValue, hnfc]⟩
  | _ => cases h

theorem booleanValue_again {text : Bool} {v : PyValue} {j : Json} (h : booleanValue text v = .ok j) :
    ∃ b, j = .bool b ∧ booleanValue false (.bool b) = .ok j := by
  cases v with
  | bool b =>
    cases h
    exact ⟨b, rfl, rfl⟩
  | str s =>
    by_cases hs : text = true ∧ s ∈ ["true", "false"]
    · rw [booleanValue, if_pos hs] at h
      cases h
      exact ⟨_, rfl, rfl⟩
    · rw [booleanValue, if_neg hs] at h
      cases h
  | list l => cases text <;> cases h
  | dict l => cases text <;> cases h
  | _ => cases h

theorem signedIntegerValue_again {v : PyValue} {j : Json} (h : signedIntegerValue v = .ok j) :
    ∃ s, j = .str s ∧ signedIntegerValue (.str s) = .ok j := by
  cases v with
  | int i =>
    obtain ⟨t, ht, h⟩ := Except.bind_eq_ok.1 h
    cases h
    refine ⟨t, rfl, ?_⟩
    rw [normalizeInteger_spec ht, signedIntegerValue, normalizeIntegerText_integerStr]
    rfl
  | str s =>
    obtain ⟨t, ht, h⟩ := Except.bind_eq_ok.1 h
    cases h
    refine ⟨t, rfl, ?_⟩
    rw [signedIntegerValue, normalizeIntegerText_again ht]
    rfl
  | _ => cases h

theorem decimalValue_again {params : DecimalParameters} {v : PyValue} {j : Json}
    (h : decimalValue params v = .ok j) :
    ∃ s, j = .str s ∧ decimalValue params (.str s) = .ok j := by
  unfold decimalValue at h
  split at h
  · obtain ⟨t, ht, h⟩ := Except.bind_eq_ok.1 h
    cases h
    obtain ⟨d, hd, hagain⟩ := normalizeDecimal_again ht
    refine ⟨t, rfl, ?_⟩
    rw [decimalValue, decimalOf, hd]
    simp only
    rw [hagain]
    rfl
  · cases h

theorem dateValue_again {v : PyValue} {j : Json} (h : dateValue v = .ok j) :
    ∃ s, j = .str s ∧ dateValue (.str s) = .ok j := by
  have hiso : ∀ d : Date, dateValue (.str (String.ofList (isoDate d.1))) =
      .ok (.str (String.ofList (isoDate d.1))) := fun d => by
    rw [dateValue, normalizeDateText_isoDate d.2]
    rfl
  cases v with
  | date d =>
    cases h
    exact ⟨_, rfl, hiso d⟩
  | str s =>
    obtain ⟨t, ht, h⟩ := Except.bind_eq_ok.1 h
    cases h
    obtain ⟨d, -, rfl⟩ := normalizeDateText_spec ht
    exact ⟨_, rfl, hiso d⟩
  | _ => cases h

theorem timestampValue_again {p : Fin 10} {offset offset' : Option String} {v : PyValue} {j : Json}
    (h : timestampValue p offset v = .ok j) :
    ∃ s, j = .str s ∧ timestampValue p offset' (.str s) = .ok j := by
  unfold timestampValue at h
  split at h
  · obtain ⟨t, ht, h⟩ := Except.bind_eq_ok.1 h
    cases h
    refine ⟨t, rfl, ?_⟩
    rw [timestampValue, timestampOf]
    simp only
    rw [normalizeTimestamp_again (Nat.lt_succ_iff.1 p.2) ht]
    rfl
  · cases h

end AimData
