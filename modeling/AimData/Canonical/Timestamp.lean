/-
  Dates and timestamps as `CanonicalSchema._value` writes them.

  `normalizeTimestamp` reads a timestamp by a regular expression whose digits
  may be of any script, moves it to UTC and writes the day and the clock anew.
  The fraction it copies, so the text is the one text of the instant exactly
  when the digits of the fraction are ASCII (`normalizeTimestamp_spec`).
-/
import AimData.Canonical.Number
import AimData.Lib.Calendar

namespace AimData

open Numeral

/-- A `datetime.date`. -/
def Date : Type := { d : Calendar.Day // d.Valid }

/-! ## Texts of days and clocks -/

/-- `date.isoformat` -/
def isoDate (d : Calendar.Day) : List Char :=
  pad 4 d.year ++ '-' :: (pad 2 d.month ++ '-' :: pad 2 d.day)

/-- The clock of a second of the day. -/
def isoClock (t : ℕ) : List Char :=
  pad 2 (t / 3600) ++ ':' :: (pad 2 (t / 60 % 60) ++ ':' :: pad 2 (t % 60))

/-- `re.fullmatch(r"\d{4}-\d{2}-\d{2}", value)` -/
def dateText (s : List Char) : Bool :=
  match s with
  | [y₁, y₂, y₃, y₄, '-', m₁, m₂, '-', d₁, d₂] => [y₁, y₂, y₃, y₄, m₁, m₂, d₁, d₂].all isDecimal
  | _ => false

/-- `re.fullmatch(r"\d{2}:\d{2}:\d{2}", value)` -/
def clockText (s : List Char) : Bool :=
  match s with
  | [h₁, h₂, ':', m₁, m₂, ':', s₁, s₂] => [h₁, h₂, m₁, m₂, s₁, s₂].all isDecimal
  | _ => false

/-- `date.fromisoformat` of a text that `dateText` admits: its digits are
    ASCII and the day exists. -/
def dateFromIsoformat (s : List Char) : Option Date :=
  match s with
  | [y₁, y₂, y₃, y₄, '-', m₁, m₂, '-', d₁, d₂] =>
    if [y₁, y₂, y₃, y₄, m₁, m₂, d₁, d₂].all Char.isDigit then
      let d : Calendar.Day := ⟨value [y₁, y₂, y₃, y₄], value [m₁, m₂], value [d₁, d₂]⟩
      if h : d.Valid then some ⟨d, h⟩ else none
    else none
  | _ => none

/-- The second of the day of a clock, as `datetime.fromisoformat` reads it. -/
def clockFromIsoformat (s : List Char) : Option ℕ :=
  match s with
  | [h₁, h₂, ':', m₁, m₂, ':', s₁, s₂] =>
    if [h₁, h₂, m₁, m₂, s₁, s₂].all Char.isDigit then
      if value [h₁, h₂] < 24 ∧ value [m₁, m₂] < 60 ∧ value [s₁, s₂] < 60 then
        some (value [h₁, h₂] * 3600 + value [m₁, m₂] * 60 + value [s₁, s₂])
      else none
    else none
  | _ => none

/-! ## Dates -/

def normalizeDateText (s : String) : Except CommitmentValidationError String :=
  if dateText s.toList then
    match dateFromIsoformat s.toList with
    | some d => .ok (String.ofList (isoDate d.1))
    | none => refuse "invalid_date"
  else refuse "invalid_date"

/-! ## Timestamps -/

/-- `valid_offset` of a string. -/
def validOffset (s : List Char) : Bool :=
  s = ['Z'] ||
    match s with
    | [sg, h₁, h₂, ':', m₁, m₂] =>
      (sg = '+' ∨ sg = '-') ∧
        (((h₁ = '0' ∨ h₁ = '1') ∧ isDecimal h₂ = true) ∨ (h₁ = '2' ∧ '0' ≤ h₂ ∧ h₂ ≤ '3')) ∧
        ('0' ≤ m₁ ∧ m₁ ≤ '5') ∧ isDecimal m₂ = true
    | _ => false

/-- The groups of the timestamp expression. -/
structure TimestampMatch where
  day : List Char
  clock : List Char
  fraction : Option (List Char)
  zone : Option (List Char)

/-- `(Z|[+-]\d{2}:\d{2})?` to the end. -/
def zoneGroup (s : List Char) : Option (Option (List Char)) :=
  match s with
  | [] => some none
  | ['Z'] => some (some ['Z'])
  | [sg, h₁, h₂, ':', m₁, m₂] =>
    if (sg = '+' ∨ sg = '-') ∧ [h₁, h₂, m₁, m₂].all isDecimal then some (some s) else none
  | _ => none

/-- `(?:\.(\d{1,9}))?(Z|[+-]\d{2}:\d{2})?` to the end: a digit starts no zone,
    so the fraction takes all digits there are. -/
def fractionGroup (s : List Char) : Option (Option (List Char) × Option (List Char)) :=
  match s with
  | '.' :: cs =>
    let fraction := cs.takeWhile isDecimal
    if 1 ≤ fraction.length ∧ fraction.length ≤ 9 then do
      return (some fraction, ← zoneGroup (cs.dropWhile isDecimal))
    else none
  | cs => do return (none, ← zoneGroup cs)

def matchTimestamp (s : List Char) : Option TimestampMatch :=
  match s.drop 10 with
  | sep :: rest =>
    if dateText (s.take 10) ∧ (sep = 'T' ∨ sep = ' ') ∧ clockText (rest.take 8) then do
      let (fraction, zone) ← fractionGroup (rest.drop 8)
      return ⟨s.take 10, rest.take 8, fraction, zone⟩
    else none
  | [] => none

/-- The minutes of a zone east of UTC. -/
def zoneMinutes (zone : List Char) : ℤ :=
  match zone with
  | [sg, h₁, h₂, _, m₁, m₂] =>
    let delta : ℤ := value [h₁, h₂] * 60 + value [m₁, m₂]
    if sg = '+' then delta else -delta
  | _ => 0

/-- A day and a second that may lie in the day before or after it, as
    `datetime` arithmetic leaves them. -/
def shiftDay (d : Calendar.Day) (t : ℤ) : Option (Calendar.Day × ℕ) :=
  let (d, t) :=
    if t < 0 then (d.prev, t + 86400) else if 86400 ≤ t then (d.next, t - 86400) else (d, t)
  if 1 ≤ d.year ∧ d.year ≤ 9999 then some (d, t.toNat) else none

/-- `"." + fraction[:precision].ljust(precision, "0") if precision else ""` -/
def fractionSuffix (precision : ℕ) (fraction : List Char) : List Char :=
  if precision = 0 then []
  else
    '.' :: (fraction.take precision ++
      List.replicate (precision - (fraction.take precision).length) '0')

def normalizeTimestamp (value : String) (precision : ℕ) (offset : Option String) :
    Except CommitmentValidationError String :=
  match matchTimestamp value.toList with
  | none => refuse "invalid_timestamp"
  | some groups =>
    match groups.zone.or (offset.map String.toList) with
    | none => refuse "timestamp_timezone_required"
    | some zone =>
      if validOffset zone = false then refuse "timestamp_timezone_required"
      else
        let fraction := groups.fraction.getD []
        if precision < (fraction.rdropWhile (· = '0')).length then refuse "timestamp_precision_loss"
        else
          match dateFromIsoformat groups.day, clockFromIsoformat groups.clock with
          | some day, some clock =>
            match shiftDay day.1 (clock - zoneMinutes zone * 60) with
            | some (d, t) =>
              .ok (String.ofList
                (isoDate d ++ 'T' :: (isoClock t ++ (fractionSuffix precision fraction ++ ['Z']))))
            | none => refuse "invalid_timestamp"
          | _, _ => refuse "invalid_timestamp"

/-! ## Instants -/

/-- The nanosecond of a second and its fraction of `w` digits, counted from the
    day before the calendar's first. -/
def instant (d : Calendar.Day) (t : ℤ) (w f : ℕ) : ℤ :=
  ((d.ordinal * 86400 + t) * 10 ^ 9 + f * 10 ^ (9 - w) : ℤ)

/-- The instant a timestamp text denotes, `offset` being its zone where it
    names none. -/
def timestampInstant (offset : Option String) (s : String) : Option ℤ := do
  let groups ← matchTimestamp s.toList
  let zone ← groups.zone.or (offset.map String.toList)
  let day ← dateFromIsoformat groups.day
  let clock ← clockFromIsoformat groups.clock
  let fraction := groups.fraction.getD []
  return instant day.1 (clock - zoneMinutes zone * 60) fraction.length (value fraction)

/-- The digits of the fraction of a timestamp text. -/
def timestampFraction (s : String) : List Char :=
  ((matchTimestamp s.toList).bind TimestampMatch.fraction).getD []

/-- The text of an instant of UTC with `precision` digits of its second. -/
def timestampText (d : Calendar.Day) (t precision f : ℕ) : List Char :=
  isoDate d ++ 'T' :: (isoClock t ++
    ((if precision = 0 then [] else '.' :: pad precision f) ++ ['Z']))

/-- The one text of an instant. -/
def WritesInstant (precision : ℕ) (ns : ℤ) (s : String) : Prop :=
  ∃ (d : Calendar.Day) (t f : ℕ), d.Valid ∧ t < 86400 ∧ f < 10 ^ precision ∧ instant d t precision f = ns ∧
    s = String.ofList (timestampText d t precision f)

/-! ## The texts determine what they write -/

theorem isoDate_length (d : Calendar.Day) : (isoDate d).length = 10 := by
  simp [isoDate]

theorem isoClock_length (t : ℕ) : (isoClock t).length = 8 := by
  simp [isoClock]

theorem pad_cons_inj {w n m : ℕ} {x : Char} {r r' : List Char} (hn : n < 10 ^ w) (hm : m < 10 ^ w)
    (h : pad w n ++ x :: r = pad w m ++ x :: r') : n = m ∧ r = r' := by
  obtain ⟨h1, h2⟩ := List.append_inj h (by simp)
  exact ⟨pad_inj hn hm h1, (List.cons.inj h2).2⟩

theorem Calendar.Day.Valid.lt {d : Calendar.Day} (h : d.Valid) :
    d.year < 10 ^ 4 ∧ d.month < 10 ^ 2 ∧ d.day < 10 ^ 2 := by
  obtain ⟨-, h1, -, h2, -, h3⟩ := h
  have := Calendar.daysInMonth_le d.year d.month
  norm_num
  omega

theorem isoDate_inj {d e : Calendar.Day} (hd : d.Valid) (he : e.Valid)
    (h : isoDate d = isoDate e) : d = e := by
  obtain ⟨hd1, hd2, hd3⟩ := Calendar.Day.Valid.lt hd
  obtain ⟨he1, he2, he3⟩ := Calendar.Day.Valid.lt he
  obtain ⟨h1, h⟩ := pad_cons_inj hd1 he1 h
  obtain ⟨h2, h⟩ := pad_cons_inj hd2 he2 h
  have h3 := pad_inj hd3 he3 h
  obtain ⟨y, m, n⟩ := d
  show Calendar.Day.mk y m n = e
  rw [show y = e.year from h1, show m = e.month from h2, show n = e.day from h3]

theorem isoClock_inj {t u : ℕ} (ht : t < 86400) (hu : u < 86400) (h : isoClock t = isoClock u) :
    t = u := by
  obtain ⟨h1, h⟩ := pad_cons_inj (by norm_num; omega) (by norm_num; omega) h
  obtain ⟨h2, h⟩ := pad_cons_inj (by norm_num; omega) (by norm_num; omega) h
  have h3 := pad_inj (w := 2) (by norm_num; omega) (by norm_num; omega) h
  omega

/-- The suffix of a timestamp determines its fraction. -/
theorem fraction_inj {p f g : ℕ} (hf : f < 10 ^ p) (hg : g < 10 ^ p)
    (h : (if p = 0 then [] else '.' :: pad p f) = if p = 0 then [] else '.' :: pad p g) : f = g := by
  by_cases hp : p = 0
  · rw [hp, pow_zero] at hf hg
    omega
  · rw [if_neg hp, if_neg hp] at h
    exact pad_inj hf hg (List.cons.inj h).2

theorem timestampText_inj {d e : Calendar.Day} {t u p f g : ℕ} (hd : d.Valid) (he : e.Valid)
    (ht : t < 86400) (hu : u < 86400) (hf : f < 10 ^ p) (hg : g < 10 ^ p)
    (h : timestampText d t p f = timestampText e u p g) : d = e ∧ t = u ∧ f = g := by
  obtain ⟨hday, h⟩ := List.append_inj h (by rw [isoDate_length, isoDate_length])
  obtain ⟨hclock, h⟩ := List.append_inj (List.cons.inj h).2 (by rw [isoClock_length, isoClock_length])
  exact ⟨isoDate_inj hd he hday, isoClock_inj ht hu hclock,
    fraction_inj hf hg (List.append_cancel_right h)⟩

/-- **An instant has one day, clock and fraction.** -/
theorem instant_inj {d e : Calendar.Day} {t u p f g : ℕ} (hd : d.Valid) (he : e.Valid)
    (ht : t < 86400) (hu : u < 86400) (hf : f < 10 ^ p) (hg : g < 10 ^ p) (hp : p ≤ 9)
    (h : instant d t p f = instant e u p g) : d = e ∧ t = u ∧ f = g := by
  have hnano : ∀ {f : ℕ}, f < 10 ^ p → f * 10 ^ (9 - p) < 10 ^ 9 := by
    intro f hf
    calc f * 10 ^ (9 - p) < 10 ^ p * 10 ^ (9 - p) := Nat.mul_lt_mul_of_pos_right hf (by positivity)
      _ = 10 ^ 9 := by rw [← pow_add, Nat.add_sub_cancel' hp]
  have h1 := hnano hf
  have h2 := hnano hg
  have h' : (d.ordinal * 86400 + t) * 10 ^ 9 + f * 10 ^ (9 - p)
      = (e.ordinal * 86400 + u) * 10 ^ 9 + g * 10 ^ (9 - p) := by
    unfold instant at h
    exact_mod_cast h
  have hns : f * 10 ^ (9 - p) = g * 10 ^ (9 - p) := by omega
  have hday : d.ordinal = e.ordinal := by omega
  exact ⟨Calendar.ordinal_inj hd he hday, by omega,
    Nat.eq_of_mul_eq_mul_right (by positivity) hns⟩

theorem WritesInstant.text_unique {p : ℕ} {ns : ℤ} {s s' : String} (hp : p ≤ 9)
    (h : WritesInstant p ns s) (h' : WritesInstant p ns s') : s = s' := by
  obtain ⟨d, t, f, hd, ht, hf, hns, rfl⟩ := h
  obtain ⟨e, u, g, he, hu, hg, hns', rfl⟩ := h'
  obtain ⟨rfl, rfl, rfl⟩ := instant_inj hd he ht hu hf hg hp (hns.trans hns'.symm)
  rfl

theorem WritesInstant.instant_unique {p : ℕ} {ns ns' : ℤ} {s : String}
    (h : WritesInstant p ns s) (h' : WritesInstant p ns' s) : ns = ns' := by
  obtain ⟨d, t, f, hd, ht, hf, rfl, rfl⟩ := h
  obtain ⟨e, u, g, he, hu, hg, rfl, hs⟩ := h'
  obtain ⟨rfl, rfl, rfl⟩ := timestampText_inj hd he ht hu hf hg (String.ofList_injective hs)
  rfl

/-! ## The normalizers -/

/-- **An accepted date text is the text of its day.** -/
theorem normalizeDateText_spec {s t : String} (h : normalizeDateText s = .ok t) :
    ∃ d, dateFromIsoformat s.toList = some d ∧ t = String.ofList (isoDate d.1) := by
  unfold normalizeDateText at h
  split_ifs at h
  · split at h
    · rename_i d hd
      cases h
      exact ⟨d, hd, rfl⟩
    · cases h
  · cases h

theorem shiftDay_spec {d e : Calendar.Day} {t : ℤ} {u : ℕ} (hd : d.Valid) (h1 : -86400 ≤ t)
    (h2 : t < 2 * 86400) (h : shiftDay d t = some (e, u)) :
    e.Valid ∧ u < 86400 ∧ (e.ordinal * 86400 + u : ℤ) = d.ordinal * 86400 + t := by
  unfold shiftDay at h
  by_cases hneg : t < 0
  · rw [if_pos hneg] at h
    simp only at h
    split_ifs at h with hy
    · cases h
      have ho := Calendar.ordinal_prev hd hy.1
      exact ⟨Calendar.valid_prev hd hy.1, by omega, by omega⟩
  · rw [if_neg hneg] at h
    by_cases hbig : 86400 ≤ t
    · rw [if_pos hbig] at h
      simp only at h
      split_ifs at h with hy
      · cases h
        have ho := Calendar.ordinal_next hd
        exact ⟨Calendar.valid_next hd hy.2, by omega, by omega⟩
    · rw [if_neg hbig] at h
      simp only at h
      split_ifs at h with hy
      · cases h
        exact ⟨hd, by omega, by omega⟩

theorem clockFromIsoformat_lt {s : List Char} {t : ℕ} (h : clockFromIsoformat s = some t) :
    t < 86400 := by
  unfold clockFromIsoformat at h
  split at h
  · split_ifs at h with h1 h2
    cases h
    omega
  · cases h

theorem digit_of_ascii {c : Char} (h : c.isDigit = true) : digit c = some (c.toNat - 48) := by
  obtain ⟨d, hd, rfl⟩ := exists_of_isDigit h
  have key : ∀ d : Fin 10, digit (Nat.digitChar d) = some ((Nat.digitChar d).toNat - 48) := by
    decide
  exact key ⟨d, hd⟩

theorem value_pair (a b : Char) : value [a, b] = (digit a).getD 0 * 10 + (digit b).getD 0 := by
  simp [value]

/-- A valid zone lies less than a day from UTC. -/
theorem zoneMinutes_bound {zone : List Char} (h : validOffset zone = true) :
    -1440 < zoneMinutes zone ∧ zoneMinutes zone < 1440 := by
  unfold validOffset at h
  rcases Bool.or_eq_true_iff.1 h with hz | hz
  · rw [of_decide_eq_true hz]
    decide
  · split at hz
    · rename_i sg h₁ h₂ m₁ m₂
      rw [decide_eq_true_eq] at hz
      obtain ⟨-, hh, ⟨hm0, hm5⟩, -⟩ := hz
      have hdig : ∀ {c x : Char}, '0' ≤ c → c ≤ x → x ≤ '9' → (digit c).getD 0 ≤ x.toNat - 48 := by
        intro c x h0 hx h9
        have hc : c.isDigit = true := by
          simp only [Char.isDigit, Bool.and_eq_true, decide_eq_true_eq]
          exact ⟨h0, Char.le_def.2 (UInt32.le_trans (Char.le_def.1 hx) (Char.le_def.1 h9))⟩
        have hcx : c.toNat ≤ x.toNat := UInt32.le_iff_toNat_le.1 (Char.le_def.1 hx)
        rw [digit_of_ascii hc]
        simp only [Option.getD_some]
        omega
      have hmin : value [m₁, m₂] ≤ 59 := by
        have h5 := hdig hm0 hm5 (by decide)
        have h9 := getD_digit_lt m₂
        rw [value_pair]
        simp only [show '5'.toNat = 53 from rfl] at h5
        omega
      have hhour : value [h₁, h₂] ≤ 23 := by
        have h9 := getD_digit_lt h₂
        rw [value_pair]
        rcases hh with ⟨rfl | rfl, -⟩ | ⟨rfl, h0, h3⟩
        · have : (digit '0').getD 0 = 0 := by decide
          omega
        · have : (digit '1').getD 0 = 1 := by decide
          omega
        · have h2 : (digit '2').getD 0 = 2 := by decide
          have h3 := hdig h0 h3 (by decide)
          simp only [show '3'.toNat = 51 from rfl] at h3
          omega
      unfold zoneMinutes
      simp only
      split_ifs <;> omega
    · cases hz

/-! ## Fractions -/

theorem value_zeros : ∀ {ds : List Char}, (∀ c ∈ ds, c = '0') → value ds = 0 := by
  intro ds h
  rw [List.eq_replicate_of_mem h]
  induction ds.length with
  | zero => rfl
  | succ n ih =>
    rw [List.replicate_succ', value_append, ih, show (digit '0').getD 0 = 0 by decide]

/-- The digits past the precision are zeros. -/
theorem mem_drop_precision {p : ℕ} {fr : List Char}
    (h : (fr.rdropWhile (· = '0')).length ≤ p) : ∀ c ∈ fr.drop p, c = '0' := by
  intro c hc
  rw [← List.rdropWhile_append_rtakeWhile (p := (· = '0')) (l := fr), List.drop_append,
    List.drop_of_length_le h, List.nil_append] at hc
  have hmem := List.mem_of_mem_drop hc
  simpa using List.mem_rtakeWhile_imp hmem

/-- The numerator of a fraction at a precision. -/
def fractionValue (p : ℕ) (fr : List Char) : ℕ := value (fr.take p) * 10 ^ (p - (fr.take p).length)

theorem fractionValue_lt (p : ℕ) (fr : List Char) : fractionValue p fr < 10 ^ p := by
  have hle : (fr.take p).length ≤ p := by simp
  calc fractionValue p fr
      < 10 ^ (fr.take p).length * 10 ^ (p - (fr.take p).length) :=
        Nat.mul_lt_mul_of_pos_right (value_lt _) (by positivity)
    _ = 10 ^ p := by rw [← pow_add, Nat.add_sub_cancel' hle]

/-- Cutting a fraction at an admitted precision keeps its value. -/
theorem fractionValue_eq {p : ℕ} {fr : List Char} (hp : p ≤ 9) (hl : fr.length ≤ 9)
    (h : (fr.rdropWhile (· = '0')).length ≤ p) :
    fractionValue p fr * 10 ^ (9 - p) = value fr * 10 ^ (9 - fr.length) := by
  have hv : value fr = value (fr.take p) * 10 ^ (fr.length - p) := by
    conv_lhs => rw [← List.take_append_drop p fr]
    rw [value_append_list, value_zeros (mem_drop_precision h), List.length_drop, Nat.add_zero]
  unfold fractionValue
  rw [hv, mul_assoc, mul_assoc, ← pow_add, ← pow_add, List.length_take]
  congr 2
  omega

/-- The digits the suffix shows. -/
theorem fractionSuffix_eq_iff {p g : ℕ} {fr : List Char} (hd : ∀ c ∈ fr, isDecimal c = true)
    (h : (fr.rdropWhile (· = '0')).length ≤ p) (hg : g = fractionValue p fr) :
    (fractionSuffix p fr = if p = 0 then [] else '.' :: pad p g) ↔ Ascii fr := by
  have hzero : ∀ c ∈ fr.drop p, c.toNat < 128 := fun c hc => by
    rw [mem_drop_precision h c hc]; decide
  unfold fractionSuffix
  by_cases hp : p = 0
  · rw [if_pos hp, if_pos hp]
    refine ⟨fun _ c hc => hzero c ?_, fun _ => rfl⟩
    rw [hp]
    exact hc
  · rw [if_neg hp, if_neg hp]
    constructor
    · intro he c hc
      have he := (List.cons.inj he).2
      rw [← List.take_append_drop p fr] at hc
      rcases List.mem_append.1 hc with hc | hc
      · have : c ∈ pad p g := by
          rw [← he]
          exact List.mem_append_left _ hc
        exact toNat_lt_of_isDigit (isDigit_pad c this)
      · exact hzero c hc
    · intro ha
      have hdig : ∀ c ∈ fr.take p, c.isDigit = true := fun c hc =>
        isDigit_of_isDecimal (hd c (List.mem_of_mem_take hc)) (ha c (List.mem_of_mem_take hc))
      set k := p - (fr.take p).length with hk
      have hrep : ∀ c ∈ List.replicate k '0', c = '0' := fun c hc => List.eq_of_mem_replicate hc
      have hval : value (fr.take p ++ List.replicate k '0') = g := by
        rw [hg, value_append_list, value_zeros hrep, List.length_replicate, Nat.add_zero]
        rfl
      have hlen : (fr.take p ++ List.replicate k '0').length = p := by
        have : (fr.take p).length ≤ p := by simp
        rw [List.length_append, List.length_replicate]
        omega
      have hpadded : ∀ c ∈ fr.take p ++ List.replicate k '0', c.isDigit = true := by
        intro c hc
        rcases List.mem_append.1 hc with hc | hc
        · exact hdig c hc
        · rw [hrep c hc]; decide
      have hpad := pad_value hpadded
      rw [hlen, hval] at hpad
      rw [hpad]

theorem matchTimestamp_fraction {s : List Char} {groups : TimestampMatch}
    (h : matchTimestamp s = some groups) :
    (groups.fraction.getD []).length ≤ 9 ∧ ∀ c ∈ groups.fraction.getD [], isDecimal c = true := by
  unfold matchTimestamp at h
  split at h
  · split_ifs at h with hshape
    obtain ⟨⟨fraction, zone⟩, hf, h⟩ := Option.bind_eq_some_iff.1 h
    cases h
    unfold fractionGroup at hf
    split at hf
    · rename_i cs _
      simp only at hf
      split_ifs at hf with hlen
      obtain ⟨zone', -, hf⟩ := Option.bind_eq_some_iff.1 hf
      cases hf
      exact ⟨hlen.2, fun c hc => List.mem_takeWhile_imp hc⟩
    · obtain ⟨zone', -, hf⟩ := Option.bind_eq_some_iff.1 hf
      cases hf
      exact ⟨by simp, by simp⟩
  · cases h

/-- **An accepted timestamp text is written as the one text of its instant iff
    the digits of its fraction are ASCII.** -/
theorem normalizeTimestamp_spec {s t : String} {p : ℕ} {offset : Option String} (hp : p ≤ 9)
    (h : normalizeTimestamp s p offset = .ok t) :
    ∃ ns, timestampInstant offset s = some ns ∧
      (WritesInstant p ns t ↔ Ascii (timestampFraction s)) := by
  unfold normalizeTimestamp at h
  split at h
  · cases h
  rename_i groups hgroups
  split at h
  · cases h
  rename_i zone hzone
  split_ifs at h with hoff
  · cases h
  simp only at h
  split_ifs at h with hprec
  · cases h
  split at h
  · rename_i day clock hday hclock
    split at h
    · rename_i d u hshift
      cases h
      set fr := groups.fraction.getD [] with hfr
      obtain ⟨hl, hdec⟩ := matchTimestamp_fraction hgroups
      have hprec : (fr.rdropWhile (· = '0')).length ≤ p := not_lt.1 hprec
      obtain ⟨hz1, hz2⟩ := zoneMinutes_bound (by simpa using hoff)
      have hclock' := clockFromIsoformat_lt hclock
      obtain ⟨hd, hu, hord⟩ := shiftDay_spec day.2 (by omega) (by omega) hshift
      have hfrac : timestampFraction s = fr := by
        unfold timestampFraction
        rw [hgroups]
        rfl
      have hns : instant day.1 (clock - zoneMinutes zone * 60) fr.length (value fr)
          = instant d u p (fractionValue p fr) := by
        have hv := fractionValue_eq hp hl hprec
        unfold instant
        rw [← hord]
        congr 1
        exact_mod_cast hv.symm
      refine ⟨instant d u p (fractionValue p fr), ?_, ?_⟩
      · unfold timestampInstant
        rw [hgroups]
        simp only [Option.bind_eq_bind, Option.bind_some, hzone, hday, hclock, ← hfr, hns]
        rfl
      · rw [hfrac, ← fractionSuffix_eq_iff hdec hprec rfl]
        constructor
        · rintro ⟨e, v, g, he, hv, hg, hi, ht⟩
          obtain ⟨rfl, rfl, rfl⟩ := instant_inj he hd hv hu hg (fractionValue_lt p fr) hp hi
          have ht := List.append_cancel_left (String.ofList_injective ht)
          exact List.append_cancel_right (List.append_cancel_left (List.cons.inj ht).2)
        · intro hsuf
          refine ⟨d, u, fractionValue p fr, hd, hu, fractionValue_lt p fr, rfl, ?_⟩
          rw [hsuf]
          rfl
    · cases h
  · cases h

end AimData
