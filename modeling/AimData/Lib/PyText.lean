/-
  Blank characters of the source language's strings, stripping and replacing.
-/
import Mathlib.Data.List.TakeWhile
import Mathlib.Tactic

namespace PyText

instance chars_lawful : LawfulBEq (List Char) := inferInstance

/-- `str.isspace` of one character. -/
def isSpace (c : Char) : Bool :=
  let n := c.toNat
  (9 ≤ n ∧ n ≤ 13) ∨ (28 ≤ n ∧ n ≤ 32) ∨ n = 0x85 ∨ n = 0xA0 ∨ n = 0x1680 ∨
    (0x2000 ≤ n ∧ n ≤ 0x200A) ∨ n = 0x2028 ∨ n = 0x2029 ∨ n = 0x202F ∨ n = 0x205F ∨ n = 0x3000

/-- `s.lstrip` and `s.rstrip` of the characters that satisfy a test. -/
def lstrip (p : Char → Bool) (s : List Char) : List Char := s.dropWhile p

def rstrip (p : Char → Bool) (s : List Char) : List Char := (s.reverse.dropWhile p).reverse

def strip (s : List Char) : List Char := rstrip isSpace (lstrip isSpace s)

/-- `s.replace(old, new)` of an `old` that is not empty; `skip` characters of an occurrence are left
    to pass. -/
def replaceFrom (old new : List Char) : ℕ → List Char → List Char
  | _, [] => []
  | skip + 1, _ :: s => replaceFrom old new skip s
  | 0, c :: s =>
    if old <+: c :: s then new ++ replaceFrom old new (old.length - 1) s
    else c :: replaceFrom old new 0 s

def replace (old new s : List Char) : List Char := replaceFrom old new 0 s

/-- `s.replace(old, new, 1)` of an `old` that is not empty. -/
def replaceFirst (old new : List Char) : List Char → List Char
  | [] => []
  | c :: s =>
    if old <+: c :: s then new ++ (c :: s).drop old.length else c :: replaceFirst old new s

/-- `rstrip` takes a tail off that has only such characters. -/
theorem rstrip_append {p : Char → Bool} {q s : List Char} (hs : ∀ c ∈ s, p c = true)
    (hlast : ∀ c, q.getLast? = some c → p c = false) : rstrip p (q ++ s) = q := by
  rw [rstrip, List.reverse_append, List.dropWhile_append_of_pos (by simpa using hs)]
  cases hq : q.reverse with
  | nil => simpa using hq.symm
  | cons c cs =>
    have hc : q.getLast? = some c := by
      rw [← List.head?_reverse, hq]
      rfl
    rw [List.dropWhile_cons_of_neg (by simp [hlast c hc]), ← hq, List.reverse_reverse]

theorem lstrip_eq {p : Char → Bool} {s : List Char}
    (hhead : ∀ c, s.head? = some c → p c = false) : lstrip p s = s := by
  cases s with
  | nil => rfl
  | cons c cs => exact List.dropWhile_cons_of_neg (by simp [hhead c rfl])

/-- What `rstrip` takes off. -/
theorem rstrip_eq (p : Char → Bool) (s : List Char) :
    ∃ t, s = rstrip p s ++ t ∧ (∀ c ∈ t, p c = true) ∧
      ∀ c, (rstrip p s).getLast? = some c → p c = false := by
  refine ⟨(s.reverse.takeWhile p).reverse, ?_, ?_, ?_⟩
  · rw [rstrip, ← List.reverse_append, List.takeWhile_append_dropWhile,
      List.reverse_reverse]
  · intro c hc
    exact List.mem_takeWhile_imp (List.mem_reverse.1 hc)
  · intro c hc
    rw [rstrip, List.getLast?_reverse] at hc
    have := List.head?_dropWhile_not p s.reverse
    rw [hc] at this
    simpa using this

theorem replaceFrom_skip (old new : List Char) (skip : ℕ) (s : List Char) :
    replaceFrom old new skip s = replace old new (s.drop skip) := by
  induction s generalizing skip with
  | nil => simp [replaceFrom, replace]
  | cons c s ih =>
    cases skip with
    | zero => rfl
    | succ skip => rw [replaceFrom, ih, List.drop_succ_cons]

/-- An occurrence at the start is replaced. -/
theorem replace_append {old new s : List Char} (h : old ≠ []) :
    replace old new (old ++ s) = new ++ replace old new s := by
  cases old with
  | nil => exact absurd rfl h
  | cons c old =>
    rw [replace, List.cons_append, replaceFrom, if_pos (by simp), replaceFrom_skip]
    simp

/-- A part in which no occurrence begins is copied. -/
theorem replace_copy {old new a s : List Char}
    (h : ∀ b ∈ a.tails, b ≠ [] → ¬ old <+: b ++ s) :
    replace old new (a ++ s) = a ++ replace old new s := by
  induction a with
  | nil => rfl
  | cons c a ih =>
    have hhere := h (c :: a) (by simp) (by simp)
    rw [List.cons_append] at hhere
    rw [replace, List.cons_append, replaceFrom, if_neg hhere, List.cons_append]
    refine congrArg _ (ih fun b hb => h b ?_)
    rw [List.mem_tails] at hb ⊢
    exact hb.trans (List.suffix_cons c a)

theorem replaceFirst_append {old new s : List Char} (h : old ≠ []) :
    replaceFirst old new (old ++ s) = new ++ s := by
  cases old with
  | nil => exact absurd rfl h
  | cons c old =>
    rw [List.cons_append, replaceFirst, if_pos (by simp), ← List.cons_append, List.drop_left]

theorem replaceFirst_copy {old new a s : List Char}
    (h : ∀ b, b ≠ [] → b <:+ a → ¬ old <+: b ++ s) :
    replaceFirst old new (a ++ s) = a ++ replaceFirst old new s := by
  induction a with
  | nil => rfl
  | cons c a ih =>
    have hhere := h (c :: a) (by simp) (List.suffix_refl _)
    rw [List.cons_append] at hhere ⊢
    rw [replaceFirst, if_neg hhere, ih fun b hne hb => h b hne (hb.trans (List.suffix_cons c a)),
      List.cons_append]

section
variable {α : Type} (old : List Char) (own : α → Bool) (f : α → List Char)

/-- The text `old` occurs in what is written piece by piece, and begins elsewhere than at one of its
    own pieces. -/
def strays : List α → Bool
  | [] => false
  | a :: as =>
    (!own a && (f a).tails.any fun b =>
      decide (b ≠ []) && decide (old <+: b ++ as.flatMap f)) || strays as

variable {old own f}

/-- **A text that strays nowhere is replaced at its own pieces.** -/
theorem replace_flatMap {new : List Char} {g : α → List Char} (hne : old ≠ []) {as : List α}
    (hown : ∀ a ∈ as, own a = true → f a = old ∧ g a = new)
    (hother : ∀ a ∈ as, own a = false → g a = f a) (hstray : strays old own f as = false) :
    replace old new (as.flatMap f) = as.flatMap g := by
  induction as with
  | nil => rfl
  | cons a as ih =>
    rw [strays, Bool.or_eq_false_iff] at hstray
    have hgo := ih (fun b hb => hown b (by simp [hb])) (fun b hb => hother b (by simp [hb]))
      hstray.2
    rw [List.flatMap_cons, List.flatMap_cons, ← hgo]
    cases ha : own a with
    | true =>
      obtain ⟨hf, hg⟩ := hown a (by simp) ha
      rw [hf, hg, replace_append hne]
    | false =>
      rw [hother a (by simp) ha]
      refine replace_copy fun b hb hbne hocc => ?_
      have hany := hstray.1
      rw [ha, Bool.not_false, Bool.true_and, List.any_eq_false] at hany
      exact hany b hb (by simp [hbne, hocc])

end

end PyText
