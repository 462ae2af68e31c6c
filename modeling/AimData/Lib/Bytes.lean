/-
  Byte strings and fixed-width big-endian numerals.
-/
import Mathlib.Tactic

/-- A byte string. -/
abbrev Bytes := List UInt8

namespace Bytes

/-- The `w` bytes of `n`, most significant first (`n` modulo `256 ^ w`). -/
def ofNat (n : ℕ) : ℕ → Bytes
  | 0 => []
  | w + 1 => UInt8.ofNat (n / 256 ^ w) :: ofNat n w

/-- The number whose big-endian bytes are `bs`. -/
def toNat (bs : Bytes) : ℕ := bs.foldl (fun n b => n * 256 + b.toNat) 0

@[simp] theorem length_ofNat (n w : ℕ) : (ofNat n w).length = w := by
  induction w with
  | zero => rfl
  | succ w ih => simp [ofNat, ih]

theorem foldl_ofNat (n : ℕ) : ∀ w a : ℕ,
    (ofNat n w).foldl (fun n b => n * 256 + b.toNat) a = a * 256 ^ w + n % 256 ^ w
  | 0, a => by simp [ofNat, Nat.mod_one]
  | w + 1, a => by
    simp only [ofNat, List.foldl_cons, foldl_ofNat n w]
    have hb : (UInt8.ofNat (n / 256 ^ w)).toNat = n / 256 ^ w % 256 := by simp
    have hm : n % 256 ^ (w + 1) = 256 ^ w * (n / 256 ^ w % 256) + n % 256 ^ w := by
      rw [Nat.pow_succ, Nat.mod_mul]; ring
    rw [hb, hm]; ring

theorem toNat_ofNat (n w : ℕ) : toNat (ofNat n w) = n % 256 ^ w := by
  rw [toNat, foldl_ofNat]; simp

/-- **Big-endian numerals round-trip below the width's bound.** -/
theorem toNat_ofNat_of_lt {n w : ℕ} (h : n < 256 ^ w) : toNat (ofNat n w) = n := by
  rw [toNat_ofNat, Nat.mod_eq_of_lt h]

theorem ofNat_inj {n m w : ℕ} (hn : n < 256 ^ w) (hm : m < 256 ^ w)
    (h : ofNat n w = ofNat m w) : n = m := by
  rw [← toNat_ofNat_of_lt hn, h, toNat_ofNat_of_lt hm]

end Bytes
