import Mathlib.Data.Int.Log
import Mathlib.Data.Rat.Floor
import Mathlib.Algebra.Order.Floor.Ring
import Mathlib.Tactic.Linarith
import Mathlib.Tactic.FieldSimp
import Mathlib.Tactic.Positivity

/-! # Rounding to a number of significant bits

Rounding to the nearest number with `p` significant bits, of two to the even one, with no bound on the
exponent. A number is divided by the unit of its last bit, rounded to an integer and multiplied again. -/

namespace Foundations

variable {K : Type} [Field K] [LinearOrder K] [IsStrictOrderedRing K] [FloorRing K]

/-! ### To integers -/

/-- The nearest integer, of two the even one. -/
def roundEven (x : K) : ℤ :=
  if 1 < 2 * Int.fract x ∨ 2 * Int.fract x = 1 ∧ ⌊x⌋ % 2 = 1 then ⌊x⌋ + 1 else ⌊x⌋

/-- An integer rounds to itself. -/
@[simp] theorem roundEven_intCast (n : ℤ) : roundEven (n : K) = n := by
  simp [roundEven]

/-- Rounding moves a number by a half at most. -/
theorem two_mul_abs_roundEven_sub_le (x : K) : 2 * |(roundEven x : K) - x| ≤ 1 := by
  have hfract : x = ⌊x⌋ + Int.fract x := (Int.floor_add_fract x).symm
  have hnonneg := Int.fract_nonneg x
  unfold roundEven
  split_ifs with h
  · have hhalf : 1 ≤ 2 * Int.fract x := h.elim le_of_lt fun h => h.1.ge
    have hlt := Int.fract_lt_one x
    have hup : (((⌊x⌋ + 1 : ℤ) : K)) - x = 1 - Int.fract x := by
      push_cast
      linarith
    rw [hup, abs_of_nonneg (by linarith)]
    linarith
  · have hhalf : 2 * Int.fract x ≤ 1 := not_lt.mp fun hlt => h (.inl hlt)
    have hdown : (⌊x⌋ : K) - x = -Int.fract x := by linarith
    rw [hdown, abs_neg, abs_of_nonneg hnonneg]
    exact hhalf

/-! ### To significant bits -/

/-- The unit of the last of `p` significant bits. -/
def ulp (p : ℕ) (x : K) : K := 2 ^ (Int.log 2 x - (p - 1))

/-- Rounding to `p` significant bits. -/
def roundBits (p : ℕ) (x : K) : K := roundEven (x / ulp p x) * ulp p x

/-- The spacing of the numbers around `x` is positive. -/
theorem ulp_pos (p : ℕ) (x : K) : 0 < ulp p x := zpow_pos two_pos _

/-- A power of two moves the exponent. -/
theorem log_mul_zpow {x : K} (hx : 0 < x) (k : ℤ) : Int.log 2 (x * 2 ^ k) = Int.log 2 x + k := by
  have hpow : (0 : K) < 2 ^ k := zpow_pos two_pos k
  have hle (z : ℤ) : z ≤ Int.log 2 (x * 2 ^ k) ↔ z ≤ Int.log 2 x + k := by
    rw [← Int.zpow_le_iff_le_log one_lt_two (mul_pos hx hpow), ← sub_le_iff_le_add,
      ← Int.zpow_le_iff_le_log one_lt_two hx, Nat.cast_ofNat, zpow_sub₀ two_ne_zero, div_le_iff₀ hpow]
  exact le_antisymm ((hle _).mp le_rfl) ((hle _).mpr le_rfl)

/-- The spacing scales with powers of two. -/
theorem ulp_mul_zpow (p : ℕ) {x : K} (hx : 0 < x) (k : ℤ) : ulp p (x * 2 ^ k) = ulp p x * 2 ^ k := by
  rw [ulp, ulp, log_mul_zpow hx, ← zpow_add₀ two_ne_zero]
  congr 1
  omega

/-- **Rounding commutes with powers of two.** -/
theorem roundBits_mul_zpow (p : ℕ) {x : K} (hx : 0 < x) (k : ℤ) :
    roundBits p (x * 2 ^ k) = roundBits p x * 2 ^ k := by
  have hpow : (2 : K) ^ k ≠ 0 := zpow_ne_zero k two_ne_zero
  rw [roundBits, roundBits, ulp_mul_zpow p hx, mul_div_mul_right _ _ hpow, mul_assoc]

/-- Zero rounds to itself. -/
@[simp] theorem roundBits_zero (p : ℕ) : roundBits p (0 : K) = 0 := by
  have hzero : roundEven (0 : K) = 0 := by
    have hcast : roundEven ((0 : ℤ) : K) = 0 := roundEven_intCast 0
    rwa [Int.cast_zero] at hcast
  rw [roundBits, zero_div, hzero, Int.cast_zero, zero_mul]

/-- A number that fits is left as it is. -/
theorem roundBits_natCast_of_lt {p n : ℕ} (h : n < 2 ^ p) : roundBits p (n : K) = n := by
  rcases Nat.eq_zero_or_pos n with rfl | hpos
  · rw [Nat.cast_zero, roundBits_zero]
  · have hlog : Nat.log 2 n < p := Nat.log_lt_of_lt_pow hpos.ne' h
    obtain ⟨k, hk⟩ : ∃ k : ℕ, Int.log 2 (n : K) - (p - 1) = -(k : ℤ) := ⟨p - 1 - Nat.log 2 n, by
      rw [Int.log_natCast]
      omega⟩
    have hunit : ulp p (n : K) = (2 ^ k)⁻¹ := by rw [ulp, hk, zpow_neg, zpow_natCast]
    have hinteger : (n : K) / ulp p (n : K) = ((n * 2 ^ k : ℤ) : K) := by
      rw [hunit, div_inv_eq_mul]
      push_cast
      rfl
    have hne : ulp p (n : K) ≠ 0 := (ulp_pos p (n : K)).ne'
    rw [roundBits, hinteger, roundEven_intCast, ← hinteger, div_mul_cancel₀ _ hne]

/-- Rounding moves a number by half a unit of its last bit at most. -/
theorem two_mul_abs_roundBits_sub_le (p : ℕ) (x : K) : 2 * |roundBits p x - x| ≤ ulp p x := by
  have hpos := ulp_pos p x
  have hscaled : roundBits p x - x = (roundEven (x / ulp p x) - x / ulp p x) * ulp p x := by
    rw [roundBits, sub_mul, div_mul_cancel₀ _ hpos.ne']
  rw [hscaled, abs_mul, abs_of_pos hpos, ← mul_assoc]
  exact mul_le_of_le_one_left hpos.le (two_mul_abs_roundEven_sub_le _)

/-- The unit of the last bit is a small part of a number. -/
theorem ulp_mul_two_pow_le (p : ℕ) {x : K} (hx : 0 < x) : ulp (p + 1) x * 2 ^ p ≤ x := by
  have hunit : ulp (p + 1) x * 2 ^ p = 2 ^ Int.log 2 x := by
    rw [ulp, ← zpow_natCast, ← zpow_add₀ two_ne_zero]
    congr 1
    push_cast
    omega
  rw [hunit]
  have hle := Int.zpow_log_le_self (R := K) one_lt_two hx
  rwa [Nat.cast_ofNat] at hle

/-- Rounding loses a small part of a number at most. -/
theorem le_roundBits (p : ℕ) {x : K} (hx : 0 < x) : x * (2 ^ (p + 1) - 1) ≤ roundBits (p + 1) x * 2 ^ (p + 1) := by
  have hunit := ulp_mul_two_pow_le p hx
  have herror := two_mul_abs_roundBits_sub_le (p + 1) x
  have hlow := neg_abs_le (roundBits (p + 1) x - x)
  have hpow : (0 : K) < 2 ^ p := pow_pos two_pos p
  have hlost : (x - roundBits (p + 1) x) * 2 * 2 ^ p ≤ ulp (p + 1) x * 2 ^ p :=
    mul_le_mul_of_nonneg_right (by linarith) hpow.le
  have hdouble : (2 : K) ^ (p + 1) = 2 * 2 ^ p := pow_succ' 2 p
  rw [hdouble]
  linarith

/-- Rounding adds a small part of a number at most. -/
theorem roundBits_le (p : ℕ) {x : K} (hx : 0 < x) : roundBits (p + 1) x * 2 ^ (p + 1) ≤ x * (2 ^ (p + 1) + 1) := by
  have hunit := ulp_mul_two_pow_le p hx
  have herror := two_mul_abs_roundBits_sub_le (p + 1) x
  have hhigh := le_abs_self (roundBits (p + 1) x - x)
  have hpow : (0 : K) < 2 ^ p := pow_pos two_pos p
  have hadded : (roundBits (p + 1) x - x) * 2 * 2 ^ p ≤ ulp (p + 1) x * 2 ^ p :=
    mul_le_mul_of_nonneg_right (by linarith) hpow.le
  have hdouble : (2 : K) ^ (p + 1) = 2 * 2 ^ p := pow_succ' 2 p
  rw [hdouble]
  linarith

end Foundations
