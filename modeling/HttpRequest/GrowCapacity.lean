import HttpRequest.Foundations.Rounding
import HttpRequest.Model.Data

/-! # The capacity after growing

`Data::append` computes its new capacity in single precision. Over exact rationals this is rounding to 24
significant bits, twice, and truncating (`growCapacity_eq_floor`). Both roundings together lose far less than
the factor of one and a half adds, so that the capacity is enough (`le_growCapacity`). -/

namespace HttpRequest

open Foundations

namespace Data

/-- Rounding the quotient of two natural numbers. -/
theorem roundEven_natCast_div_natCast {n d : Nat} (hd : 0 < d) :
    roundEven ((n : ℚ) / d) =
      ((if 2 * (n % d) > d ∨ 2 * (n % d) = d ∧ n / d % 2 = 1 then n / d + 1 else n / d : Nat) : ℤ) := by
  have hpos : (0 : ℚ) < d := Nat.cast_pos.mpr hd
  have hfract : 2 * Int.fract ((n : ℚ) / d) = ((2 * (n % d) : Nat) : ℚ) / d := by
    rw [Int.fract_div_natCast_eq_div_natCast_mod, Nat.cast_mul, Nat.cast_ofNat, mul_div_assoc]
  have hmore : 1 < 2 * Int.fract ((n : ℚ) / d) ↔ 2 * (n % d) > d := by
    rw [hfract, one_lt_div hpos, Nat.cast_lt]
  have hhalf : 2 * Int.fract ((n : ℚ) / d) = 1 ↔ 2 * (n % d) = d := by
    rw [hfract, div_eq_one_iff_eq hpos.ne', Nat.cast_inj]
  have hfloor : ⌊(n : ℚ) / d⌋ = ((n / d : Nat) : ℤ) := by
    rw [Rat.floor_natCast_div_natCast]
    rfl
  have hodd : ((n / d : Nat) : ℤ) % 2 = 1 ↔ n / d % 2 = 1 := by omega
  unfold roundEven
  simp only [hmore, hhalf, hfloor, hodd]
  split_ifs <;> rfl

/-- `roundToFloat` rounds to 24 significant bits. -/
theorem roundBits_natCast (n : Nat) : roundBits 24 (n : ℚ) = roundToFloat n := by
  unfold roundToFloat
  split
  · next hsmall => exact roundBits_natCast_of_lt hsmall
  · next hlarge =>
    have hlog : 23 ≤ Nat.log2 n := by
      rw [Nat.le_log2 (by omega)]
      omega
    have hunit : ulp 24 (n : ℚ) = ((2 ^ (Nat.log2 n - 23) : Nat) : ℚ) := by
      have hexponent : Int.log 2 (n : ℚ) - ((24 : Nat) - 1) = ((Nat.log2 n - 23 : Nat) : ℤ) := by
        rw [Int.log_natCast, ← Nat.log2_eq_log_two]
        omega
      rw [ulp, hexponent, zpow_natCast]
      push_cast
      rfl
    rw [roundBits, hunit, roundEven_natCast_div_natCast (Nat.two_pow_pos _)]
    dsimp only
    rw [ite_cond_congr (by rw [gt_iff_lt]), apply_ite (Nat.cast : Nat → ℚ)]
    split_ifs <;> push_cast <;> rfl

/-- **The capacity is the expected length times one and a half**, rounded twice and truncated. -/
theorem growCapacity_eq_floor (expectLength : Nat) :
    (growCapacity expectLength : ℤ) = ⌊roundBits 24 (roundBits 24 (expectLength : ℚ) * (3 / 2))⌋ := by
  rw [roundBits_natCast]
  unfold growCapacity
  rcases Nat.eq_zero_or_pos (roundToFloat expectLength) with hzero | hpos
  · rw [hzero, Nat.cast_zero, zero_mul, roundBits_zero, Int.floor_zero]
    rfl
  · have hproduct : (roundToFloat expectLength : ℚ) * (3 / 2) =
        ((3 * roundToFloat expectLength : Nat) : ℚ) * 2 ^ (-1 : ℤ) := by
      push_cast
      ring
    have hlarge : (0 : ℚ) < ((3 * roundToFloat expectLength : Nat) : ℚ) := Nat.cast_pos.mpr (by omega)
    have hhalf : ((roundToFloat (3 * roundToFloat expectLength) : Nat) : ℚ) * 2 ^ (-1 : ℤ) =
        ((roundToFloat (3 * roundToFloat expectLength) : Nat) : ℚ) / (2 : Nat) := by
      rw [zpow_neg_one, ← div_eq_mul_inv, Nat.cast_ofNat]
    rw [hproduct, roundBits_mul_zpow 24 hlarge, roundBits_natCast, hhalf, Rat.floor_natCast_div_natCast]
    rfl

/-- The capacity after growing is enough. -/
theorem le_growCapacity (expectLength : Nat) : expectLength ≤ growCapacity expectLength := by
  rcases Nat.eq_zero_or_pos expectLength with rfl | hpos
  · exact Nat.zero_le _
  have hlength : (0 : ℚ) < expectLength := Nat.cast_pos.mpr hpos
  -- each rounding loses one part in `2 ^ 24` at most
  have hfirst := le_roundBits 23 hlength
  have hrounded : (0 : ℚ) < roundBits 24 (expectLength : ℚ) := by
    norm_num at hfirst
    linarith
  have hsecond := le_roundBits 23 (mul_pos hrounded (by norm_num : (0 : ℚ) < 3 / 2))
  have hle : ((expectLength : ℤ) : ℚ) ≤ roundBits 24 (roundBits 24 (expectLength : ℚ) * (3 / 2)) := by
    norm_num at hfirst hsecond
    rw [Int.cast_natCast]
    linarith
  have hfloor := Int.le_floor.mpr hle
  rw [← growCapacity_eq_floor] at hfloor
  omega

/-- The conversion to `int64_t` does not overflow below `2 ^ 62`. -/
theorem growCapacity_lt {expectLength : Nat} (h : expectLength < 2 ^ 62) : growCapacity expectLength < 2 ^ 63 := by
  rcases Nat.eq_zero_or_pos expectLength with rfl | hpos
  · decide
  have hlength : (0 : ℚ) < expectLength := Nat.cast_pos.mpr hpos
  have hbound : (expectLength : ℚ) < 2 ^ 62 := mod_cast h
  have hlow := le_roundBits 23 hlength
  have hfirst := roundBits_le 23 hlength
  have hrounded : (0 : ℚ) < roundBits 24 (expectLength : ℚ) := by
    norm_num at hlow
    linarith
  have hsecond := roundBits_le 23 (mul_pos hrounded (by norm_num : (0 : ℚ) < 3 / 2))
  have hlt : roundBits 24 (roundBits 24 (expectLength : ℚ) * (3 / 2)) < ((2 ^ 63 : ℤ) : ℚ) := by
    norm_num at hfirst hsecond ⊢
    linarith
  have hfloor := Int.floor_lt.mpr hlt
  rw [← growCapacity_eq_floor] at hfloor
  omega

/-- Rounding a number whose last significant bit has the unit `2 ^ k`. -/
theorem roundToFloat_eq {n : Nat} (k : Nat) (hlow : 2 ^ (k + 23) ≤ n) (hhigh : n < 2 ^ (k + 24)) :
    roundToFloat n =
      if 2 * (n % 2 ^ k) > 2 ^ k ∨ 2 * (n % 2 ^ k) = 2 ^ k ∧ n / 2 ^ k % 2 = 1 then (n / 2 ^ k + 1) * 2 ^ k
      else n / 2 ^ k * 2 ^ k := by
  have hpow : 2 ^ 23 ≤ 2 ^ (k + 23) := Nat.pow_le_pow_right two_pos (Nat.le_add_left _ _)
  have hlog : Nat.log2 n = k + 23 := (Nat.log2_eq_iff (by omega)).mpr ⟨hlow, hhigh⟩
  unfold roundToFloat
  rw [hlog, Nat.add_sub_cancel]
  split
  · next hsmall =>
    have hk : k = 0 := by
      by_contra hne
      have hle : 2 ^ (1 + 23) ≤ 2 ^ (k + 23) := Nat.pow_le_pow_right two_pos (by omega)
      omega
    rw [hk, Nat.pow_zero, Nat.mod_one, Nat.div_one, Nat.mul_one]
    simp
  · rfl

/-- From `2 ^ 64` on, rounding stays there. -/
theorem le_roundToFloat {n : Nat} (hlow : 2 ^ 64 ≤ n) (hhigh : n < 2 ^ 65) : 2 ^ 64 ≤ roundToFloat n := by
  rw [roundToFloat_eq 41 hlow hhigh]
  split <;> omega

/-- Three times a number of 24 bits is rounded to less than the next power of two, as long as it lies below the
middle between the last number of 24 bits and that power. -/
theorem roundToFloat_lt {m : Nat} (k : Nat) (hlow : 2 ^ 23 ≤ m) (hhigh : m ≤ 11184810) :
    roundToFloat (3 * m * 2 ^ k) < 2 ^ 24 * 2 ^ (k + 1) := by
  have hpos : 0 < 2 ^ k := Nat.two_pow_pos k
  have hdouble : 2 ^ (k + 1) = 2 * 2 ^ k := Nat.pow_succ'
  have hfloor : 3 * m * 2 ^ k / 2 ^ (k + 1) = 3 * m / 2 := by rw [hdouble, Nat.mul_div_mul_right _ _ hpos]
  have hrest : 3 * m * 2 ^ k % 2 ^ (k + 1) = 3 * m % 2 * 2 ^ k := by rw [hdouble, Nat.mul_mod_mul_right]
  have hbits : 2 ^ (k + 1 + 23) ≤ 3 * m * 2 ^ k := by
    rw [show k + 1 + 23 = 24 + k by omega, Nat.pow_add]
    exact Nat.mul_le_mul_right _ (by omega)
  have hbits' : 3 * m * 2 ^ k < 2 ^ (k + 1 + 24) := by
    rw [show k + 1 + 24 = 25 + k by omega, Nat.pow_add]
    exact Nat.mul_lt_mul_of_pos_right (by omega) hpos
  rw [roundToFloat_eq (k + 1) hbits hbits', hfloor, hrest]
  split
  · next hup =>
    -- what is rounded up is odd, and so is not the last number of 24 bits
    have hodd : 3 * m % 2 = 1 := by
      by_contra heven
      rw [show 3 * m % 2 = 0 by omega, Nat.zero_mul] at hup
      omega
    exact Nat.mul_lt_mul_of_pos_right (by omega) (Nat.two_pow_pos _)
  · exact Nat.mul_lt_mul_of_pos_right (by omega) (Nat.two_pow_pos _)

/-- **The conversion to `int64_t` overflows** from about two thirds of `INT64_MAX` on. -/
theorem growCapacity_lt_iff {n : Nat} : growCapacity n < 2 ^ 63 ↔ n ≤ 22369621 * 2 ^ 38 := by
  rcases Nat.lt_or_ge n (2 ^ 62) with hsmall | hlow
  · exact iff_of_true (growCapacity_lt hsmall) (by omega)
  rcases Nat.lt_or_ge n (2 ^ 63) with hhigh | hlarge
  · -- the length is rounded to `m` units, and three of these to the next even number of them
    obtain ⟨m, hrounded, hm, hmin, hmax⟩ : ∃ m, roundToFloat n = m * 2 ^ 39 ∧
        (m ≤ 11184810 ↔ n ≤ 22369621 * 2 ^ 38) ∧ 2 ^ 23 ≤ m ∧ m ≤ 2 ^ 24 := by
      rw [roundToFloat_eq 39 hlow hhigh]
      split
      · exact ⟨n / 2 ^ 39 + 1, rfl, by omega, by omega, by omega⟩
      · exact ⟨n / 2 ^ 39, rfl, by omega, by omega, by omega⟩
    unfold growCapacity
    rw [hrounded, ← hm]
    constructor
    · intro hlt
      by_contra hgt
      have hle : 2 ^ 64 ≤ roundToFloat (3 * (m * 2 ^ 39)) := le_roundToFloat (by omega) (by omega)
      omega
    · intro hle
      have hlt := roundToFloat_lt 39 hmin hle
      rw [Nat.mul_assoc] at hlt
      omega
  · have hle := le_growCapacity n
    exact iff_of_false (by omega) (by omega)

end Data

end HttpRequest
