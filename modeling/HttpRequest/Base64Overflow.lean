import HttpRequest.Base64
import HttpRequest.Model.Words

/-! # Overflow in `base64Encode`

`base64Encode` never cuts its accumulator, so that it holds the number whose bytes are all those read. In signed
numbers that do not wrap, this goes well exactly as long as the whole text is a number of 31 bits, and of 23 where a
last group is completed. The encoding is then the one with numbers that wrap (`base64EncodeChecked_eq`). -/

namespace HttpRequest

open Foundations

/-! ### The accumulator -/

variable {n : Nat} {c : UInt8} {str : Bytes}

/-- A natural number fits when it is below half the range. -/
theorem fits_natCast (n : Nat) : Fits 32 (n : Int) ↔ n < 2 ^ 31 := by
  rw [fits_iff_lt (Int.natCast_nonneg n)]
  show (n : Int) < 2 ^ 31 ↔ n < 2 ^ 31
  norm_cast

/-- A number that is not negative can be shifted when there is room for it. -/
theorem shiftLeft_natCast (n : Nat) : shiftLeft 32 (n : Int) 8 = checked 32 ((256 * n : Nat) : Int) := by
  rw [shiftLeft, if_neg (Int.not_lt.mpr (Int.natCast_nonneg n)), Nat.cast_mul, Int.mul_comm]
  rfl

/-- Behind a shift that fits the byte is added. -/
theorem base64ShiftIn_of_shifted {val shifted : Int} (h : shiftLeft 32 val 8 = .ok shifted) (c : UInt8) :
    base64ShiftIn val c = checked 32 (shifted + c.toNat) := by
  unfold base64ShiftIn
  rw [h]
  rfl

/-- A byte is taken in when there is room for the number it makes. -/
theorem base64ShiftIn_natCast (n : Nat) (c : UInt8) :
    base64ShiftIn n c = checked 32 ((256 * n + c.toNat : Nat) : Int) := by
  have hshift := shiftLeft_natCast n
  by_cases hshifted : Fits 32 ((256 * n : Nat) : Int)
  · rw [checked_of_fits hshifted] at hshift
    rw [base64ShiftIn_of_shifted hshift, Nat.cast_add]
  · -- what does not fit after the shift does not fit with the byte
    have hsum : ¬Fits 32 ((256 * n + c.toNat : Nat) : Int) := by
      rw [fits_natCast] at hshifted ⊢
      omega
    unfold base64ShiftIn
    rw [hshift, checked_of_not_fits hshifted, checked_of_not_fits hsum]
    rfl

/-- A number that fits after the shift does not wrap. -/
theorem shift_wrap (h : 256 * n < 2 ^ 31) : toInt32 ((n : Int) * 2 ^ 8) = ((256 * n : Nat) : Int) := by
  have hproduct : (n : Int) * 2 ^ 8 = ((256 * n : Nat) : Int) := by
    push_cast
    omega
  rw [hproduct]
  exact bmod_of_fits (by decide) ((fits_natCast _).mpr h)

/-- Nor does one that fits with the byte. -/
theorem shiftIn_wrap (h : 256 * n + c.toNat < 2 ^ 31) :
    toInt32 (toInt32 ((n : Int) * 2 ^ 8) + c.toNat) = ((256 * n + c.toNat : Nat) : Int) := by
  rw [shift_wrap (by omega), ← Nat.cast_add]
  exact bmod_of_fits (by decide) ((fits_natCast _).mpr h)

/-- As long as the number of all bytes fits, no pass overflows. -/
theorem base64CheckedLoop_eq (str : Bytes) : ∀ (n : Nat) (valb : Int) (res : Bytes), bigEndian n str < 2 ^ 31 →
    base64CheckedLoop str n valb res = .ok (base64Loop str n valb res) ∧
      (base64Loop str n valb res).1 = bigEndian n str := by
  induction str with
  | nil => exact fun n valb res _ => ⟨rfl, rfl⟩
  | cons c str ih =>
    intro n valb res hlt
    have hle := le_bigEndian (256 * n + c.toNat) str
    have hfits := hle.trans_lt hlt
    rw [base64CheckedLoop, base64ShiftIn_natCast, checked_of_fits ((fits_natCast _).mpr hfits), base64Loop,
      shiftIn_wrap hfits]
    exact ih _ _ _ hlt

/-- Where the number of all bytes does not fit, one of the passes overflows. -/
theorem base64CheckedLoop_overflow (str : Bytes) : ∀ (n : Nat) (valb : Int) (res : Bytes), n < 2 ^ 31 →
    2 ^ 31 ≤ bigEndian n str → base64CheckedLoop str n valb res = .error .unrepresentable := by
  induction str with
  | nil => exact fun n valb res hlt hle => absurd hle (Nat.not_le.mpr hlt)
  | cons c str ih =>
    intro n valb res hlt hle
    rw [base64CheckedLoop, base64ShiftIn_natCast]
    rcases Nat.lt_or_ge (256 * n + c.toNat) (2 ^ 31) with hfits | hover
    · rw [checked_of_fits ((fits_natCast _).mpr hfits)]
      exact ih _ _ _ hfits hle
    · rw [checked_of_not_fits (mt (fits_natCast _).mp (Nat.not_lt.mpr hover))]
      rfl

/-! ### The bits that are left over -/

/-- Each byte leaves two more bits than the one before it, until there are six. -/
theorem base64Drain_valb (val : Int) {k : Nat} (hk : k < 3) (res : Bytes) :
    (base64Drain 2 val (-6 + 2 * k + 8) res).1 = -6 + 2 * ((k + 1) % 3 : Nat) := by
  interval_cases k
  · rfl
  · rfl
  · rfl

/-- The bits that are left over are those of the bytes that make no whole group. -/
theorem base64Loop_valb (str : Bytes) : ∀ (val : Int) (k : Nat) (res : Bytes), k < 3 →
    (base64Loop str val (-6 + 2 * k) res).2.1 = -6 + 2 * ((k + str.length) % 3 : Nat) := by
  induction str with
  | nil =>
    intro val k res hk
    rw [List.length_nil, Nat.add_zero, Nat.mod_eq_of_lt hk]
    rfl
  | cons c str ih =>
    intro val k res hk
    have hdrain := base64Drain_valb (toInt32 (toInt32 (val * 2 ^ 8) + c.toNat)) hk res
    have hmod : ((k + 1) % 3 + str.length) % 3 = (k + (str.length + 1)) % 3 := by omega
    rw [base64Loop]
    generalize base64Drain 2 _ (-6 + 2 * (k : Int) + 8) res = drained at hdrain ⊢
    obtain ⟨valb, res'⟩ := drained
    rw [List.length_cons, ← hmod, ← ih _ _ res' (Nat.mod_lt _ (by decide)), ← hdrain]

/-! ### The whole text -/

/-- A last character needs room for one more byte. -/
theorem base64FinishChecked_natCast (n : Nat) (valb : Int) (res : Bytes) :
    base64FinishChecked n valb res =
      if valb ≤ -6 ∨ 256 * n < 2 ^ 31 then .ok (base64Finish (n, valb, res)) else .error .unrepresentable := by
  have hshift := shiftLeft_natCast n
  unfold base64FinishChecked base64Finish
  dsimp only
  by_cases hleft : -6 < valb
  · rw [if_pos hleft, if_pos hleft]
    by_cases hfits : 256 * n < 2 ^ 31
    · rw [hshift, checked_of_fits ((fits_natCast _).mpr hfits), shift_wrap hfits, if_pos (.inr hfits)]
      rfl
    · rw [hshift, checked_of_not_fits (mt (fits_natCast _).mp hfits), if_neg (by omega)]
      rfl
  · rw [if_neg hleft, if_neg hleft, if_pos (.inl (not_lt.mp hleft))]
    rfl

/-- The number of the text, and whether bits are left over, decide. -/
theorem base64EncodeChecked_eq (str : Bytes) :
    base64EncodeChecked str =
      if bigEndian 0 str < 2 ^ 31 ∧ (str.length % 3 ≠ 0 → bigEndian 0 str < 2 ^ 23) then .ok (base64Encode str)
      else .error .unrepresentable := by
  have hencode := base64Encode_eq_finish str
  unfold base64EncodeChecked
  rcases Nat.lt_or_ge (bigEndian 0 str) (2 ^ 31) with hfits | hover
  · obtain ⟨hchecked, hval⟩ := base64CheckedLoop_eq str 0 (-6) [] hfits
    have hvalb : (base64Loop str 0 (-6) []).2.1 = _ := base64Loop_valb str 0 0 [] (by decide)
    rw [Nat.cast_zero] at hchecked hval
    rw [hchecked, hencode]
    generalize base64Loop str 0 (-6) [] = r at hval hvalb ⊢
    obtain ⟨val, valb, res⟩ := r
    subst hval
    refine (base64FinishChecked_natCast _ valb res).trans (if_congr ?_ rfl rfl)
    rw [show valb = -6 + 2 * ((0 + str.length) % 3 : Nat) from hvalb]
    omega
  · have herror := base64CheckedLoop_overflow str 0 (-6) [] (by decide) hover
    rw [Nat.cast_zero] at herror
    rw [herror, if_neg (by omega)]
    rfl

/-- **Nothing overflows exactly in short texts.** Leading zero bytes are not counted: four bytes are too many when
the first of them is not below 128, and where the last group is not complete, so are three. -/
theorem base64EncodeChecked_ok_iff (str : Bytes) :
    (∃ res, base64EncodeChecked str = .ok res) ↔ FitsBytes 4 str ∧ (str.length % 3 ≠ 0 → FitsBytes 3 str) := by
  have hwhole : bigEndian 0 str < 2 ^ 31 ↔ FitsBytes 4 str := bigEndian_lt_iff (by decide : 0 < 4) str
  have hshifted : bigEndian 0 str < 2 ^ 23 ↔ FitsBytes 3 str := bigEndian_lt_iff (by decide : 0 < 3) str
  rw [base64EncodeChecked_eq, ← hwhole, ← hshifted]
  split
  · next hfits => exact iff_of_true ⟨_, rfl⟩ hfits
  · next hover => exact iff_of_false nofun hover

/-- The fifth byte is one too many, in unsigned numbers of 32 bits, too. -/
theorem not_base64EncodeChecked_ok : ¬∃ res, base64EncodeChecked (bytes "AAAAA") = .ok res := by
  rw [base64EncodeChecked_eq, if_neg (by decide)]
  exact nofun

end HttpRequest
