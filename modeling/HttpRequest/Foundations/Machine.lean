import Mathlib.Data.Int.DivMod
import Mathlib.Tactic.Linarith
import Mathlib.Tactic.Ring

/-! # Signed numbers of a machine

A signed number of a fixed width, in two's complement: which integers have such a representation (`Fits`), the one
that is left when a number wraps (`Int.bmod`), and computations that are undefined where a result has no
representation or where a negative number is shifted to the left (`checked`, `shiftLeft`). Bytes, the most significant
first, make a number that fits into as many signed bytes as their leading ones say (`bigEndian_lt_iff`). -/

namespace Foundations

/-- Why a computation with signed numbers has no defined result. -/
inductive Undefined
  /-- The result has no representation in its type. -/
  | unrepresentable
  /-- A negative number is shifted to the left. -/
  | negativeShift
  deriving DecidableEq, Repr

/-- The numbers a signed type of the given width represents. -/
def Fits (width : Nat) (n : Int) : Prop := -2 ^ (width - 1) ≤ n ∧ n < 2 ^ (width - 1)

instance (width : Nat) : DecidablePred (Fits width) := fun _ => inferInstanceAs (Decidable (_ ∧ _))

/-- A result in a signed type of the given width. -/
def checked (width : Nat) (n : Int) : Except Undefined Int :=
  if Fits width n then .ok n else .error .unrepresentable

/-- `n << k` in a signed type of the given width. -/
def shiftLeft (width : Nat) (n : Int) (k : Nat) : Except Undefined Int :=
  if n < 0 then .error .negativeShift else checked width (n * 2 ^ k)

variable {width : Nat} {n m : Int}

/-- A value in range passes the check. -/
theorem checked_of_fits (h : Fits width n) : checked width n = .ok n := if_pos h

/-- A value out of range does not pass it. -/
theorem checked_of_not_fits (h : ¬Fits width n) : checked width n = .error .unrepresentable := if_neg h

/-- Of the numbers that are not negative, those below `2 ^ (width - 1)` fit. -/
theorem fits_iff_lt (h : 0 ≤ n) : Fits width n ↔ n < 2 ^ (width - 1) := by
  have hpow : (0 : Int) < 2 ^ (width - 1) := Int.pow_pos (by decide)
  exact and_iff_right (by omega)

/-- A number that fits does not wrap. -/
theorem bmod_of_fits (hwidth : 0 < width) (h : Fits width n) : Int.bmod n (2 ^ width) = n := by
  obtain ⟨k, rfl⟩ : ∃ k, width = k + 1 := ⟨width - 1, by omega⟩
  obtain ⟨hlow, hhigh⟩ := h
  rw [Nat.add_sub_cancel] at hlow hhigh
  have hpow : (2 : Int) ^ (k + 1) = 2 ^ k * 2 := Int.pow_succ 2 k
  refine Int.bmod_eq_of_le ?_ ?_
  · push_cast
    omega
  · push_cast
    omega

/-- What a number wraps to fits. -/
theorem fits_bmod (hwidth : 0 < width) (n : Int) : Fits width (Int.bmod n (2 ^ width)) := by
  obtain ⟨k, rfl⟩ : ∃ k, width = k + 1 := ⟨width - 1, by omega⟩
  have hpos : 0 < 2 ^ (k + 1) := Nat.two_pow_pos _
  have hlow := Int.le_bmod (x := n) hpos
  have hhigh := Int.bmod_lt (x := n) hpos
  have hpow : (2 : Int) ^ (k + 1) = 2 ^ k * 2 := Int.pow_succ 2 k
  unfold Fits
  rw [Nat.add_sub_cancel]
  push_cast at hlow hhigh
  omega

/-! ### Numbers of several bytes -/

/-- The number that bytes make of another one, the most significant byte first. -/
def bigEndian (n : Nat) : List UInt8 → Nat
  | [] => n
  | c :: str => bigEndian (256 * n + c.toNat) str

/-- The number of some bytes fits into `k` bytes of a signed one: the first of its `k` bytes is below 128, when leading
zeros are not counted. -/
def FitsBytes (k : Nat) (str : List UInt8) : Prop :=
  let significant := str.dropWhile (· == 0)
  significant.length < k ∨ significant.length = k ∧ ∀ c ∈ significant.head?, c.toNat < 128

instance (k : Nat) : DecidablePred (FitsBytes k) := fun _ => inferInstanceAs (Decidable (_ ∨ _))

/-- A value carried into the string is weighted by the string's length. -/
theorem bigEndian_eq (str : List UInt8) : ∀ n, bigEndian n str = n * 256 ^ str.length + bigEndian 0 str := by
  induction str with
  | nil => exact fun n => (Nat.mul_one n).symm
  | cons c str ih =>
    intro n
    rw [bigEndian, bigEndian, ih, ih (256 * 0 + c.toNat), List.length_cons, Nat.pow_succ]
    ring

/-- Bytes make a number no smaller. -/
theorem le_bigEndian (n : Nat) (str : List UInt8) : n ≤ bigEndian n str := by
  rw [bigEndian_eq]
  exact (Nat.le_mul_of_pos_right n (Nat.pow_pos (by decide))).trans (Nat.le_add_right _ _)

/-- `n` bytes denote a value below `256 ^ n`. -/
theorem bigEndian_lt (str : List UInt8) : bigEndian 0 str < 256 ^ str.length := by
  induction str with
  | nil => exact Nat.one_pos
  | cons c str ih =>
    have hc := c.toNat_lt
    rw [bigEndian, bigEndian_eq, List.length_cons, Nat.pow_succ']
    calc
      (256 * 0 + c.toNat) * 256 ^ str.length + bigEndian 0 str < (c.toNat + 1) * 256 ^ str.length := by
        rw [Nat.mul_zero, Nat.zero_add, Nat.add_one_mul]
        omega
      _ ≤ 256 * 256 ^ str.length := Nat.mul_le_mul_right _ hc

/-- The number of bytes and the first one that is not zero tell whether the number fits. -/
theorem bigEndian_lt_iff {k : Nat} (hk : 0 < k) (str : List UInt8) :
    bigEndian 0 str < 2 ^ (8 * k - 1) ↔ FitsBytes k str := by
  obtain ⟨k, rfl⟩ : ∃ l, k = l + 1 := ⟨k - 1, by omega⟩
  have hpow : 2 ^ (8 * (k + 1) - 1) = 128 * 256 ^ k := by
    rw [show 8 * (k + 1) - 1 = 7 + 8 * k by omega, Nat.pow_add, Nat.pow_mul]
  have hpos : 0 < 256 ^ k := Nat.pow_pos (by decide)
  rw [hpow]
  induction str with
  | nil => exact iff_of_true (Nat.mul_pos (by decide) hpos) (.inl (Nat.succ_pos k))
  | cons c str ih =>
    unfold FitsBytes at ih ⊢
    rcases eq_or_ne c 0 with rfl | hc
    · exact ih
    · have hwhole := bigEndian_lt (c :: str)
      have hrest := bigEndian_lt str
      have hone : 1 ≤ c.toNat := Nat.pos_of_ne_zero fun hzero => hc (UInt8.toNat_inj.mp hzero)
      have hvalue : bigEndian 0 (c :: str) = c.toNat * 256 ^ str.length + bigEndian 0 str := by
        rw [bigEndian, bigEndian_eq, Nat.mul_zero, Nat.zero_add]
      rw [List.dropWhile_cons_of_neg (by simpa using hc)]
      dsimp only [List.head?_cons]
      rw [List.length_cons] at hwhole ⊢
      rcases lt_trichotomy str.length k with hless | heq | hmore
      · have hle : 256 ^ (str.length + 1) ≤ 256 ^ k := Nat.pow_le_pow_right (by decide) hless
        exact iff_of_true (by omega) (.inl (by omega))
      · rw [hvalue, heq]
        rw [heq] at hrest
        have hfirst : c.toNat * 256 ^ k + bigEndian 0 str < 128 * 256 ^ k ↔ c.toNat < 128 := by
          constructor
          · intro hlt
            exact Nat.lt_of_mul_lt_mul_right ((Nat.le_add_right _ _).trans_lt hlt)
          · intro hlt
            have hle : (c.toNat + 1) * 256 ^ k ≤ 128 * 256 ^ k := Nat.mul_le_mul_right _ hlt
            rw [Nat.add_one_mul] at hle
            omega
        rw [hfirst]
        exact ⟨fun hlt => .inr ⟨rfl, fun _ hmem => Option.some.inj hmem ▸ hlt⟩,
          fun h => (h.resolve_left (lt_irrefl _)).2 c rfl⟩
      · -- the first byte alone is too much
        have hle : 256 ^ (k + 1) ≤ 256 ^ str.length := Nat.pow_le_pow_right (by decide) hmore
        have hfirst : 1 * 256 ^ str.length ≤ c.toNat * 256 ^ str.length := Nat.mul_le_mul_right _ hone
        rw [Nat.pow_succ] at hle
        exact iff_of_false (by omega) (by omega)

end Foundations
