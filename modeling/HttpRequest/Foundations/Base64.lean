import Mathlib.Data.List.Basic
import Mathlib.Tactic.Common

/-! # Reading base 64

The base 64 encoding of RFC 4648, from the side of its reader: the values of the characters, and a decoder that accepts
canonical encodings only. Four characters stand for three bytes. Padding completes the last four, and what it leaves
over of a character is zero. -/

namespace Foundations.Base64

/-- The value of a character. -/
def value? (c : UInt8) : Option Nat :=
  -- `A` to `Z`, `a` to `z`, `0` to `9`, `+` and `/`
  if 65 ≤ c.toNat ∧ c.toNat ≤ 90 then some (c.toNat - 65)
  else if 97 ≤ c.toNat ∧ c.toNat ≤ 122 then some (c.toNat - 97 + 26)
  else if 48 ≤ c.toNat ∧ c.toNat ≤ 57 then some (c.toNat - 48 + 52)
  else if c.toNat = 43 then some 62
  else if c.toNat = 47 then some 63
  else none

/-- The character `=`. -/
def pad : UInt8 := 61

/-- Four characters without padding. -/
def group (w x y z : UInt8) : Option (List UInt8) := do
  let a ← value? w
  let b ← value? x
  let c ← value? y
  let d ← value? z
  some [UInt8.ofNat (a * 4 + b / 16), UInt8.ofNat (b % 16 * 16 + c / 4), UInt8.ofNat (c % 4 * 64 + d)]

/-- The last four characters. -/
def lastGroup (w x y z : UInt8) : Option (List UInt8) :=
  if z ≠ pad then group w x y z
  else if y ≠ pad then do
    let a ← value? w
    let b ← value? x
    let c ← value? y
    if c % 4 = 0 then some [UInt8.ofNat (a * 4 + b / 16), UInt8.ofNat (b % 16 * 16 + c / 4)] else none
  else do
    let a ← value? w
    let b ← value? x
    if b % 16 = 0 then some [UInt8.ofNat (a * 4 + b / 16)] else none

/-- The decoder. -/
def decode : List UInt8 → Option (List UInt8)
  | [] => some []
  | w :: x :: y :: z :: str =>
    if str.isEmpty then lastGroup w x y z
    else do
      let front ← group w x y z
      let back ← decode str
      some (front ++ back)
  | _ => none

variable {w x y z a b c : UInt8} {str rest : List UInt8}

/-- No character stands for a number and for padding. -/
theorem ne_pad {n : Nat} (h : value? z = some n) : z ≠ pad := by
  rintro rfl
  cases h

/-- Two parts of a byte make up the byte. -/
theorem ofNat_join {n : Nat} (a : UInt8) (h : n = a.toNat) : UInt8.ofNat n = a := by rw [h, UInt8.ofNat_toNat]

/-- Three bytes are read from four characters. -/
theorem decode_three (hw : value? w = some (a.toNat / 4)) (hx : value? x = some (a.toNat % 4 * 16 + b.toNat / 16))
    (hy : value? y = some (b.toNat % 16 * 4 + c.toNat / 64)) (hz : value? z = some (c.toNat % 64))
    (hrest : decode str = some rest) : decode (w :: x :: y :: z :: str) = some (a :: b :: c :: rest) := by
  have hb := b.toNat_lt
  have hc := c.toNat_lt
  have hgroup : group w x y z = some [a, b, c] := by
    rw [group, hw, hx, hy, hz]
    show some [_, _, _] = _
    rw [ofNat_join a (by omega), ofNat_join b (by omega), ofNat_join c (by omega)]
  rw [decode]
  split
  · next hempty =>
    obtain rfl := List.isEmpty_iff.mp hempty
    obtain rfl := Option.some.inj hrest
    rw [lastGroup, if_pos (ne_pad hz), hgroup]
  · rw [hgroup, hrest]
    rfl

/-- Two bytes are read from three characters. -/
theorem decode_two (hw : value? w = some (a.toNat / 4)) (hx : value? x = some (a.toNat % 4 * 16 + b.toNat / 16))
    (hy : value? y = some (b.toNat % 16 * 4)) : decode [w, x, y, pad] = some [a, b] := by
  have hb := b.toNat_lt
  rw [decode, if_pos List.isEmpty_nil, lastGroup, if_neg (not_not.mpr rfl), if_pos (ne_pad hy), hw, hx, hy]
  show (if b.toNat % 16 * 4 % 4 = 0 then some [_, _] else none) = _
  rw [if_pos (by omega), ofNat_join a (by omega), ofNat_join b (by omega)]

/-- One byte is read from two characters. -/
theorem decode_one (hw : value? w = some (a.toNat / 4)) (hx : value? x = some (a.toNat % 4 * 16)) :
    decode [w, x, pad, pad] = some [a] := by
  rw [decode, if_pos List.isEmpty_nil, lastGroup, if_neg (not_not.mpr rfl), if_neg (not_not.mpr rfl), hw, hx]
  show (if a.toNat % 4 * 16 % 16 = 0 then some [_] else none) = _
  rw [if_pos (by omega), ofNat_join a (by omega)]

end Foundations.Base64
