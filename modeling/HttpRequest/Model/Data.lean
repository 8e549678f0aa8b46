import HttpRequest.Model.Bytes

/-! # `Data`

The growable byte buffer of `Data.hpp`, with its three redundant fields as the class has them: the
pointer, the number of bytes allocated behind it and the number of bytes in use. Bytes of a fresh
allocation that the code has not written read as zero. -/

namespace HttpRequest

/-- `struct Data`. -/
structure Data where
  /-- The number of bytes allocated. -/
  capacity : Nat := 0
  /-- The number of bytes in use. -/
  length : Nat := 0
  /-- The allocation, `none` for the null pointer. -/
  rawData : Option Bytes := none
  deriving DecidableEq, Repr

namespace Data

/-- `std::copy` of `src` into a buffer at an offset. A write past the end of the buffer makes the list
longer, so that it can be seen. -/
def writeAt (buffer : Bytes) (offset : Nat) (src : Bytes) : Bytes :=
  buffer.take offset ++ src ++ buffer.drop (offset + src.length)

/-- `new uint8_t[size]`. -/
def allocate (size : Nat) : Bytes := List.replicate size 0

/-- The bytes `rawData`, ..., `rawData + length - 1`. -/
def contents (self : Data) : Bytes := (self.rawData.getD []).take self.length

/-- `Data::view`. -/
def view (self : Data) : Bytes := if self.rawData.isNone then [] else self.contents

/-- `Data::empty`. -/
def empty (self : Data) : Bool := self.rawData.isNone || self.length == 0

/-- `Data(size, data)`, through which the string constructors go. -/
def ofBytes (data : Bytes) : Data :=
  { capacity := data.length, length := data.length, rawData := some data }

/-- `Data(size)`. -/
def ofSize (size : Nat) : Data :=
  { capacity := size, length := 0, rawData := some (allocate size) }

/-- Rounding of a natural number to single precision: to 24 significant bits, to the nearest, ties to
even. -/
def roundToFloat (n : Nat) : Nat :=
  if n < 2 ^ 24 then n
  else
    let ulp := 2 ^ (Nat.log2 n - 23)
    -- what the 24 bits keep, and what the rounding drops
    let q := n / ulp
    let r := n % ulp
    if 2 * r > ulp ∨ (2 * r = ulp ∧ q % 2 = 1) then (q + 1) * ulp else q * ulp

/-- `static_cast<int64_t>(static_cast<float>(expectLength) * 1.5f)`. The product is rounded in units of
a half, which are exact for every number that has a fractional part after the first rounding. -/
def growCapacity (expectLength : Nat) : Nat := roundToFloat (3 * roundToFloat expectLength) / 2

/-- `Data::append`. -/
def append (self d : Data) : Data :=
  let length := if self.rawData.isNone then 0 else self.length
  let capacity := if self.rawData.isNone then 0 else self.capacity
  let expectLength := length + d.length
  if capacity < expectLength then
    let len := growCapacity expectLength
    -- the old contents move to the new allocation before the new bytes are written
    let buffer := writeAt (allocate len) 0 ((self.rawData.getD []).take length)
    { capacity := len, length := expectLength, rawData := some (writeAt buffer length d.contents) }
  else
    { capacity := capacity, length := expectLength,
      rawData := self.rawData.map fun buffer => writeAt buffer length d.contents }

/-- `Data::copy(pos, len)`. -/
def copy (self : Data) (pos : Nat) (len : Int) : Data :=
  if self.empty || len == 0 || decide (self.length ≤ pos) then {}
  else
    -- a negative length asks for everything behind `pos`
    let resLen := if len < 0 then self.length - pos else len.toNat
    let size := min resLen (self.length - pos)
    -- `pos + resLen` may pass the end; `size` has been cut already
    let slice := ((self.rawData.getD []).take (min (pos + resLen) self.length)).drop pos
    { capacity := size, length := size, rawData := some (writeAt (allocate size) 0 slice) }

/-- `Data::destroy`. -/
def destroy (_ : Data) : Data := {}

/-! ### What the view shows

`Readable` says that the bytes in use lie inside the allocation. It is all the operations need for the
view to be what they are meant to leave. -/

/-- The bytes in use lie inside the allocation; without one, none are in use. -/
def Readable (self : Data) : Prop := self.length ≤ (self.rawData.getD []).length

/-- With or without a buffer, the view is the bytes in use. -/
theorem view_eq_contents (self : Data) : self.view = self.contents := by
  rw [view, contents]
  cases self.rawData <;> simp

/-- The view is as long as the object says. -/
theorem length_view {self : Data} (h : self.Readable) : self.view.length = self.length := by
  rw [view_eq_contents, contents, List.length_take, Nat.min_eq_left h]

/-- An object without a buffer is readable. -/
@[simp] theorem readable_default : ({} : Data).Readable := Nat.le_refl 0

/-- An object without a buffer has an empty view. -/
@[simp] theorem view_default : ({} : Data).view = [] := rfl

/-- An object made of bytes is readable. -/
@[simp] theorem readable_ofBytes (data : Bytes) : (ofBytes data).Readable := Nat.le_refl _

/-- An object made of bytes has them in view. -/
@[simp] theorem view_ofBytes (data : Bytes) : (ofBytes data).view = data := by
  simp [view, contents, ofBytes]

/-- A destroyed object is readable. -/
@[simp] theorem readable_destroy (self : Data) : self.destroy.Readable := Nat.le_refl 0

/-- A destroyed object has an empty view. -/
@[simp] theorem view_destroy (self : Data) : self.destroy.view = [] := rfl

/-- `empty` says whether the view is. -/
theorem empty_iff {self : Data} (h : self.Readable) : self.empty = true ↔ self.view = [] := by
  rw [← List.length_eq_zero_iff, length_view h]
  cases hraw : self.rawData with
  | none => simpa [empty, hraw, Readable] using h
  | some buffer => simp [empty, hraw]

/-- A write leaves the buffer long enough to hold it. -/
theorem length_writeAt (buffer src : Bytes) (offset : Nat) (h : offset ≤ buffer.length) :
    offset + src.length ≤ (writeAt buffer offset src).length := by
  simp only [writeAt, List.length_append, List.length_take]
  omega

/-- A write leaves what is in front of it, and is there behind it. -/
theorem take_writeAt (buffer src : Bytes) (offset : Nat) (h : offset ≤ buffer.length) :
    (writeAt buffer offset src).take (offset + src.length) = buffer.take offset ++ src := by
  have hlen : offset + src.length = (buffer.take offset ++ src).length := by
    rw [List.length_append, List.length_take_of_le h]
  rw [writeAt, hlen, List.take_left]

/-- Bytes written behind those a buffer starts with are what the view shows behind them. -/
theorem view_writeAt {buffer : Bytes} (old : Bytes) (h : buffer.take old.length = old)
    (src : Bytes) (cap : Nat) :
    (Data.mk cap (old.length + src.length) (some (writeAt buffer old.length src))).view = old ++ src ∧
      (Data.mk cap (old.length + src.length) (some (writeAt buffer old.length src))).Readable := by
  have hle : old.length ≤ buffer.length := by
    have := congrArg List.length h
    rw [List.length_take] at this
    omega
  constructor
  · rw [view_eq_contents, contents, Option.getD_some, take_writeAt _ _ _ hle, h]
  · exact length_writeAt buffer src old.length hle

/-- Appending leaves the view of the one in front of the view of the other. -/
theorem view_append {self d : Data} (hs : self.Readable) (hd : d.Readable) :
    (self.append d).view = self.view ++ d.view ∧ (self.append d).Readable := by
  have hdlen : d.length = d.contents.length := by rw [← view_eq_contents, length_view hd]
  rw [view_eq_contents d]
  cases hraw : self.rawData with
  | none =>
    have hview : self.view = [] := by simp [view, hraw]
    simp only [append, hraw, Option.isNone_none, if_true, Nat.zero_add, hview, List.nil_append]
    by_cases hroom : 0 < d.length
    · rw [if_pos hroom, hdlen]
      simpa using view_writeAt [] (by simp)
        d.contents (growCapacity d.contents.length)
    · have hnil : d.contents = [] := List.length_eq_zero_iff.mp (by omega)
      have hzero : d.length = 0 := by omega
      simp [hnil, hzero, view, Readable]
  | some buffer =>
    have hlen := length_view hs
    have htake : buffer.take self.view.length = self.view := by
      rw [hlen, view_eq_contents, contents, hraw, Option.getD_some]
    simp only [append, hraw, Option.isNone_some, Bool.false_eq_true, if_false, Option.getD_some,
      Option.map_some]
    rw [← hlen, htake, hdlen]
    by_cases hroom : self.capacity < self.view.length + d.contents.length
    · rw [if_pos hroom]
      -- the old contents start the new allocation
      have hfirst := take_writeAt (allocate (growCapacity (self.view.length + d.contents.length)))
        self.view 0 (Nat.zero_le _)
      exact view_writeAt _ (by simpa using hfirst) _ _
    · rw [if_neg hroom]
      exact view_writeAt _ htake _ _

/-- `copy(pos)` is what lies behind `pos`. -/
theorem view_copy {self : Data} (hs : self.Readable) (pos : Nat) :
    (self.copy pos (-1)).view = self.view.drop pos ∧ (self.copy pos (-1)).Readable := by
  unfold copy
  by_cases hcase : self.empty || (-1 : Int) == 0 || decide (self.length ≤ pos)
  · rw [if_pos hcase]
    refine ⟨?_, readable_default⟩
    have hle : self.view.length ≤ pos := by
      rw [length_view hs]
      rcases Bool.or_eq_true_iff.mp hcase with h | h
      · have hnil := (empty_iff hs).mp (by simpa using h)
        rw [← length_view hs, hnil]
        exact Nat.zero_le _
      · exact of_decide_eq_true h
    rw [view_default, List.drop_eq_nil_of_le hle]
  · rw [if_neg hcase]
    have hpos : pos < self.length := by
      simp only [Bool.or_eq_true, not_or, decide_eq_true_eq] at hcase
      omega
    have hsum : min (pos + (self.length - pos)) self.length = self.length := by omega
    have hslice : ((self.rawData.getD []).take self.length).drop pos = self.view.drop pos := by
      rw [view_eq_contents, contents]
    have hlen : (self.view.drop pos).length = self.length - pos := by
      rw [List.length_drop, length_view hs]
    simp only [show (-1 : Int) < 0 by decide, if_true, min_self, hsum, hslice]
    constructor
    · rw [view_eq_contents, contents, Option.getD_some, ← hlen]
      simpa using take_writeAt (allocate (self.view.drop pos).length) (self.view.drop pos) 0
        (Nat.zero_le _)
    · simpa [Readable, hlen] using
        length_writeAt (allocate (self.length - pos)) (self.view.drop pos) 0 (Nat.zero_le _)

end Data

end HttpRequest
