import HttpRequest.Foundations.Growth
import HttpRequest.DataInvariant

/-! # What appending costs

`append` moves the whole contents when it grows. The capacity it grows to is computed in single precision, and is
large enough for what is moved over any number of appends to stay linear in what they append
(`appendAll_linear`). The sizes here are exact numbers; up to `22369621 * 2 ^ 38` bytes the capacity has a
representation in its type (`growCapacity_lt_iff`). -/

namespace HttpRequest

namespace Data

open Foundations

/-- The length and the capacity. -/
def room (self : Data) : Room := ⟨self.length, self.capacity⟩

/-- Both roundings together change a length by less than one part in `2 ^ 22`. -/
theorem roundBits_bounds {n : Nat} (hn : 0 < n) :
    (4 / 3 : ℚ) * n ≤ roundBits 24 (roundBits 24 (n : ℚ) * (3 / 2)) ∧
      roundBits 24 (roundBits 24 (n : ℚ) * (3 / 2)) ≤ 2 * n := by
  have hlength : (0 : ℚ) < n := Nat.cast_pos.mpr hn
  have hlow := le_roundBits 23 hlength
  have hhigh := roundBits_le 23 hlength
  have hrounded : (0 : ℚ) < roundBits 24 (n : ℚ) := by
    norm_num at hlow
    linarith
  have hlow' := le_roundBits 23 (mul_pos hrounded (by norm_num : (0 : ℚ) < 3 / 2))
  have hhigh' := roundBits_le 23 (mul_pos hrounded (by norm_num : (0 : ℚ) < 3 / 2))
  norm_num at hlow hhigh hlow' hhigh'
  exact ⟨by linarith, by linarith⟩

/-- The capacity after growing is a growth policy, in spite of the two roundings. -/
theorem policy_growCapacity : Policy growCapacity := by
  refine ⟨le_growCapacity, fun n => ?_, fun n => ?_⟩
  · rcases Nat.eq_zero_or_pos n with rfl | hpos
    · exact Nat.zero_le _
    have hfloor := Int.lt_floor_add_one (roundBits 24 (roundBits 24 (n : ℚ) * (3 / 2)))
    rw [← growCapacity_eq_floor, Int.cast_natCast] at hfloor
    have hlow := (roundBits_bounds hpos).1
    have hle : ((4 * n : Nat) : ℚ) ≤ ((3 * growCapacity n + 4 : Nat) : ℚ) := by
      push_cast
      linarith
    exact_mod_cast hle
  · rcases Nat.eq_zero_or_pos n with rfl | hpos
    · decide
    have hfloor := Int.floor_le (roundBits 24 (roundBits 24 (n : ℚ) * (3 / 2)))
    rw [← growCapacity_eq_floor, Int.cast_natCast] at hfloor
    have hle : ((growCapacity n : Nat) : ℚ) ≤ ((2 * n : Nat) : ℚ) := by
      push_cast
      exact hfloor.trans (roundBits_bounds hpos).2
    exact_mod_cast hle

/-- What an `append` costs: the bytes that it moves to a new allocation, and the allocations that it makes. -/
def cost (self : Data) (d : Operand) : Nat × Nat :=
  let self := if self.rawData.isNone then { self with length := 0, capacity := 0 } else self
  if self.capacity < self.length + (d.get self).length then (self.length, 1) else (0, 0)

/-- Appends, one after the other, and what they cost. -/
def appendAll : Data → List Operand → Except MemoryError (Data × Nat × Nat)
  | self, [] => pure (self, 0, 0)
  | self, d :: ds => do
    let appended ← self.appendOperand d
    let (last, moved, grown) ← appended.appendAll ds
    pure (last, (self.cost d).1 + moved, (self.cost d).2 + grown)

/-- An `append` costs what it costs a buffer. -/
theorem Valid.room_appendOperand {self : Data} (h : self.Valid) {operand : Operand}
    (hd : ∀ d, operand = .other d → d.Valid) :
    ∃ appended, self.appendOperand operand = .ok appended ∧ appended.Valid ∧
      appended.room = self.room.append growCapacity (operand.get self).length ∧
      self.cost operand = (self.room.moved (operand.get self).length, self.room.grown (operand.get self).length) := by
  obtain ⟨appended, happended, hvalid⟩ := h.appendOperand hd
  have hnull : self.rawData.isNone = true → self.length = 0 ∧ self.capacity = 0 := fun hnone =>
    h.null (Option.isNone_iff_eq_none.mp hnone)
  refine ⟨appended, happended, hvalid, ?_, ?_⟩
  · rw [h.appendOperand_eq hd] at happended
    obtain rfl := Except.ok.inj happended
    have hlength : (if self.rawData.isNone then 0 else self.length) = self.length :=
      ite_eq_right_iff.mpr fun hnone => (hnull hnone).1.symm
    have hcapacity : (if self.rawData.isNone then 0 else self.capacity) = self.capacity :=
      ite_eq_right_iff.mpr fun hnone => (hnull hnone).2.symm
    unfold Data.append Room.append room
    rw [hlength, hcapacity]
    dsimp only
    split <;> rfl
  · unfold cost Room.moved Room.grown
    rw [h.normalized]
    by_cases hmore : self.room.capacity < self.room.length + (operand.get self).length
    · rw [if_pos hmore, if_pos hmore]
      exact if_pos hmore
    · rw [if_neg hmore, if_neg hmore]
      exact if_neg hmore

/-- The contents have room in the capacity. -/
theorem Valid.length_le_capacity {self : Data} (h : self.Valid) : self.length ≤ self.capacity := by
  cases hraw : self.rawData with
  | none => exact (h.null hraw).1.le.trans (Nat.zero_le _)
  | some buffer => exact (h.allocated buffer hraw).2

/-- What has been spent stays paid for. -/
theorem Valid.paid_appendAll {self : Data} (h : self.Valid) {operands : List Operand}
    (hd : ∀ d, .other d ∈ operands → d.Valid) {start moved grown : Nat} (hpaid : Paid start self.room moved grown) :
    ∃ last moved' grown', self.appendAll operands = .ok (last, moved', grown') ∧
      Paid start last.room (moved + moved') (grown + grown') := by
  induction operands generalizing self moved grown with
  | nil => exact ⟨self, 0, 0, rfl, hpaid⟩
  | cons d ds ih =>
    obtain ⟨appended, happended, hvalid, hroom, hcost⟩ :=
      h.room_appendOperand fun d' hd' => hd d' (hd' ▸ List.mem_cons_self)
    have hnext := hpaid.append policy_growCapacity (d.get self).length
    rw [← hroom] at hnext
    obtain ⟨last, moved', grown', hlast, hpaid'⟩ :=
      ih hvalid (fun d' hd' => hd d' (List.mem_cons_of_mem d hd')) hnext
    refine ⟨last, (self.cost d).1 + moved', (self.cost d).2 + grown', ?_, ?_⟩
    · rw [appendAll, happended]
      show (do
        let (last, moved, grown) ← appended.appendAll ds
        pure (last, (self.cost d).1 + moved, (self.cost d).2 + grown)) = _
      rw [hlast]
      rfl
    · rw [hcost, ← Nat.add_assoc, ← Nat.add_assoc]
      exact hpaid'

/-- **Appending is linear.** Appending any objects to a valid one, itself among them, moves at most four bytes for each
byte of the result, in a number of allocations that is logarithmic in the capacity; the capacity is at most twice the
length, unless it has been larger from the start. It is what the code does as long as the result has no more than
`22369621 * 2 ^ 38` bytes. -/
theorem appendAll_linear {self : Data} (h : self.Valid) (operands : List Operand)
    (hd : ∀ d, .other d ∈ operands → d.Valid) :
    ∃ last moved grown, self.appendAll operands = .ok (last, moved, grown) ∧ moved ≤ 4 * last.length ∧
      (0 < grown → 4 ^ grown ≤ 2 * 3 ^ grown * last.capacity) ∧
      last.capacity ≤ max self.capacity (2 * last.length) := by
  obtain ⟨last, moved, grown, hlast, hpaid⟩ := h.paid_appendAll hd (.start h.length_le_capacity)
  rw [Nat.zero_add, Nat.zero_add] at hpaid
  exact ⟨last, moved, grown, hlast, hpaid.byLength, hpaid.allocations, hpaid.overhead⟩

/-- Two objects and the result itself, appended to an empty one. -/
theorem appendAll_linear_abc :
    ∃ last moved grown, ({} : Data).appendAll [.other (ofBytes (bytes "ab")), .other (ofBytes (bytes "c")), .this] =
        .ok (last, moved, grown) ∧ moved ≤ 4 * last.length ∧
      (0 < grown → 4 ^ grown ≤ 2 * 3 ^ grown * last.capacity) ∧ last.capacity ≤ max 0 (2 * last.length) := by
  refine appendAll_linear valid_default _ fun d hd => ?_
  have hvalid (data : Bytes) : (ofBytes data).Valid := valid_construct (.bytes data)
  rcases List.mem_cons.mp hd with hd | hd
  · rw [Operand.other.inj hd]
    exact hvalid _
  · rcases List.mem_cons.mp hd with hd | hd
    · rw [Operand.other.inj hd]
      exact hvalid _
    · simp at hd

end Data

end HttpRequest
