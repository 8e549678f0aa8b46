import Mathlib.Algebra.Order.Ring.Nat
import Mathlib.Tactic.Linarith
import Mathlib.Tactic.Ring

/-! # Growing buffers

A buffer that has to grow gets a new allocation, to which the old contents are moved. A policy says how large it is:
enough, a third larger than what is needed up to a constant, and no more than twice as large (`Policy`). Whatever is
appended, and in whatever sizes, what has been moved is then paid for by what has been appended (`Paid.append`):
linearly many bytes, in logarithmically many allocations. -/

namespace Foundations

/-- The length and the capacity of a buffer. -/
structure Room where
  length : Nat
  capacity : Nat

namespace Room

/-- A buffer behind an `append`. -/
def append (grow : Nat → Nat) (self : Room) (size : Nat) : Room where
  length := self.length + size
  capacity := if self.capacity < self.length + size then grow (self.length + size) else self.capacity

/-- The bytes that an `append` moves. -/
def moved (self : Room) (size : Nat) : Nat := if self.capacity < self.length + size then self.length else 0

/-- The allocations that an `append` makes. -/
def grown (self : Room) (size : Nat) : Nat := if self.capacity < self.length + size then 1 else 0

end Room

/-- How a buffer grows. -/
structure Policy (grow : Nat → Nat) : Prop where
  enough : ∀ n, n ≤ grow n
  generous : ∀ n, 4 * n ≤ 3 * grow n + 4
  modest : ∀ n, grow n ≤ 2 * n

/-- **What has been spent is paid for**, on a buffer that has started with a capacity. -/
structure Paid (start : Nat) (room : Room) (moved grown : Nat) : Prop where
  fits : room.length ≤ room.capacity
  byCapacity : moved ≤ 3 * room.capacity
  byLength : moved ≤ 4 * room.length
  allocations : 0 < grown → 4 ^ grown ≤ 2 * 3 ^ grown * room.capacity
  overhead : room.capacity ≤ max start (2 * room.length)

/-- Nothing has been paid before the first append. -/
theorem Paid.start {room : Room} (h : room.length ≤ room.capacity) : Paid room.capacity room 0 0 :=
  ⟨h, Nat.zero_le _, Nat.zero_le _, fun h => absurd h (Nat.lt_irrefl 0), le_max_left _ _⟩

variable {grow : Nat → Nat} {start moved grown : Nat} {room : Room}

/-- Every allocation is a third larger than the last one. -/
theorem Paid.allocations_succ (h : Paid start room moved grown) {capacity : Nat} (hpos : 0 < capacity)
    (hlarger : 4 * room.capacity ≤ 3 * capacity) : 4 ^ (grown + 1) ≤ 2 * 3 ^ (grown + 1) * capacity := by
  rcases Nat.eq_zero_or_pos grown with rfl | hgrown
  · omega
  · calc 4 ^ (grown + 1) = 4 * 4 ^ grown := pow_succ' 4 grown
      _ ≤ 4 * (2 * 3 ^ grown * room.capacity) := Nat.mul_le_mul_left 4 (h.allocations hgrown)
      _ = 2 * 3 ^ grown * (4 * room.capacity) := by ring
      _ ≤ 2 * 3 ^ grown * (3 * capacity) := Nat.mul_le_mul_left _ hlarger
      _ = 2 * 3 ^ (grown + 1) * capacity := by ring

/-- **Rule for appending**: what an `append` spends is paid for. -/
theorem Paid.append (hgrow : Policy grow) (h : Paid start room moved grown) (size : Nat) :
    Paid start (room.append grow size) (moved + room.moved size) (grown + room.grown size) := by
  have hfits := h.fits
  have hcapacity := h.byCapacity
  have hlength := h.byLength
  have hoverhead := h.overhead
  unfold Room.append Room.moved Room.grown
  by_cases hmore : room.capacity < room.length + size
  · have henough := hgrow.enough (room.length + size)
    have hgenerous := hgrow.generous (room.length + size)
    have hmodest := hgrow.modest (room.length + size)
    have hpos : 0 < grow (room.length + size) := by omega
    have hlarger : 4 * room.capacity ≤ 3 * grow (room.length + size) := by omega
    simp only [if_pos hmore]
    refine ⟨henough, ?_, ?_, fun _ => h.allocations_succ hpos hlarger, le_max_of_le_right hmodest⟩
    · dsimp only
      omega
    · dsimp only
      omega
  · simp only [if_neg hmore, Nat.add_zero]
    refine ⟨Nat.not_lt.mp hmore, hcapacity, ?_, h.allocations, ?_⟩
    · dsimp only
      omega
    · dsimp only
      omega

end Foundations
