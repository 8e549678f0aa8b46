import HttpRequest.DataInvariant
import HttpRequest.Model.Words

/-! # Slices of `Data`

`Data::copy(pos, len)` finds the bounds of its range twice, in unsigned words and from a signed length. As long as
a signed word can count the contents, both agree with the exact numbers and no sum wraps, so that the copy is a
slice (`copyWords_eq`). Two copies that meet are joined by `append` to what they were cut from, if the capacity that
`append` asks for has a representation in its type (`Valid.appendWords_eq`, `Valid.appendWords_overflow`). -/

namespace HttpRequest

open Foundations

namespace Data

/-! ### Slices of a byte string -/

/-- The bytes `[pos, min(pos + len, length))`, where a negative length asks for all behind `pos`. -/
def slice (contents : Bytes) (pos : UInt64) (len : Int64) : Bytes :=
  let last := if len < 0 then contents.length else min (pos.toNat + len.toInt.toNat) contents.length
  (contents.take last).drop pos.toNat

variable {contents : Bytes} {pos : UInt64} {len : Int64}

/-- A slice of no length, or from behind the end, is empty. -/
theorem slice_eq_nil (h : len = 0 ∨ contents.length ≤ pos.toNat) : slice contents pos len = [] := by
  unfold slice
  apply List.drop_eq_nil_of_le
  rw [List.length_take]
  rcases h with rfl | hpos
  · -- a length of zero ends the slice at `pos`
    show min (min (pos.toNat + 0) contents.length) contents.length ≤ pos.toNat
    omega
  · omega

/-- A slice from the start is a front. -/
theorem slice_front {k : Nat} (hk : k < 2 ^ 63) : slice contents 0 (Int64.ofNat k) = contents.take k := by
  have hnonneg : ¬Int64.ofNat k < 0 := Int64.not_lt.mpr (Int64.zero_le_ofNat_of_lt hk)
  unfold slice
  rw [if_neg hnonneg, Int64.toInt_ofNat_of_lt hk, Int.toNat_natCast, UInt64.toNat_zero, Nat.zero_add,
    List.drop_zero, List.take_eq_take_iff]
  omega

/-- A slice to the end is what is left behind a front. -/
theorem slice_back {k : Nat} (hk : k < 2 ^ 63) : slice contents (UInt64.ofNat k) (-1) = contents.drop k := by
  unfold slice
  rw [if_pos (by decide), UInt64.toNat_ofNat_of_lt' (hk.trans (by decide))]
  dsimp only
  rw [List.take_length]

/-! ### Copies -/

/-- A new object that holds a slice. Nothing is allocated for an empty one. -/
def ofSlice (contents : Bytes) : Data := if contents = [] then {} else ofBytes contents

/-- A slice makes a valid object. -/
theorem valid_ofSlice (contents : Bytes) : (ofSlice contents).Valid := by
  unfold ofSlice
  split
  · exact valid_default
  · exact valid_some rfl le_rfl

/-- The object of a slice shows the slice. -/
theorem view_ofSlice (contents : Bytes) : (ofSlice contents).view = contents := by
  unfold ofSlice
  split
  · next hnil => rw [hnil, view_default]
  · exact view_ofBytes contents

/-- Its length is that of the slice. -/
theorem length_ofSlice (contents : Bytes) : (ofSlice contents).length = contents.length := by
  unfold ofSlice
  split
  · next hnil => rw [hnil, List.length_nil]
  · rfl

/-- Its capacity, too. -/
theorem capacity_ofSlice (contents : Bytes) : (ofSlice contents).capacity = contents.length := by
  unfold ofSlice
  split
  · next hnil => rw [hnil, List.length_nil]
  · rfl

/-- **Contents that a signed word can count**, in a buffer that holds them. An object that has been moved from has no
contents, whatever its length says. -/
structure Countable (d : Data) : Prop where
  allocated : ∀ buffer, d.rawData = some buffer → d.length ≤ buffer.length
  representable : d.view.length < 2 ^ 63

variable {self : Data}

/-- Contents are as long as the object says, unless it has been moved from. -/
theorem Countable.length_view (h : self.Countable) {buffer : Bytes} (hraw : self.rawData = some buffer) :
    self.view.length = self.length := by
  refine Data.length_view ?_
  rw [Readable, hraw]
  exact h.allocated buffer hraw

/-- The length survives its conversion to a word. -/
theorem Countable.toNat_ofNat (h : self.Countable) {buffer : Bytes} (hraw : self.rawData = some buffer) :
    (UInt64.ofNat self.length).toNat = self.length := by
  have hlength := h.length_view hraw
  have hcount := h.representable
  exact UInt64.toNat_ofNat_of_lt' (lt_of_lt_of_le (hlength ▸ hcount) (by decide))

/-- What `copy` returns at once for has an empty slice. -/
theorem Countable.slice_eq_nil (h : self.Countable)
    (hguard : self.empty || len == 0 || decide (UInt64.ofNat self.length ≤ pos)) : slice self.view pos len = [] := by
  apply Data.slice_eq_nil
  cases hraw : self.rawData with
  | none =>
    have hnil : self.view = [] := by rw [view, hraw]; rfl
    exact .inr (hnil ▸ Nat.zero_le _)
  | some buffer =>
    rw [h.length_view hraw]
    rw [Bool.or_eq_true, Bool.or_eq_true, beq_iff_eq, decide_eq_true_eq, UInt64.le_iff_toNat_le,
      h.toNat_ofNat hraw] at hguard
    rcases hguard with (hempty | hlen) | hpos
    · rw [empty, hraw, Option.isNone_some, Bool.false_or, beq_iff_eq] at hempty
      exact .inr (hempty ▸ Nat.zero_le _)
    · exact .inl hlen
    · exact .inr hpos

/-- Behind the guard there is an allocation, and `pos` lies inside the contents. -/
theorem Countable.inside (h : self.Countable)
    (hguard : ¬(self.empty || len == 0 || decide (UInt64.ofNat self.length ≤ pos)) = true) :
    ∃ buffer, self.rawData = some buffer ∧ len ≠ 0 ∧ pos.toNat < self.length := by
  simp only [Bool.or_eq_true, not_or, beq_iff_eq, decide_eq_true_eq, UInt64.le_iff_toNat_le, not_le] at hguard
  obtain ⟨⟨hempty, hlen⟩, hpos⟩ := hguard
  cases hraw : self.rawData with
  | none =>
    rw [empty, hraw] at hempty
    exact absurd rfl hempty
  | some buffer =>
    rw [h.toNat_ofNat hraw] at hpos
    exact ⟨buffer, rfl, hlen, hpos⟩

/-- The requested length in exact numbers. -/
theorem Countable.toNat_resLen (h : self.Countable) {buffer : Bytes} (hraw : self.rawData = some buffer)
    (len : Int64) (hpos : pos.toNat < self.length) :
    (self.resLen pos len).toNat = if len < 0 then self.length - pos.toNat else len.toInt.toNat := by
  unfold resLen
  split
  · have hle : pos ≤ UInt64.ofNat self.length := by
      rw [UInt64.le_iff_toNat_le, h.toNat_ofNat hraw]
      exact hpos.le
    rw [UInt64.toNat_sub_of_le _ _ hle, h.toNat_ofNat hraw]
  · next hlen => exact Int64.toNat_toUInt64_of_le (Int64.not_lt.mp hlen)

/-- **The sum of the position and the length does not wrap.** -/
theorem Countable.sum_lt (h : self.Countable) {buffer : Bytes} (hraw : self.rawData = some buffer)
    (len : Int64) (hpos : pos.toNat < self.length) : pos.toNat + (self.resLen pos len).toNat < 2 ^ 64 := by
  have hlength := h.length_view hraw
  have hcount := h.representable
  have hmax := len.toInt_lt
  rw [h.toNat_resLen hraw len hpos]
  split <;> omega

/-- The smaller of two words. -/
theorem toNat_min (a b : UInt64) : (min a b).toNat = min a.toNat b.toNat := by
  show (if a ≤ b then a else b).toNat = min a.toNat b.toNat
  split
  · next hle => exact (Nat.min_eq_left (UInt64.le_iff_toNat_le.mp hle)).symm
  · next hgt => exact (Nat.min_eq_right (Nat.le_of_not_le fun hle => hgt (UInt64.le_iff_toNat_le.mpr hle))).symm

/-- The end of the range in exact numbers. -/
theorem Countable.toNat_copyEnd (h : self.Countable) {buffer : Bytes} (hraw : self.rawData = some buffer)
    (len : Int64) (hpos : pos.toNat < self.length) :
    (self.copyEnd pos len).toNat = min (pos.toNat + (self.resLen pos len).toNat) self.length := by
  rw [copyEnd, toNat_min, UInt64.toNat_add, Nat.mod_eq_of_lt (h.sum_lt hraw len hpos), h.toNat_ofNat hraw]

/-- The length of the slice in terms of the requested one. -/
theorem Countable.length_slice (h : self.Countable) {buffer : Bytes} (hraw : self.rawData = some buffer) (len : Int64)
    (hpos : pos.toNat < self.length) :
    (slice self.view pos len).length = min (pos.toNat + (self.resLen pos len).toNat) self.length - pos.toNat := by
  rw [slice, List.length_drop, List.length_take, h.toNat_resLen hraw len hpos, h.length_view hraw]
  split <;> omega

/-- **Both computations of the range agree**: the end does not lie in front of the position, and as many bytes are
read as are allocated, which is the length of the slice. -/
theorem Countable.range (h : self.Countable) {buffer : Bytes} (hraw : self.rawData = some buffer) (len : Int64)
    (hpos : pos.toNat < self.length) :
    pos ≤ self.copyEnd pos len ∧
      (self.copyEnd pos len - pos).toNat = (slice self.view pos len).length ∧
      (min (self.resLen pos len) (UInt64.ofNat self.length - pos)).toNat = (slice self.view pos len).length := by
  have hslice := h.length_slice hraw len hpos
  have hend := h.toNat_copyEnd hraw len hpos
  have hle : pos ≤ self.copyEnd pos len := by
    rw [UInt64.le_iff_toNat_le, hend]
    omega
  have hinside : pos ≤ UInt64.ofNat self.length := by
    rw [UInt64.le_iff_toNat_le, h.toNat_ofNat hraw]
    exact hpos.le
  refine ⟨hle, ?_, ?_⟩
  · rw [UInt64.toNat_sub_of_le _ _ hle, hend, hslice]
  · rw [toNat_min, UInt64.toNat_sub_of_le _ _ hinside, h.toNat_ofNat hraw, hslice]
    omega

/-- The slice is read from the position on. -/
theorem take_drop_slice (contents : Bytes) (pos : UInt64) (len : Int64) :
    (contents.drop pos.toNat).take (slice contents pos len).length = slice contents pos len := by
  have hdrop (last : Nat) : (contents.take last).drop pos.toNat = (contents.drop pos.toNat).take (last - pos.toNat) :=
    List.drop_take
  unfold slice
  dsimp only
  rw [hdrop, List.length_take, ← List.take_eq_take_min]

/-- Any other slice is not empty. -/
theorem slice_ne_nil (hlen : len ≠ 0) (hpos : pos.toNat < contents.length) : slice contents pos len ≠ [] := by
  have hzero : len.toInt ≠ 0 := fun hzero => hlen (Int64.toInt_inj.mp hzero)
  have hneg : len < 0 ↔ len.toInt < 0 := Int64.lt_iff_toInt_lt
  rw [← List.length_pos_iff, slice, List.length_drop, List.length_take]
  by_cases hsign : len < 0
  · rw [if_pos hsign]
    omega
  · rw [if_neg hsign]
    rw [hneg] at hsign
    omega

/-- Bytes fill an allocation of their number. -/
theorem writeAt_allocate (src : Bytes) : writeAt (allocate src.length) 0 src = src := by
  have hlength : (allocate src.length).length ≤ 0 + src.length := by rw [allocate, List.length_replicate, Nat.zero_add]
  rw [writeAt, List.take_zero, List.nil_append, List.drop_eq_nil_of_le hlength, List.append_nil]

/-- The slice lies in the allocation from the position on. -/
theorem Countable.take_drop_buffer (h : self.Countable) {buffer : Bytes} (hraw : self.rawData = some buffer) :
    (buffer.drop pos.toNat).take (slice self.view pos len).length = slice self.view pos len := by
  have hbytes := take_drop_slice self.view pos len
  have hle : (slice self.view pos len).length ≤ self.length - pos.toNat := by
    rw [slice, List.length_drop, List.length_take, h.length_view hraw]
    omega
  have hview : self.view = buffer.take self.length := by rw [view_eq_contents, contents, hraw, Option.getD_some]
  nth_rewrite 2 [← hbytes]
  rw [hview, List.drop_take, List.take_take, Nat.min_eq_left (hview ▸ hle)]

/-- The bytes of the slice are copied to an allocation of their number. -/
theorem Countable.transfer_slice (h : self.Countable) {buffer : Bytes} (hraw : self.rawData = some buffer)
    (hlen : len ≠ 0) (hpos : pos.toNat < self.length) :
    transfer self.rawData pos.toNat (slice self.view pos len).length
      (some (allocate (slice self.view pos len).length)) 0 = .ok (some (slice self.view pos len)) := by
  have hallocated := h.allocated buffer hraw
  have hne := slice_ne_nil hlen (h.length_view hraw ▸ hpos)
  have hle := h.length_slice hraw len hpos
  have hload : load self.rawData pos.toNat (slice self.view pos len).length = .ok (slice self.view pos len) := by
    unfold load
    rw [if_neg (List.length_pos_iff.mpr hne).ne', hraw]
    dsimp only
    rw [if_pos (by omega), h.take_drop_buffer hraw]
  have hroom : 0 + (slice self.view pos len).length ≤ (allocate (slice self.view pos len).length).length := by
    rw [allocate, List.length_replicate, Nat.zero_add]
  unfold transfer
  rw [hload]
  refine (store_eq hroom).trans ?_
  rw [writeAt_allocate]

/-- **`copy` is the slice law.** -/
theorem Countable.copyWords_eq (h : self.Countable) (pos : UInt64) (len : Int64) :
    self.copyWords pos len = .ok (ofSlice (slice self.view pos len)) := by
  unfold copyWords
  split
  · next hguard => rw [h.slice_eq_nil hguard]; rfl
  · next hguard =>
    obtain ⟨buffer, hraw, hlen, hpos⟩ := h.inside hguard
    obtain ⟨hle, hcount, hsize⟩ := h.range hraw len hpos
    have hlast : ¬self.copyEnd pos len < pos := UInt64.not_lt.mpr hle
    have hne := slice_ne_nil hlen (h.length_view hraw ▸ hpos)
    dsimp only
    rw [if_neg hlast, hcount, hsize, h.transfer_slice hraw hlen hpos, ofSlice, if_neg hne]
    rfl

/-- Both guards return at once for the same arguments. -/
theorem Countable.guard_eq (h : self.Countable) (pos : UInt64) (len : Int64) :
    (self.empty || len.toInt == 0 || decide (self.length ≤ pos.toNat)) =
      (self.empty || len == 0 || decide (UInt64.ofNat self.length ≤ pos)) := by
  have hzero : (len.toInt == 0) = (len == 0) := by
    rw [Bool.eq_iff_iff, beq_iff_eq, beq_iff_eq, ← Int64.toInt_inj]
    rfl
  cases hraw : self.rawData with
  | none => rw [empty, hraw, Option.isNone_none, Bool.true_or, Bool.true_or, Bool.true_or, Bool.true_or, Bool.true_or]
  | some buffer =>
    have hpos : self.length ≤ pos.toNat ↔ UInt64.ofNat self.length ≤ pos := by
      rw [UInt64.le_iff_toNat_le, h.toNat_ofNat hraw]
    rw [hzero, decide_eq_decide.mpr hpos]

/-- **The copy in exact numbers is the same**, for contents that a signed word can count. -/
theorem Countable.copyWords_eq_copy (h : self.Countable) (pos : UInt64) (len : Int64) :
    self.copyWords pos len = .ok (self.copy pos.toNat len.toInt) := by
  rw [h.copyWords_eq, Except.ok.injEq]
  unfold copy
  rw [h.guard_eq]
  split
  · next hguard =>
    rw [h.slice_eq_nil hguard]
    rfl
  · next hguard =>
    obtain ⟨buffer, hraw, hlen, hpos⟩ := h.inside hguard
    have hlength := h.length_view hraw
    have hne := slice_ne_nil hlen (hlength ▸ hpos)
    have hslice := h.length_slice hraw len hpos
    have hresLen : (if len.toInt < 0 then self.length - pos.toNat else len.toInt.toNat) =
        (self.resLen pos len).toNat := by
      have hneg : len < 0 ↔ len.toInt < 0 := Int64.lt_iff_toInt_lt
      rw [h.toNat_resLen hraw len hpos]
      exact if_congr hneg.symm rfl rfl
    have hsize : min (self.resLen pos len).toNat (self.length - pos.toNat) =
        (slice self.view pos len).length := by omega
    have hsource : (buffer.take (min (pos.toNat + (self.resLen pos len).toNat) self.length)).drop pos.toNat =
        slice self.view pos len := by
      rw [List.drop_take, ← hslice, h.take_drop_buffer hraw]
    rw [ofSlice, if_neg hne, hraw, Option.getD_some, hresLen]
    dsimp only
    rw [hsource, hsize, writeAt_allocate]
    rfl

/-! ### Joining copies -/

/-- Making room, where the new capacity has a representation. -/
theorem reserveWords_eq {expectLength : UInt64} (hcapacity : self.capacity < 2 ^ 64)
    (hgrow : self.capacity < expectLength.toNat → growCapacity expectLength.toNat < 2 ^ 63) :
    self.reserveWords expectLength = (self.reserve expectLength.toNat).mapError .memory := by
  have hless : UInt64.ofNat self.capacity < expectLength ↔ self.capacity < expectLength.toNat := by
    rw [UInt64.lt_iff_toNat_lt, UInt64.toNat_ofNat_of_lt' hcapacity]
  unfold reserveWords reserve
  by_cases hroom : self.capacity < expectLength.toNat
  · have hfits : Fits 64 (growCapacity expectLength.toNat) :=
      (fits_iff_lt (Int.natCast_nonneg _)).mpr (mod_cast hgrow hroom)
    rw [if_pos (hless.mpr hroom), if_pos hroom, checked_of_fits hfits]
    cases hraw : self.rawData with
    | none => rfl
    | some buffer =>
      dsimp only [Bind.bind, Except.bind, Except.mapError, Int.toNat_natCast]
      cases transfer (some buffer) 0 self.length (some (allocate (growCapacity expectLength.toNat))) 0 <;> rfl
  · rw [if_neg (mt hless.mp hroom), if_neg hroom]
    rfl

/-- **Appending, where the new capacity has a representation**, if there is one. -/
theorem Valid.appendWords_eq {d : Data} (h : self.Valid) (hd : d.Valid) (hsum : self.length + d.length < 2 ^ 64)
    (hcapacity : self.capacity < 2 ^ 64)
    (hgrow : self.capacity < self.length + d.length → growCapacity (self.length + d.length) < 2 ^ 63) :
    self.appendWords d = .ok (self.append d) := by
  have hother : ∀ d', Operand.other d = .other d' → d'.Valid := by
    rintro _ ⟨⟩
    exact hd
  have hexpect : (UInt64.ofNat self.length + UInt64.ofNat d.length).toNat = self.length + d.length := by
    rw [← UInt64.ofNat_add, UInt64.toNat_ofNat_of_lt' hsum]
  obtain ⟨grown, hreserve, -⟩ := h.reserve (self.length + d.length) (Nat.le_add_right _ _)
  have hchecked : self.appendOperand (.other d) = .ok (self.append d) := h.appendOperand_eq hother
  unfold Data.appendOperand at hchecked
  unfold Data.appendWords
  rw [h.normalized] at hchecked ⊢
  dsimp only [Operand.get] at hchecked ⊢
  rw [reserveWords_eq hcapacity (hexpect.symm ▸ hgrow), hexpect, hreserve]
  rw [hreserve] at hchecked
  dsimp only [Bind.bind, Except.bind, Except.mapError] at hchecked ⊢
  cases htransfer : Data.transfer d.rawData 0 d.length grown.rawData grown.length with
  | error error =>
    rw [htransfer] at hchecked
    cases hchecked
  | ok rawData =>
    rw [htransfer] at hchecked
    rw [← Except.ok.inj hchecked]
    rfl

/-- **Appending, where the new capacity has none.** -/
theorem Valid.appendWords_overflow {d : Data} (h : self.Valid) (hsum : self.length + d.length < 2 ^ 64)
    (hroom : self.capacity < self.length + d.length)
    (hgrow : 2 ^ 63 ≤ growCapacity (self.length + d.length)) :
    self.appendWords d = .error (.undefined .unrepresentable) := by
  have hexpect : (UInt64.ofNat self.length + UInt64.ofNat d.length).toNat = self.length + d.length := by
    rw [← UInt64.ofNat_add, UInt64.toNat_ofNat_of_lt' hsum]
  have hless : UInt64.ofNat self.capacity < UInt64.ofNat self.length + UInt64.ofNat d.length := by
    rw [UInt64.lt_iff_toNat_lt, hexpect, UInt64.toNat_ofNat_of_lt' (hroom.trans hsum)]
    exact hroom
  have hover : ¬Fits 64 (growCapacity (self.length + d.length)) := by
    rw [fits_iff_lt (Int.natCast_nonneg _)]
    exact not_lt.mpr (mod_cast hgrow)
  unfold Data.appendWords Data.reserveWords
  rw [h.normalized]
  dsimp only
  rw [if_pos hless, hexpect, checked_of_not_fits hover]
  rfl

/-- Two parts of a byte string are joined to the whole, if there is room or the new capacity has a representation. -/
theorem appendWords_ofSlice (front back : Bytes) (hlength : (front ++ back).length < 2 ^ 63) :
    (∃ whole, (ofSlice front).appendWords (ofSlice back) = .ok whole ∧ whole.view = front ++ back) ↔
      back = [] ∨ (front ++ back).length ≤ 22369621 * 2 ^ 38 := by
  have hfront := valid_ofSlice front
  have hback := valid_ofSlice back
  have hsum : (ofSlice front).length + (ofSlice back).length = (front ++ back).length := by
    rw [length_ofSlice, length_ofSlice, List.length_append]
  have hcapacity : (ofSlice front).capacity = front.length := capacity_ofSlice front
  have happended : (ofSlice front).appendWords (ofSlice back) = .ok ((ofSlice front).append (ofSlice back)) →
      ∃ whole, (ofSlice front).appendWords (ofSlice back) = .ok whole ∧ whole.view = front ++ back := fun h =>
    ⟨_, h, by rw [(view_append hfront.readable hback.readable).1, view_ofSlice, view_ofSlice]⟩
  rw [List.length_append] at hlength hsum
  rw [List.length_append, ← growCapacity_lt_iff]
  constructor
  · rintro ⟨whole, hwhole, -⟩
    by_contra hneither
    obtain ⟨hmore, hlarge⟩ := not_or.mp hneither
    have hpos : 0 < back.length := List.length_pos_iff.mpr hmore
    rw [hfront.appendWords_overflow (by omega) (by omega) (hsum ▸ not_lt.mp hlarge)] at hwhole
    cases hwhole
  · intro hcases
    refine happended (hfront.appendWords_eq hback (by omega) (by omega) fun hroom => ?_)
    rw [hsum]
    rcases hcases with rfl | hsmall
    · -- nothing is appended, and there is room for that
      rw [hsum, List.length_nil] at hroom
      omega
    · exact hsmall

/-! ### The slice law -/

/-- What `copy(pos, len)` has to do. -/
structure SliceLaw (self : Data) (pos : UInt64) (len : Int64) : Prop where
  /-- It reads nothing outside the allocation, and returns the slice in an object without spare capacity. -/
  copied : ∃ res, self.copyWords pos len = .ok res ∧ res.view = slice self.view pos len ∧
    res.length = res.view.length ∧ res.length = res.capacity
  /-- Where it reads anything, it reads inside the contents, and no sum wraps. -/
  inside : self.empty = false → len ≠ 0 → pos.toNat < self.length →
    pos ≤ self.copyEnd pos len ∧ (self.copyEnd pos len).toNat ≤ self.length ∧
      pos.toNat + (self.resLen pos len).toNat < 2 ^ 64

/-- `copy(0, k)` followed by `append` of `copy(k)` restores the view. -/
def Restores (self : Data) (k : Nat) : Prop :=
  ∃ front back whole, self.copyWords 0 (Int64.ofNat k) = .ok front ∧
    self.copyWords (UInt64.ofNat k) (-1) = .ok back ∧ front.appendWords back = .ok whole ∧ whole.view = self.view

/-- `copy` gives the slice that is asked for. -/
theorem Countable.sliceLaw (h : self.Countable) (pos : UInt64) (len : Int64) : self.SliceLaw pos len := by
  refine ⟨⟨_, h.copyWords_eq pos len, view_ofSlice _, ?_, ?_⟩, ?_⟩
  · rw [length_ofSlice, view_ofSlice]
  · rw [length_ofSlice, capacity_ofSlice]
  · intro hempty _ hpos
    cases hraw : self.rawData with
    | none =>
      rw [empty, hraw] at hempty
      cases hempty
    | some buffer =>
      refine ⟨(h.range hraw len hpos).1, ?_, h.sum_lt hraw len hpos⟩
      rw [h.toNat_copyEnd hraw len hpos]
      exact Nat.min_le_right _ _

/-- When the two parts make up the whole again. -/
theorem Countable.restores_iff (h : self.Countable) {k : Nat} (hk : k < 2 ^ 63) :
    self.Restores k ↔ self.view.length ≤ k ∨ self.view.length ≤ 22369621 * 2 ^ 38 := by
  have hjoin := appendWords_ofSlice (self.view.take k) (self.view.drop k)
  rw [List.take_append_drop, List.drop_eq_nil_iff] at hjoin
  rw [← hjoin h.representable, ← slice_front hk, ← slice_back hk]
  constructor
  · rintro ⟨front, back, whole, hfront, hback, hwhole⟩
    rw [h.copyWords_eq, Except.ok.injEq] at hfront hback
    subst hfront hback
    exact ⟨whole, hwhole⟩
  · rintro ⟨whole, hwhole⟩
    exact ⟨_, _, whole, h.copyWords_eq _ _, h.copyWords_eq _ _, hwhole⟩

/-- **`copy` is the slice law** for all contents that a signed word can count. **Two copies that meet restore what
they were cut from** unless `append` has to grow beyond the capacities that a signed word can count. -/
theorem copy_slice_and_restores (self : Data)
    (hallocated : ∀ buffer, self.rawData = some buffer → self.length ≤ buffer.length)
    (hlength : self.view.length < 2 ^ 63) (pos : UInt64) (len : Int64) (k : Nat) (hk : k < 2 ^ 63) :
    self.SliceLaw pos len ∧
      (self.Restores k ↔ self.view.length ≤ k ∨ self.view.length ≤ 22369621 * 2 ^ 38) := by
  have hcountable : self.Countable := ⟨hallocated, hlength⟩
  exact ⟨hcountable.sliceLaw pos len, hcountable.restores_iff hk⟩

/-- Two of three bytes behind the first one. -/
theorem copy_slice_and_restores_abc :
    (ofBytes (bytes "abc")).SliceLaw 1 (-1) ∧
      ((ofBytes (bytes "abc")).Restores 1 ↔
        (ofBytes (bytes "abc")).view.length ≤ 1 ∨ (ofBytes (bytes "abc")).view.length ≤ 22369621 * 2 ^ 38) := by
  refine copy_slice_and_restores (ofBytes (bytes "abc")) ?_ (by decide) 1 (-1) 1 (by decide)
  rintro _ ⟨⟩
  decide

/-- Seven exabytes, cut behind the first byte: the capacity that `append` asks for has no representation. -/
theorem not_restores_append :
    (ofBytes (List.replicate (7 * 10 ^ 18) 0)).Valid ∧
      (ofBytes (List.replicate (7 * 10 ^ 18) 0)).view.length < 2 ^ 63 ∧
      ¬(ofBytes (List.replicate (7 * 10 ^ 18) 0)).Restores 1 := by
  have hvalid : (ofBytes (List.replicate (7 * 10 ^ 18) 0)).Valid := valid_some rfl le_rfl
  have hview : (ofBytes (List.replicate (7 * 10 ^ 18) 0)).view.length = 7 * 10 ^ 18 := by
    rw [view_ofBytes, List.length_replicate]
  have hlength : (ofBytes (List.replicate (7 * 10 ^ 18) 0)).view.length < 2 ^ 63 := by
    rw [hview]
    norm_num
  have hcountable : (ofBytes (List.replicate (7 * 10 ^ 18) 0)).Countable :=
    ⟨fun _ hraw => (hvalid.allocated _ hraw).1.symm ▸ (hvalid.allocated _ hraw).2, hlength⟩
  refine ⟨hvalid, hlength, ?_⟩
  rw [hcountable.restores_iff (by norm_num), hview]
  norm_num

end Data

end HttpRequest
