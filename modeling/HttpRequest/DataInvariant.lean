import HttpRequest.GrowCapacity
import HttpRequest.Model.DataOps

/-! # The representation invariant of `Data`

The pointer, the length and the capacity of a `Data` agree (`Data.Valid`): without an allocation both
numbers are zero, and with one the capacity is its size and the length stays below. Under the invariant no
operation commits a memory error. Every operation keeps it but one: an assignment that moves from another
object leaves the numbers of that object behind without their allocation. Runs are sound exactly when they
move by assignment only from objects that have no capacity to lose (`runsSoundly_iff`). -/

namespace HttpRequest

namespace Data

/-! ### The invariant -/

/-- **The representation invariant.** -/
structure Valid (d : Data) : Prop where
  null : d.rawData = none → d.length = 0 ∧ d.capacity = 0
  allocated : ∀ buffer, d.rawData = some buffer → buffer.length = d.capacity ∧ d.length ≤ d.capacity

/-- An object without a buffer is valid. -/
theorem valid_default : Valid {} := ⟨fun _ => ⟨rfl, rfl⟩, fun _ h => by cases h⟩

/-- A buffer with its own length as capacity. -/
theorem valid_some {capacity length : Nat} {buffer : Bytes} (hcapacity : buffer.length = capacity)
    (hlength : length ≤ capacity) : Valid ⟨capacity, length, some buffer⟩ := by
  refine ⟨fun h => (by cases h), ?_⟩
  rintro _ ⟨⟩
  exact ⟨hcapacity, hlength⟩

/-- A valid object can be viewed. -/
theorem Valid.readable {self : Data} (h : self.Valid) : self.Readable := by
  unfold Readable
  cases hraw : self.rawData with
  | none => exact (h.null hraw).1.le
  | some buffer =>
    obtain ⟨hcapacity, hlength⟩ := h.allocated buffer hraw
    exact hcapacity ▸ hlength

/-- Two valid objects are equal exactly when their views are. -/
theorem Valid.equals_iff {self data : Data} (h : self.Valid) (h' : data.Valid) :
    self.equals data = true ↔ self.view = data.view := by
  unfold equals
  rw [Bool.and_eq_true, beq_iff_eq, beq_iff_eq, and_iff_right_iff_imp]
  intro hview
  rw [← length_view h.readable, hview, length_view h'.readable]

/-! ### Memory accesses -/

/-- Bytes in use can be read. -/
theorem Valid.load {self : Data} (h : self.Valid) {pos count : Nat}
    (hle : pos + count ≤ self.length) :
    ∃ src, load self.rawData pos count = .ok src ∧ src.length = count := by
  unfold Data.load
  by_cases hcount : count = 0
  · exact ⟨[], by rw [if_pos hcount], hcount.symm⟩
  · rw [if_neg hcount]
    cases hraw : self.rawData with
    | none =>
      have hzero := (h.null hraw).1
      omega
    | some buffer =>
      obtain ⟨hcapacity, hlength⟩ := h.allocated buffer hraw
      have hroom : pos + count ≤ buffer.length := by omega
      refine ⟨_, if_pos hroom, ?_⟩
      rw [List.length_take, List.length_drop]
      omega

/-- A write inside an allocation does not change its size. -/
theorem length_writeAt_of_le {buffer src : Bytes} {pos : Nat} (h : pos + src.length ≤ buffer.length) :
    (writeAt buffer pos src).length = buffer.length := by
  simp only [writeAt, List.length_append, List.length_take, List.length_drop]
  omega

/-- Bytes can be written where there is room. -/
theorem store_some (buffer src : Bytes) (pos : Nat) (h : pos + src.length ≤ buffer.length) :
    ∃ buffer', store (some buffer) pos src = .ok (some buffer') ∧ buffer'.length = buffer.length := by
  unfold store
  split
  · exact ⟨buffer, rfl, rfl⟩
  · exact ⟨_, if_pos h, length_writeAt_of_le h⟩

/-- Bytes in use can be copied to where there is room. -/
theorem Valid.transfer {d : Data} (h : d.Valid) (pos count offset : Nat) (target : Bytes)
    (hle : pos + count ≤ d.length) (hroom : offset + count ≤ target.length) :
    ∃ buffer, Data.transfer d.rawData pos count (some target) offset = .ok (some buffer) ∧
      buffer.length = target.length := by
  obtain ⟨src, hload, hsrc⟩ := h.load hle
  obtain ⟨buffer, hstore, hbuffer⟩ := store_some target src offset (by omega)
  refine ⟨buffer, ?_, hbuffer⟩
  unfold Data.transfer
  rw [hload]
  exact hstore

/-- Bytes in use can be copied to a new allocation of sufficient size. -/
theorem Valid.transfer_allocate {d : Data} (h : d.Valid) (pos count size : Nat)
    (hle : pos + count ≤ d.length) (hroom : count ≤ size) :
    ∃ buffer, Data.transfer d.rawData pos count (some (allocate size)) 0 = .ok (some buffer) ∧
      buffer.length = size := by
  have hlen : (allocate size).length = size := List.length_replicate
  obtain ⟨buffer, htransfer, hbuffer⟩ := h.transfer pos count 0 (allocate size) hle
    (by rw [hlen]; omega)
  exact ⟨buffer, htransfer, hbuffer.trans hlen⟩

/-! ### The operations on valid objects

Each of them returns, and returns valid objects. -/

/-- The constructors make valid objects. -/
theorem valid_construct (init : Init) : (construct init).Valid := by
  cases init with
  | default => exact valid_default
  | bytes data => exact valid_some rfl (Nat.le_refl _)
  | size size => exact valid_some List.length_replicate (Nat.zero_le _)
  | fill size func =>
    exact valid_some ((func.2 _).trans List.length_replicate) (Nat.zero_le _)

/-- The copy constructor makes a valid object of a valid one, without a fault. -/
theorem Valid.copyConstruct {data : Data} (h : data.Valid) :
    ∃ copied, data.copyConstruct = .ok copied ∧ copied.Valid := by
  have hroom : data.length ≤ data.capacity := by
    cases hraw : data.rawData with
    | none => exact (h.null hraw).1.le.trans (Nat.zero_le _)
    | some buffer => exact (h.allocated buffer hraw).2
  obtain ⟨buffer, htransfer, hbuffer⟩ :=
    h.transfer_allocate 0 data.length data.capacity (by omega) hroom
  refine ⟨⟨data.capacity, data.length, some buffer⟩, ?_, valid_some hbuffer hroom⟩
  unfold Data.copyConstruct
  rw [htransfer]
  rfl

/-- `copy` makes a valid object of a valid one, without a fault. -/
theorem Valid.copyRange {self : Data} (h : self.Valid) (pos : Nat) (len : Int) :
    ∃ copied, self.copyRange pos len = .ok copied ∧ copied.Valid := by
  unfold Data.copyRange
  split
  · exact ⟨{}, rfl, valid_default⟩
  · next hcond =>
    have hpos : pos < self.length := by
      simp only [Bool.or_eq_true, not_or, decide_eq_true_eq] at hcond
      omega
    dsimp only
    generalize (if len < 0 then self.length - pos else len.toNat) = resLen
    obtain ⟨buffer, htransfer, hbuffer⟩ := h.transfer_allocate pos
      (min (pos + resLen) self.length - pos) (min resLen (self.length - pos)) (by omega) (by omega)
    rw [htransfer]
    exact ⟨_, rfl, valid_some hbuffer (Nat.le_refl _)⟩

/-- `resetData` makes no fault. -/
theorem Valid.resetData {self : Data} (h : self.Valid) :
    ∃ reset, self.resetData = .ok reset ∧ reset.Valid := by
  unfold Data.resetData
  cases hraw : self.rawData with
  | none => exact ⟨_, rfl, fun _ => ⟨rfl, (h.null hraw).2⟩, fun buffer hbuffer => by cases hbuffer⟩
  | some buffer =>
    obtain ⟨hcapacity, -⟩ := h.allocated buffer hraw
    have hlen : (allocate self.capacity).length = self.capacity := List.length_replicate
    obtain ⟨buffer', hstore, hbuffer'⟩ := store_some buffer (allocate self.capacity) 0
      (by omega)
    dsimp only
    rw [hstore]
    exact ⟨_, rfl, valid_some (by omega) (Nat.zero_le _)⟩

/-- `resize` makes no fault. -/
theorem Valid.resize {self : Data} (h : self.Valid) (size : Nat) :
    ∃ resized, self.resize size = .ok resized ∧ resized.Valid := by
  unfold Data.resize
  split
  · exact ⟨{}, rfl, valid_default⟩
  split
  · exact ⟨self, rfl, h⟩
  · obtain ⟨buffer, htransfer, hbuffer⟩ := h.transfer_allocate 0 (min size self.length) size
      (by omega) (by omega)
    dsimp only
    rw [htransfer]
    exact ⟨_, rfl, valid_some hbuffer (Nat.min_le_left _ _)⟩

/-- Making room keeps the length and leaves enough capacity. -/
theorem Valid.reserve {self : Data} (h : self.Valid) (expectLength : Nat)
    (hle : self.length ≤ expectLength) :
    ∃ grown, self.reserve expectLength = .ok grown ∧ grown.Valid ∧ grown.length = self.length ∧
      expectLength ≤ grown.capacity := by
  have hgrow := le_growCapacity expectLength
  unfold Data.reserve
  split
  · cases hraw : self.rawData with
    | none => exact ⟨_, rfl, valid_some List.length_replicate (by omega), rfl, hgrow⟩
    | some buffer =>
      obtain ⟨buffer', htransfer, hbuffer'⟩ := h.transfer_allocate 0 self.length
        (growCapacity expectLength) (by omega) (by omega)
      rw [hraw] at htransfer
      dsimp only
      rw [htransfer]
      exact ⟨_, rfl, valid_some hbuffer' (by omega), rfl, hgrow⟩
  · exact ⟨self, rfl, h, rfl, by omega⟩

/-- A valid argument of `append` is valid in every valid state of the object. -/
theorem Operand.valid_get {operand : Operand} {self : Data}
    (hd : ∀ d, operand = .other d → d.Valid) (h : self.Valid) : (operand.get self).Valid := by
  cases operand with
  | this => exact h
  | other d => exact hd d rfl

/-- The length of the argument depends on the length of the object at most. -/
theorem Operand.length_get {operand : Operand} {self grown : Data}
    (h : grown.length = self.length) : (operand.get grown).length = (operand.get self).length := by
  cases operand with
  | this => exact h
  | other d => rfl

/-- Without an allocation there is nothing to set to zero in front of `append`. -/
theorem Valid.normalized {self : Data} (h : self.Valid) :
    (if self.rawData.isNone then { self with length := 0, capacity := 0 } else self) = self := by
  split
  · next hnone =>
    obtain ⟨hlength, hcapacity⟩ := h.null (Option.isNone_iff_eq_none.mp hnone)
    cases self with
    | mk capacity length rawData =>
      dsimp only at hlength hcapacity ⊢
      rw [hlength, hcapacity]
  · rfl

/-- `append` makes no fault, whether it is given another object or the object itself. -/
theorem Valid.appendOperand {self : Data} (h : self.Valid) {operand : Operand}
    (hd : ∀ d, operand = .other d → d.Valid) :
    ∃ appended, self.appendOperand operand = .ok appended ∧ appended.Valid := by
  unfold Data.appendOperand
  rw [h.normalized]
  dsimp only
  obtain ⟨grown, hreserve, hgrown, hlength, hroom⟩ :=
    h.reserve (self.length + (operand.get self).length) (by omega)
  have hoperand := Operand.valid_get hd hgrown
  have hcount : (operand.get grown).length = (operand.get self).length := Operand.length_get hlength
  rw [hreserve]
  show ∃ appended, (do
    let rawData ← Data.transfer (operand.get grown).rawData 0 (operand.get grown).length
      grown.rawData grown.length
    pure { grown with length := self.length + (operand.get self).length, rawData }) = .ok appended ∧ _
  cases hraw : grown.rawData with
  | none =>
    -- without an allocation nothing is appended
    obtain ⟨-, hcapacity⟩ := hgrown.null hraw
    have hnone : Data.transfer (operand.get grown).rawData 0 (operand.get grown).length none
        grown.length = .ok none := by
      unfold Data.transfer Data.load
      rw [if_pos (by omega)]
      rfl
    rw [hnone]
    exact ⟨_, rfl, fun _ => ⟨by dsimp only; omega, hcapacity⟩, fun _ hsome => by cases hsome⟩
  | some buffer =>
    obtain ⟨hcapacity, -⟩ := hgrown.allocated buffer hraw
    obtain ⟨buffer', htransfer, hbuffer'⟩ := hoperand.transfer 0 (operand.get grown).length
      grown.length buffer (by omega) (by omega)
    rw [htransfer]
    exact ⟨_, rfl, valid_some (by omega) hroom⟩

/-! ### The unchecked operations

On valid objects, `append` and `copy` of the model of the receiver are the operations with their memory
accesses. -/

/-- Reading bytes in use. -/
theorem Valid.load_eq {d : Data} (h : d.Valid) {pos count : Nat} (hle : pos + count ≤ d.length) :
    Data.load d.rawData pos count = .ok (((d.rawData.getD []).drop pos).take count) := by
  obtain ⟨src, hload, hsrc⟩ := h.load hle
  unfold Data.load at hload ⊢
  split
  · next hzero => rw [hzero, List.take_zero]
  · next hcount =>
    rw [if_neg hcount] at hload
    cases hraw : d.rawData with
    | none =>
      rw [hraw] at hload
      cases hload
    | some buffer =>
      obtain ⟨hcapacity, hlength⟩ := h.allocated buffer hraw
      exact if_pos (by omega)

/-- Writing where there is room. -/
theorem store_eq {buffer src : Bytes} {pos : Nat} (h : pos + src.length ≤ buffer.length) :
    store (some buffer) pos src = .ok (some (writeAt buffer pos src)) := by
  unfold store
  split
  · next hempty =>
    rw [List.isEmpty_iff.mp hempty, writeAt, List.append_nil, List.length_nil, Nat.add_zero,
      List.take_append_drop]
  · exact if_pos h

/-- `std::copy` writes the bytes it has read, where both ranges lie inside. -/
theorem Valid.transfer_eq {d : Data} (h : d.Valid) (pos count offset : Nat) (target : Bytes)
    (hle : pos + count ≤ d.length) (hroom : offset + count ≤ target.length) :
    Data.transfer d.rawData pos count (some target) offset =
      .ok (some (writeAt target offset (((d.rawData.getD []).drop pos).take count))) := by
  obtain ⟨src, hload, hsrc⟩ := h.load hle
  rw [h.load_eq hle, Except.ok.injEq] at hload
  unfold Data.transfer
  rw [h.load_eq hle]
  exact store_eq (by rw [hload]; omega)

/-- An object with room for more bytes, in a new allocation. -/
def grown (self : Data) (expectLength : Nat) : Data where
  capacity := growCapacity expectLength
  length := self.length
  rawData := some (writeAt (allocate (growCapacity expectLength)) 0 self.contents)

/-- The contents have the length that is stored. -/
theorem Valid.length_contents {self : Data} (h : self.Valid) : self.contents.length = self.length := by
  rw [← view_eq_contents, length_view h.readable]

/-- The object stays valid in its new allocation. -/
theorem Valid.grown {self : Data} (h : self.Valid) {expectLength : Nat} (hle : self.length ≤ expectLength) :
    (self.grown expectLength).Valid := by
  have hroom := le_growCapacity expectLength
  have hallocated : (allocate (growCapacity expectLength)).length = growCapacity expectLength :=
    List.length_replicate
  have hlength := h.length_contents
  refine valid_some ?_ (hle.trans hroom)
  rw [length_writeAt_of_le (by omega), hallocated]

/-- Making room keeps the bytes. -/
theorem Valid.contents_grown {self : Data} (h : self.Valid) (expectLength : Nat) :
    (self.grown expectLength).contents = self.contents := by
  have htake := take_writeAt (allocate (growCapacity expectLength)) self.contents 0 (Nat.zero_le _)
  rw [Nat.zero_add, h.length_contents, List.take_zero, List.nil_append] at htake
  exact htake

/-- Where there is too little room, `append` moves the contents to a new allocation. -/
theorem Valid.reserve_eq {self : Data} (h : self.Valid) {expectLength : Nat}
    (hle : self.length ≤ expectLength) (hgrow : self.capacity < expectLength) :
    self.reserve expectLength = .ok (self.grown expectLength) := by
  have hroom := le_growCapacity expectLength
  have hlen : (allocate (growCapacity expectLength)).length = growCapacity expectLength :=
    List.length_replicate
  unfold Data.reserve Data.grown Data.contents
  rw [if_pos hgrow]
  cases hraw : self.rawData with
  | none => rw [Option.getD_none, List.take_nil]; rfl
  | some buffer =>
    have htransfer := h.transfer_eq 0 self.length 0 (allocate (growCapacity expectLength))
      (by omega) (by omega)
    rw [hraw, List.drop_zero] at htransfer
    dsimp only
    rw [htransfer]
    rfl

/-- What the argument of `append` is copied to, when the object has kept its bytes. -/
theorem Operand.transfer_eq {operand : Operand} (self : Data) {kept : Data}
    (hd : ∀ d, operand = .other d → d.Valid) (hkept : kept.Valid) (hlength : kept.length = self.length)
    (hcontents : kept.contents = self.contents) {target : Bytes} (hraw : kept.rawData = some target)
    (hroom : self.length + (operand.get self).length ≤ target.length) :
    Data.transfer (operand.get kept).rawData 0 (operand.get kept).length kept.rawData kept.length =
      .ok (some (writeAt target self.length (operand.get self).contents)) := by
  have hsame : (operand.get kept).contents = (operand.get self).contents := by
    cases operand with
    | this => exact hcontents
    | other d => rfl
  have hcount : (operand.get kept).length = (operand.get self).length := Operand.length_get hlength
  rw [hraw, ← hsame, ← hlength]
  exact (Operand.valid_get hd hkept).transfer_eq 0 _ kept.length target (by omega) (by omega)

/-- `append` with its memory is `append` on the contents. -/
theorem Valid.appendOperand_eq {self : Data} (h : self.Valid) {operand : Operand}
    (hd : ∀ d, operand = .other d → d.Valid) :
    self.appendOperand operand = .ok (self.append (operand.get self)) := by
  have hlength : (if self.rawData.isNone then 0 else self.length) = self.length := by
    split
    · next hnone => exact (h.null (Option.isNone_iff_eq_none.mp hnone)).1.symm
    · rfl
  have hcapacity : (if self.rawData.isNone then 0 else self.capacity) = self.capacity := by
    split
    · next hnone => exact (h.null (Option.isNone_iff_eq_none.mp hnone)).2.symm
    · rfl
  unfold Data.appendOperand Data.append
  rw [h.normalized, hlength, hcapacity]
  dsimp only
  by_cases hroom : self.capacity < self.length + (operand.get self).length
  · have hle := Nat.le_add_right self.length (operand.get self).length
    obtain ⟨hbuffer, -⟩ := (h.grown hle).allocated _ rfl
    have htransfer := Operand.transfer_eq self hd (h.grown hle) rfl (h.contents_grown _) rfl
      ((le_growCapacity _).trans hbuffer.ge)
    rw [if_pos hroom, h.reserve_eq hle hroom]
    show Data.transfer (operand.get (self.grown _)).rawData 0 _ _ _ >>= _ = _
    rw [htransfer]
    rfl
  · rw [if_neg hroom, Data.reserve, if_neg hroom]
    show Data.transfer (operand.get self).rawData 0 (operand.get self).length _ _ >>= _ = _
    cases hraw : self.rawData with
    | none =>
      -- without an allocation there is nothing to append
      obtain ⟨hnolength, hnocapacity⟩ := h.null hraw
      have hzero : (operand.get self).length = 0 := by omega
      rw [hzero]
      rfl
    | some buffer =>
      obtain ⟨hsize, -⟩ := h.allocated buffer hraw
      rw [← hraw, Operand.transfer_eq self hd h rfl rfl hraw (by omega), hraw]
      rfl

end Data

/-! ### Runs -/

section

variable {ι : Type} [DecidableEq ι]

/-- What has to hold of the objects of a program at all times. -/
structure Sound (objects : DataStore ι) : Prop where
  valid : ∀ i, (objects i).Valid
  equals : ∀ i j, (objects i).equals (objects j) = true ↔ (objects i).view = (objects j).view

/-- **A run that is sound at all times**: no operation commits a memory error, and the objects are sound in
front of and behind every one of them. -/
def RunsSoundly : DataStore ι → List (DataOp ι) → Prop
  | objects, [] => Sound objects
  | objects, op :: ops => Sound objects ∧ ∃ next, op.step objects = .ok next ∧ RunsSoundly next ops

/-- An operation that does not move by assignment from another object that has capacity. -/
def DataOp.LosesNothing (objects : DataStore ι) : DataOp ι → Prop
  | .moveAssign self data => data = self ∨ (objects data).capacity = 0
  | _ => True

/-- A run of such operations. -/
def LosesNothing : DataStore ι → List (DataOp ι) → Prop
  | _, [] => True
  | objects, op :: ops =>
    op.LosesNothing objects ∧ ∀ next, op.step objects = .ok next → LosesNothing next ops

omit [DecidableEq ι] in
/-- Valid objects are sound. -/
theorem sound_of_valid {objects : DataStore ι} (h : ∀ i, (objects i).Valid) : Sound objects :=
  ⟨h, fun i j => (h i).equals_iff (h j)⟩

/-- Changing one object for a valid one. -/
theorem Sound.update {objects : DataStore ι} (h : Sound objects) (i : ι) {d : Data} (hd : d.Valid) :
    Sound (Function.update objects i d) := by
  refine sound_of_valid fun j => ?_
  by_cases hij : j = i
  · rw [hij, Function.update_self]
    exact hd
  · rw [Function.update_of_ne hij]
    exact h.valid j

/-- The argument of `append` is valid. -/
theorem Sound.operand {objects : DataStore ι} (h : Sound objects) (self d : ι) (data : Data)
    (hdata : DataOp.operand objects self d = .other data) : data.Valid := by
  unfold DataOp.operand at hdata
  split at hdata
  · cases hdata
  · cases hdata
    exact h.valid d

omit [DecidableEq ι] in
/-- An operation that returns a valid object, which is given a name. -/
theorem exists_sound_bind {operation : Except MemoryError Data}
    (hop : ∃ d, operation = .ok d ∧ d.Valid) (f : Data → DataStore ι)
    (hf : ∀ d, d.Valid → Sound (f d)) :
    ∃ next, (do let d ← operation; pure (f d)) = Except.ok next ∧ Sound next := by
  obtain ⟨d, rfl, hd⟩ := hop
  exact ⟨f d, rfl, hf d hd⟩

/-- What is left of an object that was moved from by assignment is valid exactly when the object had no
capacity. -/
theorem valid_moveAssign_iff {d : Data} (h : d.Valid) : d.moveAssign.2.Valid ↔ d.capacity = 0 := by
  unfold Data.moveAssign
  constructor
  · exact fun hleft => (hleft.null rfl).2
  · intro hcapacity
    refine ⟨fun _ => ⟨?_, hcapacity⟩, fun _ hsome => by cases hsome⟩
    cases hraw : d.rawData with
    | none => exact (h.null hraw).1
    | some buffer => exact Nat.le_zero.mp (hcapacity ▸ (h.allocated buffer hraw).2)

/-- An operation that loses nothing commits no memory error and keeps the objects sound. -/
theorem Sound.step {objects : DataStore ι} (h : Sound objects) {op : DataOp ι}
    (hop : op.LosesNothing objects) : ∃ next, op.step objects = .ok next ∧ Sound next := by
  cases op with
  | construct res init => exact ⟨_, rfl, h.update res (Data.valid_construct init)⟩
  | copyConstruct res data =>
    exact exists_sound_bind (h.valid data).copyConstruct _ fun _ hd => h.update res hd
  | moveConstruct res data =>
    exact ⟨_, rfl, (h.update data Data.valid_default).update res (h.valid data)⟩
  | copyAssign self data =>
    by_cases hself : data = self
    · rw [DataOp.step, if_pos hself]
      exact ⟨objects, rfl, h⟩
    · rw [DataOp.step, if_neg hself]
      exact exists_sound_bind (h.valid data).copyConstruct _ fun _ hd => h.update self hd
  | moveAssign self data =>
    by_cases hself : data = self
    · rw [DataOp.step, if_pos hself]
      exact ⟨objects, rfl, h⟩
    · have hleft := (valid_moveAssign_iff (h.valid data)).mpr (hop.resolve_left hself)
      rw [DataOp.step, if_neg hself]
      exact ⟨_, rfl, (h.update data hleft).update self (h.valid data)⟩
  | copyAll res self =>
    exact exists_sound_bind ((h.valid self).copyRange _ _) _ fun _ hd => h.update res hd
  | copy res self pos len =>
    exact exists_sound_bind ((h.valid self).copyRange _ _) _ fun _ hd => h.update res hd
  | append self d =>
    exact exists_sound_bind ((h.valid self).appendOperand (h.operand self d)) _ fun _ hd =>
      h.update self hd
  | appendOwned self appendData =>
    exact exists_sound_bind ((h.valid self).appendOperand (h.operand self appendData)) _ fun _ hd =>
      (h.update appendData Data.valid_default).update self hd
  | add res self data =>
    obtain ⟨copied, hcopy, hcopied⟩ := (h.valid self).copyConstruct
    have hdata : ∀ d, Data.Operand.other (objects data) = .other d → d.Valid := by
      rintro _ ⟨⟩
      exact h.valid data
    rw [DataOp.step, hcopy]
    exact exists_sound_bind (hcopied.appendOperand hdata) _ fun _ hd => h.update res hd
  | addAssign self data =>
    exact exists_sound_bind ((h.valid self).appendOperand (h.operand self data)) _ fun _ hd =>
      h.update self hd
  | resize self size =>
    exact exists_sound_bind ((h.valid self).resize size) _ fun _ hd => h.update self hd
  | resetData self =>
    exact exists_sound_bind (h.valid self).resetData _ fun _ hd => h.update self hd
  | destroy self => exact ⟨_, rfl, h.update self Data.valid_default⟩
  | detachData res self =>
    exact ⟨_, rfl, (h.update self Data.valid_default).update res (h.valid self)⟩

/-- An operation between sound objects loses nothing. -/
theorem losesNothing_of_sound {objects next : DataStore ι} (h : Sound objects) {op : DataOp ι}
    (hstep : op.step objects = .ok next) (hnext : Sound next) : op.LosesNothing objects := by
  cases op with
  | moveAssign self data =>
    by_cases hne : data = self
    · exact .inl hne
    · rw [DataOp.step, if_neg hne] at hstep
      have hleft := hnext.valid data
      rw [← Except.ok.inj hstep, Function.update_of_ne hne, Function.update_self] at hleft
      exact .inr ((valid_moveAssign_iff (h.valid data)).mp hleft)
  | _ => trivial

/-- **A run of operations from fresh objects is sound at all times exactly when it never moves by
assignment from another object that has capacity.** -/
theorem runsSoundly_iff (ops : List (DataOp ι)) :
    RunsSoundly (fun _ : ι => {}) ops ↔ LosesNothing (fun _ : ι => {}) ops := by
  have hrun (objects : DataStore ι) (h : Sound objects) :
      RunsSoundly objects ops ↔ LosesNothing objects ops := by
    induction ops generalizing objects with
    | nil => exact ⟨fun _ => trivial, fun _ => h⟩
    | cons op ops ih =>
      constructor
      · rintro ⟨-, next, hstep, hrest⟩
        have hnext : Sound next := by
          cases ops with
          | nil => exact hrest
          | cons op' ops => exact hrest.1
        refine ⟨losesNothing_of_sound h hstep hnext, fun next' hstep' => ?_⟩
        obtain rfl : next = next' := Except.ok.inj (hstep.symm.trans hstep')
        exact (ih next hnext).mp hrest
      · rintro ⟨hop, hrest⟩
        obtain ⟨next, hstep, hnext⟩ := h.step hop
        exact ⟨h, next, hstep, (ih next hnext).mpr (hrest next hstep)⟩
  exact hrun _ (sound_of_valid fun _ => Data.valid_default)

end

/-- The object moved from keeps its length of two bytes without an allocation, and a copy of it reads
through the null pointer. -/
theorem not_runsSoundly_moveAssign :
    ¬RunsSoundly (fun _ : Fin 3 => {})
        [.construct 0 (.bytes (bytes "ab")), .moveAssign 1 0, .copyConstruct 2 0] ∧
      (do
        let objects ← DataOp.step (fun _ : Fin 3 => {}) (.construct 0 (.bytes (bytes "ab")))
        let objects ← DataOp.step objects (.moveAssign 1 0)
        DataOp.step objects (.copyConstruct 2 0)) = .error .nullPointer := by
  refine ⟨?_, by rfl⟩
  rintro ⟨-, _, ⟨⟩, -, _, ⟨⟩, -, _, hstep, -⟩
  cases hstep

end HttpRequest
