import HttpRequest.DataInvariant

/-! # `Data` as a byte string

What a `Data` object is for is its view. Over any history of operations on an object, the view is what the same
operations make of a byte string (`refines_run`). -/

namespace HttpRequest

namespace Data

/-! ### Histories -/

/-- The operations of a history on one object. Where there is another object, it is new. -/
inductive Action
  /-- `append(*this)`. -/
  | appendSelf
  /-- `append(d)` and `operator+=`. -/
  | append (d : Init)
  /-- `operator+`, which returns a new object. -/
  | add (data : Init)
  | resize (size : Nat)
  | resetData
  | destroy
  | detachData

/-- What an operation makes of the object, and the object it returns, if it returns one. -/
def Action.step (self : Data) : Action → Except MemoryError (Data × Option Data)
  | appendSelf => do
    let appended ← self.appendOperand .this
    pure (appended, none)
  | append d => do
    let appended ← self.appendOperand (.other (construct d))
    pure (appended, none)
  | add data => do
    let copied ← self.copyConstruct
    let sum ← copied.appendOperand (.other (construct data))
    pure (self, some sum)
  | resize size => do
    let resized ← self.resize size
    pure (resized, none)
  | resetData => do
    let reset ← self.resetData
    pure (reset, none)
  | destroy => pure (self.destroy, none)
  | detachData =>
    let (detached, left) := self.detachData
    pure (left, some detached)

/-- A history: the object it leaves, and the objects its operations return. -/
def run : Data → List Action → Except MemoryError (Data × List Data)
  | self, [] => pure (self, [])
  | self, action :: actions => do
    let (next, res) ← action.step self
    let (last, results) ← run next actions
    pure (last, res.toList ++ results)

/-! ### Byte strings -/

/-- The bytes a constructor is given. -/
def Init.contents : Init → Bytes
  | .bytes data => data
  | .default | .size _ | .fill _ _ => []

/-- What an operation makes of a byte string, and the byte string it returns, if it returns one. -/
def Action.apply (contents : Bytes) : Action → Bytes × Option Bytes
  | appendSelf => (contents ++ contents, none)
  | append d => (contents ++ d.contents, none)
  | add data => (contents, some (contents ++ data.contents))
  | resize size => (contents.take size, none)
  | resetData | destroy => ([], none)
  | detachData => ([], some contents)

/-- A history on a byte string. -/
def applyAll : Bytes → List Action → Bytes × List Bytes
  | contents, [] => (contents, [])
  | contents, action :: actions =>
    let (next, res) := action.apply contents
    let (last, results) := applyAll next actions
    (last, res.toList ++ results)

/-! ### Views -/

/-- **A valid object that stands for a byte string.** -/
structure Refines (d : Data) (contents : Bytes) : Prop where
  valid : d.Valid
  view : d.view = contents

/-- A constructor makes an object of the contents it is given. -/
theorem refines_construct (init : Init) : (construct init).Refines init.contents := by
  refine ⟨valid_construct init, ?_⟩
  cases init with
  | default | size | fill => rfl
  | bytes data => exact view_ofBytes data

variable {self : Data} {contents : Bytes}

/-- The length is that of the contents. -/
theorem Refines.length (h : self.Refines contents) : self.length = contents.length := by
  rw [← h.view, length_view h.valid.readable]

/-- The first bytes of an allocation. -/
theorem Refines.take (h : self.Refines contents) {n : Nat} (hn : n ≤ self.length) :
    ((self.rawData.getD []).drop 0).take n = contents.take n := by
  rw [List.drop_zero, ← h.view, view_eq_contents, Data.contents, List.take_take, Nat.min_eq_left hn]

/-- The contents have room in the capacity. -/
theorem Refines.length_le (h : self.Refines contents) : self.length ≤ self.capacity := by
  cases hraw : self.rawData with
  | none => exact (h.valid.null hraw).1.le.trans (Nat.zero_le _)
  | some buffer => exact (h.valid.allocated buffer hraw).2

/-- Bytes copied to the front of a new allocation. -/
theorem refines_writeAt (src : Bytes) {size : Nat} (h : src.length ≤ size) :
    (Data.mk size src.length (some (writeAt (allocate size) 0 src))).Refines src := by
  have hlength : (allocate size).length = size := List.length_replicate
  refine ⟨valid_some ?_ h, ?_⟩
  · rw [length_writeAt_of_le (by omega), hlength]
  · have hfront : (allocate size).take ([] : Bytes).length = [] := rfl
    have hview := (view_writeAt [] hfront src size).1
    rwa [List.length_nil, Nat.zero_add, List.nil_append] at hview

/-- Bytes in use are copied to the front of a new allocation. -/
theorem Refines.transfer (h : self.Refines contents) {count size : Nat} (hcount : count ≤ self.length)
    (hsize : count ≤ size) :
    Data.transfer self.rawData 0 count (some (allocate size)) 0 =
      .ok (some (writeAt (allocate size) 0 (contents.take count))) := by
  have hlength : (allocate size).length = size := List.length_replicate
  rw [h.valid.transfer_eq 0 count 0 (allocate size) (by omega) (by omega), h.take hcount]

/-- A copy has the same contents. -/
theorem Refines.copyConstruct (h : self.Refines contents) :
    ∃ copied, self.copyConstruct = .ok copied ∧ copied.Refines contents := by
  have hlength := h.length
  have hroom := h.length_le
  have hall : contents.take self.length = contents := List.take_of_length_le hlength.ge
  have hcopied := refines_writeAt contents (hlength ▸ hroom)
  unfold Data.copyConstruct
  rw [h.transfer le_rfl hroom, hall]
  rw [← hlength] at hcopied
  exact ⟨_, rfl, hcopied⟩

/-- `resize` cuts the contents. -/
theorem Refines.resize (h : self.Refines contents) (size : Nat) :
    ∃ resized, self.resize size = .ok resized ∧ resized.Refines (contents.take size) := by
  have hlength := h.length
  unfold Data.resize
  split
  · next hzero =>
    rw [hzero, List.take_zero]
    exact ⟨{}, rfl, valid_default, rfl⟩
  split
  · next hsame =>
    have hall : contents.take size = contents := List.take_of_length_le (hlength ▸ hsame ▸ h.length_le)
    rw [hall]
    exact ⟨self, rfl, h⟩
  · have hkept : contents.take (min size self.length) = contents.take size := by
      rw [hlength, List.take_eq_take_iff]
      omega
    have hresized := refines_writeAt (contents.take size) (List.length_take_le size contents)
    rw [List.length_take, ← hlength] at hresized
    dsimp only
    rw [h.transfer (Nat.min_le_right _ _) (Nat.min_le_left _ _), hkept]
    exact ⟨_, rfl, hresized⟩

/-- `resetData` leaves no contents. -/
theorem Refines.resetData (h : self.Refines contents) :
    ∃ reset, self.resetData = .ok reset ∧ reset.Refines [] := by
  obtain ⟨reset, hreset, hvalid⟩ := h.valid.resetData
  refine ⟨reset, hreset, hvalid, ?_⟩
  have hlength : reset.length = 0 := by
    unfold Data.resetData at hreset
    cases hraw : self.rawData with
    | none =>
      rw [hraw] at hreset
      rw [← Except.ok.inj hreset]
    | some buffer =>
      rw [hraw] at hreset
      cases hstore : store (some buffer) 0 (allocate self.capacity) with
      | error error =>
        dsimp only at hreset
        rw [hstore] at hreset
        cases hreset
      | ok rawData =>
        dsimp only at hreset
        rw [hstore] at hreset
        rw [← Except.ok.inj hreset]
  rw [← List.length_eq_zero_iff, length_view hvalid.readable, hlength]

/-- `append` puts the contents of its operand behind those of the object. -/
theorem Refines.appendOperand (h : self.Refines contents) (operand : Operand) {data : Bytes}
    (hd : (operand.get self).Refines data) :
    ∃ appended, self.appendOperand operand = .ok appended ∧ appended.Refines (contents ++ data) := by
  have hother : ∀ d, operand = .other d → d.Valid := by
    rintro d rfl
    exact hd.valid
  obtain ⟨appended, happended, hvalid⟩ := h.valid.appendOperand hother
  refine ⟨appended, happended, hvalid, ?_⟩
  rw [h.valid.appendOperand_eq hother] at happended
  obtain rfl := Except.ok.inj happended
  rw [(view_append h.valid.readable hd.valid.readable).1, h.view, hd.view]

/-! ### Runs -/

/-- **One operation** does to the object what it does to the byte string. -/
theorem refines_step (h : self.Refines contents) (action : Action) :
    ∃ next res, action.step self = .ok (next, res) ∧ next.Refines (action.apply contents).1 ∧
      Option.Rel Refines res (action.apply contents).2 := by
  have hempty : ({} : Data).Refines [] := ⟨valid_default, rfl⟩
  cases action with
  | appendSelf =>
    obtain ⟨appended, happended, hrefines⟩ := h.appendOperand .this h
    refine ⟨appended, none, ?_, hrefines, .none⟩
    rw [Action.step, happended]
    rfl
  | append d =>
    obtain ⟨appended, happended, hrefines⟩ :=
      h.appendOperand (.other (construct d)) (refines_construct d)
    refine ⟨appended, none, ?_, hrefines, .none⟩
    rw [Action.step, happended]
    rfl
  | add data =>
    obtain ⟨copied, hcopied, hcopy⟩ := h.copyConstruct
    obtain ⟨sum, hsum, hrefines⟩ :=
      hcopy.appendOperand (.other (construct data)) (refines_construct data)
    refine ⟨self, some sum, ?_, h, .some hrefines⟩
    rw [Action.step, hcopied]
    show (do
      let sum ← copied.appendOperand (.other (construct data))
      pure (self, some sum)) = _
    rw [hsum]
    rfl
  | resize size =>
    obtain ⟨resized, hresized, hrefines⟩ := h.resize size
    refine ⟨resized, none, ?_, hrefines, .none⟩
    rw [Action.step, hresized]
    rfl
  | resetData =>
    obtain ⟨reset, hreset, hrefines⟩ := h.resetData
    refine ⟨reset, none, ?_, hrefines, .none⟩
    rw [Action.step, hreset]
    rfl
  | destroy => exact ⟨self.destroy, none, rfl, hempty, .none⟩
  | detachData => exact ⟨{}, some self, rfl, hempty, .some h⟩

/-- A history does to the object what it does to the byte string. -/
theorem refines_run (h : self.Refines contents) (actions : List Action) :
    ∃ last results, run self actions = .ok (last, results) ∧ last.Refines (applyAll contents actions).1 ∧
      List.Forall₂ Refines results (applyAll contents actions).2 := by
  induction actions generalizing self contents with
  | nil => exact ⟨self, [], rfl, h, .nil⟩
  | cons action actions ih =>
    obtain ⟨next, res, hstep, hnext, hres⟩ := refines_step h action
    obtain ⟨last, results, hrun, hlast, hresults⟩ := ih hnext
    have hreturned : List.Forall₂ Refines res.toList (action.apply contents).2.toList := by
      generalize (action.apply contents).2 = expected at hres
      cases hres with
      | none => exact .nil
      | some hrefines => exact .cons hrefines .nil
    refine ⟨last, res.toList ++ results, ?_, hlast, List.rel_append hreturned hresults⟩
    rw [run, hstep]
    show (do
      let (last, results) ← run next actions
      pure (last, res.toList ++ results)) = _
    rw [hrun]
    rfl

/-- **An object is a byte string.** However it was constructed, a history of operations on it commits no memory
error, so that every byte is written below the capacity; the view, and those of the objects that were returned,
are what the history makes of the byte string. The capacity after growing is the expected length times one and a
half, rounded twice and truncated, and it is enough. -/
theorem construct_run_refines :
    (∀ (init : Init) (actions : List Action), ∃ last results,
      run (construct init) actions = .ok (last, results) ∧
        last.Refines (applyAll init.contents actions).1 ∧
        List.Forall₂ Refines results (applyAll init.contents actions).2) ∧
      ∀ expectLength : Nat,
        (growCapacity expectLength : ℤ) =
          ⌊Foundations.roundBits 24 (Foundations.roundBits 24 (expectLength : ℚ) * (3 / 2))⌋ ∧
        expectLength ≤ growCapacity expectLength :=
  ⟨fun init actions => refines_run (refines_construct init) actions,
    fun expectLength => ⟨growCapacity_eq_floor expectLength, le_growCapacity expectLength⟩⟩

end Data

end HttpRequest
