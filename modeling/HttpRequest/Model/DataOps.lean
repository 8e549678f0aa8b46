import HttpRequest.Model.Data

/-! # The operations of `Data` with their memory accesses

The operations of `Data.hpp` once more, now with every copy between buffers checked: a copy that would read
through a null pointer, read past the end of an allocation or write past one is an error. A step of a program
is one operation on one of its objects; the objects own their allocations, and no operation makes two of them
share one. `append` may be given the very object it is called on (`Operand`). -/

namespace HttpRequest

/-- The memory errors a copy between buffers can commit. -/
inductive MemoryError
  /-- Bytes are read or written through a null pointer. -/
  | nullPointer
  /-- Bytes are read or written behind the end of an allocation. -/
  | outOfBounds
  deriving DecidableEq, Repr

namespace Data

/-! ### Memory accesses -/

/-- The `count` bytes from `rawData + pos` on. Where `count` is zero, nothing is read. -/
def load (rawData : Option Bytes) (pos count : Nat) : Except MemoryError Bytes :=
  if count = 0 then .ok []
  else
    match rawData with
    | none => .error .nullPointer
    | some buffer =>
      if pos + count ≤ buffer.length then .ok ((buffer.drop pos).take count) else .error .outOfBounds

/-- The allocation after bytes have been written to `rawData + pos`. -/
def store (rawData : Option Bytes) (pos : Nat) (src : Bytes) : Except MemoryError (Option Bytes) :=
  if src.isEmpty then .ok rawData
  else
    match rawData with
    | none => .error .nullPointer
    | some buffer =>
      if pos + src.length ≤ buffer.length then .ok (some (writeAt buffer pos src))
      else .error .outOfBounds

/-- `std::copy(source + pos, source + pos + count, target + offset)`. -/
def transfer (source : Option Bytes) (pos count : Nat) (target : Option Bytes) (offset : Nat) :
    Except MemoryError (Option Bytes) := do
  let src ← load source pos count
  store target offset src

/-! ### Constructors and assignments -/

/-- What a constructor without a source object is given. -/
inductive Init
  /-- `Data()`. -/
  | default
  /-- `Data(size, data)` and the constructors from strings. -/
  | bytes (data : Bytes)
  /-- `Data(size)`. -/
  | size (size : Nat)
  /-- `Data(size, func)`, where `func` writes to the bytes it is given and to no others. -/
  | fill (size : Nat) (func : { f : Bytes → Bytes // ∀ buffer, (f buffer).length = buffer.length })

/-- The constructors without a source object. -/
def construct : Init → Data
  | .default => {}
  | .bytes data => ofBytes data
  | .size size => ofSize size
  | .fill size func => { capacity := size, length := 0, rawData := some (func.1 (allocate size)) }

/-- `Data(const Data&)`. -/
def copyConstruct (data : Data) : Except MemoryError Data := do
  -- the whole capacity is allocated, the bytes in use are copied
  let rawData ← transfer data.rawData 0 data.length (some (allocate data.capacity)) 0
  pure { capacity := data.capacity, length := data.length, rawData }

/-- `Data(Data&&)`: the new object, and what is left of the other. -/
def moveConstruct (data : Data) : Data × Data := (data, {})

/-- `operator=(Data&&)` from another object: this object, and what is left of the other. -/
def moveAssign (data : Data) : Data × Data := (data, { data with rawData := none })

/-! ### Copying, shrinking and growing -/

/-- `Data::copy(pos, len)`. -/
def copyRange (self : Data) (pos : Nat) (len : Int) : Except MemoryError Data :=
  if self.empty || len == 0 || decide (self.length ≤ pos) then pure {}
  else do
    let resLen := if len < 0 then self.length - pos else len.toNat
    let size := min resLen (self.length - pos)
    let count := min (pos + resLen) self.length - pos
    let rawData ← transfer self.rawData pos count (some (allocate size)) 0
    pure { capacity := size, length := size, rawData }

/-- `Data::resetData`. -/
def resetData (self : Data) : Except MemoryError Data :=
  match self.rawData with
  | none => pure { self with length := 0 }
  | some _ => do
    -- `std::fill_n` writes the whole capacity, not only the bytes in use
    let rawData ← store self.rawData 0 (allocate self.capacity)
    pure { self with length := 0, rawData }

/-- `Data::resize`. -/
def resize (self : Data) (size : Nat) : Except MemoryError Data :=
  if size = 0 then pure self.destroy
  -- the same size keeps the allocation, and with it the length
  else if size = self.capacity then pure self
  else do
    let contentLength := min size self.length
    let rawData ← transfer self.rawData 0 contentLength (some (allocate size)) 0
    pure { capacity := size, length := contentLength, rawData }

/-- `Data::detachData`: the new object, and what is left of this one. -/
def detachData (self : Data) : Data × Data := (self, {})

/-- The argument of `append`: the object itself, or another one. -/
inductive Operand
  | this
  | other (d : Data)

/-- What the argument is while the object is in a state. -/
def Operand.get : Operand → Data → Data
  | .this, self => self
  | .other d, _ => d

/-- The part of `Data::append` that makes room. -/
def reserve (self : Data) (expectLength : Nat) : Except MemoryError Data :=
  if self.capacity < expectLength then
    let len := growCapacity expectLength
    match self.rawData with
    -- without an old allocation nothing is moved
    | none => pure { self with capacity := len, rawData := some (allocate len) }
    | some _ => do
      let rawData ← transfer self.rawData 0 self.length (some (allocate len)) 0
      pure { self with capacity := len, rawData }
  else pure self

/-- `Data::append`. -/
def appendOperand (self : Data) (d : Operand) : Except MemoryError Data := do
  -- a null pointer resets what a move has left in the two numbers
  let self := if self.rawData.isNone then { self with length := 0, capacity := 0 } else self
  let expectLength := self.length + (d.get self).length
  let self ← self.reserve expectLength
  -- `d` is read behind the reallocation, which for `this` has changed it
  let rawData ← transfer (d.get self).rawData 0 (d.get self).length self.rawData self.length
  pure { self with length := expectLength, rawData }

/-- `operator==`. -/
def equals (self data : Data) : Bool := self.length == data.length && self.view == data.view

end Data

/-! ### Programs of operations -/

/-- The objects of a program, by their names. -/
abbrev DataStore (ι : Type) := ι → Data

/-- An operation on the objects of a program. Where an operation returns an object, the first name is that
of the result. -/
inductive DataOp (ι : Type)
  | construct (res : ι) (init : Data.Init)
  | copyConstruct (res data : ι)
  | moveConstruct (res data : ι)
  | copyAssign (self data : ι)
  | moveAssign (self data : ι)
  /-- `copy()`. -/
  | copyAll (res self : ι)
  | copy (res self : ι) (pos : Nat) (len : Int)
  | append (self d : ι)
  /-- `append(std::unique_ptr<Data>)`, which destroys its argument. -/
  | appendOwned (self appendData : ι)
  /-- `operator+`. -/
  | add (res self data : ι)
  /-- `operator+=`. -/
  | addAssign (self data : ι)
  | resize (self : ι) (size : Nat)
  | resetData (self : ι)
  | destroy (self : ι)
  | detachData (res self : ι)

namespace DataOp

variable {ι : Type} [DecidableEq ι]

/-- The argument of `append` under a name. -/
def operand (objects : DataStore ι) (self d : ι) : Data.Operand :=
  if d = self then .this else .other (objects d)

/-- What an operation does to the objects. -/
def step (objects : DataStore ι) : DataOp ι → Except MemoryError (DataStore ι)
  | construct res init => pure (Function.update objects res (Data.construct init))
  | copyConstruct res data => do
    let copied ← (objects data).copyConstruct
    pure (Function.update objects res copied)
  | moveConstruct res data =>
    let (moved, left) := (objects data).moveConstruct
    pure (Function.update (Function.update objects data left) res moved)
  | copyAssign self data =>
    if data = self then pure objects
    else do
      let copied ← (objects data).copyConstruct
      pure (Function.update objects self copied)
  | moveAssign self data =>
    if data = self then pure objects
    else
      let (moved, left) := (objects data).moveAssign
      pure (Function.update (Function.update objects data left) self moved)
  | copyAll res self => do
    -- `copy(0, length)`: an empty object asks for no bytes, not for all
    let copied ← (objects self).copyRange 0 (objects self).length
    pure (Function.update objects res copied)
  | copy res self pos len => do
    let copied ← (objects self).copyRange pos len
    pure (Function.update objects res copied)
  | append self d => do
    let appended ← (objects self).appendOperand (operand objects self d)
    pure (Function.update objects self appended)
  | appendOwned self appendData => do
    let appended ← (objects self).appendOperand (operand objects self appendData)
    -- `appendData.reset()`
    pure (Function.update (Function.update objects appendData {}) self appended)
  | add res self data => do
    let copied ← (objects self).copyConstruct
    let sum ← copied.appendOperand (.other (objects data))
    pure (Function.update objects res sum)
  | addAssign self data => do
    let appended ← (objects self).appendOperand (operand objects self data)
    pure (Function.update objects self appended)
  | resize self size => do
    let resized ← (objects self).resize size
    pure (Function.update objects self resized)
  | resetData self => do
    let reset ← (objects self).resetData
    pure (Function.update objects self reset)
  | destroy self => pure (Function.update objects self (objects self).destroy)
  | detachData res self =>
    let (detached, left) := (objects self).detachData
    pure (Function.update (Function.update objects self left) res detached)

end DataOp

end HttpRequest
