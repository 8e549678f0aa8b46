import HttpRequest.Foundations.Machine
import HttpRequest.Model.DataOps
import HttpRequest.Model.Sockets

/-! # Arithmetic in machine words

The functions whose results depend on the widths of their numbers, once more with the numbers of the source:
unsigned ones of 64 bits, which wrap, and signed ones, where an operation that has no representable result is
undefined (`Undefined`). The modules that use these functions for something else count with exact numbers. -/

namespace HttpRequest

open Foundations

/-! ### Time stamps -/

/-- `TimeStamp::operator+`: the microseconds are added as unsigned numbers, behind a product of signed ones. -/
def Time.TimeStamp.add (stamp : UInt64) (delta : Int) : Except Undefined UInt64 := do
  let product ← checked 64 (delta * 1000)
  pure (stamp + UInt64.ofInt product)

/-- `struct timeval`. -/
structure Timeval where
  tv_sec : Int
  tv_usec : Int
  deriving DecidableEq, Repr

/-- `selectTimeout` in `select`: both members are converted to 32 bits. -/
def selectTimeout (timeout : Int) : Timeval :=
  { tv_sec := toInt32 (timeout.tdiv 1000), tv_usec := toInt32 (timeout.tmod 1000 * 1000) }

/-- The `timeval` that `::select` is given, `none` for a null pointer and for other calls. -/
def Syscall.timeval? : Syscall → Option Timeval
  | .select _ timeout => if 0 ≤ timeout then some (selectTimeout timeout) else none
  | _ => none

/-! ### Base64 -/

/-- `(val << 8) + c`. -/
def base64ShiftIn (val : Int) (c : UInt8) : Except Undefined Int := do
  let shifted ← shiftLeft 32 val 8
  checked 32 (shifted + c.toNat)

/-- The loop of `base64Encode` over the bytes of the string, with signed numbers that do not wrap. -/
def base64CheckedLoop : Bytes → Int → Int → Bytes → Except Undefined (Int × Int × Bytes)
  | [], val, valb, res => pure (val, valb, res)
  | c :: str, val, valb, res => do
    let val ← base64ShiftIn val c
    let (valb, res) := base64Drain 2 val (valb + 8) res
    base64CheckedLoop str val valb res

/-- What `base64Encode` does behind its loop, with signed numbers that do not wrap. -/
def base64FinishChecked (val valb : Int) (res : Bytes) : Except Undefined Bytes := do
  let res ←
    if -6 < valb then do
      let shifted ← shiftLeft 32 val 8
      pure (res ++ [base64Char shifted (valb + 8)])
    else pure res
  pure (res ++ List.replicate ((4 - res.length % 4) % 4) '='.toUInt8)

/-- `encode::base64Encode`, with signed numbers that do not wrap. -/
def base64EncodeChecked (str : Bytes) : Except Undefined Bytes := do
  let (val, valb, res) ← base64CheckedLoop str 0 (-6) []
  base64FinishChecked val valb res

/-! ### Sizes -/

namespace Data

/-- `resLen` in `Data::copy(pos, len)`. -/
def resLen (self : Data) (pos : UInt64) (len : Int64) : UInt64 :=
  -- the difference passes through `int64_t`, which changes none of its bits
  if len < 0 then UInt64.ofNat self.length - pos else len.toUInt64

/-- `std::min(pos + resLen, length)` in `Data::copy(pos, len)`. -/
def copyEnd (self : Data) (pos : UInt64) (len : Int64) : UInt64 :=
  min (pos + self.resLen pos len) (UInt64.ofNat self.length)

/-- `Data::copy(pos, len)`. -/
def copyWords (self : Data) (pos : UInt64) (len : Int64) : Except MemoryError Data :=
  if self.empty || len == 0 || decide (UInt64.ofNat self.length ≤ pos) then pure {}
  else do
    let size := min (self.resLen pos len) (UInt64.ofNat self.length - pos)
    let last := self.copyEnd pos len
    -- a range that ends in front of its start, as a sum that wraps leaves it, is none that can be read
    if last < pos then .error .outOfBounds
    else do
      let rawData ← transfer self.rawData pos.toNat (last - pos).toNat (some (allocate size.toNat)) 0
      pure { capacity := size.toNat, length := size.toNat, rawData }

/-- What goes wrong in `append`: a copy between buffers, or the conversion of the new capacity. -/
inductive AppendError
  | memory (error : MemoryError)
  | undefined (cause : Undefined)
  deriving DecidableEq, Repr

/-- The part of `Data::append` that makes room. -/
def reserveWords (self : Data) (expectLength : UInt64) : Except AppendError Data :=
  if UInt64.ofNat self.capacity < expectLength then do
    -- `static_cast<int64_t>` of a number that the type does not have is undefined
    let len ← (checked 64 (growCapacity expectLength.toNat)).mapError .undefined
    match self.rawData with
    | none => pure { self with capacity := len.toNat, rawData := some (allocate len.toNat) }
    | some _ => do
      let rawData ← (transfer self.rawData 0 self.length (some (allocate len.toNat)) 0).mapError .memory
      pure { self with capacity := len.toNat, rawData }
  else pure self

/-- `Data::append` of another object. -/
def appendWords (self d : Data) : Except AppendError Data := do
  let self := if self.rawData.isNone then { self with length := 0, capacity := 0 } else self
  let expectLength := UInt64.ofNat self.length + UInt64.ofNat d.length
  let self ← self.reserveWords expectLength
  let rawData ← (transfer d.rawData 0 d.length self.rawData self.length).mapError .memory
  pure { self with length := expectLength.toNat, rawData }

end Data

end HttpRequest
