import HttpRequest.Foundations.Delimiters

/-! # Byte strings and the C and C++ library functions used on them

`std::string` and `std::string_view` are lists of bytes. The searches return `none` for `npos`;
`substr` and the number conversions return the exception they throw. `long` has 64 bits, as on the
Unix builds of the library. -/

namespace HttpRequest

open Foundations

/-- The contents of a `std::string` or `std::string_view`. -/
abbrev Bytes := List UInt8

/-- The bytes of a string literal. -/
def bytes (s : String) : Bytes := s.toUTF8.data.toList

/-- What leaves a function other than by a `return`: the exceptions of the standard library the code
can raise, and the two memory errors it can commit. -/
inductive Fault
  /-- `std::out_of_range`, thrown by `substr` and by the `std::sto*` functions. -/
  | outOfRange
  /-- `std::invalid_argument`, thrown by the `std::sto*` functions. -/
  | invalidArgument
  /-- `operator[]` on a vector that is too short. -/
  | indexOutOfBounds
  /-- A call through a null pointer. -/
  | nullPointer
  deriving DecidableEq, Repr

/-! ### Searching and cutting -/

/-- `view.find(pat)`: where the first occurrence of `pat` starts. -/
def find (pat view : Bytes) : Option Nat := (view.dropInfix? pat).map (·.1.length)

/-- `view.find(c)` for a character. -/
def findChar (c : Char) (view : Bytes) : Option Nat := view.idxOf? c.toUInt8

/-- `view.rfind(c)` for a character. -/
def rfindChar (c : Char) (view : Bytes) : Option Nat := lastIdxOf? c.toUInt8 view

/-- `view.substr(pos)`. -/
def substrFrom (view : Bytes) (pos : Nat) : Except Fault Bytes :=
  if pos ≤ view.length then .ok (view.drop pos) else .error .outOfRange

/-- `view.substr(pos, n)`. -/
def substr (view : Bytes) (pos n : Nat) : Except Fault Bytes :=
  if pos ≤ view.length then .ok ((view.drop pos).take n) else .error .outOfRange

/-- `substr` from a position inside the view drops what is in front of it. -/
theorem substrFrom_of_le {view : Bytes} {pos : Nat} (h : pos ≤ view.length) :
    substrFrom view pos = .ok (view.drop pos) := if_pos h

/-- The string a C function sees behind `str.data()`: it ends at the first null byte. -/
def cString (str : Bytes) : Bytes := str.takeWhile (· ≠ 0)

/-- `find` gives the position at which the text is split around the pattern. -/
theorem find_eq_some {pat view : Bytes} {pos : Nat} :
    find pat view = some pos ↔ pos ≤ view.length ∧
      view.dropInfix? pat = some (view.take pos, view.drop (pos + pat.length)) := by
  rw [find, Option.map_eq_some_iff]
  constructor
  · rintro ⟨⟨p, s⟩, hps, rfl⟩
    have hview := eq_append_of_dropInfix? hps
    refine ⟨by rw [hview]; simp, ?_⟩
    rw [hps]
    congr 2
    · rw [hview, List.append_assoc, List.take_left]
    · rw [hview, ← List.length_append, List.drop_left]
  · rintro ⟨hle, h⟩
    exact ⟨_, h, List.length_take_of_le hle⟩

/-- `find` finds nothing where the pattern does not occur. -/
theorem find_eq_none {pat view : Bytes} : find pat view = none ↔ ¬ pat <:+: view := by
  rw [find, Option.map_eq_none_iff, dropInfix?_eq_none]

/-- The occurrence `find` returns lies inside the view. -/
theorem find_add_length_le {pat view : Bytes} {pos : Nat} (h : find pat view = some pos) :
    pos + pat.length ≤ view.length := by
  obtain ⟨hle, hdrop⟩ := find_eq_some.mp h
  have hlen := congrArg List.length (eq_append_of_dropInfix? hdrop)
  simp only [List.length_append, List.length_take_of_le hle, List.length_drop] at hlen
  omega

/-- The view around the occurrence `find` returns. -/
theorem eq_append_of_find {pat view : Bytes} {pos : Nat} (h : find pat view = some pos) :
    view = view.take pos ++ pat ++ view.drop (pos + pat.length) :=
  eq_append_of_dropInfix? (find_eq_some.mp h).2

/-- `find` in terms of the two halves of the search. -/
theorem find_of_dropInfix? {pat view p s : Bytes} (h : view.dropInfix? pat = some (p, s)) :
    find pat view = some p.length := by
  simp [find, h]

/-- An occurrence found stays where it is when the view grows. -/
theorem find_append_right {pat view : Bytes} {pos : Nat} (more : Bytes)
    (h : find pat view = some pos) : find pat (view ++ more) = some pos := by
  obtain ⟨⟨p, s⟩, hps, rfl⟩ := Option.map_eq_some_iff.mp h
  exact find_of_dropInfix? (dropInfix?_append_right more hps)

/-- `find` finds the pattern in front where the text starts with it. -/
theorem find_eq_zero_iff {pat view : Bytes} : find pat view = some 0 ↔ pat <+: view := by
  rw [find_eq_some]
  constructor
  · rintro ⟨-, h⟩
    exact ⟨_, (eq_append_of_dropInfix? h).symm⟩
  · rintro ⟨rest, rfl⟩
    refine ⟨Nat.zero_le _, dropInfix?_eq_some.mpr ⟨?_, fun _ _ _ => Nat.zero_le _⟩⟩
    rw [List.take_zero, List.nil_append, Nat.zero_add, List.drop_left]

/-- An occurrence that is not in the front of a view ends behind it. -/
theorem length_lt_of_find_append {pat front back : Bytes} {pos : Nat} (hnone : find pat front = none)
    (h : find pat (front ++ back) = some pos) : front.length < pos + pat.length := by
  by_contra hle
  have hle' := find_add_length_le h
  have hpre : (front ++ back).take pos ++ pat <+: front ++ back :=
    ⟨_, (eq_append_of_find h).symm⟩
  obtain ⟨more, hmore⟩ := List.prefix_of_prefix_length_le hpre (List.prefix_append front back) (by
    rw [List.length_append, List.length_take_of_le (by omega)]
    omega)
  exact find_eq_none.mp hnone ⟨_, more, hmore⟩

/-- An occurrence is found in a front of the view exactly when the front reaches up to its end. -/
theorem find_of_prefix {pat view front : Bytes} {pos : Nat} (h : find pat view = some pos)
    (hfront : front <+: view) :
    find pat front = if pos + pat.length ≤ front.length then some pos else none := by
  obtain ⟨more, rfl⟩ := hfront
  cases hfind : find pat front with
  | some pos' =>
    obtain rfl : pos' = pos := Option.some.inj ((find_append_right more hfind).symm.trans h)
    rw [if_pos (find_add_length_le hfind)]
  | none => rw [if_neg (Nat.not_le.mpr (length_lt_of_find_append hfind h))]

/-! ### Character classes of the C locale -/

/-- `std::isspace`. -/
def isspace (c : UInt8) : Bool := c = 32 ∨ (9 ≤ c ∧ c ≤ 13)

/-- `std::isdigit`. -/
def isdigit (c : UInt8) : Bool := 48 ≤ c ∧ c ≤ 57

/-- `std::isupper`. -/
def isupper (c : UInt8) : Bool := 65 ≤ c ∧ c ≤ 90

/-- `std::islower`. -/
def islower (c : UInt8) : Bool := 97 ≤ c ∧ c ≤ 122

/-- `std::isalnum`. -/
def isalnum (c : UInt8) : Bool := isdigit c || isupper c || islower c

/-- `std::tolower`. -/
def tolower (c : UInt8) : UInt8 := if isupper c then c + 32 else c

/-! ### Numbers -/

/-- The value of a digit in any base up to 36. -/
def digitValue (c : UInt8) : Option Nat :=
  if isdigit c then some (c.toNat - 48)
  else if isupper c then some (c.toNat - 55)
  else if islower c then some (c.toNat - 87)
  else none

/-- Whether a character is a digit of the base. -/
def isDigitOf (base : Nat) (c : UInt8) : Bool := (digitValue c).any (· < base)

/-- The number a digit string denotes. -/
def digitsValue (base : Nat) (digits : Bytes) : Nat :=
  digits.foldl (fun acc c => acc * base + (digitValue c).getD 0) 0

/-- The sign `strtol` takes off the front: whether it is a minus, and the rest. -/
def takeSign : Bytes → Bool × Bytes
  | 45 :: rest => (true, rest)
  | 43 :: rest => (false, rest)
  | text => (false, text)

/-- The `0x` prefix that `strtol` skips in base 16, provided that a digit follows it. -/
def skipHexPrefix : Bytes → Bytes
  | 48 :: x :: c :: rest =>
    if (x = 120 ∨ x = 88) ∧ isDigitOf 16 c then c :: rest else 48 :: x :: c :: rest
  | text => text

/-- `strtol` before the range check: the number at the front of the text, `none` when no digit
stands there. Whatever follows the digits is ignored. -/
def strtol (base : Nat) (text : Bytes) : Option Int :=
  let (negative, unsigned) := takeSign (text.dropWhile isspace)
  let digits := (if base = 16 then skipHexPrefix unsigned else unsigned).takeWhile (isDigitOf base)
  if digits = [] then none
  else if negative then some (-(digitsValue base digits : Int))
  else some (digitsValue base digits)

/-- The `std::sto*` functions for a signed type of the given width. -/
def stoSigned (width base : Nat) (text : Bytes) : Except Fault Int :=
  match strtol base text with
  | none => .error .invalidArgument
  | some n => if -2 ^ (width - 1) ≤ n ∧ n < 2 ^ (width - 1) then .ok n else .error .outOfRange

/-- `std::stoi`. -/
def stoi (text : Bytes) : Except Fault Int := stoSigned 32 10 text

/-- `std::stoll`. -/
def stoll (text : Bytes) : Except Fault Int := stoSigned 64 10 text

/-- `std::stol(text, nullptr, 16)`. -/
def stolHex (text : Bytes) : Except Fault Int := stoSigned 64 16 text

/-- `std::to_string` of an unsigned number. -/
def toDecimal (n : Nat) : Bytes :=
  if n = 0 then [48] else (Nat.digits 10 n).reverse.map fun d => (48 + d).toUInt8

/-- `INT64_MAX`. -/
def int64Max : Int := 2 ^ 63 - 1

end HttpRequest
