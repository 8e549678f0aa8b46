import HttpRequest.Model.Bytes

/-! # `StringUtil` and `Time`

The helpers of `Utility.cpp` that the rest of the library calls. -/

namespace HttpRequest

open Foundations

/-! ### `StringUtil` -/

namespace StringUtil

/-- `StringUtil::removePrefix`: when the string starts with `c`, `str.erase(0)` erases everything from
the first character on. -/
def removePrefix (str : Bytes) (c : UInt8) : Bytes :=
  if str.head? = some c then [] else str

/-- The search loop of `StringUtil::split`, at most `fuel` passes of it: `view` is what is left behind
`start`. The result is `none` while the loop is still running. -/
def splitLoop (delimiters : Bytes) : Nat → Bytes → List Bytes → Option (List Bytes)
  | 0, _, _ => none
  | fuel + 1, view, tokens =>
    match find delimiters view with
    | some stop =>
      let token := view.take stop
      -- an empty token is skipped
      let tokens := if token.isEmpty then tokens else tokens ++ [token]
      splitLoop delimiters fuel (view.drop (stop + delimiters.length)) tokens
    | none =>
      -- add the last token
      some (if view.isEmpty then tokens else tokens ++ [view])

/-- `StringUtil::split`. With a non-empty delimiter every pass of the loop shortens what is left, so
one pass for each byte and one more are enough (`splitLoop_of_decomposes`). -/
def split (strView delimiters : Bytes) : List Bytes :=
  (splitLoop delimiters (strView.length + 1) strView []).getD []

/-- A pass that finds the delimiter. -/
theorem splitLoop_of_find {delimiters view p s : Bytes}
    (h : view.dropInfix? delimiters = some (p, s)) (fuel : Nat) (tokens : List Bytes) :
    splitLoop delimiters (fuel + 1) view tokens =
      splitLoop delimiters fuel s (if p.isEmpty then tokens else tokens ++ [p]) := by
  have hview := eq_append_of_dropInfix? h
  have htake : view.take p.length = p := by rw [hview, List.append_assoc, List.take_left]
  have hdrop : view.drop (p.length + delimiters.length) = s := by
    rw [hview, ← List.length_append, List.drop_left]
  rw [splitLoop, find_of_dropInfix? h]
  simp only [htake, hdrop]

/-- A pass that does not find the delimiter is the last. -/
theorem splitLoop_of_not_find {delimiters view : Bytes} (h : view.dropInfix? delimiters = none)
    (fuel : Nat) (tokens : List Bytes) :
    splitLoop delimiters (fuel + 1) view tokens =
      some (if view.isEmpty then tokens else tokens ++ [view]) := by
  rw [splitLoop, find, h]
  rfl

end StringUtil

/-! ### `Time` -/

namespace Time

/-- `TimeStamp::diff`, in milliseconds: the stamps count microseconds in an unsigned 64-bit number,
and so does their difference. -/
def diff (stamp timeStamp : UInt64) : Int := ((stamp - timeStamp) / 1000).toNat

end Time

end HttpRequest
