import HttpRequest.Model.Bytes

/-! # Numerals

What `strtol` makes of a text that starts with a digit: it reads the digits up to the first character that is
none, and ignores what follows. -/

namespace HttpRequest

/-- A digit of any base is neither a blank nor a sign. -/
theorem digitValue_cases {c : UInt8} (h : (digitValue c).isSome = true) :
    isspace c = false ∧ c ≠ 43 ∧ c ≠ 45 := by
  revert c
  decide +kernel

/-- A digit has a value. -/
theorem isSome_of_isDigitOf {base : Nat} {c : UInt8} (h : isDigitOf base c = true) :
    (digitValue c).isSome = true := by
  unfold isDigitOf at h
  cases hvalue : digitValue c with
  | none =>
    rw [hvalue] at h
    cases h
  | some value => rfl

/-- A digit in front is all `strtol` looks for. -/
theorem takeSign_dropWhile {base : Nat} {c : UInt8} (h : isDigitOf base c = true) (rest : Bytes) :
    takeSign ((c :: rest).dropWhile isspace) = (false, c :: rest) := by
  obtain ⟨hspace, hplus, hminus⟩ := digitValue_cases (isSome_of_isDigitOf h)
  rw [List.dropWhile_cons, hspace, if_neg Bool.false_ne_true]
  unfold takeSign
  split
  · next heq => exact absurd (List.cons.inj heq).1 hminus
  · next heq => exact absurd (List.cons.inj heq).1 hplus
  · rfl

/-- There is no prefix to skip where no `x` follows the first digits. -/
theorem skipHexPrefix_append {digits tail : Bytes} (hdigits : ∀ c ∈ digits, isDigitOf 16 c = true)
    (hne : digits ≠ []) (htail : ∀ c ∈ tail.head?, c ≠ 120 ∧ c ≠ 88) :
    skipHexPrefix (digits ++ tail) = digits ++ tail := by
  unfold skipHexPrefix
  split
  · next x c rest heq =>
    -- a prefix would need an `x` behind the first digit, and no digit is one
    rw [if_neg, heq]
    rintro ⟨hx, -⟩
    cases digits with
    | nil => exact hne rfl
    | cons d digits =>
      have hbehind : digits ++ tail = x :: c :: rest := (List.cons.inj heq).2
      cases digits with
      | nil =>
        have hhead := htail x (by rw [List.nil_append] at hbehind; rw [hbehind]; rfl)
        exact hx.elim hhead.1 hhead.2
      | cons d' digits =>
        obtain rfl : d' = x := (List.cons.inj hbehind).1
        have hdigit := hdigits d' (by simp)
        rcases hx with rfl | rfl
        · exact absurd hdigit (by decide)
        · exact absurd hdigit (by decide)
  · rfl

/-- **The digits in front of a text.** -/
theorem strtol_append {base : Nat} {digits tail : Bytes} (hne : digits ≠ [])
    (hdigits : ∀ c ∈ digits, isDigitOf base c = true) (htail : ∀ c ∈ tail.head?, isDigitOf base c = false)
    (hmark : base = 16 → ∀ c ∈ tail.head?, c ≠ 120 ∧ c ≠ 88) :
    strtol base (digits ++ tail) = some (digitsValue base digits : Int) := by
  have hsign : takeSign ((digits ++ tail).dropWhile isspace) = (false, digits ++ tail) := by
    obtain ⟨c, rest, rfl⟩ := List.exists_cons_of_ne_nil hne
    exact takeSign_dropWhile (hdigits c List.mem_cons_self) _
  have hskip : (if base = 16 then skipHexPrefix (digits ++ tail) else digits ++ tail) = digits ++ tail := by
    split
    · next hbase =>
      subst hbase
      exact skipHexPrefix_append hdigits hne (hmark rfl)
    · rfl
  have hbehind : tail.takeWhile (isDigitOf base) = [] := by
    cases tail with
    | nil => rfl
    | cons c tail => rw [List.takeWhile_cons, htail c rfl, if_neg Bool.false_ne_true]
  have htake : (digits ++ tail).takeWhile (isDigitOf base) = digits := by
    rw [List.takeWhile_append_of_pos hdigits, hbehind, List.append_nil]
  unfold strtol
  rw [hsign]
  dsimp only
  rw [hskip, htake, if_neg hne, if_neg Bool.false_ne_true]

/-- `strtol` reads digits as they are. -/
theorem strtol_of_digits {base : Nat} {digits : Bytes} (hne : digits ≠ [])
    (hdigits : ∀ c ∈ digits, isDigitOf base c = true) :
    strtol base digits = some (digitsValue base digits : Int) := by
  have happend : strtol base (digits ++ []) = some (digitsValue base digits : Int) :=
    strtol_append hne hdigits (fun c hc => by cases hc) fun _ c hc => by cases hc
  rwa [List.append_nil] at happend

end HttpRequest
