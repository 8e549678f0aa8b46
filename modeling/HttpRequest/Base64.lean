import HttpRequest.Foundations.Base64
import HttpRequest.Model.Encode

/-! # Base64

`base64Encode` shifts bytes through one 32-bit number, six bits at a time. Three bytes leave nothing pending, so it
encodes group by group (`base64Encode_eq_groups`). A decoder reads the bytes back (`decode_base64Encode`), so that
different texts have different encodings (`base64Encode_injective`). -/

namespace HttpRequest

open Foundations

/-! ### Groups of three bytes -/

/-- The character of a number below 64. -/
def sextet (n : Nat) : UInt8 := kBase64Content.getD n 0

/-- `=`. -/
def padding : UInt8 := '='.toUInt8

/-- The encoding of RFC 4648: four characters for three bytes, with padding behind an incomplete group. -/
def encodeGroups : Bytes → Bytes
  | a :: b :: c :: str =>
    sextet (a.toNat / 4) :: sextet (a.toNat % 4 * 16 + b.toNat / 16) ::
      sextet (b.toNat % 16 * 4 + c.toNat / 64) :: sextet (c.toNat % 64) :: encodeGroups str
  | [a, b] =>
    [sextet (a.toNat / 4), sextet (a.toNat % 4 * 16 + b.toNat / 16), sextet (b.toNat % 16 * 4), padding]
  | [a] => [sextet (a.toNat / 4), sextet (a.toNat % 4 * 16), padding, padding]
  | [] => []

/-- What `base64Encode` does behind its loop. -/
def base64Finish (r : Int × Int × Bytes) : Bytes :=
  let res := if -6 < r.2.1 then r.2.2 ++ [base64Char (toInt32 (r.1 * 2 ^ 8)) (r.2.1 + 8)] else r.2.2
  res ++ List.replicate ((4 - res.length % 4) % 4) '='.toUInt8

/-- The encoder is its loop with its end. -/
theorem base64Encode_eq_finish (str : Bytes) :
    base64Encode str = base64Finish (base64Loop str 0 (-6) []) := rfl

/-- Wrapping changes a number by a multiple of `2 ^ 32`. -/
theorem toInt32_eq (n : Int) : ∃ k, toInt32 n = n + 2 ^ 32 * k := by
  refine ⟨(toInt32 n - n) / 2 ^ 32, ?_⟩
  have hdvd : (2 ^ 32 : Int) ∣ toInt32 n - n := Int.dvd_bmod_sub_self
  rw [Int.mul_ediv_cancel' hdvd]
  omega

/-- The number with a byte shifted in. -/
theorem shiftIn_eq (val : Int) (c : UInt8) :
    ∃ k, toInt32 (toInt32 (val * 2 ^ 8) + c.toNat) = val * 2 ^ 8 + c.toNat + 2 ^ 32 * k := by
  obtain ⟨k, hk⟩ := toInt32_eq (val * 2 ^ 8)
  obtain ⟨l, hl⟩ := toInt32_eq (toInt32 (val * 2 ^ 8) + c.toNat)
  exact ⟨k + l, by rw [hl, hk]; omega⟩

/-- The character behind a shift, from the six bits it takes. -/
theorem base64Char_eq {val shift : Int} {n : Nat} (h : val / 2 ^ shift.toNat % 64 = n) :
    base64Char val shift = sextet n := by
  rw [base64Char, h]
  rfl

/-! ### The loop, group by group -/

/-- Behind the first byte of a group one character is written. -/
theorem base64Drain_two (val : Int) (res : Bytes) :
    base64Drain 2 val (-6 + 8) res = (-4, res ++ [base64Char val 2]) := rfl

/-- Behind the second byte one more is written. -/
theorem base64Drain_four (val : Int) (res : Bytes) :
    base64Drain 2 val (-4 + 8) res = (-2, res ++ [base64Char val 4]) := rfl

/-- Behind the third byte two are written. -/
theorem base64Drain_six (val : Int) (res : Bytes) :
    base64Drain 2 val (-2 + 8) res = (-6, res ++ [base64Char val 6] ++ [base64Char val 0]) := rfl

/-- Nothing is pending when the first byte of a group comes. -/
theorem base64Loop_first (a : UInt8) (str : Bytes) (val : Int) (res : Bytes) :
    ∃ val' : Int, val' % 4 = (a.toNat % 4 : Nat) ∧ base64Loop (a :: str) val (-6) res =
      base64Loop str val' (-4) (res ++ [sextet (a.toNat / 4)]) := by
  obtain ⟨k, hk⟩ := shiftIn_eq val a
  have ha := a.toNat_lt
  refine ⟨val * 2 ^ 8 + a.toNat + 2 ^ 32 * k, by omega, ?_⟩
  have hchar : base64Char (val * 2 ^ 8 + a.toNat + 2 ^ 32 * k) 2 = sextet (a.toNat / 4) := by
    apply base64Char_eq
    show (val * 2 ^ 8 + a.toNat + 2 ^ 32 * k) / 4 % 64 = _
    omega
  rw [base64Loop, hk, base64Drain_two, hchar]

/-- Two bits of the first byte are pending. -/
theorem base64Loop_second {pending : Nat} {val : Int} (h : val % 4 = pending) (b : UInt8) (str : Bytes)
    (res : Bytes) :
    ∃ val' : Int, val' % 16 = (b.toNat % 16 : Nat) ∧ base64Loop (b :: str) val (-4) res =
      base64Loop str val' (-2) (res ++ [sextet (pending * 16 + b.toNat / 16)]) := by
  obtain ⟨k, hk⟩ := shiftIn_eq val b
  have hb := b.toNat_lt
  refine ⟨val * 2 ^ 8 + b.toNat + 2 ^ 32 * k, by omega, ?_⟩
  have hchar : base64Char (val * 2 ^ 8 + b.toNat + 2 ^ 32 * k) 4 =
      sextet (pending * 16 + b.toNat / 16) := by
    apply base64Char_eq
    show (val * 2 ^ 8 + b.toNat + 2 ^ 32 * k) / 16 % 64 = _
    omega
  rw [base64Loop, hk, base64Drain_four, hchar]

/-- Four bits of the second byte are pending; behind the third byte there is nothing. -/
theorem base64Loop_third {pending : Nat} {val : Int} (h : val % 16 = pending) (c : UInt8) (str : Bytes)
    (res : Bytes) :
    ∃ val', base64Loop (c :: str) val (-2) res = base64Loop str val' (-6)
      (res ++ [sextet (pending * 4 + c.toNat / 64)] ++ [sextet (c.toNat % 64)]) := by
  obtain ⟨k, hk⟩ := shiftIn_eq val c
  have hc := c.toNat_lt
  refine ⟨val * 2 ^ 8 + c.toNat + 2 ^ 32 * k, ?_⟩
  have hthird : base64Char (val * 2 ^ 8 + c.toNat + 2 ^ 32 * k) 6 =
      sextet (pending * 4 + c.toNat / 64) := by
    apply base64Char_eq
    show (val * 2 ^ 8 + c.toNat + 2 ^ 32 * k) / 64 % 64 = _
    omega
  have hfourth : base64Char (val * 2 ^ 8 + c.toNat + 2 ^ 32 * k) 0 = sextet (c.toNat % 64) := by
    apply base64Char_eq
    show (val * 2 ^ 8 + c.toNat + 2 ^ 32 * k) / 1 % 64 = _
    omega
  rw [base64Loop, hk, base64Drain_six, hthird, hfourth]

/-! ### The end of the text -/

/-- Behind whole groups there is nothing left to write. -/
theorem base64Finish_none (val : Int) {res : Bytes} (h : res.length % 4 = 0) :
    base64Finish (val, -6, res) = res := by
  show res ++ List.replicate ((4 - res.length % 4) % 4) padding = res
  rw [h]
  exact List.append_nil res

/-- Two bits are left over: they fill a second character. -/
theorem base64Finish_first {pending : Nat} {val : Int} (h : val % 4 = pending) {res : Bytes}
    (hres : res.length % 4 = 1) :
    base64Finish (val, -4, res) = res ++ [sextet (pending * 16), padding, padding] := by
  obtain ⟨k, hk⟩ := toInt32_eq (val * 2 ^ 8)
  have hchar : base64Char (toInt32 (val * 2 ^ 8)) (-4 + 8) = sextet (pending * 16) := by
    apply base64Char_eq
    rw [hk]
    show (val * 2 ^ 8 + 2 ^ 32 * k) / 16 % 64 = _
    omega
  show (let res' := res ++ [base64Char (toInt32 (val * 2 ^ 8)) (-4 + 8)];
    res' ++ List.replicate ((4 - res'.length % 4) % 4) padding) = _
  have hpad : (4 - (res.length + 1) % 4) % 4 = 2 := by omega
  dsimp only
  rw [hchar, List.length_append, List.length_singleton, hpad, List.append_assoc]
  rfl

/-- Four bits are left over: they fill a third character. -/
theorem base64Finish_second {pending : Nat} {val : Int} (h : val % 16 = pending) {res : Bytes}
    (hres : res.length % 4 = 2) :
    base64Finish (val, -2, res) = res ++ [sextet (pending * 4), padding] := by
  obtain ⟨k, hk⟩ := toInt32_eq (val * 2 ^ 8)
  have hchar : base64Char (toInt32 (val * 2 ^ 8)) (-2 + 8) = sextet (pending * 4) := by
    apply base64Char_eq
    rw [hk]
    show (val * 2 ^ 8 + 2 ^ 32 * k) / 64 % 64 = _
    omega
  show (let res' := res ++ [base64Char (toInt32 (val * 2 ^ 8)) (-2 + 8)];
    res' ++ List.replicate ((4 - res'.length % 4) % 4) padding) = _
  have hpad : (4 - (res.length + 1) % 4) % 4 = 1 := by omega
  dsimp only
  rw [hchar, List.length_append, List.length_singleton, hpad, List.append_assoc]
  rfl

/-- From where nothing is pending, the rest is encoded group by group. -/
theorem base64Finish_loop (str : Bytes) : ∀ (val : Int) (res : Bytes), res.length % 4 = 0 →
    base64Finish (base64Loop str val (-6) res) = res ++ encodeGroups str := by
  -- a whole group takes three passes and leaves nothing pending, what is left of the number notwithstanding
  fun_induction encodeGroups str with
  | case1 a b c str ih =>
    intro val res hres
    obtain ⟨val₁, h₁, hloop₁⟩ := base64Loop_first a (b :: c :: str) val res
    obtain ⟨val₂, h₂, hloop₂⟩ := base64Loop_second h₁ b (c :: str) (res ++ [sextet (a.toNat / 4)])
    obtain ⟨val₃, hloop₃⟩ := base64Loop_third h₂ c str
      (res ++ [sextet (a.toNat / 4)] ++ [sextet (a.toNat % 4 * 16 + b.toNat / 16)])
    rw [hloop₁, hloop₂, hloop₃, ih _ _ (by simp; omega)]
    simp
  | case2 a b =>
    intro val res hres
    obtain ⟨val₁, h₁, hloop₁⟩ := base64Loop_first a [b] val res
    obtain ⟨val₂, h₂, hloop₂⟩ := base64Loop_second h₁ b [] (res ++ [sextet (a.toNat / 4)])
    rw [hloop₁, hloop₂, base64Loop, base64Finish_second h₂ (by simp; omega)]
    simp
  | case3 a =>
    intro val res hres
    obtain ⟨val₁, h₁, hloop₁⟩ := base64Loop_first a [] val res
    rw [hloop₁, base64Loop, base64Finish_first h₁ (by simp; omega)]
    simp
  | case4 =>
    intro val res hres
    rw [base64Loop, base64Finish_none val hres, List.append_nil]

/-- **`base64Encode` is the encoding of RFC 4648.** -/
theorem base64Encode_eq_groups (str : Bytes) : base64Encode str = encodeGroups str := by
  rw [base64Encode_eq_finish, base64Finish_loop str 0 [] rfl, List.nil_append]

/-! ### Reading an encoding -/

/-- A character decodes to its value. -/
theorem value?_sextet : ∀ n < 64, Base64.value? (sextet n) = some n := by decide +kernel

/-- Group by group, the characters tell the bytes, and the padding how many there are. -/
theorem decode_encodeGroups (str : Bytes) : Base64.decode (encodeGroups str) = some str := by
  fun_induction encodeGroups str with
  | case1 a b c str ih =>
    have ha := a.toNat_lt
    have hb := b.toNat_lt
    have hc := c.toNat_lt
    exact Base64.decode_three (value?_sextet _ (by omega)) (value?_sextet _ (by omega)) (value?_sextet _ (by omega))
      (value?_sextet _ (by omega)) ih
  | case2 a b =>
    have ha := a.toNat_lt
    have hb := b.toNat_lt
    exact Base64.decode_two (value?_sextet _ (by omega)) (value?_sextet _ (by omega)) (value?_sextet _ (by omega))
  | case3 a =>
    have ha := a.toNat_lt
    exact Base64.decode_one (value?_sextet _ (by omega)) (value?_sextet _ (by omega))
  | case4 => rfl

/-- **A decoder reads the text back.** -/
theorem decode_base64Encode (str : Bytes) : Base64.decode (base64Encode str) = some str := by
  rw [base64Encode_eq_groups, decode_encodeGroups]

/-- **Different texts have different encodings.** -/
theorem base64Encode_injective : Function.Injective base64Encode := by
  intro str str' h
  have hread := decode_base64Encode str
  rw [h, decode_base64Encode] at hread
  exact (Option.some.inj hread).symm

/-! ### The form of an encoding -/

/-- Every value has a character of the alphabet. -/
theorem sextet_mem : ∀ n < 64, sextet n ∈ kBase64Content := by decide +kernel

/-- Four characters for every three bytes that have begun. -/
theorem length_encodeGroups (str : Bytes) : (encodeGroups str).length = 4 * (str.length ⌈/⌉ 3) := by
  rw [Nat.ceilDiv_eq_add_pred_div]
  fun_induction encodeGroups str with
  | case1 a b c str ih =>
    simp only [List.length_cons, ih]
    omega
  | case2 | case3 | case4 => simp only [List.length_cons, List.length_nil]

/-- Characters of the alphabet, and as much padding as completes the last group. -/
theorem encodeGroups_eq_append (str : Bytes) :
    ∃ body, encodeGroups str = body ++ List.replicate ((3 - str.length % 3) % 3) padding ∧
      ∀ c ∈ body, c ∈ kBase64Content := by
  -- whole groups need no padding, so that the remainder of the length decides
  fun_induction encodeGroups str with
  | case1 a b c str ih =>
    have ha := a.toNat_lt
    have hb := b.toNat_lt
    have hc := c.toNat_lt
    obtain ⟨body, hbody, hmem⟩ := ih
    have hlength : (a :: b :: c :: str).length % 3 = str.length % 3 := by
      simp only [List.length_cons]
      omega
    refine ⟨sextet _ :: sextet _ :: sextet _ :: sextet _ :: body, by rw [hlength, hbody]; rfl, ?_⟩
    simp only [List.forall_mem_cons]
    exact ⟨sextet_mem _ (by omega), sextet_mem _ (by omega), sextet_mem _ (by omega), sextet_mem _ (by omega), hmem⟩
  | case2 a b =>
    have ha := a.toNat_lt
    have hb := b.toNat_lt
    refine ⟨[sextet _, sextet _, sextet _], rfl, ?_⟩
    simp only [List.forall_mem_cons]
    exact ⟨sextet_mem _ (by omega), sextet_mem _ (by omega), sextet_mem _ (by omega), List.forall_mem_nil _⟩
  | case3 a =>
    have ha := a.toNat_lt
    refine ⟨[sextet _, sextet _], rfl, ?_⟩
    simp only [List.forall_mem_cons]
    exact ⟨sextet_mem _ (by omega), sextet_mem _ (by omega), List.forall_mem_nil _⟩
  | case4 => exact ⟨[], rfl, List.forall_mem_nil _⟩

/-- **`base64Encode` is the base 64 of RFC 4648**: it has the length and the characters of that encoding, and its
decoder reads the text back, so that different texts have different encodings. -/
theorem base64Encode_canonical :
    (∀ str : Bytes,
      (base64Encode str).length = 4 * (str.length ⌈/⌉ 3) ∧
        (∃ body, base64Encode str = body ++ List.replicate ((3 - str.length % 3) % 3) '='.toUInt8 ∧
          ∀ c ∈ body, c ∈ kBase64Content) ∧
        Base64.decode (base64Encode str) = some str) ∧
      Function.Injective base64Encode := by
  refine ⟨fun str => ⟨?_, ?_, decode_base64Encode str⟩, base64Encode_injective⟩
  · rw [base64Encode_eq_groups, length_encodeGroups]
  · rw [base64Encode_eq_groups]
    exact encodeGroups_eq_append str

end HttpRequest
