import HttpRequest.Base64
import HttpRequest.Messages.Lines

/-! # The fields of an encoded request

`htmlEncode` adds three fields to those of the caller: `Content-Length` and `Host`, which replace what was
there, and `Authorization`, which does not. This file says which value ends up under which name, and that
the values `htmlEncode` makes up itself are lines of their own. -/

namespace HttpRequest

open Foundations

/-! ### Field by field -/

/-- The credentials `htmlEncode` takes from a URL. -/
def urlCredentials (url : Url) : Option Bytes :=
  if url.userInfo.isEmpty then none else some (basicCredentials url.userInfo)

/-- The `Content-Length` field `htmlEncode` writes. -/
def lengthField (info : RequestInfo) : Option Bytes :=
  if info.bodyEmpty then none else some (toDecimal info.bodySize)

/-- The field of `Authorization` is written when there is none, and there is something to write. -/
theorem lookup_encodeHeaders_authorization (info : RequestInfo) (url : Url) :
    (encodeHeaders info url).lookup kAuthorization =
      (info.headers.lookup kAuthorization).or (urlCredentials url) := by
  -- the last step of `htmlEncode`, on whatever the steps in front of it have left
  have hwritten (headers : HeaderMap)
      (h : headers.lookup kAuthorization = info.headers.lookup kAuthorization) :
      AList.lookup kAuthorization (if (headers.lookup kAuthorization).isNone && !url.userInfo.isEmpty then
          headers.insert kAuthorization (basicCredentials url.userInfo) else headers) =
        (info.headers.lookup kAuthorization).or (urlCredentials url) := by
    rw [h, urlCredentials]
    cases hlookup : info.headers.lookup kAuthorization with
    | some value =>
      rw [Option.isNone_some, Bool.false_and, if_neg Bool.false_ne_true, h, hlookup]
      rfl
    | none =>
      cases hempty : url.userInfo.isEmpty with
      | true => exact h.trans hlookup
      | false => exact AList.lookup_insert headers
  unfold encodeHeaders
  apply hwritten
  rw [AList.lookup_insert_ne (by decide)]
  cases info.bodyEmpty with
  | true => rfl
  | false => exact AList.lookup_insert_ne (by decide)

/-- The other fields do not depend on that. -/
theorem lookup_encodeHeaders_of_ne (info : RequestInfo) (url : Url) {name : Bytes}
    (h : name ≠ kAuthorization) :
    (encodeHeaders info url).lookup name =
      if name = kHost then some url.host
      else if name = kContentLength then (lengthField info).or (info.headers.lookup name)
      else info.headers.lookup name := by
  have hwritten (headers : HeaderMap) :
      AList.lookup name (if (headers.lookup kAuthorization).isNone && !url.userInfo.isEmpty then
          headers.insert kAuthorization (basicCredentials url.userInfo) else headers) =
        headers.lookup name := by
    split
    · exact AList.lookup_insert_ne h
    · rfl
  unfold encodeHeaders
  rw [hwritten]
  by_cases hhost : name = kHost
  · rw [if_pos hhost, hhost, AList.lookup_insert]
  · rw [if_neg hhost, AList.lookup_insert_ne hhost, lengthField]
    by_cases hlength : name = kContentLength
    · rw [if_pos hlength, hlength]
      cases info.bodyEmpty with
      | true => rfl
      | false => exact AList.lookup_insert _
    · rw [if_neg hlength]
      cases info.bodyEmpty with
      | true => rfl
      | false => exact AList.lookup_insert_ne hlength

/-! ### Values `htmlEncode` makes up -/

/-- A number is written in digits. -/
theorem isdigit_of_mem_toDecimal {n : Nat} {c : UInt8} (h : c ∈ toDecimal n) : isdigit c = true := by
  rw [toDecimal] at h
  split at h
  · rw [List.mem_singleton.mp h]
    decide
  · obtain ⟨d, hd, rfl⟩ := List.mem_map.mp h
    have hdigits : ∀ d < 10, isdigit (48 + d).toUInt8 = true := by decide +kernel
    exact hdigits d (Nat.digits_lt_base (by decide) (List.mem_reverse.mp hd))

/-- A number fits in a line. -/
theorem isLine_toDecimal (n : Nat) : IsLine (toDecimal n) :=
  ⟨fun h => absurd (isdigit_of_mem_toDecimal h) (by decide),
    fun h => absurd (isdigit_of_mem_toDecimal h) (by decide)⟩

/-- The characters of Base64. -/
def isBase64 (c : UInt8) : Bool := kBase64Content.contains c || c == padding

/-- Base64 text is in the alphabet or is padding. -/
theorem isBase64_of_mem {str : Bytes} {c : UInt8} (h : c ∈ base64Encode str) : isBase64 c = true := by
  obtain ⟨body, hbody, hmem⟩ := encodeGroups_eq_append str
  rw [base64Encode_eq_groups, hbody] at h
  unfold isBase64
  rcases List.mem_append.mp h with hbody | hpadding
  · rw [List.contains_iff_mem.mpr (hmem c hbody), Bool.true_or]
  · rw [List.eq_of_mem_replicate hpadding, beq_self_eq_true, Bool.or_true]

/-- Credentials fit in a line. -/
theorem isLine_basicCredentials (userInfo : Bytes) : IsLine (basicCredentials userInfo) :=
  IsLine.append (by decide)
    ⟨fun h => absurd (isBase64_of_mem h) (by decide), fun h => absurd (isBase64_of_mem h) (by decide)⟩

/-! ### Well-formed headers -/

/-- Headers whose names are tokens and whose values are lines. -/
def WellFormedHeaders (headers : HeaderMap) : Prop :=
  ∀ name value, headers.lookup name = some value → IsToken name ∧ IsLine value

/-- The name `Authorization` is a token. -/
theorem isToken_kAuthorization : IsToken kAuthorization := by decide +kernel

/-- The name `Host` is a token. -/
theorem isToken_kHost : IsToken kHost := by decide +kernel

/-- The name `Content-Length` is a token. -/
theorem isToken_kContentLength : IsToken kContentLength := by decide +kernel

/-- From well-formed headers `htmlEncode` makes well-formed headers, as long as the host is a line. -/
theorem WellFormedHeaders.encodeHeaders {info : RequestInfo} (h : WellFormedHeaders info.headers)
    {url : Url} (hhost : IsLine url.host) : WellFormedHeaders (encodeHeaders info url) := by
  intro name value hlookup
  -- the field is the caller's, or one that `htmlEncode` writes
  by_cases hauthorization : name = kAuthorization
  · rw [hauthorization, lookup_encodeHeaders_authorization] at hlookup
    rw [hauthorization]
    refine ⟨isToken_kAuthorization, ?_⟩
    cases hcaller : info.headers.lookup kAuthorization with
    | some value' =>
      rw [hcaller, Option.some_or, Option.some.injEq] at hlookup
      exact hlookup ▸ (h _ _ hcaller).2
    | none =>
      rw [hcaller, Option.none_or, urlCredentials] at hlookup
      split at hlookup
      · cases hlookup
      · rw [← Option.some.inj hlookup]
        exact isLine_basicCredentials _
  · rw [lookup_encodeHeaders_of_ne _ _ hauthorization] at hlookup
    by_cases hname : name = kHost
    · rw [if_pos hname, Option.some.injEq] at hlookup
      exact hname ▸ hlookup ▸ ⟨isToken_kHost, hhost⟩
    · rw [if_neg hname] at hlookup
      by_cases hlength : name = kContentLength
      · rw [if_pos hlength, lengthField] at hlookup
        split at hlookup
        · exact h _ _ hlookup
        · rw [Option.some_or, Option.some.injEq] at hlookup
          exact hlength ▸ hlookup ▸ ⟨isToken_kContentLength, isLine_toDecimal _⟩
      · rw [if_neg hlength] at hlookup
        exact h _ _ hlookup

end HttpRequest
