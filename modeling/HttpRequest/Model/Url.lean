import HttpRequest.Model.Bytes

/-! # `Url`

`Url::parse` of `Url.cpp`: five searches, each on what the one before it left. -/

namespace HttpRequest

open Foundations

/-- `kHttpDefaultPort`. -/
def kHttpDefaultPort : Bytes := bytes "80"

/-- `kHttpsDefaultPort`. -/
def kHttpsDefaultPort : Bytes := bytes "443"

/-- `kHttp`. -/
def kHttp : Bytes := bytes "http"

/-- `kHttps`. -/
def kHttps : Bytes := bytes "https"

/-- `kUrlFlag`. -/
def kUrlFlag : Bytes := bytes "://"

/-- `struct Url`, with the initial values of its members. -/
structure Url where
  scheme : Bytes := []
  host : Bytes := []
  port : Bytes := kHttpDefaultPort
  path : Bytes := []
  userInfo : Bytes := []
  query : Bytes := []
  fragment : Bytes := []
  isValid_ : Bool := true
  deriving DecidableEq, Repr

/-- `checkScheme`. -/
def checkScheme (scheme : Bytes) : Bool :=
  !scheme.isEmpty && scheme.all fun c => c == '-'.toUInt8 || isalnum c

namespace Url

/-- `Url::isValid`. -/
def isValid (self : Url) : Bool := self.isValid_

/-- `Url::isHttp`. -/
def isHttp (self : Url) : Bool := self.scheme == kHttp

/-- `Url::isHttps`. -/
def isHttps (self : Url) : Bool := self.scheme == kHttps

/-- `Url::isHttpScheme`, for a build with or without `ENABLE_HTTPS`. -/
def isHttpScheme (self : Url) (enableHttps : Bool) : Bool :=
  if enableHttps then self.isHttp || self.isHttps else self.isHttp

/-! ### Parsing

The steps of `Url::parse`, each taking the view and returning the component it takes off together with
the view that is left. -/

/-- The fragment and what is in front of it. -/
def parseFragment (view : Bytes) : Bytes × Bytes :=
  match findChar '#' view with
  | some fragmentPos => (view.drop (fragmentPos + 1), view.take fragmentPos)
  | none => ([], view)

/-- The query and what is in front of it. -/
def parseQuery (view : Bytes) : Bytes × Bytes :=
  match findChar '?' view with
  | some queryPos => (view.drop (queryPos + 1), view.take queryPos)
  | none => ([], view)

/-- The path, from its slash on, and what is in front of it. -/
def parsePath (view : Bytes) : Bytes × Bytes :=
  match findChar '/' view with
  | some pathPos => (view.drop pathPos, view.take pathPos)
  | none => (bytes "/", view)

/-- The user information and what is behind it. -/
def parseUserInfo (view : Bytes) : Bytes × Bytes :=
  match findChar '@' view with
  | some userInfoPos => (view.take userInfoPos, view.drop (userInfoPos + 1))
  | none => ([], view)

/-- Whether `view.find(']') < portPos`; `npos` is less than no position. -/
def closesBefore (view : Bytes) (portPos : Nat) : Bool :=
  match findChar ']' view with
  | some bracketPos => bracketPos < portPos
  | none => false

/-- The port of a scheme for an authority without one; other schemes keep the initial value. -/
def defaultPort (scheme : Bytes) : Bytes :=
  if scheme == kHttp then kHttpDefaultPort
  else if scheme == kHttps then kHttpsDefaultPort
  else kHttpDefaultPort

/-- The port and what is in front of it, the host. A colon inside the brackets of an IPv6 literal
introduces no port. -/
def parsePort (scheme view : Bytes) : Bytes × Bytes :=
  match rfindChar ':' view with
  | some portPos =>
    -- a colon is the last one of the view, so one behind the bracket decides
    if view.head? ≠ some '['.toUInt8 ∨ closesBefore view portPos then
      -- an empty port stays empty: the default stands for a missing colon only
      (view.drop (portPos + 1), view.take portPos)
    else (defaultPort scheme, view)
  | none => (defaultPort scheme, view)

/-- `Url::parse`. -/
def parse (url : Bytes) : Url :=
  match find kUrlFlag url with
  | none => { isValid_ := false }
  | some flagPos =>
    let schemeView := url.take flagPos
    if checkScheme schemeView then
      let view := url.drop (flagPos + kUrlFlag.length)
      -- each step takes its component off the end or the front of `view`
      let (fragment, view) := parseFragment view
      let (query, view) := parseQuery view
      let (path, view) := parsePath view
      let (userInfo, view) := parseUserInfo view
      let (port, host) := parsePort schemeView view
      { scheme := schemeView, host, port, path, userInfo, query, fragment, isValid_ := true }
    else { isValid_ := false }

end Url

example : Url.parse (bytes "http://[2001:db8::1]:8080/p?q#f") =
    { scheme := bytes "http", host := bytes "[2001:db8::1]", port := bytes "8080",
      path := bytes "/p", query := bytes "q", fragment := bytes "f" } := by decide

end HttpRequest
