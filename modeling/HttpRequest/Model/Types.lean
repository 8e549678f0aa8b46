import HttpRequest.Model.Data

/-! # The types a request is made of

The enumerations of `Type.h`, the structures of `Request.h` and `Socket.h`. -/

namespace HttpRequest

/-! ### Enumerations -/

/-- `enum class IPVersion`. -/
inductive IPVersion
  | V4
  | V6
  | Auto
  deriving DecidableEq, Repr

/-- `enum class HttpMethodType`. -/
inductive HttpMethodType
  | Unknown
  | Get
  | Post
  | Put
  | Patch
  | Delete
  | Options
  deriving DecidableEq, Repr

/-- `getMethodName`, with the entries of `kMethodNameArray`. -/
def getMethodName : HttpMethodType → Bytes
  | .Unknown => bytes "Unknown"
  | .Get => bytes "GET"
  | .Post => bytes "POST"
  | .Put => bytes "PUT"
  | .Patch => bytes "PATCH"
  | .Delete => bytes "DELETE"
  | .Options => bytes "OPTIONS"

/-- `enum class ResultCode`. -/
inductive ResultCode
  | Success
  | Failed
  | CreateSocketFailed
  | GetFlagsFailed
  | SetFlagsFailed
  | SetNoSigPipeFailed
  | ConnectAddressError
  | ConnectTypeInconsistent
  | ConnectGenericError
  | Retry
  | RetryReachMaxCount
  | Timeout
  | UrlInvalid
  | SchemeNotSupported
  | GetAddressFailed
  | MethodError
  | Disconnected
  | Completed
  | RedirectError
  | RedirectReachMaxCount
  | ChunkSizeError
  deriving DecidableEq, Repr

/-- The members of `HttpStatusCode` the code compares with. The enumeration has 16 bits. -/
def HttpStatusCode.MovedPermanently : UInt16 := 301

/-- See `HttpStatusCode.MovedPermanently`. -/
def HttpStatusCode.Found : UInt16 := 302

/-- `struct SocketResult`. -/
structure SocketResult where
  resultCode : ResultCode := .Success
  errorCode : Int := 0
  deriving DecidableEq, Repr

/-- `SocketResult::isSuccess`. -/
def SocketResult.isSuccess (self : SocketResult) : Bool := self.resultCode == .Success

/-! ### Header maps -/

/-- `std::unordered_map<std::string, std::string>`. The order of the entries is the order in which they
were last written; what depends on the order of iteration takes an `IterationOrder`. -/
abbrev HeaderMap := AList fun _ : Bytes => Bytes

/-- The order in which a `std::unordered_map` is iterated: some order of all its entries. -/
structure IterationOrder where
  /-- The entries in the order of iteration. -/
  entries : HeaderMap → List (Σ _ : Bytes, Bytes)
  /-- Iteration visits every entry once. -/
  perm : ∀ headers, (entries headers).Perm headers.entries

/-- The order in which the entries were last written, the latest first. -/
def IterationOrder.latestFirst : IterationOrder := ⟨AList.entries, fun _ => List.Perm.refl _⟩

/-! ### Requests and responses -/

/-- `struct RequestInfo`. The timeout counts milliseconds. -/
structure RequestInfo where
  isAllowRedirect : Bool := true
  ipVersion : IPVersion := .Auto
  url : Bytes
  methodType : HttpMethodType := .Unknown
  headers : HeaderMap := ∅
  body : Option Data := none
  timeout : Int := 60 * 1000

namespace RequestInfo

/-- `RequestInfo::bodySize`. -/
def bodySize (self : RequestInfo) : Nat :=
  match self.body with
  | some body => body.length
  | none => 0

/-- `RequestInfo::bodyEmpty`. -/
def bodyEmpty (self : RequestInfo) : Bool :=
  match self.body with
  | some body => body.empty
  | none => true

/-- `info.body->view()`, empty when there is no body. -/
def bodyView (self : RequestInfo) : Bytes :=
  match self.body with
  | some body => body.view
  | none => []

end RequestInfo

/-- `struct ResponseHeader`. -/
structure ResponseHeader where
  headers : HeaderMap := ∅
  httpStatusCode : UInt16 := 0
  reasonPhrase : Bytes := []

/-- `ResponseHeader::isNeedRedirect`. -/
def ResponseHeader.isNeedRedirect (self : ResponseHeader) : Bool :=
  self.httpStatusCode == HttpStatusCode.MovedPermanently ||
    self.httpStatusCode == HttpStatusCode.Found

/-- `struct ResponseHandler`: which of the callbacks the caller installed. -/
structure ResponseHandler where
  onConnected : Bool
  onParseHeaderDone : Bool
  onData : Bool
  onDisconnected : Bool
  onError : Bool
  deriving DecidableEq, Repr

/-- All five callbacks installed. -/
def ResponseHandler.all : ResponseHandler := ⟨true, true, true, true, true⟩

end HttpRequest
