import HttpRequest.Model.Types
import HttpRequest.Model.Url

/-! # Encoding a request

`encode::base64Encode` and `encode::htmlEncode` of `Request.cpp`. -/

namespace HttpRequest

/-! ### Base64 -/

/-- `kBase64Content`. -/
def kBase64Content : Bytes :=
  bytes "ABCDEFGHIJKLMNOPQRSTUVWXYZabcdefghijklmnopqrstuvwxyz0123456789+/"

/-- A value stored in a 32-bit `int` that wraps. -/
def toInt32 (n : Int) : Int := Int.bmod n (2 ^ 32)

/-- `kBase64Content[(val >> shift) & 0x3F]`. -/
def base64Char (val shift : Int) : UInt8 :=
  kBase64Content.getD ((val / 2 ^ shift.toNat) % 64).toNat 0

/-- The inner loop of `base64Encode`, at most `fuel` passes of it. It takes at most two, since `valb`
starts below 8 and drops by 6. -/
def base64Drain : Nat → Int → Int → Bytes → Int × Bytes
  | 0, _, valb, res => (valb, res)
  | fuel + 1, val, valb, res =>
    if 0 ≤ valb then base64Drain fuel val (valb - 6) (res ++ [base64Char val valb]) else (valb, res)

/-- The loop of `base64Encode` over the bytes of the string. -/
def base64Loop : Bytes → Int → Int → Bytes → Int × Int × Bytes
  | [], val, valb, res => (val, valb, res)
  | c :: str, val, valb, res =>
    -- `val` is never cut: its high bits wrap out of the 32
    let val := toInt32 (toInt32 (val * 2 ^ 8) + c.toNat)
    let (valb, res) := base64Drain 2 val (valb + 8) res
    base64Loop str val valb res

/-- `encode::base64Encode`. -/
def base64Encode (str : Bytes) : Bytes :=
  let (val, valb, res) := base64Loop str 0 (-6) []
  let res := if -6 < valb then res ++ [base64Char (toInt32 (val * 2 ^ 8)) (valb + 8)] else res
  res ++ List.replicate ((4 - res.length % 4) % 4) '='.toUInt8

/-! ### The request -/

/-- The key `Content-Length`. -/
def kContentLength : Bytes := bytes "Content-Length"

/-- The key `Host`. -/
def kHost : Bytes := bytes "Host"

/-- The key `Authorization`. -/
def kAuthorization : Bytes := bytes "Authorization"

/-- `kCRLF`. -/
def kCRLF : Bytes := bytes "\r\n"

/-- `": "`, which separates the name of a field from its value. -/
def kFieldSeparator : Bytes := bytes ": "

/-- The value `htmlEncode` gives the `Authorization` field. -/
def basicCredentials (userInfo : Bytes) : Bytes := bytes "Basic " ++ base64Encode userInfo

/-- What `htmlEncode` does to `info.headers`. -/
def encodeHeaders (info : RequestInfo) (url : Url) : HeaderMap :=
  let headers := info.headers
  let headers :=
    if info.bodyEmpty then headers else headers.insert kContentLength (toDecimal info.bodySize)
  -- `Host` replaces what the caller has set, and names no port
  let headers := headers.insert kHost url.host
  if (headers.lookup kAuthorization).isNone && !url.userInfo.isEmpty then
    headers.insert kAuthorization (basicCredentials url.userInfo)
  else headers

/-- The target `path[?query]`. -/
def requestTarget (url : Url) : Bytes :=
  url.path ++ (if url.query.isEmpty then [] else bytes "?" ++ url.query)

/-- The request line with its end of line. -/
def requestLine (info : RequestInfo) (url : Url) : Bytes :=
  getMethodName info.methodType ++ bytes " " ++ requestTarget url ++ bytes " HTTP/1.1\r\n"

/-- A field with its end of line. -/
def fieldLine (name value : Bytes) : Bytes := name ++ kFieldSeparator ++ value ++ kCRLF

/-- `encode::htmlEncode`: the bytes to send, and `info` with the headers it left there. -/
def htmlEncode (order : IterationOrder) (info : RequestInfo) (url : Url) : Bytes × RequestInfo :=
  let headers := encodeHeaders info url
  -- fields are written in the order of the hash table
  let fields := (order.entries headers).flatMap fun pair => fieldLine pair.1 pair.2
  -- the empty line behind the fields comes with the body, or as the last line break
  let body := if info.bodyEmpty then [] else kCRLF ++ info.bodyView
  (requestLine info url ++ fields ++ body ++ kCRLF, { info with headers })

end HttpRequest
