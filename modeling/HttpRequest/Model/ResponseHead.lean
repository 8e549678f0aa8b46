import HttpRequest.Model.Utility
import HttpRequest.Model.Encode

/-! # Parsing a response head

`parseResponseHeader` and the two instances of `parseFieldValue` that `Request::receive` uses. -/

namespace HttpRequest

/-- `kHeaderEnd`. -/
def kHeaderEnd : Bytes := bytes "\r\n\r\n"

/-- `kHTTPFlag`. -/
def kHTTPFlag : Bytes := bytes "HTTP/"

/-- The key `Version`, under which the parser stores the version of the status line. -/
def kVersion : Bytes := bytes "Version"

/-- The key `Location`. -/
def kLocation : Bytes := bytes "Location"

/-- The key `Transfer-Encoding`. -/
def kTransferEncoding : Bytes := bytes "Transfer-Encoding"

/-- `"chunked"`. -/
def kChunked : Bytes := bytes "chunked"

/-- The part of `parseResponseHeader` that reads the status line. The status code is taken from a fixed
position of the line, the version and the reason phrase from one relative to `HTTP/`. -/
def parseStatusLine (statusView : Bytes) (response : ResponseHeader) :
    Except Fault ResponseHeader :=
  match find kHTTPFlag statusView with
  | none => .ok response
  | some versionPos => do
    -- `HTTP/` is searched for anywhere in the line
    let version ← substr statusView versionPos (kHTTPFlag.length + 3)
    -- the position of the code is counted from the front of the line, not from `versionPos`
    let statusCode ← stoi (← substr statusView (kHTTPFlag.length + 4) 3)
    let reasonPhrase ← substrFrom statusView (versionPos + kHTTPFlag.length + 3 + 1 + 3 + 1)
    .ok { headers := response.headers.insert kVersion version
          httpStatusCode := UInt16.ofInt statusCode
          reasonPhrase := reasonPhrase }

/-- One pass of the field loop of `parseResponseHeader`. -/
def parseFieldLine (headers : HeaderMap) (view : Bytes) : HeaderMap :=
  if view.isEmpty || (findChar ':' view).isNone then headers
  else
    match StringUtil.split view kFieldSeparator with
    -- a second separator makes three tokens, and such a field is dropped
    | [name, value] =>
      headers.insert (StringUtil.removePrefix name 32) (StringUtil.removePrefix value 32)
    | _ => headers

/-- What `parseResponseHeader` does with the text in front of the end of the head. The field loop runs
over every line, the status line among them. -/
def parseHeaderView (headerView : Bytes) (response : ResponseHeader) :
    Except Fault ResponseHeader :=
  let headerViews := StringUtil.split headerView kCRLF
  match headerViews with
  -- `headerViews[0]` of a head that starts with its end
  | [] => .error .indexOutOfBounds
  | statusView :: _ => do
    let response ← parseStatusLine statusView response
    .ok { response with headers := headerViews.foldl parseFieldLine response.headers }

/-- `parseResponseHeader`: whether the head is complete, its length, and the header it was parsed
into. -/
def parseResponseHeader (data : Bytes) (response : ResponseHeader) :
    Except Fault (Bool × Nat × ResponseHeader) :=
  match find kHeaderEnd data with
  | none => .ok (false, 0, response)
  | some headerEndPos => do
    let response ← parseHeaderView (data.take headerEndPos) response
    .ok (true, headerEndPos + kHeaderEnd.length, response)

/-- `parseFieldValue<int64_t>`: the value is replaced when the key is there. -/
def parseFieldValueInt64 (headers : HeaderMap) (key : Bytes) (value : Int) : Except Fault Int :=
  match headers.lookup key with
  | none => .ok value
  | some text => stoll text

/-- `parseFieldValue<std::string>`. -/
def parseFieldValueString (headers : HeaderMap) (key : Bytes) (value : Bytes) : Bytes :=
  (headers.lookup key).getD value

/-! ### The end of the head -/

/-- Without an empty line the head is not complete. -/
theorem parseResponseHeader_of_find_none {data : Bytes} (h : find kHeaderEnd data = none)
    (response : ResponseHeader) : parseResponseHeader data response = .ok (false, 0, response) := by
  rw [parseResponseHeader, h]

/-- A complete head is parsed from the text in front of its end. -/
theorem parseResponseHeader_of_find {data : Bytes} {pos : Nat} (h : find kHeaderEnd data = some pos)
    (response : ResponseHeader) :
    parseResponseHeader data response =
      (parseHeaderView (data.take pos) response).map fun response =>
        (true, pos + kHeaderEnd.length, response) := by
  rw [parseResponseHeader, h]
  cases hview : parseHeaderView (data.take pos) response with
  | error fault =>
    simp only [hview]
    rfl
  | ok response' =>
    simp only [hview]
    rfl

/-- What the parser returns: it finds the end of the head and parses the text in front of it, or leaves the
header as it is. -/
theorem parseResponseHeader_cases {data : Bytes} {response response' : ResponseHeader} {complete : Bool}
    {size : Nat} (h : parseResponseHeader data response = .ok (complete, size, response')) :
    (complete = true ∧ ∃ pos, find kHeaderEnd data = some pos ∧ size = pos + kHeaderEnd.length ∧
        parseHeaderView (data.take pos) response = .ok response') ∨
      (complete = false ∧ find kHeaderEnd data = none ∧ response' = response) := by
  cases hpos : find kHeaderEnd data with
  | none =>
    rw [parseResponseHeader_of_find_none hpos] at h
    cases h
    exact .inr ⟨rfl, rfl, rfl⟩
  | some pos =>
    rw [parseResponseHeader_of_find hpos] at h
    cases hview : parseHeaderView (data.take pos) response with
    | error fault =>
      rw [hview] at h
      cases h
    | ok response'' =>
      rw [hview] at h
      cases h
      exact .inl ⟨rfl, pos, rfl, rfl, hview⟩

/-- What a complete head says about the data it was parsed from. -/
theorem find_of_parseResponseHeader {data : Bytes} {response response' : ResponseHeader} {size : Nat}
    (h : parseResponseHeader data response = .ok (true, size, response')) :
    ∃ pos, find kHeaderEnd data = some pos ∧ size = pos + kHeaderEnd.length ∧
      parseHeaderView (data.take pos) response = .ok response' := by
  obtain ⟨-, hfound⟩ | ⟨hfalse, -⟩ := parseResponseHeader_cases h
  · exact hfound
  · cases hfalse

/-- A head that is not complete leaves the header as it is. -/
theorem find_of_parseResponseHeader_false {data : Bytes} {response response' : ResponseHeader}
    {size : Nat} (h : parseResponseHeader data response = .ok (false, size, response')) :
    find kHeaderEnd data = none ∧ response' = response := by
  obtain ⟨htrue, -⟩ | ⟨-, hnone⟩ := parseResponseHeader_cases h
  · cases htrue
  · exact hnone

/-- A complete head is parsed in the same way whatever follows it. -/
theorem parseResponseHeader_append {data : Bytes} {response response' : ResponseHeader} {size : Nat}
    (h : parseResponseHeader data response = .ok (true, size, response')) (more : Bytes) :
    parseResponseHeader (data ++ more) response = .ok (true, size, response') := by
  obtain ⟨pos, hpos, rfl, hview⟩ := find_of_parseResponseHeader h
  have hle := find_add_length_le hpos
  rw [parseResponseHeader_of_find (find_append_right more hpos),
    List.take_append_of_le_length (by omega), hview]
  rfl

/-- A complete head is parsed in the same way without what follows it. -/
theorem parseResponseHeader_take {data : Bytes} {response response' : ResponseHeader} {size : Nat}
    (h : parseResponseHeader data response = .ok (true, size, response')) :
    (data.take size).length = size ∧
      parseResponseHeader (data.take size) response = .ok (true, size, response') := by
  obtain ⟨pos, hpos, rfl, hview⟩ := find_of_parseResponseHeader h
  have hle := find_add_length_le hpos
  refine ⟨List.length_take_of_le hle, ?_⟩
  have hfind : find kHeaderEnd (data.take (pos + kHeaderEnd.length)) = some pos := by
    cases hfound : find kHeaderEnd (data.take (pos + kHeaderEnd.length)) with
    | none =>
      -- the end found in the data lies in front of the cut
      refine absurd ⟨data.take pos, [], ?_⟩ (find_eq_none.mp hfound)
      conv_rhs => rw [eq_append_of_find hpos]
      rw [List.append_nil, List.take_left' ]
      simp only [List.length_append, List.length_take]
      omega
    | some pos' =>
      have hwhole := find_append_right (data.drop (pos + kHeaderEnd.length)) hfound
      rw [List.take_append_drop, hpos] at hwhole
      exact hwhole.symm
  rw [parseResponseHeader_of_find hfind, List.take_take, Nat.min_eq_left (by omega), hview]
  rfl

/-- Until its last byte has arrived, a head is not complete. -/
theorem parseResponseHeader_of_prefix {data front : Bytes} {response response' : ResponseHeader}
    {size : Nat} (h : parseResponseHeader data response = .ok (true, size, response'))
    (hfront : front <+: data) (hlt : front.length < size) :
    parseResponseHeader front response = .ok (false, 0, response) := by
  obtain ⟨pos, hpos, rfl, -⟩ := find_of_parseResponseHeader h
  apply parseResponseHeader_of_find_none
  cases hfind : find kHeaderEnd front with
  | none => rfl
  | some pos' =>
    -- an end inside the prefix would be the end of the whole
    obtain ⟨more, rfl⟩ := hfront
    have hle := find_add_length_le hfind
    rw [find_append_right more hfind, Option.some.injEq] at hpos
    omega

end HttpRequest
