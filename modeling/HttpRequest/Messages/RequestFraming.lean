import HttpRequest.Messages.EncodedFields

/-! # Reading an encoded request

A server's view of what `htmlEncode` sends: a reader for the request grammar of RFC 7230, which takes a
request line, fields up to the first empty line, and as many bytes of body as `Content-Length` says. Behind
a body `htmlEncode` sends a line break that belongs to no message, so only requests without a body can be
read back and leave nothing over; `wellFramed_iff` says which of them are. -/

namespace HttpRequest

open Foundations

/-! ### The reader -/

/-- What a reader makes of a request. -/
structure RequestMessage where
  method : Bytes
  target : Bytes
  fields : List (Bytes × Bytes)
  body : Bytes
  deriving DecidableEq, Repr

/-- A space or a tab. -/
def isBlank (c : UInt8) : Bool := c == 32 || c == 9

/-- The blanks. -/
theorem isBlank_iff {c : UInt8} : isBlank c = true ↔ c = 32 ∨ c = 9 := by
  rw [isBlank, Bool.or_eq_true, beq_iff_eq, beq_iff_eq]

/-- A value without the blanks around it. -/
def trimBlanks (value : Bytes) : Bytes := (value.dropWhile isBlank).rdropWhile isBlank

/-- `method SP request-target SP HTTP-version`. -/
def readRequestLine (line : Bytes) : Option (Bytes × Bytes) := do
  let (method, rest) ← line.dropInfix? [32]
  let (target, version) ← rest.dropInfix? [32]
  if IsToken method ∧ version = bytes "HTTP/1.1" then some (method, target) else none

/-- `field-name ":" OWS field-value OWS`. -/
def readField (line : Bytes) : Option (Bytes × Bytes) := do
  let (name, value) ← line.dropInfix? [58]
  if IsToken name then some (name, trimBlanks value) else none

/-- Fields up to the first empty line, at most `fuel` lines of them. -/
def readFields : Nat → Bytes → Option (List (Bytes × Bytes) × Bytes)
  | 0, _ => none
  | fuel + 1, text => do
    let (line, rest) ← text.dropInfix? kCRLF
    if line = [] then some ([], rest)
    else do
      let field ← readField line
      let (fields, rest) ← readFields fuel rest
      some (field :: fields, rest)

/-- Whether a field name is `Content-Length` in any case. -/
def isContentLength (name : Bytes) : Bool := name.map tolower == bytes "content-length"

/-- `1*DIGIT`. -/
def readDecimal (text : Bytes) : Option Nat :=
  if text ≠ [] ∧ text.all isdigit = true then some (digitsValue 10 text) else none

/-- The length of the body: zero without a `Content-Length`, and none where several disagree. -/
def bodyLength (fields : List (Bytes × Bytes)) : Option Nat :=
  match (fields.filter fun field => isContentLength field.1).map fun field => readDecimal field.2 with
  | [] => some 0
  | length :: rest => if rest.all (· == length) then length else none

/-- A message and the bytes left over behind it. -/
def readRequest (text : Bytes) : Option (RequestMessage × Bytes) := do
  let (line, rest) ← text.dropInfix? kCRLF
  let (method, target) ← readRequestLine line
  let (fields, rest) ← readFields (rest.length + 1) rest
  let length ← bodyLength fields
  if length ≤ rest.length then some (⟨method, target, fields, rest.take length⟩, rest.drop length)
  else none

/-- **What reading a request has to give back**: its method, its target, the fields of the updated header
map, its body, and no byte left over. -/
def WellFramed (order : IterationOrder) (info : RequestInfo) (url : Url) : Prop :=
  readRequest (htmlEncode order info url).1 =
    some (⟨getMethodName info.methodType, requestTarget url,
      (order.entries (htmlEncode order info url).2.headers).map fun pair => (pair.1, pair.2),
      info.bodyView⟩, [])

/-! ### Reading what was written -/

/-- A request line is read as the method and the target it is composed of. -/
theorem readRequestLine_append {method target : Bytes} (hmethod : IsToken method)
    (htarget : (32 : UInt8) ∉ target) :
    readRequestLine (method ++ bytes " " ++ target ++ bytes " HTTP/1.1") = some (method, target) := by
  have hfirst : (method ++ bytes " " ++ target ++ bytes " HTTP/1.1").dropInfix? [32] =
      some (method, target ++ bytes " HTTP/1.1") := by
    rw [List.append_assoc (method ++ bytes " ")]
    exact dropInfix?_of_not_mem (hmethod.not_mem (by decide))
  have hsecond : (target ++ bytes " HTTP/1.1").dropInfix? [32] = some (target, bytes "HTTP/1.1") := by
    have hspace : bytes " HTTP/1.1" = [32] ++ bytes "HTTP/1.1" := by decide
    rw [hspace, ← List.append_assoc]
    exact dropInfix?_of_not_mem htarget
  rw [readRequestLine, hfirst]
  show (do
    let (target, version) ← (target ++ bytes " HTTP/1.1").dropInfix? [32]
    if IsToken method ∧ version = bytes "HTTP/1.1" then some (method, target) else none) = _
  rw [hsecond]
  exact if_pos ⟨hmethod, rfl⟩

/-- The colon behind a name is found. -/
theorem dropInfix?_colon {name : Bytes} (hname : (58 : UInt8) ∉ name) (value : Bytes) :
    (name ++ kFieldSeparator ++ value).dropInfix? [58] = some (name, 32 :: value) := by
  have hcolon : kFieldSeparator = [58] ++ [32] := by decide
  rw [hcolon, ← List.append_assoc, List.append_assoc (name ++ [58])]
  exact dropInfix?_of_not_mem hname

/-- A blank in front is trimmed. -/
theorem trimBlanks_cons_blank {c : UInt8} (hc : isBlank c = true) (value : Bytes) :
    trimBlanks (c :: value) = trimBlanks value := by
  rw [trimBlanks, List.dropWhile_cons_of_pos hc]
  rfl

/-- The line of a field, read back. -/
theorem readField_append {name value : Bytes} (hname : IsToken name) :
    readField (name ++ kFieldSeparator ++ value) = some (name, trimBlanks value) := by
  rw [readField, dropInfix?_colon (hname.not_mem (by decide))]
  show (if IsToken name then some (name, trimBlanks (32 :: value)) else none) = _
  rw [if_pos hname, trimBlanks_cons_blank (by decide)]

/-- Fields and the empty line behind them, read back. -/
theorem readFields_append {entries : List (Bytes × Bytes)}
    (h : ∀ entry ∈ entries, IsToken entry.1 ∧ IsLine entry.2) (rest : Bytes) :
    ∀ fuel, entries.length < fuel →
      readFields fuel (entries.flatMap (fun entry => fieldLine entry.1 entry.2) ++ kCRLF ++ rest) =
        some (entries.map fun entry => (entry.1, trimBlanks entry.2), rest) := by
  induction entries with
  | nil =>
    intro fuel hfuel
    obtain ⟨fuel, rfl⟩ : ∃ k, fuel = k + 1 := ⟨fuel - 1, by omega⟩
    have hfind : ([].flatMap (fun entry : Bytes × Bytes => fieldLine entry.1 entry.2) ++ kCRLF ++
        rest).dropInfix? kCRLF = some ([], rest) := dropInfix?_of_not_mem List.not_mem_nil
    rw [readFields, hfind]
    rfl
  | cons entry entries ih =>
    intro fuel hfuel
    obtain ⟨fuel, rfl⟩ : ∃ k, fuel = k + 1 := ⟨fuel - 1, by omega⟩
    obtain ⟨hname, hvalue⟩ := h entry List.mem_cons_self
    have hline : IsLine (entry.1 ++ kFieldSeparator ++ entry.2) :=
      (hname.isLine.append (by decide)).append hvalue
    have hempty : entry.1 ++ kFieldSeparator ++ entry.2 ≠ [] := by
      rw [List.append_assoc]
      exact List.append_ne_nil_of_left_ne_nil hname.1 _
    have hfind : ((entry :: entries).flatMap (fun entry => fieldLine entry.1 entry.2) ++ kCRLF ++
        rest).dropInfix? kCRLF = some (entry.1 ++ kFieldSeparator ++ entry.2,
          entries.flatMap (fun entry => fieldLine entry.1 entry.2) ++ kCRLF ++ rest) := by
      rw [List.flatMap_cons, fieldLine, List.append_assoc, List.append_assoc, ← List.append_assoc _ kCRLF]
      exact dropInfix?_of_not_mem hline.1
    have hrest := ih (fun entry' hentry' => h entry' (List.mem_cons_of_mem _ hentry')) fuel
      (by rw [List.length_cons] at hfuel; omega)
    rw [readFields, hfind]
    show (if entry.1 ++ kFieldSeparator ++ entry.2 = [] then some ([], _) else do
      let field ← readField (entry.1 ++ kFieldSeparator ++ entry.2)
      let (fields, rest) ← readFields fuel
        (entries.flatMap (fun entry => fieldLine entry.1 entry.2) ++ kCRLF ++ rest)
      some (field :: fields, rest)) = _
    rw [if_neg hempty, readField_append hname, hrest]
    rfl

/-- No body is announced exactly when every `Content-Length` is a zero. -/
theorem bodyLength_eq_zero_iff (fields : List (Bytes × Bytes)) :
    bodyLength fields = some 0 ↔
      ∀ field ∈ fields, isContentLength field.1 = true → readDecimal field.2 = some 0 := by
  have hmem : (∀ length ∈ (fields.filter fun field => isContentLength field.1).map
        (fun field => readDecimal field.2), length = some 0) ↔
      ∀ field ∈ fields, isContentLength field.1 = true → readDecimal field.2 = some 0 := by
    simp only [List.forall_mem_map, List.mem_filter, and_imp]
  rw [← hmem, bodyLength]
  cases (fields.filter fun field => isContentLength field.1).map fun field => readDecimal field.2 with
  | nil => exact ⟨fun _ _ h => absurd h List.not_mem_nil, fun _ => rfl⟩
  | cons length rest =>
    dsimp only
    constructor
    · intro h
      split at h
      · next hall =>
        rw [List.all_eq_true] at hall
        intro length' hlength'
        rcases List.mem_cons.mp hlength' with rfl | hlength'
        · exact h
        · rw [eq_of_beq (hall length' hlength'), h]
      · cases h
    · intro h
      have hfirst := h length List.mem_cons_self
      have hall : rest.all (· == length) = true := List.all_eq_true.mpr fun length' hlength' => by
        rw [h length' (List.mem_cons_of_mem _ hlength'), hfirst]
        rfl
      rw [if_pos hall, hfirst]

/-! ### What is sent -/

/-- A URL whose host, path and query hold no space and no line break. -/
def UnbrokenUrl (url : Url) : Prop :=
  ∀ part ∈ [url.host, url.path, url.query], (32 : UInt8) ∉ part ∧ IsLine part

instance (url : Url) : Decidable (UnbrokenUrl url) := inferInstanceAs (Decidable (∀ part ∈ _, _))

/-- An unbroken URL has a target without a blank, which fits in a line. -/
theorem UnbrokenUrl.requestTarget {url : Url} (h : UnbrokenUrl url) :
    (32 : UInt8) ∉ requestTarget url ∧ IsLine (requestTarget url) := by
  have hpath := h url.path (by simp)
  have hquery := h url.query (by simp)
  rw [HttpRequest.requestTarget]
  split
  · rw [List.append_nil]
    exact hpath
  · refine ⟨fun hmem => ?_, hpath.2.append (IsLine.append (by decide) hquery.2)⟩
    rcases List.mem_append.mp hmem with hmem | hmem
    · exact hpath.1 hmem
    · exact (List.mem_append.mp hmem).elim (by decide) hquery.1

/-- Every method's name is a token. -/
theorem isToken_getMethodName (method : HttpMethodType) : IsToken (getMethodName method) := by
  cases method <;> decide +kernel

/-- Whatever the order of iteration, the entries are the fields of the map. -/
theorem mem_entries_iff (order : IterationOrder) (headers : HeaderMap) (name value : Bytes) :
    (name, value) ∈ (order.entries headers).map (fun pair => (pair.1, pair.2)) ↔
      headers.lookup name = some value := by
  rw [List.mem_map]
  constructor
  · rintro ⟨⟨name', value'⟩, hmem, hpair⟩
    obtain ⟨rfl, rfl⟩ := Prod.mk.inj hpair
    exact AList.mem_lookup_iff.mpr ((order.perm headers).mem_iff.mp hmem)
  · intro h
    exact ⟨⟨name, value⟩, (order.perm headers).mem_iff.mpr (AList.mem_lookup_iff.mp h), rfl⟩

/-- The bytes behind the empty line. -/
def sentBody (info : RequestInfo) : Bytes := if info.bodyEmpty then [] else info.bodyView ++ kCRLF

/-- What is sent: the request line, the fields, the empty line, and what is behind it. -/
theorem htmlEncode_fst (order : IterationOrder) (info : RequestInfo) (url : Url) :
    (htmlEncode order info url).1 =
      requestLine info url ++
        (((order.entries (encodeHeaders info url)).map fun pair => (pair.1, pair.2)).flatMap
          (fun entry => fieldLine entry.1 entry.2) ++ kCRLF ++ sentBody info) := by
  rw [htmlEncode, sentBody, List.flatMap_map]
  cases info.bodyEmpty with
  | true => simp
  | false => simp

/-- Every entry writes one byte at least. -/
theorem length_le_flatMap_fieldLine (entries : List (Bytes × Bytes)) :
    entries.length ≤ (entries.flatMap fun entry => fieldLine entry.1 entry.2).length := by
  induction entries with
  | nil => exact Nat.le_refl 0
  | cons entry entries ih =>
    have hpos : 1 ≤ (fieldLine entry.1 entry.2).length := by
      rw [fieldLine, List.length_append]
      exact Nat.le_add_left_of_le (by decide)
    rw [List.flatMap_cons, List.length_append, List.length_cons]
    omega

/-- The first line of what is sent. -/
theorem dropInfix?_htmlEncode (order : IterationOrder) (info : RequestInfo) {url : Url}
    (hurl : UnbrokenUrl url) :
    (htmlEncode order info url).1.dropInfix? kCRLF =
      some (getMethodName info.methodType ++ bytes " " ++ requestTarget url ++ bytes " HTTP/1.1",
        ((order.entries (encodeHeaders info url)).map fun pair => (pair.1, pair.2)).flatMap
          (fun entry => fieldLine entry.1 entry.2) ++ kCRLF ++ sentBody info) := by
  have hversion : bytes " HTTP/1.1\r\n" = bytes " HTTP/1.1" ++ kCRLF := by decide
  have hmethod := (isToken_getMethodName info.methodType).isLine
  rw [htmlEncode_fst, requestLine, hversion, ← List.append_assoc _ _ kCRLF]
  exact dropInfix?_of_not_mem
    (((hmethod.append (by decide)).append hurl.requestTarget.2).append (by decide)).1

/-- **What a server reads.** Behind the fields, without the blanks around their values, it takes as many
bytes as they say. -/
theorem readRequest_htmlEncode (order : IterationOrder) {info : RequestInfo} {url : Url}
    (hurl : UnbrokenUrl url) (hheaders : WellFormedHeaders info.headers) :
    readRequest (htmlEncode order info url).1 =
      (bodyLength ((order.entries (encodeHeaders info url)).map fun pair =>
        (pair.1, trimBlanks pair.2))).bind fun length =>
          if length ≤ (sentBody info).length then
            some (⟨getMethodName info.methodType, requestTarget url,
              (order.entries (encodeHeaders info url)).map fun pair => (pair.1, trimBlanks pair.2),
              (sentBody info).take length⟩, (sentBody info).drop length)
          else none := by
  have hmethod := isToken_getMethodName info.methodType
  have hentries : ∀ entry ∈ (order.entries (encodeHeaders info url)).map fun pair => (pair.1, pair.2),
      IsToken entry.1 ∧ IsLine entry.2 := by
    rintro ⟨name, value⟩ hmem
    exact hheaders.encodeHeaders (hurl url.host (by simp)).2 name value
      ((mem_entries_iff order _ name value).mp hmem)
  have hfuel : ((order.entries (encodeHeaders info url)).map fun pair => (pair.1, pair.2)).length <
      (((order.entries (encodeHeaders info url)).map fun pair => (pair.1, pair.2)).flatMap
        (fun entry => fieldLine entry.1 entry.2) ++ kCRLF ++ sentBody info).length + 1 := by
    have hle := length_le_flatMap_fieldLine
      ((order.entries (encodeHeaders info url)).map fun pair => (pair.1, pair.2))
    rw [List.length_append, List.length_append]
    omega
  have hfields := readFields_append hentries (sentBody info) _ hfuel
  rw [readRequest, dropInfix?_htmlEncode order info hurl]
  show (do
    let (method, target) ← readRequestLine
      (getMethodName info.methodType ++ bytes " " ++ requestTarget url ++ bytes " HTTP/1.1")
    let (fields, rest) ← readFields _ _
    let length ← bodyLength fields
    if length ≤ rest.length then
      some (RequestMessage.mk method target fields (rest.take length), rest.drop length)
    else none) = _
  rw [readRequestLine_append hmethod hurl.requestTarget.1, hfields, List.map_map]
  rfl

/-! ### Which requests are read as they were meant -/

/-- With a body there is a line break left over. -/
theorem not_wellFramed_of_body (order : IterationOrder) {info : RequestInfo} {url : Url}
    (hurl : UnbrokenUrl url) (hheaders : WellFormedHeaders info.headers)
    (hbody : info.bodyEmpty = false) : ¬WellFramed order info url := by
  intro h
  rw [WellFramed, readRequest_htmlEncode order hurl hheaders, Option.bind_eq_some_iff] at h
  obtain ⟨length, -, hread⟩ := h
  split at hread
  · obtain ⟨hmessage, hrest⟩ := Prod.mk.inj (Option.some.inj hread)
    have htake : (sentBody info).take length = info.bodyView := congrArg RequestMessage.body hmessage
    have hall : sentBody info = info.bodyView := by
      rw [← htake, List.take_of_length_le (List.drop_eq_nil_iff.mp hrest)]
    rw [sentBody, hbody, if_neg Bool.false_ne_true] at hall
    have hlen := congrArg List.length hall
    have hbreak : kCRLF.length = 2 := rfl
    rw [List.length_append, hbreak] at hlen
    omega
  · cases hread

/-- The fields a reader finds are those of the header map exactly when no value loses blanks. -/
theorem map_trimBlanks_eq_iff (order : IterationOrder) (headers : HeaderMap) :
    ((order.entries headers).map fun pair => (pair.1, trimBlanks pair.2)) =
        ((order.entries headers).map fun pair => (pair.1, pair.2)) ↔
      ∀ name value, headers.lookup name = some value → trimBlanks value = value := by
  rw [List.map_inj_left]
  constructor
  · intro h name value hlookup
    obtain ⟨pair, hpair, heq⟩ := List.mem_map.mp ((mem_entries_iff order headers name value).mpr hlookup)
    obtain ⟨-, rfl⟩ := Prod.mk.inj heq
    exact (Prod.mk.inj (h pair hpair)).2
  · intro h pair hpair
    rw [h pair.1 pair.2 ((mem_entries_iff order headers _ _).mp (List.mem_map_of_mem hpair))]

/-- Without a body, the header map that is sent holds the host, the caller's other fields, and credentials
from the URL where the caller brought none. -/
theorem lookup_encodeHeaders_iff {info : RequestInfo} (hbody : info.bodyEmpty = true) (url : Url)
    (name value : Bytes) :
    (encodeHeaders info url).lookup name = some value ↔
      (name = kHost ∧ value = url.host) ∨ (name ≠ kHost ∧ info.headers.lookup name = some value) ∨
        name = kAuthorization ∧ info.headers.lookup kAuthorization = none ∧
          urlCredentials url = some value := by
  have hlength : lengthField info = none := by rw [lengthField, hbody]; rfl
  by_cases hauthorization : name = kAuthorization
  · have hne : kAuthorization ≠ kHost := by decide
    rw [hauthorization, lookup_encodeHeaders_authorization, Option.or_eq_some_iff]
    constructor
    · rintro (h | ⟨hnone, h⟩)
      · exact .inr (.inl ⟨hne, h⟩)
      · exact .inr (.inr ⟨rfl, hnone, h⟩)
    · rintro (⟨h, -⟩ | ⟨-, h⟩ | ⟨-, hnone, h⟩)
      · exact absurd h hne
      · exact .inl h
      · exact .inr ⟨hnone, h⟩
  · rw [lookup_encodeHeaders_of_ne _ _ hauthorization, hlength, Option.none_or]
    by_cases hhost : name = kHost
    · rw [if_pos hhost, Option.some.injEq]
      constructor
      · rintro rfl
        exact .inl ⟨hhost, rfl⟩
      · rintro (⟨-, rfl⟩ | ⟨hne, -⟩ | ⟨h, -⟩)
        · rfl
        · exact absurd hhost hne
        · exact absurd h hauthorization
    · rw [if_neg hhost, ite_self]
      constructor
      · exact fun h => .inr (.inl ⟨hhost, h⟩)
      · rintro (⟨h, -⟩ | ⟨-, h⟩ | ⟨h, -⟩)
        · exact absurd h hhost
        · exact h
        · exact absurd h hauthorization

/-- Credentials have no blanks around them. -/
theorem trimBlanks_basicCredentials {userInfo : Bytes} (h : userInfo ≠ []) :
    trimBlanks (basicCredentials userInfo) = basicCredentials userInfo := by
  have hne : base64Encode userInfo ≠ [] := by
    intro hempty
    have hnil : base64Encode [] = [] := rfl
    exact h (base64Encode_injective (hempty.trans hnil.symm))
  have hfront : (basicCredentials userInfo).dropWhile isBlank = basicCredentials userInfo := by
    have hbasic : bytes "Basic " = 66 :: bytes "asic " := by decide
    rw [basicCredentials, hbasic, List.cons_append, List.dropWhile_cons_of_neg (by decide)]
  rw [trimBlanks, hfront, List.rdropWhile_eq_self_iff]
  intro hne' hblank
  -- the last character is one of Base64
  have hlast : (basicCredentials userInfo).getLast hne' = (base64Encode userInfo).getLast hne :=
    List.getLast_append_of_ne_nil _ hne
  have hchar := isBase64_of_mem (List.getLast_mem hne)
  rw [← hlast] at hchar
  rcases isBlank_iff.mp hblank with h | h <;> rw [h] at hchar <;> cases hchar

/-- A body that is empty has no bytes. -/
theorem bodyView_eq_nil {info : RequestInfo} (h : info.bodyEmpty = true) : info.bodyView = [] := by
  rw [RequestInfo.bodyEmpty] at h
  rw [RequestInfo.bodyView]
  cases hbody : info.body with
  | none => rfl
  | some body =>
    rw [hbody] at h
    dsimp only at h ⊢
    rw [Data.empty, Bool.or_eq_true, beq_iff_eq] at h
    rw [Data.view]
    rcases h with h | h
    · rw [if_pos h]
    · rw [Data.contents, h]
      exact ite_self []

/-- Without a body, reading is a matter of the fields: no value loses blanks, and no body is
announced. -/
theorem wellFramed_iff_fields (order : IterationOrder) {info : RequestInfo} {url : Url}
    (hurl : UnbrokenUrl url) (hheaders : WellFormedHeaders info.headers)
    (hbody : info.bodyEmpty = true) :
    WellFramed order info url ↔
      (∀ name value, (encodeHeaders info url).lookup name = some value → trimBlanks value = value) ∧
        ∀ name value, (encodeHeaders info url).lookup name = some value →
          isContentLength name = true → readDecimal value = some 0 := by
  have hsent : sentBody info = [] := by rw [sentBody, hbody]; rfl
  have hheadersSent : (htmlEncode order info url).2.headers = encodeHeaders info url := rfl
  have hzero (hfields : ((order.entries (encodeHeaders info url)).map fun pair =>
        (pair.1, trimBlanks pair.2)) =
      (order.entries (encodeHeaders info url)).map fun pair => (pair.1, pair.2)) :
      bodyLength ((order.entries (encodeHeaders info url)).map fun pair =>
          (pair.1, trimBlanks pair.2)) = some 0 ↔
        ∀ name value, (encodeHeaders info url).lookup name = some value →
          isContentLength name = true → readDecimal value = some 0 := by
    rw [hfields, bodyLength_eq_zero_iff]
    simp only [← mem_entries_iff order, Prod.forall]
  rw [WellFramed, readRequest_htmlEncode order hurl hheaders, hsent, bodyView_eq_nil hbody, hheadersSent,
    ← map_trimBlanks_eq_iff order, Option.bind_eq_some_iff]
  constructor
  · rintro ⟨length, hlength, hread⟩
    split at hread
    · next hle =>
      have hfields := congrArg RequestMessage.fields (Prod.mk.inj (Option.some.inj hread)).1
      rw [Nat.le_zero.mp hle] at hlength
      exact ⟨hfields, (hzero hfields).mp hlength⟩
    · cases hread
  · rintro ⟨hfields, hlengths⟩
    refine ⟨0, (hzero hfields).mpr hlengths, ?_⟩
    rw [hfields]
    rfl

/-- **Which requests are read as they were meant**: those without a body whose values, the host among
them, have no blanks around them, and in which no `Content-Length` of the caller announces a body. -/
theorem wellFramed_iff (order : IterationOrder) {info : RequestInfo} {url : Url}
    (hurl : UnbrokenUrl url) (hheaders : WellFormedHeaders info.headers) :
    WellFramed order info url ↔
      info.bodyEmpty = true ∧ trimBlanks url.host = url.host ∧
        (∀ name value, info.headers.lookup name = some value → name ≠ kHost →
          trimBlanks value = value) ∧
        ∀ name value, info.headers.lookup name = some value → isContentLength name = true →
          readDecimal value = some 0 := by
  cases hbody : info.bodyEmpty with
  | false => exact ⟨fun h => absurd h (not_wellFramed_of_body order hurl hheaders hbody),
      fun h => (by cases h.1)⟩
  | true =>
    have hsent := lookup_encodeHeaders_iff hbody url
    rw [wellFramed_iff_fields order hurl hheaders hbody]
    constructor
    · rintro ⟨htrim, hlength⟩
      refine ⟨rfl, ?_, fun name value hlookup hhost => ?_, fun name value hlookup hname => ?_⟩
      · exact htrim kHost _ ((hsent _ _).mpr (.inl ⟨rfl, rfl⟩))
      · exact htrim name value ((hsent _ _).mpr (.inr (.inl ⟨hhost, hlookup⟩)))
      · have hhost : name ≠ kHost := by
          rintro rfl
          exact absurd hname (by decide)
        exact hlength name value ((hsent _ _).mpr (.inr (.inl ⟨hhost, hlookup⟩))) hname
    · rintro ⟨-, hhost, htrim, hlength⟩
      refine ⟨fun name value hlookup => ?_, fun name value hlookup hname => ?_⟩
      · rcases (hsent _ _).mp hlookup with ⟨-, rfl⟩ | ⟨hne, hcaller⟩ | ⟨-, -, hurlCredentials⟩
        · exact hhost
        · exact htrim name value hcaller hne
        · rw [urlCredentials] at hurlCredentials
          split at hurlCredentials
          · cases hurlCredentials
          · next hempty =>
            rw [← Option.some.inj hurlCredentials]
            exact trimBlanks_basicCredentials fun hnil => hempty (List.isEmpty_iff.mpr hnil)
      · rcases (hsent _ _).mp hlookup with ⟨rfl, -⟩ | ⟨-, hcaller⟩ | ⟨rfl, -, -⟩
        · exact absurd hname (by decide)
        · exact hlength name value hcaller hname
        · exact absurd hname (by decide)

/-- There is nothing to say of an empty map. -/
theorem wellFormedHeaders_empty : WellFormedHeaders ∅ := fun _ _ h => by cases h

/-- Two fields of a caller, one of which announces no body. -/
def callerHeaders : HeaderMap :=
  AList.insert kContentLength (bytes "0") (AList.insert (bytes "Accept") (bytes "*/*") ∅)

/-- A `GET` with these fields. -/
theorem wellFramed_get :
    WellFramed .latestFirst { url := bytes "http://a/", methodType := .Get, headers := callerHeaders }
      (Url.parse (bytes "http://a/")) := by
  have hentries : ∀ field ∈ callerHeaders.entries.map fun pair => (pair.1, pair.2),
      (IsToken field.1 ∧ IsLine field.2) ∧ trimBlanks field.2 = field.2 ∧
        (isContentLength field.1 = true → readDecimal field.2 = some 0) := by decide +kernel
  have hfields (name value : Bytes) (h : callerHeaders.lookup name = some value) :
      (IsToken name ∧ IsLine value) ∧ trimBlanks value = value ∧
        (isContentLength name = true → readDecimal value = some 0) :=
    hentries (name, value) ((mem_entries_iff .latestFirst callerHeaders name value).mpr h)
  exact (wellFramed_iff .latestFirst (by decide) fun name value h => (hfields name value h).1).mpr
    ⟨rfl, by decide, fun name value h _ => (hfields name value h).2.1, fun name value h => (hfields name value h).2.2⟩

/-- A `POST` of one byte. -/
theorem not_wellFramed_post :
    ¬WellFramed .latestFirst
      { url := bytes "http://a/", methodType := .Post, body := some (Data.ofBytes (bytes "x")) }
      (Url.parse (bytes "http://a/")) :=
  not_wellFramed_of_body .latestFirst (by decide) wellFormedHeaders_empty rfl

end HttpRequest
