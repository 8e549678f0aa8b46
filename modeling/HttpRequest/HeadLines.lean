import HttpRequest.Model.ResponseHead

/-! # The lines of a response head

What `parseResponseHeader` makes of a head, line by line: when its status line can be read, which status
code it holds, and which value ends up under a key of the header map. -/

namespace HttpRequest

/-! ### Fields -/

/-- The field a line holds: the two tokens around `": "`. A token that starts with a space counts as
empty. -/
def fieldOf (line : Bytes) : Option (Bytes × Bytes) :=
  if line.isEmpty || (findChar ':' line).isNone then none
  else
    match StringUtil.split line kFieldSeparator with
    | [name, value] => some (StringUtil.removePrefix name 32, StringUtil.removePrefix value 32)
    | _ => none

/-- The value of the last field with a name. -/
def lastField (key : Bytes) (lines : List Bytes) : Option Bytes :=
  ((lines.filterMap fieldOf).reverse.find? fun field => field.1 = key).map Prod.snd

/-- The last field with a name is one of the fields. -/
theorem mem_of_lastField {key value : Bytes} {lines : List Bytes} (h : lastField key lines = some value) :
    (key, value) ∈ lines.filterMap fieldOf := by
  obtain ⟨field, hfind, rfl⟩ := Option.map_eq_some_iff.mp h
  have hkey : field.1 = key := by simpa using List.find?_some hfind
  rw [← hkey]
  exact List.mem_reverse.mp (List.mem_of_find?_eq_some hfind)

/-- A name with a field has a last one. -/
theorem exists_lastField {key value : Bytes} {lines : List Bytes}
    (h : (key, value) ∈ lines.filterMap fieldOf) : ∃ last, lastField key lines = some last := by
  have hsome : ((lines.filterMap fieldOf).reverse.find? fun field => field.1 = key).isSome = true :=
    List.find?_isSome.mpr ⟨_, List.mem_reverse.mpr h, by simp⟩
  obtain ⟨field, hfield⟩ := Option.isSome_iff_exists.mp hsome
  exact ⟨field.2, by rw [lastField, hfield]; rfl⟩

/-- A line adds the field it holds, if it holds one. -/
theorem parseFieldLine_eq (headers : HeaderMap) (line : Bytes) :
    parseFieldLine headers line =
      match fieldOf line with
      | some field => headers.insert field.1 field.2
      | none => headers := by
  rw [parseFieldLine, fieldOf]
  by_cases hskip : (line.isEmpty || (findChar ':' line).isNone) = true
  · rw [if_pos hskip, if_pos hskip]
  · rw [if_neg hskip, if_neg hskip]
    generalize StringUtil.split line kFieldSeparator = tokens
    rcases tokens with _ | ⟨name, _ | ⟨value, _ | ⟨more, tokens⟩⟩⟩
    · rfl
    · rfl
    · rfl
    · rfl

/-- The last field of a name is the one that is found. -/
theorem lookup_foldl_insert (headers : HeaderMap) (fields : List (Bytes × Bytes)) (key : Bytes) :
    (fields.foldl (fun headers field => headers.insert field.1 field.2) headers).lookup key =
      ((fields.reverse.find? fun field => field.1 = key).map Prod.snd).or (headers.lookup key) := by
  induction fields generalizing headers with
  | nil => rfl
  | cons field fields ih =>
    rw [List.foldl_cons, ih, List.reverse_cons, List.find?_append]
    cases fields.reverse.find? fun field => field.1 = key with
    | some found => rfl
    | none =>
      by_cases hkey : field.1 = key
      · rw [← hkey, AList.lookup_insert, List.find?_cons_of_pos (by simp)]
        rfl
      · rw [AList.lookup_insert_ne (Ne.symm hkey), List.find?_cons_of_neg (by simpa using hkey)]
        rfl

/-- The field loop runs over the fields of the lines. -/
theorem foldl_parseFieldLine (headers : HeaderMap) (lines : List Bytes) :
    lines.foldl parseFieldLine headers =
      (lines.filterMap fieldOf).foldl (fun headers field => headers.insert field.1 field.2)
        headers := by
  induction lines generalizing headers with
  | nil => rfl
  | cons line lines ih =>
    rw [List.foldl_cons, ih, parseFieldLine_eq]
    cases hfield : fieldOf line with
    | none => rw [List.filterMap_cons_none hfield]
    | some field => rw [List.filterMap_cons_some hfield, List.foldl_cons]

/-- The header map holds the value of the last field with a name, or what it held before. -/
theorem lookup_foldl_parseFieldLine (headers : HeaderMap) (lines : List Bytes) (key : Bytes) :
    (lines.foldl parseFieldLine headers).lookup key =
      (lastField key lines).or (headers.lookup key) := by
  rw [foldl_parseFieldLine, lookup_foldl_insert, lastField]

/-! ### The status line -/

/-- A status line that can be read: where it holds `HTTP/`, it reaches up to the reason phrase, and a
number stands where the code is expected. -/
def StatusReads (line : Bytes) : Prop :=
  ∀ pos, find kHTTPFlag line = some pos →
    pos + 13 ≤ line.length ∧ ∃ code, stoi ((line.drop 9).take 3) = .ok code

/-- The status code of a line, zero when it has none. -/
def statusOf (line : Bytes) : UInt16 :=
  match find kHTTPFlag line, stoi ((line.drop 9).take 3) with
  | some _, .ok code => UInt16.ofInt code
  | _, _ => 0

/-- A line without the protocol's name is passed over. -/
theorem parseStatusLine_of_find_none {line : Bytes} (h : find kHTTPFlag line = none)
    (response : ResponseHeader) : parseStatusLine line response = .ok response := by
  rw [parseStatusLine, h]

/-- A line with `HTTP/` in it that is long enough and has a number in the place of the code. -/
theorem parseStatusLine_of_reads {line : Bytes} {pos : Nat} (hpos : find kHTTPFlag line = some pos)
    (hlen : pos + 13 ≤ line.length) {code : Int} (hcode : stoi ((line.drop 9).take 3) = .ok code)
    (response : ResponseHeader) :
    parseStatusLine line response =
      .ok { headers := response.headers.insert kVersion ((line.drop pos).take 8)
            httpStatusCode := UInt16.ofInt code
            reasonPhrase := line.drop (pos + 13) } := by
  have hflag : kHTTPFlag.length = 5 := rfl
  rw [parseStatusLine, hpos]
  simp only [hflag]
  have hversion : substr line pos (5 + 3) = .ok ((line.drop pos).take 8) := if_pos (by omega)
  have hnumber : substr line (5 + 4) 3 = .ok ((line.drop 9).take 3) := if_pos (by omega)
  have hreason : substrFrom line (pos + 5 + 3 + 1 + 3 + 1) = .ok (line.drop (pos + 13)) :=
    substrFrom_of_le hlen
  rw [hversion, hnumber]
  show ((stoi ((line.drop 9).take 3)).bind fun statusCode =>
    (substrFrom line (pos + 5 + 3 + 1 + 3 + 1)).bind fun reasonPhrase => _) = _
  rw [hcode, hreason]
  rfl

/-- A line that cannot be read is left by an exception. -/
theorem parseStatusLine_error {line : Bytes} (h : ¬ StatusReads line) (response : ResponseHeader) :
    ∃ fault, parseStatusLine line response = .error fault := by
  cases hresult : parseStatusLine line response with
  | error fault => exact ⟨fault, rfl⟩
  | ok response' =>
    refine absurd (fun pos hpos => ?_) h
    have hflag : kHTTPFlag.length = 5 := rfl
    rw [parseStatusLine, hpos] at hresult
    simp only [hflag] at hresult
    have hversion : substr line pos (5 + 3) = .ok ((line.drop pos).take 8) := by
      have hle := find_add_length_le hpos
      exact if_pos (by omega)
    rw [hversion] at hresult
    by_cases hlong : 9 ≤ line.length
    · have hnumber : substr line (5 + 4) 3 = .ok ((line.drop 9).take 3) := if_pos hlong
      rw [hnumber] at hresult
      cases hcode : stoi ((line.drop 9).take 3) with
      | error fault =>
        change (stoi ((line.drop 9).take 3)).bind _ = _ at hresult
        rw [hcode] at hresult
        cases hresult
      | ok code =>
        refine ⟨?_, code, rfl⟩
        by_contra hshort
        have hreason : substrFrom line (pos + 5 + 3 + 1 + 3 + 1) = .error .outOfRange :=
          if_neg (by omega)
        change (stoi ((line.drop 9).take 3)).bind _ = _ at hresult
        rw [hcode, hreason] at hresult
        cases hresult
    · have hnumber : substr line (5 + 4) 3 = .error .outOfRange := if_neg (by omega)
      rw [hnumber] at hresult
      cases hresult

/-- What reading the status line leaves in the header. -/
theorem parseStatusLine_ok {line : Bytes} {response : ResponseHeader}
    (h : parseStatusLine line {} = .ok response) :
    StatusReads line ∧ response.httpStatusCode = statusOf line ∧
      ∀ key, key ≠ kVersion → response.headers.lookup key = none := by
  have hreads : StatusReads line := by
    by_contra hnot
    obtain ⟨fault, hfault⟩ := parseStatusLine_error hnot {}
    rw [h] at hfault
    cases hfault
  refine ⟨hreads, ?_⟩
  cases hpos : find kHTTPFlag line with
  | none =>
    rw [parseStatusLine_of_find_none hpos] at h
    cases h
    exact ⟨by rw [statusOf, hpos], fun _ _ => rfl⟩
  | some pos =>
    obtain ⟨hlen, code, hcode⟩ := hreads pos hpos
    rw [parseStatusLine_of_reads hpos hlen hcode] at h
    cases h
    refine ⟨by rw [statusOf, hpos, hcode], fun key hkey => ?_⟩
    rw [AList.lookup_insert_ne hkey]
    rfl

/-! ### The head -/

/-- **What a head parses to.** Parsing fails exactly when the head has no line, or its first line cannot
be read; otherwise the status code is that of the first line, and the header map has the value of the
last field with a name. -/
theorem parseHeaderView_cases (text : Bytes) :
    ((∃ fault, parseHeaderView text {} = .error fault) ∧
        ∀ line lines, StringUtil.split text kCRLF = line :: lines → ¬ StatusReads line) ∨
      ∃ response line lines, parseHeaderView text {} = .ok response ∧
        StringUtil.split text kCRLF = line :: lines ∧ StatusReads line ∧
        response.httpStatusCode = statusOf line ∧
        ∀ key, key ≠ kVersion → response.headers.lookup key = lastField key (line :: lines) := by
  rw [parseHeaderView]
  cases hsplit : StringUtil.split text kCRLF with
  | nil => exact .inl ⟨⟨_, rfl⟩, fun line lines h => by cases h⟩
  | cons line lines =>
    dsimp only
    cases hstatus : parseStatusLine line {} with
    | error fault =>
      refine .inl ⟨⟨fault, rfl⟩, fun line' lines' h hreads => ?_⟩
      obtain ⟨rfl, rfl⟩ := List.cons.inj h
      cases hpos : find kHTTPFlag line with
      | none =>
        rw [parseStatusLine_of_find_none hpos] at hstatus
        cases hstatus
      | some pos =>
        obtain ⟨hlen, code, hcode⟩ := hreads pos hpos
        rw [parseStatusLine_of_reads hpos hlen hcode] at hstatus
        cases hstatus
    | ok response =>
      obtain ⟨hreads, hcode, hlookup⟩ := parseStatusLine_ok hstatus
      refine .inr ⟨_, line, lines, rfl, rfl, hreads, hcode, fun key hkey => ?_⟩
      rw [lookup_foldl_parseFieldLine, hlookup key hkey, Option.or_none]

end HttpRequest
