import HttpRequest.Messages.HeadDecoding

/-! # Spaces behind the colon of a field

The number of spaces between the colon of a field line and its value is a matter of taste (RFC 7230, section
3.2.3). The parser looks for `": "`, and a value that starts with a space is erased, so that a line with no space
is skipped, one with a single space is read as it was meant, and one with more is stored without its value
(`fieldOf_text`). Two heads that differ in these numbers only are read alike exactly when under every name they
store the same (`HeadPair.readsAlike_iff`). -/

namespace HttpRequest

open Foundations

/-! ### Field lines -/

/-- A field line: a name without a colon, and a value that is not empty, does not start with a space and holds
no `": "`. -/
structure FieldLine where
  name : Bytes
  value : Bytes
  isUnbroken_name : IsUnbroken name
  isUnbroken_value : IsUnbroken value
  colon : (58 : UInt8) ∉ name
  nonempty : value ≠ []
  front : value.head? ≠ some 32
  separator : ¬kFieldSeparator <:+: value

namespace FieldLine

variable (line : FieldLine)

/-- The line with a number of spaces behind the colon. -/
def text (spaces : Nat) : Bytes := line.name ++ 58 :: (List.replicate spaces 32 ++ line.value)

/-- What is stored for the line: without a name or a space nothing, and no value behind more than one space. -/
def stored (spaces : Nat) : Option (Bytes × Bytes) :=
  if line.name = [] ∨ spaces = 0 then none
  else some (StringUtil.removePrefix line.name 32, if spaces = 1 then line.value else [])

/-- A field line is not empty. -/
theorem text_ne_nil (spaces : Nat) : line.text spaces ≠ [] :=
  List.ne_nil_of_mem (List.mem_append_right _ List.mem_cons_self)

/-- A byte that is in no line break does not bring two texts together to one. -/
theorem isUnbroken_append_cons {c : UInt8} (hc : c ∉ kCRLF) {front back : Bytes} (hfront : IsUnbroken front)
    (hback : IsUnbroken back) : IsUnbroken (front ++ c :: back) := by
  have hstart {pat : Bytes} (hne : pat ≠ []) (hsub : pat ⊆ kCRLF) : ¬pat <+: c :: back := by
    obtain ⟨d, pat, rfl⟩ := List.exists_cons_of_ne_nil hne
    intro hpre
    rw [List.cons_prefix_cons] at hpre
    exact hc (hpre.1 ▸ hsub List.mem_cons_self)
  intro hin
  rcases List.infix_append_iff_ne_nil.mp hin with h | h | ⟨pat, pat', -, hne, heq, -, hpre⟩
  · exact hfront h
  · rcases List.infix_cons_iff.mp h with h | h
    · exact hstart (by decide) (List.Subset.refl _) h
    · exact hback h
  · exact hstart hne (fun d hd => heq ▸ List.mem_append_right _ hd) hpre

/-- Spaces in front of a text bring no line break. -/
theorem isUnbroken_spaces {value : Bytes} (h : IsUnbroken value) (spaces : Nat) :
    IsUnbroken (List.replicate spaces 32 ++ value) := by
  induction spaces with
  | zero => exact h
  | succ spaces ih =>
    have hempty : IsUnbroken [] := fun hin => absurd (List.eq_nil_of_infix_nil hin) (by decide)
    exact isUnbroken_append_cons (by decide) hempty ih

/-- A field line has no line break in it, whatever its spaces. -/
theorem isUnbroken_text (spaces : Nat) : IsUnbroken (line.text spaces) :=
  isUnbroken_append_cons (by decide) line.isUnbroken_name (isUnbroken_spaces line.isUnbroken_value spaces)

/-- Spaces in front of the value bring no separator. -/
theorem not_separator_spaces (spaces : Nat) : ¬kFieldSeparator <:+: List.replicate spaces 32 ++ line.value := by
  have hseparator : kFieldSeparator = [58, 32] := by decide
  induction spaces with
  | zero => exact line.separator
  | succ spaces ih =>
    rw [List.replicate_succ, List.cons_append, List.infix_cons_iff, not_or]
    refine ⟨fun hpre => ?_, ih⟩
    rw [hseparator, List.cons_prefix_cons] at hpre
    exact absurd hpre.1 (by decide)

/-- Without a space behind the colon the line holds no separator. -/
theorem not_separator_text_zero : ¬kFieldSeparator <:+: line.text 0 := by
  have hseparator : kFieldSeparator = [58, 32] := by decide
  obtain ⟨c, value, hvalue⟩ := List.exists_cons_of_ne_nil line.nonempty
  have hfront : c ≠ 32 := fun h => line.front (by rw [hvalue, h]; rfl)
  have hnot := line.separator
  rw [hvalue] at hnot
  have htext : line.text 0 = line.name ++ 58 :: c :: value := by
    rw [text, hvalue]
    rfl
  intro hin
  rw [htext, hseparator] at hin
  -- the separator would lie in the name, behind it, or across its end
  rcases List.infix_append_iff_ne_nil.mp hin with h | h | ⟨pat, pat', hne, -, heq, hsuffix, -⟩
  · exact line.colon (h.subset List.mem_cons_self)
  · rcases List.infix_cons_iff.mp h with h | h
    · simp only [List.cons_prefix_cons, List.nil_prefix, and_true, true_and] at h
      exact hfront h.symm
    · exact hnot (hseparator ▸ h)
  · -- the part in the name starts with the colon
    obtain ⟨d, pat, rfl⟩ := List.exists_cons_of_ne_nil hne
    rw [List.cons_append, List.cons.injEq] at heq
    exact line.colon (heq.1 ▸ hsuffix.subset List.mem_cons_self)

/-- The tokens of a line with spaces: the name, unless it is empty, and the value behind all spaces but one. -/
theorem split_text_succ (spaces : Nat) :
    StringUtil.split (line.text (spaces + 1)) kFieldSeparator =
      (if line.name.isEmpty then [] else [line.name]) ++ [List.replicate spaces 32 ++ line.value] := by
  have hne : List.replicate spaces 32 ++ line.value ≠ [] := fun h => line.nonempty (List.append_eq_nil_iff.mp h).2
  have hfind : (line.text (spaces + 1)).dropInfix? kFieldSeparator =
      some (line.name, List.replicate spaces 32 ++ line.value) := by
    have htext : line.text (spaces + 1) =
        line.name ++ 58 :: [32] ++ (List.replicate spaces 32 ++ line.value) := by
      rw [text, List.replicate_succ, List.append_assoc]
      rfl
    rw [htext]
    exact dropInfix?_of_not_mem line.colon
  rw [StringUtil.split_of_dropInfix? (by decide) hfind,
    ResponseHead.split_eq_singleton_iff.mpr ⟨hne, line.not_separator_spaces spaces⟩]

/-- **What the parser takes from a line** with a number of spaces. -/
theorem fieldOf_text (spaces : Nat) : fieldOf (line.text spaces) = line.stored spaces := by
  cases spaces with
  | zero =>
    -- without a space there is no separator, and the line is dropped
    have hsplit : StringUtil.split (line.text 0) kFieldSeparator = [line.text 0] :=
      ResponseHead.split_eq_singleton_iff.mpr ⟨line.text_ne_nil 0, line.not_separator_text_zero⟩
    have hone : (StringUtil.split (line.text 0) kFieldSeparator).length ≠ 2 := by simp [hsplit]
    rw [ResponseHead.fieldOf_eq_none hone, stored, if_pos (.inr rfl)]
  | succ spaces =>
    have hsplit := line.split_text_succ spaces
    by_cases hname : line.name = []
    · rw [hname] at hsplit
      have hone : (StringUtil.split (line.text (spaces + 1)) kFieldSeparator).length ≠ 2 := by simp [hsplit]
      rw [ResponseHead.fieldOf_eq_none hone, stored, if_pos (.inl hname)]
    · rw [List.isEmpty_eq_false_iff.mpr hname] at hsplit
      have hstored : ¬(line.name = [] ∨ spaces + 1 = 0) := fun h => h.elim hname (Nat.succ_ne_zero spaces)
      rw [ResponseHead.fieldOf_of_split hsplit, stored, if_neg hstored]
      congr 2
      -- a second space makes `removePrefix` erase the value
      cases spaces with
      | zero => exact ResponseHead.removePrefix_of_head?_ne line.front
      | succ spaces => rfl

end FieldLine

/-! ### Two heads -/

/-- A line of two heads: the same text in both, or a field line with its number of spaces in each. -/
inductive LinePair
  | same (text : Bytes)
  | field (line : FieldLine) (spaces spaces' : Nat)

namespace LinePair

/-- The line in the first head. -/
def first : LinePair → Bytes
  | same text => text
  | field line spaces _ => line.text spaces

/-- The line in the second head. -/
def second : LinePair → Bytes
  | same text => text
  | field line _ spaces' => line.text spaces'

/-- What is stored for the line of the first head. -/
def storedFirst : LinePair → Option (Bytes × Bytes)
  | same text => fieldOf text
  | field line spaces _ => line.stored spaces

/-- What is stored for the line of the second head. -/
def storedSecond : LinePair → Option (Bytes × Bytes)
  | same text => fieldOf text
  | field line _ spaces' => line.stored spaces'

/-- What the first line of a pair is read as. -/
theorem fieldOf_first (pair : LinePair) : fieldOf pair.first = pair.storedFirst := by
  cases pair with
  | same text => rfl
  | field line spaces _ => exact line.fieldOf_text spaces

/-- What the second line of a pair is read as. -/
theorem fieldOf_second (pair : LinePair) : fieldOf pair.second = pair.storedSecond := by
  cases pair with
  | same text => rfl
  | field line _ spaces' => exact line.fieldOf_text spaces'

end LinePair

/-- Two response heads with the same status line, which differ in the spaces of their field lines only. -/
structure HeadPair where
  status : Bytes
  pairs : List LinePair
  isUnbroken_status : IsUnbroken status ∧ status ≠ []
  isUnbroken_same : ∀ text, .same text ∈ pairs → IsUnbroken text ∧ text ≠ []

namespace HeadPair

variable (heads : HeadPair)

/-- The first head. -/
def first : Bytes := joinLines heads.status (heads.pairs.map LinePair.first) ++ kHeaderEnd

/-- The second head. -/
def second : Bytes := joinLines heads.status (heads.pairs.map LinePair.second) ++ kHeaderEnd

/-- **What the spaces must not change**: the status code, the reason phrase and the header map. -/
def ReadsAlike (body : Bytes) : Prop :=
  match parseResponseHeader (heads.first ++ body) {}, parseResponseHeader (heads.second ++ body) {} with
  | .ok (_, _, response), .ok (_, _, response') =>
    response.httpStatusCode = response'.httpStatusCode ∧ response.reasonPhrase = response'.reasonPhrase ∧
      ∀ key, response.headers.lookup key = response'.headers.lookup key
  | .error fault, .error fault' => fault = fault'
  | _, _ => False

/-- The field that is stored for the version of a status line. -/
def versionField (status : Bytes) : Option (Bytes × Bytes) :=
  (find kHTTPFlag status).map fun pos => (kVersion, (status.drop pos).take 8)

/-- The fields the status line adds: the version, and what is taken from it when it looks like a field. -/
def statusFields : List (Bytes × Bytes) :=
  (versionField heads.status).toList ++ (fieldOf heads.status).toList

/-- The value of the last of the fields with a name. -/
def lastValue (key : Bytes) (fields : List (Bytes × Bytes)) : Option Bytes :=
  (fields.reverse.find? fun field => field.1 = key).map Prod.snd

/-- Under every name the last line that is stored is stored with the same value. -/
def StoresAlike : Prop :=
  ∀ key, lastValue key (heads.statusFields ++ heads.pairs.filterMap LinePair.storedFirst) =
    lastValue key (heads.statusFields ++ heads.pairs.filterMap LinePair.storedSecond)

/-! ### Reading both -/

/-- Fields that are inserted one after the other. -/
def insertAll (headers : HeaderMap) (fields : List (Bytes × Bytes)) : HeaderMap :=
  fields.foldl (fun headers field => headers.insert field.1 field.2) headers

/-- The last value stored under a name is the one that is found. -/
theorem lookup_insertAll (fields : List (Bytes × Bytes)) (key : Bytes) :
    (insertAll ∅ fields).lookup key = lastValue key fields := by
  rw [insertAll, lookup_foldl_insert, AList.lookup_empty, Option.or_none, lastValue]

/-- The status line is read to its version. -/
theorem headers_of_parseStatusLine {status : Bytes} {response : ResponseHeader}
    (h : parseStatusLine status {} = .ok response) :
    response.headers = insertAll ∅ (versionField status).toList := by
  have hreads := (parseStatusLine_ok h).1
  unfold versionField
  cases hpos : find kHTTPFlag status with
  | none =>
    rw [parseStatusLine_of_find_none hpos] at h
    cases h
    rfl
  | some pos =>
    obtain ⟨hlen, code, hcode⟩ := hreads pos hpos
    rw [parseStatusLine_of_reads hpos hlen hcode] at h
    cases h
    rfl

/-- A status line that can be read is read. -/
theorem exists_parseStatusLine {status : Bytes} (h : StatusReads status) :
    ∃ response, parseStatusLine status {} = .ok response := by
  cases hpos : find kHTTPFlag status with
  | none => exact ⟨{}, parseStatusLine_of_find_none hpos {}⟩
  | some pos =>
    obtain ⟨hlen, code, hcode⟩ := h pos hpos
    exact ⟨_, parseStatusLine_of_reads hpos hlen hcode {}⟩

/-- The lines of a head behind a status line that has been read. -/
theorem foldl_parseFieldLine_cons {response : ResponseHeader} (h : parseStatusLine heads.status {} = .ok response)
    {text : LinePair → Bytes} {stored : LinePair → Option (Bytes × Bytes)}
    (hstored : ∀ pair, fieldOf (text pair) = stored pair) :
    (heads.status :: heads.pairs.map text).foldl parseFieldLine response.headers =
      insertAll ∅ (heads.statusFields ++ heads.pairs.filterMap stored) := by
  have hlines : (heads.pairs.map text).filterMap fieldOf = heads.pairs.filterMap stored := by
    rw [List.filterMap_map]
    exact List.filterMap_congr fun pair _ => hstored pair
  have hstatus : (heads.status :: heads.pairs.map text).filterMap fieldOf =
      (fieldOf heads.status).toList ++ heads.pairs.filterMap stored := by
    rw [← hlines]
    cases hfield : fieldOf heads.status with
    | none => rw [List.filterMap_cons_none hfield]; rfl
    | some field => rw [List.filterMap_cons_some hfield]; rfl
  rw [foldl_parseFieldLine, hstatus, headers_of_parseStatusLine h, insertAll, insertAll, ← List.foldl_append,
    ← List.append_assoc, statusFields]

/-- Every line of a head is unbroken. -/
theorem isUnbroken_lines {text : LinePair → Bytes} (hsame : ∀ t, text (.same t) = t)
    (hfield : ∀ line spaces spaces', ∃ n, text (.field line spaces spaces') = line.text n) :
    ∀ l ∈ heads.status :: heads.pairs.map text, IsUnbroken l ∧ l ≠ [] := by
  intro l hl
  rcases List.mem_cons.mp hl with rfl | hl
  · exact heads.isUnbroken_status
  · obtain ⟨pair, hpair, rfl⟩ := List.mem_map.mp hl
    cases pair with
    | same t =>
      rw [hsame]
      exact heads.isUnbroken_same t hpair
    | field line spaces spaces' =>
      obtain ⟨n, hn⟩ := hfield line spaces spaces'
      rw [hn]
      exact ⟨line.isUnbroken_text n, line.text_ne_nil n⟩

/-- What the two heads are read to. -/
theorem parseResponseHeader_first (body : Bytes) :
    parseResponseHeader (heads.first ++ body) {} =
      (parseStatusLine heads.status {}).map fun response =>
        (true, heads.first.length,
          { response with
            headers := (heads.status :: heads.pairs.map LinePair.first).foldl parseFieldLine response.headers }) :=
  parseResponseHeader_joinLines
    (heads.isUnbroken_lines (fun _ => rfl) fun _ spaces _ => ⟨spaces, rfl⟩) body {}

/-- What the second head of a pair is read as. -/
theorem parseResponseHeader_second (body : Bytes) :
    parseResponseHeader (heads.second ++ body) {} =
      (parseStatusLine heads.status {}).map fun response =>
        (true, heads.second.length,
          { response with
            headers := (heads.status :: heads.pairs.map LinePair.second).foldl parseFieldLine response.headers }) :=
  parseResponseHeader_joinLines
    (heads.isUnbroken_lines (fun _ => rfl) fun _ _ spaces' => ⟨spaces', rfl⟩) body {}

/-- **When spaces make no difference**: the status line cannot be read, or under every name the last line that is
stored is stored with the same value in both heads. -/
theorem readsAlike_iff (body : Bytes) :
    heads.ReadsAlike body ↔ (StatusReads heads.status → heads.StoresAlike) := by
  unfold ReadsAlike
  rw [heads.parseResponseHeader_first, heads.parseResponseHeader_second]
  by_cases hreads : StatusReads heads.status
  · obtain ⟨response, hresponse⟩ := exists_parseStatusLine hreads
    have hfirst := heads.foldl_parseFieldLine_cons hresponse LinePair.fieldOf_first
    have hsecond := heads.foldl_parseFieldLine_cons hresponse LinePair.fieldOf_second
    rw [hresponse]
    simp only [Except.map, hfirst, hsecond, lookup_insertAll, true_and]
    exact ⟨fun h _ => h, fun h => h hreads⟩
  · obtain ⟨fault, hfault⟩ := parseStatusLine_error hreads {}
    rw [hfault]
    exact ⟨fun _ h => absurd h hreads, fun _ => rfl⟩

end HeadPair

/-- The field line of a length of five. -/
def lengthLine : FieldLine where
  name := kContentLength
  value := bytes "5"
  isUnbroken_name := fun hin => absurd (hin.subset (List.mem_cons_self : (13 : UInt8) ∈ kCRLF)) (by decide)
  isUnbroken_value := fun hin => absurd (hin.subset (List.mem_cons_self : (13 : UInt8) ∈ kCRLF)) (by decide)
  colon := by decide
  nonempty := by decide
  front := by decide
  separator := fun hin => absurd (hin.subset (List.mem_cons_self : (58 : UInt8) ∈ kFieldSeparator)) (by decide)

/-- The head `HTTP/1.1 200 OK` with this line, with one space and with another number of them. -/
def lengthHeads (spaces : Nat) : HeadPair where
  status := bytes "HTTP/1.1 200 OK"
  pairs := [.field lengthLine 1 spaces]
  isUnbroken_status :=
    ⟨fun hin => absurd (hin.subset (List.mem_cons_self : (13 : UInt8) ∈ kCRLF)) (by decide), by decide⟩
  isUnbroken_same := fun text h => by simp at h

/-- Without the space the length is lost, and with a second one it is erased. -/
theorem not_readsAlike_lengthHeads : ¬(lengthHeads 0).ReadsAlike [] ∧ ¬(lengthHeads 2).ReadsAlike [] := by
  constructor
  · rintro ⟨-, -, hheaders⟩
    have hlength := hheaders kContentLength
    revert hlength
    decide +kernel
  · rintro ⟨-, -, hheaders⟩
    have hlength := hheaders kContentLength
    revert hlength
    decide +kernel

end HttpRequest
