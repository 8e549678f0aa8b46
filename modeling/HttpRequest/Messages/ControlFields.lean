import HttpRequest.Messages.RequestFraming

/-! # The control fields of an encoded request

`Host`, `Content-Length` and `Authorization` steer what a server does with a request, and their names are compared
without regard to case. `htmlEncode` looks for them in a map whose keys are compared as they are, and writes names,
values and the URL as they are, line breaks included. So a field that the caller has spelled in another way, or has
put behind a line break, stands beside the one that `htmlEncode` adds. This file reads the fields back from the text
that is sent (`readHead`); `oneOfEach_iff` says for which requests there is one of each at most. -/

namespace HttpRequest

open Foundations

/-! ### Reading a head -/

/-- Whether two names are the same but for the case of their letters. -/
def sameName (name name' : Bytes) : Bool := name.map tolower == name'.map tolower

/-- The order of the names makes no difference. -/
theorem sameName_comm (name name' : Bytes) : sameName name name' = sameName name' name := BEq.comm

/-- The names that `htmlEncode` writes differ in more than letter case. -/
theorem sameName_written : sameName kHost kContentLength = false ∧ sameName kHost kAuthorization = false ∧
    sameName kContentLength kAuthorization = false := by decide +kernel

/-- The lines in front of the first empty one, and what is behind that, from at most `fuel` lines. -/
def readLines : Nat → Bytes → Option (List Bytes × Bytes)
  | 0, _ => none
  | fuel + 1, text => do
    let (line, rest) ← text.dropInfix? kCRLF
    if line = [] then some ([], rest)
    else do
      let (lines, rest) ← readLines fuel rest
      some (line :: lines, rest)

/-- The field on a line: the text in front of its first colon, and the text behind it without the blanks around. A
line without a colon holds none. -/
def lineField (line : Bytes) : Option (Bytes × Bytes) :=
  (line.dropInfix? [58]).map fun parts => (parts.1, trimBlanks parts.2)

/-- The fields of a head behind its first line, and what is behind its empty line. -/
def readHead (text : Bytes) : Option (List (Bytes × Bytes) × Bytes) := do
  let (_, rest) ← text.dropInfix? kCRLF
  let (lines, rest) ← readLines (rest.length + 1) rest
  some (lines.filterMap lineField, rest)

/-- The number of fields with a name. -/
def countNamed (key : Bytes) (fields : List (Bytes × Bytes)) : Nat :=
  fields.countP fun field => sameName field.1 key

/-- The length of the body that is sent. -/
def sentLength (info : RequestInfo) : Nat := if info.bodyEmpty then 0 else info.bodySize

/-- **What a server must find in the head it is sent**: one `Host`, at most one `Content-Length`, which is the length
of the body that follows, and at most one `Authorization`, which is the caller's where the caller brings one. -/
structure OneOfEach (order : IterationOrder) (info : RequestInfo) (url : Url) (fields : List (Bytes × Bytes)) :
    Prop where
  read : readHead (htmlEncode order info url).1 = some (fields, sentBody info)
  host : countNamed kHost fields = 1
  contentLength : countNamed kContentLength fields ≤ 1
  length : ∀ field ∈ fields, sameName field.1 kContentLength = true → field.2 = toDecimal (sentLength info)
  authorization : countNamed kAuthorization fields ≤ 1
  caller : ∀ name value, info.headers.lookup name = some value → sameName name kAuthorization = true →
    (name, trimBlanks value) ∈ fields

/-! ### What the caller and the URL bring -/

/-- The request line without its line break. -/
def startLine (info : RequestInfo) (url : Url) : Bytes :=
  getMethodName info.methodType ++ bytes " " ++ requestTarget url ++ bytes " HTTP/1.1"

/-- A field without its line break. -/
def fieldBytes (field : Bytes × Bytes) : Bytes := field.1 ++ kFieldSeparator ++ field.2

/-- The fields of the caller that are sent: `Host` is replaced, and with a body `Content-Length` is. -/
def keptFields (info : RequestInfo) : List (Bytes × Bytes) :=
  (info.headers.entries.map fun pair => (pair.1, pair.2)).filter fun field =>
    field.1 ≠ kHost ∧ (field.1 = kContentLength → info.bodyEmpty = true)

/-- **The lines a request is given**: those that the caller's fields are broken into, and those behind the first that
the request line and the host are broken into. -/
def givenLines (info : RequestInfo) (url : Url) : List Bytes :=
  (brokenLines (startLine info url)).tail ++ ((brokenLines url.host).tail ++
    (keptFields info).flatMap fun field => brokenLines (fieldBytes field))

/-- Whether a line holds a field with a name. -/
def isNamed (key line : Bytes) : Bool := ((lineField line).map fun field => sameName field.1 key).getD false

/-- The credentials of the URL are sent where the caller has no `Authorization` in this spelling. -/
def addedCredentials (info : RequestInfo) (url : Url) : Option Bytes :=
  if (info.headers.lookup kAuthorization).isSome then none else urlCredentials url

/-- **Lines that leave nothing to conflict**: none of them is empty or a `Host` field; with a body none is a
`Content-Length` field, and without one at most one is, with the value `0`; where credentials are added none is an
`Authorization` field, and elsewhere at most one is; and no `Authorization` of the caller is broken. -/
structure Unambiguous (info : RequestInfo) (url : Url) : Prop where
  nonempty : ∀ line ∈ givenLines info url, line ≠ []
  host : ∀ line ∈ givenLines info url, isNamed kHost line = false
  contentLength :
    if info.bodyEmpty = true then
      (givenLines info url).countP (isNamed kContentLength) ≤ 1 ∧
        ∀ line ∈ givenLines info url, ∀ field ∈ lineField line, sameName field.1 kContentLength = true →
          field.2 = bytes "0"
    else ∀ line ∈ givenLines info url, isNamed kContentLength line = false
  authorization :
    if (addedCredentials info url).isSome = true then
      ∀ line ∈ givenLines info url, isNamed kAuthorization line = false
    else (givenLines info url).countP (isNamed kAuthorization) ≤ 1
  caller : ∀ name value, info.headers.lookup name = some value → sameName name kAuthorization = true →
    IsUnbroken value

/-! ### Reading lines back -/

/-- The first line, and the lines up to an empty one. -/
theorem readLines_flatMap {lines : List Bytes} (h : ∀ line ∈ lines, IsUnbroken line) (hempty : [] ∈ lines)
    (rest : Bytes) {fuel : Nat} (hfuel : lines.length ≤ fuel) :
    readLines fuel (lines.flatMap (· ++ kCRLF) ++ rest) =
      some (lines.takeWhile (· ≠ []), (lines.dropWhile (· ≠ [])).tail.flatMap (· ++ kCRLF) ++ rest) := by
  induction lines generalizing fuel with
  | nil => exact absurd hempty List.not_mem_nil
  | cons line lines ih =>
    obtain ⟨fuel, rfl⟩ : ∃ k, fuel = k + 1 := ⟨fuel - 1, by rw [List.length_cons] at hfuel; omega⟩
    have hfind : ((line :: lines).flatMap (· ++ kCRLF) ++ rest).dropInfix? kCRLF =
        some (line, lines.flatMap (· ++ kCRLF) ++ rest) := by
      rw [List.flatMap_cons, List.append_assoc]
      exact (h line List.mem_cons_self).dropInfix? _
    rw [readLines, hfind]
    by_cases hline : line = []
    · rw [List.takeWhile_cons_of_neg (by simpa using hline), List.dropWhile_cons_of_neg (by simpa using hline)]
      exact if_pos hline
    · have hle : lines.length ≤ fuel := Nat.le_of_succ_le_succ hfuel
      have hrest := ih (fun l hl => h l (List.mem_cons_of_mem _ hl))
        ((List.mem_cons.mp hempty).resolve_left (Ne.symm hline)) hle
      rw [List.takeWhile_cons_of_pos (by simpa using hline), List.dropWhile_cons_of_pos (by simpa using hline)]
      show (if line = [] then some ([], _) else do
        let (lines, rest) ← readLines fuel (lines.flatMap (· ++ kCRLF) ++ rest)
        some (line :: lines, rest)) = _
      rw [if_neg hline, hrest]
      rfl

/-- There are no more lines than characters. -/
theorem length_le_flatMap_lines (lines : List Bytes) (rest : Bytes) :
    lines.length ≤ (lines.flatMap (· ++ kCRLF) ++ rest).length := by
  induction lines with
  | nil => exact Nat.zero_le _
  | cons line lines ih =>
    have hlen : kCRLF.length = 2 := rfl
    rw [List.flatMap_cons, List.append_assoc, List.length_append, List.length_append, List.length_cons, hlen]
    omega

/-- Nothing but the last line is left behind the first empty one exactly when no other is empty. -/
theorem tail_dropWhile_eq_nil_iff (lines : List Bytes) :
    ((lines ++ [[]]).dropWhile (· ≠ [])).tail = [] ↔ ∀ line ∈ lines, line ≠ [] := by
  induction lines with
  | nil => simp
  | cons line lines ih =>
    rw [List.cons_append, List.forall_mem_cons, ← ih]
    by_cases hline : line = []
    · rw [List.dropWhile_cons_of_neg (by simpa using hline)]
      simp [hline]
    · rw [List.dropWhile_cons_of_pos (by simpa using hline), and_iff_right hline]

/-- A name with a colon behind it is read back, and so is its value, but for the blanks around it. -/
theorem lineField_fieldBytes {name : Bytes} (hname : (58 : UInt8) ∉ name) (value : Bytes) :
    lineField (fieldBytes (name, value)) = some (name, trimBlanks value) := by
  rw [lineField, fieldBytes, dropInfix?_colon hname, Option.map_some, trimBlanks_cons_blank (by decide)]

/-- Fields are counted line by line. -/
theorem countNamed_filterMap (key : Bytes) (lines : List Bytes) :
    countNamed key (lines.filterMap lineField) = lines.countP (isNamed key) := List.countP_filterMap

/-- The line of a field is named as the field is. -/
theorem isNamed_fieldBytes (key : Bytes) {name : Bytes} (hname : (58 : UInt8) ∉ name) (value : Bytes) :
    isNamed key (fieldBytes (name, value)) = sameName name key := by
  rw [isNamed, lineField_fieldBytes hname]
  rfl

/-- The blanks around a value hold no line break. -/
theorem isUnbroken_of_trimBlanks {value : Bytes} (h : IsUnbroken (trimBlanks value)) : IsUnbroken value := by
  have hblank {c : UInt8} (hc : isBlank c = true) : c ≠ 13 ∧ c ≠ 10 := by
    rcases isBlank_iff.mp hc with rfl | rfl <;> decide
  have hvalue : value = value.takeWhile isBlank ++
      (trimBlanks value ++ (value.dropWhile isBlank).rtakeWhile isBlank) := by
    rw [trimBlanks, List.rdropWhile_append_rtakeWhile, List.takeWhile_append_dropWhile]
  rw [hvalue]
  refine .append_front (fun hmem => (hblank (List.mem_takeWhile_imp hmem)).1 rfl) (h.append_back fun hmem => ?_)
  exact (hblank (List.mem_rtakeWhile_imp hmem)).2 rfl

/-! ### The lines of a head -/

section

variable (order : IterationOrder) (info : RequestInfo) (url : Url)

/-- The fields of the head, in the order in which they are sent. -/
def sentFields : List (Bytes × Bytes) := (order.entries (encodeHeaders info url)).map fun pair => (pair.1, pair.2)

/-- The lines between the first and the empty line that `htmlEncode` writes. -/
def headLines : List Bytes :=
  (brokenLines (startLine info url)).tail ++
    (sentFields order info url).flatMap fun field => brokenLines (fieldBytes field)

/-- No line of the head has a break in it. -/
theorem isUnbroken_headLines : ∀ line ∈ headLines order info url, IsUnbroken line := by
  intro line hline
  rcases List.mem_append.mp hline with hline | hline
  · exact isUnbroken_of_mem_brokenLines (List.mem_of_mem_tail hline)
  · obtain ⟨field, -, hline⟩ := List.mem_flatMap.mp hline
    exact isUnbroken_of_mem_brokenLines hline

/-- What is sent, line by line. -/
theorem htmlEncode_lines : ∃ first, IsUnbroken first ∧ (htmlEncode order info url).1 =
    first ++ kCRLF ++ ((headLines order info url ++ [[]]).flatMap (· ++ kCRLF) ++ sentBody info) := by
  obtain ⟨first, more, hlines⟩ := List.exists_cons_of_ne_nil (brokenLines_ne_nil (startLine info url))
  refine ⟨first, isUnbroken_of_mem_brokenLines (hlines ▸ List.mem_cons_self), ?_⟩
  have hversion : bytes " HTTP/1.1\r\n" = bytes " HTTP/1.1" ++ kCRLF := by decide
  have hstart : requestLine info url = first ++ kCRLF ++ more.flatMap (· ++ kCRLF) := by
    rw [requestLine, hversion, ← List.append_assoc]
    refine (flatMap_brokenLines (startLine info url)).symm.trans ?_
    rw [hlines, List.flatMap_cons]
  have hfields (fields : List (Bytes × Bytes)) : fields.flatMap (fun field => fieldLine field.1 field.2) =
      (fields.flatMap fun field => brokenLines (fieldBytes field)).flatMap (· ++ kCRLF) := by
    rw [List.flatMap_assoc]
    exact congrArg fields.flatMap (funext fun field => (flatMap_brokenLines (fieldBytes field)).symm)
  rw [htmlEncode_fst, hstart, hfields, headLines, hlines, sentFields, List.tail_cons]
  simp only [List.flatMap_append, List.append_assoc]
  rfl

/-- **What is read of a head**: the fields of its lines, if none of them is empty; a head with an empty line ends
there, and its other lines are taken for the body. -/
theorem readHead_htmlEncode_iff (fields : List (Bytes × Bytes)) :
    readHead (htmlEncode order info url).1 = some (fields, sentBody info) ↔
      (∀ line ∈ headLines order info url, line ≠ []) ∧
        fields = (headLines order info url).filterMap lineField := by
  obtain ⟨first, hfirst, hsent⟩ := htmlEncode_lines order info url
  have hunbroken := isUnbroken_headLines order info url
  generalize headLines order info url = lines at hsent hunbroken
  have hlast : ∀ line ∈ lines ++ [[]], IsUnbroken line := by
    intro line hline
    rcases List.mem_append.mp hline with hline | hline
    · exact hunbroken line hline
    · rw [List.mem_singleton.mp hline]
      exact fun hin => absurd hin.length_le (by decide)
  have hread := readLines_flatMap hlast (List.mem_append_right _ List.mem_cons_self) (sentBody info)
    (Nat.le_succ_of_le (length_le_flatMap_lines (lines ++ [[]]) (sentBody info)))
  have hhead : readHead (htmlEncode order info url).1 =
      some (((lines ++ [[]]).takeWhile (· ≠ [])).filterMap lineField,
        ((lines ++ [[]]).dropWhile (· ≠ [])).tail.flatMap (· ++ kCRLF) ++ sentBody info) := by
    rw [hsent, readHead, hfirst.dropInfix?]
    show (do
      let (lines, rest) ← readLines _ _
      some (lines.filterMap lineField, rest)) = _
    rw [hread]
    rfl
  have hnil (lines : List Bytes) : lines.flatMap (· ++ kCRLF) = [] ↔ lines = [] := by
    cases lines with
    | nil => simp
    | cons line lines =>
      refine iff_of_false (fun h => ?_) (List.cons_ne_nil _ _)
      exact absurd (List.append_eq_nil_iff.mp (List.append_eq_nil_iff.mp h).1).2 (by decide)
  rw [hhead, Option.some.injEq, Prod.mk.injEq, List.append_left_eq_self, hnil, tail_dropWhile_eq_nil_iff, and_comm]
  refine and_congr_right fun hlines => ?_
  have hall : (lines ++ [[]]).takeWhile (· ≠ []) = lines := by
    rw [List.takeWhile_append_of_pos fun line hline => by simpa using hlines line hline]
    simp
  rw [hall, eq_comm]

/-! ### Written and given -/

/-- The fields `htmlEncode` writes besides `Host`. -/
def addedFields : List (Bytes × Bytes) :=
  ((lengthField info).toList.map fun value => (kContentLength, value)) ++
    (addedCredentials info url).toList.map fun value => (kAuthorization, value)

/-- The fields written are those of the header map. -/
theorem mem_sentFields_iff (name value : Bytes) :
    (name, value) ∈ sentFields order info url ↔ (encodeHeaders info url).lookup name = some value :=
  mem_entries_iff order (encodeHeaders info url) name value

/-- The fields added are a length and credentials. -/
theorem mem_addedFields_iff (name value : Bytes) :
    (name, value) ∈ addedFields info url ↔ (name = kContentLength ∧ lengthField info = some value) ∨
      (name = kAuthorization ∧ addedCredentials info url = some value) := by
  simp only [addedFields, List.mem_append, List.mem_map, Option.mem_toList, Prod.mk.injEq]
  constructor
  · rintro (⟨_, hvalue, rfl, rfl⟩ | ⟨_, hvalue, rfl, rfl⟩)
    · exact .inl ⟨rfl, hvalue⟩
    · exact .inr ⟨rfl, hvalue⟩
  · rintro (⟨rfl, hvalue⟩ | ⟨rfl, hvalue⟩)
    · exact .inl ⟨_, hvalue, rfl, rfl⟩
    · exact .inr ⟨_, hvalue, rfl, rfl⟩

/-- The fields kept are the caller's, without those that are replaced. -/
theorem mem_keptFields_iff (name value : Bytes) :
    (name, value) ∈ keptFields info ↔ info.headers.lookup name = some value ∧ name ≠ kHost ∧
      (name = kContentLength → info.bodyEmpty = true) := by
  have hentries : (name, value) ∈ info.headers.entries.map (fun pair => (pair.1, pair.2)) ↔
      info.headers.lookup name = some value := mem_entries_iff .latestFirst info.headers name value
  rw [keptFields, List.mem_filter, hentries, decide_eq_true_iff]

/-- A field is sent because it is written, or because it is the caller's and kept. -/
theorem mem_sent_iff (field : Bytes × Bytes) :
    field ∈ sentFields order info url ↔
      field ∈ (kHost, url.host) :: (addedFields info url ++ keptFields info) := by
  obtain ⟨name, value⟩ := field
  have hhost : kHost ≠ kAuthorization := by decide
  have hlength : kContentLength ≠ kAuthorization := by decide
  have hdistinct : kContentLength ≠ kHost := by decide
  rw [mem_sentFields_iff, List.mem_cons, List.mem_append, mem_addedFields_iff, mem_keptFields_iff, Prod.mk.injEq]
  by_cases hauthorization : name = kAuthorization
  · subst hauthorization
    rw [lookup_encodeHeaders_authorization, addedCredentials]
    cases info.headers.lookup kAuthorization with
    | some value' => simp [hhost.symm, hlength.symm]
    | none => simp [hhost.symm, hlength.symm]
  rw [lookup_encodeHeaders_of_ne _ _ hauthorization]
  by_cases hname : name = kHost
  · subst hname
    rw [if_pos rfl, Option.some.injEq, eq_comm]
    simp [hdistinct.symm, hhost]
  rw [if_neg hname]
  by_cases hname' : name = kContentLength
  · subst hname'
    rw [if_pos rfl, lengthField]
    cases info.bodyEmpty with
    | true => simp [hdistinct, hauthorization]
    | false => simp [hdistinct, hauthorization]
  · simp [hname, hname', hauthorization]

/-- **The fields that are sent**: what is written, and what is kept of the caller's. -/
theorem sentFields_perm :
    (sentFields order info url).Perm ((kHost, url.host) :: (addedFields info url ++ keptFields info)) := by
  have hnames : ((sentFields order info url).map Prod.fst).Nodup := by
    have hperm : ((sentFields order info url).map Prod.fst).Perm (encodeHeaders info url).keys := by
      rw [sentFields, List.map_map]
      exact (order.perm (encodeHeaders info url)).map Sigma.fst
    exact hperm.nodup_iff.mpr (AList.keys_nodup _)
  have hkept : (keptFields info).Nodup := by
    have hkeys : ((info.headers.entries.map fun pair => (pair.1, pair.2)).map Prod.fst).Nodup := by
      rw [List.map_map]
      exact AList.keys_nodup info.headers
    exact (List.Nodup.of_map _ hkeys).filter _
  have hadded : (addedFields info url).Nodup := by
    have hlength : kContentLength ≠ kAuthorization := by decide
    unfold addedFields
    cases lengthField info with
    | none => cases addedCredentials info url <;> simp
    | some length => cases addedCredentials info url <;> simp [hlength]
  -- the names are distinct: what is kept is not written
  have hdisjoint : ∀ field ∈ addedFields info url, field ∉ keptFields info := by
    rintro ⟨name, value⟩ hadded hkept
    rw [mem_keptFields_iff] at hkept
    obtain ⟨hlookup, -, hbody⟩ := hkept
    rcases (mem_addedFields_iff info url name value).mp hadded with ⟨rfl, hvalue⟩ | ⟨rfl, hvalue⟩
    · rw [lengthField, hbody rfl] at hvalue
      cases hvalue
    · rw [addedCredentials, hlookup] at hvalue
      cases hvalue
  have hhost : (kHost, url.host) ∉ addedFields info url ++ keptFields info := by
    rw [List.mem_append, mem_addedFields_iff, mem_keptFields_iff]
    have hlength : kHost ≠ kContentLength := by decide
    have hauthorization : kHost ≠ kAuthorization := by decide
    simp [hlength, hauthorization]
  refine (List.perm_ext_iff_of_nodup (List.Nodup.of_map _ hnames) ?_).mpr (mem_sent_iff order info url)
  exact List.nodup_cons.mpr ⟨hhost, List.nodup_append.mpr ⟨hadded, hkept, fun field hfield field' hfield' heq =>
    hdisjoint field hfield (heq ▸ hfield')⟩⟩

/-- The fields besides `Host` are lines of their own. -/
theorem isLine_addedFields : ∀ field ∈ addedFields info url, IsLine (fieldBytes field) := by
  have hname {name : Bytes} (h : IsToken name) : IsLine (name ++ kFieldSeparator) := h.isLine.append (by decide)
  rintro ⟨name, value⟩ hfield
  rcases (mem_addedFields_iff info url name value).mp hfield with ⟨rfl, hvalue⟩ | ⟨rfl, hvalue⟩
  · rw [lengthField] at hvalue
    split at hvalue
    · cases hvalue
    · rw [← Option.some.inj hvalue]
      exact (hname isToken_kContentLength).append (isLine_toDecimal _)
  · rw [addedCredentials] at hvalue
    split at hvalue
    · cases hvalue
    · rw [urlCredentials] at hvalue
      split at hvalue
      · cases hvalue
      · rw [← Option.some.inj hvalue]
        exact (hname isToken_kAuthorization).append (isLine_basicCredentials _)

/-- The lines of the fields `htmlEncode` writes: the first of `Host`, and those of the others. -/
def writtenLines : List Bytes :=
  fieldBytes (kHost, (brokenLines url.host).headD []) :: (addedFields info url).map fieldBytes

/-- **The lines of a head** are those that are written and those that are given. -/
theorem headLines_perm : (headLines order info url).Perm (writtenLines info url ++ givenLines info url) := by
  have hcr : (13 : UInt8) ∉ kHost ++ kFieldSeparator := (isToken_kHost.isLine.append (by decide)).1
  obtain ⟨first, more, hlines⟩ := List.exists_cons_of_ne_nil (brokenLines_ne_nil url.host)
  have hhost : brokenLines (fieldBytes (kHost, url.host)) = fieldBytes (kHost, first) :: more := by
    rw [fieldBytes, brokenLines_append hcr, hlines]
    rfl
  -- the values that are added are lines of their own
  have hadded : (addedFields info url).flatMap (fun field => brokenLines (fieldBytes field)) =
      (addedFields info url).map fieldBytes := by
    rw [List.map_eq_flatMap]
    exact List.flatMap_congr fun field hfield => (isLine_addedFields info url field hfield).isUnbroken.brokenLines
  rw [headLines, writtenLines, givenLines, hlines, List.tail_cons, List.headD_cons]
  refine ((sentFields_perm order info url).flatMap_right _).append_left _ |>.trans ?_
  rw [List.flatMap_cons, List.flatMap_append, hhost, hadded, List.cons_append, List.cons_append]
  refine List.perm_middle.trans (List.Perm.cons _ ?_)
  rw [← List.append_assoc _ more, ← List.append_assoc _ more]
  exact List.perm_append_comm_assoc _ _ _

/-- No name that is written holds a colon. -/
theorem colon_not_mem_written : ∀ field ∈ (kHost, (brokenLines url.host).headD []) :: addedFields info url,
    (58 : UInt8) ∉ field.1 := by
  rintro ⟨name, value⟩ hfield
  rcases List.mem_cons.mp hfield with heq | hadded
  · rw [(Prod.mk.inj heq).1]
    exact isToken_kHost.not_mem (by decide)
  · rcases (mem_addedFields_iff info url name value).mp hadded with ⟨rfl, -⟩ | ⟨rfl, -⟩
    · exact isToken_kContentLength.not_mem (by decide)
    · exact isToken_kAuthorization.not_mem (by decide)

/-- The fields with a name are those that are written and those that are given. -/
theorem countNamed_headLines (key : Bytes) :
    countNamed key ((headLines order info url).filterMap lineField) =
      ((kHost, (brokenLines url.host).headD []) :: addedFields info url).countP (fun field => sameName field.1 key) +
        (givenLines info url).countP (isNamed key) := by
  rw [countNamed_filterMap, (headLines_perm order info url).countP_eq, List.countP_append, writtenLines,
    ← List.map_cons, List.countP_map]
  congr 1
  refine List.countP_congr fun field hfield => ?_
  rw [Function.comp_apply, isNamed_fieldBytes key (colon_not_mem_written info url field hfield)]

/-! ### Field by field -/

/-- No line is empty when no given one is. -/
theorem headLines_nonempty_iff : (∀ line ∈ headLines order info url, line ≠ []) ↔
    ∀ line ∈ givenLines info url, line ≠ [] := by
  have hwritten : ∀ line ∈ writtenLines info url, line ≠ [] := by
    intro line hline
    rw [writtenLines, ← List.map_cons] at hline
    obtain ⟨field, -, rfl⟩ := List.mem_map.mp hline
    rw [fieldBytes, List.append_assoc]
    exact List.append_ne_nil_of_right_ne_nil _ (List.append_ne_nil_of_left_ne_nil (by decide) _)
  simp only [(headLines_perm order info url).mem_iff, List.mem_append, or_imp, forall_and]
  exact and_iff_right hwritten

/-- None has a property exactly when their number is zero. -/
theorem countP_isNamed_eq_zero_iff (key : Bytes) (lines : List Bytes) :
    lines.countP (isNamed key) = 0 ↔ ∀ line ∈ lines, isNamed key line = false := by
  simp only [List.countP_eq_zero, Bool.not_eq_true]

/-- `Host` is always written. -/
theorem countNamed_host_iff :
    countNamed kHost ((headLines order info url).filterMap lineField) = 1 ↔
      ∀ line ∈ givenLines info url, isNamed kHost line = false := by
  obtain ⟨hlength, hauthorization, -⟩ := sameName_written
  have hadded : (addedFields info url).countP (fun field => sameName field.1 kHost) = 0 := by
    rw [List.countP_eq_zero]
    rintro ⟨name, value⟩ hfield
    rw [Bool.not_eq_true]
    rcases (mem_addedFields_iff info url name value).mp hfield with ⟨rfl, -⟩ | ⟨rfl, -⟩
    · exact (sameName_comm _ _).trans hlength
    · exact (sameName_comm _ _).trans hauthorization
  have hhost : sameName kHost kHost = true := beq_self_eq_true _
  rw [countNamed_headLines, List.countP_cons, hadded, if_pos hhost, ← countP_isNamed_eq_zero_iff]
  omega

/-- `Content-Length` is written where there is a body. -/
theorem countP_written_contentLength :
    ((kHost, (brokenLines url.host).headD []) :: addedFields info url).countP
      (fun field => sameName field.1 kContentLength) = if info.bodyEmpty = true then 0 else 1 := by
  obtain ⟨hhost, -, hauthorization⟩ := sameName_written
  rw [sameName_comm] at hauthorization
  have hlength : sameName kContentLength kContentLength = true := beq_self_eq_true _
  rw [List.countP_cons, addedFields, List.countP_append, lengthField]
  cases info.bodyEmpty with
  | true => cases addedCredentials info url <;> simp [hhost, hauthorization]
  | false => cases addedCredentials info url <;> simp [hhost, hauthorization, hlength]

/-- `Authorization` is written where credentials are added. -/
theorem countP_written_authorization :
    ((kHost, (brokenLines url.host).headD []) :: addedFields info url).countP
      (fun field => sameName field.1 kAuthorization) = if (addedCredentials info url).isSome = true then 1 else 0 := by
  obtain ⟨-, hhost, hlength⟩ := sameName_written
  have hauthorization : sameName kAuthorization kAuthorization = true := beq_self_eq_true _
  rw [List.countP_cons, addedFields, List.countP_append]
  cases addedCredentials info url with
  | none => cases lengthField info <;> simp [hhost, hlength]
  | some value => cases lengthField info <;> simp [hhost, hlength, hauthorization]

/-- Digits have no blanks around them. -/
theorem trimBlanks_toDecimal (n : Nat) : trimBlanks (toDecimal n) = toDecimal n := by
  have hnone : ∀ c ∈ toDecimal n, ¬isBlank c = true := by
    intro c hc hblank
    have hdigit := isdigit_of_mem_toDecimal hc
    rcases isBlank_iff.mp hblank with h | h <;> rw [h] at hdigit <;> cases hdigit
  have hfront : (toDecimal n).dropWhile isBlank = toDecimal n := by
    cases hn : toDecimal n with
    | nil => rfl
    | cons c digits =>
      rw [hn] at hnone
      exact List.dropWhile_cons_of_neg (hnone c List.mem_cons_self)
  rw [trimBlanks, hfront, List.rdropWhile_eq_self_iff]
  exact fun hne => hnone _ (List.getLast_mem hne)

/-- The length that is written is the one that follows. -/
theorem length_iff :
    (∀ field ∈ (headLines order info url).filterMap lineField, sameName field.1 kContentLength = true →
        field.2 = toDecimal (sentLength info)) ↔
      ∀ line ∈ givenLines info url, ∀ field ∈ lineField line, sameName field.1 kContentLength = true →
        field.2 = toDecimal (sentLength info) := by
  obtain ⟨hhost, -, hauthorization⟩ := sameName_written
  rw [sameName_comm] at hauthorization
  have hwritten : ∀ line ∈ writtenLines info url, ∀ field ∈ lineField line,
      sameName field.1 kContentLength = true → field.2 = toDecimal (sentLength info) := by
    intro line hline field hfield hnamed
    rw [writtenLines, ← List.map_cons] at hline
    obtain ⟨⟨name, value⟩, hmem, rfl⟩ := List.mem_map.mp hline
    rw [lineField_fieldBytes (colon_not_mem_written info url _ hmem)] at hfield
    obtain rfl := Option.some.inj hfield
    -- among the names that are written it is that of the length
    rcases List.mem_cons.mp hmem with heq | hadded
    · rw [(Prod.mk.inj heq).1, hhost] at hnamed
      cases hnamed
    · rcases (mem_addedFields_iff info url name value).mp hadded with ⟨-, hvalue⟩ | ⟨rfl, -⟩
      · rw [lengthField] at hvalue
        split at hvalue
        · cases hvalue
        · next hbody => rw [← Option.some.inj hvalue, sentLength, if_neg hbody, trimBlanks_toDecimal]
      · rw [hauthorization] at hnamed
        cases hnamed
  simp only [List.mem_filterMap, (headLines_perm order info url).mem_iff, List.mem_append]
  constructor
  · exact fun h line hline field hfield => h field ⟨line, .inr hline, hfield⟩
  · rintro h field ⟨line, hline | hline, hfield⟩
    · exact hwritten line hline field hfield
    · exact h line hline field hfield

/-- Other than in case, a name of `Authorization` has its characters. -/
theorem not_mem_of_authorization {name : Bytes} (h : sameName name kAuthorization = true) :
    (58 : UInt8) ∉ name ∧ (13 : UInt8) ∉ name := by
  have hletters : name.map tolower = kAuthorization.map tolower := eq_of_beq h
  rw [mem_of_letters hletters (by decide) (by decide), mem_of_letters hletters (by decide) (by decide)]
  decide

/-- The caller's `Authorization` is kept. -/
theorem mem_sentFields_of_authorization {name value : Bytes} (h : info.headers.lookup name = some value)
    (hnamed : sameName name kAuthorization = true) : (name, value) ∈ sentFields order info url := by
  have hnot {key : Bytes} (hkey : sameName key kAuthorization = false) : name ≠ key := by
    rintro rfl
    rw [hnamed] at hkey
    cases hkey
  rw [mem_sent_iff]
  refine List.mem_cons_of_mem _ (List.mem_append_right _ ((mem_keptFields_iff info name value).mpr ⟨h, ?_⟩))
  obtain ⟨-, hhost, hlength⟩ := sameName_written
  exact ⟨hnot hhost, fun hname => absurd hname (hnot hlength)⟩

/-- The caller's `Authorization` is read as it is when it is not broken. -/
theorem caller_iff {name value : Bytes} (h : info.headers.lookup name = some value)
    (hnamed : sameName name kAuthorization = true) :
    (name, trimBlanks value) ∈ (headLines order info url).filterMap lineField ↔ IsUnbroken value := by
  obtain ⟨hcolon, hcr⟩ := not_mem_of_authorization hnamed
  constructor
  · intro hmem
    obtain ⟨line, hline, hfield⟩ := List.mem_filterMap.mp hmem
    -- the value that is read is a part of a line
    obtain ⟨⟨front, back⟩, hsplit, hparts⟩ := Option.map_eq_some_iff.mp hfield
    obtain ⟨rfl, htrim⟩ := Prod.mk.inj hparts
    have hback : trimBlanks value <:+: line := by
      rw [← htrim, eq_append_of_dropInfix? hsplit]
      have hinfix : trimBlanks back <:+: back :=
        (List.rdropWhile_prefix isBlank _).isInfix.trans (List.dropWhile_suffix isBlank).isInfix
      exact hinfix.trans (List.suffix_append _ _).isInfix
    exact isUnbroken_of_trimBlanks fun hin => isUnbroken_headLines order info url line hline (hin.trans hback)
  · intro hunbroken
    have hfront : (13 : UInt8) ∉ name ++ kFieldSeparator := fun hmem =>
      (List.mem_append.mp hmem).elim hcr (by decide)
    have hlines : brokenLines (fieldBytes (name, value)) = [fieldBytes (name, value)] :=
      (IsUnbroken.append_front hfront hunbroken).brokenLines
    refine List.mem_filterMap.mpr ⟨fieldBytes (name, value), ?_, lineField_fieldBytes hcolon value⟩
    refine List.mem_append_right _ (List.mem_flatMap.mpr ⟨(name, value), ?_, ?_⟩)
    · exact mem_sentFields_of_authorization order info url h hnamed
    · rw [hlines]
      exact List.mem_cons_self

/-- **When the control fields do not conflict**, as a server reads them from the head. -/
theorem oneOfEach_iff : (∃ fields, OneOfEach order info url fields) ↔ Unambiguous info url := by
  have hhost := countNamed_host_iff order info url
  have hlength := length_iff order info url
  have hcountLength := countNamed_headLines order info url kContentLength
  have hcountAuthorization := countNamed_headLines order info url kAuthorization
  rw [countP_written_contentLength] at hcountLength
  rw [countP_written_authorization] at hcountAuthorization
  have hauthorization : countNamed kAuthorization ((headLines order info url).filterMap lineField) ≤ 1 ↔
      if (addedCredentials info url).isSome = true then
        ∀ line ∈ givenLines info url, isNamed kAuthorization line = false
      else (givenLines info url).countP (isNamed kAuthorization) ≤ 1 := by
    rw [hcountAuthorization, ← countP_isNamed_eq_zero_iff]
    split <;> omega
  have hcontent : (countNamed kContentLength ((headLines order info url).filterMap lineField) ≤ 1 ∧
        ∀ field ∈ (headLines order info url).filterMap lineField, sameName field.1 kContentLength = true →
          field.2 = toDecimal (sentLength info)) ↔
      if info.bodyEmpty = true then
        (givenLines info url).countP (isNamed kContentLength) ≤ 1 ∧
          ∀ line ∈ givenLines info url, ∀ field ∈ lineField line, sameName field.1 kContentLength = true →
            field.2 = bytes "0"
      else ∀ line ∈ givenLines info url, isNamed kContentLength line = false := by
    rw [hcountLength, hlength]
    by_cases hbody : info.bodyEmpty = true
    · have hzero : toDecimal (sentLength info) = bytes "0" := by
        rw [sentLength, if_pos hbody]
        decide
      rw [if_pos hbody, if_pos hbody, hzero, Nat.zero_add]
    · -- no given line is a length, so none has a wrong one
      rw [if_neg hbody, if_neg hbody, ← countP_isNamed_eq_zero_iff]
      refine ⟨fun h => by omega, fun h => ⟨by omega, fun line hline field hfield hnamed => ?_⟩⟩
      have hnot := (countP_isNamed_eq_zero_iff kContentLength _).mp h line hline
      rw [isNamed, Option.mem_def.mp hfield, Option.map_some, Option.getD_some, hnamed] at hnot
      cases hnot
  constructor
  · rintro ⟨fields, h⟩
    obtain ⟨hnonempty, rfl⟩ := (readHead_htmlEncode_iff order info url fields).mp h.read
    refine ⟨(headLines_nonempty_iff order info url).mp hnonempty, hhost.mp h.host,
      hcontent.mp ⟨h.contentLength, h.length⟩, hauthorization.mp h.authorization, ?_⟩
    exact fun name value hlookup hnamed =>
      (caller_iff order info url hlookup hnamed).mp (h.caller name value hlookup hnamed)
  · intro h
    obtain ⟨hcount, hvalue⟩ := hcontent.mpr h.contentLength
    refine ⟨(headLines order info url).filterMap lineField, ?_, hhost.mpr h.host, hcount, hvalue,
      hauthorization.mpr h.authorization, ?_⟩
    · exact (readHead_htmlEncode_iff order info url _).mpr
        ⟨(headLines_nonempty_iff order info url).mpr h.nonempty, rfl⟩
    · exact fun name value hlookup hnamed =>
        (caller_iff order info url hlookup hnamed).mpr (h.caller name value hlookup hnamed)

end

/-- A valid URL with a line break and a `Host` in its path. -/
def hostUrl : Bytes := bytes "http://a/ HTTP/1.1\r\nHost: b\r\nX: y"

/-- A caller's `host` stands beside `Host`, and so does one behind a line break in the path. -/
theorem not_oneOfEach_host :
    (¬∃ fields, OneOfEach .latestFirst
      { url := bytes "http://a/", methodType := .Get, headers := AList.insert (bytes "host") (bytes "b") ∅ }
      (Url.parse (bytes "http://a/")) fields) ∧
    (Url.parse hostUrl).isValid = true ∧
    ¬∃ fields, OneOfEach .latestFirst { url := hostUrl, methodType := .Get } (Url.parse hostUrl) fields := by
  have htwo {text rest : Bytes} {fields fields' : List (Bytes × Bytes)} (hread : readHead text = some (fields, rest))
      (hcount : countNamed kHost fields = 2) (hread' : readHead text = some (fields', rest)) :
      ¬countNamed kHost fields' = 1 := by
    obtain ⟨rfl, -⟩ := Prod.mk.inj (Option.some.inj (hread.symm.trans hread'))
    omega
  refine ⟨?_, by decide, ?_⟩
  · rintro ⟨fields, h⟩
    have hread : readHead (htmlEncode .latestFirst
        { url := bytes "http://a/", methodType := .Get, headers := AList.insert (bytes "host") (bytes "b") ∅ }
        (Url.parse (bytes "http://a/"))).1 =
          some ([(kHost, bytes "a"), (bytes "host", bytes "b")], []) := by decide +kernel
    exact htwo hread (by decide +kernel) h.read h.host
  · rintro ⟨fields, h⟩
    have hread : readHead (htmlEncode .latestFirst { url := hostUrl, methodType := .Get } (Url.parse hostUrl)).1 =
        some ([(kHost, bytes "b"), (bytes "X", bytes "y HTTP/1.1"), (kHost, bytes "a")], []) := by decide +kernel
    exact htwo hread (by decide +kernel) h.read h.host

end HttpRequest
