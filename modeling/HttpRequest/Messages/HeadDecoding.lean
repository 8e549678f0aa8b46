import HttpRequest.Messages.Lines

/-! # Decoding a response head

The heads of RFC 7230, written down as a status line and fields (`ResponseHead`), and what
`parseResponseHeader` reads from them. The parser splits at every `": "`, drops empty tokens and runs its
field loop over the status line as well, so it does not undo every encoding: `decodes_iff` says which
heads it reads as they were meant. -/

namespace HttpRequest

open Foundations

/-! ### Heads -/

/-- A field with a value that is not surrounded by spaces. -/
structure Field where
  name : Bytes
  value : Bytes
  isToken : IsToken name
  isLine : IsLine value
  front : value.head? ≠ some 32
  back : value.getLast? ≠ some 32

/-- A response head: a version `HTTP/d.d`, a code of three digits, a reason phrase, and fields with
distinct names. Without a reason phrase the space in front of it may be missing as well, which is the
reason phrase `none`. -/
structure ResponseHead where
  major : UInt8
  minor : UInt8
  code : Bytes
  reason : Option Bytes
  fields : List Field
  isdigit_major : isdigit major = true
  isdigit_minor : isdigit minor = true
  length_code : code.length = 3
  isdigit_code : ∀ c ∈ code, isdigit c = true
  isLine_reason : ∀ text ∈ reason, IsLine text
  distinct : (fields.map Field.name).Nodup
  reserved : ∀ field ∈ fields, field.name ≠ kVersion

namespace ResponseHead

variable (head : ResponseHead)

/-- `HTTP/d.d`. -/
def version : Bytes := kHTTPFlag ++ [head.major, 46, head.minor]

/-- The reason phrase. -/
def reasonPhrase : Bytes := head.reason.getD []

/-- The status line without its line break. -/
def statusLine : Bytes :=
  head.version ++ 32 :: head.code ++ match head.reason with
    | some text => 32 :: text
    | none => []

/-- A field without its line break. -/
def fieldText (field : Field) : Bytes := field.name ++ kFieldSeparator ++ field.value

/-- The head: its lines, each ended by a line break, and the empty line. -/
def render : Bytes :=
  (head.statusLine :: head.fields.map fieldText).flatMap (· ++ kCRLF) ++ kCRLF

/-- **What decoding has to give back**: the length of the head, the status code, the reason phrase, and
a header map with the fields, the version and nothing else. -/
def Decodes (body : Bytes) : Prop :=
  ∃ response, parseResponseHeader (head.render ++ body) {} = .ok (true, head.render.length, response) ∧
    response.httpStatusCode.toNat = digitsValue 10 head.code ∧
    response.reasonPhrase = head.reasonPhrase ∧
    ∀ key value, response.headers.lookup key = some value ↔
      (key = kVersion ∧ value = head.version) ∨
        ∃ field ∈ head.fields, field.name = key ∧ field.value = value

/-! ### The status line -/

/-- The status line in front of the reason phrase and its space. -/
def statusFront : Bytes := head.version ++ 32 :: head.code

/-- The status line with a reason. -/
theorem statusLine_of_some {text : Bytes} (h : head.reason = some text) :
    head.statusLine = head.statusFront ++ 32 :: text := by
  rw [statusLine, h, statusFront]

/-- The status line without one. -/
theorem statusLine_of_none (h : head.reason = none) : head.statusLine = head.statusFront := by
  rw [statusLine, h, statusFront, List.append_nil]

/-- The status line starts with eight bytes of version, a space and three digits. -/
theorem exists_statusFront : ∃ x y z, head.code = [x, y, z] ∧
    head.statusFront = [72, 84, 84, 80, 47, head.major, 46, head.minor, 32, x, y, z] := by
  obtain ⟨x, y, z, hcode⟩ := List.length_eq_three.mp head.length_code
  exact ⟨x, y, z, hcode, by rw [statusFront, hcode]; rfl⟩

/-- The version and the code take twelve bytes. -/
theorem length_statusFront : head.statusFront.length = 12 := by
  obtain ⟨x, y, z, -, hfront⟩ := head.exists_statusFront
  rw [hfront]
  rfl

/-- A byte that is no digit and in no fixed part is not in front of the reason phrase. -/
theorem not_mem_statusFront {c : UInt8} (hc : isdigit c = false)
    (hfixed : c ∉ [72, 84, 84, 80, 47, 46, 32]) : c ∉ head.statusFront := by
  have hdigit {d : UInt8} (hd : isdigit d = true) : c ≠ d := by
    rintro rfl
    rw [hc] at hd
    cases hd
  obtain ⟨x, y, z, hcode, hfront⟩ := head.exists_statusFront
  have hx := hdigit (head.isdigit_code x (by rw [hcode]; simp))
  have hy := hdigit (head.isdigit_code y (by rw [hcode]; simp))
  have hz := hdigit (head.isdigit_code z (by rw [hcode]; simp))
  have hmajor := hdigit head.isdigit_major
  have hminor := hdigit head.isdigit_minor
  rw [hfront]
  simp only [List.mem_cons, List.not_mem_nil, or_false, not_or] at hfixed ⊢
  tauto

/-- The flag is found at the front. -/
theorem find_kHTTPFlag : find kHTTPFlag head.statusLine = some 0 :=
  find_eq_zero_iff.mpr ⟨_, by rw [statusLine, version, List.append_assoc, List.append_assoc]⟩

/-- The status line fits in a line. -/
theorem isLine_statusLine : IsLine head.statusLine := by
  have hfront : IsLine head.statusFront :=
    ⟨head.not_mem_statusFront (by decide) (by decide), head.not_mem_statusFront (by decide) (by decide)⟩
  cases hreason : head.reason with
  | none => rwa [head.statusLine_of_none hreason]
  | some text =>
    rw [head.statusLine_of_some hreason]
    have htext := head.isLine_reason text hreason
    refine hfront.append ⟨fun h => ?_, fun h => ?_⟩
    · exact (List.mem_cons.mp h).elim (by decide) htext.1
    · exact (List.mem_cons.mp h).elim (by decide) htext.2

/-- The status line is not empty. -/
theorem statusLine_ne_nil : head.statusLine ≠ [] := by
  intro h
  have hfind := head.find_kHTTPFlag
  rw [h] at hfind
  exact absurd hfind (by decide)

/-- Without the space in front of the reason phrase the line is too short to be read. -/
theorem not_statusReads (h : head.reason = none) : ¬StatusReads head.statusLine := by
  intro hreads
  have hlen := (hreads 0 head.find_kHTTPFlag).1
  rw [head.statusLine_of_none h, head.length_statusFront] at hlen
  omega

/-- A code has three digits. -/
theorem digitsValue_code_lt : digitsValue 10 head.code < 1000 := by
  have hlt := digitsValue_lt head.isdigit_code
  rwa [head.length_code] at hlt

/-- Three digits make a number. -/
theorem stoi_code : stoi head.code = .ok (digitsValue 10 head.code : Int) := by
  have hne : head.code ≠ [] := fun h => by
    have hlen := head.length_code
    rw [h] at hlen
    cases hlen
  have hlt := head.digitsValue_code_lt
  rw [stoi, stoSigned, strtol_decimal hne head.isdigit_code]
  show (if -2 ^ 31 ≤ (digitsValue 10 head.code : Int) ∧ (digitsValue 10 head.code : Int) < 2 ^ 31
    then _ else _) = _
  rw [if_pos (by omega)]

/-- What the status line is read to. -/
theorem parseStatusLine_some {text : Bytes} (h : head.reason = some text) :
    parseStatusLine head.statusLine {} =
      .ok { headers := AList.insert kVersion head.version ∅
            httpStatusCode := UInt16.ofNat (digitsValue 10 head.code)
            reasonPhrase := text } := by
  obtain ⟨x, y, z, hcode, hfront⟩ := head.exists_statusFront
  have hline : head.statusLine = [72, 84, 84, 80, 47, head.major, 46, head.minor, 32, x, y, z] ++
      32 :: text := by rw [head.statusLine_of_some h, hfront]
  have hnumber : (head.statusLine.drop 9).take 3 = head.code := by
    rw [hline, hcode]
    rfl
  have hreads := parseStatusLine_of_reads head.find_kHTTPFlag (by rw [hline]; simp)
    (by rw [hnumber]; exact head.stoi_code) {}
  have hlt := head.digitsValue_code_lt
  have hcast : UInt16.ofInt (digitsValue 10 head.code : Int) = UInt16.ofNat (digitsValue 10 head.code) :=
    congrArg UInt16.ofNat (by omega)
  rw [hreads, hline, hcast]
  rfl

/-! ### Fields and their lines -/

/-- A value that comes back as the only token, whole: it is not empty and holds no separator. -/
theorem split_eq_singleton_iff {value : Bytes} :
    StringUtil.split value kFieldSeparator = [value] ↔
      value ≠ [] ∧ ¬kFieldSeparator <:+: value := by
  constructor
  · intro h
    exact StringUtil.of_mem_split (by decide) (by rw [h]; exact List.mem_singleton_self _)
  · rintro ⟨hempty, hnot⟩
    rw [StringUtil.split_of_dropInfix?_none (dropInfix?_eq_none.mpr hnot),
      List.isEmpty_eq_false_iff.mpr hempty, if_neg Bool.false_ne_true]

/-- A text that does not start with the byte keeps its front. -/
theorem removePrefix_of_head?_ne {text : Bytes} {c : UInt8} (h : text.head? ≠ some c) :
    StringUtil.removePrefix text c = text := if_neg h

/-- The tokens of a field line: the name, and those of the value. -/
theorem split_fieldText (field : Field) :
    StringUtil.split (fieldText field) kFieldSeparator =
      field.name :: StringUtil.split field.value kFieldSeparator := by
  have hfind : (fieldText field).dropInfix? kFieldSeparator = some (field.name, field.value) :=
    dropInfix?_of_not_mem (field.isToken.not_mem (by decide))
  rw [StringUtil.split_of_dropInfix? (by decide) hfind,
    List.isEmpty_eq_false_iff.mpr field.isToken.1]
  rfl

/-- The text of a field is not empty. -/
theorem fieldText_ne_nil (field : Field) : fieldText field ≠ [] := by
  intro h
  have hlen := congrArg List.length h
  simp only [fieldText, List.length_append] at hlen
  have hname := List.length_pos_iff.mpr field.isToken.1
  simp only [List.length_nil] at hlen
  omega

/-- The text of a field fits in a line. -/
theorem isLine_fieldText (field : Field) : IsLine (fieldText field) :=
  (field.isToken.isLine.append (by decide)).append field.isLine

/-- A line is no field unless it splits into two tokens. -/
theorem fieldOf_eq_none {line : Bytes} (h : (StringUtil.split line kFieldSeparator).length ≠ 2) :
    fieldOf line = none := by
  rw [fieldOf]
  split
  · rfl
  · split
    · next name value hsplit =>
      rw [hsplit] at h
      exact absurd rfl h
    · rfl

/-- A line that splits into two tokens is a field. -/
theorem fieldOf_of_split {line name value : Bytes}
    (h : StringUtil.split line kFieldSeparator = [name, value]) :
    fieldOf line = some (StringUtil.removePrefix name 32, StringUtil.removePrefix value 32) := by
  have hcolon : (line.isEmpty || (findChar ':' line).isNone) = false := by
    -- a line without the separator is one token
    obtain ⟨⟨p, s⟩, hfind⟩ : ∃ ps, line.dropInfix? kFieldSeparator = some ps := by
      cases hfind : line.dropInfix? kFieldSeparator with
      | some ps => exact ⟨ps, rfl⟩
      | none =>
        rw [StringUtil.split_of_dropInfix?_none hfind] at h
        split at h <;> cases h
    have hmem : (58 : UInt8) ∈ line := by
      rw [eq_append_of_dropInfix? hfind]
      exact List.mem_append_left _ (List.mem_append_right _ (by decide))
    have hnotEmpty : line.isEmpty = false := List.isEmpty_eq_false_iff.mpr (List.ne_nil_of_mem hmem)
    have hfound : (findChar ':' line).isNone = false := by
      rw [Option.isNone_eq_false_iff, findChar, List.isSome_idxOf?]
      exact hmem
    rw [hnotEmpty, hfound]
    rfl
  rw [fieldOf, hcolon, if_neg Bool.false_ne_true, h]

/-- A name starts with no space. -/
theorem removePrefix_name (field : Field) : StringUtil.removePrefix field.name 32 = field.name :=
  removePrefix_of_head?_ne fun h => field.isToken.not_mem (by decide) (List.mem_of_mem_head? h)

/-- What is taken from a field line has the name of the field. -/
theorem name_of_fieldOf_fieldText {field : Field} {read : Bytes × Bytes}
    (h : fieldOf (fieldText field) = some read) : read.1 = field.name := by
  have htwo : (StringUtil.split (fieldText field) kFieldSeparator).length = 2 := by
    by_contra hnot
    rw [fieldOf_eq_none hnot] at h
    cases h
  obtain ⟨name, value, hsplit⟩ := List.length_eq_two.mp htwo
  rw [Option.some.inj (h.symm.trans (fieldOf_of_split hsplit))]
  rw [split_fieldText] at hsplit
  obtain ⟨rfl, -⟩ := List.cons.inj hsplit
  exact removePrefix_name field

/-- A field line is read as it was meant exactly when its value is not empty and holds no
separator. -/
theorem fieldOf_fieldText_eq_iff (field : Field) :
    fieldOf (fieldText field) = some (field.name, field.value) ↔
      field.value ≠ [] ∧ ¬kFieldSeparator <:+: field.value := by
  rw [← split_eq_singleton_iff]
  constructor
  · intro h
    by_cases htwo : (StringUtil.split (fieldText field) kFieldSeparator).length = 2
    · obtain ⟨name, value, hsplit⟩ := List.length_eq_two.mp htwo
      have hfield := h.symm.trans (fieldOf_of_split hsplit)
      rw [split_fieldText] at hsplit
      obtain ⟨rfl, hvalue⟩ := List.cons.inj hsplit
      have hread : field.value = StringUtil.removePrefix value 32 :=
        congrArg Prod.snd (Option.some.inj hfield)
      rw [hvalue, hread]
      -- nothing is erased: an erased value would be empty, and no token is
      by_cases hspace : value.head? = some 32
      · have hempty : field.value = [] := by rw [hread, StringUtil.removePrefix, if_pos hspace]
        rw [hempty, StringUtil.split_nil (by decide)] at hvalue
        cases hvalue
      · rw [removePrefix_of_head?_ne hspace]
    · rw [fieldOf_eq_none htwo] at h
      cases h
  · intro h
    have hsplit := split_fieldText field
    rw [h] at hsplit
    rw [fieldOf_of_split hsplit, removePrefix_name, removePrefix_of_head?_ne field.front]

/-! ### The head -/

/-- The lines of the head. -/
def lines : List Bytes := head.statusLine :: head.fields.map fieldText

/-- No line of the head is empty or has a break in it. -/
theorem isUnbroken_lines : ∀ line ∈ head.lines, IsUnbroken line ∧ line ≠ [] := by
  intro line hline
  rcases List.mem_cons.mp hline with rfl | hline
  · exact ⟨head.isLine_statusLine.isUnbroken, head.statusLine_ne_nil⟩
  · obtain ⟨field, -, rfl⟩ := List.mem_map.mp hline
    exact ⟨(isLine_fieldText field).isUnbroken, fieldText_ne_nil field⟩

/-- The head is parsed from its lines. -/
theorem parseResponseHeader_render (body : Bytes) :
    parseResponseHeader (head.render ++ body) {} =
      (parseStatusLine head.statusLine {}).map fun response =>
        (true, head.render.length,
          { response with headers := head.lines.foldl parseFieldLine response.headers }) := by
  have hrender : head.render =
      joinLines head.statusLine (head.fields.map fieldText) ++ kHeaderEnd := by
    rw [render, flatMap_lines, List.append_assoc]
    rfl
  rw [hrender]
  exact parseResponseHeader_joinLines head.isUnbroken_lines body {}

/-- With a status line that can be read, decoding is a matter of the header map. -/
theorem decodes_iff_lookup {text : Bytes} (h : head.reason = some text) (body : Bytes) :
    head.Decodes body ↔ ∀ key value,
      (lastField key head.lines).or ((AList.insert kVersion head.version ∅ : HeaderMap).lookup key) =
          some value ↔
        (key = kVersion ∧ value = head.version) ∨
          ∃ field ∈ head.fields, field.name = key ∧ field.value = value := by
  have hlt := head.digitsValue_code_lt
  have hparse := head.parseResponseHeader_render body
  rw [head.parseStatusLine_some h] at hparse
  constructor
  · rintro ⟨response, hresponse, -, -, hlookup⟩ key value
    rw [← hlookup, ← lookup_foldl_parseFieldLine]
    have heq := hparse.symm.trans hresponse
    cases heq
    rfl
  · intro hlookup
    refine ⟨_, hparse, ?_, ?_, fun key value => ?_⟩
    · exact UInt16.toNat_ofNat_of_lt' (hlt.trans (by decide))
    · rw [reasonPhrase, h]
      rfl
    · rw [← hlookup, ← lookup_foldl_parseFieldLine]

/-- A front without a byte ends before the byte does. -/
theorem prefix_of_not_mem {c : UInt8} {front p s : Bytes} (hfront : front <+: p ++ c :: s)
    (h : c ∉ front) : front <+: p := by
  rcases Nat.lt_or_ge p.length front.length with hlt | hge
  · refine absurd ?_ h
    have hpre : p ++ [c] <+: front :=
      List.prefix_of_prefix_length_le ⟨s, by rw [List.append_assoc]; rfl⟩ hfront (by
        rw [List.length_append, List.length_singleton]
        omega)
    exact hpre.subset (List.mem_append_right _ (List.mem_singleton_self c))
  · exact List.prefix_of_prefix_length_le hfront (List.prefix_append p _) hge

/-- The name of a field taken from the status line holds a space. -/
theorem mem_of_fieldOf_statusLine {field : Bytes × Bytes} (h : fieldOf head.statusLine = some field) :
    (32 : UInt8) ∈ field.1 := by
  have htwo : (StringUtil.split head.statusLine kFieldSeparator).length = 2 := by
    by_contra hnot
    rw [fieldOf_eq_none hnot] at h
    cases h
  obtain ⟨name, value, hsplit⟩ := List.length_eq_two.mp htwo
  have hfield := h.symm.trans (fieldOf_of_split hsplit)
  rw [Option.some.inj hfield]
  -- the first token reaches behind the part in front of the reason phrase
  have hfront : head.statusFront <+: head.statusLine := by
    cases hreason : head.reason with
    | none => rw [head.statusLine_of_none hreason]
    | some text => exact ⟨32 :: text, (head.statusLine_of_some hreason).symm⟩
  obtain ⟨x, y, z, -, hfixed⟩ := head.exists_statusFront
  cases hfind : head.statusLine.dropInfix? kFieldSeparator with
  | none =>
    rw [StringUtil.split_of_dropInfix?_none hfind] at htwo
    split at htwo <;> cases htwo
  | some ps =>
    obtain ⟨p, s⟩ := ps
    have hline := eq_append_of_dropInfix? hfind
    rw [hline, List.append_assoc] at hfront
    obtain ⟨more, hmore⟩ := prefix_of_not_mem (c := 58) hfront
      (head.not_mem_statusFront (by decide) (by decide))
    have hp : p = 72 :: ([84, 84, 80, 47, head.major, 46, head.minor, 32, x, y, z] ++ more) := by
      rw [← hmore, hfixed]
      rfl
    rw [StringUtil.split_of_dropInfix? (by decide) hfind, hp] at hsplit
    obtain ⟨rfl, -⟩ := List.cons.inj hsplit
    dsimp only
    rw [removePrefix_of_head?_ne (by simp)]
    simp

/-- Two fields with one name are the same. -/
theorem field_eq_of_name {field field' : Field} (h : field ∈ head.fields) (h' : field' ∈ head.fields)
    (hname : field.name = field'.name) : field = field' :=
  List.inj_on_of_nodup_map head.distinct h h' hname

/-- A field of the head, as far as the parser takes one from the lines, is that of its own line. -/
theorem fieldOf_of_lastField {field : Field} (hfield : field ∈ head.fields)
    (h : lastField field.name head.lines = some field.value) :
    fieldOf (fieldText field) = some (field.name, field.value) := by
  obtain ⟨line, hline, hread⟩ := List.mem_filterMap.mp (mem_of_lastField h)
  rcases List.mem_cons.mp hline with rfl | hline
  · exact absurd (head.mem_of_fieldOf_statusLine hread) (field.isToken.not_mem (by decide))
  · obtain ⟨field', hfield', rfl⟩ := List.mem_map.mp hline
    obtain rfl := head.field_eq_of_name hfield hfield' (name_of_fieldOf_fieldText hread)
    exact hread

/-- When every line is read as it was meant, the fields of the lines are those of the head. -/
theorem filterMap_lines (hstatus : fieldOf head.statusLine = none)
    (h : ∀ field ∈ head.fields, fieldOf (fieldText field) = some (field.name, field.value)) :
    head.lines.filterMap fieldOf = head.fields.map fun field => (field.name, field.value) := by
  rw [lines, List.filterMap_cons_none hstatus, List.filterMap_map, ← List.filterMap_eq_map]
  exact List.filterMap_congr h

/-- The header map of such lines holds the fields and the version. -/
theorem lookup_iff_of_filterMap
    (hlines : head.lines.filterMap fieldOf = head.fields.map fun field => (field.name, field.value))
    (key value : Bytes) :
    (lastField key head.lines).or ((AList.insert kVersion head.version ∅ : HeaderMap).lookup key) =
        some value ↔
      (key = kVersion ∧ value = head.version) ∨
        ∃ field ∈ head.fields, field.name = key ∧ field.value = value := by
  cases hlast : lastField key head.lines with
  | some last =>
    have hmem := mem_of_lastField hlast
    rw [hlines] at hmem
    obtain ⟨field, hfield, hpair⟩ := List.mem_map.mp hmem
    obtain ⟨rfl, rfl⟩ := Prod.mk.inj hpair
    rw [Option.some_or, Option.some.injEq]
    constructor
    · rintro rfl
      exact .inr ⟨field, hfield, rfl, rfl⟩
    · rintro (⟨hversion, -⟩ | ⟨field', hfield', hname, rfl⟩)
      · exact absurd hversion (head.reserved field hfield)
      · rw [head.field_eq_of_name hfield' hfield hname]
  | none =>
    have hnone : ∀ field ∈ head.fields, field.name ≠ key := by
      rintro field hfield rfl
      have hmem : (field.name, field.value) ∈ head.lines.filterMap fieldOf := by
        rw [hlines]
        exact List.mem_map_of_mem hfield
      obtain ⟨last, hsome⟩ := exists_lastField hmem
      rw [hlast] at hsome
      cases hsome
    rw [Option.none_or]
    by_cases hversion : key = kVersion
    · rw [hversion, AList.lookup_insert, Option.some.injEq]
      constructor
      · rintro rfl
        exact .inl ⟨rfl, rfl⟩
      · rintro (⟨-, rfl⟩ | ⟨field, hfield, hname, -⟩)
        · rfl
        · exact absurd (hname.trans hversion.symm) (hnone field hfield)
    · rw [AList.lookup_insert_ne hversion, AList.lookup_empty]
      constructor
      · intro hvalue
        cases hvalue
      · rintro (⟨hkey, -⟩ | ⟨field, hfield, hname, -⟩)
        · exact absurd hkey hversion
        · exact absurd hname (hnone field hfield)

/-- **Which heads are decoded as they were meant**: the reason phrase comes with its space, the status
line is not taken for a field, and every field has a value that is not empty and holds no `": "`. -/
theorem decodes_iff (body : Bytes) :
    head.Decodes body ↔
      head.reason.isSome = true ∧
        (StringUtil.split head.statusLine kFieldSeparator).length ≠ 2 ∧
        ∀ field ∈ head.fields, field.value ≠ [] ∧ ¬kFieldSeparator <:+: field.value := by
  cases hreason : head.reason with
  | none =>
    refine ⟨?_, fun h => by cases h.1⟩
    rintro ⟨response, hresponse, -⟩
    obtain ⟨fault, hfault⟩ := parseStatusLine_error (head.not_statusReads hreason) {}
    rw [head.parseResponseHeader_render, hfault] at hresponse
    cases hresponse
  | some text =>
    rw [head.decodes_iff_lookup hreason]
    constructor
    · intro h
      refine ⟨rfl, fun htwo => ?_, fun field hfield => ?_⟩
      · -- the status line would add a field with a name that none of the fields can have
        obtain ⟨name, value, hsplit⟩ := List.length_eq_two.mp htwo
        have hstatus := fieldOf_of_split hsplit
        have hspace := head.mem_of_fieldOf_statusLine hstatus
        obtain ⟨last, hlast⟩ := exists_lastField (List.mem_filterMap.mpr
          ⟨head.statusLine, List.mem_cons_self, hstatus⟩)
        rcases (h _ last).mp (by rw [lines, hlast]; rfl) with ⟨hversion, -⟩ | ⟨field, -, hname, -⟩
        · rw [hversion] at hspace
          exact absurd hspace (by decide : (32 : UInt8) ∉ kVersion)
        · rw [← hname] at hspace
          exact field.isToken.not_mem (by decide) hspace
      · rw [← fieldOf_fieldText_eq_iff]
        have hlookup := (h field.name field.value).mpr (.inr ⟨field, hfield, rfl, rfl⟩)
        rw [AList.lookup_insert_ne (head.reserved field hfield), AList.lookup_empty, Option.or_none]
          at hlookup
        exact head.fieldOf_of_lastField hfield hlookup
    · rintro ⟨-, hstatus, hfields⟩ key value
      have hlines := head.filterMap_lines (fieldOf_eq_none hstatus) fun field hfield =>
        (fieldOf_fieldText_eq_iff field).mpr (hfields field hfield)
      exact head.lookup_iff_of_filterMap hlines key value

end ResponseHead

/-- The head `HTTP/1.1 200 OK` with a field `Title: a: b`. -/
def separatorHead : ResponseHead where
  major := 49
  minor := 49
  code := bytes "200"
  reason := some (bytes "OK")
  fields := [⟨bytes "Title", bytes "a: b", by decide +kernel, by decide, by decide, by decide⟩]
  isdigit_major := by decide
  isdigit_minor := by decide
  length_code := rfl
  isdigit_code := by decide +kernel
  isLine_reason := by rintro _ ⟨⟩; decide
  distinct := by decide
  reserved := by decide

/-- A field whose value holds a separator is lost. -/
theorem separatorHead_not_decodes : ¬separatorHead.Decodes [] := by
  rintro ⟨response, hresponse, -, -, hlookup⟩
  have hparse : parseResponseHeader (separatorHead.render ++ []) {} =
      .ok (true, separatorHead.render.length,
        { headers := AList.insert kVersion (bytes "HTTP/1.1") ∅
          httpStatusCode := 200
          reasonPhrase := bytes "OK" }) := by rfl
  rw [hparse] at hresponse
  cases hresponse
  have hfield := (hlookup (bytes "Title") (bytes "a: b")).mpr (.inr ⟨_, List.mem_cons_self, rfl, rfl⟩)
  rw [AList.lookup_insert_ne (by decide)] at hfield
  cases hfield

end HttpRequest
