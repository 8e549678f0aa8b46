import HttpRequest.HeadLines
import HttpRequest.Numerals
import HttpRequest.Splitting

/-! # Tokens, lines and fields

The vocabulary of RFC 7230 for both directions: what a token is, what a text without line breaks is, and
how lines that end in a line break, with an empty line behind them, are taken apart again by the searches
of the parser. -/

namespace HttpRequest

open Foundations

/-! ### Tokens and lines -/

/-- `tchar`. -/
def isTchar (c : UInt8) : Bool := isalnum c || (bytes "!#$%&'*+-.^_`|~").contains c

/-- `token`. -/
def IsToken (text : Bytes) : Prop := text ≠ [] ∧ ∀ c ∈ text, isTchar c = true

/-- A text that is not broken into lines: a carriage return or a line feed alone does not break it. -/
def IsUnbroken (text : Bytes) : Prop := ¬kCRLF <:+: text

/-- A text without line breaks. -/
def IsLine (text : Bytes) : Prop := (13 : UInt8) ∉ text ∧ (10 : UInt8) ∉ text

instance (text : Bytes) : Decidable (IsToken text) := inferInstanceAs (Decidable (_ ∧ _))

instance (text : Bytes) : Decidable (IsLine text) := inferInstanceAs (Decidable (_ ∧ _))

/-- A byte that is none of a token's does not occur in a token. -/
theorem IsToken.not_mem {text : Bytes} (h : IsToken text) {c : UInt8} (hc : isTchar c = false) :
    c ∉ text := fun hmem => Bool.false_ne_true (hc.symm.trans (h.2 c hmem))

/-- A token fits in a line. -/
theorem IsToken.isLine {text : Bytes} (h : IsToken text) : IsLine text :=
  ⟨h.not_mem (by decide), h.not_mem (by decide)⟩

/-- Two texts that fit in a line fit in one together. -/
theorem IsLine.append {text text' : Bytes} (h : IsLine text) (h' : IsLine text') :
    IsLine (text ++ text') :=
  ⟨fun hmem => (List.mem_append.mp hmem).elim h.1 h'.1,
    fun hmem => (List.mem_append.mp hmem).elim h.2 h'.2⟩

/-- A text that fits in a line has no line break in it. -/
theorem IsLine.isUnbroken {text : Bytes} (h : IsLine text) : IsUnbroken text :=
  fun hin => h.1 (hin.subset (by decide))

/-- The same for a list of lines. -/
theorem isUnbroken_of_isLine {lines : List Bytes} (h : ∀ l ∈ lines, IsLine l ∧ l ≠ []) :
    ∀ l ∈ lines, IsUnbroken l ∧ l ≠ [] := fun l hl => ⟨(h l hl).1.isUnbroken, (h l hl).2⟩

/-- No line break starts in an unbroken text when a carriage return follows it. -/
theorem IsUnbroken.not_prefix_drop {text : Bytes} (h : IsUnbroken text) (rest : Bytes) :
    ∀ j < text.length, ¬kCRLF <+: (text ++ 13 :: rest).drop j := by
  have hbreak : kCRLF = [13, 10] := by decide
  intro j hj hpre
  rw [List.drop_append_of_le_length hj.le, hbreak] at hpre
  cases htext : text.drop j with
  | nil =>
    have hlength := congrArg List.length htext
    simp only [List.length_drop, List.length_nil] at hlength
    omega
  | cons c more =>
    rw [htext] at hpre
    cases more with
    | nil => simp at hpre
    | cons d more =>
      simp only [List.cons_append, List.cons_prefix_cons, List.nil_prefix, and_true] at hpre
      obtain ⟨rfl, rfl⟩ := hpre
      exact h ⟨text.take j, more, by rw [hbreak, List.append_assoc, List.cons_append, List.cons_append,
        List.nil_append, ← htext, List.take_append_drop]⟩

/-- The line break behind an unbroken text is found. -/
theorem IsUnbroken.dropInfix? {text : Bytes} (h : IsUnbroken text) (rest : Bytes) :
    (text ++ kCRLF ++ rest).dropInfix? kCRLF = some (text, rest) := by
  refine dropInfix?_of_not_infix (by decide) ?_
  rintro ⟨front, back, heq⟩
  have hlength := congrArg List.length heq
  have hdropLast : kCRLF.dropLast = [13] := by decide
  have htwo : kCRLF.length = 2 := rfl
  rw [hdropLast] at heq hlength
  simp only [List.length_append, List.length_singleton, htwo] at hlength
  refine h.not_prefix_drop [] front.length (by omega) ⟨back, ?_⟩
  rw [← heq, List.append_assoc, List.drop_left]

/-! ### Lines taken apart -/

/-- Lines, at least one, with line breaks between them. -/
def joinLines : Bytes → List Bytes → Bytes
  | line, [] => line
  | line, next :: lines => line ++ kCRLF ++ joinLines next lines

/-- Lines that end in a line break each are lines with line breaks between them and one behind them. -/
theorem flatMap_lines (line : Bytes) (lines : List Bytes) :
    (line :: lines).flatMap (· ++ kCRLF) = joinLines line lines ++ kCRLF := by
  induction lines generalizing line with
  | nil => simp [joinLines]
  | cons next lines ih => rw [List.flatMap_cons, ih, joinLines, List.append_assoc _ (joinLines _ _)]

/-- Splitting at the line breaks gives the lines back. -/
theorem split_joinLines {line : Bytes} {lines : List Bytes}
    (h : ∀ l ∈ line :: lines, IsUnbroken l ∧ l ≠ []) :
    StringUtil.split (joinLines line lines) kCRLF = line :: lines := by
  have hne : kCRLF ≠ [] := by decide
  induction lines generalizing line with
  | nil =>
    obtain ⟨hline, hempty⟩ := h line List.mem_cons_self
    have hnone : line.dropInfix? kCRLF = none := dropInfix?_eq_none.mpr hline
    rw [joinLines, StringUtil.split_of_dropInfix?_none hnone, List.isEmpty_eq_false_iff.mpr hempty]
    rfl
  | cons next lines ih =>
    obtain ⟨hline, hempty⟩ := h line List.mem_cons_self
    rw [joinLines, StringUtil.split_of_dropInfix? hne (hline.dropInfix? _),
      ih fun l hl => h l (List.mem_cons_of_mem _ hl), List.isEmpty_eq_false_iff.mpr hempty]
    rfl

/-- A carriage return stands behind the first of the lines. -/
theorem joinLines_append (line : Bytes) (lines : List Bytes) (rest : Bytes) :
    ∃ more, joinLines line lines ++ kHeaderEnd ++ rest = line ++ 13 :: more := by
  have hend : kHeaderEnd = [13, 10, 13, 10] := by decide
  have hbreak : kCRLF = [13, 10] := by decide
  cases lines with
  | nil => exact ⟨10 :: 13 :: 10 :: rest, by rw [joinLines, hend, List.append_assoc]; rfl⟩
  | cons next lines =>
    exact ⟨10 :: (joinLines next lines ++ kHeaderEnd ++ rest), by
      rw [joinLines, hbreak]
      simp only [List.append_assoc]
      rfl⟩

/-- The line break between two lines is not the end of a head: the next line stands behind it. -/
theorem not_prefix_drop_line {line next : Bytes} (hline : IsUnbroken line) (hnext : IsUnbroken next)
    (hempty : next ≠ []) (rest : Bytes) :
    ∀ j < (line ++ kCRLF).length, ¬kHeaderEnd <+: (line ++ kCRLF ++ (next ++ 13 :: rest)).drop j := by
  have hend : kHeaderEnd = kCRLF ++ kCRLF := by decide
  have hbreak : kCRLF = [13, 10] := by decide
  have hcrlf : kCRLF <+: kHeaderEnd := ⟨kCRLF, hend.symm⟩
  intro j hj hpre
  rw [List.length_append, hbreak] at hj
  rcases Nat.lt_trichotomy j line.length with hlt | rfl | hgt
  · rw [List.append_assoc, hbreak] at hpre
    exact hline.not_prefix_drop _ j hlt (hcrlf.trans hpre)
  · rw [List.append_assoc, List.drop_left, hend, List.prefix_append_right_inj] at hpre
    exact hnext.not_prefix_drop rest 0 (List.length_pos_iff.mpr hempty) hpre
  · obtain rfl : j = line.length + 1 := by simp only [List.length_cons, List.length_nil] at hj; omega
    rw [List.append_assoc, List.drop_append, List.drop_eq_nil_of_le (by omega), Nat.add_sub_cancel_left] at hpre
    have hfront := hcrlf.trans hpre
    rw [hbreak] at hfront
    simp at hfront

/-- The empty line behind the lines is the first. -/
theorem dropInfix?_joinLines {line : Bytes} {lines : List Bytes}
    (h : ∀ l ∈ line :: lines, IsUnbroken l ∧ l ≠ []) (rest : Bytes) :
    (joinLines line lines ++ kHeaderEnd ++ rest).dropInfix? kHeaderEnd =
      some (joinLines line lines, rest) := by
  have hend : kHeaderEnd = 13 :: [10, 13, 10] := by decide
  induction lines generalizing line with
  | nil =>
    obtain ⟨hline, -⟩ := h line List.mem_cons_self
    have hstart : ∀ j < line.length, ¬kHeaderEnd <+: (line ++ (kHeaderEnd ++ rest)).drop j := by
      intro j hj hpre
      rw [hend] at hpre
      exact hline.not_prefix_drop _ j hj (List.IsPrefix.trans ⟨[13, 10], by decide⟩ hpre)
    have hfound : (kHeaderEnd ++ rest).dropInfix? kHeaderEnd = some ([], rest) :=
      dropInfix?_of_not_mem (p := []) List.not_mem_nil
    rw [joinLines, List.append_assoc, dropInfix?_append_of_no_start hstart, hfound, Option.map_some,
      List.append_nil]
  | cons next lines ih =>
    obtain ⟨hline, -⟩ := h line List.mem_cons_self
    obtain ⟨hnext, hempty⟩ := h next (List.mem_cons_of_mem _ List.mem_cons_self)
    -- the line break between two lines is not the end of the head: the next line starts behind it
    obtain ⟨more, hmore⟩ := joinLines_append next lines rest
    have hstart : ∀ j < (line ++ kCRLF).length, ¬kHeaderEnd <+:
        (line ++ kCRLF ++ (joinLines next lines ++ kHeaderEnd ++ rest)).drop j := by
      rw [hmore]
      exact not_prefix_drop_line hline hnext hempty more
    rw [joinLines, List.append_assoc, List.append_assoc, ← List.append_assoc (joinLines _ _),
      dropInfix?_append_of_no_start hstart, ih fun l hl => h l (List.mem_cons_of_mem _ hl)]
    rfl

/-- A head is parsed from its lines. -/
theorem parseResponseHeader_joinLines {line : Bytes} {lines : List Bytes}
    (h : ∀ l ∈ line :: lines, IsUnbroken l ∧ l ≠ []) (body : Bytes) (response : ResponseHeader) :
    parseResponseHeader (joinLines line lines ++ kHeaderEnd ++ body) response =
      (parseStatusLine line response).map fun response =>
        (true, (joinLines line lines ++ kHeaderEnd).length,
          { response with headers := (line :: lines).foldl parseFieldLine response.headers }) := by
  rw [parseResponseHeader_of_find (find_of_dropInfix? (dropInfix?_joinLines h body)), List.append_assoc,
    List.take_left, parseHeaderView, split_joinLines h, List.length_append]
  dsimp only
  cases parseStatusLine line response with
  | error fault => rfl
  | ok response => rfl

/-! ### Letter case -/

/-- Texts that differ in letter case only are of one length. -/
theorem length_of_letters {name name' : Bytes} (h : name'.map tolower = name.map tolower) :
    name'.length = name.length := by
  have hlen := congrArg List.length h
  rwa [List.length_map, List.length_map] at hlen

/-- No other byte is turned into one that is no letter. -/
theorem tolower_eq_iff {c : UInt8} (hupper : isupper c = false) (hlower : islower c = false) (d : UInt8) :
    tolower d = c ↔ d = c := by
  rw [tolower]
  split
  · next hd =>
    refine iff_of_false ?_ ?_
    · rintro rfl
      simp only [isupper, islower, decide_eq_true_eq, decide_eq_false_iff_not, UInt8.le_iff_toNat_le,
        UInt8.toNat_add] at hd hlower
      simp at hd hlower
      omega
    · rintro rfl
      rw [hd] at hupper
      cases hupper
  · exact Iff.rfl

/-- A byte that is no letter is at the same places of both. -/
theorem mem_of_letters {name name' : Bytes} (h : name'.map tolower = name.map tolower) {c : UInt8}
    (hupper : isupper c = false) (hlower : islower c = false) : c ∈ name' ↔ c ∈ name := by
  have hmem (text : Bytes) : c ∈ text ↔ c ∈ text.map tolower := by
    rw [List.mem_map]
    constructor
    · exact fun hin => ⟨c, hin, (tolower_eq_iff hupper hlower c).mpr rfl⟩
    · rintro ⟨d, hin, hd⟩
      exact (tolower_eq_iff hupper hlower d).mp hd ▸ hin
  rw [hmem name', h, ← hmem name]

/-! ### Texts broken into lines -/

/-- The lines a text is broken into: what stands between its line breaks, in front of the first and behind the
last. -/
def brokenLines : Bytes → List Bytes
  | [] => [[]]
  | 13 :: 10 :: text => [] :: brokenLines text
  | c :: text => (brokenLines text).modifyHead (c :: ·)

/-- A text is broken into one line at least. -/
theorem brokenLines_ne_nil (text : Bytes) : brokenLines text ≠ [] := by
  fun_induction brokenLines text with
  | case1 => exact List.cons_ne_nil _ _
  | case2 text ih => exact List.cons_ne_nil _ _
  | case3 c text _ ih => simpa using ih

/-- The lines, each ended by a line break, are the text ended by one. -/
theorem flatMap_brokenLines (text : Bytes) : (brokenLines text).flatMap (· ++ kCRLF) = text ++ kCRLF := by
  fun_induction brokenLines text with
  | case1 => rfl
  | case2 text ih =>
    rw [List.flatMap_cons, ih]
    rfl
  | case3 c text _ ih =>
    obtain ⟨line, lines, hlines⟩ := List.exists_cons_of_ne_nil (brokenLines_ne_nil text)
    rw [hlines, List.flatMap_cons] at ih
    rw [hlines, List.modifyHead_cons, List.flatMap_cons, List.cons_append, List.cons_append, ih, List.cons_append]

/-- No line is broken itself. -/
theorem isUnbroken_of_mem_brokenLines {text line : Bytes} (h : line ∈ brokenLines text) : IsUnbroken line := by
  have hempty : IsUnbroken [] := fun hin => absurd hin.length_le (by decide)
  fun_induction brokenLines text generalizing line with
  | case1 =>
    rw [List.mem_singleton.mp h]
    exact hempty
  | case2 text ih =>
    rcases List.mem_cons.mp h with rfl | h
    · exact hempty
    · exact ih h
  | case3 c text hnot ih =>
    obtain ⟨first, lines, hlines⟩ := List.exists_cons_of_ne_nil (brokenLines_ne_nil text)
    rw [hlines, List.modifyHead_cons] at h
    rw [hlines] at ih
    rcases List.mem_cons.mp h with rfl | h
    · intro hin
      rcases List.infix_cons_iff.mp hin with hprefix | hin
      -- a line break at the front would be one of the text
      · obtain ⟨more, hmore⟩ := hprefix
        have hcons : (13 : UInt8) :: 10 :: more = c :: first := hmore
        obtain ⟨rfl, rfl⟩ := List.cons.inj hcons
        have htext := flatMap_brokenLines text
        rw [hlines, List.flatMap_cons, List.cons_append, List.cons_append] at htext
        cases text with
        | nil => cases (List.cons.inj htext).1
        | cons d text => exact hnot text rfl (by rw [(List.cons.inj htext).1])
      · exact ih List.mem_cons_self hin
    · exact ih (List.mem_cons_of_mem _ h)

/-- Characters other than a carriage return in front of a text do not break it. -/
theorem IsUnbroken.append_front {front text : Bytes} (hfront : (13 : UInt8) ∉ front) (h : IsUnbroken text) :
    IsUnbroken (front ++ text) := by
  have hbreak : kCRLF = 13 :: [10] := by decide
  unfold IsUnbroken at h ⊢
  rw [hbreak] at h ⊢
  exact not_infix_append_of_not_mem hfront h

/-- Characters other than a line feed behind a text do not break it. -/
theorem IsUnbroken.append_back {text back : Bytes} (h : IsUnbroken text) (hback : (10 : UInt8) ∉ back) :
    IsUnbroken (text ++ back) := by
  have hbreak : kCRLF.reverse = 10 :: [13] := by decide
  unfold IsUnbroken at h ⊢
  rw [← List.reverse_infix, hbreak] at h ⊢
  rw [List.reverse_append]
  exact not_infix_append_of_not_mem (fun hmem => hback (List.mem_reverse.mp hmem)) h

/-- A text that is not broken is one line. -/
theorem IsUnbroken.brokenLines {text : Bytes} (h : IsUnbroken text) : brokenLines text = [text] := by
  fun_induction HttpRequest.brokenLines text with
  | case1 => rfl
  | case2 text ih => exact absurd (List.prefix_append kCRLF text).isInfix h
  | case3 c text _ ih => rw [ih fun hin => h (hin.trans (List.suffix_cons c text).isInfix)]; rfl

/-- A text without a carriage return stays in the first line. -/
theorem brokenLines_append {front : Bytes} (h : (13 : UInt8) ∉ front) (text : Bytes) :
    brokenLines (front ++ text) = (brokenLines text).modifyHead (front ++ ·) := by
  obtain ⟨line, lines, hlines⟩ := List.exists_cons_of_ne_nil (brokenLines_ne_nil text)
  rw [hlines, List.modifyHead_cons]
  induction front with
  | nil => exact hlines
  | cons c front ih =>
    rw [List.mem_cons, not_or] at h
    rw [List.cons_append, brokenLines, ih h.2]
    · rfl
    · exact fun _ hc => absurd hc.symm h.1

/-! ### Decimal numbers -/

/-- A decimal digit has a value below ten. -/
theorem decimal_cases {c : UInt8} (h : isdigit c = true) :
    isDigitOf 10 c = true ∧ (digitValue c).getD 0 < 10 := by
  revert c
  decide +kernel

/-- `strtol` reads decimal digits as they are. -/
theorem strtol_decimal {text : Bytes} (hne : text ≠ []) (h : ∀ c ∈ text, isdigit c = true) :
    strtol 10 text = some (digitsValue 10 text : Int) :=
  strtol_of_digits hne fun c hc => (decimal_cases (h c hc)).1

/-- Decimal digits denote a number with no more digits. -/
theorem digitsValue_lt {text : Bytes} (h : ∀ c ∈ text, isdigit c = true) :
    digitsValue 10 text < 10 ^ text.length := by
  -- the accumulator of the fold, with a digit position for every byte left
  have hfold (text : Bytes) : ∀ acc, (∀ c ∈ text, isdigit c = true) →
      text.foldl (fun acc c => acc * 10 + (digitValue c).getD 0) acc < (acc + 1) * 10 ^ text.length := by
    induction text with
    | nil => exact fun acc _ => by simp
    | cons c text ih =>
      intro acc h
      have hdigit := (decimal_cases (h c List.mem_cons_self)).2
      have hacc : acc * 10 + (digitValue c).getD 0 + 1 ≤ (acc + 1) * 10 := by omega
      refine (ih _ fun d hd => h d (List.mem_cons_of_mem _ hd)).trans_le ?_
      rw [List.length_cons, Nat.pow_succ', ← Nat.mul_assoc]
      exact Nat.mul_le_mul_right _ hacc
  have hvalue := hfold text 0 h
  rwa [Nat.zero_add, Nat.one_mul] at hvalue

end HttpRequest
