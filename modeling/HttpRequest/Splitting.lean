import HttpRequest.Foundations.Decomposition
import HttpRequest.Model.Utility

/-! # Splitting

`StringUtil::split` walks through the leftmost decomposition of its text at the delimiter and keeps the pieces
that are not empty (`splitLoop_eq_some_iff`). It returns exactly when there is such a decomposition, that is, for
every delimiter but the empty one: at that the search finds the empty occurrence in front of it for ever. -/

namespace HttpRequest

open Foundations

namespace StringUtil

variable {delimiters strView view : Bytes} {tokens found : List Bytes}

/-- What `split` keeps of the pieces. -/
def nonEmpty (pieces : List Bytes) : List Bytes := pieces.filter fun piece => !piece.isEmpty

/-- The first piece is kept unless it is empty. -/
@[simp] theorem nonEmpty_cons (piece : Bytes) (pieces : List Bytes) :
    nonEmpty (piece :: pieces) = (if piece.isEmpty then [] else [piece]) ++ nonEmpty pieces := by
  cases piece with
  | nil => rfl
  | cons c piece => rfl

/-- Of no pieces none is kept. -/
@[simp] theorem nonEmpty_nil : nonEmpty [] = [] := rfl

/-- Empty pieces hold no bytes. -/
@[simp] theorem flatten_nonEmpty (pieces : List Bytes) : (nonEmpty pieces).flatten = pieces.flatten := by
  induction pieces with
  | nil => rfl
  | cons piece pieces ih =>
    rw [nonEmpty_cons, List.flatten_append, ih, List.flatten_cons]
    cases piece with
    | nil => rfl
    | cons c piece => simp

/-- A token kept behind the tokens in front of it. -/
theorem push_append (tokens : List Bytes) (piece : Bytes) :
    (if piece.isEmpty then tokens else tokens ++ [piece]) = tokens ++ if piece.isEmpty then [] else [piece] := by
  split
  · exact (List.append_nil tokens).symm
  · rfl

/-! ### The loop and the decomposition -/

/-- The loop walks through a decomposition, one piece in each pass. -/
theorem splitLoop_of_decomposes {pieces : List Bytes} (h : Decomposes delimiters view pieces) {fuel : Nat}
    (hfuel : pieces.length ≤ fuel) (tokens : List Bytes) :
    splitLoop delimiters fuel view tokens = some (tokens ++ nonEmpty pieces) := by
  induction h generalizing fuel tokens with
  | last hfree =>
    obtain ⟨fuel, rfl⟩ := Nat.exists_eq_add_of_le' hfuel
    rw [List.length_singleton, splitLoop_of_not_find (dropInfix?_eq_none.mpr hfree), push_append, nonEmpty_cons,
      nonEmpty_nil, List.append_nil]
  | @cut p s pieces hfirst _ ih =>
    obtain ⟨fuel, rfl⟩ : ∃ k, fuel = k + 1 := Nat.exists_eq_add_of_le' (Nat.le_of_add_left_le hfuel)
    rw [splitLoop_of_find hfirst.dropInfix?_eq, ih (Nat.le_of_succ_le_succ hfuel), push_append, nonEmpty_cons,
      List.append_assoc]

/-- A loop that ends has walked through a decomposition. -/
theorem decomposes_of_splitLoop {fuel : Nat} (h : splitLoop delimiters fuel view tokens = some found) :
    ∃ pieces, Decomposes delimiters view pieces ∧ found = tokens ++ nonEmpty pieces := by
  induction fuel generalizing view tokens with
  | zero => cases h
  | succ fuel ih =>
    cases hfind : view.dropInfix? delimiters with
    | none =>
      rw [splitLoop_of_not_find hfind, push_append, Option.some.injEq] at h
      refine ⟨[view], .last (dropInfix?_eq_none.mp hfind), ?_⟩
      rw [nonEmpty_cons, nonEmpty_nil, List.append_nil, h]
    | some ps =>
      obtain ⟨p, s⟩ := ps
      rw [splitLoop_of_find hfind, push_append] at h
      obtain ⟨pieces, hpieces, hfound⟩ := ih h
      refine ⟨p :: pieces, ?_, ?_⟩
      · rw [eq_append_of_dropInfix? hfind]
        exact .cut (isLeftmost_of_dropInfix? hfind) hpieces
      · rw [hfound, nonEmpty_cons, List.append_assoc]

/-- **The loop ends exactly where there is a decomposition**, with its pieces but the empty ones. -/
theorem splitLoop_eq_some_iff :
    (∃ fuel, splitLoop delimiters fuel view tokens = some found) ↔
      ∃ pieces, Decomposes delimiters view pieces ∧ found = tokens ++ nonEmpty pieces := by
  constructor
  · rintro ⟨fuel, h⟩
    exact decomposes_of_splitLoop h
  · rintro ⟨pieces, hpieces, rfl⟩
    exact ⟨pieces.length, splitLoop_of_decomposes hpieces le_rfl tokens⟩

/-! ### Delimiters that are not empty -/

/-- The passes of `split` are enough for its pieces. -/
theorem splitLoop_length {pieces : List Bytes} (h : Decomposes delimiters strView pieces) :
    splitLoop delimiters (strView.length + 1) strView [] = some (nonEmpty pieces) := by
  rw [splitLoop_of_decomposes h h.length_le, List.nil_append]

/-- `split` keeps the pieces of a decomposition that are not empty. -/
theorem split_eq_nonEmpty {pieces : List Bytes} (h : Decomposes delimiters strView pieces) :
    split strView delimiters = nonEmpty pieces := by
  rw [split, splitLoop_length h, Option.getD_some]

/-- No token is empty, and none contains the delimiter. -/
theorem of_mem_split (hne : delimiters ≠ []) {token : Bytes} (htoken : token ∈ split strView delimiters) :
    token ≠ [] ∧ ¬delimiters <:+: token := by
  obtain ⟨pieces, hpieces⟩ := exists_decomposes hne strView
  rw [split_eq_nonEmpty hpieces] at htoken
  obtain ⟨hmem, hkept⟩ := List.mem_filter.mp htoken
  exact ⟨by simpa using hkept, hpieces.not_infix token hmem⟩

/-- A delimiter found splits off the part before it, unless that part is empty. -/
theorem split_of_dropInfix? {p s : Bytes} (hne : delimiters ≠ []) (h : view.dropInfix? delimiters = some (p, s)) :
    split view delimiters = (if p.isEmpty then [] else [p]) ++ split s delimiters := by
  obtain ⟨pieces, hpieces⟩ := exists_decomposes hne s
  have hview : Decomposes delimiters view (p :: pieces) := by
    rw [eq_append_of_dropInfix? h]
    exact .cut (isLeftmost_of_dropInfix? h) hpieces
  rw [split_eq_nonEmpty hview, split_eq_nonEmpty hpieces, nonEmpty_cons]

/-- A view without the delimiter is its only token, unless it is empty. -/
theorem split_of_dropInfix?_none (h : view.dropInfix? delimiters = none) :
    split view delimiters = if view.isEmpty then [] else [view] := by
  rw [split_eq_nonEmpty (.last (dropInfix?_eq_none.mp h)), nonEmpty_cons, nonEmpty_nil, List.append_nil]

/-- The empty string has no tokens. -/
@[simp] theorem split_nil (hne : delimiters ≠ []) : split [] delimiters = [] := by
  have hnone : ([] : Bytes).dropInfix? delimiters = none :=
    dropInfix?_eq_none_of_length_lt (List.length_pos_iff.mpr hne)
  rw [split_of_dropInfix?_none hnone]
  rfl

/-- **`split` returns the pieces of the leftmost decomposition that are not empty.** -/
theorem split_decomposes (strView delimiters : Bytes) (hne : delimiters ≠ []) :
    (∃ fuel, splitLoop delimiters fuel strView [] = some (split strView delimiters)) ∧
      ∃ pieces, (∀ pieces', Decomposes delimiters strView pieces' ↔ pieces' = pieces) ∧
        split strView delimiters = nonEmpty pieces ∧
        (∀ token ∈ split strView delimiters, token ≠ [] ∧ ¬delimiters <:+: token) ∧
        delimiters.intercalate pieces = strView ∧ (split strView delimiters).flatten = pieces.flatten := by
  obtain ⟨pieces, hpieces⟩ := exists_decomposes hne strView
  have hsplit := split_eq_nonEmpty hpieces
  refine ⟨⟨strView.length + 1, ?_⟩, pieces, fun pieces' => ⟨fun h => h.unique hpieces, ?_⟩, hsplit,
    fun token htoken => of_mem_split hne htoken, hpieces.intercalate_eq, ?_⟩
  · rw [hsplit, splitLoop_length hpieces]
  · rintro rfl
    exact hpieces
  · rw [hsplit, flatten_nonEmpty]

/-- A delimiter that overlaps itself. -/
theorem split_decomposes_overlapping :
    (∃ fuel, splitLoop (bytes "aa") fuel (bytes "aaaba") [] = some (split (bytes "aaaba") (bytes "aa"))) ∧
      ∃ pieces, (∀ pieces', Decomposes (bytes "aa") (bytes "aaaba") pieces' ↔ pieces' = pieces) ∧
        split (bytes "aaaba") (bytes "aa") = nonEmpty pieces ∧
        (∀ token ∈ split (bytes "aaaba") (bytes "aa"), token ≠ [] ∧ ¬bytes "aa" <:+: token) ∧
        (bytes "aa").intercalate pieces = bytes "aaaba" ∧
        (split (bytes "aaaba") (bytes "aa")).flatten = pieces.flatten :=
  split_decomposes (bytes "aaaba") (bytes "aa") (by decide)

/-! ### Termination -/

/-- A pass of the search loop behind which there is another: the delimiter is found, and `start` moves behind
it. -/
def Passes (strView delimiters : Bytes) (start start' : Nat) : Prop :=
  ∃ stop, find delimiters (strView.drop start) = some stop ∧ start' = start + stop + delimiters.length

/-- The search loop ends. -/
def Terminates (strView delimiters : Bytes) : Prop :=
  ∃ fuel, (splitLoop delimiters fuel strView []).isSome

/-- A measure on `start` and the length of what is left decreases in every pass. -/
def Progresses (strView delimiters : Bytes) : Prop :=
  ∃ measure : Nat × Nat → Nat, ∀ start start', start ≤ strView.length → Passes strView delimiters start start' →
    measure (start', strView.length - start') < measure (start, strView.length - start)

/-- `start` stays inside the text. -/
theorem Passes.le_length {start start' : Nat} (hstart : start ≤ strView.length)
    (h : Passes strView delimiters start start') : start' ≤ strView.length := by
  obtain ⟨stop, hfind, rfl⟩ := h
  have hle := find_add_length_le hfind
  rw [List.length_drop] at hle
  omega

/-- The loop goes on behind a pass. -/
theorem splitLoop_of_passes {start start' : Nat} (h : Passes strView delimiters start start')
    (tokens : List Bytes) :
    ∃ tokens', ∀ fuel, splitLoop delimiters (fuel + 1) (strView.drop start) tokens =
      splitLoop delimiters fuel (strView.drop start') tokens' := by
  obtain ⟨stop, hfind, rfl⟩ := h
  refine ⟨if ((strView.drop start).take stop).isEmpty then tokens else tokens ++ [(strView.drop start).take stop],
    fun fuel => ?_⟩
  rw [splitLoop, hfind]
  dsimp only
  rw [List.drop_drop, ← Nat.add_assoc]

/-- A loop that makes progress ends. -/
theorem terminates_of_progresses (h : Progresses strView delimiters) : Terminates strView delimiters := by
  obtain ⟨measure, hmeasure⟩ := h
  -- induction on a bound for the measure
  have key : ∀ n start tokens, start ≤ strView.length → measure (start, strView.length - start) < n →
      ∃ fuel, (splitLoop delimiters fuel (strView.drop start) tokens).isSome := by
    intro n
    induction n with
    | zero => intro start tokens _ hlt; omega
    | succ n ih =>
      intro start tokens hstart hlt
      cases hfind : find delimiters (strView.drop start) with
      | none =>
        refine ⟨1, ?_⟩
        rw [splitLoop, hfind]
        rfl
      | some stop =>
        have hpasses : Passes strView delimiters start (start + stop + delimiters.length) := ⟨stop, hfind, rfl⟩
        have hless := hmeasure _ _ hstart hpasses
        obtain ⟨tokens', htokens'⟩ := splitLoop_of_passes hpasses tokens
        obtain ⟨fuel, hfuel⟩ := ih _ tokens' (hpasses.le_length hstart) (by omega)
        exact ⟨fuel + 1, by rw [htokens']; exact hfuel⟩
  exact key _ 0 [] (Nat.zero_le _) (Nat.lt_succ_self _)

/-- Behind a delimiter that is not empty less is left. -/
theorem progresses_of_ne_nil (hne : delimiters ≠ []) (strView : Bytes) : Progresses strView delimiters := by
  refine ⟨Prod.snd, fun start start' hstart hpasses => ?_⟩
  have hle := hpasses.le_length hstart
  obtain ⟨stop, -, rfl⟩ := hpasses
  have hpos := List.length_pos_iff.mpr hne
  dsimp only
  omega

/-- **The loop of `split` ends, with a measure that decreases in every pass, exactly for the delimiters that are not
empty.** -/
theorem split_terminates_iff (strView delimiters : Bytes) :
    Terminates strView delimiters ∧ Progresses strView delimiters ↔ delimiters ≠ [] := by
  constructor
  · rintro ⟨⟨fuel, hfuel⟩, -⟩
    obtain ⟨found, hfound⟩ := Option.isSome_iff_exists.mp hfuel
    obtain ⟨pieces, hpieces, -⟩ := splitLoop_eq_some_iff.mp ⟨fuel, hfound⟩
    exact hpieces.delimiter_ne_nil
  · intro hne
    have hprogresses := progresses_of_ne_nil hne strView
    exact ⟨terminates_of_progresses hprogresses, hprogresses⟩

/-- The empty delimiter is found in front of what is left, and the pass leaves `start` where it is. -/
theorem passes_nil {start : Nat} : Passes strView [] start start :=
  ⟨0, find_eq_zero_iff.mpr List.nil_prefix, rfl⟩

/-- With an empty delimiter the loop makes no progress. -/
theorem splitLoop_nil_delimiter (fuel : Nat) (view : Bytes) (tokens : List Bytes) :
    splitLoop [] fuel view tokens = none := by
  induction fuel generalizing tokens with
  | zero => rfl
  | succ fuel ih =>
    have hfind : find [] view = some 0 := find_eq_zero_iff.mpr List.nil_prefix
    rw [splitLoop, hfind]
    exact ih _

/-- Splitting the string `a` at the empty delimiter, neither ends nor makes progress. -/
theorem not_split_terminates :
    ¬Terminates (bytes "a") [] ∧ ¬Progresses (bytes "a") [] := by
  constructor
  · rintro ⟨fuel, hfuel⟩
    rw [splitLoop_nil_delimiter] at hfuel
    cases hfuel
  · rintro ⟨measure, hmeasure⟩
    exact absurd (hmeasure 0 0 (Nat.zero_le _) passes_nil) (lt_irrefl _)

end StringUtil

end HttpRequest
