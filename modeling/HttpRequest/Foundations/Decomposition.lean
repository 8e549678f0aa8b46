import HttpRequest.Foundations.Delimiters

/-! # Cutting a list at a delimiter

The pieces of a list between the occurrences of a delimiter, where every occurrence is the leftmost in what the
one before it has left: occurrences that overlap one already taken are passed over. Such a decomposition exists
for every delimiter that is not empty (`exists_decomposes`), and for no other (`Decomposes.delimiter_ne_nil`), and
there is only one (`Decomposes.unique`). -/

namespace Foundations

variable {α : Type*} {pat xs p s : List α} {ps ps' : List (List α)}

/-- Of all occurrences of `pat` in `p ++ pat ++ s`, the one behind `p` is the leftmost. -/
def IsLeftmost (pat p s : List α) : Prop :=
  ∀ p' s', p ++ pat ++ s = p' ++ pat ++ s' → p.length ≤ p'.length

/-- **The leftmost decomposition of a list at a delimiter**, empty pieces included. -/
inductive Decomposes (pat : List α) : List α → List (List α) → Prop
  | last {xs : List α} (hfree : ¬pat <:+: xs) : Decomposes pat xs [xs]
  | cut {p s : List α} {ps : List (List α)} (hfirst : IsLeftmost pat p s) (hrest : Decomposes pat s ps) :
    Decomposes pat (p ++ pat ++ s) (p :: ps)

namespace Decomposes

/-- There is always a piece behind the last occurrence. -/
theorem ne_nil (h : Decomposes pat xs ps) : ps ≠ [] := by
  cases h with
  | last => exact List.cons_ne_nil _ _
  | cut => exact List.cons_ne_nil _ _

/-- The empty delimiter occurs in every list, so that there is no last piece. -/
theorem delimiter_ne_nil (h : Decomposes pat xs ps) : pat ≠ [] := by
  induction h with
  | last hfree =>
    rintro rfl
    exact hfree List.nil_infix
  | cut _ _ ih => exact ih

/-- Every piece but the last has an occurrence of the delimiter behind it. -/
theorem length_le (h : Decomposes pat xs ps) : ps.length ≤ xs.length + 1 := by
  induction h with
  | last => exact Nat.le_add_left _ _
  | cut _ hrest ih =>
    have hpos := List.length_pos_iff.mpr hrest.delimiter_ne_nil
    simp only [List.length_append, List.length_cons]
    omega

/-- **The list is its pieces with one delimiter between each two.** -/
theorem intercalate_eq (h : Decomposes pat xs ps) : pat.intercalate ps = xs := by
  induction h with
  | last => exact List.intercalate_singleton
  | cut _ hrest ih => rw [List.intercalate_cons_of_ne_nil hrest.ne_nil, ih, List.append_assoc]

/-- What is in front of the leftmost occurrence is free of the delimiter. -/
theorem not_infix_of_isLeftmost (hne : pat ≠ []) (h : IsLeftmost pat p s) : ¬pat <:+: p := by
  rintro ⟨front, back, rfl⟩
  have hle := h front (back ++ pat ++ s) (by simp only [List.append_assoc])
  have hpos := List.length_pos_iff.mpr hne
  simp only [List.length_append] at hle
  omega

/-- No piece contains the delimiter. -/
theorem not_infix (h : Decomposes pat xs ps) : ∀ piece ∈ ps, ¬pat <:+: piece := by
  induction h with
  | last hfree => exact List.forall_mem_singleton.mpr hfree
  | cut hfirst hrest ih =>
    exact List.forall_mem_cons.mpr ⟨not_infix_of_isLeftmost hrest.delimiter_ne_nil hfirst, ih⟩

/-- The leftmost occurrence determines what is on either side of it. -/
theorem eq_of_isLeftmost {p' s' : List α} (h : IsLeftmost pat p s) (h' : IsLeftmost pat p' s')
    (heq : p ++ pat ++ s = p' ++ pat ++ s') : p = p' ∧ s = s' := by
  have hlen : p.length = p'.length := le_antisymm (h p' s' heq) (h' p s heq.symm)
  rw [List.append_assoc, List.append_assoc] at heq
  obtain ⟨hfront, hback⟩ := List.append_inj heq hlen
  exact ⟨hfront, List.append_cancel_left hback⟩

/-- **There is only one decomposition.** -/
theorem unique (h : Decomposes pat xs ps) (h' : Decomposes pat xs ps') : ps = ps' := by
  induction h generalizing ps' with
  | last hfree =>
    cases h' with
    | last => rfl
    | cut => exact absurd ⟨_, _, rfl⟩ hfree
  | @cut p s ps hfirst hrest ih =>
    generalize hxs : p ++ pat ++ s = xs at h'
    cases h' with
    | last hfree => exact absurd ⟨_, _, hxs⟩ hfree
    | cut hfirst' hrest' =>
      obtain ⟨rfl, rfl⟩ := eq_of_isLeftmost hfirst hfirst' hxs
      rw [ih hrest']

end Decomposes

/-- A search finds the leftmost occurrence. -/
theorem isLeftmost_of_dropInfix? [DecidableEq α] (h : xs.dropInfix? pat = some (p, s)) : IsLeftmost pat p s := by
  obtain ⟨rfl, hmin⟩ := dropInfix?_eq_some.mp h
  exact hmin

/-- The leftmost occurrence is the one a search finds. -/
theorem IsLeftmost.dropInfix?_eq [DecidableEq α] (h : IsLeftmost pat p s) :
    (p ++ pat ++ s).dropInfix? pat = some (p, s) :=
  dropInfix?_eq_some.mpr ⟨rfl, h⟩

/-- Behind an occurrence of a delimiter that is not empty less is left. -/
theorem length_lt_of_dropInfix? [DecidableEq α] (hne : pat ≠ []) (h : xs.dropInfix? pat = some (p, s)) :
    s.length < xs.length := by
  have hpos := List.length_pos_iff.mpr hne
  rw [eq_append_of_dropInfix? h]
  simp only [List.length_append]
  omega

/-- **A list can be decomposed at any delimiter that is not empty.** -/
theorem exists_decomposes [DecidableEq α] (hne : pat ≠ []) (xs : List α) : ∃ ps, Decomposes pat xs ps := by
  -- induction on a bound for the list: what is left behind an occurrence is shorter
  obtain ⟨n, hn⟩ : ∃ n, xs.length < n := ⟨_, Nat.lt_succ_self _⟩
  induction n generalizing xs with
  | zero => omega
  | succ n ih =>
    cases hfind : xs.dropInfix? pat with
    | none => exact ⟨[xs], .last (dropInfix?_eq_none.mp hfind)⟩
    | some ps =>
      obtain ⟨p, s⟩ := ps
      have hlt := length_lt_of_dropInfix? hne hfind
      obtain ⟨ps, hrest⟩ := ih s (by omega)
      rw [eq_append_of_dropInfix? hfind]
      exact ⟨p :: ps, .cut (isLeftmost_of_dropInfix? hfind) hrest⟩

end Foundations
