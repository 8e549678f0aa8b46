import Mathlib

/-! # Leftmost occurrences of a delimiter in a list

A search for the first occurrence of a list `pat` in a list `xs` is `List.dropInfix?`, which returns
the part before and the part after the occurrence. This file gives the search the rules a parser
needs: what its two outcomes say, when the occurrence found is the intended one, and how the search
behaves when the list grows at either end. The one-element searches `List.idxOf?` (from the left) and
`lastIdxOf?` (from the right) get the same treatment. -/

namespace Foundations

variable {α : Type*} [DecidableEq α]

/-! ### Searching for a list -/

/-- `xs.dropInfix? pat = some (p, s)` says that `p ++ pat ++ s` is the leftmost way of seeing `pat`
inside `xs`. -/
theorem dropInfix?_eq_some {pat xs p s : List α} :
    xs.dropInfix? pat = some (p, s) ↔
      xs = p ++ pat ++ s ∧ ∀ p' s', xs = p' ++ pat ++ s' → p.length ≤ p'.length := by
  rw [List.dropInfix?_eq_some_iff]
  constructor
  · rintro ⟨⟨i, hxs, hi⟩, hmin⟩
    obtain rfl : i = pat := eq_of_beq hi
    exact ⟨hxs, fun p' s' h => hmin p' i s' h (by simp)⟩
  · rintro ⟨hxs, hmin⟩
    refine ⟨⟨pat, hxs, by simp⟩, fun p' i s' h hi => ?_⟩
    obtain rfl : i = pat := eq_of_beq hi
    exact hmin p' s' h

/-- The two halves a successful search returns, put around the delimiter, give the list back. -/
theorem eq_append_of_dropInfix? {pat xs p s : List α} (h : xs.dropInfix? pat = some (p, s)) :
    xs = p ++ pat ++ s :=
  (dropInfix?_eq_some.mp h).1

/-- A search fails exactly when the delimiter is no infix of the list. -/
theorem dropInfix?_eq_none {pat xs : List α} : xs.dropInfix? pat = none ↔ ¬ pat <:+: xs := by
  constructor
  · rintro h ⟨p, s, hps⟩
    -- the shortest prefix before an occurrence is what the search would return
    classical
    have hex : ∃ n, ∃ p s, xs = p ++ pat ++ s ∧ p.length = n := ⟨p.length, p, s, hps.symm, rfl⟩
    obtain ⟨p₀, s₀, hxs, hlen⟩ := Nat.find_spec hex
    have hfound : xs.dropInfix? pat = some (p₀, s₀) :=
      dropInfix?_eq_some.mpr
        ⟨hxs, fun p' s' hp' => hlen ▸ Nat.find_min' hex ⟨p', s', hp', rfl⟩⟩
    rw [hfound] at h
    cases h
  · intro h
    rw [Option.eq_none_iff_forall_not_mem]
    rintro ⟨p, s⟩ hps
    exact h ⟨p, s, (eq_append_of_dropInfix? hps).symm⟩

/-- Text appended behind the list does not move the occurrence found. -/
theorem dropInfix?_append_right {pat xs p s : List α} (ys : List α)
    (h : xs.dropInfix? pat = some (p, s)) : (xs ++ ys).dropInfix? pat = some (p, s ++ ys) := by
  obtain ⟨hxs, hmin⟩ := dropInfix?_eq_some.mp h
  refine dropInfix?_eq_some.mpr ⟨by rw [hxs]; simp, fun p' s' h' => ?_⟩
  by_contra hlt
  -- an earlier occurrence would lie inside `xs` already
  have hle : p'.length + pat.length ≤ xs.length := by
    rw [hxs]; simp only [List.length_append]; omega
  have htake : xs = p' ++ pat ++ s'.take (xs.length - (p'.length + pat.length)) := by
    have := congrArg (List.take xs.length) h'
    rw [List.take_left, List.append_assoc, List.take_append, List.take_append,
      List.take_of_length_le (l := p') (by omega), List.take_of_length_le (l := pat) (by omega)] at this
    rw [List.append_assoc]
    convert this using 4
    omega
  exact hlt (hmin _ _ htake)

/-- The occurrence behind `p` is the one found when `pat` does not already occur once all but the
last element of it have been read. -/
theorem dropInfix?_of_not_infix {pat p s : List α} (hne : pat ≠ [])
    (h : ¬ pat <:+: p ++ pat.dropLast) : (p ++ pat ++ s).dropInfix? pat = some (p, s) := by
  refine dropInfix?_eq_some.mpr ⟨rfl, fun p' s' h' => ?_⟩
  by_contra hlt
  have hpos : 0 < pat.length := List.length_pos_iff.mpr hne
  -- cut both readings of the list just before the last element of the occurrence behind `p`
  have hcut := congrArg (List.take (p.length + (pat.length - 1))) h'
  rw [List.append_assoc, List.take_length_add_append, List.take_append_of_le_length (by omega),
    ← List.dropLast_eq_take, List.append_assoc, List.take_append,
    List.take_of_length_le (l := p') (by omega), List.take_append,
    List.take_of_length_le (l := pat) (by omega)] at hcut
  exact h ⟨p', _, by rw [hcut, List.append_assoc]⟩

/-- A delimiter whose first element does not occur in `p` is found right behind `p`. -/
theorem dropInfix?_of_not_mem {c : α} {cs p s : List α} (h : c ∉ p) :
    (p ++ (c :: cs) ++ s).dropInfix? (c :: cs) = some (p, s) := by
  refine dropInfix?_eq_some.mpr ⟨rfl, fun p' s' h' => ?_⟩
  by_contra hlt
  have hget : (p ++ (c :: cs) ++ s)[p'.length]? = some c := by rw [h']; simp
  rw [List.append_assoc, List.getElem?_append_left (by omega)] at hget
  exact h (List.mem_of_getElem? hget)

omit [DecidableEq α] in
/-- Text in front of the list without the first element of the delimiter brings no occurrence. -/
theorem not_infix_append_of_not_mem {c : α} {cs front xs : List α} (hfront : c ∉ front) (h : ¬ (c :: cs) <:+: xs) :
    ¬ (c :: cs) <:+: front ++ xs := by
  induction front with
  | nil => exact h
  | cons d front ih =>
    rw [List.mem_cons, not_or] at hfront
    rw [List.cons_append, List.infix_cons_iff, not_or]
    exact ⟨fun hprefix => hfront.1 (List.cons_prefix_cons.mp hprefix).1, ih hfront.2⟩

/-- A delimiter longer than the list is not found. -/
theorem dropInfix?_eq_none_of_length_lt {pat xs : List α} (h : xs.length < pat.length) :
    xs.dropInfix? pat = none :=
  dropInfix?_eq_none.mpr fun hin => by have := hin.length_le; omega

/-- Text in front of the list in which no occurrence starts is added to the part before the
occurrence. -/
theorem dropInfix?_append_of_no_start {pat x y : List α}
    (h : ∀ j < x.length, ¬ pat <+: (x ++ y).drop j) :
    (x ++ y).dropInfix? pat = (y.dropInfix? pat).map fun ps => (x ++ ps.1, ps.2) := by
  -- every occurrence in `x ++ y` starts behind `x`
  have hstart : ∀ p' s', x ++ y = p' ++ pat ++ s' → x.length ≤ p'.length := by
    intro p' s' h'
    by_contra hlt
    refine h p'.length (by omega) ⟨s', ?_⟩
    rw [h', List.append_assoc, List.drop_left]
  have hinside : ∀ p' s', x ++ y = p' ++ pat ++ s' → ∃ q, p' = x ++ q ∧ y = q ++ pat ++ s' := by
    intro p' s' h'
    have hx : x <+: p' :=
      List.prefix_of_prefix_length_le (⟨y, rfl⟩ : x <+: x ++ y)
        ⟨pat ++ s', by rw [h', List.append_assoc]⟩ (hstart p' s' h')
    obtain ⟨q, rfl⟩ := hx
    exact ⟨q, rfl, by simpa using h'⟩
  cases hy : y.dropInfix? pat with
  | none =>
    rw [Option.map_none, dropInfix?_eq_none]
    rintro ⟨p', s', h'⟩
    obtain ⟨q, -, hq⟩ := hinside p' s' h'.symm
    exact dropInfix?_eq_none.mp hy ⟨q, s', hq.symm⟩
  | some ps =>
    obtain ⟨p, s⟩ := ps
    obtain ⟨hps, hmin⟩ := dropInfix?_eq_some.mp hy
    rw [Option.map_some]
    refine dropInfix?_eq_some.mpr ⟨by rw [hps]; simp, fun p' s' h' => ?_⟩
    obtain ⟨q, rfl, hq⟩ := hinside p' s' h'
    have := hmin q s' hq
    simp only [List.length_append]
    omega

/-! ### Searching for one element -/

/-- The element found by `idxOf?` separates the list into a part free of it and the rest. -/
theorem eq_take_cons_drop_of_idxOf? {c : α} {xs : List α} {k : Nat} (h : xs.idxOf? c = some k) :
    xs = xs.take k ++ c :: xs.drop (k + 1) ∧ c ∉ xs.take k := by
  obtain ⟨hlt, hget, hbefore⟩ := List.idxOf?_eq_some_iff.mp h
  refine ⟨?_, fun hmem => ?_⟩
  · conv_lhs => rw [← List.take_append_drop k xs, List.drop_eq_getElem_cons hlt]
    rw [hget]
  · obtain ⟨j, hj, hjc⟩ := List.mem_take_iff_getElem.mp hmem
    exact hbefore j (by omega) (by simp [hjc])

/-- `idxOf?` finds the first of several occurrences. -/
theorem idxOf?_append_of_not_mem {c : α} {p s : List α} (h : c ∉ p) :
    (p ++ c :: s).idxOf? c = some p.length := by
  induction p with
  | nil => simp [List.idxOf?_cons]
  | cons a p ih =>
    have hac : a ≠ c := fun hac => h (by simp [hac])
    rw [List.cons_append, List.idxOf?_cons, if_neg (by simpa using hac), ih (by grind)]
    simp

/-- Index of the last occurrence of an element. -/
def lastIdxOf? (c : α) (xs : List α) : Option Nat :=
  (xs.reverse.idxOf? c).map fun k => xs.length - 1 - k

/-- `lastIdxOf?` finds the last of several occurrences. -/
theorem lastIdxOf?_append_of_not_mem {c : α} {p s : List α} (h : c ∉ s) :
    lastIdxOf? c (p ++ c :: s) = some p.length := by
  have hrev : (p ++ c :: s).reverse = s.reverse ++ c :: p.reverse := by simp
  rw [lastIdxOf?, hrev, idxOf?_append_of_not_mem (by simpa using h)]
  simp only [Option.map_some, List.length_append, List.length_cons, List.length_reverse]
  congr 1
  omega

/-- The element found by `lastIdxOf?` separates the list into a part and a rest free of it. -/
theorem eq_take_cons_drop_of_lastIdxOf? {c : α} {xs : List α} {k : Nat}
    (h : lastIdxOf? c xs = some k) :
    xs = xs.take k ++ c :: xs.drop (k + 1) ∧ c ∉ xs.drop (k + 1) := by
  obtain ⟨j, hj, rfl⟩ := Option.map_eq_some_iff.mp h
  obtain ⟨hsplit, hnot⟩ := eq_take_cons_drop_of_idxOf? hj
  obtain ⟨hlt, -, -⟩ := List.idxOf?_eq_some_iff.mp hj
  rw [List.length_reverse] at hlt
  set s := xs.reverse.take j with hs
  set p := xs.reverse.drop (j + 1) with hp
  have hslen : s.length = j := by rw [hs, List.length_take, List.length_reverse]; omega
  have hxs : xs = p.reverse ++ c :: s.reverse := by
    rw [← List.reverse_reverse xs, hsplit]; simp
  have hplen : xs.length - 1 - j = p.reverse.length := by
    rw [hp, List.length_reverse, List.length_drop, List.length_reverse]; omega
  have hdrop : (p.reverse ++ c :: s.reverse).drop (p.reverse.length + 1) = s.reverse := by
    rw [List.drop_length_add_append, List.drop_one, List.tail_cons]
  rw [hplen, hxs, hdrop, List.take_left]
  exact ⟨rfl, by simpa using hnot⟩

/-- `lastIdxOf?` fails exactly when the element does not occur. -/
theorem lastIdxOf?_eq_none {c : α} {xs : List α} : lastIdxOf? c xs = none ↔ c ∉ xs := by
  simp [lastIdxOf?]

end Foundations
