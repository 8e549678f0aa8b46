import Mathlib

/-! # Lists that arrive in segments

A list that arrives in segments is their concatenation. `dropFront` takes elements off the front and
keeps the boundaries of what is left; `Cut` says where the boundaries are. -/

namespace Foundations

variable {α : Type}

/-- The segments without their first `n` elements. The segment in which the last of them lies is the
first that is left, even when nothing of it is. -/
def dropFront : Nat → List (List α) → List (List α)
  | _, [] => []
  | n, segment :: segments =>
    if n ≤ segment.length then segment.drop n :: segments
    else dropFront (n - segment.length) segments

/-- There is a boundary behind the first `n` elements. -/
def Cut (segments : List (List α)) (n : Nat) : Prop :=
  ∃ front back, segments = front ++ back ∧ front.flatten.length = n

variable {n : Nat} {segment : List α} {segments : List (List α)}

/-- Of no segments nothing can be dropped. -/
@[simp] theorem dropFront_nil (n : Nat) : dropFront n ([] : List (List α)) = [] := by
  rw [dropFront]

/-- A front inside the first segment is dropped from it. -/
theorem dropFront_of_le (h : n ≤ segment.length) :
    dropFront n (segment :: segments) = segment.drop n :: segments := by
  rw [dropFront, if_pos h]

/-- A longer front takes the first segment with it. -/
theorem dropFront_of_lt (h : segment.length < n) :
    dropFront n (segment :: segments) = dropFront (n - segment.length) segments := by
  rw [dropFront, if_neg (Nat.not_le.mpr h)]

/-- Dropping nothing changes nothing. -/
@[simp] theorem dropFront_zero (segments : List (List α)) : dropFront 0 segments = segments := by
  cases segments with
  | nil => rfl
  | cons segment segments => rw [dropFront_of_le (Nat.zero_le _), List.drop_zero]

/-- Dropping from the segments is dropping from their concatenation. -/
@[simp] theorem flatten_dropFront (n : Nat) (segments : List (List α)) :
    (dropFront n segments).flatten = segments.flatten.drop n := by
  induction segments generalizing n with
  | nil => simp
  | cons segment segments ih =>
    rcases Nat.lt_or_ge segment.length n with h | h
    · rw [dropFront_of_lt h, ih, List.flatten_cons, List.drop_append,
        List.drop_eq_nil_of_le (Nat.le_of_lt h), List.nil_append]
    · rw [dropFront_of_le h, List.flatten_cons, List.flatten_cons, List.drop_append_of_le_length h]

/-- Segments that follow are kept. -/
theorem dropFront_append (h : n ≤ segments.flatten.length) (more : List (List α)) :
    dropFront n (segments ++ more) = dropFront n segments ++ more := by
  induction segments generalizing n with
  | nil =>
    rw [List.flatten_nil, List.length_nil, Nat.le_zero] at h
    rw [h, List.nil_append, dropFront_zero, dropFront_nil, List.nil_append]
  | cons segment segments ih =>
    rw [List.cons_append]
    rcases Nat.lt_or_ge segment.length n with hlt | hle
    · rw [List.flatten_cons, List.length_append] at h
      rw [dropFront_of_lt hlt, dropFront_of_lt hlt, ih (by omega)]
    · rw [dropFront_of_le hle, dropFront_of_le hle, List.cons_append]

/-- Segments that lie in front of the last element taken off are gone. -/
theorem dropFront_append_of_lt (h : segments.flatten.length < n) (more : List (List α)) :
    dropFront n (segments ++ more) = dropFront (n - segments.flatten.length) more := by
  induction segments generalizing n with
  | nil => rfl
  | cons segment segments ih =>
    rw [List.flatten_cons, List.length_append] at h ⊢
    rw [List.cons_append, dropFront_of_lt (by omega), ih (by omega), Nat.sub_sub]

/-- Taking off two numbers of elements one after the other. -/
theorem dropFront_dropFront {m : Nat} (hm : 0 < m) (n : Nat) (segments : List (List α)) :
    dropFront m (dropFront n segments) = dropFront (n + m) segments := by
  induction segments generalizing n with
  | nil => simp
  | cons segment segments ih =>
    rcases Nat.lt_or_ge segment.length n with hlt | hle
    · rw [dropFront_of_lt hlt, ih, dropFront_of_lt (by omega)]
      congr 1
      omega
    · rw [dropFront_of_le hle]
      rcases Nat.lt_or_ge segment.length (n + m) with hlt | hle'
      · rw [dropFront_of_lt (by rw [List.length_drop]; omega), dropFront_of_lt hlt,
          List.length_drop]
        congr 1
        omega
      · rw [dropFront_of_le (by rw [List.length_drop]; omega), dropFront_of_le hle', List.drop_drop]

/-- What holds of no segments, is kept by an empty segment in front, and holds of segments that start
with a proper one, holds of all segments. -/
theorem segments_induction {P : List (List α) → Prop} (nil : P [])
    (empty : ∀ segments, P segments → P ([] :: segments))
    (proper : ∀ segment segments, segment ≠ [] → P (segment :: segments)) :
    ∀ segments, P segments := by
  intro segments
  induction segments with
  | nil => exact nil
  | cons segment segments ih =>
    cases segment with
    | nil => exact empty segments ih
    | cons a segment => exact proper _ segments (List.cons_ne_nil a segment)

/-! ### Boundaries -/

/-- There is always a cut in front of the first segment. -/
theorem cut_zero (segments : List (List α)) : Cut segments 0 := ⟨[], segments, rfl, rfl⟩

/-- No segments have no cut behind their start. -/
theorem not_cut_nil (h : 0 < n) : ¬ Cut ([] : List (List α)) n := by
  rintro ⟨front, back, hsegments, hlen⟩
  obtain ⟨rfl, rfl⟩ := List.append_eq_nil_iff.mp hsegments.symm
  rw [List.flatten_nil, List.length_nil] at hlen
  omega

/-- A boundary is in front of the first segment or behind it. -/
theorem cut_cons : Cut (segment :: segments) n ↔
    n = 0 ∨ segment.length ≤ n ∧ Cut segments (n - segment.length) := by
  constructor
  · rintro ⟨front, back, hsegments, rfl⟩
    cases front with
    | nil => exact .inl rfl
    | cons first front =>
      obtain ⟨rfl, rfl⟩ := List.cons.inj hsegments
      rw [List.flatten_cons, List.length_append]
      exact .inr ⟨Nat.le_add_right _ _, front, back, rfl, by omega⟩
  · rintro (rfl | ⟨hle, front, back, rfl, hlen⟩)
    · exact cut_zero _
    · refine ⟨segment :: front, back, rfl, ?_⟩
      rw [List.flatten_cons, List.length_append]
      omega

/-- An empty segment in front adds no cut. -/
@[simp] theorem cut_nil_cons : Cut ([] :: segments) n ↔ Cut segments n := by
  rw [cut_cons, List.length_nil, Nat.sub_zero]
  constructor
  · rintro (rfl | ⟨-, h⟩)
    · exact cut_zero _
    · exact h
  · exact fun h => .inr ⟨Nat.zero_le n, h⟩

/-- No boundary lies strictly between two positions. -/
def Uncut (segments : List (List α)) (a b : Nat) : Prop := ∀ m, a < m → m < b → ¬ Cut segments m

/-- A front that is not cut lies in the first segment. -/
theorem uncut_cons_iff (hne : segment ≠ []) : Uncut (segment :: segments) 0 n ↔ n ≤ segment.length := by
  have hpos := List.length_pos_iff.mpr hne
  constructor
  · intro h
    by_contra hlt
    refine h segment.length hpos (Nat.not_le.mp hlt) (cut_cons.mpr (.inr ⟨le_rfl, ?_⟩))
    rw [Nat.sub_self]
    exact cut_zero segments
  · rintro h m hm hmn hcut
    rcases cut_cons.mp hcut with rfl | ⟨hle, -⟩
    · omega
    · omega

/-- Taking elements off the front keeps the boundaries behind them. -/
theorem cut_dropFront {m : Nat} (hm : 0 < m) (n : Nat) (segments : List (List α)) :
    Cut (dropFront n segments) m ↔ Cut segments (n + m) := by
  induction segments generalizing n with
  | nil =>
    rw [dropFront_nil]
    exact iff_of_false (not_cut_nil hm) (not_cut_nil (by omega))
  | cons segment segments ih =>
    rcases Nat.lt_or_ge segment.length n with hlt | hle
    · rw [dropFront_of_lt hlt, ih, cut_cons]
      have hsub : n - segment.length + m = n + m - segment.length := by omega
      rw [hsub]
      constructor
      · exact fun h => .inr ⟨by omega, h⟩
      · rintro (hzero | ⟨-, h⟩)
        · omega
        · exact h
    · rw [dropFront_of_le hle, cut_cons, cut_cons, List.length_drop]
      have hsub : m - (segment.length - n) = n + m - segment.length := by omega
      rw [hsub]
      constructor
      · rintro (hzero | ⟨hle', h⟩)
        · omega
        · exact .inr ⟨by omega, h⟩
      · rintro (hzero | ⟨hle', h⟩)
        · omega
        · exact .inr ⟨by omega, h⟩

/-- No boundary lies at a place or one element behind it when the first segment that is left there has two
elements. -/
theorem not_cut_dropFront_iff (hn : 0 < n) {rest : List (List α)}
    (h : dropFront n segments = segment :: rest) :
    (¬ Cut segments n ∧ ¬ Cut segments (n + 1)) ↔ 2 ≤ segment.length := by
  induction segments generalizing n with
  | nil =>
    rw [dropFront_nil] at h
    cases h
  | cons first segments ih =>
    rw [cut_cons, cut_cons, or_iff_right hn.ne', or_iff_right (Nat.succ_ne_zero n)]
    rcases Nat.lt_or_ge first.length n with hlt | hle
    · rw [dropFront_of_lt hlt] at h
      have hsub : n + 1 - first.length = n - first.length + 1 := by omega
      rw [and_iff_right (by omega : first.length ≤ n),
        and_iff_right (by omega : first.length ≤ n + 1), hsub]
      exact ih (by omega) h
    · rw [dropFront_of_le hle] at h
      obtain ⟨rfl, rfl⟩ := List.cons.inj h
      rw [List.length_drop]
      constructor
      · rintro ⟨h0, h1⟩
        by_contra hlt
        rcases (by omega : first.length = n ∨ first.length = n + 1) with heq | heq
        · exact h0 ⟨by omega, by rw [heq, Nat.sub_self]; exact cut_zero segments⟩
        · exact h1 ⟨by omega, by rw [heq, Nat.sub_self]; exact cut_zero segments⟩
      · exact fun hle' => ⟨fun h0 => by omega, fun h1 => by omega⟩

end Foundations
