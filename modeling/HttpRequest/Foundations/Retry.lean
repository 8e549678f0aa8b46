import Mathlib

/-! # Retry loops

A retry loop makes a call again as long as its outcome is transient, up to a number of calls. `retry` says
where such a loop ends; a stall is as many transient outcomes in a row as the loop makes calls. -/

namespace Foundations

variable {α : Type} (transient : α → Bool) (limit : ℕ)

/-! ### Where the loop ends -/

/-- The last outcome of a retry loop and the number of its calls, behind `count` of them; `none` when the
outcomes end first. -/
def retry : ℕ → List α → Option (α × ℕ)
  | _, [] => none
  | count, outcome :: outcomes =>
    if transient outcome = true ∧ count + 1 < limit then retry (count + 1) outcomes
    else some (outcome, count + 1)

/-- Without outcomes the loop does not end. -/
@[simp] theorem retry_nil (count : ℕ) : retry transient limit count [] = none := rfl

/-- A transient outcome below the limit is tried again. -/
theorem retry_cons_of_transient {count : ℕ} {outcome : α} (h : transient outcome = true)
    (hcount : count + 1 < limit) (outcomes : List α) :
    retry transient limit count (outcome :: outcomes) = retry transient limit (count + 1) outcomes :=
  if_pos ⟨h, hcount⟩

/-- Any other outcome ends the loop. -/
theorem retry_cons_of_last {count : ℕ} {outcome : α} (h : transient outcome = true → limit ≤ count + 1)
    (outcomes : List α) :
    retry transient limit count (outcome :: outcomes) = some (outcome, count + 1) :=
  if_neg fun hand => absurd (h hand.1) (Nat.not_le.mpr hand.2)

/-- The loop has made a call. -/
theorem lt_of_retry {count : ℕ} {outcomes : List α} {outcome : α} {calls : ℕ}
    (h : retry transient limit count outcomes = some (outcome, calls)) : count < calls := by
  induction outcomes generalizing count with
  | nil => cases h
  | cons first outcomes ih =>
    rw [retry] at h
    split at h
    · exact (Nat.lt_succ_self count).trans (ih h)
    · cases h
      exact Nat.lt_succ_self count

/-- The loop goes on behind transient outcomes. -/
theorem retry_append_of_transient {front : List α} (hfront : ∀ o ∈ front, transient o = true) {count : ℕ}
    (hcount : count + front.length < limit) (outcomes : List α) :
    retry transient limit count (front ++ outcomes) =
      retry transient limit (count + front.length) outcomes := by
  induction front generalizing count with
  | nil => rfl
  | cons outcome front ih =>
    obtain ⟨houtcome, hfront⟩ := List.forall_mem_cons.mp hfront
    rw [List.length_cons] at hcount
    rw [List.cons_append, retry_cons_of_transient transient limit houtcome (by omega),
      ih hfront (by omega), List.length_cons, Nat.add_assoc, Nat.add_comm 1]

/-- The first outcome that is not transient ends the loop. -/
theorem retry_of_decided {front : List α} (hfront : ∀ o ∈ front, transient o = true) {count : ℕ}
    (hcount : count + front.length < limit) {outcome : α} (houtcome : transient outcome = false)
    (rest : List α) :
    retry transient limit count (front ++ outcome :: rest) =
      some (outcome, count + front.length + 1) := by
  rw [retry_append_of_transient transient limit hfront hcount]
  exact retry_cons_of_last transient limit (fun h => by rw [houtcome] at h; cases h) rest

/-- Behind transient outcomes the loop ends with a later call. -/
theorem lt_of_retry_append {front : List α} (hfront : ∀ o ∈ front, transient o = true) {count : ℕ}
    (hcount : count + front.length < limit) {outcomes : List α} {outcome : α} {calls : ℕ}
    (h : retry transient limit count (front ++ outcomes) = some (outcome, calls)) :
    count + front.length < calls := by
  rw [retry_append_of_transient transient limit hfront hcount] at h
  exact lt_of_retry transient limit h

/-- The last of as many transient outcomes as the loop makes calls ends it. -/
theorem retry_of_exhausted {front : List α} (hfront : ∀ o ∈ front, transient o = true)
    (hlength : front.length = limit) (hlimit : 0 < limit) (rest : List α) :
    ∃ outcome ∈ front, retry transient limit 0 (front ++ rest) = some (outcome, limit) := by
  obtain ⟨init, last, rfl⟩ := (List.eq_nil_or_concat' front).resolve_left
    (List.ne_nil_of_length_pos (hlength ▸ hlimit))
  rw [List.length_append, List.length_singleton] at hlength
  have hinit : ∀ o ∈ init, transient o = true := fun o ho => hfront o (List.mem_append_left _ ho)
  refine ⟨last, by simp, ?_⟩
  rw [List.append_assoc, List.singleton_append,
    retry_append_of_transient transient limit hinit (by omega),
    retry_cons_of_last transient limit (fun _ => by omega)]
  congr 2
  omega

/-- The loop runs out of transient outcomes. -/
theorem retry_of_waiting {outcomes : List α} (houtcomes : ∀ o ∈ outcomes, transient o = true)
    (hlength : outcomes.length < limit) : retry transient limit 0 outcomes = none := by
  have happend : retry transient limit 0 (outcomes ++ []) = retry transient limit (0 + outcomes.length) [] :=
    retry_append_of_transient transient limit houtcomes (by omega) []
  rwa [List.append_nil] at happend

/-- **The outcomes of a retry loop.** It runs out of them in front of its last call, or ends with the first
that is not transient, or with that of its last call. -/
theorem retry_cases {count : ℕ} (hcount : count < limit) (outcomes : List α) :
    (retry transient limit count outcomes = none ∧ (∀ o ∈ outcomes, transient o = true) ∧
        count + outcomes.length < limit) ∨
      ∃ front outcome rest, outcomes = front ++ outcome :: rest ∧ (∀ o ∈ front, transient o = true) ∧
        count + front.length + 1 ≤ limit ∧
        (transient outcome = true → count + front.length + 1 = limit) ∧
        retry transient limit count outcomes = some (outcome, count + front.length + 1) := by
  induction outcomes generalizing count with
  | nil => exact .inl ⟨rfl, fun o ho => absurd ho List.not_mem_nil, hcount⟩
  | cons outcome outcomes ih =>
    by_cases hnext : transient outcome = true ∧ count + 1 < limit
    · rw [retry_cons_of_transient transient limit hnext.1 hnext.2]
      rcases ih hnext.2 with ⟨hnone, hall, hlt⟩ | ⟨front, last, rest, rfl, hall, hle, hlast, hsome⟩
      · refine .inl ⟨hnone, List.forall_mem_cons.mpr ⟨hnext.1, hall⟩, ?_⟩
        rw [List.length_cons]
        omega
      · refine .inr ⟨outcome :: front, last, rest, rfl, List.forall_mem_cons.mpr ⟨hnext.1, hall⟩, ?_, ?_, ?_⟩
        · rw [List.length_cons]
          omega
        · rw [List.length_cons]
          intro h
          have hlast := hlast h
          omega
        · rw [hsome, List.length_cons]
          congr 2
          omega
    · have hlast : transient outcome = true → limit ≤ count + 1 := fun h =>
        Nat.not_lt.mp fun hlt => hnext ⟨h, hlt⟩
      refine .inr ⟨[], outcome, outcomes, rfl, fun o ho => absurd ho List.not_mem_nil, hcount, ?_,
        retry_cons_of_last transient limit hlast outcomes⟩
      exact fun h => le_antisymm hcount (hlast h)

/-! ### Stalls -/

/-- Every stall comes when all is done. -/
def StallsAfter (done : List α → Prop) (outcomes : List α) : Prop :=
  ∀ front stall rest, outcomes = front ++ stall ++ rest → stall.length = limit →
    (∀ o ∈ stall, transient o = true) → done front

variable {transient limit} {done : List α → Prop}

/-- Too few outcomes for a stall. -/
theorem stallsAfter_of_lt {outcomes : List α} (h : outcomes.length < limit) :
    StallsAfter transient limit done outcomes := by
  rintro front stall rest rfl hlength -
  rw [List.length_append, List.length_append] at h
  omega

/-- A stall at the start. -/
theorem done_of_stallsAfter {stall rest : List α} (h : StallsAfter transient limit done (stall ++ rest))
    (hlength : stall.length = limit) (hstall : ∀ o ∈ stall, transient o = true) : done [] :=
  h [] stall rest rfl hlength hstall

/-- Nothing is transient, so that there are no stalls. -/
theorem stallsAfter_of_forall {outcomes : List α} (hlimit : 0 < limit)
    (h : ∀ o ∈ outcomes, transient o = false) : StallsAfter transient limit done outcomes := by
  rintro front stall rest rfl hlength hstall
  obtain ⟨o, ho⟩ := List.exists_mem_of_length_pos (hlength ▸ hlimit)
  have hnot := h o (List.mem_append_left _ (List.mem_append_right _ ho))
  rw [hstall o ho] at hnot
  cases hnot

/-- All is done from the start. -/
theorem stallsAfter_of_done {outcomes : List α} (h : ∀ front, done front) :
    StallsAfter transient limit done outcomes := fun front _ _ _ _ _ => h front

/-- An outcome that is not transient ends what might have become a stall. -/
theorem stallsAfter_append_cons_iff {front : List α} {outcome : α} (rest : List α)
    (hlength : front.length < limit) (hlast : transient outcome = false) :
    StallsAfter transient limit done (front ++ outcome :: rest) ↔
      StallsAfter transient limit (fun more => done (front ++ outcome :: more)) rest := by
  constructor
  · rintro h more stall rest rfl
    exact h (front ++ outcome :: more) stall rest (by simp)
  · intro h before stall after heq hstall hall
    by_cases hle : before.length ≤ front.length
    · -- the stall would reach over the outcome
      have hmem : outcome ∈ stall := by
        have hget : (before ++ stall ++ after)[front.length]? = some outcome := by
          rw [← heq]
          simp
        rw [List.append_assoc, List.getElem?_append_right hle,
          List.getElem?_append_left (by omega)] at hget
        exact List.mem_of_getElem? hget
      rw [hall outcome hmem] at hlast
      cases hlast
    · have hfront : front ++ [outcome] <+: front ++ outcome :: rest := ⟨rest, by simp⟩
      have hbefore : before <+: front ++ outcome :: rest := ⟨stall ++ after, by rw [heq, List.append_assoc]⟩
      obtain ⟨more, rfl⟩ := List.prefix_of_prefix_length_le hfront hbefore (by simp; omega)
      have hrest : rest = more ++ stall ++ after := by simpa using heq
      have hdone := h more stall after hrest hstall hall
      rwa [List.append_assoc, List.singleton_append]

end Foundations
