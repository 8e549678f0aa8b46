import Mathlib

/-! # Ledgers

A `Ledger` says which resources are open, and which of them each owner holds, at most one. A resource is
acquired, transferred, released, or forgotten by its owner without being released. From the empty ledger on
every resource that is held is open and has one owner (`Exclusive.after`), and a resource is lost, open with
no owner, exactly when it has been forgotten (`lost_after_iff`). -/

namespace Foundations

variable {ι R : Type}

/-- The open resources, and what each owner holds of them. -/
structure Ledger (ι R : Type) where
  holds : ι → Option R
  opened : Finset R

namespace Ledger

/-- The ledger in which nothing is open. -/
def empty : Ledger ι R := ⟨fun _ => none, ∅⟩

/-- What is held is open, and has one owner. -/
structure Exclusive (l : Ledger ι R) : Prop where
  opened : ∀ i r, l.holds i = some r → r ∈ l.opened
  unique : ∀ i j r, l.holds i = some r → l.holds j = some r → i = j

/-- An open resource that nobody holds. -/
def Lost (l : Ledger ι R) (r : R) : Prop := r ∈ l.opened ∧ ∀ i, l.holds i ≠ some r

/-- The empty ledger is exclusive. -/
theorem exclusive_empty : (empty : Ledger ι R).Exclusive :=
  ⟨fun _ _ h => (by cases h), fun _ _ _ h => (by cases h)⟩

/-- Nothing is lost before anything was opened. -/
theorem not_lost_empty (r : R) : ¬(empty : Ledger ι R).Lost r := fun h => Finset.notMem_empty r h.1

/-- When nobody holds anything, what is open is lost. -/
theorem lost_iff_of_none {l : Ledger ι R} (h : ∀ i, l.holds i = none) (r : R) :
    l.Lost r ↔ r ∈ l.opened := by
  simp [Lost, h]

/-! ### Moves -/

/-- What can happen to a ledger. -/
inductive Move (ι R : Type)
  | acquire (i : ι) (r : R)
  | transfer (i j : ι)
  | release (i : ι)
  | forget (i : ι)

/-- An owner without anything acquires what is not open, and takes over from others. -/
def Proper (l : Ledger ι R) : Move ι R → Prop
  | .acquire i r => l.holds i = none ∧ r ∉ l.opened
  | .transfer _ j => l.holds j = none
  | .release _ => True
  | .forget _ => True

/-- The resource that is forgotten. -/
def Forgets (l : Ledger ι R) (r : R) : Move ι R → Prop
  | .forget i => l.holds i = some r
  | _ => False

variable [DecidableEq ι] [DecidableEq R]

/-- The ledger after a move. -/
def apply (l : Ledger ι R) : Move ι R → Ledger ι R
  | .acquire i r => ⟨Function.update l.holds i (some r), insert r l.opened⟩
  | .transfer i j => ⟨Function.update (Function.update l.holds i none) j (l.holds i), l.opened⟩
  | .release i => ⟨Function.update l.holds i none, l.opened \ (l.holds i).toFinset⟩
  | .forget i => ⟨Function.update l.holds i none, l.opened⟩

variable {l : Ledger ι R} {i j k : ι} {q r : R}

/-- An acquisition puts the resource in its slot and leaves the other slots alone. -/
theorem holds_acquire_iff :
    (l.apply (.acquire i r)).holds k = some q ↔ k = i ∧ r = q ∨ k ≠ i ∧ l.holds k = some q := by
  simp only [apply, Function.update_apply]
  split <;> simp_all

/-- A transfer empties the one slot and fills the other with what it held. -/
theorem holds_transfer_iff :
    (l.apply (.transfer i j)).holds k = some q ↔
      k = j ∧ l.holds i = some q ∨ k ≠ j ∧ k ≠ i ∧ l.holds k = some q := by
  simp only [apply, Function.update_apply]
  split
  · simp_all
  · split <;> simp_all

/-- A release empties its slot only. -/
theorem holds_release_iff :
    (l.apply (.release i)).holds k = some q ↔ k ≠ i ∧ l.holds k = some q := by
  simp only [apply, Function.update_apply]
  split <;> simp_all

/-- Forgetting empties its slot only. -/
theorem holds_forget_iff :
    (l.apply (.forget i)).holds k = some q ↔ k ≠ i ∧ l.holds k = some q := holds_release_iff

/-- A release closes what its slot held and nothing else. -/
theorem mem_opened_release_iff :
    q ∈ (l.apply (.release i)).opened ↔ q ∈ l.opened ∧ l.holds i ≠ some q := by
  simp [apply]

/-- **A move keeps a ledger exclusive.** -/
theorem Exclusive.apply (h : l.Exclusive) {m : Move ι R} (hm : l.Proper m) : (l.apply m).Exclusive := by
  cases m with
  | acquire i r =>
    obtain ⟨-, hfresh⟩ := hm
    refine ⟨fun k q hk => ?_, fun k k' q hk hk' => ?_⟩
    · rcases holds_acquire_iff.mp hk with ⟨-, rfl⟩ | ⟨-, hk⟩
      · exact Finset.mem_insert_self _ _
      · exact Finset.mem_insert_of_mem (h.opened k q hk)
    · rcases holds_acquire_iff.mp hk with ⟨rfl, rfl⟩ | ⟨-, hk⟩
      · rcases holds_acquire_iff.mp hk' with ⟨rfl, -⟩ | ⟨-, hk'⟩
        · rfl
        · exact absurd (h.opened k' r hk') hfresh
      · rcases holds_acquire_iff.mp hk' with ⟨-, rfl⟩ | ⟨-, hk'⟩
        · exact absurd (h.opened k r hk) hfresh
        · exact h.unique k k' q hk hk'
  | transfer i j =>
    refine ⟨fun k q hk => ?_, fun k k' q hk hk' => ?_⟩
    · rcases holds_transfer_iff.mp hk with ⟨-, hi⟩ | ⟨-, -, hk⟩
      · exact h.opened i q hi
      · exact h.opened k q hk
    · rcases holds_transfer_iff.mp hk with ⟨rfl, hi⟩ | ⟨-, hne, hk⟩
      · rcases holds_transfer_iff.mp hk' with ⟨rfl, -⟩ | ⟨-, hne, hk'⟩
        · rfl
        · exact absurd (h.unique k' i q hk' hi) hne
      · rcases holds_transfer_iff.mp hk' with ⟨-, hi⟩ | ⟨-, -, hk'⟩
        · exact absurd (h.unique k i q hk hi) hne
        · exact h.unique k k' q hk hk'
  | release i =>
    refine ⟨fun k q hk => ?_, fun k k' q hk hk' => ?_⟩
    · obtain ⟨hne, hk⟩ := holds_release_iff.mp hk
      exact mem_opened_release_iff.mpr ⟨h.opened k q hk, fun hi => hne (h.unique k i q hk hi)⟩
    · exact h.unique k k' q (holds_release_iff.mp hk).2 (holds_release_iff.mp hk').2
  | forget i =>
    refine ⟨fun k q hk => h.opened k q (holds_forget_iff.mp hk).2, fun k k' q hk hk' => ?_⟩
    exact h.unique k k' q (holds_forget_iff.mp hk).2 (holds_forget_iff.mp hk').2

/-- **A move loses what it forgets, and nothing else; what is lost stays lost.** -/
theorem lost_apply_iff (h : l.Exclusive) {m : Move ι R} (hm : l.Proper m) :
    (l.apply m).Lost q ↔ l.Lost q ∨ l.Forgets q m := by
  cases m with
  | acquire i r =>
    obtain ⟨hnone, hfresh⟩ := hm
    simp only [Forgets, or_false]
    constructor
    · rintro ⟨hopen, hheld⟩
      have hne : q ≠ r := fun heq => hheld i (holds_acquire_iff.mpr (.inl ⟨rfl, heq.symm⟩))
      refine ⟨(Finset.mem_insert.mp hopen).resolve_left hne, fun k hk => ?_⟩
      have hki : k ≠ i := by
        rintro rfl
        rw [hnone] at hk
        cases hk
      exact hheld k (holds_acquire_iff.mpr (.inr ⟨hki, hk⟩))
    · rintro ⟨hopen, hheld⟩
      refine ⟨Finset.mem_insert_of_mem hopen, fun k hk => ?_⟩
      rcases holds_acquire_iff.mp hk with ⟨-, rfl⟩ | ⟨-, hk⟩
      · exact hfresh hopen
      · exact hheld k hk
  | transfer i j =>
    have hnone : l.holds j = none := hm
    simp only [Forgets, or_false]
    constructor
    · rintro ⟨hopen, hheld⟩
      refine ⟨hopen, fun k hk => ?_⟩
      have hkj : k ≠ j := by
        rintro rfl
        rw [hnone] at hk
        cases hk
      by_cases hki : k = i
      · exact hheld j (holds_transfer_iff.mpr (.inl ⟨rfl, hki ▸ hk⟩))
      · exact hheld k (holds_transfer_iff.mpr (.inr ⟨hkj, hki, hk⟩))
    · rintro ⟨hopen, hheld⟩
      refine ⟨hopen, fun k hk => ?_⟩
      rcases holds_transfer_iff.mp hk with ⟨-, hi⟩ | ⟨-, -, hk⟩
      · exact hheld i hi
      · exact hheld k hk
  | release i =>
    simp only [Forgets, or_false]
    constructor
    · rintro ⟨hopen, hheld⟩
      obtain ⟨hopen, hi⟩ := mem_opened_release_iff.mp hopen
      refine ⟨hopen, fun k hk => hheld k (holds_release_iff.mpr ⟨?_, hk⟩)⟩
      rintro rfl
      exact hi hk
    · rintro ⟨hopen, hheld⟩
      exact ⟨mem_opened_release_iff.mpr ⟨hopen, hheld i⟩,
        fun k hk => hheld k (holds_release_iff.mp hk).2⟩
  | forget i =>
    constructor
    · rintro ⟨hopen, hheld⟩
      refine or_iff_not_imp_right.mpr fun hi => ⟨hopen, fun k hk => ?_⟩
      by_cases hki : k = i
      · exact hi (hki ▸ hk)
      · exact hheld k (holds_forget_iff.mpr ⟨hki, hk⟩)
    · rintro (⟨hopen, hheld⟩ | hi)
      · exact ⟨hopen, fun k hk => hheld k (holds_forget_iff.mp hk).2⟩
      · have hi : l.holds i = some q := hi
        refine ⟨h.opened i q hi, fun k hk => ?_⟩
        obtain ⟨hne, hk⟩ := holds_forget_iff.mp hk
        exact hne (h.unique k i q hk hi)

/-! ### Runs of moves -/

/-- The ledger after some moves. -/
def after (l : Ledger ι R) (ms : List (Move ι R)) : Ledger ι R := ms.foldl apply l

/-- Moves that are proper where they are made. -/
def ProperRun : Ledger ι R → List (Move ι R) → Prop
  | _, [] => True
  | l, m :: ms => l.Proper m ∧ ProperRun (l.apply m) ms

/-- A resource is forgotten by one of the moves. -/
def ForgetsRun (r : R) : Ledger ι R → List (Move ι R) → Prop
  | _, [] => False
  | l, m :: ms => l.Forgets r m ∨ ForgetsRun r (l.apply m) ms

/-- **Moves keep a ledger exclusive.** -/
theorem Exclusive.after (h : l.Exclusive) {ms : List (Move ι R)} (hms : l.ProperRun ms) :
    (l.after ms).Exclusive := by
  induction ms generalizing l with
  | nil => exact h
  | cons m ms ih => exact ih (h.apply hms.1) hms.2

/-- **Moves lose what they forget, and nothing else; what is lost stays lost.** -/
theorem lost_after_iff (h : l.Exclusive) {ms : List (Move ι R)} (hms : l.ProperRun ms) :
    (l.after ms).Lost q ↔ l.Lost q ∨ l.ForgetsRun q ms := by
  induction ms generalizing l with
  | nil => simp [after, ForgetsRun]
  | cons m ms ih =>
    have hrest := ih (h.apply hms.1) hms.2
    rw [lost_apply_iff h hms.1, or_assoc] at hrest
    exact hrest

end Ledger

end Foundations
