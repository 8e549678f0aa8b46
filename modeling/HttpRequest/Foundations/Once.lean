import Mathlib.Logic.Function.Basic
import Mathlib.Logic.Relation

/-! # Initializing once

Any number of threads call one initializer through one flag. The thread that finds the flag unset runs the
initializer; the others wait until it has returned, and go on without it. When it throws, the flag is unset again,
and another thread may run it. `Guarded.holds` is the rule for what the threads share: an assertion for the time in
front of the initializer, one for each of its places, and one for the time behind it. -/

namespace Foundations

variable {ι σ β : Type}

/-- What a step of an initializer comes to. -/
inductive Progress (β : Type)
  | goesOn (b : β)
  | returns
  | throws

/-- An initializer, as its steps from place to place on what the threads share. -/
structure Initializer (σ β : Type) where
  start : β
  step : β → σ → Progress β → σ → Prop

namespace Once

/-- The flag. -/
inductive Flag
  | unset
  | busy
  | done

/-- Where a thread stands. -/
inductive Place (β : Type)
  /-- It has nothing to do with the initializer. -/
  | away
  /-- It calls, and waits for the flag. -/
  | calling
  /-- It runs the initializer. -/
  | running (b : β)
  /-- Its call has returned. -/
  | passed
  /-- Its call has thrown. -/
  | thrown

/-- A thread that may have something of the initializer. -/
def Place.Inside : Place β → Prop
  | .running _ | .passed => True
  | .away | .calling | .thrown => False

/-- The flag, what the threads share, and where they stand. -/
structure World (ι σ β : Type) where
  flag : Flag
  shared : σ
  place : ι → Place β

/-- No thread has called yet. -/
def World.initial (s : σ) : World ι σ β := ⟨.unset, s, fun _ => .away⟩

variable [DecidableEq ι]

/-- A thread moves. -/
def World.move (w : World ι σ β) (i : ι) (p : Place β) : World ι σ β :=
  { w with place := Function.update w.place i p }

/-- **A step of one of the threads**: it calls, it gets past the flag or makes a step of the initializer, or it uses
what has been initialized. -/
inductive Step (init : Initializer σ β) (use : ι → σ → σ → Prop) : World ι σ β → World ι σ β → Prop
  | call {w : World ι σ β} {i : ι} (h : w.place i = .away) : Step init use w (w.move i .calling)
  | enter {w : World ι σ β} {i : ι} (h : w.place i = .calling) (hflag : w.flag = .unset) :
    Step init use w { w.move i (.running init.start) with flag := .busy }
  | goesOn {w : World ι σ β} {i : ι} {b b' : β} {s : σ} (h : w.place i = .running b)
    (hstep : init.step b w.shared (.goesOn b') s) : Step init use w { w.move i (.running b') with shared := s }
  | returns {w : World ι σ β} {i : ι} {b : β} {s : σ} (h : w.place i = .running b)
    (hstep : init.step b w.shared .returns s) :
    Step init use w { w.move i .passed with flag := .done, shared := s }
  | throws {w : World ι σ β} {i : ι} {b : β} {s : σ} (h : w.place i = .running b)
    (hstep : init.step b w.shared .throws s) :
    Step init use w { w.move i .thrown with flag := .unset, shared := s }
  | pass {w : World ι σ β} {i : ι} (h : w.place i = .calling) (hflag : w.flag = .done) :
    Step init use w (w.move i .passed)
  | use {w : World ι σ β} {i : ι} {s : σ} (h : w.place i = .passed) (huse : use i w.shared s) :
    Step init use w { w.move i .away with shared := s }

/-- The steps of threads that start with nothing initialized. -/
def Reachable (init : Initializer σ β) (use : ι → σ → σ → Prop) (s : σ) : World ι σ β → Prop :=
  Relation.ReflTransGen (Step init use) (.initial s)

/-- The steps keep the assertions for what is shared. -/
structure Guarded (init : Initializer σ β) (use : ι → σ → σ → Prop) (before : σ → Prop) (during : β → σ → Prop)
    (behind : σ → Prop) : Prop where
  enter : ∀ s, before s → during init.start s
  goesOn : ∀ b s b' s', during b s → init.step b s (.goesOn b') s' → during b' s'
  returns : ∀ b s s', during b s → init.step b s .returns s' → behind s'
  throws : ∀ b s s', during b s → init.step b s .throws s' → before s'
  use : ∀ i s s', behind s → use i s s' → behind s'

/-- **Who is inside, and what holds**: nobody while the flag is unset, one thread while it is busy, and nobody but
threads that have passed when it is done. -/
inductive Holds (before : σ → Prop) (during : β → σ → Prop) (behind : σ → Prop) : World ι σ β → Prop
  | unset {w : World ι σ β} (hflag : w.flag = .unset) (hshared : before w.shared) (hout : ∀ i, ¬(w.place i).Inside) :
    Holds before during behind w
  | busy {w : World ι σ β} {i : ι} {b : β} (hflag : w.flag = .busy) (hplace : w.place i = .running b)
    (hshared : during b w.shared) (hout : ∀ j, j ≠ i → ¬(w.place j).Inside) : Holds before during behind w
  | done {w : World ι σ β} (hflag : w.flag = .done) (hshared : behind w.shared)
    (hplace : ∀ i b, w.place i ≠ .running b) : Holds before during behind w

section

variable {init : Initializer σ β} {use : ι → σ → σ → Prop} {before : σ → Prop} {during : β → σ → Prop}
  {behind : σ → Prop} {w w' : World ι σ β}

/-- Moving a caller leaves the flag alone. -/
@[simp] theorem World.move_flag (w : World ι σ β) (i : ι) (p : Place β) : (w.move i p).flag = w.flag := rfl

/-- Moving a caller leaves the shared value alone. -/
@[simp] theorem World.move_shared (w : World ι σ β) (i : ι) (p : Place β) : (w.move i p).shared = w.shared := rfl

/-- The caller moved is where it was moved to. -/
@[simp] theorem World.move_place_self (w : World ι σ β) (i : ι) (p : Place β) : (w.move i p).place i = p :=
  Function.update_self ..

/-- The other callers stay where they are. -/
theorem World.move_place_of_ne (w : World ι σ β) {i j : ι} (p : Place β) (h : j ≠ i) :
    (w.move i p).place j = w.place j := Function.update_of_ne h ..

/-- A thread that moves to a place outside leaves the others where they are. -/
theorem World.not_inside_move {i : ι} {p : Place β} (hp : ¬p.Inside) {j : ι} (h : j ≠ i → ¬(w.place j).Inside) :
    ¬((w.move i p).place j).Inside := by
  by_cases hj : j = i
  · rw [hj, move_place_self]
    exact hp
  · rw [move_place_of_ne w p hj]
    exact h hj

/-- Nobody runs the function behind a move out of it, if nobody else did before. -/
theorem World.move_ne_running {i : ι} {p : Place β} (hp : ∀ b, p ≠ .running b) {j : ι}
    (h : j ≠ i → ∀ b, w.place j ≠ .running b) (b : β) : (w.move i p).place j ≠ .running b := by
  by_cases hj : j = i
  · rw [hj, move_place_self]
    exact hp b
  · rw [move_place_of_ne w p hj]
    exact h hj b

/-- The thread that makes a step of the initializer is the one that is inside. -/
theorem Holds.running (h : Holds before during behind w) {i : ι} {b : β} (hi : w.place i = .running b) :
    w.flag = .busy ∧ during b w.shared ∧ ∀ j, j ≠ i → ¬(w.place j).Inside := by
  cases h with
  | unset hflag hshared hout =>
    have hinside := hout i
    rw [hi] at hinside
    exact (hinside trivial).elim
  | @busy i' b' hflag hplace hshared hout =>
    by_cases hne : i = i'
    · subst hne
      obtain rfl : b' = b := Place.running.inj (hplace.symm.trans hi)
      exact ⟨hflag, hshared, hout⟩
    · have hinside := hout i hne
      rw [hi] at hinside
      exact (hinside trivial).elim
  | done hflag hshared hplace => exact (hplace i b hi).elim

/-- A thread whose call has returned finds the flag done. -/
theorem Holds.passed (h : Holds before during behind w) {i : ι} (hi : w.place i = .passed) :
    w.flag = .done ∧ behind w.shared ∧ ∀ j b, w.place j ≠ .running b := by
  have hinside : (w.place i).Inside := by
    rw [hi]
    trivial
  cases h with
  | unset hflag hshared hout => exact (hout i hinside).elim
  | @busy i' b hflag hplace hshared hout =>
    by_cases hne : i = i'
    · rw [hne, hplace] at hi
      cases hi
    · exact (hout i hne hinside).elim
  | done hflag hshared hplace => exact ⟨hflag, hshared, hplace⟩

/-- A step keeps what holds. -/
theorem Guarded.step (hg : Guarded init use before during behind) (h : Holds before during behind w)
    (hstep : Step init use w w') : Holds before during behind w' := by
  cases hstep with
  | @call i hi =>
    cases h with
    | unset hflag hshared hout => exact .unset hflag hshared fun j => World.not_inside_move id fun _ => hout j
    | @busy i' b hflag hplace hshared hout =>
      have hne : i' ≠ i := by
        rintro rfl
        rw [hi] at hplace
        cases hplace
      exact .busy hflag ((w.move_place_of_ne _ hne).trans hplace) hshared fun j hj =>
        World.not_inside_move id fun _ => hout j hj
    | done hflag hshared hplace =>
      exact .done hflag hshared fun j => World.move_ne_running (by simp) fun _ => hplace j
  | @enter i hi hunset =>
    cases h with
    | unset hflag hshared hout =>
      refine .busy rfl (w.move_place_self i _) (hg.enter _ hshared) fun j hj => ?_
      show ¬((w.move i _).place j).Inside
      rw [w.move_place_of_ne _ hj]
      exact hout j
    | busy hflag => exact absurd (hunset.symm.trans hflag) (by simp)
    | done hflag => exact absurd (hunset.symm.trans hflag) (by simp)
  | @goesOn i b b' s hi hprogress =>
    obtain ⟨hflag, hshared, hout⟩ := h.running hi
    refine .busy hflag (w.move_place_self i _) (hg.goesOn b _ b' s hshared hprogress) fun j hj => ?_
    show ¬((w.move i _).place j).Inside
    rw [w.move_place_of_ne _ hj]
    exact hout j hj
  | @returns i b s hi hprogress =>
    obtain ⟨-, hshared, hout⟩ := h.running hi
    refine .done rfl (hg.returns b _ s hshared hprogress) fun j => ?_
    refine World.move_ne_running (by simp) fun hj b hb => hout j hj ?_
    rw [hb]
    trivial
  | @throws i b s hi hprogress =>
    obtain ⟨-, hshared, hout⟩ := h.running hi
    exact .unset rfl (hg.throws b _ s hshared hprogress) fun j => World.not_inside_move id (hout j)
  | @pass i hi hdone =>
    cases h with
    | unset hflag => exact absurd (hdone.symm.trans hflag) (by simp)
    | busy hflag => exact absurd (hdone.symm.trans hflag) (by simp)
    | done hflag hshared hplace =>
      exact .done hflag hshared fun j => World.move_ne_running (by simp) fun _ => hplace j
  | @use i s hi huse =>
    obtain ⟨hflag, hshared, hplace⟩ := h.passed hi
    exact .done hflag (hg.use i _ s hshared huse) fun j => World.move_ne_running (by simp) fun _ => hplace j

/-- **Rule for initializing once.** What holds in front of the initializer, during it and behind it, holds in every
world that the threads reach. -/
theorem Guarded.holds (hg : Guarded init use before during behind) {s : σ} (hs : before s)
    (h : Reachable init use s w) : Holds before during behind w := by
  induction h with
  | refl => exact .unset rfl hs fun _ => id
  | tail _ hstep ih => exact hg.step ih hstep

/-- The initializer runs in one thread at a time. -/
theorem Holds.exclusive (h : Holds before during behind w) {i j : ι} {b b' : β} (hi : w.place i = .running b)
    (hj : w.place j = .running b') : i = j := by
  by_contra hne
  refine (h.running hi).2.2 j (Ne.symm hne) ?_
  rw [hj]
  trivial

/-- **A thread that waits is not stuck**: it goes on itself, or the thread in the initializer can. -/
theorem Holds.not_stuck (h : Holds before during behind w)
    (hinit : ∀ b s, during b s → ∃ progress s', init.step b s progress s') {i : ι} (hi : w.place i = .calling) :
    (∃ w', Step init use w w' ∧ (w'.place i).Inside) ∨
      ∃ j b progress s', w.place j = .running b ∧ init.step b w.shared progress s' := by
  cases h with
  | unset hflag =>
    refine .inl ⟨_, .enter hi hflag, ?_⟩
    show ((w.move i _).place i).Inside
    rw [w.move_place_self]
    trivial
  | @busy j b hflag hplace hshared =>
    obtain ⟨progress, s', hstep⟩ := hinit b w.shared hshared
    exact .inr ⟨j, b, progress, s', hplace, hstep⟩
  | done hflag =>
    refine .inl ⟨_, .pass hi hflag, ?_⟩
    rw [w.move_place_self]
    trivial

end

end Once

end Foundations
