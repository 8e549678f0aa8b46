import HttpRequest.Foundations.Machine
import HttpRequest.Model.Request
import HttpRequest.Model.Words

/-! # The arithmetic of the remaining time

Stamps count microseconds in unsigned numbers, timeouts count milliseconds in signed ones, and the time that
`::select` is given has 32 bits for its seconds. Between these the arithmetic is exact as long as the clock does not
step back, a stamp is not moved back, and the remaining time is below `2 ^ 31` seconds
(`deadlineArithmetic_iff`). -/

namespace HttpRequest

open Foundations

/-! ### Differences of stamps -/

/-- A difference wraps as a whole number of microseconds. -/
theorem Time.diff_eq (stamp timeStamp : UInt64) :
    Time.diff stamp timeStamp = ((stamp.toNat : Int) - timeStamp.toNat) % 2 ^ 64 / 1000 := by
  have hlow := timeStamp.toNat_lt
  unfold Time.diff
  rw [UInt64.toNat_div, UInt64.toNat_sub]
  show ((_ % 2 ^ 64 / 1000 : Nat) : Int) = _
  omega

/-- **The remaining time counts down from the timeout**, in signed numbers: what has elapsed, in whole milliseconds,
is what is missing, and nothing is left only when the timeout has elapsed. -/
def CountsDown (s : State) : Prop :=
  let elapsed := ((s.now.toNat : Int) - s.startStamp_.toNat).tdiv 1000
  remainTime s = max (s.info_.timeout - elapsed) 0 ∧ (elapsed < s.info_.timeout → 0 < remainTime s)

/-- A signed quotient is rounded towards zero. -/
theorem tdiv_thousand (n : Int) : n.tdiv 1000 = if 0 ≤ n then n / 1000 else -(-n / 1000) := by
  split
  · next hpos => exact Int.tdiv_eq_ediv_of_nonneg hpos
  · next hneg =>
    have hopposite : (-n).tdiv 1000 = -n / 1000 := Int.tdiv_eq_ediv_of_nonneg (by omega)
    rw [Int.neg_tdiv] at hopposite
    omega

/-- The remaining time counts down unless the clock has stepped back behind the start. -/
theorem countsDown_iff {s : State} (htimeout : 0 ≤ s.info_.timeout) :
    CountsDown s ↔
      s.startStamp_ ≤ s.now ∨ s.info_.timeout = 0 ∧ s.startStamp_.toNat - s.now.toNat < 1000 := by
  have hnow := s.now.toNat_lt
  have hstart := s.startStamp_.toNat_lt
  unfold CountsDown remainTime
  rw [Time.diff_eq, UInt64.le_iff_toNat_le, tdiv_thousand]
  dsimp only
  by_cases hback : s.startStamp_.toNat ≤ s.now.toNat
  · -- the difference does not wrap
    have hexact : ((s.now.toNat : Int) - s.startStamp_.toNat) % 2 ^ 64 = s.now.toNat - s.startStamp_.toNat := by omega
    rw [hexact, if_pos (by omega)]
    exact iff_of_true ⟨rfl, by omega⟩ (.inl hback)
  · -- the difference wraps to almost all of the stamps
    rw [if_neg (by omega)]
    omega

/-! ### Sums of stamps -/

/-- A stamp moved by a number of milliseconds lies that number of milliseconds apart. -/
def Inverts (stamp : UInt64) (delta : Int) : Prop :=
  ∃ moved, Time.TimeStamp.add stamp delta = .ok moved ∧ Time.diff moved stamp = delta

/-- A sum wraps as a whole number of microseconds. -/
theorem toNat_add_ofInt (stamp : UInt64) (n : Int) :
    ((stamp + UInt64.ofInt n).toNat : Int) = (stamp.toNat + n) % 2 ^ 64 := by
  have hword : (UInt64.ofInt n).toNat = (n % 2 ^ 64).toNat := by
    have hlt : (n % 2 ^ 64).toNat < UInt64.size := by
      show _ < 2 ^ 64
      omega
    exact UInt64.toNat_ofNat_of_lt' hlt
  rw [UInt64.toNat_add, hword]
  push_cast
  omega

/-- A stamp moves when the milliseconds' microseconds fit in 64 bits. -/
theorem add_eq_ok_iff {stamp moved : UInt64} {delta : Int} :
    Time.TimeStamp.add stamp delta = .ok moved ↔
      Fits 64 (delta * 1000) ∧ stamp + UInt64.ofInt (delta * 1000) = moved := by
  unfold Time.TimeStamp.add
  by_cases hfits : Fits 64 (delta * 1000)
  · rw [checked_of_fits hfits, and_iff_right hfits]
    exact ⟨Except.ok.inj, congrArg Except.ok⟩
  · rw [checked_of_not_fits hfits]
    exact iff_of_false nofun fun h => hfits h.1

/-- `diff` gives back what `operator+` has added where that is not negative and fits. -/
theorem inverts_iff {stamp : UInt64} {delta : Int}
    (hrange : 0 ≤ stamp.toNat + delta * 1000 ∧ stamp.toNat + delta * 1000 < 2 ^ 64) :
    Inverts stamp delta ↔ 0 ≤ delta ∧ Fits 64 (delta * 1000) := by
  have hmoved : ((stamp + UInt64.ofInt (delta * 1000)).toNat : Int) = stamp.toNat + delta * 1000 := by
    rw [toNat_add_ofInt]
    exact Int.emod_eq_of_lt hrange.1 hrange.2
  have hlow := stamp.toNat_lt
  have hdiff : Time.diff (stamp + UInt64.ofInt (delta * 1000)) stamp = delta ↔ 0 ≤ delta := by
    -- what a stamp is moved back comes out as almost all of the stamps
    rw [Time.diff_eq, hmoved]
    omega
  constructor
  · rintro ⟨moved, hadd, hinverse⟩
    obtain ⟨hfits, rfl⟩ := add_eq_ok_iff.mp hadd
    exact ⟨hdiff.mp hinverse, hfits⟩
  · rintro ⟨hpos, hfits⟩
    exact ⟨_, add_eq_ok_iff.mpr ⟨hfits, rfl⟩, hdiff.mpr hpos⟩

/-! ### The time that `::select` is given -/

/-- Every `select` with this time makes one call, and gives it the same number of milliseconds. -/
def SelectsExactly (timeout : Int) : Prop :=
  ∀ (type : SelectType) (reply : Option SelectReply) (s : MethodState), ∃ tv,
    ((select type timeout reply).run () s).events.map Syscall.timeval? = [some tv] ∧
      tv.tv_sec * 1000000 + tv.tv_usec = timeout * 1000 ∧ 0 ≤ tv.tv_usec ∧ tv.tv_usec < 1000000

/-- `select` shows its call and nothing else. -/
theorem events_select (type : SelectType) (timeout : Int) (reply : Option SelectReply) (s : MethodState) :
    ((select type timeout reply).run () s).events = [.select type timeout] := by
  cases reply with
  | none => rfl
  | some reply =>
    obtain ⟨ret, now⟩ := reply
    cases ret <;> rfl

/-- The wait is the milliseconds asked for below `2 ^ 31` seconds. -/
theorem selectsExactly_iff {timeout : Int} (htimeout : 0 ≤ timeout) :
    SelectsExactly timeout ↔ timeout < 2 ^ 31 * 1000 := by
  have hsec : timeout.tdiv 1000 = timeout / 1000 := Int.tdiv_eq_ediv_of_nonneg htimeout
  have husec : timeout.tmod 1000 = timeout % 1000 := Int.tmod_eq_emod_of_nonneg htimeout
  -- the microseconds fit, whatever the timeout is
  have hexact : toInt32 (timeout.tmod 1000 * 1000) = timeout % 1000 * 1000 := by
    rw [husec]
    exact bmod_of_fits (by decide) (by unfold Fits; omega)
  constructor
  · intro h
    obtain ⟨tv, hevents, hsum, -⟩ := h .Read none ⟨⟨.PlainSocket, .V4, none, none⟩, 0⟩
    rw [events_select, List.map_singleton, List.singleton_inj, Syscall.timeval?, if_pos htimeout,
      Option.some.injEq] at hevents
    subst hevents
    -- the seconds that are left by the conversion fit, and so do the same ones of the timeout
    have hfits : Fits 32 (toInt32 (timeout.tdiv 1000)) := fits_bmod (by decide) _
    unfold selectTimeout Fits at *
    dsimp only at hsum
    omega
  · intro hlt type reply s
    have hseconds : toInt32 (timeout.tdiv 1000) = timeout / 1000 := by
      rw [hsec]
      exact bmod_of_fits (by decide) (by unfold Fits; omega)
    refine ⟨selectTimeout timeout, ?_, ?_⟩
    · rw [events_select, List.map_singleton, Syscall.timeval?, if_pos htimeout]
    · unfold selectTimeout
      rw [hexact, hseconds]
      dsimp only
      omega

/-! ### The arithmetic of the deadline -/

/-- **The arithmetic of the deadline is exact** as long as the clock does not step back behind the start, stamps are
moved forward by what a signed number can count in microseconds, and the remaining time has fewer than `2 ^ 31`
seconds. -/
theorem deadlineArithmetic_iff (s : State) (htimeout : 0 ≤ s.info_.timeout) (stamp : UInt64) (delta : Int)
    (hrange : 0 ≤ stamp.toNat + delta * 1000 ∧ stamp.toNat + delta * 1000 < 2 ^ 64) (remain : Int)
    (hremain : 0 ≤ remain) :
    (CountsDown s ↔
        s.startStamp_ ≤ s.now ∨ s.info_.timeout = 0 ∧ s.startStamp_.toNat - s.now.toNat < 1000) ∧
      (Inverts stamp delta ↔ 0 ≤ delta ∧ Fits 64 (delta * 1000)) ∧
      (SelectsExactly remain ↔ remain < 2 ^ 31 * 1000) :=
  ⟨countsDown_iff htimeout, inverts_iff hrange, selectsExactly_iff hremain⟩

/-- A request that was started one second after the epoch, at the epoch. -/
def State.steppedBack : State :=
  { State.initial { url := [], timeout := 1000 } ⟨false, false, false, false, false⟩ 1000000 none with now := 0 }

/-- The three conditions, at a clock that has stepped back. -/
theorem deadlineArithmetic_steppedBack :
    (CountsDown State.steppedBack ↔
        State.steppedBack.startStamp_ ≤ State.steppedBack.now ∨
          State.steppedBack.info_.timeout = 0 ∧
            State.steppedBack.startStamp_.toNat - State.steppedBack.now.toNat < 1000) ∧
      (Inverts 1000000 (-1) ↔ (0 : Int) ≤ -1 ∧ Fits 64 (-1 * 1000)) ∧
      (SelectsExactly 1000 ↔ (1000 : Int) < 2 ^ 31 * 1000) :=
  deadlineArithmetic_iff State.steppedBack (by decide) 1000000 (-1) (by decide) 1000 (by decide)

/-- Nothing is left of the second when the clock has stepped back by one, a millisecond back is almost six hundred
thousand years, and `2 ^ 31` seconds are given to `::select` as a negative number. -/
theorem not_deadlineArithmetic :
    remainTime State.steppedBack = 0 ∧ ¬CountsDown State.steppedBack ∧ ¬Inverts 1000000 (-1) ∧
      ¬SelectsExactly (2 ^ 31 * 1000) := by
  refine ⟨by decide, ?_, ?_, ?_⟩
  · rw [countsDown_iff (by decide)]
    decide
  · rw [inverts_iff (by decide)]
    decide
  · rw [selectsExactly_iff (by decide)]
    decide

end HttpRequest
