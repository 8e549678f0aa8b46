import HttpRequest.Lifecycle.Points

/-! # Calls behind `cancel()`

A `cancel()` interrupts nothing: the worker finds `isValid_` false where it reads it, in front of the next wait
for an answer. What it still does until then is one pass over an exchange at most. A wait and a call of `receive`
that are under way are finished; if a redirect has come in, a whole request is sent to where it leads; no answer to
that is waited for. So the calls behind a `cancel()` come in the order of `Call.rank`, each kind of them once, those
of `ISocket::send` apart (`windsDown_process`). -/

namespace HttpRequest

open Foundations

/-! ### The order of the calls -/

/-- The place of a call in what is left to do behind a `cancel()`. -/
def Call.rank : Call → ℕ
  | .canReceive _ => 1
  | .receive => 2
  | .parseUrl _ => 3
  | .getaddrinfo _ _ _ => 4
  | .newSocket _ => 5
  | .connect _ => 6
  | .canSend _ => 7
  | .send _ => 8

/-- A rank may stand behind another: only `ISocket::send` is repeated. -/
def RankAbove (n m : ℕ) : Prop := n < m ∨ n = 8 ∧ m = 8

instance : IsTrans ℕ RankAbove where
  trans a b c hab hbc := by
    unfold RankAbove at hab hbc ⊢
    omega

/-- **The calls behind a `cancel()`** come in the order of their ranks. -/
def WindsDown (es : List Event) : Prop :=
  ∀ front rest, es = front ++ .cancelled :: rest →
    (calls rest).Pairwise fun call call' => RankAbove call.rank call'.rank

/-- The rank of an event, if it is a call. -/
def Event.rank? : Event → Option ℕ
  | .call c => some c.rank
  | .callback _ | .returned _ | .cancelled => none

/-- The ranks of the events are those of the calls. -/
theorem filterMap_rank (es : List Event) : es.filterMap Event.rank? = (calls es).map Call.rank := by
  induction es with
  | nil => rfl
  | cons e es ih =>
    cases e with
    | call call => exact congrArg (call.rank :: ·) ih
    | callback | returned | cancelled => exact ih

/-- Whether an event is the `cancel()`. -/
def Event.Cancels : Event → Prop
  | .cancelled => True
  | .callback _ | .call _ | .returned _ => False

instance : DecidablePred Event.Cancels
  | .cancelled => isTrue trivial
  | .callback _ | .call _ | .returned _ => isFalse not_false

/-- The monitor of the calls behind a `cancel()`. -/
def windMonitor : Monitor (Option ℕ) Event := Monitor.rising Event.Cancels Event.rank? RankAbove

/-- The cancel sets the rank unless one has been set. -/
theorem next_windMonitor_cancelled (last : Option ℕ) : windMonitor.next last .cancelled = some (last.getD 0) :=
  Monitor.next_rising_of_starts trivial

/-- A call behind the cancel sets the rank to its own. -/
theorem next_windMonitor_call (last : Option ℕ) (call : Call) :
    windMonitor.next last (.call call) = last.map fun _ => call.rank := by
  have hcall : ¬(Event.call call).Cancels := not_false
  exact Monitor.next_rising_of_not_starts hcall

/-- The cancel has no rank. -/
theorem rank?_of_cancels {e : Event} (he : e.Cancels) : e.rank? = none := by
  cases e with
  | cancelled => rfl
  | callback | call | returned => exact he.elim

/-- What the monitor accepts winds down. -/
theorem windsDown_of_accepts {es : List Event} (h : windMonitor.Accepts none es) : WindsDown es := by
  rintro front rest rfl
  have hrest : windMonitor.Accepts (windMonitor.next (windMonitor.after none front) .cancelled) rest :=
    ((windMonitor.accepts_append none front _).mp h).2.2
  rw [next_windMonitor_cancelled] at hrest
  have hpairwise := hrest.pairwise_rising fun _ => rank?_of_cancels
  rw [filterMap_rank, List.pairwise_map] at hpairwise
  exact hpairwise.2

/-! ### The chart -/

/-- The rank up to which calls may have been made behind a `cancel()` where the worker stands at a point. -/
def Point.rank : Point → ℕ
  | .valid => 0
  | .awaited => 1
  | .received | .entered => 2
  | .parsed => 3
  | .found => 4
  | .created => 5
  | .connected => 6
  | .writable => 7
  | .sending _ _ | .offered _ _ | .waiting => 8

/-- A call stands above the point it is made at, and leads to a point of its own rank. -/
theorem Point.Leads.rank {point point' : Point} {call : Call} (h : point.Leads call point') :
    RankAbove point.rank call.rank ∧ point'.rank = call.rank := by
  cases h with
  | send => exact ⟨.inr ⟨rfl, rfl⟩, rfl⟩
  | _ => exact ⟨.inl (by simp [Point.rank, Call.rank]), rfl⟩

/-- Behind a `cancel()` the request is not valid, and no call has had a rank above that of the point. -/
def windChart : Chart (Option ℕ) := fun _ point last valid _ _ => ∀ n ∈ last, n ≤ point.rank ∧ valid = false

section

variable {site site' : List Connection} {point point' : Point} {last : Option ℕ} {valid : Bool} {url url' : Url}
  {info info' : RequestInfo}

/-- A later point may be taken for an earlier one. -/
theorem windChart_mono (h : windChart site point last valid url info) (hle : point.rank ≤ point'.rank) :
    windChart site' point' last valid url' info' :=
  fun n hn => ⟨(h n hn).1.trans hle, (h n hn).2⟩

/-- An event that is neither a call nor the `cancel()`. -/
theorem windChart_other (h : windChart site point last valid url info) {e : Event} (hcancels : ¬e.Cancels)
    (hrank : e.rank? = none) :
    windMonitor.allows last e ∧ windChart site point (windMonitor.next last e) valid url info := by
  constructor
  · intro _ _ m hm
    rw [hrank] at hm
    cases hm
  · have hnext : windMonitor.next last e = last := by
      refine (Monitor.next_rising_of_not_starts hcancels).trans ?_
      simp [hrank]
    rwa [hnext]

/-- A call of a rank above those in front of it. -/
theorem windChart_call (h : windChart site point last valid url info) {call : Call}
    (habove : RankAbove point.rank call.rank) (hrank : point'.rank = call.rank) :
    windMonitor.allows last (.call call) ∧
      windChart site' point' (windMonitor.next last (.call call)) valid url' info' := by
  constructor
  · rintro n hn _ ⟨⟩
    have hle := (h n hn).1
    unfold RankAbove at habove ⊢
    omega
  · intro n hn
    rw [next_windMonitor_call, Option.mem_map] at hn
    obtain ⟨m, hm, rfl⟩ := hn
    exact ⟨hrank.ge, (h m hm).2⟩

/-- A cancel at a point of the chart stays at it. -/
theorem windChart_cancelled (h : windChart site point last valid url info) :
    windMonitor.allows last .cancelled ∧
      windChart site point (windMonitor.next last .cancelled) false url info := by
  refine ⟨fun _ _ _ => nofun, fun n hn => ⟨?_, rfl⟩⟩
  rw [next_windMonitor_cancelled] at hn
  obtain rfl : last.getD 0 = n := Option.mem_some.mp hn
  cases last with
  | none => exact Nat.zero_le _
  | some n => exact (h n rfl).1

end

/-- The chart follows every move between the points. -/
theorem charts_windChart (order : IterationOrder) : Charts windMonitor order windChart where
  cancelled h := windChart_cancelled h
  returned now h := windChart_other h (e := .returned now) not_false rfl
  callback _ h := windChart_other h not_false rfl
  error _ _ h := windChart_other h not_false rfl
  parsed h := windChart_call h (.inl (by simp [Point.rank, Call.rank])) rfl
  call hleads h := windChart_call h hleads.rank.1 hleads.rank.2
  encoded h := windChart_mono h (by simp [Point.rank])
  resumed _ h := windChart_mono h le_rfl
  sent _ _ h := windChart_mono h le_rfl
  -- a valid request has not been cancelled
  valid h n hn := absurd (h n hn).2 (by simp)
  again h := windChart_mono h (by simp [Point.rank])
  passed h := windChart_mono h (by simp [Point.rank])
  redirected _ h := windChart_call h (.inl (by simp [Point.rank, Call.rank])) rfl

/-- **What a cancelled request still calls**, wherever `cancel()` comes: its calls follow the order of their ranks,
so that it receives at most once, follows at most one redirect, and does not wait for the answer to that. -/
theorem windsDown_process (env : Env) (connections : List Connection) (info : RequestInfo)
    (handler : ResponseHandler) (now : UInt64) (cancelIn : Option Nat) :
    WindsDown ((process connections).run env (.initial info handler now cancelIn)).events :=
  windsDown_of_accepts ((charts_windChart env.order).process connections none _ nofun).1

end HttpRequest
