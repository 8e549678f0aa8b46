import HttpRequest.Foundations.Program

/-! # Monitors

A `Monitor` follows the events of a run: it has a state of its own, which every event changes, and in each
of its states it allows some events. What depends on the order of the events is an invariant that relates
the state of a monitor to that of the program, and `Watch` is the triple over both. -/

namespace Foundations

variable {ρ σ ω ε α β κ : Type}

/-- How the events of a run change the state of an observer, and which of them it allows there. -/
structure Monitor (κ ω : Type) where
  /-- The state after an event. -/
  next : κ → ω → κ
  /-- Whether an event may happen in a state. -/
  allows : κ → ω → Prop

namespace Monitor

variable (M : Monitor κ ω)

/-- The state after some events. -/
def after (k : κ) (es : List ω) : κ := es.foldl M.next k

/-- Every event is allowed in the state the events in front of it lead to. -/
def Accepts : κ → List ω → Prop
  | _, [] => True
  | k, e :: es => M.allows k e ∧ Accepts (M.next k e) es

/-- Without events the monitor stays in its state. -/
@[simp] theorem after_nil (k : κ) : M.after k [] = k := rfl

/-- The first event is taken first. -/
@[simp] theorem after_cons (k : κ) (e : ω) (es : List ω) :
    M.after k (e :: es) = M.after (M.next k e) es := rfl

/-- Two stretches of events are taken one after the other. -/
@[simp] theorem after_append (k : κ) (es es' : List ω) :
    M.after k (es ++ es') = M.after (M.after k es) es' := List.foldl_append

/-- The empty trace is accepted. -/
@[simp] theorem accepts_nil (k : κ) : M.Accepts k [] := trivial

/-- A trace is accepted when its first event is allowed and the rest is accepted behind it. -/
@[simp] theorem accepts_cons (k : κ) (e : ω) (es : List ω) :
    M.Accepts k (e :: es) ↔ M.allows k e ∧ M.Accepts (M.next k e) es := Iff.rfl

/-- What follows some events is accepted from where they lead. -/
@[simp] theorem accepts_append (k : κ) (es es' : List ω) :
    M.Accepts k (es ++ es') ↔ M.Accepts k es ∧ M.Accepts (M.after k es) es' := by
  induction es generalizing k with
  | nil => simp
  | cons e es ih => rw [List.cons_append, accepts_cons, accepts_cons, ih, after_cons, and_assoc]

variable {M}

/-- An accepted event is allowed where the events in front of it lead. -/
theorem Accepts.allows {k : κ} {front rest : List ω} {e : ω} (h : M.Accepts k (front ++ e :: rest)) :
    M.allows (M.after k front) e := ((M.accepts_append k front _).mp h).2.1

/-- What allowed events keep holds behind accepted ones. -/
theorem Accepts.invariant {I : κ → Prop} (hstep : ∀ k e, I k → M.allows k e → I (M.next k e)) {k : κ} (hk : I k)
    {es : List ω} (h : M.Accepts k es) : I (M.after k es) := by
  induction es generalizing k with
  | nil => exact hk
  | cons e es ih => exact ih (hstep k e hk h.1) h.2

/-- A trace is accepted when each of its events is allowed in every state. -/
theorem accepts_of_forall {k : κ} {es : List ω} (h : ∀ e ∈ es, ∀ k, M.allows k e) : M.Accepts k es := by
  induction es generalizing k with
  | nil => trivial
  | cons e es ih => exact ⟨h e List.mem_cons_self k, ih fun e' he' => h e' (List.mem_cons_of_mem e he')⟩

/-- Events that keep a property of the states keep it all the way. -/
theorem after_of_forall {I : κ → Prop} {es : List ω} (h : ∀ e ∈ es, ∀ k, I k → I (M.next k e)) {k : κ}
    (hk : I k) : I (M.after k es) := by
  induction es generalizing k with
  | nil => exact hk
  | cons e es ih =>
    exact ih (fun e' he' => h e' (List.mem_cons_of_mem e he')) (h e List.mem_cons_self k hk)

/-- The monitor that allows the events with `p` only, wherever they happen. -/
def always (p : ω → Prop) : Monitor Unit ω := ⟨fun _ _ => (), fun _ e => p e⟩

/-- `always p` accepts the traces whose events all satisfy `p`. -/
theorem accepts_always {p : ω → Prop} {es : List ω} :
    (always p).Accepts () es ↔ ∀ e ∈ es, p e := by
  induction es with
  | nil => simp
  | cons e es ih => rw [accepts_cons, List.forall_mem_cons, ← ih]; rfl

/-- The monitor that remembers the events, and allows all of them. -/
def history (ω : Type) : Monitor (List ω) ω := ⟨fun es e => es ++ [e], fun _ _ => True⟩

/-- The history grows by the event. -/
@[simp] theorem next_history (es : List ω) (e : ω) : (history ω).next es e = es ++ [e] := rfl

/-- The history allows every event. -/
@[simp] theorem allows_history (es : List ω) (e : ω) : (history ω).allows es e := trivial

/-- The history behind a trace is the trace itself, appended. -/
@[simp] theorem after_history (es es' : List ω) : (history ω).after es es' = es ++ es' := by
  induction es' generalizing es with
  | nil => simp
  | cons e es' ih => rw [after_cons, next_history, ih, List.append_assoc, List.singleton_append]

/-! ### Assumptions

A property of the events may hold as long as others do: an observer asks for `q` while he has seen `p`. -/

section

variable (next : κ → ω → κ) (p q : κ → ω → Prop)

/-- Two properties all the way are both of them all the way. -/
theorem accepts_and {k : κ} {es : List ω} :
    (⟨next, fun k e => p k e ∧ q k e⟩ : Monitor κ ω).Accepts k es ↔
      (⟨next, p⟩ : Monitor κ ω).Accepts k es ∧ (⟨next, q⟩ : Monitor κ ω).Accepts k es := by
  induction es generalizing k with
  | nil => simp
  | cons e es ih =>
    rw [accepts_cons, accepts_cons, accepts_cons]
    dsimp only
    rw [ih]
    exact and_and_and_comm

/-- The monitor that asks an event for `q` if that event and all in front of it have had `p`. Its state says
whether the events in front have. -/
def assuming : Monitor (κ × Prop) ω where
  next k e := (next k.1 e, k.2 ∧ p k.1 e)
  allows k e := k.2 → p k.1 e → q k.1 e

/-- What is asked for all the way, where the assumption has been kept in front, is asked for under it. -/
theorem accepts_assuming {k : κ} {seen : Prop} {es : List ω}
    (h : seen → (⟨next, q⟩ : Monitor κ ω).Accepts k es) : (assuming next p q).Accepts (k, seen) es := by
  induction es generalizing k seen with
  | nil => trivial
  | cons e es ih => exact ⟨fun hseen _ => (h hseen).1, ih fun hseen => (h hseen.1).2⟩

/-- The first component of an assuming monitor is that of the state it follows. -/
theorem after_assuming_fst (k : κ) (seen : Prop) (es : List ω) :
    ((assuming next p q).after (k, seen) es).1 = es.foldl next k := by
  induction es generalizing k seen with
  | nil => rfl
  | cons e es ih => exact ih _ _

/-- What has been assumed behind some events has been assumed in front of them and kept by them. -/
theorem after_assuming_snd {k : κ} {seen : Prop} {es : List ω} :
    ((assuming next p q).after (k, seen) es).2 ↔ seen ∧ (⟨next, p⟩ : Monitor κ ω).Accepts k es := by
  induction es generalizing k seen with
  | nil => exact (iff_of_eq (and_true seen)).symm
  | cons e es ih => exact ih.trans and_assoc

/-- Events that keep the assumption all the way keep what is asked for all the way. -/
theorem accepts_of_assuming {k : κ} {es : List ω} (h : (assuming next p q).Accepts (k, True) es)
    (hp : (⟨next, p⟩ : Monitor κ ω).Accepts k es) : (⟨next, q⟩ : Monitor κ ω).Accepts k es := by
  suffices hgeneral : ∀ seen : Prop, seen → (assuming next p q).Accepts (k, seen) es →
      (⟨next, q⟩ : Monitor κ ω).Accepts k es from hgeneral True trivial h
  clear h
  induction es generalizing k with
  | nil => exact fun _ _ _ => trivial
  | cons e es ih =>
    intro seen hseen h
    exact ⟨h.1 hseen hp.1, ih hp.2 (seen ∧ p k e) ⟨hseen, hp.1⟩ h.2⟩

end

/-! ### Rising events

Some events have a rank, and from a moment on each of them has to stand above those in front of it. -/

section

variable (starts : ω → Prop) [DecidablePred starts] (rank : ω → Option ℕ) (above : ℕ → ℕ → Prop)

/-- The monitor that, behind an event with `starts`, asks the rank of an event to be `above` the last one. Its
state is the last rank, `0` where there has been none, and `none` in front of the first event with `starts`. -/
def rising : Monitor (Option ℕ) ω where
  next last e := if starts e then some (last.getD 0) else last.map fun n => (rank e).getD n
  allows last e := ∀ n ∈ last, ∀ m ∈ rank e, above n m

variable {starts rank above}

/-- A starting event sets the rank to `0` unless one has been set. -/
theorem next_rising_of_starts {last : Option ℕ} {e : ω} (he : starts e) :
    (rising starts rank above).next last e = some (last.getD 0) := if_pos he

/-- Any other event moves the rank only once one has been set. -/
theorem next_rising_of_not_starts {last : Option ℕ} {e : ω} (he : ¬starts e) :
    (rising starts rank above).next last e = last.map fun n => (rank e).getD n := if_neg he

/-- Where the ranks have to rise, those of the events that follow are above one another. -/
theorem Accepts.pairwise_rising [IsTrans ℕ above] (hstarts : ∀ e, starts e → rank e = none) {n : ℕ} {es : List ω}
    (h : (rising starts rank above).Accepts (some n) es) :
    (∀ m ∈ es.filterMap rank, above n m) ∧ (es.filterMap rank).Pairwise above := by
  induction es generalizing n with
  | nil => simp
  | cons e es ih =>
    obtain ⟨hallows, hrest⟩ := h
    cases hrank : rank e with
    | none =>
      have hnext : (rising starts rank above).next (some n) e = some n := by
        by_cases he : starts e
        · exact next_rising_of_starts he
        · rw [next_rising_of_not_starts he, hrank]
          rfl
      rw [List.filterMap_cons_none hrank]
      exact ih (hnext ▸ hrest)
    | some m =>
      have he : ¬starts e := fun he => by simp [hstarts e he] at hrank
      have hnext : (rising starts rank above).next (some n) e = some m := by
        rw [next_rising_of_not_starts he, hrank]
        rfl
      obtain ⟨hmem, hpairwise⟩ := ih (hnext ▸ hrest)
      have hfirst : above n m := hallows n rfl m hrank
      rw [List.filterMap_cons_some hrank]
      exact ⟨List.forall_mem_cons.mpr ⟨hfirst, fun m' hm' => IsTrans.trans n m m' hfirst (hmem m' hm')⟩,
        List.pairwise_cons.mpr ⟨hmem, hpairwise⟩⟩

end

end Monitor

namespace Program

/-- A program with its precondition, its postcondition and what holds where it stops, all of them about
the state of a monitor and that of the program; the monitor accepts its events. -/
def Watch (M : Monitor κ ω) (env : ρ) (P : κ → σ → Prop) (m : Program ρ σ ω ε α) (Q : α → κ → σ → Prop)
    (E : ε → κ → σ → Prop) : Prop :=
  ∀ k s, P k s → M.Accepts k (m.run env s).events ∧
    match (m.run env s).outcome with
    | .ok a => Q a (M.after k (m.run env s).events) (m.run env s).state
    | .error e => E e (M.after k (m.run env s).events) (m.run env s).state

namespace Watch

variable {M : Monitor κ ω} {env : ρ} {P : κ → σ → Prop} {m : Program ρ σ ω ε α} {Q : α → κ → σ → Prop}
  {E : ε → κ → σ → Prop}

/-- Returning shows nothing. -/
theorem pure {a : α} (h : ∀ k s, P k s → Q a k s) :
    Watch M env P (Pure.pure a : Program ρ σ ω ε α) Q E := fun k s hs => ⟨trivial, h k s hs⟩

/-- Stopping shows nothing. -/
theorem stop {e : ε} (h : ∀ k s, P k s → E e k s) :
    Watch M env P (stop e : Program ρ σ ω ε α) Q E := fun k s hs => ⟨trivial, h k s hs⟩

/-- A change of the state shows nothing. -/
theorem update {f : σ → σ} {Q : Unit → κ → σ → Prop} (h : ∀ k s, P k s → Q () k (f s)) :
    Watch M env P (update f : Program ρ σ ω ε Unit) Q E := fun k s hs => ⟨trivial, h k s hs⟩

/-- An event must be allowed, and the monitor moves with it. -/
theorem emit {e : ω} {Q : Unit → κ → σ → Prop} (hallows : ∀ k s, P k s → M.allows k e)
    (h : ∀ k s, P k s → Q () (M.next k e) s) : Watch M env P (emit e : Program ρ σ ω ε Unit) Q E :=
  fun k s hs => ⟨⟨hallows k s hs, trivial⟩, h k s hs⟩

/-- The postcondition of the first part is the precondition of the second. -/
theorem bind {R : β → κ → σ → Prop} {f : α → Program ρ σ ω ε β} (h : Watch M env P m Q E)
    (hf : ∀ a, Watch M env (Q a) (f a) R E) : Watch M env P (m >>= f) R E := by
  intro k s hs
  have hm := h k s hs
  rw [run_bind]
  generalize m.run env s = r at hm
  obtain ⟨o, t, es⟩ := r
  cases o with
  | error e => exact hm
  | ok a =>
    obtain ⟨haccepts, hresult⟩ := hf a _ t hm.2
    rw [Run.andThen_ok, Run.prepend_events, Monitor.accepts_append, Monitor.after_append]
    exact ⟨⟨hm.1, haccepts⟩, hresult⟩

/-- Reading the state in front of a program that depends on it. -/
theorem bind_state {R : β → κ → σ → Prop} {f : σ → Program ρ σ ω ε β}
    (h : ∀ s, Watch M env (fun k t => t = s ∧ P k t) (f s) R E) :
    Watch M env P (Program.state >>= f) R E :=
  bind (Q := fun s k t => t = s ∧ P k t) (fun _ _ hs => ⟨trivial, rfl, hs⟩) h

/-- What the precondition says beside the state. -/
theorem assume {c : Prop} (hP : ∀ k s, P k s → c) (h : c → Watch M env P m Q E) : Watch M env P m Q E :=
  fun k s hs => h (hP k s hs) k s hs

/-- Reading the environment in front of a program that depends on it. -/
theorem bind_read {R : β → κ → σ → Prop} {f : ρ → Program ρ σ ω ε β} (h : Watch M env P (f env) R E) :
    Watch M env P (Program.read >>= f) R E :=
  fun k s hs => h k s hs

/-- The rule for a branch: each side under its condition. -/
theorem ite {c : Prop} [Decidable c] {m' : Program ρ σ ω ε α} (hm : c → Watch M env P m Q E)
    (hm' : ¬c → Watch M env P m' Q E) : Watch M env P (if c then m else m') Q E := by
  by_cases hc : c
  · rw [if_pos hc]
    exact hm hc
  · rw [if_neg hc]
    exact hm' hc

/-- The rule of consequence. -/
theorem conseq {P' : κ → σ → Prop} {Q' : α → κ → σ → Prop} (h : Watch M env P m Q E)
    (hP : ∀ k s, P' k s → P k s) (hQ : ∀ a k s, Q a k s → Q' a k s) : Watch M env P' m Q' E := by
  intro k s hs
  obtain ⟨haccepts, hm⟩ := h k s (hP k s hs)
  refine ⟨haccepts, ?_⟩
  generalize m.run env s = r at hm
  obtain ⟨o, t, es⟩ := r
  cases o with
  | ok a => exact hQ a _ t hm
  | error e => exact hm

/-- A program whose run is known. -/
theorem of_run {f : σ → σ} {events : σ → List ω} {a : α}
    (hrun : ∀ s, m.run env s = ⟨.ok a, f s, events s⟩)
    (h : ∀ k s, P k s → M.Accepts k (events s) ∧ Q a (M.after k (events s)) (f s)) :
    Watch M env P m Q E := by
  intro k s hs
  rw [hrun s]
  exact h k s hs

/-- Every event of a watched run is allowed where the events in front of it lead. -/
theorem allows (h : Watch M env P m Q E) {k : κ} {s : σ} (hs : P k s) {front rest : List ω} {e : ω}
    (hevents : (m.run env s).events = front ++ e :: rest) : M.allows (M.after k front) e :=
  Monitor.Accepts.allows (hevents ▸ (h k s hs).1)

/-- What holds where a watched run returns. -/
theorem returns (h : Watch M env P m Q E) {k : κ} {s : σ} (hs : P k s) {a : α}
    (houtcome : (m.run env s).outcome = .ok a) :
    Q a (M.after k (m.run env s).events) (m.run env s).state := by
  have hresult := (h k s hs).2
  rw [houtcome] at hresult
  exact hresult

/-- What holds where a watched run stops. -/
theorem stops (h : Watch M env P m Q E) {k : κ} {s : σ} (hs : P k s) {e : ε}
    (houtcome : (m.run env s).outcome = .error e) :
    E e (M.after k (m.run env s).events) (m.run env s).state := by
  have hresult := (h k s hs).2
  rw [houtcome] at hresult
  exact hresult

end Watch

end Program

end Foundations
