import Mathlib

/-! # Programs that read, update, emit and stop

A `Program` reads an environment, updates a state, emits events and either returns a value or stops
for a reason. Running one yields a `Run`: the outcome, the state reached and the events emitted, also
when the program stopped halfway. Events are relative to the start of the program, so the events of a
sequence are those of its parts one behind the other.

A program whose last act is to call another one is written against a marker that stops it at the call;
`Run.resume` puts the callee in the marker's place, and `Run.resume_andThen` moves that replacement
through a sequence. -/

namespace Foundations

variable {ρ σ ω ε α β γ : Type}

/-! ### Runs -/

/-- What running a program leaves: its outcome, the state reached and the events emitted. -/
structure Run (σ ω ε α : Type) where
  /-- The value returned, or the reason for which the program stopped. -/
  outcome : Except ε α
  /-- The state reached. -/
  state : σ
  /-- The events emitted, the oldest first. -/
  events : List ω
  deriving DecidableEq

namespace Run

/-- The run with events put in front of its own. -/
def prepend (es : List ω) (r : Run σ ω ε α) : Run σ ω ε α :=
  ⟨r.outcome, r.state, es ++ r.events⟩

/-- Events in front do not change the outcome. -/
@[simp] theorem prepend_outcome (es : List ω) (r : Run σ ω ε α) :
    (r.prepend es).outcome = r.outcome := rfl

/-- Events in front do not change the state. -/
@[simp] theorem prepend_state (es : List ω) (r : Run σ ω ε α) :
    (r.prepend es).state = r.state := rfl

/-- The events prepended come first. -/
@[simp] theorem prepend_events (es : List ω) (r : Run σ ω ε α) :
    (r.prepend es).events = es ++ r.events := rfl

/-- Prepending to a run given by its parts. -/
@[simp] theorem prepend_mk (es es' : List ω) (o : Except ε α) (s : σ) :
    (⟨o, s, es'⟩ : Run σ ω ε α).prepend es = ⟨o, s, es ++ es'⟩ := rfl

/-- Prepending no events changes nothing. -/
@[simp] theorem prepend_nil (r : Run σ ω ε α) : r.prepend [] = r := rfl

/-- Prepending twice is prepending the concatenation. -/
@[simp] theorem prepend_prepend (es es' : List ω) (r : Run σ ω ε α) :
    (r.prepend es').prepend es = r.prepend (es ++ es') := by
  simp [prepend]

/-- Continue a run that returned; a run that stopped stays as it is. -/
def andThen (r : Run σ ω ε α) (f : α → σ → Run σ ω ε β) : Run σ ω ε β :=
  match r.outcome with
  | .ok a => (f a r.state).prepend r.events
  | .error e => ⟨.error e, r.state, r.events⟩

/-- A run that returned goes on with the continuation, its events in front. -/
@[simp] theorem andThen_ok (a : α) (s : σ) (es : List ω) (f : α → σ → Run σ ω ε β) :
    (⟨.ok a, s, es⟩ : Run σ ω ε α).andThen f = (f a s).prepend es := rfl

/-- A run that stopped does not go on. -/
@[simp] theorem andThen_error (e : ε) (s : σ) (es : List ω) (f : α → σ → Run σ ω ε β) :
    (⟨.error e, s, es⟩ : Run σ ω ε α).andThen f = ⟨.error e, s, es⟩ := rfl

/-- Prepending commutes with going on. -/
@[simp] theorem prepend_andThen (es : List ω) (r : Run σ ω ε α) (f : α → σ → Run σ ω ε β) :
    (r.prepend es).andThen f = (r.andThen f).prepend es := by
  obtain ⟨o, s, es'⟩ := r
  cases o <;> simp

/-- What follows a run takes none of its events back. -/
theorem mem_andThen {r : Run σ ω ε α} {e : ω} (h : e ∈ r.events) (f : α → σ → Run σ ω ε β) :
    e ∈ (r.andThen f).events := by
  obtain ⟨o, s, es⟩ := r
  cases o with
  | ok a => exact List.mem_append_left _ h
  | error _ => exact h

/-- Going on is associative. -/
theorem andThen_assoc (r : Run σ ω ε α) (f : α → σ → Run σ ω ε β) (g : β → σ → Run σ ω ε γ) :
    (r.andThen f).andThen g = r.andThen fun a s => (f a s).andThen g := by
  obtain ⟨o, s, es⟩ := r
  cases o <;> simp

/-- Returning the result at once changes nothing. -/
theorem andThen_ok_self (r : Run σ ω ε α) : (r.andThen fun a s => ⟨.ok a, s, []⟩) = r := by
  obtain ⟨o, s, es⟩ := r
  cases o <;> simp

/-! ### Resuming a run that stopped at a call -/

/-- Resume a run that stopped: where `k` knows the reason, the run goes on as `k` says. -/
def resume (k : ε → Option (σ → Run σ ω ε α)) (r : Run σ ω ε α) : Run σ ω ε α :=
  match r.outcome with
  | .ok _ => r
  | .error e => match k e with
    | some f => (f r.state).prepend r.events
    | none => r

/-- A run that returned has nothing to resume. -/
@[simp] theorem resume_ok (k : ε → Option (σ → Run σ ω ε α)) (a : α) (s : σ) (es : List ω) :
    (⟨.ok a, s, es⟩ : Run σ ω ε α).resume k = ⟨.ok a, s, es⟩ := rfl

/-- A stop with a continuation goes on with it. -/
theorem resume_some {k : ε → Option (σ → Run σ ω ε α)} {e : ε} {f : σ → Run σ ω ε α}
    (h : k e = some f) (s : σ) (es : List ω) :
    (⟨.error e, s, es⟩ : Run σ ω ε α).resume k = (f s).prepend es := by
  simp [resume, h]

/-- A stop without a continuation stays a stop. -/
theorem resume_none {k : ε → Option (σ → Run σ ω ε α)} {e : ε} (h : k e = none) (s : σ)
    (es : List ω) : (⟨.error e, s, es⟩ : Run σ ω ε α).resume k = ⟨.error e, s, es⟩ := by
  simp [resume, h]

/-- Prepending commutes with resuming. -/
@[simp] theorem resume_prepend (k : ε → Option (σ → Run σ ω ε α)) (es : List ω)
    (r : Run σ ω ε α) : (r.prepend es).resume k = (r.resume k).prepend es := by
  obtain ⟨o, s, es'⟩ := r
  cases o with
  | ok a => rfl
  | error e =>
    cases h : k e with
    | none => rw [prepend_mk, resume_none h, resume_none h, prepend_mk]
    | some f => rw [prepend_mk, resume_some h, resume_some h, prepend_prepend]

/-- A first part that stops for no reason `k` knows lets the resumption through to the second. -/
theorem resume_andThen {k : ε → Option (σ → Run σ ω ε β)} {r : Run σ ω ε α}
    (h : ∀ e, r.outcome = .error e → k e = none) (f : α → σ → Run σ ω ε β) :
    (r.andThen f).resume k = r.andThen fun a s => (f a s).resume k := by
  obtain ⟨o, s, es⟩ := r
  cases o with
  | ok a => simp
  | error e => simp [resume_none (h e rfl)]

end Run

/-- What an observer sees of a run who sees maps of its events and of the reason it stopped for. -/
def Run.seen {ω' ε' : Type} (f : ω → ω') (g : ε → ε') (r : Run σ ω ε α) : Run σ ω' ε' α :=
  ⟨r.outcome.mapError g, r.state, r.events.map f⟩

/-- Prepending commutes with translating the events. -/
theorem Run.seen_prepend {ω' ε' : Type} (f : ω → ω') (g : ε → ε') (es : List ω) (r : Run σ ω ε α) :
    (r.prepend es).seen f g = (r.seen f g).prepend (es.map f) := by
  simp [Run.seen, Run.prepend]

/-! ### Programs -/

/-- A program over an environment `ρ` and a state `σ` that emits events `ω` and may stop with `ε`. -/
structure Program (ρ σ ω ε α : Type) where
  /-- The run from an environment and a state. -/
  run : ρ → σ → Run σ ω ε α

namespace Program

/-- Two programs are equal when all their runs are. -/
theorem ext {m n : Program ρ σ ω ε α} (h : ∀ env s, m.run env s = n.run env s) : m = n := by
  obtain ⟨m⟩ := m
  obtain ⟨n⟩ := n
  congr 1
  funext env s
  exact h env s

instance : Monad (Program ρ σ ω ε) where
  pure a := ⟨fun _ s => ⟨.ok a, s, []⟩⟩
  bind m f := ⟨fun env s => (m.run env s).andThen fun a => (f a).run env⟩

/-- Returning shows no event and leaves the state alone. -/
@[simp] theorem run_pure (a : α) (env : ρ) (s : σ) :
    (pure a : Program ρ σ ω ε α).run env s = ⟨.ok a, s, []⟩ := rfl

/-- A bind runs the first program and goes on with the second. -/
@[simp] theorem run_bind (m : Program ρ σ ω ε α) (f : α → Program ρ σ ω ε β) (env : ρ) (s : σ) :
    (m >>= f).run env s = (m.run env s).andThen fun a => (f a).run env := rfl

/-- A map runs the program and changes its result. -/
@[simp] theorem run_map (f : α → β) (m : Program ρ σ ω ε α) (env : ρ) (s : σ) :
    (f <$> m).run env s = (m.run env s).andThen fun a t => ⟨.ok (f a), t, []⟩ := rfl

instance : LawfulMonad (Program ρ σ ω ε) :=
  LawfulMonad.mk' _
    (fun m => ext fun env s => Run.andThen_ok_self (m.run env s))
    (fun _ _ => rfl)
    (fun m f g => ext fun env s => Run.andThen_assoc (m.run env s) _ _)

/-- Read the environment. -/
def read : Program ρ σ ω ε ρ :=
  ⟨fun env s => ⟨.ok env, s, []⟩⟩

/-- Read the state. -/
def state : Program ρ σ ω ε σ := ⟨fun _ s => ⟨.ok s, s, []⟩⟩

/-- Change the state. -/
def update (f : σ → σ) : Program ρ σ ω ε Unit := ⟨fun _ s => ⟨.ok (), f s, []⟩⟩

/-- Emit an event. -/
def emit (e : ω) : Program ρ σ ω ε Unit := ⟨fun _ s => ⟨.ok (), s, [e]⟩⟩

/-- Stop the program. -/
def stop (e : ε) : Program ρ σ ω ε α := ⟨fun _ s => ⟨.error e, s, []⟩⟩

/-- Nothing follows a stop. -/
@[simp] theorem stop_bind (e : ε) (f : α → Program ρ σ ω ε β) :
    (stop e >>= f : Program ρ σ ω ε β) = stop e := rfl

/-- Reading the environment shows no event. -/
@[simp] theorem run_read (env : ρ) (s : σ) :
    (read : Program ρ σ ω ε ρ).run env s = ⟨.ok env, s, []⟩ := rfl

/-- Reading the state shows no event. -/
@[simp] theorem run_state (env : ρ) (s : σ) :
    (state : Program ρ σ ω ε σ).run env s = ⟨.ok s, s, []⟩ := rfl

/-- An update changes the state and shows no event. -/
@[simp] theorem run_update (f : σ → σ) (env : ρ) (s : σ) :
    (update f : Program ρ σ ω ε Unit).run env s = ⟨.ok (), f s, []⟩ := rfl

/-- Emitting shows the event and leaves the state alone. -/
@[simp] theorem run_emit (e : ω) (env : ρ) (s : σ) :
    (emit e : Program ρ σ ω ε Unit).run env s = ⟨.ok (), s, [e]⟩ := rfl

/-- Stopping shows no event and leaves the state alone. -/
@[simp] theorem run_stop (e : ε) (env : ρ) (s : σ) :
    (stop e : Program ρ σ ω ε α).run env s = ⟨.error e, s, []⟩ := rfl

end Program

/-! ### Simulation

Two programs simulate each other along a relation on their values when, from every environment and
state, they stop for the same reason or return related values, in the same state and after the same
events. A program over concrete data is related in this way to the same program over what the data
stand for. -/

/-- Two outcomes are the same stop or related values. -/
inductive OutcomeRel (R : α → β → Prop) : Except ε α → Except ε β → Prop
  | ok {a : α} {b : β} : R a b → OutcomeRel R (.ok a) (.ok b)
  | error (e : ε) : OutcomeRel R (.error e) (.error e)

/-- Two runs with related outcomes, the same state and the same events. -/
structure Run.Rel (R : α → β → Prop) (r : Run σ ω ε α) (q : Run σ ω ε β) : Prop where
  outcome : OutcomeRel R r.outcome q.outcome
  state : r.state = q.state
  events : r.events = q.events

/-- Runs related by equality are equal. -/
theorem Run.Rel.eq {r q : Run σ ω ε α} (h : Run.Rel (· = ·) r q) : r = q := by
  obtain ⟨o, t, es⟩ := r
  obtain ⟨o', t', es'⟩ := q
  obtain ⟨houtcome, hstate, hevents⟩ := h
  dsimp only at houtcome hstate hevents
  subst hstate hevents
  cases houtcome with
  | error e => rfl
  | ok hab => rw [hab]

/-- Two programs whose runs are related. -/
def Program.Sim (R : α → β → Prop) (m : Program ρ σ ω ε α) (n : Program ρ σ ω ε β) : Prop :=
  ∀ env s, Run.Rel R (m.run env s) (n.run env s)

namespace Program

variable {R : α → β → Prop} {m : Program ρ σ ω ε α} {n : Program ρ σ ω ε β}

/-- Every program simulates itself. -/
theorem Sim.refl (m : Program ρ σ ω ε α) : Sim (· = ·) m m := by
  intro env s
  refine ⟨?_, rfl, rfl⟩
  cases (m.run env s).outcome with
  | ok a => exact .ok rfl
  | error e => exact .error e

/-- Related results are returned alike. -/
theorem Sim.pure {a : α} {b : β} (h : R a b) :
    Sim R (Pure.pure a : Program ρ σ ω ε α) (Pure.pure b : Program ρ σ ω ε β) :=
  fun _ _ => ⟨.ok h, rfl, rfl⟩

/-- Equal stops are alike. -/
theorem Sim.stop (e : ε) : Sim R (stop e : Program ρ σ ω ε α) (stop e : Program ρ σ ω ε β) :=
  fun _ _ => ⟨.error e, rfl, rfl⟩

/-- Sequences simulate each other when their first parts do and their second parts do from related
values. -/
theorem Sim.bind {γ δ : Type} {S : γ → δ → Prop} {f : α → Program ρ σ ω ε γ}
    {g : β → Program ρ σ ω ε δ} (h : Sim R m n) (hfg : ∀ a b, R a b → Sim S (f a) (g b)) :
    Sim S (m >>= f) (n >>= g) := by
  intro env s
  have hmn := h env s
  rw [run_bind, run_bind]
  generalize m.run env s = r at hmn
  generalize n.run env s = q at hmn
  obtain ⟨o, t, es⟩ := r
  obtain ⟨o', t', es'⟩ := q
  obtain ⟨houtcome, hstate, hevents⟩ := hmn
  dsimp only at houtcome hstate hevents
  subst hstate hevents
  cases houtcome with
  | error e => exact ⟨.error e, rfl, rfl⟩
  | @ok a b hab =>
    rw [Run.andThen_ok, Run.andThen_ok]
    have hk := hfg a b hab env t
    exact ⟨hk.outcome, hk.state, congrArg (es ++ ·) hk.events⟩

/-- Sequences with the same first part. -/
theorem Sim.bind_left {γ : Type} {l : Program ρ σ ω ε γ} {f : γ → Program ρ σ ω ε α}
    {g : γ → Program ρ σ ω ε β} (h : ∀ c, Sim R (f c) (g c)) : Sim R (l >>= f) (l >>= g) := by
  apply Sim.bind (Sim.refl l)
  rintro c _ rfl
  exact h c

/-- Programs that simulate each other along equality are equal. -/
theorem Sim.eq {n : Program ρ σ ω ε α} (h : Sim (· = ·) m n) : m = n := ext fun env s => (h env s).eq

/-! ### Programs as an observer sees them

An observer who sees a map of the events and a map of the reasons to stop sees a program himself. Two
programs look the same to him when what he sees of them simulates each other. -/

section

variable {ω' ε' : Type} (f : ω → ω') (g : ε → ε')

/-- What an observer sees of a program. -/
def seen (m : Program ρ σ ω ε α) : Program ρ σ ω' ε' α :=
  ⟨fun env s => (m.run env s).seen f g⟩

/-- The run of a translated program is the translated run. -/
@[simp] theorem run_seen (m : Program ρ σ ω ε α) (env : ρ) (s : σ) :
    (m.seen f g).run env s = (m.run env s).seen f g := rfl

/-- Translating a return changes nothing. -/
@[simp] theorem seen_pure (a : α) : (pure a : Program ρ σ ω ε α).seen f g = pure a := rfl

/-- Translating a stop translates its cause. -/
@[simp] theorem seen_stop (e : ε) : (stop e : Program ρ σ ω ε α).seen f g = stop (g e) := rfl

/-- Translating an emission translates its event. -/
@[simp] theorem seen_emit (e : ω) : (emit e : Program ρ σ ω ε Unit).seen f g = emit (f e) := rfl

/-- What is seen of a sequence is the sequence of what is seen. -/
@[simp] theorem seen_bind (m : Program ρ σ ω ε α) (k : α → Program ρ σ ω ε β) :
    (m >>= k).seen f g = m.seen f g >>= fun a => (k a).seen f g := by
  refine ext fun env s => ?_
  rw [run_seen, run_bind, run_bind, run_seen]
  generalize m.run env s = r
  obtain ⟨o, t, es⟩ := r
  cases o with
  | ok a =>
    rw [Run.andThen_ok]
    exact Run.seen_prepend f g es ((k a).run env t)
  | error e => rfl

end

/-! ### Triples

`Triple P m Q E p` says what holds when `m` is started in a state with `P`: of the state it returns a
value in, `Q` with the value; of the state it stops in, `E` with the reason; and of every event it emits,
`p`. -/

/-- A program with its precondition, its postcondition, what holds where it stops, and what holds of its
events. -/
def Triple (P : σ → Prop) (m : Program ρ σ ω ε α) (Q : α → σ → Prop) (E : ε → σ → Prop)
    (p : ω → Prop) : Prop :=
  ∀ env s, P s →
    (match (m.run env s).outcome with
      | .ok a => Q a (m.run env s).state
      | .error e => E e (m.run env s).state) ∧
    ∀ e ∈ (m.run env s).events, p e

variable {P : σ → Prop} {Q : α → σ → Prop} {E : ε → σ → Prop} {p : ω → Prop}

/-- The rule for returning. -/
theorem Triple.pure {a : α} (h : ∀ s, P s → Q a s) :
    Triple P (Pure.pure a : Program ρ σ ω ε α) Q E p :=
  fun _ s hs => ⟨h s hs, fun _ he => absurd he List.not_mem_nil⟩

/-- The rule for stopping. -/
theorem Triple.stop {e : ε} (h : ∀ s, P s → E e s) :
    Triple P (stop e : Program ρ σ ω ε α) Q E p :=
  fun _ s hs => ⟨h s hs, fun _ he => absurd he List.not_mem_nil⟩

/-- The rule for reading the state. -/
theorem Triple.state {Q : σ → σ → Prop} (h : ∀ s, P s → Q s s) :
    Triple P (state : Program ρ σ ω ε σ) Q E p :=
  fun _ s hs => ⟨h s hs, fun _ he => absurd he List.not_mem_nil⟩

/-- The rule for reading the environment. -/
theorem Triple.read {Q : ρ → σ → Prop} (h : ∀ env s, P s → Q env s) :
    Triple P (read : Program ρ σ ω ε ρ) Q E p :=
  fun env s hs => ⟨h env s hs, fun _ he => absurd he List.not_mem_nil⟩

/-- The rule for changing the state. -/
theorem Triple.update {f : σ → σ} {Q : Unit → σ → Prop} (h : ∀ s, P s → Q () (f s)) :
    Triple P (update f : Program ρ σ ω ε Unit) Q E p :=
  fun _ s hs => ⟨h s hs, fun _ he => absurd he List.not_mem_nil⟩

/-- The rule for an event: the events' property must hold of it. -/
theorem Triple.emit {e : ω} {Q : Unit → σ → Prop} (h : ∀ s, P s → Q () s) (he : p e) :
    Triple P (emit e : Program ρ σ ω ε Unit) Q E p :=
  fun _ s hs => ⟨h s hs, fun _ hmem => List.mem_singleton.mp hmem ▸ he⟩

/-- The postcondition of the first part is the precondition of the second. -/
theorem Triple.bind {R : β → σ → Prop} {f : α → Program ρ σ ω ε β} (h : Triple P m Q E p)
    (hf : ∀ a, Triple (Q a) (f a) R E p) : Triple P (m >>= f) R E p := by
  intro env s hs
  have hm := h env s hs
  rw [run_bind]
  generalize m.run env s = r at hm
  obtain ⟨o, t, es⟩ := r
  cases o with
  | error e => exact hm
  | ok a =>
    obtain ⟨hresult, hevents⟩ := hf a env t hm.1
    refine ⟨hresult, fun e he => ?_⟩
    rcases List.mem_append.mp he with he | he
    · exact hm.2 e he
    · exact hevents e he

/-- The rule for a branch. -/
theorem Triple.ite {c : Prop} [Decidable c] {m' : Program ρ σ ω ε α} (hm : Triple P m Q E p)
    (hm' : Triple P m' Q E p) : Triple P (if c then m else m') Q E p := by
  by_cases hc : c
  · rw [if_pos hc]
    exact hm
  · rw [if_neg hc]
    exact hm'

/-- The rule of consequence. -/
theorem Triple.conseq {P' : σ → Prop} {Q' : α → σ → Prop} {E' : ε → σ → Prop} {p' : ω → Prop}
    (h : Triple P m Q E p) (hP : ∀ s, P' s → P s) (hQ : ∀ a s, Q a s → Q' a s)
    (hE : ∀ e s, E e s → E' e s) (hp : ∀ e, p e → p' e) : Triple P' m Q' E' p' := by
  intro env s hs
  obtain ⟨hm, hevents⟩ := h env s (hP s hs)
  refine ⟨?_, fun e he => hp e (hevents e he)⟩
  generalize m.run env s = r at hm
  obtain ⟨o, t, es⟩ := r
  cases o with
  | error e => exact hE e t hm
  | ok a => exact hQ a t hm

/-- What holds where a program returns. -/
theorem Triple.returns (h : Triple P m Q E p) {env : ρ} {s : σ} (hs : P s) {a : α}
    (houtcome : (m.run env s).outcome = .ok a) : Q a (m.run env s).state := by
  have hresult := (h env s hs).1
  rw [houtcome] at hresult
  exact hresult

/-! ### Invariants -/

/-- A program that keeps `I`, stops only where `E` holds, and emits events with `p` only. -/
def Keeps (I : σ → Prop) (E : ε → σ → Prop) (p : ω → Prop) (m : Program ρ σ ω ε α) : Prop :=
  Triple I m (fun _ => I) E p

variable {I : σ → Prop}

/-- Returning keeps every invariant. -/
theorem Keeps.pure (a : α) : Keeps I E p (Pure.pure a : Program ρ σ ω ε α) :=
  Triple.pure fun _ hs => hs

/-- Stopping ends with what the invariant gives. -/
theorem Keeps.stop {e : ε} (h : ∀ s, I s → E e s) : Keeps I E p (stop e : Program ρ σ ω ε α) :=
  Triple.stop h

/-- Reading the environment keeps every invariant. -/
theorem Keeps.read : Keeps I E p (read : Program ρ σ ω ε ρ) := Triple.read fun _ _ hs => hs

/-- Reading the state keeps every invariant. -/
theorem Keeps.state : Keeps I E p (state : Program ρ σ ω ε σ) := Triple.state fun _ hs => hs

/-- An update keeps the invariant when its function does. -/
theorem Keeps.update {f : σ → σ} (h : ∀ s, I s → I (f s)) :
    Keeps I E p (update f : Program ρ σ ω ε Unit) := Triple.update h

/-- An event keeps the invariant when the events' property holds of it. -/
theorem Keeps.emit {e : ω} (he : p e) : Keeps I E p (emit e : Program ρ σ ω ε Unit) :=
  Triple.emit (fun _ hs => hs) he

/-- A bind keeps the invariant when both parts do. -/
theorem Keeps.bind {f : α → Program ρ σ ω ε β} (hm : Keeps I E p m) (hf : ∀ a, Keeps I E p (f a)) :
    Keeps I E p (m >>= f) := Triple.bind hm hf

/-- A branch keeps the invariant when both sides do. -/
theorem Keeps.ite {c : Prop} [Decidable c] {m' : Program ρ σ ω ε α} (hm : Keeps I E p m)
    (hm' : Keeps I E p m') : Keeps I E p (if c then m else m') := Triple.ite hm hm'

/-! ### Simulation from an invariant -/

/-- Two programs whose runs from the states with `I` are related. -/
def SimOn (I : σ → Prop) (R : α → β → Prop) (m : Program ρ σ ω ε α) (n : Program ρ σ ω ε β) : Prop :=
  ∀ env s, I s → Run.Rel R (m.run env s) (n.run env s)

/-- A program that keeps `I`, wherever it stops and whatever it emits. -/
def Preserves (I : σ → Prop) (m : Program ρ σ ω ε α) : Prop :=
  Keeps I (fun _ _ => True) (fun _ => True) m

/-- The first part keeps what the second parts start from. -/
theorem SimOn.bind {n : Program ρ σ ω ε β} {γ δ : Type} {R : α → β → Prop} {S : γ → δ → Prop}
    {f : α → Program ρ σ ω ε γ} {g : β → Program ρ σ ω ε δ} (hm : Preserves I m) (h : SimOn I R m n)
    (hfg : ∀ a b, R a b → SimOn I S (f a) (g b)) : SimOn I S (m >>= f) (n >>= g) := by
  intro env s hs
  have hkeep := (hm env s hs).1
  have hmn := h env s hs
  rw [run_bind, run_bind]
  generalize m.run env s = r at hkeep hmn
  generalize n.run env s = q at hmn
  obtain ⟨o, t, es⟩ := r
  obtain ⟨o', t', es'⟩ := q
  obtain ⟨houtcome, hstate, hevents⟩ := hmn
  dsimp only at houtcome hstate hevents
  subst hstate hevents
  cases houtcome with
  | error e => exact ⟨.error e, rfl, rfl⟩
  | @ok a b hab =>
    rw [Run.andThen_ok, Run.andThen_ok]
    have hk := hfg a b hab env t hkeep
    exact ⟨hk.outcome, hk.state, congrArg (es ++ ·) hk.events⟩

/-- Sequences with the same first part. -/
theorem SimOn.bind_left {γ δ : Type} {S : γ → δ → Prop} {f : α → Program ρ σ ω ε γ}
    {g : α → Program ρ σ ω ε δ} (hm : Preserves I m) (h : ∀ a, SimOn I S (f a) (g a)) :
    SimOn I S (m >>= f) (m >>= g) := by
  apply SimOn.bind hm fun env s _ => Sim.refl m env s
  rintro a _ rfl
  exact h a

/-- Sequences that read the state first. -/
theorem SimOn.bind_state {γ δ : Type} {S : γ → δ → Prop} {f : σ → Program ρ σ ω ε γ}
    {g : σ → Program ρ σ ω ε δ} (h : ∀ s, I s → SimOn I S (f s) (g s)) :
    SimOn I S (state >>= f) (state >>= g) :=
  fun env s hs => h s hs env s hs

/-- Who sees less of a program sees it keep the same. -/
theorem Preserves.seen {ω' ε' : Type} (f : ω → ω') (g : ε → ε') (h : Preserves I m) :
    Preserves I (m.seen f g) := by
  intro env s hs
  have hm := (h env s hs).1
  rw [run_seen]
  generalize m.run env s = r at hm
  obtain ⟨o, t, es⟩ := r
  refine ⟨?_, fun _ _ => trivial⟩
  cases o with
  | ok a => exact hm
  | error e => trivial

/-! ### Counting events -/

/-- A program that emits at most `n` events with `q`. -/
def AtMost (q : ω → Bool) (n : ℕ) (m : Program ρ σ ω ε α) : Prop :=
  ∀ env s, (m.run env s).events.countP q ≤ n

variable {q : ω → Bool}

/-- A program that emits no event with `q`. -/
theorem Triple.atMost_zero (h : Triple (fun _ => True) m (fun _ _ => True) (fun _ _ => True)
    fun e => ¬q e) : AtMost q 0 m := by
  intro env s
  rw [Nat.le_zero, List.countP_eq_zero]
  exact (h env s trivial).2

/-- A program that never shows an event of `q` shows at most none. -/
theorem Keeps.atMost_zero (h : Keeps (fun _ => True) (fun _ _ => True) (fun e => ¬q e) m) :
    AtMost q 0 m := Triple.atMost_zero h

/-- One emission shows at most one event. -/
theorem AtMost.emit (e : ω) : AtMost q 1 (emit e : Program ρ σ ω ε Unit) :=
  fun _ _ => List.countP_le_length

/-- The events of a sequence are those of its parts. -/
theorem AtMost.bind {k n : ℕ} {f : α → Program ρ σ ω ε β} (h : AtMost q k m)
    (hf : ∀ a, AtMost q n (f a)) : AtMost q (k + n) (m >>= f) := by
  intro env s
  have hm := h env s
  rw [run_bind]
  generalize m.run env s = r at hm
  obtain ⟨o, t, es⟩ := r
  cases o with
  | error e => exact hm.trans (Nat.le_add_right k n)
  | ok a =>
    rw [Run.andThen_ok, Run.prepend_events, List.countP_append]
    exact Nat.add_le_add hm (hf a env t)

/-- A part in front that emits none of the events. -/
theorem AtMost.of_second {n : ℕ} {f : α → Program ρ σ ω ε β} (h : AtMost q 0 m)
    (hf : ∀ a, AtMost q n (f a)) : AtMost q n (m >>= f) := by
  rw [← Nat.zero_add n]
  exact h.bind hf

/-- A part behind that emits none of the events. -/
theorem AtMost.of_first {n : ℕ} {f : α → Program ρ σ ω ε β} (h : AtMost q n m)
    (hf : ∀ a, AtMost q 0 (f a)) : AtMost q n (m >>= f) := h.bind hf

/-- A bound on the events may be raised. -/
theorem AtMost.mono {k n : ℕ} (h : AtMost q k m) (hkn : k ≤ n) : AtMost q n m :=
  fun env s => (h env s).trans hkn

/-! ### Calls left open

A program that makes its last call through a marker, and the same program with the callee in the
marker's place. -/

/-- `m'` does what `m` does, and goes on as `k` says where `m` stops for a reason `k` knows. -/
def Resumes (k : ε → Option (Program ρ σ ω ε α)) (m m' : Program ρ σ ω ε α) : Prop :=
  ∀ env s, m'.run env s = (m.run env s).resume fun e => (k e).map (·.run env)

/-- Where the run stops for no reason `k` knows, it is the whole run. -/
theorem Resumes.run_of_none {k : ε → Option (Program ρ σ ω ε α)} {m' : Program ρ σ ω ε α}
    (h : Resumes k m m') {env : ρ} {s : σ}
    (hnone : ∀ e, (m.run env s).outcome = .error e → k e = none) :
    m'.run env s = m.run env s := by
  rw [h env s]
  generalize m.run env s = r at hnone
  obtain ⟨o, t, es⟩ := r
  cases o with
  | ok a => rfl
  | error e => exact Run.resume_none (by rw [hnone e rfl]; rfl) t es

/-- Where the run stops for a reason `k` knows, the program `k` names follows. -/
theorem Resumes.run_of_some {k : ε → Option (Program ρ σ ω ε α)} {m' n : Program ρ σ ω ε α}
    (h : Resumes k m m') {env : ρ} {s : σ} {e : ε} (he : (m.run env s).outcome = .error e)
    (hk : k e = some n) :
    m'.run env s = (n.run env (m.run env s).state).prepend (m.run env s).events := by
  rw [h env s]
  generalize m.run env s = r at he
  obtain ⟨o, t, es⟩ := r
  cases he
  exact Run.resume_some (by rw [hk]; rfl) t es

/-- A program that stops for no reason `k` knows. -/
theorem Resumes.refl {k : ε → Option (Program ρ σ ω ε α)}
    (h : Triple (fun _ => True) m (fun _ _ => True) (fun e _ => k e = none) fun _ => True) :
    Resumes k m m := by
  intro env s
  have hm := (h env s trivial).1
  generalize m.run env s = r at hm
  obtain ⟨o, t, es⟩ := r
  cases o with
  | ok a => rfl
  | error e =>
    have hk : k e = none := hm
    rw [Run.resume_none (by rw [hk]; rfl)]

/-- The marker itself. -/
theorem Resumes.stop {k : ε → Option (Program ρ σ ω ε α)} {e : ε} (h : k e = some m) :
    Resumes k (stop e) m := by
  intro env s
  rw [run_stop, Run.resume_some (f := m.run env) (by rw [h]; rfl), Run.prepend_nil]

/-- The marker in the first part of a sequence: the callee is followed by the second part. -/
theorem Resumes.bind {k : ε → Option (Program ρ σ ω ε β)} {k' : ε → Option (Program ρ σ ω ε α)}
    {m' : Program ρ σ ω ε α} {f f' : α → Program ρ σ ω ε β} (h : Resumes k' m m')
    (hf : ∀ a, Resumes k (f a) (f' a)) (hk : ∀ e, k e = (k' e).map (· >>= f')) :
    Resumes k (m >>= f) (m' >>= f') := by
  intro env s
  rw [run_bind, run_bind, h env s]
  generalize m.run env s = r
  obtain ⟨o, t, es⟩ := r
  cases o with
  | ok a => rw [Run.resume_ok, Run.andThen_ok, Run.andThen_ok, Run.resume_prepend, hf a env t]
  | error e =>
    rw [Run.andThen_error]
    cases hke : k' e with
    | none =>
      have hnone : k e = none := by rw [hk, hke]; rfl
      rw [Run.resume_none (by rw [hke]; rfl), Run.resume_none (by rw [hnone]; rfl),
        Run.andThen_error]
    | some g =>
      have hsome : k e = some (g >>= f') := by rw [hk, hke]; rfl
      rw [Run.resume_some (f := g.run env) (by rw [hke]; rfl),
        Run.resume_some (f := (g >>= f').run env) (by rw [hsome]; rfl), Run.prepend_andThen]
      rfl

/-- The marker in the second part of a sequence. -/
theorem Resumes.bind_left {γ : Type} {k : ε → Option (Program ρ σ ω ε α)} {l : Program ρ σ ω ε γ}
    {f f' : γ → Program ρ σ ω ε α}
    (hl : Triple (fun _ => True) l (fun _ _ => True) (fun e _ => k e = none) fun _ => True)
    (hf : ∀ c, Resumes k (f c) (f' c)) : Resumes k (l >>= f) (l >>= f') := by
  intro env s
  have hm : ∀ e, (l.run env s).outcome = .error e → k e = none := by
    intro e he
    have hstops := (hl env s trivial).1
    rw [he] at hstops
    exact hstops
  rw [run_bind, run_bind, Run.resume_andThen fun e he => by rw [hm e he]; rfl]
  congr 1
  funext c t
  exact hf c env t

end Program

end Foundations
