import HttpRequest.Foundations.Monitor

/-! # Refinement

A concrete program works on a state and emits events of its own; what an abstract observer sees of them is
given by a `View`. The abstract program takes the answers of the outside world from a script. `Refines` is the
triple over both levels: from every concrete state with the precondition some script explains the concrete run,
while a monitor follows the concrete events. -/

namespace Foundations

variable {ρ σ τ ω Ω ε κ Θ Θ' α β γ : Type}

/-! ### Views -/

/-- A concrete state holds an abstract one, and some of the concrete events show abstract ones. For the reason
`waits` a concrete program may stop in the middle of what is one step for the observer. -/
structure View (τ σ Ω ω ε : Type) where
  state : τ → σ
  put : σ → τ → τ
  event : Ω → Option ω
  shown : ω → Ω
  waits : ε
  state_put : ∀ s t, state (put s t) = s
  event_shown : ∀ e, event (shown e) = some e

namespace View

variable (V : View τ σ Ω ω ε)

/-- What the observer sees of some events. -/
def events (es : List Ω) : List ω := es.filterMap V.event

/-- No events are shown as none. -/
@[simp] theorem events_nil : V.events [] = [] := rfl

/-- A concatenation is shown part by part. -/
@[simp] theorem events_append (es es' : List Ω) : V.events (es ++ es') = V.events es ++ V.events es' :=
  List.filterMap_append

/-- The observer sees all of what is shown to him. -/
@[simp] theorem events_map_shown (es : List ω) : V.events (es.map V.shown) = es := by
  unfold events
  rw [List.filterMap_map]
  have hsome : V.event ∘ V.shown = some := funext V.event_shown
  rw [hsome, List.filterMap_some]

/-- An abstract program as a part of a concrete one. -/
def lift (m : Program ρ σ ω ε α) : Program ρ τ Ω ε α :=
  ⟨fun env t =>
    let r := m.run env (V.state t)
    ⟨r.outcome, V.put r.state t, r.events.map V.shown⟩⟩

/-- The run of a lifted program is that of the program on the part of the state it sees. -/
theorem run_lift (m : Program ρ σ ω ε α) (env : ρ) (t : τ) :
    (V.lift m).run env t = ⟨(m.run env (V.state t)).outcome, V.put (m.run env (V.state t)).state t,
      (m.run env (V.state t)).events.map V.shown⟩ := rfl

/-- **An abstract run explains a concrete one**: it ends alike, in the state and after the events that are
seen; or the concrete run waits, and what has been seen is how the abstract run begins. -/
def Explains (q : Run σ ω ε α) (r : Run τ Ω ε α) : Prop :=
  (q.outcome = r.outcome ∧ q.state = V.state r.state ∧ q.events = V.events r.events) ∨
    r.outcome = .error V.waits ∧ V.events r.events <+: q.events

variable {V}

/-- A run that is no waiting one is explained in full. -/
theorem Explains.of_ne {q : Run σ ω ε α} {r : Run τ Ω ε α} (h : V.Explains q r)
    (hne : r.outcome ≠ .error V.waits) :
    q.outcome = r.outcome ∧ q.state = V.state r.state ∧ q.events = V.events r.events :=
  h.resolve_right fun hwaits => hne hwaits.1

/-- What is seen is in any case how the abstract run begins. -/
theorem Explains.events_isPrefix {q : Run σ ω ε α} {r : Run τ Ω ε α} (h : V.Explains q r) :
    V.events r.events <+: q.events := by
  rcases h with ⟨-, -, hevents⟩ | ⟨-, hevents⟩
  · rw [hevents]
  · exact hevents

/-- The explanation of a sequence whose first part has returned. -/
theorem Explains.prepend {q : Run σ ω ε α} {r : Run τ Ω ε α} (h : V.Explains q r) (es : List Ω) :
    V.Explains (q.prepend (V.events es)) (r.prepend es) := by
  rcases h with ⟨houtcome, hstate, hevents⟩ | ⟨houtcome, hevents⟩
  · refine .inl ⟨houtcome, hstate, ?_⟩
    rw [Run.prepend_events, Run.prepend_events, events_append, hevents]
  · refine .inr ⟨houtcome, ?_⟩
    rw [Run.prepend_events, Run.prepend_events, events_append]
    exact (List.prefix_append_right_inj _).mpr hevents

/-- The explanation of a sequence whose first part has stopped: whatever the abstract one goes on with. -/
theorem Explains.of_stopped {q : Run σ ω ε α} {e : ε} {t : τ} {es : List Ω}
    (h : V.Explains q (⟨.error e, t, es⟩ : Run τ Ω ε α)) (f : α → σ → Run σ ω ε β) :
    V.Explains (q.andThen f) (⟨.error e, t, es⟩ : Run τ Ω ε β) := by
  obtain ⟨o, s, es'⟩ := q
  rcases h with ⟨houtcome, hstate, hevents⟩ | ⟨houtcome, hevents⟩
  · cases houtcome
    exact .inl ⟨rfl, hstate, hevents⟩
  · cases houtcome
    refine .inr ⟨rfl, ?_⟩
    cases o with
    | error _ => exact hevents
    | ok a => exact hevents.trans (List.prefix_append _ _)

end View

/-! ### Programs that differ where they do not go on -/

namespace Program

variable {more : α → Prop} {m m' : Program ρ σ ω ε α}

/-- The programs run alike where the first returns a value with `more`. -/
def AlikeWhere (more : α → Prop) (m m' : Program ρ σ ω ε α) : Prop :=
  ∀ env s a, (m.run env s).outcome = .ok a → more a → m'.run env s = m.run env s

/-- Every program is alike to itself. -/
theorem AlikeWhere.refl : AlikeWhere more m m := fun _ _ _ _ _ => rfl

/-- Nothing is asked of a program that does not go on. -/
theorem AlikeWhere.bind_pure {l : Program ρ σ ω ε β} {b : α} (hb : ¬more b) :
    AlikeWhere more (l >>= fun _ => pure b) m' := by
  intro env s a ha hmore
  rw [run_bind] at ha
  generalize l.run env s = r at ha
  obtain ⟨o, t, es⟩ := r
  cases o with
  | error _ => cases ha
  | ok _ =>
    cases ha
    exact absurd hmore hb

/-- A bind is alike when its continuations are. -/
theorem AlikeWhere.bind {l : Program ρ σ ω ε β} {f f' : β → Program ρ σ ω ε α}
    (h : ∀ b, AlikeWhere more (f b) (f' b)) : AlikeWhere more (l >>= f) (l >>= f') := by
  intro env s a ha hmore
  rw [run_bind] at ha ⊢
  rw [run_bind]
  generalize l.run env s = r at ha ⊢
  obtain ⟨o, t, es⟩ := r
  cases o with
  | error _ => rfl
  | ok b => exact congrArg (Run.prepend es) (h b env t a ha hmore)

/-- A branch is alike when its sides are. -/
theorem AlikeWhere.ite {c : Prop} [Decidable c] {n n' : Program ρ σ ω ε α} (hm : AlikeWhere more m m')
    (hn : AlikeWhere more n n') : AlikeWhere more (if c then m else n) (if c then m' else n') := by
  by_cases hc : c
  · rw [if_pos hc, if_pos hc]
    exact hm
  · rw [if_neg hc, if_neg hc]
    exact hn

end Program

/-! ### Refinement triples -/

/-- From every concrete state with `P`, one of the scripts in `S` makes the abstract program explain the run of
the concrete one; the monitor accepts the concrete events, and `Q` holds where the program returns. -/
def Program.Refines (V : View τ σ Ω ω ε) (M : Monitor κ Ω) (env : ρ) (P : κ → τ → Prop)
    (m : Program ρ τ Ω ε α) (S : Set Θ) (n : Θ → Program ρ σ ω ε α) (Q : α → κ → τ → Prop) : Prop :=
  ∀ k t, P k t → ∃ θ ∈ S, V.Explains ((n θ).run env (V.state t)) (m.run env t) ∧
    M.Accepts k (m.run env t).events ∧
    ∀ a, (m.run env t).outcome = .ok a → Q a (M.after k (m.run env t).events) (m.run env t).state

namespace Program.Refines

variable {V : View τ σ Ω ω ε} {M : Monitor κ Ω} {env : ρ} {P P' : κ → τ → Prop}
  {m : Program ρ τ Ω ε α} {S : Set Θ} {n : Θ → Program ρ σ ω ε α} {Q Q' : α → κ → τ → Prop}

/-- Returning refines returning. -/
theorem pure {a : α} (hS : S.Nonempty) (h : ∀ k t, P k t → Q a k t) :
    Refines V M env P (Pure.pure a : Program ρ τ Ω ε α) S (fun _ => Pure.pure a) Q := by
  intro k t ht
  obtain ⟨θ, hθ⟩ := hS
  refine ⟨θ, hθ, .inl ⟨rfl, rfl, rfl⟩, trivial, ?_⟩
  rintro _ ⟨⟩
  exact h k t ht

/-- Stopping refines stopping for the same cause. -/
theorem stop {e : ε} (hS : S.Nonempty) :
    Refines V M env P (Program.stop e : Program ρ τ Ω ε α) S (fun _ => Program.stop e) Q := by
  intro k t _
  obtain ⟨θ, hθ⟩ := hS
  exact ⟨θ, hθ, .inl ⟨rfl, rfl, rfl⟩, trivial, nofun⟩

/-- A concrete program that does nothing but what is shown. -/
theorem lift {m : Program ρ σ ω ε α} (hS : S.Nonempty)
    (h : ∀ k t, P k t → M.Accepts k ((m.run env (V.state t)).events.map V.shown) ∧
      ∀ a, (m.run env (V.state t)).outcome = .ok a →
        Q a (M.after k ((m.run env (V.state t)).events.map V.shown)) (V.put (m.run env (V.state t)).state t)) :
    Refines V M env P (V.lift m) S (fun _ => m) Q := by
  intro k t ht
  obtain ⟨θ, hθ⟩ := hS
  refine ⟨θ, hθ, .inl ⟨rfl, ?_, ?_⟩, h k t ht⟩
  · exact (V.state_put _ _).symm
  · exact (V.events_map_shown _).symm

/-- Two programs whose runs are known. -/
theorem of_run {n : Program ρ σ ω ε α} (hS : S.Nonempty)
    (h : ∀ k t, P k t → ∃ a t' es, m.run env t = ⟨.ok a, t', es⟩ ∧
      n.run env (V.state t) = ⟨.ok a, V.state t', V.events es⟩ ∧ M.Accepts k es ∧ Q a (M.after k es) t') :
    Refines V M env P m S (fun _ => n) Q := by
  intro k t ht
  obtain ⟨θ, hθ⟩ := hS
  obtain ⟨a, t', es, hm, hn, haccepts, hreturns⟩ := h k t ht
  rw [hm]
  refine ⟨θ, hθ, .inl ?_, haccepts, ?_⟩
  · dsimp only
    rw [hn]
    exact ⟨rfl, rfl, rfl⟩
  · rintro _ ⟨⟩
    exact hreturns

/-- The scripts of another set serve as well. -/
theorem script {S' : Set Θ'} {n' : Θ' → Program ρ σ ω ε α} (h : Refines V M env P m S n Q)
    (hscript : ∀ θ ∈ S, ∃ θ' ∈ S', n' θ' = n θ) : Refines V M env P m S' n' Q := by
  intro k t ht
  obtain ⟨θ, hθ, hrest⟩ := h k t ht
  obtain ⟨θ', hθ', heq⟩ := hscript θ hθ
  exact ⟨θ', hθ', by rw [heq]; exact hrest⟩

/-- One of the scripts serves always. -/
theorem of_script {θ : Θ} (hθ : θ ∈ S) (h : Refines V M env P m (Set.univ : Set Unit) (fun _ => n θ) Q) :
    Refines V M env P m S n Q := h.script fun _ _ => ⟨θ, hθ, rfl⟩

/-- The rule of consequence. -/
theorem conseq (h : Refines V M env P m S n Q) (hP : ∀ k t, P' k t → P k t)
    (hQ : ∀ a k t, Q a k t → Q' a k t) : Refines V M env P' m S n Q' := by
  intro k t ht
  obtain ⟨θ, hθ, hexplains, haccepts, hreturns⟩ := h k t (hP k t ht)
  exact ⟨θ, hθ, hexplains, haccepts, fun a ha => hQ a _ _ (hreturns a ha)⟩

/-- What the precondition says beside the state. -/
theorem assume {c : Prop} (hP : ∀ k t, P k t → c) (h : c → Refines V M env P m S n Q) :
    Refines V M env P m S n Q := fun k t ht => h (hP k t ht) k t ht

/-- The rule for a branch that both sides take alike. -/
theorem ite {c : Prop} [Decidable c] {m' : Program ρ τ Ω ε α} {n' : Θ → Program ρ σ ω ε α}
    (hm : c → Refines V M env P m S n Q) (hm' : ¬c → Refines V M env P m' S n' Q) :
    Refines V M env P (if c then m else m') S (fun θ => if c then n θ else n' θ) Q := by
  by_cases hc : c
  · simp only [if_pos hc]
    exact hm hc
  · simp only [if_neg hc]
    exact hm' hc

/-- The script of a sequence is made of the scripts of its parts. -/
theorem bind {S' : Set Θ'} {f : α → Program ρ τ Ω ε β} {g : Θ' → α → Program ρ σ ω ε β}
    {R : β → κ → τ → Prop} (hS' : S'.Nonempty) (h : Refines V M env P m S n Q)
    (hf : ∀ a, Refines V M env (Q a) (f a) S' (fun θ' => g θ' a) R) :
    Refines V M env P (m >>= f) (S ×ˢ S') (fun θ => n θ.1 >>= g θ.2) R := by
  intro k t ht
  obtain ⟨θ, hθ, hexplains, haccepts, hreturns⟩ := h k t ht
  simp only [run_bind]
  generalize m.run env t = r at hexplains haccepts hreturns
  obtain ⟨o, t', es⟩ := r
  cases o with
  | error e =>
    obtain ⟨θ', hθ'⟩ := hS'
    exact ⟨(θ, θ'), ⟨hθ, hθ'⟩, hexplains.of_stopped _, haccepts, nofun⟩
  | ok a =>
    obtain ⟨θ', hθ', hexplains', haccepts', hreturns'⟩ := hf a _ t' (hreturns a rfl)
    obtain ⟨houtcome, hstate, hevents⟩ := hexplains.of_ne nofun
    refine ⟨(θ, θ'), ⟨hθ, hθ'⟩, ?_, ?_, ?_⟩
    · generalize (n θ).run env (V.state t) = q at houtcome hstate hevents
      obtain ⟨o', s', es'⟩ := q
      dsimp only at houtcome hstate hevents
      subst houtcome hstate hevents
      exact hexplains'.prepend es
    · rw [Run.andThen_ok, Run.prepend_events, Monitor.accepts_append]
      exact ⟨haccepts, haccepts'⟩
    · rw [Run.andThen_ok, Run.prepend_events, Monitor.after_append]
      exact hreturns'

/-- A sequence, for a program with scripts of its own. -/
theorem bind_script {Θ'' : Type} {S' : Set Θ'} {T : Set Θ''} {f : α → Program ρ τ Ω ε β}
    {g : Θ' → α → Program ρ σ ω ε β} {l : Θ'' → Program ρ σ ω ε β} {R : β → κ → τ → Prop} (hS' : S'.Nonempty)
    (h : Refines V M env P m S n Q) (hf : ∀ a, Refines V M env (Q a) (f a) S' (fun θ' => g θ' a) R)
    (hscript : ∀ θ ∈ S, ∀ θ' ∈ S', ∃ θ'' ∈ T, l θ'' = n θ >>= g θ') : Refines V M env P (m >>= f) T l R :=
  (h.bind hS' hf).script fun θ hθ => hscript θ.1 hθ.1 θ.2 hθ.2

/-- A first part that uses no script. -/
theorem bind_left {n : Program ρ σ ω ε α} {f : α → Program ρ τ Ω ε β} {g : Θ → α → Program ρ σ ω ε β}
    {R : β → κ → τ → Prop} (hS : S.Nonempty) (h : Refines V M env P m (Set.univ : Set Unit) (fun _ => n) Q)
    (hf : ∀ a, Refines V M env (Q a) (f a) S (fun θ => g θ a) R) :
    Refines V M env P (m >>= f) S (fun θ => n >>= g θ) R :=
  (h.bind hS hf).script fun θ hθ => ⟨θ.2, hθ.2, rfl⟩

/-- A second part that uses no script. -/
theorem bind_right {f : α → Program ρ τ Ω ε β} {g : α → Program ρ σ ω ε β} {R : β → κ → τ → Prop}
    (h : Refines V M env P m S n Q)
    (hf : ∀ a, Refines V M env (Q a) (f a) (Set.univ : Set Unit) (fun _ => g a) R) :
    Refines V M env P (m >>= f) S (fun θ => n θ >>= g) R :=
  (h.bind (g := fun _ => g) Set.univ_nonempty hf).script fun θ hθ => ⟨θ.1, hθ.1, rfl⟩

/-- Behind a program the concrete level does something the observer sees nothing of. -/
theorem then_silent {c : Program ρ τ Ω ε Unit} (h : Refines V M env P m S n Q)
    (hc : ∀ a k t, Q a k t → ∃ t' es, c.run env t = ⟨.ok (), t', es⟩ ∧ V.state t' = V.state t ∧
      V.events es = [] ∧ M.Accepts k es ∧ Q' a (M.after k es) t') :
    Refines V M env P (m >>= fun a => c >>= fun _ => Pure.pure a) S n Q' := by
  have hsilent (a : α) : Refines V M env (Q a) (c >>= fun _ => Pure.pure a) (Set.univ : Set Unit)
      (fun _ => Pure.pure a) Q' := by
    refine .of_run Set.univ_nonempty fun k t ht => ?_
    obtain ⟨t', es, hrun, hstate, hevents, haccepts, hreturns⟩ := hc a k t ht
    refine ⟨a, t', es, ?_, ?_, haccepts, hreturns⟩
    · simp [hrun]
    · rw [hstate, hevents, run_pure]
  refine (h.bind_right hsilent).script fun θ hθ => ⟨θ, hθ, ?_⟩
  rw [bind_pure]

/-- Reading the environment in front of programs that depend on it. -/
theorem bind_read {f : ρ → Program ρ τ Ω ε α} {g : Θ → ρ → Program ρ σ ω ε α}
    (h : Refines V M env P (f env) S (fun θ => g θ env) Q) :
    Refines V M env P (read >>= f) S (fun θ => read >>= g θ) Q :=
  fun k t ht => h k t ht

/-- **Both parts of a sequence use one script, the first of them only where nothing follows.** Values with
`more` are those behind which something follows. -/
theorem bind_shared {Θ'' Θ''' : Type} {S' : Set Θ'} {S'' : Set Θ''} {T : Set Θ'''}
    {n : Θ → Θ'' → Program ρ σ ω ε α} {f : α → Program ρ τ Ω ε β} {g : Θ' → Θ'' → α → Program ρ σ ω ε β}
    {l : Θ''' → Program ρ σ ω ε β} {R : β → κ → τ → Prop} {more : α → Prop} (hS' : S'.Nonempty)
    (h : Refines V M env P m (S ×ˢ S'') (fun θ => n θ.1 θ.2) Q)
    (hunused : ∀ θ θ₁ θ₂, AlikeWhere more (n θ θ₁) (n θ θ₂))
    (hmore : ∀ a, more a → Refines V M env (Q a) (f a) (S' ×ˢ S'') (fun θ => g θ.1 θ.2 a) R)
    (hdone : ∀ a, ¬more a → ∃ b, f a = Pure.pure b ∧ (∀ θ' θ'', g θ' θ'' a = Pure.pure b) ∧
      ∀ k t, Q a k t → R b k t)
    (hscript : ∀ θ ∈ S, ∀ θ' ∈ S', ∀ θ'' ∈ S'', ∃ θ₁ ∈ T, l θ₁ = n θ θ'' >>= g θ' θ'') :
    Refines V M env P (m >>= f) T l R := by
  refine script (S := S ×ˢ S' ×ˢ S'') (n := fun θ => n θ.1 θ.2.2 >>= g θ.2.1 θ.2.2) ?_
    fun θ hθ => hscript θ.1 hθ.1 θ.2.1 hθ.2.1 θ.2.2 hθ.2.2
  intro k t ht
  obtain ⟨⟨θ, θ₁⟩, ⟨hθ, hθ₁⟩, hexplains, haccepts, hreturns⟩ := h k t ht
  obtain ⟨θ', hθ'⟩ := hS'
  have hunused := hunused θ θ₁
  simp only [run_bind]
  generalize m.run env t = r at hexplains haccepts hreturns
  obtain ⟨o, t', es⟩ := r
  cases o with
  | error e => exact ⟨(θ, θ', θ₁), ⟨hθ, hθ', hθ₁⟩, hexplains.of_stopped _, haccepts, nofun⟩
  | ok a =>
    obtain ⟨houtcome, hstate, hevents⟩ := hexplains.of_ne nofun
    by_cases hmorea : more a
    · obtain ⟨⟨θ', θ₂⟩, ⟨hθ', hθ₂⟩, hexplains', haccepts', hreturns'⟩ := hmore a hmorea _ t' (hreturns a rfl)
      refine ⟨(θ, θ', θ₂), ⟨hθ, hθ', hθ₂⟩, ?_, ?_, ?_⟩
      · dsimp only
        rw [hunused θ₂ env _ a houtcome hmorea]
        generalize (n θ θ₁).run env (V.state t) = q at houtcome hstate hevents
        obtain ⟨o', s', es'⟩ := q
        dsimp only at houtcome hstate hevents
        subst houtcome hstate hevents
        exact hexplains'.prepend es
      · rw [Run.andThen_ok, Run.prepend_events, Monitor.accepts_append]
        exact ⟨haccepts, haccepts'⟩
      · rw [Run.andThen_ok, Run.prepend_events, Monitor.after_append]
        exact hreturns'
    · obtain ⟨b, hf, hg, hR⟩ := hdone a hmorea
      refine ⟨(θ, θ', θ₁), ⟨hθ, hθ', hθ₁⟩, ?_, ?_, ?_⟩
      · dsimp only
        generalize (n θ θ₁).run env (V.state t) = q at houtcome hstate hevents
        obtain ⟨o', s', es'⟩ := q
        dsimp only at houtcome hstate hevents
        subst houtcome hstate hevents
        rw [Run.andThen_ok, Run.andThen_ok, hf, hg]
        have hpure : V.Explains (⟨.ok b, V.state t', []⟩ : Run σ ω ε β) ⟨.ok b, t', []⟩ :=
          .inl ⟨rfl, rfl, rfl⟩
        exact hpure.prepend es
      · rw [Run.andThen_ok, hf]
        exact (M.accepts_append k es []).mpr ⟨haccepts, trivial⟩
      · rw [Run.andThen_ok, hf]
        rintro _ ⟨⟩
        rw [Run.prepend_events, run_pure, List.append_nil]
        exact hR _ _ (hreturns a rfl)

end Program.Refines

end Foundations
