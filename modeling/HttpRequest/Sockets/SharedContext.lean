import HttpRequest.Foundations.Once

/-! # The context that all TLS sockets share

`SSLManager::shareContext` makes one `SSL_CTX` for the process, under `std::call_once`, and `SSLManager::create` takes
an `SSL` from it for every socket. Any number of workers do so at the same time. `HttpsHelper::configContext` is the
caller's: it may do with the context what it likes, and it may throw. Whatever the workers do, no `SSL` is taken
before the context is ready, and all of them are taken from the same one (`shared_context`). -/

namespace HttpRequest

open Foundations

variable {ι : Type}

/-! ### `shareContext` and `create` -/

/-- The calls around the context, by the workers; what `configContext` calls is not recorded. A context is known by a
number, and the null pointer by none. -/
inductive ContextCall (ι : Type)
  | SSL_CTX_new (context : Option Nat)
  | SSL_CTX_free (context : Nat)
  /-- `HttpsHelper::configContext` is called. -/
  | configContext (context : Option Nat)
  /-- It returns. -/
  | configured
  /-- It throws. -/
  | configThrew
  | SSL_new (worker : ι) (context : Option Nat)

/-- `contextPtr`, and the calls so far. -/
structure SharedContext (ι : Type) where
  contextPtr : Option Nat := none
  calls : List (ContextCall ι) := []

/-- A call is made. -/
def SharedContext.call (self : SharedContext ι) (call : ContextCall ι) : SharedContext ι :=
  { self with calls := self.calls ++ [call] }

/-- `contextPtr.reset`, which frees what it has held. -/
def SharedContext.reset (self : SharedContext ι) (context : Nat) : SharedContext ι :=
  match self.contextPtr with
  | none => { self with contextPtr := some context }
  | some old => { self.call (.SSL_CTX_free old) with contextPtr := some context }

/-- Where the function stands that `shareContext` hands to `std::call_once`. -/
inductive ContextPlace
  | entered
  | created (context : Option Nat)
  | stored
  | configuring

/-- The steps of the function in `shareContext`, with or without a `configContext`. -/
inductive ContextStep (isConfigured : Bool) :
    ContextPlace → SharedContext ι → Progress ContextPlace → SharedContext ι → Prop
  | create (s : SharedContext ι) (context : Option Nat) :
    ContextStep isConfigured .entered s (.goesOn (.created context)) (s.call (.SSL_CTX_new context))
  | store (s : SharedContext ι) (context : Nat) :
    ContextStep isConfigured (.created (some context)) s (.goesOn .stored) (s.reset context)
  /-- `create SSL Context error.` is thrown. -/
  | fail (s : SharedContext ι) : ContextStep isConfigured (.created none) s .throws s
  | skip (s : SharedContext ι) (h : isConfigured = false) : ContextStep isConfigured .stored s .returns s
  | config (s : SharedContext ι) (h : isConfigured = true) :
    ContextStep isConfigured .stored s (.goesOn .configuring) (s.call (.configContext s.contextPtr))
  -- `configContext` is given a reference, and may leave anything behind it; where it replaces the context by a reset
  -- of its own, that frees the old one
  | configured (s : SharedContext ι) (context : Option Nat) :
    ContextStep isConfigured .configuring s .returns { s.call .configured with contextPtr := context }
  | configThrew (s : SharedContext ι) (context : Option Nat) :
    ContextStep isConfigured .configuring s .throws { s.call .configThrew with contextPtr := context }

/-- `SSLManager::shareContext`. -/
def shareContext (isConfigured : Bool) : Initializer (SharedContext ι) ContextPlace :=
  ⟨.entered, ContextStep isConfigured⟩

/-- `SSLManager::create` behind `shareContext`. It is `noexcept`: a worker whose `shareContext` has thrown makes no
further step of its own, and the others go on until the process has ended. -/
def createSSL (worker : ι) (s s' : SharedContext ι) : Prop := s' = s.call (.SSL_new worker s.contextPtr)

/-! ### One context -/

/-- The calls in front of the end of the initialization. -/
def ContextCall.Preparing : ContextCall ι → Prop
  | .SSL_new _ _ | .configured => False
  | .SSL_CTX_new _ | .SSL_CTX_free _ | .configContext _ | .configThrew => True

/-- The last of the calls has made the context ready: `configContext` has returned, or there is none and
`SSL_CTX_new` has returned the context. -/
def Readies (isConfigured : Bool) (context : Option Nat) (calls : List (ContextCall ι)) : Prop :=
  ∃ front last, calls = front ++ [last] ∧ (∀ call ∈ front, call.Preparing) ∧
    if isConfigured then last = .configured else last = .SSL_CTX_new context ∧ context ≠ none

/-- The context is ready, and nothing but its uses has come since. -/
def ContextReady (isConfigured : Bool) (s : SharedContext ι) : Prop :=
  ∃ front news, s.calls = front ++ news ∧ Readies isConfigured s.contextPtr front ∧
    ∀ call ∈ news, ∃ worker, call = .SSL_new worker s.contextPtr

/-- `shareContext` itself has freed a context only where `configContext` has thrown. -/
def FreesBehindThrow (s : SharedContext ι) : Prop :=
  (∃ context, .SSL_CTX_free context ∈ s.calls) → .configThrew ∈ s.calls

/-- In front of the initialization. -/
structure Unready (isConfigured : Bool) (s : SharedContext ι) : Prop where
  preparing : ∀ call ∈ s.calls, call.Preparing
  frees : FreesBehindThrow s
  empty : s.contextPtr ≠ none → isConfigured = true ∧ .configThrew ∈ s.calls

/-- Behind `contextPtr.reset`. -/
structure Stored (isConfigured : Bool) (s : SharedContext ι) : Prop where
  preparing : ∀ call ∈ s.calls, call.Preparing
  frees : FreesBehindThrow s
  last : isConfigured = false → s.contextPtr ≠ none ∧ s.calls.getLast? = some (.SSL_CTX_new s.contextPtr)

/-- During the initialization. -/
def Readying (isConfigured : Bool) : ContextPlace → SharedContext ι → Prop
  | .entered, s => Unready isConfigured s
  | .created context, s => Unready isConfigured s ∧ s.calls.getLast? = some (.SSL_CTX_new context)
  | .stored, s => Stored isConfigured s
  | .configuring, s => isConfigured = true ∧ Stored isConfigured s

/-- One more preparing call leaves all of them preparing. -/
theorem preparing_call {s : SharedContext ι} {call : ContextCall ι} (h : ∀ call ∈ s.calls, call.Preparing)
    (hcall : call.Preparing) : ∀ c ∈ (s.call call).calls, c.Preparing :=
  List.forall_mem_append.mpr ⟨h, List.forall_mem_singleton.mpr hcall⟩

/-- A call that frees nothing keeps it. -/
theorem FreesBehindThrow.call {s : SharedContext ι} (h : FreesBehindThrow s) {call : ContextCall ι}
    (hcall : ∀ context, call ≠ .SSL_CTX_free context) : FreesBehindThrow (s.call call) := by
  rintro ⟨context, hfree⟩
  rcases List.mem_append.mp hfree with hfree | hfree
  · exact List.mem_append_left _ (h ⟨context, hfree⟩)
  · exact absurd (List.mem_singleton.mp hfree).symm (hcall context)

/-- Storing a new context: the old one, if there is one, is left from a call that has thrown. -/
theorem Unready.reset {isConfigured : Bool} {s : SharedContext ι} (h : Unready isConfigured s) {context : Nat}
    (hlast : s.calls.getLast? = some (.SSL_CTX_new (some context))) : Stored isConfigured (s.reset context) := by
  unfold SharedContext.reset
  cases hptr : s.contextPtr with
  | none =>
    refine ⟨h.preparing, h.frees, fun _ => ⟨Option.some_ne_none context, hlast⟩⟩
  | some old =>
    obtain ⟨hconfigured, hthrew⟩ := h.empty (by simp [hptr])
    refine ⟨preparing_call h.preparing trivial, fun _ => List.mem_append_left _ hthrew, fun hnone => ?_⟩
    rw [hconfigured] at hnone
    cases hnone

/-- **The steps keep what is known of the context.** -/
theorem guarded_shareContext (isConfigured : Bool) :
    Once.Guarded (shareContext isConfigured) (createSSL (ι := ι)) (Unready isConfigured) (Readying isConfigured)
      fun s => ContextReady isConfigured s ∧ FreesBehindThrow s where
  enter _ h := h
  goesOn := by
    intro b s b' s' h hstep
    cases hstep with
    | create s context =>
      refine ⟨⟨preparing_call h.preparing trivial, h.frees.call (by simp), fun hptr => ?_⟩, List.getLast?_concat ..⟩
      exact ⟨(h.empty hptr).1, List.mem_append_left _ (h.empty hptr).2⟩
    | store s context => exact h.1.reset h.2
    | config s hconfigured =>
      refine ⟨hconfigured, preparing_call h.preparing trivial, h.frees.call (by simp), fun hnone => ?_⟩
      rw [hconfigured] at hnone
      cases hnone
  returns := by
    intro b s s' h hstep
    cases hstep with
    | skip s hnone =>
      obtain ⟨hptr, hlast⟩ := h.last hnone
      obtain ⟨front, hfront⟩ := List.getLast?_eq_some_iff.mp hlast
      refine ⟨⟨s.calls, [], (List.append_nil _).symm, ⟨front, _, hfront, ?_, ?_⟩, by simp⟩, h.frees⟩
      · exact fun call hcall => h.preparing call (hfront ▸ List.mem_append_left _ hcall)
      · rw [hnone]
        exact ⟨rfl, hptr⟩
    | configured s context =>
      refine ⟨⟨_, [], (List.append_nil _).symm, ⟨s.calls, .configured, rfl, h.2.preparing, ?_⟩, by simp⟩, ?_⟩
      · rw [h.1]
        rfl
      · exact h.2.frees.call (by simp)
  throws := by
    intro b s s' h hstep
    cases hstep with
    | fail s => exact h.1
    | configThrew s context =>
      have hthrew : .configThrew ∈ (s.call .configThrew).calls := List.mem_append_right _ (List.mem_singleton_self _)
      exact ⟨preparing_call h.2.preparing trivial, fun _ => hthrew, fun _ => ⟨h.1, hthrew⟩⟩
  use := by
    rintro worker s _ ⟨⟨front, news, hcalls, hreadies, hnews⟩, hfrees⟩ rfl
    refine ⟨⟨front, news ++ [.SSL_new worker s.contextPtr], ?_, hreadies, ?_⟩, hfrees.call (by simp)⟩
    · rw [← List.append_assoc, ← hcalls]
      rfl
    · exact List.forall_mem_append.mpr ⟨hnews, List.forall_mem_singleton.mpr ⟨worker, rfl⟩⟩

variable [DecidableEq ι]

/-- What the workers have of the context. -/
structure OneContext (isConfigured : Bool) (w : Once.World ι (SharedContext ι) ContextPlace) : Prop where
  /-- One of them prepares it at a time. -/
  exclusive : ∀ i j b b', w.place i = .running b → w.place j = .running b' → i = j
  /-- No `SSL` is taken before it is ready, and behind that all of them are taken from the same one. -/
  ready : (∀ call ∈ w.shared.calls, call.Preparing) ∨
    ContextReady isConfigured w.shared ∧ ∀ i b, w.place i ≠ .running b
  frees : FreesBehindThrow w.shared
  /-- A worker that waits goes on itself, or the one that prepares the context can. -/
  goesOn : ∀ i, w.place i = .calling →
    (∃ w', Once.Step (shareContext isConfigured) createSSL w w' ∧ (w'.place i).Inside) ∨
      ∃ j b progress s, w.place j = .running b ∧ ContextStep isConfigured b w.shared progress s

/-- **One context for all workers**, however many there are, in whatever order they make their steps, and whatever
`SSL_CTX_new` and `configContext` answer. -/
theorem shared_context {isConfigured : Bool} {w : Once.World ι (SharedContext ι) ContextPlace}
    (h : Once.Reachable (shareContext isConfigured) createSSL {} w) : OneContext isConfigured w := by
  have hinitial : Unready isConfigured ({} : SharedContext ι) :=
    ⟨by simp, by simp [FreesBehindThrow], fun hptr => absurd rfl hptr⟩
  have hholds := (guarded_shareContext isConfigured).holds hinitial h
  refine ⟨fun i j b b' hi hj => hholds.exclusive hi hj, ?_, ?_, fun i hi => hholds.not_stuck ?_ hi⟩
  · cases hholds with
    | unset hflag hshared hout => exact .inl hshared.preparing
    | @busy i b hflag hplace hshared hout =>
      cases b with
      | entered => exact .inl hshared.preparing
      | created context => exact .inl hshared.1.preparing
      | stored => exact .inl hshared.preparing
      | configuring => exact .inl hshared.2.preparing
    | done hflag hshared hplace => exact .inr ⟨hshared.1, hplace⟩
  · cases hholds with
    | unset hflag hshared hout => exact hshared.frees
    | @busy i b hflag hplace hshared hout =>
      cases b with
      | entered => exact hshared.frees
      | created context => exact hshared.1.frees
      | stored => exact hshared.frees
      | configuring => exact hshared.2.frees
    | done hflag hshared hplace => exact hshared.2
  · intro b s hduring
    cases b with
    | entered => exact ⟨_, _, .create s none⟩
    | created context =>
      cases context with
      | none => exact ⟨_, _, .fail s⟩
      | some context => exact ⟨_, _, .store s context⟩
    | stored =>
      cases hconfigured : isConfigured with
      | false => exact ⟨_, _, .skip s rfl⟩
      | true => exact ⟨_, _, .config s rfl⟩
    | configuring => exact ⟨_, _, .configured s none⟩

/-- Two workers, of which one waits while the other prepares the context. -/
theorem shared_context_two : ∃ w : Once.World Bool (SharedContext Bool) ContextPlace, OneContext true w ∧
    w.shared.calls = [.SSL_CTX_new (some 1), .configContext (some 1), .configured, .SSL_new true (some 1),
      .SSL_new false (some 1)] := by
  have hstart : Once.Reachable (shareContext true) createSSL {} (Once.World.initial ({} : SharedContext Bool)) := .refl
  have hcalling := (hstart.tail (.call (i := false) rfl)).tail (.enter (i := false) rfl rfl)
  have hwaiting := (hcalling.tail (.goesOn (i := false) rfl (.create _ (some 1)))).tail (.call (i := true) rfl)
  have hconfiguring := (hwaiting.tail (.goesOn (i := false) rfl (.store _ 1))).tail
    (.goesOn (i := false) rfl (.config _ rfl))
  have hdone :=
    (hconfiguring.tail (.returns (i := false) rfl (.configured _ (some 1)))).tail (.pass (i := true) rfl rfl)
  have huse := (hdone.tail (.use (i := true) rfl rfl)).tail (.use (i := false) rfl rfl)
  exact ⟨_, shared_context huse, rfl⟩

end HttpRequest
