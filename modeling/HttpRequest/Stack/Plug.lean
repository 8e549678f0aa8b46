import HttpRequest.Redirects.Chain
import HttpRequest.Stack.Methods

/-! # Sockets plugged into the worker

What a monitor of the stack has to know is which object `socket_` owns and what URL the request is for. A `Plug`
says how the two are related while the object is only held (`idle`) and while its methods are called (`used`),
and what each event of the stack makes of that relation. The rules of this file carry it through the parts of
the worker that call no method (`refines_lift`, `refines_within`) and through the methods
(`refines_callMethod`), as refinement triples with the worker of `Model.Request` as the abstract program. -/

namespace HttpRequest

open Foundations

/-- The class of the socket that is created for a URL. -/
def kindOf (url : Url) : SocketKind := if url.isHttps then .TSLSocket else .PlainSocket

/-- The events of freeing an object. -/
def freeEvents (object : ISocket) : List StackEvent := onDescriptor object.socket_ object.freeCalls

/-- A monitor of the stack and its relation to the URL and the object: while the object, if there is one, is
held, and while one of a class with a descriptor is used. -/
structure Plug (κ : Type) where
  monitor : Monitor κ StackEvent
  idle : κ → Url → Option ISocket → Prop
  used : κ → Url → SocketKind → Option Nat → Prop
  routine : ∀ k e, e.parsesUrl = false →
    monitor.allows k (.request e) ∧ monitor.next k (.request e) = k
  parsed : ∀ k url object text, idle k url object →
    monitor.allows k (.request (.call (.parseUrl text))) ∧
      idle (monitor.next k (.request (.call (.parseUrl text)))) (Url.parse text) object
  freed : ∀ k url object, idle k url (some object) →
    monitor.Accepts k (freeEvents object) ∧ idle (monitor.after k (freeEvents object)) url none
  created : ∀ k url object fd, idle k url object →
    let es := .created (kindOf url) fd :: (object.map freeEvents).getD []
    monitor.Accepts k es ∧ used (monitor.after k es) url (kindOf url) fd
  called : ∀ k url kind fd call, used k url kind fd → (methodMonitor kind).allows fd call →
    monitor.allows k (.system fd call) ∧
      used (monitor.next k (.system fd call)) url kind (descriptorBehind fd call)
  ended : ∀ k url object, used k url object.kind object.socket_ → idle k url (some object)

/-! ### What the request and its object have in common -/

/-- Two states of a request with the same socket, URL and version. -/
structure State.Alike (s t : State) : Prop where
  socket : t.socket_ = s.socket_
  url : t.url_ = s.url_
  version : t.info_.ipVersion = s.info_.ipVersion

/-- A state is alike to itself. -/
theorem State.Alike.refl (s : State) : s.Alike s := ⟨rfl, rfl, rfl⟩

/-- The start of a step leaves socket, URL and version alone. -/
theorem State.Alike.steady (s : State) : Steady s.Alike := by
  refine ⟨fun t ht => ⟨?_, ?_, ?_⟩, fun t now ht => ⟨ht.socket, ht.url, ht.version⟩⟩
  · rw [t.tick_socket_, ht.socket]
  · rw [t.tick_url_, ht.url]
  · rw [t.tick_info_, ht.version]

/-- The state of a request whose `socket_` may have been reset. -/
structure State.Released (s t : State) : Prop where
  socket : t.socket_ = s.socket_ ∨ t.socket_ = none
  url : t.url_ = s.url_
  version : t.info_.ipVersion = s.info_.ipVersion

/-- Where nothing has changed nothing has been released. -/
theorem State.Alike.released {s t : State} (h : s.Alike t) : s.Released t := ⟨.inl h.socket, h.url, h.version⟩

/-- `socket_` points to the object, and the request has asked for a version. -/
def StackState.Wired (version : IPVersion) (s : StackState) : Prop :=
  s.request.socket_ = s.object.map ISocket.pointed ∧ s.request.info_.ipVersion = version

variable {κ α β : Type} (p : Plug κ) (version : IPVersion) {env : Env}

/-- The object, if there is one, is held. -/
def Idle (k : κ) (s : StackState) : Prop := s.Wired version ∧ p.idle k s.request.url_ s.object

/-- An object with a property is used. -/
def Using (q : ISocket → Prop) (k : κ) (s : StackState) : Prop :=
  s.Wired version ∧ ∃ object, s.object = some object ∧ q object ∧
    p.used k s.request.url_ object.kind object.socket_

/-- An object with a descriptor is used. -/
abbrev Live : κ → StackState → Prop := Using p version fun object => object.socket_ ≠ none

/-- A property that survives what happens to a request when its socket, URL and version stay. -/
def Blind (P : κ → StackState → Prop) : Prop :=
  ∀ k s request, s.request.Alike request → P k s → P k { s with request }

variable {p version}

/-- The object stays wired to a request that has not changed. -/
theorem StackState.Wired.alike {s : StackState} {request : State} (h : s.Wired version)
    (halike : s.request.Alike request) : { s with request }.Wired version :=
  ⟨halike.socket.trans h.1, halike.version.trans h.2⟩

/-- Holding an object is blind to the rest of the request. -/
theorem blind_idle : Blind (Idle p version) := by
  rintro k s request halike ⟨hwired, hidle⟩
  refine ⟨hwired.alike halike, ?_⟩
  rw [halike.url]
  exact hidle

/-- So is using one. -/
theorem blind_using (q : ISocket → Prop) : Blind (Using p version q) := by
  rintro k s request halike ⟨hwired, object, hobject, hq, hused⟩
  refine ⟨hwired.alike halike, object, hobject, hq, ?_⟩
  rw [halike.url]
  exact hused

/-- An object that is used is held. -/
theorem Using.idle {q : ISocket → Prop} {k : κ} {s : StackState} (h : Using p version q k s) :
    Idle p version k s := by
  obtain ⟨hwired, object, hobject, -, hused⟩ := h
  refine ⟨hwired, ?_⟩
  rw [hobject]
  exact p.ended k _ object hused

/-- A property of the object in use may be weakened. -/
theorem Using.mono {q q' : ISocket → Prop} {k : κ} {s : StackState} (h : Using p version q k s)
    (hq : ∀ object, q object → q' object) : Using p version q' k s := by
  obtain ⟨hwired, object, hobject, hqobject, hused⟩ := h
  exact ⟨hwired, object, hobject, hq object hqobject, hused⟩

/-! ### Events -/

/-- Calls of the system are not seen in the request. -/
theorem requestEvents_onDescriptor (fd : Option Nat) (calls : List Syscall) :
    requestView.events (onDescriptor fd calls) = [] := by
  induction calls generalizing fd with
  | nil => rfl
  | cons call calls ih => exact ih _

/-- The monitor lets the events of a request pass, unless they parse a URL. -/
theorem accepts_request {es : List Event} (h : ∀ e ∈ es, e.parsesUrl = false) (k : κ) :
    p.monitor.Accepts k (es.map .request) ∧ p.monitor.after k (es.map .request) = k := by
  induction es with
  | nil => exact ⟨trivial, rfl⟩
  | cons e es ih =>
    obtain ⟨hallows, hnext⟩ := p.routine k e (h e List.mem_cons_self)
    obtain ⟨haccepts, hafter⟩ := ih fun e' he' => h e' (List.mem_cons_of_mem e he')
    rw [List.map_cons, Monitor.accepts_cons, Monitor.after_cons, hnext]
    exact ⟨⟨hallows, haccepts⟩, hafter⟩

/-- The calls of a method are calls of a used object. -/
theorem accepts_onDescriptor {kind : SocketKind} {calls : List Syscall} :
    ∀ {k : κ} {url : Url} {fd : Option Nat}, p.used k url kind fd →
      (methodMonitor kind).Accepts fd calls →
      p.monitor.Accepts k (onDescriptor fd calls) ∧
        p.used (p.monitor.after k (onDescriptor fd calls)) url kind ((methodMonitor kind).after fd calls) := by
  induction calls with
  | nil => exact fun hused _ => ⟨trivial, hused⟩
  | cons call calls ih =>
    intro k url fd hused haccepts
    obtain ⟨hallows, hnext⟩ := p.called k url kind fd call hused haccepts.1
    obtain ⟨hrest, hafter⟩ := ih hnext haccepts.2
    exact ⟨⟨hallows, hrest⟩, hafter⟩

/-- The start of a step parses no URL. -/
theorem not_parsesUrl_tickEvents (s : State) : ∀ e ∈ s.tickEvents, e.parsesUrl = false := by
  intro e he
  exact eq_false_of_ne_true (routine_of_mem_tickEvents he).not_parsesUrl

/-! ### Rules -/

section

variable {P : κ → StackState → Prop}

/-- A part of the worker that leaves socket, URL and version alone. -/
def Routinely (m : Worker α) : Prop :=
  ∀ s : State, Program.Keeps s.Alike (fun _ _ => True) (fun e => e.parsesUrl = false) m

/-- A routine event parses no URL. -/
theorem not_parsesUrl_of_routine (e : Event) (h : e.Routine) : e.parsesUrl = false :=
  eq_false_of_ne_true h.not_parsesUrl

/-- A part of the worker that leaves the object alone is the same in the stack. -/
theorem refines_lift (hP : Blind P) {m : Worker α} (hm : Routinely m) :
    Program.Refines requestView p.monitor env P (lift m) (Set.univ : Set Unit) (fun _ => m) fun _ => P := by
  refine .lift Set.univ_nonempty fun k s hs => ?_
  obtain ⟨hreturns, hevents⟩ := hm s.request env s.request (.refl s.request)
  obtain ⟨haccepts, hafter⟩ := accepts_request (p := p) hevents k
  refine ⟨haccepts, fun a ha => ?_⟩
  have ha : (m.run env s.request).outcome = .ok a := ha
  rw [ha] at hreturns
  show P (p.monitor.after k ((m.run env s.request).events.map .request)) _
  rw [hafter]
  exact hP k s _ hreturns hs

/-- Reading the state of the request. -/
theorem refines_lift_state :
    Program.Refines requestView p.monitor env P (lift Program.state) (Set.univ : Set Unit)
      (fun _ => Program.state) fun s k t => t.request = s ∧ P k t := by
  refine .lift Set.univ_nonempty fun k s hs => ⟨trivial, ?_⟩
  rintro _ ⟨⟩
  exact ⟨rfl, hs⟩

/-- What is known of the object stays known of it while the request stays like one it has been read from. -/
theorem blind_and_alike (hP : Blind P) (s : State) : Blind fun k t => s.Alike t.request ∧ P k t := by
  rintro k t request halike ⟨hs, ht⟩
  exact ⟨⟨halike.socket.trans hs.socket, halike.url.trans hs.url, halike.version.trans hs.version⟩,
    hP k t request halike ht⟩

/-- Freeing leaves no object, whether there has been one or not. -/
theorem run_freeSocket (env : Env) (t : StackState) :
    freeSocket.run env t = ⟨.ok (), { t with object := none }, (t.object.map freeEvents).getD []⟩ := by
  obtain ⟨request, object⟩ := t
  unfold freeSocket
  cases object with
  | none => rfl
  | some object =>
    dsimp only
    rw [events_destroySocket]
    rfl

/-- An object that nothing points to is freed. -/
theorem run_freeUnowned_of_none {t : StackState} (ht : t.request.socket_ = none) :
    freeUnowned.run env t = ⟨.ok (), { t with object := none }, (t.object.map freeEvents).getD []⟩ := by
  unfold freeUnowned
  rw [Program.run_bind, Program.run_state, Run.andThen_ok, Run.prepend_nil, ht, Option.isNone_none, if_pos rfl,
    run_freeSocket]

/-- An object that the request points to stays. -/
theorem run_freeUnowned_of_wired {t : StackState} (ht : t.request.socket_ = t.object.map ISocket.pointed) :
    freeUnowned.run env t = ⟨.ok (), t, []⟩ := by
  obtain ⟨request, object⟩ := t
  cases object with
  | none => exact run_freeUnowned_of_none ht
  | some object =>
    unfold freeUnowned
    rw [Program.run_bind, Program.run_state, Run.andThen_ok, Run.prepend_nil, ht]
    rfl

/-- A part of the worker that leaves URL and version alone and may reset `socket_`; where it returns a value
with `goes` it has not. -/
def Releasing (goes : α → Prop) (m : Worker α) : Prop :=
  ∀ s : State, Program.Triple s.Alike m (fun a t => s.Released t ∧ (goes a → s.Alike t)) (fun _ _ => True)
    fun e => e.parsesUrl = false

/-- A part of the worker that may reset `socket_` frees the object with it. -/
theorem refines_within (hP : Blind P) (hidle : ∀ k s, P k s → Idle p version k s) {goes : α → Prop}
    {m : Worker α} (hm : Releasing goes m) :
    Program.Refines requestView p.monitor env P (within m) (Set.univ : Set Unit) (fun _ => m)
      fun a k s => Idle p version k s ∧ (goes a → P k s) := by
  refine Program.Refines.then_silent (Q := fun a k t => ∃ s : StackState, P k s ∧ Idle p version k s ∧
    t = { s with request := t.request } ∧ s.request.Released t.request ∧
      (goes a → s.request.Alike t.request)) ?_ ?_
  · refine .lift Set.univ_nonempty fun k s hs => ?_
    obtain ⟨hreturns, hevents⟩ := hm s.request env s.request (.refl s.request)
    obtain ⟨haccepts, hafter⟩ := accepts_request (p := p) hevents k
    refine ⟨haccepts, fun a ha => ?_⟩
    have ha : (m.run env s.request).outcome = .ok a := ha
    rw [ha] at hreturns
    have hafter : p.monitor.after k ((m.run env (requestView.state s)).events.map requestView.shown) = k := hafter
    rw [hafter]
    exact ⟨s, hs, hidle k s hs, rfl, hreturns⟩
  · rintro a k t ⟨s, hs, ⟨hwired, hk⟩, ht, hreleased, hgoes⟩
    rw [ht]
    rcases hreleased.socket with hsocket | hsocket
    · -- the object is still owned
      have halike : s.request.Alike t.request := ⟨hsocket, hreleased.url, hreleased.version⟩
      refine ⟨_, [], run_freeUnowned_of_wired ?_, rfl, rfl, trivial, ?_, fun _ => hP k s _ halike hs⟩
      · exact (hwired.alike halike).1
      · exact blind_idle k s _ halike ⟨hwired, hk⟩
    · have hwired' : StackState.Wired version ⟨t.request, none⟩ := ⟨hsocket, hreleased.version.trans hwired.2⟩
      have hfreed : p.monitor.Accepts k ((s.object.map freeEvents).getD []) ∧
          p.idle (p.monitor.after k ((s.object.map freeEvents).getD [])) s.request.url_ none := by
        cases hobject : s.object with
        | none =>
          rw [hobject] at hk
          exact ⟨trivial, hk⟩
        | some object =>
          rw [hobject] at hk
          exact p.freed k _ object hk
      refine ⟨⟨t.request, none⟩, (s.object.map freeEvents).getD [], run_freeUnowned_of_none hsocket, rfl, ?_,
        hfreed.1, ⟨hwired', ?_⟩, fun ha => ?_⟩
      · cases s.object with
        | none => rfl
        | some object => exact requestEvents_onDescriptor _ _
      · show p.idle _ t.request.url_ none
        rw [hreleased.url]
        exact hfreed.2
      · -- going on without a socket means that there was none before
        have halike := hgoes ha
        have hnone : s.object = none := by
          have hmap := hwired.1
          rw [← halike.socket, hsocket] at hmap
          exact Option.map_eq_none_iff.mp hmap.symm
        have hP' := hP k s _ halike hs
        rw [hnone] at hP' ⊢
        exact hP'

/-- What the worker sees of the call of a method, whose result it takes from a script. -/
def answered (call : Call) (now : UInt64) (a : α) : Worker α := do
  callSocket call
  returnAt now
  pure a

/-- The run of a call that the script answers. -/
theorem run_answered (call : Call) (now : UInt64) (a : α) {s : State} (hs : s.socket_ ≠ none) :
    (answered call now a).run env s =
      ⟨.ok a, { s.tick with now := now }, s.tickEvents ++ [.call call, .returned now]⟩ := by
  unfold answered
  rw [Program.run_bind, run_callSocket_of_ne_none env hs, Run.andThen_ok]
  simp

/-- The run of a method call, from that of the method. -/
theorem run_callMethod (env : Env) (call : Call) (m : Method α) (now : UInt64) {t : StackState}
    {object : ISocket} (hsocket : t.request.socket_ ≠ none) (hobject : t.object = some object) :
    (callMethod call m now).run env t =
      let r := m.run () ⟨object, t.request.tick.now⟩
      let es := (t.request.tickEvents ++ [Event.call call]).map StackEvent.request ++
        onDescriptor object.socket_ r.events
      match r.outcome with
      | .ok a => ⟨.ok a, ⟨{ t.request.tick with now := now }, some r.state.self⟩,
          es ++ [.request (.returned now)]⟩
      | .error stop => ⟨.error stop, ⟨{ t.request.tick with now := r.state.now }, some r.state.self⟩, es⟩ := by
  have hcall : (lift (callSocket call)).run env t =
      ⟨.ok (), { t with request := t.request.tick },
        (t.request.tickEvents ++ [Event.call call]).map StackEvent.request⟩ := by
    have hrun : (callSocket call).run env (requestView.state t) = _ := run_callSocket_of_ne_none env hsocket call
    rw [View.run_lift, hrun]
    rfl
  unfold callMethod
  rw [Program.run_bind, hcall, Run.andThen_ok, Program.run_bind, Program.run_state, Run.andThen_ok,
    Run.prepend_nil]
  dsimp only
  rw [hobject, Program.run_bind]
  unfold runMethod
  dsimp only
  generalize m.run () ⟨object, t.request.tick.now⟩ = r
  obtain ⟨o, s, es⟩ := r
  cases o with
  | error stop => rfl
  | ok a =>
    dsimp only
    rw [List.append_assoc]
    rfl

/-- **The call of a method**, for whatever it makes of its object: the worker goes on with the result it has
from a script, and the calls of the method are calls of a used object. -/
theorem refines_callMethod {q : ISocket → Prop} {q' : α → ISocket → Prop} {S : Set α} (hS : S.Nonempty)
    {call : Call} (hcall : ∀ text, call ≠ .parseUrl text) {m : Method α} (now : UInt64)
    (hm : ∀ object, q object → WatchMethod object (Untouched object) m
      fun a fd s => a ∈ S ∧ Remains object.pointed fd s ∧ q' a s.self) :
    Program.Refines requestView p.monitor env (Using p version q) (callMethod call m now) S
      (answered call now) fun a => Using p version (q' a) := by
  rintro k t ⟨hwired, object, hobject, hq, hused⟩
  have hsocket : t.request.socket_ ≠ none := by
    rw [hwired.1, hobject]
    exact Option.some_ne_none _
  -- the events in front of the method and behind it are the request's own
  have hfrontEvents : ∀ e ∈ t.request.tickEvents ++ [Event.call call], e.parsesUrl = false := by
    intro e he
    rcases List.mem_append.mp he with he | he
    · exact not_parsesUrl_tickEvents _ e he
    · rw [List.mem_singleton.mp he]
      cases call with
      | parseUrl text => exact absurd rfl (hcall text)
      | getaddrinfo | newSocket | connect | canSend | send | canReceive | receive => rfl
  obtain ⟨hfront, hfrontAfter⟩ := accepts_request (p := p) hfrontEvents k
  obtain ⟨hmethod, hresult⟩ := hm object hq object.socket_ ⟨object, t.request.tick.now⟩ ⟨rfl, rfl⟩
  obtain ⟨haccepts, hafter⟩ := accepts_onDescriptor hused hmethod
  have hrun (a : α) : (answered call now a).run env (requestView.state t) = _ := run_answered call now a hsocket
  rw [run_callMethod env call m now hsocket hobject]
  generalize m.run () ⟨object, t.request.tick.now⟩ = r at *
  obtain ⟨o, s, es⟩ := r
  have hseen : requestView.events ((t.request.tickEvents ++ [Event.call call]).map StackEvent.request ++
      onDescriptor object.socket_ es) = t.request.tickEvents ++ [Event.call call] := by
    rw [View.events_append, requestEvents_onDescriptor, List.append_nil]
    exact requestView.events_map_shown _
  have hbefore : p.monitor.Accepts k ((t.request.tickEvents ++ [Event.call call]).map StackEvent.request ++
      onDescriptor object.socket_ es) := by
    rw [Monitor.accepts_append, hfrontAfter]
    exact ⟨hfront, haccepts⟩
  cases o with
  | error stop =>
    -- the method waits, and the worker has not seen its result
    obtain ⟨a, ha⟩ := hS
    have hstop : stop = .pending := hresult
    refine ⟨a, ha, .inr ⟨congrArg Except.error hstop, ?_⟩, hbefore, nofun⟩
    dsimp only
    rw [hseen, hrun a]
    exact ⟨[.returned now], List.append_assoc _ _ _⟩
  | ok a =>
    obtain ⟨ha, ⟨hfd, hpointed⟩, hq'⟩ := hresult
    obtain ⟨hlast, hlastAfter⟩ := p.routine (p.monitor.after k (onDescriptor object.socket_ es)) (.returned now) rfl
    have hend : p.monitor.after k ((t.request.tickEvents ++ [Event.call call]).map StackEvent.request ++
        onDescriptor object.socket_ es ++ [.request (.returned now)]) =
        p.monitor.after k (onDescriptor object.socket_ es) := by
      rw [Monitor.after_append, Monitor.after_append, hfrontAfter]
      exact hlastAfter
    refine ⟨a, ha, .inl ?_, ?_, ?_⟩
    · rw [hrun a]
      refine ⟨rfl, rfl, ?_⟩
      dsimp only
      rw [View.events_append, hseen, List.append_assoc]
      rfl
    · dsimp only
      rw [Monitor.accepts_append, Monitor.after_append, hfrontAfter]
      exact ⟨hbefore, hlast, trivial⟩
    · rintro _ ⟨⟩
      dsimp only
      rw [hend]
      refine ⟨⟨?_, ?_⟩, s.self, rfl, hq', ?_⟩
      · show t.request.tick.socket_ = some s.self.pointed
        rw [State.tick_socket_, hwired.1, hobject, hpointed]
        rfl
      · show t.request.tick.info_.ipVersion = version
        rw [State.tick_info_]
        exact hwired.2
      · show p.used _ t.request.tick.url_ s.self.kind s.self.socket_
        have hkind : s.self.kind = object.kind := congrArg Socket.kind hpointed
        rw [State.tick_url_, hkind, ← hfd]
        exact hafter

end

end HttpRequest
