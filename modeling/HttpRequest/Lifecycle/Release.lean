import HttpRequest.Lifecycle.Stages
import HttpRequest.Redirects.Limit

/-! # The end of a request

When `process` returns, `socket_` should be released and the end announced once. Both are left to
`disconnected`, which does nothing once the request has been cancelled, and nothing for a caller without
`onDisconnected`. What a run leaves is read off its events (`ReleaseAt`). -/

namespace HttpRequest

open Foundations

/-- The events that announce the end of the request. -/
def Event.announcesEnd : Event → Bool
  | .callback .onDisconnected => true
  | _ => false

/-! ### The events so far -/

/-- What the events say of a request that has not ended. -/
structure Running (handler : ResponseHandler) (es : List Event) (s : State) : Prop where
  handlers : s.handler_ = handler
  valid : s.isValid_ = true ↔ .cancelled ∉ es
  unannounced : es.countP Event.announcesEnd = 0
  socket : s.socket_ = none ↔ es.countP Event.opensSocket = 0

/-- What the events say of a request that has ended. -/
structure Ended (handler : ResponseHandler) (es : List Event) (s : State) : Prop where
  announced : handler.onDisconnected = true → .cancelled ∉ es →
    es.countP Event.announcesEnd = 1 ∧ s.socket_ = none
  cancelled : handler.onDisconnected = true → .cancelled ∈ es → es.countP Event.announcesEnd = 0
  kept : handler.onDisconnected = false → (s.socket_ = none ↔ es.countP Event.opensSocket = 0)

/-- A request that has not ended, with so many URLs parsed besides those of redirects; it is known as long as
no more than so many URLs have been parsed in all. -/
def InProgress (handler : ResponseHandler) (limit parsed : Nat) (es : List Event) (s : State) : Prop :=
  es.countP Event.parsesUrl ≤ limit →
    Running handler es s ∧ es.countP Event.parsesUrl = s.redirectCount_.toNat + parsed

/-- What the events say at a stage, as long as no more than seven redirects are asked for. -/
def ReleaseAt (handler : ResponseHandler) : Stage → List Event → State → Prop
  | .start => InProgress handler (1 + 7) 0
  | .idle | .fresh | .live => InProgress handler (1 + 7) 1
  | .ended => fun es s => es.countP Event.parsesUrl ≤ 1 + 7 → Ended handler es s

/-! ### One event more -/

/-- An event that neither parses a URL nor opens a socket, neither announces the end nor cancels. -/
structure Event.Plain (e : Event) : Prop where
  parses : e.parsesUrl = false
  opens : e.opensSocket = false
  announces : e.announcesEnd = false
  cancels : Event.cancelled ≠ e

/-- A call that neither parses a URL nor opens a socket is plain. -/
theorem plain_call {call : Call} (hparses : (Event.call call).parsesUrl = false)
    (hopens : (Event.call call).opensSocket = false) : (Event.call call).Plain :=
  ⟨hparses, hopens, rfl, nofun⟩

/-- A callback that announces no end is plain. -/
theorem plain_callback {callback : Callback}
    (hannounces : (Event.callback callback).announcesEnd = false) : (Event.callback callback).Plain :=
  ⟨rfl, rfl, hannounces, nofun⟩

variable {handler : ResponseHandler} {limit parsed : Nat} {es : List Event} {s t : State} {env : Env}

/-- Counting the events of a kind when there is one event more. -/
theorem countP_snoc (p : Event → Bool) (es : List Event) (e : Event) :
    (es ++ [e]).countP p = es.countP p + if p e then 1 else 0 := by
  rw [List.countP_append, List.countP_singleton]

/-- A plain event behind a running request changes nothing. -/
theorem Running.append (h : Running handler es s) {e : Event} (he : e.Plain) :
    Running handler (es ++ [e]) s where
  handlers := h.handlers
  valid := by simp [h.valid, he.cancels]
  unannounced := by simp [h.unannounced, he.announces]
  socket := by simp [h.socket, he.opens]

/-- Nor does it behind a request in progress. -/
theorem InProgress.append (h : InProgress handler limit parsed es s) {e : Event} (he : e.Plain) :
    InProgress handler limit parsed (es ++ [e]) s := by
  unfold InProgress
  rw [countP_snoc, he.parses]
  exact fun hle => ⟨(h hle).1.append he, (h hle).2⟩

/-- A URL more. -/
theorem InProgress.parse (h : InProgress handler limit 0 es s) (url : Bytes) :
    InProgress handler (limit + 1) 1 (es ++ [.call (.parseUrl url)]) s := by
  unfold InProgress
  have hparses : (Event.call (.parseUrl url)).parsesUrl = true := rfl
  rw [countP_snoc, hparses, if_pos rfl]
  intro hle
  obtain ⟨hrunning, heq⟩ := h (by omega)
  refine ⟨⟨hrunning.handlers, ?_, ?_, ?_⟩, by omega⟩
  · simp [hrunning.valid]
  · simp [hrunning.unannounced, Event.announcesEnd]
  · simp [hrunning.socket, Event.opensSocket]

/-- Members that no event tells anything of. -/
theorem InProgress.congr (h : InProgress handler limit parsed es s) (hhandler : t.handler_ = s.handler_)
    (hvalid : t.isValid_ = s.isValid_) (hsocket : t.socket_ = s.socket_)
    (hcount : t.redirectCount_ = s.redirectCount_) : InProgress handler limit parsed es t := by
  intro hle
  obtain ⟨hrunning, heq⟩ := h hle
  refine ⟨⟨?_, ?_, hrunning.unannounced, ?_⟩, ?_⟩
  · rw [hhandler, hrunning.handlers]
  · rw [hvalid, hrunning.valid]
  · rw [hsocket, hrunning.socket]
  · rw [hcount, heq]

/-- A `cancel()` leaves the request in progress. -/
theorem ticks_inProgress (handler : ResponseHandler) (limit parsed : Nat) :
    Ticks (.history Event) (InProgress handler limit parsed) (InProgress handler limit parsed) := by
  apply ticks_of
  · exact fun es s hs => hs.congr rfl rfl rfl rfl
  · exact fun es s n hs => hs.congr rfl rfl rfl rfl
  · intro es s hs
    refine ⟨trivial, fun hle => ?_⟩
    rw [Monitor.next_history] at hle ⊢
    rw [countP_snoc] at hle ⊢
    obtain ⟨hrunning, heq⟩ := hs hle
    refine ⟨⟨hrunning.handlers, by simp, ?_, ?_⟩, heq⟩
    · simp [hrunning.unannounced, Event.announcesEnd]
    · simp [hrunning.socket, Event.opensSocket]

/-! ### The steps of the worker -/

/-- The end of a request as `disconnected` leaves it. -/
theorem watch_disconnected_ended (env : Env) (handler : ResponseHandler) (parsed : Nat) :
    Program.Watch (.history Event) env (InProgress handler (1 + 7) parsed) disconnected
      (fun _ => ReleaseAt handler .ended) fun _ _ _ => True := by
  refine (ticks_inProgress handler _ parsed).disconnected ?_ ?_
  -- the callback is made, and the socket released behind it
  · intro es s hs hvalid hinstalled
    refine ⟨trivial, fun hle => ?_⟩
    rw [Monitor.next_history] at hle ⊢
    rw [countP_snoc] at hle
    obtain ⟨hrunning, -⟩ := hs hle
    have hnot : .cancelled ∉ es := hrunning.valid.mp hvalid
    refine ⟨fun _ _ => ⟨?_, rfl⟩, fun _ hmem => ?_, fun hnone => ?_⟩
    · simp [hrunning.unannounced, Event.announcesEnd]
    · simp [hnot] at hmem
    · rw [hrunning.handlers, hnone] at hinstalled
      cases hinstalled
  -- the callback is skipped: the request is cancelled, or no callback is installed
  · intro es s hs hskipped hle
    obtain ⟨hrunning, -⟩ := hs hle
    rw [hrunning.handlers] at hskipped
    refine ⟨fun hinstalled hnot => ?_, fun _ _ => hrunning.unannounced, fun _ => hrunning.socket⟩
    rcases hskipped with hvalid | hnone
    · rw [hrunning.valid.mpr hnot] at hvalid
      cases hvalid
    · rw [hinstalled] at hnone
      cases hnone

/-- A reported error ends the request in progress. -/
theorem watch_handleErrorResponse_ended (env : Env) (handler : ResponseHandler) (parsed : Nat)
    (code : ResultCode) (errorCode : Int) :
    Program.Watch (.history Event) env (InProgress handler (1 + 7) parsed)
      (handleErrorResponse code errorCode) (fun _ => ReleaseAt handler .ended) fun _ _ _ => True :=
  (ticks_inProgress handler _ parsed).handleErrorResponse
    (fun _ _ hs _ => ⟨trivial, hs.append (plain_callback rfl)⟩)
    (watch_disconnected_ended env handler parsed)

/-- A call through the socket changes nothing the events tell of. -/
theorem watch_callSocket_plain {call : Call} (hcall : (Event.call call).Plain) :
    Program.Watch (.history Event) env (InProgress handler (1 + 7) 1) (callSocket call)
      (fun _ => InProgress handler (1 + 7) 1) fun _ _ _ => True :=
  (ticks_inProgress handler _ 1).callSocket (fun _ _ _ _ => trivial)
    fun _ _ hs => ⟨trivial, hs.append hcall⟩

/-- A call that returns leaves the request in progress. -/
theorem watch_returnAt_inProgress (env : Env) (handler : ResponseHandler) (parsed : Nat) (now : UInt64) :
    Program.Watch (.history Event) env (InProgress handler (1 + 7) parsed) (returnAt now)
      (fun _ => InProgress handler (1 + 7) parsed) fun _ _ _ => True := by
  refine .of_run (run_returnAt now env) fun es s hs => ⟨⟨trivial, trivial⟩, ?_⟩
  have hplain : (Event.returned now).Plain := ⟨rfl, rfl, rfl, nofun⟩
  exact (hs.append hplain).congr rfl rfl rfl rfl

/-- URLs that have been parsed stay parsed. -/
theorem watch_handleErrorResponse_parsed (env : Env) (n : Nat) (code : ResultCode) (errorCode : Int) :
    Program.Watch (.history Event) env (fun es _ => n ≤ es.countP Event.parsesUrl)
      (handleErrorResponse code errorCode) (fun _ es _ => n ≤ es.countP Event.parsesUrl)
      fun _ _ _ => True := by
  have hsnoc (es : List Event) (e : Event) (h : n ≤ es.countP Event.parsesUrl) :
      n ≤ (es ++ [e]).countP Event.parsesUrl := by
    rw [countP_snoc]
    omega
  have hticks : Ticks (.history Event) (fun es _ => n ≤ es.countP Event.parsesUrl)
      (fun es _ => n ≤ es.countP Event.parsesUrl) :=
    ticks_of (fun _ _ hs => hs) (fun _ _ _ hs => hs) fun _ _ hs => ⟨trivial, hsnoc _ _ hs⟩
  exact hticks.handleErrorResponse (fun _ _ hs _ => ⟨trivial, hsnoc _ _ hs⟩)
    (hticks.disconnected (fun _ _ hs _ _ => ⟨trivial, hsnoc _ _ hs⟩) fun _ _ hs _ => hs)

/-- With the eighth redirect a ninth URL is parsed. -/
theorem watch_countRedirect_inProgress (env : Env) (handler : ResponseHandler) (url : Bytes) :
    Program.Watch (.history Event) env (InProgress handler (1 + 7) 1) (countRedirect url)
      (fun _ => InProgress handler (1 + 7) 1) fun _ _ _ => True := by
  refine watch_countRedirect (R := InProgress handler 7 1) (T := InProgress handler 7 0) ?_ ?_ ?_
    (ticks_inProgress handler 7 0) fun es s hs => ⟨trivial, (hs.parse url).congr rfl rfl rfl rfl⟩
  -- an error is reported here only when the count has reached its limit
  · refine (watch_handleErrorResponse_parsed env (1 + 7) _ _).conseq ?_ ?_
    · rintro es s ⟨hmax, hs⟩
      by_contra hlt
      obtain ⟨-, heq⟩ := hs (by omega)
      have hmax' : 7 ≤ s.redirectCount_.toNat := hmax
      omega
    · exact fun _ es s hle hlt => absurd hle (by omega)
  · exact fun es s _ hs hle => hs (by omega)
  · intro es s hs hle
    obtain ⟨hrunning, heq⟩ := hs hle
    -- below the limit the count does not wrap
    have hcount : (s.redirectCount_ + 1).toNat = s.redirectCount_.toNat + 1 := by
      rw [UInt8.toNat_add]
      exact Nat.mod_eq_of_lt (by show _ + 1 < _; omega)
    exact ⟨⟨hrunning.handlers, hrunning.valid, hrunning.unannounced, hrunning.socket⟩,
      by rw [hcount]; exact heq⟩

/-- **What the events say of the end, stage by stage.** -/
theorem staged_releaseAt (env : Env) (handler : ResponseHandler) :
    Staged (.history Event) env (fun _ => True) (ReleaseAt handler) (fun _ _ _ => True) where
  pending _ _ _ _ := trivial
  fault _ _ _ _ _ := trivial
  returned stage hstage now := by
    cases stage with
    | start => exact watch_returnAt_inProgress env handler 0 now
    | idle | fresh | live => exact watch_returnAt_inProgress env handler 1 now
    | ended => exact absurd rfl hstage
  error stage hstage := by
    cases stage with
    | start => exact watch_handleErrorResponse_ended env handler 0
    | idle | fresh | live => exact watch_handleErrorResponse_ended env handler 1
    | ended => exact absurd rfl hstage
  disconnected := watch_disconnected_ended env handler 1
  parsed url := (ticks_inProgress handler _ 0).callOut fun es s hs => by
    have hlower : InProgress handler 7 0 es s := fun hle => hs (by omega)
    exact ⟨trivial, (hlower.parse url).congr rfl rfl rfl rfl⟩
  resolved _ _ _ := (ticks_inProgress handler _ 1).callOut
    fun _ _ hs => ⟨trivial, hs.append (plain_call rfl rfl)⟩
  created socket := by
    refine .of_run (run_storeSocket env socket) fun es s hs => ⟨⟨trivial, trivial⟩, fun hle => ?_⟩
    rw [Monitor.after_history] at hle ⊢
    rw [countP_snoc] at hle ⊢
    obtain ⟨hrunning, heq⟩ := hs hle
    refine ⟨⟨hrunning.handlers, ?_, ?_, ?_⟩, heq⟩
    · simp [hrunning.valid]
    · simp [hrunning.unannounced, Event.announcesEnd]
    · simp [Event.opensSocket]
  connect timeout _ := (watch_callSocket_plain (plain_call rfl rfl)).conseq (fun _ _ hs => hs.2)
    fun _ _ _ hs => hs
  connected := by
    refine .conseq (P := InProgress handler (1 + 7) 1) ?_ (fun _ _ hs => hs.2) fun _ _ _ hs => hs
    exact (ticks_inProgress handler _ 1).invoke
      fun _ _ hs => ⟨trivial, hs.append (plain_callback rfl)⟩
  canSend timeout := (watch_callSocket_plain (plain_call rfl rfl)).conseq (fun _ _ hs => hs.2)
    fun _ _ _ hs => hs
  encoded _ _ _ hs := hs.congr rfl rfl rfl rfl
  send data := watch_callSocket_plain (plain_call rfl rfl)
  loaded := (ticks_inProgress handler _ 1).loadValid.conseq (fun _ _ hs => hs) fun _ _ _ hs => hs.2
  canReceive timeout := (watch_callSocket_plain (plain_call rfl rfl)).conseq (fun _ _ hs => hs.2)
    fun _ _ _ hs => hs
  reading := .of_receive (watch_callSocket_plain (plain_call rfl rfl)) (watch_returnAt_inProgress env handler 1)
    (watch_handleErrorResponse_ended env handler 1) (watch_disconnected_ended env handler 1)
  header _ := (ticks_inProgress handler _ 1).guarded
    fun _ _ hs _ _ => ⟨trivial, hs.append (plain_callback rfl)⟩
  data _ := (ticks_inProgress handler _ 1).guarded
    fun _ _ hs _ _ => ⟨trivial, hs.append (plain_callback rfl)⟩
  counted := watch_countRedirect_inProgress env handler

/-! ### Requests without a socket -/

/-- A request that ends in front of its first socket: its method is not known, its URL is refused, or its
first lookup fails. -/
def OpensNothing (env : Env) (info : RequestInfo) (connections : List Connection) : Prop :=
  info.methodType = .Unknown ∨ ¬Accepted env info.url ∨
    ∀ connection ∈ connections.head?, connection.lookup.family = none

/-- A `cancel()` opens no socket. -/
theorem ticks_true :
    Ticks (.always fun e : Event => ¬e.opensSocket) (fun _ _ => True) (fun _ _ => True) :=
  ticks_of (fun _ _ _ => trivial) (fun _ _ _ _ => trivial) fun _ _ _ => ⟨nofun, trivial⟩

/-- Reporting an error opens no socket. -/
theorem watch_handleErrorResponse_noSocket (env : Env) (code : ResultCode) (errorCode : Int) :
    Program.Watch (.always fun e : Event => ¬e.opensSocket) env (fun _ _ => True)
      (handleErrorResponse code errorCode) (fun _ _ _ => True) fun _ _ _ => True :=
  ticks_true.handleErrorResponse (fun _ _ _ _ => ⟨nofun, trivial⟩)
    (ticks_true.disconnected (fun _ _ _ _ _ => ⟨nofun, trivial⟩) fun _ _ _ _ => trivial)

/-- An exchange whose lookup fails opens no socket. -/
theorem watch_sendRequest_noSocket (env : Env) (redirect : Bytes → Worker Unit) {connection : Connection}
    (hlookup : connection.lookup.family = none) :
    Program.Watch (.always fun e : Event => ¬e.opensSocket) env (fun _ _ => True)
      (sendRequest redirect connection) (fun _ _ _ => True) fun _ _ _ => True := by
  have hopen : Program.Watch (.always fun e : Event => ¬e.opensSocket) env (fun _ _ => True)
      (openConnection connection) (fun isOpen _ _ => isOpen = false) fun _ _ _ => True := by
    refine .bind_read (.bind_state fun s => ?_)
    refine .conseq (P := fun _ _ => True) ?_ (fun _ _ _ => trivial) fun _ _ _ hs => hs
    refine .bind (Q := fun _ _ _ => True) (ticks_true.callOut fun _ _ _ => ⟨nofun, trivial⟩) fun _ => ?_
    refine .bind (.of_run (Q := fun _ _ _ => True) (run_returnAt _ env) fun _ _ _ => ?_) fun _ => ?_
    · exact ⟨⟨nofun, trivial⟩, trivial⟩
    · rw [hlookup]
      exact (watch_handleErrorResponse_noSocket env _ _).bind fun _ => .pure fun _ _ _ => rfl
  refine hopen.bind fun isOpen => .ite (fun _ => .pure fun _ _ _ => trivial) fun hne => ?_
  rintro _ s rfl
  exact absurd rfl hne

/-- With an accepted URL that is resolved there is a socket. -/
theorem newSocket_mem_openConnection (env : Env) {s : State}
    (hurl : s.url_.isHttpScheme env.enableHttps = true) {connection : Connection} {family : AddressFamily}
    (hfamily : connection.lookup.family = some family) :
    ∃ socket, .call (.newSocket socket) ∈ ((openConnection connection).run env s).events := by
  unfold openConnection
  rw [Program.run_bind, Program.run_read, Run.andThen_ok, Run.prepend_nil, Program.run_bind,
    Program.run_state, Run.andThen_ok, Run.prepend_nil, Program.run_bind, run_callOut, Run.andThen_ok,
    Program.run_bind, run_returnAt, Run.andThen_ok, hfamily]
  dsimp only
  generalize (if s.info_.ipVersion = .Auto then (if family = .inet then IPVersion.V4 else .V6)
    else s.info_.ipVersion) = ipVersion
  obtain ⟨socket, hsocket⟩ := Option.isSome_iff_exists.mp (createSocket_isSome hurl ipVersion)
  refine ⟨socket, ?_⟩
  rw [hsocket, Program.run_bind, run_storeSocket]
  simp

/-- A request opens no socket exactly when it ends in front of the first one. -/
theorem opensSocket_process_iff (env : Env) (info : RequestInfo) (handler : ResponseHandler) (now : UInt64)
    (cancelIn : Option Nat) (connections : List Connection) :
    ((process connections).run env (.initial info handler now cancelIn)).events.countP
      Event.opensSocket = 0 ↔ OpensNothing env info connections := by
  rw [List.countP_eq_zero]
  by_cases hrefused : info.methodType = .Unknown ∨ ¬Accepted env info.url
  · -- nothing but an error report
    have hticks : Ticks (.always fun e : Event => ¬e.opensSocket) (fun _ s => s.info_ = info)
        (fun _ s => s.info_ = info) :=
      ticks_of (fun _ _ hs => hs) (fun _ _ _ hs => hs) fun _ _ hs => ⟨nofun, hs⟩
    have hwatch := watch_process_of_refused (B := fun _ _ => True) hrefused (fun _ _ hs => hs)
      (fun code => (watch_handleErrorResponse_noSocket env code 0).conseq (fun _ _ _ => trivial)
        fun _ _ _ hs => hs) (hticks.callOut fun _ _ hs => ⟨nofun, hs⟩) connections
    refine iff_of_true (Monitor.accepts_always.mp (hwatch () _ rfl).1) ?_
    exact hrefused.imp_right .inl
  · rw [not_or, not_not] at hrefused
    obtain ⟨hmethod, haccepted⟩ := hrefused
    have hiff : OpensNothing env info connections ↔
        ∀ connection ∈ connections.head?, connection.lookup.family = none := by
      simp [OpensNothing, hmethod, haccepted]
    rw [hiff, run_process hmethod haccepted, Run.prepend_events]
    have hfront : ∀ e ∈ (State.initial info handler now cancelIn).tickEvents ++
        [.call (.parseUrl info.url)], ¬e.opensSocket := by
      intro e he
      rcases List.mem_append.mp he with he | he
      · exact (routine_of_mem_tickEvents he).not_opensSocket
      · rw [List.mem_singleton.mp he]
        exact nofun
    rw [List.forall_mem_append, and_iff_right hfront]
    cases connections with
    | nil => simp [sendRequestOver]
    | cons connection rest =>
      rw [List.head?_cons]
      simp only [Option.mem_def, Option.some.injEq, forall_eq']
      constructor
      · intro hnone
        -- a lookup with an address creates a socket
        by_contra hfamily
        obtain ⟨family, hfamily⟩ := Option.ne_none_iff_exists'.mp hfamily
        obtain ⟨socket, hmem⟩ := newSocket_mem_openConnection env
          (s := .started info handler now cancelIn) haccepted.2 hfamily
        exact hnone _ (Run.mem_andThen hmem _) rfl
      · intro hlookup
        have hwatch := watch_sendRequest_noSocket env (redirect (sendRequestOver rest)) hlookup
        exact Monitor.accepts_always.mp (hwatch () _ trivial).1

/-! ### Runs -/

/-- **How a request should end**: the socket is released, and the end announced once to a caller who installed
`onDisconnected`. -/
structure Released (handler : ResponseHandler) (r : Run State Event Stop Unit) : Prop where
  socket : r.state.socket_ = none
  announced : handler.onDisconnected = true → r.events.countP Event.announcesEnd = 1

/-- **A request that returns, and is asked to follow at most seven redirects, ends as it should exactly when
it is not cancelled before its end, if `onDisconnected` is installed, and otherwise exactly when it ends in
front of its first socket.** -/
theorem released_process_iff (env : Env) (info : RequestInfo) (handler : ResponseHandler) (now : UInt64)
    (cancelIn : Option Nat) (connections : List Connection)
    (hreturns : ((process connections).run env (.initial info handler now cancelIn)).outcome = .ok ())
    (hredirects : ((process connections).run env (.initial info handler now cancelIn)).events.countP
      Event.parsesUrl ≤ 1 + 7) :
    Released handler ((process connections).run env (.initial info handler now cancelIn)) ↔
      if handler.onDisconnected then
        .cancelled ∉ ((process connections).run env (.initial info handler now cancelIn)).events
      else OpensNothing env info connections := by
  have hinitial : ReleaseAt handler .start [] (.initial info handler now cancelIn) :=
    fun _ => ⟨⟨rfl, by simp [State.initial], rfl, by simp [State.initial]⟩, rfl⟩
  have hended := ((staged_releaseAt env handler).process connections fun _ _ _ _ _ => trivial).returns hinitial hreturns
  rw [Monitor.after_history, List.nil_append] at hended
  have hend := hended hredirects
  split
  · next hinstalled =>
    constructor
    · intro h hcancelled
      have hone := h.announced hinstalled
      rw [hend.cancelled hinstalled hcancelled] at hone
      cases hone
    · intro hnot
      obtain ⟨hone, hsocket⟩ := hend.announced hinstalled hnot
      exact ⟨hsocket, fun _ => hone⟩
  · next hnone =>
    rw [Bool.not_eq_true] at hnone
    rw [← opensSocket_process_iff env info handler now cancelIn, ← hend.kept hnone]
    exact ⟨fun h => h.socket, fun h => ⟨h, fun hinstalled => by rw [hnone] at hinstalled; cases hinstalled⟩⟩

/-- A redirect that is followed, without a `cancel()`. -/
theorem released_process_redirected :
    Released .all ((process [circularHop, lastHop]).run .plain (.initial circularRequest .all 0 none)) := by
  refine (released_process_iff .plain circularRequest .all 0 none [circularHop, lastHop] (by rfl)
    (by decide +kernel)).mpr ?_
  have hnone : ((process [circularHop, lastHop]).run .plain
      (.initial circularRequest .all 0 none)).events.all
        (fun e => match e with | .cancelled => false | _ => true) = true := by rfl
  intro hmem
  exact Bool.false_ne_true (List.all_eq_true.mp hnone _ hmem)

/-- A request that is cancelled behind `onConnected` returns with its socket and without a word; one without
callbacks keeps its socket in any case. -/
theorem not_released_process :
    (((process [lastHop]).run .plain (.initial circularRequest .all 0 (some 4))).outcome = .ok () ∧
      ¬Released .all ((process [lastHop]).run .plain (.initial circularRequest .all 0 (some 4)))) ∧
    ((process [lastHop]).run .plain
      (.initial circularRequest ⟨false, false, false, false, false⟩ 0 none)).outcome = .ok () ∧
      ¬Released ⟨false, false, false, false, false⟩ ((process [lastHop]).run .plain
        (.initial circularRequest ⟨false, false, false, false, false⟩ 0 none)) := by
  refine ⟨⟨by rfl, fun h => ?_⟩, by rfl, fun h => ?_⟩
  · have hsocket : ((process [lastHop]).run .plain
        (.initial circularRequest .all 0 (some 4))).state.socket_ = some ⟨.PlainSocket, .V4⟩ := by rfl
    rw [h.socket] at hsocket
    cases hsocket
  · have hsocket : ((process [lastHop]).run .plain
        (.initial circularRequest ⟨false, false, false, false, false⟩ 0 none)).state.socket_ =
          some ⟨.PlainSocket, .V4⟩ := by rfl
    rw [h.socket] at hsocket
    cases hsocket

end HttpRequest
