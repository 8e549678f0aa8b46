import HttpRequest.Lifecycle.Stages
import HttpRequest.Redirects.Limit

/-! # Callbacks behind `cancel()`

`responseHeader`, `responseData` and `disconnected` check `isValid_` in front of their callbacks; the report
of an error and `onConnected` do not. Behind a `cancel()` that is all there is (`accepts_process`), so that a
`cancel()` silences a request in every run exactly when neither of the two can be reached
(`silenced_process_iff`). -/

namespace HttpRequest

open Foundations

/-! ### The monitor -/

/-- The callbacks that may be made behind a `cancel()`, by a request that may connect or not. -/
def MayFollow (handler : ResponseHandler) (connects : Prop) : Callback → Prop
  | .onConnected => handler.onConnected = true ∧ connects
  | .onError _ _ => handler.onError = true
  | .onParseHeaderDone _ | .onData _ | .onDisconnected => False

/-- Whether the request has been cancelled, and which callbacks may be made then. -/
def cancelMonitor (handler : ResponseHandler) (connects : Prop) : Monitor Bool Event where
  next
    | _, .cancelled => true
    | cancelled, _ => cancelled
  allows
    | true, .callback callback => MayFollow handler connects callback
    | _, _ => True

/-- Behind a `cancel()` the request is not valid. -/
structure CancelSeen (handler : ResponseHandler) (info : RequestInfo) (cancelled : Bool) (s : State) :
    Prop where
  handlers : s.handler_ = handler
  timeout : s.info_.timeout = info.timeout
  invalid : cancelled = true → s.isValid_ = false

variable {handler : ResponseHandler} {info : RequestInfo} {connects : Prop} {cancelled : Bool} {s : State}

/-- A callback that is made by a valid request is not made behind a `cancel()`. -/
theorem CancelSeen.allows_of_valid (h : CancelSeen handler info cancelled s) (hvalid : s.isValid_ = true)
    (callback : Callback) : (cancelMonitor handler connects).allows cancelled (.callback callback) := by
  cases cancelled with
  | false => trivial
  | true =>
    rw [h.invalid rfl] at hvalid
    cases hvalid

/-- A callback that may be made at any time. -/
theorem allows_of_mayFollow {callback : Callback} (h : MayFollow handler connects callback) :
    (cancelMonitor handler connects).allows cancelled (.callback callback) := by
  cases cancelled with
  | false => trivial
  | true => exact h

/-- A `cancel()` is seen in `isValid_` from the step on in which it comes. -/
theorem ticks_cancelSeen (handler : ResponseHandler) (info : RequestInfo) (connects : Prop) :
    Ticks (cancelMonitor handler connects) (CancelSeen handler info) (CancelSeen handler info) :=
  ticks_of (fun _ _ hs => ⟨hs.handlers, hs.timeout, hs.invalid⟩)
    (fun _ _ _ hs => ⟨hs.handlers, hs.timeout, hs.invalid⟩)
    fun cancelled _ hs => ⟨by cases cancelled <;> trivial, hs.handlers, hs.timeout, fun _ => rfl⟩

/-! ### The steps of the worker -/

/-- What is known at a stage: a socket is in use only if there was time to connect it. -/
def CancelAt (handler : ResponseHandler) (info : RequestInfo) : Stage → Bool → State → Prop
  | .live => fun cancelled s => 0 < info.timeout ∧ CancelSeen handler info cancelled s
  | .start | .idle | .fresh | .ended => CancelSeen handler info

/-- What is known at any stage holds what is known of the cancel. -/
theorem cancelSeen_of_cancelAt {stage : Stage} (h : CancelAt handler info stage cancelled s) :
    CancelSeen handler info cancelled s := by
  cases stage with
  | live => exact h.2
  | start | idle | fresh | ended => exact h

/-- Time that is left is time that was given. -/
theorem pos_of_remainTime_pos (h : 0 < remainTime s) : 0 < s.info_.timeout := by
  have hnonneg : 0 ≤ Time.diff s.now s.startStamp_ := Int.natCast_nonneg _
  unfold remainTime at h
  omega

/-- Behind a cancel `disconnected` makes no callback. -/
theorem watch_disconnected_cancelSeen (env : Env) (handler : ResponseHandler) (info : RequestInfo)
    (connects : Prop) :
    Program.Watch (cancelMonitor handler connects) env (CancelSeen handler info) disconnected
      (fun _ => CancelSeen handler info) fun _ _ _ => True :=
  (ticks_cancelSeen handler info connects).disconnected
    (fun _ _ hs hvalid _ => ⟨hs.allows_of_valid hvalid _, hs.handlers, hs.timeout, hs.invalid⟩)
    fun _ _ hs _ => hs

/-- Behind a cancel `handleErrorResponse` makes no callback but `onError`. -/
theorem watch_handleErrorResponse_cancelSeen (env : Env) (handler : ResponseHandler) (info : RequestInfo)
    (connects : Prop) (code : ResultCode) (errorCode : Int) :
    Program.Watch (cancelMonitor handler connects) env (CancelSeen handler info)
      (handleErrorResponse code errorCode) (fun _ => CancelSeen handler info) fun _ _ _ => True := by
  refine (ticks_cancelSeen handler info connects).handleErrorResponse (fun k s hs hinstalled => ⟨?_, hs⟩)
    (watch_disconnected_cancelSeen env handler info connects)
  have hmay : MayFollow handler connects (.onError code errorCode) := by
    rw [hs.handlers] at hinstalled
    exact hinstalled
  exact allows_of_mayFollow hmay

/-- At every stage a `cancel()` may come. -/
theorem ticks_cancelAt (handler : ResponseHandler) (info : RequestInfo) (connects : Prop) (stage : Stage) :
    Ticks (cancelMonitor handler connects) (CancelAt handler info stage) (CancelAt handler info stage) := by
  intro k s hs
  obtain ⟨haccepts, hseen⟩ := ticks_cancelSeen handler info connects k s (cancelSeen_of_cancelAt hs)
  refine ⟨haccepts, ?_⟩
  cases stage with
  | live => exact ⟨hs.1, hseen⟩
  | start | idle | fresh | ended => exact hseen

/-- A call through the socket in use. -/
theorem watch_callSocket_cancelAt (env : Env) (handler : ResponseHandler) (info : RequestInfo)
    (connects : Prop) (call : Call) :
    Program.Watch (cancelMonitor handler connects) env (CancelAt handler info .live) (callSocket call)
      (fun _ => CancelAt handler info .live) fun _ _ _ => True :=
  (ticks_cancelAt handler info connects .live).callSocket (fun _ _ _ _ => trivial)
    fun cancelled _ hs => ⟨by cases cancelled <;> trivial, hs⟩

/-- The time is nothing to a `cancel()`. -/
theorem watch_returnAt_cancelAt (env : Env) (handler : ResponseHandler) (info : RequestInfo) (connects : Prop)
    {stage : Stage} (hstage : stage ≠ .ended) (now : UInt64) :
    Program.Watch (cancelMonitor handler connects) env (CancelAt handler info stage) (returnAt now)
      (fun _ => CancelAt handler info stage) fun _ _ _ => True := by
  refine .of_run (run_returnAt now env) fun cancelled s hs =>
    ⟨⟨by cases cancelled <;> trivial, trivial⟩, ?_⟩
  have hseen := cancelSeen_of_cancelAt hs
  have hnow : CancelSeen handler info cancelled { s with now := now } :=
    ⟨hseen.handlers, hseen.timeout, hseen.invalid⟩
  cases stage with
  | live => exact ⟨hs.1, hnow⟩
  | start | idle | fresh => exact hnow
  | ended => exact absurd rfl hstage

/-- **The checks of `isValid_`, stage by stage.** -/
theorem staged_cancelAt (env : Env) (handler : ResponseHandler) (info : RequestInfo) :
    Staged (cancelMonitor handler (0 < info.timeout)) env (fun _ => True) (CancelAt handler info)
      (fun _ _ _ => True) where
  pending _ _ _ _ := trivial
  fault _ _ _ _ _ := trivial
  returned _ := watch_returnAt_cancelAt env handler info _
  error stage _ code errorCode :=
    (watch_handleErrorResponse_cancelSeen env handler info _ code errorCode).conseq
      (fun _ _ hs => cancelSeen_of_cancelAt hs) fun _ _ _ hs => hs
  disconnected := (watch_disconnected_cancelSeen env handler info _).conseq (fun _ _ hs => hs.2)
    fun _ _ _ hs => hs
  parsed _ := (ticks_cancelSeen handler info _).callOut fun cancelled _ hs =>
    ⟨by cases cancelled <;> trivial, hs.handlers, hs.timeout, hs.invalid⟩
  resolved _ _ _ := (ticks_cancelSeen handler info _).callOut fun cancelled _ hs =>
    ⟨by cases cancelled <;> trivial, hs⟩
  created socket := .of_run (run_storeSocket env socket) fun cancelled _ hs =>
    ⟨⟨by cases cancelled <;> trivial, trivial⟩, hs.handlers, hs.timeout, hs.invalid⟩
  connect timeout htimeout := by
    refine (watch_callSocket_cancelAt env handler info _ (.connect timeout)).conseq ?_ fun _ _ _ hs => hs
    rintro cancelled s ⟨rfl, hs⟩
    have htime : 0 < info.timeout := hs.timeout ▸ pos_of_remainTime_pos htimeout
    exact ⟨htime, hs⟩
  connected := by
    by_cases hinstalled : handler.onConnected = true
    · refine .conseq (P := CancelAt handler info .live) ?_ (fun _ _ hs => hs.2) fun _ _ _ hs => hs
      refine (ticks_cancelAt handler info _ .live).invoke fun _ _ hs => ⟨?_, hs⟩
      have hmay : MayFollow handler (0 < info.timeout) .onConnected := ⟨hinstalled, hs.1⟩
      exact allows_of_mayFollow hmay
    · rintro cancelled s ⟨hs, -, hseen⟩
      rw [hseen.handlers] at hs
      exact absurd hs hinstalled
  canSend timeout := (watch_callSocket_cancelAt env handler info _ _).conseq (fun _ _ hs => hs.2)
    fun _ _ _ hs => hs
  encoded _ _ _ hs := ⟨hs.1, hs.2.handlers, hs.2.timeout, hs.2.invalid⟩
  send data := watch_callSocket_cancelAt env handler info _ _
  loaded := (ticks_cancelAt handler info _ .live).loadValid.conseq (fun _ _ hs => hs)
    fun _ _ _ hs => hs.2
  canReceive timeout := (watch_callSocket_cancelAt env handler info _ _).conseq (fun _ _ hs => hs.2)
    fun _ _ _ hs => hs
  reading := .of_receive (watch_callSocket_cancelAt env handler info _ _)
    (watch_returnAt_cancelAt env handler info _ (by decide))
    (fun code errorCode => (watch_handleErrorResponse_cancelSeen env handler info _ code errorCode).conseq
      (fun _ _ hs => hs.2) fun _ _ _ hs => hs)
    ((watch_disconnected_cancelSeen env handler info _).conseq (fun _ _ hs => hs.2) fun _ _ _ hs => hs)
  header _ := (ticks_cancelAt handler info _ .live).guarded
    fun _ _ hs hvalid _ => ⟨hs.2.allows_of_valid hvalid _, hs⟩
  data _ := (ticks_cancelAt handler info _ .live).guarded
    fun _ _ hs hvalid _ => ⟨hs.2.allows_of_valid hvalid _, hs⟩
  counted _ := watch_countRedirect (R := CancelSeen handler info) (T := CancelSeen handler info)
    ((watch_handleErrorResponse_cancelSeen env handler info _ _ _).conseq (fun _ _ hs => hs.2.2)
      fun _ _ _ hs => hs)
    (fun _ _ _ hs => hs.2) (fun _ _ hs => ⟨hs.handlers, hs.timeout, hs.invalid⟩)
    (ticks_cancelSeen handler info _)
    fun cancelled _ hs => ⟨by cases cancelled <;> trivial, hs.handlers, hs.timeout, hs.invalid⟩

/-! ### Runs -/

/-- A request that never connects: its method is not known, its URL is refused, or it is given no time. -/
def NeverConnects (env : Env) (info : RequestInfo) : Prop :=
  info.methodType = .Unknown ∨ ¬Accepted env info.url ∨ info.timeout ≤ 0

/-- In every run the callbacks behind a `cancel()` are those that are made unchecked. -/
theorem accepts_process (env : Env) (info : RequestInfo) (handler : ResponseHandler) (now : UInt64)
    (cancelIn : Option Nat) (connections : List Connection) :
    (cancelMonitor handler ¬NeverConnects env info).Accepts false
      ((process connections).run env (.initial info handler now cancelIn)).events := by
  by_cases hrefused : info.methodType = .Unknown ∨ ¬Accepted env info.url
  · -- the request does nothing but report an error
    let A (cancelled : Bool) (s : State) : Prop := CancelSeen handler info cancelled s ∧ s.info_ = info
    have hticks : Ticks (cancelMonitor handler ¬NeverConnects env info) A A := by
      intro cancelled s hs
      obtain ⟨haccepts, hseen⟩ := ticks_cancelSeen handler info _ cancelled s hs.1
      exact ⟨haccepts, hseen, s.tick_info_.trans hs.2⟩
    have hwatch := watch_process_of_refused (A := A) (B := CancelSeen handler info) hrefused
      (fun _ _ hs => hs.2)
      (fun code => (watch_handleErrorResponse_cancelSeen env handler info _ code 0).conseq
        (fun _ _ hs => hs.1) fun _ _ _ hs => hs)
      (hticks.callOut fun cancelled _ hs =>
        ⟨by cases cancelled <;> trivial, ⟨hs.1.handlers, hs.1.timeout, hs.1.invalid⟩, hs.2⟩) connections
    exact (hwatch false (.initial info handler now cancelIn) ⟨⟨rfl, rfl, nofun⟩, rfl⟩).1
  · have hconnects : (¬NeverConnects env info) = (0 < info.timeout) := by
      rw [not_or] at hrefused
      simp [NeverConnects, hrefused.1, not_not.mp hrefused.2]
    have hwatch := (staged_cancelAt env handler info).process connections fun _ _ _ _ _ => trivial
    rw [hconnects]
    exact (hwatch false (.initial info handler now cancelIn) ⟨rfl, rfl, nofun⟩).1

/-- **What `cancel()` should do**: behind it there is no callback but `onDisconnected`. -/
def Silenced (events : List Event) : Prop :=
  ∀ front rest callback, events = front ++ .cancelled :: rest → .callback callback ∈ rest →
    callback = .onDisconnected

/-- A handler without the callbacks that may follow is silenced. -/
theorem silenced_of_accepts {handler : ResponseHandler} {connects : Prop} {events : List Event}
    (h : (cancelMonitor handler connects).Accepts false events)
    (hnone : ∀ callback, ¬MayFollow handler connects callback) : Silenced events := by
  rintro front rest callback rfl hmem
  obtain ⟨mid, rest, rfl⟩ := List.append_of_mem hmem
  rw [← List.cons_append, ← List.append_assoc] at h
  have hallows := Monitor.Accepts.allows h
  have hcancelled : (cancelMonitor handler connects).after false (front ++ .cancelled :: mid) = true := by
    rw [Monitor.after_append, Monitor.after_cons]
    refine Monitor.after_of_forall (M := cancelMonitor handler connects) (I := (· = true)) ?_ rfl
    rintro e - _ rfl
    cases e <;> rfl
  rw [hcancelled] at hallows
  exact absurd hallows (hnone callback)

/-! ### Runs that are not silenced -/

/-- A connection whose lookup fails. -/
def unresolved (now : UInt64) : Connection :=
  { lookup := ⟨none, 0, now⟩, connect := ⟨{}, 0, now⟩, canSend := ⟨{}, now⟩, sends := [], rounds := [] }

/-- A connection that connects at once. -/
def connecting (now : UInt64) : Connection :=
  { lookup := ⟨some .inet, 0, now⟩, connect := ⟨{}, 0, now⟩, canSend := ⟨{}, now⟩, sends := [],
    rounds := [] }

/-- A callback in a run that starts with a `cancel()`. -/
theorem not_silenced_of_mem {r r' : Run State Event Stop Unit} {es : List Event}
    (hrun : r = r'.prepend (.cancelled :: es)) {callback : Callback} (hmem : .callback callback ∈ r'.events)
    (hne : callback ≠ .onDisconnected) : ¬Silenced r.events := by
  intro h
  rw [hrun] at h
  exact hne (h [] (es ++ r'.events) callback rfl (List.mem_append_right _ hmem))

/-- An error is reported whether the request has been cancelled or not. -/
theorem run_handleErrorResponse_of_onError (env : Env) {s : State} (h : s.handler_.onError = true)
    (code : ResultCode) (errorCode : Int) :
    (handleErrorResponse code errorCode).run env s = (disconnected.run env s.tick).prepend
      (s.tickEvents ++ [.callback (.onError code errorCode)]) := by
  unfold handleErrorResponse
  rw [Program.run_bind, Program.run_state, Run.andThen_ok, Run.prepend_nil, if_pos h, Program.run_bind,
    run_step, Run.andThen_ok, Program.run_bind, invoke, Program.run_emit, Run.andThen_ok,
    Run.prepend_prepend]

/-- An error is reported to a handler that asks for errors. -/
theorem onError_mem_handleErrorResponse (env : Env) {s : State} (h : s.handler_.onError = true)
    (code : ResultCode) (errorCode : Int) :
    .callback (.onError code errorCode) ∈ ((handleErrorResponse code errorCode).run env s).events := by
  rw [run_handleErrorResponse_of_onError env h]
  simp

/-- Opening a connection whose lookup fails reports an error. -/
theorem onError_mem_openConnection (env : Env) {s : State} (h : s.handler_.onError = true) (now : UInt64) :
    .callback (.onError .GetAddressFailed 0) ∈
      ((openConnection (unresolved now)).run env s).events := by
  unfold openConnection
  rw [Program.run_bind, Program.run_read, Run.andThen_ok, Run.prepend_nil, Program.run_bind,
    Program.run_state, Run.andThen_ok, Run.prepend_nil, Program.run_bind, run_callOut, Run.andThen_ok,
    Program.run_bind, run_returnAt, Run.andThen_ok]
  refine List.mem_append_right _ (List.mem_append_right _ (Run.mem_andThen ?_ _))
  exact onError_mem_handleErrorResponse env (s := { s.tick with now := now }) (s.tick_handler_.symm ▸ h)
    .GetAddressFailed 0

/-- Connecting a socket with time left reports it. -/
theorem onConnected_mem_connectSocket (env : Env) {s : State} (hsocket : s.socket_ ≠ none)
    (hinstalled : s.handler_.onConnected = true) (htime : 0 < remainTime s) (now : UInt64) :
    .callback .onConnected ∈ ((connectSocket (connecting now)).run env s).events := by
  have hgo : ¬remainTime s ≤ 0 := by omega
  have hinstalled' : ({ s.tick with now := now } : State).handler_.onConnected = true :=
    s.tick_handler_.symm ▸ hinstalled
  unfold connectSocket getRemainTime
  rw [bind_assoc, Program.run_bind, Program.run_state, Run.andThen_ok, pure_bind, if_neg hgo,
    Program.run_bind, run_callSocket_of_ne_none env hsocket, Run.andThen_ok, Program.run_bind,
    run_returnAt, Run.andThen_ok]
  refine List.mem_append_right _ (List.mem_append_right _ (List.mem_append_right _ ?_))
  show _ ∈ ((Program.state >>= fun s => if s.handler_.onConnected then do
    step
    invoke .onConnected
    pure true
    else pure true : Worker Bool).run env { s.tick with now := now }).events
  rw [Program.run_bind, Program.run_state, Run.andThen_ok, if_pos hinstalled', Program.run_bind, run_step,
    Run.andThen_ok]
  simp [invoke]

/-- Opening a connection with time left reports it. -/
theorem onConnected_mem_openConnection (env : Env) {s : State}
    (hurl : s.url_.isHttpScheme env.enableHttps = true) (hinstalled : s.handler_.onConnected = true)
    (htime : 0 < s.info_.timeout) :
    .callback .onConnected ∈ ((openConnection (connecting s.startStamp_)).run env s).events := by
  unfold openConnection
  rw [Program.run_bind, Program.run_read, Run.andThen_ok, Run.prepend_nil, Program.run_bind,
    Program.run_state, Run.andThen_ok, Run.prepend_nil, Program.run_bind, run_callOut, Run.andThen_ok,
    Program.run_bind, run_returnAt, Run.andThen_ok]
  refine List.mem_append_right _ (List.mem_append_right _ ?_)
  show _ ∈ ((storeSocket (createSocket env.enableHttps s.url_ _) >>= fun _ =>
    connectSocket (connecting s.startStamp_)).run env { s.tick with now := s.startStamp_ }).events
  generalize (if s.info_.ipVersion = .Auto then _ else s.info_.ipVersion) = ipVersion
  obtain ⟨socket, hsocket⟩ := Option.isSome_iff_exists.mp (createSocket_isSome hurl ipVersion)
  rw [hsocket, Program.run_bind, run_storeSocket, Run.andThen_ok]
  refine List.mem_append_right _ (onConnected_mem_connectSocket env (by simp) ?_ ?_ _)
  · exact s.tick_handler_.symm ▸ hinstalled
  · have hdiff : Time.diff s.startStamp_ s.startStamp_ = 0 := by simp [Time.diff]
    simp only [remainTime, State.tick_info_, State.tick_startStamp_, hdiff]
    omega

/-- With `onError` installed there is a run that is not silenced. -/
theorem exists_not_silenced_onError (env : Env) (info : RequestInfo) {handler : ResponseHandler}
    (h : handler.onError = true) (now : UInt64) :
    ∃ connections, ¬Silenced ((process connections).run env
      (.initial info handler now (some 0))).events := by
  by_cases hmethod : info.methodType = .Unknown
  · have hrun : (process []).run env (.initial info handler now (some 0)) =
        (handleErrorResponse .MethodError 0).run env (.initial info handler now (some 0)) := by
      have hmethod' : (State.initial info handler now (some 0)).info_.methodType = .Unknown := hmethod
      rw [process, Program.run_bind, Program.run_state, Run.andThen_ok, Run.prepend_nil, if_pos hmethod']
    have herror := run_handleErrorResponse_of_onError env (s := .initial info handler now (some 0)) h
      .MethodError 0
    refine ⟨[], fun hsilenced => ?_⟩
    rw [hrun, herror] at hsilenced
    exact Callback.noConfusion (hsilenced [] _ (.onError .MethodError 0) rfl List.mem_cons_self)
  · -- the lookup of the first connection fails, if the request gets so far
    have hrun := run_process_parsed env hmethod handler now (some 0) [unresolved now]
    have hreport : ∃ code, .callback (.onError code 0) ∈
        ((if !(Url.parse info.url).isValid then handleErrorResponse .UrlInvalid 0
          else if !(Url.parse info.url).isHttpScheme env.enableHttps then
            handleErrorResponse .SchemeNotSupported 0
          else sendRequestOver [unresolved now]).run env (.started info handler now (some 0))).events := by
      have herror (code : ResultCode) := onError_mem_handleErrorResponse env
        (s := .started info handler now (some 0)) h code 0
      split
      · exact ⟨_, herror .UrlInvalid⟩
      split
      · exact ⟨_, herror .SchemeNotSupported⟩
      · exact ⟨_, Run.mem_andThen (onError_mem_openConnection env
          (s := .started info handler now (some 0)) h now) _⟩
    obtain ⟨code, hmem⟩ := hreport
    exact ⟨[unresolved now], not_silenced_of_mem hrun hmem (by simp)⟩

/-- With `onConnected` installed and time to connect there is another one. -/
theorem exists_not_silenced_onConnected {env : Env} {info : RequestInfo} {handler : ResponseHandler}
    (h : handler.onConnected = true) (hconnects : ¬NeverConnects env info) (now : UInt64) :
    ∃ connections, ¬Silenced ((process connections).run env
      (.initial info handler now (some 0))).events := by
  simp only [NeverConnects, not_or, not_not, not_le] at hconnects
  obtain ⟨hmethod, haccepted, htime⟩ := hconnects
  have hmem := onConnected_mem_openConnection env (s := .started info handler now (some 0)) haccepted.2 h
    htime
  refine ⟨[connecting now], not_silenced_of_mem
    (run_process hmethod haccepted handler now (some 0) [connecting now]) (Run.mem_andThen hmem _) ?_⟩
  simp

/-- **`cancel()` silences a request, whenever it is called and whatever the connections answer, exactly when
`onError` is not installed, and `onConnected` is not or the request never connects.** -/
theorem silenced_process_iff (env : Env) (info : RequestInfo) (handler : ResponseHandler) (now : UInt64) :
    (∀ cancelIn connections,
      Silenced ((process connections).run env (.initial info handler now cancelIn)).events) ↔
      handler.onError = false ∧ (handler.onConnected = false ∨ NeverConnects env info) := by
  constructor
  · intro h
    constructor
    · by_contra herror
      rw [Bool.not_eq_false] at herror
      obtain ⟨connections, hnot⟩ := exists_not_silenced_onError env info herror now
      exact hnot (h (some 0) connections)
    · by_contra hconnected
      rw [not_or, Bool.not_eq_false] at hconnected
      obtain ⟨connections, hnot⟩ := exists_not_silenced_onConnected hconnected.1 hconnected.2 now
      exact hnot (h (some 0) connections)
  · rintro ⟨herror, hconnected⟩ cancelIn connections
    refine silenced_of_accepts (accepts_process env info handler now cancelIn connections) ?_
    intro callback hmay
    cases callback with
    | onConnected =>
      rcases hconnected with hnone | hnever
      · rw [hmay.1] at hnone
        cases hnone
      · exact hmay.2 hnever
    | onError => exact absurd (hmay.symm.trans herror) (by decide)
    | onParseHeaderDone | onData | onDisconnected => exact hmay

/-- A lookup that fails behind a `cancel()` is reported. -/
theorem not_silenced_process :
    ¬Silenced ((process [unresolved 0]).run .plain (.initial circularRequest .all 0 (some 1))).events := by
  intro h
  have hevents : ((process [unresolved 0]).run .plain (.initial circularRequest .all 0 (some 1))).events =
      [.call (.parseUrl (bytes "http://a/"))] ++ .cancelled ::
        [.call (.getaddrinfo (bytes "a") (bytes "80") .Auto), .returned 0,
          .callback (.onError .GetAddressFailed 0)] := by rfl
  exact Callback.noConfusion (h _ _ (.onError .GetAddressFailed 0) hevents (by simp))

end HttpRequest
