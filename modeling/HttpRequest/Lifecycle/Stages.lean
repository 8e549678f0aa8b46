import HttpRequest.Foundations.Monitor
import HttpRequest.Redirects.Chain

/-! # The stages of a request

Between the calls of its functions a request is at one of five stages: `process` has been entered, a URL is
set, a new socket is stored, the socket is in use, the request has ended. `Staged` lists what the worker does
at each of them, step by step. A monitor and a family of assertions, one a stage, that follow these steps
follow the worker through whole runs, over any number of redirects (`Staged.process`). -/

namespace HttpRequest

open Foundations

/-! ### Steps under a monitor

What a step leads to, and which of the events behind it are allowed, decides about everything the worker does
between two of its reads. -/

section

variable {κ : Type} {M : Monitor κ Event} {env : Env} {P P' Q : κ → State → Prop}
  {E : Stop → κ → State → Prop}

/-- From `P`, the start of a step leads to `P'`, with or without a `cancel()`. -/
def Ticks (M : Monitor κ Event) (P P' : κ → State → Prop) : Prop :=
  ∀ k s, P k s → M.Accepts k s.tickEvents ∧ P' (M.after k s.tickEvents) s.tick

/-- What has to be checked of the start of a step: that it counts down, and that it cancels. -/
theorem ticks_of (hnone : ∀ k s, P k s → P' k { s with cancelIn := none })
    (hsome : ∀ k s n, P k s → P' k { s with cancelIn := some n })
    (hcancel : ∀ k s, P k s → M.allows k .cancelled ∧
      P' (M.next k .cancelled) { s with isValid_ := false, cancelIn := none }) : Ticks M P P' := by
  intro k s hs
  unfold State.tick State.tickEvents
  rcases hcancelIn : s.cancelIn with _ | _ | n
  · have hsame : { s with cancelIn := none } = s := by rw [← hcancelIn]
    exact ⟨trivial, hsame ▸ hnone k s hs⟩
  · rw [if_pos rfl]
    exact ⟨⟨(hcancel k s hs).1, trivial⟩, (hcancel k s hs).2⟩
  · rw [if_neg (by simp)]
    exact ⟨trivial, hsome k s n hs⟩

namespace Ticks

variable (h : Ticks M P P')

include h

/-- The handlers do not change. -/
theorem and_handler (handler : ResponseHandler) :
    Ticks M (fun k s => s.handler_ = handler ∧ P k s) (fun k s => s.handler_ = handler ∧ P' k s) := by
  rintro k s ⟨rfl, hs⟩
  exact ⟨(h k s hs).1, s.tick_handler_, (h k s hs).2⟩

/-- The start of a step and of the other threads, by what it does to the state. -/
theorem step : Program.Watch M env P step (fun _ => P') E := .of_run (fun s => run_step env s) h

/-- `isValid_` is read as it stands behind the step. -/
theorem loadValid :
    Program.Watch M env P loadValid (fun valid k s => valid = s.isValid_ ∧ P' k s) E :=
  h.step.bind fun _ => .bind_state fun s => .pure fun k t ht => ⟨by rw [ht.1], ht.2⟩

/-- A call is shown and leaves the state alone. -/
theorem callOut {call : Call}
    (hcall : ∀ k s, P' k s → M.allows k (.call call) ∧ Q (M.next k (.call call)) s) :
    Program.Watch M env P (callOut call) (fun _ => Q) E :=
  h.step.bind fun _ => .emit (fun k s hs => (hcall k s hs).1) fun k s hs => (hcall k s hs).2

/-- A call through the socket. -/
theorem callSocket {call : Call}
    (hnull : ∀ k s, P' k s → s.socket_ = none → E (.fault .nullPointer) k s)
    (hcall : ∀ k s, P' k s → M.allows k (.call call) ∧ Q (M.next k (.call call)) s) :
    Program.Watch M env P (callSocket call) (fun _ => Q) E := by
  refine h.step.bind fun _ => .bind_state fun s => ?_
  cases hsocket : s.socket_ with
  | none => exact .stop fun k t ht => hnull k t ht.2 (ht.1 ▸ hsocket)
  | some socket => exact .emit (fun k t ht => (hcall k t ht.2).1) fun k t ht => (hcall k t ht.2).2

/-- A callback. -/
theorem invoke {callback : Callback} (hcallback : ∀ k s, P' k s →
      M.allows k (.callback callback) ∧ Q (M.next k (.callback callback)) s) :
    Program.Watch M env P (do HttpRequest.step; HttpRequest.invoke callback) (fun _ => Q) E :=
  h.step.bind fun _ =>
    .emit (fun k s hs => (hcallback k s hs).1) fun k s hs => (hcallback k s hs).2

/-- A callback that is made if the request is valid and the callback installed. -/
theorem guarded {callback : Callback} {installed : ResponseHandler → Bool}
    (hcallback : ∀ k s, P' k s → s.isValid_ = true → installed s.handler_ = true →
      M.allows k (.callback callback) ∧ P' (M.next k (.callback callback)) s) :
    Program.Watch M env P (do
      let valid ← HttpRequest.loadValid
      let s ← Program.state
      if valid && installed s.handler_ then HttpRequest.invoke callback else pure ()) (fun _ => P') E := by
  refine h.loadValid.bind fun valid => .bind_state fun s => .ite (fun hguard => ?_)
    fun _ => .pure fun k t ht => ht.2.2
  rw [Bool.and_eq_true] at hguard
  have hboth (k : κ) (t : State) (ht : t = s ∧ valid = t.isValid_ ∧ P' k t) :
      M.allows k (.callback callback) ∧ P' (M.next k (.callback callback)) t :=
    hcallback k t ht.2.2 (ht.2.1 ▸ hguard.1) (ht.1 ▸ hguard.2)
  exact .emit (fun k t ht => (hboth k t ht).1) fun k t ht => (hboth k t ht).2

/-- The end of a request, which is announced and releases the socket only if the request is valid and
`onDisconnected` installed. -/
theorem disconnected
    (hannounced : ∀ k s, P' k s → s.isValid_ = true → s.handler_.onDisconnected = true →
      M.allows k (.callback .onDisconnected) ∧
        Q (M.next k (.callback .onDisconnected)) { s with socket_ := none })
    (hsilent : ∀ k s, P' k s → s.isValid_ = false ∨ s.handler_.onDisconnected = false → Q k s) :
    Program.Watch M env P disconnected (fun _ => Q) E := by
  refine h.loadValid.bind fun valid => .bind_state fun s => .ite (fun hguard => ?_)
    fun hguard => ?_
  · rw [Bool.and_eq_true] at hguard
    have hboth (k : κ) (t : State) (ht : t = s ∧ valid = t.isValid_ ∧ P' k t) :
        M.allows k (.callback .onDisconnected) ∧
          Q (M.next k (.callback .onDisconnected)) { t with socket_ := none } :=
      hannounced k t ht.2.2 (ht.2.1 ▸ hguard.1) (ht.1 ▸ hguard.2)
    exact .bind (.emit (Q := fun _ k t => Q k { t with socket_ := none })
      (fun k t ht => (hboth k t ht).1) fun k t ht => (hboth k t ht).2) fun _ => .update fun _ _ ht => ht
  · rw [Bool.and_eq_true, not_and_or, Bool.not_eq_true, Bool.not_eq_true] at hguard
    refine .pure ?_
    rintro k _ ⟨rfl, rfl, ht⟩
    exact hsilent k _ ht hguard

end Ticks

/-- An error is reported, if `onError` is installed, in front of the end of the request. -/
theorem Ticks.handleErrorResponse {code : ResultCode} {errorCode : Int} (h : Ticks M P P)
    (herror : ∀ k s, P k s → s.handler_.onError = true →
      M.allows k (.callback (.onError code errorCode)) ∧
        P (M.next k (.callback (.onError code errorCode))) s)
    (hdisconnected : Program.Watch M env P HttpRequest.disconnected (fun _ => Q) E) :
    Program.Watch M env P (HttpRequest.handleErrorResponse code errorCode) (fun _ => Q) E := by
  refine .bind_state fun s => .ite (fun hinstalled => ?_) fun _ => ?_
  · have hreport : Program.Watch M env (fun k t => t.handler_ = s.handler_ ∧ P k t)
        (do HttpRequest.step; HttpRequest.invoke (.onError code errorCode)) (fun _ => P) E :=
      (h.and_handler s.handler_).invoke fun k t ht => herror k t ht.2 (ht.1 ▸ hinstalled)
    have hboth := hreport.bind fun _ => hdisconnected
    rw [bind_assoc] at hboth
    refine hboth.conseq ?_ fun _ _ _ hs => hs
    rintro k _ ⟨rfl, hs⟩
    exact ⟨rfl, hs⟩
  · exact hdisconnected.conseq (fun _ _ hs => hs.2) fun _ _ _ hs => hs

/-- A redirect is counted, behind the report at the limit, and its URL parsed. -/
theorem watch_countRedirect {R T U : κ → State → Prop} {url : Bytes}
    (hlimit : Program.Watch M env (fun k s => redirectMaxCount ≤ s.redirectCount_ ∧ P k s)
      (handleErrorResponse .RedirectReachMaxCount 0) (fun _ => R) E)
    (hbelow : ∀ k s, s.redirectCount_ < redirectMaxCount → P k s → R k s)
    (hcount : ∀ k s, R k s → T k { s with redirectCount_ := s.redirectCount_ + 1 })
    (hticks : Ticks M T U)
    (hparse : ∀ k s, U k s → M.allows k (.call (.parseUrl url)) ∧
      Q (M.next k (.call (.parseUrl url))) { s with url_ := Url.parse url }) :
    Program.Watch M env P (countRedirect url) (fun _ => Q) E := by
  have hrest : Program.Watch M env R (do
      Program.update fun s => { s with redirectCount_ := s.redirectCount_ + 1 }
      callOut (.parseUrl url)
      Program.update fun s => { s with url_ := Url.parse url }) (fun _ => Q) E := by
    refine .bind (.update (Q := fun _ => T) hcount) fun _ => ?_
    have hcall : Program.Watch M env T (callOut (.parseUrl url))
        (fun _ k s => Q k { s with url_ := Url.parse url }) E := hticks.callOut hparse
    exact hcall.bind fun _ => .update fun _ _ hs => hs
  refine .bind_state fun s => .ite (fun hmax => ?_) fun hmax => ?_
  · refine .bind (hlimit.conseq ?_ fun _ _ _ hs => hs) fun _ => hrest
    rintro k _ ⟨rfl, hs⟩
    exact ⟨hmax, hs⟩
  · refine hrest.conseq ?_ fun _ _ _ hs => hs
    rintro k _ ⟨rfl, hs⟩
    exact hbelow k _ (UInt8.not_le.mp hmax) hs

end

/-! ### Stages -/

/-- Where a request stands. -/
inductive Stage
  /-- `process` has been entered. -/
  | start
  /-- `url_` is set. -/
  | idle
  /-- `socket_` is a new socket. -/
  | fresh
  /-- `socket_` has been connected. -/
  | live
  /-- The request has ended. -/
  | ended
  deriving DecidableEq

/-- A reply of `ISocket::receive` behind which the request goes on: there are data, or it is to try again. -/
def ReceiveReply.GoesOn (reply : ReceiveReply) : Prop :=
  reply.result.isSuccess = true ∨ reply.result.resultCode = .Retry

/-- What `P` leads to where the socket is read: `P` again behind the reads at the times `reads`, and `Q` where the
request ends behind a read. -/
structure Reading {κ : Type} (M : Monitor κ Event) (env : Env) (reads : UInt64 → Prop) (P Q : κ → State → Prop)
    (E : Stop → κ → State → Prop) : Prop where
  goesOn : ∀ now, reads now →
    Program.Watch M env P (do callSocket .receive; returnAt now) (fun _ => P) E
  failed : ∀ now code errorCode,
    Program.Watch M env P (do callSocket .receive; returnAt now; handleErrorResponse code errorCode) (fun _ => Q) E
  closed : ∀ now, Program.Watch M env P (do callSocket .receive; returnAt now; disconnected) (fun _ => Q) E

/-- Reads whose call and whose return keep what is known. -/
theorem Reading.of_receive {κ : Type} {M : Monitor κ Event} {env : Env} {reads : UInt64 → Prop}
    {P Q : κ → State → Prop} {E : Stop → κ → State → Prop}
    (hreceive : Program.Watch M env P (callSocket .receive) (fun _ => P) E)
    (hreturned : ∀ now, Program.Watch M env P (returnAt now) (fun _ => P) E)
    (herror : ∀ code errorCode, Program.Watch M env P (handleErrorResponse code errorCode) (fun _ => Q) E)
    (hdisconnected : Program.Watch M env P disconnected (fun _ => Q) E) : Reading M env reads P Q E where
  goesOn now _ := hreceive.bind fun _ => hreturned now
  failed now code errorCode := hreceive.bind fun _ => (hreturned now).bind fun _ => herror code errorCode
  closed now := hreceive.bind fun _ => (hreturned now).bind fun _ => hdisconnected

/-- **The assertions `A` follow the worker from stage to stage**, while the monitor `M` accepts its events;
`E` holds where the worker is left behind, and the reads it goes on behind return at the times `reads`. -/
structure Staged {κ : Type} (M : Monitor κ Event) (env : Env) (reads : UInt64 → Prop)
    (A : Stage → κ → State → Prop) (E : Stop → κ → State → Prop) : Prop where
  pending : ∀ stage k s, A stage k s → E .pending k s
  fault : ∀ fault k s, fault ≠ .nullPointer → A .live k s → E (.fault fault) k s
  returned : ∀ stage, stage ≠ .ended → ∀ now, Program.Watch M env (A stage) (returnAt now) (fun _ => A stage) E
  error : ∀ stage, stage ≠ .ended → ∀ code errorCode,
    Program.Watch M env (A stage) (handleErrorResponse code errorCode) (fun _ => A .ended) E
  disconnected : Program.Watch M env (A .live) disconnected (fun _ => A .ended) E
  parsed : ∀ url, Program.Watch M env (A .start) (callOut (.parseUrl url))
    (fun _ k s => A .idle k { s with url_ := Url.parse s.info_.url }) E
  resolved : ∀ host port ipVersion,
    Program.Watch M env (A .idle) (callOut (.getaddrinfo host port ipVersion)) (fun _ => A .idle) E
  created : ∀ socket, Program.Watch M env (A .idle) (storeSocket (some socket)) (fun _ => A .fresh) E
  connect : ∀ timeout, 0 < timeout →
    Program.Watch M env (fun k s => timeout = remainTime s ∧ A .fresh k s)
      (callSocket (.connect timeout)) (fun _ => A .live) E
  connected : Program.Watch M env (fun k s => s.handler_.onConnected = true ∧ A .live k s)
    (step >>= fun _ => invoke .onConnected) (fun _ => A .live) E
  canSend : ∀ timeout, Program.Watch M env (fun k s => timeout = remainTime s ∧ A .live k s)
    (callSocket (.canSend timeout)) (fun _ => A .live) E
  encoded : ∀ order k s, A .live k s →
    A .live k { s with info_ := (htmlEncode order s.info_ s.url_).2 }
  send : ∀ data, Program.Watch M env (A .live) (callSocket (.send data)) (fun _ => A .live) E
  loaded : Program.Watch M env (A .live) loadValid (fun _ => A .live) E
  canReceive : ∀ timeout, Program.Watch M env (fun k s => timeout = remainTime s ∧ A .live k s)
    (callSocket (.canReceive timeout)) (fun _ => A .live) E
  reading : Reading M env reads (A .live) (A .ended) E
  header : ∀ header, Program.Watch M env (A .live) (responseHeader header) (fun _ => A .live) E
  data : ∀ data, Program.Watch M env (A .live) (responseData data) (fun _ => A .live) E
  counted : ∀ url, Program.Watch M env (A .live) (countRedirect url) (fun _ => A .idle) E

/-- A request whose method is not known or whose URL is refused does nothing but report an error. -/
theorem watch_process_of_refused {κ : Type} {M : Monitor κ Event} {env : Env} {A B : κ → State → Prop}
    {E : Stop → κ → State → Prop} {info : RequestInfo}
    (hrefused : info.methodType = .Unknown ∨ ¬Accepted env info.url)
    (hinfo : ∀ k s, A k s → s.info_ = info)
    (herror : ∀ code, Program.Watch M env A (handleErrorResponse code 0) (fun _ => B) E)
    (hparsed : Program.Watch M env A (callOut (.parseUrl info.url))
      (fun _ k s => A k { s with url_ := Url.parse s.info_.url }) E) (connections : List Connection) :
    Program.Watch M env A (process connections) (fun _ => B) E := by
  refine .bind_state fun s => ?_
  by_cases hs : s.info_ = info
  · rw [hs]
    refine .ite (fun _ => (herror _).conseq (fun _ _ ht => ht.2) fun _ _ _ ht => ht) fun hmethod => ?_
    refine .bind (hparsed.conseq (fun _ _ ht => ht.2) fun _ _ _ ht => ht) fun _ => ?_
    refine .bind (.update (Q := fun _ k t => t.url_ = Url.parse info.url ∧ A k t) ?_) fun _ => ?_
    · intro k t ht
      have hkept := hinfo k _ ht
      exact ⟨congrArg (fun info => Url.parse info.url) hkept, ht⟩
    refine .bind_read (.bind_state fun t => .ite (fun _ => ?_) fun hvalid => .ite (fun _ => ?_)
      fun hscheme => ?_)
    · exact (herror _).conseq (fun _ _ ht => ht.2.2) fun _ _ _ ht => ht
    · exact (herror _).conseq (fun _ _ ht => ht.2.2) fun _ _ _ ht => ht
    · rintro k _ ⟨rfl, hurl, -⟩
      rw [Bool.not_eq_true, Bool.not_eq_false', hurl] at hvalid hscheme
      exact absurd ⟨hvalid, hscheme⟩ (hrefused.resolve_left hmethod)
  · rintro k _ ⟨rfl, ht⟩
    exact absurd (hinfo k _ ht) hs

/-! ### Faults of the parsers

None of the functions that may throw follows a null pointer. -/

/-- A computation stays clear of an error when its parts do. -/
theorem bind_ne_error {ε α β : Type} {e : ε} {result : Except ε α} {f : α → Except ε β}
    (h : result ≠ .error e) (hf : ∀ a, f a ≠ .error e) : (result >>= f) ≠ .error e := by
  cases result with
  | error e' => exact fun herror => h (by cases herror; rfl)
  | ok a => exact hf a

/-- `substr` may throw, but it follows no null pointer. -/
theorem substr_ne_nullPointer (view : Bytes) (pos n : Nat) :
    substr view pos n ≠ .error .nullPointer := by
  unfold substr
  split <;> simp

/-- Nor does `substr` without a length. -/
theorem substrFrom_ne_nullPointer (view : Bytes) (pos : Nat) :
    substrFrom view pos ≠ .error .nullPointer := by
  unfold substrFrom
  split <;> simp

/-- Nor does a conversion to a number. -/
theorem stoSigned_ne_nullPointer (width base : Nat) (text : Bytes) :
    stoSigned width base text ≠ .error .nullPointer := by
  unfold stoSigned
  split
  · simp
  · split <;> simp

/-- Nor does the reading of a field's number. -/
theorem parseFieldValueInt64_ne_nullPointer (headers : HeaderMap) (key : Bytes) (value : Int) :
    parseFieldValueInt64 headers key value ≠ .error .nullPointer := by
  unfold parseFieldValueInt64
  split
  · simp
  · exact stoSigned_ne_nullPointer 64 10 _

/-- Nor does the status line. -/
theorem parseStatusLine_ne_nullPointer (statusView : Bytes) (response : ResponseHeader) :
    parseStatusLine statusView response ≠ .error .nullPointer := by
  unfold parseStatusLine
  split
  · simp
  · apply bind_ne_error (substr_ne_nullPointer _ _ _)
    intro version
    apply bind_ne_error (substr_ne_nullPointer _ _ _)
    intro digits
    apply bind_ne_error (stoSigned_ne_nullPointer 32 10 digits)
    intro statusCode
    apply bind_ne_error (substrFrom_ne_nullPointer _ _)
    simp

/-- Nor does the whole head. -/
theorem parseResponseHeader_ne_nullPointer (data : Bytes) (response : ResponseHeader) :
    parseResponseHeader data response ≠ .error .nullPointer := by
  unfold parseResponseHeader
  split
  · simp
  · apply bind_ne_error
    · unfold parseHeaderView
      dsimp only
      split
      · simp
      · apply bind_ne_error (parseStatusLine_ne_nullPointer _ _)
        simp
    · simp

/-! ### The functions of the worker -/

namespace Staged

variable {κ : Type} {M : Monitor κ Event} {env : Env} {reads : UInt64 → Prop} {A : Stage → κ → State → Prop}
  {E : Stop → κ → State → Prop} (h : Staged M env reads A E)

include h

/-- A value leaves the stage as it is, and the worker stops at a fault that follows no null pointer. -/
theorem throwing {α : Type} {result : Except Fault α} (hresult : result ≠ .error .nullPointer) :
    Program.Watch M env (A .live) (throwing result) (fun _ => A .live) E := by
  cases result with
  | ok a => exact .pure fun _ _ hs => hs
  | error fault =>
    have hfault : fault ≠ .nullPointer := fun hnull => hresult (by rw [hnull])
    exact .stop fun k s hs => h.fault fault k s hfault hs

/-- An error that makes the function it occurs in return `false`. -/
theorem failed (stage : Stage) (hstage : stage ≠ .ended) (code : ResultCode) (errorCode : Int) :
    Program.Watch M env (A stage) (do handleErrorResponse code errorCode; pure false)
      (fun res => if res then A .live else A .ended) E :=
  (h.error stage hstage code errorCode).bind fun _ => .pure fun _ _ hs => hs

omit h in
/-- `getRemainTime` in front of a call that is given its result. -/
theorem withRemainTime {α : Type} {stage : Stage} {m : Int → Worker α} {Q : α → κ → State → Prop}
    (hm : ∀ timeout, Program.Watch M env (fun k s => timeout = remainTime s ∧ A stage k s)
      (m timeout) Q E) : Program.Watch M env (A stage) (getRemainTime >>= m) Q E := by
  unfold getRemainTime
  rw [bind_assoc]
  refine .bind_state fun s => ?_
  rw [pure_bind]
  refine (hm (remainTime s)).conseq ?_ fun _ _ _ hs => hs
  rintro k _ ⟨rfl, hs⟩
  exact ⟨rfl, hs⟩

/-- Where the script ends, `isReceivable` returns with an end of the request at most. -/
theorem isReceivable_nil : Program.Watch M env (A .live) (HttpRequest.isReceivable [])
    (fun res k s => res = false ∧ A .ended k s) E := by
  refine h.loaded.bind fun valid => .ite (fun _ => ?_) fun _ => ?_
  · exact h.disconnected.bind fun _ => .pure fun _ _ hs => ⟨rfl, hs⟩
  · refine withRemainTime fun timeout => (h.canReceive timeout).bind fun _ => ?_
    exact .stop fun k s hs => h.pending .live k s hs

/-- `isReceivable` returns `true` where the socket is still in use. -/
theorem isReceivable (waits : List WaitReply) :
    Program.Watch M env (A .live) (isReceivable waits)
      (fun res => if res then A .live else A .ended) E := by
  induction waits with
  | nil =>
    refine h.isReceivable_nil.conseq (fun _ _ hs => hs) ?_
    rintro _ k s ⟨rfl, hs⟩
    exact hs
  | cons canReceive waits ih =>
    refine h.loaded.bind fun valid => .ite (fun _ => ?_) fun _ => ?_
    · exact h.disconnected.bind fun _ => .pure fun _ _ hs => hs
    · refine withRemainTime fun timeout => (h.canReceive timeout).bind fun _ =>
        (h.returned .live (by decide) _).bind fun _ => .ite (fun _ => .pure fun _ _ hs => hs) fun _ => ?_
      refine withRemainTime fun timeout' => ?_
      have hfailed := h.failed .live (by decide) canReceive.result.resultCode
        canReceive.result.errorCode
      exact .ite (fun _ => ih.conseq (fun _ _ hs => hs.2) fun _ _ _ hs => hs) fun _ =>
        hfailed.conseq (fun _ _ hs => hs.2) fun _ _ _ hs => hs

/-- `parseChunk` returns `true` where the socket is still in use. -/
theorem parseChunkLoop (fuel : Nat) (dataView : Bytes) (chunkSize : Int) (isCompleted : Bool) :
    Program.Watch M env (A .live) (parseChunkLoop fuel dataView chunkSize isCompleted)
      (fun r => if r.res then A .live else A .ended) E := by
  induction fuel generalizing dataView chunkSize with
  | zero => exact .pure fun _ _ hs => hs
  | succ fuel ih =>
    refine .ite (fun _ => .pure fun _ _ hs => hs) fun _ => .ite (fun _ => ?_) fun _ => ?_
    · split
      · exact (h.error .live (by decide) _ _).bind fun _ => .pure fun _ _ hs => hs
      · refine (h.throwing (stoSigned_ne_nullPointer 64 16 _)).bind fun chunkSize => ?_
        refine .ite (fun _ => .pure fun _ _ hs => hs) fun _ => ?_
        exact (h.throwing (substrFrom_ne_nullPointer _ _)).bind fun _ => ih _ _
    · exact (h.data _).bind fun _ => (h.throwing (substrFrom_ne_nullPointer _ _)).bind fun _ => ih _ _

/-- `parseChunk` leaves the request live or has ended it. -/
theorem parseChunk (data : Data) (chunkSize : Int) (isCompleted : Bool) :
    Program.Watch M env (A .live) (parseChunk data chunkSize isCompleted)
      (fun r => if r.1 then A .live else A .ended) E :=
  (h.parseChunkLoop _ _ chunkSize isCompleted).bind fun _ => .pure fun _ _ hs => hs

/-- A return of `receive` behind `disconnected`. -/
theorem finished : Program.Watch M env (A .live) (do HttpRequest.disconnected; pure none)
    (fun next : Option ReceiveState => if next.isSome then A .live else A .ended) E :=
  h.disconnected.bind fun _ => .pure fun _ _ hs => hs

/-- A pass of `receive` that goes on leaves the socket in use. -/
theorem receiveBody (st : ReceiveState) (dataPtr : Data) (isCompleted : Bool) :
    Program.Watch M env (A .live) (receiveBody st dataPtr isCompleted)
      (fun next => if next.isSome then A .live else A .ended) E := by
  refine .ite (fun _ => ?_) fun _ => ?_
  · refine (h.parseChunk _ _ _).bind fun r => .ite (fun hres => ?_) fun hres => ?_
    · rw [Bool.not_eq_true'] at hres
      refine .pure fun k s hs => ?_
      rw [hres] at hs
      exact hs
    · rw [Bool.not_eq_true, Bool.not_eq_false'] at hres
      rw [hres]
      exact .ite (fun _ => h.finished) fun _ => .pure fun _ _ hs => hs
  · have hend (isCompleted : Bool) (st : ReceiveState) : Program.Watch M env (A .live)
        (if isCompleted then do HttpRequest.disconnected; pure none else pure (some st))
        (fun next : Option ReceiveState => if next.isSome then A .live else A .ended) E :=
      .ite (fun _ => h.finished) fun _ => .pure fun _ _ hs => hs
    exact .ite (fun _ => (h.data dataPtr).bind fun _ => hend _ _) fun _ => hend _ _

/-- `receivePass` leaves the socket in use where it goes on. -/
theorem receivePass {redirect : Bytes → Worker Unit}
    (hredirect : ∀ url, Program.Watch M env (A .live) (redirect url) (fun _ => A .ended) E)
    (st : ReceiveState) {reply : ReceiveReply} (hreply : reply.GoesOn → reads reply.now) :
    Program.Watch M env (A .live) (receivePass redirect st reply)
      (fun next => if next.isSome then A .live else A .ended) E := by
  unfold HttpRequest.receivePass
  rw [← bind_assoc]
  by_cases hgoes : reply.GoesOn
  swap
  · -- the request ends with an error, or because the connection is closed
    obtain ⟨hfailed, hretry⟩ := not_or.mp hgoes
    rw [if_pos (by simpa using hfailed), if_neg (by simpa using hretry)]
    have hend {m : Worker Unit} (hm : Program.Watch M env (A .live)
        (do callSocket .receive; returnAt reply.now; m) (fun _ => A .ended) E) :
        Program.Watch M env (A .live) ((do callSocket .receive; returnAt reply.now) >>= fun _ => do m; pure none)
          (fun next : Option ReceiveState => if next.isSome then A .live else A .ended) E := by
      have hbind := hm.bind (f := fun _ => (pure none : Worker (Option ReceiveState)))
        (R := fun next => if next.isSome then A .live else A .ended) fun _ => .pure fun _ _ hs => hs
      simpa only [bind_assoc] using hbind
    split
    · exact hend (h.reading.closed _)
    · exact hend (h.reading.failed _ _ _)
  refine (h.reading.goesOn _ (hreply hgoes)).bind fun _ => .ite (fun hfailed => ?_) fun _ => ?_
  · have hretry : reply.result.resultCode = .Retry := hgoes.resolve_left (by simpa using hfailed)
    rw [if_pos (by simpa using hretry)]
    exact .pure fun _ _ hs => hs
  refine .ite (fun _ => ?_) fun _ => h.receiveBody _ _ _
  -- the head is not complete yet
  refine (h.throwing (parseResponseHeader_ne_nullPointer _ _)).bind fun parsed => ?_
  refine .ite (fun _ => .pure fun _ _ hs => hs) fun _ => .bind_state fun s => ?_
  refine .ite (fun _ => ?_) fun _ => ?_
  · have hfollowed := (hredirect ((parsed.2.2.headers.lookup kLocation).getD [])).bind
      (R := fun next : Option ReceiveState => if next.isSome then A .live else A .ended)
      fun _ => .pure (a := none) fun _ _ hs => hs
    exact hfollowed.conseq (fun _ _ hs => hs.2) fun _ _ _ hs => hs
  · have hbody : Program.Watch M env (A .live) (do
        let contentLength ←
          HttpRequest.throwing (parseFieldValueInt64 parsed.2.2.headers kContentLength st.contentLength)
        HttpRequest.responseHeader parsed.2.2
        HttpRequest.receiveBody
          { st with
            response := {}, parseHeaderSuccess := true, contentLength
            transferCoding :=
              parseFieldValueString parsed.2.2.headers kTransferEncoding st.transferCoding
            recvDataPtr := (st.recvDataPtr.append (receivedData reply.data)).destroy }
          ((st.recvDataPtr.append (receivedData reply.data)).copy parsed.2.1 (-1))
          (reply.result.resultCode == .Completed || reply.result.resultCode == .Disconnected))
        (fun next => if next.isSome then A .live else A .ended) E :=
      (h.throwing (parseFieldValueInt64_ne_nullPointer _ _ _)).bind fun _ =>
        (h.header _).bind fun _ => h.receiveBody _ _ _
    exact hbody.conseq (fun _ _ hs => hs.2) fun _ _ _ hs => hs

/-- The receive loop goes on only behind the reads listed, and ends the request. -/
theorem receiveLoop {redirect : Bytes → Worker Unit}
    (hredirect : ∀ url, Program.Watch M env (A .live) (redirect url) (fun _ => A .ended) E)
    {rounds : List Round} (hrounds : ∀ round ∈ rounds, round.reply.GoesOn → reads round.reply.now)
    (st : ReceiveState) :
    Program.Watch M env (A .live) (receiveLoop redirect rounds st) (fun _ => A .ended) E := by
  induction rounds generalizing st with
  | nil => exact h.isReceivable_nil.bind fun _ => .pure fun _ _ hs => hs.2
  | cons round rounds ih =>
    refine (h.isReceivable _).bind fun receivable => .ite (fun hres => ?_) fun hres => ?_
    · rw [Bool.not_eq_true'] at hres
      rw [hres]
      exact .pure fun _ _ hs => hs
    · rw [Bool.not_eq_true, Bool.not_eq_false'] at hres
      rw [hres]
      obtain ⟨hround, hrounds⟩ := List.forall_mem_cons.mp hrounds
      refine (h.receivePass hredirect st hround).bind fun next => ?_
      cases next with
      | none => exact .pure fun _ _ hs => hs
      | some st => exact ih hrounds st

/-- `send` returns `true` where the socket is still in use. -/
theorem sendLoop (sends : List SendReply) (dataView : Bytes) :
    Program.Watch M env (A .live) (sendLoop sends dataView)
      (fun sent => if sent then A .live else A .ended) E := by
  induction sends generalizing dataView with
  | nil => exact (h.send dataView).bind fun _ => .stop fun k s hs => h.pending .live k s hs
  | cons reply sends ih =>
    refine (h.send dataView).bind fun _ => (h.returned .live (by decide) _).bind fun _ => .ite (fun _ => ?_)
      fun _ => ?_
    · exact h.failed .live (by decide) _ _
    · refine .ite (fun _ => ?_) fun _ => .pure fun _ _ hs => hs
      refine (h.throwing (substrFrom_ne_nullPointer _ _)).bind fun _ => ?_
      exact .ite (fun _ => ih _) fun _ => .pure fun _ _ hs => hs

/-- `send` leaves the request live or has ended it. -/
theorem sendAll (canSend : WaitReply) (sends : List SendReply) :
    Program.Watch M env (A .live) (HttpRequest.send canSend sends)
      (fun sent => if sent then A .live else A .ended) E := by
  refine withRemainTime fun timeout => (h.canSend timeout).bind fun _ =>
    (h.returned .live (by decide) _).bind fun _ => .ite (fun _ => h.failed .live (by decide) _ _) fun _ => ?_
  refine .bind_read (.bind_state fun s => ?_)
  refine .bind (.update (Q := fun _ => A .live) ?_) fun _ => h.sendLoop sends _
  rintro k _ ⟨rfl, hs⟩
  exact h.encoded env.order k _ hs

/-- `connectSocket` returns `true` where the socket is in use. -/
theorem connectSocket (connection : Connection) :
    Program.Watch M env (A .fresh) (connectSocket connection)
      (fun isOpen => if isOpen then A .live else A .ended) E := by
  refine withRemainTime fun timeout => .ite (fun _ => ?_) fun htimeout => ?_
  · exact (h.failed .fresh (by decide) _ _).conseq (fun _ _ hs => hs.2) fun _ _ _ hs => hs
  refine (h.connect timeout (by omega)).bind fun _ => (h.returned .live (by decide) _).bind fun _ =>
    .ite (fun _ => h.failed .live (by decide) _ _) fun _ => .bind_state fun s => .ite (fun hs => ?_) fun _ => ?_
  · have hconnected := h.connected.bind (f := fun _ => pure true)
      (R := fun isOpen => if isOpen then A .live else A .ended) fun _ => .pure fun _ _ hs => hs
    rw [bind_assoc] at hconnected
    refine hconnected.conseq ?_ fun _ _ _ hs => hs
    rintro k _ ⟨rfl, hlive⟩
    exact ⟨hs, hlive⟩
  · exact .pure fun _ _ hs => hs.2

/-- With a URL of a known scheme, `openConnection` returns `true` where the socket is in use. -/
theorem openConnection (connection : Connection) :
    Program.Watch M env
      (fun k s => s.url_.isHttpScheme env.enableHttps = true ∧ A .idle k s) (openConnection connection)
      (fun isOpen => if isOpen then A .live else A .ended) E := by
  refine .bind_read (.bind_state fun s => ?_)
  by_cases hurl : s.url_.isHttpScheme env.enableHttps = true
  · refine .conseq (P := A .idle) ?_ (fun k t ht => ht.2.2) fun _ _ _ ht => ht
    refine (h.resolved _ _ _).bind fun _ => (h.returned .idle (by decide) _).bind fun _ => ?_
    cases connection.lookup.family with
    | none => exact h.failed .idle (by decide) _ _
    | some family =>
      dsimp only
      generalize (if s.info_.ipVersion = .Auto then (if family = .inet then IPVersion.V4 else .V6)
        else s.info_.ipVersion) = ipVersion
      obtain ⟨socket, hsocket⟩ := Option.isSome_iff_exists.mp (createSocket_isSome hurl ipVersion)
      rw [hsocket]
      exact (h.created socket).bind fun _ => h.connectSocket connection
  · rintro k t ⟨rfl, hscheme, -⟩
    exact absurd hscheme hurl

/-- `sendRequest` ends the request it starts. -/
theorem sendRequest {redirect : Bytes → Worker Unit}
    (hredirect : ∀ url, Program.Watch M env (A .live) (redirect url) (fun _ => A .ended) E)
    {connection : Connection}
    (hrounds : ∀ round ∈ connection.rounds, round.reply.GoesOn → reads round.reply.now) :
    Program.Watch M env (fun k s => s.url_.isHttpScheme env.enableHttps = true ∧ A .idle k s)
      (sendRequest redirect connection) (fun _ => A .ended) E := by
  refine (h.openConnection connection).bind fun isOpen => .ite (fun hopen => ?_) fun hopen => ?_
  · rw [Bool.not_eq_true'] at hopen
    rw [hopen]
    exact .pure fun _ _ hs => hs
  rw [Bool.not_eq_true, Bool.not_eq_false'] at hopen
  rw [hopen]
  refine (h.sendAll _ _).bind fun sent => .ite (fun hsent => ?_) fun hsent => ?_
  · rw [Bool.not_eq_true'] at hsent
    rw [hsent]
    exact .pure fun _ _ hs => hs
  · rw [Bool.not_eq_true, Bool.not_eq_false'] at hsent
    rw [hsent]
    exact h.receiveLoop hredirect hrounds _

/-- A redirect ends the request it starts. -/
theorem redirect {sendRequest : Worker Unit}
    (hsend : Program.Watch M env
      (fun k s => s.url_.isHttpScheme env.enableHttps = true ∧ A .idle k s) sendRequest
      (fun _ => A .ended) E) (url : Bytes) :
    Program.Watch M env (A .live) (redirect sendRequest url) (fun _ => A .ended) E := by
  refine .ite (fun _ => h.error .live (by decide) _ _) fun _ => (h.counted url).bind fun _ =>
    .bind_read (.bind_state fun s => .ite (fun _ => ?_) fun hurl => ?_)
  · exact (h.error .idle (by decide) _ _).conseq (fun _ _ hs => hs.2) fun _ _ _ hs => hs
  · refine hsend.conseq ?_ fun _ _ _ hs => hs
    rintro k _ ⟨rfl, hs⟩
    simp only [Bool.or_eq_true, Bool.not_eq_true', not_or, Bool.not_eq_false] at hurl
    exact ⟨hurl.2, hs⟩

/-- The exchanges over the connections, one redirect after the other. -/
theorem sendRequestOver {connections : List Connection}
    (hreads : ∀ connection ∈ connections, ∀ round ∈ connection.rounds,
      round.reply.GoesOn → reads round.reply.now) :
    Program.Watch M env (fun k s => s.url_.isHttpScheme env.enableHttps = true ∧ A .idle k s)
      (sendRequestOver connections) (fun _ => A .ended) E := by
  induction connections with
  | nil => exact .stop fun k s hs => h.pending .idle k s hs.2
  | cons connection connections ih =>
    obtain ⟨hconnection, hconnections⟩ := List.forall_mem_cons.mp hreads
    exact h.sendRequest (fun url => h.redirect (ih hconnections) url) hconnection

/-- **The assertions follow the worker through whole runs.** -/
theorem process (connections : List Connection)
    (hreads : ∀ connection ∈ connections, ∀ round ∈ connection.rounds,
      round.reply.GoesOn → reads round.reply.now) :
    Program.Watch M env (A .start) (process connections) (fun _ => A .ended) E := by
  refine .bind_state fun s => .ite (fun _ => ?_) fun _ => ?_
  · exact (h.error .start (by decide) _ _).conseq (fun _ _ hs => hs.2) fun _ _ _ hs => hs
  refine .bind ((h.parsed s.info_.url).conseq (fun _ _ hs => hs.2) fun _ _ _ hs => hs) fun _ => ?_
  refine .bind (.update (Q := fun _ => A .idle) fun _ _ hs => hs) fun _ => ?_
  refine .bind_read (.bind_state fun t => .ite (fun _ => ?_) fun _ => .ite (fun _ => ?_) fun hurl => ?_)
  · exact (h.error .idle (by decide) _ _).conseq (fun _ _ hs => hs.2) fun _ _ _ hs => hs
  · exact (h.error .idle (by decide) _ _).conseq (fun _ _ hs => hs.2) fun _ _ _ hs => hs
  · refine (h.sendRequestOver hreads).conseq ?_ fun _ _ _ hs => hs
    rintro k _ ⟨rfl, hs⟩
    rw [Bool.not_eq_true, Bool.not_eq_false'] at hurl
    exact ⟨hurl, hs⟩

end Staged

end HttpRequest
