import HttpRequest.Model.Request

/-! # Rules for the subprograms of the worker

Most of what the worker does touches little of its state: the clock, the countdown to `cancel()` and the
socket. A property of the state that does not depend on these (`Steady`, `Lasting`) is an invariant of
every subprogram up to `receive`, and most of them do nothing but use the socket and make callbacks. -/

namespace HttpRequest

open Foundations

variable {I : State → Prop} {E : Stop → State → Prop} {p : Event → Prop} {α : Type}

/-! ### What `cancel()` leaves as it is -/

/-- The start of a step leaves the count of redirects alone. -/
@[simp] theorem State.tick_redirectCount_ (s : State) : s.tick.redirectCount_ = s.redirectCount_ := by
  rw [State.tick]
  rcases s.cancelIn with _ | _ | n <;> rfl

/-- The start of a step leaves the request alone. -/
@[simp] theorem State.tick_info_ (s : State) : s.tick.info_ = s.info_ := by
  rw [State.tick]
  rcases s.cancelIn with _ | _ | n <;> rfl

/-- The start of a step leaves the callbacks alone. -/
@[simp] theorem State.tick_handler_ (s : State) : s.tick.handler_ = s.handler_ := by
  rw [State.tick]
  rcases s.cancelIn with _ | _ | n <;> rfl

/-- The start of a step leaves the socket alone. -/
@[simp] theorem State.tick_socket_ (s : State) : s.tick.socket_ = s.socket_ := by
  rw [State.tick]
  rcases s.cancelIn with _ | _ | n <;> rfl

/-- The start of a step leaves the start alone. -/
@[simp] theorem State.tick_startStamp_ (s : State) : s.tick.startStamp_ = s.startStamp_ := by
  rw [State.tick]
  rcases s.cancelIn with _ | _ | n <;> rfl

/-- The start of a step leaves the URL alone. -/
@[simp] theorem State.tick_url_ (s : State) : s.tick.url_ = s.url_ := by
  rw [State.tick]
  rcases s.cancelIn with _ | _ | n <;> rfl

/-- A call through a socket that is there. -/
theorem run_callSocket_of_ne_none (env : Env) {s : State} (h : s.socket_ ≠ none) (call : Call) :
    (callSocket call).run env s = ⟨.ok (), s.tick, s.tickEvents ++ [.call call]⟩ := by
  obtain ⟨socket, hsocket⟩ := Option.ne_none_iff_exists'.mp h
  simp [callSocket, run_step, hsocket]

/-! ### Invariants -/

/-- A property that passing time and a coming `cancel()` do not change. -/
structure Steady (I : State → Prop) : Prop where
  tick : ∀ s, I s → I s.tick
  now : ∀ s now, I s → I { s with now := now }

/-- A property that the socket does not change either. -/
structure Lasting (I : State → Prop) : Prop extends Steady I where
  socket : ∀ s socket, I s → I { s with socket_ := socket }

/-- The callbacks, the operations of a socket that exists, and what any call may meet: its return and a
`cancel()`. -/
inductive Event.Routine : Event → Prop
  | callback (callback : Callback) : Routine (.callback callback)
  | connect (timeout : Int) : Routine (.call (.connect timeout))
  | canSend (timeout : Int) : Routine (.call (.canSend timeout))
  | send (data : Bytes) : Routine (.call (.send data))
  | canReceive (timeout : Int) : Routine (.call (.canReceive timeout))
  | receive : Routine (.call .receive)
  | returned (now : UInt64) : Routine (.returned now)
  | cancelled : Routine .cancelled

/-- Where the property holds, the worker may wait and may be left by a fault. -/
structure Tolerates (I : State → Prop) (E : Stop → State → Prop) : Prop where
  pending : ∀ s, I s → E .pending s
  fault : ∀ fault s, I s → E (.fault fault) s

namespace Steady

variable (h : Steady I) (hp : ∀ e, Event.Routine e → p e)

include h hp

/-- A step keeps what a `cancel()` leaves alone. -/
theorem step : Program.Keeps I E p step :=
  .bind .state fun _ =>
    .ite (Program.Keeps.bind (.emit (hp _ .cancelled)) fun _ => .update h.tick) (.update h.tick)

/-- Reading `isValid_` is a step. -/
theorem loadValid : Program.Keeps I E p loadValid :=
  (h.step hp).bind fun _ => .bind .state fun _ => .pure _

/-- A call keeps the invariant where its event is allowed. -/
theorem callOut {call : Call} (hcall : p (.call call)) : Program.Keeps I E p (callOut call) :=
  (h.step hp).bind fun _ => .emit hcall

/-- A return keeps what does not depend on the clock. -/
theorem returnAt (now : UInt64) : Program.Keeps I E p (returnAt now) :=
  Program.Keeps.bind (.update fun s hs => h.now s now hs) fun _ => .emit (hp _ (.returned now))

/-- A call through the socket may also follow a null pointer. -/
theorem callSocket (hnull : ∀ s, I s → s.socket_ = none → E (.fault .nullPointer) s) {call : Call}
    (hcall : p (.call call)) : Program.Keeps I E p (callSocket call) := by
  refine Program.Triple.bind (h.step hp) fun _ => ?_
  refine Program.Triple.bind (Program.Triple.state (Q := fun s t => t = s ∧ I t) fun _ hs => ⟨rfl, hs⟩)
    fun s => ?_
  cases hsocket : s.socket_ with
  | none => exact Program.Triple.stop fun t ht => hnull t ht.2 (ht.1 ▸ hsocket)
  | some socket => exact Program.Triple.emit (fun _ ht => ht.2) hcall

/-- The callback of the head keeps the invariant. -/
theorem responseHeader (header : ResponseHeader) : Program.Keeps I E p (responseHeader header) :=
  (h.loadValid hp).bind fun _ => .bind .state fun _ => .ite (.emit (hp _ (.callback _))) (.pure _)

/-- The callback of a piece of body keeps the invariant. -/
theorem responseData (data : Data) : Program.Keeps I E p (responseData data) :=
  (h.loadValid hp).bind fun _ => .bind .state fun _ => .ite (.emit (hp _ (.callback _))) (.pure _)

end Steady

/-- Reading the remaining time keeps every invariant. -/
theorem keeps_getRemainTime : Program.Keeps I E p getRemainTime := .bind .state fun _ => .pure _

/-- A value keeps the invariant, and a fault ends with what it gives. -/
theorem keeps_throwing (hfault : ∀ fault s, I s → E (.fault fault) s) (result : Except Fault α) :
    Program.Keeps I E p (throwing result) := by
  cases result with
  | ok a => exact .pure a
  | error fault => exact .stop (hfault fault)

namespace Lasting

variable (h : Lasting I) (hp : ∀ e, Event.Routine e → p e)

include h hp

/-- `disconnected` keeps what does not depend on the socket. -/
theorem disconnected : Program.Keeps I E p disconnected := by
  refine (h.loadValid hp).bind fun _ => .bind .state fun _ => .ite ?_ (.pure _)
  exact Program.Keeps.bind (.emit (hp _ (.callback _))) fun _ => .update fun s hs => h.socket s none hs

/-- So does `handleErrorResponse`. -/
theorem handleErrorResponse (code : ResultCode) (errorCode : Int) :
    Program.Keeps I E p (handleErrorResponse code errorCode) := by
  refine .bind .state fun _ => .ite ?_ (h.disconnected hp)
  exact (h.step hp).bind fun _ => Program.Keeps.bind (.emit (hp _ (.callback _))) fun _ => h.disconnected hp

/-- Storing a socket keeps it, where creating one is allowed. -/
theorem storeSocket (socketPtr : Option Socket)
    (hnew : ∀ socket, p (.call (.newSocket socket))) :
    Program.Keeps I E p (storeSocket socketPtr) := by
  cases socketPtr with
  | none =>
    exact (h.handleErrorResponse hp _ _).bind fun _ => .update fun s hs => h.socket s none hs
  | some socket =>
    exact Program.Keeps.bind (.emit (hnew socket)) fun _ =>
      .update fun s hs => h.socket s (some socket) hs

variable (hE : Tolerates I E)

include hE

/-- A routine call through the socket keeps it. -/
theorem callSocket {call : Call} (hcall : Event.Routine (.call call)) :
    Program.Keeps I E p (callSocket call) :=
  h.toSteady.callSocket hp (fun s hs _ => hE.fault _ s hs) (hp _ hcall)

/-- The wait for data keeps it. -/
theorem isReceivable (waits : List WaitReply) : Program.Keeps I E p (isReceivable waits) := by
  induction waits with
  | nil =>
    refine (h.loadValid hp).bind fun _ => .ite ((h.disconnected hp).bind fun _ => .pure _) ?_
    exact keeps_getRemainTime.bind fun _ => (h.callSocket hp hE (.canReceive _)).bind fun _ =>
      .stop hE.pending
  | cons canReceive waits ih =>
    refine (h.loadValid hp).bind fun _ => .ite ((h.disconnected hp).bind fun _ => .pure _) ?_
    refine keeps_getRemainTime.bind fun _ => (h.callSocket hp hE (.canReceive _)).bind fun _ =>
      (h.returnAt hp _).bind fun _ => ?_
    refine .ite (.pure _) (keeps_getRemainTime.bind fun _ => .ite ih ?_)
    exact (h.handleErrorResponse hp _ _).bind fun _ => .pure _

/-- The send loop keeps it. -/
theorem sendLoop (sends : List SendReply) :
    ∀ dataView : Bytes, Program.Keeps I E p (sendLoop sends dataView) := by
  induction sends with
  | nil => exact fun _ => (h.callSocket hp hE (.send _)).bind fun _ => .stop hE.pending
  | cons reply sends ih =>
    intro dataView
    refine (h.callSocket hp hE (.send _)).bind fun _ => (h.returnAt hp _).bind fun _ =>
      .ite ?_ (.ite ?_ (.pure _))
    · exact (h.handleErrorResponse hp _ _).bind fun _ => .pure _
    · exact (keeps_throwing hE.fault _).bind fun _ => .ite (ih _) (.pure _)

/-- Connecting the socket keeps it. -/
theorem connectSocket (connection : Connection) :
    Program.Keeps I E p (connectSocket connection) := by
  refine keeps_getRemainTime.bind fun _ =>
    .ite ((h.handleErrorResponse hp _ _).bind fun _ => .pure _) ?_
  refine (h.callSocket hp hE (.connect _)).bind fun _ => (h.returnAt hp _).bind fun _ => .ite ?_ ?_
  · exact (h.handleErrorResponse hp _ _).bind fun _ => .pure _
  · refine .bind .state fun _ => .ite ?_ (.pure _)
    exact (h.step hp).bind fun _ => Program.Keeps.bind (.emit (hp _ (.callback _))) fun _ => .pure _

/-- Opening a connection keeps it, where lookups and new sockets are allowed. -/
theorem openConnection (connection : Connection)
    (hlookup : ∀ host port ipVersion, p (.call (.getaddrinfo host port ipVersion)))
    (hnew : ∀ socket, p (.call (.newSocket socket))) :
    Program.Keeps I E p (openConnection connection) := by
  refine .bind .read fun _ => .bind .state fun _ => (h.callOut hp (hlookup _ _ _)).bind fun _ =>
    (h.returnAt hp _).bind fun _ => ?_
  cases connection.lookup.family with
  | none => exact (h.handleErrorResponse hp _ _).bind fun _ => .pure _
  | some family =>
    exact (h.storeSocket hp _ hnew).bind fun _ => h.connectSocket hp hE connection

/-- `send` goes on in a state whose headers are those `htmlEncode` left. -/
theorem send {I' : State → Prop} (h' : Lasting I') (hE' : Tolerates I' E)
    (hinfo : ∀ order s, I s → I' { s with info_ := (htmlEncode order s.info_ s.url_).2 })
    (canSend : WaitReply) (sends : List SendReply) :
    Program.Triple I (send canSend sends) (fun sent s => I' s ∨ sent = false ∧ I s) E p := by
  refine Program.Triple.bind keeps_getRemainTime fun _ => ?_
  refine Program.Triple.bind (h.callSocket hp hE (.canSend _)) fun _ => ?_
  refine Program.Triple.bind (h.returnAt hp _) fun _ => .ite ?_ ?_
  · exact Program.Triple.bind (h.handleErrorResponse hp _ _) fun _ => .pure fun _ hs => .inr ⟨rfl, hs⟩
  · refine Program.Triple.bind Program.Keeps.read fun env => ?_
    refine Program.Triple.bind
      (Program.Triple.state (Q := fun s t => t = s ∧ I t) fun _ hs => ⟨rfl, hs⟩) fun s => ?_
    refine Program.Triple.bind (Program.Triple.update (Q := fun _ => I') ?_) fun _ => ?_
    · rintro _ ⟨rfl, hs⟩
      exact hinfo env.order _ hs
    · exact (h'.sendLoop hp hE' sends _).conseq (fun _ hs => hs) (fun _ _ hs => .inl hs)
        (fun _ _ he => he) fun _ he => he

end Lasting

/-! ### Creating a socket -/

/-- With an accepted URL there is a socket to create. -/
theorem createSocket_isSome {enableHttps : Bool} {url : Url} (h : url.isHttpScheme enableHttps = true)
    (ipVersion : IPVersion) : (createSocket enableHttps url ipVersion).isSome = true := by
  unfold createSocket
  by_cases hhttps : url.isHttps = true
  · rw [if_pos hhttps]
    cases enableHttps with
    | true => rfl
    | false =>
      have hhttp : url.isHttp = true := h
      rw [Url.isHttp, beq_iff_eq] at hhttp
      rw [Url.isHttps, hhttp] at hhttps
      exact absurd hhttps (by decide)
  · rw [if_neg hhttps]
    rfl

end HttpRequest
