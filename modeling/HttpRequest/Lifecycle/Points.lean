import HttpRequest.Lifecycle.Stages

/-! # The points of the worker

Finer than by its stages, the worker is described by the point it stands at between two of its calls, together
with the connections that are still to come and with what it holds there to be sent. `Point.Leads` says which call
leads from one point to another, `Reports` which codes are reported where. A monitor that follows these few facts
event by event follows the worker through whole runs (`Charts.process`), whatever the connections answer. -/

namespace HttpRequest

open Foundations

/-! ### Points -/

/-- Where the worker stands. -/
inductive Point
  /-- `process` has been entered. -/
  | entered
  /-- `url_` is a new URL. -/
  | parsed
  /-- Its host has been looked up. -/
  | found
  /-- `socket_` is a new socket. -/
  | created
  /-- `connect` has been called. -/
  | connected
  /-- `canSend` has been called. -/
  | writable
  /-- `dataView` is left to be sent. -/
  | sending (sends : List SendReply) (dataView : Bytes)
  /-- `ISocket::send` has been called with `dataView`. -/
  | offered (sends : List SendReply) (dataView : Bytes)
  /-- `isReceivable` has been entered, or entered again. -/
  | waiting
  /-- `isReceivable` has found the request valid. -/
  | valid
  /-- `canReceive` has been called. -/
  | awaited
  /-- `ISocket::receive` has been called. -/
  | received

/-- The calls that lead from one point of an exchange to another. -/
inductive Point.Leads : Point → Call → Point → Prop
  | getaddrinfo (host port : Bytes) (ipVersion : IPVersion) :
    Leads .parsed (.getaddrinfo host port ipVersion) .found
  | newSocket (socket : Socket) : Leads .found (.newSocket socket) .created
  | connect (timeout : Int) : Leads .created (.connect timeout) .connected
  | canSend (timeout : Int) : Leads .connected (.canSend timeout) .writable
  | send (sends : List SendReply) (dataView : Bytes) :
    Leads (.sending sends dataView) (.send dataView) (.offered sends dataView)
  | canReceive (timeout : Int) : Leads .valid (.canReceive timeout) .awaited
  | receive : Leads .awaited .receive .received

/-- The number of bytes `Request::send` takes off its view for a reply. -/
def SendReply.size (reply : SendReply) : Nat := (reply.sendSize % 2 ^ 64).toNat

/-- The codes that are reported at a point, with the connections from the one in use on: codes of `Request`
itself, and those of results that are not a success. -/
inductive Reports : List Connection → Point → ResultCode → Prop
  | method (site : List Connection) : Reports site .entered .MethodError
  | url (site : List Connection) : Reports site .parsed .UrlInvalid
  | scheme (site : List Connection) : Reports site .parsed .SchemeNotSupported
  | target (site : List Connection) : Reports site .parsed .RedirectError
  | lookup (site : List Connection) : Reports site .found .GetAddressFailed
  | late (site : List Connection) : Reports site .created .Timeout
  | connect {connection : Connection} {site : List Connection} (h : ¬connection.connect.result.isSuccess = true) :
    Reports (connection :: site) .connected connection.connect.result.resultCode
  | canSend {connection : Connection} {site : List Connection} (h : ¬connection.canSend.result.isSuccess = true) :
    Reports (connection :: site) .writable connection.canSend.result.resultCode
  | send {connection : Connection} {site : List Connection} {sends : List SendReply} {reply : SendReply}
    (hreply : reply ∈ connection.sends) (h : ¬reply.result.isSuccess = true) (dataView : Bytes) :
    Reports (connection :: site) (.offered sends dataView) reply.result.resultCode
  | wait {connection : Connection} {site : List Connection} {round : Round} {wait : WaitReply}
    (hround : round ∈ connection.rounds) (hwait : wait ∈ round.waits) (h : ¬wait.result.isSuccess = true) :
    Reports (connection :: site) .awaited wait.result.resultCode
  | receive {connection : Connection} {site : List Connection} {round : Round}
    (hround : round ∈ connection.rounds) (h : ¬round.reply.result.isSuccess = true)
    (hretry : round.reply.result.resultCode ≠ .Retry)
    (hcompleted : ¬(round.reply.result.resultCode = .Completed ∨ round.reply.result.resultCode = .Disconnected)) :
    Reports (connection :: site) .received round.reply.result.resultCode
  | sizeLine (site : List Connection) : Reports site .received .ChunkSizeError
  | location (site : List Connection) : Reports site .received .RedirectError
  | limit (site : List Connection) : Reports site .received .RedirectReachMaxCount

/-- Whether a callback tells an error. -/
def Callback.isError : Callback → Bool
  | .onError _ _ => true
  | .onConnected | .onParseHeaderDone _ | .onData _ | .onDisconnected => false

section

variable {κ : Type}

/-- What is asserted at the points: of the state of a monitor, and of `isValid_`, `url_` and `info_`. -/
abbrev Chart (κ : Type) := List Connection → Point → κ → Bool → Url → RequestInfo → Prop

/-- What a chart asserts of a state at a point. -/
def Chart.here (A : Chart κ) (site : List Connection) (point : Point) (k : κ) (s : State) : Prop :=
  A site point k s.isValid_ s.url_ s.info_

/-- **The chart follows the worker from event to event**, while the monitor `M` accepts them. -/
structure Charts (M : Monitor κ Event) (order : IterationOrder) (A : Chart κ) : Prop where
  cancelled : ∀ {site point k valid url info}, A site point k valid url info →
    M.allows k .cancelled ∧ A site point (M.next k .cancelled) false url info
  returned : ∀ {site point k valid url info} (now : UInt64), A site point k valid url info →
    M.allows k (.returned now) ∧ A site point (M.next k (.returned now)) valid url info
  callback : ∀ {site point k valid url info} {callback : Callback}, callback.isError = false →
    A site point k valid url info →
      M.allows k (.callback callback) ∧ A site point (M.next k (.callback callback)) valid url info
  error : ∀ {site point k valid url info code} (errorCode : Int), Reports site point code →
    A site point k valid url info → M.allows k (.callback (.onError code errorCode)) ∧
      A site point (M.next k (.callback (.onError code errorCode))) valid url info
  parsed : ∀ {site k valid url info}, A site .entered k valid url info →
    M.allows k (.call (.parseUrl info.url)) ∧
      A site .parsed (M.next k (.call (.parseUrl info.url))) valid (Url.parse info.url) info
  call : ∀ {connection site point point' call k valid url info}, Point.Leads point call point' →
    A (connection :: site) point k valid url info →
      M.allows k (.call call) ∧ A (connection :: site) point' (M.next k (.call call)) valid url info
  encoded : ∀ {connection site k valid url info}, A (connection :: site) .writable k valid url info →
    A (connection :: site) (.sending connection.sends (htmlEncode order info url).1) k valid url
      (htmlEncode order info url).2
  resumed : ∀ {site reply sends dataView k valid url info}, reply.result.isSuccess = true →
    A site (.offered (reply :: sends) dataView) k valid url info →
      A site (.sending sends (dataView.drop reply.size)) k valid url info
  sent : ∀ {site reply sends dataView k valid url info}, reply.result.isSuccess = true →
    dataView.length ≤ reply.size → A site (.offered (reply :: sends) dataView) k valid url info →
      A site .waiting k valid url info
  valid : ∀ {site k url info}, A site .waiting k true url info → A site .valid k true url info
  again : ∀ {site k valid url info}, A site .awaited k valid url info → A site .waiting k valid url info
  passed : ∀ {site k valid url info}, A site .received k valid url info → A site .waiting k valid url info
  redirected : ∀ {connection site k valid url info} (text : Bytes),
    A (connection :: site) .received k valid url info →
      M.allows k (.call (.parseUrl text)) ∧
        A site .parsed (M.next k (.call (.parseUrl text))) valid (Url.parse text) info

/-- Programs of the worker under a monitor, wherever they are left. -/
abbrev Watched {α : Type} (M : Monitor κ Event) (env : Env) (P : κ → State → Prop) (m : Worker α)
    (Q : α → κ → State → Prop) : Prop :=
  Program.Watch M env P m Q fun _ _ _ => True

/-! ### Steps from a point -/

namespace Charts

variable {M : Monitor κ Event} {env : Env} {A : Chart κ} {site : List Connection} {point : Point}
  (h : Charts M env.order A)

/-- A stop leaves nothing to watch. -/
theorem stop {α : Type} {P : κ → State → Prop} {Q : α → κ → State → Prop} (stop : Stop) :
    Watched M env P (Program.stop stop : Worker α) Q :=
  .stop fun _ _ _ => trivial

/-- A fault stops the worker, and a value leaves it at its point. -/
theorem throwing {α : Type} (result : Except Fault α) :
    Watched M env (A.here site point) (throwing result) fun _ => A.here site point := by
  cases result with
  | ok a => exact .pure fun _ _ hs => hs
  | error fault => exact stop _

/-- `getRemainTime` leaves the worker at its point. -/
theorem getRemainTime : Watched M env (A.here site point) getRemainTime fun _ => A.here site point :=
  .bind_state fun _ => .pure fun _ _ hs => hs.2

include h

/-- A `cancel()` leaves the worker at its point. -/
theorem ticks : Ticks M (A.here site point) (A.here site point) :=
  ticks_of (fun _ _ hs => hs) (fun _ _ _ hs => hs) fun _ _ hs => h.cancelled hs

/-- A call that returns leaves the worker at its point. -/
theorem returnAt (now : UInt64) : Watched M env (A.here site point) (returnAt now) fun _ => A.here site point :=
  .bind (.update (Q := fun _ => A.here site point) fun _ _ hs => hs) fun _ =>
    .emit (fun _ _ hs => (h.returned now hs).1) fun _ _ hs => (h.returned now hs).2

/-- A call moves the worker to the point it leads to. -/
theorem callOut {connection : Connection} {call : Call} {point' : Point} (hleads : point.Leads call point') :
    Watched M env (A.here (connection :: site) point) (callOut call) fun _ => A.here (connection :: site) point' :=
  h.ticks.callOut fun _ _ hs => h.call hleads hs

/-- A call through the socket moves the worker to the point it leads to. -/
theorem callSocket {connection : Connection} {call : Call} {point' : Point} (hleads : point.Leads call point') :
    Watched M env (A.here (connection :: site) point) (callSocket call) fun _ => A.here (connection :: site) point' :=
  h.ticks.callSocket (fun _ _ _ _ => trivial) fun _ _ hs => h.call hleads hs

/-- `disconnected` leaves the worker at its point. -/
theorem disconnected : Watched M env (A.here site point) disconnected fun _ => A.here site point :=
  h.ticks.disconnected (fun _ _ hs _ _ => h.callback rfl hs) fun _ _ hs _ => hs

/-- So does an error that may be reported there. -/
theorem handleErrorResponse {code : ResultCode} (hreports : Reports site point code) (errorCode : Int) :
    Watched M env (A.here site point) (handleErrorResponse code errorCode) fun _ => A.here site point :=
  h.ticks.handleErrorResponse (fun _ _ hs _ => h.error errorCode hreports hs) h.disconnected

/-- So does the callback of the head. -/
theorem responseHeader (header : ResponseHeader) :
    Watched M env (A.here site point) (responseHeader header) fun _ => A.here site point :=
  h.ticks.guarded fun _ _ hs _ _ => h.callback rfl hs

/-- So does the callback of a piece of the body. -/
theorem responseData (data : Data) :
    Watched M env (A.here site point) (responseData data) fun _ => A.here site point :=
  h.ticks.guarded fun _ _ hs _ _ => h.callback rfl hs

/-- The request is left with an error, or without one: nothing is asserted behind that. -/
theorem fails {α : Type} {code : ResultCode} (hreports : Reports site point code) (errorCode : Int) (a : α)
    {Q : α → κ → State → Prop} (hQ : ∀ k s, Q a k s) :
    Watched M env (A.here site point) (do HttpRequest.handleErrorResponse code errorCode; pure a) Q :=
  (h.handleErrorResponse hreports errorCode).bind fun _ => .pure fun k s _ => hQ k s

/-- The last `disconnected` of a run leaves nothing to watch behind it. -/
theorem ends {α : Type} (a : α) {Q : α → κ → State → Prop} (hQ : ∀ k s, Q a k s) :
    Watched M env (A.here site point) (do HttpRequest.disconnected; pure a) Q :=
  h.disconnected.bind fun _ => .pure fun k s _ => hQ k s

/-! ### The functions of the worker -/

/-- `isReceivable` returns `true` behind a call of `canReceive`. -/
theorem isReceivable {connection : Connection} {waits : List WaitReply}
    (hreports : ∀ wait ∈ waits, ¬wait.result.isSuccess = true →
      Reports (connection :: site) .awaited wait.result.resultCode) :
    Watched M env (A.here (connection :: site) .waiting) (isReceivable waits)
      fun receivable k s => receivable = true → A.here (connection :: site) .awaited k s := by
  -- a wait is entered by a valid request only
  have hvalid {valid : Bool} {m : Int → Worker Bool} {Q : Bool → κ → State → Prop} (hQ : ∀ k s, Q false k s)
      (hm : ∀ timeout, Watched M env (A.here (connection :: site) .awaited) (m timeout) Q) :
      Watched M env (fun k s => valid = s.isValid_ ∧ A.here (connection :: site) .waiting k s)
        (if !valid then do HttpRequest.disconnected; pure false
          else do let timeout ← HttpRequest.getRemainTime; HttpRequest.callSocket (.canReceive timeout); m timeout)
        Q := by
    refine .ite (fun _ => (h.ends false hQ).conseq (fun _ _ hs => hs.2) fun _ _ _ hs => hs) fun hvalid => ?_
    refine .conseq (P := A.here (connection :: site) .valid) (getRemainTime.bind fun timeout => ?_) ?_
      fun _ _ _ hs => hs
    · exact (h.callSocket (.canReceive timeout)).bind fun _ => hm timeout
    · rintro k s ⟨rfl, hs⟩
      have hvalid : s.isValid_ = true := by simpa using hvalid
      unfold Chart.here at hs ⊢
      rw [hvalid] at hs ⊢
      exact h.valid hs
  induction waits with
  | nil => exact h.ticks.loadValid.bind fun valid => hvalid (fun _ _ => nofun) fun _ => stop _
  | cons wait waits ih =>
    obtain ⟨hwait, hwaits⟩ := List.forall_mem_cons.mp hreports
    refine h.ticks.loadValid.bind fun valid => hvalid (fun _ _ => nofun) fun _ => (h.returnAt _).bind fun _ => ?_
    refine .ite (fun _ => .pure fun _ _ hs _ => hs) fun hfailed => getRemainTime.bind fun _ =>
      .ite (fun _ => ?_) fun _ => ?_
    · exact (ih hwaits).conseq (fun _ _ hs => h.again hs) fun _ _ _ hs => hs
    · exact h.fails (hwait hfailed) _ _ fun _ _ => nofun

/-- The chunk loop stays behind its read. -/
theorem parseChunkLoop (fuel : Nat) (dataView : Bytes) (chunkSize : Int) (isCompleted : Bool) :
    Watched M env (A.here site .received) (parseChunkLoop fuel dataView chunkSize isCompleted)
      fun _ => A.here site .received := by
  induction fuel generalizing dataView chunkSize with
  | zero => exact .pure fun _ _ hs => hs
  | succ fuel ih =>
    refine .ite (fun _ => .pure fun _ _ hs => hs) fun _ => .ite (fun _ => ?_) fun _ => ?_
    · cases find kCRLF dataView with
      | none => exact (h.handleErrorResponse (.sizeLine site) _).bind fun _ => .pure fun _ _ hs => hs
      | some pos =>
        refine (throwing _).bind fun chunkSize => .ite (fun _ => .pure fun _ _ hs => hs) fun _ => ?_
        exact (throwing _).bind fun _ => ih _ _
    · exact (h.responseData _).bind fun _ => (throwing _).bind fun _ => ih _ _

/-- So does `parseChunk`. -/
theorem parseChunk (data : Data) (chunkSize : Int) (isCompleted : Bool) :
    Watched M env (A.here site .received) (parseChunk data chunkSize isCompleted) fun _ => A.here site .received :=
  (h.parseChunkLoop _ _ _ _).bind fun _ => .pure fun _ _ hs => hs

/-- A pass of `receive` behind the head goes on in front of the next wait. -/
theorem receiveBody (st : ReceiveState) (dataPtr : Data) (isCompleted : Bool) :
    Watched M env (A.here site .received) (receiveBody st dataPtr isCompleted)
      fun next k s => next.isSome = true → A.here site .waiting k s := by
  have hend (isCompleted : Bool) (st : ReceiveState) : Watched M env (A.here site .received)
      (if isCompleted then do HttpRequest.disconnected; pure none else pure (some st))
      fun next k s => next.isSome = true → A.here site .waiting k s :=
    .ite (fun _ => h.ends none fun _ _ => nofun) fun _ => .pure fun _ _ hs _ => h.passed hs
  refine .ite (fun _ => ?_) fun _ => .ite (fun _ => (h.responseData _).bind fun _ => hend _ _) fun _ => hend _ _
  exact (h.parseChunk _ _ _).bind fun r => .ite (fun _ => .pure fun _ _ _ => nofun) fun _ => hend _ _

/-- So does a pass in which the head has not been complete, or in which nothing has been received. -/
theorem receivePass {connection : Connection} {redirect : Bytes → Worker Unit}
    (hredirect : ∀ text, Watched M env (A.here (connection :: site) .received) (redirect text) fun _ _ _ => True)
    {round : Round} (hround : round ∈ connection.rounds) (st : ReceiveState) :
    Watched M env (A.here (connection :: site) .awaited) (receivePass redirect st round.reply)
      fun next k s => next.isSome = true → A.here (connection :: site) .waiting k s := by
  refine (h.callSocket .receive).bind fun _ => (h.returnAt _).bind fun _ => .ite (fun hfailed => ?_) fun _ =>
    .ite (fun _ => ?_) fun _ => h.receiveBody _ _ _
  · refine .ite (fun _ => .pure fun _ _ hs _ => h.passed hs) fun hretry => .ite (fun _ => ?_) fun hcompleted => ?_
    · exact h.ends none fun _ _ => nofun
    · have hreports : Reports (connection :: site) .received round.reply.result.resultCode :=
        .receive hround (by simpa using hfailed) (by simpa using hretry) (by simpa using hcompleted)
      exact h.fails hreports _ _ fun _ _ => nofun
  · refine (throwing _).bind fun head => .ite (fun _ => .pure fun _ _ hs _ => h.passed hs) fun _ => ?_
    refine .bind_state fun s => .conseq (P := A.here (connection :: site) .received) (.ite (fun _ => ?_) fun _ => ?_)
      (fun _ _ hs => hs.2) fun _ _ _ hs => hs
    · exact (hredirect _).bind fun _ => .pure fun _ _ _ => nofun
    · exact (throwing _).bind fun _ => (h.responseHeader _).bind fun _ => h.receiveBody _ _ _

/-- The receive loop waits and reads in turn, until it ends or redirects. -/
theorem receiveLoop {connection : Connection} {redirect : Bytes → Worker Unit}
    (hredirect : ∀ text, Watched M env (A.here (connection :: site) .received) (redirect text) fun _ _ _ => True)
    {rounds : List Round} (hrounds : rounds ⊆ connection.rounds) (st : ReceiveState) :
    Watched M env (A.here (connection :: site) .waiting) (receiveLoop redirect rounds st) fun _ _ _ => True := by
  induction rounds generalizing st with
  | nil => exact (h.isReceivable (by simp)).bind fun _ => .pure fun _ _ _ => trivial
  | cons round rounds ih =>
    obtain ⟨hround, hrounds⟩ := List.cons_subset.mp hrounds
    refine (h.isReceivable fun wait hwait => .wait hround hwait).bind fun receivable => ?_
    refine .ite (fun _ => .pure fun _ _ _ => trivial) fun hreceivable => ?_
    refine .conseq (P := A.here (connection :: site) .awaited) ((h.receivePass hredirect hround st).bind fun next => ?_)
      (fun _ _ hs => hs (by simpa using hreceivable)) fun _ _ _ hs => hs
    cases next with
    | none => exact .pure fun _ _ _ => trivial
    | some st => exact (ih hrounds st).conseq (fun _ _ hs => hs rfl) fun _ _ _ hs => hs

/-- `send` returns `true` where all replies together have taken the view. -/
theorem sendLoop {connection : Connection} {sends : List SendReply} (hsends : sends ⊆ connection.sends)
    (dataView : Bytes) :
    Watched M env (A.here (connection :: site) (.sending sends dataView)) (sendLoop sends dataView)
      fun sent k s => sent = true → A.here (connection :: site) .waiting k s := by
  induction sends generalizing dataView with
  | nil => exact (h.callSocket (.send [] dataView)).bind fun _ => stop _
  | cons reply sends ih =>
    obtain ⟨hreply, hsends⟩ := List.cons_subset.mp hsends
    refine (h.callSocket (.send (reply :: sends) dataView)).bind fun _ => (h.returnAt _).bind fun _ => ?_
    refine .ite (fun hfailed => ?_) fun hfailed => ?_
    · exact h.fails (.send hreply (by simpa using hfailed) dataView) _ _ fun _ _ => nofun
    · have hsuccess : reply.result.isSuccess = true := by simpa using hfailed
      refine .ite (fun hsize => ?_) fun hsize => .pure fun _ _ hs _ => h.sent hsuccess (Nat.not_lt.mp hsize) hs
      have hsubstr : substrFrom dataView reply.size = .ok (dataView.drop reply.size) := if_pos hsize.le
      show Watched M env _ (HttpRequest.throwing (substrFrom dataView reply.size) >>= _) _
      rw [hsubstr, throwing_ok, pure_bind]
      refine .ite (fun _ => ?_) fun hempty => ?_
      · exact (ih hsends _).conseq (fun _ _ hs => h.resumed hsuccess hs) fun _ _ _ hs => hs
      · have hdrop : dataView.length ≤ reply.size := by simpa using hempty
        exact .pure fun _ _ hs _ => h.sent hsuccess hdrop hs

/-- A request that was sent leaves the worker waiting for the response. -/
theorem send (connection : Connection) :
    Watched M env (A.here (connection :: site) .connected) (send connection.canSend connection.sends)
      fun sent k s => sent = true → A.here (connection :: site) .waiting k s := by
  refine getRemainTime.bind fun timeout => (h.callSocket (.canSend timeout)).bind fun _ =>
    (h.returnAt _).bind fun _ => ?_
  refine .ite (fun hfailed => h.fails (.canSend (by simpa using hfailed)) _ _ fun _ _ => nofun) fun _ => ?_
  refine .bind_read (.bind_state fun s => .bind (.update (Q := fun _ => A.here (connection :: site)
    (.sending connection.sends (htmlEncode env.order s.info_ s.url_).1)) ?_) fun _ => h.sendLoop (fun _ h => h) _)
  rintro k _ ⟨rfl, hs⟩
  exact h.encoded hs

/-- A socket that is open is a connected one. -/
theorem connectSocket (connection : Connection) :
    Watched M env (A.here (connection :: site) .created) (connectSocket connection)
      fun isOpen k s => isOpen = true → A.here (connection :: site) .connected k s := by
  refine getRemainTime.bind fun timeout => .ite (fun _ => h.fails (.late _) _ _ fun _ _ => nofun) fun _ => ?_
  refine (h.callSocket (.connect timeout)).bind fun _ => (h.returnAt _).bind fun _ =>
    .ite (fun hfailed => ?_) fun _ => ?_
  · exact h.fails (.connect (by simpa using hfailed)) _ _ fun _ _ => nofun
  · refine .bind_state fun s => .conseq (P := A.here (connection :: site) .connected)
      (.ite (fun _ => ?_) fun _ => .pure fun _ _ hs _ => hs) (fun _ _ hs => hs.2) fun _ _ _ hs => hs
    have hinvoked : Watched M env (A.here (connection :: site) .connected) (do step; invoke .onConnected)
        fun _ => A.here (connection :: site) .connected := h.ticks.invoke fun _ _ hs => h.callback rfl hs
    have hboth := hinvoked.bind (f := fun _ => pure true)
      (R := fun isOpen k s => isOpen = true → A.here (connection :: site) .connected k s)
      fun _ => .pure fun _ _ hs _ => hs
    rwa [bind_assoc] at hboth

/-- Storing the socket is what creates it. -/
theorem storeSocket {connection : Connection} (socket : Socket) :
    Watched M env (A.here (connection :: site) .found) (storeSocket (some socket))
      fun _ => A.here (connection :: site) .created :=
  .bind (.emit (Q := fun _ => A.here (connection :: site) .created) (fun _ _ hs => (h.call (.newSocket socket) hs).1)
    fun _ _ hs => (h.call (.newSocket socket) hs).2) fun _ => .update fun _ _ hs => hs

/-- What is asserted where a request is sent: its URL has been checked. -/
abbrev Ready (A : Chart κ) (enableHttps : Bool) (site : List Connection) (k : κ) (s : State) : Prop :=
  s.url_.isHttpScheme enableHttps = true ∧ A.here site .parsed k s

/-- From the lookup to a connected socket. -/
theorem openConnection (connection : Connection) :
    Watched M env (Ready A env.enableHttps (connection :: site)) (openConnection connection)
      fun isOpen k s => isOpen = true → A.here (connection :: site) .connected k s := by
  refine .bind_read (.bind_state fun s => .assume (c := s.url_.isHttpScheme env.enableHttps = true) ?_ fun hurl =>
    .conseq (P := A.here (connection :: site) .parsed) ?_ (fun _ _ hs => hs.2.2) fun _ _ _ hs => hs)
  · rintro k _ ⟨rfl, hs⟩
    exact hs.1
  · refine (h.callOut (.getaddrinfo _ _ _)).bind fun _ => (h.returnAt _).bind fun _ => ?_
    cases connection.lookup.family with
    | none => exact h.fails (.lookup _) _ _ fun _ _ => nofun
    | some family =>
      obtain ⟨socket, hsocket⟩ := Option.isSome_iff_exists.mp (createSocket_isSome hurl
        (if s.info_.ipVersion = .Auto then (if family = .inet then .V4 else .V6) else s.info_.ipVersion))
      dsimp only
      rw [hsocket]
      exact (h.storeSocket _).bind fun _ => h.connectSocket connection

/-- From a connection that is ready to the end of its response. -/
theorem sendRequest {connection : Connection} {redirect : Bytes → Worker Unit}
    (hredirect : ∀ text, Watched M env (A.here (connection :: site) .received) (redirect text) fun _ _ _ => True) :
    Watched M env (Ready A env.enableHttps (connection :: site)) (sendRequest redirect connection)
      fun _ _ _ => True := by
  refine (h.openConnection connection).bind fun isOpen => .ite (fun _ => .pure fun _ _ _ => trivial) fun hopen => ?_
  refine .conseq (P := A.here (connection :: site) .connected) ((h.send connection).bind fun sent => ?_)
    (fun _ _ hs => hs (by simpa using hopen)) fun _ _ _ hs => hs
  refine .ite (fun _ => .pure fun _ _ _ => trivial) fun hsent => ?_
  exact (h.receiveLoop hredirect (fun _ h => h) _).conseq (fun _ _ hs => hs (by simpa using hsent)) fun _ _ _ hs => hs

/-- The redirect that was counted belongs to the next connection. -/
theorem countRedirect {connection : Connection} (text : Bytes) :
    Watched M env (A.here (connection :: site) .received) (countRedirect text) fun _ => A.here site .parsed :=
  watch_countRedirect ((h.handleErrorResponse (.limit _) _).conseq (fun _ _ hs => hs.2) fun _ _ _ hs => hs)
    (fun _ _ _ hs => hs) (fun _ _ hs => hs) h.ticks fun _ _ hs => h.redirected text hs

/-- A redirect starts over on the connections that are left. -/
theorem redirect {connection : Connection} {next : Worker Unit}
    (hnext : Watched M env (Ready A env.enableHttps site) next fun _ _ _ => True) (text : Bytes) :
    Watched M env (A.here (connection :: site) .received) (redirect next text) fun _ _ _ => True := by
  refine .ite (fun _ => ?_) fun _ => (h.countRedirect text).bind fun _ => .bind_read (.bind_state fun s => ?_)
  · exact (h.handleErrorResponse (.location _) _).conseq (fun _ _ hs => hs) fun _ _ _ _ => trivial
  · refine .ite (fun _ => ?_) fun hurl => hnext.conseq ?_ fun _ _ _ hs => hs
    · exact (h.handleErrorResponse (.target _) _).conseq (fun _ _ hs => hs.2) fun _ _ _ _ => trivial
    · rintro k _ ⟨rfl, hs⟩
      exact ⟨(by simpa using hurl : _ ∧ _).2, hs⟩

/-- The run over all connections, by induction on them. -/
theorem sendRequestOver (connections : List Connection) :
    Watched M env (Ready A env.enableHttps connections) (sendRequestOver connections) fun _ _ _ => True := by
  induction connections with
  | nil => exact stop _
  | cons connection connections ih => exact h.sendRequest fun text => h.redirect ih text

/-- **A chart follows the worker through whole runs.** -/
theorem process (connections : List Connection) :
    Watched M env (A.here connections .entered) (process connections) fun _ _ _ => True := by
  have hfails {point : Point} {code : ResultCode} (hreports : Reports connections point code) :
      Watched M env (A.here connections point) (HttpRequest.handleErrorResponse code 0) fun _ _ _ => True :=
    (h.handleErrorResponse hreports 0).conseq (fun _ _ hs => hs) fun _ _ _ _ => trivial
  refine .bind_state fun s => .conseq
    (P := fun k t => t.info_ = s.info_ ∧ A.here connections .entered k t) ?_ ?_ fun _ _ _ hs => hs
  · refine .ite (fun _ => (hfails (.method _)).conseq (fun _ _ hs => hs.2) fun _ _ _ hs => hs) fun _ => ?_
    have hticks : Ticks M (fun k t => t.info_ = s.info_ ∧ A.here connections .entered k t)
        (fun k t => t.info_ = s.info_ ∧ A.here connections .entered k t) :=
      ticks_of (fun _ _ hs => hs) (fun _ _ _ hs => hs)
        fun _ _ hs => ⟨(h.cancelled hs.2).1, hs.1, (h.cancelled hs.2).2⟩
    have hparsed : Watched M env (fun k t => t.info_ = s.info_ ∧ A.here connections .entered k t)
        (HttpRequest.callOut (.parseUrl s.info_.url))
        fun _ k t => A.here connections .parsed k { t with url_ := Url.parse t.info_.url } := by
      refine hticks.callOut fun k t hs => ?_
      rw [← hs.1]
      exact h.parsed hs.2
    refine hparsed.bind fun _ => .bind (.update (Q := fun _ => A.here connections .parsed) fun _ _ hs => hs) fun _ => ?_
    refine .bind_read (.bind_state fun t => .ite (fun _ => ?_) fun _ => .ite (fun _ => ?_) fun hurl => ?_)
    · exact (hfails (.url _)).conseq (fun _ _ hs => hs.2) fun _ _ _ hs => hs
    · exact (hfails (.scheme _)).conseq (fun _ _ hs => hs.2) fun _ _ _ hs => hs
    · refine (h.sendRequestOver connections).conseq ?_ fun _ _ _ hs => hs
      rintro k _ ⟨rfl, hs⟩
      exact ⟨by simpa using hurl, hs⟩
  · rintro k _ ⟨rfl, hs⟩
    exact ⟨rfl, hs⟩

end Charts

end

end HttpRequest
