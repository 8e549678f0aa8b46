import HttpRequest.Foundations.Refinement
import HttpRequest.Model.Sockets

/-! # The worker over its sockets

`Request` and the socket classes together. Where `Model.Request` takes the result of a socket method from a
script, the methods of `Model.Sockets` run here on the object `socket_` points to, and what comes from a script
is what `getaddrinfo`, `socket`, `SSL_new` and the calls of the methods return, with the times at which they
return. The functions are those of `Request.cpp` once more; what touches no socket is taken over from
`Model.Request` as it stands. -/

namespace HttpRequest

open Foundations

/-! ### What the system answers to a worker -/

/-- What one pass of the loop in `isReceivable` meets: `SSL_pending`, the end of `::select`, `none` while it
waits, and the time at which `canReceive` returns. -/
structure SystemWait where
  pending : Int
  select : Option SelectReply
  now : UInt64

/-- What one `ISocket::send` meets, and the time at which it returns. -/
structure SystemSend where
  outcomes : List WriteOutcome
  now : UInt64

/-- What one pass of the loop in `receive` meets: its waits, what its `ISocket::receive` meets, and the time at
which that returns. -/
structure SystemRound where
  waits : List SystemWait
  outcomes : List ReadOutcome
  now : UInt64

/-- All a connection meets. The address that `connect` is given is the first that `getaddrinfo` has found, not
the one in the script of `connect`. -/
structure SystemConnection where
  /-- `addressInfo->ai_family`, `none` when the lookup failed. -/
  family : Option Family
  lookupErrno : Int := 0
  lookupNow : UInt64 := 0
  /-- The descriptor `socket` returns, `none` for `kInvalidSocket`. -/
  socket : Option Nat
  /-- Whether `SSL_new` succeeds. -/
  ssl : Bool := true
  connect : TSLConnectScript
  connectErrno : Int := 0
  connectNow : UInt64 := 0
  canSend : Option SelectReply
  canSendNow : UInt64 := 0
  sends : List SystemSend
  rounds : List SystemRound

/-- What `sendRequest` looks at of the address. -/
def Family.addressFamily : Family → AddressFamily
  | .AF_INET => .inet
  | .AF_INET6 | .AF_UNSPEC | .other => .other

/-- The result of `getaddrinfo`, as far as `sendRequest` looks at it. -/
def SystemConnection.lookup (connection : SystemConnection) : LookupReply :=
  ⟨connection.family.map Family.addressFamily, connection.lookupErrno, connection.lookupNow⟩

/-- What `connect` meets, with the address it is given. -/
def SystemConnection.connectScript (connection : SystemConnection) : TSLConnectScript :=
  { connection.connect with address := connection.family }

/-! ### The state -/

/-- A request and the object its `socket_` owns. -/
structure StackState where
  request : State
  object : Option ISocket

/-- What happens in a run: the events of the request, the creation of objects with the descriptors they get,
and the calls of the system. A call stands beside the descriptor its object has at that moment. -/
inductive StackEvent
  | request (event : Event)
  | created (kind : SocketKind) (fd : Option Nat)
  | system (fd : Option Nat) (call : Syscall)

/-- The programs of the stack. -/
abbrev Stack := Program Env StackState StackEvent Stop

/-- The event of the request, if it is one. -/
def StackEvent.request? : StackEvent → Option Event
  | .request event => some event
  | .created _ _ | .system _ _ => none

/-- What is seen of the stack by who does not see the system. -/
def requestView : View StackState State StackEvent Event Stop where
  state := StackState.request
  put request s := { s with request }
  event := StackEvent.request?
  shown := StackEvent.request
  waits := .pending
  state_put _ _ := rfl
  event_shown _ := rfl

/-- A part of the worker that neither calls a method nor resets `socket_`. -/
abbrev lift {α : Type} (m : Worker α) : Stack α := requestView.lift m

/-! ### Objects -/

/-- The descriptor of an object behind a call of one of its methods: `close` gives it up. -/
def descriptorBehind (fd : Option Nat) : Syscall → Option Nat
  | .close _ => none
  | _ => fd

/-- The calls of a method beside the descriptor its object has at each of them. -/
def onDescriptor : Option Nat → List Syscall → List StackEvent
  | _, [] => []
  | fd, call :: calls => .system fd call :: onDescriptor (descriptorBehind fd call) calls

/-- Run a method of the object. -/
def runMethod {α : Type} (object : ISocket) (m : Method α) : Stack α :=
  ⟨fun _ s =>
    let r := m.run () ⟨object, s.request.now⟩
    ⟨r.outcome, { request := { s.request with now := r.state.now }, object := some r.state.self },
      onDescriptor object.socket_ r.events⟩⟩

/-- Call a method of `*socket_` that returns at a time. -/
def callMethod {α : Type} (call : Call) (m : Method α) (now : UInt64) : Stack α := do
  lift (callSocket call)
  let s ← Program.state
  match s.object with
  | none => Program.stop (.fault .nullPointer)
  | some object => do
    let a ← runMethod object m
    lift (returnAt now)
    pure a

/-- `freeSocket` on the object `socket_` owns, if there is one. -/
def freeSocket : Stack Unit :=
  ⟨fun _ s =>
    match s.object with
    | none => ⟨.ok (), s, []⟩
    | some object =>
      let r := destroySocket.run () ⟨object, s.request.now⟩
      ⟨.ok (), { s with object := none }, onDescriptor object.socket_ r.events⟩⟩

/-- Where `socket_` has been reset its object is freed. -/
def freeUnowned : Stack Unit := do
  let s ← Program.state
  if s.request.socket_.isNone then freeSocket else pure ()

/-- A part of the worker that calls no method, and whose last act may be to reset `socket_`. -/
def within {α : Type} (m : Worker α) : Stack α := do
  let a ← lift m
  freeUnowned
  pure a

namespace Stack

/-! ### Receiving -/

/-- `Request::isReceivable`. -/
def isReceivable : List SystemWait → Stack Bool
  | [] => do
    let valid ← lift loadValid
    if !valid then do
      within disconnected
      pure false
    else do
      let timeout ← lift getRemainTime
      lift (callSocket (.canReceive timeout))
      Program.stop .pending
  | wait :: waits => do
    let valid ← lift loadValid
    if !valid then do
      within disconnected
      pure false
    else do
      let timeout ← lift getRemainTime
      let canReceive ←
        callMethod (.canReceive timeout) (canReceiveSocket timeout wait.pending wait.select) wait.now
      if canReceive.isSuccess then pure true
      else do
        let timeout ← lift getRemainTime
        if decide (0 < timeout) && canReceive.resultCode == .Retry then isReceivable waits
        else do
          within (handleErrorResponse canReceive.resultCode canReceive.errorCode)
          pure false

/-- A pass of `Request::receive` behind `isReceivable`. The result is `none` when it returns. -/
def receivePass (redirect : Bytes → Stack Unit) (st : ReceiveState) (round : SystemRound) :
    Stack (Option ReceiveState) := do
  let (recvResult, data) ← callMethod .receive (receiveSocket round.outcomes) round.now
  let isCompleted := recvResult.resultCode == .Completed || recvResult.resultCode == .Disconnected
  if !recvResult.isSuccess then
    if recvResult.resultCode == .Retry then pure (some st)
    else if isCompleted then do
      within disconnected
      pure none
    else do
      within (handleErrorResponse recvResult.resultCode recvResult.errorCode)
      pure none
  else if !st.parseHeaderSuccess then do
    let recvDataPtr := st.recvDataPtr.append (receivedData data)
    let (isSuccess, headerSize, response) ←
      lift (throwing (parseResponseHeader recvDataPtr.view st.response))
    if !isSuccess then pure (some { st with recvDataPtr, response })
    else do
      let s ← lift Program.state
      if response.isNeedRedirect && s.info_.isAllowRedirect then do
        redirect ((response.headers.lookup kLocation).getD [])
        pure none
      else do
        let contentLength ←
          lift (throwing (parseFieldValueInt64 response.headers kContentLength st.contentLength))
        let transferCoding :=
          parseFieldValueString response.headers kTransferEncoding st.transferCoding
        lift (responseHeader response)
        within (receiveBody
          { st with
            response := {}, parseHeaderSuccess := true, contentLength, transferCoding
            recvDataPtr := recvDataPtr.destroy }
          (recvDataPtr.copy headerSize (-1)) isCompleted)
  else within (receiveBody st (receivedData data) isCompleted)

/-- The loop of `Request::receive`. -/
def receiveLoop (redirect : Bytes → Stack Unit) : List SystemRound → ReceiveState → Stack Unit
  | [], _ => do
    let _ ← isReceivable []
    pure ()
  | round :: rounds, st => do
    let receivable ← isReceivable round.waits
    if !receivable then pure ()
    else do
      let next ← receivePass redirect st round
      match next with
      | none => pure ()
      | some st => receiveLoop redirect rounds st

/-- `Request::receive`. -/
def receive (redirect : Bytes → Stack Unit) (rounds : List SystemRound) : Stack Unit :=
  receiveLoop redirect rounds {}

/-! ### Sending -/

/-- The loop of `Request::send`. -/
def sendLoop : List SystemSend → Bytes → Stack Bool
  | [], dataView => do
    lift (callSocket (.send dataView))
    Program.stop .pending
  | reply :: sends, dataView => do
    let (sendResult, sendSize) ←
      callMethod (.send dataView) (sendSocket dataView reply.outcomes) reply.now
    if !sendResult.isSuccess then do
      within (handleErrorResponse sendResult.resultCode sendResult.errorCode)
      pure false
    else
      let sendSize := (sendSize % 2 ^ 64).toNat
      if sendSize < dataView.length then do
        let dataView ← lift (throwing (substrFrom dataView sendSize))
        if !dataView.isEmpty then sendLoop sends dataView else pure true
      else pure true

/-- `Request::send`. -/
def send (connection : SystemConnection) : Stack Bool := do
  let timeout ← lift getRemainTime
  let canSend ←
    callMethod (.canSend timeout) (ISocket.canSend timeout connection.canSend) connection.canSendNow
  if !canSend.isSuccess then do
    within (handleErrorResponse canSend.resultCode canSend.errorCode)
    pure false
  else do
    let env ← Program.read
    let s ← lift Program.state
    let (sendData, info) := htmlEncode env.order s.info_ s.url_
    lift (Program.update fun s => { s with info_ := info })
    sendLoop connection.sends sendData

/-! ### Exchanges and redirects -/

/-- The part of `Request::sendRequest` that fills `socket_`. The object it held is freed once the new one has
been created. -/
def storeSocket (socketPtr : Option Socket) (connection : SystemConnection) : Stack Unit := do
  match socketPtr with
  | none => within (handleErrorResponse .SchemeNotSupported 0)
  | some socket => do
    lift (Program.emit (.call (.newSocket socket)))
    Program.emit (.created socket.kind connection.socket)
  freeSocket
  Program.update fun s =>
    { request := { s.request with socket_ := socketPtr }
      object := socketPtr.map fun socket =>
        constructSocket socket.kind socket.ipVersion connection.socket connection.ssl }

/-- The part of `Request::sendRequest` that connects `socket_`: whether the request goes on. -/
def connectSocket (connection : SystemConnection) : Stack Bool := do
  let timeout ← lift getRemainTime
  if timeout ≤ 0 then do
    within (handleErrorResponse .Timeout connection.lookupErrno)
    pure false
  else do
    let result ←
      callMethod (.connect timeout) (connectSocketObject timeout connection.connectScript)
        connection.connectNow
    if !result.isSuccess then do
      within (handleErrorResponse result.resultCode connection.connectErrno)
      pure false
    else do
      let s ← lift Program.state
      if s.handler_.onConnected then do
        lift step
        lift (invoke .onConnected)
        pure true
      else pure true

/-- The part of `Request::sendRequest` in front of `send`: whether the request goes on. -/
def openConnection (connection : SystemConnection) : Stack Bool := do
  let env ← Program.read
  let s ← lift Program.state
  let lookup := connection.lookup
  lift (callOut (.getaddrinfo (cString s.url_.host) (cString s.url_.port) s.info_.ipVersion))
  lift (returnAt lookup.now)
  match lookup.family with
  | none => do
    within (handleErrorResponse .GetAddressFailed lookup.errno)
    pure false
  | some family => do
    let ipVersion :=
      if s.info_.ipVersion = .Auto then (if family = .inet then IPVersion.V4 else IPVersion.V6)
      else s.info_.ipVersion
    storeSocket (createSocket env.enableHttps s.url_ ipVersion) connection
    connectSocket connection

/-- `Request::sendRequest` over a connection, calling `redirect` to follow a redirect. -/
def sendRequest (redirect : Bytes → Stack Unit) (connection : SystemConnection) : Stack Unit := do
  let isOpen ← openConnection connection
  if !isOpen then pure ()
  else do
    let sent ← send connection
    if !sent then pure () else receive redirect connection.rounds

/-- The part of `Request::redirect` in front of the check of the new URL. -/
def countRedirect (url : Bytes) : Stack Unit := do
  let s ← lift Program.state
  if redirectMaxCount ≤ s.redirectCount_ then within (handleErrorResponse .RedirectReachMaxCount 0)
  else pure ()
  lift (Program.update fun s => { s with redirectCount_ := s.redirectCount_ + 1 })
  lift (callOut (.parseUrl url))
  lift (Program.update fun s => { s with url_ := Url.parse url })

/-- `Request::redirect`, with the call of `sendRequest` it ends in. -/
def redirect (sendRequest : Stack Unit) (url : Bytes) : Stack Unit := do
  if url.isEmpty then within (handleErrorResponse .RedirectError 0)
  else do
    countRedirect url
    let env ← Program.read
    let s ← lift Program.state
    if !s.url_.isValid || !s.url_.isHttpScheme env.enableHttps then
      within (handleErrorResponse .RedirectError 0)
    else sendRequest

/-- `sendRequest` and `redirect` calling each other, one connection after the other. -/
def sendRequestOver : List SystemConnection → Stack Unit
  | [] => Program.stop .pending
  | connection :: connections => sendRequest (redirect (sendRequestOver connections)) connection

/-- `Request::process`. -/
def process (connections : List SystemConnection) : Stack Unit := do
  let s ← lift Program.state
  if s.info_.methodType = .Unknown then within (handleErrorResponse .MethodError 0)
  else do
    lift (callOut (.parseUrl s.info_.url))
    lift (Program.update fun s => { s with url_ := Url.parse s.info_.url })
    let env ← Program.read
    let s ← lift Program.state
    if !s.url_.isValid then within (handleErrorResponse .UrlInvalid 0)
    else if !s.url_.isHttpScheme env.enableHttps then within (handleErrorResponse .SchemeNotSupported 0)
    else sendRequestOver connections

/-- A request up to the end of its destructor: the worker is joined, then `socket_` frees what it still owns. -/
def lifetime (connections : List SystemConnection) : Stack Unit := do
  process connections
  freeSocket
  lift (Program.update fun s => { s with socket_ := none })

end Stack

/-- A request as its constructor leaves it, without an object. -/
def StackState.initial (info : RequestInfo) (handler : ResponseHandler) (now : UInt64)
    (cancelIn : Option Nat) : StackState :=
  ⟨.initial info handler now cancelIn, none⟩

end HttpRequest
