import HttpRequest.Foundations.Program
import HttpRequest.Model.ResponseHead

/-! # `Request`

The worker of a request, function by function as in `Request.cpp`. The outside world answers from a
script: what each connection's lookup, connect, `canSend`, `send`, `canReceive` and `receive` calls
return, and the time at which they return. The worker reads the script, changes the members of the
request and emits its calls and callbacks as events. A script that ends leaves the worker waiting
(`Stop.pending`), so that every prefix of a run is a run.

`sendRequest`, `redirect` and `receive` call each other. `receive` and `sendRequest` take the function
`redirect` they call as an argument, `redirect` takes `sendRequest`, and `sendRequestOver` closes the
circle over a list of connections. -/

namespace HttpRequest

open Foundations

/-! ### What the outside world answers -/

/-- `addressInfo->ai_family`, as far as `sendRequest` looks at it. -/
inductive AddressFamily
  | inet
  | other
  deriving DecidableEq, Repr

/-- The result of `getaddrinfo`: the family of the first address, `none` when the lookup failed, the
error number left behind and the time afterwards. -/
structure LookupReply where
  family : Option AddressFamily
  errno : Int
  now : UInt64
  deriving DecidableEq, Repr

/-- The result of `ISocket::connect`, the error number left behind and the time afterwards. -/
structure ConnectReply where
  result : SocketResult
  errno : Int
  now : UInt64
  deriving DecidableEq, Repr

/-- The result of `ISocket::canSend` or `ISocket::canReceive` and the time afterwards. -/
structure WaitReply where
  result : SocketResult
  now : UInt64
  deriving DecidableEq, Repr

/-- The result of `ISocket::send`, with the number of bytes sent, and the time afterwards. -/
structure SendReply where
  result : SocketResult
  sendSize : Int
  now : UInt64
  deriving DecidableEq, Repr

/-- The result of `ISocket::receive`, with the bytes received, and the time afterwards. -/
structure ReceiveReply where
  result : SocketResult
  data : Bytes
  now : UInt64
  deriving DecidableEq, Repr

/-- What one pass of the loop in `receive` meets: the outcomes of its waits, of which it uses as many
as it needs, and the outcome of its `ISocket::receive`. -/
structure Round where
  waits : List WaitReply
  reply : ReceiveReply
  deriving DecidableEq, Repr

/-- All a connection answers. -/
structure Connection where
  lookup : LookupReply
  connect : ConnectReply
  canSend : WaitReply
  sends : List SendReply
  rounds : List Round
  deriving DecidableEq, Repr

/-! ### The state of the worker -/

/-- The two classes of sockets. -/
inductive SocketKind
  | PlainSocket
  | TSLSocket
  deriving DecidableEq, Repr

/-- What `socket_` points to. -/
structure Socket where
  kind : SocketKind
  ipVersion : IPVersion
  deriving DecidableEq, Repr

/-- The members of `Request`, the clock, and the number of steps after which `cancel()` is called,
`none` when it never is. `url_` is set before it is first read. -/
structure State where
  redirectCount_ : UInt8
  isValid_ : Bool
  startStamp_ : UInt64
  info_ : RequestInfo
  handler_ : ResponseHandler
  socket_ : Option Socket
  url_ : Url
  now : UInt64
  cancelIn : Option Nat

/-- What is fixed at build time: whether `ENABLE_HTTPS` is set, and how header maps are iterated. -/
structure Env where
  enableHttps : Bool
  order : IterationOrder

/-- The callbacks of `ResponseHandler` with their arguments, the request id apart. -/
inductive Callback
  | onConnected
  | onParseHeaderDone (header : ResponseHeader)
  | onData (data : Bytes)
  | onError (retCode : ResultCode) (errorCode : Int)
  | onDisconnected

/-- The calls that leave the worker: parsing a URL, resolving a name and the operations of a socket,
with their arguments. -/
inductive Call
  | parseUrl (url : Bytes)
  | getaddrinfo (host port : Bytes) (ipVersion : IPVersion)
  | newSocket (socket : Socket)
  | connect (timeout : Int)
  | canSend (timeout : Int)
  | send (data : Bytes)
  | canReceive (timeout : Int)
  | receive
  deriving DecidableEq, Repr

/-- What happens in a run, in order: the callbacks and calls of the worker, the times at which its calls
returned, and the moment at which `cancel()` took effect. -/
inductive Event
  | callback (callback : Callback)
  | call (call : Call)
  | returned (now : UInt64)
  | cancelled

/-- Why the worker has not returned: it was left by a fault, it waits for an answer, or it called
`redirect` where that call is still open (`exchange`). -/
inductive Stop
  | fault (fault : Fault)
  | pending
  | redirect (url : Bytes)
  deriving DecidableEq, Repr

/-- The programs the worker is made of. -/
abbrev Worker := Program Env State Event Stop

/-! ### Steps

`cancel()` can take effect in front of every step: a call that leaves the worker, a callback, or a read
of `isValid_` together with the callback it guards. -/

/-- The state after `cancel()` has taken effect, if it is due. -/
def State.tick (s : State) : State :=
  match s.cancelIn with
  | none => s
  | some 0 => { s with isValid_ := false, cancelIn := none }
  | some (n + 1) => { s with cancelIn := some n }

/-- The start of a step. -/
def step : Worker Unit := do
  let s ← Program.state
  if s.cancelIn = some 0 then Program.emit .cancelled else pure ()
  Program.update State.tick

/-- What the start of a step shows: a `cancel()` that takes effect. -/
def State.tickEvents (s : State) : List Event := if s.cancelIn = some 0 then [.cancelled] else []

/-- The run of a step: a `cancel()` where one is due, and no more. -/
theorem run_step (env : Env) (s : State) : step.run env s = ⟨.ok (), s.tick, s.tickEvents⟩ := by
  unfold step State.tickEvents
  by_cases h : s.cancelIn = some 0 <;> simp [h]

/-- Read `isValid_`. -/
def loadValid : Worker Bool := do
  step
  let s ← Program.state
  pure s.isValid_

/-- Make a callback. -/
def invoke (callback : Callback) : Worker Unit := Program.emit (.callback callback)

/-- Call something outside the request. -/
def callOut (call : Call) : Worker Unit := do
  step
  Program.emit (.call call)

/-- The run of a call: the start of a step, and the call. -/
theorem run_callOut (call : Call) (env : Env) (s : State) :
    (callOut call).run env s = ⟨.ok (), s.tick, s.tickEvents ++ [.call call]⟩ := by
  simp [callOut, run_step]

/-- Call a method of `*socket_`. -/
def callSocket (call : Call) : Worker Unit := do
  step
  let s ← Program.state
  match s.socket_ with
  | none => Program.stop (.fault .nullPointer)
  | some _ => Program.emit (.call call)

/-- The time at which a call returned. -/
def returnAt (now : UInt64) : Worker Unit := do
  Program.update fun s => { s with now := now }
  Program.emit (.returned now)

/-- The run of a return: the moment it comes at. -/
@[simp] theorem run_returnAt (now : UInt64) (env : Env) (s : State) :
    (returnAt now).run env s = ⟨.ok (), { s with now := now }, [.returned now]⟩ := rfl

/-- A function that may throw. Every caller is `noexcept`. -/
def throwing {α : Type} : Except Fault α → Worker α
  | .ok a => pure a
  | .error fault => Program.stop (.fault fault)

/-- A value is returned. -/
@[simp] theorem throwing_ok {α : Type} (a : α) : throwing (.ok a) = pure a := rfl

/-- A fault stops the worker. -/
@[simp] theorem throwing_error {α : Type} (fault : Fault) :
    (throwing (.error fault) : Worker α) = Program.stop (.fault fault) := rfl

/-- `Request::getRemainTime`. -/
def remainTime (s : State) : Int := max (s.info_.timeout - Time.diff s.now s.startStamp_) 0

/-- `Request::getRemainTime`. -/
def getRemainTime : Worker Int := do
  let s ← Program.state
  pure (remainTime s)

/-! ### Callbacks -/

/-- `Request::disconnected`. -/
def disconnected : Worker Unit := do
  let valid ← loadValid
  let s ← Program.state
  if valid && s.handler_.onDisconnected then do
    -- `socket_.reset()` stands inside the guard: without the callback the socket stays
    invoke .onDisconnected
    Program.update fun s => { s with socket_ := none }
  else pure ()

/-- `Request::handleErrorResponse`. -/
def handleErrorResponse (code : ResultCode) (errorCode : Int) : Worker Unit := do
  let s ← Program.state
  -- `isValid_` is not asked here, so a cancelled request still reports its error
  if s.handler_.onError then do
    step
    invoke (.onError code errorCode)
  else pure ()
  disconnected

/-- `Request::responseHeader`. -/
def responseHeader (header : ResponseHeader) : Worker Unit := do
  let valid ← loadValid
  let s ← Program.state
  if valid && s.handler_.onParseHeaderDone then invoke (.onParseHeaderDone header) else pure ()

/-- `Request::responseData`. -/
def responseData (data : Data) : Worker Unit := do
  let valid ← loadValid
  let s ← Program.state
  if valid && s.handler_.onData then invoke (.onData data.view) else pure ()

/-! ### Receiving -/

/-- `Request::isReceivable`. -/
def isReceivable (waits : List WaitReply) : Worker Bool := do
  let valid ← loadValid
  if !valid then do
    disconnected
    pure false
  else do
    let timeout ← getRemainTime
    callSocket (.canReceive timeout)
    match waits with
    | [] => Program.stop .pending
    | canReceive :: waits => do
      returnAt canReceive.now
      if canReceive.result.isSuccess then pure true
      else do
        -- the second reading decides whether there is time for another wait
        let timeout ← getRemainTime
        if decide (0 < timeout) && canReceive.result.resultCode == .Retry then isReceivable waits
        else do
          handleErrorResponse canReceive.result.resultCode canReceive.result.errorCode
          pure false

/-- What `parseChunk` leaves: its result, the view not consumed, and its in-out arguments. -/
structure ChunkResult where
  res : Bool
  dataView : Bytes
  chunkSize : Int
  isCompleted : Bool
  deriving DecidableEq, Repr

/-- The end of a pass of the loop in `parseChunk`: a line break at the front of the view is skipped. -/
def skipCRLF (dataView : Bytes) : Bytes :=
  if find kCRLF dataView = some 0 then dataView.drop kCRLF.length else dataView

/-- The loop of `Request::parseChunk`, at most `fuel` passes of it. Every pass shortens the view, so
its length is enough fuel (`Sim.parseChunkLoop`). -/
def parseChunkLoop : Nat → Bytes → Int → Bool → Worker ChunkResult
  | 0, dataView, chunkSize, isCompleted => pure ⟨true, dataView, chunkSize, isCompleted⟩
  | fuel + 1, dataView, chunkSize, isCompleted =>
    if dataView.isEmpty then pure ⟨true, dataView, chunkSize, isCompleted⟩
    else if chunkSize ≤ 0 then
      -- a chunk has to begin: the view must hold the whole line with its size
      match find kCRLF dataView with
      | none => do
        -- the line is cut; the view is kept, and `receive` returns
        handleErrorResponse .ChunkSizeError 0
        pure ⟨false, dataView, chunkSize, isCompleted⟩
      | some pos => do
        let chunkSize ← throwing (stolHex (dataView.take pos))
        -- the last chunk: what stands behind its size line is not read
        if chunkSize = 0 then pure ⟨true, dataView, chunkSize, true⟩
        else do
          let dataView ← throwing (substrFrom dataView (pos + kCRLF.length))
          parseChunkLoop fuel (skipCRLF dataView) chunkSize isCompleted
    -- the payload, or as much of it as has arrived
    else do
      let size := min chunkSize.toNat dataView.length
      responseData (Data.ofBytes (dataView.take size))
      let dataView ← throwing (substrFrom dataView size)
      parseChunkLoop fuel (skipCRLF dataView) (chunkSize - size) isCompleted

/-- `Request::parseChunk`: its result, and what it leaves in `data`, `chunkSize` and `isCompleted`. -/
def parseChunk (data : Data) (chunkSize : Int) (isCompleted : Bool) :
    Worker (Bool × Data × Int × Bool) := do
  let r ← parseChunkLoop data.view.length data.view chunkSize isCompleted
  let data := if r.dataView.isEmpty then data.destroy else Data.ofBytes r.dataView
  pure (r.res, data, r.chunkSize, r.isCompleted)

/-- The local variables of `Request::receive`. -/
structure ReceiveState where
  response : ResponseHeader := {}
  recvDataPtr : Data := {}
  parseHeaderSuccess : Bool := false
  contentLength : Int := int64Max
  recvLength : Int := 0
  transferCoding : Bytes := []
  chunkSize : Int := -1

/-- `kDefaultReadSize`. -/
def kDefaultReadSize : Nat := 4 * 1024

/-- The `Data` a socket hands over: a buffer of `kDefaultReadSize` bytes that starts with the bytes
received. -/
def receivedData (data : Bytes) : Data :=
  { capacity := kDefaultReadSize, length := data.length,
    rawData := some (Data.writeAt (Data.allocate kDefaultReadSize) 0 data) }

/-- The part of a pass of `Request::receive` behind the parsing of the head. The result is `none` when
it returns. -/
def receiveBody (st : ReceiveState) (dataPtr : Data) (isCompleted : Bool) :
    Worker (Option ReceiveState) := do
  -- counted before the coding is looked at, so chunk lines count as well
  let st := { st with recvLength := st.recvLength + dataPtr.length }
  if st.transferCoding = kChunked then do
    let (res, recvDataPtr, chunkSize, isCompleted) ←
      parseChunk (st.recvDataPtr.append dataPtr) st.chunkSize isCompleted
    if !res then pure none
    else if isCompleted then do
      disconnected
      pure none
    else pure (some { st with recvDataPtr, chunkSize })
  else do
    -- a read that succeeds leaves `isCompleted` unset, so the announced length decides
    let isCompleted := isCompleted || decide (st.contentLength ≤ st.recvLength)
    if st.parseHeaderSuccess && !dataPtr.empty then responseData dataPtr else pure ()
    if isCompleted then do
      disconnected
      pure none
    else pure (some st)

/-- A pass of `Request::receive` behind `isReceivable`. The result is `none` when it returns. -/
def receivePass (redirect : Bytes → Worker Unit) (st : ReceiveState) (reply : ReceiveReply) :
    Worker (Option ReceiveState) := do
  callSocket .receive
  returnAt reply.now
  let recvResult := reply.result
  let isCompleted := recvResult.resultCode == .Completed || recvResult.resultCode == .Disconnected
  if !recvResult.isSuccess then
    -- `continue`: the round is lost, the state is not
    if recvResult.resultCode == .Retry then pure (some st)
    else if isCompleted then do
      disconnected
      pure none
    else do
      handleErrorResponse recvResult.resultCode recvResult.errorCode
      pure none
  else if !st.parseHeaderSuccess then do
    let recvDataPtr := st.recvDataPtr.append (receivedData reply.data)
    let (isSuccess, headerSize, response) ←
      throwing (parseResponseHeader recvDataPtr.view st.response)
    -- the head goes on in the next round
    if !isSuccess then pure (some { st with recvDataPtr, response })
    else do
      let s ← Program.state
      if response.isNeedRedirect && s.info_.isAllowRedirect then do
        -- `operator[]`: without the field the empty string is redirected to
        redirect ((response.headers.lookup kLocation).getD [])
        pure none
      else do
        let contentLength ←
          throwing (parseFieldValueInt64 response.headers kContentLength st.contentLength)
        let transferCoding :=
          parseFieldValueString response.headers kTransferEncoding st.transferCoding
        -- `response` is moved from, and not read again
        responseHeader response
        receiveBody
          { st with
            response := {}, parseHeaderSuccess := true, contentLength, transferCoding
            recvDataPtr := recvDataPtr.destroy }
          -- what has come behind the head is the first piece of the body
          (recvDataPtr.copy headerSize (-1)) isCompleted
  else receiveBody st (receivedData reply.data) isCompleted

/-- The loop of `Request::receive`. When the script ends, the next pass still reads `isValid_` and
waits. -/
def receiveLoop (redirect : Bytes → Worker Unit) : List Round → ReceiveState → Worker Unit
  | [], _ => do
    let _ ← isReceivable []
    pure ()
  | round :: rounds, st => do
    let receivable ← isReceivable round.waits
    if !receivable then pure ()
    else do
      let next ← receivePass redirect st round.reply
      match next with
      | none => pure ()
      | some st => receiveLoop redirect rounds st

/-- `Request::receive`. -/
def receive (redirect : Bytes → Worker Unit) (rounds : List Round) : Worker Unit :=
  receiveLoop redirect rounds {}

/-! ### Sending -/

/-- The loop of `Request::send`. The size sent, a signed number, is compared as an unsigned one. -/
def sendLoop : List SendReply → Bytes → Worker Bool
  | [], dataView => do
    callSocket (.send dataView)
    Program.stop .pending
  | reply :: sends, dataView => do
    callSocket (.send dataView)
    returnAt reply.now
    if !reply.result.isSuccess then do
      handleErrorResponse reply.result.resultCode reply.result.errorCode
      pure false
    else
      -- `sendSize < dataView.size()` converts `sendSize` to an unsigned number
      let sendSize := (reply.sendSize % 2 ^ 64).toNat
      if sendSize < dataView.length then do
        let dataView ← throwing (substrFrom dataView sendSize)
        if !dataView.isEmpty then sendLoop sends dataView else pure true
      else pure true

/-- `Request::send`. -/
def send (canSend : WaitReply) (sends : List SendReply) : Worker Bool := do
  let timeout ← getRemainTime
  callSocket (.canSend timeout)
  returnAt canSend.now
  if !canSend.result.isSuccess then do
    handleErrorResponse canSend.result.resultCode canSend.result.errorCode
    pure false
  else do
    let env ← Program.read
    let s ← Program.state
    let (sendData, info) := htmlEncode env.order s.info_ s.url_
    -- `htmlEncode` writes the fields it adds into `info_` itself
    Program.update fun s => { s with info_ := info }
    sendLoop sends sendData

/-! ### Exchanges and redirects -/

/-- The socket `sendRequest` creates, `none` for the null pointer that is left without `ENABLE_HTTPS`. -/
def createSocket (enableHttps : Bool) (url : Url) (ipVersion : IPVersion) : Option Socket :=
  if url.isHttps then
    if enableHttps then some ⟨.TSLSocket, ipVersion⟩ else none
  else some ⟨.PlainSocket, ipVersion⟩

/-- The part of `Request::sendRequest` that fills `socket_`. Without `ENABLE_HTTPS` the error is
reported and the null pointer is stored all the same. -/
def storeSocket (socketPtr : Option Socket) : Worker Unit := do
  match socketPtr with
  | none => handleErrorResponse .SchemeNotSupported 0
  | some socket => Program.emit (.call (.newSocket socket))
  Program.update fun s => { s with socket_ := socketPtr }

/-- The part of `Request::sendRequest` that connects `socket_`: whether the request goes on. -/
def connectSocket (connection : Connection) : Worker Bool := do
  let timeout ← getRemainTime
  -- the lookup may have used up the time
  if timeout ≤ 0 then do
    handleErrorResponse .Timeout connection.lookup.errno
    pure false
  else do
    callSocket (.connect timeout)
    returnAt connection.connect.now
    let result := connection.connect.result
    -- the error number is read again, it is not the one in the result
    if !result.isSuccess then do
      handleErrorResponse result.resultCode connection.connect.errno
      pure false
    else do
      -- no `isValid_` here either
      let s ← Program.state
      if s.handler_.onConnected then do
        step
        invoke .onConnected
        pure true
      else pure true

/-- The part of `Request::sendRequest` in front of `send`: whether the request goes on. -/
def openConnection (connection : Connection) : Worker Bool := do
  let env ← Program.read
  let s ← Program.state
  let lookup := connection.lookup
  callOut (.getaddrinfo (cString s.url_.host) (cString s.url_.port) s.info_.ipVersion)
  returnAt lookup.now
  match lookup.family with
  | none => do
    handleErrorResponse .GetAddressFailed lookup.errno
    pure false
  | some family => do
    let ipVersion :=
      -- the family of the first address decides
      if s.info_.ipVersion = .Auto then (if family = .inet then IPVersion.V4 else IPVersion.V6)
      else s.info_.ipVersion
    storeSocket (createSocket env.enableHttps s.url_ ipVersion)
    connectSocket connection

/-- `Request::sendRequest` over a connection, calling `redirect` to follow a redirect. -/
def sendRequest (redirect : Bytes → Worker Unit) (connection : Connection) : Worker Unit := do
  let isOpen ← openConnection connection
  if !isOpen then pure ()
  else do
    let sent ← send connection.canSend connection.sends
    if !sent then pure () else receive redirect connection.rounds

/-- `redirectMaxCount`. -/
def redirectMaxCount : UInt8 := 7

/-- The part of `Request::redirect` in front of the check of the new URL. When the count has been reached
the error is reported, and the redirect is followed all the same. -/
def countRedirect (url : Bytes) : Worker Unit := do
  let s ← Program.state
  if redirectMaxCount ≤ s.redirectCount_ then handleErrorResponse .RedirectReachMaxCount 0
  else pure ()
  Program.update fun s => { s with redirectCount_ := s.redirectCount_ + 1 }
  callOut (.parseUrl url)
  Program.update fun s => { s with url_ := Url.parse url }

/-- `Request::redirect`, with the call of `sendRequest` it ends in. -/
def redirect (sendRequest : Worker Unit) (url : Bytes) : Worker Unit := do
  if url.isEmpty then handleErrorResponse .RedirectError 0
  else do
    countRedirect url
    let env ← Program.read
    let s ← Program.state
    if !s.url_.isValid || !s.url_.isHttpScheme env.enableHttps then
      handleErrorResponse .RedirectError 0
    else sendRequest

/-- `sendRequest` and `redirect` calling each other, one connection after the other. -/
def sendRequestOver : List Connection → Worker Unit
  -- the next connection has not been answered yet
  | [] => Program.stop .pending
  | connection :: connections => sendRequest (redirect (sendRequestOver connections)) connection

/-- `Request::process`. -/
def process (connections : List Connection) : Worker Unit := do
  let s ← Program.state
  if s.info_.methodType = .Unknown then handleErrorResponse .MethodError 0
  else do
    callOut (.parseUrl s.info_.url)
    Program.update fun s => { s with url_ := Url.parse s.info_.url }
    let env ← Program.read
    let s ← Program.state
    if !s.url_.isValid then handleErrorResponse .UrlInvalid 0
    else if !s.url_.isHttpScheme env.enableHttps then handleErrorResponse .SchemeNotSupported 0
    else sendRequestOver connections

/-- A request as its constructor leaves it at a time, with `cancel()` to come. -/
def State.initial (info : RequestInfo) (handler : ResponseHandler) (now : UInt64)
    (cancelIn : Option Nat) : State :=
  { redirectCount_ := 0, isValid_ := true, startStamp_ := now, info_ := info, handler_ := handler,
    socket_ := none, url_ := {}, now := now, cancelIn := cancelIn }

/-- A `sendRequest` up to the point where it calls `redirect`. -/
def exchange (connection : Connection) : Worker Unit :=
  sendRequest (fun url => Program.stop (.redirect url)) connection

/-- The callbacks among the events. -/
def callbacks (events : List Event) : List Callback :=
  events.filterMap fun
    | .callback callback => some callback
    | _ => none

/-- The calls among the events. -/
def calls (events : List Event) : List Call :=
  events.filterMap fun
    | .call call => some call
    | _ => none

end HttpRequest
