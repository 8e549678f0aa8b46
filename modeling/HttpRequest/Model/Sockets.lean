import HttpRequest.Model.Request

/-! # Sockets

`ISocket`, `PlainSocket`, `TSLSocket` and `SSLManager`, function by function as in their files, on a POSIX
system. What the system and the TLS library answer comes from a script. A method reads and changes the
members of its object and the clock, and emits its calls; a script that ends leaves it waiting. -/

namespace HttpRequest

open Foundations

/-! ### What the system answers -/

/-- `RetryCode`, the error number `EINTR`. -/
def RetryCode : Int := 4

/-- `AgainCode`, the error number `EAGAIN`. -/
def AgainCode : Int := 11

/-- `BusyCode`, the error number `EINPROGRESS`. -/
def BusyCode : Int := 115

/-- `SSL_ERROR_WANT_READ`. -/
def SSL_ERROR_WANT_READ : Int := 2

/-- `SSL_ERROR_WANT_WRITE`. -/
def SSL_ERROR_WANT_WRITE : Int := 3

/-- `kMaxRetryCount`. -/
def kMaxRetryCount : Nat := 1000

/-- `ai_family` and what `GetAddressFamily` makes of a version. -/
inductive Family
  | AF_INET
  | AF_INET6
  | AF_UNSPEC
  | other
  deriving DecidableEq, Repr

/-- `GetAddressFamily`. -/
def getAddressFamily : IPVersion → Family
  | .V4 => .AF_INET
  | .V6 => .AF_INET6
  | .Auto => .AF_UNSPEC

/-- `enum class SelectType`. -/
inductive SelectType
  | Read
  | Write
  deriving DecidableEq, Repr

/-- How `::select` ends. -/
inductive Selected
  | ready
  | timedOut
  | failed (errno : Int)
  deriving DecidableEq, Repr

/-- The end of a `::select` and the time afterwards. -/
structure SelectReply where
  ret : Selected
  now : UInt64
  deriving DecidableEq, Repr

/-- What `config` meets: whether the flags can be read and set and, on systems where it asks for that,
whether signals of broken pipes can be turned off; and the error number left behind. -/
structure ConfigReply where
  getFlags : Bool := true
  setFlags : Bool := true
  setNoSigPipe : Bool := true
  errno : Int := 0
  deriving DecidableEq, Repr

/-- What `ISocket::connect` meets: the family of the address, `none` for a null pointer, `config`, the
error number of `::connect`, `none` when it succeeds, the waits, and what `getsockopt` says. -/
structure ConnectScript where
  address : Option Family
  config : ConfigReply := {}
  connect : Option Int
  /-- The time that passes before the clock is read for the second time. -/
  delay : UInt64 := 0
  selects : List SelectReply := []
  /-- The error number of `getsockopt` itself, or the pending error of the socket. -/
  getsockopt : Except Int Int := .ok 0

/-- What `::send`, `SSL_write` or `SSL_connect` returns, and the error number or what `SSL_get_error` says
behind it. -/
structure WriteOutcome where
  ret : Int
  error : Int := 0
  deriving DecidableEq, Repr

/-- What `::recv` or `SSL_read` returns: the bytes it stores, none of them for a result of zero, or a
negative result with the error number or what `SSL_get_error` says. -/
inductive ReadOutcome
  | bytes (data : Bytes)
  | failed (error : Int)
  deriving DecidableEq, Repr

/-! ### Objects and methods -/

/-- An `SSL` object: the descriptor `SSL_set_fd` has attached. -/
structure SSL where
  fd : Option Nat
  deriving DecidableEq, Repr

/-- The members of an object of a class derived from `ISocket`: its handle, `none` for `kInvalidSocket`, and
in a `TSLSocket` also `sslPtr`. -/
structure ISocket where
  kind : SocketKind
  ipVersion_ : IPVersion
  socket_ : Option Nat
  sslPtr : Option SSL := none
  deriving DecidableEq, Repr

/-- The calls of the system and of the TLS library, with those of their arguments that matter. -/
inductive Syscall
  | getFlags
  | setFlags
  | setNoSigPipe
  | connect
  | select (type : SelectType) (timeout : Int)
  | getsockopt
  | send (data : Bytes)
  | recv (size : Nat)
  | close (fd : Nat)
  | SSL_connect
  | SSL_write (data : Bytes)
  | SSL_read (size : Nat)
  | SSL_shutdown
  | SSL_free
  deriving DecidableEq, Repr

/-- What a method works on: its object, and the clock. -/
structure MethodState where
  self : ISocket
  now : UInt64

/-- The methods of the socket classes. -/
abbrev Method := Program Unit MethodState Syscall Stop

/-- The constructor of a class: the descriptor `socket` returned, if it did, and whether `SSL_new` succeeded.
`SSL_set_fd` attaches the descriptor without taking it over. -/
def constructSocket (kind : SocketKind) (ipVersion : IPVersion) (fd : Option Nat) (ssl : Bool) : ISocket :=
  { kind, ipVersion_ := ipVersion, socket_ := fd
    sslPtr :=
      match kind with
      | .PlainSocket => none
      | .TSLSocket => if ssl then some ⟨fd⟩ else none }

/-- What both moves do with the members: they leave `rhs` without a handle and without `sslPtr`. -/
def takeOver (rhs : ISocket) : ISocket × ISocket := (rhs, { rhs with socket_ := none, sslPtr := none })

/-- Change the members of the object. -/
def setSelf (f : ISocket → ISocket) : Method Unit := Program.update fun s => { s with self := f s.self }

/-- `Time::nowTime`, in milliseconds. -/
def Time.nowTime (now : UInt64) : Int := (now / 1000).toNat

/-- `select`. -/
def select (type : SelectType) (timeout : Int) (reply : Option SelectReply) : Method SocketResult := do
  Program.emit (.select type timeout)
  match reply with
  | none => Program.stop .pending
  | some reply => do
    Program.update fun s => { s with now := reply.now }
    match reply.ret with
    | .ready => pure {}
    | .timedOut => pure { resultCode := .Timeout }
    | .failed errno =>
      pure { resultCode := if errno = RetryCode then .Retry else .Failed, errorCode := errno }

/-! ### Closing -/

/-- `ISocket::close`. -/
def ISocket.close : Method Unit := do
  let s ← Program.state
  match s.self.socket_ with
  | none => pure ()
  | some fd => do
    Program.emit (.close fd)
    setSelf fun self => { self with socket_ := none }

/-- `SSLManager::close`. -/
def SSLManager.close : Method Unit := do
  let s ← Program.state
  -- neither the descriptor nor the object is released here
  if s.self.sslPtr.isSome then Program.emit .SSL_shutdown else pure ()

/-- `sslPtr.reset()`. -/
def resetSslPtr : Method Unit := do
  let s ← Program.state
  if s.self.sslPtr.isSome then do
    Program.emit .SSL_free
    setSelf fun self => { self with sslPtr := none }
  else pure ()

/-- `TSLSocket::close`. -/
def TSLSocket.close : Method Unit := do
  SSLManager.close
  ISocket.close
  resetSslPtr

/-- The virtual `close()`. -/
def closeSocket : Method Unit := do
  let s ← Program.state
  match s.self.kind with
  | .PlainSocket => ISocket.close
  | .TSLSocket => TSLSocket.close

/-- The destructor of the object. A `PlainSocket` closes its handle; a `TSLSocket` has the destructor of its
members only. -/
def destroySocket : Method Unit := do
  let s ← Program.state
  match s.self.kind with
  | .PlainSocket => ISocket.close
  | .TSLSocket => resetSslPtr

/-! ### Connecting -/

/-- The part of `ISocket::config` that makes the socket non-blocking. -/
def ISocket.setNonBlocking (reply : ConfigReply) : Method ResultCode := do
  Program.emit .getFlags
  if !reply.getFlags then pure .GetFlagsFailed
  else do
    Program.emit .setFlags
    if !reply.setFlags then pure .SetFlagsFailed
    else do
      -- the call of the systems that have `SO_NOSIGPIPE`; elsewhere `reply` lets it succeed
      Program.emit .setNoSigPipe
      if !reply.setNoSigPipe then pure .SetNoSigPipeFailed else pure .Success

/-- `ISocket::config`. -/
def ISocket.config (reply : ConfigReply) : Method ResultCode := do
  let s ← Program.state
  match s.self.socket_ with
  | none => pure .CreateSocketFailed
  | some _ => do
    let resultCode ← ISocket.setNonBlocking reply
    if resultCode ≠ .Success then do
      -- what has been opened by the constructor is closed again
      closeSocket
      pure resultCode
    else pure resultCode

/-- `checkNeedRetry` in `checkConnectResult`. -/
def SocketResult.needRetry (self : SocketResult) : Bool :=
  self.errorCode == RetryCode || self.errorCode == BusyCode

/-- The loop of `ISocket::checkConnectResult`: the result of its last wait, `none` when the time is over. -/
def ISocket.checkConnectLoop (expiredTime : Int) : List SelectReply → Method (Option SocketResult)
  | [] => do
    let s ← Program.state
    let remainTime := expiredTime - Time.nowTime s.now
    -- also where the clock has passed the limit before the first wait
    if remainTime < 0 then pure none
    else do
      let result ← select .Write remainTime none
      pure (some result)
  | reply :: selects => do
    let s ← Program.state
    let remainTime := expiredTime - Time.nowTime s.now
    if remainTime < 0 then pure none
    else do
      let result ← select .Write remainTime (some reply)
      -- a wait that times out is no error number to retry on, so it ends the loop
      if !result.isSuccess && result.needRetry then ISocket.checkConnectLoop expiredTime selects
      else pure (some result)

/-- `ISocket::checkConnectResult`. -/
def ISocket.checkConnectResult (result : SocketResult) (timeout : Int) (script : ConnectScript) :
    Method SocketResult := do
  if result.isSuccess then pure result
  -- only an interrupted call, or one still under way, is waited for
  else if !result.needRetry then pure result
  else do
    let s ← Program.state
    let expiredTime := Time.nowTime s.now + timeout
    Program.update fun s => { s with now := s.now + script.delay }
    let waited ← ISocket.checkConnectLoop expiredTime script.selects
    match waited with
    | none => pure { resultCode := .Timeout }
    | some _ => do
      -- what the last wait said is replaced by what `getsockopt` says
      Program.emit .getsockopt
      match script.getsockopt with
      | .error errno => pure { resultCode := .ConnectGenericError, errorCode := errno }
      | .ok error =>
        if error ≠ 0 then pure { resultCode := .ConnectGenericError, errorCode := error } else pure {}

/-- `ISocket::connect`. -/
def ISocket.connect (timeout : Int) (script : ConnectScript) : Method SocketResult := do
  let s ← Program.state
  match script.address with
  | none => pure { resultCode := .ConnectAddressError }
  | some family =>
    -- the version the object was made for, not the one the request asked for
    if family ≠ getAddressFamily s.self.ipVersion_ then pure { resultCode := .ConnectTypeInconsistent }
    else do
      let resultCode ← ISocket.config script.config
      if resultCode ≠ .Success then pure { resultCode, errorCode := script.config.errno }
      else do
        Program.emit .connect
        match script.connect with
        | some errno =>
          ISocket.checkConnectResult { resultCode := .ConnectGenericError, errorCode := errno } timeout
            script
        | none => ISocket.checkConnectResult {} timeout script

/-- What `TSLSocket::connect` meets: the connection below, `SSL_connect`, and the wait behind it. -/
structure TSLConnectScript extends ConnectScript where
  handshake : WriteOutcome := { ret := 1 }
  handshakeSelect : Option SelectReply := none

/-- `SSLManager::connect`. -/
def SSLManager.connect (outcome : WriteOutcome) : Method SocketResult := do
  Program.emit .SSL_connect
  -- `SSL_connect` gives no error number with a result of zero
  if outcome.ret = 0 then pure { resultCode := .Disconnected }
  else if outcome.ret < 0 then pure { resultCode := .Failed, errorCode := outcome.error }
  else pure {}

/-- `TSLSocket::connect`. The wait for the handshake is given the timeout once more. -/
def TSLSocket.connect (timeout : Int) (script : TSLConnectScript) : Method SocketResult := do
  let result ← ISocket.connect timeout script.toConnectScript
  if !result.isSuccess then pure result
  else do
    let result ← SSLManager.connect script.handshake
    if !result.isSuccess &&
        (result.errorCode == SSL_ERROR_WANT_WRITE || result.errorCode == SSL_ERROR_WANT_READ) then
      select (if result.errorCode = SSL_ERROR_WANT_WRITE then .Write else .Read) timeout
        script.handshakeSelect
    else pure result

/-- The virtual `connect()`. -/
def connectSocketObject (timeout : Int) (script : TSLConnectScript) : Method SocketResult := do
  let s ← Program.state
  match s.self.kind with
  | .PlainSocket => ISocket.connect timeout script.toConnectScript
  | .TSLSocket => TSLSocket.connect timeout script

/-! ### Waiting -/

/-- `ISocket::canSend`, which `TSLSocket::canSend` calls. -/
def ISocket.canSend (timeout : Int) (reply : Option SelectReply) : Method SocketResult :=
  select .Write timeout reply

/-- `ISocket::canReceive`. -/
def ISocket.canReceive (timeout : Int) (reply : Option SelectReply) : Method SocketResult :=
  select .Read timeout reply

/-- `TSLSocket::canReceive`, with what `SSL_pending` returns. -/
def TSLSocket.canReceive (timeout pending : Int) (reply : Option SelectReply) : Method SocketResult :=
  if 0 < pending then pure {} else ISocket.canReceive timeout reply

/-- The virtual `canReceive()`. -/
def canReceiveSocket (timeout pending : Int) (reply : Option SelectReply) : Method SocketResult := do
  let s ← Program.state
  match s.self.kind with
  | .PlainSocket => ISocket.canReceive timeout reply
  | .TSLSocket => TSLSocket.canReceive timeout pending reply

/-! ### Sending and receiving over a plain socket -/

/-- The loop of `PlainSocket::send`, after `retryCount` passes: the size and the error number of its last
call. -/
def PlainSocket.sendLoop (data : Bytes) : Nat → List WriteOutcome → Method (Int × Int)
  | _, [] => do
    Program.emit (.send data)
    Program.stop .pending
  | retryCount, outcome :: outcomes => do
    Program.emit (.send data)
    -- the size is kept in 32 bits
    let sendSize := toInt32 outcome.ret
    let errorCode := if sendSize = -1 then outcome.error else 0
    if retryCount + 1 < kMaxRetryCount ∧ errorCode = RetryCode then
      PlainSocket.sendLoop data (retryCount + 1) outcomes
    else pure (sendSize, errorCode)

/-- What `PlainSocket::send` makes of its last call. -/
def PlainSocket.sendResult (sendSize errorCode : Int) : SocketResult × Int :=
  if sendSize = -1 then
    ({ resultCode := if errorCode = RetryCode then .RetryReachMaxCount else .Failed, errorCode }, 0)
  else if sendSize = 0 then ({ resultCode := .Disconnected, errorCode }, 0)
  else ({ errorCode }, sendSize)

/-- `PlainSocket::send`. -/
def PlainSocket.send (data : Bytes) (outcomes : List WriteOutcome) : Method (SocketResult × Int) := do
  let (sendSize, errorCode) ← PlainSocket.sendLoop data 0 outcomes
  pure (PlainSocket.sendResult sendSize errorCode)

/-- The loop of `PlainSocket::receive`, after `retryCount` passes: the outcome of its last call. -/
def PlainSocket.receiveLoop : Nat → List ReadOutcome → Method ReadOutcome
  | _, [] => do
    Program.emit (.recv kDefaultReadSize)
    Program.stop .pending
  | retryCount, outcome :: outcomes => do
    Program.emit (.recv kDefaultReadSize)
    match outcome with
    | .bytes data => pure (.bytes data)
    | .failed errno =>
      -- an interrupted call is made again; any other failure ends the loop
      if retryCount + 1 < kMaxRetryCount ∧ errno = RetryCode then
        PlainSocket.receiveLoop (retryCount + 1) outcomes
      else pure (.failed errno)

/-- What `PlainSocket::receive` makes of its last call. -/
def PlainSocket.receiveResult : ReadOutcome → SocketResult × Bytes
  | .bytes data => ({ resultCode := if data.isEmpty then .Disconnected else .Success }, data)
  | .failed errno =>
    ({ resultCode :=
        if errno = RetryCode then .RetryReachMaxCount else if errno = AgainCode then .Retry else .Failed
       errorCode := errno }, [])

/-- `PlainSocket::receive`. -/
def PlainSocket.receive (outcomes : List ReadOutcome) : Method (SocketResult × Bytes) := do
  let outcome ← PlainSocket.receiveLoop 0 outcomes
  pure (PlainSocket.receiveResult outcome)

/-! ### Sending and receiving over TLS -/

/-- Whether `SSL_get_error` asks for a call to be made again. -/
def wants (error : Int) : Bool := error == SSL_ERROR_WANT_WRITE || error == SSL_ERROR_WANT_READ

/-- The loop of `SSLManager::write`, after `retryCount` passes. `isNeedRetry` is never reset, and a result
of zero keeps the error number of the pass in front of it. -/
def SSLManager.writeLoop (data : Bytes) : Nat → Bool → Int → List WriteOutcome → Method (SocketResult × Int)
  | _, _, _, [] => do
    Program.emit (.SSL_write data)
    Program.stop .pending
  | retryCount, isNeedRetry, errorCode, outcome :: outcomes => do
    Program.emit (.SSL_write data)
    -- `res` keeps the error number of the pass in front
    if outcome.ret = 0 then pure ({ resultCode := .Disconnected, errorCode }, 0)
    else if outcome.ret < 0 then
      if kMaxRetryCount ≤ retryCount + 1 then
        pure ({ resultCode := .RetryReachMaxCount, errorCode := outcome.error }, outcome.ret)
      -- one pass that asked for a retry is enough for all behind it
      else if isNeedRetry || wants outcome.error then
        SSLManager.writeLoop data (retryCount + 1) true outcome.error outcomes
      else pure ({ resultCode := .Failed, errorCode := outcome.error }, outcome.ret)
    else pure ({}, outcome.ret)

/-- `TSLSocket::send` with `SSLManager::write`. -/
def TSLSocket.send (data : Bytes) (outcomes : List WriteOutcome) : Method (SocketResult × Int) := do
  let s ← Program.state
  match s.self.sslPtr with
  | none => pure ({ resultCode := .Failed }, 0)
  | some _ => SSLManager.writeLoop data 0 false 0 outcomes

/-- The loop of `SSLManager::read`, after `retryCount` passes. -/
def SSLManager.readLoop : Nat → Bool → Int → List ReadOutcome → Method (SocketResult × Bytes)
  | _, _, _, [] => do
    Program.emit (.SSL_read kDefaultReadSize)
    Program.stop .pending
  | retryCount, isNeedRetry, errorCode, outcome :: outcomes => do
    Program.emit (.SSL_read kDefaultReadSize)
    match outcome with
    | .bytes data =>
      if data.isEmpty then pure ({ resultCode := .Disconnected, errorCode }, []) else pure ({}, data)
    | .failed error =>
      if kMaxRetryCount ≤ retryCount + 1 then
        pure ({ resultCode := .RetryReachMaxCount, errorCode := error }, [])
      else if isNeedRetry || wants error then SSLManager.readLoop (retryCount + 1) true error outcomes
      else pure ({ resultCode := .Failed, errorCode := error }, [])

/-- `TSLSocket::receive` with `SSLManager::read`. -/
def TSLSocket.receive (outcomes : List ReadOutcome) : Method (SocketResult × Bytes) := do
  let s ← Program.state
  match s.self.sslPtr with
  | none => pure ({ resultCode := .Failed }, [])
  | some _ => SSLManager.readLoop 0 false 0 outcomes

/-- The virtual `send()`. -/
def sendSocket (data : Bytes) (outcomes : List WriteOutcome) : Method (SocketResult × Int) := do
  let s ← Program.state
  match s.self.kind with
  | .PlainSocket => PlainSocket.send data outcomes
  | .TSLSocket => TSLSocket.send data outcomes

/-- The virtual `receive()`. -/
def receiveSocket (outcomes : List ReadOutcome) : Method (SocketResult × Bytes) := do
  let s ← Program.state
  match s.self.kind with
  | .PlainSocket => PlainSocket.receive outcomes
  | .TSLSocket => TSLSocket.receive outcomes

end HttpRequest
