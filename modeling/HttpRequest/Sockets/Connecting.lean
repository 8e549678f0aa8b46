import HttpRequest.Model.Sockets

/-! # Connecting

`ISocket::connect` starts to connect a socket that does not block, waits until the socket can be written and
asks for its pending error. How the wait ends is a matter of the outcomes of `::select` and the clock
(`waitEnd`). The loop keeps the end of a wait that has timed out or failed only until the pending error is
read, and a socket that is still connecting has none. -/

namespace HttpRequest

open Foundations

/-! ### The wait -/

/-- How the wait for a connection ends: with a socket that can be written, with a wait that takes all its
time or fails, or with the time over before another wait. It is `pending` when the outcomes end first. -/
inductive WaitEnd
  | writable
  | timedOut
  | expired
  | failed (errno : Int)
  | pending
  deriving DecidableEq, Repr

/-- The error numbers behind which the wait goes on, and with which `::connect` has only begun. -/
def Unfinished (errno : Int) : Prop := errno = RetryCode ∨ errno = BusyCode

instance (errno : Int) : Decidable (Unfinished errno) := inferInstanceAs (Decidable (_ ∨ _))

/-- **The end of the wait**, from a time on and with a time at which it is over, both in milliseconds. -/
def waitEnd (expiredTime : Int) : Int → List SelectReply → WaitEnd
  | now, [] => if expiredTime < now then .expired else .pending
  | now, reply :: selects =>
    if expiredTime < now then .expired
    else
      match reply.ret with
      | .ready => .writable
      | .timedOut => .timedOut
      | .failed errno =>
        if Unfinished errno then waitEnd expiredTime (Time.nowTime reply.now) selects else .failed errno

/-- How the wait of a method ends that starts at a time. -/
def ConnectScript.waitEnd (script : ConnectScript) (timeout : Int) (start : UInt64) : WaitEnd :=
  HttpRequest.waitEnd (Time.nowTime start + timeout) (Time.nowTime (start + script.delay)) script.selects

/-! ### What the caller is told -/

/-- `ISocket::connect` comes as far as to call `::connect`. -/
structure ReachesConnect (script : ConnectScript) (object : ISocket) : Prop where
  address : script.address = some (getAddressFamily object.ipVersion_)
  socket : object.socket_ ≠ none
  getFlags : script.config.getFlags = true
  setFlags : script.config.setFlags = true
  setNoSigPipe : script.config.setNoSigPipe = true

/-- `::connect` has begun to connect the socket. -/
structure Begins (script : ConnectScript) (object : ISocket) : Prop extends ReachesConnect script object where
  unfinished : ∃ errno, script.connect = some errno ∧ Unfinished errno

/-- The connection has been established: at once, or when the socket could be written and had no pending
error. -/
def Established (script : ConnectScript) (timeout : Int) (s : MethodState) : Prop :=
  ReachesConnect script s.self ∧ script.connect = none ∨
    Begins script s.self ∧ script.waitEnd timeout s.now = .writable ∧ script.getsockopt = .ok 0

/-- **A run that tells whether there is a connection.** -/
structure TellsConnection (script : ConnectScript) (timeout : Int) (s : MethodState)
    (r : Run MethodState Syscall Stop SocketResult) : Prop where
  success : (∃ result, r.outcome = .ok result ∧ result.isSuccess = true) ↔ Established script timeout s
  timeout : Begins script s.self →
    script.waitEnd timeout s.now = .timedOut ∨ script.waitEnd timeout s.now = .expired →
      ∃ result, r.outcome = .ok result ∧ result.resultCode = .Timeout

/-! ### Runs -/

/-- What the loop returns. -/
def WaitEnd.loopResult : WaitEnd → Except Stop (Option SocketResult)
  | .writable => .ok (some {})
  | .timedOut => .ok (some { resultCode := .Timeout })
  | .expired => .ok none
  | .failed errno => .ok (some { resultCode := .Failed, errorCode := errno })
  | .pending => .error .pending

/-- What the pending error of the socket makes of the result. -/
def soErrorResult : Except Int Int → SocketResult
  | .error errno => { resultCode := .ConnectGenericError, errorCode := errno }
  | .ok error => if error ≠ 0 then { resultCode := .ConnectGenericError, errorCode := error } else {}

/-- What the wait and the pending error make of the result. -/
def WaitEnd.result (getsockopt : Except Int Int) : WaitEnd → Except Stop SocketResult
  | .writable | .timedOut | .failed _ => .ok (soErrorResult getsockopt)
  | .expired => .ok { resultCode := .Timeout }
  | .pending => .error .pending

/-- The pending error of the socket is a success where it is read and zero. -/
theorem isSuccess_soErrorResult (getsockopt : Except Int Int) :
    (soErrorResult getsockopt).isSuccess = true ↔ getsockopt = .ok 0 := by
  cases getsockopt with
  | error errno => simp [soErrorResult, SocketResult.isSuccess]
  | ok error =>
    unfold soErrorResult
    by_cases herror : error = 0
    · simp [herror, SocketResult.isSuccess]
    · simp [herror, SocketResult.isSuccess]

/-- It is never a timeout. -/
theorem resultCode_soErrorResult (getsockopt : Except Int Int) :
    (soErrorResult getsockopt).resultCode ≠ .Timeout := by
  cases getsockopt with
  | error errno => simp [soErrorResult]
  | ok error =>
    unfold soErrorResult
    by_cases herror : error = 0
    · simp [herror]
    · simp [herror]

/-- A wait that is over. -/
theorem run_select (type : SelectType) (timeout : Int) (reply : SelectReply) (s : MethodState) :
    (select type timeout (some reply)).run () s =
      ⟨.ok (match reply.ret with
        | .ready => {}
        | .timedOut => { resultCode := .Timeout }
        | .failed errno => { resultCode := if errno = RetryCode then .Retry else .Failed, errorCode := errno }),
        { s with now := reply.now }, [.select type timeout]⟩ := by
  unfold select
  simp only [Program.run_bind, Program.run_emit, Program.run_update, Run.andThen_ok]
  cases reply.ret with
  | ready | timedOut | failed => rfl

/-- **The loop ends as its wait does.** -/
theorem outcome_checkConnectLoop (expiredTime : Int) (selects : List SelectReply) (s : MethodState) :
    ((ISocket.checkConnectLoop expiredTime selects).run () s).outcome =
      (waitEnd expiredTime (Time.nowTime s.now) selects).loopResult := by
  -- the loop and `waitEnd` read the clock at the same moments
  induction selects generalizing s with
  | nil =>
    unfold ISocket.checkConnectLoop waitEnd
    rw [Program.run_bind, Program.run_state, Run.andThen_ok, Run.prepend_nil]
    dsimp only
    simp only [sub_neg]
    by_cases hexpired : expiredTime < Time.nowTime s.now
    · rw [if_pos hexpired, if_pos hexpired]
      rfl
    · rw [if_neg hexpired, if_neg hexpired]
      rfl
  | cons reply selects ih =>
    unfold ISocket.checkConnectLoop waitEnd
    rw [Program.run_bind, Program.run_state, Run.andThen_ok, Run.prepend_nil]
    dsimp only
    simp only [sub_neg]
    by_cases hexpired : expiredTime < Time.nowTime s.now
    · rw [if_pos hexpired, if_pos hexpired]
      rfl
    rw [if_neg hexpired, if_neg hexpired, Program.run_bind, run_select, Run.andThen_ok, Run.prepend_outcome]
    cases hret : reply.ret with
    | ready => rfl
    | timedOut => rfl
    | failed errno =>
      -- the error number decides whether the loop goes on
      have hretry : SocketResult.needRetry
          { resultCode := if errno = RetryCode then .Retry else .Failed, errorCode := errno } =
            decide (Unfinished errno) := by
        rw [Bool.eq_iff_iff, decide_eq_true_iff]
        simp [SocketResult.needRetry, Unfinished]
      have hfailed : SocketResult.isSuccess
          { resultCode := if errno = RetryCode then .Retry else .Failed, errorCode := errno } = false := by
        unfold SocketResult.isSuccess
        split_ifs <;> rfl
      dsimp only
      rw [hretry, hfailed]
      by_cases hunfinished : Unfinished errno
      · -- the wait goes on
        rw [if_pos hunfinished, decide_eq_true hunfinished, if_pos (by rfl)]
        exact ih _
      · have hcode : errno ≠ RetryCode := fun h => hunfinished (.inl h)
        rw [if_neg hunfinished, decide_eq_false hunfinished, if_neg (by decide), if_neg hcode]
        rfl

/-- What `checkConnectResult` makes of a connection that has begun. -/
theorem outcome_checkConnectResult {result : SocketResult} (hfailed : result.isSuccess = false)
    (hretry : result.needRetry = true) (timeout : Int) (script : ConnectScript) (s : MethodState) :
    ((ISocket.checkConnectResult result timeout script).run () s).outcome =
      (script.waitEnd timeout s.now).result script.getsockopt := by
  unfold ISocket.checkConnectResult
  rw [hfailed, hretry, if_neg (by decide), if_neg (by decide)]
  simp only [Program.run_bind, Program.run_state, Program.run_update, Run.andThen_ok, Run.prepend_nil]
  have hloop := outcome_checkConnectLoop (Time.nowTime s.now + timeout) script.selects
    { s with now := s.now + script.delay }
  change _ = (script.waitEnd timeout s.now).loopResult at hloop
  -- of the loop only its outcome is used, not the state it leaves
  generalize (ISocket.checkConnectLoop (Time.nowTime s.now + timeout) script.selects).run ()
    { s with now := s.now + script.delay } = r at hloop
  obtain ⟨outcome, t, es⟩ := r
  obtain rfl : outcome = _ := hloop
  cases script.waitEnd timeout s.now with
  | pending => rfl
  | expired => rfl
  | writable | timedOut | failed =>
    simp only [WaitEnd.loopResult, Run.andThen_ok, Run.prepend_outcome, Program.run_bind, Program.run_emit]
    cases script.getsockopt with
    | error errno => rfl
    | ok error => by_cases herror : error = 0 <;> simp [WaitEnd.result, soErrorResult, herror]

/-- Closing always returns. -/
theorem run_closeSocket (s : MethodState) : ∃ t es, closeSocket.run () s = ⟨.ok (), t, es⟩ := by
  obtain ⟨⟨kind, ipVersion, socket, ssl⟩, now⟩ := s
  cases kind with
  | PlainSocket => cases socket <;> exact ⟨_, _, rfl⟩
  | TSLSocket => cases socket <;> cases ssl <;> exact ⟨_, _, rfl⟩

/-- Making the socket non-blocking succeeds when every step does. -/
theorem run_setNonBlocking (reply : ConfigReply) (s : MethodState) :
    ∃ code es, (ISocket.setNonBlocking reply).run () s = ⟨.ok code, s, es⟩ ∧
      (code = .Success ↔ reply.getFlags = true ∧ reply.setFlags = true ∧ reply.setNoSigPipe = true) := by
  unfold ISocket.setNonBlocking
  cases reply.getFlags with
  | false => exact ⟨_, _, rfl, by simp⟩
  | true =>
    cases reply.setFlags with
    | false => exact ⟨_, _, rfl, by simp⟩
    | true => cases reply.setNoSigPipe <;> exact ⟨_, _, rfl, by simp⟩

/-- `config` succeeds when there is a socket and every step succeeds, and leaves the object as it is then. -/
theorem run_config (reply : ConfigReply) (s : MethodState) :
    ∃ code t es, (ISocket.config reply).run () s = ⟨.ok code, t, es⟩ ∧ (code = .Success → t = s) ∧
      (code = .Success ↔ s.self.socket_ ≠ none ∧ reply.getFlags = true ∧ reply.setFlags = true ∧
        reply.setNoSigPipe = true) := by
  unfold ISocket.config
  rw [Program.run_bind, Program.run_state, Run.andThen_ok, Run.prepend_nil]
  cases hsocket : s.self.socket_ with
  | none => exact ⟨_, _, _, rfl, fun h => (by cases h), by simp⟩
  | some fd =>
    obtain ⟨code, es, hsteps, hsuccess⟩ := run_setNonBlocking reply s
    dsimp only
    rw [Program.run_bind, hsteps, Run.andThen_ok]
    have hconfig : code = .Success ↔ some fd ≠ none ∧ reply.getFlags = true ∧ reply.setFlags = true ∧
        reply.setNoSigPipe = true := by simp [hsuccess]
    by_cases hcode : code = .Success
    · rw [if_neg (not_not_intro hcode)]
      exact ⟨code, s, _, rfl, fun _ => rfl, hconfig⟩
    -- a configuration that fails closes the handle and keeps its own code
    · obtain ⟨t, es', hclose⟩ := run_closeSocket s
      rw [if_pos hcode, Program.run_bind, hclose]
      exact ⟨code, t, _, rfl, fun h => absurd h hcode, hconfig⟩

/-- A connection that cannot be begun. -/
theorem outcome_connect_of_not_reaches {script : ConnectScript} {s : MethodState}
    (h : ¬ReachesConnect script s.self) (timeout : Int) :
    ∃ result, ((ISocket.connect timeout script).run () s).outcome = .ok result ∧ result.isSuccess = false := by
  unfold ISocket.connect
  rw [Program.run_bind, Program.run_state, Run.andThen_ok, Run.prepend_nil]
  cases haddress : script.address with
  | none => exact ⟨_, rfl, rfl⟩
  | some family =>
    dsimp only
    by_cases hfamily : family = getAddressFamily s.self.ipVersion_
    · obtain ⟨code, t, es, hrun, -, hsuccess⟩ := run_config script.config s
      have hcode : code ≠ .Success := fun hcode => by
        obtain ⟨hsocket, hget, hset, hpipe⟩ := hsuccess.mp hcode
        exact h ⟨hfamily ▸ haddress, hsocket, hget, hset, hpipe⟩
      rw [if_neg (not_not_intro hfamily), Program.run_bind, hrun, Run.andThen_ok, if_pos hcode]
      refine ⟨_, rfl, ?_⟩
      rw [SocketResult.isSuccess, beq_eq_false_iff_ne]
      exact hcode
    · rw [if_pos hfamily]
      exact ⟨_, rfl, rfl⟩

/-- A connection that is begun, or established at once. -/
theorem outcome_connect_of_reaches {script : ConnectScript} {s : MethodState}
    (h : ReachesConnect script s.self) (timeout : Int) :
    ((ISocket.connect timeout script).run () s).outcome =
      match script.connect with
      | none => .ok {}
      | some errno =>
        if Unfinished errno then (script.waitEnd timeout s.now).result script.getsockopt
        else .ok { resultCode := .ConnectGenericError, errorCode := errno } := by
  obtain ⟨code, t, es, hrun, hstate, hsuccess⟩ := run_config script.config s
  obtain rfl : code = .Success := hsuccess.mpr ⟨h.socket, h.getFlags, h.setFlags, h.setNoSigPipe⟩
  -- nothing has been closed: the state is the one the call started in
  obtain rfl : t = s := hstate rfl
  unfold ISocket.connect
  rw [Program.run_bind, Program.run_state, Run.andThen_ok, Run.prepend_nil, h.address]
  dsimp only
  rw [if_neg (not_not_intro rfl), Program.run_bind, hrun, Run.andThen_ok, if_neg (not_not_intro rfl),
    Program.run_bind, Program.run_emit, Run.andThen_ok, Run.prepend_prepend, Run.prepend_outcome]
  cases script.connect with
  | none => rfl
  | some errno =>
    dsimp only
    have hretry : SocketResult.needRetry { resultCode := .ConnectGenericError, errorCode := errno } =
        decide (Unfinished errno) := by
      rw [Bool.eq_iff_iff, decide_eq_true_iff]
      simp [SocketResult.needRetry, Unfinished]
    by_cases hunfinished : Unfinished errno
    · rw [if_pos hunfinished]
      rw [decide_eq_true hunfinished] at hretry
      exact outcome_checkConnectResult rfl hretry timeout script t
    · rw [if_neg hunfinished]
      rw [decide_eq_false hunfinished] at hretry
      unfold ISocket.checkConnectResult
      rw [hretry]
      rfl

/-! ### `ISocket::connect` -/

/-- What is told of a connection that has begun. -/
theorem tellsConnection_begun_iff {script : ConnectScript} {timeout : Int} {s : MethodState}
    (hbegins : Begins script s.self) {r : Run MethodState Syscall Stop SocketResult}
    (houtcome : r.outcome = (script.waitEnd timeout s.now).result script.getsockopt) :
    TellsConnection script timeout s r ↔ script.waitEnd timeout s.now ≠ .timedOut ∧
      ∀ errno, script.waitEnd timeout s.now = .failed errno → script.getsockopt ≠ .ok 0 := by
  obtain ⟨errno, hconnect, -⟩ := hbegins.unfinished
  have hestablished : Established script timeout s ↔
      script.waitEnd timeout s.now = .writable ∧ script.getsockopt = .ok 0 := by
    simp [Established, hconnect, hbegins]
  have hreturned (result : SocketResult) (h : r.outcome = .ok result) :
      (∃ result, r.outcome = .ok result ∧ result.isSuccess = true) ↔ result.isSuccess = true := by
    simp [h]
  cases hend : script.waitEnd timeout s.now with
  | writable =>
    rw [hend] at houtcome
    refine iff_of_true ⟨?_, fun _ h => ?_⟩ ⟨by decide, fun _ h => (by cases h)⟩
    · rw [hreturned _ houtcome, isSuccess_soErrorResult, hestablished, hend]
      simp
    · rw [hend] at h
      simp at h
  | timedOut =>
    -- the result that says so is overwritten
    rw [hend] at houtcome
    refine iff_of_false (fun h => ?_) fun h => h.1 rfl
    obtain ⟨result, hresult, htimeout⟩ := h.timeout hbegins (.inl hend)
    rw [houtcome] at hresult
    obtain rfl := Except.ok.inj hresult
    exact resultCode_soErrorResult _ htimeout
  | expired =>
    rw [hend] at houtcome
    refine iff_of_true ⟨?_, fun _ _ => ⟨_, houtcome, rfl⟩⟩ ⟨by decide, fun _ h => (by cases h)⟩
    rw [hreturned _ houtcome, hestablished, hend]
    simp [SocketResult.isSuccess]
  | failed errno =>
    rw [hend] at houtcome
    have htold : TellsConnection script timeout s r ↔ script.getsockopt ≠ .ok 0 := by
      constructor
      · intro h hzero
        have hsuccess := (hreturned _ houtcome).mpr ((isSuccess_soErrorResult _).mpr hzero)
        have hwritable := (hestablished.mp (h.success.mp hsuccess)).1
        rw [hend] at hwritable
        cases hwritable
      · intro hpending
        refine ⟨?_, fun _ h => ?_⟩
        · rw [hreturned _ houtcome, isSuccess_soErrorResult, hestablished, hend]
          simp [hpending]
        · rw [hend] at h
          simp at h
    rw [htold]
    exact ⟨fun h => ⟨by simp, fun _ _ => h⟩, fun h => h.2 errno rfl⟩
  | pending =>
    rw [hend] at houtcome
    refine iff_of_true ⟨?_, fun _ h => ?_⟩ ⟨by decide, fun _ h => (by cases h)⟩
    · rw [hestablished, hend, houtcome]
      simp [WaitEnd.result]
    · rw [hend] at h
      simp at h

/-- **What `ISocket::connect` tells of the connection**: a wait that has taken all its time, or has failed while
the socket has no pending error, is taken for a socket that can be written. -/
theorem tellsConnection_iff (timeout : Int) (script : ConnectScript) (s : MethodState) :
    TellsConnection script timeout s ((ISocket.connect timeout script).run () s) ↔
      (Begins script s.self → script.waitEnd timeout s.now ≠ .timedOut ∧
        ∀ errno, script.waitEnd timeout s.now = .failed errno → script.getsockopt ≠ .ok 0) := by
  by_cases hbegins : Begins script s.self
  -- an attempt is under way, and the end of the wait decides
  · obtain ⟨errno, hconnect, hunfinished⟩ := hbegins.unfinished
    have houtcome := outcome_connect_of_reaches hbegins.toReachesConnect timeout
    rw [hconnect] at houtcome
    dsimp only at houtcome
    rw [if_pos hunfinished] at houtcome
    rw [tellsConnection_begun_iff hbegins houtcome]
    exact ⟨fun h _ => h, fun h => h hbegins⟩
  -- no attempt is under way, so there is nothing that could be told wrongly
  · refine iff_of_true ⟨?_, fun h => absurd h hbegins⟩ fun h => absurd h hbegins
    by_cases hreaches : ReachesConnect script s.self
    · have houtcome := outcome_connect_of_reaches hreaches timeout
      cases hconnect : script.connect with
      | none =>
        rw [hconnect] at houtcome
        exact iff_of_true ⟨_, houtcome, rfl⟩ (.inl ⟨hreaches, hconnect⟩)
      | some errno =>
        have hfinished : ¬Unfinished errno := fun h => hbegins ⟨hreaches, errno, hconnect, h⟩
        rw [hconnect] at houtcome
        dsimp only at houtcome
        rw [if_neg hfinished] at houtcome
        rw [houtcome]
        simp [Established, hconnect, hbegins, SocketResult.isSuccess]
    · obtain ⟨result, houtcome, hresult⟩ := outcome_connect_of_not_reaches hreaches timeout
      rw [houtcome]
      simp [Established, hreaches, hbegins, hresult]

/-- What is met by a socket that is still connecting when its wait has taken all its time: it has no pending
error. -/
def stillConnecting : ConnectScript :=
  { address := some .AF_INET, connect := some BusyCode, selects := [⟨.timedOut, 1000000⟩] }

/-- After a wait of a second that has timed out `Success` is reported, instead of `Timeout`. -/
theorem not_tellsConnection_timedOut :
    ¬TellsConnection stillConnecting 1000 ⟨⟨.PlainSocket, .V4, some 3, none⟩, 0⟩
      ((ISocket.connect 1000 stillConnecting).run () ⟨⟨.PlainSocket, .V4, some 3, none⟩, 0⟩) := by
  intro h
  have hbegins : Begins stillConnecting ⟨.PlainSocket, .V4, some 3, none⟩ :=
    ⟨⟨rfl, Option.some_ne_none _, rfl, rfl, rfl⟩, BusyCode, rfl, .inr rfl⟩
  have hsuccess : ((ISocket.connect 1000 stillConnecting).run ()
      ⟨⟨.PlainSocket, .V4, some 3, none⟩, 0⟩).outcome = .ok {} := by decide +kernel
  have hend : stillConnecting.waitEnd 1000 0 = .timedOut := by decide +kernel
  obtain ⟨result, hresult, htimeout⟩ := h.timeout hbegins (.inl hend)
  rw [hsuccess] at hresult
  obtain rfl := Except.ok.inj hresult
  cases htimeout

end HttpRequest
