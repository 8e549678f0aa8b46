import HttpRequest.Sockets.Connecting

/-! # Waits

The waits in `::select` that a call of the worker enters. The method behind the call works on an `Answer`, all
that the system has for it. A method whose answer ends is left in the wait it has entered (`LeftIn`), so that
the waits of a call are those that its method is left in by the parts of its answer (`Enters`). The first wait
of a connection starts when `connect` is called, every later one when the wait in front of it ended. -/

namespace HttpRequest

open Foundations

variable {α : Type}

/-! ### Waits of a method -/

/-- A wait in `::select`: when it is entered, and the milliseconds it is given. -/
structure Wait where
  start : UInt64
  timeout : Int
  deriving DecidableEq, Repr

/-- A wait that is over by a time, in microseconds, however it ends. A negative timeout waits for ever. -/
def Wait.EndsBy (w : Wait) (deadline : Int) : Prop :=
  0 ≤ w.timeout ∧ (w.start.toNat : Int) + 1000 * w.timeout ≤ deadline

/-- A time at which a wait may end: not before it is entered, and within the time it is given. -/
def Wait.Within (w : Wait) (now : UInt64) : Prop :=
  w.start ≤ now ∧ (0 ≤ w.timeout → (now.toNat : Int) ≤ (w.start.toNat : Int) + 1000 * w.timeout)

/-- A run that has been left in a wait. -/
structure LeftIn (r : Run MethodState Syscall Stop α) (w : Wait) : Prop where
  pending : r.outcome = .error .pending
  entered : ∃ type, r.events.getLast? = some (.select type w.timeout)
  start : r.state.now = w.start

/-- A run that has returned is not left in a wait. -/
theorem not_leftIn_of_ok {r : Run MethodState Syscall Stop α} {a : α} (h : r.outcome = .ok a) (w : Wait) :
    ¬LeftIn r w := by
  intro hleft
  have hpending := hleft.pending
  rw [h] at hpending
  cases hpending

/-- Events in front do not change the wait a run has been left in. -/
theorem leftIn_prepend {r : Run MethodState Syscall Stop α} {w : Wait} (h : LeftIn r w)
    (es : List Syscall) : LeftIn (r.prepend es) w := by
  obtain ⟨type, hlast⟩ := h.entered
  refine ⟨h.pending, ⟨type, ?_⟩, h.start⟩
  rw [Run.prepend_events, List.getLast?_append, hlast]
  rfl

/-- A run is left in one wait at most. -/
theorem leftIn_unique {r : Run MethodState Syscall Stop α} {w w' : Wait} (h : LeftIn r w)
    (h' : LeftIn r w') : w = w' := by
  obtain ⟨start, timeout⟩ := w
  obtain ⟨start', timeout'⟩ := w'
  obtain ⟨type, hlast⟩ := h.entered
  obtain ⟨type', hlast'⟩ := h'.entered
  have hstart : start = start' := h.start.symm.trans h'.start
  have htimeout : timeout = timeout' := by
    have hboth := hlast.symm.trans hlast'
    simp only [Option.some.injEq, Syscall.select.injEq] at hboth
    exact hboth.2
  rw [hstart, htimeout]

/-- Nothing follows a run that has been left in a wait. -/
theorem leftIn_andThen {β : Type} {r : Run MethodState Syscall Stop α} {w : Wait} (h : LeftIn r w)
    (f : α → MethodState → Run MethodState Syscall Stop β) : LeftIn (r.andThen f) w := by
  obtain ⟨outcome, t, es⟩ := r
  obtain rfl : outcome = .error .pending := h.pending
  exact ⟨rfl, h.entered, h.start⟩

/-- A wait that has not ended. -/
theorem leftIn_select (type : SelectType) (timeout : Int) (s : MethodState) :
    LeftIn ((select type timeout none).run () s) ⟨s.now, timeout⟩ := ⟨rfl, ⟨type, rfl⟩, rfl⟩

/-! ### The loop of `checkConnectResult` -/

/-- What `select` returns. -/
def SelectReply.result (reply : SelectReply) : SocketResult :=
  match reply.ret with
  | .ready => {}
  | .timedOut => { resultCode := .Timeout }
  | .failed errno => { resultCode := if errno = RetryCode then .Retry else .Failed, errorCode := errno }

/-- The connection is waited for again. -/
def SelectReply.Again (reply : SelectReply) : Prop :=
  (!reply.result.isSuccess && reply.result.needRetry) = true

instance (reply : SelectReply) : Decidable reply.Again := inferInstanceAs (Decidable (_ = true))

/-- The run of `select`, by its result. -/
theorem run_select_result (type : SelectType) (timeout : Int) (reply : SelectReply) (s : MethodState) :
    (select type timeout (some reply)).run () s =
      ⟨.ok reply.result, { s with now := reply.now }, [.select type timeout]⟩ := run_select type timeout reply s

/-- Without replies the loop has expired or is left in its wait. -/
theorem run_checkConnectLoop_nil (expiredTime : Int) (s : MethodState) :
    (ISocket.checkConnectLoop expiredTime []).run () s =
      if expiredTime < Time.nowTime s.now then ⟨.ok none, s, []⟩
      else ⟨.error .pending, s, [.select .Write (expiredTime - Time.nowTime s.now)]⟩ := by
  unfold ISocket.checkConnectLoop
  rw [Program.run_bind, Program.run_state, Run.andThen_ok, Run.prepend_nil]
  simp only [sub_neg]
  split_ifs <;> rfl

/-- A reply ends the loop or lets it wait again. -/
theorem run_checkConnectLoop_cons (expiredTime : Int) (reply : SelectReply) (selects : List SelectReply)
    (s : MethodState) :
    (ISocket.checkConnectLoop expiredTime (reply :: selects)).run () s =
      if expiredTime < Time.nowTime s.now then ⟨.ok none, s, []⟩
      else
        (if reply.Again then (ISocket.checkConnectLoop expiredTime selects).run () { s with now := reply.now }
          else ⟨.ok (some reply.result), { s with now := reply.now }, []⟩).prepend
            [.select .Write (expiredTime - Time.nowTime s.now)] := by
  rw [ISocket.checkConnectLoop, Program.run_bind, Program.run_state, Run.andThen_ok, Run.prepend_nil]
  simp only [sub_neg]
  split_ifs with hexpired hagain
  · rfl
  · unfold SelectReply.Again at hagain
    rw [Program.run_bind, run_select_result, Run.andThen_ok, if_pos hagain]
  · unfold SelectReply.Again at hagain
    rw [Program.run_bind, run_select_result, Run.andThen_ok, if_neg hagain]
    rfl

/-- The loop returns, or is left in a wait that ends when the time is over, on the clock in milliseconds. -/
theorem checkConnectLoop_waits (expiredTime : Int) (selects : List SelectReply) (s : MethodState) :
    (∃ waited, ((ISocket.checkConnectLoop expiredTime selects).run () s).outcome = .ok waited) ∨
      ∃ w, LeftIn ((ISocket.checkConnectLoop expiredTime selects).run () s) w ∧ 0 ≤ w.timeout ∧
        Time.nowTime w.start + w.timeout = expiredTime := by
  induction selects generalizing s with
  | nil =>
    rw [run_checkConnectLoop_nil]
    split_ifs with hexpired
    · exact .inl ⟨none, rfl⟩
    · refine .inr ⟨⟨s.now, expiredTime - Time.nowTime s.now⟩, ⟨rfl, ⟨.Write, rfl⟩, rfl⟩, ?_, ?_⟩
      · dsimp only
        omega
      · dsimp only
        omega
  | cons reply selects ih =>
    rw [run_checkConnectLoop_cons]
    split_ifs with hexpired hagain
    · exact .inl ⟨none, rfl⟩
    · rcases ih { s with now := reply.now } with ⟨waited, hok⟩ | ⟨w, hleft, hw⟩
      · exact .inl ⟨waited, hok⟩
      · exact .inr ⟨w, leftIn_prepend hleft _, hw⟩
    · exact .inl ⟨_, rfl⟩

/-- A loop that has waited has entered its first wait. -/
theorem checkConnectLoop_first {expiredTime : Int} {selects : List SelectReply} {s : MethodState} {w : Wait}
    (h : LeftIn ((ISocket.checkConnectLoop expiredTime selects).run () s) w) :
    LeftIn ((ISocket.checkConnectLoop expiredTime []).run () s)
      ⟨s.now, expiredTime - Time.nowTime s.now⟩ := by
  rw [run_checkConnectLoop_nil]
  split_ifs with hexpired
  · cases selects with
    | nil =>
      rw [run_checkConnectLoop_nil, if_pos hexpired] at h
      exact absurd h (not_leftIn_of_ok rfl w)
    | cons reply selects =>
      rw [run_checkConnectLoop_cons, if_pos hexpired] at h
      exact absurd h (not_leftIn_of_ok rfl w)
  · exact ⟨rfl, ⟨.Write, rfl⟩, rfl⟩

/-- When the loop has returned, further outcomes do not matter. -/
theorem run_checkConnectLoop_append {expiredTime : Int} {selects : List SelectReply} {s : MethodState}
    {waited : Option SocketResult}
    (h : ((ISocket.checkConnectLoop expiredTime selects).run () s).outcome = .ok waited)
    (more : List SelectReply) :
    (ISocket.checkConnectLoop expiredTime (selects ++ more)).run () s =
      (ISocket.checkConnectLoop expiredTime selects).run () s := by
  induction selects generalizing s with
  | nil =>
    rw [run_checkConnectLoop_nil] at h ⊢
    split_ifs at h with hexpired
    rw [List.nil_append, if_pos hexpired]
    cases more with
    | nil => rw [run_checkConnectLoop_nil, if_pos hexpired]
    | cons reply more => rw [run_checkConnectLoop_cons, if_pos hexpired]
  | cons reply selects ih =>
    rw [List.cons_append, run_checkConnectLoop_cons, run_checkConnectLoop_cons]
    rw [run_checkConnectLoop_cons] at h
    split_ifs at h ⊢ with hexpired hagain
    · rfl
    · rw [ih h]
    · rfl

/-! ### `connect`

What `connect` does depends on its outcomes of `::select` only through the loop, and on the outcome of the last
wait only where the handshake is waited for. -/

/-- A script with other ends of the waits in the loop. -/
def ConnectScript.withSelects (script : ConnectScript) (selects : List SelectReply) : ConnectScript :=
  { script with selects := selects }

/-- A script with other ends of all the waits. -/
def TSLConnectScript.withWaits (script : TSLConnectScript) (selects : List SelectReply)
    (reply : Option SelectReply) : TSLConnectScript :=
  { script with selects := selects, handshakeSelect := reply }

/-- The waits of a TLS connect are those of the connect below it. -/
theorem toConnectScript_withWaits (script : TSLConnectScript) (selects : List SelectReply)
    (reply : Option SelectReply) :
    (script.withWaits selects reply).toConnectScript = script.toConnectScript.withSelects selects := rfl

/-- Closing takes no time. -/
theorem now_closeSocket (s : MethodState) : (closeSocket.run () s).state.now = s.now := by
  obtain ⟨⟨kind, ipVersion, socket, ssl⟩, now⟩ := s
  cases kind with
  | PlainSocket => cases socket <;> rfl
  | TSLSocket => cases socket <;> cases ssl <;> rfl

/-- `config` takes no time. -/
theorem now_config (reply : ConfigReply) (s : MethodState) :
    ((ISocket.config reply).run () s).state.now = s.now := by
  unfold ISocket.config
  rw [Program.run_bind, Program.run_state, Run.andThen_ok, Run.prepend_nil]
  cases s.self.socket_ with
  | none => rfl
  | some fd =>
    obtain ⟨code, es, hsteps, -⟩ := run_setNonBlocking reply s
    dsimp only
    rw [Program.run_bind, hsteps, Run.andThen_ok]
    by_cases hcode : code = .Success
    · rw [if_neg (not_not_intro hcode)]
      rfl
    · obtain ⟨t, es', hclose⟩ := run_closeSocket s
      have hnow := now_closeSocket s
      rw [hclose] at hnow
      rw [if_pos hcode, Program.run_bind, hclose]
      exact hnow

/-- A method returns without a wait, whatever the outcomes of `::select` are, or comes to the loop and returns
behind it. -/
inductive LoopsAtMost (s : MethodState) (timeout : Int) (delay : UInt64)
    (run : List SelectReply → Run MethodState Syscall Stop SocketResult) : Prop
  | returns {r : Run MethodState Syscall Stop SocketResult} {result : SocketResult}
      (houtcome : r.outcome = .ok result) (hnow : r.state.now = s.now) (hrun : ∀ selects, run selects = r)
  | loops (es : List Syscall)
      (tail : Option SocketResult → MethodState → Run MethodState Syscall Stop SocketResult)
      (htail : ∀ waited t, ∃ result es', tail waited t = ⟨.ok result, t, es'⟩)
      (hrun : ∀ selects, run selects =
        (((ISocket.checkConnectLoop (Time.nowTime s.now + timeout) selects).run ()
          { s with now := s.now + delay }).andThen tail).prepend es)

section

variable {s : MethodState} {timeout : Int} {delay : UInt64}
  {run : List SelectReply → Run MethodState Syscall Stop SocketResult}

/-- Calls in front of the loop change nothing. -/
theorem LoopsAtMost.prepend (h : LoopsAtMost s timeout delay run) (es : List Syscall) :
    LoopsAtMost s timeout delay fun selects => (run selects).prepend es := by
  cases h with
  | returns houtcome hnow hrun =>
    exact .returns (r := Run.prepend es _) houtcome hnow fun selects => by rw [hrun]
  | loops es' tail htail hrun =>
    exact .loops (es ++ es') tail htail fun selects => by rw [hrun, Run.prepend_prepend]

/-- What `checkConnectResult` does behind its loop. -/
def ISocket.behindLoop (getsockopt : Except Int Int) : Option SocketResult → Method SocketResult
  | none => pure { resultCode := .Timeout }
  | some _ => do
    Program.emit .getsockopt
    match getsockopt with
    | .error errno => pure { resultCode := .ConnectGenericError, errorCode := errno }
    | .ok error =>
      if error ≠ 0 then pure { resultCode := .ConnectGenericError, errorCode := error } else pure {}

/-- It returns, and takes no time. -/
theorem run_behindLoop (getsockopt : Except Int Int) (waited : Option SocketResult) (t : MethodState) :
    ∃ result es, (ISocket.behindLoop getsockopt waited).run () t = ⟨.ok result, t, es⟩ := by
  cases waited with
  | none => exact ⟨_, _, rfl⟩
  | some result =>
    cases getsockopt with
    | error errno => exact ⟨_, _, rfl⟩
    | ok error =>
      dsimp only [ISocket.behindLoop]
      split_ifs
      · exact ⟨_, _, rfl⟩
      · exact ⟨_, _, rfl⟩

/-- `checkConnectResult` waits in its loop at most. -/
theorem checkConnectResult_loops (result : SocketResult) (timeout : Int) (script : ConnectScript)
    (s : MethodState) : LoopsAtMost s timeout script.delay fun selects =>
      (ISocket.checkConnectResult result timeout (script.withSelects selects)).run () s := by
  unfold ISocket.checkConnectResult ConnectScript.withSelects
  by_cases hsuccess : result.isSuccess = true
  · simp only [hsuccess, if_true]
    exact .returns rfl rfl fun _ => rfl
  by_cases hretry : result.needRetry = true
  · simp only [hsuccess, hretry, Bool.not_true]
    exact .loops [] (fun waited => (ISocket.behindLoop script.getsockopt waited).run ())
      (run_behindLoop script.getsockopt) fun selects => rfl
  · simp only [hsuccess, hretry, Bool.not_false, if_true]
    exact .returns rfl rfl fun _ => rfl

/-- So does `ISocket::connect`. -/
theorem connect_loops (timeout : Int) (script : ConnectScript) (s : MethodState) :
    LoopsAtMost s timeout script.delay fun selects =>
      (ISocket.connect timeout (script.withSelects selects)).run () s := by
  unfold ISocket.connect ConnectScript.withSelects
  simp only [Program.run_bind, Program.run_state, Run.andThen_ok, Run.prepend_nil]
  cases script.address with
  | none => exact .returns rfl rfl fun _ => rfl
  | some family =>
    dsimp only
    split_ifs with hfamily
    · exact .returns rfl rfl fun _ => rfl
    obtain ⟨code, t, es, hrun, hstate, -⟩ := run_config script.config s
    have hnow := now_config script.config s
    simp only [Program.run_bind, hrun, Run.andThen_ok]
    rw [hrun] at hnow
    by_cases hcode : code = .Success
    · obtain rfl : t = s := hstate hcode
      simp only [hcode, ne_eq, not_true, if_false, Program.run_bind, Program.run_emit, Run.andThen_ok,
        Run.prepend_prepend]
      cases script.connect with
      | none => exact (checkConnectResult_loops _ timeout script t).prepend _
      | some errno => exact (checkConnectResult_loops _ timeout script t).prepend _
    · simp only [ne_eq, hcode, not_false_eq_true, if_true]
      exact .returns rfl hnow fun _ => rfl

variable {selects : List SelectReply}

/-- Without an outcome no time has passed. -/
theorem LoopsAtMost.now_nil (h : LoopsAtMost s timeout 0 run) : (run []).state.now = s.now := by
  cases h with
  | returns houtcome hnow hrun => rw [hrun, hnow]
  | loops es tail htail hrun =>
    rw [hrun, run_checkConnectLoop_nil, Run.prepend_state]
    split_ifs with hexpired
    · obtain ⟨result, es', hreturns⟩ := htail none { s with now := s.now + 0 }
      rw [Run.andThen_ok, hreturns]
      exact UInt64.add_zero s.now
    · exact UInt64.add_zero s.now

/-- When the method has returned, further outcomes do not matter. -/
theorem LoopsAtMost.append (h : LoopsAtMost s timeout delay run) {result : SocketResult}
    (hok : (run selects).outcome = .ok result) (more : List SelectReply) :
    run (selects ++ more) = run selects := by
  cases h with
  | returns houtcome hnow hrun => rw [hrun, hrun]
  | loops es tail htail hrun =>
    rcases checkConnectLoop_waits (Time.nowTime s.now + timeout) selects { s with now := s.now + delay } with
      ⟨waited, hloop⟩ | ⟨w, hleft, -⟩
    · rw [hrun, hrun, run_checkConnectLoop_append hloop]
    · have hpending := leftIn_prepend (leftIn_andThen hleft tail) es
      rw [← hrun] at hpending
      exact absurd hpending (not_leftIn_of_ok hok w)

/-- The method returns, or is left in a wait that ends when the time is over, with the first wait from the
start on. -/
theorem LoopsAtMost.waits (h : LoopsAtMost s timeout 0 run) (selects : List SelectReply) :
    (∃ result, (run selects).outcome = .ok result) ∨
      ∃ w, LeftIn (run selects) w ∧ 0 ≤ w.timeout ∧
        Time.nowTime w.start + w.timeout = Time.nowTime s.now + timeout ∧
          LeftIn (run []) ⟨s.now, timeout⟩ := by
  cases h with
  | @returns r result houtcome hnow hrun => exact .inl ⟨result, by rw [hrun, houtcome]⟩
  | loops es tail htail hrun =>
    rw [hrun, hrun, UInt64.add_zero]
    rcases checkConnectLoop_waits (Time.nowTime s.now + timeout) selects s with
      ⟨waited, hloop⟩ | ⟨w, hleft, htimeout, hend⟩
    · generalize (ISocket.checkConnectLoop (Time.nowTime s.now + timeout) selects).run () s = r at hloop
      obtain ⟨outcome, t, es'⟩ := r
      obtain rfl : outcome = .ok waited := hloop
      obtain ⟨result, es'', hreturns⟩ := htail waited t
      exact .inl ⟨result, by rw [Run.andThen_ok, hreturns]; rfl⟩
    · have hfirst := checkConnectLoop_first hleft
      rw [add_sub_cancel_left] at hfirst
      exact .inr ⟨w, leftIn_prepend (leftIn_andThen hleft tail) es, htimeout, hend,
        leftIn_prepend (leftIn_andThen hfirst tail) es⟩

end

/-- The handshake is one call, which returns. -/
theorem run_SSLManager_connect (outcome : WriteOutcome) (t : MethodState) :
    ∃ result, (SSLManager.connect outcome).run () t = ⟨.ok result, t, [.SSL_connect]⟩ := by
  unfold SSLManager.connect
  by_cases hzero : outcome.ret = 0
  · simp [hzero]
  · by_cases hnegative : outcome.ret < 0
    · simp [hzero, hnegative]
    · simp [hzero, hnegative]

/-- `TSLSocket::connect` behind a connection: it returns whatever the outcome of the wait for the handshake is,
or enters that wait. -/
theorem tslConnect_cases (timeout : Int) (handshake : WriteOutcome) (s : MethodState) (result : SocketResult)
    (t : MethodState) (es : List Syscall) :
    (∃ r, (∃ result, r.outcome = .ok result) ∧ r.state.now = t.now ∧
      ∀ script : TSLConnectScript, script.handshake = handshake →
        (ISocket.connect timeout script.toConnectScript).run () s = ⟨.ok result, t, es⟩ →
          (TSLSocket.connect timeout script).run () s = r) ∨
    ∃ type es', .SSL_connect ∈ es' ∧ ∀ script : TSLConnectScript, script.handshake = handshake →
      (ISocket.connect timeout script.toConnectScript).run () s = ⟨.ok result, t, es⟩ →
        (TSLSocket.connect timeout script).run () s =
          ((select type timeout script.handshakeSelect).run () t).prepend es' := by
  unfold TSLSocket.connect
  obtain ⟨made, hmade⟩ := run_SSLManager_connect handshake t
  by_cases hsuccess : result.isSuccess = true
  · by_cases hwants : (!made.isSuccess &&
        (made.errorCode == SSL_ERROR_WANT_WRITE || made.errorCode == SSL_ERROR_WANT_READ)) = true
    · refine .inr ⟨if made.errorCode = SSL_ERROR_WANT_WRITE then .Write else .Read, es ++ [.SSL_connect], by simp,
        fun script hhandshake hconnect => ?_⟩
      rw [Program.run_bind, hconnect, Run.andThen_ok, if_neg (by rw [hsuccess]; decide), Program.run_bind, hhandshake,
        hmade, Run.andThen_ok, if_pos hwants, Run.prepend_prepend]
    · refine .inl ⟨⟨.ok made, t, es ++ [.SSL_connect]⟩, ⟨made, rfl⟩, rfl, fun script hhandshake hconnect => ?_⟩
      rw [Program.run_bind, hconnect, Run.andThen_ok, if_neg (by rw [hsuccess]; decide), Program.run_bind, hhandshake,
        hmade, Run.andThen_ok, if_neg hwants]
      simp
  · refine .inl ⟨⟨.ok result, t, es⟩, ⟨result, rfl⟩, rfl, fun script _ hconnect => ?_⟩
    rw [Program.run_bind, hconnect, Run.andThen_ok, if_pos (by simp [hsuccess])]
    simp

/-- `connect` is that of the object's class. -/
theorem run_connectSocketObject (timeout : Int) (script : TSLConnectScript) (s : MethodState) :
    (connectSocketObject timeout script).run () s =
      match s.self.kind with
      | .PlainSocket => (ISocket.connect timeout script.toConnectScript).run () s
      | .TSLSocket => (TSLSocket.connect timeout script).run () s := by
  unfold connectSocketObject
  rw [Program.run_bind, Program.run_state, Run.andThen_ok, Run.prepend_nil]
  cases s.self.kind with
  | PlainSocket | TSLSocket => rfl

section

variable {script : TSLConnectScript} {s : MethodState} {timeout : Int} {selects : List SelectReply}

/-- Without an outcome no time has passed. -/
theorem now_connectSocketObject_nil (hdelay : script.delay = 0) :
    ((connectSocketObject timeout (script.withWaits [] none)).run () s).state.now =
      s.now := by
  have hloops := connect_loops timeout script.toConnectScript s
  rw [hdelay] at hloops
  have hnow : ((ISocket.connect timeout (script.toConnectScript.withSelects [])).run () s).state.now =
      s.now := hloops.now_nil
  rw [run_connectSocketObject]
  cases s.self.kind with
  | PlainSocket =>
    dsimp only
    exact hnow
  | TSLSocket =>
    dsimp only
    rcases hrun : (ISocket.connect timeout (script.toConnectScript.withSelects [])).run () s with
      ⟨outcome, t, es⟩
    rw [hrun] at hnow
    cases outcome with
    | error e =>
      unfold TSLSocket.connect
      rw [Program.run_bind, toConnectScript_withWaits, hrun]
      exact hnow
    | ok result =>
      rcases tslConnect_cases timeout script.handshake s result t es with
        ⟨r, -, hsame, hreturns⟩ | ⟨type, es', -, hwaits⟩
      · rw [hreturns (script.withWaits [] none) rfl hrun, hsame]
        exact hnow
      · rw [hwaits (script.withWaits [] none) rfl hrun]
        exact hnow

/-- When `connect` has returned, further outcomes do not matter. -/
theorem run_connectSocketObject_append {result : SocketResult}
    (hok : ((connectSocketObject timeout (script.withWaits selects none)).run ()
      s).outcome = .ok result) (more : List SelectReply) (reply : Option SelectReply) :
    (connectSocketObject timeout (script.withWaits (selects ++ more) reply)).run () s =
      (connectSocketObject timeout (script.withWaits selects none)).run () s := by
  have hloops := connect_loops timeout script.toConnectScript s
  rw [run_connectSocketObject] at hok
  rw [run_connectSocketObject, run_connectSocketObject]
  cases hkind : s.self.kind with
  | PlainSocket =>
    rw [hkind] at hok
    dsimp only at hok ⊢
    exact hloops.append hok more
  | TSLSocket =>
    rw [hkind] at hok
    dsimp only at hok ⊢
    rcases hrun : (ISocket.connect timeout (script.toConnectScript.withSelects selects)).run () s with
      ⟨outcome, t, es⟩
    cases outcome with
    | error e =>
      unfold TSLSocket.connect at hok
      rw [Program.run_bind, toConnectScript_withWaits, hrun] at hok
      cases hok
    | ok first =>
      have hfirst : ((ISocket.connect timeout (script.toConnectScript.withSelects selects)).run () s).outcome =
          .ok first := by rw [hrun]
      have hmore := hloops.append hfirst more
      rw [hrun] at hmore
      rcases tslConnect_cases timeout script.handshake s first t es with
        ⟨r, -, -, hreturns⟩ | ⟨type, es', -, hwaits⟩
      · rw [hreturns (script.withWaits selects none) rfl hrun,
        hreturns (script.withWaits (selects ++ more) reply) rfl hmore]
      · rw [hwaits (script.withWaits selects none) rfl hrun] at hok
        exact absurd (leftIn_prepend (leftIn_select type timeout t) es') (not_leftIn_of_ok hok _)

/-- A connection is waited for below the handshake, as well. -/
theorem leftIn_connectSocketObject {reply : Option SelectReply} {w : Wait}
    (h : LeftIn ((ISocket.connect timeout (script.toConnectScript.withSelects selects)).run () s) w) :
    LeftIn ((connectSocketObject timeout (script.withWaits selects reply)).run () s) w := by
  rw [run_connectSocketObject]
  cases s.self.kind with
  | PlainSocket => exact h
  | TSLSocket =>
    dsimp only
    unfold TSLSocket.connect
    rw [Program.run_bind]
    exact leftIn_andThen h _

/-- `connect` returns, or is left in a wait for the connection that ends when the time is over, with the first
one from the start on, or in the wait for the handshake, which is given all the time again. -/
theorem connectSocketObject_waits (timeout : Int) (s : MethodState) (hdelay : script.delay = 0)
    (selects : List SelectReply)
    (reply : Option SelectReply) :
    (∃ result, ((connectSocketObject timeout (script.withWaits selects reply)).run () s).outcome = .ok result) ∨
      ∃ w, LeftIn ((connectSocketObject timeout (script.withWaits selects reply)).run () s) w ∧
        (0 ≤ w.timeout ∧ Time.nowTime w.start + w.timeout = Time.nowTime s.now + timeout ∧
            LeftIn ((connectSocketObject timeout (script.withWaits [] none)).run () s) ⟨s.now, timeout⟩ ∨
          .SSL_connect ∈ ((connectSocketObject timeout (script.withWaits selects reply)).run () s).events ∧
            w.timeout = timeout) := by
  have hloops := connect_loops timeout script.toConnectScript s
  rw [hdelay] at hloops
  rcases hloops.waits selects with ⟨result, hok⟩ | ⟨w, hleft, htimeout, hend, hfirst⟩
  · rw [run_connectSocketObject]
    cases s.self.kind with
    | PlainSocket => exact .inl ⟨result, hok⟩
    | TSLSocket =>
      rcases hrun : (ISocket.connect timeout (script.toConnectScript.withSelects selects)).run () s with
        ⟨outcome, t, es⟩
      rw [hrun] at hok
      obtain rfl : outcome = .ok result := hok
      dsimp only
      rcases tslConnect_cases timeout script.handshake s result t es with
        ⟨r, hreturned, -, hreturns⟩ | ⟨type, es', hmem, hwaits⟩
      · rw [hreturns (script.withWaits selects reply) rfl hrun]
        exact .inl hreturned
      · rw [hwaits (script.withWaits selects reply) rfl hrun]
        cases hreply : (script.withWaits selects reply).handshakeSelect with
        | none =>
          exact .inr ⟨_, leftIn_prepend (leftIn_select type timeout t) es', .inr
            ⟨List.mem_append_left _ hmem, rfl⟩⟩
        | some reply =>
          rw [run_select_result]
          exact .inl ⟨_, rfl⟩
  · exact .inr ⟨w, leftIn_connectSocketObject hleft, .inl ⟨htimeout, hend, leftIn_connectSocketObject hfirst⟩⟩

end

/-! ### Answers to the calls of the worker -/

/-- What the system has for a call of the worker: the object the call is made on, what `connect` meets, what
`SSL_pending` returns, and the end of the wait of `canSend` or `canReceive`. -/
structure Answer where
  object : ISocket
  connect : TSLConnectScript
  pending : Int := 0
  wait : Option SelectReply

namespace Answer

/-- The method behind a call. The other calls of the worker do not wait. -/
def method (answer : Answer) : Call → Method SocketResult
  | .connect timeout => connectSocketObject timeout answer.connect
  | .canSend timeout => ISocket.canSend timeout answer.wait
  | .canReceive timeout => canReceiveSocket timeout answer.pending answer.wait
  | .parseUrl _ | .getaddrinfo _ _ _ | .newSocket _ | .send _ | .receive => pure {}

/-- The run of the method behind a call that is made at a time. -/
def run (answer : Answer) (call : Call) (now : UInt64) : Run MethodState Syscall Stop SocketResult :=
  (answer.method call).run () ⟨answer.object, now⟩

/-- The answer with the ends of the first `n` waits of `connect`, and the whole answer behind the last one. -/
def cut (answer : Answer) (n : Nat) : Answer :=
  if n ≤ answer.connect.selects.length then
    { answer with
      connect := answer.connect.withWaits (answer.connect.selects.take n) none
      wait := none }
  else answer

/-- The waits a call that is made at a time enters. -/
def Enters (answer : Answer) (call : Call) (now : UInt64) (w : Wait) : Prop :=
  ∃ n, LeftIn ((answer.cut n).run call now) w

/-- The call returns at a time. -/
def Returns (answer : Answer) (call : Call) (now next : UInt64) : Prop :=
  (∃ result, (answer.run call now).outcome = .ok result) ∧ (answer.run call now).state.now = next

/-- **Time passes in the waits of a call only**, in each of them no more than it is given. -/
structure KeepsTime (answer : Answer) (call : Call) (now : UInt64) : Prop where
  delay : answer.connect.delay = 0
  within : ∀ n w, LeftIn ((answer.cut n).run call now) w →
    w.Within ((answer.cut (n + 1)).run call now).state.now

variable {answer : Answer} {call : Call} {now : UInt64}

/-- A part of an answer and the next one: they are the same, or the first has fewer ends of waits. -/
theorem cut_succ (answer : Answer) (n : Nat) :
    answer.cut (n + 1) = answer.cut n ∨ ∃ selects more reply wait,
      answer.cut n = { answer with connect := answer.connect.withWaits selects none, wait := none } ∧
        answer.cut (n + 1) =
          { answer with connect := answer.connect.withWaits (selects ++ more) reply, wait := wait } := by
  by_cases hlast : n ≤ answer.connect.selects.length
  · refine .inr ?_
    by_cases hnext : n + 1 ≤ answer.connect.selects.length
    · refine ⟨answer.connect.selects.take n, (answer.connect.selects.drop n).take 1, none, none, ?_, ?_⟩
      · rw [cut, if_pos hlast]
      · rw [cut, if_pos hnext, ← List.take_add]
    · refine ⟨answer.connect.selects.take n, answer.connect.selects.drop n, answer.connect.handshakeSelect,
        answer.wait, ?_, ?_⟩
      · rw [cut, if_pos hlast]
      · rw [cut, if_neg hnext, List.take_append_drop]
        rfl
  · refine .inl ?_
    rw [cut, cut, if_neg hlast, if_neg (by omega)]

/-- Every part of an answer has some of the ends of waits. -/
theorem cut_eq (answer : Answer) (n : Nat) : ∃ selects reply wait,
    answer.cut n = { answer with connect := answer.connect.withWaits selects reply, wait := wait } := by
  by_cases hlast : n ≤ answer.connect.selects.length
  · exact ⟨answer.connect.selects.take n, none, none, by rw [cut, if_pos hlast]⟩
  · refine ⟨answer.connect.selects, answer.connect.handshakeSelect, answer.wait, ?_⟩
    rw [cut, if_neg hlast]
    rfl

/-- Cut in front of everything, an answer has no wait left. -/
theorem cut_zero (answer : Answer) :
    answer.cut 0 = { answer with connect := answer.connect.withWaits [] none, wait := none } := by
  rw [cut, if_pos (Nat.zero_le _), List.take_zero]

/-- A TLS socket with bytes pending does not wait. -/
theorem run_canReceiveSocket (timeout pending : Int) (reply : Option SelectReply) (s : MethodState) :
    (canReceiveSocket timeout pending reply).run () s =
      if s.self.kind = .TSLSocket ∧ 0 < pending then ⟨.ok {}, s, []⟩
      else (select .Read timeout reply).run () s := by
  unfold canReceiveSocket TSLSocket.canReceive ISocket.canReceive
  rw [Program.run_bind, Program.run_state, Run.andThen_ok, Run.prepend_nil]
  cases s.self.kind with
  | PlainSocket => rfl
  | TSLSocket =>
    by_cases hpending : 0 < pending
    · simp [hpending]
    · simp [hpending]

/-- Without the end of a wait no time passes. -/
theorem now_run_cut_zero (hdelay : answer.connect.delay = 0) :
    ((answer.cut 0).run call now).state.now = now := by
  rw [cut_zero]
  cases call with
  | connect timeout => exact now_connectSocketObject_nil hdelay
  | canReceive timeout =>
    rw [run, method, run_canReceiveSocket]
    split_ifs
    · rfl
    · rfl
  | parseUrl | getaddrinfo | newSocket | canSend | send | receive => rfl

/-- When a call has returned, more ends of waits do not matter. -/
theorem run_cut_succ {n : Nat} {result : SocketResult}
    (hok : ((answer.cut n).run call now).outcome = .ok result) :
    (answer.cut (n + 1)).run call now = (answer.cut n).run call now := by
  rcases answer.cut_succ n with h | ⟨selects, more, reply, wait, h, hsucc⟩
  · rw [h]
  rw [h] at hok
  rw [h, hsucc]
  cases call with
  | connect timeout => exact run_connectSocketObject_append hok more reply
  | canSend timeout => exact absurd (leftIn_select _ _ _) (not_leftIn_of_ok hok _)
  | canReceive timeout =>
    rw [run, method, run_canReceiveSocket] at hok
    rw [run, run, method, method, run_canReceiveSocket, run_canReceiveSocket]
    split_ifs at hok ⊢ with hpending
    · rfl
    · exact absurd (leftIn_select _ _ _) (not_leftIn_of_ok hok _)
  | parseUrl | getaddrinfo | newSocket | send | receive => rfl

/-- The calls that are given the time that is left. -/
def Gives (call : Call) (timeout : Int) : Prop :=
  call = .connect timeout ∨ call = .canSend timeout ∨ call = .canReceive timeout

/-- A call that is given time returns, or is left in a wait. A wait of `connect` behind its first one ends when
the time is over, unless it is that for the handshake. -/
theorem waits_cut (now : UInt64) (hdelay : answer.connect.delay = 0) {timeout : Int} (hcall : Gives call timeout)
    (n : Nat) :
    (∃ result, ((answer.cut n).run call now).outcome = .ok result) ∨
      ∃ w, LeftIn ((answer.cut n).run call now) w ∧
        (0 ≤ w.timeout ∧ Time.nowTime w.start + w.timeout = Time.nowTime now + timeout ∧
            LeftIn ((answer.cut 0).run call now) ⟨now, timeout⟩ ∨
          .SSL_connect ∈ ((answer.cut n).run call now).events ∧ w.timeout = timeout ∨
          w = ⟨now, timeout⟩) := by
  obtain ⟨selects, reply, wait, hcut⟩ := answer.cut_eq n
  rw [hcut, cut_zero]
  rcases hcall with rfl | rfl | rfl
  · rcases connectSocketObject_waits timeout ⟨answer.object, now⟩ hdelay selects reply with
      hok | ⟨w, hleft, hw⟩
    · exact .inl hok
    · exact .inr ⟨w, hleft, by tauto⟩
  · cases wait with
    | none => exact .inr ⟨_, leftIn_select _ _ _, .inr (.inr rfl)⟩
    | some reply => exact .inl ⟨_, by rw [run, method, ISocket.canSend, run_select_result]⟩
  · rw [run, method, run_canReceiveSocket]
    split_ifs
    · exact .inl ⟨_, rfl⟩
    · cases wait with
      | none => exact .inr ⟨_, leftIn_select _ _ _, .inr (.inr rfl)⟩
      | some reply => exact .inl ⟨_, by rw [run_select_result]⟩

/-! ### The clock -/

/-- A call whose waits are over by a time returns by that time. -/
theorem KeepsTime.run_cut_le (h : answer.KeepsTime call now) {timeout : Int} (hcall : Gives call timeout)
    {deadline : Int} (hnow : (now.toNat : Int) ≤ deadline)
    (hwaits : ∀ w, answer.Enters call now w → w.EndsBy deadline) (n : Nat) :
    now ≤ ((answer.cut n).run call now).state.now ∧
      (((answer.cut n).run call now).state.now.toNat : Int) ≤ deadline := by
  induction n with
  | zero =>
    rw [now_run_cut_zero h.delay]
    exact ⟨UInt64.le_refl _, hnow⟩
  | succ n ih =>
    rcases waits_cut now h.delay hcall n with ⟨result, hok⟩ | ⟨w, hleft, -⟩
    · rw [run_cut_succ hok]
      exact ih
    · obtain ⟨hstart, hend⟩ := h.within n w hleft
      obtain ⟨hnonneg, hby⟩ := hwaits w ⟨n, hleft⟩
      rw [hleft.start] at ih
      exact ⟨UInt64.le_trans ih.1 hstart, (hend hnonneg).trans hby⟩

/-- A call whose waits end by a deadline returns by it. -/
theorem KeepsTime.returns_le (h : answer.KeepsTime call now) {timeout : Int} (hcall : Gives call timeout)
    {deadline : Int} (hnow : (now.toNat : Int) ≤ deadline)
    (hwaits : ∀ w, answer.Enters call now w → w.EndsBy deadline) {next : UInt64}
    (hreturns : answer.Returns call now next) : now ≤ next ∧ (next.toNat : Int) ≤ deadline := by
  have hwhole : answer.cut (answer.connect.selects.length + 1) = answer := by rw [cut, if_neg (by omega)]
  have hle := h.run_cut_le hcall hnow hwaits (answer.connect.selects.length + 1)
  rwa [hwhole, hreturns.2] at hle

/-- The calls that are given no time return at once. -/
theorem run_of_not_gives (h : ∀ timeout, ¬Gives call timeout) (answer : Answer) :
    answer.run call now = ⟨.ok {}, ⟨answer.object, now⟩, []⟩ := by
  cases call with
  | connect timeout => exact absurd (.inl rfl) (h timeout)
  | canSend timeout => exact absurd (.inr (.inl rfl)) (h timeout)
  | canReceive timeout => exact absurd (.inr (.inr rfl)) (h timeout)
  | parseUrl | getaddrinfo | newSocket | send | receive => rfl

/-! ### Waits that are entered in time -/

/-- A time at which whole milliseconds have passed since another. -/
def Whole (start now : UInt64) : Prop := (1000 : Int) ∣ (now.toNat : Int) - start.toNat

instance (start now : UInt64) : Decidable (Whole start now) := inferInstanceAs (Decidable (_ ∣ _))

/-- **The waits of a call are entered when whole milliseconds have passed**, and the one for the handshake
when no time has passed since `connect` was called. -/
structure Punctual (answer : Answer) (start : UInt64) (call : Call) (now : UInt64) : Prop where
  whole : ∀ n w, LeftIn ((answer.cut n).run call now) w → Whole start w.start
  handshake : ∀ n w, LeftIn ((answer.cut n).run call now) w →
    .SSL_connect ∈ ((answer.cut n).run call now).events → w.start = now

/-- A wait that is entered when whole milliseconds have passed, and ends at a time on the clock that shows
milliseconds, ends at that time. -/
theorem endsBy_of_nowTime {start now : UInt64} {timeout : Int} {w : Wait} (hnow : Whole start now)
    (hw : Whole start w.start) (hnonneg : 0 ≤ w.timeout)
    (hend : Time.nowTime w.start + w.timeout = Time.nowTime now + timeout) :
    w.EndsBy ((now.toNat : Int) + 1000 * timeout) := by
  refine ⟨hnonneg, ?_⟩
  unfold Whole at hnow hw
  unfold Time.nowTime at hend
  rw [UInt64.toNat_div, UInt64.toNat_div] at hend
  have hthousand : UInt64.toNat 1000 = 1000 := rfl
  rw [hthousand] at hend
  omega

/-- The waits of a call that is given what is left end by the deadline. -/
theorem Punctual.endsBy {start : UInt64} (h : answer.Punctual start call now)
    (hdelay : answer.connect.delay = 0) {timeout : Int} (hcall : Gives call timeout) (hnonneg : 0 ≤ timeout)
    {deadline : Int} (hdeadline : Whole start now → (now.toNat : Int) + 1000 * timeout = deadline) {w : Wait}
    (hw : answer.Enters call now w) : w.EndsBy deadline := by
  obtain ⟨n, hleft⟩ := hw
  rcases waits_cut now hdelay hcall n with ⟨result, hok⟩ | ⟨w', hleft', hw'⟩
  · exact absurd hleft (not_leftIn_of_ok hok w)
  obtain rfl := leftIn_unique hleft hleft'
  rcases hw' with ⟨hwait, hend, hfirst⟩ | ⟨hmem, htimeout⟩ | rfl
  · have hnow := h.whole 0 _ hfirst
    exact hdeadline hnow ▸ endsBy_of_nowTime hnow (h.whole n w hleft) hwait hend
  · have hstart := h.handshake n w hleft hmem
    have hnow := h.whole n w hleft
    rw [hstart] at hnow
    refine ⟨htimeout ▸ hnonneg, ?_⟩
    rw [hstart, htimeout]
    exact (hdeadline hnow).le
  · exact ⟨hnonneg, (hdeadline (h.whole n _ hleft)).le⟩

end Answer

end HttpRequest
