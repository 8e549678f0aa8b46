import HttpRequest.Receiver.HandOver

/-! # One exchange and its callbacks

An exchange is one call of `sendRequest`, up to the point where it hands over to `redirect`
(`exchange`). What `sendRequest` does is that exchange followed by whatever `redirect` does
(`exchange_resumes`): nothing of its own comes behind the hand-over. The callbacks of an undisturbed
exchange form a word of a small grammar (`ExchangeWord`) when it returns, and are `onConnected` alone
when it hands over. -/

namespace HttpRequest

open Foundations

/-! ### What follows a hand-over -/

/-- **`sendRequest` is an exchange followed by what `redirect` does.** -/
theorem exchange_resumes (redirect : Bytes → Worker Unit) (connection : Connection) :
    Program.Resumes (followUp redirect) (exchange connection) (sendRequest redirect connection) := by
  rw [exchange, sendRequest, sendRequest]
  refine .bind_left ((Closed.openConnection _).followUp _) fun isOpen => ?_
  cases isOpen with
  | false =>
    rw [Bool.not_false, if_pos rfl, if_pos rfl]
    exact .refl ((Closed.pure _).followUp _)
  | true =>
    rw [if_neg (by decide), if_neg (by decide)]
    refine .bind_left ((Closed.send _ _).followUp _) fun sent => ?_
    cases sent with
    | false =>
      rw [Bool.not_false, if_pos rfl, if_pos rfl]
      exact .refl ((Closed.pure _).followUp _)
    | true =>
      rw [if_neg (by decide), if_neg (by decide), receive_eq_receiver, receive_eq_receiver]
      exact receiver_resumes redirect _ _

/-! ### An undisturbed exchange in front of its receiver -/

/-- A run that lets its caller go on, undisturbed and with a socket, or reports an error and the end, or
waits; the user of the library sees nothing else of it. -/
def Guards (r : Run State Event Stop Bool) : Prop :=
  ∃ (awaited : Awaited) (s : State) (es : List Event),
    Silent es ∧ s.Undisturbed ∧ (awaited = .ready → s.socket_.isSome) ∧ r = awaited.toRun s es

/-- Silent events in front change nothing. -/
theorem Guards.prepend {r : Run State Event Stop Bool} (h : Guards r) {es : List Event}
    (hes : Silent es) : Guards (r.prepend es) := by
  obtain ⟨awaited, s, es', hsilent, hs, hsocket, rfl⟩ := h
  refine ⟨awaited, s, es ++ es', ⟨?_, ?_⟩, hs, hsocket, Awaited.prepend_toRun _ _ _ _⟩
  · rw [callbacks_append, hes.1, hsilent.1, List.nil_append]
  · rw [calls_append, List.mem_append, not_or]
    exact ⟨hes.2, hsilent.2⟩

/-- A function that has gone well lets the request go on. -/
theorem Guards.ready {s : State} (h : s.Undisturbed) (hs : s.socket_.isSome) :
    Guards ⟨.ok true, s, []⟩ := ⟨.ready, s, [], .nil, h, fun _ => hs, rfl⟩

/-- An error ends the request. -/
theorem Guards.failed {s : State} (h : s.Undisturbed) (env : Env) (code : ResultCode) (errorCode : Int) :
    Guards ((do handleErrorResponse code errorCode; pure false : Worker Bool).run env s) := by
  refine ⟨.failed code errorCode, s, [], .nil, h, Awaited.noConfusion, ?_⟩
  rw [Program.run_bind, h.run_handleErrorResponse]
  rfl

/-- A function that waits for ever does not let the request go on. -/
theorem Guards.pending {s : State} (h : s.Undisturbed) : Guards ⟨.error .pending, s, []⟩ :=
  ⟨.pending, s, [], .nil, h, Awaited.noConfusion, rfl⟩

/-- Any call but a read is silent. -/
theorem Silent.call {call : Call} (h : call ≠ .receive) : Silent [.call call] := .cons h .nil

/-- So is a connect with its return. -/
theorem Silent.connect (timeout : Int) (now : UInt64) :
    Silent [.call (.connect timeout), .returned now] := .cons (by simp) (.returned _ .nil)

/-- So is a new socket. -/
theorem Silent.newSocket (socket : Socket) : Silent [.call (.newSocket socket)] := .call (by simp)

/-- The loop of `send` lets the request go on or ends it. -/
theorem guards_sendLoop (env : Env) (sends : List SendReply) :
    ∀ (dataView : Bytes) (s : State), s.Undisturbed → s.socket_.isSome →
      Guards ((sendLoop sends dataView).run env s) := by
  induction sends with
  | nil =>
    intro dataView s h hs
    rw [sendLoop, Program.run_bind, h.run_callSocket env hs, Run.andThen_ok]
    exact (Guards.pending h).prepend (.call (by simp))
  | cons reply sends ih =>
    intro dataView s h hs
    have ht := h.setNow reply.now
    rw [sendLoop, Program.run_bind, h.run_callSocket env hs, Run.andThen_ok, Program.run_bind]
    apply Guards.prepend _ (.call (by simp))
    rw [run_returnAt, Run.andThen_ok]
    apply Guards.prepend _ (.returned _ .nil)
    by_cases hsuccess : reply.result.isSuccess = true
    · rw [hsuccess, Bool.not_true, if_neg Bool.false_ne_true]
      dsimp only
      -- the rest of the data is offered again, unless nothing is left of it
      by_cases hsize : (reply.sendSize % 2 ^ 64).toNat < dataView.length
      · rw [if_pos hsize, substrFrom_of_le hsize.le, throwing_ok, pure_bind]
        by_cases hempty : (!(dataView.drop (reply.sendSize % 2 ^ 64).toNat).isEmpty) = true
        · rw [if_pos hempty]
          exact ih _ _ ht hs
        · rw [if_neg hempty]
          exact Guards.ready ht hs
      · rw [if_neg hsize]
        exact Guards.ready ht hs
    · rw [Bool.not_eq_true] at hsuccess
      rw [hsuccess, Bool.not_false, if_pos rfl]
      exact Guards.failed ht env _ _

/-- So does `send`. -/
theorem guards_send (env : Env) (canSend : WaitReply) (sends : List SendReply) {s : State}
    (h : s.Undisturbed) (hs : s.socket_.isSome) : Guards ((send canSend sends).run env s) := by
  have ht := h.setNow canSend.now
  rw [send, getRemainTime, bind_assoc, Program.run_bind, Program.run_state, Run.andThen_ok,
    Run.prepend_nil, pure_bind, Program.run_bind, h.run_callSocket env hs, Run.andThen_ok]
  apply Guards.prepend _ (.call (by simp))
  rw [Program.run_bind, run_returnAt, Run.andThen_ok]
  apply Guards.prepend _ (.returned _ .nil)
  by_cases hsuccess : canSend.result.isSuccess = true
  · rw [hsuccess, Bool.not_true, if_neg Bool.false_ne_true]
    exact guards_sendLoop env sends _ _ ⟨h.valid, h.uncancelled, h.handlers⟩ hs
  · rw [Bool.not_eq_true] at hsuccess
    rw [hsuccess, Bool.not_false, if_pos rfl]
    exact Guards.failed ht env _ _

/-- `onConnected` behind a guard that lets its caller go on. -/
def thenConnected (r : Run State Event Stop Bool) : Run State Event Stop Bool :=
  r.andThen fun isOpen s => ⟨.ok isOpen, s, if isOpen then [.callback .onConnected] else []⟩

/-- What happens in front of a connect happens in front of what follows it. -/
theorem thenConnected_prepend (es : List Event) (r : Run State Event Stop Bool) :
    thenConnected (r.prepend es) = (thenConnected r).prepend es := Run.prepend_andThen _ _ _

/-- `connectSocket` lets the request go on or ends it, in front of its callback. -/
theorem run_connectSocket (env : Env) (connection : Connection) {s : State} (h : s.Undisturbed)
    (hs : s.socket_.isSome) :
    ∃ r, Guards r ∧ (connectSocket connection).run env s = thenConnected r := by
  rw [connectSocket, getRemainTime, bind_assoc, Program.run_bind, Program.run_state, Run.andThen_ok,
    Run.prepend_nil, pure_bind]
  -- no time is left for the connection
  by_cases htime : remainTime s ≤ 0
  · rw [if_pos htime]
    refine ⟨_, Guards.failed h env .Timeout connection.lookup.errno, ?_⟩
    rw [Program.run_bind, h.run_handleErrorResponse]
    rfl
  have ht := h.setNow connection.connect.now
  rw [if_neg htime, Program.run_bind, h.run_callSocket env hs, Run.andThen_ok, Program.run_bind,
    run_returnAt, Run.andThen_ok]
  by_cases hsuccess : connection.connect.result.isSuccess = true
  · refine ⟨_, (Guards.ready ht hs).prepend (Silent.connect (remainTime s) connection.connect.now), ?_⟩
    have hinstalled : s.handler_.onConnected = true := by rw [h.handlers]; rfl
    dsimp only
    rw [hsuccess, Bool.not_true, if_neg Bool.false_ne_true, Program.run_bind, Program.run_state,
      Run.andThen_ok, Run.prepend_nil]
    dsimp only
    rw [if_pos hinstalled, Program.run_bind, ht.run_step, Run.andThen_ok]
    rfl
  · rw [Bool.not_eq_true] at hsuccess
    refine ⟨_, (Guards.failed ht env connection.connect.result.resultCode
      connection.connect.errno).prepend (Silent.connect (remainTime s) connection.connect.now), ?_⟩
    dsimp only
    rw [hsuccess, Bool.not_false, if_pos rfl, Program.run_bind, ht.run_handleErrorResponse]
    rfl

/-- A new socket is stored. -/
theorem run_storeSocket (env : Env) (socket : Socket) (s : State) :
    (storeSocket (some socket)).run env s =
      ⟨.ok (), { s with socket_ := some socket }, [.call (.newSocket socket)]⟩ := rfl

/-- `openConnection` lets the request go on or ends it, in front of its callback. -/
theorem run_openConnection (env : Env) (connection : Connection) {s : State} (h : s.Undisturbed)
    (hurl : s.url_.isHttpScheme env.enableHttps = true) :
    ∃ r, Guards r ∧ (openConnection connection).run env s = thenConnected r := by
  have ht := h.setNow connection.lookup.now
  have hsilent : Silent
      [.call (.getaddrinfo (cString s.url_.host) (cString s.url_.port) s.info_.ipVersion),
        .returned connection.lookup.now] := .cons (by simp) (.returned _ .nil)
  rw [openConnection, Program.run_bind, Program.run_read, Run.andThen_ok, Run.prepend_nil,
    Program.run_bind, Program.run_state, Run.andThen_ok, Run.prepend_nil, Program.run_bind,
    h.run_callOut, Run.andThen_ok, Program.run_bind, run_returnAt, Run.andThen_ok]
  cases connection.lookup.family with
  | none =>
    refine ⟨_, (Guards.failed ht env .GetAddressFailed connection.lookup.errno).prepend hsilent, ?_⟩
    rw [thenConnected_prepend, Program.run_bind, ht.run_handleErrorResponse]
    rfl
  | some family =>
    dsimp only
    -- the version chosen plays no part in what follows
    generalize (if s.info_.ipVersion = .Auto then (if family = .inet then IPVersion.V4 else .V6)
      else s.info_.ipVersion) = ipVersion
    obtain ⟨socket, hsocket⟩ :=
      Option.isSome_iff_exists.mp (createSocket_isSome hurl ipVersion)
    rw [hsocket, Program.run_bind, run_storeSocket, Run.andThen_ok]
    obtain ⟨r, hr, hrun⟩ := run_connectSocket env connection
      (s := { s with now := connection.lookup.now, socket_ := some socket })
      ⟨h.valid, h.uncancelled, h.handlers⟩ rfl
    refine ⟨_, (hr.prepend (Silent.newSocket socket)).prepend hsilent, ?_⟩
    rw [hrun, thenConnected_prepend, thenConnected_prepend]
    rfl

/-! ### The grammar of callbacks -/

/-- `onError? onDisconnected`. -/
inductive EndWord : List Callback → Prop
  | disconnected : EndWord [.onDisconnected]
  | error (code : ResultCode) (errorCode : Int) : EndWord [.onError code errorCode, .onDisconnected]

/-- `onData* onError? onDisconnected`. -/
inductive BodyWord : List Callback → Prop
  | finish {cs : List Callback} : EndWord cs → BodyWord cs
  | data (data : Bytes) {cs : List Callback} : BodyWord cs → BodyWord (.onData data :: cs)

/-- `(onParseHeaderDone onData*)? onError? onDisconnected`. -/
inductive HeadWord : List Callback → Prop
  | finish {cs : List Callback} : EndWord cs → HeadWord cs
  | header (header : ResponseHeader) {cs : List Callback} :
    BodyWord cs → HeadWord (.onParseHeaderDone header :: cs)

/-- `onConnected? (onParseHeaderDone onData*)? onError? onDisconnected`. -/
inductive ExchangeWord : List Callback → Prop
  | unconnected {cs : List Callback} : HeadWord cs → ExchangeWord cs
  | connected {cs : List Callback} : HeadWord cs → ExchangeWord (.onConnected :: cs)

/-- Data in front of the rest of a body. -/
theorem BodyWord.append (data : List Bytes) {cs : List Callback} (h : BodyWord cs) :
    BodyWord (data.map .onData ++ cs) := by
  induction data with
  | nil => exact h
  | cons data rest ih => exact .data data ih

/-- The words of a receiver in a phase. -/
def Phase.Word : Phase → List Callback → Prop
  | .head _ => HeadWord
  | .plain _ _ => BodyWord
  | .chunked _ => BodyWord

/-- An end may come in every phase. -/
theorem Phase.word_of_endWord {phase : Phase} {cs : List Callback} (h : EndWord cs) :
    phase.Word cs := by
  cases phase with
  | head buffer => exact .finish h
  | plain contentLength recvLength => exact .finish h
  | chunked chunkSize => exact .finish h

/-- The transcript of a receiver in a phase: a word if it returns, and only in front of a head, without
any callback, handed over. -/
structure Phase.Follows (phase : Phase) (t : Transcript) : Prop where
  returned : t.outcome = .ok () → phase.Word t.callbacks
  handedOver : ∀ url, t.outcome = .error (.redirect url) →
    (∃ buffer, phase = .head buffer) ∧ t.callbacks = []

/-- Behind the head, data and an exit start the rest of a body. -/
theorem Exit.Behind.follows {exit : Exit} (h : exit.Behind) {rest : Phase → Transcript}
    (hrest : ∀ phase : Phase, phase.Follows (rest phase)) (data : List Bytes) :
    ((exit.transcript rest).outcome = .ok () →
        BodyWord (data.map .onData ++ (exit.transcript rest).callbacks)) ∧
      ∀ url, (exit.transcript rest).outcome ≠ .error (.redirect url) := by
  cases exit with
  | more phase =>
    cases phase with
    | head buffer => exact absurd h id
    | plain contentLength recvLength =>
      refine ⟨fun hok => .append data ((hrest _).returned hok), fun url hurl => ?_⟩
      obtain ⟨⟨buffer, hbuffer⟩, -⟩ := (hrest _).handedOver url hurl
      cases hbuffer
    | chunked chunkSize =>
      refine ⟨fun hok => .append data ((hrest _).returned hok), fun url hurl => ?_⟩
      obtain ⟨⟨buffer, hbuffer⟩, -⟩ := (hrest _).handedOver url hurl
      cases hbuffer
  | finished =>
    exact ⟨fun _ => .append data (.finish .disconnected), fun _ hurl => by cases hurl⟩
  | failed code errorCode =>
    exact ⟨fun _ => .append data (.finish (.error code errorCode)), fun _ hurl => by cases hurl⟩
  | redirected url => exact absurd h id
  | crashed fault => exact ⟨fun hok => (by cases hok), fun _ hurl => by cases hurl⟩

/-- In front of the head an exit adds no callback of its own unless it is the last. -/
theorem Exit.InFront.follows {exit : Exit} (h : exit.InFront) {rest : Phase → Transcript}
    (hrest : ∀ phase : Phase, phase.Follows (rest phase)) (buffer : Bytes) :
    (Phase.head buffer).Follows ((exit.transcript rest).prepend [] 1) := by
  cases exit with
  | more phase =>
    cases phase with
    | head buffer' =>
      exact ⟨(hrest _).returned, fun url hurl => ⟨⟨_, rfl⟩, ((hrest _).handedOver url hurl).2⟩⟩
    | plain contentLength recvLength => exact absurd h id
    | chunked chunkSize => exact absurd h id
  | finished => exact ⟨fun _ => .finish .disconnected, fun _ hurl => by cases hurl⟩
  | failed code errorCode =>
    exact ⟨fun _ => .finish (.error code errorCode), fun _ hurl => by cases hurl⟩
  | redirected url => exact ⟨fun hok => (by cases hok), fun _ _ => ⟨⟨_, rfl⟩, rfl⟩⟩
  | crashed fault => exact ⟨fun hok => (by cases hok), fun _ hurl => by cases hurl⟩

/-- **The callbacks of a receiver are a word of its phase.** -/
theorem transcript_follows (timeLeft : UInt64 → Bool) (allowRedirect : Bool) (rounds : List Round) :
    ∀ phase : Phase, phase.Follows (transcript timeLeft allowRedirect rounds phase) := by
  induction rounds with
  | nil => exact fun phase => ⟨fun hok => (by cases hok), fun _ hurl => by cases hurl⟩
  | cons round rounds ih =>
    intro phase
    rw [transcript]
    cases await timeLeft round.waits with
    | pending => exact ⟨fun hok => (by cases hok), fun _ hurl => by cases hurl⟩
    | failed code errorCode =>
      exact ⟨fun _ => Phase.word_of_endWord (.error code errorCode), fun _ hurl => by cases hurl⟩
    | ready =>
      dsimp only
      -- either the head is still being read, or the body is
      by_cases hphase : ∃ buffer, phase = .head buffer
      · obtain ⟨buffer, rfl⟩ := hphase
        rcases react_head_cases allowRedirect buffer round.reply with
          ⟨exit, hreact, hexit⟩ | ⟨header, data, exit, hreact, hexit⟩
        · rw [hreact]
          exact hexit.follows ih buffer
        · rw [hreact]
          obtain ⟨hword, hopen⟩ := hexit.follows ih data
          exact ⟨fun hok => .header header (hword hok), fun url hurl => absurd hurl (hopen url)⟩
      · rw [not_exists] at hphase
        obtain ⟨data, exit, hreact, hexit⟩ := react_behind hphase allowRedirect round.reply
        rw [hreact]
        obtain ⟨hword, hopen⟩ := hexit.follows ih data
        refine ⟨fun hok => ?_, fun url hurl => absurd hurl (hopen url)⟩
        cases phase with
        | head buffer => exact absurd rfl (hphase buffer)
        | plain contentLength recvLength => exact hword hok
        | chunked chunkSize => exact hword hok

/-! ### The words of an exchange -/

/-- Silent events add no callback. -/
theorem callbacks_silent_append {es : List Event} (h : Silent es) (es' : List Event) :
    callbacks (es ++ es') = callbacks es' := by
  rw [callbacks_append, h.1, List.nil_append]

/-- What the user sees of a sequence that starts with a guard: the guard's error, or what follows. -/
theorem Guards.andThen {r : Run State Event Stop Bool} (h : Guards r)
    {f : Bool → State → Run State Event Stop Unit} (hf : ∀ s, f false s = ⟨.ok (), s, []⟩) :
    (∃ code errorCode, (r.andThen f).outcome = .ok () ∧
        callbacks (r.andThen f).events = [.onError code errorCode, .onDisconnected]) ∨
      (r.andThen f).outcome = .error .pending ∨
      ∃ s : State, s.Undisturbed ∧ s.socket_.isSome ∧
        (r.andThen f).outcome = (f true s).outcome ∧
        callbacks (r.andThen f).events = callbacks (f true s).events := by
  obtain ⟨awaited, s, es, hsilent, hs, hsocket, rfl⟩ := h
  cases awaited with
  | failed code errorCode =>
    refine .inl ⟨code, errorCode, ?_⟩
    rw [Awaited.toRun, Run.andThen_ok, hf]
    refine ⟨rfl, ?_⟩
    rw [Run.prepend_mk, List.append_nil, callbacks_silent_append hsilent]
    rfl
  | pending => exact .inr (.inl rfl)
  | ready =>
    exact .inr (.inr ⟨s, hs, hsocket rfl, rfl, callbacks_silent_append hsilent _⟩)

/-- The words of what follows an open connection. -/
theorem words_send (env : Env) (connection : Connection) {s : State} (h : s.Undisturbed)
    (hs : s.socket_.isSome) :
    let x := (do
      let sent ← send connection.canSend connection.sends
      if !sent then pure () else receive handOver connection.rounds : Worker Unit).run env s
    (x.outcome = .ok () → HeadWord (callbacks x.events)) ∧
      ∀ url, x.outcome = .error (.redirect url) → callbacks x.events = [] := by
  intro x
  -- sending has failed, waits, or has offered everything
  rcases (guards_send env connection.canSend connection.sends h hs).andThen
      (f := fun sent => (if !sent then pure () else
        receive handOver connection.rounds : Worker Unit).run env) (fun _ => rfl) with
    ⟨code, errorCode, hok, hcallbacks⟩ | hpending | ⟨t, ht, htsocket, houtcome, hcallbacks⟩
  · refine ⟨fun _ => ?_, fun url hurl => ?_⟩
    · exact hcallbacks ▸ .finish (.error code errorCode)
    · exact absurd (hurl.symm.trans hok) (by simp)
  · exact ⟨fun hok => absurd (hok.symm.trans hpending) (by simp),
      fun url hurl => absurd (hurl.symm.trans hpending) (by simp)⟩
  · have htranscript := transcript_receive env connection.rounds ht htsocket
    have hfollows := transcript_follows t.timeLeft t.info_.isAllowRedirect connection.rounds (.head [])
    rw [← htranscript] at hfollows
    rw [Bool.not_true, if_neg Bool.false_ne_true] at houtcome hcallbacks
    refine ⟨fun hok => ?_, fun url hurl => ?_⟩
    · exact hcallbacks ▸ hfollows.returned (houtcome.symm.trans hok)
    · exact hcallbacks.trans (hfollows.handedOver url (houtcome.symm.trans hurl)).2

/-- What `sendRequest` does, in terms of its exchange. -/
theorem run_sendRequest (redirect : Bytes → Worker Unit) (connection : Connection) (env : Env)
    (s : State) :
    let x := (exchange connection).run env s
    (∀ url, x.outcome = .error (.redirect url) →
        (sendRequest redirect connection).run env s =
          ((redirect url).run env x.state).prepend x.events) ∧
      ((∀ url, x.outcome ≠ .error (.redirect url)) →
        (sendRequest redirect connection).run env s = x) := by
  intro x
  have hresume := exchange_resumes redirect connection
  refine ⟨fun url hurl => hresume.run_of_some hurl rfl, fun hno => hresume.run_of_none ?_⟩
  intro stop hstop
  cases stop with
  | redirect url => exact absurd hstop (hno url)
  | fault f => rfl
  | pending => rfl

/-- **The callbacks of an exchange.** An undisturbed exchange over an accepted URL makes a word of
`onConnected? (onParseHeaderDone onData*)? onError? onDisconnected` if it returns, and `onConnected`
alone if it hands over to `redirect`; behind the hand-over `sendRequest` makes no callback of its
own. -/
theorem callbacks_exchange (env : Env) (connection : Connection) (s : State) (h : s.Undisturbed)
    (hurl : s.url_.isHttpScheme env.enableHttps = true) :
    let x := (exchange connection).run env s
    (x.outcome = .ok () → ExchangeWord (callbacks x.events)) ∧
      (∀ url, x.outcome = .error (.redirect url) → callbacks x.events = [.onConnected]) ∧
      ∀ redirect : Bytes → Worker Unit,
        (∀ url, x.outcome = .error (.redirect url) →
          (sendRequest redirect connection).run env s =
            ((redirect url).run env x.state).prepend x.events) ∧
        ((∀ url, x.outcome ≠ .error (.redirect url)) →
          (sendRequest redirect connection).run env s = x) := by
  intro x
  obtain ⟨r, hr, hrun⟩ := run_openConnection env connection h hurl
  -- the exchange is the guard, `onConnected`, and what follows an open connection
  have hx : x = r.andThen fun isOpen t =>
      ((if !isOpen then pure ()
        else do
          let sent ← send connection.canSend connection.sends
          if !sent then pure () else receive handOver connection.rounds : Worker Unit).run env
            t).prepend (if isOpen then [.callback .onConnected] else []) := by
    show (sendRequest handOver connection).run env s = _
    rw [sendRequest, Program.run_bind, hrun, thenConnected, Run.andThen_assoc]
    rfl
  rcases hr.andThen (f := fun isOpen t =>
      ((if !isOpen then pure ()
        else do
          let sent ← send connection.canSend connection.sends
          if !sent then pure () else receive handOver connection.rounds : Worker Unit).run env
            t).prepend (if isOpen then [.callback .onConnected] else [])) (fun _ => rfl) with
    ⟨code, errorCode, hok, hcallbacks⟩ | hpending | ⟨t, ht, htsocket, houtcome, hcallbacks⟩
  · rw [← hx] at hok hcallbacks
    refine ⟨fun _ => ?_, fun url hurl => ?_, fun redirect => run_sendRequest redirect connection env s⟩
    · exact hcallbacks ▸ .unconnected (.finish (.error code errorCode))
    · exact absurd (hurl.symm.trans hok) (by simp)
  · rw [← hx] at hpending
    exact ⟨fun hok => absurd (hok.symm.trans hpending) (by simp),
      fun url hurl => absurd (hurl.symm.trans hpending) (by simp),
      fun redirect => run_sendRequest redirect connection env s⟩
  · rw [← hx] at houtcome hcallbacks
    obtain ⟨hword, hopen⟩ := words_send env connection ht htsocket
    refine ⟨fun hok => ?_, fun url hurl => ?_, fun redirect => run_sendRequest redirect connection env s⟩
    · exact hcallbacks ▸ .connected (hword (houtcome.symm.trans hok))
    · rw [hcallbacks]
      exact congrArg (.onConnected :: ·) (hopen url (houtcome.symm.trans hurl))

/-- A request of 27 bytes that is answered without a body. -/
theorem callbacks_exchange_empty :
    ExchangeWord (callbacks ((exchange (.prompt 27
      [.piece (bytes "HTTP/1.1 200 OK\r\n\r\n"), .closed])).run .plain
        (.addressed { url := bytes "http://a/", methodType := .Get })).events) :=
  (callbacks_exchange .plain _ _ (undisturbed_addressed _) (by rfl)).1 (by rfl)

end HttpRequest
