import HttpRequest.Receiver.Phases

/-! # What an undisturbed run shows

A run is undisturbed when all callbacks are installed and `cancel()` is never called. Every step of
such a run is determined by the script alone. This file evaluates the steps, and reads off a run of the
receiver what the caller and the server see of it: its outcome, its callbacks and the number of its
socket reads (`transcript`, `transcript_receiver`). -/

namespace HttpRequest

open Foundations

/-! ### The steps of an undisturbed run -/

/-- All callbacks are installed and no `cancel()` has happened or will happen. -/
structure State.Undisturbed (s : State) : Prop where
  valid : s.isValid_ = true
  uncancelled : s.cancelIn = none
  handlers : s.handler_ = .all

namespace State.Undisturbed

variable {s : State} (h : s.Undisturbed) (env : Env)

include h

/-- The start of a step changes nothing. -/
theorem tick_eq : s.tick = s := by
  rw [State.tick, h.uncancelled]

/-- Nor is there anything to see of it. -/
theorem run_step : step.run env s = ⟨.ok (), s, []⟩ := by
  rw [HttpRequest.run_step, h.tick_eq, State.tickEvents, h.uncancelled]
  rfl

/-- The request is valid. -/
theorem run_loadValid : loadValid.run env s = ⟨.ok true, s, []⟩ := by
  simp [loadValid, h.run_step, h.valid]

/-- A call shows itself. -/
theorem run_callOut (call : Call) : (callOut call).run env s = ⟨.ok (), s, [.call call]⟩ := by
  simp [callOut, h.run_step]

/-- So does a call through the socket. -/
theorem run_callSocket (hs : s.socket_.isSome) (call : Call) :
    (callSocket call).run env s = ⟨.ok (), s, [.call call]⟩ := by
  obtain ⟨socket, hsocket⟩ := Option.isSome_iff_exists.mp hs
  simp [callSocket, h.run_step, hsocket]

/-- `disconnected` is seen by the caller. -/
theorem run_disconnected :
    disconnected.run env s = ⟨.ok (), { s with socket_ := none }, [.callback .onDisconnected]⟩ := by
  simp [disconnected, h.run_loadValid, h.handlers, ResponseHandler.all, invoke]

/-- An error is seen by the caller, and the end behind it. -/
theorem run_handleErrorResponse (code : ResultCode) (errorCode : Int) :
    (handleErrorResponse code errorCode).run env s =
      ⟨.ok (), { s with socket_ := none },
        [.callback (.onError code errorCode), .callback .onDisconnected]⟩ := by
  simp [handleErrorResponse, h.handlers, ResponseHandler.all, h.run_step, invoke,
    h.run_disconnected]

/-- The head is seen by the caller. -/
theorem run_responseHeader (header : ResponseHeader) :
    (responseHeader header).run env s = ⟨.ok (), s, [.callback (.onParseHeaderDone header)]⟩ := by
  simp [responseHeader, h.run_loadValid, h.handlers, ResponseHandler.all, invoke]

/-- The body's bytes are seen by the caller. -/
theorem run_responseData (data : Data) :
    (responseData data).run env s = ⟨.ok (), s, [.callback (.onData data.view)]⟩ := by
  simp [responseData, h.run_loadValid, h.handlers, ResponseHandler.all, invoke]

/-- A head is announced where there is one. -/
theorem run_announce (header : Option ResponseHeader) :
    (announce header).run env s =
      ⟨.ok (), s, header.toList.map fun header => .callback (.onParseHeaderDone header)⟩ := by
  cases header with
  | none => rfl
  | some header => exact h.run_responseHeader env header

/-- The body's bytes are delivered piece by piece. -/
theorem run_deliver (data : List Bytes) :
    (deliver data).run env s = ⟨.ok (), s, data.map fun data => .callback (.onData data)⟩ := by
  induction data with
  | nil => rfl
  | cons data rest ih => simp [deliver, h.run_responseData, ih]

/-- The clock disturbs nothing. -/
theorem setNow (now : UInt64) : State.Undisturbed { s with now := now } :=
  ⟨h.valid, h.uncancelled, h.handlers⟩

end State.Undisturbed

/-! ### Waiting for data -/

/-- How the waits of `isReceivable` end. -/
inductive Awaited
  | ready
  | failed (code : ResultCode) (errorCode : Int)
  | pending

/-- Whether a request still has time at a moment. -/
def State.timeLeft (s : State) (now : UInt64) : Bool := 0 < remainTime { s with now := now }

/-- The waits of `isReceivable`: another one follows a `Retry` as long as there is time. -/
def await (timeLeft : UInt64 → Bool) : List WaitReply → Awaited
  | [] => .pending
  | canReceive :: waits =>
    if canReceive.result.isSuccess then .ready
    else if timeLeft canReceive.now && canReceive.result.resultCode == .Retry then
      await timeLeft waits
    else .failed canReceive.result.resultCode canReceive.result.errorCode

/-- Events of which the caller sees nothing and that read nothing from the socket. -/
def Silent (events : List Event) : Prop := callbacks events = [] ∧ Call.receive ∉ calls events

/-- The callbacks of a concatenation. -/
theorem callbacks_append (es es' : List Event) :
    callbacks (es ++ es') = callbacks es ++ callbacks es' :=
  List.filterMap_append

/-- The calls of a concatenation. -/
theorem calls_append (es es' : List Event) : calls (es ++ es') = calls es ++ calls es' :=
  List.filterMap_append

/-- No events are silent. -/
theorem Silent.nil : Silent [] := ⟨rfl, List.not_mem_nil⟩

/-- The return of a call is silent. -/
theorem Silent.returned (now : UInt64) {es : List Event} (h : Silent es) :
    Silent (.returned now :: es) := h

/-- A call that does not read is silent. -/
theorem Silent.cons {call : Call} {es : List Event} (hcall : call ≠ .receive) (h : Silent es) :
    Silent (.call call :: es) := by
  refine ⟨h.1, ?_⟩
  show Call.receive ∉ call :: calls es
  rw [List.mem_cons, not_or]
  exact ⟨Ne.symm hcall, h.2⟩

/-- The run of a guard: it lets the caller go on, or it reports an error and the end, or it waits. -/
def Awaited.toRun (s : State) (es : List Event) : Awaited → Run State Event Stop Bool
  | .ready => ⟨.ok true, s, es⟩
  | .failed code errorCode =>
    ⟨.ok false, { s with socket_ := none },
      es ++ [.callback (.onError code errorCode), .callback .onDisconnected]⟩
  | .pending => ⟨.error .pending, s, es⟩

/-- Prepending to the run of a guard. -/
theorem Awaited.prepend_toRun (es es' : List Event) (s : State) (awaited : Awaited) :
    (awaited.toRun s es').prepend es = awaited.toRun s (es ++ es') := by
  cases awaited with
  | ready => rfl
  | failed code errorCode => rw [toRun, toRun, Run.prepend_mk, List.append_assoc]
  | pending => rfl

/-- The run of a guard behind some events. -/
theorem Awaited.toRun_eq (s : State) (es : List Event) (awaited : Awaited) :
    awaited.toRun s es = (awaited.toRun s []).prepend es := by
  rw [prepend_toRun, List.append_nil]

/-- `isReceivable` ends as its waits do. -/
theorem run_isReceivable (env : Env) (waits : List WaitReply) :
    ∀ s : State, s.Undisturbed → s.socket_.isSome →
      ∃ (es : List Event) (now : UInt64), Silent es ∧
        (isReceivable waits).run env s = (await s.timeLeft waits).toRun { s with now := now } es := by
  induction waits with
  | nil =>
    intro s h hs
    refine ⟨[.call (.canReceive (remainTime s))], s.now, .cons (by simp) .nil, ?_⟩
    simp [isReceivable, h.run_loadValid, getRemainTime, h.run_callSocket env hs, await,
      Awaited.toRun]
  | cons canReceive waits ih =>
    intro s h hs
    have ht := h.setNow canReceive.now
    by_cases hsuccess : canReceive.result.isSuccess = true
    · refine ⟨[.call (.canReceive (remainTime s)), .returned canReceive.now], canReceive.now,
        .cons (by simp) (.returned _ .nil), ?_⟩
      simp [isReceivable, h.run_loadValid, getRemainTime, h.run_callSocket env hs, await,
        hsuccess, Awaited.toRun]
    by_cases hretry :
        (s.timeLeft canReceive.now && canReceive.result.resultCode == .Retry) = true
    · -- the next wait starts from the time at which this one ended
      obtain ⟨es, now, hsilent, hrest⟩ := ih { s with now := canReceive.now } ht hs
      refine ⟨.call (.canReceive (remainTime s)) :: .returned canReceive.now :: es, now,
        .cons (by simp) (.returned _ hsilent), ?_⟩
      have hcond : (decide (0 < remainTime { s with now := canReceive.now }) &&
          canReceive.result.resultCode == .Retry) = true := hretry
      rw [isReceivable, await, if_neg hsuccess, if_pos hretry]
      simp only [Program.run_bind, h.run_loadValid, Run.andThen_ok, Run.prepend_nil,
        Bool.not_true, Bool.false_eq_true, if_false, getRemainTime, Program.run_state,
        Program.run_pure, h.run_callSocket env hs, run_returnAt, hsuccess,
        hcond, if_true, hrest, Awaited.prepend_toRun]
      rfl
    · refine ⟨[.call (.canReceive (remainTime s)), .returned canReceive.now], canReceive.now,
        .cons (by simp) (.returned _ .nil), ?_⟩
      have hcond : ¬ (decide (0 < remainTime { s with now := canReceive.now }) &&
          canReceive.result.resultCode == .Retry) = true := hretry
      rw [isReceivable, await, if_neg hsuccess, if_neg hretry]
      simp only [Program.run_bind, h.run_loadValid, Run.andThen_ok, Run.prepend_nil,
        Bool.not_true, Bool.false_eq_true, if_false, getRemainTime, Program.run_state,
        Program.run_pure, h.run_callSocket env hs, run_returnAt, hsuccess,
        hcond, ht.run_handleErrorResponse]
      rfl

/-! ### The transcript -/

/-- What a run shows to the caller and to the server. -/
structure Transcript where
  outcome : Except Stop Unit
  callbacks : List Callback
  receives : Nat

namespace Transcript

/-- The transcript of a run. -/
def of (r : Run State Event Stop Unit) : Transcript :=
  ⟨r.outcome, HttpRequest.callbacks r.events, (calls r.events).count .receive⟩

/-- A transcript behind callbacks and socket reads. -/
def prepend (cs : List Callback) (n : Nat) (t : Transcript) : Transcript :=
  ⟨t.outcome, cs ++ t.callbacks, n + t.receives⟩

/-- The transcript behind some events. -/
theorem of_prepend (es : List Event) (r : Run State Event Stop Unit) :
    of (r.prepend es) =
      (of r).prepend (HttpRequest.callbacks es) ((calls es).count .receive) := by
  rw [of, Run.prepend_events, callbacks_append, calls_append, List.count_append]
  rfl

/-- Silent events are not in the transcript. -/
theorem of_prepend_silent {es : List Event} (h : Silent es) (r : Run State Event Stop Unit) :
    of (r.prepend es) = of r := by
  rw [of_prepend, h.1, List.count_eq_zero.mpr h.2, prepend, List.nil_append, Nat.zero_add]

end Transcript

/-- The callbacks of a reaction in front of those of its end. -/
def Reaction.callbacks (reaction : Reaction) : List Callback :=
  reaction.header.toList.map .onParseHeaderDone ++ reaction.data.map .onData

/-- The transcript of an exit behind which `rest` follows. -/
def Exit.transcript (rest : Phase → Transcript) : Exit → Transcript
  | .more phase => rest phase
  | .finished => ⟨.ok (), [.onDisconnected], 0⟩
  | .failed code errorCode => ⟨.ok (), [.onError code errorCode, .onDisconnected], 0⟩
  | .redirected url => ⟨.error (.redirect url), [], 0⟩
  | .crashed fault => ⟨.error (.fault fault), [], 0⟩

/-- The transcript of the receiver on a script. -/
def transcript (timeLeft : UInt64 → Bool) (allowRedirect : Bool) :
    List Round → Phase → Transcript
  | [], _ => ⟨.error .pending, [], 0⟩
  | round :: rounds, phase =>
    match await timeLeft round.waits with
    | .pending => ⟨.error .pending, [], 0⟩
    | .failed code errorCode => ⟨.ok (), [.onError code errorCode, .onDisconnected], 0⟩
    | .ready =>
      let reaction := phase.react allowRedirect round.reply
      (reaction.exit.transcript (transcript timeLeft allowRedirect rounds)).prepend
        reaction.callbacks 1

/-- The marker in the place of `redirect`. -/
def handOver (url : Bytes) : Worker Unit := Program.stop (.redirect url)

/-- A pass of an undisturbed receiver, in front of what acts on the end of the reaction. -/
theorem run_receiverPass {s : State} (h : s.Undisturbed) (hs : s.socket_.isSome) (env : Env)
    (redirect : Bytes → Worker Unit) (phase : Phase) (reply : ReceiveReply) :
    (receiverPass redirect phase reply).run env s =
      (((phase.react s.info_.isAllowRedirect reply).exit.perform redirect).run env
          { s with now := reply.now }).prepend
        (.call .receive :: .returned reply.now ::
          (phase.react s.info_.isAllowRedirect reply).callbacks.map .callback) := by
  have ht := h.setNow reply.now
  simp only [receiverPass, Program.run_bind, h.run_callSocket env hs, Run.andThen_ok, run_returnAt,
    Program.run_state, Reaction.perform, ht.run_announce,
    ht.run_deliver, Run.prepend_prepend, Reaction.callbacks, List.map_append, List.map_map]
  rfl

/-- The transcript of a receiver whose waits are over. -/
theorem transcript_of_ready {rounds : List Round} {s : State} (h : s.Undisturbed)
    (hs : s.socket_.isSome) (env : Env)
    (ih : ∀ (phase : Phase) (t : State), t.Undisturbed → t.socket_.isSome →
      Transcript.of ((receiver handOver rounds phase).run env t) =
        transcript t.timeLeft t.info_.isAllowRedirect rounds phase)
    (phase : Phase) (reply : ReceiveReply) :
    Transcript.of (((receiverPass handOver phase reply).run env s).andThen fun next =>
        (match next with
          | none => pure ()
          | some phase => receiver handOver rounds phase : Worker Unit).run env) =
      ((phase.react s.info_.isAllowRedirect reply).exit.transcript
        (transcript s.timeLeft s.info_.isAllowRedirect rounds)).prepend
          (phase.react s.info_.isAllowRedirect reply).callbacks 1 := by
  have ht := h.setNow reply.now
  rw [run_receiverPass h hs, Run.prepend_andThen, Transcript.of_prepend]
  have hcallbacks : ∀ cs : List Callback,
      callbacks (.call .receive :: .returned reply.now :: cs.map .callback) = cs := by
    intro cs
    show callbacks (cs.map .callback) = cs
    rw [callbacks, List.filterMap_map]
    exact List.filterMap_some
  have hcalls : ∀ cs : List Callback,
      (calls (.call .receive :: .returned reply.now :: cs.map .callback)).count .receive = 1 := by
    intro cs
    have hnil : calls (cs.map .callback) = [] := by
      rw [calls, List.filterMap_map]
      exact List.filterMap_eq_nil_iff.mpr fun _ _ => rfl
    show (Call.receive :: calls (cs.map .callback)).count .receive = 1
    rw [hnil]
    rfl
  rw [hcallbacks, hcalls]
  congr 1
  cases (phase.react s.info_.isAllowRedirect reply).exit with
  | more phase => exact ih phase { s with now := reply.now } ht hs
  | finished =>
    rw [Exit.perform, Program.run_bind, ht.run_disconnected]
    rfl
  | failed code errorCode =>
    rw [Exit.perform, Program.run_bind, ht.run_handleErrorResponse]
    rfl
  | redirected url => rfl
  | crashed fault => rfl

/-- **The transcript of an undisturbed run of the receiver.** -/
theorem transcript_receiver (env : Env) (rounds : List Round) :
    ∀ (phase : Phase) (s : State), s.Undisturbed → s.socket_.isSome →
      Transcript.of ((receiver handOver rounds phase).run env s) =
        transcript s.timeLeft s.info_.isAllowRedirect rounds phase := by
  induction rounds with
  | nil =>
    intro phase s h hs
    obtain ⟨es, now, hsilent, hwait⟩ := run_isReceivable env [] s h hs
    rw [receiver, Program.run_bind, hwait, Awaited.toRun_eq, Run.prepend_andThen,
      Transcript.of_prepend_silent hsilent]
    rfl
  | cons round rounds ih =>
    intro phase s h hs
    obtain ⟨es, now, hsilent, hwait⟩ := run_isReceivable env round.waits s h hs
    rw [receiver, Program.run_bind, hwait, Awaited.toRun_eq, Run.prepend_andThen,
      Transcript.of_prepend_silent hsilent, transcript]
    cases await s.timeLeft round.waits with
    | pending => rfl
    | failed code errorCode => rfl
    | ready => exact transcript_of_ready (h.setNow now) hs env ih phase round.reply

/-- **The transcript of an undisturbed `receive`.** -/
theorem transcript_receive (env : Env) (rounds : List Round) {s : State} (h : s.Undisturbed)
    (hs : s.socket_.isSome) :
    Transcript.of ((receive handOver rounds).run env s) =
      transcript s.timeLeft s.info_.isAllowRedirect rounds (.head []) := by
  rw [receive_eq_receiver]
  exact transcript_receiver env rounds (.head []) s h hs

/-! ### Prompt scripts -/

/-- A pass whose first wait succeeds at once and whose read hands over a piece. -/
def Round.piece (data : Bytes) : Round := ⟨[⟨{}, 0⟩], ⟨{}, data, 0⟩⟩

/-- A pass whose first wait succeeds at once and whose read finds the connection closed. -/
def Round.closed : Round := ⟨[⟨{}, 0⟩], ⟨{ resultCode := .Disconnected }, [], 0⟩⟩

/-- A build without HTTPS, with one order of iteration. -/
def Env.plain : Env := ⟨false, .latestFirst⟩

/-- The state of a request that has connected in no time, with every callback installed. -/
def State.connected (info : RequestInfo) : State :=
  { State.initial info .all 0 none with socket_ := some ⟨.PlainSocket, .V4⟩ }

/-- A request that has connected is undisturbed. -/
theorem undisturbed_connected (info : RequestInfo) : (State.connected info).Undisturbed :=
  ⟨rfl, rfl, rfl⟩

/-- A connection that opens at once, takes a request of this many bytes and answers from a script. -/
def Connection.prompt (size : Nat) (rounds : List Round) : Connection :=
  ⟨⟨some .inet, 0, 0⟩, ⟨{}, 0, 0⟩, ⟨{}, 0⟩, [⟨{}, size, 0⟩], rounds⟩

/-- The state of a request that has accepted its URL in no time, with every callback installed. -/
def State.addressed (info : RequestInfo) : State :=
  { State.initial info .all 0 none with url_ := Url.parse info.url }

/-- A request that has accepted its URL is undisturbed. -/
theorem undisturbed_addressed (info : RequestInfo) : (State.addressed info).Undisturbed :=
  ⟨rfl, rfl, rfl⟩

/-- The header a head parses to, if it does. -/
def headerOf (head : Bytes) : ResponseHeader :=
  match parseResponseHeader head {} with
  | .ok (_, _, response) => response
  | .error _ => {}

/-- A head that announces five bytes, and one that announces nothing. -/
def sizedHead : Bytes := bytes "HTTP/1.1 200 OK\r\nContent-Length: 5\r\n\r\n"

/-- See `sizedHead`. -/
def unsizedHead : Bytes := bytes "HTTP/1.1 200 OK\r\n\r\n"

/-- A head that announces a chunked body. -/
def chunkedHead : Bytes := bytes "HTTP/1.1 200 OK\r\nTransfer-Encoding: chunked\r\n\r\n"

end HttpRequest
