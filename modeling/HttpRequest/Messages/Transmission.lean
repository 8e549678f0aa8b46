import HttpRequest.Lifecycle.Silence
import HttpRequest.Messages.RequestFraming

/-! # The transmission of a request

`Request::send` offers the bytes of the request to the socket, and behind every call those it has not taken.
Whatever part of them every call takes, and wherever one fails, what has been taken is at every moment a
prefix of the request (`transmits_send`). -/

namespace HttpRequest

open Foundations

/-! ### What is offered and what is taken -/

/-- The bytes offered to the socket, call by call. -/
def offered (events : List Event) : List Bytes :=
  (calls events).filterMap fun
    | .send data => some data
    | _ => none

/-- The errors reported. -/
def errors (events : List Event) : List (ResultCode × Int) :=
  (callbacks events).filterMap fun
    | .onError code errorCode => some (code, errorCode)
    | _ => none

/-- What the transport has taken of the bytes offered in a call. -/
def SendReply.taken (reply : SendReply) (data : Bytes) : Bytes :=
  if reply.result.isSuccess then data.take reply.sendSize.toNat else []

/-- What the transport has taken, call by call. -/
def taken (datas : List Bytes) (sends : List SendReply) : List Bytes :=
  List.zipWith (fun data reply => reply.taken data) datas sends

/-- Every call that succeeds takes some of the bytes offered in it. -/
def TakesSome (datas : List Bytes) (sends : List SendReply) : Prop :=
  ∀ call ∈ datas.zip sends, call.2.result.isSuccess = true →
    0 < call.2.sendSize ∧ call.2.sendSize ≤ call.1.length ∧ call.2.sendSize < 2 ^ 63

/-- **A run that transmits a request**, as far as the transport takes it. -/
structure Transmits (data : Bytes) (onError : Bool) (sends : List SendReply)
    (r : Run State Event Stop Bool) : Prop where
  /-- At every moment a prefix has been taken. -/
  prefixes : ∀ n, ((taken (offered r.events) sends).take n).flatten <+: data
  /-- The result is `true` exactly when everything has. -/
  sent : r.outcome = .ok true ↔ (taken (offered r.events) sends).flatten = data
  /-- The result is `false` when an error has been reported, once. -/
  failed : r.outcome = .ok false → ∃ result : SocketResult, result.isSuccess = false ∧
    errors r.events = if onError then [(result.resultCode, result.errorCode)] else []
  quiet : r.outcome ≠ .ok false → errors r.events = []
  /-- A call that fails is the last. -/
  last : ∀ front reply rest, sends = front ++ reply :: rest → reply.result.isSuccess = false →
    (offered r.events).length ≤ front.length + 1
  /-- There are no more calls than bytes, so that as many answers are enough. -/
  calls : (offered r.events).length ≤ data.length
  ends : data.length ≤ sends.length → ∃ sent, r.outcome = .ok sent

/-- What is offered in a concatenation. -/
theorem offered_append (es es' : List Event) : offered (es ++ es') = offered es ++ offered es' := by
  rw [offered, calls_append, List.filterMap_append]
  rfl

/-- The errors reported in a concatenation. -/
theorem errors_append (es es' : List Event) : errors (es ++ es') = errors es ++ errors es' := by
  rw [errors, callbacks_append, List.filterMap_append]
  rfl

/-- The start of a step offers nothing. -/
@[simp] theorem State.offered_tickEvents (s : State) : offered s.tickEvents = [] := by
  unfold State.tickEvents
  split <;> rfl

/-- The start of a step makes no callback. -/
@[simp] theorem State.callbacks_tickEvents (s : State) : callbacks s.tickEvents = [] := by
  unfold State.tickEvents
  split <;> rfl

/-- The start of a step reports no error. -/
@[simp] theorem State.errors_tickEvents (s : State) : errors s.tickEvents = [] := by
  rw [errors, s.callbacks_tickEvents, List.filterMap_nil]

/-! ### Reporting an error -/

/-- The end of a request offers no bytes and reports no error. -/
theorem run_disconnected_silent (env : Env) (s : State) :
    ∃ t es, disconnected.run env s = ⟨.ok (), t, es⟩ ∧ offered es = [] ∧ errors es = [] := by
  unfold disconnected loadValid
  rw [bind_assoc, Program.run_bind, run_step, Run.andThen_ok]
  simp only [Program.run_bind, Program.run_state, Program.run_pure, Run.andThen_ok, Run.prepend_mk]
  split
  · refine ⟨{ s.tick with socket_ := none }, s.tickEvents ++ [.callback .onDisconnected], rfl, ?_, ?_⟩
    · rw [offered_append, s.offered_tickEvents]
      rfl
    · rw [errors_append, s.errors_tickEvents]
      rfl
  · exact ⟨s.tick, s.tickEvents, by simp, s.offered_tickEvents, s.errors_tickEvents⟩

/-- An error is reported once, if `onError` is installed. -/
theorem run_handleErrorResponse_once (env : Env) (s : State) (code : ResultCode) (errorCode : Int) :
    ∃ t es, (handleErrorResponse code errorCode).run env s = ⟨.ok (), t, es⟩ ∧ offered es = [] ∧
      errors es = if s.handler_.onError then [(code, errorCode)] else [] := by
  by_cases h : s.handler_.onError = true
  · obtain ⟨t, es, hrun, hoffered, herrors⟩ := run_disconnected_silent env s.tick
    refine ⟨t, s.tickEvents ++ [.callback (.onError code errorCode)] ++ es, ?_, ?_, ?_⟩
    · rw [run_handleErrorResponse_of_onError env h, hrun]
      rfl
    · rw [offered_append, offered_append, s.offered_tickEvents, hoffered]
      rfl
    · rw [errors_append, errors_append, s.errors_tickEvents, herrors, if_pos h]
      rfl
  · obtain ⟨t, es, hrun, hoffered, herrors⟩ := run_disconnected_silent env s
    refine ⟨t, es, ?_, hoffered, by rw [herrors, if_neg h]⟩
    unfold handleErrorResponse
    rw [Program.run_bind, Program.run_state, Run.andThen_ok, if_neg h]
    exact hrun

/-! ### The loop -/

/-- The events of a call that sends. -/
def sendEvents (s : State) (data : Bytes) (now : UInt64) : List Event :=
  s.tickEvents ++ [.call (.send data), .returned now]

/-- A call that sends offers its bytes. -/
@[simp] theorem offered_sendEvents (s : State) (data : Bytes) (now : UInt64) :
    offered (sendEvents s data now) = [data] := by
  rw [sendEvents, offered_append, s.offered_tickEvents]
  rfl

/-- A call that sends makes no callback. -/
@[simp] theorem callbacks_sendEvents (s : State) (data : Bytes) (now : UInt64) :
    callbacks (sendEvents s data now) = [] := by
  rw [sendEvents, callbacks_append, s.callbacks_tickEvents]
  rfl

/-- A call that sends reports no error. -/
@[simp] theorem errors_sendEvents (s : State) (data : Bytes) (now : UInt64) :
    errors (sendEvents s data now) = [] := by
  rw [errors, callbacks_sendEvents, List.filterMap_nil]

section

variable {s : State} (hs : s.socket_ ≠ none) (env : Env)

include hs

/-- Without replies the loop waits in its first call. -/
theorem run_sendLoop_nil (data : Bytes) : (sendLoop [] data).run env s =
    ⟨.error .pending, s.tick, s.tickEvents ++ [.call (.send data)]⟩ := by
  rw [sendLoop, Program.run_bind, run_callSocket_of_ne_none env hs, Run.andThen_ok, Program.run_stop,
    Run.prepend_mk, List.append_nil]

/-- What the loop does behind a call that has returned. -/
theorem run_sendLoop_cons (reply : SendReply) (sends : List SendReply) (data : Bytes) :
    (sendLoop (reply :: sends) data).run env s =
      ((if !reply.result.isSuccess then do
          handleErrorResponse reply.result.resultCode reply.result.errorCode
          pure false
        else
          let sendSize := (reply.sendSize % 2 ^ 64).toNat
          if sendSize < data.length then do
            let dataView ← throwing (substrFrom data sendSize)
            if !dataView.isEmpty then sendLoop sends dataView else pure true
          else pure true : Worker Bool).run env { s.tick with now := reply.now }).prepend
        (sendEvents s data reply.now) := by
  rw [sendLoop, Program.run_bind, run_callSocket_of_ne_none env hs, Run.andThen_ok, Program.run_bind,
    run_returnAt, Run.andThen_ok, Run.prepend_prepend, List.append_assoc]
  rfl

/-- A call that has taken some of the bytes. -/
theorem run_sendLoop_progress {reply : SendReply} (hsuccess : reply.result.isSuccess = true)
    (hpos : 0 < reply.sendSize) (hlt : reply.sendSize < 2 ^ 63) (sends : List SendReply) (data : Bytes) :
    (sendLoop (reply :: sends) data).run env s =
      ((if reply.sendSize.toNat < data.length then sendLoop sends (data.drop reply.sendSize.toNat)
        else pure true : Worker Bool).run env { s.tick with now := reply.now }).prepend
          (sendEvents s data reply.now) := by
  have hsize : (reply.sendSize % 2 ^ 64).toNat = reply.sendSize.toNat := by omega
  rw [run_sendLoop_cons hs, hsuccess, if_neg (by decide)]
  dsimp only
  rw [hsize]
  by_cases hmore : reply.sendSize.toNat < data.length
  · have hsome : ¬data.drop reply.sendSize.toNat = [] := by
      rw [List.drop_eq_nil_iff]
      omega
    rw [if_pos hmore, if_pos hmore, substrFrom_of_le hmore.le, throwing_ok, pure_bind,
      if_pos (by simpa using hsome)]
  · rw [if_neg hmore, if_neg hmore]

/-- A call that has failed. -/
theorem run_sendLoop_failed {reply : SendReply} (hfailed : reply.result.isSuccess = false)
    (sends : List SendReply) (data : Bytes) :
    ∃ t es, (sendLoop (reply :: sends) data).run env s = ⟨.ok false, t, sendEvents s data reply.now ++ es⟩ ∧
      offered es = [] ∧
      errors es = if s.handler_.onError then [(reply.result.resultCode, reply.result.errorCode)] else [] := by
  obtain ⟨t, es, hrun, hoffered, herrors⟩ := run_handleErrorResponse_once env
    { s.tick with now := reply.now } reply.result.resultCode reply.result.errorCode
  refine ⟨t, es, ?_, hoffered, ?_⟩
  · rw [run_sendLoop_cons hs, hfailed, if_pos (by rfl), Program.run_bind, hrun]
    simp
  · rw [herrors]
    dsimp only
    rw [s.tick_handler_]

end

/-- What is transmitted behind a call that has taken some of the bytes. -/
theorem Transmits.behind {data : Bytes} {onError : Bool} {sends : List SendReply} {reply : SendReply}
    {r : Run State Event Stop Bool} {s : State}
    (h : Transmits (data.drop reply.sendSize.toNat) onError sends r)
    (hsuccess : reply.result.isSuccess = true) (hpos : 0 < reply.sendSize)
    (hmore : reply.sendSize.toNat < data.length) :
    Transmits data onError (reply :: sends) (r.prepend (sendEvents s data reply.now)) := by
  have hoffered : offered (sendEvents s data reply.now ++ r.events) = data :: offered r.events := by
    rw [offered_append, offered_sendEvents]
    rfl
  have htaken : taken (data :: offered r.events) (reply :: sends) =
      data.take reply.sendSize.toNat :: taken (offered r.events) sends := by
    simp [taken, SendReply.taken, hsuccess]
  have herrors : errors (sendEvents s data reply.now ++ r.events) = errors r.events := by
    rw [errors_append, errors_sendEvents]
    rfl
  have hcalls := h.calls
  rw [List.length_drop] at hcalls
  refine ⟨fun n => ?_, ?_, fun hfailed => ?_, fun hreturned => ?_, fun front failing rest heq hfailing => ?_,
    ?_, fun hlength => ?_⟩
  · rw [Run.prepend_events, hoffered, htaken]
    cases n with
    | zero => exact List.nil_prefix
    | succ n =>
      rw [List.take_succ_cons, List.flatten_cons]
      have hprefix := (List.prefix_append_right_inj (data.take reply.sendSize.toNat)).mpr (h.prefixes n)
      rwa [List.take_append_drop] at hprefix
  · rw [Run.prepend_outcome, h.sent, Run.prepend_events, hoffered, htaken, List.flatten_cons]
    constructor
    · intro hall
      rw [hall, List.take_append_drop]
    · intro hall
      have hsplit := hall.trans (List.take_append_drop reply.sendSize.toNat data).symm
      exact List.append_cancel_left hsplit
  · rw [Run.prepend_events, herrors]
    exact h.failed hfailed
  · rw [Run.prepend_events, herrors]
    exact h.quiet hreturned
  · rw [Run.prepend_events, hoffered, List.length_cons]
    cases front with
    | nil =>
      obtain ⟨rfl, -⟩ := List.cons.inj heq
      rw [hsuccess] at hfailing
      cases hfailing
    | cons first front =>
      have hlast := h.last front failing rest (List.cons.inj heq).2 hfailing
      rw [List.length_cons]
      omega
  · rw [Run.prepend_events, hoffered, List.length_cons]
    omega
  · rw [List.length_cons] at hlength
    refine h.ends ?_
    rw [List.length_drop]
    omega

/-- Events in front that offer nothing and report nothing. -/
theorem Transmits.prepend {data : Bytes} {onError : Bool} {sends : List SendReply}
    {r : Run State Event Stop Bool} (h : Transmits data onError sends r) {es : List Event}
    (hoffered : offered es = []) (herrors : errors es = []) :
    Transmits data onError sends (r.prepend es) := by
  have hsame : offered (es ++ r.events) = offered r.events := by
    rw [offered_append, hoffered, List.nil_append]
  have hsilent : errors (es ++ r.events) = errors r.events := by
    rw [errors_append, herrors, List.nil_append]
  obtain ⟨hprefixes, hsent, hfailed, hquiet, hlast, hcalls, hends⟩ := h
  refine ⟨?_, ?_, ?_, ?_, ?_, ?_, hends⟩
  · rwa [Run.prepend_events, hsame]
  · rwa [Run.prepend_events, hsame]
  · rwa [Run.prepend_events, hsilent]
  · rwa [Run.prepend_events, hsilent]
  · rwa [Run.prepend_events, hsame]
  · rwa [Run.prepend_events, hsame]

/-- **The loop transmits what it is given.** -/
theorem transmits_sendLoop (env : Env) (sends : List SendReply) {s : State} (hs : s.socket_ ≠ none)
    {data : Bytes} (hdata : data ≠ [])
    (htakes : TakesSome (offered ((sendLoop sends data).run env s).events) sends) :
    Transmits data s.handler_.onError sends ((sendLoop sends data).run env s) := by
  have hlength := List.length_pos_iff.mpr hdata
  induction sends generalizing s data with
  | nil =>
    have hoffered : offered (s.tickEvents ++ [.call (.send data)]) = [data] := by
      rw [offered_append, s.offered_tickEvents]
      rfl
    have herrors : errors (s.tickEvents ++ [.call (.send data)]) = [] := by
      rw [errors_append, s.errors_tickEvents]
      rfl
    rw [run_sendLoop_nil hs]
    refine ⟨fun n => ?_, ?_, fun h => (by cases h), fun _ => herrors, fun front reply rest h => ?_, ?_, ?_⟩
    · simp [taken]
    · simp [taken, hdata.symm]
    · simp at h
    · rw [hoffered]
      exact hlength
    · exact fun h => absurd (Nat.le_zero.mp h) hlength.ne'
  | cons reply sends ih =>
    cases hsuccess : reply.result.isSuccess with
    | false =>
      obtain ⟨t, es, hrun, hoffered, herrors⟩ := run_sendLoop_failed hs env hsuccess sends data
      have hdatas : offered (sendEvents s data reply.now ++ es) = [data] := by
        rw [offered_append, hoffered, offered_sendEvents, List.append_nil]
      have htaken : taken [data] (reply :: sends) = [[]] := by simp [taken, SendReply.taken, hsuccess]
      rw [hrun]
      refine ⟨fun n => ?_, ?_, fun _ => ⟨reply.result, hsuccess, ?_⟩, fun h => absurd rfl h,
        fun front reply' rest h _ => ?_, ?_, fun _ => ⟨false, rfl⟩⟩
      · rw [hdatas, htaken]
        cases n <;> simp
      · rw [hdatas, htaken]
        simp [hdata.symm]
      · rw [errors_append, errors_sendEvents, herrors, List.nil_append]
      · rw [hdatas]
        simp
      · rw [hdatas]
        exact hlength
    | true =>
      obtain ⟨hpos, hle, hlt⟩ : 0 < reply.sendSize ∧ reply.sendSize ≤ data.length ∧ reply.sendSize < 2 ^ 63 := by
        refine htakes (data, reply) ?_ hsuccess
        rw [run_sendLoop_cons hs, Run.prepend_events, offered_append, offered_sendEvents]
        exact List.mem_cons_self
      rw [run_sendLoop_progress hs env hsuccess hpos hlt] at htakes ⊢
      rw [Run.prepend_events, offered_append, offered_sendEvents] at htakes
      by_cases hmore : reply.sendSize.toNat < data.length
      · rw [if_pos hmore] at htakes ⊢
        have hrest : Transmits (data.drop reply.sendSize.toNat) s.handler_.onError sends
            ((sendLoop sends (data.drop reply.sendSize.toNat)).run env { s.tick with now := reply.now }) := by
          rw [← s.tick_handler_]
          refine @ih { s.tick with now := reply.now } (s.tick_socket_.symm ▸ hs) _ ?_ (fun call hcall => ?_) ?_
          · rw [Ne, List.drop_eq_nil_iff]
            omega
          · exact htakes call (List.mem_cons_of_mem _ hcall)
          · rw [List.length_drop]
            omega
        exact hrest.behind hsuccess hpos hmore
      · -- everything that is left has been taken
        rw [if_neg hmore] at htakes ⊢
        have hall : data.take reply.sendSize.toNat = data := List.take_of_length_le (by omega)
        have htaken : taken [data] (reply :: sends) = [data] := by
          simp [taken, SendReply.taken, hsuccess, hall]
        have hdatas : offered (sendEvents s data reply.now) = [data] := offered_sendEvents s data reply.now
        rw [Program.run_pure, Run.prepend_mk, List.append_nil]
        refine ⟨fun n => ?_, ?_, fun h => by simp at h, fun _ => errors_sendEvents s data reply.now,
          fun front reply' rest h _ => ?_, ?_, fun _ => ⟨true, rfl⟩⟩
        · rw [hdatas, htaken]
          cases n <;> simp
        · rw [hdatas, htaken]
          simp
        · rw [hdatas]
          simp
        · rw [hdatas]
          exact hlength

/-! ### `Request::send` -/

/-- There is a request to send. -/
theorem htmlEncode_ne_nil (order : IterationOrder) (info : RequestInfo) (url : Url) :
    (htmlEncode order info url).1 ≠ [] := by
  unfold htmlEncode
  exact List.append_ne_nil_of_right_ne_nil _ (by decide)

/-- The events of the wait in front of the first call. -/
def canSendEvents (s : State) (canSend : WaitReply) : List Event :=
  s.tickEvents ++ [.call (.canSend (remainTime s)), .returned canSend.now]

/-- The wait in front of the first call offers nothing. -/
theorem offered_canSendEvents (s : State) (canSend : WaitReply) :
    offered (canSendEvents s canSend) = [] := by
  rw [canSendEvents, offered_append, s.offered_tickEvents]
  rfl

/-- Nor does it make a callback. -/
theorem callbacks_canSendEvents (s : State) (canSend : WaitReply) :
    callbacks (canSendEvents s canSend) = [] := by
  rw [canSendEvents, callbacks_append, s.callbacks_tickEvents]
  rfl

/-- Nor does it report an error. -/
theorem errors_canSendEvents (s : State) (canSend : WaitReply) :
    errors (canSendEvents s canSend) = [] := by
  rw [errors, callbacks_canSendEvents, List.filterMap_nil]

/-- The state in which the loop starts: the headers are those `htmlEncode` has left. -/
def State.encoded (s : State) (order : IterationOrder) (now : UInt64) : State :=
  { s.tick with now := now, info_ := (htmlEncode order s.info_ s.url_).2 }

/-- `send` goes on as the wait in front of its first call ends. -/
theorem run_send_canSend (env : Env) {s : State} (hs : s.socket_ ≠ none) (canSend : WaitReply)
    (sends : List SendReply) :
    (send canSend sends).run env s =
      ((if !canSend.result.isSuccess then do
          handleErrorResponse canSend.result.resultCode canSend.result.errorCode
          pure false
        else do
          let env ← Program.read
          let s ← Program.state
          let (sendData, info) := htmlEncode env.order s.info_ s.url_
          Program.update fun s => { s with info_ := info }
          sendLoop sends sendData : Worker Bool).run env { s.tick with now := canSend.now }).prepend
        (canSendEvents s canSend) := by
  unfold send getRemainTime
  rw [bind_assoc, Program.run_bind, Program.run_state, Run.andThen_ok, Run.prepend_nil, pure_bind,
    Program.run_bind, run_callSocket_of_ne_none env hs, Run.andThen_ok, Program.run_bind, run_returnAt,
    Run.andThen_ok, Run.prepend_prepend, List.append_assoc]
  rfl

/-- Behind a wait that succeeds the loop sends what `htmlEncode` makes of the request. -/
theorem run_send_success (env : Env) {s : State} (hs : s.socket_ ≠ none) {canSend : WaitReply}
    (hsuccess : canSend.result.isSuccess = true) (sends : List SendReply) :
    (send canSend sends).run env s =
      ((sendLoop sends (htmlEncode env.order s.info_ s.url_).1).run env
        (s.encoded env.order canSend.now)).prepend (canSendEvents s canSend) := by
  rw [run_send_canSend env hs, hsuccess, if_neg (by decide)]
  simp only [State.encoded, Program.run_bind, Program.run_read, Program.run_state, Program.run_update,
    Run.andThen_ok, Run.prepend_nil, s.tick_info_, s.tick_url_]

/-- Encoding the request leaves the socket alone. -/
theorem State.encoded_socket_ (s : State) (order : IterationOrder) (now : UInt64) :
    (s.encoded order now).socket_ = s.socket_ := s.tick_socket_

/-- Encoding the request leaves the callbacks alone. -/
theorem State.encoded_handler_ (s : State) (order : IterationOrder) (now : UInt64) :
    (s.encoded order now).handler_ = s.handler_ := s.tick_handler_

/-- **The transmission of a request neither loses nor repeats nor reorders bytes**: whatever part of what it is
offered the transport takes in every call, and wherever a call fails. -/
theorem transmits_send (env : Env) {s : State} (hs : s.socket_ ≠ none) (canSend : WaitReply)
    (sends : List SendReply)
    (htakes : TakesSome (offered ((send canSend sends).run env s).events) sends) :
    Transmits (htmlEncode env.order s.info_ s.url_).1 s.handler_.onError sends
      ((send canSend sends).run env s) := by
  have hdata := htmlEncode_ne_nil env.order s.info_ s.url_
  have hoffered := offered_canSendEvents s canSend
  have herrors := errors_canSendEvents s canSend
  cases hsuccess : canSend.result.isSuccess with
  | false =>
    obtain ⟨t, es, herror, hnothing, honce⟩ := run_handleErrorResponse_once env
      { s.tick with now := canSend.now } canSend.result.resultCode canSend.result.errorCode
    dsimp only at honce
    rw [s.tick_handler_] at honce
    rw [run_send_canSend env hs, hsuccess]
    refine Transmits.prepend ?_ hoffered herrors
    rw [if_pos (by rfl), Program.run_bind, herror, Run.andThen_ok, Program.run_pure, Run.prepend_mk,
      List.append_nil]
    refine ⟨fun n => ?_, ?_, fun _ => ⟨canSend.result, hsuccess, honce⟩, fun h => absurd rfl h,
      fun front reply rest _ _ => ?_, ?_, fun _ => ⟨false, rfl⟩⟩
    · rw [hnothing]
      simp [taken]
    · rw [hnothing]
      simp [taken, hdata.symm]
    · rw [hnothing]
      exact Nat.zero_le _
    · rw [hnothing]
      exact Nat.zero_le _
  | true =>
    rw [run_send_success env hs hsuccess] at htakes ⊢
    rw [Run.prepend_events, offered_append, hoffered, List.nil_append] at htakes
    rw [← s.encoded_handler_ env.order canSend.now]
    have hsocket : (s.encoded env.order canSend.now).socket_ ≠ none := by rwa [s.encoded_socket_]
    exact (transmits_sendLoop env sends hsocket hdata htakes).prepend hoffered herrors

/-- A connected request for `http://h`. -/
def State.toSend : State :=
  { State.connected { url := bytes "http://h", methodType := .Get } with
    url_ := Url.parse (bytes "http://h") }

/-- A request whose first three bytes are taken in one call, and whose next call fails. -/
theorem transmits_send_interrupted :
    Transmits (htmlEncode .latestFirst State.toSend.info_ State.toSend.url_).1 true
      [⟨{}, 3, 0⟩, ⟨{ resultCode := .Failed, errorCode := 32 }, 0, 0⟩]
      ((send ⟨{}, 0⟩ [⟨{}, 3, 0⟩, ⟨{ resultCode := .Failed, errorCode := 32 }, 0, 0⟩]).run Env.plain
        State.toSend) := by
  have hsocket : State.toSend.socket_ ≠ none := by simp [State.toSend, State.connected]
  refine transmits_send Env.plain hsocket ⟨{}, 0⟩ _ ?_
  unfold TakesSome
  decide +kernel

end HttpRequest
