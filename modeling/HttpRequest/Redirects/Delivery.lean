import HttpRequest.Messages.Transmission
import HttpRequest.Receiver.Chunks
import HttpRequest.Redirects.Limit

/-! # What a chain of servers delivers

A server takes the request that is meant for it (`Carries`), and redirects to another URL (`RedirectsTo`) or
responds with a body (`Responds`), in pieces as it likes. A chain of servers, each redirecting to the next, gets
request after request (`Serves`), and the caller gets the response of the last one (`delivered_process`). -/

namespace HttpRequest

open Foundations

/-! ### Responses -/

section

variable {timeLeft : UInt64 → Bool} {allowRedirect : Bool} {rounds : List Round} {response : ResponseHeader}

/-- Rounds behind those with which the receiver has ended are not reached. -/
theorem transcript_append {phase : Phase}
    (h : (transcript timeLeft allowRedirect rounds phase).outcome ≠ .error .pending) (tail : List Round) :
    transcript timeLeft allowRedirect (rounds ++ tail) phase = transcript timeLeft allowRedirect rounds phase := by
  induction rounds generalizing phase with
  | nil => exact absurd rfl h
  | cons round rounds ih =>
    rw [List.cons_append]
    rw [transcript] at h ⊢
    rw [transcript]
    cases hwait : await timeLeft round.waits with
    | pending => rfl
    | failed code errorCode => rfl
    | ready =>
      rw [hwait] at h
      dsimp only at h ⊢
      cases hexit : (phase.react allowRedirect round.reply).exit with
      | more phase' =>
        rw [hexit] at h
        exact congrArg (Transcript.prepend _ 1) (ih h)
      | finished | failed | redirected | crashed => rfl

/-- The rounds deliver a head that redirects to a URL, and then whatever they like. -/
def RedirectsTo (timeLeft : UInt64 → Bool) (rounds : List Round) (url : Bytes) : Prop :=
  ∃ front back head extra response, rounds = front ++ back ∧ Delivers timeLeft front (head ++ extra) ∧
    ParsesTo head response ∧ response.isNeedRedirect = true ∧ response.headers.lookup kLocation = some url

/-- **The rounds deliver a response with a body**, in pieces as they like. -/
inductive Responds (timeLeft : UInt64 → Bool) (allowRedirect : Bool) :
    List Round → ResponseHeader → Bytes → Prop
  /-- The head says how long the body is. -/
  | sized {front back : List Round} {last : Round} {head body : Bytes} {response : ResponseHeader}
    (hhead : ParsesTo head response) (hstay : (response.isNeedRedirect && allowRedirect) = false)
    (hcoding : response.headers.lookup kTransferEncoding ≠ some kChunked)
    (hlength : parseFieldValueInt64 response.headers kContentLength int64Max = .ok (body.length : Int))
    (hlast : last.reply.result.isSuccess = true) (hdelivers : Delivers timeLeft (front ++ [last]) (head ++ body)) :
    Responds timeLeft allowRedirect (front ++ last :: back) response body
  /-- The body lasts until the server closes the connection. -/
  | closed {front back : List Round} {last : Round} {head body : Bytes} {response : ResponseHeader}
    (hhead : ParsesTo head response) (hstay : (response.isNeedRedirect && allowRedirect) = false)
    (hcoding : response.headers.lookup kTransferEncoding ≠ some kChunked)
    (hlength : response.headers.lookup kContentLength = none) (hbound : (body.length : Int) ≤ int64Max)
    (hready : await timeLeft last.waits = .ready)
    (hclosed : last.reply.result.resultCode = .Completed ∨ last.reply.result.resultCode = .Disconnected)
    (hdelivers : Delivers timeLeft front (head ++ body)) :
    Responds timeLeft allowRedirect (front ++ last :: back) response body
  /-- The body is the payloads of chunks, in pieces in which they arrive. -/
  | chunked {front back : List Round} {head : Bytes} {response : ResponseHeader} {chunks : List Chunk}
    {last : LastChunk} (hhead : ParsesTo head response)
    (hstay : (response.isNeedRedirect && allowRedirect) = false)
    (hcoding : response.headers.lookup kTransferEncoding = some kChunked)
    (hlength : ∃ n, parseFieldValueInt64 response.headers kContentLength int64Max = .ok n)
    (harrives : Arrives (received front) head.length chunks last)
    (hdelivers : Delivers timeLeft front (head ++ encodeBody chunks last)) :
    Responds timeLeft allowRedirect (front ++ back) response (chunks.map (·.payload)).flatten

/-- The receiver hands over the URL, and nothing to the caller. -/
theorem transcript_redirectsTo {url : Bytes} (h : RedirectsTo timeLeft rounds url) :
    ∃ n, transcript timeLeft true rounds (.head []) = ⟨.error (.redirect url), [], n⟩ := by
  obtain ⟨front, back, head, extra, response, rfl, hdelivers, hhead, hredirect, hlocation⟩ := h
  obtain ⟨n, hn⟩ := transcript_of_flows true hdelivers.flows (.head [])
  rw [takeAll_of_parsesTo hhead hdelivers.flatten, afterHead, hredirect, hlocation] at hn
  have hfront : transcript timeLeft true front (.head []) = ⟨.error (.redirect url), [], n⟩ := hn
  refine ⟨n, ?_⟩
  rw [transcript_append, hfront]
  rw [hfront]
  simp

/-- **What the caller sees of a response**: its head, its body and its end. -/
theorem transcript_responds {body : Bytes} (h : Responds timeLeft allowRedirect rounds response body) :
    ∃ (data : List Bytes) (n : Nat), data.flatten = body ∧ transcript timeLeft allowRedirect rounds (.head []) =
      ⟨.ok (), .onParseHeaderDone response :: data.map .onData ++ [.onDisconnected], n⟩ := by
  cases h with
  | @sized front back last head body response hhead hstay hcoding hlength hlast hdelivers =>
    obtain ⟨data, hdata, ht⟩ := transcript_sized hhead hdelivers hlast hstay hcoding hlength back
    exact ⟨data, _, hdata, ht⟩
  | @closed front back last head body response hhead hstay hcoding hlength hbound hready hclosed hdelivers =>
    obtain ⟨data, hdata, houtcome, hcallbacks⟩ :=
      transcript_unsized hhead hdelivers hready hclosed hstay hcoding hlength hbound back
    exact ⟨data, _, hdata, by rw [← houtcome, ← hcallbacks]⟩
  | @chunked front back head response chunks last hhead hstay hcoding hlength harrives hdelivers =>
    obtain ⟨contentLength, hlength⟩ := hlength
    obtain ⟨hreads, hpayloads⟩ := (arrives_iff _ _ _ _).mp harrives
    have hbody : (dropFront head.length (received front)).flatten = encodeBody chunks last := by
      rw [flatten_dropFront, hdelivers.flatten, List.drop_left]
    obtain ⟨hfinishes, -⟩ := @decodeAll_body (-1) _ chunks last (by decide) hbody
    rw [bodyReads_dropFront, deliveredBody_dropFront, Nat.add_zero] at hfinishes
    obtain ⟨data, hdata, hdecode⟩ := hfinishes hreads
    obtain ⟨n, hn⟩ := transcript_of_flows allowRedirect hdelivers.flows (.head [])
    rw [takeAll_of_parsesTo hhead hdelivers.flatten, afterHead, hstay, if_neg Bool.false_ne_true, hlength] at hn
    dsimp only at hn
    rw [ofHead_chunked hcoding, takeAll_chunked, hdecode] at hn
    have hfront : transcript timeLeft allowRedirect front (.head []) =
        ⟨.ok (), .onParseHeaderDone response :: data.map .onData ++ [.onDisconnected], n⟩ := hn
    refine ⟨data, n, hdata.trans hpayloads, ?_⟩
    rw [transcript_append, hfront]
    rw [hfront]
    simp

end

/-! ### What `receive` calls -/

/-- The events of `receive`: it waits, reads, makes callbacks, and meets what any call may meet. -/
inductive Event.Receives : Event → Prop
  | callback (callback : Callback) : Receives (.callback callback)
  | canReceive (timeout : Int) : Receives (.call (.canReceive timeout))
  | receive : Receives (.call .receive)
  | returned (now : UInt64) : Receives (.returned now)
  | cancelled : Receives .cancelled

/-- `receive` opens no socket. -/
theorem Event.Receives.not_opensSocket {e : Event} (h : e.Receives) : ¬e.opensSocket := by
  cases h <;> exact Bool.false_ne_true

/-- `receive` offers no bytes. -/
theorem offered_of_receives {es : List Event} (h : ∀ e ∈ es, e.Receives) : offered es = [] := by
  induction es with
  | nil => rfl
  | cons e es ih =>
    obtain ⟨hfirst, hrest⟩ := List.forall_mem_cons.mp h
    rw [← List.singleton_append, offered_append, ih hrest]
    cases hfirst <;> rfl

/-- Waiting, reading and making callbacks keep what lasts. -/
structure Listening (I : State → Prop) (E : Stop → State → Prop) : Prop where
  lasting : Lasting I
  tolerates : Tolerates I E
  redirect : ∀ url s, I s → E (.redirect url) s

namespace Listening

variable {I : State → Prop} {E : Stop → State → Prop} {α : Type} (h : Listening I E)

include h

/-- A step keeps what a `cancel()` leaves alone. -/
theorem step : Program.Keeps I E Event.Receives step :=
  .bind .state fun _ => .ite (Program.Keeps.bind (.emit .cancelled) fun _ => .update h.lasting.tick)
    (.update h.lasting.tick)

/-- Reading `isValid_` is a step. -/
theorem loadValid : Program.Keeps I E Event.Receives loadValid :=
  h.step.bind fun _ => .bind .state fun _ => .pure _

/-- A return keeps what does not depend on the clock. -/
theorem returnAt (now : UInt64) : Program.Keeps I E Event.Receives (returnAt now) :=
  Program.Keeps.bind (.update fun s hs => h.lasting.now s now hs) fun _ => .emit (.returned now)

/-- A call of `receive` keeps it. -/
theorem callSocket {call : Call} (hcall : Event.Receives (.call call)) :
    Program.Keeps I E Event.Receives (callSocket call) := by
  refine h.step.bind fun _ => .bind .state fun s => ?_
  cases s.socket_ with
  | none => exact .stop (h.tolerates.fault _)
  | some socket => exact .emit hcall

/-- The callback of the head keeps it. -/
theorem responseHeader (header : ResponseHeader) :
    Program.Keeps I E Event.Receives (responseHeader header) :=
  h.loadValid.bind fun _ => .bind .state fun _ => .ite (.emit (.callback _)) (.pure _)

/-- The callback of a piece of body keeps it. -/
theorem responseData (data : Data) : Program.Keeps I E Event.Receives (responseData data) :=
  h.loadValid.bind fun _ => .bind .state fun _ => .ite (.emit (.callback _)) (.pure _)

/-- `disconnected` keeps it. -/
theorem disconnected : Program.Keeps I E Event.Receives disconnected := by
  refine h.loadValid.bind fun _ => .bind .state fun _ => .ite ?_ (.pure _)
  exact Program.Keeps.bind (.emit (.callback _)) fun _ => .update fun s hs => h.lasting.socket s none hs

/-- `handleErrorResponse` keeps it. -/
theorem handleErrorResponse (code : ResultCode) (errorCode : Int) :
    Program.Keeps I E Event.Receives (handleErrorResponse code errorCode) := by
  refine .bind .state fun _ => .ite ?_ h.disconnected
  exact h.step.bind fun _ => Program.Keeps.bind (.emit (.callback _)) fun _ => h.disconnected

/-- The wait for data keeps it. -/
theorem isReceivable (waits : List WaitReply) : Program.Keeps I E Event.Receives (isReceivable waits) := by
  induction waits with
  | nil =>
    refine h.loadValid.bind fun _ => .ite (h.disconnected.bind fun _ => .pure _) ?_
    exact keeps_getRemainTime.bind fun _ => (h.callSocket (.canReceive _)).bind fun _ => .stop h.tolerates.pending
  | cons canReceive waits ih =>
    refine h.loadValid.bind fun _ => .ite (h.disconnected.bind fun _ => .pure _) ?_
    refine keeps_getRemainTime.bind fun _ => (h.callSocket (.canReceive _)).bind fun _ =>
      (h.returnAt _).bind fun _ => .ite (.pure _) (keeps_getRemainTime.bind fun _ => .ite ih ?_)
    exact (h.handleErrorResponse _ _).bind fun _ => .pure _

/-- Announcing the head keeps it. -/
theorem announce (header : Option ResponseHeader) : Program.Keeps I E Event.Receives (announce header) := by
  cases header with
  | none => exact .pure _
  | some header => exact h.responseHeader header

/-- Delivering the body's bytes keeps it. -/
theorem deliver (data : List Bytes) : Program.Keeps I E Event.Receives (deliver data) := by
  induction data with
  | nil => exact .pure _
  | cons data rest ih => exact (h.responseData _).bind fun _ => ih

/-- The end of a reaction keeps it. -/
theorem perform (exit : Exit) : Program.Keeps I E Event.Receives (exit.perform handOver) := by
  cases exit with
  | more phase => exact .pure _
  | finished => exact h.disconnected.bind fun _ => .pure _
  | failed code errorCode => exact (h.handleErrorResponse code errorCode).bind fun _ => .pure _
  | redirected url => exact Program.Keeps.bind (.stop (h.redirect url)) fun _ => .pure _
  | crashed fault => exact .stop (h.tolerates.fault fault)

/-- The receiver keeps it, pass by pass. -/
theorem receiver (rounds : List Round) :
    ∀ phase, Program.Keeps I E Event.Receives (receiver handOver rounds phase) := by
  induction rounds with
  | nil => exact fun phase => (h.isReceivable _).bind fun _ => .pure _
  | cons round rounds ih =>
    intro phase
    refine (h.isReceivable _).bind fun _ => .ite (.pure _) (Program.Keeps.bind ?_ fun next => ?_)
    · exact (h.callSocket .receive).bind fun _ => (h.returnAt _).bind fun _ => .bind .state fun _ =>
        (h.announce _).bind fun _ => (h.deliver _).bind fun _ => h.perform _
    · cases next with
      | none => exact .pure _
      | some phase => exact ih phase

end Listening

/-! ### Sending -/

/-- The calls take all the data, each of them some. -/
def TakesAll : Bytes → List SendReply → Prop
  | _, [] => False
  | data, reply :: sends => reply.result.isSuccess = true ∧ 0 < reply.sendSize ∧ reply.sendSize < 2 ^ 63 ∧
      (reply.sendSize.toNat < data.length → TakesAll (data.drop reply.sendSize.toNat) sends)

/-- The loop sends all the data. -/
theorem run_sendLoop_takesAll (env : Env) {sends : List SendReply} {data : Bytes} (h : TakesAll data sends)
    {s : State} (hs : s.Undisturbed) (hsocket : s.socket_ ≠ none) :
    ∃ now es, (sendLoop sends data).run env s = ⟨.ok true, { s with now := now }, es⟩ ∧ callbacks es = [] ∧
      (taken (offered es) sends).flatten = data := by
  induction sends generalizing data s with
  | nil => exact h.elim
  | cons reply sends ih =>
    obtain ⟨hsuccess, hpos, hlt, hrest⟩ := h
    have htaken (datas : List Bytes) : (taken (data :: datas) (reply :: sends)).flatten =
        data.take reply.sendSize.toNat ++ (taken datas sends).flatten := by
      simp [taken, SendReply.taken, hsuccess]
    rw [run_sendLoop_progress hsocket env hsuccess hpos hlt, hs.tick_eq]
    by_cases hmore : reply.sendSize.toNat < data.length
    · obtain ⟨now, es, hrun, hcallbacks, hall⟩ := ih (hrest hmore) (hs.setNow reply.now) hsocket
      refine ⟨now, sendEvents s data reply.now ++ es, ?_, ?_, ?_⟩
      · rw [if_pos hmore, hrun]
        rfl
      · rw [callbacks_append, callbacks_sendEvents, hcallbacks]
        rfl
      · rw [offered_append, offered_sendEvents, List.singleton_append, htaken, hall, List.take_append_drop]
    · refine ⟨reply.now, sendEvents s data reply.now, ?_, callbacks_sendEvents _ _ _, ?_⟩
      · rw [if_neg hmore]
        simp
      · rw [offered_sendEvents, htaken, List.take_of_length_le (Nat.not_lt.mp hmore)]
        simp [taken]

/-! ### Connections that carry a request -/

/-- A connection that opens in time and takes a request. -/
structure Carries (timeLeft : UInt64 → Bool) (request : Bytes) (connection : Connection) : Prop where
  found : connection.lookup.family ≠ none
  inTime : timeLeft connection.lookup.now = true
  connected : connection.connect.result.isSuccess = true
  writable : connection.canSend.result.isSuccess = true
  takes : TakesAll request connection.sends

/-- A request that goes undisturbed, as it stands in front of an exchange. -/
structure Underway (timeLeft : UInt64 → Bool) (info : RequestInfo) (url : Url) (count : UInt8) (s : State) : Prop
    extends s.Undisturbed where
  timeLeft_eq : s.timeLeft = timeLeft
  info_eq : s.info_ = info
  url_eq : s.url_ = url
  count_eq : s.redirectCount_ = count

/-- The clock, the socket and callbacks do not change a request that goes undisturbed. -/
theorem listening_underway (timeLeft : UInt64 → Bool) (info : RequestInfo) (url : Url) (count : UInt8) :
    Listening (Underway timeLeft info url count) fun _ => Underway timeLeft info url count where
  lasting := by
    refine ⟨⟨fun s hs => ?_, fun s now hs => ?_⟩, fun s socket hs => ?_⟩
    · rw [hs.toUndisturbed.tick_eq]
      exact hs
    · exact ⟨hs.toUndisturbed.setNow now, hs.timeLeft_eq, hs.info_eq, hs.url_eq, hs.count_eq⟩
    · exact ⟨⟨hs.valid, hs.uncancelled, hs.handlers⟩, hs.timeLeft_eq, hs.info_eq, hs.url_eq, hs.count_eq⟩
  tolerates := ⟨fun _ hs => hs, fun _ _ hs => hs⟩
  redirect _ _ hs := hs

/-- The events of a call that sends nothing and opens no socket. -/
def Event.Idle (e : Event) : Prop := offered [e] = [] ∧ ¬e.opensSocket

/-- The connection opens, and the caller hears of it. -/
theorem run_openConnection_carries {s : State} (hs : s.Undisturbed) {request : Bytes} {connection : Connection}
    (h : Carries s.timeLeft request connection) {env : Env} (hurl : s.url_.isHttpScheme env.enableHttps = true) :
    ∃ front socket timeout, (openConnection connection).run env s =
        ⟨.ok true, { s with socket_ := some socket, now := connection.connect.now },
          front ++ .call (.newSocket socket) :: [.call (.connect timeout), .returned connection.connect.now,
            .callback .onConnected]⟩ ∧
      callbacks front = [] ∧ ∀ e ∈ front, e.Idle := by
  obtain ⟨family, hfamily⟩ := Option.ne_none_iff_exists'.mp h.found
  have hlookup := hs.setNow connection.lookup.now
  have htime : ¬remainTime { s with now := connection.lookup.now } ≤ 0 := by
    simpa [State.timeLeft] using h.inTime
  rw [openConnection, Program.run_bind, Program.run_read, Run.andThen_ok, Run.prepend_nil,
    Program.run_bind, Program.run_state, Run.andThen_ok, Run.prepend_nil, Program.run_bind,
    hs.run_callOut, Run.andThen_ok, Program.run_bind, run_returnAt, Run.andThen_ok, hfamily]
  dsimp only
  generalize (if s.info_.ipVersion = .Auto then (if family = .inet then IPVersion.V4 else .V6)
    else s.info_.ipVersion) = ipVersion
  obtain ⟨socket, hsocket⟩ := Option.isSome_iff_exists.mp (createSocket_isSome hurl ipVersion)
  refine ⟨[.call (.getaddrinfo (cString s.url_.host) (cString s.url_.port) s.info_.ipVersion),
    .returned connection.lookup.now], socket, remainTime { s with now := connection.lookup.now }, ?_, rfl, ?_⟩
  · have hstored : State.Undisturbed { s with now := connection.lookup.now, socket_ := some socket } :=
      ⟨hs.valid, hs.uncancelled, hs.handlers⟩
    have hinstalled : s.handler_.onConnected = true := by rw [hs.handlers]; rfl
    have hsame : remainTime { s with now := connection.lookup.now, socket_ := some socket } =
        remainTime { s with now := connection.lookup.now } := rfl
    rw [hsocket, Program.run_bind, run_storeSocket, Run.andThen_ok, connectSocket, getRemainTime, bind_assoc,
      Program.run_bind, Program.run_state, Run.andThen_ok, Run.prepend_nil, pure_bind, hsame, if_neg htime,
      Program.run_bind, hstored.run_callSocket env rfl, Run.andThen_ok, Program.run_bind, run_returnAt,
      Run.andThen_ok]
    dsimp only
    rw [h.connected, Bool.not_true, if_neg Bool.false_ne_true, Program.run_bind, Program.run_state,
      Run.andThen_ok, Run.prepend_nil]
    dsimp only
    rw [if_pos hinstalled, Program.run_bind, (hstored.setNow connection.connect.now).run_step, Run.andThen_ok]
    rfl
  · intro e he
    rcases List.mem_cons.mp he with rfl | he
    · exact ⟨rfl, Bool.false_ne_true⟩
    · rw [List.mem_singleton.mp he]
      exact ⟨rfl, Bool.false_ne_true⟩

/-- `send` sends the whole request. -/
theorem run_send_carries {s : State} (hs : s.Undisturbed) (hsocket : s.socket_ ≠ none) {env : Env}
    {timeLeft : UInt64 → Bool} {connection : Connection}
    (h : Carries timeLeft (htmlEncode env.order s.info_ s.url_).1 connection) :
    ∃ now es, (send connection.canSend connection.sends).run env s =
        ⟨.ok true, { s with now := now, info_ := (htmlEncode env.order s.info_ s.url_).2 }, es⟩ ∧
      callbacks es = [] ∧ (∀ e ∈ es, ¬e.opensSocket) ∧
      (taken (offered es) connection.sends).flatten = (htmlEncode env.order s.info_ s.url_).1 := by
  have hencoded : (s.encoded env.order connection.canSend.now).Undisturbed := by
    rw [State.encoded, hs.tick_eq]
    exact ⟨hs.valid, hs.uncancelled, hs.handlers⟩
  have hsocket' : (s.encoded env.order connection.canSend.now).socket_ ≠ none := by rwa [s.encoded_socket_]
  obtain ⟨now, es, hrun, hcallbacks, hall⟩ := run_sendLoop_takesAll env h.takes hencoded hsocket'
  have hquiet := (lasting_true.send (E := fun _ _ => True) Event.Routine.not_opensSocket tolerates_true lasting_true
    tolerates_true (fun _ _ _ => trivial) connection.canSend connection.sends env s trivial).2
  rw [run_send_success env hsocket h.writable, hrun] at hquiet ⊢
  refine ⟨now, canSendEvents s connection.canSend ++ es, ?_, ?_, hquiet, ?_⟩
  · rw [State.encoded, hs.tick_eq]
    rfl
  · rw [callbacks_append, callbacks_canSendEvents, hcallbacks]
    rfl
  · rw [offered_append, offered_canSendEvents, List.nil_append, hall]

/-! ### The servers of a chain -/

/-- A connection and the request that is meant for it. -/
structure Leg where
  connection : Connection
  request : Bytes

/-- **The servers of a chain get their requests**: behind every new socket, up to the next one, that socket takes
the request that is meant for it. -/
inductive Serves : List Event → List Leg → Prop
  | done {es : List Event} (hidle : ∀ e ∈ es, e.Idle) : Serves es []
  | leg {front during es : List Event} {socket : Socket} {leg : Leg} {legs : List Leg}
    (hfront : ∀ e ∈ front, e.Idle) (hduring : ∀ e ∈ during, ¬e.opensSocket)
    (hrequest : (taken (offered during) leg.connection.sends).flatten = leg.request) (hrest : Serves es legs) :
    Serves (front ++ .call (.newSocket socket) :: (during ++ es)) (leg :: legs)

/-- Idle events in front serve nobody and take nothing. -/
theorem Serves.idle_append {front es : List Event} {legs : List Leg} (hfront : ∀ e ∈ front, e.Idle)
    (h : Serves es legs) : Serves (front ++ es) legs := by
  cases h with
  | done hidle => exact .done (List.forall_mem_append.mpr ⟨hfront, hidle⟩)
  | leg hfront' hduring hrequest hrest =>
    rw [← List.append_assoc]
    exact .leg (List.forall_mem_append.mpr ⟨hfront, hfront'⟩) hduring hrequest hrest

/-- The events of `receive` are idle. -/
theorem Event.Receives.idle {e : Event} (h : e.Receives) : e.Idle :=
  ⟨offered_of_receives fun _ he => List.mem_singleton.mp he ▸ h, h.not_opensSocket⟩

/-- The request for a URL, and what `htmlEncode` leaves of `info_` behind it. -/
def requestFor (env : Env) (info : RequestInfo) (url : Bytes) : Bytes × RequestInfo :=
  htmlEncode env.order info (Url.parse url)

section

variable {env : Env} {timeLeft : UInt64 → Bool} {info : RequestInfo} {url : Bytes} {count : UInt8} {s : State}

/-- **An exchange over a connection that carries its request** opens the connection, sends the request, and goes
on with `receive`. -/
theorem run_exchange_carries (hs : Underway timeLeft info (Url.parse url) count s) (haccepted : Accepted env url)
    {connection : Connection} (h : Carries timeLeft (requestFor env info url).1 connection) :
    ∃ t es, (exchange connection).run env s = ((receive handOver connection.rounds).run env t).prepend es ∧
      Underway timeLeft (requestFor env info url).2 (Url.parse url) count t ∧ t.socket_.isSome ∧
      callbacks es = [.onConnected] ∧
      ∀ {es' : List Event} {legs : List Leg}, Serves es' legs →
        Serves (es ++ es') (⟨connection, (requestFor env info url).1⟩ :: legs) := by
  obtain ⟨hundisturbed, rfl, rfl, hurl, rfl⟩ := hs
  have hhttp : s.url_.isHttpScheme env.enableHttps = true := by
    rw [hurl]
    exact haccepted.2
  obtain ⟨front, socket, timeout, hopen, hfront, hidle⟩ := run_openConnection_carries hundisturbed h hhttp
  rw [requestFor, ← hurl] at h ⊢
  have hconnected : State.Undisturbed { s with socket_ := some socket, now := connection.connect.now } :=
    ⟨hundisturbed.valid, hundisturbed.uncancelled, hundisturbed.handlers⟩
  obtain ⟨now, sending, hsend, hsilent, hquiet, hall⟩ := run_send_carries hconnected (Option.some_ne_none socket) h
  refine ⟨{ s with socket_ := some socket, now := now, info_ := (htmlEncode env.order s.info_ s.url_).2 },
    front ++ .call (.newSocket socket) :: ([.call (.connect timeout), .returned connection.connect.now,
      .callback .onConnected] ++ sending), ?_, ?_, rfl, ?_, ?_⟩
  · rw [exchange, sendRequest, Program.run_bind, hopen, Run.andThen_ok, Bool.not_true, if_neg Bool.false_ne_true,
      Program.run_bind, hsend, Run.andThen_ok, Bool.not_true, if_neg Bool.false_ne_true, Run.prepend_prepend,
      List.append_assoc]
    rfl
  · exact ⟨⟨hundisturbed.valid, hundisturbed.uncancelled, hundisturbed.handlers⟩, rfl, rfl, rfl, rfl⟩
  · rw [callbacks_append, hfront]
    exact congrArg (Callback.onConnected :: ·) hsilent
  · intro es' legs hrest
    have hduring : ∀ e ∈ [.call (.connect timeout), .returned connection.connect.now,
        .callback .onConnected] ++ sending, ¬e.opensSocket := by
      refine List.forall_mem_append.mpr ⟨?_, hquiet⟩
      simp [Event.opensSocket]
    rw [List.append_assoc, List.cons_append]
    exact .leg hidle hduring hall hrest

/-- `receive` leaves a request that goes undisturbed as it is. -/
theorem run_receive_underway (env : Env) {url : Url} (hs : Underway timeLeft info url count s)
    (rounds : List Round) :
    Underway timeLeft info url count ((receive handOver rounds).run env s).state ∧
      ∀ e ∈ ((receive handOver rounds).run env s).events, e.Idle := by
  obtain ⟨hstate, hevents⟩ := (listening_underway timeLeft info url count).receiver rounds (.head []) env s hs
  rw [← receive_eq_receiver] at hstate hevents
  refine ⟨?_, fun e he => (hevents e he).idle⟩
  generalize (receive handOver rounds).run env s = r at hstate
  obtain ⟨outcome, t, es⟩ := r
  cases outcome <;> exact hstate

/-- Below the limit a redirect is counted without a word. -/
theorem run_countRedirect_underway (env : Env) {url : Url} (hs : Underway timeLeft info url count s)
    (hlimit : count < redirectMaxCount) (text : Bytes) :
    ∃ t, (countRedirect text).run env s = ⟨.ok (), t, [.call (.parseUrl text)]⟩ ∧
      Underway timeLeft info (Url.parse text) (count + 1) t := by
  obtain ⟨hundisturbed, rfl, rfl, rfl, rfl⟩ := hs
  have hcounted : State.Undisturbed { s with redirectCount_ := s.redirectCount_ + 1 } :=
    ⟨hundisturbed.valid, hundisturbed.uncancelled, hundisturbed.handlers⟩
  refine ⟨{ s with redirectCount_ := s.redirectCount_ + 1, url_ := Url.parse text }, ?_, ?_⟩
  · rw [countRedirect, Program.run_bind, Program.run_state, Run.andThen_ok, Run.prepend_nil,
      if_neg (UInt8.not_le.mpr hlimit)]
    dsimp only
    rw [Program.run_bind, Program.run_update, Run.andThen_ok, Run.prepend_nil, Program.run_bind,
      hcounted.run_callOut, Run.andThen_ok]
    rfl
  · exact ⟨⟨hundisturbed.valid, hundisturbed.uncancelled, hundisturbed.handlers⟩, rfl, rfl, rfl, rfl⟩

end

/-- **A chain of servers**, from the request for one URL to that for another: each takes the request that is meant
for it and redirects to the next. -/
inductive Leads (env : Env) (timeLeft : UInt64 → Bool) :
    RequestInfo → Bytes → List Leg → RequestInfo → Bytes → Prop
  | here (info : RequestInfo) (url : Bytes) : Leads env timeLeft info url [] info url
  | hop {info info' : RequestInfo} {url next url' : Bytes} {connection : Connection} {legs : List Leg}
    (hallowed : info.isAllowRedirect = true) (hcarries : Carries timeLeft (requestFor env info url).1 connection)
    (hredirects : RedirectsTo timeLeft connection.rounds next) (haccepted : Accepted env next)
    (hrest : Leads env timeLeft (requestFor env info url).2 next legs info' url') :
    Leads env timeLeft info url (⟨connection, (requestFor env info url).1⟩ :: legs) info' url'

/-- **A request follows a chain of servers** to its end: what lies behind is run from there on. -/
theorem Leads.run_sendRequestOver {env : Env} {timeLeft : UInt64 → Bool} {info info' : RequestInfo}
    {url url' : Bytes} {legs : List Leg} (h : Leads env timeLeft info url legs info' url') {count : UInt8}
    {s : State} (hs : Underway timeLeft info (Url.parse url) count s) (haccepted : Accepted env url)
    (hlimit : count.toNat + legs.length ≤ redirectMaxCount.toNat) :
    ∃ t es count', (∀ connections,
        (sendRequestOver (legs.map Leg.connection ++ connections)).run env s =
          ((sendRequestOver connections).run env t).prepend es) ∧
      Underway timeLeft info' (Url.parse url') count' t ∧ Accepted env url' ∧
      callbacks es = List.replicate legs.length .onConnected ∧
      ∀ {es' : List Event} {legs' : List Leg}, Serves es' legs' → Serves (es ++ es') (legs ++ legs') := by
  induction h generalizing count s with
  | here info url => exact ⟨s, [], count, fun _ => rfl, hs, haccepted, rfl, fun h => h⟩
  | @hop info info' url next url' connection legs hallowed hcarries hredirects hnext hrest ih =>
    -- the exchange hands over the next URL
    obtain ⟨t, sending, hexchange, ht, hsocket, honce, hserves⟩ := run_exchange_carries hs haccepted hcarries
    obtain ⟨n, hn⟩ := transcript_redirectsTo hredirects
    have hof := transcript_receive env connection.rounds ht.toUndisturbed hsocket
    have hfollowed : t.info_.isAllowRedirect = true := by
      rw [ht.info_eq]
      exact hallowed
    rw [hfollowed, ht.timeLeft_eq, hn] at hof
    obtain ⟨hreceived, hidle⟩ := run_receive_underway env ht connection.rounds
    generalize hx : (receive handOver connection.rounds).run env t = x at hexchange hof hreceived hidle
    have houtcome : x.outcome = .error (.redirect next) := congrArg Transcript.outcome hof
    have hsilent : callbacks x.events = [] := congrArg Transcript.callbacks hof
    -- and `redirect` goes on with it
    have hbelow : count < redirectMaxCount := by
      rw [UInt8.lt_iff_toNat_lt]
      rw [List.length_cons] at hlimit
      omega
    obtain ⟨u, hcount, hu⟩ := run_countRedirect_underway env hreceived hbelow next
    have hwrap : (count + 1).toNat = count.toNat + 1 := by
      have hmax : redirectMaxCount.toNat = 7 := rfl
      rw [UInt8.lt_iff_toNat_lt] at hbelow
      rw [UInt8.toNat_add, UInt8.toNat_one]
      omega
    obtain ⟨v, es, count', hrun, hv, haccepted', hconnects, hserves'⟩ := ih hu hnext (by
      rw [List.length_cons] at hlimit
      omega)
    refine ⟨v, sending ++ (x.events ++ ([.call (.parseUrl next)] ++ es)), count', fun connections => ?_, hv,
      haccepted', ?_, fun hend => ?_⟩
    · have hhandOver : ((exchange connection).run env s).outcome = .error (.redirect next) := by
        rw [hexchange]
        exact houtcome
      rw [List.map_cons, List.cons_append, sendRequestOver,
        (run_sendRequest _ connection env s).1 next hhandOver, run_redirect hnext, hexchange, Run.prepend_state,
        hcount, hrun]
      simp only [Run.prepend_prepend, Run.prepend_events, List.append_assoc]
    · rw [callbacks_append, callbacks_append, callbacks_append, honce, hsilent, hconnects]
      rfl
    · rw [List.append_assoc, List.append_assoc, List.append_assoc]
      refine hserves (.idle_append hidle (.idle_append ?_ (hserves' hend)))
      intro e he
      rw [List.mem_singleton.mp he]
      exact ⟨rfl, Bool.false_ne_true⟩

/-- **The end of a chain**: a server that takes its request and responds. -/
theorem run_sendRequestOver_responds {env : Env} {timeLeft : UInt64 → Bool} {info : RequestInfo} {url : Bytes}
    {count : UInt8} {s : State} (hs : Underway timeLeft info (Url.parse url) count s) (haccepted : Accepted env url)
    {last : Connection} (hcarries : Carries timeLeft (requestFor env info url).1 last) {response : ResponseHeader}
    {body : Bytes} (hresponds : Responds timeLeft info.isAllowRedirect last.rounds response body)
    (rest : List Connection) :
    let r := (sendRequestOver (last :: rest)).run env s
    r.outcome = .ok () ∧ Serves r.events [⟨last, (requestFor env info url).1⟩] ∧
      ∃ data : List Bytes, data.flatten = body ∧ callbacks r.events =
        .onConnected :: .onParseHeaderDone response :: data.map .onData ++ [.onDisconnected] := by
  obtain ⟨t, sending, hexchange, ht, hsocket, honce, hserves⟩ := run_exchange_carries hs haccepted hcarries
  obtain ⟨data, n, hdata, hn⟩ := transcript_responds hresponds
  have hof := transcript_receive env last.rounds ht.toUndisturbed hsocket
  have hallowed : t.info_.isAllowRedirect = info.isAllowRedirect := by
    rw [ht.info_eq]
    rfl
  rw [hallowed, ht.timeLeft_eq, hn] at hof
  obtain ⟨-, hidle⟩ := run_receive_underway env ht last.rounds
  generalize (receive handOver last.rounds).run env t = x at hexchange hof hidle
  have houtcome : x.outcome = .ok () := congrArg Transcript.outcome hof
  have hcallbacks : callbacks x.events =
      .onParseHeaderDone response :: data.map .onData ++ [.onDisconnected] := congrArg Transcript.callbacks hof
  have hrun : (sendRequestOver (last :: rest)).run env s = x.prepend sending := by
    rw [sendRequestOver, (run_sendRequest _ last env s).2, hexchange]
    intro next hnext
    rw [hexchange, Run.prepend_outcome, houtcome] at hnext
    cases hnext
  dsimp only
  rw [hrun]
  refine ⟨houtcome, hserves (.done hidle), data, hdata, ?_⟩
  rw [Run.prepend_events, callbacks_append, honce, hcallbacks]
  rfl

/-- **What a chain of servers delivers.** Each server of a chain within the limit takes exactly the request for
its URL, and the caller hears of the connections, then of the response of the last server, its head, its body and
its end, and of nothing else. -/
theorem delivered_process {env : Env} {info info' : RequestInfo} {now : UInt64} {legs : List Leg} {url : Bytes}
    {last : Connection} {response : ResponseHeader} {body : Bytes} (hmethod : info.methodType ≠ .Unknown)
    (haccepted : Accepted env info.url)
    (hleads : Leads env (State.initial info .all now none).timeLeft info info.url legs info' url)
    (hlimit : legs.length ≤ redirectMaxCount.toNat)
    (hcarries : Carries (State.initial info .all now none).timeLeft (requestFor env info' url).1 last)
    (hresponds : Responds (State.initial info .all now none).timeLeft info'.isAllowRedirect last.rounds response body)
    (rest : List Connection) :
    let r := (process (legs.map Leg.connection ++ last :: rest)).run env (.initial info .all now none)
    r.outcome = .ok () ∧ Serves r.events (legs ++ [⟨last, (requestFor env info' url).1⟩]) ∧
      ∃ data : List Bytes, data.flatten = body ∧ callbacks r.events =
        List.replicate (legs.length + 1) .onConnected ++
          .onParseHeaderDone response :: data.map .onData ++ [.onDisconnected] := by
  intro r
  have hs : Underway (State.initial info .all now none).timeLeft info (Url.parse info.url) 0
      (State.started info .all now none) := ⟨⟨rfl, rfl, rfl⟩, rfl, rfl, rfl, rfl⟩
  obtain ⟨t, es, count, hrun, ht, haccepted', hconnects, hserves⟩ := hleads.run_sendRequestOver hs haccepted (by
    rw [UInt8.toNat_zero, Nat.zero_add]
    exact hlimit)
  obtain ⟨houtcome, hlast, data, hdata, hcallbacks⟩ :=
    run_sendRequestOver_responds ht haccepted' hcarries hresponds rest
  have hprocess : r = ((sendRequestOver (last :: rest)).run env t).prepend ([.call (.parseUrl info.url)] ++ es) := by
    show (process _).run env (.initial info .all now none) = _
    rw [run_process hmethod haccepted, hrun, Run.prepend_prepend]
    rfl
  rw [hprocess]
  refine ⟨houtcome, ?_, data, hdata, ?_⟩
  · rw [Run.prepend_events, List.append_assoc]
    refine .idle_append (fun e he => ?_) (hserves hlast)
    rw [List.mem_singleton.mp he]
    exact ⟨rfl, Bool.false_ne_true⟩
  · rw [Run.prepend_events, callbacks_append, callbacks_append, hconnects, hcallbacks, List.replicate_succ']
    simp [callbacks]

/-- A connection that takes a request in two calls, and whose server answers with `hello` in three pieces. -/
def helloHop : Connection :=
  ⟨⟨some .inet, 0, 0⟩, ⟨{}, 0, 0⟩, ⟨{}, 0⟩, [⟨{}, 3, 0⟩, ⟨{}, 24, 0⟩],
    [.piece (sizedHead.take 20), .piece (sizedHead.drop 20 ++ bytes "he"), .piece (bytes "llo")]⟩

/-- The head of `circularHop`. -/
def circularHead : Bytes := bytes "HTTP/1.1 301 Moved Permanently\r\nLocation: http://a/\r\n\r\n"

/-- A server that redirects, and one that answers. -/
theorem delivered_process_hello :
    let r := (process [circularHop, helloHop]).run .plain (.initial circularRequest .all 0 none)
    r.outcome = .ok () ∧
      Serves r.events [⟨circularHop, bytes "GET / HTTP/1.1\r\nHost: a\r\n\r\n"⟩,
        ⟨helloHop, bytes "GET / HTTP/1.1\r\nHost: a\r\n\r\n"⟩] ∧
      ∃ data : List Bytes, data.flatten = bytes "hello" ∧ callbacks r.events =
        List.replicate 2 .onConnected ++ .onParseHeaderDone (headerOf sizedHead) :: data.map .onData ++
          [.onDisconnected] := by
  have hcircular : Carries (State.initial circularRequest .all 0 none).timeLeft
      (requestFor .plain circularRequest circularRequest.url).1 circularHop :=
    ⟨Option.some_ne_none _, by rfl, rfl, rfl, rfl, by decide, by decide, fun h => absurd h (by decide +kernel)⟩
  have hredirects : RedirectsTo (State.initial circularRequest .all 0 none).timeLeft circularHop.rounds
      (bytes "http://a/") :=
    ⟨circularHop.rounds, [], circularHead, [], headerOf circularHead, (List.append_nil _).symm,
      delivers_pieces _ [circularHead] (by decide) (by rfl), by rfl, by rfl, by rfl⟩
  have hhello : Carries (State.initial circularRequest .all 0 none).timeLeft
      (requestFor .plain (requestFor .plain circularRequest circularRequest.url).2 (bytes "http://a/")).1 helloHop :=
    ⟨Option.some_ne_none _, by rfl, rfl, rfl, rfl, by decide, by decide,
      fun _ => ⟨rfl, by decide, by decide, fun h => absurd h (by decide +kernel)⟩⟩
  have hresponds : Responds (State.initial circularRequest .all 0 none).timeLeft true
      ([.piece (sizedHead.take 20), .piece (sizedHead.drop 20 ++ bytes "he")] ++ .piece (bytes "llo") :: [])
      (headerOf sizedHead) (bytes "hello") :=
    have hdelivers : Delivers (State.initial circularRequest .all 0 none).timeLeft
        ([.piece (sizedHead.take 20), .piece (sizedHead.drop 20 ++ bytes "he")] ++ [.piece (bytes "llo")])
        (sizedHead ++ bytes "hello") :=
      delivers_pieces _ [sizedHead.take 20, sizedHead.drop 20 ++ bytes "he", bytes "llo"] (by decide) (by decide)
    have hhead : ParsesTo sizedHead (headerOf sizedHead) := by rfl
    have hlength : parseFieldValueInt64 (headerOf sizedHead).headers kContentLength int64Max =
        .ok ((bytes "hello").length : Int) := by
      have htext : (headerOf sizedHead).headers.lookup kContentLength = some (bytes "5") := by rfl
      rw [parseFieldValueInt64, htext]
      decide
    .sized hhead (by rfl) (by decide) hlength rfl hdelivers
  exact delivered_process (by decide) (by decide) (.hop (by rfl) hcircular hredirects (by decide) (.here _ _))
    (by decide) hhello hresponds []

end HttpRequest
