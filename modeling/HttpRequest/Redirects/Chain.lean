import HttpRequest.Exchange

/-! # Chains of redirects

A chain of redirects is a run of `sendRequest` and `redirect` calling each other: exchange after exchange
hands over a URL that `redirect` goes on with (`Redirected`). Every hop makes one call of `Url::parse`, at
most one socket, and one redirect more on `redirectCount_` (`run_hop`); it leaves the headers `htmlEncode`
wrote behind. A run over a chain is what its hops emit, followed by what the connections behind them do
(`Redirected.run_sendRequestOver`). -/

namespace HttpRequest

open Foundations

/-! ### Chains -/

/-- A URL that `redirect` goes on with. -/
def Accepted (env : Env) (url : Bytes) : Prop :=
  (Url.parse url).isValid = true ∧ (Url.parse url).isHttpScheme env.enableHttps = true

instance (env : Env) (url : Bytes) : Decidable (Accepted env url) :=
  inferInstanceAs (Decidable (_ ∧ _))

/-- An accepted URL is not empty. -/
theorem Accepted.isEmpty {env : Env} {url : Bytes} (h : Accepted env url) : url.isEmpty = false := by
  cases url with
  | nil => exact absurd h.1 (by decide)
  | cons c url => rfl

/-- **A chain of redirects**: over each of the connections an exchange hands over an accepted URL, and the
next exchange starts where `redirect` has counted the redirect and replaced `url_`. The URLs are those of
the exchanges, the one the chain ends with apart. -/
inductive Redirected (env : Env) : State → List Connection → List Url → State → Prop
  | here (s : State) : Redirected env s [] [] s
  | hop {s t : State} {connection : Connection} {connections : List Connection} {urls : List Url}
    {url : Bytes} (handOver : ((exchange connection).run env s).outcome = .error (.redirect url))
    (accepted : Accepted env url)
    (chain : Redirected env
      ((countRedirect url).run env ((exchange connection).run env s).state).state connections urls t) :
    Redirected env s (connection :: connections) (s.url_ :: urls) t

/-- The events that parse a URL. -/
def Event.parsesUrl : Event → Bool
  | .call (.parseUrl _) => true
  | _ => false

/-- The events that open a connection. -/
def Event.opensSocket : Event → Bool
  | .call (.newSocket _) => true
  | _ => false

/-- A routine event parses no URL. -/
theorem Event.Routine.not_parsesUrl (e : Event) (h : e.Routine) : ¬e.parsesUrl := by
  cases h <;> exact Bool.false_ne_true

/-- A routine event opens no socket. -/
theorem Event.Routine.not_opensSocket (e : Event) (h : e.Routine) : ¬e.opensSocket := by
  cases h <;> exact Bool.false_ne_true

/-! ### An exchange -/

/-- Every stop is tolerated. -/
theorem tolerates_true {I : State → Prop} : Tolerates I fun _ _ => True :=
  ⟨fun _ _ => trivial, fun _ _ _ => trivial⟩

/-- The count of redirects lasts. -/
theorem lasting_redirectCount (count : UInt8) : Lasting fun s => s.redirectCount_ = count := by
  refine ⟨⟨fun s hs => ?_, fun _ _ hs => hs⟩, fun _ _ hs => hs⟩
  rw [← hs, State.tick]
  rcases s.cancelIn with _ | _ | n <;> rfl

/-- The request and its URL last. -/
theorem lasting_info (info : RequestInfo) (url : Url) :
    Lasting fun s => s.info_ = info ∧ s.url_ = url := by
  refine ⟨⟨fun s hs => ?_, fun _ _ hs => hs⟩, fun _ _ hs => hs⟩
  rw [← hs.1, ← hs.2, State.tick]
  rcases s.cancelIn with _ | _ | n <;> exact ⟨rfl, rfl⟩

/-- An exchange does not touch `redirectCount_`. -/
theorem redirectCount_exchange (connection : Connection) (env : Env) (s : State) :
    ((exchange connection).run env s).state.redirectCount_ = s.redirectCount_ := by
  have hlasting := lasting_redirectCount s.redirectCount_
  have hexchange := hlasting.exchange (E := fun _ t => t.redirectCount_ = s.redirectCount_)
    hlasting routine_true ⟨fun _ h => h, fun _ _ h => h⟩ ⟨fun _ h => h, fun _ _ h => h⟩
    (fun _ _ h => h) (fun _ _ h => h) (fun _ _ _ => trivial) (fun _ => trivial) connection env s rfl
  have hstate := hexchange.1
  generalize (exchange connection).run env s = x at hstate ⊢
  obtain ⟨outcome, t, es⟩ := x
  cases outcome with
  | ok _ => exact hstate.elim id id
  | error stop => exact hstate

/-- An exchange that hands over leaves the headers that `htmlEncode` wrote, and no other trace in
`info_`. -/
theorem info_exchange {connection : Connection} {env : Env} {s : State} {url : Bytes}
    (h : ((exchange connection).run env s).outcome = .error (.redirect url)) :
    ((exchange connection).run env s).state.info_ =
      { s.info_ with headers := encodeHeaders s.info_ s.url_ } := by
  have hexchange := (lasting_info s.info_ s.url_).exchange
    (E := fun stop t => ∀ url, stop = .redirect url →
      t.info_ = { s.info_ with headers := encodeHeaders s.info_ s.url_ })
    (lasting_info { s.info_ with headers := encodeHeaders s.info_ s.url_ } s.url_) routine_true
    ⟨fun _ _ _ => Stop.noConfusion, fun _ _ _ _ => Stop.noConfusion⟩
    ⟨fun _ _ _ => Stop.noConfusion, fun _ _ _ _ => Stop.noConfusion⟩
    (fun _ t ht _ _ => ht.1) (fun order t ht => ⟨by rw [htmlEncode, ht.1, ht.2], ht.2⟩)
    (fun _ _ _ => trivial) (fun _ => trivial) connection env s ⟨rfl, rfl⟩
  have hstate := hexchange.1
  rw [h] at hstate
  exact hstate url rfl

/-- An exchange parses no URL. -/
theorem atMost_parsesUrl_exchange (connection : Connection) :
    Program.AtMost Event.parsesUrl 0 (exchange connection) := by
  refine Program.Triple.atMost_zero ?_
  refine (lasting_true.exchange (E := fun _ _ => True) lasting_true Event.Routine.not_parsesUrl
    tolerates_true tolerates_true
    (fun _ _ _ => trivial) (fun _ _ _ => trivial) (fun _ _ _ => Bool.false_ne_true)
    (fun _ => Bool.false_ne_true) connection).conseq (fun _ h => h) (fun _ _ _ => trivial)
      (fun _ _ h => h) fun _ h => h

/-- Storing a socket opens one at most. -/
theorem atMost_opensSocket_storeSocket (socketPtr : Option Socket) :
    Program.AtMost Event.opensSocket 1 (storeSocket socketPtr) := by
  have hstore : Program.AtMost Event.opensSocket 0
      (Program.update fun s => { s with socket_ := socketPtr } : Worker Unit) := fun _ _ => Nat.le_refl 0
  cases socketPtr with
  | none =>
    have hreport := lasting_true.handleErrorResponse (E := fun _ _ => True)
      Event.Routine.not_opensSocket .SchemeNotSupported 0
    exact (hreport.atMost_zero.mono (Nat.zero_le 1)).of_first fun _ => hstore
  | some socket => exact (Program.AtMost.emit _).of_first fun _ => hstore

/-- An exchange opens at most one connection. -/
theorem atMost_opensSocket_exchange (connection : Connection) :
    Program.AtMost Event.opensSocket 1 (exchange connection) := by
  have hquiet := Event.Routine.not_opensSocket
  have hkeeps {α : Type} {m : Worker α}
      (h : Program.Keeps (fun _ => True) (fun _ _ => True) (fun e => ¬e.opensSocket) m) :
      Program.AtMost Event.opensSocket 0 m := Program.Keeps.atMost_zero h
  refine Program.AtMost.of_first ?_ fun isOpen => ?_
  · refine .of_second (hkeeps .read) fun _ => .of_second (hkeeps .state) fun _ => ?_
    refine .of_second (hkeeps (lasting_true.callOut hquiet Bool.false_ne_true)) fun _ => ?_
    refine .of_second (hkeeps (lasting_true.returnAt hquiet _)) fun _ => ?_
    cases connection.lookup.family with
    | none =>
      have hreport := hkeeps ((lasting_true.handleErrorResponse hquiet .GetAddressFailed
        connection.lookup.errno).bind fun _ => .pure false)
      exact hreport.mono (Nat.zero_le 1)
    | some family =>
      exact (atMost_opensSocket_storeSocket _).of_first fun _ =>
        hkeeps (lasting_true.connectSocket hquiet tolerates_true connection)
  · refine Program.Triple.atMost_zero ?_
    refine .ite (.pure fun _ _ => trivial) ?_
    refine Program.Triple.bind (lasting_true.send hquiet tolerates_true lasting_true tolerates_true
      (fun _ _ _ => trivial) _ _) fun sent => .ite (.pure fun _ _ => trivial) ?_
    rw [receive_eq_receiver]
    exact (lasting_true.receiver hquiet tolerates_true (fun _ _ _ => trivial) _ _).conseq
      (fun _ _ => trivial) (fun _ _ _ => trivial) (fun _ _ _ => trivial) fun _ h => h

/-! ### Following a redirect -/

/-- Reporting an error always returns, with some callbacks. -/
theorem run_handleErrorResponse_of_lasting {I : State → Prop} (h : Lasting I) (code : ResultCode)
    (errorCode : Int) (env : Env) {s : State} (hs : I s) :
    ∃ t es, (handleErrorResponse code errorCode).run env s = ⟨.ok (), t, es⟩ ∧ I t ∧
      ∀ e ∈ es, Event.Routine e := by
  obtain ⟨houtcome, hevents⟩ := h.handleErrorResponse (E := fun _ _ => False) (fun _ he => he)
    code errorCode env s hs
  generalize (handleErrorResponse code errorCode).run env s = r at houtcome hevents
  obtain ⟨outcome, t, es⟩ := r
  cases outcome with
  | ok _ => exact ⟨t, es, rfl, houtcome, hevents⟩
  | error stop => exact houtcome.elim

/-- The events at the start of a step are routine. -/
theorem routine_of_mem_tickEvents {s : State} {e : Event} (h : e ∈ s.tickEvents) : e.Routine := by
  unfold State.tickEvents at h
  split at h
  · rw [List.mem_singleton.mp h]
    exact .cancelled
  · cases h

/-- Counting a redirect always returns: it makes some callbacks, if any, and then one call of
`Url::parse`. -/
theorem run_countRedirect (url : Bytes) (env : Env) (s : State) :
    ∃ t es, (countRedirect url).run env s = ⟨.ok (), t, es ++ [.call (.parseUrl url)]⟩ ∧
      t.redirectCount_ = s.redirectCount_ + 1 ∧ t.info_ = s.info_ ∧ t.url_ = Url.parse url ∧
      ∀ e ∈ es, Event.Routine e := by
  -- what happens behind the limit check
  have htail (u : State) :
      (do
        Program.update fun s => { s with redirectCount_ := s.redirectCount_ + 1 }
        callOut (.parseUrl url)
        Program.update fun s => { s with url_ := Url.parse url } : Worker Unit).run env u =
      ⟨.ok (),
        { State.tick { u with redirectCount_ := u.redirectCount_ + 1 } with url_ := Url.parse url },
        u.tickEvents ++ [.call (.parseUrl url)]⟩ := by
    simp only [Program.run_bind, Program.run_update, Run.andThen_ok, run_callOut,
      Run.prepend_mk, List.append_nil]
    rfl
  have hbehind (u : State) (es : List Event) (hcount : u.redirectCount_ = s.redirectCount_)
      (hinfo : u.info_ = s.info_) (hes : ∀ e ∈ es, Event.Routine e)
      (h : (countRedirect url).run env s = ⟨.ok (),
        { State.tick { u with redirectCount_ := u.redirectCount_ + 1 } with url_ := Url.parse url },
        es ++ (u.tickEvents ++ [.call (.parseUrl url)])⟩) : ∃ t es,
      (countRedirect url).run env s = ⟨.ok (), t, es ++ [.call (.parseUrl url)]⟩ ∧
      t.redirectCount_ = s.redirectCount_ + 1 ∧ t.info_ = s.info_ ∧ t.url_ = Url.parse url ∧
      ∀ e ∈ es, Event.Routine e := by
    refine ⟨{ State.tick { u with redirectCount_ := u.redirectCount_ + 1 } with url_ := Url.parse url },
      es ++ u.tickEvents, ?_, ?_, ?_, rfl, fun e he => ?_⟩
    · rw [h, List.append_assoc]
    · rw [← hcount, State.tick_redirectCount_]
    · rw [← hinfo, State.tick_info_]
    · rcases List.mem_append.mp he with he | he
      · exact hes e he
      · exact routine_of_mem_tickEvents he
  by_cases hlimit : redirectMaxCount ≤ s.redirectCount_
  · have hlasting : Lasting fun t => t.redirectCount_ = s.redirectCount_ ∧ t.info_ = s.info_ := by
      refine ⟨⟨fun t ht => ?_, fun _ _ ht => ht⟩, fun _ _ ht => ht⟩
      rw [State.tick_redirectCount_, State.tick_info_]
      exact ht
    obtain ⟨u, es, hrun, ⟨hcount, hinfo⟩, hes⟩ :=
      run_handleErrorResponse_of_lasting hlasting .RedirectReachMaxCount 0 env (s := s) ⟨rfl, rfl⟩
    refine hbehind u es hcount hinfo hes ?_
    rw [countRedirect, Program.run_bind, Program.run_state, Run.andThen_ok, Run.prepend_nil,
      if_pos hlimit, Program.run_bind, hrun, Run.andThen_ok]
    exact congrArg (Run.prepend es) (htail u)
  · refine hbehind s [] rfl rfl (fun _ he => absurd he List.not_mem_nil) ?_
    rw [countRedirect, Program.run_bind, Program.run_state, Run.andThen_ok, Run.prepend_nil,
      if_neg hlimit]
    exact htail s

/-- `redirect` counts an accepted URL and goes on. -/
theorem run_redirect {env : Env} {url : Bytes} (h : Accepted env url) (sendRequest : Worker Unit)
    (s : State) :
    (redirect sendRequest url).run env s =
      (sendRequest.run env ((countRedirect url).run env s).state).prepend
        ((countRedirect url).run env s).events := by
  obtain ⟨t, es, hrun, -, -, hurl, -⟩ := run_countRedirect url env s
  have hcheck : (!t.url_.isValid || !t.url_.isHttpScheme env.enableHttps) = false := by
    rw [hurl, h.1, h.2]
    rfl
  rw [redirect, h.isEmpty, if_neg Bool.false_ne_true, Program.run_bind, hrun, Run.andThen_ok,
    Program.run_bind, Program.run_read, Run.andThen_ok, Run.prepend_nil, Program.run_bind,
    Program.run_state, Run.andThen_ok, Run.prepend_nil, hcheck, if_neg Bool.false_ne_true]

/-! ### A hop and a chain -/

/-- **What a hop does.** It parses one URL and opens at most one connection, and what follows starts with
one redirect more, the headers `htmlEncode` left and the new URL. -/
theorem run_hop {env : Env} {s : State} {connection : Connection} {url : Bytes}
    (hurl : ((exchange connection).run env s).outcome = .error (.redirect url))
    (haccepted : Accepted env url) :
    let t := ((countRedirect url).run env ((exchange connection).run env s).state).state
    (t.redirectCount_ = s.redirectCount_ + 1 ∧
      t.info_ = { s.info_ with headers := encodeHeaders s.info_ s.url_ } ∧ t.url_ = Url.parse url) ∧
    ∃ es, es.countP Event.parsesUrl = 1 ∧ es.countP Event.opensSocket ≤ 1 ∧
      ∀ connections, (sendRequestOver (connection :: connections)).run env s =
        ((sendRequestOver connections).run env t).prepend es := by
  intro t
  obtain ⟨u, es, hcount, hredirects, hinfo, hparsed, hroutine⟩ :=
    run_countRedirect url env ((exchange connection).run env s).state
  have ht : t = u := congrArg Run.state hcount
  rw [ht]
  refine ⟨⟨?_, ?_, hparsed⟩, ((exchange connection).run env s).events ++ (es ++ [.call (.parseUrl url)]),
    ?_, ?_, fun connections => ?_⟩
  · rw [hredirects, redirectCount_exchange]
  · rw [hinfo, info_exchange hurl]
  · have hexchange := Nat.le_zero.mp (atMost_parsesUrl_exchange connection env s)
    have hreport := List.countP_eq_zero.mpr fun e he => (hroutine e he).not_parsesUrl
    rw [List.countP_append, List.countP_append, hexchange, hreport]
    rfl
  · have hreport := List.countP_eq_zero.mpr fun e he => (hroutine e he).not_opensSocket
    rw [List.countP_append, List.countP_append, hreport]
    exact atMost_opensSocket_exchange connection env s
  · rw [sendRequestOver, (run_sendRequest _ connection env s).1 url hurl, run_redirect haccepted, hcount,
      Run.prepend_prepend]

/-- The connections behind a chain: a last exchange that hands over nothing, or none. -/
def Ends (env : Env) (s : State) (connections : List Connection) : Prop :=
  ∀ connection ∈ connections.head?, ∀ url,
    ((exchange connection).run env s).outcome ≠ .error (.redirect url)

/-- The last exchange parses no URL, opens at most one connection and counts no redirect. -/
theorem Ends.run_sendRequestOver {env : Env} {s : State} {connections : List Connection}
    (h : Ends env s connections) :
    let x := (sendRequestOver connections).run env s
    x.state.redirectCount_ = s.redirectCount_ ∧ x.events.countP Event.parsesUrl = 0 ∧
      x.events.countP Event.opensSocket ≤ 1 := by
  cases connections with
  | nil => exact ⟨rfl, rfl, Nat.zero_le 1⟩
  | cons connection connections =>
    rw [sendRequestOver, (run_sendRequest _ connection env s).2 (h connection rfl)]
    exact ⟨redirectCount_exchange connection env s,
      Nat.le_zero.mp (atMost_parsesUrl_exchange connection env s),
      atMost_opensSocket_exchange connection env s⟩

/-- **What a chain does.** It parses a URL a hop, opens at most a connection a hop, and has counted its
hops, up to the 8 bits of `redirectCount_`. -/
theorem Redirected.run_sendRequestOver {env : Env} {s t : State} {hops : List Connection}
    {urls : List Url} (h : Redirected env s hops urls t) :
    t.redirectCount_ = s.redirectCount_ + UInt8.ofNat hops.length ∧
    ∃ es, es.countP Event.parsesUrl = hops.length ∧ es.countP Event.opensSocket ≤ hops.length ∧
      ∀ rest, (sendRequestOver (hops ++ rest)).run env s =
        ((sendRequestOver rest).run env t).prepend es := by
  induction h with
  | here s => exact ⟨(UInt8.add_zero _).symm, [], rfl, Nat.le_refl 0, fun _ => rfl⟩
  | @hop s t connection connections urls url handOver accepted chain ih =>
    obtain ⟨hredirects, es, hparsed, hopened, hrun⟩ := ih
    obtain ⟨⟨hcount, -, -⟩, es', hparsed', hopened', hrun'⟩ := run_hop handOver accepted
    refine ⟨?_, es' ++ es, ?_, ?_, fun rest => ?_⟩
    · rw [hredirects, hcount, List.length_cons, UInt8.ofNat_add, UInt8.add_assoc,
        UInt8.add_comm (UInt8.ofNat connections.length)]
      rfl
    · rw [List.countP_append, hparsed, hparsed', List.length_cons, Nat.add_comm]
    · rw [List.countP_append, List.length_cons, Nat.add_comm connections.length]
      exact Nat.add_le_add hopened' hopened
    · rw [List.cons_append, hrun', hrun, Run.prepend_prepend]

end HttpRequest
