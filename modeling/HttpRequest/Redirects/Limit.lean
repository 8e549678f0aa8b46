import HttpRequest.Redirects.Chain

/-! # The limit on redirects

`redirect` reports `RedirectReachMaxCount` when `redirectCount_` has reached `redirectMaxCount`, and follows
the redirect all the same. What the limit promises (`Bounded`) therefore holds of exactly the runs that
never come to it: those with at most seven redirects (`bounded_process_iff`). -/

namespace HttpRequest

open Foundations

/-! ### The run of a request -/

/-- The state in which a request with an accepted URL starts its first exchange. -/
def State.started (info : RequestInfo) (handler : ResponseHandler) (now : UInt64)
    (cancelIn : Option Nat) : State :=
  { (State.initial info handler now cancelIn).tick with url_ := Url.parse info.url }

/-- With a known method, `process` parses the URL and goes on with what it is. -/
theorem run_process_parsed (env : Env) {info : RequestInfo} (hmethod : info.methodType ≠ .Unknown)
    (handler : ResponseHandler) (now : UInt64) (cancelIn : Option Nat) (connections : List Connection) :
    (process connections).run env (State.initial info handler now cancelIn) =
      ((if !(Url.parse info.url).isValid then handleErrorResponse .UrlInvalid 0
        else if !(Url.parse info.url).isHttpScheme env.enableHttps then
          handleErrorResponse .SchemeNotSupported 0
        else sendRequestOver connections).run env (State.started info handler now cancelIn)).prepend
          ((State.initial info handler now cancelIn).tickEvents ++ [.call (.parseUrl info.url)]) := by
  have hmethod' : (State.initial info handler now cancelIn).info_.methodType ≠ .Unknown := hmethod
  have hstarted : { (State.initial info handler now cancelIn).tick with
      url_ := Url.parse (State.initial info handler now cancelIn).tick.info_.url } =
      State.started info handler now cancelIn := by
    rw [State.tick_info_]
    rfl
  have hcall : (callOut (.parseUrl (State.initial info handler now cancelIn).info_.url)).run env
      (State.initial info handler now cancelIn) =
        ⟨.ok (), (State.initial info handler now cancelIn).tick,
          (State.initial info handler now cancelIn).tickEvents ++ [.call (.parseUrl info.url)]⟩ :=
    run_callOut _ env _
  rw [process, Program.run_bind, Program.run_state, Run.andThen_ok, Run.prepend_nil, if_neg hmethod',
    Program.run_bind, hcall, Run.andThen_ok, Program.run_bind, Program.run_update, Run.andThen_ok,
    Run.prepend_nil, hstarted, Program.run_bind, Program.run_read, Run.andThen_ok, Run.prepend_nil,
    Program.run_bind, Program.run_state, Run.andThen_ok, Run.prepend_nil]
  rfl

/-- With a known method and an accepted URL, `process` parses the URL and sends the request. -/
theorem run_process {env : Env} {info : RequestInfo} (hmethod : info.methodType ≠ .Unknown)
    (haccepted : Accepted env info.url) (handler : ResponseHandler) (now : UInt64)
    (cancelIn : Option Nat) (connections : List Connection) :
    (process connections).run env (State.initial info handler now cancelIn) =
      ((sendRequestOver connections).run env (State.started info handler now cancelIn)).prepend
        ((State.initial info handler now cancelIn).tickEvents ++ [.call (.parseUrl info.url)]) := by
  rw [run_process_parsed env hmethod, haccepted.1, haccepted.2, Bool.not_true,
    if_neg Bool.false_ne_true, if_neg Bool.false_ne_true]

/-! ### What the limit promises -/

/-- The report that ends a run at the limit, as far as the callbacks are installed. -/
def limitReport (handler : ResponseHandler) : List Event :=
  (if handler.onError then [.callback (.onError .RedirectReachMaxCount 0)] else []) ++
    if handler.onDisconnected then [.callback .onDisconnected] else []

/-- **What the limit promises of a run with so many redirects**: it parses at most `1 + 7` URLs and opens
at most `1 + 7` connections, `redirectCount_` counts the redirects followed, and, unless the request is
cancelled, an eighth redirect ends the run with one report, in front of which there was nothing but
`onConnected` and behind which there is nothing. -/
structure Bounded (handler : ResponseHandler) (cancelIn : Option Nat) (redirects : Nat)
    (r : Run State Event Stop Unit) : Prop where
  connections : r.events.countP Event.opensSocket ≤ 1 + 7
  urls : r.events.countP Event.parsesUrl ≤ 1 + 7
  counted : 1 + r.state.redirectCount_.toNat = r.events.countP Event.parsesUrl
  ended : cancelIn = none → 7 < redirects → r.outcome = .ok () ∧
    ∃ front, r.events = front ++ limitReport handler ∧ ∀ c ∈ callbacks front, c = .onConnected

/-- What a run over a chain does: a URL for every hop and one more, at most as many connections, and a
count of the hops in 8 bits. -/
theorem run_chain {env : Env} {info : RequestInfo} (hmethod : info.methodType ≠ .Unknown)
    (haccepted : Accepted env info.url) {handler : ResponseHandler} {now : UInt64}
    {cancelIn : Option Nat} {hops rest : List Connection} {urls : List Url} {t : State}
    (hchain : Redirected env (State.started info handler now cancelIn) hops urls t)
    (hends : Ends env t rest) :
    let x := (process (hops ++ rest)).run env (State.initial info handler now cancelIn)
    x.events.countP Event.parsesUrl = 1 + hops.length ∧
      x.events.countP Event.opensSocket ≤ hops.length + 1 ∧
      x.state.redirectCount_ = UInt8.ofNat hops.length := by
  obtain ⟨hcount, es, hparsed, hopened, hrun⟩ := hchain.run_sendRequestOver
  obtain ⟨hcount', hparsed', hopened'⟩ := hends.run_sendRequestOver
  have hroutine (e : Event) (he : e ∈ (State.initial info handler now cancelIn).tickEvents) :
      e.Routine := routine_of_mem_tickEvents he
  have hnoParse := List.countP_eq_zero.mpr fun e he => (hroutine e he).not_parsesUrl
  have hnoOpen := List.countP_eq_zero.mpr fun e he => (hroutine e he).not_opensSocket
  intro x
  have hx : x = _ := run_process hmethod haccepted handler now cancelIn (hops ++ rest)
  rw [hx, hrun]
  -- in front of the first connection the URL is parsed once and no socket is opened
  refine ⟨?_, ?_, ?_⟩
  · rw [Run.prepend_events, Run.prepend_events, List.countP_append, List.countP_append,
      List.countP_append, hparsed, hparsed', hnoParse, Nat.add_zero]
    rfl
  · rw [Run.prepend_events, Run.prepend_events, List.countP_append, List.countP_append,
      List.countP_append, hnoOpen]
    show 0 + 0 + _ ≤ _
    rw [Nat.zero_add]
    exact Nat.add_le_add hopened hopened'
  · rw [Run.prepend_state, Run.prepend_state, hcount', hcount, State.started]
    show (State.initial info handler now cancelIn).tick.redirectCount_ + _ = _
    rw [State.tick_redirectCount_]
    exact UInt8.zero_add _

/-- **The limit keeps its promise in exactly the runs with at most seven redirects.** -/
theorem bounded_process_iff {env : Env} {info : RequestInfo} (hmethod : info.methodType ≠ .Unknown)
    (haccepted : Accepted env info.url) {handler : ResponseHandler} {now : UInt64}
    {cancelIn : Option Nat} {hops rest : List Connection} {urls : List Url} {t : State}
    (hchain : Redirected env (State.started info handler now cancelIn) hops urls t)
    (hends : Ends env t rest) :
    Bounded handler cancelIn hops.length
        ((process (hops ++ rest)).run env (State.initial info handler now cancelIn)) ↔
      hops.length ≤ 7 := by
  obtain ⟨hparsed, hopened, hcount⟩ := run_chain hmethod haccepted hchain hends
  constructor
  · intro h
    have hurls := h.urls
    rw [hparsed] at hurls
    omega
  · intro hle
    refine ⟨by omega, by omega, ?_, fun _ hlt => absurd hle (by omega)⟩
    rw [hparsed, hcount, UInt8.toNat_ofNat', Nat.mod_eq_of_lt (by omega)]

/-! ### Runs below and beyond the limit -/

/-- A request for `http://a/`. -/
def circularRequest : RequestInfo := { url := bytes "http://a/", methodType := .Get }

/-- A connection whose server redirects `http://a/` to itself. -/
def circularHop : Connection :=
  .prompt 27 [.piece (bytes "HTTP/1.1 301 Moved Permanently\r\nLocation: http://a/\r\n\r\n")]

/-- A connection whose server answers without a body and closes. -/
def lastHop : Connection := .prompt 27 [.piece unsizedHead, .closed]

/-- One redirect and its answer. -/
theorem bounded_process_once :
    Bounded .all none 1 ((process [circularHop, lastHop]).run .plain
      (.initial circularRequest .all 0 none)) := by
  have hlast (s : State) (h : ((exchange lastHop).run .plain s).outcome = .ok ()) :
      Ends .plain s [lastHop] := by
    rintro connection ⟨⟩ url hurl
    cases h.symm.trans hurl
  have hurl : ((exchange circularHop).run .plain (.started circularRequest .all 0 none)).outcome =
      .error (.redirect (bytes "http://a/")) := by rfl
  have hchain : Redirected .plain (.started circularRequest .all 0 none) [circularHop] _ _ :=
    .hop hurl (by decide) (.here _)
  exact (bounded_process_iff (by decide) (by decide) hchain (hlast _ (by rfl))).mpr (by decide)

/-- A hop in front of a chain. -/
theorem exists_redirected_hop {env : Env} {s : State} {connection : Connection}
    {connections : List Connection} (url : Bytes)
    (hurl : ((exchange connection).run env s).outcome = .error (.redirect url))
    (haccepted : Accepted env url)
    (h : ∃ urls t, Redirected env
      ((countRedirect url).run env ((exchange connection).run env s).state).state connections urls t) :
    ∃ urls t, Redirected env s (connection :: connections) urls t := by
  obtain ⟨urls, t, hchain⟩ := h
  exact ⟨s.url_ :: urls, t, .hop hurl haccepted hchain⟩

/-- Eight redirects are followed, over nine connections. -/
theorem process_beyond_limit :
    (∃ urls t, Redirected .plain (.started circularRequest .all 0 none) (List.replicate 8 circularHop)
      urls t) ∧
    ¬Bounded .all none 8 ((process (List.replicate 8 circularHop ++ [lastHop])).run .plain
      (.initial circularRequest .all 0 none)) := by
  refine ⟨?_, fun h => ?_⟩
  · iterate 8
      refine exists_redirected_hop (bytes "http://a/") (by decide +kernel) (by decide) ?_
    exact ⟨[], _, .here _⟩
  · have hopened : ((process (List.replicate 8 circularHop ++ [lastHop])).run .plain
        (.initial circularRequest .all 0 none)).events.countP Event.opensSocket = 9 := by rfl
    have hle := h.connections
    rw [hopened] at hle
    exact absurd hle (by decide)

end HttpRequest
