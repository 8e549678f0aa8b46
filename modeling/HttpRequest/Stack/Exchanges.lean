import HttpRequest.Stack.Traversal

/-! # Exchanges over sockets

The second half of the traversal: opening a connection, following redirects, and `process`. A connection has
scripts of its own, which the parts of an exchange use one after the other; a redirect goes on with the
scripts of the connections behind it. -/

namespace HttpRequest

open Foundations

variable {κ : Type} {p : Plug κ} {version : IPVersion} {env : Env}

/-! ### Opening a connection -/

/-- A step leaves socket, URL and version alone. -/
theorem routinely_step : Routinely step := fun s => (State.Alike.steady s).step not_parsesUrl_of_routine

/-- So does a callback. -/
theorem routinely_invoke (callback : Callback) : Routinely (invoke callback) := fun _ =>
  Program.Keeps.emit rfl

/-- The results of `connect` over a connection. It reports an address of another family only where
`getaddrinfo` has not kept to the family it was asked for. -/
def connectScripts (version : IPVersion) (system : SystemConnection) : Set SocketResult :=
  {result | result.resultCode ∈ connectCodes ∨ result.resultCode = .ConnectTypeInconsistent ∧
    ∃ family, system.family = some family ∧ ¬family.Conforms version}

/-- The system always answers `connect` in some way. -/
theorem connectScripts_nonempty (version : IPVersion) (system : SystemConnection) :
    (connectScripts version system).Nonempty :=
  ⟨{ resultCode := .Failed }, .inl (by simp [connectCodes, selectCodes])⟩

/-- The version of the socket that is created for an address. -/
def versionFor (version : IPVersion) (family : AddressFamily) : IPVersion :=
  if version = .Auto then (if family = .inet then .V4 else .V6) else version

/-- The version that is passed on asks for the family of the address. -/
theorem getAddressFamily_versionFor {family : Family} (h : family.Conforms version) :
    getAddressFamily (versionFor version family.addressFamily) = family := by
  cases version with
  | V4 | V6 => exact h.symm
  | Auto => rcases h with rfl | rfl <;> rfl

/-- What a connection answers when the methods of its sockets return given results. -/
def SystemConnection.reported (system : SystemConnection) (connect : SocketResult) (canSend : WaitReply)
    (sends : List SendReply) (rounds : List Round) : Connection :=
  ⟨system.lookup, ⟨connect, system.connectErrno, system.connectNow⟩, canSend, sends, rounds⟩

/-- `connect` on the address the lookup has found; where it succeeds the object has a descriptor. -/
theorem watch_connectSocketObject_scripts {system : SystemConnection} {object : ISocket} {family : Family}
    (hfamily : system.family = some family)
    (hobject : object.ipVersion_ = versionFor version family.addressFamily) (timeout : Int) :
    WatchMethod object (Untouched object) (connectSocketObject timeout system.connectScript)
      fun result fd s => result ∈ connectScripts version system ∧ Remains object.pointed fd s ∧
        (result.isSuccess = true → s.self.socket_ ≠ none) := by
  refine (watch_connectSocketObject timeout system.connectScript).conseq (fun _ _ hs => hs) fun result fd s hs => ?_
  obtain ⟨hcode, hremains, hkept⟩ := hs
  have haddress : system.connectScript.address = some family := hfamily
  rw [ConnectCode, haddress] at hcode
  refine ⟨?_, hremains, fun hsuccess => ?_⟩
  · rcases hcode with hcode | ⟨-, hnone⟩ | ⟨hcode, hother⟩
    · exact .inl hcode
    · cases hnone
    · refine .inr ⟨hcode, family, hfamily, fun hconforms => hother ?_⟩
      rw [hobject, getAddressFamily_versionFor hconforms]
  · obtain ⟨rfl, rfl, hne⟩ := hkept (by simpa [SocketResult.isSuccess] using hsuccess)
    exact hne

/-- Connecting the object refines connecting by a script. -/
theorem refines_connectSocket {system : SystemConnection} {family : Family}
    (hfamily : system.family = some family) (canSend : WaitReply) (sends : List SendReply)
    (rounds : List Round) :
    Program.Refines requestView p.monitor env
      (Using p version fun object => object.ipVersion_ = versionFor version family.addressFamily)
      (Stack.connectSocket system) (connectScripts version system)
      (fun result => connectSocket (system.reported result canSend sends rounds))
      fun b => Onward p version (b = true) := by
  have hS := connectScripts_nonempty version system
  have husing : Blind (Using p version fun object =>
      object.ipVersion_ = versionFor version family.addressFamily) := blind_using _
  have hunit : (Set.univ : Set Unit).Nonempty := Set.univ_nonempty
  unfold Stack.connectSocket connectSocket
  refine .bind_left hS (refines_lift husing routinely_getRemainTime) fun timeout => ?_
  refine .ite (fun _ => ?_) fun _ => ?_
  · exact refines_stops husing (fun _ _ hs => hs.idle) hS (.error _ _) Bool.false_ne_true
  · have hcall : Program.Refines requestView p.monitor env
        (Using p version fun object => object.ipVersion_ = versionFor version family.addressFamily)
        (callMethod (.connect timeout) (connectSocketObject timeout system.connectScript) system.connectNow)
        (connectScripts version system) (answered (.connect timeout) system.connectNow) fun result =>
          Using p version fun object => result.isSuccess = true → object.socket_ ≠ none :=
      refines_callMethod hS (by simp) system.connectNow fun object hobject =>
        watch_connectSocketObject_scripts hfamily hobject timeout
    apply Program.Refines.bind_script hunit hcall
    case hscript =>
      intro result hresult _ _
      refine ⟨result, hresult, ?_⟩
      simp only [answered, bind_assoc, pure_bind]
      rfl
    · intro result
      have hblind : Blind (Using p version fun object => result.isSuccess = true → object.socket_ ≠ none) :=
        blind_using _
      refine .ite (fun _ => ?_) fun hsuccess => ?_
      · exact refines_stops hblind (fun _ _ hs => hs.idle) hunit (.error _ _) Bool.false_ne_true
      · have hsuccess : result.isSuccess = true := by simpa using hsuccess
        have hlive : Blind (Live p version) := blind_using _
        have hgoes : Program.Refines requestView p.monitor env (Live p version) (pure true) (Set.univ : Set Unit)
            (fun _ => pure true) fun b => Onward p version (b = true) :=
          .pure hunit fun _ _ hs => ⟨hs.idle, fun _ => hs⟩
        refine .conseq (P := Live p version) ?_ (fun _ _ hs => hs.mono fun _ h => h hsuccess) fun _ _ _ hs => hs
        refine .bind_left hunit refines_lift_state fun s => ?_
        refine .conseq (P := Live p version) (.ite (fun _ => ?_) fun _ => hgoes) (fun _ _ hs => hs.2)
          fun _ _ _ hs => hs
        refine .bind_left hunit (refines_lift hlive routinely_step) fun _ => ?_
        exact .bind_left hunit (refines_lift hlive (routinely_invoke _)) fun _ => hgoes

/-- A call leaves socket, URL and version alone. -/
theorem routinely_callOut {call : Call} (hcall : Event.parsesUrl (.call call) = false) :
    Routinely (callOut call) := fun s => (State.Alike.steady s).callOut not_parsesUrl_of_routine hcall

/-- So does a return. -/
theorem routinely_returnAt (now : UInt64) : Routinely (returnAt now) := fun s =>
  (State.Alike.steady s).returnAt not_parsesUrl_of_routine now

/-- The socket that is created for an accepted URL is of its class. -/
theorem createSocket_of_isHttpScheme {enableHttps : Bool} {url : Url}
    (h : url.isHttpScheme enableHttps = true) (ipVersion : IPVersion) :
    createSocket enableHttps url ipVersion = some ⟨kindOf url, ipVersion⟩ := by
  have hsome := createSocket_isSome h ipVersion
  unfold createSocket kindOf at *
  by_cases hhttps : url.isHttps = true
  · rw [if_pos hhttps] at hsome ⊢
    rw [if_pos hhttps]
    cases enableHttps with
    | true => rfl
    | false => cases hsome
  · rw [if_neg hhttps, if_neg hhttps]

/-- The new object takes the place of the old one, which is freed. -/
theorem refines_storeSocket (url : Url) (ipVersion : IPVersion) (connection : SystemConnection) :
    Program.Refines requestView p.monitor env (fun k s => s.request.url_ = url ∧ Idle p version k s)
      (Stack.storeSocket (some ⟨kindOf url, ipVersion⟩) connection) (Set.univ : Set Unit)
      (fun _ => storeSocket (some ⟨kindOf url, ipVersion⟩))
      fun _ => Using p version fun object => object.ipVersion_ = ipVersion := by
  refine .of_run Set.univ_nonempty ?_
  rintro k t ⟨rfl, ⟨-, hversion⟩, hidle⟩
  obtain ⟨haccepts, hused⟩ := p.created k _ t.object connection.socket hidle
  obtain ⟨hallows, hnext⟩ := p.routine k (.call (.newSocket ⟨kindOf t.request.url_, ipVersion⟩)) rfl
  refine ⟨(), ⟨{ t.request with socket_ := some ⟨kindOf t.request.url_, ipVersion⟩ },
      some (constructSocket (kindOf t.request.url_) ipVersion connection.socket connection.ssl)⟩,
    .request (.call (.newSocket ⟨kindOf t.request.url_, ipVersion⟩)) ::
      .created (kindOf t.request.url_) connection.socket :: (t.object.map freeEvents).getD [], ?_, ?_, ?_, ?_⟩
  · unfold Stack.storeSocket
    simp [View.run_lift, run_freeSocket, requestView]
  · have hfree : requestView.events ((t.object.map freeEvents).getD []) = [] := by
      cases t.object with
      | none => rfl
      | some object => exact requestEvents_onDescriptor _ _
    have hevents : requestView.events (.request (.call (.newSocket ⟨kindOf t.request.url_, ipVersion⟩)) ::
        .created (kindOf t.request.url_) connection.socket :: (t.object.map freeEvents).getD []) =
        .call (.newSocket ⟨kindOf t.request.url_, ipVersion⟩) ::
          requestView.events ((t.object.map freeEvents).getD []) := rfl
    rw [hevents, hfree]
    rfl
  · exact ⟨hallows, hnext.symm ▸ haccepts⟩
  · refine ⟨⟨rfl, hversion⟩, _, rfl, rfl, ?_⟩
    rw [Monitor.after_cons, hnext]
    exact hused

/-- `sendRequest` up to `send`, for a URL it has a socket for. -/
theorem refines_openConnection (system : SystemConnection) (canSend : WaitReply) (sends : List SendReply)
    (rounds : List Round) :
    Program.Refines requestView p.monitor env
      (fun k s => Idle p version k s ∧ s.request.url_.isHttpScheme env.enableHttps = true)
      (Stack.openConnection system) (connectScripts version system)
      (fun connect => openConnection (system.reported connect canSend sends rounds))
      fun b => Onward p version (b = true) := by
  have hS := connectScripts_nonempty version system
  have hidle : Blind (Idle p version) := blind_idle
  unfold Stack.openConnection openConnection
  refine .bind_read (.bind_left hS refines_lift_state fun s => ?_)
  refine .assume (c := s.url_.isHttpScheme env.enableHttps = true ∧ s.info_.ipVersion = version) ?_ ?_
  · rintro k t ⟨rfl, hidle, hurl⟩
    exact ⟨hurl, hidle.1.2⟩
  rintro ⟨hurl, hversion⟩
  have hblind := blind_and_alike hidle s
  refine .conseq (P := fun k t => s.Alike t.request ∧ Idle p version k t) ?_ ?_ fun _ _ _ hs => hs
  · refine .bind_left hS (refines_lift hblind (routinely_callOut rfl)) fun _ => ?_
    refine .bind_left hS (refines_lift hblind (routinely_returnAt _)) fun _ => ?_
    cases hfamily : system.family with
    | none =>
      have hnone : system.lookup.family = none := by rw [SystemConnection.lookup, hfamily]; rfl
      simp only [SystemConnection.reported, hnone]
      exact refines_stops hblind (fun _ _ hs => hs.2) hS (.error _ _) Bool.false_ne_true
    | some family =>
      have hsome : system.lookup.family = some family.addressFamily := by
        rw [SystemConnection.lookup, hfamily]; rfl
      simp only [SystemConnection.reported, hsome]
      have hresolved : (if s.info_.ipVersion = .Auto then
          (if family.addressFamily = .inet then IPVersion.V4 else IPVersion.V6) else s.info_.ipVersion) =
          versionFor version family.addressFamily := by rw [hversion, versionFor]
      simp only [hresolved, createSocket_of_isHttpScheme hurl]
      refine .bind_left hS ((refines_storeSocket s.url_ _ system).conseq (fun _ t ht => ⟨ht.1.url, ht.2⟩)
        fun _ _ _ hs => hs) fun _ => ?_
      exact refines_connectSocket hfamily canSend sends rounds
  · rintro k t ⟨rfl, hidle, hurl⟩
    exact ⟨.refl _, hidle⟩

/-! ### Redirects -/

/-- Parsing a URL tells the monitor of it. -/
theorem refines_parseUrl (q : RequestInfo → Prop) (text : Bytes) :
    Program.Refines requestView p.monitor env (fun k s => q s.request.info_ ∧ Idle p version k s)
      (lift (callOut (.parseUrl text))) (Set.univ : Set Unit) (fun _ => callOut (.parseUrl text))
      fun _ k s => q s.request.info_ ∧ s.Wired version ∧ p.idle k (Url.parse text) s.object := by
  refine .lift Set.univ_nonempty ?_
  rintro k t ⟨hq, hwired, hidle⟩
  have hrun : (callOut (.parseUrl text)).run env (requestView.state t) = _ := run_callOut _ env _
  obtain ⟨haccepts, hafter⟩ := accepts_request (p := p) (not_parsesUrl_tickEvents t.request) k
  obtain ⟨hallows, hparsed⟩ := p.parsed k _ t.object text hidle
  have hsplit : List.map requestView.shown (t.request.tickEvents ++ [.call (.parseUrl text)]) =
      t.request.tickEvents.map .request ++ [.request (.call (.parseUrl text))] := List.map_append
  rw [hrun]
  dsimp only
  have htick : (requestView.state t).tickEvents = t.request.tickEvents := rfl
  rw [htick, hsplit, Monitor.accepts_append, Monitor.after_append, hafter]
  refine ⟨⟨haccepts, hallows, trivial⟩, ?_⟩
  rintro _ ⟨⟩
  refine ⟨?_, ⟨?_, ?_⟩, hparsed⟩
  · show q t.request.tick.info_
    rw [State.tick_info_]
    exact hq
  · show t.request.tick.socket_ = _
    rw [State.tick_socket_]
    exact hwired.1
  · show t.request.tick.info_.ipVersion = version
    rw [State.tick_info_]
    exact hwired.2

/-- The URL is replaced by the one that has been parsed. -/
theorem refines_updateUrl {q : RequestInfo → Prop} {text : Bytes} {f : State → Bytes}
    (hf : ∀ s : State, q s.info_ → f s = text) :
    Program.Refines requestView p.monitor env
      (fun k s => q s.request.info_ ∧ s.Wired version ∧ p.idle k (Url.parse text) s.object)
      (lift (Program.update fun s => { s with url_ := Url.parse (f s) })) (Set.univ : Set Unit)
      (fun _ => Program.update fun s => { s with url_ := Url.parse (f s) }) fun _ => Idle p version := by
  refine refines_lift_update ?_
  rintro k t ⟨hq, hwired, hidle⟩
  refine ⟨hwired, ?_⟩
  dsimp only
  rw [hf _ hq]
  exact hidle

/-- Counting a redirect refines counting it. -/
theorem refines_countRedirect (url : Bytes) :
    Program.Refines requestView p.monitor env (Idle p version) (Stack.countRedirect url) (Set.univ : Set Unit)
      (fun _ => countRedirect url) fun _ => Idle p version := by
  have hunit : (Set.univ : Set Unit).Nonempty := Set.univ_nonempty
  have hidle : Blind (Idle p version) := blind_idle
  unfold Stack.countRedirect countRedirect
  refine .bind_left hunit (refines_lift_state.conseq (fun _ _ hs => hs) fun _ _ _ hs => hs.2) fun s => ?_
  have hrest : Program.Refines requestView p.monitor env (Idle p version)
      (do
        lift (Program.update fun s => { s with redirectCount_ := s.redirectCount_ + 1 })
        lift (callOut (.parseUrl url))
        lift (Program.update fun s => { s with url_ := Url.parse url })) (Set.univ : Set Unit)
      (fun _ => do
        Program.update fun s => { s with redirectCount_ := s.redirectCount_ + 1 }
        callOut (.parseUrl url)
        Program.update fun s => { s with url_ := Url.parse url }) fun _ => Idle p version := by
    refine .bind_left hunit (refines_lift_update (Q := Idle p version) fun _ _ hs => hs) fun _ => ?_
    refine .bind_left hunit ((refines_parseUrl (fun _ => True) url).conseq (fun _ _ hs => ⟨trivial, hs⟩)
      fun _ _ _ hs => hs) fun _ => ?_
    exact refines_updateUrl (q := fun _ => True) (f := fun _ => url) fun _ _ => rfl
  refine .ite (fun _ => ?_) fun _ => hrest
  exact .bind_left hunit (refines_end hidle (fun _ _ hs => hs) (.error _ _)) fun _ => hrest

/-- A redirect refines a redirect where the next exchange does. -/
theorem refines_redirect {Θ : Type} {T : Set Θ} (hT : T.Nonempty) {next : Stack Unit}
    {next' : Θ → Worker Unit}
    (hnext : Program.Refines requestView p.monitor env
      (fun k s => Idle p version k s ∧ s.request.url_.isHttpScheme env.enableHttps = true) next T next'
      fun _ => Idle p version) (url : Bytes) :
    Program.Refines requestView p.monitor env (Idle p version) (Stack.redirect next url) T
      (fun θ => redirect (next' θ) url) fun _ => Idle p version := by
  have hidle : Blind (Idle p version) := blind_idle
  obtain ⟨θ, hθ⟩ := hT
  have hend (code : ResultCode) (errorCode : Int) : Program.Refines requestView p.monitor env (Idle p version)
      (within (handleErrorResponse code errorCode)) T (fun _ => handleErrorResponse code errorCode)
      fun _ => Idle p version :=
    .of_script hθ (refines_end hidle (fun _ _ hs => hs) (.error _ _))
  unfold Stack.redirect redirect
  refine .ite (fun _ => hend _ _) fun _ => ?_
  refine .bind_left ⟨θ, hθ⟩ (refines_countRedirect url) fun _ => .bind_read ?_
  refine .bind_left ⟨θ, hθ⟩ refines_lift_state fun s => .ite (fun _ => ?_) fun hurl => ?_
  · exact (hend _ _).conseq (fun _ _ hs => hs.2) fun _ _ _ hs => hs
  · refine hnext.conseq ?_ fun _ _ _ hs => hs
    rintro k t ⟨rfl, ht⟩
    have hurl : t.request.url_.isValid = true ∧ t.request.url_.isHttpScheme env.enableHttps = true := by
      simpa using hurl
    exact ⟨ht, hurl.2⟩

/-! ### Exchanges -/

/-- The scripts of a connection. -/
def connectionScripts (version : IPVersion) (system : SystemConnection) : Set Connection :=
  {connection | connection.Answers version system}

/-- `openConnection` does not look at what is behind it. -/
theorem openConnection_reported (system : SystemConnection) (connect : SocketResult) (canSend : WaitReply)
    (sends : List SendReply) (rounds : List Round) :
    openConnection (system.reported connect canSend sends rounds) =
      openConnection (system.reported connect ⟨{}, 0⟩ [] []) := rfl

/-- An exchange with the system refines an exchange by a script. -/
theorem refines_sendRequest {Θ : Type} {T : Set Θ} (hT : T.Nonempty) {redirect : Bytes → Stack Unit}
    {redirect' : Θ → Bytes → Worker Unit}
    (hredirect : ∀ url, Program.Refines requestView p.monitor env (Idle p version) (redirect url) T
      (fun θ => redirect' θ url) fun _ => Idle p version) (system : SystemConnection) :
    Program.Refines requestView p.monitor env
      (fun k s => Idle p version k s ∧ s.request.url_.isHttpScheme env.enableHttps = true)
      (Stack.sendRequest redirect system) (connectionScripts version system ×ˢ T)
      (fun θ => sendRequest (redirect' θ.2) θ.1) fun _ => Idle p version := by
  have hsends := (waitAnswers_nonempty system.canSendNow).prod (sendScripts_nonempty system.sends)
  have hrounds := (roundScripts_nonempty system.rounds).prod hT
  unfold Stack.sendRequest
  apply Program.Refines.bind_script (hsends.prod hrounds) (refines_openConnection system ⟨{}, 0⟩ [] [])
  case hscript =>
    rintro connect hconnect θ ⟨hsends, hrounds, hθ⟩
    refine ⟨(system.reported connect θ.1.1 θ.1.2 θ.2.1, θ.2.2),
      ⟨⟨rfl, hconnect, ⟨rfl, rfl⟩, hsends.1, hsends.2, hrounds⟩, hθ⟩, ?_⟩
    dsimp only
    rw [sendRequest, openConnection_reported]
    dsimp only [SystemConnection.reported]
  intro isOpen
  refine .ite (fun _ => .pure (hsends.prod hrounds) fun _ _ hs => hs.1) fun hopen => ?_
  have hopen : isOpen = true := by simpa using hopen
  apply Program.Refines.bind_script hrounds
    ((refines_send system).conseq (fun _ _ hs => hs.2 hopen) fun _ _ _ hs => hs)
  case hscript =>
    intro sends hsends θ hθ
    refine ⟨(sends, θ), ⟨hsends, hθ⟩, ?_⟩
    dsimp only
  · intro sent
    refine .ite (fun _ => .pure hrounds fun _ _ hs => hs.1) fun hsent => ?_
    refine (refines_receiveLoop hT hredirect system.rounds {}).conseq (fun _ _ hs => hs.2 ?_) fun _ _ _ hs => hs
    simpa using hsent

/-- The scripts of the connections a request may use. -/
def chainScripts (version : IPVersion) (systems : List SystemConnection) : Set (List Connection) :=
  {connections | List.Forall₂ (fun system connection => connection.Answers version system) systems connections}

/-- Every connection has a script. -/
theorem connectionScripts_nonempty (version : IPVersion) (system : SystemConnection) :
    (connectionScripts version system).Nonempty := by
  obtain ⟨connect, hconnect⟩ := connectScripts_nonempty version system
  obtain ⟨canSend, hcanSend⟩ := waitAnswers_nonempty system.canSendNow
  exact ⟨system.reported connect canSend [] [], rfl, hconnect, ⟨rfl, rfl⟩, hcanSend, nil_mem_scripts, nil_mem_scripts⟩

/-- So has every list of connections. -/
theorem chainScripts_nonempty (version : IPVersion) (systems : List SystemConnection) :
    (chainScripts version systems).Nonempty := by
  induction systems with
  | nil => exact ⟨[], .nil⟩
  | cons system systems ih =>
    obtain ⟨connection, hconnection⟩ := connectionScripts_nonempty version system
    obtain ⟨connections, hconnections⟩ := ih
    exact ⟨connection :: connections, .cons hconnection hconnections⟩

/-- The exchanges with the system refine those by scripts, by induction on the connections. -/
theorem refines_sendRequestOver (systems : List SystemConnection) :
    Program.Refines requestView p.monitor env
      (fun k s => Idle p version k s ∧ s.request.url_.isHttpScheme env.enableHttps = true)
      (Stack.sendRequestOver systems) (chainScripts version systems) sendRequestOver
      fun _ => Idle p version := by
  induction systems with
  | nil => exact .of_script (θ := []) .nil (.stop Set.univ_nonempty)
  | cons system systems ih =>
    have hT := chainScripts_nonempty version systems
    refine (refines_sendRequest hT (fun url => refines_redirect hT ih url) system).script ?_
    rintro ⟨connection, connections⟩ ⟨hconnection, hconnections⟩
    exact ⟨connection :: connections, .cons hconnection hconnections, rfl⟩

/-- **The worker over its sockets refines the worker over replies.** Every plug is carried along. -/
theorem refines_process (systems : List SystemConnection) :
    Program.Refines requestView p.monitor env (Idle p version) (Stack.process systems)
      (chainScripts version systems) process fun _ => Idle p version := by
  have hT := chainScripts_nonempty version systems
  have hidle : Blind (Idle p version) := blind_idle
  obtain ⟨θ, hθ⟩ := hT
  have hend (code : ResultCode) (errorCode : Int) : Program.Refines requestView p.monitor env (Idle p version)
      (within (handleErrorResponse code errorCode)) (chainScripts version systems)
      (fun _ => handleErrorResponse code errorCode) fun _ => Idle p version :=
    .of_script hθ (refines_end hidle (fun _ _ hs => hs) (.error _ _))
  unfold Stack.process process
  refine .bind_left ⟨θ, hθ⟩ refines_lift_state fun s => .ite (fun _ => ?_) fun _ => ?_
  · exact (hend _ _).conseq (fun _ _ hs => hs.2) fun _ _ _ hs => hs
  · refine .bind_left ⟨θ, hθ⟩ ((refines_parseUrl (fun info => info = s.info_) s.info_.url).conseq
      (fun _ _ hs => ⟨by rw [hs.1], hs.2⟩) fun _ _ _ hs => hs) fun _ => ?_
    refine .bind_left ⟨θ, hθ⟩ (refines_updateUrl (q := fun info => info = s.info_) (f := fun s => s.info_.url)
      fun t ht => by rw [ht]) fun _ => .bind_read ?_
    refine .bind_left ⟨θ, hθ⟩ refines_lift_state fun s => .ite (fun _ => ?_) fun _ => .ite (fun _ => ?_) fun hurl => ?_
    · exact (hend _ _).conseq (fun _ _ hs => hs.2) fun _ _ _ hs => hs
    · exact (hend _ _).conseq (fun _ _ hs => hs.2) fun _ _ _ hs => hs
    · refine (refines_sendRequestOver systems).conseq ?_ fun _ _ _ hs => hs
      rintro k t ⟨rfl, ht⟩
      exact ⟨ht, by simpa using hurl⟩

/-- A request from its start on, with any plug. -/
theorem plugged_process (p : Plug κ) {k : κ} (hk : p.idle k {} none) (env : Env) (systems : List SystemConnection)
    (info : RequestInfo) (handler : ResponseHandler) (now : UInt64) (cancelIn : Option Nat) :
    let r := (Stack.process systems).run env (.initial info handler now cancelIn)
    (∃ connections ∈ chainScripts info.ipVersion systems,
      requestView.Explains ((process connections).run env (.initial info handler now cancelIn)) r) ∧
    p.monitor.Accepts k r.events ∧
    (r.outcome = .ok () → Idle p info.ipVersion (p.monitor.after k r.events) r.state) := by
  have hidle : Idle p info.ipVersion k (.initial info handler now cancelIn) := ⟨⟨rfl, rfl⟩, hk⟩
  obtain ⟨connections, hconnections, hexplains, haccepts, hreturns⟩ :=
    refines_process systems k (.initial info handler now cancelIn) hidle
  exact ⟨⟨connections, hconnections, hexplains⟩, haccepts, hreturns ()⟩

/-- A request from its constructor to the end of its destructor, with any plug. -/
theorem plugged_lifetime (p : Plug κ) {k : κ} (hk : p.idle k {} none) (env : Env)
    (systems : List SystemConnection) (info : RequestInfo) (handler : ResponseHandler) (now : UInt64)
    (cancelIn : Option Nat) :
    let r := (Stack.lifetime systems).run env (.initial info handler now cancelIn)
    p.monitor.Accepts k r.events ∧
      (r.outcome = .ok () → ∃ url, p.idle (p.monitor.after k r.events) url none) := by
  obtain ⟨-, haccepts, hreturns⟩ := plugged_process p hk env systems info handler now cancelIn
  dsimp only [Stack.lifetime]
  rw [Program.run_bind]
  generalize (Stack.process systems).run env (.initial info handler now cancelIn) = r at haccepts hreturns
  obtain ⟨o, t, es⟩ := r
  cases o with
  | error _ => exact ⟨haccepts, nofun⟩
  | ok _ =>
    obtain ⟨-, hidle⟩ := hreturns rfl
    rw [Run.andThen_ok, Program.run_bind, run_freeSocket, Run.andThen_ok]
    simp only [View.run_lift, Program.run_update, List.map_nil, Run.prepend_mk, List.append_nil,
      Monitor.accepts_append, Monitor.after_append]
    cases hobject : t.object with
    | none =>
      rw [hobject] at hidle
      exact ⟨⟨haccepts, trivial⟩, fun _ => ⟨_, hidle⟩⟩
    | some object =>
      rw [hobject] at hidle
      obtain ⟨hfree, hfreed⟩ := p.freed _ _ _ hidle
      exact ⟨⟨haccepts, hfree⟩, fun _ => ⟨_, hfreed⟩⟩

/-- The plug of who only asks for an explanation. -/
def blindPlug : Plug Unit where
  monitor := ⟨fun _ _ => (), fun _ _ => True⟩
  idle _ _ _ := True
  used _ _ _ _ := True
  routine _ _ _ := ⟨trivial, rfl⟩
  parsed _ _ _ _ _ := ⟨trivial, trivial⟩
  freed _ _ _ _ := ⟨Monitor.accepts_of_forall fun _ _ _ => trivial, trivial⟩
  created _ _ _ _ _ := ⟨Monitor.accepts_of_forall fun _ _ _ => trivial, trivial⟩
  called _ _ _ _ _ _ _ := ⟨trivial, trivial⟩
  ended _ _ _ _ := trivial

/-- **Every run of the stack is explained by a run of the worker over replies** that its sockets make of what
`getaddrinfo`, `socket` and the calls of the sockets return. A run that waits in a call has shown how such a run
begins; any other shows all of it and ends alike. -/
theorem explained_process (env : Env) (systems : List SystemConnection) (info : RequestInfo)
    (handler : ResponseHandler) (now : UInt64) (cancelIn : Option Nat) :
    ∃ connections, List.Forall₂ (fun system connection => connection.Answers info.ipVersion system) systems
        connections ∧
      requestView.Explains ((process connections).run env (.initial info handler now cancelIn))
        ((Stack.process systems).run env (.initial info handler now cancelIn)) :=
  (plugged_process blindPlug (k := ()) trivial env systems info handler now cancelIn).1

end HttpRequest
