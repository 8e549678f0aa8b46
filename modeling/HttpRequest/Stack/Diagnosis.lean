import HttpRequest.Lifecycle.Points
import HttpRequest.Stack.Exchanges

/-! # What an error says

`onError` is given a code that belongs to what the request has done last: the call behind which the code is
reported decides which codes it can be (`errorCodes`). An address of another family than the one that was asked
for is reported only where a lookup has found one. -/

namespace HttpRequest

open Foundations

/-! ### Codes and calls -/

/-- The codes that can be reported behind a call, or in front of the first one. -/
def errorCodes : Option Call → List ResultCode
  | none => [.MethodError]
  | some (.parseUrl _) => [.UrlInvalid, .SchemeNotSupported, .RedirectError]
  | some (.getaddrinfo _ _ _) => [.GetAddressFailed]
  | some (.newSocket _) => [.Timeout]
  | some (.connect _) => [.CreateSocketFailed, .GetFlagsFailed, .SetFlagsFailed, .SetNoSigPipeFailed, .Timeout,
      .ConnectGenericError, .Retry, .Failed, .Disconnected]
  | some (.canSend _) | some (.canReceive _) => [.Timeout, .Retry, .Failed]
  | some (.send _) => [.Failed, .RetryReachMaxCount, .Disconnected]
  | some .receive => [.Failed, .RetryReachMaxCount, .ChunkSizeError, .RedirectError, .RedirectReachMaxCount]

/-- A failure has another code than a success. -/
theorem resultCode_ne_Success {result : SocketResult} (hfailed : ¬result.isSuccess = true) :
    result.resultCode ≠ .Success :=
  fun hcode => hfailed (beq_iff_eq.mpr hcode)

/-- A failed `connect` is reported with one of its own codes. -/
theorem mem_errorCodes_connect {code : ResultCode} (hcode : code ∈ connectCodes) (hne : code ≠ .Success)
    (timeout : Int) : code ∈ errorCodes (some (.connect timeout)) := by
  revert hcode hne
  cases code <;> simp [connectCodes, configCodes, checkedCodes, selectCodes, errorCodes]

/-- So is a failed `receive`. -/
theorem mem_errorCodes_receive {code : ResultCode} (hcode : code ∈ receiveCodes) (hne : code ≠ .Success)
    (hretry : code ≠ .Retry) (hcompleted : ¬(code = .Completed ∨ code = .Disconnected)) :
    code ∈ errorCodes (some .receive) := by
  revert hcode hne hretry hcompleted
  cases code <;> simp [receiveCodes, errorCodes]

/-- Whether a call looks up a host. -/
def Call.looksUp : Call → Bool
  | .getaddrinfo _ _ _ => true
  | .parseUrl _ | .newSocket _ | .connect _ | .canSend _ | .send _ | .canReceive _ | .receive => false

/-- The number of lookups among some calls. -/
def lookupCount (made : List Call) : Nat := made.countP Call.looksUp

/-- The lookups of a concatenation are counted together. -/
theorem lookupCount_append (made made' : List Call) :
    lookupCount (made ++ made') = lookupCount made + lookupCount made' :=
  List.countP_append

/-- A lookup has found an address of another family than the one that was asked for. -/
def SystemConnection.Inconsistent (version : IPVersion) (system : SystemConnection) : Prop :=
  ∃ family, system.family = some family ∧ ¬family.Conforms version

/-- The last of the lookups that have been made has found an address of another family. -/
def LastInconsistent (version : IPVersion) (systems : List SystemConnection) (made : List Call) : Prop :=
  ∃ system, (systems.take (lookupCount made)).getLast? = some system ∧ system.Inconsistent version

/-- **A code may be reported behind the calls that have been made**: it belongs to the last of them. -/
def Belongs (version : IPVersion) (systems : List SystemConnection) (made : List Call) (code : ResultCode) : Prop :=
  code ∈ errorCodes made.getLast? ∨
    (∃ timeout, made.getLast? = some (.connect timeout)) ∧ code = .ConnectTypeInconsistent ∧
      LastInconsistent version systems made

/-- The calls that have been made, after an event. -/
def nextCalls (made : List Call) : Event → List Call
  | .call call => made ++ [call]
  | .callback _ | .returned _ | .cancelled => made

/-- The monitor collects the calls. -/
theorem foldl_nextCalls (es : List Event) (made : List Call) : es.foldl nextCalls made = made ++ calls es := by
  induction es generalizing made with
  | nil => exact (List.append_nil made).symm
  | cons e es ih =>
    rw [List.foldl_cons, ih]
    cases e with
    | call call => exact List.append_assoc made [call] (calls es)
    | callback | returned | cancelled => rfl

/-- The monitor that knows the calls that have been made, and asks the codes to belong to them. -/
def codeMonitor (version : IPVersion) (systems : List SystemConnection) : Monitor (List Call) Event where
  next := nextCalls
  allows made e := ∀ code errorCode, e = .callback (.onError code errorCode) → Belongs version systems made code

/-! ### The chart -/

/-- What the last call has been where the worker stands at a point. -/
def Point.Behind : Point → Option Call → Prop
  | .entered, last => last = none
  | .parsed, last => ∃ text, last = some (.parseUrl text)
  | .found, last => ∃ host port ipVersion, last = some (.getaddrinfo host port ipVersion)
  | .created, last => ∃ socket, last = some (.newSocket socket)
  | .connected, last => ∃ timeout, last = some (.connect timeout)
  | .writable, last => ∃ timeout, last = some (.canSend timeout)
  | .offered _ dataView, last => last = some (.send dataView)
  | .awaited, last => ∃ timeout, last = some (.canReceive timeout)
  | .received, last => last = some .receive
  | .sending _ _, _ | .waiting, _ | .valid, _ => True

/-- Behind a call the worker is at the point it leads to. -/
theorem Point.Leads.behind {point point' : Point} {call : Call} (h : point.Leads call point') :
    point'.Behind (some call) := by
  cases h with
  | getaddrinfo host port ipVersion => exact ⟨host, port, ipVersion, rfl⟩
  | newSocket socket => exact ⟨socket, rfl⟩
  | connect timeout | canSend timeout | canReceive timeout => exact ⟨timeout, rfl⟩
  | send | receive => rfl

/-- The lookups of the exchange where the worker stands. -/
def Point.lookups : Point → Nat
  | .entered | .parsed => 0
  | .found | .created | .connected | .writable | .sending _ _ | .offered _ _ | .waiting | .valid | .awaited
  | .received => 1

/-- A call counts as a lookup where it is one. -/
theorem Point.Leads.lookups {point point' : Point} {call : Call} (h : point.Leads call point') :
    point'.lookups = point.lookups + lookupCount [call] := by
  cases h <;> rfl

section

variable {version : IPVersion} {systems : List SystemConnection} {site : List Connection} {point : Point}
  {made : List Call} {code : ResultCode}

/-- The connections from the one in use on answer what the system does behind the lookups of the exchanges that
are over. -/
def Reaches (version : IPVersion) (systems : List SystemConnection) (site : List Connection) (point : Point)
    (made : List Call) : Prop :=
  ∃ past rest, systems = past ++ rest ∧
    List.Forall₂ (fun system connection => connection.Answers version system) rest site ∧
      lookupCount made = past.length + point.lookups

/-- The calls that have been made lead to the point. -/
def codeChart (version : IPVersion) (systems : List SystemConnection) : Chart (List Call) :=
  fun site point made _ _ _ => Reaches version systems site point made ∧ point.Behind made.getLast?

/-- The connection in use is the one the last lookup has been for. -/
theorem Reaches.last {connection : Connection} (h : Reaches version systems (connection :: site) point made)
    (hpoint : point.lookups = 1) :
    ∃ system, (systems.take (lookupCount made)).getLast? = some system ∧ connection.Answers version system := by
  obtain ⟨past, rest, rfl, hrest, hmade⟩ := h
  cases hrest with
  | cons hfirst _ =>
    refine ⟨_, ?_, hfirst⟩
    rw [hmade, hpoint, List.take_length_add_append]
    simp

/-- Another call of the exchange. -/
theorem Reaches.call {point' : Point} {call : Call} (h : Reaches version systems site point made)
    (hleads : point.Leads call point') : Reaches version systems site point' (made ++ [call]) := by
  obtain ⟨past, rest, hsystems, hrest, hmade⟩ := h
  exact ⟨past, rest, hsystems, hrest, by rw [lookupCount_append, hmade, hleads.lookups, Nat.add_assoc]⟩

/-- A redirect leaves the connection in use behind. -/
theorem Reaches.redirected {connection : Connection} (h : Reaches version systems (connection :: site) .received made)
    (text : Bytes) : Reaches version systems site .parsed (made ++ [.parseUrl text]) := by
  obtain ⟨past, rest, rfl, hrest, hmade⟩ := h
  cases hrest with
  | @cons system _ systems _ _ hrest =>
    refine ⟨past ++ [system], systems, by simp, hrest, ?_⟩
    rw [lookupCount_append, hmade, List.length_append]
    rfl

/-- The codes of a wait that has not succeeded. -/
theorem mem_errorCodes_wait {result : SocketResult} (hresult : result.resultCode ∈ selectCodes)
    (hfailed : ¬result.isSuccess = true) : result.resultCode ∈ [ResultCode.Timeout, .Retry, .Failed] :=
  (List.mem_cons.mp hresult).resolve_left (resultCode_ne_Success hfailed)

/-- What is reported at a point belongs to the call behind which it is reported. -/
theorem belongs_of_reports (hreaches : Reaches version systems site point made) (hreports : Reports site point code)
    (hbehind : point.Behind made.getLast?) : Belongs version systems made code := by
  unfold Belongs
  cases hreports with
  | method =>
    rw [show made.getLast? = none from hbehind]
    exact .inl (by simp [errorCodes])
  | url | scheme | target =>
    obtain ⟨text, hlast⟩ := hbehind
    rw [hlast]
    exact .inl (by simp [errorCodes])
  | lookup =>
    obtain ⟨host, port, ipVersion, hlast⟩ := hbehind
    rw [hlast]
    exact .inl (by simp [errorCodes])
  | late =>
    obtain ⟨socket, hlast⟩ := hbehind
    rw [hlast]
    exact .inl (by simp [errorCodes])
  | connect hfailed =>
    obtain ⟨timeout, hlast⟩ := hbehind
    obtain ⟨system, hsystem, hanswers⟩ := hreaches.last rfl
    rw [hlast]
    rcases hanswers.connect with hcode | ⟨hcode, hinconsistent⟩
    · exact .inl (mem_errorCodes_connect hcode (resultCode_ne_Success hfailed) timeout)
    · exact .inr ⟨⟨timeout, rfl⟩, hcode, system, hsystem, hinconsistent⟩
  | canSend hfailed =>
    obtain ⟨timeout, hlast⟩ := hbehind
    obtain ⟨system, -, hanswers⟩ := hreaches.last rfl
    rw [hlast]
    exact .inl (mem_errorCodes_wait hanswers.canSend.code hfailed)
  | send hreply hfailed =>
    obtain ⟨system, -, hanswers⟩ := hreaches.last rfl
    obtain ⟨_, -, ⟨kind, hsent⟩, -⟩ := answers_of_mem hanswers.sends hreply
    rw [show made.getLast? = some (.send _) from hbehind]
    exact .inl ((List.mem_cons.mp hsent.code).resolve_left (resultCode_ne_Success hfailed))
  | wait hround hwait hfailed =>
    obtain ⟨timeout, hlast⟩ := hbehind
    obtain ⟨system, -, hanswers⟩ := hreaches.last rfl
    obtain ⟨_, -, hwaits, -⟩ := answers_of_mem hanswers.rounds hround
    obtain ⟨_, -, hreply⟩ := answers_of_mem hwaits hwait
    rw [hlast]
    exact .inl (mem_errorCodes_wait hreply.code hfailed)
  | receive hround hfailed hretry hcompleted =>
    obtain ⟨system, -, hanswers⟩ := hreaches.last rfl
    obtain ⟨_, -, -, hreply⟩ := answers_of_mem hanswers.rounds hround
    rw [show made.getLast? = some .receive from hbehind]
    exact .inl (mem_errorCodes_receive hreply.received.code (resultCode_ne_Success hfailed) hretry hcompleted)
  | sizeLine | location | limit =>
    rw [show made.getLast? = some .receive from hbehind]
    exact .inl (by simp [errorCodes])

/-- Only the code of an error is asked about. -/
theorem allows_codeMonitor {e : Event} (he : ∀ code errorCode, e ≠ .callback (.onError code errorCode)) :
    (codeMonitor version systems).allows made e :=
  fun code errorCode heq => absurd heq (he code errorCode)

/-- What is known of the calls follows every move between the points. -/
theorem charts_codeChart (version : IPVersion) (systems : List SystemConnection) (order : IterationOrder) :
    Charts (codeMonitor version systems) order (codeChart version systems) where
  cancelled h := ⟨allows_codeMonitor nofun, h⟩
  returned _ h := ⟨allows_codeMonitor nofun, h⟩
  callback hcallback h := by
    refine ⟨allows_codeMonitor ?_, h⟩
    rintro code errorCode ⟨⟩
    cases hcallback
  error errorCode hreports h := by
    refine ⟨?_, h⟩
    rintro code errorCode ⟨⟩
    exact belongs_of_reports h.1 hreports h.2
  parsed h := by
    obtain ⟨⟨past, rest, hsystems, hrest, hmade⟩, -⟩ := h
    refine ⟨allows_codeMonitor nofun, ⟨past, rest, hsystems, hrest, ?_⟩, _, List.getLast?_concat⟩
    show lookupCount (_ ++ [_]) = _
    rw [lookupCount_append, hmade]
    rfl
  call hleads h := by
    refine ⟨allows_codeMonitor nofun, h.1.call hleads, ?_⟩
    show Point.Behind _ (_ ++ [_]).getLast?
    rw [List.getLast?_concat]
    exact hleads.behind
  encoded h := ⟨h.1, trivial⟩
  resumed _ h := ⟨h.1, trivial⟩
  sent _ _ h := ⟨h.1, trivial⟩
  valid h := ⟨h.1, trivial⟩
  again h := ⟨h.1, trivial⟩
  passed h := ⟨h.1, trivial⟩
  redirected text h := ⟨allows_codeMonitor nofun, h.1.redirected text, _, List.getLast?_concat⟩

/-- Neither a success nor the lack of an address belongs to any call. -/
theorem Belongs.ne (h : Belongs version systems made code) :
    code ≠ .Success ∧ code ≠ .Completed ∧ code ≠ .ConnectAddressError := by
  have hnone (code : ResultCode) (hcode : code = .Success ∨ code = .Completed ∨ code = .ConnectAddressError) :
      ¬Belongs version systems made code := by
    rintro (h | ⟨-, rfl, -⟩)
    · generalize made.getLast? = last at h
      rcases last with _ | call
      · rcases hcode with rfl | rfl | rfl <;> simp [errorCodes] at h
      · rcases hcode with rfl | rfl | rfl <;> cases call <;> simp [errorCodes] at h
    · simp at hcode
  exact ⟨fun heq => hnone code (.inl heq) h, fun heq => hnone code (.inr (.inl heq)) h,
    fun heq => hnone code (.inr (.inr heq)) h⟩

end

/-! ### Runs of the stack -/

/-- Every error among the events has a code that belongs to the calls in front of it; none has one that says that
something has succeeded or that there was no address. -/
def Diagnosed (version : IPVersion) (systems : List SystemConnection) (es : List StackEvent) : Prop :=
  ∀ front code errorCode rest, es = front ++ .request (.callback (.onError code errorCode)) :: rest →
    Belongs version systems (calls (requestView.events front)) code ∧
      code ≠ .Success ∧ code ≠ .Completed ∧ code ≠ .ConnectAddressError

/-- **What an error of a request says**, whatever the system answers: its code belongs to the last call that has
been made, and it says that an address is of another family only where the last lookup has found one. -/
theorem diagnosed_process (env : Env) (systems : List SystemConnection) (info : RequestInfo)
    (handler : ResponseHandler) (now : UInt64) (cancelIn : Option Nat) :
    Diagnosed info.ipVersion systems
      ((Stack.process systems).run env (.initial info handler now cancelIn)).events := by
  obtain ⟨⟨connections, hconnections, hexplains⟩, -⟩ :=
    plugged_process blindPlug (k := ()) trivial env systems info handler now cancelIn
  intro front code errorCode rest hevents
  have hwatch := (charts_codeChart info.ipVersion systems env.order).process connections
  -- the error is seen behind what is seen of the events in front of it
  obtain ⟨rest', hrest'⟩ := hexplains.events_isPrefix
  rw [hevents, View.events_append] at hrest'
  have hsplit : ((process connections).run env (.initial info handler now cancelIn)).events =
      requestView.events front ++ .callback (.onError code errorCode) :: (requestView.events rest ++ rest') := by
    rw [← hrest', List.append_assoc]
    rfl
  have hentered : Reaches info.ipVersion systems connections .entered [] :=
    ⟨[], systems, rfl, hconnections, rfl⟩
  have hallows := hwatch.allows (k := []) ⟨hentered, rfl⟩ hsplit code errorCode rfl
  have hmade : (codeMonitor info.ipVersion systems).after [] (requestView.events front) =
      calls (requestView.events front) := foldl_nextCalls _ _
  rw [hmade] at hallows
  exact ⟨hallows, hallows.ne⟩

end HttpRequest
