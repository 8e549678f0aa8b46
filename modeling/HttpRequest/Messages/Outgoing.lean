import HttpRequest.Lifecycle.Points
import HttpRequest.Messages.Transmission
import HttpRequest.Stack.Exchanges

/-! # What goes out in a run

An onlooker who knows how many bytes every call of `ISocket::send` takes can tell at any moment of a run which
request the server of the connection is to get, and how much of it it has got. Over any chain of redirects, and
wherever an exchange breaks off, every call goes on where the bytes taken so far end, and no answer is waited for
before the whole request has been taken (`goesOut_process`). -/

namespace HttpRequest

open Foundations

/-! ### The onlooker -/

/-- What the onlooker knows. -/
structure Onlooker where
  /-- The connections that are still to come. -/
  connections : List Connection
  /-- What the calls of `ISocket::send` to come are answered on the connection in use. -/
  sends : List SendReply
  info : RequestInfo
  url : Url
  /-- The request, once it has been begun on the connection in use. -/
  begun : Option Bytes
  /-- The bytes the connection in use has taken. -/
  accepted : Bytes

namespace Onlooker

/-- In front of a run. -/
def start (connections : List Connection) (info : RequestInfo) : Onlooker :=
  { connections, sends := [], info, url := {}, begun := none, accepted := [] }

variable (order : IterationOrder)

/-- The request the connection in use is to get. -/
def request (k : Onlooker) : Bytes := k.begun.getD (htmlEncode order k.info k.url).1

/-- `info_` behind the beginning of the request: `htmlEncode` has written into it. -/
def infoBehind (k : Onlooker) : RequestInfo :=
  match k.begun with
  | none => (htmlEncode order k.info k.url).2
  | some _ => k.info

/-- What the onlooker knows after an event. -/
def next (k : Onlooker) : Event → Onlooker
  | .call (.parseUrl text) => { k with url := Url.parse text }
  | .call (.newSocket _) =>
    { k with
      connections := k.connections.tail, sends := (k.connections.head?.map Connection.sends).getD []
      begun := none, accepted := [] }
  | .call (.send data) =>
    { k with
      sends := k.sends.tail, info := k.infoBehind order, begun := some (k.request order)
      accepted := k.accepted ++ (k.sends.head?.map fun reply => reply.taken data).getD [] }
  | .call _ | .callback _ | .returned _ | .cancelled => k

/-- What a call has to be where the onlooker stands. -/
def Expects (k : Onlooker) : Event → Prop
  | .call (.send data) => k.accepted ++ data = k.request order
  | .call (.canReceive _) | .call .receive => k.begun = some k.accepted
  | .call _ | .callback _ | .returned _ | .cancelled => True

/-- The onlooker as a monitor of the events. -/
def monitor : Monitor Onlooker Event := ⟨next order, Expects order⟩

/-- What the onlooker knows behind some events. -/
def behind (connections : List Connection) (info : RequestInfo) (es : List Event) : Onlooker :=
  es.foldl (next order) (start connections info)

/-- The bytes taken are the front of the request. -/
def Sound (k : Onlooker) : Prop := (k.begun = none → k.accepted = []) ∧ k.accepted <+: k.request order

variable {order}

/-- What a call takes is a front of what it was offered. -/
theorem taken_isPrefix (reply : Option SendReply) (data : Bytes) :
    (reply.map fun reply => reply.taken data).getD [] <+: data := by
  cases reply with
  | none => exact List.nil_prefix
  | some reply =>
    show reply.taken data <+: data
    unfold SendReply.taken
    split
    · exact data.take_prefix _
    · exact List.nil_prefix

/-- An expected call leaves the bytes taken a front of the request. -/
theorem Sound.next {k : Onlooker} {e : Event} (h : k.Sound order) (hexpects : k.Expects order e) :
    (k.next order e).Sound order := by
  have hfresh {k : Onlooker} (hbegun : k.begun = none) (haccepted : k.accepted = []) : k.Sound order :=
    ⟨fun _ => haccepted, haccepted ▸ List.nil_prefix⟩
  cases e with
  | call call =>
    cases call with
    | parseUrl text =>
      cases hbegun : k.begun with
      | none => exact hfresh hbegun (h.1 hbegun)
      | some request =>
        have hprefix := h.2
        rw [Onlooker.request, hbegun] at hprefix
        refine ⟨fun hnone => absurd (hbegun.symm.trans hnone) nofun, ?_⟩
        show k.accepted <+: k.begun.getD _
        rwa [hbegun]
    | newSocket => exact hfresh rfl rfl
    | send data =>
      refine ⟨nofun, ?_⟩
      have hoffer : k.accepted ++ data = k.request order := hexpects
      show k.accepted ++ _ <+: k.request order
      rw [← hoffer]
      exact (List.prefix_append_right_inj _).mpr (taken_isPrefix _ data)
    | getaddrinfo | connect | canSend | canReceive | receive => exact h
  | callback | returned | cancelled => exact h

end Onlooker

/-! ### The chart -/

/-- A call of `ISocket::send` that succeeds counts the bytes it has taken. -/
def SendReply.Counts (reply : SendReply) : Prop :=
  reply.result.isSuccess = true → 0 ≤ reply.sendSize ∧ reply.sendSize < 2 ^ 63

/-- A call that succeeds takes as many bytes as it says. -/
theorem SendReply.Counts.taken {reply : SendReply} (h : reply.Counts) (hsuccess : reply.result.isSuccess = true)
    (data : Bytes) : reply.taken data = data.take reply.size := by
  obtain ⟨hnonneg, hlt⟩ := h hsuccess
  have hmod : reply.sendSize % 2 ^ 64 = reply.sendSize := Int.emod_eq_of_lt hnonneg (by omega)
  rw [SendReply.taken, if_pos hsuccess, SendReply.size, hmod]

/-- What the onlooker knows of the exchange where the worker stands at a point, with `info_` as it is there. -/
def Point.Known (order : IterationOrder) (site : List Connection) (k : Onlooker) (info : RequestInfo) : Point → Prop
  | .entered | .parsed | .found => k.connections = site ∧ k.info = info
  | .created | .connected | .writable =>
    k.connections = site.tail ∧ k.info = info ∧ k.sends = (site.head?.map Connection.sends).getD [] ∧
      k.begun = none ∧ k.accepted = []
  | .sending sends dataView =>
    k.connections = site.tail ∧ k.infoBehind order = info ∧ k.sends = sends ∧
      k.accepted ++ dataView = k.request order
  | .offered sends dataView =>
    k.connections = site.tail ∧ k.info = info ∧ k.sends = sends.tail ∧ ∃ accepted,
      k.accepted = accepted ++ (sends.head?.map fun reply => reply.taken dataView).getD [] ∧
        k.begun = some (accepted ++ dataView)
  | .waiting | .valid | .awaited | .received =>
    k.connections = site.tail ∧ k.info = info ∧ k.begun = some k.accepted

/-- All replies of a connection count what they have taken. -/
def Connection.Counts (connection : Connection) : Prop := ∀ reply ∈ connection.sends, reply.Counts

/-- The replies that are left at a point. -/
def Point.sends : Point → List SendReply
  | .sending sends _ | .offered sends _ => sends
  | _ => []

/-- What the onlooker knows at the points. -/
structure OutgoingAt (order : IterationOrder) (site : List Connection) (point : Point) (k : Onlooker) (_ : Bool)
    (url : Url) (info : RequestInfo) : Prop where
  counts : ∀ connection ∈ site, connection.Counts
  left : ∀ reply ∈ point.sends, reply.Counts
  url : k.url = url
  known : point.Known order site k info

section

variable {order : IterationOrder} {connection : Connection} {site : List Connection} {point point' : Point}
  {k : Onlooker} {valid : Bool} {url : Url} {info : RequestInfo}

/-- A call of the worker is the one the onlooker expects. -/
theorem OutgoingAt.call {call : Call} (h : OutgoingAt order (connection :: site) point k valid url info)
    (hleads : point.Leads call point') : k.Expects order (.call call) ∧
      OutgoingAt order (connection :: site) point' (k.next order (.call call)) valid url info := by
  obtain ⟨hcounts, hleft, hurl, hknown⟩ := h
  cases hleads with
  | getaddrinfo | connect | canSend => exact ⟨trivial, hcounts, nofun, hurl, hknown⟩
  | newSocket socket =>
    obtain ⟨hconnections, hinfo⟩ := hknown
    refine ⟨trivial, hcounts, nofun, hurl, ?_⟩
    show k.connections.tail = _ ∧ k.info = info ∧ (k.connections.head?.map Connection.sends).getD [] = _ ∧ _
    rw [hconnections]
    exact ⟨rfl, hinfo, rfl, rfl, rfl⟩
  | send sends dataView =>
    obtain ⟨hconnections, hinfo, hsends, hoffer⟩ := hknown
    refine ⟨hoffer, hcounts, hleft, hurl, hconnections, hinfo, congrArg List.tail hsends, k.accepted, ?_, ?_⟩
    · show k.accepted ++ (k.sends.head?.map _).getD [] = _
      rw [hsends]
    · exact congrArg some hoffer.symm
  | canReceive | receive => exact ⟨hknown.2.2, hcounts, nofun, hurl, hknown⟩

/-- A request is begun with the whole of its encoding. -/
theorem OutgoingAt.encoded (h : OutgoingAt order (connection :: site) .writable k valid url info) :
    OutgoingAt order (connection :: site) (.sending connection.sends (htmlEncode order info url).1) k valid url
      (htmlEncode order info url).2 := by
  obtain ⟨hcounts, -, rfl, hconnections, rfl, hsends, hbegun, haccepted⟩ := h
  refine ⟨hcounts, hcounts _ List.mem_cons_self, rfl, hconnections, ?_, hsends, ?_⟩
  · rw [Onlooker.infoBehind, hbegun]
  · rw [haccepted, Onlooker.request, hbegun]
    rfl

/-- What a successful call has not taken is what has to be offered next. -/
theorem OutgoingAt.resumed {reply : SendReply} {sends : List SendReply} {dataView : Bytes}
    (h : OutgoingAt order site (.offered (reply :: sends) dataView) k valid url info)
    (hsuccess : reply.result.isSuccess = true) :
    OutgoingAt order site (.sending sends (dataView.drop reply.size)) k valid url info := by
  obtain ⟨hcounts, hleft, hurl, hconnections, hinfo, hsends, accepted, haccepted, hbegun⟩ := h
  obtain ⟨hreply, hleft⟩ := List.forall_mem_cons.mp hleft
  have htaken : k.accepted = accepted ++ dataView.take reply.size :=
    haccepted.trans (congrArg (accepted ++ ·) (hreply.taken hsuccess dataView))
  refine ⟨hcounts, hleft, hurl, hconnections, ?_, hsends, ?_⟩
  · rw [Onlooker.infoBehind, hbegun]
    exact hinfo
  · rw [htaken, List.append_assoc, List.take_append_drop, Onlooker.request, hbegun]
    rfl

/-- A call that takes all that is left completes the request. -/
theorem OutgoingAt.sent {reply : SendReply} {sends : List SendReply} {dataView : Bytes}
    (h : OutgoingAt order site (.offered (reply :: sends) dataView) k valid url info)
    (hsuccess : reply.result.isSuccess = true) (hsize : dataView.length ≤ reply.size) :
    OutgoingAt order site .waiting k valid url info := by
  obtain ⟨hcounts, hleft, hurl, hconnections, hinfo, -, accepted, haccepted, hbegun⟩ := h
  have hreply : reply.Counts := hleft reply List.mem_cons_self
  have htaken : k.accepted = accepted ++ dataView.take reply.size :=
    haccepted.trans (congrArg (accepted ++ ·) (hreply.taken hsuccess dataView))
  rw [List.take_of_length_le hsize] at htaken
  exact ⟨hcounts, nofun, hurl, hconnections, hinfo, hbegun.trans (congrArg some htaken.symm)⟩

end

/-- What the onlooker knows at the points follows every move between them. -/
theorem charts_outgoingAt (order : IterationOrder) : Charts (Onlooker.monitor order) order (OutgoingAt order) where
  cancelled h := ⟨trivial, h.counts, h.left, h.url, h.known⟩
  returned _ h := ⟨trivial, h⟩
  callback _ h := ⟨trivial, h⟩
  error _ _ h := ⟨trivial, h⟩
  parsed h := ⟨trivial, h.counts, nofun, rfl, h.known⟩
  call hleads h := h.call hleads
  encoded h := h.encoded
  resumed hsuccess h := h.resumed hsuccess
  sent hsuccess hsize h := h.sent hsuccess hsize
  valid h := ⟨h.counts, nofun, h.url, h.known⟩
  again h := ⟨h.counts, nofun, h.url, h.known⟩
  passed h := ⟨h.counts, nofun, h.url, h.known⟩
  redirected _ h := ⟨trivial, (List.forall_mem_cons.mp h.counts).2, nofun, rfl, h.known.1, h.known.2.1⟩

/-! ### Whole runs -/

/-- **What goes out in a run** over some connections. -/
structure GoesOut (order : IterationOrder) (connections : List Connection) (info : RequestInfo) (es : List Event) :
    Prop where
  /-- At every moment a prefix of the request has been taken. -/
  prefixes : ∀ front, front <+: es →
    (Onlooker.behind order connections info front).accepted <+:
      (Onlooker.behind order connections info front).request order
  /-- A call offers exactly what is left of the request. -/
  offers : ∀ front data rest, es = front ++ .call (.send data) :: rest →
    (Onlooker.behind order connections info front).accepted ++ data =
      (Onlooker.behind order connections info front).request order
  /-- An answer is waited for and received behind the whole of the request. -/
  answers : ∀ front call rest, es = front ++ .call call :: rest →
    (∃ timeout, call = .canReceive timeout) ∨ call = .receive →
      (Onlooker.behind order connections info front).begun =
        some (Onlooker.behind order connections info front).accepted

/-- Before the first call nothing has been taken. -/
theorem Onlooker.sound_start (order : IterationOrder) (connections : List Connection) (info : RequestInfo) :
    (start connections info).Sound order := ⟨fun _ => rfl, List.nil_prefix⟩

/-- Events that the onlooker accepts send the request as it should be sent. -/
theorem goesOut_of_accepts {order : IterationOrder} {connections : List Connection} {info : RequestInfo}
    {es : List Event} (h : (Onlooker.monitor order).Accepts (.start connections info) es) :
    GoesOut order connections info es where
  prefixes := by
    rintro front ⟨rest, rfl⟩
    have hfront := ((Onlooker.monitor order).accepts_append _ front rest).mp h
    exact (hfront.1.invariant (fun _ _ hs => hs.next) (Onlooker.sound_start order connections info)).2
  offers := by
    rintro front data rest rfl
    exact h.allows
  answers := by
    rintro front call rest rfl (⟨timeout, rfl⟩ | rfl)
    · exact h.allows
    · exact h.allows

/-- The onlooker accepts every run over connections that count what they have taken. -/
theorem accepts_outgoing (env : Env) {connections : List Connection}
    (hconnections : ∀ connection ∈ connections, connection.Counts) (info : RequestInfo) (handler : ResponseHandler)
    (now : UInt64) (cancelIn : Option Nat) :
    (Onlooker.monitor env.order).Accepts (.start connections info)
      ((process connections).run env (.initial info handler now cancelIn)).events := by
  have hentered : Chart.here (OutgoingAt env.order) connections .entered (.start connections info)
      (.initial info handler now cancelIn) := ⟨hconnections, nofun, rfl, rfl, rfl⟩
  exact ((charts_outgoingAt env.order).process connections _ _ hentered).1

/-- **Every server gets its request**, whatever the connections answer, over any chain of redirects and wherever
`cancel()` comes: a prefix of it at every moment, every byte once, and all of it in front of the first wait for an
answer. -/
theorem goesOut_process (env : Env) (connections : List Connection)
    (hconnections : ∀ connection ∈ connections, connection.Counts) (info : RequestInfo) (handler : ResponseHandler)
    (now : UInt64) (cancelIn : Option Nat) :
    GoesOut env.order connections info ((process connections).run env (.initial info handler now cancelIn)).events :=
  goesOut_of_accepts (accepts_outgoing env hconnections info handler now cancelIn)

/-- A connection that breaks off behind the first three bytes of the request. -/
def brokenHop : Connection :=
  { lastHop with sends := [⟨{}, 3, 0⟩, ⟨{ resultCode := .Failed, errorCode := 32 }, 0, 0⟩] }

/-- A redirect whose target breaks off. -/
theorem goesOut_process_broken :
    let r := (process [circularHop, brokenHop]).run .plain (.initial circularRequest .all 0 none)
    offered r.events = [bytes "GET / HTTP/1.1\r\nHost: a\r\n\r\n", bytes "GET / HTTP/1.1\r\nHost: a\r\n\r\n",
      bytes " / HTTP/1.1\r\nHost: a\r\n\r\n"] ∧
      GoesOut .latestFirst [circularHop, brokenHop] circularRequest r.events := by
  refine ⟨by rfl, goesOut_process .plain [circularHop, brokenHop] ?_ circularRequest .all 0 none⟩
  unfold Connection.Counts SendReply.Counts
  decide

/-! ### Over sockets -/

/-- The calls of `::send` and `SSL_write` on a connection return what they may, for the bytes `ISocket::send` is
offered. -/
def SystemConnection.SendsInRange (system : SystemConnection) : Prop :=
  ∀ send ∈ system.sends, ∃ size, ∀ outcome ∈ send.outcomes, outcome.OfSend size

/-- A successful `send` counts what its calls have taken. -/
theorem SendReply.Answers.counts {system : SystemSend} {reply : SendReply} (h : reply.Answers system) {size : Nat}
    (hrange : ∀ outcome ∈ system.outcomes, outcome.OfSend size) : reply.Counts := by
  intro hsuccess
  obtain ⟨kind, hsent⟩ := h.sent
  have hsize := hsent.size_pos_le hsuccess hrange
  dsimp only at hsize
  omega

/-- A connection that the system answers counts what it takes, where the system's calls do. -/
theorem Connection.Answers.counts {version : IPVersion} {system : SystemConnection} {connection : Connection}
    (h : connection.Answers version system) (hrange : system.SendsInRange) : connection.Counts := by
  intro reply hreply
  obtain ⟨send, hsend, hanswers⟩ := answers_of_mem h.sends hreply
  obtain ⟨size, hsize⟩ := hrange send hsend
  exact hanswers.counts hsize

/-- **Over sockets, too, every server gets its request**, whatever else the system answers. -/
theorem goesOut_stack (env : Env) (systems : List SystemConnection)
    (hsystems : ∀ system ∈ systems, system.SendsInRange) (info : RequestInfo) (handler : ResponseHandler)
    (now : UInt64) (cancelIn : Option Nat) :
    ∃ connections, List.Forall₂ (fun system connection => connection.Answers info.ipVersion system) systems
        connections ∧
      GoesOut env.order connections info
        (requestView.events ((Stack.process systems).run env (.initial info handler now cancelIn)).events) := by
  obtain ⟨⟨connections, hconnections, hexplains⟩, -⟩ :=
    plugged_process blindPlug (k := ()) trivial env systems info handler now cancelIn
  have hcounts : ∀ connection ∈ connections, connection.Counts := by
    intro connection hconnection
    obtain ⟨system, hsystem, hanswers⟩ :=
      answers_of_mem ⟨systems, List.prefix_rfl, hconnections⟩ hconnection
    exact hanswers.counts (hsystems system hsystem)
  refine ⟨connections, hconnections, goesOut_of_accepts ?_⟩
  -- what is seen of a run that waits is how the run over replies begins
  obtain ⟨rest, hrest⟩ := hexplains.events_isPrefix
  have haccepts := accepts_outgoing env hcounts info handler now cancelIn
  rw [← hrest, Monitor.accepts_append] at haccepts
  exact haccepts.1

end HttpRequest
