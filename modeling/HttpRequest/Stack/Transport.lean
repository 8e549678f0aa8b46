import HttpRequest.Stack.Descriptors

/-! # The transport of a run

Which calls of the system a run may make is decided by the URL it has parsed last: the calls that carry
plaintext follow a URL that is not `https`, those of TLS one that is (`transport_lifetime`). The socket of the
last URL is still freed behind the next one. -/

namespace HttpRequest

open Foundations

/-- The URL a run is for, after an event. -/
def nextUrl (url : Url) : StackEvent → Url
  | .request (.call (.parseUrl text)) => Url.parse text
  | .request _ | .created _ _ | .system _ _ => url

/-- The URL that has been parsed last. -/
def parsedLast (es : List StackEvent) : Url := es.foldl nextUrl {}

/-- What happens for a URL: sockets of its class are created, and calls of that class are made. Only the freeing
of a socket may be that of another class. -/
def Conveys (url : Url) : StackEvent → Prop
  | .created kind _ => kind = kindOf url
  | .system _ call => call.fits (kindOf url) = true ∨ call = .SSL_free
  | .request _ => True

/-- The monitor of the URL and of what happens for it. -/
def transportMonitor : Monitor Url StackEvent := ⟨nextUrl, Conveys⟩

/-- Without a parse the URL stays. -/
theorem nextUrl_of_not_parsesUrl {e : Event} (h : e.parsesUrl = false) (url : Url) :
    nextUrl url (.request e) = url := by
  cases e with
  | call call =>
    cases call with
    | parseUrl text => cases h
    | getaddrinfo | newSocket | connect | canSend | send | canReceive | receive => rfl
  | callback | returned | cancelled => rfl

/-- The calls that free an object are made for any URL. -/
theorem conveys_freeEvents (url : Url) (object : ISocket) :
    transportMonitor.Accepts url (freeEvents object) ∧ transportMonitor.after url (freeEvents object) = url := by
  obtain ⟨kind, version, socket, ssl⟩ := object
  cases kind with
  | PlainSocket =>
    cases socket with
    | none => exact ⟨trivial, rfl⟩
    | some fd => exact ⟨⟨.inl rfl, trivial⟩, rfl⟩
  | TSLSocket =>
    cases ssl with
    | none => exact ⟨trivial, rfl⟩
    | some ssl => exact ⟨⟨.inr rfl, trivial⟩, rfl⟩

/-- Freeing the object is always in order. -/
theorem conveys_freed (url : Url) (object : Option ISocket) :
    transportMonitor.Accepts url ((object.map freeEvents).getD []) ∧
      transportMonitor.after url ((object.map freeEvents).getD []) = url := by
  cases object with
  | none => exact ⟨trivial, rfl⟩
  | some object => exact conveys_freeEvents url object

/-- The transport of a run: the monitor knows its URL, and an object in use is of its class. -/
def transportPlug : Plug Url where
  monitor := transportMonitor
  idle k url _ := k = url
  used k url kind _ := k = url ∧ kind = kindOf url
  routine k e he := ⟨trivial, nextUrl_of_not_parsesUrl he k⟩
  parsed _ _ _ _ _ := ⟨trivial, rfl⟩
  freed k url object h := by
    obtain ⟨haccepts, hafter⟩ := conveys_freeEvents k object
    exact ⟨haccepts, hafter.trans h⟩
  created k url object fd h := by
    subst h
    obtain ⟨haccepts, hafter⟩ := conveys_freed k object
    exact ⟨⟨rfl, haccepts⟩, hafter, rfl⟩
  called k url kind fd call h hcall := by
    obtain ⟨rfl, rfl⟩ := h
    exact ⟨.inl hcall.1, rfl, rfl⟩
  ended _ _ _ h := h.1

/-- A call behind some events of a run is one for the URL they have parsed last. -/
theorem fits_of_lifetime {env : Env} {systems : List SystemConnection} {info : RequestInfo}
    {handler : ResponseHandler} {now : UInt64} {cancelIn : Option Nat} {front rest : List StackEvent}
    {fd : Option Nat} {call : Syscall}
    (hevents : ((Stack.lifetime systems).run env (.initial info handler now cancelIn)).events =
      front ++ .system fd call :: rest) (hne : call ≠ .SSL_free) :
    call.fits (kindOf (parsedLast front)) = true := by
  obtain ⟨haccepts, -⟩ := plugged_lifetime transportPlug (k := {}) rfl env systems info handler now cancelIn
  have hsplit : transportMonitor.Accepts {} (front ++ .system fd call :: rest) := hevents ▸ haccepts
  have hconveys : call.fits (kindOf (parsedLast front)) = true ∨ call = .SSL_free := hsplit.allows
  exact hconveys.resolve_right hne

/-- **The transport of a request**, with the URL it has parsed last when a call is made: `::send` and `::recv`
are called for a URL that is not `https`, `SSL_connect`, `SSL_write`, `SSL_read` and `SSL_shutdown` for one that
is, over any redirects between the two schemes. -/
theorem transport_lifetime (env : Env) (systems : List SystemConnection) (info : RequestInfo)
    (handler : ResponseHandler) (now : UInt64) (cancelIn : Option Nat) :
    let r := (Stack.lifetime systems).run env (.initial info handler now cancelIn)
    (∀ front fd call rest, r.events = front ++ .system fd call :: rest →
      (∃ data, call = .send data) ∨ (∃ size, call = .recv size) → (parsedLast front).isHttps = false) ∧
    (∀ front fd call rest, r.events = front ++ .system fd call :: rest →
      call = .SSL_connect ∨ (∃ data, call = .SSL_write data) ∨ (∃ size, call = .SSL_read size) ∨
        call = .SSL_shutdown → (parsedLast front).isHttps = true) := by
  intro r
  constructor
  · intro front fd call rest hevents hcall
    have hfits : call.fits (kindOf (parsedLast front)) = true :=
      fits_of_lifetime hevents (by rcases hcall with ⟨_, rfl⟩ | ⟨_, rfl⟩ <;> simp)
    by_contra hhttps
    rw [kindOf, if_pos (by simpa using hhttps)] at hfits
    rcases hcall with ⟨data, rfl⟩ | ⟨size, rfl⟩ <;> cases hfits
  · intro front fd call rest hevents hcall
    have hfits : call.fits (kindOf (parsedLast front)) = true :=
      fits_of_lifetime hevents (by rcases hcall with rfl | ⟨_, rfl⟩ | ⟨_, rfl⟩ | rfl <;> simp)
    by_contra hhttp
    rw [kindOf, if_neg hhttp] at hfits
    rcases hcall with rfl | ⟨data, rfl⟩ | ⟨size, rfl⟩ | rfl <;> cases hfits

end HttpRequest
