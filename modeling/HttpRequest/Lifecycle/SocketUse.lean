import HttpRequest.Lifecycle.Stages

/-! # The use of the socket

`disconnected` resets `socket_` while its callers are still running. They stop, so that no method is called
through the null pointer, and the next call through `socket_` is the `connect` on a new socket
(`socket_used_while_open`). -/

namespace HttpRequest

open Foundations

/-- The calls through `socket_`. -/
def Call.usesSocket : Call → Bool
  | .connect _ | .canSend _ | .send _ | .canReceive _ | .receive => true
  | .parseUrl _ | .getaddrinfo _ _ _ | .newSocket _ => false

/-! ### The monitor -/

/-- What the events so far have made of `socket_`. -/
inductive SocketUse
  /-- There is no socket. -/
  | absent
  /-- There is a new socket. -/
  | fresh
  /-- `connect` has been called on the socket. -/
  | opened
  deriving DecidableEq

/-- The use of the socket behind an event. -/
def SocketUse.next : SocketUse → Event → SocketUse
  | _, .call (.newSocket _) => .fresh
  | _, .call (.connect _) => .opened
  | _, .callback .onDisconnected => .absent
  | use, _ => use

/-- `connect` is called on a new socket, the other methods on a socket on which it has been called. -/
def SocketUse.allows (use : SocketUse) : Event → Prop
  | .call (.connect _) => use = .fresh
  | .call call => call.usesSocket = true → use = .opened
  | _ => True

/-- The monitor of the uses of `socket_`. -/
def socketMonitor : Monitor SocketUse Event := ⟨SocketUse.next, SocketUse.allows⟩

/-- What is known of the socket at a stage. -/
def SocketAt : Stage → SocketUse → State → Prop
  | .fresh, use, s => use = .fresh ∧ s.socket_ ≠ none
  | .live, use, s => use = .opened ∧ s.socket_ ≠ none
  | _, _, _ => True

/-- A `cancel()` leaves the socket as it is. -/
theorem ticks_socketAt (stage : Stage) : Ticks socketMonitor (SocketAt stage) (SocketAt stage) := by
  apply ticks_of <;> intro k s
  · cases stage <;> exact id
  · intro n
    cases stage <;> exact id
  · intro hs
    refine ⟨trivial, ?_⟩
    cases stage <;> exact hs

/-- The worker is never left by a call through the null pointer. -/
def NotNull (stop : Stop) (_ : SocketUse) (_ : State) : Prop := stop ≠ .fault .nullPointer

/-- `disconnected` releases the socket. -/
theorem watch_disconnected_socketAt (env : Env) (stage : Stage) :
    Program.Watch socketMonitor env (SocketAt stage) disconnected (fun _ => SocketAt .ended) NotNull :=
  (ticks_socketAt stage).disconnected (fun _ _ _ _ _ => ⟨trivial, trivial⟩) fun _ _ _ _ => trivial

/-- So does `handleErrorResponse`, through `disconnected`. -/
theorem watch_handleErrorResponse_socketAt (env : Env) (stage : Stage) (code : ResultCode)
    (errorCode : Int) :
    Program.Watch socketMonitor env (SocketAt stage) (handleErrorResponse code errorCode)
      (fun _ => SocketAt .ended) NotNull :=
  (ticks_socketAt stage).handleErrorResponse (fun _ _ hs _ => ⟨trivial, hs⟩)
    (watch_disconnected_socketAt env stage)

/-- A call other than `connect` through a socket in use. -/
theorem watch_callSocket_socketAt (env : Env) (call : Call) (hcall : call.usesSocket = true)
    (hconnect : ∀ timeout, call ≠ .connect timeout) :
    Program.Watch socketMonitor env (SocketAt .live) (callSocket call) (fun _ => SocketAt .live)
      NotNull := by
  refine (ticks_socketAt .live).callSocket (fun _ _ hs hnone => absurd hnone hs.2) ?_
  rintro k s ⟨rfl, hsocket⟩
  cases call with
  | connect timeout => exact absurd rfl (hconnect timeout)
  | parseUrl | getaddrinfo | newSocket => cases hcall
  | canSend | send | canReceive | receive => exact ⟨fun _ => rfl, rfl, hsocket⟩

/-- The time is nothing to the socket. -/
theorem watch_returnAt_socketAt (env : Env) (stage : Stage) (now : UInt64) :
    Program.Watch socketMonitor env (SocketAt stage) (returnAt now) (fun _ => SocketAt stage) NotNull :=
  .of_run (run_returnAt now env) fun k s hs => ⟨⟨trivial, trivial⟩, by cases stage <;> exact hs⟩

/-- **The stages of the socket.** -/
theorem staged_socketAt (env : Env) : Staged socketMonitor env (fun _ => True) SocketAt NotNull where
  pending _ _ _ _ := by simp [NotNull]
  fault fault _ _ hfault _ := by simpa [NotNull] using hfault
  returned stage _ := watch_returnAt_socketAt env stage
  error stage _ := watch_handleErrorResponse_socketAt env stage
  disconnected := watch_disconnected_socketAt env .live
  parsed _ := (ticks_socketAt .start).callOut fun _ _ _ => ⟨nofun, trivial⟩
  resolved _ _ _ := (ticks_socketAt .idle).callOut fun _ _ _ => ⟨nofun, trivial⟩
  created socket := by
    refine .bind (.emit (Q := fun _ k _ => k = .fresh) (fun _ _ _ h => by cases h) fun _ _ _ => rfl)
      fun _ => .update fun _ _ hs => ⟨hs, by simp⟩
  connect timeout _ := by
    refine .conseq (P := SocketAt .fresh) ?_ (fun _ _ hs => hs.2) fun _ _ _ hs => hs
    refine (ticks_socketAt .fresh).callSocket (fun _ _ hs hnone => absurd hnone hs.2) ?_
    rintro k s ⟨rfl, hsocket⟩
    exact ⟨rfl, rfl, hsocket⟩
  connected := by
    refine .conseq (P := SocketAt .live) ?_ (fun _ _ hs => hs.2) fun _ _ _ hs => hs
    exact (ticks_socketAt .live).invoke fun _ _ hs => ⟨trivial, hs⟩
  canSend timeout := (watch_callSocket_socketAt env (.canSend timeout) rfl (by simp)).conseq
    (fun _ _ hs => hs.2) fun _ _ _ hs => hs
  encoded _ _ _ hs := hs
  send data := watch_callSocket_socketAt env _ rfl (by simp)
  loaded := (ticks_socketAt .live).loadValid.conseq (fun _ _ hs => hs) fun _ _ _ hs => hs.2
  canReceive timeout :=
    (watch_callSocket_socketAt env (.canReceive timeout) rfl (by simp)).conseq
      (fun _ _ hs => hs.2) fun _ _ _ hs => hs
  reading := .of_receive (watch_callSocket_socketAt env _ rfl (by simp))
    (watch_returnAt_socketAt env .live) (watch_handleErrorResponse_socketAt env .live)
    (watch_disconnected_socketAt env .live)
  header _ := (ticks_socketAt .live).guarded fun _ _ hs _ _ => ⟨trivial, hs⟩
  data _ := (ticks_socketAt .live).guarded fun _ _ hs _ _ => ⟨trivial, hs⟩
  counted _ := watch_countRedirect (P := SocketAt .live) (R := SocketAt .idle) (T := SocketAt .idle)
    ((watch_handleErrorResponse_socketAt env .live _ _).conseq (fun _ _ hs => hs.2) fun _ _ _ _ => trivial)
    (fun _ _ _ _ => trivial) (fun _ _ _ => trivial) (ticks_socketAt .idle)
    fun _ _ _ => ⟨nofun, trivial⟩

/-! ### Runs -/

/-- An event that is no call through the socket brings up a new one at most. -/
theorem SocketUse.next_eq (use : SocketUse) {e : Event}
    (huse : ∀ call, e = .call call → call.usesSocket = false) :
    use.next e = use ∨ use.next e = .absent ∨
      use.next e = .fresh ∧ ∃ socket, e = .call (.newSocket socket) := by
  cases e with
  | callback callback =>
    cases callback with
    | onDisconnected => exact .inr (.inl rfl)
    | onConnected | onParseHeaderDone | onData | onError => exact .inl rfl
  | call call =>
    have hcall := huse call rfl
    cases call with
    | newSocket socket => exact .inr (.inr ⟨rfl, socket, rfl⟩)
    | parseUrl | getaddrinfo => exact .inl rfl
    | connect | canSend | send | canReceive | receive => cases hcall
  | returned | cancelled => exact .inl rfl

/-- Behind a release the socket is new or there is none, up to the next call through it; it is new only if it
has been created since. -/
theorem after_absent {es : List Event}
    (huse : ∀ call, Event.call call ∈ es → call.usesSocket = false) :
    socketMonitor.after .absent es = .absent ∨
      socketMonitor.after .absent es = .fresh ∧ ∃ socket, .call (.newSocket socket) ∈ es := by
  let I (use : SocketUse) : Prop :=
    use = .absent ∨ use = .fresh ∧ ∃ socket, .call (.newSocket socket) ∈ es
  refine Monitor.after_of_forall (M := socketMonitor) (I := I) (fun e he use hI => ?_) (.inl rfl)
  rcases use.next_eq fun call hcall => huse call (hcall ▸ he) with hnext | hnext | ⟨hnext, socket, hsocket⟩
  · exact (congrArg I hnext).mpr hI
  · exact .inl hnext
  · exact .inr ⟨hnext, socket, hsocket ▸ he⟩

/-- **No call goes through the null pointer, and what follows a release is the `connect` on a new socket.** -/
theorem socket_used_while_open (env : Env) (info : RequestInfo) (handler : ResponseHandler) (now : UInt64)
    (cancelIn : Option Nat) (connections : List Connection) :
    let r := (process connections).run env (.initial info handler now cancelIn)
    r.outcome ≠ .error (.fault .nullPointer) ∧
    ∀ front mid rest call, r.events = front ++ .callback .onDisconnected :: mid ++ .call call :: rest →
      call.usesSocket = true → (∀ call', .call call' ∈ mid → call'.usesSocket = false) →
      (∃ timeout, call = .connect timeout) ∧ ∃ socket, .call (.newSocket socket) ∈ mid := by
  have hwatch := (staged_socketAt env).process connections fun _ _ _ _ _ => trivial
  intro r
  constructor
  · exact fun hnull => hwatch.stops (k := .absent) trivial hnull rfl
  · intro front mid rest call hevents hcall hmid
    have hallows := hwatch.allows (k := .absent) trivial hevents
    rw [Monitor.after_append, Monitor.after_cons] at hallows
    change SocketUse.allows (socketMonitor.after .absent mid) (.call call) at hallows
    rcases after_absent hmid with habsent | ⟨hfresh, hnew⟩
    · rw [habsent] at hallows
      cases call with
      | connect timeout => cases hallows
      | canSend | send | canReceive | receive => cases hallows rfl
      | parseUrl | getaddrinfo | newSocket => cases hcall
    · rw [hfresh] at hallows
      cases call with
      | connect timeout => exact ⟨⟨timeout, rfl⟩, hnew⟩
      | canSend | send | canReceive | receive => cases hallows rfl
      | parseUrl | getaddrinfo | newSocket => cases hcall

end HttpRequest
