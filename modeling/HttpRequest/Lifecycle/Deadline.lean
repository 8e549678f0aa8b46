import HttpRequest.Lifecycle.Stages
import HttpRequest.Redirects.Limit
import HttpRequest.Sockets.Waits

/-! # The deadline of a request

The timeout of a request is counted from its construction. An observer with a clock follows a run over objects
of the socket classes, each call of which has its answer (`world`): time passes in the waits, and between the
pieces of data (`KeepsTime`). All waits end by the deadline, and nothing but errors and the end of the request
is announced behind it, in every run whose waits are entered when whole milliseconds have passed, whose wait
for a handshake is entered when no time has passed since `connect` was called, and whose reads return by the
deadline, those apart behind which the request ends (`inTime_process`). Without the last, data are handed over
behind the deadline (`not_inTime_process`). -/

namespace HttpRequest

open Foundations

/-! ### The observer -/

/-- What an observer with a clock knows of a run: the number of calls, the time, and the call that has not
returned, with its answer. -/
structure Chronicle where
  calls : Nat := 0
  clock : UInt64
  calling : Option (Answer × Call) := none

/-- What an event adds, when `world` has the answers to the calls. -/
def Chronicle.next (world : Nat → Answer) (k : Chronicle) : Event → Chronicle
  | .call call => ⟨k.calls + 1, k.clock, some (world k.calls, call)⟩
  | .returned now => { k with clock := now, calling := none }
  | .callback _ | .cancelled => k

/-- Every event of a run from a time on has a property, where the events in front of it lead. -/
def Throughout (world : Nat → Answer) (p : Chronicle → Event → Prop) (start : UInt64)
    (events : List Event) : Prop :=
  (⟨Chronicle.next world, p⟩ : Monitor Chronicle Event).Accepts { clock := start } events

/-- **The clock.** It goes on in the waits of a call, in each of them no more than the wait is given, and from
one piece of data to the next. -/
def KeepsTime (world : Nat → Answer) (k : Chronicle) : Event → Prop
  | .call call => (world k.calls).KeepsTime call k.clock
  | .returned now =>
    match k.calling with
    | none => now = k.clock
    | some (answer, call) => if call = .receive then k.clock ≤ now else answer.Returns call k.clock now
  | .callback _ | .cancelled => True

/-- `startStamp_` and the timeout, in microseconds. -/
def deadline (info : RequestInfo) (start : UInt64) : Int := (start.toNat : Int) + 1000 * info.timeout

/-- A read of the connections that a request goes on behind returns at a time. -/
def GoesOnAt (connections : List Connection) (now : UInt64) : Prop :=
  ∃ connection ∈ connections, ∃ round ∈ connection.rounds, round.reply.GoesOn ∧ round.reply.now = now

/-- **What makes a run punctual**, event by event: the waits are entered when whole milliseconds have passed,
that for the handshake when no time has passed since `connect` was called, and a read that the request goes on
behind returns by the deadline. -/
def Punctual (world : Nat → Answer) (connections : List Connection) (info : RequestInfo) (start : UInt64)
    (k : Chronicle) : Event → Prop
  | .call call => (world k.calls).Punctual start call k.clock
  | .returned now => ∀ answer, k.calling = some (answer, .receive) → GoesOnAt connections now →
      (now.toNat : Int) ≤ deadline info start
  | .callback _ | .cancelled => True

/-- The callbacks that are made behind the deadline, too. -/
def Callback.Closing : Callback → Prop
  | .onError _ _ | .onDisconnected => True
  | .onConnected | .onParseHeaderDone _ | .onData _ => False

/-- **The deadline is kept**, event by event: no wait is entered that ends behind it, and all callbacks behind
it are closing. -/
def InTime (world : Nat → Answer) (info : RequestInfo) (start : UInt64) (k : Chronicle) : Event → Prop
  | .call call => ∀ w, (world k.calls).Enters call k.clock w → w.EndsBy (deadline info start)
  | .callback callback => callback.Closing ∨ (k.clock.toNat : Int) ≤ deadline info start
  | .returned _ | .cancelled => True

/-- The observer who asks for the deadline as long as a run keeps time and is punctual. -/
def deadlineMonitor (world : Nat → Answer) (connections : List Connection) (info : RequestInfo) (start : UInt64) :
    Monitor (Chronicle × Prop) Event :=
  .assuming (Chronicle.next world) (fun k e => KeepsTime world k e ∧ Punctual world connections info start k e)
    (InTime world info start)

/-! ### What is kept -/

/-- What is known of a run at any time: the stamp and the timeout of the request, and its clock. -/
structure Clocked (info : RequestInfo) (start : UInt64) (k : Chronicle) (s : State) : Prop where
  timeout : s.info_.timeout = info.timeout
  stamp : s.startStamp_ = start
  now : s.now = k.clock
  started : start ≤ k.clock

/-- What is known of a run between its calls: the open call is no read, and returns at once or by the deadline. -/
structure Kept (info : RequestInfo) (start : UInt64) (k : Chronicle) (s : State) : Prop extends
    Clocked info start k s where
  calling : ∀ answer call, k.calling = some (answer, call) → call ≠ .receive ∧
    ∀ next, answer.Returns call k.clock next →
      k.clock ≤ next ∧ (next = k.clock ∨ (next.toNat : Int) ≤ deadline info start)

/-- While the socket is in use the deadline has not passed. -/
structure KeptInTime (info : RequestInfo) (start : UInt64) (k : Chronicle) (s : State) : Prop extends
    Kept info start k s where
  inTime : (k.clock.toNat : Int) ≤ deadline info start

/-- The socket is being read. -/
structure AtRead (info : RequestInfo) (start : UInt64) (k : Chronicle) (s : State) : Prop extends
    Clocked info start k s where
  reading : ∃ answer, k.calling = some (answer, .receive)

section

variable {world : Nat → Answer} {connections : List Connection} {info : RequestInfo} {start : UInt64}
  {k : Chronicle} {s : State}

/-- The remaining time is never negative. -/
theorem remainTime_nonneg (s : State) : 0 ≤ remainTime s := le_max_right _ _

/-- The milliseconds that have passed. -/
theorem Clocked.elapsed (h : Clocked info start k s) :
    Time.diff s.now s.startStamp_ = ((k.clock.toNat - start.toNat) / 1000 : Nat) := by
  unfold Time.diff
  rw [h.now, h.stamp, UInt64.toNat_div, UInt64.toNat_sub_of_le _ _ h.started]
  rfl

/-- A request that has time left has not passed its deadline. -/
theorem Kept.inTime_of_remainTime (h : Kept info start k s) (hleft : 0 < remainTime s) :
    KeptInTime info start k s := by
  refine ⟨h, ?_⟩
  have hstarted := UInt64.le_iff_toNat_le.mp h.started
  have helapsed := h.elapsed
  unfold remainTime at hleft
  rw [h.timeout, helapsed] at hleft
  unfold deadline
  omega

/-- When whole milliseconds have passed, what is left ends at the deadline. -/
theorem KeptInTime.add_remainTime (h : KeptInTime info start k s) (hwhole : Answer.Whole start k.clock) :
    (k.clock.toNat : Int) + 1000 * remainTime s = deadline info start := by
  have hstarted := UInt64.le_iff_toNat_le.mp h.started
  have helapsed := h.elapsed
  have hinTime := h.inTime
  unfold Answer.Whole at hwhole
  unfold remainTime
  rw [h.timeout, helapsed]
  unfold deadline at hinTime ⊢
  omega

/-- A wait for what is left ends by the deadline exactly when whole milliseconds have passed, and no more than
the timeout. -/
theorem Kept.endsBy_iff (h : Kept info start k s) :
    (Wait.mk k.clock (remainTime s)).EndsBy (deadline info start) ↔
      (k.clock.toNat : Int) ≤ deadline info start ∧ Answer.Whole start k.clock := by
  constructor
  · rintro ⟨hnonneg, hby⟩
    dsimp only at hnonneg hby
    have hstarted := UInt64.le_iff_toNat_le.mp h.started
    have helapsed := h.elapsed
    have hinTime : (k.clock.toNat : Int) ≤ deadline info start := by omega
    refine ⟨hinTime, ?_⟩
    unfold remainTime at hby
    rw [h.timeout, helapsed] at hby
    unfold deadline at hby hinTime
    unfold Answer.Whole
    omega
  · rintro ⟨hinTime, hwhole⟩
    exact ⟨remainTime_nonneg s, (KeptInTime.add_remainTime ⟨h, hinTime⟩ hwhole).le⟩

/-- A call that is given no time enters no wait. -/
theorem not_enters_of_not_gives {call : Call} (hcall : ∀ timeout, ¬Answer.Gives call timeout)
    (answer : Answer) (now : UInt64) (w : Wait) : ¬answer.Enters call now w := by
  rintro ⟨n, hleft⟩
  rw [Answer.run_of_not_gives hcall] at hleft
  exact absurd hleft (not_leftIn_of_ok rfl w)

/-- A call that is given no time is made. -/
theorem Kept.called (h : Kept info start k s) {call : Call} (hcall : ∀ timeout, ¬Answer.Gives call timeout)
    (hread : call ≠ .receive) : Kept info start (k.next world (.call call)) s := by
  refine ⟨⟨h.timeout, h.stamp, h.now, h.started⟩, ?_⟩
  rintro answer _ ⟨⟩
  refine ⟨hread, ?_⟩
  rintro next ⟨-, hnext⟩
  rw [Answer.run_of_not_gives hcall] at hnext
  obtain rfl : k.clock = next := hnext
  exact ⟨UInt64.le_refl _, .inl rfl⟩

/-- The socket is read. -/
theorem Clocked.reads (h : Clocked info start k s) : AtRead info start (k.next world (.call .receive)) s :=
  ⟨⟨h.timeout, h.stamp, h.now, h.started⟩, _, rfl⟩

/-- A call that is given what is left is made: its waits end by the deadline. -/
theorem KeptInTime.given (h : KeptInTime info start k s) {call : Call}
    (hcall : Answer.Gives call (remainTime s)) (hkeeps : KeepsTime world k (.call call))
    (hpunctual : Punctual world connections info start k (.call call)) :
    InTime world info start k (.call call) ∧ KeptInTime info start (k.next world (.call call)) s := by
  have hwaits : InTime world info start k (.call call) := fun w hw =>
    Answer.Punctual.endsBy hpunctual hkeeps.delay hcall (remainTime_nonneg s) h.add_remainTime hw
  refine ⟨hwaits, ⟨⟨h.timeout, h.stamp, h.now, h.started⟩, ?_⟩, h.inTime⟩
  rintro answer _ ⟨⟩
  refine ⟨fun hread => ?_, fun next hreturns => ?_⟩
  · rw [hread] at hcall
    simp [Answer.Gives] at hcall
  · obtain ⟨hle, hby⟩ := hkeeps.returns_le hcall h.inTime hwaits hreturns
    exact ⟨hle, .inr hby⟩

/-- Where a call has returned the clock goes on. -/
theorem Clocked.returned (h : Clocked info start k s) {now : UInt64} (hnow : k.clock ≤ now) :
    Kept info start (k.next world (.returned now)) { s with now := now } := by
  refine ⟨⟨h.timeout, h.stamp, rfl, UInt64.le_trans h.started hnow⟩, ?_⟩
  rintro answer call ⟨⟩

/-- A call other than a read returns. -/
theorem Kept.returned (h : Kept info start k s) {now : UInt64} (hkeeps : KeepsTime world k (.returned now)) :
    Kept info start (k.next world (.returned now)) { s with now := now } ∧
      (now = k.clock ∨ (now.toNat : Int) ≤ deadline info start) := by
  have hnow : k.clock ≤ now ∧ (now = k.clock ∨ (now.toNat : Int) ≤ deadline info start) := by
    unfold KeepsTime at hkeeps
    cases hcalling : k.calling with
    | none =>
      rw [hcalling] at hkeeps
      exact ⟨UInt64.le_of_eq hkeeps.symm, .inl hkeeps⟩
    | some opened =>
      obtain ⟨answer, call⟩ := opened
      rw [hcalling] at hkeeps
      obtain ⟨hread, hreturns⟩ := h.calling answer call hcalling
      dsimp only at hkeeps
      rw [if_neg hread] at hkeeps
      exact hreturns now hkeeps
  exact ⟨h.toClocked.returned hnow.1, hnow.2⟩

/-- A read returns: by the deadline, if the request goes on behind it. -/
theorem AtRead.returned (h : AtRead info start k s) {now : UInt64} (hkeeps : KeepsTime world k (.returned now))
    (hpunctual : Punctual world connections info start k (.returned now)) :
    Kept info start (k.next world (.returned now)) { s with now := now } ∧
      (GoesOnAt connections now → (now.toNat : Int) ≤ deadline info start) := by
  obtain ⟨answer, hcalling⟩ := h.reading
  unfold KeepsTime at hkeeps
  rw [hcalling] at hkeeps
  dsimp only at hkeeps
  rw [if_pos rfl] at hkeeps
  exact ⟨h.toClocked.returned hkeeps, hpunctual answer hcalling⟩

end

/-! ### The steps of the worker -/

/-- What is known of a run that has kept time and been punctual. -/
def Assuming (R : Chronicle → State → Prop) (k : Chronicle × Prop) (s : State) : Prop := k.2 → R k.1 s

/-- What is known at a stage. -/
def DeadlineAt (info : RequestInfo) (start : UInt64) : Stage → Chronicle × Prop → State → Prop
  | .live => Assuming (KeptInTime info start)
  | .start | .idle | .fresh => Assuming (Kept info start)
  | .ended => fun _ _ => True

section

variable {world : Nat → Answer} {connections : List Connection} {env : Env} {info : RequestInfo} {start : UInt64}
  {R Q : Chronicle → State → Prop}

/-- A property that neither a `cancel()`, coming or in effect, nor the socket changes. -/
def Loose (R : Chronicle → State → Prop) : Prop :=
  ∀ k s valid socket cancelIn, R k s →
    R k { s with isValid_ := valid, socket_ := socket, cancelIn := cancelIn }

/-- Neither changes what was kept. -/
theorem loose_kept (info : RequestInfo) (start : UInt64) : Loose (Kept info start) :=
  fun _ _ _ _ _ h => ⟨⟨h.timeout, h.stamp, h.now, h.started⟩, h.calling⟩

/-- Nor what was kept in time. -/
theorem loose_keptInTime (info : RequestInfo) (start : UInt64) : Loose (KeptInTime info start) :=
  fun k s valid socket cancelIn h => ⟨loose_kept info start k s valid socket cancelIn h.toKept, h.inTime⟩

/-- Such a property survives the start of a step, with or without a `cancel()`. -/
theorem Loose.ticks (hR : Loose R) : Ticks (deadlineMonitor world connections info start) (Assuming R) (Assuming R) :=
  ticks_of (fun k s h hk => hR k.1 s s.isValid_ s.socket_ none (h hk))
    (fun k s n h hk => hR k.1 s s.isValid_ s.socket_ (some n) (h hk))
    fun k s h => ⟨fun _ _ => trivial, fun hk => hR k.1 s false s.socket_ none (h hk.1)⟩

/-- An event that is in time where it happens, and what it leads to. -/
theorem assuming_event {k : Chronicle × Prop} {s s' : State} {e : Event} (h : Assuming R k s)
    (hevent : R k.1 s → KeepsTime world k.1 e → Punctual world connections info start k.1 e →
      InTime world info start k.1 e ∧ Q (k.1.next world e) s') :
    (deadlineMonitor world connections info start).allows k e ∧
      Assuming Q ((deadlineMonitor world connections info start).next k e) s' :=
  ⟨fun hk hassumed => (hevent (h hk) hassumed.1 hassumed.2).1,
    fun hk => (hevent (h hk.1) hk.2.1 hk.2.2).2⟩

/-- A call that is given no time. -/
theorem kept_atOnce {k : Chronicle} {s : State} {call : Call} (h : Kept info start k s)
    (hcall : ∀ timeout, ¬Answer.Gives call timeout) (hread : call ≠ .receive) :
    InTime world info start k (.call call) ∧ Kept info start (k.next world (.call call)) s :=
  ⟨fun w hw => absurd hw (not_enters_of_not_gives hcall _ _ w), h.called hcall hread⟩

/-- Data are sent without a wait. -/
theorem watch_callSocket_send (env : Env) (data : Bytes) :
    Program.Watch (deadlineMonitor world connections info start) env (Assuming (KeptInTime info start))
      (callSocket (.send data)) (fun _ => Assuming (KeptInTime info start)) fun _ _ _ => True :=
  (loose_keptInTime info start).ticks.callSocket (fun _ _ _ _ => trivial) fun _ _ h =>
    assuming_event h fun hkept _ _ =>
      have hcalled := kept_atOnce hkept.toKept (by simp [Answer.Gives]) (by simp)
      ⟨hcalled.1, hcalled.2, hkept.inTime⟩

/-- The socket is read without a wait. -/
theorem watch_callSocket_receive (env : Env) :
    Program.Watch (deadlineMonitor world connections info start) env (Assuming (KeptInTime info start))
      (callSocket .receive) (fun _ => Assuming (AtRead info start)) fun _ _ _ => True :=
  (loose_keptInTime info start).ticks.callSocket (fun _ _ _ _ => trivial) fun _ _ h =>
    assuming_event h fun hkept _ _ =>
      ⟨fun w hw => absurd hw (not_enters_of_not_gives (by simp [Answer.Gives]) _ _ w), hkept.toClocked.reads⟩

/-- A read returns. -/
theorem watch_returnAt_read (env : Env) (now : UInt64) :
    Program.Watch (deadlineMonitor world connections info start) env (Assuming (AtRead info start)) (returnAt now)
      (fun _ => Assuming fun k s => Kept info start k s ∧
        (GoesOnAt connections now → (k.clock.toNat : Int) ≤ deadline info start)) fun _ _ _ => True :=
  .of_run (run_returnAt now env) fun _ _ h =>
    ⟨⟨fun _ _ => trivial, trivial⟩, fun hk => (h hk.1).returned hk.2.1 hk.2.2⟩

/-- A call through the socket in use that is given what is left. -/
theorem watch_callSocket_given (env : Env) {timeout : Int} {call : Call} (hcall : Answer.Gives call timeout) :
    Program.Watch (deadlineMonitor world connections info start) env
      (fun k s => timeout = remainTime s ∧ Assuming (KeptInTime info start) k s) (callSocket call)
      (fun _ => Assuming (KeptInTime info start)) fun _ _ _ => True := by
  have hloose : Loose fun k s => timeout = remainTime s ∧ KeptInTime info start k s :=
    fun k s valid socket cancelIn h => ⟨h.1, loose_keptInTime info start k s valid socket cancelIn h.2⟩
  refine .conseq (hloose.ticks.callSocket (Q := Assuming (KeptInTime info start)) (fun _ _ _ _ => trivial)
    fun _ _ h => assuming_event h ?_) (fun _ _ h hk => ⟨h.1, h.2 hk⟩) fun _ _ _ h => h
  rintro ⟨rfl, hkept⟩ hkeeps hpunctual
  exact hkept.given hcall hkeeps hpunctual

/-- `disconnected` changes nothing else. -/
theorem watch_disconnected_assuming (env : Env) (hR : Loose R) :
    Program.Watch (deadlineMonitor world connections info start) env (Assuming R) disconnected (fun _ => Assuming R)
      fun _ _ _ => True :=
  hR.ticks.disconnected
    (fun k s h _ _ => ⟨fun _ _ => .inl trivial, fun hk => hR k.1 s s.isValid_ none s.cancelIn (h hk.1)⟩)
    fun _ _ h _ => h

/-- Nor does `handleErrorResponse`. -/
theorem watch_handleErrorResponse_assuming (env : Env) (hR : Loose R) (code : ResultCode)
    (errorCode : Int) :
    Program.Watch (deadlineMonitor world connections info start) env (Assuming R) (handleErrorResponse code errorCode)
      (fun _ => Assuming R) fun _ _ _ => True :=
  hR.ticks.handleErrorResponse (fun _ _ h _ => ⟨fun _ _ => .inl trivial, fun hk => h hk.1⟩)
    (watch_disconnected_assuming env hR)

/-- Reads: behind those the request goes on behind the deadline has not passed. -/
theorem reading_deadlineAt (env : Env) :
    Reading (deadlineMonitor world connections info start) env (GoesOnAt connections)
      (DeadlineAt info start .live) (DeadlineAt info start .ended) fun _ _ _ => True where
  goesOn now hnow := (watch_callSocket_receive env).bind fun _ => (watch_returnAt_read env now).conseq
    (fun _ _ h => h) fun _ _ _ h hk => ⟨(h hk).1, (h hk).2 hnow⟩
  failed now code errorCode := (watch_callSocket_receive env).bind fun _ => (watch_returnAt_read env now).bind fun _ =>
    (watch_handleErrorResponse_assuming env (loose_kept info start) code errorCode).conseq
      (fun _ _ h hk => (h hk).1) fun _ _ _ _ => trivial
  closed now := (watch_callSocket_receive env).bind fun _ => (watch_returnAt_read env now).bind fun _ =>
    (watch_disconnected_assuming env (loose_kept info start)).conseq
      (fun _ _ h hk => (h hk).1) fun _ _ _ _ => trivial

end

/-- **The deadline, stage by stage.** -/
theorem staged_deadlineAt (world : Nat → Answer) (connections : List Connection) (env : Env) (info : RequestInfo)
    (start : UInt64) :
    Staged (deadlineMonitor world connections info start) env (GoesOnAt connections) (DeadlineAt info start)
      fun _ _ _ => True where
  pending _ _ _ _ := trivial
  fault _ _ _ _ _ := trivial
  returned stage hstage now := by
    refine .of_run (run_returnAt now env) fun k s h => ⟨⟨fun _ _ => trivial, trivial⟩, ?_⟩
    cases stage with
    | live =>
      intro hk
      obtain ⟨hkept, hnow⟩ := (h hk.1).toKept.returned hk.2.1
      refine ⟨hkept, ?_⟩
      -- the call returned at once, or after a wait that was given no more than is left
      rcases hnow with rfl | hnow
      · exact (h hk.1).inTime
      · exact hnow
    | start | idle | fresh => exact fun hk => ((h hk.1).returned hk.2.1).1
    | ended => exact absurd rfl hstage
  error stage hstage code errorCode := by
    cases stage with
    | live =>
      exact (watch_handleErrorResponse_assuming env (loose_keptInTime info start) code errorCode).conseq
        (fun _ _ h => h) fun _ _ _ _ => trivial
    | start | idle | fresh =>
      exact (watch_handleErrorResponse_assuming env (loose_kept info start) code errorCode).conseq
        (fun _ _ h => h) fun _ _ _ _ => trivial
    | ended => exact absurd rfl hstage
  disconnected := (watch_disconnected_assuming env (loose_keptInTime info start)).conseq (fun _ _ h => h)
    fun _ _ _ _ => trivial
  parsed _ := (loose_kept info start).ticks.callOut fun _ _ h =>
    assuming_event h fun hkept _ _ =>
      have hcalled := kept_atOnce hkept (by simp [Answer.Gives]) (by simp)
      ⟨hcalled.1, ⟨hcalled.2.timeout, hcalled.2.stamp, hcalled.2.now, hcalled.2.started⟩, hcalled.2.calling⟩
  resolved _ _ _ := (loose_kept info start).ticks.callOut fun _ _ h =>
    assuming_event h fun hkept _ _ => kept_atOnce hkept (by simp [Answer.Gives]) (by simp)
  created socket := .of_run (run_storeSocket env socket) fun k s h => by
    have hevent : (deadlineMonitor world connections info start).allows k (.call (.newSocket socket)) ∧
        Assuming (Kept info start)
          ((deadlineMonitor world connections info start).next k (.call (.newSocket socket))) s :=
      assuming_event h fun hkept _ _ => kept_atOnce hkept (by simp [Answer.Gives]) (by simp)
    refine ⟨⟨hevent.1, trivial⟩, fun hk => ?_⟩
    have hkept := hevent.2 hk
    exact ⟨⟨hkept.timeout, hkept.stamp, hkept.now, hkept.started⟩, hkept.calling⟩
  connect timeout htimeout := by
    refine (watch_callSocket_given env (.inl rfl)).conseq ?_ fun _ _ _ h => h
    rintro k s ⟨rfl, h⟩
    -- a positive timeout is time that is left
    exact ⟨rfl, fun hk => (h hk).inTime_of_remainTime htimeout⟩
  connected := by
    refine ((loose_keptInTime info start).ticks.invoke fun _ _ h => ?_).conseq (fun _ _ h => h.2)
      fun _ _ _ h => h
    exact assuming_event h fun hkept _ _ => ⟨.inr hkept.inTime, hkept⟩
  canSend timeout := watch_callSocket_given env (.inr (.inl rfl))
  encoded _ _ _ h hk :=
    have hkept := h hk
    ⟨⟨⟨hkept.timeout, hkept.stamp, hkept.now, hkept.started⟩, hkept.calling⟩, hkept.inTime⟩
  send data := watch_callSocket_send env data
  loaded := (loose_keptInTime info start).ticks.loadValid.conseq (fun _ _ h => h)
    fun _ _ _ h => h.2
  canReceive timeout := watch_callSocket_given env (.inr (.inr rfl))
  reading := reading_deadlineAt env
  header _ := (loose_keptInTime info start).ticks.guarded fun _ _ h _ _ =>
    assuming_event h fun hkept _ _ => ⟨.inr hkept.inTime, hkept⟩
  data _ := (loose_keptInTime info start).ticks.guarded fun _ _ h _ _ =>
    assuming_event h fun hkept _ _ => ⟨.inr hkept.inTime, hkept⟩
  -- what a new connection starts from is what the old one has kept
  counted _ := watch_countRedirect (R := Assuming (Kept info start)) (T := Assuming (Kept info start))
    ((watch_handleErrorResponse_assuming env (loose_kept info start) _ _).conseq
      (fun _ _ h hk => (h.2 hk).toKept) fun _ _ _ h => h)
    (fun _ _ _ h hk => (h hk).toKept)
    (fun _ _ h hk =>
      have hkept := h hk
      ⟨⟨hkept.timeout, hkept.stamp, hkept.now, hkept.started⟩, hkept.calling⟩)
    (loose_kept info start).ticks
    fun _ _ h => assuming_event h fun hkept _ _ =>
      have hcalled := kept_atOnce hkept (by simp [Answer.Gives]) (by simp)
      ⟨hcalled.1, ⟨hcalled.2.timeout, hcalled.2.stamp, hcalled.2.now, hcalled.2.started⟩, hcalled.2.calling⟩

/-- **The deadline of a request**: in every run that keeps time and is punctual no wait is entered that ends
behind the deadline, and no callback but of an error or of the end is made behind it. A read that fails, or finds
the connection closed, may return as late as it likes. -/
theorem inTime_process (world : Nat → Answer) (env : Env) (info : RequestInfo) (handler : ResponseHandler)
    (start : UInt64) (cancelIn : Option Nat) (connections : List Connection)
    (hclock : Throughout world (KeepsTime world) start
      ((process connections).run env (.initial info handler start cancelIn)).events)
    (hpunctual : Throughout world (Punctual world connections info start) start
      ((process connections).run env (.initial info handler start cancelIn)).events) :
    Throughout world (InTime world info start) start
      ((process connections).run env (.initial info handler start cancelIn)).events := by
  have hwatch := (staged_deadlineAt world connections env info start).process connections
    fun connection hconnection round hround hgoes => ⟨connection, hconnection, round, hround, hgoes, rfl⟩
  have hstart : DeadlineAt info start .start ({ clock := start }, True)
      (.initial info handler start cancelIn) := by
    refine fun _ => ⟨⟨rfl, rfl, rfl, UInt64.le_refl _⟩, ?_⟩
    rintro answer call ⟨⟩
  exact Monitor.accepts_of_assuming _ _ _ (hwatch _ _ hstart).1 ((Monitor.accepts_and _ _ _).mpr ⟨hclock, hpunctual⟩)

/-! ### A peer that keeps sending -/

/-- An object that connects at once, and the time at which its wait ends. -/
def Answer.calm (now : UInt64) : Answer where
  object := ⟨.PlainSocket, .V4, some 3, none⟩
  connect := { address := some .AF_INET, connect := none }
  wait := some ⟨.ready, now⟩

/-- The waits of such an object are those of `canSend` and `canReceive`. -/
theorem leftIn_calm {t now : UInt64} {call : Call} {n : Nat} {w : Wait}
    (h : LeftIn (((Answer.calm t).cut n).run call now) w) :
    n = 0 ∧ ∃ timeout, (call = .canSend timeout ∨ call = .canReceive timeout) ∧ w = ⟨now, timeout⟩ := by
  cases n with
  | zero =>
    refine ⟨rfl, ?_⟩
    cases call with
    | canSend timeout => exact ⟨timeout, .inl rfl, leftIn_unique h (leftIn_select .Write timeout _)⟩
    | canReceive timeout => exact ⟨timeout, .inr rfl, leftIn_unique h (leftIn_select .Read timeout _)⟩
    | parseUrl | getaddrinfo | newSocket | connect | send | receive =>
      exact absurd h (not_leftIn_of_ok rfl w)
  | succ n =>
    -- the whole answer
    cases call with
    | parseUrl | getaddrinfo | newSocket | connect | canSend | send | canReceive | receive =>
      exact absurd h (not_leftIn_of_ok rfl w)

/-- A calm answer is in time where its waits end in time. -/
theorem keepsTime_calm {t now : UInt64} {call : Call}
    (h : ∀ timeout, call = .canSend timeout ∨ call = .canReceive timeout → (Wait.mk now timeout).Within t) :
    (Answer.calm t).KeepsTime call now := by
  refine ⟨rfl, fun n w hleft => ?_⟩
  obtain ⟨rfl, timeout, rfl | rfl, rfl⟩ := leftIn_calm hleft
  · exact h timeout (.inl rfl)
  · exact h timeout (.inr rfl)

/-- A calm answer at a whole millisecond behind the start is punctual. -/
theorem punctual_calm {t start now : UInt64} (h : Answer.Whole start now) (call : Call) :
    (Answer.calm t).Punctual start call now := by
  refine ⟨fun n w hleft => ?_, fun n w hleft _ => ?_⟩
  · obtain ⟨-, timeout, -, rfl⟩ := leftIn_calm hleft
    exact h
  · obtain ⟨-, timeout, -, rfl⟩ := leftIn_calm hleft
    rfl

/-- A connection whose peer sends a head after half a second, and more at a time. -/
def pacedConnection (last : UInt64) : Connection where
  lookup := ⟨some .inet, 0, 0⟩
  connect := ⟨{}, 0, 0⟩
  canSend := ⟨{}, 0⟩
  sends := [⟨{}, 27, 0⟩]
  rounds := [⟨[⟨{}, 500000⟩], ⟨{}, bytes "HTTP/1.1 200 OK\r\n\r\n", 500000⟩⟩,
    ⟨[⟨{}, 800000⟩], ⟨{}, bytes "a", last⟩⟩]

/-- The answers to the calls of a request over that connection. -/
def pacedWorld (last : UInt64) (n : Nat) : Answer :=
  .calm (if n < 6 then 0 else if n < 8 then 500000 else if n < 10 then 800000 else last)

/-- What such a request does that is given a second and hands over data only. -/
def pacedEvents (last : UInt64) (left : Int) : List Event :=
  [.call (.parseUrl (bytes "http://a/")), .call (.getaddrinfo (bytes "a") (bytes "80") .Auto), .returned 0,
    .call (.newSocket ⟨.PlainSocket, .V4⟩), .call (.connect 1000), .returned 0, .call (.canSend 1000),
    .returned 0, .call (.send (bytes "GET / HTTP/1.1\r\nHost: a\r\n\r\n")), .returned 0,
    .call (.canReceive 1000), .returned 500000, .call .receive, .returned 500000,
    .call (.canReceive 500), .returned 800000, .call .receive, .returned last,
    .callback (.onData (bytes "a")), .call (.canReceive left)]

/-- A request that is given a second. -/
def secondRequest : RequestInfo := { circularRequest with timeout := 1000 }

/-- The clock goes on in its waits, and until the last piece of data comes. -/
theorem keepsTime_paced {last : UInt64} (h : 800000 ≤ last) (left : Int) :
    Throughout (pacedWorld last) (KeepsTime (pacedWorld last)) 0 (pacedEvents last left) := by
  have hsame (now : UInt64) (timeout : Int) : (Wait.mk now timeout).Within now :=
    ⟨UInt64.le_refl _, fun (hnonneg : 0 ≤ timeout) => by dsimp only; omega⟩
  have hfirst : (Wait.mk 0 1000).Within 500000 := ⟨by decide, by decide⟩
  have hsecond : (Wait.mk 500000 500).Within 800000 := ⟨by decide, by decide⟩
  refine ⟨keepsTime_calm (by simp), keepsTime_calm (by simp), ⟨⟨_, rfl⟩, rfl⟩, keepsTime_calm (by simp),
    keepsTime_calm (by simp), ⟨⟨_, rfl⟩, rfl⟩, keepsTime_calm ?_, ⟨⟨_, rfl⟩, rfl⟩, keepsTime_calm (by simp),
    ⟨⟨_, rfl⟩, rfl⟩, keepsTime_calm ?_, ⟨⟨_, rfl⟩, rfl⟩, keepsTime_calm (by simp), UInt64.le_refl _,
    keepsTime_calm ?_, ⟨⟨_, rfl⟩, rfl⟩, keepsTime_calm (by simp), h, trivial, keepsTime_calm ?_, trivial⟩
  · exact fun timeout _ => hsame 0 timeout
  · rintro timeout (h | h)
    · cases h
    · cases h
      exact hfirst
  · rintro timeout (h | h)
    · cases h
    · cases h
      exact hsecond
  · exact fun timeout _ => hsame last timeout

/-- A peer whose last piece comes in time. -/
theorem inTime_process_paced :
    Throughout (pacedWorld 900000) (InTime (pacedWorld 900000) secondRequest 0) 0
      ((process [pacedConnection 900000]).run .plain
        (.initial secondRequest ⟨false, false, true, false, false⟩ 0 none)).events := by
  have hevents : ((process [pacedConnection 900000]).run .plain
      (.initial secondRequest ⟨false, false, true, false, false⟩ 0 none)).events = pacedEvents 900000 100 := by
    rfl
  refine inTime_process (pacedWorld 900000) .plain secondRequest ⟨false, false, true, false, false⟩ 0 none
    [pacedConnection 900000] ?_ ?_
  · rw [hevents]
    exact keepsTime_paced (by decide) 100
  · rw [hevents]
    have hcalls (t now : UInt64) (call : Call) (hnow : Answer.Whole 0 now) :
        (Answer.calm t).Punctual 0 call now := punctual_calm hnow call
    have hreads (k : Chronicle) (now : UInt64) (hnow : (now.toNat : Int) ≤ deadline secondRequest 0) :
        Punctual (pacedWorld 900000) [pacedConnection 900000] secondRequest 0 k (.returned now) := fun _ _ _ => hnow
    have hzero (t : UInt64) (call : Call) := hcalls t 0 call (by decide)
    refine ⟨hzero _ _, hzero _ _, hreads _ _ (by decide), hzero _ _, hzero _ _, hreads _ _ (by decide), hzero _ _,
      hreads _ _ (by decide), hzero _ _, hreads _ _ (by decide), hzero _ _, hreads _ _ (by decide),
      hcalls _ 500000 _ (by decide), hreads _ _ (by decide), hcalls _ 500000 _ (by decide),
      hreads _ _ (by decide), hcalls _ 800000 _ (by decide), hreads _ _ (by decide), trivial,
      hcalls _ 900000 _ (by decide), trivial⟩

/-- Data that come half a second behind the deadline are handed over. -/
theorem not_inTime_process :
    Throughout (pacedWorld 1500000) (KeepsTime (pacedWorld 1500000)) 0
      ((process [pacedConnection 1500000]).run .plain
        (.initial secondRequest ⟨false, false, true, false, false⟩ 0 none)).events ∧
    ¬Throughout (pacedWorld 1500000) (InTime (pacedWorld 1500000) secondRequest 0) 0
      ((process [pacedConnection 1500000]).run .plain
        (.initial secondRequest ⟨false, false, true, false, false⟩ 0 none)).events := by
  have hevents : ((process [pacedConnection 1500000]).run .plain
      (.initial secondRequest ⟨false, false, true, false, false⟩ 0 none)).events = pacedEvents 1500000 0 := by
    rfl
  rw [hevents]
  refine ⟨keepsTime_paced (by decide) 0, fun h => ?_⟩
  have hsplit : pacedEvents 1500000 0 =
      (pacedEvents 1500000 0).take 18 ++ .callback (.onData (bytes "a")) :: [.call (.canReceive 0)] := rfl
  unfold Throughout at h
  rw [hsplit] at h
  rcases h.allows with hclosing | hlate
  · exact hclosing
  · exact absurd hlate (by decide)

end HttpRequest
