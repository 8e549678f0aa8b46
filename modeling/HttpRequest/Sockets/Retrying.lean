import HttpRequest.Foundations.Retry
import HttpRequest.Model.Sockets

/-! # The retry loops of the sockets

What the four transfer functions make of outcomes that would block and of progress. Each of them is a retry
loop. A plain socket makes no second call when one would block; the loops over TLS give up after
`kMaxRetryCount` calls. They differ in what they report then. -/

namespace HttpRequest

open Foundations

/-! ### Outcomes -/

/-- A call that would block. -/
def WriteOutcome.wouldBlock (kind : SocketKind) (outcome : WriteOutcome) : Bool :=
  match kind with
  | .PlainSocket => outcome.ret == -1 && outcome.error == AgainCode
  | .TSLSocket => decide (outcome.ret < 0) && wants outcome.error

/-- See `WriteOutcome.wouldBlock`. -/
def ReadOutcome.wouldBlock (kind : SocketKind) : ReadOutcome → Bool
  | .bytes _ => false
  | .failed error =>
    match kind with
    | .PlainSocket => error == AgainCode
    | .TSLSocket => wants error

/-- Some bytes are taken, not more than a call can report. -/
def WriteOutcome.Progress (outcome : WriteOutcome) : Prop := 0 < outcome.ret ∧ outcome.ret < 2 ^ 31

/-- Some bytes are there. -/
def ReadOutcome.Progress : ReadOutcome → Prop
  | .bytes data => data ≠ []
  | .failed _ => False

/-- The number of calls after which a transfer function stops to try again. -/
def callLimit : SocketKind → Nat
  | .PlainSocket => 1
  | .TSLSocket => kMaxRetryCount

/-- One call is always allowed. -/
theorem callLimit_pos (kind : SocketKind) : 0 < callLimit kind := by
  cases kind <;> decide

/-- The limit of a TLS socket is that of its retries. -/
theorem callLimit_of_TSLSocket {kind : SocketKind} (hkind : kind = .TSLSocket) :
    callLimit kind = kMaxRetryCount := by
  rw [hkind]
  rfl

/-- What a sending call reports of its last outcome. -/
def WriteOutcome.report (kind : SocketKind) (outcome : WriteOutcome) : SocketResult × Int :=
  if outcome.wouldBlock kind then
    match kind with
    | .PlainSocket => ({ resultCode := .Failed, errorCode := AgainCode }, 0)
    | .TSLSocket => ({ resultCode := .RetryReachMaxCount, errorCode := outcome.error }, outcome.ret)
  else ({}, outcome.ret)

/-- What a receiving call reports of its last outcome. -/
def ReadOutcome.report (kind : SocketKind) : ReadOutcome → SocketResult × Bytes
  | .bytes data => ({}, data)
  | .failed error =>
    match kind with
    | .PlainSocket => ({ resultCode := .Retry, errorCode := AgainCode }, [])
    | .TSLSocket => ({ resultCode := .RetryReachMaxCount, errorCode := error }, [])

/-- A call that makes progress does not block. -/
theorem not_wouldBlock {outcome : WriteOutcome} (h : outcome.Progress) (kind : SocketKind) :
    outcome.wouldBlock kind = false := by
  have hpos := h.1
  cases kind with
  | PlainSocket =>
    simp [WriteOutcome.wouldBlock]
    omega
  | TSLSocket =>
    simp [WriteOutcome.wouldBlock]
    omega

/-- Progress is reported as it is. -/
theorem report_of_progress {outcome : WriteOutcome} (h : outcome.Progress) (kind : SocketKind) :
    outcome.report kind = ({}, outcome.ret) := by
  unfold WriteOutcome.report
  rw [not_wouldBlock h, if_neg Bool.false_ne_true]

/-- An object that can transfer data: a `TSLSocket` has its `SSL` object. -/
def ISocket.Connected (self : ISocket) : Prop := self.kind = .TSLSocket → self.sslPtr ≠ none

/-! ### Runs -/

/-- The run of a retry loop that reports its last outcome. -/
def retryRun {α β : Type} (call : Syscall) (report : α → β) (s : MethodState) (count : Nat)
    (outcomes : List α) : Option (α × Nat) → Run MethodState Syscall Stop β
  | none => ⟨.error .pending, s, List.replicate (outcomes.length + 1) call⟩
  | some (outcome, calls) => ⟨.ok (report outcome), s, List.replicate (calls - count) call⟩

section

variable {s : MethodState} {data : Bytes}

/-- The run of a loop that ends, call by call. -/
theorem retryRun_some {α β : Type} (call : Syscall) (report : α → β) (count : Nat) (outcomes : List α)
    (outcome : α) (calls : Nat) :
    retryRun call report s count outcomes (some (outcome, calls)) =
      ⟨.ok (report outcome), s, List.replicate (calls - count) call⟩ := rfl

/-- One more call in front of a retry loop. -/
theorem prepend_retryRun {α β : Type} {call : Syscall} {report : α → β} {count : Nat} {outcomes : List α}
    (outcome : α) {last : Option (α × Nat)} (hlast : ∀ o calls, last = some (o, calls) → count < calls) :
    (retryRun call report s (count + 1) outcomes last).prepend [call] =
      retryRun call report s count (outcome :: outcomes) last := by
  cases last with
  | none => rfl
  | some last =>
    obtain ⟨o, calls⟩ := last
    have hlt := hlast o calls rfl
    have hcalls : calls - count = calls - (count + 1) + 1 := by omega
    unfold retryRun
    dsimp only
    rw [Run.prepend_mk, hcalls, List.replicate_succ]
    rfl

/-- **How a retry loop ends** over some outcomes, each of its passes making the same call: it waits in a call, or
returns its report of the first outcome that is not transient or of that of its last call. -/
inductive EndsRetrying {α β : Type} (call : Syscall) (report : α → β) (transient : α → Bool) (limit : Nat)
    (s : MethodState) (outcomes : List α) (r : Run MethodState Syscall Stop β) : Prop
  | waits (hall : ∀ o ∈ outcomes, transient o = true) (hlt : outcomes.length < limit)
      (hrun : r = ⟨.error .pending, s, List.replicate (outcomes.length + 1) call⟩)
  | returns (front : List α) (outcome : α) (rest : List α) (houtcomes : outcomes = front ++ outcome :: rest)
      (hfront : ∀ o ∈ front, transient o = true) (hlt : front.length < limit)
      (hlast : transient outcome = true → front.length + 1 = limit)
      (hrun : r = ⟨.ok (report outcome), s, List.replicate (front.length + 1) call⟩)

/-- A loop that retries ends with the first outcome that is not transient, at the limit, or waits. -/
theorem retryRun_cases {α β : Type} (call : Syscall) (report : α → β) {transient : α → Bool} {limit : Nat}
    (hlimit : 0 < limit) (outcomes : List α) :
    EndsRetrying call report transient limit s outcomes
      (retryRun call report s 0 outcomes (retry transient limit 0 outcomes)) := by
  rcases retry_cases transient limit hlimit outcomes with ⟨hnone, hall, hlt⟩ |
    ⟨front, outcome, rest, houtcomes, hall, hle, hlast, hsome⟩
  · rw [Nat.zero_add] at hlt
    rw [hnone]
    exact .waits hall hlt rfl
  · rw [Nat.zero_add] at hle hlast hsome
    rw [hsome]
    exact .returns front outcome rest houtcomes hall hle hlast rfl

/-- Every call uses up an outcome. -/
theorem drop_calls {α : Type} (front : List α) (outcome : α) (rest : List α) (call : Syscall) :
    (front ++ outcome :: rest).drop (List.replicate (front.length + 1) call).length = rest := by
  rw [List.length_replicate, List.append_cons, List.drop_left' (by simp)]

/-- A loop that waits in a call has made one more call than there were outcomes. -/
theorem EndsRetrying.of_waits {α β : Type} {call : Syscall} {report : α → β} {transient : α → Bool} {limit : Nat}
    {outcomes : List α} {r : Run MethodState Syscall Stop β}
    (h : EndsRetrying call report transient limit s outcomes r) (hwaits : r.outcome = .error .pending) :
    (∀ o ∈ outcomes, transient o = true) ∧ outcomes.length < limit ∧
      r.events = List.replicate (outcomes.length + 1) call := by
  cases h with
  | waits hall hlt hrun => exact ⟨hall, hlt, hrun ▸ rfl⟩
  | returns front outcome rest houtcomes hfront hlt hlast hrun =>
    rw [hrun] at hwaits
    cases hwaits

/-- A loop that returns has used up the outcomes up to the one it reports. -/
theorem EndsRetrying.of_returns {α β : Type} {call : Syscall} {report : α → β} {transient : α → Bool} {limit : Nat}
    {outcomes : List α} {r : Run MethodState Syscall Stop β} {value : β}
    (h : EndsRetrying call report transient limit s outcomes r) (hreturns : r.outcome = .ok value) :
    ∃ front outcome rest, outcomes = front ++ outcome :: rest ∧ (∀ o ∈ front, transient o = true) ∧
      front.length < limit ∧ (transient outcome = true → front.length + 1 = limit) ∧ report outcome = value ∧
      r.events = List.replicate (front.length + 1) call ∧ outcomes.drop r.events.length = rest := by
  cases h with
  | waits hall hlt hrun =>
    rw [hrun] at hreturns
    cases hreturns
  | returns front outcome rest houtcomes hfront hlt hlast hrun =>
    subst hrun houtcomes
    exact ⟨front, outcome, rest, rfl, hfront, hlt, hlast, Except.ok.inj hreturns, rfl, drop_calls _ _ _ _⟩

/-- A size below `2 ^ 31` survives 32 bits. -/
theorem toInt32_of_progress {n : Int} (hpos : 0 < n) (hlt : n < 2 ^ 31) : toInt32 n = n := by
  unfold toInt32
  exact Int.bmod_eq_of_le (by omega) (by omega)

/-- `PlainSocket::send` on outcomes that would block and progress. -/
theorem run_plainSend {outcomes : List WriteOutcome}
    (h : ∀ o ∈ outcomes, o.wouldBlock .PlainSocket = true ∨ o.Progress) :
    (PlainSocket.send data outcomes).run () s =
      retryRun (.send data) (WriteOutcome.report .PlainSocket) s 0 outcomes
        (retry (WriteOutcome.wouldBlock .PlainSocket) (callLimit .PlainSocket) 0 outcomes) := by
  cases outcomes with
  | nil => rfl
  | cons outcome outcomes =>
    have hlast : retry (WriteOutcome.wouldBlock .PlainSocket) (callLimit .PlainSocket) 0
        (outcome :: outcomes) = some (outcome, 1) := retry_cons_of_last _ _ (fun _ => le_rfl) _
    rw [hlast, retryRun_some]
    rcases h outcome List.mem_cons_self with hblock | hprogress
    · obtain ⟨ret, error⟩ := outcome
      obtain ⟨rfl, rfl⟩ : ret = -1 ∧ error = AgainCode := by simpa [WriteOutcome.wouldBlock] using hblock
      rfl
    · obtain ⟨hpos, hlt⟩ := id hprogress
      have hsize := toInt32_of_progress hpos hlt
      have hretry : ¬(0 + 1 < kMaxRetryCount ∧ (0 : Int) = RetryCode) := by decide
      rw [report_of_progress hprogress]
      simp only [PlainSocket.send, PlainSocket.sendLoop, Program.run_bind, Program.run_emit, Run.andThen_ok,
        hsize, if_neg (show ¬outcome.ret = -1 by omega), if_neg hretry, Program.run_pure, Run.prepend_mk,
        PlainSocket.sendResult, if_neg (show ¬outcome.ret = 0 by omega)]
      rfl

/-- `PlainSocket::receive` on outcomes that would block and progress. -/
theorem run_plainReceive {outcomes : List ReadOutcome}
    (h : ∀ o ∈ outcomes, o.wouldBlock .PlainSocket = true ∨ o.Progress) :
    (PlainSocket.receive outcomes).run () s =
      retryRun (.recv kDefaultReadSize) (ReadOutcome.report .PlainSocket) s 0 outcomes
        (retry (ReadOutcome.wouldBlock .PlainSocket) (callLimit .PlainSocket) 0 outcomes) := by
  cases outcomes with
  | nil => rfl
  | cons outcome outcomes =>
    have hlast : retry (ReadOutcome.wouldBlock .PlainSocket) (callLimit .PlainSocket) 0
        (outcome :: outcomes) = some (outcome, 1) := retry_cons_of_last _ _ (fun _ => le_rfl) _
    rw [hlast]
    cases outcome with
    | bytes data =>
      have hne : data ≠ [] := (h _ List.mem_cons_self).resolve_left Bool.false_ne_true
      have hsome : data.isEmpty = false := List.isEmpty_eq_false_iff.mpr hne
      show Run.prepend _ (Run.mk (.ok (PlainSocket.receiveResult (.bytes data))) s []) = _
      rw [PlainSocket.receiveResult, hsome]
      rfl
    | failed error =>
      obtain rfl : error = AgainCode := by
        simpa [ReadOutcome.wouldBlock, ReadOutcome.Progress] using h _ List.mem_cons_self
      rfl

/-- The loop of `SSLManager::write` on outcomes that would block and progress. -/
theorem run_writeLoop {outcomes : List WriteOutcome}
    (h : ∀ o ∈ outcomes, o.wouldBlock .TSLSocket = true ∨ o.Progress) {count : Nat}
    (hcount : count < kMaxRetryCount) (isNeedRetry : Bool) (errorCode : Int) :
    (SSLManager.writeLoop data count isNeedRetry errorCode outcomes).run () s =
      retryRun (.SSL_write data) (WriteOutcome.report .TSLSocket) s count outcomes
        (retry (WriteOutcome.wouldBlock .TSLSocket) kMaxRetryCount count outcomes) := by
  induction outcomes generalizing count isNeedRetry errorCode with
  | nil => rfl
  | cons outcome outcomes ih =>
    rw [SSLManager.writeLoop, Program.run_bind, Program.run_emit, Run.andThen_ok]
    rcases h outcome List.mem_cons_self with hblock | hprogress
    · have hwants : outcome.ret < 0 ∧ wants outcome.error = true := by
        simpa [WriteOutcome.wouldBlock] using hblock
      rw [if_neg (by omega), if_pos hwants.1]
      by_cases hlast : kMaxRetryCount ≤ count + 1
      · rw [if_pos hlast, retry_cons_of_last _ _ (fun _ => hlast), retryRun_some, Nat.add_sub_cancel_left]
        unfold WriteOutcome.report
        rw [if_pos hblock]
        rfl
      · rw [if_neg hlast, retry_cons_of_transient _ _ hblock (by omega), hwants.2, Bool.or_true,
          if_pos rfl, ih (fun o ho => h o (List.mem_cons_of_mem _ ho)) (by omega)]
        exact prepend_retryRun outcome fun o calls hsome => Nat.lt_of_succ_lt (lt_of_retry _ _ hsome)
    · have hpos := hprogress.1
      have hblock := Bool.not_eq_true _ ▸ not_wouldBlock hprogress .TSLSocket
      rw [if_neg (by omega), if_neg (by omega), retry_cons_of_last _ _ (fun htrue => absurd htrue hblock),
        retryRun_some, Nat.add_sub_cancel_left, report_of_progress hprogress]
      rfl

/-- The loop of `SSLManager::read` on outcomes that would block and progress. -/
theorem run_readLoop {outcomes : List ReadOutcome}
    (h : ∀ o ∈ outcomes, o.wouldBlock .TSLSocket = true ∨ o.Progress) {count : Nat}
    (hcount : count < kMaxRetryCount) (isNeedRetry : Bool) (errorCode : Int) :
    (SSLManager.readLoop count isNeedRetry errorCode outcomes).run () s =
      retryRun (.SSL_read kDefaultReadSize) (ReadOutcome.report .TSLSocket) s count outcomes
        (retry (ReadOutcome.wouldBlock .TSLSocket) kMaxRetryCount count outcomes) := by
  induction outcomes generalizing count isNeedRetry errorCode with
  | nil => rfl
  | cons outcome outcomes ih =>
    unfold SSLManager.readLoop
    rw [Program.run_bind, Program.run_emit, Run.andThen_ok]
    cases outcome with
    | bytes bytes =>
      have hne : bytes ≠ [] := (h _ List.mem_cons_self).resolve_left Bool.false_ne_true
      dsimp only
      rw [if_neg (fun hempty => hne (List.isEmpty_iff.mp hempty)),
        retry_cons_of_last _ _ (fun htrue => absurd htrue Bool.false_ne_true), retryRun_some,
        Nat.add_sub_cancel_left]
      rfl
    | failed error =>
      have hblock : (ReadOutcome.failed error).wouldBlock .TSLSocket = true :=
        (h _ List.mem_cons_self).resolve_right id
      have hwants : wants error = true := hblock
      dsimp only
      by_cases hlast : kMaxRetryCount ≤ count + 1
      · rw [if_pos hlast, retry_cons_of_last _ _ (fun _ => hlast), retryRun_some, Nat.add_sub_cancel_left]
        rfl
      · rw [if_neg hlast, retry_cons_of_transient _ _ hblock (by omega), hwants, Bool.or_true,
          if_pos rfl, ih (fun o ho => h o (List.mem_cons_of_mem _ ho)) (by omega)]
        exact prepend_retryRun _ fun o calls hsome => Nat.lt_of_succ_lt (lt_of_retry _ _ hsome)

/-- The call of the system with which an object sends. -/
def sendCall (kind : SocketKind) (data : Bytes) : Syscall :=
  match kind with
  | .PlainSocket => .send data
  | .TSLSocket => .SSL_write data

/-- The call of the system with which an object receives. -/
def receiveCall : SocketKind → Syscall
  | .PlainSocket => .recv kDefaultReadSize
  | .TSLSocket => .SSL_read kDefaultReadSize

/-- **Sending is a retry loop**, and every call of it offers the same bytes. -/
theorem run_sendSocket (hself : s.self.Connected) {outcomes : List WriteOutcome}
    (h : ∀ o ∈ outcomes, o.wouldBlock s.self.kind = true ∨ o.Progress) :
    (sendSocket data outcomes).run () s =
      retryRun (sendCall s.self.kind data) (WriteOutcome.report s.self.kind) s 0 outcomes
        (retry (WriteOutcome.wouldBlock s.self.kind) (callLimit s.self.kind) 0 outcomes) := by
  unfold sendSocket
  rw [Program.run_bind, Program.run_state, Run.andThen_ok]
  cases hkind : s.self.kind with
  | PlainSocket =>
    rw [hkind] at h
    exact run_plainSend h
  | TSLSocket =>
    rw [hkind] at h
    obtain ⟨ssl, hssl⟩ := Option.ne_none_iff_exists'.mp (hself hkind)
    unfold TSLSocket.send
    dsimp only
    rw [Program.run_bind, Program.run_state, Run.andThen_ok, hssl]
    exact run_writeLoop h (by decide) false 0

/-- **Receiving is a retry loop.** -/
theorem run_receiveSocket (hself : s.self.Connected) {outcomes : List ReadOutcome}
    (h : ∀ o ∈ outcomes, o.wouldBlock s.self.kind = true ∨ o.Progress) :
    (receiveSocket outcomes).run () s =
      retryRun (receiveCall s.self.kind) (ReadOutcome.report s.self.kind) s 0 outcomes
        (retry (ReadOutcome.wouldBlock s.self.kind) (callLimit s.self.kind) 0 outcomes) := by
  unfold receiveSocket
  rw [Program.run_bind, Program.run_state, Run.andThen_ok]
  cases hkind : s.self.kind with
  | PlainSocket =>
    rw [hkind] at h
    exact run_plainReceive h
  | TSLSocket =>
    rw [hkind] at h
    obtain ⟨ssl, hssl⟩ := Option.ne_none_iff_exists'.mp (hself hkind)
    unfold TSLSocket.receive
    dsimp only
    rw [Program.run_bind, Program.run_state, Run.andThen_ok, hssl]
    exact run_readLoop h (by decide) false 0

end

/-- The ends of a sending call. -/
theorem sendSocket_cases {self : ISocket} (hself : self.Connected) (start : UInt64) (data : Bytes)
    {outcomes : List WriteOutcome} (h : ∀ o ∈ outcomes, o.wouldBlock self.kind = true ∨ o.Progress) :
    EndsRetrying (sendCall self.kind data) (WriteOutcome.report self.kind) (WriteOutcome.wouldBlock self.kind)
      (callLimit self.kind) ⟨self, start⟩ outcomes ((sendSocket data outcomes).run () ⟨self, start⟩) := by
  rw [run_sendSocket (s := ⟨self, start⟩) hself h]
  exact retryRun_cases _ _ (callLimit_pos self.kind) outcomes

/-- The ends of a receiving call. -/
theorem receiveSocket_cases {self : ISocket} (hself : self.Connected) (start : UInt64)
    {outcomes : List ReadOutcome} (h : ∀ o ∈ outcomes, o.wouldBlock self.kind = true ∨ o.Progress) :
    EndsRetrying (receiveCall self.kind) (ReadOutcome.report self.kind) (ReadOutcome.wouldBlock self.kind)
      (callLimit self.kind) ⟨self, start⟩ outcomes ((receiveSocket outcomes).run () ⟨self, start⟩) := by
  rw [run_receiveSocket (s := ⟨self, start⟩) hself h]
  exact retryRun_cases _ _ (callLimit_pos self.kind) outcomes

/-- A plain socket with a descriptor. -/
def plainState : MethodState := ⟨⟨.PlainSocket, .V4, some 3, none⟩, 0⟩

/-- A connected `TSLSocket`. -/
def tlsState : MethodState := ⟨⟨.TSLSocket, .V4, some 3, some ⟨some 3⟩⟩, 0⟩

end HttpRequest
