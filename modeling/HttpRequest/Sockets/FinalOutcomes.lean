import HttpRequest.DataInvariant
import HttpRequest.Receiver.Phases
import HttpRequest.Sockets.Retrying

/-! # What the transfer functions report

Each of the four transfer functions repeats a call and reports the last of its outcomes. The calls of a plain
socket are repeated as long as they are interrupted; what is reported is the first outcome that is not
(`repeats_plainSocket`). The calls over TLS are repeated as long as they want to be, and from then on as long
as they fail (`stopsAtFinal_iff`). -/

namespace HttpRequest

open Foundations

/-! ### Plain sockets -/

/-- A call that was interrupted. -/
def WriteOutcome.interrupted (outcome : WriteOutcome) : Bool :=
  outcome.ret == -1 && outcome.error == RetryCode

/-- See `WriteOutcome.interrupted`. -/
def ReadOutcome.interrupted : ReadOutcome → Bool
  | .bytes _ => false
  | .failed errno => errno == RetryCode

/-- What `::send` can return: how many of the bytes offered it took, or `-1`. -/
def WriteOutcome.OfSend (size : Nat) (outcome : WriteOutcome) : Prop :=
  outcome.ret = -1 ∨ 0 ≤ outcome.ret ∧ outcome.ret ≤ size ∧ outcome.ret < 2 ^ 31

/-- What `::recv` can return: at most as many bytes as the buffer has room for, or an error. -/
def ReadOutcome.OfRecv : ReadOutcome → Prop
  | .bytes data => data.length ≤ kDefaultReadSize
  | .failed _ => True

instance (size : Nat) (outcome : WriteOutcome) : Decidable (outcome.OfSend size) :=
  inferInstanceAs (Decidable (_ ∨ _))

instance : DecidablePred ReadOutcome.OfRecv
  | .bytes data => inferInstanceAs (Decidable (data.length ≤ kDefaultReadSize))
  | .failed _ => isTrue trivial

/-- What a sending call is to report of an outcome. -/
def WriteOutcome.classify (outcome : WriteOutcome) : SocketResult × Int :=
  if outcome.ret = -1 then ({ resultCode := .Failed, errorCode := outcome.error }, 0)
  else if outcome.ret = 0 then ({ resultCode := .Disconnected }, 0)
  else ({}, outcome.ret)

/-- What a receiving call is to report of an outcome. -/
def ReadOutcome.classify : ReadOutcome → SocketResult × Bytes
  | .bytes data => ({ resultCode := if data = [] then .Disconnected else .Success }, data)
  | .failed errno =>
    ({ resultCode := if errno = AgainCode then .Retry else .Failed, errorCode := errno }, [])

/-- What is to be reported when every call was interrupted. -/
def interruptedResult : SocketResult := { resultCode := .RetryReachMaxCount, errorCode := RetryCode }

/-- **A call that is made again while it is interrupted**, at most `kMaxRetryCount` times. What it reports
depends alone on the first outcome that was not interrupted. -/
structure RepeatsInterrupted {α β : Type} (interrupted : α → Bool) (classify : α → SocketResult × β)
    (nothing : β) (call : Syscall) (s : MethodState) (outcomes : List α)
    (r : Run MethodState Syscall Stop (SocketResult × β)) : Prop where
  calls : r.events.length ≤ kMaxRetryCount
  decided : ∀ front outcome rest, outcomes = front ++ outcome :: rest →
    (∀ o ∈ front, interrupted o = true) → interrupted outcome = false →
    front.length < kMaxRetryCount →
    r = ⟨.ok (classify outcome), s, List.replicate (front.length + 1) call⟩
  exhausted : ∀ front rest, outcomes = front ++ rest → (∀ o ∈ front, interrupted o = true) →
    front.length = kMaxRetryCount →
    r = ⟨.ok (interruptedResult, nothing), s, List.replicate kMaxRetryCount call⟩
  waits : (∀ o ∈ outcomes, interrupted o = true) → outcomes.length < kMaxRetryCount →
    r = ⟨.error .pending, s, List.replicate (outcomes.length + 1) call⟩
  /-- Only so many interruptions in a row are given up. -/
  limit : ∀ result value, r.outcome = .ok (result, value) →
    (result.resultCode = .RetryReachMaxCount ↔ ∃ front rest, outcomes = front ++ rest ∧
      front.length = kMaxRetryCount ∧ ∀ o ∈ front, interrupted o = true)
  /-- Nothing comes with an error. -/
  error : ∀ result value, r.outcome = .ok (result, value) → result.isSuccess = false → value = nothing

section

variable {s : MethodState} {data : Bytes} {call : Syscall}

/-- A retry loop makes no more calls than it may. -/
theorem length_events_retryRun {α β : Type} (transient : α → Bool) (report : α → β) (outcomes : List α) :
    (retryRun call report s 0 outcomes (retry transient kMaxRetryCount 0 outcomes)).events.length ≤
      kMaxRetryCount := by
  rcases @retryRun_cases s α β call report transient kMaxRetryCount (by decide) outcomes with
    ⟨-, hlt, hrun⟩ | ⟨front, outcome, rest, -, -, hlt, -, hrun⟩
  · rw [hrun, List.length_replicate]
    exact hlt
  · rw [hrun, List.length_replicate]
    exact hlt

/-- A retry loop reports one of the outcomes. -/
theorem exists_report_of_ok {α β : Type} {transient : α → Bool} {report : α → β} {outcomes : List α} {res : β}
    (h : (retryRun call report s 0 outcomes (retry transient kMaxRetryCount 0 outcomes)).outcome = .ok res) :
    ∃ outcome ∈ outcomes, report outcome = res := by
  rcases @retryRun_cases s α β call report transient kMaxRetryCount (by decide) outcomes with
    ⟨-, -, hrun⟩ | ⟨front, outcome, rest, rfl, -, -, -, hrun⟩
  · rw [hrun] at h
    cases h
  · rw [hrun] at h
    exact ⟨outcome, by simp, Except.ok.inj h⟩

/-- A retry loop over interruptions. -/
theorem repeatsInterrupted_of_run {α β : Type} {interrupted : α → Bool} {classify : α → SocketResult × β}
    {report : α → SocketResult × β} {nothing : β} {outcomes : List α}
    (hdecided : ∀ o ∈ outcomes, interrupted o = false → report o = classify o)
    (hexhausted : ∀ o ∈ outcomes, interrupted o = true → report o = (interruptedResult, nothing))
    (hcode : ∀ o, (classify o).1.resultCode ≠ .RetryReachMaxCount)
    (hnothing : ∀ o, (classify o).1.isSuccess = false → (classify o).2 = nothing)
    {r : Run MethodState Syscall Stop (SocketResult × β)}
    (hrun : r = retryRun call report s 0 outcomes (retry interrupted kMaxRetryCount 0 outcomes)) :
    RepeatsInterrupted interrupted classify nothing call s outcomes r := by
  have hpositive : 0 < kMaxRetryCount := by decide
  have hdone : ∀ front outcome rest, outcomes = front ++ outcome :: rest →
      (∀ o ∈ front, interrupted o = true) → interrupted outcome = false →
      front.length < kMaxRetryCount →
      r = ⟨.ok (classify outcome), s, List.replicate (front.length + 1) call⟩ := by
    rintro front outcome rest rfl hfront houtcome hlength
    rw [hrun, retry_of_decided _ _ hfront (by omega) houtcome, retryRun_some,
      hdecided outcome (by simp) houtcome, Nat.sub_zero, Nat.zero_add]
  have hgiven : ∀ front rest, outcomes = front ++ rest → (∀ o ∈ front, interrupted o = true) →
      front.length = kMaxRetryCount →
      r = ⟨.ok (interruptedResult, nothing), s, List.replicate kMaxRetryCount call⟩ := by
    rintro front rest rfl hfront hlength
    obtain ⟨outcome, hmem, hretry⟩ := retry_of_exhausted interrupted kMaxRetryCount hfront hlength
      hpositive rest
    rw [hrun, hretry, retryRun_some, hexhausted outcome (by simp [hmem]) (hfront outcome hmem),
      Nat.sub_zero]
  refine ⟨?_, hdone, hgiven, fun hall hlength => ?_, fun result value hresult => ⟨fun hlimit => ?_, ?_⟩,
    fun result value hresult herror => ?_⟩
  · rw [hrun]
    exact length_events_retryRun interrupted report outcomes
  · rw [hrun, retry_of_waiting _ _ hall hlength]
    rfl
  · rcases retryRun_cases (s := s) call report hpositive outcomes with ⟨hall, hlt, hrun'⟩ |
      ⟨front, outcome, rest, rfl, hfront, hlt, hlast, hrun'⟩
    · rw [hrun, hrun'] at hresult
      cases hresult
    · cases houtcome : interrupted outcome with
      | false =>
        rw [hdone front outcome rest rfl hfront houtcome hlt, Except.ok.injEq] at hresult
        have hsame : (classify outcome).1.resultCode = result.resultCode :=
          congrArg (fun res => res.1.resultCode) hresult
        exact absurd (hsame.trans hlimit) (hcode outcome)
      | true =>
        refine ⟨front ++ [outcome], rest, by simp, ?_, ?_⟩
        · rw [List.length_append, List.length_singleton, hlast houtcome]
        · simpa [or_imp, forall_and, houtcome] using hfront
  · rintro ⟨front, rest, houtcomes, hlength, hfront⟩
    rw [hgiven front rest houtcomes hfront hlength, Except.ok.injEq, Prod.mk.injEq] at hresult
    rw [← hresult.1]
    rfl
  · rw [hrun] at hresult
    obtain ⟨outcome, hmem, hreport⟩ := exists_report_of_ok hresult
    cases houtcome : interrupted outcome with
    | false =>
      have hclassify : classify outcome = (result, value) :=
        (hdecided outcome hmem houtcome).symm.trans hreport
      have hvalue := hnothing outcome
      rw [hclassify] at hvalue
      exact hvalue herror
    | true =>
      have hgivenUp := (hexhausted outcome hmem houtcome).symm.trans hreport
      exact (congrArg Prod.snd hgivenUp).symm

/-- What is reported of the last outcome of a sending call. -/
def WriteOutcome.last (outcome : WriteOutcome) : SocketResult × Int :=
  PlainSocket.sendResult outcome.ret (if outcome.ret = -1 then outcome.error else 0)

/-- The size of an outcome in range survives 32 bits. -/
theorem toInt32_of_ofSend {size : Nat} {outcome : WriteOutcome} (h : outcome.OfSend size) :
    toInt32 outcome.ret = outcome.ret := by
  unfold toInt32
  rcases h with hneg | ⟨hnonneg, -, hlt⟩
  · rw [hneg]
    rfl
  · exact Int.bmod_eq_of_le (by omega) (by omega)

/-- `PlainSocket::send` is a retry loop over interruptions. -/
theorem run_plainSend_interrupted {outcomes : List WriteOutcome}
    (h : ∀ o ∈ outcomes, o.OfSend data.length) :
    (PlainSocket.send data outcomes).run () s =
      retryRun (.send data) WriteOutcome.last s 0 outcomes
        (retry WriteOutcome.interrupted kMaxRetryCount 0 outcomes) := by
  have hloop (count : Nat) (hcount : count < kMaxRetryCount) :
      (PlainSocket.sendLoop data count outcomes >>= fun last =>
          (pure (PlainSocket.sendResult last.1 last.2) : Method (SocketResult × Int))).run () s =
        retryRun (.send data) WriteOutcome.last s count outcomes
          (retry WriteOutcome.interrupted kMaxRetryCount count outcomes) := by
    induction outcomes generalizing count with
    | nil => rfl
    | cons outcome outcomes ih =>
      obtain ⟨houtcome, hrest⟩ := List.forall_mem_cons.mp h
      have hsize := toInt32_of_ofSend houtcome
      have hagain : outcome.interrupted = true ↔
          (if outcome.ret = -1 then outcome.error else 0) = RetryCode := by
        unfold WriteOutcome.interrupted
        by_cases hret : outcome.ret = -1 <;> simp [hret, RetryCode]
      rw [PlainSocket.sendLoop, bind_assoc, Program.run_bind, Program.run_emit, Run.andThen_ok, hsize]
      by_cases hnext : outcome.interrupted = true ∧ count + 1 < kMaxRetryCount
      · rw [if_pos ⟨hnext.2, hagain.mp hnext.1⟩, ih hrest (count + 1) hnext.2,
          retry_cons_of_transient _ _ hnext.1 hnext.2]
        exact prepend_retryRun outcome fun o calls hsome => Nat.lt_of_succ_lt (lt_of_retry _ _ hsome)
      · have hlast : outcome.interrupted = true → kMaxRetryCount ≤ count + 1 := by
          intro hinterrupted
          by_contra hlt
          exact hnext ⟨hinterrupted, by omega⟩
        rw [if_neg fun hand => hnext ⟨hagain.mpr hand.2, hand.1⟩, retry_cons_of_last _ _ hlast,
          retryRun_some, Nat.add_sub_cancel_left]
        rfl
  exact hloop 0 (by decide)

/-- `PlainSocket::receive` is a retry loop over interruptions. -/
theorem run_plainReceive_interrupted (outcomes : List ReadOutcome) :
    (PlainSocket.receive outcomes).run () s =
      retryRun (.recv kDefaultReadSize) PlainSocket.receiveResult s 0 outcomes
        (retry ReadOutcome.interrupted kMaxRetryCount 0 outcomes) := by
  have hloop (count : Nat) (hcount : count < kMaxRetryCount) :
      (PlainSocket.receiveLoop count outcomes >>= fun last =>
          (pure (PlainSocket.receiveResult last) : Method (SocketResult × Bytes))).run () s =
        retryRun (.recv kDefaultReadSize) PlainSocket.receiveResult s count outcomes
          (retry ReadOutcome.interrupted kMaxRetryCount count outcomes) := by
    induction outcomes generalizing count with
    | nil => rfl
    | cons outcome outcomes ih =>
      unfold PlainSocket.receiveLoop
      rw [bind_assoc, Program.run_bind, Program.run_emit, Run.andThen_ok]
      cases outcome with
      | bytes data =>
        rw [retry_cons_of_last _ _ (fun h => absurd h Bool.false_ne_true), retryRun_some,
          Nat.add_sub_cancel_left]
        rfl
      | failed errno =>
        have hagain : (ReadOutcome.failed errno).interrupted = true ↔ errno = RetryCode := beq_iff_eq
        dsimp only
        by_cases hnext : errno = RetryCode ∧ count + 1 < kMaxRetryCount
        · rw [if_pos ⟨hnext.2, hnext.1⟩, ih (count + 1) hnext.2,
            retry_cons_of_transient _ _ (hagain.mpr hnext.1) hnext.2]
          exact prepend_retryRun _ fun o calls hsome => Nat.lt_of_succ_lt (lt_of_retry _ _ hsome)
        · have hlast : (ReadOutcome.failed errno).interrupted = true → kMaxRetryCount ≤ count + 1 := by
            intro hinterrupted
            by_contra hlt
            exact hnext ⟨hagain.mp hinterrupted, by omega⟩
          rw [if_neg fun hand => hnext ⟨hand.2, hand.1⟩, retry_cons_of_last _ _ hlast, retryRun_some,
            Nat.add_sub_cancel_left]
          rfl
  exact hloop 0 (by decide)

end

/-- **The retry loops of a plain socket are transparent to interruptions.** The data received are handed over
in a `Data` that shows them. -/
theorem repeats_plainSocket (s : MethodState) :
    (∀ (data : Bytes) (outcomes : List WriteOutcome), (∀ o ∈ outcomes, o.OfSend data.length) →
      RepeatsInterrupted WriteOutcome.interrupted WriteOutcome.classify 0 (.send data) s outcomes
        ((PlainSocket.send data outcomes).run () s)) ∧
    ∀ outcomes : List ReadOutcome, (∀ o ∈ outcomes, o.OfRecv) →
      RepeatsInterrupted ReadOutcome.interrupted ReadOutcome.classify [] (.recv kDefaultReadSize) s outcomes
        ((PlainSocket.receive outcomes).run () s) ∧
      ∀ result data, ((PlainSocket.receive outcomes).run () s).outcome = .ok (result, data) →
        (receivedData data).Valid ∧ (receivedData data).length = data.length ∧
          (receivedData data).view = data := by
  constructor
  · intro data outcomes houtcomes
    refine repeatsInterrupted_of_run (fun o ho hdecided => ?_) (fun o ho hinterrupted => ?_)
      (fun o => ?_) (fun o => ?_) (run_plainSend_interrupted houtcomes)
    · unfold WriteOutcome.last PlainSocket.sendResult WriteOutcome.classify
      unfold WriteOutcome.interrupted at hdecided
      by_cases hret : o.ret = -1
      · have herror : o.error ≠ RetryCode := by simpa [hret] using hdecided
        simp [hret, herror]
      · simp [hret]
    · obtain ⟨hret, herror⟩ : o.ret = -1 ∧ o.error = RetryCode := by
        simpa [WriteOutcome.interrupted] using hinterrupted
      unfold WriteOutcome.last PlainSocket.sendResult
      rw [hret, herror]
      rfl
    · unfold WriteOutcome.classify
      split_ifs <;> simp
    · unfold WriteOutcome.classify
      split_ifs <;> simp [SocketResult.isSuccess]
  · intro outcomes houtcomes
    have hrepeats : RepeatsInterrupted ReadOutcome.interrupted ReadOutcome.classify []
        (.recv kDefaultReadSize) s outcomes ((PlainSocket.receive outcomes).run () s) := by
      refine repeatsInterrupted_of_run (fun o ho hdecided => ?_) (fun o ho hinterrupted => ?_)
        (fun o => ?_) (fun o => ?_) (run_plainReceive_interrupted outcomes)
      · cases o with
        | bytes data => simp [PlainSocket.receiveResult, ReadOutcome.classify]
        | failed errno =>
          have herror : errno ≠ RetryCode := by simpa [ReadOutcome.interrupted] using hdecided
          simp [PlainSocket.receiveResult, ReadOutcome.classify, herror]
      · cases o with
        | bytes data => cases hinterrupted
        | failed errno =>
          obtain rfl : errno = RetryCode := by simpa [ReadOutcome.interrupted] using hinterrupted
          rfl
      · cases o with
        | bytes data =>
          unfold ReadOutcome.classify
          dsimp only
          split_ifs <;> simp
        | failed errno =>
          unfold ReadOutcome.classify
          dsimp only
          split_ifs <;> simp
      · cases o with
        | bytes data => simp [ReadOutcome.classify, SocketResult.isSuccess]
        | failed errno => exact fun _ => rfl
    refine ⟨hrepeats, fun result data hresult => ?_⟩
    rw [run_plainReceive_interrupted] at hresult
    obtain ⟨outcome, hmem, hreport⟩ := exists_report_of_ok hresult
    have hroom : data.length ≤ kDefaultReadSize := by
      cases outcome with
      | bytes received =>
        obtain rfl : received = data := congrArg Prod.snd hreport
        exact houtcomes _ hmem
      | failed errno =>
        obtain rfl : [] = data := congrArg Prod.snd hreport
        exact Nat.zero_le _
    have hbuffer : (Data.allocate kDefaultReadSize).length = kDefaultReadSize := List.length_replicate
    refine ⟨Data.valid_some ?_ hroom, rfl, (view_receivedData data).1⟩
    rw [Data.length_writeAt_of_le (by omega), hbuffer]

/-- Both directions with one interruption. -/
theorem repeats_plainSocket_once :
    (PlainSocket.send (bytes "abc") [⟨-1, RetryCode⟩, ⟨2, 0⟩]).run () plainState =
        ⟨.ok ({}, 2), plainState, [.send (bytes "abc"), .send (bytes "abc")]⟩ ∧
      (PlainSocket.receive [.failed RetryCode, .bytes (bytes "ab")]).run () plainState =
        ⟨.ok ({}, bytes "ab"), plainState, [.recv kDefaultReadSize, .recv kDefaultReadSize]⟩ ∧
      (receivedData (bytes "ab")).view = bytes "ab" := by
  obtain ⟨hsend, hreceive⟩ := repeats_plainSocket plainState
  have hsent := hsend (bytes "abc") [⟨-1, RetryCode⟩, ⟨2, 0⟩] (by decide)
  obtain ⟨hreceived, hdata⟩ := hreceive [.failed RetryCode, .bytes (bytes "ab")] (by decide)
  have hrun := hreceived.decided [.failed RetryCode] (.bytes (bytes "ab")) [] rfl (by decide) rfl (by decide)
  refine ⟨?_, hrun, (hdata {} (bytes "ab") (by rw [hrun]; rfl)).2.2⟩
  exact hsent.decided [⟨-1, RetryCode⟩] ⟨2, 0⟩ [] rfl (by decide) rfl (by decide)

/-! ### TLS -/

/-- A result below zero. -/
def WriteOutcome.isFailed (outcome : WriteOutcome) : Bool := decide (outcome.ret < 0)

/-- See `WriteOutcome.isFailed`. -/
def ReadOutcome.isFailed : ReadOutcome → Bool
  | .bytes _ => false
  | .failed _ => true

/-- What `SSLManager::write` is to report of a final outcome. -/
def WriteOutcome.Reported (outcome : WriteOutcome) (res : SocketResult × Int) : Prop :=
  if 0 < outcome.ret then res = ({}, outcome.ret)
  else if outcome.ret = 0 then res.1.resultCode = .Disconnected
  else res.1 = { resultCode := .Failed, errorCode := outcome.error }

/-- What `SSLManager::read` is to report of a final outcome. -/
def ReadOutcome.Reported (outcome : ReadOutcome) (res : SocketResult × Bytes) : Prop :=
  match outcome with
  | .bytes data => if data = [] then res.1.resultCode = .Disconnected else res = ({}, data)
  | .failed error => res.1 = { resultCode := .Failed, errorCode := error }

/-- **A call over TLS that stops at the first final outcome**, the first that does not want the call to be
made again, and reports it. It gives up when as many outcomes as it may make calls were not final. -/
structure StopsAtFinal {α β : Type} (wants : α → Bool) (Reported : α → SocketResult × β → Prop)
    (outcomes : List α) (r : Run MethodState Syscall Stop (SocketResult × β)) : Prop where
  calls : r.events.length ≤ kMaxRetryCount
  final : ∀ front outcome rest, outcomes = front ++ outcome :: rest → (∀ o ∈ front, wants o = true) →
    wants outcome = false → front.length < kMaxRetryCount →
    r.events.length = front.length + 1 ∧ ∃ res, r.outcome = .ok res ∧ Reported outcome res
  exhausted : ∀ res, r.outcome = .ok res → res.1.resultCode = .RetryReachMaxCount →
    ∃ front rest, outcomes = front ++ rest ∧ front.length = kMaxRetryCount ∧ ∀ o ∈ front, wants o = true

/-- An error that does not want the call to be made again comes first of all, if it comes within the calls. -/
def FailsFirst {α : Type} (wants failed : α → Bool) (outcomes : List α) : Prop :=
  ∀ front outcome rest, outcomes = front ++ outcome :: rest → (∀ o ∈ front, wants o = true) →
    wants outcome = false → front.length < kMaxRetryCount → failed outcome = true → front = []

/-- **The loops of `SSLManager`**: behind a first outcome that wants it, the call is made again as long as
there is an error. -/
structure Stubborn {α β : Type} (wants failed : α → Bool) (Reported : α → SocketResult × β → Prop)
    (call : Syscall) (s : MethodState) (outcomes : List α)
    (r : Run MethodState Syscall Stop (SocketResult × β)) : Prop where
  nil : outcomes = [] → r = ⟨.error .pending, s, [call]⟩
  first : ∀ outcome rest, outcomes = outcome :: rest → wants outcome = false →
    ∃ res, Reported outcome res ∧ res.1.resultCode ≠ .RetryReachMaxCount ∧ r = ⟨.ok res, s, [call]⟩
  again : ∀ outcome rest, outcomes = outcome :: rest → wants outcome = true →
    ∃ report : α → SocketResult × β,
      (∀ o, failed o = false → Reported o (report o) ∧ (report o).1.resultCode ≠ .RetryReachMaxCount) ∧
      (∀ o, failed o = true → (report o).1.resultCode = .RetryReachMaxCount) ∧
      r = retryRun call report s 0 outcomes (retry failed kMaxRetryCount 1 rest)

section

variable {α β : Type} {wants failed : α → Bool} {Reported : α → SocketResult × β → Prop} {call : Syscall}
  {s : MethodState} {outcomes : List α} {r : Run MethodState Syscall Stop (SocketResult × β)}

/-- The first outcome that is final. -/
theorem exists_first_final {outcome : α} (hmem : outcome ∈ outcomes) (h : wants outcome = false) :
    ∃ front first rest, outcomes = front ++ first :: rest ∧ (∀ o ∈ front, wants o = true) ∧
      wants first = false := by
  have hsome : (outcomes.find? fun o => !wants o).isSome = true := by
    rw [List.find?_isSome]
    exact ⟨outcome, hmem, by rw [h]; rfl⟩
  obtain ⟨first, hfirst⟩ := Option.isSome_iff_exists.mp hsome
  obtain ⟨hfinal, front, rest, heq, hfront⟩ := List.find?_eq_some_iff_append.mp hfirst
  exact ⟨front, first, rest, heq, by simpa using hfront, by simpa using hfinal⟩

/-- Where no error comes behind outcomes that want the call to be made again, the loop stops at the first
final one. -/
theorem Stubborn.stopsAtFinal_of_again {first : α} {rest : List α}
    (h : Stubborn wants failed Reported call s (first :: rest) r)
    (hwants : ∀ o, wants o = true → failed o = true) (hfails : FailsFirst wants failed (first :: rest))
    (hfirst : wants first = true) : StopsAtFinal wants Reported (first :: rest) r := by
  obtain ⟨report, hgood, hgiven, rfl⟩ := h.again first rest rfl hfirst
  have hcases := retry_cases failed kMaxRetryCount (show 1 < kMaxRetryCount by decide) rest
  -- a final outcome behind the first is no error
  have hfinal : ∀ front outcome rest', first :: rest = front ++ outcome :: rest' →
      (∀ o ∈ front, wants o = true) → wants outcome = false → front.length < kMaxRetryCount →
      failed outcome = false := by
    intro front outcome rest' heq hfront houtcome hlength
    by_contra hfailed
    rw [Bool.not_eq_false] at hfailed
    obtain rfl := hfails front outcome rest' heq hfront houtcome hlength hfailed
    obtain ⟨rfl, -⟩ := List.cons.inj heq
    rw [hfirst] at houtcome
    cases houtcome
  refine ⟨?_, fun front outcome rest' heq hfront houtcome hlength => ?_, fun res hres hlimit => ?_⟩
  · rcases hcases with ⟨hnone, -, hlt⟩ | ⟨front, outcome, rest', -, -, hle, -, hsome⟩
    · rw [hnone]
      show (List.replicate _ call).length ≤ _
      rw [List.length_replicate, List.length_cons]
      omega
    · rw [hsome, retryRun_some]
      dsimp only
      rw [List.length_replicate]
      omega
  · have hfailed := hfinal front outcome rest' heq hfront houtcome hlength
    cases front with
    | nil =>
      obtain ⟨rfl, -⟩ := List.cons.inj heq
      rw [hfirst] at houtcome
      cases houtcome
    | cons o front =>
      have hrest : rest = front ++ outcome :: rest' := (List.cons.inj heq).2
      have herrors : ∀ o ∈ front, failed o = true := fun o ho =>
        hwants o (hfront o (List.mem_cons_of_mem _ ho))
      rw [List.length_cons] at hlength ⊢
      rw [hrest, retry_of_decided failed kMaxRetryCount herrors (by omega) hfailed, retryRun_some]
      refine ⟨?_, report outcome, rfl, (hgood outcome hfailed).1⟩
      rw [List.length_replicate]
      omega
  · rcases hcases with ⟨hnone, -, -⟩ | ⟨front, outcome, rest', rfl, hfront, hle, hlast, hsome⟩
    · rw [hnone] at hres
      cases hres
    · rw [hsome] at hres
      obtain rfl : report outcome = res := Except.ok.inj hres
      have hfailed : failed outcome = true := by
        by_contra hgoes
        exact (hgood outcome (Bool.not_eq_true _ ▸ hgoes)).2 hlimit
      have hlength := hlast hfailed
      refine ⟨first :: front ++ [outcome], rest', by simp, by simp; omega, ?_⟩
      by_contra hnot
      push Not at hnot
      obtain ⟨o, hmem, ho⟩ := hnot
      obtain ⟨before, final, after, heq, hbefore, hdecided⟩ :=
        exists_first_final hmem (Bool.eq_false_iff.mpr ho)
      have hshort : before.length < kMaxRetryCount := by
        have hsum := congrArg List.length heq
        simp only [List.length_append, List.length_cons, List.length_nil] at hsum
        omega
      have hgoes := hfinal before final (after ++ rest') (by
        have hfull := congrArg (· ++ rest') heq
        simpa using hfull) hbefore hdecided hshort
      have herror : failed final = true := by
        have hin : final ∈ first :: front ++ [outcome] := heq ▸ by simp
        rcases List.mem_append.mp hin with hin | hin
        · rcases List.mem_cons.mp hin with rfl | hin
          · exact hwants _ hfirst
          · exact hfront final hin
        · rw [List.mem_singleton.mp hin]
          exact hfailed
      rw [herror] at hgoes
      cases hgoes

/-- Such a loop stops at the first final outcome exactly when no error comes behind outcomes that want the
call to be made again. -/
theorem Stubborn.stops_iff (h : Stubborn wants failed Reported call s outcomes r)
    (hwants : ∀ o, wants o = true → failed o = true)
    (hreported : ∀ o res, failed o = true → Reported o res → res.1.resultCode ≠ .RetryReachMaxCount) :
    StopsAtFinal wants Reported outcomes r ↔ FailsFirst wants failed outcomes := by
  constructor
  · rintro hstops front outcome rest rfl hfront houtcome hlength hfailed
    obtain ⟨hcalls, res, hres, hrep⟩ := hstops.final front outcome rest rfl hfront houtcome hlength
    cases front with
    | nil => rfl
    | cons first front =>
      exfalso
      obtain ⟨hfirst, hfront⟩ := List.forall_mem_cons.mp hfront
      obtain ⟨report, -, hgiven, hr⟩ := h.again first (front ++ outcome :: rest) rfl hfirst
      have herrors : ∀ o ∈ front, failed o = true := fun o ho => hwants o (hfront o ho)
      rw [List.length_cons] at hlength hcalls
      rw [hr] at hcalls hres
      cases hretry : retry failed kMaxRetryCount 1 (front ++ outcome :: rest) with
      | none =>
        rw [hretry] at hres
        cases hres
      | some last =>
        obtain ⟨last, calls⟩ := last
        rw [hretry] at hcalls hres
        have hcalls : calls = front.length + 2 := by simpa [retryRun] using hcalls
        by_cases hmore : front.length + 2 < kMaxRetryCount
        · -- the error is met with another call
          have hlt : 1 + (front ++ [outcome]).length < calls := by
            refine lt_of_retry_append failed kMaxRetryCount (fun o ho => ?_)
              (by rw [List.length_append, List.length_singleton]; omega)
              (by rw [List.append_assoc, List.singleton_append]; exact hretry)
            rcases List.mem_append.mp ho with ho | ho
            · exact herrors o ho
            · rw [List.mem_singleton.mp ho]
              exact hfailed
          rw [List.length_append, List.length_singleton] at hlt
          omega
        · -- the error is the outcome of the last call
          have hlast : retry failed kMaxRetryCount 1 (front ++ outcome :: rest) =
              some (outcome, 1 + front.length + 1) := by
            rw [retry_append_of_transient failed kMaxRetryCount herrors (by omega)]
            exact retry_cons_of_last failed kMaxRetryCount (fun _ => by omega) rest
          rw [hlast, Option.some.injEq, Prod.mk.injEq] at hretry
          obtain ⟨rfl, -⟩ := hretry
          have hsame : report outcome = res := Except.ok.inj hres
          exact hreported outcome res hfailed hrep (hsame ▸ hgiven outcome hfailed)
  · intro hfails
    cases outcomes with
    | nil =>
      rw [h.nil rfl]
      refine ⟨show 1 ≤ kMaxRetryCount by decide, fun front outcome rest hnil => ?_, fun res hres => ?_⟩
      · exact absurd hnil.symm (by simp)
      · cases hres
    | cons first rest =>
      cases hfirst : wants first with
      | false =>
        obtain ⟨res, hrep, hcode, hr⟩ := h.first first rest rfl hfirst
        rw [hr]
        refine ⟨show 1 ≤ kMaxRetryCount by decide, fun front outcome rest' heq hfront houtcome _ => ?_,
          fun res' hres hlimit => ?_⟩
        · cases front with
          | nil =>
            obtain ⟨rfl, -⟩ := List.cons.inj heq
            exact ⟨rfl, res, rfl, hrep⟩
          | cons o front =>
            obtain ⟨rfl, -⟩ := List.cons.inj heq
            rw [hfront first List.mem_cons_self] at hfirst
            cases hfirst
        · obtain rfl : res = res' := Except.ok.inj hres
          exact absurd hlimit hcode
      | true => exact h.stopsAtFinal_of_again hwants hfails hfirst

end

/-- What the loop of `SSLManager::write` reports once it goes on at every error. A result of zero comes with
the error number in front of it. -/
def WriteOutcome.stubbornReport (stale : Int) (outcome : WriteOutcome) : SocketResult × Int :=
  if outcome.ret = 0 then ({ resultCode := .Disconnected, errorCode := stale }, 0)
  else if outcome.ret < 0 then
    ({ resultCode := .RetryReachMaxCount, errorCode := outcome.error }, outcome.ret)
  else ({}, outcome.ret)

/-- See `WriteOutcome.stubbornReport`. -/
def ReadOutcome.stubbornReport (stale : Int) : ReadOutcome → SocketResult × Bytes
  | .bytes data =>
    if data.isEmpty then ({ resultCode := .Disconnected, errorCode := stale }, []) else ({}, data)
  | .failed error => ({ resultCode := .RetryReachMaxCount, errorCode := error }, [])

section

variable {s : MethodState} {data : Bytes}

/-- `isNeedRetry` is never reset. -/
theorem run_writeLoop_stubborn (outcomes : List WriteOutcome) {count : Nat} (hcount : count < kMaxRetryCount)
    (errorCode : Int) :
    ∃ stale, (SSLManager.writeLoop data count true errorCode outcomes).run () s =
      retryRun (.SSL_write data) (WriteOutcome.stubbornReport stale) s count outcomes
        (retry WriteOutcome.isFailed kMaxRetryCount count outcomes) := by
  induction outcomes generalizing count errorCode with
  | nil => exact ⟨0, rfl⟩
  | cons outcome outcomes ih =>
    rw [SSLManager.writeLoop, Program.run_bind, Program.run_emit, Run.andThen_ok]
    by_cases hnext : outcome.isFailed = true ∧ count + 1 < kMaxRetryCount
    · have hneg : outcome.ret < 0 := of_decide_eq_true hnext.1
      obtain ⟨stale, hrun⟩ := ih hnext.2 outcome.error
      refine ⟨stale, ?_⟩
      rw [if_neg (by omega), if_pos hneg, if_neg (by omega), Bool.true_or, if_pos rfl, hrun,
        retry_cons_of_transient _ _ hnext.1 hnext.2]
      exact prepend_retryRun outcome fun o calls hsome => Nat.lt_of_succ_lt (lt_of_retry _ _ hsome)
    · have hlast : outcome.isFailed = true → kMaxRetryCount ≤ count + 1 := by
        intro hfailed
        by_contra hlt
        exact hnext ⟨hfailed, by omega⟩
      refine ⟨errorCode, ?_⟩
      rw [retry_cons_of_last _ _ hlast, retryRun_some, Nat.add_sub_cancel_left]
      unfold WriteOutcome.stubbornReport
      by_cases hzero : outcome.ret = 0
      · rw [if_pos hzero, if_pos hzero]
        rfl
      · rw [if_neg hzero, if_neg hzero]
        by_cases hneg : outcome.ret < 0
        · rw [if_pos hneg, if_pos hneg, if_pos (hlast (decide_eq_true hneg))]
          rfl
        · rw [if_neg hneg, if_neg hneg]
          rfl

/-- See `run_writeLoop_stubborn`. -/
theorem run_readLoop_stubborn (outcomes : List ReadOutcome) {count : Nat} (hcount : count < kMaxRetryCount)
    (errorCode : Int) :
    ∃ stale, (SSLManager.readLoop count true errorCode outcomes).run () s =
      retryRun (.SSL_read kDefaultReadSize) (ReadOutcome.stubbornReport stale) s count outcomes
        (retry ReadOutcome.isFailed kMaxRetryCount count outcomes) := by
  induction outcomes generalizing count errorCode with
  | nil => exact ⟨0, rfl⟩
  | cons outcome outcomes ih =>
    unfold SSLManager.readLoop
    rw [Program.run_bind, Program.run_emit, Run.andThen_ok]
    cases outcome with
    | bytes bytes =>
      refine ⟨errorCode, ?_⟩
      rw [retry_cons_of_last _ _ (fun h => absurd h Bool.false_ne_true), retryRun_some,
        Nat.add_sub_cancel_left]
      unfold ReadOutcome.stubbornReport
      dsimp only
      split <;> rfl
    | failed error =>
      dsimp only
      by_cases hnext : count + 1 < kMaxRetryCount
      · obtain ⟨stale, hrun⟩ := ih hnext error
        refine ⟨stale, ?_⟩
        rw [if_neg (by omega), Bool.true_or, if_pos rfl, hrun, retry_cons_of_transient _ _ rfl hnext]
        exact prepend_retryRun _ fun o calls hsome => Nat.lt_of_succ_lt (lt_of_retry _ _ hsome)
      · refine ⟨errorCode, ?_⟩
        rw [if_pos (by omega), retry_cons_of_last _ _ (fun _ => by omega), retryRun_some,
          Nat.add_sub_cancel_left]
        rfl

/-- `SSLManager::write` is such a loop. -/
theorem stubborn_write (hssl : s.self.sslPtr ≠ none) (data : Bytes) (outcomes : List WriteOutcome) :
    Stubborn (WriteOutcome.wouldBlock .TSLSocket) WriteOutcome.isFailed WriteOutcome.Reported
      (.SSL_write data) s outcomes ((TSLSocket.send data outcomes).run () s) := by
  obtain ⟨ssl, hssl⟩ := Option.ne_none_iff_exists'.mp hssl
  unfold TSLSocket.send
  rw [Program.run_bind, Program.run_state, Run.andThen_ok, hssl, Run.prepend_nil]
  dsimp only
  refine ⟨?_, ?_, ?_⟩
  · rintro rfl
    rfl
  · rintro outcome rest rfl hfinal
    rw [SSLManager.writeLoop, Program.run_bind, Program.run_emit, Run.andThen_ok]
    by_cases hzero : outcome.ret = 0
    · rw [if_pos hzero]
      refine ⟨({ resultCode := .Disconnected }, 0), ?_, by decide, rfl⟩
      unfold WriteOutcome.Reported
      rw [if_neg (by omega), if_pos hzero]
    · rw [if_neg hzero]
      by_cases hneg : outcome.ret < 0
      · have hwants : wants outcome.error = false := by
          simpa [WriteOutcome.wouldBlock, hneg] using hfinal
        rw [if_pos hneg, if_neg (by decide), hwants]
        refine ⟨({ resultCode := .Failed, errorCode := outcome.error }, outcome.ret), ?_, ?_, rfl⟩
        · unfold WriteOutcome.Reported
          rw [if_neg (by omega), if_neg hzero]
        · exact fun h => by cases h
      · rw [if_neg hneg]
        refine ⟨({}, outcome.ret), ?_, fun h => (by cases h), rfl⟩
        unfold WriteOutcome.Reported
        rw [if_pos (by omega)]
  · rintro outcome rest rfl hwants
    obtain ⟨hneg, herror⟩ : outcome.ret < 0 ∧ wants outcome.error = true := by
      simpa [WriteOutcome.wouldBlock] using hwants
    obtain ⟨stale, hrun⟩ := @run_writeLoop_stubborn s data rest 1 (by decide) outcome.error
    refine ⟨WriteOutcome.stubbornReport stale, fun o ho => ?_, fun o ho => ?_, ?_⟩
    · have hnonneg : ¬o.ret < 0 := of_decide_eq_false ho
      unfold WriteOutcome.stubbornReport WriteOutcome.Reported
      by_cases hzero : o.ret = 0
      · rw [if_pos hzero, if_neg (by omega), if_pos hzero]
        exact ⟨rfl, fun h => by cases h⟩
      · rw [if_neg hzero, if_neg hnonneg, if_pos (by omega)]
        exact ⟨rfl, fun h => by cases h⟩
    · have hfailed : o.ret < 0 := of_decide_eq_true ho
      unfold WriteOutcome.stubbornReport
      rw [if_neg (by omega), if_pos hfailed]
    · rw [SSLManager.writeLoop, Program.run_bind, Program.run_emit, Run.andThen_ok, if_neg (by omega),
        if_pos hneg, if_neg (by decide), herror, Bool.or_true, if_pos rfl, hrun]
      exact prepend_retryRun outcome fun o calls hsome => Nat.lt_of_succ_lt (lt_of_retry _ _ hsome)

/-- `SSLManager::read` is such a loop. -/
theorem stubborn_read (hssl : s.self.sslPtr ≠ none) (outcomes : List ReadOutcome) :
    Stubborn (ReadOutcome.wouldBlock .TSLSocket) ReadOutcome.isFailed ReadOutcome.Reported
      (.SSL_read kDefaultReadSize) s outcomes ((TSLSocket.receive outcomes).run () s) := by
  obtain ⟨ssl, hssl⟩ := Option.ne_none_iff_exists'.mp hssl
  unfold TSLSocket.receive
  rw [Program.run_bind, Program.run_state, Run.andThen_ok, hssl, Run.prepend_nil]
  dsimp only
  refine ⟨?_, ?_, ?_⟩
  · rintro rfl
    rfl
  · rintro outcome rest rfl hfinal
    unfold SSLManager.readLoop
    rw [Program.run_bind, Program.run_emit, Run.andThen_ok]
    cases outcome with
    | bytes data =>
      dsimp only [ReadOutcome.Reported]
      by_cases hempty : data = []
      · rw [if_pos (List.isEmpty_iff.mpr hempty)]
        simp only [if_pos hempty]
        exact ⟨({ resultCode := .Disconnected }, []), rfl, by decide, rfl⟩
      · rw [if_neg fun h => hempty (List.isEmpty_iff.mp h)]
        simp only [if_neg hempty]
        exact ⟨({}, data), rfl, fun h => (by cases h), rfl⟩
    | failed error =>
      have hwants : wants error = false := hfinal
      dsimp only [ReadOutcome.Reported]
      rw [if_neg (by decide), hwants]
      exact ⟨({ resultCode := .Failed, errorCode := error }, []), rfl, fun h => (by cases h), rfl⟩
  · rintro outcome rest rfl hwants
    cases outcome with
    | bytes data => cases hwants
    | failed error =>
      have herror : wants error = true := hwants
      obtain ⟨stale, hrun⟩ := run_readLoop_stubborn (s := s) rest (show 1 < kMaxRetryCount by decide) error
      refine ⟨ReadOutcome.stubbornReport stale, fun o ho => ?_, fun o ho => ?_, ?_⟩
      · cases o with
        | bytes data =>
          dsimp only [ReadOutcome.stubbornReport, ReadOutcome.Reported]
          by_cases hempty : data = []
          · rw [if_pos (List.isEmpty_iff.mpr hempty), if_pos hempty]
            exact ⟨rfl, fun h => by cases h⟩
          · rw [if_neg fun h => hempty (List.isEmpty_iff.mp h), if_neg hempty]
            exact ⟨rfl, fun h => by cases h⟩
        | failed error => cases ho
      · cases o with
        | bytes data => cases ho
        | failed error => rfl
      · unfold SSLManager.readLoop
        rw [Program.run_bind, Program.run_emit, Run.andThen_ok]
        dsimp only
        rw [if_neg (by decide), herror, Bool.or_true, if_pos rfl, hrun]
        exact prepend_retryRun _ fun o calls hsome => Nat.lt_of_succ_lt (lt_of_retry _ _ hsome)

/-- **The loops over TLS stop at the first final outcome exactly when no error comes behind outcomes that want
the call to be made again.** -/
theorem stopsAtFinal_iff (hssl : s.self.sslPtr ≠ none) :
    (∀ (data : Bytes) (outcomes : List WriteOutcome),
      StopsAtFinal (WriteOutcome.wouldBlock .TSLSocket) WriteOutcome.Reported outcomes
          ((TSLSocket.send data outcomes).run () s) ↔
        FailsFirst (WriteOutcome.wouldBlock .TSLSocket) WriteOutcome.isFailed outcomes) ∧
    ∀ outcomes : List ReadOutcome,
      StopsAtFinal (ReadOutcome.wouldBlock .TSLSocket) ReadOutcome.Reported outcomes
          ((TSLSocket.receive outcomes).run () s) ↔
        FailsFirst (ReadOutcome.wouldBlock .TSLSocket) ReadOutcome.isFailed outcomes := by
  constructor
  · intro data outcomes
    refine (stubborn_write hssl data outcomes).stops_iff (fun o ho => ?_) fun o res ho hres => ?_
    · exact (Bool.and_eq_true_iff.mp ho).1
    · have hneg : o.ret < 0 := of_decide_eq_true ho
      unfold WriteOutcome.Reported at hres
      rw [if_neg (by omega), if_neg (by omega)] at hres
      rw [hres]
      exact fun h => by cases h
  · intro outcomes
    refine (stubborn_read hssl outcomes).stops_iff (fun o ho => ?_) fun o res ho hres => ?_
    · cases o with
      | bytes data => cases ho
      | failed error => rfl
    · cases o with
      | bytes data => cases ho
      | failed error =>
        have hresult : res.1 = { resultCode := .Failed, errorCode := error } := hres
        rw [hresult]
        exact fun h => by cases h

end

/-- An error that comes first is reported at once. -/
theorem stopsAtFinal_error_first :
    StopsAtFinal (WriteOutcome.wouldBlock .TSLSocket) WriteOutcome.Reported [⟨-1, 1⟩, ⟨2, 0⟩]
      ((TSLSocket.send (bytes "ab") [⟨-1, 1⟩, ⟨2, 0⟩]).run () tlsState) := by
  refine ((stopsAtFinal_iff (by decide)).1 (bytes "ab") [⟨-1, 1⟩, ⟨2, 0⟩]).mpr ?_
  rintro (_ | ⟨first, front⟩) outcome rest heq hfront - - -
  · rfl
  · obtain ⟨rfl, -⟩ := List.cons.inj heq
    exact absurd (hfront _ List.mem_cons_self) (by decide)

/-- Behind an outcome that wants it, the call is made again although it has failed for good: `SSL_ERROR_SSL`
is met with another call, in both directions. -/
theorem not_stopsAtFinal_error_behind :
    ¬StopsAtFinal (WriteOutcome.wouldBlock .TSLSocket) WriteOutcome.Reported
        [⟨-1, SSL_ERROR_WANT_WRITE⟩, ⟨-1, 1⟩, ⟨2, 0⟩]
        ((TSLSocket.send (bytes "ab") [⟨-1, SSL_ERROR_WANT_WRITE⟩, ⟨-1, 1⟩, ⟨2, 0⟩]).run () tlsState) ∧
      ¬StopsAtFinal (ReadOutcome.wouldBlock .TSLSocket) ReadOutcome.Reported
        [.failed SSL_ERROR_WANT_READ, .failed 1, .bytes (bytes "ab")]
        ((TSLSocket.receive [.failed SSL_ERROR_WANT_READ, .failed 1, .bytes (bytes "ab")]).run () tlsState) := by
  constructor
  · intro hstops
    have hcalls := (hstops.final [⟨-1, SSL_ERROR_WANT_WRITE⟩] ⟨-1, 1⟩ [⟨2, 0⟩] rfl (by decide) rfl
      (by decide)).1
    revert hcalls
    decide
  · intro hstops
    have hcalls := (hstops.final [.failed SSL_ERROR_WANT_READ] (.failed 1) [.bytes (bytes "ab")] rfl (by decide)
      rfl (by decide)).1
    revert hcalls
    decide

end HttpRequest
