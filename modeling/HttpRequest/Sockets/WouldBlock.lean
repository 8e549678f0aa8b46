import HttpRequest.Messages.Transmission
import HttpRequest.Receiver.Pieces
import HttpRequest.Sockets.Retrying

/-! # Calls that would block

A request that sends and receives over an object of one of the socket classes, while calls of the system
that would block come between those that make progress. The scripts of `Request` are here not free: every
reply in them is what the method of the object makes of the outcomes the system has for its calls
(`SendsAnswered`, `ReceivesAnswered`). -/

namespace HttpRequest

open Foundations

/-! ### Sending over an object -/

/-- **Sends answered by an object**, while there is time: what is offered in each, the outcomes the system
has for its calls, the replies, and the calls of the system. Every call of the system uses up an outcome. A
method that has none left waits in its last call. -/
inductive SendsAnswered (self : ISocket) (timeLeft : UInt64 → Bool) :
    List Bytes → List WriteOutcome → List SendReply → List Syscall → Prop
  | done (outcomes : List WriteOutcome) : SendsAnswered self timeLeft [] outcomes [] []
  | waiting {data : Bytes} {outcomes : List WriteOutcome} {start : UInt64}
      (hwaits : ((sendSocket data outcomes).run () ⟨self, start⟩).outcome = .error .pending) :
      SendsAnswered self timeLeft [data] outcomes []
        ((sendSocket data outcomes).run () ⟨self, start⟩).events
  | returned {data : Bytes} {outcomes : List WriteOutcome} {start now : UInt64} {result : SocketResult}
      {sendSize : Int} {datas : List Bytes} {sends : List SendReply} {log : List Syscall}
      (hreturns : ((sendSocket data outcomes).run () ⟨self, start⟩).outcome = .ok (result, sendSize))
      (htime : timeLeft now = true)
      (hrest : SendsAnswered self timeLeft datas
        (outcomes.drop ((sendSocket data outcomes).run () ⟨self, start⟩).events.length) sends log) :
      SendsAnswered self timeLeft (data :: datas) outcomes (⟨result, sendSize, now⟩ :: sends)
        (((sendSocket data outcomes).run () ⟨self, start⟩).events ++ log)

/-- Calls that would block, in any number and anywhere, among calls that take some of `size` bytes. -/
def WriteInterleaved (kind : SocketKind) : Nat → List WriteOutcome → Prop
  | _, [] => True
  | size, outcome :: outcomes =>
    outcome.wouldBlock kind = true ∧ WriteInterleaved kind size outcomes ∨
      outcome.Progress ∧ outcome.ret.toNat ≤ size ∧
        WriteInterleaved kind (size - outcome.ret.toNat) outcomes

/-- The number of bytes taken. -/
def accepted (kind : SocketKind) (outcomes : List WriteOutcome) : Nat :=
  (outcomes.map fun outcome => if outcome.wouldBlock kind then 0 else outcome.ret.toNat).sum

/-- The calls of a sender that goes on at the first byte that has not been taken, until all are. -/
def resumingCalls (kind : SocketKind) : Bytes → List WriteOutcome → List Syscall
  | data, [] => [sendCall kind data]
  | data, outcome :: outcomes =>
    sendCall kind data ::
      if outcome.wouldBlock kind then resumingCalls kind data outcomes
      else if outcome.ret.toNat < data.length then
        resumingCalls kind (data.drop outcome.ret.toNat) outcomes
      else []

/-- A run that has sent what the system took of the data, each byte in its place, and reported nothing. It
waits when there are bytes left. -/
structure SendsThrough (kind : SocketKind) (data : Bytes) (outcomes : List WriteOutcome)
    (log : List Syscall) (r : Run State Event Stop Bool) : Prop where
  outcome : r.outcome = if data.length ≤ accepted kind outcomes then .ok true else .error .pending
  callbacks : callbacks r.events = []
  log : log = resumingCalls kind data outcomes

section

variable {kind : SocketKind} {data : Bytes} {outcomes front : List WriteOutcome}

/-- What is accepted in a concatenation. -/
theorem accepted_append (outcomes' : List WriteOutcome) :
    accepted kind (outcomes ++ outcomes') = accepted kind outcomes + accepted kind outcomes' := by
  simp [accepted]

/-- Calls that block accept nothing. -/
theorem accepted_of_wouldBlock (h : ∀ o ∈ outcomes, o.wouldBlock kind = true) :
    accepted kind outcomes = 0 := by
  rw [accepted, List.sum_eq_zero_iff, List.forall_mem_map]
  exact fun o ho => if_pos (h o ho)

/-- A call with progress accepts what it returns. -/
theorem accepted_cons_of_progress {outcome : WriteOutcome} (h : outcome.Progress) :
    accepted kind (outcome :: outcomes) = outcome.ret.toNat + accepted kind outcomes := by
  simp [accepted, not_wouldBlock h]

/-- Every outcome of an interleaving blocks or makes progress. -/
theorem wouldBlock_or_progress {size : Nat} (h : WriteInterleaved kind size outcomes) :
    ∀ o ∈ outcomes, o.wouldBlock kind = true ∨ o.Progress := by
  induction outcomes generalizing size with
  | nil => exact fun o ho => absurd ho List.not_mem_nil
  | cons outcome outcomes ih =>
    rw [List.forall_mem_cons]
    rcases h with ⟨hblock, hrest⟩ | ⟨hprogress, -, hrest⟩
    · exact ⟨.inl hblock, ih hrest⟩
    · exact ⟨.inr hprogress, ih hrest⟩

/-- An interleaving without the calls that block in front. -/
theorem writeInterleaved_of_append {size : Nat} (hfront : ∀ o ∈ front, o.wouldBlock kind = true)
    (h : WriteInterleaved kind size (front ++ outcomes)) : WriteInterleaved kind size outcomes := by
  induction front with
  | nil => exact h
  | cons outcome front ih =>
    obtain ⟨hblock, hfront⟩ := List.forall_mem_cons.mp hfront
    rcases h with ⟨-, hrest⟩ | ⟨hprogress, -⟩
    · exact ih hfront hrest
    · rw [not_wouldBlock hprogress] at hblock
      cases hblock

/-- Calls that would block offer the same bytes again. -/
theorem resumingCalls_append (hfront : ∀ o ∈ front, o.wouldBlock kind = true) :
    resumingCalls kind data (front ++ outcomes) =
      List.replicate front.length (sendCall kind data) ++ resumingCalls kind data outcomes := by
  induction front with
  | nil => rfl
  | cons outcome front ih =>
    obtain ⟨hblock, hfront⟩ := List.forall_mem_cons.mp hfront
    rw [List.cons_append, resumingCalls, if_pos hblock, ih hfront]
    rfl

/-- While they block the calls are repeated as they are. -/
theorem resumingCalls_of_wouldBlock (h : ∀ o ∈ outcomes, o.wouldBlock kind = true) :
    resumingCalls kind data outcomes = List.replicate (outcomes.length + 1) (sendCall kind data) := by
  have hcalls : resumingCalls kind data (outcomes ++ []) =
      List.replicate outcomes.length (sendCall kind data) ++ resumingCalls kind data [] :=
    resumingCalls_append h
  rw [List.append_nil] at hcalls
  rw [hcalls, List.replicate_succ']
  rfl

end

/-- The part of an interleaving behind calls that would block and one that makes progress. -/
theorem writeInterleaved_of_progress {kind : SocketKind} {size : Nat} {front rest : List WriteOutcome}
    {outcome : WriteOutcome} (hfront : ∀ o ∈ front, o.wouldBlock kind = true) (hprogress : outcome.Progress)
    (h : WriteInterleaved kind size (front ++ outcome :: rest)) :
    outcome.ret.toNat ≤ size ∧ WriteInterleaved kind (size - outcome.ret.toNat) rest := by
  rcases writeInterleaved_of_append hfront h with ⟨hblock, -⟩ | ⟨-, hle, hrest⟩
  · rw [not_wouldBlock hprogress] at hblock
    cases hblock
  · exact ⟨hle, hrest⟩

/-- What is accepted behind calls that would block. -/
theorem accepted_front {kind : SocketKind} {front : List WriteOutcome} {outcome : WriteOutcome}
    (hfront : ∀ o ∈ front, o.wouldBlock kind = true) (hprogress : outcome.Progress)
    (rest : List WriteOutcome) :
    accepted kind (front ++ outcome :: rest) = outcome.ret.toNat + accepted kind rest := by
  rw [accepted_append, accepted_of_wouldBlock hfront, accepted_cons_of_progress hprogress, Nat.zero_add]

/-- The calls behind calls that would block and one that makes progress. -/
theorem resumingCalls_front {kind : SocketKind} (data : Bytes) {front : List WriteOutcome}
    {outcome : WriteOutcome} (hfront : ∀ o ∈ front, o.wouldBlock kind = true) (hprogress : outcome.Progress)
    (rest : List WriteOutcome) :
    resumingCalls kind data (front ++ outcome :: rest) =
      List.replicate (front.length + 1) (sendCall kind data) ++
        if outcome.ret.toNat < data.length then resumingCalls kind (data.drop outcome.ret.toNat) rest
        else [] := by
  rw [resumingCalls_append hfront, resumingCalls, if_neg (by rw [not_wouldBlock hprogress]; decide),
    List.replicate_succ', List.append_assoc]
  rfl

/-- All is accepted where the rest is accepted behind the first progress. -/
theorem length_le_accepted_iff {kind : SocketKind} {data : Bytes} {front : List WriteOutcome}
    {outcome : WriteOutcome} (hfront : ∀ o ∈ front, o.wouldBlock kind = true) (hprogress : outcome.Progress)
    (rest : List WriteOutcome) :
    data.length ≤ accepted kind (front ++ outcome :: rest) ↔
      (data.drop outcome.ret.toNat).length ≤ accepted kind rest := by
  rw [accepted_front hfront hprogress, List.length_drop]
  omega

/-- A call of the request that takes some of the bytes, and those behind it. -/
theorem sendsThrough_front_iff {kind : SocketKind} {data : Bytes} {front rest : List WriteOutcome}
    {outcome : WriteOutcome} {log : List Syscall} {r : Run State Event Stop Bool} {s : State} {now : UInt64}
    (hfront : ∀ o ∈ front, o.wouldBlock kind = true) (hprogress : outcome.Progress)
    (hmore : outcome.ret.toNat < data.length) :
    SendsThrough kind data (front ++ outcome :: rest)
        (List.replicate (front.length + 1) (sendCall kind data) ++ log) (r.prepend (sendEvents s data now)) ↔
      SendsThrough kind (data.drop outcome.ret.toNat) rest log r := by
  have hcalls := resumingCalls_front data hfront hprogress rest
  rw [if_pos hmore] at hcalls
  have hcallbacks : callbacks (sendEvents s data now ++ r.events) = callbacks r.events := by
    rw [callbacks_append, callbacks_sendEvents]
    rfl
  constructor
  · rintro ⟨houtcome, hsilent, hlog⟩
    refine ⟨?_, hcallbacks.symm.trans hsilent, List.append_cancel_left (hlog.trans hcalls)⟩
    simpa only [Run.prepend_outcome, length_le_accepted_iff hfront hprogress] using houtcome
  · rintro ⟨houtcome, hsilent, hlog⟩
    refine ⟨?_, hcallbacks.trans hsilent, by rw [hcalls, hlog]⟩
    simpa only [Run.prepend_outcome, length_le_accepted_iff hfront hprogress] using houtcome

/-- Events in front without callbacks. -/
theorem sendsThrough_prepend_iff {kind : SocketKind} {data : Bytes} {outcomes : List WriteOutcome}
    {log : List Syscall} {r : Run State Event Stop Bool} {es : List Event} (hsilent : callbacks es = []) :
    SendsThrough kind data outcomes log (r.prepend es) ↔ SendsThrough kind data outcomes log r := by
  have hcallbacks : callbacks (es ++ r.events) = callbacks r.events := by
    rw [callbacks_append, hsilent, List.nil_append]
  constructor
  · exact fun h => ⟨h.outcome, hcallbacks.symm.trans h.callbacks, h.log⟩
  · exact fun h => ⟨h.outcome, hcallbacks.trans h.callbacks, h.log⟩

/-- **Sending over an object.** Whatever calls would block, the run sends on at the same byte and reports
nothing, exactly when the loop of the method never ends in them while bytes are left. -/
theorem sendsThrough_iff (env : Env) {self : ISocket} (hself : self.Connected) {timeLeft : UInt64 → Bool}
    {datas : List Bytes} {outcomes : List WriteOutcome} {sends : List SendReply} {log : List Syscall}
    (h : SendsAnswered self timeLeft datas outcomes sends log) {s : State} (hs : s.socket_ ≠ none)
    {data : Bytes} (hdata : data ≠ [])
    (hoffered : offered ((sendLoop sends data).run env s).events = datas)
    (houtcomes : WriteInterleaved self.kind data.length outcomes) :
    SendsThrough self.kind data outcomes log ((sendLoop sends data).run env s) ↔
      StallsAfter (WriteOutcome.wouldBlock self.kind) (callLimit self.kind)
        (fun front => data.length ≤ accepted self.kind front) outcomes := by
  have hlength := List.length_pos_iff.mpr hdata
  induction h generalizing s data with
  | done outcomes =>
    rw [run_sendLoop_nil hs, offered_append, s.offered_tickEvents] at hoffered
    cases hoffered
  | @waiting data' outcomes start hwaits =>
    rw [run_sendLoop_nil hs, offered_append, s.offered_tickEvents] at hoffered
    obtain rfl : data = data' := by simpa [offered, calls] using hoffered
    obtain ⟨hall, hlt, hevents⟩ :=
      (sendSocket_cases hself start data (wouldBlock_or_progress houtcomes)).of_waits hwaits
    rw [hevents, run_sendLoop_nil hs]
    refine iff_of_true ⟨?_, ?_, ?_⟩ (stallsAfter_of_lt hlt)
    · rw [accepted_of_wouldBlock hall, if_neg (by omega)]
    · rw [callbacks_append, s.callbacks_tickEvents]
      rfl
    · exact (resumingCalls_of_wouldBlock hall).symm
  | @returned data' outcomes start now result sendSize datas sends log hreturns htime hrest ih =>
    have hhead := hoffered
    rw [run_sendLoop_cons hs, Run.prepend_events, offered_append, offered_sendEvents, List.singleton_append,
      List.cons.injEq] at hhead
    obtain rfl : data = data' := hhead.1
    have hlegal := wouldBlock_or_progress houtcomes
    obtain ⟨front, outcome, rest, rfl, hfront, hlt, hlast, hreport, hevents, hused⟩ :=
      (sendSocket_cases hself start data hlegal).of_returns hreturns
    rw [hused] at hrest ih
    rw [hevents]
    cases hblock : outcome.wouldBlock self.kind with
    | true =>
      -- the method has given up, and with it the request
      have hresult : result.isSuccess = false := by
        have hcode := congrArg (fun res => res.1.isSuccess) hreport
        unfold WriteOutcome.report at hcode
        rw [if_pos hblock] at hcode
        rw [← hcode]
        cases self.kind <;> rfl
      obtain ⟨t, es, hfailed, -, -⟩ :=
        run_sendLoop_failed hs env (show (SendReply.mk result sendSize now).result.isSuccess = false from hresult)
          sends data
      refine iff_of_false (fun hsent => ?_) fun hstalls => ?_
      · have houtcome := hsent.outcome
        rw [hfailed] at houtcome
        split_ifs at houtcome
        · cases houtcome
      · have hstall : ∀ o ∈ front ++ [outcome], o.wouldBlock self.kind = true := by
          simpa [or_imp, forall_and, hblock] using hfront
        rw [List.append_cons] at hstalls
        have hnone := done_of_stallsAfter hstalls
          (by rw [List.length_append, List.length_singleton, hlast hblock]) hstall
        exact absurd (Nat.le_zero.mp hnone) hlength.ne'
    | false =>
      have hprogress : outcome.Progress := (hlegal outcome (by simp)).resolve_left (by rw [hblock]; decide)
      rw [report_of_progress hprogress, Prod.mk.injEq] at hreport
      obtain ⟨rfl, rfl⟩ := hreport
      obtain ⟨hpos, hsmall⟩ := id hprogress
      obtain ⟨hle, hinterleaved⟩ := writeInterleaved_of_progress hfront hprogress houtcomes
      have hlarge : outcome.ret < 2 ^ 63 := by omega
      rw [stallsAfter_append_cons_iff rest hlt hblock]
      have hsuccess : (SendReply.mk {} outcome.ret now).result.isSuccess = true := rfl
      rw [run_sendLoop_progress hs env hsuccess hpos hlarge] at hoffered ⊢
      rw [Run.prepend_events, offered_append, offered_sendEvents, List.singleton_append, List.cons.injEq]
        at hoffered
      have hcalls := resumingCalls_front data hfront hprogress rest
      by_cases hmore : outcome.ret.toNat < data.length
      · rw [if_pos hmore] at hoffered hcalls ⊢
        have hdropped : (data.drop outcome.ret.toNat).length = data.length - outcome.ret.toNat :=
          List.length_drop
        have hnext := @ih { s.tick with now := now } (s.tick_socket_.symm ▸ hs)
          (data.drop outcome.ret.toNat) (by rw [Ne, List.drop_eq_nil_iff]; omega) hoffered.2
          (hdropped ▸ hinterleaved) (by omega)
        simp only [length_le_accepted_iff hfront hprogress]
        exact (sendsThrough_front_iff hfront hprogress hmore).trans hnext
      · -- everything that was left has been taken
        rw [if_neg hmore] at hoffered hcalls ⊢
        have hall (front' : List WriteOutcome) :
            data.length ≤ accepted self.kind (front ++ outcome :: front') := by
          have haccepted := accepted_front hfront hprogress front'
          omega
        obtain rfl : [] = datas := hoffered.2
        cases hrest
        refine iff_of_true ⟨?_, ?_, ?_⟩ (stallsAfter_of_done hall)
        · rw [if_pos (hall rest)]
          rfl
        · simp
        · exact hcalls.symm

/-! ### Receiving over an object -/

/-- **Reads answered by an object**, while there is time: the outcomes the system has for its calls, and the
passes of the receiver with waits that succeed. -/
inductive ReceivesAnswered (self : ISocket) (timeLeft : UInt64 → Bool) :
    List ReadOutcome → List Round → Prop
  | waiting {outcomes : List ReadOutcome} {start : UInt64}
      (hwaits : ((receiveSocket outcomes).run () ⟨self, start⟩).outcome = .error .pending) :
      ReceivesAnswered self timeLeft outcomes []
  | returned {outcomes : List ReadOutcome} {start now : UInt64} {waits : List WaitReply}
      {result : SocketResult} {data : Bytes} {rounds : List Round} (hready : await timeLeft waits = .ready)
      (hreturns : ((receiveSocket outcomes).run () ⟨self, start⟩).outcome = .ok (result, data))
      (htime : timeLeft now = true)
      (hrest : ReceivesAnswered self timeLeft
        (outcomes.drop ((receiveSocket outcomes).run () ⟨self, start⟩).events.length) rounds) :
      ReceivesAnswered self timeLeft outcomes (⟨waits, ⟨result, data, now⟩⟩ :: rounds)

/-- The bytes that are there, call by call. -/
def pieces (outcomes : List ReadOutcome) : List Bytes :=
  outcomes.filterMap fun
    | .bytes data => some data
    | .failed _ => none

/-- What a caller sees of a run: its outcome and its callbacks. -/
def Transcript.shown (t : Transcript) : Except Stop Unit × List Callback := (t.outcome, t.callbacks)

/-- What a caller sees when every piece is there in time. -/
def shownPieces (allowRedirect : Bool) (phase : Phase) (pieces : List Bytes) :
    Except Stop Unit × List Callback :=
  let taken := phase.takeAll allowRedirect pieces
  (taken.2.last.outcome, taken.1 ++ taken.2.last.callbacks)

/-- The receiver has ended behind the pieces. -/
def EndedBehind (allowRedirect : Bool) (phase : Phase) (outcomes : List ReadOutcome) : Prop :=
  ∀ phase', (phase.takeAll allowRedirect (pieces outcomes)).2 ≠ .more phase'

/-- What has to hold of the calls over TLS: as many of them in a row as a method makes want to be made again
only behind the end of the response. -/
def ReadsInTime (kind : SocketKind) (allowRedirect : Bool) (phase : Phase) (outcomes : List ReadOutcome) :
    Prop :=
  kind = .TSLSocket →
    StallsAfter (ReadOutcome.wouldBlock kind) kMaxRetryCount (EndedBehind allowRedirect phase) outcomes

section

variable {kind : SocketKind} {allowRedirect : Bool} {phase phase' : Phase}
  {outcomes front rest : List ReadOutcome} {piece : Bytes}

/-- Reads that block bring no piece. -/
theorem pieces_of_wouldBlock (hfront : ∀ o ∈ front, o.wouldBlock kind = true) (rest : List ReadOutcome) :
    pieces (front ++ rest) = pieces rest := by
  have hnil : pieces front = [] := by
    refine List.filterMap_eq_nil_iff.mpr fun o ho => ?_
    cases o with
    | bytes data => cases hfront _ ho
    | failed error => rfl
  unfold pieces at hnil ⊢
  rw [List.filterMap_append, hnil, List.nil_append]

/-- The first read that does not block brings the first piece. -/
theorem pieces_front (hfront : ∀ o ∈ front, o.wouldBlock kind = true) (rest : List ReadOutcome) :
    pieces (front ++ .bytes piece :: rest) = piece :: pieces rest := by
  rw [pieces_of_wouldBlock hfront]
  rfl

/-- A piece that leaves the receiver going is followed by the next. -/
theorem shownPieces_of_more (h : (phase.take allowRedirect piece).exit = .more phase') (pieces : List Bytes) :
    shownPieces allowRedirect phase (piece :: pieces) =
      ((shownPieces allowRedirect phase' pieces).1,
        (phase.take allowRedirect piece).callbacks ++ (shownPieces allowRedirect phase' pieces).2) := by
  unfold shownPieces
  rw [takeAll_of_more h]
  simp

/-- The only error that body bytes bring is in a size line. -/
theorem failed_takeBody {code : ResultCode} {errorCode : Int}
    (h : (phase.takeBody piece).2 = .failed code errorCode) : code = .ChunkSizeError := by
  cases phase with
  | head buffer => cases h
  | plain contentLength recvLength =>
    unfold Phase.takeBody at h
    dsimp only at h
    split_ifs at h
  | chunked chunkSize =>
    have hexit := decode_exit chunkSize piece
    have hdecode : (decode chunkSize piece).2 = .failed code errorCode := h
    rw [hdecode] at hexit
    exact hexit.1

/-- The only error of the response itself is that of a size line. -/
theorem failed_take {code : ResultCode} {errorCode : Int}
    (h : (phase.take allowRedirect piece).exit = .failed code errorCode) : code = .ChunkSizeError := by
  cases phase with
  | head buffer =>
    rw [Phase.take] at h
    cases hparse : parseResponseHeader (buffer ++ piece) {} with
    | error fault =>
      rw [hparse] at h
      cases h
    | ok parsed =>
      obtain ⟨isSuccess, headerSize, response⟩ := parsed
      rw [hparse] at h
      cases isSuccess with
      | false => cases h
      | true =>
        dsimp only at h
        split_ifs at h
        cases hlength : parseFieldValueInt64 response.headers kContentLength int64Max with
        | error fault =>
          rw [hlength] at h
          cases h
        | ok contentLength =>
          rw [hlength] at h
          exact failed_takeBody h
  | plain contentLength recvLength => exact failed_takeBody h
  | chunked chunkSize => exact failed_takeBody h

/-- A reaction's own callbacks report no error. -/
theorem not_mem_callbacks (reaction : Reaction) (code : ResultCode) (errorCode : Int) :
    .onError code errorCode ∉ reaction.callbacks := by
  unfold Reaction.callbacks
  simp

/-- The receiver never reports by itself that a method has given up. -/
theorem not_mem_shownPieces (errorCode : Int) (pieces : List Bytes) :
    .onError .RetryReachMaxCount errorCode ∉ (shownPieces allowRedirect phase pieces).2 := by
  induction pieces generalizing phase with
  | nil => exact List.not_mem_nil
  | cons piece pieces ih =>
    have hreaction := not_mem_callbacks (phase.take allowRedirect piece) .RetryReachMaxCount errorCode
    cases hexit : (phase.take allowRedirect piece).exit with
    | more phase' =>
      rw [shownPieces_of_more hexit]
      exact fun hmem => (List.mem_append.mp hmem).elim hreaction ih
    | finished | redirected url | crashed fault =>
      unfold shownPieces
      rw [takeAll_of_end (by rw [hexit]; exact fun _ => Exit.noConfusion), hexit]
      simpa [Exit.last, Exit.transcript] using hreaction
    | failed code errorCode' =>
      have hcode := failed_take hexit
      unfold shownPieces
      rw [takeAll_of_end (by rw [hexit]; exact fun _ => Exit.noConfusion), hexit, hcode]
      simpa [Exit.last, Exit.transcript] using hreaction

/-- The run ends behind a front where it ends behind its piece. -/
theorem endedBehind_front_iff (hexit : (phase.take allowRedirect piece).exit = .more phase')
    (hfront : ∀ o ∈ front, o.wouldBlock kind = true) (rest : List ReadOutcome) :
    EndedBehind allowRedirect phase (front ++ .bytes piece :: rest) ↔ EndedBehind allowRedirect phase' rest := by
  unfold EndedBehind
  rw [pieces_front hfront, takeAll_of_more hexit]

/-- A piece behind which the receiver goes on. -/
theorem readsInTime_piece_iff (hexit : (phase.take allowRedirect piece).exit = .more phase')
    (hfront : ∀ o ∈ front, o.wouldBlock kind = true)
    (hlength : kind = .TSLSocket → front.length < kMaxRetryCount) :
    ReadsInTime kind allowRedirect phase (front ++ .bytes piece :: rest) ↔
      ReadsInTime kind allowRedirect phase' rest := by
  refine forall_congr' fun hkind => ?_
  rw [stallsAfter_append_cons_iff rest (hlength hkind) rfl]
  simp only [endedBehind_front_iff hexit hfront]

/-- Over TLS as many calls in a row as a method makes are too late. -/
theorem not_readsInTime {outcome : ReadOutcome} (hfront : ∀ o ∈ front, o.wouldBlock .TSLSocket = true)
    (hblock : outcome.wouldBlock .TSLSocket = true) (hlength : front.length + 1 = kMaxRetryCount) :
    ¬ReadsInTime .TSLSocket allowRedirect phase (front ++ outcome :: rest) := by
  intro hreads
  have hstall : ∀ o ∈ front ++ [outcome], o.wouldBlock .TSLSocket = true := by
    simpa [or_imp, forall_and, hblock] using hfront
  have hstalls := hreads rfl
  rw [List.append_cons] at hstalls
  have hended := done_of_stallsAfter hstalls
    (by rw [List.length_append, List.length_singleton, hlength]) hstall
  exact hended phase rfl

/-- A piece that ends the run is the last. -/
theorem shownPieces_of_end (h : ∀ phase', (phase.take allowRedirect piece).exit ≠ .more phase')
    (pieces : List Bytes) :
    shownPieces allowRedirect phase (piece :: pieces) =
      ((phase.take allowRedirect piece).exit.last.outcome,
        (phase.take allowRedirect piece).callbacks ++
          (phase.take allowRedirect piece).exit.last.callbacks) := by
  unfold shownPieces
  rw [takeAll_of_end h]

section

variable {timeLeft : UInt64 → Bool} {rounds : List Round} {waits : List WaitReply} {now : UInt64}

/-- A pass that hands over a piece. -/
theorem shown_piece_iff (hready : await timeLeft waits = .ready)
    (hfront : ∀ o ∈ front, o.wouldBlock kind = true)
    (hlength : kind = .TSLSocket → front.length < kMaxRetryCount)
    (ih : ∀ phase', (transcript timeLeft allowRedirect rounds phase').shown =
        shownPieces allowRedirect phase' (pieces rest) ↔ ReadsInTime kind allowRedirect phase' rest) :
    (transcript timeLeft allowRedirect (⟨waits, ⟨{}, piece, now⟩⟩ :: rounds) phase).shown =
        shownPieces allowRedirect phase (pieces (front ++ .bytes piece :: rest)) ↔
      ReadsInTime kind allowRedirect phase (front ++ .bytes piece :: rest) := by
  have hflows : Round.Flows timeLeft ⟨waits, ⟨{}, piece, now⟩⟩ := ⟨hready, .inl rfl⟩
  rw [transcript_success hflows rfl, pieces_front hfront]
  dsimp only
  -- what follows the piece is read only in a phase that goes on
  by_cases hmore : ∃ phase', (phase.take allowRedirect piece).exit = .more phase'
  · obtain ⟨phase', hexit⟩ := hmore
    rw [readsInTime_piece_iff hexit hfront hlength, ← ih phase', shownPieces_of_more hexit, hexit]
    unfold Transcript.shown
    rw [Prod.mk.injEq, Prod.ext_iff]
    exact and_congr Iff.rfl (List.append_right_inj _)
  -- the receiver ends with this piece, and no outcome behind it counts
  · rw [not_exists] at hmore
    have hended (outcomes : List ReadOutcome) :
        EndedBehind allowRedirect phase (front ++ .bytes piece :: outcomes) := by
      unfold EndedBehind
      rw [pieces_front hfront, takeAll_of_end hmore]
      exact hmore
    refine iff_of_true ?_ fun hkind => ?_
    · rw [shownPieces_of_end hmore]
      cases hexit : (phase.take allowRedirect piece).exit with
      | more phase' => exact absurd hexit (hmore phase')
      | finished | failed | redirected | crashed => rfl
    · rw [stallsAfter_append_cons_iff rest (hlength hkind) rfl]
      exact stallsAfter_of_done hended

/-- A pass in which the method has given up. -/
theorem shown_givenUp (hready : await timeLeft waits = .ready) (errorCode : Int) (pieces : List Bytes) :
    (transcript timeLeft allowRedirect
        (⟨waits, ⟨{ resultCode := .RetryReachMaxCount, errorCode }, [], now⟩⟩ :: rounds) phase).shown ≠
      shownPieces allowRedirect phase pieces := by
  intro hshown
  have hreports : Callback.onError .RetryReachMaxCount errorCode ∈ (transcript timeLeft allowRedirect
      (⟨waits, ⟨{ resultCode := .RetryReachMaxCount, errorCode }, [], now⟩⟩ :: rounds) phase).shown.2 := by
    unfold Transcript.shown transcript
    rw [hready]
    exact List.mem_cons_self
  rw [hshown] at hreports
  exact not_mem_shownPieces errorCode pieces hreports

end

/-- **Receiving over an object.** Whatever calls would block, the caller sees what the pieces make of the
receiver, exactly when no method gives up in front of the end of the response. -/
theorem shown_iff {self : ISocket} (hself : self.Connected) {timeLeft : UInt64 → Bool} {rounds : List Round}
    (h : ReceivesAnswered self timeLeft outcomes rounds)
    (houtcomes : ∀ o ∈ outcomes, o.wouldBlock self.kind = true ∨ o.Progress) :
    (transcript timeLeft allowRedirect rounds phase).shown =
        shownPieces allowRedirect phase (pieces outcomes) ↔
      ReadsInTime self.kind allowRedirect phase outcomes := by
  induction h generalizing phase with
  | @waiting outcomes start hwaits =>
    obtain ⟨hall, hlt, -⟩ := (receiveSocket_cases hself start houtcomes).of_waits hwaits
    have hpieces : pieces (outcomes ++ []) = [] := pieces_of_wouldBlock hall []
    rw [List.append_nil] at hpieces
    rw [hpieces]
    refine iff_of_true rfl fun hkind => stallsAfter_of_lt ?_
    exact callLimit_of_TSLSocket hkind ▸ hlt
  | @returned outcomes start now waits result data rounds hready hreturns htime hrest ih =>
    obtain ⟨front, outcome, rest, rfl, hfront, hlt, hlast, hreport, -, hused⟩ :=
      (receiveSocket_cases hself start houtcomes).of_returns hreturns
    rw [hused] at hrest ih
    have hlegal : ∀ o ∈ rest, o.wouldBlock self.kind = true ∨ o.Progress := fun o ho =>
      houtcomes o (List.mem_append_right _ (List.mem_cons_of_mem _ ho))
    cases outcome with
    | bytes piece =>
      obtain ⟨rfl, rfl⟩ := Prod.mk.inj hreport
      refine shown_piece_iff hready hfront (fun hkind => ?_) fun phase' => ih hlegal
      exact callLimit_of_TSLSocket hkind ▸ hlt
    | failed error =>
      have hblock : (ReadOutcome.failed error).wouldBlock self.kind = true :=
        (houtcomes _ (by simp)).resolve_right id
      cases hkind : self.kind with
      | PlainSocket =>
        -- the pass asks to retry
        rw [hkind] at hreport
        obtain ⟨rfl, rfl⟩ := Prod.mk.inj hreport
        have hflows : Round.Flows timeLeft
            ⟨waits, ⟨{ resultCode := .Retry, errorCode := AgainCode }, [], now⟩⟩ := ⟨hready, .inr rfl⟩
        have hpieces : pieces (front ++ .failed error :: rest) = pieces rest := by
          rw [pieces_of_wouldBlock hfront, ← List.singleton_append,
            pieces_of_wouldBlock (List.forall_mem_singleton.mpr hblock)]
        rw [transcript_retry hflows rfl, hpieces]
        exact iff_of_true ((ih hlegal).mpr fun h => by rw [hkind] at h; cases h) fun h => by cases h
      | TSLSocket =>
        rw [hkind] at hreport hblock hlast hfront
        obtain ⟨rfl, rfl⟩ := Prod.mk.inj hreport
        exact iff_of_false (shown_givenUp hready _ _) (not_readsInTime hfront hblock (hlast hblock))

end

/-! ### Runs with a `cancel()` and without callbacks -/

/-- An event that reports no error but that of a size line. -/
def Event.ErrsInSizeLine (e : Event) : Prop :=
  ∀ code errorCode, e = .callback (.onError code errorCode) → code = .ChunkSizeError

/-- A request with its deadline and its mind about redirects. -/
def Deadline (timeLeft : UInt64 → Bool) (allowRedirect : Bool) (_ : Unit) (s : State) : Prop :=
  s.timeLeft = timeLeft ∧ s.info_.isAllowRedirect = allowRedirect

section

variable {env : Env} {timeLeft : UInt64 → Bool} {allowRedirect : Bool}

/-- A `cancel()` leaves the deadline alone. -/
theorem ticks_deadline : Ticks (Monitor.always Event.ErrsInSizeLine) (Deadline timeLeft allowRedirect)
    (Deadline timeLeft allowRedirect) :=
  ticks_of (fun _ _ hs => hs) (fun _ _ _ hs => hs) fun _ _ hs => ⟨fun _ _ h => (by cases h), hs⟩

/-- `disconnected` leaves the deadline alone. -/
theorem watch_disconnected_deadline : Program.Watch (Monitor.always Event.ErrsInSizeLine) env
    (Deadline timeLeft allowRedirect) disconnected (fun _ => Deadline timeLeft allowRedirect)
    fun _ _ _ => True :=
  ticks_deadline.disconnected (fun _ _ hs _ _ => ⟨fun _ _ h => (by cases h), hs⟩) fun _ _ hs _ => hs

/-- So does a call through the socket. -/
theorem watch_callSocket_deadline (call : Call) :
    Program.Watch (Monitor.always Event.ErrsInSizeLine) env (Deadline timeLeft allowRedirect)
      (callSocket call) (fun _ => Deadline timeLeft allowRedirect) fun _ _ _ => True :=
  ticks_deadline.callSocket (fun _ _ _ _ => trivial) fun _ _ hs => ⟨fun _ _ h => (by cases h), hs⟩

/-- A return says which time it is. -/
theorem watch_returnAt_deadline (now : UInt64) :
    Program.Watch (Monitor.always Event.ErrsInSizeLine) env (Deadline timeLeft allowRedirect)
      (returnAt now) (fun _ k s => s.now = now ∧ Deadline timeLeft allowRedirect k s) fun _ _ _ => True :=
  .of_run (fun s => run_returnAt now env s) fun _ _ hs => ⟨⟨fun _ _ h => (by cases h), trivial⟩, rfl, hs⟩

/-- Waits that succeed report nothing. -/
theorem watch_isReceivable_deadline {waits : List WaitReply} (hready : await timeLeft waits = .ready) :
    Program.Watch (Monitor.always Event.ErrsInSizeLine) env (Deadline timeLeft allowRedirect)
      (isReceivable waits) (fun _ => Deadline timeLeft allowRedirect) fun _ _ _ => True := by
  -- induction on the waits: a failed one leaves the deadline where it was
  induction waits with
  | nil => cases hready
  | cons canReceive waits ih =>
    unfold isReceivable
    refine .bind (ticks_deadline.loadValid.conseq (fun _ _ hs => hs) fun _ _ _ hs => hs.2) fun valid =>
      .ite (fun _ => watch_disconnected_deadline.bind fun _ => .pure fun _ _ hs => hs) fun _ => ?_
    unfold getRemainTime
    rw [bind_assoc]
    refine .bind_state fun s => ?_
    rw [pure_bind]
    refine .conseq (P := Deadline timeLeft allowRedirect) ?_ (fun _ _ hs => hs.2) fun _ _ _ hs => hs
    refine (watch_callSocket_deadline _).bind fun _ => (watch_returnAt_deadline _).bind fun _ =>
      .ite (fun _ => .pure fun _ _ hs => hs.2) fun hfailed => ?_
    rw [bind_assoc]
    refine .bind_state fun t => ?_
    rw [pure_bind]
    rw [await, if_neg hfailed] at hready
    split at hready
    · next hretry =>
      refine .ite (fun _ => (ih hready).conseq (fun _ _ hs => hs.2.2) fun _ _ _ hs => hs) fun hnot => ?_
      rintro k u ⟨rfl, hnow, htime, -⟩
      -- the time left when the wait returned is the time `await` has asked for
      have hleft : decide (0 < remainTime u) = timeLeft canReceive.now := by
        rw [← htime, ← hnow]
        rfl
      rw [hleft] at hnot
      exact absurd hretry hnot
    · cases hready

/-- The end of a reaction reports no error but that of a size line. -/
theorem watch_perform_deadline {reaction : Reaction}
    (hexit : ∀ code errorCode, reaction.exit = .failed code errorCode → code = .ChunkSizeError) :
    Program.Watch (Monitor.always Event.ErrsInSizeLine) env (Deadline timeLeft allowRedirect)
      (reaction.perform handOver)
      (fun next k s => (∀ phase, next = some phase → reaction.exit = .more phase) ∧
        Deadline timeLeft allowRedirect k s)
      fun _ _ _ => True := by
  have hannounce : Program.Watch (Monitor.always Event.ErrsInSizeLine) env (Deadline timeLeft allowRedirect)
      (announce reaction.header) (fun _ => Deadline timeLeft allowRedirect) fun _ _ _ => True := by
    cases reaction.header with
    | none => exact .pure fun _ _ hs => hs
    | some header => exact ticks_deadline.guarded fun _ _ hs _ _ => ⟨fun _ _ h => (by cases h), hs⟩
  have hdeliver (data : List Bytes) : Program.Watch (Monitor.always Event.ErrsInSizeLine) env
      (Deadline timeLeft allowRedirect) (deliver data) (fun _ => Deadline timeLeft allowRedirect)
      fun _ _ _ => True := by
    induction data with
    | nil => exact .pure fun _ _ hs => hs
    | cons data rest ih =>
      exact .bind (ticks_deadline.guarded fun _ _ hs _ _ => ⟨fun _ _ h => (by cases h), hs⟩) fun _ => ih
  -- the header, the data and the exit, in the order of the source
  refine hannounce.bind fun _ => (hdeliver _).bind fun _ => ?_
  cases hcase : reaction.exit with
  | more phase =>
    refine .pure fun _ _ hs => ⟨fun phase' h => ?_, hs⟩
    rw [Option.some.inj h]
  | finished =>
    exact watch_disconnected_deadline.bind fun _ => .pure fun _ _ hs => ⟨fun _ h => (by cases h), hs⟩
  | failed code errorCode =>
    obtain rfl := hexit code errorCode hcase
    have herror : Program.Watch (Monitor.always Event.ErrsInSizeLine) env (Deadline timeLeft allowRedirect)
        (handleErrorResponse .ChunkSizeError errorCode) (fun _ => Deadline timeLeft allowRedirect)
        fun _ _ _ => True := by
      refine ticks_deadline.handleErrorResponse (fun _ _ hs _ => ⟨fun code errorCode' h => ?_, hs⟩)
        watch_disconnected_deadline
      cases h
      rfl
    exact herror.bind fun _ => .pure fun _ _ hs => ⟨fun _ h => (by cases h), hs⟩
  | redirected url => exact .bind (Q := fun _ _ _ => False) (.stop fun _ _ _ => trivial) fun _ _ _ hs => hs.elim
  | crashed fault => exact .stop fun _ _ _ => trivial

/-- A pass with a reaction that reports no other error. -/
theorem watch_receiverPass_deadline (phase : Phase) (reply : ReceiveReply)
    (hexit : ∀ code errorCode, (phase.react allowRedirect reply).exit = .failed code errorCode →
      code = .ChunkSizeError) :
    Program.Watch (Monitor.always Event.ErrsInSizeLine) env (Deadline timeLeft allowRedirect)
      (receiverPass handOver phase reply)
      (fun next k s => (∀ phase', next = some phase' →
          (phase.react allowRedirect reply).exit = .more phase') ∧ Deadline timeLeft allowRedirect k s)
      fun _ _ _ => True := by
  refine (watch_callSocket_deadline _).bind fun _ => (watch_returnAt_deadline _).bind fun _ =>
    .bind_state fun s => ?_
  by_cases hallow : s.info_.isAllowRedirect = allowRedirect
  · rw [hallow]
    exact (watch_perform_deadline hexit).conseq (fun _ _ hs => hs.2.2) fun _ _ _ hs => hs
  · rintro k _ ⟨rfl, -, -, hs⟩
    exact absurd hs hallow

/-- **No run over an object reports that a call would block**, whatever the caller has installed and whenever it
cancels the request. -/
theorem watch_receiver_deadline {self : ISocket} (hself : self.Connected) {outcomes : List ReadOutcome}
    {rounds : List Round} (h : ReceivesAnswered self timeLeft outcomes rounds) {phase : Phase}
    (houtcomes : ∀ o ∈ outcomes, o.wouldBlock self.kind = true ∨ o.Progress)
    (hreads : ReadsInTime self.kind allowRedirect phase outcomes) :
    Program.Watch (Monitor.always Event.ErrsInSizeLine) env (Deadline timeLeft allowRedirect)
      (receiver handOver rounds phase) (fun _ => Deadline timeLeft allowRedirect) fun _ _ _ => True := by
  induction h generalizing phase with
  | @waiting outcomes start hwaits =>
    unfold receiver isReceivable
    refine .bind (Q := fun _ => Deadline timeLeft allowRedirect) ?_ fun _ => .pure fun _ _ hs => hs
    refine .bind (ticks_deadline.loadValid.conseq (fun _ _ hs => hs) fun _ _ _ hs => hs.2) fun valid =>
      .ite (fun _ => watch_disconnected_deadline.bind fun _ => .pure fun _ _ hs => hs) fun _ => ?_
    unfold getRemainTime
    rw [bind_assoc]
    refine .bind_state fun s => ?_
    rw [pure_bind]
    refine .bind ((watch_callSocket_deadline _).conseq (fun _ _ hs => hs.2) fun _ _ _ hs => hs) fun _ => ?_
    exact .stop fun _ _ _ => trivial
  | @returned outcomes start now waits result data rounds hready hreturns htime hrest ih =>
    obtain ⟨front, outcome, rest, rfl, hfront, hlt, hlast, hreport, -, hused⟩ :=
      (receiveSocket_cases hself start houtcomes).of_returns hreturns
    rw [hused] at hrest ih
    have hlegal : ∀ o ∈ rest, o.wouldBlock self.kind = true ∨ o.Progress := fun o ho =>
      houtcomes o (List.mem_append_right _ (List.mem_cons_of_mem _ ho))
    -- what a reaction asks for is what the rest of the outcomes is read in
    have hpass (hexit : ∀ code errorCode, (phase.react allowRedirect ⟨result, data, now⟩).exit =
          .failed code errorCode → code = .ChunkSizeError)
        (hmore : ∀ phase', (phase.react allowRedirect ⟨result, data, now⟩).exit = .more phase' →
          ReadsInTime self.kind allowRedirect phase' rest) :
        Program.Watch (Monitor.always Event.ErrsInSizeLine) env (Deadline timeLeft allowRedirect)
          (receiver handOver (⟨waits, ⟨result, data, now⟩⟩ :: rounds) phase)
          (fun _ => Deadline timeLeft allowRedirect) fun _ _ _ => True := by
      refine (watch_isReceivable_deadline hready).bind fun receivable => .ite (fun _ => .pure fun _ _ hs => hs)
        fun _ => (watch_receiverPass_deadline phase _ hexit).bind fun next => ?_
      cases next with
      | none => exact .pure fun _ _ hs => hs.2
      | some phase' =>
        intro k s hs
        exact ih hlegal (hmore phase' (hs.1 phase' rfl)) k s hs.2
    cases outcome with
    | bytes piece =>
      obtain ⟨rfl, rfl⟩ := Prod.mk.inj hreport
      refine hpass (fun code errorCode hexit => failed_take hexit) fun phase' hexit => ?_
      refine (readsInTime_piece_iff hexit hfront fun hkind => ?_).mp hreads
      exact callLimit_of_TSLSocket hkind ▸ hlt
    | failed error =>
      have hblock : (ReadOutcome.failed error).wouldBlock self.kind = true :=
        (houtcomes _ (by simp)).resolve_right id
      cases hkind : self.kind with
      | PlainSocket =>
        rw [hkind] at hreport
        obtain ⟨rfl, rfl⟩ := Prod.mk.inj hreport
        exact hpass (fun _ _ hexit => (by cases hexit)) fun _ _ htls => by rw [hkind] at htls; cases htls
      | TSLSocket =>
        rw [hkind] at hblock hlast hfront hreads
        exact absurd hreads (not_readsInTime hfront hblock (hlast hblock))

end

/-! ### `Request::send` and `Request::receive` over an object -/

/-- A request that has connected over an object. -/
structure State.Over (s : State) (object : ISocket) : Prop where
  connected : object.Connected
  socket : s.socket_ = some ⟨object.kind, object.ipVersion_⟩

/-- A worker over a socket has one. -/
theorem State.Over.ne_none {s : State} {self : ISocket} (h : s.Over self) : s.socket_ ≠ none := by
  rw [h.socket]
  exact Option.some_ne_none _

/-- **A request over an object is not failed by calls that would block**, in either direction, and resumes at
the same byte. Over TLS this holds exactly as long as no method makes all its calls in vain. -/
theorem resumes_wouldBlock (env : Env) {s : State} {self : ISocket} (h : s.Over self) :
    (∀ canSend sends outcomes log, canSend.result.isSuccess = true →
      WriteInterleaved self.kind (htmlEncode env.order s.info_ s.url_).1.length outcomes →
      (self.kind = .PlainSocket → ∀ o ∈ outcomes, o.wouldBlock .PlainSocket = false) →
      SendsAnswered self s.timeLeft (offered ((send canSend sends).run env s).events) outcomes sends log →
      (SendsThrough self.kind (htmlEncode env.order s.info_ s.url_).1 outcomes log
          ((send canSend sends).run env s) ↔
        (self.kind = .TSLSocket →
          StallsAfter (WriteOutcome.wouldBlock .TSLSocket) kMaxRetryCount (fun front =>
            (htmlEncode env.order s.info_ s.url_).1.length ≤ accepted .TSLSocket front) outcomes))) ∧
    ∀ rounds outcomes, (∀ o ∈ outcomes, o.wouldBlock self.kind = true ∨ o.Progress) →
      ReceivesAnswered self s.timeLeft outcomes rounds →
      (ReadsInTime self.kind s.info_.isAllowRedirect (.head []) outcomes →
        ∀ code errorCode, .onError code errorCode ∈ callbacks ((receive handOver rounds).run env s).events →
          code = .ChunkSizeError) ∧
      (s.Undisturbed →
        ((Transcript.of ((receive handOver rounds).run env s)).shown =
            shownPieces s.info_.isAllowRedirect (.head []) (pieces outcomes) ↔
          ReadsInTime self.kind s.info_.isAllowRedirect (.head []) outcomes)) := by
  constructor
  -- sending: the loop of the request around the loops of the sockets
  · intro canSend sends outcomes log hsuccess hinterleaved hplain hanswered
    have hdata := htmlEncode_ne_nil env.order s.info_ s.url_
    rw [run_send_success env h.ne_none hsuccess] at hanswered ⊢
    rw [Run.prepend_events, offered_append, offered_canSendEvents, List.nil_append] at hanswered
    have hsocket : (s.encoded env.order canSend.now).socket_ ≠ none := by
      rw [s.encoded_socket_]
      exact h.ne_none
    have hloop := sendsThrough_iff env h.connected hanswered hsocket hdata rfl hinterleaved
    rw [sendsThrough_prepend_iff (callbacks_canSendEvents s canSend), hloop]
    -- a plain socket is not asked to wait here, so its retries cannot run out
    cases hkind : self.kind with
    | PlainSocket =>
      rw [hkind] at hinterleaved
      refine iff_of_true (stallsAfter_of_forall (by decide) (hplain hkind)) fun h => by cases h
    | TSLSocket => exact ⟨fun hstalls _ => hstalls, fun hstalls => hstalls rfl⟩
  -- receiving: what may be reported, and what is handed over
  · intro rounds outcomes houtcomes hanswered
    refine ⟨fun hreads code errorCode hmem => ?_, fun hundisturbed => ?_⟩
    · rw [receive_eq_receiver] at hmem
      have hwatch : Program.Watch (Monitor.always Event.ErrsInSizeLine) env
          (Deadline s.timeLeft s.info_.isAllowRedirect) (receiver handOver rounds (.head []))
          (fun _ => Deadline s.timeLeft s.info_.isAllowRedirect) fun _ _ _ => True :=
        watch_receiver_deadline h.connected hanswered houtcomes hreads
      obtain ⟨e, he, hcallback⟩ := List.mem_filterMap.mp hmem
      have hevent : e = .callback (.onError code errorCode) := by
        cases e with
        | callback callback => rw [Option.some.inj hcallback]
        | call | returned | cancelled => cases hcallback
      exact Monitor.accepts_always.mp (hwatch () s ⟨rfl, rfl⟩).1 e he code errorCode hevent
    · rw [transcript_receive env rounds hundisturbed (Option.ne_none_iff_isSome.mp h.ne_none)]
      exact shown_iff h.connected hanswered houtcomes

/-- A request for `http://h` that has connected over an object. -/
def State.sendingOver (object : ISocket) : State :=
  { State.toSend with socket_ := some ⟨object.kind, object.ipVersion_⟩ }

/-- The bytes of the request. -/
def toSendData : Bytes := (htmlEncode .latestFirst State.toSend.info_ State.toSend.url_).1

/-- A write and a read over TLS that have to be made twice. -/
theorem resumes_wouldBlock_once :
    SendsThrough .TSLSocket toSendData [⟨-1, SSL_ERROR_WANT_WRITE⟩, ⟨toSendData.length, 0⟩]
        [.SSL_write toSendData, .SSL_write toSendData]
        ((send ⟨{}, 0⟩ [⟨{}, toSendData.length, 0⟩]).run Env.plain (State.sendingOver tlsState.self)) ∧
      (Transcript.of ((receive handOver [Round.piece sizedHead]).run Env.plain
          (State.sendingOver tlsState.self))).shown =
        shownPieces true (.head []) [sizedHead] := by
  have hover : (State.sendingOver tlsState.self).Over tlsState.self :=
    ⟨fun _ => Option.some_ne_none _, rfl⟩
  obtain ⟨hsend, hreceive⟩ := resumes_wouldBlock Env.plain hover
  constructor
  · have hsent := hsend ⟨{}, 0⟩ [⟨{}, toSendData.length, 0⟩]
      [⟨-1, SSL_ERROR_WANT_WRITE⟩, ⟨toSendData.length, 0⟩] [.SSL_write toSendData, .SSL_write toSendData] rfl ?_
      (fun h => by cases h) ?_
    · exact hsent.mpr fun _ => stallsAfter_of_lt (by decide)
    · exact .inl ⟨by decide, .inr ⟨by unfold WriteOutcome.Progress; decide +kernel, le_rfl, trivial⟩⟩
    · have hreturns : ((sendSocket toSendData [⟨-1, SSL_ERROR_WANT_WRITE⟩, ⟨toSendData.length, 0⟩]).run ()
          ⟨tlsState.self, 0⟩).outcome = .ok ({}, (toSendData.length : Int)) := by decide +kernel
      have hoffered : offered ((send ⟨{}, 0⟩ [⟨{}, toSendData.length, 0⟩]).run Env.plain
          (State.sendingOver tlsState.self)).events = [toSendData] := by decide +kernel
      rw [hoffered]
      exact .returned hreturns (by decide) (.done _)
  · have hreturns : ((receiveSocket [.failed SSL_ERROR_WANT_READ, .bytes sizedHead]).run ()
        ⟨tlsState.self, 0⟩).outcome = .ok ({}, sizedHead) := by decide +kernel
    have hwaits : ((receiveSocket []).run () ⟨tlsState.self, 0⟩).outcome = .error .pending := by decide +kernel
    have hsome : sizedHead ≠ [] := by decide
    have hshown := hreceive [Round.piece sizedHead] [.failed SSL_ERROR_WANT_READ, .bytes sizedHead]
      (List.forall_mem_cons.mpr ⟨.inl rfl, List.forall_mem_singleton.mpr (.inr hsome)⟩)
      (.returned rfl hreturns (by decide) (.waiting hwaits))
    exact (hshown.2 ⟨rfl, rfl, rfl⟩).mpr fun _ => stallsAfter_of_lt (by decide)

/-- A thousand reads in a row that would block, and a head behind them. -/
def stalledReads : List ReadOutcome :=
  List.replicate kMaxRetryCount (.failed SSL_ERROR_WANT_READ) ++ [.bytes sizedHead]

/-- A pass in which a method over TLS has given up. -/
def Round.givenUp : Round :=
  ⟨[⟨{}, 0⟩], ⟨{ resultCode := .RetryReachMaxCount, errorCode := SSL_ERROR_WANT_READ }, [], 0⟩⟩

/-- Over TLS a thousand reads in a row that would block end the request with an error, in no time and with a head
behind them. Over a plain socket one send that would block does. -/
theorem not_resumes_wouldBlock :
    (ReceivesAnswered tlsState.self (State.sendingOver tlsState.self).timeLeft stalledReads
        [Round.givenUp, Round.piece sizedHead] ∧
      callbacks ((receive handOver [Round.givenUp, Round.piece sizedHead]).run Env.plain
          (State.sendingOver tlsState.self)).events =
        [.onError .RetryReachMaxCount SSL_ERROR_WANT_READ, .onDisconnected]) ∧
      SendsAnswered plainState.self (State.sendingOver plainState.self).timeLeft [toSendData]
        [⟨-1, AgainCode⟩, ⟨toSendData.length, 0⟩]
        [⟨{ resultCode := .Failed, errorCode := AgainCode }, 0, 0⟩] [.send toSendData] ∧
      callbacks ((send ⟨{}, 0⟩ [⟨{ resultCode := .Failed, errorCode := AgainCode }, 0, 0⟩]).run Env.plain
          (State.sendingOver plainState.self)).events =
        [.onError .Failed AgainCode, .onDisconnected] := by
  refine ⟨⟨?_, by rfl⟩, ?_, by rfl⟩
  -- a thousand times `SSL_ERROR_WANT_READ`, and one piece behind them
  · have hstall : ∀ o ∈ List.replicate kMaxRetryCount (ReadOutcome.failed SSL_ERROR_WANT_READ),
        o.wouldBlock .TSLSocket = true := fun o ho => by rw [List.eq_of_mem_replicate ho]; rfl
    have hlegal : ∀ o ∈ stalledReads, o.wouldBlock .TSLSocket = true ∨ o.Progress := by
      refine List.forall_mem_append.mpr ⟨fun o ho => .inl (hstall o ho), ?_⟩
      exact List.forall_mem_singleton.mpr (.inr (by decide : sizedHead ≠ []))
    -- the loop of the socket gives up on the last of them
    obtain ⟨last, hlast, hretry⟩ := retry_of_exhausted (ReadOutcome.wouldBlock .TSLSocket) kMaxRetryCount hstall
      List.length_replicate (by decide) [.bytes sizedHead]
    rw [List.eq_of_mem_replicate hlast] at hretry
    have hrun : (receiveSocket stalledReads).run () ⟨tlsState.self, 0⟩ = retryRun (.SSL_read kDefaultReadSize)
        (ReadOutcome.report .TSLSocket) ⟨tlsState.self, 0⟩ 0 stalledReads
        (retry (ReadOutcome.wouldBlock .TSLSocket) kMaxRetryCount 0 stalledReads) :=
      run_receiveSocket (fun _ => Option.some_ne_none _) hlegal
    have hstalled : retry (ReadOutcome.wouldBlock .TSLSocket) kMaxRetryCount 0 stalledReads =
        some (.failed SSL_ERROR_WANT_READ, kMaxRetryCount) := hretry
    rw [hstalled, retryRun_some] at hrun
    have hrest : stalledReads.drop ((receiveSocket stalledReads).run () ⟨tlsState.self, 0⟩).events.length =
        [.bytes sizedHead] := by
      rw [hrun]
      dsimp only
      rw [List.length_replicate]
      exact List.drop_left' List.length_replicate
    have hpiece : ((receiveSocket [.bytes sizedHead]).run () ⟨tlsState.self, 0⟩).outcome =
        .ok ({}, sizedHead) := by decide +kernel
    have hwaits : ((receiveSocket []).run () ⟨tlsState.self, 0⟩).outcome = .error .pending := by decide +kernel
    refine .returned rfl (congrArg Run.outcome hrun) (by decide) ?_
    rw [hrest]
    exact .returned rfl hpiece (by decide) (.waiting hwaits)
  -- `EAGAIN` from `::send` is an error at once
  · have hfails : ((sendSocket toSendData [⟨-1, AgainCode⟩, ⟨toSendData.length, 0⟩]).run ()
        ⟨plainState.self, 0⟩).outcome = .ok ({ resultCode := .Failed, errorCode := AgainCode }, 0) := by
      decide +kernel
    exact .returned hfails (by decide) (.done _)

end HttpRequest
