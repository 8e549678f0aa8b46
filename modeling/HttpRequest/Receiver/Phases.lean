import HttpRequest.Model.Rules

/-! # The receiver as a machine over byte strings

`Request::receive` keeps seven local variables and moves bytes between `Data` buffers. What it does
with a reply depends on much less: the bytes of the head buffered so far, or how many body bytes are
still to come, or how much of the open chunk is. This file states that machine (`Phase`,
`Phase.react`), runs it as a worker (`receiver`), and proves that `receive` is this worker
(`receive_eq_receiver`). The rest of the development reasons about the machine. -/

namespace HttpRequest

open Foundations

/-! ### The machine -/

/-- What the next bytes are read as. -/
inductive Phase
  /-- A head, of which these bytes have arrived. -/
  | head (buffer : Bytes)
  /-- A body that ends with the connection or at a length, of which so many bytes have arrived. -/
  | plain (contentLength recvLength : Int)
  /-- A chunked body: so many bytes of the open chunk are to come; no chunk is open when the number is
  not positive. -/
  | chunked (chunkSize : Int)

/-- How the reaction to a reply ends. -/
inductive Exit
  | more (phase : Phase)
  | finished
  | failed (code : ResultCode) (errorCode : Int)
  | redirected (url : Bytes)
  | crashed (fault : Fault)

/-- The reaction to a reply: the head and the body bytes it hands to the caller, and how it ends. -/
structure Reaction where
  header : Option ResponseHeader
  data : List Bytes
  exit : Exit

/-- Skipping a line break makes a view no longer. -/
theorem length_skipCRLF_le (view : Bytes) : (skipCRLF view).length ≤ view.length := by
  unfold skipCRLF
  split
  · rw [List.length_drop]
    omega
  · exact le_rfl

/-- Decoding one piece of a chunked body: the payloads delivered and how the piece leaves the
decoder. -/
def decode (chunkSize : Int) (view : Bytes) : List Bytes × Exit :=
  if _hview : view = [] then ([], .more (.chunked chunkSize))
  else if chunkSize ≤ 0 then
    match _hpos : find kCRLF view with
    | none => ([], .failed .ChunkSizeError 0)
    | some pos =>
      match stolHex (view.take pos) with
      | .error fault => ([], .crashed fault)
      | .ok size =>
        if size = 0 then ([], .finished)
        else decode size (skipCRLF (view.drop (pos + kCRLF.length)))
  else
    let size := min chunkSize.toNat view.length
    let rest := decode (chunkSize - size) (skipCRLF (view.drop size))
    (view.take size :: rest.1, rest.2)
termination_by view.length
decreasing_by
  · have hfound := find_add_length_le _hpos
    have hskip := length_skipCRLF_le (view.drop (pos + kCRLF.length))
    have hlen : kCRLF.length = 2 := rfl
    rw [List.length_drop] at hskip
    omega
  · have hskip := length_skipCRLF_le (view.drop (min chunkSize.toNat view.length))
    have hpos := List.length_pos_iff.mpr _hview
    rw [List.length_drop] at hskip
    omega

/-- The body an accepted head announces. -/
def Phase.ofHead (contentLength : Int) (transferCoding : Bytes) : Phase :=
  if transferCoding = kChunked then .chunked (-1) else .plain contentLength 0

/-- A piece is handed over unless it is empty. -/
def handed (piece : Bytes) : List Bytes := if piece = [] then [] else [piece]

/-- A piece that is not empty is handed over. -/
theorem handed_of_ne_nil {piece : Bytes} (h : piece ≠ []) : handed piece = [piece] := if_neg h

/-- What is handed over is the piece. -/
theorem flatten_handed (piece : Bytes) : (handed piece).flatten = piece := by
  by_cases h : piece = []
  · rw [handed, if_pos h, h]
    rfl
  · rw [handed_of_ne_nil h, List.flatten_singleton]

/-- The reaction to body bytes. -/
def Phase.takeBody : Phase → Bytes → List Bytes × Exit
  | .head buffer, piece => ([], .more (.head (buffer ++ piece)))
  | .plain contentLength recvLength, piece =>
    (handed piece,
      if contentLength ≤ recvLength + piece.length then .finished
      else .more (.plain contentLength (recvLength + piece.length)))
  | .chunked chunkSize, piece => decode chunkSize piece

/-- The reaction to a piece of the stream. -/
def Phase.take (allowRedirect : Bool) : Phase → Bytes → Reaction
  | .head buffer, piece =>
    match parseResponseHeader (buffer ++ piece) {} with
    | .error fault => ⟨none, [], .crashed fault⟩
    | .ok (false, _, _) => ⟨none, [], .more (.head (buffer ++ piece))⟩
    | .ok (true, headerSize, response) =>
      if response.isNeedRedirect && allowRedirect then
        ⟨none, [], .redirected ((response.headers.lookup kLocation).getD [])⟩
      else
        match parseFieldValueInt64 response.headers kContentLength int64Max with
        | .error fault => ⟨none, [], .crashed fault⟩
        | .ok contentLength =>
          let transferCoding := parseFieldValueString response.headers kTransferEncoding []
          let body := (Phase.ofHead contentLength transferCoding).takeBody
            ((buffer ++ piece).drop headerSize)
          ⟨some response, body.1, body.2⟩
  | phase, piece => ⟨none, (phase.takeBody piece).1, (phase.takeBody piece).2⟩

/-- The reaction to a reply of the socket. -/
def Phase.react (allowRedirect : Bool) (phase : Phase) (reply : ReceiveReply) : Reaction :=
  if reply.result.isSuccess then phase.take allowRedirect reply.data
  else if reply.result.resultCode = .Retry then ⟨none, [], .more phase⟩
  else if reply.result.resultCode = .Completed ∨ reply.result.resultCode = .Disconnected then
    ⟨none, [], .finished⟩
  else ⟨none, [], .failed reply.result.resultCode reply.result.errorCode⟩

/-- A piece with the last of the bytes announced ends the run. -/
theorem takeBody_of_le {contentLength recvLength : Int} {piece : Bytes}
    (h : contentLength ≤ recvLength + piece.length) :
    (Phase.plain contentLength recvLength).takeBody piece = (handed piece, .finished) := by
  rw [Phase.takeBody, if_pos h]

/-- Any other piece is handed over, and counted. -/
theorem takeBody_of_lt {contentLength recvLength : Int} {piece : Bytes}
    (h : recvLength + piece.length < contentLength) :
    (Phase.plain contentLength recvLength).takeBody piece =
      (handed piece, .more (.plain contentLength (recvLength + piece.length))) := by
  rw [Phase.takeBody, if_neg (by omega)]

/-- A piece of a plain body makes no head. -/
theorem take_plain (allowRedirect : Bool) (contentLength recvLength : Int) (piece : Bytes) :
    (Phase.plain contentLength recvLength).take allowRedirect piece =
      ⟨none, ((Phase.plain contentLength recvLength).takeBody piece).1,
        ((Phase.plain contentLength recvLength).takeBody piece).2⟩ := rfl

/-- Nor does a piece of a chunked one. -/
theorem take_chunked (allowRedirect : Bool) (chunkSize : Int) (piece : Bytes) :
    (Phase.chunked chunkSize).take allowRedirect piece =
      ⟨none, (decode chunkSize piece).1, (decode chunkSize piece).2⟩ := rfl

/-! ### The machine as a worker -/

/-- Hand over body bytes. -/
def deliver : List Bytes → Worker Unit
  | [] => pure ()
  | data :: rest => do
    responseData (Data.ofBytes data)
    deliver rest

/-- Delivering body bytes changes little of the state. -/
theorem Steady.deliver {I : State → Prop} {E : Stop → State → Prop} {p : Event → Prop}
    (h : Steady I) (hp : ∀ e, Event.Routine e → p e) (data : List Bytes) :
    Program.Keeps I E p (deliver data) := by
  induction data with
  | nil => exact .pure _
  | cons data rest ih => exact (h.responseData hp _).bind fun _ => ih

/-- Act on the end of a reaction. The result is the next phase, if there is one. -/
def Exit.perform (redirect : Bytes → Worker Unit) : Exit → Worker (Option Phase)
  | .more phase => pure (some phase)
  | .finished => do
    disconnected
    pure none
  | .failed code errorCode => do
    handleErrorResponse code errorCode
    pure none
  | .redirected url => do
    redirect url
    pure none
  | .crashed fault => Program.stop (.fault fault)

/-- Hand over the head, if there is one. -/
def announce : Option ResponseHeader → Worker Unit
  | none => pure ()
  | some header => responseHeader header

/-- Handing over a head changes little of the state. -/
theorem Steady.announce {I : State → Prop} {E : Stop → State → Prop} {p : Event → Prop}
    (h : Steady I) (hp : ∀ e, Event.Routine e → p e) (header : Option ResponseHeader) :
    Program.Keeps I E p (announce header) := by
  cases header with
  | none => exact .pure _
  | some header => exact h.responseHeader hp header

/-- Act on a reaction. -/
def Reaction.perform (redirect : Bytes → Worker Unit) (reaction : Reaction) :
    Worker (Option Phase) := do
  announce reaction.header
  deliver reaction.data
  reaction.exit.perform redirect

/-- One pass of the receiver behind its waits. -/
def receiverPass (redirect : Bytes → Worker Unit) (phase : Phase) (reply : ReceiveReply) :
    Worker (Option Phase) := do
  callSocket .receive
  returnAt reply.now
  let s ← Program.state
  (phase.react s.info_.isAllowRedirect reply).perform redirect

/-- The receiver over the passes of a script. -/
def receiver (redirect : Bytes → Worker Unit) : List Round → Phase → Worker Unit
  | [], _ => do
    let _ ← isReceivable []
    pure ()
  | round :: rounds, phase => do
    let receivable ← isReceivable round.waits
    if !receivable then pure ()
    else do
      let next ← receiverPass redirect phase round.reply
      match next with
      | none => pure ()
      | some phase => receiver redirect rounds phase

/-! ### The rules of decoding -/

/-- An empty piece leaves the decoder as it is. -/
@[simp] theorem decode_nil (chunkSize : Int) :
    decode chunkSize [] = ([], .more (.chunked chunkSize)) := by
  rw [decode, dif_pos rfl]

/-- A view with a line break is not empty. -/
theorem ne_nil_of_find {view : Bytes} {pos : Nat} (hpos : find kCRLF view = some pos) : view ≠ [] := by
  rintro rfl
  have hfound := find_add_length_le hpos
  have hlen : kCRLF.length = 2 := rfl
  rw [List.length_nil] at hfound
  omega

/-- Without an open chunk, bytes without a line break are an error. -/
theorem decode_of_find_none {chunkSize : Int} (hsize : chunkSize ≤ 0) {view : Bytes}
    (hview : view ≠ []) (hpos : find kCRLF view = none) :
    decode chunkSize view = ([], .failed .ChunkSizeError 0) := by
  rw [decode, dif_neg hview, if_pos hsize]
  split
  · rfl
  · simp_all

/-- Without an open chunk, the text in front of the first line break is read as a size. -/
theorem decode_of_find_some {chunkSize : Int} (hsize : chunkSize ≤ 0) {view : Bytes} {pos : Nat}
    (hpos : find kCRLF view = some pos) :
    decode chunkSize view =
      match stolHex (view.take pos) with
      | .error fault => ([], .crashed fault)
      | .ok size =>
        if size = 0 then ([], .finished)
        else decode size (skipCRLF (view.drop (pos + kCRLF.length))) := by
  rw [decode, dif_neg (ne_nil_of_find hpos), if_pos hsize]
  split
  · simp_all
  · rename_i pos' hpos'
    obtain rfl : pos = pos' := by simpa [hpos] using hpos'
    rfl

/-- A size line that is no number. -/
theorem decode_of_error {chunkSize : Int} (hsize : chunkSize ≤ 0) {view : Bytes} {pos : Nat}
    (hpos : find kCRLF view = some pos) {fault : Fault} (hnum : stolHex (view.take pos) = .error fault) :
    decode chunkSize view = ([], .crashed fault) := by
  rw [decode_of_find_some hsize hpos, hnum]

/-- A size line with the value zero. -/
theorem decode_of_zero {chunkSize : Int} (hsize : chunkSize ≤ 0) {view : Bytes} {pos : Nat}
    (hpos : find kCRLF view = some pos) (hnum : stolHex (view.take pos) = .ok 0) :
    decode chunkSize view = ([], .finished) := by
  rw [decode_of_find_some hsize hpos, hnum]
  exact if_pos rfl

/-- A size line with another value opens a chunk. -/
theorem decode_of_size {chunkSize : Int} (hsize : chunkSize ≤ 0) {view : Bytes} {pos : Nat}
    (hpos : find kCRLF view = some pos) {size : Int} (hnum : stolHex (view.take pos) = .ok size)
    (hzero : size ≠ 0) :
    decode chunkSize view = decode size (skipCRLF (view.drop (pos + kCRLF.length))) := by
  rw [decode_of_find_some hsize hpos, hnum]
  exact if_neg hzero

/-- Bytes of the open chunk are delivered. -/
theorem decode_of_pos {chunkSize : Int} (hsize : 0 < chunkSize) {view : Bytes} (hview : view ≠ []) :
    decode chunkSize view =
      (view.take (min chunkSize.toNat view.length) ::
          (decode (chunkSize - (min chunkSize.toNat view.length : Nat))
            (skipCRLF (view.drop (min chunkSize.toNat view.length)))).1,
        (decode (chunkSize - (min chunkSize.toNat view.length : Nat))
            (skipCRLF (view.drop (min chunkSize.toNat view.length)))).2) := by
  rw [decode, dif_neg hview, if_neg (by omega)]

/-- An exit of a receiver that is behind its head. -/
def Exit.Behind : Exit → Prop
  | .more (.head _) => False
  | .redirected _ => False
  | _ => True

/-- An exit the decoding of a piece can have. -/
def Exit.OfDecode : Exit → Prop
  | .more (.chunked _) => True
  | .more _ => False
  | .finished => True
  | .failed code errorCode => code = .ChunkSizeError ∧ errorCode = 0
  | .redirected _ => False
  | .crashed _ => True

/-- The exits of the decoder. -/
theorem decode_exit (chunkSize : Int) (view : Bytes) : (decode chunkSize view).2.OfDecode := by
  induction chunkSize, view using decode.induct with
  | case1 chunkSize =>
    rw [decode_nil]
    trivial
  | case2 chunkSize view hview hsize hpos =>
    rw [decode_of_find_none hsize hview hpos]
    exact ⟨rfl, rfl⟩
  | case3 chunkSize view hview hsize pos hpos fault hnum =>
    rw [decode_of_error hsize hpos hnum]
    trivial
  | case4 chunkSize view hview hsize pos hpos hnum =>
    rw [decode_of_zero hsize hpos hnum]
    trivial
  | case5 chunkSize view hview hsize pos hpos size hnum hzero ih =>
    rw [decode_of_size hsize hpos hnum hzero]
    exact ih
  | case6 chunkSize view hview hsize size ih =>
    rw [decode_of_pos (by omega) hview]
    exact ih

/-- The decoder is behind the head. -/
theorem Exit.OfDecode.behind {exit : Exit} (h : exit.OfDecode) : exit.Behind := by
  cases exit with
  | more phase =>
    cases phase with
    | head buffer => exact h
    | plain contentLength recvLength => trivial
    | chunked chunkSize => trivial
  | finished => trivial
  | failed code errorCode => trivial
  | redirected url => exact h
  | crashed fault => trivial

/-- An accepted head is behind the receiver. -/
theorem ofHead_ne_head (contentLength : Int) (transferCoding buffer : Bytes) :
    Phase.ofHead contentLength transferCoding ≠ .head buffer := by
  unfold Phase.ofHead
  split
  · exact Phase.noConfusion
  · exact Phase.noConfusion

/-- The body behind a head with the chunked coding. -/
theorem ofHead_chunked {response : ResponseHeader}
    (hcoding : response.headers.lookup kTransferEncoding = some kChunked) (contentLength : Int) :
    Phase.ofHead contentLength (parseFieldValueString response.headers kTransferEncoding []) =
      .chunked (-1) := by
  rw [Phase.ofHead, parseFieldValueString, hcoding]
  rfl

/-- The body behind a head without it. -/
theorem ofHead_plain {response : ResponseHeader}
    (hcoding : response.headers.lookup kTransferEncoding ≠ some kChunked) (contentLength : Int) :
    Phase.ofHead contentLength (parseFieldValueString response.headers kTransferEncoding []) =
      .plain contentLength 0 := by
  rw [Phase.ofHead, if_neg]
  rw [parseFieldValueString]
  cases hvalue : response.headers.lookup kTransferEncoding with
  | none => decide
  | some value =>
    rw [hvalue] at hcoding
    exact fun h => hcoding (congrArg some h)

/-- Behind its head the receiver stays behind it. -/
theorem takeBody_behind {phase : Phase} (hphase : ∀ buffer, phase ≠ .head buffer) (piece : Bytes) :
    (phase.takeBody piece).2.Behind := by
  cases phase with
  | head buffer => exact absurd rfl (hphase buffer)
  | plain contentLength recvLength =>
    rw [Phase.takeBody]
    dsimp only
    split
    · trivial
    · trivial
  | chunked chunkSize => exact (decode_exit chunkSize piece).behind

/-- An exit of a receiver that is still in front of its head. -/
def Exit.InFront : Exit → Prop
  | .more (.head _) => True
  | .more _ => False
  | _ => True

/-- Bytes leave the receiver in front of its head without a word to the caller, or get it behind. -/
theorem take_head_cases (allowRedirect : Bool) (buffer piece : Bytes) :
    (∃ exit : Exit, (Phase.head buffer).take allowRedirect piece = ⟨none, [], exit⟩ ∧ exit.InFront) ∨
      ∃ (header : ResponseHeader) (data : List Bytes) (exit : Exit),
        (Phase.head buffer).take allowRedirect piece = ⟨some header, data, exit⟩ ∧ exit.Behind := by
  rw [Phase.take]
  cases parseResponseHeader (buffer ++ piece) {} with
  | error fault => exact .inl ⟨_, rfl, trivial⟩
  | ok parsed =>
    obtain ⟨isSuccess, headerSize, response⟩ := parsed
    cases isSuccess with
    | false => exact .inl ⟨_, rfl, trivial⟩
    | true =>
      dsimp only
      by_cases hredirect : (response.isNeedRedirect && allowRedirect) = true
      · rw [if_pos hredirect]
        exact .inl ⟨_, rfl, trivial⟩
      · rw [if_neg hredirect]
        cases parseFieldValueInt64 response.headers kContentLength int64Max with
        | error fault => exact .inl ⟨_, rfl, trivial⟩
        | ok contentLength =>
          exact .inr ⟨_, _, _, rfl, takeBody_behind (ofHead_ne_head _ _) _⟩

/-- The same for any reply. -/
theorem react_head_cases (allowRedirect : Bool) (buffer : Bytes) (reply : ReceiveReply) :
    (∃ exit : Exit,
        (Phase.head buffer).react allowRedirect reply = ⟨none, [], exit⟩ ∧ exit.InFront) ∨
      ∃ (header : ResponseHeader) (data : List Bytes) (exit : Exit),
        (Phase.head buffer).react allowRedirect reply = ⟨some header, data, exit⟩ ∧ exit.Behind := by
  rw [Phase.react]
  split
  · exact take_head_cases allowRedirect buffer reply.data
  · split
    · exact .inl ⟨_, rfl, trivial⟩
    · split
      · exact .inl ⟨_, rfl, trivial⟩
      · exact .inl ⟨_, rfl, trivial⟩

/-- Behind its head the receiver reacts with data only. -/
theorem react_behind {phase : Phase} (hphase : ∀ buffer, phase ≠ .head buffer)
    (allowRedirect : Bool) (reply : ReceiveReply) :
    ∃ (data : List Bytes) (exit : Exit),
      phase.react allowRedirect reply = ⟨none, data, exit⟩ ∧ exit.Behind := by
  have hmore : (Exit.more phase).Behind := by
    cases phase with
    | head buffer => exact absurd rfl (hphase buffer)
    | plain contentLength recvLength => trivial
    | chunked chunkSize => trivial
  rw [Phase.react]
  split
  · refine ⟨(phase.takeBody reply.data).1, _, ?_, takeBody_behind hphase reply.data⟩
    cases phase with
    | head buffer => exact absurd rfl (hphase buffer)
    | plain contentLength recvLength => rfl
    | chunked chunkSize => rfl
  · split
    · exact ⟨_, _, rfl, hmore⟩
    · split
      · exact ⟨_, _, rfl, trivial⟩
      · exact ⟨_, _, rfl, trivial⟩

/-! ### The receiver is `receive` -/

/-- The loop of `parseChunk` in front of what its caller does with the result: the caller is reached
with an empty view and the open chunk, with the body complete, or after an error. -/
theorem Sim.parseChunkLoop {β : Type} {R : β → Option Phase → Prop} {redirect : Bytes → Worker Unit}
    {k : ChunkResult → Worker β}
    (hmore : ∀ c, Program.Sim R (k ⟨true, [], c, false⟩) (pure (some (.chunked c))))
    (hdone : ∀ view, Program.Sim R (k ⟨true, view, 0, true⟩) (Exit.finished.perform redirect))
    (herror : ∀ view c, Program.Sim R (k ⟨false, view, c, false⟩) (pure none)) :
    ∀ (fuel : Nat) (view : Bytes) (chunkSize : Int), view.length ≤ fuel →
      Program.Sim R (parseChunkLoop fuel view chunkSize false >>= k)
        (do deliver (decode chunkSize view).1; (decode chunkSize view).2.perform redirect) := by
  intro fuel
  induction fuel with
  | zero =>
    intro view chunkSize hfuel
    obtain rfl : view = [] := List.length_eq_zero_iff.mp (by omega)
    rw [decode_nil]
    exact hmore chunkSize
  | succ fuel ih =>
    intro view chunkSize hfuel
    rw [HttpRequest.parseChunkLoop]
    by_cases hview : view = []
    · subst hview
      rw [decode_nil]
      exact hmore chunkSize
    rw [if_neg (by simpa using hview)]
    by_cases hsize : chunkSize ≤ 0
    · rw [if_pos hsize]
      cases hpos : find kCRLF view with
      | none =>
        rw [decode_of_find_none hsize hview hpos]
        simp only [deliver, Exit.perform, pure_bind, bind_assoc]
        exact Program.Sim.bind_left fun _ => herror view chunkSize
      | some pos =>
        have hfound := find_add_length_le hpos
        have hlen : kCRLF.length = 2 := rfl
        rw [decode_of_find_some hsize hpos]
        cases hnum : stolHex (view.take pos) with
        | error fault =>
          simp only [hnum, throwing_error, Program.stop_bind]
          exact Program.Sim.stop (Stop.fault fault)
        | ok size =>
          simp only [hnum, throwing_ok, pure_bind]
          by_cases hzero : size = 0
          · rw [if_pos hzero, if_pos hzero, hzero]
            exact hdone view
          · rw [if_neg hzero, if_neg hzero, substrFrom_of_le hfound]
            have hskip := length_skipCRLF_le (view.drop (pos + kCRLF.length))
            rw [List.length_drop] at hskip
            exact ih _ size (by omega)
    · rw [if_neg hsize, decode_of_pos (by omega) hview]
      have hpos := List.length_pos_iff.mpr hview
      have hskip := length_skipCRLF_le (view.drop (min chunkSize.toNat view.length))
      rw [List.length_drop] at hskip
      simp only [substrFrom_of_le (Nat.min_le_right _ _), throwing_ok, deliver, bind_assoc,
        pure_bind]
      exact Program.Sim.bind_left fun _ => ih _ _ (by omega)

/-- Which phase the local variables of `receive` stand for. -/
def Represents (st : ReceiveState) : Phase → Prop
  | .head buffer =>
    st.recvDataPtr.Readable ∧
      st = { recvDataPtr := st.recvDataPtr } ∧ st.recvDataPtr.view = buffer
  | .plain contentLength recvLength =>
    st.parseHeaderSuccess = true ∧ st.transferCoding ≠ kChunked ∧
      st.contentLength = contentLength ∧ st.recvLength = recvLength
  | .chunked chunkSize =>
    st.parseHeaderSuccess = true ∧ st.transferCoding = kChunked ∧ st.chunkSize = chunkSize ∧
      st.recvDataPtr.Readable ∧ st.recvDataPtr.view = []

/-- The bytes that were read are in view. -/
theorem view_receivedData (data : Bytes) :
    (receivedData data).view = data ∧ (receivedData data).Readable := by
  have h := @Data.view_writeAt (Data.allocate kDefaultReadSize) [] rfl data kDefaultReadSize
  simpa [receivedData] using h

/-- Only the view of what is delivered reaches the caller. -/
theorem responseData_eq (data : Data) : responseData data = responseData (Data.ofBytes data.view) := by
  rw [responseData, responseData, Data.view_ofBytes]

/-- The body part of a pass does what the machine does with the bytes of its piece. -/
theorem Sim.receiveBody {redirect : Bytes → Worker Unit} {st : ReceiveState} {phase : Phase}
    (hst : Represents st phase) (hphase : ∀ buffer, phase ≠ .head buffer) {dataPtr : Data}
    (hdata : dataPtr.Readable) :
    Program.Sim (Option.Rel Represents) (receiveBody st dataPtr false)
      (do deliver (phase.takeBody dataPtr.view).1
          (phase.takeBody dataPtr.view).2.perform redirect) := by
  cases phase with
  | head buffer => exact absurd rfl (hphase buffer)
  | plain contentLength recvLength =>
    obtain ⟨hparsed, hcoding, rfl, rfl⟩ := hst
    have hlen := Data.length_view hdata
    rw [HttpRequest.receiveBody, if_neg hcoding]
    simp only [hparsed, Bool.true_and, Bool.false_or, Phase.takeBody, hlen]
    have hend : Program.Sim (Option.Rel Represents)
        (if decide (st.contentLength ≤ st.recvLength + dataPtr.length) = true then do
            disconnected
            pure none
          else pure (some { st with
            recvLength := st.recvLength + dataPtr.length, parseHeaderSuccess := true }))
        ((if st.contentLength ≤ st.recvLength + dataPtr.length then Exit.finished
          else .more (.plain st.contentLength (st.recvLength + dataPtr.length))).perform
            redirect) := by
      by_cases hdone : st.contentLength ≤ st.recvLength + dataPtr.length
      · rw [if_pos (decide_eq_true hdone), if_pos hdone]
        exact Program.Sim.bind_left fun _ => Program.Sim.pure .none
      · rw [if_neg (by simpa using hdone), if_neg hdone]
        exact Program.Sim.pure (.some ⟨rfl, hcoding, rfl, rfl⟩)
    by_cases hempty : dataPtr.view = []
    · rw [handed, if_pos hempty, (Data.empty_iff hdata).mpr hempty]
      exact hend
    · have hne : dataPtr.empty = false := by
        rw [← Bool.not_eq_true, Data.empty_iff hdata]
        exact hempty
      rw [handed_of_ne_nil hempty, hne, Bool.not_false, if_pos rfl, responseData_eq]
      simp only [deliver, bind_assoc, pure_bind]
      exact Program.Sim.bind_left fun _ => hend
  | chunked chunkSize =>
    obtain ⟨hparsed, hcoding, rfl, hread, hview⟩ := hst
    obtain ⟨happend, hreadable⟩ := Data.view_append hread hdata
    rw [hview, List.nil_append] at happend
    rw [HttpRequest.receiveBody, if_pos hcoding]
    simp only [parseChunk, happend, bind_assoc, pure_bind, Phase.takeBody]
    refine Sim.parseChunkLoop ?_ ?_ ?_ _ _ _ le_rfl
    · intro c
      exact Program.Sim.pure (.some ⟨hparsed, hcoding, rfl, Data.readable_default, rfl⟩)
    · intro view
      exact Program.Sim.bind_left fun _ => Program.Sim.pure .none
    · intro view c
      exact Program.Sim.pure .none

/-- What `receive` sets up once it has a head. -/
theorem represents_ofHead (contentLength : Int) (transferCoding : Bytes) :
    Represents { parseHeaderSuccess := true, contentLength, transferCoding }
      (Phase.ofHead contentLength transferCoding) := by
  unfold Phase.ofHead
  split
  · next hcoding => exact ⟨rfl, hcoding, rfl, Data.readable_default, rfl⟩
  · next hcoding => exact ⟨rfl, hcoding, rfl, rfl⟩

/-- A pass of `receive` is a pass of the receiver. -/
theorem Sim.receivePass {redirect : Bytes → Worker Unit} {st : ReceiveState} {phase : Phase}
    (hst : Represents st phase) (reply : ReceiveReply) :
    Program.Sim (Option.Rel Represents) (receivePass redirect st reply)
      (receiverPass redirect phase reply) := by
  rw [HttpRequest.receivePass, receiverPass]
  refine Program.Sim.bind_left fun _ => Program.Sim.bind_left fun _ => ?_
  intro env s
  -- the receiver decides with the value of `isAllowRedirect` that it reads here
  show Run.Rel _ _ (((phase.react s.info_.isAllowRedirect reply).perform redirect).run env s)
  rw [Phase.react]
  by_cases hsuccess : reply.result.isSuccess = true
  · rw [if_pos hsuccess]
    have hcode : reply.result.resultCode = .Success := by
      simpa [SocketResult.isSuccess] using hsuccess
    simp only [hsuccess, hcode, Bool.not_true, Bool.false_eq_true, if_false]
    obtain ⟨hview, hread⟩ := view_receivedData reply.data
    cases phase with
    | head buffer =>
      obtain ⟨hreadable, hdefault, rfl⟩ := hst
      generalize st.recvDataPtr = recvDataPtr at hreadable hdefault
      subst hdefault
      obtain ⟨happend, happendRead⟩ := Data.view_append hreadable hread
      rw [hview] at happend
      simp only [Bool.not_false, if_true, happend, Phase.take]
      cases hparse : parseResponseHeader (recvDataPtr.view ++ reply.data) {} with
      | error fault => exact (Program.Sim.stop (Stop.fault fault) : Program.Sim _ _ _) env s
      | ok parsed =>
        obtain ⟨isSuccess, headerSize, response⟩ := parsed
        cases isSuccess with
        | false =>
          obtain ⟨-, rfl⟩ := find_of_parseResponseHeader_false hparse
          exact (Program.Sim.pure (.some ⟨happendRead, rfl, happend⟩) : Program.Sim _ _ _) env s
        | true =>
          simp only [throwing_ok, pure_bind, Bool.not_true, Bool.false_eq_true, if_false]
          rw [Program.run_bind, Program.run_state, Run.andThen_ok, Run.prepend_nil]
          by_cases hredirect : (response.isNeedRedirect && s.info_.isAllowRedirect) = true
          · rw [if_pos hredirect, if_pos hredirect]
            exact Program.Sim.bind_left (fun _ => Program.Sim.pure .none) env s
          · rw [if_neg hredirect, if_neg hredirect]
            cases hlength : parseFieldValueInt64 response.headers kContentLength int64Max with
            | error fault => exact (Program.Sim.stop (Stop.fault fault) : Program.Sim _ _ _) env s
            | ok contentLength =>
              obtain ⟨hcopy, hcopyRead⟩ := Data.view_copy happendRead headerSize
              rw [happend] at hcopy
              rw [← hcopy]
              simp only [throwing_ok, pure_bind, Reaction.perform, announce]
              refine Program.Sim.bind_left (fun _ => ?_) env s
              exact Sim.receiveBody (represents_ofHead _ _) (ofHead_ne_head _ _) hcopyRead
    | plain contentLength recvLength =>
      have hbody := @Sim.receiveBody redirect _ _ hst (by simp) _ hread
      rw [hview] at hbody
      simp only [hst.1, Bool.not_true, Bool.false_eq_true, if_false]
      exact hbody env s
    | chunked chunkSize =>
      have hbody := @Sim.receiveBody redirect _ _ hst (by simp) _ hread
      rw [hview] at hbody
      simp only [hst.1, Bool.not_true, Bool.false_eq_true, if_false]
      exact hbody env s
  · rw [if_neg hsuccess]
    simp only [hsuccess, Bool.not_false, if_true]
    by_cases hretry : reply.result.resultCode = .Retry
    · rw [if_pos hretry, if_pos (by simp [hretry])]
      exact (Program.Sim.pure (.some hst) : Program.Sim _ _ _) env s
    · rw [if_neg hretry, if_neg (by simpa using hretry)]
      by_cases hclosed :
          reply.result.resultCode = .Completed ∨ reply.result.resultCode = .Disconnected
      · rw [if_pos hclosed, if_pos (by simpa using hclosed)]
        exact Program.Sim.bind_left (fun _ => Program.Sim.pure .none) env s
      · rw [if_neg hclosed, if_neg (by simpa using hclosed)]
        exact Program.Sim.bind_left (fun _ => Program.Sim.pure .none) env s

/-- The loop of `receive` is the receiver. -/
theorem receiveLoop_eq_receiver (redirect : Bytes → Worker Unit) :
    ∀ (rounds : List Round) (st : ReceiveState) (phase : Phase), Represents st phase →
      receiveLoop redirect rounds st = receiver redirect rounds phase := by
  intro rounds
  induction rounds with
  | nil => intro st phase _; rfl
  | cons round rounds ih =>
    intro st phase hst
    rw [receiveLoop, receiver]
    apply Program.Sim.eq
    refine Program.Sim.bind_left fun receivable => ?_
    cases receivable with
    | false => exact Program.Sim.refl _
    | true =>
      refine Program.Sim.bind (Sim.receivePass hst round.reply) ?_
      rintro next next' hnext
      cases hnext with
      | none => exact Program.Sim.refl _
      | some hst' =>
        show Program.Sim _ (receiveLoop redirect rounds _) (receiver redirect rounds _)
        rw [ih _ _ hst']
        exact Program.Sim.refl _

/-- **`receive` is the receiver, started in front of a head.** -/
theorem receive_eq_receiver (redirect : Bytes → Worker Unit) (rounds : List Round) :
    receive redirect rounds = receiver redirect rounds (.head []) :=
  receiveLoop_eq_receiver redirect rounds {} (.head []) ⟨Data.readable_default, rfl, rfl⟩

end HttpRequest
