import HttpRequest.Messages.HeadDecoding
import HttpRequest.Messages.RequestFraming
import HttpRequest.Receiver.Chunks
import HttpRequest.Receiver.FramingNumbers

/-! # What becomes of malformed responses

A response that is malformed should end in an error callback, and in no case in an exception. `receive` makes such a
callback in one place only: where a piece of a chunked body ends inside a size line. So a response is dealt with
properly exactly when it holds a number wherever one is read, and nothing in it is malformed unless a size line is
cut on the way (`settles_iff`). -/

namespace HttpRequest

open Foundations

/-! ### Malformed responses -/

/-- `field-name ":" OWS field-value OWS`, on one line. -/
def IsFieldLine (line : Bytes) : Prop := IsLine line ∧ (readField line).isSome = true

/-- The text of a head, in front of its empty line: a status line, and fields with line breaks between them. -/
def IsHead (text : Bytes) : Prop :=
  ∃ (head : ResponseHead) (fields : List Bytes), (∀ line ∈ fields, IsFieldLine line) ∧
    text = joinLines head.statusLine fields

/-- **A malformed response**: the text in front of the empty line is no head, a `Content-Length` in it, in any letter
case, is no number, or a text that is read as a size line is none. -/
inductive Malformed (allowRedirect : Bool) (pieces : List Bytes) : Prop
  | head {pos : Nat} : find kHeaderEnd pieces.flatten = some pos → ¬IsHead (pieces.flatten.take pos) →
    Malformed allowRedirect pieces
  | contentLength {pos : Nat} {status line name value : Bytes} {lines : List Bytes} :
    find kHeaderEnd pieces.flatten = some pos → pieces.flatten.take pos = joinLines status lines →
    line ∈ lines → readField line = some (name, value) → isContentLength name = true →
    ¬NumberKind.contentLength.WellFormed value → Malformed allowRedirect pieces
  | chunkSize {text : Bytes} {slices : List Bytes} : ReadAs allowRedirect pieces .chunkSize text slices →
    ¬NumberKind.chunkSize.WellFormed text → Malformed allowRedirect pieces

/-- A run that returns behind an error callback. -/
def EndsInError (r : Run State Event Stop Unit) : Prop :=
  r.outcome = .ok () ∧ ∃ front code errorCode,
    callbacks r.events = front ++ [.onError code errorCode, .onDisconnected]

/-- **What `receive` owes its callers**: no run over the pieces is left by a fault, and if the response is malformed,
every undisturbed run in which the pieces arrive, and then the peer closes, ends in an error callback. -/
structure Settles (allowRedirect : Bool) (pieces : List Bytes) : Prop where
  neverFaults : NeverFaults allowRedirect pieces
  refuses : Malformed allowRedirect pieces →
    ∀ (redirect : Bytes → Worker Unit) (env : Env) (s : State) (rounds : List Round) (last : Round),
      s.Undisturbed → s.socket_.isSome = true → s.info_.isAllowRedirect = allowRedirect →
      received rounds = pieces → (∀ round ∈ rounds, round.Flows s.timeLeft) →
      await s.timeLeft last.waits = .ready →
      (last.reply.result.resultCode = .Completed ∨ last.reply.result.resultCode = .Disconnected) →
      EndsInError ((receive redirect (rounds ++ [last])).run env s)

/-! ### Size lines that are cut -/

/-- In the pieces of a chunked body, of whose open chunk so many bytes are to come, one ends inside a size line. -/
inductive CutLine : Int → List Bytes → Prop
  /-- Without an open chunk, the rest of the piece holds no line break. -/
  | here {chunkSize : Int} {view : Bytes} {pieces : List Bytes} :
    chunkSize ≤ 0 → view ≠ [] → find kCRLF view = none → CutLine chunkSize (view :: pieces)
  /-- The size opens a chunk. A line break that starts it is not counted. -/
  | behindSize {chunkSize size : Int} {view : Bytes} {pieces : List Bytes} {pos : Nat} :
    chunkSize ≤ 0 → find kCRLF view = some pos → stolHex (view.take pos) = .ok size → size ≠ 0 →
    CutLine size (skipCRLF (view.drop (pos + kCRLF.length)) :: pieces) → CutLine chunkSize (view :: pieces)
  /-- The piece has bytes of the open chunk. A line break behind them is not counted. -/
  | behindData {chunkSize : Int} {view : Bytes} {pieces : List Bytes} :
    0 < chunkSize → view ≠ [] →
    CutLine (chunkSize - (min chunkSize.toNat view.length : Nat))
      (skipCRLF (view.drop (min chunkSize.toNat view.length)) :: pieces) →
    CutLine chunkSize (view :: pieces)
  /-- The piece is used up. -/
  | next {chunkSize : Int} {pieces : List Bytes} : CutLine chunkSize pieces → CutLine chunkSize ([] :: pieces)

/-- **A piece of a chunked body ends inside a size line.** The head is no redirect that is followed, and its
`Content-Length`, if it has one, is taken. -/
def CutsSizeLine (allowRedirect : Bool) (pieces : List Bytes) : Prop :=
  ∃ line lines body, Opens allowRedirect pieces line lines body ∧
    (∀ text, lastField kContentLength (line :: lines) = some text → ∃ n, stoll text = .ok n) ∧
    lastField kTransferEncoding (line :: lines) = some kChunked ∧ CutLine (-1) body

section

variable {chunkSize : Int} {view : Bytes} {pieces : List Bytes}

/-- No piece ends inside a size line where there is none. -/
theorem not_cutLine_nil : ¬CutLine chunkSize [] := nofun

/-- A piece that is used up cuts nothing. -/
@[simp] theorem cutLine_nil_cons : CutLine chunkSize ([] :: pieces) ↔ CutLine chunkSize pieces := by
  constructor
  · intro h
    cases h with
    | here hsize hview => exact absurd rfl hview
    | behindSize hsize hpos => exact absurd rfl (ne_nil_of_find hpos)
    | behindData hsize hview => exact absurd rfl hview
    | next h => exact h
  · exact .next

/-- Without an open chunk, a cut behind the first line is one behind the size that it opens a chunk with. -/
theorem cutLine_of_find_some (hsize : chunkSize ≤ 0) {pos : Nat} (hpos : find kCRLF view = some pos) :
    CutLine chunkSize (view :: pieces) ↔ ∃ size, stolHex (view.take pos) = .ok size ∧ size ≠ 0 ∧
      CutLine size (skipCRLF (view.drop (pos + kCRLF.length)) :: pieces) := by
  constructor
  · intro h
    cases h with
    | here hsize' hview hnone =>
      rw [hpos] at hnone
      cases hnone
    | behindSize hsize' hpos' hnum hzero h =>
      rw [hpos] at hpos'
      cases hpos'
      exact ⟨_, hnum, hzero, h⟩
    | behindData hsize' => omega
    | next h => exact absurd rfl (ne_nil_of_find hpos)
  · rintro ⟨size, hnum, hzero, h⟩
    exact .behindSize hsize hpos hnum hzero h

/-- The bytes of an open chunk are not cut. -/
theorem cutLine_of_pos (hsize : 0 < chunkSize) (hview : view ≠ []) :
    CutLine chunkSize (view :: pieces) ↔
      CutLine (chunkSize - (min chunkSize.toNat view.length : Nat))
        (skipCRLF (view.drop (min chunkSize.toNat view.length)) :: pieces) := by
  constructor
  · intro h
    cases h with
    | here hsize' => omega
    | behindSize hsize' hpos => omega
    | behindData hsize' hview' h => exact h
    | next h => exact absurd rfl hview
  · exact .behindData hsize hview

end

/-! ### Where an error is reported -/

/-- An exit with an error callback. -/
def Exit.Failed (exit : Exit) : Prop := ∃ code errorCode, exit = .failed code errorCode

/-- Any other exit makes none. -/
theorem Exit.not_failed {exit : Exit} (h : ∀ code errorCode, exit ≠ .failed code errorCode) : ¬exit.Failed := by
  rintro ⟨code, errorCode, heq⟩
  exact h code errorCode heq

/-- **Decoding pieces fails exactly when one of them ends inside a size line.** -/
theorem failed_decodeAll_iff (chunkSize : Int) (pieces : List Bytes) :
    (decodeAll chunkSize pieces).2.Failed ↔ CutLine chunkSize pieces := by
  induction pieces generalizing chunkSize with
  | nil =>
    exact iff_of_false (Exit.not_failed fun _ _ => Exit.noConfusion) not_cutLine_nil
  | cons view pieces ih =>
    -- one case for each branch of the decoder
    induction chunkSize, view using decode.induct with
    | case1 chunkSize => rw [decodeAll_nil_cons, cutLine_nil_cons, ih]
    | case2 chunkSize view hview hsize hpos =>
      rw [decodeAll_of_eq (decode_of_find_none hsize hview hpos) fun _ => Exit.noConfusion]
      exact iff_of_true ⟨_, _, rfl⟩ (.here hsize hview hpos)
    | case3 chunkSize view hview hsize pos hpos fault hnum =>
      rw [decodeAll_of_eq (decode_of_error hsize hpos hnum) fun _ => Exit.noConfusion,
        cutLine_of_find_some hsize hpos]
      refine iff_of_false (Exit.not_failed fun _ _ => Exit.noConfusion) ?_
      rintro ⟨size, hsize', -⟩
      rw [hnum] at hsize'
      cases hsize'
    | case4 chunkSize view hview hsize pos hpos hnum =>
      rw [decodeAll_of_eq (decode_of_zero hsize hpos hnum) fun _ => Exit.noConfusion,
        cutLine_of_find_some hsize hpos]
      refine iff_of_false (Exit.not_failed fun _ _ => Exit.noConfusion) ?_
      rintro ⟨size, hsize', hzero, -⟩
      rw [hnum] at hsize'
      exact hzero (Except.ok.inj hsize').symm
    | case5 chunkSize view hview hsize pos hpos size hnum hzero ihView =>
      rw [decodeAll_of_decode [] (decode_of_size hsize hpos hnum hzero), cutLine_of_find_some hsize hpos]
      refine ihView.trans ⟨fun h => ⟨size, hnum, hzero, h⟩, ?_⟩
      rintro ⟨size', hnum', -, h⟩
      obtain rfl := Except.ok.inj (hnum.symm.trans hnum')
      exact h
    | case6 chunkSize view hview hsize size ihView =>
      rw [decodeAll_of_decode [_] (decode_of_pos (by omega) hview), cutLine_of_pos (by omega) hview]
      exact ihView

/-- Behind a head that was parsed. -/
theorem failed_afterHead_iff (allowRedirect : Bool) {response : ResponseHeader} {line : Bytes}
    {lines : List Bytes} (body : List Bytes) (hcode : response.httpStatusCode = statusOf line)
    (hlookup : ∀ key, key ≠ kVersion → response.headers.lookup key = lastField key (line :: lines)) :
    (afterHead allowRedirect response body).2.Failed ↔
      ¬(allowRedirect = true ∧ (statusOf line = HttpStatusCode.MovedPermanently ∨
        statusOf line = HttpStatusCode.Found)) ∧
      (∀ text, lastField kContentLength (line :: lines) = some text → ∃ n, stoll text = .ok n) ∧
      lastField kTransferEncoding (line :: lines) = some kChunked ∧ CutLine (-1) body := by
  rw [← followed_iff allowRedirect hcode, ← hlookup kContentLength (by decide),
    ← hlookup kTransferEncoding (by decide), afterHead]
  by_cases h : (response.isNeedRedirect && allowRedirect) = true
  · rw [if_pos h]
    exact iff_of_false (Exit.not_failed fun _ _ => Exit.noConfusion) fun hall => hall.1 h
  rw [if_neg h, and_iff_right h]
  have hlength := parseFieldValueInt64_error_iff response.headers kContentLength int64Max
  cases hnum : parseFieldValueInt64 response.headers kContentLength int64Max with
  | error fault =>
    rw [hnum] at hlength
    exact iff_of_false (Exit.not_failed fun _ _ => Exit.noConfusion) fun hall => hlength.mp ⟨fault, rfl⟩ hall.1
  | ok contentLength =>
    rw [hnum] at hlength
    have hnumber := not_not.mp fun hnot => absurd (hlength.mpr hnot) (by simp)
    dsimp only
    rw [and_iff_right hnumber]
    by_cases hcoding : response.headers.lookup kTransferEncoding = some kChunked
    · rw [ofHead_chunked hcoding, takeAll_chunked, failed_decodeAll_iff, and_iff_right hcoding]
    · rw [ofHead_plain hcoding]
      refine iff_of_false (Exit.not_failed fun code errorCode hfailed => ?_) fun hall => hcoding hall.1
      rcases exit_plain allowRedirect contentLength 0 body with h | ⟨_, h⟩
      · cases hfailed.symm.trans h
      · cases hfailed.symm.trans h

/-- **The machine fails exactly when a size line is cut.** -/
theorem failed_iff_cutsSizeLine (allowRedirect : Bool) (pieces : List Bytes) :
    ((Phase.head []).takeAll allowRedirect pieces).2.Failed ↔ CutsSizeLine allowRedirect pieces := by
  rw [takeAll_head allowRedirect (by decide), List.nil_append, CutsSizeLine]
  cases hpos : find kHeaderEnd pieces.flatten with
  | none =>
    refine iff_of_false (Exit.not_failed fun _ _ => Exit.noConfusion) ?_
    rintro ⟨line, lines, body, ⟨-, -, pos, hfound, -⟩, -⟩
    rw [hpos] at hfound
    cases hfound
  | some pos =>
    simp only [List.length_nil, Nat.sub_zero]
    rw [behindHead]
    -- the lines of the head are those that `Opens` speaks of
    have hopens {line : Bytes} {lines body : List Bytes} (h : Opens allowRedirect pieces line lines body) :
        StatusReads line ∧ StringUtil.split (pieces.flatten.take pos) kCRLF = line :: lines ∧
          body = dropFront (pos + kHeaderEnd.length) pieces := by
      obtain ⟨hreads, -, pos', hpos', hsplit, hbody⟩ := h
      obtain rfl := Option.some.inj (hpos.symm.trans hpos')
      exact ⟨hreads, hsplit, hbody⟩
    rcases parseHeaderView_cases (pieces.flatten.take pos) with
      ⟨⟨fault, hfault⟩, hnone⟩ | ⟨response, line, lines, hok, hsplit, hreads, hcode, hlookup⟩
    · rw [hfault]
      refine iff_of_false (Exit.not_failed fun _ _ => Exit.noConfusion) ?_
      rintro ⟨line, lines, body, h, -⟩
      obtain ⟨hreads, hsplit, -⟩ := hopens h
      exact hnone line lines hsplit hreads
    · rw [hok]
      refine (failed_afterHead_iff allowRedirect _ hcode hlookup).trans ⟨fun h => ?_, ?_⟩
      · exact ⟨line, lines, _, ⟨hreads, h.1, pos, hpos, hsplit, rfl⟩, h.2⟩
      · rintro ⟨line', lines', body, h, hrest⟩
        obtain ⟨-, hsplit', rfl⟩ := hopens h
        obtain ⟨rfl, rfl⟩ := List.cons.inj (hsplit.symm.trans hsplit')
        exact ⟨h.2.1, hrest⟩

/-- The machine itself makes no error callback: its exit does. -/
theorem onError_not_mem_takeAll (allowRedirect : Bool) (phase : Phase) (pieces : List Bytes) (code : ResultCode)
    (errorCode : Int) : Callback.onError code errorCode ∉ (phase.takeAll allowRedirect pieces).1 := by
  have hreaction (reaction : Reaction) : Callback.onError code errorCode ∉ reaction.callbacks := by
    simp [Reaction.callbacks]
  induction pieces generalizing phase with
  | nil => exact List.not_mem_nil
  | cons piece pieces ih =>
    cases hexit : (phase.take allowRedirect piece).exit with
    | more phase' =>
      rw [takeAll_of_more hexit]
      exact fun h => (List.mem_append.mp h).elim (hreaction _) (ih phase')
    | finished | failed | redirected | crashed =>
      rw [takeAll_of_end (by rw [hexit]; exact fun _ => Exit.noConfusion)]
      exact hreaction _

/-! ### Runs until the peer closes -/

section

variable {allowRedirect : Bool} {pieces : List Bytes}

/-- Where the machine fails, the run ends in the error. -/
theorem endsInError_of_failed (h : ((Phase.head []).takeAll allowRedirect pieces).2.Failed)
    (redirect : Bytes → Worker Unit) (env : Env) {s : State} (hs : s.Undisturbed) (hsocket : s.socket_.isSome = true)
    (hallow : s.info_.isAllowRedirect = allowRedirect) {rounds : List Round} (hpieces : received rounds = pieces)
    (hflows : ∀ round ∈ rounds, round.Flows s.timeLeft) (last : Round) :
    EndsInError ((receive redirect (rounds ++ [last])).run env s) := by
  obtain ⟨code, errorCode, hfailed⟩ := h
  obtain ⟨n, hn⟩ := transcript_of_flows_append allowRedirect hflows (.head []) [last]
  rw [hpieces, hfailed, ← hallow] at hn
  obtain ⟨houtcome, hcallbacks, -⟩ := run_receive_of_transcript hs hsocket env redirect hn
  exact ⟨houtcome, _, code, errorCode, hcallbacks⟩

/-- Where it does not, the run in which every wait is over at once ends without one, or does not return. -/
theorem not_endsInError_of_not_failed (h : ¬((Phase.head []).takeAll allowRedirect pieces).2.Failed) :
    ¬EndsInError ((receive handOver (pieces.map Round.piece ++ [.closed])).run .plain
      (.connected { url := [], isAllowRedirect := allowRedirect })) := by
  rintro ⟨houtcome, front, code, errorCode, hcallbacks⟩
  have hflows : ∀ round ∈ pieces.map Round.piece, round.Flows
      (State.connected { url := [], isAllowRedirect := allowRedirect }).timeLeft := by
    intro round hround
    obtain ⟨piece, -, rfl⟩ := List.mem_map.mp hround
    exact flows_piece _ piece
  obtain ⟨n, hn⟩ := transcript_of_flows_append allowRedirect hflows (.head []) [.closed]
  have hof : Transcript.of ((receive handOver (pieces.map Round.piece ++ [.closed])).run .plain
      (.connected { url := [], isAllowRedirect := allowRedirect })) =
        transcript (State.connected { url := [], isAllowRedirect := allowRedirect }).timeLeft allowRedirect
          (pieces.map Round.piece ++ [.closed]) (.head []) :=
    transcript_receive .plain _ (undisturbed_connected _) rfl
  rw [hn, received_pieces] at hof
  have hshown := congrArg Transcript.callbacks hof
  have hended := congrArg Transcript.outcome hof
  dsimp only [Transcript.of] at hshown hended
  rw [hcallbacks] at hshown
  rw [houtcome] at hended
  -- without an error the end of the connection stands behind what the machine has made
  have hnone (heq : front ++ [Callback.onError code errorCode, .onDisconnected] =
      ((Phase.head []).takeAll allowRedirect pieces).1 ++ [.onDisconnected]) : False := by
    rw [List.append_cons, List.append_left_inj] at heq
    exact onError_not_mem_takeAll allowRedirect (.head []) pieces code errorCode
      (heq ▸ List.mem_append_right _ List.mem_cons_self)
  cases hexit : ((Phase.head []).takeAll allowRedirect pieces).2 with
  | more phase =>
    rw [hexit, Exit.transcript, transcript_closed rfl (.inr rfl)] at hshown
    exact hnone hshown
  | finished =>
    rw [hexit] at hshown
    exact hnone hshown
  | failed code' errorCode' => exact h ⟨code', errorCode', hexit⟩
  | redirected url =>
    rw [hexit] at hended
    cases hended
  | crashed fault =>
    rw [hexit] at hended
    cases hended

/-- A malformed response with which the machine does not fail. -/
theorem not_settles_of_malformed (hmalformed : Malformed allowRedirect pieces)
    (h : ¬((Phase.head []).takeAll allowRedirect pieces).2.Failed) : ¬Settles allowRedirect pieces := by
  intro hsettles
  refine not_endsInError_of_not_failed h (hsettles.refuses hmalformed handOver .plain _ _ _
    (undisturbed_connected { url := [], isAllowRedirect := allowRedirect }) rfl rfl (received_pieces pieces) ?_
    rfl (.inr rfl))
  intro round hround
  obtain ⟨piece, -, rfl⟩ := List.mem_map.mp hround
  exact flows_piece _ piece

end

/-! ### Responses that are not met properly -/

/-- A response whose first line is no status line. -/
theorem malformed_garbage : Malformed true [bytes "garbage\r\n\r\n"] := by
  have hpos : find kHeaderEnd [bytes "garbage\r\n\r\n"].flatten = some 7 := by decide
  refine .head hpos ?_
  rintro ⟨head, fields, -, htext⟩
  -- a status line starts with the flag
  have hflag : kHTTPFlag <+: joinLines head.statusLine fields := by
    have hline : kHTTPFlag <+: head.statusLine := find_eq_zero_iff.mp head.find_kHTTPFlag
    cases fields with
    | nil => exact hline
    | cons field fields => exact hline.trans ⟨_, (List.append_assoc _ _ _).symm⟩
  rw [← htext] at hflag
  revert hflag
  decide

/-- A length with a letter behind its digit is no number. -/
theorem not_wellFormed_5x : ¬NumberKind.contentLength.WellFormed (bytes "5x") := by
  rintro ⟨digits, tail, htext, -, hdigits, -, rfl⟩
  rw [List.append_nil] at htext
  have hletter := hdigits 120 (by rw [← htext]; decide)
  revert hletter
  decide

/-- A head with such a length. -/
def letterHead : Bytes := bytes "HTTP/1.1 200 OK\r\nContent-Length: 5x\r\n\r\n"

/-- A response with such a length is malformed. -/
theorem malformed_length : Malformed true [letterHead ++ bytes "hello"] := by
  have hpos : find kHeaderEnd [letterHead ++ bytes "hello"].flatten = some 35 := by decide +kernel
  have hlines : [letterHead ++ bytes "hello"].flatten.take 35 =
      joinLines (bytes "HTTP/1.1 200 OK") [bytes "Content-Length: 5x"] := by decide +kernel
  have hread : readField (bytes "Content-Length: 5x") = some (kContentLength, bytes "5x") := by decide +kernel
  exact .contentLength hpos hlines List.mem_cons_self hread (by decide) not_wellFormed_5x

/-- The body of a chunked response whose first size has letters behind it. -/
def oopsBody : Bytes := bytes "0oops\r\n\r\n"

/-- A response with such a size line is malformed. -/
theorem malformed_size : Malformed true [chunkedHead ++ oopsBody] := by
  have hopens : Opens true [chunkedHead ++ oopsBody] (bytes "HTTP/1.1 200 OK") [bytes "Transfer-Encoding: chunked"]
      [oopsBody] :=
    ⟨statusReads_ok, by decide, 43, by decide +kernel, by decide +kernel, by decide +kernel⟩
  have hlength : lastField kContentLength [bytes "HTTP/1.1 200 OK", bytes "Transfer-Encoding: chunked"] = none := by
    decide +kernel
  have hline : find kCRLF oopsBody = some 5 := by decide
  have hread : ReadAs true [chunkedHead ++ oopsBody] .chunkSize (bytes "0oops") [] := by
    refine .chunkSize hopens (fun text htext => ?_) (by decide +kernel) (.here (by decide) hline)
    rw [hlength] at htext
    cases htext
  refine .chunkSize hread ?_
  rintro ⟨digits, tail, htext, -, hdigits, -, htail⟩
  -- no extension is there, so the letters would have to be digits
  rcases htail with rfl | ⟨blanks, parameters, -, rfl⟩
  · rw [List.append_nil] at htext
    have hletter := hdigits 111 (by rw [← htext]; decide)
    revert hletter
    decide
  · have hsemicolon : (59 : UInt8) ∈ bytes "0oops" := by
      rw [htext]
      simp
    revert hsemicolon
    decide

/-- A head without a line, a status line that is too short, a length that is no number, and a chunked body
cut between a payload and its line break: each run is left by a fault, and none makes an error
callback. -/
theorem receive_faults :
    Transcript.of ((receive handOver [.piece (bytes "\r\n\r\n")]).run .plain
        (.connected { url := [] })) = ⟨.error (.fault .indexOutOfBounds), [], 1⟩ ∧
      Transcript.of ((receive handOver [.piece (bytes "HTTP/1.1\r\n\r\n")]).run .plain
        (.connected { url := [] })) = ⟨.error (.fault .outOfRange), [], 1⟩ ∧
      Transcript.of ((receive handOver [.piece
        (bytes "HTTP/1.1 200 OK\r\nContent-Length: x\r\n\r\n")]).run .plain
        (.connected { url := [] })) = ⟨.error (.fault .invalidArgument), [], 1⟩ ∧
      Transcript.of ((receive handOver [.piece (chunkedHead ++ bytes "2\r\nab"),
        .piece (bytes "\r\n0\r\n\r\n")]).run .plain (.connected { url := [] })) =
          ⟨.error (.fault .invalidArgument),
            [.onParseHeaderDone (headerOf chunkedHead), .onData (bytes "ab")], 2⟩ := by
  refine ⟨?_, ?_, ?_, ?_⟩
  · exact (transcript_receive _ _ (undisturbed_connected _) rfl).trans (by rfl)
  · exact (transcript_receive _ _ (undisturbed_connected _) rfl).trans (by rfl)
  · exact (transcript_receive _ _ (undisturbed_connected _) rfl).trans (by rfl)
  · exact (transcript_receive _ _ (undisturbed_connected _) rfl).trans (transcript_cut_chunk _)

end HttpRequest
