import HttpRequest.Foundations.Segments
import HttpRequest.Receiver.Transcript

/-! # The receiver over the pieces of a stream

Waits and retries apart, a run of the receiver depends on the pieces it is handed. `Phase.takeAll` is
what the machine makes of them, one after the other; a script in which every read hands over a piece or
asks to retry shows nothing else (`transcript_of_flows`). In front of a head only the stream counts, and
behind it only the cuts of the body (`takeAll_head`). -/

namespace HttpRequest

open Foundations

/-- The reactions to pieces, up to the first that ends the run: the callbacks they make and how they
end. -/
def Phase.takeAll (allowRedirect : Bool) : Phase → List Bytes → List Callback × Exit
  | phase, [] => ([], .more phase)
  | phase, piece :: pieces =>
    let reaction := phase.take allowRedirect piece
    match reaction.exit with
    | .more phase' =>
      (reaction.callbacks ++ (phase'.takeAll allowRedirect pieces).1,
        (phase'.takeAll allowRedirect pieces).2)
    | exit => (reaction.callbacks, exit)

variable {allowRedirect : Bool} {phase phase' : Phase} {piece : Bytes} {pieces : List Bytes}

/-- Without pieces the receiver stays as it is. -/
@[simp] theorem takeAll_nil : phase.takeAll allowRedirect [] = ([], .more phase) := rfl

/-- A piece that leaves the receiver going is followed by the next. -/
theorem takeAll_of_more (h : (phase.take allowRedirect piece).exit = .more phase')
    (pieces : List Bytes) :
    phase.takeAll allowRedirect (piece :: pieces) =
      ((phase.take allowRedirect piece).callbacks ++ (phase'.takeAll allowRedirect pieces).1,
        (phase'.takeAll allowRedirect pieces).2) := by
  rw [Phase.takeAll]
  simp only [h]

/-- A piece that ends the run is the last. -/
theorem takeAll_of_end (h : ∀ phase', (phase.take allowRedirect piece).exit ≠ .more phase')
    (pieces : List Bytes) :
    phase.takeAll allowRedirect (piece :: pieces) =
      ((phase.take allowRedirect piece).callbacks, (phase.take allowRedirect piece).exit) := by
  rw [Phase.takeAll]
  split
  · next hmore => exact absurd hmore (h _)
  · rfl

/-! ### Scripts that hand over pieces -/

/-- The pieces a script hands over. -/
def received (rounds : List Round) : List Bytes :=
  rounds.filterMap fun round => if round.reply.result.isSuccess then some round.reply.data else none

/-- A pass in which the waits succeed in time, and the read hands over a piece or asks to retry. -/
structure Round.Flows (timeLeft : UInt64 → Bool) (round : Round) : Prop where
  ready : await timeLeft round.waits = .ready
  reply : round.reply.result.isSuccess = true ∨ round.reply.result.resultCode = .Retry

section

variable {timeLeft : UInt64 → Bool} {round : Round} {rounds rounds' : List Round}

/-- A read that succeeds hands over its piece. -/
theorem received_cons_success (h : round.reply.result.isSuccess = true) :
    received (round :: rounds) = round.reply.data :: received rounds :=
  List.filterMap_cons_some (by rw [h]; rfl)

/-- A read that does not hands over nothing. -/
theorem received_cons_retry (h : round.reply.result.isSuccess = false) :
    received (round :: rounds) = received rounds :=
  List.filterMap_cons_none (by rw [h]; rfl)

/-- What the concatenation of two scripts hands over. -/
theorem received_append : received (rounds ++ rounds') = received rounds ++ received rounds' :=
  List.filterMap_append

/-- A script of pieces hands over the pieces. -/
theorem received_pieces (pieces : List Bytes) : received (pieces.map Round.piece) = pieces := by
  induction pieces with
  | nil => rfl
  | cons piece pieces ih =>
    rw [List.map_cons, received_cons_success (by rfl), ih]
    rfl

/-- A script of pieces flows. -/
theorem flows_piece (timeLeft : UInt64 → Bool) (piece : Bytes) :
    (Round.piece piece).Flows timeLeft := ⟨rfl, .inl rfl⟩

/-- A pass that asks to retry changes nothing. -/
theorem transcript_retry (hflows : round.Flows timeLeft)
    (hretry : round.reply.result.isSuccess = false) (allowRedirect : Bool) (phase : Phase) :
    transcript timeLeft allowRedirect (round :: rounds) phase =
      (transcript timeLeft allowRedirect rounds phase).prepend [] 1 := by
  have hcode : round.reply.result.resultCode = .Retry := by
    rcases hflows.reply with h | h
    · rw [hretry] at h
      cases h
    · exact h
  rw [transcript, hflows.ready]
  dsimp only
  rw [Phase.react, if_neg (by rw [hretry]; exact Bool.false_ne_true), if_pos hcode]
  rfl

/-- A pass that hands over a piece. -/
theorem transcript_success (hflows : round.Flows timeLeft)
    (hsuccess : round.reply.result.isSuccess = true) (allowRedirect : Bool) (phase : Phase) :
    transcript timeLeft allowRedirect (round :: rounds) phase =
      ((phase.take allowRedirect round.reply.data).exit.transcript
        (transcript timeLeft allowRedirect rounds)).prepend
          (phase.take allowRedirect round.reply.data).callbacks 1 := by
  rw [transcript, hflows.ready]
  dsimp only
  rw [Phase.react, if_pos hsuccess]

/-- Prepending twice is prepending the concatenation. -/
theorem Transcript.prepend_prepend (cs cs' : List Callback) (n n' : Nat) (t : Transcript) :
    (t.prepend cs' n').prepend cs n = t.prepend (cs ++ cs') (n + n') := by
  simp only [Transcript.prepend, List.append_assoc, Nat.add_assoc]

/-- The transcript of the pieces a script hands over, behind which it ends. -/
def Exit.last (exit : Exit) : Transcript := exit.transcript fun _ => ⟨.error .pending, [], 0⟩

/-- **A script that hands over pieces shows what the machine makes of them**, and behind them the script goes on
unless they have ended the run. -/
theorem transcript_of_flows_append (allowRedirect : Bool) (h : ∀ round ∈ rounds, round.Flows timeLeft)
    (phase : Phase) (tail : List Round) :
    ∃ n, transcript timeLeft allowRedirect (rounds ++ tail) phase =
      ((phase.takeAll allowRedirect (received rounds)).2.transcript
        (transcript timeLeft allowRedirect tail)).prepend
          (phase.takeAll allowRedirect (received rounds)).1 n := by
  induction rounds generalizing phase with
  | nil =>
    refine ⟨0, ?_⟩
    show transcript timeLeft allowRedirect tail phase =
      (transcript timeLeft allowRedirect tail phase).prepend [] 0
    rw [Transcript.prepend, List.nil_append, Nat.zero_add]
  | cons round rounds ih =>
    have hround := h round (List.mem_cons_self ..)
    have hrest : ∀ r ∈ rounds, r.Flows timeLeft := fun r hr => h r (List.mem_cons_of_mem _ hr)
    rw [List.cons_append]
    cases hsuccess : round.reply.result.isSuccess with
    | false =>
      obtain ⟨n, hn⟩ := ih hrest phase
      refine ⟨1 + n, ?_⟩
      rw [transcript_retry hround hsuccess, received_cons_retry hsuccess, hn,
        Transcript.prepend_prepend, List.nil_append]
    | true =>
      rw [transcript_success hround hsuccess, received_cons_success hsuccess]
      cases hexit : (phase.take allowRedirect round.reply.data).exit with
      | more phase' =>
        obtain ⟨n, hn⟩ := ih hrest phase'
        refine ⟨1 + n, ?_⟩
        rw [takeAll_of_more hexit, Exit.transcript, hn, Transcript.prepend_prepend]
      -- every other exit ends the run
      | finished | failed | redirected | crashed =>
        refine ⟨1, ?_⟩
        rw [takeAll_of_end (by rw [hexit]; exact fun _ => Exit.noConfusion), hexit]
        rfl

/-- A script that only hands over pieces shows what the machine makes of them. -/
theorem transcript_of_flows (allowRedirect : Bool) (h : ∀ round ∈ rounds, round.Flows timeLeft)
    (phase : Phase) :
    ∃ n, transcript timeLeft allowRedirect rounds phase =
      (phase.takeAll allowRedirect (received rounds)).2.last.prepend
        (phase.takeAll allowRedirect (received rounds)).1 n := by
  obtain ⟨n, hn⟩ := transcript_of_flows_append allowRedirect h phase []
  rw [List.append_nil] at hn
  exact ⟨n, hn⟩

end

/-! ### Through the head -/

/-- What the receiver makes of a parsed head and the pieces behind it. -/
def afterHead (allowRedirect : Bool) (response : ResponseHeader) (pieces : List Bytes) :
    List Callback × Exit :=
  if response.isNeedRedirect && allowRedirect then
    ([], .redirected ((response.headers.lookup kLocation).getD []))
  else
    match parseFieldValueInt64 response.headers kContentLength int64Max with
    | .error fault => ([], .crashed fault)
    | .ok contentLength =>
      let body := (Phase.ofHead contentLength
        (parseFieldValueString response.headers kTransferEncoding [])).takeAll allowRedirect pieces
      (.onParseHeaderDone response :: body.1, body.2)

/-- What the receiver makes of the text of a head and the pieces behind it. -/
def behindHead (allowRedirect : Bool) (text : Bytes) (pieces : List Bytes) : List Callback × Exit :=
  match parseHeaderView text {} with
  | .error fault => ([], .crashed fault)
  | .ok response => afterHead allowRedirect response pieces

/-- Behind the head a piece is body. -/
theorem take_of_ne_head (h : ∀ buffer, phase ≠ .head buffer) (allowRedirect : Bool) (piece : Bytes) :
    phase.take allowRedirect piece = ⟨none, (phase.takeBody piece).1, (phase.takeBody piece).2⟩ := by
  cases phase with
  | head buffer => exact absurd rfl (h buffer)
  | plain contentLength recvLength => rfl
  | chunked chunkSize => rfl

/-- The piece in which the head ends. -/
theorem takeAll_head_of_find {buffer : Bytes} {pos : Nat}
    (hpos : find kHeaderEnd (buffer ++ piece) = some pos) (allowRedirect : Bool)
    (pieces : List Bytes) :
    (Phase.head buffer).takeAll allowRedirect (piece :: pieces) =
      behindHead allowRedirect ((buffer ++ piece).take pos)
        ((buffer ++ piece).drop (pos + kHeaderEnd.length) :: pieces) := by
  have hparse := parseResponseHeader_of_find hpos {}
  rw [behindHead]
  cases hview : parseHeaderView ((buffer ++ piece).take pos) {} with
  | error fault =>
    rw [hview] at hparse
    have htake : (Phase.head buffer).take allowRedirect piece = ⟨none, [], .crashed fault⟩ := by
      rw [Phase.take, hparse]
      rfl
    rw [takeAll_of_end (by rw [htake]; exact fun _ => Exit.noConfusion), htake]
    rfl
  | ok response =>
    rw [hview] at hparse
    dsimp only
    rw [afterHead]
    by_cases hredirect : (response.isNeedRedirect && allowRedirect) = true
    · have htake : (Phase.head buffer).take allowRedirect piece =
          ⟨none, [], .redirected ((response.headers.lookup kLocation).getD [])⟩ := by
        rw [Phase.take, hparse]
        exact if_pos hredirect
      rw [takeAll_of_end (by rw [htake]; exact fun _ => Exit.noConfusion), htake, if_pos hredirect]
      rfl
    · rw [if_neg hredirect]
      cases hlength : parseFieldValueInt64 response.headers kContentLength int64Max with
      | error fault =>
        have htake : (Phase.head buffer).take allowRedirect piece = ⟨none, [], .crashed fault⟩ := by
          rw [Phase.take, hparse]
          dsimp only [Except.map]
          rw [if_neg hredirect, hlength]
        rw [takeAll_of_end (by rw [htake]; exact fun _ => Exit.noConfusion), htake]
        rfl
      | ok contentLength =>
        have hne := ofHead_ne_head contentLength
          (parseFieldValueString response.headers kTransferEncoding [])
        generalize hphase : Phase.ofHead contentLength
          (parseFieldValueString response.headers kTransferEncoding []) = phase at hne
        have htake : (Phase.head buffer).take allowRedirect piece =
            ⟨some response,
              (phase.takeBody ((buffer ++ piece).drop (pos + kHeaderEnd.length))).1,
              (phase.takeBody ((buffer ++ piece).drop (pos + kHeaderEnd.length))).2⟩ := by
          rw [Phase.take, hparse]
          dsimp only [Except.map]
          rw [if_neg hredirect, hlength]
          dsimp only
          rw [hphase]
        dsimp only
        rw [hphase, Phase.takeAll, Phase.takeAll, htake, take_of_ne_head hne]
        dsimp only [Reaction.callbacks]
        cases (phase.takeBody ((buffer ++ piece).drop (pos + kHeaderEnd.length))).2 <;> rfl

/-- **Through the head.** As long as no end of the head has arrived the receiver buffers; then only the
text of the head and the cuts of what is behind it count. -/
theorem takeAll_head (allowRedirect : Bool) {buffer : Bytes} (hnone : find kHeaderEnd buffer = none)
    (pieces : List Bytes) :
    (Phase.head buffer).takeAll allowRedirect pieces =
      match find kHeaderEnd (buffer ++ pieces.flatten) with
      | none => ([], .more (.head (buffer ++ pieces.flatten)))
      | some pos => behindHead allowRedirect ((buffer ++ pieces.flatten).take pos)
          (dropFront (pos + kHeaderEnd.length - buffer.length) pieces) := by
  induction pieces generalizing buffer with
  | nil =>
    rw [List.flatten_nil, List.append_nil, hnone]
    rfl
  | cons piece pieces ih =>
    rw [List.flatten_cons, ← List.append_assoc]
    cases hfind : find kHeaderEnd (buffer ++ piece) with
    | none =>
      have htake : (Phase.head buffer).take allowRedirect piece =
          ⟨none, [], .more (.head (buffer ++ piece))⟩ := by
        rw [Phase.take, parseResponseHeader_of_find_none hfind]
      rw [takeAll_of_more (by rw [htake]), htake, ih hfind]
      show (_, _) = _
      cases hpos : find kHeaderEnd (buffer ++ piece ++ pieces.flatten) with
      | none => rfl
      | some pos =>
        have hlt := length_lt_of_find_append hfind hpos
        rw [List.length_append] at hlt
        dsimp only
        rw [dropFront_of_lt (by omega), List.length_append, Nat.sub_add_eq]
        rfl
    | some pos =>
      have hlt := length_lt_of_find_append hnone hfind
      have hle := find_add_length_le hfind
      rw [List.length_append] at hle
      have hend := find_append_right pieces.flatten hfind
      have htake : (buffer ++ piece ++ pieces.flatten).take pos = (buffer ++ piece).take pos :=
        List.take_append_of_le_length (by rw [List.length_append]; omega)
      rw [takeAll_head_of_find hfind, hend]
      dsimp only
      rw [htake, dropFront_of_le (by omega), List.drop_append,
        List.drop_eq_nil_of_le (by omega : buffer.length ≤ _), List.nil_append]

/-- The header a whole head parses to. -/
def ParsesTo (head : Bytes) (response : ResponseHeader) : Prop :=
  parseResponseHeader head {} = .ok (true, head.length, response)

/-- A stream that starts with a head that parses. -/
theorem takeAll_of_parsesTo {head body : Bytes} {response : ResponseHeader}
    (hhead : ParsesTo head response) (hflatten : pieces.flatten = head ++ body)
    (allowRedirect : Bool) :
    (Phase.head []).takeAll allowRedirect pieces =
      afterHead allowRedirect response (dropFront head.length pieces) := by
  obtain ⟨pos, hpos, hsize, hview⟩ := find_of_parseResponseHeader hhead
  have hfind := find_append_right body hpos
  rw [← hflatten] at hfind
  have htake : pieces.flatten.take pos = head.take pos := by
    rw [hflatten, List.take_append_of_le_length (by omega)]
  rw [takeAll_head allowRedirect (by decide), List.nil_append, hfind]
  dsimp only
  rw [behindHead, htake, hview, hsize]
  rfl

end HttpRequest
