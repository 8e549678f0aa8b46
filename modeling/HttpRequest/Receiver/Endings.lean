import HttpRequest.Foundations.Segments
import HttpRequest.Receiver.Completion
import HttpRequest.Receiver.SizeLines

/-! # What a clean end says

A run of `receive` that returns without an error reports `onDisconnected` last. This file says what can
have led there. `Reported` relates what has been received and reported so far to the phase of the
receiver; every pass keeps the relation (`Reported.react`), so it holds along every path (`Path`), and
the pass that ends the run can be read off it (`receive_clean_end`). -/

namespace HttpRequest

open Foundations

/-! ### Paths of the receiver -/

/-- The passes that lead the receiver from one phase to another, with their callbacks. -/
inductive Path (timeLeft : UInt64 → Bool) (allowRedirect : Bool) :
    Phase → List Round → List Callback → Phase → Prop
  | nil (phase : Phase) : Path timeLeft allowRedirect phase [] [] phase
  | cons {phase phase' last : Phase} {round : Round} {rounds : List Round} {cs : List Callback} :
    await timeLeft round.waits = .ready →
    (phase.react allowRedirect round.reply).exit = .more phase' →
    Path timeLeft allowRedirect phase' rounds cs last →
    Path timeLeft allowRedirect phase (round :: rounds)
      ((phase.react allowRedirect round.reply).callbacks ++ cs) last

/-- A receiver that returns without an error has come along a path to a pass that ends it. -/
theorem path_of_returned (timeLeft : UInt64 → Bool) (allowRedirect : Bool) (rounds : List Round) :
    ∀ phase : Phase, (transcript timeLeft allowRedirect rounds phase).outcome = .ok () →
      (∀ code errorCode, .onError code errorCode ∉
        (transcript timeLeft allowRedirect rounds phase).callbacks) →
      ∃ front round back cs last, rounds = front ++ round :: back ∧
        Path timeLeft allowRedirect phase front cs last ∧
        (last.react allowRedirect round.reply).exit = .finished ∧
        transcript timeLeft allowRedirect rounds phase =
          ⟨.ok (), cs ++ ((last.react allowRedirect round.reply).callbacks ++ [.onDisconnected]),
            front.length + 1⟩ := by
  induction rounds with
  | nil => exact fun _ hok => by cases hok
  | cons round rounds ih =>
    intro phase hok herror
    rw [transcript] at hok herror ⊢
    cases hawait : await timeLeft round.waits with
    | pending =>
      rw [hawait] at hok
      cases hok
    | failed code errorCode =>
      rw [hawait] at herror
      exact absurd (List.mem_cons_self ..) (herror code errorCode)
    | ready =>
      rw [hawait] at hok herror
      dsimp only at hok herror ⊢
      cases hexit : (phase.react allowRedirect round.reply).exit with
      | more phase' =>
        rw [hexit] at hok herror
        obtain ⟨front, round', back, cs, last, rfl, hpath, hfinished, ht⟩ :=
          ih phase' hok fun code errorCode hmem =>
            herror code errorCode (List.mem_append_right _ hmem)
        refine ⟨round :: front, round', back, _, last, rfl, .cons hawait hexit hpath, hfinished, ?_⟩
        rw [Exit.transcript, ht, Transcript.prepend, List.append_assoc, List.length_cons,
          Nat.add_comm 1]
      | finished => exact ⟨[], round, rounds, [], phase, rfl, .nil phase, hexit, rfl⟩
      | failed code errorCode =>
        rw [hexit] at herror
        exact absurd (List.mem_append_right _ (List.mem_cons_self ..)) (herror code errorCode)
      | redirected url =>
        rw [hexit] at hok
        cases hok
      | crashed fault =>
        rw [hexit] at hok
        cases hok

/-! ### What has been received and reported -/

/-- The pieces start with a head that parses to the header; behind it they hold these parts of the body,
and its length was announced as `contentLength`. -/
structure BehindHead (pieces : List Bytes) (response : ResponseHeader) (parts : List Bytes)
    (contentLength : Int) : Prop where
  head : ∃ head, ParsesTo head response ∧ pieces.flatten = head ++ parts.flatten ∧
    dropFront head.length pieces = parts
  length : parseFieldValueInt64 response.headers kContentLength int64Max = .ok contentLength

/-- Decoding pieces of a chunked body one after the other: what is delivered, and how much of a chunk is
open before and behind them. -/
inductive Decodes : Int → List Bytes → List Bytes → Int → Prop
  | nil (chunkSize : Int) : Decodes chunkSize [] [] chunkSize
  | snoc {first chunkSize chunkSize' : Int} {pieces data : List Bytes} (piece : Bytes) :
    Decodes first pieces data chunkSize →
    (decode chunkSize piece).2 = .more (.chunked chunkSize') →
    Decodes first (pieces ++ [piece]) (data ++ (decode chunkSize piece).1) chunkSize'

/-- What the receiver has received and reported when it is in a phase. -/
def Reported (pieces : List Bytes) : Phase → List Callback → Prop
  | .head buffer, cs => cs = [] ∧ pieces.flatten = buffer ∧ find kHeaderEnd buffer = none
  | .plain contentLength recvLength, cs => ∃ (response : ResponseHeader) (parts data : List Bytes),
      BehindHead pieces response parts contentLength ∧ data.flatten = parts.flatten ∧
        response.headers.lookup kTransferEncoding ≠ some kChunked ∧
        cs = .onParseHeaderDone response :: data.map .onData ∧
        recvLength = data.flatten.length ∧ recvLength < contentLength
  | .chunked chunkSize, cs => ∃ (response : ResponseHeader) (parts data : List Bytes)
      (contentLength : Int),
      BehindHead pieces response parts contentLength ∧
        response.headers.lookup kTransferEncoding = some kChunked ∧
        cs = .onParseHeaderDone response :: data.map .onData ∧ Decodes (-1) parts data chunkSize

/-- A further piece is behind the head too. -/
theorem BehindHead.append {pieces : List Bytes} {response : ResponseHeader} {parts : List Bytes}
    {contentLength : Int} (h : BehindHead pieces response parts contentLength) (piece : Bytes) :
    BehindHead (pieces ++ [piece]) response (parts ++ [piece]) contentLength := by
  obtain ⟨head, hparses, hhead, hdrop⟩ := h.head
  refine ⟨⟨head, hparses, ?_, ?_⟩, h.length⟩
  · rw [List.flatten_append, hhead, List.flatten_append, List.append_assoc]
  · rw [dropFront_append (by rw [hhead, List.length_append]; omega), hdrop]

/-- The piece with the end of the head holds the first part of the body. -/
theorem behindHead_last {pieces : List Bytes} {piece head rest : Bytes} {response : ResponseHeader}
    {contentLength : Int} (hnone : find kHeaderEnd pieces.flatten = none)
    (hhead : pieces.flatten ++ piece = head ++ rest) (hparses : ParsesTo head response)
    (hlength : parseFieldValueInt64 response.headers kContentLength int64Max = .ok contentLength) :
    BehindHead (pieces ++ [piece]) response [rest] contentLength := by
  obtain ⟨pos, hpos, hsize, -⟩ := find_of_parseResponseHeader hparses
  have hlt : pieces.flatten.length < head.length := by
    -- otherwise the end of the head would be in the pieces in front of the last
    by_contra hle
    obtain ⟨more, hmore⟩ := List.prefix_of_prefix_length_le (⟨rest, hhead.symm⟩ : head <+: _)
      (List.prefix_append pieces.flatten piece) (Nat.not_lt.mp hle)
    rw [← hmore, find_append_right more hpos] at hnone
    cases hnone
  have hlen := congrArg List.length hhead
  rw [List.length_append, List.length_append] at hlen
  refine ⟨⟨head, hparses, ?_, ?_⟩, hlength⟩
  · rw [List.flatten_append, List.flatten_singleton, List.flatten_singleton, hhead]
  · rw [dropFront_append_of_lt hlt, dropFront_of_le (by omega)]
    have hrest := congrArg (List.drop head.length) hhead
    rw [List.drop_left, List.drop_append, List.drop_eq_nil_of_le (Nat.le_of_lt hlt),
      List.nil_append] at hrest
    rw [hrest]

/-- The header is the one of a head the data start with. -/
theorem parsesTo_take {data : Bytes} {response : ResponseHeader} {size : Nat}
    (h : parseResponseHeader data {} = .ok (true, size, response)) :
    ParsesTo (data.take size) response := by
  obtain ⟨hlen, hparse⟩ := parseResponseHeader_take h
  rw [ParsesTo, hlen]
  exact hparse

/-- What a piece gets the receiver to do in front of a head: it waits, stops, or goes on with the rest of
the piece behind the head. -/
theorem take_head_spec (allowRedirect : Bool) (buffer piece : Bytes) :
    (find kHeaderEnd (buffer ++ piece) = none ∧
        (Phase.head buffer).take allowRedirect piece = ⟨none, [], .more (.head (buffer ++ piece))⟩) ∨
      (∃ fault, (Phase.head buffer).take allowRedirect piece = ⟨none, [], .crashed fault⟩) ∨
      (∃ url, (Phase.head buffer).take allowRedirect piece = ⟨none, [], .redirected url⟩) ∨
      ∃ head rest response contentLength, buffer ++ piece = head ++ rest ∧ ParsesTo head response ∧
        parseFieldValueInt64 response.headers kContentLength int64Max = .ok contentLength ∧
        (Phase.head buffer).take allowRedirect piece =
          ⟨some response,
            ((Phase.ofHead contentLength
              (parseFieldValueString response.headers kTransferEncoding [])).takeBody rest).1,
            ((Phase.ofHead contentLength
              (parseFieldValueString response.headers kTransferEncoding [])).takeBody rest).2⟩ := by
  cases hparse : parseResponseHeader (buffer ++ piece) {} with
  | error fault =>
    refine .inr (.inl ⟨fault, ?_⟩)
    rw [Phase.take, hparse]
  | ok parsed =>
    obtain ⟨isSuccess, headerSize, response⟩ := parsed
    cases isSuccess with
    | false =>
      refine .inl ⟨(find_of_parseResponseHeader_false hparse).1, ?_⟩
      rw [Phase.take, hparse]
    | true =>
      by_cases hredirect : (response.isNeedRedirect && allowRedirect) = true
      · refine .inr (.inr (.inl ⟨(response.headers.lookup kLocation).getD [], ?_⟩))
        rw [Phase.take, hparse]
        dsimp only
        rw [if_pos hredirect]
      · cases hlength : parseFieldValueInt64 response.headers kContentLength int64Max with
        | error fault =>
          refine .inr (.inl ⟨fault, ?_⟩)
          rw [Phase.take, hparse]
          dsimp only
          rw [if_neg hredirect, hlength]
        | ok contentLength =>
          refine .inr (.inr (.inr ⟨_, _, response, contentLength,
            (List.take_append_drop headerSize _).symm, parsesTo_take hparse, hlength, ?_⟩))
          rw [Bool.not_eq_true] at hredirect
          exact take_head (parsesTo_take hparse) hredirect hlength
            (List.take_append_drop headerSize _).symm

/-- A piece that leaves the decoder waiting leaves it with a chunk size. -/
theorem chunked_of_decode_more {chunkSize : Int} {view : Bytes} {phase : Phase}
    (h : (decode chunkSize view).2 = .more phase) : ∃ chunkSize', phase = .chunked chunkSize' := by
  have hexit := decode_exit chunkSize view
  rw [h] at hexit
  cases phase with
  | head buffer => exact absurd hexit id
  | plain contentLength recvLength => exact absurd hexit id
  | chunked chunkSize' => exact ⟨chunkSize', rfl⟩

/-- What has been received and reported once the piece with the end of the head is handled. -/
theorem BehindHead.reported {pieces : List Bytes} {response : ResponseHeader} {body : Bytes}
    {contentLength : Int} (h : BehindHead pieces response [body] contentLength) {phase' : Phase}
    (hmore : ((Phase.ofHead contentLength
      (parseFieldValueString response.headers kTransferEncoding [])).takeBody body).2 =
        .more phase') :
    Reported pieces phase' (.onParseHeaderDone response :: ((Phase.ofHead contentLength
      (parseFieldValueString response.headers kTransferEncoding [])).takeBody body).1.map
        .onData) := by
  by_cases hcoding : response.headers.lookup kTransferEncoding = some kChunked
  · rw [ofHead_chunked hcoding] at hmore ⊢
    obtain ⟨chunkSize, rfl⟩ := chunked_of_decode_more hmore
    exact ⟨response, [] ++ [body], (decode (-1) body).1, contentLength, h, hcoding, rfl,
      .snoc body (.nil (-1)) hmore⟩
  · rw [ofHead_plain hcoding] at hmore ⊢
    by_cases hle : contentLength ≤ 0 + (body.length : Int)
    · rw [takeBody_of_le hle] at hmore
      cases hmore
    · rw [takeBody_of_lt (by omega)] at hmore ⊢
      cases hmore
      refine ⟨response, [body], handed body, h, ?_, hcoding, rfl, ?_, by omega⟩
      · rw [flatten_handed, List.flatten_singleton]
      · rw [flatten_handed, Int.zero_add]

/-- A piece keeps the relation. -/
theorem Reported.take {pieces : List Bytes} {phase phase' : Phase} {cs : List Callback}
    (h : Reported pieces phase cs) {allowRedirect : Bool} {piece : Bytes}
    (hmore : (phase.take allowRedirect piece).exit = .more phase') :
    Reported (pieces ++ [piece]) phase' (cs ++ (phase.take allowRedirect piece).callbacks) := by
  cases phase with
  | head buffer =>
    obtain ⟨rfl, rfl, hnone⟩ := h
    rcases take_head_spec allowRedirect pieces.flatten piece with
      ⟨hfind, ht⟩ | ⟨fault, ht⟩ | ⟨url, ht⟩ | ⟨head, rest, response, contentLength, hhead, hparses, hlength, ht⟩
    · rw [ht] at hmore ⊢
      cases hmore
      refine ⟨rfl, ?_, hfind⟩
      rw [List.flatten_append, List.flatten_singleton]
    · rw [ht] at hmore
      cases hmore
    · rw [ht] at hmore
      cases hmore
    · rw [ht] at hmore ⊢
      exact (behindHead_last hnone hhead hparses hlength).reported hmore
  | plain contentLength recvLength =>
    obtain ⟨response, parts, data, hbehind, hdata, hcoding, rfl, rfl, hlt⟩ := h
    rw [take_plain] at hmore ⊢
    by_cases hle : contentLength ≤ (data.flatten.length : Int) + piece.length
    · rw [takeBody_of_le hle] at hmore
      cases hmore
    · rw [takeBody_of_lt (by omega)] at hmore ⊢
      cases hmore
      have hflatten : (data ++ handed piece).flatten = data.flatten ++ piece := by
        rw [List.flatten_append, flatten_handed]
      refine ⟨response, parts ++ [piece], data ++ handed piece, hbehind.append piece, ?_, hcoding, ?_, ?_,
        by omega⟩
      · rw [hflatten, hdata, List.flatten_append, List.flatten_singleton]
      · rw [List.map_append]
        rfl
      · rw [hflatten, List.length_append, Nat.cast_add]
  | chunked chunkSize =>
    obtain ⟨response, parts, data, contentLength, hbehind, hcoding, rfl, hdecodes⟩ := h
    rw [take_chunked] at hmore ⊢
    obtain ⟨chunkSize', rfl⟩ := chunked_of_decode_more hmore
    refine ⟨response, parts ++ [piece], data ++ (decode chunkSize piece).1, contentLength,
      hbehind.append piece, hcoding, ?_, hdecodes.snoc piece hmore⟩
    rw [List.map_append]
    rfl

/-- **A pass keeps the relation.** -/
theorem Reported.react {pieces : List Bytes} {phase phase' : Phase} {cs : List Callback}
    (h : Reported pieces phase cs) {allowRedirect : Bool} {round : Round}
    (hmore : (phase.react allowRedirect round.reply).exit = .more phase') :
    Reported (pieces ++ received [round]) phase'
      (cs ++ (phase.react allowRedirect round.reply).callbacks) := by
  rw [Phase.react] at hmore ⊢
  by_cases hsuccess : round.reply.result.isSuccess = true
  · rw [if_pos hsuccess] at hmore ⊢
    rw [received_cons_success hsuccess]
    exact h.take hmore
  · rw [if_neg hsuccess] at hmore ⊢
    rw [Bool.not_eq_true] at hsuccess
    have hnone : received [round] = [] := received_cons_retry hsuccess
    by_cases hretry : round.reply.result.resultCode = .Retry
    · rw [if_pos hretry] at hmore ⊢
      cases hmore
      rw [hnone, List.append_nil]
      show Reported pieces phase (cs ++ [])
      rw [List.append_nil]
      exact h
    · rw [if_neg hretry] at hmore
      by_cases hclosed : round.reply.result.resultCode = .Completed ∨
          round.reply.result.resultCode = .Disconnected
      · rw [if_pos hclosed] at hmore
        cases hmore
      · rw [if_neg hclosed] at hmore
        cases hmore

/-- **Along a path the relation holds.** -/
theorem Path.reported {timeLeft : UInt64 → Bool} {allowRedirect : Bool} {phase last : Phase}
    {rounds : List Round} {cs : List Callback}
    (h : Path timeLeft allowRedirect phase rounds cs last) {pieces : List Bytes}
    {cs' : List Callback} (hreported : Reported pieces phase cs') :
    Reported (pieces ++ received rounds) last (cs' ++ cs) := by
  induction h generalizing pieces cs' with
  | nil phase =>
    rw [List.append_nil]
    show Reported (pieces ++ []) phase cs'
    rw [List.append_nil]
    exact hreported
  | @cons phase phase' last round rounds cs hready hmore hpath ih =>
    have hstep := ih (hreported.react hmore)
    rw [List.append_assoc, List.append_assoc, ← received_append] at hstep
    exact hstep

/-! ### The pass that ends the run -/

/-- The size lines behind decoded pieces are size lines of the whole. -/
theorem Decodes.sizeLine {first chunkSize : Int} {pieces data rest : List Bytes} {line : Bytes}
    (h : Decodes first pieces data chunkSize) (hline : SizeLine chunkSize rest line) :
    SizeLine first (pieces ++ rest) line := by
  induction h generalizing rest with
  | nil => exact hline
  | snoc piece hdecodes hmore ih =>
    rw [List.append_assoc]
    exact ih ((sizeLine_cons _ _ _ _).mpr (.inr ⟨_, hmore, hline⟩))

/-- A whole response has been received and reported: behind the head, a size line with the value zero has
been read, or at least as many bytes as announced have been delivered, and fewer in front of the last piece. -/
def WholeResponse (pieces : List Bytes) (cs : List Callback) : Prop :=
  ∃ (response : ResponseHeader) (parts data : List Bytes) (contentLength : Int),
    BehindHead pieces response parts contentLength ∧
      cs = .onParseHeaderDone response :: data.map .onData ∧
      ((response.headers.lookup kTransferEncoding = some kChunked ∧
          ∃ line, SizeLine (-1) parts line ∧ stolHex line = .ok 0) ∨
        (response.headers.lookup kTransferEncoding ≠ some kChunked ∧
          data.flatten = parts.flatten ∧ contentLength ≤ data.flatten.length ∧
            (data.dropLast = [] ∨ (data.dropLast.flatten.length : Int) < contentLength)))

/-- The piece that ends the head ends the response. -/
theorem BehindHead.whole {pieces : List Bytes} {response : ResponseHeader} {body : Bytes}
    {contentLength : Int} (h : BehindHead pieces response [body] contentLength)
    (hfinished : ((Phase.ofHead contentLength
      (parseFieldValueString response.headers kTransferEncoding [])).takeBody body).2 =
        .finished) :
    WholeResponse pieces (.onParseHeaderDone response :: ((Phase.ofHead contentLength
      (parseFieldValueString response.headers kTransferEncoding [])).takeBody body).1.map
        .onData) := by
  by_cases hcoding : response.headers.lookup kTransferEncoding = some kChunked
  · rw [ofHead_chunked hcoding] at hfinished ⊢
    exact ⟨response, [body], _, contentLength, h, rfl, .inl ⟨hcoding,
      (decode_finished_iff (-1) body).mp hfinished⟩⟩
  · rw [ofHead_plain hcoding] at hfinished ⊢
    by_cases hle : contentLength ≤ 0 + (body.length : Int)
    · rw [takeBody_of_le hle]
      have hdrop : (handed body).dropLast = [] := by
        rw [handed]
        split
        · rfl
        · rfl
      refine ⟨response, [body], _, contentLength, h, rfl, .inr ⟨hcoding, ?_, ?_, .inl hdrop⟩⟩
      · rw [flatten_handed, List.flatten_singleton]
      · rw [flatten_handed]
        omega
    · rw [takeBody_of_lt (by omega)] at hfinished
      cases hfinished

/-- A piece that ends the run makes the response whole. -/
theorem Reported.whole {pieces : List Bytes} {phase : Phase} {cs : List Callback}
    (h : Reported pieces phase cs) {allowRedirect : Bool} {piece : Bytes}
    (hfinished : (phase.take allowRedirect piece).exit = .finished) :
    WholeResponse (pieces ++ [piece]) (cs ++ (phase.take allowRedirect piece).callbacks) := by
  cases phase with
  | head buffer =>
    obtain ⟨rfl, rfl, hnone⟩ := h
    rcases take_head_spec allowRedirect pieces.flatten piece with
      ⟨-, ht⟩ | ⟨fault, ht⟩ | ⟨url, ht⟩ | ⟨head, rest, response, contentLength, hhead, hparses, hlength, ht⟩
    · rw [ht] at hfinished
      cases hfinished
    · rw [ht] at hfinished
      cases hfinished
    · rw [ht] at hfinished
      cases hfinished
    · rw [ht] at hfinished ⊢
      exact (behindHead_last hnone hhead hparses hlength).whole hfinished
  | plain contentLength recvLength =>
    obtain ⟨response, parts, data, hbehind, hdata, hcoding, rfl, rfl, hlt⟩ := h
    rw [take_plain] at hfinished ⊢
    by_cases hle : contentLength ≤ (data.flatten.length : Int) + piece.length
    · rw [takeBody_of_le hle]
      have hpiece : piece ≠ [] := by
        rintro rfl
        rw [List.length_nil] at hle
        omega
      have hflatten : (data ++ [piece]).flatten = data.flatten ++ piece := by
        rw [List.flatten_append, List.flatten_singleton]
      rw [handed_of_ne_nil hpiece]
      refine ⟨response, parts ++ [piece], data ++ [piece], contentLength, hbehind.append piece, ?_,
        .inr ⟨hcoding, ?_, ?_, .inr ?_⟩⟩
      · rw [List.map_append]
        rfl
      · rw [hflatten, hdata, List.flatten_append, List.flatten_singleton]
      · rw [hflatten, List.length_append, Nat.cast_add]
        exact hle
      · rw [List.dropLast_concat]
        exact hlt
    · rw [takeBody_of_lt (by omega)] at hfinished
      cases hfinished
  | chunked chunkSize =>
    obtain ⟨response, parts, data, contentLength, hbehind, hcoding, rfl, hdecodes⟩ := h
    rw [take_chunked] at hfinished ⊢
    obtain ⟨line, hline, hzero⟩ := (decode_finished_iff chunkSize piece).mp hfinished
    refine ⟨response, parts ++ [piece], data ++ (decode chunkSize piece).1, contentLength,
      hbehind.append piece, ?_, .inl ⟨hcoding, line, hdecodes.sizeLine hline, hzero⟩⟩
    rw [List.map_append]
    rfl

/-- The pass that ends the run finds the connection closed, or makes the response whole. -/
theorem Reported.finished {pieces : List Bytes} {phase : Phase} {cs : List Callback}
    (h : Reported pieces phase cs) {allowRedirect : Bool} {round : Round}
    (hfinished : (phase.react allowRedirect round.reply).exit = .finished) :
    ((round.reply.result.resultCode = .Completed ∨
        round.reply.result.resultCode = .Disconnected) ∧
      (phase.react allowRedirect round.reply).callbacks = []) ∨
    (round.reply.result.isSuccess = true ∧
      WholeResponse (pieces ++ received [round])
        (cs ++ (phase.react allowRedirect round.reply).callbacks)) := by
  rw [Phase.react] at hfinished ⊢
  by_cases hsuccess : round.reply.result.isSuccess = true
  · rw [if_pos hsuccess] at hfinished ⊢
    rw [received_cons_success hsuccess]
    exact .inr ⟨hsuccess, h.whole hfinished⟩
  · rw [if_neg hsuccess] at hfinished ⊢
    by_cases hretry : round.reply.result.resultCode = .Retry
    · rw [if_pos hretry] at hfinished
      cases hfinished
    · rw [if_neg hretry] at hfinished ⊢
      by_cases hclosed : round.reply.result.resultCode = .Completed ∨
          round.reply.result.resultCode = .Disconnected
      · rw [if_pos hclosed]
        exact .inl ⟨hclosed, rfl⟩
      · rw [if_neg hclosed] at hfinished
        cases hfinished

/-- **A clean end.** An undisturbed `receive` that returns without handing over to `redirect` and without
an error has made its last read in a pass behind which it reads nothing more, and its last callback is
`onDisconnected`. In that pass the peer closed the connection, whatever part of a response had been
received and reported by then; or it handed over a piece that made the response whole. -/
theorem receive_clean_end (env : Env) (s : State) (hs : s.Undisturbed) (hsocket : s.socket_.isSome)
    (rounds : List Round) (hok : ((receive handOver rounds).run env s).outcome = .ok ())
    (herror : ∀ code errorCode,
      .onError code errorCode ∉ callbacks ((receive handOver rounds).run env s).events) :
    ∃ front round back cs, rounds = front ++ round :: back ∧
      callbacks ((receive handOver rounds).run env s).events = cs ++ [.onDisconnected] ∧
      (calls ((receive handOver rounds).run env s).events).count .receive = front.length + 1 ∧
      (((round.reply.result.resultCode = .Completed ∨
          round.reply.result.resultCode = .Disconnected) ∧
          ∃ phase, Reported (received front) phase cs) ∨
        (round.reply.result.isSuccess = true ∧ WholeResponse (received (front ++ [round])) cs)) := by
  have hof := transcript_receive env rounds hs hsocket
  have houtcome := congrArg Transcript.outcome hof
  have hcallbacks : callbacks ((receive handOver rounds).run env s).events = _ :=
    congrArg Transcript.callbacks hof
  have hreceives : (calls ((receive handOver rounds).run env s).events).count .receive = _ :=
    congrArg Transcript.receives hof
  rw [hcallbacks] at herror
  obtain ⟨front, round, back, cs, phase, rfl, hpath, hfinished, ht⟩ :=
    path_of_returned _ _ rounds (.head []) (houtcome.symm.trans hok) herror
  have hreported : Reported (received front) phase cs :=
    hpath.reported (⟨rfl, rfl, by decide⟩ : Reported [] (.head []) [])
  rw [hcallbacks, hreceives, ht]
  refine ⟨front, round, back, _, rfl, (List.append_assoc ..).symm, rfl, ?_⟩
  rw [received_append]
  rcases hreported.finished hfinished with ⟨hclosed, hnone⟩ | ⟨hsuccess, hwhole⟩
  · rw [hnone, List.append_nil]
    exact .inl ⟨hclosed, phase, hreported⟩
  · exact .inr ⟨hsuccess, hwhole⟩

/-- A peer that closes in front of the last bytes it announced. -/
theorem receive_truncated_response :
    ((receive handOver [.piece (sizedHead ++ bytes "ab"), .closed]).run .plain
        (.connected { url := [] })).outcome = .ok () ∧
      callbacks ((receive handOver [.piece (sizedHead ++ bytes "ab"), .closed]).run .plain
        (.connected { url := [] })).events =
          [.onParseHeaderDone (headerOf sizedHead), .onData (bytes "ab"), .onDisconnected] ∧
      parseFieldValueInt64 (headerOf sizedHead).headers kContentLength int64Max = .ok 5 := by
  have ht : transcript (State.connected { url := [] }).timeLeft true
      [.piece (sizedHead ++ bytes "ab"), .closed] (.head []) =
        ⟨.ok (), [.onParseHeaderDone (headerOf sizedHead), .onData (bytes "ab"), .onDisconnected],
          2⟩ := by rfl
  obtain ⟨houtcome, hcallbacks, -⟩ :=
    run_receive_of_transcript (undisturbed_connected { url := [] }) rfl .plain handOver ht
  have hlookup : (headerOf sizedHead).headers.lookup kContentLength = some (bytes "5") := by rfl
  refine ⟨houtcome, hcallbacks, ?_⟩
  rw [parseFieldValueInt64, hlookup]
  decide

/-- A response that is whole after two pieces. -/
theorem receive_clean_end_hello :
    ∃ front round back cs, [Round.piece (sizedHead ++ bytes "he"), .piece (bytes "llo")] =
        front ++ round :: back ∧
      callbacks ((receive handOver [.piece (sizedHead ++ bytes "he"), .piece (bytes "llo")]).run
        .plain (.connected { url := [] })).events = cs ++ [.onDisconnected] ∧
      (calls ((receive handOver [.piece (sizedHead ++ bytes "he"), .piece (bytes "llo")]).run
        .plain (.connected { url := [] })).events).count .receive = front.length + 1 ∧
      (((round.reply.result.resultCode = .Completed ∨
          round.reply.result.resultCode = .Disconnected) ∧
          ∃ phase, Reported (received front) phase cs) ∨
        (round.reply.result.isSuccess = true ∧ WholeResponse (received (front ++ [round])) cs)) := by
  have ht : transcript (State.connected { url := [] }).timeLeft true
      [.piece (sizedHead ++ bytes "he"), .piece (bytes "llo")] (.head []) =
        ⟨.ok (), [.onParseHeaderDone (headerOf sizedHead), .onData (bytes "he"),
          .onData (bytes "llo"), .onDisconnected], 2⟩ := by rfl
  obtain ⟨houtcome, hcallbacks, -⟩ :=
    run_receive_of_transcript (undisturbed_connected { url := [] }) rfl .plain handOver ht
  refine receive_clean_end .plain (.connected { url := [] }) (undisturbed_connected _) rfl _ houtcome
    fun code errorCode hmem => ?_
  rw [hcallbacks] at hmem
  simp at hmem

end HttpRequest
