import HttpRequest.Receiver.HandOver
import HttpRequest.Receiver.Pieces

/-! # From the first byte of a head to the last byte of a body

A script delivers a stream when every wait succeeds in time and every read hands over a piece of it or
asks to retry (`Delivers`). This file follows the receiver along such a script: up to the piece in which
the head ends (`transcript_head`), through a body that is not chunked (`transcript_plain`), and to the
end of the response. -/

namespace HttpRequest

open Foundations

/-! ### Scripts that deliver a stream -/

/-- A script that hands over the stream in non-empty pieces. -/
structure Delivers (timeLeft : UInt64 → Bool) (rounds : List Round) (stream : Bytes) : Prop where
  flows : ∀ round ∈ rounds, round.Flows timeLeft
  nonempty : ∀ piece ∈ received rounds, piece ≠ []
  flatten : (received rounds).flatten = stream

section

variable {timeLeft : UInt64 → Bool} {round : Round} {rounds rounds' : List Round}
  {stream stream' : Bytes}

/-- Without passes nothing is delivered. -/
theorem Delivers.nil : Delivers timeLeft [] [] :=
  ⟨fun _ h => absurd h List.not_mem_nil, fun _ h => absurd h List.not_mem_nil, rfl⟩

/-- The first pass of a script that delivers a stream asks to retry or hands over its front. -/
theorem Delivers.cases_cons (h : Delivers timeLeft (round :: rounds) stream) :
    round.Flows timeLeft ∧
      (round.reply.result.isSuccess = false ∧ Delivers timeLeft rounds stream ∨
        round.reply.result.isSuccess = true ∧ round.reply.data ≠ [] ∧
          ∃ rest, stream = round.reply.data ++ rest ∧ Delivers timeLeft rounds rest) := by
  refine ⟨h.flows round (List.mem_cons_self ..), ?_⟩
  have hflows : ∀ r ∈ rounds, r.Flows timeLeft := fun r hr => h.flows r (List.mem_cons_of_mem _ hr)
  have hnonempty := h.nonempty
  have hflatten := h.flatten
  cases hsuccess : round.reply.result.isSuccess with
  | false =>
    rw [received_cons_retry hsuccess] at hnonempty hflatten
    exact .inl ⟨rfl, hflows, hnonempty, hflatten⟩
  | true =>
    rw [received_cons_success hsuccess] at hnonempty hflatten
    refine .inr ⟨rfl, hnonempty _ (List.mem_cons_self ..), (received rounds).flatten, ?_, hflows,
      fun piece hpiece => hnonempty piece (List.mem_cons_of_mem _ hpiece), rfl⟩
    rw [← hflatten, List.flatten_cons]

/-- A script that delivers a stream in two parts. -/
theorem Delivers.split (h : Delivers timeLeft (rounds ++ rounds') stream) :
    ∃ front back, stream = front ++ back ∧ Delivers timeLeft rounds front ∧
      Delivers timeLeft rounds' back := by
  have hnonempty := h.nonempty
  have hflatten := h.flatten
  rw [received_append] at hnonempty hflatten
  rw [List.flatten_append] at hflatten
  refine ⟨_, _, hflatten.symm, ⟨?_, ?_, rfl⟩, ⟨?_, ?_, rfl⟩⟩
  · exact fun r hr => h.flows r (List.mem_append_left _ hr)
  · exact fun piece hpiece => hnonempty piece (List.mem_append_left _ hpiece)
  · exact fun r hr => h.flows r (List.mem_append_right _ hr)
  · exact fun piece hpiece => hnonempty piece (List.mem_append_right _ hpiece)

/-- **The piece with a given byte.** A script that delivers more than `n` bytes has a pass that hands over
the byte at `n`. -/
theorem Delivers.cross (h : Delivers timeLeft rounds stream) {n : Nat} (hn : n < stream.length) :
    ∃ front round back before after,
      rounds = front ++ round :: back ∧ stream = before ++ round.reply.data ++ after ∧
        Delivers timeLeft front before ∧ round.Flows timeLeft ∧
          round.reply.result.isSuccess = true ∧ Delivers timeLeft back after ∧
            before.length ≤ n ∧ n < (before ++ round.reply.data).length := by
  induction rounds generalizing stream n with
  | nil =>
    rw [← h.flatten] at hn
    simp [received] at hn
  | cons round rounds ih =>
    obtain ⟨hflows, ⟨hretry, hrest⟩ | ⟨hsuccess, hne, rest, rfl, hrest⟩⟩ := h.cases_cons
    · obtain ⟨front, r, back, before, after, rfl, rfl, hfront, hr, hrs, hback, hle, hlt⟩ := ih hrest hn
      refine ⟨round :: front, r, back, before, after, rfl, rfl, ⟨?_, ?_, ?_⟩, hr, hrs, hback, hle, hlt⟩
      · intro r' hr'
        rcases List.mem_cons.mp hr' with rfl | hr'
        · exact hflows
        · exact hfront.flows r' hr'
      · rw [received_cons_retry hretry]
        exact hfront.nonempty
      · rw [received_cons_retry hretry]
        exact hfront.flatten
    · by_cases hhere : n < round.reply.data.length
      · exact ⟨[], round, rounds, [], rest, rfl, rfl, .nil, hflows, hsuccess, hrest, Nat.zero_le n,
          hhere⟩
      · obtain ⟨front, r, back, before, after, rfl, rfl, hfront, hr, hrs, hback, hle, hlt⟩ :=
          ih hrest (n := n - round.reply.data.length) (by
            rw [List.length_append] at hn
            omega)
        refine ⟨round :: front, r, back, round.reply.data ++ before, after, rfl, by simp, ⟨?_, ?_, ?_⟩,
          hr, hrs, hback, ?_, ?_⟩
        · intro r' hr'
          rcases List.mem_cons.mp hr' with rfl | hr'
          · exact hflows
          · exact hfront.flows r' hr'
        · rw [received_cons_success hsuccess]
          intro piece hpiece
          rcases List.mem_cons.mp hpiece with rfl | hpiece
          · exact hne
          · exact hfront.nonempty piece hpiece
        · rw [received_cons_success hsuccess, List.flatten_cons, hfront.flatten]
        · rw [List.length_append]
          omega
        · simp only [List.length_append] at hlt ⊢
          omega

/-! ### Through a body that is not chunked -/

/-- Short of the content length, every piece is delivered and the receiver waits for more. -/
theorem transcript_plain (h : Delivers timeLeft rounds stream) {contentLength recvLength : Int}
    (hshort : recvLength + stream.length < contentLength) (allowRedirect : Bool)
    (tail : List Round) :
    transcript timeLeft allowRedirect (rounds ++ tail) (.plain contentLength recvLength) =
      (transcript timeLeft allowRedirect tail
          (.plain contentLength (recvLength + stream.length))).prepend
        ((received rounds).map .onData) rounds.length := by
  induction rounds generalizing stream recvLength with
  | nil =>
    rw [← h.flatten]
    simp [received, Transcript.prepend]
  | cons round rounds ih =>
    obtain ⟨hflows, ⟨hretry, hrest⟩ | ⟨hsuccess, hne, rest, rfl, hrest⟩⟩ := h.cases_cons
    · rw [List.cons_append, transcript_retry hflows hretry, ih hrest hshort,
        Transcript.prepend_prepend, received_cons_retry hretry, List.nil_append, List.length_cons,
        Nat.add_comm 1]
    · rw [List.length_append, Nat.cast_add, ← Int.add_assoc] at hshort ⊢
      rw [List.cons_append, transcript_success hflows hsuccess, take_plain,
        takeBody_of_lt (by omega), handed_of_ne_nil hne]
      dsimp only [Exit.transcript]
      rw [ih hrest hshort, Transcript.prepend_prepend, received_cons_success hsuccess,
        List.length_cons, Nat.add_comm 1]
      rfl

/-- The piece with the last byte of the content length ends the response. -/
theorem transcript_plain_finish (h : Delivers timeLeft (rounds ++ [round]) stream)
    (hround : round.reply.result.isSuccess = true) {contentLength recvLength : Int}
    (hfull : recvLength + stream.length = contentLength) (allowRedirect : Bool)
    (tail : List Round) :
    transcript timeLeft allowRedirect (rounds ++ round :: tail) (.plain contentLength recvLength) =
      ⟨.ok (), (received (rounds ++ [round])).map .onData ++ [.onDisconnected],
        rounds.length + 1⟩ := by
  obtain ⟨front, back, rfl, hfront, hback⟩ := h.split
  obtain ⟨hflows, ⟨hretry, -⟩ | ⟨-, hne, rest, rfl, hrest⟩⟩ := hback.cases_cons
  · rw [hround] at hretry
    cases hretry
  obtain rfl : rest = [] := hrest.flatten.symm
  have hpos := List.length_pos_iff.mpr hne
  rw [List.append_nil, List.length_append, Nat.cast_add, ← Int.add_assoc] at hfull
  rw [transcript_plain hfront (by omega), transcript_success hflows hround, take_plain,
    takeBody_of_le (by omega), handed_of_ne_nil hne, Transcript.prepend_prepend]
  simp only [Exit.transcript, Transcript.prepend, received_append, received_cons_success hround,
    List.map_append, List.append_assoc]
  rfl

/-- When the peer closes, the response ends. -/
theorem transcript_closed (hready : await timeLeft round.waits = .ready)
    (hclosed : round.reply.result.resultCode = .Completed ∨
      round.reply.result.resultCode = .Disconnected) (allowRedirect : Bool) (phase : Phase) :
    transcript timeLeft allowRedirect (round :: rounds) phase = ⟨.ok (), [.onDisconnected], 1⟩ := by
  have hsuccess : ¬ round.reply.result.isSuccess = true := by
    rw [SocketResult.isSuccess, beq_iff_eq]
    rcases hclosed with h | h
    · rw [h]
      decide
    · rw [h]
      decide
  have hretry : round.reply.result.resultCode ≠ .Retry := by
    rcases hclosed with h | h
    · rw [h]
      decide
    · rw [h]
      decide
  rw [transcript, hready]
  dsimp only
  rw [Phase.react, if_neg hsuccess, if_neg hretry, if_pos hclosed]
  rfl

/-! ### Through the head -/

/-- Short of the end of the head, the bytes are buffered without a word to the caller. -/
theorem transcript_head_wait (h : Delivers timeLeft rounds stream) {head buffer : Bytes}
    {response : ResponseHeader} (hhead : ParsesTo head response)
    (hpre : buffer ++ stream <+: head) (hshort : (buffer ++ stream).length < head.length)
    (allowRedirect : Bool) (tail : List Round) :
    transcript timeLeft allowRedirect (rounds ++ tail) (.head buffer) =
      (transcript timeLeft allowRedirect tail (.head (buffer ++ stream))).prepend [] rounds.length := by
  induction rounds generalizing stream buffer with
  | nil =>
    rw [← h.flatten]
    simp [received, Transcript.prepend]
  | cons round rounds ih =>
    obtain ⟨hflows, ⟨hretry, hrest⟩ | ⟨hsuccess, hne, rest, rfl, hrest⟩⟩ := h.cases_cons
    -- a lost round leaves the buffer as it is
    · rw [List.cons_append, transcript_retry hflows hretry, ih hrest hpre hshort,
        Transcript.prepend_prepend, List.length_cons, Nat.add_comm 1]
      rfl
    -- the piece stays short of the end of the head, so the parser asks for more
    · rw [← List.append_assoc] at hpre hshort ⊢
      have hincomplete := parseResponseHeader_of_prefix hhead
        ((List.prefix_append (buffer ++ round.reply.data) rest).trans hpre)
        (by rw [List.length_append] at hshort; omega)
      rw [List.cons_append, transcript_success hflows hsuccess, Phase.take, hincomplete]
      dsimp only [Exit.transcript]
      rw [ih hrest hpre hshort, Transcript.prepend_prepend, List.length_cons, Nat.add_comm 1]
      rfl

/-- The reaction to the piece in which a head ends that is not redirected. -/
theorem take_head {head : Bytes} {response : ResponseHeader} (hhead : ParsesTo head response)
    {allowRedirect : Bool} (hstay : (response.isNeedRedirect && allowRedirect) = false)
    {contentLength : Int}
    (hlength : parseFieldValueInt64 response.headers kContentLength int64Max = .ok contentLength)
    {buffer piece rest : Bytes} (hpiece : buffer ++ piece = head ++ rest) :
    (Phase.head buffer).take allowRedirect piece =
      ⟨some response,
        ((Phase.ofHead contentLength
          (parseFieldValueString response.headers kTransferEncoding [])).takeBody rest).1,
        ((Phase.ofHead contentLength
          (parseFieldValueString response.headers kTransferEncoding [])).takeBody rest).2⟩ := by
  rw [Phase.take, hpiece, parseResponseHeader_append hhead rest]
  dsimp only
  rw [hstay, if_neg Bool.false_ne_true, hlength, List.drop_left]

/-- **Through the head.** A script that delivers a whole head and more has a pass in which the head
ends. Up to it the caller hears nothing; then it gets the header, and what of the piece is left is the
first of the body. -/
theorem transcript_head {head body : Bytes} {response : ResponseHeader}
    (hhead : ParsesTo head response) (h : Delivers timeLeft rounds (head ++ body))
    {allowRedirect : Bool} (hstay : (response.isNeedRedirect && allowRedirect) = false)
    {contentLength : Int}
    (hlength : parseFieldValueInt64 response.headers kContentLength int64Max = .ok contentLength)
    (tail : List Round) :
    ∃ front round back first rest,
      rounds = front ++ round :: back ∧ round.reply.result.isSuccess = true ∧
        Delivers timeLeft back rest ∧ body = first ++ rest ∧
          transcript timeLeft allowRedirect (rounds ++ tail) (.head []) =
            ((((Phase.ofHead contentLength
                (parseFieldValueString response.headers kTransferEncoding [])).takeBody
                  first).2.transcript
                (transcript timeLeft allowRedirect (back ++ tail))).prepend
              (.onParseHeaderDone response :: ((Phase.ofHead contentLength
                (parseFieldValueString response.headers kTransferEncoding [])).takeBody
                  first).1.map .onData) (front.length + 1)) := by
  obtain ⟨pos, hpos, hsize, -⟩ := find_of_parseResponseHeader hhead
  have hend : kHeaderEnd.length = 4 := rfl
  obtain ⟨front, round, back, before, after, rfl, hstream, hfront, hflows, hsuccess, hback, hle, hlt⟩ :=
    h.cross (n := head.length - 1) (by rw [List.length_append]; omega)
  -- the piece starts inside the head and reaches to its end
  have hpre : head <+: before ++ round.reply.data :=
    List.prefix_of_prefix_length_le (⟨body, hstream⟩ : head <+: before ++ round.reply.data ++ after)
      (List.prefix_append _ _) (by omega)
  obtain ⟨first, hfirst⟩ := hpre
  have hbefore : [] ++ before <+: head :=
    List.prefix_of_prefix_length_le
      (⟨round.reply.data ++ after, by rw [← List.append_assoc]⟩ :
        before <+: before ++ round.reply.data ++ after)
      (⟨body, hstream⟩ : head <+: before ++ round.reply.data ++ after)
      (by rw [List.nil_append]; omega)
  have hbody : body = first ++ after := by
    rw [← hfirst, List.append_assoc] at hstream
    exact List.append_cancel_left hstream
  refine ⟨front, round, back, first, after, rfl, hsuccess, hback, hbody, ?_⟩
  rw [List.append_assoc, transcript_head_wait hfront hhead hbefore
      (by rw [List.nil_append]; omega), List.cons_append, List.nil_append, transcript_success hflows hsuccess,
    take_head hhead hstay hlength hfirst.symm, Transcript.prepend_prepend]
  rfl

end

/-! ### Responses that are not chunked -/

/-- A run of `receive` whose transcript returns. -/
theorem run_receive_of_transcript {rounds : List Round} {s : State} (h : s.Undisturbed)
    (hs : s.socket_.isSome) (env : Env) (redirect : Bytes → Worker Unit) {cs : List Callback} {n : Nat}
    (ht : transcript s.timeLeft s.info_.isAllowRedirect rounds (.head []) = ⟨.ok (), cs, n⟩) :
    ((receive redirect rounds).run env s).outcome = .ok () ∧
      callbacks ((receive redirect rounds).run env s).events = cs ∧
        (calls ((receive redirect rounds).run env s).events).count .receive = n := by
  have hof := transcript_receive env rounds h hs
  rw [ht] at hof
  have houtcome : ((receive handOver rounds).run env s).outcome = .ok () :=
    congrArg Transcript.outcome hof
  rw [run_receive_of_closed redirect rounds fun url hurl => by
    rw [houtcome] at hurl
    cases hurl]
  exact ⟨houtcome, congrArg Transcript.callbacks hof, congrArg Transcript.receives hof⟩

/-- The rest of the head's piece and the pieces behind it, up to the content length. -/
theorem transcript_sized {timeLeft : UInt64 → Bool} {rounds : List Round} {last : Round}
    {head body : Bytes} {response : ResponseHeader} (hhead : ParsesTo head response)
    (h : Delivers timeLeft (rounds ++ [last]) (head ++ body))
    (hlast : last.reply.result.isSuccess = true) {allowRedirect : Bool}
    (hstay : (response.isNeedRedirect && allowRedirect) = false)
    (hcoding : response.headers.lookup kTransferEncoding ≠ some kChunked)
    (hlength : parseFieldValueInt64 response.headers kContentLength int64Max = .ok (body.length : Int))
    (tail : List Round) :
    ∃ data : List Bytes, data.flatten = body ∧
      transcript timeLeft allowRedirect (rounds ++ last :: tail) (.head []) =
        ⟨.ok (), .onParseHeaderDone response :: data.map .onData ++ [.onDisconnected],
          rounds.length + 1⟩ := by
  -- the round in which the head ends, and the rounds behind it
  obtain ⟨front, round, back, first, rest, hrounds, hsuccess, hback, rfl, ht⟩ :=
    transcript_head hhead h hstay hlength tail
  rw [List.append_assoc, List.singleton_append] at ht
  rw [ht, ofHead_plain hcoding]
  rcases List.eq_nil_or_concat back with rfl | ⟨back, last', rfl⟩
  · -- the head ends in the last piece, and so does the body
    obtain rfl : rest = [] := hback.flatten.symm
    obtain ⟨rfl, -⟩ := List.append_inj' hrounds rfl
    refine ⟨handed first, by rw [flatten_handed, List.append_nil], ?_⟩
    rw [takeBody_of_le (by simp)]
    simp [Exit.transcript, Transcript.prepend]
  · -- pieces of the body follow, the last piece of the script among them
    rw [List.concat_eq_append, ← List.cons_append, ← List.append_assoc] at hrounds
    obtain ⟨rfl, hlast'⟩ := List.append_inj' hrounds rfl
    obtain rfl : last = last' := List.head_eq_of_cons_eq hlast'
    rw [List.concat_eq_append] at hback ⊢
    have hrest : rest ≠ [] := by
      obtain ⟨before, after, rfl, -, hafter⟩ := hback.split
      obtain ⟨-, ⟨hretry, -⟩ | ⟨-, hne, after', rfl, -⟩⟩ := hafter.cases_cons
      · rw [hlast] at hretry
        cases hretry
      · simp [hne]
    have hpos := List.length_pos_iff.mpr hrest
    refine ⟨handed first ++ received (back ++ [last]), ?_, ?_⟩
    · rw [List.flatten_append, hback.flatten, flatten_handed]
    · rw [takeBody_of_lt (by rw [List.length_append]; omega)]
      dsimp only [Exit.transcript]
      rw [List.append_assoc, List.singleton_append,
        transcript_plain_finish hback hlast (by simp)]
      simp only [Transcript.prepend, List.map_append, List.cons_append, List.append_assoc,
        List.length_append, List.length_cons]
      congr 1
      omega

/-- A script that delivers no bytes hands over no piece. -/
theorem Delivers.received_eq_nil {timeLeft : UInt64 → Bool} {rounds : List Round}
    (h : Delivers timeLeft rounds []) : received rounds = [] := by
  refine List.eq_nil_iff_forall_not_mem.mpr fun piece hpiece => h.nonempty piece hpiece ?_
  exact List.flatten_eq_nil_iff.mp h.flatten piece hpiece

/-- Retries behind the piece with the last byte of the content length are not reached. -/
theorem transcript_plain_full {timeLeft : UInt64 → Bool} {rounds : List Round} {stream : Bytes}
    (h : Delivers timeLeft rounds stream) (hne : stream ≠ []) {contentLength recvLength : Int}
    (hfull : recvLength + stream.length = contentLength) (allowRedirect : Bool)
    (tail : List Round) :
    ∃ n, transcript timeLeft allowRedirect (rounds ++ tail) (.plain contentLength recvLength) =
      ⟨.ok (), (received rounds).map .onData ++ [.onDisconnected], n⟩ := by
  have hpos := List.length_pos_iff.mpr hne
  obtain ⟨front, round, back, before, after, rfl, hstream, hfront, hflows, hsuccess, hback, hle, hlt⟩ :=
    h.cross (n := stream.length - 1) (by omega)
  -- the round that brings the last byte leaves nothing of the stream for those behind it
  obtain rfl : after = [] := by
    rw [← List.length_eq_zero_iff]
    have hlen := congrArg List.length hstream
    simp only [List.length_append] at hlen hlt
    omega
  have hsplit : front ++ round :: back = (front ++ [round]) ++ back := by simp
  rw [hsplit] at h ⊢
  obtain ⟨stream', after, hstream', hdelivers, hafter⟩ := h.split
  obtain rfl : after = [] := by
    rw [← hafter.flatten, hback.received_eq_nil]
    rfl
  rw [hstream', List.append_nil] at hfull
  refine ⟨front.length + 1, ?_⟩
  have hreceived : received (front ++ [round] ++ back) = received (front ++ [round]) := by
    rw [received_append, hback.received_eq_nil, List.append_nil]
  have htail : front ++ [round] ++ back ++ tail = front ++ round :: (back ++ tail) := by simp
  rw [htail, hreceived]
  exact transcript_plain_finish hdelivers hsuccess hfull allowRedirect _

/-- The rest of the head's piece and the pieces behind it, until the peer closes. -/
theorem transcript_unsized {timeLeft : UInt64 → Bool} {rounds : List Round} {last : Round}
    {head body : Bytes} {response : ResponseHeader} (hhead : ParsesTo head response)
    (h : Delivers timeLeft rounds (head ++ body))
    (hready : await timeLeft last.waits = .ready)
    (hclosed : last.reply.result.resultCode = .Completed ∨
      last.reply.result.resultCode = .Disconnected) {allowRedirect : Bool}
    (hstay : (response.isNeedRedirect && allowRedirect) = false)
    (hcoding : response.headers.lookup kTransferEncoding ≠ some kChunked)
    (hlength : response.headers.lookup kContentLength = none)
    (hbound : (body.length : Int) ≤ int64Max) (tail : List Round) :
    ∃ data : List Bytes, data.flatten = body ∧
      (transcript timeLeft allowRedirect (rounds ++ last :: tail) (.head [])).outcome = .ok () ∧
        (transcript timeLeft allowRedirect (rounds ++ last :: tail) (.head [])).callbacks =
          .onParseHeaderDone response :: data.map .onData ++ [.onDisconnected] := by
  have hlength' : parseFieldValueInt64 response.headers kContentLength int64Max = .ok int64Max := by
    rw [parseFieldValueInt64, hlength]
  obtain ⟨front, round, back, first, rest, rfl, hsuccess, hback, rfl, ht⟩ :=
    transcript_head hhead h hstay hlength' (last :: tail)
  rw [ht, ofHead_plain hcoding]
  rw [List.length_append, Nat.cast_add] at hbound
  -- handed over are what the piece with the end of the head has left, and the pieces behind it
  have hdata : ∀ pieces : List Bytes, pieces.flatten = rest →
      (handed first ++ pieces).flatten = first ++ rest := by
    intro pieces hpieces
    rw [List.flatten_append, flatten_handed, hpieces]
  rcases Int.lt_or_eq_of_le hbound with hlt | heq
  · -- the body stays short of the largest length, so the receiver waits until the peer closes
    refine ⟨handed first ++ received back, hdata _ hback.flatten, ?_⟩
    rw [takeBody_of_lt (by omega)]
    dsimp only [Exit.transcript]
    rw [transcript_plain hback (by omega), transcript_closed hready hclosed]
    simp [Transcript.prepend]
  -- the body has the largest length itself, so its last byte completes it
  · by_cases hrest : rest = []
    · subst hrest
      refine ⟨handed first, by rw [flatten_handed, List.append_nil], ?_⟩
      rw [takeBody_of_le (by simp only [List.length_nil] at heq; omega)]
      simp [Exit.transcript, Transcript.prepend]
    · have hpos := List.length_pos_iff.mpr hrest
      have hfull : 0 + (first.length : Int) + rest.length = int64Max := by omega
      obtain ⟨n, hn⟩ := transcript_plain_full hback hrest hfull allowRedirect (last :: tail)
      refine ⟨handed first ++ received back, hdata _ hback.flatten, ?_⟩
      rw [takeBody_of_lt (by omega)]
      dsimp only [Exit.transcript]
      rw [hn]
      simp [Transcript.prepend]

/-- A run that returns after handing over the header, exactly the bytes of the body, and the end. -/
def ReportsBody (r : Run State Event Stop Unit) (response : ResponseHeader) (body : Bytes) : Prop :=
  r.outcome = .ok () ∧ ∃ data : List Bytes, data.flatten = body ∧
    callbacks r.events = .onParseHeaderDone response :: data.map .onData ++ [.onDisconnected]

/-- **A response that is not chunked reaches the caller as it is.** Whatever the cuts and the retries
between the pieces, an undisturbed `receive` hands over the header the whole head parses to, the bytes
of the body in order, and the end, and no error: if the body has the length the head announces, with no
read behind the piece that completes it; if no length is announced and the body is not longer than the
largest length, when the peer closes. -/
theorem receive_plain_response (env : Env) (s : State) (hs : s.Undisturbed)
    (hsocket : s.socket_.isSome) (redirect : Bytes → Worker Unit) (head body : Bytes)
    (response : ResponseHeader) (hhead : ParsesTo head response)
    (hstay : (response.isNeedRedirect && s.info_.isAllowRedirect) = false)
    (hcoding : response.headers.lookup kTransferEncoding ≠ some kChunked) (rounds : List Round)
    (last : Round) (tail : List Round) :
    (∀ text, response.headers.lookup kContentLength = some text →
        stoll text = .ok (body.length : Int) →
        Delivers s.timeLeft (rounds ++ [last]) (head ++ body) →
        last.reply.result.isSuccess = true →
          ReportsBody ((receive redirect (rounds ++ last :: tail)).run env s) response body ∧
            (calls ((receive redirect (rounds ++ last :: tail)).run env s).events).count .receive =
              rounds.length + 1) ∧
      (response.headers.lookup kContentLength = none → (body.length : Int) ≤ int64Max →
        Delivers s.timeLeft rounds (head ++ body) → await s.timeLeft last.waits = .ready →
        (last.reply.result.resultCode = .Completed ∨
          last.reply.result.resultCode = .Disconnected) →
          ReportsBody ((receive redirect (rounds ++ last :: tail)).run env s) response body) := by
  refine ⟨fun text htext hvalue hdelivers hlast => ?_, fun hnone hbound hdelivers hready hclosed => ?_⟩
  · have hlength : parseFieldValueInt64 response.headers kContentLength int64Max =
        .ok (body.length : Int) := by
      rw [parseFieldValueInt64, htext]
      exact hvalue
    obtain ⟨data, hdata, ht⟩ :=
      transcript_sized hhead hdelivers hlast hstay hcoding hlength tail
    obtain ⟨houtcome, hcallbacks, hreceives⟩ := run_receive_of_transcript hs hsocket env redirect ht
    exact ⟨⟨houtcome, data, hdata, hcallbacks⟩, hreceives⟩
  · obtain ⟨data, hdata, houtcome, hcallbacks⟩ :=
      transcript_unsized hhead hdelivers hready hclosed hstay hcoding hnone hbound tail
    have ht : transcript s.timeLeft s.info_.isAllowRedirect (rounds ++ last :: tail) (.head []) =
        ⟨.ok (), .onParseHeaderDone response :: data.map .onData ++ [.onDisconnected],
          (transcript s.timeLeft s.info_.isAllowRedirect (rounds ++ last :: tail)
            (.head [])).receives⟩ := by
      rw [← houtcome, ← hcallbacks]
    obtain ⟨hok, hcs, -⟩ := run_receive_of_transcript hs hsocket env redirect ht
    exact ⟨hok, data, hdata, hcs⟩

/-- Pieces that are not empty deliver their concatenation. -/
theorem delivers_pieces (timeLeft : UInt64 → Bool) (pieces : List Bytes) {stream : Bytes}
    (h : ∀ piece ∈ pieces, piece ≠ []) (hstream : pieces.flatten = stream) :
    Delivers timeLeft (pieces.map Round.piece) stream := by
  refine ⟨fun round hround => ?_, by rwa [received_pieces], by rwa [received_pieces]⟩
  obtain ⟨piece, -, rfl⟩ := List.mem_map.mp hround
  exact ⟨rfl, .inl rfl⟩

/-- A response with a length, cut inside its head and inside its body, and one without. -/
theorem receive_plain_response_hello :
    ReportsBody ((receive handOver [.piece (sizedHead.take 20),
        .piece (sizedHead.drop 20 ++ bytes "he"), .piece (bytes "llo")]).run .plain
          (.connected { url := [] })) (headerOf sizedHead) (bytes "hello") ∧
      ReportsBody ((receive handOver [.piece (unsizedHead ++ bytes "hel"), .piece (bytes "lo"),
        .closed]).run .plain (.connected { url := [] })) (headerOf unsizedHead) (bytes "hello") := by
  constructor
  · exact ((receive_plain_response .plain (.connected { url := [] }) (undisturbed_connected _) rfl
      handOver sizedHead (bytes "hello") (headerOf sizedHead) (by rfl) (by rfl) (by decide)
      [.piece (sizedHead.take 20), .piece (sizedHead.drop 20 ++ bytes "he")]
      (.piece (bytes "llo")) []).1 (bytes "5") (by rfl) (by decide)
      (delivers_pieces _ [sizedHead.take 20, sizedHead.drop 20 ++ bytes "he", bytes "llo"]
        (by decide) (by decide)) rfl).1
  · exact (receive_plain_response .plain (.connected { url := [] }) (undisturbed_connected _) rfl
      handOver unsizedHead (bytes "hello") (headerOf unsizedHead) (by rfl) (by rfl) (by decide)
      [.piece (unsizedHead ++ bytes "hel"), .piece (bytes "lo")] .closed []).2 (by rfl) (by decide)
      (delivers_pieces _ [unsizedHead ++ bytes "hel", bytes "lo"] (by decide) (by decide)) rfl
      (.inr rfl)

/-- A piece of zeros. -/
def zeros (k : Nat) : Bytes := List.replicate k 0

/-- The pieces of a body that has the largest length when `n` is `2 ^ 51 - 1`: `n` pieces that fill the
read buffer and one that is a byte shorter. -/
def longestPieces (n : Nat) : List Bytes := List.replicate n (zeros 4096) ++ [zeros 4095]

/-- The number of bytes in the pieces. -/
theorem length_longestPieces (n : Nat) : (longestPieces n).flatten.length = n * 4096 + 4095 := by
  rw [longestPieces, List.flatten_append, List.length_append, zeros,
    List.flatten_replicate_replicate, List.length_replicate, List.flatten_singleton, zeros,
    List.length_replicate]

/-- None of the pieces is empty. -/
theorem longestPieces_ne_nil {n : Nat} {piece : Bytes} (h : piece ∈ longestPieces n) :
    piece ≠ [] := by
  have hpos : ∀ k, 0 < k → zeros k ≠ [] := by
    intro k hk hnil
    have hlen := congrArg List.length hnil
    rw [zeros, List.length_replicate] at hlen
    exact absurd hlen hk.ne'
  rcases List.mem_append.mp h with h | h
  · rw [List.eq_of_mem_replicate h]
    exact hpos 4096 (by decide)
  · rw [List.mem_singleton.mp h]
    exact hpos 4095 (by decide)

/-- Without a length, the receiver ends by itself once the largest length has arrived. -/
theorem transcript_overlong {timeLeft : UInt64 → Bool} {n : Nat}
    (hn : n * 4096 + 4095 = 2 ^ 63 - 1) (tail : List Round) :
    ∃ k, transcript timeLeft true
        (Round.piece unsizedHead :: ((longestPieces n).map Round.piece ++ tail)) (.head []) =
      ⟨.ok (), Callback.onParseHeaderDone (headerOf unsizedHead) ::
        (longestPieces n).map Callback.onData ++ [Callback.onDisconnected], k⟩ := by
  have htake : (Phase.head []).take true unsizedHead =
      ⟨some (headerOf unsizedHead), [], .more (.plain int64Max 0)⟩ := by rfl
  have hflows : (Round.piece unsizedHead).Flows timeLeft := ⟨rfl, .inl rfl⟩
  have hlen := length_longestPieces n
  have hfull : 0 + ((longestPieces n).flatten.length : Int) = int64Max := by
    rw [hlen, hn]
    decide
  have hne : (longestPieces n).flatten ≠ [] := by
    rw [← List.length_pos_iff, hlen]
    omega
  obtain ⟨k, hk⟩ := transcript_plain_full
    (delivers_pieces timeLeft (longestPieces n) (fun _ => longestPieces_ne_nil) rfl) hne hfull true tail
  refine ⟨1 + k, ?_⟩
  rw [transcript_success hflows rfl]
  show (((Phase.head []).take true unsizedHead).exit.transcript _).prepend
    ((Phase.head []).take true unsizedHead).callbacks 1 = _
  rw [htake]
  dsimp only [Exit.transcript]
  rw [hk, received_pieces]
  rfl

/-- Bodies longer than the largest length are cut off although the peer has not closed. -/
theorem receive_overlong_response :
    Delivers (State.connected { url := [] }).timeLeft
        ((unsizedHead :: (longestPieces (2 ^ 51 - 1) ++ [[0]])).map .piece)
        (unsizedHead ++ (longestPieces (2 ^ 51 - 1) ++ [[0]]).flatten) ∧
      ParsesTo unsizedHead (headerOf unsizedHead) ∧
      (headerOf unsizedHead).isNeedRedirect = false ∧
      (headerOf unsizedHead).headers.lookup kTransferEncoding = none ∧
      (headerOf unsizedHead).headers.lookup kContentLength = none ∧
      ¬ ReportsBody
        ((receive handOver ((unsizedHead :: (longestPieces (2 ^ 51 - 1) ++ [[0]])).map .piece ++
          [.closed])).run .plain (.connected { url := [] }))
        (headerOf unsizedHead) (longestPieces (2 ^ 51 - 1) ++ [[0]]).flatten := by
  refine ⟨delivers_pieces _ _ ?_ List.flatten_cons, by rfl, by rfl, by rfl, by rfl, ?_⟩
  · intro piece hpiece
    rcases List.mem_cons.mp hpiece with rfl | hpiece
    · decide
    · rcases List.mem_append.mp hpiece with h | h
      · exact longestPieces_ne_nil h
      · rw [List.mem_singleton.mp h]
        decide
  · rintro ⟨-, data, hdata, hcallbacks⟩
    have hn : (2 ^ 51 - 1) * 4096 + 4095 = 2 ^ 63 - 1 := by norm_num
    -- the pieces are too many to be listed: only their total length is used
    generalize 2 ^ 51 - 1 = n at hn hdata hcallbacks
    obtain ⟨k, hk⟩ :=
      @transcript_overlong (State.connected { url := [] }).timeLeft n hn [.piece [0], .closed]
    have hrounds : (unsizedHead :: (longestPieces n ++ [[0]])).map Round.piece ++ [Round.closed] =
        Round.piece unsizedHead :: ((longestPieces n).map Round.piece ++ [Round.piece [0], Round.closed]) := by
      simp
    rw [hrounds, (run_receive_of_transcript (undisturbed_connected _) rfl .plain handOver hk).2.1]
      at hcallbacks
    -- the run ended at the limit, and the byte behind it was never handed over
    have hmap : (longestPieces n).map Callback.onData = data.map .onData :=
      List.append_cancel_right (List.cons.inj hcallbacks).2
    have hinj : Function.Injective Callback.onData := fun _ _ h => Callback.onData.inj h
    rw [← List.map_injective_iff.mpr hinj hmap, List.flatten_append] at hdata
    have hlen := congrArg List.length hdata
    rw [List.length_append, List.flatten_singleton, List.length_singleton] at hlen
    omega

end HttpRequest
