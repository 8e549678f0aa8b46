import HttpRequest.HeadLines
import HttpRequest.Receiver.HandOver
import HttpRequest.Receiver.Pieces
import HttpRequest.Receiver.SizeLines

/-! # When `receive` is left by an exception

`receive` is `noexcept`, and so are its callers. This file says of which streams, in which pieces, every
run of it stays clear of exceptions and memory errors (`neverFaults_iff`): those in which every
number it reads is one (`Numbered`). A run that leaves by a fault does so without an error callback. -/

namespace HttpRequest

open Foundations

/-! ### The numbers of a stream -/

/-- The numbers behind a status line. Unless it is a redirect that is followed, a length that is
announced is a number, and in a body announced as chunked so is every size line. -/
def FieldsNumbered (allowRedirect : Bool) (line : Bytes) (lines body : List Bytes) : Prop :=
  ¬ (allowRedirect = true ∧ (statusOf line = HttpStatusCode.MovedPermanently ∨
      statusOf line = HttpStatusCode.Found)) →
    (∀ text, lastField kContentLength (line :: lines) = some text → ∃ n, stoll text = .ok n) ∧
    (lastField kTransferEncoding (line :: lines) = some kChunked →
      ∀ size, SizeLine (-1) body size → ∃ n, stolHex size = .ok n)

/-- The pieces hold a number wherever the receiver reads one: once the head is complete it has a line, the
first line can be read, and there are numbers behind it. -/
def Numbered (allowRedirect : Bool) (pieces : List Bytes) : Prop :=
  ∀ pos, find kHeaderEnd pieces.flatten = some pos →
    ∃ line lines, StringUtil.split (pieces.flatten.take pos) kCRLF = line :: lines ∧
      StatusReads line ∧
      FieldsNumbered allowRedirect line lines (dropFront (pos + kHeaderEnd.length) pieces)

/-! ### Faults of the machine -/

/-- An exit by a fault. -/
def Exit.Crashed (exit : Exit) : Prop := ∃ fault, exit = .crashed fault

/-- An exit by no fault. -/
theorem Exit.not_crashed {exit : Exit} (h : ∀ fault, exit ≠ .crashed fault) : ¬ exit.Crashed := by
  rintro ⟨fault, hfault⟩
  exact h fault hfault

/-- A body that is not chunked is complete or goes on. -/
theorem exit_plain (allowRedirect : Bool) (contentLength recvLength : Int) (pieces : List Bytes) :
    ((Phase.plain contentLength recvLength).takeAll allowRedirect pieces).2 = .finished ∨
      ∃ recvLength', ((Phase.plain contentLength recvLength).takeAll allowRedirect pieces).2 =
        .more (.plain contentLength recvLength') := by
  induction pieces generalizing recvLength with
  | nil => exact .inr ⟨recvLength, rfl⟩
  | cons piece pieces ih =>
    by_cases hle : contentLength ≤ recvLength + piece.length
    · have hexit : ((Phase.plain contentLength recvLength).take allowRedirect piece).exit =
          .finished := by rw [take_plain, takeBody_of_le hle]
      rw [takeAll_of_end (by rw [hexit]; exact fun _ => Exit.noConfusion), hexit]
      exact .inl rfl
    · have hexit : ((Phase.plain contentLength recvLength).take allowRedirect piece).exit =
          .more (.plain contentLength (recvLength + piece.length)) := by
        rw [take_plain, takeBody_of_lt (by omega)]
      rw [takeAll_of_more hexit]
      exact ih _

/-- A body that is not chunked leads to no fault. -/
theorem not_crashed_plain (allowRedirect : Bool) (contentLength recvLength : Int)
    (pieces : List Bytes) :
    ¬ ((Phase.plain contentLength recvLength).takeAll allowRedirect pieces).2.Crashed := by
  rintro ⟨fault, hfault⟩
  rcases exit_plain allowRedirect contentLength recvLength pieces with h | ⟨_, h⟩
  · cases hfault.symm.trans h
  · cases hfault.symm.trans h

/-- A chunked body leads to a fault exactly when one of its size lines is no number. -/
theorem crashed_chunked_iff (allowRedirect : Bool) (chunkSize : Int) (pieces : List Bytes) :
    ((Phase.chunked chunkSize).takeAll allowRedirect pieces).2.Crashed ↔
      ∃ line, SizeLine chunkSize pieces line ∧ ∃ fault, stolHex line = .error fault := by
  induction pieces generalizing chunkSize with
  | nil =>
    refine iff_of_false ?_ fun ⟨line, hline, _⟩ => not_sizeLine_nil hline
    rintro ⟨fault, hfault⟩
    cases hfault
  | cons piece pieces ih =>
    have hlines := fun line => sizeLine_cons chunkSize piece line pieces
    simp only [hlines, or_and_right, exists_or]
    rw [← decode_crashed_iff]
    have hdecode := decode_exit chunkSize piece
    have hend : (∀ phase', (decode chunkSize piece).2 ≠ .more phase') →
        ((((Phase.chunked chunkSize).takeAll allowRedirect (piece :: pieces)).2.Crashed) ↔
          ((∃ fault, (decode chunkSize piece).2 = .crashed fault) ∨
            ∃ line, (∃ chunkSize', (decode chunkSize piece).2 = .more (.chunked chunkSize') ∧
              SizeLine chunkSize' pieces line) ∧ ∃ fault, stolHex line = .error fault)) := by
      intro hmore
      rw [takeAll_of_end (by rw [take_chunked]; exact hmore), take_chunked]
      constructor
      · exact .inl
      · rintro (h | ⟨line, ⟨chunkSize', hmore', -⟩, -⟩)
        · exact h
        · exact absurd hmore' (hmore _)
    cases hexit : (decode chunkSize piece).2 with
    | more phase =>
      rw [hexit] at hdecode
      cases phase with
      | head buffer => exact absurd hdecode id
      | plain contentLength recvLength => exact absurd hdecode id
      | chunked chunkSize' =>
        rw [takeAll_of_more (by rw [take_chunked]; exact hexit)]
        simp [ih chunkSize']
    | finished => exact hexit ▸ hend (by rw [hexit]; exact fun _ => Exit.noConfusion)
    | failed code errorCode => exact hexit ▸ hend (by rw [hexit]; exact fun _ => Exit.noConfusion)
    | redirected url => exact hexit ▸ hend (by rw [hexit]; exact fun _ => Exit.noConfusion)
    | crashed fault => exact hexit ▸ hend (by rw [hexit]; exact fun _ => Exit.noConfusion)

/-- A field's number faults unless its text, where there is one, is a number. -/
theorem parseFieldValueInt64_error_iff (headers : HeaderMap) (key : Bytes) (value : Int) :
    (∃ fault, parseFieldValueInt64 headers key value = .error fault) ↔
      ¬ ∀ text, headers.lookup key = some text → ∃ n, stoll text = .ok n := by
  rw [parseFieldValueInt64]
  cases headers.lookup key with
  | none => simp
  | some text =>
    dsimp only
    cases hnum : stoll text with
    | error fault => simp [hnum]
    | ok n => simp [hnum]

/-- Whether a redirect is followed depends on the status code of the first line. -/
theorem followed_iff (allowRedirect : Bool) {response : ResponseHeader} {line : Bytes}
    (hcode : response.httpStatusCode = statusOf line) :
    (response.isNeedRedirect && allowRedirect) = true ↔ (allowRedirect = true ∧
      (statusOf line = HttpStatusCode.MovedPermanently ∨ statusOf line = HttpStatusCode.Found)) := by
  rw [ResponseHeader.isNeedRedirect, hcode, Bool.and_eq_true, Bool.or_eq_true, beq_iff_eq,
    beq_iff_eq, and_comm]

/-- Behind a head that was parsed. -/
theorem crashed_fields_iff (allowRedirect : Bool) {response : ResponseHeader} {line : Bytes}
    {lines : List Bytes} (body : List Bytes) (hcode : response.httpStatusCode = statusOf line)
    (hlookup : ∀ key, key ≠ kVersion →
      response.headers.lookup key = lastField key (line :: lines)) :
    (afterHead allowRedirect response body).2.Crashed ↔
      ¬ FieldsNumbered allowRedirect line lines body := by
  rw [FieldsNumbered, ← followed_iff allowRedirect hcode, ← hlookup kContentLength (by decide),
    ← hlookup kTransferEncoding (by decide), afterHead]
  by_cases h : (response.isNeedRedirect && allowRedirect) = true
  · rw [if_pos h]
    refine iff_of_false ?_ (not_not_intro fun hnot => absurd h hnot)
    rintro ⟨fault, hfault⟩
    cases hfault
  rw [if_neg h, Classical.not_imp, and_iff_right h]
  have hlength := parseFieldValueInt64_error_iff response.headers kContentLength int64Max
  cases hnum : parseFieldValueInt64 response.headers kContentLength int64Max with
  | error fault =>
    rw [hnum] at hlength
    exact iff_of_true ⟨fault, rfl⟩ fun hall => hlength.mp ⟨fault, rfl⟩ hall.1
  | ok contentLength =>
    rw [hnum] at hlength
    have hnumber := not_not.mp fun hnot => absurd (hlength.mpr hnot) (by simp)
    dsimp only
    rw [not_and_or, or_iff_right (not_not_intro hnumber)]
    by_cases hcoding : response.headers.lookup kTransferEncoding = some kChunked
    · rw [ofHead_chunked hcoding, crashed_chunked_iff, Classical.not_imp, and_iff_right hcoding]
      push Not
      refine exists_congr fun size => and_congr_right fun _ => ?_
      cases stolHex size with
      | error fault => simp
      | ok n => simp
    · rw [ofHead_plain hcoding]
      exact iff_of_false (not_crashed_plain _ _ _ _) (not_not_intro fun h => absurd h hcoding)

/-- **The machine is left by a fault exactly when some number cannot be read.** -/
theorem crashed_iff_not_numbered (allowRedirect : Bool) (pieces : List Bytes) :
    ((Phase.head []).takeAll allowRedirect pieces).2.Crashed ↔ ¬ Numbered allowRedirect pieces := by
  rw [takeAll_head allowRedirect (by decide), List.nil_append, Numbered]
  cases hpos : find kHeaderEnd pieces.flatten with
  | none =>
    refine iff_of_false ?_ (not_not_intro fun _ h => by cases h)
    rintro ⟨fault, hfault⟩
    cases hfault
  | some pos =>
    simp only [List.length_nil, Nat.sub_zero, Option.some.injEq, forall_eq']
    rw [behindHead]
    rcases parseHeaderView_cases (pieces.flatten.take pos) with
      ⟨⟨fault, hfault⟩, hnone⟩ | ⟨response, line, lines, hok, hsplit, hreads, hcode, hlookup⟩
    · rw [hfault]
      refine iff_of_true ⟨fault, rfl⟩ ?_
      rintro ⟨line, lines, hsplit, hreads, -⟩
      exact hnone line lines hsplit hreads
    · have hcrash := crashed_fields_iff allowRedirect
        (dropFront (pos + kHeaderEnd.length) pieces) hcode hlookup
      rw [hok, hsplit]
      refine hcrash.trans (not_congr ⟨fun h => ⟨line, lines, rfl, hreads, h⟩, ?_⟩)
      rintro ⟨line', lines', heq, -, h⟩
      obtain ⟨rfl, rfl⟩ := List.cons.inj heq
      exact h

/-! ### Runs without a fault -/

/-- A stop other than by a fault. -/
def Stop.Safe (stop : Stop) (_ : State) : Prop := ∀ fault, stop ≠ .fault fault

/-- A receiver that has its socket. -/
def Ready (allowRedirect : Bool) (s : State) : Prop :=
  s.socket_.isSome = true ∧ s.info_.isAllowRedirect = allowRedirect

/-- The start of a step leaves the receiver its socket. -/
theorem steady_ready (allowRedirect : Bool) : Steady (Ready allowRedirect) := by
  refine ⟨fun s hs => ?_, fun _ _ hs => hs⟩
  rw [State.tick]
  split
  · exact hs
  · exact hs
  · exact hs

/-- A receiver that has its socket follows no null pointer. -/
theorem Ready.callSocket (allowRedirect : Bool) (call : Call) :
    Program.Keeps (Ready allowRedirect) Stop.Safe (fun _ => True) (callSocket call) := by
  refine (steady_ready allowRedirect).callSocket routine_true (fun s hs hnone => ?_) trivial
  rw [Ready, hnone] at hs
  cases hs.1

/-- A guard that gives up after a program that is safe in every state. -/
theorem safe_refuse {m : Worker Unit} (hm : Program.Keeps (fun _ => True) Stop.Safe (fun _ => True) m)
    (allowRedirect : Bool) :
    Program.Triple (Ready allowRedirect) (do m; pure false : Worker Bool)
      (fun receivable s => receivable = true → Ready allowRedirect s) Stop.Safe fun _ => True := by
  have htriple : Program.Triple (fun _ => True) m (fun _ _ => True) Stop.Safe fun _ => True := hm
  refine Program.Triple.bind (htriple.conseq (fun _ _ => trivial) (fun _ _ h => h) (fun _ _ h => h)
    fun _ h => h) fun _ => ?_
  exact Program.Triple.pure fun _ _ h => by cases h

/-- `isReceivable` is safe, and the socket is still there when it lets its caller go on. -/
theorem safe_isReceivable (allowRedirect : Bool) (waits : List WaitReply) :
    Program.Triple (Ready allowRedirect) (isReceivable waits)
      (fun receivable s => receivable = true → Ready allowRedirect s) Stop.Safe fun _ => True := by
  have h := steady_ready allowRedirect
  have hrefuse := safe_refuse (lasting_true.disconnected routine_true) allowRedirect
  induction waits with
  | nil =>
    refine Program.Triple.bind (h.loadValid routine_true) fun _ => .ite hrefuse ?_
    refine Program.Triple.bind keeps_getRemainTime fun _ => ?_
    refine Program.Triple.bind (Ready.callSocket _ _) fun _ => ?_
    exact Program.Triple.stop fun _ _ _ => Stop.noConfusion
  | cons canReceive waits ih =>
    refine Program.Triple.bind (h.loadValid routine_true) fun _ => .ite hrefuse ?_
    refine Program.Triple.bind keeps_getRemainTime fun _ => ?_
    refine Program.Triple.bind (Ready.callSocket _ _) fun _ => ?_
    refine Program.Triple.bind (h.returnAt routine_true _) fun _ => .ite (.pure fun _ hs _ => hs) ?_
    refine Program.Triple.bind keeps_getRemainTime fun _ => .ite ih ?_
    exact safe_refuse (lasting_true.handleErrorResponse routine_true _ _) allowRedirect

/-- Acting on an exit that is not a fault is safe, and the socket is still there when it goes on. -/
theorem safe_perform (allowRedirect : Bool) {exit : Exit} (hexit : ¬ exit.Crashed) :
    Program.Triple (Ready allowRedirect) (exit.perform handOver)
      (fun next s => ∀ phase, next = some phase → exit = .more phase ∧ Ready allowRedirect s)
      Stop.Safe fun _ => True := by
  have hend : ∀ m : Worker Unit, Program.Keeps (fun _ => True) Stop.Safe (fun _ => True) m →
      Program.Triple (Ready allowRedirect) (do m; pure none : Worker (Option Phase))
        (fun next s => ∀ phase, next = some phase → exit = .more phase ∧ Ready allowRedirect s)
        Stop.Safe fun _ => True := by
    intro m hm
    have htriple : Program.Triple (fun _ => True) m (fun _ _ => True) Stop.Safe fun _ => True := hm
    refine Program.Triple.bind (htriple.conseq (fun _ _ => trivial) (fun _ _ h => h) (fun _ _ h => h)
      fun _ h => h) fun _ => ?_
    exact Program.Triple.pure fun _ _ _ h => by cases h
  cases exit with
  | more phase =>
    refine Program.Triple.pure fun s hs phase' h => ?_
    cases h
    exact ⟨rfl, hs⟩
  | finished => exact hend _ (lasting_true.disconnected routine_true)
  | failed code errorCode => exact hend _ (lasting_true.handleErrorResponse routine_true _ _)
  | redirected url => exact hend _ (.stop fun _ _ _ => Stop.noConfusion)
  | crashed fault => exact absurd ⟨fault, rfl⟩ hexit

/-- A pass is safe when its reaction is not a fault. -/
theorem safe_receiverPass {allowRedirect : Bool} {phase : Phase} {reply : ReceiveReply}
    (hexit : ¬ (phase.react allowRedirect reply).exit.Crashed) :
    Program.Triple (Ready allowRedirect) (receiverPass handOver phase reply)
      (fun next s => ∀ phase', next = some phase' →
        (phase.react allowRedirect reply).exit = .more phase' ∧ Ready allowRedirect s)
      Stop.Safe fun _ => True := by
  have h := steady_ready allowRedirect
  refine Program.Triple.bind (Ready.callSocket _ _) fun _ => ?_
  refine Program.Triple.bind (h.returnAt routine_true _) fun _ => ?_
  refine Program.Triple.bind (Program.Triple.state
    (Q := fun s t => s.info_.isAllowRedirect = allowRedirect ∧ Ready allowRedirect t)
    fun s hs => ⟨hs.2, hs⟩) fun s => ?_
  by_cases hs : s.info_.isAllowRedirect = allowRedirect
  · rw [hs]
    refine Program.Triple.bind (Program.Triple.conseq (h.announce routine_true _) (fun _ h => h.2)
      (fun _ _ h => h) (fun _ _ h => h) fun _ h => h) fun _ => ?_
    exact Program.Triple.bind (h.deliver routine_true _) fun _ => safe_perform allowRedirect hexit
  · exact fun env t ht => absurd ht.1 hs

/-- What is clear of faults over a script is so over its first pass and over the others. -/
theorem not_crashed_cons {allowRedirect : Bool} {phase : Phase} {round : Round} {rounds : List Round}
    (h : ¬ (phase.takeAll allowRedirect (received (round :: rounds))).2.Crashed) :
    ¬ (phase.react allowRedirect round.reply).exit.Crashed ∧
      ∀ phase', (phase.react allowRedirect round.reply).exit = .more phase' →
        ¬ (phase'.takeAll allowRedirect (received rounds)).2.Crashed := by
  rw [Phase.react]
  cases hsuccess : round.reply.result.isSuccess with
  | true =>
    rw [received_cons_success hsuccess] at h
    rw [if_pos rfl]
    constructor
    · rintro ⟨fault, hfault⟩
      rw [takeAll_of_end (by rw [hfault]; exact fun _ => Exit.noConfusion)] at h
      exact h ⟨fault, hfault⟩
    · intro phase' hmore
      rw [takeAll_of_more hmore] at h
      exact h
  | false =>
    rw [received_cons_retry hsuccess] at h
    rw [if_neg Bool.false_ne_true]
    split
    · refine ⟨Exit.not_crashed fun _ => Exit.noConfusion, fun phase' hmore => ?_⟩
      cases hmore
      exact h
    · split
      · exact ⟨Exit.not_crashed fun _ => Exit.noConfusion, fun phase' hmore => by cases hmore⟩
      · exact ⟨Exit.not_crashed fun _ => Exit.noConfusion, fun phase' hmore => by cases hmore⟩

/-- **A receiver whose pieces lead to no fault is safe**, whatever its callbacks are and whenever
`cancel()` is called. -/
theorem safe_receiver (allowRedirect : Bool) (rounds : List Round) (phase : Phase)
    (h : ¬ (phase.takeAll allowRedirect (received rounds)).2.Crashed) :
    Program.Triple (Ready allowRedirect) (receiver handOver rounds phase) (fun _ _ => True)
      Stop.Safe fun _ => True := by
  induction rounds generalizing phase with
  | nil =>
    exact Program.Triple.bind (safe_isReceivable allowRedirect []) fun _ => .pure fun _ _ => trivial
  | cons round rounds ih =>
    obtain ⟨hexit, hrest⟩ := not_crashed_cons h
    refine Program.Triple.bind (safe_isReceivable allowRedirect round.waits) fun receivable => ?_
    cases receivable with
    | false => exact Program.Triple.pure fun _ _ => trivial
    | true =>
      refine Program.Triple.bind (Program.Triple.conseq (safe_receiverPass hexit) (fun _ h => h rfl)
        (fun _ _ h => h) (fun _ _ h => h) fun _ h => h) fun next => ?_
      cases next with
      | none => exact Program.Triple.pure fun _ _ => trivial
      | some phase' =>
        intro env s hs
        obtain ⟨hmore, hready⟩ := hs phase' rfl
        exact ih phase' (hrest phase' hmore) env s hready

/-- The run in which every wait is over at once meets the fault. -/
theorem run_pieces_of_crashed {allowRedirect : Bool} {pieces : List Bytes} {fault : Fault}
    (h : ((Phase.head []).takeAll allowRedirect pieces).2 = .crashed fault) :
    ((receive handOver (pieces.map Round.piece)).run .plain
      (.connected { url := [], isAllowRedirect := allowRedirect })).outcome = .error (.fault fault) := by
  have hflows : ∀ round ∈ pieces.map Round.piece, round.Flows
      (State.connected { url := [], isAllowRedirect := allowRedirect }).timeLeft := by
    intro round hround
    obtain ⟨piece, -, rfl⟩ := List.mem_map.mp hround
    exact flows_piece _ piece
  obtain ⟨n, hn⟩ := transcript_of_flows allowRedirect hflows (.head [])
  have hof := congrArg Transcript.outcome (transcript_receive .plain (pieces.map Round.piece)
    (undisturbed_connected { url := [], isAllowRedirect := allowRedirect }) rfl)
  refine hof.trans ?_
  show (transcript _ allowRedirect _ _).outcome = _
  rw [hn, received_pieces, h]
  rfl

/-- **Clear of faults**: no run of `receive` over the pieces is left by an exception or a memory error, whatever
its callbacks are, whenever `cancel()` is called and however the socket makes it wait. -/
def NeverFaults (allowRedirect : Bool) (pieces : List Bytes) : Prop :=
  ∀ (env : Env) (s : State) (rounds : List Round), s.socket_.isSome = true →
    s.info_.isAllowRedirect = allowRedirect → received rounds = pieces →
    ∀ fault, ((receive handOver rounds).run env s).outcome ≠ .error (.fault fault)

/-- **When `receive` is clear of faults**: when the pieces hold a number wherever the receiver reads one. -/
theorem neverFaults_iff (allowRedirect : Bool) (pieces : List Bytes) :
    NeverFaults allowRedirect pieces ↔ Numbered allowRedirect pieces := by
  rw [← not_iff_not, ← crashed_iff_not_numbered]
  constructor
  · intro h
    by_contra hsafe
    refine h fun env s rounds hsocket hallow hpieces fault hfault => ?_
    have hrun := (safe_receiver allowRedirect rounds (.head []) (hpieces ▸ hsafe) env s
      ⟨hsocket, hallow⟩).1
    rw [← receive_eq_receiver, hfault] at hrun
    exact hrun fault rfl
  · rintro ⟨fault, hfault⟩ h
    exact h .plain (.connected { url := [], isAllowRedirect := allowRedirect })
      (pieces.map Round.piece) rfl rfl (received_pieces pieces) fault (run_pieces_of_crashed hfault)

/-- A chunked body cut between a payload and its line break. -/
theorem transcript_cut_chunk (timeLeft : UInt64 → Bool) :
    transcript timeLeft true [.piece (chunkedHead ++ bytes "2\r\nab"), .piece (bytes "\r\n0\r\n\r\n")]
        (.head []) =
      ⟨.error (.fault .invalidArgument),
        [.onParseHeaderDone (headerOf chunkedHead), .onData (bytes "ab")], 2⟩ := by
  have hfirst : decode (-1) (bytes "2\r\nab") = ([bytes "ab"], .more (.chunked 0)) := by
    have hline : find kCRLF (bytes "2\r\nab") = some 1 := by decide
    have hsize : stolHex ((bytes "2\r\nab").take 1) = .ok 2 := by decide
    rw [decode_of_size (by decide) hline hsize (by decide)]
    show decode 2 (bytes "ab") = _
    rw [decode_of_pos (by decide) (by decide)]
    show (bytes "ab" :: (decode 0 []).1, (decode 0 []).2) = _
    rw [decode_nil]
  have hsecond : decode 0 (bytes "\r\n0\r\n\r\n") = ([], .crashed .invalidArgument) :=
    have hline : find kCRLF (bytes "\r\n0\r\n\r\n") = some 0 := by decide
    decode_of_error (by decide) hline (by decide)
  have htake : (Phase.head []).take true (chunkedHead ++ bytes "2\r\nab") =
      ⟨some (headerOf chunkedHead), [bytes "ab"], .more (.chunked 0)⟩ := by
    show (⟨some (headerOf chunkedHead), (decode (-1) (bytes "2\r\nab")).1,
      (decode (-1) (bytes "2\r\nab")).2⟩ : Reaction) = _
    rw [hfirst]
  have hlast : transcript timeLeft true [.piece (bytes "\r\n0\r\n\r\n")] (.chunked 0) =
      ⟨.error (.fault .invalidArgument), [], 1⟩ := by
    rw [transcript_success (flows_piece _ _) rfl, take_chunked]
    show ((decode 0 (bytes "\r\n0\r\n\r\n")).2.transcript _).prepend
      (⟨none, (decode 0 (bytes "\r\n0\r\n\r\n")).1, .finished⟩ : Reaction).callbacks 1 = _
    rw [hsecond]
    rfl
  rw [transcript_success (flows_piece _ _) rfl]
  show (((Phase.head []).take true (chunkedHead ++ bytes "2\r\nab")).exit.transcript _).prepend
    ((Phase.head []).take true (chunkedHead ++ bytes "2\r\nab")).callbacks 1 = _
  rw [htake, Exit.transcript, hlast]
  rfl

end HttpRequest
