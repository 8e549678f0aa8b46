import HttpRequest.Messages.Lines
import HttpRequest.Receiver.HandOver
import HttpRequest.Receiver.Pieces

/-! # The letter case of field names

Field names are case-insensitive; the receiver looks its three fields up by their exact names. Of two
responses that differ in the letter case of field names only it sees the same exactly when the two heads
agree on these fields, as far as they matter (`caseBlind_iff`). -/

namespace HttpRequest

open Foundations

/-! ### Responses that differ in letter case -/

/-- A line with other letters in its field name, the text in front of its first colon. -/
inductive LineVariant : Bytes → Bytes → Prop
  | same (line : Bytes) : LineVariant line line
  | name {name name' : Bytes} (rest : Bytes) (colon : ':'.toUInt8 ∉ name)
    (letters : name'.map tolower = name.map tolower) :
    LineVariant (name ++ ':'.toUInt8 :: rest) (name' ++ ':'.toUInt8 :: rest)

/-- A response: its lines, each ended by a line break, an empty line, and the body. -/
def responseText (line : Bytes) (lines : List Bytes) (body : Bytes) : Bytes :=
  (line :: lines).flatMap (· ++ kCRLF) ++ kCRLF ++ body

/-- Two scripts that cut what they hand over at the same places, and agree in everything else. -/
structure Round.SameCut (round round' : Round) : Prop where
  waits : round'.waits = round.waits
  result : round'.reply.result = round.reply.result
  now : round'.reply.now = round.reply.now
  length : round'.reply.data.length = round.reply.data.length

/-! ### What is seen of a run -/

/-- A callback without the header it is given. -/
def Callback.masked : Callback → Callback
  | .onParseHeaderDone _ => .onParseHeaderDone {}
  | callback => callback

/-- An event without the header it is given. -/
def Event.masked : Event → Event
  | .callback c => .callback c.masked
  | e => e

/-- A reason to stop; any fault ends the process. -/
def Stop.masked : Stop → Option Stop
  | .fault _ => none
  | stop => some stop

/-- Two runs that make the same callbacks, apart from the header handed over, and end in the same way: they
return, redirect to the same URL, are left by a fault, or wait. -/
structure Alike (r r' : Run State Event Stop Unit) : Prop where
  outcome : r.outcome.mapError Stop.masked = r'.outcome.mapError Stop.masked
  callbacks : (callbacks r.events).map Callback.masked = (callbacks r'.events).map Callback.masked

/-- **Letter case does not matter**: over every body, in all pieces a script can cut the two responses into,
also when it ends too early, and in every state of the worker. -/
def CaseBlind (allowRedirect : Bool) (line : Bytes) (lines lines' : List Bytes) : Prop :=
  ∀ (env : Env) (s : State) (body : Bytes) (rounds rounds' : List Round),
    s.info_.isAllowRedirect = allowRedirect → List.Forall₂ Round.SameCut rounds rounds' →
    (received rounds).flatten <+: responseText line lines body →
    (received rounds').flatten <+: responseText line lines' body →
    Alike ((receive handOver rounds).run env s) ((receive handOver rounds').run env s)

/-! ### What the lookups find -/

/-- The length a head announces, the largest there is if it announces none. -/
def lengthOf (lines : List Bytes) : Except Fault Int :=
  match lastField kContentLength lines with
  | none => .ok int64Max
  | some text => stoll text

/-- Whether a head announces a chunked body. -/
def Chunked (lines : List Bytes) : Prop := lastField kTransferEncoding lines = some kChunked

/-- Two heads announce the same body: none that can be read, a chunked one, or one of the same length. -/
def SameBody (lines lines' : List Bytes) : Prop :=
  match lengthOf lines, lengthOf lines' with
  | .error _, .error _ => True
  | .ok n, .ok n' => (Chunked lines ↔ Chunked lines') ∧ (Chunked lines ∨ max n 0 = max n' 0)
  | _, _ => False

/-- The redirects that are followed. -/
def Follows (allowRedirect : Bool) (line : Bytes) : Prop :=
  allowRedirect = true ∧ (statusOf line = HttpStatusCode.MovedPermanently ∨
    statusOf line = HttpStatusCode.Found)

instance (allowRedirect : Bool) (line : Bytes) : Decidable (Follows allowRedirect line) :=
  inferInstanceAs (Decidable (_ ∧ _))

/-- **Two heads agree on the fields that matter**, under their exact names: on the location of a redirect
that is followed, else on the body they announce. A status line that cannot be read makes all fields
irrelevant. -/
def Agree (allowRedirect : Bool) (line : Bytes) (lines lines' : List Bytes) : Prop :=
  StatusReads line →
    (Follows allowRedirect line → (lastField kLocation (line :: lines)).getD [] =
      (lastField kLocation (line :: lines')).getD []) ∧
    (¬Follows allowRedirect line → SameBody (line :: lines) (line :: lines'))

/-! ### Lines and their variants -/

namespace LineVariant

variable {line line' : Bytes}

/-- Other letters are as many. -/
theorem length_eq (h : LineVariant line line') : line'.length = line.length := by
  cases h with
  | same => rfl
  | name rest colon letters =>
    rw [List.length_append, List.length_append, length_of_letters letters]

/-- A line with other letters fits in a line. -/
theorem isLine (h : LineVariant line line') (hline : IsLine line) : IsLine line' := by
  cases h with
  | same => exact hline
  | name rest colon letters =>
    have hcr : (13 : UInt8) ∈ _ ↔ _ := mem_of_letters letters (by decide) (by decide)
    have hlf : (10 : UInt8) ∈ _ ↔ _ := mem_of_letters letters (by decide) (by decide)
    unfold IsLine at hline ⊢
    rw [List.mem_append, List.mem_append] at hline ⊢
    rwa [hcr, hlf]

/-- A line with other letters is not empty. -/
theorem ne_nil (h : LineVariant line line') (hline : line ≠ []) : line' ≠ [] := by
  rw [← List.length_pos_iff, h.length_eq, List.length_pos_iff]
  exact hline

end LineVariant

/-- The two heads are equally long. -/
theorem length_joinLines (line : Bytes) {lines lines' : List Bytes}
    (h : List.Forall₂ LineVariant lines lines') :
    (joinLines line lines').length = (joinLines line lines).length := by
  have hflat : ((line :: lines').flatMap (· ++ kCRLF)).length =
      ((line :: lines).flatMap (· ++ kCRLF)).length := by
    induction h with
    | nil => rfl
    | cons hvariant _ ih =>
      simp only [List.flatMap_cons, List.length_append, hvariant.length_eq] at ih ⊢
      omega
  rw [flatMap_lines, flatMap_lines, List.length_append, List.length_append] at hflat
  omega

/-- A response is its lines joined, an empty line and the body. -/
theorem responseText_eq (line : Bytes) (lines : List Bytes) (body : Bytes) :
    responseText line lines body = joinLines line lines ++ kHeaderEnd ++ body := by
  have hend : kHeaderEnd = kCRLF ++ kCRLF := by decide
  rw [responseText, flatMap_lines, hend, List.append_assoc (joinLines line lines)]

/-- The variants of lines are lines. -/
theorem isLine_variants {line : Bytes} {lines lines' : List Bytes}
    (hlines : ∀ l ∈ line :: lines, IsLine l ∧ l ≠ []) (h : List.Forall₂ LineVariant lines lines') :
    ∀ l ∈ line :: lines', IsLine l ∧ l ≠ [] := by
  rw [List.forall_mem_cons] at hlines ⊢
  refine ⟨hlines.1, ?_⟩
  replace hlines := hlines.2
  induction h with
  | nil => exact hlines
  | cons hvariant _ ih =>
    rw [List.forall_mem_cons] at hlines ⊢
    exact ⟨⟨hvariant.isLine hlines.1.1, hvariant.ne_nil hlines.1.2⟩, ih hlines.2⟩

/-! ### What a whole head is read as -/

/-- The reaction to a whole head and the text behind it. -/
def headReaction (allowRedirect : Bool) (head rest : Bytes) : Reaction :=
  match parseHeaderView head {} with
  | .error fault => ⟨none, [], .crashed fault⟩
  | .ok response =>
    if response.isNeedRedirect && allowRedirect then
      ⟨none, [], .redirected ((response.headers.lookup kLocation).getD [])⟩
    else
      match parseFieldValueInt64 response.headers kContentLength int64Max with
      | .error fault => ⟨none, [], .crashed fault⟩
      | .ok contentLength =>
        let body := (Phase.ofHead contentLength
          (parseFieldValueString response.headers kTransferEncoding [])).takeBody rest
        ⟨some response, body.1, body.2⟩

/-- The piece in which a head ends. -/
theorem take_head_of_find {buffer piece : Bytes} {pos : Nat}
    (hpos : find kHeaderEnd (buffer ++ piece) = some pos) (allowRedirect : Bool) :
    (Phase.head buffer).take allowRedirect piece =
      headReaction allowRedirect ((buffer ++ piece).take pos)
        ((buffer ++ piece).drop (pos + kHeaderEnd.length)) := by
  rw [Phase.take, parseResponseHeader_of_find hpos, headReaction]
  cases parseHeaderView ((buffer ++ piece).take pos) {} with
  | error fault => rfl
  | ok response => rfl

section

variable (allowRedirect : Bool) {line : Bytes} {lines : List Bytes}
  (hlines : ∀ l ∈ line :: lines, IsLine l ∧ l ≠ [])

/-- The body a head announces. -/
def bodyPhase (lines : List Bytes) (contentLength : Int) : Phase :=
  Phase.ofHead contentLength ((lastField kTransferEncoding lines).getD [])

include hlines

/-- A status line that cannot be read ends the run in a fault. -/
theorem headReaction_of_not_reads (h : ¬StatusReads line) (rest : Bytes) :
    ∃ fault, headReaction allowRedirect (joinLines line lines) rest = ⟨none, [], .crashed fault⟩ := by
  unfold headReaction
  rcases parseHeaderView_cases (joinLines line lines) with
    ⟨⟨fault, hfault⟩, -⟩ | ⟨response, line', lines', hok, hsplit, hreads, -⟩
  · rw [hfault]
    exact ⟨fault, rfl⟩
  · rw [split_joinLines (isUnbroken_of_isLine hlines)] at hsplit
    obtain ⟨rfl, rfl⟩ := List.cons.inj hsplit
    exact absurd hreads h

/-- A head whose status line can be read is what its lines say. -/
theorem headReaction_of_reads (h : StatusReads line) :
    ∃ header, ∀ rest, headReaction allowRedirect (joinLines line lines) rest =
      if Follows allowRedirect line then
        ⟨none, [], .redirected ((lastField kLocation (line :: lines)).getD [])⟩
      else
        match lengthOf (line :: lines) with
        | .error fault => ⟨none, [], .crashed fault⟩
        | .ok contentLength =>
          ⟨some header, ((bodyPhase (line :: lines) contentLength).takeBody rest).1,
            ((bodyPhase (line :: lines) contentLength).takeBody rest).2⟩ := by
  -- the line reads, so the parser does not fail on it
  rcases parseHeaderView_cases (joinLines line lines) with
    ⟨-, hnone⟩ | ⟨response, line', lines', hok, hsplit, -, hcode, hlookup⟩
  · exact absurd h (hnone line lines (split_joinLines (isUnbroken_of_isLine hlines)))
  rw [split_joinLines (isUnbroken_of_isLine hlines)] at hsplit
  obtain ⟨rfl, rfl⟩ := List.cons.inj hsplit
  have hredirect : (response.isNeedRedirect && allowRedirect) = true ↔ Follows allowRedirect line := by
    rw [ResponseHeader.isNeedRedirect, hcode, Bool.and_eq_true, Bool.or_eq_true, beq_iff_eq,
      beq_iff_eq, Follows, and_comm]
  refine ⟨response, fun rest => ?_⟩
  unfold headReaction
  rw [hok]
  dsimp only
  rw [parseFieldValueInt64, parseFieldValueString, hlookup kLocation (by decide),
    hlookup kContentLength (by decide), hlookup kTransferEncoding (by decide)]
  by_cases hfollows : Follows allowRedirect line
  · rw [if_pos hfollows, if_pos (hredirect.mpr hfollows)]
  · rw [if_neg hfollows, if_neg (mt hredirect.mp hfollows)]
    rfl

end

/-- A head that announces a chunked body. -/
theorem bodyPhase_chunked {lines : List Bytes} (h : Chunked lines) (contentLength : Int) :
    bodyPhase lines contentLength = .chunked (-1) := by
  unfold bodyPhase
  rw [h]
  rfl

/-- A head that does not. -/
theorem bodyPhase_plain {lines : List Bytes} (h : ¬Chunked lines) (contentLength : Int) :
    bodyPhase lines contentLength = .plain contentLength 0 := by
  unfold bodyPhase Phase.ofHead
  unfold Chunked at h
  cases hvalue : lastField kTransferEncoding lines with
  | none => rfl
  | some value =>
    rw [hvalue] at h
    exact if_neg fun heq => h (congrArg some heq)

/-- **Two heads that announce the same body take it in the same way.** -/
theorem takeBody_eq_of_same {lines lines' : List Bytes} {n n' : Int}
    (hchunked : Chunked lines ↔ Chunked lines') (hsize : Chunked lines ∨ max n 0 = max n' 0) (rest : Bytes) :
    (bodyPhase lines n).takeBody rest = (bodyPhase lines' n').takeBody rest := by
  by_cases h : Chunked lines
  · rw [bodyPhase_chunked h, bodyPhase_chunked (hchunked.mp h)]
  · rw [bodyPhase_plain h, bodyPhase_plain (mt hchunked.mpr h)]
    have hmax := hsize.resolve_left h
    rcases le_or_gt n 0 with hn | hn
    · -- neither length is positive: the body is over before it starts
      rw [takeBody_of_le (by omega), takeBody_of_le (by omega)]
    · obtain rfl : n = n' := by omega
      rfl

/-! ### Two runs side by side -/

/-- Two exits that look the same, with related phases behind them. -/
inductive Exit.Twin (R : Phase → Phase → Prop) : Exit → Exit → Prop
  | more {phase phase' : Phase} (h : R phase phase') : Twin R (.more phase) (.more phase')
  | finished : Twin R .finished .finished
  | failed (code : ResultCode) (errorCode : Int) : Twin R (.failed code errorCode) (.failed code errorCode)
  | redirected (url : Bytes) : Twin R (.redirected url) (.redirected url)
  | crashed (fault fault' : Fault) : Twin R (.crashed fault) (.crashed fault')

/-- Two reactions that look the same. -/
structure Reaction.Twin (R : Phase → Phase → Prop) (reaction reaction' : Reaction) : Prop where
  header : reaction.header.isSome = reaction'.header.isSome
  data : reaction.data = reaction'.data
  exit : reaction.exit.Twin R reaction'.exit

section

variable {R : Phase → Phase → Prop} {exit exit' : Exit}

/-- Exits that are equal look the same if the phase behind them is related to itself. -/
theorem Exit.Twin.refl (h : ∀ phase, exit = .more phase → R phase phase) : exit.Twin R exit := by
  cases exit with
  | more phase => exact .more (h phase rfl)
  | finished => exact .finished
  | failed code errorCode => exact .failed code errorCode
  | redirected url => exact .redirected url
  | crashed fault => exact .crashed fault fault

/-- The header handed over is not seen. -/
theorem seen_responseHeader (header header' : ResponseHeader) :
    (responseHeader header).seen Event.masked Stop.masked =
      (responseHeader header').seen Event.masked Stop.masked := by
  unfold responseHeader
  rw [Program.seen_bind, Program.seen_bind]
  congr 1
  funext valid
  rw [Program.seen_bind, Program.seen_bind]
  congr 1
  funext s
  by_cases h : (valid && s.handler_.onParseHeaderDone) = true
  · rw [if_pos h, if_pos h]
    rfl
  · rw [if_neg h, if_neg h]

/-- Two heads handed over look the same. -/
theorem seen_announce {header header' : Option ResponseHeader} (h : header.isSome = header'.isSome) :
    (announce header).seen Event.masked Stop.masked =
      (announce header').seen Event.masked Stop.masked := by
  cases header with
  | none =>
    cases header' with
    | none => rfl
    | some header' => cases h
  | some header =>
    cases header' with
    | none => cases h
    | some header' => exact seen_responseHeader header header'

/-- Exits that look the same are acted on in the same way. -/
theorem sim_exit (h : exit.Twin R exit') :
    Program.Sim (Option.Rel R) ((exit.perform handOver).seen Event.masked Stop.masked)
      ((exit'.perform handOver).seen Event.masked Stop.masked) := by
  cases h with
  | more h => exact Program.Sim.pure (.some h)
  | finished =>
    unfold Exit.perform
    rw [Program.seen_bind]
    exact Program.Sim.bind_left fun _ => Program.Sim.pure .none
  | failed code errorCode =>
    unfold Exit.perform
    rw [Program.seen_bind]
    exact Program.Sim.bind_left fun _ => Program.Sim.pure .none
  | redirected url =>
    unfold Exit.perform
    rw [Program.seen_bind]
    exact Program.Sim.bind_left fun _ => Program.Sim.pure .none
  | crashed fault fault' => exact Program.Sim.stop none

/-- Reactions that look the same are acted on in the same way. -/
theorem sim_perform {reaction reaction' : Reaction} (h : reaction.Twin R reaction') :
    Program.Sim (Option.Rel R) ((reaction.perform handOver).seen Event.masked Stop.masked)
      ((reaction'.perform handOver).seen Event.masked Stop.masked) := by
  unfold Reaction.perform
  simp only [Program.seen_bind]
  rw [seen_announce h.header, h.data]
  exact Program.Sim.bind_left fun _ => Program.Sim.bind_left fun _ => sim_exit h.exit

end

/-! ### Scripts side by side -/

section

variable {rounds rounds' : List Round}

/-- Scripts that cut at the same places hand over pieces of the same lengths. -/
theorem lengths_received (hcut : List.Forall₂ Round.SameCut rounds rounds') :
    (received rounds').map List.length = (received rounds).map List.length := by
  induction hcut with
  | nil => rfl
  | @cons round round' _ _ hround _ ih =>
    cases hsuccess : round.reply.result.isSuccess with
    | true =>
      have hsuccess' : round'.reply.result.isSuccess = true := by rw [hround.result, hsuccess]
      rw [received_cons_success hsuccess, received_cons_success hsuccess', List.map_cons,
        List.map_cons, ih, hround.length]
    | false =>
      have hsuccess' : round'.reply.result.isSuccess = false := by rw [hround.result, hsuccess]
      rw [received_cons_retry hsuccess, received_cons_retry hsuccess', ih]

/-- Pieces of the same lengths with the same text are the same. -/
theorem eq_of_flatten {pieces pieces' : List Bytes}
    (hlength : pieces'.map List.length = pieces.map List.length) (h : pieces'.flatten = pieces.flatten) :
    pieces' = pieces :=
  List.eq_iff_flatten_eq.mpr ⟨h, hlength⟩

/-- Behind heads of the same length, texts of the same length are the same. -/
theorem eq_behind {head head' body text text' rest rest' : Bytes} (hhead : head'.length = head.length)
    (htext : text'.length = text.length) (hle : head.length ≤ text.length)
    (hrest : rest'.length = rest.length) (h : text ++ rest <+: head ++ body)
    (h' : text' ++ rest' <+: head' ++ body) :
    text'.drop head.length = text.drop head.length ∧ rest' = rest := by
  have hdrop := h.drop head.length
  have hdrop' := h'.drop head.length
  rw [List.drop_append_of_le_length hle, List.drop_left] at hdrop
  rw [List.drop_append_of_le_length (htext ▸ hle), ← hhead, List.drop_left, hhead] at hdrop'
  have hlength : (text'.drop head.length ++ rest').length = (text.drop head.length ++ rest).length := by
    rw [List.length_append, List.length_append, List.length_drop, List.length_drop, htext, hrest]
  have heq := (List.prefix_of_prefix_length_le hdrop' hdrop hlength.le).eq_of_length hlength
  exact List.append_inj' heq hrest

/-- How far two runs over the two responses have come: both are in front of the end of the head and have
buffered equally much, or both are behind it in the same phase and have the same pieces before them. -/
inductive InStep (line : Bytes) (lines lines' : List Bytes) (body : Bytes) (rounds rounds' : List Round) :
    Phase → Phase → Prop
  | head {buffer buffer' : Bytes} (length : buffer'.length = buffer.length)
    (text : buffer ++ (received rounds).flatten <+: responseText line lines body)
    (text' : buffer' ++ (received rounds').flatten <+: responseText line lines' body) :
    InStep line lines lines' body rounds rounds' (.head buffer) (.head buffer')
  | behind {phase : Phase} (behind : ∀ buffer, phase ≠ .head buffer)
    (pieces : received rounds' = received rounds) : InStep line lines lines' body rounds rounds' phase phase

end

section

variable {allowRedirect : Bool} {line : Bytes} {lines lines' : List Bytes} {body : Bytes}
  {rounds rounds' : List Round}

/-- In the same phase behind the heads the same piece has the same effect. -/
theorem twin_takeBody {phase : Phase} (hne : ∀ buffer, phase ≠ .head buffer) (piece : Bytes)
    (hpieces : received rounds' = received rounds) :
    (phase.takeBody piece).2.Twin (InStep line lines lines' body rounds rounds') (phase.takeBody piece).2 := by
  have hbehind := takeBody_behind hne piece
  apply Exit.Twin.refl
  intro next hnext
  rw [hnext] at hbehind
  refine .behind ?_ hpieces
  rintro buffer rfl
  exact hbehind

/-- **Two heads that agree have the same effect.** -/
theorem twin_headReaction (hlines : ∀ l ∈ line :: lines, IsLine l ∧ l ≠ [])
    (hlines' : ∀ l ∈ line :: lines', IsLine l ∧ l ≠ []) (hagree : Agree allowRedirect line lines lines')
    (rest : Bytes) (hpieces : received rounds' = received rounds) :
    (headReaction allowRedirect (joinLines line lines) rest).Twin
      (InStep line lines lines' body rounds rounds')
      (headReaction allowRedirect (joinLines line lines') rest) := by
  -- both responses have the same status line, so it reads in both or in neither
  by_cases hreads : StatusReads line
  · obtain ⟨hlocation, hbody⟩ := hagree hreads
    obtain ⟨header, hheader⟩ := headReaction_of_reads allowRedirect hlines hreads
    obtain ⟨header', hheader'⟩ := headReaction_of_reads allowRedirect hlines' hreads
    rw [hheader, hheader']
    -- the status line decides whether the redirect is followed, the fields decide where to
    by_cases hfollows : Follows allowRedirect line
    · rw [if_pos hfollows, if_pos hfollows, hlocation hfollows]
      exact ⟨rfl, rfl, .redirected _⟩
    · rw [if_neg hfollows, if_neg hfollows]
      have hsame := hbody hfollows
      unfold SameBody at hsame
      cases hn : lengthOf (line :: lines) with
      -- both lengths fail to be read, though not always with the same exception
      | error fault =>
        cases hn' : lengthOf (line :: lines') with
        | error fault' => exact ⟨rfl, rfl, .crashed fault fault'⟩
        | ok n' =>
          rw [hn, hn'] at hsame
          exact absurd hsame id
      | ok n =>
        cases hn' : lengthOf (line :: lines') with
        | error fault' =>
          rw [hn, hn'] at hsame
          exact absurd hsame id
        | ok n' =>
          rw [hn, hn'] at hsame
          have htake := takeBody_eq_of_same hsame.1 hsame.2 rest
          dsimp only
          rw [← htake]
          exact ⟨rfl, rfl, twin_takeBody (ofHead_ne_head _ _) rest hpieces⟩
  · obtain ⟨fault, hfault⟩ := headReaction_of_not_reads allowRedirect hlines hreads rest
    obtain ⟨fault', hfault'⟩ :=
      headReaction_of_not_reads allowRedirect hlines' hreads rest
    rw [hfault, hfault']
    exact ⟨rfl, rfl, .crashed fault fault'⟩

/-- The end of the head in what has arrived of a response. -/
theorem find_of_prefix_response (hlines : ∀ l ∈ line :: lines, IsLine l ∧ l ≠ []) {text : Bytes}
    (h : text <+: responseText line lines body) :
    find kHeaderEnd text =
      if (joinLines line lines ++ kHeaderEnd).length ≤ text.length then some (joinLines line lines).length
      else none := by
  rw [responseText_eq] at h
  rw [List.length_append]
  exact find_of_prefix (find_of_dropInfix? (dropInfix?_joinLines (isUnbroken_of_isLine hlines) body)) h

/-- What has arrived of a response, cut behind its head. -/
theorem take_of_prefix_response {text : Bytes} (h : text <+: responseText line lines body)
    (hle : (joinLines line lines ++ kHeaderEnd).length ≤ text.length) :
    text.take (joinLines line lines).length = joinLines line lines := by
  rw [responseText_eq, List.append_assoc] at h
  rw [List.length_append] at hle
  have htake := h.take (joinLines line lines).length
  rw [List.take_left] at htake
  exact htake.eq_of_length (List.length_take_of_le (by omega))

/-- **A piece for each of the two runs.** -/
theorem InStep.take (hlines : ∀ l ∈ line :: lines, IsLine l ∧ l ≠ [])
    (hvariant : List.Forall₂ LineVariant lines lines') (hagree : Agree allowRedirect line lines lines')
    {round round' : Round} (hround : round.SameCut round')
    (hcut : List.Forall₂ Round.SameCut rounds rounds') (hsuccess : round.reply.result.isSuccess = true)
    {phase phase' : Phase}
    (h : InStep line lines lines' body (round :: rounds) (round' :: rounds') phase phase') :
    (phase.take allowRedirect round.reply.data).Twin (InStep line lines lines' body rounds rounds')
      (phase'.take allowRedirect round'.reply.data) := by
  have hlines' := isLine_variants hlines hvariant
  have hsuccess' : round'.reply.result.isSuccess = true := by rw [hround.result, hsuccess]
  -- behind the head the two texts are the same; up to its end they only have the same length
  cases h with
  | behind hne hpieces =>
    rw [received_cons_success hsuccess, received_cons_success hsuccess', List.cons.injEq] at hpieces
    rw [take_of_ne_head hne, take_of_ne_head hne, hpieces.1]
    exact ⟨rfl, rfl, twin_takeBody hne _ hpieces.2⟩
  | @head buffer buffer' hlength htext htext' =>
    rw [received_cons_success hsuccess, List.flatten_cons, ← List.append_assoc] at htext
    rw [received_cons_success hsuccess', List.flatten_cons, ← List.append_assoc] at htext'
    have hjoin := length_joinLines line hvariant
    have hhead : (joinLines line lines' ++ kHeaderEnd).length =
        (joinLines line lines ++ kHeaderEnd).length := by
      rw [List.length_append, List.length_append, hjoin]
    have hpiece : (buffer' ++ round'.reply.data).length = (buffer ++ round.reply.data).length := by
      rw [List.length_append, List.length_append, hlength, hround.length]
    have hfront := (List.prefix_append _ _).trans htext
    have hfront' := (List.prefix_append _ _).trans htext'
    have hfind := find_of_prefix_response hlines hfront
    have hfind' := find_of_prefix_response hlines' hfront'
    rw [hhead, hpiece] at hfind'
    by_cases hle : (joinLines line lines ++ kHeaderEnd).length ≤ (buffer ++ round.reply.data).length
    · -- the heads end in these pieces; what is behind them in the two texts is the same
      rw [if_pos hle] at hfind hfind'
      have hlengths := lengths_received hcut
      have hflatten : (received rounds').flatten.length = (received rounds).flatten.length := by
        rw [List.length_flatten, List.length_flatten, hlengths]
      rw [responseText_eq] at htext htext'
      obtain ⟨hdrop, hrest⟩ := eq_behind hhead hpiece hle hflatten htext htext'
      rw [take_head_of_find hfind, take_head_of_find hfind', take_of_prefix_response hfront hle,
        take_of_prefix_response hfront' (by rw [hhead, hpiece]; exact hle), ← List.length_append,
        ← List.length_append, hhead, hdrop]
      exact twin_headReaction hlines hlines' hagree _ (eq_of_flatten hlengths hrest)
    -- neither head is complete, and the buffers grow by pieces of one length
    · rw [if_neg hle] at hfind hfind'
      have htake {buffer piece : Bytes} (hnone : find kHeaderEnd (buffer ++ piece) = none) :
          (Phase.head buffer).take allowRedirect piece = ⟨none, [], .more (.head (buffer ++ piece))⟩ := by
        rw [Phase.take, parseResponseHeader_of_find_none hnone]
      rw [htake hfind, htake hfind']
      exact ⟨rfl, rfl, .more (.head hpiece htext htext')⟩

/-- **A reply for each of the two runs.** -/
theorem InStep.react (hlines : ∀ l ∈ line :: lines, IsLine l ∧ l ≠ [])
    (hvariant : List.Forall₂ LineVariant lines lines') (hagree : Agree allowRedirect line lines lines')
    {round round' : Round} (hround : round.SameCut round')
    (hcut : List.Forall₂ Round.SameCut rounds rounds') {phase phase' : Phase}
    (h : InStep line lines lines' body (round :: rounds) (round' :: rounds') phase phase') :
    (phase.react allowRedirect round.reply).Twin (InStep line lines lines' body rounds rounds')
      (phase'.react allowRedirect round'.reply) := by
  unfold Phase.react
  rw [hround.result]
  by_cases hsuccess : round.reply.result.isSuccess = true
  · rw [if_pos hsuccess, if_pos hsuccess]
    exact h.take hlines hvariant hagree hround hcut hsuccess
  rw [if_neg hsuccess, if_neg hsuccess]
  by_cases hretry : round.reply.result.resultCode = .Retry
  · -- the data of this reply is not looked at
    rw [if_pos hretry, if_pos hretry]
    refine ⟨rfl, rfl, .more ?_⟩
    have hnot := Bool.eq_false_iff.mpr hsuccess
    have hnot' : round'.reply.result.isSuccess = false := by rw [hround.result, hnot]
    cases h with
    | behind hne hpieces =>
      rw [received_cons_retry hnot, received_cons_retry hnot'] at hpieces
      exact .behind hne hpieces
    | head hlength htext htext' =>
      rw [received_cons_retry hnot] at htext
      rw [received_cons_retry hnot'] at htext'
      exact .head hlength htext htext'
  rw [if_neg hretry, if_neg hretry]
  by_cases hclosed : round.reply.result.resultCode = .Completed ∨
      round.reply.result.resultCode = .Disconnected
  · rw [if_pos hclosed]
    exact ⟨rfl, rfl, .finished⟩
  · rw [if_neg hclosed]
    exact ⟨rfl, rfl, .failed _ _⟩

end

/-! ### From the step to the run -/

/-- Whether redirects are allowed does not change. -/
theorem lasting_allowRedirect (allowRedirect : Bool) :
    Lasting fun s => s.info_.isAllowRedirect = allowRedirect where
  tick s hs := by rwa [State.tick_info_]
  now _ _ hs := hs
  socket _ _ hs := hs

/-- Every stop is tolerated. -/
theorem tolerates_all {I : State → Prop} : Tolerates I fun _ _ => True :=
  ⟨fun _ _ => trivial, fun _ _ _ => trivial⟩

section

variable {allowRedirect : Bool} {line : Bytes} {lines lines' : List Bytes} {body : Bytes}

/-- **Receivers that have come equally far look the same.** -/
theorem sim_receiver (hlines : ∀ l ∈ line :: lines, IsLine l ∧ l ≠ [])
    (hvariant : List.Forall₂ LineVariant lines lines') (hagree : Agree allowRedirect line lines lines')
    {rounds rounds' : List Round} (hcut : List.Forall₂ Round.SameCut rounds rounds')
    {phase phase' : Phase} (h : InStep line lines lines' body rounds rounds' phase phase') :
    Program.SimOn (fun s => s.info_.isAllowRedirect = allowRedirect) Eq
      ((receiver handOver rounds phase).seen Event.masked Stop.masked)
      ((receiver handOver rounds' phase').seen Event.masked Stop.masked) := by
  have hlasting := lasting_allowRedirect allowRedirect
  have htrue (e : Event) (_ : e.Routine) : True := trivial
  -- induction on the pairs of rounds; `InStep` relates the phases of the two receivers
  induction hcut generalizing phase phase' with
  | nil => exact fun env s _ => Program.Sim.refl _ env s
  | @cons round round' rounds rounds' hround hcut ih =>
    unfold receiver
    simp only [Program.seen_bind]
    rw [hround.waits]
    refine .bind_left (.seen _ _ (hlasting.isReceivable htrue tolerates_all _)) fun receivable => ?_
    cases receivable with
    | false => exact fun env s _ => Program.Sim.refl _ env s
    | true =>
      simp only [Bool.not_true, Bool.false_eq_true, if_false]
      unfold receiverPass
      simp only [Program.seen_bind, bind_assoc]
      rw [hround.now]
      refine .bind_left (.seen _ _ (hlasting.callSocket htrue tolerates_all .receive)) fun _ => ?_
      refine .bind_left (.seen _ _ (hlasting.returnAt htrue _)) fun _ => .bind_state fun s hs => ?_
      -- `hlasting` keeps the value of `isAllowRedirect` that both receivers read here
      rw [hs]
      have hreact := h.react hlines hvariant hagree hround hcut
      refine .bind (.seen _ _ ?_) (fun env t _ => sim_perform hreact env t) ?_
      · exact (hlasting.announce htrue _).bind fun _ => (hlasting.deliver htrue _).bind fun _ =>
          hlasting.perform htrue tolerates_all (fun _ _ _ => trivial) _
      · rintro next next' hnext
        cases hnext with
        | none => exact fun env s _ => Program.Sim.refl _ env s
        | some hnext => exact ih hnext

/-- The callbacks of events without their headers. -/
theorem callbacks_masked (events : List Event) :
    callbacks (events.map Event.masked) = (callbacks events).map Callback.masked := by
  unfold callbacks
  rw [List.filterMap_map, List.map_filterMap]
  congr 1
  funext event
  cases event with
  | callback c => rfl
  | call call => rfl
  | returned now => rfl
  | cancelled => rfl

/-- Two responses whose heads agree are received alike. -/
theorem caseBlind_of_agree (hlines : ∀ l ∈ line :: lines, IsLine l ∧ l ≠ [])
    (hvariant : List.Forall₂ LineVariant lines lines') (hagree : Agree allowRedirect line lines lines') :
    CaseBlind allowRedirect line lines lines' := by
  intro env s body rounds rounds' hs hcut htext htext'
  have hstep : InStep line lines lines' body rounds rounds' (.head []) (.head []) :=
    .head rfl htext htext'
  have hseen := (sim_receiver hlines hvariant hagree hcut hstep env s hs).eq
  rw [receive_eq_receiver, receive_eq_receiver]
  refine ⟨congrArg Run.outcome hseen, ?_⟩
  rw [← callbacks_masked, ← callbacks_masked]
  exact congrArg callbacks (congrArg Run.events hseen)

end

/-! ### What one piece tells about a head -/

section

variable {allowRedirect : Bool} {line : Bytes} {lines lines' : List Bytes}

/-- The state in which a response is received that comes in one piece. -/
def State.answered (allowRedirect : Bool) : State :=
  State.connected { url := [], isAllowRedirect := allowRedirect }

/-- A whole response in one piece shows what its head is read as. -/
theorem transcript_whole (allowRedirect : Bool) (hlines : ∀ l ∈ line :: lines, IsLine l ∧ l ≠ []) (body : Bytes) :
    Transcript.of ((receive handOver [Round.piece (responseText line lines body)]).run Env.plain
        (State.answered allowRedirect)) =
      (headReaction allowRedirect (joinLines line lines) body).exit.last.prepend
        (headReaction allowRedirect (joinLines line lines) body).callbacks 1 := by
  have hfind := find_of_prefix_response hlines (List.prefix_refl (responseText line lines body))
  have hle : (joinLines line lines ++ kHeaderEnd).length ≤ (responseText line lines body).length := by
    rw [responseText_eq]
    exact (List.prefix_append _ body).length_le
  rw [if_pos hle] at hfind
  have hrest : (responseText line lines body).drop ((joinLines line lines).length + kHeaderEnd.length) =
      body := by
    rw [responseText_eq, ← List.length_append, List.drop_left]
  unfold State.answered
  rw [transcript_receive _ _ (undisturbed_connected _) rfl, transcript_success (flows_piece _ _) rfl]
  show ((Phase.head []).take allowRedirect (responseText line lines body)).exit.last.prepend
    ((Phase.head []).take allowRedirect (responseText line lines body)).callbacks 1 = _
  have hfirst : find kHeaderEnd ([] ++ responseText line lines body) = _ := hfind
  rw [take_head_of_find hfirst, List.nil_append, take_of_prefix_response (List.prefix_refl _) hle, hrest]

/-- What is seen of two whole responses in one piece each. -/
theorem CaseBlind.whole (h : CaseBlind allowRedirect line lines lines')
    (hlines : ∀ l ∈ line :: lines, IsLine l ∧ l ≠ []) (hvariant : List.Forall₂ LineVariant lines lines')
    (body : Bytes) {reaction reaction' : Reaction}
    (hreaction : headReaction allowRedirect (joinLines line lines) body = reaction)
    (hreaction' : headReaction allowRedirect (joinLines line lines') body = reaction') :
    reaction.exit.last.outcome.mapError Stop.masked = reaction'.exit.last.outcome.mapError Stop.masked ∧
      (reaction.callbacks ++ reaction.exit.last.callbacks).map Callback.masked =
        (reaction'.callbacks ++ reaction'.exit.last.callbacks).map Callback.masked := by
  -- each response arrives in one piece, so that a run is the reaction to a whole text
  have hcut : List.Forall₂ Round.SameCut [Round.piece (responseText line lines body)]
      [Round.piece (responseText line lines' body)] := by
    refine .cons ⟨rfl, rfl, rfl, ?_⟩ .nil
    show (responseText line lines' body).length = (responseText line lines body).length
    simp only [responseText_eq, List.length_append, length_joinLines line hvariant]
  have hreceived (text : Bytes) : (received [Round.piece text]).flatten = text := List.append_nil text
  have halike := h Env.plain (State.answered allowRedirect) body _ _ rfl hcut
    (hreceived _ ▸ List.prefix_refl _) (hreceived _ ▸ List.prefix_refl _)
  have hrun := transcript_whole allowRedirect hlines body
  have hrun' := transcript_whole allowRedirect (isLine_variants hlines hvariant) body
  rw [hreaction] at hrun
  rw [hreaction'] at hrun'
  have houtcome := congrArg Transcript.outcome hrun
  have houtcome' := congrArg Transcript.outcome hrun'
  have hcallbacks := congrArg Transcript.callbacks hrun
  have hcallbacks' := congrArg Transcript.callbacks hrun'
  simp only [Transcript.of, Transcript.prepend] at houtcome houtcome' hcallbacks hcallbacks'
  rw [← houtcome, ← houtcome', ← hcallbacks, ← hcallbacks']
  exact ⟨halike.outcome, halike.callbacks⟩

/-- A body that is not chunked is over with its last byte. -/
theorem outcome_plain (contentLength : Int) (body : Bytes) :
    ((Phase.plain contentLength 0).takeBody body).2.last.outcome.mapError Stop.masked =
      if contentLength ≤ body.length then .ok () else .error (some .pending) := by
  by_cases h : contentLength ≤ body.length
  · rw [takeBody_of_le (by omega), if_pos h]
    rfl
  · rw [takeBody_of_lt (by omega), if_neg h]
    rfl

/-- In front of its body a response is not left by a fault. -/
theorem outcome_bodyPhase_ne (lines : List Bytes) (contentLength : Int) :
    ((bodyPhase lines contentLength).takeBody []).2.last.outcome.mapError Stop.masked ≠ .error none := by
  by_cases h : Chunked lines
  · rw [bodyPhase_chunked h, Phase.takeBody, decode_nil]
    exact fun heq => by cases heq
  · rw [bodyPhase_plain h, outcome_plain]
    split
    · exact fun heq => by cases heq
    · exact fun heq => by cases heq

/-- A byte that is no size line is handed over exactly when the body is not chunked. -/
theorem onData_mem_iff (lines : List Bytes) (contentLength : Int) (header : ResponseHeader)
    {body : List Bytes × Exit} (hbody : (bodyPhase lines contentLength).takeBody [48] = body) :
    Callback.onData [48] ∈ ((Reaction.mk (some header) body.1 body.2).callbacks ++
      body.2.last.callbacks).map Callback.masked ↔ ¬Chunked lines := by
  subst hbody
  by_cases h : Chunked lines
  · have hdecode : decode (-1) [48] = ([], .failed .ChunkSizeError 0) :=
      decode_of_find_none (by decide) (by decide) (by decide)
    rw [bodyPhase_chunked h, Phase.takeBody, hdecode]
    simp [h, Reaction.callbacks, Exit.last, Exit.transcript, Callback.masked]
  · have hdata : ((Phase.plain contentLength 0).takeBody [48]).1 = [[48]] := rfl
    rw [bodyPhase_plain h, hdata]
    simp [h, Reaction.callbacks, Callback.masked]

/-- Responses that are received alike have heads that agree. -/
theorem agree_of_caseBlind (hlines : ∀ l ∈ line :: lines, IsLine l ∧ l ≠ [])
    (hvariant : List.Forall₂ LineVariant lines lines') (h : CaseBlind allowRedirect line lines lines') :
    Agree allowRedirect line lines lines' := by
  intro hreads
  obtain ⟨header, hheader⟩ := headReaction_of_reads allowRedirect hlines hreads
  obtain ⟨header', hheader'⟩ :=
    headReaction_of_reads allowRedirect (isLine_variants hlines hvariant) hreads
  refine ⟨fun hfollows => ?_, fun hfollows => ?_⟩
  · simp only [if_pos hfollows] at hheader hheader'
    have houtcome := (h.whole hlines hvariant [] (hheader []) (hheader' [])).1
    injection houtcome with hstop
    injection hstop with hredirect
    injection hredirect
  · simp only [if_neg hfollows] at hheader hheader'
    unfold SameBody
    cases hn : lengthOf (line :: lines) with
    | error fault =>
      cases hn' : lengthOf (line :: lines') with
      | error fault' => trivial
      | ok n' =>
        simp only [hn] at hheader
        simp only [hn'] at hheader'
        exact absurd (h.whole hlines hvariant [] (hheader []) (hheader' [])).1.symm
          (outcome_bodyPhase_ne _ n')
    | ok n =>
      cases hn' : lengthOf (line :: lines') with
      | error fault' =>
        simp only [hn] at hheader
        simp only [hn'] at hheader'
        exact absurd (h.whole hlines hvariant [] (hheader []) (hheader' [])).1 (outcome_bodyPhase_ne _ n)
      | ok n' =>
        simp only [hn] at hheader
        simp only [hn'] at hheader'
        have hwhole := fun body => h.whole hlines hvariant body (hheader body) (hheader' body)
        have hchunked : Chunked (line :: lines) ↔ Chunked (line :: lines') := by
          have hmem := onData_mem_iff (line :: lines) n header rfl
          rw [(hwhole [48]).2, onData_mem_iff (line :: lines') n' header' rfl] at hmem
          exact (not_iff_not.mp hmem).symm
        refine ⟨hchunked, or_iff_not_imp_left.mpr fun hplain => ?_⟩
        -- both end with the same byte of every body
        have hends (m : ℕ) : n ≤ m ↔ n' ≤ m := by
          have houtcome := (hwhole (List.replicate m 48)).1
          rw [bodyPhase_plain hplain, bodyPhase_plain (mt hchunked.mpr hplain), outcome_plain,
            outcome_plain, List.length_replicate] at houtcome
          by_cases hle : n ≤ m
          · rw [if_pos hle] at houtcome
            by_contra hnot
            rw [if_neg fun hle' => hnot (iff_of_true hle hle')] at houtcome
            cases houtcome
          · rw [if_neg hle] at houtcome
            by_contra hnot
            rw [if_pos (by_contra fun hle' => hnot (iff_of_false hle hle'))] at houtcome
            cases houtcome
        have hn := hends n.toNat
        have hn' := hends n'.toNat
        omega

end

/-- **Letter case does not matter exactly when the two heads agree** on the location of a redirect that is
followed, else on the length of the body and on whether it is chunked, each looked up by its exact name. -/
theorem caseBlind_iff (allowRedirect : Bool) {line : Bytes} {lines lines' : List Bytes}
    (hlines : ∀ l ∈ line :: lines, IsLine l ∧ l ≠ []) (hvariant : List.Forall₂ LineVariant lines lines') :
    CaseBlind allowRedirect line lines lines' ↔ Agree allowRedirect line lines lines' :=
  ⟨agree_of_caseBlind hlines hvariant, caseBlind_of_agree hlines hvariant⟩

/-- The name of a field that is not looked at. -/
theorem caseBlind_server :
    CaseBlind true (bytes "HTTP/1.1 200 OK") [bytes "Server: x"] [bytes "SERVER: x"] := by
  have hlines : ∀ l ∈ [bytes "HTTP/1.1 200 OK", bytes "Server: x"], IsLine l ∧ l ≠ [] := by decide
  have hvariant : List.Forall₂ LineVariant [bytes "Server: x"] [bytes "SERVER: x"] :=
    .cons (.name (bytes " x") (by decide : _ ∉ bytes "Server") (by decide : (bytes "SERVER").map _ = _)) .nil
  refine (caseBlind_iff true hlines hvariant).mpr fun _ => ⟨fun _ => by decide, fun _ => ?_⟩
  have hlength (text : Bytes) (h : lastField kContentLength [bytes "HTTP/1.1 200 OK", text] = none) :
      lengthOf [bytes "HTTP/1.1 200 OK", text] = .ok int64Max := by
    rw [lengthOf, h]
  unfold SameBody
  rw [hlength _ (by decide), hlength _ (by decide)]
  unfold Chunked
  exact ⟨by decide, .inr rfl⟩

/-- The length of a body is not found under another spelling: the same five bytes end one run, and leave
the other waiting. -/
theorem not_caseBlind_contentLength :
    LineVariant (bytes "Content-Length: 5") (bytes "content-length: 5") ∧
      ¬CaseBlind true (bytes "HTTP/1.1 200 OK") [bytes "Content-Length: 5"]
        [bytes "content-length: 5"] := by
  have hvariant : LineVariant (bytes "Content-Length: 5") (bytes "content-length: 5") :=
    .name (bytes " 5") (by decide : _ ∉ bytes "Content-Length")
      (by decide : (bytes "content-length").map _ = _)
  refine ⟨hvariant, fun h => ?_⟩
  have hreads : StatusReads (bytes "HTTP/1.1 200 OK") := by
    intro pos hpos
    obtain rfl : 0 = pos := Option.some.inj hpos
    exact ⟨by decide, 200, by decide⟩
  have hsame := (agree_of_caseBlind (by decide) (.cons hvariant .nil) h hreads).2 (by decide)
  have hlength : lengthOf [bytes "HTTP/1.1 200 OK", bytes "Content-Length: 5"] = .ok 5 := by decide
  have hlength' : lengthOf [bytes "HTTP/1.1 200 OK", bytes "content-length: 5"] = .ok int64Max := by
    decide
  -- the lengths differ, and no chunked coding makes up for that
  unfold SameBody at hsame
  rw [hlength, hlength'] at hsame
  rcases hsame.2 with hchunked | hmax
  · exact absurd hchunked (by unfold Chunked; decide)
  · exact absurd hmax (by decide)

end HttpRequest
