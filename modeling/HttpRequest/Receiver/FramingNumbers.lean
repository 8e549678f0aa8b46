import HttpRequest.Numerals
import HttpRequest.Receiver.Faults

/-! # The numbers that frame a response

The length of a plain body and the sizes of chunks are texts of the response. `std::stoll` and `std::stol` take
every text with a number in front, behind white space and a sign, and throw an exception at the others; the
grammar of RFC 7230 knows digits only, and a size may be followed by an extension. So no text that is not well
formed is met with an error callback: it is taken all the same, or the run crashes (`framedByNumbers_iff`). -/

namespace HttpRequest

open Foundations

/-! ### Texts of numbers -/

/-- What a text is read as. -/
inductive NumberKind
  | contentLength
  | chunkSize

namespace NumberKind

/-- The conversion that reads the text. The text is taken when it returns a number. -/
def convert : NumberKind → Bytes → Except Fault Int
  | contentLength => stoll
  | chunkSize => stolHex

/-- The base of the digits. -/
def base : NumberKind → Nat
  | contentLength => 10
  | chunkSize => 16

/-- What may follow the digits: nothing, or an extension of a chunk. -/
def IsTail : NumberKind → Bytes → Prop
  | contentLength, tail => tail = []
  | chunkSize, tail =>
    tail = [] ∨ ∃ blanks parameters, (∀ c ∈ blanks, c = 32 ∨ c = 9) ∧ tail = blanks ++ 59 :: parameters

/-- **A well-formed number**: digits, at least one, of a value that is at most `INT64_MAX`. -/
def WellFormed (kind : NumberKind) (text : Bytes) : Prop :=
  ∃ digits tail, text = digits ++ tail ∧ digits ≠ [] ∧ (∀ c ∈ digits, isDigitOf kind.base c = true) ∧
    (digitsValue kind.base digits : Int) ≤ int64Max ∧ kind.IsTail tail

/-- What follows the digits does not go on with one, and is no prefix of a number. -/
theorem IsTail.stops {kind : NumberKind} {tail : Bytes} (h : kind.IsTail tail) :
    ∀ c ∈ tail.head?, isDigitOf kind.base c = false ∧ c ≠ 120 ∧ c ≠ 88 := by
  have hnone : tail = [] → ∀ c ∈ tail.head?, isDigitOf kind.base c = false ∧ c ≠ 120 ∧ c ≠ 88 := by
    rintro rfl c hc
    cases hc
  cases kind with
  | contentLength => exact hnone h
  | chunkSize =>
    rcases h with h | ⟨blanks, parameters, hblanks, rfl⟩
    · exact hnone h
    · have hhead : ∀ c ∈ (blanks ++ 59 :: parameters).head?, c = 59 ∨ c = 32 ∨ c = 9 := by
        cases blanks with
        | nil => exact fun c hc => .inl (Option.some.inj hc).symm
        | cons blank blanks => exact fun c hc => .inr (Option.some.inj hc ▸ hblanks blank List.mem_cons_self)
      intro c hc
      rcases hhead c hc with rfl | rfl | rfl <;> decide

/-- **Every well-formed number is taken**, with the value of its digits. -/
theorem WellFormed.taken {kind : NumberKind} {text : Bytes} (h : kind.WellFormed text) :
    ∃ digits tail, text = digits ++ tail ∧ kind.IsTail tail ∧
      kind.convert text = .ok (digitsValue kind.base digits : Int) := by
  obtain ⟨digits, tail, rfl, hne, hdigits, hmax, htail⟩ := h
  refine ⟨digits, tail, rfl, htail, ?_⟩
  have hnumber : strtol kind.base (digits ++ tail) = some (digitsValue kind.base digits : Int) :=
    strtol_append hne hdigits (fun c hc => (htail.stops c hc).1) fun _ c hc => (htail.stops c hc).2
  have hrange : (-2 ^ (64 - 1) : Int) ≤ digitsValue kind.base digits ∧
      (digitsValue kind.base digits : Int) < 2 ^ (64 - 1) := by
    rw [int64Max] at hmax
    omega
  cases kind with
  | contentLength | chunkSize =>
    rw [base] at hnumber hrange ⊢
    simp only [convert, stoll, stolHex, stoSigned, hnumber, if_pos hrange]

end NumberKind

/-! ### The texts of a response -/

/-- In the pieces of a chunked body, of whose open chunk so many bytes are to come, these slices are handed over
and then this text is read as a size. -/
inductive SizeLineBehind : Int → List Bytes → List Bytes → Bytes → Prop
  | here {chunkSize : Int} {view : Bytes} {pieces : List Bytes} {pos : Nat} :
    chunkSize ≤ 0 → find kCRLF view = some pos →
    SizeLineBehind chunkSize (view :: pieces) [] (view.take pos)
  | behindSize {chunkSize size : Int} {view line : Bytes} {pieces slices : List Bytes} {pos : Nat} :
    chunkSize ≤ 0 → find kCRLF view = some pos → stolHex (view.take pos) = .ok size → size ≠ 0 →
    SizeLineBehind size (skipCRLF (view.drop (pos + kCRLF.length)) :: pieces) slices line →
    SizeLineBehind chunkSize (view :: pieces) slices line
  | behindData {chunkSize : Int} {view line : Bytes} {pieces slices : List Bytes} :
    0 < chunkSize → view ≠ [] →
    SizeLineBehind (chunkSize - (min chunkSize.toNat view.length : Nat))
      (skipCRLF (view.drop (min chunkSize.toNat view.length)) :: pieces) slices line →
    SizeLineBehind chunkSize (view :: pieces) (view.take (min chunkSize.toNat view.length) :: slices) line
  | next {chunkSize : Int} {line : Bytes} {pieces slices : List Bytes} :
    SizeLineBehind chunkSize pieces slices line → SizeLineBehind chunkSize ([] :: pieces) slices line

/-- The slices in front of a size line are determined by the pieces: every size line is behind some. -/
theorem sizeLine_iff_behind {chunkSize : Int} {pieces : List Bytes} {line : Bytes} :
    SizeLine chunkSize pieces line ↔ ∃ slices, SizeLineBehind chunkSize pieces slices line := by
  constructor
  · intro h
    induction h with
    | here hsize hpos => exact ⟨[], .here hsize hpos⟩
    | behindSize hsize hpos hnum hzero _ ih =>
      obtain ⟨slices, ih⟩ := ih
      exact ⟨slices, .behindSize hsize hpos hnum hzero ih⟩
    | behindData hsize hview _ ih =>
      obtain ⟨slices, ih⟩ := ih
      exact ⟨_, .behindData hsize hview ih⟩
    | next _ ih =>
      obtain ⟨slices, ih⟩ := ih
      exact ⟨slices, .next ih⟩
  · rintro ⟨slices, h⟩
    induction h with
    | here hsize hpos => exact .here hsize hpos
    | behindSize hsize hpos hnum hzero _ ih => exact .behindSize hsize hpos hnum hzero ih
    | behindData hsize hview _ ih => exact .behindData hsize hview ih
    | next _ ih => exact .next ih

/-- The head of a response has arrived, its status line can be read, and it is no redirect that is followed: the
lines of the head and the pieces of the body. -/
def Opens (allowRedirect : Bool) (pieces : List Bytes) (line : Bytes) (lines body : List Bytes) : Prop :=
  StatusReads line ∧
    ¬(allowRedirect = true ∧ (statusOf line = HttpStatusCode.MovedPermanently ∨
      statusOf line = HttpStatusCode.Found)) ∧
    ∃ pos, find kHeaderEnd pieces.flatten = some pos ∧
      StringUtil.split (pieces.flatten.take pos) kCRLF = line :: lines ∧
      body = dropFront (pos + kHeaderEnd.length) pieces

/-- **The texts that are read as numbers** in the pieces of a response, and the slices of the body that have been
handed over in front of them. -/
inductive ReadAs (allowRedirect : Bool) (pieces : List Bytes) : NumberKind → Bytes → List Bytes → Prop
  /-- The value of the last `Content-Length`. -/
  | contentLength {line text : Bytes} {lines body : List Bytes} :
    Opens allowRedirect pieces line lines body → lastField kContentLength (line :: lines) = some text →
    ReadAs allowRedirect pieces .contentLength text []
  /-- The size lines of a chunked body, if there is no `Content-Length` in front or it has been taken. -/
  | chunkSize {line text : Bytes} {lines body slices : List Bytes} :
    Opens allowRedirect pieces line lines body →
    (∀ text, lastField kContentLength (line :: lines) = some text → ∃ n, stoll text = .ok n) →
    lastField kTransferEncoding (line :: lines) = some kChunked → SizeLineBehind (-1) body slices text →
    ReadAs allowRedirect pieces .chunkSize text slices

/-- The bytes the callbacks hand over. -/
def handedOver (cs : List Callback) : List Bytes :=
  cs.filterMap fun
    | .onData data => some data
    | _ => none

/-- A run that has refused a text: it returned behind an error callback, and handed over what was in front of the
text and nothing else. -/
def Refuses (kind : NumberKind) (slices : List Bytes) (r : Run State Event Stop Unit) : Prop :=
  r.outcome = .ok () ∧ ∃ front code errorCode,
    callbacks r.events = front ++ [.onError code errorCode, .onDisconnected] ∧
      handedOver front = slices ∧
      match kind with
      | .contentLength => True
      | .chunkSize => code = .ChunkSizeError

/-- **Only well-formed numbers frame the response**: what is taken is well formed, and every other text is refused in
every run in which the pieces arrive. -/
def FramedByNumbers (allowRedirect : Bool) (pieces : List Bytes) : Prop :=
  ∀ kind text slices, ReadAs allowRedirect pieces kind text slices →
    ((∃ n, kind.convert text = .ok n) → kind.WellFormed text) ∧
      (¬kind.WellFormed text → ∀ (redirect : Bytes → Worker Unit) (env : Env) (s : State) (rounds : List Round),
        s.Undisturbed → s.socket_.isSome = true → s.info_.isAllowRedirect = allowRedirect →
        received rounds = pieces → (∀ round ∈ rounds, round.Flows s.timeLeft) →
        Refuses kind slices ((receive redirect rounds).run env s))

/-! ### Texts that are not well formed -/

/-- A text that is not taken is a number the receiver cannot read. -/
theorem ReadAs.not_numbered {allowRedirect : Bool} {pieces : List Bytes} {kind : NumberKind} {text : Bytes}
    {slices : List Bytes} (h : ReadAs allowRedirect pieces kind text slices)
    (hnot : ¬∃ n, kind.convert text = .ok n) : ¬Numbered allowRedirect pieces := by
  -- the head of a numbered response has the same lines
  have hfields {line : Bytes} {lines body : List Bytes} (hopens : Opens allowRedirect pieces line lines body)
      (hnumbered : Numbered allowRedirect pieces) :
      (∀ text, lastField kContentLength (line :: lines) = some text → ∃ n, stoll text = .ok n) ∧
        (lastField kTransferEncoding (line :: lines) = some kChunked →
          ∀ size, SizeLine (-1) body size → ∃ n, stolHex size = .ok n) := by
    obtain ⟨-, hfollows, pos, hpos, hsplit, rfl⟩ := hopens
    obtain ⟨line', lines', hsplit', -, hfields⟩ := hnumbered pos hpos
    obtain ⟨rfl, rfl⟩ := List.cons.inj (hsplit.symm.trans hsplit')
    exact hfields hfollows
  intro hnumbered
  cases h with
  | contentLength hopens hlast => exact hnot ((hfields hopens hnumbered).1 _ hlast)
  | chunkSize hopens _ hcoding hline =>
    exact hnot ((hfields hopens hnumbered).2 hcoding _ (sizeLine_iff_behind.mpr ⟨_, hline⟩))

/-- A text that is not taken is not refused: the run in which every wait is over at once crashes. -/
theorem ReadAs.not_refuses {allowRedirect : Bool} {pieces : List Bytes} {kind : NumberKind} {text : Bytes}
    {slices : List Bytes} (h : ReadAs allowRedirect pieces kind text slices)
    (hnot : ¬∃ n, kind.convert text = .ok n) :
    ¬Refuses kind slices ((receive handOver (pieces.map Round.piece)).run .plain
      (.connected { url := [], isAllowRedirect := allowRedirect })) := by
  obtain ⟨fault, hfault⟩ := (crashed_iff_not_numbered allowRedirect pieces).mpr (h.not_numbered hnot)
  rintro ⟨hreturned, -⟩
  rw [run_pieces_of_crashed hfault] at hreturned
  cases hreturned

/-- **When only well-formed numbers frame a response**: when it has no others where a number is read. -/
theorem framedByNumbers_iff (allowRedirect : Bool) (pieces : List Bytes) :
    FramedByNumbers allowRedirect pieces ↔
      ∀ kind text slices, ReadAs allowRedirect pieces kind text slices → kind.WellFormed text := by
  constructor
  · intro h kind text slices hread
    obtain ⟨htaken, hrefused⟩ := h kind text slices hread
    by_cases hconvert : ∃ n, kind.convert text = .ok n
    · exact htaken hconvert
    · by_contra hmalformed
      have hflows : ∀ round ∈ pieces.map Round.piece, round.Flows
          (State.connected { url := [], isAllowRedirect := allowRedirect }).timeLeft := by
        intro round hround
        obtain ⟨piece, -, rfl⟩ := List.mem_map.mp hround
        exact flows_piece _ piece
      exact hread.not_refuses hconvert (hrefused hmalformed handOver .plain _ _
        (undisturbed_connected { url := [], isAllowRedirect := allowRedirect }) rfl rfl
        (received_pieces pieces) hflows)
  · exact fun h kind text slices hread =>
      ⟨fun _ => h kind text slices hread, fun hmalformed => absurd (h kind text slices hread) hmalformed⟩

/-- The response of one piece with a signed length. -/
def signedResponse : List Bytes := [bytes "HTTP/1.1 200 OK\r\nContent-Length: +5\r\n\r\n"]

/-- The usual status line can be read. -/
theorem statusReads_ok : StatusReads (bytes "HTTP/1.1 200 OK") := by
  intro pos hpos
  have hzero : find kHTTPFlag (bytes "HTTP/1.1 200 OK") = some 0 := by decide
  obtain rfl := Option.some.inj (hzero.symm.trans hpos)
  exact ⟨by decide, 200, by decide⟩

/-- A sign is taken with its number. -/
theorem not_framedByNumbers_signed : ¬FramedByNumbers true signedResponse := by
  intro h
  have hopens : Opens true signedResponse (bytes "HTTP/1.1 200 OK") [bytes "Content-Length: +5"]
      (dropFront 39 signedResponse) :=
    ⟨statusReads_ok, by decide, 35, by decide +kernel, by decide +kernel, rfl⟩
  have hread : ReadAs true signedResponse .contentLength (bytes "+5") [] := .contentLength hopens (by decide +kernel)
  obtain ⟨digits, tail, htext, hne, hdigits, -, rfl⟩ := (h _ _ _ hread).1 ⟨5, by decide⟩
  rw [List.append_nil] at htext
  have hplus := hdigits 43 (htext ▸ List.mem_cons_self)
  revert hplus
  decide

end HttpRequest
