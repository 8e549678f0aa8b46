import HttpRequest.Messages.Lines
import HttpRequest.Receiver.ChunkAccount
import HttpRequest.Receiver.Chunks

/-! # A chunked body in one piece

Called with a whole chunked body, `Request::parseChunk` reads every size line, with or without an extension,
and stays in step with the chunks. It skips a line break behind a size line as it does behind a payload,
though: a payload that starts with a line break loses it, and takes the line break behind it for its end
(`decodesBody_iff`). -/

namespace HttpRequest

open Foundations

/-! ### Bodies with extensions -/

/-- What may stand between the digits of a size and the line break: nothing, or a semicolon behind blanks
and any text behind it. -/
structure Extension where
  text : Bytes
  form : text = [] ∨
    ∃ blanks parameters, (∀ c ∈ blanks, c = 32 ∨ c = 9) ∧ text = blanks ++ 59 :: parameters
  unbroken : ¬kCRLF <:+: text

/-- A chunk with an extension. -/
structure ExtendedChunk extends Chunk where
  extension : Extension

/-- The last chunk with an extension, and what follows its size line. -/
structure ExtendedLast extends LastChunk where
  extension : Extension
  trailer : Bytes

/-- A size line without its line break. -/
def SizeText.line (text : SizeText) (extension : Extension) : Bytes := text.digits ++ extension.text

/-- The size line of a chunk, its payload and a line break. -/
def ExtendedChunk.encode (chunk : ExtendedChunk) : Bytes :=
  chunk.line chunk.extension ++ kCRLF ++ (chunk.payload ++ kCRLF)

/-- The size line of the last chunk and what follows it. -/
def ExtendedLast.encode (last : ExtendedLast) : Bytes := last.line last.extension ++ kCRLF ++ last.trailer

/-- A chunked body with extensions. -/
def encodeExtended (chunks : List ExtendedChunk) (last : ExtendedLast) : Bytes :=
  chunks.flatMap ExtendedChunk.encode ++ last.encode

/-! ### Size lines -/

namespace SizeText

variable (text : SizeText) (extension : Extension)

/-- The first line break of a size line is its own. -/
theorem find_extended (rest : Bytes) :
    find kCRLF (text.line extension ++ kCRLF ++ rest) = some (text.line extension).length :=
  find_of_dropInfix? ((IsUnbroken.append_front (text.not_mem_digits (by decide)) extension.unbroken).dropInfix? rest)

/-- An extension does not change the size. -/
theorem stolHex_line :
    stolHex (text.line extension) =
      if digitsValue 16 text.digits < 2 ^ 63 then .ok (digitsValue 16 text.digits : Int)
      else .error .outOfRange := by
  have hhead : ∀ c ∈ extension.text.head?, c = 59 ∨ c = 32 ∨ c = 9 := by
    rcases extension.form with hnil | ⟨blanks, parameters, hblanks, htext⟩
    · rw [hnil]
      exact fun c hc => by cases hc
    · rw [htext]
      cases blanks with
      | nil => exact fun c hc => .inl (Option.some.inj hc).symm
      | cons blank blanks =>
        rintro c hc
        obtain rfl : blank = c := Option.some.inj hc
        exact .inr (hblanks blank List.mem_cons_self)
  have hstrtol : strtol 16 (text.line extension) = some (digitsValue 16 text.digits : Int) := by
    refine strtol_append text.nonempty text.hex (fun c hc => ?_) fun _ c hc => ?_
    · rcases hhead c hc with rfl | rfl | rfl <;> decide
    · rcases hhead c hc with rfl | rfl | rfl <;> decide
  rw [← text.stolHex_digits, stolHex, stolHex, stoSigned, stoSigned, hstrtol,
    strtol_of_digits text.nonempty text.hex]

/-- A size line does not start with a line break. -/
theorem not_prefix_line (rest : Bytes) : ¬kCRLF <+: text.line extension ++ rest := by
  rw [line, List.append_assoc]
  exact text.not_prefix

end SizeText

/-! ### Decoding in one piece -/

/-- What is delivered of a chunk. -/
def Chunk.received (chunk : Chunk) : Bytes :=
  if kCRLF <+: chunk.payload then chunk.payload.drop 2 ++ kCRLF else chunk.payload

section

variable {chunkSize : Int}

/-- A size line with its payload behind it is read. -/
theorem decode_size (chunk : ExtendedChunk) (hsize : chunkSize ≤ 0) (rest : Bytes) :
    decode chunkSize (chunk.encode ++ rest) =
      if chunk.payload.length < 2 ^ 63 then
        decode chunk.payload.length (skipCRLF (chunk.payload ++ (kCRLF ++ rest)))
      else ([], .crashed .outOfRange) := by
  have hbody : chunk.encode ++ rest =
      chunk.line chunk.extension ++ kCRLF ++ (chunk.payload ++ (kCRLF ++ rest)) := by
    simp [ExtendedChunk.encode]
  have hpos := chunk.find_extended chunk.extension (chunk.payload ++ (kCRLF ++ rest))
  have htake : (chunk.line chunk.extension ++ kCRLF ++ (chunk.payload ++ (kCRLF ++ rest))).take
      (chunk.line chunk.extension).length = chunk.line chunk.extension := by
    rw [List.append_assoc, List.take_left]
  have hdrop : (chunk.line chunk.extension ++ kCRLF ++ (chunk.payload ++ (kCRLF ++ rest))).drop
      ((chunk.line chunk.extension).length + kCRLF.length) = chunk.payload ++ (kCRLF ++ rest) := by
    rw [← List.length_append, List.drop_left]
  have hnum := chunk.stolHex_line chunk.extension
  rw [chunk.size] at hnum
  rw [hbody, decode_of_find_some hsize hpos, htake, hdrop, hnum]
  -- `std::stol` refuses the size of a payload of `2 ^ 63` bytes or more
  by_cases hsmall : chunk.payload.length < 2 ^ 63
  · have hzero : (chunk.payload.length : Int) ≠ 0 := by
      have hlength := List.length_pos_iff.mpr chunk.proper
      omega
    rw [if_pos hsmall, if_pos hsmall]
    exact if_neg hzero
  · rw [if_neg hsmall, if_neg hsmall]

/-- Behind its size line a chunk is delivered in one slice, and the decoder is in step again. -/
theorem decode_payload (chunk : ExtendedChunk) {rest : Bytes} (hrest : ¬kCRLF <+: rest) :
    decode chunk.payload.length (skipCRLF (chunk.payload ++ (kCRLF ++ rest))) =
      (chunk.received :: (decode 0 rest).1, (decode 0 rest).2) := by
  have hpos := List.length_pos_iff.mpr chunk.proper
  have hlen : kCRLF.length = 2 := rfl
  -- the slice, and what is behind it
  have hslice {front behind : Bytes} (hfront : front.length = chunk.payload.length)
      (hbehind : skipCRLF behind = rest) :
      decode chunk.payload.length (front ++ behind) = (front :: (decode 0 rest).1, (decode 0 rest).2) := by
    have hne : front ++ behind ≠ [] :=
      List.append_ne_nil_of_left_ne_nil (List.ne_nil_of_length_pos (hfront ▸ hpos)) _
    have hmin : min (chunk.payload.length : Int).toNat (front ++ behind).length = front.length := by
      rw [List.length_append]
      omega
    rw [decode_of_pos (by omega) hne, hmin, List.take_left, List.drop_left, hbehind, hfront, Int.sub_self]
  by_cases hpre : kCRLF <+: chunk.payload
  · have hle := hpre.length_le
    have hskip : skipCRLF (chunk.payload ++ (kCRLF ++ rest)) = chunk.payload.drop 2 ++ kCRLF ++ rest := by
      rw [skipCRLF_of_starts (hpre.trans (List.prefix_append _ _)),
        List.drop_append_of_le_length (by omega), List.append_assoc]
    rw [hskip, Chunk.received, if_pos hpre]
    refine hslice ?_ (skipCRLF_of_not_starts hrest)
    rw [List.length_append, List.length_drop]
    omega
  · have hskip : skipCRLF (chunk.payload ++ (kCRLF ++ rest)) = chunk.payload ++ (kCRLF ++ rest) :=
      skipCRLF_of_not_starts fun h => hpre ((prefix_payload_iff chunk.proper).mp h)
    rw [hskip, Chunk.received, if_neg hpre]
    exact hslice rfl (skipCRLF_of_starts (List.prefix_append _ _))

/-- The last size line ends the body. -/
theorem decode_last (last : ExtendedLast) (hsize : chunkSize ≤ 0) :
    decode chunkSize last.encode = ([], .finished) := by
  have htake : last.encode.take (last.line last.extension).length = last.line last.extension := by
    rw [ExtendedLast.encode, List.append_assoc, List.take_left]
  refine decode_of_zero hsize (last.find_extended last.extension last.trailer) ?_
  rw [htake, last.stolHex_line, last.size]
  rfl

/-- A body with extensions does not start with a line break. -/
theorem not_prefix_encodeExtended (chunks : List ExtendedChunk) (last : ExtendedLast) :
    ¬kCRLF <+: encodeExtended chunks last := by
  cases chunks with
  | nil =>
    rw [encodeExtended, List.flatMap_nil, List.nil_append, ExtendedLast.encode, List.append_assoc]
    exact last.not_prefix_line _ _
  | cons chunk chunks =>
    rw [encodeExtended, List.flatMap_cons, ExtendedChunk.encode, List.append_assoc, List.append_assoc,
      List.append_assoc]
    exact chunk.not_prefix_line _ _

/-- The first chunk of a body stands in front of the others. -/
theorem encodeExtended_cons (chunk : ExtendedChunk) (chunks : List ExtendedChunk) (last : ExtendedLast) :
    encodeExtended (chunk :: chunks) last = chunk.encode ++ encodeExtended chunks last := by
  rw [encodeExtended, List.flatMap_cons, List.append_assoc]
  rfl

/-- **Decoding a body in one piece.** It finishes unless a size is out of range. -/
theorem decode_encodeExtended (chunks : List ExtendedChunk) (last : ExtendedLast) (hsize : chunkSize ≤ 0) :
    ((∀ chunk ∈ chunks, chunk.payload.length < 2 ^ 63) →
      decode chunkSize (encodeExtended chunks last) = (chunks.map (·.received), .finished)) ∧
    ((∃ chunk ∈ chunks, 2 ^ 63 ≤ chunk.payload.length) →
      ∃ fault, (decode chunkSize (encodeExtended chunks last)).2 = .crashed fault) := by
  induction chunks generalizing chunkSize with
  | nil =>
    refine ⟨fun _ => ?_, fun ⟨chunk, hchunk, _⟩ => absurd hchunk List.not_mem_nil⟩
    exact decode_last last hsize
  | cons chunk chunks ih =>
    have hrest := not_prefix_encodeExtended chunks last
    obtain ⟨hfinishes, hcrashes⟩ := @ih 0 le_rfl
    rw [encodeExtended_cons, decode_size chunk hsize]
    constructor
    · intro hsmall
      obtain ⟨hfirst, hchunks⟩ := List.forall_mem_cons.mp hsmall
      rw [if_pos hfirst, decode_payload chunk hrest, hfinishes hchunks]
      rfl
    · rintro ⟨large, hlarge, hrange⟩
      -- the first size out of range ends the decoding
      by_cases hfirst : chunk.payload.length < 2 ^ 63
      · have hbehind : large ∈ chunks := (List.mem_cons.mp hlarge).resolve_left fun heq => by
          rw [heq] at hrange
          omega
        rw [if_pos hfirst, decode_payload chunk hrest]
        exact hcrashes ⟨large, hbehind, hrange⟩
      · rw [if_neg hfirst]
        exact ⟨_, rfl⟩

end

/-! ### `parseChunk` on a whole body -/

/-- How the decoding of a view leaves the machine. -/
def ChunkEnd.exit : ChunkEnd → Exit
  | .usedUp chunkSize => .more (.chunked chunkSize)
  | .completed _ => .finished
  | .broken _ _ => .failed .ChunkSizeError 0
  | .crashed fault => .crashed fault

/-- Decoding is the account without the places. -/
theorem decode_eq_account {buffer view : Bytes} (hview : view <:+ buffer) (chunkSize : Int) :
    decode chunkSize view =
      ((slices (account buffer.length chunkSize view).1).map (sliceOf buffer),
        (account buffer.length chunkSize view).2.exit) := by
  -- the account takes the branches of the decoder
  induction chunkSize, view using decode.induct with
  | case1 chunkSize =>
    rw [decode_nil, account_nil]
    rfl
  | case2 chunkSize view hne hsize hpos =>
    rw [decode_of_find_none hsize hne hpos, account_of_find_none hsize hne hpos]
    rfl
  | case3 chunkSize view hne hsize pos hpos fault hnum =>
    rw [decode_of_error hsize hpos hnum, account_of_error hsize hpos hnum]
    rfl
  | case4 chunkSize view hne hsize pos hpos hnum =>
    rw [decode_of_zero hsize hpos hnum, account_of_zero hsize hpos hnum]
    rfl
  | case5 chunkSize view hne hsize pos hpos size hnum hzero ih =>
    rw [decode_of_size hsize hpos hnum hzero, account_of_size hsize hpos hnum hzero]
    exact ih ((suffix_skipCRLF_drop _ view).trans hview)
  | case6 chunkSize view hne hsize size ih =>
    rw [decode_of_pos (by omega) hne, account_of_pos (by omega) hne,
      ih ((suffix_skipCRLF_drop size view).trans hview)]
    show (view.take size :: _, _) = (sliceOf buffer (buffer.length - view.length, size) :: _, _)
    rw [sliceOf_suffix hview]
    rfl

/-- `parseChunk` hands over what decoding delivers, and returns unless that crashes. -/
theorem parseChunk_eq_decode (data : Data) (chunkSize : Int) :
    ∃ finish : Worker (Bool × Data × Int × Bool),
      (parseChunk data chunkSize false = do
        deliver (decode chunkSize data.view).1
        finish) ∧
      ((decode chunkSize data.view).2 = .finished → ∃ rest, finish = pure (true, rest, 0, true)) ∧
      ∀ fault, (decode chunkSize data.view).2 = .crashed fault → finish = Program.stop (.fault fault) := by
  rw [decode_eq_account List.suffix_rfl]
  refine ⟨_, parseChunk_eq_account data chunkSize false, ?_, ?_⟩
  · intro hexit
    cases hend : (account data.view.length chunkSize data.view).2 with
    | completed dataView => exact ⟨_, rfl⟩
    | usedUp | broken | crashed =>
      rw [hend] at hexit
      cases hexit
  · intro fault hexit
    cases hend : (account data.view.length chunkSize data.view).2 with
    | crashed fault' =>
      rw [hend] at hexit
      obtain rfl := Exit.crashed.inj hexit
      rfl
    | usedUp | broken | completed =>
      rw [hend] at hexit
      cases hexit

/-- **A call that decodes a body**: it hands over the payload, slice by slice, and returns `true` with the body
complete. -/
def DecodesBody (data : Data) (payload : Bytes) : Prop :=
  ∃ slices rest chunkSize, (parseChunk data (-1) false = do
    deliver slices
    pure (true, rest, chunkSize, true)) ∧ slices.flatten = payload

/-- What a program hands over in front of its end shows in a run. -/
theorem run_deliver_bind {α : Type} (slices : List Bytes) (finish : Worker α) :
    (do deliver slices; finish).run Env.plain (State.connected { url := [] }) =
      (finish.run Env.plain (State.connected { url := [] })).prepend
        (slices.map fun data => .callback (.onData data)) := by
  rw [Program.run_bind, (undisturbed_connected _).run_deliver, Run.andThen_ok]

/-- What is handed over in front of a return is unique. -/
theorem deliver_injective {α : Type} {slices slices' : List Bytes} {a b : α}
    (h : (do deliver slices; pure a : Worker α) = do deliver slices'; pure b) : slices = slices' := by
  have hrun := congrArg (fun m : Worker α =>
    (m.run Env.plain (State.connected { url := [] })).events) h
  simp only [run_deliver_bind, Run.prepend_events, Program.run_pure, List.append_nil] at hrun
  exact List.map_injective_iff.mpr (fun data data' heq => by cases heq; rfl) hrun

/-- A call that returns is none that crashes. -/
theorem not_deliver_crashed {α : Type} {slices slices' : List Bytes} {a : α} {fault : Fault} :
    (do deliver slices; pure a : Worker α) ≠ (do deliver slices'; Program.stop (.fault fault)) := by
  intro h
  have hrun := congrArg (fun m : Worker α =>
    (m.run Env.plain (State.connected { url := [] })).outcome) h
  simp only [run_deliver_bind, Run.prepend_outcome, Program.run_pure, Program.run_stop] at hrun
  cases hrun

/-! ### Which bodies are decoded -/

/-- Swapping a text of line breaks with a line break changes nothing, and no other text is like that. -/
theorem append_crlf_comm_iff {text : Bytes} :
    text ++ kCRLF = kCRLF ++ text ↔ ∃ n, text = (List.replicate n kCRLF).flatten := by
  constructor
  · intro h
    -- induction on a bound for the text: each step takes a line break off its front
    obtain ⟨n, hn⟩ : ∃ n, text.length < n := ⟨_, Nat.lt_succ_self _⟩
    induction n generalizing text with
    | zero => omega
    | succ n ih =>
      by_cases hshort : text.length < 2
      · match text, hshort with
        | [], _ => exact ⟨0, rfl⟩
        | [c], _ =>
          have hcons : ([c, 13, 10] : Bytes) = [13, 10, c] := h
          simp at hcons
      · obtain ⟨rest, rfl⟩ : kCRLF <+: text :=
          List.prefix_of_prefix_length_le ⟨text, h.symm⟩ (List.prefix_append _ _) (Nat.not_lt.mp hshort)
        rw [List.append_assoc, List.append_cancel_left_eq] at h
        have hlen : kCRLF.length = 2 := rfl
        rw [List.length_append] at hn
        obtain ⟨k, hk⟩ := ih h (by omega)
        refine ⟨k + 1, ?_⟩
        rw [List.replicate_succ, List.flatten_cons, ← hk]
  · rintro ⟨n, rfl⟩
    rw [← List.flatten_cons, ← List.replicate_succ, List.replicate_succ', List.flatten_append,
      List.flatten_singleton]

/-- As many bytes are received as were sent. -/
theorem length_received (chunk : Chunk) : chunk.received.length = chunk.payload.length := by
  rw [Chunk.received]
  split
  · next hpre =>
    have hle := hpre.length_le
    have hlen : kCRLF.length = 2 := rfl
    rw [List.length_append, List.length_drop]
    omega
  · rfl

/-- A chunk that starts with a line break is delivered as it is when it is made of line breaks. -/
theorem received_eq_iff (chunk : Chunk) :
    chunk.received = chunk.payload ↔
      (kCRLF <+: chunk.payload → ∃ n, chunk.payload = (List.replicate n kCRLF).flatten) := by
  by_cases hpre : kCRLF <+: chunk.payload
  · rw [Chunk.received, if_pos hpre]
    obtain ⟨rest, hrest⟩ := hpre
    have hdrop : chunk.payload.drop 2 = rest := by
      rw [← hrest]
      rfl
    rw [hdrop, ← hrest, ← append_crlf_comm_iff, List.append_assoc, List.append_cancel_left_eq]
    exact ⟨fun h _ => h, fun h => h (List.prefix_append _ _)⟩
  · rw [Chunk.received, if_neg hpre]
    exact iff_of_true rfl fun h => absurd h hpre

/-- What is delivered of chunks is their payloads when that is so for each of them. -/
theorem flatten_received_eq_iff (chunks : List ExtendedChunk) :
    (chunks.map (·.received)).flatten = (chunks.map (·.payload)).flatten ↔
      ∀ chunk ∈ chunks, chunk.received = chunk.payload := by
  induction chunks with
  | nil => simp
  | cons chunk chunks ih =>
    rw [List.map_cons, List.map_cons, List.flatten_cons, List.flatten_cons, List.forall_mem_cons, ← ih]
    exact ⟨fun h => List.append_inj h (length_received chunk.toChunk), fun h => by rw [h.1, h.2]⟩

/-- **A whole chunked body is decoded** exactly when every payload that starts with a line break is made of line
breaks only. The size of a chunk has to be one `std::stol` can return. -/
theorem decodesBody_iff (chunks : List ExtendedChunk) (last : ExtendedLast) :
    DecodesBody (Data.ofBytes (encodeExtended chunks last)) (chunks.map (·.payload)).flatten ↔
      ∀ chunk ∈ chunks, chunk.payload.length < 2 ^ 63 ∧
        (kCRLF <+: chunk.payload → ∃ n, chunk.payload = (List.replicate n kCRLF).flatten) := by
  obtain ⟨finish, hprogram, hfinished, hcrashed⟩ :=
    parseChunk_eq_decode (Data.ofBytes (encodeExtended chunks last)) (-1)
  obtain ⟨hsmall, hlarge⟩ := decode_encodeExtended chunks last (show (-1 : Int) ≤ 0 by decide)
  rw [Data.view_ofBytes] at hprogram hfinished hcrashed
  unfold DecodesBody
  rw [hprogram]
  by_cases hsizes : ∀ chunk ∈ chunks, chunk.payload.length < 2 ^ 63
  -- every size is in range, so the program is known, and with it what it delivers
  · have hdecode := hsmall hsizes
    rw [hdecode] at hfinished ⊢
    obtain ⟨rest, rfl⟩ := hfinished rfl
    have hdecodes : (∃ slices rest' chunkSize, (do
          deliver (chunks.map (·.received))
          pure (true, rest, 0, true) : Worker (Bool × Data × Int × Bool)) = (do
          deliver slices
          pure (true, rest', chunkSize, true)) ∧ slices.flatten = (chunks.map (·.payload)).flatten) ↔
        (chunks.map (·.received)).flatten = (chunks.map (·.payload)).flatten := by
      constructor
      · rintro ⟨slices, rest', chunkSize, heq, hflatten⟩
        rw [deliver_injective heq, hflatten]
      · exact fun hflatten => ⟨_, rest, 0, rfl, hflatten⟩
    rw [hdecodes, flatten_received_eq_iff]
    refine forall₂_congr fun chunk hchunk => ?_
    rw [received_eq_iff]
    exact ⟨fun h => ⟨hsizes chunk hchunk, h⟩, fun h => h.2⟩
  · -- a size is out of range
    obtain ⟨chunk, hchunk, hrange⟩ : ∃ chunk ∈ chunks, 2 ^ 63 ≤ chunk.payload.length := by
      simpa using hsizes
    obtain ⟨fault, hfault⟩ := hlarge ⟨chunk, hchunk, hrange⟩
    obtain rfl := hcrashed fault hfault
    refine iff_of_false ?_ fun h => absurd (h chunk hchunk).1 (Nat.not_lt.mpr hrange)
    rintro ⟨slices, rest', chunkSize, heq, -⟩
    exact not_deliver_crashed heq.symm

/-- A size line with digits only. -/
def noExtension : Extension := ⟨[], .inl rfl, by decide⟩

/-- The body of one chunk that starts with a line break. -/
def breakBody : Bytes := encodeExtended [⟨breakChunk, noExtension⟩] ⟨zeroChunk, noExtension, kCRLF⟩

/-- The chunk loses the line break in front of it, and the one behind it is delivered. -/
theorem not_decodesBody_breakBody : ¬DecodesBody (Data.ofBytes breakBody) breakChunk.payload := by
  rintro ⟨slices, rest, chunkSize, heq, hflatten⟩
  have hdelivered : callbacks ((parseChunk (Data.ofBytes breakBody) (-1) false).run Env.plain
      (State.connected { url := [] })).events = [.onData (bytes "ab\r\n")] := by rfl
  have hslices : callbacks (slices.map fun data => Event.callback (.onData data)) = slices.map .onData := by
    rw [callbacks, List.filterMap_map, ← List.filterMap_eq_map]
    rfl
  rw [heq, run_deliver_bind, Run.prepend_events, Program.run_pure, List.append_nil, hslices] at hdelivered
  obtain ⟨slice, tail, rfl, hslice, htail⟩ := List.map_eq_cons_iff.mp hdelivered
  obtain rfl := List.map_eq_nil_iff.mp htail
  obtain rfl := Callback.onData.inj hslice
  revert hflatten
  decide

end HttpRequest
