import HttpRequest.Numerals
import HttpRequest.Receiver.Completion
import HttpRequest.Receiver.Faults

/-! # Chunked bodies and their cuts

What the decoder makes of a well-formed chunked body depends on the places at which it is cut. This file
walks a body chunk by chunk: a size line is read when it comes in one piece, a payload that starts with a
line break loses it when that comes in one piece with the size line, and a payload that did not lose one
must come in one piece with the line break behind it (`decodeAll_chunk`). From it the condition follows
under which two cuttings of a body give the same (`receive_chunked_agrees_iff`). -/

namespace HttpRequest

open Foundations

/-! ### Well-formed bodies -/

/-- The text of a size. -/
structure SizeText where
  digits : Bytes
  nonempty : digits ≠ []
  hex : ∀ c ∈ digits, isDigitOf 16 c = true

/-- A chunk: the text of its size, and a payload of that size. -/
structure Chunk extends SizeText where
  payload : Bytes
  size : digitsValue 16 digits = payload.length
  proper : payload ≠ []

/-- The chunk of size zero that ends a body. -/
structure LastChunk extends SizeText where
  size : digitsValue 16 digits = 0

/-- The size line of a chunk, its payload and a line break. -/
def Chunk.encode (chunk : Chunk) : Bytes := chunk.digits ++ kCRLF ++ (chunk.payload ++ kCRLF)

/-- The size line of the last chunk and the empty line behind it. -/
def LastChunk.encode (last : LastChunk) : Bytes := last.digits ++ kCRLF ++ kCRLF

/-- A chunked body. -/
def encodeBody (chunks : List Chunk) (last : LastChunk) : Bytes :=
  chunks.flatMap Chunk.encode ++ last.encode

namespace SizeText

variable (text : SizeText)

/-- The size is in range exactly when it is below `2 ^ 63`. -/
theorem stolHex_digits :
    stolHex text.digits =
      if digitsValue 16 text.digits < 2 ^ 63 then .ok (digitsValue 16 text.digits : Int)
      else .error .outOfRange := by
  rw [stolHex, stoSigned, strtol_of_digits text.nonempty text.hex]
  show (if -2 ^ 63 ≤ (digitsValue 16 text.digits : Int) ∧ (digitsValue 16 text.digits : Int) < 2 ^ 63
    then _ else _) = _
  by_cases h : digitsValue 16 text.digits < 2 ^ 63
  · rw [if_pos h, if_pos ⟨by omega, by exact_mod_cast h⟩]
  · rw [if_neg h, if_neg fun hand => h (by exact_mod_cast hand.2)]

/-- A byte that is no hexadecimal digit does not occur in a size. -/
theorem not_mem_digits {c : UInt8} (h : isDigitOf 16 c = false) : c ∉ text.digits := by
  intro hmem
  rw [text.hex c hmem] at h
  cases h

/-- The line break behind the text is the first. -/
theorem find_digits (rest : Bytes) :
    find kCRLF (text.digits ++ kCRLF ++ rest) = some text.digits.length :=
  find_of_dropInfix? (dropInfix?_of_not_mem (text.not_mem_digits (by decide)))

/-- A part of the line without its last byte holds no line break. -/
theorem find_of_short {piece : Bytes} (h : piece <+: text.digits ++ kCRLF)
    (hlen : piece.length < text.digits.length + 2) : find kCRLF piece = none := by
  refine find_eq_none.mpr fun hin => ?_
  have hfront : piece <+: text.digits ++ [13] := by
    refine List.prefix_of_prefix_length_le h ⟨[10], ?_⟩ ?_
    · rw [List.append_assoc]
      rfl
    · rw [List.length_append, List.length_singleton]
      omega
  have hmem : (10 : UInt8) ∈ text.digits ++ [13] := hfront.subset (hin.subset (by decide))
  rcases List.mem_append.mp hmem with hdigit | hcr
  · exact text.not_mem_digits (by decide) hdigit
  · exact absurd hcr (by decide)

end SizeText

/-! ### Decoding the pieces of a body -/

/-- Decoding pieces one after the other, up to the first that ends the run. -/
def decodeAll : Int → List Bytes → List Bytes × Exit
  | chunkSize, [] => ([], .more (.chunked chunkSize))
  | chunkSize, piece :: pieces =>
    match (decode chunkSize piece).2 with
    | .more (.chunked chunkSize') =>
      ((decode chunkSize piece).1 ++ (decodeAll chunkSize' pieces).1,
        (decodeAll chunkSize' pieces).2)
    | exit => ((decode chunkSize piece).1, exit)

/-- The machine decodes the pieces of a chunked body. -/
theorem takeAll_chunked (allowRedirect : Bool) (chunkSize : Int) (pieces : List Bytes) :
    (Phase.chunked chunkSize).takeAll allowRedirect pieces =
      ((decodeAll chunkSize pieces).1.map .onData, (decodeAll chunkSize pieces).2) := by
  induction pieces generalizing chunkSize with
  | nil => rfl
  | cons piece pieces ih =>
    -- a decoder that goes on is still in a chunked body: the two other phases do not occur
    have hexit := decode_exit chunkSize piece
    rw [Phase.takeAll, decodeAll, take_chunked]
    cases hdecode : (decode chunkSize piece).2 with
    | more phase =>
      rw [hdecode] at hexit
      cases phase with
      | head buffer => exact absurd hexit id
      | plain contentLength recvLength => exact absurd hexit id
      | chunked chunkSize' =>
        simp only [ih chunkSize', List.map_append]
        rfl
    | finished => rfl
    | failed code errorCode => rfl
    | redirected url => rfl
    | crashed fault => rfl

/-- Decoding pieces ends as decoding one does. -/
theorem decodeAll_exit (chunkSize : Int) (pieces : List Bytes) :
    (decodeAll chunkSize pieces).2.OfDecode := by
  induction pieces generalizing chunkSize with
  | nil => trivial
  | cons piece pieces ih =>
    have hexit := decode_exit chunkSize piece
    rw [decodeAll]
    split
    · exact ih _
    · exact hexit

section

variable {chunkSize chunkSize' : Int} {piece rest : Bytes} {pieces : List Bytes}

/-- A piece that leaves the decoder going is followed by the next. -/
theorem decodeAll_of_more (h : (decode chunkSize piece).2 = .more (.chunked chunkSize'))
    (pieces : List Bytes) :
    decodeAll chunkSize (piece :: pieces) =
      ((decode chunkSize piece).1 ++ (decodeAll chunkSize' pieces).1,
        (decodeAll chunkSize' pieces).2) := by
  rw [decodeAll]
  simp only [h]

/-- A piece that ends the run is the last. -/
theorem decodeAll_of_eq {data : List Bytes} {exit : Exit}
    (h : decode chunkSize piece = (data, exit)) (hexit : ∀ phase, exit ≠ .more phase)
    (pieces : List Bytes) : decodeAll chunkSize (piece :: pieces) = (data, exit) := by
  rw [decodeAll, h]
  dsimp only
  split
  · exact absurd rfl (hexit _)
  · rfl

/-- An empty piece changes nothing. -/
@[simp] theorem decodeAll_nil_cons :
    decodeAll chunkSize ([] :: pieces) = decodeAll chunkSize pieces := by
  have hmore : (decode chunkSize []).2 = .more (.chunked chunkSize) := by rw [decode_nil]
  rw [decodeAll_of_more hmore, decode_nil]
  rfl

/-- Where the decoding of a piece goes on with a part of it, the decoding of the pieces does. -/
theorem decodeAll_of_decode (data : List Bytes)
    (h : decode chunkSize piece = (data ++ (decode chunkSize' rest).1, (decode chunkSize' rest).2))
    (pieces : List Bytes) :
    decodeAll chunkSize (piece :: pieces) =
      (data ++ (decodeAll chunkSize' (rest :: pieces)).1,
        (decodeAll chunkSize' (rest :: pieces)).2) := by
  have hexit := decode_exit chunkSize' rest
  rw [decodeAll, decodeAll, h]
  dsimp only
  cases hdecode : (decode chunkSize' rest).2 with
  | more phase =>
    rw [hdecode] at hexit
    cases phase with
    | head buffer => exact absurd hexit id
    | plain contentLength recvLength => exact absurd hexit id
    | chunked chunkSize'' => simp only [List.append_assoc]
  | finished => rfl
  | failed code errorCode => rfl
  | redirected url => rfl
  | crashed fault => rfl

/-- A line break at the front of the first piece is skipped. -/
def skipFirst : List Bytes → List Bytes
  | [] => []
  | piece :: pieces => skipCRLF piece :: pieces

/-- A line break in front is skipped. -/
theorem skipCRLF_of_starts (h : kCRLF <+: piece) : skipCRLF piece = piece.drop 2 := by
  rw [skipCRLF, if_pos (find_eq_zero_iff.mpr h)]
  rfl

/-- Without a line break in front nothing is skipped. -/
theorem skipCRLF_of_not_starts (h : ¬ kCRLF <+: piece) : skipCRLF piece = piece := by
  rw [skipCRLF, if_neg fun hfind => h (find_eq_zero_iff.mp hfind)]

/-! ### A size line -/

/-- A size line that comes in one piece is read. -/
theorem decodeAll_sizeText (text : SizeText) (hsize : chunkSize ≤ 0) :
    ∀ pieces : List Bytes, pieces.flatten = text.digits ++ kCRLF ++ rest →
      Uncut pieces 0 (text.digits.length + 2) →
      decodeAll chunkSize pieces =
        match stolHex text.digits with
        | .error fault => ([], .crashed fault)
        | .ok size => if size = 0 then ([], .finished)
            else decodeAll size (skipFirst (dropFront (text.digits.length + 2) pieces)) := by
  refine segments_induction ?_ ?_ ?_
  · intro hflatten
    have hdigits := (List.append_eq_nil_iff.mp (List.append_eq_nil_iff.mp hflatten.symm).1).1
    exact absurd hdigits text.nonempty
  · intro pieces ih hflatten huncut
    -- an empty piece is passed over by the decoder, and no cut counts it
    rw [decodeAll_nil_cons, dropFront_of_lt (Nat.succ_pos _)]
    exact ih hflatten fun m hm hlt => cut_nil_cons.not.mp (huncut m hm hlt)
  · intro piece pieces hne hflatten huncut
    rw [uncut_cons_iff hne] at huncut
    -- the line is not cut, so the first piece holds all of it
    obtain ⟨behind, rfl⟩ : text.digits ++ kCRLF <+: piece := by
      refine List.prefix_of_prefix_length_le ⟨rest, hflatten.symm⟩ ⟨pieces.flatten, rfl⟩ ?_
      rw [List.length_append]
      exact huncut
    have hpos := text.find_digits behind
    have htake : (text.digits ++ kCRLF ++ behind).take text.digits.length = text.digits := by
      rw [List.append_assoc, List.take_left]
    rw [dropFront_of_le huncut]
    cases hnum : stolHex text.digits with
    | error fault =>
      exact decodeAll_of_eq (decode_of_error hsize hpos (by rw [htake]; exact hnum)) (fun _ => Exit.noConfusion) _
    | ok size =>
      dsimp only
      by_cases hzero : size = 0
      · rw [if_pos hzero]
        subst hzero
        exact decodeAll_of_eq (decode_of_zero hsize hpos (by rw [htake]; exact hnum)) (fun _ => Exit.noConfusion) _
      · rw [if_neg hzero]
        refine decodeAll_of_decode [] ?_ pieces
        rw [decode_of_size hsize hpos (by rw [htake]; exact hnum) hzero]
        rfl

/-- A size line that is cut is an error. -/
theorem decodeAll_cut_sizeText (text : SizeText) (hsize : chunkSize ≤ 0) :
    ∀ pieces : List Bytes, pieces.flatten = text.digits ++ kCRLF ++ rest →
      ¬ Uncut pieces 0 (text.digits.length + 2) →
      decodeAll chunkSize pieces = ([], .failed .ChunkSizeError 0) := by
  refine segments_induction ?_ ?_ ?_
  · intro hflatten
    have hdigits := (List.append_eq_nil_iff.mp (List.append_eq_nil_iff.mp hflatten.symm).1).1
    exact absurd hdigits text.nonempty
  · intro pieces ih hflatten hcut
    rw [decodeAll_nil_cons]
    exact ih hflatten fun huncut => hcut fun m hm hlt => cut_nil_cons.not.mpr (huncut m hm hlt)
  · intro piece pieces hne hflatten hcut
    rw [uncut_cons_iff hne, Nat.not_le] at hcut
    have hpre : piece <+: text.digits ++ kCRLF := by
      refine List.prefix_of_prefix_length_le ⟨pieces.flatten, rfl⟩ ⟨rest, hflatten.symm⟩ ?_
      rw [List.length_append]
      exact hcut.le
    exact decodeAll_of_eq (decode_of_find_none hsize hne (text.find_of_short hpre hcut))
      (fun _ => Exit.noConfusion) _

/-! ### A payload -/

/-- The bytes of an open chunk are delivered, however they are cut. -/
theorem decodeAll_payload {size : Nat} (hsize : 0 < size) (h : size ≤ pieces.flatten.length) :
    ∃ data : List Bytes, data.flatten = pieces.flatten.take size ∧
      decodeAll size pieces =
        (data ++ (decodeAll 0 (skipFirst (dropFront size pieces))).1,
          (decodeAll 0 (skipFirst (dropFront size pieces))).2) := by
  induction pieces generalizing size with
  | nil =>
    rw [List.flatten_nil, List.length_nil] at h
    omega
  | cons piece pieces ih =>
    -- induction on the pieces, with the part of the size that is still to come
    by_cases hne : piece = []
    · subst hne
      rw [List.flatten_cons, List.nil_append] at h ⊢
      rw [decodeAll_nil_cons, dropFront_of_lt hsize]
      exact ih hsize h
    rcases Nat.lt_or_ge piece.length size with hlt | hle
    · -- the piece is used up, and the rest of the chunk is in the pieces behind it
      rw [List.flatten_cons, List.length_append] at h
      obtain ⟨data, hdata, hrest⟩ := @ih (size - piece.length) (by omega) (by omega)
      have hmin : min (size : Int).toNat piece.length = piece.length := by omega
      have hcast : (size : Int) - (piece.length : Nat) = (size - piece.length : Nat) := by omega
      have hdecode : decode size piece = ([piece], .more (.chunked (size - piece.length : Nat))) := by
        rw [decode_of_pos (by omega) hne, hmin, List.take_length, List.drop_length, hcast]
        show (piece :: (decode _ []).1, (decode _ []).2) = _
        rw [decode_nil]
      refine ⟨piece :: data, ?_, ?_⟩
      · rw [List.flatten_cons, hdata, List.flatten_cons, List.take_append,
          List.take_of_length_le (Nat.le_of_lt hlt)]
      · rw [decodeAll_of_more (congrArg Prod.snd hdecode), hdecode, hrest, dropFront_of_lt hlt]
        rfl
    -- the payload ends in this piece, and the rest of it starts the next chunk
    · refine ⟨[piece.take size], ?_, ?_⟩
      · rw [List.flatten_singleton, List.flatten_cons, List.take_append_of_le_length hle]
      · have hmin : min (size : Int).toNat piece.length = size := by omega
        rw [dropFront_of_le hle]
        refine decodeAll_of_decode _ ?_ pieces
        rw [decode_of_pos (by omega) hne, hmin, Int.sub_self]
        rfl

/-! ### Line breaks at the front -/

/-- The first piece is a front of the bytes. -/
theorem prefix_flatten (piece : Bytes) (pieces : List Bytes) : piece <+: (piece :: pieces).flatten :=
  ⟨pieces.flatten, rfl⟩

/-- Without a line break in front of the bytes nothing is skipped. -/
theorem skipFirst_of_not_prefix (h : ¬ kCRLF <+: pieces.flatten) : skipFirst pieces = pieces := by
  cases pieces with
  | nil => rfl
  | cons piece pieces =>
    rw [skipFirst, skipCRLF_of_not_starts fun hpiece => h (hpiece.trans (prefix_flatten _ _))]

/-- A line break that comes in one piece is skipped. -/
theorem skipFirst_of_le (h : kCRLF <+: (piece :: pieces).flatten) (hlen : 2 ≤ piece.length) :
    skipFirst (piece :: pieces) = dropFront 2 (piece :: pieces) := by
  have hpiece := List.prefix_of_prefix_length_le h (prefix_flatten piece pieces) hlen
  rw [skipFirst, skipCRLF_of_starts hpiece, dropFront_of_le hlen]

/-- A line break that is cut is not. -/
theorem skipFirst_of_lt (hlen : piece.length < 2) :
    skipFirst (piece :: pieces) = piece :: pieces := by
  rw [skipFirst, skipCRLF_of_not_starts]
  intro hpiece
  have hle := hpiece.length_le
  have hcrlf : kCRLF.length = 2 := rfl
  omega

/-- Without an open chunk, a decoder that comes to a line break does not finish. -/
theorem decodeAll_lineBreak (hsize : chunkSize ≤ 0) :
    ∀ pieces : List Bytes, pieces.flatten = kCRLF ++ rest →
      (decodeAll chunkSize pieces).2 ≠ .finished := by
  refine segments_induction ?_ ?_ ?_
  · intro hflatten
    cases hflatten
  · intro pieces ih hflatten
    rw [decodeAll_nil_cons]
    exact ih hflatten
  · intro piece pieces hne hflatten
    rcases Nat.lt_or_ge piece.length 2 with hlt | hle
    -- a piece of one byte shows no line break, so there is no size line
    · have hnone : find kCRLF piece = none := by
        refine find_eq_none.mpr fun hin => ?_
        have hlen := hin.length_le
        have hcrlf : kCRLF.length = 2 := rfl
        omega
      rw [decodeAll_of_eq (decode_of_find_none hsize hne hnone) fun _ => Exit.noConfusion]
      exact Exit.noConfusion
    -- the line break ends an empty size line, and that is no number
    · have hpre : kCRLF <+: piece :=
        List.prefix_of_prefix_length_le ⟨rest, hflatten.symm⟩ (prefix_flatten piece pieces) hle
      have hnum : stolHex (piece.take 0) = .error .invalidArgument := by
        rw [List.take_zero]
        decide
      rw [decodeAll_of_eq (decode_of_error hsize (find_eq_zero_iff.mpr hpre) hnum)
        fun _ => Exit.noConfusion]
      exact Exit.noConfusion

/-- A line break behind a payload does not make it start with one. -/
theorem prefix_payload_iff {payload : Bytes} (hne : payload ≠ []) :
    kCRLF <+: payload ++ (kCRLF ++ rest) ↔ kCRLF <+: payload := by
  constructor
  · intro h
    rcases Nat.lt_or_ge payload.length 2 with hlt | hle
    · have hpos := List.length_pos_iff.mpr hne
      obtain ⟨c, rfl⟩ := List.length_eq_one_iff.mp (by omega : payload.length = 1)
      -- behind a single byte the line break starts with the wrong one
      have hcons : ([13, 10] : Bytes) <+: c :: 13 :: 10 :: rest := h
      simp at hcons
    · exact List.prefix_of_prefix_length_le h (List.prefix_append _ _) hle
  · exact fun h => h.trans (List.prefix_append _ _)

/-! ### A chunk behind its size line -/

/-- A line break that starts the payload and is skipped is made up for by the one behind the
payload. -/
theorem decodeAll_stripped (chunk : Chunk)
    (hflatten : (piece :: pieces).flatten = chunk.payload ++ (kCRLF ++ rest))
    (hpre : kCRLF <+: chunk.payload) (hlen : 2 ≤ piece.length) (hrest : ¬ kCRLF <+: rest) :
    ∃ data : List Bytes, data.flatten = chunk.payload.drop 2 ++ kCRLF ∧
      decodeAll chunk.payload.length (skipFirst (piece :: pieces)) =
        (data ++ (decodeAll 0 (dropFront (chunk.payload.length + 2) (piece :: pieces))).1,
          (decodeAll 0 (dropFront (chunk.payload.length + 2) (piece :: pieces))).2) := by
  have hpos := List.length_pos_iff.mpr chunk.proper
  have hle := hpre.length_le
  have hcrlf : kCRLF.length = 2 := rfl
  -- behind the size line `skipCRLF` takes the line break off the payload itself
  rw [skipFirst_of_le (hflatten ▸ hpre.trans (List.prefix_append _ _)) hlen]
  have hskipped : (dropFront 2 (piece :: pieces)).flatten =
      chunk.payload.drop 2 ++ kCRLF ++ rest := by
    rw [flatten_dropFront, hflatten, List.drop_append_of_le_length (by omega), List.append_assoc]
  have hsplit : (chunk.payload.drop 2 ++ kCRLF).length = chunk.payload.length := by
    rw [List.length_append, List.length_drop]
    omega
  -- the whole size is still counted, so the line break behind the payload is delivered in its place
  obtain ⟨data, hdata, hdecode⟩ := @decodeAll_payload (dropFront 2 (piece :: pieces)) _ hpos (by
    rw [hskipped, List.length_append, hsplit]
    omega)
  refine ⟨data, ?_, ?_⟩
  · rw [hdata, hskipped, List.take_left' hsplit]
  · rw [hdecode, dropFront_dropFront hpos, Nat.add_comm 2, skipFirst_of_not_prefix]
    rw [flatten_dropFront, hflatten, ← List.append_assoc, List.drop_left' (by
      rw [List.length_append]
      omega)]
    exact hrest

/-- A payload of which nothing is skipped. -/
theorem decodeAll_kept (chunk : Chunk)
    (hflatten : (piece :: pieces).flatten = chunk.payload ++ (kCRLF ++ rest))
    (hkept : ¬ (kCRLF <+: chunk.payload ∧ 2 ≤ piece.length)) :
    ∃ data : List Bytes, data.flatten = chunk.payload ∧
      decodeAll chunk.payload.length (skipFirst (piece :: pieces)) =
        (data ++ (decodeAll 0 (skipFirst (dropFront chunk.payload.length (piece :: pieces)))).1,
          (decodeAll 0 (skipFirst (dropFront chunk.payload.length (piece :: pieces)))).2) := by
  -- the payload starts differently, or its first piece is too short to show how it starts
  have hskip : skipFirst (piece :: pieces) = piece :: pieces := by
    by_cases hpre : kCRLF <+: chunk.payload
    · exact skipFirst_of_lt (Nat.not_le.mp fun hle => hkept ⟨hpre, hle⟩)
    · refine skipFirst_of_not_prefix ?_
      rw [hflatten, prefix_payload_iff chunk.proper]
      exact hpre
  obtain ⟨data, hdata, hdecode⟩ := @decodeAll_payload (piece :: pieces) _
    (List.length_pos_iff.mpr chunk.proper) (by
      rw [hflatten, List.length_append]
      omega)
  refine ⟨data, ?_, ?_⟩
  · rw [hdata, hflatten, List.take_left]
  · rw [hskip, hdecode]

end

/-! ### Where a body may be cut -/

/-- The length of the size line of a chunk. -/
def SizeText.lineLength (text : SizeText) : Nat := text.digits.length + 2

/-- The payload of the chunk at this offset starts with a line break that comes in one piece with the
size line. The decoder skips it. -/
def Chunk.Stripped (chunk : Chunk) (pieces : List Bytes) (offset : Nat) : Prop :=
  kCRLF <+: chunk.payload ∧ ¬ Cut pieces (offset + chunk.lineLength) ∧
    ¬ Cut pieces (offset + chunk.lineLength + 1)

/-- The decoder comes through the chunk at this offset: its size is in range, its size line is not cut,
and unless a line break is skipped in front of the payload there is no cut in front of the line break
behind it or inside that. -/
def Chunk.Reads (chunk : Chunk) (pieces : List Bytes) (offset : Nat) : Prop :=
  chunk.payload.length < 2 ^ 63 ∧ Uncut pieces offset (offset + chunk.lineLength) ∧
    (chunk.Stripped pieces offset ∨
      ¬ Cut pieces (offset + (chunk.lineLength + chunk.payload.length)) ∧
        ¬ Cut pieces (offset + (chunk.lineLength + chunk.payload.length) + 1))

open Classical in
/-- What the decoder delivers of the chunk at this offset. -/
noncomputable def Chunk.delivered (chunk : Chunk) (pieces : List Bytes) (offset : Nat) : Bytes :=
  if chunk.Stripped pieces offset then chunk.payload.drop 2 ++ kCRLF else chunk.payload

/-- A chunk is its size line, its payload and a line break. -/
theorem Chunk.length_encode (chunk : Chunk) :
    chunk.encode.length = chunk.lineLength + (chunk.payload.length + 2) := by
  rw [encode, List.length_append, List.length_append, List.length_append, SizeText.lineLength]
  rfl

variable {chunkSize : Int} {rest : Bytes} {pieces : List Bytes}

/-- The pieces behind the size line of a chunk. -/
theorem Chunk.behindSize (chunk : Chunk) (hflatten : pieces.flatten = chunk.encode ++ rest) :
    ∃ piece more, dropFront chunk.lineLength pieces = piece :: more ∧
      (piece :: more).flatten = chunk.payload ++ (kCRLF ++ rest) := by
  have hbehind : (dropFront chunk.lineLength pieces).flatten = chunk.payload ++ (kCRLF ++ rest) := by
    have hline : (chunk.digits ++ kCRLF).length = chunk.lineLength := by
      rw [List.length_append]
      rfl
    rw [flatten_dropFront, hflatten, encode, List.append_assoc, List.drop_left' hline,
      List.append_assoc]
  cases hdrop : dropFront chunk.lineLength pieces with
  | nil =>
    rw [hdrop] at hbehind
    exact absurd (List.append_eq_nil_iff.mp hbehind.symm).1 chunk.proper
  | cons piece more =>
    rw [hdrop] at hbehind
    exact ⟨piece, more, rfl, hbehind⟩

/-- A size line that is not cut opens its chunk. -/
theorem Chunk.decodeAll_size (chunk : Chunk) (hsize : chunkSize ≤ 0)
    (hflatten : pieces.flatten = chunk.encode ++ rest) (hbound : chunk.payload.length < 2 ^ 63)
    (huncut : Uncut pieces 0 chunk.lineLength) :
    decodeAll chunkSize pieces =
      decodeAll chunk.payload.length (skipFirst (dropFront chunk.lineLength pieces)) := by
  have hpos := List.length_pos_iff.mpr chunk.proper
  rw [encode, List.append_assoc] at hflatten
  rw [decodeAll_sizeText chunk.toSizeText hsize pieces hflatten huncut, chunk.stolHex_digits,
    chunk.size, if_pos hbound]
  exact if_neg (by omega)

/-- **Through a chunk.** A decoder without an open chunk comes through a chunk that is cut only where it
may be, and is without an open chunk again. -/
theorem decodeAll_chunk (chunk : Chunk) (hsize : chunkSize ≤ 0)
    (hflatten : pieces.flatten = chunk.encode ++ rest) (hrest : ¬ kCRLF <+: rest)
    (h : chunk.Reads pieces 0) :
    ∃ data : List Bytes, data.flatten = chunk.delivered pieces 0 ∧
      decodeAll chunkSize pieces =
        (data ++ (decodeAll 0 (dropFront chunk.encode.length pieces)).1,
          (decodeAll 0 (dropFront chunk.encode.length pieces)).2) := by
  obtain ⟨hbound, huncut, hcuts⟩ := h
  rw [Nat.zero_add] at huncut
  simp only [Nat.zero_add] at hcuts
  obtain ⟨piece, more, hdrop, hbehind⟩ := chunk.behindSize hflatten
  have hline : 0 < chunk.lineLength := Nat.succ_pos _
  have hpos := List.length_pos_iff.mpr chunk.proper
  have hlong := not_cut_dropFront_iff hline hdrop
  have hback : ∀ n, 0 < n →
      dropFront n (piece :: more) = dropFront (chunk.lineLength + n) pieces := by
    intro n hn
    rw [← hdrop, dropFront_dropFront hn]
  rw [chunk.decodeAll_size hsize hflatten hbound huncut, hdrop, Chunk.length_encode, Chunk.delivered]
  by_cases hstripped : chunk.Stripped pieces 0
  · rw [if_pos hstripped, ← hback _ (by omega)]
    obtain ⟨hpre, hcut⟩ := hstripped
    rw [Nat.zero_add] at hcut
    exact decodeAll_stripped chunk hbehind hpre (hlong.mp hcut) hrest
  · obtain ⟨data, hdata, hdecode⟩ := decodeAll_kept chunk hbehind fun ⟨hpre, hle⟩ =>
      hstripped ⟨hpre, by rw [Nat.zero_add]; exact hlong.mpr hle⟩
    refine ⟨data, by rw [hdata, if_neg hstripped], ?_⟩
    -- the line break behind the payload comes in one piece
    have hnot := hcuts.resolve_left hstripped
    have hflat : (dropFront (chunk.lineLength + chunk.payload.length) pieces).flatten =
        kCRLF ++ rest := by
      rw [← hback _ hpos, flatten_dropFront, hbehind, List.drop_left]
    rw [hdecode, hback _ hpos]
    cases hlast : dropFront (chunk.lineLength + chunk.payload.length) pieces with
    | nil =>
      rw [hlast] at hflat
      cases hflat
    | cons last lasts =>
      have hle := (not_cut_dropFront_iff (by omega) hlast).mp hnot
      rw [hlast] at hflat
      rw [skipFirst_of_le (hflat ▸ List.prefix_append _ _) hle, ← hlast,
        dropFront_dropFront (by omega), Nat.add_assoc]

/-- A decoder does not finish over a chunk that is cut where it may not be. -/
theorem decodeAll_not_chunk (chunk : Chunk) (hsize : chunkSize ≤ 0)
    (hflatten : pieces.flatten = chunk.encode ++ rest) (h : ¬ chunk.Reads pieces 0) :
    (decodeAll chunkSize pieces).2 ≠ .finished := by
  have hflatten' := hflatten
  rw [Chunk.encode, List.append_assoc] at hflatten'
  by_cases huncut : Uncut pieces 0 chunk.lineLength
  swap
  · rw [decodeAll_cut_sizeText chunk.toSizeText hsize pieces hflatten' huncut]
    exact Exit.noConfusion
  by_cases hbound : chunk.payload.length < 2 ^ 63
  swap
  · rw [decodeAll_sizeText chunk.toSizeText hsize pieces hflatten' huncut, chunk.stolHex_digits,
      chunk.size, if_neg hbound]
    exact Exit.noConfusion
  have hcuts : ¬ (chunk.Stripped pieces 0 ∨
      ¬ Cut pieces (0 + (chunk.lineLength + chunk.payload.length)) ∧
        ¬ Cut pieces (0 + (chunk.lineLength + chunk.payload.length) + 1)) :=
    fun hcuts => h ⟨hbound, by rwa [Nat.zero_add], hcuts⟩
  simp only [Nat.zero_add] at hcuts
  obtain ⟨hstripped, hcut⟩ := not_or.mp hcuts
  obtain ⟨piece, more, hdrop, hbehind⟩ := chunk.behindSize hflatten
  have hpos := List.length_pos_iff.mpr chunk.proper
  have hlong := not_cut_dropFront_iff (Nat.succ_pos _) hdrop
  obtain ⟨data, -, hdecode⟩ := decodeAll_kept chunk hbehind fun ⟨hpre, hle⟩ =>
    hstripped ⟨hpre, by rw [Nat.zero_add]; exact hlong.mpr hle⟩
  rw [chunk.decodeAll_size hsize hflatten hbound huncut, hdrop, hdecode, ← hdrop,
    dropFront_dropFront hpos]
  have hflat : (dropFront (chunk.lineLength + chunk.payload.length) pieces).flatten =
      kCRLF ++ rest := by
    rw [← dropFront_dropFront hpos, hdrop, flatten_dropFront, hbehind, List.drop_left]
  -- the line break is cut, so it is not skipped
  cases hlast : dropFront (chunk.lineLength + chunk.payload.length) pieces with
  | nil =>
    rw [hlast] at hflat
    cases hflat
  | cons last lasts =>
    have hlt := Nat.not_le.mp ((not_cut_dropFront_iff (by omega) hlast).not.mp hcut)
    rw [hlast] at hflat
    rw [skipFirst_of_lt hlt]
    exact decodeAll_lineBreak le_rfl _ hflat

/-! ### A whole body -/

/-- The decoder comes through all chunks from this offset on, and the size line of the last chunk is not
cut. -/
def BodyReads (pieces : List Bytes) : Nat → List Chunk → LastChunk → Prop
  | offset, [], last => Uncut pieces offset (offset + last.lineLength)
  | offset, chunk :: chunks, last =>
    chunk.Reads pieces offset ∧ BodyReads pieces (offset + chunk.encode.length) chunks last

/-- What the decoder delivers of chunks from this offset on. -/
noncomputable def deliveredBody (pieces : List Bytes) : Nat → List Chunk → Bytes
  | _, [] => []
  | offset, chunk :: chunks =>
    chunk.delivered pieces offset ++ deliveredBody pieces (offset + chunk.encode.length) chunks

/-- A stretch is uncut behind a front that was dropped where it is uncut behind it. -/
theorem uncut_dropFront (n a b : Nat) :
    Uncut (dropFront n pieces) a b ↔ Uncut pieces (n + a) (n + b) := by
  constructor
  · intro h m hm hlt hcut
    have hadd : n + (m - n) = m := by omega
    exact h (m - n) (by omega) (by omega)
      ((cut_dropFront (by omega) n pieces).mpr (by rw [hadd]; exact hcut))
  · intro h m hm hlt hcut
    exact h (n + m) (by omega) (by omega) ((cut_dropFront (by omega) n pieces).mp hcut)

/-- The same for a chunk that loses its line break. -/
theorem Chunk.stripped_dropFront (chunk : Chunk) (n offset : Nat) :
    chunk.Stripped (dropFront n pieces) offset ↔ chunk.Stripped pieces (n + offset) := by
  have hline : 0 < chunk.lineLength := Nat.succ_pos _
  rw [Stripped, Stripped, cut_dropFront (by omega), cut_dropFront (by omega)]
  simp only [Nat.add_assoc]

/-- The same for a chunk that is read. -/
theorem Chunk.reads_dropFront (chunk : Chunk) (n offset : Nat) :
    chunk.Reads (dropFront n pieces) offset ↔ chunk.Reads pieces (n + offset) := by
  have hline : 0 < chunk.lineLength := Nat.succ_pos _
  rw [Reads, Reads, uncut_dropFront, chunk.stripped_dropFront, cut_dropFront (by omega),
    cut_dropFront (by omega)]
  simp only [Nat.add_assoc]

/-- The same for what is delivered of a chunk. -/
theorem Chunk.delivered_dropFront (chunk : Chunk) (n offset : Nat) :
    chunk.delivered (dropFront n pieces) offset = chunk.delivered pieces (n + offset) := by
  have hiff := @stripped_dropFront pieces chunk n offset
  rw [delivered, delivered]
  by_cases h : chunk.Stripped pieces (n + offset)
  · rw [if_pos h, if_pos (hiff.mpr h)]
  · rw [if_neg h, if_neg (hiff.not.mpr h)]

/-- The same for a body that is read. -/
theorem bodyReads_dropFront (n : Nat) (chunks : List Chunk) (last : LastChunk) (offset : Nat) :
    BodyReads (dropFront n pieces) offset chunks last ↔
      BodyReads pieces (n + offset) chunks last := by
  induction chunks generalizing offset with
  | nil =>
    rw [BodyReads, BodyReads, uncut_dropFront]
    simp only [Nat.add_assoc]
  | cons chunk chunks ih =>
    rw [BodyReads, BodyReads, chunk.reads_dropFront, ih, Nat.add_assoc]

/-- The same for what is delivered of a body. -/
theorem deliveredBody_dropFront (n : Nat) (chunks : List Chunk) (offset : Nat) :
    deliveredBody (dropFront n pieces) offset chunks =
      deliveredBody pieces (n + offset) chunks := by
  induction chunks generalizing offset with
  | nil => rfl
  | cons chunk chunks ih =>
    rw [deliveredBody, deliveredBody, chunk.delivered_dropFront, ih, Nat.add_assoc]

/-- A size line does not start with a line break. -/
theorem SizeText.not_prefix (text : SizeText) : ¬ kCRLF <+: text.digits ++ rest := by
  obtain ⟨c, digits, hdigits⟩ := List.exists_cons_of_ne_nil text.nonempty
  have hdigit := text.not_mem_digits (show isDigitOf 16 13 = false by decide)
  rw [hdigits] at hdigit ⊢
  intro h
  have hcons : ([13, 10] : Bytes) <+: c :: (digits ++ rest) := h
  rw [List.cons_prefix_cons] at hcons
  exact hdigit (hcons.1 ▸ List.mem_cons_self)

/-- A body does not start with a line break. -/
theorem not_prefix_encodeBody (chunks : List Chunk) (last : LastChunk) :
    ¬ kCRLF <+: encodeBody chunks last := by
  cases chunks with
  | nil =>
    rw [encodeBody, List.flatMap_nil, List.nil_append, LastChunk.encode, List.append_assoc]
    exact last.not_prefix
  | cons chunk chunks =>
    rw [encodeBody, List.flatMap_cons, Chunk.encode, List.append_assoc, List.append_assoc,
      List.append_assoc]
    exact chunk.not_prefix

/-- The first chunk of a body stands in front of the others. -/
theorem encodeBody_cons (chunk : Chunk) (chunks : List Chunk) (last : LastChunk) :
    encodeBody (chunk :: chunks) last = chunk.encode ++ encodeBody chunks last := by
  rw [encodeBody, List.flatMap_cons, List.append_assoc]
  rfl

/-- **Through a body.** The decoder finishes over a well-formed body exactly when that is cut only where
it may be. -/
theorem decodeAll_body (chunks : List Chunk) (last : LastChunk) (hsize : chunkSize ≤ 0)
    (hflatten : pieces.flatten = encodeBody chunks last) :
    (BodyReads pieces 0 chunks last → ∃ data : List Bytes,
        data.flatten = deliveredBody pieces 0 chunks ∧
          decodeAll chunkSize pieces = (data, .finished)) ∧
      (¬ BodyReads pieces 0 chunks last → (decodeAll chunkSize pieces).2 ≠ .finished) := by
  induction chunks generalizing chunkSize pieces with
  | nil =>
    -- only the last size line is left
    have hline : pieces.flatten = last.digits ++ kCRLF ++ kCRLF := hflatten
    rw [BodyReads, Nat.zero_add]
    constructor
    · intro huncut
      refine ⟨[], rfl, ?_⟩
      rw [decodeAll_sizeText last.toSizeText hsize pieces hline huncut, last.stolHex_digits, last.size]
      rfl
    · intro hcut
      rw [decodeAll_cut_sizeText last.toSizeText hsize pieces hline hcut]
      exact Exit.noConfusion
  | cons chunk chunks ih =>
    rw [encodeBody_cons] at hflatten
    have hbehind : (dropFront chunk.encode.length pieces).flatten = encodeBody chunks last := by
      rw [flatten_dropFront, hflatten, List.drop_left]
    obtain ⟨ihreads, ihnot⟩ := ih le_rfl hbehind
    rw [bodyReads_dropFront] at ihreads ihnot
    rw [deliveredBody_dropFront] at ihreads
    rw [BodyReads, deliveredBody, Nat.zero_add]
    constructor
    -- the pieces behind a chunk that reads are those of the induction hypothesis
    · rintro ⟨hreads, hrest⟩
      obtain ⟨data, hdata, hdecode⟩ :=
        decodeAll_chunk chunk hsize hflatten (not_prefix_encodeBody chunks last) hreads
      obtain ⟨data', hdata', hdecode'⟩ := ihreads hrest
      refine ⟨data ++ data', ?_, ?_⟩
      · rw [List.flatten_append, hdata, hdata']
        rfl
      · rw [hdecode, hdecode']
    · intro hnot
      -- the first chunk that does not read decides
      by_cases hreads : chunk.Reads pieces 0
      · obtain ⟨data, -, hdecode⟩ :=
          decodeAll_chunk chunk hsize hflatten (not_prefix_encodeBody chunks last) hreads
        rw [hdecode]
        exact ihnot fun hrest => hnot ⟨hreads, hrest⟩
      · exact decodeAll_not_chunk chunk hsize hflatten hreads

/-! ### Two cuttings of one body -/

/-- The chunks from this offset on lose a line break at the front in both cuttings or in neither, unless
that makes no difference. -/
def SameStripped (pieces pieces' : List Bytes) : Nat → List Chunk → Prop
  | _, [] => True
  | offset, chunk :: chunks =>
    ((chunk.Stripped pieces offset ↔ chunk.Stripped pieces' offset) ∨
        chunk.payload.drop 2 ++ kCRLF = chunk.payload) ∧
      SameStripped pieces pieces' (offset + chunk.encode.length) chunks

/-- As many bytes are delivered as were sent. -/
theorem Chunk.length_delivered (chunk : Chunk) (pieces : List Bytes) (offset : Nat) :
    (chunk.delivered pieces offset).length = chunk.payload.length := by
  rw [delivered]
  split
  · next h =>
    have hle := h.1.length_le
    have hcrlf : kCRLF.length = 2 := rfl
    rw [List.length_append, List.length_drop]
    omega
  · rfl

/-- A chunk arrives alike in two cuttings that strip it alike, unless stripping makes no difference. -/
theorem Chunk.delivered_eq_iff (chunk : Chunk) (pieces pieces' : List Bytes) (offset : Nat) :
    chunk.delivered pieces offset = chunk.delivered pieces' offset ↔
      (chunk.Stripped pieces offset ↔ chunk.Stripped pieces' offset) ∨
        chunk.payload.drop 2 ++ kCRLF = chunk.payload := by
  rw [delivered, delivered]
  by_cases h : chunk.Stripped pieces offset
  · by_cases h' : chunk.Stripped pieces' offset
    · simp [h, h']
    · simp [h, h']
  · by_cases h' : chunk.Stripped pieces' offset
    · simp [h, h', eq_comm]
    · simp [h, h']

/-- Two cuttings of a body deliver the same exactly when every chunk does. -/
theorem deliveredBody_eq_iff (pieces pieces' : List Bytes) (chunks : List Chunk) (offset : Nat) :
    deliveredBody pieces offset chunks = deliveredBody pieces' offset chunks ↔
      SameStripped pieces pieces' offset chunks := by
  induction chunks generalizing offset with
  | nil => exact iff_of_true rfl trivial
  | cons chunk chunks ih =>
    rw [deliveredBody, deliveredBody, SameStripped, ← ih, ← chunk.delivered_eq_iff]
    constructor
    · intro h
      exact List.append_inj h (by rw [chunk.length_delivered, chunk.length_delivered])
    · rintro ⟨h, hrest⟩
      rw [h, hrest]

/-- **A body arrives as it was sent**, from this offset on: the decoder comes through every chunk and through the
last size line, and no chunk loses a line break in front of its payload, unless that makes no difference. -/
def Arrives (pieces : List Bytes) : Nat → List Chunk → LastChunk → Prop
  | offset, [], last => Uncut pieces offset (offset + last.lineLength)
  | offset, chunk :: chunks, last =>
    chunk.Reads pieces offset ∧
      (chunk.Stripped pieces offset → chunk.payload.drop 2 ++ kCRLF = chunk.payload) ∧
      Arrives pieces (offset + chunk.encode.length) chunks last

/-- A chunk arrives as it was sent unless a line break is stripped that is missed. -/
theorem Chunk.delivered_eq_payload_iff (chunk : Chunk) (pieces : List Bytes) (offset : Nat) :
    chunk.delivered pieces offset = chunk.payload ↔
      (chunk.Stripped pieces offset → chunk.payload.drop 2 ++ kCRLF = chunk.payload) := by
  rw [delivered]
  by_cases h : chunk.Stripped pieces offset
  · simp [h]
  · simp [h]

/-- A body arrives when the decoder comes through it and delivers the payloads. -/
theorem arrives_iff (pieces : List Bytes) (chunks : List Chunk) (last : LastChunk) (offset : Nat) :
    Arrives pieces offset chunks last ↔
      BodyReads pieces offset chunks last ∧
        deliveredBody pieces offset chunks = (chunks.map (·.payload)).flatten := by
  induction chunks generalizing offset with
  | nil => exact (and_iff_left rfl).symm
  | cons chunk chunks ih =>
    rw [Arrives, BodyReads, deliveredBody, List.map_cons, List.flatten_cons, ih,
      ← chunk.delivered_eq_payload_iff]
    constructor
    · rintro ⟨hreads, hchunk, hrest, hbody⟩
      exact ⟨⟨hreads, hrest⟩, by rw [hchunk, hbody]⟩
    · rintro ⟨⟨hreads, hrest⟩, hbody⟩
      obtain ⟨hchunk, hbody⟩ := List.append_inj hbody (chunk.length_delivered pieces offset)
      exact ⟨hreads, hchunk, hrest, hbody⟩

/-! ### Runs over chunked responses -/

section

variable {head body : Bytes} {response : ResponseHeader} {rounds : List Round} {s : State}

/-- What an undisturbed run shows of a chunked response. -/
theorem transcript_chunked (env : Env) (hs : s.Undisturbed) (hsocket : s.socket_.isSome)
    (redirect : Bytes → Worker Unit) (hhead : ParsesTo head response)
    (hstay : (response.isNeedRedirect && s.info_.isAllowRedirect) = false)
    (hcoding : response.headers.lookup kTransferEncoding = some kChunked)
    (hlength : ∃ n, parseFieldValueInt64 response.headers kContentLength int64Max = .ok n)
    (hdelivers : Delivers s.timeLeft rounds (head ++ body)) :
    ∃ n, Transcript.of ((receive redirect rounds).run env s) =
      (decodeAll (-1) (dropFront head.length (received rounds))).2.last.prepend
        (.onParseHeaderDone response ::
          (decodeAll (-1) (dropFront head.length (received rounds))).1.map .onData) n := by
  obtain ⟨contentLength, hlength⟩ := hlength
  obtain ⟨n, hn⟩ := transcript_of_flows s.info_.isAllowRedirect hdelivers.flows (.head [])
  rw [takeAll_of_parsesTo hhead hdelivers.flatten, afterHead, hstay, if_neg Bool.false_ne_true,
    hlength] at hn
  dsimp only at hn
  rw [ofHead_chunked hcoding, takeAll_chunked] at hn
  have hof := (transcript_receive env rounds hs hsocket).trans hn
  have hexit := decodeAll_exit (-1) (dropFront head.length (received rounds))
  refine ⟨n, ?_⟩
  rw [run_receive_of_closed redirect rounds fun url hurl => ?_, hof]
  -- the decoding of a body ends in no redirect
  have houtcome := congrArg Transcript.outcome hof
  change ((receive handOver rounds).run env s).outcome = _ at houtcome
  rw [hurl] at houtcome
  cases hdecode : (decodeAll (-1) (dropFront head.length (received rounds))).2 with
  | redirected url =>
    rw [hdecode] at hexit
    exact hexit
  | more phase =>
    rw [hdecode] at houtcome
    cases houtcome
  | finished =>
    rw [hdecode] at houtcome
    cases houtcome
  | failed code errorCode =>
    rw [hdecode] at houtcome
    cases houtcome
  | crashed fault =>
    rw [hdecode] at houtcome
    cases houtcome

/-- A transcript reports a body exactly when the decoder finishes and has delivered it. -/
theorem reportsBody_iff {r : Run State Event Stop Unit} {data : List Bytes} {exit : Exit} {n : Nat}
    (h : Transcript.of r =
      exit.last.prepend (.onParseHeaderDone response :: data.map .onData) n) :
    ReportsBody r response body ↔ exit = .finished ∧ data.flatten = body := by
  have houtcome : r.outcome = exit.last.outcome := congrArg Transcript.outcome h
  have hcallbacks : callbacks r.events =
      .onParseHeaderDone response :: data.map .onData ++ exit.last.callbacks :=
    congrArg Transcript.callbacks h
  rw [ReportsBody, houtcome, hcallbacks]
  constructor
  · rintro ⟨hok, data', hdata', heq⟩
    -- the callbacks tell which of the five exits it was
    cases exit with
    | finished =>
      have hmap : data.map Callback.onData = data'.map .onData :=
        List.append_cancel_right (List.cons.inj heq).2
      have hinj : Function.Injective Callback.onData := fun _ _ h => Callback.onData.inj h
      rw [List.map_injective_iff.mpr hinj hmap]
      exact ⟨rfl, hdata'⟩
    | failed code errorCode =>
      have hmem : Callback.onError code errorCode ∈
          (.onParseHeaderDone response :: data'.map .onData ++ [.onDisconnected] : List Callback) := by
        rw [← heq]
        exact List.mem_append_right _ (List.mem_cons_self ..)
      simp at hmem
    | more phase => cases hok
    | redirected url => cases hok
    | crashed fault => cases hok
  · rintro ⟨rfl, hdata⟩
    exact ⟨rfl, data, hdata, rfl⟩

end

/-- **When the payloads are what the caller gets**: an undisturbed run over a chunked response reports them and the
end without an error, if and only if the body arrives as it was sent. -/
theorem reportsBody_payloads_iff (env : Env) {s : State} (hs : s.Undisturbed) (hsocket : s.socket_.isSome)
    (redirect : Bytes → Worker Unit) {head : Bytes} {response : ResponseHeader} (hhead : ParsesTo head response)
    (hstay : (response.isNeedRedirect && s.info_.isAllowRedirect) = false)
    (hcoding : response.headers.lookup kTransferEncoding = some kChunked)
    (hlength : ∃ n, parseFieldValueInt64 response.headers kContentLength int64Max = .ok n)
    (chunks : List Chunk) (last : LastChunk) {rounds : List Round}
    (hdelivers : Delivers s.timeLeft rounds (head ++ encodeBody chunks last)) :
    ReportsBody ((receive redirect rounds).run env s) response (chunks.map (·.payload)).flatten ↔
      Arrives (received rounds) head.length chunks last := by
  obtain ⟨n, hn⟩ := transcript_chunked env hs hsocket redirect hhead hstay hcoding hlength hdelivers
  have hbody : (dropFront head.length (received rounds)).flatten = encodeBody chunks last := by
    rw [flatten_dropFront, hdelivers.flatten, List.drop_left]
  obtain ⟨hreads, hnot⟩ := @decodeAll_body (-1) _ chunks last (by decide) hbody
  rw [bodyReads_dropFront, Nat.add_zero] at hreads hnot
  rw [deliveredBody_dropFront, Nat.add_zero] at hreads
  rw [reportsBody_iff hn, arrives_iff]
  constructor
  · rintro ⟨hfinished, hdata⟩
    have h := by_contra fun h => hnot h hfinished
    obtain ⟨data, hdelivered, hdecode⟩ := hreads h
    rw [hdecode] at hdata
    exact ⟨h, hdelivered.symm.trans hdata⟩
  · rintro ⟨h, hpayloads⟩
    obtain ⟨data, hdelivered, hdecode⟩ := hreads h
    rw [hdecode]
    exact ⟨rfl, hdelivered.trans hpayloads⟩

/-- **When two cuttings of a chunked response give the same.** Two undisturbed runs of `receive` over the
same head and the same well-formed chunked body, each in pieces of its own and with retries of its own,
report the same body and the end without an error, if and only if both come through every chunk and the
last size line, and every chunk loses a line break in both or in neither, unless that makes no
difference. -/
theorem receive_chunked_agrees_iff (env env' : Env) (s s' : State) (hs : s.Undisturbed)
    (hs' : s'.Undisturbed) (hsocket : s.socket_.isSome) (hsocket' : s'.socket_.isSome)
    (redirect : Bytes → Worker Unit) (head : Bytes) (response : ResponseHeader)
    (hhead : ParsesTo head response)
    (hstay : (response.isNeedRedirect && s.info_.isAllowRedirect) = false)
    (hstay' : (response.isNeedRedirect && s'.info_.isAllowRedirect) = false)
    (hcoding : response.headers.lookup kTransferEncoding = some kChunked)
    (hlength : ∃ n, parseFieldValueInt64 response.headers kContentLength int64Max = .ok n)
    (chunks : List Chunk) (last : LastChunk) (rounds rounds' : List Round)
    (hdelivers : Delivers s.timeLeft rounds (head ++ encodeBody chunks last))
    (hdelivers' : Delivers s'.timeLeft rounds' (head ++ encodeBody chunks last)) :
    (∃ body, ReportsBody ((receive redirect rounds).run env s) response body ∧
        ReportsBody ((receive redirect rounds').run env' s') response body) ↔
      BodyReads (received rounds) head.length chunks last ∧
        BodyReads (received rounds') head.length chunks last ∧
          SameStripped (received rounds) (received rounds') head.length chunks := by
  obtain ⟨n, hn⟩ := transcript_chunked env hs hsocket redirect hhead hstay hcoding hlength hdelivers
  obtain ⟨n', hn'⟩ :=
    transcript_chunked env' hs' hsocket' redirect hhead hstay' hcoding hlength hdelivers'
  have hbody : ∀ rounds timeLeft, Delivers timeLeft rounds (head ++ encodeBody chunks last) →
      (dropFront head.length (received rounds)).flatten = encodeBody chunks last := by
    intro rounds timeLeft h
    rw [flatten_dropFront, h.flatten, List.drop_left]
  obtain ⟨hreads, hnot⟩ := @decodeAll_body (-1) _ chunks last (by decide) (hbody _ _ hdelivers)
  obtain ⟨hreads', hnot'⟩ :=
    @decodeAll_body (-1) _ chunks last (by decide) (hbody _ _ hdelivers')
  rw [bodyReads_dropFront, Nat.add_zero] at hreads hnot hreads' hnot'
  rw [deliveredBody_dropFront, Nat.add_zero] at hreads hreads'
  simp only [reportsBody_iff hn, reportsBody_iff hn', ← deliveredBody_eq_iff]
  constructor
  · rintro ⟨body, ⟨hfinished, hdata⟩, hfinished', hdata'⟩
    have h := by_contra fun h => hnot h hfinished
    have h' := by_contra fun h' => hnot' h' hfinished'
    obtain ⟨data, hdelivered, hdecode⟩ := hreads h
    obtain ⟨data', hdelivered', hdecode'⟩ := hreads' h'
    rw [hdecode] at hdata
    rw [hdecode'] at hdata'
    exact ⟨h, h', by rw [← hdelivered, ← hdelivered', hdata, hdata']⟩
  · rintro ⟨h, h', heq⟩
    obtain ⟨data, hdelivered, hdecode⟩ := hreads h
    obtain ⟨data', hdelivered', hdecode'⟩ := hreads' h'
    rw [hdecode, hdecode']
    exact ⟨_, ⟨rfl, rfl⟩, rfl, by rw [hdelivered, hdelivered', heq]⟩

/-- A chunk of two bytes. -/
def abChunk : Chunk := ⟨⟨bytes "2", by decide, by decide +kernel⟩, bytes "ab", by decide, by decide⟩

/-- A chunk whose payload starts with a line break. -/
def breakChunk : Chunk := ⟨⟨bytes "4", by decide, by decide +kernel⟩, bytes "\r\nab", by decide, by decide⟩

/-- The last chunk in its shortest form. -/
def zeroChunk : LastChunk := ⟨⟨bytes "0", by decide, by decide +kernel⟩, by decide⟩

/-- A body cut behind its chunk, and the same body in one piece. -/
theorem receive_chunked_agrees_iff_ab :
    (∃ body, ReportsBody ((receive handOver [.piece (chunkedHead ++ bytes "2\r\nab\r\n"),
          .piece (bytes "0\r\n\r\n")]).run .plain (.connected { url := [] }))
          (headerOf chunkedHead) body ∧
        ReportsBody ((receive handOver [.piece (chunkedHead ++ bytes "2\r\nab\r\n0\r\n\r\n")]).run
          .plain (.connected { url := [] })) (headerOf chunkedHead) body) ↔
      BodyReads [chunkedHead ++ bytes "2\r\nab\r\n", bytes "0\r\n\r\n"] chunkedHead.length [abChunk]
          zeroChunk ∧
        BodyReads [chunkedHead ++ bytes "2\r\nab\r\n0\r\n\r\n"] chunkedHead.length [abChunk]
          zeroChunk ∧
        SameStripped [chunkedHead ++ bytes "2\r\nab\r\n", bytes "0\r\n\r\n"]
          [chunkedHead ++ bytes "2\r\nab\r\n0\r\n\r\n"] chunkedHead.length [abChunk] :=
  receive_chunked_agrees_iff .plain .plain (.connected { url := [] }) (.connected { url := [] })
    (undisturbed_connected _) (undisturbed_connected _) rfl rfl handOver chunkedHead
    (headerOf chunkedHead) (by rfl) (by rfl) (by rfl) (by rfl) ⟨int64Max, by rfl⟩ [abChunk] zeroChunk _ _
    (delivers_pieces _ [chunkedHead ++ bytes "2\r\nab\r\n", bytes "0\r\n\r\n"] (by decide) (by decide))
    (delivers_pieces _ [chunkedHead ++ bytes "2\r\nab\r\n0\r\n\r\n"] (by decide) (by decide))

/-- What a chunked body reports when its decoding is known. -/
theorem reportsBody_chunked {pieces : List Bytes} (stream : Bytes) {body : Bytes} (data : List Bytes)
    (hne : ∀ piece ∈ pieces, piece ≠ []) (hflatten : pieces.flatten = chunkedHead ++ stream)
    (hdecode : decodeAll (-1) (dropFront chunkedHead.length pieces) = (data, .finished))
    (hdata : data.flatten = body) :
    ReportsBody ((receive handOver (pieces.map .piece)).run .plain (.connected { url := [] }))
      (headerOf chunkedHead) body := by
  obtain ⟨n, hn⟩ := transcript_chunked .plain (undisturbed_connected { url := [] }) rfl handOver
    (by rfl : parseResponseHeader chunkedHead {} =
      .ok (true, chunkedHead.length, headerOf chunkedHead)) (by rfl) (by rfl)
    ⟨int64Max, by rfl⟩ (delivers_pieces _ pieces hne hflatten)
  rw [received_pieces, hdecode] at hn
  exact (reportsBody_iff hn).mpr ⟨rfl, hdata⟩

/-- In one piece the line break at the front of a payload is lost and the one behind it delivered; cut
behind the size line the payload is delivered as it is. Cut behind the payload, the body of another chunk
ends in a fault. -/
theorem receive_chunked_differs :
    encodeBody [breakChunk] zeroChunk = bytes "4\r\n\r\nab\r\n0\r\n\r\n" ∧
      ReportsBody ((receive handOver ([chunkedHead ++ bytes "4\r\n\r\nab\r\n0\r\n\r\n"].map
        .piece)).run .plain (.connected { url := [] })) (headerOf chunkedHead) (bytes "ab\r\n") ∧
      ReportsBody ((receive handOver ([chunkedHead ++ bytes "4\r\n", bytes "\r\nab\r\n0\r\n\r\n"].map
        .piece)).run .plain (.connected { url := [] })) (headerOf chunkedHead) (bytes "\r\nab") ∧
      encodeBody [abChunk] zeroChunk = bytes "2\r\nab" ++ bytes "\r\n0\r\n\r\n" ∧
      ((receive handOver [.piece (chunkedHead ++ bytes "2\r\nab"),
        .piece (bytes "\r\n0\r\n\r\n")]).run .plain (.connected { url := [] })).outcome =
          .error (.fault .invalidArgument) := by
  have hline : find kCRLF (bytes "0\r\n\r\n") = some 1 := by decide
  have hzero : decode 0 (bytes "0\r\n\r\n") = ([], .finished) :=
    decode_of_zero (by decide) hline (by decide)
  have htail : ∀ payload : Bytes, payload.length = 4 →
      decode 4 (payload ++ bytes "0\r\n\r\n") = ([payload], .finished) := by
    intro payload hlen
    have hmin : min (4 : Int).toNat (payload ++ bytes "0\r\n\r\n").length = 4 := by
      rw [List.length_append, hlen]
      rfl
    rw [decode_of_pos (by decide) (by
      rw [← List.length_pos_iff, List.length_append]
      omega), hmin, List.take_left' hlen, List.drop_left' hlen]
    show (payload :: (decode 0 (bytes "0\r\n\r\n")).1, (decode 0 (bytes "0\r\n\r\n")).2) = _
    rw [hzero]
  refine ⟨by decide, ?_, ?_, by decide, ?_⟩
  · refine reportsBody_chunked (bytes "4\r\n\r\nab\r\n0\r\n\r\n") [bytes "ab\r\n"]
      (by decide) (by decide) ?_ (by decide)
    show decodeAll (-1) [bytes "4\r\n\r\nab\r\n0\r\n\r\n"] = _
    refine decodeAll_of_eq ?_ (fun _ => Exit.noConfusion) []
    have hbreak : find kCRLF (bytes "4\r\n\r\nab\r\n0\r\n\r\n") = some 1 := by decide
    have hsize : stolHex ((bytes "4\r\n\r\nab\r\n0\r\n\r\n").take 1) = .ok 4 := by decide
    rw [decode_of_size (by decide) hbreak hsize (by decide)]
    exact htail (bytes "ab\r\n") rfl
  · refine reportsBody_chunked (bytes "4\r\n\r\nab\r\n0\r\n\r\n") [bytes "\r\nab"]
      (by decide) (by decide) ?_ (by decide)
    show decodeAll (-1) [bytes "4\r\n", bytes "\r\nab\r\n0\r\n\r\n"] = _
    have hline : decode (-1) (bytes "4\r\n") = ([], .more (.chunked 4)) := by
      have hbreak : find kCRLF (bytes "4\r\n") = some 1 := by decide
      have hsize : stolHex ((bytes "4\r\n").take 1) = .ok 4 := by decide
      rw [decode_of_size (by decide) hbreak hsize (by decide)]
      exact decode_nil 4
    have hpayload : decode 4 (bytes "\r\nab\r\n0\r\n\r\n") = ([bytes "\r\nab"], .finished) := by
      rw [decode_of_pos (by decide) (by decide)]
      show (bytes "\r\nab" :: (decode 0 (bytes "0\r\n\r\n")).1, (decode 0 (bytes "0\r\n\r\n")).2) = _
      rw [hzero]
    rw [decodeAll_of_more (congrArg Prod.snd hline), hline,
      decodeAll_of_eq hpayload fun _ => Exit.noConfusion]
    rfl
  · have hof : Transcript.of ((receive handOver [.piece (chunkedHead ++ bytes "2\r\nab"),
        .piece (bytes "\r\n0\r\n\r\n")]).run .plain (.connected { url := [] })) = _ :=
      (transcript_receive _ _ (undisturbed_connected _) rfl).trans (transcript_cut_chunk _)
    exact congrArg Transcript.outcome hof

end HttpRequest
