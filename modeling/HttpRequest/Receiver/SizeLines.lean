import HttpRequest.Receiver.Phases

/-! # The size lines of a chunked body

Which parts of a chunked body are read as sizes depends on the pieces it arrives in. `SizeLine` says it
of the pieces alone. This file reads off the size lines how the decoding of a piece ends: it crashes at
a line that is no number, and finishes at one with the value zero. -/

namespace HttpRequest

/-- In the pieces of a chunked body, of whose open chunk so many bytes are to come, this text is read as
a size. -/
inductive SizeLine : Int → List Bytes → Bytes → Prop
  /-- Without an open chunk, the text in front of the first line break of the piece is a size. -/
  | here {chunkSize : Int} {view : Bytes} {pieces : List Bytes} {pos : Nat} :
    chunkSize ≤ 0 → find kCRLF view = some pos →
    SizeLine chunkSize (view :: pieces) (view.take pos)
  /-- The size opens a chunk. A line break that starts it is not counted. -/
  | behindSize {chunkSize size : Int} {view line : Bytes} {pieces : List Bytes} {pos : Nat} :
    chunkSize ≤ 0 → find kCRLF view = some pos → stolHex (view.take pos) = .ok size → size ≠ 0 →
    SizeLine size (skipCRLF (view.drop (pos + kCRLF.length)) :: pieces) line →
    SizeLine chunkSize (view :: pieces) line
  /-- The piece has bytes of the open chunk. A line break behind them is not counted. -/
  | behindData {chunkSize : Int} {view line : Bytes} {pieces : List Bytes} :
    0 < chunkSize → view ≠ [] →
    SizeLine (chunkSize - (min chunkSize.toNat view.length : Nat))
      (skipCRLF (view.drop (min chunkSize.toNat view.length)) :: pieces) line →
    SizeLine chunkSize (view :: pieces) line
  /-- The piece is used up. -/
  | next {chunkSize : Int} {line : Bytes} {pieces : List Bytes} :
    SizeLine chunkSize pieces line → SizeLine chunkSize ([] :: pieces) line

variable {chunkSize : Int} {view line : Bytes} {pieces : List Bytes}

/-- Without pieces no size is read. -/
theorem not_sizeLine_nil : ¬ SizeLine chunkSize [] line := nofun

/-- An empty piece holds no size. -/
@[simp] theorem sizeLine_nil_cons :
    SizeLine chunkSize ([] :: pieces) line ↔ SizeLine chunkSize pieces line := by
  constructor
  · intro h
    cases h with
    | here hsize hpos => exact absurd rfl (ne_nil_of_find hpos)
    | behindSize hsize hpos => exact absurd rfl (ne_nil_of_find hpos)
    | behindData hsize hview => exact absurd rfl hview
    | next h => exact h
  · exact .next

/-- Without a line break no size is read. -/
theorem not_sizeLine_of_find_none (hsize : chunkSize ≤ 0) (hview : view ≠ [])
    (hpos : find kCRLF view = none) : ¬ SizeLine chunkSize (view :: pieces) line := by
  intro h
  cases h with
  | here hsize' hpos' =>
    rw [hpos] at hpos'
    cases hpos'
  | behindSize hsize' hpos' =>
    rw [hpos] at hpos'
    cases hpos'
  | behindData hsize' => omega
  | next h => exact hview rfl

/-- Without an open chunk, the size lines are the first line and, unless its value is zero, those of the
chunk it opens. -/
theorem sizeLine_of_find_some (hsize : chunkSize ≤ 0) {pos : Nat} (hpos : find kCRLF view = some pos) :
    SizeLine chunkSize (view :: pieces) line ↔ line = view.take pos ∨
      ∃ size, stolHex (view.take pos) = .ok size ∧ size ≠ 0 ∧
        SizeLine size (skipCRLF (view.drop (pos + kCRLF.length)) :: pieces) line := by
  constructor
  · intro h
    cases h with
    | here hsize' hpos' =>
      rw [hpos] at hpos'
      cases hpos'
      exact .inl rfl
    | behindSize hsize' hpos' hnum hzero h =>
      rw [hpos] at hpos'
      cases hpos'
      exact .inr ⟨_, hnum, hzero, h⟩
    | behindData hsize' => omega
    | next h => exact absurd rfl (ne_nil_of_find hpos)
  · rintro (rfl | ⟨size, hnum, hzero, h⟩)
    · exact .here hsize hpos
    · exact .behindSize hsize hpos hnum hzero h

/-- Behind an open chunk the sizes are those behind its slice. -/
theorem sizeLine_of_pos (hsize : 0 < chunkSize) (hview : view ≠ []) :
    SizeLine chunkSize (view :: pieces) line ↔
      SizeLine (chunkSize - (min chunkSize.toNat view.length : Nat))
        (skipCRLF (view.drop (min chunkSize.toNat view.length)) :: pieces) line := by
  constructor
  · intro h
    cases h with
    | here hsize' hpos => omega
    | behindSize hsize' hpos => omega
    | behindData hsize' hview' h => exact h
    | next h => exact absurd rfl hview
  · exact .behindData hsize hview

/-- **The size lines of pieces** are those of the first piece and, when its decoding leaves the decoder
waiting, those that the following pieces have from there. -/
theorem sizeLine_cons (chunkSize : Int) (view line : Bytes) (pieces : List Bytes) :
    SizeLine chunkSize (view :: pieces) line ↔ SizeLine chunkSize [view] line ∨
      ∃ chunkSize', (decode chunkSize view).2 = .more (.chunked chunkSize') ∧
        SizeLine chunkSize' pieces line := by
  -- one case for each branch of the decoder
  induction chunkSize, view using decode.induct with
  | case1 chunkSize => simp [not_sizeLine_nil]
  | case2 chunkSize view hview hsize hpos =>
    rw [decode_of_find_none hsize hview hpos]
    simp [not_sizeLine_of_find_none hsize hview hpos]
  | case3 chunkSize view hview hsize pos hpos fault hnum =>
    rw [decode_of_error hsize hpos hnum]
    simp [sizeLine_of_find_some hsize hpos, hnum]
  | case4 chunkSize view hview hsize pos hpos hnum =>
    rw [decode_of_zero hsize hpos hnum]
    simp [sizeLine_of_find_some hsize hpos, hnum]
  | case5 chunkSize view hview hsize pos hpos size hnum hzero ih =>
    rw [decode_of_size hsize hpos hnum hzero]
    simp only [sizeLine_of_find_some hsize hpos, hnum, Except.ok.injEq, exists_eq_left', ne_eq,
      hzero, not_false_eq_true, true_and, ih, or_assoc]
  | case6 chunkSize view hview hsize size ih =>
    rw [decode_of_pos (by omega) hview, sizeLine_of_pos (by omega) hview,
      sizeLine_of_pos (by omega) hview]
    exact ih

/-- How the decoding ends at a size line. One that opens a chunk does not end it. -/
def lineExit (line : Bytes) : Option Exit :=
  match stolHex line with
  | .error fault => some (.crashed fault)
  | .ok size => if size = 0 then some .finished else none

/-- A size line ends in a fault where its text is no number. -/
theorem lineExit_eq_crashed {fault : Fault} :
    lineExit line = some (.crashed fault) ↔ stolHex line = .error fault := by
  unfold lineExit
  cases stolHex line with
  | error fault' => simp
  | ok size => by_cases hzero : size = 0 <;> simp [hzero]

/-- A size line ends the body where its text is zero. -/
theorem lineExit_eq_finished : lineExit line = some .finished ↔ stolHex line = .ok 0 := by
  unfold lineExit
  cases stolHex line with
  | error fault => simp
  | ok size => by_cases hzero : size = 0 <;> simp [hzero]

/-- **A piece whose decoding finishes or crashes has a size line at which it does.** -/
theorem decode_eq_iff {exit : Exit} (hexit : exit = .finished ∨ ∃ fault, exit = .crashed fault) (chunkSize : Int)
    (view : Bytes) :
    (decode chunkSize view).2 = exit ↔ ∃ line, SizeLine chunkSize [view] line ∧ lineExit line = some exit := by
  have hmore (phase : Phase) : Exit.more phase ≠ exit := by
    rcases hexit with rfl | ⟨fault, rfl⟩ <;> nofun
  have hfailed (code : ResultCode) (errorCode : Int) : Exit.failed code errorCode ≠ exit := by
    rcases hexit with rfl | ⟨fault, rfl⟩ <;> nofun
  -- one case for each branch of the decoder
  induction chunkSize, view using decode.induct with
  | case1 chunkSize => simp [not_sizeLine_nil, hmore]
  | case2 chunkSize view hview hsize hpos =>
    rw [decode_of_find_none hsize hview hpos]
    simp [not_sizeLine_of_find_none hsize hview hpos, hfailed]
  | case3 chunkSize view hview hsize pos hpos fault hnum =>
    rw [decode_of_error hsize hpos hnum]
    simp [sizeLine_of_find_some hsize hpos, lineExit, hnum]
  | case4 chunkSize view hview hsize pos hpos hnum =>
    rw [decode_of_zero hsize hpos hnum]
    simp [sizeLine_of_find_some hsize hpos, lineExit, hnum]
  | case5 chunkSize view hview hsize pos hpos size hnum hzero ih =>
    rw [decode_of_size hsize hpos hnum hzero]
    have hopens : lineExit (view.take pos) ≠ some exit := by simp [lineExit, hnum, hzero]
    refine ih.trans ?_
    simp [sizeLine_of_find_some hsize hpos, hnum, hzero, hopens]
  | case6 chunkSize view hview hsize size ih =>
    rw [decode_of_pos (by omega) hview]
    simp only [sizeLine_of_pos (by omega : 0 < chunkSize) hview]
    exact ih

/-- **Decoding a piece crashes at a size line that is no number.** -/
theorem decode_crashed_iff (chunkSize : Int) (view : Bytes) :
    (∃ fault, (decode chunkSize view).2 = .crashed fault) ↔
      ∃ line, SizeLine chunkSize [view] line ∧ ∃ fault, stolHex line = .error fault := by
  have hends (fault : Fault) : (decode chunkSize view).2 = .crashed fault ↔
      ∃ line, SizeLine chunkSize [view] line ∧ stolHex line = .error fault := by
    rw [decode_eq_iff (.inr ⟨fault, rfl⟩)]
    simp only [lineExit_eq_crashed]
  simp only [hends]
  rw [exists_comm]
  simp only [exists_and_left]

/-- **Decoding a piece finishes at a size line with the value zero.** -/
theorem decode_finished_iff (chunkSize : Int) (view : Bytes) :
    (decode chunkSize view).2 = .finished ↔
      ∃ line, SizeLine chunkSize [view] line ∧ stolHex line = .ok 0 := by
  rw [decode_eq_iff (.inl rfl)]
  simp only [lineExit_eq_finished]

end HttpRequest
