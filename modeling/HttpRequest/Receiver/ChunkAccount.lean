import HttpRequest.Receiver.Phases

/-! # The account of `parseChunk`

The loop of `Request::parseChunk` reads sizes and hands over slices of its buffer. `account` follows it pass
by pass and writes down what every pass does and at which place of the buffer; `parseChunk` hands over the
slices of its account and leaves what the account says (`parseChunk_eq_account`). That no byte is handed over
twice or out of order, and that the bytes handed over are those the sizes announce, are facts about the
account (`keepsAccount`). -/

namespace HttpRequest

open Foundations

/-! ### The account -/

/-- What a pass of the loop does, and the place in the buffer: it reads the text of a size, or it hands over
a slice. -/
inductive ChunkStep
  | size (offset length : Nat) (value : Int)
  | slice (offset length : Nat)
  deriving DecidableEq, Repr

/-- How the loop ends: the buffer is used up, a size of zero completes the body, there is no line break, or
a text is no number. It leaves what is still to come of the open chunk, and a part of the buffer. -/
inductive ChunkEnd
  | usedUp (chunkSize : Int)
  | completed (dataView : Bytes)
  | broken (dataView : Bytes) (chunkSize : Int)
  | crashed (fault : Fault)

/-- **The account of the loop** over a view that ends where a buffer of this length does. -/
def account (total : Nat) (chunkSize : Int) (view : Bytes) : List ChunkStep × ChunkEnd :=
  if _hview : view = [] then ([], .usedUp chunkSize)
  else if chunkSize ≤ 0 then
    match _hpos : find kCRLF view with
    | none => ([], .broken view chunkSize)
    | some pos =>
      match stolHex (view.take pos) with
      | .error fault => ([], .crashed fault)
      | .ok size =>
        if size = 0 then ([.size (total - view.length) pos 0], .completed view)
        else
          let rest := account total size (skipCRLF (view.drop (pos + kCRLF.length)))
          (.size (total - view.length) pos size :: rest.1, rest.2)
  else
    let size := min chunkSize.toNat view.length
    let rest := account total (chunkSize - size) (skipCRLF (view.drop size))
    (.slice (total - view.length) size :: rest.1, rest.2)
termination_by view.length
decreasing_by
  · have hfound := find_add_length_le _hpos
    have hskip := length_skipCRLF_le (view.drop (pos + kCRLF.length))
    have hlen : kCRLF.length = 2 := rfl
    rw [List.length_drop] at hskip
    omega
  · have hskip := length_skipCRLF_le (view.drop (min chunkSize.toNat view.length))
    have hpos := List.length_pos_iff.mpr _hview
    rw [List.length_drop] at hskip
    omega

/-- The places of the slices. -/
def slices (steps : List ChunkStep) : List (Nat × Nat) :=
  steps.filterMap fun
    | .slice offset length => some (offset, length)
    | .size .. => none

/-- The sizes read. -/
def sizesRead (steps : List ChunkStep) : List Int :=
  steps.filterMap fun
    | .size _ _ value => some value
    | .slice .. => none

/-- The bytes of a slice. -/
def sliceOf (buffer : Bytes) (place : Nat × Nat) : Bytes := (buffer.drop place.1).take place.2

/-- What is still to come of the open chunk when the loop ends, unless a fault ends it. -/
def ChunkEnd.chunkSize : ChunkEnd → Option Int
  | .usedUp chunkSize => some chunkSize
  | .completed _ => some 0
  | .broken _ chunkSize => some chunkSize
  | .crashed _ => none

/-- A size is read when no chunk is open, and no slice has more bytes than are still to come of its chunk. -/
def Within : Int → List ChunkStep → Prop
  | _, [] => True
  | chunkSize, .size _ _ value :: steps => chunkSize ≤ 0 ∧ Within value steps
  | chunkSize, .slice _ length :: steps =>
    0 < length ∧ (length : Int) ≤ chunkSize ∧ Within (chunkSize - length) steps

/-- **What is kept account of.** -/
structure KeepsAccount (buffer : Bytes) (chunkSize : Int) (steps : List ChunkStep) (ending : ChunkEnd) :
    Prop where
  /-- Every size is that of the text at its place. -/
  read : ∀ offset length value, .size offset length value ∈ steps →
    stolHex (sliceOf buffer (offset, length)) = .ok value
  within : Within chunkSize steps
  /-- The slices are disjoint parts of the buffer, in increasing order. -/
  ordered : (slices steps).Pairwise fun a b => a.1 + a.2 ≤ b.1
  inside : ∀ place ∈ slices steps, place.1 + place.2 ≤ buffer.length
  /-- What has been handed over and what is still to come is what was to come and what has been announced. -/
  balance : ∀ final, ending.chunkSize = some final →
    (((slices steps).map fun place => (sliceOf buffer place).length).sum : Int) + max final 0 =
      max chunkSize 0 + ((sizesRead steps).map fun size => max size 0).sum

section

variable {total : Nat} {chunkSize : Int} {view : Bytes}

/-- Of an empty view there is no account. -/
@[simp] theorem account_nil (total : Nat) (chunkSize : Int) :
    account total chunkSize [] = ([], .usedUp chunkSize) := by
  rw [account, dif_pos rfl]

/-- A size line without its break ends the account. -/
theorem account_of_find_none (hsize : chunkSize ≤ 0) (hview : view ≠ []) (hpos : find kCRLF view = none) :
    account total chunkSize view = ([], .broken view chunkSize) := by
  rw [account, dif_neg hview, if_pos hsize]
  split
  · rfl
  · simp_all

/-- A size line is read up to its break. -/
theorem account_of_find_some (hsize : chunkSize ≤ 0) {pos : Nat} (hpos : find kCRLF view = some pos) :
    account total chunkSize view =
      match stolHex (view.take pos) with
      | .error fault => ([], .crashed fault)
      | .ok size =>
        if size = 0 then ([.size (total - view.length) pos 0], .completed view)
        else
          (.size (total - view.length) pos size ::
              (account total size (skipCRLF (view.drop (pos + kCRLF.length)))).1,
            (account total size (skipCRLF (view.drop (pos + kCRLF.length)))).2) := by
  rw [account, dif_neg (ne_nil_of_find hpos), if_pos hsize]
  split
  · simp_all
  · rename_i pos' hpos'
    obtain rfl : pos = pos' := by simpa [hpos] using hpos'
    rfl

/-- A size that is no number ends the account in a fault. -/
theorem account_of_error (hsize : chunkSize ≤ 0) {pos : Nat} (hpos : find kCRLF view = some pos)
    {fault : Fault} (hnum : stolHex (view.take pos) = .error fault) :
    account total chunkSize view = ([], .crashed fault) := by
  rw [account_of_find_some hsize hpos, hnum]

/-- A size of zero completes the body. -/
theorem account_of_zero (hsize : chunkSize ≤ 0) {pos : Nat} (hpos : find kCRLF view = some pos)
    (hnum : stolHex (view.take pos) = .ok 0) :
    account total chunkSize view = ([.size (total - view.length) pos 0], .completed view) := by
  rw [account_of_find_some hsize hpos, hnum]
  exact if_pos rfl

/-- Any other size opens its chunk. -/
theorem account_of_size (hsize : chunkSize ≤ 0) {pos : Nat} (hpos : find kCRLF view = some pos) {size : Int}
    (hnum : stolHex (view.take pos) = .ok size) (hzero : size ≠ 0) :
    account total chunkSize view =
      (.size (total - view.length) pos size ::
          (account total size (skipCRLF (view.drop (pos + kCRLF.length)))).1,
        (account total size (skipCRLF (view.drop (pos + kCRLF.length)))).2) := by
  rw [account_of_find_some hsize hpos, hnum]
  exact if_neg hzero

/-- An open chunk takes its slice. -/
theorem account_of_pos (hsize : 0 < chunkSize) (hview : view ≠ []) :
    account total chunkSize view =
      (.slice (total - view.length) (min chunkSize.toNat view.length) ::
          (account total (chunkSize - (min chunkSize.toNat view.length : Nat))
            (skipCRLF (view.drop (min chunkSize.toNat view.length)))).1,
        (account total (chunkSize - (min chunkSize.toNat view.length : Nat))
            (skipCRLF (view.drop (min chunkSize.toNat view.length)))).2) := by
  rw [account, dif_neg hview, if_neg (by omega)]

end

/-! ### Keeping account -/

/-- What is still to come of the open chunk behind some steps. -/
def openChunk : Int → List ChunkStep → Int
  | chunkSize, [] => chunkSize
  | _, .size _ _ value :: steps => openChunk value steps
  | chunkSize, .slice _ length :: steps => openChunk (chunkSize - length) steps

/-- Steps within their chunks neither lose nor repeat a byte that has been announced. -/
theorem balance_of_within {chunkSize : Int} {steps : List ChunkStep} (h : Within chunkSize steps) :
    (((slices steps).map Prod.snd).sum : Int) + max (openChunk chunkSize steps) 0 =
      max chunkSize 0 + ((sizesRead steps).map fun size => max size 0).sum := by
  induction steps generalizing chunkSize with
  | nil => simp [slices, sizesRead, openChunk]
  | cons step steps ih =>
    cases step with
    | size offset length value =>
      obtain ⟨hsize, hrest⟩ := h
      have hbalance := ih hrest
      have hread : sizesRead (.size offset length value :: steps) = value :: sizesRead steps := rfl
      have hslices : slices (.size offset length value :: steps) = slices steps := rfl
      rw [hread, hslices, openChunk, List.map_cons, List.sum_cons, max_eq_right hsize]
      omega
    | slice offset length =>
      obtain ⟨-, hle, hrest⟩ := h
      have hbalance := ih hrest
      have hread : sizesRead (.slice offset length :: steps) = sizesRead steps := rfl
      have hslices : slices (.slice offset length :: steps) = (offset, length) :: slices steps := rfl
      rw [hread, hslices, openChunk, List.map_cons, List.sum_cons, Nat.cast_add]
      omega

/-- Skipping a line break leaves the rest of the view. -/
theorem suffix_skipCRLF (view : Bytes) : skipCRLF view <:+ view := by
  unfold skipCRLF
  split
  · exact List.drop_suffix _ _
  · exact List.suffix_rfl

/-- What is left of a view is at its end. -/
theorem suffix_skipCRLF_drop (n : Nat) (view : Bytes) : skipCRLF (view.drop n) <:+ view :=
  (suffix_skipCRLF _).trans (List.drop_suffix n view)

/-- A slice at the front of a view is at the front of what is left of the buffer. -/
theorem sliceOf_suffix {buffer view : Bytes} (h : view <:+ buffer) (length : Nat) :
    sliceOf buffer (buffer.length - view.length, length) = view.take length := by
  rw [sliceOf, ← List.suffix_iff_eq_drop.mp h]

/-- A slice inside the buffer is as long as it says. -/
theorem length_sliceOf {buffer : Bytes} {place : Nat × Nat} (h : place.1 + place.2 ≤ buffer.length) :
    (sliceOf buffer place).length = place.2 := by
  rw [sliceOf, List.length_take, List.length_drop]
  omega

/-- The slices stay within their chunks. -/
theorem within_account (total : Nat) (chunkSize : Int) (view : Bytes) :
    Within chunkSize (account total chunkSize view).1 := by
  induction chunkSize, view using decode.induct with
  | case1 chunkSize =>
    rw [account_nil]
    trivial
  | case2 chunkSize view hview hsize hpos =>
    rw [account_of_find_none hsize hview hpos]
    trivial
  | case3 chunkSize view hview hsize pos hpos fault hnum =>
    rw [account_of_error hsize hpos hnum]
    trivial
  | case4 chunkSize view hview hsize pos hpos hnum =>
    rw [account_of_zero hsize hpos hnum]
    exact ⟨hsize, trivial⟩
  | case5 chunkSize view hview hsize pos hpos size hnum hzero ih =>
    rw [account_of_size hsize hpos hnum hzero]
    exact ⟨hsize, ih⟩
  | case6 chunkSize view hview hsize size ih =>
    have hlength := List.length_pos_iff.mpr hview
    rw [account_of_pos (by omega) hview]
    exact ⟨by omega, by omega, ih⟩

/-- What the loop leaves open is what its steps leave open. -/
theorem openChunk_account (total : Nat) (chunkSize : Int) (view : Bytes) {final : Int}
    (hfinal : (account total chunkSize view).2.chunkSize = some final) :
    openChunk chunkSize (account total chunkSize view).1 = final := by
  induction chunkSize, view using decode.induct with
  | case1 chunkSize =>
    rw [account_nil] at hfinal ⊢
    exact Option.some.inj hfinal
  | case2 chunkSize view hview hsize hpos =>
    rw [account_of_find_none hsize hview hpos] at hfinal ⊢
    exact Option.some.inj hfinal
  | case3 chunkSize view hview hsize pos hpos fault hnum =>
    rw [account_of_error hsize hpos hnum] at hfinal
    cases hfinal
  | case4 chunkSize view hview hsize pos hpos hnum =>
    rw [account_of_zero hsize hpos hnum] at hfinal ⊢
    exact Option.some.inj hfinal
  | case5 chunkSize view hview hsize pos hpos size hnum hzero ih =>
    rw [account_of_size hsize hpos hnum hzero] at hfinal ⊢
    exact ih hfinal
  | case6 chunkSize view hview hsize size ih =>
    rw [account_of_pos (by omega) hview] at hfinal ⊢
    exact ih hfinal

/-- The slices of a view lie in it. -/
theorem mem_slices_account {total : Nat} {chunkSize : Int} {view : Bytes} (hview : view.length ≤ total)
    {place : Nat × Nat} (hplace : place ∈ slices (account total chunkSize view).1) :
    total - view.length ≤ place.1 ∧ place.1 + place.2 ≤ total := by
  induction chunkSize, view using decode.induct with
  | case1 chunkSize =>
    rw [account_nil] at hplace
    cases hplace
  | case2 chunkSize view hne hsize hpos =>
    rw [account_of_find_none hsize hne hpos] at hplace
    cases hplace
  | case3 chunkSize view hne hsize pos hpos fault hnum =>
    rw [account_of_error hsize hpos hnum] at hplace
    cases hplace
  | case4 chunkSize view hne hsize pos hpos hnum =>
    rw [account_of_zero hsize hpos hnum] at hplace
    cases hplace
  | case5 chunkSize view hne hsize pos hpos size hnum hzero ih =>
    rw [account_of_size hsize hpos hnum hzero] at hplace
    have hle := (suffix_skipCRLF_drop (pos + kCRLF.length) view).length_le
    have hrest := ih (hle.trans hview) hplace
    omega
  | case6 chunkSize view hne hsize size ih =>
    rw [account_of_pos (by omega) hne] at hplace
    have hle := (suffix_skipCRLF_drop size view).length_le
    rcases List.mem_cons.mp hplace with rfl | hplace
    · have hlength : min chunkSize.toNat view.length ≤ view.length := Nat.min_le_right _ _
      exact ⟨le_rfl, by dsimp only; omega⟩
    · have hrest := ih (hle.trans hview) hplace
      omega

/-- Behind a slice at the front of a view the slices start behind it. -/
theorem ordered_account {total : Nat} {chunkSize : Int} {view : Bytes} (hview : view.length ≤ total) :
    (slices (account total chunkSize view).1).Pairwise fun a b => a.1 + a.2 ≤ b.1 := by
  induction chunkSize, view using decode.induct with
  | case1 chunkSize =>
    rw [account_nil]
    exact .nil
  | case2 chunkSize view hne hsize hpos =>
    rw [account_of_find_none hsize hne hpos]
    exact .nil
  | case3 chunkSize view hne hsize pos hpos fault hnum =>
    rw [account_of_error hsize hpos hnum]
    exact .nil
  | case4 chunkSize view hne hsize pos hpos hnum =>
    rw [account_of_zero hsize hpos hnum]
    exact .nil
  | case5 chunkSize view hne hsize pos hpos size hnum hzero ih =>
    rw [account_of_size hsize hpos hnum hzero]
    exact ih ((suffix_skipCRLF_drop (pos + kCRLF.length) view).length_le.trans hview)
  | case6 chunkSize view hne hsize size ih =>
    have hle := (suffix_skipCRLF_drop size view).length_le
    have hskip := (suffix_skipCRLF (view.drop size)).length_le
    rw [List.length_drop] at hskip
    rw [account_of_pos (by omega) hne]
    refine .cons (fun place hplace => ?_) (ih (hle.trans hview))
    have hbehind := (mem_slices_account (hle.trans hview) hplace).1
    have hsmall : size ≤ view.length := Nat.min_le_right _ _
    show total - view.length + size ≤ place.1
    omega

/-- The sizes are those of texts in the buffer. -/
theorem read_account {buffer : Bytes} {chunkSize : Int} {view : Bytes} (hview : view <:+ buffer)
    {offset length : Nat} {value : Int}
    (hstep : .size offset length value ∈ (account buffer.length chunkSize view).1) :
    stolHex (sliceOf buffer (offset, length)) = .ok value := by
  induction chunkSize, view using decode.induct with
  | case1 chunkSize =>
    rw [account_nil] at hstep
    cases hstep
  | case2 chunkSize view hne hsize hpos =>
    rw [account_of_find_none hsize hne hpos] at hstep
    cases hstep
  | case3 chunkSize view hne hsize pos hpos fault hnum =>
    rw [account_of_error hsize hpos hnum] at hstep
    cases hstep
  | case4 chunkSize view hne hsize pos hpos hnum =>
    rw [account_of_zero hsize hpos hnum, List.mem_singleton, ChunkStep.size.injEq] at hstep
    obtain ⟨rfl, rfl, rfl⟩ := hstep
    rw [sliceOf_suffix hview]
    exact hnum
  | case5 chunkSize view hne hsize pos hpos size hnum hzero ih =>
    rw [account_of_size hsize hpos hnum hzero] at hstep
    rcases List.mem_cons.mp hstep with hfirst | hstep
    · rw [ChunkStep.size.injEq] at hfirst
      obtain ⟨rfl, rfl, rfl⟩ := hfirst
      rw [sliceOf_suffix hview]
      exact hnum
    · exact ih ((suffix_skipCRLF_drop _ view).trans hview) hstep
  | case6 chunkSize view hne hsize size ih =>
    rw [account_of_pos (by omega) hne] at hstep
    rcases List.mem_cons.mp hstep with hfirst | hstep
    · cases hfirst
    · exact ih ((suffix_skipCRLF_drop _ view).trans hview) hstep

/-- **The account is kept**, whatever the buffer and whatever is still to come. -/
theorem keepsAccount (buffer : Bytes) (chunkSize : Int) :
    KeepsAccount buffer chunkSize (account buffer.length chunkSize buffer).1
      (account buffer.length chunkSize buffer).2 := by
  have hinside (place) (hplace : place ∈ slices (account buffer.length chunkSize buffer).1) :
      place.1 + place.2 ≤ buffer.length := (mem_slices_account le_rfl hplace).2
  have hwithin := within_account buffer.length chunkSize buffer
  refine ⟨fun _ _ _ => read_account List.suffix_rfl, hwithin, ordered_account le_rfl, hinside,
    fun final hfinal => ?_⟩
  have hlengths : (slices (account buffer.length chunkSize buffer).1).map
      (fun place => (sliceOf buffer place).length) =
        (slices (account buffer.length chunkSize buffer).1).map Prod.snd :=
    List.map_congr_left fun place hplace => length_sliceOf (hinside place hplace)
  rw [hlengths, ← openChunk_account _ _ _ hfinal]
  exact balance_of_within hwithin

/-! ### `parseChunk` and its account -/

/-- What the loop does at its end. -/
def ChunkEnd.perform (isCompleted : Bool) : ChunkEnd → Worker ChunkResult
  | .usedUp chunkSize => pure ⟨true, [], chunkSize, isCompleted⟩
  | .completed dataView => pure ⟨true, dataView, 0, true⟩
  | .broken dataView chunkSize => do
    handleErrorResponse .ChunkSizeError 0
    pure ⟨false, dataView, chunkSize, isCompleted⟩
  | .crashed fault => Program.stop (.fault fault)

/-- **The loop hands over the slices of its account and ends as it says**, with any fuel that is enough. -/
theorem parseChunkLoop_eq_account {buffer view : Bytes} (hview : view <:+ buffer) {fuel : Nat}
    (hfuel : view.length ≤ fuel) (chunkSize : Int) (isCompleted : Bool) :
    parseChunkLoop fuel view chunkSize isCompleted = (do
      deliver ((slices (account buffer.length chunkSize view).1).map (sliceOf buffer))
      (account buffer.length chunkSize view).2.perform isCompleted) := by
  induction fuel generalizing view chunkSize with
  | zero =>
    obtain rfl : view = [] := List.length_eq_zero_iff.mp (by omega)
    rw [account_nil]
    rfl
  | succ fuel ih =>
    rw [parseChunkLoop]
    by_cases hne : view = []
    · rw [if_pos (List.isEmpty_iff.mpr hne), hne, account_nil]
      rfl
    rw [if_neg (fun h => hne (List.isEmpty_iff.mp h))]
    by_cases hsize : chunkSize ≤ 0
    · rw [if_pos hsize]
      cases hpos : find kCRLF view with
      | none =>
        rw [account_of_find_none hsize hne hpos]
        rfl
      | some pos =>
        have hfound := find_add_length_le hpos
        have hlen : kCRLF.length = 2 := rfl
        have hskip := (suffix_skipCRLF (view.drop (pos + kCRLF.length))).length_le
        rw [List.length_drop] at hskip
        dsimp only
        cases hnum : stolHex (view.take pos) with
        | error fault =>
          rw [account_of_error hsize hpos hnum]
          rfl
        | ok size =>
          rw [throwing_ok, pure_bind]
          by_cases hzero : size = 0
          · subst hzero
            rw [account_of_zero hsize hpos hnum, if_pos rfl]
            rfl
          · rw [account_of_size hsize hpos hnum hzero, if_neg hzero, substrFrom_of_le hfound, throwing_ok,
              pure_bind]
            exact ih ((suffix_skipCRLF_drop _ view).trans hview) (by omega) size
    · have hskip := (suffix_skipCRLF (view.drop (min chunkSize.toNat view.length))).length_le
      have hpos := List.length_pos_iff.mpr hne
      rw [List.length_drop] at hskip
      have hslice := sliceOf_suffix hview (min chunkSize.toNat view.length)
      have hrest := ih ((suffix_skipCRLF_drop (min chunkSize.toNat view.length) view).trans hview) (by omega)
        (chunkSize - (min chunkSize.toNat view.length : Nat))
      have hdeliver (rest : List (Nat × Nat)) (k : Worker ChunkResult) :
          (do deliver (((buffer.length - view.length, min chunkSize.toNat view.length) :: rest).map
                (sliceOf buffer))
              k) = (do
            responseData (Data.ofBytes (view.take (min chunkSize.toNat view.length)))
            deliver (rest.map (sliceOf buffer))
            k) := by
        rw [List.map_cons, deliver, hslice, bind_assoc]
      rw [if_neg hsize, account_of_pos (by omega) hne]
      dsimp only
      rw [substrFrom_of_le (Nat.min_le_right _ _), throwing_ok, pure_bind, hrest]
      exact (hdeliver _ _).symm

/-- What `parseChunk` leaves in `data`. -/
def leftOver (data : Data) (dataView : Bytes) : Data :=
  if dataView.isEmpty then data.destroy else Data.ofBytes dataView

/-- **`parseChunk` does what its account says.** -/
theorem parseChunk_eq_account (data : Data) (chunkSize : Int) (isCompleted : Bool) :
    parseChunk data chunkSize isCompleted = (do
      deliver ((slices (account data.view.length chunkSize data.view).1).map (sliceOf data.view))
      let r ← (account data.view.length chunkSize data.view).2.perform isCompleted
      pure (r.res, leftOver data r.dataView, r.chunkSize, r.isCompleted)) := by
  rw [parseChunk, parseChunkLoop_eq_account List.suffix_rfl le_rfl, bind_assoc]
  rfl

/-- What the loop leaves where it returns. -/
theorem triple_perform (isCompleted : Bool) (ending : ChunkEnd) :
    Program.Triple (fun _ => True) (ending.perform isCompleted)
      (fun r _ => ending.chunkSize = some r.chunkSize ∧
        (r.res = true → r.isCompleted = false → r.dataView = []))
      (fun _ _ => True) fun _ => True := by
  have hsteady : Lasting fun _ => True := ⟨⟨fun _ _ => trivial, fun _ _ _ => trivial⟩, fun _ _ _ => trivial⟩
  cases ending with
  | usedUp chunkSize => exact .pure fun _ _ => ⟨rfl, fun _ _ => rfl⟩
  | completed dataView => exact .pure fun _ _ => ⟨rfl, fun _ h => by cases h⟩
  | broken dataView chunkSize =>
    exact Program.Triple.bind (hsteady.handleErrorResponse (fun _ _ => trivial) _ _) fun _ =>
      .pure fun _ _ => ⟨rfl, fun h => by cases h⟩
  | crashed fault => exact .stop fun _ _ => trivial

/-- What `parseChunk` leaves where it returns. -/
theorem returns_parseChunk {data : Data} {chunkSize : Int} {isCompleted : Bool} {env : Env} {s : State}
    {res done : Bool} {rest : Data} {final : Int}
    (h : ((parseChunk data chunkSize isCompleted).run env s).outcome = .ok (res, rest, final, done)) :
    (account data.view.length chunkSize data.view).2.chunkSize = some final ∧
      (res = true → done = false → rest.view = []) := by
  have hsteady : Steady fun _ => True := ⟨fun _ _ => trivial, fun _ _ _ => trivial⟩
  have htriple : Program.Triple (fun _ => True) (parseChunk data chunkSize isCompleted)
      (fun r _ => (account data.view.length chunkSize data.view).2.chunkSize = some r.2.2.1 ∧
        (r.1 = true → r.2.2.2 = false → r.2.1.view = []))
      (fun _ _ => True) fun _ => True := by
    rw [parseChunk_eq_account]
    refine .bind (hsteady.deliver (fun _ _ => trivial) _) fun _ => .bind (triple_perform _ _) fun r => ?_
    refine .pure fun _ hr => ⟨hr.1, fun hres hdone => ?_⟩
    show (leftOver data r.dataView).view = []
    rw [hr.2 hres hdone]
    rfl
  exact htriple.returns trivial h

/-- **`parseChunk` keeps exact account of its input**: for every buffer and whatever is still to come of a chunk
when it is called. -/
theorem parseChunk_keepsAccount (data : Data) (chunkSize : Int) (isCompleted : Bool) :
    (∀ fuel, data.view.length ≤ fuel → parseChunkLoop fuel data.view chunkSize isCompleted =
      parseChunkLoop data.view.length data.view chunkSize isCompleted) ∧
    (parseChunk data chunkSize isCompleted = do
      deliver ((slices (account data.view.length chunkSize data.view).1).map (sliceOf data.view))
      let r ← (account data.view.length chunkSize data.view).2.perform isCompleted
      pure (r.res, leftOver data r.dataView, r.chunkSize, r.isCompleted)) ∧
    KeepsAccount data.view chunkSize (account data.view.length chunkSize data.view).1
      (account data.view.length chunkSize data.view).2 ∧
    ∀ env s res rest final done,
      ((parseChunk data chunkSize isCompleted).run env s).outcome = .ok (res, rest, final, done) →
        (account data.view.length chunkSize data.view).2.chunkSize = some final ∧
          (res = true → done = false → rest.view = []) := by
  refine ⟨fun fuel hfuel => ?_, parseChunk_eq_account data chunkSize isCompleted, keepsAccount _ _,
    fun env s res rest final done hreturns => ?_⟩
  · rw [parseChunkLoop_eq_account List.suffix_rfl hfuel, parseChunkLoop_eq_account List.suffix_rfl le_rfl]
  · exact returns_parseChunk hreturns

end HttpRequest
