import Patchbay.Proofs.Frame.Cutting

/-!
# `Proofs.Frame.Clipping` — three ways to clip a stretch, and one result

A stretch that reaches beyond its storage is clipped when a buffer is read, when a segment is made, and when a buffer
is cut into segments. Each place has a formula of its own: one lets a sum stop at the largest word, one subtracts
before it adds, one takes pieces off until nothing is left. Here the formulas are computed on words, where a sum can be
too large, a difference negative and a slice out of range. None of that happens, all three show the same bytes, and
those are the ones that the buffers and segments of a host show.

## Contents
* `Word.add?`, `Word.sub?`, `Word.addUpTo`, `Word.slice?` — words, and when an operation on them has no result;
* `View.read?`, `View.clip?`, `View.slice?`, `View.cuts?` — the three clippings on words, and how a segment is read;
* `View.read?_eq`, `View.clip?_eq`, `View.cuts?_eq` — each is defined, and it is what the host computes;
* `bytesWithin` — the bytes of a storage with their positions; `View.bytes_eq_bytesWithin`;
* `View.clippings_agree` — all of them show these.
-/

namespace Patchbay

/-! ## Words -/

namespace Word

/-- The sum of two words, if it is one. -/
def add? (a b : Nat) : Option Nat :=
  if a + b < Budget.sizeBound then some (a + b) else none

/-- The difference of two words, if it is one. -/
def sub? (a b : Nat) : Option Nat :=
  if b ≤ a then some (a - b) else none

/-- The sum of two words, which stops at the largest one. -/
def addUpTo (a b : Nat) : Nat :=
  min (a + b) (Budget.sizeBound - 1)

/-- The bytes from one position up to another, if they come in this order and lie within. -/
def slice? (bytes : List UInt8) (start stop : Nat) : Option (List UInt8) :=
  if start ≤ stop ∧ stop ≤ bytes.length then some ((bytes.drop start).take (stop - start)) else none

variable {a b start stop : Nat} {bytes : List UInt8}

theorem add?_of_lt (h : a + b < Budget.sizeBound) : add? a b = some (a + b) := if_pos h

theorem sub?_of_le (h : b ≤ a) : sub? a b = some (a - b) := if_pos h

theorem slice?_of_le (hstart : start ≤ stop) (hstop : stop ≤ bytes.length) :
    slice? bytes start stop = some ((bytes.drop start).take (stop - start)) :=
  if_pos ⟨hstart, hstop⟩

end Word

/-! ## The three clippings -/

namespace View

/-- A buffer as it is read: both ends are brought back into the storage. -/
def read? (v : View) : Option (List UInt8) :=
  let start := min v.offset v.storage.size
  let stop := min (Word.addUpTo start v.length) v.storage.size
  Word.slice? v.storage.bytes start stop

/-- The stretch that a segment is made of: the start is brought back, then the length. -/
def clip? (v : View) : Option View :=
  let start := min v.offset v.storage.size
  (Word.sub? v.storage.size start).map fun room => v.window start (min v.length room)

/-- A stretch as a segment is read, which relies on its being clipped. -/
def slice? (v : View) : Option (List UInt8) :=
  (Word.add? v.offset v.length).bind (Word.slice? v.storage.bytes v.offset)

/-- Pieces of a stretch taken off its front until nothing is left, each clipped again as its segment is made. -/
def cutsFrom? (storage : Storage) (offset remaining : Nat) : Option (List View) :=
  if remaining = 0 then some []
  else
    let piece := min remaining Frame.largestSegment
    match clip? ⟨storage, offset, piece⟩, Word.add? offset piece, _h : Word.sub? remaining piece with
    | some segment, some offset, some left => (cutsFrom? storage offset left).map (segment :: ·)
    | _, _, _ => none
termination_by remaining
decreasing_by
  have hpositive : 0 < Frame.largestSegment := by decide
  unfold Word.sub? at _h
  split at _h
  · injection _h with _h
    omega
  · cases _h

/-- The stretches that a buffer is sent in: as much of it is cut up as there is of the storage from its start on. -/
def cuts? (v : View) : Option (List View) :=
  cutsFrom? v.storage v.offset (min v.length (v.storage.size - v.offset))

end View

/-! ## None of them fails -/

/-- A segment can be read as it stands. -/
theorem Segment.slice?_view {s : Segment} (h : s.storage.size < Budget.sizeBound) : s.view.slice? = some s.bytes := by
  have hfits := s.fits
  have hstop : s.offset + s.length ≤ s.storage.bytes.length := by rwa [s.storage.length_bytes]
  show (Word.add? s.offset s.length).bind (Word.slice? s.storage.bytes s.offset) = _
  rw [Word.add?_of_lt (Nat.lt_of_le_of_lt hfits h), Option.bind_some,
    Word.slice?_of_le (Nat.le_add_right _ _) hstop, Nat.add_sub_cancel_left]
  exact congrArg some (View.bytes_eq s.view).symm

namespace View

variable {v : View} {storage : Storage}

theorem read?_eq (h : v.storage.size < Budget.sizeBound) : v.read? = some v.bytes := by
  have hlength := v.storage.length_bytes
  have hstart : min v.offset v.storage.size ≤
      min (Word.addUpTo (min v.offset v.storage.size) v.length) v.storage.size := by
    unfold Word.addUpTo
    omega
  have hstop : min (Word.addUpTo (min v.offset v.storage.size) v.length) v.storage.size ≤ v.storage.bytes.length := by
    rw [hlength]
    exact Nat.min_le_right _ _
  unfold read?
  dsimp only
  rw [Word.slice?_of_le hstart hstop, v.bytes_eq]
  congr 1
  -- a start that was brought back has nothing behind it, and a sum that stopped reaches beyond the storage anyway
  apply List.ext_getElem?
  intro i
  simp only [List.getElem?_take, List.getElem?_drop, Word.addUpTo]
  grind

theorem clip?_eq (v : View) : v.clip? = some (Segment.clip v.storage v.offset v.length).view := by
  unfold clip?
  dsimp only
  rw [Word.sub?_of_le (Nat.min_le_right _ _)]
  rfl

/-- As long as what is left lies in the storage, so does the next piece, and so does what is left behind it. -/
theorem cutsFrom?_eq (h : storage.size < Budget.sizeBound) {offset remaining : Nat}
    (hleft : remaining ≤ storage.size - offset) :
    cutsFrom? storage offset remaining =
      some ((cutsFrom Frame.largestSegment offset remaining).map fun cut =>
        (Segment.clip storage cut.1 cut.2).view) := by
  induction remaining using Nat.strong_induction_on generalizing offset with
  | _ remaining ih =>
    rw [cutsFrom?, cutsFrom]
    by_cases hnone : remaining = 0
    · rw [if_pos hnone, if_pos hnone]
      rfl
    have hpositive : 0 < min remaining Frame.largestSegment := by
      simp only [Frame.largestSegment]
      omega
    have hadd : offset + min remaining Frame.largestSegment < Budget.sizeBound := by omega
    have hsub : min remaining Frame.largestSegment ≤ remaining := Nat.min_le_left _ _
    have hbehind : remaining - min remaining Frame.largestSegment ≤
        storage.size - (offset + min remaining Frame.largestSegment) := by omega
    have hrest := ih (remaining - min remaining Frame.largestSegment) (by omega) hbehind
    rw [if_neg hnone, if_neg hnone]
    dsimp only
    split
    · rename_i segment next left hsegment hnext hleft
      obtain rfl := Option.some.inj ((clip?_eq _).symm.trans hsegment)
      obtain rfl := Option.some.inj ((Word.add?_of_lt hadd).symm.trans hnext)
      obtain rfl := Option.some.inj ((Word.sub?_of_le hsub).symm.trans hleft)
      rw [hrest, Option.map_some, List.map_cons]
      -- the last piece may be a short one, and nothing is left behind it
      have hcap : max Frame.largestSegment 1 = Frame.largestSegment := rfl
      rw [hcap]
      by_cases hlast : remaining ≤ Frame.largestSegment
      · have hzero (start : Nat) : cutsFrom Frame.largestSegment start 0 = [] := by rw [cutsFrom, if_pos rfl]
        rw [Nat.min_eq_left hlast, Nat.sub_self, Nat.sub_eq_zero_of_le hlast, hzero, hzero]
      · rw [Nat.min_eq_right (Nat.le_of_not_le hlast)]
    · rename_i hfails
      exact absurd (Word.sub?_of_le hsub) (hfails _ _ _ (clip?_eq _) (Word.add?_of_lt hadd))

theorem cuts?_eq (h : v.storage.size < Budget.sizeBound) : v.cuts? = some (v.cuts.map Segment.view) := by
  rw [cuts?, cutsFrom?_eq h (Nat.min_le_right _ _), cuts, List.map_map]
  rfl

/-- The pieces of a buffer can be read one by one. -/
theorem mapM_slice?_cuts (h : v.storage.size < Budget.sizeBound) :
    (v.cuts.map Segment.view).mapM slice? = some (v.cuts.map Segment.bytes) := by
  have hown : ∀ s ∈ v.cuts, s.view.slice? = some s.bytes := fun s hs =>
    Segment.slice?_view (by rwa [v.cutInto_cuts.own s hs])
  generalize v.cuts = cuts at hown
  induction cuts with
  | nil => rfl
  | cons s rest ih =>
    rw [List.forall_mem_cons] at hown
    rw [List.map_cons, List.mapM_cons, hown.1, ih hown.2]
    rfl

end View

/-! ## What they show -/

/-- The bytes at those positions that lie at most `length` behind `offset`. -/
def bytesWithin (bytes : List UInt8) (offset length : Nat) : List UInt8 :=
  (bytes.zipIdx.filter fun entry => offset ≤ entry.2 ∧ entry.2 - offset < length).map Prod.fst

/-- Positions may be counted from anywhere. -/
theorem map_filter_zipIdx (bytes : List UInt8) (first offset length : Nat) :
    ((bytes.zipIdx first).filter fun entry => offset ≤ entry.2 ∧ entry.2 - offset < length).map Prod.fst =
      (bytes.drop (offset - first)).take (length - (first - offset)) := by
  induction bytes generalizing first with
  | nil => simp
  | cons b rest ih =>
    rw [List.zipIdx_cons]
    by_cases hbefore : first < offset
    · -- in front of the stretch
      have hout : ¬(offset ≤ first ∧ first - offset < length) := by omega
      have hdrop : offset - first = offset - (first + 1) + 1 := by omega
      have htake : length - (first - offset) = length - (first + 1 - offset) := by omega
      rw [List.filter_cons_of_neg (by simpa using hout), ih, hdrop, htake, List.drop_succ_cons]
    have hdrop : offset - first = 0 := by omega
    have hdrop' : offset - (first + 1) = 0 := by omega
    by_cases hin : first - offset < length
    · have htake : length - (first - offset) = length - (first + 1 - offset) + 1 := by omega
      have hboth : offset ≤ first ∧ first - offset < length := by omega
      rw [List.filter_cons_of_pos (by simpa using hboth), List.map_cons, ih, hdrop, hdrop', htake, List.drop_zero,
        List.drop_zero, List.take_succ_cons]
    · -- behind it
      have htake : length - (first - offset) = 0 := by omega
      have htake' : length - (first + 1 - offset) = 0 := by omega
      have hout : ¬(offset ≤ first ∧ first - offset < length) := by omega
      rw [List.filter_cons_of_neg (by simpa using hout), ih, htake, htake', List.take_zero, List.take_zero]

theorem View.bytes_eq_bytesWithin (v : View) : v.bytes = bytesWithin v.storage.bytes v.offset v.length := by
  rw [bytesWithin, map_filter_zipIdx, v.bytes_eq, Nat.sub_zero, Nat.zero_sub, Nat.sub_zero]

/-- **The three clippings agree and stay in the storage.** For every stretch of a storage whose size is a word,
whatever offset and length it asks for: reading it as a buffer, making a segment of it and reading that, and cutting it
up for a frame and reading the pieces are all defined, so no sum or difference on the way leaves the words and no slice
the storage. All three show the bytes of the storage at the positions from `offset` on of which the distance to it is
less than `length`. The buffer, the segment and, if the pool has the headers, the frame that the host makes of the
stretch are these very ones. -/
theorem View.clippings_agree (storage : Storage) (offset length : Nat) (m : Memory) (receivedOn : Option Nat)
    (hsize : storage.size < Budget.sizeBound)
    (hheaders : ∀ free ∈ m.pool.free?, (min length (storage.size - offset) + 2047) / 2048 ≤ free) :
    let v : View := ⟨storage, offset, length⟩
    let s := Segment.clip storage offset length
    let seen := (storage.bytes.zipIdx.filter fun entry => offset ≤ entry.2 ∧ entry.2 - offset < length).map Prod.fst
    (v.read? = some seen ∧ v.bytes = seen) ∧
    (v.clip? = some s.view ∧ s.view.slice? = some seen ∧ s.bytes = seen) ∧
    ∃ f m', Frame.ofBuffers m [v] receivedOn = (.ok f, m') ∧ v.cuts? = some (f.segments.map Segment.view) ∧
      ∃ pieces, (f.segments.map Segment.view).mapM slice? = some pieces ∧ pieces.flatten = seen ∧ f.bytes = seen := by
  intro v s seen
  have hbytes : v.bytes = seen := v.bytes_eq_bytesWithin
  have hclip : s.bytes = seen := (Segment.bytes_clip storage offset length).trans hbytes
  refine ⟨⟨?_, hbytes⟩, ⟨v.clip?_eq, ?_, hclip⟩, ?_⟩
  · rw [← hbytes]
    exact read?_eq hsize
  · rw [← hclip]
    exact Segment.slice?_view hsize
  · have hcount : ∀ free ∈ m.pool.free?, Frame.segmentsFor [v] ≤ free := by
      intro free hfree
      have hone : Frame.segmentsFor [v] = (min length (storage.size - offset) + 2047) / 2048 := by
        show (v.bytes.length + (Frame.largestSegment - 1)) / Frame.largestSegment + 0 = _
        rw [v.length_bytes]
        rfl
      rw [hone]
      exact hheaders free hfree
    have hsegments : (Frame.covering [v] receivedOn).segments = v.cuts := List.flatMap_singleton View.cuts v
    have hframe : (Frame.covering [v] receivedOn).bytes = seen := by
      rw [Frame.bytes_covering, List.flatMap_singleton, hbytes]
    refine ⟨_, _, Frame.ofBuffers_lent hcount, ?_, v.cuts.map Segment.bytes, ?_, ?_, hframe⟩
    · rw [hsegments]
      exact cuts?_eq hsize
    · rw [hsegments]
      exact mapM_slice?_cuts hsize
    · rw [← List.flatMap_def, v.flatMap_bytes_cuts, hbytes]

/-- A stretch that starts at the fourth of five bytes and asks for as many as a word can count shows the last two in all
three places, also where a single header is free. -/
theorem View.clippings_agree_longest :
    let storage : Storage := ⟨0, .cluster (.ofList [1, 2, 3, 4, 5])⟩
    let v : View := ⟨storage, 3, 2 ^ 64 - 1⟩
    let m : Memory := { pool := { limit := some 1 }, references := #[1] }
    storage.size < Budget.sizeBound ∧
      (∀ free ∈ m.pool.free?, (min (2 ^ 64 - 1) (storage.size - 3) + 2047) / 2048 ≤ free) ∧
      v.read? = some [4, 5] ∧ (Segment.clip storage 3 (2 ^ 64 - 1)).view.slice? = some [4, 5] ∧
      ∃ f m', Frame.ofBuffers m [v] none = (.ok f, m') ∧ f.bytes = [4, 5] := by
  intro storage v m
  have hsize : storage.size < Budget.sizeBound := by decide
  have hheaders : ∀ free ∈ m.pool.free?, (min (2 ^ 64 - 1) (storage.size - 3) + 2047) / 2048 ≤ free := by
    intro free hfree
    obtain rfl := Option.some.inj hfree
    decide
  have hseen : bytesWithin storage.bytes 3 (2 ^ 64 - 1) = [4, 5] := by decide
  obtain ⟨⟨hread, -⟩, ⟨-, hslice, -⟩, f, m', hmade, -, pieces, -, -, hframe⟩ :=
    clippings_agree storage 3 (2 ^ 64 - 1) m none hsize hheaders
  exact ⟨hsize, hheaders, hread.trans (congrArg some hseen), hslice.trans (congrArg some hseen), f, m', hmade,
    hframe.trans hseen⟩

end Patchbay
