import Patchbay.Frame.Chain

/-!
# `Patchbay.Frame.Exchange` — between frames of the host and buffers of a consumer

What the host delivers becomes views over the very storage the segments had; what a consumer sends becomes
segments over the storage of its buffers. Only a scattered frame that is wanted in one piece is copied.

## Contents
* `Frame.unwrap` — the views of a frame's segments, its headers given back;
* `Frame.compact` — a frame copied into one block;
* `View.cuts` — the stretches that a buffer is sent in; `Frame.ofBuffers` — a frame over the buffers' storage.
-/

namespace Patchbay

open Budget (Failure)

namespace Frame

/-- One view for each segment, over its own storage; the headers go back and the references stay. -/
def unwrap (m : Memory) (f : Frame) : List View × Memory :=
  (f.segments.map Segment.view, f.segments.foldl (fun m _ => m.returnHeader) m)

/-- What a leak report says of a frame in one block. -/
def compactNote : String := "flattened frame"

/-- A copy of a frame's bytes in one block of a budget; the frame stays. -/
def compact (m : Memory) (budget : Nat) (f : Frame) : Except Failure View × Memory :=
  match m.alloc budget .plain (some compactNote) f.length with
  | (.error e, m) => (.error e, m)
  | (.ok block, m) =>
    let (storage, m) := m.shareBlock (block.write 0 f.bytes)
    (.ok (.whole storage), m)

end Frame

/-- The stretches of at most `cap` bytes that cover `count` bytes from `start`. -/
def cutsFrom (cap start count : Nat) : List (Nat × Nat) :=
  if count = 0 then []
  else (start, min count (max cap 1)) :: cutsFrom cap (start + max cap 1) (count - max cap 1)
termination_by count

/-- The stretches of its storage that a buffer is sent in; what reaches beyond the storage is not sent. -/
def View.cuts (v : View) : List Segment :=
  (cutsFrom Frame.largestSegment v.offset v.reach).map fun (offset, length) =>
    Segment.clip v.storage offset length

/-- The stretches of a buffer that are sent show its bytes in order. -/
theorem View.flatMap_bytes_cuts (v : View) : v.cuts.flatMap Segment.bytes = v.bytes := by
  have cover (s : Storage) (cap start count : Nat) :
      (cutsFrom cap start count).flatMap (fun c => (View.mk s c.1 c.2).bytes) =
        (View.mk s start count).bytes := by
    fun_induction cutsFrom cap start count with
    | case1 start => simp [View.bytes_eq]
    | case2 start count h ih =>
      rw [List.flatMap_cons, ih]
      simp only [View.bytes_eq]
      by_cases hc : count ≤ max cap 1
      · rw [Nat.min_eq_left hc, Nat.sub_eq_zero_of_le hc, List.take_zero, List.append_nil]
      · have hm : max cap 1 ≤ count := by omega
        rw [Nat.min_eq_right hm, ← List.drop_drop, ← List.take_add, Nat.add_sub_cancel' hm]
  rw [cuts, List.flatMap_map]
  simp only [Segment.bytes_clip]
  rw [cover, View.bytes_eq, View.bytes_eq, reach, ← List.take_take]
  congr 1
  rw [List.take_of_length_le (by simp)]

namespace Frame

/-- A frame over the buffers' storage, cut into segments. The pool is asked for one header at a time; when it
refuses one, all that were taken go back. -/
def ofBuffers (m : Memory) (buffers : List View) (receivedOn : Option Nat) :
    Except Failure Frame × Memory :=
  match copySegments m (buffers.flatMap View.cuts) with
  | (some segments, m) => (.ok ⟨segments, receivedOn⟩, m)
  | (none, m) => (.error (.poolExhausted 1), m)

end Frame

end Patchbay
