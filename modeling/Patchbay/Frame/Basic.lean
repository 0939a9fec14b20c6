import Patchbay.Mac
import Patchbay.Memory.Basic
import Patchbay.Total

/-!
# `Patchbay.Frame.Basic` — frames made of segments

A frame is a list of segments. A segment is a stretch of shared storage that lies inside it, and it occupies
one header of the host's pool. Only the bytes of the segments, one after the other, matter to whoever reads
the frame; where the cuts fall does not.

## Contents
* `Segment`, `Segment.clip` — a stretch inside its storage, and how one is cut to fit;
* `Frame`, `Frame.bytes`, `Frame.length`, `Frame.copyInto`, `Frame.destination?`;
* `Frame.destination?_eq`, `Frame.copyInto_eq` — both read the bytes and nothing else;
* `pieces` — bytes cut into stretches of a bounded length;
* `Frame.ofBytes` — a frame over fresh clusters; `Frame.copy` — a frame over the same storage;
* `Memory.releaseFrame` — headers and references given back.
-/

namespace Patchbay

/-- A stretch of shared storage that lies inside it and occupies one header. -/
structure Segment where
  storage : Storage
  offset : Nat
  length : Nat
  fits : offset + length ≤ storage.size
deriving DecidableEq

namespace Segment

/-- The stretch from `offset` of `length` bytes, cut to fit its storage. -/
def clip (storage : Storage) (offset length : Nat) : Segment where
  storage := storage
  offset := min offset storage.size
  length := min length (storage.size - min offset storage.size)
  fits := by omega

/-- A segment over a whole storage. -/
def whole (storage : Storage) : Segment where
  storage := storage
  offset := 0
  length := storage.size
  fits := by omega

/-- The same stretch as a view. -/
def view (s : Segment) : View := ⟨s.storage, s.offset, s.length⟩

/-- The bytes of a segment. -/
def bytes (s : Segment) : List UInt8 := s.view.bytes

@[simp] theorem length_bytes (s : Segment) : s.bytes.length = s.length := by
  have := s.fits
  simp [bytes, view, View.reach]
  omega

/-- Clipping a stretch to its storage loses none of the bytes that it shows. -/
theorem bytes_clip (storage : Storage) (offset length : Nat) :
    (clip storage offset length).bytes = (View.mk storage offset length).bytes := by
  simp only [bytes, view, clip, View.bytes_eq]
  apply List.ext_getElem?
  intro i
  simp only [List.getElem?_take, List.getElem?_drop]
  have := storage.length_bytes
  grind

end Segment

/-- A frame: its segments, and the interface it came in on. -/
structure Frame where
  segments : List Segment := []
  receivedOn : Option Nat := none
deriving DecidableEq

namespace Frame

/-- The bytes of all segments in order. -/
def bytes (f : Frame) : List UInt8 :=
  f.segments.flatMap Segment.bytes

/-- The number of bytes. -/
def length (f : Frame) : Nat :=
  total Segment.length f.segments

/-- The first `n` bytes, gathered segment by segment until there are enough. -/
def gather (n : Nat) : List Segment → List UInt8
  | [] => []
  | s :: rest => if n = 0 then [] else s.bytes.take n ++ gather (n - s.length) rest

/-- Copies the front of the frame over the front of a buffer; answers how many bytes were copied, and the
buffer. -/
def copyInto (f : Frame) (buffer : List UInt8) : Nat × List UInt8 :=
  let copied := gather buffer.length f.segments
  (copied.length, copied ++ buffer.drop copied.length)

/-- The address the frame is sent to, gathered over as many segments as it takes. -/
def destination? (f : Frame) : Option Mac :=
  Mac.ofOctets? (gather 6 f.segments)

/-- Says whether the frame has more than one segment. -/
def isScattered (f : Frame) : Bool :=
  1 < f.segments.length

/-! ## All of it depends on the bytes alone -/

theorem length_bytes (f : Frame) : f.bytes.length = f.length := by
  simp only [bytes, length, length_flatMap_eq_total, Segment.length_bytes]

theorem gather_eq_take (n : Nat) (segments : List Segment) :
    gather n segments = (segments.flatMap Segment.bytes).take n := by
  induction segments generalizing n with
  | nil => simp [gather]
  | cons s rest ih =>
    unfold gather
    split
    · simp_all
    · simp [ih, List.take_append]

theorem destination?_eq (f : Frame) : f.destination? = Mac.destination? f.bytes := by
  rw [destination?, gather_eq_take, Mac.destination?, bytes]

theorem copyInto_eq (f : Frame) (buffer : List UInt8) :
    f.copyInto buffer =
      (min buffer.length f.length,
        f.bytes.take buffer.length ++ buffer.drop (min buffer.length f.length)) := by
  have h : (f.bytes.take buffer.length).length = min buffer.length f.length := by
    rw [List.length_take, length_bytes]
  rw [copyInto, gather_eq_take, ← bytes, h]

end Frame

/-! ## Giving a frame back -/

namespace Memory

/-- Gives back a segment's header and its reference. -/
def releaseSegment (m : Memory) (s : Segment) : Memory :=
  m.returnHeader.release s.storage

/-- Gives back segments in order. -/
def releaseSegments (m : Memory) (segments : List Segment) : Memory :=
  segments.foldl releaseSegment m

/-- Gives back all that a frame holds. -/
def releaseFrame (m : Memory) (f : Frame) : Memory :=
  m.releaseSegments f.segments

end Memory

/-! ## Making frames -/

/-- Bytes cut into stretches of `cap` bytes and a shorter last one, all of at least one byte. -/
def pieces (cap : Nat) : List UInt8 → List (List UInt8)
  | [] => []
  | b :: rest => (b :: rest.take (cap - 1)) :: pieces cap (rest.drop (cap - 1))
termination_by bytes => bytes.length
decreasing_by
  simp only [List.length_drop, List.length_cons]
  omega

theorem flatten_pieces (cap : Nat) (bytes : List UInt8) : (pieces cap bytes).flatten = bytes := by
  fun_induction pieces cap bytes with
  | case1 => rfl
  | case2 b rest ih => simp [ih]

theorem length_pieces (cap : Nat) (bytes : List UInt8) :
    (pieces cap bytes).length = (bytes.length + (max cap 1 - 1)) / max cap 1 := by
  fun_induction pieces cap bytes with
  | case1 =>
    have : max cap 1 - 1 < max cap 1 := by omega
    simp [Nat.div_eq_of_lt this]
  | case2 b rest ih =>
    have hpos : 0 < max cap 1 := by omega
    simp only [List.length_cons, ih, List.length_drop]
    by_cases h : rest.length ≤ cap - 1
    · have h1 : rest.length - (cap - 1) = 0 := by omega
      have h2 : rest.length + 1 + (max cap 1 - 1) = rest.length + max cap 1 := by omega
      have h3 : rest.length < max cap 1 := by omega
      have h4 : max cap 1 - 1 < max cap 1 := by omega
      rw [h1, h2, Nat.add_div_right _ hpos, Nat.div_eq_of_lt h3, Nat.zero_add, Nat.div_eq_of_lt h4]
    · have h2 : rest.length + 1 + (max cap 1 - 1) =
          (rest.length - (cap - 1) + (max cap 1 - 1)) + max cap 1 := by omega
      rw [h2, Nat.add_div_right _ hpos]

namespace Frame

/-- The most bytes that the host puts into one segment. -/
def largestSegment : Nat := 2048

/-- One segment over a fresh cluster for each piece. When the pool runs out of headers, those taken so far
go back. -/
def segmentsOver (m : Memory) : List (List UInt8) → Option (List Segment) × Memory
  | [] => (some [], m)
  | piece :: rest =>
    match m.takeHeader? with
    | none => (none, m)
    | some m =>
      let (storage, m) := m.shareCluster piece
      let segment := Segment.whole storage
      match segmentsOver m rest with
      | (some segments, m) => (some (segment :: segments), m)
      | (none, m) => (none, m.releaseSegment segment)

/-- A frame of the given bytes over fresh clusters of at most `cap` bytes each. -/
def ofBytes (m : Memory) (bytes : List UInt8) (cap : Nat) (receivedOn : Option Nat) :
    Option Frame × Memory :=
  let (segments?, m) := segmentsOver m (pieces cap bytes)
  (segments?.map fun segments => ⟨segments, receivedOn⟩, m)

/-- The same stretches of the same storage under headers of their own. When the pool runs out, those taken
so far go back. -/
def copySegments (m : Memory) : List Segment → Option (List Segment) × Memory
  | [] => (some [], m)
  | segment :: rest =>
    match m.takeHeader? with
    | none => (none, m)
    | some m =>
      match copySegments (m.retain segment.storage) rest with
      | (some segments, m) => (some (segment :: segments), m)
      | (none, m) => (none, m.releaseSegment segment)

/-- A second frame over the same storage, received on the same interface. -/
def copy (m : Memory) (f : Frame) : Option Frame × Memory :=
  let (segments?, m) := copySegments m f.segments
  (segments?.map fun segments => ⟨segments, f.receivedOn⟩, m)

end Frame

end Patchbay
