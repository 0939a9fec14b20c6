import Patchbay.Frame.Exchange
import Patchbay.Proofs.Estate.Sharing

/-!
# `Proofs.Estate.Frame` — frames, chains and queues trade what they hold

Whatever is made of segments is made for its estate and given up for its estate. An operation that stops halfway
gives back all that it took: its answer holds nothing then.

## Contents
* `Memory.trades_releaseFrame` and its kin — what is given up comes back whole;
* `Frame.trades_ofBytes`, `Frame.trades_copy`, `Frame.trades_ofBuffers`, `Frame.trades_compact`,
  `Frame.trades_unwrap`, `Chain.trades_make` — what is made;
* `Queue.Operates`, with `Queue.operates_push`, `Queue.operates_take?`, `Queue.operates_drain`, `Queue.operates_clear`.
-/

namespace Patchbay

open Budget (Block)

variable {k : Memory.Bookkeeping} [Memory.Tally k]

namespace Memory

/-! ## Giving up -/

/-- A segment goes with its header and its reference. -/
theorem trades_releaseSegment (m : Memory) (s : Segment) :
    Trades (Settled k) m (estate s) (m.releaseSegment s) 0 := by
  refine ((trades_returnHeader m).frame (.reference s.storage)).trans ?_
  rw [zero_add]
  exact trades_release _ s.storage

/-- So do many. -/
theorem trades_releaseSegments (m : Memory) (segments : List Segment) :
    Trades (Settled k) m (estate segments) (m.releaseSegments segments) 0 :=
  Trades.foldl trades_releaseSegment segments m

/-- A frame goes with its segments. -/
theorem trades_releaseFrame (m : Memory) (f : Frame) :
    Trades (Settled k) m (estate f) (m.releaseFrame f) 0 :=
  trades_releaseSegments m f.segments

theorem trades_releaseFrames (m : Memory) (frames : List Frame) :
    Trades (Settled k) m (estate frames) (m.releaseFrames frames) 0 :=
  Trades.foldl trades_releaseFrame frames m

theorem trades_releaseChain (m : Memory) (c : Chain) :
    Trades (Settled k) m (estate c) (m.releaseChain c) 0 :=
  trades_releaseFrames m c.frames

/-- A node goes with its packet and its block. -/
theorem trades_releaseNode (m : Memory) (n : Node) :
    Trades (Settled k) m (estate n) (m.releaseNode n) 0 := by
  refine ((trades_releaseChain m n.chain).frame (estate n.charge)).trans ?_
  rw [zero_add]
  exact trades_free _ n.charge

end Memory

open Memory (Settled)

namespace Frame

/-! ## Making -/

/-- Headers and clusters are taken piece by piece; when the headers run out, all of them go back. -/
theorem trades_segmentsOver (m : Memory) (bytes : List (List UInt8)) :
    Trades (Settled k) m 0 (segmentsOver m bytes).2 (estate (segmentsOver m bytes).1) := by
  -- on the pieces: the first segment is held while the others are made
  induction bytes generalizing m with
  | nil => exact .refl m 0
  | cons piece rest ih =>
    unfold segmentsOver
    cases ht : m.takeHeader? with
    | none => exact .refl m 0
    | some m₁ =>
      cases hc : m₁.shareCluster piece with
      | mk storage m₂ =>
        have hcluster := m₁.trades_shareCluster (k := k) piece
        rw [hc] at hcluster
        have hsegment : Trades (Settled k) m 0 m₂ (estate (Segment.whole storage)) := by
          refine (Memory.trades_takeHeader ht).trans ?_
          exact (hcluster.frame .header).cast (zero_add _).symm (add_comm _ _)
        cases hs : segmentsOver m₂ rest with
        | mk segments? m₃ =>
          have hrest := ih m₂
          rw [hs] at hrest
          have hboth := hsegment.trans ((hrest.frame (estate (Segment.whole storage))).cast
            (zero_add _).symm (add_comm _ _))
          cases segments? with
          | some segments => simpa only [hc, hs, estate_some, estate_cons] using hboth
          -- those behind gave back what they took; this one goes back here
          | none =>
            simp only [hc, hs]
            rw [estate_none, add_zero] at hboth
            exact hboth.trans (m₃.trades_releaseSegment _)

/-- A frame that is made is lent what it has; one that cannot be made whole goes back as far as it was made. -/
theorem trades_ofBytes (m : Memory) (bytes : List UInt8) (cap : Nat) (receivedOn : Option Nat) :
    Trades (Settled k) m 0 (ofBytes m bytes cap receivedOn).2
      (estate (ofBytes m bytes cap receivedOn).1) := by
  have h := trades_segmentsOver (k := k) m (pieces cap bytes)
  unfold ofBytes
  cases hs : segmentsOver m (pieces cap bytes) with
  | mk segments? m' =>
    rw [hs] at h
    cases segments? <;> exact h

/-- References may be multiplied by whoever has them; when the headers run out, all of the new ones go back. -/
theorem trades_copySegments {a : Estate} (m : Memory) (segments : List Segment)
    (hs : ∀ s ∈ segments, s.storage ∈ a.references) :
    Trades (Settled k) m a (copySegments m segments).2 (a + estate (copySegments m segments).1) := by
  -- on the segments; the copies made so far join the estate that the others are copied from
  induction segments generalizing m a with
  | nil => exact (Trades.refl m a).cast rfl (add_zero a)
  | cons segment rest ih =>
    unfold copySegments
    cases ht : m.takeHeader? with
    | none => exact (Trades.refl m a).cast rfl (add_zero a)
    | some m₁ =>
      have hsegment : Trades (Settled k) m a (m₁.retain segment.storage) (a + estate segment) := by
        have hheader := (Memory.trades_takeHeader (k := k) ht).frame a
        rw [zero_add] at hheader
        have hin : segment.storage ∈ (Estate.header + a).references := by
          rw [Estate.references_header_add]
          exact hs segment List.mem_cons_self
        refine (hheader.trans (m₁.trades_retain hin)).cast rfl ?_
        rw [estate_segment]
        abel
      have hrest := ih (a := a + estate segment) (m₁.retain segment.storage) fun s hmem =>
        Multiset.mem_add.2 (.inl (hs s (List.mem_cons_of_mem segment hmem)))
      have hboth := hsegment.trans hrest
      cases hc : copySegments (m₁.retain segment.storage) rest with
      | mk segments? m₂ =>
        rw [hc] at hboth
        cases segments? with
        | some segments =>
          simp only [hc]
          exact hboth.cast rfl (by rw [estate_some, estate_some, estate_cons, add_assoc])
        | none =>
          simp only [hc]
          rw [estate_none, add_zero, add_comm] at hboth
          refine hboth.trans (((m₂.trades_releaseSegment segment).frame a).cast rfl ?_)
          rw [estate_none, add_zero, zero_add]

/-- A frame may be copied by whoever has it. -/
theorem trades_copy (m : Memory) (f : Frame) :
    Trades (Settled k) m (estate f) (f.copy m).2 (estate f + estate (f.copy m).1) := by
  have hin (s : Segment) (hs : s ∈ f.segments) : s.storage ∈ (estate f).references := by
    rw [estate_frame, estate_segments]
    exact Multiset.mem_coe.2 (List.mem_map_of_mem hs)
  have h := trades_copySegments (k := k) m f.segments hin
  unfold copy
  cases hc : copySegments m f.segments with
  | mk segments? m' =>
    rw [hc] at h
    cases segments? <;> exact h

/-- So it is with frames one after the other: all of them are made, or none is left. -/
theorem trades_makeEach (m : Memory) (specs : List FrameSpec) :
    Trades (Settled k) m 0 (makeEach m specs).2 (estate (makeEach m specs).1) := by
  induction specs generalizing m with
  | nil => exact .refl m 0
  | cons spec rest ih =>
    unfold makeEach
    have hframe := trades_ofBytes (k := k) m spec.bytes spec.cap spec.receivedOn
    cases hf : ofBytes m spec.bytes spec.cap spec.receivedOn with
    | mk frame? m₁ =>
      rw [hf] at hframe
      cases frame? with
      | none => exact hframe
      | some f =>
        have hboth := hframe.trans (((ih m₁).frame (estate f)).cast (zero_add _).symm (add_comm _ _))
        cases hr : makeEach m₁ rest with
        | mk frames? m₂ =>
          rw [hr] at hboth
          cases frames? with
          | some frames => simpa only [hr, estate_some, estate_cons] using hboth
          | none =>
            simp only [hr]
            rw [estate_none, add_zero] at hboth
            exact hboth.trans (m₂.trades_releaseFrame f)

/-! ## Between frames and buffers -/

/-- The references pass from the segments to the views, and the headers go back. -/
theorem trades_unwrap (m : Memory) (f : Frame) :
    Trades (Settled k) m (estate f) (f.unwrap m).2 (estate (f.unwrap m).1) := by
  show Trades (Settled k) m (estate f.segments)
    (f.segments.foldl (fun m _ => m.returnHeader) m) (estate (f.segments.map Segment.view))
  -- a segment is a header and what its view holds
  have hsplit : estate f.segments =
      (f.segments.map fun _ => Estate.header).sum + estate (f.segments.map Segment.view) := by
    induction f.segments with
    | nil => rfl
    | cons s rest ih =>
      rw [List.map_cons, List.map_cons, List.sum_cons, estate_cons, estate_cons, ih, estate_segment,
        estate_view]
      show _ = _ + (Estate.reference s.storage + _)
      abel
  have hfold := Trades.foldl (f := fun m (_ : Segment) => m.returnHeader)
    (fun m _ => Memory.trades_returnHeader (k := k) m) f.segments m
  exact (hfold.frame _).cast hsplit (zero_add _).symm

/-- A frame in one piece is a block that its storage has. -/
theorem trades_compact (m : Memory) (budget : Nat) (f : Frame) :
    Trades (Settled k) m 0 (f.compact m budget).2 (estate (f.compact m budget).1) := by
  have halloc := m.trades_alloc (k := k) budget .plain (some compactNote) f.length
  unfold compact
  cases ha : m.alloc budget .plain (some compactNote) f.length with
  | mk answer m₁ =>
    rw [ha] at halloc
    cases answer with
    | error e => exact halloc
    | ok block =>
      exact (halloc.trans (m₁.trades_write block 0 f.bytes)).trans (m₁.trades_shareBlock _)

/-- A frame may be made over buffers by whoever has them. -/
theorem trades_ofBuffers {a : Estate} (m : Memory) (buffers : List View) (receivedOn : Option Nat)
    (hb : ∀ v ∈ buffers, v.storage ∈ a.references) :
    Trades (Settled k) m a (ofBuffers m buffers receivedOn).2
      (a + estate (ofBuffers m buffers receivedOn).1) := by
  have hin (s : Segment) (hs : s ∈ buffers.flatMap View.cuts) : s.storage ∈ a.references := by
    obtain ⟨v, hv, hs⟩ := List.mem_flatMap.1 hs
    obtain ⟨cut, -, rfl⟩ := List.mem_map.1 hs
    exact hb v hv
  have h := trades_copySegments (k := k) m (buffers.flatMap View.cuts) hin
  unfold ofBuffers
  cases hc : copySegments m (buffers.flatMap View.cuts) with
  | mk segments? m' =>
    rw [hc] at h
    cases segments? <;> exact h

end Frame

/-- Frames strung together to a packet have what they had apart. -/
theorem Chain.estate_ofFrames? (frames : List Frame) :
    estate (Chain.ofFrames? frames) = estate frames := by
  induction frames with
  | nil => rfl
  | cons f rest ih =>
    rw [estate_cons, ← ih, Chain.ofFrames?]
    cases Chain.ofFrames? rest with
    | none => exact estate_cons f []
    | some c => exact estate_cons f c.frames

/-- A packet is made whole, or nothing is left of it. -/
theorem Chain.trades_make (m : Memory) (specs : List FrameSpec) :
    Trades (Settled k) m 0 (Chain.make m specs).2 (estate (Chain.make m specs).1) := by
  have h := Frame.trades_makeEach (k := k) m specs
  unfold Chain.make
  cases hf : Frame.makeEach m specs with
  | mk frames? m' =>
    rw [hf] at h
    cases frames? with
    | none => exact h
    | some frames => exact h.cast rfl (Chain.estate_ofFrames? frames)

/-- A packet has what its first frame and the rest of it have. -/
theorem Chain.estate_eq (c : Chain) : estate c = estate c.head + estate c.rest? := by
  cases c with
  | last f => exact estate_cons f []
  | link f rest => exact estate_cons f rest.frames

/-! ## Queues -/

namespace Queue

/-- An operation on a queue takes an estate besides the queue and hands out one that goes with its answer. -/
def Operates {α : Type} (k : Memory.Bookkeeping) (a : Estate) (f : Queue → Memory → α × Queue × Memory)
    (b : α → Estate) : Prop :=
  ∀ q m, Trades (Settled k) m (estate q + a) (f q m).2.2 (estate (f q m).2.1 + b (f q m).1)

/-- A packet is on the queue or gone; in either case nobody else has it any more. -/
theorem operates_push (budget : Nat) (c : Chain) :
    Operates k (estate c) (fun q m => q.push m budget c) fun _ => 0 := by
  intro q m
  have halloc := (m.trades_alloc (k := k) budget .plain (some nodeNote) nodeSize).frame (estate q + estate c)
  rw [zero_add] at halloc
  cases ha : m.alloc budget .plain (some nodeNote) nodeSize with
  | mk answer m₁ =>
    rw [ha] at halloc
    cases answer with
    -- no place for the chain: it goes, and with it all that it held
    | error e =>
      simp only [push, ha]
      refine halloc.trans (((m₁.trades_releaseChain c).frame (estate q)).cast ?_ ?_)
      · rw [estate_error, zero_add, add_comm]
      · rw [zero_add, add_zero]
        rfl
    | ok charge =>
      simp only [push, ha]
      refine halloc.cast rfl ?_
      show estate (⟨c, charge⟩ :: q.nodes) + 0 = _
      rw [estate_cons, estate_node, estate_queue, estate_ok]
      abel

/-- A frame that comes off a queue belongs to who takes it, and an empty node gives its block back. -/
theorem operates_take? : Operates k 0 take? estate := by
  intro q m
  obtain ⟨nodes, admitted, dropped, extracted⟩ := q
  cases nodes with
  | nil => exact (Trades.refl m 0).cast rfl rfl
  | cons node rest =>
    have hchain := node.chain.estate_eq
    -- the place is paid for until the last frame of its chain leaves
    cases hr : node.chain.rest? with
    | some chain =>
      rw [hr, estate_some] at hchain
      simp only [take?, hr]
      refine (Trades.refl m _).cast rfl ?_
      show estate ({ node with chain := chain } :: rest) + estate node.chain.head =
        estate (node :: rest) + 0
      rw [estate_cons, estate_cons, estate_node, estate_node, hchain]
      abel
    | none =>
      rw [hr, estate_none, add_zero] at hchain
      simp only [take?, hr]
      refine ((m.trades_free node.charge).frame (estate rest + estate node.chain.head)).cast ?_ ?_
      · show estate (node :: rest) + 0 = _
        rw [estate_cons, estate_node, hchain]
        show _ = estate node.charge + _
        abel
      · rw [zero_add]
        rfl

/-- What nodes have is their blocks and the frames of their packets. -/
theorem estate_nodes (nodes : List Node) :
    estate nodes = (nodes.map fun n => estate n.charge).sum +
      estate (nodes.flatMap fun n => n.chain.frames) := by
  induction nodes with
  | nil => rfl
  | cons n rest ih =>
    rw [estate_cons, estate_node, ih, List.map_cons, List.sum_cons, List.flatMap_cons, estate_append,
      estate_chain]
    abel

/-- So it is with all frames at once. -/
theorem operates_drain : Operates k 0 drain estate := by
  intro q m
  have hfold := Trades.foldl (f := fun m (n : Node) => m.free n.charge)
    (fun m n => m.trades_free (k := k) n.charge) q.nodes m
  rw [drain_eq]
  refine (hfold.frame (estate q.frames)).cast ?_ ?_
  · rw [add_zero, estate_queue, estate_nodes]
    rfl
  · rfl

/-- A queue that is cleared has nothing any more. -/
theorem operates_clear : Operates k 0 clear fun _ => 0 := by
  intro q m
  refine (Trades.foldl Memory.trades_releaseNode q.nodes m).cast ?_ ?_
  · rw [add_zero]
    rfl
  · rfl

omit [Memory.Tally k] in
/-- To count a drop takes nothing and hands out nothing. -/
theorem operates_countDrop : Operates k 0 (fun q m => ((), q.countDrop, m)) fun _ => 0 :=
  fun q m => .refl m (estate q + 0)

end Queue

end Patchbay
