import Patchbay.Proofs.Frame.Cutting
import Patchbay.Proofs.Registry.Release

/-!
# `Proofs.Frame.Forwarding` — a frame handed out and sent on is the frame it was

A consumer that sends on what it got hands the views of a frame's segments back as buffers. Nothing is copied on the
way: the headers go back, and the frame that is sent takes headers anew, over the same storage. The two halves do not
agree on how many. A segment without bytes has a view and is not sent, and one that is longer than a segment of the
host may be is sent in several pieces, so references are lost for the ones and come along for the others.

## Contents
* `Memory.returnHeaders`, `Frame.unwrap_eq` — a frame handed out as views;
* `Memory.referencesTo_releaseViews` — what is left of the references when views are given back;
* `Frame.referencesTo`, `Frame.furtherOver`, `Frame.emptyOver` — what a frame refers to, and what becomes of that;
* `Frame.SentOn` — the frame that is sent, against the one that was handed out;
* `Frame.forwarding` — a frame that is handed out and sent on.
-/

namespace Patchbay

namespace Memory

/-- The memory after so many headers came back. -/
def returnHeaders (m : Memory) (count : Nat) : Memory :=
  { m with
    pool := { m.pool with
      headersLive := m.pool.headersLive - count
      headersReleased := m.pool.headersReleased + count } }

theorem foldl_returnHeader {α : Type} (m : Memory) (l : List α) :
    l.foldl (fun m _ => m.returnHeader) m = m.returnHeaders l.length := by
  induction l generalizing m with
  | nil => rfl
  | cons a rest ih =>
    rw [List.foldl_cons, ih, List.length_cons, Nat.add_comm rest.length 1]
    simp only [returnHeaders, returnHeader, Pool.returnHeader, Nat.sub_add_eq, Nat.add_assoc]

/-! ## Views given back -/

theorem referencesTo_releaseViews (m : Memory) (views : List View) (t : Storage) :
    (m.releaseViews views).referencesTo t = m.referencesTo t - views.countP fun v => v.storage.key = t.key := by
  induction views generalizing m with
  | nil => rfl
  | cons v rest ih =>
    show ((m.release v.storage).releaseViews rest).referencesTo t = _
    rw [ih, referencesTo_release, List.countP_cons]
    simp only [decide_eq_true_eq]
    omega

theorem size_references_release (m : Memory) (s : Storage) :
    (m.release s).references.size = m.references.size := by
  unfold release
  dsimp only
  split
  · rw [(reclaim_frame _ s).1]
    exact Array.size_setIfInBounds
  · exact Array.size_setIfInBounds

/-- Views that are given back make no storage. -/
theorem size_references_releaseViews (m : Memory) (views : List View) :
    (m.releaseViews views).references.size = m.references.size := by
  induction views generalizing m with
  | nil => rfl
  | cons v rest ih => exact (ih (m.release v.storage)).trans (m.size_references_release v.storage)

theorem grantsNothing_releaseViews (m : Memory) (views : List View) : m.GrantsNothing (m.releaseViews views) := by
  have hone (m : Memory) (v : View) : m.GrantsNothing (m.release v.storage) := m.grantsNothing_release v.storage
  exact .foldl hone views m

theorem size_references_lend (m : Memory) (segments : List Segment) :
    (m.lend segments).references.size = m.references.size := by
  induction segments generalizing m with
  | nil => rfl
  | cons s rest ih => exact (ih (m.lendSegment s)).trans Array.size_modify

end Memory

namespace Segment

/-- How many pieces a segment is sent in. -/
def pieceCount (s : Segment) : Nat :=
  (s.length + (Frame.largestSegment - 1)) / Frame.largestSegment

theorem length_cuts_view (s : Segment) : s.view.cuts.length = s.pieceCount := by
  have hshown : s.view.bytes.length = s.length := s.length_bytes
  rw [View.length_cuts, hshown, pieceCount]

/-- A segment without bytes is not sent, any other one in a first piece and further ones. -/
theorem pieceCount_add (s : Segment) :
    s.pieceCount + (if s.length = 0 then 1 else 0) = 1 + (s.pieceCount - 1) := by
  have hcap : Frame.largestSegment = 2048 := rfl
  rw [pieceCount, hcap]
  split <;> omega

end Segment

/-- The pieces that a buffer is sent in are all over its storage. -/
theorem View.countP_cuts (v : View) (storage : Storage) :
    v.cuts.countP (fun s => s.storage.key = storage.key) =
      if v.storage.key = storage.key then v.cuts.length else 0 := by
  have hown := v.cutInto_cuts.own
  split
  · rename_i hkey
    refine List.countP_eq_length.2 fun s hs => ?_
    rw [hown s hs]
    exact decide_eq_true hkey
  · rename_i hkey
    refine List.countP_eq_zero.2 fun s hs => ?_
    rw [hown s hs]
    exact fun heq => hkey (of_decide_eq_true heq)

namespace Frame

/-! ## What becomes of the references of a frame -/

/-- How many segments of a frame are over a storage. -/
def referencesTo (f : Frame) (storage : Storage) : Nat :=
  f.segments.countP fun s => s.storage.key = storage.key

/-- How many of these show nothing. -/
def emptyOver (f : Frame) (storage : Storage) : Nat :=
  f.segments.countP fun s => s.storage.key = storage.key ∧ s.length = 0

/-- How many pieces come along behind the first ones when they are sent. -/
def furtherOver (f : Frame) (storage : Storage) : Nat :=
  total (fun s => if s.storage.key = storage.key then s.pieceCount - 1 else 0) f.segments

variable {m : Memory} {f : Frame}

/-- Views of a frame's segments, and its headers back. -/
theorem unwrap_eq (m : Memory) (f : Frame) :
    f.unwrap m = (f.segments.map Segment.view, m.returnHeaders f.segments.length) := by
  rw [unwrap, Memory.foldl_returnHeader]

/-- The views show as many bytes as the segments. -/
theorem segmentsFor_views (segments : List Segment) :
    segmentsFor (segments.map Segment.view) = total Segment.pieceCount segments := by
  induction segments with
  | nil => rfl
  | cons s rest ih =>
    have hshown : s.view.bytes.length = s.length := s.length_bytes
    rw [segmentsFor, List.map_cons, total_cons, total_cons, hshown, ← ih]
    rfl

/-- The frame that the views of a frame are sent as. -/
def onward (f : Frame) (receivedOn : Option Nat) : Frame :=
  covering (f.segments.map Segment.view) receivedOn

/-- What is sent refers to a storage as often as the frame did, with the further pieces and without the segments that
show nothing. -/
theorem referencesTo_onward (f : Frame) (receivedOn : Option Nat) (storage : Storage) :
    (f.onward receivedOn).referencesTo storage + f.emptyOver storage =
      f.referencesTo storage + f.furtherOver storage := by
  unfold referencesTo emptyOver furtherOver onward covering
  dsimp only
  induction f.segments with
  | nil => rfl
  | cons s rest ih =>
    have hcuts := s.view.countP_cuts storage
    have hsplit := s.pieceCount_add
    rw [s.length_cuts_view, show s.view.storage = s.storage from rfl] at hcuts
    rw [List.map_cons, List.flatMap_cons, List.countP_append, hcuts, List.countP_cons, List.countP_cons, total_cons]
    simp only [decide_eq_true_eq]
    by_cases hkey : s.storage.key = storage.key
    · simp only [hkey, true_and, if_true]
      omega
    · simp only [hkey, false_and, if_false]
      omega

/-- One frame is sent on for another one that was handed out: it shows the same bytes, over storage that the other one
has, in segments that the host could have made. -/
structure SentOn (f : Frame) (receivedOn : Option Nat) (g : Frame) : Prop where
  marked : g.receivedOn = receivedOn
  bytes : g.bytes = f.bytes
  length : g.length = f.length
  destination : g.destination? = f.destination?
  own : ∀ s ∈ g.segments, ∃ t ∈ f.segments, s.storage = t.storage
  filled : ∀ s ∈ g.segments, 0 < s.length ∧ s.length ≤ largestSegment
  count : g.segments.length = total Segment.pieceCount f.segments
  references : ∀ storage, g.referencesTo storage + f.emptyOver storage = f.referencesTo storage + f.furtherOver storage

theorem sentOn_onward (f : Frame) (receivedOn : Option Nat) : f.SentOn receivedOn (f.onward receivedOn) := by
  have hbytes : (f.onward receivedOn).bytes = f.bytes := by
    rw [onward, bytes_covering, List.flatMap_map]
    rfl
  have hcut : ∀ s ∈ (f.onward receivedOn).segments, ∃ t ∈ f.segments, s ∈ t.view.cuts := by
    intro s hs
    obtain ⟨v, hv, hcut⟩ := List.mem_flatMap.1 hs
    obtain ⟨t, ht, rfl⟩ := List.mem_map.1 hv
    exact ⟨t, ht, hcut⟩
  refine ⟨rfl, hbytes, ?_, ?_, ?_, ?_, ?_, f.referencesTo_onward receivedOn⟩
  · rw [← length_bytes, hbytes, length_bytes]
  · rw [destination?_eq, hbytes, destination?_eq]
  · intro s hs
    obtain ⟨t, ht, hcut⟩ := hcut s hs
    exact ⟨t, ht, t.view.cutInto_cuts.own s hcut⟩
  · intro s hs
    obtain ⟨t, -, hcut⟩ := hcut s hs
    exact t.view.cutInto_cuts.filled s hcut
  · rw [onward, length_segments_covering, segmentsFor_views]

end Frame

/-! ## Handed out and sent on -/

namespace Frame

section Forwarded

variable {m : Memory} {f : Frame} {receivedOn : Option Nat}

/-- The memory when the headers of a frame came back and others were lent for what it is sent on as. -/
def memoryOnward (f : Frame) (receivedOn : Option Nat) (m : Memory) : Memory :=
  (m.returnHeaders f.segments.length).lend (f.onward receivedOn).segments

/-- With a header free for each piece the views of a frame are sent. -/
theorem ofBuffers_views (h : ∀ free ∈ (m.returnHeaders f.segments.length).pool.free?,
    total Segment.pieceCount f.segments ≤ free) :
    ofBuffers (m.returnHeaders f.segments.length) (f.segments.map Segment.view) receivedOn =
      (.ok (f.onward receivedOn), f.memoryOnward receivedOn m) := by
  rw [← segmentsFor_views] at h
  exact ofBuffers_lent h

theorem memoryOnward_eq (f : Frame) (receivedOn : Option Nat) (m : Memory) :
    f.memoryOnward receivedOn m = { m with
      pool := { m.pool with
        headersLive := m.pool.headersLive - f.segments.length + total Segment.pieceCount f.segments
        headersReleased := m.pool.headersReleased + f.segments.length }
      references := (f.memoryOnward receivedOn m).references } := by
  rw [← (f.sentOn_onward receivedOn).count]
  exact (m.returnHeaders f.segments.length).lend_eq _

theorem size_references_memoryOnward (f : Frame) (receivedOn : Option Nat) (m : Memory) :
    (f.memoryOnward receivedOn m).references.size = m.references.size :=
  Memory.size_references_lend _ _

theorem grantsNothing_memoryOnward (f : Frame) (receivedOn : Option Nat) (m : Memory) :
    m.GrantsNothing (f.memoryOnward receivedOn m) := by
  rw [memoryOnward_eq]
  exact .refl m

/-- The new frame has its references, and the views that are given back take those of the old one along. -/
theorem referencesTo_memoryOnward (h : m.CountsEach f.segments) (receivedOn : Option Nat) (storage : Storage) :
    ((f.memoryOnward receivedOn m).releaseViews (f.segments.map Segment.view)).referencesTo storage +
        f.emptyOver storage =
      m.referencesTo storage + f.furtherOver storage := by
  have hheld : ∀ v ∈ f.segments.map Segment.view, 0 < (m.returnHeaders f.segments.length).referencesTo v.storage := by
    intro v hv
    obtain ⟨s, hs, rfl⟩ := List.mem_map.1 hv
    exact h.refers s hs
  have hlent : (f.memoryOnward receivedOn m).referencesTo storage =
      m.referencesTo storage + (f.onward receivedOn).referencesTo storage :=
    Memory.referencesTo_lend (refers_covering hheld receivedOn) storage
  have hback : (f.segments.map Segment.view).countP (fun v => v.storage.key = storage.key) =
      f.referencesTo storage := List.countP_map
  have hown : f.referencesTo storage ≤ m.referencesTo storage := h storage
  have htrade := f.referencesTo_onward receivedOn storage
  rw [Memory.referencesTo_releaseViews, hlent, hback]
  omega

end Forwarded

/-- **A frame that is handed out and sent on is the frame it was.** Take a frame whose segments each have a reference of
their own, as every frame has that anybody holds on a host after any run of acts: of any number of segments, over
clusters or blocks, without bytes or longer than a segment of the host may be. It is handed out as the views of its
segments, and these are sent as buffers while the pool has a header free for each piece. Then there is a frame of the
same bytes, length and destination, over no storage that the first one was not over, and each of its segments has
between one and 2048 bytes. Nothing but headers and references is different: no budget is charged, and no cluster and no
other storage is made. With the views given back, no budget has granted anything, still no storage is made, and each
storage is referred to as before, but once more for each further piece of a long segment over it and once less for each
segment over it without bytes; and that is how often the new frame refers to it against the old one. -/
theorem forwarding :
    (∀ (m : Memory) (f : Frame) (receivedOn : Option Nat), m.CountsEach f.segments →
      let views := (f.unwrap m).1
      let m₁ := (f.unwrap m).2
      let count := total Segment.pieceCount f.segments
      (∀ free ∈ m₁.pool.free?, count ≤ free) →
      ∃ g m₂, ofBuffers m₁ views receivedOn = (.ok g, m₂) ∧ f.SentOn receivedOn g ∧
        m₂ = { m with
          pool := { m.pool with
            headersLive := m.pool.headersLive - f.segments.length + count
            headersReleased := m.pool.headersReleased + f.segments.length }
          references := m₂.references } ∧
        m₂.references.size = m.references.size ∧
        let m₃ := m₂.releaseViews views
        m.GrantsNothing m₃ ∧ m₃.references.size = m.references.size ∧
        ∀ storage, m₃.referencesTo storage + f.emptyOver storage = m.referencesTo storage + f.furtherOver storage) ∧
    ∀ (limit : Option Nat) (turns : List Turn), ∀ f ∈ ((Scene.start limit).run turns).frames,
      ((Scene.start limit).run turns).memory.CountsEach f.segments := by
  refine ⟨?_, fun limit turns f hf => ?_⟩
  · intro m f receivedOn hcounts
    rw [unwrap_eq]
    intro views m₁ count henough
    refine ⟨f.onward receivedOn, f.memoryOnward receivedOn m, ofBuffers_views henough, f.sentOn_onward receivedOn,
      f.memoryOnward_eq receivedOn m, f.size_references_memoryOnward receivedOn m,
      (f.grantsNothing_memoryOnward receivedOn m).trans (Memory.grantsNothing_releaseViews _ views), ?_,
      referencesTo_memoryOnward hcounts receivedOn⟩
    rw [Memory.size_references_releaseViews, size_references_memoryOnward]
  · obtain ⟨h, hs⟩ := Scene.settled_run limit turns
    exact hs.exact.countP_le_referencesTo hf

/-- A cluster of 5000 bytes and a block of eight, sent on with four headers: the cluster is sent in three pieces, and of
the two segments over the block one shows nothing. -/
theorem forwarding_long :
    let cluster : Storage := ⟨0, .cluster ⟨#[1, 2, 3], 4997⟩⟩
    let block : Storage := ⟨1, .block ⟨0, 1, .plain, .zeroed 8⟩⟩
    let f : Frame := ⟨[.whole cluster, .clip block 3 0, .clip block 1 2], some 1⟩
    let m : Memory :=
      { pool := { limit := some 4, headersLive := 3, clustersLive := 1 }, references := #[1, 2] }
    m.CountsEach f.segments ∧
      ∃ g m₂, ofBuffers (f.unwrap m).2 (f.unwrap m).1 (some 2) = (.ok g, m₂) ∧ f.SentOn (some 2) g ∧
        g.segments.length = 4 ∧ m₂.pool.headersLive = 4 ∧
        (m₂.releaseViews (f.unwrap m).1).referencesTo cluster = 3 ∧
        (m₂.releaseViews (f.unwrap m).1).referencesTo block = 1 := by
  intro cluster block f m
  have hcounts : m.CountsEach f.segments := by
    intro storage
    match hkey : storage.key with
    | 0 => simp [f, m, cluster, block, Memory.referencesTo, Segment.whole, Segment.clip, hkey]
    | 1 => simp [f, m, cluster, block, Memory.referencesTo, Segment.whole, Segment.clip, hkey]
    | key + 2 => simp [f, m, cluster, block, Memory.referencesTo, Segment.whole, Segment.clip, hkey]
  obtain ⟨g, m₂, hok, hsent, hm₂, -, -, -, hreferences⟩ := forwarding.1 m f (some 2) hcounts fun free hfree => by
    obtain rfl := Option.some.inj hfree
    decide +kernel
  have hlength : g.segments.length = 4 := hsent.count.trans (by decide +kernel)
  have hone : m.referencesTo cluster + f.furtherOver cluster = 3 := by decide +kernel
  have hnone : f.emptyOver cluster = 0 := by decide +kernel
  have htwo : m.referencesTo block + f.furtherOver block = 2 := by decide +kernel
  have hempty : f.emptyOver block = 1 := by decide +kernel
  have hcluster := hreferences cluster
  have hblock := hreferences block
  rw [hone, hnone, Nat.add_zero] at hcluster
  rw [htwo, hempty] at hblock
  refine ⟨hcounts, g, m₂, hok, hsent, hlength, ?_, hcluster, by omega⟩
  rw [hm₂]
  show 3 - 3 + total Segment.pieceCount f.segments = 4
  decide +kernel

end Frame

end Patchbay
