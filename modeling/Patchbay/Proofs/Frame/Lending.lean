import Patchbay.Frame.Exchange
import Patchbay.Proofs.Estate.Sharing

/-!
# `Proofs.Frame.Lending` — headers and references lent to segments, or none

A frame over storage that somebody refers to takes a header and a reference for each of its segments. A pool that has
enough headers free lends them all; one that has not lends what it has, and all of it goes back when the next header is
refused. What is left of that is the number of headers that came back.

## Contents
* `Memory.lend` — the memory with headers and references lent to segments;
* `Memory.countBack` — the memory with some more headers counted that came back;
* `Memory.Refers` — somebody refers to the storage of each segment;
* `Memory.releaseSegments_lend` — what was lent goes back without a trace;
* `Memory.headersLive_releaseSegments`, `Memory.referencesTo_releaseSegments` — what goes back in any case;
* `Frame.copySegments_lent`, `Frame.copySegments_refused` — segments copied by a pool with headers enough, and by one
  without;
* `View.length_cuts`, `Frame.segmentsFor` — how many segments buffers take;
* `Frame.covering`, `Frame.ofBuffers_lent`, `Frame.ofBuffers_refused` — a frame over buffers.
-/

namespace Patchbay

namespace Memory

/-- The memory with a header and a reference lent to a segment. -/
def lendSegment (m : Memory) (s : Segment) : Memory :=
  { m with pool := { m.pool with headersLive := m.pool.headersLive + 1 } }.retain s.storage

/-- The memory with headers and references lent to segments. -/
def lend (m : Memory) (segments : List Segment) : Memory :=
  segments.foldl lendSegment m

/-- The memory with so many more headers that came back. -/
def countBack (m : Memory) (count : Nat) : Memory :=
  { m with pool := { m.pool with headersReleased := m.pool.headersReleased + count } }

/-- Somebody refers to the storage of each segment. -/
def Refers (m : Memory) (segments : List Segment) : Prop :=
  ∀ s ∈ segments, 0 < m.referencesTo s.storage

variable {m : Memory} {s : Segment} {segments : List Segment}

/-! ## The figures while something is lent -/

@[simp] theorem lend_nil (m : Memory) : m.lend [] = m := rfl

theorem lend_cons (m : Memory) (s : Segment) (rest : List Segment) :
    m.lend (s :: rest) = (m.lendSegment s).lend rest := rfl

theorem countBack_countBack (m : Memory) (count more : Nat) :
    (m.countBack count).countBack more = m.countBack (count + more) := by
  unfold countBack
  simp only [Nat.add_assoc]

theorem lend_countBack (m : Memory) (count : Nat) (segments : List Segment) :
    (m.countBack count).lend segments = (m.lend segments).countBack count := by
  induction segments generalizing m with
  | nil => rfl
  | cons s rest ih => exact ih (m.lendSegment s)

theorem pool_lend (m : Memory) (segments : List Segment) :
    (m.lend segments).pool = { m.pool with headersLive := m.pool.headersLive + segments.length } := by
  induction segments generalizing m with
  | nil => rfl
  | cons s rest ih =>
    rw [lend_cons, ih, List.length_cons, Nat.add_comm rest.length 1, ← Nat.add_assoc]
    rfl

/-- What is lent is not free any more. -/
theorem free?_lend (m : Memory) (segments : List Segment) :
    (m.lend segments).pool.free? = m.pool.free?.map (· - segments.length) := by
  rw [pool_lend, Pool.free?, Pool.free?, Option.map_map]
  congr 1
  funext limit
  exact Nat.sub_add_eq limit m.pool.headersLive segments.length

theorem key_lt_of_referencesTo {storage : Storage} (h : 0 < m.referencesTo storage) :
    storage.key < m.references.size := by
  by_contra hge
  rw [referencesTo, Array.getD_eq_getD_getElem?, Array.getElem?_eq_none (Nat.le_of_not_lt hge)] at h
  exact Nat.lt_irrefl 0 h

theorem referencesTo_le_lendSegment (m : Memory) (s : Segment) (storage : Storage) :
    m.referencesTo storage ≤ (m.lendSegment s).referencesTo storage := by
  show m.references.getD storage.key 0 ≤ (m.references.modify s.storage.key (· + 1)).getD storage.key 0
  rw [Array.getD_eq_getD_getElem?, Array.getD_eq_getD_getElem?, Array.getElem?_modify]
  split
  · cases m.references[storage.key]? with
    | none => exact Nat.le_refl 0
    | some count => exact Nat.le_succ count
  · exact Nat.le_refl _

theorem referencesTo_le_lend (m : Memory) (segments : List Segment) (storage : Storage) :
    m.referencesTo storage ≤ (m.lend segments).referencesTo storage := by
  induction segments generalizing m with
  | nil => exact Nat.le_refl _
  | cons s rest ih => exact Nat.le_trans (m.referencesTo_le_lendSegment s storage) (ih _)

theorem Refers.lend (h : m.Refers segments) (lent : List Segment) : (m.lend lent).Refers segments := by
  intro s hs
  exact Nat.lt_of_lt_of_le (h s hs) (m.referencesTo_le_lend lent s.storage)

/-- A header that is free is lent. -/
theorem takeHeader?_eq (h : m.pool.free? ≠ some 0) :
    m.takeHeader? = some { m with pool := { m.pool with headersLive := m.pool.headersLive + 1 } } := by
  have hhas : m.pool.hasHeader = true := by
    by_contra hnot
    exact h ((Pool.takeHeader?_eq_none_iff m.pool).1 (if_neg hnot))
  rw [takeHeader?, Pool.takeHeader?, if_pos hhas]
  rfl

/-! ## Back without a trace -/

/-- In which order two segments are lent to does not matter. -/
theorem lendSegment_comm (m : Memory) (s t : Segment) :
    (m.lendSegment s).lendSegment t = (m.lendSegment t).lendSegment s := by
  have hreferences : (m.references.modify s.storage.key (· + 1)).modify t.storage.key (· + 1) =
      (m.references.modify t.storage.key (· + 1)).modify s.storage.key (· + 1) := by
    apply Array.ext_getElem?
    intro i
    simp only [Array.getElem?_modify]
    split
    · split <;> rfl
    · rfl
  simp only [lendSegment, retain, hreferences]

theorem lend_lendSegment (m : Memory) (s : Segment) (segments : List Segment) :
    (m.lendSegment s).lend segments = (m.lend segments).lendSegment s := by
  induction segments generalizing m with
  | nil => rfl
  | cons t rest ih => rw [lend_cons, lend_cons, lendSegment_comm, ih]

/-- A segment over storage that somebody else refers to, too, takes nothing along. -/
theorem releaseSegment_lendSegment (h : 0 < m.referencesTo s.storage) :
    (m.lendSegment s).releaseSegment s = m.countBack 1 := by
  have hkey := key_lt_of_referencesTo h
  have hcount : m.referencesTo s.storage = m.references[s.storage.key] := by
    rw [referencesTo, Array.getD_eq_getD_getElem?, Array.getElem?_eq_getElem hkey]
    rfl
  have hleft : ((m.lendSegment s).returnHeader).referencesTo s.storage - 1 = m.referencesTo s.storage := by
    have hmore := referencesTo_retain (m := m) (t := s.storage) hkey
    rw [if_pos rfl] at hmore
    exact Nat.sub_eq_of_eq_add hmore
  have hreferences : (m.references.modify s.storage.key (· + 1)).setIfInBounds s.storage.key
      (m.referencesTo s.storage) = m.references := by
    apply Array.ext_getElem?
    intro i
    rw [Array.getElem?_setIfInBounds, Array.size_modify, Array.getElem?_modify]
    by_cases hi : s.storage.key = i
    · rw [if_pos hi, if_pos (hi ▸ hkey), hcount, ← hi, Array.getElem?_eq_getElem hkey]
    · rw [if_neg hi, if_neg hi]
  unfold releaseSegment release
  dsimp only
  rw [hleft, if_neg (Nat.ne_of_gt h)]
  show Memory.mk m.heap m.lane _ m.budgets
    ((m.references.modify s.storage.key (· + 1)).setIfInBounds s.storage.key (m.referencesTo s.storage)) = _
  rw [hreferences]
  rfl

/-- What was lent goes back without a trace. -/
theorem releaseSegments_lend (h : m.Refers segments) :
    (m.lend segments).releaseSegments segments = m.countBack segments.length := by
  induction segments generalizing m with
  | nil => rfl
  | cons s rest ih =>
    rw [Refers, List.forall_mem_cons] at h
    have hs : 0 < (m.lend rest).referencesTo s.storage :=
      Nat.lt_of_lt_of_le h.1 (m.referencesTo_le_lend rest s.storage)
    calc (m.lend (s :: rest)).releaseSegments (s :: rest)
        = (((m.lend rest).lendSegment s).releaseSegment s).releaseSegments rest := by
          rw [lend_cons, lend_lendSegment]
          rfl
      _ = ((m.countBack 1).lend rest).releaseSegments rest := by
          rw [releaseSegment_lendSegment hs, lend_countBack]
      _ = m.countBack (rest.length + 1) := by
          have hrest : (m.countBack 1).Refers rest := h.2
          rw [ih hrest, countBack_countBack, Nat.add_comm]

/-! ## What goes back -/

theorem headersLive_release (m : Memory) (s : Storage) :
    (m.release s).pool.headersLive = m.pool.headersLive := by
  unfold release
  dsimp only
  split
  · rw [(reclaim_frame _ s).2]
    split <;> rfl
  · rfl

theorem referencesTo_release (m : Memory) (s t : Storage) :
    (m.release s).referencesTo t = m.referencesTo t - if s.key = t.key then 1 else 0 := by
  have hlower : ({ m with references := m.references.setIfInBounds s.key (m.referencesTo s - 1) } : Memory).referencesTo
      t = m.referencesTo t - if s.key = t.key then 1 else 0 := by
    simp only [referencesTo, Array.getD_eq_getD_getElem?, Array.getElem?_setIfInBounds]
    by_cases hkey : s.key = t.key
    · rw [if_pos hkey, if_pos hkey, hkey]
      split
      · rfl
      · rename_i hge
        rw [Array.getElem?_eq_none (Nat.le_of_not_lt hge)]
        rfl
    · rw [if_neg hkey, if_neg hkey, Nat.sub_zero]
  unfold release
  dsimp only
  split
  · rw [referencesTo, (reclaim_frame _ s).1]
    exact hlower
  · exact hlower

/-- The headers of segments go back. -/
theorem headersLive_releaseSegments (m : Memory) (segments : List Segment) :
    (m.releaseSegments segments).pool.headersLive = m.pool.headersLive - segments.length := by
  induction segments generalizing m with
  | nil => rfl
  | cons s rest ih =>
    have hone : (m.releaseSegment s).pool.headersLive = m.pool.headersLive - 1 := m.returnHeader.headersLive_release _
    show ((m.releaseSegment s).releaseSegments rest).pool.headersLive = _
    rw [ih, hone, List.length_cons]
    omega

/-- So do their references. -/
theorem referencesTo_releaseSegments (m : Memory) (segments : List Segment) (t : Storage) :
    (m.releaseSegments segments).referencesTo t =
      m.referencesTo t - segments.countP fun s => s.storage.key = t.key := by
  induction segments generalizing m with
  | nil => rfl
  | cons s rest ih =>
    have hone : (m.releaseSegment s).referencesTo t = m.referencesTo t - if s.storage.key = t.key then 1 else 0 :=
      m.returnHeader.referencesTo_release s.storage t
    show ((m.releaseSegment s).releaseSegments rest).referencesTo t = _
    rw [ih, hone, List.countP_cons]
    simp only [decide_eq_true_eq]
    omega

/-- A chain goes back segment by segment. -/
theorem releaseChain_eq (m : Memory) (c : Chain) :
    m.releaseChain c = m.releaseSegments (c.frames.flatMap Frame.segments) :=
  List.foldl_flatMap.symm

end Memory

namespace Frame

variable {m : Memory} {segments : List Segment}

/-! ## Segments copied, or not -/

/-- With headers enough all segments are lent to. -/
theorem copySegments_lent (h : ∀ free ∈ m.pool.free?, segments.length ≤ free) :
    copySegments m segments = (some segments, m.lend segments) := by
  induction segments generalizing m with
  | nil => rfl
  | cons s rest ih =>
    have hfree : m.pool.free? ≠ some 0 := fun hnone => absurd (h 0 hnone) (Nat.not_succ_le_zero _)
    have hrest : ∀ free ∈ (m.lendSegment s).pool.free?, rest.length ≤ free := by
      intro left hleft
      obtain ⟨free, hfree, rfl⟩ := Option.map_eq_some_iff.1 ((m.free?_lend [s]).symm.trans hleft)
      have := h free hfree
      rw [List.length_cons] at this
      rw [List.length_singleton]
      omega
    unfold copySegments
    rw [Memory.takeHeader?_eq hfree]
    dsimp only
    rw [← Memory.lendSegment, ih hrest]
    rfl

/-- Without, the segments that were lent to give back what they had. -/
theorem copySegments_refused {free : Nat} (hfree : m.pool.free? = some free) (hlack : free < segments.length)
    (hrefers : m.Refers segments) : copySegments m segments = (none, m.countBack free) := by
  -- on the segments: the first one is lent to, and goes back behind the others
  induction segments generalizing m free with
  | nil => exact absurd hlack (Nat.not_lt_zero free)
  | cons s rest ih =>
    rw [Memory.Refers, List.forall_mem_cons] at hrefers
    unfold copySegments
    cases free with
    | zero =>
      have hnone : m.takeHeader? = none := by
        rw [Memory.takeHeader?, (Pool.takeHeader?_eq_none_iff m.pool).2 hfree]
        rfl
      rw [hnone]
      rfl
    | succ left =>
      have hsome : m.pool.free? ≠ some 0 := by
        rw [hfree]
        simp
      have hleft : (m.lendSegment s).pool.free? = some left := by
        rw [← Memory.lend_nil (m.lendSegment s), ← Memory.lend_cons, Memory.free?_lend, hfree]
        rfl
      have hrest : (m.lendSegment s).Refers rest := Memory.Refers.lend hrefers.2 [s]
      rw [List.length_cons] at hlack
      rw [Memory.takeHeader?_eq hsome]
      dsimp only
      rw [← Memory.lendSegment, ih hleft (by omega) hrest]
      dsimp only
      have hback : ((m.countBack left).lendSegment s).releaseSegment s = (m.countBack left).countBack 1 :=
        Memory.releaseSegment_lendSegment hrefers.1
      have hcomm : (m.lendSegment s).countBack left = (m.countBack left).lendSegment s :=
        (m.lend_countBack left [s]).symm
      rw [hcomm, hback, Memory.countBack_countBack]

theorem copy_lent {f : Frame} (h : ∀ free ∈ m.pool.free?, f.segments.length ≤ free) :
    f.copy m = (some f, m.lend f.segments) := by
  rw [copy, copySegments_lent h]
  rfl

theorem copy_refused {f : Frame} {free : Nat} (hfree : m.pool.free? = some free) (hlack : free < f.segments.length)
    (hrefers : m.Refers f.segments) : f.copy m = (none, m.countBack free) := by
  rw [copy, copySegments_refused hfree hlack hrefers]
  rfl

end Frame

/-! ## Buffers -/

theorem length_cutsFrom (cap start count : Nat) :
    (cutsFrom cap start count).length = (count + (max cap 1 - 1)) / max cap 1 := by
  have hpos : 0 < max cap 1 := by omega
  fun_induction cutsFrom cap start count with
  | case1 start =>
    rw [Nat.zero_add, Nat.div_eq_of_lt (by omega)]
    rfl
  | case2 start count hne ih =>
    rw [List.length_cons, ih]
    by_cases hlast : count ≤ max cap 1
    · -- the last cut, which may be a short one
      have hrest : count - max cap 1 = 0 := by omega
      have hcount : count + (max cap 1 - 1) = count - 1 + max cap 1 := by omega
      rw [hrest, hcount, Nat.add_div_right _ hpos, Nat.div_eq_of_lt (a := count - 1) (by omega), Nat.zero_add,
        Nat.div_eq_of_lt (by omega)]
    · have hcount : count + (max cap 1 - 1) = count - max cap 1 + (max cap 1 - 1) + max cap 1 := by omega
      rw [hcount, Nat.add_div_right _ hpos]

/-- A buffer takes as many segments as its bytes fill, and one more for a rest. -/
theorem View.length_cuts (v : View) :
    v.cuts.length = (v.bytes.length + (Frame.largestSegment - 1)) / Frame.largestSegment := by
  rw [View.cuts, List.length_map, length_cutsFrom, v.length_bytes]
  rfl

namespace Frame

/-- The frame that buffers are sent as: the stretches of their storage that they show. -/
def covering (buffers : List View) (receivedOn : Option Nat) : Frame :=
  ⟨buffers.flatMap View.cuts, receivedOn⟩

/-- How many segments buffers take, each as many as its bytes fill and one more for a rest. -/
def segmentsFor (buffers : List View) : Nat :=
  total (fun v => (v.bytes.length + (largestSegment - 1)) / largestSegment) buffers

variable {m : Memory} {buffers : List View} {receivedOn : Option Nat}

theorem bytes_covering (buffers : List View) (receivedOn : Option Nat) :
    (covering buffers receivedOn).bytes = buffers.flatMap View.bytes := by
  rw [covering, bytes, List.flatMap_assoc]
  congr 1
  funext v
  exact v.flatMap_bytes_cuts

theorem length_segments_covering (buffers : List View) (receivedOn : Option Nat) :
    (covering buffers receivedOn).segments.length = segmentsFor buffers := by
  rw [covering, length_flatMap_eq_total, segmentsFor]
  congr 1
  funext v
  exact v.length_cuts

/-- Buffers that show nothing take no segments. -/
theorem segmentsFor_eq_zero (h : buffers.flatMap View.bytes = []) : segmentsFor buffers = 0 := by
  induction buffers with
  | nil => rfl
  | cons v rest ih =>
    rw [List.flatMap_cons, List.append_eq_nil_iff] at h
    have hnone : (([] : List UInt8).length + (largestSegment - 1)) / largestSegment = 0 := rfl
    rw [segmentsFor, total_cons, h.1, hnone, Nat.zero_add]
    exact ih h.2

theorem ofBuffers_lent (h : ∀ free ∈ m.pool.free?, segmentsFor buffers ≤ free) :
    ofBuffers m buffers receivedOn =
      (.ok (covering buffers receivedOn), m.lend (covering buffers receivedOn).segments) := by
  rw [← length_segments_covering buffers receivedOn] at h
  have hcopy : copySegments m (buffers.flatMap View.cuts) = _ := copySegments_lent h
  rw [ofBuffers, hcopy]
  rfl

theorem ofBuffers_refused {free : Nat} (hfree : m.pool.free? = some free) (hlack : free < segmentsFor buffers)
    (hrefers : m.Refers (covering buffers receivedOn).segments) :
    ofBuffers m buffers receivedOn = (.error (.poolExhausted 1), m.countBack free) := by
  rw [← length_segments_covering buffers receivedOn] at hlack
  have hcopy : copySegments m (buffers.flatMap View.cuts) = _ := copySegments_refused hfree hlack hrefers
  rw [ofBuffers, hcopy]

end Frame

end Patchbay
