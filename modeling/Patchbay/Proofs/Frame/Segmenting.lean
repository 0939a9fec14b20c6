import Patchbay.Proofs.Frame.Cutting
import Patchbay.Proofs.Inbox.Capture

/-!
# `Proofs.Frame.Segmenting` — bytes in segments, and nothing but the bytes to tell from them

Bytes are put into a frame stretch by stretch, each in a cluster that was made for it, and a frame is copied segment by
segment over the storage it has. Both ask the pool for one header after the other, and both give back all they took
when it refuses one: headers and clusters, and every reference. What comes of it shows the bytes it was made of, and
whoever reads it, copies it into one piece or decides whose it is sees these bytes and not where the cuts fall.

## Contents
* `Memory.lendClusters`, `Memory.countClustersBack` — the memory with fresh clusters, and after all of them went again;
* `Frame.overClusters`, `Frame.segmentsOver_lent`, `Frame.segmentsOver_refused` — by induction on the stretches;
* `Frame.MadeOf`, `Frame.madeOf_overClusters` — what a frame of given bytes is;
* `Frame.verdict?`, `Network.isSome_intercept` — what a splice decides, from the destination alone;
* `Frame.Alike`, `Frame.alike_of_bytes` — frames that nobody can tell apart;
* `Frame.bytesWaiting_intercept`, `Frame.bytes_of_compact` — what is queued, and what a copy in one piece shows;
* `Frame.segmenting_lossless` — making, copying and reading.
-/

namespace Patchbay

/-! ## Stretches of bounded length -/

theorem length_of_mem_pieces {cap : Nat} {bytes piece : List UInt8} (h : piece ∈ pieces cap bytes) :
    0 < piece.length ∧ piece.length ≤ max cap 1 := by
  fun_induction pieces cap bytes with
  | case1 => cases h
  | case2 b rest ih =>
    rcases List.mem_cons.1 h with rfl | hrest
    · rw [List.length_cons, List.length_take]
      omega
    · exact ih hrest

/-! ## Fresh clusters -/

namespace Memory

/-- The memory with so many fresh clusters, each with a header and one reference to it. -/
def lendClusters (m : Memory) (count : Nat) : Memory :=
  { m with
    pool := { m.pool with
      headersLive := m.pool.headersLive + count
      clustersLive := m.pool.clustersLive + count }
    references := m.references ++ Array.replicate count 1 }

/-- The memory after so many fresh clusters went again, and their headers with them. -/
def countClustersBack (m : Memory) (count : Nat) : Memory :=
  { m with
    pool := { m.pool with
      headersReleased := m.pool.headersReleased + count
      clustersReleased := m.pool.clustersReleased + count }
    references := m.references ++ Array.replicate count 0 }

variable {m : Memory}

theorem lendClusters_zero (m : Memory) : m.lendClusters 0 = m := by
  simp [lendClusters]

theorem lendClusters_lendClusters (m : Memory) (count more : Nat) :
    (m.lendClusters count).lendClusters more = m.lendClusters (count + more) := by
  simp only [lendClusters, Nat.add_assoc, Array.append_assoc, Array.replicate_append_replicate]

theorem countClustersBack_zero (m : Memory) : m.countClustersBack 0 = m := by
  simp [countClustersBack]

theorem free?_lendClusters (m : Memory) (count : Nat) :
    (m.lendClusters count).pool.free? = m.pool.free?.map (· - count) := by
  rw [Pool.free?, Pool.free?, Option.map_map]
  congr 1
  funext limit
  exact Nat.sub_add_eq limit m.pool.headersLive count

/-- One header and the cluster of one stretch. -/
theorem shareCluster_lent (m : Memory) (piece : List UInt8) :
    ({ m with pool := { m.pool with headersLive := m.pool.headersLive + 1 } } : Memory).shareCluster piece =
      (⟨m.references.size, .cluster (.ofList piece)⟩, m.lendClusters 1) := by
  have hreferences : m.references.push 1 = m.references ++ Array.replicate 1 1 := Array.push_eq_append
  show ((_ : Storage), ({ m with pool := _, references := m.references.push 1 } : Memory)) = _
  rw [hreferences]
  rfl

/-- What was never made is not referred to. -/
theorem referencesTo_of_le {storage : Storage} (h : m.references.size ≤ storage.key) : m.referencesTo storage = 0 :=
  Nat.eq_zero_of_not_pos fun hpos => Nat.not_lt.2 h (key_lt_of_referencesTo hpos)

/-- New clusters are referred to once each, and everything else as before. -/
theorem referencesTo_lendClusters (m : Memory) (count : Nat) (storage : Storage) :
    (m.lendClusters count).referencesTo storage =
      if m.references.size ≤ storage.key ∧ storage.key < m.references.size + count then 1
      else m.referencesTo storage := by
  simp only [referencesTo, lendClusters, Array.getD_eq_getD_getElem?, Array.getElem?_append,
    Array.getElem?_replicate]
  grind

theorem referencesTo_countClustersBack (m : Memory) (count : Nat) (storage : Storage) :
    (m.countClustersBack count).referencesTo storage = m.referencesTo storage := by
  simp only [referencesTo, countClustersBack, Array.getD_eq_getD_getElem?, Array.getElem?_append,
    Array.getElem?_replicate]
  grind

/-- The first of the clusters goes behind the others. -/
theorem releaseSegment_lendClusters (m : Memory) (piece : List UInt8) (count : Nat) :
    ((m.lendClusters 1).countClustersBack count).releaseSegment
        (.whole ⟨m.references.size, .cluster (.ofList piece)⟩) =
      m.countClustersBack (count + 1) := by
  let own : Storage := ⟨m.references.size, .cluster (.ofList piece)⟩
  have hone : (((m.lendClusters 1).countClustersBack count).returnHeader).referencesTo own = 1 := by
    refine (referencesTo_countClustersBack _ count own).trans ?_
    rw [referencesTo_lendClusters, if_pos ⟨Nat.le_refl _, Nat.lt_succ_self _⟩]
  have hreferences :
      (m.references ++ Array.replicate 1 1 ++ Array.replicate count 0).setIfInBounds m.references.size 0 =
        m.references ++ Array.replicate (count + 1) 0 := by
    apply Array.ext_getElem?
    intro i
    simp only [Array.getElem?_setIfInBounds, Array.getElem?_append, Array.getElem?_replicate, Array.size_append,
      Array.size_replicate]
    grind
  unfold releaseSegment release
  dsimp only [Segment.whole]
  rw [hone, if_pos rfl]
  simp only [reclaim, returnHeader, countClustersBack, lendClusters, Pool.returnHeader, Pool.returnCluster,
    hreferences, Nat.add_sub_cancel, Nat.add_assoc]

end Memory

namespace Frame

variable {m : Memory} {bytes : List (List UInt8)}

/-- A segment over a cluster of its own for each stretch, the clusters keyed from one on. -/
def overClusters (key : Nat) : List (List UInt8) → List Segment
  | [] => []
  | piece :: rest => .whole ⟨key, .cluster (.ofList piece)⟩ :: overClusters (key + 1) rest

/-- With headers enough there is a segment for each stretch. -/
theorem segmentsOver_lent (h : ∀ free ∈ m.pool.free?, bytes.length ≤ free) :
    segmentsOver m bytes = (some (overClusters m.references.size bytes), m.lendClusters bytes.length) := by
  induction bytes generalizing m with
  | nil => rw [segmentsOver, overClusters, List.length_nil, Memory.lendClusters_zero]
  | cons piece rest ih =>
    have hfree : m.pool.free? ≠ some 0 := fun hnone => absurd (h 0 hnone) (Nat.not_succ_le_zero _)
    have hrest : ∀ free ∈ (m.lendClusters 1).pool.free?, rest.length ≤ free := by
      intro left hleft
      rw [Memory.free?_lendClusters] at hleft
      obtain ⟨free, hfree, rfl⟩ := Option.map_eq_some_iff.1 hleft
      exact Nat.le_sub_of_add_le (h free hfree)
    have hkey : (m.lendClusters 1).references.size = m.references.size + 1 := by
      rw [Memory.lendClusters, Array.size_append, Array.size_replicate]
    unfold segmentsOver
    rw [Memory.takeHeader?_eq hfree]
    dsimp only
    rw [Memory.shareCluster_lent]
    dsimp only
    rw [ih hrest, hkey, Memory.lendClusters_lendClusters, Nat.add_comm 1]
    rfl

/-- Without, those that there were go back, and their clusters go. -/
theorem segmentsOver_refused {free : Nat} (hfree : m.pool.free? = some free) (hlack : free < bytes.length) :
    segmentsOver m bytes = (none, m.countClustersBack free) := by
  -- on the stretches: the first one has its cluster, and gives it up behind the others
  induction bytes generalizing m free with
  | nil => exact absurd hlack (Nat.not_lt_zero free)
  | cons piece rest ih =>
    unfold segmentsOver
    cases free with
    | zero =>
      have hnone : m.takeHeader? = none := by
        rw [Memory.takeHeader?, (Pool.takeHeader?_eq_none_iff m.pool).2 hfree]
        rfl
      rw [hnone, Memory.countClustersBack_zero]
    | succ left =>
      have hsome : m.pool.free? ≠ some 0 := by
        rw [hfree]
        simp
      have hleft : (m.lendClusters 1).pool.free? = some left := by
        rw [Memory.free?_lendClusters, hfree]
        rfl
      rw [Memory.takeHeader?_eq hsome]
      dsimp only
      rw [Memory.shareCluster_lent]
      dsimp only
      rw [ih hleft (Nat.lt_of_succ_lt_succ hlack)]
      dsimp only
      rw [Memory.releaseSegment_lendClusters]

/-! ## A frame of given bytes -/

theorem length_overClusters (key : Nat) (bytes : List (List UInt8)) :
    (overClusters key bytes).length = bytes.length := by
  induction bytes generalizing key with
  | nil => rfl
  | cons piece rest ih => rw [overClusters, List.length_cons, List.length_cons, ih]

theorem bytes_overClusters (key : Nat) (bytes : List (List UInt8)) :
    (overClusters key bytes).map Segment.bytes = bytes := by
  induction bytes generalizing key with
  | nil => rfl
  | cons piece rest ih =>
    have hpiece : (Segment.whole ⟨key, .cluster (.ofList piece)⟩).bytes = piece :=
      (View.bytes_whole _).trans (Budget.Contents.toList_ofList piece)
    rw [overClusters, List.map_cons, ih, hpiece]

/-- The clusters are keyed one after the other. -/
theorem keys_overClusters (key : Nat) (bytes : List (List UInt8)) :
    (overClusters key bytes).map (fun s => s.storage.key) = List.range' key bytes.length := by
  induction bytes generalizing key with
  | nil => rfl
  | cons piece rest ih =>
    rw [overClusters, List.map_cons, ih]
    rfl

theorem isCluster_overClusters (key : Nat) (bytes : List (List UInt8)) :
    ∀ s ∈ overClusters key bytes, s.storage.isCluster = true := by
  induction bytes generalizing key with
  | nil => exact List.forall_mem_nil _
  | cons piece rest ih => exact List.forall_mem_cons.2 ⟨rfl, ih (key + 1)⟩

/-- A frame was made of bytes: it shows them, stretch by stretch, each in a cluster that nobody had before, and nothing
else is different. -/
structure MadeOf (m : Memory) (bytes : List UInt8) (cap : Nat) (receivedOn : Option Nat) (f : Frame) (m' : Memory) :
    Prop where
  count : f.segments.length = (bytes.length + (max cap 1 - 1)) / max cap 1
  shown : f.bytes = bytes
  marked : f.receivedOn = receivedOn
  filled : ∀ s ∈ f.segments, 0 < s.length ∧ s.length ≤ max cap 1
  fresh : ∀ s ∈ f.segments, s.storage.isCluster = true ∧ m.references.size ≤ s.storage.key
  own : (f.segments.map fun s => s.storage.key).Nodup
  referred : ∀ storage, m'.referencesTo storage =
    m.referencesTo storage + f.segments.countP fun s => s.storage.key = storage.key
  memory : m' = { m with
    pool := { m.pool with
      headersLive := m.pool.headersLive + f.segments.length
      clustersLive := m.pool.clustersLive + f.segments.length }
    references := m'.references }

/-- Each of its segments has its reference. -/
theorem MadeOf.countsEach {m m' : Memory} {bytes : List UInt8} {cap : Nat} {receivedOn : Option Nat} {f : Frame}
    (h : MadeOf m bytes cap receivedOn f m') : m'.CountsEach f.segments := by
  intro storage
  rw [h.referred]
  exact Nat.le_add_left _ _

/-- The frame over fresh clusters is one. -/
theorem madeOf_overClusters (m : Memory) (bytes : List UInt8) (cap : Nat) (receivedOn : Option Nat) :
    MadeOf m bytes cap receivedOn ⟨overClusters m.references.size (pieces cap bytes), receivedOn⟩
      (m.lendClusters (pieces cap bytes).length) := by
  have hkeys := keys_overClusters m.references.size (pieces cap bytes)
  have hlength := length_overClusters m.references.size (pieces cap bytes)
  have hbytes := bytes_overClusters m.references.size (pieces cap bytes)
  have hcluster := isCluster_overClusters m.references.size (pieces cap bytes)
  generalize overClusters m.references.size (pieces cap bytes) = segments at *
  refine ⟨hlength.trans (length_pieces cap bytes), ?_, rfl, ?_, ?_, ?_, ?_, ?_⟩
  · rw [Frame.bytes, List.flatMap_def, hbytes, flatten_pieces]
  · intro s hs
    have hmem : s.bytes ∈ pieces cap bytes := hbytes ▸ List.mem_map_of_mem hs
    rw [← s.length_bytes]
    exact length_of_mem_pieces hmem
  · intro s hs
    have hkey : s.storage.key ∈ List.range' m.references.size (pieces cap bytes).length :=
      hkeys ▸ List.mem_map_of_mem hs
    exact ⟨hcluster s hs, (List.mem_range'_1.1 hkey).1⟩
  · rw [hkeys]
    exact List.nodup_range'
  · intro storage
    have hcount : segments.countP (fun s => s.storage.key = storage.key) =
        (List.range' m.references.size (pieces cap bytes).length).count storage.key := by
      rw [← hkeys, List.count, List.countP_map]
      exact List.countP_congr fun s _ => by simp
    have hdistinct : (List.range' m.references.size (pieces cap bytes).length).Nodup := List.nodup_range'
    rw [hcount, Memory.referencesTo_lendClusters, hdistinct.count]
    by_cases hnew : storage.key ∈ List.range' m.references.size (pieces cap bytes).length
    · have hrange := List.mem_range'_1.1 hnew
      rw [if_pos hrange, if_pos hnew, Memory.referencesTo_of_le hrange.1]
    · rw [if_neg fun hrange => hnew (List.mem_range'_1.2 hrange), if_neg hnew]
      rfl
  · rw [hlength]
    rfl

section OfBytes

variable {m : Memory} {bytes : List UInt8} {cap : Nat} {receivedOn : Option Nat}

theorem ofBytes_lent (h : ∀ free ∈ m.pool.free?, (pieces cap bytes).length ≤ free) :
    ofBytes m bytes cap receivedOn =
      (some ⟨overClusters m.references.size (pieces cap bytes), receivedOn⟩,
        m.lendClusters (pieces cap bytes).length) := by
  rw [ofBytes, segmentsOver_lent h]
  rfl

theorem ofBytes_refused {free : Nat} (hfree : m.pool.free? = some free) (hlack : free < (pieces cap bytes).length) :
    ofBytes m bytes cap receivedOn = (none, m.countClustersBack free) := by
  rw [ofBytes, segmentsOver_refused hfree hlack]
  rfl

end OfBytes

/-! ## Frames that nobody can tell apart -/

/-- Whose a frame is for a consumer that listens on an address; one that is too short for a destination is nobody's. -/
def verdict? (f : Frame) (own : Mac) : Option Verdict :=
  f.destination?.map (Verdict.of · own)

end Frame

/-- On a plugged interface a splice keeps the chains of its consumer, copies those of everybody and leaves the rest
alone, as the verdict on the first frame has it. -/
theorem Network.intercept_verdict {n : Network} {key index : Nat} {plug : Plug}
    (hsome : (n.registry key).isEmpty = false) (hfound : (n.registry key).byIndex? index = some plug) (c : Chain) :
    n.intercept key index c =
      match c.head.verdict? plug.virtualMac with
      | some .mine => (none, { n with plane := queueWhole n.plane plug (n.budgetOf key) c })
      | some .broadcast => (some c, { n with plane := queueCopy n.plane plug (n.budgetOf key) c.head })
      | _ => (some c, n) := by
  unfold intercept Frame.verdict?
  dsimp only
  rw [hsome, hfound]
  cases c.head.destination? with
  | none => rfl
  | some destination =>
    simp only [Option.map_some]
    cases Verdict.of destination plug.virtualMac <;> rfl

/-- A chain goes on unless its first frame is the consumer's alone. -/
theorem Network.isSome_intercept (n : Network) (key index : Nat) (c : Chain) :
    (n.intercept key index c).1.isSome = ((n.registry key).isEmpty ||
      ((n.registry key).byIndex? index).all fun plug => c.head.verdict? plug.virtualMac ≠ some .mine) := by
  cases hsome : (n.registry key).isEmpty with
  | true =>
    unfold intercept
    dsimp only
    rw [if_pos hsome]
    rfl
  | false =>
    cases hfound : (n.registry key).byIndex? index with
    | none =>
      unfold intercept
      dsimp only
      rw [hsome, hfound]
      rfl
    | some plug =>
      rw [intercept_verdict hsome hfound, Option.all_some]
      cases c.head.verdict? plug.virtualMac with
      | none => rfl
      | some verdict => cases verdict <;> rfl

namespace Frame

/-- Two frames that nobody can tell apart who reads them, copies them into one piece or asks whose they are. A splice
lets one go on if it lets the other one, and if it has room for either, the same bytes wait for its consumer then. -/
structure Alike (f g : Frame) : Prop where
  length : f.length = g.length
  bytes : f.bytes = g.bytes
  copied : ∀ buffer, f.copyInto buffer = g.copyInto buffer
  destination : f.destination? = g.destination?
  compact : ∀ m budget, f.compact m budget = g.compact m budget
  verdict : ∀ own, f.verdict? own = g.verdict? own
  passed : ∀ (n : Network) (key index : Nat),
    (n.intercept key index (.last f)).1.isSome = (n.intercept key index (.last g)).1.isSome
  queued : ∀ (n : Network) (key : Nat) (plug : Plug), n.Plugged key plug →
    n.memory.HasHeaders f.segments.length → n.memory.HasHeaders g.segments.length →
    n.memory.Grants (n.budgetOf key) Queue.nodeNote Queue.nodeSize →
    (n.intercept key plug.index (.last f)).2.bytesWaiting plug =
      (n.intercept key plug.index (.last g)).2.bytesWaiting plug

variable {f g : Frame}

/-- With room for it, what a splice queues of a frame is told by the verdict and the bytes. -/
theorem bytesWaiting_intercept {n : Network} {key : Nat} {plug : Plug} (hplugged : n.Plugged key plug)
    (hheaders : n.memory.HasHeaders f.segments.length)
    (hgrants : n.memory.Grants (n.budgetOf key) Queue.nodeNote Queue.nodeSize) :
    (n.intercept key plug.index (.last f)).2.bytesWaiting plug =
      match f.verdict? plug.virtualMac with
      | some .mine => f.bytes :: n.bytesWaiting plug
      | some .broadcast => f.bytes :: n.bytesWaiting plug
      | _ => n.bytesWaiting plug := by
  have hrun := Network.intercept_verdict hplugged.nonempty hplugged.found (.last f)
  rw [show (Chain.last f).head = f from rfl] at hrun
  cases hverdict : f.verdict? plug.virtualMac with
  | none =>
    rw [hverdict] at hrun
    rw [hrun]
  | some verdict =>
    rw [hverdict] at hrun
    cases verdict with
    | mine =>
      rw [hrun]
      exact congrArg (List.map bytes) ((Backplane.waiting_queueWhole hplugged.lined (.last f)).trans (if_pos hgrants))
    | broadcast =>
      rw [hrun]
      exact congrArg (List.map bytes) (Backplane.waiting_queueCopy_granted hplugged.lined hheaders hgrants)
    | foreign => rw [hrun]

/-- All that is told of a frame is told from its bytes. -/
theorem alike_of_bytes (h : f.bytes = g.bytes) : f.Alike g := by
  have hlength : f.length = g.length := by rw [← f.length_bytes, ← g.length_bytes, h]
  have hdestination : f.destination? = g.destination? := by rw [f.destination?_eq, g.destination?_eq, h]
  have hverdict (own : Mac) : f.verdict? own = g.verdict? own := congrArg (Option.map (Verdict.of · own)) hdestination
  refine ⟨hlength, h, ?_, hdestination, ?_, hverdict, ?_, ?_⟩
  · intro buffer
    rw [f.copyInto_eq, g.copyInto_eq, hlength, h]
  · intro m budget
    rw [compact, compact, hlength, h]
  · intro n key index
    have hpasses : (fun plug : Plug => decide (f.verdict? plug.virtualMac ≠ some .mine)) =
        fun plug : Plug => decide (g.verdict? plug.virtualMac ≠ some .mine) := by
      funext plug
      rw [hverdict]
    rw [n.isSome_intercept, n.isSome_intercept]
    exact congrArg (fun passes => _ || Option.all passes _) hpasses
  · intro n key plug hplugged hf hg hgrants
    rw [bytesWaiting_intercept hplugged hf hgrants, bytesWaiting_intercept hplugged hg hgrants, hverdict, h]

/-- A frame in one piece has the bytes that it had in many. -/
theorem bytes_of_compact {m m' : Memory} {budget : Nat} {v : View} (h : f.compact m budget = (.ok v, m')) :
    v.bytes = f.bytes := by
  have hgrants : m.Grants budget compactNote f.length := by
    unfold compact at h
    cases ha : m.alloc budget .plain (some compactNote) f.length with
    | mk answer m₁ =>
      cases answer with
      | error e =>
        rw [ha] at h
        cases h
      | ok block => exact congrArg (fun r => r.1.toBool) ha
  obtain ⟨w, m₁, heq, hbytes⟩ := compact_granted hgrants
  rw [h] at heq
  cases heq
  exact hbytes

/-! ## Making, copying and reading -/

/-- **Segmenting loses nothing, and headers are taken all or not at all.** Bytes take a header for each stretch of `cap`
bytes, or of one byte if the cap is none, and for a rest. With so many free in the pool there is a frame of as many
segments, none of them empty or longer than that, each over a cluster of its own that was not there before, and the
frame shows the bytes and is marked as it was asked. The first frame of a chain, whose storage somebody refers to as to
that of every frame that is on a host after any run of acts, is copied with a header for each of its segments: the copy
is a frame like it and by itself, of the same stretches of the same storage, with one reference more for each of them.
Where the pool lacks headers, there is no frame and no copy, and headers and clusters live, the references to every
storage and the budgets are as before. And no two frames of the same bytes, wherever their cuts fall, can be told apart
by their length, bytes or destination, by what a copy in one piece shows, or by what a splice decides about them under
any address. -/
theorem segmenting_lossless :
    (∀ (m : Memory) (bytes : List UInt8) (cap : Nat) (receivedOn : Option Nat),
      let count := (bytes.length + (max cap 1 - 1)) / max cap 1
      ((∀ free ∈ m.pool.free?, count ≤ free) →
        ∃ f m', ofBytes m bytes cap receivedOn = (some f, m') ∧ MadeOf m bytes cap receivedOn f m') ∧
      ∀ free ∈ m.pool.free?, free < count →
        ∃ m', ofBytes m bytes cap receivedOn = (none, m') ∧
          (∀ storage, m'.referencesTo storage = m.referencesTo storage) ∧
          m' = { m with
            pool := { m.pool with
              headersReleased := m.pool.headersReleased + free
              clustersReleased := m.pool.clustersReleased + free }
            references := m'.references }) ∧
    (∀ (m : Memory) (c : Chain), m.Refers c.head.segments →
      let count := c.head.segments.length
      ((∀ free ∈ m.pool.free?, count ≤ free) →
        ∃ m', c.head.copy m = (some c.head, m') ∧
          (∀ storage, m'.referencesTo storage =
            m.referencesTo storage + c.head.segments.countP fun s => s.storage.key = storage.key) ∧
          m' = { m with
            pool := { m.pool with headersLive := m.pool.headersLive + count }
            references := m'.references }) ∧
      ∀ free ∈ m.pool.free?, free < count →
        c.head.copy m =
          (none, { m with pool := { m.pool with headersReleased := m.pool.headersReleased + free } })) ∧
    (∀ (limit : Option Nat) (turns : List Turn), ∀ f ∈ ((Scene.start limit).run turns).frames,
      ((Scene.start limit).run turns).memory.Refers f.segments) ∧
    ∀ f g : Frame, f.bytes = g.bytes → f.Alike g ∧
      ∀ m budget v m', f.compact m budget = (.ok v, m') → v.bytes = f.bytes := by
  refine ⟨?_, ?_, ?_, fun f g h => ⟨alike_of_bytes h, fun m budget v m' hv => bytes_of_compact hv⟩⟩
  · intro m bytes cap receivedOn count
    have hcount : (pieces cap bytes).length = count := length_pieces cap bytes
    rw [← hcount]
    refine ⟨fun henough => ⟨_, _, ofBytes_lent henough, madeOf_overClusters m bytes cap receivedOn⟩, ?_⟩
    intro free hfree hlack
    exact ⟨_, ofBytes_refused hfree hlack, m.referencesTo_countClustersBack free, rfl⟩
  · intro m c hrefers count
    refine ⟨fun henough => ?_, fun free hfree hlack => copy_refused hfree hlack hrefers⟩
    exact ⟨_, copy_lent henough, Memory.referencesTo_lend hrefers, m.lend_eq _⟩
  · intro limit turns f hf
    obtain ⟨h, hs⟩ := Scene.settled_run limit turns
    have hcounts : ((Scene.start limit).run turns).memory.CountsEach f.segments :=
      hs.exact.countP_le_referencesTo hf
    exact hcounts.refers

/-- Five bytes in a pool of four headers: by two they take three of them, and a copy of that frame is refused behind the
one that is left; by one they are refused; by four they take two headers, and nobody tells that frame from the first. -/
theorem segmenting_lossless_five :
    let bytes : List UInt8 := [1, 2, 3, 4, 5]
    let m : Memory := { pool := { limit := some 4 } }
    ∃ f g m₁ m₂ m₃,
      ofBytes m bytes 2 (some 7) = (some f, m₁) ∧ f.segments.length = 3 ∧ m₁.pool.clustersLive = 3 ∧
        m₁.Refers f.segments ∧ f.copy m₁ = (none, m₁.countBack 1) ∧
        ofBytes m bytes 0 none = (none, m₂) ∧ m₂.pool.headersLive = 0 ∧ m₂.pool.clustersLive = 0 ∧
        ofBytes m bytes 4 none = (some g, m₃) ∧ g.segments.length = 2 ∧ f.Alike g := by
  intro bytes m
  obtain ⟨hmake, hcopy, -, halike⟩ := segmenting_lossless
  have hfits (count : Nat) (h : count ≤ 4) : ∀ free ∈ m.pool.free?, count ≤ free := by
    intro free hfree
    obtain rfl := Option.some.inj hfree
    exact h
  obtain ⟨f, m₁, hf, hfmade⟩ := (hmake m bytes 2 (some 7)).1 (hfits _ (by decide))
  obtain ⟨m₂, hnone, -, hm₂⟩ := (hmake m bytes 0 none).2 4 rfl (by decide)
  obtain ⟨g, m₃, hg, hgmade⟩ := (hmake m bytes 4 none).1 (hfits _ (by decide))
  have hthree : f.segments.length = 3 := hfmade.count.trans (by decide)
  have htwo : g.segments.length = 2 := hgmade.count.trans (by decide)
  have hpool : m₁.pool = { m.pool with headersLive := 3, clustersLive := 3 } := by
    rw [hfmade.memory, hthree]
  have hrefers : m₁.Refers f.segments := hfmade.countsEach.refers
  refine ⟨f, g, m₁, m₂, m₃, hf, hthree, ?_, hrefers, ?_, hnone, ?_, ?_, hg, htwo,
    (halike f g (hfmade.shown.trans hgmade.shown.symm)).1⟩
  · rw [hpool]
  · refine (hcopy m₁ (.last f) hrefers).2 1 ?_ ?_
    · rw [hpool]
      rfl
    · show 1 < f.segments.length
      rw [hthree]
      decide
  · rw [hm₂]
  · rw [hm₂]

end Frame

end Patchbay
