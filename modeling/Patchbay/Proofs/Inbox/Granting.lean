import Patchbay.Network.Consumer
import Patchbay.Proofs.Estate.Memory

/-!
# `Proofs.Inbox.Granting` — what an operation yields when nothing is refused

With headers enough, frames are made and copied, and a copy has the segments of the original. With a budget that
grants the block, a chain is queued and a frame is copied into one piece; either way the bytes stay what they were.

## Contents
* `Memory.HasHeaders`, `Memory.Grants` — the pool and a budget do not refuse;
* `Memory.SameBudgets` — what a budget answers is the same as before;
* `Frame.ofBytes_granted`, `Frame.copy_granted` — a frame of given bytes, a second frame over the same storage;
* `Frame.compact_granted` — a frame comes in one piece; `Queue.frames_push_eq` — a chain is queued;
* `Network.unwrapAll_eq`, `Network.views_takeAll` — the views of all segments, frame by frame.
-/

namespace Patchbay

open Budget (Block Kind Failure)

namespace Memory

/-- The pool has as many headers to lend. -/
def HasHeaders (m : Memory) (count : Nat) : Prop :=
  ∀ limit ∈ m.pool.limit, m.pool.headersLive + count ≤ limit

instance (m : Memory) (count : Nat) : Decidable (m.HasHeaders count) :=
  inferInstanceAs (Decidable (∀ limit ∈ m.pool.limit, _))

/-- A budget grants a block of a size. -/
def Grants (m : Memory) (budget : Nat) (note : String) (size : Nat) : Prop :=
  (m.alloc budget .plain (some note) size).1.toBool = true

instance (m : Memory) (budget : Nat) (note : String) (size : Nat) :
    Decidable (m.Grants budget note size) :=
  inferInstanceAs (Decidable (_ = _))

/-- Nothing changed of what a budget's answers depend on. -/
structure SameBudgets (m m' : Memory) : Prop where
  budgets : m'.budgets = m.budgets
  heap : m'.heap = m.heap
  lane : m'.lane = m.lane

variable {m m' m'' : Memory} {budget size count : Nat} {note : String}

theorem SameBudgets.trans (h : m.SameBudgets m') (h' : m'.SameBudgets m'') : m.SameBudgets m'' :=
  ⟨h'.budgets.trans h.budgets, h'.heap.trans h.heap, h'.lane.trans h.lane⟩

theorem SameBudgets.grants (h : m.SameBudgets m') (hg : m.Grants budget note size) :
    m'.Grants budget note size := by
  unfold Grants alloc at hg ⊢
  rw [h.budgets, h.heap, h.lane]
  -- headers and references have no part in what a budget answers
  cases hb : m.budgets[budget]? with
  | none =>
    rw [hb] at hg
    exact hg
  | some b =>
    rw [hb] at hg
    exact hg

/-- One of the headers is lent. -/
theorem HasHeaders.take (h : m.HasHeaders (count + 1)) :
    ∃ m', m.takeHeader? = some m' ∧ m'.HasHeaders count ∧ m.SameBudgets m' := by
  have hhas : m.pool.hasHeader = true := by
    cases hlimit : m.pool.limit with
    | none => rw [Pool.hasHeader, hlimit]; rfl
    | some limit =>
      have := h limit hlimit
      rw [Pool.hasHeader, hlimit, Option.all_some, decide_eq_true_eq]
      omega
  refine ⟨{ m with pool := { m.pool with headersLive := m.pool.headersLive + 1 } }, ?_, ?_, ⟨rfl, rfl, rfl⟩⟩
  · rw [takeHeader?, Pool.takeHeader?, if_pos hhas]
    rfl
  · intro limit hlimit
    have := h limit hlimit
    show m.pool.headersLive + 1 + count ≤ limit
    omega

/-- A block that is granted is signed by its budget, has the id that comes next there, and is all zeros. -/
theorem alloc_granted {comment : Option String} {block : Block}
    (h : m.alloc budget .plain comment size = (.ok block, m')) :
    ∃ b, m.budgets[budget]? = some b ∧ block = ⟨b.key, b.nextId, .plain, .zeroed size⟩ := by
  obtain ⟨b, b', hb, hr, -⟩ := alloc_ok h
  refine ⟨b, hb, ?_⟩
  rcases b.alloc_cases m.heap .plain m.lane comment size with ⟨e, heq⟩ | ⟨n, hn, -, heq⟩
  · rw [heq] at hr
    cases hr
  · rw [heq] at hr
    cases hn
    cases hr
    rfl

/-- A block of a budget is as long as it was asked for, and all zeros. -/
theorem Grants.alloc (h : m.Grants budget note size) :
    ∃ block m', m.alloc budget .plain (some note) size = (.ok block, m') ∧
      block.contents = .zeroed size := by
  unfold Grants at h
  cases ha : m.alloc budget .plain (some note) size with
  | mk answer m' =>
    rw [ha] at h
    cases answer with
    | error e => cases h
    | ok block =>
      obtain ⟨b, -, rfl⟩ := alloc_granted ha
      exact ⟨_, m', rfl, rfl⟩

end Memory

/-! ## Frames -/

theorem Budget.overlay_all (bytes : List UInt8) :
    overlay (List.replicate bytes.length 0) 0 bytes = bytes := by
  rw [overlay, overwrite, List.length_replicate, Nat.sub_zero, List.take_length, List.take_zero,
    List.nil_append, Nat.zero_add, List.drop_of_length_le (by rw [List.length_replicate]),
    List.append_nil]

theorem View.bytes_whole (s : Storage) : (View.whole s).bytes = s.bytes := by
  rw [View.bytes_eq]
  show (s.bytes.drop 0).take s.size = s.bytes
  rw [List.drop_zero, ← s.length_bytes, List.take_length]

namespace Frame

open Memory (SameBudgets)

/-- With headers enough there is one segment for each piece. -/
theorem segmentsOver_granted {m : Memory} {spare : Nat} (bytes : List (List UInt8))
    (h : m.HasHeaders (bytes.length + spare)) :
    ∃ segments m', segmentsOver m bytes = (some segments, m') ∧
      segments.map Segment.bytes = bytes ∧ m'.HasHeaders spare ∧ m.SameBudgets m' := by
  -- on the pieces: each takes a header and leaves as many as the others need
  induction bytes generalizing m with
  | nil =>
    rw [List.length_nil, Nat.zero_add] at h
    exact ⟨[], m, rfl, rfl, h, ⟨rfl, rfl, rfl⟩⟩
  | cons piece rest ih =>
    rw [List.length_cons, Nat.add_right_comm] at h
    obtain ⟨m₁, htake, hmore, hsame⟩ := h.take
    -- the cluster of the piece is new storage and takes no header
    have hshared : (m₁.shareCluster piece).2.HasHeaders (rest.length + spare) := hmore
    have hkept : m₁.SameBudgets (m₁.shareCluster piece).2 := ⟨rfl, rfl, rfl⟩
    obtain ⟨segments, m', heq, hbytes, hspare, hsame'⟩ := ih hshared
    refine ⟨Segment.whole (m₁.shareCluster piece).1 :: segments, m', ?_, ?_, hspare,
      hsame.trans (hkept.trans hsame')⟩
    · simp only [segmentsOver, htake, heq]
    · rw [List.map_cons, hbytes]
      refine congrArg (· :: rest) ?_
      show (View.whole _).bytes = piece
      rw [View.bytes_whole]
      exact Budget.Contents.toList_ofList piece

theorem ofBytes_granted {m : Memory} {spare : Nat} (bytes : List UInt8) (cap : Nat)
    (receivedOn : Option Nat) (h : m.HasHeaders ((pieces cap bytes).length + spare)) :
    ∃ f m', Frame.ofBytes m bytes cap receivedOn = (some f, m') ∧ f.bytes = bytes ∧
      f.segments.length = (pieces cap bytes).length ∧ m'.HasHeaders spare ∧ m.SameBudgets m' := by
  obtain ⟨segments, m', heq, hbytes, hspare, hsame⟩ := segmentsOver_granted (pieces cap bytes) h
  refine ⟨⟨segments, receivedOn⟩, m', ?_, ?_, ?_, hspare, hsame⟩
  · simp only [ofBytes, heq]
    rfl
  · rw [Frame.bytes, List.flatMap_def, hbytes, flatten_pieces]
  · rw [← hbytes, List.length_map]

/-- With headers enough a copy has the segments of the original. -/
theorem copySegments_granted {m : Memory} (segments : List Segment)
    (h : m.HasHeaders segments.length) :
    ∃ m', copySegments m segments = (some segments, m') ∧ m.SameBudgets m' := by
  induction segments generalizing m with
  | nil => exact ⟨m, rfl, rfl, rfl, rfl⟩
  | cons segment rest ih =>
    obtain ⟨m₁, htake, hmore, hsame⟩ := Memory.HasHeaders.take h
    have hretained : (m₁.retain segment.storage).HasHeaders rest.length := hmore
    have hkept : m₁.SameBudgets (m₁.retain segment.storage) := ⟨rfl, rfl, rfl⟩
    obtain ⟨m', heq, hsame'⟩ := ih hretained
    refine ⟨m', ?_, hsame.trans (hkept.trans hsame')⟩
    simp only [copySegments, htake, heq]

theorem copy_granted {m : Memory} {f : Frame} (h : m.HasHeaders f.segments.length) :
    ∃ m', f.copy m = (some f, m') ∧ m.SameBudgets m' := by
  obtain ⟨m', heq, hsame⟩ := copySegments_granted f.segments h
  refine ⟨m', ?_, hsame⟩
  simp only [copy, heq]
  rfl

/-- A copy has the segments of the original. -/
theorem copySegments_eq {m m' : Memory} {segments copies : List Segment}
    (h : copySegments m segments = (some copies, m')) : copies = segments := by
  induction segments generalizing m m' copies with
  | nil =>
    cases h
    rfl
  | cons segment rest ih =>
    unfold copySegments at h
    split at h
    · cases h
    · split at h
      · rename_i hrest
        cases h
        rw [ih hrest]
      · cases h

theorem copy_eq {m m' : Memory} {f g : Frame} (h : f.copy m = (some g, m')) : g = f := by
  unfold copy at h
  cases hcopies : copySegments m f.segments with
  | mk copies? m₁ =>
    rw [hcopies] at h
    cases copies? with
    | none => cases h
    | some copies =>
      obtain rfl := copySegments_eq hcopies
      cases h
      rfl

/-- Of a block that was all zeros every byte is written over. -/
theorem toList_written (f : Frame) : ((Budget.Contents.zeroed f.length).write 0 f.bytes).toList = f.bytes := by
  rw [Budget.Contents.toList_write, Budget.Contents.toList_zeroed, ← f.length_bytes]
  exact Budget.overlay_all f.bytes

/-- A frame in one piece has the bytes that it had in many. -/
theorem compact_granted {m : Memory} {budget : Nat} {f : Frame}
    (h : m.Grants budget compactNote f.length) :
    ∃ v m', f.compact m budget = (.ok v, m') ∧ v.bytes = f.bytes := by
  obtain ⟨block, m', heq, hcontents⟩ := h.alloc
  refine ⟨.whole (m'.shareBlock (block.write 0 f.bytes)).1,
    (m'.shareBlock (block.write 0 f.bytes)).2, ?_, ?_⟩
  · simp only [compact, heq]
  · rw [View.bytes_whole]
    show (block.contents.write 0 f.bytes).toList = f.bytes
    rw [hcontents, f.toList_written]

end Frame

/-! ## Queues -/

/-- A chain whose place is paid for goes in front, any other one is dropped. -/
theorem Queue.frames_push_eq (q : Queue) (m : Memory) (budget : Nat) (c : Chain) :
    (q.push m budget c).2.1.frames =
      if m.Grants budget nodeNote nodeSize then c.frames ++ q.frames else q.frames := by
  have hadmitted : (q.push m budget c).1 = (m.alloc budget .plain (some nodeNote) nodeSize).1.toBool := by
    unfold push
    split
    · rename_i heq
      rw [heq]
      rfl
    · rename_i heq
      rw [heq]
      rfl
  rw [q.frames_push]
  by_cases hgrants : m.Grants budget nodeNote nodeSize
  · rw [if_pos hgrants, if_pos (hadmitted.trans hgrants)]
  · rw [if_neg hgrants, if_neg fun h => hgrants (hadmitted.symm.trans h)]

namespace Network

/-- Each frame yields the views of its segments. -/
theorem unwrapAll_eq (m : Memory) (frames : List Frame) :
    (unwrapAll m frames).1 = (frames.map fun f => f.segments.map Segment.view).flatten := by
  induction frames generalizing m with
  | nil => rfl
  | cons f rest ih =>
    rw [List.map_cons, List.flatten_cons, ← ih]
    rfl

/-- What comes off an emptied queue is what waited on it. -/
theorem onQueue_drain (n : Network) (plug : Plug) :
    n.onQueue plug Queue.drain = ((n.plane.line plug).queue.frames, (n.onQueue plug Queue.drain).2) :=
  Prod.ext ((n.plane.line plug).queue.frames_drain n.memory).1 rfl

/-- All that waits is handed over as the views of its segments, frame by frame. -/
theorem views_takeAll {n : Network} {key id : Nat} {plug : Plug} (h : (n.registry key).byId? id = some plug) :
    (n.takeAll key id).1 =
      ((n.plane.line plug).queue.frames.map fun f => f.segments.map Segment.view).flatten := by
  unfold takeAll
  rw [h]
  dsimp only
  rw [onQueue_drain]
  exact unwrapAll_eq _ _

end Network

end Patchbay
