import Patchbay.Proofs.Budget.Borrowing
import Patchbay.Proofs.Frame.Forwarding
import Patchbay.Proofs.Frame.Segmenting
import Patchbay.Proofs.Inbox.Agreement
import Patchbay.Proofs.Inbox.Received

/-!
# `Proofs.Inbox.Returned` — what frames that wait take is back when they are taken

A frame that waits has headers of the pool and a block of the consumer's budget for its place in the queue. When all
that waits is taken, headers and blocks go back. So a batch that came and was taken leaves a memory that decides as
before.

## Contents
* `Memory.drained`, `Network.memory_takeAll` — the memory once everything of a queue is taken;
* `Network.Admits` — a frame is at the front of a queue, and taking it gives back what it took;
* `Inbox.even_arrive`, `Inbox.even_arriveEach` — a frame and a batch of them come and are taken.
-/

namespace Patchbay

open Patchbay.Frame (overClusters)
open Inbox (IsFor)

namespace Memory

variable {m m' : Memory}

/-- As many headers are free as there is room for. -/
theorem HasHeaders.free {count : Nat} (h : m.HasHeaders count) : ∀ free ∈ m.pool.free?, count ≤ free := by
  intro free hfree
  obtain ⟨limit, hlimit, rfl⟩ := Option.map_eq_some_iff.1 hfree
  have := h limit hlimit
  omega

/-- Headers may go back in two parts. -/
theorem returnHeaders_returnHeaders (m : Memory) (count more : Nat) :
    (m.returnHeaders count).returnHeaders more = m.returnHeaders (count + more) := by
  simp only [returnHeaders, Nat.sub_sub, Nat.add_assoc]

/-- It does not matter whether a block or headers go back first. -/
theorem free_returnHeaders (m : Memory) (count : Nat) (block : Budget.Block) :
    (m.returnHeaders count).free block = (m.free block).returnHeaders count := by
  have hbudgets : (m.returnHeaders count).budgets[block.owner]? = m.budgets[block.owner]? := rfl
  unfold free
  rw [hbudgets]
  cases m.budgets[block.owner]? <;> rfl

/-- Headers that go back to both leave two memories even. -/
theorem Even.returnHeaders (h : m.Even m') (count : Nat) : (m.returnHeaders count).Even (m'.returnHeaders count) :=
  ⟨h.heap, h.lane, h.limit, congrArg (· - count) h.headersLive, h.budgets⟩

/-- The memory once everything of a queue is taken: the nodes are paid back, and each segment gives a header back. -/
def drained (m : Memory) (q : Queue) : Memory :=
  (q.nodes.foldl (fun m node => m.free node.charge) m).returnHeaders (total (fun f => f.segments.length) q.frames)

/-- Two even memories are even when the same queue was emptied on both. -/
theorem Even.drained (h : m.Even m') (q : Queue) : (m.drained q).Even (m'.drained q) := by
  have hnodes (nodes : List Node) {m m' : Memory} (h : m.Even m') :
      (nodes.foldl (fun m node => m.free node.charge) m).Even
        (nodes.foldl (fun m node => m.free node.charge) m') := by
    induction nodes generalizing m m' with
    | nil => exact h
    | cons node rest ih => exact ih (h.free node.charge)
  exact (hnodes q.nodes h).returnHeaders _

/-- A frame that is in front gives back its place and its headers first. -/
theorem drained_push (m : Memory) {q q' : Queue} {f : Frame} {charge : Budget.Block}
    (h : q'.nodes = ⟨.last f, charge⟩ :: q.nodes) :
    m.drained q' = ((m.free charge).returnHeaders f.segments.length).drained q := by
  have hnodes (nodes : List Node) (m : Memory) (count : Nat) :
      nodes.foldl (fun m node => m.free node.charge) (m.returnHeaders count) =
        (nodes.foldl (fun m node => m.free node.charge) m).returnHeaders count := by
    induction nodes generalizing m with
    | nil => rfl
    | cons node rest ih => rw [List.foldl_cons, List.foldl_cons, free_returnHeaders, ih]
  rw [drained, drained, Queue.frames, Queue.frames, h, hnodes, returnHeaders_returnHeaders]
  rfl

/-- Nothing comes back from an empty queue. -/
theorem drained_empty {q : Queue} (h : q.frames = []) (m : Memory) : m.drained q = m := by
  have hnodes : q.nodes = [] := by
    cases hq : q.nodes with
    | nil => rfl
    | cons node rest =>
      rw [Queue.frames, hq, List.flatMap_cons, List.append_eq_nil_iff] at h
      cases hchain : node.chain with
      | last f => rw [hchain] at h; cases h.1
      | link f c => rw [hchain] at h; cases h.1
  rw [drained, h, hnodes]
  rfl

/-- A reference to a cluster is no matter of any budget. -/
theorem release_cluster {storage : Storage} (h : storage.isCluster = true) (m : Memory) :
    m.SameBudgets (m.release storage) ∧ (m.release storage).pool.limit = m.pool.limit := by
  obtain ⟨key, origin⟩ := storage
  cases origin with
  | block block => cases h
  | cluster contents =>
    unfold release
    dsimp only
    split <;> exact ⟨⟨rfl, rfl, rfl⟩, rfl⟩

/-- Segments over clusters give headers back, and no block. -/
theorem even_releaseSegments {segments : List Segment} (h : ∀ s ∈ segments, s.storage.isCluster = true)
    (m : Memory) : (m.returnHeaders segments.length).Even (m.releaseSegments segments) := by
  have hrest : m.SameBudgets (m.releaseSegments segments) ∧
      (m.releaseSegments segments).pool.limit = m.pool.limit := by
    induction segments generalizing m with
    | nil => exact ⟨⟨rfl, rfl, rfl⟩, rfl⟩
    | cons s rest ih =>
      obtain ⟨hsame, hlimit⟩ := release_cluster (h s List.mem_cons_self) m.returnHeader
      obtain ⟨hsame', hlimit'⟩ := ih (fun t ht => h t (List.mem_cons_of_mem s ht)) (m.releaseSegment s)
      exact ⟨⟨hsame'.budgets.trans hsame.budgets, hsame'.heap.trans hsame.heap, hsame'.lane.trans hsame.lane⟩,
        hlimit'.trans hlimit⟩
  exact .of_same hrest.1.heap hrest.1.lane hrest.2 (headersLive_releaseSegments m segments) hrest.1.budgets

/-- A block was granted while segments were lent, and block and segments came back. -/
theorem even_lent {segments : List Segment} {key size : Nat} {kind : Budget.Kind} {comment : Option String}
    {block : Budget.Block} (hkeyed : m.Keyed) (hclusters : ∀ s ∈ segments, s.storage.isCluster = true)
    (h : (m.lend segments).alloc key kind comment size = (.ok block, m')) :
    m.Even ((m'.releaseSegments segments).free block) := by
  have hsame := sameBudgets_lend m segments
  have hkeyed' : (m.lend segments).Keyed := fun _ _ hb => hkeyed (hsame.budgets ▸ hb)
  have hback := (even_returned h hkeyed' rfl rfl rfl).returnHeaders segments.length
  have hcame := (even_releaseSegments hclusters m').free block
  rw [free_returnHeaders] at hcame
  have hlent : m.Even ((m.lend segments).returnHeaders segments.length) := by
    refine .of_same hsame.heap hsame.lane ?_ ?_ hsame.budgets
    · show (m.lend segments).pool.limit = _
      rw [pool_lend]
    · show (m.lend segments).pool.headersLive - segments.length = _
      rw [pool_lend]
      exact Nat.add_sub_cancel _ _
  exact hlent.trans (hback.trans hcame)

end Memory

namespace Network

variable {n n' : Network} {key id cap : Nat} {plug : Plug} {bytes : List UInt8}

/-- The memory is settled with what callers are known to hold, whatever else they hold. -/
def Audited (n : Network) (held : Estate) : Prop :=
  ∃ past rest, n.Settled Memory.Tallied past (held + rest)

theorem Settled.audited {past : History} {owned : Estate} (hs : n.Settled Memory.Tallied past owned) : n.Audited 0 :=
  ⟨past, owned, (zero_add owned).symm ▸ hs⟩

/-- A host stays audited while things are traded. -/
theorem Audited.trade {a b : Estate} (h : n.Audited a) (htrade : Trades (Settled Memory.Tallied) n a n' b) :
    n'.Audited b := by
  obtain ⟨past, rest, hs⟩ := h
  obtain ⟨past', -, hs'⟩ := htrade past rest hs
  exact ⟨past', rest, hs'⟩

theorem Audited.keyed {a : Estate} (h : n.Audited a) : n.memory.Keyed := by
  obtain ⟨past, rest, hs⟩ := h
  exact fun _ _ hb => hs.plane.memory.budgets.keyed hb

/-- Each frame gives back a header for each of its segments. -/
theorem unwrapAll_memory (m : Memory) (frames : List Frame) :
    (unwrapAll m frames).2 = m.returnHeaders (total (fun f => f.segments.length) frames) := by
  induction frames generalizing m with
  | nil => rfl
  | cons f rest ih =>
    rw [total_cons, ← Memory.returnHeaders_returnHeaders, ← ih]
    rw [unwrapAll, Frame.unwrap_eq]

/-- A consumer that takes all empties the queue on the memory. -/
theorem memory_takeAll (hfound : (n.registry key).byId? id = some plug) :
    (n.takeAll key id).2.memory = n.memory.drained (n.plane.line plug).queue := by
  rw [takeAll_eq hfound, memory_requeue, unwrapAll_memory, Queue.drain_eq]
  rfl

/-- A frame came to the front of a queue; once it is taken, the memory decides as before. -/
structure Admits (n : Network) (plug : Plug) (f : Frame) (charge : Budget.Block) (n' : Network) : Prop where
  nodes : (n'.plane.line plug).queue.nodes = ⟨.last f, charge⟩ :: (n.plane.line plug).queue.nodes
  even : n.memory.Even ((n'.memory.free charge).returnHeaders f.segments.length)

theorem Admits.drained {f : Frame} {charge : Budget.Block} (h : n.Admits plug f charge n') :
    (n.memory.drained (n.plane.line plug).queue).Even (n'.memory.drained (n'.plane.line plug).queue) := by
  rw [Memory.drained_push _ h.nodes]
  exact h.even.drained _

section Push

variable {c : Chain} {p : Backplane} {f : Frame} {m m' : Memory} {budget : Nat} {charge : Budget.Block}

theorem memory_onQueue {α : Type} (f : Queue → Memory → α × Queue × Memory) :
    (p.onQueue plug f).2.memory = (f (p.line plug).queue p.memory).2.2 := rfl

/-- The consumer's own chain is put at the front. -/
theorem queueWhole_granted (hlined : plug.key < p.lines.size)
    (h : p.memory.alloc budget .plain (some Queue.nodeNote) Queue.nodeSize = (.ok charge, m')) :
    (queueWhole p plug budget c).memory = m' ∧
      ((queueWhole p plug budget c).line plug).queue.nodes = ⟨c, charge⟩ :: (p.line plug).queue.nodes := by
  rw [queueWhole, memory_onQueue, Backplane.line_onQueue _ hlined, Queue.push_letIn h]
  exact ⟨rfl, rfl⟩

/-- Of a frame for everybody a copy is. -/
theorem queueCopy_granted (hlined : plug.key < p.lines.size) (hcopy : f.copy p.memory = (some f, m))
    (h : m.alloc budget .plain (some Queue.nodeNote) Queue.nodeSize = (.ok charge, m')) :
    (queueCopy p plug budget f).memory = m' ∧
      ((queueCopy p plug budget f).line plug).queue.nodes = ⟨.last f, charge⟩ :: (p.line plug).queue.nodes := by
  rw [queueCopy]
  dsimp only
  rw [memory_onQueue, Backplane.line_onQueue _ hlined, hcopy]
  dsimp only
  rw [Queue.push_letIn h]
  exact ⟨rfl, rfl⟩

end Push

/-- A frame for the consumer, from the wire, where nothing is refused. -/
theorem Wired.admits_inject (h : n.Wired key plug) (hkeyed : n.memory.Keyed) (hfor : IsFor plug.virtualMac bytes)
    (hroom : Inbox.HasRoom n.memory (n.budgetOf key) plug.virtualMac bytes cap) :
    ∃ f charge, n.Admits plug f charge (n.inject plug.index bytes cap) := by
  let f : Frame := ⟨overClusters n.memory.references.size (pieces cap bytes), some plug.index⟩
  let m₁ := n.memory.lendClusters (pieces cap bytes).length
  have hbytes : f.bytes = bytes := by
    rw [Frame.bytes, List.flatMap_def, Frame.bytes_overClusters, flatten_pieces]
  have hdestination : f.destination? = Mac.destination? bytes := by rw [Frame.destination?_eq, hbytes]
  have hlength : f.segments.length = (pieces cap bytes).length := Frame.length_overClusters _ _
  have hwired : (n.setMemory m₁).Wired key plug := h.of_same rfl rfl rfl
  have hlined := hwired.lined
  have hmade : Frame.ofBytes n.memory bytes cap (some plug.index) = (some f, m₁) :=
    Frame.ofBytes_lent hroom.headers.free
  have hinject : n.inject plug.index bytes cap = (n.setMemory m₁).receive plug.index (.last f) := by
    unfold inject
    rw [onMemory_eq hmade]
  have hsame : n.memory.SameBudgets m₁ := ⟨rfl, rfl, rfl⟩
  have hkeyed₁ : m₁.Keyed := hkeyed
  -- what a frame is lent and gives back leaves the memory even; what is to be paid is the place in the queue
  have hlent : n.memory.Even (m₁.returnHeaders f.segments.length) :=
    .of_same rfl rfl rfl (by rw [hlength]; exact Nat.add_sub_cancel _ _) rfl
  rw [hinject]
  rcases hwired.toPlugged.intercept_cases (.last f) with ⟨hall, heq⟩ | ⟨-, -, heq⟩ | ⟨hown, hall, -⟩
  · -- for everybody: a copy is queued, and the frame itself goes on and is given back
    rw [receive_of_passed hwired.slot hwired.only heq]
    have hlabel : bytes.take 6 = Mac.broadcast.octets :=
      Inbox.destination?_eq_some_iff.1 (hdestination.symm.trans hall)
    have hheaders : m₁.HasHeaders f.segments.length := by
      intro limit hlimit
      have hfree := hroom.copy hlabel limit hlimit
      show n.memory.pool.headersLive + (pieces cap bytes).length + f.segments.length ≤ limit
      omega
    have hgrants := (hsame.trans (m₁.sameBudgets_lend f.segments)).grants (hroom.place hfor)
    obtain ⟨charge, m₂, halloc, -⟩ := hgrants.alloc
    obtain ⟨hmemory, hnodes⟩ := queueCopy_granted hlined (Frame.copy_lent hheaders.free) halloc
    refine ⟨f, charge, hnodes, ?_⟩
    show n.memory.Even ((((queueCopy (n.setMemory m₁).plane plug (n.budgetOf key) f).memory.releaseChain
      (.last f)).free charge).returnHeaders _)
    rw [hmemory, Memory.releaseChain_eq, Chain.frames, List.flatMap_singleton]
    exact hlent.trans ((Memory.even_lent hkeyed₁ (Frame.isCluster_overClusters _ _) halloc).returnHeaders _)
  · -- for the consumer alone: the frame itself is queued
    obtain ⟨charge, m₂, halloc, -⟩ := (hsame.grants (hroom.place hfor)).alloc
    obtain ⟨hmemory, hnodes⟩ := queueWhole_granted (c := .last f) hlined halloc
    rw [receive_of_stopped hwired.slot hwired.only heq]
    refine ⟨f, charge, hnodes, ?_⟩
    show n.memory.Even (((queueWhole (n.setMemory m₁).plane plug (n.budgetOf key) (.last f)).memory.free
      charge).returnHeaders _)
    rw [hmemory]
    exact hlent.trans ((Memory.even_returned halloc hkeyed₁ rfl rfl rfl).returnHeaders _)
  · -- it is for one or the other
    rcases Inbox.isFor_iff.1 hfor with hfor | hfor
    · exact absurd (hdestination.trans hfor) hown
    · exact absurd (hdestination.trans hfor) hall

end Network

namespace Inbox

open Patchbay.Frame (largestSegment)

/-- Frames that arrive hand nothing out. -/
theorem trades_run_arrive {k : Memory.Bookkeeping} [Memory.Tally k] (key : Nat) (plug : Plug) (n : Network)
    (batch : List (List UInt8)) (cap : Nat) :
    Trades (Network.Settled k) n 0 (run key plug n (batch.map fun frame => .arrive frame cap)).2 0 := by
  induction batch generalizing n with
  | nil => exact .refl n 0
  | cons frame rest ih => exact (n.trades_inject plug.index frame cap).trans (ih _)

variable {n : Network} {key : Nat} {plug : Plug} {stack : List (List UInt8)}

/-- A batch for the consumer comes: once all that waits is taken, the memory decides as if only the older frames had
been taken. -/
theorem Received.even_arriveEach (h : Received key plug n stack) (haudited : n.Audited 0)
    {batch : List (List UInt8)} (hfor : ∀ frame ∈ batch, IsFor plug.virtualMac frame)
    (hroom : ObligesAll key plug n (batch.map fun frame => .arrive frame largestSegment)) :
    (run key plug n (batch.map fun frame => .arrive frame largestSegment)).2.splices = n.splices ∧
      (n.takeAll key plug.id).2.memory.Even
        ((run key plug n (batch.map fun frame => .arrive frame largestSegment)).2.takeAll key plug.id).2.memory := by
  induction batch generalizing n stack with
  | nil => exact ⟨rfl, .refl _⟩
  | cons frame rest ih =>
    obtain ⟨hfirst, hrest⟩ := hroom
    have hcame := h.arrive hfirst
    obtain ⟨f, charge, hadmits⟩ := h.wired.admits_inject haudited.keyed (hfor frame List.mem_cons_self) hfirst
    obtain ⟨hsplices, hmore⟩ := ih hcame (haudited.trade (n.trades_inject plug.index frame largestSegment))
      (fun other hother => hfor other (List.mem_cons_of_mem frame hother)) hrest
    have htaken := hadmits.drained
    rw [← Network.memory_takeAll h.wired.named, ← Network.memory_takeAll hcame.wired.named] at htaken
    exact ⟨hsplices.trans (h.wired.splices_inject frame largestSegment), htaken.trans hmore⟩

/-- Where nothing waits, nothing comes back. -/
theorem Received.memory_takeAll (h : Received key plug n []) : (n.takeAll key plug.id).2.memory = n.memory := by
  rw [Network.memory_takeAll h.wired.named]
  exact Memory.drained_empty (List.map_eq_nil_iff.1 h.shown) n.memory

end Inbox

end Patchbay
