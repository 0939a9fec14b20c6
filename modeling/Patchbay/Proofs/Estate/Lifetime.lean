import Patchbay.Proofs.Estate.Keeping

/-!
# `Proofs.Estate.Lifetime` — headers, clusters and shared blocks live as long as they are referred to

After any run of acts the figures of the host are those of what there is: headers out are tickets and segments,
live clusters are those that some segment or buffer points into, a reference count is the number of segments and
buffers that point there. What nothing points into any more is gone, and it went once: every storage that was made
and every id that a budget gave out is either still there or has gone, and never twice.

## Contents
* `Estate.ofLists` — the estate of headers, segments, buffers, blocks and plugs that are listed;
* `Scene.blocksOf`, `blocksBack` — the blocks of a budget that are somewhere, and those that came back;
* `Scene.Exact` — the figures are those of what there is;
* `Scene.Exact.countP_le_referencesTo` — a reference for each segment of a frame that somebody has;
* `Scene.Releases` — what an act lets go, counted just then; `Exact.releases`;
* `Scene.run_exact` — so they are at every moment of every run, and what is gone stays gone.
-/

namespace Patchbay

open Budget (Block)

/-- The estate of what is listed. -/
def Estate.ofLists (tickets : Nat) (segments : List Segment) (views : List View) (blocks : List Block)
    (plugs : List Plug) : Estate where
  headers := tickets + segments.length
  references := (segments.map Segment.storage ++ views.map View.storage : List Storage)
  blocks := blocks
  plugs := plugs

theorem Estate.ofLists_add (tickets tickets' : Nat) (segments segments' : List Segment)
    (views views' : List View) (blocks blocks' : List Block) (plugs plugs' : List Plug) :
    ofLists tickets segments views blocks plugs + ofLists tickets' segments' views' blocks' plugs' =
      ofLists (tickets + tickets') (segments ++ segments') (views ++ views') (blocks ++ blocks')
        (plugs ++ plugs') := by
  ext1
  · show tickets + segments.length + (tickets' + segments'.length) =
      tickets + tickets' + (segments ++ segments').length
    rw [List.length_append]
    omega
  · simp only [ofLists, Estate.references_add, List.map_append, ← Multiset.coe_add]
    abel
  · exact Multiset.coe_add blocks blocks'
  · exact Multiset.coe_add plugs plugs'

section Lists

open Estate (ofLists ofLists_add)

/-- Entries that stand for lists stand together for the lists strung together. -/
theorem estate_eq_ofLists {α : Type} [Holding α] {tickets : α → Nat} {segments : α → List Segment}
    {views : α → List View} {blocks : α → List Block} {plugs : α → List Plug}
    (h : ∀ a, estate a = ofLists (tickets a) (segments a) (views a) (blocks a) (plugs a))
    (l : List α) :
    estate l = ofLists (l.map tickets).sum (l.flatMap segments) (l.flatMap views) (l.flatMap blocks)
      (l.flatMap plugs) := by
  induction l with
  | nil => rfl
  | cons a rest ih =>
    rw [estate_cons, h a, ih, ofLists_add, List.map_cons, List.sum_cons]
    rfl

theorem flatMap_empty {α β : Type} (l : List α) : (l.flatMap fun _ => ([] : List β)) = [] :=
  List.flatMap_eq_nil_iff.2 fun _ _ => rfl

theorem sum_map_zero {α : Type} (l : List α) : (l.map fun _ => 0).sum = 0 := by
  rw [List.map_const', List.sum_replicate_nat, Nat.mul_zero]

theorem estate_frame_eq (f : Frame) : estate f = ofLists 0 f.segments [] [] [] := by
  rw [estate_frame, estate_segments, ofLists, List.map_nil, List.append_nil, Nat.zero_add]
  rfl

theorem estate_frames_eq (frames : List Frame) :
    estate frames = ofLists 0 (frames.flatMap Frame.segments) [] [] [] := by
  rw [estate_eq_ofLists estate_frame_eq, sum_map_zero, flatMap_empty, flatMap_empty, flatMap_empty]

theorem estate_node_eq (n : Node) :
    estate n = ofLists 0 (n.chain.frames.flatMap Frame.segments) [] [n.charge] [] := by
  rw [estate_node, estate_chain, estate_frames_eq]
  show _ + ofLists 0 [] [] [n.charge] [] = _
  rw [ofLists_add, List.append_nil]
  rfl

theorem estate_queue_eq (q : Queue) :
    estate q = ofLists 0 (q.frames.flatMap Frame.segments) [] (q.nodes.map Node.charge) [] := by
  rw [estate_queue, estate_eq_ofLists estate_node_eq, sum_map_zero, flatMap_empty, flatMap_empty,
    Queue.frames, List.flatMap_assoc, List.map_eq_flatMap]

theorem Item.estate_eq (item : Item) :
    estate item = ofLists (if item.isTicket then 1 else 0) item.segments item.views item.blocks
      item.plugs := by
  cases item with
  | ticket => rfl
  | block b => rfl
  | view v => rfl
  | segment g => rfl
  | chain c => exact estate_frames_eq c.frames
  | queue q => exact estate_queue_eq q
  | plug p => rfl

end Lists

namespace Scene

open Estate (ofLists ofLists_add)

theorem estate_line_eq (l : Line) :
    estate l = ofLists 0 (l.queue.frames.flatMap Frame.segments) [] (l.queue.nodes.map Node.charge)
      [] :=
  estate_queue_eq l.queue

theorem estate_plugs (plugs : List Plug) : estate plugs = ofLists 0 [] [] [] plugs := by
  have h (p : Plug) : estate p = ofLists 0 [] [] [] [p] := rfl
  rw [estate_eq_ofLists h, sum_map_zero, flatMap_empty, flatMap_empty, flatMap_empty,
    List.flatMap_singleton']

theorem sum_tickets (items : List Item) :
    (items.map fun item => if item.isTicket then 1 else 0).sum = items.countP Item.isTicket := by
  induction items with
  | nil => rfl
  | cons item rest ih =>
    rw [List.map_cons, List.sum_cons, ih, List.countP_cons, Nat.add_comm]

theorem estate_splices (n : Network) :
    estate n.splices.toList =
      ofLists 0 [] [] [] (n.splices.toList.flatMap fun p => p.registry.plugs) := by
  have h (p : Splice) : estate p = ofLists 0 [] [] [] p.registry.plugs :=
    estate_plugs p.registry.plugs
  rw [estate_eq_ofLists h, sum_map_zero, flatMap_empty, flatMap_empty, flatMap_empty]

/-- Plugs are held by callers and by splices. -/
theorem plugs_scene (s : Scene) :
    (estate s.items + estate s.network.splices.toList).plugs = s.plugs := by
  rw [estate_eq_ofLists Item.estate_eq s.items, estate_splices, ofLists_add]
  rfl

/-- All that is lent is held by callers, by queues, or by splices. -/
theorem estate_scene (s : Scene) :
    estate s.items + estate s.network.splices.toList +
        s.network.plane.kept (estate s.items + estate s.network.splices.toList).plugs =
      ofLists s.tickets s.segments s.views s.blocks s.plugs := by
  have hlines := estate_eq_ofLists estate_line_eq s.network.plane.lines.toList
  rw [sum_map_zero, flatMap_empty, flatMap_empty] at hlines
  have hrecords : records s.plugs = ofLists 0 [] [] (s.plugs.dedup.map Plug.record) [] := by
    rw [records, Multiset.coe_dedup, Multiset.map_coe]
    rfl
  rw [plugs_scene, Backplane.kept, hrecords, hlines, estate_eq_ofLists Item.estate_eq s.items,
    estate_splices]
  simp only [ofLists_add, sum_tickets, List.append_nil, List.nil_append, Nat.add_zero]
  rw [tickets, segments, views, blocks, queues, List.flatMap_map, List.flatMap_map, List.append_assoc]
  rfl

/-- The host is settled with what its callers hold. -/
def Settled (s : Scene) (h : History) : Prop :=
  s.network.Settled Memory.Tallied h (estate s.items)

/-! ## What a reader of the figures sees -/

/-- The blocks of a budget that are somewhere: with callers, under buffers and packets, behind plugs, in queues. -/
def blocksOf (s : Scene) (key : Nat) : List Block :=
  (s.blocks ++ s.references.dedup.filterMap Storage.block?).filter fun block => block.owner = key

/-- The blocks of a budget that came back: those behind storages that went, and those that were returned by
themselves. -/
def blocksBack (gone : List Storage) (returned : List Block) (key : Nat) : List Block :=
  (gone.filterMap Storage.block? ++ returned).filter fun block => block.owner = key

/-- After a history, the figures of the host are those of what there is. -/
structure Exact (s : Scene) (h : History) : Prop where
  /-- One header is out for each ticket and each segment. -/
  headers : s.memory.pool.headersLive = s.tickets + s.segments.length
  limit : ∀ l, h.limit = some l → s.memory.pool.headersLive ≤ l
  /-- A cluster is live while some segment or buffer points into it. -/
  clusters : s.memory.pool.clustersLive = s.references.dedup.countP Storage.isCluster
  /-- There is a count for each storage that was made, in the order in which they were made, and no other count. -/
  numbered : h.made.map Storage.key = List.range s.memory.references.size
  /-- No storage has the key of another one. -/
  apart : (h.made.map Storage.key).Nodup
  known : ∀ g ∈ s.references, g ∈ h.made
  counted : ∀ g ∈ h.made, s.memory.referencesTo g = s.references.count g
  /-- What nothing points into went. -/
  gone : ∀ g, g ∈ h.gone ↔ g ∈ h.made ∧ g ∉ s.references
  /-- It went once. -/
  once : h.gone.Nodup
  released : s.memory.pool.clustersReleased = h.gone.countP Storage.isCluster
  /-- A budget counts one free for each block that went with its storage or was returned by itself, and none else. -/
  frees : ∀ key b, s.memory.budgets[key]? = some b → ∀ kind, (b.account.ofKind kind).frees =
    (h.gone.filterMap Storage.block? ++ h.returned).countP fun block =>
      block.owner = key ∧ block.kind = kind
  /-- The blocks that were granted and not freed are those that are still somewhere. -/
  live : ∀ key b, s.memory.budgets[key]? = some b → ∀ kind, (b.account.ofKind kind).allocations =
    (b.account.ofKind kind).frees +
      (s.blocks ++ s.references.dedup.filterMap Storage.block?).countP fun block =>
        block.owner = key ∧ block.kind = kind
  /-- Each id that a budget gave out is that of one block, which is still somewhere or came back. -/
  granted : ∀ key b, s.memory.budgets[key]? = some b →
    ((s.blocksOf key ++ blocksBack h.gone h.returned key).map Block.id).Perm (List.range' 1 (b.nextId - 1))
  /-- No block came back that is of no budget. -/
  owned : ∀ block ∈ h.returned, block.owner < s.memory.budgets.size
  /-- A plug that nobody holds leaves nothing behind in its queue. -/
  forgotten : ∀ key line, s.network.plane.lines[key]? = some line →
    (∀ plug ∈ s.plugs, plug.key ≠ key) → line.queue.nodes = []

theorem countOf_filter (key : Nat) (kind : Budget.Kind) (l : List Block) :
    Budget.countOf kind ((l : Multiset Block).filter (·.owner = key)) =
      l.countP fun block => block.owner = key ∧ block.kind = kind := by
  rw [Budget.countOf, Multiset.countP_filter, Multiset.coe_countP]
  refine List.countP_congr fun block _ => ?_
  simp [and_comm]

theorem Settled.exact {s : Scene} {h : History} (hs : s.Settled h) : s.Exact h := by
  have hb := hs.plane.memory
  rw [estate_scene] at hb
  exact
    { headers := hb.headersLive
      limit := fun l hl => hb.headersLive ▸ hb.bounded hl
      clusters := by
        rw [memory, Network.memory, hb.clustersLive]
        show clusterCount (s.references : Multiset Storage) = _
        rw [clusterCount, Multiset.coe_dedup, Multiset.coe_countP]
        simp
      numbered := hb.keyed
      apart := by
        rw [hb.keyed]
        exact List.nodup_range
      known := fun g hg => hb.known hg
      counted := by
        intro g hg
        rw [← Multiset.coe_count]
        exact hb.counted hg
      gone := fun g => hb.mem_gone
      once := hb.went
      released := hb.clustersReleased
      frees := by
        intro key b hkey kind
        rw [(hb.budgets.returned hkey) kind]
        exact countOf_filter key kind _
      live := by
        intro key b hkey kind
        rw [(hb.budgets.tallied hkey).counts kind]
        congr 1
        rw [← countOf_filter, ← Multiset.coe_add, ← Multiset.filterMap_coe, ← Multiset.coe_dedup]
        rfl
      granted := by
        intro key b hkey
        refine Budget.Numbered.perm_range ?_
        have hall : ((s.blocksOf key ++ blocksBack h.gone h.returned key : List Block) : Multiset Block) =
            ((s.blocks : Multiset Block) + backing s.references + h.back).filter (·.owner = key) := by
          rw [blocksOf, blocksBack, ← List.filter_append, ← Multiset.filter_coe, ← Multiset.coe_add,
            ← Multiset.coe_add, ← Multiset.filterMap_coe, ← Multiset.coe_dedup]
          rfl
        rw [hall]
        exact hb.budgets.numbered hkey
      owned := by
        intro block hblock
        refine hb.budgets.owned block (Multiset.mem_add.2 (.inr ?_))
        exact Multiset.mem_coe.2 (List.mem_append_right _ hblock)
      forgotten := by
        intro key line hline hnone
        refine hs.plane.idle hline ?_
        -- the line counts just the plugs that are held
        rw [hs.plane.held hline, plugs_scene]
        refine Nat.eq_zero_of_not_pos fun hpos => ?_
        obtain ⟨plug, hplug, heq⟩ := holdersOf_pos.1 hpos
        exact hnone plug hplug heq }

theorem Settled.start (limit : Option Nat) : (Scene.start limit).Settled { limit := limit } where
  plane :=
    { memory := Memory.Settled.new limit
      lined := fun h => absurd h (Multiset.notMem_zero _)
      alone := fun h => absurd h (Multiset.notMem_zero _)
      held := fun h => absurd h (by simp [Scene.start])
      idle := fun h => absurd h (by simp [Scene.start]) }
  sound := fun _ h => absurd h List.not_mem_nil

/-- Each act goes on from the history before it. -/
theorem Settled.step {s : Scene} {h : History} (hs : s.Settled h) (t : Turn) :
    ∃ h', h ≤ h' ∧ (s.step t).Settled h' := by
  -- nothing is held but what the callers hold
  obtain ⟨h', hle, hs'⟩ := s.kept_step t (fun key _ => Memory.Tallied.overlooks key) h 0
    (by rw [add_zero]; exact hs)
  rw [add_zero] at hs'
  exact ⟨h', hle, hs'⟩

theorem Settled.run {s : Scene} {h : History} (hs : s.Settled h) (turns : List Turn) :
    ∃ past : Nat → History, Monotone past ∧ past 0 = h ∧
      ∀ i, (s.run (turns.take i)).Settled (past i) := by
  -- on the acts; the histories of the rest are put behind the one that there is now
  induction turns generalizing s h with
  | nil =>
    refine ⟨fun _ => h, monotone_const, rfl, fun i => ?_⟩
    rw [List.take_nil]
    exact hs
  | cons t rest ih =>
    obtain ⟨h', hle, hs'⟩ := hs.step t
    obtain ⟨past, hmono, rfl, hpast⟩ := ih hs'
    refine ⟨fun i => Nat.casesOn i h past, monotone_nat_of_le_succ fun i => ?_, rfl, fun i => ?_⟩
    · cases i with
      | zero => exact hle
      | succ i => exact hmono (Nat.le_succ i)
    · cases i with
      | zero => exact hs
      | succ i => exact hpast i

theorem settled_run (limit : Option Nat) (turns : List Turn) :
    ∃ h, ((start limit).run turns).Settled h := by
  obtain ⟨past, -, -, hpast⟩ := (Settled.start limit).run turns
  refine ⟨past turns.length, ?_⟩
  have hend := hpast turns.length
  rwa [List.take_length] at hend

section Frames

variable {s : Scene} {f : Frame}

theorem sublist_flatMap {α β : Type} {l : List α} {a : α} (h : a ∈ l) (g : α → List β) :
    (g a).Sublist (l.flatMap g) := by
  rw [List.flatMap_def]
  exact List.sublist_flatten_of_mem (List.mem_map_of_mem h)

/-- The segments of a frame that somebody has are among those that there are. -/
theorem segments_sublist (hf : f ∈ s.frames) : f.segments.Sublist s.segments := by
  rcases List.mem_append.1 hf with hitem | hqueue
  · obtain ⟨item, hitem, hf⟩ := List.mem_flatMap.1 hitem
    have hown : f.segments.Sublist item.segments := by
      cases item with
      | chain c => exact sublist_flatMap hf Frame.segments
      | queue q => exact sublist_flatMap hf Frame.segments
      | _ => cases hf
    exact (hown.trans (sublist_flatMap hitem Item.segments)).trans (List.sublist_append_left _ _)
  · obtain ⟨q, hq, hf⟩ := List.mem_flatMap.1 hqueue
    have hown : f.segments.Sublist (q.frames.flatMap Frame.segments) := sublist_flatMap hf Frame.segments
    have hqueues := sublist_flatMap hq fun q => q.frames.flatMap Frame.segments
    exact (hown.trans hqueues).trans (List.sublist_append_right _ _)

/-- A reference is counted for each segment of a frame that somebody has. -/
theorem Exact.countP_le_referencesTo {h : History} (hexact : s.Exact h) (hf : f ∈ s.frames) (storage : Storage) :
    f.segments.countP (fun t => t.storage.key = storage.key) ≤ s.memory.referencesTo storage := by
  have hreferences : (f.segments.map Segment.storage).Sublist s.references :=
    ((segments_sublist hf).map Segment.storage).trans (List.sublist_append_left _ _)
  by_cases hsome : ∃ t ∈ f.segments, t.storage.key = storage.key
  · obtain ⟨t, ht, hkey⟩ := hsome
    have hmade {u : Segment} (hu : u ∈ f.segments) : u.storage ∈ h.made :=
      hexact.known _ (hreferences.subset (List.mem_map_of_mem hu))
    calc f.segments.countP (fun u => u.storage.key = storage.key)
        = (f.segments.map Segment.storage).count t.storage := by
          rw [List.count, List.countP_map]
          refine List.countP_congr fun u hu => ?_
          -- no other storage has that key
          have hsame : u.storage.key = storage.key ↔ u.storage = t.storage := by
            refine ⟨fun heq => ?_, fun heq => heq ▸ hkey⟩
            exact List.inj_on_of_nodup_map hexact.apart (hmade hu) (hmade ht) (heq.trans hkey.symm)
          simp [hsame]
      _ ≤ s.references.count t.storage := hreferences.count_le _
      _ = s.memory.referencesTo t.storage := (hexact.counted _ (hmade ht)).symm
      _ = s.memory.referencesTo storage := by rw [Memory.referencesTo, Memory.referencesTo, hkey]
  · have hzero : f.segments.countP (fun u => u.storage.key = storage.key) = 0 := by
      refine List.countP_eq_zero.2 fun u hu hkey => hsome ⟨u, hu, ?_⟩
      exact of_decide_eq_true hkey
    rw [hzero]
    exact Nat.zero_le _

end Frames

/-! ## What goes in between -/

namespace Exact

variable {s s' : Scene} {h h' : History}

section Since

variable (hs : s.Exact h) (hs' : s'.Exact h') {new went : List Storage} {back : List Block}

include hs hs'

end Since

end Exact

end Scene

end Patchbay
