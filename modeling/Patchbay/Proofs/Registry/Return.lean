import Mathlib.Data.Multiset.Bind
import Patchbay.Proofs.Registry.Release

/-!
# `Proofs.Registry.Return` — what comes back with plugs

When nobody holds a plug any more, its block comes back, and so does all that waited in its queue: the block that pays
for each place, the headers of the segments, and the storages that nothing else points into. None of it has been read.
That the figures of a host are those of what there is says how they move: by just that.

## Contents
* `Scene.nodesBehind`, `Scene.segmentsBehind`, `Scene.storagesBehind`, `Scene.blocksBehind` — what depends on plugs;
* `Scene.Yields` — the figures of a host, before and after such plugs have gone;
* `Scene.Loses` — nobody holds the plugs any more; `Loses.nodes_perm`, `Loses.storages_perm`, `Loses.blocks_perm` —
  what there was is that and what there is;
* `Loses.yields` — so the figures move by that.
-/

namespace Patchbay

open Budget (Block)

/-! ## Entries that are emptied -/

/-- A figure summed over a list of which some entries count for nothing later. -/
theorem sum_map_emptied {α M : Type} [AddCommMonoid M] {f : α → M} {l m : List α} {places : List Nat}
    (hnodup : places.Nodup)
    (h : ∀ i, m[i]?.map f = if i ∈ places then l[i]?.map fun _ => 0 else l[i]?.map f) :
    (l.map f).sum = (places.map fun i => (l[i]?.map f).getD 0).sum + (m.map f).sum := by
  -- on the places: one entry after the other is put back
  induction places generalizing m with
  | nil =>
    have hsame : m.map f = l.map f := List.ext_getElem? fun i => by
      rw [List.getElem?_map, List.getElem?_map, h i, if_neg List.not_mem_nil]
    rw [hsame, List.map_nil, List.sum_nil, zero_add]
  | cons place rest ih =>
    rw [List.nodup_cons] at hnodup
    rw [List.map_cons, List.sum_cons]
    have hplace := h place
    rw [if_pos List.mem_cons_self] at hplace
    cases ha : l[place]? with
    | none =>
      rw [Option.map_none, Option.getD_none, zero_add]
      refine ih hnodup.2 fun i => (h i).trans ?_
      by_cases heq : i = place
      · rw [heq, ha, Option.map_none, Option.map_none, ite_self, ite_self]
      · simp only [List.mem_cons, heq, false_or]
    | some a =>
      rw [ha, Option.map_some] at hplace
      obtain ⟨a', ha', hzero⟩ := Option.map_eq_some_iff.1 hplace
      have hlt : place < m.length := (List.getElem?_eq_some_iff.1 ha').1
      rw [ih (m := m.set place a) hnodup.2 fun i => ?_, sum_map_set f ha' a, sum_map_eq_add_eraseIdx f ha', hzero,
        zero_add, Option.map_some, Option.getD_some]
      · abel
      · by_cases heq : i = place
        · rw [heq, List.getElem?_set_self hlt, if_neg hnodup.1, ha]
        · rw [List.getElem?_set_ne (Ne.symm heq), h i]
          simp only [List.mem_cons, heq, false_or]

/-- A list without duplicates falls apart into two that have nothing in common. -/
theorem perm_append_of_nodup {α : Type} {l front rest : List α} (hl : l.Nodup) (hfront : front.Nodup)
    (hrest : rest.Nodup) (hapart : ∀ a ∈ front, a ∉ rest) (hmem : ∀ a, a ∈ l ↔ a ∈ front ∨ a ∈ rest) :
    l.Perm (front ++ rest) := by
  have hnodup : (front ++ rest).Nodup :=
    List.nodup_append.2 ⟨hfront, hrest, fun a ha b hb heq => hapart a ha (heq ▸ hb)⟩
  refine (List.perm_ext_iff_of_nodup hl hnodup).2 fun a => ?_
  rw [List.mem_append]
  exact hmem a

/-- What a list has lost is a part that is known, and what else is missing. -/
theorem perm_dedup_append {α : Type} [DecidableEq α] {l own rest : List α} (hnodup : own.Nodup) (hown : own ⊆ l)
    (hrest : rest ⊆ l) (hapart : ∀ a ∈ own, a ∉ rest) :
    l.dedup.Perm ((own ++ l.dedup.filter fun a => a ∉ own ∧ a ∉ rest) ++ rest.dedup) := by
  let missing := l.dedup.filter fun a => a ∉ own ∧ a ∉ rest
  have hmissing {a : α} : a ∈ missing ↔ a ∈ l ∧ a ∉ own ∧ a ∉ rest := by
    rw [List.mem_filter, List.mem_dedup, decide_eq_true_iff]
  have hfront : (own ++ missing).Nodup :=
    List.nodup_append.2 ⟨hnodup, (List.nodup_dedup _).filter _, fun a ha b hb heq => (hmissing.1 hb).2.1 (heq ▸ ha)⟩
  refine perm_append_of_nodup (List.nodup_dedup _) hfront (List.nodup_dedup _) (fun a ha hkept => ?_) fun a => ?_
  · rw [List.mem_dedup] at hkept
    rcases List.mem_append.1 ha with ha | ha
    · exact hapart a ha hkept
    · exact (hmissing.1 ha).2.2 hkept
  · rw [List.mem_append, List.mem_dedup, List.mem_dedup, hmissing]
    constructor
    · intro ha
      by_cases hmine : a ∈ own
      · exact .inl (.inl hmine)
      · by_cases hkept : a ∈ rest
        · exact .inr hkept
        · exact .inl (.inr ⟨ha, hmine, hkept⟩)
    · rintro ((ha | ha) | ha)
      · exact hown ha
      · exact ha.1
      · exact hrest ha

namespace Scene

variable {s s' : Scene} {h h' : History} {plugs : List Plug}

/-! ## What depends on plugs -/

/-- What waits on the lines of plugs. -/
def nodesBehind (s : Scene) (plugs : List Plug) : List Node :=
  plugs.flatMap fun plug => (s.network.plane.line plug).queue.nodes

/-- The segments in what waits there. -/
def segmentsBehind (s : Scene) (plugs : List Plug) : List Segment :=
  (s.nodesBehind plugs).flatMap fun node => node.chain.frames.flatMap Frame.segments

/-- The storages that nothing but these segments points into. -/
def storagesBehind (s : Scene) (plugs : List Plug) : List Storage :=
  let pointed := (s.segmentsBehind plugs).map Segment.storage
  pointed.dedup.filter fun g => s.memory.referencesTo g = pointed.count g

/-- The blocks of the plugs, those of the places in their queues, and those behind these storages. -/
def blocksBehind (s : Scene) (plugs : List Plug) : List Block :=
  plugs.map Plug.record ++ (s.nodesBehind plugs).map Node.charge ++ (s.storagesBehind plugs).filterMap Storage.block?

/-- A host before and after nobody holds these plugs any more: what depends on them has come back, and nothing else. -/
structure Yields (s s' : Scene) (plugs : List Plug) : Prop where
  /-- Callers hold what they held. -/
  items : s'.items = s.items
  /-- These are the plugs that are gone. -/
  gone : s.plugs.dedup.Perm (plugs ++ s'.plugs.dedup)
  /-- Their queues are empty, with the same counters; the others are as before. -/
  queues : ∀ (key : Nat) (line : Line), s.network.plane.lines[key]? = some line → ∃ holders,
    s'.network.plane.lines[key]? = some { line with
      queue := if key ∈ plugs.map Plug.key then line.queue.voided else line.queue
      holders := holders }
  headers : s.memory.pool.headersLive = s'.memory.pool.headersLive + (s.segmentsBehind plugs).length
  references : ∀ g ∈ s.references, s.memory.referencesTo g =
    s'.memory.referencesTo g + ((s.segmentsBehind plugs).map Segment.storage).count g
  clusters : s.memory.pool.clustersLive =
    s'.memory.pool.clustersLive + (s.storagesBehind plugs).countP Storage.isCluster
  /-- Each budget has granted nothing; it has got back its share of the blocks, once each. -/
  budgets : ∀ key b, s.memory.budgets[key]? = some b → ∃ b', s'.memory.budgets[key]? = some b' ∧ ∀ kind,
    let share := (s.blocksBehind plugs).filter fun block => block.owner = key ∧ block.kind = kind
    (b'.account.ofKind kind).allocations = (b.account.ofKind kind).allocations ∧
    (b'.account.ofKind kind).frees = (b.account.ofKind kind).frees + share.length ∧
    (b.account.ofKind kind).bytes = (b'.account.ofKind kind).bytes + Int64.ofNat (total Block.size share)

/-! ## What there is falls apart -/

/-- What waits on all lines. -/
def nodes (s : Scene) : List Node := s.network.plane.lines.toList.flatMap fun line => line.queue.nodes

theorem segments_eq (s : Scene) :
    s.segments =
      s.items.flatMap Item.segments ++ s.nodes.flatMap fun node => node.chain.frames.flatMap Frame.segments := by
  rw [segments, queues, nodes, List.flatMap_map, List.flatMap_assoc]
  simp only [Queue.frames, List.flatMap_assoc]

theorem blocks_eq (s : Scene) :
    s.blocks = s.items.flatMap Item.blocks ++ s.plugs.dedup.map Plug.record ++ s.nodes.map Node.charge := by
  rw [blocks, queues, nodes, List.flatMap_map, List.map_flatMap]

/-- Plugs that are held are in the hands of callers or in registries. -/
theorem mem_plugs_iff (s : Scene) (plug : Plug) :
    plug ∈ s.plugs ↔ Item.plug plug ∈ s.items ∨ ∃ key, plug ∈ (s.network.registry key).plugs := by
  rw [plugs, List.mem_append, List.mem_flatMap, List.mem_flatMap]
  refine or_congr ⟨?_, fun hitem => ⟨_, hitem, List.mem_singleton_self plug⟩⟩ ⟨?_, ?_⟩
  · rintro ⟨item, hitem, hplug⟩
    cases item with
    | plug p =>
      rw [List.mem_singleton.1 hplug]
      exact hitem
    | _ => exact absurd hplug List.not_mem_nil
  · rintro ⟨splice, hsplice, hplug⟩
    obtain ⟨key, hkey⟩ := List.getElem?_of_mem hsplice
    rw [Array.getElem?_toList] at hkey
    exact ⟨key, by rw [Network.registry_eq hkey]; exact hplug⟩
  · rintro ⟨key, hplug⟩
    cases hget : s.network.splices[key]? with
    | none =>
      rw [Network.registry, hget] at hplug
      exact absurd hplug List.not_mem_nil
    | some splice =>
      rw [Network.registry_eq hget] at hplug
      exact ⟨splice, List.mem_of_getElem? (Array.getElem?_toList.trans hget), hplug⟩

theorem Settled.alone_plug (hs : s.Settled h) {plug other : Plug} (hplug : plug ∈ s.plugs) (hother : other ∈ s.plugs)
    (heq : plug.key = other.key) : plug = other := by
  refine hs.plane.alone ?_ ?_ heq
  · rw [plugs_scene]
    exact hplug
  · rw [plugs_scene]
    exact hother

/-- Nobody holds these plugs any more, and their lines have been let go. -/
structure Loses (s s' : Scene) (plugs : List Plug) : Prop where
  settled : ∃ h h', h ≤ h' ∧ s.Settled h ∧ s'.Settled h'
  items : s'.items = s.items
  gone : s.plugs.dedup.Perm (plugs ++ s'.plugs.dedup)
  sheds : s.network.plane.Sheds (fun key => ∀ plug ∈ s'.plugs, plug.key ≠ key) s'.network.plane

namespace Loses

theorem mem_iff (hl : s.Loses s' plugs) {plug : Plug} : plug ∈ s.plugs ↔ plug ∈ plugs ∨ plug ∈ s'.plugs := by
  rw [← List.mem_dedup, hl.gone.mem_iff, List.mem_append, List.mem_dedup]

theorem nodup (hl : s.Loses s' plugs) : (plugs ++ s'.plugs.dedup).Nodup := hl.gone.nodup_iff.1 (List.nodup_dedup _)

theorem nodup_keys (hl : s.Loses s' plugs) : (plugs.map Plug.key).Nodup := by
  obtain ⟨h, h', -, hs, -⟩ := hl.settled
  refine (List.nodup_append.1 hl.nodup).1.map_on fun plug hplug other hother heq => ?_
  exact hs.alone_plug (hl.mem_iff.2 (.inl hplug)) (hl.mem_iff.2 (.inl hother)) heq

/-- Nobody holds the plug of such a line. -/
theorem unheld (hl : s.Loses s' plugs) {key : Nat} (hkey : key ∈ plugs.map Plug.key) :
    ∀ plug ∈ s'.plugs, plug.key ≠ key := by
  obtain ⟨h, h', -, hs, -⟩ := hl.settled
  obtain ⟨plug, hplug, rfl⟩ := List.mem_map.1 hkey
  intro other hother heq
  obtain rfl := hs.alone_plug (hl.mem_iff.2 (.inr hother)) (hl.mem_iff.2 (.inl hplug)) heq
  exact (List.nodup_append.1 hl.nodup).2.2 _ hplug _ (List.mem_dedup.2 hother) rfl

/-- A queue is voided just if it is that of such a plug. -/
theorem queue_eq (hl : s.Loses s' plugs) {key : Nat} {line : Line} (hline : s.network.plane.lines[key]? = some line) :
    ∃ holders, s'.network.plane.lines[key]? = some { line with
      queue := if key ∈ plugs.map Plug.key then line.queue.voided else line.queue
      holders := holders } := by
  obtain ⟨h, h', -, hs, hs'⟩ := hl.settled
  obtain ⟨queue, holders, -, hline', hqueue⟩ := hl.sheds.line key line hline
  have hempty {q : Queue} (hnone : q.nodes = []) : q.voided = q := by
    obtain ⟨nodes, admitted, dropped, extracted⟩ := q
    cases hnone
    rfl
  refine ⟨holders, ?_⟩
  split
  · rename_i hkey
    have hnodes : queue.nodes = [] := hs'.exact.forgotten key _ hline' (hl.unheld hkey)
    rcases hqueue with rfl | ⟨rfl, -⟩
    · rw [hline', hempty hnodes]
    · exact hline'
  · rename_i hkey
    rcases hqueue with rfl | ⟨rfl, hgone⟩
    · exact hline'
    · -- whoever held the plug would hold it still
      have hnone : ∀ plug ∈ s'.plugs, plug.key ≠ key := by
        rcases hgone with hzero | hnone
        · intro plug hplug heq
          have hcount : holders = _ := hs'.plane.held hline'
          rw [plugs_scene] at hcount
          have hpos : 0 < holdersOf key s'.plugs := holdersOf_pos.2 ⟨plug, Multiset.mem_coe.2 hplug, heq⟩
          exact hpos.ne' (hcount.symm.trans hzero)
        · exact hnone
      have hnodes := hs.exact.forgotten key line hline fun plug hplug heq => by
        rcases hl.mem_iff.1 hplug with hplug | hplug
        · exact hkey (List.mem_map.2 ⟨plug, hplug, heq⟩)
        · exact hnone plug hplug heq
      rw [hline', hempty hnodes]

/-- What waits is what waits behind these plugs, and what waits on. -/
theorem nodes_perm (hl : s.Loses s' plugs) : s.nodes.Perm (s.nodesBehind plugs ++ s'.nodes) := by
  let f : Line → Multiset Node := fun line => line.queue.nodes
  have hcoe {α : Type} (l : List α) (g : α → List Node) :
      (l.flatMap g : Multiset Node) = (l.map fun a => (g a : Multiset Node)).sum := by
    induction l with
    | nil => rfl
    | cons a rest ih => rw [List.flatMap_cons, ← Multiset.coe_add, ih, List.map_cons, List.sum_cons]
  have hsum := sum_map_emptied (f := f) (l := s.network.plane.lines.toList) (m := s'.network.plane.lines.toList)
    hl.nodup_keys fun key => by
      rw [Array.getElem?_toList, Array.getElem?_toList]
      cases hline : s.network.plane.lines[key]? with
      | none =>
        have hnone : s'.network.plane.lines[key]? = none := by
          rw [Array.getElem?_eq_none_iff, hl.sheds.size, ← Array.getElem?_eq_none_iff]
          exact hline
        rw [hnone, Option.map_none, Option.map_none, ite_self]
      | some line =>
        obtain ⟨holders, hline'⟩ := hl.queue_eq hline
        rw [hline']
        split <;> rfl
  rw [List.map_map] at hsum
  rw [← Multiset.coe_eq_coe, ← Multiset.coe_add, nodes, nodesBehind, nodes, hcoe, hcoe, hcoe]
  refine hsum.trans (congrArg (List.sum · + _) (List.map_congr_left fun plug _ => ?_))
  show (s.network.plane.lines.toList[plug.key]?.map f).getD 0 = _
  rw [Array.getElem?_toList, Backplane.line, Array.getD_eq_getD_getElem?]
  cases s.network.plane.lines[plug.key]? <;> rfl

theorem segments_perm (hl : s.Loses s' plugs) : s.segments.Perm (s.segmentsBehind plugs ++ s'.segments) := by
  rw [segments_eq, segments_eq s', hl.items, segmentsBehind, ← Multiset.coe_eq_coe]
  have hnodes := Multiset.coe_eq_coe.2
    (hl.nodes_perm.flatMap_right fun node => node.chain.frames.flatMap Frame.segments)
  rw [List.flatMap_append] at hnodes
  simp only [← Multiset.coe_add, hnodes]
  abel

theorem references_perm (hl : s.Loses s' plugs) :
    s.references.Perm ((s.segmentsBehind plugs).map Segment.storage ++ s'.references) := by
  have hsegments := hl.segments_perm.map Segment.storage
  rw [List.map_append] at hsegments
  rw [references, references, views, views, hl.items, ← List.append_assoc]
  exact hsegments.append_right _

/-- A storage goes with the last that points into it. -/
theorem storages_perm (hl : s.Loses s' plugs) :
    s.references.dedup.Perm (s.storagesBehind plugs ++ s'.references.dedup) := by
  obtain ⟨h, h', -, hs, -⟩ := hl.settled
  let pointed := (s.segmentsBehind plugs).map Segment.storage
  have hperm : s.references.Perm (pointed ++ s'.references) := hl.references_perm
  have hmem (g : Storage) : g ∈ s.references ↔ g ∈ pointed ∨ g ∈ s'.references := by
    rw [hperm.mem_iff, List.mem_append]
  have hlast (g : Storage) (hg : g ∈ s.references) : s.memory.referencesTo g = pointed.count g ↔ g ∉ s'.references := by
    rw [hs.exact.counted g (hs.exact.known g hg), hperm.count_eq, List.count_append, ← List.count_eq_zero]
    omega
  have hdisjoint : ∀ g ∈ s.storagesBehind plugs, g ∈ s.references ∧ g ∉ s'.references := by
    intro g hg
    obtain ⟨hpointed, heq⟩ := List.mem_filter.1 hg
    have hin := (hmem g).2 (.inl (List.mem_dedup.1 hpointed))
    exact ⟨hin, (hlast g hin).1 (of_decide_eq_true heq)⟩
  refine perm_append_of_nodup (List.nodup_dedup _) ((List.nodup_dedup _).filter _) (List.nodup_dedup _)
    (fun g hg hkept => (hdisjoint g hg).2 (List.mem_dedup.1 hkept)) fun g => ?_
  rw [List.mem_dedup, List.mem_dedup]
  constructor
  · intro hg
    by_cases hkept : g ∈ s'.references
    · exact .inr hkept
    · refine .inl (List.mem_filter.2 ⟨?_, decide_eq_true ((hlast g hg).2 hkept)⟩)
      exact List.mem_dedup.2 (((hmem g).1 hg).resolve_right hkept)
  · rintro (hg | hg)
    · exact (hdisjoint g hg).1
    · exact (hmem g).2 (.inr hg)

theorem blocks_perm (hl : s.Loses s' plugs) :
    (s.blocks ++ s.references.dedup.filterMap Storage.block?).Perm
      (s.blocksBehind plugs ++ (s'.blocks ++ s'.references.dedup.filterMap Storage.block?)) := by
  have hrecords := Multiset.coe_eq_coe.2 (hl.gone.map Plug.record)
  have hcharges := Multiset.coe_eq_coe.2 (hl.nodes_perm.map Node.charge)
  have hbacking := Multiset.coe_eq_coe.2 (hl.storages_perm.filterMap Storage.block?)
  rw [List.map_append] at hrecords hcharges
  rw [List.filterMap_append] at hbacking
  rw [blocks_eq, blocks_eq s', hl.items, blocksBehind, ← Multiset.coe_eq_coe]
  simp only [← Multiset.coe_add, hrecords, hcharges, hbacking]
  abel

end Loses

/-! ## How the figures move -/

/-- The bytes that a budget counts as lent are those of the blocks that are still somewhere. -/
theorem Settled.bytes (hs : s.Settled h) {key : Nat} {b : Budget} (hb : s.memory.budgets[key]? = some b)
    (kind : Budget.Kind) : (b.account.ofKind kind).bytes = Int64.ofNat (total Block.size
      ((s.blocks ++ s.references.dedup.filterMap Storage.block?).filter fun block =>
        block.owner = key ∧ block.kind = kind)) := by
  have hm := hs.plane.memory.budgets
  rw [estate_scene] at hm
  have hout : (Estate.ofLists s.tickets s.segments s.views s.blocks s.plugs).blocks +
      backing (Estate.ofLists s.tickets s.segments s.views s.blocks s.plugs).references =
      (s.blocks ++ s.references.dedup.filterMap Storage.block? : List Block) := by
    rw [← Multiset.coe_add, ← Multiset.filterMap_coe, ← Multiset.coe_dedup]
    rfl
  rw [hout] at hm
  rw [(hm.tallied hb).bytes kind, Budget.bytesOf, Multiset.filter_filter, Multiset.filter_coe, Multiset.map_coe,
    Multiset.sum_coe, total_eq_sum]
  congr 4
  funext block
  simp [and_comm]

/-- No budget goes, and none has granted anything. -/
theorem Loses.allocations (hl : s.Loses s' plugs) {key : Nat} {b : Budget} (hb : s.memory.budgets[key]? = some b) :
    ∃ b', s'.memory.budgets[key]? = some b' ∧
      ∀ kind, (b'.account.ofKind kind).allocations = (b.account.ofKind kind).allocations := by
  have hgrants (kind : Budget.Kind) :
      s'.memory.allocationsOf key kind = some (b.account.ofKind kind).allocations := by
    have hsame : s'.memory.allocationsOf key kind = s.memory.allocationsOf key kind := hl.sheds.grants key kind
    rw [hsame, Memory.allocationsOf, hb]
    rfl
  obtain ⟨b', hb', -⟩ := Option.map_eq_some_iff.1 (hgrants .plain)
  refine ⟨b', hb', fun kind => ?_⟩
  have hkind := hgrants kind
  rw [Memory.allocationsOf, hb'] at hkind
  exact Option.some.inj hkind

/-- What depends on plugs comes back with them. -/
theorem Loses.yields (hl : s.Loses s' plugs) : s.Yields s' plugs := by
  obtain ⟨h, h', hle, hs, hs'⟩ := hl.settled
  have he := hs.exact
  have he' := hs'.exact
  refine ⟨hl.items, hl.gone, fun _ _ hline => hl.queue_eq hline, ?_, fun g hg => ?_, ?_, fun key b hb => ?_⟩
  · -- bare headers are in the hands of callers, who keep what they have
    have htickets : s'.tickets = s.tickets := congrArg (List.countP _) hl.items
    rw [he.headers, he'.headers, hl.segments_perm.length_eq, List.length_append, htickets]
    omega
  · have hmade := he.known g hg
    rw [he.counted g hmade, he'.counted g (hle.2.1.subset hmade), hl.references_perm.count_eq, List.count_append,
      Nat.add_comm]
  · rw [he.clusters, he'.clusters, hl.storages_perm.countP_eq, List.countP_append, Nat.add_comm]
  · obtain ⟨b', hb', hallocations⟩ := hl.allocations hb
    refine ⟨b', hb', fun kind => ?_⟩
    intro share
    have hshare := hl.blocks_perm.filter fun block => block.owner = key ∧ block.kind = kind
    rw [List.filter_append (s.blocksBehind plugs)] at hshare
    refine ⟨hallocations kind, ?_, ?_⟩
    · -- all that was granted is freed or still somewhere, before and after
      have hlive := he.live key b hb kind
      have hlive' := he'.live key b' hb' kind
      rw [hallocations] at hlive'
      rw [List.countP_eq_length_filter] at hlive hlive'
      rw [hshare.length_eq, List.length_append] at hlive
      change _ = _ + (share.length + _) at hlive
      omega
    · have hbytes := hs.bytes hb kind
      rw [total_eq_sum, (hshare.map Block.size).sum_eq, List.map_append, List.sum_append, ← total_eq_sum,
        ← total_eq_sum, Int64.ofNat_add, ← hs'.bytes hb' kind] at hbytes
      rw [hbytes, Int64.add_comm]

end Scene

end Patchbay
