import Mathlib.Data.Multiset.FinsetOps
import Patchbay.Proofs.Estate.Basic
import Patchbay.Proofs.Estate.Budgets

/-!
# `Proofs.Estate.Memory` — the memory knows what is out

A memory is settled with an estate if its figures are just those of the estate: headers, clusters, reference
counts and the budgets' figures. Taking a header or a block and giving it back are trades.

## Contents
* `Storage.isCluster`, `Storage.block?`, `backing`, `clusterCount` — what is behind references;
* `Memory.Settled` — the figures are those of an estate;
* `Memory.trades_takeHeader`, `Memory.trades_alloc` and their kin — headers and blocks taken and given back.
-/

namespace Patchbay

open Budget (Heap Lane Kind Failure Block)

namespace Storage

/-- Says whether the bytes stand in a cluster of the host. -/
def isCluster (s : Storage) : Bool :=
  match s.origin with
  | .cluster _ => true
  | .block _ => false

/-- The block that the bytes stand in. -/
def block? (s : Storage) : Option Block :=
  match s.origin with
  | .cluster _ => none
  | .block b => some b

end Storage

/-- The blocks behind references, each once however many references there are. -/
def backing (references : Multiset Storage) : Multiset Block :=
  references.dedup.filterMap Storage.block?

/-- The number of clusters behind references, each counted once. -/
def clusterCount (references : Multiset Storage) : Nat :=
  references.dedup.countP fun s => s.isCluster

section Dedup

variable {s : Storage} {references : Multiset Storage}

/-- A further reference to a storage is no further block. -/
theorem backing_cons_of_mem (h : s ∈ references) : backing (s ::ₘ references) = backing references := by
  rw [backing, Multiset.dedup_cons_of_mem h, backing]

/-- The first reference to a storage brings its block, if it has one. -/
theorem backing_cons_of_notMem (h : s ∉ references) :
    backing (s ::ₘ references) = s.block?.elim 0 (fun b => {b}) + backing references := by
  rw [backing, Multiset.dedup_cons_of_notMem h, backing]
  cases hb : s.block? with
  | none => rw [Multiset.filterMap_cons_none _ _ hb, Option.elim_none, zero_add]
  | some b => rw [Multiset.filterMap_cons_some _ _ _ hb, Option.elim_some, Multiset.singleton_add]

/-- Nor is it a further cluster. -/
theorem clusterCount_cons_of_mem (h : s ∈ references) :
    clusterCount (s ::ₘ references) = clusterCount references := by
  rw [clusterCount, Multiset.dedup_cons_of_mem h, clusterCount]

/-- The first one may be. -/
theorem clusterCount_cons_of_notMem (h : s ∉ references) :
    clusterCount (s ::ₘ references) = clusterCount references + if s.isCluster then 1 else 0 := by
  rw [clusterCount, Multiset.dedup_cons_of_notMem h, Multiset.countP_cons, clusterCount]

end Dedup

/-- The blocks that came back: those behind storages that went, and those that were returned by themselves. -/
def History.back (h : History) : Multiset Block :=
  (h.gone.filterMap Storage.block? ++ h.returned : List Block)

namespace Memory

variable {k : Bookkeeping}

/-! ## The whole memory -/

/-- After a history, the figures of the memory are those of so many headers, references and blocks that are out, as
far as a bookkeeping tells of blocks. The storages that went are just those that nothing refers to any more, and each
went once. -/
structure Balanced (k : Bookkeeping) (m : Memory) (h : History) (headers : Nat) (references : Multiset Storage)
    (blocks : Multiset Block) : Prop where
  headersLive : m.pool.headersLive = headers
  limit : m.pool.limit = h.limit
  bounded : ∀ {l : Nat}, h.limit = some l → headers ≤ l
  keyed : h.made.map Storage.key = List.range m.references.size
  counted : ∀ {s : Storage}, s ∈ h.made → m.referencesTo s = references.count s
  known : references ⊆ h.made
  went : h.gone.Nodup
  mem_gone : ∀ {s : Storage}, s ∈ h.gone ↔ s ∈ h.made ∧ s ∉ references
  clustersLive : m.pool.clustersLive = clusterCount references
  clustersReleased : m.pool.clustersReleased = h.gone.countP Storage.isCluster
  budgets : k m (blocks + backing references) h.back

/-- The figures of the memory are those of an estate; its plugs are no matter of the memory. -/
def Settled (k : Bookkeeping) (m : Memory) (h : History) (e : Estate) : Prop :=
  m.Balanced k h e.headers e.references e.blocks

namespace Balanced

variable {m : Memory} {h : History} {headers : Nat} {references : Multiset Storage}
  {blocks : Multiset Block} {s t : Storage}

/-- A storage that was made has a count. -/
theorem key_lt (hs : m.Balanced k h headers references blocks) (hmade : s ∈ h.made) :
    s.key < m.references.size := by
  rw [← List.mem_range, ← hs.keyed]
  exact List.mem_map_of_mem hmade

/-- A key tells a storage from every other one that was ever made. -/
theorem key_inj (hs : m.Balanced k h headers references blocks) (hmade : s ∈ h.made)
    (hmade' : t ∈ h.made) (hkey : s.key = t.key) : s = t := by
  refine List.inj_on_of_nodup_map ?_ hmade hmade' hkey
  rw [hs.keyed]
  exact List.nodup_range

/-- Blocks are a matter of the budgets alone. -/
theorem of_budgets {m' : Memory} {k' : Bookkeeping} {h' : History} {blocks' : Multiset Block}
    (hs : m.Balanced k h headers references blocks) (hpool : m'.pool = m.pool)
    (hreferences : m'.references = m.references) (hlimit : h'.limit = h.limit)
    (hmade : h'.made = h.made) (hgone : h'.gone = h.gone)
    (hb : k' m' (blocks' + backing references) h'.back) :
    m'.Balanced k' h' headers references blocks' where
  headersLive := by rw [hpool]; exact hs.headersLive
  limit := by rw [hpool, hlimit]; exact hs.limit
  bounded := by rw [hlimit]; exact hs.bounded
  keyed := by rw [hmade, hreferences]; exact hs.keyed
  counted := by rw [hmade]; unfold referencesTo; rw [hreferences]; exact hs.counted
  known := by rw [hmade]; exact hs.known
  went := by rw [hgone]; exact hs.went
  mem_gone := by rw [hgone, hmade]; exact hs.mem_gone
  clustersLive := by rw [hpool]; exact hs.clustersLive
  clustersReleased := by rw [hpool, hgone]; exact hs.clustersReleased
  budgets := hb

end Balanced

/-- Who holds a plug is no matter of the memory. -/
theorem settled_plug_add {m : Memory} {h : History} (p : Plug) (e : Estate) :
    m.Settled k h (estate p + e) ↔ m.Settled k h e := by
  show m.Settled k h (.plug p + e) ↔ _
  rw [Settled, Estate.headers_plug_add, Estate.references_plug_add, Estate.blocks_plug_add, Settled]

/-- A memory that lent nothing yet. -/
theorem Settled.new (limit : Option Nat) :
    Settled Tallied { pool := { limit := limit } } { limit := limit } 0 where
  headersLive := rfl
  limit := rfl
  bounded := fun _ => Nat.zero_le _
  keyed := rfl
  counted := fun h => absurd h List.not_mem_nil
  known := Multiset.zero_subset _
  went := List.nodup_nil
  mem_gone := ⟨fun h => absurd h List.not_mem_nil, fun h => absurd h.1 List.not_mem_nil⟩
  clustersLive := rfl
  clustersReleased := rfl
  budgets := by
    refine ⟨?_, ?_, ?_, ?_, fun block h => absurd h (Multiset.notMem_zero block)⟩
    all_goals
      intro key b h
      cases h

variable [Tally k]

/-! ## Headers -/

section Headers

variable {m m' : Memory}

/-- A header that the pool lends is out. -/
theorem trades_takeHeader (hm : m.takeHeader? = some m') : Trades (Settled k) m 0 m' .header := by
  intro past rest hs
  rw [zero_add] at hs
  -- that a header was lent says that the limit was not reached
  have hfree : ∀ l, m.pool.limit = some l → m.pool.headersLive < l := by
    intro l hl
    by_contra hge
    rw [takeHeader?, Pool.takeHeader?, Pool.hasHeader, hl, Option.all_some, decide_eq_false hge] at hm
    cases hm
  obtain rfl : { m with pool := { m.pool with headersLive := m.pool.headersLive + 1 } } = m' := by
    rw [takeHeader?, Pool.takeHeader?] at hm
    split at hm
    · exact Option.some.inj hm
    · cases hm
  refine ⟨past, le_refl past, ?_⟩
  simp only [Settled, Estate.headers_header_add, Estate.references_header_add,
    Estate.blocks_header_add]
  exact
    { headersLive := by rw [← hs.headersLive]
      limit := hs.limit
      bounded := by rw [← hs.headersLive, ← hs.limit]; exact hfree _
      keyed := hs.keyed
      counted := hs.counted
      known := hs.known
      went := hs.went
      mem_gone := hs.mem_gone
      clustersLive := hs.clustersLive
      clustersReleased := hs.clustersReleased
      budgets := Tally.of_budgets hs.budgets rfl }

/-- One that goes back is not. -/
theorem trades_returnHeader (m : Memory) : Trades (Settled k) m .header m.returnHeader 0 := by
  intro past rest hs
  rw [zero_add]
  simp only [Settled, Estate.headers_header_add, Estate.references_header_add,
    Estate.blocks_header_add] at hs
  refine ⟨past, le_refl past, ?_⟩
  exact
    { headersLive := by rw [returnHeader, Pool.returnHeader, hs.headersLive, Nat.add_sub_cancel]
      limit := hs.limit
      bounded := fun hl => Nat.le_of_succ_le (hs.bounded hl)
      keyed := hs.keyed
      counted := hs.counted
      known := hs.known
      went := hs.went
      mem_gone := hs.mem_gone
      clustersLive := hs.clustersLive
      clustersReleased := hs.clustersReleased
      budgets := Tally.of_budgets hs.budgets rfl }

end Headers

/-! ## Blocks -/

section Blocks

variable {m m' : Memory} {block block' : Block} {size : Nat}

theorem setBudget_self {key : Nat} {b : Budget} (hb : m.budgets[key]? = some b) :
    m.setBudget key b = m := by
  obtain ⟨hlt, rfl⟩ := Array.getElem?_eq_some_iff.1 hb
  rw [setBudget, Array.setIfInBounds_def, dif_pos hlt, Array.set_getElem_self]

/-- A refused request leaves the memory as it was. -/
theorem alloc_error {key : Nat} {kind : Kind} {comment : Option String} {e : Failure}
    (h : m.alloc key kind comment size = (.error e, m')) : m' = m := by
  unfold alloc at h
  cases hb : m.budgets[key]? with
  | none =>
    rw [hb] at h
    exact (congrArg Prod.snd h).symm
  | some b =>
    simp only [hb] at h
    -- the budget that refuses is written back unchanged
    rcases Budget.alloc_cases m.heap b kind m.lane comment size with ⟨e, hr⟩ | ⟨n, -, -, hr⟩
    · rw [hr, setBudget_self hb] at h
      exact (congrArg Prod.snd h).symm
    · rw [hr] at h
      cases h

/-- A refused block stays as it was, and so does the memory. -/
theorem resize_error {e : Failure} (h : m.resize block size = (.error e, m')) : m' = m := by
  unfold resize at h
  cases hb : m.budgets[block.owner]? with
  | none =>
    rw [hb] at h
    exact (congrArg Prod.snd h).symm
  | some b =>
    simp only [hb] at h
    rcases Budget.resize_cases m.heap b m.lane block size with ⟨e, hr⟩ | ⟨n, -, b', hr, -⟩
    · rw [hr, setBudget_self hb] at h
      exact (congrArg Prod.snd h).symm
    · rw [hr] at h
      cases h

/-- A grant is no matter of pool and references. -/
theorem alloc_frame (m : Memory) (key : Nat) (kind : Kind) (comment : Option String) (size : Nat) :
    (m.alloc key kind comment size).2.pool = m.pool ∧
      (m.alloc key kind comment size).2.references = m.references := by
  unfold alloc
  split <;> exact ⟨rfl, rfl⟩

theorem resize_frame (m : Memory) (block : Block) (size : Nat) :
    (m.resize block size).2.pool = m.pool ∧ (m.resize block size).2.references = m.references := by
  unfold resize
  split <;> exact ⟨rfl, rfl⟩

theorem free_frame (m : Memory) (block : Block) :
    (m.free block).pool = m.pool ∧ (m.free block).references = m.references := by
  unfold free
  split <;> exact ⟨rfl, rfl⟩

/-- A block that is granted is out, and a refused request leaves all as it was. -/
theorem trades_alloc (m : Memory) (key : Nat) (kind : Kind) (comment : Option String) (size : Nat) :
    Trades (Settled k) m 0 (m.alloc key kind comment size).2
      (estate (m.alloc key kind comment size).1) := by
  cases ha : m.alloc key kind comment size with
  | mk answer m' =>
    cases answer with
    | error e =>
      obtain rfl := alloc_error ha
      exact .refl m' 0
    | ok block =>
      intro past rest hs
      rw [zero_add] at hs
      have hheap := Tally.alloc hs.budgets ha
      refine ⟨past, le_refl past, ?_⟩
      show Settled k m' past (.block block + rest)
      simp only [Settled, Estate.headers_block_add, Estate.references_block_add,
        Estate.blocks_block_add]
      have hframe := alloc_frame m key kind comment size
      rw [ha] at hframe
      refine hs.of_budgets hframe.1 hframe.2 rfl rfl rfl ?_
      rwa [Multiset.cons_add]

/-- A resized block is out in the stead of the one before. -/
theorem trades_resize (h : m.resize block size = (.ok block', m')) :
    Trades (Settled k) m (.block block) m' (.block block') := by
  intro past rest hs
  simp only [Settled, Estate.headers_block_add, Estate.references_block_add,
    Estate.blocks_block_add] at hs ⊢
  have ht := hs.budgets
  rw [Multiset.cons_add] at ht
  refine ⟨past, le_refl past, ?_⟩
  have hframe := resize_frame m block size
  rw [h] at hframe
  refine hs.of_budgets hframe.1 hframe.2 rfl rfl rfl ?_
  rw [Multiset.cons_add]
  exact Tally.resize ht h

/-- A block that is written to is the same to its budget. -/
theorem trades_write (m : Memory) (block : Block) (start : Nat) (data : List UInt8) :
    Trades (Settled k) m (.block block) m (.block (block.write start data)) := by
  intro past rest hs
  simp only [Settled, Estate.headers_block_add, Estate.references_block_add,
    Estate.blocks_block_add] at hs ⊢
  have ht := hs.budgets
  rw [Multiset.cons_add] at ht
  refine ⟨past, le_refl past, hs.of_budgets rfl rfl rfl rfl rfl ?_⟩
  rw [Multiset.cons_add]
  exact Tally.write ht start data

/-- A block that comes back is out no more. -/
theorem trades_free (m : Memory) (block : Block) :
    Trades (Settled k) m (.block block) (m.free block) 0 := by
  intro past rest hs
  rw [zero_add]
  simp only [Settled, Estate.headers_block_add, Estate.references_block_add,
    Estate.blocks_block_add] at hs ⊢
  refine ⟨{ past with returned := past.returned ++ [block] },
    ⟨rfl, List.prefix_rfl, List.prefix_rfl, List.prefix_append _ _⟩, ?_⟩
  refine hs.of_budgets (free_frame m block).1 (free_frame m block).2 rfl rfl rfl ?_
  have ht := hs.budgets
  rw [Multiset.cons_add] at ht
  -- the order in which blocks came back is no matter of their count
  have hback : History.back { past with returned := past.returned ++ [block] } =
      block ::ₘ past.back := by
    rw [History.back, History.back, ← List.append_assoc, Multiset.cons_coe, Multiset.coe_eq_coe]
    exact List.perm_append_singleton _ _
  rw [hback]
  exact Tally.free ht

theorem trades_addBudget (m : Memory) (ceiling : Nat) (tracking : Bool) :
    Trades (Settled k) m 0 (m.addBudget ceiling tracking).2 0 := by
  intro past rest hs
  exact ⟨past, le_refl past,
    hs.of_budgets rfl rfl rfl rfl rfl (Tally.addBudget hs.budgets ceiling tracking)⟩

omit [Tally k] in
/-- A check for leaks that is overlooked trades nothing. -/
theorem trades_collectLeaks (m : Memory) {key : Nat} (hkey : Overlooks k key) :
    Trades (Settled k) m 0 (m.collectLeaks key).2 0 := by
  intro past rest hs
  refine ⟨past, le_refl past, hs.of_budgets ?_ ?_ rfl rfl rfl (hkey m _ _ hs.budgets)⟩
  all_goals
    unfold collectLeaks
    split <;> rfl

/-- Which thread runs and what the system allocator has is no matter of the figures. -/
theorem trades_turn (m : Memory) (heap : Heap) (lane : Lane) :
    Trades (Settled k) m 0 { m with heap := heap, lane := lane } 0 := by
  intro past rest hs
  exact ⟨past, le_refl past, hs.of_budgets rfl rfl rfl rfl rfl (Tally.of_budgets hs.budgets rfl)⟩

end Blocks

end Memory

end Patchbay
