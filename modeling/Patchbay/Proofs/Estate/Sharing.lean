import Patchbay.Proofs.Estate.Memory

/-!
# `Proofs.Estate.Sharing` — a storage lasts as long as somebody refers to it

A storage is made with one reference to it. Whoever has a reference may make another one, and whoever gives one up
gives up its part; the last one takes the storage along, to where it came from, and no other one does.

## Contents
* `Balanced.share`, `Memory.trades_shareCluster`, `Memory.trades_shareBlock` — new storage;
* `Memory.trades_retain` — one reference more;
* `Balanced.lower`, `Balanced.release_last`, `Memory.trades_release` — one reference less, and the last one.
-/

namespace Patchbay

open Budget (Block)

namespace Memory

variable {k : Bookkeeping} [Tally k] {m : Memory} {h : History} {headers : Nat} {references : Multiset Storage}
  {blocks : Multiset Block} {s : Storage}

/-- The storage that is shared next. -/
def newStorage (m : Memory) (origin : Origin) : Storage := ⟨m.references.size, origin⟩

omit [Tally k] in
/-- New storage is none of those that were ever made. -/
theorem Balanced.fresh (hs : m.Balanced k h headers references blocks) (origin : Origin) :
    m.newStorage origin ∉ h.made :=
  fun hmade => Nat.lt_irrefl _ (hs.key_lt hmade)

theorem referencesTo_share_self (m : Memory) (origin : Origin) :
    (m.share origin).2.referencesTo (m.share origin).1 = 1 := by
  simp [share, referencesTo]

/-- A new storage is no matter of the counts of others. -/
theorem referencesTo_share (hs : s.key < m.references.size) (origin : Origin) :
    (m.share origin).2.referencesTo s = m.referencesTo s := by
  simp [share, referencesTo, Array.getElem?_push_lt hs, hs]

/-- New storage with one reference to it, where the pool counts a new cluster and a block changes hands. -/
theorem Balanced.share {pool : Pool} (hs : m.Balanced k h headers references blocks) (origin : Origin)
    {blocks' : Multiset Block} (hlimit : pool.limit = m.pool.limit)
    (hheaders : pool.headersLive = m.pool.headersLive)
    (hlive : pool.clustersLive =
      m.pool.clustersLive + if (m.newStorage origin).isCluster then 1 else 0)
    (hreleased : pool.clustersReleased = m.pool.clustersReleased)
    (hblocks : blocks = blocks' + (m.newStorage origin).block?.elim 0 ({·})) :
    ({ m with pool := pool }.share origin).2.Balanced k
      { h with made := h.made ++ [m.newStorage origin] } headers
      (m.newStorage origin ::ₘ references) blocks' := by
  have hfresh := hs.fresh origin
  -- no reference can be to storage that is made only now
  have hunknown : m.newStorage origin ∉ references := fun hr => hfresh (hs.known hr)
  have hnew (t : Storage) (ht : t ∈ h.made) : t ≠ m.newStorage origin :=
    fun heq => hfresh (heq ▸ ht)
  constructor
  case headersLive => exact hheaders.trans hs.headersLive
  case limit => exact hlimit.trans hs.limit
  case bounded => exact hs.bounded
  case keyed =>
    rw [List.map_append, hs.keyed]
    simp [Memory.share, newStorage, List.range_succ]
  case counted =>
    intro t ht
    rcases List.mem_append.1 ht with ht | ht
    · rw [Multiset.count_cons_of_ne (hnew t ht)]
      exact (referencesTo_share (m := { m with pool := pool }) (hs.key_lt ht) origin).trans
        (hs.counted ht)
    · obtain rfl := List.mem_singleton.1 ht
      rw [Multiset.count_cons_self, Multiset.count_eq_zero_of_notMem hunknown]
      exact referencesTo_share_self { m with pool := pool } origin
  case known =>
    intro t ht
    rcases Multiset.mem_cons.1 ht with rfl | ht
    · exact List.mem_append_right _ (List.mem_singleton_self _)
    · exact List.mem_append_left _ (hs.known ht)
  case went => exact hs.went
  case mem_gone =>
    intro t
    rw [hs.mem_gone, List.mem_append, List.mem_singleton, Multiset.mem_cons, not_or]
    constructor
    · intro ht
      exact ⟨.inl ht.1, hnew t ht.1, ht.2⟩
    · rintro ⟨ht | ht, hne, hr⟩
      · exact ⟨ht, hr⟩
      · exact absurd ht hne
  case clustersLive =>
    rw [clusterCount_cons_of_notMem hunknown, ← hs.clustersLive]
    exact hlive
  case clustersReleased => exact hreleased.trans hs.clustersReleased
  case budgets =>
    rw [backing_cons_of_notMem hunknown, ← add_assoc, ← hblocks]
    exact Tally.of_budgets hs.budgets rfl

/-- A cluster comes with a reference to it. -/
theorem trades_shareCluster (m : Memory) (bytes : List UInt8) :
    Trades (Settled k) m 0 (m.shareCluster bytes).2 (.reference (m.shareCluster bytes).1) := by
  intro past rest hs
  rw [zero_add] at hs
  refine ⟨{ past with made := past.made ++ [m.newStorage (.cluster (.ofList bytes))] },
    ⟨rfl, List.prefix_append _ _, List.prefix_rfl, List.prefix_rfl⟩, ?_⟩
  simp only [Settled, Estate.headers_reference_add, Estate.references_reference_add,
    Estate.blocks_reference_add]
  exact hs.share (.cluster (.ofList bytes)) rfl rfl rfl rfl (add_zero _).symm

/-- A block that is shared is given for a reference to its storage. -/
theorem trades_shareBlock (m : Memory) (block : Block) :
    Trades (Settled k) m (.block block) (m.shareBlock block).2 (.reference (m.shareBlock block).1) := by
  intro past rest hs
  simp only [Settled, Estate.headers_block_add, Estate.references_block_add,
    Estate.blocks_block_add] at hs
  refine ⟨{ past with made := past.made ++ [m.newStorage (.block block)] },
    ⟨rfl, List.prefix_append _ _, List.prefix_rfl, List.prefix_rfl⟩, ?_⟩
  simp only [Settled, Estate.headers_reference_add, Estate.references_reference_add,
    Estate.blocks_reference_add]
  refine hs.share (.block block) rfl rfl rfl rfl ?_
  rw [newStorage, Storage.block?, Option.elim_some, ← Multiset.singleton_add, add_comm]

/-- A further reference is counted for its storage and for no other. -/
theorem referencesTo_retain {t : Storage} (hs : s.key < m.references.size) :
    (m.retain s).referencesTo t = m.referencesTo t + if t.key = s.key then 1 else 0 := by
  simp only [retain, referencesTo, Array.getD_eq_getD_getElem?, Array.getElem?_modify]
  by_cases hkey : s.key = t.key
  · rw [if_pos hkey, if_pos hkey.symm, ← hkey, Array.getElem?_eq_getElem hs]
    rfl
  · rw [if_neg hkey, if_neg (Ne.symm hkey), Nat.add_zero]

/-- Whoever has a reference may make another one. -/
theorem trades_retain {a : Estate} (m : Memory) (hs : s ∈ a.references) :
    Trades (Settled k) m a (m.retain s) (.reference s + a) := by
  intro past rest hb
  rw [add_assoc]
  have hin : s ∈ (a + rest).references := Multiset.mem_add.2 (.inl hs)
  simp only [Settled, Estate.headers_reference_add, Estate.references_reference_add,
    Estate.blocks_reference_add]
  have hmade := hb.known hin
  refine ⟨past, le_refl past, ?_⟩
  exact
    { headersLive := hb.headersLive
      limit := hb.limit
      bounded := hb.bounded
      keyed := by rw [hb.keyed, retain, Array.size_modify]
      counted := by
        intro t ht
        rw [referencesTo_retain (hb.key_lt hmade), hb.counted ht, Multiset.count_cons]
        congr 1
        -- counts are kept by key, and a key tells storages apart
        by_cases heq : t = s
        · rw [heq, if_pos rfl, if_pos rfl]
        · rw [if_neg heq, if_neg fun hkey => heq (hb.key_inj ht hmade hkey)]
      known := Multiset.cons_subset.2 ⟨hmade, hb.known⟩
      went := hb.went
      mem_gone := by
        intro t
        rw [hb.mem_gone, Multiset.mem_cons, not_or]
        -- what is referred to already is not gone, so nothing comes back to life
        refine and_congr_right fun _ => ⟨fun ht => ⟨?_, ht⟩, And.right⟩
        rintro rfl
        exact ht hin
      clustersLive := by rw [clusterCount_cons_of_mem hin]; exact hb.clustersLive
      clustersReleased := hb.clustersReleased
      budgets := by rw [backing_cons_of_mem hin]; exact Tally.of_budgets hb.budgets rfl }

theorem referencesTo_lower {t : Storage} {n : Nat} (hs : s.key < m.references.size) :
    ({ m with references := m.references.setIfInBounds s.key n } : Memory).referencesTo t =
      if s.key = t.key then n else m.referencesTo t := by
  simp only [referencesTo, Array.getD_eq_getD_getElem?, Array.getElem?_setIfInBounds]
  split <;> rfl

omit [Tally k] in
/-- With one reference less, all is balanced but for a storage that went with it. -/
theorem Balanced.lower (hb : m.Balanced k h headers (s ::ₘ references) blocks) {t : Storage}
    (ht : t ∈ h.made) :
    ({ m with references := m.references.setIfInBounds s.key (references.count s) } : Memory).referencesTo
      t = references.count t := by
  have hmade := hb.known (Multiset.mem_cons_self s references)
  rw [referencesTo_lower (hb.key_lt hmade)]
  by_cases heq : t = s
  · rw [heq, if_pos rfl]
  · rw [if_neg fun hkey => heq (hb.key_inj hmade ht hkey).symm, hb.counted ht,
      Multiset.count_cons_of_ne heq]

/-- A storage that is reclaimed gives its cluster back, or its block, and touches no count. -/
theorem reclaim_frame (m : Memory) (s : Storage) :
    (m.reclaim s).references = m.references ∧
      (m.reclaim s).pool = if s.isCluster then m.pool.returnCluster else m.pool := by
  obtain ⟨key, origin⟩ := s
  cases origin with
  | cluster contents => exact ⟨rfl, rfl⟩
  | block block => exact ⟨(free_frame m block).2, (free_frame m block).1⟩

theorem Tally.reclaim {out back : Multiset Block} (h : k m (s.block?.elim 0 ({·}) + out) back) :
    k (m.reclaim s) out (s.block?.elim 0 ({·}) + back) := by
  obtain ⟨key, origin⟩ := s
  cases origin with
  | cluster contents => exact Tally.of_budgets (m := m) (by simpa [Storage.block?] using h) rfl
  | block block => exact Tally.free h

theorem back_gone (h : History) (s : Storage) :
    History.back { h with gone := h.gone ++ [s] } = s.block?.elim 0 ({·}) + h.back := by
  rw [History.back, History.back, List.filterMap_append]
  cases hs : s.block? with
  | none => simp [hs]
  | some b =>
    rw [Option.elim_some, Multiset.singleton_add, Multiset.cons_coe, Multiset.coe_eq_coe]
    simp [hs]

/-- The last reference to a storage takes it along: it goes once, to where it came from. -/
theorem Balanced.release_last (hb : m.Balanced k h headers (s ::ₘ references) blocks)
    (hlast : s ∉ references) :
    (({ m with references := m.references.setIfInBounds s.key 0 } : Memory).reclaim s).Balanced k
      { h with gone := h.gone ++ [s] } headers references blocks := by
  have hmade := hb.known (Multiset.mem_cons_self s references)
  -- it is still referred to, so it did not go before: this is why it goes once
  have hgone : s ∉ h.gone := fun hg => (hb.mem_gone.1 hg).2 (Multiset.mem_cons_self s references)
  have hlower {t : Storage} (ht : t ∈ h.made) := hb.lower ht
  rw [Multiset.count_eq_zero_of_notMem hlast] at hlower
  have hclusters := hb.clustersLive
  have hbudgets := hb.budgets
  rw [clusterCount_cons_of_notMem hlast] at hclusters
  rw [backing_cons_of_notMem hlast, add_left_comm] at hbudgets
  obtain ⟨hreferences, hpool⟩ :=
    reclaim_frame { m with references := m.references.setIfInBounds s.key 0 } s
  constructor
  case headersLive =>
    rw [hpool]
    split <;> exact hb.headersLive
  case limit =>
    rw [hpool]
    split <;> exact hb.limit
  case bounded => exact hb.bounded
  case keyed => rw [hreferences, Array.size_setIfInBounds, hb.keyed]
  case counted =>
    unfold referencesTo
    rw [hreferences]
    exact hlower
  case known => exact fun t ht => hb.known (Multiset.mem_cons_of_mem ht)
  case went =>
    rw [List.nodup_append]
    refine ⟨hb.went, List.nodup_singleton s, fun t ht u hu heq => ?_⟩
    rw [List.mem_singleton.1 hu] at heq
    exact hgone (heq ▸ ht)
  case mem_gone =>
    intro t
    rw [List.mem_append, List.mem_singleton, hb.mem_gone, Multiset.mem_cons, not_or]
    constructor
    · rintro (ht | rfl)
      · exact ⟨ht.1, ht.2.2⟩
      · exact ⟨hmade, hlast⟩
    · intro ht
      by_cases heq : t = s
      · exact .inr heq
      · exact .inl ⟨ht.1, heq, ht.2⟩
  case clustersLive =>
    rw [hpool]
    split at hclusters
    · rw [if_pos (by assumption), Pool.returnCluster, hclusters, Nat.add_sub_cancel]
    · rw [if_neg (by assumption), hclusters, Nat.add_zero]
  case clustersReleased =>
    rw [hpool, List.countP_append, List.countP_singleton, ← hb.clustersReleased]
    split <;> rfl
  case budgets =>
    rw [back_gone]
    exact Tally.reclaim (Tally.of_budgets hbudgets rfl)

/-- A reference that is given back is out no more; with the last one the storage goes. -/
theorem trades_release (m : Memory) (s : Storage) :
    Trades (Settled k) m (.reference s) (m.release s) 0 := by
  intro past rest hb
  rw [zero_add]
  simp only [Settled, Estate.headers_reference_add, Estate.references_reference_add,
    Estate.blocks_reference_add] at hb ⊢
  have hmade := hb.known (Multiset.mem_cons_self s rest.references)
  have hleft : m.referencesTo s - 1 = rest.references.count s := by
    rw [hb.counted hmade, Multiset.count_cons_self, Nat.add_sub_cancel]
  unfold release
  simp only [hleft]
  -- whether the count falls to nothing is whether anybody else has a reference
  by_cases hin : s ∈ rest.references
  · rw [if_neg (Multiset.count_ne_zero.2 hin)]
    refine ⟨past, le_refl past, ?_⟩
    exact
      { headersLive := hb.headersLive
        limit := hb.limit
        bounded := hb.bounded
        keyed := by rw [hb.keyed, Array.size_setIfInBounds]
        counted := hb.lower
        known := fun t ht => hb.known (Multiset.mem_cons_of_mem ht)
        went := hb.went
        mem_gone := by
          intro t
          rw [hb.mem_gone, Multiset.mem_cons, not_or]
          refine and_congr_right fun _ => ⟨And.right, fun ht => ⟨?_, ht⟩⟩
          rintro rfl
          exact ht hin
        clustersLive := by rw [← clusterCount_cons_of_mem hin]; exact hb.clustersLive
        clustersReleased := hb.clustersReleased
        budgets := by rw [← backing_cons_of_mem hin]; exact Tally.of_budgets hb.budgets rfl }
  · rw [Multiset.count_eq_zero_of_notMem hin, if_pos rfl]
    exact ⟨{ past with gone := past.gone ++ [s] },
      ⟨rfl, List.prefix_rfl, List.prefix_append _ _, List.prefix_rfl⟩, hb.release_last hin⟩

end Memory

end Patchbay
