import Patchbay.Proofs.Estate.Network

/-!
# `Proofs.Estate.Watch` — one budget with its ledger and its ceiling

Of one budget among many more can be said than its figures tell: while nobody checks it for leaks, its ledger lists
just the blocks of it that are out, and what is out stays within its ceiling. This is a bookkeeping like any other,
so whatever is done with memory keeps it up.

## Contents
* `Budget.Ledger.Lists` — a ledger tells of each block once, with its size, in the order of ids;
* `Budget.Watched` — ceiling and ledger of a budget, and its live blocks; `Watched.alloc` and its kin;
* `Memory.Watched` — the bookkeeping; `Memory.Watched.overlooks` — checks of other budgets are no matter of it;
* `Network.Settled.watch` — a network that gets a further budget watches it from then on.
-/

namespace Patchbay

namespace Budget

/-- What a ledger tells of an allocation, its comment apart. -/
def Entry.listing (e : Entry) : Nat × Nat × Kind := (e.id, e.size, e.kind)

/-- What a ledger has to tell of a block. -/
def Block.listing (b : Block) : Nat × Nat × Kind := (b.id, b.size, b.kind)

/-- A ledger tells of each of these blocks once, with its size, in the order of ids. -/
structure Ledger.Lists (l : Ledger) (live : Multiset Block) : Prop where
  listed : (l.entries.map Entry.listing : Multiset (Nat × Nat × Kind)) = live.map Block.listing
  ordered : (l.entries.map Entry.id).Pairwise (· < ·)

namespace Ledger.Lists

variable {l : Ledger} {live : Multiset Block} {block block' : Block}

/-- An empty list is that of no blocks. -/
theorem new : Lists {} 0 := ⟨rfl, List.Pairwise.nil⟩

/-- An entry stands for a block. -/
theorem exists_block (h : l.Lists live) {e : Entry} (he : e ∈ l.entries) : ∃ b ∈ live, b.listing = e.listing := by
  refine Multiset.mem_map.1 ?_
  rw [← h.listed]
  exact Multiset.mem_coe.2 (List.mem_map_of_mem he)

/-- A block with the latest id is put at the end of the list. -/
theorem record (h : l.Lists live) (hfresh : ∀ b ∈ live, b.id < block.id) (comment : Option String) :
    (l.record ⟨block.id, block.size, block.kind, comment⟩).Lists (block ::ₘ live) where
  listed := by
    rw [Ledger.record, List.map_append, ← Multiset.coe_add, h.listed, Multiset.map_cons, add_comm]
    rfl
  ordered := by
    rw [Ledger.record, List.map_append]
    refine List.pairwise_append.2 ⟨h.ordered, List.pairwise_singleton _ _, fun i hi j hj => ?_⟩
    obtain ⟨e, he, rfl⟩ := List.mem_map.1 hi
    obtain ⟨b, hb, hlisting⟩ := h.exists_block he
    have hid : b.id = e.id := congrArg Prod.fst hlisting
    rw [List.mem_singleton.1 hj, ← hid]
    exact hfresh b hb

/-- A block that goes is struck from the list. -/
theorem forget (h : l.Lists (block ::ₘ live)) (hother : ∀ b ∈ live, b.id ≠ block.id) :
    (l.forget block.id).Lists live where
  listed := by
    -- no block but the one has its id
    have hfilter := congrArg (Multiset.filter fun listing => listing.1 ≠ block.id) h.listed
    have hlive : (live.map Block.listing).filter (fun listing => listing.1 ≠ block.id) =
        live.map Block.listing := by
      refine Multiset.filter_eq_self.2 fun listing hin => ?_
      obtain ⟨b, hb, rfl⟩ := Multiset.mem_map.1 hin
      exact hother b hb
    have hgone : ¬ block.listing.1 ≠ block.id := fun hne => hne rfl
    rw [Multiset.map_cons,
      Multiset.filter_cons_of_neg (p := fun listing : Nat × Nat × Kind => listing.1 ≠ block.id) _ hgone, hlive,
      Multiset.filter_coe, List.filter_map] at hfilter
    exact hfilter
  ordered := h.ordered.sublist (List.filter_sublist.map _)

/-- A block that is resized is listed with its new size, in its old place. -/
theorem resized (h : l.Lists (block ::ₘ live)) (hother : ∀ b ∈ live, b.id ≠ block.id)
    (hid : block'.id = block.id) (hkind : block'.kind = block.kind) :
    (l.resized block.id block'.size).Lists (block' ::ₘ live) where
  listed := by
    -- the new size goes into the entry of the block and into no other
    let f (listing : Nat × Nat × Kind) :=
      if listing.1 = block.id then (listing.1, block'.size, listing.2.2) else listing
    have hmap := congrArg (Multiset.map f) h.listed
    have hentries : (l.resized block.id block'.size).entries.map Entry.listing =
        (l.entries.map Entry.listing).map f := by
      rw [Ledger.resized, List.map_map, List.map_map]
      refine List.map_congr_left fun e _ => ?_
      show Entry.listing (if e.id = block.id then _ else e) = if e.id = block.id then _ else _
      split <;> rfl
    have hlive : (live.map Block.listing).map f = live.map Block.listing := by
      rw [Multiset.map_map]
      exact Multiset.map_congr rfl fun b hb => if_neg (hother b hb)
    rw [Multiset.map_cons, Multiset.map_cons, hlive, Multiset.map_coe, ← hentries] at hmap
    rw [hmap, Multiset.map_cons]
    congr 1
    refine (if_pos rfl).trans ?_
    rw [Block.listing, Block.listing, hid, hkind]
  ordered := by
    have hids : (l.resized block.id block'.size).entries.map Entry.id = l.entries.map Entry.id := by
      rw [Ledger.resized, List.map_map]
      refine List.map_congr_left fun e _ => ?_
      rw [Function.comp_apply]
      split <;> rfl
    rw [hids]
    exact h.ordered

end Ledger.Lists

/-- A budget with this ceiling; if it tracks its blocks, its ledger lists those that are out. -/
structure Watched (ceiling : Nat) (tracking : Bool) (b : Budget) (live : Multiset Block) : Prop where
  ceiling_eq : b.ceiling = ceiling
  tracks : b.ledger.isSome = tracking
  lists : ∀ l, b.ledger = some l → l.Lists live
  within : ceiling < 2 ^ 62 → (live.map Block.size).sum ≤ ceiling

namespace Watched

variable {ceiling size : Nat} {tracking : Bool} {b b' : Budget} {live : Multiset Block} {block block' : Block}
  {heap : Heap} {lane : Lane}

/-- A budget that has granted nothing is watched from the start. -/
theorem new (key ceiling : Nat) (tracking : Bool) : Watched ceiling tracking (Budget.new key ceiling tracking) 0 where
  ceiling_eq := rfl
  tracks := by cases tracking <;> rfl
  lists := by
    intro l hl
    cases tracking with
    | false => cases hl
    | true =>
      cases hl
      exact .new
  within := fun _ => Nat.zero_le ceiling

/-- No two blocks of a budget have an id in common. -/
theorem other_ids (ht : Tallied b (block ::ₘ live)) : ∀ other ∈ live, other.id ≠ block.id := by
  have hd := ht.distinct
  rw [Multiset.map_cons, Multiset.nodup_cons] at hd
  intro other hother heq
  exact hd.1 (Multiset.mem_map.2 ⟨other, hother, heq⟩)

/-- A watched budget notes what it grants. -/
theorem alloc {kind : Kind} {comment : Option String} (h : Watched ceiling tracking b live) (ht : Tallied b live)
    (ha : b.alloc heap kind lane comment size = (.ok block, b')) : Watched ceiling tracking b' (block ::ₘ live) := by
  obtain ⟨rfl, htracks, hlists, hwithin⟩ := h
  obtain ⟨hid, -, hceiling, hledger⟩ := alloc_noted ha
  refine ⟨hceiling, ?_, fun l hl => ?_, fun hc => ht.alloc_within hc (hwithin hc) ha⟩
  · rw [hledger, Option.isSome_map, htracks]
  · rw [hledger] at hl
    obtain ⟨old, hold, rfl⟩ := Option.map_eq_some_iff.1 hl
    exact (hlists old hold).record (fun other hother => hid ▸ ht.fresh other hother) comment

/-- It notes the new size of a block. -/
theorem resize (h : Watched ceiling tracking b (block ::ₘ live)) (ht : Tallied b (block ::ₘ live))
    (hr : b.resize heap lane block size = (.ok block', b')) : Watched ceiling tracking b' (block' ::ₘ live) := by
  obtain ⟨rfl, htracks, hlists, hwithin⟩ := h
  obtain ⟨hid, hkind, -, hceiling, hledger⟩ := resize_noted hr
  refine ⟨hceiling, ?_, fun l hl => ?_, fun hc => ht.resize_within hc (hwithin hc) hr⟩
  · rw [hledger, Option.isSome_map, htracks]
  · rw [hledger] at hl
    obtain ⟨old, hold, rfl⟩ := Option.map_eq_some_iff.1 hl
    exact (hlists old hold).resized (other_ids ht) hid hkind

/-- A block as long as before is as good as the old one. -/
theorem write (h : Watched ceiling tracking b (block ::ₘ live)) (start : Nat) (data : List UInt8) :
    Watched ceiling tracking b (block.write start data ::ₘ live) := by
  have hsize : (block.write start data).size = block.size := Contents.size_write _ start data
  have hlisting : (block.write start data).listing = block.listing := by
    rw [Block.listing, hsize, Block.listing]
    rfl
  refine ⟨h.ceiling_eq, h.tracks, fun l hl => ⟨?_, (h.lists l hl).ordered⟩, fun hc => ?_⟩
  · rw [(h.lists l hl).listed, Multiset.map_cons, Multiset.map_cons, hlisting]
  · have hwithin := h.within hc
    rwa [Multiset.map_cons, ← hsize, ← Multiset.map_cons Block.size] at hwithin

/-- It strikes a block that comes back. -/
theorem free (h : Watched ceiling tracking b (block ::ₘ live)) (ht : Tallied b (block ::ₘ live)) (lane : Lane) :
    Watched ceiling tracking (b.free lane block) live := by
  refine ⟨h.ceiling_eq, ?_, fun l hl => ?_, fun hc => ?_⟩
  · rw [Budget.free, Option.isSome_map, h.tracks]
  · obtain ⟨old, hold, rfl⟩ := Option.map_eq_some_iff.1 hl
    exact (h.lists old hold).forget (other_ids ht)
  · have hwithin := h.within hc
    rw [Multiset.map_cons, Multiset.sum_cons] at hwithin
    exact (Nat.le_add_left _ _).trans hwithin

end Watched

end Budget

namespace Memory

open Budget (Kind Block)

/-- The figures of all budgets are those of their blocks, and the one with this key is watched. -/
structure Watched (key ceiling : Nat) (tracking : Bool) (m : Memory) (out back : Multiset Block) : Prop where
  tallied : m.Tallied out back
  watched : ∃ b, m.budgets[key]? = some b ∧ b.Watched ceiling tracking (out.filter (·.owner = key))

namespace Watched

open Tallied (filter_cons_owner filter_cons_other)

variable {key ceiling size : Nat} {tracking : Bool} {m m' : Memory} {out back : Multiset Block}
  {block block' : Block}

/-- One budget changes with its blocks. -/
theorem set {other : Nat} {b b' : Budget} {out' : Multiset Block} (h : m.Watched key ceiling tracking out back)
    (hb : m.budgets[other]? = some b)
    (hother : other ≠ key → out'.filter (·.owner = key) = out.filter (·.owner = key))
    (hself : other = key → b.Watched ceiling tracking (out.filter (·.owner = other)) →
      b'.Watched ceiling tracking (out'.filter (·.owner = other))) :
    ∃ c, (m.setBudget other b').budgets[key]? = some c ∧
      c.Watched ceiling tracking (out'.filter (·.owner = key)) := by
  obtain ⟨c, hc, hw⟩ := h.watched
  have hlt : other < m.budgets.size := (Array.getElem?_eq_some_iff.1 hb).1
  by_cases hkey : other = key
  · subst hkey
    obtain rfl := Option.some.inj (hb.symm.trans hc)
    exact ⟨b', Array.getElem?_setIfInBounds_self_of_lt hlt, hself rfl hw⟩
  · refine ⟨c, ?_, ?_⟩
    · rw [setBudget, Array.getElem?_setIfInBounds_ne hkey]
      exact hc
    · rw [hother hkey]
      exact hw

/-- So does the memory that the budget is in. -/
theorem alloc {other : Nat} {kind : Kind} {comment : Option String} (h : m.Watched key ceiling tracking out back)
    (ha : m.alloc other kind comment size = (.ok block, m')) :
    m'.Watched key ceiling tracking (block ::ₘ out) back := by
  refine ⟨h.tallied.alloc ha, ?_⟩
  obtain ⟨b, b', hb, hr, rfl⟩ := alloc_ok ha
  have howner : block.owner = other := (Budget.alloc_signed hr).1.trans (h.tallied.keyed hb)
  refine h.set hb (fun hne => filter_cons_other out (howner.trans_ne hne)) fun _ hw => ?_
  rw [filter_cons_owner out howner]
  exact hw.alloc (h.tallied.tallied hb) hr

/-- So it is in memory, whichever budget the block is of. -/
theorem resize (h : m.Watched key ceiling tracking (block ::ₘ out) back)
    (hr : m.resize block size = (.ok block', m')) : m'.Watched key ceiling tracking (block' ::ₘ out) back := by
  refine ⟨h.tallied.resize hr, ?_⟩
  obtain ⟨b, b', hb, hs, rfl⟩ := resize_ok hr
  have howner : block'.owner = block.owner := (Budget.resize_signed hs).1
  refine h.set hb (fun hne => ?_) fun _ hw => ?_
  · rw [filter_cons_other out (howner.trans_ne hne), filter_cons_other out hne]
  · have ht := h.tallied.tallied hb
    rw [filter_cons_owner out rfl] at hw ht
    rw [filter_cons_owner out howner]
    exact hw.resize ht hs

theorem write (h : m.Watched key ceiling tracking (block ::ₘ out) back) (start : Nat) (data : List UInt8) :
    m.Watched key ceiling tracking (block.write start data ::ₘ out) back := by
  refine ⟨h.tallied.write start data, ?_⟩
  obtain ⟨b, hb, hw⟩ := h.watched
  refine ⟨b, hb, ?_⟩
  by_cases howner : block.owner = key
  · rw [filter_cons_owner out howner] at hw
    rw [filter_cons_owner out (show (block.write start data).owner = key from howner)]
    exact hw.write start data
  · rw [filter_cons_other out howner] at hw
    rwa [filter_cons_other out (show (block.write start data).owner ≠ key from howner)]

/-- So it is in memory: another budget is not concerned. -/
theorem free (h : m.Watched key ceiling tracking (block ::ₘ out) back) :
    (m.free block).Watched key ceiling tracking out (block ::ₘ back) := by
  refine ⟨h.tallied.free, ?_⟩
  have hlt : block.owner < m.budgets.size := by
    refine h.tallied.owned block ?_
    rw [Multiset.cons_add]
    exact Multiset.mem_cons_self block _
  have hb : m.budgets[block.owner]? = some m.budgets[block.owner] := Array.getElem?_eq_getElem hlt
  unfold Memory.free
  simp only [hb]
  refine h.set hb (fun hne => (filter_cons_other out hne).symm) fun _ hw => ?_
  have ht := h.tallied.tallied hb
  rw [filter_cons_owner out rfl] at hw ht
  exact hw.free ht m.lane

/-- A further budget is no matter of the one that is watched. -/
theorem addBudget (h : m.Watched key ceiling tracking out back) (other : Nat) (tracks : Bool) :
    (m.addBudget other tracks).2.Watched key ceiling tracking out back := by
  obtain ⟨b, hb, hw⟩ := h.watched
  refine ⟨h.tallied.addBudget other tracks, b, ?_, hw⟩
  have hlt : key < m.budgets.size := (Array.getElem?_eq_some_iff.1 hb).1
  rw [Memory.addBudget, Array.getElem?_push_lt hlt, ← hb, Array.getElem?_eq_getElem hlt]

/-- A check of another budget is no matter of the one that is watched. -/
theorem overlooks {other : Nat} (hne : other ≠ key) : Overlooks (Watched key ceiling tracking) other := by
  intro m out back h
  refine ⟨h.tallied.collectLeaks other, ?_⟩
  unfold Memory.collectLeaks
  cases hb : m.budgets[other]? with
  | none => exact h.watched
  | some b => exact h.set hb (fun _ => rfl) fun heq => absurd heq hne

/-- A further budget can be watched from the start: no block is out that has its key. -/
theorem start (h : m.Tallied out back) (ceiling : Nat) (tracking : Bool) :
    (m.addBudget ceiling tracking).2.Watched m.budgets.size ceiling tracking out back := by
  refine ⟨h.addBudget ceiling tracking, Budget.new m.budgets.size ceiling tracking, ?_, ?_⟩
  · rw [Memory.addBudget, Array.getElem?_push_size]
  · have hnone : out.filter (·.owner = m.budgets.size) = 0 :=
      Multiset.filter_eq_nil.2 fun block hblock =>
        Nat.ne_of_lt (h.owned block (Multiset.mem_add.2 (.inl hblock)))
    rw [hnone]
    exact .new _ ceiling tracking

end Watched

instance (key ceiling : Nat) (tracking : Bool) : Tally (Watched key ceiling tracking) where
  of_budgets h hb := ⟨h.tallied.of_budgets hb, by rw [hb]; exact h.watched⟩
  alloc := Watched.alloc
  resize := Watched.resize
  write := Watched.write
  free := Watched.free
  addBudget := Watched.addBudget

end Memory

/-! ## Networks -/

namespace Network

open Memory (Tallied Watched)

/-- A network that gets a further budget watches it from then on. -/
theorem Settled.watch {n : Network} {h : History} {e : Estate} (hs : n.Settled Tallied h e) (ceiling : Nat)
    (tracking : Bool) : (n.onMemory fun m => m.addBudget ceiling tracking).2.Settled
      (Watched n.memory.budgets.size ceiling tracking) h e :=
  hs.exchange rfl rfl fun _ _ ht => Watched.start ht ceiling tracking

end Network

end Patchbay
