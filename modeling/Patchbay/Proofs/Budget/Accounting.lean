import Mathlib.Algebra.BigOperators.Group.Multiset.Basic
import Mathlib.Data.Multiset.Range
import Patchbay.Budget.Basic

/-!
# `Proofs.Budget.Accounting` — the figures of a budget tell which blocks are out

A budget keeps no list of its blocks. Its figures are sums over lanes of wrapped words, charged before they are
checked and rolled back when something refuses. This module ties them to the collection `live` of the blocks that
were granted and not returned yet.

## Contents
* `bytesOf`, `countOf` — what a collection of blocks comes to, kind by kind;
* `Account.Moves` — what an operation adds to the figures of one kind, whatever the lane;
* `reserve_of_fits`, `reserve_error` — charges that are let through, and what is said of the others;
* `alloc_cases`, `resize_cases` — all that a request can do; a refused one leaves the budget as it was;
* `alloc_noted`, `resize_noted` — what a request that succeeds leaves in the ledger;
* `Tallied` — the figures of a budget are those of a collection of live blocks;
* `Tallied.alloc`, `Tallied.resize`, `Tallied.free` — every operation keeps the tally;
* `Tallied.alloc_within`, `Tallied.resize_within` — and what is out stays within the ceiling;
* `Returned` — the frees of a budget are those of a collection of returned blocks;
* `Numbered` — the ids that a budget gave out are those of a collection of blocks, one of each.
-/

namespace Patchbay

namespace Budget

/-- The bytes of the blocks of one kind. -/
def bytesOf (kind : Kind) (live : Multiset Block) : Nat :=
  ((live.filter fun block => block.kind = kind).map Block.size).sum

/-- The number of blocks of one kind. -/
def countOf (kind : Kind) (live : Multiset Block) : Nat :=
  live.countP fun block => block.kind = kind

theorem bytesOf_cons (kind : Kind) (block : Block) (live : Multiset Block) :
    bytesOf kind (block ::ₘ live) =
      (if block.kind = kind then block.size else 0) + bytesOf kind live := by
  unfold bytesOf
  by_cases h : block.kind = kind
  · rw [Multiset.filter_cons_of_pos live h, Multiset.map_cons, Multiset.sum_cons, if_pos h]
  · rw [Multiset.filter_cons_of_neg live h, if_neg h, Nat.zero_add]

theorem countOf_cons (kind : Kind) (block : Block) (live : Multiset Block) :
    countOf kind (block ::ₘ live) = countOf kind live + if block.kind = kind then 1 else 0 :=
  Multiset.countP_cons _ _ _

theorem bytesOf_add_bytesOf (live : Multiset Block) :
    bytesOf .plain live + bytesOf .contiguous live = (live.map Block.size).sum := by
  induction live using Multiset.induction with
  | empty => rfl
  | cons block live ih =>
    rw [bytesOf_cons, bytesOf_cons, Multiset.map_cons, Multiset.sum_cons, ← ih]
    cases block.kind
    · rw [if_pos rfl, if_neg Kind.noConfusion]
      omega
    · rw [if_neg Kind.noConfusion, if_pos rfl]
      omega

/-! ## What an operation adds to the figures -/

namespace Account

/-- The second account is the first with so many bytes, allocations and frees more of one kind. On which lane
they were counted cannot be told from the sums. -/
structure Moves (a a' : Account) (kind : Kind) (bytes : Int64) (allocations frees : Nat) : Prop where
  bytes : ∀ other, (a'.ofKind other).bytes =
    (a.ofKind other).bytes + if kind = other then bytes else 0
  allocations : ∀ other, (a'.ofKind other).allocations =
    (a.ofKind other).allocations + if kind = other then allocations else 0
  frees : ∀ other, (a'.ofKind other).frees =
    (a.ofKind other).frees + if kind = other then frees else 0

theorem moves_change (a : Account) (kind : Kind) (lane : Lane) {f : Tally → Tally} {d : Int64}
    {p q : Nat} (h : ∀ t, f t = ⟨t.bytes + d, t.allocations + p, t.frees + q⟩) :
    Moves a (a.change kind lane f) kind d p q := by
  -- three figures, and for each of them the kind that is counted and the other one
  constructor
  all_goals
    intro other
    rw [ofKind_change]
    by_cases hk : kind = other
  · rw [if_pos hk.symm, if_pos hk, Tallies.bytes_change, h, hk]
    grind
  · rw [if_neg (Ne.symm hk), if_neg hk, Int64.add_zero]
  · have := (a.ofKind kind).allocations_change lane f
    simp only [h] at this
    rw [if_pos hk.symm, if_pos hk, ← hk]
    omega
  · rw [if_neg (Ne.symm hk), if_neg hk, Nat.add_zero]
  · have := (a.ofKind kind).frees_change lane f
    simp only [h] at this
    rw [if_pos hk.symm, if_pos hk, ← hk]
    omega
  · rw [if_neg (Ne.symm hk), if_neg hk, Nat.add_zero]

variable (a : Account) (kind : Kind) (lane : Lane)

theorem moves_charge (n : Nat) : Moves a (a.charge kind lane n) kind (Int64.ofNat n) 0 0 :=
  a.moves_change kind lane fun _ => rfl

theorem moves_credit (n : Nat) : Moves a (a.credit kind lane n) kind (-Int64.ofNat n) 0 0 := by
  refine a.moves_change kind lane fun t => ?_
  rw [← Int64.sub_eq_add_neg]
  rfl

theorem moves_countAllocation : Moves a (a.countAllocation kind lane) kind 0 1 0 := by
  refine a.moves_change kind lane fun t => ?_
  rw [Int64.add_zero]
  rfl

theorem moves_countFree : Moves a (a.countFree kind lane) kind 0 0 1 := by
  refine a.moves_change kind lane fun t => ?_
  rw [Int64.add_zero]
  rfl

theorem Moves.trans {a a' a'' : Account} {kind : Kind} {d d' : Int64} {p p' q q' : Nat}
    (h : Moves a a' kind d p q) (h' : Moves a' a'' kind d' p' q') :
    Moves a a'' kind (d + d') (p + p') (q + q') := by
  constructor
  all_goals intro other
  · rw [h'.bytes, h.bytes]
    split
    · rw [Int64.add_assoc]
    · rw [Int64.add_zero, Int64.add_zero]
  · rw [h'.allocations, h.allocations]
    split <;> omega
  · rw [h'.frees, h.frees]
    split <;> omega

/-- The total is a matter of bytes alone. -/
theorem outstanding_countAllocation : (a.countAllocation kind lane).outstanding = a.outstanding := by
  have hplain := (a.moves_countAllocation kind lane).bytes .plain
  have hcontiguous := (a.moves_countAllocation kind lane).bytes .contiguous
  rw [ite_self, Int64.add_zero] at hplain hcontiguous
  change (a.countAllocation kind lane).plain.bytes = a.plain.bytes at hplain
  change (a.countAllocation kind lane).contiguous.bytes = a.contiguous.bytes at hcontiguous
  rw [outstanding, hplain, hcontiguous, outstanding]

end Account

/-! ## All that a request can do -/

/-- What a budget lets through: the charge can be counted, and with it the total is within the ceiling. -/
structure Fits (b : Budget) (kind : Kind) (lane : Lane) (n : Nat) : Prop where
  le_ceiling : n ≤ b.ceiling
  lt_signedBound : n < signedBound
  within : (b.charge kind lane n).outstanding ≤ b.ceiling

theorem credit_charge (b : Budget) (kind : Kind) (lane : Lane) (n : Nat) :
    (b.charge kind lane n).credit kind lane n = b := by
  rw [charge, credit, Account.credit_charge]

theorem reserve_of_fits {b : Budget} {kind : Kind} {lane : Lane} {n : Nat} (h : Fits b kind lane n) :
    b.reserve kind lane n = (.ok (), b.charge kind lane n) := by
  have hself : ¬ (b.ceiling < n ∨ signedBound ≤ n) :=
    not_or_intro (Nat.not_lt.2 h.le_ceiling) (Nat.not_le.2 h.lt_signedBound)
  unfold reserve
  rw [if_neg hself]
  dsimp only
  rw [if_neg (Nat.not_lt.2 h.within)]

/-- A charge is refused with a word of what is asked for, what is outstanding and what the ceiling is. -/
theorem reserve_error {b : Budget} {kind : Kind} {lane : Lane} {n : Nat} {e : Failure}
    (h : (b.reserve kind lane n).1 = .error e) : ∃ held, e = .outOfMemory n held b.ceiling := by
  unfold reserve at h
  split at h
  · cases h
    exact ⟨_, rfl⟩
  · dsimp only at h
    split at h
    · cases h
      exact ⟨_, rfl⟩
    · cases h

/-- A charge is refused and leaves no trace, or it is made. -/
theorem reserve_cases (b : Budget) (kind : Kind) (lane : Lane) (n : Nat) :
    (∃ e, b.reserve kind lane n = (.error e, b)) ∨
      (Fits b kind lane n ∧ b.reserve kind lane n = (.ok (), b.charge kind lane n)) := by
  by_cases hfits : Fits b kind lane n
  · exact .inr ⟨hfits, reserve_of_fits hfits⟩
  · unfold reserve
    split
    · exact .inl ⟨_, rfl⟩
    · rename_i hn
      -- the charge is made before it is checked, and a refused one is taken back
      have ht : b.ceiling < (b.charge kind lane n).outstanding := by
        refine Nat.lt_of_not_le fun hle => hfits ⟨by omega, by omega, hle⟩
      refine .inl ⟨.outOfMemory n ((b.charge kind lane n).outstanding - n) b.ceiling, ?_⟩
      simp only [if_pos ht, credit_charge]

/-- A request for a block is refused and leaves no trace, or the charged size is granted. -/
theorem alloc_cases (heap : Heap) (b : Budget) (kind : Kind) (lane : Lane) (comment : Option String)
    (size : Nat) :
    (∃ e, b.alloc heap kind lane comment size = (.error e, b)) ∨
      ∃ n, chargedSize kind size = .ok n ∧ Fits b kind lane n ∧
        b.alloc heap kind lane comment size =
          (.ok ((b.charge kind lane n).grant kind lane comment n).1,
            ((b.charge kind lane n).grant kind lane comment n).2) := by
  unfold alloc
  cases hs : chargedSize kind size with
  | error e => exact .inl ⟨e, rfl⟩
  | ok n =>
    rcases b.reserve_cases kind lane n with ⟨e, hr⟩ | ⟨hfits, hr⟩
    · exact .inl ⟨e, by simp only [hr]⟩
    · by_cases hheap : heap.has n = true
      · exact .inr ⟨n, rfl, hfits, by simp only [hr, if_pos hheap]⟩
      · refine .inl ⟨.exhausted n, ?_⟩
        simp only [hr, if_neg hheap, credit_charge]

/-- A request for another size is refused and leaves no trace, or the block is cut or grown to the charged
size, and the difference is given back or charged. -/
theorem resize_cases (heap : Heap) (b : Budget) (lane : Lane) (block : Block) (size : Nat) :
    (∃ e, b.resize heap lane block size = (.error e, b)) ∨
      ∃ n, chargedSize block.kind size = .ok n ∧ ∃ b',
        b.resize heap lane block size =
          (.ok { block with contents := block.contents.resize n }, b'.noteSize block.id n) ∧
        ((block.size < n ∧ Fits b block.kind lane (n - block.size) ∧
            b' = b.charge block.kind lane (n - block.size)) ∨
          (n ≤ block.size ∧ b' = b.credit block.kind lane (block.size - n))) := by
  unfold resize
  cases hs : chargedSize block.kind size with
  | error e => exact .inl ⟨e, rfl⟩
  | ok n =>
    -- only growth asks for anything; a block that is cut or stays as it is cannot be refused
    by_cases hgrows : block.size < n
    · rcases b.reserve_cases block.kind lane (n - block.size) with ⟨e, hr⟩ | ⟨hfits, hr⟩
      · exact .inl ⟨e, by simp only [if_pos hgrows, hr]⟩
      · by_cases hheap : heap.has n = true
        · refine .inr ⟨n, rfl, _, ?_, .inl ⟨hgrows, hfits, rfl⟩⟩
          simp only [if_pos hgrows, hr, if_pos hheap]
        · refine .inl ⟨.exhausted (n - block.size), ?_⟩
          simp only [if_pos hgrows, hr, if_neg hheap, credit_charge]
    · refine .inr ⟨n, rfl, _, ?_, .inr ⟨Nat.le_of_not_lt hgrows, rfl⟩⟩
      simp only [if_neg hgrows]

/-! ### Of a request that succeeds, and of one that fails -/

section Answers

variable {b b' : Budget} {heap : Heap} {lane : Lane} {size : Nat} {block block' : Block}

theorem alloc_noted {kind : Kind} {comment : Option String}
    (h : b.alloc heap kind lane comment size = (.ok block, b')) :
    block.id = b.nextId ∧ b'.nextId = b.nextId + 1 ∧ b'.ceiling = b.ceiling ∧
      b'.ledger = b.ledger.map (·.record ⟨block.id, block.size, block.kind, comment⟩) := by
  rcases alloc_cases heap b kind lane comment size with ⟨e, hr⟩ | ⟨n, -, -, hr⟩
  · rw [hr] at h
    cases h
  · rw [hr] at h
    cases h
    refine ⟨rfl, rfl, rfl, ?_⟩
    -- a fresh block is as long as its entry says
    have hsize : ((b.charge kind lane n).grant kind lane comment n).1.size = n := Contents.size_zeroed n
    rw [hsize]
    rfl

theorem resize_noted (h : b.resize heap lane block size = (.ok block', b')) :
    block'.id = block.id ∧ block'.kind = block.kind ∧ b'.nextId = b.nextId ∧ b'.ceiling = b.ceiling ∧
      b'.ledger = b.ledger.map (·.resized block.id block'.size) := by
  rcases resize_cases heap b lane block size with ⟨e, hr⟩ | ⟨n, -, b₁, hr, hcases⟩
  · rw [hr] at h
    cases h
  · rw [hr] at h
    cases h
    have hsize : ({ block with contents := block.contents.resize n } : Block).size = n :=
      Contents.size_resize block.contents n
    -- the figures were charged or credited before; neither touches ledger or next id
    rcases hcases with ⟨-, -, rfl⟩ | ⟨-, rfl⟩
    · exact ⟨rfl, rfl, rfl, rfl, by rw [hsize]; rfl⟩
    · exact ⟨rfl, rfl, rfl, rfl, by rw [hsize]; rfl⟩

/-- A budget signs what it grants. -/
theorem alloc_signed {kind : Kind} {comment : Option String}
    (h : b.alloc heap kind lane comment size = (.ok block, b')) : block.owner = b.key ∧ b'.key = b.key := by
  rcases alloc_cases heap b kind lane comment size with ⟨e, hr⟩ | ⟨n, -, -, hr⟩
  · rw [hr] at h
    cases h
  · rw [hr] at h
    cases h
    exact ⟨rfl, rfl⟩

theorem resize_signed (h : b.resize heap lane block size = (.ok block', b')) :
    block'.owner = block.owner ∧ b'.key = b.key := by
  rcases resize_cases heap b lane block size with ⟨e, hr⟩ | ⟨n, -, b₁, hr, hcases⟩
  · rw [hr] at h
    cases h
  · rw [hr] at h
    cases h
    rcases hcases with ⟨-, -, rfl⟩ | ⟨-, rfl⟩ <;> exact ⟨rfl, rfl⟩

theorem alloc_error {kind : Kind} {comment : Option String} {e : Failure}
    (h : b.alloc heap kind lane comment size = (.error e, b')) : b' = b := by
  rcases alloc_cases heap b kind lane comment size with ⟨e', hr⟩ | ⟨n, -, -, hr⟩
  · rw [hr] at h
    cases h
    rfl
  · rw [hr] at h
    cases h

theorem resize_error {e : Failure} (h : b.resize heap lane block size = (.error e, b')) : b' = b := by
  rcases resize_cases heap b lane block size with ⟨e', hr⟩ | ⟨n, -, b₁, hr, -⟩
  · rw [hr] at h
    cases h
    rfl
  · rw [hr] at h
    cases h

end Answers

/-! ## The tally of the live blocks -/

/-- The figures of a budget are those of a collection of live blocks. Bytes are told modulo two to the
sixty-fourth, so this needs no bound on the ceiling. An id that no live block has and that was given out belongs
to a block that was returned. -/
structure Tallied (b : Budget) (live : Multiset Block) : Prop where
  bytes : ∀ kind, (b.account.ofKind kind).bytes = Int64.ofNat (bytesOf kind live)
  counts : ∀ kind, (b.account.ofKind kind).allocations =
    (b.account.ofKind kind).frees + countOf kind live
  fresh : ∀ block ∈ live, block.id < b.nextId
  distinct : (live.map Block.id).Nodup

namespace Tallied

theorem new (key ceiling : Nat) (tracking : Bool) : Tallied (Budget.new key ceiling tracking) 0 where
  bytes := by
    intro kind
    cases kind <;> rfl
  counts := by
    intro kind
    cases kind <;> rfl
  fresh := by
    intro block h
    exact absurd h (Multiset.notMem_zero block)
  distinct := Multiset.nodup_zero

variable {b : Budget} {live : Multiset Block}

/-- Neither ledger nor ceiling has a part in the tally. -/
theorem of_account {b' : Budget} (h : Tallied b live) (ha : b'.account = b.account)
    (hn : b'.nextId = b.nextId) : Tallied b' live where
  bytes := by rw [ha]; exact h.bytes
  counts := by rw [ha]; exact h.counts
  fresh := by rw [hn]; exact h.fresh
  distinct := h.distinct

/-- The tally follows a move of the figures that fits the change of the live blocks. -/
theorem moved {b' : Budget} {live' : Multiset Block} {kind : Kind} {d : Int64} {p q : Nat}
    (h : Tallied b live) (hm : Account.Moves b.account b'.account kind d p q)
    (hbytes : ∀ other, Int64.ofNat (bytesOf other live') =
      Int64.ofNat (bytesOf other live) + if kind = other then d else 0)
    (hcount : ∀ other, (countOf other live' + if kind = other then q else 0) =
      countOf other live + if kind = other then p else 0)
    (hfresh : ∀ block ∈ live', block.id < b'.nextId) (hdistinct : (live'.map Block.id).Nodup) :
    Tallied b' live' where
  bytes := by
    intro other
    rw [hm.bytes, h.bytes, hbytes]
  counts := by
    intro other
    have := hcount other
    -- each side counts what the move adds, so the frees of the old figures cancel
    rw [hm.allocations, hm.frees, h.counts]
    omega
  fresh := hfresh
  distinct := hdistinct

theorem grant (h : Tallied b live) (kind : Kind) (lane : Lane) (comment : Option String) (n : Nat) :
    Tallied ((b.charge kind lane n).grant kind lane comment n).2
      (((b.charge kind lane n).grant kind lane comment n).1 ::ₘ live) := by
  have hsize : ((b.charge kind lane n).grant kind lane comment n).1.size = n :=
    Contents.size_zeroed n
  refine h.moved ((b.account.moves_charge kind lane n).trans
    ((b.account.charge kind lane n).moves_countAllocation kind lane)) ?_ ?_ ?_ ?_
  · intro other
    rw [bytesOf_cons, hsize]
    change Int64.ofNat ((if kind = other then n else 0) + _) = _
    split <;> simp [Int64.add_comm]
  · intro other
    rw [countOf_cons]
    change countOf other live + (if kind = other then 1 else 0) + _ = _
    split <;> rfl
  · intro block hblock
    rcases Multiset.mem_cons.1 hblock with rfl | hblock
    · exact Nat.lt_succ_self b.nextId
    · exact Nat.lt_succ_of_lt (h.fresh block hblock)
  · -- the id was not given out before
    rw [Multiset.map_cons, Multiset.nodup_cons]
    refine ⟨fun hid => ?_, h.distinct⟩
    obtain ⟨block, hblock, hid⟩ := Multiset.mem_map.1 hid
    exact absurd (h.fresh block hblock) (Nat.not_lt.2 (Nat.le_of_eq hid.symm))

theorem alloc (h : Tallied b live) {heap : Heap} {kind : Kind} {lane : Lane} {comment : Option String}
    {size : Nat} {block : Block} {b' : Budget}
    (ha : b.alloc heap kind lane comment size = (.ok block, b')) : Tallied b' (block ::ₘ live) := by
  rcases alloc_cases heap b kind lane comment size with ⟨e, hr⟩ | ⟨n, -, -, hr⟩
  · rw [hr] at ha
    cases ha
  · rw [hr] at ha
    cases ha
    exact h.grant kind lane comment n

theorem free {block : Block} (h : Tallied b (block ::ₘ live)) (lane : Lane) :
    Tallied (b.free lane block) live := by
  refine h.moved ((b.account.moves_credit block.kind lane block.size).trans
    ((b.account.credit block.kind lane block.size).moves_countFree block.kind lane)) ?_ ?_ ?_ ?_
  · intro other
    rw [bytesOf_cons, Int64.ofNat_add]
    split <;> grind
  · intro other
    rw [countOf_cons]
    split <;> rfl
  · intro other hother
    exact h.fresh other (Multiset.mem_cons_of_mem hother)
  · have hd := h.distinct
    rw [Multiset.map_cons, Multiset.nodup_cons] at hd
    exact hd.2

/-- Another size of a block moves the bytes of its kind by the difference and no count. -/
theorem resized {block block' : Block} {b' : Budget} {d : Int64} (h : Tallied b (block ::ₘ live))
    (hid : block'.id = block.id) (hkind : block'.kind = block.kind)
    (hm : Account.Moves b.account b'.account block.kind d 0 0)
    (hd : Int64.ofNat block'.size = Int64.ofNat block.size + d) (hn : b'.nextId = b.nextId) :
    Tallied b' (block' ::ₘ live) := by
  -- the same blocks by id and kind, so only the bytes of one kind differ
  refine h.moved hm ?_ ?_ ?_ ?_
  · intro other
    rw [bytesOf_cons, bytesOf_cons, hkind, Int64.ofNat_add, Int64.ofNat_add]
    split
    · rw [hd]
      grind
    · rw [Int64.add_zero]
  · intro other
    rw [countOf_cons, countOf_cons, hkind]
  · intro other hother
    rw [hn]
    rcases Multiset.mem_cons.1 hother with rfl | hother
    · rw [hid]
      exact h.fresh block (Multiset.mem_cons_self block live)
    · exact h.fresh other (Multiset.mem_cons_of_mem hother)
  · have hd := h.distinct
    rwa [Multiset.map_cons, ← hid, ← Multiset.map_cons Block.id block'] at hd

theorem resize {block : Block} (h : Tallied b (block ::ₘ live)) {heap : Heap} {lane : Lane}
    {size : Nat} {block' : Block} {b' : Budget}
    (hr : b.resize heap lane block size = (.ok block', b')) : Tallied b' (block' ::ₘ live) := by
  rcases resize_cases heap b lane block size with ⟨e, he⟩ | ⟨n, -, b₁, hn, hcases⟩
  · rw [he] at hr
    cases hr
  rw [hn] at hr
  cases hr
  have hsize : ({ block with contents := block.contents.resize n } : Block).size = n :=
    Contents.size_resize block.contents n
  rcases hcases with ⟨hlt, -, rfl⟩ | ⟨hle, rfl⟩
  · refine h.resized rfl rfl (b.account.moves_charge block.kind lane (n - block.size)) ?_ rfl
    rw [hsize, ← Int64.ofNat_add, Nat.add_sub_cancel' (Nat.le_of_lt hlt)]
  · refine h.resized rfl rfl (b.account.moves_credit block.kind lane (block.size - n)) ?_ rfl
    rw [hsize, Int64.ofNat_sub _ _ hle]
    grind

/-! ### Reading the figures -/

theorem outstandingOf_eq (h : Tallied b live) {kind : Kind} (hlt : bytesOf kind live < signedBound) :
    b.account.outstandingOf kind = bytesOf kind live := by
  rw [Account.outstandingOf, h.bytes, Int64.toNatClampNeg_ofNat_of_lt hlt]

theorem outstanding_eq (h : Tallied b live) (hlt : (live.map Block.size).sum < signedBound) :
    b.outstanding = (live.map Block.size).sum := by
  have hplain : b.account.plain.bytes = Int64.ofNat (bytesOf .plain live) := h.bytes .plain
  have hcontiguous : b.account.contiguous.bytes = Int64.ofNat (bytesOf .contiguous live) :=
    h.bytes .contiguous
  rw [outstanding, Account.outstanding, hplain, hcontiguous, ← Int64.ofNat_add, bytesOf_add_bytesOf,
    Int64.toNatClampNeg_ofNat_of_lt hlt]

/-! ### The ceiling -/

/-- The check after a charge sees the true total, because both parts of it are at or below a ceiling that is
less than half of what a counter can hold. -/
theorem le_ceiling_of_outstanding (h : Tallied b live) (hc : b.ceiling < 2 ^ 62) {s n : Nat} (hs : s ≤ b.ceiling)
    (hn : n ≤ b.ceiling) (hsum : (live.map Block.size).sum = n + s) (ho : b.outstanding ≤ b.ceiling) :
    (live.map Block.size).sum ≤ b.ceiling := by
  -- read backwards: what the check saw was not wrapped, so it was the true sum
  rwa [h.outstanding_eq] at ho
  rw [hsum, signedBound]
  omega

/-- What is granted stays within the ceiling. -/
theorem alloc_within (h : Tallied b live) (hc : b.ceiling < 2 ^ 62) (hw : (live.map Block.size).sum ≤ b.ceiling)
    {heap : Heap} {kind : Kind} {lane : Lane} {comment : Option String} {size : Nat} {block : Block} {b' : Budget}
    (ha : b.alloc heap kind lane comment size = (.ok block, b')) :
    ((block ::ₘ live).map Block.size).sum ≤ b.ceiling := by
  have ht := h.alloc ha
  rcases alloc_cases heap b kind lane comment size with ⟨e, hr⟩ | ⟨n, -, hfits, hr⟩
  · rw [hr] at ha
    cases ha
  · rw [hr] at ha
    cases ha
    refine ht.le_ceiling_of_outstanding hc hw hfits.le_ceiling ?_ ?_
    · rw [Multiset.map_cons, Multiset.sum_cons]
      exact congrArg (· + _) (Contents.size_zeroed n)
    · exact (Account.outstanding_countAllocation _ kind lane).le.trans hfits.within

/-- So does what is resized: only the growth is charged, and what the block had is part of the old total. -/
theorem resize_within {block : Block} (h : Tallied b (block ::ₘ live)) (hc : b.ceiling < 2 ^ 62)
    (hw : ((block ::ₘ live).map Block.size).sum ≤ b.ceiling) {heap : Heap} {lane : Lane} {size : Nat}
    {block' : Block} {b' : Budget} (hr : b.resize heap lane block size = (.ok block', b')) :
    ((block' ::ₘ live).map Block.size).sum ≤ b.ceiling := by
  have ht := h.resize hr
  rcases resize_cases heap b lane block size with ⟨e, he⟩ | ⟨n, -, b₁, hn, hcases⟩
  · rw [he] at hr
    cases hr
  rw [hn] at hr
  cases hr
  have hsize : ({ block with contents := block.contents.resize n } : Block).size = n :=
    Contents.size_resize block.contents n
  rw [Multiset.map_cons, Multiset.sum_cons] at hw
  rcases hcases with ⟨hlt, hfits, rfl⟩ | ⟨hle, rfl⟩
  · refine ht.le_ceiling_of_outstanding hc hw hfits.le_ceiling ?_ hfits.within
    rw [Multiset.map_cons, Multiset.sum_cons, hsize]
    omega
  · -- what is cut needs no check
    rw [Multiset.map_cons, Multiset.sum_cons, hsize]
    exact (Nat.add_le_add_right hle _).trans hw

/-- The bytes of a block have no part in the tally. -/
theorem written {block : Block} (h : Tallied b (block ::ₘ live)) (start : Nat) (data : List UInt8) :
    Tallied b (block.write start data ::ₘ live) := by
  have hsize : (block.write start data).size = block.size := Contents.size_write _ start data
  -- a block as long as before is a resized one, by nothing
  refine h.resized rfl rfl (d := 0) ?_ ?_ rfl
  · constructor
    all_goals
      intro other
      rw [ite_self]
    · rw [Int64.add_zero]
    · rfl
    · rfl
  · rw [hsize, Int64.add_zero]

end Tallied

/-! ## The blocks that came back -/

/-- The frees of a budget are those of a collection of returned blocks. -/
def Returned (b : Budget) (back : Multiset Block) : Prop :=
  ∀ kind, (b.account.ofKind kind).frees = countOf kind back

namespace Returned

variable {b : Budget} {back : Multiset Block}

theorem new (key ceiling : Nat) (tracking : Bool) : Returned (Budget.new key ceiling tracking) 0 := by
  intro kind
  cases kind <;> rfl

/-- Moves of the figures that count no free. -/
theorem moved {b' : Budget} {kind : Kind} {d : Int64} {p : Nat} (h : Returned b back)
    (hm : Account.Moves b.account b'.account kind d p 0) : Returned b' back := by
  intro other
  rw [hm.frees, ite_self, Nat.add_zero, h]

theorem alloc (h : Returned b back) {heap : Heap} {kind : Kind} {lane : Lane}
    {comment : Option String} {size : Nat} {block : Block} {b' : Budget}
    (ha : b.alloc heap kind lane comment size = (.ok block, b')) : Returned b' back := by
  rcases alloc_cases heap b kind lane comment size with ⟨e, hr⟩ | ⟨n, -, -, hr⟩
  · rw [hr] at ha
    cases ha
  · rw [hr] at ha
    cases ha
    exact h.moved ((b.account.moves_charge kind lane n).trans
      ((b.account.charge kind lane n).moves_countAllocation kind lane))

theorem resize (h : Returned b back) {heap : Heap} {lane : Lane} {block block' : Block} {size : Nat}
    {b' : Budget} (hr : b.resize heap lane block size = (.ok block', b')) : Returned b' back := by
  rcases resize_cases heap b lane block size with ⟨e, he⟩ | ⟨n, -, b₁, hn, hcases⟩
  · rw [he] at hr
    cases hr
  rw [hn] at hr
  cases hr
  rcases hcases with ⟨-, -, rfl⟩ | ⟨-, rfl⟩
  · exact h.moved (b.account.moves_charge block.kind lane (n - block.size))
  · exact h.moved (b.account.moves_credit block.kind lane (block.size - n))

theorem free (h : Returned b back) (lane : Lane) (block : Block) :
    Returned (b.free lane block) (block ::ₘ back) := by
  intro kind
  have hm := (b.account.moves_credit block.kind lane block.size).trans
    ((b.account.credit block.kind lane block.size).moves_countFree block.kind lane)
  rw [countOf_cons, ← h kind]
  exact hm.frees kind

end Returned

/-! ## The blocks that were granted -/

/-- The ids that a budget gave out, which start after zero, are those of these blocks, one of each. -/
def Numbered (b : Budget) (granted : Multiset Block) : Prop :=
  0 ::ₘ granted.map Block.id = Multiset.range b.nextId

namespace Numbered

variable {b b' : Budget} {granted : Multiset Block} {block block' : Block}

theorem new (key ceiling : Nat) (tracking : Bool) : Numbered (Budget.new key ceiling tracking) 0 := rfl

/-- A block that is granted has the next id. -/
theorem alloc (h : Numbered b granted) {heap : Heap} {kind : Kind} {lane : Lane} {comment : Option String}
    {size : Nat} (ha : b.alloc heap kind lane comment size = (.ok block, b')) :
    Numbered b' (block ::ₘ granted) := by
  obtain ⟨hid, hnext, -, -⟩ := alloc_noted ha
  unfold Numbered
  rw [Multiset.map_cons, Multiset.cons_swap, hnext, Multiset.range_succ, hid]
  exact congrArg _ h

/-- The ids are all that counts, and the next one to be given out. -/
theorem of_ids {granted' : Multiset Block} (h : Numbered b granted)
    (hids : granted'.map Block.id = granted.map Block.id) (hnext : b'.nextId = b.nextId) : Numbered b' granted' := by
  unfold Numbered
  rw [hids, hnext]
  exact h

/-- Listed, the ids are those from one up to the next one. -/
theorem perm_range {blocks : List Block} (h : Numbered b (blocks : Multiset Block)) :
    (blocks.map Block.id).Perm (List.range' 1 (b.nextId - 1)) := by
  have hzero : (0 :: blocks.map Block.id).Perm (List.range b.nextId) := Multiset.coe_eq_coe.1 h
  obtain ⟨given, hgiven⟩ : ∃ given, b.nextId = given + 1 :=
    Nat.exists_eq_succ_of_ne_zero (Nat.ne_zero_of_lt (List.mem_range.1 (hzero.subset List.mem_cons_self)))
  rw [hgiven, List.range_eq_range', List.range'_succ] at hzero
  rw [hgiven, Nat.add_sub_cancel]
  exact hzero.cons_inv

end Numbered

end Budget

end Patchbay
