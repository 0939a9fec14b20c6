import Patchbay.Proofs.Budget.Accounting
import Patchbay.Proofs.Inbox.Granting

/-!
# `Proofs.Budget.Borrowing` — what was lent and came back makes no difference

A budget decides a request by its ceiling and by the bytes that are out, and the pool by the headers that are out. So a
block that was lent for a while and came back leaves every later request where it was: granted or refused as before.

## Contents
* `Budget.isOk_alloc_iff` — when a block is granted;
* `Budget.Alike`, `Budget.alike_returned` — budgets that decide alike, and one that had a block back;
* `Memory.Keyed` — budgets in their places;
* `Memory.Even`, `Memory.even_returned` — memories that decide alike, and one that had a block back.
-/

namespace Patchbay

namespace Budget

variable {b b' b'' : Budget} {heap : Heap} {kind : Kind} {lane : Lane} {comment : Option String} {size n : Nat}

/-- A block is granted if the charge fits and the system allocator has it. -/
theorem isOk_alloc_iff : (b.alloc heap kind lane comment size).1.toBool = true ↔
    ∃ n, chargedSize kind size = .ok n ∧ Fits b kind lane n ∧ heap.has n = true := by
  constructor
  · intro h
    unfold alloc at h
    cases hs : chargedSize kind size with
    | error e =>
      rw [hs] at h
      cases h
    | ok n =>
      rw [hs] at h
      dsimp only at h
      rcases b.reserve_cases kind lane n with ⟨e, hr⟩ | ⟨hfits, hr⟩
      · rw [hr] at h
        cases h
      · rw [hr] at h
        dsimp only at h
        split at h
        · exact ⟨n, rfl, hfits, by assumption⟩
        · cases h
  · rintro ⟨n, hs, hfits, hheap⟩
    unfold alloc
    rw [hs]
    dsimp only
    rw [reserve_of_fits hfits]
    dsimp only
    rw [if_pos hheap]
    rfl

/-- Two budgets that decide alike: they are in each other's place, and as much is out under the same ceiling. -/
structure Alike (b b' : Budget) : Prop where
  key : b'.key = b.key
  ceiling : b'.ceiling = b.ceiling
  bytes : ∀ kind, (b'.account.ofKind kind).bytes = (b.account.ofKind kind).bytes

/-- A budget decides as it does. -/
theorem Alike.refl (b : Budget) : b.Alike b := ⟨rfl, rfl, fun _ => rfl⟩

/-- Budgets that decide as one and the same decide alike. -/
theorem Alike.trans (h : b.Alike b') (h' : b'.Alike b'') : b.Alike b'' :=
  ⟨h'.key.trans h.key, h'.ceiling.trans h.ceiling, fun kind => (h'.bytes kind).trans (h.bytes kind)⟩

/-- What fits into a budget fits into one that decides alike. -/
theorem Alike.fits (h : b.Alike b') (hf : Fits b kind lane n) : Fits b' kind lane n := by
  have hbytes (other : Kind) : ((b'.charge kind lane n).account.ofKind other).bytes =
      ((b.charge kind lane n).account.ofKind other).bytes := by
    rw [charge, charge, (b'.account.moves_charge kind lane n).bytes, (b.account.moves_charge kind lane n).bytes,
      h.bytes]
  have hplain : (b'.charge kind lane n).account.plain.bytes = (b.charge kind lane n).account.plain.bytes :=
    hbytes .plain
  have hpages : (b'.charge kind lane n).account.contiguous.bytes =
      (b.charge kind lane n).account.contiguous.bytes := hbytes .contiguous
  have hout : (b'.charge kind lane n).outstanding = (b.charge kind lane n).outstanding := by
    rw [outstanding, outstanding, Account.outstanding, Account.outstanding, hplain, hpages]
  exact ⟨h.ceiling ▸ hf.le_ceiling, hf.lt_signedBound, by rw [hout, h.ceiling]; exact hf.within⟩

/-- It grants what the other one grants, whatever the note says. -/
theorem Alike.alloc {note : Option String} (h : b.Alike b')
    (hok : (b.alloc heap kind lane comment size).1.toBool = true) :
    (b'.alloc heap kind lane note size).1.toBool = true := by
  obtain ⟨n, hs, hfits, hheap⟩ := isOk_alloc_iff.1 hok
  exact isOk_alloc_iff.2 ⟨n, hs, h.fits hfits, hheap⟩

/-- Two budgets that decide alike still do when a block came back to both, on whatever lanes. -/
theorem Alike.free (h : b.Alike b') (lane lane' : Lane) (block : Block) :
    (b.free lane block).Alike (b'.free lane' block) := by
  refine ⟨h.key, h.ceiling, fun kind => ?_⟩
  have hback (a : Account) (lane : Lane) :
      (((a.credit block.kind lane block.size).countFree block.kind lane).ofKind kind).bytes =
        (a.ofKind kind).bytes + if block.kind = kind then -Int64.ofNat block.size else 0 := by
    rw [((a.moves_credit block.kind lane block.size).trans
      ((a.credit block.kind lane block.size).moves_countFree block.kind lane)).bytes, Int64.add_zero]
  exact (hback _ _).trans ((congrArg (· + _) (h.bytes kind)).trans (hback _ _).symm)

/-- A budget that granted a block and had it back, or one of that size and kind. -/
theorem alike_returned {block other : Block} (h : b.alloc heap kind lane comment size = (.ok block, b'))
    (hkind : other.kind = block.kind) (hsize : other.size = block.size) : b.Alike (b'.free lane other) := by
  rcases alloc_cases heap b kind lane comment size with ⟨e, hr⟩ | ⟨n, -, -, hr⟩
  · rw [hr] at h
    cases h
  rw [hr] at h
  cases h
  refine ⟨rfl, rfl, fun other' => ?_⟩
  have hgranted : ((b.charge kind lane n).grant kind lane comment n).1.size = n := Contents.size_zeroed n
  have hmoves := ((((b.account.moves_charge kind lane n).trans (Account.moves_countAllocation _ kind lane)).trans
    (Account.moves_credit _ kind lane n)).trans (Account.moves_countFree _ kind lane)).bytes other'
  show (((((b.account.charge kind lane n).countAllocation kind lane).credit other.kind lane other.size).countFree
    other.kind lane).ofKind other').bytes = _
  rw [show other.kind = kind from hkind, hsize, hgranted, hmoves]
  split
  · rw [Int64.add_zero, Int64.add_zero, Int64.add_right_neg, Int64.add_zero]
  · rw [Int64.add_zero]

end Budget

namespace Memory

open Budget (Block Kind)

variable {m m' m'' : Memory} {key size count : Nat} {kind : Kind} {comment : Option String}

/-- Each budget stands in the place that its blocks name. -/
def Keyed (m : Memory) : Prop :=
  ∀ ⦃place : Nat⦄ ⦃b : Budget⦄, m.budgets[place]? = some b → b.key = place

/-- Two memories that decide alike: each budget of one has its like in the other, and as many headers are out. -/
structure Even (m m' : Memory) : Prop where
  heap : m'.heap = m.heap
  lane : m'.lane = m.lane
  limit : m'.pool.limit = m.pool.limit
  headersLive : m'.pool.headersLive = m.pool.headersLive
  budgets : ∀ place : Nat, Option.Rel Budget.Alike m.budgets[place]? m'.budgets[place]?

theorem rel_alike_refl (b? : Option Budget) : Option.Rel Budget.Alike b? b? := by
  cases b? with
  | none => exact .none
  | some b => exact .some (.refl b)

/-- Only heap, lane, headers and budgets have a part in it. -/
theorem Even.of_same (hheap : m'.heap = m.heap) (hlane : m'.lane = m.lane) (hlimit : m'.pool.limit = m.pool.limit)
    (hlive : m'.pool.headersLive = m.pool.headersLive) (hbudgets : m'.budgets = m.budgets) : m.Even m' :=
  ⟨hheap, hlane, hlimit, hlive, fun _ => hbudgets ▸ rel_alike_refl _⟩

/-- A memory decides as it does. -/
theorem Even.refl (m : Memory) : m.Even m := .of_same rfl rfl rfl rfl rfl

/-- Memories that decide as one and the same decide alike. -/
theorem Even.trans (h : m.Even m') (h' : m'.Even m'') : m.Even m'' where
  heap := h'.heap.trans h.heap
  lane := h'.lane.trans h.lane
  limit := h'.limit.trans h.limit
  headersLive := h'.headersLive.trans h.headersLive
  budgets place := by
    have hfirst := h.budgets place
    have hsecond := h'.budgets place
    generalize m.budgets[place]? = b? at hfirst ⊢
    generalize m'.budgets[place]? = b'? at hfirst hsecond
    generalize m''.budgets[place]? = b''? at hsecond ⊢
    cases hfirst with
    | none => exact hsecond
    | some halike =>
      cases hsecond with
      | some halike' => exact .some (halike.trans halike')

/-- There are as many headers free in the one as in the other. -/
theorem Even.hasHeaders (h : m.Even m') (hm : m.HasHeaders count) : m'.HasHeaders count := by
  intro limit hlimit
  rw [h.limit] at hlimit
  rw [h.headersLive]
  exact hm limit hlimit

theorem Even.keyed (h : m.Even m') (hm : m.Keyed) : m'.Keyed := by
  intro place b' hb'
  have hbudget := h.budgets place
  rw [hb'] at hbudget
  cases hb : m.budgets[place]? with
  | none =>
    rw [hb] at hbudget
    cases hbudget
  | some b =>
    rw [hb] at hbudget
    cases hbudget with
    | some halike => exact halike.key.trans (hm hb)

/-- A request that the one grants, the other grants too. -/
theorem Even.alloc {note : Option String} (h : m.Even m') (hok : (m.alloc key kind comment size).1.toBool = true) :
    (m'.alloc key kind note size).1.toBool = true := by
  have hbudget := h.budgets key
  unfold Memory.alloc at hok ⊢
  generalize m.budgets[key]? = b? at hbudget hok
  generalize m'.budgets[key]? = b'? at hbudget ⊢
  cases hbudget with
  | none => cases hok
  | some halike =>
    rw [h.heap, h.lane]
    exact halike.alloc hok

/-- A block that comes back goes to its own budget, if there is one. -/
theorem getElem?_free_self (m : Memory) (block : Block) :
    (m.free block).budgets[block.owner]? = m.budgets[block.owner]?.map fun b => b.free m.lane block := by
  unfold Memory.free
  cases h : m.budgets[block.owner]? with
  | none => exact h
  | some b => exact Array.getElem?_setIfInBounds_self_of_lt (Array.getElem?_eq_some_iff.1 h).1

/-- A block that comes back is no matter of other budgets. -/
theorem getElem?_free_of_ne {block : Block} (h : block.owner ≠ key) :
    (m.free block).budgets[key]? = m.budgets[key]? := by
  unfold Memory.free
  split
  · rfl
  · exact Array.getElem?_setIfInBounds_ne h

/-- A block that comes back to both leaves them even. -/
theorem Even.free (h : m.Even m') (block : Block) : (m.free block).Even (m'.free block) := by
  have hrest (m : Memory) : (m.free block).heap = m.heap ∧ (m.free block).lane = m.lane := by
    unfold Memory.free
    split <;> exact ⟨rfl, rfl⟩
  refine ⟨?_, ?_, ?_, ?_, fun key => ?_⟩
  · rw [(hrest m).1, (hrest m').1, h.heap]
  · rw [(hrest m).2, (hrest m').2, h.lane]
  · rw [(m.free_frame block).1, (m'.free_frame block).1, h.limit]
  · rw [(m.free_frame block).1, (m'.free_frame block).1, h.headersLive]
  by_cases howner : block.owner = key
  · subst howner
    rw [getElem?_free_self, getElem?_free_self]
    have hbudget := h.budgets block.owner
    generalize m.budgets[block.owner]? = b? at hbudget
    generalize m'.budgets[block.owner]? = b'? at hbudget
    cases hbudget with
    | none => exact .none
    | some halike => exact .some (halike.free _ _ block)
  · rw [getElem?_free_of_ne howner, getElem?_free_of_ne howner]
    exact h.budgets key

/-- A memory that lent a block and had it back, or one of that size and kind. -/
theorem even_returned {block other : Block} (h : m.alloc key kind comment size = (.ok block, m'))
    (hkeyed : m.Keyed) (howner : other.owner = block.owner) (hkind : other.kind = block.kind)
    (hsize : other.size = block.size) :
    m.Even (m'.free other) := by
  obtain ⟨b, b', hb, hr, rfl⟩ := alloc_ok h
  have hsigned : other.owner = key := howner.trans ((Budget.alloc_signed hr).1.trans (hkeyed hb))
  have hb' : (m.setBudget key b').budgets[other.owner]? = some b' := by
    rw [hsigned]
    exact Array.getElem?_setIfInBounds_self_of_lt (Array.getElem?_eq_some_iff.1 hb).1
  have hpool := ((m.setBudget key b').free_frame other).1
  have hfree : (m.setBudget key b').free other = (m.setBudget key b').setBudget other.owner (b'.free m.lane other) := by
    unfold Memory.free
    rw [hb']
    rfl
  refine ⟨by rw [hfree]; rfl, by rw [hfree]; rfl, by rw [hpool]; rfl, by rw [hpool]; rfl, fun other' => ?_⟩
  by_cases hkey : other.owner = other'
  · subst hkey
    rw [getElem?_free_self, hb', hsigned, hb]
    exact .some (Budget.alike_returned hr hkind hsize)
  · rw [getElem?_free_of_ne hkey]
    rw [hsigned] at hkey
    rw [show (m.setBudget key b').budgets[other']? = m.budgets[other']? from Array.getElem?_setIfInBounds_ne hkey]
    exact rel_alike_refl _

end Memory

end Patchbay
